import RatExpr.Pair

set_option autoImplicit false

/-! # Command line arguments

A command line names one or two operands, the texts of the numerator and the denominator,
and options between them. An option starts with two hyphens and stands anywhere before the
first `--`; after it every argument is an operand. An argument that starts with a hyphen
but is no option is an operand too, so that negative numbers need no quoting.

Each option is given at most once. The two limits take a value, in the same argument after
`=` or in the next argument.

This is the outer layer's own reading of the command line. It knows these operands and options and
no others; there is none that asks for help, so `-h` and `--help` are operands here. What the
command does is stated of an `Invocation`, which is a command line that has been understood.
-/

namespace RatExpr.Command

/-- The options. -/
inductive OptionName where
  | trace
  | maxDepth
  | maxExponent
  deriving DecidableEq, Repr

/-- An option as it is written. -/
def OptionName.text : OptionName → String
  | .trace => "--demarche"
  | .maxDepth => "--profondeur-max"
  | .maxExponent => "--exposant-max"

/-- Why a command line is not understood. -/
inductive UsageError where
  | missingOperand
  | tooManyOperands
  | repeatedOption (name : OptionName)
  | missingValue (name : OptionName)
  | invalidValue (name : OptionName) (value : String)
  | unexpectedValue (name : OptionName) (value : String)
  deriving DecidableEq, Repr

/-- What is wrong with a command line, in words. -/
def UsageError.message : UsageError → String
  | missingOperand => "argument manquant : NUMERATEUR"
  | tooManyOperands => "trop d’arguments"
  | repeatedOption name => s!"option répétée : {name.text}"
  | missingValue name => s!"valeur manquante : {name.text}"
  | invalidValue name value =>
      s!"valeur invalide pour {name.text} : {Text.Quoted.quote value}"
  | unexpectedValue name value =>
      s!"valeur inattendue pour {name.text} : {Text.Quoted.quote value}"

/-- One argument: an option, with the value it is given after `=`, or an operand. -/
inductive Argument where
  | option (name : OptionName) (value? : Option String)
  | operand (text : String)
  deriving DecidableEq, Repr

/-- The value after the first `=` of an argument. -/
def assigned? (arg : List Char) : Option String :=
  match arg.dropWhile (· != '=') with
  | [] => none
  | _ :: value => some (String.ofList value)

/-- What an argument is. It is an option only if it starts with the whole name of one. -/
def Argument.ofString (arg : String) : Argument :=
  let name := arg.toList.takeWhile (· != '=')
  match [OptionName.trace, .maxDepth, .maxExponent].find? fun o => o.text.toList == name with
  | some o => .option o (assigned? arg.toList)
  | none => .operand arg

example : Argument.ofString "--exposant-max=3" = .option .maxExponent (some "3") := by decide

example : Argument.ofString "-3" = .operand "-3" := by decide

/-! ## Values of options -/

/-- A natural number in decimal digits. -/
def digits? (cs : List Char) : Option Nat :=
  if cs != [] && cs.all Char.isDigit then some (Nat.ofDigitChars 10 cs 0) else none

/-- A depth: a natural number of at most 64 bits, with or without a plus sign. -/
def depth? (value : String) : Option Nat :=
  let n? := match value.toList with
    | '+' :: cs => digits? cs
    | cs => digits? cs
  n?.filter (· < 0x10000000000000000)

/-- An exponent: a natural number of at most 32 bits, with or without a sign. -/
def exponent? (value : String) : Option Nat :=
  let n? := match value.toList with
    | '+' :: cs => digits? cs
    | '-' :: cs => (digits? cs).filter (· == 0)
    | cs => digits? cs
  n?.filter (· < 0x100000000)

/-! ## The whole command line -/

/-- What the arguments read so far have said. -/
structure Seen where
  operands : List String := []
  traced : Bool := false
  maxDepth? : Option Nat := none
  maxExponent? : Option Nat := none
  deriving DecidableEq, Repr

namespace Seen

/-- Takes the option of a trace. -/
def setTraced (seen : Seen) : Except UsageError Seen :=
  if seen.traced then .error (.repeatedOption .trace) else .ok { seen with traced := true }

/-- Takes an option and its value. -/
def set (seen : Seen) (name : OptionName) (value : String) : Except UsageError Seen :=
  match name with
  | .trace => .error (.unexpectedValue .trace value)
  | .maxDepth =>
      match seen.maxDepth?, depth? value with
      | some _, _ => .error (.repeatedOption .maxDepth)
      | none, some n => .ok { seen with maxDepth? := some n }
      | none, none => .error (.invalidValue .maxDepth value)
  | .maxExponent =>
      match seen.maxExponent?, exponent? value with
      | some _, _ => .error (.repeatedOption .maxExponent)
      | none, some n => .ok { seen with maxExponent? := some n }
      | none, none => .error (.invalidValue .maxExponent value)

/-- May the argument be the value of an option before it? One with a hyphen may only where
an operand could stand in its place. -/
def admitsValue (seen : Seen) (value : String) : Bool :=
  value.toList.head? != some '-' || seen.operands.length < 2

/-- Takes arguments, from the first to the last. -/
def collect (seen : Seen) : List String → Except UsageError Seen
  | [] => .ok seen
  | arg :: args =>
      if arg = "--" then .ok { seen with operands := seen.operands ++ args }
      else match Argument.ofString arg, args with
        | .operand text, args => collect { seen with operands := seen.operands ++ [text] } args
        | .option name (some value), args =>
            match seen.set name value with
            | .error e => .error e
            | .ok seen => collect seen args
        | .option .trace none, args =>
            match seen.setTraced with
            | .error e => .error e
            | .ok seen => collect seen args
        | .option name none, [] => .error (.missingValue name)
        | .option name none, value :: args =>
            if seen.admitsValue value then
              match seen.set name value with
              | .error e => .error e
              | .ok seen => collect seen args
            else .error (.missingValue name)

end Seen

/-- A command line that has been understood. -/
structure Invocation where
  pair : Pair
  limits : Limits
  traced : Bool
  deriving DecidableEq, Repr

/-- The limits that have been given, with the defaults for the others. -/
def Seen.limits (seen : Seen) : Limits :=
  ⟨seen.maxDepth?.getD ({} : Limits).maxDepth,
    seen.maxExponent?.getD ({} : Limits).maxExponent⟩

/-- Understands a command line. The denominator may be left out; it is empty then. -/
def Invocation.ofArguments (args : List String) : Except UsageError Invocation :=
  match Seen.collect {} args with
  | .error e => .error e
  | .ok seen =>
      match seen.operands with
      | [] => .error .missingOperand
      | [num] => .ok ⟨⟨num, ""⟩, seen.limits, seen.traced⟩
      | [num, den] => .ok ⟨⟨num, den⟩, seen.limits, seen.traced⟩
      | _ => .error .tooManyOperands

example : (Invocation.ofArguments ["--demarche", "1"]).toOption = some ⟨⟨"1", ""⟩, {}, true⟩ := by
  decide

example : (Invocation.ofArguments ["1", "--profondeur-max", "x"]).toOption = none := by decide

end RatExpr.Command

import RatExpr.Operator

set_option autoImplicit false

/-! # Evaluation errors

Why an expression has no value. An error is a value that says what is wrong and where;
`message` puts it into words. Three kinds of errors only add a context and hold the error
inside as their cause; the errors below it, from the outside in, are its `causes`.

`root` is the last error of that chain (`root_eq_getLast`), and `core` is the first one that
says more than where in the expression the fault lies.
-/

namespace RatExpr

/-- What a token that is not expected stands in the place of. -/
inductive Expected where
  | operand
  | closingParen
  deriving DecidableEq, Repr

/-- What is expected, in words. -/
def Expected.text : Expected → String
  | .operand => "un nombre ou '('"
  | .closingParen => "')'"

/-- The two expressions of a fraction. -/
inductive Side where
  | numerator
  | denominator
  deriving DecidableEq, Repr

/-- The name of a side. -/
def Side.name : Side → String
  | .numerator => "numérateur"
  | .denominator => "dénominateur"

/-- Why there is no value. Positions are counted in characters from the start of the
expression. -/
inductive EvalError where
  /-- A piece of text that is no token. -/
  | illegalToken (fragment : String) (pos : Nat)
  /-- A number token whose text is no number. -/
  | invalidNumber (text : String) (pos : Nat)
  /-- The expression ends too early. -/
  | unexpectedEnd (pos : Nat) (expected : Expected)
  /-- A token that cannot stand here. -/
  | unexpectedToken (token : Token) (expected : Expected)
  /-- The parenthesis opened at `opening` is not closed where it has to be. -/
  | unclosedParen (opening : Nat) (cause : EvalError)
  /-- The expression is over before the text is. -/
  | trailingToken (token : Token)
  /-- The right operand of the operator at `pos` has no value. -/
  | operand (op : BinaryOp) (pos : Nat) (cause : EvalError)
  /-- The numerator of a fraction is blank. -/
  | emptyNumerator
  /-- The text is blank. -/
  | emptyExpression (text : String)
  | divisionByZero (pos : Nat)
  | moduloByZero (pos : Nat)
  /-- The remainder is defined for integers only. -/
  | moduloNotInteger (pos : Nat)
  | exponentNotInteger
  /-- Zero has no negative powers. -/
  | zeroToNegative
  /-- A power of a quotient by zero is itself one. -/
  | powerOverZero
  /-- The denominator of a fraction is zero. -/
  | zeroDenominator
  /-- An exponent above the limit `max`. -/
  | exponentTooLarge (max : Nat)
  /-- The token at `pos` opens a level of nesting beyond the limit `max`. -/
  | tooDeep (max pos : Nat)
  /-- One side of a fraction has no value. -/
  | side (side : Side) (text : String) (cause : EvalError)
  deriving DecidableEq, Repr

namespace EvalError

/-- The error for a token that stands where something else is expected. -/
def unexpected (expected : Expected) (t : Token) : EvalError :=
  if t.kind = .eof then .unexpectedEnd t.pos expected else .unexpectedToken t expected

open Text.Quoted (quoteBy)

/-- The error in words, without its cause. In the texts that are quoted only the `plain`
characters stand for themselves. -/
def messageBy (plain : Char → Bool) : EvalError → String
  | illegalToken fragment pos =>
      s!"jeton illégal {quoteBy plain fragment} près de la position {pos}"
  | invalidNumber text pos => s!"nombre invalide {quoteBy plain text} à la position {pos}"
  | unexpectedEnd pos expected =>
      s!"fin d’entrée inattendue à la position {pos} (attendu : {expected.text})"
  | unexpectedToken token expected =>
      s!"jeton inattendu {token.displayBy plain} à la position {token.pos} " ++
        s!"(attendu : {expected.text})"
  | unclosedParen opening _ =>
      s!"parenthèse fermante manquante (ouverte à la position {opening})"
  | trailingToken token =>
      s!"jetons en trop à partir de {token.displayBy plain} (position {token.pos})"
  | operand op pos _ => s!"opérande droite de '{op.symbol}' invalide (position {pos})"
  | emptyNumerator => "numérateur vide"
  | emptyExpression text => s!"aucune expression évaluable dans {quoteBy plain text}"
  | divisionByZero pos => s!"division par zéro ('/' à la position {pos})"
  | moduloByZero pos => s!"modulo par zéro ('%' à la position {pos})"
  | moduloNotInteger pos =>
      s!"le modulo exige des opérandes entiers ('%' à la position {pos})"
  | exponentNotInteger => "l’exposant doit être entier"
  | zeroToNegative => "0 élevé à une puissance négative"
  | powerOverZero => "division par zéro dans le calcul de puissance"
  | zeroDenominator => "dénominateur nul"
  | exponentTooLarge max => s!"exposant trop grand (|exposant| max : {max})"
  | tooDeep max pos => s!"imbrication trop profonde (max : {max}) à la position {pos}"
  | side s text _ => s!"évaluation du {s.name} {quoteBy plain text} impossible"

/-- The error in words, as it is written out. -/
def message (e : EvalError) : String := e.messageBy Text.isPrintable

/-- The error that an error adds a context to. -/
def cause? : EvalError → Option EvalError
  | unclosedParen _ cause | operand _ _ cause | side _ _ cause => some cause
  | _ => none

/-- The causes of an error, the outermost first. The error itself is not among them. -/
def causes : EvalError → List EvalError
  | unclosedParen _ cause | operand _ _ cause | side _ _ cause => cause :: cause.causes
  | _ => []

/-- The first error of the chain that is not just the context of an operand or of a side
of a fraction. -/
def core : EvalError → EvalError
  | operand _ _ cause | side _ _ cause => cause.core
  | e => e

/-- The last error of the chain. -/
def root : EvalError → EvalError
  | unclosedParen _ cause | operand _ _ cause | side _ _ cause => cause.root
  | e => e

/-- The causes are found by following `cause?`. -/
theorem causes_eq (e : EvalError) :
    e.causes = match e.cause? with
      | some cause => cause :: cause.causes
      | none => [] := by
  cases e <;> rfl

/-- **The root is the last error of the chain of causes.** -/
theorem root_eq_getLast (e : EvalError) :
    e.root = (e :: e.causes).getLast (List.cons_ne_nil _ _) := by
  induction e with
  | unclosedParen _ cause ih => simpa [root, causes] using ih
  | operand _ _ cause ih => simpa [root, causes] using ih
  | side _ _ cause ih => simpa [root, causes] using ih
  | _ => rfl

/-- The root of the core is the root. -/
theorem root_core (e : EvalError) : e.core.root = e.root := by
  induction e with
  | operand _ _ cause ih => exact ih
  | side _ _ cause ih => exact ih
  | _ => rfl

end EvalError

end RatExpr

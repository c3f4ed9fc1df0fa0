import RatExpr.Breakdown
import RatExpr.Token.Significant

set_option autoImplicit false

/-! # Scanning a tape

A scanner that keeps the text whole, as a tape of characters, and moves along it. It looks at
characters and cuts tokens out of the tape by their places, and breaks down where the tape has no
such place (`Breakdown.outOfText`).

A `Scanner` keeps only the characters that are left and has no places to miss.
-/

namespace RatExpr

/-- The characters of a text, and how far it has been scanned. -/
structure Tape where
  chars : List Char
  /-- The place of the first character that has not been scanned. -/
  pos : Nat
  /-- The end has been handed out. -/
  finished : Bool
  deriving DecidableEq, Repr

namespace Tape

/-- The start of a text. -/
def ofString (text : String) : Tape := ⟨text.toList, 0, false⟩

/-- The character at a place of the tape. -/
def charAt (t : Tape) (i : Nat) : Except Breakdown Char :=
  match t.chars[i]? with
  | some c => .ok c
  | none => .error .outOfText

/-- Is there a character at the place, and one such as `p` asks for? -/
def testAt (t : Tape) (p : Char → Bool) (i : Nat) : Except Breakdown Bool :=
  if i < t.chars.length then do
    let c ← t.charAt i
    return p c
  else return false

/-- The text from `start` up to the current place. -/
def slice (t : Tape) (start : Nat) : Except Breakdown String :=
  if start ≤ t.pos ∧ t.pos ≤ t.chars.length then
    .ok (String.ofList ((t.chars.take t.pos).drop start))
  else .error .outOfText

-- the current place is off the tape
example : (⟨['1'], 2, false⟩ : Tape).slice 0 = .error .outOfText := rfl

/-- The tape further on. -/
def moved (t : Tape) (n : Nat) : Tape := { t with pos := t.pos + n }

/-- A test succeeds on the tape only. -/
theorem lt_of_testAt {t : Tape} {p : Char → Bool} {i : Nat} (h : t.testAt p i = .ok true) :
    i < t.chars.length := by
  by_cases hlt : i < t.chars.length
  · exact hlt
  · rw [testAt, if_neg hlt] at h
    exact nomatch h

/-- Passes the characters such as `p` asks for. -/
def skip (p : Char → Bool) (t : Tape) : Except Breakdown Tape :=
  match _h : t.testAt p t.pos with
  | .error b => .error b
  | .ok false => .ok t
  | .ok true => skip p (t.moved 1)
termination_by t.chars.length - t.pos
decreasing_by
  have := lt_of_testAt _h
  simp only [moved]
  omega

/-- The token of a kind that goes from `start` up to the current place. -/
def cut (t : Tape) (kind : Token.Kind) (start : Nat) : Except Breakdown (Token × Tape) := do
  let text ← t.slice start
  return (⟨kind, text, start⟩, t)

/-- A number that starts with a digit, or the illegal piece of its digits and a point. -/
def scanDigits (t : Tape) : Except Breakdown (Token × Tape) := do
  let start := t.pos
  let t ← t.skip Char.isDigit
  if t.chars[t.pos]? = some '.' then
    -- the point is not passed yet
    if ← t.testAt Char.isDigit (t.pos + 1) then
      let t ← (t.moved 1).skip Char.isDigit
      t.cut .number start
    else (t.moved 1).cut .illegal start
  else t.cut .number start

/-- A number that starts with a point, or the point as an illegal piece. -/
def scanPoint (t : Tape) : Except Breakdown (Token × Tape) := do
  let start := t.pos
  let t := t.moved 1
  if ← t.testAt Char.isDigit t.pos then
    let t ← t.skip Char.isDigit
    t.cut .number start
  else return (⟨.illegal, String.ofList ['.'], start⟩, t)

/-- The next token, or the end, and the tape after it. -/
def scan (t : Tape) : Except Breakdown (Token × Tape) :=
  match t.chars[t.pos]? with
  | none => return (Token.endAt t.pos, t)
  | some c =>
      if Text.isBlank c then do
        let start := t.pos
        let t ← t.skip Text.isBlank
        t.cut .space start
      else if c = '*' ∧ t.chars[t.pos + 1]? = some '*' then
        return (⟨.power, String.ofList ['*', '*'], t.pos⟩, t.moved 2)
      else if c.isDigit then t.scanDigits
      else if c = '.' then t.scanPoint
      else return (⟨Token.Kind.ofChar c, String.ofList [c], t.pos⟩, t.moved 1)

/-- The next token, but the end only once. -/
def next? (t : Tape) : Except Breakdown (Option Token × Tape) :=
  if t.finished then return (none, t)
  else do
    let (token, t) ← t.scan
    if token.kind = .eof then return (some token, { t with finished := true })
    else return (some token, t)

/-- The answers to `n` requests for a token. -/
def answers : Nat → Tape → Except Breakdown (List (Option Token))
  | 0, _ => return []
  | n + 1, t => do
      let (token?, t) ← t.next?
      let tokens ← answers n t
      return token? :: tokens

/-- Collects the tokens after `out` that are no blanks, up to the first illegal piece. -/
def collect : Nat → Tape → List Token → Checked (List Token)
  | 0, _, _ => Checked.breakDown .endlessLoop
  | turns + 1, t, out => do
      let (token?, t) ← t.next?
      match token? with
      | none => return out
      | some token =>
          match token.kind with
          | .illegal => throw (.illegalToken token.text token.pos)
          | .space => collect turns t out
          | _ => collect turns t (out ++ [token])

/-- The tokens of a text without the blanks, or its first illegal piece. A loop that gets a token
in each of its turns, and nothing in the last, does not go on for longer than there are
characters. -/
def significant (text : String) : Checked (List Token) :=
  (ofString text).collect (text.length + 2) []

end Tape

end RatExpr

import RatExpr.Token.Lexeme

set_option autoImplicit false

/-! # The tokens of a text

A scanner hands out the tokens of a text one by one: every piece of the text, blanks and
illegal pieces included, then the end, then nothing more. `Scanner.toList` is all that it
still has to hand out, and `Token.all` all the tokens of a text.
-/

namespace RatExpr

open Token (lexeme)

/-- What is left to scan. -/
inductive Scanner where
  /-- The characters `rest` are left; the first of them is at `pos`. -/
  | reading (pos : Nat) (rest : List Char)
  /-- The end has been handed out. -/
  | done
  deriving DecidableEq, Repr

namespace Scanner

/-- A scanner at the start of a text. -/
def ofString (text : String) : Scanner := reading 0 text.toList

/-- The next token and the scanner after it; none once the end has been handed out. -/
def next? : Scanner → Option (Token × Scanner)
  | done => none
  | reading pos [] => some (Token.endAt pos, done)
  | reading pos (c :: cs) =>
      let first := lexeme c cs
      some (⟨first.kind, String.ofList first.text, pos⟩,
        reading (pos + first.text.length) first.rest)

/-- How many tokens there can still be. -/
def size : Scanner → Nat
  | reading _ rest => rest.length + 1
  | done => 0

/-- Every token handed out brings the end nearer. -/
theorem size_lt_of_next? {s s' : Scanner} {t : Token} (h : s.next? = some (t, s')) :
    s'.size < s.size := by
  match s with
  | done => simp [next?] at h
  | reading pos [] =>
      simp only [next?, Option.some.injEq, Prod.mk.injEq] at h
      simp [← h.2, size]
  | reading pos (c :: cs) =>
      simp only [next?, Option.some.injEq, Prod.mk.injEq] at h
      have := Token.length_lexeme_rest_lt c cs
      simp only [← h.2, size]
      omega

/-- All the tokens that are still to come. -/
def toList (s : Scanner) : List Token :=
  match _h : s.next? with
  | none => []
  | some (t, s') => t :: s'.toList
termination_by s.size
decreasing_by exact size_lt_of_next? _h

/-- The answers to `n` requests for a token. -/
def answers : Nat → Scanner → List (Option Token)
  | 0, _ => []
  | n + 1, s =>
      match s.next? with
      | none => none :: answers n s
      | some (t, s') => some t :: answers n s'

/-! ## One token at a time -/

theorem toList_of_next?_none {s : Scanner} (h : s.next? = none) : s.toList = [] := by
  rw [toList]
  split
  · rfl
  · simp_all

theorem toList_of_next?_some {s s' : Scanner} {t : Token} (h : s.next? = some (t, s')) :
    s.toList = t :: s'.toList := by
  rw [toList]
  split <;> simp_all

@[simp] theorem toList_done : done.toList = [] := toList_of_next?_none rfl

/-- At the end of the text only the end is left. -/
@[simp] theorem toList_reading_nil (pos : Nat) :
    (reading pos []).toList = [Token.endAt pos] := by
  rw [toList_of_next?_some rfl, toList_done]

/-- Before the end, the first token of the rest comes next. -/
theorem toList_reading_cons (pos : Nat) (c : Char) (cs : List Char) :
    (reading pos (c :: cs)).toList =
      ⟨(lexeme c cs).kind, String.ofList (lexeme c cs).text, pos⟩ ::
        (reading (pos + (lexeme c cs).text.length) (lexeme c cs).rest).toList :=
  toList_of_next?_some rfl

/-- **Requests are answered with the tokens in order, then with nothing.** -/
theorem answers_eq (n : Nat) (s : Scanner) :
    answers n s = (s.toList.map some).take n ++ List.replicate (n - s.toList.length) none := by
  induction n generalizing s with
  | zero => simp [answers]
  | succ n ih =>
      cases hs : s.next? with
      | none => simp [answers, hs, ih, toList_of_next?_none hs, List.replicate_succ]
      | some p => simp [answers, hs, ih, toList_of_next?_some hs]

end Scanner

/-- All the tokens of a text, from the first to the end. -/
def Token.all (text : String) : List Token := (Scanner.ofString text).toList

end RatExpr

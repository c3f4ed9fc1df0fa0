import Mathlib.Tactic.SplitIfs
import RatExpr.Proofs.Token.Language
import RatExpr.Token.Tape

set_option autoImplicit false

/-! # A tape is scanned as its text

A tape never breaks down. Where a scanner has characters left, the tape stands between those that
have been scanned and these (`Tape.between`), so that all its places are on it and a token starts
before the place where it ends. The tokens that it hands out and collects are those of the scanner
(`Tape.answers_eq`, `Tape.significant_eq`), and every request brings it nearer to the end.
-/

namespace RatExpr.Tape

open Token (lexeme numberLexeme lexeme_of_isBlank lexeme_of_isDigit lexeme_point lexeme_of_single)

/-- The tape between the characters that have been scanned and those that are left. -/
def between (before rest : List Char) : Tape := ⟨before ++ rest, before.length, false⟩

@[simp] theorem chars_between (before rest : List Char) :
    (between before rest).chars = before ++ rest := rfl

@[simp] theorem pos_between (before rest : List Char) :
    (between before rest).pos = before.length := rfl

@[simp] theorem finished_between (before rest : List Char) :
    (between before rest).finished = false := rfl

variable {p : Char → Bool} {t : Tape} {before text rest : List Char}

/-! ## Places -/

theorem getElem?_between (before rest : List Char) (k : Nat) :
    (between before rest).chars[before.length + k]? = rest[k]? := by
  rw [chars_between, List.getElem?_append_right (Nat.le_add_right _ _), Nat.add_sub_cancel_left]

/-- The current character is the first that is left. -/
theorem getElem?_pos_between (before rest : List Char) :
    (between before rest).chars[before.length]? = rest.head? := by
  rw [List.head?_eq_getElem?]
  exact getElem?_between before rest 0

/-- Looking ahead never looks past the tape. -/
theorem testAt_between (p : Char → Bool) (before rest : List Char) (k : Nat) :
    (between before rest).testAt p (before.length + k) = .ok (rest[k]?.any p) := by
  have hlength : (between before rest).chars.length = before.length + rest.length :=
    List.length_append
  rw [testAt, hlength]
  by_cases hk : k < rest.length
  · rw [if_pos (by omega), charAt, getElem?_between, List.getElem?_eq_getElem hk]
    rfl
  · rw [if_neg (by omega), List.getElem?_eq_none (Nat.le_of_not_lt hk)]
    rfl

theorem testAt_pos_between (p : Char → Bool) (before rest : List Char) :
    (between before rest).testAt p before.length = .ok (rest.head?.any p) := by
  rw [List.head?_eq_getElem?]
  exact testAt_between p before rest 0

/-- **A token is cut out of the tape.** -/
theorem cut_between (kind : Token.Kind) (before text rest : List Char) :
    (between (before ++ text) rest).cut kind before.length =
      .ok (⟨kind, String.ofList text, before.length⟩, between (before ++ text) rest) := by
  have hle : before.length ≤ (before ++ text).length ∧
      (before ++ text).length ≤ (before ++ text ++ rest).length := by
    simp only [List.length_append]
    omega
  rw [cut, slice, chars_between, pos_between, if_pos hle, List.take_left, List.drop_left]
  rfl

theorem moved_between (before text rest : List Char) :
    (between before (text ++ rest)).moved text.length = between (before ++ text) rest := by
  simp only [moved, between, List.append_assoc, List.length_append]

/-! ## Runs -/

theorem skip_of_false (h : t.testAt p t.pos = .ok false) : t.skip p = .ok t := by
  rw [skip]
  split <;> simp_all

theorem skip_of_true (h : t.testAt p t.pos = .ok true) : t.skip p = (t.moved 1).skip p := by
  rw [skip]
  split <;> simp_all

/-- **A run of characters is skipped.** -/
theorem skip_between (p : Char → Bool) (before rest : List Char) :
    (between before rest).skip p =
      .ok (between (before ++ rest.takeWhile p) (rest.dropWhile p)) := by
  induction rest generalizing before with
  | nil =>
      rw [skip_of_false (testAt_pos_between p before []), List.takeWhile_nil, List.append_nil]
      rfl
  | cons c cs ih =>
      have htest := testAt_pos_between p before (c :: cs)
      cases hc : p c with
      | false =>
          rw [List.head?_cons, Option.any_some, hc] at htest
          rw [skip_of_false htest, List.takeWhile_cons_of_neg (by simp [hc]),
            List.dropWhile_cons_of_neg (by simp [hc]), List.append_nil]
      | true =>
          rw [List.head?_cons, Option.any_some, hc] at htest
          have hmoved : (between before (c :: cs)).moved 1 = between (before ++ [c]) cs :=
            moved_between before [c] cs
          rw [skip_of_true htest, hmoved, ih, List.takeWhile_cons_of_pos hc,
            List.dropWhile_cons_of_pos hc, List.append_assoc]
          rfl

/-- A token that ends with a run. -/
theorem skip_cut_between (p : Char → Bool) (kind : Token.Kind) (before text rest : List Char) :
    ((between (before ++ text) rest).skip p >>= fun t => t.cut kind before.length) =
      .ok (⟨kind, String.ofList (text ++ rest.takeWhile p), before.length⟩,
        between (before ++ (text ++ rest.takeWhile p)) (rest.dropWhile p)) := by
  rw [skip_between, List.append_assoc]
  exact cut_between kind before (text ++ rest.takeWhile p) (rest.dropWhile p)

/-! ## One token -/

theorem ok_bind {α β : Type} (v : α) (f : α → Except Breakdown β) :
    ((Except.ok v : Except Breakdown α) >>= f) = f v := rfl

/-- What handing out a first token comes to. -/
def handing (before : List Char) (first : Token.Lexeme) : Except Breakdown (Token × Tape) :=
  .ok (⟨first.kind, String.ofList first.text, before.length⟩,
    between (before ++ first.text) first.rest)

/-- What comes after a point decides whether it is in a number. -/
theorem numberLexeme_point (whole rest : List Char) :
    numberLexeme whole ('.' :: rest) =
      if rest.head?.any Char.isDigit then
        ⟨.number, whole ++ '.' :: rest.takeWhile Char.isDigit, rest.dropWhile Char.isDigit⟩
      else ⟨.illegal, whole ++ ['.'], rest⟩ := by
  cases rest with
  | nil => rfl
  | cons c cs =>
      rw [List.head?_cons, Option.any_some]
      cases hc : c.isDigit with
      | true => simp [numberLexeme, hc]
      | false => simp [numberLexeme, hc]

theorem numberLexeme_of_ne_point (whole : List Char) {rest : List Char}
    (h : rest.head? ≠ some '.') : numberLexeme whole rest = ⟨.number, whole, rest⟩ := by
  unfold numberLexeme
  split
  · exact absurd rfl h
  · rfl

theorem scanDigits_between (before rest : List Char) :
    (between before rest).scanDigits =
      handing before
        (numberLexeme (rest.takeWhile Char.isDigit) (rest.dropWhile Char.isDigit)) := by
  rw [scanDigits, pos_between, skip_between, ok_bind]
  generalize rest.takeWhile Char.isDigit = whole
  generalize rest.dropWhile Char.isDigit = rest
  rw [pos_between, getElem?_pos_between]
  by_cases hpoint : rest.head? = some '.'
  · obtain ⟨rest, rfl⟩ := List.head?_eq_some_iff.1 hpoint
    have hmoved : (between (before ++ whole) ('.' :: rest)).moved 1 =
        between (before ++ (whole ++ ['.'])) rest := by
      rw [← List.append_assoc]
      exact moved_between (before ++ whole) ['.'] rest
    have hnext : ('.' :: rest)[1]? = rest.head? := List.head?_eq_getElem?.symm
    rw [if_pos hpoint, testAt_between, hnext, ok_bind, hmoved, numberLexeme_point]
    split
    · rw [skip_cut_between, List.append_assoc]
      rfl
    · exact cut_between .illegal before (whole ++ ['.']) rest
  · rw [if_neg hpoint, numberLexeme_of_ne_point whole hpoint]
    exact cut_between .number before whole rest

theorem scanPoint_between (before rest : List Char) :
    (between before ('.' :: rest)).scanPoint =
      handing before (numberLexeme [] ('.' :: rest)) := by
  have hmoved : (between before ('.' :: rest)).moved 1 = between (before ++ ['.']) rest :=
    moved_between before ['.'] rest
  rw [scanPoint, hmoved, pos_between, pos_between, testAt_pos_between, ok_bind, numberLexeme_point]
  split
  · exact skip_cut_between Char.isDigit .number before ['.'] rest
  · rfl

theorem lexeme_star_star (cs : List Char) : lexeme '*' ('*' :: cs) = ⟨.power, ['*', '*'], cs⟩ := by
  have hblank : Text.isBlank '*' = false := by decide
  have hdigit : '*'.isDigit = false := by decide
  simp [lexeme, hblank, hdigit]

theorem scan_between_nil (before : List Char) :
    (between before []).scan = .ok (Token.endAt before.length, between before []) := by
  rw [scan, pos_between, getElem?_pos_between]
  rfl

/-- **The first token is handed out,** and the tape stands behind it. -/
theorem scan_between_cons (before : List Char) (c : Char) (cs : List Char) :
    (between before (c :: cs)).scan = handing before (lexeme c cs) := by
  rw [scan, pos_between, getElem?_pos_between, getElem?_between]
  simp only [List.head?_cons]
  -- the tape asks for two stars before it asks for a digit; a star is neither
  split_ifs with hblank hstars hdigit hpoint
  · rw [skip_between, ok_bind, List.takeWhile_cons_of_pos hblank,
      List.dropWhile_cons_of_pos hblank, lexeme_of_isBlank cs hblank]
    exact cut_between .space before _ _
  · obtain ⟨rfl, hnext⟩ := hstars
    obtain ⟨cs, rfl⟩ : ∃ rest, cs = '*' :: rest := by
      rw [List.getElem?_cons_succ, ← List.head?_eq_getElem?, List.head?_eq_some_iff] at hnext
      exact hnext
    rw [lexeme_star_star]
    exact congrArg (fun t => Except.ok (_, t)) (moved_between before ['*', '*'] cs)
  · rw [scanDigits_between, lexeme_of_isDigit cs hdigit, List.takeWhile_cons_of_pos hdigit,
      List.dropWhile_cons_of_pos hdigit]
  · subst hpoint
    rw [scanPoint_between, lexeme_point]
  · have hstar : c = '*' → cs.head? ≠ some '*' := by
      intro hc hnext
      refine hstars ⟨hc, ?_⟩
      rw [List.getElem?_cons_succ, ← List.head?_eq_getElem?, hnext]
    rw [lexeme_of_single cs (by simpa using hblank) (by simpa using hdigit) hpoint hstar]
    exact congrArg (fun t => Except.ok (_, t)) (moved_between before [c] cs)

/-! ## All tokens -/

/-- A token of a text is not its end. -/
theorem kind_lexeme_ne_eof (c : Char) (cs : List Char) : (lexeme c cs).kind ≠ .eof := by
  intro hkind
  have hcut := Token.wellCut_lexeme c cs
  have hspells := hcut.spells
  rw [hkind] at hspells
  exact hcut.text_ne_nil hspells

/-- The tape has come as far as the scanner. -/
inductive Follows : Tape → Scanner → Prop
  | reading (before rest : List Char) :
      Follows (between before rest) (.reading before.length rest)
  | done {t : Tape} (h : t.finished = true) : Follows t .done

variable {s s' : Scanner} {token : Token}

/-- After the end there is nothing. -/
theorem Follows.next?_eq_none (h : Follows t s) (hs : s.next? = none) :
    t.next? = .ok (none, t) := by
  cases h with
  | reading before rest => cases rest <;> exact nomatch hs
  | done hfinished =>
      rw [next?, if_pos hfinished]
      rfl

/-- **Every request is answered as the scanner answers it.** -/
theorem Follows.next?_eq_some (h : Follows t s) (hs : s.next? = some (token, s')) :
    ∃ t', t.next? = .ok (some token, t') ∧ Follows t' s' := by
  cases h with
  | done => exact nomatch hs
  | reading before rest =>
      cases rest with
      | nil =>
          obtain ⟨rfl, rfl⟩ := Prod.mk.inj (Option.some.inj hs)
          refine ⟨{ between before [] with finished := true }, ?_, .done rfl⟩
          rw [next?, finished_between, scan_between_nil]
          rfl
      | cons c cs =>
          obtain ⟨rfl, rfl⟩ := Prod.mk.inj (Option.some.inj hs)
          refine ⟨between (before ++ (lexeme c cs).text) (lexeme c cs).rest, ?_, ?_⟩
          · rw [next?, finished_between, scan_between_cons, handing]
            simp only [Bool.false_eq_true, if_false, ok_bind, if_neg (kind_lexeme_ne_eof c cs)]
            rfl
          · rw [← List.length_append]
            exact .reading _ _

theorem follows_ofString (text : String) : Follows (ofString text) (.ofString text) :=
  .reading [] text.toList

theorem Follows.answers_eq (h : Follows t s) (n : Nat) : t.answers n = .ok (s.answers n) := by
  induction n generalizing t s with
  | zero => rfl
  | succ n ih =>
      unfold answers Scanner.answers
      cases hs : s.next? with
      | none =>
          simp only [h.next?_eq_none hs, ok_bind, ih h]
          rfl
      | some next =>
          obtain ⟨token, s'⟩ := next
          obtain ⟨t', ht', h'⟩ := h.next?_eq_some hs
          simp only [ht', ok_bind, ih h']
          rfl

/-- **A tape hands out the tokens of its text,** however often it is asked, and never breaks
down. -/
theorem answers_eq (text : String) (n : Nat) :
    (ofString text).answers n = .ok ((Scanner.ofString text).answers n) :=
  (follows_ofString text).answers_eq n

/-! ## Significant tokens -/

/-- What collecting the tokens `ts` after `out` comes to. -/
def sieved (out ts : List Token) : Except EvalError (List Token) :=
  match ts.find? fun t => t.kind == .illegal with
  | some t => .error (.illegalToken t.text t.pos)
  | none => .ok (out ++ ts.filter fun t => t.kind != .space)

theorem sieved_nil (out : List Token) : sieved out [] = .ok out :=
  congrArg Except.ok (List.append_nil out)

/-- An illegal piece is the error, a blank is left out, and any other token is kept. -/
theorem sieved_cons (out : List Token) (token : Token) (ts : List Token) :
    sieved out (token :: ts) =
      match token.kind with
      | .illegal => .error (.illegalToken token.text token.pos)
      | .space => sieved out ts
      | _ => sieved (out ++ [token]) ts := by
  unfold sieved
  cases hkind : token.kind <;> simp [hkind]

/-- The tokens of a text are collected in as many turns as there are requests. -/
theorem Follows.collect_eq (h : Follows t s) {turns : Nat} (hturns : s.size < turns)
    (out : List Token) : t.collect turns out = Checked.ofOutcome (sieved out s.toList) := by
  induction turns generalizing t s out with
  | zero => exact absurd hturns (Nat.not_lt_zero _)
  | succ turns ih =>
      unfold collect
      cases hs : s.next? with
      | none =>
          rw [h.next?_eq_none hs, Scanner.toList_of_next?_none hs, sieved_nil]
          rfl
      | some next =>
          obtain ⟨token, s'⟩ := next
          obtain ⟨t', ht', h'⟩ := h.next?_eq_some hs
          have hsize := Scanner.size_lt_of_next? hs
          -- whatever is kept of this token, one turn less is enough for the others
          have hrest := fun out => ih h' (by omega) out
          rw [Scanner.toList_of_next?_some hs, sieved_cons, ht']
          show (match token.kind with
            | .illegal => throw (EvalError.illegalToken token.text token.pos)
            | .space => t'.collect turns out
            | _ => t'.collect turns (out ++ [token])) = _
          cases token.kind <;> first | rfl | exact hrest _

/-- **The significant tokens are collected from a tape,** which never breaks down. -/
theorem significant_eq (text : String) :
    significant text = Checked.ofOutcome (Token.significant text) := by
  have hsize : (Scanner.ofString text).size < text.length + 2 := by
    rw [Scanner.ofString, Scanner.size, String.length_toList]
    omega
  rw [significant, (follows_ofString text).collect_eq hsize]
  rfl

end RatExpr.Tape

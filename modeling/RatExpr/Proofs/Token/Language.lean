import RatExpr.Proofs.Token.Pieces

set_option autoImplicit false

/-! # What tokens look like

The texts that the tokens of a kind can have (`Kind.Spells`), and the characters that may
stand after them (`Kind.MayPrecede`), both said without cutting anything. Together they leave
no choice: `lexeme` cuts off a token of this form (`wellCut_lexeme`), and whatever stands at
the start of a text in this form is what it cuts off (`Lexeme.WellCut.eq_lexeme`).

As every token takes something, what holds of the empty text and goes from the rest after the
first token to the text holds of all texts (`lexeme_induction`).
-/

namespace RatExpr.Token

/-! ## Spelling -/

/-- The characters, apart from blanks and digits, that the tokens of an expression hold. -/
def symbols : List Char := ['.', '(', ')', '+', '-', '*', '/', '%']

/-- A character that no token of an expression holds. -/
def IsStray (c : Char) : Prop :=
  Text.isBlank c = false ∧ c.isDigit = false ∧ c ∉ symbols

/-- The texts of numbers: digits, or digits after a point that may have digits before it. -/
def IsNumeral (cs : List Char) : Prop :=
  (cs ≠ [] ∧ ∀ c ∈ cs, c.isDigit = true) ∨
    ∃ whole digits, cs = whole ++ '.' :: digits ∧ (∀ c ∈ whole, c.isDigit = true) ∧
      digits ≠ [] ∧ ∀ c ∈ digits, c.isDigit = true

/-- The texts that the tokens of a kind have. -/
def Kind.Spells : Kind → List Char → Prop
  | .eof, cs => cs = []
  | .space, cs => ∀ c ∈ cs, Text.isBlank c = true
  | .number, cs => IsNumeral cs
  | .leftParen, cs => cs = ['(']
  | .rightParen, cs => cs = [')']
  | .plus, cs => cs = ['+']
  | .minus, cs => cs = ['-']
  | .star, cs => cs = ['*']
  | .slash, cs => cs = ['/']
  | .power, cs => cs = ['*', '*']
  | .percent, cs => cs = ['%']
  | .illegal, cs =>
      (∃ whole, cs = whole ++ ['.'] ∧ ∀ c ∈ whole, c.isDigit = true) ∨ ∃ c, cs = [c] ∧ IsStray c

/-- The character `c` may stand after a token of the kind with the text `cs`: the token would
not have been longer with it. -/
def Kind.MayPrecede : Kind → List Char → Char → Prop
  | .space, _, c => Text.isBlank c = false
  | .number, cs, c => c.isDigit = false ∧ ('.' ∉ cs → c ≠ '.')
  | .star, _, c => c ≠ '*'
  | .illegal, cs, c => cs.getLast? = some '.' → c.isDigit = false
  | _, _, _ => True

/-- A token that is not empty, has a text of its kind, and ends where it has to. -/
structure Lexeme.WellCut (l : Lexeme) : Prop where
  text_ne_nil : l.text ≠ []
  spells : l.kind.Spells l.text
  mayPrecede : ∀ c ∈ l.rest.head?, l.kind.MayPrecede l.text c

theorem not_isDigit_point : '.'.isDigit = false := by decide

theorem ne_point_of_isBlank {c : Char} (h : Text.isBlank c = true) : c ≠ '.' := by
  rintro rfl
  exact absurd h (by decide)

theorem ne_point_of_isDigit {c : Char} (h : c.isDigit = true) : c ≠ '.' := by
  rintro rfl
  exact absurd h (by decide)

theorem point_not_mem_of_digits {ds : List Char} (hds : ∀ c ∈ ds, c.isDigit = true) :
    '.' ∉ ds := by
  intro hmem
  exact ne_point_of_isDigit (hds '.' hmem) rfl

/-! ## Runs -/

/-- A run of characters of one sort ends where the next character is of another. -/
theorem takeWhile_run {p : Char → Bool} {run rest : List Char} (hrun : ∀ c ∈ run, p c = true)
    (hrest : ∀ c ∈ rest.head?, p c = false) : (run ++ rest).takeWhile p = run := by
  rw [List.takeWhile_append_of_pos hrun]
  cases rest with
  | nil => simp
  | cons c cs =>
      have hc : p c = false := hrest c rfl
      simp [hc]

theorem dropWhile_run {p : Char → Bool} {run rest : List Char} (hrun : ∀ c ∈ run, p c = true)
    (hrest : ∀ c ∈ rest.head?, p c = false) : (run ++ rest).dropWhile p = rest := by
  rw [List.dropWhile_append_of_pos hrun]
  cases rest with
  | nil => rfl
  | cons c cs =>
      have hc : p c = false := hrest c rfl
      simp [hc]

/-- The character after a run is of another sort. -/
theorem head?_dropWhile_eq_false {p : Char → Bool} {cs : List Char} :
    ∀ c ∈ (cs.dropWhile p).head?, p c = false := by
  intro c hc
  have hnot := List.head?_dropWhile_not p cs
  rw [Option.mem_def.1 hc] at hnot
  simpa using hnot

/-! ## Numbers -/

/-- Digits after a point make a number. -/
theorem numberLexeme_of_digits (whole : List Char) {digits rest : List Char}
    (hne : digits ≠ []) (hdigits : ∀ c ∈ digits, c.isDigit = true)
    (hrest : ∀ c ∈ rest.head?, c.isDigit = false) :
    numberLexeme whole ('.' :: (digits ++ rest)) = ⟨.number, whole ++ '.' :: digits, rest⟩ := by
  have htake := takeWhile_run hdigits hrest
  have hdrop := dropWhile_run hdigits hrest
  cases digits with
  | nil => exact absurd rfl hne
  | cons d ds => simp only [numberLexeme, htake, hdrop]

/-- A point without digits after it is illegal, with the digits before it. -/
theorem numberLexeme_of_no_digit (whole : List Char) {rest : List Char}
    (hrest : ∀ c ∈ rest.head?, c.isDigit = false) :
    numberLexeme whole ('.' :: rest) = ⟨.illegal, whole ++ ['.'], rest⟩ := by
  have htake : ([] ++ rest).takeWhile Char.isDigit = [] := takeWhile_run (by simp) hrest
  rw [List.nil_append] at htake
  simp only [numberLexeme, htake]

/-- Digits before a point are read together with it. -/
theorem lexeme_before_point {c : Char} {cs whole rest : List Char}
    (hwhole : ∀ d ∈ whole, d.isDigit = true) (h : whole ++ '.' :: rest = c :: cs) :
    lexeme c cs = numberLexeme whole ('.' :: rest) := by
  have hpoint : ∀ d ∈ ('.' :: rest).head?, d.isDigit = false := by
    rintro d ⟨⟩
    exact not_isDigit_point
  cases whole with
  | nil =>
      obtain ⟨rfl, rfl⟩ := List.cons.inj h
      exact lexeme_point rest
  | cons d ds =>
      have hds : ∀ e ∈ ds, e.isDigit = true := fun e he => hwhole e (List.mem_cons_of_mem d he)
      rw [List.cons_append] at h
      obtain ⟨rfl, rfl⟩ := List.cons.inj h
      rw [lexeme_of_isDigit _ (hwhole d List.mem_cons_self), takeWhile_run hds hpoint,
        dropWhile_run hds hpoint]

/-- What starts with digits is well cut: it is a number, or illegal because of its point. -/
theorem wellCut_numberLexeme {whole rest : List Char} (hwhole : ∀ c ∈ whole, c.isDigit = true)
    (hne : whole ≠ [] ∨ rest.head? = some '.') (hrest : ∀ c ∈ rest.head?, c.isDigit = false) :
    (numberLexeme whole rest).WellCut := by
  have hnumber : ∀ cs : List Char, cs.head? ≠ some '.' →
      numberLexeme whole cs = ⟨.number, whole, cs⟩ := by
    intro cs hcs
    unfold numberLexeme
    split
    · exact absurd rfl hcs
    · rfl
  by_cases hpoint : rest.head? = some '.'
  · obtain ⟨tail, rfl⟩ : ∃ tail, rest = '.' :: tail := List.head?_eq_some_iff.1 hpoint
    have hsplit := List.takeWhile_append_dropWhile (p := Char.isDigit) (l := tail)
    by_cases hdigits : tail.takeWhile Char.isDigit = []
    · -- no digit comes after the point
      have htail : ∀ c ∈ tail.head?, c.isDigit = false := by
        rw [hdigits, List.nil_append] at hsplit
        rw [← hsplit]
        exact head?_dropWhile_eq_false
      rw [numberLexeme_of_no_digit whole htail]
      exact ⟨by simp, Or.inl ⟨whole, rfl, hwhole⟩, fun c hc _ => htail c hc⟩
    · have hall : ∀ c ∈ tail.takeWhile Char.isDigit, c.isDigit = true :=
        fun c hc => List.all_eq_true.1 List.all_takeWhile c hc
      rw [← hsplit, numberLexeme_of_digits whole hdigits hall head?_dropWhile_eq_false]
      refine ⟨by simp, Or.inr ⟨whole, _, rfl, hwhole, hdigits, hall⟩, fun c hc => ⟨?_, ?_⟩⟩
      · exact head?_dropWhile_eq_false c hc
      · exact fun hmem => absurd (by simp) hmem
  · rw [hnumber rest hpoint]
    have hwhole_ne : whole ≠ [] := hne.resolve_right hpoint
    refine ⟨hwhole_ne, Or.inl ⟨hwhole_ne, hwhole⟩, fun c hc => ⟨hrest c hc, fun _ hcp => ?_⟩⟩
    exact hpoint (hcp ▸ hc)

/-! ## Single characters -/

/-- A character that is a token alone is the text of its kind. -/
theorem spells_ofChar {c : Char} (hb : Text.isBlank c = false) (hd : c.isDigit = false)
    (hp : c ≠ '.') : (Kind.ofChar c).Spells [c] := by
  unfold Kind.ofChar
  split
  · rfl
  · rfl
  · rfl
  · rfl
  · rfl
  · rfl
  · rfl
  · exact Or.inr ⟨c, rfl, hb, hd, by simp_all [symbols]⟩

theorem ofChar_of_isStray {c : Char} (hc : IsStray c) : Kind.ofChar c = .illegal := by
  have hsymbol : c ∉ symbols := hc.2.2
  simp only [symbols, List.mem_cons, List.not_mem_nil, or_false, not_or] at hsymbol
  unfold Kind.ofChar
  split
  all_goals simp_all

/-- After a character that is a token alone there may be anything, but for a star after a star. -/
theorem mayPrecede_ofChar {c d : Char} (hp : c ≠ '.') (hs : c = '*' → d ≠ '*') :
    (Kind.ofChar c).MayPrecede [c] d := by
  unfold Kind.ofChar
  split
  · trivial
  · trivial
  · trivial
  · trivial
  · exact hs rfl
  · trivial
  · trivial
  · intro hlast
    exact absurd (Option.some.inj hlast) hp

/-! ## The first token -/

/-- **The first token is well cut.** -/
theorem wellCut_lexeme (c : Char) (cs : List Char) : (lexeme c cs).WellCut := by
  cases hb : Text.isBlank c with
  | true =>
      rw [lexeme_of_isBlank cs hb]
      have hall : ∀ d ∈ cs.takeWhile Text.isBlank, Text.isBlank d = true :=
        fun d hd => List.all_eq_true.1 List.all_takeWhile d hd
      exact ⟨by simp, List.forall_mem_cons.2 ⟨hb, hall⟩, head?_dropWhile_eq_false⟩
  | false =>
      cases hd : c.isDigit with
      | true =>
          rw [lexeme_of_isDigit cs hd]
          have hall : ∀ d ∈ cs.takeWhile Char.isDigit, d.isDigit = true :=
            fun d hd => List.all_eq_true.1 List.all_takeWhile d hd
          exact wellCut_numberLexeme (List.forall_mem_cons.2 ⟨hd, hall⟩) (Or.inl (by simp))
            head?_dropWhile_eq_false
      | false =>
          by_cases hp : c = '.'
          · subst hp
            rw [lexeme_point]
            refine wellCut_numberLexeme (by simp) (Or.inr rfl) ?_
            rintro d ⟨⟩
            exact hd
          · by_cases hs : c = '*' ∧ cs.head? = some '*'
            · obtain ⟨rfl, hhead⟩ := hs
              obtain ⟨tail, rfl⟩ := List.head?_eq_some_iff.1 hhead
              exact ⟨List.cons_ne_nil _ _, rfl, fun _ _ => trivial⟩
            · rw [lexeme_of_single cs hb hd hp fun hc hhead => hs ⟨hc, hhead⟩]
              refine ⟨by simp, spells_ofChar hb hd hp, fun d hd' => ?_⟩
              refine mayPrecede_ofChar hp fun hc hdstar => hs ⟨hc, ?_⟩
              rw [← hdstar]
              exact hd'

/-- **A well-cut token is the first token.** -/
theorem Lexeme.WellCut.eq_lexeme {l : Lexeme} (h : l.WellCut) {c : Char} {cs : List Char}
    (htext : l.text ++ l.rest = c :: cs) : l = lexeme c cs := by
  obtain ⟨kind, text, rest⟩ := l
  obtain ⟨hne, hspells, hrest⟩ := h
  simp only at hne hspells hrest htext
  -- a token of one character is cut off as such
  have hsingle : ∀ d, text = [d] → Text.isBlank d = false → d.isDigit = false → d ≠ '.' →
      (d = '*' → rest.head? ≠ some '*') → Kind.ofChar d = kind →
      ⟨kind, text, rest⟩ = lexeme c cs := by
    intro d hd hb hdigit hp hs hkind
    subst hd
    rw [List.singleton_append] at htext
    obtain ⟨rfl, rfl⟩ := List.cons.inj htext
    rw [lexeme_of_single _ hb hdigit hp hs, hkind]
  cases kind with
  | eof => exact absurd hspells hne
  | space =>
      cases text with
      | nil => exact absurd rfl hne
      | cons d ds =>
          obtain ⟨rfl, rfl⟩ := List.cons.inj htext
          have hds : ∀ e ∈ ds, Text.isBlank e = true :=
            fun e he => hspells e (List.mem_cons_of_mem d he)
          rw [lexeme_of_isBlank _ (hspells d List.mem_cons_self)]
          have htake := takeWhile_run hds hrest
          have hdrop := dropWhile_run hds hrest
          simp [htake, hdrop]
  | number =>
      have hdigit : ∀ d ∈ rest.head?, d.isDigit = false := fun d hd => (hrest d hd).1
      rcases hspells with ⟨-, hall⟩ | ⟨whole, digits, rfl, hwhole, hdigits, hall⟩
      · cases text with
        | nil => exact absurd rfl hne
        | cons d ds =>
            obtain ⟨rfl, rfl⟩ := List.cons.inj htext
            have hover : NumberOver rest :=
              fun e he => ⟨hdigit e he, (hrest e he).2 (point_not_mem_of_digits hall)⟩
            exact (lexeme_digits hall hover).symm
      · rw [List.append_assoc, List.cons_append] at htext
        rw [lexeme_before_point hwhole htext, numberLexeme_of_digits whole hdigits hall hdigit]
  | leftParen =>
      exact hsingle '(' hspells (by decide) (by decide) (by decide) (absurd · (by decide)) rfl
  | rightParen =>
      exact hsingle ')' hspells (by decide) (by decide) (by decide) (absurd · (by decide)) rfl
  | plus =>
      exact hsingle '+' hspells (by decide) (by decide) (by decide) (absurd · (by decide)) rfl
  | minus =>
      exact hsingle '-' hspells (by decide) (by decide) (by decide) (absurd · (by decide)) rfl
  | star =>
      refine hsingle '*' hspells (by decide) (by decide) (by decide) ?_ rfl
      exact fun _ hhead => hrest '*' hhead rfl
  | slash =>
      exact hsingle '/' hspells (by decide) (by decide) (by decide) (absurd · (by decide)) rfl
  | power =>
      have htwo : text = ['*', '*'] := hspells
      subst htwo
      obtain ⟨rfl, rfl⟩ := List.cons.inj htext
      rfl
  | percent =>
      exact hsingle '%' hspells (by decide) (by decide) (by decide) (absurd · (by decide)) rfl
  | illegal =>
      rcases hspells with ⟨whole, rfl, hwhole⟩ | ⟨d, rfl, hstray⟩
      · have hdigit : ∀ d ∈ rest.head?, d.isDigit = false := fun d hd => hrest d hd (by simp)
        rw [List.append_assoc, List.singleton_append] at htext
        rw [lexeme_before_point hwhole htext, numberLexeme_of_no_digit whole hdigit]
      · have hsymbol : ∀ e ∈ symbols, d ≠ e := fun e he hde => hstray.2.2 (hde ▸ he)
        refine hsingle d rfl hstray.1 hstray.2.1 (hsymbol '.' (by decide)) ?_
          (ofChar_of_isStray hstray)
        exact fun hd => absurd hd (hsymbol '*' (by decide))

/-! ## Induction -/

/-- **Induction along the tokens of a text.** -/
@[elab_as_elim]
theorem lexeme_induction {motive : List Char → Prop} (nil : motive [])
    (cons : ∀ c cs, motive (lexeme c cs).rest → motive (c :: cs)) (cs : List Char) :
    motive cs := by
  induction h : cs.length using Nat.strongRecOn generalizing cs with
  | _ n ih =>
      cases cs with
      | nil => exact nil
      | cons c cs =>
          have hlt : (lexeme c cs).rest.length < n := h ▸ length_lexeme_rest_lt c cs
          exact cons c cs (ih _ hlt _ rfl)

end RatExpr.Token

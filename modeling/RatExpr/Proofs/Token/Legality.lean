import Mathlib.Data.List.Basic
import RatExpr.Proofs.Token.Tiling
import RatExpr.Token.Significant

set_option autoImplicit false

/-! # Where a text stops being legal

Whether a text can be cut into tokens of expressions is seen from single characters and the
ones after them: a character must not be stray, and a point must have a digit after it
(`Faulty`). The first fault of a text also decides which token is illegal
(`significant_of_firstFault`). The token ends with the fault. Where it starts depends on what
comes before: digits before a faulty point belong to the token unless they are already the
fraction of a number (`OpenNumber`).
-/

namespace RatExpr.Token

/-! ## Faults -/

/-- The character `c` belongs to no token of an expression where `rest` comes after it. -/
def Faulty (c : Char) (rest : List Char) : Prop :=
  IsStray c ∨ (c = '.' ∧ ∀ d ∈ rest.head?, d.isDigit = false)

/-- None of the characters `cs` is a fault where `rest` comes after them. -/
def Faultless (cs rest : List Char) : Prop :=
  ∀ before c after, cs = before ++ c :: after → ¬ Faulty c (after ++ rest)

/-- The character `c` between `before` and `after` is the first fault of the text `cs`. -/
structure FirstFault (cs before : List Char) (c : Char) (after : List Char) : Prop where
  split : cs = before ++ c :: after
  faultless : Faultless before (c :: after)
  faulty : Faulty c after

/-- No fault: the character is one of those that tokens hold, and a point has a digit after it. -/
theorem not_faulty_iff {c : Char} {rest : List Char} :
    ¬ Faulty c rest ↔
      (Text.isBlank c = true ∨ c.isDigit = true ∨ c ∈ symbols) ∧
        (c = '.' → ∃ d tail, rest = d :: tail ∧ d.isDigit = true) := by
  have hstray : ¬ IsStray c ↔ Text.isBlank c = true ∨ c.isDigit = true ∨ c ∈ symbols := by
    simp only [IsStray, not_and_or, Bool.not_eq_false, not_not]
  have hdigit : (¬ ∀ d ∈ rest.head?, d.isDigit = false) ↔
      ∃ d tail, rest = d :: tail ∧ d.isDigit = true := by
    cases rest with
    | nil => simp
    | cons d tail => simp
  rw [Faulty, not_or, hstray, not_and, hdigit]

theorem faultless_nil (rest : List Char) : Faultless [] rest := forall_split_nil

theorem faultless_cons {c : Char} {cs rest : List Char} :
    Faultless (c :: cs) rest ↔ ¬ Faulty c (cs ++ rest) ∧ Faultless cs rest :=
  forall_split_cons

theorem faultless_append {cs ds rest : List Char} :
    Faultless (cs ++ ds) rest ↔ Faultless cs (ds ++ rest) ∧ Faultless ds rest := by
  induction cs with
  | nil => simp [faultless_nil]
  | cons c cs ih =>
      rw [List.cons_append, faultless_cons, faultless_cons, ih, List.append_assoc, and_assoc]

/-- Characters without a point are faultless whatever comes after them. -/
theorem faultless_of_forall {cs : List Char}
    (h : ∀ c ∈ cs, (Text.isBlank c = true ∨ c.isDigit = true ∨ c ∈ symbols) ∧ c ≠ '.')
    (rest : List Char) : Faultless cs rest := by
  rintro before c after rfl
  obtain ⟨hlegal, hpoint⟩ := h c (by simp)
  exact not_faulty_iff.2 ⟨hlegal, fun hc => absurd hc hpoint⟩

/-- A text is faultless if it holds no strange characters, and digits after its points. -/
theorem faultless_iff {cs : List Char} :
    Faultless cs [] ↔
      (∀ c ∈ cs, Text.isBlank c = true ∨ c.isDigit = true ∨ c ∈ symbols) ∧
        ∀ before after, cs = before ++ '.' :: after →
          ∃ d tail, after = d :: tail ∧ d.isDigit = true := by
  simp only [Faultless, not_faulty_iff, List.append_nil]
  constructor
  · intro h
    refine ⟨fun c hc => ?_, fun before after hcs => (h before '.' after hcs).2 rfl⟩
    obtain ⟨before, after, hcs⟩ := List.append_of_mem hc
    exact (h before c after hcs).1
  · rintro ⟨hlegal, hpoint⟩ before c after rfl
    refine ⟨hlegal c (by simp), ?_⟩
    rintro rfl
    exact hpoint before after rfl

/-- A text has one first fault at most. -/
theorem FirstFault.unique {cs before before' after after' : List Char} {c c' : Char}
    (h : FirstFault cs before c after) (h' : FirstFault cs before' c' after') :
    before = before' ∧ c = c' ∧ after = after' := by
  induction before generalizing cs before' with
  | nil =>
      cases before' with
      | nil =>
          obtain ⟨hc, hafter⟩ := List.cons.inj (h.split.symm.trans h'.split)
          exact ⟨rfl, hc, hafter⟩
      | cons d before' =>
          obtain ⟨rfl, rfl⟩ := List.cons.inj (h.split.symm.trans h'.split)
          exact absurd h.faulty (faultless_cons.1 h'.faultless).1
  | cons d before ih =>
      cases before' with
      | nil =>
          obtain ⟨rfl, rfl⟩ := List.cons.inj (h'.split.symm.trans h.split)
          exact absurd h'.faulty (faultless_cons.1 h.faultless).1
      | cons d' before' =>
          obtain ⟨rfl, hsplit⟩ := List.cons.inj (h.split.symm.trans h'.split)
          obtain ⟨rfl, hrest⟩ := ih ⟨rfl, (faultless_cons.1 h.faultless).2, h.faulty⟩
            ⟨hsplit, (faultless_cons.1 h'.faultless).2, h'.faulty⟩
          exact ⟨rfl, hrest⟩

/-! ## The tokens before the first fault -/

/-- Digits are faultless. -/
theorem faultless_of_digits {cs : List Char} (h : ∀ c ∈ cs, c.isDigit = true)
    (rest : List Char) : Faultless cs rest :=
  faultless_of_forall (fun c hc => ⟨Or.inr (Or.inl (h c hc)), ne_point_of_isDigit (h c hc)⟩) rest

theorem IsNumeral.faultless {cs : List Char} (h : IsNumeral cs) (rest : List Char) :
    Faultless cs rest := by
  rcases h with ⟨-, hall⟩ | ⟨whole, digits, rfl, hwhole, hne, hdigits⟩
  · exact faultless_of_digits hall rest
  · obtain ⟨d, tail, rfl⟩ := List.exists_cons_of_ne_nil hne
    have hpoint : ¬ Faulty '.' (d :: tail ++ rest) :=
      not_faulty_iff.2 ⟨by decide, fun _ => ⟨d, tail ++ rest, rfl, hdigits d List.mem_cons_self⟩⟩
    exact faultless_append.2 ⟨faultless_of_digits hwhole _,
      faultless_cons.2 ⟨hpoint, faultless_of_digits hdigits rest⟩⟩

/-- **A token of an expression holds no fault.** -/
theorem Kind.Spells.faultless {kind : Kind} {cs : List Char} (h : kind.Spells cs)
    (hlegal : kind ≠ .illegal) (rest : List Char) : Faultless cs rest := by
  cases kind with
  | illegal => exact absurd rfl hlegal
  | number => exact IsNumeral.faultless h rest
  | eof =>
      rw [show cs = [] from h]
      exact faultless_nil rest
  | space =>
      exact faultless_of_forall (fun c hc => ⟨Or.inl (h c hc), ne_point_of_isBlank (h c hc)⟩) rest
  | _ =>
      -- the other kinds have one text each
      simp only [Kind.Spells] at h
      rw [h]
      exact faultless_of_forall (by simp [symbols]) rest

/-- Nor do tokens one after the other. -/
theorem faultless_written {ts : List Token}
    (h : ∀ t ∈ ts, t.kind.Spells t.text.toList ∧ t.kind ≠ .illegal) (rest : List Char) :
    Faultless (written ts) rest := by
  induction ts generalizing rest with
  | nil => exact faultless_nil rest
  | cons t ts ih =>
      obtain ⟨ht, hts⟩ := List.forall_mem_cons.1 h
      rw [written_cons, faultless_append]
      exact ⟨ht.1.faultless ht.2 _, ih hts rest⟩

/-- **An illegal token ends with a fault.** Only a faulty point has anything before it in the
token, which is digits. -/
theorem exists_fault_of_illegal {cs rest : List Char} (h : Kind.Spells .illegal cs)
    (hrest : ∀ d ∈ rest.head?, Kind.MayPrecede .illegal cs d) :
    ∃ run c, cs = run ++ [c] ∧ (∀ d ∈ run, d.isDigit = true) ∧ Faulty c rest ∧
      (run ≠ [] → c = '.') := by
  rcases h with ⟨whole, rfl, hwhole⟩ | ⟨c, rfl, hc⟩
  · have hdigit : ∀ d ∈ rest.head?, d.isDigit = false := fun d hd => hrest d hd (by simp)
    exact ⟨whole, '.', rfl, hwhole, Or.inr ⟨rfl, hdigit⟩, fun _ => rfl⟩
  · exact ⟨[], c, rfl, by simp, Or.inl hc, fun hne => absurd rfl hne⟩

/-! ## The digits before a faulty point -/

/-- The digits `run` after `pre` belong to the number that a point after them would go on: they
are all the digits there, one at least, and no point stands before them. -/
structure OpenNumber (pre run : List Char) : Prop where
  run_ne_nil : run ≠ []
  digits : ∀ d ∈ run, d.isDigit = true
  before : ∀ d ∈ pre.getLast?, d.isDigit = false ∧ d ≠ '.'

/-- Two runs of digits at the end of a text, the second of them whole: the first is no longer. -/
theorem eq_nil_of_run {pre a run : List Char} (hrun : ∀ d ∈ a ++ run, d.isDigit = true)
    (hpre : ∀ d ∈ (pre ++ a).getLast?, d.isDigit = false) : a = [] := by
  rcases List.eq_nil_or_concat a with rfl | ⟨init, d, rfl⟩
  · rfl
  · have hfalse : d.isDigit = false := hpre d (by simp)
    rw [hrun d (by simp)] at hfalse
    exact absurd hfalse (by decide)

/-- A text ends in one whole run of digits. -/
theorem run_unique {pre pre' run run' : List Char} (h : pre ++ run = pre' ++ run')
    (hrun : ∀ d ∈ run, d.isDigit = true) (hpre : ∀ d ∈ pre.getLast?, d.isDigit = false)
    (hrun' : ∀ d ∈ run', d.isDigit = true) (hpre' : ∀ d ∈ pre'.getLast?, d.isDigit = false) :
    pre = pre' ∧ run = run' := by
  rcases List.append_eq_append_iff.1 h with ⟨a, rfl, rfl⟩ | ⟨a, rfl, rfl⟩
  · rw [eq_nil_of_run hrun hpre']
    simp
  · rw [eq_nil_of_run hrun' hpre]
    simp

/-- A token of an expression that is no number ends in no digit and no point. -/
theorem Kind.Spells.number_or_last {kind : Kind} {cs : List Char} (h : kind.Spells cs)
    (hlegal : kind ≠ .illegal) :
    kind = .number ∨ ∀ c ∈ cs.getLast?, c.isDigit = false ∧ c ≠ '.' := by
  cases kind with
  | illegal => exact absurd rfl hlegal
  | number => exact Or.inl rfl
  | space =>
      refine Or.inr fun c hc => ?_
      have hblank : Text.isBlank c = true := h c (List.mem_of_getLast? hc)
      refine ⟨?_, ne_point_of_isBlank hblank⟩
      rw [Bool.eq_false_iff]
      intro hdigit
      rw [Text.isBlank_eq_false_of_isDigit hdigit] at hblank
      exact absurd hblank (by decide)
  | _ =>
      simp only [Kind.Spells] at h
      rw [h]
      exact Or.inr (by simp)

/-- Before a digit that starts a token, a token of an expression ends in no digit and no point. -/
theorem Kind.Spells.last_before_digit {kind : Kind} {cs : List Char} {d : Char}
    (h : kind.Spells cs) (hlegal : kind ≠ .illegal) (hnext : kind.MayPrecede cs d)
    (hd : d.isDigit = true) : ∀ c ∈ cs.getLast?, c.isDigit = false ∧ c ≠ '.' := by
  rcases h.number_or_last hlegal with rfl | hlast
  · have hover : d.isDigit = false := hnext.1
    rw [hd] at hover
    exact absurd hover (by decide)
  · exact hlast

/-- Before a point that starts a token, no number is open. -/
theorem Kind.Spells.not_openNumber {kind : Kind} {cs : List Char} (h : kind.Spells cs)
    (hlegal : kind ≠ .illegal) (hne : cs ≠ []) (hnext : kind.MayPrecede cs '.')
    {past pre run : List Char} (heq : past ++ cs = pre ++ run) : ¬ OpenNumber pre run := by
  intro hopen
  have hpre : ∀ d ∈ pre.getLast?, d.isDigit = false := fun d hd => (hopen.before d hd).1
  rcases h.number_or_last hlegal with rfl | hlast
  · -- a number before a point has a point of its own, and the run is its fraction
    rcases h with ⟨-, hall⟩ | ⟨whole, digits, rfl, -, -, hdigits⟩
    · exact hnext.2 (point_not_mem_of_digits hall) rfl
    · have hsplit : (past ++ whole ++ ['.']) ++ digits = pre ++ run := by
        rw [← heq]
        simp
      obtain ⟨rfl, -⟩ := run_unique hsplit hdigits (by simp [not_isDigit_point]) hopen.digits hpre
      exact (hopen.before '.' (by simp)).2 rfl
  · -- the run ends in a digit, and the token does not
    have hend : (past ++ cs).getLast? = (pre ++ run).getLast? := congrArg List.getLast? heq
    rw [List.getLast?_append_of_ne_nil _ hne,
      List.getLast?_append_of_ne_nil _ hopen.run_ne_nil] at hend
    have hc := List.getLast?_eq_some_getLast hne
    have hdigit := hopen.digits _ (List.mem_of_getLast? (hend ▸ hc))
    rw [(hlast _ hc).1] at hdigit
    exact absurd hdigit (by decide)

/-! ## The first illegal token -/

/-- Before an illegal token, the token before it decides whether a number is open: digits in the
illegal token are the whole run of them, and a point alone goes on no number. -/
theorem Tiles.openNumber_or {start : Nat} {cs : List Char} {ts before after : List Token}
    {t : Token} (h : Tiles start cs ts) (hts : ts = before ++ t :: after)
    (hbefore : ∀ u ∈ before, u.kind ≠ .illegal) {run : List Char} {c : Char}
    (htext : t.text.toList = run ++ [c]) (hrun : ∀ d ∈ run, d.isDigit = true) :
    OpenNumber (written before) run ∨
      run = [] ∧ (c = '.' → ∀ pre digits, written before = pre ++ digits →
        ¬ OpenNumber pre digits) := by
  rcases List.eq_nil_or_concat' before with rfl | ⟨others, u, rfl⟩
  · by_cases hne : run = []
    · refine Or.inr ⟨hne, fun _ pre digits heq hopen => ?_⟩
      exact hopen.run_ne_nil (List.append_eq_nil_iff.1 heq.symm).2
    · exact Or.inl ⟨hne, hrun, by simp⟩
  · have hu : ts = others ++ u :: t :: after := by rw [hts]; simp
    have hspells := h.spells u (by simp [hu])
    have hlegal := hbefore u (by simp)
    have hne := h.text_ne_nil hu
    have hnext := h.mayPrecede others u (t :: after) hu
    rw [written_cons, htext] at hnext
    have hwritten : written (others ++ [u]) = written others ++ u.text.toList := by simp
    rw [hwritten]
    cases run with
    | nil =>
        refine Or.inr ⟨rfl, ?_⟩
        rintro rfl pre digits heq
        exact hspells.not_openNumber hlegal hne (hnext '.' rfl) heq
    | cons d run =>
        refine Or.inl ⟨by simp, hrun, ?_⟩
        rw [List.getLast?_append_of_ne_nil _ hne]
        exact hspells.last_before_digit hlegal (hnext d rfl) (hrun d List.mem_cons_self)

/-- **The first illegal token ends with the first fault.** It starts with it, too, unless digits
of a number stand before the point that is the fault. -/
theorem Tiles.firstFault {start : Nat} {cs : List Char} {ts before after : List Token} {t : Token}
    (h : Tiles start cs ts) (hts : ts = before ++ t :: after)
    (hbefore : ∀ u ∈ before, u.kind ≠ .illegal) (ht : t.kind = .illegal) :
    ∃ run c, t.text.toList = run ++ [c] ∧ FirstFault cs (written before ++ run) c (written after) ∧
      (c = '.' ∧ OpenNumber (written before) run ∨
        run = [] ∧ (c = '.' → ∀ pre digits, written before = pre ++ digits →
          ¬ OpenNumber pre digits)) := by
  have hspells : Kind.Spells .illegal t.text.toList := ht ▸ h.spells t (by simp [hts])
  have hnext : ∀ d ∈ (written after).head?, Kind.MayPrecede .illegal t.text.toList d :=
    ht ▸ h.mayPrecede before t after hts
  obtain ⟨run, c, htext, hrun, hfault, hpoint⟩ := exists_fault_of_illegal hspells hnext
  have hfirst : FirstFault cs (written before ++ run) c (written after) := by
    refine ⟨?_, ?_, hfault⟩
    · rw [← h.written_eq, hts, written_append, written_cons, htext]
      simp
    · have hlegal : ∀ u ∈ before, u.kind.Spells u.text.toList ∧ u.kind ≠ .illegal :=
        fun u hu => ⟨h.spells u (by simp [hts, hu]), hbefore u hu⟩
      exact faultless_append.2 ⟨faultless_written hlegal _, faultless_of_digits hrun _⟩
  refine ⟨run, c, htext, hfirst, ?_⟩
  rcases h.openNumber_or hts hbefore htext hrun with hopen | hclosed
  · exact Or.inl ⟨hpoint hopen.run_ne_nil, hopen⟩
  · exact Or.inr hclosed

/-! ## Scanning a whole text -/

/-- **A text has significant tokens exactly if it has no fault.** -/
theorem exists_significant_iff {text : String} :
    (∃ ts, significant text = .ok ts) ↔ Faultless text.toList [] := by
  have htiles : Tiles 0 text.toList (all text) := tiles_toList 0 text.toList
  constructor
  · rintro ⟨ts, hts⟩
    have hlegal := (significant_eq_ok_iff.1 hts).1
    rw [← htiles.written_eq]
    exact faultless_written (fun t ht => ⟨htiles.spells t ht, hlegal t ht⟩) []
  · intro hfaultless
    cases h : significant text with
    | ok ts => exact ⟨ts, rfl⟩
    | error e =>
        obtain ⟨before, t, after, hall, hbefore, ht, -⟩ := significant_eq_error_iff.1 h
        obtain ⟨run, c, -, hfirst, -⟩ := htiles.firstFault hall hbefore ht
        refine absurd hfirst.faulty ?_
        rw [← List.append_nil (written after)]
        exact hfaultless _ _ _ hfirst.split

/-- A text that has no significant tokens has a first fault. -/
theorem exists_firstFault {text : String} (h : ¬ ∃ ts, significant text = .ok ts) :
    ∃ before c after, FirstFault text.toList before c after := by
  cases hsig : significant text with
  | ok ts => exact absurd ⟨ts, hsig⟩ h
  | error e =>
      obtain ⟨before, t, after, hall, hbefore, ht, -⟩ := significant_eq_error_iff.1 hsig
      obtain ⟨run, c, -, hfirst, -⟩ :=
        (tiles_toList 0 text.toList).firstFault hall hbefore ht
      exact ⟨_, c, _, hfirst⟩

/-- **The first fault decides which token is illegal.** -/
theorem significant_of_firstFault {text : String} {before after : List Char} {c : Char}
    (h : FirstFault text.toList before c after) :
    (∀ pre run, c = '.' → before = pre ++ run → OpenNumber pre run →
      significant text = .error (.illegalToken (String.ofList (run ++ ['.'])) pre.length)) ∧
    ((¬ ∃ pre run, c = '.' ∧ before = pre ++ run ∧ OpenNumber pre run) →
      significant text = .error (.illegalToken (String.ofList [c]) before.length)) := by
  have htiles : Tiles 0 text.toList (all text) := tiles_toList 0 text.toList
  have hnot : ¬ ∃ ts, significant text = .ok ts := by
    rw [exists_significant_iff, h.split]
    intro hfaultless
    refine hfaultless before c after rfl ?_
    rw [List.append_nil]
    exact h.faulty
  cases hsig : significant text with
  | ok ts => exact absurd ⟨ts, hsig⟩ hnot
  | error e =>
      obtain ⟨done, t, others, hall, hdone, ht, rfl⟩ := significant_eq_error_iff.1 hsig
      obtain ⟨run, d, htext, hfirst, hrun⟩ := htiles.firstFault hall hdone ht
      obtain ⟨rfl, rfl, rfl⟩ := h.unique hfirst
      have hpos : t.pos = (written done).length := by
        rw [htiles.pos_eq done t others hall, Nat.zero_add]
      have hfragment : t.text = String.ofList (run ++ [c]) := by
        rw [← htext, String.ofList_toList]
      rw [hfragment, hpos]
      rcases hrun with ⟨rfl, hopen⟩ | ⟨rfl, hclosed⟩
      · refine ⟨fun pre digits _ heq hopen' => ?_, fun hnone => ?_⟩
        · obtain ⟨rfl, rfl⟩ := run_unique heq hopen.digits
            (fun d hd => (hopen.before d hd).1) hopen'.digits (fun d hd => (hopen'.before d hd).1)
          rfl
        · exact absurd ⟨_, run, rfl, rfl, hopen⟩ hnone
      · rw [List.append_nil]
        refine ⟨fun pre digits hc heq hopen => ?_, fun _ => rfl⟩
        exact absurd hopen (hclosed hc pre digits heq)

example : significant "2+12.x" = .error (.illegalToken "12." 2) := by cbv

example : significant "2+1.2.x" = .error (.illegalToken "." 5) := by cbv

end RatExpr.Token

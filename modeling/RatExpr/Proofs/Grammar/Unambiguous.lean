import RatExpr.Proofs.Grammar.Repetition

set_option autoImplicit false

/-! # The grammar is unambiguous

A list of tokens has at most one derivation at a level (`Tree.eq_of_tokens_eq`). What is
proved by induction says more: where a tree and tokens that do not go on with its level make
up the same list as another such pair, the trees are the same and so are the tokens after
them. A derivation is therefore never the beginning of another one by accident: it ends where
its level is over.

The induction is on the number of tokens. The inside of a parenthesis, the operand of a sign
and an exponent are shorter than the whole; an operand of a looser level need not be, so the
levels are taken from the tightest to the loosest at each length.
-/

namespace RatExpr

/-- An atom does not start with a sign. -/
theorem Tree.atom_head (tree : Tree .atom) :
    ∃ t ts, tree.tokens = t :: ts ∧ Sign.ofKind? t.kind = none := by
  cases tree with
  | number t ht => exact ⟨t, [], rfl, by simp [ht, Sign.ofKind?]⟩
  | group opening inside closing ho hc => exact ⟨opening, _, rfl, by simp [ho, Sign.ofKind?]⟩

namespace Level

/-- A tree of at most `n` tokens and the tokens after it, which do not go on with the level,
can be told from the list that they make up. -/
def Unambiguous (n : Nat) (level : Level) : Prop :=
  ∀ (a b : Tree level) (r s : List Token), a.tokens.length ≤ n → Over level r → Over level s →
    a.tokens ++ r = b.tokens ++ s → a = b ∧ r = s

variable {n : Nat}

theorem unambiguous_atom (hin : ∀ m, m < n → Unambiguous m expression) : Unambiguous n atom := by
  intro a b r s hlen _ _ h
  cases a with
  | number t ht =>
      cases b with
      | number t' ht' =>
          simp only [Tree.tokens, List.cons_append, List.nil_append, List.cons.injEq] at h
          obtain ⟨rfl, rfl⟩ := h
          exact ⟨rfl, rfl⟩
      | group opening inside closing ho hc =>
          simp only [Tree.tokens, List.cons_append, List.cons.injEq] at h
          rw [h.1, ho] at ht
          exact absurd ht (by decide)
  | group opening inside closing ho hc =>
      cases b with
      | number t ht =>
          simp only [Tree.tokens, List.cons_append, List.cons.injEq] at h
          rw [← h.1, ho] at ht
          exact absurd ht (by decide)
      | group opening' inside' closing' ho' hc' =>
          simp only [Tree.tokens, List.cons_append, List.append_assoc, List.nil_append,
            List.cons.injEq] at h
          obtain ⟨rfl, h⟩ := h
          have hshort : inside.tokens.length < n := by
            simp only [Tree.tokens, List.length_cons, List.length_append] at hlen
            omega
          obtain ⟨rfl, hrest⟩ := hin _ hshort inside inside' _ _ (Nat.le_refl _)
            (over_of_rightParen _ r hc) (over_of_rightParen _ s hc') h
          simp only [List.cons.injEq] at hrest
          obtain ⟨rfl, rfl⟩ := hrest
          exact ⟨rfl, rfl⟩

theorem unambiguous_unary (hatom : Unambiguous n atom)
    (hin : ∀ m, m < n → Unambiguous m unary) : Unambiguous n unary := by
  intro a b r s hlen _ _ h
  cases a with
  | unsigned a =>
      cases b with
      | unsigned b =>
          obtain ⟨rfl, hrest⟩ := hatom a b r s hlen trivial trivial h
          exact ⟨rfl, hrest⟩
      | signed t sign b ht =>
          obtain ⟨u, us, hu, hsign⟩ := a.atom_head
          simp only [Tree.tokens, hu, List.cons_append, List.cons.injEq] at h
          rw [h.1, ht] at hsign
          exact absurd hsign (by simp)
  | signed t sign a ht =>
      cases b with
      | unsigned b =>
          obtain ⟨u, us, hu, hsign⟩ := b.atom_head
          simp only [Tree.tokens, hu, List.cons_append, List.cons.injEq] at h
          rw [← h.1, ht] at hsign
          exact absurd hsign (by simp)
      | signed t' sign' b ht' =>
          simp only [Tree.tokens, List.cons_append, List.cons.injEq] at h
          obtain ⟨rfl, h⟩ := h
          have hshort : a.tokens.length < n := by
            simp only [Tree.tokens, List.length_cons] at hlen
            omega
          obtain ⟨rfl, hrest⟩ := hin _ hshort a b r s (Nat.le_refl _) trivial trivial h
          have hsign : sign = sign' := by
            rw [ht, Option.some.injEq] at ht'
            exact ht'
          subst hsign
          exact ⟨rfl, hrest⟩

theorem unambiguous_power (hunary : Unambiguous n unary)
    (hin : ∀ m, m < n → Unambiguous m power) : Unambiguous n power := by
  intro a b r s hlen hr hs h
  cases a with
  | unraised a =>
      cases b with
      | unraised b =>
          obtain ⟨rfl, hrest⟩ := hunary a b r s hlen trivial trivial h
          exact ⟨rfl, hrest⟩
      | raised b t exponent ht =>
          simp only [Tree.tokens, List.append_assoc, List.cons_append] at h
          -- the exponent of `b` would go on with `a`
          obtain ⟨-, rfl⟩ := hunary a b _ _ hlen trivial trivial h
          exact absurd ht hr
  | raised a t exponent ht =>
      have hbase : a.tokens.length ≤ n := by
        simp only [Tree.tokens, List.length_append] at hlen
        omega
      cases b with
      | unraised b =>
          simp only [Tree.tokens, List.append_assoc, List.cons_append] at h
          obtain ⟨-, rfl⟩ := hunary a b _ _ hbase trivial trivial h
          exact absurd ht hs
      | raised b t' exponent' ht' =>
          simp only [Tree.tokens, List.append_assoc, List.cons_append] at h
          obtain ⟨rfl, hexp⟩ := hunary a b _ _ hbase trivial trivial h
          simp only [List.cons.injEq] at hexp
          obtain ⟨rfl, hexp⟩ := hexp
          have hshort : exponent.tokens.length < n := by
            simp only [Tree.tokens, List.length_append, List.length_cons] at hlen
            omega
          obtain ⟨rfl, hrest⟩ := hin _ hshort exponent exponent' r s (Nat.le_refl _) hr hs hexp
          exact ⟨rfl, hrest⟩

/-! ## Loops -/

variable {level operand : Level}

/-- An operand is over before the steps of a loop, and after the last of them. -/
theorem over_steps (loop : Repetition level operand) (steps : List (Step loop.operator? operand))
    {r : List Token} (hr : Over level r) :
    Over operand (steps.flatMap Step.tokens ++ r) := by
  cases steps with
  | nil => exact loop.over_operand hr
  | cons step steps => exact loop.over_of_operator _ _ _ step.isOperator

/-- The steps of a loop can be told from their tokens. -/
theorem steps_unambiguous (loop : Repetition level operand) (hop : Unambiguous n operand)
    (as bs : List (Step loop.operator? operand)) (r s : List Token)
    (hlen : (as.flatMap Step.tokens).length ≤ n) (hr : Over level r) (hs : Over level s)
    (h : as.flatMap Step.tokens ++ r = bs.flatMap Step.tokens ++ s) : as = bs ∧ r = s := by
  induction as generalizing bs with
  | nil =>
      cases bs with
      | nil => exact ⟨rfl, h⟩
      | cons b bs =>
          -- the first operator of `bs` would go on with the level
          simp only [List.flatMap_nil, List.nil_append, List.flatMap_cons, Step.tokens,
            List.cons_append] at h
          rw [h, loop.over_cons, b.isOperator] at hr
          exact absurd hr.1 (by simp)
  | cons a as ih =>
      cases bs with
      | nil =>
          simp only [List.flatMap_nil, List.nil_append, List.flatMap_cons, Step.tokens,
            List.cons_append] at h
          rw [← h, loop.over_cons, a.isOperator] at hs
          exact absurd hs.1 (by simp)
      | cons b bs =>
          simp only [List.flatMap_cons, Step.tokens, List.cons_append, List.append_assoc,
            List.cons.injEq] at h
          simp only [List.flatMap_cons, Step.tokens, List.cons_append, List.length_cons,
            List.length_append] at hlen
          obtain ⟨htoken, h⟩ := h
          have hshort : a.right.tokens.length ≤ n := by omega
          have hshorter : (as.flatMap Step.tokens).length ≤ n := by omega
          obtain ⟨hright, hrest⟩ := hop a.right b.right _ _ hshort (over_steps loop as hr)
            (over_steps loop bs hs) h
          obtain ⟨hsteps, hr'⟩ := ih bs hshorter hrest
          exact ⟨by rw [Step.ext htoken hright, hsteps], hr'⟩

theorem unambiguous_repetition (loop : Repetition level operand)
    (hop : Unambiguous n operand) : Unambiguous n level := by
  intro a b r s hlen hr hs h
  obtain ⟨first, as, rfl⟩ := loop.exists_steps a
  obtain ⟨first', bs, rfl⟩ := loop.exists_steps b
  simp only [loop.tokens_foldl, loop.tokens_single, List.append_assoc, List.length_append]
    at h hlen
  have hshort : first.tokens.length ≤ n := by omega
  have hshorter : (as.flatMap Step.tokens).length ≤ n := by omega
  -- first the operands before the loops, then the steps after them
  obtain ⟨hfirst, hsteps⟩ := hop first first' _ _ hshort (over_steps loop as hr)
    (over_steps loop bs hs) h
  obtain ⟨hsteps, hrest⟩ := steps_unambiguous loop hop as bs r s hshorter hr hs hsteps
  exact ⟨by rw [hfirst, hsteps], hrest⟩

/-! ## All levels -/

theorem unambiguous (n : Nat) (level : Level) : Unambiguous n level := by
  induction n, level using grammar_induction with
  | atom n hin => exact unambiguous_atom (fun m hm => hin m hm expression)
  | unary n hin hatom => exact unambiguous_unary hatom (fun m hm => hin m hm unary)
  | power n hin hunary => exact unambiguous_power hunary (fun m hm => hin m hm power)
  | term n hpower => exact unambiguous_repetition terms hpower
  | expression n hterm => exact unambiguous_repetition sums hterm

end Level

/-- **No list of tokens has two derivations.** -/
theorem Tree.eq_of_tokens_eq {level : Level} {a b : Tree level} (h : a.tokens = b.tokens) :
    a = b :=
  (Level.unambiguous _ level a b [] [] (Nat.le_refl _) (Level.over_nil level)
    (Level.over_nil level) (by rw [h])).1

end RatExpr

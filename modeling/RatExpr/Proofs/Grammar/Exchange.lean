import RatExpr.Proofs.Grammar.Keeping
import RatExpr.Proofs.Grammar.Unambiguous

set_option autoImplicit false

/-! # Exchanging what stands in parentheses

What stands in parentheses in a tree can be exchanged for another expression, and if that is
worth the same, so is the tree (`Tree.exists_exchanged`). It does not matter how deep in the
tree the parenthesis stands, nor what is around it: every opening parenthesis of a tree opens
a group of it (`Tree.exchangeable`), by induction on the tree, and the expression in that group
is told from the tokens after the parenthesis, as no list of tokens has two derivations.
-/

namespace RatExpr.Tree

/-! ## Lists split at an element -/

/-- An element of two lists one after the other is in the first or in the second. -/
theorem append_eq_append_cons {α : Type} {xs ys before rest : List α} {o : α}
    (h : xs ++ ys = before ++ o :: rest) :
    (∃ more, xs = before ++ o :: more ∧ rest = more ++ ys) ∨
      ∃ more, before = xs ++ more ∧ ys = more ++ o :: rest := by
  rcases List.append_eq_append_iff.1 h with ⟨more, hbefore, hys⟩ | ⟨more, hxs, hrest⟩
  · exact Or.inr ⟨more, hbefore, hys⟩
  · cases more with
    | nil => exact Or.inr ⟨[], by rw [hxs, List.append_nil, List.append_nil], hrest.symm⟩
    | cons p more =>
        obtain ⟨rfl, rfl⟩ := List.cons.inj hrest
        exact Or.inl ⟨more, hxs, rfl⟩

/-- The same with another element between the two lists. -/
theorem append_cons_eq_append_cons {α : Type} {xs ys before rest : List α} {t o : α}
    (hne : t ≠ o) (h : xs ++ t :: ys = before ++ o :: rest) :
    (∃ more, xs = before ++ o :: more ∧ rest = more ++ t :: ys) ∨
      ∃ more, before = xs ++ t :: more ∧ ys = more ++ o :: rest := by
  rcases append_eq_append_cons h with hfirst | ⟨more, rfl, hsecond⟩
  · exact Or.inl hfirst
  · cases more with
    | nil => exact absurd (List.cons.inj hsecond).1 hne
    | cons u more =>
        rw [List.cons_append] at hsecond
        obtain ⟨rfl, hys⟩ := List.cons.inj hsecond
        exact Or.inr ⟨more, rfl, hys⟩

/-! ## Groups in a tree -/

/-- In `tree`, the tokens `before` come before the opening parenthesis `o` of a group, and
`rest` after it. Whatever is put inside the group instead, the rest of the tree stays as it is,
and the tree keeps its values if the inside does. -/
def Exchangeable {level : Level} (tree : Tree level) (before rest : List Token) (o : Token) :
    Prop :=
  ∃ (inside : Tree .expression) (c : Token) (after : List Token), c.kind = .rightParen ∧
    rest = inside.tokens ++ c :: after ∧
    ∀ inside' : Tree .expression, ∃ tree' : Tree level,
      tree'.tokens = before ++ o :: (inside'.tokens ++ c :: after) ∧
      ∀ limits limits' extra, limits ≤ limits' → Keeps limits limits' extra inside inside' →
        Keeps limits limits' extra tree tree'

/-- A group in a part of a tree, which has the tokens `front` before it and `back` after it, is
a group of the tree. -/
theorem Exchangeable.of_part {level part : Level} {tree : Tree part} {before rest : List Token}
    {o : Token} (h : tree.Exchangeable before rest o) (whole : Tree level)
    (front back : List Token)
    (hwhole : ∀ tree' : Tree part, ∃ whole' : Tree level,
      whole'.tokens = front ++ (tree'.tokens ++ back) ∧
      ∀ limits limits' extra, limits ≤ limits' → Keeps limits limits' extra tree tree' →
        Keeps limits limits' extra whole whole') :
    whole.Exchangeable (front ++ before) (rest ++ back) o := by
  obtain ⟨inside, c, after, hc, rfl, hexchange⟩ := h
  refine ⟨inside, c, after ++ back, hc, by simp, fun inside' => ?_⟩
  obtain ⟨tree', htokens, hkeeps⟩ := hexchange inside'
  obtain ⟨whole', hwhole', hkeeps'⟩ := hwhole tree'
  refine ⟨whole', by simp [hwhole', htokens], fun limits limits' extra hle hinside => ?_⟩
  exact hkeeps' _ _ _ hle (hkeeps _ _ _ hle hinside)

/-- A tree of one part is exchanged with its part. -/
theorem Exchangeable.of_only_part {level part : Level} {tree : Tree part} {whole : Tree level}
    {before rest : List Token} {o : Token} (h : tree.Exchangeable before rest o)
    (wrap : Tree part → Tree level) (htokens : ∀ tree', (wrap tree').tokens = tree'.tokens)
    (hkeeps : ∀ tree' limits limits' extra, Keeps limits limits' extra tree tree' →
      Keeps limits limits' extra whole (wrap tree')) : whole.Exchangeable before rest o := by
  have hpart := h.of_part whole [] [] fun tree' =>
    ⟨wrap tree', by simp [htokens], fun _ _ _ _ => hkeeps tree' _ _ _⟩
  rwa [List.nil_append, List.append_nil] at hpart

/-- A group in a tree of two operands is a group of one of them, if the token between them does
not open it. -/
theorem exchangeable_of_operands {level l r : Level} {left : Tree l} {right : Tree r} {t o : Token}
    {before rest : List Token} (whole : Tree l → Tree r → Tree level)
    (htokens : ∀ a b, (whole a b).tokens = a.tokens ++ t :: b.tokens)
    (hkeeps : ∀ a b limits limits' extra, limits ≤ limits' → Keeps limits limits' extra left a →
      Keeps limits limits' extra right b →
      Keeps limits limits' extra (whole left right) (whole a b))
    (hleft : ∀ before rest, left.tokens = before ++ o :: rest → left.Exchangeable before rest o)
    (hright : ∀ before rest, right.tokens = before ++ o :: rest →
      right.Exchangeable before rest o)
    (hne : t ≠ o) (h : (whole left right).tokens = before ++ o :: rest) :
    (whole left right).Exchangeable before rest o := by
  rw [htokens] at h
  rcases append_cons_eq_append_cons hne h with ⟨more, hl, rfl⟩ | ⟨more, rfl, hr⟩
  · refine (hleft _ _ hl).of_part (whole left right) [] (t :: right.tokens) fun a => ?_
    exact ⟨whole a right, htokens a right,
      fun _ _ _ hle hk => hkeeps a right _ _ _ hle hk (.refl hle right)⟩
  · have hpart := (hright _ _ hr).of_part (whole left right) (left.tokens ++ [t]) []
      fun b => ⟨whole left b, by simp [htokens],
        fun _ _ _ hle hk => hkeeps left b _ _ _ hle (.refl hle left) hk⟩
    simpa using hpart

/-- **Every opening parenthesis of a tree opens a group.** -/
theorem exchangeable {level : Level} (tree : Tree level) {o : Token} (ho : o.kind = .leftParen)
    (before rest : List Token) (h : tree.tokens = before ++ o :: rest) :
    tree.Exchangeable before rest o := by
  -- a token of another kind is not the opening parenthesis
  have hother : ∀ {t : Token}, t.kind ≠ .leftParen → t ≠ o := fun ht hto => ht (hto ▸ ho)
  induction tree generalizing before rest with
  | number t ht =>
      have hne : t ≠ o := hother (by rw [ht]; decide)
      cases before with
      | nil => exact absurd (List.cons.inj h).1 hne
      | cons q before => exact absurd (List.cons.inj h).2 (by simp)
  | group p inside c hp hc ih =>
      cases before with
      | nil =>
          obtain ⟨rfl, rfl⟩ := List.cons.inj h
          exact ⟨inside, c, [], hc, rfl, fun inside' =>
            ⟨.group p inside' c hp hc, rfl, fun _ _ _ _ hin => hin.group hp hp hc hc⟩⟩
      | cons q before =>
          obtain ⟨rfl, htail⟩ := List.cons.inj h
          have hne : c ≠ o := hother (by rw [hc]; decide)
          rcases append_cons_eq_append_cons hne htail with ⟨more, hin, rfl⟩ | ⟨more, -, hnil⟩
          · refine (ih _ _ hin).of_part (.group p inside c hp hc) [p] [c] fun inside' => ?_
            exact ⟨.group p inside' c hp hc, rfl, fun _ _ _ _ hk => hk.group hp hp hc hc⟩
          · exact absurd hnil (by simp)
  | unsigned operand ih =>
      exact (ih _ _ h).of_only_part .unsigned (fun _ => rfl) fun _ _ _ _ hk => hk
  | signed t sign operand ht ih =>
      cases before with
      | nil =>
          have hne : t ≠ o := hother fun hkind => by simp [hkind, Sign.ofKind?] at ht
          exact absurd (List.cons.inj h).1 hne
      | cons q before =>
          obtain ⟨rfl, hop⟩ := List.cons.inj h
          have hpart := (ih _ _ hop).of_part (.signed t sign operand ht) [t] []
            fun operand' => ⟨.signed t sign operand' ht, by simp [tokens],
              fun _ _ _ _ hk => hk.signed ht ht⟩
          simpa using hpart
  | unraised operand ih =>
      exact (ih _ _ h).of_only_part .unraised (fun _ => rfl) fun _ _ _ _ hk => hk
  | raised base t exponent ht ihb ihe =>
      exact exchangeable_of_operands (fun a b => .raised a t b ht) (fun _ _ => rfl)
        (fun _ _ _ _ _ hle ha hb => ha.raised hle hb ht ht) ihb ihe
        (hother (by rw [ht]; decide)) h
  | factor operand ih =>
      exact (ih _ _ h).of_only_part .factor (fun _ => rfl) fun _ _ _ _ hk => hk
  | product left t op right ht ihl ihr =>
      exact exchangeable_of_operands (fun a b => .product a t op b ht) (fun _ _ => rfl)
        (fun _ _ _ _ _ hle ha hb => ha.product hle hb ht ht) ihl ihr
        (hother fun hkind => by simp [hkind, BinaryOp.multiplicative?] at ht) h
  | summand operand ih =>
      exact (ih _ _ h).of_only_part .summand (fun _ => rfl) fun _ _ _ _ hk => hk
  | sum left t op right ht ihl ihr =>
      exact exchangeable_of_operands (fun a b => .sum a t op b ht) (fun _ _ => rfl)
        (fun _ _ _ _ _ hle ha hb => ha.sum hle hb ht ht) ihl ihr
        (hother fun hkind => by simp [hkind, BinaryOp.additive?] at ht) h

/-- **What stands in parentheses can be exchanged.** Where a tree holds an expression in
parentheses, another one can stand there, and the tree keeps its values if the expression
does. -/
theorem exists_exchanged {level : Level} (tree : Tree level) {before after : List Token}
    {o c : Token} (ho : o.kind = .leftParen) (hc : c.kind = .rightParen)
    (inside inside' : Tree .expression)
    (h : tree.tokens = before ++ o :: (inside.tokens ++ c :: after)) :
    ∃ tree' : Tree level, tree'.tokens = before ++ o :: (inside'.tokens ++ c :: after) ∧
      ∀ limits limits' extra, limits ≤ limits' → Keeps limits limits' extra inside inside' →
        Keeps limits limits' extra tree tree' := by
  obtain ⟨found, c', after', hc', hrest, hexchange⟩ := tree.exchangeable ho _ _ h
  -- the group that is found there is the one that is meant
  obtain ⟨rfl, hafter⟩ := Level.unambiguous _ .expression inside found (c :: after) (c' :: after')
    (Nat.le_refl _) (Level.over_of_rightParen _ _ hc) (Level.over_of_rightParen _ _ hc') hrest
  obtain ⟨rfl, rfl⟩ := List.cons.inj hafter
  exact hexchange inside'

end RatExpr.Tree

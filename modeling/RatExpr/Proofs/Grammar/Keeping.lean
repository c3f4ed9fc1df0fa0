import RatExpr.Proofs.Grammar.Derivation
import RatExpr.Proofs.Limits.Guard
import RatExpr.Proofs.Token.Delimiter

set_option autoImplicit false

/-! # Trees that keep their values

The value of a tree is made of the values of its parts. `Tree.Keeps` compares two trees: what
the first is worth, the second is worth too, under larger limits and where more nesting is
allowed. There is one lemma for each form of a tree that holds a token: it keeps its values if
its parts do. So a tree keeps its values under larger limits (`Tree.Keeps.refl`) and at other
positions (`Tree.exists_moved`).
-/

namespace RatExpr

theorem Limits.le_refl (limits : Limits) : limits ≤ limits :=
  ⟨Nat.le_refl _, Nat.le_refl _⟩

/-! ## Operators -/

/-- A number is worth the same wherever it stands. -/
theorem Literal.evaluate_eq_ok_of_eq {text : String} {pos pos' : Nat} {v : Rat}
    (h : evaluate text pos = .ok v) : evaluate text pos' = .ok v := by
  unfold evaluate at h ⊢
  split at h
  · exact h
  · simp at h

/-- An operator with a value has it at every position. -/
theorem BinaryOp.apply_eq_ok_of_eq {limits : Limits} {op : BinaryOp} {pos pos' : Nat}
    {a b v : Rat} (h : op.apply limits pos a b = .ok v) : op.apply limits pos' a b = .ok v := by
  cases op with
  | div =>
      simp only [apply] at h ⊢
      by_cases hb : b = 0
      · simp [hb] at h
      · rw [if_neg hb] at h ⊢
        exact h
  | mod =>
      simp only [apply, modulo] at h ⊢
      by_cases hint : a.den ≠ 1 ∨ b.den ≠ 1
      · simp [hint] at h
      rw [if_neg hint] at h ⊢
      by_cases hb : b = 0
      · simp [hb] at h
      · rw [if_neg hb] at h ⊢
        exact h
  | _ => exact h

section

variable {limits limits' : Limits} {extra : Nat}

/-- An operator keeps its value under larger limits, if its right operand does. -/
theorem BinaryOp.combine_keeps (hle : limits ≤ limits') {op : BinaryOp} {pos pos' : Nat}
    {a v : Rat} {x x' : Except EvalError Rat} (hx : ∀ b, x = .ok b → x' = .ok b)
    (h : op.combine limits pos a x = .ok v) : op.combine limits' pos' a x' = .ok v := by
  obtain ⟨b, hb, happly⟩ := BinaryOp.combine_eq_ok h
  rw [hx b hb]
  exact apply_eq_ok_of_eq ((apply_agree hle op pos a b).eq_of_ok happly)

namespace Tree

/-! ## Keeping values -/

/-- What `tree` is worth under `limits`, `tree'` is worth under `limits'` where `extra` more
levels of nesting are allowed. -/
def Keeps (limits limits' : Limits) (extra : Nat) {level : Level} (tree tree' : Tree level) :
    Prop :=
  ∀ room v, tree.value limits room = .ok v → tree'.value limits' (room + extra) = .ok v

/-- Going further in keeps a value that is kept there. -/
theorem nestedValue_keeps {room pos pos' : Nat} {v : Rat}
    {inside inside' : Nat → Except EvalError Rat}
    (hin : ∀ room v, inside room = .ok v → inside' (room + extra) = .ok v)
    (h : nestedValue limits room pos inside = .ok v) :
    nestedValue limits' (room + extra) pos' inside' = .ok v := by
  cases room with
  | zero => simp [nestedValue] at h
  | succ room =>
      rw [Nat.succ_add]
      exact hin room v h

theorem keeps_number {t t' : Token} (ht : t.kind = .number) (ht' : t'.kind = .number)
    (htext : t.text = t'.text) :
    Keeps limits limits' extra (number t ht) (number t' ht') := by
  intro room v h
  rw [value, htext] at h
  exact Literal.evaluate_eq_ok_of_eq h

theorem Keeps.group {inside inside' : Tree .expression}
    (h : Keeps limits limits' extra inside inside') {o o' c c' : Token}
    (ho : o.kind = .leftParen) (ho' : o'.kind = .leftParen) (hc : c.kind = .rightParen)
    (hc' : c'.kind = .rightParen) :
    Keeps limits limits' extra (group o inside c ho hc) (group o' inside' c' ho' hc') :=
  fun _ _ hvalue => nestedValue_keeps h hvalue

theorem Keeps.signed {operand operand' : Tree .unary}
    (h : Keeps limits limits' extra operand operand') {t t' : Token} {sign : Sign}
    (ht : Sign.ofKind? t.kind = some sign) (ht' : Sign.ofKind? t'.kind = some sign) :
    Keeps limits limits' extra (signed t sign operand ht) (signed t' sign operand' ht') := by
  intro room v hvalue
  refine nestedValue_keeps (fun room v hin => ?_) hvalue
  cases hop : operand.value limits room with
  | error e =>
      rw [hop] at hin
      exact absurd hin (by simp [Except.map])
  | ok a =>
      rw [hop] at hin
      rw [h room a hop]
      exact hin

/-- A left operand is evaluated first. -/
theorem bind_keeps {x y : Except EvalError Rat} {f g : Rat → Except EvalError Rat} {v : Rat}
    (hx : ∀ a, x = .ok a → y = .ok a) (hf : ∀ a, f a = .ok v → g a = .ok v)
    (h : x.bind f = .ok v) : y.bind g = .ok v := by
  cases x with
  | error e => simp [Except.bind] at h
  | ok a =>
      rw [hx a rfl]
      exact hf a h

theorem Keeps.raised (hle : limits ≤ limits') {base base' : Tree .unary}
    {exponent exponent' : Tree .power} (hbase : Keeps limits limits' extra base base')
    (hexp : Keeps limits limits' extra exponent exponent') {t t' : Token}
    (ht : t.kind = .power) (ht' : t'.kind = .power) :
    Keeps limits limits' extra (raised base t exponent ht) (raised base' t' exponent' ht') := by
  intro room v h
  rw [value_raised] at h ⊢
  refine bind_keeps (hbase room) (fun b => ?_) h
  exact nestedValue_keeps fun room v => BinaryOp.combine_keeps hle (hexp room)

theorem Keeps.product (hle : limits ≤ limits') {left left' : Tree .term}
    {right right' : Tree .power} (hleft : Keeps limits limits' extra left left')
    (hright : Keeps limits limits' extra right right') {t t' : Token} {op : BinaryOp}
    (ht : BinaryOp.multiplicative? t.kind = some op)
    (ht' : BinaryOp.multiplicative? t'.kind = some op) :
    Keeps limits limits' extra (product left t op right ht)
      (product left' t' op right' ht') := by
  intro room v h
  rw [value_product] at h ⊢
  exact bind_keeps (hleft room) (fun a => BinaryOp.combine_keeps hle (hright room)) h

theorem Keeps.sum (hle : limits ≤ limits') {left left' : Tree .expression}
    {right right' : Tree .term} (hleft : Keeps limits limits' extra left left')
    (hright : Keeps limits limits' extra right right') {t t' : Token} {op : BinaryOp}
    (ht : BinaryOp.additive? t.kind = some op) (ht' : BinaryOp.additive? t'.kind = some op) :
    Keeps limits limits' extra (sum left t op right ht) (sum left' t' op right' ht') := by
  intro room v h
  rw [value_sum] at h ⊢
  exact bind_keeps (hleft room) (fun a => BinaryOp.combine_keeps hle (hright room)) h

/-- **A tree keeps its value under larger limits,** and where more nesting is allowed. -/
theorem Keeps.refl (hle : limits ≤ limits') {level : Level} (tree : Tree level) :
    Keeps limits limits' extra tree tree := by
  induction tree with
  | number t ht => exact keeps_number ht ht rfl
  | group o inside c ho hc ih => exact ih.group ho ho hc hc
  | unsigned operand ih => exact ih
  | signed t sign operand ht ih => exact ih.signed ht ht
  | unraised operand ih => exact ih
  | raised base t exponent ht ihb ihe => exact ihb.raised hle ihe ht ht
  | factor operand ih => exact ih
  | product left t op right ht ihl ihr => exact ihl.product hle ihr ht ht
  | summand operand ih => exact ih
  | sum left t op right ht ihl ihr => exact ihl.sum hle ihr ht ht

end Tree

end

namespace Tree

open Token (content)

/-- **A tree has one value at most,** however much nesting is allowed. -/
theorem value_unique {limits : Limits} {level : Level} {tree : Tree level} {room room' : Nat}
    {v v' : Rat} (h : tree.value limits room = .ok v) (h' : tree.value limits room' = .ok v') :
    v = v' := by
  -- the value is kept where both have room
  have hmore : tree.value limits (room + room') = .ok v :=
    Keeps.refl (Limits.le_refl limits) tree room v h
  have hmore' : tree.value limits (room' + room) = .ok v' :=
    Keeps.refl (Limits.le_refl limits) tree room' v' h'
  rw [Nat.add_comm room' room] at hmore'
  exact Except.ok.inj (hmore.symm.trans hmore')

/-! ## Moving a tree -/

/-- Tokens of the same content are of the same kind and have the same text. -/
theorem kind_eq_of_content_eq {t u : Token} (h : content u = content t) : u.kind = t.kind :=
  congrArg Prod.fst h

theorem text_eq_of_content_eq {t u : Token} (h : content u = content t) : u.text = t.text :=
  congrArg Prod.snd h

/-- **Tokens of the same content derive the same tree,** moved to their positions. -/
theorem exists_moved {level : Level} (tree : Tree level) {us : List Token}
    (h : us.map content = tree.tokens.map content) :
    ∃ tree' : Tree level, tree'.tokens = us ∧
      ∀ limits limits' extra, limits ≤ limits' → Keeps limits limits' extra tree tree' := by
  induction tree generalizing us with
  | number t ht =>
      obtain ⟨u, rfl, hu⟩ := List.map_eq_singleton_iff.1 h
      exact ⟨.number u ((kind_eq_of_content_eq hu).trans ht), rfl,
        fun _ _ _ _ => keeps_number _ _ (text_eq_of_content_eq hu).symm⟩
  | group o inside c ho hc ih =>
      simp only [tokens, List.map_cons, List.map_append, List.map_nil] at h
      obtain ⟨o', us, rfl, hopen, h⟩ := List.map_eq_cons_iff.1 h
      obtain ⟨us, cs, rfl, hin, h⟩ := List.map_eq_append_iff.1 h
      obtain ⟨c', rfl, hclose⟩ := List.map_eq_singleton_iff.1 h
      obtain ⟨inside', rfl, hkeeps⟩ := ih hin
      exact ⟨.group o' inside' c' ((kind_eq_of_content_eq hopen).trans ho)
          ((kind_eq_of_content_eq hclose).trans hc), rfl,
        fun _ _ _ hle => (hkeeps _ _ _ hle).group _ _ _ _⟩
  | unsigned operand ih =>
      obtain ⟨operand', rfl, hkeeps⟩ := ih h
      exact ⟨.unsigned operand', rfl, hkeeps⟩
  | signed t sign operand ht ih =>
      simp only [tokens, List.map_cons] at h
      obtain ⟨t', us, rfl, hsign, h⟩ := List.map_eq_cons_iff.1 h
      obtain ⟨operand', rfl, hkeeps⟩ := ih h
      have ht' : Sign.ofKind? t'.kind = some sign := by rw [kind_eq_of_content_eq hsign, ht]
      exact ⟨.signed t' sign operand' ht', rfl, fun _ _ _ hle => (hkeeps _ _ _ hle).signed ht ht'⟩
  | unraised operand ih =>
      obtain ⟨operand', rfl, hkeeps⟩ := ih h
      exact ⟨.unraised operand', rfl, hkeeps⟩
  | raised base t exponent ht ihb ihe =>
      simp only [tokens, List.map_append, List.map_cons] at h
      obtain ⟨us, vs, rfl, hbase, h⟩ := List.map_eq_append_iff.1 h
      obtain ⟨t', vs, rfl, hpower, hexp⟩ := List.map_eq_cons_iff.1 h
      obtain ⟨base', rfl, hkeepsb⟩ := ihb hbase
      obtain ⟨exponent', rfl, hkeepse⟩ := ihe hexp
      exact ⟨.raised base' t' exponent' ((kind_eq_of_content_eq hpower).trans ht), rfl,
        fun _ _ _ hle => (hkeepsb _ _ _ hle).raised hle (hkeepse _ _ _ hle) _ _⟩
  | factor operand ih =>
      obtain ⟨operand', rfl, hkeeps⟩ := ih h
      exact ⟨.factor operand', rfl, hkeeps⟩
  | product left t op right ht ihl ihr =>
      simp only [tokens, List.map_append, List.map_cons] at h
      obtain ⟨us, vs, rfl, hleft, h⟩ := List.map_eq_append_iff.1 h
      obtain ⟨t', vs, rfl, hop, hright⟩ := List.map_eq_cons_iff.1 h
      obtain ⟨left', rfl, hkeepsl⟩ := ihl hleft
      obtain ⟨right', rfl, hkeepsr⟩ := ihr hright
      have ht' : BinaryOp.multiplicative? t'.kind = some op := by
        rw [kind_eq_of_content_eq hop, ht]
      exact ⟨.product left' t' op right' ht', rfl,
        fun _ _ _ hle => (hkeepsl _ _ _ hle).product hle (hkeepsr _ _ _ hle) ht ht'⟩
  | summand operand ih =>
      obtain ⟨operand', rfl, hkeeps⟩ := ih h
      exact ⟨.summand operand', rfl, hkeeps⟩
  | sum left t op right ht ihl ihr =>
      simp only [tokens, List.map_append, List.map_cons] at h
      obtain ⟨us, vs, rfl, hleft, h⟩ := List.map_eq_append_iff.1 h
      obtain ⟨t', vs, rfl, hop, hright⟩ := List.map_eq_cons_iff.1 h
      obtain ⟨left', rfl, hkeepsl⟩ := ihl hleft
      obtain ⟨right', rfl, hkeepsr⟩ := ihr hright
      have ht' : BinaryOp.additive? t'.kind = some op := by rw [kind_eq_of_content_eq hop, ht]
      exact ⟨.sum left' t' op right' ht', rfl,
        fun _ _ _ hle => (hkeepsl _ _ _ hle).sum hle (hkeepsr _ _ _ hle) ht ht'⟩

end Tree

end RatExpr

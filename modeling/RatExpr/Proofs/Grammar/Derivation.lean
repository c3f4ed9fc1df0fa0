import RatExpr.Proofs.Grammar.Repetition

set_option autoImplicit false

/-! # What is read is a derivation

The converse of `Level.readAt_tokens`. A level that reads a value has read the tokens of one
of its trees, the value is the value of that tree, and what is left does not go on with the
level (`Level.Over`). The main statement is `Level.faithful`; it is proved level by level, and
by induction on the nesting that is allowed.
-/

namespace RatExpr

/-! ## Readings that have a value -/

namespace Reading

theorem andThen_eq_ok {r : Reading} {next : Rat → List Token → Reading} {v : Rat}
    {rest : List Token} (h : r.andThen next = ⟨.ok v, rest⟩) :
    ∃ a between, r = ⟨.ok a, between⟩ ∧ next a between = ⟨.ok v, rest⟩ := by
  obtain ⟨value, between⟩ := r
  cases value with
  | error e => simp [andThen] at h
  | ok a => exact ⟨a, between, rfl, h⟩

theorem mapValue_eq_ok {r : Reading} {f : Except EvalError Rat → Except EvalError Rat} {v : Rat}
    {rest : List Token} (h : r.mapValue f = ⟨.ok v, rest⟩) :
    f r.value = .ok v ∧ r = ⟨r.value, rest⟩ := by
  obtain ⟨value, between⟩ := r
  simp only [mapValue, Reading.mk.injEq] at h
  exact ⟨h.1, by rw [h.2]⟩

end Reading

/-- An operator has a value only if its right operand has one. -/
theorem BinaryOp.combine_eq_ok {limits : Limits} {op : BinaryOp} {pos : Nat} {a v : Rat}
    {x : Except EvalError Rat} (h : op.combine limits pos a x = .ok v) :
    ∃ b, x = .ok b ∧ op.apply limits pos a b = .ok v := by
  cases x with
  | error e => simp [combine] at h
  | ok b => exact ⟨b, rfl, h⟩

namespace Level

/-- There is something further in only where room is left for it. -/
theorem nested_eq_ok {ctx : Context} {room pos : Nat} {level : Level}
    {after : Reading → Reading} {ts rest : List Token} {v : Rat}
    (h : nested ctx (innerAt ctx room) level pos after ts = ⟨.ok v, rest⟩) :
    ∃ inside, room = inside + 1 ∧
      after ((readAt ctx inside level).run ts) = ⟨.ok v, rest⟩ := by
  rw [nested_innerAt] at h
  cases room with
  | zero => simp at h
  | succ inside => exact ⟨inside, rfl, h⟩

theorem close_eq_ok {ctx : Context} {opening : Nat} {a v : Rat} {ts rest : List Token}
    (h : close ctx opening a ts = ⟨.ok v, rest⟩) :
    ∃ closing, closing.kind = .rightParen ∧ ts = closing :: rest ∧ a = v := by
  cases ts with
  | nil => simp [close] at h
  | cons t ts =>
      by_cases ht : t.kind = .rightParen
      · simp only [close, ht, if_true, Reading.mk.injEq, Except.ok.injEq] at h
        exact ⟨t, ht, by rw [h.2], h.1⟩
      · simp [close, ht] at h

/-! ## What a level has derived -/

/-- The tokens `ts` start with a tree of the level that is worth `v`; the tokens after it are
`rest`, and they do not go on with the level. -/
def Derived (limits : Limits) (room : Nat) (level : Level) (ts : List Token) (v : Rat)
    (rest : List Token) : Prop :=
  ∃ tree : Tree level,
    ts = tree.tokens ++ rest ∧ tree.value limits room = .ok v ∧ Over level rest

/-- Whatever a level reads, it has derived. -/
def Faithful (ctx : Context) (room : Nat) (level : Level) : Prop :=
  ∀ ts v rest, (readAt ctx room level).run ts = ⟨.ok v, rest⟩ →
    Derived ctx.limits room level ts v rest

variable {ctx : Context} {room : Nat}

theorem faithful_atom (hin : ∀ inside, room = inside + 1 → Faithful ctx inside expression) :
    Faithful ctx room atom := by
  intro ts v rest h
  cases ts with
  | nil => simp [readAt, reader, atomReader, atomRun] at h
  | cons t ts =>
      simp only [readAt, reader, atomReader, atomRun] at h
      split at h
      · rename_i ht
        simp only [Reading.mk.injEq] at h
        exact ⟨.number t ht, by simp [Tree.tokens, h.2], h.1, trivial⟩
      · rename_i ht
        obtain ⟨inside, hroom, h⟩ := nested_eq_ok h
        obtain ⟨a, between, hread, hclose⟩ := Reading.andThen_eq_ok h
        obtain ⟨closing, hc, rfl, rfl⟩ := close_eq_ok hclose
        obtain ⟨tree, rfl, hvalue, -⟩ := hin inside hroom ts a _ hread
        refine ⟨.group t tree closing ht hc, by simp [Tree.tokens], ?_, trivial⟩
        simpa [Tree.value, Tree.nestedValue, hroom] using hvalue
      · simp at h

theorem faithful_unary (hatom : Faithful ctx room atom)
    (hin : ∀ inside, room = inside + 1 → Faithful ctx inside unary) :
    Faithful ctx room unary := by
  intro ts v rest h
  cases ts with
  | nil =>
      obtain ⟨tree, htokens, hvalue, -⟩ := hatom [] v rest h
      exact ⟨.unsigned tree, htokens, hvalue, trivial⟩
  | cons t ts =>
      simp only [readAt, reader, unaryReader, unaryRun] at h
      split at h
      · rename_i sign ht
        obtain ⟨inside, hroom, h⟩ := nested_eq_ok h
        obtain ⟨hmap, hread⟩ := Reading.mapValue_eq_ok h
        cases ha : ((readAt ctx inside unary).run ts).value with
        | error e => simp [ha, Except.map] at hmap
        | ok a =>
            rw [ha] at hmap hread
            obtain ⟨tree, rfl, hvalue, -⟩ := hin inside hroom ts a rest hread
            refine ⟨.signed t sign tree ht, by simp [Tree.tokens], ?_, trivial⟩
            simpa [Tree.value, Tree.nestedValue, hroom, hvalue] using hmap
      · obtain ⟨tree, htokens, hvalue, -⟩ := hatom (t :: ts) v rest h
        exact ⟨.unsigned tree, htokens, hvalue, trivial⟩

theorem faithful_power (hunary : Faithful ctx room unary)
    (hin : ∀ inside, room = inside + 1 → Faithful ctx inside power) :
    Faithful ctx room power := by
  intro ts v rest h
  obtain ⟨b, between, hread, hexp⟩ := Reading.andThen_eq_ok h
  obtain ⟨base, rfl, hbase, -⟩ := hunary ts b between hread
  cases between with
  | nil =>
      simp only [exponent, Reading.mk.injEq, Except.ok.injEq] at hexp
      obtain ⟨rfl, rfl⟩ := hexp
      exact ⟨.unraised base, by simp [Tree.tokens], hbase, trivial⟩
  | cons t after =>
      by_cases ht : t.kind = .power
      · simp only [exponent, ht, if_true] at hexp
        obtain ⟨inside, hroom, hexp⟩ := nested_eq_ok hexp
        obtain ⟨hcombine, hread⟩ := Reading.mapValue_eq_ok hexp
        obtain ⟨e, he, happly⟩ := BinaryOp.combine_eq_ok hcombine
        rw [he] at hread
        obtain ⟨tree, rfl, hvalue, hover⟩ := hin inside hroom after e rest hread
        subst hroom
        refine ⟨.raised base t tree ht, by simp [Tree.tokens], ?_, hover⟩
        simpa [Tree.value, Tree.nestedValue, hbase, hvalue, BinaryOp.combine] using happly
      · simp only [exponent, ht, if_false, Reading.mk.injEq, Except.ok.injEq] at hexp
        obtain ⟨rfl, rfl⟩ := hexp
        exact ⟨.unraised base, by simp [Tree.tokens], hbase, ht⟩

/-- A loop that goes on after a tree of its level has derived a larger tree. -/
theorem chainFrom_derived {level operand : Level} (loop : Repetition level operand)
    (hop : Faithful ctx room operand) {a v : Rat} {ts rest : List Token}
    (h : chainFrom ctx loop.operator? (readAt ctx room operand) a ts = ⟨.ok v, rest⟩)
    (hts : Over operand ts) (left : Tree level) (hleft : left.value ctx.limits room = .ok a) :
    Derived ctx.limits room level (left.tokens ++ ts) v rest := by
  fun_induction chainFrom ctx loop.operator? (readAt ctx room operand) a ts generalizing left with
  | case1 a =>
      simp only [Reading.mk.injEq, Except.ok.injEq] at h
      obtain ⟨rfl, rfl⟩ := h
      exact ⟨left, rfl, hleft, over_nil level⟩
  | case2 a t ts ht =>
      simp only [Reading.mk.injEq, Except.ok.injEq] at h
      obtain ⟨rfl, rfl⟩ := h
      exact ⟨left, rfl, hleft, (loop.over_cons t ts).2 ⟨ht, hts⟩⟩
  | case3 a t ts op ht right e he => simp at h
  | case4 a t ts op ht right w hw ih =>
      obtain ⟨b, hb, -⟩ := BinaryOp.combine_eq_ok hw
      have hread : (readAt ctx room operand).run ts = ⟨.ok b, right.rest⟩ := by
        rw [← hb]
      obtain ⟨tree, htree, hvalue, hover⟩ := hop ts b right.rest hread
      -- the loop goes on from the tree grown by the operator and what it has read
      have hgrown := ih h hover (loop.grow left ⟨t, op, tree, ht⟩)
        (by rw [loop.value_grow _ _ _ _ a hleft, hvalue, ← hb]; exact hw)
      rw [loop.tokens_grow, Step.tokens, List.append_assoc, List.cons_append, ← htree] at hgrown
      exact hgrown

theorem faithful_repetition {level operand : Level} (loop : Repetition level operand)
    (hop : Faithful ctx room operand) : Faithful ctx room level := by
  intro ts v rest h
  rw [loop.readAt_eq] at h
  obtain ⟨a, between, hread, hloop⟩ := Reading.andThen_eq_ok h
  obtain ⟨first, rfl, hvalue, hover⟩ := hop ts a between hread
  have hderived := chainFrom_derived loop hop hloop hover (loop.single first)
    (by rw [loop.value_single, hvalue])
  rwa [loop.tokens_single] at hderived

/-- **Whatever a level reads, it has derived,** however much nesting is allowed. -/
theorem faithful (ctx : Context) (room : Nat) (level : Level) : Faithful ctx room level := by
  induction room, level using grammar_induction with
  | atom room hin => exact faithful_atom (fun inside hroom => hin inside (by omega) expression)
  | unary room hin hatom =>
      exact faithful_unary hatom (fun inside hroom => hin inside (by omega) unary)
  | power room hin hunary =>
      exact faithful_power hunary (fun inside hroom => hin inside (by omega) power)
  | term room hpower => exact faithful_repetition terms hpower
  | expression room hterm => exact faithful_repetition sums hterm

end Level

end RatExpr

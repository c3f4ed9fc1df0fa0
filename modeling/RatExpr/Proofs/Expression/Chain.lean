import Mathlib.Data.List.Basic
import RatExpr.Proofs.Expression.Derivation
import RatExpr.Proofs.Grammar.Report

set_option autoImplicit false

/-! # Chains of operands in parentheses

```text
(t₁) op₁ (t₂) op₂ (t₃) ...
```

What a chain of texts in parentheses is worth depends on what the texts are worth, however
long it is. Operators of one loop of the grammar are applied from the left, and all operands
stand at one depth (`Chain.exists_steps`); exponents are applied from the right, and each
stands one level deeper than the one before (`Chain.exists_tower`). The main statement is
`Chain.evaluate_text`.
-/

namespace RatExpr

open Token (Cut)

/-! ## Trees of looser levels -/

namespace Tree

/-- An atom as a tree of any level. -/
def ofAtom (atom : Tree .atom) : (level : Level) → Tree level
  | .atom => atom
  | .unary => .unsigned atom
  | .power => .unraised (.unsigned atom)
  | .term => .factor (.unraised (.unsigned atom))
  | .expression => .summand (.factor (.unraised (.unsigned atom)))

theorem tokens_ofAtom (atom : Tree .atom) (level : Level) :
    (ofAtom atom level).tokens = atom.tokens := by
  cases level <;> rfl

theorem value_ofAtom (atom : Tree .atom) (level : Level) (limits : Limits) (room : Nat) :
    (ofAtom atom level).value limits room = atom.value limits room := by
  cases level <;> rfl

/-- A tree of any level as an expression. -/
def toExpression : {level : Level} → Tree level → Tree .expression
  | .atom, tree => .summand (.factor (.unraised (.unsigned tree)))
  | .unary, tree => .summand (.factor (.unraised tree))
  | .power, tree => .summand (.factor tree)
  | .term, tree => .summand tree
  | .expression, tree => tree

theorem tokens_toExpression {level : Level} (tree : Tree level) :
    tree.toExpression.tokens = tree.tokens := by
  cases level <;> rfl

theorem value_toExpression {level : Level} (tree : Tree level) (limits : Limits) (room : Nat) :
    tree.toExpression.value limits room = tree.value limits room := by
  cases level <;> rfl

end Tree

/-- The same limits with `n` more levels of nesting. -/
def Limits.deeper (limits : Limits) (n : Nat) : Limits :=
  { limits with maxDepth := limits.maxDepth + n }

theorem Limits.le_deeper (limits : Limits) (n : Nat) : limits ≤ limits.deeper n :=
  ⟨Nat.le_add_right _ _, Nat.le_refl _⟩

/-- An operator of a chain, the text of its right operand, and what that is worth. -/
structure Link where
  op : BinaryOp
  text : String
  value : Rat
  deriving DecidableEq, Repr

namespace Chain

/-! ## The text of a chain -/

/-- The operators of a chain and the operands after them. -/
def tail : List Link → String
  | [] => ""
  | l :: links => l.op.symbol ++ "(" ++ l.text ++ ")" ++ tail links

/-- The text of a chain: its operands in parentheses, with the operators between them. -/
def text (first : String) (links : List Link) : String := "(" ++ first ++ ")" ++ tail links

theorem tail_append (links more : List Link) : tail (links ++ more) = tail links ++ tail more := by
  induction links with
  | nil => simp [tail]
  | cons l links ih => simp only [List.cons_append, tail, ih, String.append_assoc]

theorem text_append (first : String) (links more : List Link) :
    text first (links ++ more) = text first links ++ tail more := by
  simp only [text, tail_append, String.append_assoc]

theorem toList_tail_cons (l : Link) (links : List Link) :
    (tail (l :: links)).toList =
      l.op.symbol.toList ++ '(' :: (l.text.toList ++ ')' :: (tail links).toList) := by
  simp [tail]

theorem toList_text (first : String) (links : List Link) :
    (text first links).toList = '(' :: (first.toList ++ ')' :: (tail links).toList) := by
  simp [text]

/-! ## The tokens of a chain -/

/-- Each operator is written as one token. -/
theorem lexeme_symbol (op : BinaryOp) :
    ∃ c cs, op.symbol.toList = c :: cs ∧
      Token.lexeme c cs = ⟨op.kind, op.symbol.toList, []⟩ := by
  cases op with
  | add => exact ⟨'+', [], rfl, by decide⟩
  | sub => exact ⟨'-', [], rfl, by decide⟩
  | mul => exact ⟨'*', [], rfl, by decide⟩
  | div => exact ⟨'/', [], rfl, by decide⟩
  | mod => exact ⟨'%', [], rfl, by decide⟩
  | pow => exact ⟨'*', ['*'], rfl, by decide⟩

theorem cut_symbol (op : BinaryOp) (pos : Nat) :
    Cut pos op.symbol.toList [⟨op.kind, op.symbol, pos⟩] := by
  obtain ⟨c, cs, hsymbol, hlexeme⟩ := lexeme_symbol op
  have hpieces : Token.pieces pos op.symbol.toList = [⟨op.kind, op.symbol, pos⟩] := by
    rw [hsymbol, Token.pieces_cons, hlexeme, Token.pieces_nil, String.ofList_toList]
  rw [Cut, hpieces]
  cases op <;> simp [BinaryOp.kind]

/-- An operator before a parenthesis is a token before those that come then. -/
theorem cut_operator {op : BinaryOp} {pos : Nat} {cs : List Char} {ts : List Token}
    (h : Cut (pos + op.symbol.toList.length) ('(' :: cs) ts) :
    Cut pos (op.symbol.toList ++ '(' :: cs) (⟨op.kind, op.symbol, pos⟩ :: ts) := by
  rw [← List.nil_append ('(' :: cs),
    Token.cut_append_delimiter Token.isDelimiter_leftParen (by decide)] at h
  obtain ⟨us, vs, hus, hvs, rfl⟩ := h
  rw [hus.unique (Token.cut_nil _), List.nil_append]
  exact (Token.cut_append_delimiter Token.isDelimiter_leftParen (by decide)).2
    ⟨_, vs, cut_symbol op pos, hvs, rfl⟩

/-- A text in parentheses is a group after whatever can be cut before it, and it is worth what
the text is worth if there is room for the parentheses. -/
theorem exists_group {limits : Limits} {inside : String} {v : Rat}
    (h : Expression.evaluate limits inside = .ok v) {pos : Nat} {pre : List Char}
    {us : List Token} (hus : Cut pos pre us) :
    ∃ group : Tree .atom,
      (∀ post ws, Cut (pos + pre.length + inside.length + 2) post ws →
        Cut pos (pre ++ '(' :: (inside.toList ++ ')' :: post)) (us ++ (group.tokens ++ ws))) ∧
      ∀ limits' extra, limits ≤ limits' →
        group.value limits' (limits.maxDepth + extra + 1) = .ok v := by
  obtain ⟨tree, hcut, hvalue⟩ := Expression.evaluate_eq_ok_iff.1 h
  obtain ⟨vs, hvs, -⟩ := hcut.exists_at (pos + pre.length + 1)
  obtain ⟨moved, hmoved, hkeeps⟩ := Tree.exists_moved_of_cut hcut hvs
  refine ⟨.group ⟨.leftParen, "(", pos + pre.length⟩ moved
    ⟨.rightParen, ")", pos + pre.length + 1 + inside.toList.length⟩ rfl rfl, ?_, ?_⟩
  · intro post ws hws
    have hstop : pos + pre.length + inside.length + 2 =
        pos + pre.length + 1 + inside.toList.length + 1 := by
      rw [String.length_toList]
      omega
    rw [hstop] at hws
    refine Token.cut_parentheses.2 ⟨us, vs, ws, hus, hvs, hws, ?_⟩
    simp only [Tree.tokens, hmoved, List.cons_append, List.append_assoc, List.nil_append]
  · intro limits' extra hle
    exact hkeeps limits limits' extra hle _ v hvalue

/-! ## Operators applied from the left -/

/-- What a chain is worth that is applied from the left: `a` is the value so far, and the next
operator stands at `pos`. -/
def fromLeft (limits : Limits) (pos : Nat) (a : Rat) : List Link → Except EvalError Rat
  | [] => .ok a
  | l :: links =>
      (l.op.apply limits pos a l.value).bind fun b =>
        fromLeft limits (pos + l.op.symbol.length + l.text.length + 2) b links

section

variable {level operand : Level} (loop : Level.Repetition level operand)

/-- A tree without a value does not get one by more steps. -/
theorem value_foldl_of_error {limits : Limits} {room : Nat} {e : EvalError} {left : Tree level}
    (steps : List (Level.Step loop.operator? operand))
    (h : left.value limits room = .error e) :
    (steps.foldl loop.grow left).value limits room = .error e := by
  induction steps generalizing left with
  | nil => exact h
  | cons step steps ih => exact ih (loop.value_grow_of_error _ _ _ _ _ h)

/-- **The operators of a chain are steps of a loop.** However many they are, one more level of
nesting than the operands need is enough. -/
theorem exists_steps {limits limits' : Limits} (hle : limits ≤ limits') (links : List Link)
    (hops : ∀ l ∈ links, loop.operator? l.op.kind = some l.op)
    (hlinks : ∀ l ∈ links, Expression.evaluate limits l.text = .ok l.value) (pos : Nat) :
    ∃ steps : List (Level.Step loop.operator? operand),
      Cut pos (tail links).toList (steps.flatMap Level.Step.tokens) ∧
      ∀ a left, left.value limits' (limits.maxDepth + 1) = .ok a →
        (steps.foldl loop.grow left).value limits' (limits.maxDepth + 1) =
          fromLeft limits' pos a links := by
  induction links generalizing pos with
  | nil => exact ⟨[], Token.cut_nil pos, fun a left hleft => hleft⟩
  | cons l links ih =>
      obtain ⟨hop, hops⟩ := List.forall_mem_cons.1 hops
      obtain ⟨hl, hlinks⟩ := List.forall_mem_cons.1 hlinks
      obtain ⟨group, hgroup, hvalue⟩ := exists_group hl (cut_symbol l.op pos)
      obtain ⟨steps, hsteps, hfold⟩ :=
        ih hops hlinks (pos + l.op.symbol.length + l.text.length + 2)
      refine ⟨⟨⟨l.op.kind, l.op.symbol, pos⟩, l.op, group.ofAtom operand, hop⟩ :: steps, ?_, ?_⟩
      · rw [toList_tail_cons, List.flatMap_cons, Level.Step.tokens, Tree.tokens_ofAtom]
        exact hgroup _ _ (by rw [String.length_toList]; exact hsteps)
      · intro a left hleft
        have hright : (group.ofAtom operand).value limits' (limits.maxDepth + 1) = .ok l.value := by
          rw [Tree.value_ofAtom]
          exact hvalue limits' 0 hle
        have hgrow := loop.value_grow limits' (limits.maxDepth + 1) left
          ⟨⟨l.op.kind, l.op.symbol, pos⟩, l.op, group.ofAtom operand, hop⟩ a hleft
        simp only [hright, BinaryOp.combine] at hgrow
        rw [List.foldl_cons, fromLeft]
        cases happly : l.op.apply limits' pos a l.value with
        | error e => exact value_foldl_of_error loop steps (hgrow.trans happly)
        | ok b => exact hfold b _ (hgrow.trans happly)

/-- **A chain of one loop is applied from the left.** -/
theorem evaluate_text_of_loop {limits : Limits} {first : String} {v : Rat} {links : List Link}
    (hfirst : Expression.evaluate limits first = .ok v)
    (hops : ∀ l ∈ links, loop.operator? l.op.kind = some l.op)
    (hlinks : ∀ l ∈ links, Expression.evaluate limits l.text = .ok l.value) :
    Expression.evaluate (limits.deeper 1) (text first links) =
      fromLeft (limits.deeper 1) (first.length + 2) v links := by
  have hle := limits.le_deeper 1
  obtain ⟨group, hgroup, hvalue⟩ := exists_group hfirst (Token.cut_nil 0)
  obtain ⟨steps, hsteps, hfold⟩ := exists_steps loop hle links hops hlinks (first.length + 2)
  have hsingle : (loop.single (group.ofAtom operand)).value (limits.deeper 1)
      (limits.maxDepth + 1) = .ok v := by
    rw [loop.value_single, Tree.value_ofAtom]
    exact hvalue _ 0 hle
  have hcut : Cut 0 (text first links).toList
      (steps.foldl loop.grow (loop.single (group.ofAtom operand))).toExpression.tokens := by
    rw [Tree.tokens_toExpression, loop.tokens_foldl, loop.tokens_single, Tree.tokens_ofAtom,
      toList_text]
    exact hgroup _ _ (by rw [List.length_nil, Nat.zero_add]; exact hsteps)
  rw [Expression.evaluate_of_cut _ hcut, Tree.value_toExpression]
  exact hfold v _ hsingle

end

/-! ## Exponents applied from the right -/

/-- What a chain of exponents is worth: the last power is taken first. -/
def tower (limits : Limits) (v : Rat) : List Link → Except EvalError Rat
  | [] => .ok v
  | l :: links =>
      (tower limits l.value links).bind fun e => (Fraction.ofRat v).power limits e

/-- An error of a power is about nothing further in. -/
theorem mapError_core_power (limits : Limits) (v e : Rat) :
    ((Fraction.ofRat v).power limits e).mapError EvalError.core =
      (Fraction.ofRat v).power limits e := by
  cases h : (Fraction.ofRat v).power limits e with
  | ok w => rfl
  | error fault =>
      have hfault := Fraction.fault_of_power (Fraction.den_ofRat_ne_zero v) 0 h
      cases hfault <;> rfl

/-- An exponent without a value is the core of the error of the power. -/
theorem mapError_core_combine (limits : Limits) (pos : Nat) (v : Rat)
    (x : Except EvalError Rat) :
    (BinaryOp.pow.combine limits pos v x).mapError EvalError.core =
      (x.mapError EvalError.core).bind fun e => (Fraction.ofRat v).power limits e := by
  cases x with
  | error e => rfl
  | ok e => exact mapError_core_power limits v e

/-- **A chain of exponents is a power whose exponent is the chain after it.** -/
theorem exists_tower {limits : Limits} (n : Nat) (links : List Link)
    (hops : ∀ l ∈ links, l.op = .pow) {first : String} {v : Rat}
    (hfirst : Expression.evaluate limits first = .ok v)
    (hlinks : ∀ l ∈ links, Expression.evaluate limits l.text = .ok l.value) (pos : Nat) :
    ∃ tree : Tree .power, Cut pos (text first links).toList tree.tokens ∧
      (tree.value (limits.deeper n) (limits.maxDepth + links.length + 1)).mapError
        EvalError.core = tower limits v links := by
  have hle := limits.le_deeper n
  induction links generalizing first v pos with
  | nil =>
      obtain ⟨group, hgroup, hvalue⟩ := exists_group hfirst (Token.cut_nil pos)
      refine ⟨group.ofAtom .power, ?_, ?_⟩
      · rw [toList_text, Tree.tokens_ofAtom, ← List.append_nil group.tokens]
        exact hgroup _ _ (Token.cut_nil _)
      · rw [Tree.value_ofAtom, List.length_nil, hvalue _ 0 hle]
        rfl
  | cons l links ih =>
      obtain ⟨hop, hops⟩ := List.forall_mem_cons.1 hops
      obtain ⟨hl, hlinks⟩ := List.forall_mem_cons.1 hlinks
      obtain ⟨group, hgroup, hvalue⟩ := exists_group hfirst (Token.cut_nil pos)
      obtain ⟨exponent, hcut, htower⟩ :=
        ih hops hl hlinks (pos + first.length + 2 + l.op.symbol.toList.length)
      have hpower : l.op.kind = .power := by rw [hop]; rfl
      refine ⟨.raised (group.ofAtom .unary) ⟨l.op.kind, l.op.symbol, pos + first.length + 2⟩
        exponent hpower, ?_, ?_⟩
      · rw [toList_text, toList_tail_cons, Tree.tokens, Tree.tokens_ofAtom]
        rw [toList_text] at hcut
        exact hgroup _ _ (cut_operator hcut)
      · have hbase : (group.ofAtom .unary).value (limits.deeper n)
            (limits.maxDepth + (l :: links).length + 1) = .ok v := by
          rw [Tree.value_ofAtom]
          exact hvalue _ _ hle
        rw [Tree.value_raised, hbase, tower, ← htower]
        exact mapError_core_combine _ _ v _

/-- **A chain of exponents is applied from the right.** -/
theorem evaluate_text_of_pow {limits : Limits} {first : String} {v : Rat} {links : List Link}
    (hfirst : Expression.evaluate limits first = .ok v) (hops : ∀ l ∈ links, l.op = .pow)
    (hlinks : ∀ l ∈ links, Expression.evaluate limits l.text = .ok l.value) :
    (Expression.evaluate (limits.deeper (links.length + 1)) (text first links)).mapError
      EvalError.core = tower limits v links := by
  obtain ⟨tree, hcut, hvalue⟩ :=
    exists_tower (links.length + 1) links hops hfirst hlinks 0
  rw [← Tree.tokens_toExpression] at hcut
  rw [Expression.evaluate_of_cut _ hcut, Tree.value_toExpression, ← hvalue]
  rfl

/-! ## Sums and products -/

/-- The sum of a chain of terms: those after a minus are subtracted. -/
def sum (v : Rat) (links : List Link) : Rat :=
  links.foldl (fun a l => if l.op = .sub then a - l.value else a + l.value) v

/-- What a product becomes by one more factor, divisor or modulus. A remainder of integers has
the sign of the left one. -/
def factor (a : Rat) (l : Link) : Rat :=
  match l.op with
  | .div => a / l.value
  | .mod => (Int.tmod a.num l.value.num : Int)
  | _ => a * l.value

/-- The product of a chain of factors. -/
def product (v : Rat) (links : List Link) : Rat := links.foldl factor v

/-- Does `factor` say what the operator is worth? A divisor must not be zero; a remainder is
that of two integers, the right one not zero. -/
def Defined (a : Rat) (l : Link) : Prop :=
  (l.op = .div → l.value ≠ 0) ∧ (l.op = .mod → (a.den = 1 ∧ l.value.den = 1) ∧ l.value ≠ 0)

/-- Every operator of the chain is defined on what comes before it. -/
def AllDefined (v : Rat) (links : List Link) : Prop :=
  ∀ done l after, links = done ++ l :: after → Defined (product v done) l

theorem allDefined_cons {v : Rat} {l : Link} {links : List Link} :
    AllDefined v (l :: links) ↔ Defined v l ∧ AllDefined (factor v l) links :=
  forall_split_cons

variable {limits : Limits} {pos : Nat}

theorem fromLeft_sum {v : Rat} {links : List Link}
    (hops : ∀ l ∈ links, l.op = .add ∨ l.op = .sub) :
    fromLeft limits pos v links = .ok (sum v links) := by
  induction links generalizing pos v with
  | nil => rfl
  | cons l links ih =>
      obtain ⟨hop, hops⟩ := List.forall_mem_cons.1 hops
      rw [fromLeft]
      rcases hop with hop | hop
      · simp only [hop, BinaryOp.apply, Except.bind, ih hops, sum, List.foldl_cons, reduceCtorEq,
          if_false]
      · simp only [hop, BinaryOp.apply, Except.bind, ih hops, sum, List.foldl_cons, if_true]

/-- Where `factor` is defined it is the value of the operator. -/
theorem apply_eq_factor {a : Rat} {l : Link} (hop : l.op = .mul ∨ l.op = .div ∨ l.op = .mod)
    (h : Defined a l) : l.op.apply limits pos a l.value = .ok (factor a l) := by
  rcases hop with hop | hop | hop
  · simp only [factor, hop, BinaryOp.apply]
  · simp only [factor, hop, BinaryOp.apply, if_neg (h.1 hop)]
  · obtain ⟨⟨hleft, hright⟩, hzero⟩ := h.2 hop
    simp [factor, hop, BinaryOp.apply, modulo, hleft, hright, hzero]

theorem fromLeft_product {v : Rat} {links : List Link}
    (hops : ∀ l ∈ links, l.op = .mul ∨ l.op = .div ∨ l.op = .mod) (h : AllDefined v links) :
    fromLeft limits pos v links = .ok (product v links) := by
  induction links generalizing pos v with
  | nil => rfl
  | cons l links ih =>
      obtain ⟨hop, hops⟩ := List.forall_mem_cons.1 hops
      obtain ⟨hl, hlinks⟩ := allDefined_cons.1 h
      rw [fromLeft, apply_eq_factor hop hl]
      exact ih hops hlinks

/-- A chain goes on from what comes first in it. -/
theorem fromLeft_append (a : Rat) (done more : List Link) :
    fromLeft limits pos a (done ++ more) =
      (fromLeft limits pos a done).bind fun b =>
        fromLeft limits (pos + (tail done).length) b more := by
  induction done generalizing pos a with
  | nil => simp [fromLeft, tail, Except.bind]
  | cons l done ih =>
      have hlen : (tail (l :: done)).length =
          l.op.symbol.length + l.text.length + 2 + (tail done).length := by
        simp only [tail, String.length_append]
        have hopen : "(".length = 1 := rfl
        have hclose : ")".length = 1 := rfl
        omega
      rw [List.cons_append, fromLeft, fromLeft]
      cases l.op.apply limits pos a l.value with
      | error e => rfl
      | ok b =>
          have hpos : pos + (tail (l :: done)).length =
              pos + l.op.symbol.length + l.text.length + 2 + (tail done).length := by omega
          simp only [Except.bind, ih, hpos]

theorem length_text (first : String) (links : List Link) :
    (text first links).length = first.length + 2 + (tail links).length := by
  have hopen : "(".length = 1 := rfl
  have hclose : ")".length = 1 := rfl
  simp only [text, String.length_append]
  omega

/-- The first operator of a chain that has no value decides. -/
theorem fromLeft_eq_error {first : String} {v : Rat} {done after : List Link} {l : Link}
    {e : EvalError} (hops : ∀ k ∈ done, k.op = .mul ∨ k.op = .div ∨ k.op = .mod)
    (hdone : AllDefined v done)
    (he : l.op.apply limits (text first done).length (product v done) l.value = .error e) :
    fromLeft limits (first.length + 2) v (done ++ l :: after) = .error e := by
  rw [fromLeft_append, fromLeft_product hops hdone, ← length_text]
  simp only [Except.bind, fromLeft, he]

/-- **A chain of texts in parentheses is worth what its operands are worth together.** Let each
operand have a value. If the operators are `+` and `-`, the chain is worth the sum, and if they
are `*`, `/` and `%`, the product, both taken from the left, with one more level of nesting than
the operands need, however many they are. The first operator of a product that is not defined
is the error, without a cause, at the position of the operator in the text. If the operators
are all `**`, the powers are taken from the right, and each operand needs one more level of
nesting; if a power fails, its error is the core of the error of the chain. -/
theorem evaluate_text {limits : Limits} {first : String} {v : Rat} {links : List Link}
    (hfirst : Expression.evaluate limits first = .ok v)
    (hlinks : ∀ l ∈ links, Expression.evaluate limits l.text = .ok l.value) :
    ((∀ l ∈ links, l.op = .add ∨ l.op = .sub) →
      Expression.evaluate (limits.deeper 1) (text first links) = .ok (sum v links)) ∧
    ((∀ l ∈ links, l.op = .mul ∨ l.op = .div ∨ l.op = .mod) →
      (AllDefined v links →
        Expression.evaluate (limits.deeper 1) (text first links) = .ok (product v links)) ∧
      ∀ done l after, links = done ++ l :: after → AllDefined v done →
        (∃ more, text first links = text first done ++ l.op.symbol ++ more) ∧
        (l.op = .div → l.value = 0 →
          Expression.evaluate (limits.deeper 1) (text first links) =
            .error (.divisionByZero (text first done).length)) ∧
        (l.op = .mod → ¬ ((product v done).den = 1 ∧ l.value.den = 1) →
          Expression.evaluate (limits.deeper 1) (text first links) =
            .error (.moduloNotInteger (text first done).length)) ∧
        (l.op = .mod → (product v done).den = 1 ∧ l.value.den = 1 → l.value = 0 →
          Expression.evaluate (limits.deeper 1) (text first links) =
            .error (.moduloByZero (text first done).length))) ∧
    ((∀ l ∈ links, l.op = .pow) →
      (Expression.evaluate (limits.deeper (links.length + 1)) (text first links)).mapError
        EvalError.core = tower limits v links) := by
  refine ⟨fun hops => ?_, fun hops => ?_, fun hops => evaluate_text_of_pow hfirst hops hlinks⟩
  · have hsums : ∀ l ∈ links, Level.sums.operator? l.op.kind = some l.op := by
      intro l hl
      rcases hops l hl with hop | hop
      · rw [hop]; rfl
      · rw [hop]; rfl
    rw [evaluate_text_of_loop Level.sums hfirst hsums hlinks, fromLeft_sum hops]
  · have hterms : ∀ l ∈ links, Level.terms.operator? l.op.kind = some l.op := by
      intro l hl
      rcases hops l hl with hop | hop | hop
      · rw [hop]; rfl
      · rw [hop]; rfl
      · rw [hop]; rfl
    rw [evaluate_text_of_loop Level.terms hfirst hterms hlinks]
    refine ⟨fun h => fromLeft_product hops h, ?_⟩
    rintro done l after rfl hdone
    have hops_done : ∀ k ∈ done, k.op = .mul ∨ k.op = .div ∨ k.op = .mod :=
      fun k hk => hops k (List.mem_append_left _ hk)
    refine ⟨⟨"(" ++ l.text ++ ")" ++ tail after, ?_⟩, fun hop hzero => ?_, fun hop hint => ?_,
      fun hop hint hzero => ?_⟩
    · rw [text_append]
      simp only [tail, String.append_assoc]
    · refine fromLeft_eq_error hops_done hdone ?_
      simp only [hop, BinaryOp.apply, hzero, if_true]
    · refine fromLeft_eq_error hops_done hdone ?_
      have hden : (product v done).den ≠ 1 ∨ l.value.den ≠ 1 := Decidable.not_and_iff_or_not.1 hint
      simp only [hop, BinaryOp.apply, modulo, if_pos hden]
    · refine fromLeft_eq_error hops_done hdone ?_
      simp [hop, BinaryOp.apply, modulo, hint.1, hzero]

/-- A sum with blanks, signs and parentheses of its own in the operands, a product that divides
by zero before its remainder is reached, and a tower whose last power fails. -/
theorem evaluate_text_mixed :
    Expression.evaluate (Limits.deeper ⟨2, 10⟩ 1)
        (text " 7" [⟨.sub, "-(1+1)", -2⟩, ⟨.add, "0.5", 1 / 2⟩]) = .ok (19 / 2) ∧
      Expression.evaluate (Limits.deeper ⟨2, 10⟩ 1)
        (text " 7" [⟨.mul, "-(1+1)", -2⟩, ⟨.div, "1-1", 0⟩, ⟨.mod, "0.5", 1 / 2⟩]) =
          .error (.divisionByZero 13) ∧
      (Expression.evaluate (Limits.deeper ⟨2, 10⟩ 3)
        (text " 7" [⟨.pow, "-(1+1)", -2⟩, ⟨.pow, "0.5", 1 / 2⟩])).mapError EvalError.core =
          .error .exponentNotInteger := by
  have hseven : Expression.evaluate ⟨2, 10⟩ " 7" = .ok 7 := by decide +kernel
  have htwo : Expression.evaluate ⟨2, 10⟩ "-(1+1)" = .ok (-2) := by decide +kernel
  have hzero : Expression.evaluate ⟨2, 10⟩ "1-1" = .ok 0 := by decide +kernel
  have hhalf : Expression.evaluate ⟨2, 10⟩ "0.5" = .ok (1 / 2) := by decide +kernel
  refine ⟨?_, ?_, ?_⟩
  · have hlinks : ∀ l ∈ [⟨.sub, "-(1+1)", -2⟩, Link.mk .add "0.5" (1 / 2)],
        Expression.evaluate ⟨2, 10⟩ l.text = .ok l.value := by
      simp [htwo, hhalf]
    rw [(evaluate_text hseven hlinks).1 (by simp)]
    decide +kernel
  · have hlinks : ∀ l ∈ [⟨.mul, "-(1+1)", -2⟩, ⟨.div, "1-1", 0⟩, Link.mk .mod "0.5" (1 / 2)],
        Expression.evaluate ⟨2, 10⟩ l.text = .ok l.value := by
      simp [htwo, hzero, hhalf]
    have hdone : AllDefined 7 [⟨.mul, "-(1+1)", -2⟩] := by
      rw [allDefined_cons]
      exact ⟨by simp [Defined], forall_split_nil⟩
    exact (((evaluate_text hseven hlinks).2.1 (by simp)).2 _ _ _ rfl hdone).2.1 rfl rfl
  · have hlinks : ∀ l ∈ [⟨.pow, "-(1+1)", -2⟩, Link.mk .pow "0.5" (1 / 2)],
        Expression.evaluate ⟨2, 10⟩ l.text = .ok l.value := by
      simp [htwo, hhalf]
    have htower : tower ⟨2, 10⟩ 7 [⟨.pow, "-(1+1)", -2⟩, Link.mk .pow "0.5" (1 / 2)] =
        .error .exponentNotInteger := by
      decide +kernel
    exact ((evaluate_text hseven hlinks).2.2 (by simp)).trans htower

end Chain

end RatExpr

import RatExpr.Expression
import RatExpr.Proofs.Grammar.Keeping
import RatExpr.Proofs.Grammar.Refinement
import RatExpr.Proofs.Token.Delimiter

set_option autoImplicit false

/-! # The derivation of a text

An expression has a value exactly if its tokens are those of a tree that is worth the value
(`Expression.evaluate_eq_ok_iff`). What is said of texts further on is said of trees first.
-/

namespace RatExpr

open Token (Cut)

/-- At another place in a text, the tokens of an expression derive it too. -/
theorem Tree.exists_moved_of_cut {pos pos' : Nat} {cs : List Char} {level : Level}
    {tree : Tree level} {us : List Token} (h : Cut pos cs tree.tokens) (hus : Cut pos' cs us) :
    ∃ tree' : Tree level, tree'.tokens = us ∧
      ∀ limits limits' extra, limits ≤ limits' → Keeps limits limits' extra tree tree' := by
  obtain ⟨us', hus', hcontent⟩ := h.exists_at pos'
  exact tree.exists_moved (hus.unique hus' ▸ hcontent)

/-- A text whose tokens are those of a tree is cut into them. -/
theorem Tree.cut_of_all {text : String} {level : Level} {tree : Tree level} {pos : Nat}
    (h : Token.all text = tree.tokens ++ [.endAt pos]) : Cut 0 text.toList tree.tokens := by
  have hpieces : Token.pieces 0 text.toList = tree.tokens := by
    rw [Token.all_eq_pieces] at h
    exact List.append_inj_left' h rfl
  rw [Cut, hpieces]
  refine ⟨fun t ht => (tree.kind_isProper t ht).2.2, (List.filter_eq_self.2 ?_).symm⟩
  exact fun t ht => by simpa using (tree.kind_isProper t ht).2.1

namespace Expression

/-- The tokens of a text that is cut into those of a tree. -/
theorem tokens_of_cut {text : String} {tree : Tree .expression}
    (h : Cut 0 text.toList tree.tokens) :
    tokens text = .ok (tree.tokens ++ [.endAt text.length]) := by
  have hsignificant := Token.significant_eq_ok_iff_cut.2 ⟨tree.tokens, h, rfl⟩
  have hsome :
      ((tree.tokens ++ [Token.endAt text.length]).all fun t => t.kind == .eof) = false := by
    obtain ⟨t, ts, hts⟩ := List.exists_cons_of_ne_nil tree.tokens_ne_nil
    have ht : t.kind ≠ .eof := h.kind_ne_eof t (by simp [hts])
    simp [hts, ht]
  simp only [tokens, hsignificant, hsome, Bool.false_eq_true, if_false]

/-- **A text is worth what its derivation is worth.** -/
theorem evaluate_of_cut (limits : Limits) {text : String} {tree : Tree .expression}
    (h : Cut 0 text.toList tree.tokens) :
    evaluate limits text = tree.value limits limits.maxDepth := by
  simp only [evaluate, tokens_of_cut h]
  exact Parser.complete_tokens limits tree (Parser.atEnd_cons.2 rfl)

/-- A text with tokens can be cut, and its tokens come before the end. -/
theorem cut_of_tokens {text : String} {ts : List Token} (h : tokens text = .ok ts) :
    ∃ us, Cut 0 text.toList us ∧ ts = us ++ [.endAt text.length] := by
  unfold tokens at h
  split at h
  · simp at h
  · rename_i hsignificant
    split at h
    · simp at h
    · rw [← Except.ok.inj h]
      exact Token.significant_eq_ok_iff_cut.1 hsignificant

/-- **A text has a value exactly if it has a derivation with that value.** -/
theorem evaluate_eq_ok_iff {limits : Limits} {text : String} {v : Rat} :
    evaluate limits text = .ok v ↔
      ∃ tree : Tree .expression, Cut 0 text.toList tree.tokens ∧
        tree.value limits limits.maxDepth = .ok v := by
  constructor
  · intro h
    unfold evaluate at h
    split at h
    · simp at h
    · rename_i ts htokens
      obtain ⟨us, hcut, rfl⟩ := cut_of_tokens htokens
      obtain ⟨tree, hts, hend, hvalue⟩ := Parser.exists_tree_of_complete h
      -- both the tokens of the tree and those of the text are what comes before the end
      have hus : Parser.beforeEnd (us ++ [Token.endAt text.length]) = us :=
        Parser.beforeEnd_append hcut.kind_ne_eof (Parser.atEnd_cons.2 rfl)
      have htree : Parser.beforeEnd (us ++ [Token.endAt text.length]) = tree.tokens := by
        rw [hts]
        exact Parser.beforeEnd_append (fun t ht => (tree.kind_isProper t ht).1) hend
      have htokens : us = tree.tokens := hus.symm.trans htree
      exact ⟨tree, htokens ▸ hcut, hvalue⟩
  · rintro ⟨tree, hcut, hvalue⟩
    rw [evaluate_of_cut limits hcut, hvalue]

end Expression

end RatExpr

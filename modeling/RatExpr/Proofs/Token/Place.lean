import Mathlib.Data.List.Pairwise
import RatExpr.Proofs.Token.Delimiter

set_option autoImplicit false

/-! # The places of tokens

Where the tokens of a text stand in it. Their positions increase from each token to the next
(`pairwise_pos_all`), so a position says which token is meant (`IsAt`); and what stands in the text
from the position of a token on is the text of the token (`text_prefix_drop_pos`), then something
that the token does not go on with (`mayPrecede_of_mem_all`).
-/

namespace RatExpr.Token

/-! ## Order -/

theorem start_le_pos {start : Nat} {cs : List Char} :
    ∀ t ∈ (Scanner.reading start cs).toList, start ≤ t.pos := by
  induction cs using lexeme_induction generalizing start with
  | nil => simp [endAt]
  | cons c cs ih =>
      rw [Scanner.toList_reading_cons]
      refine List.forall_mem_cons.2 ⟨Nat.le_refl start, fun t ht => ?_⟩
      exact Nat.le_trans (Nat.le_add_right _ _) (ih t ht)

/-- The positions of the tokens that are still to come increase. -/
theorem pairwise_pos_toList (start : Nat) (cs : List Char) :
    (Scanner.reading start cs).toList.Pairwise fun t u => t.pos < u.pos := by
  induction cs using lexeme_induction generalizing start with
  | nil =>
      rw [Scanner.toList_reading_nil]
      exact List.pairwise_singleton _ _
  | cons c cs ih =>
      have hlength := List.length_pos_iff.2 (lexeme_text_ne_nil c cs)
      rw [Scanner.toList_reading_cons]
      refine List.pairwise_cons.2 ⟨fun u hu => ?_, ih _⟩
      exact Nat.lt_of_lt_of_le (Nat.lt_add_of_pos_right hlength) (start_le_pos u hu)

/-- **Each token of a text starts after the one before it.** -/
theorem pairwise_pos_all (text : String) : (all text).Pairwise fun t u => t.pos < u.pos :=
  pairwise_pos_toList 0 text.toList

/-- Only the end starts at the end of the text. -/
theorem pos_lt_length {text : String} {t : Token} (ht : t ∈ all text) (hkind : t.kind ≠ .eof) :
    t.pos < text.length := by
  have hpairwise := pairwise_pos_all text
  rw [all_eq_pieces] at ht hpairwise
  rcases List.mem_append.1 ht with ht | ht
  · exact (List.pairwise_append.1 hpairwise).2.2 t ht (endAt text.length) List.mem_cons_self
  · rw [List.mem_singleton.1 ht] at hkind
    exact absurd rfl hkind

theorem pos_of_eof {text : String} {t : Token} (ht : t ∈ all text) (hkind : t.kind = .eof) :
    t.pos = text.length := by
  rw [all_eq_pieces] at ht
  rcases List.mem_append.1 ht with ht | ht
  · exact absurd hkind (kind_ne_eof_of_mem_pieces ht)
  · rw [List.mem_singleton.1 ht]
    rfl

/-- The token of the text that starts at `pos` is `t`. -/
def IsAt (text : String) (pos : Nat) (t : Token) : Prop :=
  ∀ u, u ∈ all text ∧ u.pos = pos ↔ u = t

/-- **Tokens of a text are told by their positions.** -/
theorem isAt_of_mem_all {text : String} {t : Token} (ht : t ∈ all text) : IsAt text t.pos t := by
  have hne : (all text).Pairwise fun t u => t.pos ≠ u.pos :=
    (pairwise_pos_all text).imp Nat.ne_of_lt
  have hsymm : Std.Symm fun t u : Token => t.pos ≠ u.pos := ⟨fun _ _ h => h.symm⟩
  intro u
  constructor
  · rintro ⟨hu, hpos⟩
    by_contra hut
    exact hne.forall hu ht hut hpos
  · rintro rfl
    exact ⟨ht, rfl⟩

/-! ## What stands there -/

/-- The text parted at a token. -/
theorem exists_split_of_mem_all {text : String} {t : Token} (ht : t ∈ all text) :
    ∃ before after, text.toList = before ++ (t.text.toList ++ after) ∧ t.pos = before.length ∧
      t.kind.Spells t.text.toList ∧ ∀ c ∈ after.head?, t.kind.MayPrecede t.text.toList c := by
  have htiles : Tiles 0 text.toList (all text) := tiles_toList 0 text.toList
  obtain ⟨before, after, hall⟩ := List.append_of_mem ht
  refine ⟨written before, written after, ?_, ?_, htiles.spells t ht,
    htiles.mayPrecede before t after hall⟩
  · rw [← htiles.written_eq, hall, written_append, written_cons]
  · rw [htiles.pos_eq before t after hall, Nat.zero_add]

/-- **The text goes on with the token at its position.** -/
theorem text_prefix_drop_pos {text : String} {t : Token} (ht : t ∈ all text) :
    t.text.toList <+: text.toList.drop t.pos := by
  obtain ⟨before, after, htext, hpos, -, -⟩ := exists_split_of_mem_all ht
  rw [htext, hpos, List.drop_left]
  exact List.prefix_append _ after

/-- After the token comes something that it does not go on with. -/
theorem mayPrecede_of_mem_all {text : String} {t : Token} (ht : t ∈ all text) :
    ∀ c ∈ text.toList[t.pos + t.text.length]?, t.kind.MayPrecede t.text.toList c := by
  obtain ⟨before, after, htext, hpos, -, hnext⟩ := exists_split_of_mem_all ht
  rw [← List.head?_drop, htext, hpos, ← List.append_assoc, ← String.length_toList,
    ← List.length_append, List.drop_left]
  exact hnext

theorem spells_of_mem_all {text : String} {t : Token} (ht : t ∈ all text) :
    t.kind.Spells t.text.toList := by
  obtain ⟨-, -, -, -, hspells, -⟩ := exists_split_of_mem_all ht
  exact hspells

/-- A token of one character. -/
theorem getElem?_pos {text : String} {t : Token} {c : Char} (ht : t ∈ all text)
    (hc : t.text.toList = [c]) : text.toList[t.pos]? = some c := by
  obtain ⟨rest, hrest⟩ := text_prefix_drop_pos ht
  rw [← List.head?_drop, ← hrest, hc]
  rfl

end RatExpr.Token

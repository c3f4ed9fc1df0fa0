import Mathlib.Data.List.Basic
import Mathlib.Data.List.TakeWhile
import RatExpr.Proofs.Token.Place

set_option autoImplicit false

/-! # Blanks between tokens

A blank ends every token but a run of blanks, and no other token starts with one. So tokens that
are written with blanks between them (`Word.spread`) are found again, whatever the blanks are, and
however the tokens would run together without them: `1.2` and `.3`, or `*` and `**`. Blanks are
needed between two tokens only; before the first and after the last they may be missing
(`Word.Apart`). The main statement is `significant_spread`.

Texts that are blank altogether are those without a token (`significant_of_allBlank`).
-/

namespace RatExpr

namespace Text

/-- There are only blanks in the text. -/
def AllBlank (cs : List Char) : Prop := ∀ c ∈ cs, isBlank c = true

instance (cs : List Char) : Decidable (AllBlank cs) :=
  List.decidableBAll (fun c => isBlank c = true) cs

theorem allBlank_nil : AllBlank [] := List.forall_mem_nil _

/-- A blank is no digit. -/
theorem isDigit_eq_false_of_isBlank {c : Char} (h : isBlank c = true) : c.isDigit = false := by
  rw [Bool.eq_false_iff]
  intro hdigit
  rw [isBlank_eq_false_of_isDigit hdigit] at h
  exact absurd h (by decide)

/-- What is left of a text when its ends are trimmed stands between blanks. -/
theorem exists_eq_trim (cs : List Char) :
    ∃ lead gap, AllBlank lead ∧ AllBlank gap ∧ cs = lead ++ (trim cs ++ gap) := by
  refine ⟨cs.takeWhile isBlank, ((cs.dropWhile isBlank).reverse.takeWhile isBlank).reverse,
    fun c hc => List.all_eq_true.1 List.all_takeWhile c hc, fun c hc => ?_, ?_⟩
  · exact List.all_eq_true.1 List.all_takeWhile c (List.mem_reverse.1 hc)
  · have htail := List.takeWhile_append_dropWhile (p := isBlank)
      (l := (cs.dropWhile isBlank).reverse)
    have hlead := List.takeWhile_append_dropWhile (p := isBlank) (l := cs)
    rw [trim, ← List.reverse_append, htail, List.reverse_reverse, hlead]

/-- **Trimming leaves nothing exactly of the texts made of blanks only.** -/
theorem trim_eq_nil_iff {cs : List Char} : trim cs = [] ↔ AllBlank cs := by
  constructor
  · intro h
    obtain ⟨lead, gap, hlead, hgap, htext⟩ := exists_eq_trim cs
    rw [h, List.nil_append] at htext
    subst htext
    exact fun c hc => (List.mem_append.1 hc).elim (hlead c) (hgap c)
  · intro h
    rw [trim, List.dropWhile_eq_nil_iff.2 h]
    rfl

end Text

namespace Token

open Text (isBlank AllBlank)

/-! ## A blank after a token, a token after a blank -/

/-- A blank may stand after any token but a run of blanks. -/
theorem Kind.mayPrecede_of_isBlank {kind : Kind} {c : Char} (hkind : kind ≠ .space)
    (hc : isBlank c = true) (cs : List Char) : kind.MayPrecede cs c := by
  have hdigit := Text.isDigit_eq_false_of_isBlank hc
  cases kind with
  | space => exact absurd rfl hkind
  | number => exact ⟨hdigit, fun _ => ne_point_of_isBlank hc⟩
  | star =>
      rintro rfl
      exact absurd hc (by decide)
  | illegal => exact fun _ => hdigit
  | _ => trivial

/-- No token but a run of blanks starts with a blank. -/
theorem Kind.Spells.head_not_isBlank {kind : Kind} {cs : List Char} (h : kind.Spells cs)
    (hkind : kind ≠ .space) (hlegal : kind ≠ .illegal) : ∀ c ∈ cs.head?, isBlank c = false := by
  cases kind with
  | space => exact absurd rfl hkind
  | illegal => exact absurd rfl hlegal
  | number =>
      have hdigits : ∀ ds : List Char, (∀ d ∈ ds, d.isDigit = true) →
          ∀ c ∈ ds.head?, isBlank c = false :=
        fun ds hds c hc => Text.isBlank_eq_false_of_isDigit (hds c (List.mem_of_head? hc))
      rcases h with ⟨-, hall⟩ | ⟨whole, digits, rfl, hwhole, -, -⟩
      · exact hdigits cs hall
      · -- the number starts with its point if no digit stands before it
        cases whole with
        | nil =>
            rintro c ⟨⟩
            decide
        | cons d ds => exact hdigits (d :: ds) hwhole
  | eof =>
      rw [show cs = [] from h]
      simp
  | _ =>
      -- the other kinds have one text each
      simp only [Kind.Spells] at h
      rw [h]
      rintro c ⟨⟩
      decide

/-! ## Cutting off a token -/

/-- A well-cut token is the first of the pieces. -/
theorem Lexeme.WellCut.pieces_eq {l : Lexeme} (h : l.WellCut) (pos : Nat) :
    pieces pos (l.text ++ l.rest) =
      ⟨l.kind, String.ofList l.text, pos⟩ :: pieces (pos + l.text.length) l.rest := by
  obtain ⟨c, cs, hcs⟩ := List.exists_cons_of_ne_nil h.text_ne_nil
  have htext : l.text ++ l.rest = c :: (cs ++ l.rest) := by rw [hcs, List.cons_append]
  have hlexeme := h.eq_lexeme htext
  rw [htext, pieces_cons, ← hlexeme]

/-- A well-cut token of an expression goes before the tokens of the text after it. -/
theorem Lexeme.WellCut.cut {l : Lexeme} (h : l.WellCut) (hspace : l.kind ≠ .space)
    (hlegal : l.kind ≠ .illegal) {pos : Nat} {ts : List Token}
    (hrest : Cut (pos + l.text.length) l.rest ts) :
    Cut pos (l.text ++ l.rest) (⟨l.kind, String.ofList l.text, pos⟩ :: ts) := by
  obtain ⟨hlegal_rest, rfl⟩ := hrest
  rw [Cut, h.pieces_eq pos]
  refine ⟨List.forall_mem_cons.2 ⟨hlegal, hlegal_rest⟩, ?_⟩
  exact (List.filter_cons_of_pos (by simpa using hspace)).symm

/-- Blanks before a text are cut off, and the text is cut as by itself. -/
theorem Cut.blanks {pos : Nat} {gap cs : List Char} {ts : List Token} (hgap : AllBlank gap)
    (hcs : ∀ c ∈ cs.head?, isBlank c = false) (h : Cut (pos + gap.length) cs ts) :
    Cut pos (gap ++ cs) ts := by
  by_cases hne : gap = []
  · rw [hne, List.length_nil, Nat.add_zero] at h
    rw [hne, List.nil_append]
    exact h
  · have hwell : (⟨.space, gap, cs⟩ : Lexeme).WellCut := ⟨hne, hgap, hcs⟩
    obtain ⟨hlegal, rfl⟩ := h
    rw [Cut, hwell.pieces_eq pos]
    exact ⟨List.forall_mem_cons.2 ⟨by simp, hlegal⟩, rfl⟩

/-! ## Words -/

/-- A token that an expression is read from, before the end. -/
structure IsSignificant (t : Token) : Prop where
  text_ne_nil : t.text.toList ≠ []
  spells : t.kind.Spells t.text.toList
  kind_ne_space : t.kind ≠ .space
  kind_ne_illegal : t.kind ≠ .illegal

/-- A token as it is written in a text, with the blanks after it. Where the token stands is of no
importance. -/
structure Word where
  token : Token
  gap : String
  deriving DecidableEq, Repr

namespace Word

/-- The text of the words, one after the other. -/
def spread : List Word → String
  | [] => ""
  | w :: words => w.token.text ++ w.gap ++ spread words

/-- The tokens of the words, where they stand in a text that has the words from `pos` on. -/
def placed (pos : Nat) : List Word → List Token
  | [] => []
  | w :: words =>
      { w.token with pos := pos } :: placed (pos + w.token.text.length + w.gap.length) words

/-- Only blanks stand after the tokens, and one at least between any two. -/
structure Apart (words : List Word) : Prop where
  blank : ∀ w ∈ words, AllBlank w.gap.toList
  gap_ne_empty : ∀ w ∈ words.dropLast, w.gap ≠ ""

instance (words : List Word) : Decidable (Apart words) :=
  decidable_of_iff
    ((∀ w ∈ words, AllBlank w.gap.toList) ∧ ∀ w ∈ words.dropLast, w.gap ≠ "")
    ⟨fun h => ⟨h.1, h.2⟩, fun h => ⟨h.blank, h.gap_ne_empty⟩⟩

theorem toList_spread_cons (w : Word) (words : List Word) :
    (spread (w :: words)).toList =
      w.token.text.toList ++ (w.gap.toList ++ (spread words).toList) := by
  simp [spread]

theorem map_content_placed (pos : Nat) (words : List Word) :
    (placed pos words).map content = words.map fun w => w.token.content := by
  induction words generalizing pos with
  | nil => rfl
  | cons w words ih => exact congrArg (w.token.content :: ·) (ih _)

theorem length_placed (pos : Nat) (words : List Word) :
    (placed pos words).length = words.length := by
  have hmap := congrArg List.length (map_content_placed pos words)
  rw [List.length_map, List.length_map] at hmap
  exact hmap

/-- Each token stands after the words before it. -/
theorem pos_of_getElem?_placed {pos i : Nat} {words : List Word} {t : Token}
    (h : (placed pos words)[i]? = some t) : t.pos = pos + (spread (words.take i)).length := by
  induction words generalizing pos i with
  | nil => simp [placed] at h
  | cons w words ih =>
      cases i with
      | zero =>
          obtain rfl := Option.some.inj h
          rfl
      | succ i =>
          have hrest : (placed (pos + w.token.text.length + w.gap.length) words)[i]? = some t := h
          rw [ih hrest, List.take_succ_cons, spread, String.length_append, String.length_append]
          omega

theorem Apart.tail {w : Word} {words : List Word} (h : Apart (w :: words)) : Apart words where
  blank := fun v hv => h.blank v (List.mem_cons_of_mem w hv)
  gap_ne_empty := by
    intro v hv
    have hne : words ≠ [] := by
      rintro rfl
      exact absurd hv (by simp)
    refine h.gap_ne_empty v ?_
    rw [List.dropLast_cons_of_ne_nil hne]
    exact List.mem_cons_of_mem w hv

/-- There is a blank before the second word. -/
theorem Apart.gap_ne_empty_of_cons {w v : Word} {words : List Word} (h : Apart (w :: v :: words)) :
    w.gap ≠ "" := by
  refine h.gap_ne_empty w ?_
  rw [List.dropLast_cons_of_ne_nil (List.cons_ne_nil v words)]
  exact List.mem_cons_self

variable {words : List Word}

/-- Words do not start with a blank. -/
theorem head_spread_not_isBlank (hwords : ∀ w ∈ words, w.token.IsSignificant) :
    ∀ c ∈ (spread words).toList.head?, isBlank c = false := by
  cases words with
  | nil => simp [spread]
  | cons w words =>
      have hw := hwords w List.mem_cons_self
      obtain ⟨c, cs, hcs⟩ := List.exists_cons_of_ne_nil hw.text_ne_nil
      have hhead := hw.spells.head_not_isBlank hw.kind_ne_space hw.kind_ne_illegal
      rw [hcs] at hhead
      rw [toList_spread_cons, hcs]
      exact hhead

/-- After the text of a word comes a blank, or nothing. -/
theorem Apart.head_after {w : Word} (h : Apart (w :: words)) :
    ∀ c ∈ (w.gap.toList ++ (spread words).toList).head?, isBlank c = true := by
  cases hgap : w.gap.toList with
  | cons d ds =>
      rintro c ⟨⟩
      exact h.blank w List.mem_cons_self d (by simp [hgap])
  | nil =>
      -- the gap is missing, so there is no other word
      cases words with
      | nil => simp [spread]
      | cons v words => exact absurd (String.toList_eq_nil_iff.1 hgap) h.gap_ne_empty_of_cons

/-- **Words are cut where they are spread,** into their tokens. -/
theorem cut_spread (hwords : ∀ w ∈ words, w.token.IsSignificant) (hapart : Apart words)
    (pos : Nat) : Cut pos (spread words).toList (placed pos words) := by
  induction words generalizing pos with
  | nil => exact cut_nil pos
  | cons w words ih =>
      obtain ⟨hw, hwords⟩ := List.forall_mem_cons.1 hwords
      have hwell : (⟨w.token.kind, w.token.text.toList,
          w.gap.toList ++ (spread words).toList⟩ : Lexeme).WellCut := by
        refine ⟨hw.text_ne_nil, hw.spells, fun c hc => ?_⟩
        exact Kind.mayPrecede_of_isBlank hw.kind_ne_space (hapart.head_after c hc) _
      have hrest := ih hwords hapart.tail (pos + w.token.text.length + w.gap.length)
      have hgap := hapart.blank w List.mem_cons_self
      have hcut := hwell.cut hw.kind_ne_space hw.kind_ne_illegal
        (hrest.blanks hgap (head_spread_not_isBlank hwords))
      rw [toList_spread_cons]
      rw [String.ofList_toList] at hcut
      exact hcut

end Word

/-! ## Whole texts -/

/-- The tokens that an expression is read from are significant, but for the end. -/
theorem isSignificant_of_mem {text : String} {ts : List Token} {t : Token}
    (h : significant text = .ok ts) (ht : t ∈ ts) (hkind : t.kind ≠ .eof) : t.IsSignificant := by
  obtain ⟨hlegal, rfl⟩ := significant_eq_ok_iff.1 h
  obtain ⟨hall, hspace⟩ := List.mem_filter.1 ht
  obtain ⟨pieces, hpieces, hne⟩ := (tiles_toList 0 text.toList).ends
  have hmem : t ∈ pieces := by
    have htiles : t ∈ pieces ++ [endAt (0 + text.toList.length)] := hpieces ▸ hall
    rcases List.mem_append.1 htiles with hmem | hend
    · exact hmem
    · rw [List.mem_singleton.1 hend] at hkind
      exact absurd rfl hkind
  exact ⟨toList_ne_nil_iff.2 (hne t hmem).1, spells_of_mem_all hall, by simpa using hspace,
    hlegal t hall⟩

/-- **Tokens written with blanks between them are found again,** each at its place. -/
theorem significant_spread {lead : String} {words : List Word} (hlead : AllBlank lead.toList)
    (hwords : ∀ w ∈ words, w.token.IsSignificant) (hapart : Word.Apart words) :
    significant (lead ++ Word.spread words) =
      .ok (Word.placed lead.length words ++ [endAt (lead ++ Word.spread words).length]) := by
  have hcut := Word.cut_spread hwords hapart (0 + lead.toList.length)
  have hblanks := hcut.blanks hlead (Word.head_spread_not_isBlank hwords)
  rw [Nat.zero_add, String.length_toList, ← String.toList_append] at hblanks
  exact significant_eq_ok_iff_cut.2 ⟨_, hblanks, rfl⟩

/-- A blank text has no token but the end. -/
theorem significant_of_allBlank {text : String} (h : AllBlank text.toList) :
    significant text = .ok [endAt text.length] := by
  have hspread := significant_spread h (List.forall_mem_nil _) ⟨List.forall_mem_nil _, by simp⟩
  rw [Word.spread, String.append_empty] at hspread
  exact hspread

/-! ## One space between tokens -/

/-- The tokens as words with one space between them. -/
def Word.ofTokens : List Token → List Word
  | [] => []
  | [t] => [⟨t, ""⟩]
  | t :: u :: ts => ⟨t, " "⟩ :: Word.ofTokens (u :: ts)

namespace Word

theorem map_token_ofTokens (ts : List Token) : (ofTokens ts).map Word.token = ts := by
  fun_induction ofTokens ts with
  | case1 => rfl
  | case2 t => rfl
  | case3 t u ts ih => exact congrArg (t :: ·) ih

theorem apart_ofTokens (ts : List Token) : Apart (ofTokens ts) := by
  fun_induction ofTokens ts with
  | case1 => exact ⟨List.forall_mem_nil _, by simp⟩
  | case2 t => exact ⟨by simp [Text.allBlank_nil], by simp⟩
  | case3 t u ts ih =>
      have hspace : AllBlank " ".toList := List.forall_mem_singleton.2 (by decide)
      have hgap : " " ≠ "" := by decide
      have hne : ofTokens (u :: ts) ≠ [] := by
        intro hnil
        have hmap := map_token_ofTokens (u :: ts)
        rw [hnil] at hmap
        exact absurd hmap (by simp)
      refine ⟨List.forall_mem_cons.2 ⟨hspace, ih.blank⟩, ?_⟩
      rw [List.dropLast_cons_of_ne_nil hne]
      exact List.forall_mem_cons.2 ⟨hgap, ih.gap_ne_empty⟩

theorem spread_ofTokens (ts : List Token) :
    spread (ofTokens ts) = " ".intercalate (ts.map Token.text) := by
  fun_induction ofTokens ts with
  | case1 => rfl
  | case2 t => simp [spread]
  | case3 t u ts ih =>
      rw [spread, ih]
      simp [String.intercalate_cons_cons]

end Word

end Token

end RatExpr

import RatExpr.Proofs.Token.Language

set_option autoImplicit false

/-! # The tokens of a text

Which list of tokens belongs to a text, said without scanning (`Token.Tiles`): the texts of the
tokens make up the text, each token stands at its position, looks as its kind demands, and ends
where it has to; the end comes last, and nowhere else. The scanner hands out such a list
(`tiles_toList`), and there is no other (`Tiles.eq_toList`); the main statement is
`Scanner.answers_tiling`.
-/

namespace RatExpr

/-! ## Elements with what is around them -/

/-- What holds of every element of a list, its predecessors and its successors, holds of the
first element, and of the others with the first among their predecessors. -/
theorem forall_split_cons {α : Type} {P : List α → α → List α → Prop} {t : α} {ts : List α} :
    (∀ before u after, t :: ts = before ++ u :: after → P before u after) ↔
      P [] t ts ∧ ∀ before u after, ts = before ++ u :: after → P (t :: before) u after := by
  constructor
  · intro h
    exact ⟨h [] t ts rfl, fun before u after hts => h (t :: before) u after (by rw [hts]; rfl)⟩
  · rintro ⟨hfirst, hothers⟩ before u after hts
    cases before with
    | nil =>
        obtain ⟨rfl, rfl⟩ := List.cons.inj hts
        exact hfirst
    | cons b before =>
        rw [List.cons_append] at hts
        obtain ⟨rfl, hrest⟩ := List.cons.inj hts
        exact hothers before u after hrest

theorem forall_split_nil {α : Type} {P : List α → α → List α → Prop} :
    ∀ before u after, [] = before ++ u :: after → P before u after := by
  intro before u after h
  exact absurd h (by simp)

namespace Token

/-! ## Tilings -/

/-- The texts of the tokens, one after the other. -/
def written (ts : List Token) : List Char := ts.flatMap fun t => t.text.toList

@[simp] theorem written_nil : written [] = [] := rfl

@[simp] theorem written_cons (t : Token) (ts : List Token) :
    written (t :: ts) = t.text.toList ++ written ts := rfl

@[simp] theorem written_append (ts us : List Token) :
    written (ts ++ us) = written ts ++ written us := by
  simp [written]

@[simp] theorem written_endAt (pos : Nat) : written [endAt pos] = [] := rfl

/-- The tokens `ts` are those of the text `cs`, which starts at the position `start`. -/
structure Tiles (start : Nat) (cs : List Char) (ts : List Token) : Prop where
  written_eq : written ts = cs
  pos_eq : ∀ before t after, ts = before ++ t :: after →
    t.pos = start + (written before).length
  ends : ∃ pieces, ts = pieces ++ [endAt (start + cs.length)] ∧
    ∀ t ∈ pieces, t.text ≠ "" ∧ t.kind ≠ .eof
  spells : ∀ t ∈ ts, t.kind.Spells t.text.toList
  mayPrecede : ∀ before t after, ts = before ++ t :: after →
    ∀ c ∈ (written after).head?, t.kind.MayPrecede t.text.toList c

/-! ## One token at a time -/

/-- The end alone belongs to the empty text. -/
theorem tiles_nil (start : Nat) : Tiles start [] [endAt start] where
  written_eq := rfl
  pos_eq := forall_split_cons.2 ⟨rfl, forall_split_nil⟩
  ends := ⟨[], rfl, by simp⟩
  spells t ht := by
    obtain rfl := List.mem_singleton.1 ht
    rfl
  mayPrecede := forall_split_cons.2 ⟨by simp, forall_split_nil⟩

theorem toList_ne_nil_iff {s : String} : s.toList ≠ [] ↔ s ≠ "" := by
  rw [ne_eq, ne_eq, String.toList_eq_nil_iff]

/-- A well-cut token goes before the tokens of the text after it. -/
theorem Lexeme.WellCut.cons {t : Token} {rest : List Char} {ts : List Token}
    (ht : (⟨t.kind, t.text.toList, rest⟩ : Lexeme).WellCut)
    (h : Tiles (t.pos + t.text.toList.length) rest ts) :
    Tiles t.pos (t.text.toList ++ rest) (t :: ts) where
  written_eq := by rw [written_cons, h.written_eq]
  pos_eq := by
    refine forall_split_cons.2 ⟨rfl, fun before u after hts => ?_⟩
    rw [h.pos_eq before u after hts, written_cons, List.length_append, Nat.add_assoc]
  ends := by
    obtain ⟨pieces, rfl, hpieces⟩ := h.ends
    have hne : t.text ≠ "" := toList_ne_nil_iff.1 ht.text_ne_nil
    have hkind : t.kind ≠ .eof := by
      intro heof
      have hspells := ht.spells
      rw [heof] at hspells
      exact ht.text_ne_nil hspells
    refine ⟨t :: pieces, ?_, List.forall_mem_cons.2 ⟨⟨hne, hkind⟩, hpieces⟩⟩
    rw [List.length_append, Nat.add_assoc, List.cons_append]
  spells := List.forall_mem_cons.2 ⟨ht.spells, h.spells⟩
  mayPrecede := by
    refine forall_split_cons.2 ⟨?_, h.mayPrecede⟩
    rw [h.written_eq]
    exact ht.mayPrecede

/-- A token that is not the last is not empty. -/
theorem Tiles.text_ne_nil {start : Nat} {cs : List Char} {ts before after : List Token}
    {t u : Token} (h : Tiles start cs ts) (hts : ts = before ++ t :: u :: after) :
    t.text.toList ≠ [] := by
  obtain ⟨pieces, hpieces, hne⟩ := h.ends
  have hlast := congrArg List.dropLast (hpieces.symm.trans hts)
  rw [List.dropLast_concat, List.dropLast_append_cons, List.dropLast_cons_of_ne_nil (by simp)]
    at hlast
  exact toList_ne_nil_iff.2 (hne t (by rw [hlast]; simp)).1

/-- The first of the tokens of a text is well cut, and those after it belong to the rest. -/
theorem Tiles.exists_first {start : Nat} {c : Char} {cs : List Char} {ts : List Token}
    (h : Tiles start (c :: cs) ts) :
    ∃ t rest us, ts = t :: us ∧ t.pos = start ∧ t.text.toList ++ rest = c :: cs ∧
      (⟨t.kind, t.text.toList, rest⟩ : Lexeme).WellCut ∧
      Tiles (start + t.text.toList.length) rest us := by
  obtain ⟨pieces, hts, hpieces⟩ := h.ends
  obtain ⟨stop, hstop⟩ : ∃ stop, stop = start + (c :: cs).length := ⟨_, rfl⟩
  have hwritten := h.written_eq
  rw [← hstop] at hts
  cases pieces with
  | nil =>
      -- the end alone has no characters
      rw [hts, List.nil_append, written_endAt] at hwritten
      exact absurd hwritten (by simp)
  | cons t pieces =>
      obtain ⟨ht, hpieces⟩ := List.forall_mem_cons.1 hpieces
      rw [hts, List.cons_append] at h hwritten
      obtain ⟨hpos, hpos_rest⟩ := forall_split_cons.1 h.pos_eq
      obtain ⟨hspells, hspells_rest⟩ := List.forall_mem_cons.1 h.spells
      obtain ⟨hnext, hnext_rest⟩ := forall_split_cons.1 h.mayPrecede
      refine ⟨t, written (pieces ++ [endAt stop]), pieces ++ [endAt stop], hts, hpos, hwritten,
        ⟨toList_ne_nil_iff.2 ht.1, hspells, hnext⟩, ⟨rfl, ?_, ?_, hspells_rest, hnext_rest⟩⟩
      · intro before u after hus
        rw [hpos_rest before u after hus, written_cons, List.length_append, Nat.add_assoc]
      · have hlen := congrArg List.length hwritten
        rw [written_cons, List.length_append] at hlen
        have hend : start + t.text.toList.length + (written (pieces ++ [endAt stop])).length =
            stop := by omega
        exact ⟨pieces, by rw [hend], hpieces⟩

/-! ## The scanner -/

/-- **What the scanner hands out are the tokens of the text.** -/
theorem tiles_toList (start : Nat) (cs : List Char) :
    Tiles start cs (Scanner.reading start cs).toList := by
  induction cs using lexeme_induction generalizing start with
  | nil =>
      rw [Scanner.toList_reading_nil]
      exact tiles_nil start
  | cons c cs ih =>
      obtain ⟨t, ht⟩ : ∃ t : Token,
          t = ⟨(lexeme c cs).kind, String.ofList (lexeme c cs).text, start⟩ := ⟨_, rfl⟩
      have htext : t.text.toList = (lexeme c cs).text := by rw [ht, String.toList_ofList]
      have hwell : (⟨t.kind, t.text.toList, (lexeme c cs).rest⟩ : Lexeme).WellCut := by
        rw [htext, ht]
        exact wellCut_lexeme c cs
      have hpos : t.pos = start := by rw [ht]
      rw [Scanner.toList_reading_cons, ← ht, ← lexeme_text_append_rest c cs, ← htext, ← hpos]
      exact hwell.cons (ih _)

/-- **No other tokens are those of the text.** -/
theorem Tiles.eq_toList {start : Nat} {cs : List Char} {ts : List Token}
    (h : Tiles start cs ts) : ts = (Scanner.reading start cs).toList := by
  induction cs using lexeme_induction generalizing start ts with
  | nil =>
      obtain ⟨pieces, rfl, hpieces⟩ := h.ends
      have hnil : pieces = [] := by
        refine List.eq_nil_iff_forall_not_mem.2 fun t ht => (hpieces t ht).1 ?_
        have hwritten := h.written_eq
        rw [written_append, written_endAt, List.append_nil] at hwritten
        exact String.toList_eq_nil_iff.1 (List.flatMap_eq_nil_iff.1 hwritten t ht)
      rw [hnil, Scanner.toList_reading_nil]
      rfl
  | cons c cs ih =>
      obtain ⟨t, rest, us, rfl, rfl, htext, hwell, hrest⟩ := h.exists_first
      have hlex := hwell.eq_lexeme htext
      rw [Scanner.toList_reading_cons, ← hlex]
      rw [← hlex] at ih
      rw [ih hrest, String.ofList_toList]

/-- Each token but the end takes a character at least. -/
theorem Tiles.length_le {start : Nat} {cs : List Char} {ts : List Token}
    (h : Tiles start cs ts) : ts.length ≤ cs.length + 1 := by
  obtain ⟨pieces, rfl, hpieces⟩ := h.ends
  have hle : pieces.length ≤ (written pieces).length := by
    clear h
    induction pieces with
    | nil => simp
    | cons t pieces ih =>
        obtain ⟨ht, hrest⟩ := List.forall_mem_cons.1 hpieces
        have hpos := List.length_pos_iff.2 (toList_ne_nil_iff.2 ht.1)
        have hih := ih hrest
        rw [written_cons, List.length_append, List.length_cons]
        omega
  have hwritten := h.written_eq
  rw [written_append, written_endAt, List.append_nil] at hwritten
  rw [hwritten] at hle
  rw [List.length_append, List.length_singleton]
  omega

end Token

/-- **A scanner hands out the tokens of the text, which are told from it.** They are the only
list that tiles the text. Requests are answered with them in order; when the end has been
handed out, nothing is left, however often a scanner is asked; and there is at most one token
for each character besides the end. -/
theorem Scanner.answers_tiling (text : String) :
    (∀ ts, Token.Tiles 0 text.toList ts ↔ ts = Token.all text) ∧
    (∀ n, answers n (ofString text) =
      ((Token.all text).map some).take n ++
        List.replicate (n - (Token.all text).length) none) ∧
    (Token.all text).length ≤ text.length + 1 := by
  have htiles : Token.Tiles 0 text.toList (Token.all text) := Token.tiles_toList 0 text.toList
  refine ⟨fun ts => ⟨Token.Tiles.eq_toList, fun hts => hts ▸ htiles⟩, ?_, ?_⟩
  · exact fun n => answers_eq n (ofString text)
  · rw [← String.length_toList]
    exact htiles.length_le

end RatExpr

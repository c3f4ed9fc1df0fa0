import RatExpr.Proofs.Token.Tiling
import RatExpr.Token.Significant

set_option autoImplicit false

/-! # Cutting at a delimiter

A parenthesis is a token alone wherever it stands, and every token before it ends there at the
latest (`IsDelimiter`). So a text with a parenthesis in it is cut as the two texts around it
are (`pieces_append_delimiter`), and the right one is cut as it would be by itself, at other
positions (`pieces_shift`).

`Token.Cut` says which tokens an expression is read from, wherever its text starts; the
statements about it (`cut_append_delimiter`, `Cut.shift`) are what evaluation needs to know of
the scanner when texts are put together.
-/

namespace RatExpr.Token

/-! ## Delimiters -/

/-- A character that never belongs to a longer token: neither to a run of blanks or digits, nor
to a number with a point, nor to the operator of two stars. -/
structure IsDelimiter (d : Char) : Prop where
  not_isBlank : Text.isBlank d = false
  not_isDigit : d.isDigit = false
  ne_point : d ≠ '.'
  ne_star : d ≠ '*'

theorem isDelimiter_leftParen : IsDelimiter '(' :=
  ⟨by decide, by decide, by decide, by decide⟩

theorem isDelimiter_rightParen : IsDelimiter ')' :=
  ⟨by decide, by decide, by decide, by decide⟩

/-- A delimiter may stand after any token. -/
theorem IsDelimiter.mayPrecede {d : Char} (hd : IsDelimiter d) (kind : Kind) (cs : List Char) :
    kind.MayPrecede cs d := by
  cases kind with
  | space => exact hd.not_isBlank
  | number => exact ⟨hd.not_isDigit, fun _ => hd.ne_point⟩
  | star => exact hd.ne_star
  | illegal => exact fun _ => hd.not_isDigit
  | _ => trivial

/-- The first token of a text is the same before a delimiter as before the end. -/
theorem lexeme_append_delimiter (c : Char) (cs rest : List Char) {d : Char}
    (hd : IsDelimiter d) :
    lexeme c (cs ++ d :: rest) =
      ⟨(lexeme c cs).kind, (lexeme c cs).text, (lexeme c cs).rest ++ d :: rest⟩ := by
  have hwell := wellCut_lexeme c cs
  have hcut : Lexeme.WellCut
      ⟨(lexeme c cs).kind, (lexeme c cs).text, (lexeme c cs).rest ++ d :: rest⟩ := by
    refine ⟨hwell.text_ne_nil, hwell.spells, ?_⟩
    cases hrest : (lexeme c cs).rest with
    | nil =>
        rintro e ⟨⟩
        exact hd.mayPrecede _ _
    | cons e es =>
        have hnext := hwell.mayPrecede
        rw [hrest] at hnext
        exact hnext
  refine (hcut.eq_lexeme ?_).symm
  rw [← List.append_assoc, lexeme_text_append_rest, List.cons_append]

/-! ## Pieces -/

/-- The tokens of the text `cs`, which starts at the position `pos`, but the end. -/
def pieces (pos : Nat) (cs : List Char) : List Token := (Scanner.reading pos cs).toList.dropLast

/-- The end comes after the pieces. -/
theorem toList_eq_pieces (pos : Nat) (cs : List Char) :
    (Scanner.reading pos cs).toList = pieces pos cs ++ [endAt (pos + cs.length)] := by
  obtain ⟨ts, hts, -⟩ := (tiles_toList pos cs).ends
  rw [pieces, hts, List.dropLast_concat]

/-- The tokens of a text are its pieces and the end. -/
theorem all_eq_pieces (text : String) :
    all text = pieces 0 text.toList ++ [endAt text.length] := by
  rw [all, Scanner.ofString, toList_eq_pieces, Nat.zero_add, String.length_toList]

theorem kind_ne_eof_of_mem_pieces {pos : Nat} {cs : List Char} {t : Token}
    (ht : t ∈ pieces pos cs) : t.kind ≠ .eof := by
  obtain ⟨ts, hts, hall⟩ := (tiles_toList pos cs).ends
  rw [pieces, hts, List.dropLast_concat] at ht
  exact (hall t ht).2

@[simp] theorem pieces_nil (pos : Nat) : pieces pos [] = [] := by
  rw [pieces, Scanner.toList_reading_nil, List.dropLast_singleton]

theorem pieces_cons (pos : Nat) (c : Char) (cs : List Char) :
    pieces pos (c :: cs) =
      ⟨(lexeme c cs).kind, String.ofList (lexeme c cs).text, pos⟩ ::
        pieces (pos + (lexeme c cs).text.length) (lexeme c cs).rest := by
  have hne : (Scanner.reading (pos + (lexeme c cs).text.length) (lexeme c cs).rest).toList ≠ [] := by
    rw [toList_eq_pieces]
    simp
  rw [pieces, Scanner.toList_reading_cons, List.dropLast_cons_of_ne_nil hne, pieces]

/-- **A delimiter cuts a text in two.** -/
theorem pieces_append_delimiter (pos : Nat) (cs rest : List Char) {d : Char}
    (hd : IsDelimiter d) :
    pieces pos (cs ++ d :: rest) =
      pieces pos cs ++ ⟨Kind.ofChar d, String.ofList [d], pos + cs.length⟩ ::
        pieces (pos + cs.length + 1) rest := by
  induction cs using lexeme_induction generalizing pos with
  | nil =>
      have hlexeme := lexeme_of_single rest hd.not_isBlank hd.not_isDigit hd.ne_point
        fun hstar => absurd hstar hd.ne_star
      rw [List.nil_append, pieces_cons, hlexeme]
      simp
  | cons c cs ih =>
      have hlen : pos + (lexeme c cs).text.length + (lexeme c cs).rest.length =
          pos + (c :: cs).length := by
        rw [← lexeme_text_append_rest c cs, List.length_append, Nat.add_assoc]
      rw [List.cons_append, pieces_cons, lexeme_append_delimiter c cs rest hd, ih, hlen,
        pieces_cons pos c cs, List.cons_append]

/-! ## Positions -/

/-- The token `k` characters further on. -/
def shift (k : Nat) (t : Token) : Token := { t with pos := t.pos + k }

/-- **A text is cut alike wherever it starts.** -/
theorem pieces_shift (pos k : Nat) (cs : List Char) :
    pieces (pos + k) cs = (pieces pos cs).map (shift k) := by
  induction cs using lexeme_induction generalizing pos with
  | nil => simp
  | cons c cs ih =>
      have hpos : pos + k + (lexeme c cs).text.length = pos + (lexeme c cs).text.length + k := by
        omega
      rw [pieces_cons, pieces_cons, List.map_cons, hpos, ih]
      rfl

/-- What a token is, wherever it stands. -/
def content (t : Token) : Kind × String := (t.kind, t.text)

theorem map_content_shift (k : Nat) (ts : List Token) :
    (ts.map (shift k)).map content = ts.map content := by
  rw [List.map_map]
  rfl

/-! ## The tokens of an expression -/

/-- The text `cs`, which starts at the position `pos`, has no illegal piece, and `ts` are its
pieces without the blanks. -/
def Cut (pos : Nat) (cs : List Char) (ts : List Token) : Prop :=
  (∀ t ∈ pieces pos cs, t.kind ≠ .illegal) ∧
    ts = (pieces pos cs).filter fun t => t.kind != .space

/-- Leaving out the blanks keeps the end. -/
theorem filter_space_all (text : String) :
    ((all text).filter fun t => t.kind != .space) =
      ((pieces 0 text.toList).filter fun t => t.kind != .space) ++ [endAt text.length] := by
  rw [all_eq_pieces, List.filter_append]
  rfl

/-- A text has significant tokens if it can be cut; the end comes after them. -/
theorem significant_eq_ok_iff_cut {text : String} {ts : List Token} :
    significant text = .ok ts ↔
      ∃ us, Cut 0 text.toList us ∧ ts = us ++ [endAt text.length] := by
  have hend : (endAt text.length).kind ≠ .illegal := by simp [endAt]
  rw [significant_eq_ok_iff, filter_space_all, all_eq_pieces]
  constructor
  · rintro ⟨hlegal, rfl⟩
    exact ⟨_, ⟨fun t ht => hlegal t (List.mem_append_left _ ht), rfl⟩, rfl⟩
  · rintro ⟨us, ⟨hlegal, rfl⟩, rfl⟩
    refine ⟨fun t ht => ?_, rfl⟩
    rcases List.mem_append.1 ht with ht | ht
    · exact hlegal t ht
    · rw [List.mem_singleton.1 ht]
      exact hend

theorem Cut.kind_ne_eof {pos : Nat} {cs : List Char} {ts : List Token} (h : Cut pos cs ts) :
    ∀ t ∈ ts, t.kind ≠ .eof := by
  intro t ht
  rw [h.2] at ht
  exact kind_ne_eof_of_mem_pieces (List.mem_filter.1 ht).1

/-- A text is cut in one way only. -/
theorem Cut.unique {pos : Nat} {cs : List Char} {ts us : List Token} (hts : Cut pos cs ts)
    (hus : Cut pos cs us) : ts = us :=
  hts.2.trans hus.2.symm

theorem cut_nil (pos : Nat) : Cut pos [] [] := by
  simp [Cut]

theorem Cut.shift {pos : Nat} {cs : List Char} {ts : List Token} (h : Cut pos cs ts) (k : Nat) :
    Cut (pos + k) cs (ts.map (Token.shift k)) := by
  obtain ⟨hlegal, rfl⟩ := h
  rw [Cut, pieces_shift]
  refine ⟨?_, ?_⟩
  · intro t ht
    obtain ⟨u, hu, rfl⟩ := List.mem_map.1 ht
    exact hlegal u hu
  · rw [List.filter_map]
    rfl

theorem Cut.exists_shift {pos k : Nat} {cs : List Char} {ts : List Token}
    (h : Cut (pos + k) cs ts) : ∃ us, Cut pos cs us ∧ ts = us.map (Token.shift k) := by
  have hlegal : ∀ t ∈ pieces pos cs, t.kind ≠ .illegal := by
    intro t ht
    have hmem : Token.shift k t ∈ pieces (pos + k) cs := by
      rw [pieces_shift]
      exact List.mem_map_of_mem ht
    exact h.1 (Token.shift k t) hmem
  have hcut : Cut pos cs _ := ⟨hlegal, rfl⟩
  exact ⟨_, hcut, h.unique (hcut.shift k)⟩

/-- **A text can be cut wherever it starts,** into tokens of the same content. -/
theorem Cut.exists_at {pos : Nat} {cs : List Char} {ts : List Token} (h : Cut pos cs ts)
    (pos' : Nat) : ∃ us, Cut pos' cs us ∧ us.map content = ts.map content := by
  rw [← Nat.zero_add pos] at h
  obtain ⟨us, hus, rfl⟩ := h.exists_shift
  have hus' := hus.shift pos'
  rw [Nat.zero_add] at hus'
  exact ⟨_, hus', by rw [map_content_shift, map_content_shift]⟩

theorem ofChar_ne_space (c : Char) : Kind.ofChar c ≠ .space := by
  unfold Kind.ofChar
  split <;> simp

/-- **A text with a delimiter is cut where both texts around it can be,** into their tokens and
the delimiter between them. -/
theorem cut_append_delimiter {pos : Nat} {cs rest : List Char} {ts : List Token} {d : Char}
    (hd : IsDelimiter d) (hlegal : Kind.ofChar d ≠ .illegal) :
    Cut pos (cs ++ d :: rest) ts ↔
      ∃ us vs, Cut pos cs us ∧ Cut (pos + cs.length + 1) rest vs ∧
        ts = us ++ ⟨Kind.ofChar d, String.ofList [d], pos + cs.length⟩ :: vs := by
  have hfilter : ((pieces pos (cs ++ d :: rest)).filter fun t => t.kind != .space) =
      ((pieces pos cs).filter fun t => t.kind != .space) ++
        ⟨Kind.ofChar d, String.ofList [d], pos + cs.length⟩ ::
          (pieces (pos + cs.length + 1) rest).filter fun t => t.kind != .space := by
    rw [pieces_append_delimiter pos cs rest hd, List.filter_append]
    exact congrArg _ (List.filter_cons_of_pos (by simpa using ofChar_ne_space d))
  rw [Cut, hfilter, pieces_append_delimiter pos cs rest hd, List.forall_mem_append,
    List.forall_mem_cons]
  constructor
  · rintro ⟨⟨hus, -, hvs⟩, rfl⟩
    exact ⟨_, _, ⟨hus, rfl⟩, ⟨hvs, rfl⟩, rfl⟩
  · rintro ⟨us, vs, ⟨hus, rfl⟩, ⟨hvs, rfl⟩, rfl⟩
    exact ⟨⟨hus, hlegal, hvs⟩, rfl⟩

/-- **A text with parentheses in it is cut into what is before, in and after them.** -/
theorem cut_parentheses {pos : Nat} {pre inside post : List Char} {ts : List Token} :
    Cut pos (pre ++ '(' :: (inside ++ ')' :: post)) ts ↔
      ∃ us vs ws, Cut pos pre us ∧ Cut (pos + pre.length + 1) inside vs ∧
        Cut (pos + pre.length + 1 + inside.length + 1) post ws ∧
        ts = us ++ ⟨.leftParen, "(", pos + pre.length⟩ ::
          (vs ++ ⟨.rightParen, ")", pos + pre.length + 1 + inside.length⟩ :: ws) := by
  rw [cut_append_delimiter isDelimiter_leftParen (by decide)]
  constructor
  · rintro ⟨us, more, hus, hmore, rfl⟩
    obtain ⟨vs, ws, hvs, hws, rfl⟩ :=
      (cut_append_delimiter isDelimiter_rightParen (by decide)).1 hmore
    exact ⟨us, vs, ws, hus, hvs, hws, rfl⟩
  · rintro ⟨us, vs, ws, hus, hvs, hws, rfl⟩
    exact ⟨us, _, hus,
      (cut_append_delimiter isDelimiter_rightParen (by decide)).2 ⟨vs, ws, hvs, hws, rfl⟩, rfl⟩

end RatExpr.Token

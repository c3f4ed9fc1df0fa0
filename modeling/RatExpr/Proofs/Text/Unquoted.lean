import RatExpr.Text.Quoted

set_option autoImplicit false

/-! # Quoted texts read back

A quoted text says by itself where it ends and which text it quotes: it can be read back from the
front of any longer text (`unquote_encode`), and the reader need not know which characters stand
for themselves. So the parts of a text with quoted texts in it are told apart, whatever quotes and
separators the quoted texts hold (`encode_append_inj`).
-/

namespace RatExpr.Text.Quoted

variable (plain : Char → Bool)

/-! ## Hexadecimal numbers -/

/-- The value of a lower-case hexadecimal digit. -/
def digitValue (c : Char) : Nat :=
  if c.isDigit then c.toNat - '0'.toNat else c.toNat - 'a'.toNat + 10

/-- The number that hexadecimal digits write, the most significant first. -/
def hexValue (digits : List Char) : Nat :=
  digits.foldl (fun n c => 16 * n + digitValue c) 0

theorem digitValue_digitChar : ∀ d < 16, digitValue (Nat.digitChar d) = d := by decide

theorem hexValue_concat (digits : List Char) (c : Char) :
    hexValue (digits ++ [c]) = 16 * hexValue digits + digitValue c := by
  simp [hexValue]

/-- **A number is read back from its digits.** -/
theorem hexValue_toDigits (n : Nat) : hexValue (Nat.toDigits 16 n) = n := by
  induction n using Nat.strongRecOn with
  | _ n ih =>
      rcases Nat.lt_or_ge n 16 with hn | hn
      · rw [Nat.toDigits_of_lt_base hn, ← List.nil_append [n.digitChar], hexValue_concat,
          digitValue_digitChar n hn]
        exact Nat.zero_add n
      · calc hexValue (Nat.toDigits 16 n)
            = hexValue (Nat.toDigits 16 (n / 16) ++ [(n % 16).digitChar]) := by
              rw [Nat.toDigits_of_base_le (by decide) hn]
          _ = 16 * (n / 16) + n % 16 := by
              rw [hexValue_concat, ih (n / 16) (by omega),
                digitValue_digitChar _ (Nat.mod_lt n (by decide))]
          _ = n := Nat.div_add_mod n 16

/-! ## One character -/

/-- The character that a letter after a backslash stands for. -/
def ofLetter? : Char → Option Char
  | '"' => some '"'
  | '\\' => some '\\'
  | '0' => some '\x00'
  | 't' => some '\t'
  | 'n' => some '\n'
  | 'r' => some '\r'
  | _ => none

/-- The character of an escape, of which the backslash has been read, and what comes after it. -/
def readEscape : List Char → Option (Char × List Char)
  | 'u' :: '\x7b' :: cs =>
      some (Char.ofNat (hexValue (cs.takeWhile (· != '\x7d'))), (cs.dropWhile (· != '\x7d')).tail)
  | c :: cs => (ofLetter? c).map fun d => (d, cs)
  | [] => none

/-- The first character that is written between quotes, and what comes after it. -/
def readChar : List Char → Option (Char × List Char)
  | [] => none
  | c :: cs => if c = '\\' then readEscape cs else some (c, cs)

/-- A code point ends at the brace after its digits. -/
theorem readEscape_codePoint (c : Char) (rest : List Char) :
    readEscape ('u' :: '\x7b' :: (Nat.toDigits 16 c.toNat ++ '\x7d' :: rest)) = some (c, rest) := by
  have hdigits : ∀ d ∈ Nat.toDigits 16 c.toNat, (d != '\x7d') = true :=
    forall_mem_toDigits (by decide) c.toNat
  rw [readEscape, List.takeWhile_append_of_pos hdigits, List.dropWhile_append_of_pos hdigits,
    List.takeWhile_cons_of_neg (by decide), List.dropWhile_cons_of_neg (by decide),
    List.append_nil, hexValue_toDigits, Char.ofNat_toNat, List.tail_cons]

/-- **A character is read back,** whether it has been escaped or stands for itself. -/
theorem readChar_escape (c : Char) (rest : List Char) :
    readChar (escape plain c ++ rest) = some (c, rest) := by
  unfold escape
  split
  · rfl
  · rfl
  · rfl
  · rfl
  · rfl
  · rfl
  · -- a character without an escape of its own stands for itself or is written by its code point
    rename_i hbackslash _ _ _ _
    split
    · exact if_neg hbackslash
    · have hsplit : codePoint c ++ rest =
          '\\' :: 'u' :: '\x7b' :: (Nat.toDigits 16 c.toNat ++ '\x7d' :: rest) := by
        simp [codePoint]
      rw [hsplit]
      exact readEscape_codePoint c rest

/-- Only the closing quote is written as a quote. -/
theorem head?_escape_ne_quote (c : Char) (rest : List Char) :
    (escape plain c ++ rest).head? ≠ some '"' := by
  unfold escape
  split
  · simp
  · simp
  · simp
  · simp
  · simp
  · simp
  · rename_i hquote _ _ _ _ _
    split
    · simpa using hquote
    · simp [codePoint]

/-! ## The text between the quotes -/

theorem length_lt_of_readEscape {cs rest : List Char} {c : Char}
    (h : readEscape cs = some (c, rest)) : rest.length < cs.length := by
  unfold readEscape at h
  split at h
  · rename_i cs
    obtain ⟨-, rfl⟩ := Prod.mk.inj (Option.some.inj h)
    have hdrop := (List.dropWhile_suffix (l := cs) (· != '\x7d')).length_le
    simp only [List.length_tail, List.length_cons]
    omega
  · obtain ⟨d, -, hd⟩ := Option.map_eq_some_iff.1 h
    obtain ⟨-, rfl⟩ := Prod.mk.inj hd
    simp
  · simp at h

/-- Reading a character leaves less to read. -/
theorem length_lt_of_readChar {cs rest : List Char} {c : Char}
    (h : readChar cs = some (c, rest)) : rest.length < cs.length := by
  cases cs with
  | nil => simp [readChar] at h
  | cons d cs =>
      by_cases hd : d = '\\'
      · rw [readChar, if_pos hd] at h
        exact Nat.lt_succ_of_lt (length_lt_of_readEscape h)
      · rw [readChar, if_neg hd] at h
        obtain ⟨-, rfl⟩ := Prod.mk.inj (Option.some.inj h)
        exact Nat.lt_succ_self _

/-- The text that is written up to the closing quote, and what comes after that. -/
def readBody (cs : List Char) : Option (List Char × List Char) :=
  if cs.head? = some '"' then some ([], cs.tail)
  else match _h : readChar cs with
    | none => none
    | some (c, rest) => (readBody rest).map fun r => (c :: r.1, r.2)
termination_by cs.length
decreasing_by exact length_lt_of_readChar _h

theorem readBody_quote (rest : List Char) : readBody ('"' :: rest) = some ([], rest) := by
  rw [readBody]
  exact if_pos rfl

/-- Before the closing quote, the first character comes first. -/
theorem readBody_of_readChar {cs rest : List Char} {c : Char} (hquote : cs.head? ≠ some '"')
    (h : readChar cs = some (c, rest)) :
    readBody cs = (readBody rest).map fun r => (c :: r.1, r.2) := by
  rw [readBody, if_neg hquote]
  split <;> simp_all

theorem readBody_body (cs rest : List Char) :
    readBody (body plain cs ++ '"' :: rest) = some (cs, rest) := by
  induction cs with
  | nil => exact readBody_quote rest
  | cons c cs ih =>
      rw [body_cons, List.append_assoc, readBody_of_readChar (head?_escape_ne_quote plain c _)
        (readChar_escape plain c _), ih]
      rfl

/-! ## Quoted texts -/

/-- The text that is quoted at the front, and what comes after it. -/
def unquote : List Char → Option (List Char × List Char)
  | '"' :: cs => readBody cs
  | _ => none

/-- **A quoted text is read back,** whatever comes after it. -/
theorem unquote_encode (cs rest : List Char) :
    unquote (encode plain cs ++ rest) = some (cs, rest) := by
  rw [encode, List.cons_append, List.append_assoc]
  exact readBody_body plain cs rest

example : unquote "\"a\\\"\\u\x7b2028\x7d\" b".toList = some ("a\"\u2028".toList, " b".toList) := by
  decide +kernel

/-- Where texts start with quoted texts, these are the same, and so is what comes after them. -/
theorem encode_append_inj {cs cs' rest rest' : List Char} :
    encode plain cs ++ rest = encode plain cs' ++ rest' ↔ cs = cs' ∧ rest = rest' := by
  constructor
  · intro h
    have hread := congrArg unquote h
    rw [unquote_encode, unquote_encode] at hread
    exact Prod.mk.inj (Option.some.inj hread)
  · rintro ⟨rfl, rfl⟩
    rfl

end RatExpr.Text.Quoted

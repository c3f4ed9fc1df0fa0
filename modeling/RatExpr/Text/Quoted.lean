import RatExpr.Text.Printable

set_option autoImplicit false

/-! # Quoted text

A text is quoted by putting it between double quotes and escaping what could be mistaken:
the quote and the backslash, four controls with a letter of their own, and every other
character that does not stand for itself, by its code point in hexadecimal. Which
characters stand for themselves is a parameter (`plain`), also of the texts that hold quoted
ones; `quote` takes the printable characters.

The functions work on lists of characters, one character after the other (`body_cons`).
-/

namespace RatExpr.Text.Quoted

/-- The escape of a character by its code point, in lower-case hexadecimal digits. -/
def codePoint (c : Char) : List Char :=
  ['\\', 'u', '\x7b'] ++ Nat.toDigits 16 c.toNat ++ ['\x7d']

/-- How one character is written between quotes. Only a `plain` character that is neither
the quote nor the backslash stands for itself. -/
def escape (plain : Char → Bool) (c : Char) : List Char :=
  match c with
  | '"' => ['\\', '"']
  | '\\' => ['\\', '\\']
  | '\x00' => ['\\', '0']
  | '\t' => ['\\', 't']
  | '\n' => ['\\', 'n']
  | '\r' => ['\\', 'r']
  | c => if plain c then [c] else codePoint c

/-- The characters between the quotes. -/
def body (plain : Char → Bool) (cs : List Char) : List Char := cs.flatMap (escape plain)

/-- A text in double quotes. -/
def encode (plain : Char → Bool) (cs : List Char) : List Char :=
  '"' :: (body plain cs ++ ['"'])

/-- A text in double quotes in which only the `plain` characters stand for themselves. -/
def quoteBy (plain : Char → Bool) (s : String) : String := String.ofList (encode plain s.toList)

/-- A text in double quotes in which every character that is not printable is escaped. -/
def quote (s : String) : String := quoteBy isPrintable s

@[simp] theorem body_cons (plain : Char → Bool) (c : Char) (cs : List Char) :
    body plain (c :: cs) = escape plain c ++ body plain cs := rfl

/-- What holds of the sixteen hexadecimal digits holds of all the digits that a number is written
with. -/
theorem forall_mem_toDigits {P : Char → Prop} (hdigit : ∀ d < 16, P (Nat.digitChar d)) (n : Nat) :
    ∀ c ∈ Nat.toDigits 16 n, P c := by
  induction n using Nat.strongRecOn with
  | _ n ih =>
      intro c hc
      rcases Nat.lt_or_ge n 16 with hn | hn
      · rw [Nat.toDigits_of_lt_base hn, List.mem_singleton] at hc
        exact hc ▸ hdigit n hn
      · -- the last digit is split off
        rw [Nat.toDigits_of_base_le (by decide) hn, List.mem_append, List.mem_singleton] at hc
        rcases hc with hc | rfl
        · exact ih (n / 16) (by omega) c hc
        · exact hdigit (n % 16) (Nat.mod_lt n (by decide))

theorem toList_quoteBy (plain : Char → Bool) (s : String) :
    (quoteBy plain s).toList = encode plain s.toList := by
  simp [quoteBy]

example : encode (fun _ => true) "a\"b".toList = "\"a\\\"b\"".toList := by decide

example : encode (fun _ => false) "\t'".toList = "\"\\t\\u\x7b27\x7d\"".toList := by decide

end RatExpr.Text.Quoted

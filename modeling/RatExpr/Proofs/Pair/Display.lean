import RatExpr.Pair
import RatExpr.Proofs.Text.Unquoted

set_option autoImplicit false

/-! # What is shown says what it is shown of

Tokens, pairs and the errors of a side are shown as quoted texts and names among words that are
always the same. A name ends at the first character that no name has, and a quoted text ends where
it says. So nothing else is shown alike (`displays_unambiguous`), although the quoted texts may hold
the words between them, and whichever characters stand for themselves.
-/

namespace RatExpr

open Text.Quoted (encode toList_quoteBy encode_append_inj unquote unquote_encode)

/-- A name ends at the first character that names have none of. -/
theorem name_append_inj {name name' rest rest' : List Char} {c : Char} (hname : c ∉ name)
    (hname' : c ∉ name') :
    name ++ c :: rest = name' ++ c :: rest' ↔ name = name' ∧ rest = rest' := by
  constructor
  · intro h
    -- a name is what comes before the character
    have htake : ∀ w after : List Char, c ∉ w → (w ++ c :: after).takeWhile (· != c) = w := by
      intro w after hw
      have hne : ∀ d ∈ w, (d != c) = true := fun d hd => by
        simpa using ne_of_mem_of_not_mem hd hw
      rw [List.takeWhile_append_of_pos hne, List.takeWhile_cons_of_neg (by simp), List.append_nil]
    have hnames := congrArg (List.takeWhile (· != c)) h
    rw [htake name rest hname, htake name' rest' hname'] at hnames
    subst hnames
    exact ⟨rfl, (List.cons.inj (List.append_cancel_left h)).2⟩
  · rintro ⟨rfl, rfl⟩
    rfl

variable (plain : Char → Bool)

/-! ## Tokens -/

namespace Token

theorem Kind.comma_not_mem_name (kind : Kind) : ',' ∉ kind.name.toList := by
  cases kind <;> decide

theorem toList_displayBy (t : Token) :
    (t.displayBy plain).toList = "Jeton(".toList ++ (t.kind.name.toList ++
      ',' :: ' ' :: (encode plain t.text.toList ++ [')'])) := by
  unfold displayBy
  simp only [String.toList_append, toList_quoteBy, List.append_assoc]
  rfl

/-- **Tokens are shown alike if they are of one kind and one text.** -/
theorem displayBy_inj {s t : Token} :
    s.displayBy plain = t.displayBy plain ↔ s.kind = t.kind ∧ s.text = t.text := by
  rw [← String.toList_inj, toList_displayBy, toList_displayBy, List.append_cancel_left_eq,
    name_append_inj s.kind.comma_not_mem_name t.kind.comma_not_mem_name, List.cons_inj_right,
    encode_append_inj, String.toList_inj, String.toList_inj, Kind.name_inj]
  simp

end Token

/-! ## Pairs -/

namespace Pair

theorem toList_displayBy (p : Pair) :
    (p.displayBy plain).toList = "PaireExpr(num: ".toList ++ (encode plain p.numerator.toList ++
      (", denom: ".toList ++ (encode plain p.denominator.toList ++ [')']))) := by
  unfold displayBy
  simp only [String.toList_append, toList_quoteBy, List.append_assoc]
  rfl

/-- **Pairs are shown alike if they are the same.** -/
theorem displayBy_inj {p q : Pair} :
    p.displayBy plain = q.displayBy plain ↔
      p.numerator = q.numerator ∧ p.denominator = q.denominator := by
  rw [← String.toList_inj, toList_displayBy, toList_displayBy, List.append_cancel_left_eq,
    encode_append_inj, List.append_cancel_left_eq, encode_append_inj, String.toList_inj,
    String.toList_inj]
  simp

end Pair

/-! ## Errors of a side -/

theorem Side.name_inj {s s' : Side} : s.name = s'.name ↔ s = s' := by
  cases s <;> cases s' <;> simp [name]

theorem Side.space_not_mem_name (s : Side) : ' ' ∉ s.name.toList := by
  cases s <;> decide

namespace EvalError

theorem toList_messageBy_side (s : Side) (text : String) (cause : EvalError) :
    ((side s text cause).messageBy plain).toList = "évaluation du ".toList ++ (s.name.toList ++
      ' ' :: (encode plain text.toList ++ " impossible".toList)) := by
  have hstring (s : String) : toString s = s := rfl
  unfold messageBy
  simp only [hstring, String.toList_append, toList_quoteBy, List.append_assoc]
  rfl

/-- **Errors of a side have the same message if they are of one side and one text.** -/
theorem messageBy_side_inj {s s' : Side} {text text' : String} {cause cause' : EvalError} :
    (side s text cause).messageBy plain = (side s' text' cause').messageBy plain ↔
      s = s' ∧ text = text' := by
  rw [← String.toList_inj, toList_messageBy_side, toList_messageBy_side,
    List.append_cancel_left_eq, name_append_inj s.space_not_mem_name s'.space_not_mem_name,
    encode_append_inj, String.toList_inj, String.toList_inj, Side.name_inj]
  simp

end EvalError

/-- **Nothing else is shown alike,** whichever characters stand for themselves. A quoted text is read
back from the front of any text. Tokens that are shown alike are of one kind and one text, pairs
that are shown alike have the same two texts, and errors of a side that have the same message are of
one side and one text. -/
theorem displays_unambiguous :
    (∀ cs rest, unquote (encode plain cs ++ rest) = some (cs, rest)) ∧
    (∀ s t : Token, s.displayBy plain = t.displayBy plain ↔ s.kind = t.kind ∧ s.text = t.text) ∧
    (∀ p q : Pair, p.displayBy plain = q.displayBy plain ↔
      p.numerator = q.numerator ∧ p.denominator = q.denominator) ∧
    ∀ (s s' : Side) (text text' : String) (cause cause' : EvalError),
      (EvalError.side s text cause).messageBy plain =
          (EvalError.side s' text' cause').messageBy plain ↔ s = s' ∧ text = text' :=
  ⟨unquote_encode plain, fun _ _ => Token.displayBy_inj plain, fun _ _ => Pair.displayBy_inj plain,
    fun _ _ _ _ _ _ => EvalError.messageBy_side_inj plain⟩

end RatExpr

import SmtSession.Proofs.Reader.Layout
import SmtSession.Reader.Atom

/-!
# The classes of numerals, literals and keywords

**The class of an atom is decided by its text alone**, so each form must be shown to
have no other class: the digits of a number are a numeral, what begins with a colon
is a keyword, and what begins with a hash sign and a base is a literal of that base.

Numerals and literals have characters of their own, which no delimiter is among. So
each of them is one atom.
-/

namespace SmtSession

open Lexeme (IsAtomText)

/-- **Characters of a kind are one atom** if no delimiter is of that kind, and no carriage return. -/
theorem Lexeme.isAtomText_of_all {kind : Char → Bool}
    (others : [' ', '\t', '\n', '(', ')', '|', '"', ';', '\r'].any kind = false)
    {text : List Char} (some : text ≠ []) (all : ∀ c ∈ text, kind c = true) : IsAtomText text where
  nonempty := some
  inner := by
    intro c is
    refine Bool.eq_false_iff.mpr fun delimiter => ?_
    have listed : c ∈ [' ', '\t', '\n', '(', ')', '|', '"', ';', '\r'] := by
      simp only [Token.isDelimiter, Token.isLayout, Bool.or_eq_true, decide_eq_true_eq] at delimiter
      rcases delimiter with ((((((rfl | rfl) | rfl) | rfl) | rfl) | rfl) | rfl) | rfl <;> decide
    exact List.any_eq_false.mp others c listed (all c is)
  last := by
    intro last
    exact List.any_eq_false.mp others '\r' (by simp) (all '\r' (List.mem_of_getLast? last))

namespace AtomClass

/-! ## Numerals -/

theorem isDecimalDigit_of_isDigit {c : Char} (is : c.isDigit = true) : isDecimalDigit c = true := by
  simpa [Char.isDigit, isDecimalDigit, Char.le_def] using is

theorem toDigits_front (n : Nat) : n = 0 ∨ ∃ c cs, Nat.toDigits 10 n = c :: cs ∧ c ≠ '0' := by
  induction n using Nat.base_induction 10 (by decide) with
  | single n small =>
    rw [Nat.toDigits_of_lt_base small]
    rcases Nat.eq_zero_or_pos n with zero | positive
    · exact .inl zero
    · refine .inr ⟨_, _, rfl, ?_⟩
      intro same
      have code := Nat.toNat_digitChar_of_lt_ten small
      rw [same] at code
      have zero : '0'.toNat = 48 := rfl
      omega
  | digit n d small positive ih =>
    obtain ⟨c, cs, front, other⟩ := ih.resolve_left (Nat.ne_of_gt positive)
    refine .inr ⟨c, cs ++ Nat.toDigits 10 d, ?_, other⟩
    rw [← Nat.toDigits_append_toDigits (by decide) positive small, front]
    rfl

theorem isNumeral_toDigits (n : Nat) : isNumeral (Nat.toDigits 10 n) = true := by
  have digits : ∀ c ∈ Nat.toDigits 10 n, isDecimalDigit c = true := fun c is =>
    isDecimalDigit_of_isDigit (Nat.isDigit_of_mem_toDigits (by decide) (by decide) is)
  rcases toDigits_front n with rfl | ⟨c, cs, front, other⟩
  · rfl
  · rw [front] at digits ⊢
    obtain ⟨first, more⟩ := List.forall_mem_cons.mp digits
    rw [isNumeral]
    · simp [other, first, List.all_eq_true.mpr more]
    · exact fun same => absurd same other

theorem ofChars_toDigits (n : Nat) : ofChars (Nat.toDigits 10 n) = .numeral n := by
  have value : valueOf (Nat.toDigits 10 n) = n := by
    rw [valueOf, ← Nat.ofDigitChars_eq_foldl]
    exact Nat.ofDigitChars_ten_toDigits
  unfold ofChars
  rw [if_pos (isNumeral_toDigits n), value]

/-! ## Literals and keywords -/

theorem isDecimalDigit_of_isNumeral {cs : List Char} (is : isNumeral cs = true) :
    ∀ c ∈ cs, isDecimalDigit c = true := by
  unfold isNumeral at is
  split at is
  · cases is
  · exact List.forall_mem_singleton.mpr rfl
  · simp only [Bool.and_eq_true, List.all_eq_true] at is
    obtain ⟨⟨-, first⟩, more⟩ := is
    exact List.forall_mem_cons.mpr ⟨first, more⟩

/-- A decimal is a numeral, a point and more digits. -/
theorem isDecimal_parts {cs : List Char} (is : isDecimal cs = true) :
    ∃ whole places, cs = whole ++ '.' :: places ∧ (∀ c ∈ whole, isDecimalDigit c = true) ∧
      ∀ c ∈ places, isDecimalDigit c = true := by
  unfold isDecimal at is
  split at is
  · next places behind =>
    simp only [Bool.and_eq_true, List.all_eq_true] at is
    obtain ⟨⟨whole, -⟩, digits⟩ := is
    refine ⟨_, places, ?_, isDecimalDigit_of_isNumeral whole, digits⟩
    rw [← behind, List.takeWhile_append_dropWhile]
  · cases is

theorem ofChars_of_isDecimal {cs : List Char} (is : isDecimal cs = true) :
    ofChars cs = .decimal := by
  have other : isNumeral cs = false := by
    cases numeral : isNumeral cs with
    | false => rfl
    | true =>
      obtain ⟨whole, places, rfl, -⟩ := isDecimal_parts is
      exact absurd (isDecimalDigit_of_isNumeral numeral '.' (by simp)) (by decide)
  unfold ofChars
  rw [other, is]
  rfl

theorem isNumeral_of_front {c : Char} (other : isDecimalDigit c = false)
    (cs : List Char) : isNumeral (c :: cs) = false := by
  rw [isNumeral]
  · rw [other, Bool.and_false, Bool.false_and]
  · rintro rfl
    cases other

theorem isDecimal_of_front {c : Char} (other : isDecimalDigit c = false)
    (cs : List Char) : isDecimal (c :: cs) = false := by
  unfold isDecimal
  split
  · by_cases point : c = '.'
    · subst point
      rfl
    · rw [List.takeWhile_cons_of_pos (by simpa using point), isNumeral_of_front other]
      rfl
  · rfl

theorem ofChars_of_hex {cs : List Char} (some : cs ≠ []) (digits : ∀ c ∈ cs, isHexDigit c = true) :
    ofChars ('#' :: 'x' :: cs) = .hex (String.ofList cs) := by
  have found : based? 'x' isHexDigit ('#' :: 'x' :: cs) = .some cs := by
    simpa [based?, some] using digits
  unfold ofChars
  rw [isNumeral_of_front (by decide), isDecimal_of_front (by decide), found]
  rfl

theorem ofChars_of_binary {cs : List Char} (some : cs ≠ []) (digits : ∀ c ∈ cs, c = '0' ∨ c = '1') :
    ofChars ('#' :: 'b' :: cs) = .binary (String.ofList cs) := by
  have all : cs.all (fun c => c = '0' || c = '1') = true :=
    List.all_eq_true.mpr fun c is => by simpa using digits c is
  have found : based? 'b' (fun c => c = '0' || c = '1') ('#' :: 'b' :: cs) = .some cs := by
    rw [based?, all]
    simp [some]
  have other : based? 'x' isHexDigit ('#' :: 'b' :: cs) = none := rfl
  unfold ofChars
  rw [isNumeral_of_front (by decide), isDecimal_of_front (by decide), other, found]
  rfl

/-- A text that begins with a colon is a keyword. -/
theorem ofChars_of_colon (cs : List Char) : ofChars (':' :: cs) = .keyword := by
  unfold ofChars
  rw [isNumeral_of_front (by decide), isDecimal_of_front (by decide)]
  rfl

theorem digits_of_based? {letter : Char} {isDigit : Char → Bool} {cs digits : List Char}
    (found : based? letter isDigit cs = some digits) :
    digits ≠ [] ∧ ∀ c ∈ digits, isDigit c = true := by
  unfold based? at found
  split at found
  · split at found
    · next good =>
      cases found
      simp only [Bool.and_eq_true, Bool.not_eq_true', List.isEmpty_eq_false_iff,
        List.all_eq_true] at good
      exact ⟨good.1.2, good.2⟩
    · cases found
  · cases found

/-- What a class tells of the text. -/
def Tells (cs : List Char) : AtomClass → Prop
  | .decimal => isDecimal cs = true
  | .hex digits => digits.toList ≠ [] ∧ ∀ c ∈ digits.toList, isHexDigit c = true
  | .binary digits => digits.toList ≠ [] ∧ ∀ c ∈ digits.toList, c = '0' ∨ c = '1'
  | .keyword => cs.head? = some ':'
  | _ => True

theorem tells_ofChars (cs : List Char) : (ofChars cs).Tells cs := by
  unfold ofChars
  split
  · trivial
  split
  · assumption
  split
  · next digits found => simpa [Tells] using digits_of_based? found
  split
  · next digits found => simpa [Tells] using digits_of_based? found
  split
  · trivial
  split
  · next colon => exact congrArg some colon
  split <;> trivial

/-- A keyword begins with a colon. -/
theorem colon_of_ofChars {cs : List Char} (is : ofChars cs = .keyword) :
    cs.head? = some ':' := by
  have told := tells_ofChars cs
  rw [is] at told
  exact told

/-! ## Single atoms -/

/-- A character of numerals, decimals, and hexadecimal and binary literals. -/
def isLiteralChar (c : Char) : Bool :=
  isHexDigit c || c = '.' || c = '#' || c = 'x'

/-- What has such characters only is one atom. -/
theorem isAtomText_of_literal {text : List Char} (some : text ≠ [])
    (all : ∀ c ∈ text, isLiteralChar c = true) : IsAtomText text :=
  Lexeme.isAtomText_of_all (by decide) some all

theorem isLiteralChar_of_digit {c : Char} (is : isDecimalDigit c = true) :
    isLiteralChar c = true := by
  simp [isLiteralChar, isHexDigit, is]

end AtomClass

end SmtSession

import SmtSession.Proofs.Dialect.QuotedStrings
import SmtSession.Proofs.Text.Digits

/-!
# Digit characters where they are read

**A text of digit characters is one atom**, a numeral or none that is valid: `readTerm_of_isDigits`.
Numerals have the ten ASCII digits alone and no zero in front of others, so not every such text is
a numeral.
-/

namespace SmtSession

open Text (isDigitChar isDigits)

theorem Lexeme.isAtomText_of_isDigits {text : String} (digits : isDigits text = true) :
    IsAtomText text.toList := by
  obtain ⟨some, all⟩ := Text.isDigits_iff.mp digits
  exact isAtomText_of_all (by decide) some all

namespace AtomClass

/-- An integer that is not negative is written as a numeral. -/
theorem isNumeral_toString {n : Int} (digits : isDigits (toString n) = true) :
    isNumeral (toString n).toList = true := by
  obtain ⟨m, rfl⟩ := Int.eq_ofNat_of_zero_le ((Text.isDigits_toString n).mp digits)
  show isNumeral (Nat.repr m).toList = true
  rw [Nat.toList_repr]
  exact isNumeral_toDigits m

/-- **Digit characters that are no numeral are refused.** -/
theorem ofChars_of_isDigits {text : String} (digits : isDigits text = true) :
    ofChars text.toList =
      if isNumeral text.toList then .numeral (valueOf text.toList) else .invalid := by
  obtain ⟨some, all⟩ := Text.isDigits_iff.mp digits
  have plain : isDecimal text.toList = false := by
    refine Bool.eq_false_iff.mpr fun decimal => ?_
    obtain ⟨whole, places, split, -⟩ := isDecimal_parts decimal
    exact absurd (all '.' (by simp [split])) (by decide)
  obtain ⟨c, cs, front⟩ := List.exists_cons_of_ne_nil some
  rw [front] at plain all ⊢
  have first : isDigitChar c = true := all c List.mem_cons_self
  have hash : c ≠ '#' := by
    rintro rfl
    cases first
  have colon : c ≠ ':' := by
    rintro rfl
    cases first
  have unbased (letter : Char) (isDigit : Char → Bool) : based? letter isDigit (c :: cs) = none := by
    unfold based?
    split
    · next same => exact absurd (List.cons.inj same).1 hash
    · rfl
  unfold ofChars
  simp only [plain, unbased, colon, first, Bool.true_or, if_true, if_false]
  rfl

end AtomClass

/-- **A text of digit characters is read as a numeral, or not at all.** -/
theorem readTerm_of_isDigits {text : String} (digits : isDigits text = true)
    (location : Option String) :
    let source : Source := ⟨text, location⟩
    let whole : Pos := ⟨0, text.length, some source⟩
    readTerm source =
      if AtomClass.isNumeral text.toList then
        .ok (.numeral (AtomClass.valueOf text.toList) (some whole))
      else .error (.malformed (.invalidToken text) whole) := by
  intro source whole
  have tokens : source.tokenize = ⟨[⟨.plain text, 0, text.length⟩], .finished text.length⟩ := by
    have one := Token.tokenizeFrom_last (l := .plain text)
      (Lexeme.isAtomText_of_isDigits digits) trivial 0
    rw [show (Lexeme.plain text).chars = text.toList from rfl, String.length_toList,
      Nat.zero_add] at one
    exact one
  have term (input : Reader.Input) : Reader.term input [⟨.plain text, 0, text.length⟩] =
      if AtomClass.isNumeral text.toList then
        .done (.numeral (AtomClass.valueOf text.toList)
          (some ⟨0, text.length, some input.source⟩)) []
      else .failed (.malformed (.invalidToken text) ⟨0, text.length, some input.source⟩) [] := by
    have class_ := AtomClass.ofChars_of_isDigits digits
    show Reader.plainTerm ⟨.plain text, 0, text.length⟩ input [] = _
    cases numeral : AtomClass.isNumeral text.toList <;>
    · rw [numeral] at class_
      simp only [Reader.plainTerm, Reader.atom, class_, bind, if_true]
      rfl
  unfold readTerm Reader.readAll
  simp only [tokens, bind, term]
  cases AtomClass.isNumeral text.toList <;> rfl

end SmtSession

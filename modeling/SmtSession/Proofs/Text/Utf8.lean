import SmtSession.Text.Utf8

/-!
# Texts and their bytes

`Text.Utf8.encode` reads a text's bytes off one behind the other. They are the bytes that
the text is made of, so the laws of byte arrays hold of them.
-/

namespace SmtSession.Text.Utf8

/-- The bytes that are read off from a place on come behind those read before. -/
theorem toList_loop (bytes : ByteArray) (i : Nat) (read : List UInt8) :
    ByteArray.toList.loop bytes i read = read.reverse ++ bytes.data.toList.drop i := by
  have length : bytes.data.toList.length = bytes.size := rfl
  induction left : bytes.size - i generalizing i read with
  | zero =>
    have past : bytes.data.toList.length ≤ i := by omega
    rw [ByteArray.toList.loop, if_neg (by omega), List.drop_eq_nil_of_le past, List.append_nil]
  | succ n ih =>
    have inside : i < bytes.data.toList.length := by omega
    have read_off : bytes.get! i = bytes.data.toList[i] := getElem!_pos bytes.data i inside
    rw [ByteArray.toList.loop, if_pos (by omega), ih (i + 1) _ (by omega), read_off,
      List.drop_eq_getElem_cons inside, List.reverse_cons, List.append_assoc, List.singleton_append]

theorem toList_eq (bytes : ByteArray) : bytes.toList = bytes.data.toList := by
  rw [ByteArray.toList, toList_loop, List.reverse_nil, List.nil_append, List.drop_zero]

/-- The bytes of a text are its own. -/
theorem encode_eq (text : String) : encode text = text.toByteArray.data.toList := by
  rw [encode, toList_eq, String.toUTF8_eq_toByteArray]

theorem encode_ne_nil {text : String} (nonempty : text ≠ "") : encode text ≠ [] := by
  intro nothing
  have none : text.toByteArray.size = 0 := by
    rw [encode_eq] at nothing
    exact congrArg List.length nothing
  exact nonempty (String.toByteArray_eq_empty_iff.mp (ByteArray.size_eq_zero_iff.mp none))

end SmtSession.Text.Utf8

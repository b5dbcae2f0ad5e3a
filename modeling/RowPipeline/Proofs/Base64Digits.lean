import RowPipeline.Text.Codes

/-!
Reading base64 digits back. Every byte sequence has digits from which it is read again, whatever its
length leaves over after groups of three, and no digit is a point.
-/

namespace RowPipeline

namespace Base64

theorem value?_digit {value : Nat} (bound : value < 64) : value? (digit value) = some value := by
  decide +revert +kernel

theorem point_ne_digit {value : Nat} (bound : value < 64) : '.' ≠ digit value := by
  decide +revert +kernel

theorem byte_eq {value : Nat} (original : UInt8) (same : value = original.toNat) :
    byte value = original := by
  rw [byte, same, UInt8.ofNat_toNat]

/-- The unused bits of a last digit are zero, and the bits of a byte are found in two digits. -/
theorem decode_encode (bytes : List UInt8) : decode (encode bytes) = some bytes := by
  fun_induction encode bytes with
  | case1 => rfl
  | case2 first =>
    have bound := first.toNat_lt
    have unused : first.toNat % 4 * 16 % 16 = 0 := by omega
    simp (disch := omega) only [decode, value?_digit, Option.bind_eq_bind, Option.bind_some,
      unused, if_true]
    rw [byte_eq first (by omega)]
  | case3 first second =>
    have bound := first.toNat_lt
    have bound' := second.toNat_lt
    have unused : second.toNat % 16 * 4 % 4 = 0 := by omega
    simp (disch := omega) only [decode, value?_digit, Option.bind_eq_bind, Option.bind_some,
      unused, if_true]
    rw [byte_eq first (by omega), byte_eq second (by omega)]
  | case4 first second third rest ih =>
    have bound := first.toNat_lt
    have bound' := second.toNat_lt
    have bound'' := third.toNat_lt
    simp (disch := omega) only [decode, value?_digit, Option.bind_eq_bind, Option.bind_some, ih]
    rw [byte_eq first (by omega), byte_eq second (by omega),
      byte_eq third (by omega)]

theorem point_not_mem_encode (bytes : List UInt8) : '.' ∉ encode bytes := by
  fun_induction encode bytes with
  | case1 => exact List.not_mem_nil
  | case2 first =>
    have bound := first.toNat_lt
    simp (disch := omega) only [List.mem_cons, List.not_mem_nil, point_ne_digit, or_self,
      not_false_eq_true]
  | case3 first second =>
    have bound := first.toNat_lt
    have bound' := second.toNat_lt
    simp (disch := omega) only [List.mem_cons, List.not_mem_nil, point_ne_digit, or_self,
      not_false_eq_true]
  | case4 first second third rest ih =>
    have bound := first.toNat_lt
    have bound' := second.toNat_lt
    have bound'' := third.toNat_lt
    simp (disch := omega) only [List.mem_cons, point_ne_digit, ih, or_self, not_false_eq_true]

/-- The loop that lists the bytes has those before `index`, in reverse, and adds the others. -/
theorem toList_loop (bytes : ByteArray) (index : Nat) (listed : List UInt8) :
    ByteArray.toList.loop bytes index listed = listed.reverse ++ bytes.data.toList.drop index := by
  fun_induction ByteArray.toList.loop bytes index listed with
  | case1 index listed inside ih =>
    have here : index < bytes.data.toList.length := inside
    have byte : bytes.get! index = bytes.data.toList[index] := getElem!_pos bytes.data index inside
    rw [ih, List.drop_eq_getElem_cons here, byte, List.reverse_cons, List.append_assoc,
      List.singleton_append]
  | case2 index listed outside =>
    rw [List.drop_eq_nil_of_le (Nat.le_of_not_lt outside), List.append_nil]

private theorem mk_toArray_toList (bytes : ByteArray) : ⟨bytes.toList.toArray⟩ = bytes := by
  rw [ByteArray.toList, toList_loop]
  rfl

theorem decodeText?_encodeText (text : String) : decodeText? (encodeText text) = some text := by
  rw [decodeText?, encodeText, String.toList_ofList, decode_encode, Option.bind_eq_bind,
    Option.bind_some, mk_toArray_toList]
  simp only [String.fromUTF8?, String.toUTF8_eq_toByteArray, dif_pos text.isValidUTF8]
  rfl

end Base64

end RowPipeline

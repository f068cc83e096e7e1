import SwitchShell.Text.Bytes

namespace SwitchShell.Text

variable {c : Char} {cs : List Char} {byte : UInt8}

/-- The UTF-8 form of characters. -/
def encode (cs : List Char) : Bytes :=
  cs.flatMap String.utf8EncodeChar

@[simp] theorem encode_nil : encode [] = [] := rfl

@[simp] theorem encode_cons : encode (c :: cs) = String.utf8EncodeChar c ++ encode cs := rfl

@[simp] theorem encode_append (first second : List Char) :
    encode (first ++ second) = encode first ++ encode second :=
  List.flatMap_append

theorem bytes_ofList (cs : List Char) : bytes (String.ofList cs) = encode cs := by
  simp only [bytes, String.toByteArray_ofList, List.utf8Encode, List.data_toByteArray, encode]

theorem ofBytes?_encode (cs : List Char) : ofBytes? (encode cs) = some (String.ofList cs) := by
  rw [← bytes_ofList, ofBytes?_bytes]

theorem utf8EncodeChar_of_lt (ascii : c.toNat < 0x80) : String.utf8EncodeChar c = [byteOf c] := by
  have small : c.val.toNat ≤ 0x7f := Nat.le_of_lt_succ ascii
  unfold String.utf8EncodeChar
  rw [if_pos small]
  rfl

theorem encode_ascii (ascii : ∀ c ∈ cs, c.toNat < 0x80) : encode cs = cs.map byteOf := by
  induction cs with
  | nil => rfl
  | cons c cs ih =>
      rw [encode_cons, utf8EncodeChar_of_lt (ascii c List.mem_cons_self), List.map_cons,
        ih fun other member => ascii other (List.mem_cons_of_mem c member)]
      rfl

theorem byteOf_toNat (ascii : c.toNat < 0x80) : (byteOf c).toNat = c.toNat := by
  unfold byteOf
  rw [UInt8.toNat_ofNat']
  omega

theorem le_of_mem_utf8EncodeChar (wide : 0x80 ≤ c.toNat)
    (member : byte ∈ String.utf8EncodeChar c) : 0x80 ≤ byte.toNat := by
  have large : ¬ c.val.toNat ≤ 0x7f := Nat.not_le.mpr wide
  unfold String.utf8EncodeChar at member
  simp only [if_neg large] at member
  split at member
  · simp only [List.mem_cons, List.not_mem_nil, or_false] at member
    rcases member with rfl | rfl <;> simp only [UInt8.toNat_ofNat'] <;> omega
  · split at member
    · simp only [List.mem_cons, List.not_mem_nil, or_false] at member
      rcases member with rfl | rfl | rfl <;> simp only [UInt8.toNat_ofNat'] <;> omega
    · simp only [List.mem_cons, List.not_mem_nil, or_false] at member
      rcases member with rfl | rfl | rfl | rfl <;> simp only [UInt8.toNat_ofNat'] <;> omega

end SwitchShell.Text

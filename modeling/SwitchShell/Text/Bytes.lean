namespace SwitchShell.Text

abbrev Bytes := List UInt8

/-- The UTF-8 form of a text. -/
def bytes (text : String) : Bytes :=
  text.toByteArray.data.toList

/-- The text whose UTF-8 form is given, if there is one. -/
def ofBytes? (input : Bytes) : Option String :=
  String.fromUTF8? ⟨input.toArray⟩

theorem ofBytes?_bytes (text : String) : ofBytes? (bytes text) = some text := by
  simp [ofBytes?, bytes, String.fromUTF8?, text.isValidUTF8, String.fromUTF8]

/-- The byte of an ASCII character. -/
def byteOf (c : Char) : UInt8 :=
  c.toNat.toUInt8

end SwitchShell.Text

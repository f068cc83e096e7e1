import SwitchShell.Json.Printer
import SwitchShell.Proofs.Json.Reads
import SwitchShell.Proofs.Text.Encoding

namespace SwitchShell.Json

open Text (Bytes byteOf encode)

variable {bound fuel : Nat} {c : Char} {cs : List Char} {text gathered : Bytes} {result : String}

/-- A byte that stands for itself inside quotes. -/
def isPlainByte (byte : UInt8) : Bool :=
  0x20 ≤ byte && byte != byteOf '"' && byte != byteOf '\\'

/-- Plain bytes are gathered one by one. -/
theorem reads_plain {plain : Bytes} (each : ∀ byte ∈ plain, isPlainByte byte = true)
    (enough : bound ≤ fuel)
    (onward : ∀ bound fuel, bound ≤ fuel →
      Reads false bound (readString fuel (plain.reverse ++ gathered)) text result) :
    Reads false bound (readString fuel gathered) (plain ++ text) result := by
  induction plain generalizing bound fuel gathered with
  | nil => exact onward bound fuel enough
  | cons byte plain ih =>
      cases fuel with
      | zero =>
          cases Nat.le_zero.mp enough
          exact .zero rfl (List.cons_ne_nil _ _)
      | succ fuel =>
          have others : ∀ other ∈ plain, isPlainByte other = true := fun other member =>
            each other (List.mem_cons_of_mem byte member)
          have gathers : Reads false (bound - 1) (readString fuel (byte :: gathered))
              (plain ++ text) result :=
            ih others (Nat.sub_le_of_le_add enough) (by simpa using onward)
          refine .byte rfl (fun rest => ?_) gathers
          have plainByte := each byte List.mem_cons_self
          simp only [isPlainByte, Bool.and_eq_true, decide_eq_true_eq, bne_iff_ne] at plainByte
          obtain ⟨⟨printable, quote⟩, slash⟩ := plainByte
          rw [readString, if_neg quote, if_neg slash, if_neg (UInt8.not_lt.mpr printable)]

/-- An escape stands for one character. -/
theorem reads_escape {escape : Bytes}
    (spelled : ∀ bound, Reads false bound readEscape escape c) (enough : bound ≤ fuel)
    (onward : ∀ bound fuel, bound ≤ fuel →
      Reads false bound (readString fuel ((String.utf8EncodeChar c).reverse ++ gathered)) text
        result) :
    Reads false bound (readString fuel gathered) (byteOf '\\' :: escape ++ text) result := by
  cases fuel with
  | zero =>
      cases Nat.le_zero.mp enough
      exact .zero rfl (List.cons_ne_nil _ _)
  | succ fuel =>
      have takes : ∀ rest, readString (fuel + 1) gathered (byteOf '\\' :: rest) =
          (readEscape rest).bind fun c rest =>
            readString fuel ((String.utf8EncodeChar c).reverse ++ gathered) rest := fun _ => rfl
      refine .byte rfl takes ?_
      exact (spelled _).bind (onward _ _ (by omega)) fun impossible => by contradiction

theorem hexValue?_hexDigit : ∀ value < 16, hexValue? (byteOf (hexDigit value)) = some value := by
  decide

theorem hexDigit_lt : ∀ value < 16, (hexDigit value).toNat < 0x80 := by
  decide

/-- The escape of a control character by its number. -/
theorem reads_code (control : c.toNat < 0x20) :
    Reads false bound readEscape
      [byteOf 'u', byteOf '0', byteOf '0', byteOf (hexDigit (c.toNat / 16)),
        byteOf (hexDigit (c.toNat % 16))] c := by
  have takes : ∀ rest, readEscape (byteOf 'u' :: rest) = readCode rest := fun _ => rfl
  refine .byte rfl takes ⟨fun rest _ _ => ?_, ?_⟩
  · have high := hexValue?_hexDigit (c.toNat / 16) (by omega)
    have low := hexValue?_hexDigit (c.toNat % 16) (by omega)
    have zero : hexValue? (byteOf '0') = some 0 := rfl
    have code : ((0 * 16 + 0) * 16 + c.toNat / 16) * 16 + c.toNat % 16 = c.toNat := by omega
    have lone : (0xDC00 ≤ c.toNat && c.toNat ≤ 0xDFFF) = false := by simp; omega
    have first : (0xD800 ≤ c.toNat && c.toNat ≤ 0xDBFF) = false := by simp; omega
    simp only [readCode, List.cons_append, List.nil_append, readHex, high, low, zero, Reading.bind,
      code, lone, first, Bool.false_eq_true, ↓reduceIte, Char.ofNat_toNat]
  · intro front behind split more _
    refine .inl ?_
    have short := congrArg List.length split
    have missing := List.length_pos_iff.mpr more
    simp only [List.length_append, List.length_cons, List.length_nil] at short
    match front with
    | [] | [_] | [_, _] | [_, _, _] => rfl
    | _ :: _ :: _ :: _ :: _ =>
        simp only [List.length_cons] at short
        omega

theorem isPlainByte_of_mem {byte : UInt8} (quote : c ≠ '"') (slash : c ≠ '\\')
    (printable : ¬ c.toNat < 0x20) (member : byte ∈ String.utf8EncodeChar c) :
    isPlainByte byte = true := by
  have code : 0x20 ≤ byte.toNat ∧ byte.toNat ≠ 0x22 ∧ byte.toNat ≠ 0x5C := by
    by_cases ascii : c.toNat < 0x80
    · rw [Text.utf8EncodeChar_of_lt ascii, List.mem_singleton] at member
      rw [member, Text.byteOf_toNat ascii]
      exact ⟨Nat.le_of_not_lt printable, fun same => quote (Char.toNat_inj.mp same),
        fun same => slash (Char.toNat_inj.mp same)⟩
    · have high := Text.le_of_mem_utf8EncodeChar (Nat.le_of_not_lt ascii) member
      omega
  simp only [isPlainByte, Bool.and_eq_true, decide_eq_true_eq, bne_iff_ne, UInt8.le_iff_toNat_le,
    ne_eq, ← UInt8.toNat_inj]
  exact ⟨⟨code.1, code.2.1⟩, code.2.2⟩

/-- The characters that have an escape of one letter. -/
theorem exists_letter :
    ∀ c ∈ ['"', '\\', '\x08', '\x0c', '\n', '\r', '\t'], ∃ letter : UInt8,
      encode (escaped c) = [byteOf '\\', letter] ∧
        ∀ rest, readEscape (letter :: rest) = .complete c rest := by
  simp only [List.forall_mem_cons, List.not_mem_nil, false_implies, implies_true, and_true]
  exact ⟨⟨_, rfl, fun _ => rfl⟩, ⟨_, rfl, fun _ => rfl⟩, ⟨_, rfl, fun _ => rfl⟩,
    ⟨_, rfl, fun _ => rfl⟩, ⟨_, rfl, fun _ => rfl⟩, ⟨_, rfl, fun _ => rfl⟩, ⟨_, rfl, fun _ => rfl⟩⟩

theorem encode_escaped_control (control : c.toNat < 0x20) :
    encode ['\\', 'u', '0', '0', hexDigit (c.toNat / 16), hexDigit (c.toNat % 16)] =
      byteOf '\\' :: [byteOf 'u', byteOf '0', byteOf '0', byteOf (hexDigit (c.toNat / 16)),
        byteOf (hexDigit (c.toNat % 16))] := by
  refine Text.encode_ascii fun written member => ?_
  simp only [List.mem_cons, List.not_mem_nil, or_false] at member
  rcases member with rfl | rfl | rfl | rfl | rfl | rfl
  · decide
  · decide
  · decide
  · decide
  · exact hexDigit_lt _ (by omega)
  · exact hexDigit_lt _ (by omega)

/-- A character is read from its form inside quotes. -/
theorem reads_escaped (enough : bound ≤ fuel)
    (onward : ∀ bound fuel, bound ≤ fuel →
      Reads false bound (readString fuel ((String.utf8EncodeChar c).reverse ++ gathered)) text
        result) :
    Reads false bound (readString fuel gathered) (encode (escaped c) ++ text) result := by
  by_cases lettered : c ∈ ['"', '\\', '\x08', '\x0c', '\n', '\r', '\t']
  · obtain ⟨letter, written, spelled⟩ := exists_letter c lettered
    rw [written]
    exact reads_escape (fun _ => .byte rfl spelled (.done fun _ => rfl)) enough onward
  · simp only [List.mem_cons, List.not_mem_nil, or_false, not_or] at lettered
    obtain ⟨quote, slash, backspace, formFeed, lineFeed, carriageReturn, tab⟩ := lettered
    simp only [escaped, quote, slash, backspace, formFeed, lineFeed, carriageReturn, tab, ↓reduceIte]
    by_cases control : c.toNat < 0x20
    · rw [if_pos control, encode_escaped_control control]
      exact reads_escape (fun _ => reads_code control) enough onward
    · rw [if_neg control, Text.encode_cons, Text.encode_nil, List.append_nil]
      exact reads_plain (fun byte => isPlainByte_of_mem quote slash control) enough onward

/-- The characters of a string and the closing quote. -/
theorem reads_body (enough : bound ≤ fuel)
    (written : Text.ofBytes? (gathered.reverse ++ encode cs) = some result) :
    Reads false bound (readString fuel gathered)
      (encode (cs.flatMap escaped) ++ [byteOf '"']) result := by
  induction cs generalizing bound fuel gathered with
  | nil =>
      cases fuel with
      | zero =>
          cases Nat.le_zero.mp enough
          exact .zero rfl (List.cons_ne_nil _ _)
      | succ fuel =>
          rw [Text.encode_nil, List.append_nil] at written
          have takes : ∀ rest, readString (fuel + 1) gathered (byteOf '"' :: rest) =
              .complete result rest := by
            intro rest
            rw [readString, if_pos rfl, written]
          exact .byte rfl takes (.done fun _ => rfl)
  | cons c cs ih =>
      rw [List.flatMap_cons, Text.encode_append, List.append_assoc]
      refine reads_escaped enough fun bound fuel enough => ih enough ?_
      rw [List.reverse_append, List.reverse_reverse, List.append_assoc]
      exact written

/-- A string behind its opening quote. -/
theorem reads_string (text : String) :
    Reads false bound (fun rest => readString (rest.length + 1) [] rest)
      (encode (text.toList.flatMap escaped) ++ [byteOf '"']) text := by
  refine .ofLength (fun size => readString (size + 1) []) fun size =>
    reads_body (Nat.le_succ size) ?_
  rw [List.reverse_nil, List.nil_append, Text.ofBytes?_encode, String.ofList_toList]

end SwitchShell.Json

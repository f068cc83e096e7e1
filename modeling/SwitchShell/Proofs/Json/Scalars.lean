import Mathlib.Algebra.Group.Nat.Defs
import SwitchShell.Json.Printer
import SwitchShell.Proofs.Json.Reads
import SwitchShell.Proofs.Text.Encoding

namespace SwitchShell.Json

open Text (Bytes byteOf encode)

variable {bound fuel depth : Nat} {c : Char} {cs : List Char} {text gathered : Bytes}

theorem reads_literal {value : Json} (word : Bytes) :
    Reads false bound (readLiteral value word) word value := by
  induction word generalizing bound with
  | nil => exact .done fun _ => rfl
  | cons expected more ih =>
      refine .byte rfl (fun rest => ?_) ih
      rw [readLiteral, if_pos rfl]

/-- The number that digits write, behind the digits of another number. -/
def numberOf (digits : Bytes) (start : Nat) : Nat :=
  digits.foldl (fun number digit => 10 * number + (digit.toNat - 0x30)) start

theorem numberOf_append (front behind : Bytes) (start : Nat) :
    numberOf (front ++ behind) start = numberOf behind (numberOf front start) :=
  List.foldl_append

theorem le_numberOf (digits : Bytes) (start : Nat) : start ≤ numberOf digits start := by
  induction digits generalizing start with
  | nil => exact Nat.le_refl start
  | cons digit digits ih =>
      have grown := ih (10 * start + (digit.toNat - 0x30))
      change start ≤ numberOf digits (10 * start + (digit.toNat - 0x30))
      omega

theorem mul_le_numberOf (digits : Bytes) (start : Nat) :
    start * 10 ^ digits.length ≤ numberOf digits start := by
  induction digits generalizing start with
  | nil => exact Nat.le_of_eq (Nat.mul_one start)
  | cons digit digits ih =>
      calc start * 10 ^ (digits.length + 1) = 10 * start * 10 ^ digits.length := by
            rw [Nat.pow_succ, Nat.mul_comm 10 start, Nat.mul_assoc, Nat.mul_comm 10]
        _ ≤ (10 * start + (digit.toNat - 0x30)) * 10 ^ digits.length :=
            Nat.mul_le_mul_right _ (Nat.le_add_right _ _)
        _ ≤ numberOf (digit :: digits) start := ih _

theorem numberOf_lt {digits : Bytes} (digit : ∀ byte ∈ digits, isDigitByte byte = true) (start : Nat) :
    numberOf digits start < (start + 1) * 10 ^ digits.length := by
  induction digits generalizing start with
  | nil => exact Nat.lt_of_lt_of_eq (Nat.lt_succ_self start) (Nat.mul_one _).symm
  | cons byte digits ih =>
      have bounds := digit byte List.mem_cons_self
      simp only [isDigitByte, Bool.and_eq_true, decide_eq_true_eq, UInt8.le_iff_toNat_le] at bounds
      have upper : byte.toNat ≤ 0x39 := bounds.2
      calc numberOf (byte :: digits) start
          < (10 * start + (byte.toNat - 0x30) + 1) * 10 ^ digits.length :=
            ih (fun other member => digit other (List.mem_cons_of_mem byte member)) _
        _ ≤ (start + 1) * 10 * 10 ^ digits.length := Nat.mul_le_mul_right _ (by omega)
        _ = (start + 1) * 10 ^ (digits.length + 1) := by
            rw [Nat.pow_succ, Nat.mul_comm (10 ^ digits.length), Nat.mul_assoc]

theorem appendDigits_eq {digits : Bytes} {start : Nat}
    (fits : numberOf digits start ≤ Text.maxUnsigned64) :
    appendDigits start digits = (numberOf digits start, []) := by
  induction digits generalizing start with
  | nil => rfl
  | cons digit digits ih =>
      have grown := le_numberOf digits (10 * start + (digit.toNat - 0x30))
      rw [appendDigits, if_pos (Nat.le_trans grown fits)]
      exact ih fits

/-- Digits as a number is written: one at least, and none after a zero in front. -/
structure Numeral (digits : Bytes) : Prop where
  digit : ∀ byte ∈ digits, isDigitByte byte = true
  nonempty : digits ≠ []
  noZero : digits.head? = some 0x30 → digits = [0x30]

theorem Numeral.of_append {front behind : Bytes} (numeral : Numeral (front ++ behind))
    (more : behind ≠ []) (some : front ≠ []) : Numeral front where
  digit byte member := numeral.digit byte (List.mem_append_left behind member)
  nonempty := some
  noZero zero := by
    have single := numeral.noZero (by rw [List.head?_append, zero]; rfl)
    have size := congrArg List.length single
    have frontSize := List.length_pos_iff.mpr some
    have behindSize := List.length_pos_iff.mpr more
    rw [List.length_append, List.length_singleton] at size
    omega

/-- Digits behind a number that is not zero. -/
theorem Numeral.append_of_pos {front behind : Bytes} (numeral : Numeral front)
    (positive : 0 < numberOf front 0) (digit : ∀ byte ∈ behind, isDigitByte byte = true) :
    Numeral (front ++ behind) where
  digit byte member := (List.mem_append.mp member).elim (numeral.digit byte) (digit byte)
  nonempty := by simp [numeral.nonempty]
  noZero zero := by
    obtain ⟨first, others, rfl⟩ := List.exists_cons_of_ne_nil numeral.nonempty
    rw [numeral.noZero zero] at positive
    contradiction

theorem wholeNumber_complete (negative : Bool) (number : Nat) :
    ∃ value, ∀ rest, wholeNumber negative number rest = .complete value rest := by
  unfold wholeNumber
  split
  · split
    · exact ⟨_, fun _ => rfl⟩
    · exact ⟨_, fun _ => rfl⟩
  · exact ⟨_, fun _ => rfl⟩

theorem readTail_eq {negative : Bool} {number : Nat} {rest : Bytes} (delimits : Delimits rest) :
    readTail negative number rest = wholeNumber negative number rest := by
  cases rest with
  | nil => rfl
  | cons next rest =>
      have ends := delimits next rfl
      simp only [continuesNumber, Bool.or_eq_false_iff, decide_eq_false_iff_not] at ends
      obtain ⟨⟨⟨_, point⟩, lower⟩, upper⟩ := ends
      simp [readTail, point, lower, upper]

/-- No digit follows. -/
def NoDigit (rest : Bytes) : Prop :=
  ∀ byte ∈ rest.head?, isDigitByte byte = false

theorem Delimits.noDigit {rest : Bytes} (delimits : Delimits rest) : NoDigit rest := by
  intro byte member
  have ends := delimits byte member
  simp only [continuesNumber, Bool.or_eq_false_iff] at ends
  exact ends.1.1.1

theorem NoDigit.of_append {front behind : Bytes} (ends : NoDigit (front ++ behind)) : NoDigit front := by
  cases front with
  | nil => exact delimits_nil.noDigit
  | cons head front => exact ends

theorem NoDigit.append {front behind : Bytes} (ends : NoDigit front) (delimits : Delimits behind) :
    NoDigit (front ++ behind) := by
  cases front with
  | nil => exact delimits.noDigit
  | cons head front => exact ends

/-- A run of digits is all the digits there are. -/
theorem span_digits {digits rest : Bytes} (digit : ∀ byte ∈ digits, isDigitByte byte = true)
    (ends : NoDigit rest) :
    (digits ++ rest).takeWhile isDigitByte = digits ∧
      (digits ++ rest).dropWhile isDigitByte = rest := by
  have stops : rest.takeWhile isDigitByte = [] ∧ rest.dropWhile isDigitByte = rest := by
    cases rest with
    | nil => exact ⟨rfl, rfl⟩
    | cons next rest => simp [ends next rfl]
  rw [List.takeWhile_append_of_pos digit, List.dropWhile_append_of_pos digit, stops.1, stops.2,
    List.append_nil]
  exact ⟨rfl, rfl⟩

theorem readNumber_append {negative : Bool} {digits rest : Bytes} (numeral : Numeral digits)
    (fits : numberOf digits 0 ≤ Text.maxUnsigned64) (ends : NoDigit rest) :
    readNumber negative (digits ++ rest) = readTail negative (numberOf digits 0) rest := by
  obtain ⟨taken, dropped⟩ := span_digits numeral.digit ends
  cases digits with
  | nil => exact absurd rfl numeral.nonempty
  | cons first digits =>
      by_cases zero : first = byteOf '0'
      · have single := numeral.noZero (by rw [zero]; rfl)
        cases single
        cases rest with
        | nil => rfl
        | cons next rest =>
            simp only [List.cons_append, List.nil_append, readNumber, ends next rfl]
            rfl
      · rw [List.cons_append] at taken dropped ⊢
        simp only [readNumber, if_neg zero, numeral.digit first List.mem_cons_self, ↓reduceIte,
          taken, dropped, appendDigits_eq fits]

theorem readNumber_eq {negative : Bool} {digits rest : Bytes} (numeral : Numeral digits)
    (fits : numberOf digits 0 ≤ Text.maxUnsigned64) (delimits : Delimits rest) :
    readNumber negative (digits ++ rest) = wholeNumber negative (numberOf digits 0) rest := by
  rw [readNumber_append numeral fits delimits.noDigit, readTail_eq delimits]

/-- A number is read up to a byte that ends it. -/
theorem reads_numeral {negative : Bool} {digits : Bytes} {value : Json}
    (numeral : Numeral digits) (fits : numberOf digits 0 ≤ Text.maxUnsigned64)
    (gives : ∀ rest, wholeNumber negative (numberOf digits 0) rest = .complete value rest) :
    Reads true bound (readNumber negative) digits value where
  whole rest _ delimits := by
    rw [readNumber_eq numeral fits (delimits rfl), gives]
  part front behind split more _ := by
    by_cases empty : front = []
    · exact .inl (empty ▸ rfl)
    · subst split
      rw [numberOf_append] at fits
      have smaller := Nat.le_trans (le_numberOf behind (numberOf front 0)) fits
      have content : readNumber negative (front ++ []) =
          wholeNumber negative (numberOf front 0) [] :=
        readNumber_eq (numeral.of_append more empty) smaller delimits_nil
      rw [List.append_nil] at content
      obtain ⟨other, complete⟩ := wholeNumber_complete negative (numberOf front 0)
      exact .inr ⟨rfl, other, content.trans (complete [])⟩

/-- The ASCII digits of a number. -/
def digitBytes (number : Nat) : Bytes :=
  (Nat.toDigits 10 number).map byteOf

theorem toNat_lt_of_isDigit (digit : c.isDigit = true) : c.toNat < 0x80 := by
  have bounds := Char.isDigit_iff_toNat.mp digit
  have upper : c.toNat ≤ 57 := bounds.2
  omega

theorem isDigitByte_byteOf (digit : c.isDigit = true) : isDigitByte (byteOf c) = true := by
  have bounds := Char.isDigit_iff_toNat.mp digit
  simp only [isDigitByte, Bool.and_eq_true, decide_eq_true_eq, UInt8.le_iff_toNat_le,
    Text.byteOf_toNat (toNat_lt_of_isDigit digit)]
  exact bounds

theorem numberOf_map_byteOf (digits : ∀ c ∈ cs, c.isDigit = true) (start : Nat) :
    numberOf (cs.map byteOf) start = Nat.ofDigitChars 10 cs start := by
  induction cs generalizing start with
  | nil => rfl
  | cons c cs ih =>
      have ascii := toNat_lt_of_isDigit (digits c List.mem_cons_self)
      rw [Nat.ofDigitChars_cons, ← ih fun other member => digits other (List.mem_cons_of_mem c member)]
      change numberOf (cs.map byteOf) (10 * start + ((byteOf c).toNat - 0x30)) = _
      rw [Text.byteOf_toNat ascii]
      rfl

theorem isDigit_of_mem_toDigits {number : Nat} :
    ∀ c ∈ Nat.toDigits 10 number, c.isDigit = true := fun _ member =>
  Nat.isDigit_of_mem_toDigits (by decide) (by decide) member

theorem numberOf_digitBytes (number : Nat) : numberOf (digitBytes number) 0 = number := by
  rw [digitBytes, numberOf_map_byteOf isDigit_of_mem_toDigits, Nat.ofDigitChars_ten_toDigits]

theorem head?_toDigits (number : Nat) (zero : (Nat.toDigits 10 number).head? = some '0') :
    number = 0 := by
  by_cases small : number < 10
  · have digits : ∀ digit < 10, Nat.digitChar digit = '0' → digit = 0 := by decide
    rw [Nat.toDigits_of_lt_base small] at zero
    exact digits number small (Option.some.inj zero)
  · have large := Nat.le_of_not_lt small
    rw [Nat.toDigits_of_base_le (by decide) large, List.head?_append] at zero
    have front : (Nat.toDigits 10 (number / 10)).head? = some '0' := by
      cases digits : Nat.toDigits 10 (number / 10) with
      | nil => exact absurd digits Nat.toDigits_ne_nil
      | cons first others =>
          rw [digits] at zero
          exact zero
    have less := head?_toDigits (number / 10) front
    omega

theorem numeral_digitBytes (number : Nat) : Numeral (digitBytes number) where
  digit byte member := by
    obtain ⟨c, present, rfl⟩ := List.mem_map.mp member
    exact isDigitByte_byteOf (isDigit_of_mem_toDigits c present)
  nonempty := by
    rw [digitBytes, ne_eq, List.map_eq_nil_iff]
    exact Nat.toDigits_ne_nil
  noZero zero := by
    rw [digitBytes, List.head?_map, Option.map_eq_some_iff] at zero
    obtain ⟨c, first, same⟩ := zero
    have digit := isDigit_of_mem_toDigits c (List.mem_of_mem_head? first)
    have code := Text.byteOf_toNat (toNat_lt_of_isDigit digit)
    rw [same] at code
    have isZero : c = '0' := Char.toNat_inj.mp code.symm
    rw [head?_toDigits number (isZero ▸ first)]
    rfl

theorem encode_natural (number : Nat) : encode (toString number).toList = digitBytes number := by
  have ascii : ∀ c ∈ Nat.toDigits 10 number, c.toNat < 0x80 := fun c member =>
    toNat_lt_of_isDigit (isDigit_of_mem_toDigits c member)
  rw [digitBytes, ← Text.encode_ascii ascii]
  exact congrArg encode Nat.toList_repr

theorem encode_negative (number : Nat) :
    encode (toString (Int.negSucc number)).toList = byteOf '-' :: digitBytes (number + 1) := by
  have written : toString (Int.negSucc number) = "-" ++ toString (number + 1) := rfl
  rw [written, String.toList_append, Text.encode_append, encode_natural]
  rfl

end SwitchShell.Json

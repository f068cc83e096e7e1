import SwitchShell.Proofs.Decimal.Shortest
import SwitchShell.Proofs.Json.Scalars
import SwitchShell.Proofs.Text.Lines

namespace SwitchShell.Json

/-! Floating-point numbers are read up to a byte that ends them.

The number that is read need not be the one that was written.  But it is never
too large for one, however much of the text has arrived.
-/

open Text (Bytes byteOf encode)
open Float.Model (UnpackedFloat)
open Float.Model.UnpackedFloat (unpackExponent)

variable {bound significand : Nat} {exponent : Int} {negative : Bool} {digits fraction tail rest : Bytes}
  {head : UInt8} {value : Json} {reader later : Bytes → Reading Json}

/-- The reader makes a floating-point number of the text. -/
def ReadsFloat (reader : Bytes → Reading Json) (text : Bytes) : Prop :=
  ∃ value : Float, ∀ bound, Reads true bound reader text (.float value)

/-- A reader of one byte and more, which may be content with nothing. -/
theorem ReadsFloat.byte (asks : reader [] = .incomplete ∨ ∃ other, reader [] = .complete other [])
    (takes : ∀ rest, reader (head :: rest) = later rest) (reads : ReadsFloat later tail) :
    ReadsFloat reader (head :: tail) := by
  obtain ⟨value, reads⟩ := reads
  refine ⟨value, fun bound => ⟨fun rest within delimits => ?_, fun front behind split more within => ?_⟩⟩
  · rw [List.cons_append, takes]
    exact (reads (bound - 1)).whole rest (Nat.le_sub_one_of_lt within) delimits
  · cases front with
    | nil => exact asks.imp_right fun content => ⟨rfl, content⟩
    | cons first others =>
        simp only [List.cons_append, List.cons.injEq] at split
        obtain ⟨rfl, split⟩ := split
        rw [takes]
        exact (reads (bound - 1)).part others behind split more (Nat.le_sub_one_of_lt within)

/-- The number that is scaled is finite. -/
def Scales (significand : Nat) (exponent : Int) : Prop :=
  (scaleFloat (.ofScientific significand false 0) exponent 8).isSome = true

theorem exists_floatNumber (negative : Bool) (scales : Scales significand exponent) :
    ∃ value : Float, ∀ rest,
      floatNumber negative significand exponent rest = .complete (.float value) rest := by
  obtain ⟨value, found⟩ := Option.isSome_iff_exists.mp scales
  refine ⟨if negative then -value else value, fun rest => ?_⟩
  rw [floatNumber, found]

/-- The byte in front of an exponent. -/
def signByte (down : Bool) : UInt8 :=
  byteOf (if down then '-' else '+')

/-- The exponent moved by the digits behind the letter. -/
def moved (down : Bool) (exponent : Int) (size : Nat) : Int :=
  if down then exponent - size else exponent + size

theorem readExponent_eq {down : Bool} (digit : ∀ byte ∈ digits, isDigitByte byte = true)
    (nonempty : digits ≠ []) (small : numberOf digits 0 ≤ maxExponent) (ends : NoDigit rest) :
    readExponent negative significand exponent (signByte down :: (digits ++ rest)) =
      floatNumber negative significand (moved down exponent (numberOf digits 0)) rest := by
  obtain ⟨taken, dropped⟩ := span_digits digit ends
  obtain ⟨first, others, rfl⟩ := List.exists_cons_of_ne_nil nonempty
  have isDigit := digit first List.mem_cons_self
  rw [List.cons_append] at taken dropped
  have minus : byteOf '-' ≠ byteOf '+' := by decide
  cases down with
  | false =>
      simp only [readExponent, signByte, Bool.false_eq_true, ↓reduceIte, List.cons_append, isDigit, taken, dropped]
      exact if_neg (Nat.not_lt.mpr small)
  | true =>
      simp only [readExponent, signByte, ↓reduceIte, minus, List.cons_append, isDigit, taken, dropped]
      exact if_neg (Nat.not_lt.mpr small)

theorem readsFloat_exponent {down : Bool} (digit : ∀ byte ∈ digits, isDigitByte byte = true)
    (nonempty : digits ≠ []) (small : numberOf digits 0 ≤ 1000) (low : exponent ≤ 0)
    (fits : significand ≤ Text.maxUnsigned64)
    (scales : Scales significand (moved down exponent (numberOf digits 0))) :
    ReadsFloat (readExponent negative significand exponent) (signByte down :: digits) := by
  obtain ⟨value, gives⟩ := exists_floatNumber negative scales
  have below : ∀ size ≤ 1000, size ≤ maxExponent := by
    intro size small
    exact Nat.le_trans small (by decide)
  refine ⟨value, fun bound => ⟨fun rest _ delimits => ?_, fun front behind split more _ => ?_⟩⟩
  · rw [List.cons_append, readExponent_eq digit nonempty (below _ small) (delimits rfl).noDigit, gives]
  · cases front with
    | nil => exact .inl rfl
    | cons first begun =>
        simp only [List.cons_append, List.cons.injEq] at split
        obtain ⟨rfl, split⟩ := split
        by_cases empty : begun = []
        · subst empty
          refine .inl ?_
          cases down <;> rfl
        · subst split
          -- With a digit less the exponent has at most two.
          have part : 10 * numberOf begun 0 ≤ numberOf (begun ++ behind) 0 := by
            obtain ⟨next, others, rfl⟩ := List.exists_cons_of_ne_nil more
            rw [numberOf_append]
            exact Nat.le_trans (Nat.le_add_right _ _) (le_numberOf others _)
          have scales : Scales significand (moved down exponent (numberOf begun 0)) := by
            refine Decimal.scaleFloat_isSome fits ?_
            cases down <;> simp only [moved, Bool.false_eq_true, ↓reduceIte] <;> omega
          obtain ⟨other, content⟩ := exists_floatNumber negative scales
          have read : readExponent negative significand exponent (signByte down :: (begun ++ [])) = _ :=
            readExponent_eq (fun byte member => digit byte (List.mem_append_left behind member)) empty
              (below _ (by omega)) delimits_nil.noDigit
          rw [List.append_nil, content] at read
          exact .inr ⟨rfl, _, read⟩

theorem readScale_eq (delimits : Delimits rest) :
    readScale negative significand exponent rest = floatNumber negative significand exponent rest := by
  cases rest with
  | nil => rfl
  | cons next rest =>
      have ends := delimits next rfl
      simp only [continuesNumber, Bool.or_eq_false_iff, decide_eq_false_iff_not] at ends
      simp [readScale, ends.1.2, ends.2]

/-- There is no exponent. -/
theorem readsFloat_scale_nil (scales : Scales significand exponent) :
    ReadsFloat (readScale negative significand exponent) [] := by
  obtain ⟨value, gives⟩ := exists_floatNumber negative scales
  refine ⟨value, fun bound => ⟨fun rest _ delimits => ?_, fun front behind split more _ => ?_⟩⟩
  · rw [List.nil_append, readScale_eq (delimits rfl), gives]
  · exact absurd (List.append_eq_nil_iff.mp split).2 more

theorem readsFloat_scale_letter (scales : Scales significand exponent)
    (reads : ReadsFloat (readExponent negative significand exponent) tail) :
    ReadsFloat (readScale negative significand exponent) (byteOf 'e' :: tail) := by
  obtain ⟨value, gives⟩ := exists_floatNumber negative scales
  exact .byte (.inr ⟨_, gives []⟩) (fun _ => rfl) reads

theorem appendDigits_fits (fits : significand ≤ Text.maxUnsigned64) (digits : Bytes) :
    (appendDigits significand digits).1 ≤ Text.maxUnsigned64 := by
  induction digits generalizing significand with
  | nil => exact fits
  | cons digit digits ih =>
      rw [appendDigits]
      split
      · rename_i longer
        exact ih longer
      · exact fits

/-- The power of ten that goes with the digits kept of a fraction. -/
def keptExponent (significand : Nat) (exponent : Int) (fraction : Bytes) : Int :=
  exponent - (fraction.length - (appendDigits significand fraction).2.length : Nat)

theorem readFraction_eq (digit : ∀ byte ∈ fraction, isDigitByte byte = true)
    (nonempty : fraction ≠ []) (ends : NoDigit rest) :
    readFraction negative significand exponent (fraction ++ rest) =
      readScale negative (appendDigits significand fraction).1
        (keptExponent significand exponent fraction) rest := by
  obtain ⟨taken, dropped⟩ := span_digits digit ends
  obtain ⟨first, others, rfl⟩ := List.exists_cons_of_ne_nil nonempty
  rw [List.cons_append] at taken dropped ⊢
  simp only [readFraction, digit first List.mem_cons_self, ↓reduceIte, taken, dropped]
  rfl

theorem readsFloat_fraction (digit : ∀ byte ∈ fraction, isDigitByte byte = true)
    (nonempty : fraction ≠ []) (ends : NoDigit tail) (fits : significand ≤ Text.maxUnsigned64)
    (low : exponent ≤ 0)
    (reads : ReadsFloat (readScale negative (appendDigits significand fraction).1
      (keptExponent significand exponent fraction)) tail) :
    ReadsFloat (readFraction negative significand exponent) (fraction ++ tail) := by
  obtain ⟨value, reads⟩ := reads
  refine ⟨value, fun bound => ⟨fun rest within delimits => ?_, fun front behind split more within => ?_⟩⟩
  · rw [List.append_assoc, readFraction_eq digit nonempty (ends.append (delimits rfl))]
    exact (reads _).whole rest (Nat.le_refl _) delimits
  · rcases cut_of_append_eq split with ⟨missing, rfl, some⟩ | ⟨begun, rfl, rest⟩
    · by_cases empty : front = []
      · exact .inl (empty ▸ rfl)
      · have low : keptExponent significand exponent front ≤ 0 := by
          unfold keptExponent
          omega
        have scales : Scales (appendDigits significand front).1
            (keptExponent significand exponent front) :=
          Decimal.scaleFloat_isSome (appendDigits_fits fits front) (by omega)
        obtain ⟨other, content⟩ := exists_floatNumber negative scales
        have read : readFraction negative significand exponent (front ++ []) = _ :=
          readFraction_eq (fun byte member => digit byte (List.mem_append_left missing member)) empty
            delimits_nil.noDigit
        rw [List.append_nil, readScale_eq delimits_nil, content] at read
        exact .inr ⟨rfl, _, read⟩
    · rw [readFraction_eq digit nonempty (rest ▸ ends).of_append]
      exact (reads _).part begun behind rest more (Nat.le_refl _)

/-- A byte after the whole number tells how the number goes on. -/
theorem readsFloat_tail (takes : ∀ rest, readTail negative significand (head :: rest) = later rest)
    (reads : ReadsFloat later tail) : ReadsFloat (readTail negative significand) (head :: tail) := by
  obtain ⟨value, whole⟩ := wholeNumber_complete negative significand
  exact .byte (.inr ⟨value, whole []⟩) takes reads

theorem readsFloat_number (numeral : Numeral digits) (fits : numberOf digits 0 ≤ Text.maxUnsigned64)
    (ends : NoDigit tail) (reads : ReadsFloat (readTail negative (numberOf digits 0)) tail) :
    ReadsFloat (readNumber negative) (digits ++ tail) := by
  obtain ⟨value, reads⟩ := reads
  refine ⟨value, fun bound => ⟨fun rest within delimits => ?_, fun front behind split more within => ?_⟩⟩
  · rw [List.append_assoc, readNumber_append numeral fits (ends.append (delimits rfl))]
    exact (reads _).whole rest (Nat.le_refl _) delimits
  · rcases cut_of_append_eq split with ⟨missing, part, some⟩ | ⟨begun, rfl, rest⟩
    · obtain ⟨other, gives⟩ := wholeNumber_complete negative (numberOf digits 0)
      exact (reads_numeral numeral fits gives).part front missing part some within
    · rw [readNumber_append numeral fits (rest ▸ ends).of_append]
      exact (reads _).part begun behind rest more (Nat.le_refl _)

/-- A whole number of up to sixteen digits, a point and digits. -/
theorem readsFloat_fixed (numeral : Numeral digits) (short : digits.length ≤ 16)
    (digit : ∀ byte ∈ fraction, isDigitByte byte = true) (nonempty : fraction ≠ []) :
    ReadsFloat (readNumber negative) (digits ++ byteOf '.' :: fraction) := by
  have fits : numberOf digits 0 ≤ Text.maxUnsigned64 := by
    have below := numberOf_lt numeral.digit 0
    have few : 10 ^ digits.length ≤ 10 ^ 16 := Nat.pow_le_pow_right (by decide) short
    have large : 10 ^ 16 ≤ Text.maxUnsigned64 := by decide
    omega
  have scales : Scales (appendDigits (numberOf digits 0) fraction).1
      (keptExponent (numberOf digits 0) 0 fraction) :=
    Decimal.scaleFloat_isSome (appendDigits_fits fits fraction) (by unfold keptExponent; omega)
  have reads := readsFloat_fraction digit nonempty delimits_nil.noDigit fits (Int.le_refl 0)
    (readsFloat_scale_nil scales : ReadsFloat (readScale negative _ _) [])
  rw [List.append_nil] at reads
  exact readsFloat_number numeral fits (fun _ member => by cases member; rfl)
    (readsFloat_tail (fun _ => rfl) reads)

/-- The point and the digits behind it, if there are any. -/
def pointed (fraction : Bytes) : Bytes :=
  if fraction = [] then [] else byteOf '.' :: fraction

theorem digit_fits (isDigit : isDigitByte head = true) : numberOf [head] 0 ≤ Text.maxUnsigned64 := by
  have each : ∀ byte ∈ [head], isDigitByte byte = true := by simpa using isDigit
  have below := numberOf_lt each 0
  have large : 10 ^ 1 ≤ Text.maxUnsigned64 := by decide
  rw [List.length_singleton] at below
  omega

/-- One digit, perhaps a point and digits, and an exponent. -/
theorem readsFloat_scientific {down : Bool} {size : Bytes} (isDigit : isDigitByte head = true)
    (digit : ∀ byte ∈ fraction, isDigitByte byte = true)
    (sizeDigit : ∀ byte ∈ size, isDigitByte byte = true) (nonempty : size ≠ [])
    (small : numberOf size 0 ≤ 1000)
    (scales : Scales (appendDigits (numberOf [head] 0) fraction).1
      (moved down (keptExponent (numberOf [head] 0) 0 fraction) (numberOf size 0))) :
    ReadsFloat (readNumber negative)
      (head :: (pointed fraction ++ byteOf 'e' :: signByte down :: size)) := by
  have numeral : Numeral [head] := ⟨by simpa using isDigit, by simp, by simp⟩
  have fits := digit_fits isDigit
  have low : keptExponent (numberOf [head] 0) 0 fraction ≤ 0 := by
    unfold keptExponent
    omega
  have exponent : ReadsFloat (readExponent negative _ _) (signByte down :: size) :=
    readsFloat_exponent sizeDigit nonempty small low (appendDigits_fits fits fraction) scales
  refine readsFloat_number numeral fits ?_ ?_
  · unfold pointed
    split <;> intro byte member <;> cases member <;> rfl
  · unfold pointed
    split
    · rename_i empty
      subst empty
      exact readsFloat_tail (fun _ => rfl) exponent
    · rename_i some
      have unscaled : Scales (appendDigits (numberOf [head] 0) fraction).1
          (keptExponent (numberOf [head] 0) 0 fraction) :=
        Decimal.scaleFloat_isSome (appendDigits_fits fits fraction) (by omega)
      refine readsFloat_tail (fun _ => rfl) ?_
      exact readsFloat_fraction digit some (fun _ member => by cases member; rfl) fits (Int.le_refl 0)
        (readsFloat_scale_letter unscaled exponent)

variable {bits number : Nat} {decimal : Decimal}

theorem appendDigits_mul_le (digits : Bytes) (start : Nat) :
    (appendDigits start digits).1 * 10 ^ (appendDigits start digits).2.length ≤
        numberOf digits start ∧
      (appendDigits start digits).2.length ≤ digits.length := by
  induction digits generalizing start with
  | nil => exact ⟨Nat.le_of_eq (Nat.mul_one start), Nat.le_refl 0⟩
  | cons digit digits ih =>
      rw [appendDigits]
      split
      · obtain ⟨below, shorter⟩ := ih (10 * start + (digit.toNat - 0x30))
        exact ⟨below, Nat.le_succ_of_le shorter⟩
      · exact ⟨mul_le_numberOf (digit :: digits) start, Nat.le_refl _⟩

theorem encode_digits (number : Nat) (cs : List Char) (part : ∀ c ∈ cs, c ∈ Nat.toDigits 10 number) :
    encode cs = cs.map byteOf :=
  Text.encode_ascii fun c member => toNat_lt_of_isDigit (isDigit_of_mem_toDigits c (part c member))

theorem encode_take (number count : Nat) :
    encode ((toString number).toList.take count) = (digitBytes number).take count := by
  rw [Text.toList_toString, encode_digits number _ fun c member => List.mem_of_mem_take member,
    digitBytes, List.map_take]

theorem encode_drop (number count : Nat) :
    encode ((toString number).toList.drop count) = (digitBytes number).drop count := by
  rw [Text.toList_toString, encode_digits number _ fun c member => List.mem_of_mem_drop member,
    digitBytes, List.map_drop]

theorem encode_zeros (count : Nat) : encode (List.replicate count '0') = List.replicate count 0x30 := by
  induction count with
  | zero => rfl
  | succ count ih =>
      rw [List.replicate_succ, Text.encode_cons, ih]
      rfl

theorem length_toString (number : Nat) : (toString number).length = (digitBytes number).length := by
  rw [digitBytes, List.length_map, ← String.length_toList]
  exact congrArg List.length Nat.toList_repr

theorem digit_of_mem_digitBytes {byte : UInt8} (member : byte ∈ digitBytes number) :
    isDigitByte byte = true :=
  (numeral_digitBytes number).digit byte member

theorem digit_of_mem_zeros {byte : UInt8} {count : Nat} (member : byte ∈ List.replicate count 0x30) :
    isDigitByte byte = true := by
  rw [List.eq_of_mem_replicate member]
  rfl

/-- A decimal whose first digits, as many as fit, are no number that is too large. -/
structure Readable (decimal : Decimal) : Prop where
  zero : decimal.digits = 0 → decimal.tens = 0
  low : -400 ≤ decimal.tens
  high : (decimal.digits : ℚ) * 10 ^ decimal.tens ≤ 2 ^ (1024 : Int)
  scales : ∀ kept dropped : Nat, kept ≤ Text.maxUnsigned64 → kept * 10 ^ dropped ≤ decimal.digits →
    (decimal.digits ≤ Text.maxUnsigned64 → kept = decimal.digits ∧ dropped = 0) →
    Scales kept (decimal.tens + dropped)

theorem readable_shortest (finite : bits < 0x7FF0000000000000) (nonzero : bits ≠ 0) :
    Readable (Decimal.shortest bits) where
  zero := Decimal.shortest_zero (by omega)
  low := Decimal.le_shortest_tens bits
  high := Decimal.shortest_le_two_pow finite
  scales _ _ fits part all := Decimal.scaleFloat_shortest finite fits part all

/-- Digits, zeros, and a zero behind the point. -/
theorem readsFloat_integer (readable : Readable decimal) (whole : 0 ≤ decimal.tens)
    (short : ((digitBytes decimal.digits).length : Int) + decimal.tens ≤ 16) :
    ReadsFloat (readNumber negative)
      (digitBytes decimal.digits ++ List.replicate decimal.tens.toNat 0x30 ++ [byteOf '.', 0x30]) := by
  have numeral : Numeral (digitBytes decimal.digits ++ List.replicate decimal.tens.toNat 0x30) := by
    by_cases zero : decimal.digits = 0
    · rw [readable.zero zero, zero]
      exact numeral_digitBytes 0
    · exact (numeral_digitBytes decimal.digits).append_of_pos (by rwa [numberOf_digitBytes, Nat.pos_iff_ne_zero])
        fun _ => digit_of_mem_zeros
  refine readsFloat_fixed numeral ?_ (by simp [isDigitByte]) (List.cons_ne_nil 0x30 [])
  rw [List.length_append, List.length_replicate]
  omega

/-- The point is inside the digits. -/
theorem readsFloat_inside {count : Nat} (some : 0 < count) (more : count < (digitBytes number).length)
    (short : count ≤ 16) :
    ReadsFloat (readNumber negative)
      ((digitBytes number).take count ++ byteOf '.' :: (digitBytes number).drop count) := by
  have behind : (digitBytes number).drop count ≠ [] := by
    rw [ne_eq, List.drop_eq_nil_iff]
    omega
  have front : (digitBytes number).take count ≠ [] := by
    rw [ne_eq, List.take_eq_nil_iff]
    rintro (zero | empty)
    · omega
    · exact (numeral_digitBytes number).nonempty empty
  have whole := numeral_digitBytes number
  rw [← List.take_append_drop count (digitBytes number)] at whole
  refine readsFloat_fixed (whole.of_append behind front) ?_
    (fun _ member => digit_of_mem_digitBytes (List.mem_of_mem_drop member)) behind
  exact Nat.le_trans (List.length_take_le _ _) short

/-- The point is in front of the digits. -/
theorem readsFloat_small (zeros number : Nat) :
    ReadsFloat (readNumber negative)
      ([0x30, byteOf '.'] ++ List.replicate zeros 0x30 ++ digitBytes number) := by
  change ReadsFloat _ (digitBytes 0 ++ byteOf '.' :: (List.replicate zeros 0x30 ++ digitBytes number))
  refine readsFloat_fixed (numeral_digitBytes 0) (by decide) ?_ ?_
  · intro byte member
    rcases List.mem_append.mp member with zero | digit
    · exact digit_of_mem_zeros zero
    · exact digit_of_mem_digitBytes digit
  · exact fun empty => (numeral_digitBytes number).nonempty (List.append_eq_nil_iff.mp empty).2

theorem encode_exponent (exponent : Int) :
    encode (floatLayout.exponent exponent).toList =
      byteOf 'e' :: signByte (decide (exponent < 0)) :: digitBytes exponent.natAbs := by
  cases exponent with
  | ofNat size =>
      rw [Decimal.Layout.exponent, if_pos (show 0 ≤ Int.ofNat size from Int.natCast_nonneg size), String.toList_append,
        String.toList_append, Text.encode_append, Text.encode_append]
      exact congrArg (fun digits => byteOf 'e' :: byteOf '+' :: digits) (encode_natural size)
  | negSucc size =>
      rw [Decimal.Layout.exponent, if_neg (by omega), String.toList_append,
        String.toList_append, Text.encode_append, Text.encode_append, encode_negative,
        decide_eq_true (Int.negSucc_lt_zero size)]
      rfl

theorem moved_natAbs (exponent size : Int) :
    moved (decide (size < 0)) exponent size.natAbs = exponent + size := by
  rcases lt_or_ge size 0 with negative | nonnegative
  · rw [decide_eq_true negative, moved, if_pos rfl]
    omega
  · rw [decide_eq_false (Int.not_lt.mpr nonnegative), moved, if_neg Bool.false_ne_true]
    omega

/-- The exponent of a finite number has at most three digits. -/
theorem exponent_le {first : UInt8} (readable : Readable decimal)
    (digits : digitBytes decimal.digits = first :: fraction) (nonzero : first ≠ 0x30) :
    (fraction.length : Int) + decimal.tens ≤ 308 := by
  have digit := digit_of_mem_digitBytes (digits ▸ List.mem_cons_self : first ∈ digitBytes decimal.digits)
  have leading : 1 ≤ numberOf [first] 0 := by
    simp only [isDigitByte, Bool.and_eq_true, decide_eq_true_eq, UInt8.le_iff_toNat_le] at digit
    have lower : 0x30 ≤ first.toNat := digit.1
    have other : first.toNat ≠ 0x30 := fun same => nonzero (UInt8.toNat_inj.mp same)
    change 1 ≤ 10 * 0 + (first.toNat - 0x30)
    omega
  have large : 10 ^ fraction.length ≤ decimal.digits :=
    calc 10 ^ fraction.length ≤ numberOf [first] 0 * 10 ^ fraction.length :=
          Nat.le_mul_of_pos_left _ leading
      _ ≤ numberOf fraction (numberOf [first] 0) := mul_le_numberOf _ _
      _ = numberOf (digitBytes decimal.digits) 0 := by
          rw [digits]
          rfl
      _ = decimal.digits := numberOf_digitBytes _
  by_contra more
  have many : (10 : ℚ) ^ (309 : Int) ≤ 2 ^ (1024 : Int) :=
    calc (10 : ℚ) ^ (309 : Int) ≤ 10 ^ ((fraction.length : Int) + decimal.tens) :=
          zpow_le_zpow_right₀ (by norm_num) (by omega)
      _ = (10 ^ fraction.length : Nat) * 10 ^ decimal.tens := by
          rw [zpow_add₀ (by norm_num), zpow_natCast, Nat.cast_pow, Nat.cast_ofNat]
      _ ≤ decimal.digits * 10 ^ decimal.tens := by gcongr
      _ ≤ 2 ^ (1024 : Int) := readable.high
  have few : ¬ 10 ^ 309 ≤ 2 ^ 1024 := by decide +kernel
  exact few (by exact_mod_cast many)

/-- One digit in front of the point and an exponent. -/
theorem readsFloat_exponential {first : UInt8} (readable : Readable decimal)
    (digits : digitBytes decimal.digits = first :: fraction)
    (scientific : ¬ (0 ≤ decimal.tens ∧ (fraction.length + 1 : Int) + decimal.tens ≤ 16)) :
    ReadsFloat (readNumber negative)
      (first :: (pointed fraction ++
        encode (floatLayout.exponent (fraction.length + decimal.tens)).toList)) := by
  have nonzero : first ≠ 0x30 := by
    rintro rfl
    have single := (numeral_digitBytes decimal.digits).noZero (by rw [digits]; rfl)
    have zero : decimal.digits = 0 := by rw [← numberOf_digitBytes decimal.digits, single]; rfl
    rw [digits] at single
    rw [readable.zero zero, (List.cons.inj single).2] at scientific
    exact scientific (by decide)
  have high := exponent_le readable digits nonzero
  have low := readable.low
  have whole : numberOf fraction (numberOf [first] 0) = decimal.digits := by
    rw [← numberOf_digitBytes decimal.digits, digits]
    rfl
  obtain ⟨part, shorter⟩ := appendDigits_mul_le fraction (numberOf [first] 0)
  rw [encode_exponent]
  refine readsFloat_scientific (digit_of_mem_digitBytes (digits ▸ List.mem_cons_self))
    (fun byte member => digit_of_mem_digitBytes (digits ▸ List.mem_cons_of_mem first member))
    (fun _ => digit_of_mem_digitBytes) (numeral_digitBytes _).nonempty ?_ ?_
  · rw [numberOf_digitBytes]
    omega
  · have fits := digit_fits (digit_of_mem_digitBytes (digits ▸ List.mem_cons_self))
    have scales := readable.scales _ _ (appendDigits_fits fits fraction) (part.trans_eq whole)
      fun small => by
        rw [appendDigits_eq (whole ▸ small)]
        exact ⟨whole, rfl⟩
    have same : 0 - ((fraction.length - (appendDigits (numberOf [first] 0) fraction).2.length : Nat) : Int) +
        (fraction.length + decimal.tens) =
          decimal.tens + (appendDigits (numberOf [first] 0) fraction).2.length := by
      omega
    rwa [numberOf_digitBytes, moved_natAbs, keptExponent, same]

theorem encode_significand {first : UInt8} (digits : digitBytes number = first :: fraction) :
    encode (if fraction.length + 1 = 1 then String.ofList ((toString number).toList.take 1)
      else String.ofList ((toString number).toList.take 1) ++ "." ++
        String.ofList ((toString number).toList.drop 1)).toList = first :: pointed fraction := by
  cases fraction with
  | nil =>
      rw [if_pos (by rfl), String.toList_ofList, encode_take, digits]
      rfl
  | cons second others =>
      rw [if_neg (by simp)]
      simp only [String.toList_append, String.toList_ofList, Text.encode_append, encode_take,
        encode_drop, digits]
      rfl

/-- The number written is not too large for a floating-point number. -/
theorem readsFloat_write (readable : Readable decimal) :
    ReadsFloat (readNumber negative) (encode (floatLayout.write decimal).toList) := by
  unfold Decimal.Layout.write
  dsimp only
  rw [length_toString]
  split
  · rename_i whole
    simp only [String.toList_append, String.toList_ofList, Text.encode_append, encode_natural, encode_zeros]
    exact readsFloat_integer readable whole.1 whole.2
  · split
    · rename_i scientific inside
      simp only [String.toList_append, String.toList_ofList, Text.encode_append, encode_take, encode_drop]
      rw [List.append_assoc]
      change _ ∧ _ ≤ 16 at inside
      change ¬ (_ ∧ _ ≤ 16) at scientific
      exact readsFloat_inside (by omega) (by omega) (by omega)
    · split
      · simp only [String.toList_append, String.toList_ofList, Text.encode_append, encode_natural, encode_zeros]
        exact readsFloat_small _ _
      · rename_i scientific _ _
        obtain ⟨first, fraction, digits⟩ :=
          List.exists_cons_of_ne_nil (numeral_digitBytes decimal.digits).nonempty
        rw [digits] at scientific ⊢
        rw [String.toList_append, Text.encode_append, List.length_cons]
        have exponent : ((fraction.length + 1 : Nat) : Int) + decimal.tens - 1 =
            fraction.length + decimal.tens := by
          omega
        have front := encode_significand digits
        rw [exponent, front]
        exact readsFloat_exponential readable digits scientific

/-- The text of a number without its sign. -/
def magnitudeText (bits : Nat) : Bytes :=
  if bits = 0 then encode "0.0".toList else encode (floatLayout.write (Decimal.shortest bits)).toList

theorem readsFloat_magnitude (finite : bits < 0x7FF0000000000000) :
    ReadsFloat (readNumber negative) (magnitudeText bits) := by
  unfold magnitudeText
  split
  · exact readsFloat_small 0 0
  · rename_i nonzero
    exact readsFloat_write (readable_shortest finite nonzero)

theorem encode_floatText {number : Float} (finite : number.toBits.toNat % 2 ^ 63 < 0x7FF0000000000000) :
    encode (floatText number).toList =
      (if number.toBits.toNat / 2 ^ 63 = 1 then [byteOf '-'] else []) ++
        magnitudeText (number.toBits.toNat % 2 ^ 63) := by
  have half : Nat.pow 2 63 = 2 ^ 63 := rfl
  unfold floatText magnitudeText
  rw [half]
  dsimp only
  by_cases zero : number.toBits.toNat % 2 ^ 63 = 0
  · rw [if_pos zero, if_pos zero, String.toList_append, Text.encode_append]
    congr 1
    split <;> rfl
  · rw [if_neg zero, if_neg zero, if_neg (Nat.not_le.mpr finite), String.toList_append, Text.encode_append]
    congr 1
    split <;> rfl

theorem lt_of_isFinite {number : Float} (finite : number.isFinite = true) :
    number.toBits.toNat % 2 ^ 63 < 0x7FF0000000000000 := by
  by_contra large
  have top : @unpackExponent .binary64 number.toModel.toBits.toBitVec = -1#11 := by
    apply BitVec.eq_of_toNat_eq
    rw [unpackExponent, BitVec.toNat_cast, BitVec.extractLsb_toNat]
    change (number.toBits.toNat >>> 52) % 2 ^ 11 = 2047
    rw [Nat.shiftRight_eq_div_pow]
    omega
  have infinite : number.toModel.unpack.isFinite = false := by
    unfold Float.Model.unpack UnpackedFloat.unpack
    simp only [top, ↓reduceIte]
    split <;> rfl
  exact Bool.false_ne_true (infinite.symm.trans finite)

/-- A number begins with a digit. -/
theorem ReadsFloat.begins {text : Bytes} (reads : ReadsFloat (readNumber negative) text) :
    ∃ head rest, text = head :: rest ∧ isDigitByte head = true := by
  obtain ⟨value, reads⟩ := reads
  have whole := (reads text.length).whole [] (by simp) fun _ => delimits_nil
  rw [List.append_nil] at whole
  cases text with
  | nil => cases whole
  | cons head rest =>
      refine ⟨head, rest, rfl, ?_⟩
      by_cases zero : head = byteOf '0'
      · rw [zero]
        rfl
      · by_contra other
        simp [readNumber, zero, other] at whole

/-- The sign of a number. -/
def signBytes (negative : Bool) : Bytes :=
  if negative then [byteOf '-'] else []

/-- A finite number is written with its sign and as a number that is read. -/
theorem exists_text_of_isFinite {number : Float} (finite : number.isFinite = true) :
    ∃ negative text, encode (floatText number).toList = signBytes negative ++ text ∧
      ReadsFloat (readNumber negative) text := by
  have small := lt_of_isFinite finite
  refine ⟨decide (number.toBits.toNat / 2 ^ 63 = 1), _, ?_, readsFloat_magnitude small⟩
  rw [encode_floatText small, signBytes]
  simp only [decide_eq_true_eq]

end SwitchShell.Json

import SwitchShell.Proofs.Grammar.Acceptance

namespace SwitchShell.Text

variable {digits chars : List Char} {text : String} {number largest : Nat}

/-- The characters are one or more digits that stand for the number. -/
structure Digits (chars : List Char) (number : Nat) : Prop where
  some : chars ≠ []
  digits : ∀ c ∈ chars, c.isDigit = true
  value : Nat.ofDigits 10 (chars.reverse.map digitValue) = number

/-- The characters are digits, perhaps after a plus sign. -/
inductive Numeral : List Char → Nat → Prop where
  | plain {chars : List Char} {number : Nat} (digits : Digits chars number) : Numeral chars number
  | plus {chars : List Char} {number : Nat} (digits : Digits chars number) :
      Numeral ('+' :: chars) number

theorem read_digits_iff :
    (if (chars.isEmpty || !chars.all Char.isDigit) = true then none
      else if decimalValue chars ≤ largest then some (decimalValue chars) else none) =
        some number ↔ Digits chars number ∧ number ≤ largest := by
  have digits : Digits chars number ↔
      chars.isEmpty = false ∧ chars.all Char.isDigit = true ∧ decimalValue chars = number := by
    rw [decimalValue_eq_ofDigits, List.isEmpty_eq_false_iff, List.all_eq_true]
    exact ⟨fun digits => ⟨digits.1, digits.2, digits.3⟩, fun ⟨one, two, three⟩ => ⟨one, two, three⟩⟩
  rw [digits]
  cases chars.isEmpty <;> cases chars.all Char.isDigit <;> grind

theorem not_digits_plus : ¬ Digits ('+' :: chars) number := fun digits => by
  have sign := digits.digits '+' List.mem_cons_self
  contradiction

theorem numeral_plus_iff : Numeral ('+' :: chars) number ↔ Digits chars number := by
  constructor
  · rintro (digits | digits)
    · exact absurd digits not_digits_plus
    · exact digits
  · exact .plus

theorem unsigned?_eq_some_iff :
    unsigned? largest text = some number ↔ Numeral text.toList number ∧ number ≤ largest := by
  unfold unsigned?
  split
  · rename_i rest signed
    rw [signed, numeral_plus_iff]
    exact read_digits_iff
  · rename_i other unsigned
    have plain : Numeral text.toList number ↔ Digits text.toList number := by
      refine ⟨fun numeral => ?_, .plain⟩
      generalize text.toList = chars at numeral unsigned
      cases numeral with
      | plain digits => exact digits
      | plus digits => exact absurd rfl (unsigned _)
    rw [plain]
    exact read_digits_iff

theorem unsigned?_le (read : unsigned? largest text = some number) : number ≤ largest :=
  (unsigned?_eq_some_iff.mp read).2

theorem Numeral.not_mem {c : Char} (numeral : Numeral chars number) (foreign : c.isDigit = false)
    (unsigned : c ≠ '+') : c ∉ chars := by
  have absent : ∀ {chars : List Char}, Digits chars number → c ∉ chars := by
    intro chars digits member
    rw [digits.digits c member] at foreign
    contradiction
  cases numeral with
  | plain digits => exact absent digits
  | plus digits => exact List.not_mem_cons_of_ne_of_not_mem unsigned (absent digits)

theorem numeral_toString (number : Nat) : Numeral (toString number).toList number := by
  obtain ⟨some, digits, value⟩ := natural?_eq_some_iff.mp (natural?_toString number)
  exact .plain ⟨mt String.toList_eq_nil_iff.mp some, digits,
    (decimalValue_eq_ofDigits _).symm.trans value⟩

theorem unsigned?_toString (small : number ≤ largest) :
    unsigned? largest (toString number) = some number :=
  unsigned?_eq_some_iff.mpr ⟨numeral_toString number, small⟩

end SwitchShell.Text

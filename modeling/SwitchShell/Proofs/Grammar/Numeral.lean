import SwitchShell.Proofs.Grammar.Acceptance

namespace SwitchShell

namespace Text

variable {number : Nat}

end Text

namespace Token

variable {names : Names} {number : Nat} {low high : Int}

/-- No number abbreviates a literal that begins with something else. -/
theorem not_abbreviates_of_natural? {word literal : String}
    (digits : Text.natural? word = some number)
    (named : ∀ c, literal.toList.head? = some c → c.isDigit = false) :
    abbreviates word literal = false := by
  obtain ⟨nonempty, allDigits, _⟩ := Text.natural?_eq_some_iff.mp digits
  obtain ⟨first, others, split⟩ :=
    List.exists_cons_of_ne_nil (mt String.toList_eq_nil_iff.mp nonempty)
  rw [← Bool.not_eq_true]
  intro begins
  have same := head?_of_abbreviates begins
  rw [split, List.head?_cons] at same
  have isDigit := allDigits first (split ▸ List.mem_cons_self)
  rw [named first same.symm] at isDigit
  contradiction

end Token

end SwitchShell

import SwitchShell.Text.NaturalOrder

namespace SwitchShell.Text

variable {first second third : String} {names others : List String}

/-- Numbers come before other names.  They are in the order of their values; those
of one value, as well as names that are no numbers, are in the order of texts. -/
def Precedes (first second : String) : Prop :=
  match unsigned? maxUnsigned64 first, unsigned? maxUnsigned64 second with
  | some number, some other => number < other ∨ number = other ∧ first ≤ second
  | some _, none => True
  | none, some _ => False
  | none, none => first ≤ second

theorem naturalKey_le_iff : (naturalKey first).le (naturalKey second) = true ↔ Precedes first second := by
  have texts : (!decide (second < first)) = true ↔ first ≤ second := by
    rw [Bool.not_eq_true', decide_eq_false_iff_not, String.not_lt]
  unfold naturalKey Precedes
  cases unsigned? maxUnsigned64 first <;> cases unsigned? maxUnsigned64 second <;>
    simp only [NaturalKey.le]
  · exact texts
  · simp
  · simp
  · rename_i number other
    by_cases same : number = other
    · subst same
      simp only [ne_eq, not_true_eq_false, ↓reduceIte, Nat.lt_irrefl, true_and, false_or]
      exact texts
    · simp [same]

theorem Precedes.trans (earlier : Precedes first second) (later : Precedes second third) :
    Precedes first third := by
  revert earlier later
  unfold Precedes
  cases unsigned? maxUnsigned64 first <;> cases unsigned? maxUnsigned64 second <;>
    cases unsigned? maxUnsigned64 third <;> simp only [imp_self, implies_true, false_implies]
  · exact String.le_trans
  · rintro (less | ⟨rfl, before⟩) (less' | ⟨rfl, after⟩)
    · exact .inl (Nat.lt_trans less less')
    · exact .inl less
    · exact .inl less'
    · exact .inr ⟨rfl, String.le_trans before after⟩

theorem Precedes.antisymm (before : Precedes first second) (after : Precedes second first) :
    first = second := by
  revert before after
  unfold Precedes
  cases unsigned? maxUnsigned64 first <;> cases unsigned? maxUnsigned64 second <;>
    simp only [implies_true, false_implies]
  · exact String.le_antisymm
  · rintro (less | ⟨rfl, before⟩) (less' | ⟨_, after⟩)
    · exact absurd less' (Nat.lt_asymm less)
    · omega
    · omega
    · exact String.le_antisymm before after

theorem precedes_total (first second : String) : Precedes first second ∨ Precedes second first := by
  unfold Precedes
  cases unsigned? maxUnsigned64 first <;> cases unsigned? maxUnsigned64 second <;> simp only
  · exact String.le_total first second
  · exact .inr trivial
  · exact .inl trivial
  · rename_i number other
    rcases Nat.lt_trichotomy number other with less | rfl | more
    · exact .inl (.inl less)
    · exact (String.le_total first second).imp (fun before => .inr ⟨rfl, before⟩)
        fun after => .inr ⟨rfl, after⟩
    · exact .inr (.inl more)

theorem naturalSort_perm (names : List String) : (naturalSort names).Perm names :=
  List.mergeSort_perm names _

theorem pairwise_naturalSort (names : List String) : (naturalSort names).Pairwise Precedes := by
  refine (List.pairwise_mergeSort ?_ ?_ names).imp naturalKey_le_iff.mp
  · intro first second third earlier later
    exact naturalKey_le_iff.mpr ((naturalKey_le_iff.mp earlier).trans (naturalKey_le_iff.mp later))
  · intro first second
    rw [Bool.or_eq_true, naturalKey_le_iff, naturalKey_le_iff]
    exact precedes_total first second

theorem naturalSort_of_perm (reordered : names.Perm others) :
    naturalSort names = naturalSort others :=
  List.Perm.eq_of_pairwise (fun _ _ _ _ => Precedes.antisymm) (pairwise_naturalSort names)
    (pairwise_naturalSort others)
    ((naturalSort_perm names).trans (reordered.trans (naturalSort_perm others).symm))

instance (first second : String) : Decidable (Precedes first second) :=
  decidable_of_iff _ naturalKey_le_iff

example : naturalSort ["uplink", "10", "2", "+2"] = ["+2", "2", "10", "uplink"] :=
  (naturalSort_of_perm (by decide)).trans (List.mergeSort_of_pairwise (by decide))

end SwitchShell.Text

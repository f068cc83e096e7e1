import SwitchShell.Proofs.Text.Encoding
import SwitchShell.Text.Words

namespace SwitchShell.Text

variable {α : Type} [DecidableEq α] {separator : α} {list : List α} {text line word : String}
  {c : Char}

theorem splitAt_of_notMem (absent : separator ∉ list) : splitAt separator list = [list] := by
  induction list with
  | nil => rfl
  | cons a list ih =>
      obtain ⟨other, later⟩ := not_or.mp (mt List.mem_cons.mpr absent)
      rw [splitAt, if_neg (Ne.symm other), ih later]

theorem lines_of_notMem (absent : '\n' ∉ text.toList) (nonempty : text ≠ "") :
    lines text = [text] := by
  have some : text.toList ≠ [] := mt String.toList_eq_nil_iff.mp nonempty
  simp [lines, splitLines, splitAt_of_notMem absent, some]

theorem not_isBlank_of_mem_splitWords {word text : List Char} (member : word ∈ splitWords text) :
    ∀ c ∈ word, isBlank c = false := by
  induction text generalizing word with
  | nil => exact absurd member List.not_mem_nil
  | cons first text ih =>
      unfold splitWords at member
      split at member
      · exact ih member
      · rename_i printed
        rw [Bool.not_eq_true] at printed
        have single : ∀ c ∈ [first], isBlank c = false := List.forall_mem_singleton.mpr printed
        split at member
        · rw [List.mem_singleton.mp member]
          exact single
        · split at member
          · rcases List.mem_cons.mp member with rfl | member
            · exact single
            · exact ih member
          · split at member
            · rw [List.mem_singleton.mp member]
              exact single
            · rename_i begun others found
              rcases List.mem_cons.mp member with rfl | member
              · exact List.forall_mem_cons.mpr ⟨printed, ih (found ▸ List.mem_cons_self)⟩
              · exact ih (found ▸ List.mem_cons_of_mem _ member)

theorem notMem_of_mem_words (member : word ∈ words line) (blank : isBlank c = true) :
    c ∉ word.toList := by
  obtain ⟨chars, found, rfl⟩ := List.mem_map.mp member
  rw [String.toList_ofList]
  intro inside
  rw [not_isBlank_of_mem_splitWords found c inside] at blank
  contradiction

theorem startsWith_iff {start : String} :
    startsWith text start = true ↔ start.toList <+: text.toList :=
  List.isPrefixOf_iff_prefix

/-- A text that is one line, and not an empty one. -/
structure IsLine (text : String) : Prop where
  nonempty : text ≠ ""
  noFeed : '\n' ∉ text.toList
  noReturn : '\r' ∉ text.toList

theorem splitWords_ne_nil {rest : List Char} (solid : isBlank c = false) :
    splitWords (c :: rest) ≠ [] := by
  unfold splitWords
  rw [solid]
  split
  · contradiction
  · split
    · simp
    · split
      · simp
      · split <;> simp

theorem splitWords_append_cons {front rest : List Char} (blank : isBlank c = true) :
    splitWords (front ++ c :: rest) = splitWords front ++ splitWords rest := by
  induction front with
  | nil => simp [splitWords, blank]
  | cons first front ih =>
      cases solid : isBlank first with
      | true => simpa [splitWords, solid] using ih
      | false =>
          cases front with
          | nil => simp [splitWords, solid, blank]
          | cons next front =>
              simp only [List.cons_append] at ih ⊢
              cases solid' : isBlank next with
              | true => simp [splitWords.eq_def (first :: _), solid, solid', ih]
              | false =>
                  obtain ⟨word, words, split⟩ :=
                    List.exists_cons_of_ne_nil (@splitWords_ne_nil _ front solid')
                  simp [splitWords.eq_def (first :: _), solid, solid', ih, split]

theorem splitWords_of_solid {word : List Char} (nonempty : word ≠ [])
    (solid : ∀ c ∈ word, isBlank c = false) : splitWords word = [word] := by
  induction word with
  | nil => contradiction
  | cons first word ih =>
      obtain ⟨begun, rest⟩ := List.forall_mem_cons.mp solid
      cases word with
      | nil => simp [splitWords, begun]
      | cons next word =>
          have later := ih (List.cons_ne_nil _ _) rest
          simp [splitWords.eq_def (first :: _), begun, rest next List.mem_cons_self, later]

def Spaced (text : String) : Prop :=
  ∀ c ∈ text.toList, isBlank c = true → c = ' '

instance (text : String) : Decidable (Spaced text) :=
  List.decidableBAll (fun c => isBlank c = true → c = ' ') text.toList

variable {other : String}

theorem spaced_append : Spaced (text ++ other) ↔ Spaced text ∧ Spaced other := by
  simp [Spaced, or_imp, forall_and]

theorem Spaced.notMem (spaced : Spaced text) (blank : isBlank c = true) (apart : c ≠ ' ') :
    c ∉ text.toList :=
  fun member => apart (spaced c member blank)

theorem Spaced.isLine (spaced : Spaced text) (nonempty : text ≠ "") : IsLine text :=
  ⟨nonempty, spaced.notMem (by decide) (by decide), spaced.notMem (by decide) (by decide)⟩

theorem toList_toString (number : Nat) : (toString number).toList = Nat.toDigits 10 number :=
  Nat.toList_repr

theorem isDigit_of_mem_toString {number : Nat} (member : c ∈ (toString number).toList) :
    c.isDigit = true :=
  Nat.isDigit_of_mem_toDigits (by decide) (by decide) (toList_toString number ▸ member)

theorem isBlank_of_isDigit (digit : c.isDigit = true) : isBlank c = false := by
  obtain ⟨low, high⟩ := Char.isDigit_iff_toNat.mp digit
  have bounds : 48 ≤ c.toNat ∧ c.toNat ≤ 57 := ⟨low, high⟩
  simp only [isBlank]
  grind

theorem solid_toString (number : Nat) : ∀ c ∈ (toString number).toList, isBlank c = false :=
  fun _ member => isBlank_of_isDigit (isDigit_of_mem_toString member)

theorem spaced_toString_nat (number : Nat) : Spaced (toString number) := fun c member blank => by
  rw [solid_toString number c member] at blank
  contradiction

theorem spaced_toString (number : Int) : Spaced (toString number) := by
  cases number with
  | ofNat number => exact spaced_toString_nat number
  | negSucc number =>
      have written : toString (Int.negSucc number) = "-" ++ toString (number + 1) := rfl
      rw [written, spaced_append]
      exact ⟨by decide, spaced_toString_nat (number + 1)⟩

theorem notMem_toString (number : Int) : '\n' ∉ (toString number).toList :=
  (spaced_toString number).notMem (by decide) (by decide)

end SwitchShell.Text

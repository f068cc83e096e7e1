import SwitchShell.Proofs.Grammar.Blocks

namespace SwitchShell

namespace OptionGroup

variable {names : Names} {group : OptionGroup} {words : List String} {bound : List (Nat × Value)}

/-- One word, or words in a fixed order. -/
def IsPhrase (group : OptionGroup) : Prop :=
  (group.policy = .oneOf ∧ group.tokens.length = 1) ∨
    (group.policy = .allOrdered ∧ group.tokens ≠ [])

instance (group : OptionGroup) : Decidable group.IsPhrase :=
  inferInstanceAs (Decidable (_ ∨ _))

theorem IsPhrase.tokens_ne_nil (phrase : group.IsPhrase) : group.tokens ≠ [] := by
  rcases phrase with ⟨_, one⟩ | ⟨_, some⟩
  · exact List.ne_nil_of_length_pos (one ▸ Nat.one_pos)
  · exact some

theorem IsPhrase.ordered (phrase : group.IsPhrase) : group.policy ≠ .anyUnordered := by
  rcases phrase with ⟨policy, _⟩ | ⟨policy, _⟩ <;> simp [policy]

/-- The uses of a phrase are the words that go to all its tokens. -/
theorem IsPhrase.begins_iff (phrase : group.IsPhrase) :
    (group.Begins names words bound ∧ group.Suffices words.length) ↔
      ∃ values, TakesInTurn names group.tokens words values ∧
        words.length = group.tokens.length ∧ bound = numbered values := by
  have some := phrase.tokens_ne_nil
  rcases phrase with ⟨policy, one⟩ | ⟨policy, _⟩
  · obtain ⟨token, only⟩ := List.length_eq_one_iff.mp one
    constructor
    · rintro ⟨begins, _⟩
      obtain ⟨slot, other, word, value, held, taken, rfl, rfl⟩ := begins.ofOneOf policy
      rw [only, List.getElem?_singleton] at held
      obtain ⟨rfl, rfl⟩ : slot = 0 ∧ token = other := by simpa using held
      exact ⟨[value], only ▸ .take taken (.done []), only ▸ rfl, rfl⟩
    · rintro ⟨values, taken, length, rfl⟩
      obtain ⟨word, rfl⟩ := List.length_eq_one_iff.mp (length.trans one)
      rw [only] at taken
      cases taken with
      | take first others =>
          cases others
          refine ⟨.one policy ?_ first, by simp [Suffices, policy]⟩
          rw [only]
          rfl
  · constructor
    · rintro ⟨begins, enough⟩
      obtain ⟨values, taken, rfl⟩ := begins.ofOrdered (.inr policy)
      rw [Suffices, policy] at enough
      exact ⟨values, taken, enough, rfl⟩
    · rintro ⟨values, taken, length, rfl⟩
      have spoken : words ≠ [] := by
        rintro rfl
        exact some (List.eq_nil_of_length_eq_zero length.symm)
      exact ⟨.inTurn (.inr policy) spoken taken, by simp only [Suffices, policy, length]⟩

end OptionGroup

namespace Binding

variable {names : Names} {options : List OptionGroup} {words : List String} {blocks : List Block}

open OptionGroup

theorem Splits.apart (splits : Splits names options words blocks)
    (phrases : ∀ group ∈ options, group.IsPhrase)
    (passed : ∀ block ∈ blocks, ∀ index group, options[index]? = some group →
      block.option ≠ index → Passes names group block.words) : Apart names options blocks where
  begun := splits.begun
  different := splits.different
  passed := passed
  single block _ group option policy word _ := by
    rcases phrases group (List.mem_of_getElem? option) with ⟨_, one⟩ | ⟨other, _⟩
    · obtain ⟨token, only⟩ := List.length_eq_one_iff.mp one
      exact only ▸ List.pairwise_singleton _ token
    · rw [policy] at other
      contradiction
  run block later sub group option policy := by
    have member : block ∈ blocks := sub.subset List.mem_cons_self
    rcases phrases group (List.mem_of_getElem? option) with ⟨other, _⟩ | ⟨ordered, _⟩
    · exact absurd other policy
    · have enough := (Block.whole_iff option).mp (splits.whole block member)
      obtain ⟨values, taken, _⟩ := ((splits.begun block member).begins option).ofOrdered (.inr ordered)
      rw [Suffices, ordered] at enough
      exact runLength_of_length taken enough

/-- Blocks that the options of other blocks pass are bound. -/
theorem Splits.ofWords_eq (splits : Splits names options words blocks)
    (phrases : ∀ group ∈ options, group.IsPhrase)
    (passed : ∀ block ∈ blocks, ∀ index group, options[index]? = some group →
      block.option ≠ index → Passes names group block.words) :
    ofWords names options words = .ok (blocks.flatMap Block.bindings) := by
  rw [splits.words_eq]
  exact ((splits.apart phrases passed).ofWords_eq
    (fun group member => (phrases group member).tokens_ne_nil)
    fun group member => (phrases group member).ordered).1 splits.whole

end Binding

end SwitchShell

import SwitchShell.Proofs.Command.Faults
import SwitchShell.Proofs.Grammar.Blame
import SwitchShell.Proofs.Grammar.Use

namespace SwitchShell

/-- No index left its range. -/
def Fault.InRange (fault : Fault) : Prop :=
  fault ≠ .outOfRange

/-- Nor did a token turn down a word that was given to it. -/
def Fault.Orderly (fault : Fault) : Prop :=
  fault.InRange ∧ ∀ word, fault ≠ .invalidValue word

open Fault

variable {names : Names} {words window : List String}

namespace OptionGroup

variable {group : OptionGroup} {tokens : List Token} {claim : Claim} {claims : List Claim}
  {nails : List Nail} {slot offset position : Nat} {taken : List Nat}
  {word : String}

theorem exists_of_freeSlot? (free : freeSlot? names taken word offset tokens = some slot) :
    slot ∉ taken ∧ ∃ place token, slot = offset + place ∧ tokens[place]? = some token ∧
      token.accepts names word = true := by
  induction tokens generalizing offset with
  | nil => cases free
  | cons token tokens ih =>
      unfold freeSlot? at free
      split at free
      · rename_i fits
        cases free
        rw [Bool.and_eq_true, Bool.not_eq_true', List.contains_eq_mem, decide_eq_false_iff_not]
          at fits
        exact ⟨fits.1, 0, token, rfl, rfl, fits.2⟩
      · obtain ⟨fresh, place, other, rfl, held, accepted⟩ := ih free
        exact ⟨fresh, place + 1, other, by omega, held, accepted⟩

theorem lt_of_freeSlot? (free : freeSlot? names taken word offset tokens = some slot) :
    slot < offset + tokens.length := by
  obtain ⟨_, place, _, rfl, held, _⟩ := exists_of_freeSlot? free
  have inside := (List.getElem?_eq_some_iff.mp held).1
  omega

theorem exists_of_mem_claimFree (member : claim ∈ claimFree names tokens taken position words) :
    claim.slot ∉ taken ∧ ∃ place token word, claim.position = position + place ∧
      tokens[claim.slot]? = some token ∧ words[place]? = some word ∧
      token.accepts names word = true := by
  induction words generalizing taken position with
  | nil => exact absurd member List.not_mem_nil
  | cons word words ih =>
      unfold claimFree at member
      split at member
      · rename_i slot free
        rcases List.mem_cons.mp member with rfl | member
        · obtain ⟨fresh, place, token, same, held, accepted⟩ := exists_of_freeSlot? free
          rw [Nat.zero_add] at same
          exact ⟨fresh, 0, token, word, rfl, same ▸ held, rfl, accepted⟩
        · obtain ⟨fresh, place, token, other, same, held, inside, accepted⟩ := ih member
          exact ⟨fun old => fresh (List.mem_cons_of_mem _ old), place + 1, token, other,
            by omega, held, inside, accepted⟩
      · obtain ⟨fresh, place, token, other, same, held, inside, accepted⟩ := ih member
        exact ⟨fresh, place + 1, token, other, by omega, held, inside, accepted⟩

theorem exists_of_lt_runLength (less : slot < runLength names tokens words) :
    ∃ token word, tokens[slot]? = some token ∧ words[slot]? = some word ∧
      token.accepts names word = true := by
  fun_induction runLength names tokens words generalizing slot with
  | case1 token tokens word words accepted ih =>
      cases slot with
      | zero => exact ⟨token, word, rfl, rfl, accepted⟩
      | succ slot => exact ih (Nat.lt_of_succ_lt_succ less)
  | case2 => exact absurd less (Nat.not_lt_zero _)
  | case3 => exact absurd less (Nat.not_lt_zero _)

/-- The claim gives a word of the window to a token of the group that accepts it. -/
def Admits (names : Names) (group : OptionGroup) (window : List String) (claim : Claim) : Prop :=
  ∃ token word, group.tokens[claim.slot]? = some token ∧
    window[claim.position]? = some word ∧ token.accepts names word = true

theorem admits_of_mem_diagonal {count : Nat} (member : claim ∈ diagonal count)
    (run : count = runLength names group.tokens window) : group.Admits names window claim := by
  obtain ⟨place, less, rfl⟩ := List.mem_map.mp member
  exact exists_of_lt_runLength (run ▸ List.mem_range.mp less)

theorem admits_of_slotOf? {place : Nat} (present : window[place]? = some word)
    (accepted : group.slotOf? names word = some slot) :
    group.Admits names window { slot, position := place } := by
  obtain ⟨inside, accepted, _⟩ := List.findIdx?_eq_some_iff_getElem.mp accepted
  exact ⟨group.tokens[slot], word, List.getElem?_eq_getElem inside, present, accepted⟩

theorem admits_of_claims (found : group.claims names window = .ok claims) :
    ∀ claim ∈ claims, group.Admits names window claim := by
  intro claim member
  unfold OptionGroup.claims at found
  split at found
  · simp only [claimOne] at found
    split at found
    · contradiction
    · cases found
      obtain ⟨⟨word, position⟩, present, kept⟩ := List.mem_filterMap.mp member
      obtain ⟨slot, accepted, rfl⟩ := Option.map_eq_some_iff.mp kept
      exact admits_of_slotOf? (List.mem_zipIdx_iff_getElem?.mp present) accepted
  · cases found
    obtain ⟨_, place, token, word, position, held, inside, accepted⟩ :=
      exists_of_mem_claimFree member
    rw [Nat.zero_add] at position
    exact ⟨token, word, held, position ▸ inside, accepted⟩
  · cases found
    exact admits_of_mem_diagonal member rfl
  · obtain ⟨whole, rfl⟩ := claims_of_claimAll found (List.ne_nil_of_mem member)
    exact admits_of_mem_diagonal member whole.symm

theorem orderly_claims (some : group.tokens ≠ []) : FaultIn Orderly (group.claims names window) := by
  unfold OptionGroup.claims
  split
  · unfold claimOne
    extract_lets claims
    split
    · exact faultIn_error ⟨nofun, fun _ => nofun⟩
    · exact faultIn_ok _
  · exact faultIn_ok _
  · exact faultIn_ok _
  · unfold claimAll
    split
    · exact faultIn_ok _
    · split
      · contradiction
      · split
        · split
          · exact faultIn_ok _
          · exact faultIn_error ⟨nofun, fun _ => nofun⟩
        · exact faultIn_ok _

theorem orderly_nail (admitted : group.Admits names window claim) :
    FaultIn Orderly (group.nail names window claim) := by
  obtain ⟨token, word, held, inside, accepted⟩ := admitted
  obtain ⟨value, bound⟩ := Token.exists_bind_of_accepts accepted
  simp only [OptionGroup.nail, held, inside, bound]
  split
  · exact faultIn_error ⟨nofun, fun _ => nofun⟩
  · exact faultIn_ok _

theorem orderly_claim (some : group.tokens ≠ []) : FaultIn Orderly (group.claim names window) := by
  unfold OptionGroup.claim
  split
  · rename_i failed
    exact faultIn_error (orderly_claims some _ failed)
  · rename_i claims found
    split
    · exact faultIn_error ⟨nofun, fun _ => nofun⟩
    · intro fault failed
      obtain ⟨claim, member, unnailed⟩ := exists_of_mapM_error failed
      exact orderly_nail (admits_of_claims found claim member) fault unnailed

/-- The nail binds a word of the window by a token of the group that takes it. -/
def Drives (names : Names) (group : OptionGroup) (window : List String) (nail : Nail) : Prop :=
  ∃ token word, group.tokens[nail.slot]? = some token ∧ window[nail.position]? = some word ∧
    token.Takes names word nail.value

theorem drives_of_claim (claimed : group.claim names window = .ok nails) :
    ∀ nail ∈ nails, group.Drives names window nail := by
  intro nail member
  obtain ⟨claims, found, _, nailed⟩ := claim_eq_ok_iff.mp claimed
  obtain ⟨claim, inside, same⟩ := exists_of_mem_mapM nailed member
  obtain ⟨token, word, held, present, accepted⟩ := admits_of_claims found claim inside
  obtain ⟨other, again, held', present', clear, bound, slot, position⟩ := nail_eq_ok_iff.mp same
  cases held.symm.trans held'
  cases present.symm.trans present'
  exact ⟨token, word, slot ▸ held, position ▸ present, accepted, clear, bound⟩

theorem position_lt_of_claim (claimed : group.claim names window = .ok nails) :
    ∀ nail ∈ nails, nail.position < window.length := by
  intro nail member
  obtain ⟨_, _, _, position, _⟩ := drives_of_claim claimed nail member
  exact (List.getElem?_eq_some_iff.mp position).1

end OptionGroup

namespace Binding

variable {options : List OptionGroup} {entries unused : List (Nat × OptionGroup)}
  {places : List (Nat × String)} {filled : List (Option Binding)} {index rounds : Nat}
  {nails : List Nail}

theorem orderly_winner (some : ∀ entry ∈ entries, entry.2.tokens ≠ []) :
    FaultIn Orderly (winner names window entries) := by
  induction entries with
  | nil => exact faultIn_ok _
  | cons entry entries ih =>
      obtain ⟨first, others⟩ := List.forall_mem_cons.mp some
      unfold winner
      split
      · rename_i failed
        exact faultIn_error (OptionGroup.orderly_claim first _ failed)
      · split
        · exact faultIn_ok _
        · exact ih others

theorem exists_enter (index : Nat) (filled : List (Option Binding))
    (inside : ∀ nail ∈ nails, nail.position < places.length) :
    ∃ entered, enter index places nails filled = .ok entered := by
  induction nails generalizing filled with
  | nil => exact ⟨filled, rfl⟩
  | cons nail nails ih =>
      obtain ⟨first, others⟩ := List.forall_mem_cons.mp inside
      rw [enter, List.getElem?_eq_getElem first]
      exact ih _ others

theorem orderly_play (some : ∀ entry ∈ unused, entry.2.tokens ≠ []) :
    FaultIn Orderly (play names words rounds unused filled) := by
  induction rounds generalizing unused filled with
  | zero =>
      unfold play
      split
      · exact faultIn_ok _
      · exact faultIn_error ⟨nofun, fun _ => nofun⟩
  | succ rounds ih =>
      unfold play
      split
      · exact faultIn_ok _
      · dsimp only
        split
        · rename_i failed
          exact faultIn_error (orderly_winner some _ failed)
        · exact faultIn_error ⟨nofun, fun _ => nofun⟩
        · rename_i index nails won
          obtain ⟨group, _, claimed, _⟩ := claim_of_winner won
          have inside := OptionGroup.position_lt_of_claim claimed
          simp only [List.length_map] at inside
          obtain ⟨entered, done⟩ := exists_enter index filled inside
          rw [done]
          exact ih fun entry kept => some entry (List.mem_filter.mp kept).1

theorem orderly_ofWords (names : Names) (words : List String)
    (some : ∀ group ∈ options, group.tokens ≠ []) :
    FaultIn Orderly (ofWords names options words) := by
  refine orderly_play fun entry member => ?_
  obtain ⟨⟨group, index⟩, present, rfl⟩ := List.mem_map.mp member
  exact some group (List.fst_mem_of_mem_zipIdx present)

theorem inRange_ofWords (names : Names) (words : List String)
    (some : ∀ group ∈ options, group.tokens ≠ []) :
    FaultIn InRange (ofWords names options words) := fun fault failed =>
  (orderly_ofWords names words some fault failed).1

theorem told_ofWords (names : Names) (words : List String)
    (some : ∀ group ∈ options, group.tokens ≠ []) :
    FaultIn (fun fault => fault.isFatal = false) (ofWords names options words) := by
  intro fault failed
  have inRange := inRange_ofWords names words some fault failed
  cases blames_of_ofWords failed with
  | outOfRange => exact absurd rfl inRange
  | ambiguous | optionRequired | superfluous | badOption _ | invalidValue _ => rfl

end Binding

end SwitchShell

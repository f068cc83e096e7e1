import SwitchShell.Proofs.Grammar.Binding

namespace SwitchShell

/-- The ways in which words can fail to be bound. -/
inductive Fault.Blames (words : List String) : Fault → Prop where
  | ambiguous : Blames words .ambiguous
  | optionRequired : Blames words .optionRequired
  | superfluous : Blames words .superfluous
  | outOfRange : Blames words .outOfRange
  | badOption {word : String} (member : word ∈ words) : Blames words (.badOption word)
  | invalidValue {word : String} (member : word ∈ words) : Blames words (.invalidValue word)

variable {names : Names} {words window : List String} {fault : Fault}

theorem Fault.Blames.mono (blames : fault.Blames window) (sub : ∀ word ∈ window, word ∈ words) :
    fault.Blames words := by
  cases blames with
  | ambiguous => exact .ambiguous
  | optionRequired => exact .optionRequired
  | superfluous => exact .superfluous
  | outOfRange => exact .outOfRange
  | badOption member => exact .badOption (sub _ member)
  | invalidValue member => exact .invalidValue (sub _ member)

theorem Token.fault_of_bind {token : Token} {word : String}
    (failed : token.bind names word = .error fault) : fault = .invalidValue word := by
  unfold Token.bind at failed
  split at failed
  all_goals
    split at failed
    · contradiction
    · cases failed
      rfl

namespace OptionGroup

variable {group : OptionGroup} {claim : Claim}

theorem blames_of_nail (failed : group.nail names window claim = .error fault) :
    fault.Blames window := by
  unfold nail at failed
  split at failed
  · rename_i token word _ position
    split at failed
    · cases failed
      exact .ambiguous
    · split at failed
      · contradiction
      · rename_i unbound
        cases failed
        rw [Token.fault_of_bind unbound]
        exact .invalidValue (List.mem_of_getElem? position)
  · cases failed
    exact .outOfRange

theorem blames_of_claims (failed : group.claims names window = .error fault) :
    fault.Blames window := by
  unfold claims at failed
  split at failed
  · unfold claimOne at failed
    extract_lets found at failed
    split at failed
    · cases failed
      exact .superfluous
    · contradiction
  · contradiction
  · contradiction
  · unfold claimAll at failed
    split at failed
    · contradiction
    · split at failed
      · cases failed
        exact .outOfRange
      · split at failed
        · split at failed
          · contradiction
          · cases failed
            exact .optionRequired
        · contradiction

theorem blames_of_claim (failed : group.claim names window = .error fault) :
    fault.Blames window := by
  unfold OptionGroup.claim at failed
  split at failed
  · rename_i unclaimed
    cases failed
    exact blames_of_claims unclaimed
  · split at failed
    · cases failed
      exact .optionRequired
    · obtain ⟨_, _, unnailed⟩ := exists_of_mapM_error failed
      exact blames_of_nail unnailed

end OptionGroup

namespace Binding

variable {entries unused : List (Nat × OptionGroup)} {filled : List (Option Binding)}
  {options : List OptionGroup} {rounds : Nat}

theorem blames_of_winner (failed : winner names window entries = .error fault) :
    fault.Blames window := by
  induction entries with
  | nil => contradiction
  | cons entry entries ih =>
      unfold winner at failed
      split at failed
      · rename_i unclaimed
        cases failed
        exact OptionGroup.blames_of_claim unclaimed
      · split at failed
        · contradiction
        · exact ih failed

theorem fault_of_enter {index : Nat} {places : List (Nat × String)} {nails : List Nail}
    (failed : enter index places nails filled = .error fault) : fault = .outOfRange := by
  induction nails generalizing filled with
  | nil => contradiction
  | cons nail nails ih =>
      unfold enter at failed
      split at failed
      · exact ih failed
      · cases failed
        rfl

theorem blames_of_play (failed : play names words rounds unused filled = .error fault) :
    fault.Blames words := by
  induction rounds generalizing unused filled with
  | zero =>
      unfold play at failed
      split at failed
      · contradiction
      · rename_i place word places waiting
        cases failed
        exact .badOption (mem_of_mem_unclaimed (waiting ▸ List.mem_cons_self))
  | succ rounds ih =>
      unfold play at failed
      split at failed
      · contradiction
      · rename_i place word places waiting
        have left : ∀ other ∈ ((place, word) :: places).map Prod.snd, other ∈ words := by
          rw [← waiting]
          exact List.forall_mem_map.mpr fun _ member => mem_of_mem_unclaimed member
        dsimp only at failed
        split at failed
        · rename_i lost
          cases failed
          exact (blames_of_winner lost).mono left
        · cases failed
          exact .badOption (left word List.mem_cons_self)
        · split at failed
          · rename_i misplaced
            cases failed
            rw [fault_of_enter misplaced]
            exact .outOfRange
          · exact ih failed

theorem blames_of_ofWords (failed : ofWords names options words = .error fault) :
    fault.Blames words :=
  blames_of_play failed

end Binding

end SwitchShell

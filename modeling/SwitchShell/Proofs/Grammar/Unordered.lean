import Mathlib.Data.Finset.Dedup
import SwitchShell.Proofs.Grammar.Blocks
import SwitchShell.Proofs.Grammar.Bound

namespace SwitchShell.OptionGroup

variable {names : Names} {group : OptionGroup} {tokens : List Token} {token : Token}
  {window words reordered : List String} {word other : String} {taken : List Nat}
  {slot offset position place : Nat} {nails : List Nail} {claims : List Claim} {fault : Fault}

/-- No word goes to two tokens, and no token to two words. -/
structure OneToOne (names : Names) (group : OptionGroup) (window : List String) : Prop where
  token : ∀ word ∈ window, group.tokens.Pairwise fun left right =>
    ¬(left.accepts names word = true ∧ right.accepts names word = true)
  word : ∀ token ∈ group.tokens, ∀ word ∈ window, ∀ other ∈ window,
    token.accepts names word = true → token.accepts names other = true → word = other

/-- The slots and values of nails, whatever the order of the words was. -/
def pairs (nails : List Nail) : Finset (Nat × Value) :=
  (nails.map fun nail => (nail.slot, nail.value)).toFinset

/-- The word is taken by the token of the slot and bound to the value. -/
def Gives (names : Names) (group : OptionGroup) (word : String) (pair : Nat × Value) : Prop :=
  ∃ token, group.tokens[pair.1]? = some token ∧ token.Takes names word pair.2

/-- Some token accepts a word, but one that must take part accepts none. -/
def Lacks (names : Names) (group : OptionGroup) (window : List String) : Prop :=
  (∃ word ∈ window, ¬ group.Ignores names word) ∧
    ∃ token ∈ group.tokens, token.required = true ∧
      ∀ word ∈ window, token.accepts names word = false

/-- A word that goes to a token is ambiguous for it. -/
def Unclear (names : Names) (group : OptionGroup) (window : List String) : Prop :=
  ∃ word ∈ window, ∃ token ∈ group.tokens,
    token.accepts names word = true ∧ token.isAmbiguous word = true

theorem OneToOne.of_perm (oneToOne : group.OneToOne names window) (same : reordered.Perm window) :
    group.OneToOne names reordered where
  token word member := oneToOne.token word (same.mem_iff.mp member)
  word token inside word member other member' :=
    oneToOne.word token inside word (same.mem_iff.mp member) other (same.mem_iff.mp member')

theorem lacks_iff_of_perm (same : reordered.Perm window) :
    group.Lacks names reordered ↔ group.Lacks names window := by
  simp only [Lacks, same.mem_iff]

theorem unclear_iff_of_perm (same : reordered.Perm window) :
    group.Unclear names reordered ↔ group.Unclear names window := by
  simp only [Unclear, same.mem_iff]

theorem exists_freeSlot? (held : tokens[place]? = some token)
    (accepted : token.accepts names word = true) (fresh : offset + place ∉ taken) :
    ∃ slot, freeSlot? names taken word offset tokens = some slot := by
  induction tokens generalizing offset place with
  | nil => cases held
  | cons first tokens ih =>
      unfold freeSlot?
      split
      · exact ⟨offset, rfl⟩
      · rename_i refused
        cases place with
        | zero =>
            cases held
            simp [accepted] at refused
            exact absurd refused fresh
        | succ place => exact ih held (by rwa [Nat.add_assoc, Nat.add_comm 1 place])

theorem OneToOne.exists_claim (oneToOne : group.OneToOne names window) (part : words ⊆ window)
    (member : word ∈ words) (held : group.tokens[slot]? = some token)
    (accepted : token.accepts names word = true) (fresh : slot ∉ taken) :
    ∃ claim ∈ claimFree names group.tokens taken position words, claim.slot = slot := by
  induction words generalizing taken position with
  | nil => contradiction
  | cons first words ih =>
      have others := List.subset_of_cons_subset part
      unfold claimFree
      split
      · rename_i found free
        obtain ⟨_, place, rival, place_eq, held', accepted'⟩ := exists_of_freeSlot? free
        rw [Nat.zero_add] at place_eq
        subst place_eq
        by_cases same : slot = found
        · exact ⟨_, List.mem_cons_self, same.symm⟩
        · rcases List.mem_cons.mp member with rfl | member
          · exact absurd (slot_unique (oneToOne.token _ (part member)) held accepted held' accepted') same
          · have fresh' : slot ∉ found :: taken := by simp [same, fresh]
            obtain ⟨claim, inside, own⟩ := ih others member fresh'
            exact ⟨claim, List.mem_cons_of_mem _ inside, own⟩
      · rename_i none
        rcases List.mem_cons.mp member with rfl | member
        · obtain ⟨found, free⟩ := exists_freeSlot? held accepted ((Nat.zero_add slot).symm ▸ fresh)
          rw [none] at free
          contradiction
        · exact ih others member fresh

theorem nail_of_admits {claim : Claim} (admitted : group.Admits names window claim) :
    ∃ token word, group.tokens[claim.slot]? = some token ∧ window[claim.position]? = some word ∧
      token.accepts names word = true ∧
      (token.isAmbiguous word = true ∧ group.nail names window claim = .error .ambiguous ∨
        ∃ value, token.Takes names word value ∧
          group.nail names window claim =
            .ok { slot := claim.slot, position := claim.position, value }) := by
  obtain ⟨token, word, held, inside, accepted⟩ := admitted
  refine ⟨token, word, held, inside, accepted, ?_⟩
  cases clear : token.isAmbiguous word with
  | true => exact .inl ⟨rfl, by simp only [nail, held, inside, clear, if_true]⟩
  | false =>
      obtain ⟨value, taken⟩ := Token.exists_takes accepted clear
      exact .inr ⟨value, taken, nail_of_takes held inside taken⟩

theorem claims_anyUnordered (policy : group.policy = .anyUnordered) :
    group.claims names window = .ok (claimFree names group.tokens [] 0 window) := by
  simp only [OptionGroup.claims, policy]

/-- The tokens that claim a word are those that accept one. -/
theorem OneToOne.mem_slots_iff (oneToOne : group.OneToOne names window)
    (held : group.tokens[slot]? = some token) :
    slot ∈ (claimFree names group.tokens [] 0 window).map Claim.slot ↔
      ∃ word ∈ window, token.accepts names word = true := by
  constructor
  · intro member
    obtain ⟨claim, inside, rfl⟩ := List.mem_map.mp member
    obtain ⟨_, place, own, word, _, held', present, accepted⟩ := exists_of_mem_claimFree inside
    cases held.symm.trans held'
    exact ⟨word, List.mem_of_getElem? present, accepted⟩
  · rintro ⟨word, member, accepted⟩
    obtain ⟨claim, inside, own⟩ :=
      oneToOne.exists_claim (List.Subset.refl _) member held accepted (List.not_mem_nil)
    exact List.mem_map.mpr ⟨claim, inside, own⟩

theorem OneToOne.isEmpty_iff (oneToOne : group.OneToOne names window) :
    (claimFree names group.tokens [] 0 window).isEmpty = true ↔
      ∀ word ∈ window, group.Ignores names word := by
  rw [List.isEmpty_iff, ← List.map_eq_nil_iff (f := Claim.slot), List.eq_nil_iff_forall_not_mem]
  constructor
  · intro none word member token inside
    obtain ⟨slot, held⟩ := List.mem_iff_getElem?.mp inside
    rw [← Bool.not_eq_true]
    exact fun accepted => none slot ((oneToOne.mem_slots_iff held).mpr ⟨word, member, accepted⟩)
  · intro ignored slot member
    obtain ⟨claim, inside, rfl⟩ := List.mem_map.mp member
    obtain ⟨_, _, token, word, _, held, present, accepted⟩ := exists_of_mem_claimFree inside
    have refused := ignored word (List.mem_of_getElem? present) token (List.mem_of_getElem? held)
    rw [accepted] at refused
    contradiction

theorem OneToOne.missesRequired_iff (oneToOne : group.OneToOne names window) :
    group.missesRequired (claimFree names group.tokens [] 0 window) = true ↔
      ∃ token ∈ group.tokens, token.required = true ∧
        ∀ word ∈ window, token.accepts names word = false := by
  have unclaimed : ∀ slot, (!(claimFree names group.tokens [] 0 window).any fun claim =>
      claim.slot == slot) = true ↔
        slot ∉ (claimFree names group.tokens [] 0 window).map Claim.slot := by
    simp
  rw [missesRequired, List.any_eq_true]
  constructor
  · rintro ⟨⟨token, slot⟩, member, missing⟩
    have held := List.mem_zipIdx_iff_getElem?.mp member
    rw [Bool.and_eq_true, unclaimed, oneToOne.mem_slots_iff held] at missing
    refine ⟨token, List.mem_of_getElem? held, missing.1, fun word inside => ?_⟩
    rw [← Bool.not_eq_true]
    exact fun accepted => missing.2 ⟨word, inside, accepted⟩
  · rintro ⟨token, inside, required, refused⟩
    obtain ⟨slot, held⟩ := List.mem_iff_getElem?.mp inside
    refine ⟨(token, slot), List.mem_zipIdx_iff_getElem?.mpr held, ?_⟩
    rw [Bool.and_eq_true, unclaimed, oneToOne.mem_slots_iff held]
    refine ⟨required, ?_⟩
    rintro ⟨word, member, accepted⟩
    rw [refused word member] at accepted
    contradiction

theorem OneToOne.lacks_iff (oneToOne : group.OneToOne names window) :
    group.Lacks names window ↔
      (!(claimFree names group.tokens [] 0 window).isEmpty &&
        group.missesRequired (claimFree names group.tokens [] 0 window)) = true := by
  rw [Bool.and_eq_true, Bool.not_eq_true', ← Bool.not_eq_true, oneToOne.isEmpty_iff,
    oneToOne.missesRequired_iff]
  simp only [Lacks, not_forall, exists_prop]

/-- The claim that a token makes is of the one word that it accepts. -/
theorem OneToOne.exists_claim_at (oneToOne : group.OneToOne names window)
    (policy : group.policy = .anyUnordered) (member : word ∈ window)
    (held : group.tokens[slot]? = some token) (accepted : token.accepts names word = true) :
    ∃ claim ∈ claimFree names group.tokens [] 0 window, claim.slot = slot ∧
      window[claim.position]? = some word := by
  obtain ⟨claim, inside, rfl⟩ : ∃ claim ∈ claimFree names group.tokens [] 0 window,
      claim.slot = slot :=
    oneToOne.exists_claim (List.Subset.refl _) member held accepted List.not_mem_nil
  obtain ⟨rival, other, held', present, accepted'⟩ :=
    admits_of_claims (claims_anyUnordered policy) claim inside
  cases held.symm.trans held'
  have same := oneToOne.word token (List.mem_of_getElem? held) other
    (List.mem_of_getElem? present) word member accepted' accepted
  exact ⟨claim, inside, rfl, same ▸ present⟩

/-- If no required word is missing, either a word is ambiguous or every word that
some token accepts is bound by it. -/
theorem OneToOne.claim_of_not_lacks (oneToOne : group.OneToOne names window)
    (policy : group.policy = .anyUnordered) (complete : ¬ group.Lacks names window) :
    (group.Unclear names window → group.claim names window = .error .ambiguous) ∧
    (¬ group.Unclear names window → ∃ nails, group.claim names window = .ok nails ∧
      ∀ pair, pair ∈ pairs nails ↔ ∃ word ∈ window, group.Gives names word pair) := by
  have found := @claims_anyUnordered names _ window policy
  have claim_eq : group.claim names window =
      (claimFree names group.tokens [] 0 window).mapM (group.nail names window) := by
    simp only [OptionGroup.claim, found, policy, checksTokens, Bool.and_true]
    rw [if_neg (oneToOne.lacks_iff.not.mp complete)]
  cases outcome : group.claim names window with
  | error fault =>
      -- Some claim could not be nailed, which only ambiguity explains.
      obtain ⟨claim, own, failed⟩ := exists_of_mapM_error (claim_eq.symm.trans outcome)
      obtain ⟨token, word, held, present, accepted, ⟨unclear, nailed⟩ | ⟨_, _, nailed⟩⟩ :=
        nail_of_admits (admits_of_claims found claim own)
      · cases failed.symm.trans nailed
        exact ⟨fun _ => rfl, fun clear => absurd ⟨word, List.mem_of_getElem? present, token,
          List.mem_of_getElem? held, accepted, unclear⟩ clear⟩
      · cases failed.symm.trans nailed
  | ok nails =>
      have nailed := claim_eq.symm.trans outcome
      refine ⟨?_, fun clear => ⟨nails, rfl, fun pair => ?_⟩⟩
      · rintro ⟨word, member, token, inside, accepted, unclear⟩
        obtain ⟨slot, held⟩ := List.mem_iff_getElem?.mp inside
        obtain ⟨claim, own, rfl, present⟩ := oneToOne.exists_claim_at policy member held accepted
        obtain ⟨nail, _, bound⟩ := exists_mem_of_mapM nailed own
        simp [OptionGroup.nail, held, present, unclear] at bound
      · rw [pairs, List.mem_toFinset, List.mem_map]
        constructor
        · rintro ⟨nail, inside, rfl⟩
          obtain ⟨token, word, held, present, taken⟩ := drives_of_claim outcome nail inside
          exact ⟨word, List.mem_of_getElem? present, token, held, taken⟩
        · rintro ⟨word, member, token, held, taken⟩
          obtain ⟨claim, own, slot, present⟩ :=
            oneToOne.exists_claim_at policy member held taken.accepted
          obtain ⟨nail, inside, bound⟩ := exists_mem_of_mapM nailed own
          obtain ⟨_, position⟩ := claim
          cases slot
          cases (nail_of_takes held present taken).symm.trans bound
          exact ⟨_, inside, rfl⟩

theorem OneToOne.claim_of_lacks (oneToOne : group.OneToOne names window)
    (policy : group.policy = .anyUnordered) (lacks : group.Lacks names window) :
    group.claim names window = .error .optionRequired := by
  have missing := oneToOne.lacks_iff.mp lacks
  simp only [OptionGroup.claim, claims_anyUnordered policy, policy, checksTokens, Bool.and_true,
    missing, if_true]

/-- Words that are claimed are clear, and their values are those that words give. -/
theorem OneToOne.pairs_of_claim (oneToOne : group.OneToOne names window)
    (policy : group.policy = .anyUnordered) (claimed : group.claim names window = .ok nails) :
    ¬ group.Unclear names window ∧
      ∀ pair, pair ∈ pairs nails ↔ ∃ word ∈ window, group.Gives names word pair := by
  have complete : ¬ group.Lacks names window := fun lacks => by
    cases (oneToOne.claim_of_lacks policy lacks).symm.trans claimed
  obtain ⟨faults, binds⟩ := oneToOne.claim_of_not_lacks policy complete
  have clear : ¬ group.Unclear names window := fun unclear => by
    cases (faults unclear).symm.trans claimed
  obtain ⟨own, same, bound⟩ := binds clear
  cases same.symm.trans claimed
  exact ⟨clear, bound⟩

theorem nodup_slots_of_claim (claimed : group.claim names window = .ok nails) :
    (nails.map Nail.slot).Nodup := by
  by_cases idle : nails = []
  · exact idle ▸ List.nodup_nil
  · exact ((shape_of_claim claimed).2 idle).nodup

theorem OneToOne.pairs_claim_of_perm (oneToOne : group.OneToOne names window)
    (policy : group.policy = .anyUnordered) (same : reordered.Perm window) :
    (group.claim names reordered).map pairs = (group.claim names window).map pairs := by
  have moved := oneToOne.of_perm same
  by_cases lacks : group.Lacks names window
  · rw [oneToOne.claim_of_lacks policy lacks,
      moved.claim_of_lacks policy ((lacks_iff_of_perm same).mpr lacks)]
  · obtain ⟨faults, binds⟩ := oneToOne.claim_of_not_lacks policy lacks
    obtain ⟨faults', binds'⟩ :=
      moved.claim_of_not_lacks policy ((lacks_iff_of_perm same).not.mpr lacks)
    by_cases unclear : group.Unclear names window
    · rw [faults unclear, faults' ((unclear_iff_of_perm same).mpr unclear)]
    · obtain ⟨nails, claimed, bound⟩ := binds unclear
      obtain ⟨nails', claimed', bound'⟩ := binds' ((unclear_iff_of_perm same).not.mpr unclear)
      rw [claimed, claimed']
      refine congrArg Except.ok (Finset.ext fun pair => ?_)
      simp only [bound, bound', same.mem_iff]

/-- A word gives one slot one value, as no two tokens accept it. -/
theorem OneToOne.pair_unique {pair pair' : Nat × Value} (oneToOne : group.OneToOne names window)
    (member : word ∈ window) (gives : group.Gives names word pair)
    (gives' : group.Gives names word pair') : pair = pair' := by
  obtain ⟨token, held, taken⟩ := gives
  obtain ⟨token', held', taken'⟩ := gives'
  have slots := slot_unique (oneToOne.token word member) held taken.accepted held' taken'.accepted
  obtain ⟨slot, value⟩ := pair
  obtain ⟨slot', value'⟩ := pair'
  cases slots
  cases held.symm.trans held'
  cases taken.bound.symm.trans taken'.bound
  rfl

/-- One word gives a slot its value, as its token accepts no other. -/
theorem OneToOne.word_unique {pair : Nat × Value} (oneToOne : group.OneToOne names window)
    (member : word ∈ window) (gives : group.Gives names word pair) (member' : other ∈ window)
    (gives' : group.Gives names other pair) : word = other := by
  obtain ⟨token, held, taken⟩ := gives
  obtain ⟨token', held', taken'⟩ := gives'
  cases held.symm.trans held'
  exact oneToOne.word token (List.mem_of_getElem? held) word member other member' taken.accepted
    taken'.accepted

theorem exists_gives (clear : ¬ group.Unclear names window) (member : word ∈ window)
    (claimable : ¬ group.Ignores names word) : ∃ pair, group.Gives names word pair := by
  simp only [Ignores, not_forall, Bool.not_eq_false, exists_prop] at claimable
  obtain ⟨token, inside, accepted⟩ := claimable
  obtain ⟨slot, held⟩ := List.mem_iff_getElem?.mp inside
  have plain : token.isAmbiguous word = false := by
    rw [← Bool.not_eq_true]
    exact fun unclear => clear ⟨word, member, token, inside, accepted, unclear⟩
  obtain ⟨value, taken⟩ := Token.exists_takes accepted plain
  exact ⟨(slot, value), token, held, taken⟩

/-- The outcome of a window is that of its words in any order: the same fault, or
the same slots with the same values.  Every word that some token accepts has one of
them, and each comes of one word. -/
theorem claim_of_perm (policy : group.policy = .anyUnordered)
    (oneToOne : group.OneToOne names window) (same : reordered.Perm window) :
    (group.claim names reordered).map pairs = (group.claim names window).map pairs ∧
      ∀ nails, group.claim names window = .ok nails →
        (nails.map Nail.slot).Nodup ∧
        (∀ word ∈ window, ¬ group.Ignores names word →
          ∃! pair, pair ∈ pairs nails ∧ group.Gives names word pair) ∧
        (∀ pair ∈ pairs nails, ∃! word, word ∈ window ∧ group.Gives names word pair) := by
  refine ⟨oneToOne.pairs_claim_of_perm policy same, fun nails claimed => ?_⟩
  obtain ⟨clear, bound⟩ := oneToOne.pairs_of_claim policy claimed
  refine ⟨nodup_slots_of_claim claimed, fun word member claimable => ?_, fun pair inside => ?_⟩
  · obtain ⟨pair, gives⟩ := exists_gives clear member claimable
    exact ⟨pair, ⟨(bound pair).mpr ⟨word, member, gives⟩, gives⟩,
      fun other given => oneToOne.pair_unique member given.2 gives⟩
  · obtain ⟨word, member, gives⟩ := (bound pair).mp inside
    exact ⟨word, ⟨member, gives⟩,
      fun other given => oneToOne.word_unique given.1 given.2 member gives⟩

/-- A duplex mode, a speed and a mark, of which the speed must be there. -/
def linkModes : OptionGroup :=
  .anyUnordered [.choice [("full", ""), ("half", "")], { Token.range 10 1000 with required := true },
    .keyword "brief" ""]

/-- Words of other options may stand anywhere in between. -/
theorem linkModes_claimed :
    linkModes.policy = .anyUnordered ∧
      linkModes.OneToOne {} ["mtu", "h", "lag", "0100", "br"] ∧
      ["br", "0100", "mtu", "lag", "h"].Perm ["mtu", "h", "lag", "0100", "br"] ∧
      (linkModes.claim {} ["br", "0100", "mtu", "lag", "h"]).map pairs =
        .ok [(0, .word "half"), (1, .integer 100), (2, .word "brief")].toFinset := by
  have policy : linkModes.policy = .anyUnordered := rfl
  have oneToOne : linkModes.OneToOne {} ["mtu", "h", "lag", "0100", "br"] :=
    ⟨by decide, by decide⟩
  have same : ["br", "0100", "mtu", "lag", "h"].Perm ["mtu", "h", "lag", "0100", "br"] := by decide
  refine ⟨policy, oneToOne, same, (claim_of_perm policy oneToOne same).1.trans ?_⟩
  rfl

end SwitchShell.OptionGroup

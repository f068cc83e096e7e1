import Mathlib.Data.List.Nodup
import Mathlib.Data.List.Perm.Subperm
import SwitchShell.Proofs.Grammar.Use

namespace SwitchShell

/-! The language of the option words of a command.

A line is a sequence of blocks, each of which is a use of another option.  If
every word can only go to one token, binding reads exactly this language, and
the blocks may come in any order.
-/

/-- Consecutive words that go to one option, with the slots and values that bind
them. -/
structure Block where
  option : Nat
  words : List String
  bound : List (Nat × Value)
deriving DecidableEq, Repr

namespace Block

variable {names : Names} {options : List OptionGroup} {block : Block} {blocks : List Block}

def bindings (block : Block) : List Binding :=
  block.bound.map fun (slot, value) => { option := block.option, slot, value }

/-- The words are a use of the option or the first words of one. -/
def Begun (names : Names) (options : List OptionGroup) (block : Block) : Prop :=
  ∃ group, options[block.option]? = some group ∧ group.Begins names block.words block.bound

/-- The option may end after the words. -/
def Whole (options : List OptionGroup) (block : Block) : Prop :=
  ∃ group, options[block.option]? = some group ∧ group.Suffices block.words.length

theorem Begun.words_ne_nil (begun : block.Begun names options) : block.words ≠ [] := by
  obtain ⟨_, _, begins⟩ := begun
  exact begins.words_ne_nil

theorem whole_iff {group : OptionGroup} (option : options[block.option]? = some group) :
    block.Whole options ↔ group.Suffices block.words.length := by
  constructor
  · rintro ⟨own, found, enough⟩
    rw [option] at found
    cases found
    exact enough
  · exact fun enough => ⟨group, option, enough⟩

theorem Begun.begins {group : OptionGroup} (begun : block.Begun names options)
    (option : options[block.option]? = some group) :
    group.Begins names block.words block.bound := by
  obtain ⟨own, found, begins⟩ := begun
  rw [option] at found
  cases found
  exact begins

theorem Begun.any_nailsOf (begun : block.Begun names options) :
    ((OptionGroup.nailsOf block.bound).any fun nail => nail.position == 0) = true := by
  have some := begun.words_ne_nil
  obtain ⟨_, _, begins⟩ := begun
  rw [← List.length_pos_iff, ← begins.length_bound] at some
  obtain ⟨head, bound, split⟩ := List.exists_cons_of_length_pos some
  simp [OptionGroup.nailsOf, split]

end Block

namespace Binding

open OptionGroup

variable {names : Names} {options : List OptionGroup} {block : Block} {blocks : List Block}
  {words window : List String} {word : String} {group : OptionGroup} {index : Nat}
  {before after : List Block} {entries unused : List (Nat × OptionGroup)}
  {front : List String} {done bindings : List Binding} {rounds : Nat}

/-- No word is accepted by two of the tokens of a command. -/
def Unmistakable (names : Names) (options : List OptionGroup) (words : List String) : Prop :=
  ∀ word ∈ words, (options.flatMap OptionGroup.tokens).Pairwise fun left right =>
    ¬(left.accepts names word = true ∧ right.accepts names word = true)

instance (names : Names) (options : List OptionGroup) (words : List String) :
    Decidable (Unmistakable names options words) :=
  inferInstanceAs (Decidable (∀ word ∈ words, List.Pairwise _ _))

/-- The blocks make the words, one after the other, and belong to different options. -/
structure Splits (names : Names) (options : List OptionGroup) (words : List String)
    (blocks : List Block) : Prop where
  begun : ∀ block ∈ blocks, block.Begun names options
  whole : ∀ block ∈ blocks, block.Whole options
  different : (blocks.map Block.option).Nodup
  words_eq : words = blocks.flatMap Block.words

theorem Unmistakable.token_unique (distinct : Unmistakable names options words)
    (member : word ∈ words) {left right slot other : Nat} {first second : OptionGroup}
    {token rival : Token} (option : options[left]? = some first)
    (held : first.tokens[slot]? = some token) (accepted : token.accepts names word = true)
    (option' : options[right]? = some second) (held' : second.tokens[other]? = some rival)
    (accepted' : rival.accepts names word = true) : left = right ∧ slot = other := by
  obtain ⟨within, between⟩ := List.pairwise_flatMap.mp (distinct word member)
  -- Two tokens of different options, whichever comes first, do not both accept the word.
  have apart : ∀ {left right : Nat} {first second : OptionGroup} {token rival : Token},
      options[left]? = some first → options[right]? = some second → token ∈ first.tokens →
      rival ∈ second.tokens → token.accepts names word = true →
      rival.accepts names word = true → ¬ left < right := by
    intro left right first second token rival option option' held held' accepted accepted' lt
    obtain ⟨inside, rfl⟩ := List.getElem?_eq_some_iff.mp option
    obtain ⟨inside', rfl⟩ := List.getElem?_eq_some_iff.mp option'
    exact List.pairwise_iff_getElem.mp between left right inside inside' lt token held rival held'
      ⟨accepted, accepted'⟩
  have same : left = right := by
    have notLess := apart option option' (List.mem_of_getElem? held) (List.mem_of_getElem? held')
      accepted accepted'
    have notMore := apart option' option (List.mem_of_getElem? held') (List.mem_of_getElem? held)
      accepted' accepted
    omega
  subst same
  rw [option] at option'
  cases option'
  exact ⟨rfl, slot_unique (within first (List.mem_of_getElem? option)) held accepted held'
    accepted'⟩

/-- Other options ignore the words of a block. -/
theorem Unmistakable.ignores (distinct : Unmistakable names options words)
    (member : word ∈ words) (begun : block.Begun names options) (inside : word ∈ block.words)
    (different : block.option ≠ index) (option : options[index]? = some group) :
    group.Ignores names word := by
  obtain ⟨owner, found, begins⟩ := begun
  obtain ⟨slot, token, held, accepted⟩ := begins.accepted inside
  intro rival other
  obtain ⟨place, held'⟩ := List.mem_iff_getElem?.mp other
  rw [← Bool.not_eq_true]
  intro accepted'
  exact different (distinct.token_unique member found held accepted option held' accepted').1

/-- Blocks that each begin a use of another option, in words that can only go to
one token. -/
structure Series (names : Names) (options : List OptionGroup) (blocks : List Block) : Prop where
  begun : ∀ block ∈ blocks, block.Begun names options
  different : (blocks.map Block.option).Nodup
  distinct : Unmistakable names options (blocks.flatMap Block.words)

theorem Series.ignores (series : Series names options blocks) (member : block ∈ blocks)
    (different : block.option ≠ index) (option : options[index]? = some group) :
    ∀ word ∈ block.words, group.Ignores names word := fun _ inside =>
  series.distinct.ignores (List.mem_flatMap.mpr ⟨block, member, inside⟩)
    (series.begun block member) inside different option

theorem Series.ignoresAll (series : Series names options blocks) {part : List Block}
    (sub : part ⊆ blocks) (different : ∀ block ∈ part, block.option ≠ index)
    (option : options[index]? = some group) :
    ∀ word ∈ part.flatMap Block.words, group.Ignores names word := by
  intro word member
  obtain ⟨block, inside, within⟩ := List.mem_flatMap.mp member
  exact series.ignores (sub inside) (different block inside) option word within

theorem option_ne_of_around
    (different : ((before ++ block :: after).map Block.option).Nodup) :
    ∀ other ∈ before ++ after, other.option ≠ block.option := by
  rw [List.map_append, List.map_cons, List.nodup_middle] at different
  intro other inside same
  refine (List.nodup_cons.mp different).1 ?_
  rw [← same, ← List.map_append]
  exact List.mem_map_of_mem inside

/-- Words of the blocks around a block do not go to its option. -/
theorem Series.ignored_around (series : Series names options (before ++ block :: after))
    (option : options[block.option]? = some group) :
    (∀ word ∈ before.flatMap Block.words, group.Ignores names word) ∧
      ∀ word ∈ after.flatMap Block.words, group.Ignores names word := by
  have foreign := option_ne_of_around series.different
  refine ⟨series.ignoresAll (List.subset_append_left _ _) (fun other inside => ?_) option,
    series.ignoresAll (fun other inside => ?_) (fun other inside => ?_) option⟩
  · exact foreign other (List.mem_append_left _ inside)
  · exact List.mem_append_right _ (List.mem_cons_of_mem _ inside)
  · exact foreign other (List.mem_append_right _ inside)

/-- The option does not look at the words: one that takes one word looks at all, and
any other at the first. -/
structure Passes (names : Names) (group : OptionGroup) (words : List String) : Prop where
  all : group.policy = .oneOf → ∀ word ∈ words, group.Ignores names word
  first : group.policy ≠ .oneOf → ∀ word ∈ words.head?, ∀ token ∈ group.tokens.head?,
    token.accepts names word = false

theorem passes_of_ignores (ignored : ∀ word ∈ words, group.Ignores names word) :
    Passes names group words where
  all _ := ignored
  first _ word member token inside :=
    ignored word (List.mem_of_head? member) token (List.mem_of_head? inside)

/-- Blocks that each begin a use of another option.  The other options pass them, and
their own option takes just their words of those that follow. -/
structure Apart (names : Names) (options : List OptionGroup) (blocks : List Block) : Prop where
  begun : ∀ block ∈ blocks, block.Begun names options
  different : (blocks.map Block.option).Nodup
  passed : ∀ block ∈ blocks, ∀ index group, options[index]? = some group →
    block.option ≠ index → Passes names group block.words
  single : ∀ block ∈ blocks, ∀ group, options[block.option]? = some group →
    group.policy = .oneOf → ∀ word ∈ block.words, group.tokens.Pairwise fun left right =>
      ¬(left.accepts names word = true ∧ right.accepts names word = true)
  run : ∀ block later, block :: later <:+ blocks → ∀ group, options[block.option]? = some group →
    group.policy ≠ .oneOf →
      runLength names group.tokens (block.words ++ later.flatMap Block.words) = block.words.length

theorem Series.apart (series : Series names options blocks)
    (ordered : ∀ group ∈ options, group.policy ≠ .anyUnordered) : Apart names options blocks where
  begun := series.begun
  different := series.different
  passed _ member _ _ option different :=
    passes_of_ignores (series.ignores member different option)
  single block member group option _ word inside :=
    (List.pairwise_flatMap.mp
      (series.distinct word (List.mem_flatMap.mpr ⟨block, member, inside⟩))).1 group
        (List.mem_of_getElem? option)
  run block later sub group option policy := by
    obtain ⟨before, rfl⟩ := sub
    have inOrder : group.policy = .anyOrdered ∨ group.policy = .allOrdered := by
      have := ordered group (List.mem_of_getElem? option)
      cases kind : group.policy <;> simp_all
    have begins := (series.begun block (by simp)).begins option
    obtain ⟨values, taken, _⟩ := begins.ofOrdered inOrder
    exact runLength_eq taken (series.ignored_around option).2

theorem Apart.tail (apart : Apart names options (block :: blocks)) :
    Apart names options blocks where
  begun other member := apart.begun other (List.mem_cons_of_mem _ member)
  different := (List.nodup_cons.mp apart.different).2
  passed other member := apart.passed other (List.mem_cons_of_mem _ member)
  single other member := apart.single other (List.mem_cons_of_mem _ member)
  run other later sub := apart.run other later (sub.trans (List.suffix_cons _ _))

theorem Apart.ignoresAll (apart : Apart names options blocks) {part : List Block}
    (sub : part ⊆ blocks) (different : ∀ block ∈ part, block.option ≠ index)
    (option : options[index]? = some group) (policy : group.policy = .oneOf) :
    ∀ word ∈ part.flatMap Block.words, group.Ignores names word := by
  intro word member
  obtain ⟨block, inside, within⟩ := List.mem_flatMap.mp member
  exact (apart.passed block (sub inside) _ _ option (different block inside)).all policy word within

/-- An option that takes one word claims the word of its block, wherever it is. -/
theorem Apart.claim_oneOf (apart : Apart names options (before ++ block :: after))
    (option : options[block.option]? = some group) (policy : group.policy = .oneOf) :
    ∃ slot value, block.bound = [(slot, value)] ∧
      group.claim names ((before ++ block :: after).flatMap Block.words) =
        .ok [{ slot, position := (before.flatMap Block.words).length, value }] := by
  have member : block ∈ before ++ block :: after := by simp
  have foreign := option_ne_of_around apart.different
  obtain ⟨slot, token, word, value, held, taken, words, bound⟩ :=
    ((apart.begun block member).begins option).ofOneOf policy
  have distinct := apart.single block member group option policy word
    (words ▸ List.mem_singleton_self word)
  have only : ∀ (other : Nat) (rival : Token), group.tokens[other]? = some rival →
      rival.accepts names word = true → other = slot := fun _ _ held' accepted' =>
    slot_unique distinct held' accepted' held taken.accepted
  refine ⟨slot, value, bound, ?_⟩
  rw [List.flatMap_append, List.flatMap_cons, words, List.singleton_append]
  refine OptionGroup.claim_oneOf policy held taken (slotOf?_eq_some held taken.accepted only)
    (apart.ignoresAll (List.subset_append_left _ _) (fun other inside => ?_) option policy)
    (apart.ignoresAll (fun other inside => ?_) (fun other inside => ?_) option policy)
  · exact foreign other (List.mem_append_left _ inside)
  · exact List.mem_append_right _ (List.mem_cons_of_mem _ inside)
  · exact foreign other (List.mem_append_right _ inside)

/-- An option that does not own the first block does not claim its first word, and
does not fail. -/
theorem Apart.claim_of_other (apart : Apart names options (block :: blocks))
    (option : options[index]? = some group) (tokens : group.tokens ≠ [])
    (ordered : group.policy ≠ .anyUnordered) (other : block.option ≠ index) :
    ∃ nails, group.claim names ((block :: blocks).flatMap Block.words) = .ok nails ∧
      (nails.any fun nail => nail.position == 0) = false := by
  obtain ⟨word, words, split⟩ := List.exists_cons_of_ne_nil
    (apart.begun block List.mem_cons_self).words_ne_nil
  by_cases policy : group.policy = .oneOf
  · by_cases owned : ∃ owner ∈ blocks, owner.option = index
    · obtain ⟨owner, member, rfl⟩ := owned
      obtain ⟨first, last, rfl⟩ := List.append_of_mem member
      rw [← List.cons_append] at apart ⊢
      obtain ⟨slot, value, _, claimed⟩ := apart.claim_oneOf option policy
      refine ⟨_, claimed, ?_⟩
      simp [split]
    · have foreign : ∀ candidate ∈ block :: blocks, candidate.option ≠ index := by
        intro candidate member same
        rcases List.mem_cons.mp member with rfl | member
        · exact other same
        · exact owned ⟨candidate, member, same⟩
      exact ⟨[], claim_oneOf_of_ignores policy
        (apart.ignoresAll (List.Subset.refl _) foreign option policy), rfl⟩
  · have inOrder : group.policy = .anyOrdered ∨ group.policy = .allOrdered := by
      cases kind : group.policy <;> simp_all
    obtain ⟨token, others, parts⟩ := List.exists_cons_of_ne_nil tokens
    have refused := (apart.passed block List.mem_cons_self index group option other).first policy
      word (split ▸ List.head?_cons) token (parts ▸ List.head?_cons)
    refine ⟨[], ?_, rfl⟩
    rw [List.flatMap_cons, split, List.cons_append]
    exact claim_of_refuses_head inOrder (parts ▸ List.head?_cons) refused

/-- The option of the first block claims it, or fails if the block breaks off. -/
theorem Apart.claim_of_own (apart : Apart names options (block :: blocks))
    (option : options[block.option]? = some group) (ordered : group.policy ≠ .anyUnordered) :
    (block.Whole options →
      group.claim names ((block :: blocks).flatMap Block.words) = .ok (nailsOf block.bound)) ∧
    (¬ block.Whole options →
      group.claim names ((block :: blocks).flatMap Block.words) = .error .optionRequired) := by
  have begins := (apart.begun block List.mem_cons_self).begins option
  rw [Block.whole_iff option]
  by_cases policy : group.policy = .oneOf
  · have apart' : Apart names options ([] ++ block :: blocks) := apart
    obtain ⟨slot, value, bound, claimed⟩ := apart'.claim_oneOf option policy
    obtain ⟨_, _, _, _, _, _, words, _⟩ := begins.ofOneOf policy
    refine ⟨fun _ => ?_, fun short => absurd ?_ short⟩
    · rw [bound]
      exact claimed
    · simp [Suffices, policy, words]
  · have inOrder : group.policy = .anyOrdered ∨ group.policy = .allOrdered := by
      cases kind : group.policy <;> simp_all
    obtain ⟨values, taken, bound⟩ := begins.ofOrdered inOrder
    rw [bound, List.flatMap_cons]
    exact claim_of_runLength inOrder begins.words_ne_nil taken
      (apart.run block blocks (List.suffix_refl _) group option policy)

/-- Options that claim something else, or nothing, leave the round to the one that
is left. -/
theorem winner_eq_of_passed (option : options[index]? = some group)
    (numbered : ∀ entry ∈ entries, options[entry.1]? = some entry.2)
    (present : (index, group) ∈ entries)
    (passed : ∀ entry ∈ entries, index ≠ entry.1 → ∃ nails,
      entry.2.claim names window = .ok nails ∧
        (nails.any fun nail => nail.position == 0) = false) :
    (∀ nails, group.claim names window = .ok nails →
      (nails.any fun nail => nail.position == 0) = true →
        winner names window entries = .ok (some (index, nails))) ∧
    (∀ fault, group.claim names window = .error fault →
      winner names window entries = .error fault) := by
  induction entries with
  | nil => contradiction
  | cons entry entries ih =>
      obtain ⟨number, other⟩ := entry
      by_cases own : index = number
      · subst own
        have found : options[index]? = some other := numbered _ List.mem_cons_self
        rw [option] at found
        cases found
        refine ⟨fun nails claimed first => ?_, fun fault failed => ?_⟩
        · rw [winner, claimed]
          exact if_pos first
        · rw [winner, failed]
      · obtain ⟨nails, claimed, elsewhere⟩ := passed _ List.mem_cons_self own
        have later : (index, group) ∈ entries := by
          rcases List.mem_cons.mp present with same | later
          · cases same
            contradiction
          · exact later
        have onward : winner names window ((number, other) :: entries) =
            winner names window entries := by
          rw [winner, claimed]
          exact if_neg (Bool.eq_false_iff.mp elsewhere)
        rw [onward]
        exact ih (fun entry member => numbered entry (List.mem_cons_of_mem _ member)) later
          fun entry member => passed entry (List.mem_cons_of_mem _ member)

/-- The option of the first block wins the round, or fails if the block breaks off. -/
theorem Apart.winner_eq (apart : Apart names options (block :: blocks))
    (tokens : ∀ group ∈ options, group.tokens ≠ [])
    (ordered : ∀ group ∈ options, group.policy ≠ .anyUnordered)
    (option : options[block.option]? = some group)
    (numbered : ∀ entry ∈ entries, options[entry.1]? = some entry.2)
    (present : (block.option, group) ∈ entries) :
    (block.Whole options →
      winner names ((block :: blocks).flatMap Block.words) entries =
        .ok (some (block.option, nailsOf block.bound))) ∧
    (¬ block.Whole options →
      winner names ((block :: blocks).flatMap Block.words) entries = .error .optionRequired) := by
  obtain ⟨claimed, failed⟩ := apart.claim_of_own option (ordered _ (List.mem_of_getElem? option))
  obtain ⟨won, lost⟩ := winner_eq_of_passed option numbered present fun entry member other => by
    have known := List.mem_of_getElem? (numbered entry member)
    exact apart.claim_of_other (numbered entry member) (tokens _ known) (ordered _ known) other
  exact ⟨fun whole => won _ (claimed whole) (apart.begun block List.mem_cons_self).any_nailsOf,
    fun broken => lost _ (failed broken)⟩

theorem unclaimed_eq (length : front.length = done.length) :
    unclaimed (front ++ window) (done.map some ++ List.replicate window.length none) =
      (window.zipIdx done.length).map Prod.swap := by
  have opened : ∀ words filled, unclaimed words filled = (words.zip filled).zipIdx.filterMap
      fun entry => if entry.1.2.isNone then some (entry.2, entry.1.1) else none := fun _ _ => rfl
  have claimed : ((front.zip (done.map some)).zipIdx.filterMap
      fun entry => if entry.1.2.isNone then some (entry.2, entry.1.1) else none) = [] := by
    rw [List.filterMap_eq_nil_iff]
    rintro ⟨⟨word, binding⟩, place⟩ member
    have inside := (List.of_mem_zip (List.fst_mem_of_mem_zipIdx member)).2
    obtain ⟨_, _, rfl⟩ := List.mem_map.mp inside
    rfl
  have waiting : ∀ offset, (((window.zip (List.replicate window.length (none : Option Binding))).zipIdx
      offset).filterMap
        fun entry => if entry.1.2.isNone then some (entry.2, entry.1.1) else none) =
          (window.zipIdx offset).map Prod.swap := by
    induction window with
    | nil => exact fun _ => rfl
    | cons word window ih =>
        intro offset
        rw [List.length_cons, List.replicate_succ, List.zip_cons_cons, List.zipIdx_cons,
          List.filterMap_cons]
        exact congrArg (List.cons _) (ih _)
  rw [opened, List.zip_append (by rw [List.length_map, length]), List.zipIdx_append,
    List.filterMap_append, claimed, List.nil_append, waiting]
  simp [length]

theorem enter_eq {bound : List (Nat × Value)} {places : List (Nat × String)} {count offset : Nat}
    (there : ∀ step < bound.length, ∃ word,
      places[offset + step]? = some (done.length + step, word)) :
    enter index places
        ((bound.zipIdx offset).map fun ((slot, value), position) =>
          ({ slot, position, value } : Nail))
        (done.map some ++ List.replicate (bound.length + count) none) =
      .ok ((done ++ bound.map fun (slot, value) =>
        ({ option := index, slot, value } : Binding)).map some ++ List.replicate count none) := by
  -- Each nail fills the first place that is not filled yet.
  induction bound generalizing done offset with
  | nil => simp [enter]
  | cons head bound ih =>
      obtain ⟨slot, value⟩ := head
      obtain ⟨word, first⟩ := there 0 (Nat.zero_lt_succ _)
      rw [Nat.add_zero, Nat.add_zero] at first
      let binding : Binding := { option := index, slot, value }
      have filled : (done.map some ++ List.replicate (bound.length + 1 + count) none).set
          done.length (some binding) =
            (done ++ [binding]).map some ++ List.replicate (bound.length + count) none := by
        rw [Nat.add_right_comm, List.replicate_succ]
        simp
      have rest := @ih (done ++ [binding]) (offset + 1) fun step less => by
        obtain ⟨word, next⟩ := there (step + 1) (Nat.succ_lt_succ less)
        refine ⟨word, ?_⟩
        rw [List.length_append, List.length_singleton, Nat.add_assoc, Nat.add_comm 1 step, next,
          Nat.add_assoc, Nat.add_comm 1 step]
      rw [List.zipIdx_cons, List.map_cons, enter]
      simp only [first, List.length_cons]
      rw [filled, rest]
      simp [binding]

/-- The nails of a block at the beginning of the window bind its words. -/
theorem enter_nailsOf {bound : List (Nat × Value)} {count : Nat}
    (fits : window.length = bound.length + count) :
    enter index ((window.zipIdx done.length).map Prod.swap) (nailsOf bound)
        (done.map some ++ List.replicate window.length none) =
      .ok ((done ++ bound.map fun (slot, value) =>
        ({ option := index, slot, value } : Binding)).map some ++ List.replicate count none) := by
  rw [fits]
  refine enter_eq fun step less => ?_
  have inside : step < window.length := Nat.lt_of_lt_of_le less (fits ▸ Nat.le_add_right _ _)
  refine ⟨window[step], ?_⟩
  rw [Nat.zero_add, List.getElem?_map, List.getElem?_zipIdx, List.getElem?_eq_getElem inside]
  rfl

theorem play_of_claimed {words : List String} {filled : List (Option Binding)}
    (claimed : unclaimed words filled = []) :
    play names words rounds unused filled = .ok (filled.filterMap id) := by
  unfold play
  rw [claimed]

theorem play_nil (length : front.length = done.length) :
    play names (front ++ []) rounds unused
      (done.map some ++ List.replicate ([] : List String).length none) = .ok done := by
  rw [play_of_claimed (unclaimed_eq length)]
  simp

/-- A round is won by an option, or else its first word goes to none. -/
theorem play_succ {filled : List (Option Binding)} {offset : Nat} {words : List String}
    (waiting : unclaimed words filled = (window.zipIdx offset).map Prod.swap)
    (some : window ≠ []) :
    play names words (rounds + 1) unused filled =
      match winner names window unused with
      | .error fault => .error fault
      | .ok none => .error (.badOption (window.head some))
      | .ok (.some (index, nails)) =>
          match enter index ((window.zipIdx offset).map Prod.swap) nails filled with
          | .error fault => .error fault
          | .ok filled => play names words rounds (unused.filter fun entry => entry.1 ≠ index) filled
    := by
  obtain ⟨word, more, rfl⟩ := List.exists_cons_of_ne_nil some
  have spelled : (((word :: more).zipIdx offset).map Prod.swap).map Prod.snd = word :: more := by
    simp [List.map_map, Function.comp_def]
  have opened : ((word :: more).zipIdx offset).map Prod.swap =
      (offset, word) :: (more.zipIdx (offset + 1)).map Prod.swap := rfl
  rw [opened] at waiting spelled ⊢
  rw [play, waiting]
  dsimp only
  generalize List.map Prod.snd ((offset, word) :: _) = spoken at spelled ⊢
  subst spelled
  rfl

/-- A round that the option of a block wins binds its words. -/
theorem play_round {later : List String} (begun : block.Begun names options)
    (length : front.length = done.length)
    (won : winner names (block.words ++ later) unused =
      .ok (some (block.option, nailsOf block.bound))) :
    play names (front ++ (block.words ++ later)) (rounds + 1) unused
        (done.map some ++ List.replicate (block.words ++ later).length none) =
      play names (front ++ block.words ++ later) rounds
        (unused.filter fun entry => entry.1 ≠ block.option)
        ((done ++ block.bindings).map some ++ List.replicate later.length none) ∧
      (front ++ block.words).length = (done ++ block.bindings).length := by
  obtain ⟨_, _, begins⟩ := begun
  have extent : (block.words ++ later).length = block.bound.length + later.length := by
    rw [List.length_append, begins.length_bound]
  have entered := @enter_nailsOf _ block.option done _ _ extent
  rw [play_succ (unclaimed_eq length) (by simp [begins.words_ne_nil]), won]
  simp only [entered, List.append_assoc]
  refine ⟨rfl, ?_⟩
  rw [List.length_append, List.length_append, length, Block.bindings, List.length_map,
    begins.length_bound]

/-- The options of the other blocks are still unused when the first one is bound. -/
theorem present_of_filter (different : ((block :: blocks).map Block.option).Nodup)
    (present : ∀ other ∈ block :: blocks, ∀ group, options[other.option]? = some group →
      (other.option, group) ∈ unused) :
    ∀ other ∈ blocks, ∀ group, options[other.option]? = some group →
      (other.option, group) ∈ unused.filter fun entry => entry.1 ≠ block.option := by
  intro other member group found
  refine List.mem_filter.mpr
    ⟨present other (List.mem_cons_of_mem _ member) group found, decide_eq_true ?_⟩
  exact fun same => (List.nodup_cons.mp different).1 (same ▸ List.mem_map_of_mem member)

/-- Every round binds the first block, unless it breaks off. -/
theorem Apart.play_eq (apart : Apart names options blocks)
    (tokens : ∀ group ∈ options, group.tokens ≠ [])
    (ordered : ∀ group ∈ options, group.policy ≠ .anyUnordered)
    (enough : blocks.length ≤ rounds) (numbered : ∀ entry ∈ unused, options[entry.1]? = some entry.2)
    (present : ∀ block ∈ blocks, ∀ group, options[block.option]? = some group →
      (block.option, group) ∈ unused) (length : front.length = done.length) :
    ((∀ block ∈ blocks, block.Whole options) →
      play names (front ++ blocks.flatMap Block.words) rounds unused
        (done.map some ++ List.replicate (blocks.flatMap Block.words).length none) =
          .ok (done ++ blocks.flatMap Block.bindings)) ∧
    ((∃ block ∈ blocks, ¬ block.Whole options) →
      play names (front ++ blocks.flatMap Block.words) rounds unused
        (done.map some ++ List.replicate (blocks.flatMap Block.words).length none) =
          .error .optionRequired) := by
  induction blocks generalizing rounds unused done front with
  | nil =>
      refine ⟨fun _ => ?_, fun ⟨_, member, _⟩ => by contradiction⟩
      rw [List.flatMap_nil, play_nil length, List.flatMap_nil, List.append_nil]
  | cons block blocks ih =>
      obtain ⟨rounds, rfl⟩ : ∃ less, rounds = less + 1 :=
        Nat.exists_eq_add_one_of_ne_zero (by rw [List.length_cons] at enough; omega)
      have begun := apart.begun block List.mem_cons_self
      obtain ⟨group, option, _⟩ := id begun
      obtain ⟨won, failed⟩ := apart.winner_eq tokens ordered option numbered
        (present block List.mem_cons_self group option)
      by_cases whole : block.Whole options
      · obtain ⟨round, length'⟩ := @play_round _ _ block unused front done rounds
          (blocks.flatMap Block.words) begun length (won whole)
        have rest := @ih (unused.filter fun entry => entry.1 ≠ block.option)
          (front ++ block.words) (done ++ block.bindings) rounds apart.tail
          (Nat.le_of_succ_le_succ enough)
          (fun entry member => numbered entry (List.mem_filter.mp member).1)
          (present_of_filter apart.different present) length'
        rw [List.flatMap_cons, round, List.flatMap_cons (f := Block.bindings), ← List.append_assoc]
        refine ⟨fun all => rest.1 fun other member => all other (List.mem_cons_of_mem _ member),
          fun ⟨other, member, broken⟩ => rest.2 ⟨other, ?_, broken⟩⟩
        rcases List.mem_cons.mp member with rfl | later
        · contradiction
        · exact later
      · have some : (block :: blocks).flatMap Block.words ≠ [] := by
          simp [begun.words_ne_nil]
        rw [play_succ (unclaimed_eq length) some, failed whole]
        exact ⟨fun all => absurd (all block List.mem_cons_self) whole, fun _ => rfl⟩

theorem splits_nil : Splits names options [] [] where
  begun := by simp
  whole := by simp
  different := .nil
  words_eq := rfl

theorem Splits.cons (begun : block.Begun names options) (whole : block.Whole options)
    (apart : ∀ other ∈ blocks, other.option ≠ block.option)
    (splits : Splits names options words blocks) :
    Splits names options (block.words ++ words) (block :: blocks) where
  begun := List.forall_mem_cons.mpr ⟨begun, splits.begun⟩
  whole := List.forall_mem_cons.mpr ⟨whole, splits.whole⟩
  different := by
    refine List.nodup_cons.mpr ⟨fun member => ?_, splits.different⟩
    obtain ⟨other, inside, same⟩ := List.mem_map.mp member
    exact apart other inside same
  words_eq := congrArg (block.words ++ ·) splits.words_eq

theorem Splits.series (splits : Splits names options words blocks)
    (distinct : Unmistakable names options words) : Series names options blocks where
  begun := splits.begun
  different := splits.different
  distinct := splits.words_eq ▸ distinct

/-- A round that does not fail binds a block in front. -/
theorem exists_block_of_round (ordered : ∀ group ∈ options, group.policy ≠ .anyUnordered)
    (numbered : ∀ entry ∈ unused, options[entry.1]? = some entry.2)
    (length : front.length = done.length) (nonempty : window ≠ [])
    (played : play names (front ++ window) (rounds + 1) unused
      (done.map some ++ List.replicate window.length none) = .ok bindings) :
    ∃ (block : Block) (later : List String), window = block.words ++ later ∧
      block.Begun names options ∧ block.Whole options ∧ block.option ∈ unused.map Prod.fst ∧
      (front ++ block.words).length = (done ++ block.bindings).length ∧
      play names (front ++ block.words ++ later) rounds
        (unused.filter fun entry => entry.1 ≠ block.option)
        ((done ++ block.bindings).map some ++ List.replicate later.length none) = .ok bindings := by
  obtain ⟨index, nails, won⟩ :
      ∃ index nails, winner names window unused = .ok (some (index, nails)) := by
    rw [play_succ (unclaimed_eq length) nonempty] at played
    split at played
    · contradiction
    · contradiction
    · rename_i index nails won
      exact ⟨index, nails, won⟩
  obtain ⟨group, member, claimed, first⟩ := claim_of_winner won
  have option := numbered _ member
  obtain ⟨words, later, bound, rfl, begins, enough, rfl⟩ :=
    begins_of_claim (ordered _ (List.mem_of_getElem? option)) claimed first
  let block : Block := { option := index, words, bound }
  have begun : block.Begun names options := ⟨group, option, begins⟩
  obtain ⟨round, length'⟩ := @play_round _ _ block _ _ _ rounds later begun length won
  exact ⟨block, later, rfl, begun, ⟨group, option, enough⟩, List.mem_map_of_mem member, length',
    round.symm.trans played⟩

/-- Rounds that bind all words split them into blocks. -/
theorem exists_blocks_of_play (ordered : ∀ group ∈ options, group.policy ≠ .anyUnordered)
    (numbered : ∀ entry ∈ unused, options[entry.1]? = some entry.2)
    (length : front.length = done.length)
    (played : play names (front ++ window) rounds unused
      (done.map some ++ List.replicate window.length none) = .ok bindings) :
    ∃ blocks, Splits names options window blocks ∧
      (∀ block ∈ blocks, block.option ∈ unused.map Prod.fst) ∧
      bindings = done ++ blocks.flatMap Block.bindings := by
  induction rounds generalizing unused done front window with
  | zero =>
      cases window with
      | nil =>
          cases (play_nil length).symm.trans played
          exact ⟨[], splits_nil, List.forall_mem_nil _, (List.append_nil _).symm⟩
      | cons word window =>
          rw [play, unclaimed_eq length] at played
          contradiction
  | succ rounds ih =>
      cases window with
      | nil =>
          cases (play_nil length).symm.trans played
          exact ⟨[], splits_nil, List.forall_mem_nil _, (List.append_nil _).symm⟩
      | cons word window =>
          obtain ⟨block, later, split, begun, whole, member, length', onward⟩ :=
            exists_block_of_round ordered numbered length (List.cons_ne_nil _ _) played
          obtain ⟨blocks, splits, available, rfl⟩ :=
            ih (fun entry kept => numbered entry (List.mem_filter.mp kept).1) length' onward
          have unusedYet : ∀ other ∈ blocks,
              other.option ∈ unused.map Prod.fst ∧ other.option ≠ block.option := by
            intro other inside
            obtain ⟨entry, kept, same⟩ := List.mem_map.mp (available other inside)
            obtain ⟨old, different⟩ := List.mem_filter.mp kept
            rw [← same]
            exact ⟨List.mem_map_of_mem old, of_decide_eq_true different⟩
          refine ⟨block :: blocks, ?_, ?_, List.append_assoc _ _ _⟩
          · rw [split]
            exact splits.cons begun whole fun other inside => (unusedYet other inside).2
          · exact List.forall_mem_cons.mpr
              ⟨member, fun other inside => (unusedYet other inside).1⟩

theorem Apart.length_le (apart : Apart names options blocks) : blocks.length ≤ options.length := by
  have inside : blocks.map Block.option ⊆ List.range options.length := by
    intro index member
    obtain ⟨block, inside, rfl⟩ := List.mem_map.mp member
    obtain ⟨_, option, _⟩ := apart.begun block inside
    exact List.mem_range.mpr (List.getElem?_eq_some_iff.mp option).1
  simpa using (List.subperm_of_subset apart.different inside).length_le

/-- Blocks are bound if all of them are whole.  If one breaks off, a required word
is missing. -/
theorem Apart.ofWords_eq (apart : Apart names options blocks)
    (tokens : ∀ group ∈ options, group.tokens ≠ [])
    (ordered : ∀ group ∈ options, group.policy ≠ .anyUnordered) :
    ((∀ block ∈ blocks, block.Whole options) →
      ofWords names options (blocks.flatMap Block.words) =
        .ok (blocks.flatMap Block.bindings)) ∧
    ((∃ block ∈ blocks, ¬ block.Whole options) →
      ofWords names options (blocks.flatMap Block.words) = .error .optionRequired) := by
  have played := @Apart.play_eq _ _ _ _ [] [] _ apart tokens ordered apart.length_le
    (fun _ => mem_numbered_iff.mp) (fun _ _ _ option => mem_numbered_iff.mpr option) rfl
  simpa [ofWords, List.map_const'] using played

theorem Series.ofWords_eq (series : Series names options blocks)
    (tokens : ∀ group ∈ options, group.tokens ≠ [])
    (ordered : ∀ group ∈ options, group.policy ≠ .anyUnordered) :
    ((∀ block ∈ blocks, block.Whole options) →
      ofWords names options (blocks.flatMap Block.words) =
        .ok (blocks.flatMap Block.bindings)) ∧
    ((∃ block ∈ blocks, ¬ block.Whole options) →
      ofWords names options (blocks.flatMap Block.words) = .error .optionRequired) :=
  (series.apart ordered).ofWords_eq tokens ordered

theorem exists_blocks_of_ofWords (ordered : ∀ group ∈ options, group.policy ≠ .anyUnordered)
    (bound : ofWords names options words = .ok bindings) :
    ∃ blocks, Splits names options words blocks ∧ bindings = blocks.flatMap Block.bindings := by
  rw [ofWords, List.map_const'] at bound
  obtain ⟨blocks, splits, _, same⟩ :=
    @exists_blocks_of_play _ _ words _ [] [] _ _ ordered (fun _ => mem_numbered_iff.mp) rfl bound
  exact ⟨blocks, splits, same⟩

theorem Splits.perm {reordered : List Block} (splits : Splits names options words blocks)
    (same : reordered.Perm blocks) :
    Splits names options (reordered.flatMap Block.words) reordered where
  begun block member := splits.begun block (same.mem_iff.mp member)
  whole block member := splits.whole block (same.mem_iff.mp member)
  different := (same.map Block.option).nodup_iff.mpr splits.different
  words_eq := rfl

/-- Binding accepts exactly the lines that are whole blocks of different options,
each word going to its token unambiguously, and gives the bindings of the blocks.
Blocks in another order are accepted as well and bind the same values. -/
theorem ofWords_eq_ok_iff_splits (tokens : ∀ group ∈ options, group.tokens ≠ [])
    (ordered : ∀ group ∈ options, group.policy ≠ .anyUnordered)
    (distinct : Unmistakable names options words) :
    (∀ bindings, ofWords names options words = .ok bindings ↔
      ∃ blocks, Splits names options words blocks ∧
        bindings = blocks.flatMap Block.bindings) ∧
    ∀ blocks reordered : List Block, Splits names options words blocks → reordered.Perm blocks →
      ofWords names options (reordered.flatMap Block.words) =
          .ok (reordered.flatMap Block.bindings) ∧
        (reordered.flatMap Block.bindings).Perm (blocks.flatMap Block.bindings) := by
  refine ⟨fun bindings => ⟨exists_blocks_of_ofWords ordered, ?_⟩, fun blocks reordered splits same => ?_⟩
  · rintro ⟨blocks, splits, rfl⟩
    rw [splits.words_eq]
    exact ((splits.series distinct).ofWords_eq tokens ordered).1 splits.whole
  · have sameWords : (reordered.flatMap Block.words).Perm words :=
      splits.words_eq ▸ same.flatMap_right _
    have moved := splits.perm same
    have distinct' : Unmistakable names options (reordered.flatMap Block.words) :=
      fun word member => distinct word (sameWords.mem_iff.mp member)
    exact ⟨((moved.series distinct').ofWords_eq tokens ordered).1 moved.whole,
      same.flatMap_right _⟩

def portOptions : List OptionGroup := [
  .oneOf [.keyword "enable" "", .keyword "disable" ""],
  .anyOrdered [.choice [("speed", ""), ("state", "")], .name .interface, .keyword "brief" ""],
  .allOrdered [.keyword "holdtime" "", .range 2 10]]

def portNames : Names := { interfaces := ["eth0"] }

def portBlocks : List Block := [
  { option := 2, words := ["hold", "06"], bound := numbered [.word "holdtime", .integer 6] },
  { option := 1, words := ["st", "eth0"], bound := numbered [.word "state", .word "eth0"] },
  { option := 0, words := ["dis"], bound := [(1, .word "disable")] }]

theorem portBlocks_split :
    Splits portNames portOptions ["hold", "06", "st", "eth0", "dis"] portBlocks where
  begun := by
    simp only [portBlocks, List.forall_mem_cons, List.not_mem_nil, false_implies, implies_true,
      and_true]
    refine ⟨⟨_, rfl, .inTurn (.inr rfl) (List.cons_ne_nil _ _) ?_⟩,
      ⟨_, rfl, .inTurn (.inl rfl) (List.cons_ne_nil _ _) ?_⟩, ⟨_, rfl, .one rfl rfl ?_⟩⟩
    · exact .take ⟨rfl, rfl, rfl⟩ (.take ⟨rfl, rfl, rfl⟩ (.done _))
    · exact .take ⟨rfl, rfl, rfl⟩ (.take ⟨rfl, rfl, rfl⟩ (.done _))
    · exact ⟨rfl, rfl, rfl⟩
  whole := by
    simp only [portBlocks, List.forall_mem_cons, List.not_mem_nil, false_implies, implies_true,
      and_true]
    refine ⟨⟨_, rfl, rfl⟩, ⟨_, rfl, ?_⟩, ⟨_, rfl, rfl⟩⟩
    exact List.forall_mem_singleton.mpr rfl
  different := by decide
  words_eq := rfl

theorem portBlocks_read :
    (∀ group ∈ portOptions, group.tokens ≠ []) ∧
      (∀ group ∈ portOptions, group.policy ≠ .anyUnordered) ∧
      Unmistakable portNames portOptions ["hold", "06", "st", "eth0", "dis"] ∧
      ofWords portNames portOptions ["hold", "06", "st", "eth0", "dis"] =
        .ok (portBlocks.flatMap Block.bindings) ∧
      ofWords portNames portOptions ["dis", "st", "eth0", "hold", "06"] =
        .ok (portBlocks.reverse.flatMap Block.bindings) := by
  have tokens : ∀ group ∈ portOptions, group.tokens ≠ [] := by decide
  have ordered : ∀ group ∈ portOptions, group.policy ≠ .anyUnordered := by decide
  have distinct : Unmistakable portNames portOptions ["hold", "06", "st", "eth0", "dis"] := by
    decide
  obtain ⟨accepted, reordered⟩ := ofWords_eq_ok_iff_splits tokens ordered distinct
  exact ⟨tokens, ordered, distinct, (accepted _).mpr ⟨portBlocks, portBlocks_split, rfl⟩,
    (reordered _ _ portBlocks_split (List.reverse_perm _)).1⟩

end Binding

end SwitchShell

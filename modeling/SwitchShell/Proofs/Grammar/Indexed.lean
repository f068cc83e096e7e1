import SwitchShell.Proofs.Grammar.InRange

namespace SwitchShell.Indexed

/-! The grammar by indices.

The same algorithms once more, with their lists as arrays: tokens, words and places
are read at an index, marks are written at one, and a slice begins at one.  An index
that is not in the list fails with `outOfRange`.  What is shown is that nothing
changes, so no index ever leaves its range unless an option has no tokens.
-/

section Lists

variable {α : Type} {list : List α} {index : Nat} {value : α}

/-- The element at an index. -/
def read (list : List α) (index : Nat) : Except Fault α :=
  match list[index]? with
  | some value => .ok value
  | none => .error .outOfRange

/-- Another element at an index. -/
def write (list : List α) (index : Nat) (value : α) : Except Fault (List α) :=
  if index < list.length then .ok (list.set index value) else .error .outOfRange

/-- The elements from an index on, which may be the end. -/
def sliceFrom (list : List α) (index : Nat) : Except Fault (List α) :=
  if index ≤ list.length then .ok (list.drop index) else .error .outOfRange

theorem read_of_getElem? (held : list[index]? = some value) : read list index = .ok value := by
  rw [read, held]

theorem read_of_lt (inside : index < list.length) : read list index = .ok list[index] :=
  read_of_getElem? (List.getElem?_eq_getElem inside)

theorem write_of_lt (inside : index < list.length) :
    write list index value = .ok (list.set index value) :=
  if_pos inside

theorem sliceFrom_of_le (inside : index ≤ list.length) :
    sliceFrom list index = .ok (list.drop index) :=
  if_pos inside

theorem sliceFrom_of_findIdx? {test : α → Bool}
    (found : list.findIdx? test = some index) :
    sliceFrom list index = .ok (list.drop index) :=
  sliceFrom_of_le (Nat.le_of_lt (List.findIdx?_eq_some_iff_getElem.mp found).1)

end Lists

/-- The first slot that accepts the word and is not marked, counted from `slot`. -/
def freeSlot? (names : Names) (used : List Bool) (word : String) :
    Nat → List Token → Except Fault (Option Nat)
  | _, [] => .ok none
  | slot, token :: tokens => do
      let marked ← read used slot
      if !marked && token.accepts names word then return some slot
      else freeSlot? names used word (slot + 1) tokens

/-- Gives each word in turn to the first token that accepts it and has no mark. -/
def claimFree (names : Names) (tokens : List Token) (used : List Bool) :
    Nat → List String → Except Fault (List Claim)
  | _, [] => .ok []
  | position, word :: words => do
      match ← freeSlot? names used word 0 tokens with
      | some slot =>
          let used ← write used slot true
          return { slot, position } :: (← claimFree names tokens used (position + 1) words)
      | none => claimFree names tokens used (position + 1) words

def claims (names : Names) (group : OptionGroup) (window : List String) :
    Except Fault (List Claim) :=
  match group.policy with
  | .oneOf => group.claimOne names window
  | .anyUnordered => claimFree names group.tokens (group.tokens.map fun _ => false) 0 window
  | .anyOrdered => .ok (OptionGroup.diagonal (OptionGroup.runLength names group.tokens window))
  | .allOrdered => do
      match window with
      | [] => return []
      | word :: _ =>
          let first ← read group.tokens 0
          if first.accepts names word then
            if OptionGroup.runLength names group.tokens window = group.tokens.length then
              return OptionGroup.diagonal group.tokens.length
            else throw .optionRequired
          else return []

def nail (names : Names) (group : OptionGroup) (window : List String) (claim : Claim) :
    Except Fault Nail := do
  let token ← read group.tokens claim.slot
  let word ← read window claim.position
  if token.isAmbiguous word then throw .ambiguous
  let value ← token.bind names word
  return { slot := claim.slot, position := claim.position, value }

def claim (names : Names) (group : OptionGroup) (window : List String) :
    Except Fault (List Nail) := do
  let claims ← claims names group window
  if !claims.isEmpty && OptionGroup.checksTokens group.policy && group.missesRequired claims then
    throw .optionRequired
  claims.mapM (nail names group window)

/-- Follows the words with a slot that runs along. -/
def sequenceCandidates (names : Names) (tokens : List Token) :
    Nat → List String → Except Fault Candidates
  | slot, [] => do return .only [← read tokens slot]
  | slot, word :: words => do
      let token ← read tokens slot
      if !token.accepts names word then return .alongside [token]
      else if slot + 1 = tokens.length then return .alongside []
      else sequenceCandidates names tokens (slot + 1) words

def candidates (names : Names) (group : OptionGroup) (words : List String) :
    Except Fault Candidates :=
  match group.policy with
  | .oneOf =>
      if words.any fun word => (group.slotOf? names word).isSome then .ok (.alongside [])
      else .ok (.alongside group.tokens)
  | .anyUnordered => do
      let claimed ← claimFree names group.tokens (group.tokens.map fun _ => false) 0 words
      return .alongside ((group.tokens.zipIdx.filter fun (_, slot) =>
        !(claimed.any fun claim => claim.slot == slot)).map Prod.fst)
  | .anyOrdered => do
      let first ← read group.tokens 0
      match words.findIdx? (first.accepts names) with
      | none => return .alongside [first]
      | some start =>
          let run := OptionGroup.runLength names group.tokens (← sliceFrom words start)
          match group.tokens[run]? with
          | some next => return .alongside (if start + run = words.length then [next] else [])
          | none => return .alongside []
  | .allOrdered => do
      let first ← read group.tokens 0
      match words.findIdx? (first.accepts names) with
      | none => return .alongside [first]
      | some start => sequenceCandidates names group.tokens 0 (← sliceFrom words start)

section Policies

variable {names : Names} {tokens : List Token} {used : List Bool} {taken : List Nat}
  {words window : List String} {word : String} {slot position : Nat} {group : OptionGroup}

/-- The marks are on the slots that are taken. -/
def Marks (used : List Bool) (taken : List Nat) : Prop :=
  ∀ slot (inside : slot < used.length), used[slot] = taken.contains slot

theorem Marks.cons (marks : Marks used taken) (slot : Nat) :
    Marks (used.set slot true) (slot :: taken) := by
  intro other inside
  rw [List.length_set] at inside
  rw [List.getElem_set, List.contains_cons, ← marks other inside]
  by_cases same : slot = other
  · simp [same]
  · simp [same, Ne.symm same]

theorem freeSlot?_eq (marks : Marks used taken) (enough : slot + tokens.length ≤ used.length) :
    freeSlot? names used word slot tokens =
      .ok (OptionGroup.freeSlot? names taken word slot tokens) := by
  induction tokens generalizing slot with
  | nil => rfl
  | cons token tokens ih =>
      rw [List.length_cons] at enough
      have inside : slot < used.length := by omega
      rw [freeSlot?, OptionGroup.freeSlot?, read_of_lt inside, marks slot inside,
        ih (by omega)]
      simp only [bind, Except.bind, pure, Except.pure]
      split <;> rfl

theorem claimFree_eq (marks : Marks used taken) (enough : used.length = tokens.length) :
    claimFree names tokens used position words =
      .ok (OptionGroup.claimFree names tokens taken position words) := by
  induction words generalizing used taken position with
  | nil => rfl
  | cons word words ih =>
      rw [claimFree, OptionGroup.claimFree, freeSlot?_eq marks (by omega)]
      cases free : OptionGroup.freeSlot? names taken word 0 tokens with
      | none => exact ih marks enough
      | some slot =>
          have inside : slot < used.length := by
            have := OptionGroup.lt_of_freeSlot? free
            omega
          have rest := @ih _ _ (position + 1) (marks.cons slot) ((List.length_set ..).trans enough)
          simp only [bind, Except.bind, pure, Except.pure, write_of_lt inside, rest]

theorem claimFree_unmarked :
    claimFree names tokens (tokens.map fun _ => false) position words =
      .ok (OptionGroup.claimFree names tokens [] position words) :=
  claimFree_eq (fun slot inside => by simp) (List.length_map ..)

theorem claims_eq : claims names group window = group.claims names window := by
  unfold claims OptionGroup.claims
  cases policy : group.policy with
  | oneOf | anyOrdered => rfl
  | anyUnordered => exact claimFree_unmarked
  | allOrdered =>
      dsimp only
      unfold OptionGroup.claimAll
      cases window with
      | nil => rfl
      | cons word words =>
          cases tokens : group.tokens with
          | nil => rfl
          | cons first others =>
              simp only [bind, Except.bind, read, List.getElem?_cons_zero]
              rfl

theorem nail_eq {claim : Claim} : nail names group window claim = group.nail names window claim := by
  unfold nail OptionGroup.nail read
  cases group.tokens[claim.slot]? with
  | none => rfl
  | some token =>
      cases window[claim.position]? with
      | none => rfl
      | some word =>
          simp only [bind, Except.bind]
          split
          · rfl
          · cases token.bind names word <;> rfl

theorem claim_eq : claim names group window = group.claim names window := by
  have nails : nail names group window = group.nail names window := funext fun _ => nail_eq
  unfold claim OptionGroup.claim
  rw [claims_eq, nails]
  cases group.claims names window with
  | error fault => rfl
  | ok claims =>
      simp only [bind, Except.bind]
      split <;> rfl

theorem sequenceCandidates_eq (inside : slot < tokens.length) :
    sequenceCandidates names tokens slot words =
      OptionGroup.sequenceCandidates names (tokens.drop slot) words := by
  induction words generalizing slot with
  | nil =>
      rw [sequenceCandidates, read_of_lt inside, List.drop_eq_getElem_cons inside]
      rfl
  | cons word words ih =>
      rw [sequenceCandidates, read_of_lt inside, List.drop_eq_getElem_cons inside,
        OptionGroup.sequenceCandidates]
      simp only [bind, Except.bind]
      split
      · rfl
      · by_cases last : slot + 1 = tokens.length
        · simp [last]
          rfl
        · have more : (tokens.drop (slot + 1)).isEmpty = false := by
            rw [List.isEmpty_eq_false_iff, ne_eq, List.drop_eq_nil_iff]
            omega
          rw [if_neg last, more]
          exact ih (by omega)

theorem fromAccepted?_eq (token : Token) :
    OptionGroup.fromAccepted? names token words =
      (words.findIdx? (token.accepts names)).map (words.drop ·) := by
  induction words with
  | nil => rfl
  | cons word words ih =>
      rw [OptionGroup.fromAccepted?, List.findIdx?_cons]
      split
      · rfl
      · rw [ih, Option.map_map]
        rfl

theorem candidates_eq : candidates names group words = group.candidates names words := by
  unfold candidates OptionGroup.candidates
  cases group.policy with
  | oneOf => rfl
  | anyUnordered =>
      dsimp only
      rw [claimFree_unmarked]
      rfl
  | anyOrdered =>
      cases group.tokens with
      | nil => rfl
      | cons first others =>
          dsimp only
          rw [fromAccepted?_eq, read_of_getElem? List.getElem?_cons_zero]
          simp only [bind, Except.bind]
          cases found : words.findIdx? (first.accepts names) with
          | none => rfl
          | some start =>
              have inside := (List.findIdx?_eq_some_iff_getElem.mp found).1
              -- the run ends with the words if it is all of the slice
              have ends : ∀ run, start + run = words.length ↔ run = (words.drop start).length := by
                intro run
                rw [List.length_drop]
                omega
              simp only [sliceFrom_of_findIdx? found, Option.map_some, ends]
              cases (first :: others)[OptionGroup.runLength names (first :: others)
                (words.drop start)]? with
              | none => rfl
              | some next =>
                  dsimp only
                  split <;> rfl
  | allOrdered =>
      cases group.tokens with
      | nil => rfl
      | cons first others =>
          dsimp only
          rw [fromAccepted?_eq, read_of_getElem? List.getElem?_cons_zero]
          simp only [bind, Except.bind]
          cases found : words.findIdx? (first.accepts names) with
          | none => rfl
          | some start =>
              simp only [sliceFrom_of_findIdx? found, Option.map_some]
              exact sequenceCandidates_eq (Nat.succ_pos _)

/-- An option without tokens, which cannot be registered. -/
example : candidates {} (.allOrdered []) [] = .error .outOfRange := rfl

end Policies

/-- The places among these that nobody has claimed, with their words. -/
def unclaimed (words : List String) (filled : List (Option Binding)) :
    List Nat → Except Fault (List (Nat × String))
  | [] => .ok []
  | place :: places => do
      match ← read filled place with
      | none => return (place, ← read words place) :: (← unclaimed words filled places)
      | some _ => unclaimed words filled places

/-- The first option without a mark that claims the first word of the window, and its
nails.  Options are counted from `index`. -/
def winner (names : Names) (window : List String) (used : List Bool) :
    Nat → List OptionGroup → Except Fault (Option (Nat × List Nail))
  | _, [] => .ok none
  | index, group :: groups => do
      if ← read used index then winner names window used (index + 1) groups
      else
        let nails ← claim names group window
        if nails.any fun nail => nail.position == 0 then return some (index, nails)
        else winner names window used (index + 1) groups

def enter (option : Nat) (places : List (Nat × String)) :
    List Nail → List (Option Binding) → Except Fault (List (Option Binding))
  | [], filled => .ok filled
  | nail :: nails, filled => do
      let (place, _) ← read places nail.position
      let filled ← write filled place (some { option, slot := nail.slot, value := nail.value })
      enter option places nails filled

/-- Goes over the places in turn.  One that is open begins a round, after which it is
not open any more. -/
def scan (names : Names) (options : List OptionGroup) (words : List String) :
    List Nat → List Bool → List (Option Binding) → Except Fault (List Binding)
  | [], _, filled => .ok (filled.filterMap id)
  | cursor :: later, used, filled => do
      match ← read filled cursor with
      | some _ => scan names options words later used filled
      | none =>
          let places ← unclaimed words filled (cursor :: later)
          match ← winner names (places.map Prod.snd) used 0 options with
          | none => throw (.badOption (← read words cursor))
          | some (index, nails) =>
              let filled ← enter index places nails filled
              let used ← write used index true
              scan names options words later used filled

def ofWords (names : Names) (options : List OptionGroup) (words : List String) :
    Except Fault (List Binding) :=
  scan names options words (List.range words.length) (options.map fun _ => false)
    (words.map fun _ => none)

section Rounds

variable {names : Names} {options : List OptionGroup} {words window : List String}
  {filled entered : List (Option Binding)} {used : List Bool} {places : List (Nat × String)}
  {group : OptionGroup} {nails : List Nail} {cursor count index offset place rounds : Nat}

/-- The open places from the cursor on, with their words. -/
def waiting (words : List String) (filled : List (Option Binding)) (cursor : Nat) :
    List (Nat × String) :=
  ((words.drop cursor).zip (filled.drop cursor)).zipIdx cursor |>.filterMap
    fun ((word, binding), place) => if binding.isNone then some (place, word) else none

theorem waiting_of_filled {binding : Binding} (held : filled[cursor]? = some (some binding)) :
    waiting words filled cursor = waiting words filled (cursor + 1) := by
  obtain ⟨inside, same⟩ := List.getElem?_eq_some_iff.mp held
  unfold waiting
  rw [List.drop_eq_getElem_cons inside, same]
  rcases Nat.lt_or_ge cursor words.length with more | less
  · rw [List.drop_eq_getElem_cons more]
    rfl
  · rw [List.drop_eq_nil_of_le less, List.drop_eq_nil_of_le (Nat.le_succ_of_le less)]
    rfl

theorem waiting_of_open (held : filled[cursor]? = some none) (inside : cursor < words.length) :
    waiting words filled cursor = (cursor, words[cursor]) :: waiting words filled (cursor + 1) := by
  obtain ⟨more, same⟩ := List.getElem?_eq_some_iff.mp held
  unfold waiting
  rw [List.drop_eq_getElem_cons more, List.drop_eq_getElem_cons inside, same]
  rfl

theorem waiting_of_le (past : words.length ≤ cursor) : waiting words filled cursor = [] := by
  unfold waiting
  rw [List.drop_eq_nil_of_le past]
  rfl

theorem lt_of_mem_waiting {entry : Nat × String} (member : entry ∈ waiting words filled cursor) :
    entry.1 < filled.length := by
  obtain ⟨⟨⟨word, binding⟩, place⟩, present, kept⟩ := List.mem_filterMap.mp member
  obtain ⟨_, less, _⟩ := List.mem_zipIdx present
  rw [List.length_zip, List.length_drop, List.length_drop] at less
  obtain ⟨_, same⟩ := Option.ite_none_right_eq_some.mp kept
  cases same
  dsimp only
  omega

/-- Nothing is left open before the cursor. -/
def FilledTo (filled : List (Option Binding)) (cursor : Nat) : Prop :=
  ∀ place < cursor, ∃ binding, filled[place]? = some (some binding)

theorem FilledTo.succ (before : FilledTo filled cursor)
    (held : ∃ binding, filled[cursor]? = some (some binding)) : FilledTo filled (cursor + 1) := by
  intro place earlier
  rcases Nat.lt_succ_iff_lt_or_eq.mp earlier with earlier | rfl
  · exact before place earlier
  · exact held

theorem unclaimed_eq_waiting (before : FilledTo filled cursor) :
    Binding.unclaimed words filled = waiting words filled cursor := by
  induction cursor with
  | zero => rfl
  | succ cursor ih =>
      obtain ⟨binding, held⟩ := before cursor (Nat.lt_succ_self cursor)
      rw [ih fun place less => before place (Nat.lt_succ_of_lt less), waiting_of_filled held]

theorem unclaimed_eq (fits : cursor + count = words.length) (same : filled.length = words.length) :
    unclaimed words filled (List.range' cursor count) = .ok (waiting words filled cursor) := by
  induction count generalizing cursor with
  | zero =>
      rw [waiting_of_le (by omega)]
      rfl
  | succ count ih =>
      have inside : cursor < filled.length := by omega
      have rest := @ih (cursor + 1) (by omega)
      rw [List.range'_succ, unclaimed, read_of_lt inside]
      cases held : filled[cursor] with
      | some binding =>
          rw [waiting_of_filled (List.getElem?_eq_some_iff.mpr ⟨inside, held⟩)]
          exact rest
      | none =>
          rw [waiting_of_open (List.getElem?_eq_some_iff.mpr ⟨inside, held⟩) (by omega)]
          simp only [bind, Except.bind, pure, Except.pure, read_of_lt (same ▸ inside), rest]

theorem enter_eq (inside : ∀ entry ∈ places, entry.1 < filled.length) :
    enter index places nails filled = Binding.enter index places nails filled := by
  induction nails generalizing filled with
  | nil => rfl
  | cons nail nails ih =>
      rw [enter, Binding.enter, read]
      cases held : places[nail.position]? with
      | none => rfl
      | some entry =>
          have less := inside entry (List.mem_of_getElem? held)
          simp only [bind, Except.bind, write_of_lt less]
          exact ih fun other member => (List.length_set ..).symm ▸ inside other member

/-- The options without a mark, with their numbers. -/
def unused (used : List Bool) (options : List OptionGroup) (offset : Nat) :
    List (Nat × OptionGroup) :=
  ((options.zipIdx offset).map fun (group, index) => (index, group)).filter
    fun entry => used[entry.1]? == some false

theorem winner_eq (fits : offset + options.length ≤ used.length) :
    winner names window used offset options =
      Binding.winner names window (unused used options offset) := by
  induction options generalizing offset with
  | nil => rfl
  | cons group options ih =>
      rw [List.length_cons] at fits
      have inside : offset < used.length := by omega
      have rest := @ih (offset + 1) (by omega)
      have entries : unused used (group :: options) offset =
          if used[offset] = false then (offset, group) :: unused used options (offset + 1)
          else unused used options (offset + 1) := by
        simp [unused, List.zipIdx_cons, List.filter_cons, List.getElem?_eq_getElem inside]
      rw [winner, read_of_lt inside, entries]
      cases used[offset] with
      | true => exact rest
      | false =>
          rw [if_pos rfl, Binding.winner, claim_eq]
          cases group.claim names window with
          | error fault => rfl
          | ok nails =>
              simp only [bind, Except.bind, rest]
              rfl

theorem mem_unused {entry : Nat × OptionGroup} (member : entry ∈ unused used options 0) :
    used[entry.1]? = some false := by
  simpa using (List.mem_filter.mp member).2

theorem unused_set (inside : index < used.length) :
    unused (used.set index true) options offset =
      (unused used options offset).filter fun entry => entry.1 ≠ index := by
  unfold unused
  rw [List.filter_filter]
  refine List.filter_congr fun entry _ => ?_
  rw [List.getElem?_set]
  by_cases same : index = entry.1
  · simp [← same, inside]
  · simp [same, Ne.symm same]

theorem length_unused_set (member : (index, group) ∈ unused used options 0) :
    (unused (used.set index true) options 0).length < (unused used options 0).length := by
  rw [unused_set (List.getElem?_eq_some_iff.mp (mem_unused member)).1]
  exact List.length_filter_lt_length_iff_exists.mpr ⟨_, member, by simp⟩

/-- Entering nails leaves nothing open that was filled, and fills their places. -/
theorem filled_of_enter (done : Binding.enter index places nails filled = .ok entered) :
    entered.length = filled.length ∧
      (∀ (place : Nat) (binding : Binding), filled[place]? = some (some binding) →
        ∃ binding, entered[place]? = some (some binding)) ∧
      ∀ nail ∈ nails, ∀ place word, places[nail.position]? = some (place, word) →
        place < filled.length → ∃ binding, entered[place]? = some (some binding) := by
  induction nails generalizing filled with
  | nil =>
      cases done
      exact ⟨rfl, fun _ binding held => ⟨binding, held⟩, List.forall_mem_nil _⟩
  | cons nail nails ih =>
      unfold Binding.enter at done
      split at done
      · rename_i target word found
        obtain ⟨length, kept, own⟩ := ih done
        rw [List.length_set] at length own
        refine ⟨length, fun place binding held => ?_, List.forall_mem_cons.mpr ⟨?_, own⟩⟩
        · by_cases same : target = place
          · subst same
            exact kept target _ (List.getElem?_set_self (List.getElem?_eq_some_iff.mp held).1)
          · exact kept place binding ((List.getElem?_set_ne same).trans held)
        · intro place word also inside
          cases found.symm.trans also
          exact kept target _ (List.getElem?_set_self inside)
      · contradiction

/-- An option that wins a round claims the place the round began at. -/
theorem FilledTo.enter {word : String} {later : List (Nat × String)}
    (before : FilledTo filled cursor) (less : cursor < filled.length)
    (first : (nails.any fun nail => nail.position == 0) = true)
    (done : Binding.enter index ((cursor, word) :: later) nails filled = .ok entered) :
    FilledTo entered (cursor + 1) := by
  obtain ⟨_, kept, own⟩ := filled_of_enter done
  obtain ⟨nail, nailed, front⟩ := List.any_eq_true.mp first
  refine FilledTo.succ (fun place earlier => ?_) ?_
  · obtain ⟨binding, held⟩ := before place earlier
    exact kept place binding held
  · exact own nail nailed cursor word (by rw [beq_iff_eq.mp front]; rfl) less

/-- How far the places have been gone over.  Every place before the cursor is filled. -/
structure Scanning (options : List OptionGroup) (words : List String) (cursor count : Nat)
    (used : List Bool) (filled : List (Option Binding)) : Prop where
  fits : cursor + count = words.length
  same : filled.length = words.length
  marks : used.length = options.length
  before : FilledTo filled cursor

variable {word : String} {later : List (Nat × String)} {entries : List (Nat × OptionGroup)}

theorem scan_round (scanning : Scanning options words cursor (count + 1) used filled)
    (held : filled[cursor]? = some none)
    (opened : waiting words filled cursor = (cursor, word) :: later) :
    scan names options words (List.range' cursor (count + 1)) used filled =
      match Binding.winner names (word :: later.map Prod.snd) (unused used options 0) with
      | .error fault => .error fault
      | .ok none => .error (.badOption word)
      | .ok (some (index, nails)) =>
          match Binding.enter index ((cursor, word) :: later) nails filled with
          | .error fault => .error fault
          | .ok entered =>
              scan names options words (List.range' (cursor + 1) count) (used.set index true) entered
    := by
  obtain ⟨fits, same, marks, _⟩ := scanning
  have inside : cursor < words.length := by omega
  have places := unclaimed_eq fits same
  have first : words[cursor] = word := by
    rw [waiting_of_open held inside] at opened
    cases opened
    rfl
  have entering (index : Nat) (nails : List Nail) :
      enter index ((cursor, word) :: later) nails filled =
        Binding.enter index ((cursor, word) :: later) nails filled :=
    enter_eq fun entry member => lt_of_mem_waiting (opened ▸ member)
  have won := @winner_eq names options (word :: later.map Prod.snd) used 0 (by omega)
  rw [List.range'_succ, opened] at places
  rw [List.range'_succ, scan, read_of_getElem? held]
  simp only [bind, Except.bind, places, List.map_cons, won, entering, read_of_lt inside, first]
  cases chosen : Binding.winner names (word :: later.map Prod.snd) (unused used options 0) with
  | error fault => rfl
  | ok result =>
      cases result with
      | none => rfl
      | some result =>
          obtain ⟨group, offered, _, _⟩ := Binding.claim_of_winner chosen
          dsimp only
          cases Binding.enter result.1 ((cursor, word) :: later) result.2 filled with
          | error fault => rfl
          | ok entered =>
              simp only [write_of_lt (List.getElem?_eq_some_iff.mp (mem_unused offered)).1]

theorem play_round (before : FilledTo filled cursor)
    (opened : waiting words filled cursor = (cursor, word) :: later) :
    Binding.play names words (rounds + 1) entries filled =
      match Binding.winner names (word :: later.map Prod.snd) entries with
      | .error fault => .error fault
      | .ok none => .error (.badOption word)
      | .ok (some (index, nails)) =>
          match Binding.enter index ((cursor, word) :: later) nails filled with
          | .error fault => .error fault
          | .ok entered =>
              Binding.play names words rounds (entries.filter fun entry => entry.1 ≠ index) entered
    := by
  rw [Binding.play, unclaimed_eq_waiting before, opened]
  rfl

/-- Going over the places in turn plays the rounds, if there is a round for every option
without a mark. -/
theorem scan_eq (scanning : Scanning options words cursor count used filled)
    (enough : (unused used options 0).length ≤ rounds) :
    scan names options words (List.range' cursor count) used filled =
      Binding.play names words rounds (unused used options 0) filled := by
  induction count generalizing cursor used filled rounds with
  | zero =>
      obtain ⟨fits, _, _, before⟩ := scanning
      unfold Binding.play
      rw [unclaimed_eq_waiting before, waiting_of_le (by omega)]
      rfl
  | succ count ih =>
      obtain ⟨fits, same, marks, before⟩ := scanning
      have inside : cursor < words.length := by omega
      have less : cursor < filled.length := by omega
      cases held : filled[cursor] with
      | some binding =>
          have filledHere := before.succ ⟨binding, List.getElem?_eq_some_iff.mpr ⟨less, held⟩⟩
          rw [List.range'_succ, scan, read_of_lt less, held]
          exact ih ⟨by omega, same, marks, filledHere⟩ enough
      | none =>
          have held := List.getElem?_eq_some_iff.mpr ⟨less, held⟩
          have opened := waiting_of_open held inside
          rw [scan_round ⟨fits, same, marks, before⟩ held opened]
          cases rounds with
          | zero =>
              -- no option is left, so the word at the cursor goes to none
              rw [List.length_eq_zero_iff.mp (Nat.le_zero.mp enough), Binding.play,
                unclaimed_eq_waiting before, opened]
              rfl
          | succ rounds =>
              rw [play_round before opened]
              cases won : Binding.winner names _ (unused used options 0) with
              | error fault => rfl
              | ok result =>
                  cases result with
                  | none => rfl
                  | some result =>
                      obtain ⟨index, nails⟩ := result
                      obtain ⟨group, offered, _, first⟩ := Binding.claim_of_winner won
                      have fewer := length_unused_set offered
                      dsimp only
                      cases done : Binding.enter index _ nails filled with
                      | error fault => rfl
                      | ok entered =>
                          dsimp only
                          rw [← unused_set (List.getElem?_eq_some_iff.mp (mem_unused offered)).1]
                          refine ih ⟨by omega, (filled_of_enter done).1.trans same, ?_, ?_⟩ (by omega)
                          · rw [List.length_set, marks]
                          · exact before.enter less first done

theorem ofWords_eq : ofWords names options words = Binding.ofWords names options words := by
  have unmarked : unused (options.map fun _ => false) options 0 =
      options.zipIdx.map fun (group, index) => (index, group) := by
    refine List.filter_eq_self.mpr fun entry member => ?_
    obtain ⟨⟨group, index⟩, present, rfl⟩ := List.mem_map.mp member
    have held : options[index]? = some group := List.mem_zipIdx_iff_getElem?.mp present
    rw [beq_iff_eq, List.getElem?_map, held, Option.map_some]
  unfold ofWords Binding.ofWords
  rw [List.range_eq_range', ← unmarked]
  refine scan_eq ⟨Nat.zero_add _, List.length_map .., List.length_map .., ?_⟩ ?_
  · exact fun place impossible => absurd impossible (Nat.not_lt_zero place)
  · exact Nat.le_of_eq (by rw [unmarked, List.length_map, List.length_zipIdx])

end Rounds

end SwitchShell.Indexed

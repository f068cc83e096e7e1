import SwitchShell.Proofs.Grammar.InRange

namespace SwitchShell

namespace OptionGroup

variable {names : Names} {group : OptionGroup} {tokens : List Token} {window words : List String}
  {claims : List Claim} {nails : List Nail} {slots taken : List Nat} {position count : Nat}

/-- Every token that must take part is among the slots. -/
def HasRequired (group : OptionGroup) (slots : List Nat) : Prop :=
  ∀ (slot : Nat) (token : Token), group.tokens[slot]? = some token → token.required = true →
    slot ∈ slots

/-- The slots may be used together, and in this order. -/
def Allows (group : OptionGroup) (slots : List Nat) : Prop :=
  match group.policy with
  | .oneOf => slots.length = 1
  | .anyUnordered => slots.Nodup ∧ group.HasRequired slots
  | .anyOrdered => (∃ count, 1 ≤ count ∧ slots = List.range count) ∧ group.HasRequired slots
  | .allOrdered => slots = List.range group.tokens.length

theorem Allows.nodup (allowed : group.Allows slots) : slots.Nodup := by
  unfold Allows at allowed
  split at allowed
  · obtain ⟨slot, rfl⟩ := List.length_eq_one_iff.mp allowed
    exact List.pairwise_singleton _ slot
  · exact allowed.1
  · obtain ⟨⟨count, _, rfl⟩, _⟩ := allowed
    exact List.nodup_range
  · exact allowed ▸ List.nodup_range

theorem hasRequired_of_complete (complete : group.missesRequired claims = false) :
    group.HasRequired (claims.map Claim.slot) := by
  intro slot token held required
  have present := List.any_eq_false.mp complete (token, slot)
    (List.mem_zipIdx_iff_getElem?.mpr held)
  simpa [required] using present

theorem pairwise_claimFree :
    (claimFree names tokens taken position words).Pairwise fun one other =>
      one.position < other.position ∧ one.slot ≠ other.slot := by
  induction words generalizing taken position with
  | nil => exact .nil
  | cons word words ih =>
      unfold claimFree
      split
      · refine List.pairwise_cons.mpr ⟨fun other member => ?_, ih⟩
        obtain ⟨fresh, place, _, _, same, _⟩ := exists_of_mem_claimFree member
        exact ⟨by dsimp only; omega, fun again => fresh (again ▸ List.mem_cons_self)⟩
      · exact ih

theorem length_of_claimOne (found : group.claimOne names window = .ok claims) :
    claims.length ≤ 1 := by
  simp only [claimOne] at found
  split at found
  · contradiction
  · rename_i few
    cases found
    exact Nat.le_of_not_lt few

theorem position_diagonal : (diagonal count).map Claim.position = List.range count := by
  simp [diagonal, Function.comp_def]

theorem slot_diagonal : (diagonal count).map Claim.slot = List.range count := by
  simp [diagonal, Function.comp_def]

theorem increasing_claims (found : group.claims names window = .ok claims) :
    (claims.map Claim.position).Pairwise (· < ·) := by
  unfold OptionGroup.claims at found
  split at found
  · have few := length_of_claimOne found
    rcases claims with _ | ⟨claim, _ | ⟨_, _⟩⟩ <;> simp at few ⊢
  · cases found
    exact List.pairwise_map.mpr (pairwise_claimFree.imp And.left)
  · cases found
    exact position_diagonal ▸ List.pairwise_lt_range
  · by_cases some : claims = []
    · simp [some]
    · obtain ⟨_, rfl⟩ := claims_of_claimAll found some
      exact position_diagonal ▸ List.pairwise_lt_range

theorem allows_claims (found : group.claims names window = .ok claims) (some : claims ≠ [])
    (complete : checksTokens group.policy = true → group.missesRequired claims = false) :
    group.Allows (claims.map Claim.slot) := by
  unfold OptionGroup.claims at found
  split at found
  all_goals
    rename_i policy
    simp only [Allows, policy]
  · have few := length_of_claimOne found
    have := List.length_pos_iff.mpr some
    rw [List.length_map]
    omega
  · refine ⟨?_, hasRequired_of_complete (complete (by simp [policy, checksTokens]))⟩
    cases found
    exact List.pairwise_map.mpr (pairwise_claimFree.imp And.right)
  · refine ⟨?_, hasRequired_of_complete (complete (by simp [policy, checksTokens]))⟩
    cases found
    exact ⟨_, by simpa [diagonal, Nat.one_le_iff_ne_zero] using some, slot_diagonal⟩
  · obtain ⟨_, rfl⟩ := claims_of_claimAll found some
    exact slot_diagonal

/-- The nails of an option are in the order of the words, and their slots may be
used together. -/
theorem shape_of_claim (claimed : group.claim names window = .ok nails) :
    (nails.map Nail.position).Pairwise (· < ·) ∧
      (nails ≠ [] → group.Allows (nails.map Nail.slot)) := by
  obtain ⟨claims, found, complete, nailed⟩ := claim_eq_ok_iff.mp claimed
  obtain ⟨slots, positions⟩ := map_of_mapM_nail nailed
  refine ⟨positions ▸ increasing_claims found, fun some => slots ▸ ?_⟩
  have busy : claims ≠ [] := by
    rintro rfl
    exact some (List.map_eq_nil_iff.mp slots.symm)
  refine allows_claims found busy fun checks => ?_
  simpa [checks, busy] using complete

end OptionGroup

namespace Binding

open OptionGroup

variable {names : Names} {options : List OptionGroup} {words : List String}
  {unused : List (Nat × OptionGroup)} {places : List (Nat × String)}
  {filled entered : List (Option Binding)} {bindings : List Binding}
  {index place later rounds : Nat} {word : String} {nails : List Nail}

/-- The slots that an option bound words by, in the order of the words. -/
def slotsOf (index : Nat) (bindings : List Binding) : List Nat :=
  (bindings.filter fun binding => binding.option == index).map Binding.slot

theorem slotsOf_append (front back : List Binding) :
    slotsOf index (front ++ back) = slotsOf index front ++ slotsOf index back := by
  simp [slotsOf]

theorem slotsOf_cons_self (binding : Binding) :
    slotsOf binding.option (binding :: bindings) =
      binding.slot :: slotsOf binding.option bindings := by
  simp [slotsOf]

theorem slotsOf_eq_nil_iff :
    slotsOf index bindings = [] ↔ ∀ binding ∈ bindings, binding.option ≠ index := by
  simp [slotsOf]

theorem nodup_of_slotsOf (apart : ∀ index, (slotsOf index bindings).Nodup) :
    (bindings.map fun binding => (binding.option, binding.slot)).Nodup := by
  induction bindings with
  | nil => exact .nil
  | cons binding bindings ih =>
      refine List.nodup_cons.mpr ⟨fun member => ?_, ih fun index => ?_⟩
      · obtain ⟨other, inside, same⟩ := List.mem_map.mp member
        obtain ⟨option, slot⟩ := Prod.mk.inj same
        have own := apart binding.option
        rw [slotsOf_cons_self] at own
        refine (List.nodup_cons.mp own).1 (List.mem_map.mpr ⟨other, ?_, slot⟩)
        simpa [option] using inside
      · have own := apart index
        rw [← List.singleton_append, slotsOf_append] at own
        exact (List.nodup_append.mp own).2.1

/-- The binding names an option and one of its tokens, which takes the word. -/
def Fits (names : Names) (options : List OptionGroup) (word : String) (binding : Binding) : Prop :=
  ∃ group token, options[binding.option]? = some group ∧
    group.tokens[binding.slot]? = some token ∧ token.Takes names word binding.value

/-- The place is open, and its option has not bound a word behind it. -/
def Awaits (index : Nat) (filled : List (Option Binding)) (place : Nat) : Prop :=
  ∃ front back, filled = front ++ none :: back ∧ front.length = place ∧
    ∀ binding, some binding ∈ back → binding.option ≠ index

theorem awaits_of_fresh (isOpen : filled[place]? = some none)
    (fresh : ∀ binding, some binding ∈ filled → binding.option ≠ index) :
    Awaits index filled place := by
  obtain ⟨inside, free⟩ := List.getElem?_eq_some_iff.mp isOpen
  refine ⟨filled.take place, filled.drop (place + 1), ?_,
    List.length_take_of_le (Nat.le_of_lt inside), fun binding member => ?_⟩
  · rw [← free, List.getElem_cons_drop, List.take_append_drop]
  · exact fresh binding (List.mem_of_mem_drop member)

theorem Awaits.set (awaits : Awaits index filled later) (earlier : place < later)
    (entry : Option Binding) : Awaits index (filled.set place entry) later := by
  obtain ⟨front, back, rfl, rfl, fresh⟩ := awaits
  exact ⟨front.set place entry, back, List.set_append_left _ _ earlier, List.length_set, fresh⟩

theorem Awaits.slotsOf_set (awaits : Awaits index filled place) (slot : Nat) (value : Value) :
    let after := filled.set place (some { option := index, slot, value })
    slotsOf index (after.filterMap id) = slotsOf index (filled.filterMap id) ++ [slot] ∧
      ∀ other, other ≠ index →
        slotsOf other (after.filterMap id) = slotsOf other (filled.filterMap id) := by
  obtain ⟨front, back, rfl, rfl, fresh⟩ := awaits
  have behind : slotsOf index (back.filterMap id) = [] :=
    slotsOf_eq_nil_iff.mpr fun binding member => fresh binding (by simpa using member)
  have opened : ∀ entry : Option Binding,
      ((front ++ none :: back).set front.length entry).filterMap id =
        front.filterMap id ++ (entry.toList ++ back.filterMap id) := fun entry => by
    cases entry <;> simp
  have before := opened none
  rw [List.set_append_right _ _ (Nat.le_refl _), Nat.sub_self, List.set_cons_zero] at before
  simp only [opened, before, slotsOf_append, behind]
  exact ⟨by simp [slotsOf], fun other different => by simp [slotsOf, different.symm]⟩

theorem slotsOf_enter (done : enter index places nails filled = .ok entered)
    (ascending : places.Pairwise fun one other => one.1 < other.1)
    (increasing : (nails.map Nail.position).Pairwise (· < ·))
    (awaits : ∀ nail ∈ nails, ∀ place word, places[nail.position]? = some (place, word) →
      Awaits index filled place) :
    slotsOf index (entered.filterMap id) =
        slotsOf index (filled.filterMap id) ++ nails.map Nail.slot ∧
      ∀ other, other ≠ index →
        slotsOf other (entered.filterMap id) = slotsOf other (filled.filterMap id) := by
  induction nails generalizing filled with
  | nil =>
      cases done
      simp
  | cons nail nails ih =>
      unfold enter at done
      split at done
      · rename_i place word here
        obtain ⟨first, others⟩ := List.pairwise_cons.mp increasing
        obtain ⟨own, same⟩ :=
          (awaits nail List.mem_cons_self _ _ here).slotsOf_set nail.slot nail.value
        -- The places of the other nails come later, so they stay open and nothing of
        -- the option is behind them.
        obtain ⟨added, kept⟩ := ih done others fun next member later word there => by
          have behind : place < later := by
            obtain ⟨inside, start⟩ := List.getElem?_eq_some_iff.mp here
            obtain ⟨inside', finish⟩ := List.getElem?_eq_some_iff.mp there
            have less := List.pairwise_iff_getElem.mp ascending _ _ inside inside'
              (first _ (List.mem_map_of_mem member))
            rwa [start, finish] at less
          exact (awaits next (List.mem_cons_of_mem _ member) _ _ there).set behind _
        refine ⟨?_, fun other different => (kept other different).trans (same other different)⟩
        rw [added, own, List.append_assoc]
        rfl
      · contradiction

/-- Whatever stands at the place of the word fits it. -/
def Suits (names : Names) (options : List OptionGroup) (word : String) (entry : Option Binding) :
    Prop :=
  ∀ binding, entry = some binding → Fits names options word binding

theorem suits_set {entry : Option Binding} (suits : List.Forall₂ (Suits names options) words filled)
    (there : words[place]? = some word) (fits : Suits names options word entry) :
    List.Forall₂ (Suits names options) words (filled.set place entry) := by
  induction suits generalizing place with
  | nil => exact .nil
  | cons first others ih =>
      cases place with
      | zero =>
          cases there
          exact .cons fits others
      | succ place => exact .cons first (ih there)

theorem suits_enter (done : enter index places nails filled = .ok entered)
    (suits : List.Forall₂ (Suits names options) words filled)
    (fits : ∀ nail ∈ nails, ∀ place word, places[nail.position]? = some (place, word) →
      words[place]? = some word ∧
        Fits names options word { option := index, slot := nail.slot, value := nail.value }) :
    List.Forall₂ (Suits names options) words entered := by
  induction nails generalizing filled with
  | nil =>
      cases done
      exact suits
  | cons nail nails ih =>
      obtain ⟨first, others⟩ := List.forall_mem_cons.mp fits
      unfold enter at done
      split at done
      · rename_i place word here
        obtain ⟨there, own⟩ := first place word here
        refine ih done (suits_set suits there ?_) others
        rintro binding ⟨⟩
        exact own
      · contradiction

/-- What holds between the rounds: every place suits its word, what an option has
bound it may bind, and what is unused has bound nothing. -/
structure Sound (names : Names) (options : List OptionGroup) (words : List String)
    (unused : List (Nat × OptionGroup)) (filled : List (Option Binding)) : Prop where
  numbered : ∀ entry ∈ unused, options[entry.1]? = some entry.2
  suits : List.Forall₂ (Suits names options) words filled
  allowed : ∀ index, slotsOf index (filled.filterMap id) = [] ∨
    ∃ group, options[index]? = some group ∧ group.Allows (slotsOf index (filled.filterMap id))
  fresh : ∀ entry ∈ unused, slotsOf entry.1 (filled.filterMap id) = []

theorem Sound.start (names : Names) (options : List OptionGroup) (words : List String) :
    Sound names options words (options.zipIdx.map fun (group, index) => (index, group))
      (words.map fun _ => none) where
  numbered _ := mem_numbered_iff.mp
  suits := by
    rw [List.forall₂_map_right_iff, List.forall₂_same]
    exact fun word _ => nofun
  allowed index := .inl (slotsOf_eq_nil_iff.mpr (by simp))
  fresh entry _ := slotsOf_eq_nil_iff.mpr (by simp)

theorem Sound.round (sound : Sound names options words unused filled)
    (won : winner names ((unclaimed words filled).map Prod.snd) unused = .ok (some (index, nails)))
    (done : enter index (unclaimed words filled) nails filled = .ok entered) :
    Sound names options words (unused.filter fun entry => entry.1 ≠ index) entered := by
  obtain ⟨group, member, claimed, first⟩ := claim_of_winner won
  have option := sound.numbered _ member
  have unusedYet := sound.fresh _ member
  obtain ⟨increasing, allowed⟩ := shape_of_claim claimed
  have waiting : ∀ nail ∈ nails, ∀ place word,
      (unclaimed words filled)[nail.position]? = some (place, word) →
        words[place]? = some word ∧ filled[place]? = some none :=
    fun _ _ _ _ here => mem_unclaimed_iff.mp (List.mem_of_getElem? here)
  obtain ⟨added, kept⟩ := slotsOf_enter done pairwise_unclaimed increasing
    fun nail inside place word here => awaits_of_fresh (waiting nail inside place word here).2
      fun binding old => slotsOf_eq_nil_iff.mp unusedYet binding (by simpa using old)
  rw [unusedYet, List.nil_append] at added
  have remaining : ∀ entry ∈ unused.filter fun entry => entry.1 ≠ index,
      entry ∈ unused ∧ entry.1 ≠ index := fun entry left => by
    simpa using List.mem_filter.mp left
  refine ⟨fun entry left => sound.numbered entry (remaining entry left).1, ?_, fun other => ?_,
    fun entry left => ?_⟩
  · -- every nail comes of a word that its token takes
    refine suits_enter done sound.suits fun nail inside place word here => ?_
    obtain ⟨token, again, held, present, taken⟩ := drives_of_claim claimed nail inside
    rw [List.getElem?_map, here] at present
    cases present
    exact ⟨(waiting nail inside place word here).1, group, token, option, held, taken⟩
  · -- the winner had bound nothing, so its slots are those of the nails
    by_cases same : other = index
    · subst same
      refine .inr ⟨group, option, added ▸ allowed ?_⟩
      rintro rfl
      contradiction
    · rw [kept other same]
      exact sound.allowed other
  · -- the others bind what they bound before
    obtain ⟨old, different⟩ := remaining entry left
    rw [kept _ different]
    exact sound.fresh entry old

/-- What every round keeps is kept until all words are claimed. -/
theorem exists_of_play {Kept : List (Nat × OptionGroup) → List (Option Binding) → Prop}
    (round : ∀ unused filled index nails entered, Kept unused filled →
      winner names ((unclaimed words filled).map Prod.snd) unused = .ok (some (index, nails)) →
      enter index (unclaimed words filled) nails filled = .ok entered →
      Kept (unused.filter fun entry => entry.1 ≠ index) entered)
    (kept : Kept unused filled) (played : play names words rounds unused filled = .ok bindings) :
    ∃ unused filled, Kept unused filled ∧ unclaimed words filled = [] ∧
      bindings = filled.filterMap id := by
  induction rounds generalizing unused filled with
  | zero =>
      unfold play at played
      split at played
      · rename_i claimed
        cases played
        exact ⟨unused, filled, kept, claimed, rfl⟩
      · contradiction
  | succ rounds ih =>
      unfold play at played
      split at played
      · rename_i claimed
        cases played
        exact ⟨unused, filled, kept, claimed, rfl⟩
      · rename_i place word places waiting
        dsimp only at played
        rw [← waiting] at played
        split at played
        · contradiction
        · contradiction
        · rename_i index nails won
          split at played
          · contradiction
          · rename_i entered done
            exact ih (round _ _ _ _ _ kept won done) played

theorem fits_of_suits (suits : List.Forall₂ (Suits names options) words filled)
    (claimed : unclaimed words filled = []) :
    List.Forall₂ (Fits names options) words (filled.filterMap id) := by
  have full : ∀ entry ∈ filled, entry ≠ none := by
    rintro entry member rfl
    obtain ⟨place, free⟩ := List.mem_iff_getElem?.mp member
    have inside := suits.length_eq ▸ (List.getElem?_eq_some_iff.mp free).1
    have left := mem_unclaimed_iff.mpr ⟨List.getElem?_eq_getElem inside, free⟩
    rw [claimed] at left
    contradiction
  clear claimed
  induction suits with
  | nil => exact .nil
  | @cons word entry words filled first others ih =>
      obtain ⟨here, rest⟩ := List.forall_mem_cons.mp full
      obtain ⟨binding, rfl⟩ := Option.ne_none_iff_exists'.mp here
      exact .cons (first binding rfl) (ih rest)

theorem exists_of_ofWords (bound : ofWords names options words = .ok bindings) :
    ∃ unused filled, Sound names options words unused filled ∧ unclaimed words filled = [] ∧
      bindings = filled.filterMap id :=
  exists_of_play (fun _ _ _ _ _ => Sound.round) (.start names options words) bound

/-- A binding names the option and the token that bound its value to one of the
words. -/
def ByToken (names : Names) (options : List OptionGroup) (words : List String)
    (binding : Binding) : Prop :=
  ∃ group token word, options[binding.option]? = some group ∧
    group.tokens[binding.slot]? = some token ∧ word ∈ words ∧
    token.bind names word = .ok binding.value

theorem byToken_of_ofWords (bound : ofWords names options words = .ok bindings) :
    ∀ binding ∈ bindings, ByToken names options words binding := by
  intro binding member
  obtain ⟨unused, filled, sound, claimed, rfl⟩ := exists_of_ofWords bound
  have fits := fits_of_suits sound.suits claimed
  obtain ⟨place, inside, rfl⟩ := List.getElem_of_mem member
  have inside' := fits.length_eq ▸ inside
  obtain ⟨group, token, option, slot, taken⟩ := fits.get inside' inside
  exact ⟨group, token, words[place], option, slot, List.getElem_mem _, taken.bound⟩

theorem nodup_of_ofWords (bound : ofWords names options words = .ok bindings) :
    (bindings.map fun binding => (binding.option, binding.slot)).Nodup := by
  obtain ⟨unused, filled, sound, _, rfl⟩ := exists_of_ofWords bound
  refine nodup_of_slotsOf fun index => ?_
  rcases sound.allowed index with idle | ⟨group, _, allowed⟩
  · exact idle ▸ .nil
  · exact allowed.nodup

/-- Words are bound one by one, each by a token that takes it alone.  No token binds
twice, and what an option binds, it binds by tokens that its policy lets be used
together.  Words that are not bound are ambiguous, too few, too many, or hold one
that no option takes. -/
theorem ofWords_guarantees (tokens : ∀ group ∈ options, group.tokens ≠ []) :
    (∀ bindings, ofWords names options words = .ok bindings →
      List.Forall₂ (Fits names options) words bindings ∧
        (bindings.map fun binding => (binding.option, binding.slot)).Nodup ∧
        ∀ index group, options[index]? = some group → slotsOf index bindings ≠ [] →
          group.Allows (slotsOf index bindings)) ∧
      ∀ fault, ofWords names options words = .error fault →
        fault = .ambiguous ∨ fault = .optionRequired ∨ fault = .superfluous ∨
          ∃ word ∈ words, fault = .badOption word := by
  refine ⟨fun bindings bound => ?_, fun fault failed => ?_⟩
  · obtain ⟨unused, filled, sound, claimed, rfl⟩ := exists_of_ofWords bound
    refine ⟨fits_of_suits sound.suits claimed, nodup_of_ofWords bound,
      fun index group option busy => ?_⟩
    rcases sound.allowed index with idle | ⟨owner, found, allowed⟩
    · exact absurd idle busy
    · cases option.symm.trans found
      exact allowed
  · obtain ⟨inRange, orderly⟩ := orderly_ofWords names words tokens fault failed
    cases blames_of_ofWords failed with
    | ambiguous => exact .inl rfl
    | optionRequired => exact .inr (.inl rfl)
    | superfluous => exact .inr (.inr (.inl rfl))
    | outOfRange => exact absurd rfl inRange
    | badOption member => exact .inr (.inr (.inr ⟨_, member, rfl⟩))
    | invalidValue _ => exact absurd rfl (orderly _)

def linkNames : Names := { interfaces := ["eth0"] }

def linkOptions : List OptionGroup := [
  .anyUnordered [.choice [("full", ""), ("half", "")], { Token.range 10 1000 with required := true }],
  .oneOf [.keyword "enable" "", .keyword "disable" ""],
  .allOrdered [.keyword "mtu" "", .range 68 9216],
  .anyOrdered [.choice [("speed", ""), ("state", "")], .name .interface, .keyword "brief" ""]]

/-- An option may bind words that are apart, and another one those in between. -/
theorem linkWords_bound :
    let words := ["half", "mtu", "9000", "dis", "0100", "st", "eth0"]
    (∀ group ∈ linkOptions, group.tokens ≠ []) ∧
      ∃ bindings, ofWords linkNames linkOptions words = .ok bindings ∧
        bindings.map (fun binding => (binding.option, binding.slot)) =
          [(0, 0), (2, 0), (2, 1), (1, 1), (0, 1), (3, 0), (3, 1)] ∧
        List.Forall₂ (Fits linkNames linkOptions) words bindings ∧
        ∀ index group, linkOptions[index]? = some group → slotsOf index bindings ≠ [] →
          group.Allows (slotsOf index bindings) := by
  intro words
  have tokens : ∀ group ∈ linkOptions, group.tokens ≠ [] := by decide
  obtain ⟨bindings, bound, pairs⟩ : ∃ bindings, ofWords linkNames linkOptions words = .ok bindings ∧
      bindings.map (fun binding => (binding.option, binding.slot)) =
        [(0, 0), (2, 0), (2, 1), (1, 1), (0, 1), (3, 0), (3, 1)] := ⟨_, rfl, rfl⟩
  obtain ⟨fits, _, allowed⟩ := (ofWords_guarantees tokens).1 bindings bound
  exact ⟨tokens, bindings, bound, pairs, fits, allowed⟩

end Binding

end SwitchShell

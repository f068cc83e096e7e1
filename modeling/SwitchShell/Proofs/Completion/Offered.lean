import SwitchShell.Proofs.Completion.Executable
import SwitchShell.Proofs.Grammar.Blocks

namespace SwitchShell

/-! Completion offers exactly the tokens that can take the next option word.

Completion reads the words on its own, option by option: it looks for the word
that begins a use of the option and counts the words that go on from there.  On
the blocks of a line this finds the block of each option.
-/

namespace OptionGroup

variable {names : Names} {group : OptionGroup} {tokens : List Token} {token : Token}
  {word : String} {words before : List String} {value : Value} {values : List Value}
  {bound : List (Nat × Value)}

theorem TakesInTurn.concat (taken : TakesInTurn names tokens words values)
    (next : tokens[words.length]? = some token) (last : token.Takes names word value) :
    TakesInTurn names tokens (words ++ [word]) (values ++ [value]) := by
  induction taken with
  | done tokens =>
      cases tokens with
      | nil => simp at next
      | cons first others =>
          cases next
          exact .take last (.done others)
  | take first others ih => exact .take first (ih next)

theorem TakesInTurn.ofConcat (taken : TakesInTurn names tokens (words ++ [word]) values) :
    ∃ token earlier, TakesInTurn names tokens words earlier ∧
      tokens[words.length]? = some token ∧ token.accepts names word = true := by
  induction words generalizing tokens values with
  | nil =>
      cases taken with
      | take first others => exact ⟨_, [], .done _, rfl, first.accepted⟩
  | cons head words ih =>
      cases taken with
      | take first others =>
          obtain ⟨token, earlier, front, next, accepted⟩ := ih others
          exact ⟨token, _, .take first front, next, accepted⟩

/-- The tokens that may take the first word of a use. -/
def openers (group : OptionGroup) : List Token :=
  match group.policy with
  | .oneOf | .anyUnordered => group.tokens
  | .anyOrdered | .allOrdered => group.tokens.take 1

theorem Begins.exists_opener (begins : group.Begins names [word] bound) :
    ∃ token ∈ group.openers, token.accepts names word = true := by
  cases begins with
  | one policy held taken =>
      refine ⟨_, ?_, taken.accepted⟩
      simpa only [openers, policy] using List.mem_of_getElem? held
  | inTurn policy filled taken =>
      obtain ⟨first, others, split, accepted⟩ := taken.head
      refine ⟨first, ?_, accepted⟩
      rcases policy with policy | policy <;> simp [openers, policy, split]

theorem Begins.ofOpener (ordered : group.policy ≠ .anyUnordered)
    (opener : token ∈ group.openers) (taken : token.Takes names word value) :
    ∃ bound, group.Begins names [word] bound := by
  have inTurn : token ∈ group.tokens.take 1 →
      TakesInTurn names group.tokens [word] [value] := by
    intro first
    cases split : group.tokens with
    | nil => simp [split] at first
    | cons head others =>
        rw [split] at first
        exact .take (List.mem_singleton.mp first ▸ taken) (.done others)
  cases policy : group.policy with
  | oneOf =>
      simp only [openers, policy] at opener
      obtain ⟨slot, held⟩ := List.mem_iff_getElem?.mp opener
      exact ⟨_, .one policy held taken⟩
  | anyUnordered => contradiction
  | anyOrdered =>
      simp only [openers, policy] at opener
      exact ⟨_, .inTurn (.inl policy) (List.cons_ne_nil _ _) (inTurn opener)⟩
  | allOrdered =>
      simp only [openers, policy] at opener
      exact ⟨_, .inTurn (.inr policy) (List.cons_ne_nil _ _) (inTurn opener)⟩

theorem Begins.concat (begins : group.Begins names words bound)
    (policy : group.policy = .anyOrdered ∨ group.policy = .allOrdered)
    (next : group.tokens[words.length]? = some token) (last : token.Takes names word value) :
    ∃ bound, group.Begins names (words ++ [word]) bound := by
  obtain ⟨values, taken, _⟩ := begins.ofOrdered policy
  exact ⟨_, .inTurn policy (by simp) (taken.concat next last)⟩

/-- A use without its last word begins the use. -/
theorem Begins.ofConcat (begins : group.Begins names (words ++ [word]) bound)
    (filled : words ≠ []) :
    (group.policy = .anyOrdered ∨ group.policy = .allOrdered) ∧
      ∃ token bound, group.Begins names words bound ∧
        group.tokens[words.length]? = some token ∧ token.accepts names word = true := by
  generalize whole : words ++ [word] = longer at begins
  cases begins with
  | one policy held taken =>
      have lengths := congrArg List.length whole
      simp [filled] at lengths
  | inTurn policy _ taken =>
      subst whole
      obtain ⟨token, earlier, front, next, accepted⟩ := taken.ofConcat
      exact ⟨policy, token, _, .inTurn policy filled front, next, accepted⟩

theorem fromAccepted?_append (ignored : ∀ word ∈ before, token.accepts names word = false) :
    fromAccepted? names token (before ++ words) = fromAccepted? names token words := by
  induction before with
  | nil => rfl
  | cons word before ih =>
      have refused := ignored word List.mem_cons_self
      rw [List.cons_append, fromAccepted?, if_neg (Bool.eq_false_iff.mp refused)]
      exact ih fun other member => ignored other (List.mem_cons_of_mem _ member)

theorem candidates_of_ignores (filled : group.tokens ≠ []) (ordered : group.policy ≠ .anyUnordered)
    (ignored : ∀ word ∈ words, group.Ignores names word) :
    group.candidates names words = .ok (.alongside group.openers) := by
  obtain ⟨first, others, split⟩ := List.exists_cons_of_ne_nil filled
  have unread : fromAccepted? names first words = none := by
    have skipped := @fromAccepted?_append names first [] words
      fun word member => ignored word member first (split ▸ List.mem_cons_self)
    rwa [List.append_nil] at skipped
  cases policy : group.policy with
  | oneOf =>
      have unused : (words.any fun word => (group.slotOf? names word).isSome) = false := by
        rw [List.any_eq_false]
        intro word member
        rw [slotOf?_eq_none (ignored word member)]
        exact Bool.false_ne_true
      simp only [candidates, policy, unused, openers, Bool.false_eq_true, ↓reduceIte]
  | anyUnordered => contradiction
  | anyOrdered => simp only [candidates, policy, split, unread, openers, List.take_one, List.head?_cons, Option.toList]
  | allOrdered => simp only [candidates, policy, split, unread, openers, List.take_one, List.head?_cons, Option.toList]

theorem candidates_of_oneOf (policy : group.policy = .oneOf) (member : word ∈ words)
    (accepted : ∃ token ∈ group.tokens, token.accepts names word = true) :
    group.candidates names words = .ok (.alongside []) := by
  have used : (words.any fun word => (group.slotOf? names word).isSome) = true := by
    refine List.any_eq_true.mpr ⟨word, member, ?_⟩
    rw [slotOf?, List.findIdx?_isSome, List.any_eq_true]
    exact accepted
  simp only [candidates, policy, used, ↓reduceIte]

theorem sequenceCandidates_of_whole (after : List String) (taken : TakesInTurn names tokens words values)
    (filled : words ≠ []) (whole : words.length = tokens.length) :
    sequenceCandidates names tokens (words ++ after) = .ok (.alongside []) := by
  induction taken with
  | done tokens => contradiction
  | @take token tokens word words value values first others ih =>
      rw [List.cons_append, sequenceCandidates, first.accepted]
      cases tokens with
      | nil => rfl
      | cons second later =>
          have more : words ≠ [] := by
            rintro rfl
            simp at whole
          exact ih more (Nat.succ.inj whole)

theorem sequenceCandidates_of_next (taken : TakesInTurn names tokens words values)
    (next : tokens[words.length]? = some token) :
    sequenceCandidates names tokens words = .ok (.only [token]) := by
  induction taken with
  | done tokens =>
      cases tokens with
      | nil => simp at next
      | cons first others =>
          cases next
          rfl
  | @take first tokens word words value values taken others ih =>
      rw [sequenceCandidates, taken.accepted]
      cases tokens with
      | nil => simp at next
      | cons second later => exact ih next

theorem TakesInTurn.fromAccepted?_eq (after : List String) (taken : TakesInTurn names group.tokens words values)
    (filled : words ≠ []) (ignored : ∀ word ∈ before, group.Ignores names word) :
    ∃ first others, group.tokens = first :: others ∧
      fromAccepted? names first (before ++ (words ++ after)) = some (words ++ after) := by
  obtain ⟨word, more, rfl⟩ := List.exists_cons_of_ne_nil filled
  obtain ⟨first, others, split, accepted⟩ := taken.head
  refine ⟨first, others, split, ?_⟩
  rw [fromAccepted?_append fun word member => ignored word member first (split ▸ List.mem_cons_self),
    List.cons_append, fromAccepted?, if_pos accepted]

/-- A run of words that may go on offers the next token as long as the run is the
last thing on the line. -/
theorem candidates_of_anyOrdered {after : List String} (policy : group.policy = .anyOrdered)
    (taken : TakesInTurn names group.tokens words values) (filled : words ≠ [])
    (ignoredBefore : ∀ word ∈ before, group.Ignores names word)
    (ignoredAfter : ∀ word ∈ after, group.Ignores names word) :
    group.candidates names (before ++ (words ++ after)) =
      .ok (.alongside (if after = [] then (group.tokens[words.length]?).toList else [])) := by
  obtain ⟨first, others, split, started⟩ := taken.fromAccepted?_eq after filled ignoredBefore
  have run : runLength names (first :: others) (words ++ after) = words.length :=
    split ▸ runLength_eq taken ignoredAfter
  simp only [candidates, policy, split, started, run, List.length_append]
  cases next : (first :: others)[words.length]? with
  | none => simp
  | some token =>
      by_cases empty : after = []
      · simp [empty]
      · have longer : after.length ≠ 0 := fun zero => empty (List.length_eq_zero_iff.mp zero)
        simp [empty]

theorem candidates_of_allOrdered (after : List String) (policy : group.policy = .allOrdered)
    (taken : TakesInTurn names group.tokens words values) (filled : words ≠ [])
    (ignored : ∀ word ∈ before, group.Ignores names word) :
    group.candidates names (before ++ (words ++ after)) =
      sequenceCandidates names group.tokens (words ++ after) := by
  obtain ⟨first, others, split, started⟩ := taken.fromAccepted?_eq after filled ignored
  simp only [candidates, policy, split, started]

end OptionGroup

namespace Binding

open OptionGroup

variable {names : Names} {options : List OptionGroup} {group : OptionGroup} {block : Block}
  {blocks before after : List Block} {token : Token} {index : Nat}

theorem Series.candidates_of_unused (series : Series names options blocks)
    (option : options[index]? = some group) (filled : group.tokens ≠ [])
    (ordered : group.policy ≠ .anyUnordered) (unused : ∀ block ∈ blocks, block.option ≠ index) :
    group.candidates names (blocks.flatMap Block.words) = .ok (.alongside group.openers) :=
  candidates_of_ignores filled ordered
    (series.ignoresAll (List.Subset.refl _) unused option)

/-- The option of a whole block offers nothing, unless its run may go on. -/
theorem Series.candidates_of_whole (series : Series names options (before ++ block :: after))
    (option : options[block.option]? = some group) (whole : block.Whole options) :
    ∃ next, group.candidates names ((before ++ block :: after).flatMap Block.words) =
        .ok (.alongside next) ∧
      ∀ token ∈ next, after = [] ∧ group.policy = .anyOrdered ∧
        group.tokens[block.words.length]? = some token := by
  have member : block ∈ before ++ block :: after := by simp
  have begins := (series.begun block member).begins option
  have enough := (Block.whole_iff option).mp whole
  obtain ⟨ignoredBefore, ignoredAfter⟩ := series.ignored_around option
  rw [List.flatMap_append, List.flatMap_cons]
  cases policy : group.policy with
  | oneOf =>
      obtain ⟨slot, token, word, value, held, taken, words, _⟩ := begins.ofOneOf policy
      refine ⟨[], @candidates_of_oneOf _ _ word _ policy ?_ ?_, by simp⟩
      · simp [words]
      · exact ⟨token, List.mem_of_getElem? held, taken.accepted⟩
  | anyUnordered => simp [Suffices, policy] at enough
  | anyOrdered =>
      obtain ⟨values, taken, _⟩ := begins.ofOrdered (.inl policy)
      refine ⟨_, candidates_of_anyOrdered policy taken begins.words_ne_nil ignoredBefore
        ignoredAfter, ?_⟩
      intro token offered
      split at offered
      · rename_i silent
        refine ⟨?_, rfl, Option.mem_toList.mp offered⟩
        cases after with
        | nil => rfl
        | cons other after =>
            have spoken := (series.begun other (by simp)).words_ne_nil
            simp [spoken] at silent
      · contradiction
  | allOrdered =>
      obtain ⟨values, taken, _⟩ := begins.ofOrdered (.inr policy)
      refine ⟨[], ?_, by simp⟩
      rw [candidates_of_allOrdered _ policy taken begins.words_ne_nil ignoredBefore]
      refine sequenceCandidates_of_whole _ taken begins.words_ne_nil ?_
      simpa [Suffices, policy] using enough

/-- The option of the last block offers the token that the next word of the use
goes to. -/
theorem Series.candidates_of_last (series : Series names options (before ++ [block]))
    (option : options[block.option]? = some group)
    (policy : group.policy = .anyOrdered ∨ group.policy = .allOrdered)
    (next : group.tokens[block.words.length]? = some token) :
    ∃ candidates, group.candidates names ((before ++ [block]).flatMap Block.words) =
      .ok candidates ∧ token ∈ candidates.tokens := by
  have member : block ∈ before ++ [block] := by simp
  have begins := (series.begun block member).begins option
  obtain ⟨values, taken, _⟩ := begins.ofOrdered policy
  obtain ⟨ignoredBefore, ignoredAfter⟩ := series.ignored_around option
  rw [List.flatMap_append, List.flatMap_cons]
  rcases policy with policy | policy
  · refine ⟨_, candidates_of_anyOrdered policy taken begins.words_ne_nil ignoredBefore
      ignoredAfter, ?_⟩
    simp [Candidates.tokens, next]
  · refine ⟨.only [token], ?_, by simp [Candidates.tokens]⟩
    rw [candidates_of_allOrdered _ policy taken begins.words_ne_nil ignoredBefore,
      List.flatMap_nil, List.append_nil]
    exact sequenceCandidates_of_next taken next

/-- Options whose blocks are whole let others be offered beside them.  They offer
what begins a use, or else what the last block may go on with. -/
theorem Series.candidates_alongside (series : Series names options blocks)
    (option : options[index]? = some group) (filled : group.tokens ≠ [])
    (ordered : group.policy ≠ .anyUnordered)
    (whole : ∀ block ∈ blocks, block.option = index → block.Whole options) :
    ∃ next, group.candidates names (blocks.flatMap Block.words) = .ok (.alongside next) ∧
      ∀ token ∈ next,
        (token ∈ group.openers ∧ ∀ block ∈ blocks, block.option ≠ index) ∨
        ∃ before block, blocks = before ++ [block] ∧ block.option = index ∧
          group.policy = .anyOrdered ∧ group.tokens[block.words.length]? = some token := by
  by_cases used : ∃ block ∈ blocks, block.option = index
  · obtain ⟨block, member, rfl⟩ := used
    obtain ⟨before, after, rfl⟩ := List.append_of_mem member
    obtain ⟨next, answered, only⟩ := series.candidates_of_whole option (whole block member rfl)
    refine ⟨next, answered, fun token offered => .inr ?_⟩
    obtain ⟨rfl, policy, place⟩ := only token offered
    exact ⟨before, block, rfl, rfl, policy, place⟩
  · have unused : ∀ block ∈ blocks, block.option ≠ index := fun block member same =>
      used ⟨block, member, same⟩
    exact ⟨_, series.candidates_of_unused option filled ordered unused,
      fun token offered => .inl ⟨offered, unused⟩⟩

theorem Series.concat (series : Series names options blocks) (begun : block.Begun names options)
    (apart : ∀ other ∈ blocks, other.option ≠ block.option)
    (distinct : Unmistakable names options ((blocks ++ [block]).flatMap Block.words)) :
    Series names options (blocks ++ [block]) where
  begun other member := by
    rcases List.mem_append.mp member with old | new
    · exact series.begun other old
    · exact List.mem_singleton.mp new ▸ begun
  different := by
    rw [List.map_append, List.map_singleton, List.nodup_append]
    refine ⟨series.different, List.nodup_singleton _, fun left old right new => ?_⟩
    obtain ⟨other, member, rfl⟩ := List.mem_map.mp old
    rw [List.mem_singleton.mp new]
    exact apart other member
  distinct := distinct

theorem Series.dropLast (series : Series names options (blocks ++ [block])) :
    Series names options blocks ∧ ∀ other ∈ blocks, other.option ≠ block.option := by
  have different := series.different
  rw [List.map_append, List.map_singleton, List.nodup_append] at different
  refine ⟨⟨fun other member => series.begun other (List.mem_append_left _ member), different.1,
    fun word member => series.distinct word ?_⟩, fun other member => ?_⟩
  · rw [List.flatMap_append]
    exact List.mem_append_left _ member
  · exact different.2.2 _ (List.mem_map_of_mem member) _ (List.mem_singleton_self _)

/-- Another block of the same option in the place of the last one. -/
theorem Series.replaceLast {other : Block} (series : Series names options (blocks ++ [block]))
    (same : other.option = block.option) (begun : other.Begun names options)
    (distinct : Unmistakable names options ((blocks ++ [other]).flatMap Block.words)) :
    Series names options (blocks ++ [other]) :=
  series.dropLast.1.concat begun (same ▸ series.dropLast.2) distinct

theorem Series.ok_or_required (series : Series names options blocks)
    (tokens : ∀ group ∈ options, group.tokens ≠ [])
    (ordered : ∀ group ∈ options, group.policy ≠ .anyUnordered) :
    (∃ bindings, ofWords names options (blocks.flatMap Block.words) = .ok bindings) ∨
      ofWords names options (blocks.flatMap Block.words) = .error .optionRequired := by
  obtain ⟨accepted, refused⟩ := series.ofWords_eq tokens ordered
  by_cases whole : ∀ block ∈ blocks, block.Whole options
  · exact .inl ⟨_, accepted whole⟩
  · refine .inr (refused ?_)
    simpa using whole

end Binding

namespace Completion

open Binding OptionGroup

variable {names : Names} {options groups : List OptionGroup} {words : List String} {word : String}
  {token : Token} {tokens result : List Token} {blocks : List Block}

/-- A candidate is offered unless an option that closes the list leaves it out. -/
theorem mem_offered (answered : offered names words groups tokens = .ok result)
    (closed : ∀ group ∈ groups, ∀ next, group.candidates names words = .ok (.only next) →
      token ∈ next)
    (present : token ∈ tokens ∨ ∃ group ∈ groups, ∃ next,
      group.candidates names words = .ok next ∧ token ∈ next.tokens) : token ∈ result := by
  induction groups generalizing tokens with
  | nil =>
      cases answered
      rcases present with present | ⟨_, impossible, _⟩
      · exact present
      · contradiction
  | cons group groups ih =>
      rw [offered] at answered
      split at answered
      · contradiction
      · rename_i next found
        refine ih answered (fun other member => closed other (List.mem_cons_of_mem _ member)) ?_
        rcases present with present | ⟨other, member, candidates, found', inside⟩
        · exact .inl (List.mem_append_left _ present)
        · rcases List.mem_cons.mp member with rfl | member
          · rw [found] at found'
            cases found'
            exact .inl (List.mem_append_right _ inside)
          · exact .inr ⟨other, member, candidates, found', inside⟩
      · rename_i found
        cases answered
        exact closed group List.mem_cons_self _ found

/-- Where no option closes the list, what is offered comes from one of them. -/
theorem candidate_of_mem_offered
    (beside : ∀ group ∈ groups, ∃ next, group.candidates names words = .ok (.alongside next))
    (answered : offered names words groups tokens = .ok result) (member : token ∈ result) :
    token ∈ tokens ∨ ∃ group ∈ groups, ∃ next,
      group.candidates names words = .ok (.alongside next) ∧ token ∈ next := by
  induction groups generalizing tokens with
  | nil =>
      cases answered
      exact .inl member
  | cons group groups ih =>
      obtain ⟨next, found⟩ := beside group List.mem_cons_self
      rw [offered, found] at answered
      rcases ih (fun other inside => beside other (List.mem_cons_of_mem _ inside)) answered with
        old | ⟨other, inside, candidates, found', offered⟩
      · rcases List.mem_append.mp old with old | new
        · exact .inl old
        · exact .inr ⟨group, List.mem_cons_self, next, found, new⟩
      · exact .inr ⟨other, List.mem_cons_of_mem _ inside, candidates, found', offered⟩

/-- The token of an option is offered if the blocks of the others are whole. -/
theorem mem_offered_of_series {index : Nat} {group : OptionGroup} {next : Candidates}
    (series : Series names options blocks) (filled : ∀ group ∈ options, group.tokens ≠ [])
    (ordered : ∀ group ∈ options, group.policy ≠ .anyUnordered)
    (option : options[index]? = some group)
    (whole : ∀ block ∈ blocks, block.option ≠ index → block.Whole options)
    (found : group.candidates names (blocks.flatMap Block.words) = .ok next)
    (inside : token ∈ next.tokens)
    (answered : offered names (blocks.flatMap Block.words) options [] = .ok result) :
    token ∈ result := by
  have member := List.mem_of_getElem? option
  refine mem_offered answered (fun other present only closing => ?_)
    (.inr ⟨group, member, next, found, inside⟩)
  obtain ⟨place, option'⟩ := List.mem_iff_getElem?.mp present
  by_cases same : place = index
  · subst same
    rw [option] at option'
    cases option'
    rw [found] at closing
    cases closing
    exact inside
  · obtain ⟨others, beside, _⟩ := series.candidates_alongside option' (filled other present)
      (ordered other present) fun block inside own => whole block inside (own ▸ same)
    rw [beside] at closing
    cases closing

theorem exists_last_of_splits (splits : Splits names options (words ++ [word]) blocks) :
    ∃ front last earlier, blocks = front ++ [last] ∧ last.words = earlier ++ [word] ∧
      words = front.flatMap Block.words ++ earlier := by
  have parts := splits.words_eq
  rcases List.eq_nil_or_concat' blocks with rfl | ⟨front, last, rfl⟩
  · simp at parts
  · have begun := splits.begun last (by simp)
    rcases List.eq_nil_or_concat' last.words with none | ⟨earlier, other, spelled⟩
    · exact absurd none begun.words_ne_nil
    · rw [List.flatMap_append, List.flatMap_singleton, spelled, ← List.append_assoc] at parts
      obtain ⟨same, ending⟩ := List.append_inj' parts rfl
      cases ending
      exact ⟨front, last, earlier, rfl, spelled, same⟩

/-- What is offered includes the token of the word that a line goes on with. -/
theorem exists_offered_of_splits (filled : ∀ group ∈ options, group.tokens ≠ [])
    (ordered : ∀ group ∈ options, group.policy ≠ .anyUnordered)
    (distinct : Unmistakable names options (words ++ [word]))
    (splits : Splits names options (words ++ [word]) blocks)
    (answered : offered names words options [] = .ok result) :
    ∃ token ∈ result, token.accepts names word = true := by
  have series := splits.series distinct
  obtain ⟨front, last, earlier, rfl, spelled, rfl⟩ := exists_last_of_splits splits
  obtain ⟨group, option, begins⟩ := series.begun last (by simp)
  have present := List.mem_of_getElem? option
  have whole : ∀ block ∈ front, block.option ≠ last.option → block.Whole options :=
    fun block member _ => splits.whole block (List.mem_append_left _ member)
  rw [spelled] at begins
  obtain ⟨seriesFront, apart⟩ := series.dropLast
  by_cases fresh : earlier = []
  · subst fresh
    rw [List.append_nil] at answered
    obtain ⟨token, opener, accepted⟩ := begins.exists_opener
    have found := seriesFront.candidates_of_unused option (filled group present)
      (ordered group present) apart
    exact ⟨token, mem_offered_of_series seriesFront filled ordered option whole found opener
      answered, accepted⟩
  · obtain ⟨policy, token, bound, shorter, next, accepted⟩ := begins.ofConcat fresh
    let short : Block := { last with words := earlier, bound }
    have seriesShort : Series names options (front ++ [short]) := by
      refine series.replaceLast rfl ⟨group, option, shorter⟩ fun part member => ?_
      refine distinct part (List.mem_append_left _ ?_)
      simpa [short] using member
    obtain ⟨candidates, found, inside⟩ := seriesShort.candidates_of_last option policy next
    refine ⟨token, mem_offered_of_series seriesShort filled ordered option ?_ found inside ?_,
      accepted⟩
    · intro block member different
      rcases List.mem_append.mp member with old | new
      · exact whole block old different
      · exact absurd (congrArg Block.option (List.mem_singleton.mp new)) different
    · simpa [short] using answered

/-- A word that an offered token takes begins or goes on with a use. -/
theorem exists_series_of_offered {value : Value}
    (filled : ∀ group ∈ options, group.tokens ≠ [])
    (ordered : ∀ group ∈ options, group.policy ≠ .anyUnordered)
    (distinct : Unmistakable names options (words ++ [word]))
    (splits : Splits names options words blocks)
    (answered : offered names words options [] = .ok result) (member : token ∈ result)
    (taken : token.Takes names word value) :
    ∃ longer, Series names options longer ∧ longer.flatMap Block.words = words ++ [word] := by
  have series := splits.series fun part inside => distinct part (List.mem_append_left _ inside)
  have spelled := splits.words_eq
  subst spelled
  have beside : ∀ index group, options[index]? = some group → _ := fun index group option =>
    series.candidates_alongside option (filled group (List.mem_of_getElem? option))
      (ordered group (List.mem_of_getElem? option)) fun block inside _ => splits.whole block inside
  have each : ∀ group ∈ options, ∃ next,
      group.candidates names (blocks.flatMap Block.words) = .ok (.alongside next) := by
    intro group present
    obtain ⟨index, option⟩ := List.mem_iff_getElem?.mp present
    obtain ⟨next, found, _⟩ := beside index group option
    exact ⟨next, found⟩
  rcases candidate_of_mem_offered each answered member with none | ⟨group, present, next, found, inside⟩
  · contradiction
  obtain ⟨index, option⟩ := List.mem_iff_getElem?.mp present
  obtain ⟨next', found', origin⟩ := beside index group option
  rw [found] at found'
  cases found'
  rcases origin token inside with ⟨opener, apart⟩ | ⟨before, block, rfl, rfl, policy, next⟩
  · obtain ⟨bound, begins⟩ := Begins.ofOpener (ordered group present) opener taken
    let added : Block := { option := index, words := [word], bound }
    refine ⟨blocks ++ [added], series.concat ⟨group, option, begins⟩ apart ?_, ?_⟩
    · simpa [added] using distinct
    · simp [added]
  · obtain ⟨bound, begins⟩ := ((series.begun block (by simp)).begins option).concat
      (.inl policy) next taken
    let longer : Block := { block with words := block.words ++ [word], bound }
    refine ⟨before ++ [longer], series.replaceLast rfl ⟨group, option, begins⟩ ?_, ?_⟩
    · simpa [longer] using distinct
    · simp [longer]

/-- Completion offers exactly what may follow.  A word that goes on with an
acceptable line is taken by a token that is offered.  A word that an offered
token takes makes an acceptable line again, or one that lacks required words. -/
theorem offered_iff_follows (filled : ∀ group ∈ options, group.tokens ≠ [])
    (ordered : ∀ group ∈ options, group.policy ≠ .anyUnordered)
    (distinct : Unmistakable names options (words ++ [word])) :
    ∃ next, offered names words options [] = .ok next ∧
      ((∃ bindings, ofWords names options (words ++ [word]) = .ok bindings) →
        ∃ token ∈ next, token.accepts names word = true) ∧
      ((∃ bindings, ofWords names options words = .ok bindings) → ∀ token ∈ next,
        token.accepts names word = true → token.isAmbiguous word = false →
          (∃ bindings, ofWords names options (words ++ [word]) = .ok bindings) ∨
            ofWords names options (words ++ [word]) = .error .optionRequired) := by
  obtain ⟨next, answered⟩ := offered_exists names words [] filled
  refine ⟨next, answered, ?_, ?_⟩
  · rintro ⟨bindings, bound⟩
    obtain ⟨blocks, splits, _⟩ := exists_blocks_of_ofWords ordered bound
    exact exists_offered_of_splits filled ordered distinct splits answered
  · rintro ⟨bindings, bound⟩ token member accepted clear
    obtain ⟨blocks, splits, _⟩ := exists_blocks_of_ofWords ordered bound
    obtain ⟨value, taken⟩ := Token.exists_takes accepted clear
    obtain ⟨longer, series, spelled⟩ :=
      exists_series_of_offered filled ordered distinct splits answered member taken
    exact spelled ▸ series.ok_or_required filled ordered

theorem portCandidates_follow :
    (∀ group ∈ portOptions, group.tokens ≠ []) ∧
      (∀ group ∈ portOptions, group.policy ≠ .anyUnordered) ∧
      Unmistakable portNames portOptions (["dis", "st"] ++ ["eth0"]) ∧
      ∃ next, offered portNames ["dis", "st"] portOptions [] = .ok next ∧
        (∃ token ∈ next, token.accepts portNames "eth0" = true) ∧
        ∀ token ∈ next, token.accepts portNames "eth0" = true →
          token.isAmbiguous "eth0" = false →
            (∃ bindings, ofWords portNames portOptions ["dis", "st", "eth0"] = .ok bindings) ∨
              ofWords portNames portOptions ["dis", "st", "eth0"] = .error .optionRequired := by
  have filled : ∀ group ∈ portOptions, group.tokens ≠ [] := by decide
  have ordered : ∀ group ∈ portOptions, group.policy ≠ .anyUnordered := by decide
  have distinct : Unmistakable portNames portOptions (["dis", "st"] ++ ["eth0"]) := by decide
  obtain ⟨next, answered, complete, sound⟩ := offered_iff_follows filled ordered distinct
  exact ⟨filled, ordered, distinct, next, answered, complete ⟨_, rfl⟩, sound ⟨_, rfl⟩⟩

end Completion

end SwitchShell

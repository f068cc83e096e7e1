import SwitchShell.Proofs.Grammar.Binding
import SwitchShell.Proofs.Text.Lines

namespace SwitchShell

/-! What an option makes of the words of a window.

The words of a use of an option go to its tokens one by one.  An option that
finds the first words of such a use at the beginning of a window claims them,
and fails if the use breaks off there.
-/

theorem abbreviates_iff {word literal : String} :
    abbreviates word literal = true ↔ word ≠ "" ∧ word.toList <+: literal.toList := by
  simp [abbreviates, Text.startsWith_iff]

theorem abbreviates_self {word : String} (nonempty : word ≠ "") :
    abbreviates word word = true :=
  abbreviates_iff.mpr ⟨nonempty, List.prefix_rfl⟩

theorem head?_of_abbreviates {word literal : String} (begins : abbreviates word literal = true) :
    word.toList.head? = literal.toList.head? := by
  obtain ⟨nonempty, rest, same⟩ := abbreviates_iff.mp begins
  obtain ⟨first, others, split⟩ :=
    List.exists_cons_of_ne_nil (mt String.toList_eq_nil_iff.mp nonempty)
  rw [← same, split]
  rfl

theorem not_abbreviates {word literal other : String} (begins : abbreviates word literal = true)
    (apart : literal.toList.head? ≠ other.toList.head?) : abbreviates word other = false := by
  rw [← Bool.not_eq_true]
  exact fun begun => apart ((head?_of_abbreviates begins).symm.trans (head?_of_abbreviates begun))

namespace Token

variable {names : Names} {token : Token} {word : String} {literals : List Literal}
  {literal : Literal}

/-- The token accepts the word, which abbreviates one value only, and binds it. -/
structure Takes (names : Names) (token : Token) (word : String) (value : Value) : Prop where
  accepted : token.accepts names word = true
  clear : token.isAmbiguous word = false
  bound : token.bind names word = .ok value

/-- One of the literals of the choice is the empty word. -/
def HasEmptyChoice (token : Token) : Prop :=
  ∃ literals, token.kind = .choice literals ∧ ∃ literal ∈ literals, literal.word = ""

theorem chosen?_isSome_iff :
    (chosen? literals word).isSome = true ↔
      (literals.any fun literal => abbreviates word literal.word) = true ∨
        (word = "" ∧ ∃ literal ∈ literals, literal.word = "") := by
  rw [chosen?, Option.isSome_or, Bool.or_eq_true, List.find?_isSome, List.find?_isSome,
    List.any_eq_true]
  constructor
  · rintro (⟨literal, member, spelled⟩ | abbreviated)
    · have same : literal.word = word := by simpa using spelled
      by_cases empty : word = ""
      · exact .inr ⟨empty, literal, member, same.trans empty⟩
      · exact .inl ⟨literal, member, same.symm ▸ abbreviates_self empty⟩
    · exact .inl abbreviated
  · rintro (abbreviated | ⟨rfl, literal, member, empty⟩)
    · exact .inr abbreviated
    · exact .inl ⟨literal, member, by simpa using empty⟩

theorem prefix_of_chosen? (chosen : chosen? literals word = some literal) :
    literal ∈ literals ∧ word.toList <+: literal.word.toList := by
  rcases Option.or_eq_some_iff.mp chosen with spelled | ⟨_, abbreviated⟩
  · have same : literal.word = word := by simpa using List.find?_some spelled
    exact ⟨List.mem_of_find?_eq_some spelled, same ▸ List.prefix_rfl⟩
  · have begun := List.find?_some abbreviated
    exact ⟨List.mem_of_find?_eq_some abbreviated, (abbreviates_iff.mp begun).2⟩

/-- What a token binds is what it accepts, but for the empty word. -/
theorem exists_bind_iff :
    (∃ value, token.bind names word = .ok value) ↔
      token.accepts names word = true ∨ (word = "" ∧ token.HasEmptyChoice) := by
  obtain ⟨kind, help, required⟩ := token
  cases kind with
  | keyword literal =>
      by_cases abbreviated : abbreviates word literal.word = true <;>
        simp [bind, accepts, HasEmptyChoice, abbreviated]
  | choice literals =>
      simp only [accepts, HasEmptyChoice, TokenKind.choice.injEq, exists_eq_left',
        ← chosen?_isSome_iff, bind]
      cases chosen? literals word <;> simp
  | integer low high =>
      simp only [bind, accepts, HasEmptyChoice]
      cases integerWithin? low high word <;> simp
  | name family =>
      by_cases listed : word ∈ names.get family <;>
        simp [bind, accepts, HasEmptyChoice, listed]

theorem exists_bind_of_accepts (accepted : token.accepts names word = true) :
    ∃ value, token.bind names word = .ok value :=
  exists_bind_iff.mpr (.inl accepted)

theorem exists_takes (accepted : token.accepts names word = true)
    (clear : token.isAmbiguous word = false) : ∃ value, token.Takes names word value := by
  obtain ⟨value, bound⟩ := exists_bind_of_accepts accepted
  exact ⟨value, accepted, clear, bound⟩

end Token

namespace OptionGroup

variable {names : Names} {group : OptionGroup} {token : Token} {tokens : List Token}
  {word : String} {words window later before after : List String} {value : Value}
  {values : List Value} {bound : List (Nat × Value)} {nail : Nail} {nails : List Nail}
  {claim : Claim} {slot offset count : Nat}

/-- The words go to the leading tokens one by one and are bound to the values. -/
inductive TakesInTurn (names : Names) : List Token → List String → List Value → Prop where
  | done (tokens : List Token) : TakesInTurn names tokens [] []
  | take {token : Token} {tokens : List Token} {word : String} {words : List String}
      {value : Value} {values : List Value} (first : token.Takes names word value)
      (others : TakesInTurn names tokens words values) :
      TakesInTurn names (token :: tokens) (word :: words) (value :: values)

/-- Values with the slots of the tokens they come from, from the first one on. -/
def numbered (values : List Value) : List (Nat × Value) :=
  values.zipIdx.map Prod.swap

/-- The words are a use of the option or the first words of one, and are bound
by these slots to these values. -/
inductive Begins (names : Names) (group : OptionGroup) :
    List String → List (Nat × Value) → Prop where
  | one {slot : Nat} {token : Token} {word : String} {value : Value}
      (policy : group.policy = .oneOf) (held : group.tokens[slot]? = some token)
      (taken : token.Takes names word value) : Begins names group [word] [(slot, value)]
  | inTurn {words : List String} {values : List Value}
      (policy : group.policy = .anyOrdered ∨ group.policy = .allOrdered) (some : words ≠ [])
      (taken : TakesInTurn names group.tokens words values) :
      Begins names group words (numbered values)

/-- A use of the option may end after so many words. -/
def Suffices (group : OptionGroup) (count : Nat) : Prop :=
  match group.policy with
  | .oneOf => count = 1
  | .anyUnordered => False
  | .anyOrdered => ∀ token ∈ group.tokens.drop count, token.required = false
  | .allOrdered => count = group.tokens.length

/-- None of the tokens accepts the word. -/
def Ignores (names : Names) (group : OptionGroup) (word : String) : Prop :=
  ∀ token ∈ group.tokens, token.accepts names word = false

instance (names : Names) (group : OptionGroup) (word : String) :
    Decidable (group.Ignores names word) :=
  inferInstanceAs (Decidable (∀ token ∈ group.tokens, token.accepts names word = false))

/-- The nails of words that stand at the beginning of a window. -/
def nailsOf (bound : List (Nat × Value)) : List Nail :=
  bound.zipIdx.map fun ((slot, value), position) => { slot, position, value }

theorem Begins.ofOneOf (begins : group.Begins names words bound) (policy : group.policy = .oneOf) :
    ∃ slot token word value, group.tokens[slot]? = some token ∧ token.Takes names word value ∧
      words = [word] ∧ bound = [(slot, value)] := by
  cases begins with
  | one _ held taken => exact ⟨_, _, _, _, held, taken, rfl, rfl⟩
  | inTurn other => simp [policy] at other

theorem Begins.ofOrdered (begins : group.Begins names words bound)
    (policy : group.policy = .anyOrdered ∨ group.policy = .allOrdered) :
    ∃ values, TakesInTurn names group.tokens words values ∧ bound = numbered values := by
  cases begins with
  | one other => simp [other] at policy
  | inTurn _ some taken => exact ⟨_, taken, rfl⟩

theorem Begins.words_ne_nil (begins : group.Begins names words bound) : words ≠ [] := by
  cases begins with
  | one policy held taken => exact List.cons_ne_nil _ _
  | inTurn policy some taken => exact some

theorem TakesInTurn.length_values (taken : TakesInTurn names tokens words values) :
    values.length = words.length := by
  induction taken with
  | done tokens => rfl
  | take first others ih => exact congrArg (· + 1) ih

theorem TakesInTurn.accepted (taken : TakesInTurn names tokens words values)
    (inside : words[slot]? = some word) :
    ∃ token, tokens[slot]? = some token ∧ token.accepts names word = true := by
  induction taken generalizing slot with
  | done tokens => simp at inside
  | take first others ih =>
      cases slot with
      | zero =>
          cases inside
          exact ⟨_, rfl, first.accepted⟩
      | succ slot => exact ih inside

theorem TakesInTurn.head (taken : TakesInTurn names tokens (word :: words) values) :
    ∃ first others, tokens = first :: others ∧ first.accepts names word = true := by
  cases taken with
  | take first others => exact ⟨_, _, rfl, first.accepted⟩

theorem Begins.accepted (begins : group.Begins names words bound) (member : word ∈ words) :
    ∃ (slot : Nat) (token : Token), group.tokens[slot]? = some token ∧
      token.accepts names word = true := by
  cases begins with
  | one policy held taken =>
      cases List.mem_singleton.mp member
      exact ⟨_, _, held, taken.accepted⟩
  | inTurn policy some taken =>
      obtain ⟨place, inside⟩ := List.mem_iff_getElem?.mp member
      exact ⟨place, taken.accepted inside⟩

theorem Begins.length_bound (begins : group.Begins names words bound) :
    bound.length = words.length := by
  cases begins with
  | one policy held taken => rfl
  | inTurn policy some taken => simp [numbered, taken.length_values]

theorem nail_eq_ok_iff :
    group.nail names window claim = .ok nail ↔
      ∃ token word, group.tokens[claim.slot]? = some token ∧
        window[claim.position]? = some word ∧ token.isAmbiguous word = false ∧
        token.bind names word = .ok nail.value ∧ nail.slot = claim.slot ∧
        nail.position = claim.position := by
  obtain ⟨slot, position, value⟩ := nail
  unfold OptionGroup.nail
  constructor
  · intro nailed
    split at nailed
    · rename_i token word held inside
      split at nailed
      · contradiction
      · rename_i clear
        split at nailed
        · rename_i found bound
          cases nailed
          exact ⟨token, word, held, inside, Bool.eq_false_iff.mpr clear, bound, rfl, rfl⟩
        · contradiction
    · contradiction
  · rintro ⟨token, word, held, inside, clear, bound, rfl, rfl⟩
    simp [held, inside, clear, bound]

theorem nail_of_takes (held : group.tokens[slot]? = some token)
    (inside : window[offset]? = some word) (taken : token.Takes names word value) :
    group.nail names window { slot, position := offset } =
      .ok { slot, position := offset, value } :=
  nail_eq_ok_iff.mpr ⟨token, word, held, inside, taken.clear, taken.bound, rfl, rfl⟩

/-- The claim of a word by the token of the same place. -/
def level (place : Nat) : Claim :=
  { slot := place, position := place }

theorem mapM_nail_of_takesInTurn (taken : TakesInTurn names tokens words values)
    (slots : group.tokens.drop offset = tokens) (places : window.drop offset = words ++ later) :
    ((List.range' offset words.length).map level).mapM (group.nail names window) =
      .ok ((values.zipIdx offset).map fun (value, place) =>
        { slot := place, position := place, value }) := by
  induction taken generalizing offset with
  | done tokens => rfl
  | @take token tokens word words value values first others ih =>
      have held : group.tokens[offset]? = some token := by
        rw [← Nat.add_zero offset, ← List.getElem?_drop, slots]
        rfl
      have inside : window[offset]? = some word := by
        rw [← Nat.add_zero offset, ← List.getElem?_drop, places]
        rfl
      have rest := @ih (offset + 1)
        (by rw [← List.drop_drop, slots, List.drop_one, List.tail_cons])
        (by rw [← List.drop_drop, places, List.cons_append, List.drop_one, List.tail_cons])
      rw [List.length_cons, List.range'_succ, List.map_cons, List.mapM_cons, rest, level,
        nail_of_takes held inside first]
      rfl

theorem takesInTurn_of_mapM_nail (slots : group.tokens.drop offset = tokens)
    (places : window.drop offset = words)
    (nailed : ((List.range' offset (runLength names tokens words)).map level).mapM
      (group.nail names window) = .ok nails) :
    ∃ values, TakesInTurn names tokens (words.take (runLength names tokens words)) values ∧
      nails = (values.zipIdx offset).map fun (value, place) =>
        { slot := place, position := place, value } := by
  fun_induction runLength names tokens words generalizing offset nails with
  | case1 token tokens word words accepted ih =>
      rw [List.range'_succ, List.map_cons, mapM_eq_ok_iff, List.forall₂_cons_left_iff] at nailed
      obtain ⟨nail, more, first, others, rfl⟩ := nailed
      obtain ⟨values, taken, rfl⟩ := ih
        (by rw [← List.drop_drop, slots, List.drop_one, List.tail_cons])
        (by rw [← List.drop_drop, places, List.drop_one, List.tail_cons])
        (mapM_eq_ok_iff.mpr others)
      obtain ⟨other, again, held, inside, clear, bound, slot, position⟩ :=
        nail_eq_ok_iff.mp first
      have sameToken : some token = some other := by
        rw [← held, level, ← Nat.add_zero offset, ← List.getElem?_drop, slots]
        rfl
      have sameWord : some word = some again := by
        rw [← inside, level, ← Nat.add_zero offset, ← List.getElem?_drop, places]
        rfl
      cases sameToken
      cases sameWord
      refine ⟨nail.value :: values, .take ⟨accepted, clear, bound⟩ taken, ?_⟩
      obtain ⟨_, _, value⟩ := nail
      cases slot
      cases position
      rfl
  | case2 token tokens word words refused =>
      cases nailed
      exact ⟨[], .done _, rfl⟩
  | case3 tokens words short =>
      cases nailed
      exact ⟨[], .done _, rfl⟩

theorem diagonal_eq : diagonal count = (List.range' 0 count).map level := by
  rw [diagonal, List.range_eq_range']
  rfl

theorem nailsOf_numbered :
    nailsOf (numbered values) = (values.zipIdx 0).map fun (value, place) =>
      { slot := place, position := place, value } := by
  unfold nailsOf numbered
  rw [List.zipIdx_map, List.map_map]
  refine List.ext_getElem (by simp) fun place _ _ => ?_
  simp

theorem runLength_eq (taken : TakesInTurn names tokens words values)
    (ignored : ∀ word ∈ later, ∀ token ∈ tokens, token.accepts names word = false) :
    runLength names tokens (words ++ later) = words.length := by
  induction taken with
  | done tokens =>
      cases tokens with
      | nil => rfl
      | cons token tokens =>
          cases later with
          | nil => rfl
          | cons word later =>
              have refused := ignored word List.mem_cons_self token List.mem_cons_self
              rw [List.nil_append, runLength, refused]
              rfl
  | take first others ih =>
      have rest := ih fun word member token inside =>
        ignored word member token (List.mem_cons_of_mem _ inside)
      rw [List.cons_append, runLength, if_pos first.accepted, rest, List.length_cons]

theorem runLength_of_length (taken : TakesInTurn names tokens words values)
    (whole : words.length = tokens.length) :
    runLength names tokens (words ++ later) = words.length := by
  induction taken with
  | done tokens =>
      cases tokens with
      | nil => rfl
      | cons token tokens => contradiction
  | take first others ih =>
      rw [List.cons_append, runLength, if_pos first.accepted, ih (Nat.succ_inj.mp whole),
        List.length_cons]

theorem runLength_le_length : runLength names tokens words ≤ words.length := by
  fun_induction runLength names tokens words with
  | case1 token tokens word words accepted ih => exact Nat.succ_le_succ ih
  | case2 => exact Nat.zero_le _
  | case3 => exact Nat.zero_le _

theorem missesRequired_diagonal :
    group.missesRequired (diagonal count) = (group.tokens.drop count).any Token.required := by
  have claimed : ∀ slot, ((diagonal count).any fun claim => claim.slot == slot) = true ↔
      slot < count := by
    intro slot
    simp [diagonal]
  rw [Bool.eq_iff_iff, missesRequired, List.any_eq_true, List.any_eq_true]
  constructor
  · rintro ⟨⟨token, slot⟩, member, missing⟩
    have held := List.mem_zipIdx_iff_getElem?.mp member
    rw [Bool.and_eq_true, Bool.not_eq_true', ← Bool.not_eq_true, claimed, Nat.not_lt] at missing
    refine ⟨token, List.mem_of_getElem? (i := slot - count) ?_, missing.1⟩
    rw [List.getElem?_drop, Nat.add_sub_cancel' missing.2]
    exact held
  · rintro ⟨token, member, required⟩
    obtain ⟨place, held⟩ := List.mem_iff_getElem?.mp member
    rw [List.getElem?_drop] at held
    refine ⟨(token, count + place), List.mem_zipIdx_iff_getElem?.mpr held, ?_⟩
    rw [Bool.and_eq_true, Bool.not_eq_true', ← Bool.not_eq_true, claimed]
    exact ⟨required, by simp⟩

theorem slotOf?_eq_none (ignored : group.Ignores names word) : group.slotOf? names word = none :=
  List.findIdx?_eq_none_iff.mpr ignored

/-- A word that no two tokens accept goes to one slot. -/
theorem slot_unique {other : Nat} {rival : Token}
    (distinct : group.tokens.Pairwise fun left right =>
      ¬(left.accepts names word = true ∧ right.accepts names word = true))
    (held : group.tokens[slot]? = some token) (accepted : token.accepts names word = true)
    (held' : group.tokens[other]? = some rival) (accepted' : rival.accepts names word = true) :
    slot = other := by
  obtain ⟨inside, rfl⟩ := List.getElem?_eq_some_iff.mp held
  obtain ⟨inside', rfl⟩ := List.getElem?_eq_some_iff.mp held'
  have pairs := List.pairwise_iff_getElem.mp distinct
  rcases Nat.lt_trichotomy slot other with less | same | more
  · exact absurd ⟨accepted, accepted'⟩ (pairs slot other inside inside' less)
  · exact same
  · exact absurd ⟨accepted', accepted⟩ (pairs other slot inside' inside more)

/-- A word that only one token accepts goes to that token. -/
theorem slotOf?_eq_some (held : group.tokens[slot]? = some token)
    (accepted : token.accepts names word = true)
    (only : ∀ (other : Nat) (rival : Token), group.tokens[other]? = some rival →
      rival.accepts names word = true → other = slot) :
    group.slotOf? names word = some slot := by
  obtain ⟨inside, same⟩ := List.getElem?_eq_some_iff.mp held
  refine List.findIdx?_eq_some_iff_getElem.mpr ⟨inside, same ▸ accepted, fun other earlier => ?_⟩
  intro rival
  have equal := only other _ (List.getElem?_eq_getElem (Nat.lt_trans earlier inside)) rival
  exact Nat.lt_irrefl slot (equal ▸ earlier)

theorem filterMap_slotOf?_eq_nil (ignored : ∀ word ∈ words, group.Ignores names word) :
    ((words.zipIdx offset).filterMap fun (word, position) =>
      (group.slotOf? names word).map fun slot => ({ slot, position } : Claim)) = [] := by
  rw [List.filterMap_eq_nil_iff]
  rintro ⟨word, position⟩ member
  have none := slotOf?_eq_none (ignored word (List.fst_mem_of_mem_zipIdx member))
  simp only [none, Option.map_none]

theorem claim_oneOf (policy : group.policy = .oneOf) (held : group.tokens[slot]? = some token)
    (taken : token.Takes names word value) (found : group.slotOf? names word = some slot)
    (ignoredBefore : ∀ word ∈ before, group.Ignores names word)
    (ignoredAfter : ∀ word ∈ after, group.Ignores names word) :
    group.claim names (before ++ word :: after) =
      .ok [{ slot, position := before.length, value }] := by
  have claims : group.claims names (before ++ word :: after) =
      .ok [{ slot, position := before.length }] := by
    simp only [OptionGroup.claims, policy, claimOne, List.zipIdx_append, List.zipIdx_cons,
      List.filterMap_append, filterMap_slotOf?_eq_nil ignoredBefore, List.filterMap_cons, found,
      filterMap_slotOf?_eq_nil ignoredAfter]
    simp
  have inside : (before ++ word :: after)[before.length]? = some word := by simp
  simp only [claim, claims, policy, checksTokens, Bool.and_false, Bool.false_and,
    List.mapM_cons, nail_of_takes held inside taken]
  rfl

theorem claim_oneOf_of_ignores (policy : group.policy = .oneOf)
    (ignored : ∀ word ∈ window, group.Ignores names word) : group.claim names window = .ok [] := by
  have claims : group.claims names window = .ok [] := by
    simp only [OptionGroup.claims, policy, claimOne, filterMap_slotOf?_eq_nil ignored,
      List.length_nil, Nat.not_lt_zero, ↓reduceIte]
  simp only [claim, claims]
  rfl

theorem claim_of_refuses_head (policy : group.policy = .anyOrdered ∨ group.policy = .allOrdered)
    (head : group.tokens.head? = some token) (refused : token.accepts names word = false) :
    group.claim names (word :: later) = .ok [] := by
  obtain ⟨others, split⟩ := List.head?_eq_some_iff.mp head
  have claims : group.claims names (word :: later) = .ok [] := by
    rcases policy with policy | policy
    · simp [OptionGroup.claims, policy, split, runLength, refused, diagonal]
    · simp [OptionGroup.claims, policy, split, claimAll, refused]
  simp only [claim, claims]
  rfl

/-- An option claims the words of a use whose tokens come in order, if they are all
that it takes of the window. -/
theorem claim_of_runLength (policy : group.policy = .anyOrdered ∨ group.policy = .allOrdered)
    (some : words ≠ []) (taken : TakesInTurn names group.tokens words values)
    (run : runLength names group.tokens (words ++ later) = words.length) :
    (group.Suffices words.length →
      group.claim names (words ++ later) = .ok (nailsOf (numbered values))) ∧
    (¬ group.Suffices words.length →
      group.claim names (words ++ later) = .error .optionRequired) := by
  have nailed : (diagonal words.length).mapM (group.nail names (words ++ later)) =
      .ok (nailsOf (numbered values)) := by
    rw [diagonal_eq, nailsOf_numbered]
    exact mapM_nail_of_takesInTurn taken List.drop_zero List.drop_zero
  have busy : (diagonal words.length).isEmpty = false := by
    rw [List.isEmpty_eq_false_iff, diagonal]
    simpa using some
  rcases policy with policy | policy
  · have claims : group.claims names (words ++ later) = .ok (diagonal words.length) := by
      simp only [OptionGroup.claims, policy, run]
    simp only [Suffices, claim, claims, policy, busy, checksTokens, missesRequired_diagonal,
      Bool.not_false, Bool.true_and, nailed]
    refine ⟨fun enough => if_neg ?_, fun short => if_pos ?_⟩
    · simpa using enough
    · simpa using short
  · have claims : group.claims names (words ++ later) =
        if words.length = group.tokens.length then .ok (diagonal group.tokens.length)
        else .error .optionRequired := by
      obtain ⟨word, others, rfl⟩ := List.exists_cons_of_ne_nil some
      obtain ⟨first, tokens, split, accepted⟩ := taken.head
      rw [List.cons_append] at run ⊢
      simp only [OptionGroup.claims, policy, claimAll, split, if_pos accepted]
      rw [← split, run]
    simp only [Suffices, claim, claims, policy]
    refine ⟨fun enough => ?_, fun short => ?_⟩
    · rw [if_pos enough]
      simp only [checksTokens, Bool.and_false, Bool.false_and, ← enough, nailed]
      rfl
    · rw [if_neg short]

theorem claim_eq_ok_iff :
    group.claim names window = .ok nails ↔
      ∃ claims, group.claims names window = .ok claims ∧
        (!claims.isEmpty && checksTokens group.policy && group.missesRequired claims) = false ∧
        claims.mapM (group.nail names window) = .ok nails := by
  unfold OptionGroup.claim
  constructor
  · intro claimed
    split at claimed
    · contradiction
    · rename_i claims found
      split at claimed
      · contradiction
      · rename_i complete
        exact ⟨claims, found, Bool.eq_false_iff.mpr complete, claimed⟩
  · rintro ⟨claims, found, complete, nailed⟩
    simp only [found, complete, Bool.false_eq_true, ↓reduceIte, nailed]

theorem map_of_mapM_nail {claims : List Claim}
    (nailed : claims.mapM (group.nail names window) = .ok nails) :
    claims.map Claim.slot = nails.map Nail.slot ∧
      claims.map Claim.position = nails.map Nail.position := by
  have each := mapM_eq_ok_iff.mp nailed
  simp only [← List.forall₂_eq_eq_eq, List.forall₂_map_left_iff, List.forall₂_map_right_iff]
  constructor <;> refine each.imp fun claim nail found => ?_
  all_goals
    obtain ⟨_, _, _, _, _, _, slot, position⟩ := nail_eq_ok_iff.mp found
  · exact slot.symm
  · exact position.symm

/-- Words that are claimed one by one, from the first one on. -/
theorem takesInTurn_of_diagonal
    (nailed : (diagonal (runLength names group.tokens window)).mapM (group.nail names window) =
      .ok nails) :
    ∃ words values, window = words ++ window.drop words.length ∧
      words.length = runLength names group.tokens window ∧
      TakesInTurn names group.tokens words values ∧ nails = nailsOf (numbered values) := by
  rw [diagonal_eq] at nailed
  obtain ⟨values, taken, rfl⟩ := takesInTurn_of_mapM_nail List.drop_zero List.drop_zero nailed
  have length := List.length_take_of_le (@runLength_le_length names group.tokens window)
  refine ⟨_, values, ?_, length, taken, nailsOf_numbered.symm⟩
  rw [length, List.take_append_drop]

/-- A word that goes to one of several tokens, and is the first of the window, is
claimed alone. -/
theorem singleton_of_claimOne {claims : List Claim}
    (found : group.claimOne names window = .ok claims) (member : claim ∈ claims)
    (first : claim.position = 0) :
    ∃ word later, window = word :: later ∧ group.slotOf? names word = some claim.slot ∧
      claims = [claim] := by
  simp only [claimOne] at found
  split at found
  · contradiction
  · rename_i few
    cases found
    obtain ⟨⟨word, position⟩, present, same⟩ := List.mem_filterMap.mp member
    obtain ⟨slot, taken, rfl⟩ := Option.map_eq_some_iff.mp same
    cases first
    have head := List.mem_zipIdx_iff_getElem?.mp present
    obtain ⟨rest, split⟩ : ∃ rest, window = word :: rest := by
      cases window with
      | nil => simp at head
      | cons other rest =>
          cases head
          exact ⟨rest, rfl⟩
    refine ⟨word, rest, split, taken, ?_⟩
    generalize (window.zipIdx.filterMap fun (word, position) =>
      (group.slotOf? names word).map fun slot => ({ slot, position } : Claim)) = claims at *
    match claims, member, few with
    | [only], member, _ => rw [List.mem_singleton.mp member]
    | _ :: _ :: _, _, few => simp at few

theorem begins_of_singleton (policy : group.policy = .oneOf)
    (slotOf : group.slotOf? names word = some claim.slot) (first : claim.position = 0)
    (nailed : [claim].mapM (group.nail names (word :: later)) = .ok nails) :
    ∃ bound, group.Begins names [word] bound ∧ nails = nailsOf bound := by
  rw [mapM_eq_ok_iff, List.forall₂_cons_left_iff] at nailed
  obtain ⟨nail, _, found, rest, rfl⟩ := nailed
  cases rest
  obtain ⟨token, again, held, inside, clear, bound, slot, position⟩ := nail_eq_ok_iff.mp found
  rw [first] at inside position
  cases inside
  have accepted : token.accepts names word = true := by
    obtain ⟨within, accepted, _⟩ := List.findIdx?_eq_some_iff_getElem.mp slotOf
    rw [List.getElem?_eq_getElem within] at held
    cases held
    exact accepted
  refine ⟨[(claim.slot, nail.value)], .one policy held ⟨accepted, clear, bound⟩, ?_⟩
  obtain ⟨_, _, value⟩ := nail
  cases slot
  cases position
  rfl

theorem claims_of_claimAll {claims : List Claim} (found : group.claimAll names window = .ok claims)
    (some : claims ≠ []) :
    runLength names group.tokens window = group.tokens.length ∧
      claims = diagonal group.tokens.length := by
  unfold claimAll at found
  split at found
  · cases found
    contradiction
  · split at found
    · contradiction
    · split at found
      · split at found
        · rename_i whole
          cases found
          exact ⟨whole, rfl⟩
        · contradiction
      · cases found
        contradiction

/-- An option that claims the first word of a window claims a use. -/
theorem begins_of_claim (ordered : group.policy ≠ .anyUnordered)
    (claimed : group.claim names window = .ok nails)
    (first : (nails.any fun nail => nail.position == 0) = true) :
    ∃ words later bound, window = words ++ later ∧ group.Begins names words bound ∧
      group.Suffices words.length ∧ nails = nailsOf bound := by
  obtain ⟨claims, found, complete, nailed⟩ := claim_eq_ok_iff.mp claimed
  obtain ⟨claim, member, zero⟩ : ∃ claim ∈ claims, claim.position = 0 := by
    obtain ⟨nail, inside, zero⟩ := List.any_eq_true.mp first
    have listed : (0 : Nat) ∈ nails.map Nail.position :=
      List.mem_map.mpr ⟨nail, inside, beq_iff_eq.mp zero⟩
    rw [← (map_of_mapM_nail nailed).2] at listed
    exact List.mem_map.mp listed
  have busy : claims ≠ [] := List.ne_nil_of_mem member
  have some : ∀ {words : List String}, claims = diagonal words.length → words ≠ [] := by
    rintro words rfl rfl
    contradiction
  unfold OptionGroup.claims at found
  split at found
  · rename_i policy
    obtain ⟨word, later, rfl, slotOf, rfl⟩ := singleton_of_claimOne found member zero
    obtain ⟨bound, begins, rfl⟩ := begins_of_singleton policy slotOf zero nailed
    refine ⟨[word], later, bound, rfl, begins, ?_, rfl⟩
    simp only [Suffices, policy, List.length_singleton]
  · contradiction
  · rename_i policy
    cases found
    obtain ⟨words, values, split, length, taken, rfl⟩ := takesInTurn_of_diagonal nailed
    refine ⟨words, _, _, split, .inTurn (.inl policy) (some (by rw [length])) taken, ?_, rfl⟩
    rw [policy, missesRequired_diagonal, List.isEmpty_eq_false_iff.mpr busy, ← length] at complete
    simpa [Suffices, policy, checksTokens] using complete
  · rename_i policy
    obtain ⟨whole, rfl⟩ := claims_of_claimAll found busy
    rw [← whole] at nailed some
    obtain ⟨words, values, split, length, taken, rfl⟩ := takesInTurn_of_diagonal nailed
    refine ⟨words, _, _, split, .inTurn (.inr policy) (some (by rw [length])) taken, ?_, rfl⟩
    simp only [Suffices, policy, length, whole]

end OptionGroup

end SwitchShell

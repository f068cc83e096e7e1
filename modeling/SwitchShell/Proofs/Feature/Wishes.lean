import Mathlib.Data.Set.List
import SwitchShell.Feature.Builtin
import SwitchShell.Proofs.Grammar.Numeral
import SwitchShell.Proofs.Grammar.Phrases

namespace SwitchShell.Feature.Lldp

/-- What one group of words asks for. -/
inductive Wish where
  | enable
  | holdTime (number : Nat)
  | interval (number : Nat)
  | advertise (advertisement : Advertisement)
  | clear (what : String)
deriving DecidableEq, Repr

/-- The words are one way to type the wish. -/
inductive Wish.Typed : Wish → List String → Prop where
  | enable {word : String} (keyword : abbreviates word "enable" = true) : Typed .enable [word]
  | holdTime {word digits : String} {number : Nat} (keyword : abbreviates word "holdtime" = true)
      (spelled : Text.natural? digits = some number) (atLeast : 2 ≤ number) (atMost : number ≤ 10) :
      Typed (.holdTime number) [word, digits]
  | interval {word digits : String} {number : Nat} (keyword : abbreviates word "timer" = true)
      (spelled : Text.natural? digits = some number) (atLeast : 5 ≤ number)
      (atMost : number ≤ 32768) : Typed (.interval number) [word, digits]
  | advertise {word name : String} {advertisement : Advertisement}
      (keyword : abbreviates word "select-tlv" = true) (listed : advertisement ∈ advertisements)
      (begins : abbreviates name advertisement.word = true)
      (only : ∀ other ∈ advertisements, abbreviates name other.word = true →
        other = advertisement) : Typed (.advertise advertisement) [word, name]
  | clear {word name what : String} (keyword : abbreviates word "clear" = true)
      (listed : what = "counters" ∨ what = "neighbors") (begins : abbreviates name what = true) :
      Typed (.clear what) [word, name]

namespace Wish

/-- The option that the words go to. -/
def option : Wish → Nat
  | enable => 0
  | holdTime _ => 1
  | interval _ => 2
  | advertise _ => 3
  | clear _ => 4

/-- What the words are bound to. -/
def values : Wish → List Value
  | enable => [.word "enable"]
  | holdTime number => [.word "holdtime", .integer number]
  | interval number => [.word "timer", .integer number]
  | advertise advertisement => [.word "select-tlv", .word advertisement.word]
  | clear what => [.word "clear", .word what]

end Wish

/-- A group of words with what it asks for. -/
structure Phrase where
  wish : Wish
  words : List String
  typed : wish.Typed words

namespace Phrase

def block (phrase : Phrase) : Block where
  option := phrase.wish.option
  words := phrase.words
  bound := OptionGroup.numbered phrase.wish.values

end Phrase

/-- The words are groups that go to different options. -/
structure Spells (words : List String) (phrases : List Phrase) : Prop where
  different : (phrases.map fun phrase => phrase.wish.option).Nodup
  words_eq : words = phrases.flatMap Phrase.words

theorem Phrase.spells (phrase : Phrase) : Spells phrase.words [phrase] :=
  ⟨List.nodup_singleton _, (List.flatMap_singleton _ _).symm⟩

variable {names : Names} {wish : Wish} {words : List String} {phrase : Phrase}
  {phrases reordered : List Phrase} {word literal other : String} {group : OptionGroup}
  {index : Nat} {value : Value} {block : Block}

open OptionGroup

/-- A word that stands for an advertisement begins it and no other. -/
theorem advertisement_takes_iff :
    advertisementChoice.Takes names word value ↔
      ∃ advertisement ∈ advertisements, value = .word advertisement.word ∧
        abbreviates word advertisement.word = true ∧
        ∀ other ∈ advertisements, abbreviates word other.word = true → other = advertisement := by
  let literalOf (advertisement : Advertisement) : Literal :=
    { word := advertisement.word, help := some ("Select " ++ advertisement.word ++ " TLV") }
  have kind : advertisementChoice.kind = .choice (advertisements.map literalOf) := rfl
  have distinct : (advertisements.map literalOf).Nodup := by decide
  have free : ∀ one ∈ advertisements.map literalOf, ∀ other ∈ advertisements.map literalOf,
      abbreviates one.word other.word = true → other = one := by decide
  have injective : ∀ one ∈ advertisements, ∀ other ∈ advertisements,
      literalOf other = literalOf one ↔ other = one := by decide
  rw [Token.takes_choice_iff kind distinct free]
  simp only [List.mem_map, exists_exists_and_eq_and, forall_exists_index, and_imp,
    forall_apply_eq_imp_iff₂]
  refine exists_congr fun advertisement => and_congr_right fun listed => ?_
  refine and_congr_right fun _ => and_congr_right fun _ => forall₂_congr fun other among => ?_
  rw [injective advertisement listed other among]

theorem cleared_takes_iff :
    (Token.choice [("counters", "Clear LLDP counters"),
        ("neighbors", "Clear LLDP neighbor entries")]).Takes names word value ↔
      ∃ what, (what = "counters" ∨ what = "neighbors") ∧ value = .word what ∧
        abbreviates word what = true := by
  rw [Token.takes_choice_iff rfl (by decide) (by decide)]
  constructor
  · rintro ⟨literal, member, rfl, begins, _⟩
    rcases List.mem_pair.mp member with rfl | rfl
    · exact ⟨_, .inl rfl, rfl, begins⟩
    · exact ⟨_, .inr rfl, rfl, begins⟩
  · rintro ⟨what, rfl | rfl, rfl, begins⟩
    · refine ⟨_, List.mem_cons_self, rfl, begins, fun other member begun => ?_⟩
      rcases List.mem_pair.mp member with rfl | rfl
      · rfl
      · rw [not_abbreviates begins (by decide)] at begun
        contradiction
    · refine ⟨_, List.mem_cons_of_mem _ List.mem_cons_self, rfl, begins,
        fun other member begun => ?_⟩
      rcases List.mem_pair.mp member with rfl | rfl
      · rw [not_abbreviates begins (by decide)] at begun
        contradiction
      · rfl

theorem keyword_takes_iff {help : String} :
    (Token.keyword literal help).Takes names word value ↔
      abbreviates word literal = true ∧ value = .word literal := by
  have kind : (Token.keyword literal help).kind =
      .keyword { word := literal, help := some help } := rfl
  exact Token.takes_keyword_iff kind

/-- A keyword and the token after it take two words. -/
theorem takesInTurn_keyword_iff {help : String} {second : Token} {values : List Value} :
    (TakesInTurn names [.keyword literal help, second] words values ∧ words.length = 2) ↔
      ∃ one other value, words = [one, other] ∧ values = [.word literal, value] ∧
        abbreviates one literal = true ∧ second.Takes names other value := by
  constructor
  · rintro ⟨taken, length⟩
    obtain ⟨one, other, rfl⟩ := List.length_eq_two.mp length
    cases taken with
    | take first others =>
        cases others with
        | take second rest =>
            cases rest
            obtain ⟨begins, rfl⟩ := keyword_takes_iff.mp first
            exact ⟨_, _, _, rfl, rfl, begins, second⟩
  · rintro ⟨one, other, value, rfl, rfl, begins, second⟩
    exact ⟨.take (keyword_takes_iff.mpr ⟨begins, rfl⟩) (.take second (.done [])), rfl⟩

theorem number_takes_iff {low high : Nat} {help : String} (small : high ≤ Text.maxSigned64) :
    ((Token.range low high).withHelp help).Takes names word value ↔
      ∃ number : Nat, Text.natural? word = some number ∧ value = .integer number ∧
        low ≤ number ∧ number ≤ high := by
  rw [Token.takes_integer_iff rfl]
  refine exists_congr fun number => and_congr_right fun _ => and_congr_right fun _ => ?_
  simp only [Option.mem_def, Option.some.injEq, forall_eq', Int.ofNat_le]
  exact ⟨And.right, fun within => ⟨Nat.le_trans within.2 small, within⟩⟩

theorem phrases_configure : ∀ group ∈ configureCommand.options, group.IsPhrase := by decide

theorem Wish.Typed.taken (typed : wish.Typed words) :
    ∃ group, configureCommand.options[wish.option]? = some group ∧
      TakesInTurn names group.tokens words wish.values ∧ words.length = group.tokens.length := by
  have led : ∀ {one other literal help : String} {second : Token} {value : Value},
      abbreviates one literal = true → second.Takes names other value →
        TakesInTurn names [.keyword literal help, second] [one, other] [.word literal, value] :=
    fun begins taken =>
      (takesInTurn_keyword_iff.mpr ⟨_, _, _, rfl, rfl, begins, taken⟩).1
  cases typed with
  | enable begins => exact ⟨_, rfl, .take (keyword_takes_iff.mpr ⟨begins, rfl⟩) (.done []), rfl⟩
  | holdTime begins spelled atLeast atMost =>
      exact ⟨_, rfl, led begins
        ((number_takes_iff (by decide)).mpr ⟨_, spelled, rfl, atLeast, atMost⟩), rfl⟩
  | interval begins spelled atLeast atMost =>
      exact ⟨_, rfl, led begins
        ((number_takes_iff (by decide)).mpr ⟨_, spelled, rfl, atLeast, atMost⟩), rfl⟩
  | advertise begins listed name only =>
      exact ⟨_, rfl, led begins (advertisement_takes_iff.mpr ⟨_, listed, rfl, name, only⟩), rfl⟩
  | clear begins listed name =>
      exact ⟨_, rfl, led begins (cleared_takes_iff.mpr ⟨_, listed, rfl, name⟩), rfl⟩

/-- Words that go to all tokens of an option are those of a wish. -/
theorem exists_typed (option : configureCommand.options[index]? = some group)
    {values : List Value} (taken : TakesInTurn names group.tokens words values)
    (length : words.length = group.tokens.length) :
    ∃ wish : Wish, wish.option = index ∧ wish.values = values ∧ wish.Typed words := by
  match index, option with
  | 0, rfl =>
      obtain ⟨word, rfl⟩ := List.length_eq_one_iff.mp length
      cases taken with
      | take first others =>
          cases others
          obtain ⟨begins, rfl⟩ := keyword_takes_iff.mp first
          exact ⟨.enable, rfl, rfl, .enable begins⟩
  | 1, rfl =>
      obtain ⟨_, _, _, rfl, rfl, begins, second⟩ := takesInTurn_keyword_iff.mp ⟨taken, length⟩
      obtain ⟨number, spelled, rfl, atLeast, atMost⟩ := (number_takes_iff (by decide)).mp second
      exact ⟨.holdTime number, rfl, rfl, .holdTime begins spelled atLeast atMost⟩
  | 2, rfl =>
      obtain ⟨_, _, _, rfl, rfl, begins, second⟩ := takesInTurn_keyword_iff.mp ⟨taken, length⟩
      obtain ⟨number, spelled, rfl, atLeast, atMost⟩ := (number_takes_iff (by decide)).mp second
      exact ⟨.interval number, rfl, rfl, .interval begins spelled atLeast atMost⟩
  | 3, rfl =>
      obtain ⟨_, _, _, rfl, rfl, begins, second⟩ := takesInTurn_keyword_iff.mp ⟨taken, length⟩
      obtain ⟨advertisement, listed, rfl, name, only⟩ := advertisement_takes_iff.mp second
      exact ⟨.advertise advertisement, rfl, rfl, .advertise begins listed name only⟩
  | 4, rfl =>
      obtain ⟨_, _, _, rfl, rfl, begins, second⟩ := takesInTurn_keyword_iff.mp ⟨taken, length⟩
      obtain ⟨what, listed, rfl, name⟩ := cleared_takes_iff.mp second
      exact ⟨.clear what, rfl, rfl, .clear begins listed name⟩

/-- The first words of the options in full. -/
def keywords : List String :=
  ["enable", "holdtime", "timer", "select-tlv", "clear"]

theorem not_abbreviates_keyword {place : Nat} (begins : abbreviates word literal = true)
    (own : keywords[place]? = some literal) (foreign : keywords[index]? = some other)
    (different : place ≠ index) : abbreviates word other = false := by
  have heads : (keywords.map (·.toList.head?)).Nodup := by decide
  refine not_abbreviates begins fun same => different ?_
  obtain ⟨inside, _⟩ := List.getElem?_eq_some_iff.mp own
  refine (List.getElem?_inj (by simpa using inside) heads).mp ?_
  rw [List.getElem?_map, List.getElem?_map, own, foreign, Option.map_some, Option.map_some, same]

/-- The first word of a group abbreviates its keyword, and no other word of it
abbreviates `enable`. -/
theorem Wish.Typed.led (typed : wish.Typed words) :
    ∃ first rest literal, words = first :: rest ∧ keywords[wish.option]? = some literal ∧
      abbreviates first literal = true ∧ ∀ word ∈ rest, abbreviates word "enable" = false := by
  have named : ∀ c, "enable".toList.head? = some c → c.isDigit = false := by
    rintro c ⟨⟩
    rfl
  cases typed with
  | enable begins => exact ⟨_, [], _, rfl, rfl, begins, List.forall_mem_nil _⟩
  | holdTime begins spelled _ _ =>
      exact ⟨_, _, _, rfl, rfl, begins,
        List.forall_mem_singleton.mpr (Token.not_abbreviates_of_natural? spelled named)⟩
  | interval begins spelled _ _ =>
      exact ⟨_, _, _, rfl, rfl, begins,
        List.forall_mem_singleton.mpr (Token.not_abbreviates_of_natural? spelled named)⟩
  | advertise begins listed name _ =>
      have apart : ∀ advertisement ∈ advertisements,
          advertisement.word.toList.head? ≠ "enable".toList.head? := by decide
      exact ⟨_, _, _, rfl, rfl, begins,
        List.forall_mem_singleton.mpr (not_abbreviates name (apart _ listed))⟩
  | clear begins listed name =>
      refine ⟨_, _, _, rfl, rfl, begins, List.forall_mem_singleton.mpr (not_abbreviates name ?_)⟩
      rcases listed with rfl | rfl <;> decide

theorem exists_keyword (option : configureCommand.options[index]? = some group) :
    ∃ token literal, group.tokens.head? = some token ∧ keywords[index]? = some literal ∧
      ∀ word, token.accepts names word = abbreviates word literal := by
  match index, option with
  | 0, rfl | 1, rfl | 2, rfl | 3, rfl | 4, rfl => exact ⟨_, _, rfl, rfl, fun _ => rfl⟩

theorem Wish.Typed.passes (typed : wish.Typed words)
    (option : configureCommand.options[index]? = some group) (different : wish.option ≠ index) :
    Binding.Passes names group words := by
  obtain ⟨token, other, head, keyword, accepts⟩ := @exists_keyword names _ _ option
  obtain ⟨first, rest, literal, rfl, own, begins, unlike⟩ := typed.led
  refine ⟨fun policy word member => ?_, fun _ word member rival inside => ?_⟩
  · -- Only the first option takes one word, so it looks at all words of the group.
    obtain rfl : index = 0 := by
      match index, option with
      | 0, _ => rfl
      | 1, rfl | 2, rfl | 3, rfl | 4, rfl => contradiction
    cases option
    refine List.forall_mem_singleton.mpr ?_
    change abbreviates word "enable" = false
    rcases List.mem_cons.mp member with rfl | member
    · exact not_abbreviates_keyword begins own rfl different
    · exact unlike word member
  · cases member
    cases head.symm.trans inside
    exact (accepts first).trans (not_abbreviates_keyword begins own keyword different)

theorem Phrase.begins (names : Names) (phrase : Phrase) :
    ∃ group, configureCommand.options[phrase.block.option]? = some group ∧
      group.Begins names phrase.block.words phrase.block.bound ∧
      group.Suffices phrase.block.words.length := by
  obtain ⟨group, option, taken, length⟩ := @Wish.Typed.taken names _ _ phrase.typed
  have phrased := phrases_configure group (List.mem_of_getElem? option)
  exact ⟨group, option, phrased.begins_iff.mpr ⟨_, taken, length, rfl⟩⟩

theorem Spells.splits (spells : Spells words phrases) :
    Binding.Splits names configureCommand.options words (phrases.map Phrase.block) where
  begun := by
    intro block member
    obtain ⟨phrase, _, rfl⟩ := List.mem_map.mp member
    obtain ⟨group, option, begins, _⟩ := phrase.begins names
    exact ⟨group, option, begins⟩
  whole := by
    intro block member
    obtain ⟨phrase, _, rfl⟩ := List.mem_map.mp member
    obtain ⟨group, option, _, enough⟩ := phrase.begins names
    exact ⟨group, option, enough⟩
  different := by
    rw [List.map_map]
    exact spells.different
  words_eq := by
    rw [List.flatMap_map]
    exact spells.words_eq

theorem Spells.ofWords_eq (spells : Spells words phrases) :
    Binding.ofWords names configureCommand.options words =
      .ok ((phrases.map Phrase.block).flatMap Block.bindings) := by
  refine spells.splits.ofWords_eq phrases_configure fun block member index group option different => ?_
  obtain ⟨phrase, _, rfl⟩ := List.mem_map.mp member
  exact phrase.typed.passes option different

/-- Words that are bound are groups for different options. -/
theorem exists_phrases {bindings : List Binding}
    (bound : Binding.ofWords names configureCommand.options words = .ok bindings) :
    ∃ phrases, Spells words phrases ∧
      bindings = (phrases.map Phrase.block).flatMap Block.bindings := by
  obtain ⟨blocks, splits, rfl⟩ := Binding.exists_blocks_of_ofWords
    (fun group member => (phrases_configure group member).ordered) bound
  have typed : blocks ∈ Set.range (List.map Phrase.block) := by
    rw [Set.range_list_map]
    intro block member
    obtain ⟨group, option, begins⟩ := splits.begun block member
    have enough := (Block.whole_iff option).mp (splits.whole block member)
    have phrased := phrases_configure group (List.mem_of_getElem? option)
    obtain ⟨values, taken, length, bound⟩ := phrased.begins_iff.mp ⟨begins, enough⟩
    obtain ⟨wish, own, rfl, typed⟩ := exists_typed option taken length
    obtain ⟨index, words, _⟩ := block
    cases own
    cases bound
    exact ⟨⟨wish, words, typed⟩, rfl⟩
  obtain ⟨phrases, rfl⟩ := typed
  refine ⟨phrases, ⟨?_, ?_⟩, rfl⟩
  · have different := splits.different
    rwa [List.map_map] at different
  · rw [splits.words_eq, List.flatMap_map]
    rfl

end SwitchShell.Feature.Lldp

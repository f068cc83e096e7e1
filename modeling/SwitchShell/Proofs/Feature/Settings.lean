import SwitchShell.Proofs.Feature.Request
import SwitchShell.Proofs.Feature.Wishes
import SwitchShell.Proofs.Grammar.Bound
import SwitchShell.Proofs.Store.MapColumn

namespace SwitchShell

namespace Arguments

variable {arguments others : Arguments} {option slot : Nat} {value : Value}

theorem get?_eq_some_iff
    (distinct : (arguments.bindings.map fun binding => (binding.option, binding.slot)).Nodup) :
    arguments.get? option slot = some value ↔ { option, slot, value } ∈ arguments.bindings := by
  rw [get?, Option.map_eq_some_iff]
  constructor
  · rintro ⟨binding, found, rfl⟩
    have place := List.find?_some found
    rw [Bool.and_eq_true, beq_iff_eq, beq_iff_eq] at place
    obtain ⟨rfl, rfl⟩ := place
    exact List.mem_of_find?_eq_some found
  · intro member
    have present : (arguments.bindings.find? fun binding =>
        binding.option == option && binding.slot == slot).isSome = true :=
      List.find?_isSome.mpr ⟨_, member, by simp⟩
    obtain ⟨binding, found⟩ := Option.isSome_iff_exists.mp present
    have place := List.find?_some found
    rw [Bool.and_eq_true, beq_iff_eq, beq_iff_eq] at place
    have same := List.inj_on_of_nodup_map distinct (List.mem_of_find?_eq_some found) member
      (Prod.ext place.1 place.2)
    exact ⟨binding, found, congrArg Binding.value same⟩

end Arguments

namespace Feature

namespace Lldp

open Request

variable {negated : Bool} {words : List String} {phrases reordered : List Phrase} {wish : Wish}
  {option slot : Nat} {value : Value} {key : String} {value? : Option String}
  {arguments others : Arguments}

/-- The key of `other_config` that a wish changes, and what it is bound to afterwards. -/
def Wish.change? (negated : Bool) : Wish → Option (String × Option String)
  | enable => some ("lldp_enable", some (boolText !negated))
  | holdTime number => some ("lldp_hold", if negated then none else some (toString number))
  | interval number => some ("lldp_tx_interval", if negated then none else some (toString number))
  | advertise advertisement => some (advertisement.key, some (boolText !negated))
  | clear _ => none

def argumentsOf (negated : Bool) (phrases : List Phrase) : Arguments where
  bindings := (phrases.map Phrase.block).flatMap Block.bindings
  negated := negated

theorem Phrase.mem_bindings_iff {phrase : Phrase} {binding : Binding} :
    binding ∈ phrase.block.bindings ↔
      phrase.wish.option = binding.option ∧
        phrase.wish.values[binding.slot]? = some binding.value := by
  obtain ⟨option, slot, value⟩ := binding
  simp only [Block.bindings, Phrase.block, OptionGroup.numbered, List.map_map, List.mem_map,
    Prod.exists, List.mem_zipIdx_iff_getElem?]
  constructor
  · rintro ⟨_, _, inside, ⟨⟩⟩
    exact ⟨rfl, inside⟩
  · rintro ⟨rfl, inside⟩
    exact ⟨value, slot, inside, rfl⟩

/-- A token has the value of the group that goes to its option. -/
theorem Spells.get?_eq_some_iff (spells : Spells words phrases) :
    (argumentsOf negated phrases).get? option slot = some value ↔
      ∃ phrase ∈ phrases, phrase.wish.option = option ∧
        phrase.wish.values[slot]? = some value := by
  rw [Arguments.get?_eq_some_iff (Binding.nodup_of_ofWords (@Spells.ofWords_eq {} _ _ spells)),
    argumentsOf, List.flatMap_map, List.mem_flatMap]
  exact exists_congr fun phrase => and_congr_right fun _ => Phrase.mem_bindings_iff

/-- All groups of a kind, and none of the others, go to the option. -/
structure Wish.OwnOption {α : Type} (option : Nat) (asking : α → Wish) : Prop where
  own : ∀ asked, (asking asked).option = option
  only : ∀ wish : Wish, wish.option = option → ∃ asked, wish = asking asked

/-- The kinds of groups that hold a number, with their options. -/
inductive Wish.Counts : Nat → (Nat → Wish) → Prop where
  | holdTime : Counts 1 .holdTime
  | interval : Counts 2 .interval

/-- What a token of an option is bound to is read off what the group asks for. -/
theorem Spells.get?_iff_of_option (spells : Spells words phrases) {α : Type} {asking : α → Wish}
    {read : α → Value} (kind : Wish.OwnOption option asking)
    (reads : ∀ asked, (asking asked).values[slot]? = some (read asked)) :
    (argumentsOf negated phrases).get? option slot = some value ↔
      ∃ phrase ∈ phrases, ∃ asked, phrase.wish = asking asked ∧ value = read asked := by
  rw [spells.get?_eq_some_iff]
  constructor
  · rintro ⟨phrase, member, sent, held⟩
    obtain ⟨asked, same⟩ := kind.only _ sent
    rw [same, reads] at held
    exact ⟨phrase, member, asked, same, (Option.some.inj held).symm⟩
  · rintro ⟨phrase, member, asked, same, rfl⟩
    exact ⟨phrase, member, same ▸ kind.own asked, same ▸ reads asked⟩

/-- So is a word. -/
theorem Spells.word?_iff_of_option (spells : Spells words phrases) {α : Type} {asking : α → Wish}
    {read : α → String} {word : String} (kind : Wish.OwnOption option asking)
    (reads : ∀ asked, (asking asked).values[slot]? = some (.word (read asked))) :
    (argumentsOf negated phrases).word? option slot = some word ↔
      ∃ phrase ∈ phrases, ∃ asked, phrase.wish = asking asked ∧ word = read asked := by
  rw [Arguments.word?, Option.bind_eq_some_iff]
  simp only [spells.get?_iff_of_option kind reads]
  constructor
  · rintro ⟨_, ⟨phrase, member, asked, same, rfl⟩, spoken⟩
    exact ⟨phrase, member, asked, same, (Option.some.inj spoken).symm⟩
  · rintro ⟨phrase, member, asked, same, rfl⟩
    exact ⟨_, ⟨phrase, member, asked, same, rfl⟩, rfl⟩

theorem Wish.Counts.ownOption {asking : Nat → Wish} (counts : Counts option asking) :
    OwnOption option asking := by
  cases counts with
  | holdTime => exact ⟨fun _ => rfl, fun wish sent => by cases wish <;> cases sent; exact ⟨_, rfl⟩⟩
  | interval => exact ⟨fun _ => rfl, fun wish sent => by cases wish <;> cases sent; exact ⟨_, rfl⟩⟩

theorem Spells.has_enable_iff (spells : Spells words phrases) :
    (argumentsOf negated phrases).has 0 0 = true ↔ ∃ phrase ∈ phrases, phrase.wish = .enable := by
  have kind : Wish.OwnOption 0 fun _ : Unit => Wish.enable :=
    ⟨fun _ => rfl, fun wish sent => by cases wish <;> cases sent; exact ⟨(), rfl⟩⟩
  have given : ∀ {value}, (argumentsOf negated phrases).get? 0 0 = some value ↔
      ∃ phrase ∈ phrases, ∃ _ : Unit, phrase.wish = .enable ∧ value = .word "enable" :=
    spells.get?_iff_of_option kind fun _ => rfl
  rw [Arguments.has, Option.isSome_iff_exists]
  simp only [given]
  constructor
  · rintro ⟨_, phrase, member, _, same, _⟩
    exact ⟨phrase, member, same⟩
  · rintro ⟨phrase, member, same⟩
    exact ⟨_, phrase, member, (), same, rfl⟩

theorem Spells.get?_number_iff (spells : Spells words phrases) {asking : Nat → Wish}
    (counts : Wish.Counts option asking) :
    (argumentsOf negated phrases).get? option 1 = some value ↔
      ∃ phrase ∈ phrases, ∃ number : Nat, phrase.wish = asking number ∧ value = .integer number :=
  spells.get?_iff_of_option counts.ownOption fun _ => by cases counts <;> rfl

theorem Spells.word?_advertise_iff (spells : Spells words phrases) {word : String} :
    (argumentsOf negated phrases).word? 3 1 = some word ↔
      ∃ phrase ∈ phrases, ∃ advertisement, phrase.wish = .advertise advertisement ∧
        word = advertisement.word := by
  have kind : Wish.OwnOption 3 Wish.advertise :=
    ⟨fun _ => rfl, fun wish sent => by cases wish <;> cases sent; exact ⟨_, rfl⟩⟩
  exact spells.word?_iff_of_option kind fun _ => rfl

theorem Spells.word?_clear_iff (spells : Spells words phrases) {word : String} :
    (argumentsOf negated phrases).word? 4 1 = some word ↔
      ∃ phrase ∈ phrases, phrase.wish = .clear word := by
  have kind : Wish.OwnOption 4 Wish.clear :=
    ⟨fun _ => rfl, fun wish sent => by cases wish <;> cases sent; exact ⟨_, rfl⟩⟩
  rw [spells.word?_iff_of_option kind fun _ => rfl]
  simp only [exists_eq_right']

theorem Spells.word?_clear_eq_none (spells : Spells words phrases)
    (kept : ∀ phrase ∈ phrases, ∀ what, phrase.wish ≠ .clear what) :
    (argumentsOf negated phrases).word? 4 1 = none := by
  rw [Option.eq_none_iff_forall_ne_some]
  intro word given
  obtain ⟨phrase, member, same⟩ := spells.word?_clear_iff.mp given
  exact kept phrase member word same

theorem find?_advertisement :
    ∀ advertisement ∈ advertisements,
      (advertisements.find? fun other => other.word == advertisement.word) =
        some advertisement := by decide

theorem Phrase.listed {phrase : Phrase} {advertisement : Advertisement}
    (same : phrase.wish = .advertise advertisement) : advertisement ∈ advertisements := by
  obtain ⟨wish, words, typed⟩ := phrase
  cases same
  cases typed with
  | advertise _ listed _ _ => exact listed

theorem Spells.advertisement (spells : Spells words phrases) {word : String}
    (given : (argumentsOf negated phrases).word? 3 1 = some word) :
    ∃ phrase ∈ phrases, ∃ advertisement, phrase.wish = .advertise advertisement ∧
      (advertisements.find? fun other => other.word == word) = some advertisement := by
  obtain ⟨phrase, member, advertisement, same, rfl⟩ := spells.word?_advertise_iff.mp given
  exact ⟨phrase, member, advertisement, same, find?_advertisement _ (Phrase.listed same)⟩

theorem Spells.configure_eq (spells : Spells words phrases) :
    configure (argumentsOf negated phrases) =
      (Action.query (Request.inTurn (requests (argumentsOf negated phrases))) >>= fun _ =>
        pure .proceed) := by
  refine Lldp.configure_eq fun word given => ?_
  obtain ⟨_, _, advertisement, _, found⟩ := spells.advertisement given
  rw [found]
  rfl

/-- The settings that the command changes, in the order in which it does. -/
def changes (arguments : Arguments) : List (String × Option String) :=
  let enabled := !arguments.negated
  let given (value : Value) : Option String := if enabled then some value.text else none
  (if arguments.has 0 0 then [(enableKey, some (boolText enabled))] else []) ++
    (((arguments.get? 1 1).map fun holdTime => (holdTimeKey, given holdTime)).toList ++
    (((arguments.get? 2 1).map fun interval => (intervalKey, given interval)).toList ++
    (((arguments.word? 3 1).bind fun word =>
      advertisements.find? fun advertisement => advertisement.word == word).map
        fun advertisement => (advertisement.key, some (boolText enabled))).toList))

/-- What is to be cleared comes after all settings. -/
theorem requests_eq_append :
    requests arguments = (changes arguments).map (fun change => .setting change.1 change.2) ++
      ((arguments.word? 4 1).map fun what =>
        Request.clear (if what = "counters" then countersKey else neighborsKey)).toList := by
  unfold requests changes
  cases arguments.has 0 0 <;> cases arguments.get? 1 1 <;> cases arguments.get? 2 1 <;>
    cases ((arguments.word? 3 1).bind fun word =>
      advertisements.find? fun advertisement => advertisement.word == word) <;> rfl

theorem requests_eq (kept : arguments.word? 4 1 = none) :
    requests arguments = (changes arguments).map fun change => .setting change.1 change.2 := by
  rw [requests_eq_append, kept]
  exact List.append_nil _

theorem nodup_keys_changes : ((changes arguments).map Prod.fst).Nodup := by
  have apart : ∀ advertisement ∈ advertisements,
      [enableKey, holdTimeKey, intervalKey, advertisement.key].Nodup := by decide
  have keys : [enableKey, holdTimeKey, intervalKey].Nodup := by decide
  unfold changes
  -- Whichever groups are absent, the keys that are left are some of the four, in order.
  cases selected : ((arguments.word? 3 1).bind fun word =>
      advertisements.find? fun advertisement => advertisement.word == word) with
  | none =>
      refine keys.sublist ?_
      cases arguments.has 0 0 <;> cases arguments.get? 1 1 <;> cases arguments.get? 2 1 <;> simp
  | some advertisement =>
      obtain ⟨_, _, found⟩ := Option.bind_eq_some_iff.mp selected
      refine (apart advertisement (List.mem_of_find?_eq_some found)).sublist ?_
      cases arguments.has 0 0 <;> cases arguments.get? 1 1 <;> cases arguments.get? 2 1 <;> simp

theorem Spells.mem_changes_iff (spells : Spells words phrases) :
    (key, value?) ∈ changes (argumentsOf negated phrases) ↔
      ∃ phrase ∈ phrases, phrase.wish.change? negated = some (key, value?) := by
  simp only [changes, List.mem_append, Option.mem_toList, Option.map_eq_some_iff,
    Option.bind_eq_some_iff]
  constructor
  -- Each part of the list reads one token, and each wish fills one.
  · rintro (enabled | ⟨holdTime, held, ⟨⟩⟩ | ⟨interval, timed, ⟨⟩⟩ |
      ⟨advertisement, ⟨word, spoken, found⟩, ⟨⟩⟩)
    · split at enabled
      · rename_i present
        cases List.mem_singleton.mp enabled
        obtain ⟨phrase, member, same⟩ := spells.has_enable_iff.mp present
        exact ⟨phrase, member, same ▸ rfl⟩
      · contradiction
    · obtain ⟨phrase, member, number, same, rfl⟩ := (spells.get?_number_iff .holdTime).mp held
      refine ⟨phrase, member, ?_⟩
      rw [same]
      cases negated <;> rfl
    · obtain ⟨phrase, member, number, same, rfl⟩ := (spells.get?_number_iff .interval).mp timed
      refine ⟨phrase, member, ?_⟩
      rw [same]
      cases negated <;> rfl
    · obtain ⟨phrase, member, other, same, located⟩ := spells.advertisement spoken
      cases found.symm.trans located
      exact ⟨phrase, member, same ▸ rfl⟩
  · rintro ⟨phrase, member, change⟩
    cases same : phrase.wish with
    | enable =>
        rw [same] at change
        cases change
        have present : (argumentsOf negated phrases).has 0 0 = true :=
          spells.has_enable_iff.mpr ⟨phrase, member, same⟩
        rw [if_pos present]
        exact .inl List.mem_cons_self
    | holdTime number =>
        rw [same] at change
        cases change
        refine .inr (.inl ⟨.integer number,
          (spells.get?_number_iff .holdTime).mpr ⟨phrase, member, number, same, rfl⟩, ?_⟩)
        cases negated <;> rfl
    | interval number =>
        rw [same] at change
        cases change
        refine .inr (.inr (.inl ⟨.integer number,
          (spells.get?_number_iff .interval).mpr ⟨phrase, member, number, same, rfl⟩, ?_⟩))
        cases negated <;> rfl
    | advertise advertisement =>
        rw [same] at change
        cases change
        have spoken : (argumentsOf negated phrases).word? 3 1 = some advertisement.word :=
          spells.word?_advertise_iff.mpr ⟨phrase, member, advertisement, same, rfl⟩
        have found := find?_advertisement advertisement (Phrase.listed same)
        exact .inr (.inr (.inr ⟨advertisement, ⟨advertisement.word, spoken, found⟩, rfl⟩))
    | clear what =>
        rw [same] at change
        contradiction

theorem Phrase.requests_eq {phrase : Phrase}
    (change : phrase.wish.change? negated = some (key, value?)) :
    requests (argumentsOf negated [phrase]) = [.setting key value?] := by
  have spells := phrase.spells
  have kept : ∀ other ∈ [phrase], ∀ what, other.wish ≠ .clear what := by
    refine List.forall_mem_singleton.mpr fun what same => ?_
    rw [same] at change
    contradiction
  have only : changes (argumentsOf negated [phrase]) = [(key, value?)] := by
    refine List.perm_singleton.mp ((List.perm_ext_iff_of_nodup (nodup_keys_changes.of_map _)
      (List.nodup_singleton _)).mpr ?_)
    rintro ⟨other, given?⟩
    rw [spells.mem_changes_iff, List.mem_singleton]
    simp only [List.mem_singleton, exists_eq_left, change, Option.some.injEq]
    exact eq_comm
  rw [Lldp.requests_eq (spells.word?_clear_eq_none kept), only]
  rfl

theorem Spells.requests_of_perm (spells : Spells words phrases) {moved : List String}
    (spells' : Spells moved reordered) (same : reordered.Perm phrases) :
    requests (argumentsOf negated reordered) = requests (argumentsOf negated phrases) := by
  have given : ∀ option slot, (argumentsOf negated reordered).get? option slot =
      (argumentsOf negated phrases).get? option slot := by
    intro option slot
    refine Option.ext fun value => ?_
    simp only [spells.get?_eq_some_iff, spells'.get?_eq_some_iff, same.mem_iff]
  simp only [requests, Arguments.has, Arguments.word?, given]
  rfl

section Rows

variable {altered : List (String × Option String)} {row : Row} {column : String} {memory : Memory}

/-- The row after settings have changed one after the other. -/
def settle (altered : List (String × Option String)) (row : Row) : Row :=
  altered.foldl (fun row change => row.put "other_config" change.1 change.2) row

theorem find?_settle (elsewhere : column ≠ "other_config") :
    Dictionary.find? column (settle altered row) = Dictionary.find? column row := by
  induction altered generalizing row with
  | nil => rfl
  | cons change altered ih => exact ih.trans (Row.find?_put_of_ne elsewhere)

theorem find?_mapAt_settle_of_not_mem (absent : key ∉ altered.map Prod.fst) :
    Dictionary.find? key ((settle altered row).mapAt "other_config") =
      Dictionary.find? key (row.mapAt "other_config") := by
  induction altered generalizing row with
  | nil => rfl
  | cons change altered ih =>
      rw [List.map_cons, List.mem_cons, not_or] at absent
      refine (ih absent.2).trans ?_
      rw [Row.mapAt_put, if_pos rfl, Dictionary.find?_put, if_neg absent.1]

theorem find?_mapAt_settle (distinct : (altered.map Prod.fst).Nodup)
    (member : (key, value?) ∈ altered) :
    Dictionary.find? key ((settle altered row).mapAt "other_config") = value? := by
  induction altered generalizing row with
  | nil => contradiction
  | cons change altered ih =>
      obtain ⟨fresh, others⟩ := List.nodup_cons.mp distinct
      rcases List.mem_cons.mp member with rfl | member
      · refine (find?_mapAt_settle_of_not_mem fresh).trans ?_
        rw [Row.mapAt_put, if_pos rfl, Dictionary.find?_put, if_pos rfl]
      · exact ih others member

/-- Only the rows of the system table are others, each of them by the change. -/
structure Revised (change : Row → Row) (before after : Memory) : Prop where
  serial : after.serial = before.serial
  elsewhere : ∀ table, table ≠ systemTable →
    Dictionary.find? table after.tables = Dictionary.find? table before.tables
  rows : Dictionary.find? systemTable after.tables =
    (Dictionary.find? systemTable before.tables).map (List.map change)

theorem revised_setting (present : (Dictionary.find? systemTable memory.tables).isSome = true)
    (key : String) (value? : Option String) :
    ∃ after, Query.answer Memory.transact (setting key value?).query memory = (.ok (), after) ∧
      Revised (Row.put "other_config" key value?) memory after := by
  obtain ⟨rows, found⟩ := Option.isSome_iff_exists.mp present
  obtain ⟨change, same, rfl, rfl⟩ : ∃ change : MapChange,
      (setting key value?).query = change.query systemTable "other_config" [] ∧
        change.key = key ∧ change.value? = value? := by
    cases value? with
    | some value => exact ⟨.set key value, (set_eq key value).symm, rfl, rfl⟩
    | none => exact ⟨.delete key, (setOrClear_eq key (.word "") false).symm, rfl, rfl⟩
  refine ⟨_, same ▸ MapChange.answer_query found (List.forall_mem_nil _), Memory.serial_onTable,
    fun table different => Memory.find?_onTable.trans (if_neg different), ?_⟩
  rw [Memory.find?_onTable, if_pos rfl]
  rfl

/-- Settings that change one after the other change the row one after the other. -/
theorem revised_settings (present : (Dictionary.find? systemTable memory.tables).isSome = true)
    (altered : List (String × Option String)) :
    ∃ after, Query.answer Memory.transact
        (Request.inTurn (altered.map fun change => setting change.1 change.2)) memory = (.ok (), after) ∧
      Revised (settle altered) memory after := by
  induction altered generalizing memory with
  | nil =>
      refine ⟨memory, rfl, rfl, fun _ _ => rfl, ?_⟩
      cases Dictionary.find? systemTable memory.tables with
      | none => rfl
      | some rows => exact congrArg some (List.map_id rows).symm
  | cons change altered ih =>
      obtain ⟨middle, first, once⟩ := revised_setting present change.1 change.2
      have present' : (Dictionary.find? systemTable middle.tables).isSome = true := by
        rw [once.rows, Option.isSome_map]
        exact present
      obtain ⟨after, others, again⟩ := ih present'
      refine ⟨after, ?_, again.serial.trans once.serial, fun table different =>
        (again.elsewhere table different).trans (once.elsewhere table different), ?_⟩
      · rw [List.map_cons, Request.inTurn, Query.answer_bind, first]
        exact others
      · rw [again.rows, once.rows, Option.map_map]
        refine congrArg (Option.map · _) (funext fun rows => ?_)
        exact List.map_map

end Rows

/-- The row has the settings that the groups ask for, and is otherwise as it was. -/
structure Settles (negated : Bool) (phrases : List Phrase) (row later : Row) : Prop where
  changed : ∀ phrase ∈ phrases, ∀ key value?, phrase.wish.change? negated = some (key, value?) →
    Dictionary.find? key (later.mapAt "other_config") = value?
  kept : ∀ key, (∀ phrase ∈ phrases, ∀ value?, phrase.wish.change? negated ≠ some (key, value?)) →
    Dictionary.find? key (later.mapAt "other_config") =
      Dictionary.find? key (row.mapAt "other_config")
  columns : ∀ column, column ≠ "other_config" →
    Dictionary.find? column later = Dictionary.find? column row

theorem Spells.settles (spells : Spells words phrases) (row : Row) :
    Settles negated phrases row (settle (changes (argumentsOf negated phrases)) row) where
  changed phrase member _ _ change :=
    find?_mapAt_settle nodup_keys_changes (spells.mem_changes_iff.mpr ⟨phrase, member, change⟩)
  kept key absent := by
    refine find?_mapAt_settle_of_not_mem fun present => ?_
    obtain ⟨⟨_, value?⟩, member, rfl⟩ := List.mem_map.mp present
    obtain ⟨phrase, inside, change⟩ := spells.mem_changes_iff.mp member
    exact absent phrase inside value? change
  columns _ := find?_settle

end Lldp

end Feature

end SwitchShell

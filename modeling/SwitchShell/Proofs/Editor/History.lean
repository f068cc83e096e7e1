import Mathlib.Data.List.Destutter
import Mathlib.Data.List.DropRight
import SwitchShell.Editor.History

namespace SwitchShell.History

/-! What a history holds, and browsing in it.

The entries are the newest of the lines that are worth keeping, and browsing never
leaves them.  As many moves forth as there were moves back end at the draft.
-/

/-- What can be done to a history. -/
inductive Move where
  | push (line : String)
  | previous (current : String)
  | next
  | reset
deriving DecidableEq, Repr

namespace Move

def pushed? : Move → Option String
  | push line => some line
  | previous _ => none
  | next => none
  | reset => none

end Move

/-- One move, and the line that it brings into view. -/
def move (history : History) : Move → Except Fault (Option String × History)
  | .push line => .ok (none, history.push line)
  | .previous current => history.previous current
  | .next => history.next
  | .reset => .ok (none, history.reset)

/-- Moves one after the other, and the lines that they bring into view. -/
def run : List Move → History → Except Fault (List (Option String) × History)
  | [], history => .ok ([], history)
  | first :: moves, history => do
      let (line, later) ← history.move first
      let (lines, last) ← run moves later
      return (line :: lines, last)

/-- The lines that are worth keeping: without the white space around them, not empty,
and once where a line is repeated. -/
def worthKeeping (lines : List String) : List String :=
  ((lines.map Text.trim).filter fun line => !line.isEmpty).destutter (· ≠ ·)

/-- The history keeps the newest of these lines, and what is in view is one of them. -/
structure Holds (history : History) (lines : List String) : Prop where
  entries : history.entries = (worthKeeping lines).rtake history.capacity
  within : ∀ place, history.position = some place → place < history.entries.length

section Lists

variable {α : Type} {items : List α} {item : α} {count : Nat}

theorem destutter'_concat [DecidableEq α] (first : α) :
    (items ++ [item]).destutter' (· ≠ ·) first =
      if (items.destutter' (· ≠ ·) first).getLast? = some item then items.destutter' (· ≠ ·) first
      else items.destutter' (· ≠ ·) first ++ [item] := by
  induction items generalizing first with
  | nil => by_cases same : first = item <;> simp [same]
  | cons next items ih =>
      by_cases same : first = next
      · simp only [List.cons_append, List.destutter'_cons, same, ne_eq, not_true_eq_false, if_false, ih]
      · obtain ⟨kept, others, shape⟩ :=
          List.exists_cons_of_ne_nil (List.destutter'_ne_nil items (R := (· ≠ ·)) (a := next))
        simp only [List.cons_append, List.destutter'_cons, ne_eq, same, not_false_eq_true, if_true, ih,
          shape, List.getLast?_cons_cons]
        split <;> rfl

theorem destutter_concat [DecidableEq α] :
    (items ++ [item]).destutter (· ≠ ·) =
      if (items.destutter (· ≠ ·)).getLast? = some item then items.destutter (· ≠ ·)
      else items.destutter (· ≠ ·) ++ [item] := by
  cases items with
  | nil => rfl
  | cons first items => exact destutter'_concat first

theorem getLast?_rtake (some : 0 < count) : (items.rtake count).getLast? = items.getLast? := by
  rw [List.rtake_eq_reverse_take_reverse, List.getLast?_reverse, List.head?_take,
    if_neg (Nat.ne_of_gt some), List.head?_reverse]

end Lists

variable {history later : History} {lines entries : List String} {line current : String}
  {place count : Nat}

theorem worthKeeping_concat :
    worthKeeping (lines ++ [line]) =
      if (Text.trim line).isEmpty ∨ (worthKeeping lines).getLast? = some (Text.trim line) then
        worthKeeping lines
      else worthKeeping lines ++ [Text.trim line] := by
  unfold worthKeeping
  rw [List.map_append, List.filter_append, List.map_singleton, List.filter_singleton]
  cases empty : (Text.trim line).isEmpty with
  | true => simp
  | false =>
      simp only [Bool.not_false, cond_true, destutter_concat, Bool.false_eq_true, false_or]

theorem evict_rtake (some : 0 < count) :
    evict count (entries.rtake count ++ [line]) = (entries ++ [line]).rtake count := by
  obtain ⟨rest, rfl⟩ := Nat.exists_eq_add_one.mpr some
  rw [List.rtake_concat_succ, evict]
  simp only [List.rtake, List.length_append, List.length_drop, List.length_singleton]
  -- one is evicted if there were as many entries as are kept
  by_cases full : rest < entries.length
  · have left : entries.drop (entries.length - (rest + 1)) ≠ [] := by
      simp
      omega
    rw [if_pos (by omega), List.tail_append_of_ne_nil left, List.tail_drop]
    congr 2
    omega
  · rw [if_neg (by omega)]
    congr 2
    omega

@[simp] theorem capacity_push : (history.push line).capacity = history.capacity := by
  simp only [push]
  split
  · rfl
  · split <;> rfl

@[simp] theorem position_push : (history.push line).position = none := by
  simp only [push]
  split
  · rfl
  · split <;> rfl

theorem entries_push :
    (history.push line).entries =
      if history.capacity = 0 ∨ (Text.trim line).isEmpty ∨
          history.entries.getLast? = some (Text.trim line) then history.entries
      else evict history.capacity (history.entries ++ [Text.trim line]) := by
  simp only [push, Bool.or_eq_true, decide_eq_true_eq]
  grind [reset]

theorem view_of_lt (within : place < history.entries.length) :
    history.view place = .ok (some history.entries[place], { history with position := some place }) := by
  rw [view, List.getElem?_eq_getElem within]

theorem run_cons {first : Move} {moves : List Move} {shown : Option String}
    {others : List (Option String)} {middle : History}
    (moved : history.move first = .ok (shown, middle)) (onward : run moves middle = .ok (others, later)) :
    run (first :: moves) history = .ok (shown :: others, later) := by
  simp only [run, moved, onward, bind, Except.bind]
  rfl

theorem holds_new (capacity : Nat) : Holds { capacity } [] where
  entries := (List.rtake_nil capacity).symm
  within := fun _ shown => nomatch shown

namespace Holds

theorem reset (holds : history.Holds lines) : history.reset.Holds lines where
  entries := holds.entries
  within := fun _ shown => nomatch shown

theorem push (holds : history.Holds lines) : (history.push line).Holds (lines ++ [line]) where
  entries := by
    rw [entries_push, capacity_push, worthKeeping_concat, holds.entries]
    rcases Nat.eq_zero_or_pos history.capacity with none | some
    · simp [none]
    · simp only [getLast?_rtake some, Nat.ne_of_gt some, false_or]
      split
      · rfl
      · exact evict_rtake some
  within := fun place shown => by
    rw [position_push] at shown
    contradiction

/-- Browsing keeps what the history holds if it stays within the entries. -/
theorem browse (holds : history.Holds lines) (entries : later.entries = history.entries)
    (capacity : later.capacity = history.capacity)
    (within : ∀ place, later.position = some place → place < history.entries.length) :
    later.Holds lines where
  entries := by rw [entries, capacity, holds.entries]
  within := by rwa [entries]

theorem view (holds : history.Holds lines) (within : place < history.entries.length) :
    ∃ shown later, history.view place = .ok (shown, later) ∧
      later.capacity = history.capacity ∧ later.Holds lines :=
  ⟨_, _, view_of_lt within, rfl, holds.browse rfl rfl fun _ shown => by cases shown; exact within⟩

theorem previous (holds : history.Holds lines) (current : String) :
    ∃ shown later, history.previous current = .ok (shown, later) ∧
      later.capacity = history.capacity ∧ later.Holds lines := by
  unfold History.previous
  split
  · exact ⟨none, history, rfl, rfl, holds⟩
  · rename_i some
    split
    · have started : Holds { history with draft := current } lines :=
        holds.browse rfl rfl holds.within
      have length := List.length_pos_of_ne_nil (mt List.isEmpty_iff.mpr some)
      exact started.view (Nat.sub_lt length Nat.one_pos)
    · exact ⟨none, history, rfl, rfl, holds⟩
    · rename_i place shown
      exact holds.view (Nat.lt_of_succ_lt (holds.within _ shown))

theorem next (holds : history.Holds lines) :
    ∃ shown later, history.next = .ok (shown, later) ∧
      later.capacity = history.capacity ∧ later.Holds lines := by
  unfold History.next
  split
  · exact ⟨none, history, rfl, rfl, holds⟩
  · split
    · rename_i within
      exact holds.view within
    · exact ⟨_, _, rfl, rfl, holds.browse rfl rfl fun _ shown => nomatch shown⟩

theorem move (holds : history.Holds lines) (step : Move) :
    ∃ shown later, history.move step = .ok (shown, later) ∧
      later.capacity = history.capacity ∧ later.Holds (lines ++ step.pushed?.toList) := by
  cases step with
  | push line => exact ⟨none, _, rfl, capacity_push, holds.push⟩
  | previous current => exact (List.append_nil lines).symm ▸ holds.previous current
  | next => exact (List.append_nil lines).symm ▸ holds.next
  | reset => exact ⟨none, _, rfl, rfl, (List.append_nil lines).symm ▸ holds.reset⟩

theorem run (holds : history.Holds lines) (moves : List Move) :
    ∃ shown later, run moves history = .ok (shown, later) ∧
      later.capacity = history.capacity ∧ later.Holds (lines ++ moves.filterMap Move.pushed?) := by
  induction moves generalizing history lines with
  | nil => exact ⟨[], history, rfl, rfl, by simpa using holds⟩
  | cons first moves ih =>
      obtain ⟨shown, middle, moved, capacity, kept⟩ := holds.move first
      obtain ⟨others, later, onward, same, last⟩ := ih kept
      refine ⟨shown :: others, later, run_cons moved onward, same.trans capacity, ?_⟩
      cases pushed : first.pushed? <;> simpa [pushed] using last

end Holds

/-- Back from a place: the entries before it, and nothing once the oldest is in view. -/
theorem run_previous (shown : history.position = some place) (within : place < history.entries.length) :
    run (List.replicate count (.previous current)) history =
      .ok (((history.entries.take place).rtake count).reverse.map some ++
        List.replicate (count - place) none, { history with position := some (place - count) }) := by
  -- on the moves; each of them starts where the one before it ended
  induction count generalizing history place with
  | zero =>
      simp only [List.replicate_zero, run, List.rtake_zero, Nat.zero_sub, Nat.sub_zero, ← shown]
      rfl
  | succ count ih =>
      have filled : history.entries.isEmpty = false := by
        simpa using List.ne_nil_of_length_pos (Nat.zero_lt_of_lt within)
      cases place with
      | zero =>
          have stays : history.move (.previous current) = .ok (none, history) := by
            simp [move, previous, filled, shown]
          rw [List.replicate_succ, run_cons stays (ih shown within)]
          simp [List.replicate_succ]
      | succ place =>
          have before : place < history.entries.length := Nat.lt_of_succ_lt within
          have moved : history.move (.previous current) =
              .ok (some history.entries[place], { history with position := some place }) := by
            simp [move, previous, filled, shown, view_of_lt before]
          rw [List.replicate_succ, run_cons moved (ih rfl before), List.take_succ_eq_append_getElem before,
            List.rtake_concat_succ]
          simp

/-- Back from the line being typed: the newest entries. -/
theorem run_previous_of_start (atRest : history.position = none) (filled : history.entries ≠ [])
    (pressed : 0 < count) :
    run (List.replicate count (.previous current)) history =
      .ok ((history.entries.rtake count).reverse.map some ++
        List.replicate (count - history.entries.length) none,
        { history with position := some (history.entries.length - count), draft := current }) := by
  obtain ⟨count, rfl⟩ := Nat.exists_eq_add_one.mpr pressed
  obtain ⟨older, newest, shape⟩ := (List.eq_nil_or_concat' history.entries).resolve_left filled
  have within : older.length < history.entries.length := by simp [shape]
  have moved : history.move (.previous current) =
      .ok (some newest, { history with position := some older.length, draft := current }) := by
    have viewed := @view_of_lt { history with draft := current } older.length within
    simpa [move, previous, atRest, shape] using viewed
  have onward := @run_previous { history with position := some older.length, draft := current }
    current older.length count rfl within
  rw [List.replicate_succ, run_cons moved onward]
  simp [shape, List.rtake_concat_succ]

/-- Forth from a place: the entries after it, and then the draft. -/
theorem run_next (shown : history.position = some place)
    (enough : place + (count + 1) = history.entries.length) :
    run (List.replicate (count + 1) .next) history =
      .ok ((history.entries.drop (place + 1) ++ [history.draft]).map some,
        { history with position := none }) := by
  induction count generalizing history place with
  | zero =>
      have last : history.move .next = .ok (some history.draft, { history with position := none }) := by
        simp [move, next, shown, ← enough]
      have rest : run [] { history with position := none } =
          .ok ([], { history with position := none }) := rfl
      simp [run_cons last rest, ← enough]
  | succ count ih =>
      have within : place + 1 < history.entries.length := by omega
      have moved : history.move .next =
          .ok (some history.entries[place + 1], { history with position := some (place + 1) }) := by
        simp [move, next, shown, within, view_of_lt within]
      have onward := @ih { history with position := some (place + 1) } (place + 1) rfl (by simp; omega)
      rw [List.replicate_succ, run_cons moved onward, List.drop_eq_getElem_cons within,
        List.cons_append, List.map_cons]

theorem run_next_of_rest (atRest : history.position = none) :
    run (List.replicate count .next) history = .ok (List.replicate count none, history) := by
  induction count with
  | zero => rfl
  | succ count ih =>
      have stays : history.move .next = .ok (none, history) := by simp [move, next, atRest]
      exact run_cons stays ih

theorem run_previous_of_nil (nothing : history.entries = []) :
    run (List.replicate count (.previous current)) history =
      .ok (List.replicate count none, history) := by
  induction count with
  | zero => rfl
  | succ count ih =>
      have stays : history.move (.previous current) = .ok (none, history) := by
        simp [move, previous, nothing]
      exact run_cons stays ih

/-- There and back from the line being typed.  Without an entry or a move there is
nothing to come back from. -/
theorem browse_there_and_back (atRest : history.position = none) (count : Nat) (draft : String) :
    ∃ there back forth,
      run (List.replicate count (.previous draft)) history =
        .ok ((history.entries.rtake count).reverse.map some ++
          List.replicate (count - history.entries.length) none, there) ∧
      run (List.replicate (min count history.entries.length) .next) there = .ok (forth, back) ∧
      (history.entries ≠ [] → 0 < count →
        forth = ((history.entries.rtake count).tail ++ [draft]).map some) ∧
      ∀ further, run (List.replicate further .next) back =
        .ok (List.replicate further none, back) := by
  rcases Nat.eq_zero_or_pos count with rfl | pressed
  · refine ⟨history, history, [], by simp [run], by simp [run], fun _ pressed => ?_,
      fun _ => run_next_of_rest atRest⟩
    contradiction
  · by_cases filled : history.entries = []
    · refine ⟨history, history, [], ?_, by simp [filled, run], fun some => absurd filled some,
        fun _ => run_next_of_rest atRest⟩
      rw [run_previous_of_nil filled]
      simp [filled]
    · have length := List.length_pos_of_ne_nil filled
      obtain ⟨rest, visited⟩ := Nat.exists_eq_add_one.mpr (Nat.lt_min.mpr ⟨pressed, length⟩)
      refine ⟨_, { history with draft }, _, run_previous_of_start atRest filled pressed, ?_,
        fun _ _ => rfl, fun _ => run_next_of_rest atRest⟩
      rw [visited, run_next rfl (by simp only; omega), List.rtake, List.tail_drop, ← atRest]

/-- After any moves a history holds the newest of the lines that are worth keeping, and
what is in view is one of them.  From the line being typed, moves back show the newest
entries; as many moves forth show them again and end at that line, where they stay. -/
theorem entries_and_browsing (capacity : Nat) (moves : List Move) :
    ∃ shown history, run moves { capacity } = .ok (shown, history) ∧
      history.entries = (worthKeeping (moves.filterMap Move.pushed?)).rtake capacity ∧
      (∀ place, history.position = some place → place < history.entries.length) ∧
      ∀ count draft, history.position = none →
        ∃ there back forth,
          run (List.replicate count (.previous draft)) history =
            .ok ((history.entries.rtake count).reverse.map some ++
              List.replicate (count - history.entries.length) none, there) ∧
          run (List.replicate (min count history.entries.length) .next) there =
            .ok (forth, back) ∧
          (history.entries ≠ [] → 0 < count →
            forth = ((history.entries.rtake count).tail ++ [draft]).map some) ∧
          ∀ further, run (List.replicate further .next) back =
            .ok (List.replicate further none, back) := by
  obtain ⟨shown, history, done, same, holds⟩ := (holds_new capacity).run moves
  refine ⟨shown, history, done, ?_, holds.within,
    fun count draft atRest => browse_there_and_back atRest count draft⟩
  rw [holds.entries, same, List.nil_append]

/-- Of four lines two are kept; three moves back and two forth pass both of them. -/
theorem two_entries_browsed :
    let moves : List Move :=
      [.push " vlan 1 ", .push "exit", .previous "sh", .push "exit ", .push "pwc"]
    let history : History := { capacity := 2, entries := ["exit", "pwc"] }
    run moves { capacity := 2 } = .ok ([none, none, some "exit", none, none], history) ∧
      history.entries = (worthKeeping [" vlan 1 ", "exit", "exit ", "pwc"]).rtake 2 ∧
      ∃ there back,
        run (List.replicate 3 (.previous "sh")) history =
          .ok ([some "pwc", some "exit", none], there) ∧
        run (List.replicate 2 .next) there = .ok ([some "pwc", some "sh"], back) ∧
        run (List.replicate 4 .next) back = .ok (List.replicate 4 none, back) := by
  intro moves history
  have reached : run moves { capacity := 2 } = .ok ([none, none, some "exit", none, none], history) := by
    decide +kernel
  obtain ⟨shown, _, done, entries, _, browsed⟩ := entries_and_browsing 2 moves
  cases reached.symm.trans done
  obtain ⟨there, back, forth, gone, returned, passed, stayed⟩ := browsed 3 "sh" rfl
  obtain rfl := passed (List.cons_ne_nil _ _) (by decide)
  exact ⟨reached, entries, there, back, gone, returned, stayed 4⟩

end SwitchShell.History

import SwitchShell.Proofs.Feature.Settings
import SwitchShell.Proofs.Store.SingleRow
import SwitchShell.Proofs.Text.Numeral

namespace SwitchShell.Feature.Lldp

variable {counter : String} {row later : Row} {memory : Memory}
  {words : List String} {phrases : List Phrase} {phrase : Phrase} {what : String} {negated : Bool}

/-- The counter that a wish to clear something raises. -/
def counterOf (what : String) : String :=
  if what = "counters" then "lldp_num_clear_counters_requested"
  else "lldp_num_clear_table_requested"

/-- The number that is stored, or zero. -/
def countOf (counter : String) (row : Row) : Nat :=
  ((Dictionary.find? counter (row.mapAt "status")).bind (Text.unsigned? Text.maxUnsigned64)).getD 0

/-- The counter is the next number, and the rest of the status is as it was. -/
structure Advances (counter : String) (row later : Row) : Prop where
  next : countOf counter later = countOf counter row + 1
  text : Dictionary.find? counter (later.mapAt "status") = some (toString (countOf counter later))
  others : ∀ key, key ≠ counter → Dictionary.find? key (later.mapAt "status") =
    Dictionary.find? key (row.mapAt "status")

theorem countOf_le : countOf counter row ≤ Text.maxUnsigned64 := by
  unfold countOf
  cases read : (Dictionary.find? counter (row.mapAt "status")).bind
      (Text.unsigned? Text.maxUnsigned64) with
  | none => exact Nat.zero_le _
  | some number =>
      obtain ⟨_, _, numeral⟩ := Option.bind_eq_some_iff.mp read
      exact Text.unsigned?_le numeral

/-- The counter of a row can be raised up to the last number. -/
theorem nextCount_eq :
    nextCount (Dictionary.find? counter (row.mapAt "status")) =
      if countOf counter row < Text.maxUnsigned64 then .ok (countOf counter row + 1)
      else .error .overflow := rfl

/-- The row after a request, with the number that follows the one it reads. -/
def advance (counter : String) (row : Row) : Row :=
  row.put "status" counter (some (toString (countOf counter row + 1)))

theorem mapAt_advance :
    (advance counter row).mapAt "status" =
      Dictionary.put counter (some (toString (countOf counter row + 1))) (row.mapAt "status") := by
  rw [advance, Row.mapAt_put, if_pos rfl]

theorem countOf_advance (notLast : countOf counter row < Text.maxUnsigned64) :
    countOf counter (advance counter row) = countOf counter row + 1 := by
  rw [countOf, mapAt_advance, Dictionary.find?_put, if_pos rfl, Option.bind_some,
    Text.unsigned?_toString notLast, Option.getD_some]

theorem advances_advance (notLast : countOf counter row < Text.maxUnsigned64) :
    Advances counter row (advance counter row) where
  next := countOf_advance notLast
  text := by rw [countOf_advance notLast, mapAt_advance, Dictionary.find?_put, if_pos rfl]
  others _ other := by rw [mapAt_advance, Dictionary.find?_put, if_neg other]

theorem mapAt_status {before : Row}
    (same : Dictionary.find? "status" before = Dictionary.find? "status" row) :
    before.mapAt "status" = row.mapAt "status" := by
  rw [Row.mapAt, same, Row.mapAt]

theorem countOf_of_status {before : Row}
    (same : Dictionary.find? "status" before = Dictionary.find? "status" row) :
    countOf counter before = countOf counter row := by
  rw [countOf, mapAt_status same, countOf]

theorem Advances.of_status {before : Row} (advances : Advances counter before later)
    (same : Dictionary.find? "status" before = Dictionary.find? "status" row) :
    Advances counter row later where
  next := countOf_of_status same ▸ advances.next
  text := advances.text
  others := mapAt_status same ▸ advances.others

theorem find?_advance {column : String} (other : column ≠ "status") :
    Dictionary.find? column (advance counter row) = Dictionary.find? column row :=
  Row.find?_put_of_ne other

/-- The request reads the counter of the one system row. -/
theorem exists_answer_requestClear (single : memory.rows systemTable = [row]) (counter : String) :
    ∃ middle, Memory.Replaces systemTable [row] memory middle ∧
      Query.answer Memory.transact (requestClear counter) memory =
        Query.answer Memory.transact (do
          let next ← ExceptT.mk (pure (nextCount (Dictionary.find? counter (row.mapAt "status"))))
          Query.mapSetKey systemTable "status" counter (toString next) []) middle := by
  obtain ⟨middle, asked, kept⟩ :=
    (Memory.alone_single row).answer_getMap single (List.forall_mem_nil _) "status"
  exact ⟨middle, kept, by rw [requestClear, Query.answer_bind, asked]⟩

/-- It writes the next number. -/
theorem answer_requestClear (single : memory.rows systemTable = [row])
    (notLast : countOf counter row < Text.maxUnsigned64) :
    ∃ after, Query.answer Memory.transact (requestClear counter) memory = (.ok (), after) ∧
      Memory.Replaces systemTable [advance counter row] memory after := by
  obtain ⟨middle, kept, same⟩ := exists_answer_requestClear single counter
  obtain ⟨after, written, replaced⟩ :=
    (Memory.alone_single row).answer_set kept.rows (List.forall_mem_nil _) "status" counter
      (toString (countOf counter row + 1))
  refine ⟨after, ?_, kept.trans replaced⟩
  rw [same, nextCount_eq, if_pos notLast]
  exact written

/-- It writes nothing if there is no next number. -/
theorem answer_requestClear_of_last (single : memory.rows systemTable = [row])
    (last : countOf counter row = Text.maxUnsigned64) :
    ∃ after, Query.answer Memory.transact (requestClear counter) memory =
        (.error .overflow, after) ∧ Memory.Replaces systemTable [row] memory after := by
  obtain ⟨middle, kept, same⟩ := exists_answer_requestClear single counter
  refine ⟨middle, ?_, kept⟩
  rw [same, nextCount_eq, if_neg (Nat.not_lt.mpr last.ge)]
  rfl

/-- A line that asks to clear something changes its settings first. -/
theorem Spells.requests_eq_concat (spells : Spells words phrases) (member : phrase ∈ phrases)
    (same : phrase.wish = .clear what) :
    requests (argumentsOf negated phrases) =
      (changes (argumentsOf negated phrases)).map (fun change => .setting change.1 change.2) ++
        [.clear (counterOf what)] := by
  rw [requests_eq_append, spells.word?_clear_iff.mpr ⟨phrase, member, same⟩]
  rfl

/-- The requests of such a line come down to the last one when the settings are made. -/
theorem Spells.answer_requests (spells : Spells words phrases) (member : phrase ∈ phrases)
    (same : phrase.wish = .clear what) (single : memory.rows systemTable = [row]) :
    ∃ middle, Memory.Replaces systemTable
        [settle (changes (argumentsOf negated phrases)) row] memory middle ∧
      Query.answer Memory.transact
          (Request.inTurn (requests (argumentsOf negated phrases))) memory =
        Query.answer Memory.transact (requestClear (counterOf what)) middle := by
  have found : Dictionary.find? systemTable memory.tables = some [row] :=
    @Memory.find?_of_present _ _ [] [] row single
  obtain ⟨middle, settled, revised⟩ := revised_settings (Option.isSome_of_eq_some found)
    (changes (argumentsOf negated phrases))
  refine ⟨middle,
    ⟨revised.serial, revised.elsewhere, by rw [Memory.rows, revised.rows, found]; rfl⟩, ?_⟩
  rw [spells.requests_eq_concat member same, Request.inTurn_append, Query.answer_bind, settled,
    Request.inTurn_singleton, ← Request.requestClear_eq]

end SwitchShell.Feature.Lldp

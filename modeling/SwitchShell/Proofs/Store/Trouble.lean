import SwitchShell.Proofs.Command.Faults
import SwitchShell.Proofs.Store.Transaction

namespace SwitchShell

/-- The fault tells of trouble with the database. -/
def Fault.IsDatabase (fault : Fault) : Prop :=
  ∃ trouble, fault = .database trouble

section Results

variable {α β : Type} {kind : Fault → Prop}

theorem FaultIn.bind {result : Except Fault α} {next : α → Except Fault β}
    (first : FaultIn kind result) (others : ∀ value, FaultIn kind (next value)) :
    FaultIn kind (result >>= next) := by
  cases result with
  | error fault => exact faultIn_error (first fault rfl)
  | ok value => exact others value

theorem faultIn_filterM {test : α → Except Fault Bool} (each : ∀ item, FaultIn kind (test item))
    (items : List α) : FaultIn kind (items.filterM test) := by
  have gathered : ∀ front, FaultIn kind (items.filterAuxM test front) := by
    induction items with
    | nil => exact faultIn_ok
    | cons item items ih => exact fun front => (each item).bind fun _ => ih _
  exact (gathered []).bind fun kept => faultIn_ok kept.reverse

theorem faultIn_foldlM {change : β → α → Except Fault β}
    (each : ∀ state item, FaultIn kind (change state item)) (items : List α) (state : β) :
    FaultIn kind (items.foldlM change state) := by
  induction items generalizing state with
  | nil => exact faultIn_ok state
  | cons item items ih =>
      rw [List.foldlM_cons]
      exact (each state item).bind fun later => ih later

end Results

namespace Memory

open Fault

variable {operations : List Operation} {memory : Memory}

theorem faultIn_holds (row : Row) (condition : Condition) :
    FaultIn IsDatabase (holds row condition) := by
  unfold holds
  extract_lets actual
  split
  · exact faultIn_ok _
  · split
    · exact faultIn_ok _
    · exact faultIn_error ⟨_, rfl⟩

theorem faultIn_holdsAll (row : Row) (conditions : List Condition) :
    FaultIn IsDatabase (holdsAll row conditions) := by
  induction conditions with
  | nil => exact faultIn_ok true
  | cons condition conditions ih =>
      unfold holdsAll
      refine (faultIn_holds row condition).bind fun held => ?_
      split
      · exact ih
      · exact faultIn_ok false

theorem faultIn_mutateRow (row : Row) (mutation : Mutation) :
    FaultIn IsDatabase (mutateRow row mutation) := by
  have entries : FaultIn IsDatabase (mutateMap (row.mapAt mutation.column) mutation) := by
    unfold mutateMap
    split
    · exact faultIn_ok _
    · split
      · exact faultIn_ok _
      · exact faultIn_error ⟨_, rfl⟩
  exact entries.bind fun _ => faultIn_ok _

theorem faultIn_changeRows {change : Row → Except Fault Row} (conditions : List Condition)
    (each : ∀ row, FaultIn IsDatabase (change row)) (rows : List Row) :
    FaultIn IsDatabase (changeRows conditions change rows) := by
  induction rows with
  | nil => exact faultIn_ok _
  | cons row rows ih =>
      unfold changeRows
      refine (faultIn_holdsAll row conditions).bind fun held => ?_
      split
      · exact (each row).bind fun _ => ih.bind fun _ => faultIn_ok _
      · exact ih.bind fun _ => faultIn_ok _

theorem faultIn_executeOn (serial : Nat) (rows : List Row) (operation : Operation) :
    FaultIn IsDatabase (executeOn serial rows operation) := by
  cases operation with
  | select table conditions columns =>
      exact (faultIn_filterM (fun row => faultIn_holdsAll row conditions) rows).bind
        fun _ => faultIn_ok _
  | insert table row => exact faultIn_ok _
  | update table conditions values =>
      exact (faultIn_changeRows conditions (fun _ => faultIn_ok _) rows).bind fun _ => faultIn_ok _
  | mutate table conditions mutations =>
      refine (faultIn_changeRows conditions (fun row => ?_) rows).bind fun _ => faultIn_ok _
      exact faultIn_foldlM faultIn_mutateRow mutations row

theorem faultIn_execute : FaultIn IsDatabase (execute operations memory).1 := by
  induction operations generalizing memory with
  | nil => exact faultIn_ok _
  | cons operation operations ih =>
      unfold execute
      split
      · exact faultIn_error ⟨_, rfl⟩
      · rename_i rows _
        split
        · rename_i failed
          exact faultIn_error (faultIn_executeOn _ rows operation _ failed)
        · split
          · exact faultIn_ok _
          · rename_i failed
            exact faultIn_error (ih _ (congrArg Prod.fst failed))

theorem faultIn_transact : FaultIn IsDatabase (transact operations memory).1 := by
  unfold transact
  split
  · exact faultIn_ok _
  · rename_i failed
    exact faultIn_error (faultIn_execute _ (congrArg Prod.fst failed))

end Memory

/-- Whatever falls into the outage, the transactions fail with faults of the database. -/
theorem Journal.faultIn_of_plays {outage : Nat → Bool} {trouble : DatabaseTrouble}
    {exchanges : List Exchange} {before after : Journal Memory}
    (plays : Plays (transact outage (.database trouble) Memory.transact) before exchanges after) :
    ∀ exchange ∈ exchanges, FaultIn Fault.IsDatabase exchange.answer := by
  induction plays with
  | nil journal => exact List.forall_mem_nil _
  | @cons before after exchange exchanges answered others ih =>
      refine List.forall_mem_cons.mpr ⟨?_, ih⟩
      rw [← answered]
      rcases fails_or_reaches before with ⟨failed, _⟩ | reached
      · rw [failed]
        exact faultIn_error ⟨trouble, rfl⟩
      · rw [(Prod.mk.inj reached).1]
        exact Memory.faultIn_transact

end SwitchShell

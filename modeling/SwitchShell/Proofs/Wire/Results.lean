import SwitchShell.Proofs.Store.Sequence
import SwitchShell.Proofs.Wire.Replies

namespace SwitchShell

namespace Wire

/-- An item of a reply that is read as a result and reports no error. -/
def Message.Gives (item : Json) (result : OperationResult) : Prop :=
  OperationResult.ofItem? item = some result ∧ result.error = none

variable {message : Message} {items : List Json} {results : List OperationResult}

theorem Message.readResults_eq_ok_iff :
    readResults items = .ok results ↔ List.Forall₂ Gives items results := by
  induction items generalizing results with
  | nil => simp [readResults, eq_comm]
  | cons item items ih =>
      rw [List.forall₂_cons_left_iff]
      unfold readResults
      cases read : OperationResult.ofItem? item with
      | none => simp [Gives, read]
      | some result =>
          cases reported : result.error with
          | some error => simp [Gives, read, reported]
          | none =>
              cases others : readResults items with
              | error fault => simp [Gives, read, reported, ← ih, others, Except.map]
              | ok later => simp [Gives, read, reported, ← ih, others, Except.map, eq_comm]

theorem Message.exists_results (readable : ∀ item ∈ items, ∃ result, Gives item result) :
    ∃ results, List.Forall₂ Gives items results := by
  induction items with
  | nil => exact ⟨[], .nil⟩
  | cons item items ih =>
      obtain ⟨⟨result, first⟩, others⟩ := List.forall_mem_cons.mp readable
      obtain ⟨results, later⟩ := ih others
      exact ⟨result :: results, .cons first later⟩

theorem Message.gives_of_mem (read : List.Forall₂ Gives items results) :
    ∀ item ∈ items, ∃ result, Gives item result := by
  induction read with
  | nil => simp
  | cons first _ ih => exact List.forall_mem_cons.mpr ⟨⟨_, first⟩, ih⟩

/-- The results are those of the items of the reply, unless one of them fails. -/
theorem Message.results_eq_ok_iff :
    message.results = .ok results ↔
      ∃ items, message.error = .null ∧ message.result = .array items ∧
        List.Forall₂ Gives items results := by
  unfold Message.results
  cases message.error with
  | null =>
      cases message.result with
      | array items => simp [readResults_eq_ok_iff]
      | _ => simp
  | _ => simp

namespace Client

variable {client : Client} {server : Server} {operations : List Operation}

theorem transact_eq_ok_iff :
    (transact server operations client).1 = .ok results ↔
      ∃ message items,
        client.exchange client.nextId
            (server (request client.database operations client.nextId)) = .ok message ∧
          message.error = .null ∧ message.result = .array items ∧
          List.Forall₂ Message.Gives items results := by
  change (client.exchange client.nextId _).bind Message.results = _ ↔ _
  cases client.exchange client.nextId
      (server (request client.database operations client.nextId)) with
  | error fault => simp [Except.bind]
  | ok message => simp [Except.bind, Message.results_eq_ok_iff]

/-- The database in memory gives one result for each operation.  A client does so
for those replies alone that have as many items as there are operations: the items
are not counted. -/
theorem result_per_operation_iff (memory : Memory) (client : Client) (server : Server)
    (operations : List Operation) :
    (∀ results, (Memory.transact operations memory).1 = .ok results →
      results.length = operations.length) ∧
    ((∀ results, (transact server operations client).1 = .ok results →
        results.length = operations.length) ↔
      ∀ message items,
        client.exchange client.nextId
            (server (request client.database operations client.nextId)) = .ok message →
          message.error = .null → message.result = .array items →
          (∀ item ∈ items, ∃ result, Message.Gives item result) →
          items.length = operations.length) := by
  refine ⟨fun results answered => Memory.length_of_transact answered, ?_, ?_⟩
  · intro counted message items received intact listed readable
    obtain ⟨results, read⟩ := Message.exists_results readable
    rw [read.length_eq]
    exact counted results (transact_eq_ok_iff.mpr ⟨message, items, received, intact, listed, read⟩)
  · intro counted results answered
    obtain ⟨message, items, received, intact, listed, read⟩ := transact_eq_ok_iff.mp answered
    rw [← read.length_eq]
    exact counted message items received intact listed (Message.gives_of_mem read)

/-- A reply without items answers every operation.  It is taken for a table without
rows, and for a change of no row. -/
theorem missing_result_answers :
    let client : Client :=
      { address := .tcp "127.0.0.1" 6640, database := "OpenSwitch", timeout := 1000 }
    let text := Text.bytes "\x7b\"id\":0,\"result\":[]\x7d"
    let server : Server := fun _ => .accepted (.ofChunks [text] .closed)
    (transact server [.select vlanTable [] none] client).1 = .ok [] ∧
      (Query.answer (transact server) (Query.select vlanTable [] none) client).1 = .ok [] ∧
      (Query.answer (transact server) (Query.update vlanTable [] []) client).1 = .ok 0 ∧
      (Query.answer (transact server) (Query.mutate vlanTable [] []) client).1 = .ok 0 := by
  intro client text server
  let reply : Printout := {
    members := [("id", .integer 0), ("result", .array [])]
    gap := []
    printable := Json.Plain.printable (by simp [Json.maxDepth, Text.maxSigned64, Text.maxUnsigned64])
    ordered := .object (Dictionary.sorted_of_names ["id", "result"] rfl (by decide))
      (by simp [Json.ordered_array_iff])
    blank := by simp }
  have arrives : (Stream.ofChunks [text] .closed).remaining =
      [] ++ (([] : List Printout).flatMap Printout.bytes ++ (reply.bytes ++ [])) := by
    rw [Stream.remaining_ofChunks]
    decide +kernel
  obtain ⟨message, found, answer⟩ :=
    awaitAnswer_of_reply [] reply (Nat.zero_le _) (by simp) (by simp) rfl arrives
  have answered (operations : List Operation) :
      transact server operations client = (.ok [], { client with nextId := 1 }) := by
    change ((awaitAnswer 0 _ _).bind Message.results, _) = _
    rw [answer]
    cases found
    rfl
  refine ⟨congrArg Prod.fst (answered _), ?_, ?_, ?_⟩
  · rw [Query.select, Query.answer_bind, Query.answer_transact, answered]
    rfl
  · rw [Query.update, Query.answer_bind, Query.answer_transact, answered]
    rfl
  · rw [Query.mutate, Query.answer_bind, Query.answer_transact, answered]
    rfl

end Client

end Wire

end SwitchShell

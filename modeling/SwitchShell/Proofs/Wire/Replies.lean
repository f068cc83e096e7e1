import SwitchShell.Proofs.Wire.Documents
import SwitchShell.Wire.Client

namespace SwitchShell.Wire

/-! A call is answered by the first message with its own number.

The numbers count the calls, whatever became of the ones before.  Messages
with another number, or with one that is no whole number, are skipped.
-/

open Text (Bytes)

variable {id : Nat} {lead rest : Bytes} {stream : Stream} {chunks : List Bytes} {ending : Ending}

theorem unsigned?_eq_some_iff {value : Json} (small : id ≤ Text.maxUnsigned64) :
    value.unsigned? = some id ↔ value = .integer id := by
  cases value with
  | integer number =>
      rw [Json.unsigned?, Json.integer.injEq]
      split
      · rw [Option.some.injEq]
        omega
      · simp only [reduceCtorEq, false_iff]
        omega
  | _ => simp [Json.unsigned?]

/-- An object as a server prints it, and white space behind it. -/
structure Printout where
  members : Dictionary Json
  gap : Bytes
  printable : (Json.object members).Printable Json.maxDepth
  ordered : (Json.object members).Ordered
  blank : ∀ byte ∈ gap, isGap byte = true

namespace Printout

def bytes (printout : Printout) : Bytes :=
  Text.bytes (Json.object printout.members).render ++ printout.gap

/-- The object as it is read. -/
def value (printout : Printout) : Json :=
  (Json.object printout.members).reread

/-- The number of the object is the whole number `id`. -/
def Carries (printout : Printout) (id : Nat) : Prop :=
  Dictionary.find? "id" printout.members = some (.integer id)

theorem exists_message (printout : Printout) (small : id ≤ Text.maxUnsigned64) :
    ∃ message, Message.ofJson? printout.value = some message ∧
      (message.answers id = true ↔ printout.Carries id) := by
  have sorted : Dictionary.Sorted printout.members := (Json.ordered_object_iff.mp printout.ordered).1
  have value : printout.value = .object (Json.rereadMembers printout.members) := by
    rw [Printout.value, Json.reread, Dictionary.ofPairs_of_sorted (Json.sorted_rereadMembers sorted)]
  rw [value]
  refine ⟨_, rfl, ?_⟩
  rw [Message.answers, beq_iff_eq, unsigned?_eq_some_iff small, Carries, Json.find?_rereadMembers]
  cases Dictionary.find? "id" printout.members with
  | none => simp
  | some number => simp [Json.reread_eq_integer_iff]

theorem length_le_flatMap (printouts : List Printout) :
    printouts.length ≤ (printouts.flatMap bytes).length := by
  induction printouts with
  | nil => exact Nat.le_refl 0
  | cons printout printouts ih =>
      obtain ⟨head, others, split, _⟩ := Json.begins_written printout.printable
      rw [List.flatMap_cons, List.length_append, bytes, Json.bytes_render, split]
      simp only [List.length_cons, List.cons_append]
      omega

end Printout

/-- The next object is taken from the stream. -/
theorem next_of_printout (printout : Printout) (blank : ∀ byte ∈ lead, isGap byte = true)
    (arrives : stream.remaining = lead ++ (printout.bytes ++ rest)) :
    ∃ after, stream.next = (.ok printout.value, after) ∧
      after.remaining = printout.gap ++ rest ∧ after.ending = stream.ending := by
  rw [Printout.bytes, Json.bytes_render, List.append_assoc, ← List.append_assoc] at arrives
  exact Stream.next_of_reads (fun _ => reads_document blank rfl printout.printable) arrives

namespace Client

/-- Messages without the number are skipped. -/
theorem awaitAnswer_of_skipped (fuel : Nat) (skipped : List Printout)
    (small : id ≤ Text.maxUnsigned64) (blank : ∀ byte ∈ lead, isGap byte = true)
    (others : ∀ printout ∈ skipped, ¬ printout.Carries id)
    (arrives : stream.remaining = lead ++ (skipped.flatMap Printout.bytes ++ rest)) :
    ∃ after gap, awaitAnswer id (skipped.length + fuel) stream = awaitAnswer id fuel after ∧
      (∀ byte ∈ gap, isGap byte = true) ∧ after.remaining = gap ++ rest ∧
      after.ending = stream.ending := by
  induction skipped generalizing stream lead with
  | nil => exact ⟨stream, lead, by rw [List.length_nil, Nat.zero_add], blank, arrives, rfl⟩
  | cons printout skipped ih =>
      rw [List.flatMap_cons, List.append_assoc] at arrives
      obtain ⟨next, taken, left, same⟩ := next_of_printout printout blank arrives
      obtain ⟨message, found, answers⟩ := printout.exists_message small
      have unanswered : message.answers id = false := by
        rw [← Bool.not_eq_true, answers]
        exact others printout List.mem_cons_self
      obtain ⟨after, gap, later, blanks, remains, ends⟩ :=
        ih printout.blank (fun other member => others other (List.mem_cons_of_mem printout member)) left
      refine ⟨after, gap, ?_, blanks, remains, ends.trans same⟩
      rw [← later, List.length_cons, Nat.add_right_comm, awaitAnswer, taken]
      simp only [found, unanswered, Bool.false_eq_true, ↓reduceIte]

theorem length_le_size (printouts : List Printout)
    (arrives : stream.remaining = lead ++ (printouts.flatMap Printout.bytes ++ rest)) :
    printouts.length ≤ stream.size := by
  have size : stream.size = stream.remaining.length := by
    rw [Stream.size, Stream.remaining, List.length_append]
  have few := Printout.length_le_flatMap printouts
  rw [size, arrives, List.length_append, List.length_append]
  omega

/-- The first message with the number is the answer. -/
theorem awaitAnswer_of_reply (skipped : List Printout) (reply : Printout)
    (small : id ≤ Text.maxUnsigned64) (blank : ∀ byte ∈ lead, isGap byte = true)
    (others : ∀ printout ∈ skipped, ¬ printout.Carries id) (own : reply.Carries id)
    (arrives : stream.remaining = lead ++ (skipped.flatMap Printout.bytes ++ (reply.bytes ++ rest))) :
    ∃ message, Message.ofJson? reply.value = some message ∧
      awaitAnswer id (stream.size + 1) stream = .ok message := by
  obtain ⟨more, total⟩ := Nat.exists_eq_add_of_le (length_le_size skipped arrives)
  obtain ⟨after, gap, same, blanks, left, _⟩ :=
    awaitAnswer_of_skipped (more + 1) skipped small blank others arrives
  obtain ⟨_, taken, _⟩ := next_of_printout reply blanks left
  obtain ⟨message, found, answers⟩ := reply.exists_message small
  refine ⟨message, found, ?_⟩
  rw [total, Nat.add_assoc, same, awaitAnswer, taken]
  simp only [found, answers.mpr own, ↓reduceIte]

/-- Without such a message the stream is read to its end. -/
theorem awaitAnswer_of_none (printouts : List Printout) (small : id ≤ Text.maxUnsigned64)
    (blank : ∀ byte ∈ lead, isGap byte = true)
    (others : ∀ printout ∈ printouts, ¬ printout.Carries id)
    (arrives : stream.remaining = lead ++ printouts.flatMap Printout.bytes) :
    awaitAnswer id (stream.size + 1) stream = .error stream.ending.fault := by
  rw [← List.append_nil (printouts.flatMap _)] at arrives
  obtain ⟨more, total⟩ := Nat.exists_eq_add_of_le (length_le_size printouts arrives)
  obtain ⟨after, gap, same, blanks, left, ends⟩ :=
    awaitAnswer_of_skipped (more + 1) printouts small blank others arrives
  rw [List.append_nil] at left
  obtain ⟨last, later, taken⟩ : ∃ last later, after.next = (last, later) := ⟨_, _, rfl⟩
  have nothing : last = .error stream.ending.fault := by
    rw [← ends, ← Stream.next_of_blank (left ▸ blanks), taken]
  rw [total, Nat.add_assoc, same, awaitAnswer, taken, nothing]

variable {client : Client} {server : Server} {operations : List Operation}
  {calls : List (Server × List Operation)}

/-- A server that writes down the requests it gets. -/
def recorded (server : Server) (request : Json) (_ : Stream → Bool) :
    StateM (List Json) Connection := do
  modify (· ++ [request])
  return server request

/-- Calls in a row on one client, each with the server it reaches. -/
def callAll : List (Server × List Operation) → StateT Client (StateM (List Json)) (List Answer)
  | [] => return []
  | (server, operations) :: calls => do
      let answer ← transactIn (recorded server) operations
      let answers ← callAll calls
      return answer :: answers

/-- What a call answers under a number. -/
def answerUnder (client : Client) (id : Nat) (call : Server × List Operation) : Answer :=
  (client.exchange id (call.1 (request client.database call.2 id))).bind Message.results

/-- Calls with their numbers, from `id` on. -/
def numbered : Nat → List (Server × List Operation) → List (Nat × Server × List Operation)
  | _, [] => []
  | id, call :: calls => (id, call) :: numbered (advance id) calls

theorem callAll_run (calls : List (Server × List Operation)) (client : Client) (sent : List Json) :
    ∃ last, ((callAll calls).run client).run sent =
      (((numbered client.nextId calls).map fun (id, call) => answerUnder client id call, last),
        sent ++ (numbered client.nextId calls).map
          fun (id, call) => request client.database call.2 id) := by
  induction calls generalizing client sent with
  | nil => exact ⟨client, by rw [numbered, List.map_nil, List.map_nil, List.append_nil]; rfl⟩
  | cons call calls ih =>
      obtain ⟨server, operations⟩ := call
      obtain ⟨last, rest⟩ := ih { client with nextId := advance client.nextId }
        (sent ++ [request client.database operations client.nextId])
      refine ⟨last, ?_⟩
      have first : ((transactIn (recorded server) operations).run client).run sent =
          ((answerUnder client client.nextId (server, operations),
            { client with nextId := advance client.nextId }),
            sent ++ [request client.database operations client.nextId]) := rfl
      have split : ((callAll ((server, operations) :: calls)).run client).run sent =
          let (before, sent) := ((transactIn (recorded server) operations).run client).run sent
          let (after, sent) := ((callAll calls).run before.2).run sent
          ((before.1 :: after.1, after.2), sent) := rfl
      rw [split, first]
      dsimp only
      rw [rest, numbered, List.map_cons, List.map_cons, List.append_assoc]
      rfl

/-- The number that follows from a place among the calls. -/
def numberAt (place : Nat) : Nat :=
  place % (Text.maxUnsigned64 + 1)

theorem numberAt_le (place : Nat) : numberAt place ≤ Text.maxUnsigned64 :=
  Nat.le_of_lt_succ (Nat.mod_lt place (Nat.succ_pos _))

theorem getElem?_numbered (small : id ≤ Text.maxUnsigned64) (k : Nat) :
    (numbered id calls)[k]? = calls[k]?.map fun call => (numberAt (id + k), call) := by
  induction calls generalizing id k with
  | nil => rfl
  | cons call calls ih =>
      cases k with
      | zero =>
          rw [numbered, List.getElem?_cons_zero, List.getElem?_cons_zero, Nat.add_zero, numberAt,
            Nat.mod_eq_of_lt (Nat.lt_succ_of_le small)]
          rfl
      | succ k =>
          have later : numberAt (advance id + k) = numberAt (id + (k + 1)) := by
            rw [numberAt, numberAt, advance, Nat.mod_add_mod, Nat.add_right_comm, Nat.add_assoc]
          have next : advance id ≤ Text.maxUnsigned64 := numberAt_le (id + 1)
          rw [numbered, List.getElem?_cons_succ, List.getElem?_cons_succ, ih next, later]

/-- Calls in a row on a new client, whatever becomes of the others.  Each sends
its place among them as its number, as far as 64 bits count.  The first printout
with that number, as it is read, is the answer: what comes before it, the bytes
behind it and the places where the bytes are cut make no difference.  Without
such a printout the call fails. -/
theorem own_reply_answers {k : Nat} (fresh : client.nextId = 0)
    (made : calls[k]? = some (server, operations)) :
    ∃ answers last requests, ((callAll calls).run client).run [] = ((answers, last), requests) ∧
      requests[k]? = some (request client.database operations (numberAt k)) ∧
      ∀ (chunks : List Bytes) (ending : Ending) (lead : Bytes) (skipped : List Printout),
        server (request client.database operations (numberAt k)) = .accepted (.ofChunks chunks ending) →
        (∀ byte ∈ lead, isGap byte = true) →
        (∀ printout ∈ skipped, ¬ printout.Carries (numberAt k)) →
        (∀ (reply : Printout) (rest : Bytes), reply.Carries (numberAt k) →
          chunks.flatten = lead ++ (skipped.flatMap Printout.bytes ++ (reply.bytes ++ rest)) →
          ∃ message, Message.ofJson? reply.value = some message ∧
            answers[k]? = some message.results ∧
            ((∀ number ∈ (Json.object reply.members).floats, Json.rereadFloat number = number) →
              reply.value = .object reply.members)) ∧
        (chunks.flatten = lead ++ skipped.flatMap Printout.bytes →
          answers[k]? = some (.error ending.fault) ∧ ∃ trouble, ending.fault = .database trouble) := by
  obtain ⟨last, run⟩ := callAll_run calls client []
  have place : (numbered client.nextId calls)[k]? = some (numberAt k, server, operations) := by
    rw [fresh, getElem?_numbered (Nat.zero_le _), made, Nat.zero_add]
    rfl
  refine ⟨_, last, _, run, ?_, ?_⟩
  · rw [List.nil_append, List.getElem?_map, place]
    rfl
  · intro chunks ending lead skipped serves blank others
    have answered : ((numbered client.nextId calls).map fun (id, call) =>
        answerUnder client id call)[k]? =
          some ((awaitAnswer (numberAt k) ((Stream.ofChunks chunks ending).size + 1)
            (.ofChunks chunks ending)).bind Message.results) := by
      rw [List.getElem?_map, place]
      change some ((client.exchange (numberAt k) (server _)).bind Message.results) = _
      rw [serves, exchange]
    constructor
    · intro reply rest own arrives
      rw [← Stream.remaining_ofChunks chunks ending] at arrives
      obtain ⟨message, found, answer⟩ :=
        awaitAnswer_of_reply skipped reply (numberAt_le k) blank others own arrives
      refine ⟨message, found, ?_, Json.reread_of_ordered reply.ordered⟩
      rw [answered, answer]
      rfl
    · intro arrives
      rw [← Stream.remaining_ofChunks chunks ending] at arrives
      rw [answered, awaitAnswer_of_none skipped (numberAt_le k) blank others arrives]
      refine ⟨rfl, ?_⟩
      cases ending with
      | closed => exact ⟨_, rfl⟩
      | silent => exact ⟨_, rfl⟩

/-- The second call after one that does not reach its server.  Three messages
only resemble the answer, which is cut in two. -/
theorem second_call_answers :
    let client : Client :=
      { address := .tcp "127.0.0.1" 6640, database := "OpenSwitch", timeout := 1000 }
    let operations : List Operation := [.select "System" [] none]
    let text := Text.bytes ("\x7b\"id\":0,\"result\":null\x7d \x7b\"id\":\"1\"\x7d\x7b\"id\":1.0\x7d" ++
      "\x7b\"error\":null,\"id\":1,\"result\":[]\x7d\n]")
    let server : Server := fun _ => .accepted (.ofChunks [text.take 9, text.drop 9] .silent)
    let calls := [((fun _ => .failed "refused" : Server), operations), (server, operations)]
    ∃ answers last requests, ((callAll calls).run client).run [] = ((answers, last), requests) ∧
      requests[1]? = some (request "OpenSwitch" operations 1) ∧ answers[1]? = some (.ok []) := by
  intro client operations text server calls
  obtain ⟨answers, last, requests, run, sent, answered⟩ :=
    @own_reply_answers client server operations calls 1 rfl rfl
  refine ⟨answers, last, requests, run, sent, ?_⟩
  let stale : Printout := {
    members := [("id", .integer 0), ("result", .null)]
    gap := [0x20]
    printable := Json.Plain.printable (by simp [Json.maxDepth, Text.maxSigned64, Text.maxUnsigned64])
    ordered := .object (Dictionary.sorted_of_names ["id", "result"] rfl (by decide))
      (by simp)
    blank := List.forall_mem_singleton.mpr rfl }
  let quoted : Printout := {
    members := [("id", .string "1")]
    gap := []
    printable := Json.Plain.printable (by simp [Json.maxDepth])
    ordered := .object (Dictionary.sorted_of_names ["id"] rfl (by decide))
      (by simp)
    blank := by simp }
  let fractional : Printout := {
    members := [("id", .float 1)]
    gap := []
    printable := .object (by simpa using .float (by decide +kernel))
    ordered := .object (Dictionary.sorted_of_names ["id"] rfl (by decide))
      (by simpa using .float 1)
    blank := by simp }
  let reply : Printout := {
    members := [("error", .null), ("id", .integer 1), ("result", .array [])]
    gap := [0x0A]
    printable := Json.Plain.printable (by simp [Json.maxDepth, Text.maxSigned64, Text.maxUnsigned64])
    ordered := .object (Dictionary.sorted_of_names ["error", "id", "result"] rfl (by decide))
      (by simp [Json.ordered_array_iff])
    blank := List.forall_mem_singleton.mpr rfl }
  have others : ∀ printout ∈ [stale, quoted, fractional], ¬ printout.Carries 1 := by
    simp [stale, quoted, fractional, Printout.Carries, Dictionary.find?]
  have arrives : [text.take 9, text.drop 9].flatten =
      [] ++ ([stale, quoted, fractional].flatMap Printout.bytes ++ (reply.bytes ++ [0x5D])) := by
    decide +kernel
  obtain ⟨message, found, answer, _⟩ :=
    (answered _ _ [] [stale, quoted, fractional] rfl (by simp) others).1 reply [0x5D] rfl arrives
  rw [answer]
  cases found
  rfl

/-- The answer need not be that of the object that was printed: here the error is
a number, and the one that is read is the next one below it. -/
theorem answer_of_other_number :
    let client : Client :=
      { address := .tcp "127.0.0.1" 6640, database := "OpenSwitch", timeout := 1000 }
    let reply : Json :=
      .object [("error", .float 0.09908692141034921), ("id", .integer 0), ("result", .null)]
    let server : Server := fun _ => .accepted (.ofChunks [Text.bytes reply.render] .closed)
    let run := ((callAll [(server, [.select "System" [] none])]).run client).run []
    run.1.1 = [.error (.database (.reported "0.0990869214103492"))] ∧
      (Message.ofJson? reply).map Message.results =
        some (.error (.database (.reported "0.09908692141034921"))) := by
  intro client reply server run
  constructor
  · let printout : Printout := {
      members := [("error", .float 0.09908692141034921), ("id", .integer 0), ("result", .null)]
      gap := []
      printable := .object (by
        simp only [List.forall_mem_cons]
        exact ⟨.float (by decide +kernel), .integer (by decide) (by decide), .null, by simp⟩)
      ordered := .object (Dictionary.sorted_of_names ["error", "id", "result"] rfl (by decide))
        (by simpa using .float _)
      blank := by simp }
    have arrives : (Stream.ofChunks [Text.bytes reply.render] .closed).remaining =
        [] ++ (([] : List Printout).flatMap Printout.bytes ++ (printout.bytes ++ [])) := by
      rw [Stream.remaining_ofChunks]
      simp only [List.flatMap_nil, Printout.bytes, List.flatten_cons, List.flatten_nil, List.nil_append]
      exact (List.append_nil _).symm
    obtain ⟨message, found, answer⟩ :=
      awaitAnswer_of_reply [] printout (Nat.zero_le _) (by simp) (by simp) rfl arrives
    have text :
        (Json.float (Json.rereadFloat 0.09908692141034921)).render = "0.0990869214103492" := by
      decide +kernel
    have run_eq : run.1.1 =
        [(awaitAnswer 0 ((Stream.ofChunks [Text.bytes reply.render] .closed).size + 1)
          (.ofChunks [Text.bytes reply.render] .closed)).bind Message.results] := rfl
    cases found
    rw [run_eq, answer, ← text]
    rfl
  · have text : (Json.float 0.09908692141034921).render = "0.09908692141034921" := by
      decide +kernel
    rw [← text]
    rfl

end Client

end SwitchShell.Wire

import SwitchShell.Store.Program
import SwitchShell.Wire.Address
import SwitchShell.Wire.Message
import SwitchShell.Wire.Stream

namespace SwitchShell.Wire

/-- A client numbers its requests and makes a connection for each. -/
structure Client where
  address : Address
  database : String
  timeout : Nat
  nextId : Nat := 0
deriving DecidableEq, Repr

/-- What becomes of an attempt to connect. -/
inductive Connection where
  | failed (reason : String)
  | unanswered
  /-- There is no way to reach addresses of that kind. -/
  | unsupported
  | accepted (stream : Stream)

/-- Answers a request by the connection it is sent over. -/
abbrev Server := Json → Connection

namespace Client

/-- Looks for the answer among the documents of a stream.  Every document takes
a byte, so `fuel` above the number of bytes is never used up. -/
def awaitAnswer (id : Nat) : Nat → Stream → Except Fault Message
  | 0, stream => .error stream.ending.fault
  | fuel + 1, stream =>
      match stream.next with
      | (.error fault, _) => .error fault
      | (.ok document, stream) =>
          match Message.ofJson? document with
          | none => .error (.database .malformedResponse)
          | some message =>
              if message.answers id then .ok message else awaitAnswer id fuel stream

/-- No further byte can change what becomes of the request. -/
def isSettled (id : Nat) (stream : Stream) : Bool :=
  match awaitAnswer id (stream.size + 1) { stream with ending := .silent } with
  | .error (.database .timedOut) => false
  | _ => true

/-- The answer that comes over a connection. -/
def exchange (client : Client) (id : Nat) : Connection → Except Fault Message
  | .failed reason => .error (.database (.unreachable client.address.render reason))
  | .unanswered => .error (.database (.unanswered client.timeout))
  | .unsupported => .error (.settings .localSocketsUnsupported)
  | .accepted stream => awaitAnswer id (stream.size + 1) stream

/-- The next number of 64 bits; after the last one the first one follows. -/
def advance (id : Nat) : Nat :=
  (id + 1) % (Text.maxUnsigned64 + 1)

/-- Sends each transaction to the server under the next number.  The stream of a
connection may end as soon as it is settled. -/
def transactIn [Monad m] (connect : Json → (Stream → Bool) → m Connection)
    (operations : List Operation) : StateT Client m Answer := do
  let client ← get
  set { client with nextId := advance client.nextId }
  let connection ←
    connect (request client.database operations client.nextId) (isSettled client.nextId)
  return (client.exchange client.nextId connection).bind Message.results

/-- Sends each transaction to a server whose answers are known. -/
def transact (server : Server) : Backend Client := fun operations client =>
  (transactIn (m := Id) (fun request _ => server request) operations).run client

end Client

end SwitchShell.Wire

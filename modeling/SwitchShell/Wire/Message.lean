import SwitchShell.Fault
import SwitchShell.Wire.Operation

namespace SwitchShell.Wire

def request (database : String) (operations : List Operation) (id : Nat) : Json :=
  .object [
    ("id", .integer id),
    ("method", .string "transact"),
    ("params", .array (.string database :: operations.map Operation.toJson))]

/-- A message from the server, which may or may not answer a request. -/
structure Message where
  id : Json := .null
  result : Json := .null
  error : Json := .null

namespace Message

/-- A message is an object, or an array of its parts in order. -/
def ofJson? : Json → Option Message
  | .object members =>
      some {
        id := (Dictionary.find? "id" members).getD .null,
        result := (Dictionary.find? "result" members).getD .null,
        error := (Dictionary.find? "error" members).getD .null }
  | .array parts =>
      if 3 < parts.length then none
      else some {
        id := parts[0]?.getD .null,
        result := parts[1]?.getD .null,
        error := parts[2]?.getD .null }
  | _ => none

/-- The message answers the request of that number. -/
def answers (message : Message) (id : Nat) : Bool :=
  message.id.unsigned? == some id

/-- What an error member says. -/
def describeError (error : Json) : String :=
  match error with
  | .string text => text
  | .object members =>
      ((Dictionary.find? "error" members).bind Json.string?).getD error.render
  | other => other.render

/-- The results up to the first one that cannot be read or reports an error. -/
def readResults : List Json → Except Fault (List OperationResult)
  | [] => .ok []
  | item :: items =>
      match OperationResult.ofItem? item with
      | none => .error (.database .malformedResult)
      | some result =>
          match result.error with
          | some error =>
              .error (.database (.reported (match result.details with
                | some details => error ++ ": " ++ details
                | none => error)))
          | none => (readResults items).map (result :: ·)

/-- The results of the operations, unless the request or one of them failed. -/
def results (message : Message) : Except Fault (List OperationResult) :=
  match message.error with
  | .null =>
      match message.result with
      | .array items => readResults items
      | _ => .error (.database .noResultList)
  | error => .error (.database (.reported (describeError error)))

end Message

end SwitchShell.Wire

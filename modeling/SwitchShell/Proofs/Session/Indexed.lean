import SwitchShell.Proofs.Grammar.Indexed
import SwitchShell.Proofs.Session.Names
import SwitchShell.Proofs.Store.Trouble

namespace SwitchShell

/-! No line leads to an index that is out of range.

What a lookup finds took no more words than there are, so the slice of the option
words can be made; the options of registered commands all have a token, so what
looks tokens up can begin.
-/

namespace Indexed

open Completion Fault

variable {registry : Registry} {mode line : String} {session : Session} {names : Names}
  {words : List String} {found : Match} {negated : Bool} {options : List OptionGroup}
  {request : Request}

/-- Binds the option words of a command, which are a slice of the words. -/
def bind (found : Match) (words : List String) (negated : Bool) (names : Names) :
    Except Fault Arguments := do
  let bindings ← ofWords names found.node.options (← sliceFrom words found.consumed)
  Binding.checkRequired found.node.options bindings
  if negated && !found.node.negatable then throw .noSuchCommand
  return { bindings, negated }

def resolve (registry : Registry) (mode : String) (negated : Bool) (words : List String) :
    Query Invocation := do
  let found ← ExceptT.mk (pure (registry.lookup mode words))
  match found.node.handler with
  | none => throw .incompleteCommand
  | some handler =>
      let names ← Session.fetchNames found.node.options
      let arguments ← ExceptT.mk (pure (bind found words negated names))
      return { handler, arguments }

def offered (names : Names) (words : List String) :
    List OptionGroup → List Token → Except Fault (List Token)
  | [], tokens => .ok tokens
  | group :: groups, tokens => do
      match ← candidates names group words with
      | .alongside next => offered names words groups (tokens ++ next)
      | .only next => return next

/-- Whether the words bind.  To leave the range of an index is no answer. -/
def isComplete (names : Names) (options : List OptionGroup) (words : List String) :
    Except Fault Bool :=
  match ofWords names options words with
  | .ok bindings => .ok (Binding.checkRequired options bindings).isOk
  | .error .outOfRange => .error .outOfRange
  | .error _ => .ok false

def ofCommand (names : Names) (request : Request) (found : Match) : Except Fault Completion := do
  let node := found.node
  let words ← sliceFrom request.words found.consumed
  let children := if words.isEmpty then childItems request.stem node else []
  if node.isConcrete then
    let tokens ← offered names words node.options []
    let options := tokens.flatMap fun token => token.candidates names request.stem
    let allowed := request.stem.isEmpty && (!request.negated || node.negatable)
    let executable ← if allowed then isComplete names node.options words else .ok false
    return { stem := request.stem, items := HelpItem.distinct (children ++ options), executable }
  else return { stem := request.stem, items := HelpItem.distinct children }

def ofRequest (registry : Registry) (mode : String) (names : Names) (request : Request) :
    Position → Except Fault Completion
  | .start => Completion.ofRequest registry mode names request .start
  | .command found => ofCommand names request found
  | .unknown => Completion.ofRequest registry mode names request .unknown

def complete (session : Session) (line : String) : Query Completion := do
  let request := Request.parse line
  let position := Position.locate session.registry session.mode request.words
  let names ← Query.names position.nameKinds
  ExceptT.mk (pure (ofRequest session.registry session.mode names request position))

theorem consumed_le_of_lookup (wellFormed : registry.WellFormed)
    (looked : registry.lookup mode words = .ok found) : found.consumed ≤ words.length := by
  obtain ⟨_, _, _, _, reads⟩ := Registry.reads_of_lookup wellFormed looked
  cases reads with
  | path => exact Nat.le_refl _
  | options split =>
      rw [split, List.length_append]
      exact Nat.le_add_right _ _

theorem inRange_lookup : FaultIn InRange (registry.lookup mode words) := by
  unfold Registry.lookup
  split
  · exact faultIn_error nofun
  · exact faultIn_ok _
  · exact faultIn_error nofun

theorem bind_eq (inside : found.consumed ≤ words.length) :
    bind found words negated names = Session.bind found words negated names := by
  unfold bind Session.bind
  rw [sliceFrom_of_le inside, ← ofWords_eq]
  rfl

theorem inRange_bind (shaped : found.node.WellFormed) (words : List String) (negated : Bool)
    (names : Names) : FaultIn InRange (Session.bind found words negated names) :=
  Session.faultIn_bind (Binding.inRange_ofWords names _ shaped.tokens) nofun nofun

theorem offered_eq {groups : List OptionGroup} {tokens : List Token} :
    offered names words groups tokens = Completion.offered names words groups tokens := by
  induction groups generalizing tokens with
  | nil => rfl
  | cons group groups ih =>
      rw [offered, Completion.offered, candidates_eq]
      cases group.candidates names words with
      | error fault => rfl
      | ok next =>
          cases next with
          | alongside next => exact ih
          | only next => rfl

theorem isComplete_eq (some : ∀ group ∈ options, group.tokens ≠ []) :
    isComplete names options words = .ok (Completion.isComplete names options words) := by
  have inRange := Binding.inRange_ofWords names words some
  unfold isComplete Completion.isComplete
  rw [ofWords_eq]
  cases bound : Binding.ofWords names options words with
  | ok bindings => rfl
  | error fault =>
      have own := inRange fault bound
      cases fault with
      | outOfRange => exact absurd rfl own
      | _ => rfl

theorem ofCommand_eq (shaped : found.node.WellFormed)
    (inside : found.consumed ≤ request.words.length) :
    ofCommand names request found = Completion.ofCommand names request found := by
  unfold ofCommand Completion.ofCommand
  rw [sliceFrom_of_le inside]
  simp only [Bind.bind, Except.bind, offered_eq, isComplete_eq shaped.tokens]
  split
  · split
    · rfl
    · rename_i tokens answered
      cases request.stem.isEmpty && (!request.negated || found.node.negatable) <;> simp
  · rfl

theorem ofRequest_eq (wellFormed : registry.WellFormed) :
    ofRequest registry mode names request (Position.locate registry mode request.words) =
      Completion.ofRequest registry mode names request
        (Position.locate registry mode request.words) := by
  unfold Position.locate
  split
  · rfl
  · cases looked : registry.lookup mode request.words with
    | error fault => rfl
    | ok found =>
        exact ofCommand_eq (Registry.wellFormed_of_lookup wellFormed looked)
          (consumed_le_of_lookup wellFormed looked)

theorem resolve_eq (wellFormed : registry.WellFormed) :
    resolve registry mode negated words = Session.resolve registry mode negated words := by
  unfold resolve Session.resolve
  cases looked : registry.lookup mode words with
  | error fault => rfl
  | ok found =>
      have same : bind found words negated = Session.bind found words negated :=
        funext fun _ => bind_eq (consumed_le_of_lookup wellFormed looked)
      change (match found.node.handler with | none => _ | some handler => _) = _
      rw [same]
      rfl

theorem complete_eq (wellFormed : session.registry.WellFormed) :
    complete session line = session.complete line := by
  rw [Session.complete_eq]
  unfold complete
  simp only [ofRequest_eq wellFormed]

end Indexed

namespace Session

open Indexed

variable {session : Session}

/-- However a registry was built, no line makes the shell leave the range of an index:
neither when it looks up the command and binds its words, nor when it looks for what
may follow.  With its indices unchecked, it does the same. -/
theorem indices_in_range (built : session.registry.Built) (names : Names) (line : String) :
    (∀ negated words, FaultIn Fault.InRange
      (session.registry.lookup session.mode words >>= fun found =>
        Indexed.bind found words negated names)) ∧
    (∀ negated words, Indexed.resolve session.registry session.mode negated words =
      resolve session.registry session.mode negated words) ∧
    (∃ completion, Indexed.ofRequest session.registry session.mode names
      (Completion.Request.parse line) (Completion.Position.locate session.registry session.mode
        (Completion.Request.parse line).words) = .ok completion) ∧
    Indexed.complete session line = session.complete line := by
  have wellFormed := built.wellFormed
  refine ⟨fun negated words => ?_, fun _ _ => Indexed.resolve_eq wellFormed, ?_,
    Indexed.complete_eq wellFormed⟩
  · cases looked : session.registry.lookup session.mode words with
    | error fault => exact faultIn_error (inRange_lookup fault looked)
    | ok found =>
        have bound := inRange_bind (Registry.wellFormed_of_lookup wellFormed looked) words negated
          names
        rw [← Indexed.bind_eq (consumed_le_of_lookup wellFormed looked)] at bound
        exact bound
  · rw [ofRequest_eq wellFormed]
    exact Completion.exists_ofRequest wellFormed names (Completion.Request.parse line)

/-- A command whose option words are names of the database, and a line without its last word. -/
theorem interface_indices_in_range :
    let session : Session :=
      { registry := Feature.builtin, contexts := [{ mode := Feature.configMode }]
        hostname := "switch" }
    let names : Names := { interfaces := ["uplink"] }
    session.registry.Built ∧
      FaultIn Fault.InRange
        (session.registry.lookup session.mode ["interface", "uplink"] >>= fun found =>
          Indexed.bind found ["interface", "uplink"] false names) ∧
      Indexed.complete session "interface up" = session.complete "interface up" := by
  intro session names
  have built : session.registry.Built := Feature.builtin_built
  obtain ⟨bound, _, _, completed⟩ := indices_in_range built names "interface up"
  exact ⟨built, bound false ["interface", "uplink"], completed⟩

end Session

end SwitchShell

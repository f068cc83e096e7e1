import SwitchShell.Command.Registry
import SwitchShell.Completion.Candidates
import SwitchShell.Completion.Request

namespace SwitchShell.Completion

inductive Position where
  /-- There are no words: every command may follow. -/
  | start
  /-- The words lead to one node. -/
  | command (found : Match)
  /-- The words lead nowhere, or to several nodes. -/
  | unknown

namespace Position

def locate (registry : Registry) (mode : String) (words : List String) : Position :=
  if words.isEmpty then .start
  else
    match registry.lookup mode words with
    | .ok found => .command found
    | .error _ => .unknown

end Position

/-- The families of names that options depend on, each of them once. -/
def nameKinds (options : List OptionGroup) : List NameKind :=
  (options.flatMap OptionGroup.nameKinds).eraseDups

def Position.nameKinds : Position → List NameKind
  | .command found => Completion.nameKinds found.node.options
  | _ => []

/-- The nodes whose words begin with the stem. -/
def childItems (stem : String) (node : Node) : List HelpItem :=
  (node.children.filter fun child => Text.startsWith child.word stem).map Node.wordItem

/-- The tokens that may follow: those of the first group that lets nothing else
follow, or else those of all groups. -/
def offered (names : Names) (words : List String) :
    List OptionGroup → List Token → Except Fault (List Token)
  | [], tokens => .ok tokens
  | group :: groups, tokens =>
      match group.candidates names words with
      | .error fault => .error fault
      | .ok (.alongside next) => offered names words groups (tokens ++ next)
      | .ok (.only next) => .ok next

/-- The words bind to the options, and every required option is used. -/
def isComplete (names : Names) (options : List OptionGroup) (words : List String) : Bool :=
  match Binding.ofWords names options words with
  | .ok bindings => (Binding.checkRequired options bindings).isOk
  | .error _ => false

def ofCommand (names : Names) (request : Request) (found : Match) : Except Fault Completion := do
  let node := found.node
  let words := request.words.drop found.consumed
  let children := if words.isEmpty then childItems request.stem node else []
  if node.isConcrete then
    let tokens ← offered names words node.options []
    let options := tokens.flatMap fun token => token.candidates names request.stem
    return {
      stem := request.stem
      items := HelpItem.distinct (children ++ options)
      executable := request.stem.isEmpty && (!request.negated || node.negatable) &&
        isComplete names node.options words }
  else return { stem := request.stem, items := HelpItem.distinct children }

def ofRequest (registry : Registry) (mode : String) (names : Names) (request : Request) :
    Position → Except Fault Completion
  | .start =>
      .ok {
        stem := request.stem
        items := HelpItem.distinct ((registry.searchOrder mode).flatMap (childItems request.stem)) }
  | .command found => ofCommand names request found
  | .unknown => .ok { stem := request.stem }

end SwitchShell.Completion

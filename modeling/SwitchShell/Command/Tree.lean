import SwitchShell.Command.Handler

namespace SwitchShell

/-! The commands of one mode as a tree of words.

A node with a handler is a command; any other only leads to longer commands.
Children keep the order in which they came.
-/

structure Command where
  path : List String
  help : String
  options : List OptionGroup := []
  /-- `no` may stand in front. -/
  negatable : Bool := false
  handler : Handler

structure Node where
  word : String := ""
  /-- The words from the root to this node. -/
  path : List String := []
  help : String := ""
  options : List OptionGroup := []
  negatable : Bool := false
  handler : Option Handler := none
  children : List Node := []

/-- A node that words lead to, and how many of them its path took. -/
structure Match where
  node : Node
  consumed : Nat

def joinWords (words : List String) : String :=
  String.intercalate " " words

namespace Command

/-- A command without options at a path given as one text. -/
def ofPath (path : String) (help : String) (handler : Handler) : Command :=
  { path := Text.words path, help, handler }

end Command

namespace Node

def root : Node := {}

def isConcrete (node : Node) : Bool :=
  node.handler.isSome

def name (node : Node) : String :=
  joinWords node.path

def child? (node : Node) (word : String) : Option Node :=
  node.children.find? fun child => child.word == word

/-- Follows words that are spelled out. -/
def get? : List String → Node → Option Node
  | [], node => some node
  | word :: words, node => (node.child? word).bind (get? words)

/-- Changes the first child of that word, or a new one at the end. -/
def editChild (word : String) (change : Node → Node) (fresh : Node) : List Node → List Node
  | [] => [change fresh]
  | child :: children =>
      if child.word = word then change child :: children
      else child :: editChild word change fresh children

/-- Changes the node at the end of the words; missing nodes come into being. -/
def edit (change : Node → Node) : List String → Node → Node
  | [], node => change node
  | word :: words, node =>
      { node with
        children := editChild word (edit change words) { word, path := node.path ++ [word] }
          node.children }

/-- Makes a node the command; its children stay. -/
def become (command : Command) (node : Node) : Node :=
  { node with
    help := command.help, options := command.options, negatable := command.negatable,
    handler := some command.handler }

def insert (command : Command) (node : Node) : Except Fault Node :=
  if command.path.isEmpty then .error (.definition .emptyPath)
  else if command.options.any fun group => group.tokens.isEmpty then
    .error (.definition (.emptyOption (joinWords command.path)))
  else if (node.get? command.path).any isConcrete then
    .error (.duplicateCommand (joinWords command.path))
  else .ok (node.edit (become command) command.path)

def describe (path : String) (help : String) (node : Node) : Node :=
  let words := Text.words path
  if words.isEmpty then node else node.edit (fun target => { target with help }) words

/-- The children a word may stand for: the one it spells out, else all that
begin with it. -/
def follow (node : Node) (word : String) : List Node :=
  match node.child? word with
  | some child => [child]
  | none => node.children.filter fun child => Text.startsWith child.word word

/-- The nodes that words lead to from a node `consumed` words below the root.  A
command keeps the words that none of its children goes by as option words. -/
def findFrom (consumed : Nat) : List String → Node → List Match
  | [], node => if consumed = 0 then [] else [{ node, consumed }]
  | word :: words, node =>
      match node.follow word with
      | [] => if consumed ≠ 0 ∧ node.isConcrete then [{ node, consumed }] else []
      | next => next.flatMap fun child => findFrom (consumed + 1) words child

def find (node : Node) (words : List String) : List Match :=
  findFrom 0 words node

mutual

/-- The commands at and below a node, each before those below it. -/
def concrete : Node → List Node
  | node@{ children, .. } => (if node.isConcrete then [node] else []) ++ concreteAll children

def concreteAll : List Node → List Node
  | [] => []
  | node :: nodes => concrete node ++ concreteAll nodes

end

mutual

/-- The outline of a node, one line for itself and one for each node below. -/
def outline (indent : Nat) : Node → List String
  | node@{ word, children, .. } =>
      (Text.spaces (2 * indent) ++ word ++ (if node.isConcrete then "" else " (placeholder)")) ::
        outlineAll (indent + 1) children

def outlineAll (indent : Nat) : List Node → List String
  | [] => []
  | node :: nodes => outline indent node ++ outlineAll indent nodes

end

def dump (node : Node) : List String :=
  outlineAll 0 node.children

def usage (node : Node) : String :=
  joinWords ((if node.negatable then ["[no]"] else []) ++
    node.name :: node.options.map OptionGroup.synopsis)

/-- An item for a node by its own word. -/
def wordItem (node : Node) : HelpItem :=
  { text := node.word, help := node.help }

/-- An item for a node by all its words. -/
def nameItem (node : Node) : HelpItem :=
  { text := node.name, help := node.help }

end Node

end SwitchShell

import SwitchShell.Proofs.Command.Registration

namespace SwitchShell.Node

/-! How a tree grows.

`insertInPlace` is insertion as it is done on the tree itself: it makes the nodes
that lead to a command first and only then finds out whether one stands there
already.  It still does the whole or nothing, and it is a map update: it changes
what stands at the path of the command, and adds nothing but placeholders.
-/

variable {tree fresh other : Node} {children : List Node} {change first second : Node → Node}
  {word key : String} {words keys path : List String} {command : Command}

/-- Makes the nodes on the way that are missing. -/
def enter (path : List String) (tree : Node) : Node :=
  tree.edit id path

def insertInPlace (command : Command) (tree : Node) : Except Fault Unit × Node :=
  if command.path.isEmpty then (.error (.definition .emptyPath), tree)
  else if command.options.any fun group => group.tokens.isEmpty then
    (.error (.definition (.emptyOption (joinWords command.path))), tree)
  else
    let entered := tree.enter command.path
    if (entered.get? command.path).any isConcrete then
      (.error (.duplicateCommand (joinWords command.path)), entered)
    else (.ok (), entered.edit (become command) command.path)

/-- A tree that came about by inserting and describing commands, some of which may
have been refused. -/
inductive Grown : Node → Prop where
  | root : Grown Node.root
  | insert {tree : Node} (command : Command) (before : Grown tree) :
      Grown (tree.insertInPlace command).2
  | describe {tree : Node} (path help : String) (before : Grown tree) :
      Grown (tree.describe path help)

theorem harmless_id : Harmless id where
  word _ := rfl
  path _ := rfl
  wellFormed _ wellFormed := wellFormed

theorem editChild_editChild (word : String) (keeps : ∀ target, (first target).word = target.word)
    (named : fresh.word = word) :
    editChild word second other (editChild word first fresh children) =
      editChild word (second ∘ first) fresh children := by
  induction children with
  | nil => simp [editChild, keeps, named]
  | cons child children ih =>
      by_cases here : child.word = word
      · simp [editChild, here, keeps]
      · simp [editChild, here, ih]

theorem edit_edit (harmless : Harmless first) (path : List String) (tree : Node) :
    (tree.edit first path).edit second path = tree.edit (second ∘ first) path := by
  induction path generalizing tree with
  | nil => rfl
  | cons word words ih =>
      have both : edit second words ∘ edit first words = edit (second ∘ first) words :=
        funext ih
      simp only [edit]
      rw [editChild_editChild word (harmless.edit words).word rfl, both]

theorem editChild_of_find? (found : children.find? (·.word == word) = some other)
    (same : change other = other) : editChild word change fresh children = children := by
  induction children with
  | nil => simp at found
  | cons child children ih =>
      by_cases here : child.word = word
      · obtain rfl : child = other := by simpa [here] using found
        simp [editChild, here, same]
      · simp [editChild, here, ih (by simpa [here] using found)]

theorem enter_of_get? {node : Node} (found : tree.get? path = some node) :
    tree.enter path = tree := by
  induction path generalizing tree with
  | nil => rfl
  | cons word words ih =>
      obtain ⟨child, present, reached⟩ := Option.bind_eq_some_iff.mp found
      have kept : editChild word (edit id words) { word, path := tree.path ++ [word] }
          tree.children = tree.children := editChild_of_find? present (ih reached)
      cases tree
      rw [enter, edit, kept]

theorem exists_get?_edit (harmless : Harmless change) (path : List String) (tree : Node) :
    ∃ bare, bare.content = root ∧ bare.children = [] ∧
      (tree.edit change path).get? path = some (change ((tree.get? path).getD bare)) := by
  induction path generalizing tree with
  | nil => exact ⟨root, rfl, rfl, rfl⟩
  | cons word words ih =>
      have onward : (tree.edit change (word :: words)).get? (word :: words) =
          (edit change words ((tree.child? word).getD { word, path := tree.path ++ [word] })).get?
            words := by
        rw [get?, child?_edit harmless, if_pos rfl, Option.bind_some]
      rw [onward, get?]
      cases found : tree.child? word with
      | some child => exact ih child
      | none =>
          obtain ⟨bare, plain, childless, reached⟩ := ih { word, path := tree.path ++ [word] }
          cases words with
          | nil => exact ⟨{ word, path := tree.path ++ [word] }, rfl, rfl, reached⟩
          | cons next words => exact ⟨bare, plain, childless, reached⟩

theorem any_isConcrete_enter (path : List String) (tree : Node) :
    ((tree.enter path).get? path).any isConcrete = (tree.get? path).any isConcrete := by
  obtain ⟨bare, plain, _, reached⟩ := exists_get?_edit harmless_id path tree
  rw [enter, reached]
  cases tree.get? path with
  | some node => rfl
  | none =>
      -- what was made on the way is a placeholder
      exact congrArg isConcrete plain

/-- Insertion in place does what insertion does, and undoes nothing. -/
theorem insertInPlace_eq (command : Command) (tree : Node) :
    tree.insertInPlace command =
      match tree.insert command with
      | .ok after => (.ok (), after)
      | .error fault => (.error fault, tree) := by
  unfold insertInPlace Node.insert
  split
  · rfl
  · split
    · rfl
    · simp only [any_isConcrete_enter]
      split
      · rename_i concrete
        obtain ⟨node, found, _⟩ := Option.any_eq_true .. |>.mp concrete
        rw [enter_of_get? found]
      · rw [enter, edit_edit harmless_id]
        rfl

theorem insertInPlace_eq_ok_iff {after : Node} :
    tree.insertInPlace command = (.ok (), after) ↔
      command.Valid ∧ (tree.get? command.path).any isConcrete = false ∧
        after = tree.edit (become command) command.path := by
  rw [insertInPlace_eq, ← insert_eq_ok_iff]
  cases tree.insert command <;> simp

theorem insertInPlace_fst_eq_ok_iff :
    (tree.insertInPlace command).1 = .ok () ↔
      command.Valid ∧ (tree.get? command.path).any isConcrete = false := by
  constructor
  · intro done
    obtain ⟨valid, free, _⟩ := insertInPlace_eq_ok_iff.mp (Prod.ext done rfl)
    exact ⟨valid, free⟩
  · rintro ⟨valid, free⟩
    rw [insertInPlace_eq_ok_iff.mpr ⟨valid, free, rfl⟩]

theorem insertInPlace_eq_error_iff {fault : Fault} {after : Node} :
    tree.insertInPlace command = (.error fault, after) ↔
      tree.insert command = .error fault ∧ after = tree := by
  rw [insertInPlace_eq]
  cases tree.insert command <;> simp [eq_comm]

theorem get?_edit_of_not_prefix (harmless : Harmless change)
    (children : ∀ target, (change target).children = target.children)
    (apart : ¬ keys <+: path) : (tree.edit change path).get? keys = tree.get? keys := by
  induction path generalizing tree keys with
  | nil =>
      cases keys with
      | nil => exact absurd List.nil_prefix apart
      | cons key keys => simp [edit, get?, child?, children]
  | cons word words ih =>
      cases keys with
      | nil => exact absurd List.nil_prefix apart
      | cons key keys =>
          rw [get?, child?_edit harmless, get?]
          by_cases same : key = word
          · subst same
            have apart : ¬ keys <+: words := fun begins => apart (by simpa using begins)
            rw [if_pos rfl, Option.bind_some, ih apart]
            cases tree.child? key with
            | some child => rfl
            | none =>
                -- a node that is new has no children yet
                cases keys with
                | nil => exact absurd List.nil_prefix apart
                | cons next keys => rfl
          · rw [if_neg same]

theorem Grown.wellFormed (grown : tree.Grown) : tree.WellFormed ∧ tree.path = [] := by
  induction grown with
  | root => exact ⟨wellFormed_of_bare rfl rfl, rfl⟩
  | @insert tree command _ ih =>
      obtain ⟨shaped, atRoot⟩ := ih
      rw [insertInPlace_eq]
      cases inserted : tree.insert command with
      | error fault => exact ⟨shaped, atRoot⟩
      | ok after =>
          obtain ⟨better, same⟩ := shaped.insert inserted
          exact ⟨better, same.trans atRoot⟩
  | describe path help _ ih =>
      obtain ⟨shaped, atRoot⟩ := ih
      obtain ⟨better, same⟩ := shaped.describe path help
      exact ⟨better, same.trans atRoot⟩

/-- A tree that has grown keeps its order: siblings go by different words, a path
spells out the words down to its node, and every option has a token.  Inserting a
command either fails and leaves the tree as it is, or puts the command at its path,
where the children stay.  The nodes on the way are as before, or new placeholders;
what stands anywhere else is what stood there.  The outcome is that of `Node.insert`. -/
theorem insert_updates (grown : tree.Grown) (command : Command) :
    (tree.WellFormed ∧ ∀ keys node, tree.get? keys = some node →
        node.WellFormed ∧ node.path = keys) ∧
      ((tree.insertInPlace command).1 = .ok () ↔
        command.Valid ∧ (tree.get? command.path).any isConcrete = false) ∧
      (∀ fault after, tree.insertInPlace command = (.error fault, after) →
        tree.insert command = .error fault ∧ after = tree) ∧
      ∀ after, tree.insertInPlace command = (.ok (), after) →
        tree.insert command = .ok after ∧
        (∃ node, after.get? command.path = some node ∧ node.content = become command root ∧
          node.children = ((tree.get? command.path).map Node.children).getD []) ∧
        (∀ keys, keys <+: command.path → keys ≠ command.path →
          ∃ node, after.get? keys = some node ∧
            node.content = ((tree.get? keys).map content).getD root) ∧
        ∀ keys, ¬ keys <+: command.path → after.get? keys = tree.get? keys := by
  obtain ⟨shaped, atRoot⟩ := grown.wellFormed
  have placed : ∀ keys node, tree.get? keys = some node → node.WellFormed ∧ node.path = keys := by
    intro keys node found
    simpa [atRoot] using shaped.of_get? found
  refine ⟨⟨shaped, placed⟩, insertInPlace_fst_eq_ok_iff,
    fun _ _ => insertInPlace_eq_error_iff.mp, fun after inserted => ?_⟩
  obtain ⟨valid, free, rfl⟩ := insertInPlace_eq_ok_iff.mp inserted
  refine ⟨insert_eq_ok_iff.mpr ⟨valid, free, rfl⟩, ?_, fun keys begins other => ?_, fun keys apart =>
    get?_edit_of_not_prefix (harmless_become valid.tokens) (fun _ => rfl) apart⟩
  · obtain ⟨bare, plain, childless, reached⟩ :=
      exists_get?_edit (harmless_become valid.tokens) command.path tree
    refine ⟨_, reached, ?_, ?_⟩
    · rfl
    · cases tree.get? command.path with
      | some node => rfl
      | none => exact childless
  · have here := congrFun (@layout_edit tree command valid.tokens command.path) keys
    rw [fill, if_neg other, if_pos begins] at here
    exact Option.map_eq_some_iff.mp here

/-- A described placeholder becomes a command over one that is there, which cannot be
inserted again. -/
theorem show_inserted :
    let long := Feature.Vlan.showCommand
    let short := Command.ofPath "show" "Show a summary" long.handler
    let tree := (Node.root.insertInPlace long).2.describe "show" "Show what is there"
    tree.Grown ∧ (tree.insertInPlace long).2 = tree ∧
      ∃ after, tree.insertInPlace short = (.ok (), after) ∧
        (∃ node, after.get? ["show"] = some node ∧ node.content = become short root ∧
          node.children = [long.leaf]) ∧
        after.get? ["show", "vlan"] = some long.leaf := by
  intro long short tree
  have grown : tree.Grown := .describe _ _ (.insert long .root)
  obtain ⟨_, _, again, _⟩ := insert_updates grown long
  obtain ⟨_, _, _, updated⟩ := insert_updates grown short
  obtain ⟨_, here, _, elsewhere⟩ := updated _ rfl
  exact ⟨grown, (again _ _ rfl).2, _, rfl, here, elsewhere ["show", "vlan"] (by decide)⟩

end SwitchShell.Node

import Mathlib.Data.List.Nodup
import SwitchShell.Command.Registry

namespace SwitchShell

/-- A command that can be registered wherever there is none yet. -/
structure Command.Valid (command : Command) : Prop where
  somewhere : command.path ≠ []
  tokens : ∀ group ∈ command.options, group.tokens ≠ []

namespace Node

variable {node fresh target : Node} {children : List Node} {change : Node → Node}
  {word : String} {words : List String}

/-- Holds of a node and of all nodes below it. -/
inductive WellFormed : Node → Prop where
  | intro {node : Node}
      (tokens : ∀ group ∈ node.options, group.tokens ≠ [])
      (distinct : (node.children.map Node.word).Nodup)
      (paths : ∀ child ∈ node.children, child.path = node.path ++ [child.word])
      (inside : ∀ child ∈ node.children, WellFormed child) :
      WellFormed node

theorem WellFormed.tokens (wellFormed : node.WellFormed) :
    ∀ group ∈ node.options, group.tokens ≠ [] := by
  cases wellFormed with
  | intro tokens _ _ _ => exact tokens

theorem WellFormed.distinct (wellFormed : node.WellFormed) :
    (node.children.map Node.word).Nodup := by
  cases wellFormed with
  | intro _ distinct _ _ => exact distinct

theorem WellFormed.paths (wellFormed : node.WellFormed) :
    ∀ child ∈ node.children, child.path = node.path ++ [child.word] := by
  cases wellFormed with
  | intro _ _ paths _ => exact paths

theorem WellFormed.inside (wellFormed : node.WellFormed) :
    ∀ child ∈ node.children, child.WellFormed := by
  cases wellFormed with
  | intro _ _ _ inside => exact inside

theorem wellFormed_of_bare (options : node.options = []) (children : node.children = []) :
    node.WellFormed :=
  .intro (by simp [options]) (by simp [children]) (by simp [children]) (by simp [children])

theorem child?_of_mem {child : Node} (distinct : (node.children.map Node.word).Nodup)
    (member : child ∈ node.children) : node.child? child.word = some child := by
  cases found : node.child? child.word with
  | none => exact absurd (by simpa using List.find?_eq_none.mp found child member) id
  | some exact =>
      have spelled : exact.word = child.word := by simpa using List.find?_some found
      exact congrArg some
        (List.inj_on_of_nodup_map distinct (List.mem_of_find?_eq_some found) member spelled)

theorem WellFormed.of_get? (wellFormed : node.WellFormed)
    (found : node.get? words = some target) :
    target.WellFormed ∧ target.path = node.path ++ words := by
  induction words generalizing node with
  | nil =>
      cases found
      exact ⟨wellFormed, (List.append_nil _).symm⟩
  | cons word words ih =>
      obtain ⟨child, present, reached⟩ := Option.bind_eq_some_iff.mp found
      have member : child ∈ node.children := List.mem_of_find?_eq_some present
      have spelled : child.word = word := by simpa using List.find?_some present
      obtain ⟨shaped, path⟩ := ih (wellFormed.inside child member) reached
      refine ⟨shaped, ?_⟩
      rw [path, wellFormed.paths child member, spelled, List.append_assoc, List.singleton_append]

/-- Changes that leave a node in its place and keep it well-formed. -/
structure Harmless (change : Node → Node) : Prop where
  word : ∀ target, (change target).word = target.word
  path : ∀ target, (change target).path = target.path
  wellFormed : ∀ target, target.WellFormed → (change target).WellFormed

/-- A child after an edit is an old one or the edited one. -/
theorem eq_or_mem_of_mem_editChild
    (member : target ∈ editChild word change fresh children) :
    (∃ old, (old ∈ children ∧ old.word = word ∨ old = fresh) ∧ target = change old) ∨
      target ∈ children := by
  induction children with
  | nil =>
      simp only [editChild, List.mem_singleton] at member
      exact .inl ⟨fresh, .inr rfl, member⟩
  | cons child children ih =>
      simp only [editChild] at member
      split at member
      · rename_i same
        rcases List.mem_cons.mp member with changed | kept
        · exact .inl ⟨child, .inl ⟨List.mem_cons_self, same⟩, changed⟩
        · exact .inr (List.mem_cons_of_mem child kept)
      · rcases List.mem_cons.mp member with first | later
        · exact .inr (first ▸ List.mem_cons_self)
        · rcases ih later with ⟨old, origin, changed⟩ | kept
          · refine .inl ⟨old, ?_, changed⟩
            exact origin.imp_left fun found => ⟨List.mem_cons_of_mem child found.1, found.2⟩
          · exact .inr (List.mem_cons_of_mem child kept)

/-- The words of the children after an edit: the same, or one more. -/
theorem words_editChild (keeps : ∀ target, (change target).word = target.word)
    (named : fresh.word = word) :
    (editChild word change fresh children).map Node.word =
      if word ∈ children.map Node.word then children.map Node.word
      else children.map Node.word ++ [word] := by
  induction children with
  | nil => simp [editChild, keeps, named]
  | cons child children ih =>
      simp only [editChild]
      by_cases same : child.word = word
      · simp [same, keeps]
      · have different : ¬ word = child.word := fun equal => same equal.symm
        rw [if_neg same, List.map_cons, ih]
        by_cases later : word ∈ children.map Node.word
        · simp only [List.map_cons, List.mem_cons, different, later, or_true, ↓reduceIte]
        · simp only [List.map_cons, List.mem_cons, different, later, or_self, ↓reduceIte,
            List.cons_append]

theorem nodup_words_editChild (keeps : ∀ target, (change target).word = target.word)
    (named : fresh.word = word) (distinct : (children.map Node.word).Nodup) :
    ((editChild word change fresh children).map Node.word).Nodup := by
  rw [words_editChild keeps named]
  split
  · exact distinct
  · rename_i absent
    exact List.nodup_append.mpr ⟨distinct, List.nodup_singleton word, by
      intro first member last same
      rw [List.mem_singleton.mp same]
      exact fun equal => absent (equal ▸ member)⟩

theorem Harmless.edit (harmless : Harmless change) (words : List String) :
    Harmless (Node.edit change words) := by
  induction words with
  | nil => exact harmless
  | cons word words ih =>
      refine ⟨fun _ => rfl, fun _ => rfl, fun node wellFormed => ?_⟩
      have origin := fun {target : Node} (member : target ∈ editChild word (Node.edit change words)
        { word, path := node.path ++ [word] } node.children) => eq_or_mem_of_mem_editChild member
      refine .intro wellFormed.tokens (nodup_words_editChild ih.word rfl wellFormed.distinct)
        (fun child member => ?_) (fun child member => ?_)
      · rcases origin member with ⟨old, ⟨present, _⟩ | rfl, rfl⟩ | kept
        · rw [ih.path, ih.word]
          exact wellFormed.paths old present
        · rw [ih.path, ih.word]
          rfl
        · exact wellFormed.paths child kept
      · rcases origin member with ⟨old, ⟨present, _⟩ | rfl, rfl⟩ | kept
        · exact ih.wellFormed old (wellFormed.inside old present)
        · exact ih.wellFormed _ (wellFormed_of_bare rfl rfl)
        · exact wellFormed.inside child kept

theorem harmless_become {command : Command}
    (tokens : ∀ group ∈ command.options, group.tokens ≠ []) : Harmless (become command) where
  word _ := rfl
  path _ := rfl
  wellFormed _ wellFormed := .intro tokens wellFormed.distinct wellFormed.paths wellFormed.inside

theorem harmless_withHelp (help : String) :
    Harmless fun target => { target with help } where
  word _ := rfl
  path _ := rfl
  wellFormed _ wellFormed :=
    .intro wellFormed.tokens wellFormed.distinct wellFormed.paths wellFormed.inside

theorem insert_eq_ok_iff {command : Command} {after : Node} :
    node.insert command = .ok after ↔
      command.Valid ∧ (node.get? command.path).any isConcrete = false ∧
        after = node.edit (become command) command.path := by
  have valid : command.Valid ↔ command.path.isEmpty = false ∧
      (command.options.any fun group => group.tokens.isEmpty) = false := by
    simp only [List.isEmpty_eq_false_iff, List.any_eq_false, List.isEmpty_iff]
    exact ⟨fun valid => ⟨valid.somewhere, valid.tokens⟩, fun both => ⟨both.1, both.2⟩⟩
  rw [valid]
  unfold Node.insert
  split
  · simp [*]
  · split
    · simp [*]
    · split <;> simp [*, eq_comm]

theorem WellFormed.insert {command : Command} {after : Node} (wellFormed : node.WellFormed)
    (inserted : node.insert command = .ok after) :
    after.WellFormed ∧ after.path = node.path := by
  obtain ⟨valid, _, rfl⟩ := insert_eq_ok_iff.mp inserted
  have harmless := (harmless_become valid.tokens).edit command.path
  exact ⟨harmless.wellFormed node wellFormed, harmless.path node⟩

theorem WellFormed.describe (wellFormed : node.WellFormed) (path help : String) :
    (node.describe path help).WellFormed ∧ (node.describe path help).path = node.path := by
  simp only [Node.describe]
  split
  · exact ⟨wellFormed, rfl⟩
  · have harmless := (harmless_withHelp help).edit (Text.words path)
    exact ⟨harmless.wellFormed node wellFormed, harmless.path node⟩

end Node

namespace Registry

variable {registry : Registry} {mode : String}

/-- Every tree is well-formed and starts at the empty path. -/
def WellFormed (registry : Registry) : Prop :=
  ∀ mode tree, registry.tree? mode = some tree → tree.WellFormed ∧ tree.path = []

/-- A registry that came about by registering and describing commands, some of
which may have been refused. -/
inductive Built : Registry → Prop where
  | empty : Built Registry.empty
  | register {registry : Registry} (mode : String) (command : Command) (before : Built registry) :
      Built (registry.register mode command).2
  | registerAll {registry : Registry} (mode : String) (commands : List Command)
      (before : Built registry) : Built (registry.registerAll mode commands).2
  | describe {registry : Registry} (mode path help : String) (before : Built registry) :
      Built (registry.describe mode path help)

theorem wellFormed_empty : Registry.empty.WellFormed := by
  intro mode tree found
  change Dictionary.find? mode [(globalMode, Node.root), (rootMode, Node.root)] = some tree at found
  have root : Node.root = tree := by
    simp only [Dictionary.find?] at found
    split at found
    · exact Option.some.inj found
    · split at found
      · exact Option.some.inj found
      · contradiction
  subst tree
  exact ⟨Node.wellFormed_of_bare rfl rfl, rfl⟩

theorem WellFormed.treeOrEmpty (wellFormed : registry.WellFormed) (mode : String) :
    (registry.treeOrEmpty mode).WellFormed ∧ (registry.treeOrEmpty mode).path = [] := by
  unfold Registry.treeOrEmpty
  cases found : registry.tree? mode with
  | none => exact ⟨Node.wellFormed_of_bare rfl rfl, rfl⟩
  | some tree => exact wellFormed mode tree found

theorem WellFormed.setTree {tree : Node} (wellFormed : registry.WellFormed)
    (good : tree.WellFormed) (root : tree.path = []) :
    (registry.setTree mode tree).WellFormed := by
  intro other found present
  by_cases same : other = mode
  · subst other
    rw [Registry.tree?, Registry.setTree, Dictionary.find?_insert_self] at present
    cases present
    exact ⟨good, root⟩
  · rw [Registry.tree?, Registry.setTree, Dictionary.find?_insert_of_ne same] at present
    exact wellFormed other found present

theorem WellFormed.register (wellFormed : registry.WellFormed) (mode : String)
    (command : Command) : (registry.register mode command).2.WellFormed := by
  obtain ⟨good, root⟩ := wellFormed.treeOrEmpty mode
  simp only [Registry.register]
  split
  · rename_i tree inserted
    obtain ⟨better, same⟩ := good.insert inserted
    exact wellFormed.setTree better (same.trans root)
  · exact wellFormed.setTree good root

theorem WellFormed.registerAll (wellFormed : registry.WellFormed) (mode : String)
    (commands : List Command) : (registry.registerAll mode commands).2.WellFormed := by
  induction commands generalizing registry with
  | nil => exact wellFormed
  | cons command commands ih =>
      have first := wellFormed.register mode command
      unfold Registry.registerAll
      split
      · rename_i later registered
        rw [registered] at first
        exact ih first
      · exact first

theorem Built.wellFormed (built : registry.Built) : registry.WellFormed := by
  induction built with
  | empty => exact wellFormed_empty
  | register mode command _ ih => exact ih.register mode command
  | registerAll mode commands _ ih => exact ih.registerAll mode commands
  | @describe registry mode path help _ ih =>
      obtain ⟨good, root⟩ := ih.treeOrEmpty mode
      obtain ⟨better, same⟩ := good.describe path help
      exact ih.setTree better (same.trans root)

end Registry

end SwitchShell

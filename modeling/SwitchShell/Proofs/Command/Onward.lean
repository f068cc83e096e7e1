import SwitchShell.Proofs.Command.Abbreviation
import SwitchShell.Proofs.Command.Spelling

namespace SwitchShell

namespace Node

variable {tree node child : Node} {word : String} {words : List String} {found : Match}
  {depth : Nat}

/-- What one more word makes of a match of `count` words. -/
def onward (count : Nat) (word : String) (found : Match) : List Match :=
  if found.consumed = count then findFrom count [word] found.node else [found]

theorem findFrom_concat (deep : depth + words.length ≠ 0) :
    findFrom depth (words ++ [word]) node =
      (findFrom depth words node).flatMap (onward (depth + words.length) word) := by
  induction words generalizing node depth with
  | nil =>
      have started : depth ≠ 0 := deep
      simp [findFrom, onward, started]
  | cons first words ih =>
      have shift : depth + 1 + words.length = depth + (first :: words).length := by
        simp only [List.length_cons]
        omega
      have within : depth ≠ depth + (first :: words).length := by simp
      have below : ∀ child : Node, findFrom (depth + 1) (words ++ [word]) child =
          (findFrom (depth + 1) words child).flatMap (onward (depth + (first :: words).length) word) :=
        fun child => shift ▸ ih (by omega)
      simp only [List.cons_append, findFrom, below]
      cases node.follow first with
      | nil =>
          -- the match has used fewer words, so the new one is an option word too
          dsimp only
          split
          · rw [List.flatMap_singleton, onward, if_neg within]
          · rfl
      | cons next others =>
          dsimp only
          rw [List.flatMap_assoc]

theorem find_concat (some : words ≠ []) :
    tree.find (words ++ [word]) = (tree.find words).flatMap (onward words.length word) := by
  have long : 0 + words.length ≠ 0 := by simpa using some
  rw [find, findFrom_concat long, Nat.zero_add]
  rfl

theorem findFrom_child (wellFormed : node.WellFormed) (member : child ∈ node.children) :
    findFrom depth [child.word] node = [{ node := child, consumed := depth + 1 }] := by
  have present := child?_of_mem wellFormed.distinct member
  simp [findFrom, follow_of_child? present]

/-- A child of the only match is the only match of its word after the others. -/
theorem find_concat_child (wellFormed : tree.WellFormed) (some : words ≠ [])
    (only : tree.find words = [found]) (whole : found.consumed = words.length)
    (member : child ∈ found.node.children) :
    tree.find (words ++ [child.word]) = [{ node := child, consumed := words.length + 1 }] := by
  have reads := (mem_find_iff wellFormed).mp (only ▸ List.mem_singleton_self found)
  rw [find_concat some, only, List.flatMap_singleton, onward, if_pos whole,
    findFrom_child (reads.wellFormed wellFormed) member]

theorem find_child (wellFormed : tree.WellFormed) (member : child ∈ tree.children) :
    tree.find [child.word] = [{ node := child, consumed := 1 }] :=
  findFrom_child wellFormed member

theorem find_eq_nil_of_foreign
    (foreign : ∀ key ∈ tree.children, Text.startsWith key.word word = false) :
    tree.find [word] = [] := by
  simp [find, findFrom, follow_eq_nil_iff.mpr foreign]

end Node

namespace Registry

variable {registry : Registry} {mode : String} {words : List String} {found : Match}
  {tree child : Node}

theorem lookup_concat_child (wellFormed : registry.WellFormed)
    (looked : registry.lookup mode words = .ok found) (whole : found.consumed = words.length)
    (member : child ∈ found.node.children) :
    registry.lookup mode (words ++ [child.word]) =
      .ok { node := child, consumed := words.length + 1 } := by
  have some : words ≠ [] := by
    rintro rfl
    simp at looked
  obtain ⟨before, tree, after, order, silent, only⟩ := lookup_eq_ok_iff.mp looked
  have searched : tree ∈ registry.searchOrder mode := by simp [order]
  have shaped := (wellFormed_of_mem_searchOrder wellFormed searched).1
  refine lookup_eq_ok_iff.mpr ⟨before, tree, after, order, fun other earlier => ?_,
    Node.find_concat_child shaped some only whole member⟩
  rw [Node.find_concat some, silent other earlier, List.flatMap_nil]

theorem lookup_child (wellFormed : registry.WellFormed) (present : registry.tree? mode = some tree)
    (member : child ∈ tree.children) :
    registry.lookup mode [child.word] = .ok { node := child, consumed := 1 } := by
  refine lookup_eq_ok_iff.mpr ⟨[], tree,
    if mode = globalMode then [] else (registry.tree? globalMode).toList, ?_, List.forall_mem_nil _,
    Node.find_child (wellFormed mode tree present).1 member⟩
  rw [searchOrder, present]
  rfl

theorem lookup_global_child (wellFormed : registry.WellFormed)
    (present : registry.tree? globalMode = some tree) (member : child ∈ tree.children)
    (foreign : ∀ active, registry.tree? mode = some active →
      ∀ key ∈ active.children, Text.startsWith key.word child.word = false) :
    registry.lookup mode [child.word] = .ok { node := child, consumed := 1 } := by
  by_cases same : mode = globalMode
  · subst same
    exact lookup_child wellFormed present member
  · refine lookup_eq_ok_iff.mpr ⟨(registry.tree? mode).toList, tree, [], ?_, fun active searched => ?_,
      Node.find_child (wellFormed globalMode tree present).1 member⟩
    · rw [searchOrder, if_neg same, present]
      rfl
    · exact Node.find_eq_nil_of_foreign (foreign active (Option.mem_toList.mp searched))

/-- The word of a child, after words that lead to the node above it, leads to that
child.  So does a first word of the mode, and one of the global mode that begins none
of the first words of the mode. -/
theorem completed_word_resolves (built : registry.Built) (mode : String) :
    (∀ words found child, registry.lookup mode words = .ok found →
        found.consumed = words.length → child ∈ found.node.children →
        registry.lookup mode (words ++ [child.word]) =
          .ok { node := child, consumed := words.length + 1 }) ∧
      (∀ active child, registry.tree? mode = some active → child ∈ active.children →
        registry.lookup mode [child.word] = .ok { node := child, consumed := 1 }) ∧
      ∀ fallback child, registry.tree? globalMode = some fallback → child ∈ fallback.children →
        (∀ active, registry.tree? mode = some active →
          ∀ key ∈ active.children, Text.startsWith key.word child.word = false) →
        registry.lookup mode [child.word] = .ok { node := child, consumed := 1 } :=
  ⟨fun _ _ _ => lookup_concat_child built.wellFormed,
    fun _ _ => lookup_child built.wellFormed,
    fun _ _ => lookup_global_child built.wellFormed⟩

/-- In the mode of a VLAN `sho` leads to `show` of the global mode, which begins no word
of the mode itself. -/
theorem show_vlan_resolves :
    let registry := ((empty.registerAll Feature.vlanMode [Feature.Vlan.shutdownCommand]).2.registerAll
      globalMode [Feature.Vlan.showCommand, Feature.Interface.showCommand]).2
    let lookup := registry.lookup Feature.vlanMode
    let vlan := Feature.Vlan.showCommand.leaf
    let shutdown := Feature.Vlan.shutdownCommand.leaf
    registry.Built ∧ ∃ above active fallback,
      (lookup ["sho"] = .ok { node := above, consumed := 1 } ∧ vlan ∈ above.children ∧
        lookup ["sho", "vlan"] = .ok { node := vlan, consumed := 2 }) ∧
      (registry.tree? Feature.vlanMode = some active ∧ active.children = [shutdown] ∧
        lookup ["shutdown"] = .ok { node := shutdown, consumed := 1 }) ∧
      registry.tree? globalMode = some fallback ∧ fallback.children = [above] ∧
        Text.startsWith shutdown.word above.word = false ∧
        lookup [above.word] = .ok { node := above, consumed := 1 } := by
  intro registry lookup vlan shutdown
  have built : registry.Built := .registerAll _ _ (.registerAll _ _ .empty)
  obtain ⟨below, first, fallen⟩ := completed_word_resolves built Feature.vlanMode
  obtain ⟨above, active, fallback, looked, listed, present, own, searched, only, foreign⟩ :
      ∃ above active fallback, lookup ["sho"] = .ok { node := above, consumed := 1 } ∧
        vlan ∈ above.children ∧ registry.tree? Feature.vlanMode = some active ∧
        active.children = [shutdown] ∧ registry.tree? globalMode = some fallback ∧
        fallback.children = [above] ∧ Text.startsWith shutdown.word above.word = false :=
    ⟨_, _, _, rfl, List.mem_cons_self, rfl, rfl, rfl, rfl,
      (by decide : Text.startsWith "shutdown" "show" = false)⟩
  refine ⟨built, above, active, fallback, ⟨looked, listed, below _ _ vlan looked rfl listed⟩,
    ⟨present, own, first active shutdown present (by simp [own])⟩, searched, only, foreign,
    fallen fallback above searched (by simp [only]) ?_⟩
  rintro other same key member
  cases present.symm.trans same
  rw [own, List.mem_singleton] at member
  rwa [member]

end Registry

end SwitchShell

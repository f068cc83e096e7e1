import Mathlib.Data.List.Nodup
import SwitchShell.Proofs.Command.WellFormed

namespace SwitchShell

/-! Which nodes words lead to.

`Node.Reads` says it without searching: each word begins a key of the next
node, and a key that is spelled out hides the keys beside it.  `Node.find` lists
exactly these readings, each of them once.
-/

namespace Node

variable {node tree target child : Node} {word : String} {words keys : List String}
  {found : Match} {depth count : Nat}

/-- Words lead from a node to one below it, a word for each key. -/
inductive LeadsTo : Node → List String → Node → Prop where
  | here {node : Node} : LeadsTo node [] node
  | down {node child target : Node} {word : String} {words : List String}
      (member : child ∈ node.children)
      (begins : Text.startsWith child.word word = true)
      (shown : child.word = word ∨ ∀ sibling ∈ node.children, sibling.word ≠ word)
      (onward : LeadsTo child words target) :
      LeadsTo node (word :: words) target

/-- The ways in which words stand for a node of a tree: as its whole path, or as
the path of a command and option words, the first of which begins no child. -/
inductive Reads (tree : Node) (words : List String) : Match → Prop where
  | path {node : Node} (some : words ≠ []) (leads : tree.LeadsTo words node) :
      Reads tree words { node, consumed := words.length }
  | options {node : Node} {taken : List String} {word : String} {rest : List String}
      (split : words = taken ++ word :: rest) (some : taken ≠ [])
      (leads : tree.LeadsTo taken node) (concrete : node.isConcrete = true)
      (foreign : ∀ child ∈ node.children, Text.startsWith child.word word = false) :
      Reads tree words { node, consumed := taken.length }

/-- Where a search from a node on comes to an end, and how many words it takes: below a
command it may leave the rest of them to options. -/
inductive EndsAt : Node → List String → Node → Nat → Prop where
  | here {node : Node} : EndsAt node [] node 0
  | stuck {node : Node} {word : String} {words : List String} (concrete : node.isConcrete = true)
      (foreign : node.follow word = []) : EndsAt node (word :: words) node 0
  | down {node child target : Node} {word : String} {words : List String} {count : Nat}
      (followed : child ∈ node.follow word) (onward : EndsAt child words target count) :
      EndsAt node (word :: words) target (count + 1)

theorem startsWith_self (text : String) : Text.startsWith text text = true := by
  simp [Text.startsWith]

theorem mem_follow_iff (distinct : (node.children.map Node.word).Nodup) :
    child ∈ node.follow word ↔
      child ∈ node.children ∧ Text.startsWith child.word word = true ∧
        (child.word = word ∨ ∀ sibling ∈ node.children, sibling.word ≠ word) := by
  unfold Node.follow
  cases found : node.child? word with
  | none =>
      have hidden : ∀ sibling ∈ node.children, sibling.word ≠ word := by
        simpa [Node.child?] using found
      simp only [List.mem_filter]
      exact ⟨fun both => ⟨both.1, both.2, .inr hidden⟩, fun all => ⟨all.1, all.2.1⟩⟩
  | some exact =>
      have present : exact ∈ node.children := List.mem_of_find?_eq_some found
      have spelled : exact.word = word := by simpa using List.find?_some found
      simp only [List.mem_singleton]
      constructor
      · rintro rfl
        exact ⟨present, spelled ▸ startsWith_self _, .inl spelled⟩
      · rintro ⟨member, _, same | hidden⟩
        · exact List.inj_on_of_nodup_map distinct member present (same.trans spelled.symm)
        · exact absurd spelled (hidden exact present)

theorem follow_eq_nil_iff :
    node.follow word = [] ↔
      ∀ child ∈ node.children, Text.startsWith child.word word = false := by
  unfold Node.follow
  cases found : node.child? word with
  | none => simp
  | some exact =>
      have present : exact ∈ node.children := List.mem_of_find?_eq_some found
      have spelled : exact.word = word := by simpa using List.find?_some found
      constructor
      · intro empty
        contradiction
      · intro foreign
        have begins := foreign exact present
        rw [spelled, startsWith_self] at begins
        contradiction

theorem LeadsTo.wellFormed (leads : tree.LeadsTo words target) (wellFormed : tree.WellFormed) :
    target.WellFormed := by
  induction leads with
  | here => exact wellFormed
  | down member _ _ _ ih => exact ih (wellFormed.inside _ member)

/-- Words lead to a node that other words spell out, and each of them begins the
word at its place. -/
theorem LeadsTo.exists_get? (leads : tree.LeadsTo words target) (wellFormed : tree.WellFormed) :
    ∃ keys, tree.get? keys = some target ∧
      List.Forall₂ (fun word key => Text.startsWith key word = true) words keys := by
  induction leads with
  | here => exact ⟨[], rfl, .nil⟩
  | @down node child target word words member begins _ _ ih =>
      obtain ⟨keys, reached, matched⟩ := ih (wellFormed.inside child member)
      refine ⟨child.word :: keys, ?_, .cons begins matched⟩
      rw [get?, child?_of_mem wellFormed.distinct member, Option.bind_some, reached]

/-- The path of a node below another one has a key for every word, and the word
begins the key. -/
theorem LeadsTo.path (leads : tree.LeadsTo words target) (wellFormed : tree.WellFormed) :
    ∃ keys, target.path = tree.path ++ keys ∧
      List.Forall₂ (fun word key => Text.startsWith key word = true) words keys := by
  obtain ⟨keys, reached, matched⟩ := leads.exists_get? wellFormed
  exact ⟨keys, (wellFormed.of_get? reached).2, matched⟩

@[simp] theorem leadsTo_nil_iff : node.LeadsTo [] target ↔ target = node := by
  constructor
  · intro leads
    cases leads
    rfl
  · rintro rfl
    exact .here

theorem leadsTo_cons_iff (distinct : (node.children.map Node.word).Nodup) :
    node.LeadsTo (word :: words) target ↔
      ∃ child ∈ node.follow word, child.LeadsTo words target := by
  constructor
  · intro leads
    cases leads with
    | down member begins shown onward =>
        exact ⟨_, (mem_follow_iff distinct).mpr ⟨member, begins, shown⟩, onward⟩
  · rintro ⟨child, followed, onward⟩
    obtain ⟨member, begins, shown⟩ := (mem_follow_iff distinct).mp followed
    exact .down member begins shown onward

theorem mem_findFrom_of_stuck (stuck : node.follow word = []) :
    found ∈ findFrom depth (word :: words) node ↔
      0 < depth ∧ node.isConcrete = true ∧ found = { node, consumed := depth } := by
  simp only [findFrom, stuck]
  split <;> simp_all [Nat.pos_iff_ne_zero]

theorem mem_findFrom_of_follow (followed : node.follow word ≠ []) :
    found ∈ findFrom depth (word :: words) node ↔
      ∃ child ∈ node.follow word, found ∈ findFrom (depth + 1) words child := by
  cases next : node.follow word with
  | nil => exact absurd next followed
  | cons first others => simp only [findFrom, next, List.mem_flatMap]

/-- What the search finds from a node on, with `depth` words behind it. -/
theorem mem_findFrom_iff :
    found ∈ findFrom depth words node ↔
      0 < found.consumed ∧
        ∃ count, node.EndsAt words found.node count ∧ found.consumed = depth + count := by
  obtain ⟨target, consumed⟩ := found
  induction words generalizing node depth with
  | nil =>
      simp only [findFrom, List.mem_ite_nil_left, List.mem_singleton, Match.mk.injEq]
      constructor
      · rintro ⟨deep, rfl, rfl⟩
        exact ⟨Nat.pos_of_ne_zero deep, 0, .here, rfl⟩
      · rintro ⟨deep, _, ends, rfl⟩
        cases ends
        exact ⟨Nat.ne_of_gt deep, rfl, rfl⟩
  | cons word words ih =>
      by_cases stuck : node.follow word = []
      · rw [mem_findFrom_of_stuck stuck]
        constructor
        · rintro ⟨deep, concrete, same⟩
          cases same
          exact ⟨deep, 0, .stuck concrete stuck, rfl⟩
        · rintro ⟨deep, _, ends, rfl⟩
          cases ends with
          | stuck concrete _ => exact ⟨deep, concrete, rfl⟩
          | down followed _ => simp [stuck] at followed
      · rw [mem_findFrom_of_follow stuck]
        constructor
        · rintro ⟨child, followed, reached⟩
          obtain ⟨deep, count, ends, same⟩ := ih.mp reached
          exact ⟨deep, count + 1, .down followed ends, by omega⟩
        · rintro ⟨deep, _, ends, same⟩
          cases ends with
          | stuck _ foreign => exact absurd foreign stuck
          | down followed onward => exact ⟨_, followed, ih.mpr ⟨deep, _, onward, by omega⟩⟩

theorem LeadsTo.endsAt {rest : List String} (leads : node.LeadsTo words target)
    (wellFormed : node.WellFormed) (ends : target.EndsAt rest target 0) :
    node.EndsAt (words ++ rest) target words.length := by
  induction leads with
  | here => exact ends
  | down member begins shown _ ih =>
      exact .down ((mem_follow_iff wellFormed.distinct).mpr ⟨member, begins, shown⟩)
        (ih (wellFormed.inside _ member) ends)

/-- The words that a search takes lead to the node where it ends. -/
theorem EndsAt.exists_leadsTo (ends : node.EndsAt words target count)
    (wellFormed : node.WellFormed) :
    ∃ taken rest, words = taken ++ rest ∧ node.LeadsTo taken target ∧ count = taken.length ∧
      ∀ word ∈ rest.head?, target.isConcrete = true ∧ target.follow word = [] := by
  induction ends with
  | here => exact ⟨[], [], rfl, .here, rfl, by simp⟩
  | stuck concrete foreign =>
      exact ⟨[], _, rfl, .here, rfl, by simpa using ⟨concrete, foreign⟩⟩
  | down followed _ ih =>
      obtain ⟨member, begins, shown⟩ := (mem_follow_iff wellFormed.distinct).mp followed
      obtain ⟨taken, rest, rfl, leads, rfl, stop⟩ := ih (wellFormed.inside _ member)
      exact ⟨_ :: taken, rest, rfl, .down member begins shown leads, rfl, stop⟩

theorem mem_find_iff (wellFormed : tree.WellFormed) :
    found ∈ tree.find words ↔ tree.Reads words found := by
  rw [Node.find, mem_findFrom_iff]
  obtain ⟨node, consumed⟩ := found
  simp only [Nat.zero_add]
  constructor
  · rintro ⟨some, _, ends, rfl⟩
    obtain ⟨taken, rest, rfl, leads, rfl, stop⟩ := ends.exists_leadsTo wellFormed
    have some : taken ≠ [] := List.ne_nil_of_length_pos some
    cases rest with
    | nil =>
        rw [List.append_nil]
        exact .path some leads
    | cons word rest =>
        obtain ⟨concrete, foreign⟩ := stop word rfl
        exact .options rfl some leads concrete (follow_eq_nil_iff.mp foreign)
  · intro reads
    cases reads with
    | path some leads =>
        have ends := leads.endsAt wellFormed .here
        rw [List.append_nil] at ends
        exact ⟨List.length_pos_of_ne_nil some, _, ends, rfl⟩
    | options split some leads concrete foreign =>
        rw [split]
        exact ⟨List.length_pos_of_ne_nil some, _,
          leads.endsAt wellFormed (.stuck concrete (follow_eq_nil_iff.mpr foreign)), rfl⟩

theorem path_of_mem_findFrom (wellFormed : node.WellFormed)
    (member : found ∈ findFrom depth words node) : ∃ keys, found.node.path = node.path ++ keys := by
  obtain ⟨_, _, ends, _⟩ := mem_findFrom_iff.mp member
  obtain ⟨_, _, _, leads, _⟩ := ends.exists_leadsTo wellFormed
  obtain ⟨keys, path, _⟩ := leads.path wellFormed
  exact ⟨keys, path⟩

theorem nodup_map_word_follow (word : String) (distinct : (node.children.map Node.word).Nodup) :
    ((node.follow word).map Node.word).Nodup := by
  unfold Node.follow
  split
  · exact List.nodup_singleton _
  · exact distinct.sublist (List.filter_sublist.map Node.word)

theorem nodup_path_findFrom (wellFormed : node.WellFormed) :
    ((findFrom depth words node).map fun found => found.node.path).Nodup := by
  induction words generalizing node depth with
  | nil =>
      simp only [findFrom]
      split <;> simp
  | cons word words ih =>
      simp only [findFrom]
      cases next : node.follow word with
      | nil => dsimp only; split <;> simp
      | cons first others =>
          have within : ∀ child ∈ first :: others, child ∈ node.children := fun child followed =>
            ((mem_follow_iff wellFormed.distinct).mp (next ▸ followed)).1
          have apart := nodup_map_word_follow word wellFormed.distinct
          rw [next, List.Nodup, List.pairwise_map] at apart
          rw [List.map_flatMap, List.nodup_flatMap]
          refine ⟨fun child followed => ih (wellFormed.inside child (within child followed)), ?_⟩
          refine apart.imp_of_mem fun {left right} leftMember rightMember different => ?_
          intro path reachedLeft reachedRight
          obtain ⟨one, oneMember, rfl⟩ := List.mem_map.mp reachedLeft
          obtain ⟨two, twoMember, same⟩ := List.mem_map.mp reachedRight
          have leftInside := within left leftMember
          have rightInside := within right rightMember
          obtain ⟨_, onePath⟩ := path_of_mem_findFrom (wellFormed.inside left leftInside) oneMember
          obtain ⟨_, twoPath⟩ := path_of_mem_findFrom (wellFormed.inside right rightInside) twoMember
          rw [onePath, twoPath, wellFormed.paths left leftInside,
            wellFormed.paths right rightInside, List.append_assoc, List.append_assoc] at same
          have tails := List.append_cancel_left same
          simp only [List.singleton_append, List.cons.injEq] at tails
          exact different tails.1.symm

theorem find_eq_singleton_iff (wellFormed : tree.WellFormed) :
    tree.find words = [found] ↔ ∀ other, tree.Reads words other ↔ other = found := by
  constructor
  · intro single other
    rw [← mem_find_iff wellFormed, single, List.mem_singleton]
  · intro unique
    have member : ∀ other, other ∈ tree.find words ↔ other = found := fun other =>
      (mem_find_iff wellFormed).trans (unique other)
    have once : (tree.find words).Nodup := (nodup_path_findFrom wellFormed).of_map _
    exact List.perm_singleton.mp ((List.perm_ext_iff_of_nodup once (List.nodup_singleton found)).mpr
      fun other => (member other).trans List.mem_singleton.symm)

theorem find_eq_nil_iff (wellFormed : tree.WellFormed) :
    tree.find words = [] ↔ ∀ other, ¬ tree.Reads words other := by
  rw [List.eq_nil_iff_forall_not_mem]
  exact forall_congr' fun other => not_congr (mem_find_iff wellFormed)

theorem Reads.wellFormed (reads : tree.Reads words found) (wellFormed : tree.WellFormed) :
    found.node.WellFormed := by
  cases reads with
  | path _ leads => exact leads.wellFormed wellFormed
  | options _ _ leads _ _ => exact leads.wellFormed wellFormed

theorem concrete_eq :
    node.concrete = (if node.isConcrete then [node] else []) ++ concreteAll node.children := by
  cases node
  rfl

theorem mem_concreteAll_iff {nodes : List Node} :
    target ∈ concreteAll nodes ↔ ∃ node ∈ nodes, target ∈ node.concrete := by
  induction nodes with
  | nil => simp [concreteAll]
  | cons node nodes ih => simp [concreteAll, ih]

theorem LeadsTo.mem_concrete (leads : tree.LeadsTo words target)
    (concrete : target.isConcrete = true) : target ∈ tree.concrete := by
  induction leads with
  | here =>
      rw [concrete_eq, if_pos concrete]
      exact List.mem_append_left _ List.mem_cons_self
  | down member _ _ _ ih =>
      rw [concrete_eq]
      exact List.mem_append_right _ (mem_concreteAll_iff.mpr ⟨_, member, ih concrete⟩)

theorem Reads.mem_concrete (reads : tree.Reads words found)
    (concrete : found.node.isConcrete = true) : found.node ∈ tree.concrete := by
  cases reads with
  | path _ leads => exact leads.mem_concrete concrete
  | options _ _ leads _ _ => exact leads.mem_concrete concrete

end Node

namespace Registry

variable {registry : Registry} {mode : String} {words : List String} {found : Match}

/-- The commands of a mode, those of the global mode among them. -/
def commands (registry : Registry) (mode : String) : List Node :=
  (registry.searchOrder mode).flatMap Node.concrete

/-- What a lookup finds is a reading in the tree of the mode, or else in the
global tree. -/
theorem reads_of_lookup (wellFormed : registry.WellFormed)
    (looked : registry.lookup mode words = .ok found) :
    ∃ searched tree, registry.tree? searched = some tree ∧
      (searched = mode ∨ searched = globalMode) ∧ tree.Reads words found := by
  have member : found ∈ registry.candidates mode words := by
    unfold Registry.lookup at looked
    split at looked
    · contradiction
    · rename_i single
      cases looked
      simp [single]
    · contradiction
  have inTree : ∀ searched, found ∈ ((registry.tree? searched).map (·.find words)).getD [] →
      ∃ tree, registry.tree? searched = some tree ∧ tree.Reads words found := by
    intro searched present
    cases tree : registry.tree? searched with
    | none => simp [tree] at present
    | some node =>
        rw [tree] at present
        exact ⟨node, rfl, (Node.mem_find_iff (wellFormed searched node tree).1).mp present⟩
  simp only [Registry.candidates] at member
  split at member
  · obtain ⟨tree, present, reads⟩ := inTree globalMode member
    exact ⟨globalMode, tree, present, .inr rfl, reads⟩
  · obtain ⟨tree, present, reads⟩ := inTree mode member
    exact ⟨mode, tree, present, .inl rfl, reads⟩

theorem wellFormed_of_lookup (wellFormed : registry.WellFormed)
    (looked : registry.lookup mode words = .ok found) : found.node.WellFormed := by
  obtain ⟨searched, tree, present, _, reads⟩ := reads_of_lookup wellFormed looked
  exact reads.wellFormed (wellFormed searched tree present).1

theorem tree?_of_mem_before {before after : List Node} {tree other : Node}
    (order : registry.searchOrder mode = before ++ tree :: after) (member : other ∈ before) :
    registry.tree? mode = some other := by
  obtain ⟨front, back, rfl⟩ := List.append_of_mem member
  have short : (if mode = globalMode then [] else (registry.tree? globalMode).toList).length ≤ 1 := by
    split
    · exact Nat.zero_le 1
    · exact Option.length_toList_le
  unfold searchOrder at order
  have lengths := congrArg List.length order
  simp only [List.length_append, List.length_cons] at lengths
  cases own : registry.tree? mode with
  | none =>
      rw [own, Option.toList_none, List.length_nil] at lengths
      omega
  | some first =>
      rw [own, Option.toList_some, List.length_singleton] at lengths
      obtain rfl := List.eq_nil_of_length_eq_zero (show front.length = 0 by omega)
      rw [own] at order
      exact congrArg some (List.cons.inj order).1

theorem mem_searchOrder {searched : String} {tree : Node}
    (present : registry.tree? searched = some tree)
    (visited : searched = mode ∨ searched = globalMode) : tree ∈ registry.searchOrder mode := by
  unfold searchOrder
  rcases visited with rfl | rfl
  · exact List.mem_append_left _ (by simp [present])
  · split
    · rename_i same
      exact List.mem_append_left _ (by simp [same, present])
    · exact List.mem_append_right _ (by simp [present])

theorem mem_commands_of_lookup (wellFormed : registry.WellFormed)
    (looked : registry.lookup mode words = .ok found) (concrete : found.node.isConcrete = true) :
    found.node ∈ registry.commands mode := by
  obtain ⟨searched, tree, present, visited, reads⟩ := reads_of_lookup wellFormed looked
  exact List.mem_flatMap.mpr ⟨tree, mem_searchOrder present visited, reads.mem_concrete concrete⟩

@[simp] theorem lookup_nil : registry.lookup mode [] = .error .noSuchCommand := by
  have silent : ∀ searched, ((registry.tree? searched).map (·.find [])).getD [] = [] := by
    intro searched
    cases registry.tree? searched <;> rfl
  simp only [Registry.lookup, Registry.candidates, silent, ite_self]

end Registry

end SwitchShell

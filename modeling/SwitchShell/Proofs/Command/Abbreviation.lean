import SwitchShell.Proofs.Feature.Builtin

namespace SwitchShell

namespace Node

variable {node tree : Node} {words : List String} {found : Match}

/-- Each word begins the key at its place in the path, and none is left over. -/
def AbbreviatedBy (words : List String) (node : Node) : Prop :=
  List.Forall₂ (fun word key => Text.startsWith key word = true) words node.path

instance (words : List String) : DecidablePred (AbbreviatedBy words) := fun node =>
  inferInstanceAs (Decidable (List.Forall₂ _ words node.path))

/-- The words also stand for something in the tree that is not a command of that
many words: a placeholder, or a shorter command before words none of its
children goes by. -/
def Distracts (tree : Node) (words : List String) : Prop :=
  (∃ placeholder, tree.LeadsTo words placeholder ∧ placeholder.isConcrete = false) ∨
    ∃ taken word rest command, words = taken ++ word :: rest ∧ taken ≠ [] ∧
      tree.LeadsTo taken command ∧ command.isConcrete = true ∧
      ∀ child ∈ command.children, Text.startsWith child.word word = false

theorem Reads.leadsTo (reads : tree.Reads words found) (whole : found.consumed = words.length) :
    tree.LeadsTo words found.node := by
  cases reads with
  | path _ leads => exact leads
  | options split _ _ _ _ =>
      simp [split] at whole

theorem distracts_iff (some : words ≠ []) :
    tree.Distracts words ↔
      ∃ found, tree.Reads words found ∧
        ¬ (found.consumed = words.length ∧ found.node.isConcrete = true) := by
  constructor
  · rintro (⟨placeholder, leads, bare⟩ | ⟨taken, word, rest, command, split, some, leads, concrete,
      foreign⟩)
    · refine ⟨_, .path some leads, fun both => ?_⟩
      rw [bare] at both
      exact Bool.false_ne_true both.2
    · refine ⟨_, .options split some leads concrete foreign, fun both => ?_⟩
      simp [split] at both
  · rintro ⟨found, reads, other⟩
    cases reads with
    | @path node some leads =>
        refine .inl ⟨node, leads, ?_⟩
        rw [← Bool.not_eq_true]
        exact fun concrete => other ⟨rfl, concrete⟩
    | options split some leads concrete foreign =>
        exact .inr ⟨_, _, _, _, split, some, leads, concrete, foreign⟩

theorem LeadsTo.abbreviated (leads : tree.LeadsTo words node) (wellFormed : tree.WellFormed)
    (atRoot : tree.path = []) : node.AbbreviatedBy words := by
  obtain ⟨keys, path, matched⟩ := leads.path wellFormed
  rw [atRoot, List.nil_append] at path
  rw [← path] at matched
  exact matched

/-- Where nothing distracts, every reading is a command that the words abbreviate. -/
theorem Reads.abbreviated (reads : tree.Reads words found) (some : words ≠ [])
    (wellFormed : tree.WellFormed) (atRoot : tree.path = []) (clear : ¬ tree.Distracts words) :
    found.consumed = words.length ∧ found.node ∈ tree.concrete ∧
      found.node.AbbreviatedBy words := by
  obtain ⟨whole, concrete⟩ := not_not.mp fun other =>
    clear ((distracts_iff some).mpr ⟨found, reads, other⟩)
  exact ⟨whole, reads.mem_concrete concrete, (reads.leadsTo whole).abbreviated wellFormed atRoot⟩

theorem sizeOf_lt_of_child {child : Node} (inside : child ∈ node.children) :
    sizeOf child < sizeOf node := by
  have smaller := List.sizeOf_lt_of_mem inside
  cases node
  simp only [Node.mk.sizeOf_spec]
  simp only at smaller
  omega

theorem isConcrete_of_mem_concrete {tree : Node} (member : node ∈ tree.concrete) :
    node.isConcrete = true := by
  rw [concrete_eq] at member
  rcases List.mem_append.mp member with own | below
  · split at own
    · rename_i concrete
      rw [List.mem_singleton.mp own]
      exact concrete
    · contradiction
  · obtain ⟨child, inside, member⟩ := mem_concreteAll_iff.mp below
    exact isConcrete_of_mem_concrete member
termination_by sizeOf tree
decreasing_by exact sizeOf_lt_of_child ‹_›

end Node

namespace Registry

variable {registry : Registry} {mode : String} {words : List String} {found : Match}
  {node tree : Node} {before after : List Node}

theorem wellFormed_of_mem_searchOrder (wellFormed : registry.WellFormed)
    (member : tree ∈ registry.searchOrder mode) : tree.WellFormed ∧ tree.path = [] := by
  unfold searchOrder at member
  rcases List.mem_append.mp member with active | fallback
  · exact wellFormed mode tree (Option.mem_toList.mp active)
  · split at fallback
    · contradiction
    · exact wellFormed globalMode tree (Option.mem_toList.mp fallback)

/-- What words stand for in the first tree in which they stand for something. -/
def firstFound (words : List String) : List Node → List Match
  | [] => []
  | tree :: trees => if (tree.find words).isEmpty then firstFound words trees else tree.find words

theorem firstFound_singleton : firstFound words [tree] = tree.find words := by
  unfold firstFound
  split
  · rename_i empty
    exact (List.isEmpty_iff.mp empty).symm
  · rfl

theorem candidates_eq_firstFound :
    registry.candidates mode words = firstFound words (registry.searchOrder mode) := by
  unfold candidates searchOrder
  cases registry.tree? mode with
  | none =>
      cases registry.tree? globalMode <;> by_cases same : mode = globalMode <;>
        simp [same, firstFound]
  | some active =>
      by_cases same : mode = globalMode
      · simp [same, firstFound_singleton]
      · cases registry.tree? globalMode with
        | none => simp [same, firstFound_singleton]
        | some fallback =>
            have searched : firstFound words [active, fallback] =
                if (active.find words).isEmpty then fallback.find words else active.find words := by
              rw [firstFound, firstFound_singleton]
            simp [same, searched]

theorem firstFound_eq_singleton_iff {trees : List Node} :
    firstFound words trees = [found] ↔
      ∃ before tree after, trees = before ++ tree :: after ∧
        (∀ other ∈ before, other.find words = []) ∧ tree.find words = [found] := by
  induction trees with
  | nil => simp [firstFound]
  | cons tree trees ih =>
      unfold firstFound
      split
      · rename_i empty
        have silent := List.isEmpty_iff.mp empty
        rw [ih]
        constructor
        · rintro ⟨before, first, after, rfl, earlier, single⟩
          exact ⟨tree :: before, first, after, rfl, List.forall_mem_cons.mpr ⟨silent, earlier⟩,
            single⟩
        · rintro ⟨before, first, after, split, earlier, single⟩
          cases before with
          | nil =>
              cases split
              rw [silent] at single
              contradiction
          | cons _ before =>
              cases split
              exact ⟨before, first, after, rfl, (List.forall_mem_cons.mp earlier).2, single⟩
      · rename_i some
        constructor
        · intro single
          exact ⟨[], tree, trees, rfl, by simp, single⟩
        · rintro ⟨before, first, after, split, earlier, single⟩
          cases before with
          | nil =>
              cases split
              exact single
          | cons _ before =>
              cases split
              exact absurd (List.isEmpty_iff.mpr (List.forall_mem_cons.mp earlier).1) some

theorem lookup_eq_ok_iff_candidates :
    registry.lookup mode words = .ok found ↔ registry.candidates mode words = [found] := by
  unfold lookup
  split <;> simp_all

/-- A lookup takes the first tree in which the words stand for something. -/
theorem lookup_eq_ok_iff :
    registry.lookup mode words = .ok found ↔
      ∃ before tree after, registry.searchOrder mode = before ++ tree :: after ∧
        (∀ other ∈ before, other.find words = []) ∧ tree.find words = [found] := by
  rw [lookup_eq_ok_iff_candidates, candidates_eq_firstFound, firstFound_eq_singleton_iff]

/-- The words abbreviate one command of the mode and no other. -/
def Abbreviates (registry : Registry) (mode : String) (words : List String) (node : Node) : Prop :=
  (registry.commands mode).filter (Node.AbbreviatedBy words) = [node]

theorem Abbreviates.eq_of_mem {other : Node} (only : registry.Abbreviates mode words node)
    (searched : tree ∈ registry.searchOrder mode) (member : other ∈ tree.concrete)
    (abbreviated : other.AbbreviatedBy words) : other = node := by
  have kept : other ∈ (registry.commands mode).filter (Node.AbbreviatedBy words) :=
    List.mem_filter.mpr ⟨List.mem_flatMap.mpr ⟨tree, searched, member⟩, decide_eq_true abbreviated⟩
  rw [only] at kept
  exact List.mem_singleton.mp kept

theorem Abbreviates.isConcrete (only : registry.Abbreviates mode words node) :
    node.isConcrete = true := by
  have kept : node ∈ (registry.commands mode).filter (Node.AbbreviatedBy words) := by
    rw [only]
    exact List.mem_singleton_self node
  obtain ⟨tree, _, member⟩ := List.mem_flatMap.mp (List.mem_filter.mp kept).1
  exact Node.isConcrete_of_mem_concrete member

/-- Commands of two trees are two commands, even if they are alike. -/
theorem Abbreviates.not_before {other first second : Node}
    (only : registry.Abbreviates mode words node)
    (order : registry.searchOrder mode = before ++ tree :: after) (earlier : other ∈ before)
    (firstMember : first ∈ other.concrete) (firstMatches : first.AbbreviatedBy words)
    (secondMember : second ∈ tree.concrete) : ¬ second.AbbreviatedBy words := by
  intro secondMatches
  have inFront : first ∈ (before.flatMap Node.concrete).filter (Node.AbbreviatedBy words) :=
    List.mem_filter.mpr ⟨List.mem_flatMap.mpr ⟨other, earlier, firstMember⟩,
      decide_eq_true firstMatches⟩
  have behind : second ∈ ((tree :: after).flatMap Node.concrete).filter
      (Node.AbbreviatedBy words) :=
    List.mem_filter.mpr ⟨List.mem_flatMap.mpr ⟨tree, List.mem_cons_self, secondMember⟩,
      decide_eq_true secondMatches⟩
  have count := congrArg List.length only
  rw [commands, order, List.flatMap_append, List.filter_append, List.length_append,
    List.length_singleton] at count
  have frontCount := List.length_pos_of_mem inFront
  have behindCount := List.length_pos_of_mem behind
  omega

/-- Words that abbreviate one command of the mode stand for it if and only if no
key that is spelled out hides it, and nothing else that the words stand for, in
its own tree or in one searched before, distracts from it. -/
theorem lookup_abbreviation_iff (built : registry.Built) (some : words ≠ [])
    (only : registry.Abbreviates mode words node) :
    registry.lookup mode words = .ok { node, consumed := words.length } ↔
      ∃ before tree after, registry.searchOrder mode = before ++ tree :: after ∧
        tree.LeadsTo words node ∧ ∀ other ∈ before ++ [tree], ¬ other.Distracts words := by
  have wellFormed := built.wellFormed
  rw [lookup_eq_ok_iff]
  refine exists_congr fun before => exists_congr fun tree => exists_congr fun after =>
    and_congr_right fun order => ?_
  have sound : ∀ other ∈ before ++ [tree], other ∈ registry.searchOrder mode ∧
      other.WellFormed ∧ other.path = [] := by
    intro other member
    have searched : other ∈ registry.searchOrder mode := by
      rw [order, List.append_cons]
      exact List.mem_append_left after member
    exact ⟨searched, wellFormed_of_mem_searchOrder wellFormed searched⟩
  have here : tree ∈ before ++ [tree] := List.mem_append_right before (List.mem_singleton_self tree)
  obtain ⟨searched, shaped, atRoot⟩ := sound tree here
  rw [Node.find_eq_singleton_iff shaped]
  constructor
  · rintro ⟨silent, unique⟩
    have leads := ((unique _).mpr rfl).leadsTo rfl
    refine ⟨leads, fun other member distracts => ?_⟩
    obtain ⟨found, reads, different⟩ := (Node.distracts_iff some).mp distracts
    rcases List.mem_append.mp member with earlier | last
    · have nothing := (Node.find_eq_nil_iff (sound other member).2.1).mp (silent other earlier)
      exact nothing found reads
    · rw [List.mem_singleton.mp last] at reads
      rw [(unique found).mp reads] at different
      exact different ⟨rfl, only.isConcrete⟩
  · rintro ⟨leads, clear⟩
    have member := leads.mem_concrete only.isConcrete
    have abbreviated := leads.abbreviated shaped atRoot
    constructor
    · intro other earlier
      have inFront := List.mem_append_left [tree] earlier
      obtain ⟨_, otherShaped, otherAtRoot⟩ := sound other inFront
      refine (Node.find_eq_nil_iff otherShaped).mpr fun found reads => ?_
      obtain ⟨_, firstMember, firstMatches⟩ :=
        reads.abbreviated some otherShaped otherAtRoot (clear other inFront)
      exact only.not_before order earlier firstMember firstMatches member abbreviated
    · intro found
      constructor
      · intro reads
        obtain ⟨whole, present, matched⟩ := reads.abbreviated some shaped atRoot (clear tree here)
        cases found
        cases only.eq_of_mem searched present matched
        cases whole
        rfl
      · rintro rfl
        exact .path some leads

/-- In configuration mode nothing distracts from `show vlan`. -/
theorem show_vlan_abbreviated :
    let words := ["sh", "vl"]
    let node := Feature.Vlan.showCommand.leaf
    Feature.builtin.Built ∧ words ≠ [] ∧
      Feature.builtin.Abbreviates Feature.configMode words node ∧
      Feature.builtin.lookup Feature.configMode words = .ok { node, consumed := 2 } ∧
      ∃ before tree after,
        Feature.builtin.searchOrder Feature.configMode = before ++ tree :: after ∧
          tree.LeadsTo words node ∧ ∀ other ∈ before ++ [tree], ¬ other.Distracts words := by
  intro words node
  have some : words ≠ [] := List.cons_ne_nil _ _
  have only : Feature.builtin.Abbreviates Feature.configMode words node := rfl
  have found : Feature.builtin.lookup Feature.configMode words = .ok { node, consumed := 2 } := rfl
  exact ⟨Feature.builtin_built, some, only, found,
    (lookup_abbreviation_iff Feature.builtin_built some only).mp found⟩

/-- An abbreviation of one command only may be taken for another one: in the mode
of a VLAN the first word of `sh vlan` is also that of `shutdown`, which takes the
second one for an option. -/
theorem abbreviation_not_always_found :
    ¬ ∀ (registry : Registry) (mode : String) (words : List String) (node : Node),
      registry.Built → words ≠ [] → (∀ word ∈ words, word ≠ "") →
        registry.Abbreviates mode words node →
          registry.lookup mode words = .ok { node, consumed := words.length } := by
  intro always
  have found := always Feature.builtin Feature.vlanMode ["sh", "vlan"]
    Feature.Vlan.showCommand.leaf Feature.builtin_built (by simp) (by simp) rfl
  have captured : Feature.builtin.lookup Feature.vlanMode ["sh", "vlan"] =
      .ok { node := Feature.Vlan.shutdownCommand.leaf, consumed := 1 } := rfl
  rw [captured] at found
  simp at found

end Registry

end SwitchShell

import SwitchShell.Proofs.Feature.Builtin

namespace SwitchShell

/-! Lookups do not depend on the order of registration.

That order decides how siblings are ordered, but not what stands at a path: the
layout of a registry.  Registrations at different places change layouts
independently of each other, and trees of one layout have the same readings.
-/

/-- What stands at each path. -/
abbrev Layout := List String → Option Node

namespace Node

variable {node tree other target child sibling : Node} {change : Node → Node} {command : Command}
  {key word : String} {keys words : List String}

/-- A node apart from its place in a tree. -/
def content (node : Node) : Node :=
  { node with word := "", path := [], children := [] }

/-- The contents of the nodes of a tree by the words that lead to them. -/
def layout (tree : Node) : Layout := fun keys =>
  (tree.get? keys).map content

/-- A layout once a command stands at a path.  The nodes on the way there may be new. -/
def fill (path : List String) (command : Command) (before : Layout) : Layout := fun keys =>
  if keys = path then some (become command root)
  else if keys <+: path then some ((before keys).getD root)
  else before keys

theorem layout_nil : tree.layout [] = some tree.content := rfl

theorem layout_cons : tree.layout (key :: keys) = (tree.child? key).bind (·.layout keys) := by
  rw [layout, get?, Option.map_bind]
  rfl

theorem find?_editChild {fresh : Node} {children : List Node}
    (keeps : ∀ target, (change target).word = target.word) (named : fresh.word = word) :
    (editChild word change fresh children).find? (·.word == key) =
      if key = word then some (change ((children.find? (·.word == word)).getD fresh))
      else children.find? (·.word == key) := by
  induction children with
  | nil =>
      by_cases same : key = word
      · simp [editChild, keeps, named, same]
      · simp [editChild, keeps, named, same, Ne.symm same]
  | cons first others ih =>
      by_cases here : first.word = word
      · by_cases same : key = word
        · simp [editChild, here, keeps, same]
        · simp [editChild, here, keeps, same, Ne.symm same]
      · have passed : (first.word == word) = false := beq_false_of_ne here
        rw [editChild, if_neg here, List.find?_cons, ih]
        by_cases same : key = word
        · subst same
          simp only [passed, ↓reduceIte, List.find?_cons]
        · simp only [same, ↓reduceIte, List.find?_cons]

theorem child?_edit (harmless : Harmless change) :
    (edit change (word :: words) tree).child? key =
      if key = word then
        some (edit change words ((tree.child? word).getD { word, path := tree.path ++ [word] }))
      else tree.child? key :=
  find?_editChild (harmless.edit words).word rfl

theorem layout_edit (tokens : ∀ group ∈ command.options, group.tokens ≠ []) (path : List String) :
    (edit (become command) path tree).layout = fill path command tree.layout := by
  funext keys
  induction path generalizing tree keys with
  | nil =>
      cases keys with
      | nil => rfl
      | cons key keys => simp [fill, edit, layout_cons, child?, become]
  | cons word words ih =>
      cases keys with
      | nil => simp [fill, layout_nil, edit, content]
      | cons key keys =>
          rw [layout_cons, child?_edit (harmless_become tokens)]
          by_cases same : key = word
          · subst same
            rw [if_pos rfl, Option.bind_some, ih, fill, fill, layout_cons]
            cases present : tree.child? key with
            | some child => simp
            | none =>
                cases keys with
                | nil => simp [layout_nil, content, root]
                | cons next keys => simp [layout, get?, child?]
          · rw [if_neg same, ← layout_cons]
            simp [fill, same]

/-- Commands at different paths do not see each other. -/
theorem fill_comm {first second : Command} {firstPath secondPath : List String}
    (apart : firstPath ≠ secondPath) (before : Layout) :
    fill firstPath first (fill secondPath second before) =
      fill secondPath second (fill firstPath first before) := by
  funext keys
  by_cases one : keys = firstPath
  · simp [fill, one, apart]
  · by_cases two : keys = secondPath
    · simp [fill, two, Ne.symm apart]
    · simp only [fill, one, two, ↓reduceIte]
      split <;> split <;> rfl

/-- Trees at the same place and of the same layout. -/
structure Alike (tree other : Node) : Prop where
  path : tree.path = other.path
  layout : tree.layout = other.layout

theorem Alike.symm (alike : tree.Alike other) : other.Alike tree :=
  ⟨alike.path.symm, alike.layout.symm⟩

theorem Alike.content (alike : tree.Alike other) : tree.content = other.content :=
  Option.some.inj (congrFun alike.layout [])

theorem Alike.isConcrete (alike : tree.Alike other) : tree.isConcrete = other.isConcrete := by
  have same : tree.content.isConcrete = other.content.isConcrete := by rw [alike.content]
  exact same

theorem Alike.exists_twin (alike : tree.Alike other) (shaped : tree.WellFormed)
    (otherShaped : other.WellFormed) (member : child ∈ tree.children) :
    ∃ twin ∈ other.children, twin.word = child.word ∧ child.Alike twin := by
  have below (keys : List String) :
      child.layout keys = (other.child? child.word).bind (·.layout keys) := by
    rw [← layout_cons, ← alike.layout, layout_cons, child?_of_mem shaped.distinct member]
    rfl
  cases found : other.child? child.word with
  | none =>
      have missing := below []
      rw [found] at missing
      contradiction
  | some twin =>
      have twinMember := List.mem_of_find?_eq_some found
      have spelled : twin.word = child.word := by simpa using List.find?_some found
      refine ⟨twin, twinMember, spelled, ?_, ?_⟩
      · rw [shaped.paths child member, otherShaped.paths twin twinMember, alike.path, spelled]
      · funext keys
        rw [below, found]
        rfl

theorem Alike.leadsTo (alike : tree.Alike other) (shaped : tree.WellFormed)
    (otherShaped : other.WellFormed) (leads : tree.LeadsTo words target) :
    ∃ twin, other.LeadsTo words twin ∧ target.Alike twin := by
  induction leads generalizing other with
  | here => exact ⟨other, .here, alike⟩
  | @down node child target word words member begins shown _ ih =>
      obtain ⟨twin, twinMember, spelled, same⟩ := alike.exists_twin shaped otherShaped member
      obtain ⟨last, onward, end_⟩ :=
        ih same (shaped.inside child member) (otherShaped.inside twin twinMember)
      refine ⟨last, .down twinMember (spelled ▸ begins) ?_ onward, end_⟩
      refine shown.imp (fun exact => spelled.trans exact) fun hidden sibling siblingMember => ?_
      obtain ⟨origin, originMember, same, _⟩ :=
        alike.symm.exists_twin otherShaped shaped siblingMember
      exact same ▸ hidden origin originMember

theorem Alike.reads (alike : tree.Alike other) (shaped : tree.WellFormed)
    (otherShaped : other.WellFormed) {found : Match} (reads : tree.Reads words found) :
    ∃ twin, other.Reads words twin ∧ twin.consumed = found.consumed ∧
      found.node.Alike twin.node := by
  cases reads with
  | path some leads =>
      obtain ⟨twin, twinLeads, same⟩ := alike.leadsTo shaped otherShaped leads
      exact ⟨_, .path some twinLeads, rfl, same⟩
  | @options node taken word rest split some leads concrete foreign =>
      obtain ⟨twin, twinLeads, same⟩ := alike.leadsTo shaped otherShaped leads
      refine ⟨_, .options split some twinLeads (same.isConcrete ▸ concrete) ?_, rfl, same⟩
      intro child member
      obtain ⟨origin, originMember, spelled, _⟩ :=
        same.symm.exists_twin (twinLeads.wellFormed otherShaped) (leads.wellFormed shaped) member
      exact spelled ▸ foreign origin originMember

end Node

/-- What a lookup tells of the node it finds: how many words its path took, the
path, and what stands there. -/
def Match.gist (found : Match) : Nat × List String × Node :=
  (found.consumed, found.node.path, found.node.content)

namespace Node

variable {tree other : Node} {words : List String}

theorem nodup_gist_find (shaped : tree.WellFormed) :
    ((tree.find words).map Match.gist).Nodup := by
  refine List.Nodup.of_map (fun gist => gist.2.1) ?_
  rw [List.map_map]
  exact nodup_path_findFrom shaped

theorem Alike.perm_find (alike : tree.Alike other) (shaped : tree.WellFormed)
    (otherShaped : other.WellFormed) (words : List String) :
    ((tree.find words).map Match.gist).Perm ((other.find words).map Match.gist) := by
  have carried {tree other : Node} (alike : tree.Alike other) (shaped : tree.WellFormed)
      (otherShaped : other.WellFormed) {gist : Nat × List String × Node}
      (member : gist ∈ (tree.find words).map Match.gist) :
      gist ∈ (other.find words).map Match.gist := by
    obtain ⟨found, present, rfl⟩ := List.mem_map.mp member
    obtain ⟨twin, reads, count, same⟩ :=
      alike.reads shaped otherShaped ((mem_find_iff shaped).mp present)
    refine List.mem_map.mpr ⟨twin, (mem_find_iff otherShaped).mpr reads, ?_⟩
    rw [Match.gist, Match.gist, count, same.path, same.content]
  exact (List.perm_ext_iff_of_nodup (nodup_gist_find shaped) (nodup_gist_find otherShaped)).mpr
    fun gist => ⟨carried alike shaped otherShaped, carried alike.symm otherShaped shaped⟩

end Node

namespace Registry

variable {registry first second : Registry} {mode : String} {command : Command}
  {words keys : List String} {entries others : List (String × Command)}

/-- What stands at each path of each mode. -/
def layout (registry : Registry) (mode : String) : Layout := fun keys =>
  (registry.tree? mode).bind (·.layout keys)

theorem perm_found (same : first.layout = second.layout) (shaped : first.WellFormed)
    (otherShaped : second.WellFormed) (mode : String) (words : List String) :
    ((((first.tree? mode).map (·.find words)).getD []).map Match.gist).Perm
      ((((second.tree? mode).map (·.find words)).getD []).map Match.gist) := by
  have here := congrFun same mode
  unfold layout at here
  cases left : first.tree? mode with
  | none =>
      cases right : second.tree? mode with
      | none => exact .refl _
      | some other =>
          rw [left, right] at here
          exact absurd (congrFun here []) (by simp [Node.layout_nil])
  | some tree =>
      cases right : second.tree? mode with
      | none =>
          rw [left, right] at here
          exact absurd (congrFun here []) (by simp [Node.layout_nil])
      | some other =>
          rw [left, right] at here
          obtain ⟨good, root⟩ := shaped mode tree left
          obtain ⟨otherGood, otherRoot⟩ := otherShaped mode other right
          exact Node.Alike.perm_find ⟨root.trans otherRoot.symm, here⟩ good otherGood words

theorem perm_candidates (same : first.layout = second.layout) (shaped : first.WellFormed)
    (otherShaped : second.WellFormed) (mode : String) (words : List String) :
    ((first.candidates mode words).map Match.gist).Perm
      ((second.candidates mode words).map Match.gist) := by
  have active := perm_found same shaped otherShaped mode words
  have silent := active.length_eq
  rw [List.length_map, List.length_map] at silent
  simp only [candidates, List.isEmpty_iff_length_eq_zero, silent]
  split
  · exact perm_found same shaped otherShaped globalMode words
  · exact active

theorem lookup_of_layout (same : first.layout = second.layout) (shaped : first.WellFormed)
    (otherShaped : second.WellFormed) (mode : String) (words : List String) :
    (first.lookup mode words).map Match.gist = (second.lookup mode words).map Match.gist := by
  have found := perm_candidates same shaped otherShaped mode words
  unfold lookup
  match left : first.candidates mode words, right : second.candidates mode words with
  | [], [] => rfl
  | [one], [two] =>
      rw [left, right] at found
      exact congrArg Except.ok (List.singleton_perm_singleton.mp found)
  | _ :: _ :: _, _ :: _ :: _ => rfl
  | [], _ :: _ | [_], [] | [_], _ :: _ :: _ | _ :: _ :: _, [] | _ :: _ :: _, [_] =>
      rw [left, right] at found
      simpa using found.length_eq

theorem layout_treeOrEmpty_cons {key : String} :
    (registry.treeOrEmpty mode).layout (key :: keys) = registry.layout mode (key :: keys) := by
  unfold treeOrEmpty layout
  cases registry.tree? mode <;> rfl

theorem fill_treeOrEmpty {path : List String} (some : path ≠ []) :
    Node.fill path command (registry.treeOrEmpty mode).layout =
      Node.fill path command (registry.layout mode) := by
  funext keys
  cases keys with
  | cons key keys => rw [Node.fill, Node.fill, layout_treeOrEmpty_cons]
  | nil =>
      unfold Node.fill treeOrEmpty layout
      cases registry.tree? mode <;> simp [some.symm, Node.layout_nil, Node.content, Node.root]

theorem layout_setTree (tree : Node) :
    (registry.setTree mode tree).layout = Function.update registry.layout mode tree.layout := by
  funext searched keys
  unfold layout setTree tree?
  by_cases same : searched = mode
  · subst same
    rw [Dictionary.find?_insert_self, Function.update_self]
    rfl
  · rw [Dictionary.find?_insert_of_ne same, Function.update_of_ne same]

/-- Where a command is registered. -/
def place (entry : String × Command) : String × List String :=
  (entry.1, entry.2.path)

/-- The layouts of all modes once a command is registered. -/
def record (before : String → Layout) (entry : String × Command) : String → Layout :=
  Function.update before entry.1 (Node.fill entry.2.path entry.2 (before entry.1))

theorem record_comm {one two : String × Command} (apart : place one ≠ place two)
    (before : String → Layout) :
    record (record before one) two = record (record before two) one := by
  obtain ⟨mode, one⟩ := one
  obtain ⟨other, two⟩ := two
  unfold record
  by_cases same : mode = other
  · subst same
    have paths : two.path ≠ one.path := fun equal => apart (congrArg (mode, ·) equal.symm)
    simp only [Function.update_self, Function.update_idem, Node.fill_comm paths]
  · simp only [Function.update_of_ne same, Function.update_of_ne (Ne.symm same)]
    exact Function.update_comm same _ _ _

/-- A command is registered where none is yet. -/
theorem register_of_free (valid : command.Valid)
    (free : (registry.layout mode command.path).any Node.isConcrete = false) :
    ∃ after, registry.register mode command = (.ok (), after) ∧
      after.layout = record registry.layout (mode, command) := by
  have vacant : ((registry.treeOrEmpty mode).get? command.path).any Node.isConcrete = false := by
    obtain ⟨key, keys, path⟩ := List.exists_cons_of_ne_nil valid.somewhere
    rw [path, ← layout_treeOrEmpty_cons, Node.layout, Option.any_map] at free
    exact path ▸ free
  refine ⟨registry.setTree mode ((registry.treeOrEmpty mode).edit (Node.become command)
    command.path), ?_, ?_⟩
  · simp only [register, Node.insert_eq_ok_iff.mpr ⟨valid, vacant, rfl⟩]
  · rw [layout_setTree, Node.layout_edit valid.tokens, fill_treeOrEmpty valid.somewhere]
    rfl

/-- A command takes no other place. -/
theorem free_record {one two : String × Command} {before : String → Layout}
    (apart : place two ≠ place one)
    (free : (before two.1 two.2.path).any Node.isConcrete = false) :
    (record before one two.1 two.2.path).any Node.isConcrete = false := by
  obtain ⟨mode, one⟩ := one
  obtain ⟨other, two⟩ := two
  unfold record
  by_cases same : other = mode
  · subst same
    have paths : two.path ≠ one.path := fun equal => apart (congrArg (other, ·) equal)
    rw [Function.update_self, Node.fill, if_neg paths]
    split
    · cases found : before other two.path with
      | none => rfl
      | some node =>
          rw [found] at free
          exact free
    · exact free
  · rw [Function.update_of_ne same]
    exact free

/-- Registers commands in turn, each of them in a mode of its own. -/
def registerEach (entries : List (String × Command)) : Feature.Registration :=
  Feature.inTurn (entries.map fun (mode, command) => register mode command)

theorem built_registerEach {after : Registry} (built : registry.Built)
    (registered : registerEach entries registry = (.ok (), after)) : after.Built := by
  have last := congrArg Prod.snd registered
  subst last
  refine Feature.built_inTurn _ registry ?_ built
  intro step member registry built
  obtain ⟨⟨mode, command⟩, _, rfl⟩ := List.mem_map.mp member
  exact .register mode command built

/-- Commands at different free places are all registered. -/
theorem registerEach_of_free (valid : ∀ entry ∈ entries, entry.2.Valid)
    (distinct : (entries.map place).Nodup)
    (free : ∀ entry ∈ entries, (registry.layout entry.1 entry.2.path).any Node.isConcrete = false) :
    ∃ after, registerEach entries registry = (.ok (), after) ∧
      after.layout = entries.foldl record registry.layout := by
  induction entries generalizing registry with
  | nil => exact ⟨registry, rfl, rfl⟩
  | cons entry entries ih =>
      obtain ⟨mode, command⟩ := entry
      obtain ⟨fresh, others⟩ := List.nodup_cons.mp distinct
      obtain ⟨validFirst, validOthers⟩ := List.forall_mem_cons.mp valid
      obtain ⟨freeFirst, freeOthers⟩ := List.forall_mem_cons.mp free
      obtain ⟨between, registered, recorded⟩ := register_of_free validFirst freeFirst
      have stillFree : ∀ other ∈ entries,
          (between.layout other.1 other.2.path).any Node.isConcrete = false := by
        intro other member
        rw [recorded]
        refine free_record (fun same => fresh ?_) (freeOthers other member)
        exact same ▸ List.mem_map_of_mem member
      obtain ⟨after, rest, layout⟩ := ih validOthers others stillFree
      refine ⟨after, ?_, ?_⟩
      · simp only [registerEach, List.map_cons, Feature.inTurn, registered]
        exact rest
      · rw [layout, recorded]
        rfl

theorem foldl_record_perm (perm : entries.Perm others) (distinct : (entries.map place).Nodup)
    (before : String → Layout) :
    entries.foldl record before = others.foldl record before := by
  refine perm.foldl_eq' (fun one oneMember two twoMember before => ?_) before
  by_cases same : place one = place two
  · rw [List.inj_on_of_nodup_map distinct oneMember twoMember same]
  · exact record_comm same before

theorem layout_empty {key : String} : Registry.empty.layout mode (key :: keys) = none := by
  have trees : Registry.empty.tree? mode =
      if globalMode = mode then some Node.root
      else if rootMode = mode then some Node.root else none := rfl
  rw [layout, trees]
  split
  · rfl
  · split <;> rfl

/-- Registering commands at different places succeeds in every order, and lookups
then give the same. -/
theorem lookup_of_perm (perm : entries.Perm others) (valid : ∀ entry ∈ entries, entry.2.Valid)
    (distinct : (entries.map place).Nodup) :
    ∃ first second, registerEach entries Registry.empty = (.ok (), first) ∧
      registerEach others Registry.empty = (.ok (), second) ∧
      ∀ mode words,
        (first.lookup mode words).map Match.gist = (second.lookup mode words).map Match.gist := by
  have free {entry : String × Command} (valid : entry.2.Valid) :
      (Registry.empty.layout entry.1 entry.2.path).any Node.isConcrete = false := by
    obtain ⟨key, keys, path⟩ := List.exists_cons_of_ne_nil valid.somewhere
    rw [path, layout_empty]
    rfl
  have otherValid : ∀ entry ∈ others, entry.2.Valid := fun entry member =>
    valid entry (perm.mem_iff.mpr member)
  obtain ⟨first, registered, layout⟩ :=
    registerEach_of_free valid distinct fun entry member => free (valid entry member)
  obtain ⟨second, otherRegistered, otherLayout⟩ :=
    registerEach_of_free otherValid ((perm.map place).nodup_iff.mp distinct)
      fun entry member => free (otherValid entry member)
  refine ⟨first, second, registered, otherRegistered, lookup_of_layout ?_
    (built_registerEach .empty registered).wellFormed
    (built_registerEach .empty otherRegistered).wellFormed⟩
  rw [layout, otherLayout, foldl_record_perm perm distinct]

/-- A command on the way to another one may come before it or after it. -/
theorem lookup_of_later_prefix :
    let long := Feature.Vlan.showCommand
    let short := Command.ofPath "show" "Show a summary" long.handler
    let beside := Command.ofPath "shutdown" "Disable everything" long.handler
    let entries :=
      [(globalMode, long), (globalMode, short), (rootMode, beside), (globalMode, beside)]
    ∃ first second, registerEach entries Registry.empty = (.ok (), first) ∧
      registerEach entries.reverse Registry.empty = (.ok (), second) ∧
      ∀ mode words,
        (first.lookup mode words).map Match.gist = (second.lookup mode words).map Match.gist := by
  intro long short beside entries
  refine lookup_of_perm entries.reverse_perm.symm ?_ (by decide)
  have valid (command : Command) (somewhere : command.path ≠ [])
      (plain : command.options.all (fun group => !group.tokens.isEmpty) = true) : command.Valid :=
    ⟨somewhere, by simpa using plain⟩
  simp only [entries, List.forall_mem_cons, List.not_mem_nil, false_implies, implies_true, and_true]
  exact ⟨valid long (by decide) rfl, valid short (by decide) rfl, valid beside (by decide) rfl,
    valid beside (by decide) rfl⟩

end Registry

end SwitchShell

import SwitchShell.Proofs.Command.Abbreviation
import SwitchShell.Proofs.Completion.Executable

namespace SwitchShell

/-! Whether completion offers the words that a lookup accepts.

Completion looks up the finished words alone, which need one reading then.  A
lookup of the whole line takes the last word into account: it settles between
several readings of the finished words, and between the tree of the mode and the
global one.
-/

namespace HelpItem

variable {items : List HelpItem} {item : HelpItem}

theorem find?_distinct (items : List HelpItem) (text : String) :
    (distinct items).find? (·.text == text) = items.find? (·.text == text) := by
  induction items with
  | nil => rfl
  | cons item items ih =>
      rw [distinct, List.find?_cons, List.find?_cons]
      cases same : item.text == text with
      | true => rfl
      | false =>
          have differs := ne_of_beq_false same
          rw [← ih, List.find?_filter]
          refine congrArg (List.find? · (distinct items)) (funext fun other => ?_)
          by_cases found : other.text = text
          · simp [found, Ne.symm differs]
          · simp [found]

theorem exists_mem_distinct (typed : ∀ item ∈ items, item.literal = true) (member : item ∈ items)
    (others : List HelpItem) :
    ∃ kept ∈ distinct (items ++ others), kept.literal = true ∧ kept.text = item.text := by
  cases found : items.find? (·.text == item.text) with
  | none => exact absurd (List.find?_eq_none.mp found item member) (by simp)
  | some kept =>
      have first : (distinct (items ++ others)).find? (·.text == item.text) = some kept := by
        rw [find?_distinct, List.find?_append, found, Option.some_or]
      exact ⟨kept, List.mem_of_find?_eq_some first, typed kept (List.mem_of_find?_eq_some found),
        by simpa using List.find?_some found⟩

end HelpItem

namespace Node

variable {tree parent target : Node} {words later : List String} {word : String} {found : Match}

theorem LeadsTo.append (leads : tree.LeadsTo words parent) (onward : parent.LeadsTo later target) :
    tree.LeadsTo (words ++ later) target := by
  induction leads with
  | here => exact onward
  | down member begins shown _ ih => exact .down member begins shown (ih onward)

theorem LeadsTo.exists_parent (leads : tree.LeadsTo (words ++ [word]) target) :
    ∃ parent, tree.LeadsTo words parent ∧ target ∈ parent.children ∧
      Text.startsWith target.word word = true := by
  induction words generalizing tree with
  | nil =>
      cases leads with
      | down member begins _ onward =>
          cases leadsTo_nil_iff.mp onward
          exact ⟨tree, .here, member, begins⟩
  | cons first words ih =>
      cases leads with
      | down member begins shown onward =>
          obtain ⟨parent, above, inside, last⟩ := ih onward
          exact ⟨parent, .down member begins shown above, inside, last⟩

/-- Words with a reading have one with a further word as well, unless they lead to
a placeholder with nothing below that begins with it. -/
theorem Reads.placeholder_of_stuck (reads : tree.Reads words found) (shaped : tree.WellFormed)
    (stuck : ∀ other, ¬ tree.Reads (words ++ [word]) other) :
    found.consumed = words.length ∧ found.node.isConcrete = false ∧
      ∀ child ∈ found.node.children, Text.startsWith child.word word = false := by
  cases reads with
  | @options node taken head rest split some leads concrete foreign =>
      have further : words ++ [word] = taken ++ head :: (rest ++ [word]) := by
        rw [split, List.append_assoc, List.cons_append]
      exact absurd (.options further some leads concrete foreign) (stuck _)
  | @path node some leads =>
      have foreign : ∀ child ∈ node.children, Text.startsWith child.word word = false := by
        rw [← follow_eq_nil_iff, List.eq_nil_iff_forall_not_mem]
        intro child followed
        have onward : node.LeadsTo [word] child :=
          (leadsTo_cons_iff (leads.wellFormed shaped).distinct).mpr ⟨child, followed, .here⟩
        exact stuck _ (.path (by simp) (leads.append onward))
      refine ⟨rfl, ?_, foreign⟩
      rw [← Bool.not_eq_true]
      exact fun concrete => stuck _ (.options rfl some leads concrete foreign)

end Node

namespace Completion

variable {registry : Registry} {mode : String} {names : Names} {words : List String}
  {request : Request} {found : Match} {parent : Node}

/-- The completion has the last word of the node as an item that can be typed. -/
def Offers (completion : Completion) (node : Node) : Prop :=
  ∃ item ∈ completion.items, item.literal = true ∧ node.path.getLast? = some item.text

/-- The words lead to the node above by themselves. -/
def ReachesParent (registry : Registry) (mode : String) (words : List String)
    (node : Node) : Prop :=
  words = [] ∨ ∃ parent,
    registry.lookup mode words = .ok { node := parent, consumed := words.length } ∧
    node ∈ parent.children

theorem literal_of_mem_childItems {stem : String} {item : HelpItem}
    (member : item ∈ childItems stem parent) : item.literal = true := by
  obtain ⟨child, _, rfl⟩ := List.mem_map.mp member
  rfl

theorem wordItem_mem_childItems {stem : String} {child : Node} (member : child ∈ parent.children)
    (begins : Text.startsWith child.word stem = true) : child.wordItem ∈ childItems stem parent :=
  List.mem_map_of_mem (List.mem_filter.mpr ⟨member, begins⟩)

theorem ofCommand_exists (names : Names) (request : Request) (shaped : found.node.WellFormed)
    (whole : found.consumed = request.words.length) :
    ∃ completion others, ofCommand names request found = .ok completion ∧
      completion.items =
        HelpItem.distinct (childItems request.stem found.node ++ others) ∧
      (found.node.isConcrete = false → others = []) := by
  have rest : request.words.drop found.consumed = [] := by rw [whole, List.drop_length]
  cases concrete : found.node.isConcrete with
  | false =>
      simp only [ofCommand, concrete, rest, Bool.false_eq_true, ↓reduceIte, List.isEmpty_nil]
      exact ⟨_, [], rfl, by rw [List.append_nil], fun _ => rfl⟩
  | true =>
      obtain ⟨next, answered⟩ := offered_exists names [] [] shaped.tokens
      simp only [ofCommand, concrete, rest, ↓reduceIte, List.isEmpty_nil, answered]
      exact ⟨_, _, rfl, rfl, by simp⟩

theorem firstFound_ne_nil {trees : List Node} {tree : Node} (member : tree ∈ trees)
    (leads : tree.find words ≠ []) : Registry.firstFound words trees ≠ [] := by
  induction trees with
  | nil => contradiction
  | cons first trees ih =>
      unfold Registry.firstFound
      split
      · rename_i empty
        rcases List.mem_cons.mp member with rfl | later
        · exact absurd (List.isEmpty_iff.mp empty) leads
        · exact ih later
      · rename_i some
        exact fun empty => some (List.isEmpty_iff.mpr empty)

theorem ambiguous_of_error {tree : Node} {fault : Fault}
    (searched : tree ∈ registry.searchOrder mode) (present : tree.find words ≠ [])
    (refused : registry.lookup mode words = .error fault) : fault = .ambiguous := by
  have found := firstFound_ne_nil searched present
  rw [← Registry.candidates_eq_firstFound] at found
  unfold Registry.lookup at refused
  split at refused
  · contradiction
  · contradiction
  · exact (Except.error.inj refused).symm

/-- The first tree in which the finished words stand for something is the one of the
whole line, or searched before it. -/
theorem eq_or_mem_of_order {trees before after earlier later : List Node} {tree first : Node}
    (order : trees = before ++ tree :: after) (leads : tree.find words ≠ [])
    (orderFirst : trees = earlier ++ first :: later)
    (silent : ∀ other ∈ earlier, other.find words = []) : first = tree ∨ first ∈ before := by
  rw [order] at orderFirst
  rcases List.append_eq_append_iff.mp orderFirst with ⟨between, split, rest⟩ | ⟨between, split, rest⟩
  · cases between with
    | nil => exact .inl (List.cons.inj rest).1.symm
    | cons next between =>
        obtain ⟨rfl, _⟩ := List.cons.inj rest
        exact absurd (silent tree (by simp [split])) leads
  · cases between with
    | nil => exact .inl (List.cons.inj rest).1
    | cons next between =>
        obtain ⟨rfl, _⟩ := List.cons.inj rest
        exact .inr (by simp [split])

/-- What a lookup of the whole line says about the tree in which it finds the node. -/
theorem exists_parent_of_lookup {word : String} (wellFormed : registry.WellFormed)
    (looked : registry.lookup mode (words ++ [word]) = .ok found)
    (whole : found.consumed = words.length + 1) :
    ∃ before tree after parent, registry.searchOrder mode = before ++ tree :: after ∧
      (∀ other ∈ before, other.find (words ++ [word]) = []) ∧ tree.LeadsTo words parent ∧
      found.node ∈ parent.children ∧ Text.startsWith found.node.word word = true ∧
      found.node.path.getLast? = some found.node.word := by
  obtain ⟨before, tree, after, order, earlier, single⟩ := Registry.lookup_eq_ok_iff.mp looked
  have searched : tree ∈ registry.searchOrder mode := by simp [order]
  obtain ⟨shaped, _⟩ := Registry.wellFormed_of_mem_searchOrder wellFormed searched
  have reads := (Node.mem_find_iff shaped).mp (single ▸ List.mem_singleton_self found)
  have leads := reads.leadsTo (by rw [whole, List.length_append, List.length_singleton])
  obtain ⟨parent, above, inside, begins⟩ := leads.exists_parent
  refine ⟨before, tree, after, parent, order, earlier, above, inside, begins, ?_⟩
  rw [(above.wellFormed shaped).paths found.node inside, List.getLast?_concat]

theorem locate_of_ok (some : words ≠ []) (looked : registry.lookup mode words = .ok found) :
    Position.locate registry mode words = .command found := by
  rw [Position.locate, if_neg (by simpa using some), looked]

theorem locate_of_error {fault : Fault} (some : words ≠ [])
    (looked : registry.lookup mode words = .error fault) :
    Position.locate registry mode words = .unknown := by
  rw [Position.locate, if_neg (by simpa using some), looked]

/-- If the words reach the node above by themselves, completion offers the last one. -/
theorem offers_of_reachesParent (wellFormed : registry.WellFormed)
    (looked : registry.lookup mode (request.words ++ [request.stem]) = .ok found)
    (whole : found.consumed = request.words.length + 1) (names : Names)
    (reaches : ReachesParent registry mode request.words found.node) :
    ∃ completion,
      ofRequest registry mode names request (.locate registry mode request.words) = .ok completion ∧
        completion.Offers found.node := by
  obtain ⟨before, tree, after, above, order, _, leads, inside, begins, last⟩ :=
    exists_parent_of_lookup wellFormed looked whole
  rcases reaches with none | ⟨parent, reached, inside⟩
  · rw [none] at leads
    obtain rfl := Node.leadsTo_nil_iff.mp leads
    have listed : found.node.wordItem ∈
        (registry.searchOrder mode).flatMap (childItems request.stem) :=
      List.mem_flatMap.mpr ⟨above, by simp [order], wordItem_mem_childItems inside begins⟩
    have typed : ∀ item ∈ (registry.searchOrder mode).flatMap (childItems request.stem),
        item.literal = true := by
      intro item member
      obtain ⟨tree, _, member⟩ := List.mem_flatMap.mp member
      exact literal_of_mem_childItems member
    obtain ⟨kept, member, literal, text⟩ :=
      HelpItem.exists_mem_distinct typed listed []
    refine ⟨_, by rw [none]; rfl, kept, ?_, literal, by rw [last, text]; rfl⟩
    rw [List.append_nil] at member
    exact member
  · obtain ⟨completion, others, answered, items, _⟩ :=
      ofCommand_exists names request (Registry.wellFormed_of_lookup wellFormed reached) rfl
    obtain ⟨kept, member, literal, text⟩ := HelpItem.exists_mem_distinct
      (fun _ => literal_of_mem_childItems) (wordItem_mem_childItems inside begins) others
    have some : request.words ≠ [] := by
      intro none
      rw [none, Registry.lookup_nil] at reached
      contradiction
    refine ⟨completion, ?_, kept, items ▸ member, literal, by rw [last, text]; rfl⟩
    rw [locate_of_ok some reached]
    exact answered

/-- Below a placeholder nothing is offered for a word that begins no child of it. -/
theorem silent_of_placeholder (wellFormed : registry.WellFormed) (some : request.words ≠ [])
    (reached : registry.lookup mode request.words = .ok found)
    (whole : found.consumed = request.words.length) (names : Names)
    (bare : found.node.isConcrete = false)
    (foreign : ∀ child ∈ found.node.children, Text.startsWith child.word request.stem = false) :
    ∃ completion,
      ofRequest registry mode names request (.locate registry mode request.words) = .ok completion ∧
        completion.items = [] := by
  obtain ⟨completion, others, answered, items, nothing⟩ :=
    ofCommand_exists names request (Registry.wellFormed_of_lookup wellFormed reached) whole
  refine ⟨completion, by rw [locate_of_ok some reached]; exact answered, ?_⟩
  have below : childItems request.stem found.node = [] := by
    rw [childItems, List.filter_eq_nil_iff.mpr (by simpa using foreign), List.map_nil]
  rw [items, below, nothing bare]
  rfl

/-- Otherwise the words have several readings, or lead to a placeholder in the tree
of the mode, and nothing is offered. -/
theorem silent_of_not_reachesParent (wellFormed : registry.WellFormed)
    (looked : registry.lookup mode (request.words ++ [request.stem]) = .ok found)
    (whole : found.consumed = request.words.length + 1) (names : Names)
    (misses : ¬ ReachesParent registry mode request.words found.node) :
    ∃ completion,
      ofRequest registry mode names request (.locate registry mode request.words) = .ok completion ∧
        completion.items = [] ∧
        (registry.lookup mode request.words = .error .ambiguous ∨
          ∃ tree placeholder, registry.tree? mode = some tree ∧
            tree.find request.words =
              [{ node := placeholder, consumed := request.words.length }] ∧
            registry.lookup mode request.words =
              .ok { node := placeholder, consumed := request.words.length } ∧
            placeholder.isConcrete = false ∧
            ∀ child ∈ placeholder.children, Text.startsWith child.word request.stem = false) := by
  obtain ⟨before, tree, after, above, order, silent, leads, inside, begins, _⟩ :=
    exists_parent_of_lookup wellFormed looked whole
  have some : request.words ≠ [] := fun none => misses (.inl none)
  have searched : tree ∈ registry.searchOrder mode := by simp [order]
  have sound {other : Node} (member : other ∈ registry.searchOrder mode) : other.WellFormed :=
    (Registry.wellFormed_of_mem_searchOrder wellFormed member).1
  have reading : { node := above, consumed := request.words.length } ∈ tree.find request.words :=
    (Node.mem_find_iff (sound searched)).mpr (.path some leads)
  have present : tree.find request.words ≠ [] := List.ne_nil_of_mem reading
  cases reached : registry.lookup mode request.words with
  | error fault =>
      refine ⟨{ stem := request.stem }, by rw [locate_of_error some reached]; rfl, rfl, .inl ?_⟩
      rw [ambiguous_of_error searched present reached]
  | ok first =>
      obtain ⟨earlier, searchedFirst, later, orderFirst, silentFirst, single⟩ :=
        Registry.lookup_eq_ok_iff.mp reached
      rcases eq_or_mem_of_order order present orderFirst silentFirst with rfl | inFront
      · rw [single, List.mem_singleton] at reading
        subst reading
        exact absurd (.inr ⟨above, reached, inside⟩) misses
      · have shaped : searchedFirst.WellFormed := sound (by simp [orderFirst])
        have reads := (Node.mem_find_iff shaped).mp (single ▸ List.mem_singleton_self first)
        obtain ⟨whole, bare, foreign⟩ := reads.placeholder_of_stuck shaped
          ((Node.find_eq_nil_iff shaped).mp (silent searchedFirst inFront))
        obtain ⟨completion, answered, nothing⟩ :=
          silent_of_placeholder wellFormed some reached whole names bare foreign
        have own : registry.tree? mode = Option.some searchedFirst :=
          Registry.tree?_of_mem_before order inFront
        rw [← whole]
        exact ⟨completion, answered, nothing,
          .inr ⟨searchedFirst, first.node, own, single, rfl, bare, foreign⟩⟩

/-- A word that a lookup takes for the last one of a path is offered if and only if
the words before it reach the node above by themselves. -/
theorem accepted_word_offered_iff (built : registry.Built)
    (looked : registry.lookup mode (request.words ++ [request.stem]) = .ok found)
    (whole : found.consumed = request.words.length + 1) (names : Names) :
    ∃ completion,
      ofRequest registry mode names request (.locate registry mode request.words) = .ok completion ∧
        (completion.Offers found.node ↔
          ReachesParent registry mode request.words found.node) ∧
        (¬ ReachesParent registry mode request.words found.node →
          completion.items = [] ∧
            (registry.lookup mode request.words = .error .ambiguous ∨
              ∃ tree placeholder, registry.tree? mode = some tree ∧
                tree.find request.words =
                  [{ node := placeholder, consumed := request.words.length }] ∧
                registry.lookup mode request.words =
                  .ok { node := placeholder, consumed := request.words.length } ∧
                placeholder.isConcrete = false ∧
                ∀ child ∈ placeholder.children,
                  Text.startsWith child.word request.stem = false)) := by
  by_cases reaches : ReachesParent registry mode request.words found.node
  · obtain ⟨completion, answered, offers⟩ :=
      offers_of_reachesParent built.wellFormed looked whole names reaches
    exact ⟨completion, answered, iff_of_true offers reaches, fun misses => absurd reaches misses⟩
  · obtain ⟨completion, answered, nothing, cause⟩ :=
      silent_of_not_reachesParent built.wellFormed looked whole names reaches
    have silent : ¬ completion.Offers found.node := by
      rintro ⟨item, member, _⟩
      rw [nothing] at member
      contradiction
    exact ⟨completion, answered, iff_of_false silent reaches, fun _ => ⟨nothing, cause⟩⟩

/-- In the mode of a VLAN `show` reaches the node above `show vlan`. -/
theorem show_vlan_offered :
    let request : Request := { words := ["show"], stem := "vl", negated := false }
    let found : Match := { node := Feature.Vlan.showCommand.leaf, consumed := 2 }
    Feature.builtin.lookup Feature.vlanMode (request.words ++ [request.stem]) = .ok found ∧
      found.consumed = request.words.length + 1 ∧
      ∃ completion, ofRequest Feature.builtin Feature.vlanMode {} request
          (.locate Feature.builtin Feature.vlanMode request.words) = .ok completion ∧
        completion.Offers found.node := by
  intro request found
  have spelled : Feature.builtin.lookup Feature.vlanMode ["show", "vl"] =
      .ok { node := Feature.Vlan.showCommand.leaf, consumed := 2 } := rfl
  have looked : Feature.builtin.lookup Feature.vlanMode (request.words ++ [request.stem]) =
      .ok found := spelled
  obtain ⟨completion, answered, offers, _⟩ :=
    accepted_word_offered_iff Feature.builtin_built looked rfl {}
  refine ⟨looked, rfl, completion, answered, offers.mpr (.inr ⟨_, rfl, ?_⟩)⟩
  exact .tail _ (.tail _ (.tail _ (.head _)))

/-- A mode with the commands `show vlan` and `shut now`. -/
def showAndShut : Registry :=
  (Registry.empty.registerAll Feature.vlanMode
    [Feature.Vlan.showCommand, { Feature.Vlan.showCommand with path := ["shut", "now"] }]).2

/-- A word may settle what the words before it stand for: only `show vlan` begins with
`sh vl`, but completion asks for `sh` alone. -/
theorem accepted_word_not_always_offered :
    ¬ ∀ (registry : Registry) (mode : String) (names : Names) (request : Request) (found : Match),
      registry.Built → request.stem ≠ "" →
        registry.lookup mode (request.words ++ [request.stem]) = .ok found →
          found.consumed = request.words.length + 1 →
            ∃ completion,
              ofRequest registry mode names request (.locate registry mode request.words) =
                  .ok completion ∧ completion.Offers found.node := by
  intro always
  have built : showAndShut.Built := .registerAll _ _ .empty
  have looked : showAndShut.lookup Feature.vlanMode ["sh", "vl"] =
      .ok { node := Feature.Vlan.showCommand.leaf, consumed := 2 } := rfl
  obtain ⟨completion, answered, item, member, _⟩ := always showAndShut Feature.vlanMode {}
    { words := ["sh"], stem := "vl", negated := false } _ built (by decide) looked rfl
  cases answered
  contradiction

end Completion

end SwitchShell

import SwitchShell.Feature.Interface
import SwitchShell.Proofs.Command.Growth

namespace SwitchShell.Node

variable {tree node target : Node} {keys words rest : List String} {found : Match} {depth : Nat}

theorem follow_of_child? {word : String} {child : Node} (present : node.child? word = some child) :
    node.follow word = [child] := by
  rw [follow, present]

theorem findFrom_of_get? (reached : node.get? keys = some target) :
    findFrom depth (keys ++ rest) node = findFrom (depth + keys.length) rest target := by
  induction keys generalizing node depth with
  | nil =>
      cases reached
      rfl
  | cons key keys ih =>
      obtain ⟨child, present, onward⟩ := Option.bind_eq_some_iff.mp reached
      have below := @ih child (depth + 1) onward
      simp only [List.cons_append, findFrom, follow_of_child? present, List.flatMap_singleton, below,
        List.length_cons]
      congr 1
      omega

/-- What words stand for has a path, word for word. -/
theorem Reads.exists_get? (reads : tree.Reads words found) (wellFormed : tree.WellFormed) :
    ∃ keys, tree.get? keys = some found.node ∧
      List.Forall₂ (fun word key => Text.startsWith key word = true)
        (words.take found.consumed) keys := by
  cases reads with
  | path some leads =>
      obtain ⟨keys, reached, matched⟩ := leads.exists_get? wellFormed
      exact ⟨keys, reached, by simpa using matched⟩
  | options split some leads concrete foreign =>
      obtain ⟨keys, reached, matched⟩ := leads.exists_get? wellFormed
      exact ⟨keys, reached, by simpa [split] using matched⟩

theorem Reads.bounds (reads : tree.Reads words found) :
    1 ≤ found.consumed ∧ found.consumed ≤ words.length := by
  cases reads with
  | path some _ => exact ⟨List.length_pos_of_ne_nil some, Nat.le_refl _⟩
  | options split some _ _ _ =>
      have taken := List.length_pos_of_ne_nil some
      simp only [split, List.length_append]
      omega

/-- The words that are left over are option words of a command. -/
theorem Reads.leftOver (reads : tree.Reads words found) :
    found.consumed = words.length ∨ found.node.isConcrete = true ∧
      ∃ word rest, words.drop found.consumed = word :: rest ∧
        ∀ child ∈ found.node.children, Text.startsWith child.word word = false := by
  cases reads with
  | path _ _ => exact .inl rfl
  | @options node taken word rest split _ _ concrete foreign =>
      exact .inr ⟨concrete, word, rest, by simp [split], foreign⟩

theorem Reads.find_spelled (reads : tree.Reads words found)
    (reached : tree.get? keys = some found.node) (count : found.consumed = keys.length) :
    tree.find (keys ++ words.drop found.consumed) = [found] := by
  obtain ⟨positive, _⟩ := reads.bounds
  have deep : keys.length ≠ 0 := by omega
  -- exact words lead to the node without a branch, so only what is left over matters
  rw [find, findFrom_of_get? reached, Nat.zero_add]
  rcases reads.leftOver with whole | ⟨concrete, word, rest, left, foreign⟩
  · rw [whole, List.drop_length, findFrom, if_neg deep, ← count]
  · simp only [left, findFrom, follow_eq_nil_iff.mpr foreign]
    rw [if_pos ⟨deep, concrete⟩, ← count]

/-- The search finds different nodes of the tree.  Their words are begun by those
that were typed, all of them unless a command takes the others for its options;
with the words spelled out, the search finds the node and no other. -/
theorem find_spelled_out (grown : tree.Grown) (words : List String) :
    ((tree.find words).Pairwise fun one other => one.node.path ≠ other.node.path) ∧
      ∀ found ∈ tree.find words,
        tree.get? found.node.path = some found.node ∧
        found.consumed = found.node.path.length ∧
        1 ≤ found.consumed ∧ found.consumed ≤ words.length ∧
        List.Forall₂ (fun word key => Text.startsWith key word = true)
          (words.take found.consumed) found.node.path ∧
        (found.consumed = words.length ∨ found.node.isConcrete = true ∧
          ∃ word rest, words.drop found.consumed = word :: rest ∧
            ∀ child ∈ found.node.children, Text.startsWith child.word word = false) ∧
        tree.find (found.node.path ++ words.drop found.consumed) = [found] := by
  obtain ⟨shaped, atRoot⟩ := grown.wellFormed
  refine ⟨List.pairwise_map.mp (nodup_path_findFrom shaped), fun found member => ?_⟩
  have reads := (mem_find_iff shaped).mp member
  obtain ⟨keys, reached, matched⟩ := reads.exists_get? shaped
  obtain ⟨positive, enough⟩ := reads.bounds
  have path : found.node.path = keys := by simpa [atRoot] using (shaped.of_get? reached).2
  have count : found.consumed = keys.length := by
    rw [← matched.length_eq, List.length_take_of_le enough]
  rw [path]
  exact ⟨reached, count, positive, enough, matched, reads.leftOver,
    reads.find_spelled reached count⟩

/-- Options are left over where a command takes them, below a placeholder that is
described and beside another command. -/
theorem show_vlan_spelled_out :
    let tree := ((Node.root.insertInPlace Feature.Vlan.showCommand).2.insertInPlace
      Feature.Interface.showCommand).2.describe "show" "Show what is there"
    tree.Grown ∧ ∃ found, tree.find ["sh", "vl", "10"] = [found] ∧
      found.node.path = ["show", "vlan"] ∧ tree.find ["show", "vlan", "10"] = [found] := by
  intro tree
  have grown : tree.Grown := .describe _ _ (.insert _ (.insert _ .root))
  refine ⟨grown, ?_⟩
  obtain ⟨found, only, path, consumed⟩ : ∃ found, tree.find ["sh", "vl", "10"] = [found] ∧
      found.node.path = ["show", "vlan"] ∧ found.consumed = 2 := ⟨_, rfl, rfl, rfl⟩
  obtain ⟨_, spelled⟩ := find_spelled_out grown ["sh", "vl", "10"]
  obtain ⟨_, _, _, _, _, _, again⟩ := spelled found (by simp [only])
  rw [path, consumed] at again
  exact ⟨found, only, path, again⟩

end SwitchShell.Node

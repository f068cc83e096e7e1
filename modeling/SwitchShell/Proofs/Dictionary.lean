import SwitchShell.Dictionary

namespace SwitchShell.Dictionary

variable {α : Type u} {key other : String} {value : α} {entries later : Dictionary α}

theorem insert_of_forall_lt (beyond : ∀ entry ∈ entries, entry.1 < key) :
    insert key value entries = entries ++ [(key, value)] := by
  induction entries with
  | nil => rfl
  | cons entry entries ih =>
      obtain ⟨name, old⟩ := entry
      have before : name < key := beyond (name, old) List.mem_cons_self
      have different : name ≠ key := fun same => String.lt_irrefl key (same ▸ before)
      rw [insert, if_neg different, if_neg (String.lt_asymm before),
        ih fun other member => beyond other (List.mem_cons_of_mem _ member), List.cons_append]

theorem foldl_insert_of_sorted (entries later : Dictionary α)
    (sorted : Sorted (entries ++ later)) :
    later.foldl (fun entries pair => insert pair.1 pair.2 entries) entries = entries ++ later := by
  induction later generalizing entries with
  | nil => exact (List.append_nil entries).symm
  | cons pair later ih =>
      have beyond : ∀ entry ∈ entries, entry.1 < pair.1 := fun entry member =>
        (List.pairwise_append.mp sorted).2.2 entry member pair List.mem_cons_self
      rw [List.foldl_cons, insert_of_forall_lt beyond, ih, List.append_assoc, List.singleton_append]
      rwa [List.append_assoc, List.singleton_append]

theorem ofPairs_of_sorted (sorted : Sorted entries) : ofPairs entries = entries :=
  foldl_insert_of_sorted [] entries sorted

theorem sorted_nil : Sorted ([] : Dictionary α) := .nil

theorem sorted_of_names (names : List String) (named : entries.map Prod.fst = names)
    (increase : names.Pairwise (· < ·)) : Sorted entries :=
  List.pairwise_map.mp (named ▸ increase)

theorem mem_insert {entry : String × α} (member : entry ∈ insert key value entries) :
    entry = (key, value) ∨ entry ∈ entries := by
  induction entries with
  | nil => exact .inl (List.mem_singleton.mp member)
  | cons head entries ih =>
      rw [insert] at member
      split at member
      · exact (List.mem_cons.mp member).imp_right (List.mem_cons_of_mem _)
      · split at member
        · exact List.mem_cons.mp member
        · rcases List.mem_cons.mp member with rfl | inside
          · exact .inr List.mem_cons_self
          · exact (ih inside).imp_right (List.mem_cons_of_mem _)

theorem Sorted.insert (sorted : Sorted entries) : Sorted (insert key value entries) := by
  induction entries with
  | nil => exact List.pairwise_singleton _ _
  | cons head entries ih =>
      obtain ⟨beyond, rest⟩ := List.pairwise_cons.mp sorted
      rw [Dictionary.insert]
      split
      · rename_i same
        exact List.pairwise_cons.mpr ⟨same ▸ beyond, rest⟩
      · rename_i different
        split
        · rename_i before
          refine List.pairwise_cons.mpr ⟨fun entry member => ?_, sorted⟩
          rcases List.mem_cons.mp member with rfl | inside
          · exact before
          · exact String.lt_trans before (beyond entry inside)
        · rename_i notBefore
          refine List.pairwise_cons.mpr ⟨fun entry member => ?_, ih rest⟩
          rcases mem_insert member with rfl | inside
          · exact Std.lt_of_le_of_ne (String.not_lt.mp notBefore) different
          · exact beyond entry inside

theorem Sorted.erase (sorted : Sorted entries) : Sorted (erase key entries) :=
  List.Pairwise.filter _ sorted

theorem Sorted.foldl_insert (sorted : Sorted entries) (pairs : List (String × α)) :
    Sorted (pairs.foldl (fun entries pair => Dictionary.insert pair.1 pair.2 entries) entries) := by
  induction pairs generalizing entries with
  | nil => exact sorted
  | cons pair pairs ih => exact ih sorted.insert

theorem sorted_ofPairs (pairs : List (String × α)) : Sorted (ofPairs pairs) :=
  sorted_nil.foldl_insert pairs

theorem Sorted.merge (sorted : Sorted entries) : Sorted (merge entries later) :=
  sorted.foldl_insert later

theorem find?_insert :
    find? other (insert key value entries) =
      if other = key then some value else find? other entries := by
  split
  · rename_i same
    rw [same, find?_insert_self]
  · rename_i different
    rw [find?_insert_of_ne different]

theorem find?_erase :
    find? other (erase key entries) = if other = key then none else find? other entries := by
  induction entries with
  | nil => simp [erase, find?]
  | cons head entries ih =>
      unfold erase at ih ⊢
      rw [List.filter_cons]
      by_cases erased : head.1 = key <;> by_cases sought : head.1 = other <;> grind [find?]

theorem mem_of_find? (found : find? key entries = some value) : (key, value) ∈ entries := by
  induction entries with
  | nil => contradiction
  | cons head entries ih =>
      rw [find?] at found
      split at found
      · rename_i same
        cases found
        exact same ▸ List.mem_cons_self
      · exact List.mem_cons_of_mem _ (ih found)

theorem Sorted.find?_of_mem (sorted : Sorted entries) (member : (key, value) ∈ entries) :
    find? key entries = some value := by
  induction entries with
  | nil => contradiction
  | cons head entries ih =>
      obtain ⟨beyond, rest⟩ := List.pairwise_cons.mp sorted
      rcases List.mem_cons.mp member with rfl | inside
      · exact if_pos rfl
      · have before : head.1 < key := beyond _ inside
        have different : head.1 ≠ key := fun same => String.lt_irrefl key (same ▸ before)
        rw [find?, if_neg different]
        exact ih rest inside

theorem Sorted.ext (sorted : Sorted entries) (sorted' : Sorted later)
    (same : ∀ key, find? key entries = find? key later) : entries = later := by
  have sub : ∀ {left right : Dictionary α}, Sorted left →
      (∀ key, find? key left = find? key right) → ∀ entry ∈ left, entry ∈ right :=
    fun sorted same entry member => mem_of_find? (same entry.1 ▸ sorted.find?_of_mem member)
  refine List.Perm.eq_of_pairwise ?_ sorted sorted' ?_
  · exact fun left right _ _ before after => absurd after (String.lt_asymm before)
  · have distinct : ∀ {entries : Dictionary α}, Sorted entries → entries.Nodup := by
      intro entries sorted
      refine List.Pairwise.imp ?_ sorted
      rintro left _ before rfl
      exact String.lt_irrefl _ before
    refine (List.perm_ext_iff_of_nodup (distinct sorted) (distinct sorted')).mpr fun entry => ?_
    exact ⟨sub sorted same entry, sub sorted' (fun key => (same key).symm) entry⟩

theorem Sorted.insertNew (sorted : Sorted entries) : Sorted (insertNew key value entries) := by
  unfold Dictionary.insertNew
  split
  · exact sorted
  · exact sorted.insert

theorem Sorted.insert_of_find? (sorted : Sorted entries) (found : find? key entries = some value) :
    Dictionary.insert key value entries = entries := by
  refine Sorted.ext sorted.insert sorted fun other => ?_
  rw [find?_insert]
  split
  · rename_i same
    rw [same, found]
  · rfl

theorem insert_insert {latest : α} :
    insert key latest (insert key value entries) = insert key latest entries := by
  induction entries with
  | nil => simp [insert]
  | cons entry entries ih =>
      by_cases same : entry.1 = key
      · simp [insert, same]
      · by_cases before : key < entry.1
        · simp [insert, same, before]
        · simp [insert, same, before, ih]

theorem Sorted.insert_comm (sorted : Sorted entries) {second : α} (different : key ≠ other) :
    Dictionary.insert key value (Dictionary.insert other second entries) =
      Dictionary.insert other second (Dictionary.insert key value entries) := by
  refine Sorted.ext sorted.insert.insert sorted.insert.insert fun sought => ?_
  simp only [find?_insert]
  grind

/-- Removes a key and binds it again if there is a value. -/
def put (key : String) : Option α → Dictionary α → Dictionary α
  | some value, entries => insertNew key value (erase key entries)
  | none, entries => erase key entries

variable {first second : Option α}

theorem find?_put :
    find? other (put key first entries) = if other = key then first else find? other entries := by
  cases first with
  | none => exact find?_erase
  | some value =>
      rw [put, insertNew, if_neg (by simp [contains, find?_erase]), find?_insert, find?_erase]
      split <;> rfl

theorem Sorted.put (sorted : Sorted entries) : Sorted (put key first entries) := by
  cases first with
  | none => exact sorted.erase
  | some value => exact sorted.erase.insertNew

theorem Sorted.put_some (sorted : Sorted entries) :
    Dictionary.put key (some value) entries = Dictionary.insert key value entries := by
  refine Sorted.ext sorted.put sorted.insert fun other => ?_
  rw [find?_put, find?_insert]

theorem Sorted.put_put (sorted : Sorted entries) :
    Dictionary.put key second (Dictionary.put key first entries) =
      Dictionary.put key second entries := by
  refine Sorted.ext sorted.put.put sorted.put fun sought => ?_
  simp only [find?_put]
  split <;> rfl

theorem Sorted.put_comm (sorted : Sorted entries) (different : key ≠ other) :
    Dictionary.put key first (Dictionary.put other second entries) =
      Dictionary.put other second (Dictionary.put key first entries) := by
  refine Sorted.ext sorted.put.put sorted.put.put fun sought => ?_
  simp only [find?_put]
  grind

end SwitchShell.Dictionary

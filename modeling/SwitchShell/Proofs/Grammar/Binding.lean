import Mathlib.Data.List.Forall2
import SwitchShell.Grammar.Binding

namespace SwitchShell

section Lists

variable {α β ε : Type} {change : α → Except ε β} {items : List α} {item : α} {results : List β}
  {result : β} {fault : ε}

theorem mapM_eq_ok_iff :
    items.mapM change = .ok results ↔
      List.Forall₂ (fun item result => change item = .ok result) items results := by
  induction items generalizing results with
  | nil => cases results <;> simp [pure, Except.pure]
  | cons item items ih =>
      rw [List.mapM_cons]
      cases first : change item with
      | error fault => cases results <;> simp [bind, Except.bind, first]
      | ok changed =>
          cases others : items.mapM change <;> cases results <;>
            simp [bind, Except.bind, pure, Except.pure, ← ih, first, others]

theorem map_eq_of_mapM (done : items.mapM change = .ok results) :
    items.map change = results.map .ok := by
  rw [← List.forall₂_eq_eq_eq, List.forall₂_map_left_iff, List.forall₂_map_right_iff]
  exact mapM_eq_ok_iff.mp done

theorem exists_of_mem_mapM (done : items.mapM change = .ok results) (member : result ∈ results) :
    ∃ item ∈ items, change item = .ok result := by
  have changed : Except.ok result ∈ items.map change :=
    map_eq_of_mapM done ▸ List.mem_map_of_mem member
  exact List.mem_map.mp changed

theorem exists_mem_of_mapM (done : items.mapM change = .ok results) (member : item ∈ items) :
    ∃ result ∈ results, change item = .ok result := by
  have changed : change item ∈ results.map .ok := map_eq_of_mapM done ▸ List.mem_map_of_mem member
  obtain ⟨result, inside, same⟩ := List.mem_map.mp changed
  exact ⟨result, inside, same.symm⟩

theorem exists_of_mapM_error (failed : items.mapM change = .error fault) :
    ∃ item ∈ items, change item = .error fault := by
  induction items with
  | nil => contradiction
  | cons item items ih =>
      rw [List.mapM_cons] at failed
      cases first : change item with
      | error own =>
          rw [first] at failed
          cases failed
          exact ⟨item, List.mem_cons_self, first⟩
      | ok changed =>
          cases others : items.mapM change with
          | error later =>
              rw [first, others] at failed
              cases failed
              obtain ⟨other, member, same⟩ := ih others
              exact ⟨other, List.mem_cons_of_mem _ member, same⟩
          | ok later =>
              rw [first, others] at failed
              contradiction

end Lists

namespace Token

variable {names : Names} {token : Token} {word : String} {value : Value}

theorem bounds_of_integerWithin? {low high number : Int}
    (within : integerWithin? (some low) (some high) word = some number) :
    low ≤ number ∧ number ≤ high := by
  unfold integerWithin? at within
  grind

theorem bounds_of_bind {low high : Int} (kind : token.kind = .integer (some low) (some high))
    (bound : token.bind names word = .ok value) :
    ∃ number, value = .integer number ∧ low ≤ number ∧ number ≤ high := by
  simp only [Token.bind, kind] at bound
  split at bound
  · rename_i number within
    cases bound
    exact ⟨number, rfl, bounds_of_integerWithin? within⟩
  · contradiction

theorem listed_of_bind {family : NameKind} (kind : token.kind = .name family)
    (bound : token.bind names word = .ok value) : value = .word word ∧ word ∈ names.get family := by
  simp only [Token.bind, Token.accepts, kind] at bound
  split at bound
  · rename_i listed
    cases bound
    exact ⟨rfl, List.contains_iff_mem.mp listed⟩
  · contradiction

theorem keyword_of_bind {literal : Literal} (kind : token.kind = .keyword literal)
    (bound : token.bind names word = .ok value) : value = .word literal.word := by
  simp only [Token.bind, kind] at bound
  split at bound
  · cases bound
    rfl
  · contradiction

theorem choice_of_bind {literals : List Literal} (kind : token.kind = .choice literals)
    (bound : token.bind names word = .ok value) :
    ∃ literal ∈ literals, value = .word literal.word := by
  simp only [Token.bind, kind] at bound
  split at bound
  · rename_i literal chosen
    cases bound
    refine ⟨literal, ?_, rfl⟩
    rcases Option.or_eq_some_iff.mp chosen with spelled | ⟨_, abbreviated⟩
    · exact List.mem_of_find?_eq_some spelled
    · exact List.mem_of_find?_eq_some abbreviated
  · contradiction

end Token

namespace Binding

variable {names : Names} {options : List OptionGroup} {words window : List String}
  {entries : List (Nat × OptionGroup)} {filled : List (Option Binding)} {index place : Nat}
  {word : String} {nails : List Nail}

theorem mem_unclaimed_iff :
    (place, word) ∈ unclaimed words filled ↔
      words[place]? = some word ∧ filled[place]? = some none := by
  have claimed : ∀ entry : (String × Option Binding) × Nat,
      (if entry.1.2.isNone then some (entry.2, entry.1.1) else none) = some (place, word) ↔
        entry = ((word, none), place) := by
    rintro ⟨⟨other, _ | binding⟩, there⟩ <;> simp [and_comm]
  simp only [unclaimed, List.mem_filterMap, claimed, exists_eq_right, List.mem_zipIdx_iff_getElem?,
    List.getElem?_zip_eq_some]

theorem mem_of_mem_unclaimed {entry : Nat × String} (member : entry ∈ unclaimed words filled) :
    entry.2 ∈ words :=
  List.mem_of_getElem? (mem_unclaimed_iff.mp member).1

theorem pairwise_unclaimed :
    (unclaimed words filled).Pairwise fun one other => one.1 < other.1 := by
  have ascending : ((words.zip filled).zipIdx.map Prod.snd).Pairwise (· < ·) := by
    rw [List.zipIdx_map_snd]
    exact List.pairwise_lt_range'
  refine List.pairwise_filterMap.mpr ((List.pairwise_map.mp ascending).imp ?_)
  rintro ⟨⟨_, one⟩, place⟩ ⟨⟨_, other⟩, later⟩ less
  cases one <;> cases other <;> simp [less]

theorem mem_numbered_iff {entry : Nat × OptionGroup} :
    (entry ∈ options.zipIdx.map fun (group, index) => (index, group)) ↔
      options[entry.1]? = some entry.2 := by
  refine ⟨fun member => ?_, fun option => ?_⟩
  · obtain ⟨⟨group, index⟩, present, rfl⟩ := List.mem_map.mp member
    exact List.mem_zipIdx_iff_getElem?.mp present
  · exact List.mem_map.mpr ⟨(entry.2, entry.1), List.mem_zipIdx_iff_getElem?.mpr option, rfl⟩

theorem claim_of_winner (won : winner names window entries = .ok (some (index, nails))) :
    ∃ group, (index, group) ∈ entries ∧ group.claim names window = .ok nails ∧
      (nails.any fun nail => nail.position == 0) = true := by
  induction entries with
  | nil => simp [winner] at won
  | cons entry entries ih =>
      obtain ⟨number, group⟩ := entry
      unfold winner at won
      split at won
      · contradiction
      · rename_i claimed
        split at won
        · rename_i first
          cases won
          exact ⟨group, List.mem_cons_self, claimed, first⟩
        · obtain ⟨other, member, same⟩ := ih won
          exact ⟨other, List.mem_cons_of_mem _ member, same⟩

end Binding

end SwitchShell

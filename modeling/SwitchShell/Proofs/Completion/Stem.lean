import Mathlib.Data.List.DropRight
import SwitchShell.Completion.Position
import SwitchShell.Proofs.Text.Lines

namespace SwitchShell

namespace Text

variable {front word start : List Char} {text : String}

/-- The text is `front` and a word that comes after white space or comes first. -/
structure EndsIn (text : String) (front word : List Char) : Prop where
  whole : text.toList = front ++ word
  solid : ∀ c ∈ word, isBlank c = false
  apart : ∀ c, front.getLast? = some c → isBlank c = true

theorem EndsIn.endsBlank_iff (ends : EndsIn text front word) :
    (text.isEmpty || endsBlank text) = true ↔ word = [] := by
  have empty : text.isEmpty = true ↔ front = [] ∧ word = [] := by
    rw [String.isEmpty_iff, ← String.toList_eq_nil_iff, ends.whole, List.append_eq_nil_iff]
  rw [Bool.or_eq_true, empty, endsBlank, ends.whole]
  rcases List.eq_nil_or_concat word with rfl | ⟨earlier, last, rfl⟩
  · rcases List.eq_nil_or_concat front with rfl | ⟨earlier, last, rfl⟩
    · simp
    · simpa using ends.apart last (by simp)
  · have solid := ends.solid last (by simp)
    simp [List.concat_eq_append, solid]

theorem EndsIn.getLast?_words (ends : EndsIn text front word) (some : word ≠ []) :
    (words text).getLast? = .some (String.ofList word) := by
  have split : ∃ earlier, splitWords text.toList = earlier ++ [word] := by
    rw [ends.whole]
    rcases List.eq_nil_or_concat front with rfl | ⟨earlier, last, rfl⟩
    · exact ⟨[], splitWords_of_solid some ends.solid⟩
    · have blank := ends.apart last (by simp)
      refine ⟨splitWords earlier, ?_⟩
      rw [List.concat_eq_append, List.append_assoc, List.singleton_append,
        splitWords_append_cons blank, splitWords_of_solid some ends.solid]
  obtain ⟨earlier, split⟩ := split
  rw [words, split, List.map_append, List.map_singleton, List.getLast?_concat]

theorem exists_endsIn (text : String) : ∃ front word, EndsIn text front word := by
  refine ⟨text.toList.rdropWhile (!isBlank ·), text.toList.rtakeWhile (!isBlank ·),
    (List.rdropWhile_append_rtakeWhile).symm, fun c member => ?_, fun c last => ?_⟩
  · simpa using List.mem_rtakeWhile_imp member
  · obtain ⟨some, rfl⟩ := List.mem_getLast?_eq_getLast last
    simpa using List.rdropWhile_last_not (!isBlank ·) text.toList some

end Text

namespace HelpItem

variable {items : List HelpItem} {stem : String}

theorem distinct_sublist (items : List HelpItem) : (distinct items).Sublist items := by
  induction items with
  | nil => exact List.Sublist.refl _
  | cons item items ih =>
      rw [distinct]
      exact (List.filter_sublist.trans ih).cons_cons item

/-- Every item that can be typed continues the stem. -/
def AllContinue (stem : String) (items : List HelpItem) : Prop :=
  ∀ item ∈ items, item.literal = true → stem.toList <+: item.text.toList

theorem allContinue_append {others : List HelpItem} :
    AllContinue stem (items ++ others) ↔ AllContinue stem items ∧ AllContinue stem others :=
  List.forall_mem_append

theorem AllContinue.distinct (continues : AllContinue stem items) :
    AllContinue stem (distinct items) :=
  fun item member => continues item ((distinct_sublist items).subset member)

theorem allContinue_flatMap {α : Type} {sources : List α} {offer : α → List HelpItem}
    (each : ∀ source ∈ sources, AllContinue stem (offer source)) :
    AllContinue stem (sources.flatMap offer) := by
  intro item member
  obtain ⟨source, inside, offered⟩ := List.mem_flatMap.mp member
  exact each source inside item offered

end HelpItem

open HelpItem

theorem Token.allContinue_candidates (names : Names) (token : Token) (stem : String) :
    AllContinue stem (token.candidates names stem) := by
  have literals : ∀ literals fallback, AllContinue stem (literalItems literals stem fallback) := by
    intro literals fallback item member _
    obtain ⟨literal, kept, rfl⟩ := List.mem_map.mp member
    exact Text.startsWith_iff.mp (List.mem_filter.mp kept).2
  intro item member typed
  unfold candidates at member
  split at member
  · exact literals _ _ item member typed
  · exact literals _ _ item member typed
  · -- the placeholder of an integer is no text to be typed
    split at member
    · rw [List.mem_singleton.mp member] at typed
      cases typed
    · exact absurd member List.not_mem_nil
  · obtain ⟨value, kept, rfl⟩ := List.mem_map.mp member
    exact Text.startsWith_iff.mp (List.mem_filter.mp kept).2

namespace Completion

variable {registry : Registry} {mode : String} {names : Names} {request : Request}
  {position : Position} {completion : Completion} {found : Match}

theorem allContinue_childItems (stem : String) (node : Node) :
    AllContinue stem (childItems stem node) := by
  intro item member _
  obtain ⟨child, kept, rfl⟩ := List.mem_map.mp member
  exact Text.startsWith_iff.mp (List.mem_filter.mp kept).2

theorem exists_stem (line : String) :
    ∃ front, Text.EndsIn line front (Request.parse line).stem.toList := by
  obtain ⟨front, word, ends⟩ := Text.exists_endsIn line
  refine ⟨front, ?_⟩
  have stem : (Request.parse line).stem = stemOf line (Text.words line) := rfl
  rw [stem, stemOf]
  by_cases blank : word = []
  · rw [if_pos (ends.endsBlank_iff.mpr blank), String.toList_empty, ← blank]
    exact ends
  · rw [if_neg (mt ends.endsBlank_iff.mp blank), ends.getLast?_words blank, Option.getD_some,
      String.toList_ofList]
    exact ends

theorem continues_of_ofCommand (answered : ofCommand names request found = .ok completion) :
    completion.stem = request.stem ∧ AllContinue request.stem completion.items := by
  have children : AllContinue request.stem
      (if (request.words.drop found.consumed).isEmpty then childItems request.stem found.node
        else []) := by
    split
    · exact allContinue_childItems _ _
    · exact List.forall_mem_nil _
  unfold ofCommand at answered
  extract_lets node words items at answered
  split at answered
  · cases next : offered names words node.options [] with
    | error fault =>
        rw [next] at answered
        cases answered
    | ok tokens =>
        rw [next] at answered
        cases answered
        exact ⟨rfl, (allContinue_append.mpr ⟨children, allContinue_flatMap fun token _ =>
          token.allContinue_candidates names request.stem⟩).distinct⟩
  · cases answered
    exact ⟨rfl, children.distinct⟩

theorem continues_of_ofRequest
    (answered : ofRequest registry mode names request position = .ok completion) :
    completion.stem = request.stem ∧ AllContinue request.stem completion.items := by
  cases position with
  | start =>
      cases answered
      exact ⟨rfl, (allContinue_flatMap fun tree _ => allContinue_childItems _ tree).distinct⟩
  | command found => exact continues_of_ofCommand answered
  | unknown =>
      cases answered
      exact ⟨rfl, List.forall_mem_nil _⟩

/-- The longest text that all the others begin with. -/
structure LongestStart (start : List Char) (texts : List String) : Prop where
  shared : ∀ text ∈ texts, start <+: text.toList
  longest : ∀ other, (∀ text ∈ texts, other <+: text.toList) → other <+: start

variable {left right start : List Char} {first : String} {texts : List String}

theorem LongestStart.eq (one : LongestStart left texts) (other : LongestStart right texts) :
    left = right :=
  (other.longest left one.shared).eq_of_length_le (one.longest right other.shared).length_le

theorem prefix_sharedStart_iff :
    start <+: sharedStart left right ↔ start <+: left ∧ start <+: right := by
  induction left generalizing right start with
  | nil =>
      rw [sharedStart.eq_def]
      exact ⟨fun empty => ⟨empty, (List.prefix_nil.mp empty) ▸ List.nil_prefix⟩, And.left⟩
  | cons c left ih =>
      cases right with
      | nil => exact ⟨fun empty => ⟨List.prefix_nil.mp empty ▸ List.nil_prefix, empty⟩, And.right⟩
      | cons d right =>
          cases start with
          | nil => simp
          | cons e start =>
              rw [sharedStart]
              split
              · rename_i same
                simp only [List.cons_prefix_cons, ih, same]
                tauto
              · rename_i differ
                simp only [List.cons_prefix_cons, List.prefix_nil, List.cons_ne_nil, false_iff]
                rintro ⟨⟨rfl, _⟩, rfl, _⟩
                exact differ rfl

theorem prefix_foldl_sharedStart_iff :
    start <+: texts.foldl (fun start text => sharedStart start text.toList) left ↔
      start <+: left ∧ ∀ text ∈ texts, start <+: text.toList := by
  induction texts generalizing left with
  | nil => simp
  | cons text texts ih =>
      rw [List.foldl_cons, ih, prefix_sharedStart_iff, List.forall_mem_cons, and_assoc]

theorem longestStart_sharedStartOf :
    LongestStart (sharedStartOf first texts).toList (first :: texts) := by
  have prefixes : ∀ start, start <+: (sharedStartOf first texts).toList ↔
      ∀ text ∈ first :: texts, start <+: text.toList := by
    intro start
    rw [sharedStartOf, String.toList_ofList, prefix_foldl_sharedStart_iff, List.forall_mem_cons]
  exact ⟨(prefixes _).mp List.prefix_rfl, fun other => (prefixes other).mpr⟩

theorem unique?_eq_some_iff {word : String} :
    completion.unique? = some word ↔
      ∃ item, completion.items = [item] ∧ item.literal = true ∧ item.text = word := by
  unfold unique?
  split
  · rename_i only one
    simp [one]
  · rename_i several
    constructor
    · intro impossible
      cases impossible
    · rintro ⟨item, one, _⟩
      exact absurd one (several item)

theorem one_lt_length_of_unique? (single : completion.unique? = none)
    (some : completion.items ≠ []) (typed : ∀ item ∈ completion.items, item.literal = true) :
    1 < completion.items.length := by
  obtain ⟨first, others, items⟩ := List.exists_cons_of_ne_nil some
  cases others with
  | nil =>
      have literal := typed first (items ▸ List.mem_cons_self)
      rw [unique?_eq_some_iff.mpr ⟨first, items, literal, rfl⟩] at single
      cases single
  | cons second others =>
      rw [items, List.length_cons, List.length_cons]
      omega

theorem utf8ByteSize_lt_iff {stem start : String} {rest : List Char}
    (split : start.toList = stem.toList ++ rest) :
    stem.utf8ByteSize < start.utf8ByteSize ↔ rest ≠ [] := by
  have whole : start = stem ++ String.ofList rest := String.toList_injective (by simp [split])
  have empty : (String.ofList rest).utf8ByteSize = 0 ↔ rest = [] := by
    rw [String.utf8ByteSize_eq_zero_iff, ← String.toList_eq_nil_iff, String.toList_ofList]
  rw [whole, String.utf8ByteSize_append, ne_eq, ← empty]
  omega

theorem commonStart?_of_untyped {item : HelpItem} (member : item ∈ completion.items)
    (untyped : item.literal = false) : completion.commonStart? = none := by
  unfold commonStart?
  cases items : completion.items with
  | nil => rfl
  | cons first others =>
      have some : (first :: others).all HelpItem.literal = false :=
        List.all_eq_false.mpr ⟨item, items ▸ member, by simp [untyped]⟩
      simp only [some, Bool.not_false, if_true]

theorem commonStart?_eq (continues : AllContinue completion.stem completion.items)
    (some : completion.items ≠ []) (typed : ∀ item ∈ completion.items, item.literal = true) :
    ∃ rest, LongestStart (completion.stem.toList ++ rest) (completion.items.map HelpItem.text) ∧
      completion.commonStart? =
        if rest = [] then none else .some (String.ofList (completion.stem.toList ++ rest)) := by
  obtain ⟨first, others, items⟩ := List.exists_cons_of_ne_nil some
  have longest : LongestStart (sharedStartOf first.text (others.map HelpItem.text)).toList
      (completion.items.map HelpItem.text) := by
    rw [items, List.map_cons]
    exact longestStart_sharedStartOf
  obtain ⟨rest, split⟩ := longest.longest completion.stem.toList fun text member => by
    obtain ⟨item, inside, rfl⟩ := List.mem_map.mp member
    exact continues item inside (typed item inside)
  refine ⟨rest, split ▸ longest, ?_⟩
  have all : (first :: others).all HelpItem.literal = true := List.all_eq_true.mpr (items ▸ typed)
  simp only [commonStart?, items, all, Bool.not_true, Bool.false_eq_true, if_false,
    utf8ByteSize_lt_iff split.symm, split, String.ofList_toList]
  exact ite_not _ _ _

end Completion

end SwitchShell

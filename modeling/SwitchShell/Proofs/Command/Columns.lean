import Mathlib.Algebra.BigOperators.Group.Finset.Basic
import Mathlib.Data.List.DropRight
import SwitchShell.Command.Output

namespace SwitchShell.Output

variable {table : List (List String)} {row cells texts : List String} {widths : List Nat}
  {width start : Nat → Nat} {chars : List Char} {cell text : String} {c : Char}
  {count index size : Nat}

/-- The cells of a column; rows that are too short have none. -/
def column (table : List (List String)) (index : Nat) : List String :=
  table.filterMap fun row => row[index]?

/-- Where a column begins: a gap of three follows each column before it. -/
def offset (table : List (List String)) (indent index : Nat) : Nat :=
  indent + ∑ before ∈ Finset.range index, (widest (column table before) + 3)

/-- Every cell stands where its column begins, and all else is spaces. -/
structure Aligned (start : Nat → Nat) (cells : List String) (chars : List Char) : Prop where
  stands : ∀ index cell, cells[index]? = some cell →
    ∃ before after, chars = before ++ cell.toList ++ after ∧ before.length = start index
  spaces : ∀ place c, chars[place]? = some c → c ≠ ' ' →
    ∃ index cell, cells[index]? = some cell ∧
      start index ≤ place ∧ place < start index + cell.length

/-- The line shows a row of the table.  White space at its end is removed, and whatever is
not a space comes from a cell, so that a line does not break unless a cell does. -/
structure ShowsRow (table : List (List String)) (indent : Nat) (cells : List String)
    (line : String) : Prop where
  aligned : ∃ whole, Aligned (offset table indent) cells whole ∧
    line.toList = whole.rdropWhile Text.isBlank
  plain : ∀ c ∈ line.toList, c = ' ' ∨ ∃ cell ∈ cells, c ∈ cell.toList

/-- The line shows a key and its value; `place` characters stand before the separator. -/
def ShowsPair (indent place : Nat) (entry : String × String) (line : String) : Prop :=
  ∃ front fill, line = front ++ ": " ++ entry.2 ∧
    front = Text.spaces indent ++ entry.1 ++ Text.spaces fill ∧ front.length = place

/-- The line shows an item; `place` characters stand before its description. -/
def ShowsItem (place : Nat) (item : HelpItem) (line : String) : Prop :=
  ∃ front fill, line.toList = (front ++ item.help).toList.rdropWhile Text.isBlank ∧
    front = Text.spaces 2 ++ item.text ++ Text.spaces fill ∧ front.length = place

theorem length_le_utf8ByteSize (text : String) : text.length ≤ text.utf8ByteSize := by
  rw [← String.ofList_toList (s := text)]
  induction text.toList with
  | nil => exact Nat.zero_le _
  | cons c chars ih =>
      have first := c.utf8Size_pos
      rw [String.length_ofList] at ih ⊢
      rw [String.ofList_cons, String.utf8ByteSize_append, String.utf8ByteSize_singleton,
        List.length_cons]
      omega

theorem widest_le_iff : widest texts ≤ size ↔ ∀ text ∈ texts, text.utf8ByteSize ≤ size := by
  have above (least : Nat) :
      texts.foldl (fun width text => max width text.utf8ByteSize) least ≤ size ↔
        least ≤ size ∧ ∀ text ∈ texts, text.utf8ByteSize ≤ size := by
    induction texts generalizing least with
    | nil => simp
    | cons text texts ih => simp [ih, and_assoc]
  exact (above 0).trans (and_iff_right (Nat.zero_le _))

theorem length_le_widest (member : text ∈ texts) : text.length ≤ widest texts :=
  (length_le_utf8ByteSize text).trans (widest_le_iff.mp le_rfl text member)

theorem getElem?_widen : (widen widths row)[index]? =
    match row[index]? with
    | none => widths[index]?
    | some cell => some (max (widths[index]?.getD 0) cell.utf8ByteSize) := by
  fun_induction widen widths row generalizing index with
  | case1 => rfl
  | case2 cell cells ih => cases index <;> simp [ih]
  | case3 width widths cell cells ih => cases index <;> simp [ih]

theorem getElem?_foldl_widen : (table.foldl widen widths)[index]? =
    if column table index = [] then widths[index]?
    else some ((column table index).foldl (fun width text => max width text.utf8ByteSize)
      (widths[index]?.getD 0)) := by
  induction table generalizing widths with
  | nil => rfl
  | cons row table ih =>
      rw [List.foldl_cons, ih, getElem?_widen]
      cases here : row[index]? with
      | none => simp [column, here]
      | some cell => by_cases below : column table index = [] <;> simp_all [column]

theorem getElem?_columnWidths (member : row ∈ table) (here : row[index]? = some cell) :
    (columnWidths table)[index]? = some (widest (column table index)) ∧
      cell ∈ column table index := by
  have inside : cell ∈ column table index := List.mem_filterMap.mpr ⟨row, member, here⟩
  have some := List.ne_nil_of_mem inside
  refine ⟨?_, inside⟩
  rw [columnWidths, getElem?_foldl_widen, if_neg some]
  rfl

theorem Aligned.mem (aligned : Aligned start cells chars) (member : c ∈ chars) (mark : c ≠ ' ') :
    ∃ cell ∈ cells, c ∈ cell.toList := by
  -- the place lies in a cell, and there the line is the cell
  obtain ⟨place, here⟩ := List.mem_iff_getElem?.mp member
  obtain ⟨index, cell, found, reached, below⟩ := aligned.spaces place c here mark
  obtain ⟨before, after, rfl, begins⟩ := aligned.stands index cell found
  refine ⟨cell, List.mem_of_getElem? found, ?_⟩
  rw [List.append_assoc, List.getElem?_append_right (by omega),
    List.getElem?_append_left (by rw [String.length_toList]; omega)] at here
  exact List.mem_of_getElem? here

theorem Aligned.congr {other : Nat → Nat} (aligned : Aligned start cells chars)
    (same : ∀ index < cells.length, start index = other index) : Aligned other cells chars := by
  have begins {index cell} (found : cells[index]? = some cell) : start index = other index :=
    same index (List.getElem?_eq_some_iff.mp found).1
  constructor
  · intro index cell found
    rw [← begins found]
    exact aligned.stands index cell found
  · intro place c here mark
    obtain ⟨index, cell, found, within⟩ := aligned.spaces place c here mark
    rw [begins found] at within
    exact ⟨index, cell, found, within⟩

theorem Aligned.indent (aligned : Aligned start cells chars) (count : Nat) :
    Aligned (count + start ·) cells (List.replicate count ' ' ++ chars) := by
  constructor
  · intro index cell found
    obtain ⟨before, after, rfl, begins⟩ := aligned.stands index cell found
    exact ⟨List.replicate count ' ' ++ before, after, by simp, by simp [begins]⟩
  · intro place c here mark
    by_cases near : place < count
    · rw [List.getElem?_append_left (by simpa using near)] at here
      have space := List.eq_of_mem_replicate (List.mem_of_getElem? here)
      exact absurd space mark
    · rw [List.getElem?_append_right (by simpa using near), List.length_replicate] at here
      obtain ⟨index, cell, found, within⟩ := aligned.spaces _ c here mark
      exact ⟨index, cell, found, by omega⟩

theorem Aligned.cons (aligned : Aligned start cells chars) (cell : String) :
    Aligned (fun | 0 => 0 | index + 1 => cell.length + start index) (cell :: cells)
      (cell.toList ++ chars) := by
  constructor
  · rintro (_ | index) other found
    · obtain rfl : cell = other := by simpa using found
      exact ⟨[], chars, rfl, rfl⟩
    · obtain ⟨before, after, rfl, begins⟩ := aligned.stands index other found
      exact ⟨cell.toList ++ before, after, by simp,
        by rw [List.length_append, String.length_toList, begins]⟩
  · intro place c here mark
    by_cases near : place < cell.length
    · exact ⟨0, cell, rfl, Nat.zero_le _, by omega⟩
    · rw [List.getElem?_append_right (by rw [String.length_toList]; omega),
        String.length_toList] at here
      obtain ⟨index, other, found, within⟩ := aligned.spaces _ c here mark
      exact ⟨index + 1, other, found, by dsimp only; omega⟩

theorem aligned_spaces (count : Nat) : Aligned start [] (List.replicate count ' ') where
  stands := by simp
  spaces := by grind

/-- Cells that are filled up to widths which are large enough. -/
theorem aligned_join (fits : ∀ index cell, cells[index]? = some cell →
      widths[index]? = some (width index) ∧ cell.length ≤ width index) :
    Aligned (fun index => ∑ before ∈ Finset.range index, (width before + 3)) cells
      (String.intercalate columnGap (List.zipWith Text.padRight widths cells)).toList := by
  induction cells generalizing widths width with
  | nil => simpa using aligned_spaces 0
  | cons cell cells ih =>
      obtain ⟨first, small⟩ := fits 0 cell rfl
      obtain ⟨widths, rfl⟩ := List.head?_eq_some_iff.mp (List.head?_eq_getElem?.trans first)
      have later := @ih widths (width <| · + 1) fun index => fits (index + 1)
      -- a gap follows the cell if there is a next one
      cases cells with
      | nil =>
          have alone : Aligned _ [cell] _ :=
            (@aligned_spaces (fun _ => 0) (width 0 - cell.length)).cons cell
          have whole : (String.intercalate columnGap
              (List.zipWith Text.padRight (width 0 :: widths) [cell])).toList =
              cell.toList ++ List.replicate (width 0 - cell.length) ' ' := by
            simp [Text.padRight]
          rw [whole]
          refine alone.congr fun index inside => ?_
          obtain rfl : index = 0 := by simpa using inside
          rfl
      | cons next cells =>
          obtain ⟨second, -⟩ := fits 1 next rfl
          obtain ⟨widths, rfl⟩ := List.head?_eq_some_iff.mp (List.head?_eq_getElem?.trans second)
          have whole : (String.intercalate columnGap (List.zipWith Text.padRight
                (width 0 :: width 1 :: widths) (cell :: next :: cells))).toList =
              cell.toList ++ (List.replicate (width 0 - cell.length + 3) ' ' ++
                (String.intercalate columnGap (List.zipWith Text.padRight
                  (width 1 :: widths) (next :: cells))).toList) := by
            simp [Text.padRight, columnGap, List.replicate_add]
          rw [whole]
          refine ((later.indent _).cons cell).congr fun index _ => ?_
          cases index with
          | zero => rfl
          | succ index =>
              rw [Finset.sum_range_succ']
              dsimp only
              omega

theorem aligned_row (member : row ∈ table) (indent : Nat) :
    Aligned (offset table indent) row (Text.spaces indent ++ String.intercalate columnGap
      (List.zipWith Text.padRight (columnWidths table) row)).toList := by
  have fits : ∀ index cell, row[index]? = some cell →
      (columnWidths table)[index]? = some (widest (column table index)) ∧
        cell.length ≤ widest (column table index) := by
    intro index cell here
    obtain ⟨width, inside⟩ := getElem?_columnWidths member here
    exact ⟨width, length_le_widest inside⟩
  rw [String.toList_append, Text.spaces, String.toList_ofList]
  exact (aligned_join fits).indent indent

theorem forall₂_tableLines (headers : List String) (rows : List (List String)) (indent : Nat) :
    List.Forall₂ (ShowsRow (headers :: rows) indent)
      ((if headers = [] then [] else [headers]) ++ rows) (tableLines headers rows indent) := by
  have lines : tableLines headers rows indent =
      ((if headers = [] then [] else [headers]) ++ rows).map
        (tableLine (columnWidths (headers :: rows)) indent) := by
    cases headers <;> rfl
  rw [lines, List.forall₂_map_right_iff, List.forall₂_same]
  intro cells member
  have listed : cells ∈ headers :: rows := by
    rcases List.mem_append.mp member with first | later
    · split at first
      · contradiction
      · exact List.mem_singleton.mp first ▸ List.mem_cons_self
    · exact List.mem_cons_of_mem _ later
  have aligned := aligned_row listed indent
  have trimmed : (tableLine (columnWidths (headers :: rows)) indent cells).toList = _ :=
    String.toList_ofList
  refine ⟨⟨_, aligned, trimmed⟩, fun c inside => or_iff_not_imp_left.mpr (aligned.mem ?_)⟩
  rw [trimmed] at inside
  exact (List.rdropWhile_prefix _ _).subset inside

theorem padRight_widest (member : text ∈ texts) :
    ∃ fill, Text.padRight (widest texts) text = text ++ Text.spaces fill ∧
      text.length + fill = widest texts :=
  ⟨widest texts - text.length, rfl, Nat.add_sub_of_le (length_le_widest member)⟩

@[simp] theorem length_spaces : (Text.spaces count).length = count := by
  rw [Text.spaces, String.length_ofList, List.length_replicate]

theorem spaces_add (first second : Nat) :
    Text.spaces (first + second) = Text.spaces first ++ Text.spaces second := by
  rw [Text.spaces, List.replicate_add, String.ofList_append]
  rfl

theorem forall₂_pairLines (entries : List (String × String)) (indent : Nat) :
    List.Forall₂ (ShowsPair indent (indent + widest (entries.map Prod.fst)))
      entries (pairLines entries indent) := by
  rw [pairLines, List.forall₂_map_right_iff, List.forall₂_same]
  intro entry member
  obtain ⟨fill, padded, filled⟩ :=
    padRight_widest (List.mem_map.mpr ⟨entry, member, rfl⟩ : entry.1 ∈ entries.map Prod.fst)
  refine ⟨_, fill, rfl, by rw [padded, String.append_assoc], ?_⟩
  rw [padded, String.length_append, String.length_append, length_spaces, length_spaces, filled]

theorem forall₂_helpLines (items : List HelpItem) :
    List.Forall₂ (ShowsItem (2 + widest (items.map HelpItem.text) + 2)) items
      (helpLines items) := by
  rw [helpLines, List.forall₂_map_right_iff, List.forall₂_same]
  intro item member
  obtain ⟨fill, padded, filled⟩ := padRight_widest
    (List.mem_map.mpr ⟨item, member, rfl⟩ : item.text ∈ items.map HelpItem.text)
  refine ⟨_, fill + 2, String.toList_ofList, ?_, ?_⟩
  · rw [padded, spaces_add]
    simp only [String.append_assoc]
  · rw [padded]
    simp only [String.length_append, length_spaces]
    omega

/-- A table is one line for its headers, if it has any, and one for each row, with every
column at one offset; so are the separators of a block of pairs and the descriptions of a
help listing. -/
theorem render_lines_up :
    (∀ headers rows indent,
      List.Forall₂ (ShowsRow (headers :: rows) indent)
        ((if headers = [] then [] else [headers]) ++ rows)
        (render (.table headers rows indent))) ∧
      (∀ entries indent,
        List.Forall₂ (ShowsPair indent (indent + widest (entries.map Prod.fst))) entries
          (render (.keyValues entries indent))) ∧
      ∀ items,
        List.Forall₂ (ShowsItem (2 + widest (items.map HelpItem.text) + 2)) items
          (render (.help items)) :=
  ⟨forall₂_tableLines, forall₂_pairLines, forall₂_helpLines⟩

/-- The first column is as wide as four bytes, though no cell has more than three letters. -/
example : render (.table ["Nom"] [["éé", "β"], [], ["x", "y"]] 2) =
    ["  Nom", "  éé     β", "", "  x      y"] := by decide

end SwitchShell.Output

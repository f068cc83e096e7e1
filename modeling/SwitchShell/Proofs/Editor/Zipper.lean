import SwitchShell.Proofs.Editor.LineBuffer

namespace SwitchShell

/-! Editing as on a text in two parts.

A zipper is the text on either side of a cursor and knows nothing of offsets.  Every
edit of a line does what it does on the zipper, and no cut of the line fails.
-/

/-- What can be done to a line. -/
inductive Edit where
  | insert (c : Char)
  | insertAll (text : String)
  | backspace
  | delete
  | moveLeft
  | moveRight
  | moveHome
  | moveEnd
  | set (text : String)
  | replaceStem (stem word : String)
  | take
deriving DecidableEq, Repr

/-- A text with a cursor in it. -/
structure Zipper where
  /-- The characters before the cursor, the nearest one first. -/
  left : List Char := []
  /-- The characters after the cursor. -/
  right : List Char := []
deriving DecidableEq, Repr

def LineBuffer.perform (buffer : LineBuffer) : Edit → Except Fault LineBuffer
  | .insert c => buffer.insert c
  | .insertAll text => buffer.insertAll text.toList
  | .backspace => buffer.backspace
  | .delete => buffer.delete
  | .moveLeft => .ok buffer.moveLeft
  | .moveRight => .ok buffer.moveRight
  | .moveHome => .ok buffer.moveHome
  | .moveEnd => .ok buffer.moveEnd
  | .set text => .ok (.ofText text)
  | .replaceStem stem word => buffer.replaceStem stem word
  | .take => .ok {}

namespace Zipper

/-- The text before the cursor, as it is read. -/
def before (zipper : Zipper) : List Char :=
  zipper.left.reverse

/-- The text after the cursor. -/
def after (zipper : Zipper) : List Char :=
  zipper.right

def moveLeft : Zipper → Zipper
  | { left := c :: left, right } => { left, right := c :: right }
  | { left := [], right } => { left := [], right }

def moveRight : Zipper → Zipper
  | { left, right := c :: right } => { left := c :: left, right }
  | { left, right := [] } => { left, right := [] }

def perform (zipper : Zipper) : Edit → Zipper
  | .insert c => { zipper with left := c :: zipper.left }
  | .insertAll text => { zipper with left := text.toList.reverse ++ zipper.left }
  | .backspace => { zipper with left := zipper.left.tail }
  | .delete => { zipper with right := zipper.right.tail }
  | .moveLeft => zipper.moveLeft
  | .moveRight => zipper.moveRight
  | .moveHome => { left := [], right := zipper.before ++ zipper.after }
  | .moveEnd => { left := (zipper.before ++ zipper.after).reverse, right := [] }
  | .set text => { left := text.toList.reverse, right := [] }
  | .replaceStem stem word =>
      { zipper with left := word.toList.reverse ++ zipper.left.drop stem.toList.length }
  | .take => {}

/-- The line with the same text and the same cursor. -/
def toBuffer (zipper : Zipper) : LineBuffer :=
  .around zipper.before zipper.after

variable {zipper : Zipper} {c : Char} {marks word : List Char}

theorem toBuffer_push (c : Char) (left right : List Char) :
    toBuffer { left := c :: left, right } = .around (left.reverse ++ [c]) right := by
  rw [toBuffer, before, List.reverse_cons]
  rfl

theorem insert_toBuffer :
    zipper.toBuffer.insert c = .ok (toBuffer { zipper with left := c :: zipper.left }) := by
  rw [toBuffer_push]
  exact LineBuffer.insert_around

theorem insertAll_toBuffer :
    zipper.toBuffer.insertAll word =
      .ok (toBuffer { zipper with left := word.reverse ++ zipper.left }) := by
  have ahead : toBuffer { zipper with left := word.reverse ++ zipper.left } =
      .around (zipper.before ++ word) zipper.after := by
    simp [toBuffer, before, after]
  rw [ahead]
  exact LineBuffer.insertAll_around

theorem backspace_toBuffer :
    zipper.toBuffer.backspace = .ok (toBuffer { zipper with left := zipper.left.tail }) := by
  obtain ⟨left, right⟩ := zipper
  cases left with
  | nil => rfl
  | cons c left =>
      rw [toBuffer_push]
      exact LineBuffer.backspace_around

theorem delete_toBuffer :
    zipper.toBuffer.delete = .ok (toBuffer { zipper with right := zipper.right.tail }) := by
  obtain ⟨left, right⟩ := zipper
  unfold LineBuffer.delete
  cases right with
  | nil =>
      rw [if_neg (by simp [toBuffer, after, LineBuffer.around, LineBuffer.length])]
      rfl
  | cons c right =>
      rw [if_pos (by simp [toBuffer, after, LineBuffer.around, LineBuffer.length])]
      exact LineBuffer.removeNext_around

theorem moveLeft_toBuffer : zipper.toBuffer.moveLeft = zipper.moveLeft.toBuffer := by
  obtain ⟨left, right⟩ := zipper
  cases left with
  | nil => rfl
  | cons c left =>
      rw [toBuffer_push]
      simp [LineBuffer.around, LineBuffer.moveLeft, moveLeft, toBuffer, before, after]

theorem moveRight_toBuffer : zipper.toBuffer.moveRight = zipper.moveRight.toBuffer := by
  obtain ⟨left, right⟩ := zipper
  unfold LineBuffer.moveRight
  cases right with
  | nil =>
      rw [if_neg (by simp [toBuffer, after, LineBuffer.around, LineBuffer.length])]
      rfl
  | cons c right =>
      rw [if_pos (by simp [toBuffer, after, LineBuffer.around, LineBuffer.length]), moveRight,
        toBuffer_push]
      simp [LineBuffer.around, toBuffer, before, after]

theorem backspaceAll_toBuffer :
    zipper.toBuffer.backspaceAll marks =
      .ok (toBuffer { zipper with left := zipper.left.drop marks.length }) := by
  induction marks generalizing zipper with
  | nil => rfl
  | cons mark marks ih =>
      rw [LineBuffer.backspaceAll, backspace_toBuffer]
      exact ih.trans (by simp)

theorem perform_toBuffer (edit : Edit) (zipper : Zipper) :
    zipper.toBuffer.perform edit = .ok (zipper.perform edit).toBuffer := by
  cases edit with
  | insert c => exact insert_toBuffer
  | insertAll text => exact insertAll_toBuffer
  | backspace => exact backspace_toBuffer
  | delete => exact delete_toBuffer
  | moveLeft => exact congrArg Except.ok moveLeft_toBuffer
  | moveRight => exact congrArg Except.ok moveRight_toBuffer
  | moveHome => rfl
  | moveEnd => simp [LineBuffer.perform, perform, LineBuffer.moveEnd, LineBuffer.length, toBuffer,
      LineBuffer.around, before, after]
  | set text => simp [LineBuffer.perform, perform, LineBuffer.ofText, toBuffer, LineBuffer.around,
      before, after]
  | replaceStem stem word =>
      rw [LineBuffer.perform, LineBuffer.replaceStem, backspaceAll_toBuffer]
      exact insertAll_toBuffer
  | take => rfl

theorem run_toBuffer (edits : List Edit) (zipper : Zipper) :
    edits.foldlM LineBuffer.perform zipper.toBuffer = .ok (edits.foldl perform zipper).toBuffer := by
  induction edits generalizing zipper with
  | nil => rfl
  | cons edit edits ih =>
      rw [List.foldlM_cons, perform_toBuffer, List.foldl_cons]
      exact ih (zipper.perform edit)

end Zipper

/-- Edits of an empty line never fail.  They leave the cursor within the text, and the
text on either side of it is what the same edits make of a zipper. -/
theorem LineBuffer.edits_as_zipper (edits : List Edit) :
    let zipper := edits.foldl Zipper.perform {}
    ∃ buffer, edits.foldlM LineBuffer.perform {} = .ok buffer ∧
      buffer.cursor ≤ buffer.length ∧
      buffer.line = String.ofList (zipper.before ++ zipper.after) ∧
      buffer.beforeCursor = .ok (String.ofList zipper.before) := by
  intro zipper
  exact ⟨zipper.toBuffer, Zipper.run_toBuffer edits {}, exists_around_iff.mp ⟨_, _, rfl⟩, rfl,
    beforeCursor_around _ _⟩

end SwitchShell

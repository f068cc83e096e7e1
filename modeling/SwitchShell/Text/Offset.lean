namespace SwitchShell.Text

/-- The bytes a text takes. -/
def byteLength (text : List Char) : Nat :=
  text.foldr (fun c size => c.utf8Size + size) 0

/-- The parts before and after an offset. -/
def cut? (offset : Nat) : List Char → Option (List Char × List Char)
  | [] => if offset = 0 then some ([], []) else none
  | c :: rest =>
      if offset = 0 then some ([], c :: rest)
      else if c.utf8Size ≤ offset then
        (cut? (offset - c.utf8Size) rest).map fun (before, after) => (c :: before, after)
      else none

/-- The part between two offsets. -/
def slice? (first stop : Nat) (text : List Char) : Option (List Char) := do
  let (before, _) ← cut? stop text
  let (_, part) ← cut? first before
  return part

theorem cut?_byteLength (before after : List Char) :
    cut? (byteLength before) (before ++ after) = some (before, after) := by
  induction before with
  | nil => cases after <;> simp [cut?, byteLength]
  | cons c before ih =>
      have positive := c.utf8Size_pos
      have size : byteLength (c :: before) = c.utf8Size + byteLength before := rfl
      rw [List.cons_append, cut?, size, if_neg (by omega), if_pos (by omega),
        Nat.add_sub_cancel_left, ih, Option.map_some]

end SwitchShell.Text

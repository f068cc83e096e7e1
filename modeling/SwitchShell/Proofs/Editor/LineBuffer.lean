import SwitchShell.Editor.LineBuffer

namespace SwitchShell.LineBuffer

/-- The line with the cursor between two texts. -/
def around (before after : List Char) : LineBuffer :=
  { text := before ++ after, cursor := before.length }

variable {buffer : LineBuffer} {before after front marks word : List Char} {c : Char}

theorem exists_around_iff :
    (∃ before after, buffer = around before after) ↔ buffer.cursor ≤ buffer.length := by
  constructor
  · rintro ⟨before, after, rfl⟩
    simp [around, length]
  · intro within
    refine ⟨buffer.text.take buffer.cursor, buffer.text.drop buffer.cursor, ?_⟩
    rw [around, List.take_append_drop, List.length_take_of_le within]

@[simp] theorem atCursor_around (before after : List Char) :
    (around before after).atCursor = .ok (before, after) := by
  have offset : byteOffset (before ++ after) before.length = Text.byteLength before := by
    rw [byteOffset, List.take_left]
  simp only [atCursor, cut, around, offset, Text.cut?_byteLength]

theorem beforeCursor_around (before after : List Char) :
    (around before after).beforeCursor = .ok (String.ofList before) := by
  rw [beforeCursor, atCursor_around]
  rfl

theorem insert_around : (around before after).insert c = .ok (around (before ++ [c]) after) := by
  rw [insert, atCursor_around]
  simp [around]

theorem insertAll_around :
    insertAll word (around before after) = .ok (around (before ++ word) after) := by
  induction word generalizing before with
  | nil => rw [insertAll, List.append_nil]
  | cons c word ih =>
      rw [insertAll, insert_around]
      simp only [ih, List.append_assoc, List.singleton_append]

theorem removeNext_around :
    (around before (c :: after)).removeNext = .ok (around before after) := by
  rw [removeNext, atCursor_around]
  rfl

theorem backspace_around : (around (before ++ [c]) after).backspace = .ok (around before after) := by
  have stepped : { around (before ++ [c]) after with cursor := (before ++ [c]).length - 1 } =
      around before (c :: after) := by
    simp [around]
  have some : 0 < (around (before ++ [c]) after).cursor := by simp [around]
  rw [backspace, if_pos some]
  exact (congrArg removeNext stepped).trans removeNext_around

theorem backspaceAll_around (length : word.length = marks.length) :
    backspaceAll marks (around (before ++ word) after) = .ok (around before after) := by
  induction marks generalizing word with
  | nil => rw [List.length_eq_zero_iff.mp length, List.append_nil, backspaceAll]
  | cons mark marks ih =>
      rcases List.eq_nil_or_concat word with rfl | ⟨front, c, rfl⟩
      · cases length
      · rw [List.length_concat, List.length_cons, Nat.add_right_cancel_iff] at length
        rw [List.concat_eq_append, ← List.append_assoc, backspaceAll, backspace_around]
        exact ih length

theorem replaceStem_around {stem replacement : String} :
    (around (front ++ stem.toList) after).replaceStem stem replacement =
      .ok (around (front ++ replacement.toList) after) := by
  rw [replaceStem, backspaceAll_around rfl]
  exact insertAll_around

end SwitchShell.LineBuffer

import SwitchShell.Proofs.Editor.History
import SwitchShell.Proofs.Editor.Tab
import SwitchShell.Proofs.Editor.Zipper

namespace SwitchShell

namespace LineBuffer

variable {buffer : LineBuffer}

theorem exists_toBuffer (within : buffer.cursor ≤ buffer.length) :
    ∃ zipper : Zipper, zipper.toBuffer = buffer := by
  obtain ⟨before, after, rfl⟩ := exists_around_iff.mpr within
  refine ⟨{ left := before.reverse, right := after }, ?_⟩
  rw [Zipper.toBuffer, Zipper.before, List.reverse_reverse]
  rfl

theorem perform_within (within : buffer.cursor ≤ buffer.length) (edit : Edit) :
    ∃ later, buffer.perform edit = .ok later ∧ later.cursor ≤ later.length := by
  obtain ⟨zipper, rfl⟩ := exists_toBuffer within
  exact ⟨_, Zipper.perform_toBuffer edit zipper, exists_around_iff.mp ⟨_, _, rfl⟩⟩

end LineBuffer

/-- The line that is to be run. -/
def Reaction.submitted? : Reaction → Option String
  | .submit line => some line
  | _ => Option.none

/-- The line that was run. -/
def Response.ran? : Response → Option String
  | .ran line _ => some line
  | _ => none

namespace Editor

/-- The cursor is within the line, and the history holds the newest of these lines. -/
structure Sound (editor : Editor) (capacity : Nat) (lines : List String) : Prop where
  within : editor.buffer.cursor ≤ editor.buffer.length
  bounded : editor.history.capacity = capacity
  holds : editor.history.Holds lines

/-- The key was answered, and the editor is sound after the line that is to be run. -/
def Answers (capacity : Nat) (lines : List String) (answer : Except Fault (Reaction × Editor)) :
    Prop :=
  ∃ reaction later, answer = .ok (reaction, later) ∧
    later.Sound capacity (lines ++ reaction.submitted?.toList)

variable {editor : Editor} {capacity : Nat} {lines : List String} {reaction : Reaction}

theorem sound_new (capacity : Nat) : Sound { history := { capacity } } capacity [] where
  within := Nat.le_refl 0
  bounded := rfl
  holds := History.holds_new capacity

theorem answers_of_quiet (quiet : reaction.submitted? = none) (sound : editor.Sound capacity lines) :
    Answers capacity lines (.ok (reaction, editor)) :=
  ⟨reaction, editor, rfl, by simpa [quiet] using sound⟩

theorem answers_of_submit {history : History} {line : String}
    (bounded : history.capacity = capacity) (holds : history.Holds (lines ++ [line])) :
    Answers capacity lines (.ok (.submit line, { buffer := {}, history })) :=
  ⟨_, _, rfl, Nat.zero_le _, bounded, holds⟩

namespace Sound

theorem edited (sound : editor.Sound capacity lines) (edit : Edit) :
    Answers capacity lines (editor.edited (editor.buffer.perform edit)) := by
  obtain ⟨buffer, performed, within⟩ := LineBuffer.perform_within sound.within edit
  rw [performed]
  exact answers_of_quiet rfl ⟨within, sound.bounded, sound.holds⟩

theorem recalled (sound : editor.Sound capacity lines)
    {found : Except Fault (Option String × History)}
    (moved : ∃ shown later, found = .ok (shown, later) ∧
      later.capacity = editor.history.capacity ∧ later.Holds lines) :
    Answers capacity lines (editor.recalled found) := by
  obtain ⟨shown, later, rfl, same, holds⟩ := moved
  have bounded := same.trans sound.bounded
  cases shown with
  | none => exact answers_of_quiet rfl ⟨sound.within, bounded, holds⟩
  | some line => exact answers_of_quiet rfl ⟨Nat.le_refl _, bounded, holds⟩

theorem pressControl (sound : editor.Sound capacity lines) (c : Char) :
    Answers capacity lines (editor.pressControl c) := by
  unfold Editor.pressControl
  split
  · exact answers_of_quiet rfl ⟨Nat.zero_le _, sound.bounded, sound.holds.reset⟩
  split
  · split
    · exact answers_of_quiet rfl sound
    · exact sound.edited .delete
  split
  · exact sound.edited .moveHome
  split
  · exact sound.edited .moveEnd
  · exact answers_of_quiet rfl sound

theorem press (sound : editor.Sound capacity lines) (key : Key) :
    Answers capacity lines (editor.press key) := by
  cases key with
  | control c => exact sound.pressControl c
  | char c =>
      rw [Editor.press]
      split
      · exact answers_of_quiet rfl sound
      · exact sound.edited (.insert c)
  | tab | other => exact answers_of_quiet rfl sound
  | backspace => exact sound.edited .backspace
  | delete => exact sound.edited .delete
  | left => exact sound.edited .moveLeft
  | right => exact sound.edited .moveRight
  | lineStart => exact sound.edited .moveHome
  | lineEnd => exact sound.edited .moveEnd
  | up => exact sound.recalled (sound.holds.previous _)
  | down => exact sound.recalled sound.holds.next
  | enter => exact answers_of_submit (History.capacity_push.trans sound.bounded) sound.holds.push

theorem replaceStem (sound : editor.Sound capacity lines) (stem word : String) :
    ∃ buffer, editor.buffer.replaceStem stem word = .ok buffer ∧
      Sound { editor with buffer } capacity lines := by
  obtain ⟨buffer, performed, within⟩ :=
    LineBuffer.perform_within sound.within (.replaceStem stem word)
  exact ⟨buffer, performed, within, sound.bounded, sound.holds⟩

theorem applyCompletion (sound : editor.Sound capacity lines) (completion : Completion) :
    ∃ listing later, editor.applyCompletion completion = .ok (listing, later) ∧
      later.Sound capacity lines := by
  have replaced : ∀ word, ∃ listing later,
      ((editor.buffer.replaceStem completion.stem word).map fun buffer =>
          ((none : Option (List String)), { editor with buffer })) = .ok (listing, later) ∧
        later.Sound capacity lines := by
    intro word
    obtain ⟨buffer, performed, kept⟩ := sound.replaceStem completion.stem word
    exact ⟨none, _, by rw [performed]; rfl, kept⟩
  unfold Editor.applyCompletion
  split
  · exact replaced _
  split
  · exact replaced _
  split
  · exact ⟨none, editor, rfl, sound⟩
  · exact ⟨_, editor, rfl, sound⟩

end Sound

end Editor

namespace Console

variable {α σ : Type} {console : Console} {capacity : Nat} {lines : List String}

/-- Keys one after the other, and the responses to them. -/
def pressAll : List Key → Console → Query (List Response × Console)
  | [], console => return ([], console)
  | key :: keys, console => do
      let (response, later) ← ExceptT.mk (console.press key)
      let (responses, last) ← pressAll keys later
      return (response :: responses, last)

theorem exists_candidates (sound : console.editor.Sound capacity lines) (backend : Backend σ)
    (state : σ) : ∃ completion, (Program.run backend console.candidates state).1 = .ok completion := by
  obtain ⟨before, after, shape⟩ := LineBuffer.exists_around_iff.mpr sound.within
  exact ⟨_, Session.run_candidates console backend state
    (shape ▸ LineBuffer.beforeCursor_around before after)⟩

/-- What a key led to is good, or the program broke off. -/
def GoesOn (good : α → Prop) : Except Fault α → Prop
  | .ok value => good value
  | .error fault => fault.isFatal = true

theorem react_goesOn {reaction : Reaction}
    (sound : console.editor.Sound capacity (lines ++ reaction.submitted?.toList))
    (backend : Backend σ) (state : σ) :
    GoesOn (fun (response, later) => later.editor.Sound capacity (lines ++ response.ran?.toList))
      (Program.run backend (console.react reaction) state).1 := by
  cases reaction with
  | submit line =>
      simp only [react, Program.run_andThen, Program.run_done]
      split
      · rename_i fault crashed
        exact Session.isFatal_of_crash crashed
      · exact sound
  | complete =>
      obtain ⟨completion, found⟩ := exists_candidates sound backend state
      obtain ⟨listing, editor, applied, kept⟩ := sound.applyCompletion completion
      simp only [react, Program.run_andThen, found, applied]
      exact kept
  | help =>
      obtain ⟨completion, found⟩ := exists_candidates sound backend state
      simp only [react, Program.run_andThen, found]
      exact sound
  | none | redraw | cancel | endInput => exact sound

theorem press_goesOn (sound : console.editor.Sound capacity lines) (key : Key)
    (backend : Backend σ) (state : σ) :
    GoesOn (fun (response, later) => later.editor.Sound capacity (lines ++ response.ran?.toList))
      (Program.run backend (console.press key) state).1 := by
  obtain ⟨reaction, editor, pressed, kept⟩ := sound.press key
  rw [press, pressed]
  exact @react_goesOn σ { console with editor } capacity lines reaction kept backend state

theorem pressAll_goesOn (sound : console.editor.Sound capacity lines) (keys : List Key)
    (backend : Backend σ) (state : σ) :
    GoesOn
      (fun (responses, later) =>
        later.editor.Sound capacity (lines ++ responses.filterMap Response.ran?))
      (Query.answer backend (pressAll keys console) state).1 := by
  -- on the keys; the line that one of them ran is the last of those before the next
  induction keys generalizing console lines state with
  | nil => simpa [GoesOn, pressAll] using sound
  | cons key keys ih =>
      have pressed := press_goesOn sound key backend state
      have answered : Query.answer backend (ExceptT.mk (console.press key)) state =
          Program.run backend (console.press key) state := rfl
      rw [pressAll, Query.answer_bind, answered]
      generalize Program.run backend (console.press key) state = first at pressed ⊢
      rcases first with ⟨fault | ⟨response, middle⟩, next⟩
      · exact pressed
      · have onward := ih pressed next
        dsimp only
        rw [Query.answer_bind]
        generalize Query.answer backend (pressAll keys middle) next = others at onward ⊢
        rcases others with ⟨fault | ⟨responses, later⟩, last⟩
        · exact onward
        · change later.editor.Sound capacity (lines ++ (response :: responses).filterMap _)
          cases entered : response.ran? <;> simpa [GoesOn, entered] using onward

/-- In any session with any database every key is answered, unless the program breaks
off at a line.  The cursor ends within the line, and the history holds the newest of
the lines that were run and are worth keeping. -/
theorem pressAll_answers (session : Session) (capacity : Nat) (keys : List Key)
    (backend : Backend σ) (state : σ) :
    let console : Console := { editor := { history := { capacity } }, session }
    (∃ fault, (Query.answer backend (pressAll keys console) state).1 = .error fault ∧
      fault.isFatal = true) ∨
    ∃ responses later,
      (Query.answer backend (pressAll keys console) state).1 = .ok (responses, later) ∧
      later.editor.buffer.cursor ≤ later.editor.buffer.length ∧
      later.editor.history.entries =
        (History.worthKeeping (responses.filterMap Response.ran?)).rtake capacity := by
  intro console
  have pressed := @pressAll_goesOn σ console capacity [] (Editor.sound_new capacity) keys backend
    state
  generalize (Query.answer backend (pressAll keys console) state).1 = answer at pressed ⊢
  cases answer with
  | error fault => exact .inl ⟨fault, rfl, pressed⟩
  | ok value =>
      refine .inr ⟨value.1, value.2, rfl, pressed.within, ?_⟩
      rw [pressed.holds.entries, pressed.bounded, List.nil_append]

end Console

end SwitchShell

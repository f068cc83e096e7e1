import SwitchShell.Editor.History
import SwitchShell.Editor.LineBuffer
import SwitchShell.Session

namespace SwitchShell

inductive Key where
  | char (c : Char)
  | control (c : Char)
  | tab
  | backspace
  | delete
  | left
  | right
  | lineStart
  | lineEnd
  | up
  | down
  | enter
  | other
deriving DecidableEq, Repr

/-- What is to be done after a key. -/
inductive Reaction where
  | none
  /-- The line looks different. -/
  | redraw
  | submit (line : String)
  | complete
  /-- List what may follow. -/
  | help
  /-- The line was dropped. -/
  | cancel
  | endInput
deriving DecidableEq, Repr

/-- A line and the history it can be taken from. -/
structure Editor where
  buffer : LineBuffer := {}
  history : History
deriving DecidableEq, Repr

namespace Editor

def withBuffer (editor : Editor) (buffer : LineBuffer) : Except Fault (Reaction × Editor) :=
  .ok (.redraw, { editor with buffer })

def edited (editor : Editor) (change : Except Fault LineBuffer) : Except Fault (Reaction × Editor) :=
  change.bind editor.withBuffer

/-- Shows what was found in the history, if anything was. -/
def recalled (editor : Editor) (found : Except Fault (Option String × History)) :
    Except Fault (Reaction × Editor) :=
  match found with
  | .ok (some line, history) => .ok (.redraw, { buffer := .ofText line, history })
  | .ok (none, history) => .ok (.none, { editor with history })
  | .error fault => .error fault

/-- Keys pressed together with Ctrl. -/
def pressControl (c : Char) (editor : Editor) : Except Fault (Reaction × Editor) :=
  if c = 'c' then .ok (.cancel, { buffer := {}, history := editor.history.reset })
  else if c = 'd' then
    if editor.buffer.isEmpty then .ok (.endInput, editor) else editor.edited editor.buffer.delete
  else if c = 'a' then editor.withBuffer editor.buffer.moveHome
  else if c = 'e' then editor.withBuffer editor.buffer.moveEnd
  else .ok (.none, editor)

def press (key : Key) (editor : Editor) : Except Fault (Reaction × Editor) :=
  match key with
  | .control c => editor.pressControl c
  | .char c => if c = '?' then .ok (.help, editor) else editor.edited (editor.buffer.insert c)
  | .tab => .ok (.complete, editor)
  | .backspace => editor.edited editor.buffer.backspace
  | .delete => editor.edited editor.buffer.delete
  | .left => editor.withBuffer editor.buffer.moveLeft
  | .right => editor.withBuffer editor.buffer.moveRight
  | .lineStart => editor.withBuffer editor.buffer.moveHome
  | .lineEnd => editor.withBuffer editor.buffer.moveEnd
  | .up => editor.recalled (editor.history.previous editor.buffer.line)
  | .down => editor.recalled editor.history.next
  | .enter =>
      .ok (.submit editor.buffer.line,
        { buffer := {}, history := editor.history.push editor.buffer.line })
  | .other => .ok (.none, editor)

/-- Completes the word in progress as far as it goes; gives a listing if it does
not go any further. -/
def applyCompletion (completion : Completion) (editor : Editor) :
    Except Fault (Option (List String) × Editor) :=
  let replaced (word : String) : Except Fault (Option (List String) × Editor) :=
    (editor.buffer.replaceStem completion.stem word).map fun buffer =>
      (none, { editor with buffer })
  match completion.unique? with
  | some word => replaced (word ++ " ")
  | none =>
      match completion.commonStart? with
      | some start => replaced start
      | none =>
          if completion.items.isEmpty then .ok (none, editor)
          else .ok (some (Output.help completion.items).render, editor)

end Editor

structure Console where
  editor : Editor
  session : Session

/-- What a key led to. -/
inductive Response where
  | quiet (reaction : Reaction)
  | ran (line : String) (dispatch : Dispatch)
  | completed (listing : Option (List String))
  | helped (listing : List String)
deriving DecidableEq, Repr

namespace Console

/-- What may follow the text before the cursor; nothing if it cannot be found out. -/
def candidates (console : Console) : Program (Except Fault Completion) :=
  match console.editor.buffer.beforeCursor with
  | .error fault => .done (.error fault)
  | .ok text =>
      Program.andThen
        (fun
          | .ok completion => .done (.ok completion)
          | .error _ => .done (.ok {}))
        (console.session.complete text).run

/-- Does what the reaction to a key asks for. -/
def react (console : Console) : Reaction → Program (Except Fault (Response × Console))
  | .submit line =>
      Program.andThen
        (fun (dispatch, session) =>
          .done
            (match dispatch.crash with
            | some fault => .error fault
            | none => .ok (.ran line dispatch, { console with session })))
        (console.session.dispatch line)
  | .complete =>
      Program.andThen
        (fun
          | .error fault => .done (.error fault)
          | .ok completion =>
              .done ((console.editor.applyCompletion completion).map fun (listing, editor) =>
                (.completed listing, { console with editor })))
        console.candidates
  | .help =>
      Program.andThen
        (fun
          | .error fault => .done (.error fault)
          | .ok completion =>
              .done (.ok (.helped (Output.help completion.helpItems).render, console)))
        console.candidates
  | reaction => .done (.ok (.quiet reaction, console))

def press (key : Key) (console : Console) : Program (Except Fault (Response × Console)) :=
  match console.editor.press key with
  | .error fault => .done (.error fault)
  | .ok (reaction, editor) => react { console with editor } reaction

end Console

end SwitchShell

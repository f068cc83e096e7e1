import SwitchShell.Fault
import SwitchShell.Text.Words

namespace SwitchShell

/-- The lines that were entered, the oldest first.  The line that was being typed is
kept as a draft while older ones are in view. -/
structure History where
  /-- The most entries that are kept. -/
  capacity : Nat
  entries : List String := []
  /-- The entry in view; without one the line being typed is. -/
  position : Option Nat := none
  draft : String := ""
deriving DecidableEq, Repr

namespace History

/-- Goes back to the line being typed. -/
def reset (history : History) : History :=
  { history with position := none, draft := "" }

/-- The newest `capacity` entries of a list that was within it before its last entry. -/
def evict (capacity : Nat) (entries : List String) : List String :=
  if capacity < entries.length then entries.tail else entries

/-- Adds a line without the white space around it, unless nothing is left of it
or it equals the newest entry. -/
def push (line : String) (history : History) : History :=
  let entry := Text.trim line
  let rested := history.reset
  if entry.isEmpty || history.capacity = 0 then rested
  else if history.entries.getLast? = some entry then rested
  else { rested with entries := evict history.capacity (history.entries ++ [entry]) }

/-- Brings the entry at a place into view. -/
def view (history : History) (place : Nat) : Except Fault (Option String × History) :=
  match history.entries[place]? with
  | some entry => .ok (some entry, { history with position := some place })
  | none => .error .outOfRange

/-- Moves to the next older entry, if there is one. -/
def previous (current : String) (history : History) : Except Fault (Option String × History) :=
  if history.entries.isEmpty then .ok (none, history)
  else
    match history.position with
    | none => view { history with draft := current } (history.entries.length - 1)
    | some 0 => .ok (none, history)
    | some (place + 1) => view history place

/-- Moves to the next newer entry, and from the newest one to the draft. -/
def next (history : History) : Except Fault (Option String × History) :=
  match history.position with
  | none => .ok (none, history)
  | some place =>
      if place + 1 < history.entries.length then view history (place + 1)
      else .ok (some history.draft, { history with position := none })

end History

end SwitchShell

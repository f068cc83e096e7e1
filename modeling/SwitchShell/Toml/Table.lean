import SwitchShell.Toml.Value

namespace SwitchShell.Toml

/-- Changes the table at the end of a path.  Tables that are missing on the way
come about by `step`; a list of tables stands for its last one. -/
def editAt (step : Origin) (change : Origin → Members → Option Members) :
    List String → Origin → Members → Option Members
  | [], origin, members => change origin members
  | key :: path, _, members =>
      match Dictionary.find? key members with
      | none =>
          (editAt step change path step []).map fun inner =>
            members.insert key (.table step inner)
      | some (.table origin inner) =>
          if step = .dotted ∧ origin = .header then none
          else
            (editAt step change path origin inner).map fun inner =>
              members.insert key (.table origin inner)
      | some (.tables entries) =>
          (editAt step change path .header (entries.getLast?.getD [])).map fun inner =>
            members.insert key (.tables (entries.dropLast ++ [inner]))
      | some _ => none

/-- Binds a key that is not bound.  A dotted key must end in a table that dotted
keys brought about. -/
def bindKey (path : List String) (key : String) (value : Toml) (origin : Origin)
    (members : Members) : Option Members :=
  editAt .dotted
    (fun origin table =>
      if (origin == .dotted) == path.isEmpty then none
      else if table.contains key then none
      else some (table.insert key value))
    path origin members

/-- Binds a key in the table of the last header. -/
def bindUnder (header path : List String) (key : String) (value : Toml) (root : Members) :
    Option Members :=
  editAt .implied (bindKey path key value) header .header root

/-- Changes what the last part of a header is bound to. -/
def editHeader (header : List String) (change : Option Toml → Option Toml) (root : Members) :
    Option Members :=
  match header.getLast? with
  | none => none
  | some key =>
      editAt .implied
        (fun _ table => (change (Dictionary.find? key table)).map fun value =>
          table.insert key value)
        header.dropLast .header root

/-- Makes way for the keys after a header in single brackets. -/
def openTable (header : List String) (root : Members) : Option Members :=
  editHeader header
    (fun
      | none => some (.table .header [])
      | some (.table .implied inner) => some (.table .header inner)
      | some _ => none)
    root

/-- Makes way for the keys after a header in double brackets. -/
def appendTable (header : List String) (root : Members) : Option Members :=
  editHeader header
    (fun
      | none => some (.tables [[]])
      | some (.tables entries) => some (.tables (entries ++ [[]]))
      | some _ => none)
    root

end SwitchShell.Toml

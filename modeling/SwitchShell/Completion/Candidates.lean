import SwitchShell.Grammar.Token

namespace SwitchShell

structure Completion where
  stem : String := ""
  items : List HelpItem := []
  /-- The finished words can be run as they are. -/
  executable : Bool := false
deriving DecidableEq, Repr, Inhabited

namespace Completion

/-- The mark for a line that can be run. -/
def runMark : String := "<cr>"

/-- The only item, if there is one and it can be typed. -/
def unique? (completion : Completion) : Option String :=
  match completion.items with
  | [item] => if item.literal then some item.text else none
  | _ => none

/-- The longest beginning that two texts share. -/
def sharedStart : List Char → List Char → List Char
  | left :: lefts, right :: rights =>
      if left = right then left :: sharedStart lefts rights else []
  | _, _ => []

def sharedStartOf (first : String) (texts : List String) : String :=
  String.ofList (texts.foldl (fun start text => sharedStart start text.toList) first.toList)

/-- What all items begin with, if all can be typed and it goes beyond the word
in progress. -/
def commonStart? (completion : Completion) : Option String :=
  match completion.items with
  | [] => none
  | first :: rest =>
      if !completion.items.all HelpItem.literal then none
      else
        let start := sharedStartOf first.text (rest.map HelpItem.text)
        if completion.stem.utf8ByteSize < start.utf8ByteSize then some start else none

/-- The items, and a mark if the line can be run. -/
def helpItems (completion : Completion) : List HelpItem :=
  completion.items ++
    (if completion.executable then [{ text := runMark, help := "", literal := false }] else [])

end Completion

end SwitchShell

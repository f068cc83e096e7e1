import SwitchShell.Text.Words

namespace SwitchShell.Files

/-- A path by the pieces between its slashes, the slash of the root apart. -/
structure Path where
  /-- The path begins at the root. -/
  absolute : Bool := false
  pieces : List String := []
deriving DecidableEq, Repr

namespace Path

def parse (text : String) : Path :=
  let pieces (letters : List Char) : List String := (Text.splitAt '/' letters).map String.ofList
  match text.toList with
  | '/' :: letters => { absolute := true, pieces := pieces letters }
  | letters => { pieces := pieces letters }

def text (path : Path) : String :=
  (if path.absolute then "/" else "") ++ String.intercalate "/" path.pieces

/-- A piece that leads nowhere. -/
def isIdle (piece : String) : Bool :=
  piece.isEmpty || piece = "."

/-- The path without its last name and what is idle around it. -/
def parent? (path : Path) : Option Path :=
  match path.pieces.reverse.dropWhile isIdle with
  | [] => none
  | _ :: outer => some { path with pieces := (outer.dropWhile isIdle).reverse }

end Path

end SwitchShell.Files

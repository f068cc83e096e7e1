import SwitchShell.Files.Path
import SwitchShell.Text.Bytes

namespace SwitchShell

/-- What is found at a path. -/
inductive FileContent where
  | missing
  | unreadable (reason : String)
  | bytes (content : Text.Bytes)
deriving DecidableEq, Repr

namespace Files

/-- Why something cannot be done at a path. -/
inductive Trouble where
  | missing
  | occupied
  | isDirectory
  | reported (text : String)
deriving DecidableEq, Repr

def Trouble.message : Trouble → String
  | .missing => "No such file or directory (os error 2)"
  | .occupied => "File exists (os error 17)"
  | .isDirectory => "Is a directory (os error 21)"
  | .reported text => text

/-- What can be done with files.  An action gives the reason if it fails. -/
structure Access (m : Type → Type) where
  read : Path → m FileContent
  isDirectory : Path → m Bool
  /-- Makes one directory. -/
  makeDirectory : Path → m (Option Trouble)
  /-- Makes a file empty, and the file itself if it is missing. -/
  createFile : Path → m (Option Trouble)

namespace Access

/-- A directory that is there already need not be made. -/
def settle [Monad m] (files : Access m) (path : Path) : Option Trouble → m (Option Trouble)
  | some .occupied => do return if ← files.isDirectory path then none else some .occupied
  | outcome => pure outcome

/-- Makes a directory and those above it that are missing.  The pieces of its path
are given from the inside. -/
def makeDirectories [Monad m] (files : Access m) (absolute : Bool) :
    List String → m (Option Trouble)
  | [] => pure none
  | piece :: outer =>
      if Path.isIdle piece then files.makeDirectories absolute outer
      else do
        let path : Path := { absolute, pieces := (piece :: outer).reverse }
        match ← files.makeDirectory path with
        | some .missing =>
            match ← files.makeDirectories absolute outer with
            | some trouble => return some trouble
            | none => files.settle path (← files.makeDirectory path)
        | outcome => files.settle path outcome

def makeParent [Monad m] (files : Access m) (path : Path) : m (Option Trouble) :=
  match path.parent? with
  | some parent => files.makeDirectories parent.absolute parent.pieces.reverse
  | none => pure none

end Access

end Files

end SwitchShell

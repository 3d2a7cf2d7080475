import GraphMapping.Text.Blank

/-!
# Files in a folder

A path leads from a folder step by step through the folders below it to a file.  An empty step and a
dot stay where they are, and two dots lead back; what lies outside the folder is not known.
-/

namespace GraphMapping

/-- Why a file cannot be read. -/
inductive FileFault where
  | missing
  | folder
  /-- A step leads on from a file. -/
  | notFolder
  | longName
  /-- A fault that the system describes. -/
  | other (description : String)
deriving DecidableEq, Repr

/-- The description of a fault. -/
def FileFault.message : FileFault → String
  | .missing => "No such file or directory (os error 2)"
  | .folder => "Is a directory (os error 21)"
  | .notFolder => "Not a directory (os error 20)"
  | .longName => "File name too long (os error 36)"
  | .other description => description

/-- The contents of files, each under its path within a folder. -/
abbrev Folder (α : Type) := List (String × α)

namespace Folder

variable {α : Type}

/-- The longest step, in bytes. -/
def maxStep : Nat := 255

/-- The longest path, in bytes. -/
def maxPath : Nat := 4095

/-- The steps of a path. -/
def steps (path : String) : List String :=
  (Text.split '/' path.toList).map String.ofList

/-- A step that stays where it is. -/
def stays (step : String) : Bool :=
  step == "" || step == "."

/-- The file at the end of the given steps, each of which leads on. -/
def file? (folder : Folder α) (place : List String) : Option α :=
  (folder.find? fun e => (steps e.1).filter (!stays ·) == place).map Prod.snd

/-- Whether the given steps lead towards a file. -/
def leadsOn (folder : Folder α) (place : List String) : Bool :=
  folder.any fun e => place.isPrefixOf ((steps e.1).filter (!stays ·))

/-- The step back; it may lead outside. -/
def back : List String → Option (List String)
  | [] => none
  | place => some place.dropLast

/-- Follow the steps of a path from a place in the folder, or from outside. -/
def follow (folder : Folder α) : Option (List String) → List String → Except FileFault α
  | _, [] => .error .folder
  | place, step :: rest =>
      if stays step then follow folder place rest
      else if step = ".." then follow folder (place.bind back) rest
      else if maxStep < step.utf8ByteSize then .error .longName
      else
        match place.map (· ++ [step]) with
        | none => .error .missing
        | some place =>
            match file? folder place with
            | some a => if rest.isEmpty then .ok a else .error .notFolder
            | none => if leadsOn folder place then follow folder (some place) rest else .error .missing

/-- The content of the file at a path. -/
def read (folder : Folder α) (path : String) : Except FileFault α :=
  if path = "" then .error .missing
  else if maxPath < path.utf8ByteSize then .error .longName
  else follow folder (if path.toList.head? = some '/' then none else some []) (steps path)

end Folder

end GraphMapping

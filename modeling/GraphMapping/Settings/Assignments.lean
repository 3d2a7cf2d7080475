import GraphMapping.Text.Alphanumeric
import GraphMapping.Text.Blank

/-!
# Assignment files

An assignment file sets variables, one `NAME=value` after the other.  A value may be quoted in two ways,
may run over several lines within quotation marks, may escape characters by a backslash, and may name
variables by a dollar sign.  Reading stops at the first fault; what was assigned before stays.  Main
statements: the lines of a text make up the text, and a variable that is set keeps its value.
-/

namespace GraphMapping

/-- Where a line stands at its end: only a complete one ends there. -/
inductive LineState where
  | complete
  | blank
  | escape
  | quoted (mark : Char)
  /-- After a backslash between quotation marks. -/
  | quotedEscape (mark : Char)
deriving DecidableEq, Repr

namespace LineState

/-- What a character begins outside quotation marks. -/
def opened (c : Char) : LineState :=
  if c = '\\' then .escape
  else if c = '"' ∨ c = '\'' then .quoted c
  else .complete

/-- The state after one more character.  Blanks are seen one at a time: after the second of two the line
counts as complete. -/
def next (c : Char) : LineState → LineState
  | .complete => if Text.isBlank c && c != '\n' && c != '\r' then .blank else opened c
  | .blank => opened c
  | .escape => .complete
  | .quoted mark => if c = '\\' then .quotedEscape mark else if c = mark then .complete else .quoted mark
  | .quotedEscape mark => .quoted mark

/-- The part of a line before a comment, and the state at its end.  A comment follows a blank, and completes
the line. -/
def scan : LineState → List Char → List Char × LineState
  | state, [] => ([], state)
  | state, c :: rest =>
      if state = .blank ∧ c = '#' then ([], .complete)
      else
        let (taken, last) := scan (state.next c) rest
        (c :: taken, last)

end LineState

namespace Assignments

/-- The lines of a text, each with the line feed that ends it. -/
def lines : List Char → List (List Char)
  | [] => []
  | c :: rest =>
      if c = '\n' then [c] :: lines rest
      else
        match lines rest with
        | [] => [[c]]
        | line :: more => (c :: line) :: more

/-- Whether a line holds a comment only. -/
def isComment (line : List Char) : Bool :=
  (Text.trimLeft line).head? == some '#'

/-- The statements of a file: lines put together until they are complete.  A statement that the file does
not complete is none. -/
def statements (pending : List Char) : LineState → List (List Char) → List (Option (List Char))
  | .complete, [] => []
  | _, [] => [none]
  | state, line :: rest =>
      if isComment (pending ++ line) then statements [] .complete rest
      else
        let (taken, state) := state.scan line
        let pending := pending ++ taken
        if state = .complete then some pending :: statements [] .complete rest
        else statements pending state rest

/-- What the characters of a value are part of.  Characters of a name are kept in reverse. -/
inductive Part where
  | text
  | escape
  /-- Between single quotation marks, where every character stands for itself. -/
  | verbatim
  /-- After a dollar sign. -/
  | name (taken : List Char)
  /-- After a dollar sign and a brace. -/
  | bracedName (taken : List Char)
  /-- After the value. -/
  | margin
  | comment
deriving DecidableEq, Repr

/-- A value as far as it is read, in reverse. -/
structure Reading where
  part : Part
  /-- Between double quotation marks. -/
  quoted : Bool
  taken : List Char
deriving DecidableEq, Repr

namespace Reading

/-- The beginning of a value. -/
def start : Reading := ⟨.text, false, []⟩

/-- A character that stands for itself. -/
def push (r : Reading) (c : Char) : Reading :=
  { r with part := .text, taken := c :: r.taken }

/-- The value of a variable in place of its name, which is given in reverse. -/
def substitute (valueOf : String → String) (r : Reading) (name : List Char) : Reading :=
  { r with part := .text, taken := (valueOf (String.ofList name.reverse)).toList.reverse ++ r.taken }

/-- The character that an escape stands for. -/
def escaped? (c : Char) : Option Char :=
  if c = 'n' then some '\n'
  else if c = '\\' ∨ c = '\'' ∨ c = '"' ∨ c = '$' ∨ c = ' ' then some c
  else none

/-- A character of the text of a value, quoted or not. -/
def nextText (r : Reading) (c : Char) : Reading :=
  if c = '$' then { r with part := .name [] }
  else if c = '\\' then { r with part := .escape }
  else if c = '"' then { r with quoted := !r.quoted }
  else if r.quoted then r.push c
  else if c = '\'' then { r with part := .verbatim }
  else if c = ' ' ∨ c = '\t' then { r with part := .margin }
  else r.push c

/-- Take one more character.  What ends a name without braces stands for itself, a quotation mark too,
unless it begins another name. -/
def next (valueOf : String → String) (r : Reading) (c : Char) : Option Reading :=
  match r.part with
  | .text => some (r.nextText c)
  | .escape => (escaped? c).map r.push
  | .verbatim =>
      if c = '\'' then some { r with part := .text } else some { r with taken := c :: r.taken }
  | .name name =>
      if Text.isAlphanumeric c then some { r with part := .name (c :: name) }
      else if c = '\x7b' ∧ name = [] then some { r with part := .bracedName [] }
      else if c = '$' then some { r.substitute valueOf name with part := .name [] }
      else some ((r.substitute valueOf name).push c)
  | .bracedName name =>
      if c = '\x7d' then some (r.substitute valueOf name)
      else some { r with part := .bracedName (c :: name) }
  | .margin =>
      if c = ' ' ∨ c = '\t' then some r
      else if c = '#' then some { r with part := .comment }
      else none
  | .comment => some r

/-- The finished value.  Quotation marks and braces must be closed; a last backslash is dropped. -/
def finish (valueOf : String → String) (r : Reading) : Option String :=
  let value (r : Reading) : Option String := some (String.ofList r.taken.reverse)
  if r.quoted then none
  else
    match r.part with
    | .verbatim | .bracedName _ => none
    | .name name => value (r.substitute valueOf name)
    | .text | .escape | .margin | .comment => value r

end Reading

/-- Read a value. -/
def readValue (valueOf : String → String) (cs : List Char) : Option String :=
  (cs.foldlM (fun r c => Reading.next valueOf r c) .start).bind (Reading.finish valueOf)

/-- A character that a name begins with. -/
def isNameStart (c : Char) : Bool :=
  c.isAlpha || c == '_'

/-- A character that a name goes on with. -/
def isNamePart (c : Char) : Bool :=
  c.isAlphanum || c == '_' || c == '.'

/-- Read a name and the blanks after it. -/
def readName : List Char → Option (String × List Char)
  | [] => none
  | c :: rest =>
      if isNameStart c then
        some (String.ofList (c :: rest.takeWhile isNamePart), Text.trimLeft (rest.dropWhile isNamePart))
      else none

/-- Read what is assigned to, with what stands after the equals sign.  The word `export` may come first. -/
def readTarget (cs : List Char) : Option (String × List Char) := do
  let (name, rest) ← readName cs
  match name, rest with
  | _, '=' :: rest => return (name, Text.trimLeft rest)
  | "export", _ =>
      match ← readName rest with
      | (name, '=' :: rest) => return (name, Text.trimLeft rest)
      | _ => none
  | _, _ => none

/-- Variables with their values. -/
abbrev Variables := List (String × String)

/-- Read a statement: an assignment, or nothing. -/
def readStatement (valueOf : String → String) (statement : List Char) : Option (Option (String × String)) :=
  let statement := Text.trim statement
  if statement.isEmpty || isComment statement then some none
  else
    match readTarget statement with
    | none => none
    | some (name, rest) =>
        if rest.isEmpty || isComment rest then some (some (name, ""))
        else (readValue valueOf rest).map fun value => some (name, value)

/-- Give a variable a value unless it is set. -/
def Variables.add (set : Variables) (name value : String) : Variables :=
  if (set.lookup name).isSome then set else set ++ [(name, value)]

/-- Carry out a statement, in which a variable that is not set has no characters. -/
def assign (set : Variables) (statement : List Char) : Option Variables :=
  (readStatement (fun name => (set.lookup name).getD "") statement).map fun
    | none => set
    | some (name, value) => set.add name value

/-- Carry out statements up to the first fault. -/
def assignAll (set : Variables) : List (Option (List Char)) → Variables
  | some statement :: rest =>
      match assign set statement with
      | some set => assignAll set rest
      | none => set
  | _ => set

/-- Variables after the assignments of a file.  A mark of the byte order may begin the file. -/
def load (set : Variables) (text : String) : Variables :=
  let cs := match text.toList with
    | '\ufeff' :: rest => rest
    | cs => cs
  assignAll set (statements [] .complete (lines cs))

/-- Putting the lines together gives the text back. -/
theorem flatten_lines (cs : List Char) : (lines cs).flatten = cs := by
  induction cs with
  | nil => rfl
  | cons c rest ih =>
      unfold lines
      split
      · simp [ih]
      · split
        · rename_i h
          rw [h] at ih
          simpa using ih
        · rename_i h
          rw [h] at ih
          simpa using ih

theorem lookup_add {set : Variables} {name value : String} (h : set.lookup name = some value)
    (other more : String) : (set.add other more).lookup name = some value := by
  unfold Variables.add
  split
  · exact h
  · simp [List.lookup_append, h]

/-- A variable that is set keeps its value, whatever statements assign to it. -/
theorem lookup_assignAll {set : Variables} {name value : String} (h : set.lookup name = some value)
    (statements : List (Option (List Char))) : (assignAll set statements).lookup name = some value := by
  induction statements generalizing set with
  | nil => exact h
  | cons statement rest ih =>
      cases statement with
      | none => exact h
      | some statement =>
          unfold assignAll
          split
          · rename_i after hafter
            obtain ⟨said, -, rfl⟩ := Option.map_eq_some_iff.1 hafter
            match said with
            | none => exact ih h
            | some (other, more) => exact ih (lookup_add h other more)
          · exact h

/-- The names that values of a file may take in. -/
def mentions : List Char → List String
  | [] => []
  | '$' :: '\x7b' :: rest => String.ofList (rest.takeWhile (· != '\x7d')) :: mentions rest
  | '$' :: rest => String.ofList (rest.takeWhile Text.isAlphanumeric) :: mentions rest
  | _ :: rest => mentions rest

end Assignments

end GraphMapping

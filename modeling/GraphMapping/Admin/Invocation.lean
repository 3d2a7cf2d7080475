/-!
# Invocations

The command line is called with the words of a command and, anywhere among them, the path of a settings
file.  Of several paths the last one counts.
-/

namespace GraphMapping.Admin

/-- What to do. -/
inductive Command where
  /-- Check that every database answers. -/
  | ping
  /-- List constraints and indexes. -/
  | schemaShow
  /-- Drop all constraints and indexes, if it is confirmed. -/
  | schemaDrop (confirmed : Bool)
deriving DecidableEq, Repr

/-- The command that words name. -/
def Command.ofWords : List String → Option Command
  | ["ping"] => some .ping
  | ["schema", "show"] => some .schemaShow
  | ["schema", "drop"] => some (.schemaDrop false)
  | ["schema", "drop", "--yes"] => some (.schemaDrop true)
  | _ => none

/-- A command and the path of the settings file if one is named. -/
structure Invocation where
  path : Option String
  command : Command
deriving DecidableEq, Repr

/-- An argument: the path of a settings file, or a word of the command. -/
inductive Argument where
  | path (text : String)
  | word (text : String)
deriving DecidableEq, Repr

namespace Argument

/-- What follows `mark` in a text that begins with it, if that is something. -/
def after (mark : List Char) (text : List Char) : Option String :=
  if mark.isPrefixOf text && mark.length < text.length then some (String.ofList (text.drop mark.length))
  else none

/-- The path in an option that holds it. -/
def attached (text : String) : Option String :=
  let cs := text.toList
  (after ['-', '-', 'c', 'o', 'n', 'f', 'i', 'g', '='] cs).or
    (if ['-', 'c', '='].isPrefixOf cs then after ['-', 'c', '='] cs else after ['-', 'c'] cs)

/-- Whether a text after an option can be its path: it is not empty, and no option. -/
def isPath (text : String) : Bool :=
  match text.toList with
  | [] => false
  | ['-'] => true
  | c :: _ => c != '-'

/-- Read arguments.  Two dashes at the end say that no more options follow, and nothing else. -/
def readAll : List String → Option (List Argument)
  | [] => some []
  | ["--"] => some []
  | [arg] => some [match attached arg with
      | some file => .path file
      | none => .word arg]
  | arg :: next :: rest =>
      if arg = "-c" ∨ arg = "--config" then
        if isPath next then (readAll rest).map (.path next :: ·) else none
      else
        match attached arg with
        | some file => (readAll (next :: rest)).map (.path file :: ·)
        | none => (readAll (next :: rest)).map (.word arg :: ·)

/-- The path of an argument. -/
def path? : Argument → Option String
  | .path text => some text
  | .word _ => none

/-- The word of an argument. -/
def word? : Argument → Option String
  | .path _ => none
  | .word text => some text

end Argument

/-- Read the arguments of an invocation. -/
def Invocation.ofArgs (args : List String) : Option Invocation := do
  let all ← Argument.readAll args
  let command ← Command.ofWords (all.filterMap (·.word?))
  return ⟨(all.filterMap (·.path?)).getLast?, command⟩

/-- How the command is called. -/
def usage : String :=
  "usage: [--config PATH] (ping | schema show | schema drop [--yes])"

end GraphMapping.Admin

import GraphMapping.Admin
import GraphMapping.Settings.Assignments

/-!
# The administration command

The command takes its settings from the environment, from the assignments in a file `.env` of the current
folder or the nearest one above it, and from a settings file.  It reports on standard output and standard
error.  It has no transport of its own, so that every database it is told to reach counts as unreachable.
-/

namespace GraphMapping.Admin

/-- The number of a fault, which some calls of the system report with its sign changed. -/
def faultNumber (code : UInt32) : Nat :=
  if code.toNat < 1 <<< 31 then code.toNat else (0 - code).toNat

/-- The fault behind a failed reading. -/
def faultOf (e : IO.Error) : FileFault :=
  match e with
  | .noFileOrDirectory .. => .missing
  | .inappropriateType _ code _ | .invalidArgument _ code _ =>
      match faultNumber code with
      | 20 => .notFolder
      | 21 => .folder
      | 36 => .longName
      | _ => .other (toString e)
  | _ => .other (toString e)

/-- The text of a file, or why there is none. -/
def fileText (path : String) : IO (Except FileFault String) := do
  try
    return .ok (← IO.FS.readFile path)
  catch e =>
    return .error (faultOf e)

/-- The values of variables that are set. -/
def valuesOf (names : List String) : IO (List (String × String)) :=
  names.filterMapM fun name => do
    return (← IO.getEnv name).map fun text => (name, text)

/-- The text of the nearest file `.env`, here or in a folder above, empty if there is none. -/
def assignmentsText : IO String := do
  for height in List.range (← IO.currentDir).components.length do
    match ← fileText (String.join (List.replicate height "../") ++ ".env") with
    | .ok text => return text
    | .error _ => continue
  return ""

/-- The variables, with the assignments of a file. -/
def knownVariables : IO Assignments.Variables := do
  let text ← assignmentsText
  let set ← valuesOf (Settings.variableNames ++ Assignments.mentions text.toList)
  return Assignments.load set text

/-- Carry out an invocation and print what it reports. -/
def execute (invocation : Invocation) : IO UInt32 := do
  let path := invocation.path.getD Settings.standardPath
  let file := SettingsFile.ofText (← fileText path)
  let set ← knownVariables
  let settings := Settings.ofSources (fun _ => "") (set.lookup ·) (fun _ => file) invocation.path
  let (outcome, ()) :=
    run settings invocation.command (fun _ => Connection.client Connection.unreachable) ()
  IO.print outcome.output
  IO.eprint outcome.errors
  return outcome.status.toUInt32

end GraphMapping.Admin

/-- Carry out the command that the arguments name; arguments that name none end with status 2. -/
def main (args : List String) : IO UInt32 := do
  match GraphMapping.Admin.Invocation.ofArgs args with
  | some invocation => GraphMapping.Admin.execute invocation
  | none =>
      IO.eprintln GraphMapping.Admin.usage
      return 2

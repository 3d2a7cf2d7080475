import GraphMapping.Settings

/-!
# Reports of failures

A command that fails reports what it could not do and, below it, the causes, outermost first.  Several
causes are numbered, and further lines of a cause are indented as its first one is.
-/

namespace GraphMapping.Admin

/-- A failure and its causes, outermost first. -/
structure Report where
  head : String
  causes : List String
deriving DecidableEq, Repr

namespace Report

/-- The report of an error. -/
def ofError (e : Error) : Report := ⟨e.message, e.causes⟩

/-- The report of an error in a context. -/
def inContext (context : String) (e : Error) : Report := ⟨context, e.message :: e.causes⟩

/-- The report of a fault in the settings. -/
def ofSettings (e : SettingsError) : Report :=
  match e.cause with
  | .error e' => inContext e.context e'
  | cause => ⟨e.context, [cause.message]⟩

/-- A text whose further lines begin with `blanks`. -/
def indented (blanks text : String) : String :=
  ("\n" ++ blanks).intercalate ((Text.split '\n' text.toList).map String.ofList)

/-- A number right-aligned in five columns. -/
def column (n : Nat) : String :=
  let digits := toString n
  String.ofList (List.replicate (5 - digits.length) ' ') ++ digits

/-- The lines of numbered causes. -/
def numbered (n : Nat) : List String → String
  | [] => ""
  | cause :: rest =>
      "\n" ++ column n ++ ": " ++ indented "       " cause ++ numbered (n + 1) rest

/-- The text of a report: the failure, and below it its causes, numbered if there are several. -/
def text (r : Report) : String :=
  "Error: " ++ r.head ++
    (match r.causes with
     | [] => ""
     | [cause] => "\n\nCaused by:\n    " ++ indented "    " cause
     | causes => "\n\nCaused by:" ++ numbered 0 causes) ++ "\n"

end Report

end GraphMapping.Admin

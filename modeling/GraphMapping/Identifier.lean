import GraphMapping.Text.Blank

/-!
# Identifiers in statements

Labels, relationship types and property names come from declarations, so a statement always quotes
them.  A quoted identifier stands between backticks, a backtick inside it is written twice, and
control characters are left out.  Main statement: a reader of quoted identifiers gets the name back
and stops exactly at the end of the quotation, whatever follows that is not a backtick.
-/

namespace GraphMapping.Identifier

/-- The quotation mark of identifiers. -/
def tick : Char := '\x60'

/-- A plain identifier: a letter or an underscore, then letters, digits and underscores (ASCII). -/
def isPlain (s : String) : Bool :=
  match s.toList with
  | [] => false
  | c :: rest => (c.isAlpha || c == '_') && rest.all fun d => d.isAlphanum || d == '_'

/-- Write every backtick twice. -/
def double : List Char → List Char
  | [] => []
  | c :: rest => if c = tick then tick :: tick :: double rest else c :: double rest

/-- Quote a name: control characters are dropped, backticks doubled. -/
def quoteChars (cs : List Char) : List Char :=
  tick :: double (cs.filter (!Text.isControl ·)) ++ [tick]

/-- Quote a name. -/
def quote (name : String) : String :=
  String.ofList (quoteChars name.toList)

/-- The property `name` of the element bound to `subject`. -/
def property (subject name : String) : String :=
  subject ++ "." ++ quote name

/-- Read the inside of a quotation up to the closing backtick; the rest follows it. -/
def readInside : List Char → Option (List Char × List Char)
  | [] => none
  | [c] => if c = tick then some ([], []) else none
  | c :: d :: rest =>
      if c = tick then
        if d = tick then (readInside rest).map fun (name, after) => (tick :: name, after)
        else some ([], d :: rest)
      else (readInside (d :: rest)).map fun (name, after) => (c :: name, after)

/-- Read one quoted identifier from the front of a text. -/
def read : List Char → Option (List Char × List Char)
  | [] => none
  | c :: rest => if c = tick then readInside rest else none

theorem readInside_cons {c : Char} (h : c ≠ tick) (rest : List Char) :
    readInside (c :: rest) = (readInside rest).map fun (name, after) => (c :: name, after) := by
  cases rest with
  | nil => simp [readInside, h]
  | cons d rest => simp [readInside, h]

theorem readInside_double (cs rest : List Char) (h : rest.head? ≠ some tick) :
    readInside (double cs ++ tick :: rest) = some (cs, rest) := by
  induction cs with
  | nil =>
      cases rest with
      | nil => simp [double, readInside]
      | cons d rest =>
          have hd : d ≠ tick := by simpa using h
          simp [double, readInside, hd]
  | cons c cs ih =>
      by_cases hc : c = tick
      · subst hc
        simp only [double, if_true, List.cons_append]
        rw [show tick :: tick :: (double cs ++ tick :: rest) =
          tick :: tick :: (double cs ++ tick :: rest) from rfl]
        simp [readInside, ih]
      · simp only [double, if_neg hc, List.cons_append]
        rw [readInside_cons hc, ih]
        rfl

/-- A quoted name reads back without its control characters, and nothing of what follows is read. -/
theorem read_quoteChars (cs rest : List Char) (h : rest.head? ≠ some tick) :
    read (quoteChars cs ++ rest) = some (cs.filter (!Text.isControl ·), rest) := by
  simp [quoteChars, read, readInside_double _ _ h]

end GraphMapping.Identifier

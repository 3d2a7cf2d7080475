import GraphMapping.Text.Digits
import GraphMapping.Yaml.Fault
import GraphMapping.Yaml.Scalar.Gap

/-!
# Quoted scalars

A quotation ends at the mark with which it begins.  Within single marks a doubled mark stands for one;
within double marks a backslash begins an escape.
-/

namespace GraphMapping.Yaml

/-- The character that an escape of one letter stands for. -/
def escaped? : Char → Option Char
  | '0' => some '\x00'
  | 'a' => some '\x07'
  | 'b' => some '\x08'
  | 't' | '\t' => some '\t'
  | 'n' => some '\n'
  | 'v' => some '\x0b'
  | 'f' => some '\x0c'
  | 'r' => some '\r'
  | 'e' => some '\x1b'
  | ' ' => some ' '
  | '"' => some '"'
  | '/' => some '/'
  | '\\' => some '\\'
  | 'N' => some '\x85'
  | '_' => some '\xa0'
  | 'L' => some (Char.ofNat 0x2028)
  | 'P' => some (Char.ofNat 0x2029)
  | _ => none

/-- The number of digits of an escape that gives a code point. -/
def codeWidth? : Char → Option Nat
  | 'x' => some 2
  | 'u' => some 4
  | 'U' => some 8
  | _ => none

/-- A quotation as far as it is read. -/
structure Quotation where
  mark : Char
  start : Position
  gap : Gap
  /-- The text before the gap, in reverse. -/
  taken : List Char
deriving DecidableEq, Repr

namespace Quotation

/-- The text with one more character. -/
def push (q : Quotation) (c : Char) : Quotation :=
  { q with gap := .empty, taken := c :: q.gap.kept ++ q.taken }

/-- The text with a line end that does not count. -/
def joinLines (q : Quotation) : Quotation :=
  { q with gap := .lines none [], taken := q.gap.kept ++ q.taken }

/-- The text. -/
def text (q : Quotation) : String :=
  String.ofList (q.gap.kept ++ q.taken).reverse

/-- A fault that shows within the quotation. -/
def fault (q : Quotation) (activity : Activity) (problem : Problem) (place : Position) : Fault :=
  .during activity q.start problem place

/-- Read on to the end of the quotation. -/
def read (q : Quotation) (place : Position) : List Char → Except Fault (String × Cursor)
  | [] => .error (q.fault .quoted .unclosed place)
  | c :: rest =>
      if isDivider place (c :: rest) then .error (q.fault .quoted .divider place)
      else if isSpace c then read { q with gap := q.gap.space c } (place.after c) rest
      else if isBreak c then read { q with gap := q.gap.lineEnd c } (place.after c) rest
      else if c = q.mark then
        match rest with
        | d :: more =>
            if c = '\'' ∧ d = c then read (q.push c) ((place.after c).after d) more
            else .ok (q.text, ⟨place.after c, d :: more⟩)
        | [] => .ok (q.text, ⟨place.after c, []⟩)
      else if c = '\\' ∧ q.mark = '"' then
        match rest with
        | [] => .error (q.fault .quotedEscape .escape place)
        | d :: more =>
            let inner := (place.after c).after d
            if isBreak d then read q.joinLines inner more
            else
              match codeWidth? d, escaped? d with
              | some width, _ =>
                  let digits := more.take width
                  match if digits.length = width then Text.numberIn? 16 digits else none with
                  | none => .error (q.fault .quotedEscape .hexadecimal inner)
                  | some code =>
                      if code.isValidChar then
                        read (q.push (Char.ofNat code)) (inner.afterAll digits) (more.drop width)
                      else .error (q.fault .quotedEscape .codePoint inner)
              | none, some e => read (q.push e) inner more
              | none, none => .error (q.fault .quotedEscape .escape place)
      else read (q.push c) (place.after c) rest
termination_by cs => cs.length
decreasing_by all_goals (simp only [List.length_cons, List.length_drop]; omega)

end Quotation

/-- Read a quotation, which begins with a mark. -/
def readQuoted (mark : Char) (start : Position) (rest : List Char) : Except Fault (String × Cursor) :=
  Quotation.read ⟨mark, start, .empty, []⟩ (start.after mark) rest

end GraphMapping.Yaml

/-!
# Blanks, cuts and words

Declarations and settings are free text.  Blanks are the characters that Unicode calls white space;
texts are trimmed, cut at a separator, and read word by word.
-/

namespace GraphMapping.Text

/-- A character of Unicode's property White_Space. -/
def isBlank (c : Char) : Bool :=
  let n := c.toNat
  (9 ≤ n && n ≤ 13) || n == 0x20 || n == 0x85 || n == 0xA0 || n == 0x1680 ||
    (0x2000 ≤ n && n ≤ 0x200A) || n == 0x2028 || n == 0x2029 || n == 0x202F ||
    n == 0x205F || n == 0x3000

/-- A control character: the C0 range, the delete character and the C1 range. -/
def isControl (c : Char) : Bool :=
  let n := c.toNat
  n ≤ 0x1F || (0x7F ≤ n && n ≤ 0x9F)

/-- Remove the blanks before the first other character. -/
def trimLeft (cs : List Char) : List Char :=
  cs.dropWhile isBlank

/-- Remove the blanks on both sides. -/
def trim (cs : List Char) : List Char :=
  (trimLeft (trimLeft cs).reverse).reverse

/-- The pieces between the characters satisfying `p`; there is always one piece. -/
def splitWhere (p : Char → Bool) : List Char → List (List Char)
  | [] => [[]]
  | c :: rest =>
      if p c then [] :: splitWhere p rest
      else
        match splitWhere p rest with
        | [] => [[c]]
        | piece :: pieces => (c :: piece) :: pieces

/-- The pieces between the occurrences of `sep`. -/
def split (sep : Char) (cs : List Char) : List (List Char) :=
  splitWhere (· == sep) cs

/-- The text before and the text after the first `sep`. -/
def cut (sep : Char) : List Char → Option (List Char × List Char)
  | [] => none
  | c :: rest =>
      if c == sep then some ([], rest)
      else (cut sep rest).map fun (before, after) => (c :: before, after)

/-- The maximal runs of characters that are not blank. -/
def words (cs : List Char) : List (List Char) :=
  (splitWhere isBlank cs).filter (!·.isEmpty)

/-- Lower case for the ASCII letters; all other characters stay. -/
def lower (cs : List Char) : List Char :=
  cs.map Char.toLower

/-- Whether `needle` stands somewhere in the text. -/
def occursIn (needle : List Char) : List Char → Bool
  | [] => needle.isEmpty
  | c :: rest => needle.isPrefixOf (c :: rest) || occursIn needle rest

theorem splitWhere_ne_nil (p : Char → Bool) (cs : List Char) : splitWhere p cs ≠ [] := by
  induction cs with
  | nil => simp [splitWhere]
  | cons c rest ih =>
      unfold splitWhere
      split
      · simp
      · split <;> simp

end GraphMapping.Text

import GraphMapping.Value

/-!
# JSON trees

Rows arrive from a connection, and settings from a file, as JSON trees.  A number is a natural number,
a negative integer or a floating-point value; a property value made from a tree keeps integers as far
as 64 signed bits hold them.
-/

namespace GraphMapping

/-- A JSON tree. -/
inductive Json where
  | null
  | bool (b : Bool)
  | natural (n : UInt64)
  | negative (n : Int64)
  | float (x : Binary64)
  | string (s : String)
  | array (items : List Json)
  | object (members : List (String × Json))
deriving Inhabited

namespace Value

/-- The value of an unsigned number: an integer if it fits, else the nearest floating-point value. -/
def ofNatural (n : UInt64) : Value :=
  if n.toNat < 1 <<< 63 then .int (Int64.ofNat n.toNat) else .float (Binary64.ofNat n.toNat)

mutual

/-- The property value of a JSON tree. -/
def ofJson : Json → Value
  | .null => .null
  | .bool b => .bool b
  | .natural n => ofNatural n
  | .negative n => .int n
  | .float x => .float x
  | .string s => .string s
  | .array items => .list (ofJsonItems items)
  | .object members => .map (Dict.ofList (ofJsonMembers members))

/-- The property values of array items. -/
def ofJsonItems : List Json → List Value
  | [] => []
  | j :: rest => ofJson j :: ofJsonItems rest

/-- The property values of object members. -/
def ofJsonMembers : List (String × Json) → List (String × Value)
  | [] => []
  | (k, j) :: rest => (k, ofJson j) :: ofJsonMembers rest

end

end Value

end GraphMapping

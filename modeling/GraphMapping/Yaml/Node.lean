import GraphMapping.Yaml.Token

/-!
# Trees

A document is a tree of scalars, lists and members.  Every node knows its place in the text, so that a
complaint about it can name the place; where a text cannot be read any further, the tree ends in the
fault.
-/

namespace GraphMapping.Yaml

/-- What is said of a node before its content: where it begins, the number of its anchor, and its tag. -/
structure Label where
  place : Position
  anchor : Option Nat
  tag : Option String
deriving DecidableEq, Repr

/-- A tree.  Keys of members are trees, too.  A reference stands for the node with an anchor. -/
inductive Node where
  | scalar (label : Label) (style : Style) (text : String)
  | list (label : Label) (items : List Node)
  | members (label : Label) (entries : List (Node × Node))
  | reference (place : Position) (anchor : Nat)
  | fault (f : Fault)
deriving Inhabited

namespace Node

/-- A scalar that stands for no character. -/
def empty (place : Position) : Node :=
  .scalar ⟨place, none, none⟩ .plain ""

/-- Whether a node is a scalar without any character and any mark. -/
def isEmpty : Node → Bool
  | .scalar _ .plain "" => true
  | _ => false

mutual

/-- The fault in which a tree ends, if it does. -/
def fault? : Node → Option Fault
  | .fault f => some f
  | .list _ items => faultAmong? items
  | .members _ entries => faultWithin? entries
  | .scalar .. | .reference .. => none

/-- The fault in which the items of a list end. -/
def faultAmong? : List Node → Option Fault
  | [] => none
  | node :: rest => (fault? node).or (faultAmong? rest)

/-- The fault in which members end. -/
def faultWithin? : List (Node × Node) → Option Fault
  | [] => none
  | (key, value) :: rest => ((fault? key).or (fault? value)).or (faultWithin? rest)

end

mutual

/-- The node of a tree with an anchor.  Of several nodes with the same number the last one counts. -/
def find? (anchor : Nat) : Node → Option Node
  | .scalar label style text =>
      if label.anchor = some anchor then some (.scalar label style text) else none
  | .list label items =>
      (findAmong? anchor items).or
        (if label.anchor = some anchor then some (.list label items) else none)
  | .members label entries =>
      (findWithin? anchor entries).or
        (if label.anchor = some anchor then some (.members label entries) else none)
  | .reference .. | .fault _ => none

/-- The node with an anchor among the items of a list. -/
def findAmong? (anchor : Nat) : List Node → Option Node
  | [] => none
  | node :: rest => (findAmong? anchor rest).or (find? anchor node)

/-- The node with an anchor within members. -/
def findWithin? (anchor : Nat) : List (Node × Node) → Option Node
  | [] => none
  | (key, value) :: rest =>
      (findWithin? anchor rest).or ((find? anchor value).or (find? anchor key))

end

/-- The node of a tree that a reference in it stands for; any other node stands for itself. -/
def resolve (node root : Node) : Node :=
  match node with
  | .reference place anchor => (root.find? anchor).getD (.empty place)
  | node => node

end Node

/-- A document: its tree, and what is wrong with the text after it. -/
structure Document where
  root : Node
  after : Option Fault

end GraphMapping.Yaml

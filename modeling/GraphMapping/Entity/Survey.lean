import GraphMapping.Entity.Declared

/-!
# Surveys of object graphs

A survey lists the objects that can be reached from some roots, each once and breadth first: the roots,
then what the first object refers to, and so on.
-/

namespace GraphMapping

/-- Add the references that are not in the list yet, each once. -/
def addNew (known : List Ref) : List Ref → List Ref
  | [] => known
  | r :: rest => if known.contains r then addNew known rest else addNew (known ++ [r]) rest

/-- Go on with a survey: `done` is surveyed, `waiting` is met, and where nothing waits the first object of
`more` not met yet is taken. -/
def surveyFrom (next : Ref → List Ref) : Nat → List Ref → List Ref → List Ref → List Ref
  | 0, done, waiting, _ => done ++ waiting
  | steps + 1, done, [], more =>
      match more.dropWhile done.contains with
      | [] => done
      | r :: more => surveyFrom next steps done [r] more
  | steps + 1, done, r :: waiting, more =>
      -- What is met for the first time waits at the end, after everything met before.
      let met := addNew (done ++ r :: waiting) (next r)
      surveyFrom next steps (done ++ [r]) (met.drop (done.length + 1)) more

namespace DeclaredObject

/-- The values of the fields that hold one, in the order of their declarations. -/
def fieldValues (o : DeclaredObject) : List (String × Value) :=
  o.type.fields.filterMap fun f => (o.read f.decl.name).map fun v => (f.decl.name, v)

/-- The relationship fields in the order of their declarations, each with what it refers to. -/
def relationships (o : DeclaredObject) : List (String × List Ref) :=
  o.type.fields.filterMap fun f =>
    f.content.targets?.map fun _ => (f.decl.name, o.related f.decl.name)

/-- What an object refers to: through its relationship fields, then by its ends. -/
def references (o : DeclaredObject) : List Ref :=
  o.relationships.flatMap (·.2) ++
    match o.shownEnds with
    | none => []
    | some ends => ends.start.toList ++ ends.finish.toList

end DeclaredObject

/-- Follow a path from an object: the word `start` or `end`, or a relationship field and the position of
one of the objects it refers to. -/
def Heap.follow (h : Heap DeclaredObject) (r : Ref) : List String → Option Ref
  | [] => some r
  | "start" :: rest => (h.stateOf r).ends.start.bind fun q => h.follow q rest
  | "end" :: rest => (h.stateOf r).ends.finish.bind fun q => h.follow q rest
  | field :: position :: rest =>
      (position.toNat?.bind (((h.stateOf r).related field)[·]?)).bind fun q => h.follow q rest
  | [_] => none

/-- Survey the objects of declared types from `roots`, and then from `more` in turn. -/
def Heap.survey (h : Heap DeclaredObject) (roots more : List Ref) : List Ref :=
  surveyFrom (fun r => (h.stateOf r).references) (2 * h.size + more.length + 1) []
    (addNew [] roots) more

end GraphMapping

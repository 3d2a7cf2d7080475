import GraphMapping.Proofs.Walk.Ball
import Mathlib.Data.List.Induction

/-!
# Which plain relationships are planned

Of all plain relationships that a walk asks for it plans the first one of each mark, and a relationship
without direction shares its mark with a directed one between the same keys.  No relationship is lost
altogether, but a field's direction is: exactly if its relationship goes by the mark of an undirected
one that was asked for first.  Whether two relationships share a mark depends on how their keys compare.
-/

namespace GraphMapping

namespace Walker

open Walk WalkState

/-! ## Marks -/

theorem edgeMark_label (e : PlannedEdge) : (edgeMark e).1 = e.label := by
  unfold edgeMark
  split <;> rfl

theorem edgeMark_of_directed {e : PlannedEdge} (h : e.undirected = false) :
    edgeMark e = (e.label, e.start, e.finish) := by
  unfold edgeMark
  rw [h]
  exact if_neg fun hBoth => Bool.false_ne_true hBoth.1

/-- The marked keys are those of the ends, in ascending order where there is no direction. -/
theorem edgeMark_cases (e : PlannedEdge) :
    edgeMark e = (e.label, e.start, e.finish) ∨
      (edgeMark e = (e.label, e.finish, e.start) ∧ e.undirected = true ∧ e.finish < e.start) := by
  by_cases hTurned : e.undirected = true ∧ e.finish < e.start
  · exact .inr ⟨if_pos hTurned, hTurned⟩
  · exact .inl (if_neg hTurned)

/-- Relationships with one mark have the same type and the same ends, in some order. -/
theorem ends_of_edgeMark_eq {e e' : PlannedEdge} (h : edgeMark e = edgeMark e') :
    e.label = e'.label ∧ ((e.start = e'.start ∧ e.finish = e'.finish) ∨
      (e.start = e'.finish ∧ e.finish = e'.start)) := by
  refine ⟨?_, ?_⟩
  · rw [← edgeMark_label e, ← edgeMark_label e', h]
  · rcases edgeMark_cases e with hHere | ⟨hHere, -, -⟩ <;>
      rcases edgeMark_cases e' with hThere | ⟨hThere, -, -⟩ <;>
      rw [hHere, hThere, Prod.mk.injEq, Prod.mk.injEq] at h
    · exact .inl h.2
    · exact .inr h.2
    · exact .inr ⟨h.2.2, h.2.1⟩
    · exact .inl ⟨h.2.2, h.2.1⟩

/-- Two relationships without direction have one mark whichever of their ends comes first. -/
theorem edgeMark_of_turned {e e' : PlannedEdge} (hLabel : e.label = e'.label)
    (hHere : e.undirected = true) (hThere : e'.undirected = true) (hStart : e.start = e'.finish)
    (hFinish : e.finish = e'.start) : edgeMark e = edgeMark e' := by
  unfold edgeMark
  rw [hHere, hThere, hLabel, hStart, hFinish]
  simp only [true_and]
  split
  · rename_i hLess
    rw [if_neg fun hMore => String.lt_asymm hLess hMore]
  · rename_i hNot
    split
    · rfl
    · rename_i hNot'
      have hSame : e'.start = e'.finish := String.le_antisymm hNot' hNot
      rw [hSame]

/-- A relationship with the same type and the same ends as a directed one, but without direction, has
its mark unless the keys of its ends compare the other way. -/
theorem edgeMark_eq_of_not_lt {e e' : PlannedEdge} (hDirected : e.undirected = false)
    (hUndirected : e'.undirected = true) (h : edgeMark e' = edgeMark e) : ¬ e.finish < e.start := by
  intro hLess
  rw [edgeMark_of_directed hDirected] at h
  unfold edgeMark at h
  rw [hUndirected] at h
  split at h
  · rename_i hTurned
    obtain ⟨-, hEnds⟩ := Prod.mk.inj h
    obtain ⟨hStart, hFinish⟩ := Prod.mk.inj hEnds
    rw [← hStart, ← hFinish] at hLess
    exact String.lt_asymm hLess hTurned.2
  · rename_i hStraight
    obtain ⟨-, hEnds⟩ := Prod.mk.inj h
    obtain ⟨hStart, hFinish⟩ := Prod.mk.inj hEnds
    rw [← hStart, ← hFinish] at hLess
    exact hStraight ⟨rfl, hLess⟩

/-! ## The first relationship of each mark -/

/-- The first relationship of each mark. -/
def firsts (es : List PlannedEdge) : List PlannedEdge :=
  es.foldl (fun kept e => if edgeMark e ∈ kept.map edgeMark then kept else kept ++ [e]) []

/-- The first relationship with a mark. -/
def firstWith (mark : String × String × String) (es : List PlannedEdge) : Option PlannedEdge :=
  es.find? fun e => edgeMark e = mark

theorem firsts_concat (es : List PlannedEdge) (e : PlannedEdge) :
    firsts (es ++ [e]) =
      if edgeMark e ∈ (firsts es).map edgeMark then firsts es else firsts es ++ [e] := by
  unfold firsts
  rw [List.foldl_append]
  rfl

theorem mark_mem_firsts_iff (es : List PlannedEdge) (mark : String × String × String) :
    mark ∈ (firsts es).map edgeMark ↔ mark ∈ es.map edgeMark := by
  induction es using List.reverseRecOn with
  | nil => exact Iff.rfl
  | append_singleton es e ih =>
      rw [firsts_concat, List.map_append, List.mem_append, ← ih, List.map_singleton,
        List.mem_singleton]
      split
      · rename_i hKnown
        constructor
        · exact .inl
        · rintro (h | rfl)
          · exact h
          · exact hKnown
      · rw [List.map_append, List.mem_append, List.map_singleton, List.mem_singleton]

theorem firsts_nodup (es : List PlannedEdge) : ((firsts es).map edgeMark).Nodup := by
  induction es using List.reverseRecOn with
  | nil => exact List.nodup_nil
  | append_singleton es e ih =>
      rw [firsts_concat]
      split
      · exact ih
      · rename_i hNew
        rw [List.map_append, List.map_singleton]
        refine List.nodup_append.2 ⟨ih, List.nodup_singleton _, fun mark hOld mark' hMark hEq => ?_⟩
        rw [hEq, List.mem_singleton.1 hMark] at hOld
        exact hNew hOld

theorem mem_firsts_iff (es : List PlannedEdge) (e : PlannedEdge) :
    e ∈ firsts es ↔ firstWith (edgeMark e) es = some e := by
  induction es using List.reverseRecOn with
  | nil =>
      constructor
      · intro h
        cases h
      · intro h
        cases h
  | append_singleton es a ih =>
      have hFind : firstWith (edgeMark e) (es ++ [a]) = (firstWith (edgeMark e) es).or
          (if edgeMark a = edgeMark e then some a else none) := by
        unfold firstWith
        rw [List.find?_append, List.find?_singleton]
        simp only [decide_eq_true_eq]
      have hKnown : edgeMark e ∈ (firsts es).map edgeMark ↔ (firstWith (edgeMark e) es).isSome := by
        rw [mark_mem_firsts_iff]
        unfold firstWith
        rw [List.find?_isSome]
        simp only [List.mem_map, decide_eq_true_eq]
      rw [firsts_concat, hFind]
      by_cases hSame : edgeMark a = edgeMark e
      · rw [if_pos hSame, hSame]
        by_cases hOld : edgeMark e ∈ (firsts es).map edgeMark
        · obtain ⟨first, hFirst⟩ := Option.isSome_iff_exists.1 (hKnown.1 hOld)
          rw [if_pos hOld, ih, hFirst, Option.some_or]
        · have hNone : firstWith (edgeMark e) es = none :=
            Option.not_isSome_iff_eq_none.1 fun h => hOld (hKnown.2 h)
          rw [if_neg hOld, hNone, Option.none_or, List.mem_append, List.mem_singleton,
            Option.some.injEq]
          constructor
          · rintro (h | rfl)
            · exact absurd (List.mem_map_of_mem h) hOld
            · rfl
          · rintro rfl
            exact .inr rfl
      · rw [if_neg hSame, Option.or_none, ← ih]
        split
        · exact Iff.rfl
        · rw [List.mem_append, List.mem_singleton]
          constructor
          · rintro (h | rfl)
            · exact h
            · exact absurd rfl hSame
          · exact .inl

/-! ## What the moves of a walk ask for -/

variable {σ : Type} (w : Walker σ)

/-- The plain relationship that a move asks for: that of a followed reference to a node. -/
def asked (keyOf : Ref → String) : Move → Option PlannedEdge
  | .enter _ => none
  | .follow owner role target =>
      match w.descriptor target with
      | .error _ => none
      | .ok d => if d.isObject then none else some (plainEdge role (keyOf owner) (keyOf target))

/-- What is recorded of plain relationships after some moves, told by what the moves asked for. -/
structure PlainRecords (keyOf : Ref → String) (moves : List Move) (s : WalkState) : Prop where
  planned : (s.plan.allEdges.filter fun e => !e.object).Perm
    (firsts (moves.filterMap (w.asked keyOf)))
  marks : ∀ mark, mark ∈ s.edgesSeen ↔ mark ∈ (moves.filterMap (w.asked keyOf)).map edgeMark

variable {w} {keyOf : Ref → String} {moves : List Move} {m : Move} {s t : WalkState}

theorem asked_of_node {owner target : Ref} {role : RelationshipRole} {d : TypeDescriptor}
    (h : w.NodeAs target d) : w.asked keyOf (.follow owner role target) =
      some (plainEdge role (keyOf owner) (keyOf target)) := by
  simp only [asked, h.1, h.2, Bool.false_eq_true, if_false]

theorem asked_of_object {owner target start finish : Ref} {role : RelationshipRole}
    {d : TypeDescriptor} (h : w.ObjectAs target d start finish) :
    w.asked keyOf (.follow owner role target) = none := by
  simp only [asked, h.1, h.2.1, if_true]

theorem asked_eq_some {e : PlannedEdge} (h : w.asked keyOf m = some e) :
    ∃ owner role target d, m = .follow owner role target ∧ w.NodeAs target d ∧
      e = plainEdge role (keyOf owner) (keyOf target) := by
  cases m with
  | enter r => cases h
  | follow owner role target =>
      unfold asked at h
      cases hType : w.descriptor target with
      | error err =>
          simp only [hType] at h
          cases h
      | ok d =>
          simp only [hType] at h
          split at h
          · cases h
          · rename_i hNode
            cases h
            exact ⟨owner, role, target, d, rfl, ⟨hType, eq_false_of_ne_true hNode⟩, rfl⟩

theorem PlainRecords.of_same (h : w.PlainRecords keyOf moves s) (hAsked : w.asked keyOf m = none)
    (hPlain : (t.plan.allEdges.filter fun e => !e.object).Perm
      (s.plan.allEdges.filter fun e => !e.object)) (hSeen : t.edgesSeen = s.edgesSeen) :
    w.PlainRecords keyOf (moves ++ [m]) t := by
  have hSame : (moves ++ [m]).filterMap (w.asked keyOf) = moves.filterMap (w.asked keyOf) := by
    rw [List.filterMap_append, List.filterMap_cons_none hAsked, List.filterMap_nil, List.append_nil]
  refine ⟨?_, ?_⟩
  · rw [hSame]
    exact hPlain.trans h.planned
  · rw [hSame, hSeen]
    exact h.marks

/-- A plain relationship is planned if it is the first that was asked for with its mark. -/
theorem PlainRecords.follow_plain {owner target : Ref} {role : RelationshipRole} {d : TypeDescriptor}
    (hEdgeRecords : w.EdgeRecords keyOf moves s) (h : w.PlainRecords keyOf moves s)
    (hMove : w.Moves keyOf (.follow owner role target) s t) (hNode : w.NodeAs target d) :
    w.PlainRecords keyOf (moves ++ [.follow owner role target]) t := by
  obtain ⟨u, hSame, -, -, hRecord⟩ := hMove.plain_cases hNode
  have hAsked : (moves ++ [Move.follow owner role target]).filterMap (w.asked keyOf) =
      moves.filterMap (w.asked keyOf) ++ [plainEdge role (keyOf owner) (keyOf target)] := by
    rw [List.filterMap_append, List.filterMap_cons_some (asked_of_node hNode), List.filterMap_nil]
  have hKnown : edgeMark (plainEdge role (keyOf owner) (keyOf target)) ∈
      (firsts (moves.filterMap (w.asked keyOf))).map edgeMark ↔
      edgeMark (plainEdge role (keyOf owner) (keyOf target)) ∈ s.edgesSeen := by
    rw [mark_mem_firsts_iff, h.marks]
  obtain ⟨hSeen, rfl⟩ | ⟨hNew, rfl⟩ := recordEdge_iff.1 hRecord
  · rw [hSame.edgesSeen] at hSeen
    refine ⟨?_, ?_⟩
    · rw [hAsked, firsts_concat, if_pos (hKnown.2 hSeen), Plan.allEdges_eq, hSame.edges,
        ← Plan.allEdges_eq]
      exact h.planned
    · intro mark
      rw [hAsked, List.map_append, List.mem_append, List.map_singleton, List.mem_singleton, ← h.marks,
        hSame.edgesSeen]
      constructor
      · exact .inl
      · rintro (hOld | rfl)
        · exact hOld
        · exact hSeen
  · rw [hSame.edgesSeen] at hNew
    have hSorted : Dict.Sorted u.plan.edges := by
      rw [hSame.edges]
      exact hEdgeRecords.groups.sorted
    refine ⟨?_, ?_⟩
    · have hPerm : ((Dict.members (u.plan.edges.push role.label
          (plainEdge role (keyOf owner) (keyOf target)))).filter fun e => !e.object).Perm _ :=
        Dict.filter_members_push_of_pos hSorted rfl
      rw [hAsked, firsts_concat, if_neg fun hOld => hNew (hKnown.1 hOld)]
      refine hPerm.trans ?_
      rw [hSame.edges]
      exact h.planned.append_right _
    · intro mark
      rw [hAsked, List.map_append, List.mem_append, List.map_singleton, List.mem_singleton, ← h.marks,
        ← hSame.edgesSeen]
      change mark ∈ edgeMark _ :: u.edgesSeen ↔ _
      rw [List.mem_cons, or_comm]

theorem PlainRecords.step (hEdgeRecords : w.EdgeRecords keyOf moves s)
    (h : w.PlainRecords keyOf moves s) (hMove : w.Moves keyOf m s t) :
    w.PlainRecords keyOf (moves ++ [m]) t := by
  cases m with
  | enter r =>
      obtain ⟨-, hEdges, hSeen, -⟩ := hMove.enter_keeps
      refine h.of_same rfl ?_ hSeen
      rw [Plan.allEdges_eq, Plan.allEdges_eq, hEdges]
  | follow owner role target =>
      obtain ⟨d, hNode⟩ | ⟨d, start, finish, hObject⟩ := hMove.target_cases
      · exact h.follow_plain hEdgeRecords hMove hNode
      · obtain ⟨u, other, hSame, -, -, -, -, hRecord⟩ := hMove.object_cases hObject
        have hSeen : t.edgesSeen = s.edgesSeen :=
          (recordObject_keeps hRecord).2.2.2.trans hSame.edgesSeen
        refine h.of_same (asked_of_object hObject) ?_ hSeen
        obtain ⟨-, rfl⟩ | ⟨key, params, v, -, hKey, -, rfl⟩ := recordObject_iff.1 hRecord
        · rw [Plan.allEdges_eq, Plan.allEdges_eq, hSame.edges]
        · have hEdges : v.plan.edges = s.plan.edges :=
            (objectKey_sameRecords hKey).1.edges.trans hSame.edges
          have hSorted : Dict.Sorted v.plan.edges := by
            rw [hEdges]
            exact hEdgeRecords.groups.sorted
          -- The pushed relationship is an object's, so that the filter drops it.
          have hPerm : ((Dict.members (v.plan.edges.push role.label
              ⟨keyOf start, keyOf finish, role.label, false, true, key, params⟩)).filter
                fun e => !e.object).Perm _ :=
            Dict.filter_members_push_of_neg hSorted rfl
          exact hPerm.trans (by rw [hEdges, Plan.allEdges_eq])

/-- Of the plain relationships that a walk asks for the first one of each mark is recorded. -/
theorem PlainRecords.of_takes {taken : Nat} (h : w.Takes keyOf moves (.start taken) t) :
    w.PlainRecords keyOf moves t := by
  have hStart : w.PlainRecords keyOf [] (.start taken) := by
    refine ⟨.nil, fun mark => ?_⟩
    exact Iff.rfl
  have hAll := h.invariant (P := fun ms s => w.Recorded keyOf ms s ∧ w.PlainRecords keyOf ms s)
    (fun ms m s t hs hMove => ⟨hs.1.step hMove, hs.2.step hs.1.edges hMove⟩)
    ⟨Recorded.start w keyOf taken, hStart⟩
  exact hAll.2

/-! ## Directions -/

/-- A relationship connects the nodes with two keys, one way or the other. -/
def Connects (e : PlannedEdge) (a b : String) : Prop :=
  (e.start = a ∧ e.finish = b) ∨ (e.start = b ∧ e.finish = a)

/-- A relationship is one that a field declares between its owner and a target. -/
def Honours (direction : Direction) (ownerKey targetKey : String) (e : PlannedEdge) : Prop :=
  match direction with
  | .both => Connects e ownerKey targetKey
  | _ => e.undirected = false ∧ (e.start, e.finish) = oriented direction ownerKey targetKey

/-- A relationship has a direction, but the walk asked first for one without under its mark. -/
def Overruled (w : Walker σ) (root : Ref) (depth taken : Nat) (e : PlannedEdge) : Prop :=
  e.undirected = false ∧ ∃ first, first.undirected = true ∧
    firstWith (edgeMark e) ((w.trail (w.givenKey root depth taken) depth root none).filterMap
      (w.asked (w.givenKey root depth taken))) = some first

/-- An undirected field, of a node nearer than the depth, refers from one of two nodes to the other. -/
def Contested (w : Walker σ) (root : Ref) (depth : Nat) (label : String) (a b : Ref) : Prop :=
  ∃ n owner role target, n < depth ∧ w.Reaches root n owner ∧
    (role, target) ∈ w.referencesOf owner ∧ role.label = label ∧ role.direction = .both ∧
    ((owner = a ∧ target = b) ∨ (owner = b ∧ target = a))

variable {root owner target : Ref} {depth taken : Nat} {p : Plan} {role : RelationshipRole}
  {d : TypeDescriptor} {e : PlannedEdge} {ownerKey targetKey : String}

theorem honours_directed_iff {direction : Direction} (hDirected : direction ≠ .both) :
    Honours direction ownerKey targetKey e ↔
      e.undirected = false ∧ (e.start, e.finish) = oriented direction ownerKey targetKey := by
  cases direction with
  | both => exact absurd rfl hDirected
  | outgoing => exact Iff.rfl
  | incoming => exact Iff.rfl

theorem plainEdge_connects (role : RelationshipRole) (ownerKey targetKey : String) :
    Connects (plainEdge role ownerKey targetKey) ownerKey targetKey := by
  have hEnds := plainEdge_ends role ownerKey targetKey
  obtain ⟨hStart, hFinish⟩ := Prod.mk.inj hEnds
  unfold Connects
  rw [hStart, hFinish]
  cases role.direction <;> first | exact .inl ⟨rfl, rfl⟩ | exact .inr ⟨rfl, rfl⟩

theorem plainEdge_undirected (role : RelationshipRole) (ownerKey targetKey : String) :
    (plainEdge role ownerKey targetKey).undirected = true ↔ role.direction = .both := by
  change (role.direction == .both) = true ↔ role.direction = .both
  exact beq_iff_eq

theorem Connects.of_mark {e' : PlannedEdge} {a b : String} (h : Connects e a b)
    (hMark : edgeMark e' = edgeMark e) : Connects e' a b := by
  obtain ⟨-, ⟨hStart, hFinish⟩ | ⟨hStart, hFinish⟩⟩ := ends_of_edgeMark_eq hMark
  · unfold Connects
    rw [hStart, hFinish]
    exact h
  · unfold Connects
    rw [hStart, hFinish]
    exact h.symm.imp And.symm And.symm

theorem Connects.same {a b c d : String} (h : Connects e a b) (h' : Connects e c d) :
    (c = a ∧ d = b) ∨ (c = b ∧ d = a) := by
  rcases h with ⟨rfl, rfl⟩ | ⟨rfl, rfl⟩ <;> rcases h' with ⟨rfl, rfl⟩ | ⟨rfl, rfl⟩
  · exact .inl ⟨rfl, rfl⟩
  · exact .inr ⟨rfl, rfl⟩
  · exact .inr ⟨rfl, rfl⟩
  · exact .inl ⟨rfl, rfl⟩

/-- A plain relationship is known by its type, its ends and whether it has a direction. -/
theorem eq_plainEdge {role' : RelationshipRole} {a b : String} (hEdge : e = plainEdge role' a b)
    (hLabel : e.label = role.label) (hUndirected : e.undirected = (role.direction == .both))
    (hEnds : (e.start, e.finish) = oriented role.direction ownerKey targetKey) :
    e = plainEdge role ownerKey targetKey := by
  have hOwn := plainEdge_ends role ownerKey targetKey
  rw [← hEnds] at hOwn
  obtain ⟨hStart, hFinish⟩ := Prod.mk.inj hOwn
  have hSame : e = ⟨e.start, e.finish, e.label, e.undirected, false, none, []⟩ := by
    rw [hEdge]
    rfl
  rw [hSame, ← hStart, ← hFinish, hLabel, hUndirected]
  rfl

section

variable {s : WalkState} (hFinished : w.Finished root depth taken p s)
  (hPlain : w.PlainRecords (w.givenKey root depth taken)
    (w.trail (w.givenKey root depth taken) depth root none) s)

include hFinished

theorem mem_group_iff {label : String} :
    e ∈ (p.edges.find? label).getD [] ↔ e ∈ p.allEdges ∧ e.label = label := by
  rw [Plan.allEdges_eq, ← hFinished.plan]
  exact hFinished.recorded.edges.groups.mem_group_iff

/-- A followed reference to a node puts a plain relationship with its mark into the plan. -/
theorem planned_of_follow
    (hMove : Move.follow owner role target ∈
      w.trail (w.givenKey root depth taken) depth root none) (hNode : w.NodeAs target d) :
    ∃ e ∈ p.allEdges, e.object = false ∧ edgeMark e =
      edgeMark (plainEdge role (w.givenKey root depth taken owner)
        (w.givenKey root depth taken target)) := by
  have hMet := (hFinished.recorded.edges.met owner role target d hMove hNode).2
  have hMarked := hFinished.recorded.edges.marked _ hMet
  rw [hFinished.plan] at hMarked
  exact hMarked

include hPlain

theorem planned_plain_iff (hObject : e.object = false) :
    e ∈ p.allEdges ↔ firstWith (edgeMark e)
      ((w.trail (w.givenKey root depth taken) depth root none).filterMap
        (w.asked (w.givenKey root depth taken))) = some e := by
  rw [← mem_firsts_iff, ← hPlain.planned.mem_iff, hFinished.plan, List.mem_filter]
  simp only [hObject, Bool.not_false, and_true]

/-- What a field declares is planned unless it was overruled. -/
theorem honours_iff (hMove : Move.follow owner role target ∈
      w.trail (w.givenKey root depth taken) depth root none) (hNode : w.NodeAs target d)
    (hOwner : w.givenKey root depth taken owner = ownerKey)
    (hTarget : w.givenKey root depth taken target = targetKey) :
    (∃ e ∈ (p.edges.find? role.label).getD [], e.object = false ∧
      Honours role.direction ownerKey targetKey e) ↔
      ¬ w.Overruled root depth taken (plainEdge role ownerKey targetKey) := by
  constructor
  · rintro ⟨e, he, hObject, hHonours⟩ ⟨hDirected, first, hFirst, hAsked⟩
    obtain ⟨hAll, hLabel⟩ := (mem_group_iff hFinished).1 he
    have hNotBoth : role.direction ≠ .both := fun hBoth => by
      rw [(plainEdge_undirected role ownerKey targetKey).2 hBoth] at hDirected
      cases hDirected
    have hEdge := (honours_directed_iff hNotBoth).1 hHonours
    obtain ⟨owner', role', target', d', -, -, hPlanned⟩ :=
      hFinished.recorded.edges.planned e (by rw [hFinished.plan]; exact hAll) hObject
    have hUndirected : e.undirected = (role.direction == .both) :=
      hEdge.1.trans hDirected.symm
    have hSame := eq_plainEdge hPlanned hLabel hUndirected hEdge.2
    -- The planned relationship is the first of its mark, and it has a direction.
    have hSelf := (planned_plain_iff hFinished hPlain hObject).1 hAll
    rw [hSame, hAsked] at hSelf
    cases hSelf
    rw [hDirected] at hFirst
    cases hFirst
  · intro hNot
    obtain ⟨e, he, hObject, hMark⟩ := planned_of_follow hFinished hMove hNode
    rw [hOwner, hTarget] at hMark
    have hLabel : e.label = role.label := (ends_of_edgeMark_eq hMark).1
    refine ⟨e, (mem_group_iff hFinished).2 ⟨he, hLabel⟩, hObject, ?_⟩
    by_cases hBoth : role.direction = .both
    · rw [hBoth]
      exact (plainEdge_connects role ownerKey targetKey).of_mark hMark
    · have hDirected : (plainEdge role ownerKey targetKey).undirected = false :=
        eq_false_of_ne_true fun h => hBoth ((plainEdge_undirected _ _ _).1 h)
      have hOwn : e.undirected = false := by
        refine eq_false_of_ne_true fun hUndirected => hNot ⟨hDirected, e, hUndirected, ?_⟩
        rw [← hMark]
        exact (planned_plain_iff hFinished hPlain hObject).1 he
      rw [edgeMark_of_directed hOwn, edgeMark_of_directed hDirected] at hMark
      have hEnds := (Prod.mk.inj hMark).2.trans (plainEdge_ends role ownerKey targetKey)
      exact (honours_directed_iff hBoth).2 ⟨hOwn, hEnds⟩

omit hPlain

/-- Only an undirected field between the same two nodes overrules a directed one, and only where the
keys compare in the direction of the relationship. -/
theorem contested_of_overruled (hDistinct : w.Distinguishes root depth taken)
    (hOwner : w.identityOf root depth taken owner = some ownerKey)
    (hTarget : w.identityOf root depth taken target = some targetKey)
    (h : w.Overruled root depth taken (plainEdge role ownerKey targetKey)) :
    w.Contested root depth role.label owner target ∧
      ¬ (plainEdge role ownerKey targetKey).finish < (plainEdge role ownerKey targetKey).start := by
  obtain ⟨hDirected, first, hUndirected, hFirst⟩ := h
  have hMark : edgeMark first = edgeMark (plainEdge role ownerKey targetKey) := by
    have hFound := List.find?_some hFirst
    exact of_decide_eq_true hFound
  refine ⟨?_, edgeMark_eq_of_not_lt hDirected hUndirected hMark⟩
  obtain ⟨m, hMember, hAsked⟩ := List.mem_filterMap.1 (List.mem_of_find?_eq_some hFirst)
  obtain ⟨owner', role', target', d', rfl, hNode, rfl⟩ := asked_eq_some hAsked
  obtain ⟨hReference, n, hNear, hReach⟩ := (follow_iff_reaches hFinished hDistinct).1 hMember
  obtain ⟨-, left, came, hVisit⟩ := follow_mem_trail_iff.1 hMember
  have hOwner' := hFinished.identified_iff.1 (identified_of_visit hFinished hVisit)
  have hTarget' := hFinished.identified_iff.1
    (hFinished.recorded.edges.met owner' role' target' d' hMember hNode).1
  refine ⟨n, owner', role', target', hNear, hReach, hReference, (ends_of_edgeMark_eq hMark).1,
    (plainEdge_undirected _ _ _).1 hUndirected, ?_⟩
  -- Both relationships join the same two keys, and each key stands for one object.
  have hConnects := (plainEdge_connects role ownerKey targetKey).of_mark hMark
  have hKeys := hConnects.same (plainEdge_connects role' (w.givenKey root depth taken owner')
    (w.givenKey root depth taken target'))
  rcases hKeys with ⟨hSame, hSame'⟩ | ⟨hSame, hSame'⟩
  · rw [hSame] at hOwner'
    rw [hSame'] at hTarget'
    exact .inl ⟨hDistinct _ _ _ hOwner' hOwner, hDistinct _ _ _ hTarget' hTarget⟩
  · rw [hSame] at hOwner'
    rw [hSame'] at hTarget'
    exact .inr ⟨hDistinct _ _ _ hOwner' hTarget, hDistinct _ _ _ hTarget' hOwner⟩

end

/-- A plain relationship that a field declares is never lost, and it is planned as the field declares it
exactly if no undirected relationship overrules it.  None does unless an undirected field of the same
type refers from one of the two nodes to the other, and the keys compare in the field's direction. -/
theorem make_honours_iff (w : Walker σ) (root : Ref) (depth taken : Nat) (p : Plan) (after : Nat)
    (hMade : Plan.make w.model w.registry w.heap root depth taken = (.ok p, after))
    (hDistinct : w.Distinguishes root depth taken) (n : Nat) (owner target : Ref)
    (role : RelationshipRole) (d : TypeDescriptor) (hNear : n < depth)
    (hReach : w.Reaches root n owner) (hReference : (role, target) ∈ w.referencesOf owner)
    (hNode : w.NodeAs target d) :
    ∃ ownerKey targetKey, w.identityOf root depth taken owner = some ownerKey ∧
      w.identityOf root depth taken target = some targetKey ∧
      (∃ e ∈ (p.edges.find? role.label).getD [], e.object = false ∧ Connects e ownerKey targetKey) ∧
      ((∃ e ∈ (p.edges.find? role.label).getD [], e.object = false ∧
          Honours role.direction ownerKey targetKey e) ↔
        ¬ w.Overruled root depth taken (plainEdge role ownerKey targetKey)) ∧
      (w.Overruled root depth taken (plainEdge role ownerKey targetKey) →
        role.direction ≠ .both ∧ w.Contested root depth role.label owner target ∧
        ¬ (plainEdge role ownerKey targetKey).finish < (plainEdge role ownerKey targetKey).start) := by
  obtain ⟨s, hPlan, -, hIdentity, hTakes⟩ := takes_of_make hMade
  have hFinished : w.Finished root depth taken p s := ⟨hPlan, hIdentity, .of_takes hTakes⟩
  have hPlain := PlainRecords.of_takes hTakes
  have hMove := (follow_iff_reaches hFinished hDistinct).2 ⟨hReference, n, hNear, hReach⟩
  obtain ⟨-, left, came, hVisit⟩ := follow_mem_trail_iff.1 hMove
  have hOwner := hFinished.identified_iff.1 (identified_of_visit hFinished hVisit)
  have hTarget := hFinished.identified_iff.1
    (hFinished.recorded.edges.met owner role target d hMove hNode).1
  refine ⟨_, _, hOwner, hTarget, ?_, honours_iff hFinished hPlain hMove hNode rfl rfl, ?_⟩
  · obtain ⟨e, he, hObject, hMark⟩ := planned_of_follow hFinished hMove hNode
    exact ⟨e, (mem_group_iff hFinished).2 ⟨he, (ends_of_edgeMark_eq hMark).1⟩, hObject,
      (plainEdge_connects _ _ _).of_mark hMark⟩
  · intro hOverruled
    refine ⟨fun hBoth => ?_, contested_of_overruled hFinished hDistinct hOwner hTarget hOverruled⟩
    have hDirected := hOverruled.1
    rw [(plainEdge_undirected _ _ _).2 hBoth] at hDirected
    cases hDirected

end Walker

/-! A fan refers to another one by an undirected and by a directed field of one type. -/

namespace Fans

def fan : DeclaredType :=
  ⟨"Fan", "Fan", none,
    [⟨⟨"uuid", .scalar, "pk"⟩, .value .string⟩,
      ⟨⟨"likes", .many "Fan", "relationship=LIKES;direction=both"⟩, .many "Fan"⟩,
      ⟨⟨"idols", .many "Fan", "relationship=LIKES;direction=outgoing"⟩, .many "Fan"⟩,
      ⟨⟨"admirers", .many "Fan", "relationship=LIKES;direction=incoming"⟩, .many "Fan"⟩], false⟩

def strategy : KeyStrategy :=
  .uuid fun n => "k" ++ toString n

def likes : RelationshipRole := ⟨"LIKES", .both, "Fan", true⟩

def idols : RelationshipRole := ⟨"LIKES", .outgoing, "Fan", true⟩

def admirers : RelationshipRole := ⟨"LIKES", .incoming, "Fan", true⟩

def descriptor : TypeDescriptor :=
  ⟨"Fan", "Fan", [⟨"uuid", "uuid", .key false, false, false⟩,
    ⟨"likes", "likes", .relationship likes, false, false⟩,
    ⟨"idols", "idols", .relationship idols, false, false⟩,
    ⟨"admirers", "admirers", .relationship admirers, false, false⟩], none⟩

def registry : Registry where
  strategy := strategy
  types := [descriptor]
  relationships := [(⟨"Fan", "LIKES", "Fan"⟩,
    ⟨some ⟨"Fan", "idols", true, .outgoing⟩, some ⟨"Fan", "admirers", true, .incoming⟩, none⟩)]

example : Registry.ofDecls strategy [fan.decl] = .ok registry := by rfl

def objects : Ref → Instance DeclaredObject
  | 0 => ⟨"Fan", ⟨fan, [("uuid", .string "b")], [("admirers", [1]), ("likes", [1])], ⟨none, none⟩,
      false⟩⟩
  | _ => ⟨"Fan", ⟨fan, [("uuid", .string "a")], [], ⟨none, none⟩, false⟩⟩

def walker : Walker DeclaredObject :=
  ⟨declaredModel [fan], registry, ⟨2, objects⟩⟩

def undirected : PlannedEdge := ⟨"b", "a", "LIKES", true, false, none, []⟩

/-- The plan to save the first fan with one hop. -/
def plan : Plan where
  nodes := [("Fan", [⟨"b", "Fan", false, some (.string "b"), [], 0⟩,
    ⟨"a", "Fan", false, some (.string "a"), [], 1⟩])]
  edges := [("LIKES", [undirected])]
  assigned := []

theorem made : Plan.make walker.model walker.registry walker.heap 0 1 0 = (.ok plan, 0) := by
  rfl

theorem distinct : walker.Distinguishes 0 1 0 :=
  Walker.distinguishes_of_nodup (by decide +kernel)

end Fans

theorem fans_honour_likes :
    ∃ ownerKey targetKey, Fans.walker.identityOf 0 1 0 0 = some ownerKey ∧
      Fans.walker.identityOf 0 1 0 1 = some targetKey ∧
      (∃ e ∈ (Fans.plan.edges.find? "LIKES").getD [], e.object = false ∧
        Walker.Connects e ownerKey targetKey) ∧
      ((∃ e ∈ (Fans.plan.edges.find? "LIKES").getD [], e.object = false ∧
          Walker.Honours .both ownerKey targetKey e) ↔
        ¬ Fans.walker.Overruled 0 1 0 (plainEdge Fans.likes ownerKey targetKey)) ∧
      (Fans.walker.Overruled 0 1 0 (plainEdge Fans.likes ownerKey targetKey) →
        Direction.both ≠ .both ∧ Fans.walker.Contested 0 1 "LIKES" 0 1 ∧
        ¬ (plainEdge Fans.likes ownerKey targetKey).finish <
          (plainEdge Fans.likes ownerKey targetKey).start) := by
  have hReference : (Fans.likes, 1) ∈ Fans.walker.referencesOf 0 := List.mem_cons_self
  have hNode : Fans.walker.NodeAs 1 Fans.descriptor := ⟨rfl, rfl⟩
  exact Walker.make_honours_iff Fans.walker 0 1 0 Fans.plan 0 Fans.made Fans.distinct 0 0 1 Fans.likes
    Fans.descriptor Nat.zero_lt_one .root hReference hNode

/-- The second fan admires the first one, and no planned relationship says so. -/
theorem fans_lose_admirer :
    Plan.make Fans.walker.model Fans.walker.registry Fans.walker.heap 0 1 0 = (.ok Fans.plan, 0) ∧
    Fans.walker.Distinguishes 0 1 0 ∧ Fans.walker.Reaches 0 0 0 ∧
    (Fans.admirers, 1) ∈ Fans.walker.referencesOf 0 ∧ Fans.walker.NodeAs 1 Fans.descriptor ∧
    Fans.walker.identityOf 0 1 0 0 = some "b" ∧ Fans.walker.identityOf 0 1 0 1 = some "a" ∧
    ¬ ∃ e ∈ (Fans.plan.edges.find? "LIKES").getD [],
      e.undirected = false ∧ e.start = "a" ∧ e.finish = "b" := by
  refine ⟨Fans.made, Fans.distinct, .root, List.mem_cons_of_mem _ List.mem_cons_self, ⟨rfl, rfl⟩,
    by rfl, by rfl, ?_⟩
  rintro ⟨e, he, hDirected, -, -⟩
  have hOnly : e ∈ [Fans.undirected] := he
  rw [List.mem_singleton.1 hOnly] at hDirected
  cases hDirected

end GraphMapping

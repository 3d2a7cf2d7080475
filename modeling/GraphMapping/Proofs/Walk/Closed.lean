import GraphMapping.Proofs.Persist.Known
import GraphMapping.Proofs.Walk.Keys
import GraphMapping.Proofs.Walk.Plain
import Mathlib.Data.List.Pairwise

/-!
# Plans are closed

A plan names only nodes that it plans, and lists nothing twice.  The keys that it generates are those of
its own nodes and relationships if the generator gives fresh keys.  If it does not, an object may be
taken for another one; then a relationship-object that is also an end of one gets two keys.
-/

namespace GraphMapping

namespace Walker

open Walk WalkState GraphMapping.Action

variable {σ : Type} (w : Walker σ)

/-- Two plain relationships of one type, both directed or both not, have the same ends. -/
def Alike (e e' : PlannedEdge) : Prop :=
  e.label = e'.label ∧ e.undirected = e'.undirected ∧
    ((e.start = e'.start ∧ e.finish = e'.finish) ∨
      (e.undirected = true ∧ e.start = e'.finish ∧ e.finish = e'.start))

/-- The keys that the generator gives from the number `taken` up to `after` are usable, differ from
each other, and are held by no object. -/
structure Fresh (taken after : Nat) : Prop where
  usable : ∀ n v, taken ≤ n → n < after → (w.registry.strategy.generate n).1 = .ok (some v) →
    ∃ key, v.key? = some key
  apart : ∀ m n u v, taken ≤ m → m < n → n < after →
    (w.registry.strategy.generate m).1 = .ok (some u) →
    (w.registry.strategy.generate n).1 = .ok (some v) → u.key? ≠ v.key?
  unused : ∀ n v r d pk, taken ≤ n → n < after →
    (w.registry.strategy.generate n).1 = .ok (some v) → w.descriptor r = .ok d → d.key? = some pk →
    (w.heap.value w.model r pk.field).key? ≠ v.key?

/-- A generated key is the key of the planned node of its object. -/
def KeysNode (p : Plan) (a : AssignedKey) : Prop :=
  ∃ n ∈ p.allNodes, n.ref = a.ref ∧ w.labelOf a.ref = some n.label ∧
    n.key = some a.value.storage ∧ a.value.key? = some n.identity

/-- A generated key is the key of the planned relationship of its object. -/
def KeysEdge (root : Ref) (depth taken : Nat) (p : Plan) (a : AssignedKey) : Prop :=
  ∃ e ∈ p.allEdges, e.object = true ∧ e.key = some a.value ∧
    ∃ start finish, w.IsRelationshipOf root depth taken e a.ref start finish

/-- A plan is closed and free of duplicates. -/
structure Closed (root : Ref) (depth taken : Nat) (p : Plan) (after : Nat) : Prop where
  /-- No two nodes share label and identity. -/
  distinct : (p.allNodes.map fun n => (n.label, n.identity)).Nodup
  /-- Relationships end at planned nodes only. -/
  placed : ∀ e ∈ p.allEdges,
    (∃ n ∈ p.allNodes, n.identity = e.start) ∧ ∃ n ∈ p.allNodes, n.identity = e.finish
  /-- Once every node row was answered with its key, the relationships can be sent. -/
  sendable : ∀ (δ : Type) (server : Server δ) (d d' : δ) (ids : GraphIds) (calls : List Call),
    Returns (persistNodes server.answered w.registry.strategy p.nodes []) (d, []) ids (d', calls) →
    AnswersKeys calls → ∀ label edges, (label, edges) ∈ p.edges →
      ∃ batches, edgeBatches w.registry.strategy ids label edges = .ok batches
  /-- No two plain relationships are alike. -/
  plain : (p.allEdges.filter fun e => !e.object).Pairwise fun e e' => ¬ Alike e e'
  /-- No relationship-object has two relationships. -/
  objects : ∃ objects : List Ref, objects.Nodup ∧ List.Forall₂
    (fun e object => ∃ start finish, w.IsRelationshipOf root depth taken e object start finish)
    (p.allEdges.filter (·.object)) objects
  /-- An object has one identity in all nodes and relationships. -/
  identified : (∀ n ∈ p.allNodes, w.identityOf root depth taken n.ref = some n.identity) ∧
    ∀ e ∈ p.allEdges, ∃ a b, w.Relates root depth taken e a b
  /-- Every key that was taken from the generator is put down for an object. -/
  generated : after = taken + p.assigned.length ∧
    p.assigned.map (fun a => (.ok (some a.value) : Except Error (Option Value))) =
      (List.range' taken p.assigned.length).map fun n => (w.registry.strategy.generate n).1
  /-- Two keys go to one object only if it is a relationship-object, and an end of a planned one. -/
  once : ∀ r, (p.assigned.filter (·.ref = r)).length ≤ 1 ∨
    ((p.assigned.filter (·.ref = r)).length = 2 ∧ (∃ d start finish, w.ObjectAs r d start finish) ∧
      ∃ e ∈ p.allEdges, ∃ object start finish,
        w.IsRelationshipOf root depth taken e object start finish ∧ (r = start ∨ r = finish))
  /-- Fresh keys are carried by the plan, and each object gets one at most. -/
  carried : w.Fresh taken after → (p.assigned.map (·.ref)).Nodup ∧
    ∀ a ∈ p.assigned, w.KeysNode p a ∨ w.KeysEdge root depth taken p a

variable {w} {root : Ref} {depth taken after : Nat} {p : Plan} {s : WalkState} {keyOf : Ref → String}
  {moves : List Move}

theorem Alike.mark {e e' : PlannedEdge} (h : Alike e e') : edgeMark e = edgeMark e' := by
  obtain ⟨hLabel, hKind, ⟨hStart, hFinish⟩ | ⟨hUndirected, hStart, hFinish⟩⟩ := h
  · unfold edgeMark
    rw [hLabel, hKind, hStart, hFinish]
  · exact edgeMark_of_turned hLabel hUndirected (hKind.symm.trans hUndirected) hStart hFinish

theorem length_filter_le_one {assigned : List AssignedKey} (h : (assigned.map (·.ref)).Nodup)
    (r : Ref) : (assigned.filter (·.ref = r)).length ≤ 1 := by
  have hCount : (assigned.filter (·.ref = r)).length = (assigned.map (·.ref)).count r := by
    rw [List.count_eq_length_filter, List.filter_map, List.length_map]
    congr 1
  rw [hCount]
  exact List.nodup_iff_count_le_one.1 h r

/-! ## Fresh keys -/

section

variable (hKeys : w.KeyRecords taken keyOf moves s) (hFresh : w.Fresh taken s.taken)

include hKeys

theorem value_of_assigned {a : AssignedKey} (ha : a ∈ s.plan.assigned) :
    ∃ n, taken ≤ n ∧ n < s.taken ∧ (w.registry.strategy.generate n).1 = .ok (some a.value) := by
  have hMem : (.ok (some a.value) : Except Error (Option Value)) ∈
      s.plan.assigned.map fun a => .ok (some a.value) := List.mem_map_of_mem ha
  rw [hKeys.values] at hMem
  obtain ⟨n, hn, hValue⟩ := List.mem_map.1 hMem
  have hRange := List.mem_range'_1.1 hn
  refine ⟨n, hRange.1, ?_, hValue⟩
  rw [hKeys.count]
  exact hRange.2

include hFresh

theorem assigned_apart {a b : AssignedKey} (ha : a ∈ s.plan.assigned) (hb : b ∈ s.plan.assigned)
    (hKey : a.value.key? = b.value.key?) : a = b := by
  let Differ : Except Error (Option Value) → Except Error (Option Value) → Prop :=
    fun x y => ∀ u v, x = .ok (some u) → y = .ok (some v) → u.key? ≠ v.key?
  have hRange : (List.range' taken s.plan.assigned.length).Pairwise fun m n =>
      Differ (w.registry.strategy.generate m).1 (w.registry.strategy.generate n).1 := by
    refine List.Pairwise.imp_of_mem ?_ List.pairwise_lt_range'
    intro m n hm hn hLess u v hu hv
    refine hFresh.apart m n u v (List.mem_range'_1.1 hm).1 hLess ?_ hu hv
    rw [hKeys.count]
    exact (List.mem_range'_1.1 hn).2
  have hAll := List.pairwise_map.2 hRange
  rw [← hKeys.values, List.pairwise_map] at hAll
  have hPairs : s.plan.assigned.Pairwise fun a b => a.value.key? ≠ b.value.key? :=
    hAll.imp fun h => h _ _ rfl rfl
  have hSymm : Std.Symm fun a b : AssignedKey => a.value.key? ≠ b.value.key? :=
    ⟨fun _ _ h => Ne.symm h⟩
  by_contra hDiffer
  exact hPairs.forall ha hb hDiffer hKey

/-- An identity that is a fresh key is that of the object that the key was generated for. -/
theorem ref_of_fresh (hIdentities : w.IdentityRecords moves s) {a : AssignedKey}
    (ha : a ∈ s.plan.assigned) {r : Ref} {i : Identity} (hi : s.identities.lookup r = some i)
    (hKey : a.value.key? = some i.key) : r = a.ref := by
  obtain ⟨n, hFrom, hUpTo, hValue⟩ := value_of_assigned hKeys ha
  cases hIdentities.origin r i hi with
  | @held d pk key hType hPk hHeld =>
      rw [← hKey] at hHeld
      exact absurd hHeld (hFresh.unused n a.value r d pk hFrom hUpTo hValue hType hPk)
  | @temporary d pk m hType hPk hNone hNative =>
      unfold KeyStrategy.generate at hValue
      unfold KeyStrategy.isNative at hNative
      cases hSource : w.registry.strategy.source with
      | database =>
          rw [hSource] at hValue
          cases hValue
      | generated sequence =>
          rw [hSource] at hNative
          cases hNative
  | @generated d pk v key hType hPk hNone hNative hOwn =>
      obtain ⟨d', pk', -, -, hMem⟩ := hKeys.known r _ v hi rfl
      have hSame := assigned_apart hKeys hFresh hMem ha (hOwn.trans hKey.symm)
      exact congrArg AssignedKey.ref hSame

end

section

variable (hFinished : w.Finished root depth taken p s)
  (hIdentities : w.IdentityRecords (w.trail (w.givenKey root depth taken) depth root none) s)
  (hKeys : w.KeyRecords taken (w.givenKey root depth taken)
    (w.trail (w.givenKey root depth taken) depth root none) s)

include hFinished hIdentities hKeys

theorem keysNode_of_fresh (hFresh : w.Fresh taken s.taken) {a : AssignedKey}
    (ha : a ∈ s.plan.assigned) (hNode : w.NodeKey s a) : w.KeysNode p a := by
  obtain ⟨d, pk, key, hType, hPk, -, -, hKey, hKnown⟩ := hNode
  obtain ⟨n, hn, hIdentity⟩ := placed_of_identified hFinished hIdentities ⟨_, hKnown⟩
  rw [hFinished.given hKnown] at hIdentity
  rw [← hFinished.plan] at hn
  obtain ⟨-, d', i, params, hNodeAs, hi, -, hPlanned⟩ := hFinished.recorded.nodes.planned n hn
  have hOwn : i.key = n.identity := by
    rw [hPlanned]
    rfl
  -- The planned node may be that of another object with this key; there is none.
  have hRef : n.ref = a.ref := by
    refine ref_of_fresh hKeys hFresh hIdentities ha hi ?_
    rw [hOwn, hIdentity]
    exact hKey
  rw [hFinished.plan] at hn
  rw [hRef] at hNodeAs hi
  rw [hKnown] at hi
  cases hi
  cases ok_unique hType hNodeAs.1
  have hNative : w.registry.strategy.isNative = false := by
    cases hIdentities.origin a.ref _ hKnown with
    | generated _ _ _ hNative _ => exact hNative
  have hStored : n.key = w.storedKey a.ref d ⟨key, true, some a.value⟩ := by
    rw [hPlanned, hRef]
    rfl
  refine ⟨n, hn, hRef, ?_, ?_, ?_⟩
  · rw [labelOf_eq_some]
    refine ⟨d, hType, ?_⟩
    rw [hPlanned]
    rfl
  · rw [hStored]
    simp only [storedKey, hPk, hNative, Bool.false_eq_true, if_false, Option.getD_some]
  · rw [hIdentity]
    exact hKey

omit hIdentities hKeys in
theorem keysEdge_of_objectKey {a : AssignedKey}
    (h : w.ObjectKey (w.givenKey root depth taken)
      (w.trail (w.givenKey root depth taken) depth root none) s a) :
    w.KeysEdge root depth taken p a := by
  obtain ⟨-, d, pk, start, finish, e, hAs, -, -, -, he, hCarries, hKey⟩ := h
  rw [hFinished.plan] at he
  have hObject : e.object = true := by
    obtain ⟨_, _, _, _, _, _, _, -, -, -, rfl⟩ := hCarries
    rfl
  exact ⟨e, he, hObject, hKey, isRelationshipOf_of_carries hFinished hCarries⟩

/-- A node and a relationship-object are different objects. -/
theorem carried_of_fresh (hFresh : w.Fresh taken s.taken) :
    (p.assigned.map (·.ref)).Nodup ∧
      ∀ a ∈ p.assigned, w.KeysNode p a ∨ w.KeysEdge root depth taken p a := by
  obtain ⟨forNodes, forObjects, hPerm, hOnce, hOnce', hNodes, hObjects⟩ := hKeys.parts
  have hNode : ∀ a ∈ forNodes, w.KeysNode p a := fun a ha =>
    keysNode_of_fresh hFinished hIdentities hKeys hFresh
      (hPerm.mem_iff.2 (List.mem_append_left _ ha)) (hNodes a ha)
  rw [hFinished.plan] at hPerm
  refine ⟨?_, fun a ha => ?_⟩
  · refine (hPerm.map _).nodup_iff.2 ?_
    rw [List.map_append]
    refine List.nodup_append.2 ⟨hOnce, hOnce', fun r hr r' hr' hSame => ?_⟩
    obtain ⟨a, ha, rfl⟩ := List.mem_map.1 hr
    obtain ⟨b, hb, rfl⟩ := List.mem_map.1 hr'
    obtain ⟨n, hn, hRef, -⟩ := hNode a ha
    obtain ⟨d, hNodeAs, -⟩ := planned_node hFinished hn
    obtain ⟨-, d', pk, start, finish, e, hAs, -⟩ := hObjects b hb
    rw [hRef, hSame] at hNodeAs
    exact hAs.not_node hNodeAs
  · rcases List.mem_append.1 (hPerm.mem_iff.1 ha) with hFor | hFor
    · exact .inl (hNode a hFor)
    · exact .inr (keysEdge_of_objectKey hFinished (hObjects a hFor))

/-- An object gets one key as a node or an end and one as a relationship-object at most. -/
theorem assigned_once (r : Ref) : (p.assigned.filter (·.ref = r)).length ≤ 1 ∨
    ((p.assigned.filter (·.ref = r)).length = 2 ∧ (∃ d start finish, w.ObjectAs r d start finish) ∧
      ∃ e ∈ p.allEdges, ∃ object start finish,
        w.IsRelationshipOf root depth taken e object start finish ∧ (r = start ∨ r = finish)) := by
  obtain ⟨forNodes, forObjects, hPerm, hOnce, hOnce', hNodes, hObjects⟩ := hKeys.parts
  rw [hFinished.plan] at hPerm
  have hLength := (hPerm.filter fun a => decide (a.ref = r)).length_eq
  rw [List.filter_append, List.length_append] at hLength
  have hFirst := length_filter_le_one hOnce r
  have hSecond := length_filter_le_one hOnce' r
  by_cases hMany : (p.assigned.filter (·.ref = r)).length ≤ 1
  · exact .inl hMany
  · have hNonempty : 0 < (forNodes.filter (·.ref = r)).length := by omega
    have hNonempty' : 0 < (forObjects.filter (·.ref = r)).length := by omega
    obtain ⟨a, hFound⟩ := List.exists_mem_of_length_pos hNonempty
    obtain ⟨b, hFound'⟩ := List.exists_mem_of_length_pos hNonempty'
    obtain ⟨ha, hRef⟩ := List.mem_filter.1 hFound
    obtain ⟨hb, hRef'⟩ := List.mem_filter.1 hFound'
    cases of_decide_eq_true hRef
    obtain ⟨_, _, _, -, -, -, -, -, hKnown⟩ := hNodes a ha
    obtain ⟨-, d, _, start, finish, _, hAs, -⟩ := hObjects b hb
    rw [of_decide_eq_true hRef'] at hAs
    exact .inr ⟨by omega, ⟨d, start, finish, hAs⟩,
      end_of_identified hFinished hIdentities ⟨_, hKnown⟩ hAs⟩

end

theorem plain_pairwise (h : w.PlainRecords keyOf moves s) :
    (s.plan.allEdges.filter fun e => !e.object).Pairwise fun e e' => ¬ Alike e e' := by
  have hMarks : ((s.plan.allEdges.filter fun e => !e.object).map edgeMark).Nodup :=
    (h.planned.map edgeMark).nodup_iff.2 (firsts_nodup _)
  unfold List.Nodup at hMarks
  rw [List.pairwise_map] at hMarks
  exact hMarks.imp fun hDiffer hAlike => hDiffer hAlike.mark

theorem sendable_of_placed (hPlaced : ∀ e ∈ p.allEdges,
      (∃ n ∈ p.allNodes, n.identity = e.start) ∧ ∃ n ∈ p.allNodes, n.identity = e.finish)
    {δ : Type} {server : Server δ} {d d' : δ} {ids : GraphIds} {calls : List Call}
    (hReturns : Returns (persistNodes server.answered w.registry.strategy p.nodes []) (d, []) ids
      (d', calls)) (hAnswers : AnswersKeys calls) {label : String} {edges : List PlannedEdge}
    (hEdges : (label, edges) ∈ p.edges) :
    ∃ batches, edgeBatches w.registry.strategy ids label edges = .ok batches := by
  obtain ⟨-, hNumbered⟩ := persistNodes_numbers hReturns hAnswers
  refine edgeBatches_total fun e he => ?_
  obtain ⟨⟨n, hn, hStart⟩, ⟨n', hn', hFinish⟩⟩ := hPlaced e (Dict.mem_members.2 ⟨_, hEdges, he⟩)
  rw [← hStart, ← hFinish]
  exact ⟨hNumbered n hn, hNumbered n' hn'⟩

/-- Every plan that is made is closed and free of duplicates. -/
theorem make_closed (w : Walker σ) (root : Ref) (depth taken : Nat) (p : Plan) (after : Nat)
    (hMade : Plan.make w.model w.registry w.heap root depth taken = (.ok p, after)) :
    w.Closed root depth taken p after := by
  obtain ⟨s, hPlan, hAfter, hIdentity, hTakes⟩ := takes_of_make hMade
  have hFinished : w.Finished root depth taken p s := ⟨hPlan, hIdentity, .of_takes hTakes⟩
  have hIdentities := IdentityRecords.of_takes hTakes
  have hKeys := KeyRecords.of_takes hTakes
  have hPlain := plain_pairwise (PlainRecords.of_takes hTakes)
  have hPlaced : ∀ e ∈ p.allEdges,
      (∃ n ∈ p.allNodes, n.identity = e.start) ∧ ∃ n ∈ p.allNodes, n.identity = e.finish :=
    fun e he => placed_of_planned hFinished he
  have hObjects : ∃ objects : List Ref, objects.Nodup ∧ List.Forall₂
      (fun e object => ∃ start finish, w.IsRelationshipOf root depth taken e object start finish)
      (p.allEdges.filter (·.object)) objects := by
    obtain ⟨objects, hSame, hEach⟩ := planned_objects hFinished
    exact ⟨objects, hSame.nodup_iff.1 hFinished.recorded.objects.once,
      hEach.imp fun _ _ hHere => hHere.1⟩
  subst hPlan hAfter
  refine {
    distinct := hFinished.recorded.nodes.distinct
    placed := hPlaced
    sendable := fun δ server d d' ids calls hReturns hAnswers label edges hEdges =>
      sendable_of_placed hPlaced hReturns hAnswers hEdges
    plain := hPlain
    objects := hObjects
    identified := ⟨fun n hn => ?_, fun e he => relates_of_planned hFinished he⟩
    generated := ⟨hKeys.count, hKeys.values⟩
    once := assigned_once hFinished hIdentities hKeys
    carried := carried_of_fresh hFinished hIdentities hKeys }
  obtain ⟨d, -, -, hGiven⟩ := planned_node hFinished hn
  exact hGiven

end Walker

theorem cinema_closed :
    Cinema.walker.Fresh 0 1 ∧ Cinema.walker.Closed 0 2 0 Cinema.plan 1 := by
  refine ⟨⟨?_, ?_, ?_⟩, Walker.make_closed Cinema.walker 0 2 0 Cinema.plan 1 (by rfl)⟩
  · intro n v _ hn hv
    obtain rfl : n = 0 := by omega
    cases hv
    exact ⟨"k0", rfl⟩
  · intro m n u v _ hm hn
    omega
  · intro n v r d pk _ hn hv hType hPk hKey
    obtain rfl : n = 0 := by omega
    cases hv
    -- The keys held are those of the two persons; the movie has none, and roles have no key field.
    match r with
    | 0 | 1 | 2 =>
      cases hType
      cases hPk
      exact absurd hKey (by decide +kernel)
    | 3 | _ + 4 =>
      cases hType
      cases hPk

/-! A role is listed by a person, and another one takes it for the person because their keys are equal. -/

namespace Casting

def person : DeclaredType :=
  ⟨"Person", "Person", none,
    [⟨⟨"uuid", .scalar, "pk"⟩, .value .string⟩,
      ⟨⟨"roles", .many "Role", "relationship=ACTED_IN;direction=outgoing"⟩, .many "Role"⟩], false⟩

def movie : DeclaredType :=
  ⟨"Movie", "Movie", none, [⟨⟨"uuid", .scalar, "pk"⟩, .value .string⟩], false⟩

def role : DeclaredType :=
  ⟨"Role", "ACTED_IN", some ("Person", "Movie"), [⟨⟨"uuid", .scalar, "pk"⟩, .value .string⟩], false⟩

def registry : Registry where
  strategy := Cinema.strategy
  types := [
    ⟨"Person", "Person", [⟨"uuid", "uuid", .key false, false, false⟩,
      ⟨"roles", "roles", .relationship ⟨"ACTED_IN", .outgoing, "Role", true⟩, false, false⟩], none⟩,
    ⟨"Movie", "Movie", [⟨"uuid", "uuid", .key false, false, false⟩], none⟩,
    ⟨"Role", "ACTED_IN", [⟨"uuid", "uuid", .key false, false, false⟩], some ("Person", "Movie")⟩]
  relationships := [
    (⟨"Person", "ACTED_IN", "Movie"⟩, ⟨some ⟨"Person", "roles", true, .outgoing⟩, none, some "Role"⟩)]

example : Registry.ofDecls Cinema.strategy [person.decl, movie.decl, role.decl] = .ok registry := by rfl

def objects : Ref → Instance DeclaredObject
  | 0 => ⟨"Person", ⟨person, [("uuid", .string "k0")], [("roles", [2, 3])], ⟨none, none⟩, false⟩⟩
  | 1 => ⟨"Movie", ⟨movie, [("uuid", .string "m")], [], ⟨none, none⟩, false⟩⟩
  | 2 => ⟨"Role", ⟨role, [], [], ⟨some 3, some 1⟩, false⟩⟩
  | _ => ⟨"Role", ⟨role, [], [], ⟨some 0, some 1⟩, false⟩⟩

def walker : Walker DeclaredObject :=
  ⟨declaredModel [person, movie, role], registry, ⟨4, objects⟩⟩

/-- The plan to save the person with one hop. -/
def plan : Plan where
  nodes := [
    ("Movie", [⟨"m", "Movie", false, some (.string "m"), [], 1⟩]),
    ("Person", [⟨"k0", "Person", false, some (.string "k0"), [], 0⟩])]
  edges := [("ACTED_IN",
    [⟨"k0", "m", "ACTED_IN", false, true, some (.string "k1"), [("uuid", .string "k1")]⟩,
      ⟨"k0", "m", "ACTED_IN", false, true, some (.string "k2"), [("uuid", .string "k2")]⟩])]
  assigned := [⟨3, "uuid", .string "k0"⟩, ⟨2, "uuid", .string "k1"⟩, ⟨3, "uuid", .string "k2"⟩]

end Casting

/-- The second role gets a key as an end of the first one, and another one for its own relationship. -/
theorem casting_keys_role_twice :
    Plan.make Casting.walker.model Casting.walker.registry Casting.walker.heap 0 1 0 =
      (.ok Casting.plan, 3) ∧
    ¬ ∀ r, (Casting.plan.assigned.filter (·.ref = r)).length ≤ 1 := by
  refine ⟨by rfl, fun hOnce => ?_⟩
  have hTwice : (Casting.plan.assigned.filter (·.ref = 3)).length = 2 := by decide
  have hLess := hOnce 3
  omega

end GraphMapping

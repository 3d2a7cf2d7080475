import GraphMapping.Entity.Declared
import GraphMapping.Proofs.Walk.Relations
import Mathlib.Data.List.Nodup

/-!
# A plan covers the ball around its root

A walk is a depth-first search that keeps no set of visited nodes and never steps straight back.  If it
tells all objects apart, it still plans exactly the nodes within its depth, each once, and exactly one
relationship for every relationship-object listed nearer than that.  The reason is that turning back
cuts no shortest path: every node is visited once with as many hops left as its distance allows.
-/

namespace GraphMapping

namespace Walker

open Walk WalkState

variable {σ : Type} (w : Walker σ)

/-- One hop between nodes: along a relationship field to its target, or along a field that lists a
relationship-object to the object's other end. -/
inductive Hop (r : Ref) : Ref → Prop
  | plain {role : RelationshipRole} {target : Ref} {d : TypeDescriptor}
      (hReference : (role, target) ∈ w.referencesOf r) (hNode : w.NodeAs target d) : Hop r target
  | forward {role : RelationshipRole} {object finish : Ref} {d : TypeDescriptor}
      (hReference : (role, object) ∈ w.referencesOf r) (hObject : w.ObjectAs object d r finish) :
      Hop r finish
  | backward {role : RelationshipRole} {object start : Ref} {d : TypeDescriptor}
      (hReference : (role, object) ∈ w.referencesOf r) (hObject : w.ObjectAs object d start r) :
      Hop r start

/-- A number of hops leads from the root to a node. -/
inductive Reaches (root : Ref) : Nat → Ref → Prop
  | root : Reaches root 0 root
  | hop {n : Nat} {r q : Ref} (hReach : Reaches root n r) (hHop : w.Hop r q) :
      Reaches root (n + 1) q

/-- A relationship-object is listed in a field of a node that is nearer to the root than `depth`. -/
def Lists (root : Ref) (depth : Nat) (object : Ref) : Prop :=
  ∃ n r role d, n < depth ∧ w.Reaches root n r ∧ (role, object) ∈ w.referencesOf r ∧
    w.descriptor object = .ok d ∧ d.isObject = true

/-- The walk tells all objects apart that it identifies. -/
def Distinguishes (root : Ref) (depth taken : Nat) : Prop :=
  ∀ q r k, w.identityOf root depth taken q = some k → w.identityOf root depth taken r = some k → q = r

variable {w} {root r q target next : Ref} {depth taken hops n : Nat} {p : Plan} {s : WalkState}
  {role : RelationshipRole} {came : Option String}

theorem Reaches.least (h : w.Reaches root n r) :
    ∃ m, m ≤ n ∧ w.Reaches root m r ∧ ∀ k, k < m → ¬ w.Reaches root k r := by
  induction n using Nat.strongRecOn with
  | ind n ih =>
      by_cases hNearer : ∃ k, k < n ∧ w.Reaches root k r
      · obtain ⟨k, hk, hReach⟩ := hNearer
        obtain ⟨m, hm, hLeast⟩ := ih k hk hReach
        exact ⟨m, by omega, hLeast⟩
      · exact ⟨n, Nat.le_refl n, h, fun k hk hReach => hNearer ⟨k, hk, hReach⟩⟩

section

variable (hFinished : w.Finished root depth taken p s)
  (hDistinct : w.Distinguishes root depth taken)

include hFinished hDistinct

theorem eq_of_key_eq (hq : Identified s q) (hr : Identified s r)
    (hKey : w.givenKey root depth taken q = w.givenKey root depth taken r) : q = r := by
  have hqKey := hFinished.identified_iff.1 hq
  have hrKey := hFinished.identified_iff.1 hr
  rw [← hKey] at hrKey
  exact hDistinct q r _ hqKey hrKey

/-- Following a reference from a visited node is one hop, to a node that is identified. -/
theorem hop_of_beyond
    (hVisit : w.Visits (w.givenKey root depth taken) depth root none (hops + 1) r came)
    (hReference : (role, target) ∈ w.referencesOf r)
    (hBeyond : w.beyond (w.givenKey root depth taken) r target = some next) :
    w.Hop r next ∧ Identified s next := by
  have hOwner : Identified s r := identified_of_visit hFinished hVisit
  have hMove := follow_mem_trail_iff.2 ⟨hReference, hops, came, hVisit⟩
  rcases hFinished.recorded.objects.met r role target hMove with
    ⟨d, hNode⟩ | ⟨d, start, finish, other, hObject, -, hStart, hFinish, -⟩
  · have hTarget : Identified s target :=
      (hFinished.recorded.edges.met r role target d hMove hNode).1
    rw [beyond_of_node hNode.1 hNode.2] at hBeyond
    cases hBeyond
    exact ⟨.plain hReference hNode, hTarget⟩
  · -- The walk compares keys only, but a key stands for one object: the owner is this end.
    rcases hObject.beyond_iff.1 hBeyond with ⟨hKey, rfl⟩ | ⟨-, hKey, rfl⟩
    · obtain rfl : start = r := eq_of_key_eq hFinished hDistinct hStart hOwner hKey
      exact ⟨.forward hReference hObject, hFinish⟩
    · obtain rfl : finish = r := eq_of_key_eq hFinished hDistinct hFinish hOwner hKey
      exact ⟨.backward hReference hObject, hStart⟩

/-- Every hop from a visited node is made by following a reference. -/
theorem beyond_of_hop
    (hVisit : w.Visits (w.givenKey root depth taken) depth root none (hops + 1) r came)
    (h : w.Hop r next) : ∃ role target, (role, target) ∈ w.referencesOf r ∧
      w.beyond (w.givenKey root depth taken) r target = some next := by
  have hOwner : Identified s r := identified_of_visit hFinished hVisit
  cases h with
  | @plain role _ d hReference hNode =>
      exact ⟨role, next, hReference, beyond_of_node hNode.1 hNode.2⟩
  | @forward role object _ d hReference hObject =>
      exact ⟨role, object, hReference, hObject.beyond_iff.2 (.inl ⟨rfl, rfl⟩)⟩
  | @backward role object _ d hReference hObject =>
      refine ⟨role, object, hReference, hObject.beyond_iff.2 ?_⟩
      by_cases hKey : w.givenKey root depth taken next = w.givenKey root depth taken r
      · -- The object leads from the node to itself: both of its ends are the owner.
        have hMove := follow_mem_trail_iff.2 ⟨hReference, hops, came, hVisit⟩
        have hStart : Identified s next := (met_of_object hFinished hMove hObject).2.1
        exact .inl ⟨hKey, (eq_of_key_eq hFinished hDistinct hStart hOwner hKey).symm⟩
      · exact .inr ⟨hKey, rfl, rfl⟩

/-- A visit is as many hops away from the root as the hops left say. -/
theorem reaches_of_visit
    (h : w.Visits (w.givenKey root depth taken) depth root none hops r came) :
    w.Reaches root (depth - hops) r := by
  induction h with
  | root =>
      rw [Nat.sub_self]
      exact .root
  | @onward hops r target next came role hVisit hReference hBeyond hOn ih =>
      have hHop := (hop_of_beyond hFinished hDistinct hVisit hReference hBeyond).1
      have hLe := hVisit.hops_le
      have hDepth : depth - hops = depth - (hops + 1) + 1 := by omega
      rw [hDepth]
      exact .hop ih hHop

/-- A node at distance `n` is visited with `depth - n` hops left, and from a node at distance `n - 1`:
neither of the two reasons to turn back can cut the last hop of a shortest path. -/
theorem visit_of_least (h : w.Reaches root n r) (hDepth : n ≤ depth)
    (hLeast : ∀ k, k < n → ¬ w.Reaches root k r) :
    ∃ came, w.Visits (w.givenKey root depth taken) depth root none (depth - n) r came ∧
      ∀ key, came = some key → ∃ q m, n = m + 1 ∧ w.Reaches root m q ∧ Identified s q ∧
        key = w.givenKey root depth taken q := by
  induction h with
  | root =>
      rw [Nat.sub_zero]
      exact ⟨none, .root, fun key hKey => by cases hKey⟩
  | @hop n r q hReach hHop ih =>
      have hLeastBefore : ∀ k, k < n → ¬ w.Reaches root k r := by
        intro k hk hNearer
        exact hLeast (k + 1) (by omega) (.hop hNearer hHop)
      obtain ⟨came, hVisit, hCame⟩ := ih (by omega) hLeastBefore
      have hLeft : depth - n = depth - (n + 1) + 1 := by omega
      rw [hLeft] at hVisit
      obtain ⟨role, target, hReference, hBeyond⟩ :=
        beyond_of_hop hFinished hDistinct hVisit hHop
      have hOwner : Identified s r := identified_of_visit hFinished hVisit
      have hNext : Identified s q :=
        (hop_of_beyond hFinished hDistinct hVisit hReference hBeyond).2
      have hOn : ¬ (came = some (w.givenKey root depth taken q) ∨
          w.givenKey root depth taken q = w.givenKey root depth taken r) := by
        rintro (hBack | hStay)
        · -- The node that the walk came from is two hops nearer than `q`.
          obtain ⟨before, m, hm, hBefore, hKnown, hKey⟩ := hCame _ hBack
          have hSame : q = before := eq_of_key_eq hFinished hDistinct hNext hKnown hKey
          rw [hSame] at hLeast
          exact hLeast m (by omega) hBefore
        · -- The owner is one hop nearer than `q`.
          have hSame : q = r := eq_of_key_eq hFinished hDistinct hNext hOwner hStay
          rw [hSame] at hLeast
          exact hLeast n (by omega) hReach
      refine ⟨_, .onward hVisit hReference hBeyond hOn, fun key hKey => ?_⟩
      exact ⟨r, n, rfl, hReach, hOwner, (Option.some.inj hKey).symm⟩

theorem enter_iff_reaches :
    Move.enter r ∈ w.trail (w.givenKey root depth taken) depth root none ↔
      ∃ n, n ≤ depth ∧ w.Reaches root n r := by
  rw [enter_mem_trail_iff]
  constructor
  · rintro ⟨hops, came, hVisit⟩
    exact ⟨depth - hops, Nat.sub_le _ _, reaches_of_visit hFinished hDistinct hVisit⟩
  · rintro ⟨n, hn, hReach⟩
    obtain ⟨m, hm, hLeastReach, hLeast⟩ := hReach.least
    obtain ⟨came, hVisit, -⟩ :=
      visit_of_least hFinished hDistinct hLeastReach (by omega) hLeast
    exact ⟨depth - m, came, hVisit⟩

theorem follow_iff_reaches :
    Move.follow r role target ∈ w.trail (w.givenKey root depth taken) depth root none ↔
      (role, target) ∈ w.referencesOf r ∧ ∃ n, n < depth ∧ w.Reaches root n r := by
  rw [follow_mem_trail_iff]
  refine and_congr_right fun _ => ?_
  constructor
  · rintro ⟨left, came, hVisit⟩
    have hLe := hVisit.hops_le
    exact ⟨depth - (left + 1), by omega, reaches_of_visit hFinished hDistinct hVisit⟩
  · rintro ⟨n, hn, hReach⟩
    obtain ⟨m, hm, hLeastReach, hLeast⟩ := hReach.least
    obtain ⟨came, hVisit, -⟩ :=
      visit_of_least hFinished hDistinct hLeastReach (by omega) hLeast
    have hLeft : depth - m = depth - (m + 1) + 1 := by omega
    rw [hLeft] at hVisit
    exact ⟨depth - (m + 1), came, hVisit⟩

/-- The objects of the planned nodes are those within the depth. -/
theorem planned_iff_reaches :
    r ∈ p.allNodes.map (·.ref) ↔ ∃ n, n ≤ depth ∧ w.Reaches root n r := by
  rw [← enter_iff_reaches hFinished hDistinct, ← hFinished.plan]
  constructor
  · intro h
    obtain ⟨n, hn, rfl⟩ := List.mem_map.1 h
    exact (hFinished.recorded.nodes.planned n hn).1
  · intro h
    obtain ⟨hKnown, d, -, n, hn, -, hIdentity⟩ := hFinished.recorded.nodes.entered r h
    -- The node may have been planned for another object with this key; there is none.
    obtain ⟨d', -, -, hGiven⟩ := planned_node hFinished (by rw [← hFinished.plan]; exact hn)
    have hSame : n.ref = r := by
      refine hDistinct n.ref r _ hGiven ?_
      rw [hIdentity]
      exact hFinished.identified_iff.1 hKnown
    exact List.mem_map.2 ⟨n, hn, hSame⟩

omit hDistinct in
/-- Each object is planned as one node at most. -/
theorem planned_nodup : (p.allNodes.map (·.ref)).Nodup := by
  rw [← hFinished.plan]
  have hPlaces := hFinished.recorded.nodes.distinct
  unfold List.Nodup at hPlaces ⊢
  rw [List.pairwise_map] at hPlaces ⊢
  refine hPlaces.imp_of_mem ?_
  intro a b ha hb hPlace hRef
  obtain ⟨-, d, i, params, hNode, hi, -, hA⟩ := hFinished.recorded.nodes.planned a ha
  obtain ⟨-, d', i', params', hNode', hi', -, hB⟩ := hFinished.recorded.nodes.planned b hb
  rw [hRef] at hNode hi
  rw [hi'] at hi
  cases hi
  have hType : d = d' := hNode.unique hNode'
  refine hPlace ?_
  rw [hA, hB, hType]
  rfl

theorem objects_iff_lists {object : Ref} : object ∈ s.objectsSeen ↔ w.Lists root depth object := by
  constructor
  · intro h
    obtain ⟨pairs, -, hObjects, hCarries⟩ := hFinished.recorded.objects.planned
    rw [← hObjects] at h
    obtain ⟨pair, hPair, rfl⟩ := List.mem_map.1 h
    obtain ⟨owner, role, d, start, finish, key, params, hMove, hObject, -, -⟩ := (hCarries pair hPair).1
    obtain ⟨hReference, n, hn, hReach⟩ := (follow_iff_reaches hFinished hDistinct).1 hMove
    exact ⟨n, owner, role, d, hn, hReach, hReference, hObject.1, hObject.2.1⟩
  · rintro ⟨n, r, role, d, hn, hReach, hReference, hType, hObject⟩
    have hMove := (follow_iff_reaches hFinished hDistinct).2 ⟨hReference, n, hn, hReach⟩
    rcases hFinished.recorded.objects.met r role object hMove with
      ⟨d', hNode⟩ | ⟨d', start, finish, other, -, hSeen, -, -, -⟩
    · rw [ok_unique hType hNode.1, hNode.2] at hObject
      cases hObject
    · exact hSeen

omit hDistinct in
/-- The relationships with an object of their own are those of the objects that were met, one for each,
with the keys of the objects. -/
theorem planned_objects : ∃ objects : List Ref, s.objectsSeen.Perm objects ∧
    List.Forall₂
      (fun e o => (∃ start finish, w.IsRelationshipOf root depth taken e o start finish) ∧
        w.Bears o e.key)
      (p.allEdges.filter (·.object)) objects := by
  obtain ⟨objects, hSame, hEach⟩ := hFinished.recorded.objects.each
  rw [hFinished.plan] at hEach
  exact ⟨objects, hSame,
    hEach.imp fun _ _ => And.imp_left fun hCarries => isRelationshipOf_of_carries hFinished hCarries⟩

end

/-- A plan covers exactly the ball around its root: its nodes are the objects that `depth` hops or fewer
reach, each once, and its relationships with an object of their own are those of the
relationship-objects listed nearer than that, one for each. -/
theorem make_covers_ball (w : Walker σ) (root : Ref) (depth taken : Nat) (p : Plan) (after : Nat)
    (hMade : Plan.make w.model w.registry w.heap root depth taken = (.ok p, after))
    (hDistinct : w.Distinguishes root depth taken) :
    (p.allNodes.map (·.ref)).Nodup ∧
    (∀ r, r ∈ p.allNodes.map (·.ref) ↔ ∃ n, n ≤ depth ∧ w.Reaches root n r) ∧
    ∃ objects : List Ref, objects.Nodup ∧ (∀ o, o ∈ objects ↔ w.Lists root depth o) ∧
      List.Forall₂
        (fun e o => ∃ start finish, w.IsRelationshipOf root depth taken e o start finish)
        (p.allEdges.filter (·.object)) objects := by
  obtain ⟨s, hFinished⟩ := finished_of_make hMade
  refine ⟨planned_nodup hFinished, fun r => planned_iff_reaches hFinished hDistinct, ?_⟩
  obtain ⟨objects, hSame, hEach⟩ := planned_objects hFinished
  refine ⟨objects, hSame.nodup_iff.1 hFinished.recorded.objects.once, fun o => ?_,
    hEach.imp fun _ _ hHere => hHere.1⟩
  rw [← hSame.mem_iff]
  exact objects_iff_lists hFinished hDistinct

theorem distinguishes_of_nodup
    (h : (((w.visit depth root none).run (.start taken)).2.identities.map (·.2.key)).Nodup) :
    w.Distinguishes root depth taken := by
  intro q r k hq hr
  unfold identityOf at hq hr
  obtain ⟨i, hi, hKey⟩ := Option.map_eq_some_iff.1 hq
  obtain ⟨j, hj, hKey'⟩ := Option.map_eq_some_iff.1 hr
  have hSame := List.inj_on_of_nodup_map h (mem_of_lookup hi) (mem_of_lookup hj)
    (hKey.trans hKey'.symm)
  exact congrArg Prod.fst hSame

end Walker

/-! A small graph with a cycle: two persons know each other and act in one movie, which is new. -/

namespace Cinema

def person : DeclaredType :=
  ⟨"Person", "Person", none,
    [⟨⟨"uuid", .scalar, "pk"⟩, .value .string⟩,
      ⟨⟨"friends", .many "Person", "relationship=KNOWS;direction=both"⟩, .many "Person"⟩,
      ⟨⟨"roles", .many "Role", "relationship=ACTED_IN;direction=outgoing"⟩, .many "Role"⟩], false⟩

def movie : DeclaredType :=
  ⟨"Movie", "Movie", none, [⟨⟨"uuid", .scalar, "pk"⟩, .value .string⟩], false⟩

def role : DeclaredType :=
  ⟨"Role", "ACTED_IN", some ("Person", "Movie"), [⟨⟨"name", .scalar, ""⟩, .value .string⟩], false⟩

/-- Keys `k0`, `k1` and so on. -/
def strategy : KeyStrategy :=
  ⟨"seq", "uuid", .string, .generated fun n => .string ("k" ++ toString n)⟩

/-- The registry of the three types. -/
def registry : Registry where
  strategy := strategy
  types := [
    ⟨"Person", "Person", [⟨"uuid", "uuid", .key false, false, false⟩,
      ⟨"friends", "friends", .relationship ⟨"KNOWS", .both, "Person", true⟩, false, false⟩,
      ⟨"roles", "roles", .relationship ⟨"ACTED_IN", .outgoing, "Role", true⟩, false, false⟩], none⟩,
    ⟨"Movie", "Movie", [⟨"uuid", "uuid", .key false, false, false⟩], none⟩,
    ⟨"Role", "ACTED_IN", [⟨"name", "name", .scalar false, false, false⟩], some ("Person", "Movie")⟩]
  relationships := [
    (⟨"Person", "KNOWS", "Person"⟩,
      ⟨some ⟨"Person", "friends", true, .both⟩, some ⟨"Person", "friends", true, .both⟩, none⟩),
    (⟨"Person", "ACTED_IN", "Movie"⟩, ⟨some ⟨"Person", "roles", true, .outgoing⟩, none, some "Role"⟩)]

def objects : Ref → Instance DeclaredObject
  | 0 => ⟨"Person", ⟨person, [("uuid", .string "ann")], [("friends", [1]), ("roles", [3])],
      ⟨none, none⟩, false⟩⟩
  | 1 => ⟨"Person", ⟨person, [("uuid", .string "bob")], [("friends", [0]), ("roles", [4])],
      ⟨none, none⟩, false⟩⟩
  | 2 => ⟨"Movie", ⟨movie, [], [], ⟨none, none⟩, false⟩⟩
  | 3 => ⟨"Role", ⟨role, [("name", .string "lead")], [], ⟨some 0, some 2⟩, false⟩⟩
  | _ => ⟨"Role", ⟨role, [("name", .string "thief")], [], ⟨some 1, some 2⟩, false⟩⟩

def walker : Walker DeclaredObject :=
  ⟨declaredModel [person, movie, role], registry, ⟨5, objects⟩⟩

/-- The plan to save the first person with two hops. -/
def plan : Plan where
  nodes := [
    ("Movie", [⟨"k0", "Movie", true, some (.string "k0"), [], 2⟩]),
    ("Person", [⟨"ann", "Person", false, some (.string "ann"), [], 0⟩,
      ⟨"bob", "Person", false, some (.string "bob"), [], 1⟩])]
  edges := [
    ("ACTED_IN", [⟨"bob", "k0", "ACTED_IN", false, true, none, [("name", .string "thief")]⟩,
      ⟨"ann", "k0", "ACTED_IN", false, true, none, [("name", .string "lead")]⟩]),
    ("KNOWS", [⟨"ann", "bob", "KNOWS", true, false, none, []⟩])]
  assigned := [⟨2, "uuid", .string "k0"⟩]

example : Registry.ofDecls strategy [person.decl, movie.decl, role.decl] = .ok registry := by rfl

end Cinema

theorem plan_covers_cinema :
    ([2, 0, 1] : List Ref).Nodup ∧
    (∀ r, r ∈ [2, 0, 1] ↔ ∃ n, n ≤ 2 ∧ Cinema.walker.Reaches 0 n r) ∧
    ∃ objects : List Ref, objects.Nodup ∧ (∀ o, o ∈ objects ↔ Cinema.walker.Lists 0 2 o) ∧
      List.Forall₂
        (fun e o => ∃ start finish, Cinema.walker.IsRelationshipOf 0 2 0 e o start finish)
        (Cinema.plan.allEdges.filter (·.object)) objects :=
  Walker.make_covers_ball Cinema.walker 0 2 0 Cinema.plan 1 (by rfl)
    (Walker.distinguishes_of_nodup (by decide +kernel))

end GraphMapping

import GraphMapping.Proofs.Walk.Records

/-!
# The visits of a walk

A walk visits a node with some hops left and with the key of the node it came from.  `Visits` says which
visits there are; what stands in the trail of a walk is exactly what its visits do.  The file ends with
what is known of a plan that was made: the state that its walk has left, and all it recorded.
-/

namespace GraphMapping

namespace Walker

open Walk WalkState

variable {σ : Type} (w : Walker σ)

/-- Walking from `root` for `depth` hops, coming from `start`, visits a node with some hops left, coming
from a node with some key. -/
inductive Visits (keyOf : Ref → String) (depth : Nat) (root : Ref) (start : Option String) :
    Nat → Ref → Option String → Prop
  | root : Visits keyOf depth root start depth root start
  | onward {hops : Nat} {r target next : Ref} {came : Option String} {role : RelationshipRole}
      (hVisit : Visits keyOf depth root start (hops + 1) r came)
      (hReference : (role, target) ∈ w.referencesOf r)
      (hBeyond : w.beyond keyOf r target = some next)
      (hOn : ¬ (came = some (keyOf next) ∨ keyOf next = keyOf r)) :
      Visits keyOf depth root start hops next (some (keyOf r))

variable {w} {keyOf : Ref → String} {depth hops : Nat} {root r target next : Ref}
  {start came : Option String} {role : RelationshipRole}

theorem Visits.hops_le (h : w.Visits keyOf depth root start hops r came) : hops ≤ depth := by
  induction h with
  | root => exact Nat.le_refl depth
  | onward _ _ _ _ ih => omega

/-- The walk from the first node that a walk goes on to is part of the whole walk. -/
theorem Visits.prepend (hReference : (role, target) ∈ w.referencesOf root)
    (hBeyond : w.beyond keyOf root target = some next)
    (hOn : ¬ (start = some (keyOf next) ∨ keyOf next = keyOf root))
    (h : w.Visits keyOf depth next (some (keyOf root)) hops r came) :
    w.Visits keyOf (depth + 1) root start hops r came := by
  induction h with
  | root => exact .onward .root hReference hBeyond hOn
  | onward _ hReference' hBeyond' hOn' ih => exact .onward ih hReference' hBeyond' hOn'

theorem trail_succ : w.trail keyOf (hops + 1) r came =
    .enter r :: (w.referencesOf r).flatMap (w.detour keyOf (w.trail keyOf hops) came r) := rfl

theorem enter_mem_trail : Move.enter r ∈ w.trail keyOf hops r came := by
  cases hops with
  | zero => exact List.mem_singleton.2 rfl
  | succ hops => exact List.mem_cons_self

theorem follow_mem_trail (hReference : (role, target) ∈ w.referencesOf r) :
    Move.follow r role target ∈ w.trail keyOf (hops + 1) r came := by
  rw [trail_succ]
  refine List.mem_cons_of_mem _ (List.mem_flatMap.2 ⟨(role, target), hReference, ?_⟩)
  exact List.mem_cons_self

theorem trail_subset_of_onward (hReference : (role, target) ∈ w.referencesOf r)
    (hBeyond : w.beyond keyOf r target = some next)
    (hOn : ¬ (came = some (keyOf next) ∨ keyOf next = keyOf r)) :
    w.trail keyOf hops next (some (keyOf r)) ⊆ w.trail keyOf (hops + 1) r came := by
  intro m hm
  rw [trail_succ]
  refine List.mem_cons_of_mem _ (List.mem_flatMap.2 ⟨(role, target), hReference, ?_⟩)
  simp only [detour, hBeyond, if_neg hOn]
  exact List.mem_cons_of_mem _ hm

theorem Visits.trail_subset (h : w.Visits keyOf depth root start hops r came) :
    w.trail keyOf hops r came ⊆ w.trail keyOf depth root start := by
  induction h with
  | root => exact List.Subset.refl _
  | onward _ hReference hBeyond hOn ih =>
      exact List.Subset.trans (trail_subset_of_onward hReference hBeyond hOn) ih

/-- Whatever stands in a trail is done by one of the visits. -/
theorem mem_trail_cases {m : Move} (h : m ∈ w.trail keyOf depth root start) :
    ∃ hops r came, w.Visits keyOf depth root start hops r came ∧
      (m = .enter r ∨ ∃ left role target, hops = left + 1 ∧ (role, target) ∈ w.referencesOf r ∧
        m = .follow r role target) := by
  induction depth generalizing root start with
  | zero =>
      cases List.mem_singleton.1 h
      exact ⟨0, root, start, .root, .inl rfl⟩
  | succ depth ih =>
      rw [trail_succ] at h
      rcases List.mem_cons.1 h with rfl | h
      · exact ⟨depth + 1, root, start, .root, .inl rfl⟩
      · obtain ⟨⟨role, target⟩, hReference, h⟩ := List.mem_flatMap.1 h
        rcases List.mem_cons.1 h with rfl | h
        · exact ⟨depth + 1, root, start, .root, .inr ⟨depth, role, target, rfl, hReference, rfl⟩⟩
        · cases hBeyond : w.beyond keyOf root target with
          | none =>
              simp only [hBeyond] at h
              cases h
          | some next =>
              simp only [hBeyond] at h
              split at h
              · cases h
              · rename_i hOn
                -- A visit of the shorter walk onward is a visit of the whole walk.
                obtain ⟨hops, r, came, hVisit, hm⟩ := ih h
                exact ⟨hops, r, came, hVisit.prepend hReference hBeyond hOn, hm⟩

theorem enter_mem_trail_iff : Move.enter r ∈ w.trail keyOf depth root start ↔
    ∃ hops came, w.Visits keyOf depth root start hops r came := by
  constructor
  · intro h
    obtain ⟨hops, q, came, hVisit, hm | ⟨_, _, _, _, _, hm⟩⟩ := mem_trail_cases h
    · cases hm
      exact ⟨hops, came, hVisit⟩
    · cases hm
  · rintro ⟨hops, came, hVisit⟩
    exact hVisit.trail_subset enter_mem_trail

theorem follow_mem_trail_iff : Move.follow r role target ∈ w.trail keyOf depth root start ↔
    (role, target) ∈ w.referencesOf r ∧
      ∃ left came, w.Visits keyOf depth root start (left + 1) r came := by
  constructor
  · intro h
    obtain ⟨hops, q, came, hVisit, hm | ⟨left, role', target', rfl, hReference, hm⟩⟩ :=
      mem_trail_cases h
    · cases hm
    · cases hm
      exact ⟨hReference, left, came, hVisit⟩
  · rintro ⟨hReference, left, came, hVisit⟩
    exact hVisit.trail_subset (follow_mem_trail hReference)

/-! ## Plans that were made -/

/-- The identity that a walk has given to an object. -/
def identityOf (w : Walker σ) (root : Ref) (depth taken : Nat) (r : Ref) : Option String :=
  (((w.visit depth root none).run (.start taken)).2.identities.lookup r).map (·.key)

/-- The identity that a walk has given to an object, as a key. -/
def givenKey (w : Walker σ) (root : Ref) (depth taken : Nat) (r : Ref) : String :=
  (w.identityOf root depth taken r).getD ""

/-- The plan of a successful walk with the state that the walk has left. -/
structure Finished (w : Walker σ) (root : Ref) (depth taken : Nat) (p : Plan) (s : WalkState) :
    Prop where
  plan : s.plan = p
  identity : ∀ r, w.identityOf root depth taken r = (s.identities.lookup r).map (·.key)
  recorded : w.Recorded (w.givenKey root depth taken)
    (w.trail (w.givenKey root depth taken) depth root none) s

theorem make_cases {taken after : Nat} {p : Plan}
    (h : Plan.make w.model w.registry w.heap root depth taken = (.ok p, after)) :
    ∃ s, Gives (w.visit depth root none) (.start taken) () s ∧ s.plan = p ∧ s.taken = after := by
  unfold Plan.make at h
  split at h
  · cases h
  · cases h
  · rcases hRun : (w.visit depth root none).run (.start taken) with ⟨result, s⟩
    simp only [hRun] at h
    cases result with
    | error e => cases h
    | ok u =>
        cases h
        exact ⟨s, hRun, rfl, rfl⟩

/-- The walk of a plan that was made has taken the moves of its trail, under the keys that it gave. -/
theorem takes_of_make {taken after : Nat} {p : Plan}
    (h : Plan.make w.model w.registry w.heap root depth taken = (.ok p, after)) :
    ∃ s, s.plan = p ∧ s.taken = after ∧
      (∀ r, w.identityOf root depth taken r = (s.identities.lookup r).map (·.key)) ∧
      w.Takes (w.givenKey root depth taken) (w.trail (w.givenKey root depth taken) depth root none)
        (.start taken) s := by
  obtain ⟨s, hGives, hPlan, hAfter⟩ := make_cases h
  have hIdentity : ∀ r, w.identityOf root depth taken r = (s.identities.lookup r).map (·.key) := by
    intro r
    unfold identityOf
    rw [hGives]
  have hAgrees : s.Agrees (w.givenKey root depth taken) := by
    intro q i hi
    unfold givenKey
    rw [hIdentity, hi]
    rfl
  exact ⟨s, hPlan, hAfter, hIdentity, (visit_takes w depth root none _ _ hGives).2 _ hAgrees⟩

/-- The object at which a walk starts is planned as itself. -/
theorem planned_of_root {taken after : Nat} {p : Plan}
    (h : Plan.make w.model w.registry w.heap root depth taken = (.ok p, after)) :
    ∃ n ∈ p.allNodes, n.ref = root := by
  obtain ⟨s, rfl, -, -, hTakes⟩ := takes_of_make h
  cases depth with
  | zero => exact planned_first hTakes
  | succ depth => exact planned_first hTakes

/-- The walk of a plan that was made has finished, and all it recorded is known. -/
theorem finished_of_make {taken after : Nat} {p : Plan}
    (h : Plan.make w.model w.registry w.heap root depth taken = (.ok p, after)) :
    ∃ s, w.Finished root depth taken p s := by
  obtain ⟨s, hPlan, -, hIdentity, hTakes⟩ := takes_of_make h
  exact ⟨s, hPlan, hIdentity, .of_takes hTakes⟩

theorem givenKey_of_identityOf {taken : Nat} {key : String}
    (h : w.identityOf root depth taken r = some key) : w.givenKey root depth taken r = key := by
  unfold givenKey
  rw [h]
  rfl

theorem Finished.given {taken : Nat} {p : Plan} {s : WalkState} {i : Identity}
    (h : w.Finished root depth taken p s) (hi : s.identities.lookup r = some i) :
    w.givenKey root depth taken r = i.key := by
  refine givenKey_of_identityOf ?_
  rw [h.identity, hi]
  rfl

theorem Finished.identified_iff {taken : Nat} {p : Plan} {s : WalkState}
    (h : w.Finished root depth taken p s) : Identified s r ↔
      w.identityOf root depth taken r = some (w.givenKey root depth taken r) := by
  unfold givenKey
  rw [h.identity r]
  constructor
  · rintro ⟨i, hi⟩
    rw [hi]
    rfl
  · intro hKey
    cases hLookup : s.identities.lookup r with
    | none =>
        rw [hLookup] at hKey
        cases hKey
    | some i => exact ⟨i, hLookup⟩

end Walker

end GraphMapping

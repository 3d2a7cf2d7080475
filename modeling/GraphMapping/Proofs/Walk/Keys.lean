import GraphMapping.Proofs.Dict.Lookup
import GraphMapping.Proofs.Walk.Relations

/-!
# The keys that a walk gives

A walk identifies an object when it enters it, or when it follows a reference to it or to a
relationship-object with it as an end.  The identity is the key that the object holds, a temporary one,
or a key from the generator, and is given once.  A relationship-object gets a key of its own, once too,
when its relationship is recorded.  The two invariants of this file say where all of these keys are.
-/

namespace GraphMapping

namespace KeyStrategy

theorem generate_some {strategy : KeyStrategy} {n : Nat} {v : Value}
    (h : (strategy.generate n).1 = .ok (some v)) : (strategy.generate n).2 = n + 1 := by
  unfold generate at h ⊢
  cases hSource : strategy.source with
  | database =>
      rw [hSource] at h
      cases h
  | generated sequence =>
      simp only
      split <;> rfl

/-- A generator that does not fail gives a value. -/
theorem generate_ok {strategy : KeyStrategy} {n : Nat} {v : Option Value}
    (hNative : strategy.isNative = false) (h : (strategy.generate n).1 = .ok v) :
    ∃ value, v = some value := by
  unfold generate at h
  cases hSource : strategy.source with
  | database =>
      unfold isNative at hNative
      rw [hSource] at hNative
      cases hNative
  | generated sequence =>
      rw [hSource] at h
      simp only at h
      split at h
      · cases h
        exact ⟨_, rfl⟩
      · cases h

end KeyStrategy

namespace Walker

open Walk WalkState

variable {σ : Type} (w : Walker σ)

/-- A move identifies an object: it enters it, or it follows a reference to it or to a
relationship-object with it as an end. -/
inductive Concerns : Move → Ref → Prop
  | entered {r : Ref} : Concerns (.enter r) r
  | target {owner target : Ref} {role : RelationshipRole} {d : TypeDescriptor}
      (hNode : w.NodeAs target d) : Concerns (.follow owner role target) target
  | start {owner object start finish : Ref} {role : RelationshipRole} {d : TypeDescriptor}
      (hObject : w.ObjectAs object d start finish) : Concerns (.follow owner role object) start
  | finish {owner object start finish : Ref} {role : RelationshipRole} {d : TypeDescriptor}
      (hObject : w.ObjectAs object d start finish) : Concerns (.follow owner role object) finish

/-- Where the identity of an object comes from: it holds a key, or it holds none, and then the
database numbers it later or the generator makes its key. -/
inductive Origin (r : Ref) : Identity → Prop
  | held {d : TypeDescriptor} {pk : FieldDescriptor} {key : String}
      (hType : w.descriptor r = .ok d) (hPk : d.key? = some pk)
      (hHeld : (w.heap.value w.model r pk.field).key? = some key) : Origin r ⟨key, false, none⟩
  | temporary {d : TypeDescriptor} {pk : FieldDescriptor} {n : Nat}
      (hType : w.descriptor r = .ok d) (hPk : d.key? = some pk)
      (hNone : (w.heap.value w.model r pk.field).key? = none)
      (hNative : w.registry.strategy.isNative = true) :
      Origin r ⟨temporaryFront ++ toString n, true, none⟩
  | generated {d : TypeDescriptor} {pk : FieldDescriptor} {v : Value} {key : String}
      (hType : w.descriptor r = .ok d) (hPk : d.key? = some pk)
      (hNone : (w.heap.value w.model r pk.field).key? = none)
      (hNative : w.registry.strategy.isNative = false) (hKey : v.key? = some key) :
      Origin r ⟨key, true, some v⟩

/-- What a walk knows of the objects that it has identified. -/
structure IdentityRecords (moves : List Move) (s : WalkState) : Prop where
  reason : ∀ r, Identified s r → ∃ m ∈ moves, w.Concerns m r
  origin : ∀ r i, s.identities.lookup r = some i → w.Origin r i
  temporary : ∀ r i, s.identities.lookup r = some i → i.isNew = true → i.generated = none →
    ∃ n, n ≤ s.temporaries ∧ i.key = temporaryFront ++ toString n
  apart : ∀ q r i j, s.identities.lookup q = some i → s.identities.lookup r = some j →
    i.isNew = true → j.isNew = true → i.generated = none → j.generated = none → i.key = j.key → q = r

/-- A generated key is the identity of its object, which held none. -/
def NodeKey (s : WalkState) (a : AssignedKey) : Prop :=
  ∃ d pk key, w.descriptor a.ref = .ok d ∧ d.key? = some pk ∧ a.field = pk.field ∧
    (w.heap.value w.model a.ref pk.field).key? = none ∧ a.value.key? = some key ∧
    s.identities.lookup a.ref = some ⟨key, true, some a.value⟩

/-- A generated key is that of the relationship of a relationship-object, which held none. -/
def ObjectKey (keyOf : Ref → String) (moves : List Move) (s : WalkState) (a : AssignedKey) : Prop :=
  a.ref ∈ s.objectsSeen ∧ ∃ d pk start finish e, w.ObjectAs a.ref d start finish ∧
    d.key? = some pk ∧ a.field = pk.field ∧ (w.heap.value w.model a.ref pk.field).key? = none ∧
    e ∈ s.plan.allEdges ∧ w.Carries keyOf moves e a.ref ∧ e.key = some a.value

/-- What a walk has put down of generated keys: they are the values of the generator in order, each the
identity of an object or the key of a relationship-object, once for each. -/
structure KeyRecords (taken : Nat) (keyOf : Ref → String) (moves : List Move) (s : WalkState) :
    Prop where
  count : s.taken = taken + s.plan.assigned.length
  values : s.plan.assigned.map (fun a => (.ok (some a.value) : Except Error (Option Value))) =
    (List.range' taken s.plan.assigned.length).map fun n => (w.registry.strategy.generate n).1
  parts : ∃ forNodes forObjects : List AssignedKey,
    s.plan.assigned.Perm (forNodes ++ forObjects) ∧ (forNodes.map (·.ref)).Nodup ∧
    (forObjects.map (·.ref)).Nodup ∧ (∀ a ∈ forNodes, w.NodeKey s a) ∧
    ∀ a ∈ forObjects, w.ObjectKey keyOf moves s a
  known : ∀ r i v, s.identities.lookup r = some i → i.generated = some v →
    ∃ d pk, w.descriptor r = .ok d ∧ d.key? = some pk ∧ ⟨r, pk.field, v⟩ ∈ s.plan.assigned

variable {w} {keyOf : Ref → String} {moves : List Move} {m : Move} {s t : WalkState} {taken : Nat}
  {r q : Ref} {d : TypeDescriptor} {i j : Identity}

/-! ## The steps of a move -/

/-- What every step of a move keeps, the move keeps. -/
theorem Moves.preserves {P : WalkState → Prop} (h : w.Moves keyOf m s t)
    (hIdentify : ∀ r d i s t, w.Concerns m r → w.descriptor r = .ok d →
      Gives (w.identify r d) s i t → P s → P t)
    (hNode : ∀ r d i s t, Gives (w.recordNode r d i) s () t → P s → P t)
    (hEdge : ∀ e s t, Gives (recordEdge e) s () t → P s → P t)
    (hObject : ∀ owner role r d start finish s t, m = .follow owner role r →
      w.ObjectAs r d start finish →
      Gives (w.recordObject r d role.label (keyOf start) (keyOf finish)) s () t → P s → P t)
    (hs : P s) : P t := by
  cases h with
  | enter hType _ hIdentified _ hRecord =>
      exact hNode _ _ _ _ _ hRecord (hIdentify _ _ _ _ _ .entered hType hIdentified hs)
  | plain hType hTarget hIdentified _ hRecord =>
      exact hEdge _ _ _ hRecord
        (hIdentify _ _ _ _ _ (.target ⟨hType, hTarget⟩) hType hIdentified hs)
  | object hType hIsObject hEnds hStartType hStart _ hFinishType hFinish _ _ hRecord =>
      have hAs := And.intro hType (And.intro hIsObject hEnds)
      have hFirst := hIdentify _ _ _ _ _ (.start hAs) hStartType hStart hs
      have hSecond := hIdentify _ _ _ _ _ (.finish hAs) hFinishType hFinish hFirst
      exact hObject _ _ _ _ _ _ _ _ rfl hAs hRecord hSecond

/-- The four ways to an identity: it is known, or held, or temporary, or generated. -/
theorem identify_ways (h : Gives (w.identify r d) s i t) :
    (s.identities.lookup r = some i ∧ t = s) ∨
    ∃ pk, s.identities.lookup r = none ∧ d.key? = some pk ∧
      ((∃ key, (w.heap.value w.model r pk.field).key? = some key ∧ i = ⟨key, false, none⟩ ∧
          t = { s with identities := (r, i) :: s.identities }) ∨
        ((w.heap.value w.model r pk.field).key? = none ∧ w.registry.strategy.isNative = true ∧
          i = ⟨temporaryFront ++ toString (s.temporaries + 1), true, none⟩ ∧
          t = { s with
            temporaries := s.temporaries + 1
            identities := (r, i) :: s.identities }) ∨
        ∃ v key, (w.heap.value w.model r pk.field).key? = none ∧
          w.registry.strategy.isNative = false ∧
          (w.registry.strategy.generate s.taken).1 = .ok (some v) ∧ v.key? = some key ∧
          i = ⟨key, true, some v⟩ ∧
          t = { s with
            taken := (w.registry.strategy.generate s.taken).2
            identities := (r, i) :: s.identities
            plan := { s.plan with assigned := s.plan.assigned ++ [⟨r, pk.field, v⟩] } }) := by
  obtain hKnown | ⟨pk, hNew, hPk, hHeld | ⟨hNone, u, hGives, rfl⟩⟩ := identify_cases h
  · exact .inl hKnown
  · exact .inr ⟨pk, hNew, hPk, .inl hHeld⟩
  · obtain ⟨hNative, hi, rfl⟩ | ⟨v, key, hNative, hValue, hKey, hi, rfl⟩ := newIdentity_cases hGives
    · exact .inr ⟨pk, hNew, hPk, .inr (.inl ⟨hNone, hNative, hi, rfl⟩)⟩
    · exact .inr ⟨pk, hNew, hPk, .inr (.inr ⟨v, key, hNone, hNative, hValue, hKey, hi, rfl⟩)⟩

theorem lookup_cons_cases {table : List (Ref × Identity)}
    (h : ((r, i) :: table).lookup q = some j) :
    (q = r ∧ j = i) ∨ (q ≠ r ∧ table.lookup q = some j) := by
  rw [List.lookup_cons] at h
  by_cases hSame : q = r
  · rw [beq_iff_eq.2 hSame] at h
    exact .inl ⟨hSame, (Option.some.inj h).symm⟩
  · rw [beq_eq_false_iff_ne.2 hSame] at h
    exact .inr ⟨hSame, h⟩

/-! ## Identities -/

theorem IdentityRecords.more (h : w.IdentityRecords moves s) :
    w.IdentityRecords (moves ++ [m]) s :=
  { h with reason := fun r hr => (h.reason r hr).imp fun _ hm => ⟨List.mem_append_left _ hm.1, hm.2⟩ }

theorem IdentityRecords.of_same (h : w.IdentityRecords moves s) (hSame : t.identities = s.identities)
    (hTemporaries : t.temporaries = s.temporaries) : w.IdentityRecords moves t := by
  refine ⟨fun r hr => h.reason r ?_, ?_, ?_, ?_⟩
  · unfold Identified at hr ⊢
    rw [← hSame]
    exact hr
  · rw [hSame]
    exact h.origin
  · rw [hSame, hTemporaries]
    exact h.temporary
  · rw [hSame]
    exact h.apart

/-- A new entry must have a reason and an origin; a temporary one must have the next number. -/
theorem IdentityRecords.add (h : w.IdentityRecords moves s) (hIdentities : t.identities =
      (r, i) :: s.identities) (hTemporaries : s.temporaries ≤ t.temporaries)
    (hReason : ∃ m ∈ moves, w.Concerns m r) (hOrigin : w.Origin r i)
    (hNumber : i.isNew = true → i.generated = none →
      s.temporaries < t.temporaries ∧ i.key = temporaryFront ++ toString t.temporaries) :
    w.IdentityRecords moves t := by
  have hOld : ∀ q j, s.identities.lookup q = some j → j.isNew = true → j.generated = none →
      i.isNew = true → i.generated = none → i.key ≠ j.key := by
    intro q j hq hNewJ hNoneJ hNewI hNoneI hKey
    obtain ⟨n, hn, hKeyJ⟩ := h.temporary q j hq hNewJ hNoneJ
    obtain ⟨hLess, hKeyI⟩ := hNumber hNewI hNoneI
    rw [hKeyI, hKeyJ] at hKey
    have hSame := Dict.numbered_inj hKey
    omega
  refine ⟨?_, ?_, ?_, ?_⟩
  · rintro q ⟨j, hj⟩
    rw [hIdentities] at hj
    rcases lookup_cons_cases hj with ⟨rfl, -⟩ | ⟨-, hj⟩
    · exact hReason
    · exact h.reason q ⟨j, hj⟩
  · intro q j hj
    rw [hIdentities] at hj
    rcases lookup_cons_cases hj with ⟨rfl, rfl⟩ | ⟨-, hj⟩
    · exact hOrigin
    · exact h.origin q j hj
  · intro q j hj hNew hNone
    rw [hIdentities] at hj
    rcases lookup_cons_cases hj with ⟨rfl, rfl⟩ | ⟨-, hj⟩
    · exact ⟨t.temporaries, Nat.le_refl _, (hNumber hNew hNone).2⟩
    · obtain ⟨n, hn, hKey⟩ := h.temporary q j hj hNew hNone
      exact ⟨n, Nat.le_trans hn hTemporaries, hKey⟩
  · intro p q j k hj hk hNewJ hNewK hNoneJ hNoneK hKey
    rw [hIdentities] at hj hk
    rcases lookup_cons_cases hj with ⟨rfl, rfl⟩ | ⟨-, hBefore⟩ <;>
      rcases lookup_cons_cases hk with ⟨rfl, rfl⟩ | ⟨-, hBefore'⟩
    · rfl
    · exact absurd hKey (hOld q k hBefore' hNewK hNoneK hNewJ hNoneJ)
    · exact absurd hKey.symm (hOld p j hBefore hNewJ hNoneJ hNewK hNoneK)
    · exact h.apart p q j k hBefore hBefore' hNewJ hNewK hNoneJ hNoneK hKey

theorem IdentityRecords.identify (h : w.IdentityRecords moves s)
    (hReason : ∃ m ∈ moves, w.Concerns m r) (hType : w.descriptor r = .ok d)
    (hIdentify : Gives (w.identify r d) s i t) : w.IdentityRecords moves t := by
  obtain ⟨-, rfl⟩ | ⟨pk, -, hPk, ⟨key, hHeld, rfl, rfl⟩ | ⟨hNone, hNative, rfl, rfl⟩ |
    ⟨v, key, hNone, hNative, -, hKey, rfl, rfl⟩⟩ := identify_ways hIdentify
  · exact h
  · refine h.add rfl (Nat.le_refl _) hReason (.held hType hPk hHeld) fun hNew _ => ?_
    cases hNew
  · refine h.add rfl (Nat.le_succ _) hReason (.temporary hType hPk hNone hNative) fun _ _ => ?_
    exact ⟨Nat.lt_succ_self _, rfl⟩
  · refine h.add rfl (Nat.le_refl _) hReason (.generated hType hPk hNone hNative hKey) fun _ hNo => ?_
    cases hNo

theorem objectKey_temporaries {v : Option Value} (h : Gives (w.objectKey r d) s v t) :
    t.temporaries = s.temporaries := by
  obtain ⟨-, rfl, -⟩ | ⟨pk, -, -, ⟨-, -, rfl⟩ | ⟨-, -, rfl⟩⟩ := objectKey_cases h <;> rfl

theorem IdentityRecords.step (h : w.IdentityRecords moves s) (hMove : w.Moves keyOf m s t) :
    w.IdentityRecords (moves ++ [m]) t := by
  refine hMove.preserves (P := w.IdentityRecords (moves ++ [m])) ?_ ?_ ?_ ?_ h.more
  · intro r d i s t hConcerns hType hIdentify hs
    exact hs.identify ⟨m, List.mem_append_right _ (List.mem_singleton.2 rfl), hConcerns⟩ hType
      hIdentify
  · intro r d i s t hRecord hs
    obtain ⟨-, rfl⟩ | ⟨params, -, -, rfl⟩ := recordNode_iff.1 hRecord
    · exact hs
    · exact hs.of_same rfl rfl
  · intro e s t hRecord hs
    obtain ⟨-, rfl⟩ | ⟨-, rfl⟩ := recordEdge_iff.1 hRecord
    · exact hs
    · exact hs.of_same rfl rfl
  · intro owner role r d start finish s t _ _ hRecord hs
    obtain ⟨-, rfl⟩ | ⟨key, params, v, -, hKey, -, rfl⟩ := recordObject_iff.1 hRecord
    · exact hs
    · have hCount := objectKey_temporaries hKey
      exact hs.of_same (objectKey_sameRecords hKey).2 hCount

theorem IdentityRecords.of_takes (h : w.Takes keyOf moves (.start taken) t) :
    w.IdentityRecords moves t := by
  have hStart : w.IdentityRecords [] (.start taken) := by
    refine ⟨?_, ?_, ?_, ?_⟩
    · rintro r ⟨i, hi⟩
      cases hi
    · intro r i hi
      cases hi
    · intro r i hi
      cases hi
    · intro q r i j hi
      cases hi
  have hAll := h.invariant (fun ms m s t hs hMove => hs.step hMove) hStart
  exact hAll

/-! ## Generated keys -/

theorem NodeKey.mono {a : AssignedKey} (h : w.NodeKey s a) (hRemembers : Remembers s t) :
    w.NodeKey t a := by
  obtain ⟨d, pk, key, hType, hPk, hField, hNone, hKey, hKnown⟩ := h
  exact ⟨d, pk, key, hType, hPk, hField, hNone, hKey, hRemembers _ _ hKnown⟩

theorem ObjectKey.mono {a : AssignedKey} (h : w.ObjectKey keyOf moves s a)
    (hObjects : s.objectsSeen ⊆ t.objectsSeen) (hEdges : s.plan.allEdges ⊆ t.plan.allEdges) :
    w.ObjectKey keyOf moves t a := by
  obtain ⟨hSeen, d, pk, start, finish, e, hAs, hPk, hField, hNone, he, hCarries, hKey⟩ := h
  exact ⟨hObjects hSeen, d, pk, start, finish, e, hAs, hPk, hField, hNone, hEdges he, hCarries, hKey⟩

theorem KeyRecords.more (h : w.KeyRecords taken keyOf moves s) :
    w.KeyRecords taken keyOf (moves ++ [m]) s := by
  obtain ⟨forNodes, forObjects, hPerm, hOnce, hOnce', hNodes, hObjects⟩ := h.parts
  refine ⟨h.count, h.values, ⟨forNodes, forObjects, hPerm, hOnce, hOnce', hNodes, ?_⟩, h.known⟩
  intro a ha
  obtain ⟨hSeen, d, pk, start, finish, e, hAs, hPk, hField, hNone, he, hCarries, hKey⟩ := hObjects a ha
  exact ⟨hSeen, d, pk, start, finish, e, hAs, hPk, hField, hNone, he, hCarries.mono, hKey⟩

/-- Steps that generate no key. -/
theorem KeyRecords.of_same (h : w.KeyRecords taken keyOf moves s) (hTaken : t.taken = s.taken)
    (hAssigned : t.plan.assigned = s.plan.assigned) (hRemembers : Remembers s t)
    (hKnown : ∀ r i v, t.identities.lookup r = some i → i.generated = some v →
      s.identities.lookup r = some i)
    (hObjects : s.objectsSeen ⊆ t.objectsSeen) (hEdges : s.plan.allEdges ⊆ t.plan.allEdges) :
    w.KeyRecords taken keyOf moves t := by
  obtain ⟨forNodes, forObjects, hPerm, hOnce, hOnce', hNodes, hCarried⟩ := h.parts
  refine ⟨?_, ?_, ⟨forNodes, forObjects, ?_, hOnce, hOnce', fun a ha => (hNodes a ha).mono hRemembers,
    fun a ha => (hCarried a ha).mono hObjects hEdges⟩, ?_⟩
  · rw [hTaken, hAssigned]
    exact h.count
  · rw [hAssigned]
    exact h.values
  · rw [hAssigned]
    exact hPerm
  · intro r i v hi hv
    rw [hAssigned]
    exact h.known r i v (hKnown r i v hi hv) hv

/-- The next value of the generator goes to one more object. -/
theorem KeyRecords.generate (h : w.KeyRecords taken keyOf moves s) {a : AssignedKey}
    (hValue : (w.registry.strategy.generate s.taken).1 = .ok (some a.value)) :
    (w.registry.strategy.generate s.taken).2 = taken + (s.plan.assigned ++ [a]).length ∧
      (s.plan.assigned ++ [a]).map (fun a => (.ok (some a.value) : Except Error (Option Value))) =
        (List.range' taken (s.plan.assigned ++ [a]).length).map fun n =>
          (w.registry.strategy.generate n).1 := by
  constructor
  · rw [KeyStrategy.generate_some hValue, h.count, List.length_append, List.length_singleton,
      Nat.add_assoc]
  · rw [h.count] at hValue
    rw [List.length_append, List.length_singleton, List.range'_1_concat, List.map_append,
      List.map_append, h.values, List.map_singleton, List.map_singleton, hValue]

/-- A generated identity stays in the list of keys when another key is put down. -/
theorem KeyRecords.known_append (h : w.KeyRecords taken keyOf moves s) (a : AssignedKey) {v : Value}
    (hj : s.identities.lookup q = some j) (hv : j.generated = some v) :
    ∃ d pk, w.descriptor q = .ok d ∧ d.key? = some pk ∧
      ⟨q, pk.field, v⟩ ∈ s.plan.assigned ++ [a] := by
  obtain ⟨d, pk, hType, hPk, hMem⟩ := h.known q j v hj hv
  exact ⟨d, pk, hType, hPk, List.mem_append_left _ hMem⟩

theorem KeyRecords.identify (h : w.KeyRecords taken keyOf moves s) (hType : w.descriptor r = .ok d)
    (hIdentify : Gives (w.identify r d) s i t) : w.KeyRecords taken keyOf moves t := by
  obtain ⟨hSame, hRemembers, hNow⟩ := identify_keeps hIdentify
  have hEdges : s.plan.allEdges ⊆ t.plan.allEdges := by
    rw [Plan.allEdges_eq, Plan.allEdges_eq, hSame.edges]
    exact List.Subset.refl _
  have hObjects : s.objectsSeen ⊆ t.objectsSeen := by
    rw [hSame.objectsSeen]
    exact List.Subset.refl _
  obtain ⟨-, rfl⟩ | ⟨pk, hNew, hPk, ⟨key, hHeld, rfl, rfl⟩ | ⟨hNone, hNative, rfl, rfl⟩ |
    ⟨v, key, hNone, hNative, hValue, hKey, rfl, rfl⟩⟩ := identify_ways hIdentify
  · exact h
  · refine h.of_same rfl rfl hRemembers (fun q j x hj hx => ?_) hObjects hEdges
    rcases lookup_cons_cases hj with ⟨rfl, rfl⟩ | ⟨-, hj⟩
    · cases hx
    · exact hj
  · refine h.of_same rfl rfl hRemembers (fun q j x hj hx => ?_) hObjects hEdges
    rcases lookup_cons_cases hj with ⟨rfl, rfl⟩ | ⟨-, hj⟩
    · cases hx
    · exact hj
  · obtain ⟨forNodes, forObjects, hPerm, hOnce, hOnce', hNodes, hCarried⟩ := h.parts
    obtain ⟨hCount, hValues⟩ := h.generate (a := ⟨r, pk.field, v⟩) hValue
    refine ⟨hCount, hValues, ⟨⟨r, pk.field, v⟩ :: forNodes, forObjects, ?_, ?_, hOnce', ?_, ?_⟩, ?_⟩
    · refine (List.perm_append_singleton _ s.plan.assigned).trans ?_
      exact hPerm.cons _
    · -- An object that got a generated key before is identified.
      refine List.nodup_cons.2 ⟨fun hMem => ?_, hOnce⟩
      obtain ⟨a, ha, hRef⟩ := List.mem_map.1 hMem
      obtain ⟨_, _, _, -, -, -, -, -, hKnown⟩ := hNodes a ha
      rw [hRef, hNew] at hKnown
      cases hKnown
    · intro a ha
      rcases List.mem_cons.1 ha with rfl | ha
      · exact ⟨d, pk, key, hType, hPk, rfl, hNone, hKey, hNow⟩
      · exact (hNodes a ha).mono hRemembers
    · exact fun a ha => (hCarried a ha).mono hObjects hEdges
    · intro q j x hj hx
      rcases lookup_cons_cases hj with ⟨rfl, rfl⟩ | ⟨-, hj⟩
      · cases hx
        exact ⟨d, pk, hType, hPk, List.mem_append_right _ (List.mem_singleton.2 rfl)⟩
      · exact h.known_append _ hj hx

theorem KeyRecords.recordObject {owner start finish : Ref} {role : RelationshipRole}
    (hSorted : Dict.Sorted s.plan.edges) (h : w.KeyRecords taken keyOf moves s)
    (hMove : Move.follow owner role r ∈ moves) (hAs : w.ObjectAs r d start finish)
    (hRecord : Gives (w.recordObject r d role.label (keyOf start) (keyOf finish)) s () t) :
    w.KeyRecords taken keyOf moves t := by
  obtain ⟨-, rfl⟩ | ⟨key, params, u, hNew, hKey, hParams, rfl⟩ := recordObject_iff.1 hRecord
  · exact h
  obtain ⟨hSame, hIdentities⟩ := objectKey_sameRecords hKey
  have hEdges : u.plan.edges = s.plan.edges := hSame.edges
  have hSeen : u.objectsSeen = r :: s.objectsSeen := hSame.objectsSeen
  have hAll : ∀ e, e ∈ Dict.members (u.plan.edges.push role.label
      ⟨keyOf start, keyOf finish, role.label, false, true, key, params⟩) ↔
      e ∈ s.plan.allEdges ∨
        e = ⟨keyOf start, keyOf finish, role.label, false, true, key, params⟩ := by
    intro e
    rw [hEdges, Dict.mem_members_push hSorted, Plan.allEdges_eq]
  have hRemembers : Remembers s u := .of_eq hIdentities
  obtain ⟨forNodes, forObjects, hPerm, hOnce, hOnce', hNodes, hCarried⟩ := h.parts
  have hOld : ∀ a, w.ObjectKey keyOf moves s a → w.ObjectKey keyOf moves
      { u with plan := { u.plan with edges := (u.plan.edges.push role.label
        ⟨keyOf start, keyOf finish, role.label, false, true, key, params⟩) } } a := by
    intro a ha
    refine ha.mono ?_ fun e he => (hAll e).2 (.inl he)
    change s.objectsSeen ⊆ u.objectsSeen
    rw [hSeen]
    exact List.subset_cons_self _ _
  -- A value was generated for the object, or nothing was.
  obtain ⟨-, rfl, -⟩ | ⟨pk, hPk, hNative, ⟨-, -, rfl⟩ | ⟨hNone, hValue, rfl⟩⟩ := objectKey_cases hKey
  · exact ⟨h.count, h.values, ⟨forNodes, forObjects, hPerm, hOnce, hOnce', hNodes,
      fun a ha => hOld a (hCarried a ha)⟩, h.known⟩
  · exact ⟨h.count, h.values, ⟨forNodes, forObjects, hPerm, hOnce, hOnce', hNodes,
      fun a ha => hOld a (hCarried a ha)⟩, h.known⟩
  · obtain ⟨v, rfl⟩ := KeyStrategy.generate_ok hNative hValue
    simp only [Option.map_some, Option.toList_some] at hAll hOld ⊢
    obtain ⟨hCount, hValues⟩ := h.generate (a := ⟨r, pk.field, v⟩) hValue
    refine ⟨hCount, hValues, ⟨forNodes, ⟨r, pk.field, v⟩ :: forObjects, ?_, hOnce, ?_, ?_, ?_⟩,
      fun q j x hj hx => h.known_append _ hj hx⟩
    · refine (List.perm_append_singleton _ s.plan.assigned).trans ?_
      refine (hPerm.cons _).trans ?_
      exact List.perm_middle.symm
    · refine List.nodup_cons.2 ⟨fun hMem => ?_, hOnce'⟩
      obtain ⟨a, ha, hRef⟩ := List.mem_map.1 hMem
      have hBefore := (hCarried a ha).1
      rw [hRef] at hBefore
      exact hNew hBefore
    · exact fun a ha => (hNodes a ha).mono hRemembers
    · intro a ha
      rcases List.mem_cons.1 ha with rfl | ha
      · exact ⟨List.mem_cons_self, d, pk, start, finish, _, hAs, hPk, rfl, hNone, (hAll _).2 (.inr rfl),
          ⟨owner, role, d, start, finish, some v, params, hMove, hAs, hParams, rfl⟩, rfl⟩
      · exact hOld a (hCarried a ha)

/-- The edges of a plan stay in the order of their types while a move is made. -/
theorem KeyRecords.step (hGroups : Dict.Sorted s.plan.edges) (h : w.KeyRecords taken keyOf moves s)
    (hMove : w.Moves keyOf m s t) : w.KeyRecords taken keyOf (moves ++ [m]) t := by
  refine (hMove.preserves
    (P := fun s => Dict.Sorted s.plan.edges ∧ w.KeyRecords taken keyOf (moves ++ [m]) s)
    ?_ ?_ ?_ ?_ ⟨hGroups, h.more⟩).2
  · rintro r d i s t - hType hIdentify ⟨hSorted, hs⟩
    refine ⟨?_, hs.identify hType hIdentify⟩
    rw [(identify_keeps hIdentify).1.edges]
    exact hSorted
  · rintro r d i s t hRecord ⟨hSorted, hs⟩
    obtain ⟨-, rfl⟩ | ⟨params, -, -, rfl⟩ := recordNode_iff.1 hRecord
    · exact ⟨hSorted, hs⟩
    · exact ⟨hSorted, hs.of_same rfl rfl (.of_eq rfl) (fun _ _ _ hj _ => hj) (List.Subset.refl _)
        (List.Subset.refl _)⟩
  · rintro e s t hRecord ⟨hSorted, hs⟩
    obtain ⟨-, rfl⟩ | ⟨-, rfl⟩ := recordEdge_iff.1 hRecord
    · exact ⟨hSorted, hs⟩
    · refine ⟨Dict.sorted_insert hSorted _ _, hs.of_same rfl rfl (.of_eq rfl) (fun _ _ _ hj _ => hj)
        (List.Subset.refl _) fun e' he' => ?_⟩
      exact (Dict.mem_members_push hSorted).2 (.inl he')
  · rintro owner role r d start finish s t rfl hAs hRecord ⟨hSorted, hs⟩
    refine ⟨?_, hs.recordObject hSorted (List.mem_append_right _ (List.mem_singleton.2 rfl)) hAs
      hRecord⟩
    obtain ⟨-, rfl⟩ | ⟨key, params, u, -, hKey, -, rfl⟩ := recordObject_iff.1 hRecord
    · exact hSorted
    · have hEdges : u.plan.edges = s.plan.edges := (objectKey_sameRecords hKey).1.edges
      change Dict.Sorted (u.plan.edges.push role.label _)
      rw [hEdges]
      exact Dict.sorted_insert hSorted _ _

theorem KeyRecords.of_takes (h : w.Takes keyOf moves (.start taken) t) :
    w.KeyRecords taken keyOf moves t := by
  have hStart : w.KeyRecords taken keyOf [] (.start taken) := by
    refine ⟨rfl, rfl, ⟨[], [], .nil, List.nodup_nil, List.nodup_nil, ?_, ?_⟩, ?_⟩
    · exact fun _ ha => absurd ha List.not_mem_nil
    · exact fun _ ha => absurd ha List.not_mem_nil
    · intro r i v hi
      cases hi
  have hAll := h.invariant
    (P := fun ms s => w.Recorded keyOf ms s ∧ w.KeyRecords taken keyOf ms s)
    (fun ms m s t hs hMove => ⟨hs.1.step hMove, hs.2.step hs.1.edges.groups.sorted hMove⟩)
    ⟨Recorded.start w keyOf taken, hStart⟩
  exact hAll.2

/-! ## Identified objects are planned -/

section

variable {root : Ref} {depth : Nat} {p : Plan} (hFinished : w.Finished root depth taken p s)

include hFinished

/-- A relationship-object that was met has a planned relationship. -/
theorem planned_of_seen {object : Ref} (h : object ∈ s.objectsSeen) :
    ∃ e ∈ p.allEdges, w.Carries (w.givenKey root depth taken)
      (w.trail (w.givenKey root depth taken) depth root none) e object := by
  obtain ⟨pairs, hPerm, hObjects, hCarries⟩ := hFinished.recorded.objects.planned
  rw [← hObjects] at h
  obtain ⟨pair, hPair, rfl⟩ := List.mem_map.1 h
  have hMem : pair.1 ∈ pairs.map (·.1) := List.mem_map_of_mem hPair
  rw [hPerm.mem_iff, hFinished.plan] at hMem
  exact ⟨pair.1, (List.mem_filter.1 hMem).1, (hCarries pair hPair).1⟩

/-- A followed relationship-object has a planned relationship. -/
theorem planned_of_followed {owner object start finish : Ref} {role : RelationshipRole}
    (hFollow : Move.follow owner role object ∈
      w.trail (w.givenKey root depth taken) depth root none)
    (hObject : w.ObjectAs object d start finish) :
    ∃ e ∈ p.allEdges, w.IsRelationshipOf root depth taken e object start finish := by
  obtain ⟨hSeen, -⟩ := met_of_object hFinished hFollow hObject
  obtain ⟨e, he, hCarries⟩ := planned_of_seen hFinished hSeen
  obtain ⟨start', finish', hRelationship⟩ := isRelationshipOf_of_carries hFinished hCarries
  obtain ⟨_, _, _, _, -, -, hObject', -⟩ := id hRelationship
  obtain ⟨-, rfl, rfl⟩ := hObject'.unique hObject
  exact ⟨e, he, hRelationship⟩

/-- What a walk has concerned itself with has the key of a planned node. -/
theorem placed_of_concerned
    (hMove : m ∈ w.trail (w.givenKey root depth taken) depth root none) (h : w.Concerns m r) :
    ∃ n ∈ p.allNodes, n.identity = w.givenKey root depth taken r := by
  cases h with
  | entered =>
      obtain ⟨hops, came, hVisit⟩ := enter_mem_trail_iff.1 hMove
      exact placed_of_visit hFinished hVisit
  | @target owner _ role d hNode =>
      obtain ⟨hReference, left, came, hVisit⟩ := follow_mem_trail_iff.1 hMove
      exact placed_of_beyond hFinished hVisit hReference (beyond_of_node hNode.1 hNode.2)
  | start hObject =>
      obtain ⟨e, he, _, _, _, _, -, -, -, -, -, hStart, -⟩ :=
        planned_of_followed hFinished hMove hObject
      rw [givenKey_of_identityOf hStart]
      exact (placed_of_planned hFinished he).1
  | finish hObject =>
      obtain ⟨e, he, _, _, _, _, -, -, -, -, -, -, hFinish, -⟩ :=
        planned_of_followed hFinished hMove hObject
      rw [givenKey_of_identityOf hFinish]
      exact (placed_of_planned hFinished he).2

/-- Every identity that was given is that of a planned node. -/
theorem placed_of_identified
    (hIdentities : w.IdentityRecords (w.trail (w.givenKey root depth taken) depth root none) s)
    (h : Identified s r) : ∃ n ∈ p.allNodes, n.identity = w.givenKey root depth taken r := by
  obtain ⟨m, hMove, hConcerns⟩ := hIdentities.reason r h
  exact placed_of_concerned hFinished hMove hConcerns

/-- A relationship-object is identified as an end only, that of a planned relationship-object. -/
theorem end_of_identified {start finish : Ref}
    (hIdentities : w.IdentityRecords (w.trail (w.givenKey root depth taken) depth root none) s)
    (h : Identified s r) (hObject : w.ObjectAs r d start finish) :
    ∃ e ∈ p.allEdges, ∃ object start' finish',
      w.IsRelationshipOf root depth taken e object start' finish' ∧ (r = start' ∨ r = finish') := by
  obtain ⟨m, hMove, hConcerns⟩ := hIdentities.reason r h
  -- What is entered or referred to as a target is a node, so only the ends of objects remain.
  cases hConcerns with
  | entered =>
      obtain ⟨hops, came, hVisit⟩ := enter_mem_trail_iff.1 hMove
      obtain ⟨dNode, hNode⟩ := node_of_visit hFinished hVisit
      exact absurd hNode hObject.not_node
  | target hNode => exact absurd hNode hObject.not_node
  | @start _ object _ finish' role dObject hOther =>
      obtain ⟨e, he, hRelationship⟩ := planned_of_followed hFinished hMove hOther
      exact ⟨e, he, object, r, finish', hRelationship, .inl rfl⟩
  | @finish _ object start' _ role dObject hOther =>
      obtain ⟨e, he, hRelationship⟩ := planned_of_followed hFinished hMove hOther
      exact ⟨e, he, object, start', r, hRelationship, .inr rfl⟩

end

end Walker

end GraphMapping

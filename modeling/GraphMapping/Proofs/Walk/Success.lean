import GraphMapping.Plan.Walk

/-!
# Successful steps of a walk

A walk keeps what it has met also when it fails, so its results are read off its successful runs only.
This file says for each operation of a walk what a successful run of it found and how it changed the
state.  Everything later is derived from these lemmas; none of the operations is opened again.
-/

namespace GraphMapping

/-- A step of a walk succeeds: begun in `s` it gives `a` and leaves `t`. -/
def Walk.Gives {α : Type} (x : Walk α) (s : WalkState) (a : α) (t : WalkState) : Prop :=
  x.run s = (.ok a, t)

namespace Walk

variable {α β : Type} {s t : WalkState}

@[simp] theorem gives_pure {a b : α} : Gives (pure a) s b t ↔ b = a ∧ t = s := by
  constructor
  · intro h
    cases h
    exact ⟨rfl, rfl⟩
  · rintro ⟨rfl, rfl⟩
    rfl

@[simp] theorem not_gives_throw {e : Error} {a : α} : ¬ Gives (throw e) s a t := by
  intro h
  cases h

@[simp] theorem gives_get {u : WalkState} : Gives get s u t ↔ u = s ∧ t = s := by
  constructor
  · intro h
    cases h
    exact ⟨rfl, rfl⟩
  · rintro ⟨rfl, rfl⟩
    rfl

@[simp] theorem gives_modify {f : WalkState → WalkState} {u : Unit} :
    Gives (modify f) s u t ↔ t = f s := by
  constructor
  · intro h
    cases h
    rfl
  · rintro rfl
    rfl

@[simp] theorem gives_liftM {x : Except Error α} {a : α} :
    Gives (liftM x) s a t ↔ x = .ok a ∧ t = s := by
  constructor
  · intro h
    cases h
    exact ⟨rfl, rfl⟩
  · rintro ⟨rfl, rfl⟩
    rfl

theorem run_bind (x : Walk α) (f : α → Walk β) (s : WalkState) :
    (x >>= f).run s = match x.run s with
      | (.ok a, u) => (f a).run u
      | (.error e, u) => (.error e, u) := by
  change (ExceptT.bind x f).run s = _
  simp only [ExceptT.bind, ExceptT.run, ExceptT.mk, bind, StateT.bind]
  rcases x s with ⟨_ | _, u⟩ <;> rfl

/-- Two steps in a row succeed exactly if each does, the second from where the first ends. -/
theorem gives_bind {x : Walk α} {f : α → Walk β} {b : β} :
    Gives (x >>= f) s b t ↔ ∃ a u, Gives x s a u ∧ Gives (f a) u b t := by
  unfold Gives
  rw [run_bind]
  rcases x.run s with ⟨e | a, u⟩
  · constructor
    · intro h
      cases h
    · rintro ⟨a, v, h, -⟩
      cases h
  · constructor
    · intro h
      exact ⟨a, u, rfl, h⟩
    · rintro ⟨a', v, h, h'⟩
      cases h
      exact h'

/-- A step that looks at the state first. -/
theorem gives_get_bind {f : WalkState → Walk β} {b : β} :
    Gives (get >>= f) s b t ↔ Gives (f s) s b t := by
  rw [gives_bind]
  constructor
  · rintro ⟨u, v, hGet, h⟩
    obtain ⟨rfl, rfl⟩ := gives_get.1 hGet
    exact h
  · intro h
    exact ⟨s, s, gives_get.2 ⟨rfl, rfl⟩, h⟩

theorem gives_forM_nil {f : β → Walk Unit} {u : Unit} :
    Gives (([] : List β).forM f) s u t ↔ t = s := by
  change Gives (pure ()) s u t ↔ t = s
  rw [gives_pure]
  exact and_iff_right rfl

theorem gives_forM_cons {b : β} {bs : List β} {f : β → Walk Unit} {u : Unit} :
    Gives ((b :: bs).forM f) s u t ↔ ∃ v, Gives (f b) s () v ∧ Gives (bs.forM f) v () t := by
  change Gives (f b >>= fun _ => bs.forM f) s u t ↔ _
  rw [gives_bind]
  constructor
  · rintro ⟨_, v, h, h'⟩
    exact ⟨v, h, h'⟩
  · rintro ⟨v, h, h'⟩
    exact ⟨(), v, h, h'⟩

end Walk

open Walk

namespace WalkState

/-- The nodes, relationships and objects recorded in `t` are those of `s`. -/
structure SameRecords (s t : WalkState) : Prop where
  nodesSeen : t.nodesSeen = s.nodesSeen
  edgesSeen : t.edgesSeen = s.edgesSeen
  objectsSeen : t.objectsSeen = s.objectsSeen
  nodes : t.plan.nodes = s.plan.nodes
  edges : t.plan.edges = s.plan.edges

/-- Every identity given in `s` is still the same in `t`. -/
def Remembers (s t : WalkState) : Prop :=
  ∀ q i, s.identities.lookup q = some i → t.identities.lookup q = some i

theorem SameRecords.refl (s : WalkState) : SameRecords s s :=
  ⟨rfl, rfl, rfl, rfl, rfl⟩

theorem SameRecords.trans {s t u : WalkState} (h : SameRecords s t) (h' : SameRecords t u) :
    SameRecords s u :=
  ⟨h'.nodesSeen.trans h.nodesSeen, h'.edgesSeen.trans h.edgesSeen,
    h'.objectsSeen.trans h.objectsSeen, h'.nodes.trans h.nodes, h'.edges.trans h.edges⟩

theorem Remembers.refl (s : WalkState) : Remembers s s :=
  fun _ _ h => h

theorem Remembers.trans {s t u : WalkState} (h : Remembers s t) (h' : Remembers t u) :
    Remembers s u :=
  fun q i hq => h' q i (h q i hq)

theorem Remembers.of_eq {s t : WalkState} (h : t.identities = s.identities) : Remembers s t := by
  intro q i hq
  rw [h]
  exact hq

end WalkState

namespace Walker

variable {σ : Type} {w : Walker σ} {s t : WalkState}

open WalkState

theorem gives_generate {v : Option Value} :
    Gives w.generate s v t ↔ (w.registry.strategy.generate s.taken).1 = .ok v ∧
      t = { s with taken := (w.registry.strategy.generate s.taken).2 } := by
  simp only [generate, gives_bind, gives_get, gives_modify, gives_liftM]
  constructor
  · rintro ⟨u, _, ⟨rfl, rfl⟩, _, _, rfl, hValue, rfl⟩
    exact ⟨hValue, rfl⟩
  · rintro ⟨hValue, rfl⟩
    exact ⟨s, s, ⟨rfl, rfl⟩, (), _, rfl, hValue, rfl⟩

/-- A new identity is a temporary one, or a key taken from the generator and put down for its object. -/
theorem newIdentity_cases {r : Ref} {field : String} {i : Identity}
    (h : Gives (w.newIdentity r field) s i t) :
    (w.registry.strategy.isNative = true ∧
      i = ⟨temporaryFront ++ toString (s.temporaries + 1), true, none⟩ ∧
      t = { s with temporaries := s.temporaries + 1 }) ∨
    ∃ v key, w.registry.strategy.isNative = false ∧
      (w.registry.strategy.generate s.taken).1 = .ok (some v) ∧ v.key? = some key ∧
      i = ⟨key, true, some v⟩ ∧
      t = { s with
        taken := (w.registry.strategy.generate s.taken).2
        plan := { s.plan with assigned := s.plan.assigned ++ [⟨r, field, v⟩] } } := by
  simp only [newIdentity] at h
  split at h
  · rename_i hNative
    simp only [gives_bind, gives_modify, gives_get, gives_pure] at h
    obtain ⟨_, _, rfl, _, _, ⟨rfl, rfl⟩, rfl, rfl⟩ := h
    exact .inl ⟨hNative, rfl, rfl⟩
  · rename_i hNative
    rw [gives_bind] at h
    obtain ⟨v, u, hGenerate, h⟩ := h
    obtain ⟨hValue, rfl⟩ := gives_generate.1 hGenerate
    cases v with
    | none => exact (not_gives_throw h).elim
    | some v =>
        cases hKey : v.key? with
        | none =>
            simp only [hKey] at h
            exact (not_gives_throw h).elim
        | some key =>
            simp only [hKey, assign, gives_bind, gives_modify, gives_pure] at h
            obtain ⟨_, _, rfl, rfl, rfl⟩ := h
            exact .inr ⟨v, key, eq_false_of_ne_true hNative, hValue, hKey, rfl, rfl⟩

theorem newIdentity_sameRecords {r : Ref} {field : String} {i : Identity}
    (h : Gives (w.newIdentity r field) s i t) :
    SameRecords s t ∧ t.identities = s.identities := by
  obtain ⟨-, -, rfl⟩ | ⟨v, key, -, -, -, -, rfl⟩ := newIdentity_cases h <;>
    exact ⟨⟨rfl, rfl, rfl, rfl, rfl⟩, rfl⟩

/-- A node keeps the identity it has; else its stored key counts, and else it gets a new one. -/
theorem identify_cases {r : Ref} {d : TypeDescriptor} {i : Identity}
    (h : Gives (w.identify r d) s i t) :
    (s.identities.lookup r = some i ∧ t = s) ∨
    ∃ pk, s.identities.lookup r = none ∧ d.key? = some pk ∧
      ((∃ key, (w.heap.value w.model r pk.field).key? = some key ∧ i = ⟨key, false, none⟩ ∧
          t = { s with identities := (r, i) :: s.identities }) ∨
        ((w.heap.value w.model r pk.field).key? = none ∧
          ∃ u, Gives (w.newIdentity r pk.field) s i u ∧
            t = { u with identities := (r, i) :: u.identities })) := by
  simp only [identify, gives_get_bind] at h
  cases hKnown : s.identities.lookup r with
  | some known =>
      simp only [hKnown, gives_pure] at h
      obtain ⟨rfl, rfl⟩ := h
      exact .inl ⟨rfl, rfl⟩
  | none =>
      simp only [hKnown] at h
      cases hPk : d.key? with
      | none =>
          simp only [hPk] at h
          exact (not_gives_throw h).elim
      | some pk =>
          refine .inr ⟨pk, rfl, rfl, ?_⟩
          simp only [hPk] at h
          cases hKey : (w.heap.value w.model r pk.field).key? with
          | some key =>
              simp only [hKey, pure_bind, gives_bind, gives_modify, gives_pure] at h
              obtain ⟨_, _, rfl, rfl, rfl⟩ := h
              exact .inl ⟨key, rfl, rfl, rfl⟩
          | none =>
              simp only [hKey, gives_bind, gives_modify, gives_pure] at h
              obtain ⟨j, u, hNew, _, _, rfl, rfl, rfl⟩ := h
              exact .inr ⟨rfl, u, hNew, rfl⟩

/-- Identifying a node that has an identity gives this one again. -/
theorem gives_identify_known {r : Ref} {d : TypeDescriptor} {i : Identity}
    (h : s.identities.lookup r = some i) : Gives (w.identify r d) s i s := by
  simp only [identify, gives_get_bind, h, gives_pure, and_self]

/-- Identifying a node that holds a key gives this key. -/
theorem gives_identify_held {r : Ref} {d : TypeDescriptor} {pk : FieldDescriptor}
    {key : String} (hNone : s.identities.lookup r = none) (hPk : d.key? = some pk)
    (hKey : (w.heap.value w.model r pk.field).key? = some key) :
    Gives (w.identify r d) s ⟨key, false, none⟩
      { s with identities := (r, ⟨key, false, none⟩) :: s.identities } := by
  simp only [identify, gives_get_bind]
  simp only [hNone, hPk, hKey, pure_bind, gives_bind, gives_modify, gives_pure]
  exact ⟨(), _, rfl, trivial, rfl⟩

/-- Identifying a node changes no record, and what has an identity keeps it. -/
theorem identify_keeps {r : Ref} {d : TypeDescriptor} {i : Identity}
    (h : Gives (w.identify r d) s i t) :
    SameRecords s t ∧ Remembers s t ∧ t.identities.lookup r = some i := by
  -- The new entry hides no older one, since the object had none.
  have hOther : ∀ {u : WalkState}, u.identities = s.identities → s.identities.lookup r = none →
      Remembers s { u with identities := (r, i) :: u.identities } := by
    intro u hSame hNone q j hq
    have hne : (q == r) = false := by
      rw [beq_eq_false_iff_ne]
      rintro rfl
      rw [hNone] at hq
      cases hq
    rw [List.lookup_cons, hne, hSame]
    exact hq
  obtain ⟨hKnown, rfl⟩ | ⟨pk, hNone, -, ⟨key, -, -, rfl⟩ | ⟨-, u, hNew, rfl⟩⟩ := identify_cases h
  · exact ⟨.refl t, .refl t, hKnown⟩
  · exact ⟨⟨rfl, rfl, rfl, rfl, rfl⟩, hOther rfl hNone, List.lookup_cons_self⟩
  · obtain ⟨hRecords, hSame⟩ := newIdentity_sameRecords hNew
    exact ⟨⟨hRecords.1, hRecords.2, hRecords.3, hRecords.4, hRecords.5⟩, hOther hSame hNone,
      List.lookup_cons_self⟩

/-- The node that a walk plans for an object with an identity. -/
def plannedNode (w : Walker σ) (r : Ref) (d : TypeDescriptor) (i : Identity) (params : Dict Value) :
    PlannedNode :=
  ⟨i.key, d.label, i.isNew, w.storedKey r d i, params, r⟩

theorem recordNode_iff {r : Ref} {d : TypeDescriptor} {i : Identity} {u : Unit} :
    Gives (w.recordNode r d i) s u t ↔
      ((d.label, i.key) ∈ s.nodesSeen ∧ t = s) ∨
      ∃ params, (d.label, i.key) ∉ s.nodesSeen ∧ snapshot w.model d (w.heap.stateOf r) = .ok params ∧
        t = { s with
          nodesSeen := (d.label, i.key) :: s.nodesSeen
          plan := { s.plan with
            nodes := s.plan.nodes.push d.label (w.plannedNode r d i params) } } := by
  simp only [recordNode, gives_get_bind]
  by_cases hSeen : (d.label, i.key) ∈ s.nodesSeen
  · simp only [List.contains_iff_mem.2 hSeen, Bool.not_true, Bool.false_eq_true, if_false, gives_pure]
    constructor
    · exact fun h => .inl ⟨hSeen, h.2⟩
    · rintro (⟨-, hSame⟩ | ⟨_, hNew, -⟩)
      · exact ⟨trivial, hSame⟩
      · exact absurd hSeen hNew
  · have hNot : s.nodesSeen.contains (d.label, i.key) = false :=
      eq_false_of_ne_true fun hc => hSeen (List.contains_iff_mem.1 hc)
    simp only [hNot, Bool.not_false, if_true, gives_bind, gives_modify, gives_liftM]
    constructor
    · rintro ⟨_, _, rfl, params, _, ⟨hParams, rfl⟩, rfl⟩
      exact .inr ⟨params, hSeen, hParams, rfl⟩
    · rintro (⟨hMet, -⟩ | ⟨params, -, hParams, rfl⟩)
      · exact absurd hMet hSeen
      · exact ⟨(), _, rfl, params, _, ⟨hParams, rfl⟩, rfl⟩

theorem recordEdge_iff {e : PlannedEdge} {u : Unit} :
    Gives (recordEdge e) s u t ↔
      (edgeMark e ∈ s.edgesSeen ∧ t = s) ∨
      (edgeMark e ∉ s.edgesSeen ∧
        t = { s with
          edgesSeen := edgeMark e :: s.edgesSeen
          plan := { s.plan with edges := s.plan.edges.push e.label e } }) := by
  simp only [recordEdge, gives_get_bind]
  by_cases hSeen : edgeMark e ∈ s.edgesSeen
  · simp only [List.contains_iff_mem.2 hSeen, Bool.not_true, Bool.false_eq_true, if_false, gives_pure]
    constructor
    · exact fun h => .inl ⟨hSeen, h.2⟩
    · rintro (⟨-, hSame⟩ | ⟨hNew, -⟩)
      · exact ⟨trivial, hSame⟩
      · exact absurd hSeen hNew
  · have hNot : s.edgesSeen.contains (edgeMark e) = false :=
      eq_false_of_ne_true fun hc => hSeen (List.contains_iff_mem.1 hc)
    simp only [hNot, Bool.not_false, if_true, pushEdge, gives_bind, gives_modify]
    constructor
    · rintro ⟨_, _, rfl, rfl⟩
      exact .inr ⟨hSeen, rfl⟩
    · rintro (⟨hMet, -⟩ | ⟨-, rfl⟩)
      · exact absurd hMet hSeen
      · exact ⟨(), _, rfl, rfl⟩

/-- A relationship-object goes without a key, keeps the one it has, or gets one from the generator. -/
theorem objectKey_cases {r : Ref} {d : TypeDescriptor} {v : Option Value}
    (h : Gives (w.objectKey r d) s v t) :
    (v = none ∧ t = s ∧ (d.key? = none ∨ w.registry.strategy.isNative = true)) ∨
    ∃ pk, d.key? = some pk ∧ w.registry.strategy.isNative = false ∧
      (((w.heap.value w.model r pk.field).key?.isSome = true ∧
          v = some (w.heap.value w.model r pk.field) ∧ t = s) ∨
        ((w.heap.value w.model r pk.field).key? = none ∧
          (w.registry.strategy.generate s.taken).1 = .ok v ∧
          t = { s with
            taken := (w.registry.strategy.generate s.taken).2
            plan := { s.plan with
              assigned := s.plan.assigned ++ (v.map fun v => ⟨r, pk.field, v⟩).toList } })) := by
  unfold objectKey at h
  cases hPk : d.key? with
  | none =>
      simp only [hPk, gives_pure] at h
      exact .inl ⟨h.1, h.2, .inl rfl⟩
  | some pk =>
      simp only [hPk] at h
      split at h
      · rename_i hNative
        rw [gives_pure] at h
        exact .inl ⟨h.1, h.2, .inr hNative⟩
      · rename_i hNative
        refine .inr ⟨pk, rfl, eq_false_of_ne_true hNative, ?_⟩
        split at h
        · rename_i hKey
          rw [gives_pure] at h
          exact .inl ⟨hKey, h.1, h.2⟩
        · rename_i hKey
          refine .inr ⟨Option.not_isSome_iff_eq_none.1 hKey, ?_⟩
          rw [gives_bind] at h
          obtain ⟨v', u, hGenerate, h⟩ := h
          obtain ⟨hValue, rfl⟩ := gives_generate.1 hGenerate
          cases v' with
          | none =>
              rw [gives_pure] at h
              obtain ⟨rfl, rfl⟩ := h
              exact ⟨hValue, by simp⟩
          | some v' =>
              simp only [assign, gives_bind, gives_modify, gives_pure] at h
              obtain ⟨_, _, rfl, rfl, rfl⟩ := h
              exact ⟨hValue, rfl⟩

theorem objectKey_sameRecords {r : Ref} {d : TypeDescriptor} {v : Option Value}
    (h : Gives (w.objectKey r d) s v t) : SameRecords s t ∧ t.identities = s.identities := by
  obtain ⟨-, rfl, -⟩ | ⟨pk, -, -, ⟨-, -, rfl⟩ | ⟨-, -, rfl⟩⟩ := objectKey_cases h
  · exact ⟨.refl t, rfl⟩
  · exact ⟨.refl t, rfl⟩
  · exact ⟨⟨rfl, rfl, rfl, rfl, rfl⟩, rfl⟩

theorem recordObject_iff {r : Ref} {d : TypeDescriptor} {label start finish : String} {u : Unit} :
    Gives (w.recordObject r d label start finish) s u t ↔
      (r ∈ s.objectsSeen ∧ t = s) ∨
      ∃ key params v, r ∉ s.objectsSeen ∧
        Gives (w.objectKey r d) { s with objectsSeen := r :: s.objectsSeen } key v ∧
        w.objectParams r d key = .ok params ∧
        t = { v with
          plan := { v.plan with
            edges := v.plan.edges.push label ⟨start, finish, label, false, true, key, params⟩ } } := by
  simp only [recordObject, gives_get_bind]
  by_cases hSeen : r ∈ s.objectsSeen
  · simp only [List.contains_iff_mem.2 hSeen, Bool.not_true, Bool.false_eq_true, if_false, gives_pure]
    constructor
    · exact fun h => .inl ⟨hSeen, h.2⟩
    · rintro (⟨-, hSame⟩ | ⟨_, _, _, hNew, -⟩)
      · exact ⟨trivial, hSame⟩
      · exact absurd hSeen hNew
  · have hNot : s.objectsSeen.contains r = false :=
      eq_false_of_ne_true fun hc => hSeen (List.contains_iff_mem.1 hc)
    simp only [hNot, Bool.not_false, if_true, pushEdge, gives_bind, gives_modify, gives_liftM]
    constructor
    · rintro ⟨_, _, rfl, key, v, hKey, params, _, ⟨hParams, rfl⟩, rfl⟩
      exact .inr ⟨key, params, _, hSeen, hKey, hParams, rfl⟩
    · rintro (⟨hMet, -⟩ | ⟨key, params, v, -, hKey, hParams, rfl⟩)
      · exact absurd hMet hSeen
      · exact ⟨(), _, rfl, key, v, hKey, params, _, ⟨hParams, rfl⟩, rfl⟩

theorem enter_cases {r : Ref} {found : TypeDescriptor × String} (h : Gives (w.enter r) s found t) :
    ∃ d i u, found = (d, i.key) ∧ w.descriptor r = .ok d ∧ d.isObject = false ∧
      Gives (w.identify r d) s i u ∧ Gives (w.recordNode r d i) u () t := by
  simp only [enter, gives_bind, gives_liftM] at h
  obtain ⟨d, _, ⟨hType, rfl⟩, h⟩ := h
  split at h
  · rw [gives_bind] at h
    obtain ⟨_, _, h, -⟩ := h
    exact (not_gives_throw h).elim
  · rename_i hNode
    simp only [gives_bind, gives_pure] at h
    obtain ⟨i, u, hIdentify, _, _, hRecord, rfl, rfl⟩ := h
    exact ⟨d, i, u, rfl, hType, eq_false_of_ne_true hNode, hIdentify, hRecord⟩

end Walker

end GraphMapping

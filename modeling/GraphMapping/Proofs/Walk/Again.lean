import GraphMapping.Proofs.Walk.Keys
import Mathlib.Data.List.Forall2

/-!
# The same walk again

After a save with generated keys the objects hold the keys that the walk has made for them, and are
otherwise as they were.  A walk over them from the same root does the same, step by step: it finds the
keys that the first walk has made, makes none of its own, and plans the same nodes and relationships.
`Echoes` says this of two steps of the two walks; it is kept by every way to put steps together.
-/

namespace GraphMapping

namespace Dict

variable {α β : Type}

/-- The groups of two dictionaries have the same names, and related items in the same order. -/
def Matches (R : α → β → Prop) (d : Dict (List α)) (d' : Dict (List β)) : Prop :=
  List.Forall₂ (fun e e' => e.1 = e'.1 ∧ List.Forall₂ R e.2 e'.2) d d'

variable {R : α → β → Prop} {d : Dict (List α)} {d' : Dict (List β)}

theorem Matches.insert (h : Matches R d d') (name : String) {xs : List α} {ys : List β}
    (hItems : List.Forall₂ R xs ys) : Matches R (d.insert name xs) (d'.insert name ys) := by
  induction h with
  | nil => exact .cons ⟨rfl, hItems⟩ .nil
  | @cons e e' rest rest' hHere hRest ih =>
      obtain ⟨k, group⟩ := e
      obtain ⟨k', group'⟩ := e'
      obtain ⟨rfl, hGroup⟩ := hHere
      unfold Dict.insert
      split
      · exact .cons ⟨rfl, hItems⟩ (.cons ⟨rfl, hGroup⟩ hRest)
      · split
        · exact .cons ⟨rfl, hItems⟩ hRest
        · exact .cons ⟨rfl, hGroup⟩ ih

theorem Matches.find? (h : Matches R d d') (name : String) :
    List.Forall₂ R ((d.find? name).getD []) ((d'.find? name).getD []) := by
  induction h with
  | nil => exact .nil
  | @cons e e' rest rest' hHere hRest ih =>
      obtain ⟨k, group⟩ := e
      obtain ⟨k', group'⟩ := e'
      obtain ⟨rfl, hGroup⟩ := hHere
      unfold Dict.find?
      split
      · exact hGroup
      · exact ih

theorem Matches.push (h : Matches R d d') (name : String) {x : α} {y : β} (hItem : R x y) :
    Matches R (d.push name x) (d'.push name y) :=
  h.insert name (List.rel_append (h.find? name) (.cons hItem .nil))

end Dict

/-- A later node is the node planned before, and not new; `exact` asks for its properties too. -/
structure PlannedNode.Again (exact : Prop) (n n' : PlannedNode) : Prop where
  identity : n'.identity = n.identity
  label : n'.label = n.label
  key : n'.key = n.key
  ref : n'.ref = n.ref
  known : n'.isNew = false
  params : exact → n'.params = n.params

/-- A later relationship is the one planned before; `exact` asks for its properties too. -/
structure PlannedEdge.Again (exact : Prop) (e e' : PlannedEdge) : Prop where
  start : e'.start = e.start
  finish : e'.finish = e.finish
  label : e'.label = e.label
  undirected : e'.undirected = e.undirected
  object : e'.object = e.object
  key : e'.key = e.key
  params : exact → e'.params = e.params

/-- A later plan has the nodes and relationships of the plan before, and generates no key. -/
structure Plan.Again (exact : Prop) (p p' : Plan) : Prop where
  nodes : Dict.Matches (PlannedNode.Again exact) p.nodes p'.nodes
  edges : Dict.Matches (PlannedEdge.Again exact) p.edges p'.edges
  assigned : p'.assigned = []

namespace Walker

open Walk WalkState

variable {σ : Type} (w : Walker σ)

/-- The walker over a later heap. -/
def on (later : Heap σ) : Walker σ :=
  { w with heap := later }

/-- In a later heap objects hold the keys that they have been given, hold on to those they had, and refer
to the same objects; `exact` asks for the same stored properties too. -/
structure Resumes (later : Heap σ) (keys : List AssignedKey) (exact : Prop) : Prop where
  typeOf : ∀ r, later.typeOf r = w.heap.typeOf r
  related : ∀ r field,
    w.model.related (later.stateOf r) field = w.model.related (w.heap.stateOf r) field
  ends : ∀ r, w.model.ends (later.stateOf r) = w.model.ends (w.heap.stateOf r)
  held : ∀ r d pk, w.descriptor r = .ok d → d.key? = some pk →
    (w.heap.value w.model r pk.field).key?.isSome = true →
    later.value w.model r pk.field = w.heap.value w.model r pk.field
  given : ∀ a ∈ keys, a.value.key?.isSome = true ∧ later.value w.model a.ref a.field = a.value
  shows : exact → ∀ r d, w.descriptor r = .ok d →
    snapshot w.model d (later.stateOf r) = snapshot w.model d (w.heap.stateOf r)

/-- The later walk has given an object the identity of the first one, from the key that it holds now. -/
structure SameIdentity (later : Heap σ) (r : Ref) (i i' : Identity) : Prop where
  key : i'.key = i.key
  known : i'.isNew = false
  generated : i'.generated = none
  stored : ∀ d pk, w.descriptor r = .ok d → d.key? = some pk →
    later.value w.model r pk.field = i.generated.getD (w.heap.value w.model r pk.field)

/-- What the later walk has met, next to what the first one has met. -/
structure Beside (later : Heap σ) (exact : Prop) (s s' : WalkState) : Prop where
  identities : List.Forall₂ (fun e e' => e'.1 = e.1 ∧ w.SameIdentity later e.1 e.2 e'.2)
    s.identities s'.identities
  nodesSeen : s'.nodesSeen = s.nodesSeen
  edgesSeen : s'.edgesSeen = s.edgesSeen
  objectsSeen : s'.objectsSeen = s.objectsSeen
  plan : s.plan.Again exact s'.plan

/-- A step of the later walk is as the step of the first one: where the first succeeds and only `keys`
were generated by then, the later one finds the same as far as `view` sees, if it succeeds.  With
`exact`, it does. -/
def Echoes {α γ : Type} (later : Heap σ) (keys : List AssignedKey) (exact : Prop) (view : α → γ)
    (x x' : Walk α) : Prop :=
  ∀ s a t, Gives x s a t → s.plan.assigned ⊆ t.plan.assigned ∧
    (t.plan.assigned ⊆ keys → ∀ s', w.Beside later exact s s' →
      (∀ a' t', Gives x' s' a' t' → view a' = view a ∧ w.Beside later exact t t') ∧
      (exact → ∃ a' t', Gives x' s' a' t'))

variable {w} {later : Heap σ} {keys : List AssignedKey} {exact : Prop} {α β γ δ : Type}

/-! ## Putting steps together -/

theorem echoes_pure (view : α → γ) {a a' : α} (h : view a' = view a) :
    w.Echoes later keys exact view (pure a) (pure a') := by
  intro s b t hGives
  obtain ⟨rfl, rfl⟩ := gives_pure.1 hGives
  refine ⟨List.Subset.refl _, fun _ s' hs => ⟨fun b' t' hGives' => ?_, fun _ => ?_⟩⟩
  · obtain ⟨rfl, rfl⟩ := gives_pure.1 hGives'
    exact ⟨h, hs⟩
  · exact ⟨a', s', gives_pure.2 ⟨rfl, rfl⟩⟩

theorem echoes_bind {view : α → γ} {view' : β → δ} {x x' : Walk α} {f f' : α → Walk β}
    (hx : w.Echoes later keys exact view x x')
    (hf : ∀ a a', view a' = view a → w.Echoes later keys exact view' (f a) (f' a')) :
    w.Echoes later keys exact view' (x >>= f) (x' >>= f') := by
  intro s b t hGives
  obtain ⟨a, u, hFirst, hSecond⟩ := gives_bind.1 hGives
  obtain ⟨hGrows, hStep⟩ := hx s a u hFirst
  have hGrowsMore := (hf a a rfl u b t hSecond).1
  refine ⟨List.Subset.trans hGrows hGrowsMore, fun hKeys s' hs => ?_⟩
  obtain ⟨hAll, hSome⟩ := hStep (List.Subset.trans hGrowsMore hKeys) s' hs
  constructor
  · intro b' t' hGives'
    obtain ⟨a', u', hFirst', hSecond'⟩ := gives_bind.1 hGives'
    obtain ⟨hView, hu⟩ := hAll a' u' hFirst'
    exact ((hf a a' hView u b t hSecond).2 hKeys u' hu).1 b' t' hSecond'
  · intro hExact
    obtain ⟨a', u', hFirst'⟩ := hSome hExact
    obtain ⟨hView, hu⟩ := hAll a' u' hFirst'
    obtain ⟨b', t', hSecond'⟩ := ((hf a a' hView u b t hSecond).2 hKeys u' hu).2 hExact
    exact ⟨b', t', gives_bind.2 ⟨a', u', hFirst', hSecond'⟩⟩

theorem echoes_liftM_bind {view : β → γ} (x : Except Error α) {f f' : α → Walk β}
    (h : ∀ a, x = .ok a → w.Echoes later keys exact view (f a) (f' a)) :
    w.Echoes later keys exact view (liftM x >>= f) (liftM x >>= f') := by
  intro s b t hGives
  obtain ⟨a, _, hFirst, hSecond⟩ := gives_bind.1 hGives
  obtain ⟨hx, rfl⟩ := gives_liftM.1 hFirst
  obtain ⟨hGrows, hStep⟩ := h a hx _ b t hSecond
  refine ⟨hGrows, fun hKeys s' hs => ?_⟩
  obtain ⟨hAll, hSome⟩ := hStep hKeys s' hs
  constructor
  · intro b' t' hGives'
    obtain ⟨a', _, hFirst', hSecond'⟩ := gives_bind.1 hGives'
    obtain ⟨hx', rfl⟩ := gives_liftM.1 hFirst'
    cases ok_unique hx hx'
    exact hAll b' t' hSecond'
  · intro hExact
    obtain ⟨b', t', hSecond'⟩ := hSome hExact
    exact ⟨b', t', gives_bind.2 ⟨a, s', gives_liftM.2 ⟨hx, rfl⟩, hSecond'⟩⟩

theorem echoes_ite {view : α → γ} {c : Prop} [Decidable c] {x x' y y' : Walk α}
    (hx : w.Echoes later keys exact view x x') (hy : w.Echoes later keys exact view y y') :
    w.Echoes later keys exact view (if c then x else y) (if c then x' else y') := by
  split
  · exact hx
  · exact hy

theorem echoes_forM {f f' : β → Walk Unit} (items : List β)
    (h : ∀ b ∈ items, w.Echoes later keys exact id (f b) (f' b)) :
    w.Echoes later keys exact id (items.forM f) (items.forM f') := by
  induction items with
  | nil => exact echoes_pure id rfl
  | cons b rest ih =>
      refine echoes_bind (h b List.mem_cons_self) fun _ _ _ => ?_
      exact ih fun c hc => h c (List.mem_cons_of_mem _ hc)

/-- A step that is known to end beside the first one. -/
theorem echoes_of_exists {view : α → γ} {x x' : Walk α}
    (h : ∀ s a t, Gives x s a t → s.plan.assigned ⊆ t.plan.assigned ∧
      (t.plan.assigned ⊆ keys → ∀ s', w.Beside later exact s s' →
        ∃ a' t', Gives x' s' a' t' ∧ view a' = view a ∧ w.Beside later exact t t')) :
    w.Echoes later keys exact view x x' := by
  intro s a t hGives
  obtain ⟨hGrows, hStep⟩ := h s a t hGives
  refine ⟨hGrows, fun hKeys s' hs => ?_⟩
  obtain ⟨a', t', hGives', hView, ht⟩ := hStep hKeys s' hs
  refine ⟨fun b' u' hOther => ?_, fun _ => ⟨a', t', hGives'⟩⟩
  -- A step has one end at most.
  unfold Gives at hGives' hOther
  rw [hGives'] at hOther
  cases hOther
  exact ⟨hView, ht⟩

/-! ## Single steps -/

theorem Beside.lookup {s s' : WalkState} (h : w.Beside later exact s s') (r : Ref) :
    (s.identities.lookup r = none ∧ s'.identities.lookup r = none) ∨
      ∃ i i', s.identities.lookup r = some i ∧ s'.identities.lookup r = some i' ∧
        w.SameIdentity later r i i' := by
  have hTable := h.identities
  generalize s.identities = table at hTable
  generalize s'.identities = table' at hTable
  induction hTable with
  | nil => exact .inl ⟨rfl, rfl⟩
  | @cons e e' rest rest' hHere hRest ih =>
      obtain ⟨q, i⟩ := e
      obtain ⟨q', i'⟩ := e'
      obtain ⟨rfl, hSame⟩ := hHere
      rw [List.lookup_cons, List.lookup_cons]
      by_cases hq : r = q'
      · subst hq
        rw [beq_self_eq_true]
        exact .inr ⟨i, i', rfl, rfl, hSame⟩
      · rw [beq_eq_false_iff_ne.2 hq]
        exact ih

theorem Beside.lookup_eq_none {s s' : WalkState} (h : w.Beside later exact s s') {r : Ref}
    (hNone : s.identities.lookup r = none) : s'.identities.lookup r = none := by
  rcases h.lookup r with ⟨-, hNone'⟩ | ⟨i, i', hi, -⟩
  · exact hNone'
  · rw [hNone] at hi
    cases hi

section

variable (hResumes : w.Resumes later keys exact) (hNative : w.registry.strategy.isNative = false)

include hResumes

theorem on_descriptor (r : Ref) : (w.on later).descriptor r = w.descriptor r := by
  unfold descriptor
  exact congrArg w.registry.descriptor (hResumes.typeOf r)

theorem on_references (r : Ref) (d : TypeDescriptor) :
    (w.on later).references r d = w.references r d := by
  unfold references
  simp only [on, hResumes.related]

theorem on_endsOf (r : Ref) (d : TypeDescriptor) : (w.on later).endsOf r d = w.endsOf r d := by
  unfold endsOf
  simp only [on, hResumes.ends]

include hNative

/-- The later walk finds the key that the first one has found or made. -/
theorem identify_again {r : Ref} {d : TypeDescriptor} (hType : w.descriptor r = .ok d)
    {s t : WalkState} {i : Identity} (h : Gives (w.identify r d) s i t) :
    s.plan.assigned ⊆ t.plan.assigned ∧
      (t.plan.assigned ⊆ keys → ∀ s', w.Beside later exact s s' →
        ∃ i' t', Gives ((w.on later).identify r d) s' i' t' ∧ w.SameIdentity later r i i' ∧
          w.Beside later exact t t') := by
  obtain ⟨hKnown, rfl⟩ | ⟨pk, hNone, hPk, ⟨key, hHeld, rfl, rfl⟩ | ⟨-, hYes, -⟩ |
    ⟨v, key, -, -, -, hKey, rfl, rfl⟩⟩ := identify_ways h
  · refine ⟨List.Subset.refl _, fun _ s' hs => ?_⟩
    rcases hs.lookup r with ⟨hNot, -⟩ | ⟨j, j', hj, hj', hSame⟩
    · rw [hKnown] at hNot
      cases hNot
    · rw [hKnown] at hj
      cases hj
      exact ⟨j', s', gives_identify_known hj', hSame, hs⟩
  · refine ⟨List.Subset.refl _, fun _ s' hs => ?_⟩
    have hLater : later.value w.model r pk.field = w.heap.value w.model r pk.field :=
      hResumes.held r d pk hType hPk (by rw [hHeld]; rfl)
    have hSame : w.SameIdentity later r ⟨key, false, none⟩ ⟨key, false, none⟩ := by
      refine ⟨rfl, rfl, rfl, fun d' pk' hType' hPk' => ?_⟩
      cases ok_unique hType hType'
      cases hPk.symm.trans hPk'
      exact hLater
    have hHeld' : (later.value w.model r pk.field).key? = some key :=
      (congrArg Value.key? hLater).trans hHeld
    exact ⟨_, _, gives_identify_held (w := w.on later) (hs.lookup_eq_none hNone) hPk hHeld', hSame,
      { hs with identities := .cons ⟨rfl, hSame⟩ hs.identities }⟩
  · rw [hNative] at hYes
    cases hYes
  · refine ⟨fun a ha => List.mem_append_left _ ha, fun hKeys s' hs => ?_⟩
    -- The key made by the first walk was given to the object.
    have hGiven := (hResumes.given ⟨r, pk.field, v⟩
      (hKeys (List.mem_append_right _ (List.mem_singleton.2 rfl)))).2
    have hSame : w.SameIdentity later r ⟨key, true, some v⟩ ⟨key, false, none⟩ := by
      refine ⟨rfl, rfl, rfl, fun d' pk' hType' hPk' => ?_⟩
      cases ok_unique hType hType'
      cases hPk.symm.trans hPk'
      exact hGiven
    have hHeld' : (later.value w.model r pk.field).key? = some key :=
      (congrArg Value.key? hGiven).trans hKey
    exact ⟨_, _, gives_identify_held (w := w.on later) (hs.lookup_eq_none hNone) hPk hHeld', hSame,
      ⟨.cons ⟨rfl, hSame⟩ hs.identities, hs.nodesSeen, hs.edgesSeen, hs.objectsSeen,
        hs.plan.nodes, hs.plan.edges, hs.plan.assigned⟩⟩

theorem echoes_identify {r : Ref} {d : TypeDescriptor} (hType : w.descriptor r = .ok d) :
    w.Echoes later keys exact Identity.key (w.identify r d) ((w.on later).identify r d) := by
  refine echoes_of_exists fun s i t h => ?_
  obtain ⟨hGrows, hStep⟩ := identify_again hResumes hNative hType h
  refine ⟨hGrows, fun hKeys s' hs => ?_⟩
  obtain ⟨i', t', hGives, hSame, ht⟩ := hStep hKeys s' hs
  exact ⟨i', t', hGives, hSame.key, ht⟩

omit hNative hResumes in
theorem storedKey_again {r : Ref} {d : TypeDescriptor} {i i' : Identity}
    (hType : w.descriptor r = .ok d) (hSame : w.SameIdentity later r i i') :
    (w.on later).storedKey r d i' = w.storedKey r d i := by
  unfold storedKey
  cases hPk : d.key? with
  | none => rfl
  | some pk =>
      have hValue : (w.on later).heap.value (w.on later).model r pk.field =
          i.generated.getD (w.heap.value w.model r pk.field) := hSame.stored d pk hType hPk
      simp only [hSame.generated, Option.getD_none, hValue]
      rfl

omit hNative in
theorem recordNode_again {r : Ref} {d : TypeDescriptor} {i i' : Identity} {s t s' : WalkState}
    (hType : w.descriptor r = .ok d) (hSame : w.SameIdentity later r i i')
    (h : Gives (w.recordNode r d i) s () t) (hs : w.Beside later exact s s') :
    (∀ t', Gives ((w.on later).recordNode r d i') s' () t' → w.Beside later exact t t') ∧
      (exact → ∃ t', Gives ((w.on later).recordNode r d i') s' () t') := by
  have hSeen : (d.label, i'.key) ∈ s'.nodesSeen ↔ (d.label, i.key) ∈ s.nodesSeen := by
    rw [hs.nodesSeen, hSame.key]
  obtain ⟨hMet, rfl⟩ | ⟨params, hNew, hParams, rfl⟩ := recordNode_iff.1 h
  · refine ⟨fun t' h' => ?_, fun _ => ⟨s', ?_⟩⟩
    · obtain ⟨-, rfl⟩ | ⟨params', hNew', -, -⟩ := recordNode_iff.1 h'
      · exact hs
      · exact absurd (hSeen.2 hMet) hNew'
    · exact recordNode_iff.2 (.inl ⟨hSeen.2 hMet, rfl⟩)
  · have hNew' : (d.label, i'.key) ∉ s'.nodesSeen := fun hMem => hNew (hSeen.1 hMem)
    refine ⟨fun t' h' => ?_, fun hExact => ?_⟩
    · obtain ⟨hMet', -⟩ | ⟨params', -, hParams', rfl⟩ := recordNode_iff.1 h'
      · exact absurd hMet' hNew'
      · refine ⟨hs.identities, ?_, hs.edgesSeen, hs.objectsSeen,
          hs.plan.nodes.push d.label ?_, hs.plan.edges, hs.plan.assigned⟩
        · change (d.label, i'.key) :: s'.nodesSeen = (d.label, i.key) :: s.nodesSeen
          rw [hs.nodesSeen, hSame.key]
        · refine ⟨hSame.key, rfl, storedKey_again hType hSame, rfl, hSame.known,
            fun hExact => ?_⟩
          have hShown : snapshot w.model d (later.stateOf r) = .ok params' := hParams'
          rw [hResumes.shows hExact r d hType, hParams] at hShown
          exact (Except.ok.inj hShown).symm
    · have hShown : snapshot (w.on later).model d ((w.on later).heap.stateOf r) = .ok params :=
        (hResumes.shows hExact r d hType).trans hParams
      exact ⟨_, recordNode_iff.2 (.inr ⟨params, hNew', hShown, rfl⟩)⟩

omit hNative hResumes in
theorem recordEdge_again {e : PlannedEdge} {s t : WalkState} (h : Gives (recordEdge e) s () t) :
    s.plan.assigned ⊆ t.plan.assigned ∧ ∀ (w : Walker σ) (later : Heap σ) (exact : Prop) s',
      w.Beside later exact s s' → ∃ t', Gives (recordEdge e) s' () t' ∧ w.Beside later exact t t' := by
  obtain ⟨hMet, rfl⟩ | ⟨hNew, rfl⟩ := recordEdge_iff.1 h
  · refine ⟨List.Subset.refl _, fun w later exact s' hs => ⟨s', ?_, hs⟩⟩
    rw [← hs.edgesSeen] at hMet
    exact recordEdge_iff.2 (.inl ⟨hMet, rfl⟩)
  · refine ⟨List.Subset.refl _, fun w later exact s' hs => ?_⟩
    rw [← hs.edgesSeen] at hNew
    refine ⟨_, recordEdge_iff.2 (.inr ⟨hNew, rfl⟩), hs.identities, hs.nodesSeen, ?_, hs.objectsSeen,
      hs.plan.nodes, hs.plan.edges.push e.label ⟨rfl, rfl, rfl, rfl, rfl, rfl, fun _ => rfl⟩,
      hs.plan.assigned⟩
    · change edgeMark e :: s'.edgesSeen = edgeMark e :: s.edgesSeen
      rw [hs.edgesSeen]

omit hNative hResumes in
theorem echoes_recordEdge (e : PlannedEdge) :
    w.Echoes later keys exact id (recordEdge e) (recordEdge e) := by
  refine echoes_of_exists fun s u t h => ?_
  obtain ⟨hGrows, hStep⟩ := recordEdge_again h
  refine ⟨hGrows, fun _ s' hs => ?_⟩
  obtain ⟨t', hGives, ht⟩ := hStep w later exact s' hs
  exact ⟨(), t', hGives, rfl, ht⟩

/-- A relationship-object has the key that it had or got, and gets no other. -/
theorem echoes_objectKey {r : Ref} {d : TypeDescriptor} (hType : w.descriptor r = .ok d) :
    w.Echoes later keys exact id (w.objectKey r d) ((w.on later).objectKey r d) := by
  refine echoes_of_exists fun s v t h => ?_
  obtain ⟨rfl, rfl, hNo⟩ | ⟨pk, hPk, -, ⟨hKey, rfl, rfl⟩ | ⟨-, hValue, rfl⟩⟩ := objectKey_cases h
  · refine ⟨List.Subset.refl _, fun _ s' hs => ⟨none, s', ?_, rfl, hs⟩⟩
    rcases hNo with hNo | hYes
    · simp only [objectKey, hNo, gives_pure, and_self]
    · rw [hNative] at hYes
      cases hYes
  · refine ⟨List.Subset.refl _, fun _ s' hs => ⟨_, s', ?_, rfl, hs⟩⟩
    have hLater : later.value w.model r pk.field = w.heap.value w.model r pk.field :=
      hResumes.held r d pk hType hPk hKey
    have hStill : (later.value w.model r pk.field).key?.isSome = true := by
      rw [hLater]
      exact hKey
    rw [← hLater]
    simp only [objectKey, hPk, on, hNative, Bool.false_eq_true, if_false, hStill, if_true, gives_pure,
      and_self]
  · obtain ⟨value, rfl⟩ := KeyStrategy.generate_ok hNative hValue
    refine ⟨fun a ha => List.mem_append_left _ ha, fun hKeys s' hs => ⟨some value, s', ?_, rfl, ?_⟩⟩
    · obtain ⟨hUsable, hGiven⟩ := hResumes.given ⟨r, pk.field, value⟩
        (hKeys (List.mem_append_right _ (List.mem_singleton.2 rfl)))
      simp only at hUsable hGiven
      simp only [objectKey, hPk, on, hNative, Bool.false_eq_true, if_false, hGiven, hUsable, if_true,
        gives_pure, and_self]
    · exact ⟨hs.identities, hs.nodesSeen, hs.edgesSeen, hs.objectsSeen, hs.plan.nodes,
        hs.plan.edges, hs.plan.assigned⟩

omit hNative in
theorem objectParams_again (hExact : exact) {r : Ref} {d : TypeDescriptor}
    (hType : w.descriptor r = .ok d) (key : Option Value) :
    (w.on later).objectParams r d key = w.objectParams r d key := by
  unfold objectParams
  have hShown : snapshot (w.on later).model d ((w.on later).heap.stateOf r) =
      snapshot w.model d (w.heap.stateOf r) := hResumes.shows hExact r d hType
  rw [hShown]

theorem echoes_recordObject {r : Ref} {d : TypeDescriptor} {label start finish : String}
    (hType : w.descriptor r = .ok d) :
    w.Echoes later keys exact id (w.recordObject r d label start finish)
      ((w.on later).recordObject r d label start finish) := by
  intro s _ t h
  obtain ⟨hMet, rfl⟩ | ⟨key, params, v, hNew, hKey, hParams, rfl⟩ := recordObject_iff.1 h
  · refine ⟨List.Subset.refl _, fun _ s' hs => ?_⟩
    have hMet' : r ∈ s'.objectsSeen := by
      rw [hs.objectsSeen]
      exact hMet
    refine ⟨fun _ t' h' => ⟨rfl, ?_⟩, fun _ => ⟨(), s', ?_⟩⟩
    · obtain ⟨-, rfl⟩ | ⟨_, _, _, hNew', -⟩ := recordObject_iff.1 h'
      · exact hs
      · exact absurd hMet' hNew'
    · exact recordObject_iff.2 (.inl ⟨hMet', rfl⟩)
  · obtain ⟨hGrows, hStep⟩ :=
      echoes_objectKey hResumes hNative hType _ _ _ hKey
    refine ⟨hGrows, fun hKeys s' hs => ?_⟩
    have hNew' : r ∉ s'.objectsSeen := by
      rw [hs.objectsSeen]
      exact hNew
    have hBeside : w.Beside later exact { s with objectsSeen := r :: s.objectsSeen }
        { s' with objectsSeen := r :: s'.objectsSeen } := by
      refine ⟨hs.identities, hs.nodesSeen, hs.edgesSeen, ?_, hs.plan⟩
      change r :: s'.objectsSeen = r :: s.objectsSeen
      rw [hs.objectsSeen]
    obtain ⟨hAll, hSome⟩ := hStep hKeys _ hBeside
    refine ⟨fun _ t' h' => ⟨rfl, ?_⟩, fun hExact => ?_⟩
    · obtain ⟨hMet', -⟩ | ⟨key', params', v', -, hKey', hParams', rfl⟩ := recordObject_iff.1 h'
      · exact absurd hMet' hNew'
      · obtain ⟨hSameKey, hv⟩ := hAll key' v' hKey'
        have hSameKey : key' = key := hSameKey
        subst hSameKey
        refine ⟨hv.identities, hv.nodesSeen, hv.edgesSeen, hv.objectsSeen, hv.plan.nodes,
          hv.plan.edges.push label ⟨rfl, rfl, rfl, rfl, rfl, rfl, fun hExact => ?_⟩,
          hv.plan.assigned⟩
        rw [objectParams_again hResumes hExact hType, hParams] at hParams'
        exact (Except.ok.inj hParams').symm
    · obtain ⟨key', v', hKey'⟩ := hSome hExact
      have hSameKey : key' = key := (hAll key' v' hKey').1
      subst hSameKey
      have hParams' := (objectParams_again hResumes hExact hType key').trans hParams
      exact ⟨(), _, recordObject_iff.2 (.inr ⟨key', params, v', hNew', hKey', hParams', rfl⟩)⟩

theorem echoes_enter (r : Ref) :
    w.Echoes later keys exact id (w.enter r) ((w.on later).enter r) := by
  intro s found t h
  obtain ⟨d, i, u, rfl, hType, hNode, hIdentify, hRecord⟩ := enter_cases h
  obtain ⟨hGrows, hStep⟩ :=
    identify_again hResumes hNative hType hIdentify
  have hGrowsMore : t.plan.assigned = u.plan.assigned := by
    obtain ⟨-, rfl⟩ | ⟨params, -, -, rfl⟩ := recordNode_iff.1 hRecord <;> rfl
  rw [hGrowsMore]
  refine ⟨hGrows, fun hKeys s' hs => ?_⟩
  obtain ⟨i', u', hIdentify', hSame, hu⟩ := hStep hKeys s' hs
  obtain ⟨hAll, hSome⟩ := recordNode_again hResumes hType hSame hRecord hu
  refine ⟨fun found' t' h' => ?_, fun hExact => ?_⟩
  · obtain ⟨d', i'', u'', rfl, hType', -, hOther, hRecord'⟩ := enter_cases h'
    rw [on_descriptor hResumes] at hType'
    cases ok_unique hType hType'
    unfold Gives at hIdentify' hOther
    rw [hIdentify'] at hOther
    cases hOther
    refine ⟨?_, hAll t' hRecord'⟩
    change (d, i'.key) = (d, i.key)
    rw [hSame.key]
  · obtain ⟨t', hRecord'⟩ := hSome hExact
    refine ⟨(d, i'.key), t', ?_⟩
    simp only [enter, gives_bind, gives_liftM]
    refine ⟨d, s', ⟨(on_descriptor hResumes r).trans hType, rfl⟩, ?_⟩
    simp only [hNode, Bool.false_eq_true, if_false, gives_bind, gives_pure]
    exact ⟨i', u', hIdentify', (), t', hRecord', rfl, rfl⟩

/-! ## Whole walks -/

theorem echoes_followNode {visit visit' : Ref → Option String → Walk Unit}
    (hVisit : ∀ r came, w.Echoes later keys exact id (visit r came) (visit' r came))
    {ownerKey : String} {role : RelationshipRole} {target : Ref} {d : TypeDescriptor}
    {came : Option String} (hType : w.descriptor target = .ok d) :
    w.Echoes later keys exact id (w.followNode visit ownerKey role target d came)
      ((w.on later).followNode visit' ownerKey role target d came) := by
  unfold followNode
  refine echoes_bind (echoes_identify hResumes hNative hType) fun i i' hKey => ?_
  simp only [hKey]
  refine echoes_bind (echoes_recordEdge _) fun _ _ _ => ?_
  exact echoes_ite (echoes_pure id rfl) (hVisit target _)

theorem echoes_followObject {visit visit' : Ref → Option String → Walk Unit}
    (hVisit : ∀ r came, w.Echoes later keys exact id (visit r came) (visit' r came))
    {owner : Ref} {ownerKey label : String} {r : Ref} {d : TypeDescriptor} {came : Option String}
    (hType : w.descriptor r = .ok d) :
    w.Echoes later keys exact id (w.followObject visit owner ownerKey label r d came)
      ((w.on later).followObject visit' owner ownerKey label r d came) := by
  unfold followObject
  rw [on_endsOf hResumes]
  refine echoes_liftM_bind _ fun ends _ => ?_
  obtain ⟨start, finish⟩ := ends
  simp only [on_descriptor hResumes]
  refine echoes_liftM_bind _ fun dStart hStart => ?_
  refine echoes_bind (echoes_identify hResumes hNative hStart) fun i i' hStartKey => ?_
  refine echoes_liftM_bind _ fun dFinish hFinish => ?_
  refine echoes_bind (echoes_identify hResumes hNative hFinish) fun j j' hFinishKey => ?_
  simp only [hStartKey, hFinishKey]
  refine echoes_liftM_bind _ fun other _ => ?_
  refine echoes_bind (echoes_recordObject hResumes hNative hType) fun _ _ _ => ?_
  exact echoes_ite (echoes_pure id rfl) (hVisit other.1 _)

theorem echoes_follow {visit visit' : Ref → Option String → Walk Unit}
    (hVisit : ∀ r came, w.Echoes later keys exact id (visit r came) (visit' r came))
    (owner : Ref) (ownerKey : String) (came : Option String) (role : RelationshipRole)
    (target : Ref) :
    w.Echoes later keys exact id (w.follow visit owner ownerKey came role target)
      ((w.on later).follow visit' owner ownerKey came role target) := by
  unfold follow
  rw [on_descriptor hResumes]
  refine echoes_liftM_bind _ fun d hType => ?_
  exact echoes_ite (echoes_followObject hResumes hNative hVisit hType)
    (echoes_followNode hResumes hNative hVisit hType)

theorem echoes_visit (hops : Nat) (r : Ref) (came : Option String) :
    w.Echoes later keys exact id (w.visit hops r came) ((w.on later).visit hops r came) := by
  -- On the hops left: the visits from the references have one hop less.
  induction hops generalizing r came with
  | zero => exact echoes_bind (echoes_enter hResumes hNative r) fun _ _ _ => echoes_pure id rfl
  | succ hops ih =>
      refine echoes_bind (echoes_enter hResumes hNative r) fun found found' hFound => ?_
      obtain rfl : found' = found := hFound
      obtain ⟨d, key⟩ := found'
      simp only [on_references hResumes]
      exact echoes_forM _ fun reference _ =>
        echoes_follow hResumes hNative ih r key came reference.1 reference.2

/-- Planning again over a later heap that holds the generated keys gives the same plan, and with `exact`
it succeeds. -/
theorem make_again {root : Ref} {depth taken after : Nat} {p : Plan}
    (hMade : Plan.make w.model w.registry w.heap root depth taken = (.ok p, after))
    (hKeys : p.assigned ⊆ keys) (takenLater : Nat) :
    (∀ p' after', Plan.make w.model w.registry later root depth takenLater = (.ok p', after') →
      p.Again exact p') ∧
    (exact → ∃ p' after',
      Plan.make w.model w.registry later root depth takenLater = (.ok p', after')) := by
  obtain ⟨s, hGives, rfl, -⟩ := make_cases hMade
  have hStart : w.Beside later exact (.start taken) (.start takenLater) :=
    ⟨.nil, rfl, rfl, rfl, ⟨.nil, .nil, rfl⟩⟩
  obtain ⟨hAll, hSome⟩ :=
    (echoes_visit hResumes hNative depth root none _ _ _ hGives).2 hKeys _ hStart
  constructor
  · intro p' after' hAgain
    obtain ⟨s', hGives', rfl, -⟩ := make_cases (w := w.on later) hAgain
    exact (hAll () s' hGives').2.plan
  · intro hExact
    obtain ⟨⟨⟩, s', hGives'⟩ := hSome hExact
    refine ⟨s'.plan, s'.taken, ?_⟩
    -- The checks before the walk have passed before, and the root has kept its type.
    unfold Plan.make at hMade ⊢
    rw [hResumes.typeOf]
    split at hMade
    · cases hMade
    · cases hMade
    · have hRun : (Walker.visit ⟨w.model, w.registry, later⟩ depth root none).run
          (.start takenLater) = (.ok (), s') := hGives'
      simp only [hRun]
      rfl

end

end Walker

end GraphMapping

import GraphMapping.Proofs.ObjectGraph.Rebuild

/-!
# What the passes over a load result make

A node or a relationship may stand in a load result several times; the first entry with its number
counts.  When the passes over nodes and relationships succeed, they have made exactly one object for each
number of a node, from its first entry, and found out of each number of a relationship where it belongs,
from its first entry.  Later objects leave the earlier ones alone.
-/

namespace GraphMapping

/-- Items, each number once: of those with one number the first. -/
def eachOnce {α : Type} (number : α → Int64) : List α → List α
  | [] => []
  | a :: rest => a :: (eachOnce number rest).filter fun b => number b != number a

/-- All objects of a heap are still the same in a later one. -/
structure Heap.Keeps {σ : Type} (heap heap' : Heap σ) : Prop where
  size : heap.size ≤ heap'.size
  cell : ∀ r, r < heap.size → heap'.cell r = heap.cell r

/-- An object is what a type makes of stored properties. -/
def Heap.Made {σ : Type} (model : EntityModel σ) (registry : Registry) (heap : Heap σ) (r : Ref)
    (d : TypeDescriptor) (id : Int64) (properties : Dict Value) : Prop :=
  r < heap.size ∧ ∃ state,
    populate model registry.strategy.isNative d id properties (model.fresh d.type) = .ok state ∧
      heap.cell r = ⟨d.type, state⟩

/-- The object of a node is made from an entry of it. -/
structure NodeMade {σ : Type} (model : EntityModel σ) (registry : Registry) (heap : Heap σ)
    (node : StoredNode) (entry : Int64 × Ref) : Prop where
  id : entry.1 = node.id
  made : ∃ d, registry.withLabels node.labels = .ok d ∧
    heap.Made model registry entry.2 d node.id node.properties

/-- What is found out about a relationship follows from the labels of its ends, and its object is made from
its entry. -/
structure LinkMade {σ : Type} (model : EntityModel σ) (registry : Registry)
    (labels : List (Int64 × String)) (heap : Heap σ) (e : StoredEdge) (l : EdgeLink) : Prop where
  edge : l.edge = e
  resolved : ∃ start finish, labels.lookup e.start = some start ∧ labels.lookup e.finish = some finish ∧
    registry.resolve ⟨start, e.type, finish⟩ = .ok l.taken
  object : (l.taken.object = none ∧ l.object = none) ∨
    ∃ type r d, l.taken.object = some type ∧ l.object = some r ∧ registry.descriptor type = .ok d ∧
      heap.Made model registry r d e.id e.properties

/-- The passes over nodes and relationships have made exactly the objects that they should, all different. -/
structure PassesMade {σ : Type} (model : EntityModel σ) (registry : Registry)
    (entries : List StoredNode) (edges : List StoredEdge) (nodes : List (Int64 × Ref))
    (links : List EdgeLink) (heap : Heap σ) : Prop where
  nodesMade : List.Forall₂ (NodeMade model registry heap) (eachOnce (·.id) entries) nodes
  linksMade : List.Forall₂ (LinkMade model registry (ObjectGraph.nodeLabels registry entries) heap)
    (eachOnce (·.id) edges) links
  apart : (nodes.map (·.2) ++ links.filterMap (·.object)).Nodup

/-! ## Each number once -/

section

variable {α : Type} {number : α → Int64} {xs ys : List α} {a : α} {n : Int64}

theorem eachOnce_cons (number : α → Int64) (a : α) (rest : List α) : eachOnce number (a :: rest) =
    a :: (eachOnce number rest).filter fun b => number b != number a :=
  rfl

theorem eachOnce_sublist (number : α → Int64) (xs : List α) : (eachOnce number xs).Sublist xs := by
  induction xs with
  | nil => exact .refl _
  | cons a rest ih => exact (List.filter_sublist.trans ih).cons_cons a

theorem nodup_eachOnce (number : α → Int64) (xs : List α) : ((eachOnce number xs).map number).Nodup := by
  induction xs with
  | nil => exact List.nodup_nil
  | cons a rest ih =>
      rw [eachOnce_cons, List.map_cons, List.nodup_cons]
      refine ⟨fun hMem => ?_, (List.filter_sublist.map number).nodup ih⟩
      obtain ⟨b, hb, hSame⟩ := List.mem_map.1 hMem
      have hOther := (List.mem_filter.1 hb).2
      rw [hSame] at hOther
      simp at hOther

/-- Only items with another number than those before count. -/
theorem filter_eachOnce_cons (known : Int64 → Bool) (a : α) (rest : List α) :
    (eachOnce number (a :: rest)).filter (fun b => !known (number b)) =
      if known (number a) then (eachOnce number rest).filter fun b => !known (number b)
      else a :: (eachOnce number rest).filter fun b => !(known (number b) || number b == number a) := by
  rw [eachOnce_cons, List.filter_cons, List.filter_filter]
  by_cases hKnown : known (number a) = true
  · rw [if_neg (by simp [hKnown]), if_pos hKnown]
    refine List.filter_congr fun b _ => ?_
    by_cases hSame : number b = number a
    · simp [hSame, hKnown]
    · simp [hSame]
  · rw [if_pos (by simpa using hKnown), if_neg hKnown]
    refine congrArg (List.cons a) (List.filter_congr fun b _ => ?_)
    rw [Bool.not_or]
    rfl

theorem find?_eachOnce (number : α → Int64) (xs : List α) (n : Int64) :
    (eachOnce number xs).find? (fun a => number a == n) = xs.find? fun a => number a == n := by
  induction xs with
  | nil => rfl
  | cons a rest ih =>
      rw [eachOnce_cons, List.find?_cons, List.find?_cons]
      by_cases hHere : number a = n
      · simp [hHere]
      · have hNot : (number a == n) = false := by simpa using hHere
        rw [hNot, List.find?_filter, ← ih]
        refine congrArg (fun p => (eachOnce number rest).find? p) (funext fun b => ?_)
        by_cases hThere : number b = n
        · simp [hThere, Ne.symm hHere]
        · simp [hThere]

theorem mem_eachOnce_iff : a ∈ eachOnce number xs ↔
    xs.find? (fun b => number b == number a) = some a := by
  rw [← find?_eachOnce]
  constructor
  · intro hMem
    cases hFind : (eachOnce number xs).find? fun b => number b == number a with
    | none =>
        have hNot := List.find?_eq_none.1 hFind a hMem
        simp at hNot
    | some b =>
        have hSame : number b = number a := by simpa using List.find?_some hFind
        exact congrArg some (List.inj_on_of_nodup_map (nodup_eachOnce number xs)
          (List.mem_of_find?_eq_some hFind) hMem hSame)
  · exact List.mem_of_find?_eq_some

theorem mem_numbers_eachOnce : n ∈ (eachOnce number xs).map number ↔ n ∈ xs.map number := by
  have hFind : ∀ ys : List α, n ∈ ys.map number ↔ (ys.find? fun a => number a == n).isSome := by
    intro ys
    simp [List.find?_isSome]
  rw [hFind, hFind, find?_eachOnce]

theorem eachOnce_append (xs ys : List α) : eachOnce number (xs ++ ys) =
    eachOnce number xs ++ (eachOnce number ys).filter fun b => !(xs.map number).contains (number b) := by
  induction xs with
  | nil => simp [eachOnce]
  | cons a rest ih =>
      rw [List.cons_append, eachOnce_cons, eachOnce_cons, ih, List.filter_append, List.filter_filter,
        List.cons_append]
      refine congrArg (fun tail => a :: (_ ++ tail)) (List.filter_congr fun b _ => ?_)
      simp [bne, Bool.beq_eq_decide_eq]

/-- An item whose number was there before does not count. -/
theorem eachOnce_repeat (hKnown : number a ∈ xs.map number) :
    eachOnce number (xs ++ a :: ys) = eachOnce number (xs ++ ys) := by
  rw [eachOnce_append, eachOnce_append,
    filter_eachOnce_cons (fun n => (xs.map number).contains n) a ys, if_pos (by simpa using hKnown)]

end

theorem distinctIds_eq (nodes : List StoredNode) :
    ObjectGraph.distinctIds nodes = (eachOnce (·.id) nodes).map (·.id) := by
  have hAll : ∀ ids : List Int64,
      nodes.foldl (fun ids node => if ids.contains node.id then ids else ids ++ [node.id]) ids =
        ids ++ ((eachOnce (·.id) nodes).filter fun node => !ids.contains node.id).map (·.id) := by
    induction nodes with
    | nil => simp [eachOnce]
    | cons node rest ih =>
        intro ids
        rw [List.foldl_cons, ih, filter_eachOnce_cons (fun n => ids.contains n)]
        by_cases hKnown : ids.contains node.id = true
        · rw [if_pos hKnown, if_pos hKnown]
        · rw [if_neg hKnown, if_neg hKnown, List.map_cons, List.append_assoc, List.singleton_append]
          refine congrArg (fun kept => ids ++ node.id :: List.map _ kept)
            (List.filter_congr fun b _ => ?_)
          simp [Bool.beq_eq_decide_eq]
  unfold ObjectGraph.distinctIds
  rw [hAll []]
  simp

/-! ## Objects that are made -/

section

variable {σ : Type} {model : EntityModel σ} {registry : Registry} {heap heap' heap'' : Heap σ}
  {d : TypeDescriptor} {id : Int64} {properties : Dict Value} {r : Ref} {node : StoredNode}
  {entry : Int64 × Ref} {nodes nodes' : List (Int64 × Ref)} {labels : List (Int64 × String)}

theorem Heap.Keeps.refl (heap : Heap σ) : heap.Keeps heap :=
  ⟨Nat.le_refl _, fun _ _ => rfl⟩

theorem Heap.Keeps.trans (h : heap.Keeps heap') (h' : heap'.Keeps heap'') : heap.Keeps heap'' :=
  ⟨Nat.le_trans h.size h'.size,
    fun r hr => (h'.cell r (Nat.lt_of_lt_of_le hr h.size)).trans (h.cell r hr)⟩

theorem Heap.Made.mono (h : heap.Made model registry r d id properties) (hKeeps : heap.Keeps heap') :
    heap'.Made model registry r d id properties := by
  obtain ⟨hr, state, hState, hCell⟩ := h
  exact ⟨Nat.lt_of_lt_of_le hr hKeeps.size, state, hState, (hKeeps.cell r hr).trans hCell⟩

theorem NodeMade.mono (h : NodeMade model registry heap node entry) (hKeeps : heap.Keeps heap') :
    NodeMade model registry heap' node entry := by
  obtain ⟨d, hLabels, hMade⟩ := h.made
  exact ⟨h.id, d, hLabels, hMade.mono hKeeps⟩

namespace ObjectGraph

/-- Building an object makes it behind all others. -/
theorem build_made (h : build model registry d id properties heap = .ok (r, heap')) :
    heap.Keeps heap' ∧ r = heap.size ∧ heap'.Made model registry r d id properties := by
  obtain ⟨state, hState, h⟩ := bind_eq_ok.1 h
  cases h
  refine ⟨⟨Nat.le_succ _, fun q hq => ?_⟩, rfl, Nat.lt_succ_self _, state, hState, ?_⟩
  · exact if_neg (Nat.ne_of_lt hq)
  · exact if_pos rfl

theorem lookup_concat_isSome (nodes : List (Int64 × Ref)) (k n : Int64) (r : Ref) :
    ((nodes ++ [(k, r)]).lookup n).isSome = ((nodes.lookup n).isSome || n == k) := by
  rw [List.lookup_append]
  cases nodes.lookup n with
  | some q => rfl
  | none => cases hSame : n == k <;> simp [List.lookup_cons, hSame]

/-- The objects of nodes are made from the first entry of each number that has none yet. -/
theorem buildNodes_made {more : List StoredNode}
    (h : buildNodes model registry more nodes heap = .ok (nodes', heap')) :
    heap.Keeps heap' ∧ ∃ made, nodes' = nodes ++ made ∧
      List.Forall₂ (NodeMade model registry heap')
        ((eachOnce (·.id) more).filter fun node => !(nodes.lookup node.id).isSome) made ∧
      (made.map (·.2)).Nodup ∧ ∀ r ∈ made.map (·.2), heap.size ≤ r := by
  induction more generalizing nodes heap with
  | nil =>
      cases h
      exact ⟨.refl _, [], (List.append_nil _).symm, .nil, .nil, fun _ hr => absurd hr List.not_mem_nil⟩
  | cons node rest ih =>
      rw [filter_eachOnce_cons (fun n => (nodes.lookup n).isSome)]
      unfold buildNodes at h
      split at h
      · rename_i hKnown
        rw [if_pos hKnown]
        exact ih h
      · rename_i hNew
        rw [if_neg hNew]
        obtain ⟨d, hLabels, h⟩ := bind_eq_ok.1 h
        obtain ⟨⟨r, next⟩, hBuild, h⟩ := bind_eq_ok.1 h
        obtain ⟨hFirst, rfl, hMade⟩ := build_made hBuild
        obtain ⟨hLater, made, rfl, hAll, hApart, hFresh⟩ := ih h
        have hNode : NodeMade model registry heap' node (node.id, heap.size) :=
          ⟨rfl, d, hLabels, hMade.mono hLater⟩
        refine ⟨hFirst.trans hLater, (node.id, heap.size) :: made, by simp, .cons hNode ?_, ?_, ?_⟩
        · simpa only [lookup_concat_isSome] using hAll
        · -- Later objects lie behind the one that was just made.
          rw [List.map_cons, List.nodup_cons]
          exact ⟨fun hMem => absurd (Nat.lt_of_lt_of_le hMade.1 (hFresh _ hMem)) (Nat.lt_irrefl _),
            hApart⟩
        · intro q hq
          rcases List.mem_cons.1 hq with rfl | hq
          · exact Nat.le_refl _
          · exact Nat.le_trans hFirst.size (hFresh q hq)

theorem buildObject_made {object : Option TypeName} {built : Option Ref}
    (h : buildObject model registry e object heap = .ok (built, heap')) :
    heap.Keeps heap' ∧ ((object = none ∧ built = none) ∨ ∃ type d, object = some type ∧
      built = some heap.size ∧ registry.descriptor type = .ok d ∧
      heap'.Made model registry heap.size d e.id e.properties) := by
  unfold buildObject at h
  split at h
  · cases h
    exact ⟨.refl _, .inl ⟨rfl, rfl⟩⟩
  · rename_i type
    obtain ⟨d, hd, h⟩ := bind_eq_ok.1 h
    obtain ⟨⟨r, next⟩, hBuild, h⟩ := bind_eq_ok.1 h
    cases h
    obtain ⟨hKeeps, rfl, hMade⟩ := build_made hBuild
    exact ⟨hKeeps, .inr ⟨type, d, rfl, rfl, hd, hMade⟩⟩

/-- Where relationships belong is found out from the first entry of each number, and every object stands for
one of them. -/
theorem resolveEdges_made {edges : List StoredEdge} {seen : List Int64} {links : List EdgeLink}
    (h : resolveEdges model registry labels edges seen heap = .ok (links, heap')) :
    heap.Keeps heap' ∧
      List.Forall₂ (LinkMade model registry labels heap')
        ((eachOnce (·.id) edges).filter fun e => !seen.contains e.id) links ∧
      (links.filterMap (·.object)).Nodup ∧ ∀ r ∈ links.filterMap (·.object), heap.size ≤ r := by
  induction edges generalizing seen heap links with
  | nil =>
      cases h
      exact ⟨.refl _, .nil, .nil, fun _ hr => absurd hr List.not_mem_nil⟩
  | cons e rest ih =>
      rw [filter_eachOnce_cons (fun n => seen.contains n)]
      unfold resolveEdges at h
      split at h
      · rename_i hSeen
        rw [if_pos hSeen]
        exact ih h
      · rename_i hNew
        rw [if_neg hNew]
        obtain ⟨start, hStart, h⟩ := bind_eq_ok.1 h
        obtain ⟨finish, hFinish, h⟩ := bind_eq_ok.1 h
        obtain ⟨taken, hTaken, h⟩ := bind_eq_ok.1 h
        obtain ⟨⟨built, next⟩, hBuild, h⟩ := bind_eq_ok.1 h
        obtain ⟨⟨others, last⟩, hRest, h⟩ := bind_eq_ok.1 h
        cases h
        obtain ⟨hFirst, hObject⟩ := buildObject_made hBuild
        obtain ⟨hLater, hAll, hApart, hFresh⟩ := ih hRest
        have hLink : LinkMade model registry labels heap' e ⟨e, taken, built⟩ := by
          refine ⟨rfl, ⟨start, finish, endOf_eq_ok.1 hStart, endOf_eq_ok.1 hFinish, hTaken⟩, ?_⟩
          rcases hObject with hNone | ⟨type, d, hType, hBuilt, hd, hMade⟩
          · exact .inl hNone
          · exact .inr ⟨type, heap.size, d, hType, hBuilt, hd, hMade.mono hLater⟩
        refine ⟨hFirst.trans hLater, .cons hLink ?_, ?_, ?_⟩
        · refine (List.filter_congr fun b _ => ?_) ▸ hAll
          rw [List.contains_cons, Bool.or_comm]
        · rcases hObject with ⟨-, rfl⟩ | ⟨type, d, -, rfl, -, hMade⟩
          · simpa using hApart
          · refine List.nodup_cons.2 ⟨fun hMem => ?_, hApart⟩
            exact absurd (Nat.lt_of_lt_of_le hMade.1 (hFresh _ hMem)) (Nat.lt_irrefl _)
        · intro r hr
          rcases hObject with ⟨-, rfl⟩ | ⟨type, d, -, rfl, -, -⟩
          · exact Nat.le_trans hFirst.size (hFresh r (by simpa using hr))
          · rcases List.mem_cons.1 hr with rfl | hr
            · exact Nat.le_refl _
            · exact Nat.le_trans hFirst.size (hFresh r hr)

/-- What the two passes make when they succeed. -/
theorem passes_made {entries : List StoredNode} {edges : List StoredEdge} {links : List EdgeLink}
    (hNodes : buildNodes model registry entries [] heap = .ok (nodes, heap'))
    (hLinks : resolveEdges model registry (nodeLabels registry entries) edges [] heap' =
      .ok (links, heap'')) :
    heap.Keeps heap'' ∧ PassesMade model registry entries edges nodes links heap'' := by
  obtain ⟨hFirst, made, hSame, hMade, hApart, -⟩ := buildNodes_made hNodes
  obtain ⟨hSecond, hFound, hObjects, hBehind⟩ := resolveEdges_made hLinks
  rw [List.nil_append] at hSame
  subst hSame
  have hAll : List.Forall₂ (NodeMade model registry heap') (eachOnce (·.id) entries) nodes := by
    simpa using hMade
  refine ⟨hFirst.trans hSecond, hAll.imp fun node entry h => h.mono hSecond, by simpa using hFound, ?_⟩
  refine List.nodup_append.2 ⟨hApart, hObjects, ?_⟩
  rintro r hr q hq rfl
  -- The objects of nodes were there before those of relationships.
  obtain ⟨entry, hEntry, rfl⟩ := List.mem_map.1 hr
  obtain ⟨node, -, hNode⟩ := (exists_of_forall₂ hAll).2 entry hEntry
  obtain ⟨d, -, hHere⟩ := hNode.made
  exact absurd (Nat.lt_of_lt_of_le hHere.1 (hBehind _ hq)) (Nat.lt_irrefl _)

theorem lookup_nodeLabels_find? {entries : List StoredNode} {label : String}
    (hFirst : ∀ node, entries.find? (fun other => other.id == id) = some node →
      ∃ d, registry.withLabels node.labels = .ok d) :
    (nodeLabels registry entries).lookup id = some label ↔ ∃ node d,
      entries.find? (fun other => other.id == id) = some node ∧
        registry.withLabels node.labels = .ok d ∧ d.label = label := by
  induction entries with
  | nil => simp [nodeLabels]
  | cons node rest ih =>
      unfold nodeLabels at ih ⊢
      rw [List.filterMap_cons]
      by_cases hHere : node.id = id
      · have hFind : (node :: rest).find? (fun other => other.id == id) = some node := by
          simp [hHere]
        obtain ⟨d, hd⟩ := hFirst node hFind
        rw [hFind]
        simp only [hd, List.lookup_cons, hHere, beq_self_eq_true]
        constructor
        · intro h
          exact ⟨node, d, rfl, hd, Option.some.inj h⟩
        · rintro ⟨_, d', ⟨⟩, hd', rfl⟩
          rw [ok_unique hd hd']
      · have hFind : (node :: rest).find? (fun other => other.id == id) =
            rest.find? fun other => other.id == id := by
          simp [hHere]
        have hDiffers : (id == node.id) = false := by simpa using Ne.symm hHere
        rw [hFind] at hFirst ⊢
        rw [← ih hFirst]
        cases registry.withLabels node.labels with
        | error fault => exact Iff.rfl
        | ok d => simp only [List.lookup_cons, hDiffers]

/-- Where the first entries of all nodes have labels, these are the labels of the nodes. -/
theorem lookup_nodeLabels_iff {entries : List StoredNode} {n : Int64} {label : String}
    (hLabelled : ∀ node ∈ eachOnce (·.id) entries, ∃ d, registry.withLabels node.labels = .ok d) :
    (nodeLabels registry entries).lookup n = some label ↔
      ∃ node ∈ eachOnce (·.id) entries, node.id = n ∧
        ∃ d, registry.withLabels node.labels = .ok d ∧ d.label = label := by
  have hFirst : ∀ node, entries.find? (fun other => other.id == n) = some node ↔
      node ∈ eachOnce (·.id) entries ∧ node.id = n := by
    intro node
    constructor
    · intro hFind
      have hId : node.id = n := by simpa using List.find?_some hFind
      exact ⟨mem_eachOnce_iff.2 (by rw [hId]; exact hFind), hId⟩
    · rintro ⟨hMem, rfl⟩
      exact mem_eachOnce_iff.1 hMem
  rw [lookup_nodeLabels_find? fun node hFind => hLabelled node ((hFirst node).1 hFind).1]
  constructor
  · rintro ⟨node, d, hFind, hd, hLabel⟩
    exact ⟨node, ((hFirst node).1 hFind).1, ((hFirst node).1 hFind).2, d, hd, hLabel⟩
  · rintro ⟨node, hMem, hId, d, hd, hLabel⟩
    exact ⟨node, d, (hFirst node).2 ⟨hMem, hId⟩, hd, hLabel⟩

end ObjectGraph

/-! ## What is made fits -/

section

variable {shape : TypeName → σ → Prop} {entries : List StoredNode} {edges : List StoredEdge}
  {links : List EdgeLink}

theorem PassesMade.fit (h : PassesMade model registry entries edges nodes links heap) :
    NodesFit model registry (eachOnce (·.id) entries) := by
  refine ⟨fun a ha b hb hSame => List.inj_on_of_nodup_map (nodup_eachOnce _ _) ha hb hSame,
    fun node hNode => ?_⟩
  obtain ⟨entry, -, hMade⟩ := (exists_of_forall₂ h.nodesMade).1 node hNode
  obtain ⟨d, hLabels, -, state, hState, -⟩ := hMade.made
  exact ⟨d, hLabels, state, hState⟩

theorem PassesMade.numbers (h : PassesMade model registry entries edges nodes links heap) :
    nodes.map (·.1) = (eachOnce (·.id) entries).map (·.id) := by
  have hNodes := h.nodesMade
  generalize eachOnce (·.id) entries = firsts at hNodes
  clear h
  induction hNodes with
  | nil => rfl
  | cons hNode _ ih => rw [List.map_cons, List.map_cons, hNode.id, ih]

/-- The label of a node is that of its object's type. -/
theorem PassesMade.label (h : PassesMade model registry entries edges nodes links heap) {n : Int64}
    {label : String} : (ObjectGraph.nodeLabels registry entries).lookup n = some label ↔
      ∃ node ∈ eachOnce (·.id) entries, node.id = n ∧
        ∃ d, registry.withLabels node.labels = .ok d ∧ d.label = label :=
  ObjectGraph.lookup_nodeLabels_iff fun node hNode => (h.fit.fits node hNode).imp fun _ hd => hd.1

variable (hFresh : ∀ d ∈ registry.types, shape d.type (model.fresh d.type))
  (hWrites : ∀ type state field value state', shape type state →
    model.write state field value = .ok state' → shape type state')

include hFresh hWrites

theorem Heap.Made.holds (h : heap.Made model registry r d id properties) (hd : d ∈ registry.types) :
    heap.Holds shape r d.type := by
  obtain ⟨hr, state, hState, hCell⟩ := h
  refine ⟨hr, ?_, ?_⟩
  · rw [Heap.typeOf, hCell]
  · rw [Heap.stateOf, hCell]
    exact populate_shape hWrites (hFresh d hd) hState

theorem PassesMade.built (h : PassesMade model registry entries edges nodes links heap) :
    NodesBuilt registry shape (eachOnce (·.id) entries) nodes heap := by
  refine ⟨?_, (List.nodup_append.1 h.apart).1, fun entry hEntry => ?_, fun node hNode => ?_⟩
  · rw [h.numbers]
    exact nodup_eachOnce _ _
  · obtain ⟨node, hNode, hMade⟩ := (exists_of_forall₂ h.nodesMade).2 entry hEntry
    obtain ⟨d, hLabels, hObject⟩ := hMade.made
    exact ⟨node, hNode, hMade.id.symm, d, hLabels,
      hObject.holds hFresh hWrites (Registry.mem_of_withLabels hLabels).1⟩
  · rw [h.numbers]
    exact List.mem_map_of_mem hNode

theorem PassesMade.linkFor (h : PassesMade model registry entries edges nodes links heap)
    (hl : l ∈ links) : LinkFor registry shape (eachOnce (·.id) entries) heap l.edge l := by
  obtain ⟨e, -, hLink⟩ := (exists_of_forall₂ h.linksMade).2 l hl
  obtain ⟨start, finish, hStart, hFinish, hResolve⟩ := hLink.resolved
  obtain ⟨a, ha, haId, da, hda, rfl⟩ := h.label.1 hStart
  obtain ⟨z, hz, hzId, dz, hdz, rfl⟩ := h.label.1 hFinish
  cases hLink.edge
  refine ⟨rfl, ⟨a, ha, z, hz, haId, hzId, da, dz, hda, hdz, hResolve⟩, ?_⟩
  rcases hLink.object with hNone | ⟨type, r, d, hType, hObject, hd, hMade⟩
  · exact .inl hNone
  · obtain ⟨hMem, rfl⟩ := Registry.mem_of_descriptor hd
    exact .inr ⟨d.type, r, hType, hObject, hMade.holds hFresh hWrites hMem⟩

end

end

end GraphMapping

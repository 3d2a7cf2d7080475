import GraphMapping.Proofs.Persist.Known
import GraphMapping.Proofs.Session.Stable
import GraphMapping.Proofs.Walk.Ball

/-!
# The numbers that a save brings back

Where the database assigns keys, a new object has no key until it was saved.  The plan tells it from all
others by a temporary identity; its row goes to the database under this identity, the answer gives the
identity a number, and the number is written to the object.  If the answers give back the keys that they
were asked for, every new object gets the number of its own row.
-/

namespace GraphMapping

open GraphMapping.Action

/-- The key fields of all objects hold an optional integer, and give back a number that they take. -/
structure Walker.IntegerKeyed {σ : Type} (w : Walker σ) : Prop where
  held : ∀ r d pk, w.descriptor r = .ok d → d.key? = some pk →
    w.heap.value w.model r pk.field = .null ∨ ∃ n, w.heap.value w.model r pk.field = .int n
  back : ∀ r d pk id state, w.descriptor r = .ok d → d.key? = some pk →
    w.model.write (w.heap.stateOf r) pk.field (.int id) = .ok state →
    w.model.read state pk.field = some (.int id)

/-- Every node row was answered with its key, and the row of a new node with a number that no row with
another key was answered with. -/
structure Plan.AnsweredApart (p : Plan) (calls : List Call) : Prop where
  keys : ∀ answer ∈ nodeAnswers calls, (answer.2.map rowKey).Perm answer.1.keys
  apart : ∀ n ∈ p.allNodes, n.isNew = true → ∀ given ∈ givenNumbers calls, given.1 = n.identity →
    ∀ other ∈ givenNumbers calls, other.1 ≠ n.identity → other.2 ≠ given.2

/-- A walk identifies an object that holds no key. -/
structure Walker.Unsaved {σ : Type} (w : Walker σ) (root : Ref) (depth taken : Nat) (r : Ref)
    (d : TypeDescriptor) (pk : FieldDescriptor) : Prop where
  met : w.identityOf root depth taken r ≠ none
  type : w.descriptor r = .ok d
  key : d.key? = some pk
  unset : w.heap.value w.model r pk.field = .null

/-- A number was given to an object: the plan has a new node for it, made from what it shows, the row of
this node was sent with the new nodes of its label, and in the answer it is the one number of the node's
identity. -/
structure Walker.NumberedBy {σ : Type} (w : Walker σ) (p : Plan) (calls : List Call) (r : Ref)
    (d : TypeDescriptor) (n : PlannedNode) (id : Int64) : Prop where
  planned : n ∈ p.allNodes
  own : n.ref = r
  new : n.isNew = true
  label : n.label = d.label
  shown : snapshot w.model d (w.heap.stateOf r) = .ok n.params
  answered : ∃ items rows, (n.label, items) ∈ p.nodes ∧ n ∈ items ∧
    (createBatch n.label (items.filter (·.isNew)), rows) ∈ nodeAnswers calls ∧
      ∀ id', (n.identity, id') ∈ numbersIn rows ↔ id' = id

/-- What a save makes of the objects where the database assigns keys: the ones without a key that its walk
has met get the numbers of their own rows, all different, and nothing else changes. -/
structure Walker.NumbersEach {σ : Type} (w : Walker σ) (root : Ref) (depth taken : Nat) (p : Plan)
    (calls : List Call) (later : Heap σ) : Prop where
  met : ∀ hops r came, w.Visits (w.givenKey root depth taken) depth root none hops r came →
    w.identityOf root depth taken r ≠ none ∧ ∃ d pk, w.NodeAs r d ∧ d.key? = some pk
  numbered : ∀ r d pk, w.Unsaved root depth taken r d pk → ∃ n id, w.NumberedBy p calls r d n id ∧
    later.value w.model r pk.field = .int id
  apart : ∀ q d pk r d' pk', w.Unsaved root depth taken q d pk → w.Unsaved root depth taken r d' pk' →
    q ≠ r → later.value w.model q pk.field ≠ later.value w.model r pk'.field
  old : ∀ q d pk r d' pk' m, w.Unsaved root depth taken q d pk → w.identityOf root depth taken r ≠ none →
    w.descriptor r = .ok d' → d'.key? = some pk' → w.heap.value w.model r pk'.field = .int m →
    (∀ given ∈ givenNumbers calls, given.1 = toString m.toInt → given.2 = m) →
    later.value w.model q pk.field ≠ later.value w.model r pk'.field
  unchanged : ∀ r, (∀ d pk, ¬ w.Unsaved root depth taken r d pk) → later.cell r = w.heap.cell r
  others : ∀ r d pk, w.Unsaved root depth taken r d pk → later.typeOf r = w.heap.typeOf r ∧
    w.model.ends (later.stateOf r) = w.model.ends (w.heap.stateOf r) ∧
    (∀ field, w.model.related (later.stateOf r) field = w.model.related (w.heap.stateOf r) field) ∧
    ∀ field, field ≠ pk.field →
      w.model.read (later.stateOf r) field = w.model.read (w.heap.stateOf r) field
  temporary : ∀ r d pk, w.Unsaved root depth taken r d pk →
    (∀ m : Int64, w.givenKey root depth taken r ≠ toString m.toInt) ∧
    ∀ q, w.identityOf root depth taken q ≠ none →
      w.givenKey root depth taken q = w.givenKey root depth taken r → q = r

/-! ## What the server was asked in a save -/

section

variable {σ δ : Type} {server : Server δ} {d d' : δ} {calls calls' : List Call}

theorem returns_attempt {ω α : Type} {remote : Server ω} {work : Action ω α} {w w' : ω} {a : α}
    (h : Returns (remote.attempt work) w a w') : Returns work w a w' := by
  unfold Returns at h ⊢
  rcases hRun : work w with ⟨b | e | _, u⟩
  · rw [attempt_ok hRun] at h
    exact h
  · rw [attempt_error hRun] at h
    unfold Server.abandon at h
    rcases hBack : remote.rollback u with ⟨reply, u'⟩
    rw [hBack] at h
    cases reply <;> cases h
  · rw [attempt_hang hRun] at h
    exact h

/-- Work that was committed has asked all that was asked in its transaction. -/
theorem returns_transaction {α : Type} {work : Action (δ × List Call) α} {a : α}
    (h : Returns (server.answered.transaction work) (d, calls) a (d', calls')) :
    ∃ d₁ d₂, Returns work (d₁, calls) a (d₂, calls') := by
  rw [transaction_eq] at h
  obtain ⟨_, ⟨d₁, calls₁⟩, hBegin, h⟩ := returns_bind.1 h
  obtain ⟨b, ⟨d₂, calls₂⟩, hWork, h⟩ := returns_bind.1 h
  obtain ⟨_, ⟨d₃, calls₃⟩, hCommit, h⟩ := returns_bind.1 h
  obtain ⟨rfl, hLast⟩ := returns_pure.1 h
  -- Neither the beginning nor the commit is a statement.
  have hFirst : calls₁ = calls := (congrArg (fun result => result.2.2) hBegin).symm
  have hSecond : calls₃ = calls₂ := (congrArg (fun result => result.2.2) hCommit).symm
  cases hLast
  subst hFirst hSecond
  exact ⟨d₁, d₂, returns_attempt hWork⟩

end

/-! ## Temporary identities -/

/-- A temporary identity is not the text of a number. -/
theorem temporary_ne_number (k : Nat) (m : Int64) : temporaryFront ++ toString k ≠ toString m.toInt := by
  intro hSame
  have hRead := readInt64_toString m
  have hText : (temporaryFront ++ toString k).toList = 'n' :: ("ew:".toList ++ (toString k).toList) := by
    rw [String.toList_append]
    rfl
  rw [← hSame] at hRead
  unfold readInt64 at hRead
  rw [hText] at hRead
  simp at hRead

namespace Walker

open Walk WalkState

variable {σ : Type} {w : Walker σ} {root r q : Ref} {depth taken after : Nat} {p : Plan} {s : WalkState}
  {d : TypeDescriptor} {pk : FieldDescriptor} {i : Identity}

/-- The keys of objects that hold integers are the texts of numbers. -/
theorem IntegerKeyed.noneTemporary (h : w.IntegerKeyed) : w.NoneTemporary root depth taken := by
  intro r d pk n _ hType hPk hKey
  rcases h.held r d pk hType hPk with hNull | ⟨m, hInt⟩
  · rw [hNull] at hKey
    cases hKey
  · rw [hInt] at hKey
    exact temporary_ne_number n m (Option.some.inj hKey).symm

/-- Where the database assigns keys, nothing is taken from the generator. -/
theorem assigned_eq_nil (hNative : w.registry.strategy.isNative = true)
    (hMade : Plan.make w.model w.registry w.heap root depth taken = (.ok p, after)) :
    p.assigned = [] ∧ after = taken := by
  obtain ⟨s, rfl, rfl, -, hTakes⟩ := takes_of_make hMade
  have hKeys := KeyRecords.of_takes hTakes
  have hNone : s.plan.assigned = [] := by
    refine List.eq_nil_iff_forall_not_mem.2 fun a ha => ?_
    obtain ⟨n, -, -, hValue⟩ := value_of_assigned hKeys ha
    unfold KeyStrategy.generate at hValue
    cases hSource : w.registry.strategy.source with
    | database =>
        rw [hSource] at hValue
        cases hValue
    | generated sequence =>
        unfold KeyStrategy.isNative at hNative
        rw [hSource] at hNative
        cases hNative
  refine ⟨hNone, ?_⟩
  rw [hKeys.count, hNone]
  rfl

section

variable (hFinished : w.Finished root depth taken p s)
  (hIdentities : w.IdentityRecords (w.trail (w.givenKey root depth taken) depth root none) s)
  (hNative : w.registry.strategy.isNative = true) (hInteger : w.IntegerKeyed)

include hFinished hIdentities

omit hFinished in
/-- What the walk has identified has a key field. -/
theorem key_of_identified (h : Identified s r) : ∃ d pk, w.descriptor r = .ok d ∧ d.key? = some pk := by
  obtain ⟨i, hi⟩ := h
  cases hIdentities.origin r i hi with
  | held hType hPk _ => exact ⟨_, _, hType, hPk⟩
  | temporary hType hPk _ _ => exact ⟨_, _, hType, hPk⟩
  | generated hType hPk _ _ _ => exact ⟨_, _, hType, hPk⟩

/-- An object that holds a key goes by it. -/
theorem identityOf_of_held {key : String} (hMet : w.identityOf root depth taken r ≠ none)
    (hType : w.descriptor r = .ok d) (hPk : d.key? = some pk)
    (hHeld : (w.heap.value w.model r pk.field).key? = some key) :
    w.identityOf root depth taken r = some key := by
  obtain ⟨i, hi⟩ := (identityOf_ne_none hFinished).1 hMet
  rw [hFinished.identity, hi]
  cases hIdentities.origin r i hi with
  | held hType' hPk' hHeld' =>
      cases ok_unique hType hType'
      cases hPk.symm.trans hPk'
      exact hHeld'.symm.trans hHeld
  | temporary hType' hPk' hNone _ =>
      cases ok_unique hType hType'
      cases hPk.symm.trans hPk'
      cases hNone.symm.trans hHeld
  | generated hType' hPk' hNone _ _ =>
      cases ok_unique hType hType'
      cases hPk.symm.trans hPk'
      cases hNone.symm.trans hHeld

/-- An object without a key is new to the walk. -/
theorem Unsaved.identity (h : w.Unsaved root depth taken r d pk) :
    ∃ i, s.identities.lookup r = some i ∧ i.isNew = true ∧ w.givenKey root depth taken r = i.key := by
  obtain ⟨i, hi⟩ := (identityOf_ne_none hFinished).1 h.met
  refine ⟨i, hi, ?_, hFinished.given hi⟩
  cases hIdentities.origin r i hi with
  | held hType hPk hHeld =>
      cases ok_unique h.type hType
      cases h.key.symm.trans hPk
      rw [h.unset] at hHeld
      cases hHeld
  | temporary _ _ _ _ => rfl
  | generated _ _ _ _ _ => rfl

include hNative hInteger

/-- A temporary identity is that of one object, and no other identity is like it. -/
theorem Unsaved.temporary (h : w.Unsaved root depth taken r d pk) :
    (∀ m : Int64, w.givenKey root depth taken r ≠ toString m.toInt) ∧
      ∀ q, w.identityOf root depth taken q ≠ none →
        w.givenKey root depth taken q = w.givenKey root depth taken r → q = r := by
  obtain ⟨i, hi, hNew, hGiven⟩ := h.identity hFinished hIdentities
  constructor
  · intro m
    obtain ⟨-, k, hKey⟩ := temporary_of_new hIdentities hNative hi hNew
    rw [hGiven, hKey]
    exact temporary_ne_number k m
  · intro q hq hSame
    obtain ⟨j, hj⟩ := (identityOf_ne_none hFinished).1 hq
    rw [hGiven, hFinished.given hj] at hSame
    exact (eq_of_temporary hFinished hIdentities hNative hInteger.noneTemporary hi hj hNew hSame).1

/-- A new node stands for an object without a key, and each of these has a new node of its own. -/
theorem Unsaved.planned (h : w.Unsaved root depth taken r d pk) : ∃ n ∈ p.allNodes, n.ref = r ∧
    n.isNew = true ∧ n.identity = w.givenKey root depth taken r ∧ n.label = d.label ∧
      snapshot w.model d (w.heap.stateOf r) = .ok n.params := by
  obtain ⟨i, hi, hNew, hGiven⟩ := h.identity hFinished hIdentities
  obtain ⟨n, hn, rfl, hNewNode, hIdentity⟩ :=
    planned_of_new hFinished hIdentities hNative hInteger.noneTemporary hi hNew
  have hRecord := hFinished.recorded.nodes.planned n (by rw [hFinished.plan]; exact hn)
  obtain ⟨-, d', j, params, hNode, -, hParams, hPlanned⟩ := hRecord
  cases ok_unique h.type hNode.1
  have hShown : n.params = params := congrArg PlannedNode.params hPlanned
  exact ⟨n, hn, rfl, hNewNode, hIdentity.trans hGiven.symm, congrArg PlannedNode.label hPlanned,
    hShown ▸ hParams⟩

omit hNative in
theorem unsaved_of_new {n : PlannedNode} (hn : n ∈ p.allNodes) (hNew : n.isNew = true) :
    ∃ d pk, w.Unsaved root depth taken n.ref d pk := by
  have hRecord := hFinished.recorded.nodes.planned n (by rw [hFinished.plan]; exact hn)
  obtain ⟨-, d, i, params, hNode, hi, -, hPlanned⟩ := hRecord
  have hNewIdentity : i.isNew = true := (congrArg PlannedNode.isNew hPlanned).symm.trans hNew
  have hMet := (identityOf_ne_none hFinished).2 ⟨i, hi⟩
  have hUnset : ∀ {d : TypeDescriptor} {pk : FieldDescriptor}, w.descriptor n.ref = .ok d →
      d.key? = some pk → (w.heap.value w.model n.ref pk.field).key? = none →
      ∃ d pk, w.Unsaved root depth taken n.ref d pk := by
    intro d pk hType hPk hNone
    refine ⟨d, pk, hMet, hType, hPk, ?_⟩
    rcases hInteger.held _ d pk hType hPk with hNull | ⟨m, hInt⟩
    · exact hNull
    · rw [hInt] at hNone
      cases hNone
  cases hIdentities.origin n.ref i hi with
  | held _ _ _ => cases hNewIdentity
  | temporary hType hPk hNone _ => exact hUnset hType hPk hNone
  | generated hType hPk hNone _ _ => exact hUnset hType hPk hNone

/-- No other node has the identity of a new one. -/
theorem new_unique {n m : PlannedNode} (hn : n ∈ p.allNodes) (hNew : n.isNew = true)
    (hm : m ∈ p.allNodes) (hSame : m.identity = n.identity) : m = n := by
  obtain ⟨d, pk, hUnsaved⟩ := unsaved_of_new hFinished hIdentities hInteger hn hNew
  obtain ⟨-, -, -, hGivenM⟩ := planned_node hFinished hm
  obtain ⟨-, -, -, hGivenN⟩ := planned_node hFinished hn
  apply List.inj_on_of_nodup_map (planned_nodup hFinished) hm hn
  apply (hUnsaved.temporary hFinished hIdentities hNative hInteger).2 m.ref
  · simp [hGivenM]
  · simp [givenKey, hGivenM, hGivenN, hSame]

end

/-! ## Handing out the numbers -/

/-- Every key that is handed out is for a node that was numbered, in the order of the nodes. -/
theorem refs_numberKeys {registry : Registry} {ids : GraphIds} {heap : Heap σ} {nodes : List PlannedNode}
    {keys : List AssignedKey} (h : numberKeys registry ids heap nodes = some keys) :
    (keys.map (·.ref)).Sublist (nodes.map (·.ref)) := by
  induction nodes generalizing keys with
  | nil =>
      cases h
      exact List.Sublist.refl _
  | cons n rest ih =>
      obtain ⟨id, d, others, -, -, hOthers, rfl⟩ := numberKeys_cons h
      cases d.key? with
      | none => exact (ih hOthers).cons _
      | some pk => exact (ih hOthers).cons_cons _

section

variable {δ : Type} {server : Server δ} {db db' : δ} {calls calls₁ : List Call} {ids : GraphIds}
  {keys : List AssignedKey} {later : Heap σ}
  (hFinished : w.Finished root depth taken p s)
  (hIdentities : w.IdentityRecords (w.trail (w.givenKey root depth taken) depth root none) s)
  (hNative : w.registry.strategy.isNative = true) (hInteger : w.IntegerKeyed)
  (hNodes : Returns (persistNodes server.answered w.registry.strategy p.nodes []) (db, []) ids
    (db', calls₁))
  (hGrows : calls₁ ⊆ calls) (hAnswers : p.AnsweredApart calls)
  (hNumbers : numberKeys w.registry ids w.heap (p.allNodes.filter (·.isNew)) = some keys)
  (hTakes : w.heap.Takes w.model keys later)

include hFinished hIdentities hNative hInteger

section

include hAnswers

/-- A number for a new node's identity is an answer to the row of this node. -/
theorem createBatch_of_number {n : PlannedNode} {label : String} {items : List PlannedNode}
    {batches : List Statement} {st : Statement} {rows : List Record} {id : Int64} (hn : n ∈ p.allNodes)
    (hNew : n.isNew = true) (hGroup : (label, items) ∈ p.nodes)
    (hBatches : nodeBatches w.registry.strategy label items = .ok batches) (hst : st ∈ batches)
    (hAnswer : (st, rows) ∈ nodeAnswers calls) (hGiven : (n.identity, id) ∈ numbersIn rows) :
    label = n.label ∧ n ∈ items ∧ st = createBatch label (items.filter (·.isNew)) := by
  obtain ⟨part, hPart, hRows⟩ := (nodeBatches_rows hBatches).1 st hst
  obtain ⟨row, hRow, hKey, -⟩ := mem_numbersIn.1 hGiven
  have hSent : some n.identity ∈ st.keys := by
    rw [← (hAnswers.keys _ hAnswer).mem_iff, ← hKey]
    exact List.mem_map_of_mem hRow
  have hOwn : ∀ m ∈ items, m.identity = n.identity → m = n := fun m hm =>
    new_unique hFinished hIdentities hNative hInteger hn hNew (Dict.mem_members.2 ⟨_, hGroup, hm⟩)
  have hGroups : Dict.Groups PlannedNode.label p.nodes := by
    rw [← hFinished.plan]
    exact hFinished.recorded.nodes.groups
  obtain ⟨m, hm, hIdentity⟩ := hRows.sender hSent
  obtain rfl := hOwn m (hPart hm) hIdentity
  refine ⟨(hGroups.named _ hGroup m (hPart hm)).symm, hPart hm, ?_⟩
  obtain ⟨hNot, -⟩ | ⟨-, updates, hUpdates, -, rfl⟩ := nodeBatches_cases hBatches
  · cases hNative.symm.trans hNot
  rcases List.mem_append.1 hst with hUpdate | hCreate
  · -- Nodes that are matched by their numbers are not new.
    obtain ⟨m', hm', hIdentity'⟩ := (rows_updateBatch (hUpdates st hUpdate)).sender hSent
    obtain ⟨hItem, hOld⟩ := List.mem_filter.1 hm'
    rw [hOwn m' hItem hIdentity', hNew] at hOld
    cases hOld
  · split at hCreate
    · cases hCreate
    · exact List.mem_singleton.1 hCreate

omit hAnswers in
/-- The keys of new nodes in a batch are all different. -/
theorem created_keys_nodup {label : String} {items : List PlannedNode} (hGroup : (label, items) ∈ p.nodes) :
    (createBatch label (items.filter (·.isNew))).keys.Nodup := by
  have hNew : ∀ n ∈ items.filter (·.isNew), n ∈ p.allNodes ∧ n.isNew = true := by
    intro n hn
    obtain ⟨hItem, hNew⟩ := List.mem_filter.1 hn
    exact ⟨Dict.mem_members.2 ⟨_, hGroup, hItem⟩, hNew⟩
  have hItems : items.Nodup := (List.nodup_flatMap.1 (planned_nodup hFinished).of_map).1 _ hGroup
  rw [keys_of_map (f := fun _ => []) rfl fun _ _ he => absurd he List.not_mem_nil]
  refine (hItems.filter _).map_on fun a ha b hb hSame => ?_
  obtain ⟨hA, hNewA⟩ := hNew a ha
  obtain ⟨hB, hNewB⟩ := hNew b hb
  rw [key?_string, key?_string, if_neg (identity_ne_empty hFinished hIdentities hA)]
    at hSame
  split at hSame
  · cases hSame
  · exact new_unique hFinished hIdentities hNative hInteger hB hNewB hA (Option.some.inj hSame)

/-- The answer to the row of a new node gives it one number. -/
theorem number_unique {n : PlannedNode} {items : List PlannedNode} {rows : List Record} {id id' : Int64}
    (hGroup : (n.label, items) ∈ p.nodes)
    (hAnswer : (createBatch n.label (items.filter (·.isNew)), rows) ∈ nodeAnswers calls)
    (hGiven : (n.identity, id) ∈ numbersIn rows) (hGiven' : (n.identity, id') ∈ numbersIn rows) :
    id' = id := by
  have hKeys : (rows.map rowKey).Nodup := by
    rw [(hAnswers.keys _ hAnswer).nodup_iff]
    exact created_keys_nodup hFinished hIdentities hNative hInteger hGroup
  obtain ⟨row, hRow, hKey, hId⟩ := mem_numbersIn.1 hGiven
  obtain ⟨row', hRow', hKey', hId'⟩ := mem_numbersIn.1 hGiven'
  rw [List.inj_on_of_nodup_map hKeys hRow' hRow (hKey'.trans hKey.symm)] at hId'
  exact Option.some.inj (hId'.symm.trans hId)

include hNodes hGrows hNumbers

/-- An object without a key is handed the number that was given to its own row. -/
theorem Unsaved.numberedBy (h : w.Unsaved root depth taken r d pk) : ∃ n id,
    w.NumberedBy p calls r d n id ∧ n.identity = w.givenKey root depth taken r ∧
      ⟨r, pk.field, .int id⟩ ∈ keys := by
  obtain ⟨n, hn, rfl, hNew, hIdentity, hLabel, hShown⟩ :=
    h.planned hFinished hIdentities hNative hInteger
  obtain ⟨id, d', hId, hType, hKeys⟩ := (mem_numberKeys hNumbers).2 n (List.mem_filter.2 ⟨hn, hNew⟩)
  cases ok_unique h.type hType
  obtain hNone | ⟨label, items, batches, st, rows, hGroup, hBatches, hst, hCall, hGiven⟩ :=
    persistNodes_source hNodes hId
  · cases hNone
  have hKind : st.kind = .nodeUpsert := by
    obtain ⟨part, -, hRows⟩ := (nodeBatches_rows hBatches).1 st hst
    exact hRows.kind
  have hAnswer := mem_nodeAnswers.2 ⟨hGrows hCall, hKind⟩
  obtain ⟨rfl, hItem, rfl⟩ := createBatch_of_number hFinished hIdentities hNative hInteger hAnswers hn
    hNew hGroup hBatches hst hAnswer hGiven
  refine ⟨n, id, ⟨hn, rfl, hNew, hLabel, hShown, items, rows, hGroup, hItem, hAnswer, fun id' => ?_⟩,
    hIdentity, hKeys pk h.key⟩
  constructor
  · exact number_unique hFinished hIdentities hNative hInteger hAnswers hGroup hAnswer hGiven
  · rintro rfl
    exact hGiven

end

include hNumbers

omit hIdentities hNative hInteger in
/-- No object is handed two numbers. -/
theorem handed_once : (keys.map (·.ref)).Nodup :=
  (refs_numberKeys hNumbers).nodup
    ((List.filter_sublist.map _).nodup (planned_nodup hFinished))

omit hNative in
/-- Numbers are handed to objects without a key only. -/
theorem unsaved_of_handed {a : AssignedKey} (ha : a ∈ keys) :
    ∃ d pk, w.Unsaved root depth taken a.ref d pk ∧ a.field = pk.field := by
  obtain ⟨n, hn, id, d, pk, -, hType, hPk, rfl⟩ := (mem_numberKeys hNumbers).1 a ha
  obtain ⟨hMember, hNew⟩ := List.mem_filter.1 hn
  obtain ⟨d', pk', hUnsaved⟩ := unsaved_of_new hFinished hIdentities hInteger hMember hNew
  cases ok_unique hType hUnsaved.type
  cases hPk.symm.trans hUnsaved.key
  exact ⟨d, pk, hUnsaved, rfl⟩

include hTakes

omit hNative in
/-- Objects that hold a key, or were not met, are left as they were. -/
theorem cell_of_saved (hNot : ∀ d pk, ¬ w.Unsaved root depth taken r d pk) :
    later.cell r = w.heap.cell r := by
  have hState : later.stateOf r = w.heap.stateOf r := by
    refine (hTakes.states (handed_once hFinished hNumbers)).1 r fun hHanded => ?_
    obtain ⟨a, ha, rfl⟩ := List.mem_map.1 hHanded
    obtain ⟨d, pk, hUnsaved, -⟩ := unsaved_of_handed hFinished hIdentities hInteger hNumbers ha
    exact hNot d pk hUnsaved
  calc
    later.cell r = ⟨later.typeOf r, later.stateOf r⟩ := rfl
    _ = ⟨w.heap.typeOf r, w.heap.stateOf r⟩ := by rw [hTakes.typeOf r, hState]
    _ = w.heap.cell r := rfl

omit hNative in
/-- An object that was handed a number is otherwise as it was. -/
theorem Unsaved.alters (hSeparates : w.model.Separates) (h : w.Unsaved root depth taken r d pk) :
    later.typeOf r = w.heap.typeOf r ∧
      w.model.ends (later.stateOf r) = w.model.ends (w.heap.stateOf r) ∧
      (∀ field, w.model.related (later.stateOf r) field = w.model.related (w.heap.stateOf r) field) ∧
      ∀ field, field ≠ pk.field →
        w.model.read (later.stateOf r) field = w.model.read (w.heap.stateOf r) field := by
  have hAlters := hTakes.alters hSeparates
  refine ⟨hAlters.typeOf r, hAlters.ends r, hAlters.related r, fun field hField => ?_⟩
  apply hAlters.read r field
  rintro ⟨a, ha, rfl, rfl⟩
  obtain ⟨d', pk', hUnsaved, hOwn⟩ := unsaved_of_handed hFinished hIdentities hInteger hNumbers ha
  cases ok_unique h.type hUnsaved.type
  cases h.key.symm.trans hUnsaved.key
  exact hField hOwn

include hNodes hGrows hAnswers

/-- An object without a key holds the number of its own row afterwards. -/
theorem Unsaved.holds (h : w.Unsaved root depth taken r d pk) : ∃ n id,
    w.NumberedBy p calls r d n id ∧ n.identity = w.givenKey root depth taken r ∧
      later.value w.model r pk.field = .int id := by
  obtain ⟨n, id, hNumberedBy, hIdentity, hKey⟩ :=
    h.numberedBy hFinished hIdentities hNative hInteger hNodes hGrows hAnswers hNumbers
  have hWritten := (hTakes.states (handed_once hFinished hNumbers)).2 _ hKey
  refine ⟨n, id, hNumberedBy, hIdentity, ?_⟩
  unfold Heap.value
  rw [hInteger.back r d pk id _ h.type h.key hWritten]
  rfl

omit hNative hInteger hNumbers hTakes in
/-- The answers give a number to the identity of everything that was met. -/
theorem given_of_identity {key : String} (hKey : w.identityOf root depth taken r = some key) :
    ∃ id, (key, id) ∈ givenNumbers calls := by
  have hMet : w.identityOf root depth taken r ≠ none := by simp [hKey]
  obtain ⟨n, hn, hIdentity⟩ :=
    placed_of_identified hFinished hIdentities ((identityOf_ne_none hFinished).1 hMet)
  have hOwn : n.identity = key := hIdentity.trans (givenKey_of_identityOf hKey)
  have hKeys : AnswersKeys calls₁ := by
    intro st rows hCall hKind key hSent
    rwa [(hAnswers.keys _ (mem_nodeAnswers.2 ⟨hGrows hCall, hKind⟩)).mem_iff]
  obtain ⟨id, hId⟩ := (persistNodes_numbers hNodes hKeys).2 n hn
  obtain hNone | ⟨label, items, batches, st, rows, -, hBatches, hst, hCall, hGiven⟩ :=
    persistNodes_source hNodes hId
  · cases hNone
  obtain ⟨part, -, hRows⟩ := (nodeBatches_rows hBatches).1 st hst
  exact ⟨id, hOwn ▸ mem_givenNumbers.2 ⟨st, rows, hGrows hCall, hRows.kind, hGiven⟩⟩

omit hFinished hIdentities hNative hInteger hNodes hGrows hAnswers hNumbers hTakes in
/-- The number of an object was given to its identity. -/
theorem NumberedBy.given {n : PlannedNode} {id : Int64} (h : w.NumberedBy p calls r d n id) :
    (n.identity, id) ∈ givenNumbers calls := by
  obtain ⟨items, rows, -, -, hAnswer, hGiven⟩ := h.answered
  obtain ⟨hCall, hKind⟩ := mem_nodeAnswers.1 hAnswer
  exact mem_givenNumbers.2 ⟨_, rows, hCall, hKind, (hGiven id).2 rfl⟩

/-- What the objects hold after the numbers were handed out, and what is left as it was. -/
theorem numbersEach_of_handed (hSeparates : w.model.Separates) :
    w.NumbersEach root depth taken p calls later := by
  have hHolds : ∀ {r d pk}, w.Unsaved root depth taken r d pk → ∃ n id,
      w.NumberedBy p calls r d n id ∧ n.identity = w.givenKey root depth taken r ∧
        later.value w.model r pk.field = .int id := fun h =>
    h.holds hFinished hIdentities hNative hInteger hNodes hGrows hAnswers hNumbers hTakes
  have hTemporary : ∀ {r d pk}, w.Unsaved root depth taken r d pk → _ := fun h =>
    h.temporary hFinished hIdentities hNative hInteger
  constructor
  case met =>
    intro hops r came hVisit
    have hIdentified := identified_of_visit hFinished hVisit
    obtain ⟨d, hNode⟩ := node_of_visit hFinished hVisit
    obtain ⟨d', pk, hType, hPk⟩ := key_of_identified hIdentities hIdentified
    cases ok_unique hNode.1 hType
    exact ⟨(identityOf_ne_none hFinished).2 hIdentified, d, pk, hNode, hPk⟩
  case numbered =>
    intro r d pk h
    obtain ⟨n, id, hNumberedBy, -, hValue⟩ := hHolds h
    exact ⟨n, id, hNumberedBy, hValue⟩
  case apart =>
    intro q d pk r d' pk' hq hr hOther hSame
    obtain ⟨n, id, hN, hIdentity, hValue⟩ := hHolds hq
    obtain ⟨m, id', hM, hIdentity', hValue'⟩ := hHolds hr
    rw [hValue, hValue'] at hSame
    refine hAnswers.apart n hN.planned hN.new _ hN.given rfl _ hM.given (fun hKey => hOther ?_)
      (Value.int.inj hSame).symm
    change m.identity = n.identity at hKey
    rw [hIdentity, hIdentity'] at hKey
    exact ((hTemporary hq).2 r hr.met hKey).symm
  case old =>
    intro q d pk r d' pk' m hq hMet hType hPk hHeld hOwn hSame
    have hKept : later.cell r = w.heap.cell r := by
      refine cell_of_saved hFinished hIdentities hInteger hNumbers hTakes fun d'' pk'' h => ?_
      cases ok_unique hType h.type
      cases hPk.symm.trans h.key
      cases hHeld.symm.trans h.unset
    have hValueKept : later.value w.model r pk'.field = .int m := by
      unfold Heap.value Heap.stateOf
      rw [hKept]
      exact hHeld
    obtain ⟨n, id, hN, hIdentity, hValue⟩ := hHolds hq
    rw [hValue, hValueKept] at hSame
    cases hSame
    -- The answer gives the number to the row of the other object too.
    have hKey : w.identityOf root depth taken r = some (toString m.toInt) :=
      identityOf_of_held hFinished hIdentities hMet hType hPk (by rw [hHeld]; rfl)
    obtain ⟨id', hGiven⟩ := given_of_identity hFinished hIdentities hNodes hGrows hAnswers hKey
    refine hAnswers.apart n hN.planned hN.new _ hN.given rfl _ hGiven (fun hEqual => ?_)
      (hOwn _ hGiven rfl)
    exact (hTemporary hq).1 m (hIdentity.symm.trans hEqual.symm)
  case unchanged =>
    intro r hNot
    exact cell_of_saved hFinished hIdentities hInteger hNumbers hTakes hNot
  case others =>
    intro r d pk h
    exact h.alters hFinished hIdentities hInteger hNumbers hTakes hSeparates
  case temporary =>
    intro r d pk h
    exact hTemporary h

end

end Walker

/-- Where the database assigns keys and answers each row with its key, and each new one with a number of its
own, a successful save gives every object without a key that its walk has met the number of its own row, and
all of these are different.  Nothing else changes, and nothing is taken from a generator. -/
theorem native_save_numbers {σ δ : Type} (s : Session δ) (model : EntityModel σ) (root : Ref) (depth : Nat)
    (w : World σ δ) (w' : World σ (δ × List Call)) (hNative : s.registry.strategy.isNative = true)
    (hSeparates : model.Separates) (hInteger : (s.walker model w).IntegerKeyed)
    (hAnswers : ∀ p after, Plan.make model s.registry w.heap root depth w.taken = (.ok p, after) →
      p.AnsweredApart w'.db.2)
    (hSave : s.answered.save model root depth ⟨w.heap, w.taken, (w.db, [])⟩ = (.ok (), w')) :
    ∃ p, Plan.make model s.registry w.heap root depth w.taken = (.ok p, w.taken) ∧ p.assigned = [] ∧
      w'.taken = w.taken ∧ (s.walker model w).NumbersEach root depth w.taken p w'.db.2 w'.heap := by
  obtain ⟨p, ids, keys, ⟨after, hMade⟩, hCommitted, hChosen, hHanded⟩ := saved_of_save hSave
  obtain ⟨hNone, rfl⟩ := Walker.assigned_eq_nil (w := s.walker model w) hNative hMade
  refine ⟨p, hMade, hNone, taken_of_save hSave hMade, ?_⟩
  obtain ⟨st, hPlan, -, hIdentity, hTakes⟩ := Walker.takes_of_make (w := s.walker model w) hMade
  obtain ⟨db₁, db₂, hWritten⟩ := returns_transaction hCommitted
  obtain ⟨db₃, calls₁, hNodes, hGrows⟩ := persist_returns hWritten
  have hNumbers : numberKeys s.registry ids w.heap (p.allNodes.filter (·.isNew)) = some keys := by
    unfold Plan.keysToHand at hChosen
    rw [show s.answered.registry.strategy.isNative = true from hNative, if_pos rfl] at hChosen
    obtain ⟨numbers, hNumbers, rfl⟩ := Option.map_eq_some_iff.1 hChosen
    rw [hNone]
    exact hNumbers
  exact Walker.numbersEach_of_handed ⟨hPlan, hIdentity, .of_takes hTakes⟩
    (Walker.IdentityRecords.of_takes hTakes) hNative hInteger hNodes hGrows (hAnswers p _ hMade) hNumbers
    hHanded hSeparates

instance (p : Plan) (calls : List Call) : Decidable (p.AnsweredApart calls) :=
  decidable_of_iff ((∀ answer ∈ nodeAnswers calls, (answer.2.map rowKey).Perm answer.1.keys) ∧
    ∀ n ∈ p.allNodes, n.isNew = true → ∀ given ∈ givenNumbers calls, given.1 = n.identity →
      ∀ other ∈ givenNumbers calls, other.1 ≠ n.identity → other.2 ≠ given.2)
    ⟨fun h => ⟨h.1, h.2⟩, fun h => ⟨h.1, h.2⟩⟩

/-- Objects of declared types whose key fields hold an optional integer comply. -/
theorem integerKeyed_of_declared {types : List DeclaredType} {registry : Registry}
    {heap : Heap DeclaredObject}
    (h : ∀ r d pk, registry.descriptor (heap.typeOf r) = .ok d → d.key? = some pk →
      (heap.stateOf r).type.valueType? pk.field = some (.option .int) ∧
        (heap.value (declaredModel types) r pk.field = .null ∨
          ∃ n, heap.value (declaredModel types) r pk.field = .int n)) :
    Walker.IntegerKeyed ⟨declaredModel types, registry, heap⟩ := by
  refine ⟨fun r d pk hType hPk => (h r d pk hType hPk).2, fun r d pk id state hType hPk hWrite => ?_⟩
  obtain ⟨hValue, -⟩ := h r d pk hType hPk
  change DeclaredObject.write (heap.stateOf r) pk.field (.int id) = .ok state at hWrite
  unfold DeclaredObject.write at hWrite
  rw [hValue] at hWrite
  cases hWrite
  change DeclaredObject.read _ pk.field = _
  unfold DeclaredObject.read
  rw [hValue]
  exact Dict.find?_insert_self _ _ _

/-! Two new sketches after one that the database has. -/

namespace Sketchbook

def sketch : DeclaredType :=
  ⟨"Sketch", "Sketch", none,
    [⟨⟨"id", .scalar, "pk"⟩, .value (.option .int)⟩,
      ⟨⟨"sources", .many "Sketch", "relationship=AFTER;direction=outgoing"⟩, .many "Sketch"⟩], false⟩

def key : FieldDescriptor :=
  ⟨"id", "id", .key false, false, false⟩

def descriptor : TypeDescriptor :=
  ⟨"Sketch", "Sketch", [key,
    ⟨"sources", "sources", .relationship ⟨"AFTER", .outgoing, "Sketch", true⟩, false, false⟩], none⟩

def registry : Registry where
  strategy := .native
  types := [descriptor]
  relationships := [(⟨"Sketch", "AFTER", "Sketch"⟩, ⟨some ⟨"Sketch", "sources", true, .outgoing⟩, none, none⟩)]

example : Registry.ofDecls .native [sketch.decl] = .ok registry := by rfl

def objects : Ref → Instance DeclaredObject
  | 0 => ⟨"Sketch", ⟨sketch, [("id", .null)], [("sources", [1, 2])], ⟨none, none⟩, false⟩⟩
  | 1 => ⟨"Sketch", ⟨sketch, [("id", .null)], [], ⟨none, none⟩, false⟩⟩
  | _ => ⟨"Sketch", ⟨sketch, [("id", .int 7)], [], ⟨none, none⟩, false⟩⟩

def model : EntityModel DeclaredObject :=
  declaredModel [sketch]

def session : Session Script :=
  ⟨registry, Script.server, .standard⟩

def world : World DeclaredObject Script :=
  ⟨⟨3, objects⟩, 0, .new⟩

/-- The plan to save the first sketch with one hop. -/
def plan : Plan where
  nodes := [("Sketch", [⟨"new:1", "Sketch", true, none, [], 0⟩, ⟨"new:2", "Sketch", true, none, [], 1⟩,
    ⟨"7", "Sketch", false, none, [], 2⟩])]
  edges := [("AFTER", [⟨"new:1", "new:2", "AFTER", false, false, none, []⟩,
    ⟨"new:1", "7", "AFTER", false, false, none, []⟩])]
  assigned := []

/-- What this save leaves behind. -/
def saved : World DeclaredObject (Script × List Call) :=
  (session.answered.save model 0 1 ⟨world.heap, 0, (.new, [])⟩).2

theorem integerKeyed : (session.walker model world).IntegerKeyed := by
  refine integerKeyed_of_declared fun r d pk hType hPk => ?_
  match r with
  | 0 | 1 =>
      cases hType
      cases hPk
      exact ⟨rfl, .inl rfl⟩
  | r + 2 =>
      cases hType
      cases hPk
      exact ⟨rfl, .inr ⟨7, rfl⟩⟩

end Sketchbook

theorem sketches_numbered :
    Sketchbook.session.answered.save Sketchbook.model 0 1 ⟨Sketchbook.world.heap, 0, (.new, [])⟩ =
      (.ok (), Sketchbook.saved) ∧
    Sketchbook.plan.AnsweredApart Sketchbook.saved.db.2 ∧ Sketchbook.saved.taken = 0 ∧
    (∃ n id, (Sketchbook.session.walker Sketchbook.model Sketchbook.world).NumberedBy Sketchbook.plan
        Sketchbook.saved.db.2 0 Sketchbook.descriptor n id ∧
      Sketchbook.saved.heap.value Sketchbook.model 0 "id" = .int id) ∧
    Sketchbook.saved.heap.value Sketchbook.model 0 "id" ≠
      Sketchbook.saved.heap.value Sketchbook.model 1 "id" := by
  have hSave : Sketchbook.session.answered.save Sketchbook.model 0 1
      ⟨Sketchbook.world.heap, 0, (.new, [])⟩ = (.ok (), Sketchbook.saved) := by rfl
  have hMade : Plan.make Sketchbook.model Sketchbook.registry Sketchbook.world.heap 0 1 0 =
      (.ok Sketchbook.plan, 0) := by rfl
  have hApart : Sketchbook.plan.AnsweredApart Sketchbook.saved.db.2 := by decide +kernel
  have hAnswers : ∀ p after, Plan.make Sketchbook.model Sketchbook.registry Sketchbook.world.heap 0 1 0 =
      (.ok p, after) → p.AnsweredApart Sketchbook.saved.db.2 := by
    intro p after h
    cases hMade.symm.trans h
    exact hApart
  obtain ⟨p, hPlan, -, hTaken, hEach⟩ := native_save_numbers Sketchbook.session Sketchbook.model 0 1
    Sketchbook.world Sketchbook.saved rfl (declaredModel_separates _) Sketchbook.integerKeyed hAnswers hSave
  cases hMade.symm.trans hPlan
  have hUnsaved : ∀ r, r = 0 ∨ r = 1 →
      (Sketchbook.session.walker Sketchbook.model Sketchbook.world).Unsaved 0 1 0 r Sketchbook.descriptor
        Sketchbook.key := by
    rintro r (rfl | rfl) <;> exact ⟨by decide +kernel, rfl, rfl, rfl⟩
  obtain ⟨n, id, hBy, hValue⟩ := hEach.numbered 0 _ _ (hUnsaved 0 (.inl rfl))
  exact ⟨hSave, hApart, hTaken, ⟨n, id, hBy, hValue⟩,
    hEach.apart 0 _ _ 1 _ _ (hUnsaved 0 (.inl rfl)) (hUnsaved 1 (.inr rfl)) (by decide)⟩

end GraphMapping

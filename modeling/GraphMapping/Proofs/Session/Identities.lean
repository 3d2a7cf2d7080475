import GraphMapping.Proofs.ObjectGraph.Reload
import GraphMapping.Proofs.Session.Transactions
import GraphMapping.Proofs.Walk.Refusals

/-!
# What counts as an identity

Three places look at the key that an object holds.  A walk takes the object as stored before if the key is
text or a number; a delete of the object goes ahead unless the key is null; and whatever is looked up by its
key has to have a key of the strategy's kind.  The three agree exactly on keys that are usable and of the
strategy's kind, and on those that are neither.
-/

namespace GraphMapping

open GraphMapping.Action

/-- A strategy looks up nodes by a key: a number if the database assigns keys, else a value of its kind. -/
def KeyStrategy.looksUp (strategy : KeyStrategy) (key : Value) : Bool :=
  if strategy.isNative then key.int?.isSome else decide (key.kind = strategy.kind)

/-- A statement deletes the nodes of a label that have a key. -/
structure Statement.DeletesKey (s : Statement) (strategy : KeyStrategy) (label : String) (key : Value) :
    Prop where
  kind : s.kind = .delete
  text : s.text = "MATCH (n:" ++ Identifier.quote label ++ ")\nWHERE " ++
    (if strategy.isNative then "id(n)" else Identifier.property "n" strategy.field) ++
      " = $p0\nDETACH DELETE n\nRETURN count(*) AS deleted"
  params : s.params = [("p0", key.storage)]

/-- The record of one statement in a transaction of its own: it was not begun, or the statement was run and
nothing else but the end of the transaction came after it. -/
inductive RunsAlone (s : Statement) : List Moment → Prop
  | refused {reply : Reply Unit} (h : reply ≠ .ok ()) : RunsAlone s [.begin reply]
  | ran (reply : Reply (List Record)) (rest : List Moment) (hRest : ∀ m ∈ rest, m.answer = none) :
      RunsAlone s (.begin (.ok ()) :: .run s reply :: rest)

/-- The key with which a planned node is saved: the one that its object holds, or the one that was made for
it, or whichever number the database gives. -/
inductive PlannedNode.SavedUnder (native : Bool) (held : Value) (n : PlannedNode) : Value → Prop
  | held (hOld : n.isNew = false) : SavedUnder native held n held
  | made {key : Value} (hNew : n.isNew = true) (hNative : native = false) (hKey : n.key = some key) :
      SavedUnder native held n key
  | numbered (id : Int64) (hNew : n.isNew = true) (hNative : native = true) :
      SavedUnder native held n (.int id)

/-- A planned node and its keys: an old node has the identity of the key that its object holds; the key in
the row of a node is one that it is saved under; and the strategy looks up nodes by all of these keys, other
than the one that an object holds. -/
structure PlannedNode.KeyedBy (strategy : KeyStrategy) (held : Value) (n : PlannedNode) : Prop where
  old : n.isNew = false → held.key? = some n.identity
  row : strategy.isNative = false → ∃ key, n.key = some key ∧ n.SavedUnder strategy.isNative held key
  found : ∀ key, n.SavedUnder strategy.isNative held key →
    strategy.looksUp key = true ∨ (n.isNew = false ∧ key = held)

/-- A walk takes an object as stored before. -/
def Walker.Existing {σ : Type} (w : Walker σ) (st : WalkState) (r : Ref) (d : TypeDescriptor) : Prop :=
  ∃ i t, Walk.Gives (w.identify r d) st i t ∧ i.isNew = false

section

variable {δ : Type} {server : Server δ} {u : δ × List Moment} {strategy : KeyStrategy} {label : String}
  {key : Value}

theorem RunsAlone.ne_nil {s : Statement} {ms : List Moment} (h : RunsAlone s ms) : ms ≠ [] := by
  cases h <;> exact List.cons_ne_nil _ _

/-- What runs one statement leaves the record of a transaction that does nothing else. -/
theorem runsAlone_transaction (s : Statement) :
    (server.watched.transaction (server.watched.run s)).Leaves Prod.snd u fun ms _ => RunsAlone s ms := by
  obtain ⟨d, seen⟩ := u
  rw [transaction_eq]
  have hBegin : ∀ reply d', server.begin d = (reply, d') →
      server.watched.begin (d, seen) = (reply, (d', seen ++ [.begin reply])) := by
    intro reply d' h
    change ((server.begin d).1, ((server.begin d).2, seen ++ [.begin (server.begin d).1])) = _
    rw [h]
  rcases hHere : server.begin d with ⟨⟨⟩ | e | _, d'⟩
  · rcases hRun : server.run s d' with ⟨rows | e | _, d''⟩
    all_goals have hWatched := run_watched s (seen ++ [.begin (.ok ())]) hRun
    · refine .of_eq ((bind_ok (hBegin _ _ hHere)).trans (commit_after hWatched)) ?_
        (.ran (.ok rows) [.commit (server.commit d'').1] fun m hm => ?_)
      · simp only [List.append_assoc]
        rfl
      · rw [List.mem_singleton.1 hm]
        rfl
    · obtain ⟨reply, hEq, -⟩ := rollback_after server hWatched
      refine .of_eq ((bind_ok (hBegin _ _ hHere)).trans hEq) ?_
        (.ran (.error e) [.rollback (server.rollback d'').1] fun m hm => ?_)
      · simp only [List.append_assoc]
        rfl
      · rw [List.mem_singleton.1 hm]
        rfl
    · refine .of_eq ((bind_ok (hBegin _ _ hHere)).trans (bind_hang (attempt_hang hWatched))) ?_
        (.ran .hang [] fun m hm => absurd hm List.not_mem_nil)
      simp only [List.append_assoc]
      rfl
  · exact .of_eq (bind_error (hBegin _ _ hHere)) rfl (.refused nofun)
  · exact .of_eq (bind_hang (hBegin _ _ hHere)) rfl (.refused nofun)

/-- A clause with one bound value refers to it by the first name. -/
theorem clause_of_bind (text : String → String) (value : Value) :
    (Clause.empty.bind text value).text = "WHERE " ++ text "p0" ∧
      (Clause.empty.bind text value).params = [("p0", value.storage)] := by
  have hName : Clause.empty.nextName = "p0" := by decide
  unfold Clause.bind
  rw [hName]
  exact ⟨rfl, rfl⟩

/-- A delete with one condition, that something of a node equals a value, asks for nothing else. -/
theorem deletesKey_of_bind {filter : Filter} {text : String → String} {value : Value}
    (hClause : Clause.ofConditions "n" filter = Clause.empty.bind text value)
    (hText : text "p0" = (if strategy.isNative then "id(n)" else
      Identifier.property "n" strategy.field) ++ " = $p0")
    (hValue : value.storage = key.storage) :
    (deleteStatement label filter).DeletesKey strategy label key := by
  obtain ⟨hWhere, hParams⟩ := clause_of_bind text value
  refine ⟨rfl, ?_, ?_⟩
  · unfold deleteStatement
    dsimp only
    rw [hClause, hWhere, hText]
    refine String.toList_inj.1 ?_
    simp only [String.toList_append, List.append_assoc]
    rfl
  · unfold deleteStatement
    dsimp only
    rw [hClause, hParams, hValue]

/-- A key is accepted if the strategy looks up nodes by it; the statement then asks for this key alone. -/
theorem keyFilter_cases (strategy : KeyStrategy) (label : String) (key : Value) :
    (strategy.looksUp key = true ∧ ∃ filter, Session.keyFilter strategy label key = .ok filter ∧
      (deleteStatement label filter).DeletesKey strategy label key) ∨
    (strategy.looksUp key = false ∧
      ∃ text, Session.keyFilter strategy label key = .error (.data text)) := by
  unfold KeyStrategy.looksUp Session.keyFilter
  cases hNative : strategy.isNative with
  | true =>
      cases key with
      | int id =>
          refine .inl ⟨rfl, [.nativeId id], rfl, deletesKey_of_bind rfl ?_ rfl⟩
          rw [hNative]
          rfl
      | _ => exact .inr ⟨rfl, _, rfl⟩
  | false =>
      by_cases hKind : key.kind = strategy.kind
      · refine .inl ⟨by simp [hKind], [.compare strategy.field .eq key], if_pos hKind,
          deletesKey_of_bind rfl ?_ rfl⟩
        rw [hNative]
        refine String.toList_inj.1 ?_
        simp [Comparison.operator]
      · exact .inr ⟨by simp [hKind], _, if_neg hKind⟩

/-! ## Deletes -/

/-- What follows on an action without any more leaves its record. -/
theorem leaves_then {ω α β : Type} {log : ω → List Moment} {w : ω} {P : List Moment → Prop}
    {x : Action ω α} {f : α → Action ω β} (h : x.Leaves log w fun ms _ => P ms)
    (hf : ∀ a, (f a).Quiet log) : (x >>= f).Leaves log w fun ms _ => P ms := by
  obtain ⟨ms, hLog, hRecord⟩ := h
  rcases hRun : x w with ⟨a | e | _, u⟩ <;> rw [hRun] at hLog
  · exact ⟨ms, by rw [bind_ok hRun, hf a u, hLog], hRecord⟩
  · exact .of_eq (bind_error hRun) hLog hRecord
  · exact .of_eq (bind_hang hRun) hLog hRecord

theorem leaves_within {ω α : Type} {log : ω → List Moment} {w : ω} {P : List Moment → Prop}
    {x : Action ω α} (limit : Duration) (h : x.Leaves log w fun ms _ => P ms) :
    (Action.within limit x).Leaves log w fun ms _ => P ms := by
  obtain ⟨ms, hLog, hRecord⟩ := h
  unfold Action.within
  rcases hRun : x w with ⟨a | e | _, u⟩ <;> rw [hRun] at hLog
  · exact .of_eq (by rw [hRun]) hLog hRecord
  · exact .of_eq (by rw [hRun]) hLog hRecord
  · exact .of_eq (by rw [hRun]) hLog hRecord

end

/-- Deleting an object sends the delete of the nodes of a label with a key, and nothing else. -/
def Session.Deletes {σ δ : Type} (s : Session δ) (model : EntityModel σ)
    (w : World σ (δ × List Moment)) (r : Ref) (label : String) (key : Value) : Prop :=
  ∃ statement : Statement, statement.DeletesKey s.registry.strategy label key ∧
    (s.watched.delete model r).Leaves World.log w fun ms _ => RunsAlone statement ms

section

variable {σ δ : Type} {s : Session δ} {model : EntityModel σ} {w : World σ (δ × List Moment)}
  {u : δ × List Moment} {d : TypeDescriptor} {pk : FieldDescriptor} {r : Ref} {key : Value}

theorem deleteMatching_runs (h : s.registry.strategy.looksUp key = true) :
    ∃ statement : Statement, statement.DeletesKey s.registry.strategy d.label key ∧
      (s.watched.deleteMatching d key).Leaves Prod.snd u fun ms _ => RunsAlone statement ms := by
  rcases keyFilter_cases s.registry.strategy d.label key with ⟨-, filter, hFilter, hDeletes⟩ | ⟨hNot, -⟩
  · refine ⟨_, hDeletes, leaves_ofExcept_bind hFilter (leaves_within _ ?_)⟩
    exact leaves_then (runsAlone_transaction _) fun rows => quiet_pure _
  · rw [h] at hNot
    cases hNot

theorem deleteMatching_refused (h : s.registry.strategy.looksUp key = false) :
    ∃ text, s.watched.deleteMatching d key u = (.error (.data text), u) := by
  rcases keyFilter_cases s.registry.strategy d.label key with ⟨hSome, -⟩ | ⟨-, text, hFilter⟩
  · rw [h] at hSome
    cases hSome
  · have hWatched : Session.keyFilter s.watched.registry.strategy d.label key = .error (.data text) :=
      hFilter
    refine ⟨text, ?_⟩
    unfold Session.deleteMatching
    rw [hWatched]
    rfl

/-- What a delete asks of an object before it goes ahead. -/
theorem savedKey_of_node (model : EntityModel σ) (hType : s.registry.descriptor (w.heap.typeOf r) = .ok d)
    (hNode : d.isObject = false) (hKey : d.key? = some pk) :
    s.savedKey model w.heap r = if (w.heap.value model r pk.field).isNull = true then
        .error (.data ("cannot delete a " ++ d.label ++ " that was never saved"))
      else .ok (d, w.heap.value model r pk.field) := by
  unfold Session.savedKey
  rw [hType]
  change (if d.isObject = true then _ else _) = _
  rw [hNode, hKey]
  rfl

/-- Deleting an object sends a delete of its key if the key is not null and the strategy looks up nodes by it;
else it fails without asking anything of the server. -/
theorem delete_cases (model : EntityModel σ) (hType : s.registry.descriptor (w.heap.typeOf r) = .ok d)
    (hNode : d.isObject = false) (hKey : d.key? = some pk) :
    ((w.heap.value model r pk.field).isNull = false ∧
        s.registry.strategy.looksUp (w.heap.value model r pk.field) = true ∧
        s.Deletes model w r d.label (w.heap.value model r pk.field)) ∨
      (¬ ((w.heap.value model r pk.field).isNull = false ∧
        s.registry.strategy.looksUp (w.heap.value model r pk.field) = true) ∧
        ∃ text, s.watched.delete model r w = (.error (.data text), w)) := by
  have hSaved := savedKey_of_node model hType hNode hKey
  cases hNull : (w.heap.value model r pk.field).isNull with
  | true =>
      rw [if_pos hNull] at hSaved
      exact .inr ⟨by simp, _, delete_of_unsaved hSaved⟩
  | false =>
      rw [if_neg (by simp [hNull])] at hSaved
      have hDelete := delete_of_saved (s := s) hSaved
      cases hLooks : s.registry.strategy.looksUp (w.heap.value model r pk.field) with
      | true =>
          obtain ⟨statement, hDeletes, hRuns⟩ := deleteMatching_runs (d := d) (u := w.db) hLooks
          exact .inl ⟨rfl, rfl, statement, hDeletes, .congr hDelete hRuns⟩
      | false =>
          obtain ⟨text, hRefused⟩ := deleteMatching_refused (d := d) (u := w.db) hLooks
          refine .inr ⟨by simp, text, hDelete.trans ?_⟩
          unfold Action.onDatabase
          rw [hRefused]

end

/-! ## Planned nodes -/

section

variable {σ : Type} {w : Walker σ} {r : Ref} {d : TypeDescriptor} {pk : FieldDescriptor} {st : WalkState}

open Walk Walker

/-- A walk that meets a node takes it as stored before exactly if the key that it holds is usable. -/
theorem existing_iff (hKey : d.key? = some pk) (hNew : st.identities.lookup r = none) :
    w.Existing st r d ↔ (w.heap.value w.model r pk.field).key?.isSome = true := by
  constructor
  · rintro ⟨i, t, hGives, hOld⟩
    obtain ⟨hKnown, -⟩ | ⟨pk', -, hKey', ⟨key, hHeld, -, -⟩ | ⟨-, -, rfl, -⟩ |
      ⟨v, key, -, -, -, -, rfl, -⟩⟩ := identify_ways hGives
    · rw [hNew] at hKnown
      cases hKnown
    · cases hKey.symm.trans hKey'
      rw [hHeld]
      rfl
    · cases hOld
    · cases hOld
  · intro hSome
    obtain ⟨key, hHeld⟩ := Option.isSome_iff_exists.1 hSome
    exact ⟨_, _, gives_identify_held hNew hKey hHeld, rfl⟩

/-- A value from the generator is of the strategy's kind. -/
theorem KeyStrategy.kind_of_generate {strategy : KeyStrategy} {n : Nat} {v : Value}
    (h : (strategy.generate n).1 = .ok (some v)) : v.kind = strategy.kind := by
  unfold KeyStrategy.generate at h
  split at h
  · cases h
  · dsimp only at h
    split at h
    · rename_i hKind
      cases h
      exact hKind
    · cases h

/-- Keys that are usable are stored as they are. -/
theorem storage_of_key {v : Value} {key : String} (h : v.key? = some key) : v.storage = v := by
  cases v with
  | int n => rfl
  | string s => rfl
  | _ => cases h

/-- Every key that was put down came from the generator. -/
theorem Walker.KeyRecords.generated {w : Walker σ} {taken : Nat} {keyOf : Ref → String} {moves : List Move}
    {s : WalkState} {a : AssignedKey} (h : w.KeyRecords taken keyOf moves s)
    (ha : a ∈ s.plan.assigned) : ∃ n, (w.registry.strategy.generate n).1 = .ok (some a.value) := by
  have hMem := List.mem_map_of_mem
    (f := fun a : AssignedKey => (.ok (some a.value) : Except Error (Option Value))) ha
  rw [h.values] at hMem
  obtain ⟨n, -, hValue⟩ := List.mem_map.1 hMem
  exact ⟨n, hValue⟩

variable {strategy : KeyStrategy} {held v : Value} {n : PlannedNode}

/-- An old node is saved under the key that its object holds. -/
theorem keyedBy_of_held (hOld : n.isNew = false) (hHeld : held.key? = some n.identity)
    (hRow : strategy.isNative = false → n.key = some held) : n.KeyedBy strategy held := by
  refine ⟨fun _ => hHeld, fun hNative => ⟨held, hRow hNative, .held hOld⟩, fun key hSaved => ?_⟩
  cases hSaved with
  | held => exact .inr ⟨hOld, rfl⟩
  | made hNew => cases hNew.symm.trans hOld
  | numbered id hNew => cases hNew.symm.trans hOld

/-- A new node that the database numbers is found by its number. -/
theorem keyedBy_of_numbered (hNew : n.isNew = true) (hNative : strategy.isNative = true) :
    n.KeyedBy strategy held := by
  refine ⟨fun hOld => (by cases hOld.symm.trans hNew), fun hNot => (by cases hNative.symm.trans hNot),
    fun key hSaved => ?_⟩
  cases hSaved with
  | held hOld => cases hOld.symm.trans hNew
  | made _ hNot => cases hNative.symm.trans hNot
  | numbered id =>
      left
      unfold KeyStrategy.looksUp
      rw [hNative]
      rfl

/-- A new node is found by the key that was made for it. -/
theorem keyedBy_of_made {m : Nat} (hNew : n.isNew = true) (hNative : strategy.isNative = false)
    (hRow : n.key = some v) (hMade : (strategy.generate m).1 = .ok (some v)) :
    n.KeyedBy strategy held := by
  refine ⟨fun hOld => (by cases hOld.symm.trans hNew), fun _ => ⟨v, hRow, .made hNew hNative hRow⟩,
    fun key hSaved => ?_⟩
  cases hSaved with
  | held hOld => cases hOld.symm.trans hNew
  | numbered _ _ hNot => cases hNative.symm.trans hNot
  | made _ _ hSame =>
      cases hRow.symm.trans hSame
      left
      unfold KeyStrategy.looksUp
      rw [hNative]
      exact decide_eq_true (KeyStrategy.kind_of_generate hMade)

/-- Nodes are saved under the keys that their objects hold, that the generator made, or that the database
gives. -/
theorem keyed_of_make {root : Ref} {depth taken after : Nat} {p : Plan}
    (hMade : Plan.make w.model w.registry w.heap root depth taken = (.ok p, after))
    (hn : n ∈ p.allNodes) : ∃ d pk, w.NodeAs n.ref d ∧ d.key? = some pk ∧ n.label = d.label ∧
      n.KeyedBy w.registry.strategy (w.heap.value w.model n.ref pk.field) := by
  obtain ⟨s, rfl, -, -, hTakes⟩ := takes_of_make hMade
  obtain ⟨-, d, i, params, hNode, hi, -, hPlanned⟩ := (Recorded.of_takes hTakes).nodes.planned n hn
  have hIdentity : n.identity = i.key := congrArg PlannedNode.identity hPlanned
  have hLabel : n.label = d.label := congrArg PlannedNode.label hPlanned
  have hIsNew : n.isNew = i.isNew := congrArg PlannedNode.isNew hPlanned
  have hStored : n.key = w.storedKey n.ref d i := congrArg PlannedNode.key hPlanned
  have hKeys := KeyRecords.of_takes hTakes
  have hKnown := hKeys.known n.ref i
  cases (IdentityRecords.of_takes hTakes).origin n.ref i hi with
  | @held d' pk key hType hPk hHeld =>
      cases ok_unique hNode.1 hType
      refine ⟨d, pk, hNode, hPk, hLabel, keyedBy_of_held hIsNew (hIdentity ▸ hHeld) fun hNative => ?_⟩
      rw [hStored]
      simp only [storedKey, hPk, hNative, Bool.false_eq_true, if_false, Option.getD_none,
        storage_of_key hHeld]
  | @temporary d' pk number hType hPk hNone hNative =>
      cases ok_unique hNode.1 hType
      exact ⟨d, pk, hNode, hPk, hLabel, keyedBy_of_numbered hIsNew hNative⟩
  | @generated d' pk v key hType hPk hNone hNative hKey =>
      cases ok_unique hNode.1 hType
      have hRow : n.key = some v := by
        rw [hStored]
        simp only [storedKey, hPk, hNative, Bool.false_eq_true, if_false, Option.getD_some,
          storage_of_key hKey]
      obtain ⟨-, pk', -, -, hAssigned⟩ := hKnown v hi rfl
      obtain ⟨m, hValue⟩ := hKeys.generated hAssigned
      exact ⟨d, pk, hNode, hPk, hLabel, keyedBy_of_made hIsNew hNative hRow hValue⟩

end

/-! ## Sessions -/

section

variable {σ δ : Type} {s : Session δ} {model : EntityModel σ} {w : World σ (δ × List Moment)}
  {u : δ × List Moment} {d : TypeDescriptor} {pk : FieldDescriptor} {r : Ref} {key : Value}

theorem deletes_iff (model : EntityModel σ) (hType : s.registry.descriptor (w.heap.typeOf r) = .ok d)
    (hNode : d.isObject = false) (hKey : d.key? = some pk) :
    s.Deletes model w r d.label (w.heap.value model r pk.field) ↔
      (w.heap.value model r pk.field).isNull = false ∧
        s.registry.strategy.looksUp (w.heap.value model r pk.field) = true := by
  rcases delete_cases (s := s) model hType hNode hKey with
    ⟨hNull, hLooks, hDeletes⟩ | ⟨hNot, text, hRefused⟩
  · exact ⟨fun _ => ⟨hNull, hLooks⟩, fun _ => hDeletes⟩
  · refine ⟨fun h => ?_, fun h => absurd h hNot⟩
    obtain ⟨statement, -, ms, hLog, hRuns⟩ := h
    rw [hRefused] at hLog
    exact absurd (List.self_eq_append_right.1 hLog) hRuns.ne_nil

/-- A key is accepted by what asks for a node by it exactly if the strategy looks up nodes by it, and the only
statement that deletes by it asks for this key. -/
structure Session.FindsBy (s : Session δ) (model : EntityModel σ) (d : TypeDescriptor) (key : Value) :
    Prop where
  filter : (∃ filter, Session.keyFilter s.registry.strategy d.label key = .ok filter) ↔
    s.registry.strategy.looksUp key = true
  delete : ∀ heap taken, (Request.deleteByKey d.type key).Accepted s model heap taken ↔
    s.registry.strategy.looksUp key = true
  load : ∀ depth heap taken, (Request.load d.type key depth).Accepted s model heap taken ↔
    s.registry.strategy.looksUp key = true ∧ checkDepth depth = .ok ()
  statement : s.registry.strategy.looksUp key = true → ∀ u, ∃ statement : Statement,
    statement.DeletesKey s.registry.strategy d.label key ∧
      (s.watched.deleteByKey d.type key).Leaves Prod.snd u fun ms _ => RunsAlone statement ms

theorem findsBy_of_node {type : TypeName} (hType : s.registry.descriptor type = .ok d)
    (hNode : d.isObject = false) (key : Value) : s.FindsBy model d key := by
  have hDescriptor : s.nodeDescriptor d.type = .ok d := by
    unfold Session.nodeDescriptor
    rw [(Registry.mem_of_descriptor hType).2, hType]
    change (if d.isObject = true then _ else _) = _
    rw [hNode]
    rfl
  have hFilter : (∃ filter, Session.keyFilter s.registry.strategy d.label key = .ok filter) ↔
      s.registry.strategy.looksUp key = true := by
    rcases keyFilter_cases s.registry.strategy d.label key with
      ⟨hLooks, filter, hFilter, -⟩ | ⟨hNot, text, hRefused⟩
    · exact ⟨fun _ => hLooks, fun _ => ⟨filter, hFilter⟩⟩
    · rw [hRefused, hNot]
      exact ⟨fun ⟨_, h⟩ => (by cases h), fun h => (by cases h)⟩
  refine ⟨hFilter, fun heap taken => ?_, fun depth heap taken => ?_, fun hLooks u => ?_⟩
  · constructor
    · rintro ⟨d', filter, hSame, h⟩
      cases hDescriptor.symm.trans hSame
      exact hFilter.1 ⟨filter, h⟩
    · intro hLooks
      obtain ⟨filter, h⟩ := hFilter.2 hLooks
      exact ⟨d, filter, hDescriptor, h⟩
  · constructor
    · rintro ⟨d', filter, hSame, h, hDepth⟩
      cases hDescriptor.symm.trans hSame
      exact ⟨hFilter.1 ⟨filter, h⟩, hDepth⟩
    · rintro ⟨hLooks, hDepth⟩
      obtain ⟨filter, h⟩ := hFilter.2 hLooks
      exact ⟨d, filter, hDescriptor, h, hDepth⟩
  · obtain ⟨statement, hDeletes, hRuns⟩ := deleteMatching_runs (d := d) (u := u) hLooks
    exact ⟨statement, hDeletes, leaves_ofExcept_bind hDescriptor hRuns⟩

/-- An object is taken as stored before if its key is usable, and deleted if its key is not null and the
strategy looks up nodes by it; the two agree exactly where these do.  A delete that does not go ahead asks
nothing of the server.  Every key that a node is saved under finds the node again, unless it is one that its
object holds and by which the strategy looks up nothing. -/
theorem identities_agree_iff (strategy : KeyStrategy) (calls : List BuilderCall) (s : Session δ)
    (model : EntityModel σ) (w : World σ (δ × List Moment))
    (hFrozen : ((RegistryBuilder.new strategy).callAll calls).2.build = .ok s.registry) :
    (∀ r d, s.registry.descriptor (w.heap.typeOf r) = .ok d → d.isObject = false →
      ∃ pk, d.key? = some pk ∧
        (s.Deletes model w r d.label (w.heap.value model r pk.field) ↔
          (w.heap.value model r pk.field).isNull = false ∧
            s.registry.strategy.looksUp (w.heap.value model r pk.field) = true) ∧
        (¬ s.Deletes model w r d.label (w.heap.value model r pk.field) →
          ∃ text, s.watched.delete model r w = (.error (.data text), w)) ∧
        ∀ st, st.identities.lookup r = none →
          (Walker.Existing ⟨model, s.registry, w.heap⟩ st r d ↔
            (w.heap.value model r pk.field).key?.isSome = true) ∧
          ((s.Deletes model w r d.label (w.heap.value model r pk.field) ↔
              Walker.Existing ⟨model, s.registry, w.heap⟩ st r d) ↔
            ((w.heap.value model r pk.field).isNull = false ∧
                s.registry.strategy.looksUp (w.heap.value model r pk.field) = true ↔
              (w.heap.value model r pk.field).key?.isSome = true))) ∧
    (∀ d ∈ s.registry.types, d.isObject = false → ∀ key, s.FindsBy model d key) ∧
    ∀ root depth taken p after,
      Plan.make model s.registry w.heap root depth taken = (.ok p, after) → ∀ n ∈ p.allNodes,
        ∃ d pk, s.registry.descriptor (w.heap.typeOf n.ref) = .ok d ∧ d.isObject = false ∧
          d.key? = some pk ∧ n.label = d.label ∧
          n.KeyedBy s.registry.strategy (w.heap.value model n.ref pk.field) := by
  have hRegistry : s.registry.WellFormed :=
    (RegistryBuilder.reached strategy calls).wellFormed hFrozen
  refine ⟨fun r d hType hNode => ?_, fun d hd hNode key => ?_, fun root depth taken p after hMade n hn => ?_⟩
  · obtain ⟨pk, hKey⟩ := Walker.key_of_nodeAs (w := ⟨model, s.registry, w.heap⟩) hRegistry
      ⟨hType, hNode⟩
    have hDeletes := deletes_iff (s := s) model hType hNode hKey
    refine ⟨pk, hKey, hDeletes, fun hNot => ?_, fun st hNew => ?_⟩
    · rcases delete_cases (s := s) model hType hNode hKey with ⟨-, -, h⟩ | ⟨-, hRefused⟩
      · exact absurd h hNot
      · exact hRefused
    · have hExisting := existing_iff (w := ⟨model, s.registry, w.heap⟩) hKey hNew
      exact ⟨hExisting, iff_congr hDeletes hExisting⟩
  · exact findsBy_of_node
      (Registry.descriptor_eq_ok.2 (RegistryBuilder.findType_self hRegistry.names hd)) hNode key
  · obtain ⟨d, pk, hNode, hRest⟩ := keyed_of_make (w := ⟨model, s.registry, w.heap⟩) hMade hn
    exact ⟨d, pk, hNode.1, hNode.2, hRest⟩

end

namespace Cinema

/-- A session on a new database. -/
def session : Session Script :=
  ⟨registry, Script.server, .standard⟩

def world : World DeclaredObject (Script × List Moment) :=
  ⟨walker.heap, 0, (.new, [])⟩

end Cinema

theorem cinema_identities_agree :
    ((RegistryBuilder.new Cinema.strategy).callAll Cinema.calls).2.build = .ok Cinema.session.registry ∧
    Cinema.session.Deletes Cinema.walker.model Cinema.world 0 "Person" (.string "ann") ∧
    (∃ text, Cinema.session.watched.delete Cinema.walker.model 2 Cinema.world =
      (.error (.data text), Cinema.world)) := by
  have hFrozen : ((RegistryBuilder.new Cinema.strategy).callAll Cinema.calls).2.build =
      .ok Cinema.session.registry := by rfl
  obtain ⟨hObjects, -, -⟩ := identities_agree_iff Cinema.strategy Cinema.calls Cinema.session
    Cinema.walker.model Cinema.world hFrozen
  obtain ⟨pk, hKey, hDeletes, -, -⟩ := hObjects 0 _ (by rfl) (by rfl)
  obtain ⟨pk', hKey', hDeletes', hRefused, -⟩ := hObjects 2 _ (by rfl) (by rfl)
  cases hKey
  cases hKey'
  refine ⟨hFrozen, hDeletes.2 ⟨by rfl, by rfl⟩, hRefused fun h => ?_⟩
  cases (hDeletes'.1 h).1

namespace Storeroom

/-- A type whose keys can be of any kind. -/
def crate : DeclaredType :=
  ⟨"Crate", "Crate", none, [⟨⟨"uuid", .scalar, "pk"⟩, .value .any⟩], false⟩

def registry : Registry where
  strategy := Cinema.strategy
  types := [⟨"Crate", "Crate", [⟨"uuid", "uuid", .key false, false, false⟩], none⟩]
  relationships := []

/-- The key of the first crate is the empty string, that of the others a number. -/
def objects : Ref → Instance DeclaredObject
  | 0 => ⟨"Crate", ⟨crate, [("uuid", .string "")], [], ⟨none, none⟩, false⟩⟩
  | _ => ⟨"Crate", ⟨crate, [("uuid", .int 5)], [], ⟨none, none⟩, false⟩⟩

def model : EntityModel DeclaredObject :=
  declaredModel [crate]

def session : Session Script :=
  ⟨registry, Script.server, .standard⟩

def world : World DeclaredObject (Script × List Moment) :=
  ⟨⟨2, objects⟩, 0, (.new, [])⟩

end Storeroom

/-- An empty key makes a crate a new one to a walk, yet it is deleted; a number is the key under which a crate
is saved, yet neither deleted nor looked up. -/
theorem crates_disagree :
    Registry.ofDecls Cinema.strategy [Storeroom.crate.decl] = .ok Storeroom.registry ∧
    (∃ p after, Plan.make Storeroom.model Storeroom.registry Storeroom.world.heap 0 0 0 =
      (.ok p, after) ∧ p.allNodes = [⟨"k0", "Crate", true, some (.string "k0"), [], 0⟩]) ∧
    (Storeroom.session.watched.delete Storeroom.model 0 Storeroom.world).2.log =
      [.begin (.ok ()), .run (deleteStatement "Crate" [.compare "uuid" .eq (.string "")])
        (.ok [[("deleted", .int 1)]]), .commit (.ok ())] ∧
    (∃ p after, Plan.make Storeroom.model Storeroom.registry Storeroom.world.heap 1 0 0 =
      (.ok p, after) ∧ p.allNodes = [⟨"5", "Crate", false, some (.int 5), [], 1⟩]) ∧
    Storeroom.session.watched.delete Storeroom.model 1 Storeroom.world =
      (.error (.data "Crate keys are string values, got int"), Storeroom.world) ∧
    Session.keyFilter Cinema.strategy "Crate" (.int 5) =
      .error (.data "Crate keys are string values, got int") :=
  ⟨by rfl, ⟨_, _, by rfl, by rfl⟩, by rfl, ⟨_, _, by rfl, by rfl⟩, by rfl, by rfl⟩

end GraphMapping

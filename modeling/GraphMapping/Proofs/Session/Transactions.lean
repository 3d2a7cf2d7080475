import GraphMapping.Proofs.Database.Transactions
import GraphMapping.Proofs.Session.Save

/-!
# Transactions of requests

Everything that is asked of a session or of its schema runs in transactions, mostly in one.  Whatever the
server answers, each transaction takes its course: it is begun, and then ended once in the right way.  What
is refused before that asks nothing of the server.
-/

namespace GraphMapping

open GraphMapping.Action

/-- One thing asked of a session, or of the schema of its database. -/
inductive Request where
  | save (root : Ref) (depth : Nat)
  | load (type : TypeName) (key : Value) (depth : Nat)
  | loadAll (type : TypeName) (depth : Nat) (filter : Filter) (order : List Order) (window : Window)
  | delete (r : Ref)
  | deleteByKey (type : TypeName) (key : Value)
  | live
  | dropAll
  | create
  | verify

namespace Request

variable {σ δ : Type}

/-- Do what is asked, whatever the result. -/
def perform (s : Session δ) (model : EntityModel σ) : Request → Action (World σ δ) Unit
  | .save root depth => s.save model root depth
  | .load type key depth => do
      let _ ← s.load model type key depth
  | .loadAll type depth filter order window => do
      let _ ← s.loadAll model type depth filter order window
  | .delete r => do
      let _ ← s.delete model r
  | .deleteByKey type key => do
      let _ ← (s.deleteByKey type key).onDatabase
  | .live => do
      let _ ← (Schema.live s.server).onDatabase
  | .dropAll => do
      let _ ← (Schema.dropAll s.server).onDatabase
  | .create => do
      let _ ← (Schema.create s.registry s.server).onDatabase
  | .verify => (Schema.verify s.registry s.server).onDatabase

/-- Whether answers are checked. -/
def checks : Request → Bool
  | .save _ _ => true
  | _ => false

/-- What is asked can be put to the server: what is to be saved can be planned, types, keys and depths are in
order, and there is something to create. -/
def Accepted (s : Session δ) (model : EntityModel σ) (heap : Heap σ) (taken : Nat) : Request → Prop
  | .save root depth => ∃ p, (Plan.make model s.registry heap root depth taken).1 = .ok p
  | .load type key depth => ∃ d filter, s.nodeDescriptor type = .ok d ∧
      Session.keyFilter s.registry.strategy d.label key = .ok filter ∧ checkDepth depth = .ok ()
  | .loadAll type depth _ _ _ => ∃ d, s.nodeDescriptor type = .ok d ∧ checkDepth depth = .ok ()
  | .delete r => ∃ d key filter, s.savedKey model heap r = .ok (d, key) ∧
      Session.keyFilter s.registry.strategy d.label key = .ok filter
  | .deleteByKey type key => ∃ d filter, s.nodeDescriptor type = .ok d ∧
      Session.keyFilter s.registry.strategy d.label key = .ok filter
  | .create => SchemaItem.expected s.registry ≠ []
  | .live | .dropAll | .verify => True

end Request

/-- The session on a server that keeps a record of its calls. -/
def Session.watched {δ : Type} (s : Session δ) : Session (δ × List Moment) :=
  ⟨s.registry, s.server.watched, s.options⟩

/-- The record of the calls to the databases of a world. -/
def World.log {σ δ : Type} (w : World σ (δ × List Moment)) : List Moment :=
  w.db.2

section

variable {δ : Type} {server : Server δ} {w : δ × List Moment} {label : String} {ids : GraphIds}
  {strategy : KeyStrategy}

theorem run_watched (s : Statement) {reply : Reply (List Record)} {d d' : δ} (seen : List Moment)
    (h : server.run s d = (reply, d')) :
    server.watched.run s (d, seen) = (reply, (d', seen ++ [.run s reply])) := by
  change ((server.run s d).1, ((server.run s d).2, seen ++ [.run s (server.run s d).1])) = _
  rw [h]

/-- A batch that is answered is checked; one that is not fails with the error of its statement. -/
theorem body_batch {β : Type} {s : Statement} {identity : String}
    {check : List Record → Action (δ × List Moment) β}
    (hCheck : ∀ rows u, ∃ reply, check rows u = (reply, u) ∧
      ((∃ e, reply = .error e) ∨ (∃ b, reply = .ok b) ∧ (Moment.run s (.ok rows)).Sound)) :
    ((server.watched.run s).mapError (batchFailed label identity) >>= check).Leaves Prod.snd w
      (Body true) := by
  obtain ⟨d, seen⟩ := w
  rcases hRun : server.run s d with ⟨rows | e | _, d'⟩
  · have hWatched : (server.watched.run s).mapError (batchFailed label identity) (d, seen) =
        (.ok rows, (d', seen ++ [.run s (.ok rows)])) := by
      unfold mapError
      rw [run_watched s seen hRun]
    obtain ⟨reply, hEq, hReply⟩ := hCheck rows (d', seen ++ [.run s (.ok rows)])
    refine .of_eq ((bind_ok hWatched).trans hEq) rfl ?_
    rcases hReply with ⟨e, rfl⟩ | ⟨⟨b, rfl⟩, hSound⟩
    · exact .objected rfl fun m hm => List.mem_singleton.1 hm ▸ rfl
    · exact .done fun m hm => List.mem_singleton.1 hm ▸ ⟨rfl, fun _ => hSound⟩
  · have hWatched : (server.watched.run s).mapError (batchFailed label identity) (d, seen) =
        (.error (batchFailed label identity e), (d', seen ++ [.run s (.error e)])) := by
      unfold mapError
      rw [run_watched s seen hRun]
    exact .of_eq (bind_error hWatched) rfl (.of_failed rfl (.inr ⟨label, identity, rfl⟩))
  · have hWatched : (server.watched.run s).mapError (batchFailed label identity) (d, seen) =
        (.hang, (d', seen ++ [.run s .hang])) := by
      unfold mapError
      rw [run_watched s seen hRun]
    exact .of_eq (bind_hang hWatched) rfl (.of_unanswered rfl)

theorem body_writeNodes {s : Statement} (hKind : s.kind = .nodeUpsert) :
    (writeNodes server.watched label ids s).Leaves Prod.snd w (Body true) := by
  refine body_batch fun rows u => ?_
  cases hCollect : collectIds ids rows with
  | error e => exact ⟨.error e, rfl, .inl ⟨e, rfl⟩⟩
  | ok found =>
      by_cases hLength : rows.length ≠ s.batch.length
      · exact ⟨_, congrFun (if_pos hLength) u, .inl ⟨_, rfl⟩⟩
      · refine ⟨.ok found, congrFun (if_neg hLength) u,
          .inr ⟨⟨found, rfl⟩, fun _ => ⟨by simpa using hLength, fun row hRow => ?_⟩,
            fun hEdges => ?_⟩⟩
        · obtain ⟨key, id, hKey, hId⟩ := collectIds_keyed hCollect row hRow
          unfold rowKey at hKey
          rw [hKey, hId]
          exact ⟨rfl, rfl⟩
        · rw [hKind] at hEdges
          cases hEdges

theorem body_writeEdges {s : Statement} (hKind : s.kind = .relationshipUpsert) :
    (writeEdges server.watched label s).Leaves Prod.snd w (Body true) := by
  refine body_batch fun rows u => ?_
  by_cases hWritten :
      ((rows.head?.bind (·.int? "written")).getD 0).toInt ≠ (s.batch.length : Int)
  · exact ⟨_, congrFun (if_pos hWritten) u, .inl ⟨_, rfl⟩⟩
  · refine ⟨.ok (), congrFun (if_neg hWritten) u, .inr ⟨⟨(), rfl⟩, fun hNodes => ?_, fun _ => ?_⟩⟩
    · rw [hKind] at hNodes
      cases hNodes
    · simpa using hWritten

theorem body_persistNodes (nodes : Dict (List PlannedNode)) :
    (persistNodes server.watched strategy nodes ids).Leaves Prod.snd w (Body true) := by
  induction nodes generalizing ids w with
  | nil => exact body_pure ids
  | cons entry rest ih =>
      obtain ⟨label, items⟩ := entry
      refine body_ofExcept_bind fun batches hBatches => ?_
      refine body_bind (body_foldlM ids fun s hs ids u => ?_) fun _ _ => ih
      obtain ⟨part, -, hRows⟩ := (nodeBatches_rows hBatches).1 s hs
      exact body_writeNodes hRows.kind

theorem body_persistEdges (edges : Dict (List PlannedEdge)) :
    (persistEdges server.watched strategy ids edges).Leaves Prod.snd w (Body true) := by
  induction edges generalizing w with
  | nil => exact body_pure ()
  | cons entry rest ih =>
      obtain ⟨label, items⟩ := entry
      refine body_ofExcept_bind fun batches hBatches => ?_
      refine body_bind (body_forM fun s hs u => ?_) fun _ _ => ih
      obtain ⟨shape, rows, rfl, -⟩ := mem_edgeBatches hBatches hs
      exact body_writeEdges rfl

/-- Writing a plan is work whose answers are checked. -/
theorem body_persist (p : Plan) :
    (p.persist server.watched strategy).Leaves Prod.snd w (Body true) :=
  body_bind (body_persistNodes p.nodes) fun ids _ =>
    body_bind (body_persistEdges p.edges) fun _ _ => body_pure ids

end

/-! ## Requests -/

section

variable {σ δ α β : Type} {s : Session δ} {model : EntityModel σ} {w : World σ (δ × List Moment)}
  {checked : Bool} {t : List Moment × Reply Unit} {spans : List (List Moment × Reply Unit)}

/-- A check that passes adds nothing. -/
theorem leaves_ofExcept_bind {ω : Type} {log : ω → List Moment} {u : ω} {x : Except Error α} {a : α}
    {f : α → Action ω β} {P : List Moment → Reply Unit → Prop} (h : x = .ok a)
    (hf : (f a).Leaves log u P) : (Action.ofExcept x >>= f).Leaves log u P := by
  rw [h]
  exact hf

/-- Nothing is asked of the server if no passing of a check leads to that. -/
theorem refused_check {ω : Type} {log : ω → List Moment} {u : ω} {x : Except Error α} {f : α → Action ω β}
    (hf : ∀ a, x = .ok a → (f a).Leaves log u (Course checked [])) :
    (Action.ofExcept x >>= f).Leaves log u (Course checked []) := by
  cases x with
  | error e => exact ⟨[], (List.append_nil _).symm, .nil _⟩
  | ok a => exact hf a rfl

theorem quiet_ofExcept {ω : Type} {log : ω → List Moment} (x : Except Error α) :
    (Action.ofExcept x : Action ω α).Quiet log :=
  fun _ => rfl

theorem course_onDatabase {x : Action (δ × List Moment) α}
    (h : x.Leaves Prod.snd w.db (Course checked spans)) :
    (x.onDatabase : Action (World σ (δ × List Moment)) α).Leaves World.log w (Course checked spans) :=
  h

/-- Loading what a query asks for is one transaction. -/
theorem course_fetch (s : Session δ) (model : EntityModel σ) (w : World σ (δ × List Moment))
    {query : LoadQuery} (hDepth : checkDepth query.depth = .ok ()) :
    ∃ t, (s.watched.fetch model query).Leaves World.log w (Course false [t]) := by
  obtain ⟨t, ht, -⟩ := course_transaction s.server w.db
    fun _ => body_fetch query.statement
  refine ⟨t, leaves_ofExcept_bind hDepth (course_within _ ?_)⟩
  refine course_then (course_onDatabase ht) fun result _ => ?_
  unfold Session.rebuild
  split
  · split <;> rfl
  · rfl

/-- A query whose depth is out of bounds is not run. -/
theorem refused_fetch {query : LoadQuery} {f : Option ObjectGraph → Action (World σ (δ × List Moment)) β}
    (hDepth : checkDepth query.depth ≠ .ok ()) :
    (s.watched.fetch model query >>= f).Leaves World.log w (Course checked []) := by
  cases hCheck : checkDepth query.depth with
  | ok _ => exact absurd hCheck hDepth
  | error e =>
      have hFetch : s.watched.fetch model query w = (.error e, w) := by
        unfold Session.fetch
        rw [hCheck]
        rfl
      exact .of_eq (bind_error hFetch) (List.append_nil _).symm (.nil _)

theorem quiet_fail {ω : Type} {log : ω → List Moment} (e : Error) :
    (Action.fail e : Action ω α).Quiet log :=
  fun _ => rfl

theorem quiet_pure {ω : Type} {log : ω → List Moment} (a : α) : (pure a : Action ω α).Quiet log :=
  fun _ => rfl

theorem course_save {p : Plan} {root : Ref} {depth after : Nat}
    (hMake : Plan.make model s.registry w.heap root depth w.taken = (.ok p, after)) :
    ∃ t, (s.watched.save model root depth).Leaves World.log w (Course true [t]) ∧
      ∀ r, .commit r ∈ t.1 → ∃ d ids db, s.server.begin w.db.1 = (.ok (), d) ∧
        (p.persist s.server.watched s.registry.strategy).Returns
          (d, w.db.2 ++ [.begin (.ok ())]) ids db := by
  have hPersist : ∀ u, (p.persist s.server.watched s.registry.strategy).Leaves Prod.snd u (Body true) :=
    fun _ => body_persist p
  obtain ⟨t, ht, hCommit⟩ := course_transaction s.server w.db hPersist
  refine ⟨t, course_within _ ?_, hCommit⟩
  refine .of_bind_ok (plan_eq hMake) rfl (course_then (course_onDatabase ht) fun ids => ?_)
  exact quiet_bind (fun _ => rfl) fun _ => quiet_bind (fun _ => rfl) fun _ => quiet_pure ()

theorem course_load {type : TypeName} {key : Value} {depth : Nat} {d : TypeDescriptor}
    {filter : Filter} (hType : s.nodeDescriptor type = .ok d)
    (hKey : Session.keyFilter s.registry.strategy d.label key = .ok filter)
    (hDepth : checkDepth depth = .ok ()) :
    ∃ t, (s.watched.load model type key depth).Leaves World.log w (Course false [t]) := by
  obtain ⟨t, ht⟩ := course_fetch s model w
    (show checkDepth (LoadQuery.mk d.label depth filter [] .all).depth = .ok () from hDepth)
  refine ⟨t, leaves_ofExcept_bind hType (leaves_ofExcept_bind hKey ?_)⟩
  refine course_then ht fun graph => ?_
  cases graph with
  | none => exact quiet_fail _
  | some graph => exact fun _ => rfl

theorem course_loadAll {type : TypeName} {depth : Nat} {d : TypeDescriptor} {filter : Filter}
    {order : List Order} {window : Window} (hType : s.nodeDescriptor type = .ok d)
    (hDepth : checkDepth depth = .ok ()) :
    ∃ t, (s.watched.loadAll model type depth filter order window).Leaves World.log w
      (Course false [t]) := by
  obtain ⟨t, ht⟩ := course_fetch s model w
    (show checkDepth (LoadQuery.mk d.label depth filter order window).depth = .ok () from hDepth)
  refine ⟨t, leaves_ofExcept_bind hType (course_then ht fun graph => ?_)⟩
  cases graph with
  | none => exact quiet_pure _
  | some graph => exact fun _ => rfl

theorem course_deleteMatching {d : TypeDescriptor} {key : Value} {filter : Filter}
    (u : δ × List Moment)
    (hKey : Session.keyFilter s.registry.strategy d.label key = .ok filter) :
    ∃ t, (s.watched.deleteMatching d key).Leaves Prod.snd u (Course false [t]) := by
  obtain ⟨t, ht, -⟩ := course_transaction s.server u
    fun _ => body_run (deleteStatement d.label filter)
  exact ⟨t, leaves_ofExcept_bind hKey (course_within _ (course_then ht fun rows => quiet_pure _))⟩

theorem delete_of_saved {r : Ref} {d : TypeDescriptor} {key : Value}
    (h : s.savedKey model w.heap r = .ok (d, key)) :
    s.watched.delete model r w = (s.watched.deleteMatching d key).onDatabase w := by
  have hSaved : s.watched.savedKey model w.heap r = .ok (d, key) := h
  unfold Session.delete
  rw [hSaved]

theorem delete_of_unsaved {r : Ref} {e : Error} (h : s.savedKey model w.heap r = .error e) :
    s.watched.delete model r w = (.error e, w) := by
  have hSaved : s.watched.savedKey model w.heap r = .error e := h
  unfold Session.delete
  rw [hSaved]

/-- Listing a schema is one transaction. -/
theorem course_live (server : Server δ) (u : δ × List Moment) :
    ∃ t, (Schema.live server.watched).Leaves Prod.snd u (Course false [t]) := by
  obtain ⟨t, ht, -⟩ := course_transaction server u fun _ =>
    body_bind (body_run LiveSchema.showConstraints) fun constraints _ =>
      body_bind (body_run LiveSchema.showIndexes) fun indexes _ => body_pure (constraints, indexes)
  exact ⟨t, course_then ht fun _ => quiet_ofExcept _⟩

/-- Running statements is one transaction, or none for no statements. -/
theorem course_runAll (server : Server δ) (u : δ × List Moment) {statements : List Statement}
    (h : statements ≠ []) :
    ∃ t, (Schema.runAll server.watched statements).Leaves Prod.snd u (Course false [t]) := by
  obtain ⟨t, ht, -⟩ := course_transaction server u fun _ =>
    body_forM fun s (_ : s ∈ statements) _ => body_bind (body_run s) fun _ _ => body_pure ()
  have hRuns : statements.isEmpty = false := by simpa using h
  refine ⟨t, ?_⟩
  unfold Schema.runAll
  rw [hRuns]
  exact course_then ht fun _ => quiet_pure _

/-- Dropping everything is a listing, and a second transaction only if something is listed. -/
theorem course_dropAll (server : Server δ) (u : δ × List Moment) :
    ∃ spans, (Schema.dropAll server.watched).Leaves Prod.snd u (Course false spans) ∧ spans ≠ [] ∧
      (spans.length ≤ 1 ∨ spans.length = 2 ∧ ∃ schema v,
        (Schema.live server.watched).Returns u schema v ∧ schema.items ≠ []) := by
  obtain ⟨t, ht⟩ := course_live server u
  by_cases hListed : ∃ schema v, (Schema.live server.watched).Returns u schema v ∧ schema.items ≠ []
  · obtain ⟨schema, v, hRun, hItems⟩ := hListed
    obtain ⟨t', ht'⟩ := course_runAll server v
      (List.map_eq_nil_iff.not.2 hItems : schema.items.map LiveItem.removal ≠ [])
    have hRest : ∀ schema v, Schema.live server.watched u = (.ok schema, v) →
        (Schema.runAll server.watched (schema.items.map LiveItem.removal)).Leaves Prod.snd v
          (Course false [t']) := by
      intro schema' v' hRun'
      cases hRun.symm.trans hRun'
      exact ht'
    rcases course_bind ht hRest with h | h
    · exact ⟨[t], h, List.cons_ne_nil _ _, .inl (Nat.le_refl 1)⟩
    · exact ⟨[t, t'], h, List.cons_ne_nil _ _, .inr ⟨rfl, schema, v, hRun, hItems⟩⟩
  · have hRest : ∀ schema v, Schema.live server.watched u = (.ok schema, v) →
        (Schema.runAll server.watched (schema.items.map LiveItem.removal)).Leaves Prod.snd v
          (Course false []) := by
      intro schema v hRun
      have hItems : schema.items = [] := by
        by_contra hItems
        exact hListed ⟨schema, v, hRun, hItems⟩
      rw [hItems]
      exact course_quiet (quiet_pure 0)
    rcases course_bind ht hRest with h | h
    · exact ⟨[t], h, List.cons_ne_nil _ _, .inl (Nat.le_refl 1)⟩
    · exact ⟨[t], h, List.cons_ne_nil _ _, .inl (Nat.le_refl 1)⟩

namespace Request

/-- What is accepted is one transaction, but for dropping a schema. -/
theorem perform_accepted (q : Request) (hDrop : q ≠ .dropAll)
    (h : q.Accepted s model w.heap w.taken) :
    ∃ t, (q.perform s.watched model).Leaves World.log w (Course q.checks [t]) := by
  cases q with
  | save root depth =>
      obtain ⟨p, hPlan⟩ := h
      obtain ⟨t, ht, -⟩ := course_save (Prod.ext hPlan rfl)
      exact ⟨t, ht⟩
  | load type key depth =>
      obtain ⟨d, filter, hType, hKey, hDepth⟩ := h
      obtain ⟨t, ht⟩ := course_load hType hKey hDepth
      exact ⟨t, course_then ht fun _ => quiet_pure ()⟩
  | loadAll type depth filter order window =>
      obtain ⟨d, hType, hDepth⟩ := h
      obtain ⟨t, ht⟩ := course_loadAll hType hDepth
      exact ⟨t, course_then ht fun _ => quiet_pure ()⟩
  | delete r =>
      obtain ⟨d, key, filter, hSaved, hKey⟩ := h
      obtain ⟨t, ht⟩ := course_deleteMatching w.db hKey
      refine ⟨t, course_then (.congr ?_ (course_onDatabase ht)) fun _ => quiet_pure ()⟩
      exact delete_of_saved hSaved
  | deleteByKey type key =>
      obtain ⟨d, filter, hType, hKey⟩ := h
      obtain ⟨t, ht⟩ := course_deleteMatching w.db hKey
      exact ⟨t, course_then (leaves_ofExcept_bind hType ht) fun _ => quiet_pure ()⟩
  | live =>
      obtain ⟨t, ht⟩ := course_live s.server w.db
      exact ⟨t, course_then (course_onDatabase ht) fun _ => quiet_pure ()⟩
  | dropAll => exact absurd rfl hDrop
  | create =>
      obtain ⟨t, ht⟩ := course_runAll s.server w.db (List.map_eq_nil_iff.not.2 h)
      exact ⟨t, course_then (course_onDatabase ht) fun _ => quiet_pure ()⟩
  | verify =>
      obtain ⟨t, ht⟩ := course_live s.server w.db
      exact ⟨t, course_onDatabase (course_then ht fun _ => quiet_ofExcept _)⟩

/-- What is not accepted asks nothing of the server. -/
theorem perform_refused (q : Request) (h : ¬ q.Accepted s model w.heap w.taken) :
    (q.perform s.watched model).Leaves World.log w (Course q.checks []) := by
  cases q with
  | save root depth =>
      rcases hMake : Plan.make model s.registry w.heap root depth w.taken with ⟨e | p, after⟩
      · exact course_within _
          (.of_eq (bind_error (plan_eq hMake)) (List.append_nil _).symm (.nil _))
      · exact absurd ⟨p, by rw [hMake]⟩ h
  | load type key depth =>
      refine course_then ?_ fun _ => quiet_pure ()
      refine refused_check fun d hType => refused_check fun filter hKey => refused_fetch fun hDepth => ?_
      exact h ⟨d, filter, hType, hKey, hDepth⟩
  | loadAll type depth filter order window =>
      refine course_then ?_ fun _ => quiet_pure ()
      exact refused_check fun d hType => refused_fetch fun hDepth => h ⟨d, hType, hDepth⟩
  | delete r =>
      refine course_then ?_ fun _ => quiet_pure ()
      cases hSaved : s.savedKey model w.heap r with
      | error e => exact .of_eq (delete_of_unsaved hSaved) (List.append_nil _).symm (.nil _)
      | ok found =>
          obtain ⟨d, key⟩ := found
          refine .congr (delete_of_saved hSaved) (course_onDatabase (refused_check fun filter hKey => ?_))
          exact absurd ⟨d, key, filter, hSaved, hKey⟩ h
  | deleteByKey type key =>
      refine course_then (course_onDatabase ?_) fun _ => quiet_pure ()
      refine refused_check fun d hType => refused_check fun filter hKey => ?_
      exact absurd ⟨d, filter, hType, hKey⟩ h
  | create =>
      have hNone : SchemaItem.expected s.registry = [] := by
        by_contra hSome
        exact h hSome
      refine course_then (course_onDatabase (course_quiet fun u => ?_)) fun _ => quiet_pure ()
      have hHere : SchemaItem.expected s.watched.registry = [] := hNone
      unfold Schema.create
      rw [hHere]
      rfl
  | live | dropAll | verify => exact absurd trivial h

/-- Whatever the server answers, a request leaves transactions that took their course, one after the other:
none if it was not accepted, else one, or two if it drops what is listed.  A save commits only what was
written with every check passed. -/
theorem perform_course (s : Session δ) (model : EntityModel σ) (q : Request)
    (w : World σ (δ × List Moment)) :
    ∃ spans, (q.perform s.watched model).Leaves World.log w (Course q.checks spans) ∧
      (spans ≠ [] ↔ q.Accepted s model w.heap w.taken) ∧
      (spans.length ≤ 1 ∨ spans.length = 2 ∧ q = .dropAll ∧ ∃ schema db,
        (Schema.live s.server.watched).Returns w.db schema db ∧ schema.items ≠ []) ∧
      ∀ root depth, q = .save root depth → ∀ t ∈ spans, ∀ r, .commit r ∈ t.1 →
        ∃ p after d ids db, Plan.make model s.registry w.heap root depth w.taken = (.ok p, after) ∧
          s.server.begin w.db.1 = (.ok (), d) ∧
          (p.persist s.server.watched s.registry.strategy).Returns
            (d, w.db.2 ++ [.begin (.ok ())]) ids db := by
  by_cases hAccepted : q.Accepted s model w.heap w.taken
  · by_cases hDrop : q = .dropAll
    · subst hDrop
      obtain ⟨spans, hCourse, hSome, hTwo⟩ := course_dropAll s.server w.db
      exact ⟨spans, course_then (course_onDatabase hCourse) fun _ => quiet_pure (),
        ⟨fun _ => trivial, fun _ => hSome⟩, hTwo.imp_right fun ⟨hLength, hListed⟩ =>
          ⟨hLength, rfl, hListed⟩, fun _ _ h => (by cases h)⟩
    · by_cases hSave : ∃ root depth, q = .save root depth
      · obtain ⟨root, depth, rfl⟩ := hSave
        obtain ⟨p, hPlan⟩ := id hAccepted
        rcases hMake : Plan.make model s.registry w.heap root depth w.taken with ⟨result, after⟩
        obtain rfl : result = .ok p := by rw [← hPlan, hMake]
        obtain ⟨t, hCourse, hCommit⟩ := course_save hMake
        refine ⟨[t], hCourse, ⟨fun _ => hAccepted, fun _ => List.cons_ne_nil _ _⟩,
          .inl (Nat.le_refl 1), fun root depth hSame t' ht' r hr => ?_⟩
        cases hSame
        rw [List.mem_singleton.1 ht'] at hr
        obtain ⟨d, ids, db, hBegin, hReturns⟩ := hCommit r hr
        exact ⟨p, after, d, ids, db, hMake, hBegin, hReturns⟩
      · obtain ⟨t, hCourse⟩ := perform_accepted q hDrop hAccepted
        exact ⟨[t], hCourse, ⟨fun _ => hAccepted, fun _ => List.cons_ne_nil _ _⟩,
          .inl (Nat.le_refl 1), fun root depth h => absurd ⟨root, depth, h⟩ hSave⟩
  · exact ⟨[], perform_refused q hAccepted, ⟨fun h => absurd rfl h, fun h => absurd h hAccepted⟩,
      .inl (Nat.zero_le 1), fun _ _ _ t ht => absurd ht List.not_mem_nil⟩

end Request

end

end GraphMapping

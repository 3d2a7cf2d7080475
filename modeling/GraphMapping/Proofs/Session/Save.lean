import GraphMapping.Database.Scripted
import GraphMapping.Entity.Declared
import GraphMapping.Proofs.Database.Transactions
import GraphMapping.Proofs.Persist.Calls
import GraphMapping.Session

/-!
# What a failed save leaves behind

A save plans, writes the plan in a transaction, and hands the new keys to their objects after the commit.
As long as the transaction is not committed a failure leaves nothing: no object was touched.  An object
that does not take its key fails the save too late for that, so a failed save leaves nothing behind
exactly if every object takes its key.
-/

namespace GraphMapping

open GraphMapping.Action

/-- The server that also counts the transactions it has committed. -/
def Server.counted {δ : Type} (server : Server δ) : Server (δ × Nat) :=
  let silent {α : Type} (x : Action δ α) : Action (δ × Nat) α := fun (d, commits) =>
    let (reply, d) := x d
    (reply, (d, commits))
  { begin := silent server.begin
    run := fun s => silent (server.run s)
    fetch := fun s => silent (server.fetch s)
    commit := fun (d, commits) =>
      match server.commit d with
      | (.ok (), d) => (.ok (), (d, commits + 1))
      | (.error e, d) => (.error e, (d, commits))
      | (.hang, d) => (.hang, (d, commits))
    rollback := silent server.rollback }

/-- The session on a server that counts its commits. -/
def Session.counted {δ : Type} (s : Session δ) : Session (δ × Nat) :=
  ⟨s.registry, s.server.counted, s.options⟩

/-- What a save does after its commit. -/
def Plan.handOut {σ δ : Type} (p : Plan) (model : EntityModel σ) (registry : Registry)
    (ids : GraphIds) : Action (World σ δ) Unit := do
  let _ ← Action.onHeap (p.assignKeys model)
  let _ ← Action.onHeap (p.writeBack model registry ids)
  return ()

/-- What a save does within its time limit. -/
def Session.saveWork {σ δ : Type} (s : Session δ) (model : EntityModel σ) (root : Ref) (depth : Nat) :
    Action (World σ δ) Unit := do
  let plan ← Session.plan s.registry model root depth
  let ids ← (s.server.transaction (plan.persist s.server s.registry.strategy)).onDatabase
  plan.handOut model s.registry ids

/-- Objects take the values for their fields in turn. -/
inductive Heap.Takes {σ : Type} (model : EntityModel σ) : List AssignedKey → Heap σ → Heap σ → Prop
  | nil (heap : Heap σ) : Takes model [] heap heap
  | cons {a : AssignedKey} {rest : List AssignedKey} {heap heap' heap'' : Heap σ}
      (hTake : heap.assign model a.ref a.field a.value = .ok heap')
      (hRest : Takes model rest heap' heap'') : Takes model (a :: rest) heap heap''

/-- The numbers of new nodes as values for their key fields, if all of them are known. -/
def numberKeys {σ : Type} (registry : Registry) (ids : GraphIds) (heap : Heap σ) :
    List PlannedNode → Option (List AssignedKey)
  | [] => some []
  | n :: rest =>
      match ids.find? n.identity, registry.descriptor (heap.typeOf n.ref) with
      | some id, .ok d =>
          match d.key? with
          | none => numberKeys registry ids heap rest
          | some pk => (numberKeys registry ids heap rest).map (⟨n.ref, pk.field, .int id⟩ :: ·)
      | _, _ => none

/-- All values that a save hands to objects after its commit: the generated keys, and the database's
numbers where it assigns keys. -/
def Plan.keysToHand {σ : Type} (p : Plan) (registry : Registry) (ids : GraphIds) (heap : Heap σ) :
    Option (List AssignedKey) :=
  if registry.strategy.isNative then
    (numberKeys registry ids heap (p.allNodes.filter (·.isNew))).map (p.assigned ++ ·)
  else some p.assigned

/-- Every object takes its key. -/
def Plan.KeysTaken {σ : Type} (p : Plan) (model : EntityModel σ) (registry : Registry)
    (ids : GraphIds) (heap : Heap σ) : Prop :=
  ∃ keys heap', p.keysToHand registry ids heap = some keys ∧ heap.Takes model keys heap'

section

variable {σ δ : Type} {model : EntityModel σ} {registry : Registry} {ids : GraphIds}
  {heap heap' heap'' : Heap σ} {p : Plan}

/-! ## Handing out keys -/

theorem typeOf_assign {r : Ref} {field : String} {value : Value}
    (h : heap.assign model r field value = .ok heap') (q : Ref) : heap'.typeOf q = heap.typeOf q := by
  unfold Heap.assign at h
  obtain ⟨state, -, rfl⟩ := map_eq_ok.1 h
  exact heap.typeOf_put r q state

theorem Heap.Takes.append_iff {first second : List AssignedKey} :
    heap.Takes model (first ++ second) heap'' ↔
      ∃ heap', heap.Takes model first heap' ∧ heap'.Takes model second heap'' := by
  constructor
  · intro h
    induction first generalizing heap with
    | nil => exact ⟨heap, .nil heap, h⟩
    | cons a rest ih =>
        cases h with
        | cons hTake hRest =>
            obtain ⟨heap', hFirst, hSecond⟩ := ih hRest
            exact ⟨heap', .cons hTake hFirst, hSecond⟩
  · rintro ⟨heap', hFirst, hSecond⟩
    induction hFirst with
    | nil heap => exact hSecond
    | cons hTake _ ih => exact .cons hTake (ih hSecond)

theorem Heap.Takes.typeOf {keys : List AssignedKey} (h : heap.Takes model keys heap') (q : Ref) :
    heap'.typeOf q = heap.typeOf q := by
  induction h with
  | nil heap => rfl
  | cons hTake _ ih => rw [ih, typeOf_assign hTake]

theorem Heap.takes_cons_iff {a : AssignedKey} {rest : List AssignedKey} :
    heap.Takes model (a :: rest) heap'' ↔
      ∃ heap', heap.assign model a.ref a.field a.value = .ok heap' ∧
        heap'.Takes model rest heap'' := by
  constructor
  · intro h
    cases h with
    | cons hTake hRest => exact ⟨_, hTake, hRest⟩
  · rintro ⟨heap', hTake, hRest⟩
    exact .cons hTake hRest

/-- Handing out keys succeeds exactly if all of them are taken. -/
theorem assignAll_eq_ok {keys : List AssignedKey} :
    Plan.assignAll model keys heap = (.ok (), heap') ↔ heap.Takes model keys heap' := by
  induction keys generalizing heap with
  | nil =>
      constructor
      · intro h
        cases h
        exact .nil _
      · intro h
        cases h
        rfl
  | cons a rest ih =>
      unfold Plan.assignAll
      rw [Heap.takes_cons_iff]
      cases hTake : heap.assign model a.ref a.field a.value with
      | error e => simp
      | ok next => simp [ih]

theorem numberKeys_congr (h : ∀ q, heap'.typeOf q = heap.typeOf q) (nodes : List PlannedNode) :
    numberKeys registry ids heap' nodes = numberKeys registry ids heap nodes := by
  induction nodes with
  | nil => rfl
  | cons n rest ih =>
      simp only [numberKeys, h, ih]

/-- Handing out numbers succeeds exactly if all of them are known and taken. -/
theorem numberAll_eq_ok {nodes : List PlannedNode} {count : Nat} :
    (∃ total, numberAll model registry ids count nodes heap = (.ok total, heap')) ↔
      ∃ keys, numberKeys registry ids heap nodes = some keys ∧ heap.Takes model keys heap' := by
  induction nodes generalizing heap count with
  | nil =>
      constructor
      · rintro ⟨total, h⟩
        cases h
        exact ⟨[], rfl, .nil _⟩
      · rintro ⟨keys, hKeys, h⟩
        cases hKeys
        cases h
        exact ⟨count, rfl⟩
  | cons n rest ih =>
      unfold numberAll numberKeys
      cases hId : ids.find? n.identity with
      | none => simp
      | some id =>
          cases hType : registry.descriptor (heap.typeOf n.ref) with
          | error e => simp
          | ok d =>
              cases hPk : d.key? with
              | none =>
                  simp only [hPk]
                  exact ih
              | some pk =>
                  simp only [hPk, Option.map_eq_some_iff]
                  cases hTake : heap.assign model n.ref pk.field (.int id) with
                  | error e => simp [Heap.takes_cons_iff, hTake]
                  | ok next =>
                      -- What the later objects are asked for depends on types only, which stay.
                      simp only [ih, numberKeys_congr (typeOf_assign hTake)]
                      constructor
                      · rintro ⟨others, hOthers, h⟩
                        exact ⟨_, ⟨others, hOthers, rfl⟩, .cons hTake h⟩
                      · rintro ⟨keys, ⟨others, hOthers, rfl⟩, h⟩
                        obtain ⟨next', hTake', hRest⟩ := Heap.takes_cons_iff.1 h
                        cases hTake.symm.trans hTake'
                        exact ⟨others, hOthers, hRest⟩

/-- The generated keys are handed out exactly if all of them are taken. -/
theorem assignKeys_eq_ok {n : Nat} : p.assignKeys model heap = (.ok n, heap') ↔
    n = p.assigned.length ∧ heap.Takes model p.assigned heap' := by
  rw [← assignAll_eq_ok]
  unfold Plan.assignKeys
  rcases Plan.assignAll model p.assigned heap with ⟨e | u, next⟩
  · constructor
    · intro h
      cases h
    · rintro ⟨-, h⟩
      cases h
  · constructor
    · intro h
      cases h
      exact ⟨rfl, rfl⟩
    · rintro ⟨rfl, h⟩
      cases h
      rfl

/-- Both passes that hand out keys succeed, and leave this heap, exactly if every object takes its key. -/
theorem keysHanded_iff : (∃ keys, p.keysToHand registry ids heap = some keys ∧
    heap.Takes model keys heap'') ↔ ∃ n heap' m, p.assignKeys model heap = (.ok n, heap') ∧
      p.writeBack model registry ids heap' = (.ok m, heap'') := by
  unfold Plan.keysToHand Plan.writeBack
  split
  · constructor
    · rintro ⟨keys, hKeys, h⟩
      -- The first pass changes no type, so the second asks for the same fields as before it.
      obtain ⟨numbers, hNumbers, rfl⟩ := Option.map_eq_some_iff.1 hKeys
      obtain ⟨heap', hFirst, hSecond⟩ := Heap.Takes.append_iff.1 h
      rw [← numberKeys_congr hFirst.typeOf] at hNumbers
      obtain ⟨m, hm⟩ : ∃ m, numberAll model registry ids 0 (p.allNodes.filter (·.isNew)) heap' =
          (.ok m, heap'') := numberAll_eq_ok.2 ⟨numbers, hNumbers, hSecond⟩
      exact ⟨_, heap', m, assignKeys_eq_ok.2 ⟨rfl, hFirst⟩, hm⟩
    · rintro ⟨n, heap', m, hFirst, hSecond⟩
      obtain ⟨-, hFirst⟩ := assignKeys_eq_ok.1 hFirst
      obtain ⟨numbers, hNumbers, hSecond⟩ := numberAll_eq_ok.1 ⟨m, hSecond⟩
      rw [numberKeys_congr hFirst.typeOf] at hNumbers
      rw [hNumbers]
      exact ⟨_, rfl, Heap.Takes.append_iff.2 ⟨heap', hFirst, hSecond⟩⟩
  · constructor
    · rintro ⟨keys, hKeys, h⟩
      cases hKeys
      exact ⟨_, heap'', 0, assignKeys_eq_ok.2 ⟨rfl, h⟩, rfl⟩
    · rintro ⟨n, heap', m, hFirst, hSecond⟩
      obtain ⟨-, hFirst⟩ := assignKeys_eq_ok.1 hFirst
      cases hSecond
      exact ⟨p.assigned, rfl, hFirst⟩

/-- Both passes that hand out keys succeed exactly if every object takes its key. -/
theorem keysTaken_iff : p.KeysTaken model registry ids heap ↔ ∃ n heap' m heap'',
    p.assignKeys model heap = (.ok n, heap') ∧
      p.writeBack model registry ids heap' = (.ok m, heap'') := by
  constructor
  · rintro ⟨keys, heap'', hTaken⟩
    obtain ⟨n, heap', m, hBoth⟩ := keysHanded_iff.1 ⟨keys, hTaken⟩
    exact ⟨n, heap', m, heap'', hBoth⟩
  · rintro ⟨n, heap', m, heap'', hBoth⟩
    obtain ⟨keys, hTaken⟩ := keysHanded_iff.2 ⟨n, heap', m, hBoth⟩
    exact ⟨keys, heap'', hTaken⟩

/-! ## Commits -/

/-- No transaction was committed in between. -/
def SameCommits (w w' : δ × Nat) : Prop :=
  w'.2 = w.2

theorem SameCommits.refl (w : δ × Nat) : SameCommits w w := rfl

theorem SameCommits.trans (u v w : δ × Nat) (h : SameCommits u v) (h' : SameCommits v w) :
    SameCommits u w :=
  Eq.trans h' h

theorem run_sameCommits (server : Server δ) (s : Statement) :
    Keeps SameCommits (server.counted.run s) :=
  fun _ => rfl

theorem begin_sameCommits (server : Server δ) : Keeps SameCommits server.counted.begin :=
  fun _ => rfl

theorem rollback_sameCommits (server : Server δ) : Keeps SameCommits server.counted.rollback :=
  fun _ => rfl

theorem persist_sameCommits (p : Plan) (server : Server δ) (strategy : KeyStrategy) :
    Keeps SameCommits (p.persist server.counted strategy) :=
  keeps_persist SameCommits.refl SameCommits.trans p strategy fun s _ => run_sameCommits server s

theorem commit_counted (server : Server δ) (w : δ × Nat) :
    match server.counted.commit w with
    | (.ok _, w') => w'.2 = w.2 + 1
    | (_, w') => w'.2 = w.2 := by
  obtain ⟨d, commits⟩ := w
  have hCommit : server.counted.commit (d, commits) = match server.commit d with
      | (.ok (), d) => (.ok (), (d, commits + 1))
      | (.error e, d) => (.error e, (d, commits))
      | (.hang, d) => (.hang, (d, commits)) := rfl
  rw [hCommit]
  rcases server.commit d with ⟨u | e | _, d'⟩ <;> rfl

/-- A transaction that gives a result has committed once, any other has not committed. -/
theorem transaction_commits {α : Type} (server : Server δ) {work : Action (δ × Nat) α}
    (hWork : Keeps SameCommits work) (w : δ × Nat) :
    match server.counted.transaction work w with
    | (.ok _, w') => w'.2 = w.2 + 1
    | (_, w') => w'.2 = w.2 := by
  rw [transaction_eq]
  rcases hBegin : server.counted.begin w with ⟨u | e | _, w₁⟩
  · have hFirst : w₁.2 = w.2 := (begin_sameCommits server).of_eq hBegin
    rw [bind_ok hBegin]
    have hAlike : Keeps SameCommits (server.counted.attempt work) :=
      keeps_attempt SameCommits.trans hWork (rollback_sameCommits server)
    rcases hAttempt : server.counted.attempt work w₁ with ⟨a | e | _, w₂⟩
    · have hSecond : w₂.2 = w₁.2 := hAlike.of_eq hAttempt
      have hLast := commit_counted server w₂
      rw [bind_ok hAttempt]
      rcases hCommit : server.counted.commit w₂ with ⟨u' | e | _, w₃⟩ <;> rw [hCommit] at hLast
      · rw [bind_ok hCommit]
        change w₃.2 = w.2 + 1
        rw [← hFirst, ← hSecond]
        exact hLast
      · rw [bind_error hCommit]
        exact hLast.trans (hSecond.trans hFirst)
      · rw [bind_hang hCommit]
        exact hLast.trans (hSecond.trans hFirst)
    · have hSecond : w₂.2 = w₁.2 := hAlike.of_eq hAttempt
      rw [bind_error hAttempt]
      exact hSecond.trans hFirst
    · have hSecond : w₂.2 = w₁.2 := hAlike.of_eq hAttempt
      rw [bind_hang hAttempt]
      exact hSecond.trans hFirst
  · rw [bind_error hBegin]
    exact (begin_sameCommits server).of_eq hBegin
  · rw [bind_hang hBegin]
    exact (begin_sameCommits server).of_eq hBegin

/-! ## Saves -/

theorem save_eq (s : Session δ) (model : EntityModel σ) (root : Ref) (depth : Nat) :
    s.save model root depth = Action.within s.options.timeout (s.saveWork model root depth) := rfl

/-- The plan of a save was made, and its transaction was committed with these numbers. -/
def Session.Commits (s : Session δ) (model : EntityModel σ) (root : Ref) (depth : Nat)
    (w : World σ δ) (p : Plan) (ids : GraphIds) (db : δ) : Prop :=
  (∃ after, Plan.make model s.registry w.heap root depth w.taken = (.ok p, after)) ∧
    s.server.transaction (p.persist s.server s.registry.strategy) w.db = (.ok ids, db)

theorem plan_eq {root : Ref} {depth : Nat} {w : World σ δ} {result : Except Error Plan} {after : Nat}
    (h : Plan.make model registry w.heap root depth w.taken = (result, after)) :
    Session.plan registry model root depth w = (.ofExcept result, { w with taken := after }) := by
  unfold Session.plan
  rw [h]

theorem onDatabase_eq {α : Type} {x : Action δ α} {w : World σ δ} {reply : Reply α} {db : δ}
    (h : x w.db = (reply, db)) : x.onDatabase w = (reply, { w with db := db }) := by
  unfold Action.onDatabase
  rw [h]

theorem onHeap_eq {α : Type} {f : Heap σ → Except Error α × Heap σ} {w : World σ δ}
    {result : Except Error α} (h : f w.heap = (result, heap)) :
    Action.onHeap f w = (.ofExcept result, { w with heap := heap }) := by
  unfold Action.onHeap
  rw [h]

/-- A save whose transaction is not committed leaves nothing behind. -/
theorem saveWork_uncommitted (s : Session δ) (model : EntityModel σ) (root : Ref) (depth : Nat)
    (w : World σ (δ × Nat)) (h : ∀ p ids db, ¬ s.counted.Commits model root depth w p ids db) :
    ∃ reply w', s.counted.saveWork model root depth w = (reply, w') ∧ (∀ u, reply ≠ .ok u) ∧
      w'.db.2 = w.db.2 ∧ w'.heap = w.heap := by
  unfold Session.saveWork
  rcases hMake : Plan.make model s.registry w.heap root depth w.taken with ⟨e | p, after⟩
  · exact ⟨.error e, _, bind_error (plan_eq hMake), fun u hu => (by cases hu), rfl, rfl⟩
  · have hCommits := transaction_commits s.server
      (persist_sameCommits p s.server s.registry.strategy) w.db
    rcases hRun : s.counted.server.transaction
      (p.persist s.counted.server s.counted.registry.strategy) w.db with ⟨ids | e | _, db⟩
    · exact absurd ⟨⟨after, hMake⟩, hRun⟩ (h p ids db)
    · have hSame : db.2 = w.db.2 := by
        erw [hRun] at hCommits
        exact hCommits
      exact ⟨.error e, _, (bind_ok (plan_eq hMake)).trans (bind_error (onDatabase_eq hRun)),
        fun u hu => (by cases hu), hSame, rfl⟩
    · have hSame : db.2 = w.db.2 := by
        erw [hRun] at hCommits
        exact hCommits
      exact ⟨.hang, _, (bind_ok (plan_eq hMake)).trans (bind_hang (onDatabase_eq hRun)),
        fun u hu => (by cases hu), hSame, rfl⟩

/-- After the commit of a save the databases are left alone, and the save succeeds exactly if every
object takes its key. -/
theorem handOut_cases (p : Plan) (model : EntityModel σ) (registry : Registry) (ids : GraphIds)
    (w : World σ δ) :
    ∃ reply w', p.handOut model registry ids w = (reply, w') ∧ w'.db = w.db ∧
      ((reply = .ok () ∧ p.KeysTaken model registry ids w.heap) ∨
        ∃ e, reply = .error e ∧ ¬ p.KeysTaken model registry ids w.heap) := by
  unfold Plan.handOut
  rcases hAssign : p.assignKeys model w.heap with ⟨e | n, heap'⟩
  · refine ⟨.error e, _, bind_error (onHeap_eq hAssign), rfl, .inr ⟨e, rfl, ?_⟩⟩
    rw [keysTaken_iff]
    rintro ⟨n, _, m, _, hFirst, -⟩
    rw [hAssign] at hFirst
    cases hFirst
  · rcases hWrite : p.writeBack model registry ids heap' with ⟨e | m, heap''⟩
    · have hSecond : Action.onHeap (p.writeBack model registry ids) { w with heap := heap' } =
          (.ofExcept (.error e), { w with heap := heap'' }) := onHeap_eq hWrite
      refine ⟨.error e, _, (bind_ok (onHeap_eq hAssign)).trans (bind_error hSecond), rfl,
        .inr ⟨e, rfl, ?_⟩⟩
      rw [keysTaken_iff]
      rintro ⟨n, _, m, _, hFirst, hSecond⟩
      rw [hAssign] at hFirst
      cases hFirst
      rw [hWrite] at hSecond
      cases hSecond
    · have hSecond : Action.onHeap (p.writeBack model registry ids) { w with heap := heap' } =
          (.ofExcept (.ok m), { w with heap := heap'' }) := onHeap_eq hWrite
      refine ⟨.ok (), _, (bind_ok (onHeap_eq hAssign)).trans (bind_ok hSecond), rfl,
        .inl ⟨rfl, ?_⟩⟩
      rw [keysTaken_iff]
      exact ⟨n, heap', m, heap'', hAssign, hWrite⟩

/-- A save whose transaction is committed succeeds if every object takes its key, else it fails with
one transaction committed. -/
theorem saveWork_committed (s : Session δ) (model : EntityModel σ) (root : Ref) (depth : Nat)
    (w : World σ (δ × Nat)) {p : Plan} {ids : GraphIds} {db : δ × Nat}
    (h : s.counted.Commits model root depth w p ids db) :
    ∃ reply w', s.counted.saveWork model root depth w = (reply, w') ∧ w'.db.2 = w.db.2 + 1 ∧
      ((reply = .ok () ∧ p.KeysTaken model s.registry ids w.heap) ∨
        ∃ e, reply = .error e ∧ ¬ p.KeysTaken model s.registry ids w.heap) := by
  obtain ⟨⟨after, hMake⟩, hRun⟩ := h
  have hCommits : db.2 = w.db.2 + 1 := by
    have hAll := transaction_commits s.server
      (persist_sameCommits p s.server s.registry.strategy) w.db
    erw [hRun] at hAll
    exact hAll
  obtain ⟨reply, w', hHand, hDb, hKeys⟩ :=
    handOut_cases p model s.registry ids { w with taken := after, db := db }
  have hStep : (s.counted.server.transaction
      (p.persist s.counted.server s.counted.registry.strategy)).onDatabase { w with taken := after } =
      (.ok ids, { w with taken := after, db := db }) := onDatabase_eq hRun
  refine ⟨reply, w', ?_, ?_, hKeys⟩
  · exact (bind_ok (plan_eq hMake)).trans ((bind_ok hStep).trans hHand)
  · rw [hDb]
    exact hCommits

/-- If an object does not take its key, the save fails with its transaction committed. -/
theorem save_refused (s : Session δ) (model : EntityModel σ) (root : Ref) (depth : Nat)
    (w : World σ (δ × Nat)) {p : Plan} {ids : GraphIds} {db : δ × Nat}
    (h : s.counted.Commits model root depth w p ids db)
    (hNot : ¬ p.KeysTaken model s.registry ids w.heap) :
    ∃ e w', s.counted.saveWork model root depth w = (.error e, w') ∧
      s.counted.save model root depth w = (.error e, w') ∧ w'.db.2 = w.db.2 + 1 := by
  obtain ⟨reply, w', hWork, hCount, ⟨-, hTaken⟩ | ⟨e, rfl, -⟩⟩ :=
    saveWork_committed s model root depth w h
  · exact absurd hTaken hNot
  · refine ⟨e, w', hWork, ?_, hCount⟩
    rw [save_eq]
    unfold Action.within
    rw [hWork]

theorem saveWork_of_error {s : Session δ} {root : Ref} {depth : Nat} {w w' : World σ δ} {e : Error}
    (h : s.save model root depth w = (.error e, w'))
    (hInTime : ∀ w'', s.saveWork model root depth w ≠ (.hang, w'')) :
    s.saveWork model root depth w = (.error e, w') := by
  rw [save_eq] at h
  unfold Action.within at h
  rcases hWork : s.saveWork model root depth w with ⟨u | e' | _, w''⟩ <;> rw [hWork] at h
  · exact h
  · exact h
  · exact absurd hWork (hInTime w'')

/-- A save leaves nothing behind whenever it fails in time, with no transaction committed and all
objects as they were, exactly if every object takes its key after a commit.  If one does not, the save
fails with its transaction committed. -/
theorem save_leaves_nothing_iff (s : Session δ) (model : EntityModel σ) (root : Ref) (depth : Nat)
    (w : World σ (δ × Nat)) :
    ((∀ e w', s.counted.save model root depth w = (.error e, w') →
        (∀ w'', s.counted.saveWork model root depth w ≠ (.hang, w'')) →
        w'.db.2 = w.db.2 ∧ w'.heap = w.heap) ↔
      ∀ p ids db, s.counted.Commits model root depth w p ids db →
        p.KeysTaken model s.registry ids w.heap) ∧
    ∀ p ids db, s.counted.Commits model root depth w p ids db →
      ¬ p.KeysTaken model s.registry ids w.heap →
      ∃ e w', s.counted.save model root depth w = (.error e, w') ∧ w'.db.2 = w.db.2 + 1 := by
  refine ⟨⟨fun hClean p ids db hCommits => ?_, fun hTaken e w' hSave hInTime => ?_⟩, ?_⟩
  · -- A refused key would fail the save in time, but after its commit.
    refine Classical.byContradiction fun hNot => ?_
    obtain ⟨e, w', hWork, hSave, hCount⟩ := save_refused s model root depth w hCommits hNot
    have hInTime : ∀ w'', s.counted.saveWork model root depth w ≠ (.hang, w'') := by
      intro w'' hHang
      rw [hWork] at hHang
      cases hHang
    have hSame := (hClean e w' hSave hInTime).1
    omega
  · have hError := saveWork_of_error hSave hInTime
    by_cases hCommitted : ∃ p ids db, s.counted.Commits model root depth w p ids db
    · obtain ⟨p, ids, db, hCommits⟩ := hCommitted
      obtain ⟨reply, w'', hWork, -, ⟨rfl, -⟩ | ⟨-, -, hNot⟩⟩ :=
        saveWork_committed s model root depth w hCommits
      · rw [hError] at hWork
        cases hWork
      · exact absurd (hTaken p ids db hCommits) hNot
    · obtain ⟨reply, w'', hWork, -, hCount, hHeap⟩ :=
        saveWork_uncommitted s model root depth w fun p ids db hCommits =>
          hCommitted ⟨p, ids, db, hCommits⟩
      rw [hError] at hWork
      cases hWork
      exact ⟨hCount, hHeap⟩
  · intro p ids db hCommits hNot
    obtain ⟨e, w', -, hSave, hCount⟩ := save_refused s model root depth w hCommits hNot
    exact ⟨e, w', hSave, hCount⟩

end

/-! A tag with a number as its key is about a person whose key is a text. -/

namespace Ledger

def tag : DeclaredType :=
  ⟨"Tag", "Tag", none,
    [⟨⟨"seq", .scalar, "pk"⟩, .value (.option .int)⟩,
      ⟨⟨"persons", .many "Person", "relationship=ABOUT;direction=outgoing"⟩, .many "Person"⟩],
    false⟩

def person : DeclaredType :=
  ⟨"Person", "Person", none, [⟨⟨"seq", .scalar, "pk"⟩, .value .string⟩], false⟩

def strategy : KeyStrategy :=
  ⟨"seq", "seq", .int, .generated fun n => .int (Int64.ofNat (n + 1))⟩

def registry : Registry where
  strategy := strategy
  types := [
    ⟨"Tag", "Tag", [⟨"seq", "seq", .key false, false, false⟩,
      ⟨"persons", "persons", .relationship ⟨"ABOUT", .outgoing, "Person", true⟩, false, false⟩], none⟩,
    ⟨"Person", "Person", [⟨"seq", "seq", .key false, false, false⟩], none⟩]
  relationships := [
    (⟨"Tag", "ABOUT", "Person"⟩, ⟨some ⟨"Tag", "persons", true, .outgoing⟩, none, none⟩)]

example : Registry.ofDecls strategy [tag.decl, person.decl] = .ok registry := by rfl

/-- Neither object has a key yet. -/
def objects : Ref → Instance DeclaredObject
  | 0 => ⟨"Tag", ⟨tag, [("seq", .null)], [("persons", [1])], ⟨none, none⟩, false⟩⟩
  | _ => ⟨"Person", ⟨person, [("seq", .string "")], [], ⟨none, none⟩, false⟩⟩

def model : EntityModel DeclaredObject :=
  declaredModel [tag, person]

def session : Session Script :=
  ⟨registry, Script.server, .standard⟩

def world : World DeclaredObject (Script × Nat) :=
  ⟨⟨2, objects⟩, 0, (Script.new, 0)⟩

def plan : Plan where
  nodes := [
    ("Person", [⟨"2", "Person", true, some (.int 2), [], 1⟩]),
    ("Tag", [⟨"1", "Tag", true, some (.int 1), [], 0⟩])]
  edges := [("ABOUT", [⟨"1", "2", "ABOUT", false, false, none, []⟩])]
  assigned := [⟨0, "seq", .int 1⟩, ⟨1, "seq", .int 2⟩]

/-- The numbers that the database gives to the person and the tag. -/
def ids : GraphIds := [("1", 2), ("2", 1)]

def written : Script :=
  { Script.new with lastId := 2, ids := [("1", 2), ("2", 1)] }

theorem commits : session.counted.Commits model 0 1 world plan ids (written, 1) :=
  ⟨⟨2, by rfl⟩, by rfl⟩

theorem key_refused : ¬ plan.KeysTaken model registry ids world.heap := by
  rintro ⟨keys, heap', hKeys, hTakes⟩
  cases hKeys
  cases hTakes with
  | cons hTag hRest =>
      cases hTag
      cases hRest with
      | cons hPerson _ => cases hPerson

end Ledger

theorem ledger_save_fails_late :
    ∃ e w', Ledger.session.counted.save Ledger.model 0 1 Ledger.world = (.error e, w') ∧
      w'.db.2 = 1 :=
  (save_leaves_nothing_iff Ledger.session Ledger.model 0 1 Ledger.world).2 Ledger.plan Ledger.ids
    (Ledger.written, 1) Ledger.commits Ledger.key_refused

/-- The save fails in time, but its transaction is committed and the tag has its key. -/
theorem ledger_save_leaves_key :
    ∃ e w', Ledger.session.counted.save Ledger.model 0 1 Ledger.world = (.error e, w') ∧
      (∀ w'', Ledger.session.counted.saveWork Ledger.model 0 1 Ledger.world ≠ (.hang, w'')) ∧
      Ledger.world.db.2 = 0 ∧ w'.db.2 = 1 ∧
      Ledger.world.heap.value Ledger.model 0 "seq" = .null ∧
      w'.heap.value Ledger.model 0 "seq" = .int 1 := by
  have hWork : ∃ w', Ledger.session.counted.saveWork Ledger.model 0 1 Ledger.world =
      (.error (.data "expected string, got int value"), w') := ⟨_, by rfl⟩
  refine ⟨.data "expected string, got int value", _, by rfl, ?_, rfl, by rfl, by rfl, by rfl⟩
  intro w'' hHang
  obtain ⟨w', hError⟩ := hWork
  rw [hError] at hHang
  cases hHang

end GraphMapping

import GraphMapping.Proofs.ObjectGraph.Stored
import GraphMapping.Proofs.Persist.Verbs
import GraphMapping.Proofs.Session.Numbered

/-!
# Saving again what the database has

A save of objects that were saved or loaded before finds their keys, and so merges or matches what is
there.  Only relationship-objects without a key, which is all of them where the database assigns keys,
are created again.
-/

namespace GraphMapping

open GraphMapping.Action

/-- The relationship-object has no key to be merged on: its type has none, or the database assigns keys. -/
def Walker.Keyless {σ : Type} (w : Walker σ) (r : Ref) : Prop :=
  ∃ d, w.descriptor r = .ok d ∧ (d.key? = none ∨ w.registry.strategy.isNative = true)

/-- The relationships of a plan that stand for relationship-objects, each with its object. -/
structure Walker.Pairs {σ : Type} (w : Walker σ) (root : Ref) (depth taken : Nat) (p : Plan)
    (pairs : List (PlannedEdge × Ref)) : Prop where
  relationships : pairs.map (·.1) = p.allEdges.filter (·.object)
  once : (pairs.map (·.2)).Nodup
  own : ∀ pair ∈ pairs,
    (∃ start finish, w.IsRelationshipOf root depth taken pair.1 pair.2 start finish) ∧
      w.Bears pair.2 pair.1.key

/-- If the statement creates anything, then a relationship in every row, that of a relationship-object
without a key. -/
def Walker.CreatesKeyless {σ : Type} (w : Walker σ) (pairs : List (PlannedEdge × Ref))
    (s : Statement) : Prop :=
  s.Creates → s.kind = .relationshipUpsert ∧ ∀ row ∈ s.batch, ∃ pair ∈ pairs, ∃ ids label,
    edgeRow ids label pair.1 = .ok row ∧ pair.1.key = none ∧ w.Keyless pair.2

namespace Session

variable {σ δ : Type}

/-- The walker over the objects of a world. -/
def walker (s : Session δ) (model : EntityModel σ) (w : World σ δ) : Walker σ :=
  ⟨model, s.registry, w.heap⟩

/-- The session on a server that keeps a record of the statements run. -/
def answered (s : Session δ) : Session (δ × List Call) :=
  ⟨s.registry, s.server.answered, s.options⟩

/-- The statements that a save runs, with their answers, latest first. -/
def sent (s : Session δ) (model : EntityModel σ) (root : Ref) (depth : Nat) (w : World σ δ) :
    List Call :=
  (s.answered.save model root depth ⟨w.heap, w.taken, (w.db, [])⟩).2.db.2

/-- A save has run a statement for its plan, with these relationship-objects. -/
structure SentBy (s : Session δ) (model : EntityModel σ) (root : Ref) (depth : Nat) (w : World σ δ)
    (call : Call) (p : Plan) (pairs : List (PlannedEdge × Ref)) : Prop where
  planned : ∃ after, Plan.make model s.registry w.heap root depth w.taken = (.ok p, after)
  objects : (s.walker model w).Pairs root depth w.taken p pairs
  sends : p.Sends s.registry.strategy call.statement

/-- Objects were loaded: one by its key, or some that match a filter. -/
inductive Loads (s : Session δ) (model : EntityModel σ) (w w' : World σ δ) : Prop
  | one {type : TypeName} {key : Value} {depth : Nat} {r : Ref}
      (hLoad : s.load model type key depth w = (.ok r, w'))
  | some {type : TypeName} {depth : Nat} {filter : Filter} {order : List Order} {window : Window}
      {r : Ref} {rest : List Ref}
      (hLoad : s.loadAll model type depth filter order window w = (.ok (r :: rest), w'))

/-- What a load has done: the database gave a result, and objects were built from it. -/
structure Loaded (s : Session δ) (model : EntityModel σ) (w w' : World σ δ) (result : LoadResult)
    (graph : ObjectGraph) : Prop where
  fetched : ∃ query : LoadQuery,
    s.server.transaction (s.server.fetch query.statement) w.db = (.ok result, w'.db)
  built : ObjectGraph.ofResult model s.registry result w.heap = .ok (graph, w'.heap)

variable {s : Session δ} {model : EntityModel σ} {root : Ref} {depth : Nat}
  {w w' again : World σ δ} {call : Call} {p : Plan} {pairs : List (PlannedEdge × Ref)}
  {result : LoadResult} {graph : ObjectGraph}

/-! ## What a save runs -/

/-- The calls of a save that has made a plan are for the plan. -/
theorem saveWork_calls {after : Nat} {w : World σ (δ × List Call)}
    (hMake : Plan.make model s.registry w.heap root depth w.taken = (.ok p, after)) :
    OnlyCalls (p.Sends s.registry.strategy) w.db (s.answered.saveWork model root depth w).2.db := by
  have hKeeps : Keeps (OnlyCalls (p.Sends s.registry.strategy))
      (s.server.answered.transaction (p.persist s.server.answered s.registry.strategy)) := by
    refine keeps_transaction (OnlyCalls.refl _) (OnlyCalls.trans _) (fun _ => .refl _ _) ?_
      (fun _ => .refl _ _) (fun _ => .refl _ _)
    exact keeps_persist (OnlyCalls.refl _) (OnlyCalls.trans _) p s.registry.strategy
      fun _ hSends => keeps_run_answered hSends
  have hPlan : Session.plan s.answered.registry model root depth w = (.ok p, { w with taken := after }) :=
    plan_eq hMake
  rcases hRun : s.server.answered.transaction
    (p.persist s.server.answered s.registry.strategy) w.db with ⟨ids | e | _, db⟩
  all_goals
    have hCalls := hKeeps.of_eq hRun
    have hStep := onDatabase_eq (w := { w with taken := after }) hRun
  · obtain ⟨reply, w', hHand, hDb, -⟩ := handOut_cases p model s.registry ids
      { w with taken := after, db := db }
    have hWork : s.answered.saveWork model root depth w = (reply, w') :=
      (bind_ok hPlan).trans ((bind_ok hStep).trans hHand)
    rw [hWork, hDb]
    exact hCalls
  · have hWork : s.answered.saveWork model root depth w =
        (.error e, { w with taken := after, db := db }) := (bind_ok hPlan).trans (bind_error hStep)
    rw [hWork]
    exact hCalls
  · have hWork : s.answered.saveWork model root depth w =
        (.hang, { w with taken := after, db := db }) := (bind_ok hPlan).trans (bind_hang hStep)
    rw [hWork]
    exact hCalls

/-- Whatever a save runs is for the plan that it has made. -/
theorem planned_of_sent (h : call ∈ s.sent model root depth w) : ∃ p after,
    Plan.make model s.registry w.heap root depth w.taken = (.ok p, after) ∧
      p.Sends s.registry.strategy call.statement := by
  let start : World σ (δ × List Call) := ⟨w.heap, w.taken, (w.db, [])⟩
  have hWork : call ∈ (s.answered.saveWork model root depth start).2.db.2 := by
    unfold sent at h
    rw [save_eq] at h
    unfold Action.within at h
    rcases hRun : s.answered.saveWork model root depth start with ⟨u | e | _, w'⟩ <;>
      rw [hRun] at h <;> exact h
  rcases hMake : Plan.make model s.registry w.heap root depth w.taken with ⟨e | p, after⟩
  · have hPlan : Session.plan s.answered.registry model root depth start =
        (.error e, { start with taken := after }) := plan_eq (w := start) hMake
    have hNone : s.answered.saveWork model root depth start =
        (.error e, { start with taken := after }) := bind_error hPlan
    rw [hNone] at hWork
    cases hWork
  · refine ⟨p, after, rfl, ?_⟩
    rcases (saveWork_calls (w := start) hMake).2 call hWork with hOld | hNew
    · cases hOld
    · exact hNew

/-- What a save runs is for its plan, of which every relationship-object is known. -/
theorem sentBy_of_sent (h : call ∈ s.sent model root depth w) :
    ∃ p pairs, s.SentBy model root depth w call p pairs := by
  obtain ⟨p, after, hMake, hSends⟩ := planned_of_sent h
  obtain ⟨state, hFinished⟩ := Walker.finished_of_make (w := s.walker model w) hMake
  obtain ⟨objects, hSame, hEach⟩ := Walker.planned_objects hFinished
  have hLength := hEach.length_eq
  refine ⟨p, (p.allEdges.filter (·.object)).zip objects, ⟨after, hMake⟩, ⟨?_, ?_, ?_⟩, hSends⟩
  · exact List.map_fst_zip (Nat.le_of_eq hLength)
  · rw [List.map_snd_zip (Nat.le_of_eq hLength.symm)]
    exact hSame.nodup_iff.1 hFinished.recorded.objects.once
  · rintro ⟨e, o⟩ hPair
    exact (List.forall₂_iff_zip.1 hEach).2 hPair

theorem keyless_of_bears {w : Walker σ} {r : Ref} (h : w.Bears r none) : w.Keyless r := by
  cases h with
  | keyless hType hNone => exact ⟨_, hType, hNone⟩
  | generated _ _ hNative _ hValue =>
      obtain ⟨value, hSome⟩ := KeyStrategy.generate_ok hNative hValue
      cases hSome

/-- A save that plans no new node where the database assigns keys creates relationships of
relationship-objects without a key only. -/
theorem SentBy.createsKeyless (h : s.SentBy model root depth w call p pairs)
    (hKnown : s.registry.strategy.isNative = true → ∀ n ∈ p.allNodes, n.isNew = false) :
    (s.walker model w).CreatesKeyless pairs call.statement := by
  intro hCreates
  cases h.sends with
  | nodes hGroup hBatches hSent =>
      obtain ⟨hNative, n, hn, hNew⟩ := nodeBatches_creates hBatches hSent hCreates
      rw [hKnown hNative n (Dict.mem_members.2 ⟨_, hGroup, hn⟩)] at hNew
      cases hNew
  | @edges ids label items batches hGroup hBatches hSent =>
      obtain ⟨hKind, hRows⟩ := edgeBatches_creates hBatches hSent hCreates
      refine ⟨hKind, fun row hRow => ?_⟩
      obtain ⟨e, he, hObject, hKey, hEq⟩ := hRows row hRow
      have hMem : e ∈ p.allEdges.filter (·.object) :=
        List.mem_filter.2 ⟨Dict.mem_members.2 ⟨_, hGroup, he⟩, hObject⟩
      rw [← h.objects.relationships] at hMem
      obtain ⟨pair, hPair, rfl⟩ := List.mem_map.1 hMem
      obtain ⟨-, hBears⟩ := h.objects.own pair hPair
      rw [hKey] at hBears
      exact ⟨pair, hPair, ids, label, hEq, hKey, keyless_of_bears hBears⟩

/-! ## Loads -/

theorem loaded_of_fetch {query : LoadQuery}
    (h : Returns (s.fetch model query) w (some graph) w') :
    ∃ result, s.Loaded model w w' result graph := by
  unfold fetch at h
  obtain ⟨u, w₁, hDepth, hWork⟩ := returns_bind.1 h
  obtain ⟨-, rfl⟩ := returns_ofExcept.1 hDepth
  obtain ⟨result, w₂, hFetch, hRebuild⟩ := returns_bind.1 (returns_within hWork)
  obtain ⟨hFetched, hFirst⟩ := returns_onDatabase hFetch
  have hHeap : w₂.heap = w₁.heap := by
    rw [hFirst]
  unfold Returns rebuild at hRebuild
  rw [hHeap] at hRebuild
  split at hRebuild
  · split at hRebuild
    · rename_i hBuilt
      cases hRebuild
      exact ⟨result, ⟨query, hFetched⟩, hBuilt⟩
    · cases hRebuild
  · cases hRebuild

/-- A load has built its objects from a result of the database. -/
theorem loaded_of_loads (h : s.Loads model w w') :
    ∃ result graph, s.Loaded model w w' result graph := by
  cases h with
  | one hLoad =>
      unfold load at hLoad
      obtain ⟨d, w₁, hType, hRest⟩ := returns_bind.1 hLoad
      obtain ⟨-, rfl⟩ := returns_ofExcept.1 hType
      obtain ⟨filter, w₂, hFilter, hRest'⟩ := returns_bind.1 hRest
      obtain ⟨-, rfl⟩ := returns_ofExcept.1 hFilter
      obtain ⟨found, w₃, hFetch, hLast⟩ := returns_bind.1 hRest'
      cases found with
      | none => exact absurd hLast not_returns_fail
      | some graph =>
          obtain ⟨result, hLoaded⟩ := loaded_of_fetch hFetch
          have hSame : w' = w₃ := (Prod.ext_iff.1 hLast).2.symm
          rw [hSame]
          exact ⟨result, graph, hLoaded⟩
  | some hLoad =>
      unfold loadAll at hLoad
      obtain ⟨d, w₁, hType, hRest⟩ := returns_bind.1 hLoad
      obtain ⟨-, rfl⟩ := returns_ofExcept.1 hType
      obtain ⟨found, w₂, hFetch, hLast⟩ := returns_bind.1 hRest
      cases found with
      | none =>
          obtain ⟨hNone, -⟩ := returns_pure.1 hLast
          cases hNone
      | some graph =>
          obtain ⟨result, hLoaded⟩ := loaded_of_fetch hFetch
          have hSame : w' = w₂ := (Prod.ext_iff.1 hLast).2.symm
          rw [hSame]
          exact ⟨result, graph, hLoaded⟩

/-- A relationship-object that a load has built goes by the key that is stored of its relationship. -/
theorem Loaded.key (hSeparates : model.Separates) (h : s.Loaded model w w' result graph)
    (hNative : s.registry.strategy.isNative = false) (hHeap : again.heap = w'.heap) {id : Int64}
    {q : Ref} (hq : (id, q) ∈ graph.edges) {key : Option Value}
    (hBears : (s.walker model again).Bears q key) :
    ∃ edges x, result.relationships = .ok edges ∧ x ∈ edges ∧ x.id = id ∧
      ∀ d pk stored, (s.walker model again).descriptor q = .ok d →
        StoresKey model s.registry.strategy d x.properties pk stored → key = some stored := by
  obtain ⟨edges, x, hEdges, hx, hId, hPortrays⟩ :=
    ObjectGraph.ofResult_portrays hSeparates h.built hq
  refine ⟨edges, x, hEdges, hx, hId, fun d pk stored hType hStores => ?_⟩
  rw [← hHeap] at hPortrays
  obtain ⟨-, d', state, hType', hState, hRead⟩ := hPortrays
  cases ok_unique hType hType'
  rw [hNative] at hState
  have hHeld : again.heap.value model q pk.field = stored := by
    unfold Heap.value
    rw [hRead, populate_key hSeparates hStores hState]
    rfl
  cases hBears with
  | keyless hType' hNone =>
      cases ok_unique hType hType'
      rcases hNone with hNone | hYes
      · rw [hStores.field] at hNone
        cases hNone
      · rw [show s.registry.strategy.isNative = true from hYes] at hNative
        cases hNative
  | held hType' hPk _ _ =>
      cases ok_unique hType hType'
      cases hStores.field.symm.trans hPk
      exact congrArg some hHeld
  | generated hType' hPk _ hNone _ =>
      cases ok_unique hType hType'
      cases hStores.field.symm.trans hPk
      -- A usable key is held already.
      have hUsable := hStores.usable
      rw [← hHeld, show (again.heap.value model q pk.field).key? = none from hNone] at hUsable
      cases hUsable

end Session

/-- Saving again what was saved or loaded before creates relationships of relationship-objects without a
key only.  Where keys are generated, the next save of the same objects plans the same nodes and
relationships if the objects hold the keys that they got.  Where the database assigns keys, it plans them
under the numbers that were given, if the objects hold those and no key looks like a temporary identity.
After a load, a relationship-object whose type has a key is merged on the key that is stored of it.  What
follows from a key that was written needs that a written field leaves the others alone. -/
theorem save_again_creates_keyless {σ δ : Type} (s : Session δ) (model : EntityModel σ)
    (again : World σ δ) :
    (∀ (root : Ref) (depth : Nat) (w w' : World σ δ),
      s.save model root depth w = (.ok (), w') → again.heap = w'.heap →
      ∃ p ids keys, s.Saved model root depth w w' p ids keys ∧
        ∀ call ∈ s.sent model root depth again, ∃ p' pairs,
          s.SentBy model root depth again call p' pairs ∧
            (s.registry.strategy.isNative = false →
              (s.walker model again).CreatesKeyless pairs call.statement ∧
                (model.Separates → w'.heap.HoldsKeys model keys → p.Again False p')) ∧
            (s.registry.strategy.isNative = true → model.Separates →
              w'.heap.HoldsKeys model keys → (s.walker model w).NoneTemporary root depth w.taken →
              (s.walker model again).CreatesKeyless pairs call.statement ∧ p.Renumbered ids p')) ∧
    ∀ w w' : World σ δ, s.Loads model w w' → again.heap = w'.heap →
      ∃ result graph, s.Loaded model w w' result graph ∧
        (s.registry.strategy.isNative = false →
          ∀ root depth, ∀ call ∈ s.sent model root depth again, ∃ p' pairs,
            s.SentBy model root depth again call p' pairs ∧
              (s.walker model again).CreatesKeyless pairs call.statement ∧
              (model.Separates → ∀ pair ∈ pairs, ∀ id, (id, pair.2) ∈ graph.edges →
                ∃ edges x, result.relationships = .ok edges ∧ x ∈ edges ∧ x.id = id ∧
                  ∀ d pk key, (s.walker model again).descriptor pair.2 = .ok d →
                    StoresKey model s.registry.strategy d x.properties pk key →
                    pair.1.key = some key)) := by
  constructor
  · intro root depth w w' hSave hHeap
    obtain ⟨p, ids, keys, hSaved⟩ := saved_of_save hSave
    refine ⟨p, ids, keys, hSaved, fun call hCall => ?_⟩
    obtain ⟨after, hMade⟩ := hSaved.planned
    obtain ⟨p', pairs, hSent⟩ := Session.sentBy_of_sent hCall
    obtain ⟨after', hMade'⟩ := hSent.planned
    have hResumes : model.Separates → w'.heap.HoldsKeys model keys →
        (s.walker model w).Resumes again.heap keys False := by
      intro hSeparates hHeld
      rw [hHeap]
      exact Walker.resumes_of_takes hSeparates
        (Walker.lacks_of_chosen (w := s.walker model w) hMade hSaved.chosen) hSaved.handed hHeld
    refine ⟨p', pairs, hSent, fun hNative => ⟨?_, fun hSeparates hHeld => ?_⟩,
      fun hNative hSeparates hHeld hTemporary => ?_⟩
    · refine hSent.createsKeyless fun hYes => ?_
      rw [hNative] at hYes
      cases hYes
    · have hKeys : p.assigned ⊆ keys := by
        have hChosen := hSaved.chosen
        unfold Plan.keysToHand at hChosen
        rw [hNative] at hChosen
        cases hChosen
        exact List.Subset.refl _
      exact (Walker.make_again (w := s.walker model w) (hResumes hSeparates hHeld) hNative hMade hKeys
        again.taken).1 p' after' hMade'
    · have hRenumbered : p.Renumbered ids p' :=
        Walker.make_numbered (w := s.walker model w) hMade hMade' hNative hTemporary hSaved.chosen
          (hResumes hSeparates hHeld)
      exact ⟨hSent.createsKeyless fun _ n hn => (hRenumbered.nodes n hn).1, hRenumbered⟩
  · intro w w' hLoads hHeap
    obtain ⟨result, graph, hLoaded⟩ := Session.loaded_of_loads hLoads
    refine ⟨result, graph, hLoaded, fun hNative root depth call hCall => ?_⟩
    obtain ⟨p', pairs, hSent⟩ := Session.sentBy_of_sent hCall
    refine ⟨p', pairs, hSent, hSent.createsKeyless fun hYes => ?_, fun hSeparates pair hPair id hId => ?_⟩
    · rw [hNative] at hYes
      cases hYes
    · exact hLoaded.key hSeparates hNative hHeap hId (hSent.objects.own pair hPair).2

/-- A save with a result has returned. -/
theorem eq_of_succeeds {ω : Type} {x : Reply Unit × ω}
    (h : (match x.1 with
      | .ok _ => true
      | _ => false) = true) : x = (.ok (), x.2) := by
  obtain ⟨_ | _ | _, w⟩ := x
  · rfl
  · cases h
  · cases h

theorem eq_string {v : Value} {key : String} (hKind : v.kind = .string) (hKey : v.key? = some key) :
    v = .string key := by
  cases v with
  | string text =>
      have hText : (if text = "" then none else some text) = some key := hKey
      split at hText
      · cases hText
      · cases hText
        rfl
  | _ => cases hKind

/-! A troupe of one person with a role in one movie, all of them with a key. -/

namespace Troupe

def person : DeclaredType :=
  ⟨"Person", "Person", none,
    [⟨⟨"uuid", .scalar, "pk"⟩, .value (.option .string)⟩,
      ⟨⟨"roles", .many "Role", "relationship=ACTED_IN;direction=outgoing"⟩, .many "Role"⟩], false⟩

def movie : DeclaredType :=
  ⟨"Movie", "Movie", none, [⟨⟨"uuid", .scalar, "pk"⟩, .value (.option .string)⟩], false⟩

def role : DeclaredType :=
  ⟨"Role", "ACTED_IN", some ("Person", "Movie"),
    [⟨⟨"uuid", .scalar, "pk"⟩, .value (.option .string)⟩], false⟩

def model : EntityModel DeclaredObject :=
  declaredModel [person, movie, role]

def roleDescriptor : TypeDescriptor :=
  ⟨"Role", "ACTED_IN", [⟨"uuid", "uuid", .key false, false, false⟩], some ("Person", "Movie")⟩

def registry : Registry where
  strategy := Cinema.strategy
  types := [
    ⟨"Person", "Person", [⟨"uuid", "uuid", .key false, false, false⟩,
      ⟨"roles", "roles", .relationship ⟨"ACTED_IN", .outgoing, "Role", true⟩, false, false⟩], none⟩,
    ⟨"Movie", "Movie", [⟨"uuid", "uuid", .key false, false, false⟩], none⟩, roleDescriptor]
  relationships := [
    (⟨"Person", "ACTED_IN", "Movie"⟩, ⟨some ⟨"Person", "roles", true, .outgoing⟩, none, some "Role"⟩)]

example : Registry.ofDecls Cinema.strategy [person.decl, movie.decl, role.decl] = .ok registry := by rfl

def session : Session Script :=
  ⟨registry, Script.server, .standard⟩

/-- No object has a key yet. -/
def objects : Ref → Instance DeclaredObject
  | 0 => ⟨"Person", ⟨person, [("uuid", .null)], [("roles", [2])], ⟨none, none⟩, false⟩⟩
  | 1 => ⟨"Movie", ⟨movie, [("uuid", .null)], [], ⟨none, none⟩, false⟩⟩
  | _ => ⟨"Role", ⟨role, [("uuid", .null)], [], ⟨some 0, some 1⟩, false⟩⟩

def world : World DeclaredObject Script :=
  ⟨⟨3, objects⟩, 0, Script.new⟩

def saved : World DeclaredObject Script :=
  (session.save model 0 1 world).2

/-- The role as the database gives it. -/
def stored : StoredEdge :=
  ⟨9, 1, 2, "ACTED_IN", [("uuid", .string "r")]⟩

def answer : LoadResult :=
  .ofParts [stored] [⟨2, ["Movie"], [("uuid", .string "m")]⟩]
    [⟨1, ["Person"], [("uuid", .string "p")]⟩]

/-- Nothing is loaded yet. -/
def unloaded : World DeclaredObject Script :=
  ⟨.empty model, 0, { Script.new with results := [answer] }⟩

def loaded : World DeclaredObject Script :=
  (session.load model "Person" (.string "p") 1 unloaded).2

theorem save_ok : session.save model 0 1 world = (.ok (), saved) :=
  eq_of_succeeds (by decide +kernel)

theorem load_ok : session.load model "Person" (.string "p") 1 unloaded = (.ok 0, loaded) := by rfl

/-- The keys that the save hands out. -/
def keys : List AssignedKey :=
  [⟨0, "uuid", .string "k0"⟩, ⟨1, "uuid", .string "k1"⟩, ⟨2, "uuid", .string "k2"⟩]

theorem keys_of_saved {p : Plan} {ids : GraphIds} {handed : List AssignedKey}
    (h : session.Saved model 0 1 world saved p ids handed) : handed = keys :=
  h.keys_eq (by rfl)

theorem keys_held : saved.heap.HoldsKeys model keys := by
  have hTexts : ∀ a ∈ keys, a.value.kind = .string ∧ a.value.key?.isSome = true ∧
      (saved.heap.value model a.ref a.field).kind = .string ∧
      (saved.heap.value model a.ref a.field).key? = a.value.key? := by
    decide +kernel
  intro a ha
  obtain ⟨hKind, hUsable, hKind', hSame⟩ := hTexts a ha
  obtain ⟨key, hKey⟩ := Option.isSome_iff_exists.1 hUsable
  refine ⟨hUsable, ?_⟩
  rw [eq_string hKind hKey, eq_string hKind' (hSame.trans hKey)]

/-- The key field of a role takes the stored key as it is. -/
theorem role_stored : StoresKey model Cinema.strategy roleDescriptor stored.properties
    ⟨"uuid", "uuid", .key false, false, false⟩ (.string "r") where
  declared := ⟨role.decl, by rfl, by decide⟩
  field := rfl
  plain := rfl
  sorted := List.pairwise_singleton _ _
  present := List.mem_singleton.2 rfl
  usable := rfl
  taken := by
    intro state state' hWritten hWrite
    have hType : state.type = role := type_of_written hWritten
    obtain ⟨type, values, links, ends, hidden⟩ := state
    obtain rfl : type = role := hType
    cases hWrite
    exact Dict.find?_insert_self values "uuid" (Value.string "r")

/-- The objects that are built from the answer of the database. -/
def graph : ObjectGraph :=
  ⟨[(1, 0), (2, 1)], [(9, 2)], [1]⟩

theorem of_loaded {result : LoadResult} {built : ObjectGraph}
    (h : session.Loaded model unloaded loaded result built) : result = answer ∧ built = graph := by
  obtain ⟨query, hFetched⟩ := h.fetched
  have hResult : (Reply.ok answer : Reply LoadResult) = .ok result := congrArg Prod.fst hFetched
  cases hResult
  have hBuilt : (ObjectGraph.ofResult model registry answer unloaded.heap).map (·.1) = .ok graph := by
    rfl
  rw [show ObjectGraph.ofResult model registry answer unloaded.heap = _ from h.built] at hBuilt
  exact ⟨rfl, Except.ok.inj hBuilt⟩

end Troupe

/-! The same troupe where the database assigns keys, with key fields of some type. -/

namespace Ensemble

def person (key : FieldType) : DeclaredType :=
  ⟨"Person", "Person", none,
    [⟨⟨"id", .scalar, "pk"⟩, .value key⟩,
      ⟨⟨"roles", .many "Role", "relationship=ACTED_IN;direction=outgoing"⟩, .many "Role"⟩], false⟩

def movie (key : FieldType) : DeclaredType :=
  ⟨"Movie", "Movie", none,
    [⟨⟨"id", .scalar, "pk"⟩, .value key⟩,
      ⟨⟨"awards", .many "Award", "relationship=WON;direction=outgoing"⟩, .many "Award"⟩], false⟩

def award (key : FieldType) : DeclaredType :=
  ⟨"Award", "Award", none, [⟨⟨"id", .scalar, "pk"⟩, .value key⟩], false⟩

def role (key : FieldType) : DeclaredType :=
  ⟨"Role", "ACTED_IN", some ("Person", "Movie"), [⟨⟨"id", .scalar, "pk"⟩, .value key⟩], false⟩

def model (key : FieldType) : EntityModel DeclaredObject :=
  declaredModel [person key, movie key, award key, role key]

def registry : Registry where
  strategy := .native
  types := [
    ⟨"Person", "Person", [⟨"id", "id", .key false, false, false⟩,
      ⟨"roles", "roles", .relationship ⟨"ACTED_IN", .outgoing, "Role", true⟩, false, false⟩], none⟩,
    ⟨"Movie", "Movie", [⟨"id", "id", .key false, false, false⟩,
      ⟨"awards", "awards", .relationship ⟨"WON", .outgoing, "Award", true⟩, false, false⟩], none⟩,
    ⟨"Award", "Award", [⟨"id", "id", .key false, false, false⟩], none⟩,
    ⟨"Role", "ACTED_IN", [⟨"id", "id", .key false, false, false⟩], some ("Person", "Movie")⟩]
  relationships := [
    (⟨"Person", "ACTED_IN", "Movie"⟩, ⟨some ⟨"Person", "roles", true, .outgoing⟩, none, some "Role"⟩),
    (⟨"Movie", "WON", "Award"⟩, ⟨some ⟨"Movie", "awards", true, .outgoing⟩, none, none⟩)]

example : Registry.ofDecls .native
    [(person .any).decl, (movie .any).decl, (award .any).decl, (role .any).decl] = .ok registry := by rfl

def session : Session Script :=
  ⟨registry, Script.server, .standard⟩

/-- A person with a role in a movie that has won two awards; only the movie may have a key. -/
def objects (key : FieldType) (held : Value) : Ref → Instance DeclaredObject
  | 0 => ⟨"Person", ⟨person key, [("id", key.write key.initial)], [("roles", [2])], ⟨none, none⟩, false⟩⟩
  | 1 => ⟨"Movie", ⟨movie key, [("id", held)], [("awards", [3, 4])], ⟨none, none⟩, false⟩⟩
  | 2 => ⟨"Role", ⟨role key, [("id", key.write key.initial)], [], ⟨some 0, some 1⟩, false⟩⟩
  | _ => ⟨"Award", ⟨award key, [("id", key.write key.initial)], [], ⟨none, none⟩, false⟩⟩

def world (key : FieldType) (held : Value) : World DeclaredObject Script :=
  ⟨⟨5, objects key held⟩, 0, Script.new⟩

def saved (key : FieldType) (held : Value) (root : Ref) (depth : Nat) : World DeclaredObject Script :=
  (session.save (model key) root depth (world key held)).2

/-- The keys are whole numbers, as those of the database are. -/
def counted : EntityModel DeclaredObject :=
  model (.option .int)

/-- No object has a key yet. -/
def unsaved : World DeclaredObject Script :=
  world (.option .int) .null

def numbered : World DeclaredObject Script :=
  saved (.option .int) .null 0 1

theorem save_ok : session.save counted 0 1 unsaved = (.ok (), numbered) :=
  eq_of_succeeds (by decide +kernel)

/-- The numbers of the database, handed out as keys. -/
def keys : List AssignedKey :=
  [⟨1, "id", .int 1⟩, ⟨0, "id", .int 2⟩]

theorem keys_of_saved {p : Plan} {ids : GraphIds} {handed : List AssignedKey}
    (h : session.Saved counted 0 1 unsaved numbered p ids handed) : handed = keys :=
  h.keys_eq (by rfl)

theorem keys_held : numbered.heap.HoldsKeys counted keys := by
  intro a ha
  obtain rfl | rfl : a = ⟨1, "id", .int 1⟩ ∨ a = ⟨0, "id", .int 2⟩ := by
    simpa [keys] using ha
  all_goals exact ⟨by decide +kernel, by rfl⟩

theorem noneTemporary : (session.walker counted unsaved).NoneTemporary 0 1 0 := by
  intro r d pk n _ hType hKey hTemporary
  match r with
  | 0 | 1 | 2 | _ + 3 =>
    cases hType
    cases hKey
    cases hTemporary

end Ensemble

theorem troupe_sends_again :
    (∃ p ids, Troupe.session.Saved Troupe.model 0 1 Troupe.world Troupe.saved p ids Troupe.keys ∧
      (Troupe.session.sent Troupe.model 0 1 Troupe.saved).length = 3 ∧
      ∀ call ∈ Troupe.session.sent Troupe.model 0 1 Troupe.saved, ∃ p' pairs,
        Troupe.session.SentBy Troupe.model 0 1 Troupe.saved call p' pairs ∧
          (Troupe.session.walker Troupe.model Troupe.saved).CreatesKeyless pairs call.statement ∧
          p.Again False p') ∧
    (∃ p ids, Ensemble.session.Saved Ensemble.counted 0 1 Ensemble.unsaved Ensemble.numbered p ids
        Ensemble.keys ∧
      (Ensemble.session.sent Ensemble.counted 0 1 Ensemble.numbered).length = 3 ∧
      ∀ call ∈ Ensemble.session.sent Ensemble.counted 0 1 Ensemble.numbered, ∃ p' pairs,
        Ensemble.session.SentBy Ensemble.counted 0 1 Ensemble.numbered call p' pairs ∧
          (Ensemble.session.walker Ensemble.counted Ensemble.numbered).CreatesKeyless pairs
            call.statement ∧
          p.Renumbered ids p') ∧
    Troupe.session.Loaded Troupe.model Troupe.unloaded Troupe.loaded Troupe.answer Troupe.graph ∧
      (Troupe.session.sent Troupe.model 0 1 Troupe.loaded).length = 3 ∧
      ∀ call ∈ Troupe.session.sent Troupe.model 0 1 Troupe.loaded, ∃ p' pairs,
        Troupe.session.SentBy Troupe.model 0 1 Troupe.loaded call p' pairs ∧
          (Troupe.session.walker Troupe.model Troupe.loaded).CreatesKeyless pairs call.statement ∧
          ∀ pair ∈ pairs, pair.2 = 2 → pair.1.key = some (.string "r") := by
  have hSeparates : Troupe.model.Separates := declaredModel_separates _
  refine ⟨?_, ?_, ?_⟩
  · obtain ⟨p, ids, keys, hSaved, hSent⟩ :=
      (save_again_creates_keyless Troupe.session Troupe.model Troupe.saved).1 0 1
        Troupe.world Troupe.saved Troupe.save_ok rfl
    cases Troupe.keys_of_saved hSaved
    refine ⟨p, ids, hSaved, by decide +kernel, fun call hCall => ?_⟩
    obtain ⟨p', pairs, hBy, hGenerated, -⟩ := hSent call hCall
    obtain ⟨hCreates, hAgain⟩ := hGenerated rfl
    exact ⟨p', pairs, hBy, hCreates, hAgain hSeparates Troupe.keys_held⟩
  · obtain ⟨p, ids, keys, hSaved, hSent⟩ :=
      (save_again_creates_keyless Ensemble.session Ensemble.counted Ensemble.numbered).1 0 1
        Ensemble.unsaved Ensemble.numbered Ensemble.save_ok rfl
    cases Ensemble.keys_of_saved hSaved
    refine ⟨p, ids, hSaved, by decide +kernel, fun call hCall => ?_⟩
    obtain ⟨p', pairs, hBy, -, hNumbered⟩ := hSent call hCall
    exact ⟨p', pairs, hBy, hNumbered rfl (declaredModel_separates _) Ensemble.keys_held
      Ensemble.noneTemporary⟩
  · obtain ⟨result, graph, hLoaded, hSent⟩ :=
      (save_again_creates_keyless Troupe.session Troupe.model Troupe.loaded).2
        Troupe.unloaded Troupe.loaded (.one Troupe.load_ok) rfl
    obtain ⟨rfl, rfl⟩ := Troupe.of_loaded hLoaded
    refine ⟨hLoaded, by decide +kernel, fun call hCall => ?_⟩
    obtain ⟨p', pairs, hBy, hCreates, hKeys⟩ := hSent rfl 0 1 call hCall
    refine ⟨p', pairs, hBy, hCreates, fun pair hPair hRole => ?_⟩
    obtain ⟨edges, x, hEdges, hx, -, hKey⟩ :=
      hKeys hSeparates pair hPair 9 (by rw [hRole]; exact List.mem_singleton.2 rfl)
    cases hEdges
    cases List.mem_singleton.1 hx
    exact hKey _ _ _ (by rw [hRole]; rfl) Troupe.role_stored

/-- A save after a save of the same objects may create something: a relationship-object, which has no key
where the database assigns keys; a node whose field does not give back the number that it got; or a node
that the first save did not come to, because a key on the way looked like a temporary identity. -/
theorem ensemble_creates_again :
    (Ensemble.session.save (Ensemble.model (.option .int)) 0 1 (Ensemble.world (.option .int) .null) =
        (.ok (), Ensemble.saved (.option .int) .null 0 1) ∧
      ∃ call ∈ Ensemble.session.sent (Ensemble.model (.option .int)) 0 1
        (Ensemble.saved (.option .int) .null 0 1), call.statement.Creates) ∧
    (Ensemble.session.save (Ensemble.model .float) 3 0 (Ensemble.world .float .null) =
        (.ok (), Ensemble.saved .float .null 3 0) ∧
      ∃ call ∈ Ensemble.session.sent (Ensemble.model .float) 3 0
        (Ensemble.saved .float .null 3 0), call.statement.Creates) ∧
    Ensemble.session.save (Ensemble.model .any) 0 2 (Ensemble.world .any (.string "new:1")) =
        (.ok (), Ensemble.saved .any (.string "new:1") 0 2) ∧
      ∃ call ∈ Ensemble.session.sent (Ensemble.model .any) 0 2
        (Ensemble.saved .any (.string "new:1") 0 2), call.statement.Creates := by
  refine ⟨⟨Ensemble.save_ok, ?_⟩, ⟨eq_of_succeeds ?_, ?_⟩, eq_of_succeeds ?_, ?_⟩ <;> decide +kernel

end GraphMapping

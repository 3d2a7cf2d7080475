import GraphMapping.Proofs.Persist.Verbs
import GraphMapping.Proofs.Session.Identities
import GraphMapping.Proofs.Session.Stable

/-!
# What generated keys are worth

A strategy of one's own is accepted after a look at the kind of one value, and every value that is taken
later is looked at in the same way.  The kind alone does not make a key: a text may be empty, and values of
most kinds identify nothing.  A walk refuses such a value as the identity of a node, but does not look at
what it takes as the key of a relationship-object.
-/

namespace GraphMapping

/-- A key is usable if its kind is that of numbers, or that of texts and the text is not empty. -/
theorem Value.usable_iff {v : Value} {kind : ValueKind} (hKind : v.kind = kind) :
    v.key?.isSome = true ↔ kind = .int ∨ (kind = .string ∧ v ≠ .string "") := by
  subst hKind
  rw [Value.key?_isSome_iff]
  cases v <;> simp [Value.kind]

namespace KeyStrategy

variable {name field : String} {kind : ValueKind} {sequence : Nat → Value} {sampled n : Nat}
  {strategy : KeyStrategy} {v : Value}

/-- What is accepted takes its keys from the sequence. -/
theorem custom_eq_ok (h : (custom name field kind sequence sampled).1 = .ok strategy) :
    strategy = ⟨name, field, kind, .generated sequence⟩ := by
  unfold custom at h
  split at h
  · cases h
  · split at h
    · cases h
    · dsimp only at h
      split at h
      · cases h
        rfl
      · cases h

/-- A value from the generator is the next one of the sequence. -/
theorem generate_eq_value
    (h : (generate ⟨name, field, kind, .generated sequence⟩ n).1 = .ok (some v)) :
    v = sequence n ∧ v.kind = kind := by
  refine ⟨?_, kind_of_generate h⟩
  unfold generate at h
  dsimp only at h
  split at h
  · cases h
    rfl
  · cases h

end KeyStrategy

namespace Walker

open Walk WalkState

variable {σ : Type} (w : Walker σ)

/-- An object has a key for good: a walk that meets it takes it as stored before, and as a
relationship-object it keeps the key, with nothing taken from the generator. -/
structure KeyedForGood (r : Ref) (d : TypeDescriptor) (v : Value) : Prop where
  existing : ∀ st, st.identities.lookup r = none → w.Existing st r d
  kept : ∀ st, Gives (w.objectKey r d) st (some v) st

/-- Key fields give the generated keys back that they take, also after other keys were handed out. -/
def ReadsBack : Prop :=
  ∀ keys heap heap' r d pk n v, w.heap.Takes w.model keys heap → w.descriptor r = .ok d →
    d.key? = some pk → (w.registry.strategy.generate n).1 = .ok (some v) →
    heap.assign w.model r pk.field v = .ok heap' → heap'.value w.model r pk.field = v

variable {w} {root r : Ref} {depth taken after : Nat} {p : Plan} {d : TypeDescriptor}
  {pk : FieldDescriptor} {v : Value} {s : WalkState} {later : Heap σ}

theorem gives_objectKey_held (hPk : d.key? = some pk) (hNative : w.registry.strategy.isNative = false)
    (hKey : (w.heap.value w.model r pk.field).key?.isSome = true) :
    Gives (w.objectKey r d) s (some (w.heap.value w.model r pk.field)) s := by
  unfold objectKey
  simp only [hPk, hNative, hKey, Bool.false_eq_true, if_false, if_true, gives_pure, and_self]

/-- An object that holds a value has a key for good exactly if the value is usable. -/
theorem keyedForGood_iff (hPk : d.key? = some pk) (hNative : w.registry.strategy.isNative = false)
    (hHeld : w.heap.value w.model r pk.field = v) : w.KeyedForGood r d v ↔ v.key?.isSome = true := by
  subst hHeld
  constructor
  · intro h
    exact (existing_iff hPk rfl).1 (h.existing (.start 0) rfl)
  · intro hUsable
    exact ⟨fun st hNew => (existing_iff hPk hNew).2 hUsable,
      fun st => gives_objectKey_held hPk hNative hUsable⟩

/-- An object to which keys were handed holds one of them: the last. -/
theorem held_of_takes (hBack : w.ReadsBack) {before keys : List AssignedKey} {heap : Heap σ}
    (hBefore : w.heap.Takes w.model before heap) (hTakes : heap.Takes w.model keys later)
    (hLacks : ∀ a ∈ keys, w.Lacks a)
    (hMade : ∀ a ∈ keys, ∃ n, (w.registry.strategy.generate n).1 = .ok (some a.value)) :
    (∀ r, r ∉ keys.map (·.ref) → later.stateOf r = heap.stateOf r) ∧
      ∀ a ∈ keys, ∃ b ∈ keys, b.ref = a.ref ∧ later.value w.model b.ref b.field = b.value := by
  induction hTakes generalizing before with
  | nil heap => exact ⟨fun _ _ => rfl, fun _ ha => absurd ha List.not_mem_nil⟩
  | @cons a rest heap heap' later hTake hRest ih =>
      have hNext : w.heap.Takes w.model (before ++ [a]) heap' :=
        Heap.Takes.append_iff.2 ⟨heap, hBefore, .cons hTake (.nil heap')⟩
      obtain ⟨hAlone, hHeld⟩ := ih hNext (fun b hb => hLacks b (List.mem_cons_of_mem _ hb))
        fun b hb => hMade b (List.mem_cons_of_mem _ hb)
      constructor
      · intro r hr
        obtain ⟨hHere, hThere⟩ := not_or.1 fun h => hr (List.mem_cons.2 h)
        obtain ⟨state, -, rfl⟩ := map_eq_ok.1 hTake
        rw [hAlone r hThere, Heap.stateOf_put_of_ne heap state hHere]
      · -- The key that is handed out first is held unless a later one is for the same object.
        have hFirst : ∃ b ∈ a :: rest, b.ref = a.ref ∧
            later.value w.model b.ref b.field = b.value := by
          by_cases hMore : a.ref ∈ rest.map (·.ref)
          · obtain ⟨c, hc, hRef⟩ := List.mem_map.1 hMore
            obtain ⟨b, hb, hSame, hValue⟩ := hHeld c hc
            exact ⟨b, List.mem_cons_of_mem _ hb, hSame.trans hRef, hValue⟩
          · obtain ⟨d, pk, hType, hPk, hField, -⟩ := hLacks a List.mem_cons_self
            obtain ⟨n, hValue⟩ := hMade a List.mem_cons_self
            refine ⟨a, List.mem_cons_self, rfl, ?_⟩
            rw [hField] at hTake ⊢
            have hBefore := hBack before heap heap' a.ref d pk n a.value hBefore hType hPk hValue hTake
            unfold Heap.value at hBefore ⊢
            rw [hAlone a.ref hMore]
            exact hBefore
        intro b hb
        rcases List.mem_cons.1 hb with rfl | hb
        · exact hFirst
        · obtain ⟨c, hc, hSame, hValue⟩ := hHeld b hb
          exact ⟨c, List.mem_cons_of_mem _ hc, hSame, hValue⟩

/-- A key that was generated for a node is usable, and the identity of a planned node; every other one is
that of a planned relationship. -/
theorem nodeKey_or_keysEdge
    (hMade : Plan.make w.model w.registry w.heap root depth taken = (.ok p, after)) {a : AssignedKey}
    (ha : a ∈ p.assigned) :
    (a.value.key?.isSome = true ∧ ∃ n ∈ p.allNodes, a.value.key? = some n.identity) ∨
      w.KeysEdge root depth taken p a := by
  obtain ⟨s, hPlan, -, hIdentity, hTakes⟩ := takes_of_make hMade
  have hFinished : w.Finished root depth taken p s := ⟨hPlan, hIdentity, .of_takes hTakes⟩
  obtain ⟨forNodes, forObjects, hPerm, -, -, hNodes, hObjects⟩ := (KeyRecords.of_takes hTakes).parts
  rw [hPlan] at hPerm
  rcases List.mem_append.1 (hPerm.mem_iff.1 ha) with hFor | hFor
  · obtain ⟨d, pk, key, -, -, -, -, hKey, hKnown⟩ := hNodes a hFor
    obtain ⟨n, hn, hPlaced⟩ :=
      placed_of_identified hFinished (IdentityRecords.of_takes hTakes) ⟨_, hKnown⟩
    refine .inl ⟨by rw [hKey]; rfl, n, hn, ?_⟩
    rw [hPlaced, hFinished.given hKnown]
    exact hKey
  · exact .inr (keysEdge_of_objectKey hFinished (hObjects a hFor))

end Walker

section

variable {σ : Type}

open Walker

/-- A relationship is written by the batch of its shape. -/
theorem edgeBatch_of_mem {strategy : KeyStrategy} {ids : GraphIds} {label : String}
    {edges : List PlannedEdge} {batches : List Statement} {e : PlannedEdge}
    (h : edgeBatches strategy ids label edges = .ok batches) (he : e ∈ edges) :
    ∃ rows row, edgeBatch label strategy.field e.shape rows ∈ batches ∧ row ∈ rows ∧
      edgeRow ids label e = .ok row := by
  obtain ⟨pairs, hPairs, h⟩ := bind_eq_ok.1 h
  cases h
  obtain ⟨⟨shape, row⟩, hPair, hRow⟩ := (exists_of_forall₂ (mapM_eq_ok.1 hPairs)).1 e he
  obtain ⟨row', hRow, hSame⟩ := map_eq_ok.1 hRow
  cases hSame
  have hGroup : (e.shape, row) ∈ pairs.filter (·.1 == e.shape) :=
    List.mem_filter.2 ⟨hPair, beq_self_eq_true _⟩
  refine ⟨(pairs.filter (·.1 == e.shape)).map (·.2), row, ?_, List.mem_map.2 ⟨_, hGroup, rfl⟩, hRow⟩
  refine List.mem_filterMap.2 ⟨e.shape, shape_mem_all _, ?_⟩
  split
  · rename_i hNone
    rw [hNone] at hGroup
    cases hGroup
  · rfl

/-- The row of a relationship with a key has the key. -/
theorem edgeRow_pk {ids : GraphIds} {label : String} {e : PlannedEdge} {key row : Value}
    (hKey : e.key = some key) (h : edgeRow ids label e = .ok row) :
    ∃ entries, row = .map entries ∧ Dict.find? entries "pk" = some key := by
  obtain ⟨start, -, h⟩ := bind_eq_ok.1 h
  obtain ⟨finish, -, h⟩ := bind_eq_ok.1 h
  simp only [hKey] at h
  cases h
  exact ⟨_, rfl, find?_ofList [("key", .string (e.start ++ "->" ++ e.finish)), ("start", .int start),
    ("end", .int finish), ("props", .map e.params)] fun _ h => absurd h List.not_mem_nil⟩

/-- Writing a relationship merges it by a key: its batch has the key in the row and does not create. -/
def Plan.MergesBy (p : Plan) (strategy : KeyStrategy) (e : PlannedEdge) (key : Value) : Prop :=
  ∀ label edges, (label, edges) ∈ p.edges → e ∈ edges → ∀ ids batches,
    edgeBatches strategy ids label edges = .ok batches → ∃ rows entries,
      edgeBatch label strategy.field ⟨e.undirected, true, e.object⟩ rows ∈ batches ∧
      ¬ (edgeBatch label strategy.field ⟨e.undirected, true, e.object⟩ rows).Creates ∧
      .map entries ∈ rows ∧ Dict.find? entries "pk" = some key

theorem mergesBy_of_key {p : Plan} {strategy : KeyStrategy} {e : PlannedEdge} {key : Value}
    (hKey : e.key = some key) : p.MergesBy strategy e key := by
  intro label edges _ he ids batches hBatches
  obtain ⟨rows, row, hBatch, hRow, hEdge⟩ := edgeBatch_of_mem hBatches he
  obtain ⟨entries, rfl, hPk⟩ := edgeRow_pk hKey hEdge
  have hShape : e.shape = ⟨e.undirected, true, e.object⟩ := by
    unfold PlannedEdge.shape
    rw [hKey]
    rfl
  rw [hShape] at hBatch
  refine ⟨rows, entries, hBatch, fun hCreates => ?_, hRow, hPk⟩
  cases (creates_edgeBatch hCreates).2

/-- What a plan takes from the generator of an accepted strategy are the values of the sequence, in order.
A value is usable exactly if it is a number, or a text that is not empty.  All of those taken for nodes are
usable, and every other one is the key by which the relationship of a relationship-object is merged; so all
generated keys are usable exactly if those of the relationship-objects are.  Once the keys were handed out,
an object has its key for good exactly if the key that it holds is usable. -/
theorem generated_usable_iff (name field : String) (kind : ValueKind) (sequence : Nat → Value)
    (sampled : Nat) (w : Walker σ)
    (hAccepted : (KeyStrategy.custom name field kind sequence sampled).1 = .ok w.registry.strategy)
    (root : Ref) (depth taken : Nat) (p : Plan) (after : Nat)
    (hMade : Plan.make w.model w.registry w.heap root depth taken = (.ok p, after)) :
    p.assigned.map (·.value) = (List.range' taken p.assigned.length).map sequence ∧
    (∀ a ∈ p.assigned,
      (a.value.key?.isSome = true ↔ kind = .int ∨ (kind = .string ∧ a.value ≠ .string "")) ∧
      ((a.value.key?.isSome = true ∧ ∃ n ∈ p.allNodes, a.value.key? = some n.identity) ∨
        w.KeysEdge root depth taken p a)) ∧
    (∀ e ∈ p.allEdges, ∀ key, e.key = some key → p.MergesBy w.registry.strategy e key) ∧
    ((∀ a ∈ p.assigned, a.value.key?.isSome = true) ↔
      ∀ a ∈ p.assigned, w.KeysEdge root depth taken p a → a.value.key?.isSome = true) ∧
    (w.ReadsBack → ∀ count later, p.assignKeys w.model w.heap = (.ok count, later) →
      ∀ a ∈ p.assigned, ∃ b ∈ p.assigned, b.ref = a.ref ∧
        later.value w.model b.ref b.field = b.value ∧ ∃ d, w.descriptor b.ref = .ok d ∧
          ((w.on later).KeyedForGood b.ref d b.value ↔ b.value.key?.isSome = true)) := by
  have hStrategy := KeyStrategy.custom_eq_ok hAccepted
  have hNative : w.registry.strategy.isNative = false := by
    rw [hStrategy]
    rfl
  obtain ⟨s, hPlan, -, -, hTakes⟩ := takes_of_make hMade
  have hKeys := KeyRecords.of_takes hTakes
  have hParts := fun a (ha : a ∈ p.assigned) => nodeKey_or_keysEdge hMade ha
  have hGenerated : ∀ a ∈ p.assigned, ∃ n, (w.registry.strategy.generate n).1 = .ok (some a.value) :=
    fun a ha => hKeys.generated (hPlan ▸ ha)
  have hKind : ∀ a ∈ p.assigned, a.value.kind = kind := by
    intro a ha
    obtain ⟨n, hValue⟩ := hGenerated a ha
    rw [hStrategy] at hValue
    exact (KeyStrategy.generate_eq_value hValue).2
  refine ⟨?_, fun a ha => ⟨Value.usable_iff (hKind a ha), hParts a ha⟩,
    fun e _ key hKey => mergesBy_of_key hKey, ?_, ?_⟩
  · have hValues := hKeys.values
    rw [hPlan, hStrategy, ← List.forall₂_eq_eq_eq, List.forall₂_map_left_iff,
      List.forall₂_map_right_iff] at hValues
    rw [← List.forall₂_eq_eq_eq, List.forall₂_map_left_iff, List.forall₂_map_right_iff]
    exact hValues.imp fun a n hValue => (KeyStrategy.generate_eq_value hValue.symm).1
  · refine ⟨fun h a ha _ => h a ha, fun h a ha => ?_⟩
    rcases hParts a ha with ⟨hUsable, -⟩ | hEdge
    · exact hUsable
    · exact h a ha hEdge
  · intro hBack count later hHanded a ha
    have hLacks := lacks_of_assigned hMade
    obtain ⟨b, hb, hRef, hHeld⟩ := (held_of_takes hBack (.nil w.heap)
      (assignKeys_eq_ok.1 hHanded).2 hLacks hGenerated).2 a ha
    obtain ⟨d, pk, hType, hPk, hField, -⟩ := hLacks b hb
    refine ⟨b, hb, hRef, hHeld, d, hType, keyedForGood_iff hPk hNative ?_⟩
    rw [hField] at hHeld
    exact hHeld

end

/-- Objects of declared types comply, if their key fields give every usable key back as it is and the
generator gives no other. -/
theorem Walker.readsBack_of_declared {types : List DeclaredType} {registry : Registry}
    {heap : Heap DeclaredObject} (hUsable : Usable ⟨declaredModel types, registry, heap⟩)
    (h : ∀ r d pk, registry.descriptor (heap.typeOf r) = .ok d → d.key? = some pk →
      ∃ type, (heap.stateOf r).type.valueType? pk.field = some type ∧ type.GivesBack) :
    ReadsBack ⟨declaredModel types, registry, heap⟩ := by
  intro keys later later' r d pk n v hTakes hType hPk hMade hTake
  -- Handing out keys changes no object's type.
  have hSame : ∀ {keys heap heap'}, Heap.Takes (declaredModel types) keys heap heap' →
      ∀ r, (heap'.stateOf r).type = (heap.stateOf r).type := by
    intro keys heap heap' hTakes
    induction hTakes with
    | nil heap => exact fun _ => rfl
    | @cons a rest heap heap' heap'' hTake hRest ih =>
        intro r
        obtain ⟨state, hWrite, rfl⟩ := map_eq_ok.1 hTake
        rw [ih r]
        by_cases hHere : r = a.ref
        · subst hHere
          rw [Heap.stateOf_put_self]
          change DeclaredObject.write _ _ _ = _ at hWrite
          unfold DeclaredObject.write at hWrite
          split at hWrite
          · obtain ⟨v, -, rfl⟩ := map_eq_ok.1 hWrite
            rfl
          · cases hWrite
        · rw [Heap.stateOf_put_of_ne heap state hHere]
  obtain ⟨type, hValue, hGives⟩ := h r d pk hType hPk
  obtain ⟨state, hWrite, rfl⟩ := map_eq_ok.1 hTake
  have hLater : (later.stateOf r).type.valueType? pk.field = some type := by
    rw [hSame hTakes r]
    exact hValue
  change DeclaredObject.write (later.stateOf r) pk.field v = .ok state at hWrite
  unfold DeclaredObject.write at hWrite
  rw [hLater] at hWrite
  obtain ⟨v', hConvert, rfl⟩ := map_eq_ok.1 hWrite
  unfold Heap.value
  rw [Heap.stateOf_put_self]
  change ((((later.stateOf r).type.valueType? pk.field).bind fun _ =>
    ((later.stateOf r).values.insert pk.field v').find? pk.field).getD .null) = v
  rw [hLater, Option.bind_some, Dict.find?_insert_self, hGives v v' (hUsable n v hMade) hConvert]
  rfl

theorem troupe_keys_usable :
    (KeyStrategy.custom "seq" "uuid" .string (fun n => .string ("k" ++ toString n)) 0).1 =
      .ok Troupe.registry.strategy ∧
    Plan.make Troupe.model Troupe.registry Troupe.world.heap 0 1 0 = (.ok Troupe.plan, 3) ∧
    (∀ a ∈ Troupe.plan.assigned, a.value.key?.isSome = true) ∧
    (Troupe.session.walker Troupe.model Troupe.world).ReadsBack ∧
    Troupe.plan.assignKeys Troupe.model Troupe.world.heap = (.ok 3, Troupe.handed) ∧
    ∀ a ∈ Troupe.plan.assigned, ∃ b ∈ Troupe.plan.assigned, b.ref = a.ref ∧
      Troupe.handed.value Troupe.model b.ref b.field = b.value ∧
      ∃ d, ((Troupe.session.walker Troupe.model Troupe.world).on Troupe.handed).KeyedForGood b.ref d b.value := by
  have hAccepted : (KeyStrategy.custom "seq" "uuid" .string (fun n => .string ("k" ++ toString n)) 0).1 =
      .ok Troupe.registry.strategy := by rfl
  have hMade : Plan.make Troupe.model Troupe.registry Troupe.world.heap 0 1 0 =
      (.ok Troupe.plan, 3) := by rfl
  have hHanded : Troupe.plan.assignKeys Troupe.model Troupe.world.heap = (.ok 3, Troupe.handed) := by
    rfl
  have hBack : (Troupe.session.walker Troupe.model Troupe.world).ReadsBack := by
    refine Walker.readsBack_of_declared (fun n v hv => ?_)
      fun r d pk hType hPk => ⟨.option .string, ?_, .option .string⟩
    · cases hv
      rw [Value.key?_isSome_iff]
      exact .inl ⟨_, rfl, by simp⟩
    · match r with
      | 0 | 1 | _ + 2 =>
        cases hType
        cases hPk
        rfl
  obtain ⟨-, hEach, -, -, hKeyed⟩ := generated_usable_iff "seq" "uuid" .string
    (fun n => .string ("k" ++ toString n)) 0 (Troupe.session.walker Troupe.model Troupe.world) hAccepted
    0 1 0 Troupe.plan 3 hMade
  have hUsable : ∀ a ∈ Troupe.plan.assigned, a.value.key?.isSome = true := by
    intro a ha
    refine (hEach a ha).1.2 (.inr ⟨rfl, fun hEmpty => ?_⟩)
    have hTexts : ∀ a ∈ Troupe.plan.assigned, a.value.key? ≠ none := by decide +kernel
    exact hTexts a ha (by rw [hEmpty]; rfl)
  refine ⟨hAccepted, hMade, hUsable, hBack, hHanded, fun a ha => ?_⟩
  obtain ⟨b, hb, hRef, hHeld, d, -, hIff⟩ := hKeyed hBack 3 Troupe.handed hHanded a ha
  exact ⟨b, hb, hRef, hHeld, d, hIff.2 (hUsable b hb)⟩

/-! Two roles of one person in one movie, and a generator that gives empty texts. -/

namespace Understudy

/-- Every generated key is the empty text. -/
def strategy : KeyStrategy :=
  ⟨"seq", "uuid", .string, .generated fun _ => .string ""⟩

def registry : Registry :=
  { Troupe.registry with strategy := strategy }

/-- The person and the movie have keys, unlike the roles. -/
def objects : Ref → Instance DeclaredObject
  | 0 => ⟨"Person", ⟨Troupe.person, [("uuid", .string "ann")], [("roles", [2, 3])], ⟨none, none⟩, false⟩⟩
  | 1 => ⟨"Movie", ⟨Troupe.movie, [("uuid", .string "m")], [], ⟨none, none⟩, false⟩⟩
  | _ => ⟨"Role", ⟨Troupe.role, [("uuid", .null)], [], ⟨some 0, some 1⟩, false⟩⟩

def heap : Heap DeclaredObject :=
  ⟨4, objects⟩

/-- The plan to save the person with one hop. -/
def plan : Plan where
  nodes := [
    ("Movie", [⟨"m", "Movie", false, some (.string "m"), [], 1⟩]),
    ("Person", [⟨"ann", "Person", false, some (.string "ann"), [], 0⟩])]
  edges := [("ACTED_IN",
    [⟨"ann", "m", "ACTED_IN", false, true, some (.string ""), [("uuid", .string "")]⟩,
      ⟨"ann", "m", "ACTED_IN", false, true, some (.string ""), [("uuid", .string "")]⟩])]
  assigned := [⟨2, "uuid", .string ""⟩, ⟨3, "uuid", .string ""⟩]

/-- The objects with the keys that were made for them. -/
def handed : Heap DeclaredObject :=
  (plan.assignKeys Troupe.model heap).2

end Understudy

/-- Both roles get an empty key, so that their relationships are merged by one key, and planning again makes
keys for them again; a node is refused such a key. -/
theorem understudies_share_empty_key :
    (KeyStrategy.custom "seq" "uuid" .string (fun _ => .string "") 0).1 = .ok Understudy.strategy ∧
    Registry.ofDecls Understudy.strategy [Troupe.person.decl, Troupe.movie.decl, Troupe.role.decl] =
      .ok Understudy.registry ∧
    Plan.make Troupe.model Understudy.registry Understudy.heap 0 1 0 = (.ok Understudy.plan, 2) ∧
    (∀ a ∈ Understudy.plan.assigned, a.value.key? = none) ∧
    (∃ batches, edgeBatches Understudy.strategy [("ann", 1), ("m", 2)] "ACTED_IN"
        Understudy.plan.allEdges = .ok batches ∧
      batches.map (fun s => s.batch.map fun row => match row with
        | .map entries => (Dict.find? entries "pk").bind Value.string?
        | _ => none) = [[some "", some ""]]) ∧
    Understudy.plan.assignKeys Troupe.model Understudy.heap = (.ok 2, Understudy.handed) ∧
    (∀ a ∈ Understudy.plan.assigned,
      (Understudy.handed.value Troupe.model a.ref a.field).string? = some "") ∧
    Plan.make Troupe.model Understudy.registry Understudy.handed 0 1 2 = (.ok Understudy.plan, 4) ∧
    (Plan.make Troupe.model Understudy.registry Troupe.world.heap 0 0 0).1 =
      .error (.internal "strategy 'seq' generated an unusable key") :=
  ⟨by rfl, by rfl, by rfl, by decide +kernel, ⟨_, by rfl, by rfl⟩, by rfl, by decide +kernel, by rfl,
    by rfl⟩

end GraphMapping

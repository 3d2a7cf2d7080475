import GraphMapping.Proofs.Entity
import GraphMapping.Proofs.Session.Save
import GraphMapping.Proofs.Walk.Again

/-!
# Objects after a save

A successful save hands keys to objects, one field at a time.  Where writing a field leaves everything
else about an object alone, the objects are afterwards as they were, but for the fields that got a key;
and if those hold the keys, the objects are ready for the same walk again.
-/

namespace GraphMapping

open GraphMapping.Action

/-- A successful save: its plan, the numbers that its transaction gave, and the keys that it handed out. -/
structure Session.Saved {σ δ : Type} (s : Session δ) (model : EntityModel σ) (root : Ref) (depth : Nat)
    (w w' : World σ δ) (p : Plan) (ids : GraphIds) (keys : List AssignedKey) : Prop where
  planned : ∃ after, Plan.make model s.registry w.heap root depth w.taken = (.ok p, after)
  committed : s.server.transaction (p.persist s.server s.registry.strategy) w.db = (.ok ids, w'.db)
  chosen : p.keysToHand s.registry ids w.heap = some keys
  handed : w.heap.Takes model keys w'.heap

/-- The keys that a save hands out, if it comes that far. -/
def Session.keysOfSave {σ δ : Type} (s : Session δ) (model : EntityModel σ) (root : Ref) (depth : Nat)
    (w : World σ δ) : Option (List AssignedKey) :=
  match (Plan.make model s.registry w.heap root depth w.taken).1 with
  | .error _ => none
  | .ok p =>
      match (s.server.transaction (p.persist s.server s.registry.strategy) w.db).1 with
      | .ok ids => p.keysToHand s.registry ids w.heap
      | _ => none

theorem Session.Saved.keys_eq {σ δ : Type} {s : Session δ} {model : EntityModel σ} {root : Ref}
    {depth : Nat} {w w' : World σ δ} {p : Plan} {ids : GraphIds} {keys keys' : List AssignedKey}
    (h : s.Saved model root depth w w' p ids keys)
    (hKeys : s.keysOfSave model root depth w = some keys') : keys = keys' := by
  obtain ⟨after, hMade⟩ := h.planned
  unfold keysOfSave at hKeys
  rw [hMade] at hKeys
  dsimp only at hKeys
  rw [h.committed] at hKeys
  exact Option.some.inj (h.chosen.symm.trans hKeys)

/-- The objects of a heap hold the keys that were handed to them, all of them usable. -/
def Heap.HoldsKeys {σ : Type} (heap : Heap σ) (model : EntityModel σ) (keys : List AssignedKey) : Prop :=
  ∀ a ∈ keys, a.value.key?.isSome = true ∧ heap.value model a.ref a.field = a.value

section

variable {σ δ : Type} {model : EntityModel σ} {registry : Registry} {ids : GraphIds}
  {heap heap' heap'' : Heap σ} {p : Plan} {keys : List AssignedKey}

/-- Objects that take keys change in the fields of the keys only. -/
theorem Heap.Takes.alters (hSeparates : model.Separates) (h : heap.Takes model keys heap') :
    Heap.Alters model (fun r field => ∃ a ∈ keys, a.ref = r ∧ a.field = field) heap heap' := by
  induction h with
  | nil heap => exact .refl _ heap
  | @cons a rest heap heap' heap'' hTake hRest ih =>
      have hFirst : Heap.Alters model (fun r field => ∃ b ∈ a :: rest, b.ref = r ∧ b.field = field)
          heap heap' := by
        refine (alters_of_assign hSeparates hTake).mono fun r field hHere => ?_
        exact ⟨a, List.mem_cons_self, hHere.1.symm, hHere.2.symm⟩
      refine hFirst.trans (ih.mono fun r field hLater => ?_)
      obtain ⟨b, hb, hSame⟩ := hLater
      exact ⟨b, List.mem_cons_of_mem _ hb, hSame⟩

/-- A numbered node gets its number as key if its type has a key field. -/
theorem numberKeys_cons {n : PlannedNode} {rest : List PlannedNode}
    (h : numberKeys registry ids heap (n :: rest) = some keys) :
    ∃ id d others, ids.find? n.identity = some id ∧ registry.descriptor (heap.typeOf n.ref) = .ok d ∧
      numberKeys registry ids heap rest = some others ∧
      keys = (d.key?.map fun pk => ⟨n.ref, pk.field, .int id⟩).toList ++ others := by
  unfold numberKeys at h
  cases hId : ids.find? n.identity with
  | none => simp [hId] at h
  | some id =>
      cases hType : registry.descriptor (heap.typeOf n.ref) with
      | error e => simp [hId, hType] at h
      | ok d =>
          simp only [hId, hType] at h
          cases hPk : d.key? with
          | none =>
              simp only [hPk] at h
              exact ⟨id, d, keys, rfl, rfl, h, by rw [hPk]; rfl⟩
          | some pk =>
              simp only [hPk] at h
              obtain ⟨others, hOthers, rfl⟩ := Option.map_eq_some_iff.1 h
              exact ⟨id, d, others, rfl, rfl, hOthers, by rw [hPk]; rfl⟩

theorem mem_numberKeys {nodes : List PlannedNode} (h : numberKeys registry ids heap nodes = some keys) :
    (∀ a ∈ keys, ∃ n ∈ nodes, ∃ id d pk, ids.find? n.identity = some id ∧
      registry.descriptor (heap.typeOf n.ref) = .ok d ∧ d.key? = some pk ∧
      a = ⟨n.ref, pk.field, .int id⟩) ∧
    ∀ n ∈ nodes, ∃ id d, ids.find? n.identity = some id ∧
      registry.descriptor (heap.typeOf n.ref) = .ok d ∧
      ∀ pk, d.key? = some pk → ⟨n.ref, pk.field, .int id⟩ ∈ keys := by
  induction nodes generalizing keys with
  | nil =>
      cases h
      exact ⟨fun _ ha => absurd ha List.not_mem_nil, fun _ hn => absurd hn List.not_mem_nil⟩
  | cons n rest ih =>
      obtain ⟨id, d, others, hId, hType, hOthers, rfl⟩ := numberKeys_cons h
      obtain ⟨hBack, hForth⟩ := ih hOthers
      refine ⟨fun a ha => ?_, fun m hm => ?_⟩
      · rcases List.mem_append.1 ha with hOwn | hOther
        · obtain ⟨pk, hPk, rfl⟩ := Option.map_eq_some_iff.1 (Option.mem_toList.1 hOwn)
          exact ⟨n, List.mem_cons_self, id, d, pk, hId, hType, hPk, rfl⟩
        · obtain ⟨m, hm, hRest⟩ := hBack a hOther
          exact ⟨m, List.mem_cons_of_mem _ hm, hRest⟩
      · rcases List.mem_cons.1 hm with rfl | hm
        · refine ⟨id, d, hId, hType, fun pk hPk => List.mem_append_left _ ?_⟩
          rw [hPk]
          exact List.mem_singleton.2 rfl
        · obtain ⟨id', d', hId', hType', hKeys⟩ := hForth m hm
          exact ⟨id', d', hId', hType', fun pk hPk => List.mem_append_right _ (hKeys pk hPk)⟩

/-! ## Successful saves -/

theorem returns_within {ω α : Type} {limit : Duration} {x : Action ω α} {w w' : ω} {a : α}
    (h : Returns (Action.within limit x) w a w') : Returns x w a w' := by
  unfold Returns Action.within at h
  unfold Returns
  rcases hRun : x w with ⟨b | e | _, w''⟩ <;> rw [hRun] at h
  · exact h
  · cases h
  · cases h

theorem returns_onDatabase {α : Type} {x : Action δ α} {w w' : World σ δ} {a : α}
    (h : Returns x.onDatabase w a w') :
    x w.db = (.ok a, w'.db) ∧ w' = { w with db := w'.db } := by
  unfold Returns Action.onDatabase at h
  rcases hRun : x w.db with ⟨reply, db⟩
  rw [hRun] at h
  cases h
  exact ⟨rfl, rfl⟩

theorem returns_onHeap {α : Type} {f : Heap σ → Except Error α × Heap σ} {w w' : World σ δ} {a : α}
    (h : Returns (Action.onHeap f) w a w') :
    f w.heap = (.ok a, w'.heap) ∧ w' = { w with heap := w'.heap } := by
  unfold Returns Action.onHeap at h
  rcases hRun : f w.heap with ⟨_ | b, heap⟩ <;> rw [hRun] at h
  · cases h
  · cases h
    exact ⟨rfl, rfl⟩

/-- What a successful save has done. -/
theorem saved_of_save {s : Session δ} {root : Ref} {depth : Nat} {w w' : World σ δ}
    (h : s.save model root depth w = (.ok (), w')) :
    ∃ p ids keys, s.Saved model root depth w w' p ids keys := by
  have hWork : Returns (s.saveWork model root depth) w () w' := returns_within h
  unfold Session.saveWork at hWork
  obtain ⟨p, w₁, hPlan, hWork⟩ := returns_bind.1 hWork
  obtain ⟨ids, w₂, hTransaction, hWork⟩ := returns_bind.1 hWork
  unfold Plan.handOut at hWork
  obtain ⟨n, w₃, hAssign, hWork⟩ := returns_bind.1 hWork
  obtain ⟨m, w₄, hWrite, hWork⟩ := returns_bind.1 hWork
  obtain ⟨-, rfl⟩ := returns_pure.1 hWork
  unfold Returns Session.plan at hPlan
  rcases hMake : Plan.make model s.registry w.heap root depth w.taken with ⟨_ | q, after⟩ <;>
    rw [hMake] at hPlan
  · cases hPlan
  cases hPlan
  obtain ⟨hRun, hSecond⟩ := returns_onDatabase hTransaction
  obtain ⟨hFirstPass, hThird⟩ := returns_onHeap hAssign
  obtain ⟨hSecondPass, hFourth⟩ := returns_onHeap hWrite
  have hDb : w'.db = w₂.db := by
    rw [hFourth, hThird]
  have hHeap : w₂.heap = w.heap := by
    rw [hSecond]
  rw [hHeap] at hFirstPass
  obtain ⟨keys, hChosen, hHanded⟩ := keysHanded_iff.2 ⟨n, w₃.heap, m, hFirstPass, hSecondPass⟩
  exact ⟨p, ids, keys, ⟨after, hMake⟩, by rw [hDb]; exact hRun, hChosen, hHanded⟩

/-- A successful save takes of the generator what its plan took. -/
theorem taken_of_save {s : Session δ} {root : Ref} {depth after : Nat} {w w' : World σ δ}
    (h : s.save model root depth w = (.ok (), w'))
    (hMade : Plan.make model s.registry w.heap root depth w.taken = (.ok p, after)) :
    w'.taken = after := by
  have hWork : Returns (s.saveWork model root depth) w () w' := returns_within h
  obtain ⟨q, w₁, hPlan, hWork⟩ := returns_bind.1 hWork
  obtain ⟨ids, w₂, hTransaction, hWork⟩ := returns_bind.1 hWork
  obtain ⟨n, w₃, hAssign, hWork⟩ := returns_bind.1 hWork
  obtain ⟨m, w₄, hWrite, hWork⟩ := returns_bind.1 hWork
  obtain ⟨-, rfl⟩ := returns_pure.1 hWork
  unfold Returns at hPlan
  rw [plan_eq hMade] at hPlan
  cases hPlan
  rw [(returns_onHeap hWrite).2, (returns_onHeap hAssign).2, (returns_onDatabase hTransaction).2]

end

/-! ## The same walk over the objects of a save -/

namespace Walker

open Walk WalkState

variable {σ : Type} (w : Walker σ)

/-- A key is for the key field of its object, which holds none. -/
def Lacks (a : AssignedKey) : Prop :=
  ∃ d pk, w.descriptor a.ref = .ok d ∧ d.key? = some pk ∧ a.field = pk.field ∧
    (w.heap.value w.model a.ref pk.field).key? = none

variable {w} {root : Ref} {depth taken after : Nat} {p : Plan} {s : WalkState} {ids : GraphIds}
  {keys : List AssignedKey} {later : Heap σ}

/-- Objects that took the keys they lacked, and hold them, are ready for the same walk. -/
theorem resumes_of_takes (hSeparates : w.model.Separates) (hLacks : ∀ a ∈ keys, w.Lacks a)
    (hTakes : w.heap.Takes w.model keys later) (hHeld : later.HoldsKeys w.model keys) :
    w.Resumes later keys False := by
  have hAlters := hTakes.alters hSeparates
  refine ⟨hAlters.typeOf, hAlters.related, hAlters.ends, fun r d pk hType hPk hKey => ?_, hHeld,
    False.elim⟩
  refine hAlters.value ?_
  rintro ⟨a, ha, rfl, hField⟩
  -- A key that an object got is for a field that held none.
  obtain ⟨d', pk', hType', hPk', -, hNone⟩ := hLacks a ha
  cases ok_unique hType hType'
  cases hPk.symm.trans hPk'
  rw [hNone] at hKey
  cases hKey

theorem lacks_of_assigned (hMade : Plan.make w.model w.registry w.heap root depth taken = (.ok p, after)) :
    ∀ a ∈ p.assigned, w.Lacks a := by
  obtain ⟨s, rfl, -, -, hTakes⟩ := takes_of_make hMade
  obtain ⟨forNodes, forObjects, hPerm, -, -, hNodes, hObjects⟩ := (KeyRecords.of_takes hTakes).parts
  intro a ha
  rcases List.mem_append.1 (hPerm.mem_iff.1 ha) with hFor | hFor
  · obtain ⟨d, pk, key, hType, hPk, hField, hNone, -, -⟩ := hNodes a hFor
    exact ⟨d, pk, hType, hPk, hField, hNone⟩
  · obtain ⟨-, d, pk, start, finish, e, hAs, hPk, hField, hNone, -⟩ := hObjects a hFor
    exact ⟨d, pk, hAs.1, hPk, hField, hNone⟩

/-- Every key that a save hands out is lacked by its object. -/
theorem lacks_of_chosen (hMade : Plan.make w.model w.registry w.heap root depth taken = (.ok p, after))
    (hChosen : p.keysToHand w.registry ids w.heap = some keys) : ∀ a ∈ keys, w.Lacks a := by
  unfold Plan.keysToHand at hChosen
  split at hChosen
  · obtain ⟨numbers, hNumbers, rfl⟩ := Option.map_eq_some_iff.1 hChosen
    intro a ha
    rcases List.mem_append.1 ha with ha | ha
    · exact lacks_of_assigned hMade a ha
    · obtain ⟨n, hn, id, d, pk, -, hType, hPk, rfl⟩ := (mem_numberKeys hNumbers).1 a ha
      obtain ⟨hMem, hNew⟩ := List.mem_filter.1 hn
      obtain ⟨s, rfl, -, -, hTakes⟩ := takes_of_make hMade
      obtain ⟨-, d', i, params, -, hi, -, hPlanned⟩ := (Recorded.of_takes hTakes).nodes.planned n hMem
      have hNewIdentity : i.isNew = true := by
        rw [← hNew, hPlanned]
        rfl
      cases (IdentityRecords.of_takes hTakes).origin n.ref i hi with
      | held _ _ _ => cases hNewIdentity
      | temporary hType' hPk' hNone _ =>
          cases ok_unique hType hType'
          cases hPk.symm.trans hPk'
          exact ⟨d, pk, hType, hPk, rfl, hNone⟩
      | generated hType' hPk' hNone _ _ =>
          cases ok_unique hType hType'
          cases hPk.symm.trans hPk'
          exact ⟨d, pk, hType, hPk, rfl, hNone⟩
  · cases hChosen
    exact lacks_of_assigned hMade

end Walker

end GraphMapping

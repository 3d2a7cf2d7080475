import GraphMapping.Proofs.Mapping.Bindings
import GraphMapping.Proofs.Session.Resave
import GraphMapping.Proofs.Walk.Closed

/-!
# Planning again after the keys were handed out

Handing out the generated keys turns every made key into one that its object holds.  Where each object got
one key at most, the objects are afterwards ready for the same walk with the same snapshots, so that
planning again gives the same plan and generates nothing.  Only a relationship-object that is also an end
of one can get two keys; it keeps the second, and the first is lost.
-/

namespace GraphMapping

/-- A field type gives every usable key back as it takes it. -/
def FieldType.GivesBack (type : FieldType) : Prop :=
  ∀ v v', v.key?.isSome = true → type.convert v = .ok v' → v' = v

namespace FieldType.GivesBack

theorem string : GivesBack .string := by
  intro v v' hUsable hConvert
  cases v with
  | string text =>
      cases hConvert
      rfl
  | int n => cases hConvert
  | _ => cases hUsable

theorem option {item : FieldType} (h : item.GivesBack) : GivesBack (.option item) := by
  intro v v' hUsable hConvert
  cases v with
  | string _ | int _ =>
      obtain ⟨x, hRead, rfl⟩ := map_eq_ok.1 hConvert
      obtain ⟨y, hItem, rfl⟩ := map_eq_ok.1 hRead
      exact h _ _ hUsable (map_eq_ok.2 ⟨y, hItem, rfl⟩)
  | _ => cases hUsable

end FieldType.GivesBack

section

variable {σ : Type} {model : EntityModel σ} {heap later : Heap σ} {keys : List AssignedKey}
  {d : TypeDescriptor} {state state' : σ}

/-- A snapshot shows the fields other than the key only. -/
theorem snapshot_congr (h : ∀ f ∈ d.fields, f.isKey = false →
    model.read state' f.field = model.read state f.field) :
    snapshot model d state' = snapshot model d state := by
  have hStep : ∀ f ∈ d.fields, ∀ params,
      snapshotField model d.type state' params f = snapshotField model d.type state params f := by
    intro f hf params
    unfold snapshotField
    cases hRole : f.role with
    | scalar temporal => simp only [h f hf (by rw [FieldDescriptor.isKey, hRole])]
    | propertyMap => simp only [h f hf (by rw [FieldDescriptor.isKey, hRole])]
    | key temporal => rfl
    | relationship role => rfl
    | ignored => rfl
  unfold snapshot
  generalize ([] : Dict Value) = params
  revert hStep params
  generalize d.fields = fields
  intro hStep params
  induction fields generalizing params with
  | nil => rfl
  | cons f rest ih =>
      rw [List.foldlM_cons, List.foldlM_cons, hStep f List.mem_cons_self]
      exact congrArg _ (funext fun params' => ih (fun g hg => hStep g (List.mem_cons_of_mem _ hg)) params')

/-- Where each object gets one key at most, its state is afterwards the one with the key written, and all
other objects are as they were. -/
theorem Heap.Takes.states (h : heap.Takes model keys later) (hOnce : (keys.map (·.ref)).Nodup) :
    (∀ r, r ∉ keys.map (·.ref) → later.stateOf r = heap.stateOf r) ∧
      ∀ a ∈ keys, model.write (heap.stateOf a.ref) a.field a.value = .ok (later.stateOf a.ref) := by
  induction h with
  | nil heap => exact ⟨fun _ _ => rfl, fun a ha => absurd ha List.not_mem_nil⟩
  | @cons a rest heap heap' later hTake hRest ih =>
      obtain ⟨hNot, hOthers⟩ := List.nodup_cons.1 hOnce
      obtain ⟨hAlone, hEach⟩ := ih hOthers
      obtain ⟨state, hWrite, rfl⟩ := map_eq_ok.1 hTake
      constructor
      · intro r hr
        obtain ⟨hHere, hRest⟩ := not_or.1 (fun h => hr (List.mem_cons.2 h))
        rw [hAlone r hRest, Heap.stateOf_put_of_ne heap state hHere]
      · intro b hb
        rcases List.mem_cons.1 hb with rfl | hb
        · -- The later keys are for other objects.
          rw [hAlone b.ref hNot, Heap.stateOf_put_self]
          exact hWrite
        · have hOther : b.ref ≠ a.ref := by
            intro hSame
            exact hNot (List.mem_map.2 ⟨b, hb, hSame⟩)
          rw [← hEach b hb, Heap.stateOf_put_of_ne heap state hOther]

end

namespace Walker

open Walk WalkState

variable {σ : Type} (w : Walker σ)

/-- The generator gives usable keys. -/
def Usable : Prop :=
  ∀ n v, (w.registry.strategy.generate n).1 = .ok (some v) → v.key?.isSome = true

/-- The key field of an object gives back the usable key that it is given, and taking it leaves all else
about the object alone. -/
structure KeepsKeys : Prop where
  read : ∀ r d pk v state, w.descriptor r = .ok d → d.key? = some pk → v.key?.isSome = true →
    w.model.write (w.heap.stateOf r) pk.field v = .ok state → w.model.read state pk.field = some v
  others : ∀ r d pk v state, w.descriptor r = .ok d → d.key? = some pk →
    w.model.write (w.heap.stateOf r) pk.field v = .ok state →
    ∀ other, other ≠ pk.field → w.model.read state other = w.model.read (w.heap.stateOf r) other
  related : ∀ r d pk v state, w.descriptor r = .ok d → d.key? = some pk →
    w.model.write (w.heap.stateOf r) pk.field v = .ok state →
    ∀ field, w.model.related state field = w.model.related (w.heap.stateOf r) field
  ends : ∀ r d pk v state, w.descriptor r = .ok d → d.key? = some pk →
    w.model.write (w.heap.stateOf r) pk.field v = .ok state →
    w.model.ends state = w.model.ends (w.heap.stateOf r)

/-- The object is an end of a relationship-object. -/
def IsEnd (r : Ref) : Prop :=
  ∃ object d start finish, w.ObjectAs object d start finish ∧ (r = start ∨ r = finish)

variable {w} {root : Ref} {depth taken after : Nat} {p : Plan} {s : WalkState} {later : Heap σ}
  {keys : List AssignedKey}

/-- An object that got two keys is a relationship-object, and an end of one. -/
theorem end_of_assigned_twice
    (hMade : Plan.make w.model w.registry w.heap root depth taken = (.ok p, after)) {r : Ref}
    (hTwice : 1 < (p.assigned.filter (·.ref = r)).length) :
    (∃ d start finish, w.ObjectAs r d start finish) ∧ w.IsEnd r := by
  obtain ⟨s, hPlan, -, hIdentity, hTakes⟩ := takes_of_make hMade
  have hFinished : w.Finished root depth taken p s := ⟨hPlan, hIdentity, .of_takes hTakes⟩
  obtain hOne | ⟨-, hObject, e, -, object, start, finish, hRelationship, hEnd⟩ :=
    assigned_once hFinished (.of_takes hTakes) (.of_takes hTakes) r
  · omega
  obtain ⟨-, -, -, d, -, -, hOther, -⟩ := hRelationship
  exact ⟨hObject, object, d, start, finish, hOther, hEnd⟩

/-- Objects that took one usable key each, where they lacked one, are ready for the same walk with the same
snapshots. -/
theorem resumes_of_states (hNames : ∀ d ∈ w.registry.types, (d.fields.map (·.field)).Nodup)
    (hKeeps : w.KeepsKeys) (hLacks : ∀ a ∈ keys, w.Lacks a)
    (hUsable : ∀ a ∈ keys, a.value.key?.isSome = true) (hOnce : (keys.map (·.ref)).Nodup)
    (hTakes : w.heap.Takes w.model keys later) : w.Resumes later keys True := by
  obtain ⟨hAlone, hEach⟩ := hTakes.states hOnce
  -- An object is as it was, or it took the key that it lacked.
  have hCases : ∀ r, later.stateOf r = w.heap.stateOf r ∨ ∃ a ∈ keys, a.ref = r ∧
      ∃ d pk, w.descriptor r = .ok d ∧ d.key? = some pk ∧ a.field = pk.field ∧
        (w.heap.value w.model r pk.field).key? = none ∧
        w.model.write (w.heap.stateOf r) pk.field a.value = .ok (later.stateOf r) := by
    intro r
    by_cases hr : r ∈ keys.map (·.ref)
    · obtain ⟨a, ha, rfl⟩ := List.mem_map.1 hr
      obtain ⟨d, pk, hType, hPk, hField, hNone⟩ := hLacks a ha
      exact .inr ⟨a, ha, rfl, d, pk, hType, hPk, hField, hNone, hField ▸ hEach a ha⟩
    · exact .inl (hAlone r hr)
  refine ⟨hTakes.typeOf, fun r field => ?_, fun r => ?_, fun r d pk hType hPk hKey => ?_,
    fun a ha => ⟨hUsable a ha, ?_⟩, fun _ r d hType => ?_⟩
  · obtain hSame | ⟨a, ha, rfl, d, pk, hType, hPk, -, -, hWrite⟩ := hCases r
    · rw [hSame]
    · exact hKeeps.related _ d pk _ _ hType hPk hWrite field
  · obtain hSame | ⟨a, ha, rfl, d, pk, hType, hPk, -, -, hWrite⟩ := hCases r
    · rw [hSame]
    · exact hKeeps.ends _ d pk _ _ hType hPk hWrite
  · obtain hSame | ⟨a, ha, rfl, d', pk', hType', hPk', -, hNone, -⟩ := hCases r
    · unfold Heap.value
      rw [hSame]
    · cases ok_unique hType hType'
      cases hPk.symm.trans hPk'
      rw [hNone] at hKey
      cases hKey
  · obtain ⟨d, pk, hType, hPk, hField, -⟩ := hLacks a ha
    have hWrite := hEach a ha
    rw [hField] at hWrite
    unfold Heap.value
    rw [hField, hKeeps.read a.ref d pk a.value _ hType hPk (hUsable a ha) hWrite]
    rfl
  · obtain hSame | ⟨a, ha, rfl, d', pk, hType', hPk, -, -, hWrite⟩ := hCases r
    · rw [hSame]
    · cases ok_unique hType hType'
      refine snapshot_congr fun f hf hNotKey => hKeeps.others _ d pk _ _ hType hPk hWrite _ ?_
      -- No other field has the name of the key field.
      intro hName
      have hMem := (Registry.mem_of_descriptor hType).1
      have hIsKey : pk.isKey = true := List.find?_some hPk
      rw [List.inj_on_of_nodup_map (hNames d hMem) hf (List.mem_of_find?_eq_some hPk) hName, hIsKey]
        at hNotKey
      cases hNotKey

/-- Planning is stable under write-back.  Once the generated keys were handed out, planning again from the
same root with the same depth gives the same nodes and relationships in the same order, none of them new,
and takes nothing from the generator, if no object got two keys.  Only a relationship-object that is an end
of one can get two. -/
theorem make_stable (w : Walker σ) (hGenerates : w.registry.strategy.isNative = false)
    (hUsable : w.Usable) (hNames : ∀ d ∈ w.registry.types, (d.fields.map (·.field)).Nodup)
    (hKeeps : w.KeepsKeys) (root : Ref) (depth taken : Nat) (p : Plan) (after : Nat)
    (hMade : Plan.make w.model w.registry w.heap root depth taken = (.ok p, after))
    (count : Nat) (later : Heap σ) (hHanded : p.assignKeys w.model w.heap = (.ok count, later)) :
    ((p.assigned.map (·.ref)).Nodup → ∀ takenLater, ∃ p',
      Plan.make w.model w.registry later root depth takenLater = (.ok p', takenLater) ∧
        p.Again True p') ∧
    ∀ r, 1 < (p.assigned.filter (·.ref = r)).length →
      (∃ d start finish, w.ObjectAs r d start finish) ∧ w.IsEnd r := by
  refine ⟨fun hOnce takenLater => ?_, fun r hTwice => end_of_assigned_twice hMade hTwice⟩
  have hAllUsable : ∀ a ∈ p.assigned, a.value.key?.isSome = true := by
    obtain ⟨s, rfl, -, -, hTakes⟩ := takes_of_make hMade
    intro a ha
    obtain ⟨n, -, -, hValue⟩ := value_of_assigned (KeyRecords.of_takes hTakes) ha
    exact hUsable n a.value hValue
  have hResumes := resumes_of_states hNames hKeeps (lacks_of_assigned hMade) hAllUsable hOnce
    (assignKeys_eq_ok.1 hHanded).2
  obtain ⟨hSame, hSucceeds⟩ :=
    make_again hResumes hGenerates hMade (List.Subset.refl _) takenLater
  obtain ⟨p', after', hAgain⟩ := hSucceeds trivial
  have hPlan := hSame p' after' hAgain
  -- Every key that is taken from the generator is put down for an object, and here none is.
  obtain ⟨s, rfl, rfl, -, hTakes⟩ := takes_of_make (w := w.on later) hAgain
  have hCount := (KeyRecords.of_takes hTakes).count
  rw [hPlan.assigned] at hCount
  exact ⟨s.plan, by rw [hAgain, hCount]; rfl, hPlan⟩

/-- Objects of declared types comply, if their key fields give every usable key back as it is. -/
theorem keepsKeys_of_declared {types : List DeclaredType} {registry : Registry}
    {heap : Heap DeclaredObject}
    (h : ∀ r d pk, registry.descriptor (heap.typeOf r) = .ok d → d.key? = some pk →
      ∃ type, (heap.stateOf r).type.valueType? pk.field = some type ∧ type.GivesBack) :
    KeepsKeys ⟨declaredModel types, registry, heap⟩ := by
  have hSeparates := declaredModel_separates types
  refine ⟨fun r d pk v state hType hPk hUsable hWrite => ?_,
    fun r d pk v state _ _ hWrite => hSeparates.read _ _ _ _ hWrite,
    fun r d pk v state _ _ hWrite => hSeparates.related _ _ _ _ hWrite,
    fun r d pk v state _ _ hWrite => hSeparates.ends _ _ _ _ hWrite⟩
  obtain ⟨type, hValue, hGives⟩ := h r d pk hType hPk
  change DeclaredObject.write (heap.stateOf r) pk.field v = .ok state at hWrite
  unfold DeclaredObject.write at hWrite
  rw [hValue] at hWrite
  obtain ⟨v', hConvert, rfl⟩ := map_eq_ok.1 hWrite
  change (((heap.stateOf r).type.valueType? pk.field).bind fun _ =>
    ((heap.stateOf r).values.insert pk.field v').find? pk.field) = some v
  rw [hValue, Option.bind_some, Dict.find?_insert_self, hGives v v' hUsable hConvert]

end Walker

namespace Troupe

/-- The plan to save the person with one hop: everything is new. -/
def plan : Plan where
  nodes := [
    ("Movie", [⟨"k1", "Movie", true, some (.string "k1"), [], 1⟩]),
    ("Person", [⟨"k0", "Person", true, some (.string "k0"), [], 0⟩])]
  edges := [("ACTED_IN",
    [⟨"k0", "k1", "ACTED_IN", false, true, some (.string "k2"), [("uuid", .string "k2")]⟩])]
  assigned := keys

/-- The objects with the keys that were made for them. -/
def handed : Heap DeclaredObject :=
  (plan.assignKeys model world.heap).2

end Troupe

theorem troupe_plans_again :
    Plan.make Troupe.model Troupe.registry Troupe.world.heap 0 1 0 = (.ok Troupe.plan, 3) ∧
    Troupe.plan.assignKeys Troupe.model Troupe.world.heap = (.ok 3, Troupe.handed) ∧
    (Troupe.plan.assigned.map (·.ref)).Nodup ∧
    ∃ p', Plan.make Troupe.model Troupe.registry Troupe.handed 0 1 5 = (.ok p', 5) ∧
      Troupe.plan.Again True p' := by
  have hMade : Plan.make Troupe.model Troupe.registry Troupe.world.heap 0 1 0 =
      (.ok Troupe.plan, 3) := by rfl
  have hHanded : Troupe.plan.assignKeys Troupe.model Troupe.world.heap = (.ok 3, Troupe.handed) := by
    rfl
  have hUsable : (Troupe.session.walker Troupe.model Troupe.world).Usable := by
    intro n v hv
    cases hv
    rw [Value.key?_isSome_iff]
    exact .inl ⟨_, rfl, by simp⟩
  have hKeeps : (Troupe.session.walker Troupe.model Troupe.world).KeepsKeys := by
    refine Walker.keepsKeys_of_declared fun r d pk hType hPk => ⟨.option .string, ?_, .option .string⟩
    match r with
    | 0 | 1 | _ + 2 =>
      cases hType
      cases hPk
      rfl
  obtain ⟨hStable, -⟩ := Walker.make_stable (Troupe.session.walker Troupe.model Troupe.world) rfl
    hUsable (by decide) hKeeps 0 1 0 Troupe.plan 3 hMade 3 Troupe.handed hHanded
  have hOnce : (Troupe.plan.assigned.map (·.ref)).Nodup := by decide
  exact ⟨hMade, hHanded, hOnce, hStable hOnce 5⟩

namespace Casting

/-- The objects with the keys that were made for them; the second role has got two, and holds the later. -/
def handed : Heap DeclaredObject :=
  (plan.assignKeys walker.model walker.heap).2

end Casting

/-- Planning again may fail after the keys were handed out: a role that was taken for a person by its first
key holds another one now. -/
theorem casting_plans_otherwise :
    Casting.walker.registry.strategy.isNative = false ∧ Casting.walker.Usable ∧
    (∀ d ∈ Casting.walker.registry.types, (d.fields.map (·.field)).Nodup) ∧ Casting.walker.KeepsKeys ∧
    Plan.make Casting.walker.model Casting.walker.registry Casting.walker.heap 0 1 0 =
      (.ok Casting.plan, 3) ∧
    Casting.plan.assignKeys Casting.walker.model Casting.walker.heap = (.ok 3, Casting.handed) ∧
    ¬ ∃ p' after', Plan.make Casting.walker.model Casting.walker.registry Casting.handed 0 1 3 =
      (.ok p', after') := by
  refine ⟨rfl, fun n v hv => ?_, by decide, ?_, by rfl, by rfl, ?_⟩
  · cases hv
    rw [Value.key?_isSome_iff]
    exact .inl ⟨_, rfl, by simp⟩
  · refine Walker.keepsKeys_of_declared fun r d pk hType hPk => ⟨.string, ?_, .string⟩
    match r with
    | 0 | 1 | 2 | _ + 3 =>
      cases hType
      cases hPk
      rfl
  · rintro ⟨p', after', hAgain⟩
    have hFails : (Plan.make Casting.walker.model Casting.walker.registry Casting.handed 0 1 3).1.isOk =
        false := by
      rfl
    rw [hAgain] at hFails
    cases hFails

end GraphMapping

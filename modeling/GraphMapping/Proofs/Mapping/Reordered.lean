import GraphMapping.Proofs.Mapping.Places
import GraphMapping.Proofs.Schema.Order
import Mathlib.Data.List.Perm.Basic

/-!
# The order of registration

Whether types can be frozen together is a question about each pair of them: node types must have different
labels, whatever a type refers to must be there, and fields that take the same relationships must agree on
their object.  None of this depends on the order in which the types were registered, and neither does
anything that the frozen registry is asked.
-/

namespace GraphMapping

/-- Two registries give the same answers. -/
structure Registry.Agrees (r r' : Registry) : Prop where
  descriptor : ∀ type, r.descriptor type = r'.descriptor type
  withLabel : ∀ label, r.withLabel label = r'.withLabel label
  withLabels : ∀ labels, r.withLabels labels = r'.withLabels labels
  expected : SchemaItem.expected r = SchemaItem.expected r'
  resolve : ∀ key, r.resolve key = r'.resolve key

namespace RegistryBuilder

/-- Types fit together. -/
structure Coherent (types : List TypeDescriptor) : Prop where
  labels : types.Pairwise Apart
  endpoints : ∀ d ∈ types, checkEndpoints types d = .ok ()
  sides : ∀ owner ∈ types, owner.isObject = false → ∀ field ∈ owner.relationships,
    ∃ places, sidesOf types owner field.1 field.2 = .ok places
  objects : ∀ key side side' b b' object object', Puts types b (key, side) object →
    Puts types b' (key, side') object' → object = object'

variable {builder : RegistryBuilder} {r : Registry} {types types' : List TypeDescriptor}
  {table : List (EdgeKey × Candidates)} {b : Binding} {place : EdgeKey × Side}
  {object : Option TypeName} {owner : TypeDescriptor} {field : FieldDescriptor × RelationshipRole}

theorem stands_of_puts (hStands : ∀ owner ∈ types, TypeStands types table owner)
    (h : Puts types b place object) : Stands table b place object := by
  obtain ⟨owner, hOwner, hNode, f, role, sides, hField, hSides, hPlace, rfl⟩ := h
  obtain ⟨sides', object', hSides', hAll⟩ := hStands owner hOwner hNode (f, role) hField
  cases ok_unique hSides hSides'
  exact hAll place hPlace

/-- Types that were frozen fit together. -/
theorem Coherent.of_build (h : builder.build = .ok r) : Coherent builder.types := by
  unfold build at h
  obtain ⟨⟨⟩, hLabels, h⟩ := bind_eq_ok.1 h
  obtain ⟨⟨⟩, hEndpoints, h⟩ := bind_eq_ok.1 h
  obtain ⟨table, hTable, -⟩ := bind_eq_ok.1 h
  obtain ⟨-, hStands⟩ := table_complete hTable
  refine ⟨(checkLabels_eq_ok.1 hLabels).2, forM_eq_ok.1 hEndpoints,
    fun owner hOwner hNode field hField => ?_, fun key side side' b b' object object' h h' => ?_⟩
  · obtain ⟨sides, object, hSides, -⟩ := hStands owner hOwner hNode field hField
    exact ⟨_, hSides⟩
  · -- Both are recorded under the key, which has one object.
    obtain ⟨c, hFind, -, rfl⟩ := stands_of_puts hStands h
    obtain ⟨c', hFind', -, rfl⟩ := stands_of_puts hStands h'
    cases hFind.symm.trans hFind'
    rfl

section

variable (h : Coherent types)

include h

theorem Coherent.bindSide (hPuts : Puts types b place object) (hSound : Sound types table) :
    ∃ table', RegistryBuilder.bindSide b object table place = .ok table' ∧ Sound types table' := by
  obtain ⟨key, side⟩ := place
  have hAgree : ¬ (!((candidatesAt table key).starts.isEmpty &&
      (candidatesAt table key).finishes.isEmpty) && (candidatesAt table key).object != object) = true := by
    rcases candidatesAt_cases table key with hEntry | hNone
    · obtain ⟨side', b', hb'⟩ := hSound.bound _ _ hEntry
      simp [h.objects _ _ _ _ _ _ _ (hSound.puts _ _ hEntry side' b' hb') hPuts]
    · simp [hNone]
  obtain ⟨table', hTable'⟩ : ∃ table',
      RegistryBuilder.bindSide b object table (key, side) = .ok table' := ⟨_, if_neg hAgree⟩
  exact ⟨table', hTable', (bindSide_step hPuts hSound hTable').1⟩

theorem Coherent.bindType (hOwner : owner ∈ types) (hSound : Sound types table) :
    ∃ table', RegistryBuilder.bindType types table owner = .ok table' ∧ Sound types table' := by
  unfold RegistryBuilder.bindType
  cases hNode : owner.isObject with
  | true => exact ⟨table, rfl, hSound⟩
  | false =>
      refine foldlM_total (fun field hField table hSound => ?_) hSound
      obtain ⟨⟨sides, object⟩, hSides⟩ := h.sides owner hOwner hNode field hField
      obtain ⟨table', hTable', hSound'⟩ := foldlM_total (fun place hPlace table hSound =>
        h.bindSide ⟨owner, hOwner, hNode, field.1, field.2, sides, hField, hSides, hPlace, rfl⟩ hSound)
        hSound
      exact ⟨table', bind_eq_ok.2 ⟨_, hSides, hTable'⟩, hSound'⟩

/-- Types that fit together can be frozen. -/
theorem Coherent.build (strategy : KeyStrategy) :
    ∃ r, RegistryBuilder.build ⟨strategy, types⟩ = .ok r := by
  have hLabels : checkLabels [] types = .ok () := checkLabels_eq_ok.2 ⟨by simp, h.labels⟩
  have hEndpoints := forM_eq_ok.2 h.endpoints
  obtain ⟨table, hTable, -⟩ := foldlM_total (fun owner hOwner table hSound => h.bindType hOwner hSound)
    (sound_nil : Sound types [])
  exact ⟨_, bind_eq_ok.2 ⟨(), hLabels, bind_eq_ok.2 ⟨(), hEndpoints, bind_eq_ok.2 ⟨table, hTable, rfl⟩⟩⟩⟩

end

/-! ## Another order -/

/-- What is found by a property that tells the members of a list apart does not depend on their order. -/
theorem find?_perm {α : Type} {items items' : List α} {p : α → Bool} (hPerm : items.Perm items')
    (hOne : ∀ a ∈ items, ∀ b ∈ items, p a = true → p b = true → a = b) :
    items.find? p = items'.find? p := by
  cases hFind : items.find? p with
  | none =>
      refine (List.find?_eq_none.2 fun a ha => ?_).symm
      exact List.find?_eq_none.1 hFind a (hPerm.mem_iff.2 ha)
  | some a =>
      have ha := List.mem_of_find?_eq_some hFind
      have hHere := List.find?_some hFind
      cases hFind' : items'.find? p with
      | none => exact absurd hHere (List.find?_eq_none.1 hFind' a (hPerm.mem_iff.1 ha))
      | some b =>
          have hb := hPerm.mem_iff.2 (List.mem_of_find?_eq_some hFind')
          rw [hOne a ha b hb hHere (List.find?_some hFind')]

section

variable (hTypes : (types.map (·.type)).Nodup) (hPerm : types.Perm types')

include hTypes hPerm

theorem findType_perm : findType types = findType types' := by
  funext type
  refine find?_perm hPerm fun a ha b hb hHere hThere => List.inj_on_of_nodup_map hTypes ha hb ?_
  simp only [beq_iff_eq] at hHere hThere
  rw [hHere, hThere]

theorem sidesOf_perm : sidesOf types = sidesOf types' := by
  funext owner f role
  unfold sidesOf nodeLabel
  rw [findType_perm hTypes hPerm]

theorem puts_perm (h : Puts types' b place object) : Puts types b place object := by
  obtain ⟨owner, hOwner, hNode, f, role, sides, hField, hSides, hPlace, rfl⟩ := h
  rw [← sidesOf_perm hTypes hPerm] at hSides
  exact ⟨owner, hPerm.mem_iff.2 hOwner, hNode, f, role, sides, hField, hSides, hPlace, rfl⟩

/-- Types fit together in any order. -/
theorem Coherent.perm (h : Coherent types) : Coherent types' where
  labels := (hPerm.pairwise_iff symm).1 h.labels
  endpoints d hd := by
    have hHere := h.endpoints d (hPerm.mem_iff.2 hd)
    unfold checkEndpoints nodeLabel at hHere ⊢
    rw [← findType_perm hTypes hPerm]
    exact hHere
  sides owner hOwner := by
    rw [← sidesOf_perm hTypes hPerm]
    exact h.sides owner (hPerm.mem_iff.2 hOwner)
  objects key side side' b b' object object' hPuts hPuts' :=
    h.objects key side side' b b' object object' (puts_perm hTypes hPerm hPuts)
      (puts_perm hTypes hPerm hPuts')

end

end RegistryBuilder

namespace Registry

open RegistryBuilder

variable {builder builder' : RegistryBuilder} {r r' : Registry} {key : EdgeKey} {m : EdgeMatch}

/-- The error for what does not resolve names the key alone. -/
theorem resolve_eq_error {e : Error} (h : r.resolve key = .error e) :
    e = .configuration ("no relationship field declared for " ++ key.shown) := by
  unfold resolve at h
  split at h
  · cases h
  · exact (Except.error.inj h).symm

variable (hBuilt : builder.build = .ok r) (hBuilt' : builder'.build = .ok r')
  (hTypes : (r.types.map (·.type)).Nodup) (hPerm : r.types.Perm r'.types)

omit hTypes in
include hBuilt hPerm in
theorem withLabel_perm : r.withLabel = r'.withLabel := by
  funext label
  refine find?_perm hPerm fun a ha b hb hHere hThere => ?_
  simp only [Bool.and_eq_true, Bool.not_eq_true', beq_iff_eq] at hHere hThere
  exact label_unique hBuilt ha hb hHere.1 hThere.1 (hHere.2.trans hThere.2.symm)

include hBuilt hBuilt' hTypes hPerm

theorem resolve_perm (h : r.resolve key = .ok m) : r'.resolve key = .ok m := by
  obtain ⟨-, table, hTable, hRelationships⟩ := build_cases hBuilt
  obtain ⟨-, table', hTable', hRelationships'⟩ := build_cases hBuilt'
  have hTypes' : (r'.types.map (·.type)).Nodup := (hPerm.map _).nodup_iff.1 hTypes
  have hRecorded : ∀ side, recorded table (key, side) = recorded table' (key, side) := by
    intro side
    rw [recorded_eq hBuilt hTypes hTable, recorded_eq hBuilt' hTypes' hTable',
      withLabel_perm hBuilt hPerm]
    unfold placedBy placed
    rw [sidesOf_perm hTypes hPerm]
  obtain ⟨c, hFind, rfl⟩ := (resolve_of_table hRelationships).1 h
  have hc : candidatesAt table key = c := candidatesAt_of_find? hFind
  have hSound := (table_complete hTable).1
  have hSound' := (table_complete hTable').1
  have hOn : ∀ side, Candidates.on c side = Candidates.on (candidatesAt table' key) side :=
    fun side => hc ▸ hRecorded side
  obtain ⟨side, b, hb⟩ := hSound.bound _ _ hFind
  have hb' := hb
  rw [hOn] at hb'
  rcases candidatesAt_cases table' key with hEntry | hNone
  · -- What the other table has under the key was put there by the same fields, so for the same object.
    have hPuts := hSound.puts _ _ hFind side b hb
    have hPuts' := puts_perm hTypes hPerm (hSound'.puts _ _ hEntry side b hb')
    have hCoherent := Coherent.of_build hBuilt
    rw [← (types_of_build hBuilt).1] at hCoherent
    have hObject := hCoherent.objects _ _ _ _ _ _ _ hPuts hPuts'
    have hStarts : c.starts = (candidatesAt table' key).starts := hOn .start
    have hFinishes : c.finishes = (candidatesAt table' key).finishes := hOn .finish
    refine (resolve_of_table hRelationships').2 ⟨_, hEntry, ?_⟩
    rw [hStarts, hFinishes, hObject]
  · rw [hNone] at hb'
    cases side <;> cases hb'

/-- Registries frozen from the same types, registered in different orders, give the same answers. -/
theorem agrees_of_perm (hStrategy : r.strategy = r'.strategy) : r.Agrees r' := by
  have hTypes' : (r'.types.map (·.type)).Nodup := (hPerm.map _).nodup_iff.1 hTypes
  have hLabels := withLabel_perm hBuilt hPerm
  refine ⟨fun type => ?_, congrFun hLabels, fun labels => ?_, ?_, fun key => ?_⟩
  · unfold descriptor
    rw [findType_perm hTypes hPerm]
  · unfold withLabels
    rw [hLabels]
  · refine SchemaItem.sorted_congr fun item => ?_
    rw [hStrategy]
    exact (hPerm.flatMap_right _).mem_iff
  · cases h : r.resolve key with
    | ok m => exact (resolve_perm hBuilt hBuilt' hTypes hPerm h).symm
    | error e =>
        cases h' : r'.resolve key with
        | ok m =>
            cases h.symm.trans (resolve_perm hBuilt' hBuilt hTypes' hPerm.symm h')
        | error e' =>
            rw [resolve_eq_error h, resolve_eq_error h']

omit hBuilt hBuilt' hTypes hPerm

variable {strategy : KeyStrategy} {decls decls' : List TypeDecl}

/-- What can be frozen in one order can be frozen in another. -/
theorem ofDecls_reordered (hPerm : decls.Perm decls') (h : ofDecls strategy decls = .ok r) :
    ∃ r', ofDecls strategy decls' = .ok r' := by
  obtain ⟨types, hEach, hTypes, hFrozen⟩ := ofDecls_eq_ok.1 h
  obtain ⟨types', hEach', hPerm'⟩ := List.perm_comp_forall₂ hPerm.symm hEach
  obtain ⟨r', hFrozen'⟩ := ((Coherent.of_build hFrozen).perm hTypes hPerm'.symm).build strategy
  exact ⟨r', ofDecls_eq_ok.2 ⟨types', hEach', (hPerm'.map _).nodup_iff.2 hTypes, hFrozen'⟩⟩

/-- Declarations can be registered and frozen in any order or in none.  The registries agree.  Their types are
as declared, and what resolves is bound on one side at least, on each to the field to be picked. -/
theorem ofDecls_perm (strategy : KeyStrategy) (decls decls' : List TypeDecl)
    (hPerm : decls.Perm decls') :
    ((∃ r, ofDecls strategy decls = .ok r) ↔ ∃ r', ofDecls strategy decls' = .ok r') ∧
    ∀ r r', ofDecls strategy decls = .ok r → ofDecls strategy decls' = .ok r' →
      r.Agrees r' ∧
      (∀ d ∈ r.types, ∃ decl ∈ decls, TypeDescriptor.ofDecl strategy decl = .ok d ∧
        d.fields.map (·.field) = decl.fields.map (·.name)) ∧
      ∀ key m, r.resolve key = .ok m →
        (m.start.isSome ∨ m.finish.isSome) ∧ ∀ side, r.Picks key side (m.on side) := by
  refine ⟨⟨fun ⟨r, h⟩ => ofDecls_reordered hPerm h, fun ⟨r', h'⟩ => ofDecls_reordered hPerm.symm h'⟩,
    fun r r' h h' => ?_⟩
  obtain ⟨types, hEach, hTypes, hFrozen⟩ := ofDecls_eq_ok.1 h
  obtain ⟨types', hEach', -, hFrozen'⟩ := ofDecls_eq_ok.1 h'
  obtain ⟨hHere, hStrategy⟩ := types_of_build hFrozen
  obtain ⟨hThere, hStrategy'⟩ := types_of_build hFrozen'
  dsimp only at hHere hThere
  subst hHere hThere
  -- Each declaration has one descriptor, so that the types are reordered as the declarations were.
  have hPerm' : r.types.Perm r'.types := by
    obtain ⟨others, hOthers, hSame⟩ := List.perm_comp_forall₂ hPerm.symm hEach
    have hOne : Relator.RightUnique
        fun decl d => TypeDescriptor.ofDecl strategy decl = .ok d := fun _ _ _ => ok_unique
    rw [List.right_unique_forall₂' hOne hEach' hOthers]
    exact hSame.symm
  refine ⟨agrees_of_perm hFrozen hFrozen' hTypes hPerm' (hStrategy.trans hStrategy'.symm),
    fun d hd => ?_, fun key m hResolve => resolve_picks hFrozen hTypes hResolve⟩
  obtain ⟨decl, hDecl, hDeclared⟩ := (exists_of_forall₂ hEach).2 d hd
  exact ⟨decl, hDecl, hDeclared, (ofDecl_names hDeclared).1⟩

end Registry

namespace Club

/-- Members know each other, mentor some, and belong to teams. -/
def member : TypeDecl :=
  ⟨"Member", "Member", none,
    [⟨"uuid", .scalar, "pk"⟩,
      ⟨"contacts", .many "Member", "relationship=KNOWS;direction=both"⟩,
      ⟨"mentors", .many "Member", "relationship=KNOWS;direction=outgoing"⟩,
      ⟨"teams", .many "Team", "relationship=BELONGS_TO;direction=outgoing"⟩]⟩

def team : TypeDecl :=
  ⟨"Team", "Team", none,
    [⟨"uuid", .scalar, "pk"⟩,
      ⟨"members", .many "Member", "relationship=BELONGS_TO;direction=incoming"⟩]⟩

def strategy : KeyStrategy :=
  ⟨"seq", "uuid", .string, .generated fun n => .string ("k" ++ toString n)⟩

end Club

theorem club_frozen_in_both_orders :
    [Club.member, Club.team].Perm [Club.team, Club.member] ∧
    ∃ r r', Registry.ofDecls Club.strategy [Club.member, Club.team] = .ok r ∧
      Registry.ofDecls Club.strategy [Club.team, Club.member] = .ok r' ∧ r.Agrees r' ∧
      r.Picks ⟨"Member", "KNOWS", "Member"⟩ .start (some ⟨"Member", "mentors", true, .outgoing⟩) := by
  have hPerm : [Club.member, Club.team].Perm [Club.team, Club.member] := .swap _ _ _
  obtain ⟨r, h⟩ : ∃ r, Registry.ofDecls Club.strategy [Club.member, Club.team] = .ok r := ⟨_, by rfl⟩
  obtain ⟨hBoth, hAll⟩ := Registry.ofDecls_perm Club.strategy _ _ hPerm
  obtain ⟨r', h'⟩ := hBoth.1 ⟨r, h⟩
  obtain ⟨hAgrees, -, hResolve⟩ := hAll r r' h h'
  refine ⟨hPerm, r, r', h, h', hAgrees, ?_⟩
  cases h
  exact (hResolve ⟨"Member", "KNOWS", "Member"⟩ _ (by rfl)).2 .start

end GraphMapping

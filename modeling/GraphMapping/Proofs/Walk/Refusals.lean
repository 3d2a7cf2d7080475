import GraphMapping.Proofs.Mapping.WellFormed
import GraphMapping.Proofs.ObjectGraph.Reload
import GraphMapping.Proofs.Walk.Declared
import GraphMapping.Proofs.Walk.FlatFields
import GraphMapping.Proofs.Walk.Keys

/-!
# What a walk can fail with

A walk looks up types, keys and ends as it goes, and has an answer for each of them that is missing.  In a
well-formed registry, and with objects that match their declarations, none is: a walk fails only because
its generator does, or because of data that the objects hold.
-/

namespace GraphMapping

/-- A walk from a state fails with nothing but errors of a sort. -/
def Walk.FailsWith {α : Type} (P : Error → Prop) (x : Walk α) (s : WalkState) : Prop :=
  ∀ e t, x.run s = (.error e, t) → P e

namespace Walk

variable {α β : Type} {P : Error → Prop} {s : WalkState}

theorem failsWith_pure (a : α) : FailsWith P (pure a) s :=
  fun _ _ h => nomatch h

theorem failsWith_throw {e : Error} (h : P e) : FailsWith P (throw e : Walk α) s := by
  intro e' t hRun
  cases hRun
  exact h

theorem failsWith_modify (f : WalkState → WalkState) : FailsWith P (modify f) s :=
  fun _ _ h => nomatch h

theorem failsWith_liftM {x : Except Error α} (h : FailsOnly P x) :
    FailsWith P (liftM x) s := by
  intro e t hRun
  cases x with
  | ok a => cases hRun
  | error e' =>
      cases hRun
      exact h _ rfl

/-- Of two steps either fails, the second from where the first ends. -/
theorem failsWith_bind {x : Walk α} {f : α → Walk β} (hx : FailsWith P x s)
    (hf : ∀ a t, Gives x s a t → FailsWith P (f a) t) : FailsWith P (x >>= f) s := by
  intro e t h
  rw [run_bind] at h
  rcases hFirst : x.run s with ⟨e' | a, u⟩
  · rw [hFirst] at h
    cases h
    exact hx _ _ hFirst
  · rw [hFirst] at h
    exact hf a u hFirst e t h

theorem failsWith_get_bind {f : WalkState → Walk β} (h : FailsWith P (f s) s) :
    FailsWith P (get >>= f) s :=
  failsWith_bind (fun _ _ hGet => nomatch hGet) fun a t hGet => by
    obtain ⟨rfl, rfl⟩ := gives_get.1 hGet
    exact h

theorem failsWith_modify_bind {g : WalkState → WalkState} {f : Unit → Walk β}
    (h : FailsWith P (f ()) (g s)) : FailsWith P (modify g >>= f) s :=
  failsWith_bind (failsWith_modify g) fun _ t hStep => by
    cases gives_modify.1 hStep
    exact h

/-- What succeeds goes on with its result. -/
theorem failsWith_ok_bind {a : α} {f : α → Walk β} (h : FailsWith P (f a) s) :
    FailsWith P (liftM (Except.ok a : Except Error α) >>= f) s :=
  failsWith_bind (failsWith_liftM (.ok a)) fun b t hStep => by
    obtain ⟨hSame, rfl⟩ := gives_liftM.1 hStep
    cases hSame
    exact h

theorem failsWith_forM {f : β → Walk Unit} {items : List β}
    (h : ∀ b ∈ items, ∀ s, FailsWith P (f b) s) : FailsWith P (items.forM f) s := by
  induction items generalizing s with
  | nil => exact failsWith_pure ()
  | cons b rest ih =>
      exact failsWith_bind (h b List.mem_cons_self s) fun _ _ _ =>
        ih fun b' hb' => h b' (List.mem_cons_of_mem _ hb')

end Walk

namespace Walker

open Walk

variable {σ : Type} (w : Walker σ)

/-- Objects match their declarations: what they refer to is of the declared types, and objects of
relationship-object types show their ends. -/
structure Matches : Prop where
  typed : w.WellTyped
  shown : ∀ r d, w.descriptor r = .ok d → d.isObject = true →
    (w.model.ends (w.heap.stateOf r)).isSome = true

/-- What a walk over such objects can fail with: an error of its generator or a key that cannot be used,
and data that does not fit. -/
inductive Refusal (strategy : KeyStrategy) : Error → Prop
  | generator {n : Nat} {e : Error} (h : (strategy.generate n).1 = .error e) : Refusal strategy e
  | unusable : Refusal strategy
      (.internal ("strategy '" ++ strategy.name ++ "' generated an unusable key"))
  | data (text : String) : Refusal strategy (.data text)

end Walker

/-- A snapshot fails only if a property map is no map. -/
theorem snapshot_failsOnly {σ : Type} {model : EntityModel σ} {strategy : KeyStrategy}
    (d : TypeDescriptor) (state : σ) :
    FailsOnly (Walker.Refusal strategy) (snapshot model d state) := by
  refine .foldlM fun f _ params => ?_
  unfold snapshotField
  split
  · exact .ok _
  · split
    · exact .ok _
    · exact .ok _
    · exact .ok _
    · exact .error (.data _)
  · exact .ok _

namespace Walker

open Walk

variable {σ : Type} {w : Walker σ} {s : WalkState} {r owner target : Ref} {d : TypeDescriptor}
  {role : RelationshipRole} {visit : Ref → Option String → Walk Unit} {came : Option String}

theorem generate_failsWith : FailsWith (Refusal w.registry.strategy) w.generate s :=
  failsWith_get_bind (failsWith_modify_bind (failsWith_liftM fun _ h => .generator h))

theorem newIdentity_failsWith (field : String) :
    FailsWith (Refusal w.registry.strategy) (w.newIdentity r field) s := by
  unfold newIdentity
  dsimp only
  split
  · exact failsWith_modify_bind (failsWith_get_bind (failsWith_pure _))
  · rename_i hNative
    refine failsWith_bind generate_failsWith fun v t hValue => ?_
    -- A strategy whose keys are made here always makes one.
    obtain ⟨value, rfl⟩ := KeyStrategy.generate_ok (by simpa using hNative) (gives_generate.1 hValue).1
    dsimp only
    split
    · exact failsWith_throw .unusable
    · exact failsWith_modify_bind (failsWith_pure _)

theorem identify_failsWith {pk : FieldDescriptor} (hKey : d.key? = some pk) :
    FailsWith (Refusal w.registry.strategy) (w.identify r d) s := by
  unfold identify
  refine failsWith_get_bind ?_
  split
  · exact failsWith_pure _
  · rw [hKey]
    dsimp only
    split
    · exact failsWith_bind (failsWith_pure _) fun _ _ _ =>
        failsWith_modify_bind (failsWith_pure _)
    · exact failsWith_bind (newIdentity_failsWith _) fun _ _ _ =>
        failsWith_modify_bind (failsWith_pure _)

theorem recordNode_failsWith (i : Identity) :
    FailsWith (Refusal w.registry.strategy) (w.recordNode r d i) s := by
  unfold recordNode
  refine failsWith_get_bind ?_
  split
  · exact failsWith_modify_bind <|
      failsWith_bind (failsWith_liftM (snapshot_failsOnly _ _)) fun _ _ _ => failsWith_modify _
  · exact failsWith_pure _

theorem recordEdge_failsWith {P : Error → Prop} (e : PlannedEdge) : FailsWith P (recordEdge e) s := by
  unfold recordEdge
  refine failsWith_get_bind ?_
  split
  · exact failsWith_modify_bind (failsWith_modify _)
  · exact failsWith_pure _

theorem objectKey_failsWith : FailsWith (Refusal w.registry.strategy) (w.objectKey r d) s := by
  unfold objectKey
  split
  · exact failsWith_pure _
  · split
    · exact failsWith_pure _
    · dsimp only
      split
      · exact failsWith_pure _
      · refine failsWith_bind generate_failsWith fun v _ _ => ?_
        cases v with
        | none => exact failsWith_pure _
        | some value => exact failsWith_modify_bind (failsWith_pure _)

theorem recordObject_failsWith (label start finish : String) :
    FailsWith (Refusal w.registry.strategy) (w.recordObject r d label start finish) s := by
  have hParams : ∀ key, FailsOnly (Refusal w.registry.strategy)
      (w.objectParams r d key) := by
    intro key
    refine (snapshot_failsOnly d _).bind fun params _ => ?_
    split <;> exact .ok _
  unfold recordObject
  refine failsWith_get_bind ?_
  split
  · exact failsWith_modify_bind <|
      failsWith_bind objectKey_failsWith fun key _ _ =>
        failsWith_bind (failsWith_liftM (hParams key)) fun _ _ _ => failsWith_modify _
  · exact failsWith_pure _

/-- The key of a node type in a well-formed registry. -/
theorem key_of_nodeAs (hRegistry : w.registry.WellFormed) (h : w.NodeAs r d) :
    ∃ pk, d.key? = some pk := by
  have hOne := (hRegistry.types d (mem_of_descriptor h.1).1).keyed h.2
  obtain ⟨pk, hMem, hKey⟩ := List.countP_pos_iff.1 (Nat.lt_of_lt_of_eq Nat.zero_lt_one hOne.symm)
  exact Option.isSome_iff_exists.1 (List.find?_isSome.2 ⟨pk, hMem, hKey⟩)

section

variable (hRegistry : w.registry.WellFormed) (hMatches : w.Matches)

include hRegistry

theorem followNode_failsWith (h : w.NodeAs target d) (ownerKey : String)
    (hVisit : ∀ s came, FailsWith (Refusal w.registry.strategy) (visit target came) s) :
    FailsWith (Refusal w.registry.strategy) (w.followNode visit ownerKey role target d came) s := by
  obtain ⟨pk, hKey⟩ := key_of_nodeAs hRegistry h
  refine failsWith_bind (identify_failsWith hKey) fun i _ _ => ?_
  dsimp only
  refine failsWith_bind (recordEdge_failsWith _) fun _ _ _ => ?_
  split
  · exact failsWith_pure _
  · exact hVisit _ _

include hMatches

/-- The ends of a relationship-object are nodes. -/
theorem ends_nodeAs {start finish : Ref} (h : w.ObjectAs r d start finish) :
    ∀ q ∈ [start, finish], ∃ n, w.NodeAs q n := by
  obtain ⟨hType, hObject, hEnds⟩ := h
  obtain ⟨⟨first, last⟩, hDeclared⟩ := Option.isSome_iff_exists.1 hObject
  obtain ⟨hStart, hFinish⟩ := hMatches.typed.ends _ _ _ _ _ _ hType hDeclared (ends_of_endsOf hEnds)
  have hNodes := (hRegistry.types d (mem_of_descriptor hType).1).ends first last hDeclared
  intro q hq
  simp only [List.mem_cons, List.not_mem_nil, or_false] at hq
  rcases hq with rfl | rfl
  · rw [← hStart] at hNodes
    exact hNodes _ List.mem_cons_self
  · rw [← hFinish] at hNodes
    exact hNodes _ (List.mem_cons_of_mem _ List.mem_cons_self)

theorem followObject_failsWith (hType : w.descriptor r = .ok d) (hObject : d.isObject = true)
    (ownerKey label : String)
    (hVisit : ∀ q n, w.NodeAs q n → ∀ s came, FailsWith (Refusal w.registry.strategy) (visit q came) s) :
    FailsWith (Refusal w.registry.strategy)
      (w.followObject visit owner ownerKey label r d came) s := by
  have hEnds : FailsOnly (Refusal w.registry.strategy) (w.endsOf r d) := by
    obtain ⟨ends, hShown⟩ := Option.isSome_iff_exists.1 (hMatches.shown r d hType hObject)
    unfold endsOf
    rw [hShown]
    split
    · contradiction
    · exact .ok _
    · exact .error (.data _)
  refine failsWith_bind (failsWith_liftM hEnds) fun ⟨start, finish⟩ _ hFound => ?_
  have hAs : w.ObjectAs r d start finish := ⟨hType, hObject, (gives_liftM.1 hFound).1⟩
  obtain ⟨first, hFirst⟩ := ends_nodeAs hRegistry hMatches hAs start List.mem_cons_self
  obtain ⟨last, hLast⟩ := ends_nodeAs hRegistry hMatches hAs finish
    (List.mem_cons_of_mem _ List.mem_cons_self)
  obtain ⟨pk, hKey⟩ := key_of_nodeAs hRegistry hFirst
  obtain ⟨pk', hKey'⟩ := key_of_nodeAs hRegistry hLast
  dsimp only
  rw [hFirst.1, hLast.1]
  refine failsWith_ok_bind ?_
  refine failsWith_bind (identify_failsWith hKey) fun i _ _ => ?_
  refine failsWith_ok_bind ?_
  refine failsWith_bind (identify_failsWith hKey') fun j _ _ => ?_
  have hOpposite : FailsOnly (Refusal w.registry.strategy)
      (opposite d owner ownerKey start finish i.key j.key) := by
    unfold opposite
    split
    · exact .ok _
    · split
      · exact .ok _
      · exact .error (.data _)
  refine failsWith_bind (failsWith_liftM hOpposite) fun ⟨other, otherKey⟩ _ hOther => ?_
  refine failsWith_bind (recordObject_failsWith _ _ _) fun _ _ _ => ?_
  split
  · exact failsWith_pure _
  · -- The walk goes on at one of the two ends.
    have hEnd : other = start ∨ other = finish := by
      have hFound := (gives_liftM.1 hOther).1
      unfold opposite at hFound
      split at hFound
      · cases hFound
        exact .inr rfl
      · split at hFound <;> cases hFound
        exact .inl rfl
    rcases hEnd with rfl | rfl
    · exact hVisit _ _ hFirst _ _
    · exact hVisit _ _ hLast _ _

theorem follow_failsWith {dOwner : TypeDescriptor} {f : FieldDescriptor}
    (hOwner : w.descriptor owner = .ok dOwner) (hField : (f, role) ∈ dOwner.relationships)
    (hTarget : target ∈ w.model.related (w.heap.stateOf owner) f.field) (ownerKey : String)
    (hVisit : ∀ q n, w.NodeAs q n → ∀ s came, FailsWith (Refusal w.registry.strategy) (visit q came) s) :
    FailsWith (Refusal w.registry.strategy) (w.follow visit owner ownerKey came role target) s := by
  have hType : w.heap.typeOf target = role.target :=
    hMatches.typed.related _ _ _ _ _ hOwner hField hTarget
  obtain ⟨-, d, hFound⟩ :=
    (hRegistry.types dOwner (mem_of_descriptor hOwner).1).related f role hField
  rw [← hType] at hFound
  have hHere : w.descriptor target = .ok d := hFound
  unfold follow
  rw [hHere]
  refine failsWith_ok_bind ?_
  split
  · rename_i hObject
    exact followObject_failsWith hRegistry hMatches hHere hObject _ _ hVisit
  · rename_i hNode
    have hAs : w.NodeAs target d := ⟨hHere, by simpa using hNode⟩
    exact followNode_failsWith hRegistry hAs _ (hVisit target d hAs)

/-- Walking from a node fails for no other reason. -/
theorem visit_failsWith (hops : Nat) (h : w.NodeAs r d) :
    FailsWith (Refusal w.registry.strategy) (w.visit hops r came) s := by
  have hEnter : ∀ q n, w.NodeAs q n → ∀ s, FailsWith (Refusal w.registry.strategy) (w.enter q) s := by
    intro q n hNode s
    obtain ⟨pk, hKey⟩ := key_of_nodeAs hRegistry hNode
    unfold enter
    rw [hNode.1]
    refine failsWith_ok_bind ?_
    rw [if_neg (by simp [hNode.2])]
    exact failsWith_bind (identify_failsWith hKey) fun _ _ _ =>
      failsWith_bind (recordNode_failsWith _) fun _ _ _ => failsWith_pure _
  induction hops generalizing r d came s with
  | zero => exact failsWith_bind (hEnter r d h s) fun _ _ _ => failsWith_pure _
  | succ hops ih =>
      refine failsWith_bind (hEnter r d h s) fun ⟨d', key⟩ _ hEntered => ?_
      obtain ⟨d'', i, -, hFound, hType, -⟩ := enter_cases hEntered
      cases hFound
      cases ok_unique h.1 hType
      refine failsWith_forM fun ⟨role, target⟩ hReference s => ?_
      obtain ⟨⟨f, role'⟩, hField, hTarget⟩ := List.mem_flatMap.1 hReference
      obtain ⟨target', hRelated, hSame⟩ := List.mem_map.1 hTarget
      cases hSame
      exact follow_failsWith hRegistry hMatches h.1 hField hRelated _ fun q n hNode s came => ih hNode

end

/-- The descriptor of a root that a plan can start at. -/
theorem nodeAs_of_checkRoot {root : Ref} (h : checkRoot w.registry (w.heap.typeOf root) = .ok ()) :
    ∃ d, w.NodeAs root d := by
  unfold checkRoot at h
  obtain ⟨d, hType, h⟩ := bind_eq_ok.1 h
  split at h
  · cases h
  · rename_i hNode
    exact ⟨d, hType, by simpa using hNode⟩

end Walker

/-! ## Plans -/

/-- What planning can fail with: a depth or a root that is refused, and what a walk can fail with. -/
inductive PlanRefusal (registry : Registry) (depth : Nat) (type : TypeName) : Error → Prop
  | depth {e : Error} (h : checkDepth depth = .error e) : PlanRefusal registry depth type e
  | root {e : Error} (h : checkRoot registry type = .error e) : PlanRefusal registry depth type e
  | walk {e : Error} (h : Walker.Refusal registry.strategy e) : PlanRefusal registry depth type e

/-- An error says that something is missing of what every well-formed registry has: the relationship type
of a field, the ends of a relationship-object, or the key of a node type. -/
inductive Lacking : Error → Prop
  | label (field : String) : Lacking (.internal (field ++ " has no relationship label"))
  | ends (type : TypeName) : Lacking
      (.internal (type ++ " is registered as a relationship object but exposes no endpoints"))
  | key (type : TypeName) : Lacking (.configuration (type ++ " has no primary key"))

/-- Texts differ if none of their ends is an end of the other. -/
theorem append_ne_append {a b x y : String} (h : ¬ (x.toList <:+ y.toList ∨ y.toList <:+ x.toList)) :
    a ++ x ≠ b ++ y := by
  intro hSame
  have hChars := congrArg String.toList hSame
  rw [String.toList_append, String.toList_append] at hChars
  exact h (List.suffix_or_suffix_of_suffix ⟨_, rfl⟩ ⟨_, hChars.symm⟩)

theorem Walker.Refusal.not_lacking {strategy : KeyStrategy} {e : Error}
    (h : Walker.Refusal strategy e) : ¬ Lacking e := by
  intro hLacking
  cases h with
  | data text => cases hLacking
  | unusable =>
      generalize hText : "strategy '" ++ strategy.name ++ "' generated an unusable key" = text
        at hLacking
      cases hLacking with
      | label field => exact append_ne_append (by decide) hText
      | ends type => exact append_ne_append (by decide) hText
  | @generator n _ hValue =>
      -- The error ends with the name of a kind.
      obtain ⟨before, hError⟩ : ∃ before, e = .internal (before ++ strategy.kind.name) := by
        unfold KeyStrategy.generate at hValue
        split at hValue
        · cases hValue
        · dsimp only at hValue
          split at hValue <;> cases hValue
          exact ⟨_, rfl⟩
      rw [hError] at hLacking
      generalize hText : before ++ strategy.kind.name = text at hLacking
      cases hLacking with
      | label field =>
          revert hText
          cases strategy.kind <;> exact append_ne_append (by decide)
      | ends type =>
          revert hText
          cases strategy.kind <;> exact append_ne_append (by decide)

theorem PlanRefusal.not_lacking {registry : Registry} {depth : Nat} {type : TypeName} {e : Error}
    (h : PlanRefusal registry depth type e) : ¬ Lacking e := by
  intro hLacking
  cases h with
  | walk h => exact h.not_lacking hLacking
  | depth h =>
      unfold checkDepth at h
      split at h
      · obtain rfl := Except.error.inj h
        generalize hText : "depth " ++ toString depth ++ " is outside 0..=" ++ toString maxDepth = text
          at hLacking
        cases hLacking with
        | key type => exact append_ne_append (by decide) hText
      · cases h
  | root h =>
      unfold checkRoot Registry.descriptor at h
      split at h
      · rename_i d _
        change (if d.isObject = true then _ else _) = _ at h
        split at h
        · obtain rfl := Except.error.inj h
          generalize hText : d.type ++ " is a relationship object and cannot be saved on its own" = text
            at hLacking
          cases hLacking with
          | key type => exact append_ne_append (by decide) hText
        · cases h
      · obtain rfl := Except.error.inj h
        cases hLacking

/-- Planning over objects that match their declarations fails for no other reason. -/
theorem Walker.make_refusal {σ : Type} {w : Walker σ} (hRegistry : w.registry.WellFormed)
    (hMatches : w.Matches) {root : Ref} {depth taken after : Nat} {e : Error}
    (h : Plan.make w.model w.registry w.heap root depth taken = (.error e, after)) :
    PlanRefusal w.registry depth (w.heap.typeOf root) e := by
  unfold Plan.make at h
  split at h
  · rename_i hDepth
    cases h
    exact .depth hDepth
  · rename_i hRoot _
    cases h
    exact .root hRoot
  · rename_i hRoot
    obtain ⟨d, hNode⟩ := nodeAs_of_checkRoot hRoot
    rcases hRun : (w.visit depth root none).run (WalkState.start taken) with ⟨e' | ⟨⟩, s⟩
    · change ((((w.visit depth root none).run (WalkState.start taken)).1.map _, _) = _) at h
      rw [hRun] at h
      cases h
      exact .walk (visit_failsWith hRegistry hMatches depth hNode _ _ hRun)
    · change ((((w.visit depth root none).run (WalkState.start taken)).1.map _, _) = _) at h
      rw [hRun] at h
      cases h

/-- However a builder is called, it holds just the types that were registered since it was last reset, each
once, and a refused call changes nothing.  Freezing fails only because declarations do not fit together, also
where fields bind by their records.  The registry that it gives has these types and is well formed, what its
relationship fields are comes from their tags, and their records, which are those that the declarations are
described by, hold all that they need.  So planning over objects that match their declarations, by the fields
or by their records, never finds anything lacking. -/
theorem builder_freezes_wellFormed (strategy : KeyStrategy) (calls : List BuilderCall) :
    RegistryBuilder.Reached strategy calls ((RegistryBuilder.new strategy).callAll calls).1
      ((RegistryBuilder.new strategy).callAll calls).2 ∧
    (∀ (c : BuilderCall) (e : Error),
      (((RegistryBuilder.new strategy).callAll calls).2.call c).1 = .refused e →
      (((RegistryBuilder.new strategy).callAll calls).2.call c).2 =
        ((RegistryBuilder.new strategy).callAll calls).2) ∧
    (∀ e, ((RegistryBuilder.new strategy).callAll calls).2.build = .error e →
      e.category = .configuration) ∧
    (∀ d ∈ ((RegistryBuilder.new strategy).callAll calls).2.types, ∀ f ∈ d.flat.fields,
      f.kind.isRelationship = true → ∀ e,
        f.sidesOf (((RegistryBuilder.new strategy).callAll calls).2.types.map TypeDescriptor.flat) d.flat =
          .error e → e.category = .configuration) ∧
    ∀ r, ((RegistryBuilder.new strategy).callAll calls).2.build = .ok r →
      r.strategy = strategy ∧
      r.types = BuilderReply.types ((RegistryBuilder.new strategy).callAll calls).1 ∧
      r.WellFormed ∧
      (∀ d ∈ r.types, ∃ decl, .register decl ∈ calls ∧ TypeDescriptor.ofDecl strategy decl = .ok d ∧
        (∀ f role, (f, role) ∈ d.relationships → ∃ field ∈ decl.fields, ∃ marks,
          Tag.parse field.tag = .ok (.mapped marks) ∧
          marks.relationship = some (role.label, role.direction)) ∧
        FlatType.ofDecl strategy decl = .ok d.flat ∧
        ∀ f ∈ d.flat.fields, f.kind.isRelationship = true → f.Complete r) ∧
      ∀ (σ : Type) (model : EntityModel σ) (heap : Heap σ), Walker.Matches ⟨model, r, heap⟩ →
        ∀ root depth taken,
          Plan.makeFlat model r heap root depth taken = Plan.make model r heap root depth taken ∧
          ∀ e after, Plan.make model r heap root depth taken = (.error e, after) →
            PlanRefusal r depth (heap.typeOf root) e ∧ ¬ Lacking e := by
  have hReached := RegistryBuilder.reached strategy calls
  refine ⟨hReached, fun c e h => RegistryBuilder.call_refused h,
    fun e h => RegistryBuilder.build_failsOnly e h, ?_, fun r hFrozen => ?_⟩
  · intro d _ f hf hKind e h
    exact RegistryBuilder.sidesOf_flat_failsOnly hf hKind e h
  · obtain ⟨hTypes, hStrategy⟩ := RegistryBuilder.types_of_build hFrozen
    have hWellFormed := hReached.wellFormed hFrozen
    refine ⟨hStrategy.trans hReached.under, hTypes.trans hReached.types, hWellFormed, fun d hd => ?_,
      fun σ model heap hMatches root depth taken =>
        ⟨Plan.makeFlat_eq model r heap root depth taken, fun e after h => ?_⟩⟩
    · have hComplete : ∀ f ∈ d.flat.fields, f.kind.isRelationship = true → f.Complete r :=
        fun f hf hKind => (hWellFormed.types d hd).complete hf hKind
      rw [hTypes] at hd
      obtain ⟨decl, hCall, hDeclared⟩ := hReached.declared d hd
      have hFlat : FlatType.ofDecl strategy decl = .ok d.flat := by
        rw [FlatType.ofDecl_eq, hDeclared]
        rfl
      exact ⟨decl, hCall, hDeclared, fun f role hField => (ofDecl_relationship hDeclared hField).2, hFlat,
        hComplete⟩
    · have hRefusal := Walker.make_refusal (w := ⟨model, r, heap⟩) hWellFormed hMatches h
      exact ⟨hRefusal, hRefusal.not_lacking⟩

namespace Cinema

theorem walkerMatches : walker.Matches := by
  refine ⟨wellTyped, fun r d hType hObject => ?_⟩
  match r with
  | 0 | 1 | 2 =>
      cases hType
      cases hObject
  | 3 | r + 4 => rfl

/-- Calls that register the types, after another one was forgotten, and one of them again. -/
def calls : List BuilderCall :=
  [.register ⟨"Film", "Film", none, [⟨"uuid", .scalar, "pk"⟩]⟩, .reset, .register person.decl,
    .register person.decl, .register movie.decl, .register role.decl]

end Cinema

theorem cinema_freezes : ((RegistryBuilder.new Cinema.strategy).callAll Cinema.calls).2.build =
      .ok Cinema.registry ∧
    Cinema.registry.WellFormed ∧
    FlatField.Complete Cinema.registry
      ⟨"friends", "friends", .many, some "KNOWS", some .both, some "Person", false, false, false⟩ ∧
    ∀ root depth taken e after,
      Plan.make Cinema.walker.model Cinema.registry Cinema.walker.heap root depth taken =
        (.error e, after) → ¬ Lacking e := by
  have hFrozen : ((RegistryBuilder.new Cinema.strategy).callAll Cinema.calls).2.build =
      .ok Cinema.registry := by rfl
  obtain ⟨-, -, -, -, hBuilt⟩ := builder_freezes_wellFormed Cinema.strategy Cinema.calls
  obtain ⟨-, -, hWellFormed, hTypes, hPlans⟩ := hBuilt _ hFrozen
  refine ⟨hFrozen, hWellFormed, ?_, fun root depth taken e after h => ?_⟩
  · obtain ⟨_, -, -, -, -, hComplete⟩ := hTypes _ List.mem_cons_self
    exact hComplete _ (List.mem_cons_of_mem _ List.mem_cons_self) rfl
  · exact ((hPlans _ _ _ Cinema.walkerMatches root depth taken).2 e after h).2

end GraphMapping

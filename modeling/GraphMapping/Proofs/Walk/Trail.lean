import GraphMapping.Proofs.Walk.Success

/-!
# The trail of a walk

What a walk does depends on what it has met before, but where it goes does not: once the keys of all
objects are known, the nodes it enters and the references it follows, in their order, are a plain list.
`trail` computes this list, and `visit_takes` says that a successful walk does just what stands in it.
-/

namespace GraphMapping

/-- One thing that a walk does. -/
inductive Move where
  /-- It enters a node. -/
  | enter (r : Ref)
  /-- It follows one reference of a relationship field of a node. -/
  | follow (owner : Ref) (role : RelationshipRole) (target : Ref)
deriving DecidableEq

/-- The keys that a walk has given to objects are those of `keyOf`. -/
def WalkState.Agrees (s : WalkState) (keyOf : Ref → String) : Prop :=
  ∀ q i, s.identities.lookup q = some i → i.key = keyOf q

theorem WalkState.Agrees.before {s t : WalkState} {keyOf : Ref → String} (h : t.Agrees keyOf)
    (hRemembers : s.Remembers t) : s.Agrees keyOf :=
  fun q i hq => h q i (hRemembers q i hq)

/-- The plain relationship between an owner and a target with the given keys. -/
def plainEdge (role : RelationshipRole) (ownerKey targetKey : String) : PlannedEdge :=
  let (start, finish) := match role.direction with
    | .incoming => (targetKey, ownerKey)
    | _ => (ownerKey, targetKey)
  ⟨start, finish, role.label, role.direction == .both, false, none, []⟩

namespace Walker

open Walk WalkState

variable {σ : Type} (w : Walker σ) (keyOf : Ref → String)

/-- Everything that the relationship fields of an object refer to; nothing if its type is unknown. -/
def referencesOf (r : Ref) : List (RelationshipRole × Ref) :=
  match w.descriptor r with
  | .ok d => w.references r d
  | .error _ => []

/-- The node that a reference of `owner` leads to: the target, or the other end of a
relationship-object. -/
def beyond (owner target : Ref) : Option Ref :=
  match w.descriptor target with
  | .error _ => none
  | .ok d =>
      if d.isObject then
        match w.endsOf target d with
        | .error _ => none
        | .ok (start, finish) =>
            ((opposite d owner (keyOf owner) start finish (keyOf start)
              (keyOf finish)).toOption).map (·.1)
      else some target

/-- What a walk that came from `came` does about one reference of `owner`; `onward` is what it does
from the node that the reference leads to. -/
def detour (onward : Ref → Option String → List Move) (came : Option String) (owner : Ref)
    (reference : RelationshipRole × Ref) : List Move :=
  .follow owner reference.1 reference.2 ::
    match w.beyond keyOf owner reference.2 with
    | none => []
    | some next =>
        if came = some (keyOf next) ∨ keyOf next = keyOf owner then []
        else onward next (some (keyOf owner))

/-- Everything that a walk from a node does, in order. -/
def trail : Nat → Ref → Option String → List Move
  | 0, r, _ => [.enter r]
  | hops + 1, r, came =>
      .enter r :: (w.referencesOf r).flatMap (w.detour keyOf (trail hops) came r)

/-- What one thing that a walk does makes of its state. -/
inductive Moves : Move → WalkState → WalkState → Prop
  | enter {r : Ref} {d : TypeDescriptor} {i : Identity} {s u t : WalkState}
      (hType : w.descriptor r = .ok d) (hNode : d.isObject = false)
      (hIdentify : Gives (w.identify r d) s i u) (hKey : i.key = keyOf r)
      (hRecord : Gives (w.recordNode r d i) u () t) :
      Moves (.enter r) s t
  | plain {owner target : Ref} {role : RelationshipRole} {d : TypeDescriptor} {i : Identity}
      {s u t : WalkState}
      (hType : w.descriptor target = .ok d) (hNode : d.isObject = false)
      (hIdentify : Gives (w.identify target d) s i u) (hKey : i.key = keyOf target)
      (hRecord : Gives (recordEdge (plainEdge role (keyOf owner) (keyOf target))) u () t) :
      Moves (.follow owner role target) s t
  | object {owner target start finish : Ref} {role : RelationshipRole}
      {d dStart dFinish : TypeDescriptor} {i j : Identity} {other : Ref × String}
      {s u v t : WalkState}
      (hType : w.descriptor target = .ok d) (hObject : d.isObject = true)
      (hEnds : w.endsOf target d = .ok (start, finish))
      (hStartType : w.descriptor start = .ok dStart)
      (hStart : Gives (w.identify start dStart) s i u) (hStartKey : i.key = keyOf start)
      (hFinishType : w.descriptor finish = .ok dFinish)
      (hFinish : Gives (w.identify finish dFinish) u j v) (hFinishKey : j.key = keyOf finish)
      (hOpposite : opposite d owner (keyOf owner) start finish (keyOf start) (keyOf finish) =
        .ok other)
      (hRecord : Gives (w.recordObject target d role.label (keyOf start) (keyOf finish)) v () t) :
      Moves (.follow owner role target) s t

/-- What several things in a row make of the state of a walk. -/
inductive Takes : List Move → WalkState → WalkState → Prop
  | nil (s : WalkState) : Takes [] s s
  | cons {m : Move} {ms : List Move} {s t u : WalkState} :
      w.Moves keyOf m s t → Takes ms t u → Takes (m :: ms) s u

variable {w keyOf} {s t u : WalkState}

theorem Takes.append {ms ns : List Move} (h : w.Takes keyOf ms s t) (h' : w.Takes keyOf ns t u) :
    w.Takes keyOf (ms ++ ns) s u := by
  induction h with
  | nil s => exact h'
  | cons hMove _ ih => exact .cons hMove (ih h')

/-- A property of what was done and the state holds after a walk if every single move keeps it. -/
theorem Takes.invariant {P : List Move → WalkState → Prop}
    (hStep : ∀ ms m s t, P ms s → w.Moves keyOf m s t → P (ms ++ [m]) t) {ms done : List Move}
    (h : w.Takes keyOf ms s t) (hDone : P done s) : P (done ++ ms) t := by
  induction h generalizing done with
  | nil s =>
      rw [List.append_nil]
      exact hDone
  | @cons m ms s t u hMove _ ih =>
      have hNext : P (done ++ [m]) t := hStep done m s t hDone hMove
      have hAll := ih hNext
      rw [List.append_assoc] at hAll
      exact hAll

theorem recordNode_remembers {r : Ref} {d : TypeDescriptor} {i : Identity}
    (h : Gives (w.recordNode r d i) s () t) : Remembers s t := by
  obtain ⟨-, rfl⟩ | ⟨params, -, -, rfl⟩ := recordNode_iff.1 h
  · exact .refl t
  · exact .of_eq rfl

theorem recordEdge_remembers {e : PlannedEdge} (h : Gives (recordEdge e) s () t) :
    Remembers s t := by
  obtain ⟨-, rfl⟩ | ⟨-, rfl⟩ := recordEdge_iff.1 h
  · exact .refl t
  · exact .of_eq rfl

theorem recordObject_remembers {r : Ref} {d : TypeDescriptor} {label start finish : String}
    (h : Gives (w.recordObject r d label start finish) s () t) : Remembers s t := by
  obtain ⟨-, rfl⟩ | ⟨key, params, v, -, hKey, -, rfl⟩ := recordObject_iff.1 h
  · exact .refl t
  · exact .of_eq (objectKey_sameRecords hKey).2

/-- A walk to `r` by `visit` does what `onward` says. -/
def Describes (w : Walker σ) (visit : Ref → Option String → Walk Unit)
    (onward : (Ref → String) → Ref → Option String → List Move) : Prop :=
  ∀ r came s t, Gives (visit r came) s () t → Remembers s t ∧
    ∀ keyOf, t.Agrees keyOf → w.Takes keyOf (onward keyOf r came) s t

/-- Going on at a node that was just reached, unless the walk turns back. -/
theorem onward_takes {visit : Ref → Option String → Walk Unit}
    {onward : (Ref → String) → Ref → Option String → List Move} (hVisit : w.Describes visit onward)
    {came : Option String} {next : Ref} {nextKey ownerKey : String}
    (h : Gives (if came = some nextKey ∨ nextKey = ownerKey then pure ()
      else visit next (some ownerKey)) s () t) :
    Remembers s t ∧ ∀ keyOf, t.Agrees keyOf →
      w.Takes keyOf (if came = some nextKey ∨ nextKey = ownerKey then []
        else onward keyOf next (some ownerKey)) s t := by
  split at h
  · rename_i hBack
    obtain ⟨-, rfl⟩ := gives_pure.1 h
    refine ⟨.refl t, fun keyOf _ => ?_⟩
    rw [if_pos hBack]
    exact .nil t
  · rename_i hOn
    obtain ⟨hRemembers, hTakes⟩ := hVisit _ _ _ _ h
    refine ⟨hRemembers, fun keyOf hAgrees => ?_⟩
    rw [if_neg hOn]
    exact hTakes keyOf hAgrees

theorem opposite_key {d : TypeDescriptor} {owner start finish : Ref} {ownerKey : String}
    {other : Ref × String}
    (h : opposite d owner ownerKey start finish (keyOf start) (keyOf finish) = .ok other) :
    other.2 = keyOf other.1 := by
  unfold opposite at h
  split at h
  · cases h
    rfl
  · split at h
    · cases h
      rfl
    · cases h

/-- A reference to a node leads there. -/
theorem beyond_of_node {owner target : Ref} {d : TypeDescriptor} (hType : w.descriptor target = .ok d)
    (hNode : d.isObject = false) : w.beyond keyOf owner target = some target := by
  simp only [beyond, hType, hNode, Bool.false_eq_true, if_false]

/-- A reference to a relationship-object leads to its other end. -/
theorem beyond_of_object {owner target start finish : Ref} {d : TypeDescriptor} {other : Ref × String}
    (hType : w.descriptor target = .ok d) (hObject : d.isObject = true)
    (hEnds : w.endsOf target d = .ok (start, finish))
    (hOpposite : opposite d owner (keyOf owner) start finish (keyOf start) (keyOf finish) = .ok other) :
    w.beyond keyOf owner target = some other.1 := by
  simp only [beyond, hType, hObject, if_true, hEnds, hOpposite]
  rfl

theorem followNode_takes {visit : Ref → Option String → Walk Unit}
    {onward : (Ref → String) → Ref → Option String → List Move} (hVisit : w.Describes visit onward)
    {owner target : Ref} {ownerKey : String} {role : RelationshipRole} {d : TypeDescriptor}
    {came : Option String} (hType : w.descriptor target = .ok d) (hNode : d.isObject = false)
    (h : Gives (w.followNode visit ownerKey role target d came) s () t) :
    Remembers s t ∧ ∀ keyOf, t.Agrees keyOf → keyOf owner = ownerKey →
      w.Takes keyOf (w.detour keyOf (onward keyOf) came owner (role, target)) s t := by
  simp only [followNode, gives_bind] at h
  obtain ⟨i, u, hIdentify, _, v, hRecord, hOn⟩ := h
  obtain ⟨-, hFirst, hKnown⟩ := identify_keeps hIdentify
  have hSecond : Remembers u v := recordEdge_remembers hRecord
  obtain ⟨hThird, hTakes⟩ := onward_takes hVisit hOn
  refine ⟨(hFirst.trans hSecond).trans hThird, fun keyOf hAgrees hOwner => ?_⟩
  -- What was given on the way is still there at the end, when `keyOf` is read off.
  have hKey : i.key = keyOf target := hAgrees target i (hThird _ _ (hSecond _ _ hKnown))
  have hBeyond : w.beyond keyOf owner target = some target := beyond_of_node hType hNode
  have hRest := hTakes keyOf hAgrees
  subst hOwner
  rw [hKey] at hRecord hRest
  simp only [detour, hBeyond]
  exact .cons (.plain hType hNode hIdentify hKey hRecord) hRest

theorem followObject_takes {visit : Ref → Option String → Walk Unit}
    {onward : (Ref → String) → Ref → Option String → List Move} (hVisit : w.Describes visit onward)
    {owner target : Ref} {ownerKey : String} {role : RelationshipRole} {d : TypeDescriptor}
    {came : Option String} (hType : w.descriptor target = .ok d) (hObject : d.isObject = true)
    (h : Gives (w.followObject visit owner ownerKey role.label target d came) s () t) :
    Remembers s t ∧ ∀ keyOf, t.Agrees keyOf → keyOf owner = ownerKey →
      w.Takes keyOf (w.detour keyOf (onward keyOf) came owner (role, target)) s t := by
  simp only [followObject, gives_bind, gives_liftM] at h
  obtain ⟨⟨start, finish⟩, _, ⟨hEnds, rfl⟩, dStart, _, ⟨hStartType, rfl⟩, i, u, hStart, dFinish, _,
    ⟨hFinishType, rfl⟩, j, v, hFinish, other, _, ⟨hOpposite, rfl⟩, _, x, hRecord, hOn⟩ := h
  obtain ⟨-, hFirst, hStartKnown⟩ := identify_keeps hStart
  obtain ⟨-, hSecond, hFinishKnown⟩ := identify_keeps hFinish
  have hThird : Remembers _ x := recordObject_remembers hRecord
  obtain ⟨hFourth, hTakes⟩ := onward_takes hVisit hOn
  have hLate : Remembers _ t := hThird.trans hFourth
  refine ⟨hFirst.trans (hSecond.trans hLate), fun keyOf hAgrees hOwner => ?_⟩
  have hStartKey : i.key = keyOf start := hAgrees start i (hLate _ _ (hSecond _ _ hStartKnown))
  have hFinishKey : j.key = keyOf finish := hAgrees finish j (hLate _ _ hFinishKnown)
  have hRest := hTakes keyOf hAgrees
  subst hOwner
  rw [hStartKey, hFinishKey] at hOpposite hRecord
  have hOther : other.2 = keyOf other.1 := opposite_key hOpposite
  have hBeyond : w.beyond keyOf owner target = some other.1 :=
    beyond_of_object hType hObject hEnds hOpposite
  rw [hOther] at hRest
  simp only [detour, hBeyond]
  exact .cons (.object hType hObject hEnds hStartType hStart hStartKey hFinishType hFinish
    hFinishKey hOpposite hRecord) hRest

theorem follow_takes {visit : Ref → Option String → Walk Unit}
    {onward : (Ref → String) → Ref → Option String → List Move} (hVisit : w.Describes visit onward)
    {owner target : Ref} {ownerKey : String} {role : RelationshipRole} {came : Option String}
    (h : Gives (w.follow visit owner ownerKey came role target) s () t) :
    Remembers s t ∧ ∀ keyOf, t.Agrees keyOf → keyOf owner = ownerKey →
      w.Takes keyOf (w.detour keyOf (onward keyOf) came owner (role, target)) s t := by
  simp only [follow, gives_bind, gives_liftM] at h
  obtain ⟨d, _, ⟨hType, rfl⟩, h⟩ := h
  split at h
  · rename_i hObject
    exact followObject_takes hVisit hType hObject h
  · rename_i hNode
    exact followNode_takes hVisit hType (eq_false_of_ne_true hNode) h

/-- All references of a node, one after the other. -/
theorem references_takes {visit : Ref → Option String → Walk Unit}
    {onward : (Ref → String) → Ref → Option String → List Move} (hVisit : w.Describes visit onward)
    {owner : Ref} {ownerKey : String} {came : Option String}
    (references : List (RelationshipRole × Ref)) {s : WalkState}
    (h : Gives (references.forM fun (role, target) =>
      w.follow visit owner ownerKey came role target) s () t) :
    Remembers s t ∧ ∀ keyOf, t.Agrees keyOf → keyOf owner = ownerKey →
      w.Takes keyOf (references.flatMap (w.detour keyOf (onward keyOf) came owner)) s t := by
  induction references generalizing s with
  | nil =>
      obtain rfl := gives_forM_nil.1 h
      exact ⟨.refl t, fun _ _ _ => .nil t⟩
  | cons reference rest ih =>
      obtain ⟨u, hHere, hRest⟩ := gives_forM_cons.1 h
      obtain ⟨hFirst, hTakes⟩ := follow_takes hVisit hHere
      obtain ⟨hSecond, hTakesRest⟩ := ih hRest
      refine ⟨hFirst.trans hSecond, fun keyOf hAgrees hOwner => ?_⟩
      rw [List.flatMap_cons]
      exact (hTakes keyOf (hAgrees.before hSecond) hOwner).append (hTakesRest keyOf hAgrees hOwner)

/-- Entering a node gives its key as the walk will know it. -/
theorem enter_takes {r : Ref} {d : TypeDescriptor} {key : String}
    (h : Gives (w.enter r) s (d, key) t) :
    w.descriptor r = .ok d ∧ Remembers s t ∧
      ∀ keyOf, t.Agrees keyOf → keyOf r = key ∧ w.Moves keyOf (.enter r) s t := by
  obtain ⟨d', i, u, hFound, hType, hNode, hIdentify, hRecord⟩ := enter_cases h
  cases hFound
  obtain ⟨-, hFirst, hKnown⟩ := identify_keeps hIdentify
  have hSecond : Remembers u t := recordNode_remembers hRecord
  refine ⟨hType, hFirst.trans hSecond, fun keyOf hAgrees => ?_⟩
  have hKey : i.key = keyOf r := hAgrees r i (hSecond _ _ hKnown)
  exact ⟨hKey.symm, .enter hType hNode hIdentify hKey hRecord⟩

/-- A successful walk forgets no identity and does just what stands in its trail. -/
theorem visit_takes (w : Walker σ) (hops : Nat) :
    w.Describes (w.visit hops) fun keyOf => w.trail keyOf hops := by
  -- On the hops left: the visits from the references have one hop less.
  induction hops with
  | zero =>
      intro r came s t h
      rw [visit, gives_bind] at h
      obtain ⟨⟨d, key⟩, u, hEnter, h⟩ := h
      obtain ⟨-, rfl⟩ := gives_pure.1 h
      obtain ⟨-, hRemembers, hMove⟩ := enter_takes hEnter
      exact ⟨hRemembers, fun keyOf hAgrees => .cons (hMove keyOf hAgrees).2 (.nil t)⟩
  | succ hops ih =>
      intro r came s t h
      rw [visit, gives_bind] at h
      obtain ⟨⟨d, key⟩, u, hEnter, h⟩ := h
      obtain ⟨hType, hFirst, hMove⟩ := enter_takes hEnter
      obtain ⟨hSecond, hTakes⟩ := references_takes ih (w.references r d) h
      refine ⟨hFirst.trans hSecond, fun keyOf hAgrees => ?_⟩
      obtain ⟨hKey, hMove⟩ := hMove keyOf (hAgrees.before hSecond)
      have hRefs : w.referencesOf r = w.references r d := by
        simp only [referencesOf, hType]
      change w.Takes keyOf (w.trail keyOf (hops + 1) r came) s t
      rw [trail, hRefs]
      exact .cons hMove (hTakes keyOf hAgrees hKey)

end Walker

end GraphMapping

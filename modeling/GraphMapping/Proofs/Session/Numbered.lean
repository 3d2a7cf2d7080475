import GraphMapping.Proofs.Session.Handed
import GraphMapping.Proofs.Walk.Merged
import GraphMapping.Proofs.Walk.Plain

/-!
# Nodes that the database has numbered

Where the database assigns keys, a new node goes by a temporary identity until it was saved; then its
object holds the database's number.  A later walk over the objects finds a number or an older key in
every one of them, so that no node is new to it.
-/

namespace GraphMapping

/-- A later key is the one from before, or the number that was given to it. -/
def GraphIds.Renames (ids : GraphIds) (key key' : String) : Prop :=
  key' = key ∨ ∃ id, ids.find? key = some id ∧ key' = toString id.toInt

/-- A later plan plans what the plan before did, under the numbers that were given since: its nodes are
none but those of that plan and not new, and its plain relationships join nodes that a relationship of
the same type has joined. -/
structure Plan.Renumbered (ids : GraphIds) (p p' : Plan) : Prop where
  nodes : ∀ n' ∈ p'.allNodes, n'.isNew = false ∧ ∃ n ∈ p.allNodes, n.label = n'.label ∧
    (n'.identity = n.identity ∨ ∃ id, ids.find? n.identity = some id ∧ n'.nativeId = some id)
  edges : ∀ e' ∈ p'.allEdges, e'.object = false →
    ∃ e ∈ p.allEdges, e.object = false ∧ e.label = e'.label ∧
      ((ids.Renames e.start e'.start ∧ ids.Renames e.finish e'.finish) ∨
        (ids.Renames e.start e'.finish ∧ ids.Renames e.finish e'.start))

/-- The digits of a number are read as the number. -/
theorem readDigits (n : Nat) : (Nat.toDigits 10 n).isEmpty = false ∧
    (Nat.toDigits 10 n).all Char.isDigit = true ∧ Nat.ofDigitChars 10 (Nat.toDigits 10 n) 0 = n := by
  refine ⟨?_, ?_, Nat.ofDigitChars_toDigits (by decide) (by decide)⟩
  · rw [List.isEmpty_eq_false_iff]
    exact Nat.toDigits_ne_nil
  · rw [List.all_eq_true]
    exact fun c hc => Nat.isDigit_of_mem_toDigits (by decide) (by decide) hc

/-- The decimal text of a number is read as the number. -/
theorem readInt64_toString (n : Int64) : readInt64 (toString n.toInt) = some n := by
  have hLower := n.le_toInt
  have hUpper := n.toInt_lt
  have hBack : Int64.ofInt n.toInt = n := Int64.ofInt_toInt n
  generalize n.toInt = i at hLower hUpper hBack
  subst hBack
  rcases i with m | m
  · obtain ⟨hSome, hDigits, hRead⟩ := readDigits m
    have hText : (toString (Int.ofNat m)).toList = Nat.toDigits 10 m := by
      change (toString m).toList = _
      rw [Nat.toString_eq_ofList_toDigits, String.toList_ofList]
    unfold readInt64
    rw [hText]
    dsimp only
    -- No digit is a sign.
    split
    · rename_i digits hSign
      rw [hSign] at hDigits
      simp at hDigits
    · rename_i digits hSign
      rw [hSign] at hDigits
      simp at hDigits
    · simp only [hSome, hDigits, hRead, Bool.not_true, Bool.or_false, Bool.false_eq_true, if_false]
      have hOf : Int.ofNat m = (m : Int) := rfl
      rw [hOf] at hLower hUpper ⊢
      rw [if_pos (by omega), Int.one_mul]
  · obtain ⟨hSome, hDigits, hRead⟩ := readDigits (m + 1)
    have hText : (toString (Int.negSucc m)).toList = '-' :: Nat.toDigits 10 (m + 1) := by
      change ("-" ++ toString (m + 1)).toList = _
      simp [String.toList_append]
    unfold readInt64
    rw [hText]
    simp only [hSome, hDigits, hRead, Bool.not_true, Bool.or_false, Bool.false_eq_true, if_false]
    have hNegative : -1 * ((m + 1 : Nat) : Int) = Int.negSucc m := by omega
    rw [hNegative, if_pos (by omega)]

/-- A key has a text. -/
theorem Value.key?_ne_empty {v : Value} {key : String} (h : v.key? = some key) : key ≠ "" := by
  cases v with
  | string text =>
      rw [key?_string] at h
      split at h
      · cases h
      · rename_i hSome
        cases h
        exact hSome
  | int n =>
      cases h
      intro hEmpty
      have hRead := readInt64_toString n
      rw [hEmpty] at hRead
      cases hRead
  | _ => cases h

/-- The ends of a plain relationship go with the keys of its owner and its target. -/
theorem plainEdge_related {R : String → String → Prop} (role : RelationshipRole)
    {owner target owner' target' : String} (hOwner : R owner owner') (hTarget : R target target') :
    R (plainEdge role owner target).start (plainEdge role owner' target').start ∧
      R (plainEdge role owner target).finish (plainEdge role owner' target').finish := by
  unfold plainEdge
  cases role.direction
  · exact ⟨hTarget, hOwner⟩
  · exact ⟨hOwner, hTarget⟩
  · exact ⟨hOwner, hTarget⟩

namespace Walker

open Walk WalkState

variable {σ : Type} (w : Walker σ)

/-- No object that the walk identifies holds a key that could be a temporary identity. -/
def NoneTemporary (root : Ref) (depth taken : Nat) : Prop :=
  ∀ r d pk (n : Nat), w.identityOf root depth taken r ≠ none → w.descriptor r = .ok d →
    d.key? = some pk →
    (w.heap.value w.model r pk.field).key? ≠ some (temporaryFront ++ toString n)

/-- What an object holds in a later heap: the key that was its identity, or the number that was given to
its temporary one. -/
def HoldsNumber (later : Heap σ) (ids : GraphIds) (r : Ref) (i : Identity) : Prop :=
  ∃ d pk, w.descriptor r = .ok d ∧ d.key? = some pk ∧
    ((i.isNew = false ∧ (later.value w.model r pk.field).key? = some i.key) ∨
      (i.isNew = true ∧ ∃ id, ids.find? i.key = some id ∧
        later.value w.model r pk.field = .int id))

variable {w} {root r q : Ref} {depth taken after taken' after' : Nat} {p p' : Plan}
  {s s' : WalkState} {ids : GraphIds} {keys : List AssignedKey} {later : Heap σ} {i j i' : Identity}

theorem identityOf_ne_none (hFinished : w.Finished root depth taken p s) :
    w.identityOf root depth taken r ≠ none ↔ Identified s r := by
  rw [hFinished.identity, Option.ne_none_iff_exists', Identified]
  constructor
  · rintro ⟨key, hKey⟩
    obtain ⟨i, hi, -⟩ := Option.map_eq_some_iff.1 hKey
    exact ⟨i, hi⟩
  · rintro ⟨i, hi⟩
    exact ⟨i.key, by rw [hi]; rfl⟩

/-- No planned node goes by the empty text. -/
theorem identity_ne_empty (hFinished : w.Finished root depth taken p s)
    (hIdentities : w.IdentityRecords (w.trail (w.givenKey root depth taken) depth root none) s)
    {n : PlannedNode} (hn : n ∈ p.allNodes) : n.identity ≠ "" := by
  obtain ⟨-, -, -, hGiven⟩ := planned_node hFinished hn
  rw [hFinished.identity] at hGiven
  obtain ⟨i, hi, hKey⟩ := Option.map_eq_some_iff.1 hGiven
  rw [← hKey]
  cases hIdentities.origin n.ref i hi with
  | held _ _ hHeld => exact Value.key?_ne_empty hHeld
  | generated _ _ _ _ hOwn => exact Value.key?_ne_empty hOwn
  | temporary _ _ _ _ =>
      intro hEmpty
      have hText := congrArg String.toList hEmpty
      rw [String.toList_append] at hText
      cases hText

section

variable (hFinished : w.Finished root depth taken p s)
  (hIdentities : w.IdentityRecords (w.trail (w.givenKey root depth taken) depth root none) s)
  (hNative : w.registry.strategy.isNative = true) (hTemporary : w.NoneTemporary root depth taken)

include hFinished hIdentities hNative

omit hFinished in
/-- Where the database assigns keys a new identity is a temporary one. -/
theorem temporary_of_new (hi : s.identities.lookup r = some i) (hNew : i.isNew = true) :
    i.generated = none ∧ ∃ n : Nat, i.key = temporaryFront ++ toString n := by
  have hNone : i.generated = none := by
    cases hIdentities.origin r i hi with
    | held _ _ _ => rfl
    | temporary _ _ _ _ => rfl
    | generated _ _ _ hNo _ =>
        rw [hNative] at hNo
        cases hNo
  obtain ⟨n, -, hKey⟩ := hIdentities.temporary r i hi hNew hNone
  exact ⟨hNone, n, hKey⟩

include hTemporary

/-- An object with a temporary identity shares it with no other object. -/
theorem eq_of_temporary (hi : s.identities.lookup r = some i) (hj : s.identities.lookup q = some j)
    (hNew : i.isNew = true) (hKey : j.key = i.key) : q = r ∧ j.isNew = true := by
  obtain ⟨hNone, n, hNumber⟩ := temporary_of_new hIdentities hNative hi hNew
  have hOther : j.isNew = true := by
    cases hIdentities.origin q j hj with
    | @held d pk key hType hPk hHeld =>
        have hKnown : w.identityOf root depth taken q ≠ none :=
          (identityOf_ne_none hFinished).2 ⟨_, hj⟩
        exact absurd (hHeld.trans (congrArg some (hKey.trans hNumber)))
          (hTemporary q d pk n hKnown hType hPk)
    | temporary _ _ _ _ => rfl
    | generated _ _ _ _ _ => rfl
  obtain ⟨hNone', -⟩ := temporary_of_new hIdentities hNative hj hOther
  exact ⟨hIdentities.apart q r j i hj hi hOther hNew hNone' hNone hKey, hOther⟩

/-- A new object is planned as itself. -/
theorem planned_of_new (hi : s.identities.lookup r = some i) (hNew : i.isNew = true) :
    ∃ n ∈ p.allNodes, n.ref = r ∧ n.isNew = true ∧ n.identity = i.key := by
  obtain ⟨n, hn, hIdentity⟩ := placed_of_identified hFinished hIdentities ⟨i, hi⟩
  rw [hFinished.given hi] at hIdentity
  have hn' := hn
  rw [← hFinished.plan] at hn'
  obtain ⟨-, d, j, params, -, hj, -, hPlanned⟩ := hFinished.recorded.nodes.planned n hn'
  have hKey : j.key = n.identity := by
    rw [hPlanned]
    rfl
  obtain ⟨hSame, hOther⟩ := eq_of_temporary hFinished hIdentities hNative hTemporary hi hj hNew
    (hKey.trans hIdentity)
  refine ⟨n, hn, hSame, ?_, hIdentity⟩
  rw [hPlanned]
  exact hOther

/-- After the save every object that the walk has identified holds a key. -/
theorem holdsNumber_of_identified (hChosen : p.keysToHand w.registry ids w.heap = some keys)
    (hResumes : w.Resumes later keys False) (hi : s.identities.lookup r = some i) :
    w.HoldsNumber later ids r i := by
  cases hNew : i.isNew with
  | false =>
      cases hIdentities.origin r i hi with
      | @held d pk key hType hPk hHeld =>
          refine ⟨d, pk, hType, hPk, .inl ⟨rfl, ?_⟩⟩
          rw [hResumes.held r d pk hType hPk (by rw [hHeld]; rfl)]
          exact hHeld
      | temporary _ _ _ _ => cases hNew
      | generated _ _ _ _ _ => cases hNew
  | true =>
      obtain ⟨n, hn, rfl, hNewNode, hIdentity⟩ :=
        planned_of_new hFinished hIdentities hNative hTemporary hi hNew
      unfold Plan.keysToHand at hChosen
      rw [if_pos hNative] at hChosen
      obtain ⟨numbers, hNumbers, rfl⟩ := Option.map_eq_some_iff.1 hChosen
      obtain ⟨id, d, hId, hType, hKeys⟩ :=
        (mem_numberKeys hNumbers).2 n (List.mem_filter.2 ⟨hn, hNewNode⟩)
      obtain ⟨pk, hPk⟩ : ∃ pk, d.key? = some pk := by
        cases hIdentities.origin n.ref i hi with
        | held hType' hPk _ => exact ⟨_, ok_unique hType' hType ▸ hPk⟩
        | temporary hType' hPk _ _ => exact ⟨_, ok_unique hType' hType ▸ hPk⟩
        | generated hType' hPk _ _ _ => exact ⟨_, ok_unique hType' hType ▸ hPk⟩
      rw [hIdentity] at hId
      refine ⟨d, pk, hType, hPk, .inr ⟨hNew, id, hId, ?_⟩⟩
      exact (hResumes.given _ (List.mem_append_right _ (hKeys pk hPk))).2

end

/-- A later walk takes the key that an object holds then for its identity. -/
theorem identity_of_holdsNumber (hResumes : w.Resumes later keys False)
    {moves : List Move} (hIdentities' : (w.on later).IdentityRecords moves s')
    (hHolds : w.HoldsNumber later ids r i) (hi' : s'.identities.lookup r = some i') :
    i'.isNew = false ∧ ((i.isNew = false ∧ i'.key = i.key) ∨
      (i.isNew = true ∧ ∃ id, ids.find? i.key = some id ∧ i'.key = toString id.toInt)) := by
  obtain ⟨d, pk, hType, hPk, hHolds⟩ := hHolds
  have hSome : ∃ key, (later.value w.model r pk.field).key? = some key := by
    rcases hHolds with ⟨-, hKey⟩ | ⟨-, id, -, hValue⟩
    · exact ⟨i.key, hKey⟩
    · exact ⟨_, by rw [hValue]; rfl⟩
  have hSame : ∀ {d' pk'}, (w.on later).descriptor r = .ok d' → d'.key? = some pk' → pk' = pk := by
    intro d' pk' hType' hPk'
    rw [on_descriptor hResumes] at hType'
    cases ok_unique hType hType'
    exact (Option.some.inj (hPk.symm.trans hPk')).symm
  obtain ⟨key, hKey⟩ := hSome
  cases hIdentities'.origin r i' hi' with
  | @held d' pk' key' hType' hPk' hHeld =>
      obtain rfl := hSame hType' hPk'
      have hHeld : (later.value w.model r pk'.field).key? = some key' := hHeld
      refine ⟨rfl, hHolds.imp ?_ ?_⟩
      · rintro ⟨hOld, hOwn⟩
        exact ⟨hOld, Option.some.inj (hHeld.symm.trans hOwn)⟩
      · rintro ⟨hNew, id, hId, hValue⟩
        refine ⟨hNew, id, hId, ?_⟩
        rw [hValue] at hHeld
        exact (Option.some.inj hHeld).symm
  | @temporary d' pk' n hType' hPk' hNone _ =>
      obtain rfl := hSame hType' hPk'
      have hNone : (later.value w.model r pk'.field).key? = none := hNone
      rw [hKey] at hNone
      cases hNone
  | @generated d' pk' v key' hType' hPk' hNone _ _ =>
      obtain rfl := hSame hType' hPk'
      have hNone : (later.value w.model r pk'.field).key? = none := hNone
      rw [hKey] at hNone
      cases hNone

section

variable (hFinished : w.Finished root depth taken p s)
  (hFinished' : (w.on later).Finished root depth taken' p' s')
  (hResumes : w.Resumes later keys False)
  (hLater : ∀ r i i', s.identities.lookup r = some i → s'.identities.lookup r = some i' →
    i'.isNew = false ∧ ((i.isNew = false ∧ i'.key = i.key) ∨
      (i.isNew = true ∧ ∃ id, ids.find? i.key = some id ∧ i'.key = toString id.toInt)))

include hFinished hFinished' hLater

theorem renames_of_identified (h : Identified s r) (h' : Identified s' r) :
    ids.Renames (w.givenKey root depth taken r) ((w.on later).givenKey root depth taken' r) := by
  obtain ⟨i, hi⟩ := h
  obtain ⟨i', hi'⟩ := h'
  rw [hFinished.given hi, hFinished'.given hi']
  exact (hLater r i i' hi hi').2.imp And.right And.right

/-- Objects with one key before have one key later. -/
theorem merges_of_numbered
    (hIdentities : w.IdentityRecords (w.trail (w.givenKey root depth taken) depth root none) s)
    (hNative : w.registry.strategy.isNative = true) (hTemporary : w.NoneTemporary root depth taken) :
    Merges root depth w (w.on later) taken taken' := by
  intro q r hq hr hq' hr' hKey
  obtain ⟨i, hi⟩ := (identityOf_ne_none hFinished).1 hq
  obtain ⟨j, hj⟩ := (identityOf_ne_none hFinished).1 hr
  obtain ⟨i', hi'⟩ := (identityOf_ne_none hFinished').1 hq'
  obtain ⟨j', hj'⟩ := (identityOf_ne_none hFinished').1 hr'
  rw [hFinished.identity, hFinished.identity, hi, hj] at hKey
  have hKey : i.key = j.key := Option.some.inj hKey
  rw [hFinished'.identity, hFinished'.identity]
  -- Two temporary identities are of one object, a temporary and a held one are never the same.
  cases hNew : i.isNew with
  | true =>
      obtain ⟨rfl, -⟩ := eq_of_temporary hFinished hIdentities hNative hTemporary hi hj hNew hKey.symm
      rfl
  | false =>
      cases hNew' : j.isNew with
      | true =>
          obtain ⟨rfl, -⟩ := eq_of_temporary hFinished hIdentities hNative hTemporary hj hi hNew' hKey
          rfl
      | false =>
          rcases (hLater q i i' hi hi').2 with ⟨-, hOwn⟩ | ⟨hNo, -⟩
          · rcases (hLater r j j' hj hj').2 with ⟨-, hOwn'⟩ | ⟨hNo, -⟩
            · rw [hi', hj']
              exact congrArg some (hOwn.trans (hKey.trans hOwn'.symm))
            · rw [hNew'] at hNo
              cases hNo
          · rw [hNew] at hNo
            cases hNo

include hResumes

/-- The later walk plans a node for what it enters, as the first walk did. -/
theorem renumbered_nodes (hMerges : Merges root depth w (w.on later) taken taken') :
    ∀ n' ∈ p'.allNodes, n'.isNew = false ∧ ∃ n ∈ p.allNodes, n.label = n'.label ∧
      (n'.identity = n.identity ∨
        ∃ id, ids.find? n.identity = some id ∧ n'.nativeId = some id) := by
  intro n' hn'
  rw [← hFinished'.plan] at hn'
  obtain ⟨hEnter, d', i', params, hNode', hi', -, hPlanned⟩ :=
    hFinished'.recorded.nodes.planned n' hn'
  have hEntered := entered_merged hResumes hFinished hFinished' hMerges hEnter
  obtain ⟨⟨i, hi⟩, d, hNode, n, hn, hLabel, hIdentity⟩ :=
    hFinished.recorded.nodes.entered n'.ref hEntered
  obtain ⟨hKnown, hCases⟩ := hLater n'.ref i i' hi hi'
  rw [hFinished.plan] at hn
  have hType' : w.descriptor n'.ref = .ok d' := (on_descriptor hResumes n'.ref).symm.trans hNode'.1
  have hNew : n'.isNew = i'.isNew := by
    rw [hPlanned]
    rfl
  have hKey : n'.identity = i'.key := by
    rw [hPlanned]
    rfl
  have hLabel' : n'.label = d'.label := by
    rw [hPlanned]
    rfl
  have hGiven : n.identity = i.key := hIdentity.trans (hFinished.given hi)
  refine ⟨hNew.trans hKnown, n, hn, ?_, ?_⟩
  · rw [hLabel, hLabel', ok_unique hNode.1 hType']
  · rw [hGiven]
    rcases hCases with ⟨-, hOwn⟩ | ⟨-, id, hId, hNumber⟩
    · exact .inl (hKey.trans hOwn)
    · refine .inr ⟨id, hId, ?_⟩
      unfold PlannedNode.nativeId
      rw [hNew, hKnown, hKey, hNumber]
      exact readInt64_toString id

/-- The later walk plans a plain relationship for a reference that the first walk has followed too. -/
theorem renumbered_edges (hMerges : Merges root depth w (w.on later) taken taken') :
    ∀ e' ∈ p'.allEdges, e'.object = false →
      ∃ e ∈ p.allEdges, e.object = false ∧ e.label = e'.label ∧
        ((ids.Renames e.start e'.start ∧ ids.Renames e.finish e'.finish) ∨
          (ids.Renames e.start e'.finish ∧ ids.Renames e.finish e'.start)) := by
  intro e' he' hPlain
  rw [← hFinished'.plan] at he'
  obtain ⟨owner, role, target, d, hMove', hNode', hEdge'⟩ :=
    hFinished'.recorded.edges.planned e' he' hPlain
  obtain ⟨hReference, left, came', hVisit'⟩ := follow_mem_trail_iff.1 hMove'
  obtain ⟨came, hVisit, -⟩ := visits_merged hResumes hFinished hFinished' hMerges hVisit'
  rw [on_referencesOf hResumes] at hReference
  have hMove := follow_mem_trail_iff.2 ⟨hReference, left, came, hVisit⟩
  have hNode : w.NodeAs target d := ⟨(on_descriptor hResumes target).symm.trans hNode'.1, hNode'.2⟩
  obtain ⟨hTarget, hSeen⟩ := hFinished.recorded.edges.met owner role target d hMove hNode
  obtain ⟨hTarget', -⟩ := hFinished'.recorded.edges.met owner role target d hMove' hNode'
  obtain ⟨e, he, hObject, hMark⟩ := hFinished.recorded.edges.marked _ hSeen
  rw [hFinished.plan] at he
  obtain ⟨hLabel, hEnds⟩ := ends_of_edgeMark_eq hMark
  have hOwnerKey := renames_of_identified hFinished hFinished' hLater
    (identified_of_visit hFinished hVisit) (identified_of_visit hFinished' hVisit')
  have hTargetKey := renames_of_identified hFinished hFinished' hLater hTarget hTarget'
  have hBoth := plainEdge_related role hOwnerKey hTargetKey
  rw [← hEdge'] at hBoth
  -- Both are of the type of the reference.
  have hLabel' : e'.label = role.label := by
    rw [hEdge']
    rfl
  refine ⟨e, he, hObject, hLabel.trans hLabel'.symm, ?_⟩
  rcases hEnds with ⟨hStart, hFinish⟩ | ⟨hStart, hFinish⟩ <;> rw [hStart, hFinish]
  · exact .inl hBoth
  · exact .inr hBoth.symm

end

/-- After a save to a database that assigns keys, a later walk plans what was saved, under the numbers
that were given. -/
theorem make_numbered
    (hMade : Plan.make w.model w.registry w.heap root depth taken = (.ok p, after))
    (hMade' : Plan.make w.model w.registry later root depth taken' = (.ok p', after'))
    (hNative : w.registry.strategy.isNative = true) (hTemporary : w.NoneTemporary root depth taken)
    (hChosen : p.keysToHand w.registry ids w.heap = some keys)
    (hResumes : w.Resumes later keys False) : p.Renumbered ids p' := by
  obtain ⟨s, hPlan, -, hIdentity, hTakes⟩ := takes_of_make hMade
  obtain ⟨s', hPlan', -, hIdentity', hTakes'⟩ := takes_of_make (w := w.on later) hMade'
  have hFinished : w.Finished root depth taken p s := ⟨hPlan, hIdentity, .of_takes hTakes⟩
  have hFinished' : (w.on later).Finished root depth taken' p' s' :=
    ⟨hPlan', hIdentity', .of_takes hTakes'⟩
  have hIdentities := IdentityRecords.of_takes hTakes
  have hIdentities' := IdentityRecords.of_takes hTakes'
  have hLater : ∀ r i i', s.identities.lookup r = some i → s'.identities.lookup r = some i' →
      i'.isNew = false ∧ ((i.isNew = false ∧ i'.key = i.key) ∨
        (i.isNew = true ∧ ∃ id, ids.find? i.key = some id ∧ i'.key = toString id.toInt)) :=
    fun r i i' hi hi' => identity_of_holdsNumber hResumes hIdentities'
      (holdsNumber_of_identified hFinished hIdentities hNative hTemporary hChosen hResumes hi) hi'
  have hMerges := merges_of_numbered hFinished hFinished' hLater hIdentities hNative hTemporary
  exact ⟨renumbered_nodes hFinished hFinished' hResumes hLater hMerges,
    renumbered_edges hFinished hFinished' hResumes hLater hMerges⟩

end Walker

end GraphMapping

import GraphMapping.Proofs.Walk.Again
import GraphMapping.Proofs.Walk.Ball

/-!
# Walks whose keys fall together

Where the database assigns keys, an object has another key once it was saved, and two objects may then
have the same one.  A later walk to which objects look the same that looked the same before turns back
wherever the first walk did, and perhaps sooner: it visits no node that the first one did not visit.
-/

namespace GraphMapping

namespace Walker

open Walk WalkState

variable {σ : Type} {w : Walker σ} {later : Heap σ} {keys : List AssignedKey} {exact : Prop}

theorem on_referencesOf (hResumes : w.Resumes later keys exact) (r : Ref) :
    (w.on later).referencesOf r = w.referencesOf r := by
  unfold referencesOf
  simp only [on_descriptor hResumes, on_references hResumes]

/-- Whatever two objects both walks have identified, they have one key in the later walk if they had one
in the first. -/
def Merges (root : Ref) (depth : Nat) (w w' : Walker σ) (taken taken' : Nat) : Prop :=
  ∀ q r, w.identityOf root depth taken q ≠ none → w.identityOf root depth taken r ≠ none →
    w'.identityOf root depth taken' q ≠ none → w'.identityOf root depth taken' r ≠ none →
    w.identityOf root depth taken q = w.identityOf root depth taken r →
    w'.identityOf root depth taken' q = w'.identityOf root depth taken' r

section

variable {root r target next : Ref} {depth taken taken' hops : Nat} {p p' : Plan} {s s' : WalkState}
  {role : RelationshipRole} {came came' : Option String}

theorem Merges.givenKey {w w' : Walker σ} (h : Merges root depth w w' taken taken')
    (hFinished : w.Finished root depth taken p s) (hFinished' : w'.Finished root depth taken' p' s')
    (q r : Ref) (hq : Identified s q) (hr : Identified s r) (hq' : Identified s' q)
    (hr' : Identified s' r) (hKey : w.givenKey root depth taken q = w.givenKey root depth taken r) :
    w'.givenKey root depth taken' q = w'.givenKey root depth taken' r := by
  have hqKey := hFinished.identified_iff.1 hq
  have hrKey := hFinished.identified_iff.1 hr
  have hqKey' := hFinished'.identified_iff.1 hq'
  have hrKey' := hFinished'.identified_iff.1 hr'
  have hSame := h q r (by rw [hqKey]; simp) (by rw [hrKey]; simp) (by rw [hqKey']; simp)
    (by rw [hrKey']; simp) (by rw [hqKey, hrKey, hKey])
  rw [hqKey', hrKey'] at hSame
  exact Option.some.inj hSame

variable (hResumes : w.Resumes later keys exact) (hFinished : w.Finished root depth taken p s)
  (hFinished' : (w.on later).Finished root depth taken' p' s')
  (hMerges : Merges root depth w (w.on later) taken taken')

include hResumes hFinished hFinished' hMerges

/-- Where the later walk goes on to, the first one got to as well. -/
theorem beyond_merged
    (hVisit : w.Visits (w.givenKey root depth taken) depth root none (hops + 1) r came)
    (hVisit' : (w.on later).Visits ((w.on later).givenKey root depth taken') depth root none
      (hops + 1) r came')
    (hReference : (role, target) ∈ w.referencesOf r)
    (hBeyond : (w.on later).beyond ((w.on later).givenKey root depth taken') r target = some next)
    (hOn : (w.on later).givenKey root depth taken' next ≠ (w.on later).givenKey root depth taken' r) :
    w.beyond (w.givenKey root depth taken) r target = some next ∧ Identified s next ∧
      Identified s' next := by
  have hOwner : Identified s r := identified_of_visit hFinished hVisit
  have hOwner' : Identified s' r := identified_of_visit hFinished' hVisit'
  have hMove := follow_mem_trail_iff.2 ⟨hReference, hops, came, hVisit⟩
  have hMove' := follow_mem_trail_iff.2
    ⟨(on_referencesOf hResumes r).symm ▸ hReference, hops, came', hVisit'⟩
  rcases hFinished.recorded.objects.met r role target hMove with
    ⟨d, hNode⟩ | ⟨d, start, finish, other, hObject, -, hStart, hFinish, hOther⟩
  · have hNode' : (w.on later).NodeAs target d := ⟨(on_descriptor hResumes target).trans hNode.1, hNode.2⟩
    rw [beyond_of_node hNode'.1 hNode'.2] at hBeyond
    cases hBeyond
    exact ⟨beyond_of_node hNode.1 hNode.2, (hFinished.recorded.edges.met r role target d hMove hNode).1,
      (hFinished'.recorded.edges.met r role target d hMove' hNode').1⟩
  · have hObject' : (w.on later).ObjectAs target d start finish :=
      ⟨(on_descriptor hResumes target).trans hObject.1, hObject.2.1,
        (on_endsOf hResumes target d).trans hObject.2.2⟩
    obtain ⟨-, hStart', hFinish', -⟩ := met_of_object hFinished' hMove' hObject'
    have hSame := hMerges.givenKey hFinished hFinished'
    rcases hObject.beyond_iff.1 (beyond_of_object hObject.1 hObject.2.1 hObject.2.2 hOther) with
      ⟨hKey, -⟩ | ⟨hApart, hKey, -⟩
    · rcases hObject'.beyond_iff.1 hBeyond with ⟨-, rfl⟩ | ⟨hApart', -, -⟩
      · exact ⟨hObject.beyond_iff.2 (.inl ⟨hKey, rfl⟩), hFinish, hFinish'⟩
      · exact absurd (hSame start r hStart hOwner hStart' hOwner' hKey) hApart'
    · rcases hObject'.beyond_iff.1 hBeyond with ⟨-, rfl⟩ | ⟨-, -, rfl⟩
      · -- The later walk takes the start for the owner as well, but the end is the owner to it too.
        exact absurd (hSame finish r hFinish hOwner hFinish' hOwner' hKey) hOn
      · exact ⟨hObject.beyond_iff.2 (.inr ⟨hApart, hKey, rfl⟩), hStart, hStart'⟩

/-- Every visit of the later walk was made by the first one, which came from the same node. -/
theorem visits_merged (h : (w.on later).Visits ((w.on later).givenKey root depth taken') depth root none
    hops r came') :
    ∃ came, w.Visits (w.givenKey root depth taken) depth root none hops r came ∧
      ((came = none ∧ came' = none) ∨ ∃ q, Identified s q ∧ Identified s' q ∧
        came = some (w.givenKey root depth taken q) ∧
        came' = some ((w.on later).givenKey root depth taken' q)) := by
  -- On the visit: the node that both walks came from is the owner of the visit before.
  induction h with
  | root => exact ⟨none, .root, .inl ⟨rfl, rfl⟩⟩
  | @onward hops r target next came' role hVisit' hReference hBeyond hOn ih =>
      obtain ⟨came, hVisit, hCame⟩ := ih
      rw [on_referencesOf hResumes] at hReference
      obtain ⟨hBefore, hNext, hNext'⟩ := beyond_merged hResumes hFinished hFinished' hMerges hVisit
        hVisit' hReference hBeyond fun hStay => hOn (.inr hStay)
      have hOwner : Identified s r := identified_of_visit hFinished hVisit
      have hOwner' : Identified s' r := identified_of_visit hFinished' hVisit'
      have hSame := hMerges.givenKey hFinished hFinished'
      refine ⟨_, .onward hVisit hReference hBefore ?_, .inr ⟨r, hOwner, hOwner', rfl, rfl⟩⟩
      rintro (hBack | hStay)
      · rcases hCame with ⟨hNone, -⟩ | ⟨q, hq, hq', hFrom, hFrom'⟩
        · rw [hNone] at hBack
          cases hBack
        · rw [hFrom] at hBack
          refine hOn (.inl ?_)
          rw [hFrom', hSame _ _ hq hNext hq' hNext' (Option.some.inj hBack)]
      · exact hOn (.inr (hSame _ _ hNext hOwner hNext' hOwner' hStay))

/-- What the later walk enters, the first one has entered. -/
theorem entered_merged
    (h : Move.enter r ∈ (w.on later).trail ((w.on later).givenKey root depth taken') depth root none) :
    Move.enter r ∈ w.trail (w.givenKey root depth taken) depth root none := by
  obtain ⟨hops, came', hVisit'⟩ := enter_mem_trail_iff.1 h
  obtain ⟨came, hVisit, -⟩ := visits_merged hResumes hFinished hFinished' hMerges hVisit'
  exact enter_mem_trail_iff.2 ⟨hops, came, hVisit⟩

end

end Walker

end GraphMapping

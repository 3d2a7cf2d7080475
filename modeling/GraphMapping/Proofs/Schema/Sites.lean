import GraphMapping.Proofs.Database.Within
import GraphMapping.Proofs.Schema.Store
import Mathlib.Logic.Function.Basic

/-!
# Several databases

The configured databases are sites, each with a store of its own; one may be configured more than once.  A
policy passes over them in their order.  What it does to a store it does to each, until one fails; the sites
behind that one are left as they were.
-/

namespace GraphMapping

open GraphMapping.Action

/-- A configured database: its name, its habits, and which calls to it fail. -/
structure Site where
  database : Option String
  habits : Habits
  faults : Faults

namespace Site

/-- The server of a site by itself. -/
def server (s : Site) : Server Store :=
  Store.server s.habits s.faults

variable {ι : Type}

/-- A pass has done its work at these sites, without a call that failed, and has left the others alone. -/
structure Passed (sites : ι → Site) (Post : Store → Store → Prop) (done : List ι) (w w' : ι → Store) :
    Prop where
  post : ∀ k ∈ done, Post (w k) (w' k)
  smooth : ∀ k, Store.Smooth (sites k).faults (w k) (w' k)
  untouched : ∀ k, k ∉ done → w' k = w k

/-- A pass has done its work at the sites before one of them, where a call failed with the error; what its
transaction did there is undone, and nothing happened at any other site since. -/
structure Stopped (sites : ι → Site) (Post : Store → Store → Prop) (ks : List ι) (w w' : ι → Store)
    (e : Error) (done : List ι) (k : ι) (rest : List ι) (u : ι → Store) : Prop where
  order : ks = done ++ k :: rest
  passed : Passed sites Post done w u
  broke : Store.Broke (sites k).faults (u k) (w' k) e
  undone : (w' k).Undone
  others : ∀ j, j ≠ k → w' j = u j

variable {sites : ι → Site} {registry : Registry} {policy : SchemaPolicy} {Pre : Store → Prop}
  {Post : Store → Store → Prop} {done ks : List ι} {k : ι} {w u w' : ι → Store}

theorem Passed.nil : Passed sites Post [] w w where
  post _ hk := absurd hk List.not_mem_nil
  smooth _ := .refl
  untouched _ _ := rfl

/-- A pass is stopped by calls that fail only. -/
theorem Stopped.faulty {e : Error} {rest : List ι} (hStopped : Stopped sites Post ks w w' e done k rest u)
    (hNone : ∀ k ∈ ks, ∀ n, (sites k).faults n = none) : False := by
  obtain ⟨n, -, -, hFault, -⟩ := hStopped.broke
  have hMem : k ∈ ks := by
    rw [hStopped.order]
    exact List.mem_append_right _ List.mem_cons_self
  rw [hNone k hMem n] at hFault
  cases hFault

variable [DecidableEq ι]

/-- The site as a target among all stores. -/
def target (sites : ι → Site) (k : ι) : Target (ι → Store) where
  database := (sites k).database
  server := (sites k).server.within (fun w => w k) fun d w => Function.update w k d

theorem isPart_update (k : ι) : IsPart (fun w : ι → Store => w k) fun d w => Function.update w k d where
  read_write d w := Function.update_self k d w
  write_read w := Function.update_eq_self k w
  write_write d d' w := Function.update_idem d' d w

/-- What is done to a site is done to its store alone. -/
theorem applyTo_target {reply : Reply Unit} {d : Store}
    (hRun : policy.applyTo registry (sites k).server (w k) = (reply, d)) :
    policy.applyTo registry (target sites k).server w = (reply, Function.update w k d) := by
  unfold target
  rw [← inside_applyTo (isPart_update k)]
  exact inside_eq hRun

theorem live_target {schema : LiveSchema} {d : Store}
    (hRun : (Schema.live (sites k).server).Returns (w k) schema d) :
    (Schema.live (target sites k).server).Returns w schema (Function.update w k d) := by
  unfold target
  rw [← inside_live (isPart_update k)]
  exact inside_eq hRun

section

variable (hTrans : ∀ d d' d'', Post d d' → Post d' d'' → Post d d'')
  (hStep : ∀ (s : Site) (d : Store), Pre d → Store.Tries s.faults (policy.applyTo registry s.server) d
    (fun _ d' => Post d d' ∧ Pre d') Store.Undone)

include hTrans in
/-- After one more site the work is done at it, too. -/
theorem Passed.next (hPassed : Passed sites Post done w u) {d : Store}
    (hSmooth : Store.Smooth (sites k).faults (u k) d) (hPost : Post (u k) d) :
    Passed sites Post (done ++ [k]) w (Function.update u k d) where
  post j hj := by
    by_cases hHere : j = k
    · subst hHere
      rw [Function.update_self]
      by_cases hBefore : j ∈ done
      · exact hTrans _ _ _ (hPassed.post j hBefore) hPost
      · rw [← hPassed.untouched j hBefore]
        exact hPost
    · rw [Function.update_of_ne hHere]
      exact hPassed.post j ((List.mem_append.1 hj).resolve_right fun hLast =>
        hHere (List.mem_singleton.1 hLast))
  smooth j := by
    by_cases hHere : j = k
    · subst hHere
      rw [Function.update_self]
      exact (hPassed.smooth j).trans hSmooth
    · rw [Function.update_of_ne hHere]
      exact hPassed.smooth j
  untouched j hj := by
    have hHere : j ≠ k := fun hSame => hj (List.mem_append_right _ (List.mem_singleton.2 hSame))
    rw [Function.update_of_ne hHere]
    exact hPassed.untouched j fun hBefore => hj (List.mem_append_left _ hBefore)

include hTrans hStep in
/-- A pass goes on from where it is to the end, or to the first site that fails. -/
theorem passed_run (hPassed : Passed sites Post done w u) (hPre : ∀ k ∈ ks, Pre (u k)) :
    (∃ w', policy.apply registry (ks.map (target sites)) u = (.ok (), w') ∧
      Passed sites Post (done ++ ks) w w') ∨
    ∃ e w' done' k rest v, policy.apply registry (ks.map (target sites)) u = (.error e, w') ∧
      Stopped sites Post (done ++ ks) w w' e done' k rest v := by
  induction ks generalizing done u with
  | nil =>
      rw [List.append_nil]
      exact .inl ⟨u, rfl, hPassed⟩
  | cons k ks ih =>
      have hFirst := hPre k List.mem_cons_self
      have hCons : policy.apply registry ((k :: ks).map (target sites)) =
          (policy.applyTo registry (target sites k).server >>= fun _ =>
            policy.apply registry (ks.map (target sites))) := rfl
      rw [hCons]
      rcases hStep (sites k) (u k) hFirst with ⟨_, d, hRun, hSmooth, hPost, hPre'⟩ |
        ⟨e, d, hRun, hBroke, hUndone⟩
      · rw [bind_ok (applyTo_target hRun)]
        have hNext := hPassed.next hTrans hSmooth hPost
        have hPreNext : ∀ j ∈ ks, Pre (Function.update u k d j) := by
          intro j hj
          by_cases hHere : j = k
          · rw [hHere, Function.update_self]
            exact hPre'
          · rw [Function.update_of_ne hHere]
            exact hPre j (List.mem_cons_of_mem _ hj)
        have hRest := ih hNext hPreNext
        rwa [List.append_assoc] at hRest
      · have hHere : Function.update u k d k = d := Function.update_self k d u
        refine .inr ⟨e, Function.update u k d, done, k, ks, u, bind_error (applyTo_target hRun), rfl,
          hPassed, ?_, ?_, fun j hj => Function.update_of_ne hj _ _⟩
        · rwa [hHere]
        · rwa [hHere]

end

end Site

end GraphMapping

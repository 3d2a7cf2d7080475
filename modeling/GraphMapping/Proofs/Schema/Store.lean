import GraphMapping.Proofs.Database.Transactions
import GraphMapping.Proofs.Schema.Catalog
import GraphMapping.Schema.Reconcile

/-!
# A database that executes schema statements

A store executes the statements sent to it in transactions: a transaction works on what is stored for good,
and a commit stores for good what it has come to.  Any call may fail; then it has no effect.  What an
operation on a store does is said of both of its ends: if no call failed it gives a result, and if one did,
the operation ends with the error of the first that failed.
-/

namespace GraphMapping

open GraphMapping.Action

/-- A database with a transaction at a time. -/
structure Store where
  /-- What is stored for good. -/
  committed : Catalog
  /-- What the transaction has come to. -/
  working : Catalog
  /-- What was stored for good when a transaction was asked for last. -/
  opened : Catalog
  /-- The number of calls so far. -/
  calls : Nat

/-- The errors of the calls that fail, by their number. -/
abbrev Faults := Nat → Option Error

namespace Store

/-- Make a call, which fails if it has to. -/
def call {α : Type} (faults : Faults) (x : Action Store α) : Action Store α := fun d =>
  match faults d.calls with
  | some e => (.error e, { d with calls := d.calls + 1 })
  | none => x { d with calls := d.calls + 1 }

/-- Execute a statement, known by its text. -/
def execute (h : Habits) (s : Statement) : Action Store (List Record) := fun d =>
  match Change.read s.text.toList with
  | some change => (.ok [], { d with working := d.working.apply h change })
  | none =>
      if s.text = LiveSchema.showConstraints.text then (.ok (h.order d.working.constraintRows), d)
      else if s.text = LiveSchema.showIndexes.text then (.ok (h.order d.working.indexRows), d)
      else (.error (.backend (.server "Neo.ClientError.Statement.SyntaxError" "Invalid input")), d)

/-- The store as a server. -/
def server (h : Habits) (faults : Faults) : Server Store where
  begin d := call faults (fun d => (.ok (), { d with working := d.committed }))
    { d with opened := d.committed }
  run s := call faults (execute h s)
  fetch _ := call faults (pure LoadResult.empty)
  commit := call faults fun d => (.ok (), { d with committed := d.working })
  rollback := call faults fun d => (.ok (), { d with working := d.committed })

/-- No call failed between two states. -/
def Smooth (faults : Faults) (d d' : Store) : Prop :=
  d.calls ≤ d'.calls ∧ ∀ n, d.calls ≤ n → n < d'.calls → faults n = none

/-- A call failed between two states, the first such with this error. -/
def Broke (faults : Faults) (d d' : Store) (e : Error) : Prop :=
  ∃ n, d.calls ≤ n ∧ n < d'.calls ∧ faults n = some e ∧ ∀ m, d.calls ≤ m → m < n → faults m = none

/-- An operation gives a result with `P`, and no call failed; or it fails as a call did, and `Q` holds. -/
def Tries {α : Type} (faults : Faults) (x : Action Store α) (d : Store) (P : α → Store → Prop)
    (Q : Store → Prop) : Prop :=
  (∃ a d', x d = (.ok a, d') ∧ Smooth faults d d' ∧ P a d') ∨
    ∃ e d', x d = (.error e, d') ∧ Broke faults d d' e ∧ Q d'

/-- Nothing was begun or ended between two states. -/
def SameSpan (d d' : Store) : Prop :=
  d'.committed = d.committed ∧ d'.opened = d.opened

/-- The transaction that was asked for last has stored nothing for good. -/
def Undone (d : Store) : Prop :=
  d.committed = d.opened

variable {α β : Type} {faults : Faults} {d d' u : Store} {e : Error} {h : Habits} {x : Action Store α}
  {P P' : α → Store → Prop} {Q Q' : Store → Prop}

theorem Smooth.refl : Smooth faults d d :=
  ⟨le_rfl, fun _ hFrom hTo => absurd hTo (not_lt.2 hFrom)⟩

theorem Smooth.trans (hFirst : Smooth faults d d') (hThen : Smooth faults d' u) : Smooth faults d u := by
  refine ⟨hFirst.1.trans hThen.1, fun n hFrom hTo => ?_⟩
  rcases Nat.lt_or_ge n d'.calls with hBefore | hAfter
  · exact hFirst.2 n hFrom hBefore
  · exact hThen.2 n hAfter hTo

theorem Smooth.one (hFault : faults d.calls = none) (hCalls : d'.calls = d.calls + 1) :
    Smooth faults d d' := by
  refine ⟨by omega, fun n hFrom hTo => ?_⟩
  obtain rfl : n = d.calls := by omega
  exact hFault

theorem Smooth.broke (hFirst : Smooth faults d d') (hThen : Broke faults d' u e) : Broke faults d u e := by
  obtain ⟨n, hFrom, hTo, hFault, hBefore⟩ := hThen
  refine ⟨n, hFirst.1.trans hFrom, hTo, hFault, fun m hm hLess => ?_⟩
  rcases Nat.lt_or_ge m d'.calls with hEarly | hLate
  · exact hFirst.2 m hm hEarly
  · exact hBefore m hLate hLess

theorem Broke.later (hBroke : Broke faults d d' e) (hCalls : d'.calls ≤ u.calls) : Broke faults d u e := by
  obtain ⟨n, hFrom, hTo, hFault, hBefore⟩ := hBroke
  exact ⟨n, hFrom, hTo.trans_le hCalls, hFault, hBefore⟩

/-! ## Steps -/

theorem tries_pure {a : α} (hHere : P a d) : Tries faults (pure a) d P Q :=
  .inl ⟨a, d, rfl, .refl, hHere⟩

theorem tries_ofExcept {a : α} {y : Except Error α} (hOk : y = .ok a) (hHere : P a d) :
    Tries faults (ofExcept y) d P Q := by
  rw [hOk]
  exact tries_pure hHere

theorem Tries.imp (hTries : Tries faults x d P Q) (hOk : ∀ a d', P a d' → P' a d')
    (hError : ∀ d', Q d' → Q' d') : Tries faults x d P' Q' := by
  rcases hTries with ⟨a, d', hRun, hSmooth, hP⟩ | ⟨e, d', hRun, hBroke, hQ⟩
  · exact .inl ⟨a, d', hRun, hSmooth, hOk a d' hP⟩
  · exact .inr ⟨e, d', hRun, hBroke, hError d' hQ⟩

theorem tries_bind {f : α → Action Store β} {R : β → Store → Prop} (hTries : Tries faults x d P Q)
    (hThen : ∀ a d', P a d' → Tries faults (f a) d' R Q) : Tries faults (x >>= f) d R Q := by
  rcases hTries with ⟨a, d', hRun, hSmooth, hP⟩ | ⟨e, d', hRun, hBroke, hQ⟩
  · unfold Tries
    rw [bind_ok hRun]
    rcases hThen a d' hP with ⟨b, u, hRun', hSmooth', hR⟩ | ⟨e, u, hRun', hBroke, hQ⟩
    · exact .inl ⟨b, u, hRun', hSmooth.trans hSmooth', hR⟩
    · exact .inr ⟨e, u, hRun', hSmooth.broke hBroke, hQ⟩
  · exact .inr ⟨e, d', bind_error hRun, hBroke, hQ⟩

/-- A call either has its effect or none. -/
theorem tries_call {a : α} (hRun : x { d with calls := d.calls + 1 } = (.ok a, d'))
    (hCalls : d'.calls = d.calls + 1) (hOk : P a d') (hError : Q { d with calls := d.calls + 1 }) :
    Tries faults (call faults x) d P Q := by
  unfold Tries call
  cases hFault : faults d.calls with
  | some e =>
      refine .inr ⟨e, _, rfl, ⟨d.calls, le_rfl, Nat.lt_succ_self _, hFault, ?_⟩, hError⟩
      exact fun m hFrom hTo => absurd hTo (not_lt.2 hFrom)
  | none => exact .inl ⟨a, d', hRun, .one hFault hCalls, hOk⟩

/-! ## Statements -/

/-- A statement that is a change is executed in the transaction. -/
theorem tries_change {s : Statement} {change : Change} (hRead : Change.read s.text.toList = some change) :
    Tries faults ((server h faults).run s) d
      (fun _ d' => d'.working = d.working.apply h change ∧ SameSpan d d') (SameSpan d) := by
  have hRun : execute h s { d with calls := d.calls + 1 } =
      (.ok [], { d with working := d.working.apply h change, calls := d.calls + 1 }) := by
    unfold execute
    rw [hRead]
  exact tries_call hRun rfl ⟨rfl, rfl, rfl⟩ ⟨rfl, rfl⟩

/-- Statements that are changes are executed one after the other. -/
theorem tries_changes {γ : Type} {statement : γ → Statement} {change : γ → Change} {items : List γ}
    (hRead : ∀ item ∈ items, Change.read (statement item).text.toList = some (change item)) :
    Tries faults ((items.map statement).forM fun s => do let _ ← (server h faults).run s) d
      (fun _ d' => d'.working = d.working.applyAll h (items.map change) ∧ SameSpan d d')
      (SameSpan d) := by
  induction items generalizing d with
  | nil => exact tries_pure ⟨rfl, rfl, rfl⟩
  | cons item rest ih =>
      refine tries_bind (P := fun _ d' => d'.working = d.working.apply h (change item) ∧ SameSpan d d')
        (tries_bind (tries_change (hRead item List.mem_cons_self)) fun _ d' hHere => tries_pure hHere) ?_
      rintro - d' ⟨hWorking, hCommitted, hOpened⟩
      refine (ih fun item hItem => hRead item (List.mem_cons_of_mem _ hItem)).imp ?_ ?_
      · rintro - u ⟨hRest, hSame, hSame'⟩
        refine ⟨?_, hSame.trans hCommitted, hSame'.trans hOpened⟩
        rw [hRest, hWorking]
        rfl
      · rintro u ⟨hSame, hSame'⟩
        exact ⟨hSame.trans hCommitted, hSame'.trans hOpened⟩

theorem read_showConstraints : Change.read LiveSchema.showConstraints.text.toList = none := by
  decide

theorem read_showIndexes : Change.read LiveSchema.showIndexes.text.toList = none := by
  decide

theorem tries_showConstraints : Tries faults ((server h faults).run LiveSchema.showConstraints) d
    (fun rows d' => rows.Perm d.working.constraintRows ∧ d'.working = d.working ∧ SameSpan d d')
    (SameSpan d) := by
  have hRun : execute h LiveSchema.showConstraints { d with calls := d.calls + 1 } =
      (.ok (h.order d.working.constraintRows), { d with calls := d.calls + 1 }) := by
    unfold execute
    rw [read_showConstraints]
    exact if_pos rfl
  exact tries_call hRun rfl ⟨h.order_perm _, rfl, rfl, rfl⟩ ⟨rfl, rfl⟩

theorem tries_showIndexes : Tries faults ((server h faults).run LiveSchema.showIndexes) d
    (fun rows d' => rows.Perm d.working.indexRows ∧ d'.working = d.working ∧ SameSpan d d')
    (SameSpan d) := by
  have hRun : execute h LiveSchema.showIndexes { d with calls := d.calls + 1 } =
      (.ok (h.order d.working.indexRows), { d with calls := d.calls + 1 }) := by
    have hApart : LiveSchema.showIndexes.text ≠ LiveSchema.showConstraints.text := by
      decide
    unfold execute
    rw [read_showIndexes]
    exact (if_neg hApart).trans (if_pos rfl)
  exact tries_call hRun rfl ⟨h.order_perm _, rfl, rfl, rfl⟩ ⟨rfl, rfl⟩

/-! ## Transactions -/

theorem tries_begin : Tries faults (server h faults).begin d
    (fun _ u => u.working = d.committed ∧ u.committed = d.committed ∧ u.opened = d.committed) Undone := by
  have hCall : Tries faults (call faults fun d => (.ok (), { d with working := d.committed }))
      { d with opened := d.committed }
      (fun _ u => u.working = d.committed ∧ u.committed = d.committed ∧ u.opened = d.committed) Undone :=
    tries_call rfl rfl ⟨rfl, rfl, rfl⟩ rfl
  exact hCall

theorem tries_commit : Tries faults (server h faults).commit d (fun _ d' => d'.committed = d.working)
    (SameSpan d) := by
  change Tries faults (call faults fun d => (.ok (), { d with committed := d.working })) d
    (fun _ d' => d'.committed = d.working) (SameSpan d)
  exact tries_call rfl rfl rfl ⟨rfl, rfl⟩

/-- A rollback that fails leaves the error of the work as it is. -/
theorem tries_attempt (hTries : Tries faults x d P (SameSpan d)) :
    Tries faults ((server h faults).attempt x) d P (SameSpan d) := by
  rcases hTries with ⟨a, d', hRun, hSmooth, hP⟩ | ⟨e, d', hRun, hBroke, hSame⟩
  · exact .inl ⟨a, d', attempt_ok hRun, hSmooth, hP⟩
  · obtain ⟨reply, u, hBack, hReply, hCalls, hSpan⟩ : ∃ reply u, (server h faults).rollback d' = (reply, u) ∧
        reply ≠ .hang ∧ d'.calls ≤ u.calls ∧ SameSpan d' u := by
      unfold server call
      dsimp only
      cases faults d'.calls with
      | some e' => exact ⟨_, _, rfl, (nomatch ·), Nat.le_succ _, rfl, rfl⟩
      | none => exact ⟨_, _, rfl, (nomatch ·), Nat.le_succ _, rfl, rfl⟩
    refine .inr ⟨e, u, ?_, hBroke.later hCalls, hSpan.1.trans hSame.1, hSpan.2.trans hSame.2⟩
    rw [attempt_error hRun]
    unfold Server.abandon
    rw [hBack]
    cases reply with
    | hang => exact absurd rfl hReply
    | ok _ => rfl
    | error _ => rfl

/-- A transaction stores for good what its work has come to, or nothing. -/
theorem tries_transaction {R : α → Catalog → Prop}
    (hWork : ∀ u, u.working = d.committed → Tries faults x u
      (fun a v => R a v.working ∧ SameSpan u v) (SameSpan u)) :
    Tries faults ((server h faults).transaction x) d (fun a d' => R a d'.committed) Undone := by
  rw [transaction_eq]
  refine tries_bind tries_begin ?_
  rintro - u ⟨hWorking, hCommitted, hOpened⟩
  have hUndone : ∀ v, SameSpan u v → Undone v := fun v hSame => by
    unfold Undone
    rw [hSame.1, hSame.2, hCommitted, hOpened]
  refine tries_bind ((tries_attempt (hWork u hWorking)).imp (fun _ _ hOk => hOk) hUndone) ?_
  rintro a v ⟨hR, hSame⟩
  refine tries_bind (tries_commit.imp (fun _ _ hOk => hOk) ?_) ?_
  · exact fun w hSame' => hUndone w ⟨hSame'.1.trans hSame.1, hSame'.2.trans hSame.2⟩
  · intro _ d' hCommit
    refine tries_pure ?_
    rw [hCommit]
    exact hR

/-! ## Operations on the schema -/

/-- The listing shows what is stored for good and changes nothing. -/
theorem tries_live : Tries faults (Schema.live (server h faults)) d
    (fun schema d' => d'.committed = d.committed ∧ d.committed.Lists schema) Undone := by
  unfold Schema.live
  refine tries_bind (tries_transaction (R := fun rows c => c = d.committed ∧
    rows.1.Perm d.committed.constraintRows ∧ rows.2.Perm d.committed.indexRows) ?_) ?_
  · intro u hWorking
    refine tries_bind tries_showConstraints ?_
    rintro constraints v ⟨hConstraints, hSame, hCommitted, hOpened⟩
    refine tries_bind (tries_showIndexes.imp (fun _ _ hOk => hOk) ?_) ?_
    · rintro w ⟨hCommitted', hOpened'⟩
      exact ⟨hCommitted'.trans hCommitted, hOpened'.trans hOpened⟩
    · rintro indexes w ⟨hIndexes, hSame', hCommitted', hOpened'⟩
      rw [hSame, hWorking] at hIndexes hSame'
      rw [hWorking] at hConstraints
      exact tries_pure ⟨⟨hSame', hConstraints, hIndexes⟩, hCommitted'.trans hCommitted,
        hOpened'.trans hOpened⟩
  · rintro ⟨constraints, indexes⟩ d' ⟨hSame, hConstraints, hIndexes⟩
    obtain ⟨schema, hRead, hLists⟩ := Catalog.ofRows_lists hConstraints hIndexes
    exact tries_ofExcept hRead ⟨hSame, hLists⟩

/-- Changes in one transaction are stored for good together or not at all. -/
theorem tries_runAll {γ : Type} {statement : γ → Statement} {change : γ → Change} {items : List γ}
    (hRead : ∀ item ∈ items, Change.read (statement item).text.toList = some (change item)) :
    Tries faults (Schema.runAll (server h faults) (items.map statement)) d
      (fun _ d' => d'.committed = d.committed.applyAll h (items.map change)) Undone := by
  unfold Schema.runAll
  cases items with
  | nil => exact tries_pure rfl
  | cons item rest =>
      rw [if_neg (by simp)]
      refine tries_bind (tries_transaction (R := fun _ c =>
        c = d.committed.applyAll h ((item :: rest).map change)) ?_)
        fun _ d' hOk => tries_pure hOk
      intro u hWorking
      rw [← hWorking]
      exact tries_changes hRead

/-- Everything but the lookup indexes is dropped. -/
theorem tries_dropAll (hReadable : d.committed.Readable) :
    Tries faults (Schema.dropAll (server h faults)) d (fun _ d' => d'.committed = d.committed.bare)
      Undone := by
  unfold Schema.dropAll
  refine tries_bind tries_live ?_
  rintro schema d' ⟨hSame, hLists⟩
  refine (tries_runAll fun live hLive => Change.read_removal (hLists.controlFree hReadable live hLive)).imp
    ?_ fun _ hUndone => hUndone
  intro _ u hDropped
  rw [hDropped, hSame]
  exact hLists.applyAll_dropped

end Store

end GraphMapping

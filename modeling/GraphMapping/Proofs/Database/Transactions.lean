import GraphMapping.Proofs.Database.Returns

/-!
# The course of a transaction

A server is watched by one that keeps a record of every call and how it ended.  The record of a transaction
has a shape: if it was begun at all it ends with a commit or a rollback; a commit follows on statements that
all succeeded, and after a statement that failed there is nothing but the rollback.
-/

namespace GraphMapping

open GraphMapping.Action

/-- The reply without its result. -/
def Reply.outcome {α : Type} (reply : Reply α) : Reply Unit :=
  reply.map fun _ => ()

/-- One thing that a server was asked to do, and how the call ended. -/
inductive Moment where
  | begin (reply : Reply Unit)
  | run (s : Statement) (reply : Reply (List Record))
  | fetch (s : Statement) (reply : Reply LoadResult)
  | commit (reply : Reply Unit)
  | rollback (reply : Reply Unit)

namespace Moment

/-- How a statement ended, if the moment is that of one. -/
def answer : Moment → Option (Reply Unit)
  | .run _ reply => some reply.outcome
  | .fetch _ reply => some reply.outcome
  | _ => none

/-- The answer to a batch is as it has to be: for each row of a node batch there is one with a key and a
number, and as many relationships were written as there are rows in the batch. -/
def Sound : Moment → Prop
  | .run s (.ok rows) =>
      (s.kind = .nodeUpsert → rows.length = s.batch.length ∧ ∀ row ∈ rows,
        ((Dict.find? row "key").bind Value.key?).isSome ∧ (row.int? "id").isSome) ∧
      (s.kind = .relationshipUpsert →
        ((rows.head?.bind (·.int? "written")).getD 0).toInt = s.batch.length)
  | _ => True

/-- A statement succeeded, and its answer is as it has to be, if answers are checked. -/
def Passes (checked : Bool) (m : Moment) : Prop :=
  m.answer = some (.ok ()) ∧ (checked = true → m.Sound)

end Moment

/-- The server that also keeps a record of all calls and how they ended, in their order. -/
def Server.watched {δ : Type} (server : Server δ) : Server (δ × List Moment) :=
  let noted {α : Type} (moment : Reply α → Moment) (x : Action δ α) :
      Action (δ × List Moment) α := fun (d, seen) =>
    let (reply, d) := x d
    (reply, (d, seen ++ [moment reply]))
  { begin := noted .begin server.begin
    run := fun s => noted (.run s) (server.run s)
    fetch := fun s => noted (.fetch s) (server.fetch s)
    commit := noted .commit server.commit
    rollback := noted .rollback server.rollback }

/-- An error is reported for another one: it is that error itself, or says which batch met with it. -/
def Error.Reports (e cause : Error) : Prop :=
  e = cause ∨ ∃ label identity, e = .persist label identity cause

/-- What work in a transaction comes to after a rollback: its own error, unless there was no answer. -/
def Reply.abandoned (rollback : Reply Unit) (e : Error) : Reply Unit :=
  match rollback with
  | .hang => .hang
  | _ => .error e

/-- The record of work within a transaction, and what it comes to.  Where answers are checked work may also
fail between two statements. -/
inductive Body (checked : Bool) : List Moment → Reply Unit → Prop
  | done {ms : List Moment} (hAll : ∀ m ∈ ms, m.Passes checked) : Body checked ms (.ok ())
  | failed {ms : List Moment} {m : Moment} {cause e : Error} (hAll : ∀ m ∈ ms, m.Passes checked)
      (hLast : m.answer = some (.error cause)) (hReports : e.Reports cause) :
      Body checked (ms ++ [m]) (.error e)
  | objected {ms : List Moment} {e : Error} (hChecked : checked = true)
      (hAll : ∀ m ∈ ms, m.answer = some (.ok ())) : Body checked ms (.error e)
  | unanswered {ms : List Moment} {m : Moment} (hAll : ∀ m ∈ ms, m.Passes checked)
      (hLast : m.answer = some .hang) : Body checked (ms ++ [m]) .hang

/-- The record of one transaction, and what it comes to. -/
inductive Span (checked : Bool) : List Moment → Reply Unit → Prop
  /-- It was not begun. -/
  | refused {reply : Reply Unit} (h : reply ≠ .ok ()) : Span checked [.begin reply] reply
  /-- All statements succeeded, so it was to be committed. -/
  | committed {ms : List Moment} {reply : Reply Unit} (hAll : ∀ m ∈ ms, m.Passes checked) :
      Span checked (.begin (.ok ()) :: (ms ++ [.commit reply])) reply
  /-- The last statement failed, so it was rolled back. -/
  | failed {ms : List Moment} {m : Moment} {cause e : Error} {reply : Reply Unit}
      (hAll : ∀ m ∈ ms, m.Passes checked) (hLast : m.answer = some (.error cause))
      (hReports : e.Reports cause) :
      Span checked (.begin (.ok ()) :: (ms ++ [m, .rollback reply])) (reply.abandoned e)
  /-- All statements succeeded, but a check did not, so it was rolled back. -/
  | objected {ms : List Moment} {e : Error} {reply : Reply Unit} (hChecked : checked = true)
      (hAll : ∀ m ∈ ms, m.answer = some (.ok ())) :
      Span checked (.begin (.ok ()) :: (ms ++ [.rollback reply])) (reply.abandoned e)
  /-- The last statement was never answered. -/
  | unanswered {ms : List Moment} {m : Moment} (hAll : ∀ m ∈ ms, m.Passes checked)
      (hLast : m.answer = some .hang) : Span checked (.begin (.ok ()) :: (ms ++ [m])) .hang

/-- What comes of a request whose transaction came to this: an error stays as it is, and work that was never
answered runs out of time, if it is bounded. -/
def Reply.Ends (last reply : Reply Unit) : Prop :=
  match last with
  | .ok _ => True
  | .error e => reply = .error e
  | .hang => reply = .hang ∨ ∃ limit, reply = .error (.timeout limit)

/-- A record is that of transactions, one after the other.  Each but the last one succeeded; and what the
last one comes to, if it did not, is what the whole comes to. -/
structure Course (checked : Bool) (spans : List (List Moment × Reply Unit)) (ms : List Moment)
    (reply : Reply Unit) : Prop where
  record : ms = (spans.map (·.1)).flatten
  span : ∀ t ∈ spans, Span checked t.1 t.2
  ends : ∀ t ∈ spans, t.2.Ends reply
  succeeds : ∀ t ∈ spans.dropLast, t.2 = .ok ()

/-- What an action adds to a record, and what it comes to. -/
def Action.Leaves {ω α : Type} (log : ω → List Moment) (x : Action ω α) (w : ω)
    (P : List Moment → Reply Unit → Prop) : Prop :=
  ∃ ms, log (x w).2 = log w ++ ms ∧ P ms (x w).1.outcome

/-- Work with a rollback after an error. -/
def Server.attempt {δ α : Type} (server : Server δ) (work : Action δ α) : Action δ α := fun d =>
  match work d with
  | (.error e, d) => server.abandon e d
  | other => other

section

variable {ω α : Type} {R : ω → ω → Prop}

theorem transaction_eq (server : Server ω) (work : Action ω α) :
    server.transaction work = (server.begin >>= fun _ => server.attempt work >>= fun a =>
      server.commit >>= fun _ => pure a) := rfl

theorem attempt_ok {server : Server ω} {work : Action ω α} {a : α} {w u : ω}
    (h : work w = (.ok a, u)) : server.attempt work w = (.ok a, u) := by
  unfold Server.attempt
  rw [h]

theorem attempt_error {server : Server ω} {work : Action ω α} {e : Error} {w u : ω}
    (h : work w = (.error e, u)) : server.attempt work w = server.abandon e u := by
  unfold Server.attempt
  rw [h]

theorem attempt_hang {server : Server ω} {work : Action ω α} {w u : ω}
    (h : work w = (.hang, u)) : server.attempt work w = (.hang, u) := by
  unfold Server.attempt
  rw [h]

/-- Work keeps what it keeps also if it is rolled back, whether the rollback succeeds, fails or hangs. -/
theorem keeps_attempt (hTrans : ∀ u v w, R u v → R v w → R u w)
    {server : Server ω} {work : Action ω α} (hWork : Keeps R work)
    (hRollback : Keeps R server.rollback) : Keeps R (server.attempt work) := by
  intro w
  rcases hRun : work w with ⟨a | e | _, w'⟩
  · rw [attempt_ok hRun]
    exact hWork.of_eq hRun
  · have hFirst : R w w' := hWork.of_eq hRun
    rw [attempt_error hRun]
    rcases hBack : server.rollback w' with ⟨reply, w''⟩
    have hSecond : R w' w'' := hRollback.of_eq hBack
    unfold Server.abandon
    rw [hBack]
    cases reply <;> exact hTrans _ _ _ hFirst hSecond
  · rw [attempt_hang hRun]
    exact hWork.of_eq hRun

/-- A transaction keeps what its work and the calls around it keep. -/
theorem keeps_transaction (hRefl : ∀ w, R w w)
    (hTrans : ∀ u v w, R u v → R v w → R u w) {server : Server ω} {work : Action ω α}
    (hBegin : Keeps R server.begin) (hWork : Keeps R work) (hCommit : Keeps R server.commit)
    (hRollback : Keeps R server.rollback) : Keeps R (server.transaction work) := by
  rw [transaction_eq]
  refine keeps_bind hTrans hBegin fun _ => ?_
  refine keeps_bind hTrans (keeps_attempt hTrans hWork hRollback) fun a => ?_
  exact keeps_bind hTrans hCommit fun _ => keeps_pure hRefl a

end

namespace Body

variable {checked : Bool} {ms ms' : List Moment} {reply : Reply Unit}

/-- Work goes on after statements that passed. -/
theorem after (hAll : ∀ m ∈ ms, m.Passes checked) (h : Body checked ms' reply) :
    Body checked (ms ++ ms') reply := by
  have hBoth : ∀ ms' : List Moment, (∀ m ∈ ms', m.Passes checked) →
      ∀ m ∈ ms ++ ms', m.Passes checked := fun ms' hAll' m hm =>
    (List.mem_append.1 hm).elim (hAll m) (hAll' m)
  cases h with
  | done hAll' => exact .done (hBoth _ hAll')
  | failed hAll' hLast hReports =>
      rw [← List.append_assoc]
      exact .failed (hBoth _ hAll') hLast hReports
  | objected hChecked hAll' =>
      exact .objected hChecked fun m hm =>
        (List.mem_append.1 hm).elim (fun hm => (hAll m hm).1) (hAll' m)
  | unanswered hAll' hLast =>
      rw [← List.append_assoc]
      exact .unanswered (hBoth _ hAll') hLast

/-- All moments of work are those of statements. -/
theorem statement (h : Body checked ms reply) : ∀ m ∈ ms, ∃ r, m.answer = some r := by
  have hPassed : ∀ ms : List Moment, (∀ m ∈ ms, m.Passes checked) → ∀ m ∈ ms, ∃ r, m.answer = some r :=
    fun ms hAll m hm => ⟨_, (hAll m hm).1⟩
  cases h with
  | done hAll => exact hPassed _ hAll
  | failed hAll hLast _ =>
      intro m hm
      rcases List.mem_append.1 hm with hm | hm
      · exact hPassed _ hAll m hm
      · exact ⟨_, List.mem_singleton.1 hm ▸ hLast⟩
  | objected _ hAll => exact fun m hm => ⟨_, hAll m hm⟩
  | unanswered hAll hLast =>
      intro m hm
      rcases List.mem_append.1 hm with hm | hm
      · exact hPassed _ hAll m hm
      · exact ⟨_, List.mem_singleton.1 hm ▸ hLast⟩

end Body

namespace Action

variable {ω α β : Type} {log : ω → List Moment} {checked : Bool} {w : ω}

/-- An action adds this to a record and comes to this. -/
theorem Leaves.of_eq {x : Action ω α} {P : List Moment → Reply Unit → Prop} {reply : Reply α} {w' : ω}
    {ms : List Moment} (hRun : x w = (reply, w')) (hLog : log w' = log w ++ ms)
    (h : P ms reply.outcome) : x.Leaves log w P := by
  refine ⟨ms, ?_, ?_⟩
  · rw [hRun]
    exact hLog
  · rw [hRun]
    exact h

theorem Leaves.congr {x y : Action ω α} {P : List Moment → Reply Unit → Prop} (h : x w = y w)
    (hy : y.Leaves log w P) : x.Leaves log w P := by
  unfold Leaves
  rw [h]
  exact hy

/-- What an action leaves after a step that adds nothing. -/
theorem Leaves.of_bind_ok {x : Action ω α} {f : α → Action ω β} {a : α} {u : ω}
    {P : List Moment → Reply Unit → Prop} (hRun : x w = (.ok a, u)) (hLog : log u = log w)
    (hf : (f a).Leaves log u P) : (x >>= f).Leaves log w P := by
  obtain ⟨ms, hMore, hP⟩ := hf
  refine ⟨ms, ?_, ?_⟩
  · rw [bind_ok hRun, hMore, hLog]
  · rw [bind_ok hRun]
    exact hP

theorem body_pure (a : α) : (pure a : Action ω α).Leaves log w (Body checked) :=
  ⟨[], (List.append_nil _).symm, .done fun _ hm => absurd hm List.not_mem_nil⟩

/-- A check that fails does so after statements that succeeded. -/
theorem body_fail (e : Error) : (fail e : Action ω α).Leaves log w (Body true) :=
  ⟨[], (List.append_nil _).symm, .objected rfl fun _ hm => absurd hm List.not_mem_nil⟩

theorem body_bind {x : Action ω α} {f : α → Action ω β} (hx : x.Leaves log w (Body checked))
    (hf : ∀ a u, (f a).Leaves log u (Body checked)) : (x >>= f).Leaves log w (Body checked) := by
  obtain ⟨ms, hLog, hBody⟩ := hx
  rcases hRun : x w with ⟨a | e | _, u⟩ <;> rw [hRun] at hLog hBody
  · obtain ⟨ms', hLog', hBody'⟩ := hf a u
    cases hBody with
    | done hAll =>
        refine ⟨ms ++ ms', ?_, ?_⟩
        · rw [bind_ok hRun, hLog', hLog, List.append_assoc]
        · rw [bind_ok hRun]
          exact hBody'.after hAll
  · exact .of_eq (bind_error hRun) hLog hBody
  · exact .of_eq (bind_hang hRun) hLog hBody

theorem body_ofExcept_bind {x : Except Error α} {f : α → Action ω β}
    (hf : ∀ a, x = .ok a → (f a).Leaves log w (Body true)) :
    (ofExcept x >>= f).Leaves log w (Body true) := by
  cases x with
  | error e => exact body_fail e
  | ok a => exact hf a rfl

theorem body_forM {f : β → Action ω Unit} {items : List β}
    (h : ∀ b ∈ items, ∀ u, (f b).Leaves log u (Body checked)) :
    (items.forM f).Leaves log w (Body checked) := by
  induction items generalizing w with
  | nil => exact body_pure ()
  | cons b rest ih =>
      exact body_bind (h b List.mem_cons_self w) fun _ u =>
        ih fun b' hb' => h b' (List.mem_cons_of_mem _ hb')

theorem body_foldlM {f : α → β → Action ω α} {items : List β} (a : α)
    (h : ∀ b ∈ items, ∀ a u, (f a b).Leaves log u (Body checked)) :
    (items.foldlM f a).Leaves log w (Body checked) := by
  induction items generalizing a w with
  | nil => exact body_pure a
  | cons b rest ih =>
      rw [List.foldlM_cons]
      exact body_bind (h b List.mem_cons_self a w) fun a' u =>
        ih a' fun b' hb' => h b' (List.mem_cons_of_mem _ hb')

end Action

section

variable {δ α : Type} {server : Server δ} {checked : Bool} {w : δ × List Moment}

theorem Body.of_failed {m : Moment} {cause e : Error} (hLast : m.answer = some (.error cause))
    (hReports : e.Reports cause) : Body checked [m] (.error e) :=
  @failed checked [] m cause e (fun _ hm => absurd hm List.not_mem_nil) hLast hReports

theorem Body.of_unanswered {m : Moment} (hLast : m.answer = some .hang) : Body checked [m] .hang :=
  @unanswered checked [] m (fun _ hm => absurd hm List.not_mem_nil) hLast

/-- Where nothing is checked, one statement is work that ends as the statement does. -/
theorem Body.of_statement {m : Moment} {reply : Reply Unit} (h : m.answer = some reply) :
    Body false [m] reply := by
  rcases reply with u | e | _
  · exact .done fun m' hm' => List.mem_singleton.1 hm' ▸ ⟨h, fun hChecked => (by cases hChecked)⟩
  · exact .of_failed h (.inl rfl)
  · exact .of_unanswered h

theorem body_run (s : Statement) : (server.watched.run s).Leaves Prod.snd w (Body false) :=
  ⟨[.run s (server.run s w.1).1], rfl, .of_statement rfl⟩

theorem body_fetch (s : Statement) : (server.watched.fetch s).Leaves Prod.snd w (Body false) :=
  ⟨[.fetch s (server.fetch s w.1).1], rfl, .of_statement rfl⟩

theorem Body.not_commit {ms : List Moment} {reply r : Reply Unit} (h : Body checked ms reply) :
    Moment.commit r ∉ ms := by
  intro hMem
  obtain ⟨r', hAnswer⟩ := h.statement _ hMem
  cases hAnswer

/-- Work that succeeded is committed. -/
theorem commit_after {work : Action (δ × List Moment) α} {a : α} {u : δ × List Moment}
    (hRun : work w = (.ok a, u)) :
    (server.watched.attempt work >>= fun a => server.watched.commit >>= fun _ => pure a) w =
      (((server.commit u.1).1).map fun _ => a,
        ((server.commit u.1).2, u.2 ++ [.commit (server.commit u.1).1])) := by
  have hCommit : server.watched.commit u =
      ((server.commit u.1).1, ((server.commit u.1).2, u.2 ++ [.commit (server.commit u.1).1])) := rfl
  rw [bind_ok (attempt_ok hRun), bind_apply, hCommit]
  rcases (server.commit u.1).1 with x | e | _ <;> rfl

/-- Work that failed is rolled back. -/
theorem rollback_after (server : Server δ) {work : Action (δ × List Moment) α} {e : Error}
    {u : δ × List Moment} (hRun : work w = (.error e, u)) : ∃ reply : Reply α,
    (server.watched.attempt work >>= fun a => server.watched.commit >>= fun _ => pure a) w =
      (reply, ((server.rollback u.1).2, u.2 ++ [.rollback (server.rollback u.1).1])) ∧
    reply.outcome = (server.rollback u.1).1.abandoned e := by
  have hRollback : server.watched.rollback u = ((server.rollback u.1).1,
      ((server.rollback u.1).2, u.2 ++ [.rollback (server.rollback u.1).1])) := rfl
  rw [bind_apply, attempt_error hRun]
  unfold Server.abandon
  rw [hRollback]
  rcases (server.rollback u.1).1 with x | e' | _
  · exact ⟨.error e, rfl, rfl⟩
  · exact ⟨.error e, rfl, rfl⟩
  · exact ⟨.hang, rfl, rfl⟩

theorem log_concat {seen before ms : List Moment} (h : seen = before ++ ms) (m : Moment) :
    seen ++ [m] = before ++ (ms ++ [m]) := by
  rw [h, List.append_assoc]

/-- Work that was begun is answered by a commit if it succeeds and by a rollback if it fails. -/
theorem span_attempt (server : Server δ) {work : Action (δ × List Moment) α}
    (hWork : work.Leaves Prod.snd w (Body checked)) :
    (server.watched.attempt work >>= fun a => server.watched.commit >>= fun _ => pure a).Leaves
      Prod.snd w fun ms reply => Span checked (.begin (.ok ()) :: ms) reply ∧
        ∀ r, .commit r ∈ ms → ∃ a u, work.Returns w a u := by
  obtain ⟨ms, hLog, hBody⟩ := hWork
  rcases hRun : work w with ⟨a | e | _, u⟩ <;> rw [hRun] at hLog hBody
  · have hLog' := (log_concat hLog) (.commit (server.commit u.1).1)
    refine .of_eq (commit_after hRun) hLog' ⟨?_, fun r _ => ⟨a, u, hRun⟩⟩
    cases hBody with
    | done hAll =>
        have hReply : (((server.commit u.1).1).map fun _ => a).outcome = (server.commit u.1).1 := by
          rcases (server.commit u.1).1 with x | e | _ <;> rfl
        rw [hReply]
        exact .committed hAll
  · obtain ⟨reply, hEq, hReply⟩ := rollback_after server hRun
    have hLog' := (log_concat hLog) (.rollback (server.rollback u.1).1)
    refine .of_eq hEq hLog' ⟨?_, fun r hr => ?_⟩
    · rw [hReply]
      cases hBody with
      | failed hAll hLast hReports =>
          rw [List.append_assoc]
          exact .failed hAll hLast hReports
      | objected hChecked hAll => exact .objected hChecked hAll
    · rcases List.mem_append.1 hr with hr | hr
      · exact absurd hr hBody.not_commit
      · cases List.mem_singleton.1 hr
  · refine .of_eq (bind_hang (attempt_hang hRun)) hLog ⟨?_, fun r hr => absurd hr hBody.not_commit⟩
    cases hBody with
    | unanswered hAll hLast => exact .unanswered hAll hLast

/-- A transaction leaves the record of one, and is committed only if its work returned. -/
theorem span_transaction {work : Action (δ × List Moment) α}
    (hWork : ∀ u, work.Leaves Prod.snd u (Body checked)) :
    (server.watched.transaction work).Leaves Prod.snd w fun ms reply => Span checked ms reply ∧
      ∀ r, .commit r ∈ ms → ∃ d a u, server.begin w.1 = (.ok (), d) ∧
        work.Returns (d, w.2 ++ [.begin (.ok ())]) a u := by
  obtain ⟨d, seen⟩ := w
  rw [transaction_eq]
  have hBegin : ∀ reply d', server.begin d = (reply, d') →
      server.watched.begin (d, seen) = (reply, (d', seen ++ [.begin reply])) := by
    intro reply d' h
    change ((server.begin d).1, ((server.begin d).2, seen ++ [.begin (server.begin d).1])) = _
    rw [h]
  have hNone : ∀ {r reply : Reply Unit}, Moment.commit r ∉ [Moment.begin reply] :=
    fun h => nomatch List.mem_singleton.1 h
  rcases hHere : server.begin d with ⟨⟨⟩ | e | _, d'⟩
  · obtain ⟨ms, hLog, hSpan, hCommit⟩ := span_attempt server
      (hWork (d', seen ++ [.begin (.ok ())]))
    rw [List.append_assoc] at hLog
    refine ⟨.begin (.ok ()) :: ms, ?_, ?_, fun r hr => ?_⟩
    · rw [bind_ok (hBegin _ _ hHere)]
      exact hLog
    · rw [bind_ok (hBegin _ _ hHere)]
      exact hSpan
    · obtain ⟨a, u, hReturns⟩ := hCommit r ((List.mem_cons.1 hr).resolve_left nofun)
      exact ⟨d', a, u, rfl, hReturns⟩
  · exact .of_eq (bind_error (hBegin _ _ hHere)) rfl
      ⟨.refused nofun, fun r hr => absurd hr hNone⟩
  · exact .of_eq (bind_hang (hBegin _ _ hHere)) rfl
      ⟨.refused nofun, fun r hr => absurd hr hNone⟩

end

/-! ## Transactions in a row -/

section

variable {ω α β : Type} {log : ω → List Moment} {checked : Bool} {w : ω}
  {t : List Moment × Reply Unit} {spans spans' : List (List Moment × Reply Unit)}
  {ms ms' : List Moment} {reply reply' : Reply Unit}

theorem Reply.Ends.self (reply : Reply Unit) : reply.Ends reply := by
  cases reply with
  | ok _ => trivial
  | error e => exact rfl
  | hang => exact .inl rfl

theorem Reply.Ends.of_ok (h : reply.Ends (.ok ())) : reply = .ok () := by
  cases reply with
  | ok _ => rfl
  | error e => cases h
  | hang => rcases h with h | ⟨limit, h⟩ <;> cases h

theorem Course.single (h : Span checked ms reply) : Course checked [(ms, reply)] ms reply where
  record := (List.append_nil ms).symm
  span t ht := by
    rw [List.mem_singleton.1 ht]
    exact h
  ends t ht := by
    rw [List.mem_singleton.1 ht]
    exact .self reply
  succeeds t ht := absurd ht List.not_mem_nil

/-- A transaction by itself is committed only if its work returned. -/
theorem course_transaction {δ : Type} (server : Server δ) (w : δ × List Moment)
    {work : Action (δ × List Moment) α} (hWork : ∀ u, work.Leaves Prod.snd u (Body checked)) :
    ∃ t, (server.watched.transaction work).Leaves Prod.snd w (Course checked [t]) ∧
      ∀ r, .commit r ∈ t.1 → ∃ d a u, server.begin w.1 = (.ok (), d) ∧
        work.Returns (d, w.2 ++ [.begin (.ok ())]) a u := by
  obtain ⟨ms, hLog, hSpan, hCommit⟩ : (server.watched.transaction work).Leaves Prod.snd w _ :=
    span_transaction hWork
  exact ⟨_, ⟨ms, hLog, .single hSpan⟩, hCommit⟩

/-- Where all went well, more may follow. -/
theorem Course.append (h : Course checked spans ms (.ok ())) (h' : Course checked spans' ms' reply) :
    Course checked (spans ++ spans') (ms ++ ms') reply where
  record := by
    rw [h.record, h'.record, List.map_append, List.flatten_append]
  span t ht := (List.mem_append.1 ht).elim (h.span t) (h'.span t)
  ends t ht := by
    rcases List.mem_append.1 ht with ht | ht
    · rw [(h.ends t ht).of_ok]
      trivial
    · exact h'.ends t ht
  succeeds t ht := by
    cases spans' with
    | nil =>
        rw [List.append_nil] at ht
        exact (h.ends t (List.dropLast_subset _ ht)).of_ok
    | cons first rest =>
        rw [List.dropLast_append_of_ne_nil (List.cons_ne_nil _ _)] at ht
        rcases List.mem_append.1 ht with ht | ht
        · exact (h.ends t ht).of_ok
        · exact h'.succeeds t ht

theorem Course.nil (reply : Reply Unit) : Course checked [] [] reply where
  record := rfl
  span _ ht := absurd ht List.not_mem_nil
  ends _ ht := absurd ht List.not_mem_nil
  succeeds _ ht := absurd ht List.not_mem_nil

/-- An action leaves the record as it is. -/
def Action.Quiet (log : ω → List Moment) (x : Action ω α) : Prop :=
  Keeps (fun w w' => log w' = log w) x

theorem quiet_bind {x : Action ω α} {f : α → Action ω β} (hx : x.Quiet log)
    (hf : ∀ a, (f a).Quiet log) : (x >>= f).Quiet log :=
  keeps_bind (fun _ _ _ h h' => h'.trans h) hx hf

theorem course_quiet {x : Action ω α} (h : x.Quiet log) : x.Leaves log w (Course checked []) :=
  ⟨[], by rw [h w, List.append_nil], .nil _⟩

/-- One action after the other. -/
theorem course_bind {x : Action ω α} {f : α → Action ω β} (hx : x.Leaves log w (Course checked spans))
    (hf : ∀ a u, x w = (.ok a, u) → (f a).Leaves log u (Course checked spans')) :
    (x >>= f).Leaves log w (Course checked spans) ∨
      (x >>= f).Leaves log w (Course checked (spans ++ spans')) := by
  obtain ⟨ms, hLog, hCourse⟩ := hx
  rcases hRun : x w with ⟨a | e | _, u⟩ <;> rw [hRun] at hLog hCourse
  · obtain ⟨ms', hLog', hCourse'⟩ := hf a u hRun
    refine .inr ⟨ms ++ ms', ?_, ?_⟩
    · rw [bind_ok hRun, hLog', hLog, List.append_assoc]
    · rw [bind_ok hRun]
      exact hCourse.append hCourse'
  · exact .inl (.of_eq (bind_error hRun) hLog hCourse)
  · exact .inl (.of_eq (bind_hang hRun) hLog hCourse)

/-- What follows on transactions without any more. -/
theorem course_then {x : Action ω α} {f : α → Action ω β}
    (hx : x.Leaves log w (Course checked spans)) (hf : ∀ a, (f a).Quiet log) :
    (x >>= f).Leaves log w (Course checked spans) := by
  have hBoth := course_bind hx fun a u _ => course_quiet (w := u) (hf a)
  rw [List.append_nil, or_self] at hBoth
  exact hBoth

/-- A time limit changes nothing but that work without an answer runs out of time. -/
theorem course_within {x : Action ω α} (limit : Duration)
    (hx : x.Leaves log w (Course checked spans)) :
    (Action.within limit x).Leaves log w (Course checked spans) := by
  obtain ⟨ms, hLog, hCourse⟩ := hx
  unfold Action.within
  rcases hRun : x w with ⟨a | e | _, u⟩ <;> rw [hRun] at hLog hCourse
  · exact .of_eq (by rw [hRun]) hLog hCourse
  · exact .of_eq (by rw [hRun]) hLog hCourse
  · refine .of_eq (by rw [hRun]) hLog ⟨hCourse.record, hCourse.span, fun t ht => ?_, hCourse.succeeds⟩
    have hEnds := hCourse.ends t ht
    obtain ⟨record, last⟩ := t
    cases last with
    | ok _ => trivial
    | error e => cases hEnds
    | hang => exact .inr ⟨limit, rfl⟩

end

end GraphMapping

import GraphMapping.Proofs.Persist.Known
import GraphMapping.Proofs.Persist.Parts

/-!
# How far a plan is written

Writing a plan works through its parts in order, first those of the nodes and then those of the
relationships.  Each part is one call; the first answer that is not in order ends the writing, as does a
part whose rows cannot be made.
-/

namespace GraphMapping

open GraphMapping.Action

/-- The answer to a statement is in order: the rows of nodes have keys and numbers and are as many as were
sent, and the relationships written are as many as were sent. -/
def Call.Fine (call : Call) : Prop :=
  ∃ rows, call.reply = .ok rows ∧ match call.statement.kind with
    | .nodeUpsert =>
        (∀ row ∈ rows, (rowKey row).isSome = true ∧ (Record.int? row "id").isSome = true) ∧
          rows.length = call.statement.batch.length
    | _ => ((rows.head?.bind (Record.int? · "written")).getD 0).toInt = call.statement.batch.length

/-- How far some calls have come with the parts of a plan: to the end, to a part that is blocked, or to a
call whose answer is not in order.  `complete` says which. -/
inductive Progress {π : Type} (writes : π → Statement → Prop) (blocked : π → Prop) :
    List π → List Call → Bool → Prop
  | done : Progress writes blocked [] [] true
  | blocked {part : π} {rest : List π} (h : blocked part) : Progress writes blocked (part :: rest) [] false
  | failed {part : π} {rest : List π} {call : Call} (hWrites : writes part call.statement)
      (hNot : ¬ call.Fine) : Progress writes blocked (part :: rest) [call] false
  | next {part : π} {rest : List π} {call : Call} {calls : List Call} {complete : Bool}
      (hWrites : writes part call.statement) (hFine : call.Fine)
      (hRest : Progress writes blocked rest calls complete) :
      Progress writes blocked (part :: rest) (call :: calls) complete

section

variable {π : Type} {writes : π → Statement → Prop} {blocked : π → Prop} {parts others : List π}
  {first second made : List Call} {complete : Bool}

namespace Progress

/-- After the end of some parts the next ones are begun. -/
theorem append (h : Progress writes blocked parts first true)
    (hOthers : Progress writes blocked others second complete) :
    Progress writes blocked (parts ++ others) (first ++ second) complete := by
  generalize hDone : true = finished at h
  induction h with
  | done => exact hOthers
  | blocked _ => cases hDone
  | failed _ _ => cases hDone
  | next hWrites hFine _ ih => exact .next hWrites hFine (ih hDone)

/-- A problem ends the writing, whatever parts would follow. -/
theorem append_stopped (h : Progress writes blocked parts made false) (others : List π) :
    Progress writes blocked (parts ++ others) made false := by
  generalize hStopped : false = finished at h ⊢
  induction h with
  | done => cases hStopped
  | blocked hBlocked => exact .blocked hBlocked
  | failed hWrites hNot => exact .failed hWrites hNot
  | next hWrites hFine _ ih => exact .next hWrites hFine (ih hStopped)

theorem sends (h : Progress writes blocked parts made complete) :
    ∀ call ∈ made, ∃ part ∈ parts, writes part call.statement := by
  induction h with
  | done => exact fun _ hCall => absurd hCall List.not_mem_nil
  | blocked _ => exact fun _ hCall => absurd hCall List.not_mem_nil
  | failed hWrites _ =>
      intro call hCall
      cases List.mem_singleton.1 hCall
      exact ⟨_, List.mem_cons_self, hWrites⟩
  | next hWrites _ _ ih =>
      intro call hCall
      rcases List.mem_cons.1 hCall with rfl | hCall
      · exact ⟨_, List.mem_cons_self, hWrites⟩
      · obtain ⟨part, hPart, hSent⟩ := ih call hCall
        exact ⟨part, List.mem_cons_of_mem _ hPart, hSent⟩

/-- In the end every part was sent, by one call each. -/
theorem all_sent (h : Progress writes blocked parts made true) :
    List.Forall₂ (fun part call => writes part call.statement ∧ call.Fine) parts made := by
  generalize hDone : true = finished at h
  induction h with
  | done => exact .nil
  | blocked _ => cases hDone
  | failed _ _ => cases hDone
  | next hWrites hFine _ ih => exact .cons ⟨hWrites, hFine⟩ (ih hDone)

/-- If all answers are in order and no part is blocked, the end is reached. -/
theorem complete_of (h : Progress writes blocked parts made complete) (hFine : ∀ call ∈ made, call.Fine)
    (hOpen : ∀ part ∈ parts, ¬ blocked part) : complete = true := by
  induction h with
  | done => rfl
  | blocked hBlocked => exact absurd hBlocked (hOpen _ List.mem_cons_self)
  | failed _ hNot => exact absurd (hFine _ List.mem_cons_self) hNot
  | next _ _ _ ih =>
      exact ih (fun call hCall => hFine call (List.mem_cons_of_mem _ hCall))
        fun part hPart => hOpen part (List.mem_cons_of_mem _ hPart)

end Progress

variable {α β δ : Type}

/-- An action works through parts: it makes the calls for them up to the end or to the first problem, and
gives what `result` makes of its calls just if it has come to the end. -/
def WorksThrough (writes : π → Statement → Prop) (blocked : π → Prop) (parts : List π)
    (result : List Call → α) (x : Action (δ × List Call) α) : Prop :=
  ∀ d calls, ∃ made complete, (x (d, calls)).2.2 = made.reverse ++ calls ∧
    Progress writes blocked parts made complete ∧
    ∀ a, (x (d, calls)).1 = .ok a ↔ complete = true ∧ a = result made

/-- Without a result the end was not reached. -/
theorem stopped_of_reply {reply : Reply α} {r : α} (h : ∀ a, reply = .ok a ↔ complete = true ∧ a = r)
    (hNot : ∀ a, reply ≠ .ok a) : complete = false :=
  eq_false_of_ne_true fun hDone => hNot r ((h r).2 ⟨hDone, rfl⟩)

namespace WorksThrough

variable {x : Action (δ × List Call) α} {k : α → Action (δ × List Call) β} {f : List Call → α}
  {g : List Call → β}

theorem nothing {a : α} (h : f [] = a) :
    WorksThrough writes blocked [] f (pure a : Action (δ × List Call) α) := by
  intro d calls
  refine ⟨[], true, rfl, .done, fun b => ?_⟩
  rw [h]
  change Reply.ok a = .ok b ↔ _
  simp [eq_comm]

theorem refused {part : π} {rest : List π} {e : Error} (h : blocked part) :
    WorksThrough writes blocked (part :: rest) g
      ((ofExcept (.error e) : Action (δ × List Call) α) >>= k) :=
  fun _ _ => ⟨[], false, rfl, .blocked h, fun _ => iff_of_false nofun nofun⟩

theorem ready {a : α} (h : WorksThrough writes blocked parts g (k a)) :
    WorksThrough writes blocked parts g ((ofExcept (.ok a) : Action (δ × List Call) α) >>= k) :=
  h

theorem bind (hx : WorksThrough writes blocked parts f x)
    (hk : ∀ made, WorksThrough writes blocked others (fun more => g (made ++ more)) (k (f made))) :
    WorksThrough writes blocked (parts ++ others) g (x >>= k) := by
  intro d calls
  obtain ⟨made, complete, hCalls, hProgress, hReply⟩ := hx d calls
  rw [bind_apply]
  rcases hRun : x (d, calls) with ⟨a | e | _, d₁, calls₁⟩ <;> rw [hRun] at hCalls hReply
  · obtain ⟨rfl, rfl⟩ := (hReply a).1 rfl
    obtain ⟨more, finished, hMore, hRest, hEnd⟩ := hk made d₁ calls₁
    refine ⟨made ++ more, finished, ?_, hProgress.append hRest, hEnd⟩
    rw [hMore, List.reverse_append, List.append_assoc]
    exact congrArg _ hCalls
  -- Without a result the next action is not begun.
  all_goals
    obtain rfl := stopped_of_reply hReply nofun
    exact ⟨made, false, hCalls, hProgress.append_stopped others, fun _ => iff_of_false nofun nofun⟩

/-- One call, after which the answer is looked at, works through one part. -/
theorem once {server : Server δ} {s : Statement} {part : π} {wrap : Error → Error}
    {check : List Record → Action (δ × List Call) α} (hWrites : writes part s)
    (hAlone : ∀ rows, Keeps Eq (check rows))
    (hCheck : ∀ rows w a w', Returns (check rows) w a w' ↔
      Call.Fine ⟨s, .ok rows⟩ ∧ a = f [⟨s, .ok rows⟩] ∧ w' = w) :
    WorksThrough writes blocked [part] f (mapError wrap (server.answered.run s) >>= check) := by
  intro d calls
  rcases hRun : server.run s d with ⟨reply, d'⟩
  have hCall : server.answered.run s (d, calls) = (reply, d', ⟨s, reply⟩ :: calls) := by
    change ((server.run s d).1, (server.run s d).2, (⟨s, (server.run s d).1⟩ : Call) :: calls) = _
    rw [hRun]
  rw [bind_apply]
  unfold mapError
  rw [hCall]
  cases reply with
  | ok rows =>
      by_cases hFine : Call.Fine ⟨s, .ok rows⟩
      · have hOk := (hCheck rows (d', ⟨s, .ok rows⟩ :: calls) _ _).2 ⟨hFine, rfl, rfl⟩
        refine ⟨[⟨s, .ok rows⟩], true, ?_, .next hWrites hFine .done, fun a => ?_⟩
        · exact congrArg (·.2.2) hOk
        · rw [show (check rows (d', ⟨s, .ok rows⟩ :: calls)).1 = _ from congrArg Prod.fst hOk]
          simp [eq_comm]
      · refine ⟨[⟨s, .ok rows⟩], false, ?_, .failed hWrites hFine, fun a => iff_of_false ?_ nofun⟩
        · exact congrArg Prod.snd (hAlone rows (d', ⟨s, .ok rows⟩ :: calls)).symm
        · intro hOk
          exact hFine ((hCheck _ _ a _).1 (Prod.ext hOk rfl)).1
  | error e =>
      exact ⟨[⟨s, .error e⟩], false, rfl, .failed hWrites nofun, fun _ => iff_of_false nofun nofun⟩
  | hang => exact ⟨[⟨s, .hang⟩], false, rfl, .failed hWrites nofun, fun _ => iff_of_false nofun nofun⟩

end WorksThrough

end

/-- The table of numbers after some calls. -/
def tableAfter (ids : GraphIds) (made : List Call) : GraphIds :=
  (givenNumbers made).foldl (fun table entry => table.insert entry.1 entry.2) ids

/-- Some node has an identity that should be a number of the database and is none. -/
def Unnumbered (strategy : KeyStrategy) (part : List PlannedNode) : Prop :=
  strategy.isNative = true ∧ ∃ n ∈ part, n.isNew = false ∧ n.nativeId = none

/-- Some relationship of the type of a part has an end without number. -/
def Stranded (edges : List PlannedEdge) (ids : GraphIds) (part : List PlannedEdge) : Prop :=
  ∃ f ∈ part, ∃ e ∈ edges, e.label = f.label ∧ ¬ (Numbered ids e.start ∧ Numbered ids e.finish)

variable {δ : Type} {server : Server δ} {strategy : KeyStrategy} {label : String} {ids : GraphIds}
  {s : Statement} {batches : List Statement}

/-! ## Nodes -/

theorem givenNumbers_append (first second : List Call) :
    givenNumbers (first ++ second) = givenNumbers first ++ givenNumbers second := by
  unfold givenNumbers nodeAnswers
  rw [List.filterMap_append, List.flatMap_append]

theorem tableAfter_append (first second : List Call) :
    tableAfter ids (first ++ second) = tableAfter (tableAfter ids first) second := by
  unfold tableAfter
  rw [givenNumbers_append, List.foldl_append]

theorem fine_of_nodes {rows : List Record} (hKind : s.kind = .nodeUpsert) :
    Call.Fine ⟨s, .ok rows⟩ ↔
      (∀ row ∈ rows, (rowKey row).isSome = true ∧ (Record.int? row "id").isSome = true) ∧
        rows.length = s.batch.length := by
  simp [Call.Fine, hKind]

theorem fine_of_edges {rows : List Record} (hKind : s.kind = .relationshipUpsert) :
    Call.Fine ⟨s, .ok rows⟩ ↔
      ((rows.head?.bind (Record.int? · "written")).getD 0).toInt = s.batch.length := by
  simp [Call.Fine, hKind]

theorem tableAfter_nodes {rows : List Record} (hKind : s.kind = .nodeUpsert) :
    tableAfter ids [⟨s, .ok rows⟩] =
      (numbersIn rows).foldl (fun table entry => table.insert entry.1 entry.2) ids := by
  simp [tableAfter, givenNumbers, nodeAnswers, hKind]

theorem worksThrough_writeNodes {part : List PlannedNode} {blocked : List PlannedNode → Prop}
    (h : WritesNodes strategy part s) :
    WorksThrough (WritesNodes strategy) blocked [part] (tableAfter ids)
      (writeNodes server.answered label ids s) := by
  refine .once h (fun rows => ?_) fun rows w a w' => ?_
  · refine keeps_ofExcept_bind (fun _ => rfl) fun table _ => ?_
    split
    · exact keeps_fail (fun _ => rfl) _
    · exact keeps_pure (fun _ => rfl) _
  · rw [fine_of_nodes h.kind, tableAfter_nodes h.kind, returns_bind]
    by_cases hLength : rows.length = s.batch.length
    · simp [hLength, collectIds_eq_ok, and_assoc]
    · simp [hLength]

theorem worksThrough_batches {parts : List (List PlannedNode)} {blocked : List PlannedNode → Prop}
    (h : List.Forall₂ (WritesNodes strategy) parts batches) (ids : GraphIds) :
    WorksThrough (WritesNodes strategy) blocked parts (tableAfter ids)
      (batches.foldlM (writeNodes server.answered label) ids) := by
  induction h generalizing ids with
  | nil => exact .nothing rfl
  | cons hHead _ ih =>
      rw [List.foldlM_cons]
      refine .bind (worksThrough_writeNodes hHead) fun made => ?_
      simp only [tableAfter_append]
      exact ih _

/-- If the statements of a label cannot be made, its first part is to blame. -/
theorem unnumbered_first {nodes : List PlannedNode} {e : Error}
    (h : nodeBatches strategy label nodes = .error e) :
    ∃ part rest, nodeParts strategy nodes = part :: rest ∧ Unnumbered strategy part := by
  have hNot : ¬ (strategy.isNative = true → ∀ n ∈ nodes, n.isNew = false → n.nativeId ≠ none) := by
    intro hNumbers
    obtain ⟨batches, hOk⟩ : ∃ batches, nodeBatches strategy label nodes = .ok batches :=
      nodeBatches_total hNumbers
    rw [h] at hOk
    cases hOk
  push Not at hNot
  obtain ⟨hNative, n, hn, hOld, hNone⟩ := hNot
  have hMem : n ∈ nodes.filter (!·.isNew) := List.mem_filter.2 ⟨hn, by simp [hOld]⟩
  rw [nodeParts_native hNative, if_neg (by simpa using ⟨n, hn, hOld⟩)]
  exact ⟨_, _, rfl, hNative, n, hMem, hOld, hNone⟩

/-- Writing the nodes of a plan works through all of their parts, and gives the table of their numbers. -/
theorem worksThrough_persistNodes {nodes : Dict (List PlannedNode)}
    (hNamed : ∀ group ∈ nodes, ∀ n ∈ group.2, n.label = group.1) (hSome : ∀ group ∈ nodes, group.2 ≠ [])
    (ids : GraphIds) :
    WorksThrough (WritesNodes strategy) (Unnumbered strategy)
      (nodes.flatMap fun group => nodeParts strategy group.2) (tableAfter ids)
      (persistNodes server.answered strategy nodes ids) := by
  induction nodes generalizing ids with
  | nil => exact .nothing rfl
  | cons group rest ih =>
      obtain ⟨label, items⟩ := group
      obtain ⟨hNamedHere, hNamedRest⟩ := List.forall_mem_cons.1 hNamed
      obtain ⟨hSomeHere, hSomeRest⟩ := List.forall_mem_cons.1 hSome
      rw [List.flatMap_cons]
      unfold persistNodes
      cases hBatches : nodeBatches strategy label items with
      | error e =>
          obtain ⟨part, others, hParts, hUnnumbered⟩ := unnumbered_first hBatches
          rw [hParts]
          exact .refused hUnnumbered
      | ok batches =>
          have hHere := writesNodes_nodeBatches hNamedHere hSomeHere hBatches
          refine .ready (.bind (worksThrough_batches hHere ids) fun made => ?_)
          simp only [tableAfter_append]
          exact ih hNamedRest hSomeRest _

/-! ## Relationships -/

theorem worksThrough_writeEdges {part : List PlannedEdge} {blocked : List PlannedEdge → Prop}
    (h : WritesEdges strategy ids part s) :
    WorksThrough (WritesEdges strategy ids) blocked [part] (fun _ => ())
      (writeEdges server.answered label s) := by
  refine .once h (fun rows => ?_) fun rows w a w' => ?_
  · dsimp only
    split
    · exact keeps_fail (fun _ => rfl) _
    · exact keeps_pure (fun _ => rfl) _
  · rw [fine_of_edges h.kind]
    dsimp only
    split <;> simp_all

theorem worksThrough_edgeBatches {parts : List (List PlannedEdge)} {blocked : List PlannedEdge → Prop}
    (h : List.Forall₂ (WritesEdges strategy ids) parts batches) :
    WorksThrough (WritesEdges strategy ids) blocked parts (fun _ => ())
      (batches.forM (writeEdges server.answered label)) := by
  induction h with
  | nil => exact .nothing rfl
  | cons hHead _ ih => exact .bind (worksThrough_writeEdges hHead) fun _ => ih

/-- If the statements of a type cannot be made, already its first part is not sent. -/
theorem stranded_first {edges all : List PlannedEdge} {e : Error} (hTyped : ∀ e ∈ edges, e.label = label)
    (hAll : edges ⊆ all) (hSome : edges ≠ []) (h : edgeBatches strategy ids label edges = .error e) :
    ∃ part rest, edgeParts edges = part :: rest ∧ Stranded all ids part := by
  have hNot : ¬ ∀ e ∈ edges, Numbered ids e.start ∧ Numbered ids e.finish := by
    intro hNumbered
    obtain ⟨batches, hOk⟩ : ∃ batches, edgeBatches strategy ids label edges = .ok batches :=
      edgeBatches_total hNumbered
    rw [h] at hOk
    cases hOk
  push Not at hNot
  obtain ⟨e, he, hEnds⟩ := hNot
  have hWhole : (edgeParts edges).flatten.Perm edges :=
    flatten_classes (by decide) fun e _ => shape_mem_all e.shape
  cases hParts : edgeParts edges with
  | nil =>
      rw [hParts] at hWhole
      exact absurd hWhole.nil_eq.symm hSome
  | cons part rest =>
      have hPart : part ∈ edgeParts edges := hParts ▸ List.mem_cons_self
      -- The end without number may belong to a relationship of a later part.
      obtain ⟨k, -, rfl, hInhabited⟩ := mem_classes.1 hPart
      obtain ⟨f, hf⟩ := List.exists_mem_of_ne_nil _ hInhabited
      refine ⟨_, rest, rfl, f, hf, e, hAll he, ?_, fun h => hEnds h.1 h.2⟩
      rw [hTyped e he, hTyped f (List.mem_filter.1 hf).1]

/-- Writing the relationships of a plan works through all of their parts. -/
theorem worksThrough_persistEdges {edges : Dict (List PlannedEdge)} {all : List PlannedEdge}
    (hNamed : ∀ group ∈ edges, ∀ e ∈ group.2, e.label = group.1) (hSome : ∀ group ∈ edges, group.2 ≠ [])
    (hAll : ∀ group ∈ edges, group.2 ⊆ all) :
    WorksThrough (WritesEdges strategy ids) (Stranded all ids)
      (edges.flatMap fun group => edgeParts group.2) (fun _ => ())
      (persistEdges server.answered strategy ids edges) := by
  induction edges with
  | nil => exact .nothing rfl
  | cons group rest ih =>
      obtain ⟨label, items⟩ := group
      obtain ⟨hNamedHere, hNamedRest⟩ := List.forall_mem_cons.1 hNamed
      obtain ⟨hSomeHere, hSomeRest⟩ := List.forall_mem_cons.1 hSome
      obtain ⟨hAllHere, hAllRest⟩ := List.forall_mem_cons.1 hAll
      rw [List.flatMap_cons]
      unfold persistEdges
      cases hBatches : edgeBatches strategy ids label items with
      | error e =>
          obtain ⟨part, others, hParts, hStranded⟩ := stranded_first hNamedHere hAllHere hSomeHere hBatches
          rw [hParts]
          exact .refused hStranded
      | ok batches =>
          have hHere := writesEdges_edgeBatches hNamedHere hBatches
          exact .ready (.bind (worksThrough_edgeBatches hHere) fun _ => ih hNamedRest hSomeRest hAllRest)

/-! ## The whole plan -/

/-- How writing a plan goes, and what comes of it: the nodes part by part, and if all of them were written,
the relationships part by part, with the numbers of the nodes.  The result is the table of these numbers, if
the end was reached. -/
inductive Plan.Course (p : Plan) (strategy : KeyStrategy) : List Call → Option GraphIds → Prop
  | stopped {made : List Call}
      (hNodes : Progress (WritesNodes strategy) (Unnumbered strategy) (p.nodeParts strategy) made false) :
      Course p strategy made none
  | reached {first second : List Call} {complete : Bool}
      (hNodes : Progress (WritesNodes strategy) (Unnumbered strategy) (p.nodeParts strategy) first true)
      (hEdges : Progress (WritesEdges strategy (tableAfter [] first))
        (Stranded p.allEdges (tableAfter [] first)) p.edgeParts second complete) :
      Course p strategy (first ++ second) (if complete then some (tableAfter [] first) else none)

/-- The rows that some calls have sent in statements of a kind, in order. -/
def sentRows (kind : StatementKind) (made : List Call) : List Value :=
  (made.filter (·.statement.kind = kind)).flatMap (·.statement.batch)

/-- The driver has answered each row of a batch of nodes with its key and a number, in any order, or has
counted all rows of a batch of relationships. -/
structure Call.Answers (call : Call) (rows : List Record) : Prop where
  reply : call.reply = .ok rows
  nodes : call.statement.kind = .nodeUpsert →
    (rows.map rowKey).Perm call.statement.keys ∧ ∀ row ∈ rows, (Record.int? row "id").isSome = true
  edges : call.statement.kind = .relationshipUpsert →
    (rows.head?.bind (Record.int? · "written")).map (·.toInt) = some (call.statement.batch.length : Int)

/-- Writing a plan takes one of the courses that it can take. -/
theorem course_of_persist {p : Plan} {d d' : δ} {calls : List Call} {reply : Reply GraphIds}
    (hNodes : Dict.Groups PlannedNode.label p.nodes) (hEdges : Dict.Groups PlannedEdge.label p.edges)
    (h : p.persist server.answered strategy (d, []) = (reply, d', calls)) :
    ∃ result, p.Course strategy calls.reverse result ∧ ∀ ids, reply = .ok ids ↔ result = some ids := by
  have hThrough : WorksThrough (WritesNodes strategy) (Unnumbered strategy) (p.nodeParts strategy)
      (tableAfter []) (persistNodes server.answered strategy p.nodes []) :=
    worksThrough_persistNodes hNodes.named hNodes.inhabited []
  obtain ⟨first, complete, hFirst, hProgress, hReply⟩ := hThrough d []
  unfold Plan.persist at h
  rw [bind_apply] at h
  rcases hRun : persistNodes server.answered strategy p.nodes [] (d, []) with ⟨ids | e | _, d₁, calls₁⟩ <;>
    rw [hRun] at hFirst hReply h
  · obtain ⟨rfl, rfl⟩ := (hReply ids).1 rfl
    have hRest : WorksThrough (WritesEdges strategy (tableAfter [] first))
        (Stranded p.allEdges (tableAfter [] first)) (p.edgeParts ++ []) (fun _ => tableAfter [] first)
        (persistEdges server.answered strategy (tableAfter [] first) p.edges >>= fun _ =>
          pure (tableAfter [] first)) := by
      refine .bind (worksThrough_persistEdges hEdges.named hEdges.inhabited fun group hGroup e he => ?_)
        fun _ => .nothing rfl
      exact Dict.mem_members.2 ⟨group, hGroup, he⟩
    rw [List.append_nil] at hRest
    obtain ⟨second, finished, hSecond, hOnward, hEnd⟩ := hRest d₁ calls₁
    have hSame : (persistEdges server.answered strategy (tableAfter [] first) p.edges >>= fun _ =>
        pure (tableAfter [] first)) (d₁, calls₁) = (reply, d', calls) := h
    rw [hSame] at hSecond hEnd
    have hCalls : calls.reverse = first ++ second := by
      have hBefore : calls₁ = first.reverse := by simpa using hFirst
      simpa [hBefore] using congrArg List.reverse hSecond
    rw [hCalls]
    refine ⟨_, .reached hProgress hOnward, fun ids => ?_⟩
    rw [hEnd]
    cases finished <;> simp [eq_comm]
  all_goals
    obtain rfl := stopped_of_reply hReply nofun
    cases h
    have hCalls : calls.reverse = first := by simpa using congrArg List.reverse hFirst
    rw [hCalls]
    exact ⟨none, .stopped hProgress, fun _ => iff_of_false nofun nofun⟩

/-! ## What the calls of a course have sent -/

section

variable {made : List Call} {complete : Bool}

theorem Progress.nodes_only {blocked : List PlannedNode → Prop} {parts : List (List PlannedNode)}
    (h : Progress (WritesNodes strategy) blocked parts made complete) :
    ∀ call ∈ made, call.statement.kind = .nodeUpsert := by
  intro call hCall
  obtain ⟨part, -, hWrites⟩ := h.sends call hCall
  exact hWrites.kind

theorem Progress.edges_only {blocked : List PlannedEdge → Prop} {parts : List (List PlannedEdge)}
    (h : Progress (WritesEdges strategy ids) blocked parts made complete) :
    ∀ call ∈ made, call.statement.kind = .relationshipUpsert := by
  intro call hCall
  obtain ⟨part, -, hWrites⟩ := h.sends call hCall
  exact hWrites.kind

theorem sentRows_of_kind {kind : StatementKind} (h : ∀ call ∈ made, call.statement.kind = kind) :
    sentRows kind made = (made.map (·.statement.batch)).flatten := by
  have hAll : made.filter (·.statement.kind = kind) = made := by simpa using h
  unfold sentRows
  rw [hAll]
  rfl

theorem sentRows_of_other {kind other : StatementKind} (h : ∀ call ∈ made, call.statement.kind = other)
    (hOther : other ≠ kind) : sentRows kind made = [] := by
  have hNone : made.filter (·.statement.kind = kind) = [] := by
    rw [List.filter_eq_nil_iff]
    intro call hCall
    simpa [h call hCall] using hOther
  unfold sentRows
  rw [hNone]
  rfl

theorem sentRows_append (kind : StatementKind) (first second : List Call) :
    sentRows kind (first ++ second) = sentRows kind first ++ sentRows kind second := by
  unfold sentRows
  rw [List.filter_append, List.flatMap_append]

/-- Batches of relationships do not change the table of numbers. -/
theorem tableAfter_edges (h : ∀ call ∈ made, call.statement.kind = .relationshipUpsert) :
    tableAfter ids made = ids := by
  have hNone : nodeAnswers made = [] := by
    refine List.filterMap_eq_nil_iff.2 fun call hCall => ?_
    rw [h call hCall]
    cases call.reply <;> rfl
  unfold tableAfter givenNumbers
  rw [hNone]
  rfl

end

namespace Plan.Course

variable {p : Plan} {made : List Call} {result : Option GraphIds}

theorem kinds (h : p.Course strategy made result) : ∃ first second, made = first ++ second ∧
    (∀ call ∈ first, call.statement.kind = .nodeUpsert) ∧
    ∀ call ∈ second, call.statement.kind = .relationshipUpsert := by
  cases h with
  | stopped hNodes => exact ⟨made, [], (List.append_nil _).symm, hNodes.nodes_only, nofun⟩
  | reached hNodes hEdges => exact ⟨_, _, rfl, hNodes.nodes_only, hEdges.edges_only⟩

/-- No statement for relationships comes before one for nodes. -/
theorem nodes_first (h : p.Course strategy made result) : made.Pairwise fun call later =>
    later.statement.kind = .nodeUpsert → call.statement.kind = .nodeUpsert := by
  obtain ⟨first, second, rfl, hFirst, hSecond⟩ := h.kinds
  rw [List.pairwise_append]
  refine ⟨?_, ?_, fun call hCall _ _ _ => hFirst call hCall⟩
  · exact List.pairwise_of_forall_mem_list fun call hCall _ _ _ => hFirst call hCall
  · refine List.pairwise_of_forall_mem_list fun _ _ later hLater hKind => ?_
    rw [hSecond later hLater] at hKind
    cases hKind

/-- What was sent when the end was reached: a row for each node, and one for each relationship. -/
theorem rows_of_complete (h : p.Course strategy made (some ids))
    (hNodes : (p.nodeParts strategy).flatten.Perm p.allNodes)
    (hEdges : p.edgeParts.flatten.Perm p.allEdges) :
    ids = tableAfter [] made ∧
    (sentRows .nodeUpsert made).Perm (p.allNodes.map fun n => nodeRow (n.entries strategy) n) ∧
    ∃ edges, edges.Perm p.allEdges ∧
      List.Forall₂ (fun e row => edgeRow ids e.label e = .ok row) edges
        (sentRows .relationshipUpsert made) := by
  generalize hResult : some ids = result at h
  cases h with
  | stopped _ => cases hResult
  | @reached first second complete hFirst hSecond =>
      cases complete with
      | false => cases hResult
      | true =>
          cases hResult
          have hKindN := hFirst.nodes_only
          have hKindE := hSecond.edges_only
          have hRowsN : List.Forall₂ (fun n row => nodeRow (n.entries strategy) n = row)
              (p.nodeParts strategy).flatten (first.map (·.statement.batch)).flatten := by
            refine List.rel_flatten (List.forall₂_map_right_iff.2 (hFirst.all_sent.imp ?_))
            intro part call hSent
            rw [hSent.1.rows, ← List.forall₂_map_left_iff, List.forall₂_eq_eq_eq]
          have hRowsE : List.Forall₂ (fun e row => edgeRow (tableAfter [] first) e.label e = .ok row)
              p.edgeParts.flatten (second.map (·.statement.batch)).flatten :=
            List.rel_flatten (List.forall₂_map_right_iff.2
              (hSecond.all_sent.imp fun _ _ hSent => hSent.1.rows))
          rw [tableAfter_append, tableAfter_edges hKindE, sentRows_append, sentRows_append,
            sentRows_of_kind hKindN, sentRows_of_other hKindE (by decide), sentRows_of_kind hKindE,
            sentRows_of_other hKindN (by decide), List.append_nil, List.nil_append]
          refine ⟨rfl, ?_, _, hEdges, hRowsE⟩
          rw [← List.forall₂_map_left_iff, List.forall₂_eq_eq_eq] at hRowsN
          rw [← hRowsN]
          exact hNodes.map _

end Plan.Course

/-! ## Drivers that answer well -/

theorem numbered_tableAfter {made : List Call} {key : String} :
    Numbered (tableAfter [] made) key ↔ ∃ id, (key, id) ∈ givenNumbers made := by
  have hFold : ∀ (numbers : List (String × Int64)) (ids : GraphIds),
      Numbered (numbers.foldl (fun table entry => table.insert entry.1 entry.2) ids) key ↔
        (∃ id, (key, id) ∈ numbers) ∨ Numbered ids key := by
    intro numbers
    induction numbers with
    | nil => simp
    | cons entry rest ih =>
        intro ids
        obtain ⟨other, number⟩ := entry
        rw [List.foldl_cons, ih, numbered_insert]
        simp [exists_or, or_assoc, or_left_comm]
  have hNone : ¬ Numbered ([] : GraphIds) key := nofun
  unfold tableAfter
  rw [hFold, or_iff_left hNone]

theorem entries_ne_key (n : PlannedNode) : ∀ entry ∈ n.entries strategy, entry.1 ≠ "key" := by
  unfold PlannedNode.entries
  split
  · simp
  · split <;> simp

/-- The keys in the statement of a part are the identities of its nodes. -/
theorem WritesNodes.keys {part : List PlannedNode} (h : WritesNodes strategy part s)
    (hSome : ∀ n ∈ part, n.identity ≠ "") : s.keys = part.map fun n => some n.identity := by
  rw [keys_of_map h.rows fun n => entries_ne_key n]
  refine List.map_congr_left fun n hn => ?_
  rw [key?_string, if_neg (hSome n hn)]

theorem WritesNodes.fine {part : List PlannedNode} {call : Call}
    (h : WritesNodes strategy part call.statement) (hSome : ∀ n ∈ part, n.identity ≠ "")
    {rows : List Record} (hAnswers : call.Answers rows) : call.Fine := by
  obtain ⟨hKeys, hIds⟩ := hAnswers.nodes h.kind
  refine ⟨rows, hAnswers.reply, ?_⟩
  rw [h.kind]
  rw [h.keys hSome] at hKeys
  refine ⟨fun row hRow => ⟨?_, hIds row hRow⟩, ?_⟩
  · obtain ⟨n, -, hKey⟩ := List.mem_map.1 (hKeys.mem_iff.1 (List.mem_map.2 ⟨row, hRow, rfl⟩))
    rw [← hKey]
    rfl
  · have hLength := hKeys.length_eq
    rw [List.length_map, List.length_map] at hLength
    rw [hLength, h.rows, List.length_map]

theorem WritesEdges.fine {part : List PlannedEdge} {call : Call}
    (h : WritesEdges strategy ids part call.statement) {rows : List Record}
    (hAnswers : call.Answers rows) : call.Fine := by
  obtain ⟨n, hWritten, hCount⟩ := Option.map_eq_some_iff.1 (hAnswers.edges h.kind)
  refine ⟨rows, hAnswers.reply, ?_⟩
  rw [h.kind]
  dsimp only
  rw [hWritten]
  exact hCount

section

variable {nodes : List PlannedNode} {parts : List (List PlannedNode)} {first made : List Call}
  (hParts : parts.flatten.Perm nodes) (hSome : ∀ n ∈ nodes, n.identity ≠ "")

include hParts hSome

theorem identities_of_part {part : List PlannedNode} (hPart : part ∈ parts) :
    ∀ n ∈ part, n ∈ nodes ∧ n.identity ≠ "" := by
  intro n hn
  have hNode : n ∈ nodes := hParts.mem_iff.1 (List.mem_flatten.2 ⟨part, hPart, hn⟩)
  exact ⟨hNode, hSome n hNode⟩

/-- Once all parts were answered well, exactly the identities of the nodes have numbers. -/
theorem numbered_of_answers {blocked : List PlannedNode → Prop} {key : String}
    (h : Progress (WritesNodes strategy) blocked parts first true)
    (hAnswers : ∀ call ∈ first, ∃ rows, call.Answers rows) :
    Numbered (tableAfter [] first) key ↔ ∃ n ∈ nodes, n.identity = key := by
  obtain ⟨hEachPart, hEachCall⟩ := exists_of_forall₂ h.all_sent
  rw [numbered_tableAfter]
  constructor
  · rintro ⟨id, hGiven⟩
    obtain ⟨s, rows, hCall, hKind, hNumber⟩ := mem_givenNumbers.1 hGiven
    obtain ⟨part, hPart, hWrites, -⟩ := hEachCall _ hCall
    obtain ⟨rows', hWell⟩ := hAnswers _ hCall
    cases hWell.reply
    obtain ⟨row, hRow, hKey, -⟩ := mem_numbersIn.1 hNumber
    have hSent := (hWell.nodes hKind).1.mem_iff.1 (List.mem_map.2 ⟨row, hRow, hKey⟩)
    rw [hWrites.keys fun n hn => (identities_of_part hParts hSome hPart n hn).2] at hSent
    obtain ⟨n, hn, hIdentity⟩ := List.mem_map.1 hSent
    exact ⟨n, (identities_of_part hParts hSome hPart n hn).1, Option.some.inj hIdentity⟩
  · rintro ⟨n, hn, rfl⟩
    obtain ⟨part, hPart, hMember⟩ := List.mem_flatten.1 (hParts.mem_iff.2 hn)
    obtain ⟨call, hCall, hWrites, -⟩ := hEachPart part hPart
    obtain ⟨rows, hWell⟩ := hAnswers call hCall
    obtain ⟨hEchoed, hIds⟩ := hWell.nodes hWrites.kind
    have hKeys := hWrites.keys fun n hn => (identities_of_part hParts hSome hPart n hn).2
    have hSent : some n.identity ∈ call.statement.keys := by
      rw [hKeys]
      exact List.mem_map.2 ⟨n, hMember, rfl⟩
    obtain ⟨row, hRow, hKey⟩ := List.mem_map.1 (hEchoed.mem_iff.2 hSent)
    obtain ⟨id, hId⟩ := Option.isSome_iff_exists.1 (hIds row hRow)
    refine ⟨id, mem_givenNumbers.2 ⟨call.statement, rows, ?_, hWrites.kind,
      mem_numbersIn.2 ⟨row, hRow, hKey, hId⟩⟩⟩
    rwa [← hWell.reply]

end

/-- A driver that answers well has all of a plan written, if its relationships join planned nodes: in the end
exactly the planned identities have numbers. -/
theorem Plan.Course.complete_of_answers {p : Plan} {made : List Call} {result : Option GraphIds}
    (h : p.Course strategy made result) (hNodes : (p.nodeParts strategy).flatten.Perm p.allNodes)
    (hSome : ∀ n ∈ p.allNodes, n.identity ≠ "")
    (hPlaced : ∀ e ∈ p.allEdges,
      (∃ n ∈ p.allNodes, n.identity = e.start) ∧ ∃ n ∈ p.allNodes, n.identity = e.finish)
    (hNumbers : strategy.isNative = true → ∀ n ∈ p.allNodes, n.isNew = false → n.nativeId ≠ none)
    (hAnswers : ∀ call ∈ made, ∃ rows, call.Answers rows) :
    ∃ ids, result = some ids ∧ ∀ key, Numbered ids key ↔ ∃ n ∈ p.allNodes, n.identity = key := by
  have hOpen : ∀ part ∈ p.nodeParts strategy, ¬ Unnumbered strategy part := by
    rintro part hPart ⟨hNative, n, hn, hOld, hNone⟩
    exact hNumbers hNative n (identities_of_part hNodes hSome hPart n hn).1 hOld hNone
  cases h with
  | stopped hFirst =>
      have hFine : ∀ call ∈ made, call.Fine := by
        intro call hCall
        obtain ⟨part, hPart, hWrites⟩ := hFirst.sends call hCall
        obtain ⟨rows, hWell⟩ := hAnswers call hCall
        exact hWrites.fine (fun n hn => (identities_of_part hNodes hSome hPart n hn).2) hWell
      cases hFirst.complete_of hFine hOpen
  | @reached first second complete hFirst hSecond =>
      obtain ⟨hWell, hWellLater⟩ := List.forall_mem_append.1 hAnswers
      have hNumbered : ∀ key, Numbered (tableAfter [] first) key ↔ ∃ n ∈ p.allNodes, n.identity = key :=
        fun key => numbered_of_answers hNodes hSome hFirst hWell
      have hDone : complete = true := by
        refine hSecond.complete_of (fun call hCall => ?_) ?_
        · obtain ⟨part, -, hWrites⟩ := hSecond.sends call hCall
          obtain ⟨rows, hAnswered⟩ := hWellLater call hCall
          exact hWrites.fine hAnswered
        · rintro part - ⟨-, -, e, he, -, hEnds⟩
          exact hEnds ⟨(hNumbered _).2 (hPlaced e he).1, (hNumbered _).2 (hPlaced e he).2⟩
      subst hDone
      exact ⟨_, rfl, hNumbered⟩

end GraphMapping

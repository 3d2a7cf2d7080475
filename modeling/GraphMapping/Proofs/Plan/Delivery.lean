import GraphMapping.Proofs.Persist.Progress
import GraphMapping.Proofs.Persist.Recorded
import GraphMapping.Proofs.Session.NativeSave

/-!
# Plans that are written

A plan that was made can be written in parts: every node stands in one of them, and so does every
relationship.  Writing it sends one statement for each part, in order, up to the first problem.  A driver
that answers well is the end of all problems, since the relationships of the plan join nodes of the plan.
-/

namespace GraphMapping

open GraphMapping.Action

/-- What the calls of a plan have done, and what comes of it. -/
structure Plan.Delivery (p : Plan) (strategy : KeyStrategy) (made : List Call) (reply : Reply GraphIds) :
    Prop where
  /-- The parts were sent in order, up to the end or to the first problem; only the end has a result. -/
  course : ∃ result, p.Course strategy made result ∧ ∀ ids, reply = .ok ids ↔ result = some ids
  /-- No statement for relationships comes before one for nodes. -/
  nodesFirst : made.Pairwise fun call later =>
    later.statement.kind = .nodeUpsert → call.statement.kind = .nodeUpsert
  /-- In the end every node and every relationship has been sent in one row. -/
  rows : ∀ ids, reply = .ok ids → ids = tableAfter [] made ∧
    (sentRows .nodeUpsert made).Perm (p.allNodes.map fun n => nodeRow (n.entries strategy) n) ∧
    ∃ edges, edges.Perm p.allEdges ∧
      List.Forall₂ (fun e row => edgeRow ids e.label e = .ok row) edges (sentRows .relationshipUpsert made)
  /-- Good answers lead to the end, where exactly the planned identities have numbers. -/
  answered : (strategy.isNative = true → ∀ n ∈ p.allNodes, n.isNew = false → n.nativeId ≠ none) →
    (∀ call ∈ made, ∃ rows, call.Answers rows) →
    ∃ ids, reply = .ok ids ∧ ∀ key, Numbered ids key ↔ ∃ n ∈ p.allNodes, n.identity = key

/-- Every plan that is made stands in parts: its nodes by label and, where the database assigns keys, by
whether they are new; its relationships by type, direction, key and object.  With any driver it is written
part by part, nodes before relationships, up to the first problem. -/
theorem persist_delivers {σ : Type} (w : Walker σ) (root : Ref) (depth taken : Nat) (p : Plan) (after : Nat)
    (hMade : Plan.make w.model w.registry w.heap root depth taken = (.ok p, after)) :
    Parted PlannedNode.label (fun n => w.registry.strategy.isNative && n.isNew) (· < ·) p.allNodes
      (p.nodeParts w.registry.strategy) ∧
    Parted PlannedEdge.label PlannedEdge.shape (fun one other => one.rank < other.rank) p.allEdges
      p.edgeParts ∧
    ∀ (δ : Type) (server : Server δ) (d d' : δ) (reply : Reply GraphIds),
      p.persist server w.registry.strategy d = (reply, d') →
      ∃ calls, p.persist server.answered w.registry.strategy (d, []) = (reply, d', calls) ∧
        p.Delivery w.registry.strategy calls.reverse reply := by
  obtain ⟨s, hPlan, -, hIdentity, hTakes⟩ := Walker.takes_of_make hMade
  have hFinished : w.Finished root depth taken p s := ⟨hPlan, hIdentity, .of_takes hTakes⟩
  have hGroups : Dict.Groups PlannedNode.label p.nodes := hPlan ▸ hFinished.recorded.nodes.groups
  have hTypes : Dict.Groups PlannedEdge.label p.edges := hPlan ▸ hFinished.recorded.edges.groups
  have hNodes := Plan.nodes_parted w.registry.strategy hGroups
  have hEdges := Plan.edges_parted hTypes
  refine ⟨hNodes, hEdges, fun δ server d d' reply hRun => ?_⟩
  rcases hRecord : p.persist server.answered w.registry.strategy (d, []) with ⟨reply', d'', calls⟩
  have hSame := records_persist server w.registry.strategy p d []
  rw [hRecord, hRun] at hSame
  cases hSame
  obtain ⟨result, hCourse, hReply⟩ := course_of_persist hGroups hTypes hRecord
  refine ⟨calls, rfl, ⟨result, hCourse, hReply⟩, hCourse.nodes_first, fun ids hOk => ?_,
    fun hNumbers hAnswers => ?_⟩
  · rw [(hReply ids).1 hOk] at hCourse
    exact hCourse.rows_of_complete hNodes.whole hEdges.whole
  · obtain ⟨ids, hResult, hNumbered⟩ := hCourse.complete_of_answers hNodes.whole
      (fun n hn => Walker.identity_ne_empty hFinished (Walker.IdentityRecords.of_takes hTakes) hn)
      (fun e he => Walker.placed_of_planned hFinished he) hNumbers hAnswers
    exact ⟨ids, (hReply ids).2 hResult, hNumbered⟩

instance (call : Call) : Decidable (∃ rows, call.Answers rows) :=
  match call with
  | ⟨s, .ok rows⟩ =>
      decidable_of_iff ((s.kind = .nodeUpsert →
          (rows.map rowKey).Perm s.keys ∧ ∀ row ∈ rows, (Record.int? row "id").isSome = true) ∧
        (s.kind = .relationshipUpsert →
          (rows.head?.bind (Record.int? · "written")).map (·.toInt) = some (s.batch.length : Int)))
        ⟨fun h => ⟨rows, rfl, h.1, h.2⟩, fun ⟨_, h⟩ => by cases h.reply; exact ⟨h.nodes, h.edges⟩⟩
  | ⟨_, .error _⟩ => .isFalse fun ⟨_, h⟩ => nomatch h.reply
  | ⟨_, .hang⟩ => .isFalse fun ⟨_, h⟩ => nomatch h.reply

theorem sketches_delivered :
    Plan.make Sketchbook.model Sketchbook.registry Sketchbook.world.heap 0 1 0 = (.ok Sketchbook.plan, 0) ∧
    (Sketchbook.plan.nodeParts .native).map (·.map (·.identity)) = [["7"], ["new:1", "new:2"]] ∧
    Sketchbook.plan.edgeParts.map (·.map (·.finish)) = [["new:2", "7"]] ∧
    ∃ ids calls, (Sketchbook.plan.persist Script.server .native .new).1 = .ok ids ∧
      (∀ call ∈ calls, ∃ rows, call.Answers rows) ∧
      Sketchbook.plan.Delivery .native calls (.ok ids) ∧ calls.length = 3 ∧
      ∀ key, Numbered ids key ↔ ∃ n ∈ Sketchbook.plan.allNodes, n.identity = key := by
  have hMade : Plan.make Sketchbook.model Sketchbook.registry Sketchbook.world.heap 0 1 0 =
      (.ok Sketchbook.plan, 0) := by rfl
  obtain ⟨-, -, hRun⟩ := persist_delivers (Sketchbook.session.walker Sketchbook.model Sketchbook.world)
    0 1 0 Sketchbook.plan 0 hMade
  obtain ⟨calls, hCalls, hDelivery⟩ := hRun Script Script.server .new _ _ rfl
  have hMost : (∀ call ∈ (Sketchbook.plan.persist Script.server.answered .native (.new, [])).2.2.reverse,
      ∃ rows, call.Answers rows) ∧
      (Sketchbook.plan.persist Script.server.answered .native (.new, [])).2.2.reverse.length = 3 := by
    decide +kernel
  change Sketchbook.plan.persist Script.server.answered .native (.new, []) = _ at hCalls
  rw [hCalls] at hMost
  obtain ⟨ids, hOk, hNumbered⟩ := hDelivery.answered (fun _ => by decide +kernel) hMost.1
  change _ = Reply.ok ids at hOk
  refine ⟨hMade, by rfl, by rfl, ids, calls.reverse, hOk, hMost.1, ?_, hMost.2, hNumbered⟩
  rw [← hOk]
  exact hDelivery

end GraphMapping

import GraphMapping.Proofs.Persist.Calls

/-!
# The record of the calls

The calls made while a plan is written are seen through a server that keeps a record of them.  The record
changes nothing: the plan is written as without it.
-/

namespace GraphMapping

open GraphMapping.Action

section

variable {α β δ ρ : Type}

/-- An action does what another one does, and keeps a record besides. -/
def Action.Records (x : Action (δ × ρ) α) (y : Action δ α) : Prop :=
  ∀ d r, ((x (d, r)).1, (x (d, r)).2.1) = y d

theorem records_const (reply : Reply α) :
    Action.Records (fun w : δ × ρ => (reply, w)) (fun d : δ => (reply, d)) :=
  fun _ _ => rfl

theorem records_mapError {wrap : Error → Error} {x : Action (δ × ρ) α} {y : Action δ α}
    (h : Action.Records x y) : Action.Records (mapError wrap x) (mapError wrap y) := by
  intro d r
  have hHere := h d r
  unfold mapError
  rw [← hHere]
  rcases x (d, r) with ⟨a | e | _, w⟩ <;> rfl

theorem records_bind {x : Action (δ × ρ) α} {y : Action δ α} {f : α → Action (δ × ρ) β}
    {g : α → Action δ β} (h : Action.Records x y) (hNext : ∀ a, Action.Records (f a) (g a)) :
    Action.Records (x >>= f) (y >>= g) := by
  intro d r
  have hHere := h d r
  rw [bind_apply, bind_apply, ← hHere]
  rcases x (d, r) with ⟨a | e | _, d', r'⟩
  · exact hNext a d' r'
  · rfl
  · rfl

end

section

variable {δ : Type} (server : Server δ) (strategy : KeyStrategy) (label : String)

theorem records_run (s : Statement) : Action.Records (server.answered.run s) (server.run s) :=
  fun _ _ => rfl

theorem records_writeNodes (ids : GraphIds) (s : Statement) :
    Action.Records (writeNodes server.answered label ids s) (writeNodes server label ids s) := by
  refine records_bind (records_mapError (records_run server s)) fun rows => ?_
  refine records_bind (records_const _) fun table => ?_
  split <;> exact records_const _

theorem records_writeEdges (s : Statement) :
    Action.Records (writeEdges server.answered label s) (writeEdges server label s) := by
  refine records_bind (records_mapError (records_run server s)) fun rows => ?_
  dsimp only
  split <;> exact records_const _

theorem records_persistNodes (nodes : Dict (List PlannedNode)) (ids : GraphIds) :
    Action.Records (persistNodes server.answered strategy nodes ids)
      (persistNodes server strategy nodes ids) := by
  have hBatches : ∀ label (batches : List Statement) ids,
      Action.Records (batches.foldlM (writeNodes server.answered label) ids)
        (batches.foldlM (writeNodes server label) ids) := by
    intro label batches
    induction batches with
    | nil => exact fun ids => records_const (.ok ids)
    | cons s rest ih => exact fun ids => records_bind (records_writeNodes server label ids s) ih
  induction nodes generalizing ids with
  | nil => exact records_const (.ok ids)
  | cons group rest ih =>
      refine records_bind (records_const _) fun batches => ?_
      exact records_bind (hBatches group.1 batches ids) fun table => ih table

theorem records_persistEdges (edges : Dict (List PlannedEdge)) (ids : GraphIds) :
    Action.Records (persistEdges server.answered strategy ids edges)
      (persistEdges server strategy ids edges) := by
  have hBatches : ∀ label (batches : List Statement),
      Action.Records (batches.forM (writeEdges server.answered label))
        (batches.forM (writeEdges server label)) := by
    intro label batches
    induction batches with
    | nil => exact records_const (.ok ())
    | cons s rest ih => exact records_bind (records_writeEdges server label s) fun _ => ih
  induction edges with
  | nil => exact records_const (.ok ())
  | cons group rest ih =>
      refine records_bind (records_const _) fun batches => ?_
      exact records_bind (hBatches group.1 batches) fun _ => ih

theorem records_persist (p : Plan) :
    Action.Records (p.persist server.answered strategy) (p.persist server strategy) :=
  records_bind (records_persistNodes server strategy p.nodes []) fun ids =>
    records_bind (records_persistEdges server strategy p.edges ids) fun _ => records_const (.ok ids)

end

end GraphMapping

import GraphMapping.Plan.Persist
import GraphMapping.Proofs.Database.Returns
import GraphMapping.Proofs.Dict.Groups

/-!
# The calls made while a plan is written

The statements that a plan sends, and the answers it gets, are seen through a server that keeps a record
of them.  If every answer gives back the keys of its batch with numbers of the label's own, then the
table of numbers holds for each key the number under the last label that has the key.
-/

namespace GraphMapping

/-- A statement that was run, and how the call ended. -/
structure Call where
  statement : Statement
  reply : Reply (List Record)

/-- The server that also keeps a record of the statements run and their answers, latest first. -/
def Server.answered {δ : Type} (server : Server δ) : Server (δ × List Call) :=
  let silent {α : Type} (x : Action δ α) : Action (δ × List Call) α := fun (d, calls) =>
    let (reply, d) := x d
    (reply, (d, calls))
  { begin := silent server.begin
    run := fun s (d, calls) =>
      let (reply, d) := server.run s d
      (reply, (d, ⟨s, reply⟩ :: calls))
    fetch := fun s => silent (server.fetch s)
    commit := silent server.commit
    rollback := silent server.rollback }

/-- The key in a row of a batch or of an answer. -/
def rowKey (entries : Dict Value) : Option String :=
  (entries.find? "key").bind Value.key?

/-- The keys in the rows of a batch. -/
def Statement.keys (s : Statement) : List (Option String) :=
  s.batch.map fun row => match row with
    | .map entries => rowKey entries
    | _ => none

/-- A statement has a row for a node with this key. -/
def Statement.Sends (s : Statement) (key : String) : Prop :=
  ∃ entries, Value.map entries ∈ s.batch ∧ Dict.find? entries "key" = some (.string key)

/-- An answer gives back the keys of a batch, in any order, each with its number. -/
def Echoes (number : String → Int64) (s : Statement) (rows : List Record) : Prop :=
  (rows.map fun row => (rowKey row, Record.int? row "id")).Perm
    (s.keys.map fun key => (key, key.map number))

/-- Every answer to a node batch of a plan gives back the keys with numbers of the label. -/
def EchoesAll (strategy : KeyStrategy) (number : String → String → Int64)
    (nodes : Dict (List PlannedNode)) (calls : List Call) : Prop :=
  ∀ label items batches s rows, (label, items) ∈ nodes →
    nodeBatches strategy label items = .ok batches →
    s ∈ batches → ⟨s, .ok rows⟩ ∈ calls → Echoes (number label) s rows

/-- The last label under which a key is planned. -/
def lastLabel (key : String) : Dict (List PlannedNode) → Option String
  | [] => none
  | (label, items) :: rest =>
      (lastLabel key rest).or (if ∃ n ∈ items, n.identity = key then some label else none)

/-- Writing a plan may send the statement: it is one for the nodes of a label, or one for the relationships
of a type whose ends have some numbers. -/
inductive Plan.Sends (p : Plan) (strategy : KeyStrategy) (s : Statement) : Prop
  | nodes {label : String} {items : List PlannedNode} {batches : List Statement}
      (hGroup : (label, items) ∈ p.nodes) (hBatches : nodeBatches strategy label items = .ok batches)
      (hSent : s ∈ batches)
  | edges {ids : GraphIds} {label : String} {items : List PlannedEdge} {batches : List Statement}
      (hGroup : (label, items) ∈ p.edges)
      (hBatches : edgeBatches strategy ids label items = .ok batches) (hSent : s ∈ batches)

open GraphMapping.Action

variable {δ : Type} {server : Server δ} {strategy : KeyStrategy} {label : String} {d d' : δ}
  {calls calls' : List Call} {ids ids' : GraphIds}

/-! ## One batch of nodes -/

theorem find?_foldl_insert {name : String} {d : Dict Value} (entries : List (String × Value))
    (h : ∀ e ∈ entries, e.1 ≠ name) :
    Dict.find? (entries.foldl (fun d e => d.insert e.1 e.2) d) name = d.find? name := by
  induction entries generalizing d with
  | nil => rfl
  | cons e rest ih =>
      rw [List.foldl_cons, ih fun e' he' => h e' (List.mem_cons_of_mem _ he')]
      exact Dict.find?_insert_of_ne d e.2 (h e List.mem_cons_self).symm

theorem find?_ofList {name : String} {value : Value} (before : List (String × Value))
    {after : List (String × Value)} (h : ∀ e ∈ after, e.1 ≠ name) :
    Dict.find? (Dict.ofList (before ++ (name, value) :: after)) name = some value := by
  unfold Dict.ofList
  rw [List.foldl_append, List.foldl_cons, find?_foldl_insert after h]
  exact Dict.find?_insert_self _ name value

theorem nodeRow_key (n : PlannedNode) {entries : List (String × Value)}
    (h : ∀ e ∈ entries, e.1 ≠ "key") : ∃ row, nodeRow entries n = .map row ∧
      Dict.find? row "key" = some (.string n.identity) := by
  refine ⟨_, rfl, find?_ofList [] fun e he => ?_⟩
  rcases List.mem_cons.1 he with rfl | he
  · exact (by decide : "props" ≠ "key")
  · exact h e he

/-- The rows of a statement are those of some nodes, each with the node's identity as its key. -/
structure Statement.Rows (s : Statement) (nodes : List PlannedNode) : Prop where
  kind : s.kind = .nodeUpsert
  row : ∀ row ∈ s.batch, ∃ n ∈ nodes, ∃ entries, row = .map entries ∧
    Dict.find? entries "key" = some (.string n.identity)
  node : ∀ n ∈ nodes, s.Sends n.identity

theorem rows_of_map {s : Statement} {nodes : List PlannedNode}
    {f : PlannedNode → List (String × Value)} (hKind : s.kind = .nodeUpsert)
    (hBatch : s.batch = nodes.map fun n => nodeRow (f n) n)
    (hEntries : ∀ n, ∀ e ∈ f n, e.1 ≠ "key") : s.Rows nodes := by
  refine ⟨hKind, fun row hRow => ?_, fun n hn => ?_⟩
  · rw [hBatch] at hRow
    obtain ⟨n, hn, rfl⟩ := List.mem_map.1 hRow
    obtain ⟨row, hEq, hKey⟩ := nodeRow_key n (hEntries n)
    exact ⟨n, hn, row, hEq, hKey⟩
  · obtain ⟨row, hEq, hKey⟩ := nodeRow_key n (hEntries n)
    refine ⟨row, ?_, hKey⟩
    rw [hBatch, ← hEq]
    exact List.mem_map.2 ⟨n, hn, rfl⟩

/-- The keys in a batch that has one row for each node. -/
theorem keys_of_map {s : Statement} {nodes : List PlannedNode}
    {f : PlannedNode → List (String × Value)} (hBatch : s.batch = nodes.map fun n => nodeRow (f n) n)
    (hEntries : ∀ n, ∀ e ∈ f n, e.1 ≠ "key") :
    s.keys = nodes.map fun n => (Value.string n.identity).key? := by
  unfold Statement.keys
  rw [hBatch, List.map_map]
  refine List.map_congr_left fun n _ => ?_
  obtain ⟨row, hRow, hKey⟩ := nodeRow_key n (hEntries n)
  simp [hRow, rowKey, hKey]

theorem rows_mergeBatch (label field : String) (nodes : List PlannedNode) :
    (mergeBatch label field nodes).Rows nodes := by
  refine rows_of_map (f := fun n => [("pk", n.key.getD .null)]) rfl rfl fun n e he => ?_
  cases List.mem_singleton.1 he
  exact (by decide : "pk" ≠ "key")

theorem rows_createBatch (label : String) (nodes : List PlannedNode) :
    (createBatch label nodes).Rows nodes :=
  rows_of_map (f := fun _ => []) rfl rfl fun _ _ he => absurd he List.not_mem_nil

theorem numberedRow_key {n : PlannedNode} {row : Value} (h : numberedRow label n = .ok row) :
    ∃ entries, row = .map entries ∧ Dict.find? entries "key" = some (.string n.identity) := by
  unfold numberedRow at h
  split at h
  · rename_i id _
    cases h
    refine nodeRow_key n fun e he => ?_
    cases List.mem_singleton.1 he
    exact (by decide : "id" ≠ "key")
  · cases h

theorem rows_updateBatch {nodes : List PlannedNode} {s : Statement}
    (h : updateBatch label nodes = .ok s) : s.Rows nodes := by
  unfold updateBatch at h
  obtain ⟨rows, hRows, h⟩ := bind_eq_ok.1 h
  cases h
  obtain ⟨hForth, hBack⟩ := exists_of_forall₂ (mapM_eq_ok.1 hRows)
  refine ⟨rfl, fun row hRow => ?_, fun n hn => ?_⟩
  · obtain ⟨n, hn, hEq⟩ := hBack row hRow
    obtain ⟨entries, rfl, hKey⟩ := numberedRow_key hEq
    exact ⟨n, hn, entries, rfl, hKey⟩
  · obtain ⟨row, hRow, hEq⟩ := hForth n hn
    obtain ⟨entries, rfl, hKey⟩ := numberedRow_key hEq
    exact ⟨entries, hRow, hKey⟩

theorem nodeBatches_native {nodes : List PlannedNode} (hNative : strategy.isNative = true) :
    nodeBatches strategy label nodes =
      (if (nodes.filter (!·.isNew)).isEmpty then .ok []
        else (updateBatch label (nodes.filter (!·.isNew))).map ([·])).map
          (· ++ if (nodes.filter (·.isNew)).isEmpty then []
            else [createBatch label (nodes.filter (·.isNew))]) := by
  unfold nodeBatches
  simp only [hNative, Bool.not_true, Bool.false_eq_true, if_false]
  split
  · rfl
  · cases updateBatch label (nodes.filter (!·.isNew)) <;> rfl

/-- Nodes are merged in one batch, or known ones are updated and new ones created; a batch without rows is
left out. -/
theorem nodeBatches_cases {nodes : List PlannedNode} {batches : List Statement}
    (h : nodeBatches strategy label nodes = .ok batches) :
    (strategy.isNative = false ∧ batches = [mergeBatch label strategy.field nodes]) ∨
    (strategy.isNative = true ∧ ∃ updates,
      (∀ s ∈ updates, updateBatch label (nodes.filter (!·.isNew)) = .ok s) ∧
      ((∃ n, n ∈ nodes.filter (!·.isNew)) → ∃ s, s ∈ updates) ∧
      batches = updates ++ (if (nodes.filter (·.isNew)).isEmpty then []
        else [createBatch label (nodes.filter (·.isNew))])) := by
  cases hNative : strategy.isNative with
  | false =>
      unfold nodeBatches at h
      rw [hNative] at h
      cases h
      exact .inl ⟨rfl, rfl⟩
  | true =>
      rw [nodeBatches_native hNative] at h
      obtain ⟨updates, hUpdates, rfl⟩ := map_eq_ok.1 h
      refine .inr ⟨rfl, updates, ?_⟩
      split at hUpdates <;> rename_i hEmpty
      · cases hUpdates
        refine ⟨fun _ hs => absurd hs List.not_mem_nil, ?_, rfl⟩
        rintro ⟨n, hn⟩
        rw [List.isEmpty_iff.1 hEmpty] at hn
        cases hn
      · obtain ⟨u, hu, rfl⟩ := map_eq_ok.1 hUpdates
        refine ⟨fun s hs => ?_, fun _ => ⟨u, List.mem_singleton.2 rfl⟩, rfl⟩
        cases List.mem_singleton.1 hs
        exact hu

/-- Each statement for the nodes of a label writes some of them, and each node is written by one. -/
theorem nodeBatches_rows {nodes : List PlannedNode} {batches : List Statement}
    (h : nodeBatches strategy label nodes = .ok batches) :
    (∀ s ∈ batches, ∃ part, part ⊆ nodes ∧ s.Rows part) ∧
      ∀ n ∈ nodes, ∃ s ∈ batches, s.Sends n.identity := by
  obtain ⟨-, rfl⟩ | ⟨-, updates, hUpdates, hSome, rfl⟩ := nodeBatches_cases h
  · have hMerge := rows_mergeBatch label strategy.field nodes
    refine ⟨fun s hs => ?_, fun n hn => ⟨_, List.mem_singleton.2 rfl, hMerge.node n hn⟩⟩
    cases List.mem_singleton.1 hs
    exact ⟨nodes, List.Subset.refl _, hMerge⟩
  · have hCreate := rows_createBatch label (nodes.filter (·.isNew))
    constructor
    · intro s hs
      rcases List.mem_append.1 hs with hs | hs
      · exact ⟨_, fun n hn => (List.mem_filter.1 hn).1, rows_updateBatch (hUpdates s hs)⟩
      · split at hs
        · cases hs
        · cases List.mem_singleton.1 hs
          exact ⟨_, fun n hn => (List.mem_filter.1 hn).1, hCreate⟩
    · intro n hn
      by_cases hNew : n.isNew = true
      · have hMem : n ∈ nodes.filter (·.isNew) := List.mem_filter.2 ⟨hn, hNew⟩
        refine ⟨createBatch label (nodes.filter (·.isNew)), List.mem_append_right _ ?_,
          hCreate.node n hMem⟩
        rw [if_neg]
        · exact List.mem_singleton.2 rfl
        · rw [List.isEmpty_iff]
          exact List.ne_nil_of_mem hMem
      · have hMem : n ∈ nodes.filter (!·.isNew) := by
          refine List.mem_filter.2 ⟨hn, ?_⟩
          rw [eq_false_of_ne_true hNew]
          rfl
        obtain ⟨u, hu⟩ := hSome ⟨n, hMem⟩
        exact ⟨u, List.mem_append_left _ hu, (rows_updateBatch (hUpdates u hu)).node n hMem⟩

/-! ## The numbers that the answers give -/

theorem collectIds_cons {row : Record} {rest : List Record}
    (h : collectIds ids (row :: rest) = .ok ids') : ∃ key id, rowKey row = some key ∧
      Record.int? row "id" = some id ∧ collectIds (ids.insert key id) rest = .ok ids' := by
  unfold collectIds at h
  split at h
  · cases h
  · cases h
  · rename_i key id hKey hId
    exact ⟨key, id, hKey, hId, h⟩

theorem collectIds_keyed {rows : List Record} (h : collectIds ids rows = .ok ids') :
    ∀ row ∈ rows, ∃ key id, rowKey row = some key ∧ Record.int? row "id" = some id := by
  induction rows generalizing ids with
  | nil => exact fun _ hRow => absurd hRow List.not_mem_nil
  | cons row rest ih =>
      obtain ⟨key, id, hKey, hId, hRest⟩ := collectIds_cons h
      intro row' hRow'
      rcases List.mem_cons.1 hRow' with rfl | hRow'
      · exact ⟨key, id, hKey, hId⟩
      · exact ih hRest row' hRow'

theorem find?_collectIds {number : String → Int64} {rows : List Record}
    (h : collectIds ids rows = .ok ids')
    (hNumber : ∀ row ∈ rows, ∀ key, rowKey row = some key →
      Record.int? row "id" = some (number key)) (key : String) :
    ids'.find? key =
      if ∃ row ∈ rows, rowKey row = some key then some (number key) else ids.find? key := by
  induction rows generalizing ids with
  | nil =>
      cases h
      rw [if_neg]
      rintro ⟨row, hRow, -⟩
      cases hRow
  | cons row rest ih =>
      obtain ⟨first, id, hFirst, hId, hRest⟩ := collectIds_cons h
      have hLater := ih hRest fun row' hRow' => hNumber row' (List.mem_cons_of_mem _ hRow')
      rw [hNumber row List.mem_cons_self first hFirst] at hId
      cases hId
      rw [hLater]
      -- A later row for the key takes precedence over this one.
      by_cases hMore : ∃ row ∈ rest, rowKey row = some key
      · obtain ⟨row', hRow', hKey⟩ := hMore
        rw [if_pos ⟨row', hRow', hKey⟩, if_pos ⟨row', List.mem_cons_of_mem _ hRow', hKey⟩]
      · rw [if_neg hMore]
        by_cases hHere : key = first
        · subst hHere
          rw [Dict.find?_insert_self, if_pos ⟨row, List.mem_cons_self, hFirst⟩]
        · rw [Dict.find?_insert_of_ne _ _ hHere, if_neg]
          rintro ⟨row', hRow', hKey⟩
          rcases List.mem_cons.1 hRow' with rfl | hRow'
          · rw [hFirst] at hKey
            exact hHere (Option.some.inj hKey).symm
          · exact hMore ⟨row', hRow', hKey⟩

/-- An answer that echoes its batch gives each key of the batch its number, and keeps all others. -/
theorem find?_of_echoes {number : String → Int64} {s : Statement} {rows : List Record}
    (h : collectIds ids rows = .ok ids') (hEchoes : Echoes number s rows) :
    (∀ key ∈ s.keys, key.isSome = true) ∧ ∀ key, ids'.find? key =
      if some key ∈ s.keys then some (number key) else ids.find? key := by
  have hKeys : (rows.map rowKey).Perm s.keys := by
    have hFirst := hEchoes.map Prod.fst
    rw [List.map_map, List.map_map] at hFirst
    have hId : s.keys.map (Prod.fst ∘ fun key => (key, key.map number)) = s.keys := by
      exact List.map_id' s.keys
    rw [hId] at hFirst
    exact hFirst
  have hNumber : ∀ row ∈ rows, ∀ key, rowKey row = some key →
      Record.int? row "id" = some (number key) := by
    intro row hRow key hKey
    have hMem := hEchoes.mem_iff.1 (List.mem_map.2 ⟨row, hRow, rfl⟩)
    obtain ⟨key', -, hPair⟩ := List.mem_map.1 hMem
    have hSame : key' = rowKey row := congrArg Prod.fst hPair
    have hIdOf : key'.map number = Record.int? row "id" := congrArg Prod.snd hPair
    rw [← hIdOf, hSame, hKey]
    rfl
  constructor
  · intro key hKey
    obtain ⟨row, hRow, rfl⟩ := List.mem_map.1 (hKeys.mem_iff.2 hKey)
    obtain ⟨k, -, hk, -⟩ := collectIds_keyed h row hRow
    rw [hk]
    rfl
  · intro key
    rw [find?_collectIds h hNumber key]
    have hSame : (∃ row ∈ rows, rowKey row = some key) ↔ some key ∈ s.keys := by
      rw [← hKeys.mem_iff, List.mem_map]
    simp only [hSame]

theorem run_answered_returns {s : Statement} {rows : List Record} :
    Returns (server.answered.run s) (d, calls) rows (d', calls') ↔
      Returns (server.run s) d rows d' ∧ calls' = ⟨s, .ok rows⟩ :: calls := by
  have hRun : server.answered.run s (d, calls) =
      ((server.run s d).1, (server.run s d).2, ⟨s, (server.run s d).1⟩ :: calls) := rfl
  unfold Returns
  rw [hRun]
  rcases server.run s d with ⟨reply, d₁⟩
  constructor
  · intro h
    cases h
    exact ⟨rfl, rfl⟩
  · rintro ⟨h, rfl⟩
    cases h
    rfl

theorem writeNodes_returns {s : Statement}
    (h : Returns (writeNodes server.answered label ids s) (d, calls) ids' (d', calls')) :
    ∃ rows, calls' = ⟨s, .ok rows⟩ :: calls ∧ collectIds ids rows = .ok ids' := by
  unfold writeNodes at h
  obtain ⟨rows, w, hRun, hRest⟩ := returns_bind.1 h
  obtain ⟨found, w', hCollect, hLast⟩ := returns_bind.1 hRest
  obtain ⟨hCollected, rfl⟩ := returns_ofExcept.1 hCollect
  have hRows := returns_mapError.1 hRun
  by_cases hLength : rows.length ≠ s.batch.length
  · simp only [if_pos hLength] at hLast
    exact (not_returns_fail hLast).elim
  · simp only [if_neg hLength] at hLast
    obtain ⟨rfl, rfl⟩ := returns_pure.1 hLast
    exact ⟨rows, (run_answered_returns.1 hRows).2, hCollected⟩

/-- What is known after the batches of one label: all of them were answered, and if the answers echo
them, the keys in them have their numbers. -/
structure Wrote (batches : List Statement) (calls calls' : List Call) (ids ids' : GraphIds) :
    Prop where
  grows : calls ⊆ calls'
  answered : ∀ s ∈ batches, ∃ rows, ⟨s, .ok rows⟩ ∈ calls'
  numbers : ∀ number, (∀ s ∈ batches, ∀ rows, ⟨s, .ok rows⟩ ∈ calls' → Echoes number s rows) →
    (∀ s ∈ batches, ∀ key ∈ s.keys, key.isSome = true) ∧ ∀ key, ids'.find? key =
      if ∃ s ∈ batches, some key ∈ s.keys then some (number key) else ids.find? key

theorem foldlM_writeNodes_returns {batches : List Statement}
    (h : Returns (batches.foldlM (writeNodes server.answered label) ids) (d, calls) ids'
      (d', calls')) : Wrote batches calls calls' ids ids' := by
  induction batches generalizing ids d calls with
  | nil =>
      obtain ⟨rfl, hState⟩ := returns_pure.1 h
      cases hState
      refine ⟨List.Subset.refl _, fun _ hs => absurd hs List.not_mem_nil, fun number _ => ?_⟩
      refine ⟨fun _ hs => absurd hs List.not_mem_nil, fun key => ?_⟩
      rw [if_neg]
      rintro ⟨s, hs, -⟩
      cases hs
  | cons s rest ih =>
      rw [List.foldlM_cons] at h
      obtain ⟨found, ⟨d₁, calls₁⟩, hFirst, h⟩ := returns_bind.1 h
      obtain ⟨rows, rfl, hCollect⟩ := writeNodes_returns hFirst
      have hRest := ih h
      have hMade : ⟨s, .ok rows⟩ ∈ calls' := hRest.grows List.mem_cons_self
      refine ⟨fun call hCall => hRest.grows (List.mem_cons_of_mem _ hCall), ?_, ?_⟩
      · intro s' hs'
        rcases List.mem_cons.1 hs' with rfl | hs'
        · exact ⟨rows, hMade⟩
        · exact hRest.answered s' hs'
      · intro number hEchoes
        obtain ⟨hKeyed, hFind⟩ :=
          find?_of_echoes hCollect (hEchoes s List.mem_cons_self rows hMade)
        obtain ⟨hKeyedRest, hFindRest⟩ := hRest.numbers number fun s' hs' =>
          hEchoes s' (List.mem_cons_of_mem _ hs')
        constructor
        · intro s' hs'
          rcases List.mem_cons.1 hs' with rfl | hs'
          · exact hKeyed
          · exact hKeyedRest s' hs'
        · intro key
          rw [hFindRest key, hFind key]
          simp only [List.mem_cons, exists_eq_or_imp]
          by_cases hLater : ∃ s' ∈ rest, some key ∈ s'.keys
          · rw [if_pos hLater, if_pos (.inr hLater)]
          · rw [if_neg hLater]
            simp only [or_iff_left hLater]

theorem key?_string (text : String) :
    (Value.string text).key? = if text = "" then none else some text := rfl

/-- A key in the rows of some nodes is the identity of one of them. -/
theorem Statement.Rows.sender {s : Statement} {nodes : List PlannedNode} {key : String} (h : s.Rows nodes)
    (hKey : some key ∈ s.keys) : ∃ n ∈ nodes, n.identity = key := by
  obtain ⟨row, hRow, hEq⟩ := List.mem_map.1 hKey
  obtain ⟨n, hn, entries, rfl, hFind⟩ := h.row row hRow
  have hText : (Value.string n.identity).key? = some key := by
    have hBound : rowKey entries = some key := hEq
    unfold rowKey at hBound
    rw [hFind] at hBound
    exact hBound
  refine ⟨n, hn, ?_⟩
  rw [key?_string] at hText
  split at hText
  · cases hText
  · exact Option.some.inj hText

/-- A key that is sent stands in the batch, as no key if it is empty. -/
theorem Statement.Sends.mem_keys {s : Statement} {key : String} (h : s.Sends key) :
    (if key = "" then none else some key) ∈ s.keys := by
  obtain ⟨entries, hRow, hFind⟩ := h
  refine List.mem_map.2 ⟨.map entries, hRow, ?_⟩
  change rowKey entries = _
  unfold rowKey
  rw [hFind]
  rfl

/-- The keys in the batches of a label are the identities of its nodes. -/
theorem keys_nodeBatches {nodes : List PlannedNode} {batches : List Statement}
    (h : nodeBatches strategy label nodes = .ok batches)
    (hKeyed : ∀ s ∈ batches, ∀ key ∈ s.keys, key.isSome = true) (key : String) :
    (∃ s ∈ batches, some key ∈ s.keys) ↔ ∃ n ∈ nodes, n.identity = key := by
  obtain ⟨hRows, hNodes⟩ := nodeBatches_rows h
  constructor
  · rintro ⟨s, hs, hKey⟩
    obtain ⟨part, hPart, hPartRows⟩ := hRows s hs
    obtain ⟨n, hn, hIdentity⟩ := hPartRows.sender hKey
    exact ⟨n, hPart hn, hIdentity⟩
  · rintro ⟨n, hn, rfl⟩
    obtain ⟨s, hs, hSends⟩ := hNodes n hn
    have hMem := hSends.mem_keys
    have hSome := hKeyed s hs _ hMem
    split at hSome
    · cases hSome
    · rename_i hText
      rw [if_neg hText] at hMem
      exact ⟨s, hs, hMem⟩

/-- The nodes of all labels: every batch was answered, and if the answers echo them, each key has its
number under the last label that has it. -/
theorem persistNodes_returns {nodes : Dict (List PlannedNode)}
    (h : Returns (persistNodes server.answered strategy nodes ids) (d, calls) ids' (d', calls')) :
    calls ⊆ calls' ∧
    (∀ label items, (label, items) ∈ nodes → ∃ batches,
      nodeBatches strategy label items = .ok batches ∧
        ∀ s ∈ batches, ∃ rows, ⟨s, .ok rows⟩ ∈ calls') ∧
    ∀ number, EchoesAll strategy number nodes calls' → ∀ key, ids'.find? key =
      ((lastLabel key nodes).map fun label => number label key).or (ids.find? key) := by
  induction nodes generalizing ids d calls with
  | nil =>
      obtain ⟨rfl, hState⟩ := returns_pure.1 h
      cases hState
      exact ⟨List.Subset.refl _, fun _ _ hm => absurd hm List.not_mem_nil, fun _ _ _ => rfl⟩
  | cons entry rest ih =>
      obtain ⟨label, items⟩ := entry
      obtain ⟨batches, w, hBatches, hRest⟩ := returns_bind.1 h
      obtain ⟨hBatchesOk, rfl⟩ := returns_ofExcept.1 hBatches
      obtain ⟨found, ⟨d₁, calls₁⟩, hFirst, hLater⟩ := returns_bind.1 hRest
      have hWrote := foldlM_writeNodes_returns hFirst
      obtain ⟨hGrows, hAnswered, hNumbers⟩ := ih hLater
      refine ⟨List.Subset.trans hWrote.grows hGrows, ?_, ?_⟩
      · intro label' items' hm
        rcases List.mem_cons.1 hm with hHere | hm
        · cases hHere
          refine ⟨batches, hBatchesOk, fun s hs => ?_⟩
          obtain ⟨rows, hRows⟩ := hWrote.answered s hs
          exact ⟨rows, hGrows hRows⟩
        · exact hAnswered label' items' hm
      · intro number hEchoes key
        have hHere := hWrote.numbers (number label) fun s hs rows hCall =>
          hEchoes label items batches s rows List.mem_cons_self hBatchesOk hs (hGrows hCall)
        have hThere := hNumbers number fun label' items' batches' s rows hm =>
          hEchoes label' items' batches' s rows (List.mem_cons_of_mem _ hm)
        -- The later labels have the last word on a key, and this one decides if they are silent.
        rw [hThere key, hHere.2 key]
        simp only [keys_nodeBatches hBatchesOk hHere.1 key, lastLabel]
        cases lastLabel key rest with
        | some last => rfl
        | none =>
            simp only [Option.map_none, Option.none_or]
            split <;> rfl

theorem endId_eq_ok {key : String} {id : Int64} :
    endId ids label key = .ok id ↔ ids.find? key = some id := by
  unfold endId
  cases ids.find? key <;> simp

/-! ## What a plan sends, whatever happens -/

section

variable {ω : Type} {R : ω → ω → Prop} {remote : Server ω}
  (hRefl : ∀ w, R w w) (hTrans : ∀ u v w, R u v → R v w → R u w)

include hRefl hTrans

theorem keeps_writeNodes {s : Statement} (h : Keeps R (remote.run s)) :
    Keeps R (writeNodes remote label ids s) := by
  refine keeps_bind hTrans (keeps_mapError h) fun rows => ?_
  refine keeps_ofExcept_bind hRefl fun ids' _ => ?_
  split
  · exact keeps_fail hRefl _
  · exact keeps_pure hRefl _

theorem keeps_writeEdges {s : Statement} (h : Keeps R (remote.run s)) :
    Keeps R (writeEdges remote label s) := by
  refine keeps_bind hTrans (keeps_mapError h) fun rows => ?_
  dsimp only
  split
  · exact keeps_fail hRefl _
  · exact keeps_pure hRefl _

theorem keeps_foldlM_writeNodes {batches : List Statement}
    (h : ∀ s ∈ batches, Keeps R (remote.run s)) (ids : GraphIds) :
    Keeps R (batches.foldlM (writeNodes remote label) ids) := by
  induction batches generalizing ids with
  | nil => exact keeps_pure hRefl ids
  | cons s rest ih =>
      rw [List.foldlM_cons]
      refine keeps_bind hTrans (keeps_writeNodes hRefl hTrans (h s List.mem_cons_self)) fun ids' => ?_
      exact ih (fun s' hs' => h s' (List.mem_cons_of_mem _ hs')) ids'

theorem keeps_forM_writeEdges {batches : List Statement}
    (h : ∀ s ∈ batches, Keeps R (remote.run s)) :
    Keeps R (batches.forM (writeEdges remote label)) := by
  induction batches with
  | nil => exact keeps_pure hRefl ()
  | cons s rest ih =>
      refine keeps_bind hTrans (keeps_writeEdges hRefl hTrans (h s List.mem_cons_self)) fun _ => ?_
      exact ih fun s' hs' => h s' (List.mem_cons_of_mem _ hs')

/-- Writing nodes keeps what every statement for them keeps. -/
theorem keeps_persistNodes (nodes : Dict (List PlannedNode)) (ids : GraphIds)
    (h : ∀ label items batches s, (label, items) ∈ nodes →
      nodeBatches strategy label items = .ok batches → s ∈ batches → Keeps R (remote.run s)) :
    Keeps R (persistNodes remote strategy nodes ids) := by
  induction nodes generalizing ids with
  | nil => exact keeps_pure hRefl ids
  | cons entry rest ih =>
      obtain ⟨label, items⟩ := entry
      refine keeps_ofExcept_bind hRefl fun batches hBatches => ?_
      refine keeps_bind hTrans (keeps_foldlM_writeNodes hRefl hTrans (fun s hs => ?_) ids)
        fun ids' => ih ids' fun label' items' batches' s' hm =>
          h label' items' batches' s' (List.mem_cons_of_mem _ hm)
      exact h label items batches s List.mem_cons_self hBatches hs

omit hRefl hTrans in
/-- A statement for relationships has the rows of those of one shape. -/
theorem mem_edgeBatches {edges : List PlannedEdge} {batches : List Statement}
    (h : edgeBatches strategy ids label edges = .ok batches) {s : Statement} (hs : s ∈ batches) :
    ∃ shape rows, s = edgeBatch label strategy.field shape rows ∧
      ∀ row ∈ rows, ∃ e ∈ edges, e.shape = shape ∧ edgeRow ids label e = .ok row := by
  obtain ⟨rows, hRows, h⟩ := bind_eq_ok.1 h
  cases h
  obtain ⟨shape, -, hShape⟩ := List.mem_filterMap.1 hs
  split at hShape
  · cases hShape
  · cases hShape
    refine ⟨shape, _, rfl, fun row hRow => ?_⟩
    obtain ⟨⟨shape', row'⟩, hMem, rfl⟩ := List.mem_map.1 hRow
    have hFilter : (shape', row') ∈ rows.filter (·.1 == shape) := hMem
    obtain ⟨hOfRows, hOwn⟩ := List.mem_filter.1 hFilter
    obtain ⟨e, he, hEq⟩ := (exists_of_forall₂ (mapM_eq_ok.1 hRows)).2 _ hOfRows
    obtain ⟨row, hEdgeRow, hPair⟩ := map_eq_ok.1 hEq
    cases hPair
    exact ⟨e, he, eq_of_beq hOwn, hEdgeRow⟩

/-- Writing relationships keeps what every statement for them keeps. -/
theorem keeps_persistEdges (edges : Dict (List PlannedEdge)) (ids : GraphIds)
    (h : ∀ label items batches s, (label, items) ∈ edges →
      edgeBatches strategy ids label items = .ok batches → s ∈ batches → Keeps R (remote.run s)) :
    Keeps R (persistEdges remote strategy ids edges) := by
  induction edges with
  | nil => exact keeps_pure hRefl ()
  | cons entry rest ih =>
      obtain ⟨label, items⟩ := entry
      refine keeps_ofExcept_bind hRefl fun batches hBatches => ?_
      refine keeps_bind hTrans (keeps_forM_writeEdges hRefl hTrans fun s hs => ?_) fun _ =>
        ih fun label' items' batches' s' hm =>
          h label' items' batches' s' (List.mem_cons_of_mem _ hm)
      exact h label items batches s List.mem_cons_self hBatches hs

/-- Writing a plan keeps what every statement that it may send keeps. -/
theorem keeps_persist (p : Plan) (strategy : KeyStrategy)
    (h : ∀ s, p.Sends strategy s → Keeps R (remote.run s)) :
    Keeps R (p.persist remote strategy) := by
  have hNodes : Keeps R (persistNodes remote strategy p.nodes []) :=
    keeps_persistNodes hRefl hTrans p.nodes [] fun _ _ _ s hGroup hBatches hs =>
      h s (.nodes hGroup hBatches hs)
  refine keeps_bind hTrans hNodes fun ids => ?_
  have hEdges : Keeps R (persistEdges remote strategy ids p.edges) :=
    keeps_persistEdges hRefl hTrans p.edges ids fun _ _ _ s hGroup hBatches hs =>
      h s (.edges hGroup hBatches hs)
  exact keeps_bind hTrans hEdges fun _ => keeps_pure hRefl ids

end

/-- No call is forgotten, and the new ones run statements with `P`. -/
def OnlyCalls (P : Statement → Prop) (w w' : δ × List Call) : Prop :=
  w.2 ⊆ w'.2 ∧ ∀ call ∈ w'.2, call ∈ w.2 ∨ P call.statement

theorem OnlyCalls.refl (P : Statement → Prop) (w : δ × List Call) : OnlyCalls P w w :=
  ⟨List.Subset.refl _, fun _ h => .inl h⟩

theorem OnlyCalls.trans (P : Statement → Prop) (u v w : δ × List Call) (h : OnlyCalls P u v)
    (h' : OnlyCalls P v w) : OnlyCalls P u w :=
  ⟨List.Subset.trans h.1 h'.1, fun call hCall => (h'.2 call hCall).elim (h.2 call) .inr⟩

theorem keeps_run_answered {P : Statement → Prop} {s : Statement} (h : P s) :
    Keeps (OnlyCalls P) (server.answered.run s) := by
  intro w
  refine ⟨fun call hCall => List.mem_cons_of_mem _ hCall, fun call hCall => ?_⟩
  rcases List.mem_cons.1 hCall with rfl | hCall
  · exact .inr h
  · exact .inl hCall

/-- A plan that was written has written its nodes, and no call for them is forgotten. -/
theorem persist_returns {p : Plan}
    (h : Returns (p.persist server.answered strategy) (d, calls) ids (d', calls')) :
    ∃ d₁ calls₁, Returns (persistNodes server.answered strategy p.nodes []) (d, calls) ids
      (d₁, calls₁) ∧ calls₁ ⊆ calls' := by
  obtain ⟨ids', ⟨d₁, calls₁⟩, hNodes, hRest⟩ := returns_bind.1 h
  obtain ⟨_, w, hEdges, hLast⟩ := returns_bind.1 hRest
  obtain ⟨rfl, rfl⟩ := returns_pure.1 hLast
  have hKeeps : Keeps (OnlyCalls fun _ => True) (persistEdges server.answered strategy ids p.edges) :=
    keeps_persistEdges (OnlyCalls.refl _) (OnlyCalls.trans _) p.edges ids
      fun _ _ _ _ _ _ _ => keeps_run_answered trivial
  have hGrows := (hKeeps (d₁, calls₁)).1
  rw [hEdges] at hGrows
  exact ⟨d₁, calls₁, hNodes, hGrows⟩

/-- The rows that a plan sends for relationships are made with the numbers of all its nodes. -/
theorem persist_rows (p : Plan) (server : Server δ) (strategy : KeyStrategy) (d : δ) {call : Call}
    (hCall : call ∈ (p.persist server.answered strategy (d, [])).2.2)
    (hKind : call.statement.kind = .relationshipUpsert) :
    ∃ ids d₁ calls₁, Returns (persistNodes server.answered strategy p.nodes []) (d, []) ids
        (d₁, calls₁) ∧
      calls₁ ⊆ (p.persist server.answered strategy (d, [])).2.2 ∧
      ∀ row ∈ call.statement.batch, ∃ e ∈ p.allEdges, ∃ label, edgeRow ids label e = .ok row := by
  have hNodes : OnlyCalls (·.kind = .nodeUpsert) (d, [])
      (persistNodes server.answered strategy p.nodes [] (d, [])).2 :=
    keeps_persistNodes (OnlyCalls.refl _) (OnlyCalls.trans _) p.nodes []
      (fun _ _ _ s _ hBatches hs =>
        have ⟨_, _, hRows⟩ := (nodeBatches_rows hBatches).1 s hs
        keeps_run_answered hRows.kind) (d, [])
  -- While nodes are written nothing but node batches is sent, so the call came later.
  have hNoNode : ∀ calls₁ : List Call,
      (∀ call ∈ calls₁, call ∈ [] ∨ call.statement.kind = .nodeUpsert) → call ∉ calls₁ := by
    intro calls₁ hAll hMem
    rcases hAll call hMem with h | h
    · cases h
    · rw [hKind] at h
      cases h
  unfold Plan.persist at hCall ⊢
  rw [bind_apply] at hCall ⊢
  rcases hRun : persistNodes server.answered strategy p.nodes [] (d, []) with
    ⟨ids | e | _, d₁, calls₁⟩ <;>
    rw [hRun] at hNodes <;> simp only [hRun] at hCall ⊢
  · have hEdges : Keeps (OnlyCalls fun s => ∀ row ∈ s.batch, ∃ e ∈ p.allEdges, ∃ label,
        edgeRow ids label e = .ok row)
        (persistEdges server.answered strategy ids p.edges >>= fun _ => pure ids) := by
      refine keeps_bind (OnlyCalls.trans _) ?_ fun _ => keeps_pure (OnlyCalls.refl _) ids
      refine keeps_persistEdges (OnlyCalls.refl _) (OnlyCalls.trans _) p.edges ids
        fun label items batches s hGroup hBatches hs => keeps_run_answered fun row hRow => ?_
      obtain ⟨shape, rows, rfl, hRows⟩ := mem_edgeBatches hBatches hs
      obtain ⟨e, he, -, hEq⟩ := hRows row hRow
      exact ⟨e, Dict.mem_members.2 ⟨_, hGroup, he⟩, label, hEq⟩
    obtain ⟨hGrows, hNew⟩ := hEdges (d₁, calls₁)
    refine ⟨ids, d₁, calls₁, hRun, hGrows, ?_⟩
    rcases hNew call hCall with hOld | hRows
    · exact absurd hOld (hNoNode calls₁ hNodes.2)
    · exact hRows
  · exact absurd hCall (hNoNode calls₁ hNodes.2)
  · exact absurd hCall (hNoNode calls₁ hNodes.2)

end GraphMapping

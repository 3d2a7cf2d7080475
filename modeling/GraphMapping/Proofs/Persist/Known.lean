import GraphMapping.Proofs.Persist.Calls

/-!
# Ends that are known

The rows of relationships need the numbers of both of their ends.  If every node row was answered with
its key, then every planned identity has a number, and the relationships between them can be sent.
-/

namespace GraphMapping

open GraphMapping.Action

/-- Every node row that was sent was answered with its key. -/
def AnswersKeys (calls : List Call) : Prop :=
  ∀ s rows, ⟨s, .ok rows⟩ ∈ calls → s.kind = .nodeUpsert → ∀ key ∈ s.keys, key ∈ rows.map rowKey

/-- The table of numbers has an entry for a key. -/
def Numbered (ids : GraphIds) (key : String) : Prop :=
  ∃ id, ids.find? key = some id

variable {δ : Type} {server : Server δ} {strategy : KeyStrategy} {label key : String} {d d' : δ}
  {calls calls' : List Call} {ids ids' : GraphIds}

theorem numbered_insert {other : String} {id : Int64} :
    Numbered (ids.insert other id) key ↔ key = other ∨ Numbered ids key := by
  by_cases hSame : key = other
  · subst hSame
    exact iff_of_true ⟨id, Dict.find?_insert_self ids key id⟩ (.inl rfl)
  · unfold Numbered
    rw [Dict.find?_insert_of_ne _ _ hSame, or_iff_right hSame]

/-- An answer gives a number to each of its keys and takes none away. -/
theorem collectIds_numbers {rows : List Record} (h : collectIds ids rows = .ok ids') :
    (∀ key, Numbered ids key → Numbered ids' key) ∧
      ∀ key, some key ∈ rows.map rowKey → Numbered ids' key := by
  induction rows generalizing ids with
  | nil =>
      cases h
      exact ⟨fun _ hKey => hKey, fun _ hKey => absurd hKey List.not_mem_nil⟩
  | cons row rest ih =>
      obtain ⟨first, id, hFirst, -, hRest⟩ := collectIds_cons h
      obtain ⟨hKeep, hGive⟩ := ih hRest
      refine ⟨fun key hKey => hKeep key (numbered_insert.2 (.inr hKey)), fun key hKey => ?_⟩
      rcases List.mem_cons.1 hKey with hHere | hLater
      · rw [hFirst] at hHere
        cases hHere
        exact hKeep _ (numbered_insert.2 (.inl rfl))
      · exact hGive key hLater

theorem foldlM_writeNodes_numbers {batches : List Statement}
    (h : Returns (batches.foldlM (writeNodes server.answered label) ids) (d, calls) ids'
      (d', calls')) (hKind : ∀ s ∈ batches, s.kind = .nodeUpsert) (hAnswers : AnswersKeys calls') :
    (∀ key, Numbered ids key → Numbered ids' key) ∧
      (∀ s ∈ batches, ∀ key ∈ s.keys, key.isSome = true) ∧
      ∀ s ∈ batches, ∀ key, some key ∈ s.keys → Numbered ids' key := by
  induction batches generalizing ids d calls with
  | nil =>
      obtain ⟨rfl, -⟩ := returns_pure.1 h
      exact ⟨fun _ hKey => hKey, fun _ hs => absurd hs List.not_mem_nil,
        fun _ hs => absurd hs List.not_mem_nil⟩
  | cons s rest ih =>
      rw [List.foldlM_cons] at h
      obtain ⟨found, ⟨d₁, calls₁⟩, hFirst, h⟩ := returns_bind.1 h
      obtain ⟨rows, rfl, hCollect⟩ := writeNodes_returns hFirst
      have hGrows := (foldlM_writeNodes_returns h).grows
      have hCall := hAnswers s rows (hGrows List.mem_cons_self) (hKind s List.mem_cons_self)
      obtain ⟨hKeep, hGive⟩ := collectIds_numbers hCollect
      obtain ⟨hKeepRest, hKeyedRest, hGiveRest⟩ :=
        ih h fun s' hs' => hKind s' (List.mem_cons_of_mem _ hs')
      refine ⟨fun key hKey => hKeepRest key (hKeep key hKey), ?_, ?_⟩
      · intro s' hs' key hKey
        rcases List.mem_cons.1 hs' with rfl | hs'
        · -- A row without key would have failed the batch.
          obtain ⟨row, hRow, rfl⟩ := List.mem_map.1 (hCall key hKey)
          obtain ⟨text, -, hText, -⟩ := collectIds_keyed hCollect row hRow
          rw [hText]
          rfl
        · exact hKeyedRest s' hs' key hKey
      · intro s' hs' key hKey
        rcases List.mem_cons.1 hs' with rfl | hs'
        · exact hKeepRest key (hGive key (hCall _ hKey))
        · exact hGiveRest s' hs' key hKey

/-- After the nodes of a plan were written, every planned identity has a number. -/
theorem persistNodes_numbers {nodes : Dict (List PlannedNode)}
    (h : Returns (persistNodes server.answered strategy nodes ids) (d, calls) ids' (d', calls'))
    (hAnswers : AnswersKeys calls') :
    (∀ key, Numbered ids key → Numbered ids' key) ∧
      ∀ n ∈ Dict.members nodes, Numbered ids' n.identity := by
  induction nodes generalizing ids d calls with
  | nil =>
      obtain ⟨rfl, -⟩ := returns_pure.1 h
      exact ⟨fun _ hKey => hKey, fun _ hn => absurd hn List.not_mem_nil⟩
  | cons entry rest ih =>
      obtain ⟨label, items⟩ := entry
      obtain ⟨batches, w, hBatches, hRest⟩ := returns_bind.1 h
      obtain ⟨hBatchesOk, rfl⟩ := returns_ofExcept.1 hBatches
      obtain ⟨found, ⟨d₁, calls₁⟩, hFirst, hLater⟩ := returns_bind.1 hRest
      have hKind : ∀ s ∈ batches, s.kind = .nodeUpsert := by
        intro s hs
        obtain ⟨part, -, hRows⟩ := (nodeBatches_rows hBatchesOk).1 s hs
        exact hRows.kind
      have hGrows := (persistNodes_returns hLater).1
      have hAnswersHere : AnswersKeys calls₁ := fun s rows hCall => hAnswers s rows (hGrows hCall)
      obtain ⟨hKeep, hKeyed, hGive⟩ := foldlM_writeNodes_numbers hFirst hKind hAnswersHere
      obtain ⟨hKeepRest, hGiveRest⟩ := ih hLater
      refine ⟨fun key hKey => hKeepRest key (hKeep key hKey), fun n hn => ?_⟩
      rcases List.mem_append.1 hn with hHere | hThere
      · obtain ⟨s, hs, hKey⟩ := (keys_nodeBatches hBatchesOk hKeyed n.identity).2 ⟨n, hHere, rfl⟩
        exact hKeepRest _ (hGive s hs _ hKey)
      · exact hGiveRest n hThere

/-- Relationships whose ends have numbers can be sent. -/
theorem edgeBatches_total {edges : List PlannedEdge}
    (h : ∀ e ∈ edges, Numbered ids e.start ∧ Numbered ids e.finish) :
    ∃ batches, edgeBatches strategy ids label edges = .ok batches := by
  have hRow : ∀ e ∈ edges, ∃ row, edgeRow ids label e = .ok row := by
    intro e he
    obtain ⟨⟨start, hStart⟩, ⟨finish, hFinish⟩⟩ := h e he
    unfold edgeRow endId
    rw [hStart, hFinish]
    exact ⟨_, rfl⟩
  have hRows : ∀ e ∈ edges, ∃ pair,
      (edgeRow ids label e).map (fun row => (e.shape, row)) = .ok pair := by
    intro e he
    obtain ⟨row, hOk⟩ := hRow e he
    exact ⟨(e.shape, row), map_eq_ok.2 ⟨row, hOk, rfl⟩⟩
  obtain ⟨rows, hAll⟩ := mapM_total hRows
  unfold edgeBatches
  rw [hAll]
  exact ⟨_, rfl⟩

/-! ## Where a number comes from -/

/-- The keys in the rows of an answer, each with its number. -/
def numbersIn (rows : List Record) : List (String × Int64) :=
  rows.filterMap fun row => (rowKey row).bind fun key => (Record.int? row "id").map fun id => (key, id)

/-- The batches of nodes that were answered, each with its answer. -/
def nodeAnswers (calls : List Call) : List (Statement × List Record) :=
  calls.filterMap fun call => match call.reply with
    | .ok rows => if call.statement.kind = .nodeUpsert then some (call.statement, rows) else none
    | _ => none

/-- The keys in the answers to all batches of nodes, each with its number. -/
def givenNumbers (calls : List Call) : List (String × Int64) :=
  (nodeAnswers calls).flatMap fun answer => numbersIn answer.2

theorem mem_numbersIn {rows : List Record} {id : Int64} : (key, id) ∈ numbersIn rows ↔
    ∃ row ∈ rows, rowKey row = some key ∧ Record.int? row "id" = some id := by
  unfold numbersIn
  rw [List.mem_filterMap]
  refine exists_congr fun row => and_congr_right fun _ => ?_
  cases rowKey row <;> cases Record.int? row "id" <;> simp

theorem numbersIn_cons {row : Record} {rest : List Record} {id : Int64} (hKey : rowKey row = some key)
    (hId : Record.int? row "id" = some id) : numbersIn (row :: rest) = (key, id) :: numbersIn rest := by
  simp [numbersIn, hKey, hId]

theorem mem_nodeAnswers {s : Statement} {rows : List Record} : (s, rows) ∈ nodeAnswers calls ↔
    ⟨s, .ok rows⟩ ∈ calls ∧ s.kind = .nodeUpsert := by
  unfold nodeAnswers
  rw [List.mem_filterMap]
  constructor
  · rintro ⟨⟨s', reply⟩, hCall, hSome⟩
    cases reply with
    | ok rows' =>
        dsimp only at hSome
        split at hSome
        · rename_i hKind
          cases hSome
          exact ⟨hCall, hKind⟩
        · cases hSome
    | error e => cases hSome
    | hang => cases hSome
  · rintro ⟨hCall, hKind⟩
    exact ⟨_, hCall, if_pos hKind⟩

theorem mem_givenNumbers {id : Int64} : (key, id) ∈ givenNumbers calls ↔
    ∃ s rows, ⟨s, .ok rows⟩ ∈ calls ∧ s.kind = .nodeUpsert ∧ (key, id) ∈ numbersIn rows := by
  unfold givenNumbers
  simp only [List.mem_flatMap, Prod.exists, mem_nodeAnswers, and_assoc]

/-- The numbers of an answer are taken up in turn. -/
theorem collectIds_eq_ok {rows : List Record} : collectIds ids rows = .ok ids' ↔
    (∀ row ∈ rows, (rowKey row).isSome = true ∧ (Record.int? row "id").isSome = true) ∧
      ids' = (numbersIn rows).foldl (fun table entry => table.insert entry.1 entry.2) ids := by
  induction rows generalizing ids with
  | nil =>
      constructor
      · intro h
        cases h
        exact ⟨fun _ hRow => absurd hRow List.not_mem_nil, rfl⟩
      · rintro ⟨-, rfl⟩
        rfl
  | cons row rest ih =>
      constructor
      · intro h
        obtain ⟨first, id, hFirst, hId, hRest⟩ := collectIds_cons h
        obtain ⟨hRows, rfl⟩ := ih.1 hRest
        rw [numbersIn_cons hFirst hId]
        refine ⟨List.forall_mem_cons.2 ⟨?_, hRows⟩, rfl⟩
        simp [hFirst, hId]
      · rintro ⟨hRows, hTable⟩
        obtain ⟨⟨hKey, hId⟩, hRest⟩ := List.forall_mem_cons.1 hRows
        obtain ⟨first, hFirst⟩ := Option.isSome_iff_exists.1 hKey
        obtain ⟨id, hNumber⟩ := Option.isSome_iff_exists.1 hId
        rw [numbersIn_cons hFirst hNumber] at hTable
        unfold collectIds
        have hRowKey : (Dict.find? row "key").bind Value.key? = some first := hFirst
        rw [hRowKey, hNumber]
        exact ih.2 ⟨hRest, hTable⟩

/-- What is found in a table that took up some numbers was there before, or is one of them. -/
theorem find?_foldl_numbers {numbers : List (String × Int64)} {id : Int64}
    (h : Dict.find? (numbers.foldl (fun table entry => table.insert entry.1 entry.2) ids) key = some id) :
    ids.find? key = some id ∨ (key, id) ∈ numbers := by
  induction numbers generalizing ids with
  | nil => exact .inl h
  | cons entry rest ih =>
      rcases ih h with hBefore | hLater
      · by_cases hHere : key = entry.1
        · subst hHere
          rw [Dict.find?_insert_self] at hBefore
          cases hBefore
          exact .inr List.mem_cons_self
        · rw [Dict.find?_insert_of_ne _ _ hHere] at hBefore
          exact .inl hBefore
      · exact .inr (List.mem_cons_of_mem _ hLater)

theorem foldlM_writeNodes_source {batches : List Statement} {id : Int64}
    (h : Returns (batches.foldlM (writeNodes server.answered label) ids) (d, calls) ids' (d', calls'))
    (hFind : ids'.find? key = some id) : ids.find? key = some id ∨
      ∃ s ∈ batches, ∃ rows, ⟨s, .ok rows⟩ ∈ calls' ∧ (key, id) ∈ numbersIn rows := by
  induction batches generalizing ids d calls with
  | nil =>
      obtain ⟨rfl, -⟩ := returns_pure.1 h
      exact .inl hFind
  | cons s rest ih =>
      rw [List.foldlM_cons] at h
      obtain ⟨found, ⟨d₁, calls₁⟩, hFirst, h⟩ := returns_bind.1 h
      obtain ⟨rows, rfl, hCollect⟩ := writeNodes_returns hFirst
      have hGrows := (foldlM_writeNodes_returns h).grows
      rcases ih h with hBefore | ⟨s', hs', hLater⟩
      · rw [(collectIds_eq_ok.1 hCollect).2] at hBefore
        rcases find?_foldl_numbers hBefore with hBefore | hGiven
        · exact .inl hBefore
        · exact .inr ⟨s, List.mem_cons_self, rows, hGrows List.mem_cons_self, hGiven⟩
      · exact .inr ⟨s', List.mem_cons_of_mem _ hs', hLater⟩

/-- Every number that was taken up stood in an answer to a batch of nodes. -/
theorem persistNodes_source {nodes : Dict (List PlannedNode)} {id : Int64}
    (h : Returns (persistNodes server.answered strategy nodes ids) (d, calls) ids' (d', calls'))
    (hFind : ids'.find? key = some id) : ids.find? key = some id ∨
      ∃ label items batches s rows, (label, items) ∈ nodes ∧
        nodeBatches strategy label items = .ok batches ∧ s ∈ batches ∧ ⟨s, .ok rows⟩ ∈ calls' ∧
          (key, id) ∈ numbersIn rows := by
  induction nodes generalizing ids d calls with
  | nil =>
      obtain ⟨rfl, -⟩ := returns_pure.1 h
      exact .inl hFind
  | cons entry rest ih =>
      obtain ⟨label, items⟩ := entry
      obtain ⟨batches, w, hBatches, hRest⟩ := returns_bind.1 h
      obtain ⟨hBatchesOk, rfl⟩ := returns_ofExcept.1 hBatches
      obtain ⟨found, ⟨d₁, calls₁⟩, hFirst, hLater⟩ := returns_bind.1 hRest
      have hGrows := (persistNodes_returns hLater).1
      rcases ih hLater with hBefore | ⟨label', items', batches', s, rows, hGroup, hRest⟩
      · rcases foldlM_writeNodes_source hFirst hBefore with hBefore | ⟨s, hs, rows, hCall, hGiven⟩
        · exact .inl hBefore
        · exact .inr ⟨label, items, batches, s, rows, List.mem_cons_self, hBatchesOk, hs, hGrows hCall,
            hGiven⟩
      · exact .inr ⟨label', items', batches', s, rows, List.mem_cons_of_mem _ hGroup, hRest⟩

end GraphMapping

import GraphMapping.Proofs.Persist.Calls

/-!
# What statements create

Every statement of a plan has one clause that writes: it merges what may be there, matches what must be
there, or creates what was not there.  Nodes are created only where the database assigns keys, and then
only new ones.  Relationships are created only for relationship-objects without a key.
-/

namespace GraphMapping

/-- How the statement of a batch begins. -/
def rowsFront : String :=
  "UNWIND $rows AS row\n"

/-- How the statement of a batch of relationships begins: the ends of each are matched. -/
def endsFront : String :=
  rowsFront ++ "MATCH (s) WHERE id(s) = row.start\nMATCH (e) WHERE id(e) = row.end\n"

/-- The clause that writes the rows of a statement is `CREATE`. -/
def Statement.Creates (s : Statement) : Prop :=
  (rowsFront ++ "CREATE ").toList <+: s.text.toList ∨
    (endsFront ++ "CREATE ").toList <+: s.text.toList

instance : DecidablePred Statement.Creates :=
  fun s => inferInstanceAs (Decidable ((rowsFront ++ "CREATE ").toList <+: s.text.toList ∨
    (endsFront ++ "CREATE ").toList <+: s.text.toList))

variable {strategy : KeyStrategy} {label field : String} {ids : GraphIds} {s : Statement}
  {nodes : List PlannedNode} {edges : List PlannedEdge} {batches : List Statement}

/-- Texts that differ in one character after a common beginning do not begin alike. -/
theorem not_prefix_of_char {common front head text tail : String} (i : Nat)
    (hText : text = common ++ (head ++ tail))
    (hApart : i < front.toList.length ∧ i < head.toList.length ∧
      front.toList[i]? ≠ head.toList[i]?) : ¬ (common ++ front).toList <+: text.toList := by
  simp only [hText, String.toList_append, List.prefix_append_right_inj]
  rintro ⟨rest, h⟩
  obtain ⟨hFront, hHead, hNot⟩ := hApart
  refine hNot ?_
  rw [← List.getElem?_append_left hFront, h, List.getElem?_append_left hHead]

theorem shape_mem_all (shape : EdgeShape) : shape ∈ EdgeShape.all := by
  obtain ⟨undirected, keyed, object⟩ := shape
  cases undirected <;> cases keyed <;> cases object <;> decide

theorem mergeBatch_text (label field : String) (nodes : List PlannedNode) :
    ∃ tail, (mergeBatch label field nodes).text = rowsFront ++ ("MERGE (n:" ++ tail) := by
  simp only [mergeBatch, nodeBatch, rowsFront, String.append_assoc]
  exact ⟨_, rfl⟩

theorem updateBatch_text (h : updateBatch label nodes = .ok s) :
    ∃ tail, s.text = rowsFront ++ ("MATCH (n:" ++ tail) := by
  obtain ⟨rows, -, h⟩ := bind_eq_ok.1 h
  cases h
  simp only [nodeBatch, rowsFront, String.append_assoc]
  exact ⟨_, rfl⟩

theorem edgeBatch_text (label field : String) (shape : EdgeShape) (rows : List Value) :
    ∃ tail, (edgeBatch label field shape rows).text =
      endsFront ++ ((if shape.object && !shape.keyed then "CREATE" else "MERGE") ++ tail) := by
  have hFront : endsFront = "UNWIND $rows AS row\nMATCH (s) WHERE id(s) = row.start\n" ++
      "MATCH (e) WHERE id(e) = row.end\n" := by decide +kernel
  simp only [edgeBatch, hFront, String.append_assoc]
  exact ⟨_, rfl⟩

theorem not_creates_mergeBatch (label field : String) (nodes : List PlannedNode) :
    ¬ (mergeBatch label field nodes).Creates := by
  obtain ⟨tail, hText⟩ := mergeBatch_text label field nodes
  rintro (h | h)
  · exact not_prefix_of_char 0 hText (by decide +kernel) h
  · unfold endsFront at h
    rw [String.append_assoc] at h
    exact not_prefix_of_char 1 hText (by decide +kernel) h

theorem not_creates_updateBatch (h : updateBatch label nodes = .ok s) : ¬ s.Creates := by
  obtain ⟨tail, hText⟩ := updateBatch_text h
  rintro (h | h)
  · exact not_prefix_of_char 0 hText (by decide +kernel) h
  · unfold endsFront at h
    rw [String.append_assoc] at h
    exact not_prefix_of_char 7 hText (by decide +kernel) h

/-- Relationships are created only in batches of relationship-objects without a key. -/
theorem creates_edgeBatch {shape : EdgeShape} {rows : List Value}
    (h : (edgeBatch label field shape rows).Creates) : shape.object = true ∧ shape.keyed = false := by
  obtain ⟨tail, hText⟩ := edgeBatch_text label field shape rows
  cases hVerb : shape.object && !shape.keyed with
  | true => simpa using hVerb
  | false =>
      rw [hVerb] at hText
      rcases h with h | h
      · unfold endsFront at hText
        rw [String.append_assoc] at hText
        exact absurd h (not_prefix_of_char 0 hText (by decide +kernel))
      · exact absurd h (not_prefix_of_char 0 hText (by decide +kernel))

/-- Only new nodes are created, and only where the database assigns keys. -/
theorem nodeBatches_creates (h : nodeBatches strategy label nodes = .ok batches) (hs : s ∈ batches)
    (hCreates : s.Creates) : strategy.isNative = true ∧ ∃ n ∈ nodes, n.isNew = true := by
  obtain ⟨-, rfl⟩ | ⟨hNative, updates, hUpdates, -, rfl⟩ := nodeBatches_cases h
  · cases List.mem_singleton.1 hs
    exact absurd hCreates (not_creates_mergeBatch _ _ _)
  · refine ⟨hNative, ?_⟩
    rcases List.mem_append.1 hs with hs | hs
    · exact absurd hCreates (not_creates_updateBatch (hUpdates s hs))
    · split at hs
      · cases hs
      · rename_i hSome
        obtain ⟨n, hn⟩ := List.isEmpty_eq_false_iff_exists_mem.1 (eq_false_of_ne_true hSome)
        exact ⟨n, List.mem_filter.1 hn⟩

/-- Only relationship-objects without a key have their relationships created. -/
theorem edgeBatches_creates (h : edgeBatches strategy ids label edges = .ok batches) (hs : s ∈ batches)
    (hCreates : s.Creates) : s.kind = .relationshipUpsert ∧
      ∀ row ∈ s.batch, ∃ e ∈ edges, e.object = true ∧ e.key = none ∧ edgeRow ids label e = .ok row := by
  obtain ⟨shape, rows, rfl, hRows⟩ := mem_edgeBatches h hs
  obtain ⟨hObject, hKeyed⟩ := creates_edgeBatch hCreates
  refine ⟨rfl, fun row hRow => ?_⟩
  obtain ⟨e, he, rfl, hEq⟩ := hRows row hRow
  exact ⟨e, he, hObject, Option.isSome_eq_false_iff.1 hKeyed |> Option.isNone_iff_eq_none.1, hEq⟩

end GraphMapping

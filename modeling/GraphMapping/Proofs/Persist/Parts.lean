import GraphMapping.Proofs.Persist.Verbs

/-!
# The parts of a plan

A plan is written in parts, each by one statement.  The nodes of a label are one part, or two where the
database assigns keys: those that it has numbered before, and then the new ones.  The relationships of a
type make one part for each combination of direction, key and object that occurs.  Every node and every
relationship of the plan stands in exactly one part, and the statement of a part fits each of its rows.
-/

namespace GraphMapping

section

variable {α κ : Type}

/-- The items of each class that occurs; in a class they keep their order. -/
def classes [BEq κ] (kind : α → κ) (kinds : List κ) (items : List α) : List (List α) :=
  (kinds.map fun k => items.filter (kind · == k)).filter (!·.isEmpty)

/-- Items stand in parts: each item in one, with all others of its name and kind, in the order of the items.
The parts are in the order of their names, and those of one name in that of their kinds. -/
structure Parted (name : α → String) (kind : α → κ) (before : κ → κ → Prop) (items : List α)
    (parts : List (List α)) : Prop where
  whole : parts.flatten.Perm items
  inOrder : ∀ part ∈ parts, part.Sublist items
  inhabited : ∀ part ∈ parts, part ≠ []
  alike : ∀ part ∈ parts, ∀ a ∈ part, ∀ b ∈ part, name a = name b ∧ kind a = kind b
  apart : parts.Pairwise fun one other => ∀ a ∈ one, ∀ b ∈ other,
    name a < name b ∨ (name a = name b ∧ before (kind a) (kind b))

variable [BEq κ] [LawfulBEq κ] {kind : α → κ} {kinds : List κ} {items part : List α}

omit [LawfulBEq κ] in
theorem classes_cons (kind : α → κ) (k : κ) (kinds : List κ) (items : List α) :
    classes kind (k :: kinds) items = if (items.filter (kind · == k)).isEmpty then classes kind kinds items
      else items.filter (kind · == k) :: classes kind kinds items := by
  unfold classes
  rw [List.map_cons, List.filter_cons]
  cases (items.filter (kind · == k)).isEmpty <;> rfl

omit [LawfulBEq κ] in
theorem mem_classes : part ∈ classes kind kinds items ↔
    ∃ k ∈ kinds, items.filter (kind · == k) = part ∧ part ≠ [] := by
  simp [classes, ← exists_and_right, and_assoc]

/-- No item is lost or doubled where each kind is listed once. -/
theorem flatten_classes (hOnce : kinds.Nodup) (hAll : ∀ a ∈ items, kind a ∈ kinds) :
    (classes kind kinds items).flatten.Perm items := by
  have hListed : (kinds.map fun k => items.filter (kind · == k)).flatten.Perm
      (items.filter fun a => kinds.contains (kind a)) := by
    clear hAll
    induction kinds with
    | nil => simp
    | cons k rest ih =>
        obtain ⟨hNew, hRest⟩ := List.nodup_cons.1 hOnce
        -- The items of the listed kinds are those of the first, and then the others.
        have hSplit := List.filter_append_perm (fun a => kind a == k)
          (items.filter fun a => (k :: rest).contains (kind a))
        have hFirst : (items.filter fun a => (k :: rest).contains (kind a)).filter (kind · == k) =
            items.filter (kind · == k) := by
          rw [List.filter_filter]
          refine List.filter_congr fun a _ => ?_
          by_cases hKind : kind a = k <;> simp [hKind]
        have hOthers : (items.filter fun a => (k :: rest).contains (kind a)).filter
            (fun a => !(kind a == k)) = items.filter fun a => rest.contains (kind a) := by
          rw [List.filter_filter]
          refine List.filter_congr fun a _ => ?_
          by_cases hKind : kind a = k <;> simp [hKind, hNew]
        rw [hFirst, hOthers] at hSplit
        rw [List.map_cons, List.flatten_cons]
        exact ((ih hRest).append_left _).trans hSplit
  have hItems : items.filter (fun a => kinds.contains (kind a)) = items := by
    rw [List.filter_eq_self]
    intro a ha
    simpa using hAll a ha
  unfold classes
  rw [List.flatten_filter_not_isEmpty]
  rwa [hItems] at hListed

/-- The groups of a dictionary, each in its classes, are parts of what is in the dictionary. -/
theorem parted_members {name : α → String} {before : κ → κ → Prop} {d : Dict (List α)}
    (hGroups : Dict.Groups name d) (hOnce : kinds.Nodup) (hKinds : kinds.Pairwise before)
    (hAll : ∀ a, kind a ∈ kinds) :
    Parted name kind before (Dict.members d) (d.flatMap fun group => classes kind kinds group.2) := by
  have hFrom : ∀ part ∈ d.flatMap (fun group => classes kind kinds group.2), ∃ group ∈ d, ∃ k,
      group.2.filter (kind · == k) = part ∧ part ≠ [] := by
    intro part hPart
    obtain ⟨group, hGroup, hClass⟩ := List.mem_flatMap.1 hPart
    obtain ⟨k, -, hPart⟩ := mem_classes.1 hClass
    exact ⟨group, hGroup, k, hPart⟩
  constructor
  case whole =>
    unfold List.flatMap Dict.members
    rw [List.flatten_flatten, List.map_map]
    exact List.Perm.flatMap_left d fun group _ => flatten_classes hOnce fun a _ => hAll a
  case inOrder =>
    intro part hPart
    obtain ⟨group, hGroup, k, rfl, -⟩ := hFrom part hPart
    exact List.filter_sublist.trans (List.sublist_flatten_of_mem (List.mem_map.2 ⟨group, hGroup, rfl⟩))
  case inhabited =>
    intro part hPart
    obtain ⟨-, -, -, -, hSome⟩ := hFrom part hPart
    exact hSome
  case alike =>
    intro part hPart a ha b hb
    obtain ⟨group, hGroup, k, rfl, -⟩ := hFrom part hPart
    simp only [List.mem_filter, beq_iff_eq] at ha hb
    rw [hGroups.named _ hGroup a ha.1, hGroups.named _ hGroup b hb.1, ha.2, hb.2]
    exact ⟨rfl, rfl⟩
  case apart =>
    rw [List.pairwise_flatMap]
    constructor
    -- Parts of one group differ in the kind, and those of two groups in the name.
    · intro group hGroup
      refine List.Pairwise.filter _ (List.pairwise_map.2 (hKinds.imp fun hBefore a ha b hb => ?_))
      simp only [List.mem_filter, beq_iff_eq] at ha hb
      rw [hGroups.named _ hGroup a ha.1, hGroups.named _ hGroup b hb.1, ha.2, hb.2]
      exact .inr ⟨rfl, hBefore⟩
    · refine hGroups.sorted.imp_of_mem fun hGroup hGroup' hLess one hOne other hOther a ha b hb => ?_
      obtain ⟨k, -, rfl, -⟩ := mem_classes.1 hOne
      obtain ⟨k', -, rfl, -⟩ := mem_classes.1 hOther
      rw [hGroups.named _ hGroup a (List.mem_filter.1 ha).1,
        hGroups.named _ hGroup' b (List.mem_filter.1 hb).1]
      exact .inl hLess

end

/-! ## The statement of a part -/

/-- How the statement of a batch of nodes ends. -/
def nodesTail : String :=
  "\nSET n += row.props\n" ++ "RETURN row.key AS key, id(n) AS id"

/-- How the statement of a batch of relationships ends. -/
def edgesTail : String :=
  "(e)\nSET r += row.props\nRETURN count(r) AS written"

/-- The clause that writes a node. -/
def PlannedNode.clause (strategy : KeyStrategy) (n : PlannedNode) : String :=
  if !strategy.isNative then
    "MERGE (n:" ++ Identifier.quote n.label ++ " \x7b" ++ Identifier.quote strategy.field ++ ": row.pk\x7d)"
  else if n.isNew then "CREATE (n:" ++ Identifier.quote n.label ++ ")"
  else "MATCH (n:" ++ Identifier.quote n.label ++ ") WHERE id(n) = row.id"

/-- What the row of a node has besides its identity and its properties. -/
def PlannedNode.entries (strategy : KeyStrategy) (n : PlannedNode) : List (String × Value) :=
  if !strategy.isNative then [("pk", n.key.getD .null)]
  else match n.nativeId with
    | some id => [("id", .int id)]
    | none => []

/-- The clause that writes a relationship of a shape, up to its arrow. -/
def EdgeShape.clause (shape : EdgeShape) (label field : String) : String :=
  (if shape.object && !shape.keyed then "CREATE" else "MERGE") ++ " (s)-[r:" ++ Identifier.quote label ++
    (if shape.keyed then " \x7b" ++ Identifier.quote field ++ ": row.pk\x7d" else "") ++ "]" ++
    (if shape.undirected then "-" else "->")

/-- The arrow of the relationships that a statement writes has no direction. -/
def Statement.Undirected (s : Statement) : Prop :=
  ("]-" ++ edgesTail).toList <:+ s.text.toList

/-- The relationships that a statement writes are found by their keys. -/
def Statement.Keyed (s : Statement) : Prop :=
  (": row.pk\x7d]-" ++ edgesTail).toList <:+ s.text.toList ∨
    (": row.pk\x7d]->" ++ edgesTail).toList <:+ s.text.toList

/-- The nodes of a label in parts: all of them, or those with numbers of the database and the new ones. -/
def nodeParts (strategy : KeyStrategy) (nodes : List PlannedNode) : List (List PlannedNode) :=
  classes (fun n => strategy.isNative && n.isNew) [false, true] nodes

/-- The relationships of a type in parts, by direction, key and object. -/
def edgeParts (edges : List PlannedEdge) : List (List PlannedEdge) :=
  classes PlannedEdge.shape EdgeShape.all edges

/-- The parts of all nodes. -/
def Plan.nodeParts (p : Plan) (strategy : KeyStrategy) : List (List PlannedNode) :=
  p.nodes.flatMap fun group => GraphMapping.nodeParts strategy group.2

/-- The parts of all relationships. -/
def Plan.edgeParts (p : Plan) : List (List PlannedEdge) :=
  p.edges.flatMap fun group => GraphMapping.edgeParts group.2

/-- The order of shapes: undirected after directed ones, then keyed ones, then objects. -/
def EdgeShape.rank (shape : EdgeShape) : Nat :=
  4 * shape.undirected.toNat + 2 * shape.keyed.toNat + shape.object.toNat

/-- A statement has one row for each node of a part, in order, and writes each in the way of the node. -/
structure WritesNodes (strategy : KeyStrategy) (part : List PlannedNode) (s : Statement) : Prop where
  kind : s.kind = .nodeUpsert
  text : ∀ n ∈ part, s.text = rowsFront ++ (n.clause strategy ++ nodesTail)
  rows : s.batch = part.map fun n => nodeRow (n.entries strategy) n
  numbered : strategy.isNative = true → ∀ n ∈ part, n.isNew = false → n.nativeId ≠ none
  creates : ∀ n ∈ part, s.Creates ↔ strategy.isNative = true ∧ n.isNew = true

/-- A statement has one row for each relationship of a part, in order, and writes each in the way of the
relationship. -/
structure WritesEdges (strategy : KeyStrategy) (ids : GraphIds) (part : List PlannedEdge)
    (s : Statement) : Prop where
  kind : s.kind = .relationshipUpsert
  text : ∀ e ∈ part, s.text = endsFront ++ (e.shape.clause e.label strategy.field ++ edgesTail)
  rows : List.Forall₂ (fun e row => edgeRow ids e.label e = .ok row) part s.batch
  creates : ∀ e ∈ part, s.Creates ↔ e.object = true ∧ e.key = none
  undirected : ∀ e ∈ part, s.Undirected ↔ e.undirected = true
  keyed : ∀ e ∈ part, s.Keyed ↔ e.key ≠ none

variable {strategy : KeyStrategy} {label field : String} {ids : GraphIds} {s : Statement}
  {nodes : List PlannedNode} {edges : List PlannedEdge} {batches : List Statement}

/-- A text that goes on after a common beginning as another one does begins as that one. -/
theorem prefix_of_text {common front head text tail : String} (hText : text = common ++ (head ++ tail))
    (hHead : front.toList <+: head.toList) : (common ++ front).toList <+: text.toList := by
  simp only [hText, String.toList_append, List.prefix_append_right_inj]
  exact hHead.trans (List.prefix_append _ _)

theorem nodeBatch_text (clause : String) (rows : List Value) :
    (nodeBatch clause rows).text = rowsFront ++ (clause ++ nodesTail) := by
  unfold nodeBatch nodesTail rowsFront
  dsimp only
  rw [String.append_assoc, String.append_assoc]

theorem creates_createBatch (label : String) (nodes : List PlannedNode) :
    (createBatch label nodes).Creates := by
  have hText := nodeBatch_text ("CREATE (n:" ++ Identifier.quote label ++ ")") (nodes.map (nodeRow []))
  rw [String.append_assoc, String.append_assoc] at hText
  exact .inl (prefix_of_text hText (by decide +kernel))

theorem suffix_of_text {common back head text front : String} (hText : text = front ++ (head ++ common))
    (hHead : back.toList <:+ head.toList) : (back ++ common).toList <:+ text.toList := by
  simp only [hText, String.toList_append]
  obtain ⟨rest, hRest⟩ := hHead
  exact ⟨front.toList ++ rest, by simp [← hRest]⟩

/-- Texts that differ in one character before a common end do not end alike. -/
theorem not_suffix_of_char {common back head text front : String} (i : Nat)
    (hText : text = front ++ (head ++ common))
    (hApart : i < back.toList.length ∧ i < head.toList.length ∧
      back.toList.reverse[i]? ≠ head.toList.reverse[i]?) :
    ¬ (back ++ common).toList <:+ text.toList := by
  simp only [hText, String.toList_append]
  rintro ⟨rest, h⟩
  obtain ⟨hBack, hEnd, hNot⟩ := hApart
  simp only [← List.append_assoc, List.append_cancel_right_eq] at h
  have hTurned := congrArg List.reverse h
  rw [List.reverse_append, List.reverse_append] at hTurned
  refine hNot ?_
  rw [← List.getElem?_append_left (by simpa using hBack), hTurned,
    List.getElem?_append_left (by simpa using hEnd)]

theorem quote_ends (name : String) : ∃ front, Identifier.quote name = front ++ "\x60" := by
  refine ⟨String.ofList (Identifier.tick :: Identifier.double (name.toList.filter (!Text.isControl ·))), ?_⟩
  have hTick : "\x60" = String.ofList [Identifier.tick] := by rfl
  unfold Identifier.quote Identifier.quoteChars
  rw [hTick, ← String.ofList_append]

namespace EdgeShape

variable (shape : EdgeShape) (label field : String) (rows : List Value)

/-- How the clause of a relationship ends. -/
def clauseEnd (keyed undirected : Bool) : String :=
  (if keyed then ": row.pk\x7d" ++ "]" else "\x60" ++ "]") ++ (if undirected then "-" else "->")

theorem batch_text : (edgeBatch label field shape rows).text =
    endsFront ++ (shape.clause label field ++ edgesTail) := by
  have hFront : "UNWIND $rows AS row\nMATCH (s) WHERE id(s) = row.start\n" ++
      "MATCH (e) WHERE id(e) = row.end\n" = endsFront := by decide +kernel
  unfold edgeBatch clause edgesTail
  dsimp only
  rw [hFront]
  simp only [String.append_assoc]

theorem batch_ends : ∃ front, (edgeBatch label field shape rows).text =
    front ++ (clauseEnd shape.keyed shape.undirected ++ edgesTail) := by
  obtain ⟨front, hQuote⟩ := quote_ends label
  rw [batch_text]
  unfold clause clauseEnd
  rw [hQuote]
  generalize (if shape.object && !shape.keyed then "CREATE" else "MERGE") = verb
  cases shape.keyed with
  | false =>
      refine ⟨endsFront ++ (verb ++ (" (s)-[r:" ++ front)), ?_⟩
      simp only [Bool.false_eq_true, if_false, String.append_empty, String.append_assoc,
        -String.reduceAppend]
  | true =>
      refine ⟨endsFront ++ (verb ++ (" (s)-[r:" ++ (front ++ ("\x60" ++
        (" \x7b" ++ Identifier.quote field))))), ?_⟩
      simp only [if_true, String.append_assoc, -String.reduceAppend]

/-- Relationships are created exactly in batches of relationship-objects without a key. -/
theorem creates_iff : (edgeBatch label field shape rows).Creates ↔
    shape.object = true ∧ shape.keyed = false := by
  refine ⟨creates_edgeBatch, fun ⟨hObject, hKeyed⟩ => .inr ?_⟩
  have hText := shape.batch_text label field rows
  unfold clause at hText
  simp only [hObject, hKeyed, Bool.not_false, Bool.and_self, if_true, String.append_assoc] at hText
  rw [← @String.append_assoc "CREATE"] at hText
  exact prefix_of_text hText (by decide +kernel)

theorem undirected_iff : (edgeBatch label field shape rows).Undirected ↔ shape.undirected = true := by
  obtain ⟨front, hText⟩ := shape.batch_ends label field rows
  generalize shape.keyed = keyed at hText
  cases hArrow : shape.undirected with
  | false =>
      rw [hArrow] at hText
      refine iff_of_false (not_suffix_of_char 0 hText ?_) Bool.false_ne_true
      cases keyed <;> decide +kernel
  | true =>
      rw [hArrow] at hText
      refine iff_of_true (suffix_of_text hText ?_) rfl
      cases keyed <;> decide +kernel

theorem keyed_iff : (edgeBatch label field shape rows).Keyed ↔ shape.keyed = true := by
  obtain ⟨front, hText⟩ := shape.batch_ends label field rows
  generalize shape.undirected = undirected at hText
  cases hKeyed : shape.keyed with
  | false =>
      rw [hKeyed] at hText
      refine iff_of_false ?_ Bool.false_ne_true
      rintro (h | h)
      · cases undirected with
        | false => exact not_suffix_of_char 0 hText (by decide +kernel) h
        | true => exact not_suffix_of_char 2 hText (by decide +kernel) h
      · cases undirected with
        | false => exact not_suffix_of_char 3 hText (by decide +kernel) h
        | true => exact not_suffix_of_char 0 hText (by decide +kernel) h
  | true =>
      rw [hKeyed] at hText
      refine iff_of_true ?_ rfl
      cases undirected with
      | false => exact .inr (suffix_of_text hText (by decide +kernel))
      | true => exact .inl (suffix_of_text hText (by decide +kernel))

end EdgeShape

/-! ## The batches of a label and of a type -/

section

variable (hNamed : ∀ n ∈ nodes, n.label = label)

include hNamed

theorem writesNodes_mergeBatch (hNative : strategy.isNative = false) :
    WritesNodes strategy nodes (mergeBatch label strategy.field nodes) := by
  have hNot : ¬ strategy.isNative = true := Bool.eq_false_iff.1 hNative
  refine ⟨rfl, fun n hn => ?_, ?_, fun h => absurd h hNot, fun n _ => ?_⟩
  · unfold mergeBatch PlannedNode.clause
    rw [nodeBatch_text, hNamed n hn, hNative]
    rfl
  · refine List.map_congr_left fun n _ => ?_
    unfold PlannedNode.entries
    rw [hNative]
    rfl
  · exact iff_of_false (not_creates_mergeBatch _ _ _) fun h => hNot h.1

theorem writesNodes_createBatch (hNative : strategy.isNative = true) (hNew : ∀ n ∈ nodes, n.isNew = true) :
    WritesNodes strategy nodes (createBatch label nodes) := by
  refine ⟨rfl, fun n hn => ?_, ?_, fun _ n hn hOld => ?_, fun n hn => ?_⟩
  · unfold createBatch PlannedNode.clause
    rw [nodeBatch_text, hNamed n hn, hNative, hNew n hn]
    rfl
  · refine List.map_congr_left fun n hn => ?_
    unfold PlannedNode.entries PlannedNode.nativeId
    rw [hNative, hNew n hn]
    rfl
  · rw [hNew n hn] at hOld
    cases hOld
  · exact iff_of_true (creates_createBatch label nodes) ⟨hNative, hNew n hn⟩

theorem writesNodes_updateBatch (hNative : strategy.isNative = true) (hOld : ∀ n ∈ nodes, n.isNew = false)
    (h : updateBatch label nodes = .ok s) : WritesNodes strategy nodes s := by
  have hNot := not_creates_updateBatch h
  obtain ⟨rows, hRows, h⟩ := bind_eq_ok.1 h
  cases h
  have hEach : List.Forall₂ (fun n row => n.nativeId ≠ none ∧ row = nodeRow (n.entries strategy) n)
      nodes rows := by
    refine (mapM_eq_ok.1 hRows).imp fun n row hRow => ?_
    unfold numberedRow at hRow
    unfold PlannedNode.entries
    rw [hNative]
    cases hId : n.nativeId with
    | none =>
        rw [hId] at hRow
        cases hRow
    | some id =>
        rw [hId] at hRow
        cases hRow
        exact ⟨nofun, rfl⟩
  refine ⟨rfl, fun n hn => ?_, ?_, fun _ n hn _ => ?_, fun n hn => iff_of_false hNot ?_⟩
  · unfold PlannedNode.clause
    rw [nodeBatch_text, hNamed n hn, hNative, hOld n hn]
    rfl
  · have hEq := hEach.imp fun _ _ hRow => hRow.2.symm
    rw [← List.forall₂_map_left_iff, List.forall₂_eq_eq_eq] at hEq
    exact hEq.symm
  · obtain ⟨row, -, hNumber, -⟩ := (exists_of_forall₂ hEach).1 n hn
    exact hNumber
  · rintro ⟨-, hNew⟩
    rw [hOld n hn] at hNew
    cases hNew

omit hNamed in
theorem nodeParts_generated (hNative : strategy.isNative = false) (hSome : nodes ≠ []) :
    nodeParts strategy nodes = [nodes] := by
  simp [nodeParts, classes, hNative, hSome]

omit hNamed in
theorem nodeParts_native (hNative : strategy.isNative = true) : nodeParts strategy nodes =
    (if (nodes.filter (!·.isNew)).isEmpty then [] else [nodes.filter (!·.isNew)]) ++
      (if (nodes.filter (·.isNew)).isEmpty then [] else [nodes.filter (·.isNew)]) := by
  unfold nodeParts
  simp only [classes_cons, hNative, Bool.true_and, beq_false, beq_true]
  cases (nodes.filter (!·.isNew)).isEmpty <;> cases (nodes.filter (·.isNew)).isEmpty <;> rfl

/-- The nodes of a label are written part by part. -/
theorem writesNodes_nodeBatches (hSome : nodes ≠ []) (h : nodeBatches strategy label nodes = .ok batches) :
    List.Forall₂ (WritesNodes strategy) (nodeParts strategy nodes) batches := by
  cases hNative : strategy.isNative with
  | false =>
      unfold nodeBatches at h
      rw [hNative] at h
      cases h
      rw [nodeParts_generated hNative hSome]
      exact .cons (writesNodes_mergeBatch hNamed hNative) .nil
  | true =>
      rw [nodeBatches_native hNative] at h
      obtain ⟨updates, hUpdates, rfl⟩ := map_eq_ok.1 h
      rw [nodeParts_native hNative]
      refine List.rel_append ?_ ?_
      · split at hUpdates <;> rename_i hEmpty
        · cases hUpdates
          rw [if_pos hEmpty]
          exact .nil
        · rw [if_neg hEmpty]
          obtain ⟨s, hUpdate, rfl⟩ := map_eq_ok.1 hUpdates
          refine .cons (writesNodes_updateBatch (fun n hn => ?_) hNative (fun n hn => ?_) hUpdate) .nil
          · exact hNamed n (List.mem_filter.1 hn).1
          · simpa using (List.mem_filter.1 hn).2
      · split
        · exact .nil
        · refine .cons (writesNodes_createBatch (fun n hn => ?_) hNative fun n hn => ?_) .nil
          · exact hNamed n (List.mem_filter.1 hn).1
          · exact (List.mem_filter.1 hn).2

omit hNamed in
/-- The nodes of a label can be written, unless one has an identity that is no number of the database. -/
theorem nodeBatches_total (h : strategy.isNative = true → ∀ n ∈ nodes, n.isNew = false → n.nativeId ≠ none) :
    ∃ batches, nodeBatches strategy label nodes = .ok batches := by
  cases hNative : strategy.isNative with
  | false =>
      unfold nodeBatches
      rw [hNative]
      exact ⟨_, rfl⟩
  | true =>
      have hRows : ∃ rows, (nodes.filter (!·.isNew)).mapM (numberedRow label) = .ok rows := by
        refine mapM_total fun n hn => ?_
        obtain ⟨hMember, hOld⟩ := List.mem_filter.1 hn
        obtain ⟨id, hId⟩ := Option.ne_none_iff_exists'.1 (h hNative n hMember (by simpa using hOld))
        unfold numberedRow
        rw [hId]
        exact ⟨_, rfl⟩
      obtain ⟨rows, hRows⟩ := hRows
      rw [nodeBatches_native hNative]
      unfold updateBatch
      rw [hRows]
      cases (nodes.filter (!·.isNew)).isEmpty <;> exact ⟨_, rfl⟩

end

/-- A row does not depend on the type under which it is made. -/
theorem edgeRow_relabel {e : PlannedEdge} {row : Value} (other : String)
    (h : edgeRow ids label e = .ok row) : edgeRow ids other e = .ok row := by
  obtain ⟨start, hStart, h⟩ := bind_eq_ok.1 h
  obtain ⟨finish, hFinish, h⟩ := bind_eq_ok.1 h
  rw [endId_eq_ok] at hStart hFinish
  exact bind_eq_ok.2 ⟨start, endId_eq_ok.2 hStart, bind_eq_ok.2 ⟨finish, endId_eq_ok.2 hFinish, h⟩⟩

/-- The relationships of a shape are written by the batch of the shape. -/
theorem writesEdges_edgeBatch {shape : EdgeShape} {rows : List Value}
    (hAlike : ∀ e ∈ edges, e.label = label ∧ e.shape = shape)
    (hRows : List.Forall₂ (fun e row => edgeRow ids label e = .ok row) edges rows) :
    WritesEdges strategy ids edges (edgeBatch label strategy.field shape rows) := by
  constructor
  case kind => rfl
  case text =>
    intro e he
    rw [(hAlike e he).1, (hAlike e he).2]
    exact shape.batch_text label strategy.field rows
  case rows => exact hRows.imp fun e row hRow => edgeRow_relabel e.label hRow
  case creates =>
    intro e he
    rw [EdgeShape.creates_iff, ← (hAlike e he).2]
    simp [PlannedEdge.shape]
  case undirected =>
    intro e he
    rw [EdgeShape.undirected_iff, ← (hAlike e he).2]
    rfl
  case keyed =>
    intro e he
    rw [EdgeShape.keyed_iff, ← (hAlike e he).2]
    exact Option.isSome_iff_ne_none

/-- The relationships of a type are written part by part. -/
theorem writesEdges_edgeBatches (hTyped : ∀ e ∈ edges, e.label = label)
    (h : edgeBatches strategy ids label edges = .ok batches) :
    List.Forall₂ (WritesEdges strategy ids) (edgeParts edges) batches := by
  obtain ⟨pairs, hPairs, h⟩ := bind_eq_ok.1 h
  cases h
  have hEach : List.Forall₂ (fun e pair => pair.1 = e.shape ∧ edgeRow ids label e = .ok pair.2)
      edges pairs := by
    refine (mapM_eq_ok.1 hPairs).imp fun e pair hPair => ?_
    obtain ⟨row, hRow, rfl⟩ := map_eq_ok.1 hPair
    exact ⟨rfl, hRow⟩
  unfold edgeParts
  induction EdgeShape.all with
  | nil => exact .nil
  | cons shape rest ih =>
      have hGroup : List.Forall₂ (fun e pair => pair.1 = e.shape ∧ edgeRow ids label e = .ok pair.2)
          (edges.filter (·.shape == shape)) (pairs.filter (·.1 == shape)) := by
        refine List.rel_filter (fun e pair hPair => ?_) hEach
        change (e.shape == shape) = true ↔ (pair.1 == shape) = true
        rw [hPair.1]
      have hAlike : ∀ e ∈ edges.filter (·.shape == shape), e.label = label ∧ e.shape = shape := by
        intro e he
        obtain ⟨hMember, hShape⟩ := List.mem_filter.1 he
        exact ⟨hTyped e hMember, eq_of_beq hShape⟩
      rw [classes_cons, List.filterMap_cons]
      -- The shape is left out on both sides, or has a part and a batch.
      generalize edges.filter (·.shape == shape) = part at hGroup hAlike
      generalize pairs.filter (·.1 == shape) = group at hGroup
      cases hGroup with
      | nil => exact ih
      | cons hHead hTail =>
          refine .cons (writesEdges_edgeBatch hAlike ?_) ih
          rw [List.forall₂_map_right_iff]
          exact .cons hHead.2 (hTail.imp fun _ _ hPair => hPair.2)

/-! ## All parts of a plan -/

namespace Plan

variable {p : Plan}

theorem nodes_parted (strategy : KeyStrategy) (h : Dict.Groups PlannedNode.label p.nodes) :
    Parted PlannedNode.label (fun n => strategy.isNative && n.isNew) (· < ·) p.allNodes
      (p.nodeParts strategy) :=
  parted_members h (by decide) (by decide) fun n => by
    cases (strategy.isNative && n.isNew) <;> decide

theorem edges_parted (h : Dict.Groups PlannedEdge.label p.edges) :
    Parted PlannedEdge.label PlannedEdge.shape (fun one other => one.rank < other.rank) p.allEdges
      p.edgeParts :=
  parted_members h (by decide) (by decide) fun e => shape_mem_all e.shape

end Plan

end GraphMapping

import GraphMapping.Database.Scripted
import GraphMapping.Entity.Declared
import GraphMapping.Proofs.Persist.Calls
import GraphMapping.Proofs.Walk.Relations

/-!
# The ends of written relationships

Nodes are planned for label and key, but relationships name their ends by the key alone, and so does the
table of numbers.  Where one key is planned under several labels the table tells of the last label only,
so a relationship is written between the right nodes exactly if both of its ends are of the last labels
of their keys.
-/

namespace GraphMapping

/-- A key is planned under a label, and under none that comes after it. -/
def Plan.Tells (p : Plan) (label key : String) : Prop :=
  (∃ n ∈ p.allNodes, n.label = label ∧ n.identity = key) ∧
    ∀ n ∈ p.allNodes, n.identity = key → n.label ≤ label

theorem Plan.Tells.unique {p : Plan} {label label' key : String} (h : p.Tells label key)
    (h' : p.Tells label' key) : label = label' := by
  obtain ⟨n, hn, rfl, hKey⟩ := h.1
  obtain ⟨n', hn', rfl, hKey'⟩ := h'.1
  exact String.le_antisymm (h'.2 n hn hKey) (h.2 n' hn' hKey')

theorem lastLabel_spec {nodes : Dict (List PlannedNode)}
    (h : Dict.Groups PlannedNode.label nodes) (key : String) :
    (lastLabel key nodes = none → ∀ n ∈ Dict.members nodes, n.identity ≠ key) ∧
    ∀ label, lastLabel key nodes = some label →
      (∃ n ∈ Dict.members nodes, n.label = label ∧ n.identity = key) ∧
        ∀ n ∈ Dict.members nodes, n.identity = key → n.label ≤ label := by
  induction nodes with
  | nil => exact ⟨fun _ _ hn => absurd hn List.not_mem_nil, fun _ hLast => by cases hLast⟩
  | cons entry rest ih =>
      obtain ⟨label, items⟩ := entry
      have hRest : Dict.Groups PlannedNode.label rest :=
        ⟨(List.pairwise_cons.1 h.sorted).2, fun e he => h.named e (List.mem_cons_of_mem _ he),
          fun e he => h.inhabited e (List.mem_cons_of_mem _ he)⟩
      have hFirst : ∀ e ∈ rest, label < e.1 := (List.pairwise_cons.1 h.sorted).1
      have hHere : ∀ n ∈ items, n.label = label := h.named (label, items) List.mem_cons_self
      have hMembers : ∀ n, n ∈ Dict.members ((label, items) :: rest) ↔
          n ∈ items ∨ n ∈ Dict.members rest := fun n => List.mem_append
      obtain ⟨ihNone, ihSome⟩ := ih hRest
      simp only [lastLabel]
      cases hLast : lastLabel key rest with
      | some last =>
          refine ⟨fun hNone => (by cases hNone), fun label' hLabel' => ?_⟩
          cases hLabel'
          obtain ⟨⟨n, hn, hName, hKey⟩, hMost⟩ := ihSome last hLast
          refine ⟨⟨n, (hMembers n).2 (.inr hn), hName, hKey⟩, fun n' hn' hKey' => ?_⟩
          rcases (hMembers n').1 hn' with hItem | hMember
          · rw [hHere n' hItem]
            obtain ⟨e, he, hne⟩ := Dict.mem_members.1 hn
            -- Labels are sorted, and the later one is the label of a node of the rest.
            have hLt : label < last := by
              rw [← hName, h.named e (List.mem_cons_of_mem _ he) n hne]
              exact hFirst e he
            exact Std.le_of_lt hLt
          · exact hMost n' hMember hKey'
      | none =>
          rw [Option.none_or]
          split
          · rename_i hMatch
            obtain ⟨n, hn, hKey⟩ := hMatch
            refine ⟨fun hNone => (by cases hNone), fun label' hLabel' => ?_⟩
            cases hLabel'
            refine ⟨⟨n, (hMembers n).2 (.inl hn), hHere n hn, hKey⟩, fun n' hn' hKey' => ?_⟩
            rcases (hMembers n').1 hn' with hItem | hMember
            · exact Std.le_of_eq (hHere n' hItem)
            · exact absurd hKey' (ihNone hLast n' hMember)
          · rename_i hNoMatch
            refine ⟨fun _ n hn hKey => ?_, fun _ hLabel' => by cases hLabel'⟩
            rcases (hMembers n).1 hn with hItem | hMember
            · exact hNoMatch ⟨n, hItem, hKey⟩
            · exact ihNone hLast n hMember hKey

theorem tells_of_lastLabel {p : Plan} (h : Dict.Groups PlannedNode.label p.nodes)
    {label key : String} (hLast : lastLabel key p.nodes = some label) : p.Tells label key :=
  (lastLabel_spec h key).2 label hLast

/-- A row joins the nodes with two numbers. -/
def RowJoins (row : Value) (start finish : Int64) : Prop :=
  ∃ entries, row = .map entries ∧ Dict.find? entries "start" = some (.int start) ∧
    Dict.find? entries "end" = some (.int finish)

theorem RowJoins.unique {row : Value} {a b a' b' : Int64} (h : RowJoins row a b)
    (h' : RowJoins row a' b') : a = a' ∧ b = b' := by
  obtain ⟨entries, rfl, hStart, hFinish⟩ := h
  obtain ⟨entries', hRow, hStart', hFinish'⟩ := h'
  cases hRow
  rw [hStart] at hStart'
  rw [hFinish] at hFinish'
  cases hStart'
  cases hFinish'
  exact ⟨rfl, rfl⟩

theorem edgeRow_joins {ids : GraphIds} {label : String} {e : PlannedEdge} {row : Value}
    (h : edgeRow ids label e = .ok row) :
    ∃ a b, ids.find? e.start = some a ∧ ids.find? e.finish = some b ∧ RowJoins row a b := by
  unfold edgeRow at h
  obtain ⟨a, hStart, h⟩ := bind_eq_ok.1 h
  obtain ⟨b, hFinish, h⟩ := bind_eq_ok.1 h
  refine ⟨a, b, endId_eq_ok.1 hStart, endId_eq_ok.1 hFinish, ?_⟩
  have hOthers : ∀ rest : List (String × Value), (∀ entry ∈ rest, entry.1 = "pk") →
      RowJoins (.map (Dict.ofList ([("key", .string (e.start ++ "->" ++ e.finish)),
        ("start", .int a), ("end", .int b), ("props", .map e.params)] ++ rest))) a b := by
    intro rest hRest
    refine ⟨_, rfl, find?_ofList [("key", .string (e.start ++ "->" ++ e.finish))] ?_,
      find?_ofList [("key", .string (e.start ++ "->" ++ e.finish)), ("start", .int a)] ?_⟩
    · intro entry hEntry
      rcases List.mem_cons.1 hEntry with rfl | hEntry
      · exact (by decide : "end" ≠ "start")
      rcases List.mem_cons.1 hEntry with rfl | hEntry
      · exact (by decide : "props" ≠ "start")
      · rw [hRest entry hEntry]
        decide
    · intro entry hEntry
      rcases List.mem_cons.1 hEntry with rfl | hEntry
      · exact (by decide : "props" ≠ "end")
      · rw [hRest entry hEntry]
        decide
  cases hKey : e.key with
  | none =>
      simp only [hKey] at h
      cases h
      exact hOthers [] fun _ hEntry => absurd hEntry List.not_mem_nil
  | some key =>
      simp only [hKey] at h
      cases h
      refine hOthers [("pk", key)] fun entry hEntry => ?_
      cases List.mem_singleton.1 hEntry
      rfl

/-- A node was sent: a statement that writes a row with this key under this label was run. -/
def Plan.Sent (p : Plan) (strategy : KeyStrategy) (calls : List Call) (label key : String) : Prop :=
  ∃ items batches s reply, (label, items) ∈ p.nodes ∧ nodeBatches strategy label items = .ok batches ∧
    s ∈ batches ∧ ⟨s, reply⟩ ∈ calls ∧ s.Sends key

namespace Walker

variable {σ δ : Type} (w : Walker σ)

/-- A row joins two objects: its ends are their numbers, and the nodes of both were sent. -/
def Joins (root : Ref) (depth taken : Nat) (p : Plan) (calls : List Call)
    (number : String → String → Int64) (row : Value) (a b : Ref) : Prop :=
  ∃ label key label' key', w.labelOf a = some label ∧ w.identityOf root depth taken a = some key ∧
    w.labelOf b = some label' ∧ w.identityOf root depth taken b = some key' ∧
    RowJoins row (number label key) (number label' key') ∧
    p.Sent w.registry.strategy calls label key ∧ p.Sent w.registry.strategy calls label' key'

/-- The plan tells of an object by its key alone. -/
def Told (root : Ref) (depth taken : Nat) (p : Plan) (a : Ref) : Prop :=
  ∃ label key, w.labelOf a = some label ∧ w.identityOf root depth taken a = some key ∧
    p.Tells label key

variable {w} {root : Ref} {depth taken : Nat} {p : Plan} {s : WalkState}

theorem planned_of_sent {strategy : KeyStrategy} {calls : List Call} {label key : String}
    (hGroups : Dict.Groups PlannedNode.label p.nodes) (h : p.Sent strategy calls label key) :
    ∃ n ∈ p.allNodes, n.label = label ∧ n.identity = key := by
  obtain ⟨items, batches, st, reply, hm, hBatches, hst, -, entries, hRow, hKey⟩ := h
  obtain ⟨part, hPart, hRows⟩ := (nodeBatches_rows hBatches).1 st hst
  obtain ⟨n, hn, entries', hEq, hKey'⟩ := hRows.row _ hRow
  cases hEq
  rw [hKey] at hKey'
  cases hKey'
  exact ⟨n, Dict.mem_members.2 ⟨(label, items), hm, hPart hn⟩, hGroups.named _ hm n (hPart hn), rfl⟩

theorem sent_of_planned {strategy : KeyStrategy} {calls : List Call} {n : PlannedNode}
    (hGroups : Dict.Groups PlannedNode.label p.nodes)
    (hAnswered : ∀ label items, (label, items) ∈ p.nodes → ∃ batches,
      nodeBatches strategy label items = .ok batches ∧ ∀ s ∈ batches, ∃ rows, ⟨s, .ok rows⟩ ∈ calls)
    (hn : n ∈ p.allNodes) : p.Sent strategy calls n.label n.identity := by
  obtain ⟨⟨label, items⟩, hm, hItem⟩ := Dict.mem_members.1 hn
  have hLabel : n.label = label := hGroups.named _ hm n hItem
  obtain ⟨batches, hBatches, hAll⟩ := hAnswered label items hm
  obtain ⟨st, hst, hSends⟩ := (nodeBatches_rows hBatches).2 n hItem
  obtain ⟨rows, hCall⟩ := hAll st hst
  rw [hLabel]
  exact ⟨items, batches, st, .ok rows, hm, hBatches, hst, hCall, hSends⟩

theorem sent_of_tells {strategy : KeyStrategy} {calls : List Call} {label key : String}
    (hGroups : Dict.Groups PlannedNode.label p.nodes)
    (hAnswered : ∀ label items, (label, items) ∈ p.nodes → ∃ batches,
      nodeBatches strategy label items = .ok batches ∧ ∀ s ∈ batches, ∃ rows, ⟨s, .ok rows⟩ ∈ calls)
    (h : p.Tells label key) : p.Sent strategy calls label key := by
  obtain ⟨n, hn, rfl, rfl⟩ := h.1
  exact sent_of_planned hGroups hAnswered hn

/-- If a node that was sent has the number of the node that the plan tells of, it is this node. -/
theorem tells_of_number {strategy : KeyStrategy} {calls : List Call}
    {number : String → String → Int64} {label last key : String}
    (hGroups : Dict.Groups PlannedNode.label p.nodes)
    (hOwn : ∀ n ∈ p.allNodes, ∀ m ∈ p.allNodes,
      number n.label n.identity = number m.label m.identity →
        n.label = m.label ∧ n.identity = m.identity)
    (hTells : p.Tells last key) (hSent : p.Sent strategy calls label key)
    (hNumber : number last key = number label key) : p.Tells label key := by
  obtain ⟨n, hn, rfl, rfl⟩ := planned_of_sent hGroups hSent
  obtain ⟨m, hm, rfl, hKey⟩ := hTells.1
  rw [← hKey] at hNumber
  obtain ⟨hLabel, -⟩ := hOwn m hm n hn (by rw [hNumber, hKey])
  rw [← hLabel]
  exact hTells

/-- Where no two labels share a key, a plan tells of every object that has a planned key. -/
theorem told_of_keysApart (hFinished : w.Finished root depth taken p s)
    (hApart : w.KeysApart root depth taken) {a : Ref} {key : String}
    (hKey : w.identityOf root depth taken a = some key)
    (hPlaced : ∃ n ∈ p.allNodes, n.identity = key) : w.Told root depth taken p a := by
  have hSame : ∀ n ∈ p.allNodes, n.identity = key → w.labelOf a = some n.label :=
    fun n hn hIdentity => planned_label hFinished hApart hn (by rw [hIdentity]; exact hKey)
  obtain ⟨n, hn, hIdentity⟩ := hPlaced
  refine ⟨n.label, key, hSame n hn hIdentity, hKey, ⟨n, hn, rfl, hIdentity⟩, fun m hm hmKey => ?_⟩
  have hLabels : some n.label = some m.label := (hSame n hn hIdentity).symm.trans (hSame m hm hmKey)
  exact Std.le_of_eq (Option.some.inj hLabels).symm

/-- Every row that a save sends for a relationship is the row of a planned relationship, which stands
between two objects.  If each label and key has a number of its own and the answers echo the keys, the
row joins these two exactly if the plan tells of both by their keys alone; where no two labels share a
key, it always does. -/
theorem persist_joins_iff (w : Walker σ) (root : Ref) (depth taken : Nat) (p : Plan) (after : Nat)
    (hMade : Plan.make w.model w.registry w.heap root depth taken = (.ok p, after))
    (server : Server δ) (d : δ) (number : String → String → Int64)
    (hOwn : ∀ n ∈ p.allNodes, ∀ m ∈ p.allNodes,
      number n.label n.identity = number m.label m.identity →
        n.label = m.label ∧ n.identity = m.identity)
    (hEchoes : EchoesAll w.registry.strategy number p.nodes
      (p.persist server.answered w.registry.strategy (d, [])).2.2)
    (call : Call) (hCall : call ∈ (p.persist server.answered w.registry.strategy (d, [])).2.2)
    (hKind : call.statement.kind = .relationshipUpsert)
    (row : Value) (hRow : row ∈ call.statement.batch) :
    ∃ e ∈ p.allEdges, (∃ ids label, edgeRow ids label e = .ok row) ∧
      (∃ a b, w.Relates root depth taken e a b) ∧
      ∀ a b, w.Relates root depth taken e a b →
        (w.Joins root depth taken p (p.persist server.answered w.registry.strategy (d, [])).2.2
            number row a b ↔
          w.Told root depth taken p a ∧ w.Told root depth taken p b) ∧
        (w.KeysApart root depth taken →
          w.Told root depth taken p a ∧ w.Told root depth taken p b) := by
  obtain ⟨s, hFinished⟩ := finished_of_make hMade
  have hGroups : Dict.Groups PlannedNode.label p.nodes := by
    rw [← hFinished.plan]
    exact hFinished.recorded.nodes.groups
  obtain ⟨ids, d₁, calls₁, hNodes, hGrows, hRows⟩ := persist_rows p server _ d hCall hKind
  obtain ⟨-, hAnswered, hNumbers⟩ := persistNodes_returns hNodes
  obtain ⟨e, he, label, hEdgeRow⟩ := hRows row hRow
  refine ⟨e, he, ⟨ids, label, hEdgeRow⟩, relates_of_planned hFinished he, fun a b hRelates => ?_⟩
  obtain ⟨hStartKey, hFinishKey⟩ := hRelates.keys
  obtain ⟨x, y, hx, hy, hJoins⟩ := edgeRow_joins hEdgeRow
  -- The table of numbers tells for each key the number under its last label.
  have hTable : ∀ key id, ids.find? key = some id →
      ∃ label, p.Tells label key ∧ id = number label key := by
    intro key id hId
    have hFind := hNumbers number (fun label items batches st rows hm hb hs hc =>
      hEchoes label items batches st rows hm hb hs (hGrows hc)) key
    rw [hFind] at hId
    cases hLast : lastLabel key p.nodes with
    | none =>
        rw [hLast] at hId
        cases hId
    | some last =>
        rw [hLast] at hId
        exact ⟨last, tells_of_lastLabel hGroups hLast, (Option.some.inj hId).symm⟩
  obtain ⟨lx, hTellsX, rfl⟩ := hTable e.start x hx
  obtain ⟨ly, hTellsY, rfl⟩ := hTable e.finish y hy
  have hAnswers : ∀ label items, (label, items) ∈ p.nodes → ∃ batches,
      nodeBatches w.registry.strategy label items = .ok batches ∧ ∀ s ∈ batches, ∃ rows,
        ⟨s, .ok rows⟩ ∈ (p.persist server.answered w.registry.strategy (d, [])).2.2 := by
    intro label items hm
    obtain ⟨batches, hBatches, hAll⟩ := hAnswered label items hm
    refine ⟨batches, hBatches, fun st hst => ?_⟩
    obtain ⟨rows, hMade⟩ := hAll st hst
    exact ⟨rows, hGrows hMade⟩
  constructor
  · constructor
    · -- The numbers in the row are those of the last labels, and no other node has them.
      rintro ⟨la, ka, lb, kb, hLa, hKa, hLb, hKb, hRowJoins, hSentA, hSentB⟩
      rw [hStartKey] at hKa
      rw [hFinishKey] at hKb
      cases hKa
      cases hKb
      obtain ⟨hNumberA, hNumberB⟩ := hJoins.unique hRowJoins
      exact ⟨⟨la, e.start, hLa, hStartKey, tells_of_number hGroups hOwn hTellsX hSentA hNumberA⟩,
        ⟨lb, e.finish, hLb, hFinishKey, tells_of_number hGroups hOwn hTellsY hSentB hNumberB⟩⟩
    · rintro ⟨⟨la, ka, hLa, hKa, hTellsA⟩, ⟨lb, kb, hLb, hKb, hTellsB⟩⟩
      rw [hStartKey] at hKa
      rw [hFinishKey] at hKb
      cases hKa
      cases hKb
      cases hTellsX.unique hTellsA
      cases hTellsY.unique hTellsB
      exact ⟨lx, e.start, ly, e.finish, hLa, hStartKey, hLb, hFinishKey, hJoins,
        sent_of_tells hGroups hAnswers hTellsA, sent_of_tells hGroups hAnswers hTellsB⟩
  · intro hApart
    obtain ⟨hStartPlaced, hFinishPlaced⟩ := placed_of_planned hFinished he
    exact ⟨told_of_keysApart hFinished hApart hStartKey hStartPlaced,
      told_of_keysApart hFinished hApart hFinishKey hFinishPlaced⟩

end Walker

instance (number : String → Int64) (s : Statement) (rows : List Record) :
    Decidable (Echoes number s rows) :=
  inferInstanceAs (Decidable (List.Perm _ _))

/-- Check every answer against the batches whose text it belongs to. -/
def echoesCheck (strategy : KeyStrategy) (number : String → String → Int64)
    (nodes : Dict (List PlannedNode)) (calls : List Call) : Bool :=
  nodes.all fun (label, items) =>
    match nodeBatches strategy label items with
    | .error _ => true
    | .ok batches => batches.all fun s => calls.all fun call =>
        call.statement.text != s.text ||
          match call.reply with
          | .ok rows => decide (Echoes (number label) s rows)
          | _ => true

theorem echoesAll_of_check {strategy : KeyStrategy} {number : String → String → Int64}
    {nodes : Dict (List PlannedNode)} {calls : List Call}
    (h : echoesCheck strategy number nodes calls = true) :
    EchoesAll strategy number nodes calls := by
  intro label items batches s rows hm hBatches hs hCall
  have hLabel := List.all_eq_true.1 h (label, items) hm
  simp only [hBatches] at hLabel
  have hOne := List.all_eq_true.1 (List.all_eq_true.1 hLabel s hs) ⟨s, .ok rows⟩ hCall
  simp only [bne_self_eq_false, Bool.false_or, decide_eq_true_eq] at hOne
  exact hOne

/-! A tag is about a person and about a movie, and both have the same key. -/

namespace Shelf

def tag : DeclaredType :=
  ⟨"Tag", "Tag", none,
    [⟨⟨"uuid", .scalar, "pk"⟩, .value .string⟩,
      ⟨⟨"movies", .many "Movie", "relationship=ABOUT_MOVIE;direction=outgoing"⟩, .many "Movie"⟩,
      ⟨⟨"persons", .many "Person", "relationship=ABOUT_PERSON;direction=outgoing"⟩, .many "Person"⟩],
    false⟩

def person : DeclaredType :=
  ⟨"Person", "Person", none, [⟨⟨"uuid", .scalar, "pk"⟩, .value .string⟩], false⟩

def movie : DeclaredType :=
  ⟨"Movie", "Movie", none, [⟨⟨"uuid", .scalar, "pk"⟩, .value .string⟩], false⟩

def strategy : KeyStrategy :=
  .uuid fun n => "k" ++ toString n

def aboutMovie : RelationshipRole := ⟨"ABOUT_MOVIE", .outgoing, "Movie", true⟩

def aboutPerson : RelationshipRole := ⟨"ABOUT_PERSON", .outgoing, "Person", true⟩

def registry : Registry where
  strategy := strategy
  types := [
    ⟨"Tag", "Tag", [⟨"uuid", "uuid", .key false, false, false⟩,
      ⟨"movies", "movies", .relationship aboutMovie, false, false⟩,
      ⟨"persons", "persons", .relationship aboutPerson, false, false⟩], none⟩,
    ⟨"Person", "Person", [⟨"uuid", "uuid", .key false, false, false⟩], none⟩,
    ⟨"Movie", "Movie", [⟨"uuid", "uuid", .key false, false, false⟩], none⟩]
  relationships := [
    (⟨"Tag", "ABOUT_MOVIE", "Movie"⟩, ⟨some ⟨"Tag", "movies", true, .outgoing⟩, none, none⟩),
    (⟨"Tag", "ABOUT_PERSON", "Person"⟩, ⟨some ⟨"Tag", "persons", true, .outgoing⟩, none, none⟩)]

example : Registry.ofDecls strategy [tag.decl, person.decl, movie.decl] = .ok registry := by rfl

def objects : Ref → Instance DeclaredObject
  | 0 => ⟨"Tag", ⟨tag, [("uuid", .string "t")], [("movies", [2]), ("persons", [1])], ⟨none, none⟩,
      false⟩⟩
  | 1 => ⟨"Person", ⟨person, [("uuid", .string "x")], [], ⟨none, none⟩, false⟩⟩
  | _ => ⟨"Movie", ⟨movie, [("uuid", .string "x")], [], ⟨none, none⟩, false⟩⟩

def walker : Walker DeclaredObject :=
  ⟨declaredModel [tag, person, movie], registry, ⟨3, objects⟩⟩

def toMovie : PlannedEdge := ⟨"t", "x", "ABOUT_MOVIE", false, false, none, []⟩

def toPerson : PlannedEdge := ⟨"t", "x", "ABOUT_PERSON", false, false, none, []⟩

def plan : Plan where
  nodes := [
    ("Movie", [⟨"x", "Movie", false, some (.string "x"), [], 2⟩]),
    ("Person", [⟨"x", "Person", false, some (.string "x"), [], 1⟩]),
    ("Tag", [⟨"t", "Tag", false, some (.string "t"), [], 0⟩])]
  edges := [("ABOUT_MOVIE", [toMovie]), ("ABOUT_PERSON", [toPerson])]
  assigned := []

/-- The movie, the person and the tag have the numbers 1, 2 and 3. -/
def number (label _key : String) : Int64 :=
  if label = "Movie" then 1 else if label = "Person" then 2 else 3

def row (finish : Int64) : Value :=
  .map [("end", .int finish), ("key", .string "t->x"), ("props", .map []), ("start", .int 3)]

def script : Script :=
  { Script.new with replies := [
      some [[("id", .int 1), ("key", .string "x")]],
      some [[("id", .int 2), ("key", .string "x")]],
      some [[("id", .int 3), ("key", .string "t")]]] }

/-- What is asked of the database when the tag is saved with one hop, and what it answers. -/
def calls : List Call :=
  (plan.persist Script.server.answered strategy (script, [])).2.2

/-- The relationships are asked for last, and both are given the number of the person as their end. -/
theorem calls_eq : calls = [
    ⟨edgeBatch "ABOUT_PERSON" "uuid" ⟨false, false, false⟩ [row 2], .ok [[("written", .int 1)]]⟩,
    ⟨edgeBatch "ABOUT_MOVIE" "uuid" ⟨false, false, false⟩ [row 2], .ok [[("written", .int 1)]]⟩,
    ⟨mergeBatch "Tag" "uuid" [⟨"t", "Tag", false, some (.string "t"), [], 0⟩],
      .ok [[("id", .int 3), ("key", .string "t")]]⟩,
    ⟨mergeBatch "Person" "uuid" [⟨"x", "Person", false, some (.string "x"), [], 1⟩],
      .ok [[("id", .int 2), ("key", .string "x")]]⟩,
    ⟨mergeBatch "Movie" "uuid" [⟨"x", "Movie", false, some (.string "x"), [], 2⟩],
      .ok [[("id", .int 1), ("key", .string "x")]]⟩] := by
  rfl

theorem number_own : ∀ n ∈ plan.allNodes, ∀ m ∈ plan.allNodes,
    number n.label n.identity = number m.label m.identity →
      n.label = m.label ∧ n.identity = m.identity := by
  decide +kernel

theorem answers_echo : EchoesAll strategy number plan.nodes calls :=
  echoesAll_of_check (by decide +kernel)

end Shelf

theorem persist_joins_shelf :
    ∃ e ∈ Shelf.plan.allEdges, (∃ ids label, edgeRow ids label e = .ok (Shelf.row 2)) ∧
      (∃ a b, Shelf.walker.Relates 0 1 0 e a b) ∧
      ∀ a b, Shelf.walker.Relates 0 1 0 e a b →
        (Shelf.walker.Joins 0 1 0 Shelf.plan Shelf.calls Shelf.number (Shelf.row 2) a b ↔
          Shelf.walker.Told 0 1 0 Shelf.plan a ∧ Shelf.walker.Told 0 1 0 Shelf.plan b) ∧
        (Shelf.walker.KeysApart 0 1 0 →
          Shelf.walker.Told 0 1 0 Shelf.plan a ∧ Shelf.walker.Told 0 1 0 Shelf.plan b) := by
  have hCall : ⟨edgeBatch "ABOUT_PERSON" "uuid" ⟨false, false, false⟩ [Shelf.row 2],
      .ok [[("written", .int 1)]]⟩ ∈ Shelf.calls := by
    rw [Shelf.calls_eq]
    exact List.mem_cons_self
  exact Walker.persist_joins_iff Shelf.walker 0 1 0 Shelf.plan 0 (by rfl) Script.server Shelf.script
    Shelf.number Shelf.number_own Shelf.answers_echo _ hCall rfl (Shelf.row 2) List.mem_cons_self

/-- The row for the relationship to the movie ends at the person. -/
theorem shelf_row_misses_movie :
    EchoesAll Shelf.strategy Shelf.number Shelf.plan.nodes Shelf.calls ∧
    (∀ n ∈ Shelf.plan.allNodes, ∀ m ∈ Shelf.plan.allNodes,
      Shelf.number n.label n.identity = Shelf.number m.label m.identity →
        n.label = m.label ∧ n.identity = m.identity) ∧
    Plan.make Shelf.walker.model Shelf.walker.registry Shelf.walker.heap 0 1 0 = (.ok Shelf.plan, 0) ∧
    ∃ call ∈ Shelf.calls, call.statement.kind = .relationshipUpsert ∧
      ∃ row ∈ call.statement.batch,
        (∃ ids, edgeRow ids "ABOUT_MOVIE" Shelf.toMovie = .ok row) ∧
        Shelf.walker.Relates 0 1 0 Shelf.toMovie 0 2 ∧
        ¬ Shelf.walker.Joins 0 1 0 Shelf.plan Shelf.calls Shelf.number row 0 2 := by
  have hCall : ⟨edgeBatch "ABOUT_MOVIE" "uuid" ⟨false, false, false⟩ [Shelf.row 2],
      .ok [[("written", .int 1)]]⟩ ∈ Shelf.calls := by
    rw [Shelf.calls_eq]
    exact List.mem_cons_of_mem _ List.mem_cons_self
  have hRelates : Shelf.walker.Relates 0 1 0 Shelf.toMovie 0 2 := by
    have hReference : (Shelf.aboutMovie, 2) ∈ Shelf.walker.referencesOf 0 := List.mem_cons_self
    have hNode : Shelf.walker.NodeAs 2
        ⟨"Movie", "Movie", [⟨"uuid", "uuid", .key false, false, false⟩], none⟩ := ⟨rfl, rfl⟩
    have hTag : Shelf.walker.identityOf 0 1 0 0 = some "t" := by rfl
    have hMovie : Shelf.walker.identityOf 0 1 0 2 = some "x" := by rfl
    exact .plain hReference hNode hTag hMovie rfl
  refine ⟨Shelf.answers_echo, Shelf.number_own, by rfl, _, hCall, rfl, Shelf.row 2,
    List.mem_cons_self, ⟨[("t", 3), ("x", 2)], by rfl⟩, hRelates, ?_⟩
  rintro ⟨label, key, label', key', -, -, hLabel, -, hJoins, -, -⟩
  have hMovie : Shelf.walker.labelOf 2 = some "Movie" := by rfl
  rw [hMovie] at hLabel
  cases hLabel
  have hRow : RowJoins (Shelf.row 2) 3 2 := ⟨_, rfl, by rfl, by rfl⟩
  have hEnd : (2 : Int64) = 1 := (hRow.unique hJoins).2
  exact absurd hEnd (by decide)

end GraphMapping

import GraphMapping.Schema.Live

/-!
# Statements that change a schema

A statement that drops or creates an item says so in its text alone.  A reader of such texts gets back the
name of the item that is dropped, or the item that is created, if the names in them have no control
characters, which a quotation leaves out.
-/

namespace GraphMapping

/-- A name without control characters. -/
def ControlFree (name : String) : Prop :=
  ∀ c ∈ name.toList, Text.isControl c = false

instance (name : String) : Decidable (ControlFree name) :=
  List.decidableBAll _ name.toList

theorem isControl_of_plain {c : Char} (h : (c.isAlphanum || c == '_') = true) :
    Text.isControl c = false := by
  have hNumber : c.toNat = c.val.toNat := rfl
  unfold Text.isControl
  delta Char.isAlphanum Char.isAlpha Char.isUpper Char.isLower Char.isDigit at h
  simp only [Bool.or_eq_true, beq_iff_eq, Bool.and_eq_true, decide_eq_true_eq] at h
  simp only [Bool.or_eq_false_iff, Bool.and_eq_false_iff, decide_eq_false_iff_not]
  rcases h with hAlphanum | rfl
  · simp [UInt32.le_iff_toNat_le] at hAlphanum
    omega
  · decide

/-- A plain identifier has letters, digits and underscores only. -/
theorem controlFree_of_isPlain {name : String} (h : Identifier.isPlain name = true) : ControlFree name := by
  unfold Identifier.isPlain at h
  intro c hc
  split at h
  · cases h
  · rename_i first rest hList
    simp only [Bool.and_eq_true, List.all_eq_true] at h
    obtain ⟨hFirst, hRest⟩ := h
    rw [hList] at hc
    rcases List.mem_cons.1 hc with rfl | hc
    · apply isControl_of_plain
      simp only [Bool.or_eq_true, Char.isAlphanum] at hFirst ⊢
      exact hFirst.imp_left Or.inl
    · exact isControl_of_plain (hRest c hc)

/-- The names of the item can be quoted. -/
structure SchemaItem.Readable (item : SchemaItem) : Prop where
  label : ControlFree item.label
  properties : ∀ name ∈ item.properties, ControlFree name

/-- What a statement does to a schema. -/
inductive Change where
  | drop (isConstraint : Bool) (name : String)
  | create (item : SchemaItem)
deriving DecidableEq, Repr

namespace Change

/-- The text behind a word that begins it. -/
def after (word : String) (text : List Char) : Option (List Char) :=
  if word.toList.isPrefixOf text then some (text.drop word.toList.length) else none

/-- Read the properties of an element bound to `n`, separated by commas; the bound is on their number. -/
def readProperties : Nat → List Char → Option (List String × List Char)
  | 0, _ => none
  | bound + 1, text => do
      let text ← after "n." text
      let (name, text) ← Identifier.read text
      match after ", " text with
      | none => some ([String.ofList name], text)
      | some text =>
          let (names, text) ← readProperties bound text
          some (String.ofList name :: names, text)

/-- The words before the name and after it in a text that drops an item. -/
def dropWords : Bool → String × String
  | true => ("DROP CONSTRAINT ", " IF EXISTS")
  | false => ("DROP INDEX ", " IF EXISTS")

/-- Read a text that drops an item. -/
def readDrop (isConstraint : Bool) (text : List Char) : Option Change := do
  let text ← after (dropWords isConstraint).1 text
  let (name, text) ← Identifier.read text
  if text = (dropWords isConstraint).2.toList then some (.drop isConstraint (String.ofList name)) else none

/-- The words before the label, before the properties and after them in a text that creates an item. -/
def createWords : SchemaKind → String × String × String
  | .unique => ("CREATE CONSTRAINT IF NOT EXISTS FOR (n:", ") REQUIRE ", " IS UNIQUE")
  | .index => ("CREATE INDEX IF NOT EXISTS FOR (n:", ") ON (", ")")

/-- Read a text that creates an item. -/
def readCreate (kind : SchemaKind) (text : List Char) : Option Change := do
  let text ← after (createWords kind).1 text
  let (label, text) ← Identifier.read text
  let text ← after (createWords kind).2.1 text
  let (properties, text) ← readProperties text.length text
  if text = (createWords kind).2.2.toList then
    some (.create ⟨kind, String.ofList label, properties⟩)
  else none

/-- Read the text of a statement that changes a schema. -/
def read (text : List Char) : Option Change :=
  (readDrop true text).or ((readDrop false text).or
    ((readCreate .unique text).or (readCreate .index text)))

variable {name : String} {names : List String} {item : SchemaItem} {rest : List Char}

theorem after_append (word : String) (rest : List Char) :
    after word (word.toList ++ rest) = some rest := by
  unfold after
  rw [if_pos (List.isPrefixOf_iff_prefix.2 (List.prefix_append _ _)), List.drop_left]

/-- A quoted name reads back. -/
theorem read_quote (h : ControlFree name) (hRest : rest.head? ≠ some Identifier.tick) :
    Identifier.read ((Identifier.quote name).toList ++ rest) = some (name.toList, rest) := by
  have hFilter : name.toList.filter (!Text.isControl ·) = name.toList :=
    List.filter_eq_self.2 fun c hc => by simp [h c hc]
  rw [Identifier.quote, String.toList_ofList, Identifier.read_quoteChars _ _ hRest, hFilter]

theorem propertyList_single (name : String) :
    (SchemaItem.propertyList [name]).toList = "n.".toList ++ (Identifier.quote name).toList := by
  simp [SchemaItem.propertyList, Identifier.property, String.toList_append]

theorem propertyList_cons (name next : String) (more : List String) :
    (SchemaItem.propertyList (name :: next :: more)).toList =
      "n.".toList ++ ((Identifier.quote name).toList ++
        (", ".toList ++ (SchemaItem.propertyList (next :: more)).toList)) := by
  simp [SchemaItem.propertyList, Identifier.property, String.toList_intercalate, List.intercalate]

theorem length_le_propertyList (names : List String) :
    names.length ≤ (SchemaItem.propertyList names).toList.length := by
  induction names with
  | nil => exact Nat.zero_le _
  | cons name more ih =>
      cases more with
      | nil =>
          rw [propertyList_single, List.length_append]
          exact Nat.le_add_right_of_le (show 1 ≤ "n.".toList.length from by decide)
      | cons next more =>
          have hWord : "n.".toList.length = 2 := by rfl
          rw [propertyList_cons]
          simp only [List.length_append, List.length_cons, hWord] at ih ⊢
          omega

/-- The properties read back; what follows them begins neither with a backtick nor with a comma. -/
theorem readProperties_propertyList (hNames : ∀ name ∈ names, ControlFree name) (hSome : names ≠ [])
    (hTick : rest.head? ≠ some Identifier.tick) (hComma : rest.head? ≠ some ',') {bound : Nat}
    (hBound : names.length ≤ bound) :
    readProperties bound ((SchemaItem.propertyList names).toList ++ rest) = some (names, rest) := by
  induction names generalizing bound with
  | nil => exact absurd rfl hSome
  | cons name more ih =>
      obtain ⟨bound, rfl⟩ : ∃ m, bound = m + 1 := ⟨bound - 1, by simp at hBound; omega⟩
      have hName := hNames name List.mem_cons_self
      cases more with
      | nil =>
          have hNoComma : after ", " rest = none := by
            unfold after
            rw [if_neg]
            intro hPrefix
            obtain ⟨tail, rfl⟩ := List.isPrefixOf_iff_prefix.1 hPrefix
            exact hComma rfl
          rw [propertyList_single, List.append_assoc]
          simp only [readProperties, after_append, Option.bind_eq_bind, Option.bind_some,
            read_quote hName hTick, hNoComma, String.ofList_toList]
      | cons next more =>
          have hRest := ih (fun name hMem => hNames name (List.mem_cons_of_mem _ hMem))
            (List.cons_ne_nil _ _) (Nat.le_of_succ_le_succ hBound)
          rw [propertyList_cons]
          simp only [List.append_assoc, readProperties, after_append, Option.bind_eq_bind,
            Option.bind_some]
          rw [read_quote hName (by simp [Identifier.tick])]
          simp only [Option.bind_some, after_append, hRest, String.ofList_toList]

theorem readDrop_text (isConstraint : Bool) (h : ControlFree name) :
    readDrop isConstraint ((dropWords isConstraint).1.toList ++
      ((Identifier.quote name).toList ++ (dropWords isConstraint).2.toList)) =
        some (.drop isConstraint name) := by
  have hLast : (dropWords isConstraint).2.toList.head? ≠ some Identifier.tick := by
    cases isConstraint <;> simp [dropWords, Identifier.tick]
  simp only [readDrop, after_append, Option.bind_eq_bind, Option.bind_some]
  rw [read_quote h hLast, Option.bind_some, if_pos rfl, String.ofList_toList]

theorem readCreate_text (kind : SchemaKind) {label : String} (hLabel : ControlFree label)
    (hNames : ∀ name ∈ names, ControlFree name) (hSome : names ≠ []) :
    readCreate kind ((createWords kind).1.toList ++ ((Identifier.quote label).toList ++
      ((createWords kind).2.1.toList ++ ((SchemaItem.propertyList names).toList ++
        (createWords kind).2.2.toList)))) = some (.create ⟨kind, label, names⟩) := by
  have hLast : (createWords kind).2.2.toList.head? ≠ some Identifier.tick ∧
      (createWords kind).2.2.toList.head? ≠ some ',' := by
    cases kind <;> simp [createWords, Identifier.tick]
  have hMiddle : ∀ rest, ((createWords kind).2.1.toList ++ rest).head? ≠ some Identifier.tick := by
    intro rest
    cases kind <;> simp [createWords, Identifier.tick]
  simp only [readCreate, after_append, Option.bind_eq_bind, Option.bind_some]
  rw [read_quote hLabel (hMiddle _)]
  simp only [Option.bind_some, after_append, String.ofList_toList]
  rw [readProperties_propertyList hNames hSome hLast.1 hLast.2]
  · simp only [Option.bind_some, if_true]
  · rw [List.length_append]
    exact Nat.le_add_right_of_le (length_le_propertyList names)

/-- The text that drops a listed item reads back. -/
theorem read_removal {i : LiveItem} (h : ControlFree i.name) :
    read i.removal.text.toList = some (.drop i.isConstraint i.name) := by
  have hText : i.removal.text.toList = (dropWords i.isConstraint).1.toList ++
      ((Identifier.quote i.name).toList ++ (dropWords i.isConstraint).2.toList) := by
    obtain ⟨name, kind, item, isConstraint⟩ := i
    cases isConstraint <;>
      simp [LiveItem.removal, LiveItem.keyword, Statement.plain, dropWords, String.toList_append]
  rw [hText]
  unfold read
  cases i.isConstraint with
  | true => rw [readDrop_text true h, Option.some_or]
  | false =>
      have hNone : readDrop true ((dropWords false).1.toList ++
          ((Identifier.quote i.name).toList ++ (dropWords false).2.toList)) = none := by
        rfl
      rw [hNone, Option.none_or, readDrop_text false h, Option.some_or]

/-- The text that creates an item reads back. -/
theorem read_creation (h : item.Readable) (hSome : item.properties ≠ []) :
    read item.creation.text.toList = some (.create item) := by
  obtain ⟨kind, label, properties⟩ := item
  obtain ⟨hLabel, hNames⟩ := h
  have hText : (SchemaItem.creation ⟨kind, label, properties⟩).text.toList =
      (createWords kind).1.toList ++ ((Identifier.quote label).toList ++
        ((createWords kind).2.1.toList ++ ((SchemaItem.propertyList properties).toList ++
          (createWords kind).2.2.toList))) := by
    cases kind <;>
      simp [SchemaItem.creation, SchemaItem.body, SchemaItem.keyword, Statement.plain, createWords,
        String.toList_append]
  have hDrop : ∀ isConstraint rest, readDrop isConstraint ((createWords kind).1.toList ++ rest) =
      none := by
    intro isConstraint rest
    cases kind <;> cases isConstraint <;> rfl
  rw [hText]
  unfold read
  rw [hDrop, hDrop, Option.none_or, Option.none_or]
  cases kind with
  | unique => rw [readCreate_text .unique hLabel hNames hSome, Option.some_or]
  | index =>
      have hNone : ∀ rest, readCreate .unique ((createWords .index).1.toList ++ rest) = none :=
        fun rest => rfl
      rw [hNone, Option.none_or, readCreate_text .index hLabel hNames hSome]

end Change

end GraphMapping

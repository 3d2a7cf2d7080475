import GraphMapping.Mapping.Tag
import GraphMapping.Proofs.Results
import GraphMapping.Proofs.Text.Cuts
import Mathlib.Data.List.Nodup

/-!
# The grammar of tags

A token of a tag is a flag or an assignment.  Each token that is taken fills one slot, which has to be free,
so the slots hold what the tokens say and nothing else.  Main statement: a tag is read just if its tokens
follow the grammar, and it means what they say; neither their order nor blanks around them matter.
-/

namespace GraphMapping

/-- A word names a direction, in any case of its letters. -/
def Direction.Spells (d : Direction) (word : String) : Prop :=
  Text.lower word.toList = d.name.toList

theorem Direction.ofChars?_eq_some {cs : List Char} {d : Direction} :
    Direction.ofChars? cs = some d ↔ d.Spells (String.ofList cs) := by
  have hWord : ∀ word : String, String.ofList (Text.lower cs) = word ↔ Text.lower cs = word.toList := by
    intro word
    rw [← String.toList_inj, String.toList_ofList]
  unfold Direction.ofChars? Direction.Spells
  rw [String.toList_ofList, ← hWord]
  generalize String.ofList (Text.lower cs) = word
  constructor
  · intro h
    dsimp only at h
    split_ifs at h
    all_goals
      cases h
      assumption
  · rintro rfl
    cases d <;> rfl

theorem Direction.Spells.unique {d d' : Direction} {word : String} (h : d.Spells word) (h' : d'.Spells word) :
    d = d' := by
  have hName : d.name = d'.name := String.toList_inj.1 (h.symm.trans h')
  cases d <;> cases d' <;> first | rfl | exact absurd hName (by decide)

namespace Tag

/-- What a token is: a flag, or a key and its value. -/
inductive Item where
  | flag (word : String)
  | assignment (key value : String)
deriving DecidableEq, Repr

/-- A token is cut at its first `=`. -/
def Item.ofToken (token : List Char) : Item :=
  match Text.cut '=' token with
  | some (key, value) => .assignment (String.ofList (Text.trim key)) (String.ofList (Text.trim value))
  | none => .flag (String.ofList token)

/-- The items of a tag, in order. -/
def items (cs : List Char) : List Item :=
  (tokens cs).map Item.ofToken

example : items "name = a=b ;; pk".toList = [.assignment "name" "a=b", .flag "pk"] := by decide

/-- What may occur in a tag once: a flag or a key. -/
def Item.name : Item → String
  | .flag word => word
  | .assignment key _ => key

/-- The words that stand alone. -/
def flags : List String :=
  ["pk", "unique", "index", "properties"]

/-- The keys that take a value. -/
def keys : List String :=
  ["name", "relationship", "direction", "pk_type"]

/-- An item that a tag may have. -/
def Item.Known : Item → Prop
  | .flag word => word ∈ flags
  | .assignment key value =>
      key ∈ keys ∧ value ≠ "" ∧ (key = "direction" → ∃ d : Direction, d.Spells value)

/-- The items of a tag that maps a field. -/
structure Grammatical (items : List Item) : Prop where
  known : ∀ item ∈ items, item.Known
  /-- No flag and no key occurs twice. -/
  once : (items.map Item.name).Nodup
  paired : (∃ value, .assignment "relationship" value ∈ items) ↔
    ∃ value, .assignment "direction" value ∈ items
  keyed : (∃ value, .assignment "pk_type" value ∈ items) → .flag "pk" ∈ items

/-- Marks that hold what the items say, and nothing else. -/
structure Says (items : List Item) (marks : Marks) : Prop where
  name : ∀ value, marks.name = some value ↔ .assignment "name" value ∈ items
  relationship : ∀ type d, marks.relationship = some (type, d) ↔
    .assignment "relationship" type ∈ items ∧ ∃ value, .assignment "direction" value ∈ items ∧ d.Spells value
  key : ∀ strategy, marks.key = some strategy ↔
    .flag "pk" ∈ items ∧ ∀ value, strategy = some value ↔ .assignment "pk_type" value ∈ items
  unique : marks.unique = true ↔ .flag "unique" ∈ items
  indexed : marks.indexed = true ↔ .flag "index" ∈ items
  properties : marks.properties = true ↔ .flag "properties" ∈ items

/-- The meaning of items. -/
inductive Reads (items : List Item) : Tag → Prop
  | ignored (alone : items = [.flag "-"]) : Reads items .ignored
  | mapped {marks : Marks} (grammar : Grammatical items) (meaning : Says items marks) :
      Reads items (.mapped marks)

/-- A place in a piece of a tag, between `left` and `right`, where blanks may stand: at either end of the
token, and on both sides of the `=` that it is cut at. -/
inductive Loose (left right : List Char) : Prop
  | front (h : Text.Blanks left)
  | back (h : Text.Blanks right)
  | beforeSign {gap value : List Char} (h : right = gap ++ '=' :: value) (hGap : Text.Blanks gap)
      (first : '=' ∉ left)
  | afterSign {key gap : List Char} (h : left = key ++ '=' :: gap) (hGap : Text.Blanks gap)
      (first : '=' ∉ key)

/-- A tag with blanks put in where they may stand, in one place after the other. -/
inductive Spaced (text : List Char) : List Char → Prop
  | same : Spaced text text
  | more {front back blanks left right : List Char} {before after : List (List Char)}
      (h : Spaced text (front ++ back)) (hLeft : Text.split ';' front = before ++ [left])
      (hRight : Text.split ';' back = right :: after) (place : Loose left right)
      (hBlanks : Text.Blanks blanks) : Spaced text (front ++ blanks ++ back)

/-- What one item changes: it fills a slot that was free. -/
inductive Taken (slots : Slots) : Item → Slots → Prop
  | name {value : String} (free : slots.name = none) (given : value ≠ "") :
      Taken slots (.assignment "name" value) { slots with name := some value }
  | relationship {value : String} (free : slots.relationship = none) (given : value ≠ "") :
      Taken slots (.assignment "relationship" value) { slots with relationship := some value }
  | direction {value : String} {d : Direction} (free : slots.direction = none) (given : value ≠ "")
      (spelled : d.Spells value) :
      Taken slots (.assignment "direction" value) { slots with direction := some d }
  | strategy {value : String} (free : slots.strategy = none) (given : value ≠ "") :
      Taken slots (.assignment "pk_type" value) { slots with strategy := some value }
  | key (free : slots.key = false) : Taken slots (.flag "pk") { slots with key := true }
  | unique (free : slots.unique = false) : Taken slots (.flag "unique") { slots with unique := true }
  | indexed (free : slots.indexed = false) : Taken slots (.flag "index") { slots with indexed := true }
  | properties (free : slots.properties = false) :
      Taken slots (.flag "properties") { slots with properties := true }

/-- Slots that hold what the items say, and nothing else. -/
structure Holds (slots : Slots) (items : List Item) : Prop where
  name : ∀ value, slots.name = some value ↔ .assignment "name" value ∈ items
  relationship : ∀ value, slots.relationship = some value ↔ .assignment "relationship" value ∈ items
  direction : ∀ d, slots.direction = some d ↔
    ∃ value, .assignment "direction" value ∈ items ∧ d.Spells value
  strategy : ∀ value, slots.strategy = some value ↔ .assignment "pk_type" value ∈ items
  key : slots.key = true ↔ .flag "pk" ∈ items
  unique : slots.unique = true ↔ .flag "unique" ∈ items
  indexed : slots.indexed = true ↔ .flag "index" ∈ items
  properties : slots.properties = true ↔ .flag "properties" ∈ items

variable {slots slots' : Slots} {item : Item} {seen listed listed' : List Item}

/-! ### One token -/

theorem once_eq_ok {α : Type} {taken : Bool} {name : String} {result a : α} :
    once taken name result = .ok a ↔ taken = false ∧ result = a := by
  cases taken <;> simp [once]

theorem raise_eq_ok {word : String} : raise slots word = .ok slots' ↔ Taken slots (.flag word) slots' := by
  constructor
  · intro h
    unfold raise at h
    split_ifs at h with hKey hUnique hIndexed hProperties
    · obtain ⟨free, rfl⟩ := once_eq_ok.1 h
      exact hKey ▸ .key free
    · obtain ⟨free, rfl⟩ := once_eq_ok.1 h
      exact hUnique ▸ .unique free
    · obtain ⟨free, rfl⟩ := once_eq_ok.1 h
      exact hIndexed ▸ .indexed free
    · obtain ⟨free, rfl⟩ := once_eq_ok.1 h
      exact hProperties ▸ .properties free
  · intro h
    cases h <;> simp [raise, once_eq_ok, *]

theorem assign_eq_ok {token key value : String} {direction : Option Direction}
    (hDirection : ∀ d : Direction, direction = some d ↔ d.Spells value) :
    assign slots token key value direction = .ok slots' ↔ Taken slots (.assignment key value) slots' := by
  constructor
  · intro h
    unfold assign at h
    split_ifs at h with given hName hRelationship hStrategy hKey taken
    · obtain ⟨free, rfl⟩ := once_eq_ok.1 h
      exact hName ▸ .name (Option.not_isSome_iff_eq_none.1 (by simp [free])) given
    · obtain ⟨free, rfl⟩ := once_eq_ok.1 h
      exact hRelationship ▸ .relationship (Option.not_isSome_iff_eq_none.1 (by simp [free])) given
    · obtain ⟨free, rfl⟩ := once_eq_ok.1 h
      exact hStrategy ▸ .strategy (Option.not_isSome_iff_eq_none.1 (by simp [free])) given
    · split at h
      · rename_i d
        cases h
        exact hKey ▸ .direction (Option.not_isSome_iff_eq_none.1 taken) given ((hDirection d).1 rfl)
      · cases h
  · intro h
    cases h with
    | direction free given spelled =>
        rw [(hDirection _).2 spelled]
        simp [assign, free, given]
    | name free given => simp [assign, once_eq_ok, free, given]
    | relationship free given => simp [assign, once_eq_ok, free, given]
    | strategy free given => simp [assign, once_eq_ok, free, given]

/-- A token that is taken fills the slot of what it is, and a token fails if it cannot. -/
theorem take_eq_ok {token : List Char} :
    take slots token = .ok slots' ↔ Taken slots (Item.ofToken token) slots' := by
  unfold take Item.ofToken
  cases Text.cut '=' token with
  | none => exact raise_eq_ok
  | some sides => exact assign_eq_ok fun d => Direction.ofChars?_eq_some

theorem Taken.known (h : Taken slots item slots') : item.Known := by
  cases h with
  | direction free given spelled => exact ⟨by decide, given, fun _ => ⟨_, spelled⟩⟩
  | name free given => exact ⟨by decide, given, fun h => absurd h (by decide)⟩
  | relationship free given => exact ⟨by decide, given, fun h => absurd h (by decide)⟩
  | strategy free given => exact ⟨by decide, given, fun h => absurd h (by decide)⟩
  | _ => simp [Item.Known, flags]

theorem Taken.holds (h : Taken slots item slots') (hSeen : Holds slots seen) :
    Holds slots' (seen ++ [item]) := by
  obtain ⟨name, relationship, direction, strategy, key, unique, indexed, properties⟩ := hSeen
  cases h with
  | direction free given spelled =>
      constructor <;> simp [← name, ← relationship, ← strategy, ← key, ← unique, ← indexed, ← properties]
      intro d
      -- The value that is taken may be spelled in several ways, but names one direction.
      rw [← direction, free]
      exact ⟨fun h => .inr (h ▸ spelled), fun h => spelled.unique (h.resolve_left nofun)⟩
  | _ free =>
      constructor <;>
        simp [← name, ← relationship, ← strategy, ← key, ← unique, ← indexed, ← properties, direction, free] <;>
        exact fun _ => eq_comm

theorem flag_mem_iff {word : String} (hKnown : ∀ item ∈ seen, item.Known) (hWord : word ∈ flags) :
    word ∈ seen.map Item.name ↔ .flag word ∈ seen := by
  have hApart : ∀ word ∈ flags, word ∉ keys := by decide
  constructor
  · intro h
    obtain ⟨item, hItem, rfl⟩ := List.mem_map.1 h
    cases item with
    | flag word => exact hItem
    | assignment key value => exact absurd (hKnown _ hItem).1 (hApart key hWord)
  · exact List.mem_map_of_mem

theorem key_mem_iff {key : String} (hKnown : ∀ item ∈ seen, item.Known) (hKey : key ∈ keys) :
    key ∈ seen.map Item.name ↔ ∃ value, .assignment key value ∈ seen := by
  have hApart : ∀ key ∈ keys, key ∉ flags := by decide
  constructor
  · intro h
    obtain ⟨item, hItem, rfl⟩ := List.mem_map.1 h
    cases item with
    | flag word => exact absurd (hKnown _ hItem) (hApart word hKey)
    | assignment key value => exact ⟨value, hItem⟩
  · rintro ⟨value, h⟩
    exact List.mem_map_of_mem h

/-- The slots after some items, none of which was refused. -/
structure Collected (slots : Slots) (items : List Item) : Prop where
  known : ∀ item ∈ items, item.Known
  once : (items.map Item.name).Nodup
  holds : Holds slots items

theorem Collected.direction_iff (h : Collected slots seen) :
    (∃ d, slots.direction = some d) ↔ ∃ value, .assignment "direction" value ∈ seen := by
  constructor
  · rintro ⟨d, hd⟩
    obtain ⟨value, hValue, -⟩ := (h.holds.direction d).1 hd
    exact ⟨value, hValue⟩
  · rintro ⟨value, hValue⟩
    obtain ⟨-, -, hSpelled⟩ := h.known _ hValue
    obtain ⟨d, hd⟩ := hSpelled rfl
    exact ⟨d, (h.holds.direction d).2 ⟨value, hValue, hd⟩⟩

/-- The slot of a key is free just if the key has not occurred. -/
theorem Collected.key_slot {slot : Option String} {key : String} (h : Collected slots seen) (hKey : key ∈ keys)
    (hSlot : ∀ value, slot = some value ↔ .assignment key value ∈ seen) :
    slot = none ↔ key ∉ seen.map Item.name := by
  rw [key_mem_iff h.known hKey, Option.eq_none_iff_forall_ne_some, not_exists]
  exact forall_congr' fun value => (hSlot value).not

theorem Collected.direction_slot (h : Collected slots seen) :
    slots.direction = none ↔ "direction" ∉ seen.map Item.name := by
  rw [key_mem_iff h.known (by decide), ← h.direction_iff, Option.eq_none_iff_forall_ne_some, not_exists]

theorem Collected.flag_slot {slot : Bool} {word : String} (h : Collected slots seen) (hWord : word ∈ flags)
    (hSlot : slot = true ↔ .flag word ∈ seen) : slot = false ↔ word ∉ seen.map Item.name := by
  rw [flag_mem_iff h.known hWord, ← hSlot, Bool.not_eq_true]

/-- An item that is taken has not occurred. -/
theorem Collected.fresh (h : Collected slots seen) (hTaken : Taken slots item slots') :
    item.name ∉ seen.map Item.name := by
  cases hTaken with
  | name free => exact (h.key_slot (by decide) h.holds.name).1 free
  | relationship free => exact (h.key_slot (by decide) h.holds.relationship).1 free
  | direction free => exact h.direction_slot.1 free
  | strategy free => exact (h.key_slot (by decide) h.holds.strategy).1 free
  | key free => exact (h.flag_slot (by decide) h.holds.key).1 free
  | unique free => exact (h.flag_slot (by decide) h.holds.unique).1 free
  | indexed free => exact (h.flag_slot (by decide) h.holds.indexed).1 free
  | properties free => exact (h.flag_slot (by decide) h.holds.properties).1 free

/-- An item of the grammar that has not occurred is taken. -/
theorem Collected.exists_taken (h : Collected slots seen) (hKnown : item.Known)
    (hFresh : item.name ∉ seen.map Item.name) : ∃ slots', Taken slots item slots' := by
  cases item with
  | flag word =>
      simp only [Item.Known, flags, List.mem_cons, List.not_mem_nil, or_false] at hKnown
      rcases hKnown with rfl | rfl | rfl | rfl
      · exact ⟨_, .key ((h.flag_slot (by decide) h.holds.key).2 hFresh)⟩
      · exact ⟨_, .unique ((h.flag_slot (by decide) h.holds.unique).2 hFresh)⟩
      · exact ⟨_, .indexed ((h.flag_slot (by decide) h.holds.indexed).2 hFresh)⟩
      · exact ⟨_, .properties ((h.flag_slot (by decide) h.holds.properties).2 hFresh)⟩
  | assignment key value =>
      obtain ⟨hKey, given, hSpelled⟩ := hKnown
      simp only [keys, List.mem_cons, List.not_mem_nil, or_false] at hKey
      rcases hKey with rfl | rfl | rfl | rfl
      · exact ⟨_, .name ((h.key_slot (by decide) h.holds.name).2 hFresh) given⟩
      · exact ⟨_, .relationship ((h.key_slot (by decide) h.holds.relationship).2 hFresh) given⟩
      · obtain ⟨d, hd⟩ := hSpelled rfl
        exact ⟨_, .direction (h.direction_slot.2 hFresh) given hd⟩
      · exact ⟨_, .strategy ((h.key_slot (by decide) h.holds.strategy).2 hFresh) given⟩

theorem Collected.step (h : Collected slots seen) (hTaken : Taken slots item slots') :
    Collected slots' (seen ++ [item]) where
  known := by
    intro item' hItem
    rcases List.mem_append.1 hItem with hSeen | hLast
    · exact h.known item' hSeen
    · exact List.mem_singleton.1 hLast ▸ hTaken.known
  once := by
    rw [List.map_append, List.map_singleton]
    exact List.nodup_append.2 ⟨h.once, List.nodup_singleton _, fun name hName name' hLast hSame =>
      h.fresh hTaken (List.mem_singleton.1 hLast ▸ hSame ▸ hName)⟩
  holds := hTaken.holds h.holds

/-! ### All tokens -/

theorem collected_empty : Collected Slots.empty [] where
  known := nofun
  once := List.nodup_nil
  holds := by constructor <;> simp [Slots.empty]

theorem Collected.run {tokens : List (List Char)} (h : Collected slots seen)
    (hRun : tokens.foldlM take slots = .ok slots') : Collected slots' (seen ++ tokens.map Item.ofToken) := by
  induction tokens generalizing slots seen with
  | nil =>
      cases hRun
      rwa [List.map_nil, List.append_nil]
  | cons token rest ih =>
      rw [List.foldlM_cons] at hRun
      obtain ⟨next, hNext, hRun⟩ := bind_eq_ok.1 hRun
      have hRest := ih (h.step (take_eq_ok.1 hNext)) hRun
      rwa [List.append_assoc] at hRest

/-- Nothing stops the reading of items that are known and occur once. -/
theorem Collected.exists_run {tokens : List (List Char)} (h : Collected slots seen)
    (hKnown : ∀ token ∈ tokens, (Item.ofToken token).Known)
    (hOnce : ((seen ++ tokens.map Item.ofToken).map Item.name).Nodup) :
    ∃ slots', tokens.foldlM take slots = .ok slots' := by
  induction tokens generalizing slots seen with
  | nil => exact ⟨slots, rfl⟩
  | cons token rest ih =>
      obtain ⟨hHere, hRest⟩ := List.forall_mem_cons.1 hKnown
      have hFresh : (Item.ofToken token).name ∉ seen.map Item.name := by
        intro hSeen
        rw [List.map_append] at hOnce
        exact (List.nodup_append.1 hOnce).2.2 _ hSeen _ List.mem_cons_self rfl
      obtain ⟨next, hNext⟩ := h.exists_taken hHere hFresh
      rw [List.map_cons, ← List.singleton_append, ← List.append_assoc] at hOnce
      obtain ⟨last, hLast⟩ := ih (h.step hNext) hRest hOnce
      refine ⟨last, ?_⟩
      rw [List.foldlM_cons]
      exact bind_eq_ok.2 ⟨next, take_eq_ok.2 hNext, hLast⟩

/-- What the slots make together. -/
def Slots.combined (slots : Slots) : Marks where
  name := slots.name
  relationship := slots.relationship.bind fun type => slots.direction.map fun d => (type, d)
  key := if slots.key then some slots.strategy else none
  unique := slots.unique
  indexed := slots.indexed
  properties := slots.properties

theorem Slots.marks_eq_ok {marks : Marks} :
    slots.marks = .ok marks ↔
      ((∃ type, slots.relationship = some type) ↔ ∃ d, slots.direction = some d) ∧
      ((∃ value, slots.strategy = some value) → slots.key = true) ∧ slots.combined = marks := by
  obtain ⟨name, relationship, direction, strategy, key, unique, indexed, properties⟩ := slots
  cases relationship <;> cases direction <;> cases strategy <;> cases key <;>
    simp [Slots.marks, Slots.combined]

theorem Holds.combined (h : Holds slots listed) : Says listed slots.combined where
  name := h.name
  relationship := by
    intro type d
    rw [← h.relationship, ← h.direction]
    simp [Slots.combined, Option.bind_eq_some_iff]
  key := by
    intro strategy
    change (if slots.key then some slots.strategy else none) = some strategy ↔ _
    constructor
    · intro hSome
      split at hSome
      · cases hSome
        exact ⟨h.key.1 ‹_›, h.strategy⟩
      · cases hSome
    · rintro ⟨hKey, hStrategy⟩
      rw [if_pos (h.key.2 hKey)]
      exact congrArg some (Option.ext fun value => (h.strategy value).trans (hStrategy value).symm)
  unique := h.unique
  indexed := h.indexed
  properties := h.properties

theorem Says.eq {marks marks' : Marks} (h : Says listed marks) (h' : Says listed marks') : marks = marks' := by
  obtain ⟨name, relationship, key, unique, indexed, properties⟩ := marks
  obtain ⟨name', relationship', key', unique', indexed', properties'⟩ := marks'
  obtain rfl : name = name' := Option.ext fun v => (h.name v).trans (h'.name v).symm
  obtain rfl : relationship = relationship' :=
    Option.ext fun r => (h.relationship r.1 r.2).trans (h'.relationship r.1 r.2).symm
  obtain rfl : key = key' := Option.ext fun s => (h.key s).trans (h'.key s).symm
  obtain rfl : unique = unique' := Bool.eq_iff_iff.2 (h.unique.trans h'.unique.symm)
  obtain rfl : indexed = indexed' := Bool.eq_iff_iff.2 (h.indexed.trans h'.indexed.symm)
  obtain rfl : properties = properties' := Bool.eq_iff_iff.2 (h.properties.trans h'.properties.symm)
  rfl

theorem Collected.marks_eq_ok {marks : Marks} (h : Collected slots listed) :
    slots.marks = .ok marks ↔ Grammatical listed ∧ Says listed marks := by
  rw [Slots.marks_eq_ok, h.direction_iff]
  simp only [h.holds.relationship, h.holds.strategy, h.holds.key]
  constructor
  · rintro ⟨hPaired, hKeyed, rfl⟩
    exact ⟨⟨h.known, h.once, hPaired, hKeyed⟩, h.holds.combined⟩
  · rintro ⟨hGrammar, hSays⟩
    exact ⟨hGrammar.paired, hGrammar.keyed, h.holds.combined.eq hSays⟩

/-! ### The whole tag -/

theorem alone_iff {cs : List Char} : items cs = [.flag "-"] ↔ tokens cs = [['-']] := by
  unfold items
  rw [List.map_eq_singleton_iff]
  constructor
  · rintro ⟨token, hTokens, hToken⟩
    unfold Item.ofToken at hToken
    cases hCut : Text.cut '=' token with
    | some sides =>
        rw [hCut] at hToken
        cases hToken
    | none =>
        rw [hCut] at hToken
        rw [hTokens, ← String.toList_ofList (l := token), Item.flag.inj hToken]
        rfl
  · intro h
    exact ⟨['-'], h, rfl⟩

/-- With the sign for a field that is left out no other item is read. -/
theorem reads_iff_of_dash {tag : Tag} (h : .flag "-" ∈ listed) :
    Reads listed tag ↔ listed = [.flag "-"] ∧ tag = .ignored := by
  constructor
  · intro hReads
    cases hReads with
    | ignored alone => exact ⟨alone, rfl⟩
    | mapped grammar =>
        have hFlag : "-" ∈ flags := grammar.known _ h
        exact absurd hFlag (by decide)
  · rintro ⟨alone, rfl⟩
    exact .ignored alone

/-- Items of the grammar are collected to the last one. -/
theorem Grammatical.collected {cs : List Char} (h : Grammatical (items cs)) :
    ∃ slots, (tokens cs).foldlM take Slots.empty = .ok slots ∧ Collected slots (items cs) := by
  obtain ⟨slots, hSlots⟩ := collected_empty.exists_run
    (fun token hToken => h.known _ (List.mem_map_of_mem hToken)) h.once
  exact ⟨slots, hSlots, collected_empty.run hSlots⟩

theorem parseChars_eq_ok {cs : List Char} {tag : Tag} : parseChars cs = .ok tag ↔ Reads (items cs) tag := by
  unfold parseChars
  by_cases hDash : (tokens cs).contains ['-'] = true
  · have hMem : Item.flag "-" ∈ items cs := List.mem_map_of_mem (List.contains_iff_mem.1 hDash)
    rw [if_pos hDash, reads_iff_of_dash hMem, alone_iff]
    split
    · rename_i hMore
      refine ⟨nofun, fun h => ?_⟩
      rw [h.1] at hMore
      exact absurd hMore (by decide)
    · rename_i hFew
      have hOne : (tokens cs).length = 1 :=
        Nat.le_antisymm (Nat.not_lt.1 hFew) (List.length_pos_of_mem (List.contains_iff_mem.1 hDash))
      obtain ⟨token, hTokens⟩ := List.length_eq_one_iff.1 hOne
      rw [hTokens, List.contains_iff_mem, List.mem_singleton] at hDash
      subst hDash
      exact ⟨fun h => ⟨hTokens, (Except.ok.inj h).symm⟩, fun h => congrArg Except.ok h.2.symm⟩
  · rw [if_neg hDash]
    constructor
    · intro h
      obtain ⟨slots, hSlots, h⟩ := bind_eq_ok.1 h
      obtain ⟨marks, hMarks, h⟩ := bind_eq_ok.1 h
      cases h
      obtain ⟨hGrammar, hSays⟩ := (collected_empty.run hSlots).marks_eq_ok.1 hMarks
      exact .mapped hGrammar hSays
    · intro h
      cases h with
      | ignored alone =>
          refine absurd ?_ hDash
          rw [alone_iff.1 alone]
          rfl
      | mapped grammar meaning =>
          obtain ⟨slots, hSlots, hCollected⟩ := grammar.collected
          have hMarks := hCollected.marks_eq_ok.2 ⟨grammar, meaning⟩
          exact bind_eq_ok.2 ⟨slots, hSlots, bind_eq_ok.2 ⟨_, hMarks, rfl⟩⟩

/-! ### Order and blanks -/

theorem Grammatical.perm (h : listed.Perm listed') (hGrammar : Grammatical listed) :
    Grammatical listed' where
  known := fun item hItem => hGrammar.known item (h.mem_iff.2 hItem)
  once := (h.map Item.name).nodup_iff.1 hGrammar.once
  paired := by simpa only [h.mem_iff] using hGrammar.paired
  keyed := by simpa only [h.mem_iff] using hGrammar.keyed

theorem Says.perm {marks : Marks} (h : listed.Perm listed') (hSays : Says listed marks) :
    Says listed' marks where
  name := by simpa only [h.mem_iff] using hSays.name
  relationship := by simpa only [h.mem_iff] using hSays.relationship
  key := by simpa only [h.mem_iff] using hSays.key
  unique := by simpa only [h.mem_iff] using hSays.unique
  indexed := by simpa only [h.mem_iff] using hSays.indexed
  properties := by simpa only [h.mem_iff] using hSays.properties

theorem Reads.perm {tag : Tag} (h : listed.Perm listed') (hReads : Reads listed tag) : Reads listed' tag := by
  cases hReads with
  | ignored alone =>
      subst alone
      exact .ignored (List.perm_singleton.1 h.symm)
  | mapped grammar meaning => exact .mapped (grammar.perm h) (meaning.perm h)

/-- Texts with the same items in some order are read alike. -/
theorem toOption_parse_perm {text other : String} (h : (items other.toList).Perm (items text.toList)) :
    (parse other).toOption = (parse text).toOption :=
  toOption_eq fun _ =>
    (parseChars_eq_ok.trans ⟨Reads.perm h, Reads.perm h.symm⟩).trans parseChars_eq_ok.symm

/-- The item of a piece, if there is more than blanks. -/
def Item.ofPiece? (piece : List Char) : Option Item :=
  if (Text.trim piece).isEmpty then none else some (Item.ofToken (Text.trim piece))

theorem items_eq_filterMap (cs : List Char) : items cs = (Text.split ';' cs).filterMap Item.ofPiece? := by
  unfold items tokens
  induction Text.split ';' cs with
  | nil => rfl
  | cons piece rest ih =>
      rw [List.map_cons, List.filter_cons, List.filterMap_cons, Item.ofPiece?]
      cases hEmpty : (Text.trim piece).isEmpty with
      | true => simpa using ih
      | false => simpa using ih

theorem Item.ofPiece?_sign {key : List Char} (h : '=' ∉ key) (value : List Char) :
    Item.ofPiece? (key ++ '=' :: value) =
      some (.assignment (String.ofList (Text.trim key)) (String.ofList (Text.trim value))) := by
  have hCut : Text.cut '=' (Text.trim (key ++ '=' :: value)) = _ := Text.cut_trim (by decide) h value
  unfold Item.ofPiece? Item.ofToken
  rw [hCut, if_neg]
  · simp only [Text.trim_trimLeft, Text.trim_trimRight]
  · intro hEmpty
    rw [List.isEmpty_iff.1 hEmpty] at hCut
    cases hCut

/-- Blanks in a place where they may stand do not change the item. -/
theorem Loose.ofPiece? {left right blanks : List Char} (place : Loose left right)
    (hBlanks : Text.Blanks blanks) :
    Item.ofPiece? (left ++ blanks ++ right) = Item.ofPiece? (left ++ right) := by
  cases place with
  | front h =>
      unfold Item.ofPiece?
      rw [Text.trim_blanks_append (h.append hBlanks), Text.trim_blanks_append h]
  | back h =>
      unfold Item.ofPiece?
      rw [List.append_assoc, Text.trim_append_blanks (hBlanks.append h), Text.trim_append_blanks h]
  | @beforeSign gap value h hGap first =>
      subst h
      have hSign : '=' ∉ gap := hGap.not_mem (by decide)
      have hSign' : '=' ∉ blanks ++ gap := (hBlanks.append hGap).not_mem (by decide)
      rw [← List.append_assoc, ← List.append_assoc, List.append_assoc left,
        Item.ofPiece?_sign (List.not_mem_append first hSign'), Item.ofPiece?_sign (List.not_mem_append first hSign),
        Text.trim_append_blanks (hBlanks.append hGap), Text.trim_append_blanks hGap]
  | afterSign h hGap first =>
      subst h
      rw [List.append_assoc, List.append_assoc, List.append_assoc, List.cons_append, List.cons_append,
        Item.ofPiece?_sign first, Item.ofPiece?_sign first, ← List.append_assoc,
        Text.trim_blanks_append (hGap.append hBlanks), Text.trim_blanks_append hGap]

theorem Spaced.items_eq {text text' : List Char} (h : Spaced text text') : items text' = items text := by
  induction h with
  | same => rfl
  | more _ hLeft hRight place hBlanks ih =>
      rw [← ih, items_eq_filterMap, items_eq_filterMap, Text.split_append hLeft hRight,
        Text.split_insert (by decide) hBlanks hLeft hRight, List.filterMap_append, List.filterMap_append,
        List.filterMap_cons, List.filterMap_cons, place.ofPiece? hBlanks]

/-- A tag is read just if the only token is `-`, or the tokens are flags and assignments of the grammar, none
twice, the two of a relationship together and the strategy with the flag of the key.  It means what they say;
the order of the tokens does not matter, nor do blanks around them, a `;` or the `=` of an assignment. -/
theorem tag_follows_grammar (text : String) :
    (∀ tag, parse text = .ok tag ↔ Reads (items text.toList) tag) ∧
      ((∃ tag, parse text = .ok tag) ↔
        tokens text.toList = [['-']] ∨ Grammatical (items text.toList)) ∧
      (∀ other : String, (tokens other.toList).Perm (tokens text.toList) →
        (parse other).toOption = (parse text).toOption) ∧
      ∀ other : String, Spaced text.toList other.toList →
        (parse other).toOption = (parse text).toOption := by
  refine ⟨fun tag => parseChars_eq_ok, ⟨?_, ?_⟩, fun other h => ?_, fun other h => ?_⟩
  · rintro ⟨tag, h⟩
    cases parseChars_eq_ok.1 h with
    | ignored alone => exact .inl (alone_iff.1 alone)
    | mapped grammar => exact .inr grammar
  · rintro (hAlone | hGrammar)
    · exact ⟨.ignored, parseChars_eq_ok.2 (.ignored (alone_iff.2 hAlone))⟩
    · obtain ⟨slots, -, hCollected⟩ := hGrammar.collected
      exact ⟨.mapped slots.combined, parseChars_eq_ok.2 (.mapped hGrammar hCollected.holds.combined)⟩
  · exact toOption_parse_perm (h.map Item.ofToken)
  · exact toOption_parse_perm (.of_eq h.items_eq)

theorem title_tag_reads_alike :
    (tokens "unique;name=title".toList).Perm (tokens "name=title;unique".toList) ∧
      Spaced "name=title;unique".toList "name=  title;unique".toList ∧
      parse "name=title;unique" = .ok (.mapped ⟨some "title", none, none, true, false, false⟩) ∧
      (parse "unique;name=title").toOption = (parse "name=title;unique").toOption ∧
      (parse "name=  title;unique").toOption = (parse "name=title;unique").toOption := by
  have hPerm : (tokens "unique;name=title".toList).Perm (tokens "name=title;unique".toList) := by decide
  have hLeft : Text.split ';' "name=".toList = [] ++ ["name=".toList] := by decide
  have hRight : Text.split ';' "title;unique".toList = "title".toList :: ["unique".toList] := by decide
  have hPlace : Loose "name=".toList "title".toList :=
    .afterSign (by decide : _ = "name".toList ++ '=' :: []) (by decide) (by decide)
  have hSpaced : Spaced "name=title;unique".toList "name=  title;unique".toList :=
    .more .same hLeft hRight hPlace (by decide : Text.Blanks "  ".toList)
  obtain ⟨-, -, hOrder, hBlanks⟩ := tag_follows_grammar "name=title;unique"
  exact ⟨hPerm, hSpaced, by decide, hOrder _ hPerm, hBlanks _ hSpaced⟩

end Tag

end GraphMapping

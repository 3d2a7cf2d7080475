import GraphMapping.Proofs.Results
import GraphMapping.Settings.File

/-!
# What a settings file says

A setting is a member of one of two sections, and what a document says of it is looked up by these two
names.  Main statement: in the settings of a document, every setting is what its member means, and it is
at its default where the document has no such member.
-/

namespace GraphMapping

open Yaml (Node Document)

/-- The settings. -/
inductive Setting where
  | uri
  | user
  | password
  | databases
  | maxConnections
  | primaryKey
  | schemaPolicy
  | defaultDepth
  | timeout
deriving DecidableEq, Repr

namespace Setting

/-- What a setting is set to, in a file or by a variable. -/
abbrev Value : Setting → Type
  | .uri | .user | .password | .primaryKey => String
  | .databases => List String
  | .maxConnections | .defaultDepth | .timeout => Nat
  | .schemaPolicy => SchemaPolicy

/-- The name of the section that has a setting. -/
def part : Setting → String
  | .uri | .user | .password | .databases | .maxConnections => "neo4j"
  | .primaryKey | .schemaPolicy | .defaultDepth | .timeout => "mapping"

/-- The name of a setting in its section. -/
def member : Setting → String
  | .uri => "uri"
  | .user => "user"
  | .password => "password"
  | .databases => "databases"
  | .maxConnections => "max_connections"
  | .primaryKey => "primary_key"
  | .schemaPolicy => "index_strategy"
  | .defaultDepth => "default_depth"
  | .timeout => "query_timeout_secs"

theorem member_inj {s t : Setting} (h : s.member = t.member) : s = t := by
  revert h
  cases s <;> cases t <;> decide

/-- All settings. -/
def all : List Setting :=
  [.uri, .user, .password, .databases, .maxConnections, .primaryKey, .schemaPolicy, .defaultDepth, .timeout]

theorem mem_all (s : Setting) : s ∈ all := by
  cases s <;> decide

instance {p : Setting → Prop} [DecidablePred p] : Decidable (∀ s, p s) :=
  decidable_of_iff (∀ s ∈ all, p s) ⟨fun h s => h s s.mem_all, fun h s _ => h s⟩

instance (s : Setting) : DecidableEq s.Value :=
  match s with
  | .uri | .user | .password | .primaryKey => inferInstanceAs (DecidableEq String)
  | .databases => inferInstanceAs (DecidableEq (List String))
  | .maxConnections | .defaultDepth | .timeout => inferInstanceAs (DecidableEq Nat)
  | .schemaPolicy => inferInstanceAs (DecidableEq SchemaPolicy)

end Setting

/-- What a setting is in a file that is complete with defaults. -/
def FileSettings.value (file : FileSettings) : (s : Setting) → s.Value
  | .uri => file.uri
  | .user => file.user
  | .password => file.password
  | .databases => file.databases
  | .maxConnections => file.maxConnections
  | .primaryKey => file.primaryKey
  | .schemaPolicy => file.schemaPolicy
  | .defaultDepth => file.defaultDepth
  | .timeout => file.timeoutSeconds

/-- A file with one setting set. -/
def FileSettings.set (file : FileSettings) : (s : Setting) → s.Value → FileSettings
  | .uri, uri => { file with uri }
  | .user, user => { file with user }
  | .password, password => { file with password }
  | .databases, databases => { file with databases }
  | .maxConnections, maxConnections => { file with maxConnections }
  | .primaryKey, primaryKey => { file with primaryKey }
  | .schemaPolicy, schemaPolicy => { file with schemaPolicy }
  | .defaultDepth, defaultDepth => { file with defaultDepth }
  | .timeout, timeoutSeconds => { file with timeoutSeconds }

theorem FileSettings.value_set_self (file : FileSettings) (s : Setting) (v : s.Value) :
    (file.set s v).value s = v := by
  cases s <;> rfl

theorem FileSettings.value_set_of_ne (file : FileSettings) {s t : Setting} (v : s.Value) (h : t ≠ s) :
    (file.set s v).value t = file.value t := by
  cases s <;> cases t <;> simp_all [set, value]

/-! ## Looking up what a document says -/

namespace Yaml.Node

/-- The text of a scalar. -/
def text? (node root : Node) : Option String :=
  match node.resolve root with
  | .scalar _ _ text => some text
  | _ => none

/-- The texts of a list; nothing stands for no texts. -/
def texts? (node root : Node) : Option (List String) :=
  match node.resolve root with
  | .list _ items => items.mapM (·.text? root)
  | node => if node.isEmpty then some [] else none

/-- The policy that a scalar names, by its tag if it has one. -/
def policy? (node root : Node) : Option SchemaPolicy :=
  match node.resolve root with
  | .scalar label style text =>
      match FileSettings.tagName? label with
      | some tag =>
          if style = .plain ∧ Meaning.isNothing text then SchemaPolicy.ofExactName? tag else none
      | none => SchemaPolicy.ofExactName? text
  | _ => none

/-- The first of the entries with a name. -/
def named? (root : Node) (name : String) (entries : List (Node × Node)) : Option Node :=
  (entries.find? fun e => e.1.text? root == some name).map Prod.snd

/-- The member of a node with a name. -/
def member? (node root : Node) (name : String) : Option Node :=
  match node.resolve root with
  | .members _ entries => named? root name entries
  | _ => none

theorem named?_cons {root key node : Node} {name text : String} {rest : List (Node × Node)}
    (h : key.text? root = some text) :
    named? root name ((key, node) :: rest) =
      if text = name then some node else named? root name rest := by
  by_cases hName : text = name <;> simp [named?, h, hName]

end Yaml.Node

/-- What a node means for a setting, if it is of the right kind. -/
def Setting.meaning? (root node : Node) : (s : Setting) → Option s.Value
  | .uri | .user | .password | .primaryKey => node.text? root
  | .databases => node.texts? root
  | .maxConnections | .defaultDepth | .timeout => (node.resolve root).natural?
  | .schemaPolicy => node.policy? root

namespace Yaml.Document

/-- The member of a document for a setting. -/
def member? (d : Document) (s : Setting) : Option Node :=
  (d.root.member? d.root s.part).bind fun node => node.member? d.root s.member

/-- What a document sets a setting to, if it does. -/
def value? (d : Document) (s : Setting) : Option s.Value :=
  (d.member? s).bind fun node => s.meaning? d.root node

end Yaml.Document

/-! ## Nodes that are of the right kind -/

namespace FileSettings

variable {root node : Node} {path : SettingPath}

theorem wrongKind_ne_ok {α : Type} {expected : String} {a : α} :
    wrongKind path expected node ≠ .ok a := by
  intro h
  cases node <;> cases h

/-- Only an empty node leaves a value at what it is without the node. -/
theorem empty_of_ok {α : Type} {expected : String} {a b : α}
    (h : (if node.isEmpty then .ok a else wrongKind path expected node) = .ok b) :
    node.isEmpty = true ∧ a = b := by
  split at h
  · next hEmpty => exact ⟨hEmpty, Except.ok.inj h⟩
  · exact absurd h wrongKind_ne_ok

theorem readText_eq_ok {t : String} (h : readText root path node = .ok t) : node.text? root = some t := by
  unfold readText at h
  unfold Node.text?
  generalize node.resolve root = resolved at h ⊢
  cases resolved with
  | scalar label style text => exact congrArg some (Except.ok.inj h)
  | list | members | reference | fault => exact absurd h wrongKind_ne_ok

theorem readNumber_eq_ok {kind : String} {n : Nat} (h : readNumber kind root path node = .ok n) :
    (node.resolve root).natural? = some n := by
  unfold readNumber at h
  dsimp only at h
  split at h
  · next hNumber => exact hNumber.trans (congrArg some (Except.ok.inj h))
  · exact absurd h wrongKind_ne_ok

theorem readItems_eq_ok {items : List Node} {position : Nat} {ts : List String}
    (h : readItems root path position items = .ok ts) : items.mapM (·.text? root) = some ts := by
  induction items generalizing position ts with
  | nil =>
      cases h
      rfl
  | cons node rest ih =>
      obtain ⟨t, ht, h⟩ := bind_eq_ok.1 h
      obtain ⟨more, hMore, h⟩ := bind_eq_ok.1 h
      cases h
      rw [List.mapM_cons, readText_eq_ok ht, ih hMore]
      rfl

theorem readTexts_eq_ok {ts : List String} (h : readTexts root path node = .ok ts) :
    node.texts? root = some ts := by
  unfold readTexts at h
  unfold Node.texts?
  generalize node.resolve root = resolved at h ⊢
  cases resolved with
  | list label items => exact readItems_eq_ok h
  | scalar | members | reference | fault =>
      obtain ⟨hEmpty, rfl⟩ := empty_of_ok h
      exact if_pos hEmpty

theorem policyOf_eq_ok {place : Yaml.Position} {name : String} {p : SchemaPolicy}
    (h : policyOf path place name = .ok p) : SchemaPolicy.ofExactName? name = some p := by
  unfold policyOf at h
  split at h
  · next hName => exact hName.trans (congrArg some (Except.ok.inj h))
  · cases h

/-- Nothing but a scalar that stands for nothing may follow a tag. -/
theorem taggedPolicy_eq_ok {section_ : SettingPath × Yaml.Position} {tag : String} {p : SchemaPolicy}
    (h : taggedPolicy path section_ tag node = .ok p) :
    SchemaPolicy.ofExactName? tag = some p ∧
      ∃ label text, node = .scalar label .plain text ∧ Yaml.Meaning.isNothing text = true := by
  obtain ⟨q, hq, h⟩ := bind_eq_ok.1 h
  split at h
  · split at h
    · next hNothing =>
        cases h
        exact ⟨policyOf_eq_ok hq, _, _, rfl, hNothing⟩
    · cases h
  · exact absurd h wrongKind_ne_ok

theorem readPolicy_eq_ok {section_ : SettingPath × Yaml.Position} {p : SchemaPolicy}
    (h : readPolicy section_ root path node = .ok p) : node.policy? root = some p := by
  unfold readPolicy at h
  unfold Node.policy?
  generalize node.resolve root = resolved at h ⊢
  cases resolved with
  | scalar label style text =>
      dsimp only at h ⊢
      generalize tagName? label = tag? at h ⊢
      cases tag? with
      | none => exact policyOf_eq_ok h
      | some tag =>
          obtain ⟨hName, _, _, hNode, hNothing⟩ := taggedPolicy_eq_ok h
          cases hNode
          exact (if_pos ⟨rfl, hNothing⟩).trans hName
  | list label | members label =>
      dsimp only at h
      cases hTag : tagName? label with
      | none =>
          rw [hTag] at h
          exact absurd h wrongKind_ne_ok
      | some tag =>
          rw [hTag] at h
          obtain ⟨-, _, _, hNode, -⟩ := taggedPolicy_eq_ok h
          cases hNode
  | reference | fault => exact absurd h wrongKind_ne_ok

/-! ## Members that are taken up -/

/-- How a section takes up its members. -/
abbrev Change :=
  SettingPath × Yaml.Position → Node → SettingPath → FileSettings → Node →
    Except SettingsFault FileSettings

/-- A change sets one setting, to what the node means for it. -/
def Sets (change : Change) (s : Setting) : Prop :=
  ∀ section_ root path file node file', change section_ root path file node = .ok file' →
    ∃ v, s.meaning? root node = some v ∧ file' = file.set s v

/-- A change sets a setting if it reads what the node means. -/
theorem sets_of_read (s : Setting)
    {read : SettingPath × Yaml.Position → Node → SettingPath → Node → Except SettingsFault s.Value}
    (hRead : ∀ {section_ root path node v}, read section_ root path node = .ok v →
      s.meaning? root node = some v) :
    Sets (fun section_ root path file node => do return file.set s (← read section_ root path node)) s := by
  intro section_ root path file node file' h
  obtain ⟨v, hv, h⟩ := bind_eq_ok.1 h
  cases h
  exact ⟨v, hRead hv, rfl⟩

/-- The members of a section are the settings in it. -/
structure Holds (members : Members) (part : String) : Prop where
  known : ∀ {s : Setting}, s.part = part → (members s.member).isSome
  sets : ∀ {name change}, members name = some change →
    ∃ s : Setting, s.part = part ∧ s.member = name ∧ Sets change s

theorem connectionMembers_holds : Holds connectionMembers "neo4j" where
  known {s} hPart := by
    cases s
    case uri | user | password | databases | maxConnections => rfl
    all_goals simp [Setting.part] at hPart
  sets {name change} h := by
    unfold connectionMembers at h
    split at h <;> cases h
    · exact ⟨.uri, rfl, rfl, sets_of_read .uri readText_eq_ok⟩
    · exact ⟨.user, rfl, rfl, sets_of_read .user readText_eq_ok⟩
    · exact ⟨.password, rfl, rfl, sets_of_read .password readText_eq_ok⟩
    · exact ⟨.databases, rfl, rfl, sets_of_read .databases readTexts_eq_ok⟩
    · exact ⟨.maxConnections, rfl, rfl, sets_of_read .maxConnections readNumber_eq_ok⟩

theorem mappingMembers_holds : Holds mappingMembers "mapping" where
  known {s} hPart := by
    cases s
    case primaryKey | schemaPolicy | defaultDepth | timeout => rfl
    all_goals simp [Setting.part] at hPart
  sets {name change} h := by
    unfold mappingMembers at h
    split at h <;> cases h
    · exact ⟨.primaryKey, rfl, rfl, sets_of_read .primaryKey readText_eq_ok⟩
    · exact ⟨.schemaPolicy, rfl, rfl, sets_of_read .schemaPolicy readPolicy_eq_ok⟩
    · exact ⟨.defaultDepth, rfl, rfl, sets_of_read .defaultDepth readNumber_eq_ok⟩
    · exact ⟨.timeout, rfl, rfl, sets_of_read .timeout readNumber_eq_ok⟩

theorem sections_cases {part : String} {change : Change} (h : sections part = some change) :
    ∃ members kind, (change = fun _ root => readSection members kind root) ∧ Holds members part := by
  unfold sections at h
  split at h <;> cases h
  · exact ⟨_, _, rfl, connectionMembers_holds⟩
  · exact ⟨_, _, rfl, mappingMembers_holds⟩

/-! ## Sections that are taken up -/

variable {β : Type} {members : Members} {name : String} {view : FileSettings → β}
  {gives : Node → β → Option β} {entries : List (Node × Node)} {place : Yaml.Position}
  {seen : List String} {file file' : FileSettings}

/-- A part of the settings belongs to the members with a name: such a member gives it what it then is, and
no other member has a bearing on it. -/
structure Owns (members : Members) (name : String) (root : Node) (view : FileSettings → β)
    (gives : Node → β → Option β) : Prop where
  known : (members name).isSome
  named : ∀ {change}, members name = some change → ∀ section_ path file node file',
    change section_ root path file node = .ok file' → gives node (view file) = some (view file')
  others : ∀ {other change}, other ≠ name → members other = some change →
    ∀ section_ path file node file', change section_ root path file node = .ok file' →
      view file' = view file

theorem readName_eq_ok {key : Node} {inner : SettingPath} (h : readName root path key = .ok (name, inner)) :
    key.text? root = some name := by
  unfold readName at h
  unfold Node.text?
  generalize key.resolve root = resolved at h ⊢
  cases resolved with
  | scalar label style text => cases key <;> cases h <;> rfl
  | list | members | reference | fault => exact absurd h wrongKind_ne_ok

/-- What entries come to: none is left, or the first is of no interest or known and new. -/
theorem readEntries_cons {key : Node} (h : readEntries members root path place seen file
      ((key, node) :: entries) = .ok file') :
    ∃ name inner, key.text? root = some name ∧
      (members name = none ∧ readEntries members root path place seen file entries = .ok file' ∨
        ∃ change between, members name = some change ∧ name ∉ seen ∧
          change (path, place) root inner file node = .ok between ∧
          readEntries members root path place (name :: seen) between entries = .ok file') := by
  obtain ⟨⟨name, inner⟩, hName, h⟩ := bind_eq_ok.1 h
  refine ⟨name, inner, readName_eq_ok hName, ?_⟩
  dsimp only at h
  split at h
  · next hUnknown =>
      split at h
      · cases h
      · exact .inl ⟨hUnknown, h⟩
  · next change hKnown =>
      split at h
      · cases h
      · next hNew =>
          obtain ⟨between, hChange, h⟩ := bind_eq_ok.1 h
          exact .inr ⟨change, between, hKnown, by simpa using hNew, hChange, h⟩

/-- Entries have no bearing on what none of the members that may still come has one on. -/
theorem readEntries_kept (view : FileSettings → β)
    (hKeep : ∀ name ∉ seen, ∀ change, members name = some change →
      ∀ section_ path file node file', change section_ root path file node = .ok file' →
        view file' = view file)
    (h : readEntries members root path place seen file entries = .ok file') : view file' = view file := by
  induction entries generalizing seen file with
  | nil =>
      cases h
      rfl
  | cons entry rest ih =>
      obtain ⟨name, inner, -, hStep⟩ := readEntries_cons h
      rcases hStep with ⟨-, h⟩ | ⟨change, between, hKnown, hNew, hChange, h⟩
      · exact ih hKeep h
      · have hLater := ih (fun other hOther => hKeep other fun hMem => hOther (List.mem_cons_of_mem _ hMem)) h
        exact hLater.trans (hKeep name hNew change hKnown _ _ _ _ _ hChange)

theorem readEntries_view (hOwns : Owns members name root view gives) (hNew : name ∉ seen)
    (h : readEntries members root path place seen file entries = .ok file') :
    (Node.named? root name entries).elim (some (view file)) (gives · (view file)) = some (view file') := by
  induction entries generalizing seen file with
  | nil =>
      cases h
      rfl
  | cons entry rest ih =>
      obtain ⟨other, inner, hKey, hStep⟩ := readEntries_cons h
      rw [Node.named?_cons hKey]
      rcases hStep with ⟨hUnknown, h⟩ | ⟨change, between, hKnown, -, hChange, h⟩
      · have hOther : other ≠ name := by
          rintro rfl
          exact absurd hOwns.known (by simp [hUnknown])
        rw [if_neg hOther]
        exact ih hNew h
      · by_cases hSame : other = name
        · -- The entry is the one that counts, since the name is seen from here on.
          subst hSame
          have hLater : view file' = view between := by
            refine readEntries_kept view (fun later hLater change hKnown => ?_) h
            exact hOwns.others (fun hSame => hLater (hSame ▸ List.mem_cons_self)) hKnown
          rw [if_pos rfl, hLater]
          exact hOwns.named hKnown _ _ _ _ _ hChange
        · rw [if_neg hSame, ← hOwns.others hSame hKnown _ _ _ _ _ hChange]
          exact ih (fun hMem => (List.mem_cons.1 hMem).elim (fun h => hSame h.symm) hNew) h

/-- A part of the settings after a section is what the member of the section gives it. -/
theorem readSection_view {kind : String} (hOwns : Owns members name root view gives)
    (h : readSection members kind root path file node = .ok file') :
    (node.member? root name).elim (some (view file)) (gives · (view file)) = some (view file') := by
  unfold readSection at h
  unfold Node.member?
  generalize node.resolve root = resolved at h ⊢
  cases resolved with
  | members label entries => exact readEntries_view hOwns List.not_mem_nil h
  | scalar | list | reference | fault => exact congrArg (some <| view ·) (empty_of_ok h).2

/-- A section has no bearing on the settings of the other one. -/
theorem Holds.leaves {part kind : String} {s : Setting} (hHolds : Holds members part) (hPart : s.part ≠ part)
    (h : readSection members kind root path file node = .ok file') : file'.value s = file.value s := by
  unfold readSection at h
  split at h
  · refine readEntries_kept (·.value s) (fun name _ change hKnown => ?_) h
    intro section_ path file node file' hChange
    obtain ⟨t, hOther, -, hSets⟩ := hHolds.sets hKnown
    obtain ⟨v, -, rfl⟩ := hSets _ _ _ _ _ _ hChange
    exact file.value_set_of_ne v fun hSame => hPart (hSame ▸ hOther)
  · rw [(empty_of_ok h).2]

/-- A setting belongs to the members with its name, within its section. -/
theorem Holds.owns {s : Setting} (hHolds : Holds members s.part) :
    Owns members s.member root (·.value s) fun node _ => s.meaning? root node where
  known := hHolds.known rfl
  named hKnown section_ path file node file' hChange := by
    obtain ⟨t, -, hMember, hSets⟩ := hHolds.sets hKnown
    cases Setting.member_inj hMember
    obtain ⟨v, hMeaning, rfl⟩ := hSets _ _ _ _ _ _ hChange
    rw [hMeaning, file.value_set_self]
  others hOther hKnown section_ path file node file' hChange := by
    obtain ⟨t, -, hMember, hSets⟩ := hHolds.sets hKnown
    obtain ⟨v, -, rfl⟩ := hSets _ _ _ _ _ _ hChange
    refine file.value_set_of_ne v ?_
    rintro rfl
    exact hOther hMember.symm

/-- A setting belongs to its section, which gives it what its member means. -/
theorem sections_owns (s : Setting) :
    Owns sections s.part root (·.value s) fun node v =>
      (node.member? root s.member).elim (some v) fun inner => s.meaning? root inner where
  known := by cases s <;> rfl
  named hKnown section_ path file node file' hChange := by
    obtain ⟨members, kind, rfl, hHolds⟩ := sections_cases hKnown
    exact readSection_view hHolds.owns hChange
  others hOther hKnown section_ path file node file' hChange := by
    obtain ⟨members, kind, rfl, hHolds⟩ := sections_cases hKnown
    exact hHolds.leaves hOther.symm hChange

/-- The member of a document for a setting means something, and this is what the setting is; without the
member it is at its default. -/
theorem ofDocument_value {d : Document} (h : ofDocument d = .ok file) (s : Setting) :
    (d.member? s).elim (some (standard.value s)) (fun node => s.meaning? d.root node) =
      some (file.value s) := by
  obtain ⟨taken, hTaken, h⟩ := bind_eq_ok.1 h
  have hSame : taken = file := by
    split at h
    · cases h
    · exact Except.ok.inj h
  subst hSame
  have hView := readSection_view (sections_owns s) hTaken
  unfold Document.member?
  cases hPart : d.root.member? d.root s.part with
  | none =>
      rw [hPart] at hView
      exact hView
  | some node =>
      rw [hPart] at hView
      exact hView

/-- Every setting is what the document sets it to, or at its default. -/
theorem value_eq_getD {d : Document} (h : ofDocument d = .ok file) (s : Setting) :
    file.value s = (d.value? s).getD (standard.value s) := by
  have hMember := ofDocument_value h s
  unfold Document.value?
  cases hFound : d.member? s with
  | none =>
      rw [hFound] at hMember
      exact (Option.some.inj hMember).symm
  | some node =>
      rw [hFound] at hMember
      change s.meaning? d.root node = some (file.value s) at hMember
      rw [Option.bind_some, hMember, Option.getD_some]

end FileSettings

end GraphMapping

import GraphMapping.Proofs.Mapping.Registered
import GraphMapping.Proofs.Schema.Sites

/-!
# Asserting the declared schema

Whatever a database holds, asserting the schema of a registry leaves it with exactly the declared items and
the lookup indexes that it had.  Over several databases this is so for each, or for those before the first at
which a call fails.
-/

namespace GraphMapping

open GraphMapping.Action

/-- The names under which fields are stored can be quoted. -/
def Registry.Readable (registry : Registry) : Prop :=
  ∀ d ∈ registry.types, ∀ f ∈ d.fields, f.isStored = true → ControlFree f.storage

/-- Asserting leaves the declared items and the lookup indexes. -/
structure Store.Asserted (registry : Registry) (d d' : Store) : Prop where
  holds : d'.committed.Holds (SchemaItem.expected registry)
  lookups : d'.committed.lookups = d.committed.lookups

/-- The listing of a database shows what is declared and nothing else. -/
structure LiveSchema.Shows (schema : LiveSchema) (registry : Registry) : Prop where
  managed : schema.managed = SchemaItem.expected registry
  declared : ∀ live ∈ schema.items, ∃ item ∈ SchemaItem.expected registry, live.item = some item

section

variable {registry : Registry} {strategy : KeyStrategy} {decls : List TypeDecl} {d : TypeDescriptor}
  {item : SchemaItem} {native : Bool}

/-! ## Declared items -/

namespace SchemaItem

/-- A declared item belongs to a type, and its properties to fields that are marked for it. -/
theorem ofType_spec (h : item ∈ ofType native d) : item.Proper ∧ item.label = d.label ∧
    ∀ name ∈ item.properties, ∃ f ∈ d.fields, (f.isKey || f.unique || f.indexed) = true ∧
      f.storage = name := by
  unfold ofType at h
  split at h
  · cases h
  · rcases List.mem_append.1 h with h | h
    · obtain ⟨f, hf, rfl⟩ := List.mem_map.1 h
      obtain ⟨hf, hMark⟩ := List.mem_filter.1 hf
      refine ⟨⟨List.cons_ne_nil _ _, fun _ => ⟨_, rfl⟩⟩, rfl, ?_⟩
      intro name hName
      refine ⟨f, hf, ?_, (List.mem_singleton.1 hName).symm⟩
      cases hKey : f.isKey with
      | true => rfl
      | false =>
          simp only [hKey, Bool.false_eq_true, if_false] at hMark
          simp [hMark]
    · split at h
      · cases h
      · rename_i hSome
        cases List.mem_singleton.1 h
        refine ⟨⟨?_, fun hKind => (by cases hKind)⟩, rfl, ?_⟩
        · intro hNone
          exact hSome (List.isEmpty_iff.2 (List.map_eq_nil_iff.1 hNone))
        · intro name hName
          obtain ⟨f, hf, rfl⟩ := List.mem_map.1 hName
          obtain ⟨hf, hMark⟩ := List.mem_filter.1 hf
          refine ⟨f, hf, ?_, rfl⟩
          rw [(Bool.and_eq_true_iff.1 hMark).1, Bool.or_true]

theorem expected_proper (h : item ∈ expected registry) : item.Proper := by
  obtain ⟨d, -, hItem⟩ := List.mem_flatMap.1 (mem_sorted.1 h)
  exact (ofType_spec hItem).1

theorem expected_readable (hDecls : Registry.ofDecls strategy decls = .ok registry)
    (hNames : registry.Readable) (h : item ∈ expected registry) : item.Readable := by
  obtain ⟨d, hd, hItem⟩ := List.mem_flatMap.1 (mem_sorted.1 h)
  obtain ⟨-, hLabel, hProperties⟩ := ofType_spec hItem
  obtain ⟨-, -, hEach⟩ := Registry.ofDecls_cases hDecls
  obtain ⟨decl, -, hDeclared⟩ := (exists_of_forall₂ hEach).2 d hd
  constructor
  · rw [hLabel]
    exact controlFree_of_isPlain (ofDecl_label hDeclared)
  · intro name hName
    obtain ⟨f, hf, hMark, rfl⟩ := hProperties name hName
    exact hNames d hd f hf (marked_stored hDeclared hf hMark)

theorem expected_nodup : (expected registry).Nodup := by
  refine (sorted_ascending _).imp ?_
  rintro a b hLess rfl
  exact lt_irrefl _ hLess

end SchemaItem

end

/-! ## One database -/

namespace Store

variable {registry : Registry} {strategy : KeyStrategy} {decls : List TypeDecl} {d d' u : Store}
  {faults : Faults} {h : Habits} {schema : LiveSchema}

theorem Asserted.trans (hFirst : Asserted registry d d') (hThen : Asserted registry d' u) :
    Asserted registry d u :=
  ⟨hThen.holds, hThen.lookups.trans hFirst.lookups⟩

theorem shows_of_lists (hHolds : d.committed.Holds (SchemaItem.expected registry))
    (hLists : d.committed.Lists schema) : schema.Shows registry where
  managed := hHolds.managed (fun _ => SchemaItem.expected_proper) (SchemaItem.sorted_ascending _) hLists
  declared := (hHolds.item_listed (fun _ => SchemaItem.expected_proper) hLists).1

/-- What is declared passes the check. -/
theorem tries_verify (hHolds : d.committed.Holds (SchemaItem.expected registry)) :
    Tries faults (Schema.verify registry (server h faults)) d
      (fun _ d' => d'.committed = d.committed ∧ d'.committed.Holds (SchemaItem.expected registry))
      Undone := by
  unfold Schema.verify
  refine tries_bind tries_live ?_
  rintro schema d' ⟨hSame, hLists⟩
  have hCompare : Schema.compare (SchemaItem.expected registry) schema.managed = .ok () := by
    rw [(shows_of_lists hHolds hLists).managed]
    simp [Schema.compare]
  refine tries_ofExcept hCompare ⟨hSame, ?_⟩
  rwa [hSame]

/-- Everything is dropped, what is declared is created, and it passes the check. -/
theorem tries_assert (hDecls : Registry.ofDecls strategy decls = .ok registry)
    (hNames : registry.Readable) (hReadable : d.committed.Readable) :
    Tries faults (SchemaPolicy.assert.applyTo registry (server h faults)) d
      (fun _ d' => Asserted registry d d' ∧ d'.committed.Readable) Undone := by
  have hRead : ∀ item ∈ SchemaItem.expected registry,
      Change.read item.creation.text.toList = some (.create item) := fun item hItem =>
    Change.read_creation (SchemaItem.expected_readable hDecls hNames hItem)
      (SchemaItem.expected_proper hItem).some_property
  unfold SchemaPolicy.applyTo Schema.create
  refine tries_bind (tries_dropAll hReadable) ?_
  intro _ d₁ hBare
  refine tries_bind (tries_runAll hRead) ?_
  intro _ d₂ hCreated
  rw [hBare] at hCreated
  obtain ⟨hHolds, hLookups⟩ := @Catalog.bare_createAll d.committed h _ (@SchemaItem.expected_nodup registry)
  rw [← hCreated] at hHolds hLookups
  refine (tries_verify hHolds).imp ?_ fun _ hUndone => hUndone
  rintro _ d₃ ⟨hSame, hHolds'⟩
  refine ⟨⟨hHolds', ?_⟩, ?_⟩
  · rw [hSame, hLookups]
  · rw [hSame, hCreated]
    exact Catalog.bare_readable.createAll

/-- Where no call fails there is a result. -/
theorem Tries.result {α : Type} {x : Action Store α} {P : α → Store → Prop} {Q : Store → Prop}
    (hTries : Tries faults x d P Q) (hNone : ∀ n, faults n = none) : ∃ a d', x d = (.ok a, d') ∧ P a d' := by
  rcases hTries with ⟨a, d', hRun, -, hP⟩ | ⟨e, -, -, ⟨n, -, -, hFault, -⟩, -⟩
  · exact ⟨a, d', hRun, hP⟩
  · rw [hNone n] at hFault
    cases hFault

end Store

/-! ## All databases -/

namespace Site

variable {ι : Type} [DecidableEq ι] {sites : ι → Site} {registry : Registry} {strategy : KeyStrategy}
  {decls : List TypeDecl} {ks : List ι} {w : ι → Store}

variable (sites) in
theorem assert_run (hDecls : Registry.ofDecls strategy decls = .ok registry) (hNames : registry.Readable)
    (hReadable : ∀ k ∈ ks, (w k).committed.Readable) :
    (∃ w', SchemaPolicy.assert.apply registry (ks.map (target sites)) w = (.ok (), w') ∧
      Passed sites (Store.Asserted registry) ks w w') ∨
    ∃ e w' done k rest u, SchemaPolicy.assert.apply registry (ks.map (target sites)) w = (.error e, w') ∧
      Stopped sites (Store.Asserted registry) ks w w' e done k rest u := by
  have hTrans : ∀ d d' d'', Store.Asserted registry d d' → Store.Asserted registry d' d'' →
      Store.Asserted registry d d'' := fun _ _ _ => Store.Asserted.trans
  exact passed_run hTrans (fun _ _ hHere => Store.tries_assert hDecls hNames hHere) .nil hReadable

theorem validate_run (hHolds : ∀ k ∈ ks, (w k).committed.Holds (SchemaItem.expected registry)) :
    (∃ w', SchemaPolicy.validate.apply registry (ks.map (target sites)) w = (.ok (), w') ∧
      Passed sites (fun d d' => d'.committed = d.committed) ks w w') ∨
    ∃ e w' done k rest u, SchemaPolicy.validate.apply registry (ks.map (target sites)) w = (.error e, w') ∧
      Stopped sites (fun d d' => d'.committed = d.committed) ks w w' e done k rest u := by
  have hTrans : ∀ d d' d'' : Store, d'.committed = d.committed → d''.committed = d'.committed →
      d''.committed = d.committed := fun _ _ _ hFirst hThen => hThen.trans hFirst
  exact passed_run hTrans (fun _ _ hHere => Store.tries_verify hHere) .nil hHolds

theorem listing_shows {k : ι} (hNone : ∀ n, (sites k).faults n = none)
    (hHolds : (w k).committed.Holds (SchemaItem.expected registry)) :
    ∃ schema u, (Schema.live (target sites k).server).Returns w schema u ∧ schema.Shows registry := by
  obtain ⟨schema, d, hLive, -, hLists⟩ := Store.Tries.result Store.tries_live hNone
  exact ⟨schema, _, live_target hLive, Store.shows_of_lists hHolds hLists⟩

/-- Asserting the schema of a registry at all sites succeeds if no call fails.  Then each holds what is
declared and the lookup indexes that it had, its listing shows that, and all pass the check.  If a call fails,
the work is done at the sites before, the transaction that failed is undone, and the sites behind are left as
they are. -/
theorem assert_converges (hDecls : Registry.ofDecls strategy decls = .ok registry)
    (hNames : registry.Readable) (hReadable : ∀ k ∈ ks, (w k).committed.Readable) :
    ((∀ k ∈ ks, ∀ n, (sites k).faults n = none) → ∃ w',
      (SchemaPolicy.assert.apply registry (ks.map (target sites))).Returns w () w' ∧
      Passed sites (Store.Asserted registry) ks w w' ∧
      (∀ k ∈ ks, ∃ schema u, (Schema.live (target sites k).server).Returns w' schema u ∧
        schema.Shows registry) ∧
      ∃ u, (SchemaPolicy.validate.apply registry (ks.map (target sites))).Returns w' () u ∧
        ∀ k, (u k).committed = (w' k).committed) ∧
    ∀ reply w', SchemaPolicy.assert.apply registry (ks.map (target sites)) w = (reply, w') →
      (reply = .ok () ∧ Passed sites (Store.Asserted registry) ks w w') ∨
      ∃ e done k rest u, reply = .error e ∧
        Stopped sites (Store.Asserted registry) ks w w' e done k rest u := by
  have hRun := assert_run sites hDecls hNames hReadable
  constructor
  · intro hNone
    obtain ⟨w', hOk, hPassed⟩ := hRun.resolve_right fun ⟨_, _, _, _, _, _, _, hStopped⟩ =>
      hStopped.faulty hNone
    have hHolds : ∀ k ∈ ks, (w' k).committed.Holds (SchemaItem.expected registry) :=
      fun k hk => (hPassed.post k hk).holds
    obtain ⟨u, hValid, hKept⟩ := (validate_run hHolds).resolve_right fun ⟨_, _, _, _, _, _, _, hStopped⟩ =>
      hStopped.faulty hNone
    refine ⟨w', hOk, hPassed, fun k hk => listing_shows (hNone k hk) (hHolds k hk), u, hValid, fun k => ?_⟩
    by_cases hHere : k ∈ ks
    · exact hKept.post k hHere
    · rw [hKept.untouched k hHere]
  · intro reply w' hReply
    rcases hRun with ⟨u, hOk, hPassed⟩ | ⟨e, u, done, k, rest, v, hError, hStopped⟩
    · rw [hOk] at hReply
      cases hReply
      exact .inl ⟨rfl, hPassed⟩
    · rw [hError] at hReply
      cases hReply
      exact .inr ⟨e, done, k, rest, v, rfl, hStopped⟩

end Site

namespace Herbarium

/-- Plants have a code of their own and are looked up by genus and year. -/
def plant : TypeDecl :=
  ⟨"Plant", "Plant", none,
    [⟨"uuid", .scalar, "pk"⟩, ⟨"code", .scalar, "unique"⟩, ⟨"genus", .scalar, "index"⟩,
      ⟨"year", .scalar, "index"⟩]⟩

def strategy : KeyStrategy :=
  ⟨"seq", "uuid", .string, .generated fun n => .string ("k" ++ toString n)⟩

def registry : Registry where
  strategy := strategy
  types := [⟨"Plant", "Plant",
    [⟨"uuid", "uuid", .key false, false, false⟩, ⟨"code", "code", .scalar false, true, false⟩,
      ⟨"genus", "genus", .scalar false, false, true⟩, ⟨"year", "year", .scalar false, false, true⟩], none⟩]
  relationships := []

def declared : List SchemaItem :=
  [⟨.unique, "Plant", ["code"]⟩, ⟨.unique, "Plant", ["uuid"]⟩, ⟨.index, "Plant", ["genus", "year"]⟩]

/-- A name that is longer than all that are in use. -/
def freshName (c : Catalog) : String :=
  let names := String.join ((c.constraints ++ c.indexes).map (·.name))
  String.ofList (List.replicate (names.length + 1) 'i')

/-- New items get fresh names, and the latest is listed first. -/
def habits : Habits where
  name c _ := freshName c
  backing c _ := freshName c
  order := List.reverse
  name_controlFree c _ := by
    intro char hMem
    rw [freshName, String.toList_ofList] at hMem
    rw [List.eq_of_mem_replicate hMem]
    rfl
  order_perm := List.reverse_perm

def sites : Bool → Site := fun _ => ⟨none, habits, fun _ => none⟩

def tokens : StoredItem := ⟨"tokens", "LOOKUP", "NODE", [], [], none⟩

/-- One database has items from before, the other none. -/
def stored : Bool → Catalog
  | true => ⟨[⟨"old", "NODE_KEY", "NODE", ["Plant"], ["code", "year"], some "old"⟩],
      [⟨"stale", "RANGE", "NODE", ["Plant"], ["genus"], none⟩, tokens]⟩
  | false => ⟨[], []⟩

def stores (k : Bool) : Store := ⟨stored k, stored k, stored k, 0⟩

end Herbarium

theorem herbarium_asserted :
    Registry.ofDecls Herbarium.strategy [Herbarium.plant] = .ok Herbarium.registry ∧
    Herbarium.registry.Readable ∧ (∀ k ∈ [true, false], (Herbarium.stores k).committed.Readable) ∧
    ∃ w', (SchemaPolicy.assert.apply Herbarium.registry
        ([true, false].map (Site.target Herbarium.sites))).Returns Herbarium.stores () w' ∧
      (∀ k ∈ [true, false], (w' k).committed.Holds Herbarium.declared) ∧
      (w' true).committed.lookups = [Herbarium.tokens] := by
  have hDecls : Registry.ofDecls Herbarium.strategy [Herbarium.plant] = .ok Herbarium.registry := by
    rfl
  have hNames : Herbarium.registry.Readable := by
    show ∀ d ∈ Herbarium.registry.types, ∀ f ∈ d.fields, f.isStored = true → ControlFree f.storage
    decide
  have hReadable : ∀ k ∈ [true, false], (Herbarium.stores k).committed.Readable := by
    rintro (_ | _) - (_ | _) <;> decide
  have hExpected : SchemaItem.expected Herbarium.registry = Herbarium.declared := by
    decide
  have hNone : ∀ k ∈ [true, false], ∀ n, (Herbarium.sites k).faults n = none := fun _ _ _ => rfl
  obtain ⟨w', hRun, hPassed, -⟩ := (Site.assert_converges hDecls hNames hReadable).1 hNone
  refine ⟨hDecls, hNames, hReadable, w', hRun, fun k hk => ?_, ?_⟩
  · rw [← hExpected]
    exact (hPassed.post k hk).holds
  · rw [(hPassed.post true List.mem_cons_self).lookups]
    rfl

end GraphMapping

import GraphMapping.Proofs.Identifier
import GraphMapping.Proofs.Schema.Changes

/-!
# Statements name items

In the statement of an item every name is quoted, and what stands between the quotations begins with no
backtick.  So the text can be taken apart from the front in one way only, whatever the names look like, and
two items with the same statement are the same.
-/

namespace GraphMapping

namespace SchemaItem

variable {a b : SchemaItem} {names names' : List String}

/-- The words of a statement before the label, before the properties and after them. -/
def statementWords : SchemaKind → String × String × String
  | .unique => ("CREATE CONSTRAINT FOR (n:", ") REQUIRE ", " IS UNIQUE")
  | .index => ("CREATE INDEX FOR (n:", ") ON (", ")")

theorem statement_text (item : SchemaItem) :
    item.statement.toList = (statementWords item.kind).1.toList ++ ((Identifier.quote item.label).toList ++
      ((statementWords item.kind).2.1.toList ++ ((propertyList item.properties).toList ++
        (statementWords item.kind).2.2.toList))) := by
  obtain ⟨kind, label, properties⟩ := item
  cases kind <;> simp [statement, body, keyword, statementWords, String.toList_append]

/-- The first letter of the second word tells a constraint from an index. -/
theorem kind_of_statement (h : a.statement = b.statement) : a.kind = b.kind := by
  have hLetter := congrArg (fun text => text.toList[7]?) h
  simp only [statement_text] at hLetter
  cases hKind : a.kind <;> cases hKind' : b.kind <;> simp [hKind, hKind', statementWords] at hLetter ⊢

/-- A quoted label can be told from what follows it. -/
theorem quote_append_inj {label label' : String} {rest rest' : List Char} (hLabel : ControlFree label)
    (hLabel' : ControlFree label') (hRest : rest.head? ≠ some Identifier.tick)
    (hRest' : rest'.head? ≠ some Identifier.tick)
    (h : (Identifier.quote label).toList ++ rest = (Identifier.quote label').toList ++ rest') :
    label = label' ∧ rest = rest' := by
  have hRead := congrArg Identifier.read h
  rw [Change.read_quote hLabel hRest, Change.read_quote hLabel' hRest', Option.some.injEq,
    Prod.mk.injEq] at hRead
  exact hRead.imp_left String.toList_injective

theorem propertyList_eq_empty (h : (propertyList names).toList = []) : names = [] := by
  have hLength := Change.length_le_propertyList names
  rw [h] at hLength
  exact List.eq_nil_of_length_eq_zero (Nat.le_zero.1 hLength)

/-- A list of quoted properties can be taken apart into them. -/
theorem propertyList_inj (hNames : ∀ name ∈ names, ControlFree name)
    (hNames' : ∀ name ∈ names', ControlFree name)
    (h : (propertyList names).toList = (propertyList names').toList) : names = names' := by
  by_cases hSome : names = []
  · rw [hSome] at h ⊢
    exact (propertyList_eq_empty h.symm).symm
  by_cases hSome' : names' = []
  · rw [hSome'] at h
    exact absurd (propertyList_eq_empty h) hSome
  -- Both lists read back from the one text.
  have hReads : ∀ ms : List String, (∀ name ∈ ms, ControlFree name) → ms ≠ [] →
      ∀ bound, ms.length ≤ bound →
        Change.readProperties bound ((propertyList ms).toList ++ []) = some (ms, []) := by
    intro ms hFree hMs bound hBound
    exact Change.readProperties_propertyList hFree hMs (by simp) (by simp) hBound
  have hRead := hReads names hNames hSome _ (Nat.le_max_left _ names'.length)
  rw [h, hReads names' hNames' hSome' _ (Nat.le_max_right names.length _)] at hRead
  exact (Prod.mk.inj (Option.some.inj hRead)).1.symm

theorem eq_of_statement_eq (ha : a.Readable) (hb : b.Readable) (h : a.statement = b.statement) :
    a = b := by
  have hKind := kind_of_statement h
  have hText := congrArg String.toList h
  rw [statement_text, statement_text, hKind] at hText
  have hMiddle : ∀ rest, ((statementWords b.kind).2.1.toList ++ rest).head? ≠ some Identifier.tick := by
    intro rest
    cases b.kind <;> simp [statementWords, Identifier.tick]
  obtain ⟨hLabel, hRest⟩ := quote_append_inj ha.label hb.label (hMiddle _) (hMiddle _)
    (List.append_cancel_left hText)
  have hList := List.append_cancel_right (List.append_cancel_left hRest)
  have hProperties := propertyList_inj ha.properties hb.properties hList
  obtain ⟨kind, label, properties⟩ := a
  obtain ⟨kind', label', properties'⟩ := b
  cases hKind
  cases hLabel
  cases hProperties
  rfl

end SchemaItem

/-- A quotation begins and ends with a backtick, every backtick inside belongs to a pair, and with the pairs
undone it is the name without its control characters.  Whatever follows it, a reader takes the quotation as
one token: it ends the token at its end, or goes on after it if the next character is one more backtick, but
never ends it before.  So the statement of an item whose names have no control characters tells its kind, its
label and its properties. -/
theorem statements_name_items :
    (∀ name : String,
      (∃ inside, (Identifier.quote name).toList = Identifier.tick :: inside ++ [Identifier.tick] ∧
        Identifier.Paired inside ∧ Identifier.undouble inside = Identifier.visible name) ∧
      ∀ rest, Identifier.read ((Identifier.quote name).toList ++ rest) =
        Identifier.taken (Identifier.visible name) rest) ∧
    ∀ a b : SchemaItem, a.Readable → b.Readable → (a.statement = b.statement ↔ a = b) := by
  refine ⟨fun name => ⟨Identifier.quote_shape name, Identifier.read_quote_taken name⟩, ?_⟩
  intro a b ha hb
  exact ⟨SchemaItem.eq_of_statement_eq ha hb, congrArg SchemaItem.statement⟩

namespace Impostor

/-- An index on two properties. -/
def pair : SchemaItem := ⟨.index, "Movie", ["title", "year"]⟩

/-- An index on one property, the name of which imitates the text between the names of two. -/
def single : SchemaItem := ⟨.index, "Movie", ["title`, n.`year"]⟩

end Impostor

theorem impostor_named_apart :
    Impostor.pair.Readable ∧ Impostor.single.Readable ∧
      Impostor.single.statement ≠ Impostor.pair.statement := by
  have hPair : Impostor.pair.Readable := ⟨by decide, by decide⟩
  have hSingle : Impostor.single.Readable := ⟨by decide, by decide⟩
  refine ⟨hPair, hSingle, fun hSame => ?_⟩
  have hEq := (statements_name_items.2 _ _ hSingle hPair).1 hSame
  exact absurd hEq (by decide)

end GraphMapping

import GraphMapping.Proofs.Dict.Lookup
import GraphMapping.Proofs.Statement.Placeholders
import GraphMapping.Statement.Load

/-!
# Parameters of statements

A condition with a value takes the next number for its parameter, and a condition without one takes none.  So
the parameters of a clause are numbered without gaps, in the order of the conditions, and no parameter takes
the place of another one; the window of a load statement has names of its own.  The text knows the numbers
only and never a value, and the placeholders in it are just the parameters, in their order.
-/

namespace GraphMapping

namespace Condition

/-- The value that goes with a condition. -/
def value? : Condition → Option Value
  | .compare _ _ value => some value
  | .absent .. => none
  | .nativeId id => some (.int id)

/-- The condition with nothing in place of its value. -/
def blank : Condition → Condition
  | .compare property comparison _ => .compare property comparison .null
  | .absent property isNull => .absent property isNull
  | .nativeId _ => .nativeId 0

/-- What a condition says of an element, given the name of the parameter for its value. -/
def text (subject name : String) : Condition → String
  | .compare property comparison _ =>
      subject ++ "." ++ Identifier.quote property ++ " " ++ comparison.operator ++ " $" ++ name
  | .absent property isNull =>
      subject ++ "." ++ Identifier.quote property ++ (if isNull then " IS NULL" else " IS NOT NULL")
  | .nativeId _ => "id(" ++ subject ++ ") = $" ++ name

end Condition

/-- A condition together with the name to which its element is bound. -/
abbrev Criterion := String × Condition

namespace Criterion

/-- The conditions of a filter, all on one element. -/
def ofFilter (subject : String) (filter : Filter) : List Criterion :=
  filter.map fun condition => (subject, condition)

/-- The criterion with nothing in place of its value. -/
def blank (criterion : Criterion) : Criterion :=
  (criterion.1, criterion.2.blank)

/-- The values that go with conditions, in order. -/
def values (criteria : List Criterion) : List Value :=
  criteria.filterMap (·.2.value?)

/-- The name of a parameter, by the number of the values before. -/
def parameter (i : Nat) : String :=
  "p" ++ toString i

/-- The texts of conditions: each refers to its value by the number of the values before. -/
def texts (criteria : List Criterion) : List String :=
  criteria.mapIdx fun i criterion =>
    criterion.2.text criterion.1 (parameter (values (criteria.take i)).length)

/-- The values in storage form, each under the name of its parameter. -/
def parameters (criteria : List Criterion) : List (String × Value) :=
  (values criteria).mapIdx fun i value => (parameter i, value.storage)

/-- The conditions as the text of a clause. -/
def clauseText (criteria : List Criterion) : String :=
  if criteria = [] then "" else "WHERE " ++ " AND ".intercalate (texts criteria)

end Criterion

/-- The clause of several conditions. -/
def Clause.ofCriteria (criteria : List Criterion) : Clause :=
  criteria.foldl (fun c criterion => c.add criterion.1 criterion.2) .empty

/-- A dictionary has just these entries, of which no two have the same name. -/
structure Dict.Holds {α : Type} (d : Dict α) (entries : List (String × α)) : Prop where
  perm : d.Perm entries
  sorted : Dict.Sorted d
  apart : (entries.map Prod.fst).Nodup

/-- The clause says what the conditions say and binds their values. -/
structure Clause.States (c : Clause) (criteria : List Criterion) : Prop where
  texts : c.conditions = Criterion.texts criteria
  params : Dict.Holds c.params (Criterion.parameters criteria)

namespace Criterion

variable {criteria : List Criterion}

theorem length_parameters (criteria : List Criterion) :
    (parameters criteria).length = (values criteria).length :=
  List.length_mapIdx

theorem name_of_parameters {e : String × Value} (h : e ∈ parameters criteria) :
    ∃ i < (values criteria).length, e.1 = parameter i := by
  obtain ⟨i, hi, rfl⟩ := List.mem_mapIdx.1 h
  exact ⟨i, hi, rfl⟩

theorem texts_concat (criteria : List Criterion) (criterion : Criterion) :
    texts (criteria ++ [criterion]) =
      texts criteria ++ [criterion.2.text criterion.1 (parameter (values criteria).length)] := by
  unfold texts
  rw [List.mapIdx_concat, List.take_left]
  congr 1
  refine List.mapIdx_eq_mapIdx_iff.2 fun i hi => ?_
  rw [List.take_append_of_le_length (Nat.le_of_lt hi)]

theorem parameters_concat_of_some {criterion : Criterion} {value : Value}
    (h : criterion.2.value? = some value) :
    parameters (criteria ++ [criterion]) =
      parameters criteria ++ [(parameter (values criteria).length, value.storage)] := by
  have hValues : values (criteria ++ [criterion]) = values criteria ++ [value] := by
    simp [values, h]
  rw [parameters, hValues, List.mapIdx_concat]
  rfl

theorem parameters_concat_of_none {criterion : Criterion} (h : criterion.2.value? = none) :
    parameters (criteria ++ [criterion]) = parameters criteria := by
  have hValues : values (criteria ++ [criterion]) = values criteria := by
    simp [values, h]
  rw [parameters, hValues]
  rfl

/-- What is bound stays bound. -/
theorem parameters_prefix (criteria more : List Criterion) :
    parameters criteria <+: parameters (criteria ++ more) := by
  unfold parameters values
  rw [List.filterMap_append, List.mapIdx_append]
  exact List.prefix_append _ _

end Criterion

namespace Dict.Holds

variable {α : Type} {d : Dict α} {entries : List (String × α)} {name : String}

theorem insert (h : d.Holds entries) (value : α) (hFresh : ∀ e ∈ entries, e.1 ≠ name) :
    (Dict.insert d name value).Holds (entries ++ [(name, value)]) where
  perm := (insert_perm value fun e he => hFresh e (h.perm.mem_iff.1 he)).trans
    ((h.perm.cons _).trans (List.perm_append_singleton _ _).symm)
  sorted := sorted_insert h.sorted name value
  apart := by
    rw [List.map_append, List.map_singleton]
    refine List.nodup_append.2 ⟨h.apart, List.pairwise_singleton _ _, ?_⟩
    intro other hOther last hLast hSame
    obtain ⟨e, he, rfl⟩ := List.mem_map.1 hOther
    exact hFresh e he (hSame.trans (List.mem_singleton.1 hLast))

end Dict.Holds

namespace Clause

variable {c : Clause} {criteria : List Criterion}

theorem add_eq (c : Clause) (subject : String) (condition : Condition) :
    c.add subject condition =
      ⟨c.conditions ++ [condition.text subject c.nextName], match condition.value? with
        | some value => c.params.insert c.nextName value.storage
        | none => c.params⟩ := by
  cases condition <;> rfl

/-- The next parameter is numbered by the values bound so far. -/
theorem States.nextName (h : c.States criteria) :
    c.nextName = Criterion.parameter (Criterion.values criteria).length := by
  rw [Clause.nextName, h.params.perm.length_eq, Criterion.length_parameters]
  rfl

theorem States.add (h : c.States criteria) (criterion : Criterion) :
    (c.add criterion.1 criterion.2).States (criteria ++ [criterion]) := by
  have hFresh : ∀ e ∈ Criterion.parameters criteria,
      e.1 ≠ Criterion.parameter (Criterion.values criteria).length := by
    intro e he hSame
    obtain ⟨i, hi, hName⟩ := Criterion.name_of_parameters he
    exact Nat.ne_of_lt hi (Dict.numbered_inj (hName.symm.trans hSame))
  rw [add_eq, h.nextName]
  constructor
  · rw [Criterion.texts_concat, h.texts]
  · cases hValue : criterion.2.value? with
    | some value =>
        rw [Criterion.parameters_concat_of_some hValue]
        exact h.params.insert _ hFresh
    | none =>
        rw [Criterion.parameters_concat_of_none hValue]
        exact h.params

theorem states_ofCriteria (criteria : List Criterion) : (ofCriteria criteria).States criteria := by
  induction criteria using List.reverseRecOn with
  | nil => exact ⟨rfl, .refl _, .nil, .nil⟩
  | append_singleton criteria criterion ih =>
      rw [ofCriteria, List.foldl_append]
      exact ih.add criterion

theorem text_ofCriteria (criteria : List Criterion) :
    (ofCriteria criteria).text = Criterion.clauseText criteria := by
  rw [Clause.text, Criterion.clauseText, (states_ofCriteria criteria).texts]
  simp [Criterion.texts]

theorem ofConditions_eq (subject : String) (filter : Filter) :
    ofConditions subject filter = ofCriteria (Criterion.ofFilter subject filter) := by
  rw [ofConditions, ofCriteria, Criterion.ofFilter, List.foldl_map]

end Clause

/-! ## Placeholders of a clause -/

namespace Criterion

open Placeholder

variable {criteria : List Criterion}

/-- The names of the bound parameters, in order. -/
def names (criteria : List Criterion) : List String :=
  (parameters criteria).map Prod.fst

/-- The names of elements are plain words. -/
def Plain (criteria : List Criterion) : Prop :=
  ∀ criterion ∈ criteria, criterion.1.toList.all isPlain = true

theorem parameter_chars (i : Nat) : (parameter i).toList.all isNameChar = true := by
  rw [parameter, String.toList_append, List.all_append, Bool.and_eq_true]
  exact ⟨rfl, number_chars i⟩

/-- A condition refers to its value. -/
theorem shows_text {subject name : String} (hSubject : subject.toList.all isPlain = true)
    (hName : name.toList.all isNameChar = true) (condition : Condition) :
    Shows (condition.text subject name) (condition.value?.map fun _ => name).toList := by
  have hDot : Neutral "." := neutral_plain rfl
  have hBlank : Neutral " " := neutral_plain rfl
  have hSlot : " $" ++ name = " " ++ ("$" ++ name) := by
    rw [← String.append_assoc]
    rfl
  have hHere := neutral_plain hSubject
  have hPlace := hBlank.append_shows (shows_placeholder hName)
  cases condition with
  | compare property comparison value =>
      have hOperator : Neutral comparison.operator := by
        cases comparison <;> exact neutral_plain rfl
      simp only [Condition.text, String.append_assoc, hSlot]
      exact hHere.append_shows (hDot.append_shows ((neutral_quote property).append_shows
        (hBlank.append_shows (hOperator.append_shows hPlace))))
  | absent property isNull =>
      have hCheck : Neutral (if isNull then " IS NULL" else " IS NOT NULL") := by
        cases isNull <;> exact neutral_plain rfl
      exact ((hHere.append hDot).append (neutral_quote property)).append hCheck |>.shows
  | nativeId id =>
      have hFront : Neutral "id(" := neutral_plain rfl
      have hText : ") = $" ++ name = ") =" ++ (" " ++ ("$" ++ name)) := by
        rw [← hSlot, ← String.append_assoc]
        rfl
      have hBack : Neutral ") =" := neutral_plain rfl
      simp only [Condition.text, String.append_assoc, hText]
      exact hFront.append_shows (hHere.append_shows (hBack.append_shows hPlace))

theorem shows_texts (h : Plain criteria) : ∃ shown,
    List.Forall₂ Shows (texts criteria) shown ∧ shown.flatten = names criteria := by
  induction criteria using List.reverseRecOn with
  | nil => exact ⟨[], .nil, rfl⟩
  | append_singleton criteria criterion ih =>
      obtain ⟨shown, hShown, hNames⟩ := ih fun other hOther => h other (List.mem_append_left _ hOther)
      have hLast := shows_text (h criterion (List.mem_append_right _ List.mem_cons_self))
        (parameter_chars (values criteria).length) criterion.2
      refine ⟨shown ++ [(criterion.2.value?.map fun _ => parameter (values criteria).length).toList],
        ?_, ?_⟩
      · rw [texts_concat]
        exact List.rel_append hShown (.cons hLast .nil)
      · rw [List.flatten_append, hNames, List.flatten_singleton]
        unfold names
        cases hValue : criterion.2.value? with
        | none =>
            rw [parameters_concat_of_none hValue]
            exact List.append_nil _
        | some value =>
            rw [parameters_concat_of_some hValue, List.map_append]
            rfl

/-- The text of a clause refers to just the bound parameters. -/
theorem shows_clauseText (h : Plain criteria) : Shows (clauseText criteria) (names criteria) := by
  unfold clauseText
  split
  · rename_i hNone
    subst hNone
    exact shows_empty
  · obtain ⟨shown, hShown, hNames⟩ := shows_texts h
    have hWhere : Neutral "WHERE " := neutral_plain rfl
    have hAnd : Neutral " AND " := neutral_plain rfl
    rw [← hNames]
    exact hWhere.append_shows (shows_intercalate hAnd (fun _ => stops_cons rfl _) hShown)

end Criterion

/-! ## Load and delete statements -/

namespace Window

/-- A number, or the largest signed one if it is larger. -/
def clamped (n : UInt64) : Value :=
  .int (if n.toNat < 1 <<< 63 then Int64.ofNat n.toNat else Int64.maxValue)

/-- The numbers of a window, as far as they are set. -/
def parameters (w : Window) : List (String × Value) :=
  (w.skip.map fun n => ("skip", clamped n)).toList ++ (w.limit.map fun n => ("limit", clamped n)).toList

/-- The window with zero in place of its numbers. -/
def blank (w : Window) : Window :=
  ⟨w.skip.map fun _ => 0, w.limit.map fun _ => 0⟩

/-- The sort keys and the window of a load statement; without any of them there is no text. -/
def spelled (order : List Order) (w : Window) : String :=
  if order = [] ∧ w.skip = none ∧ w.limit = none then ""
  else
    "\nWITH n" ++
      (if order = [] then "" else
        " ORDER BY " ++ ", ".intercalate (order.map fun o =>
          "n." ++ Identifier.quote o.property ++ (if o.descending then " DESC" else ""))) ++
      (if w.skip = none then "" else " SKIP $skip") ++
      (if w.limit = none then "" else " LIMIT $limit")

theorem clamp_eq (n : UInt64) : clamp n = clamped n := by
  unfold clamp clamped
  split
  · rw [Nat.min_eq_left (by omega)]
  · rw [Nat.min_eq_right (by omega)]
    rfl

end Window

namespace Criterion

theorem parameter_ne {i : Nat} {name : String} (h : name.toList.head? ≠ some 'p') : parameter i ≠ name := by
  rintro rfl
  exact h (by simp [parameter])

theorem blank_text (condition : Condition) (subject name : String) :
    condition.blank.text subject name = condition.text subject name := by
  cases condition <;> rfl

theorem length_values_blank (criteria : List Criterion) :
    (values (criteria.map blank)).length = (values criteria).length := by
  induction criteria with
  | nil => rfl
  | cons criterion rest ih =>
      obtain ⟨subject, condition⟩ := criterion
      cases condition <;> simpa [values, blank, Condition.blank, Condition.value?] using ih

theorem texts_blank (criteria : List Criterion) : texts (criteria.map blank) = texts criteria := by
  refine List.ext_getElem (by simp [texts]) fun i _ _ => ?_
  simp only [texts, List.getElem_mapIdx, List.getElem_map, ← List.map_take, length_values_blank]
  exact blank_text _ _ _

/-- The text of a clause knows no value. -/
theorem clauseText_blank (criteria : List Criterion) :
    clauseText (criteria.map blank) = clauseText criteria := by
  unfold clauseText
  rw [texts_blank]
  simp

theorem clauseText_eq {criteria criteria' : List Criterion} (h : criteria.map blank = criteria'.map blank) :
    clauseText criteria = clauseText criteria' := by
  rw [← clauseText_blank, h, clauseText_blank]

theorem ofFilter_blank (subject : String) (filter : Filter) :
    ofFilter subject (filter.map Condition.blank) = (ofFilter subject filter).map blank := by
  simp [ofFilter, blank]

end Criterion

namespace LoadQuery

/-- The query with nothing in place of its values and zero in place of the numbers of its window. -/
def blank (q : LoadQuery) : LoadQuery :=
  { q with filter := q.filter.map Condition.blank, window := q.window.blank }

/-- The conditions of a query, all on the nodes that it matches. -/
def criteria (q : LoadQuery) : List Criterion :=
  Criterion.ofFilter "n" q.filter

/-- The text that collects the paths of up to `depth` relationships. -/
def paths (depth : Nat) : String :=
  "\nOPTIONAL MATCH path = (n)-[*0.." ++ toString depth ++ ("]-()\n" ++
    "WITH collect(DISTINCT n) AS primaries, collect(path) AS paths\n" ++
    "RETURN [null] + reduce(rs = [], q IN paths | rs + relationships(q)) AS edges,\n" ++
    "reduce(ns = [], q IN paths | ns + nodes(q)) AS others,\nprimaries")

theorem collectText_eq (q : LoadQuery) : q.collectText = paths q.depth := by
  unfold collectText paths
  simp only [String.append_assoc]
  -- The texts differ only in how the words behind the depth are cut.
  refine congrArg (fun tail => "\nOPTIONAL MATCH path = (n)-[*0.." ++ (toString q.depth ++ tail)) ?_
  decide +kernel

theorem windowText_eq (q : LoadQuery) :
    (if q.windowText = "" then "" else "\nWITH n" ++ q.windowText) = q.window.spelled q.order := by
  obtain ⟨label, depth, filter, order, skip, limit⟩ := q
  have hKeys : order.map Order.text = order.map fun o =>
      "n." ++ Identifier.quote o.property ++ (if o.descending then " DESC" else "") := rfl
  have hOrder : ∀ keys, " ORDER BY " ++ keys ≠ "" := by simp
  unfold windowText Window.spelled
  dsimp only
  rw [hKeys]
  cases order <;> cases skip <;> cases limit <;> simp [hOrder, String.append_assoc]

theorem statement_text (q : LoadQuery) : q.statement.text =
    "MATCH (n:" ++ Identifier.quote q.label ++ ")" ++
      (if q.filter = [] then "" else "\n" ++ Criterion.clauseText q.criteria) ++
      q.window.spelled q.order ++ paths q.depth := by
  have hSome : (Clause.ofCriteria q.criteria).hasConditions = true ↔ q.filter ≠ [] := by
    rw [Clause.hasConditions, (Clause.states_ofCriteria _).texts]
    simp [Criterion.texts, criteria, Criterion.ofFilter]
  unfold statement LoadQuery.text
  dsimp only
  rw [Clause.ofConditions_eq, ← criteria, Clause.text_ofCriteria, windowText_eq, collectText_eq]
  by_cases hNone : q.filter = []
  · rw [if_neg fun h => hSome.1 h hNone, if_pos hNone]
  · rw [if_pos (hSome.2 hNone), if_neg hNone]

theorem windowParams_holds {q : LoadQuery} {params : Dict Value}
    (h : params.Holds (Criterion.parameters q.criteria)) :
    (q.windowParams params).Holds (Criterion.parameters q.criteria ++ q.window.parameters) := by
  have hFresh : ∀ name : String, name.toList.head? ≠ some 'p' →
      ∀ e ∈ Criterion.parameters q.criteria, e.1 ≠ name := by
    intro name hName e he hSame
    obtain ⟨i, -, hNumber⟩ := Criterion.name_of_parameters he
    exact Criterion.parameter_ne hName (hNumber.symm.trans hSame)
  have hSkip := hFresh "skip" (by decide)
  have hLimit := hFresh "limit" (by decide)
  unfold windowParams Window.parameters
  cases q.window.skip with
  | none =>
      cases q.window.limit with
      | none => simpa using h
      | some m => simpa [Window.clamp_eq] using h.insert (Window.clamped m) hLimit
  | some n =>
      have hBoth := h.insert (Window.clamped n) hSkip
      cases q.window.limit with
      | none => simpa [Window.clamp_eq] using hBoth
      | some m =>
          have hApart : ∀ e ∈ Criterion.parameters q.criteria ++ [("skip", Window.clamped n)],
              e.1 ≠ "limit" := by
            intro e he
            rcases List.mem_append.1 he with he | he
            · exact hLimit e he
            · rw [List.mem_singleton.1 he]
              exact show "skip" ≠ "limit" by decide
          simpa [Window.clamp_eq] using hBoth.insert (Window.clamped m) hApart

theorem spelled_blank (w : Window) (order : List Order) : w.blank.spelled order = w.spelled order := by
  simp only [Window.spelled, Window.blank, Option.map_eq_none_iff]

/-- The text of a load statement knows no value. -/
theorem text_blank (q : LoadQuery) : q.blank.statement.text = q.statement.text := by
  have hCriteria : q.blank.criteria = q.criteria.map Criterion.blank := Criterion.ofFilter_blank "n" q.filter
  have hNone : q.blank.filter = [] ↔ q.filter = [] := List.map_eq_nil_iff
  have hWindow : q.blank.window.spelled q.blank.order = q.window.spelled q.order := spelled_blank _ _
  have hLabel : q.blank.label = q.label := rfl
  have hDepth : q.blank.depth = q.depth := rfl
  simp only [statement_text, hLabel, hCriteria, Criterion.clauseText_blank, hNone, hWindow, hDepth]

end LoadQuery

theorem delete_text (label : String) (filter : Filter) : (deleteStatement label filter).text =
    "MATCH (n:" ++ Identifier.quote label ++ ")\n" ++ Criterion.clauseText (Criterion.ofFilter "n" filter) ++
      "\nDETACH DELETE n\nRETURN count(*) AS deleted" := by
  unfold deleteStatement
  dsimp only
  rw [Clause.ofConditions_eq, Clause.text_ofCriteria]

/-! ## Placeholders of load and delete statements -/

section

open Placeholder

theorem Criterion.plain_ofFilter (filter : Filter) : Criterion.Plain (Criterion.ofFilter "n" filter) := by
  intro criterion hCriterion
  obtain ⟨condition, -, rfl⟩ := List.mem_map.1 hCriterion
  exact show "n".toList.all isPlain = true from rfl

namespace Window

/-- Sort keys refer to nothing. -/
theorem shows_orderKeys (order : List Order) : Shows (", ".intercalate (order.map fun o =>
    "n." ++ Identifier.quote o.property ++ (if o.descending then " DESC" else ""))) [] := by
  have hSubject : Neutral "n." := neutral_plain rfl
  have hDirection : ∀ descending : Bool, Neutral (if descending then " DESC" else "") := by
    intro descending
    cases descending <;> exact neutral_plain rfl
  have hEach : List.Forall₂ Shows (order.map fun o =>
      "n." ++ Identifier.quote o.property ++ (if o.descending then " DESC" else ""))
      (order.map fun _ => []) := by
    rw [List.forall₂_map_left_iff, List.forall₂_map_right_iff, List.forall₂_same]
    exact fun o _ => ((hSubject.append (neutral_quote o.property)).append (hDirection o.descending)).shows
  have hComma : Neutral ", " := neutral_plain rfl
  simpa using shows_intercalate hComma (fun _ => stops_cons rfl _) hEach

/-- The window refers to just the numbers that are set. -/
theorem shows_spelled (order : List Order) (w : Window) :
    Shows (w.spelled order) (w.parameters.map Prod.fst) := by
  have hNames : w.parameters.map Prod.fst =
      [] ++ (if w.skip = none then [] else ["skip"]) ++ (if w.limit = none then [] else ["limit"]) := by
    unfold parameters
    cases w.skip <;> cases w.limit <;> rfl
  have hWith : Neutral "\nWITH n" := neutral_plain rfl
  have hOrder : Neutral " ORDER BY " := neutral_plain rfl
  have hSkip : Shows (" SKIP " ++ ("$" ++ "skip")) ["skip"] :=
    (neutral_plain rfl).append_shows (shows_placeholder rfl)
  have hLimit : Shows (" LIMIT " ++ ("$" ++ "limit")) ["limit"] :=
    (neutral_plain rfl).append_shows (shows_placeholder rfl)
  have hKeys : Shows (if order = [] then "" else " ORDER BY " ++ ", ".intercalate (order.map fun o =>
      "n." ++ Identifier.quote o.property ++ (if o.descending then " DESC" else ""))) [] := by
    simpa using shows_unless fun _ => hOrder.append_shows (shows_orderKeys order)
  have hSkipStops : Stops " SKIP $skip".toList := stops_cons rfl _
  have hLimitStops : Stops " LIMIT $limit".toList := stops_cons rfl _
  unfold spelled
  split
  · rename_i hNothing
    rw [hNames, if_pos hNothing.2.1, if_pos hNothing.2.2]
    exact shows_empty
  · rw [hNames]
    exact ((hWith.append_shows hKeys).append (stops_unless hSkipStops) (shows_unless fun _ => hSkip)).append
      (stops_unless hLimitStops) (shows_unless fun _ => hLimit)

end Window

theorem Window.stops_spelled (order : List Order) (w : Window) : Stops (w.spelled order).toList := by
  refine stops_unless ?_
  rw [String.append_assoc, String.append_assoc, String.toList_append]
  exact stops_cons rfl _

namespace LoadQuery

theorem neutral_paths (depth : Nat) : Neutral (paths depth) := by
  have hDepth : Neutral (toString depth) := neutral_plain (plain_of_name (number_chars depth))
  unfold paths
  refine ((neutral_plain rfl).append hDepth).append (((Neutral.append ?_ ?_).append ?_).append ?_)
  all_goals exact neutral_plain (by decide +kernel)

theorem stops_paths (depth : Nat) : Stops (paths depth).toList := by
  unfold paths
  simp only [String.append_assoc]
  rw [String.toList_append]
  exact stops_cons rfl _

/-- A load statement refers to just the parameters of its conditions and its window. -/
theorem placeholders_statement (q : LoadQuery) : placeholders q.statement.text =
    Criterion.names q.criteria ++ q.window.parameters.map Prod.fst := by
  have hMatch : Neutral ("MATCH (n:" ++ Identifier.quote q.label ++ ")") :=
    ((neutral_plain rfl).append (neutral_quote _)).append (neutral_plain rfl)
  have hBreak : Neutral "\n" := neutral_plain rfl
  have hClause : Shows (if q.filter = [] then "" else "\n" ++ Criterion.clauseText q.criteria)
      (Criterion.names q.criteria) := by
    have hNames : (if q.filter = [] then [] else Criterion.names q.criteria) =
        Criterion.names q.criteria := by
      split
      · rename_i hNone
        rw [criteria, hNone]
        rfl
      · rfl
    rw [← hNames]
    exact shows_unless fun _ =>
      hBreak.append_shows (Criterion.shows_clauseText (Criterion.plain_ofFilter q.filter))
  have hText := ((hMatch.append_shows hClause).append (q.window.stops_spelled q.order)
    (q.window.shows_spelled q.order)).append (stops_paths q.depth) (neutral_paths q.depth).shows
  rw [statement_text, placeholders_of_shows hText, List.append_nil]

end LoadQuery

/-- A delete statement refers to just the parameters of its conditions. -/
theorem placeholders_delete (label : String) (filter : Filter) :
    placeholders (deleteStatement label filter).text = Criterion.names (Criterion.ofFilter "n" filter) := by
  have hMatch : Neutral ("MATCH (n:" ++ Identifier.quote label ++ ")\n") :=
    ((neutral_plain rfl).append (neutral_quote _)).append (neutral_plain rfl)
  have hDelete : Neutral "\nDETACH DELETE n\nRETURN count(*) AS deleted" := neutral_plain rfl
  have hClause := Criterion.shows_clauseText (Criterion.plain_ofFilter filter)
  have hStops : Stops "\nDETACH DELETE n\nRETURN count(*) AS deleted".toList := stops_cons rfl _
  have hText := (hMatch.append_shows hClause).append hStops hDelete.shows
  rw [delete_text, placeholders_of_shows hText, List.append_nil]

end

/-- However a clause is built, its text joins the conditions in their order, the parameters are just the
values of the conditions in storage form, numbered in this order, each condition refers to its own value by
the number, and what is bound stays bound.  A load statement adds the numbers of its window, as far as they
are set, a delete statement nothing.  The placeholders in the texts are just the names of the parameters, and
the texts are the same where only values and numbers differ. -/
theorem parameters_carry_values :
    (∀ criteria more : List Criterion, (Clause.ofCriteria criteria).text = Criterion.clauseText criteria ∧
      (Clause.ofCriteria criteria).params.Holds (Criterion.parameters criteria) ∧
      (Clause.ofCriteria criteria).params ⊆ (Clause.ofCriteria (criteria ++ more)).params ∧
      (Criterion.Plain criteria →
        placeholders (Clause.ofCriteria criteria).text = Criterion.names criteria)) ∧
    (∀ q : LoadQuery, q.statement.text = "MATCH (n:" ++ Identifier.quote q.label ++ ")" ++
        (if q.filter = [] then "" else "\n" ++ Criterion.clauseText q.criteria) ++
        q.window.spelled q.order ++ LoadQuery.paths q.depth ∧
      q.statement.params.Holds (Criterion.parameters q.criteria ++ q.window.parameters) ∧
      placeholders q.statement.text =
        Criterion.names q.criteria ++ q.window.parameters.map Prod.fst) ∧
    (∀ label filter, (deleteStatement label filter).text =
        "MATCH (n:" ++ Identifier.quote label ++ ")\n" ++
          Criterion.clauseText (Criterion.ofFilter "n" filter) ++
          "\nDETACH DELETE n\nRETURN count(*) AS deleted" ∧
      (deleteStatement label filter).params.Holds (Criterion.parameters (Criterion.ofFilter "n" filter)) ∧
      placeholders (deleteStatement label filter).text =
        Criterion.names (Criterion.ofFilter "n" filter)) ∧
    (∀ criteria criteria' : List Criterion, criteria.map Criterion.blank = criteria'.map Criterion.blank →
      (Clause.ofCriteria criteria).text = (Clause.ofCriteria criteria').text) ∧
    (∀ q q' : LoadQuery, q.blank = q'.blank → q.statement.text = q'.statement.text) ∧
    ∀ label filter filter', filter.map Condition.blank = filter'.map Condition.blank →
      (deleteStatement label filter).text = (deleteStatement label filter').text := by
  refine ⟨fun criteria more => ⟨Clause.text_ofCriteria criteria, (Clause.states_ofCriteria criteria).params,
      ?_, fun hPlain => ?_⟩,
    fun q => ⟨q.statement_text, ?_, q.placeholders_statement⟩,
    fun label filter => ⟨delete_text label filter, ?_, placeholders_delete label filter⟩, ?_, ?_, ?_⟩
  · intro e he
    have hBound := (Clause.states_ofCriteria criteria).params.perm.mem_iff.1 he
    exact (Clause.states_ofCriteria (criteria ++ more)).params.perm.mem_iff.2
      ((Criterion.parameters_prefix criteria more).subset hBound)
  · rw [Clause.text_ofCriteria]
    exact Placeholder.placeholders_of_shows (Criterion.shows_clauseText hPlain)
  · refine LoadQuery.windowParams_holds ?_
    rw [Clause.ofConditions_eq]
    exact (Clause.states_ofCriteria q.criteria).params
  · unfold deleteStatement
    dsimp only
    rw [Clause.ofConditions_eq]
    exact (Clause.states_ofCriteria _).params
  · intro criteria criteria' h
    rw [Clause.text_ofCriteria, Clause.text_ofCriteria, Criterion.clauseText_eq h]
  · intro q q' h
    rw [← q.text_blank, h, q'.text_blank]
  · intro label filter filter' h
    have hCriteria : (Criterion.ofFilter "n" filter).map Criterion.blank =
        (Criterion.ofFilter "n" filter').map Criterion.blank := by
      rw [← Criterion.ofFilter_blank, h, Criterion.ofFilter_blank]
    rw [delete_text, delete_text, Criterion.clauseText_eq hCriteria]

namespace Screening

/-- Some movies, the latest first. -/
def query (word : String) (id : Int64) (skip : UInt64) : LoadQuery :=
  ⟨"Movie", 1, [.compare "title" .contains (.string word), .absent "deleted" true, .nativeId id],
    [⟨"year", true⟩], ⟨some skip, none⟩⟩

/-- A word that imitates a condition of its own. -/
def hostile : LoadQuery := query "' OR 1=1 //" 7 (UInt64.ofNat ((1 <<< 64) - 1))

def plain : LoadQuery := query "Heat" 12 20

example : hostile.statement.params.names = ["p0", "p1", "skip"] := by decide

end Screening

theorem screenings_read_alike :
    Criterion.Plain Screening.hostile.criteria ∧
    placeholders (Clause.ofCriteria Screening.hostile.criteria).text = ["p0", "p1"] ∧
    Screening.hostile.criteria.map Criterion.blank = Screening.plain.criteria.map Criterion.blank ∧
    (Clause.ofCriteria Screening.hostile.criteria).text = (Clause.ofCriteria Screening.plain.criteria).text ∧
    Screening.hostile.blank = Screening.plain.blank ∧
    Screening.hostile.statement.text = Screening.plain.statement.text ∧
    Screening.hostile.filter.map Condition.blank = Screening.plain.filter.map Condition.blank ∧
    (deleteStatement "Movie" Screening.hostile.filter).text =
      (deleteStatement "Movie" Screening.plain.filter).text := by
  have hPlain : Criterion.Plain Screening.hostile.criteria := Criterion.plain_ofFilter _
  have hCriteria : Screening.hostile.criteria.map Criterion.blank =
      Screening.plain.criteria.map Criterion.blank := rfl
  have hBlank : Screening.hostile.blank = Screening.plain.blank := rfl
  have hFilter : Screening.hostile.filter.map Condition.blank =
      Screening.plain.filter.map Condition.blank := rfl
  obtain ⟨hBound, -, -, hClauses, hLoads, hDeletes⟩ := parameters_carry_values
  obtain ⟨-, -, -, hPlaceholders⟩ := hBound Screening.hostile.criteria []
  exact ⟨hPlain, hPlaceholders hPlain, hCriteria, hClauses _ _ hCriteria, hBlank, hLoads _ _ hBlank, hFilter,
    hDeletes _ _ _ hFilter⟩

end GraphMapping

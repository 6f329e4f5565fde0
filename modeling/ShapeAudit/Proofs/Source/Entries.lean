import ShapeAudit.Proofs.Shape.Fields
import ShapeAudit.Source.Lowering

/-!
# Entries of fields

The fields of a shape are made of entries, each a value and the name of the
field it goes to, that are pushed one after the other into no fields.  So the
fields are known from the values that the entries have under each name.  Fields
that stand for one another are then settled, and no value is lost on the way:
of two lists of entries that differ in one value, the settled fields differ.
-/

namespace ShapeAudit.Source

open Shape (Fields)
open Shape.Fields (find? Ascending)
open Shape.Tree (erase eraseItems eraseFields)

/-! ## Entries -/

/-- A value and the field that it goes to. -/
abbrev Entry := String × Shape.Tree

/-- Fields with entries pushed into them, one after the other. -/
def pushAll (entries : List Entry) (fields : Fields) : Fields :=
  entries.foldl (fun pushed entry => Fields.push entry.1 entry.2 pushed) fields

/-- The values that go to a field, in order. -/
def valuesIn (name : String) (entries : List Entry) : List Shape.Tree :=
  (entries.filter fun entry => entry.1 = name).map Prod.snd

/-- Values as a field, which is absent if there are none. -/
def asField (values : List Shape.Tree) : Option (List Shape.Tree) :=
  if values.isEmpty then none else some values

theorem asField_injective
    {first second : List Shape.Tree} (same : asField first = asField second) :
    first = second := by
  cases first <;> cases second <;> simp_all [asField]

theorem asField_eq_some_iff {values found : List Shape.Tree} :
    asField values = some found ↔ values = found ∧ found ≠ [] := by
  cases values with
  | nil =>
      simp [asField, eq_comm]
  | cons value rest =>
      simp only [asField, List.isEmpty_cons, Bool.false_eq_true, if_false, Option.some.injEq]
      constructor
      · rintro rfl
        exact ⟨rfl, List.cons_ne_nil _ _⟩
      · exact And.left

@[simp]
theorem valuesIn_nil (name : String) :
    valuesIn name [] = [] := by
  rfl

@[simp]
theorem valuesIn_append (name : String) (first second : List Entry) :
    valuesIn name (first ++ second) = valuesIn name first ++ valuesIn name second := by
  simp [valuesIn]

@[simp]
theorem valuesIn_cons_self (name : String) (value : Shape.Tree) (rest : List Entry) :
    valuesIn name ((name, value) :: rest) = value :: valuesIn name rest := by
  simp [valuesIn]

@[simp]
theorem valuesIn_cons_of_ne
    {name other : String} (different : other ≠ name)
    (value : Shape.Tree) (rest : List Entry) :
    valuesIn other ((name, value) :: rest) = valuesIn other rest := by
  simp [valuesIn, Ne.symm different]

theorem valuesIn_eq_nil
    {name : String} {entries : List Entry}
    (absent : ∀ entry ∈ entries, entry.1 ≠ name) :
    valuesIn name entries = [] := by
  simpa [valuesIn] using absent

theorem mem_valuesIn {name : String} {value : Shape.Tree} {entries : List Entry} :
    value ∈ valuesIn name entries ↔ (name, value) ∈ entries := by
  simp [valuesIn]

theorem pushAll_cons (entry : Entry) (rest : List Entry) (fields : Fields) :
    pushAll (entry :: rest) fields =
      pushAll rest (Fields.push entry.1 entry.2 fields) := by
  rfl

theorem pushAll_append (first second : List Entry) (fields : Fields) :
    pushAll (first ++ second) fields = pushAll second (pushAll first fields) := by
  simp [pushAll, List.foldl_append]

theorem ascending_pushAll
    (entries : List Entry) {fields : Fields} (ascending : Ascending fields) :
    Ascending (pushAll entries fields) := by
  induction entries generalizing fields with
  | nil =>
      exact ascending
  | cons entry rest inductionHypothesis =>
      exact inductionHypothesis (Fields.ascending_push ascending entry.1 entry.2)

/-- Entries that are pushed go to the ends of their fields. -/
theorem find?_pushAll
    (name : String) (entries : List Entry) {fields : Fields}
    (ascending : Ascending fields) :
    find? name (pushAll entries fields) =
      if valuesIn name entries = [] then find? name fields
      else some (Fields.get name fields ++ valuesIn name entries) := by
  induction entries generalizing fields with
  | nil =>
      simp [pushAll, valuesIn]
  | cons entry rest inductionHypothesis =>
      obtain ⟨key, value⟩ := entry
      rw [pushAll_cons, inductionHypothesis (Fields.ascending_push ascending key value)]
      by_cases sameName : name = key
      · subst sameName
        by_cases noMore : valuesIn name rest = []
        · simp [valuesIn_cons_self, noMore, Fields.find?_push_self ascending]
        · simp [valuesIn_cons_self, noMore, Fields.get_push_self ascending]
      · rw [valuesIn_cons_of_ne sameName, Fields.find?_push_of_ne sameName,
          Fields.get_push_of_ne sameName]

theorem find?_pushAll_nil (name : String) (entries : List Entry) :
    find? name (pushAll entries []) = asField (valuesIn name entries) := by
  rw [find?_pushAll name entries Fields.ascending_nil]
  by_cases none : valuesIn name entries = [] <;>
    simp [asField, none, find?, Fields.get]

theorem get_pushAll_nil (name : String) (entries : List Entry) :
    Fields.get name (pushAll entries []) = valuesIn name entries := by
  rw [Fields.get_eq_find?, find?_pushAll_nil, asField]
  split
  · rename_i noValues
    simpa using noValues.symm
  · rfl

@[simp]
theorem eraseFields_pushAll (entries : List Entry) (fields : Fields) :
    eraseFields (pushAll entries fields) =
      pushAll (entries.map fun entry => (entry.1, erase entry.2)) (eraseFields fields) := by
  induction entries generalizing fields with
  | nil =>
      rfl
  | cons entry rest inductionHypothesis =>
      simp [pushAll_cons, inductionHypothesis]

/-! ## Settled fields -/

/-- The list of parameters that stands for bare ones. -/
def parameterList (values : List Shape.Tree) : Shape.Tree :=
  .node .formalParameters
    (pushAll (values.map fun value => (Shape.childrenField, value)) []) none

theorem foldl_push_children
    (values : List Shape.Tree) (kind : Shape.Kind) (fields : Fields) (text : Option String) :
    (values.foldl (fun node value => Shape.Node.push node Shape.childrenField value)
      ⟨kind, fields, text⟩).toTree =
      .node kind (pushAll (values.map fun value => (Shape.childrenField, value)) fields)
        text := by
  induction values generalizing fields with
  | nil =>
      rfl
  | cons value rest inductionHypothesis =>
      exact inductionHypothesis (Fields.push Shape.childrenField value fields)

theorem valuesIn_map_children (values : List Shape.Tree) :
    valuesIn Shape.childrenField (values.map fun value => (Shape.childrenField, value)) =
      values := by
  induction values with
  | nil =>
      rfl
  | cons value rest inductionHypothesis =>
      rw [List.map_cons, valuesIn_cons_self, inductionHypothesis]

theorem pushAll_children_injective
    {first second : List Shape.Tree}
    (same : pushAll (first.map fun value => (Shape.childrenField, value)) [] =
      pushAll (second.map fun value => (Shape.childrenField, value)) []) :
    first = second := by
  have sameChildren := congrArg (find? Shape.childrenField) same
  rw [find?_pushAll_nil, find?_pushAll_nil, valuesIn_map_children,
    valuesIn_map_children] at sameChildren
  exact asField_injective sameChildren

theorem parameterList_injective
    {first second : List Shape.Tree} (same : parameterList first = parameterList second) :
    first = second := by
  injection same with _ sameFields
  exact pushAll_children_injective sameFields

/-- Whether a value is something else than the word `var`. -/
def isNotVar (value : Shape.Tree) : Bool :=
  value.asWord? ≠ some "var"

/-- Fields without the word `var` among the keywords. -/
def withoutVar (fields : Fields) : Fields :=
  if !Fields.has Shape.tokensField fields then fields
  else if ((Fields.get Shape.tokensField fields).filter isNotVar).isEmpty then
    Fields.remove Shape.tokensField fields
  else Fields.put Shape.tokensField
    ((Fields.get Shape.tokensField fields).filter isNotVar) fields

theorem settle_variable (fields : Fields) :
    settle .variableDeclaration fields =
      if Fields.has "kind" (withoutVar fields) then withoutVar fields
      else Fields.push "kind" (.word "var") (withoutVar fields) := by
  rfl

/-- The kinds whose fields are settled. -/
theorem settle_cases (kind : Kind) :
    kind = .subscriptExpression ∨ kind = .arrowFunction ∨ kind = .variableDeclaration ∨
      kind = .newExpression ∨ ∀ fields, settle kind fields = fields := by
  by_cases isSubscript : kind = .subscriptExpression
  · exact .inl isSubscript
  · by_cases isArrow : kind = .arrowFunction
    · exact .inr (.inl isArrow)
    · by_cases isVariable : kind = .variableDeclaration
      · exact .inr (.inr (.inl isVariable))
      · by_cases isNew : kind = .newExpression
        · exact .inr (.inr (.inr (.inl isNew)))
        · refine .inr (.inr (.inr (.inr ?_)))
          intro fields
          unfold settle
          split <;> simp_all

section Settle

variable {fields : Fields} (ascending : Ascending fields) (name : String)

include ascending

theorem find?_settle_subscript :
    find? name (settle .subscriptExpression fields) =
      if name = "index" then none
      else if name = "property" then (find? "index" fields).or (find? "property" fields)
      else find? name fields := by
  rw [settle, Fields.has_eq_find?, Fields.get_eq_find?]
  cases present : find? "index" fields with
  | none =>
      by_cases isIndex : name = "index"
      · simp [isIndex, present]
      · by_cases isProperty : name = "property" <;> simp [isIndex, isProperty]
  | some values =>
      by_cases isProperty : name = "property"
      · simp [isProperty, Fields.find?_put_self]
      · by_cases isIndex : name = "index"
        · subst isIndex
          simp [Fields.find?_put_of_ne isProperty, Fields.find?_remove_self ascending]
        · simp [isIndex, isProperty, Fields.find?_put_of_ne isProperty,
            Fields.find?_remove_of_ne isIndex]

theorem find?_settle_arrow :
    find? name (settle .arrowFunction fields) =
      match find? "parameter" fields with
      | none => find? name fields
      | some values =>
        if name = "parameter" then none
        else if name = "parameters" then
          some (Fields.get "parameters" fields ++ [parameterList values])
        else find? name fields := by
  rw [settle, Fields.has_eq_find?, Fields.get_eq_find? "parameter"]
  cases present : find? "parameter" fields with
  | none =>
      simp
  | some values =>
      have removed := Fields.ascending_remove ascending "parameter"
      have parameters :
          (values.foldl (fun node value => Shape.Node.push node Shape.childrenField value)
            (Shape.Node.bare .formalParameters)).toTree = parameterList values :=
        foldl_push_children values _ _ _
      simp only [Option.isSome_some, if_true, Option.getD_some, parameters]
      by_cases isParameters : name = "parameters"
      · subst isParameters
        have kept :
            Fields.get "parameters" (Fields.remove "parameter" fields) =
              Fields.get "parameters" fields := by
          rw [Fields.get_eq_find?, Fields.get_eq_find?,
            Fields.find?_remove_of_ne (by decide)]
        simp [Fields.find?_push_self removed, kept]
      · rw [Fields.find?_push_of_ne isParameters]
        by_cases isParameter : name = "parameter"
        · simp [isParameter, Fields.find?_remove_self ascending]
        · simp [isParameter, isParameters, Fields.find?_remove_of_ne isParameter]

theorem find?_settle_new :
    find? name (settle .newExpression fields) =
      if name = "arguments" then
        some ((find? "arguments" fields).getD [(Shape.Node.bare .arguments).toTree])
      else find? name fields := by
  rw [settle, Fields.has_eq_find?]
  cases present : find? "arguments" fields with
  | none =>
      have absent : Fields.get "arguments" fields = [] := by
        rw [Fields.get_eq_find?, present]
        rfl
      by_cases isArguments : name = "arguments"
      · simp [isArguments, Fields.find?_push_self ascending, absent]
      · simp [isArguments, Fields.find?_push_of_ne isArguments]
  | some values =>
      by_cases isArguments : name = "arguments" <;> simp [isArguments, present]

theorem ascending_withoutVar :
    Ascending (withoutVar fields) := by
  unfold withoutVar
  split
  · exact ascending
  · split
    · exact Fields.ascending_remove ascending _
    · exact Fields.ascending_put ascending _ _

theorem find?_withoutVar :
    find? name (withoutVar fields) =
      if name = Shape.tokensField then
        (find? Shape.tokensField fields).bind fun values => asField (values.filter isNotVar)
      else find? name fields := by
  rw [withoutVar, Fields.has_eq_find?, Fields.get_eq_find?]
  cases present : find? Shape.tokensField fields with
  | none =>
      by_cases isTokens : name = Shape.tokensField <;> simp [isTokens, present]
  | some values =>
      simp only [Option.getD_some, Option.bind_some]
      generalize values.filter isNotVar = kept
      cases kept with
      | nil =>
          by_cases isTokens : name = Shape.tokensField
          · simp [isTokens, asField, Fields.find?_remove_self ascending]
          · simp [isTokens, Fields.find?_remove_of_ne isTokens]
      | cons first rest =>
          by_cases isTokens : name = Shape.tokensField
          · simp [isTokens, asField, Fields.find?_put_self]
          · simp [isTokens, Fields.find?_put_of_ne isTokens]

theorem find?_settle_variable :
    find? name (settle .variableDeclaration fields) =
      if name = Shape.tokensField then
        (find? Shape.tokensField fields).bind fun values => asField (values.filter isNotVar)
      else if name = "kind" then some ((find? "kind" fields).getD [.word "var"])
      else find? name fields := by
  have kindKept : find? "kind" (withoutVar fields) = find? "kind" fields := by
    rw [find?_withoutVar ascending, if_neg (by decide)]
  rw [settle_variable, Fields.has_eq_find?, kindKept]
  cases present : find? "kind" fields with
  | some values =>
      by_cases isKind : name = "kind"
      · subst isKind
        simp [kindKept, present, Shape.tokensField]
      · simp [find?_withoutVar ascending, isKind]
  | none =>
      by_cases isKind : name = "kind"
      · subst isKind
        have absent : Fields.get "kind" (withoutVar fields) = [] := by
          rw [Fields.get_eq_find?, kindKept, present]
          rfl
        simp [Fields.find?_push_self (ascending_withoutVar ascending), absent,
          Shape.tokensField]
      · simp [Fields.find?_push_of_ne isKind, find?_withoutVar ascending, isKind]

omit name in
theorem ascending_settle (kind : Kind) :
    Ascending (settle kind fields) := by
  rcases settle_cases kind with rfl | rfl | rfl | rfl | unsettled
  · simp only [settle]
    split
    · exact Fields.ascending_put (Fields.ascending_remove ascending _) _ _
    · exact ascending
  · simp only [settle]
    split
    · exact Fields.ascending_push (Fields.ascending_remove ascending _) _ _
    · exact ascending
  · rw [settle_variable]
    split
    · exact ascending_withoutVar ascending
    · exact Fields.ascending_push (ascending_withoutVar ascending) _ _
  · simp only [settle]
    split
    · exact ascending
    · exact Fields.ascending_push ascending _ _
  · rw [unsettled]
    exact ascending

end Settle

/-! ## Settling and erasing -/

theorem isNotVar_erase (value : Shape.Tree) :
    isNotVar (erase value) = isNotVar value := by
  cases value with
  | node kind fields text =>
      cases lexical : kind.isLexical <;>
        simp [lexical, isNotVar, Shape.Tree.asWord?, Shape.Tree.anyLeaf]
  | list items | word text =>
      simp [erase, isNotVar, Shape.Tree.asWord?]

theorem eraseItems_filter_isNotVar (values : List Shape.Tree) :
    eraseItems (values.filter isNotVar) = (eraseItems values).filter isNotVar := by
  rw [Shape.Tree.eraseItems_eq_map, Shape.Tree.eraseItems_eq_map, List.filter_map]
  simp [Function.comp_def, isNotVar_erase]

@[simp]
theorem erase_parameterList (values : List Shape.Tree) :
    erase (parameterList values) = parameterList (eraseItems values) := by
  have structural : Shape.Kind.formalParameters.isLexical = false := rfl
  simp [parameterList, structural, eraseFields, Shape.Tree.eraseItems_eq_map,
    Function.comp_def]

theorem eraseFields_withoutVar (fields : Fields) :
    eraseFields (withoutVar fields) = withoutVar (eraseFields fields) := by
  have keptEmpty :
      ((eraseItems (Fields.get Shape.tokensField fields)).filter isNotVar).isEmpty =
        ((Fields.get Shape.tokensField fields).filter isNotVar).isEmpty := by
    rw [← eraseItems_filter_isNotVar, Shape.Tree.eraseItems_eq_map, List.isEmpty_map]
  rw [withoutVar, withoutVar, Shape.Tree.has_eraseFields, Shape.Tree.get_eraseFields, keptEmpty]
  split
  · rfl
  · split
    · simp
    · simp [eraseItems_filter_isNotVar]

/-- Settling looks at the names of fields and at words, which erasing keeps. -/
theorem eraseFields_settle (kind : Kind) (fields : Fields) :
    eraseFields (settle kind fields) = settle kind (eraseFields fields) := by
  rcases settle_cases kind with rfl | rfl | rfl | rfl | unsettled
  · cases present : Fields.has "index" fields <;> simp [settle, present]
  · have parameters :
        ∀ values : List Shape.Tree,
          (values.foldl (fun node value => Shape.Node.push node Shape.childrenField value)
            (Shape.Node.bare .formalParameters)).toTree = parameterList values :=
      fun values => foldl_push_children values _ _ _
    cases present : Fields.has "parameter" fields <;> simp [settle, present, parameters]
  · rw [settle_variable, settle_variable, ← eraseFields_withoutVar, Shape.Tree.has_eraseFields]
    split <;> simp [erase]
  · have bareArguments :
        erase (Shape.Node.bare .arguments).toTree = (Shape.Node.bare .arguments).toTree := by
      simp [Shape.Node.bare, Shape.Node.toTree, erase, eraseFields, Shape.Kind.isLexical]
    cases present : Fields.has "arguments" fields <;> simp [settle, present, bareArguments]
  · rw [unsettled, unsettled]

/-! ## No value is lost -/

/-- Fields that are the same but for one value of one field. -/
structure DifferAt (name : String) (u v : Shape.Tree) (first second : Fields) : Prop where
  firstAscending : Ascending first
  secondAscending : Ascending second
  around : ∃ before after,
    find? name first = some (before ++ u :: after) ∧
      find? name second = some (before ++ v :: after)
  elsewhere : ∀ other, other ≠ name → find? other first = find? other second

theorem differAt_pushAll
    (before after : List Entry) (name : String) (u v : Shape.Tree) :
    DifferAt name u v (pushAll (before ++ (name, u) :: after) [])
      (pushAll (before ++ (name, v) :: after) []) where
  firstAscending := ascending_pushAll _ Fields.ascending_nil
  secondAscending := ascending_pushAll _ Fields.ascending_nil
  around := by
    refine ⟨valuesIn name before, valuesIn name after, ?_, ?_⟩ <;>
      simp [find?_pushAll_nil, valuesIn_append, valuesIn_cons_self, asField]
  elsewhere := by
    intro other different
    rw [find?_pushAll_nil, find?_pushAll_nil, valuesIn_append, valuesIn_append,
      valuesIn_cons_of_ne different, valuesIn_cons_of_ne different]

/-- Dropping the word `var` from two lists that differ in one value leaves
different lists. -/
theorem value_eq_of_filter_eq
    {before after : List Shape.Tree} {u v : Shape.Tree}
    (same : (before ++ u :: after).filter isNotVar = (before ++ v :: after).filter isNotVar) :
    u = v := by
  have sameLength := congrArg List.length same
  cases keptU : isNotVar u <;> cases keptV : isNotVar v
  · have isVar : ∀ value : Shape.Tree, isNotVar value = false → value = .word "var" := by
      intro value dropped
      cases value <;> simp_all [isNotVar, Shape.Tree.asWord?]
    rw [isVar u keptU, isVar v keptV]
  · simp [keptU, keptV] at sameLength
  · simp [keptU, keptV] at sameLength
  · simpa [keptU, keptV] using same

namespace DifferAt

variable {name : String} {u v : Shape.Tree} {first second : Fields}
  (differ : DifferAt name u v first second)

include differ

theorem value_eq (same : find? name first = find? name second) :
    u = v := by
  obtain ⟨before, after, foundU, foundV⟩ := differ.around
  simpa [foundU, foundV] using same

theorem value_eq_of_subscript
    (notLost : name ≠ "property")
    (same : settle .subscriptExpression first = settle .subscriptExpression second) :
    u = v := by
  have sameAt := fun other => congrArg (find? other) same
  simp only [find?_settle_subscript differ.firstAscending,
    find?_settle_subscript differ.secondAscending] at sameAt
  obtain ⟨before, after, foundU, foundV⟩ := differ.around
  by_cases isIndex : name = "index"
  · subst isIndex
    simpa [foundU, foundV] using sameAt "property"
  · simpa [isIndex, notLost, foundU, foundV] using sameAt name

theorem value_eq_of_arrow
    (same : settle .arrowFunction first = settle .arrowFunction second) :
    u = v := by
  have sameAt := fun other => congrArg (find? other) same
  simp only [find?_settle_arrow differ.firstAscending,
    find?_settle_arrow differ.secondAscending] at sameAt
  obtain ⟨before, after, foundU, foundV⟩ := differ.around
  by_cases isParameter : name = "parameter"
  · subst isParameter
    have sameParameters := sameAt "parameters"
    have sameBefore :
        Fields.get "parameters" first = Fields.get "parameters" second := by
      rw [Fields.get_eq_find?, Fields.get_eq_find?, differ.elsewhere _ (by decide)]
    simp only [foundU, foundV, sameBefore, Option.some.injEq, List.append_cancel_left_eq,
      List.cons.injEq, and_true, reduceIte, String.reduceEq] at sameParameters
    simpa using parameterList_injective sameParameters
  · have sameParameter := differ.elsewhere "parameter" (Ne.symm isParameter)
    have sameName := sameAt name
    rw [sameParameter] at sameName
    cases present : find? "parameter" second with
    | none =>
        simpa [present, foundU, foundV] using sameName
    | some values =>
        by_cases isParameters : name = "parameters"
        · subst isParameters
          simpa [present, Fields.get_eq_find?, foundU, foundV] using sameName
        · simpa [present, isParameter, isParameters, foundU, foundV] using sameName

theorem value_eq_of_variable
    (same : settle .variableDeclaration first = settle .variableDeclaration second) :
    u = v := by
  have sameAt := congrArg (find? name) same
  simp only [find?_settle_variable differ.firstAscending,
    find?_settle_variable differ.secondAscending] at sameAt
  obtain ⟨before, after, foundU, foundV⟩ := differ.around
  by_cases isTokens : name = Shape.tokensField
  · subst isTokens
    simp only [foundU, foundV, reduceIte, Option.bind_some] at sameAt
    exact value_eq_of_filter_eq (asField_injective sameAt)
  · by_cases isKind : name = "kind"
    · subst isKind
      simpa [isTokens, foundU, foundV] using sameAt
    · simpa [isTokens, isKind, foundU, foundV] using sameAt

theorem value_eq_of_new
    (same : settle .newExpression first = settle .newExpression second) :
    u = v := by
  have sameAt := congrArg (find? name) same
  simp only [find?_settle_new differ.firstAscending,
    find?_settle_new differ.secondAscending] at sameAt
  obtain ⟨before, after, foundU, foundV⟩ := differ.around
  by_cases isArguments : name = "arguments"
  · subst isArguments
    simpa [foundU, foundV] using sameAt
  · simpa [isArguments, foundU, foundV] using sameAt

/-- Settling loses no value, except that the field `property` of a subscript
gives way to its index. -/
theorem value_eq_of_settle
    {kind : Kind} (notLost : kind = .subscriptExpression → name ≠ "property")
    (same : settle kind first = settle kind second) :
    u = v := by
  rcases settle_cases kind with rfl | rfl | rfl | rfl | unsettled
  · exact differ.value_eq_of_subscript (notLost rfl) same
  · exact differ.value_eq_of_arrow same
  · exact differ.value_eq_of_variable same
  · exact differ.value_eq_of_new same
  · rw [unsettled, unsettled] at same
    exact differ.value_eq (congrArg (find? name) same)

end DifferAt

end ShapeAudit.Source

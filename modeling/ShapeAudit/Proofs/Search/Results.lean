import ShapeAudit.Proofs.Search.PowerSet
import ShapeAudit.Proofs.Search.Strategies
import ShapeAudit.Proofs.Summary
import ShapeAudit.Proofs.Text.ByteOrder

/-!
# Results and their JSON values

A result is written without its form: names are an array of texts, and sets are
an array of such arrays.  The items tell which of the two was written, so only
the empty array can be either.  A set that is read is put in order, and this is
all that writing a result again can change.
-/

namespace ShapeAudit.Json

/-! ## Values of one form -/

theorem asText?_eq_some_iff (item : Json) (name : String) :
    item.asText? = some name ↔ item = .text name := by
  cases item <;> simp [Json.asText?]

theorem asArray?_eq_some_iff (value : Json) (items : List Json) :
    value.asArray? = some items ↔ value = .array items := by
  cases value <;> simp [Json.asArray?]

/-- A reader that takes what a writer gives, and nothing else, takes an array of
such values. -/
theorem mapM_eq_some_iff
    {α β : Type} {write : α → β} {read : β → Option α}
    (taken : ∀ item value, read item = some value ↔ item = write value)
    (items : List β) (values : List α) :
    items.mapM read = some values ↔ items = values.map write := by
  induction items generalizing values with
  | nil =>
      cases values <;> simp
  | cons item items inductionHypothesis =>
      cases values with
      | nil =>
          simp [List.mapM_cons, Option.bind_eq_some_iff]
      | cons value values =>
          simp [List.mapM_cons, Option.bind_eq_some_iff, taken, inductionHypothesis]

theorem ofTexts_injective : Function.Injective Json.ofTexts := by
  intro names others same
  have sameItems := Json.array.inj same
  exact List.map_injective_iff.mpr (fun _ _ sameText => Json.text.inj sameText) sameItems

end ShapeAudit.Json

namespace ShapeAudit.Search

open Json (asArray?_eq_some_iff asText?_eq_some_iff mapM_eq_some_iff)

/-! ## Sets of names in order -/

/-- Names stand in strictly increasing order of their octets. -/
def ByOctets (names : List String) : Prop :=
  names.Pairwise fun earlier later => Text.octets earlier < Text.octets later

instance (names : List String) : Decidable (ByOctets names) :=
  inferInstanceAs (Decidable (names.Pairwise _))

theorem byOctets_iff (names : List String) :
    ByOctets names ↔
      names.Pairwise fun earlier later => Text.lessThan earlier later = true := by
  simp only [ByOctets, Text.octets_lt_iff]

theorem ascending_insertName
    {names : List String}
    (ascending : names.Pairwise fun earlier later => Text.lessThan earlier later = true)
    (name : String) :
    (insertName name names).Pairwise fun earlier later =>
      Text.lessThan earlier later = true := by
  induction names with
  | nil =>
      simp [insertName]
  | cons head rest inductionHypothesis =>
      obtain ⟨headBelow, restAscending⟩ := List.pairwise_cons.mp ascending
      unfold insertName
      split
      · exact ascending
      · rename_i otherName
        split
        · rename_i nameBelow
          refine List.pairwise_cons.mpr ⟨?_, ascending⟩
          intro later isLater
          rcases List.mem_cons.mp isLater with rfl | inRest
          · exact nameBelow
          · exact Text.lessThan_trans nameBelow (headBelow later inRest)
        · rename_i nameNotBelow
          refine List.pairwise_cons.mpr ⟨?_, inductionHypothesis restAscending⟩
          intro later isLater
          rcases (mem_insertName name later rest).mp isLater with rfl | inRest
          · exact Text.lessThan_of_not_lessThan (Ne.symm otherName)
              (Bool.eq_false_iff.mpr nameNotBelow)
          · exact headBelow later inRest

theorem byOctets_nameSet (names : List String) : ByOctets (nameSet names) := by
  have kept : ∀ kept : List String,
      kept.Pairwise (fun earlier later => Text.lessThan earlier later = true) →
      (names.foldl (fun kept name => insertName name kept) kept).Pairwise
        fun earlier later => Text.lessThan earlier later = true := by
    induction names with
    | nil =>
        exact fun kept ascending => ascending
    | cons name rest inductionHypothesis =>
        exact fun kept ascending => inductionHypothesis _ (ascending_insertName ascending name)
  exact (byOctets_iff _).mpr (kept [] List.Pairwise.nil)

/-- Names are a set as they stand exactly if they are in order. -/
theorem nameSet_eq_self_iff (names : List String) :
    nameSet names = names ↔ ByOctets names := by
  constructor
  · intro unchanged
    rw [← unchanged]
    exact byOctets_nameSet names
  · intro inOrder
    exact nameSet_of_ascending ((byOctets_iff names).mp inOrder)

theorem map_nameSet_eq_self_iff (sets : List (List String)) :
    sets.map nameSet = sets ↔ ∀ set ∈ sets, ByOctets set := by
  induction sets with
  | nil =>
      simp
  | cons set sets inductionHypothesis =>
      simp [nameSet_eq_self_iff, inductionHypothesis]

namespace Triggered

/-! ## Arrays of names and of sets -/

theorem texts?_eq_some_iff (value : Json) (names : List String) :
    texts? value = some names ↔ value = Json.ofTexts names := by
  simp [texts?, Option.bind_eq_some_iff, asArray?_eq_some_iff,
    mapM_eq_some_iff asText?_eq_some_iff, Json.ofTexts]

/-- An array of sets, each of them an array of names that may stand in any order. -/
def ofSets (sets : List (List String)) : Json :=
  .array (sets.map Json.ofTexts)

theorem sets?_eq_some_iff (value : Json) (sets : List (List String)) :
    (value.asArray?.bind fun items => items.mapM texts?) = some sets ↔
      value = ofSets sets := by
  simp [Option.bind_eq_some_iff, asArray?_eq_some_iff,
    mapM_eq_some_iff texts?_eq_some_iff, ofSets]

/-- Only the empty array holds both names and sets. -/
theorem ofTexts_eq_ofSets_iff (names : List String) (sets : List (List String)) :
    Json.ofTexts names = ofSets sets ↔ names = [] ∧ sets = [] := by
  cases names <;> cases sets <;> simp [Json.ofTexts, ofSets]

/-! ## Reading and writing -/

theorem ofJson_ofTexts (names : List String) :
    ofJson (Json.ofTexts names) = .ok (linear names) := by
  rw [ofJson, (texts?_eq_some_iff _ names).mpr rfl]

theorem ofJson_ofSets {sets : List (List String)} (someSet : sets ≠ []) :
    ofJson (ofSets sets) = .ok (powerSet (sets.map nameSet)) := by
  have noTexts : texts? (ofSets sets) = none := by
    apply Option.eq_none_iff_forall_ne_some.mpr
    intro names isTexts
    have same := (texts?_eq_some_iff _ names).mp isTexts
    exact someSet ((ofTexts_eq_ofSets_iff names sets).mp same.symm).2
  have isSets := (sets?_eq_some_iff (ofSets sets) sets).mpr rfl
  simp only [ofJson, noTexts, isSets]

/-- A value that is read as a result holds names, or it holds sets that are put in
order. -/
theorem ofJson_cases {value : Json} {result : Triggered} (isRead : ofJson value = .ok result) :
    (∃ names, value = Json.ofTexts names ∧ result = linear names) ∨
      ∃ sets, value = ofSets sets ∧ result = powerSet (sets.map nameSet) := by
  rw [ofJson] at isRead
  split at isRead
  · rename_i names isTexts
    exact Or.inl ⟨names, (texts?_eq_some_iff _ _).mp isTexts, (Except.ok.inj isRead).symm⟩
  · split at isRead
    · rename_i sets isSets
      exact Or.inr ⟨sets, (sets?_eq_some_iff _ _).mp isSets, (Except.ok.inj isRead).symm⟩
    · cases isRead

/-- The sets of a result are sets: their names are in order. -/
def HoldsSets : Triggered → Prop
  | linear _ => True
  | powerSet sets => ∀ set ∈ sets, ByOctets set

instance : DecidablePred HoldsSets
  | linear _ => instDecidableTrue
  | powerSet sets => inferInstanceAs (Decidable (∀ set ∈ sets, ByOctets set))

theorem holdsSets_of_ofJson
    {value : Json} {result : Triggered} (isRead : ofJson value = .ok result) :
    result.HoldsSets := by
  rcases ofJson_cases isRead with ⟨names, -, rfl⟩ | ⟨sets, -, rfl⟩
  · trivial
  · intro set isMember
    obtain ⟨names, -, rfl⟩ := List.mem_map.mp isMember
    exact byOctets_nameSet names

/-- A result as it comes back when it is written and read: no sets come back as no
names. -/
def comeBack (result : Triggered) : Triggered :=
  if result = powerSet [] then linear [] else result

theorem ofJson_toJson {result : Triggered} (holdsSets : result.HoldsSets) :
    ofJson result.toJson = .ok result.comeBack := by
  cases result with
  | linear names =>
      rw [toJson, ofJson_ofTexts, comeBack, if_neg nofun]
  | powerSet sets =>
      by_cases noSet : sets = []
      · subst noSet
        rfl
      · have unchanged : sets.map nameSet = sets := (map_nameSet_eq_self_iff sets).mpr holdsSets
        rw [toJson, ← ofSets, ofJson_ofSets noSet, unchanged, comeBack,
          if_neg (by simpa using noSet)]

theorem comeBack_alike (result : Triggered) :
    result.comeBack.size = result.size ∧ result.comeBack.isEmpty = result.isEmpty ∧
      result.comeBack.flags = result.flags ∧ result.comeBack.toJson = result.toJson := by
  unfold comeBack
  split
  · rename_i noSet
    subst noSet
    exact ⟨rfl, rfl, rfl, rfl⟩
  · exact ⟨rfl, rfl, rfl, rfl⟩

theorem ofSets_injective : Function.Injective ofSets := by
  intro sets others same
  exact List.map_injective_iff.mpr Json.ofTexts_injective (Json.array.inj same)

/-- Writing what was read gives another value exactly if that value holds a set
that is not in order. -/
theorem toJson_ne_iff
    {value : Json} {result : Triggered} (isRead : ofJson value = .ok result) :
    result.toJson ≠ value ↔
      ∃ sets, value = ofSets sets ∧ ∃ set ∈ sets, ¬ ByOctets set := by
  rcases ofJson_cases isRead with ⟨names, rfl, rfl⟩ | ⟨sets, rfl, rfl⟩
  · refine ⟨fun changed => absurd rfl changed, ?_⟩
    rintro ⟨sets, same, set, isMember, -⟩
    rw [((ofTexts_eq_ofSets_iff names sets).mp same).2] at isMember
    cases isMember
  · rw [toJson, ← ofSets, Ne, ofSets_injective.eq_iff, map_nameSet_eq_self_iff]
    constructor
    · intro outOfOrder
      push Not at outOfOrder
      exact ⟨sets, rfl, outOfOrder⟩
    · rintro ⟨others, same, set, isMember, notInOrder⟩ inOrder
      rw [ofSets_injective same] at inOrder
      exact notInOrder (inOrder set isMember)

/-- A result of sets in order comes back from its value, and from the text of this
value, except that no sets come back as no names; either way it counts, names and
writes the same.  A value that is read as a result, whose sets are then in order,
is written as it was unless it is an array of arrays of texts, one of them not
strictly in the order of octets. -/
theorem results_come_back_from_their_values :
    (∀ result : Triggered, result.HoldsSets →
      Json.read result.toJson.pretty = .ok result.toJson ∧
      ∃ back, ofJson result.toJson = .ok back ∧
        (result ≠ powerSet [] → back = result) ∧
        (result = powerSet [] → back = linear []) ∧
        back.size = result.size ∧ back.isEmpty = result.isEmpty ∧
        back.flags = result.flags ∧ back.toJson = result.toJson) ∧
    ∀ (value : Json) (result : Triggered), ofJson value = .ok result →
      result.HoldsSets ∧
      (result.toJson ≠ value ↔
        ∃ sets : List (List String), value = .array (sets.map Json.ofTexts) ∧
          ∃ set ∈ sets, ¬ ByOctets set) := by
  refine ⟨?_, fun value result isRead => ⟨holdsSets_of_ofJson isRead, toJson_ne_iff isRead⟩⟩
  intro result holdsSets
  refine ⟨(Summary.legible_toJson 125 0 result).read_pretty, result.comeBack,
    ofJson_toJson holdsSets, ?_, ?_, comeBack_alike result⟩
  · intro someForm
    exact if_neg someForm
  · intro noSet
    exact if_pos noSet

/-- Sets with an empty one among them come back; names that are out of order and
repeated are a set when they are read. -/
theorem unordered_names_come_back_in_order :
    (powerSet [["a", "µ"], []]).HoldsSets ∧
    ofJson (powerSet [["a", "µ"], []]).toJson = .ok (powerSet [["a", "µ"], []]) ∧
    ofJson (.array [Json.ofTexts ["µ", "a", "µ"]]) = .ok (powerSet [["a", "µ"]]) ∧
    (powerSet [["a", "µ"]]).toJson ≠ .array [Json.ofTexts ["µ", "a", "µ"]] := by
  have holdsSets : (powerSet [["a", "µ"], []]).HoldsSets := by
    decide
  have isRead : ofJson (.array [Json.ofTexts ["µ", "a", "µ"]]) = .ok (powerSet [["a", "µ"]]) := by
    rfl
  obtain ⟨comesBack, isWritten⟩ := results_come_back_from_their_values
  obtain ⟨-, back, backRead, unchanged, -⟩ := comesBack _ holdsSets
  refine ⟨holdsSets, unchanged (by decide) ▸ backRead, isRead, ?_⟩
  exact (isWritten _ _ isRead).2.mpr
    ⟨[["µ", "a", "µ"]], rfl, ["µ", "a", "µ"], List.mem_singleton_self _, by decide⟩

end Triggered

end ShapeAudit.Search

import ShapeAudit.Proofs.Json.Spread
import ShapeAudit.Response

/-!
# Responses and their text

The text of a response is one JSON object, and the number that a command ends
with can be told from it: from the status, and with the status `error` from the
code of the error.
-/

namespace ShapeAudit

/-! ## Numbers in values -/

namespace Json

mutual

/-- The natural numbers that a value holds. -/
def naturals : Json → List Nat
  | number (.natural value) => [value]
  | array items => naturalsOfItems items
  | object members => naturalsOfMembers members
  | _ => []

/-- The natural numbers that items hold. -/
def naturalsOfItems : List Json → List Nat
  | [] => []
  | item :: rest => naturals item ++ naturalsOfItems rest

/-- The natural numbers that members hold. -/
def naturalsOfMembers : List (String × Json) → List Nat
  | [] => []
  | (_, value) :: rest => naturals value ++ naturalsOfMembers rest

end

theorem mem_naturalsOfMembers
    {n : Nat} {members : List (String × Json)} {member : String × Json}
    (isMember : member ∈ members) (isHeld : n ∈ member.2.naturals) :
    n ∈ naturalsOfMembers members := by
  induction members with
  | nil =>
      cases isMember
  | cons head rest inductionHypothesis =>
      rw [naturalsOfMembers, List.mem_append]
      rcases List.mem_cons.mp isMember with rfl | inRest
      · exact .inl isHeld
      · exact .inr (inductionHypothesis inRest)

/-- A value that is a text or a natural number. -/
def IsEntry (value : Json) : Prop :=
  (∃ content, value = text content) ∨ ∃ n, value = ofNat n

theorem readsAs_entry
    {value : Json} (isEntry : value.IsEntry) (small : ∀ n ∈ value.naturals, n ≤ greatest)
    (limit depth : Nat) :
    ReadsAs arrange (limit + 1) depth value := by
  rcases isEntry with ⟨content, rfl⟩ | ⟨n, rfl⟩
  · exact readsAs_text limit depth content
  · exact readsAs_ofNat limit depth (small n (by simp [ofNat, naturals]))

/-- An object of texts and natural numbers is read. -/
theorem readsAs_flat
    {members : List (String × Json)} (areEntries : ∀ member ∈ members, member.2.IsEntry)
    (small : ∀ n ∈ (object members).naturals, n ≤ greatest) (limit depth : Nat) :
    ReadsAs arrange (limit + 2) depth (object members) := by
  apply readsAs_object
  intro member isMember
  apply readsAs_entry (areEntries member isMember)
  intro n isHeld
  exact small n (mem_naturalsOfMembers isMember isHeld)

end Json

/-! ## Failures -/

namespace Failure

/-- What a failure adds to its message is an object of texts and numbers. -/
def Flat (failure : Failure) : Prop :=
  ∀ details ∈ failure.details?, ∃ members, details = .object members ∧
    ∀ member ∈ members, member.2.IsEntry

theorem flat_of_none {failure : Failure} (bare : failure.details? = none) : failure.Flat := by
  intro details isDetails
  rw [bare] at isDetails
  cases isDetails

theorem flat_ofSettings (fault : SettingsFault) : (ofSettings fault).Flat := by
  rintro _ ⟨⟩
  refine ⟨_, rfl, ?_⟩
  simp [Json.IsEntry]

theorem flat_ofRefusal (refusal : Search.Refusal) : (ofRefusal refusal).Flat := by
  rintro _ ⟨⟩
  refine ⟨_, rfl, ?_⟩
  simp [Json.IsEntry]

theorem code_number (failure : Failure) : failure.code.number ∈ [2, 3, 4, 10] := by
  cases failure <;> simp [code, ExitCode.number]

end Failure

namespace Response

/-! ## Reading a response -/

/-- The failure of a response is flat. -/
def Flat : Response → Prop
  | failed failure => failure.Flat
  | _ => True

theorem names_distinct (response : Response) :
    ((("status", Json.text response.status) :: ("schema_version", .text schemaVersion) ::
      response.members).map Prod.fst).Nodup := by
  cases response with
  | compared source transformed divergence =>
      cases divergence <;> simp [members, optional]
  | _ =>
      simp [members]

theorem readsAs_divergence (divergence : Shape.Divergence) (limit depth : Nat) :
    Json.ReadsAs Json.arrange (limit + 2) depth divergence.toJson := by
  apply Json.readsAs_flat
  · simp [Json.IsEntry]
  · simp [Json.naturals, Json.naturalsOfMembers]

theorem readsAs_ofSkipped (file : SkippedFile) (limit depth : Nat) :
    Json.ReadsAs Json.arrange (limit + 2) depth (ofSkipped file) := by
  apply Json.readsAs_flat
  · simp [Json.IsEntry]
  · simp [Json.naturals, Json.naturalsOfMembers]

theorem readsAs_ofChanged (file : ChangedFile) (limit depth : Nat) :
    Json.ReadsAs Json.arrange (limit + 3) depth (ofChanged file) := by
  apply Json.readsAs_object
  intro member isMember
  rcases List.mem_cons.mp isMember with rfl | isDivergence
  · exact Json.readsAs_text _ _ _
  · cases differs : file.divergence with
    | none =>
        simp [differs, optional] at isDivergence
    | some divergence =>
        simp only [differs, optional, Option.map_some, List.mem_singleton] at isDivergence
        subst isDivergence
        exact readsAs_divergence divergence _ _

theorem readsAs_ofFailure
    {failure : Failure} (flat : failure.Flat)
    (small : ∀ n ∈ (ofFailure failure).naturals, n ≤ Json.greatest) (limit depth : Nat) :
    Json.ReadsAs Json.arrange (limit + 3) depth (ofFailure failure) := by
  apply Json.readsAs_object
  intro member isMember
  have smallHere : ∀ n ∈ member.2.naturals, n ≤ Json.greatest :=
    fun n isHeld => small n (Json.mem_naturalsOfMembers isMember isHeld)
  rcases List.mem_append.mp isMember with isMember | isFile
  · rcases List.mem_append.mp isMember with isFirst | isDetails
    · apply Json.readsAs_entry _ smallHere
      simp only [List.mem_cons, List.not_mem_nil, or_false] at isFirst
      rcases isFirst with rfl | rfl
      · exact .inr ⟨_, rfl⟩
      · exact .inl ⟨_, rfl⟩
    · cases added : failure.details? with
      | none =>
          simp [added, optional] at isDetails
      | some details =>
          simp only [added, optional, List.mem_singleton] at isDetails
          subst isDetails
          obtain ⟨members, rfl, areEntries⟩ := flat details added
          exact Json.readsAs_flat areEntries smallHere _ _
  · cases about : failure.file? with
    | none =>
        simp [about, optional] at isFile
    | some file =>
        simp only [about, optional, Option.map_some, List.mem_singleton] at isFile
        subst isFile
        exact Json.readsAs_text _ _ _

theorem readsAs_members
    {response : Response} (flat : response.Flat)
    (small : ∀ member ∈ response.members, ∀ n ∈ member.2.naturals, n ≤ Json.greatest) :
    ∀ member ∈ response.members, Json.ReadsAs Json.arrange 127 1 member.2 := by
  intro member isMember
  have smallHere := small member isMember
  cases response with
  | ran engine output =>
      simp only [members, List.mem_cons, List.not_mem_nil, or_false] at isMember
      rcases isMember with rfl | rfl
      · exact Json.readsAs_text 126 _ _
      · exact Json.readsAs_text 126 _ _
  | compared source transformed divergence =>
      rcases List.mem_append.mp isMember with isFirst | isDivergence
      · simp only [List.mem_cons, List.not_mem_nil, or_false] at isFirst
        rcases isFirst with rfl | rfl | rfl
        · exact Json.readsAs_text 126 _ _
        · exact Json.readsAs_text 126 _ _
        · exact Json.readsAs_bool 126 _ _
      · cases divergence with
        | none =>
            cases isDivergence
        | some divergence =>
            cases List.mem_singleton.mp isDivergence
            exact readsAs_divergence divergence 125 1
  | verified engine passed changed skipped =>
      simp only [members, List.mem_cons, List.not_mem_nil, or_false] at isMember
      rcases isMember with rfl | rfl | rfl | rfl | rfl | rfl
      · exact Json.readsAs_text 126 _ _
      · exact Json.readsAs_entry (.inr ⟨_, rfl⟩) smallHere 126 1
      · exact Json.readsAs_entry (.inr ⟨_, rfl⟩) smallHere 126 1
      · exact Json.readsAs_entry (.inr ⟨_, rfl⟩) smallHere 126 1
      · apply Json.readsAs_array
        intro item isItem
        obtain ⟨file, -, rfl⟩ := List.mem_map.mp isItem
        exact readsAs_ofChanged file 123 2
      · apply Json.readsAs_array
        intro item isItem
        obtain ⟨file, -, rfl⟩ := List.mem_map.mp isItem
        exact readsAs_ofSkipped file 124 2
  | searched engine summary files triggered =>
      simp only [members, List.mem_cons, List.not_mem_nil, or_false] at isMember
      rcases isMember with rfl | rfl | rfl | rfl
      · exact Json.readsAs_text 126 _ _
      · exact Json.readsAs_text 126 _ _
      · exact Json.readsAs_entry (.inr ⟨_, rfl⟩) smallHere 126 1
      · exact Json.readsAs_entry (.inr ⟨_, rfl⟩) smallHere 126 1
  | failed failure =>
      cases List.mem_singleton.mp isMember
      exact readsAs_ofFailure flat smallHere 124 1

/-- The text of a response is one object, which is read back with its members in
order. -/
theorem read_text
    {response : Response} (flat : response.Flat)
    (small : ∀ n ∈ response.toJson.naturals, n ≤ Json.greatest) :
    Json.read response.text = .ok response.toJson.arrange := by
  apply Json.read_pretty_object
  intro member isMember
  rcases List.mem_cons.mp isMember with rfl | isMember
  · exact Json.readsAs_text 126 _ _
  rcases List.mem_cons.mp isMember with rfl | isMember
  · exact Json.readsAs_text 126 _ _
  apply readsAs_members flat _ member isMember
  intro other isOther n isHeld
  exact small n (Json.mem_naturalsOfMembers
    (List.mem_cons_of_mem _ (List.mem_cons_of_mem _ isOther)) isHeld)

/-! ## What a response says -/

/-- The code of the error that the value of a response holds. -/
def errorCode? (value : Json) : Option Nat :=
  (value.get? "error").bind (numberOf? "code")

/-- The number that a command ends with agrees with the value that it printed. -/
structure Tells (value : Json) (exit : Nat) : Prop where
  ok : textOf? "status" value = some "ok" ↔ exit = 0
  changed : textOf? "status" value = some "different" ∨ textOf? "status" value = some "failed" ↔
    exit = 5
  error : textOf? "status" value = some "error" ↔ errorCode? value = some exit
  codes : ∀ code, errorCode? value = some code → code ∈ [2, 3, 4, 10]

theorem get?_toJson (response : Response) (name : String) :
    response.toJson.arrange.get? name = (response.toJson.get? name).map Json.arrange :=
  Json.get?_arrange response.names_distinct name

theorem status_toJson (response : Response) :
    textOf? "status" response.toJson.arrange = some response.status := by
  rw [textOf?, get?_toJson]
  rfl

theorem errorCode?_of_failed (failure : Failure) :
    errorCode? (failed failure).toJson.arrange = some failure.code.number := by
  have distinct :
      ((([("code", .ofNat failure.code.number), ("message", .text failure.message)] ++
        optional "details" failure.details? ++
          optional "file" (failure.file?.map Json.text)) : List (String × Json)).map
            Prod.fst).Nodup := by
    cases failure.details? <;> cases failure.file? <;> simp [optional]
  rw [errorCode?, get?_toJson]
  change numberOf? "code" (ofFailure failure).arrange = some failure.code.number
  rw [numberOf?, ofFailure, Json.get?_arrange distinct]
  rfl

theorem errorCode?_of_not_failed
    {response : Response} (succeeded : ∀ failure, response ≠ failed failure) :
    errorCode? response.toJson.arrange = none := by
  rw [errorCode?, get?_toJson]
  cases response with
  | failed failure =>
      exact absurd rfl (succeeded failure)
  | compared source transformed divergence =>
      cases divergence <;> rfl
  | _ =>
      rfl

/-- The three ways a command ends. -/
theorem ending_cases (response : Response) :
    (response.status = "ok" ∧ response.exitNumber = 0 ∧ ∀ failure, response ≠ failed failure) ∨
    ((response.status = "different" ∨ response.status = "failed") ∧ response.exitNumber = 5 ∧
      ∀ failure, response ≠ failed failure) ∨
    ∃ failure, response = failed failure := by
  cases response with
  | ran engine output =>
      exact .inl ⟨rfl, rfl, nofun⟩
  | compared source transformed divergence =>
      cases divergence with
      | none =>
          exact .inl ⟨rfl, rfl, nofun⟩
      | some divergence =>
          exact .inr (.inl ⟨.inl rfl, rfl, nofun⟩)
  | verified engine passed changed skipped =>
      cases changed with
      | nil =>
          exact .inl ⟨rfl, rfl, nofun⟩
      | cons file others =>
          exact .inr (.inl ⟨.inr rfl, rfl, nofun⟩)
  | searched engine summary files triggered =>
      exact .inl ⟨rfl, rfl, nofun⟩
  | failed failure =>
      exact .inr (.inr ⟨failure, rfl⟩)

/-- The status of a response, and the code of its error, tell how the command
ends. -/
theorem tells_exitNumber (response : Response) :
    Tells response.toJson.arrange response.exitNumber := by
  have status := status_toJson response
  rcases ending_cases response with
    ⟨isOk, ends, succeeded⟩ | ⟨isChanged, ends, succeeded⟩ | ⟨failure, rfl⟩
  · have noCode := errorCode?_of_not_failed succeeded
    rw [isOk] at status
    constructor <;> simp [status, ends, noCode]
  · have noCode := errorCode?_of_not_failed succeeded
    rcases isChanged with isDifferent | hasFailed
    · rw [isDifferent] at status
      constructor <;> simp [status, ends, noCode]
    · rw [hasFailed] at status
      constructor <;> simp [status, ends, noCode]
  · have isCode := errorCode?_of_failed failure
    have listed := failure.code_number
    have ends : (failed failure).exitNumber = failure.code.number := rfl
    have isError : textOf? "status" (failed failure).toJson.arrange = some "error" := status
    rw [ends]
    refine ⟨?_, ?_, ?_, ?_⟩
    · have notZero : failure.code.number ≠ 0 := by
        rintro isZero
        simp [isZero] at listed
      simp [isError, notZero]
    · have notFive : failure.code.number ≠ 5 := by
        rintro isFive
        simp [isFive] at listed
      simp [isError, notFive]
    · simp [isError, isCode]
    · intro code found
      rw [isCode, Option.some.injEq] at found
      exact found ▸ listed

end Response

end ShapeAudit

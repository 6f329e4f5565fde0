import ShapeAudit.Proofs.AlignmentFaults
import ShapeAudit.Proofs.Source.Refusals

/-!
# Places of what is refused

A source is trimmed before it is read, and one of two sources may get the
directive line before that.  A construct that is refused is reported with its
place in the text that is left, and not in the source as it was given: blanks
at the beginning of the source are not counted, and the directive line is.
-/

namespace ShapeAudit

/-! ## Blanks at the beginning -/

/-- The blanks at the beginning of a text. -/
def leadingBlanks (text : String) : List Char :=
  text.toList.takeWhile Text.isBlank

/-- Blanks before a source make no difference to what is read. -/
theorem parse_behind_blanks
    {blanks : String} (areBlank : ∀ c ∈ blanks.toList, Text.isBlank c = true)
    (options : Source.Options) (text : String) :
    Source.parse options (blanks ++ text) = Source.parse options text := by
  have sameText : Text.trimChars (blanks ++ text).toList = Text.trimChars text.toList := by
    rw [String.toList_append, Text.trimChars, Text.trimChars,
      List.dropWhile_append_of_pos areBlank]
  unfold Source.parse
  dsimp only
  rw [sameText]

theorem parse_of_blank
    {text : String} (blank : Text.trimChars text.toList = []) (options : Source.Options) :
    ∃ program, Source.parse options text = .ok program := by
  have treeRead : Source.readTree (Text.trimChars text.toList) =
      .ok (.branch .program ⟨1, 1⟩ []) := by
    rw [blank]
    rfl
  rw [Source.parse_of_readTree treeRead, Source.lowerProgram_branch]
  exact ⟨_, rfl⟩

/-! ## The directive line before a source -/

/-- Whether a source gets the directive line for the sake of the other one. -/
def getsStrictLine (text other : String) : Bool :=
  startsStrict other && !startsStrict text

/-- A source as it is read beside another one. -/
def aligned (text other : String) : String :=
  if getsStrictLine text other then strictLine ++ text else text

theorem alignStrict_eq (source transformed : String) :
    alignStrict source transformed =
      (aligned source transformed, aligned transformed source) := by
  cases markedFirst : startsStrict source <;> cases markedSecond : startsStrict transformed <;>
    simp [alignStrict, aligned, getsStrictLine, markedFirst, markedSecond]

/-- A comparison fails with the fault of one of the sources as it is read. -/
theorem compareSources_eq_error
    {options : Source.Options} {source transformed : String} {fault : Source.Fault}
    (failed : compareSources options source transformed = .error fault) :
    ∃ blamed other,
      (blamed = source ∧ other = transformed ∨ blamed = transformed ∧ other = source) ∧
        Source.parse options (aligned blamed other) = .error fault := by
  simp only [compareSources, alignStrict_eq, Source.bind_eq_error_iff] at failed
  rcases failed with failedFirst | ⟨_, _, failedSecond | ⟨_, _, impossible⟩⟩
  · exact ⟨source, transformed, .inl ⟨rfl, rfl⟩, failedFirst⟩
  · exact ⟨transformed, source, .inr ⟨rfl, rfl⟩, failedSecond⟩
  · cases impossible

theorem trimChars_behind_strictLine
    {text : String} (visible : Text.trimChars text.toList ≠ []) :
    Text.trimChars (strictLine ++ text).toList =
      strictLine.toList ++ leadingBlanks text ++ Text.trimChars text.toList := by
  cases behind : text.toList.dropWhile Text.isBlank with
  | nil =>
      rw [Text.trimChars, behind] at visible
      exact absurd rfl visible
  | cons c rest =>
      rw [trimChars_strictLine, dropBlankEnd_behind_break_of_cons behind]
      rfl

/-- What is refused of a source behind the directive line is refused of the
source, one line further up. -/
theorem refused_behind_strictLine
    {options : Source.Options} {text : String} (ascii : opensWithAsciiBlanks text = true)
    {fault : Source.Fault} {place : Source.Place} (refused : fault.refusedAt? = some place)
    (failed : Source.parse options (strictLine ++ text) = .error fault) :
    ∃ own,
      Source.parse options text = .error own ∧
        own.behind (strictLine.toList ++ leadingBlanks text) = fault := by
  obtain ⟨blanks, atString, areBlank⟩ := atString_asciiBlanks ascii
  obtain ⟨lead, own, parted, ownFailed, moved⟩ :=
    Source.refused_behind_string atString areBlank refused failed
  have visible : Text.trimChars text.toList ≠ [] := by
    intro blank
    obtain ⟨program, reads⟩ := parse_of_blank blank options
    rw [reads] at ownFailed
    cases ownFailed
  rw [trimChars_behind_strictLine visible] at parted
  rw [List.append_cancel_right parted]
  exact ⟨own, ownFailed, moved⟩

/-! ## The place that is reported -/

theorem parse_aligned
    {options : Source.Options} {blamed other : String} {fault : Source.Fault}
    {place : Source.Place}
    (ascii : getsStrictLine blamed other = true → opensWithAsciiBlanks blamed = true)
    (refused : fault.refusedAt? = some place)
    (failed : Source.parse options (aligned blamed other) = .error fault) :
    ∃ own,
      Source.parse options blamed = .error own ∧
        fault =
          if getsStrictLine blamed other then
            own.behind (strictLine.toList ++ leadingBlanks blamed)
          else own := by
  by_cases gets : getsStrictLine blamed other = true
  · rw [aligned, if_pos gets] at failed
    obtain ⟨own, ownFailed, moved⟩ := refused_behind_strictLine (ascii gets) refused failed
    refine ⟨own, ownFailed, ?_⟩
    rw [if_pos gets, moved]
  · rw [aligned, if_neg gets] at failed
    refine ⟨fault, failed, ?_⟩
    rw [if_neg gets]

/-- Blanks before a source leave the place of what is refused of it as it was,
which is its place behind them only if they neither end a line nor stand on its
own.  In a comparison, what is refused of a source that gets the directive line
has its place behind that line, which is never its place in the source; and what
is refused of a source that does not get it has its place in the trimmed source,
which is its place in the source if the blanks at the beginning move nothing. -/
theorem refused_places_are_in_the_text_read (options : Source.Options) :
    (∀ (blanks text : String) (fault : Source.Fault) (place : Source.Place),
      (∀ c ∈ blanks.toList, Text.isBlank c = true) →
        Source.parse options text = .error fault →
          fault.refusedAt? = some place →
            Source.parse options (blanks ++ text) = .error fault ∧
              (Source.parse options (blanks ++ text) = .error (fault.behind blanks.toList) ↔
                '\n' ∉ blanks.toList ∧ (place.line = 1 → blanks = ""))) ∧
    (∀ (source transformed : String) (fault : Source.Fault) (place : Source.Place),
      compareSources options source transformed = .error fault →
        fault.refusedAt? = some place →
          ∃ blamed other,
            (blamed = source ∧ other = transformed ∨ blamed = transformed ∧ other = source) ∧
            Source.parse options (aligned blamed other) = .error fault ∧
            ((getsStrictLine blamed other = true → opensWithAsciiBlanks blamed = true) →
              ∃ own,
                Source.parse options blamed = .error own ∧
                (fault =
                  if getsStrictLine blamed other then
                    own.behind (strictLine.toList ++ leadingBlanks blamed)
                  else own) ∧
                (fault = own.behind (leadingBlanks blamed) ↔
                  getsStrictLine blamed other = false ∧ '\n' ∉ leadingBlanks blamed ∧
                    (place.line = 1 → leadingBlanks blamed = [])))) := by
  constructor
  · intro blanks text fault place areBlank failed refused
    have sameFault : Source.parse options (blanks ++ text) = .error fault := by
      rw [parse_behind_blanks areBlank, failed]
    refine ⟨sameFault, ?_⟩
    have noBlanks : blanks.toList = [] ↔ blanks = "" := by
      simp
    rw [sameFault, Except.error.injEq, eq_comm, Source.Fault.behind_eq_self_iff refused, noBlanks]
  · intro source transformed fault place failed refused
    obtain ⟨blamed, other, sides, blamedFailed⟩ := compareSources_eq_error failed
    refine ⟨blamed, other, sides, blamedFailed, ?_⟩
    intro ascii
    obtain ⟨own, ownFailed, placed⟩ := parse_aligned ascii refused blamedFailed
    refine ⟨own, ownFailed, placed, ?_⟩
    cases gets : getsStrictLine blamed other with
    | true =>
        obtain rfl : fault = own.behind (strictLine.toList ++ leadingBlanks blamed) := by
          simpa [gets] using placed
        have moves := Source.Fault.behind_ne_behind refused (leadingBlanks blamed) (by
          simp [strictLine])
        simp [moves]
    | false =>
        obtain rfl : fault = own := by
          simpa [gets] using placed
        rw [eq_comm, Source.Fault.behind_eq_self_iff refused]
        simp

/-- Blanks on the first line do not move an import on the second; and behind the
directive line and a line break, an import at the beginning of a source is on the
third line. -/
theorem import_is_placed_in_the_text_read :
    Source.parse {} ("  " ++ "f()\nimport'y'") =
        .error ((Source.Fault.moduleOnly ⟨2, 1⟩).behind "  ".toList) ∧
      ∃ own,
        Source.parse {} "\nimport'y'" = .error own ∧
          Source.Fault.moduleOnly ⟨3, 1⟩ = own.behind (strictLine.toList ++ ['\n']) ∧
            Source.Fault.moduleOnly ⟨3, 1⟩ ≠ own.behind ['\n'] := by
  have readsDirective : (Source.parse {} "'use strict'").toOption.isSome = true := by
    decide +kernel
  have imports :
      Source.parse {} "f()\nimport'y'" = .error (.moduleOnly ⟨2, 1⟩) := by
    decide +kernel
  have compared :
      compareSources {} "'use strict'" "\nimport'y'" = .error (.moduleOnly ⟨3, 1⟩) := by
    decide +kernel
  obtain ⟨behindBlanks, besideDirective⟩ := refused_places_are_in_the_text_read {}
  constructor
  · obtain ⟨_, placedIff⟩ := behindBlanks "  " "f()\nimport'y'" (.moduleOnly ⟨2, 1⟩) ⟨2, 1⟩
      (List.all_eq_true.mp (by decide)) imports rfl
    exact placedIff.mpr ⟨by decide, by decide⟩
  · obtain ⟨blamed, other, ⟨rfl, rfl⟩ | ⟨rfl, rfl⟩, _, placed⟩ :=
      besideDirective _ _ _ _ compared rfl
    · obtain ⟨own, ownFailed, _⟩ := placed (by decide +kernel)
      rw [ownFailed] at readsDirective
      cases readsDirective
    · obtain ⟨own, ownFailed, place_eq, placedIff⟩ := placed (by decide +kernel)
      have gets : getsStrictLine "\nimport'y'" "'use strict'" = true := by
        decide +kernel
      have blanks_eq : leadingBlanks "\nimport'y'" = ['\n'] := by
        decide +kernel
      rw [gets, if_pos rfl, blanks_eq] at place_eq
      rw [gets, blanks_eq] at placedIff
      refine ⟨own, ownFailed, place_eq, ?_⟩
      intro inSource
      cases (placedIff.mp inSource).1

/-- A line break and two blanks before an import move it to the third column of
the second line, but it is reported at the beginning; and a source of one line
beside one with the directive is reported to have it on a second line. -/
theorem import_is_not_placed_in_the_source :
    Source.parse {} "import'y'" = .error (.moduleOnly ⟨1, 1⟩) ∧
      (Source.Fault.moduleOnly ⟨1, 1⟩).behind "\n  ".toList = .moduleOnly ⟨2, 3⟩ ∧
      Source.parse {} ("\n  " ++ "import'y'") = .error (.moduleOnly ⟨1, 1⟩) ∧
      compareSources {} "'use strict'" "import'y'" = .error (.moduleOnly ⟨2, 1⟩) := by
  decide +kernel

end ShapeAudit

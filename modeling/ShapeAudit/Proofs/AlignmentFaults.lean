import Mathlib.Data.List.TakeWhile
import ShapeAudit.Proofs.Comparison
import ShapeAudit.Proofs.Source.Prefixed

/-!
# Faults from alignment

Two sources may read and yet not compare, because the one that lacks the
directive gets the directive line before it is parsed again.  Behind the line
the source has the statements it had, so it reads; but a hash bang line may
only stand at the beginning of a source, and the directive line takes its place.

Trimming used to drop the blanks at the beginning, which now stand behind the
line.  The blanks of ASCII are passed over there; others may be taken for the
beginning of a name.
-/

namespace ShapeAudit

open Shape (childrenField)
open Shape.Tree (erase eraseItems)

/-! ## The directive line before a source -/

/-- Whether all blanks at the beginning of a text are of ASCII. -/
def opensWithAsciiBlanks (text : String) : Bool :=
  (text.toList.takeWhile Text.isBlank).all Source.isSpace

/-- Behind a line break, a text that is not blank keeps the blanks that it begins
with. -/
theorem dropBlankEnd_behind_break_of_cons
    {chars rest : List Char} {c : Char} (behind : chars.dropWhile Text.isBlank = c :: rest) :
    Text.dropBlankEnd ('\n' :: chars) =
      '\n' :: chars.takeWhile Text.isBlank ++ Text.trimChars chars := by
  have parted : chars.takeWhile Text.isBlank ++ chars.dropWhile Text.isBlank = chars :=
    List.takeWhile_append_dropWhile
  have visible : Text.isBlank c = false := by
    simpa [behind] using List.head?_dropWhile_not Text.isBlank chars
  have trimmed : Text.trimChars chars = c :: Text.dropBlankEnd rest := by
    rw [Text.trimChars, behind]
    exact dropBlankEnd_append_cons visible [] rest
  rw [behind] at parted
  rw [trimmed, ← dropBlankEnd_append_cons visible, List.cons_append, parted]

/-- What is left of a text behind a line break is the trimmed text, and before it
are blanks that trimming would have dropped. -/
theorem dropBlankEnd_behind_break (chars : List Char) :
    ∃ blanks,
      Text.dropBlankEnd ('\n' :: chars) = blanks ++ Text.trimChars chars ∧
        ∀ c ∈ blanks, c = '\n' ∨ c ∈ chars.takeWhile Text.isBlank := by
  cases behind : chars.dropWhile Text.isBlank with
  | nil =>
      have allBlank := List.dropWhile_eq_nil_iff.mp behind
      have nothingLeft : ('\n' :: chars).reverse.dropWhile Text.isBlank = [] := by
        rw [List.dropWhile_eq_nil_iff]
        intro c isMember
        rcases List.mem_cons.mp (List.mem_reverse.mp isMember) with rfl | isOther
        · rfl
        · exact allBlank c isOther
      refine ⟨[], ?_, by simp⟩
      rw [Text.trimChars, behind, Text.dropBlankEnd, nothingLeft]
      rfl
  | cons c rest =>
      exact ⟨'\n' :: chars.takeWhile Text.isBlank, dropBlankEnd_behind_break_of_cons behind,
        by simp⟩

/-- Behind the directive line stands the trimmed text, and between them are
blanks of ASCII if the text begins with no others. -/
theorem atString_asciiBlanks {text : String} (ascii : opensWithAsciiBlanks text = true) :
    ∃ blanks,
      (Source.Cursor.start (Text.trimChars (strictLine ++ text).toList)).AtString 11
          (blanks ++ Text.trimChars text.toList) ∧
        ∀ c ∈ blanks, Source.isSpace c = true := by
  obtain ⟨blanks, parted, dropped⟩ := dropBlankEnd_behind_break text.toList
  have atString := atString_strictLine text
  rw [parted] at atString
  refine ⟨blanks, atString, ?_⟩
  intro c isBlank
  rcases dropped c isBlank with rfl | isLeading
  · rfl
  · exact List.all_eq_true.mp ascii c isLeading

/-! ## The fault of the source behind the line -/

section BothRead

variable {options : Source.Options} {source transformed : String}
  {first second : Shape.Node}
  (readsFirst : Source.parse options source = .ok first)
  (readsSecond : Source.parse options transformed = .ok second)

include readsFirst readsSecond

theorem compareSources_eq_error_iff (fault : Source.Fault) :
    compareSources options source transformed = .error fault ↔
      startsStrict source ≠ startsStrict transformed ∧
        Source.parse options (strictLine ++ unmarked source transformed) = .error fault := by
  by_cases agree : startsStrict source = startsStrict transformed
  · simp [compareSources_of_agree readsFirst readsSecond agree, agree]
  · cases outcome : Source.parse options (strictLine ++ unmarked source transformed) with
    | error other =>
        simp [compareSources_of_fault readsFirst agree outcome, agree]
    | ok extended =>
        cases marked : startsStrict source with
        | false =>
            simp [compareSources, alignStrict_of_disagree agree, marked, outcome, readsSecond,
              bind, Except.bind, pure, Except.pure]
        | true =>
            simp [compareSources, alignStrict_of_disagree agree, marked, outcome, readsFirst,
              bind, Except.bind, pure, Except.pure]

theorem parse_unmarked :
    ∃ program, Source.parse options (unmarked source transformed) = .ok program := by
  rw [unmarked]
  split
  · exact ⟨second, readsSecond⟩
  · exact ⟨first, readsFirst⟩

/-- Alignment makes a fault of two sources that read exactly when one of them
gets the directive line and does not read behind it, and the fault is its own.
Where that source begins with no blanks beyond ASCII, this is so exactly when it
begins with a hash bang line.  Otherwise the line adds one statement at the
beginning, and all the others stay. -/
theorem aligning_fails_iff :
    (∀ fault,
      compareSources options source transformed = .error fault ↔
        startsStrict source ≠ startsStrict transformed ∧
          Source.parse options (strictLine ++ unmarked source transformed) = .error fault) ∧
    (opensWithAsciiBlanks (unmarked source transformed) = true →
      ((∃ fault, compareSources options source transformed = .error fault) ↔
        startsStrict source ≠ startsStrict transformed ∧
          Source.opensWithHashBang (Text.trimChars (unmarked source transformed).toList) =
            true) ∧
      (Source.opensWithHashBang (Text.trimChars (unmarked source transformed).toList) = false →
        ∃ program extended,
          Source.parse options (unmarked source transformed) = .ok program ∧
            Source.parse options (strictLine ++ unmarked source transformed) = .ok extended ∧
              eraseItems (extended.field childrenField) =
                erase (Source.stringShape "").toTree ::
                  eraseItems (program.field childrenField))) := by
  have faultIff := compareSources_eq_error_iff readsFirst readsSecond
  refine ⟨faultIff, ?_⟩
  intro ascii
  obtain ⟨program, readsUnmarked⟩ := parse_unmarked readsFirst readsSecond
  obtain ⟨blanks, atString, areBlank⟩ := atString_asciiBlanks ascii
  refine ⟨?_, ?_⟩
  · simp only [faultIff, exists_and_left]
    refine and_congr_right fun _ => ⟨?_, Source.parse_behind_string_fails atString areBlank⟩
    rintro ⟨fault, fails⟩
    rw [← Bool.not_eq_false]
    intro noLine
    obtain ⟨extended, readsExtended, _⟩ :=
      Source.parse_behind_string atString areBlank noLine readsUnmarked
    rw [readsExtended] at fails
    cases fails
  · intro noLine
    obtain ⟨extended, readsExtended, oneMore⟩ :=
      Source.parse_behind_string atString areBlank noLine readsUnmarked
    exact ⟨program, extended, readsUnmarked, readsExtended, oneMore⟩

end BothRead

/-- Comments before the first statement, one of them in the form of HTML, do
not keep a source from getting the directive line. -/
theorem comments_before_statement_align :
    (Source.parse {} "\t<!--a\n/*b*/f()").toOption.isSome = true ∧
      (Source.parse {} "'use strict';f()").toOption.isSome = true ∧
        startsStrict "\t<!--a\n/*b*/f()" ≠ startsStrict "'use strict';f()" ∧
          ¬ ∃ fault,
            compareSources {} "\t<!--a\n/*b*/f()" "'use strict';f()" = .error fault := by
  have readsFirst : (Source.parse {} "\t<!--a\n/*b*/f()").toOption.isSome = true := by
    decide +kernel
  have readsSecond : (Source.parse {} "'use strict';f()").toOption.isSome = true := by
    decide +kernel
  have disagree : startsStrict "\t<!--a\n/*b*/f()" ≠ startsStrict "'use strict';f()" := by
    decide +kernel
  have ascii : opensWithAsciiBlanks (unmarked "\t<!--a\n/*b*/f()" "'use strict';f()") = true := by
    decide +kernel
  have noLine :
      Source.opensWithHashBang
        (Text.trimChars (unmarked "\t<!--a\n/*b*/f()" "'use strict';f()").toList) = false := by
    decide +kernel
  obtain ⟨first, firstRead⟩ := Option.isSome_iff_exists.mp readsFirst
  obtain ⟨second, secondRead⟩ := Option.isSome_iff_exists.mp readsSecond
  refine ⟨readsFirst, readsSecond, disagree, ?_⟩
  rw [((aligning_fails_iff (Source.eq_ok_of_toOption firstRead)
    (Source.eq_ok_of_toOption secondRead)).2 ascii).1]
  simp [noLine]

-- Beyond ASCII, trimming drops more blanks than are passed over between tokens:
-- behind the directive line this one is a name, which is then divided.
example :
    opensWithAsciiBlanks "\u2028/a/" = false ∧
      (Source.parse {} "\u2028/a/").toOption.isSome = true ∧
        (compareSources {} "\u2028/a/" "'use strict'").toOption.isSome = false := by
  decide +kernel

/-- Two sources that read, of which the one with a hash bang line does not read
behind the directive line. -/
theorem hash_bang_line_fails_to_align :
    (Source.parse {} "#!a\nf()").toOption.isSome = true ∧
      (Source.parse {} "\"use strict\";f()").toOption.isSome = true ∧
        (compareSources {} "#!a\nf()" "\"use strict\";f()").toOption.isSome = false := by
  decide +kernel

end ShapeAudit

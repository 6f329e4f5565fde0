import Mathlib.Data.List.TakeWhile
import ShapeAudit.Text

/-!
# Pieces of a text

Trimming takes a text apart into blanks, a core, and blanks again.  The core is
the only one that neither begins nor ends with a blank, so blanks that are put
around a text make no difference to what trimming leaves of it.  Splitting takes
a text apart at the first separator, or at all of them.
-/

namespace ShapeAudit.Text

/-- A text of blank characters only. -/
def Blank (text : String) : Prop :=
  ∀ c ∈ text.toList, isBlank c = true

instance (text : String) : Decidable (Blank text) :=
  List.decidableBAll (fun c => isBlank c = true) text.toList

/-- A text that neither begins nor ends with a blank character. -/
structure Tight (text : String) : Prop where
  begins : ∀ c, text.toList.head? = some c → isBlank c = false
  ends : ∀ c, text.toList.getLast? = some c → isBlank c = false

/-- A printable character of ASCII is not blank. -/
theorem isBlank_of_printable {c : Char} (least : 33 ≤ c.toNat) (most : c.toNat ≤ 126) :
    isBlank c = false := by
  simp only [isBlank]
  grind

theorem blank_append
    {first second : String} (firstBlank : Blank first) (secondBlank : Blank second) :
    Blank (first ++ second) := by
  intro c isMember
  rw [String.toList_append] at isMember
  rcases List.mem_append.mp isMember with inFirst | inSecond
  · exact firstBlank c inFirst
  · exact secondBlank c inSecond

/-! ## Lists of characters -/

theorem exists_dropBlankEnd (chars : List Char) :
    ∃ blanks, (∀ c ∈ blanks, isBlank c = true) ∧ chars = dropBlankEnd chars ++ blanks := by
  refine ⟨(chars.reverse.takeWhile isBlank).reverse, ?_, ?_⟩
  · intro c isMember
    exact List.mem_takeWhile_imp (List.mem_reverse.mp isMember)
  · rw [dropBlankEnd, ← List.reverse_append, List.takeWhile_append_dropWhile,
      List.reverse_reverse]

theorem dropBlankEnd_append
    {core blanks : List Char} (areBlank : ∀ c ∈ blanks, isBlank c = true)
    (ends : ∀ c, core.getLast? = some c → isBlank c = false) :
    dropBlankEnd (core ++ blanks) = core := by
  have behindBlanks : (blanks.reverse ++ core.reverse).dropWhile isBlank =
      core.reverse.dropWhile isBlank := by
    apply List.dropWhile_append_of_pos
    intro c isMember
    exact areBlank c (List.mem_reverse.mp isMember)
  have stays : core.reverse.dropWhile isBlank = core.reverse := by
    cases isReversed : core.reverse with
    | nil =>
        rfl
    | cons c rest =>
        have isLast : core.getLast? = some c := by
          rw [← List.head?_reverse, isReversed, List.head?_cons]
        exact List.dropWhile_cons_of_neg (by simp [ends c isLast])
  rw [dropBlankEnd, List.reverse_append, behindBlanks, stays, List.reverse_reverse]

/-! ## Texts -/

/-- Trimming leaves a core with blanks on both sides of it. -/
theorem exists_trim (text : String) :
    ∃ left right, Blank left ∧ Blank right ∧ text = left ++ trim text ++ right := by
  obtain ⟨blanks, areBlank, parted⟩ := exists_dropBlankEnd (text.toList.dropWhile isBlank)
  refine ⟨String.ofList (text.toList.takeWhile isBlank), String.ofList blanks, ?_, ?_, ?_⟩
  · intro c isMember
    rw [String.toList_ofList] at isMember
    exact List.mem_takeWhile_imp isMember
  · intro c isMember
    rw [String.toList_ofList] at isMember
    exact areBlank c isMember
  · apply String.toList_inj.mp
    simp only [String.toList_append, String.toList_ofList, trim, trimChars, List.append_assoc]
    rw [← parted, List.takeWhile_append_dropWhile]

theorem tight_trim (text : String) :
    Tight (trim text) := by
  have parted := exists_dropBlankEnd (text.toList.dropWhile isBlank)
  constructor
  · intro c isFirst
    obtain ⟨blanks, -, isWhole⟩ := parted
    rw [trim, String.toList_ofList, trimChars] at isFirst
    have isFirstOfRest : (text.toList.dropWhile isBlank).head? = some c := by
      rw [isWhole, List.head?_append, isFirst, Option.some_or]
    simpa [isFirstOfRest] using List.head?_dropWhile_not isBlank text.toList
  · intro c isLast
    rw [trim, String.toList_ofList, trimChars, dropBlankEnd, List.getLast?_reverse] at isLast
    simpa [isLast] using
      List.head?_dropWhile_not isBlank (text.toList.dropWhile isBlank).reverse

/-- Blanks around a core are all that trimming drops. -/
theorem trim_around
    {left core right : String} (leftBlank : Blank left) (tight : Tight core)
    (rightBlank : Blank right) :
    trim (left ++ core ++ right) = core := by
  have afterLeft : (left ++ core ++ right).toList.dropWhile isBlank =
      (core.toList ++ right.toList).dropWhile isBlank := by
    rw [String.toList_append, String.toList_append, List.append_assoc]
    exact List.dropWhile_append_of_pos leftBlank
  rw [trim, trimChars, afterLeft]
  cases isCore : core.toList with
  | nil =>
      have nothingLeft : right.toList.dropWhile isBlank = [] :=
        List.dropWhile_eq_nil_iff.mpr rightBlank
      have isEmpty : core = "" := String.toList_inj.mp isCore
      rw [List.nil_append, nothingLeft, isEmpty]
      rfl
  | cons c rest =>
      have visible : isBlank c = false := tight.begins c (by rw [isCore]; rfl)
      have stays : (c :: rest ++ right.toList).dropWhile isBlank = core.toList ++ right.toList := by
        rw [isCore, List.cons_append, List.dropWhile_cons_of_neg (by simp [visible])]
      rw [stays, dropBlankEnd_append rightBlank tight.ends, String.ofList_toList]

/-- Blanks around a text make no difference to what trimming leaves. -/
theorem trim_of_surrounded
    {left right : String} (leftBlank : Blank left) (text : String) (rightBlank : Blank right) :
    trim (left ++ text ++ right) = trim text := by
  obtain ⟨innerLeft, innerRight, innerLeftBlank, innerRightBlank, parted⟩ := exists_trim text
  have regrouped : left ++ text ++ right =
      (left ++ innerLeft) ++ trim text ++ (innerRight ++ right) := by
    calc
      left ++ text ++ right = left ++ (innerLeft ++ trim text ++ innerRight) ++ right := by
        rw [← parted]
      _ = (left ++ innerLeft) ++ trim text ++ (innerRight ++ right) := by
        simp only [String.append_assoc]
  rw [regrouped]
  exact trim_around (blank_append leftBlank innerLeftBlank) (tight_trim text)
    (blank_append innerRightBlank rightBlank)

theorem trim_eq_empty_iff {text : String} :
    trim text = "" ↔ Blank text := by
  constructor
  · intro nothingLeft
    obtain ⟨left, right, leftBlank, rightBlank, parted⟩ := exists_trim text
    rw [nothingLeft, String.append_empty] at parted
    rw [parted]
    exact blank_append leftBlank rightBlank
  · intro isBlank
    have nothingTight : Tight "" := ⟨by simp, by simp⟩
    have nothingBlank : Blank "" := by
      decide
    have trimmed := trim_around isBlank nothingTight nothingBlank
    rwa [String.append_empty, String.append_empty] at trimmed

/-! ## The first separator -/

theorem splitOnce?_of_not_mem
    {separator : Char} {text : String} (noSeparator : separator ∉ text.toList) :
    splitOnce? separator text = none := by
  have nothingLeft : text.toList.dropWhile (· ≠ separator) = [] := by
    rw [List.dropWhile_eq_nil_iff]
    intro c isMember
    simp only [decide_eq_true_eq]
    rintro rfl
    exact noSeparator isMember
  rw [splitOnce?, nothingLeft]

theorem splitOnce?_of_first
    {separator : Char} {text before after : String} (noneBefore : separator ∉ before.toList)
    (parted : text.toList = before.toList ++ separator :: after.toList) :
    splitOnce? separator text = some (before, after) := by
  have passes : ∀ c ∈ before.toList, decide (c ≠ separator) = true := by
    intro c isMember
    simp only [decide_eq_true_eq]
    rintro rfl
    exact noneBefore isMember
  have taken : text.toList.takeWhile (· ≠ separator) = before.toList := by
    rw [parted, List.takeWhile_append_of_pos passes]
    simp
  have dropped : text.toList.dropWhile (· ≠ separator) = separator :: after.toList := by
    rw [parted, List.dropWhile_append_of_pos passes]
    simp
  simp only [splitOnce?, taken, dropped, String.ofList_toList]

theorem exists_first
    {separator : Char} {text : String} (isMember : separator ∈ text.toList) :
    ∃ before after : String,
      separator ∉ before.toList ∧ text.toList = before.toList ++ separator :: after.toList := by
  obtain ⟨before, after, parted, noneBefore⟩ := List.eq_append_cons_of_mem isMember
  refine ⟨String.ofList before, String.ofList after, ?_, ?_⟩
  · rwa [String.toList_ofList]
  · rw [String.toList_ofList, String.toList_ofList, parted]

/-! ## All separators -/

theorem splitChars_ne_nil (separator : Char) (chars : List Char) :
    splitChars separator chars ≠ [] := by
  cases chars with
  | nil =>
      simp [splitChars]
  | cons c rest =>
      rw [splitChars]
      split
      · simp
      · split <;> simp

theorem splitChars_of_not_mem
    {separator : Char} {chars : List Char} (noSeparator : separator ∉ chars) :
    splitChars separator chars = [chars] := by
  induction chars with
  | nil =>
      rfl
  | cons c rest inductionHypothesis =>
      have notFirst : c ≠ separator := by
        rintro rfl
        exact noSeparator List.mem_cons_self
      have notLater : separator ∉ rest := fun isLater =>
        noSeparator (List.mem_cons_of_mem c isLater)
      rw [splitChars, if_neg notFirst, inductionHypothesis notLater]

theorem not_mem_of_mem_splitChars
    {separator : Char} {chars part : List Char} (isPart : part ∈ splitChars separator chars) :
    separator ∉ part := by
  induction chars generalizing part with
  | nil =>
      simp only [splitChars, List.mem_singleton] at isPart
      simp [isPart]
  | cons c rest inductionHypothesis =>
      rw [splitChars] at isPart
      split at isPart
      · rcases List.mem_cons.mp isPart with rfl | isLater
        · exact List.not_mem_nil
        · exact inductionHypothesis isLater
      · rename_i notSeparator
        obtain ⟨first, others, parts⟩ :=
          List.exists_cons_of_ne_nil (splitChars_ne_nil separator rest)
        rw [parts] at isPart
        rcases List.mem_cons.mp isPart with rfl | isLater
        · have notInFirst := inductionHypothesis (parts ▸ List.mem_cons_self)
          simp [Ne.symm notSeparator, notInFirst]
        · exact inductionHypothesis (parts ▸ List.mem_cons_of_mem first isLater)

/-- The parts before a separator and those behind it are independent. -/
theorem splitChars_append_cons (separator : Char) (before after : List Char) :
    splitChars separator (before ++ separator :: after) =
      splitChars separator before ++ splitChars separator after := by
  induction before with
  | nil =>
      simp [splitChars]
  | cons c rest inductionHypothesis =>
      rw [List.cons_append, splitChars, splitChars, inductionHypothesis]
      by_cases isSeparator : c = separator
      · simp [isSeparator]
      · obtain ⟨first, others, parts⟩ :=
          List.exists_cons_of_ne_nil (splitChars_ne_nil separator rest)
        simp [isSeparator, parts]

theorem exists_last
    {separator : Char} {chars : List Char} (isMember : separator ∈ chars) :
    ∃ before after, chars = before ++ separator :: after ∧ separator ∉ after := by
  obtain ⟨after, before, parted, noneAfter⟩ :=
    List.eq_append_cons_of_mem (List.mem_reverse.mpr isMember)
  refine ⟨before.reverse, after.reverse, ?_, by simpa using noneAfter⟩
  rw [← List.reverse_reverse chars, parted]
  simp

end ShapeAudit.Text

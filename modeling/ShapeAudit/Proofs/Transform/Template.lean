import ShapeAudit.Proofs.Text.Replacement
import ShapeAudit.Transform.External

/-!
# Templates are filled in at once

An argument of a template is filled in by four replacements, each of which sees
what the ones before it have put in.  This is the same as taking the argument
apart once, from left to right, and putting a value in place of every
placeholder: a value without braces that is not a mere word can neither hold a
placeholder nor be a part of one, and after the last replacement nothing is
replaced any more.
-/

namespace ShapeAudit.Transform.External

/-! ## Placeholders -/

/-- The placeholders of a template, in the order in which they are filled in. -/
inductive Mark where
  | config
  | input
  | version
  | filename
  deriving DecidableEq, Repr

namespace Mark

def text : Mark → String
  | config => configMark
  | input => inputMark
  | version => versionMark
  | filename => filenameMark

/-- The characters between the braces of a placeholder. -/
def name : Mark → List Char
  | config => ['c', 'o', 'n', 'f', 'i', 'g']
  | input => ['i', 'n', 'p', 'u', 't']
  | version => ['v', 'e', 'r', 's', 'i', 'o', 'n']
  | filename => ['f', 'i', 'l', 'e', 'n', 'a', 'm', 'e']

def chars (mark : Mark) : List Char :=
  '{' :: (mark.name ++ ['}'])

def all : List Mark :=
  [config, input, version, filename]

theorem toList_text (mark : Mark) : mark.text.toList = mark.chars := by
  cases mark <;> rfl

theorem mem_all (mark : Mark) : mark ∈ all := by
  cases mark <;> decide

end Mark

/-- A letter from `a` to `z`. -/
def isSmallLetter (c : Char) : Bool :=
  'a' ≤ c && c ≤ 'z'

theorem Mark.isSmallLetter_of_mem_name {mark : Mark} {c : Char} (isMember : c ∈ mark.name) :
    isSmallLetter c = true := by
  have allSmall : mark.name.all isSmallLetter = true := by
    cases mark <;> rfl
  exact List.all_eq_true.mp allSmall c isMember

/-- Only one placeholder can begin at a place. -/
theorem Mark.eq_of_prefix {mark other : Mark} {rest : List Char}
    (begun : mark.chars <+: other.chars ++ rest) :
    mark = other := by
  cases mark <;> cases other <;> simp_all [chars, name]

/-! ## Arguments taken apart -/

/-- A part of an argument: a character that stands for itself, or a placeholder. -/
inductive Part where
  | letter (c : Char)
  | hole (mark : Mark)

/-- The text of parts, with something written for each placeholder. -/
def render (write : Mark → List Char) : List Part → List Char
  | [] => []
  | .letter c :: rest => c :: render write rest
  | .hole mark :: rest => write mark ++ render write rest

/-- The text that parts were taken from. -/
def spell (pieces : List Part) : List Char :=
  render Mark.chars pieces

/-- The placeholder that begins at a place. -/
def markAt? (chars : List Char) : Option Mark :=
  Mark.all.find? fun mark => (Text.afterPrefix? mark.chars chars).isSome

/-- The parts of an argument from left to right: every placeholder that begins
where the one before it has ended, and the characters between them.  The number
counts the characters of the current placeholder that are still to be passed over. -/
def partsFrom : Nat → List Char → List Part
  | _, [] => []
  | pending + 1, _ :: rest => partsFrom pending rest
  | 0, c :: rest =>
    match markAt? (c :: rest) with
    | some mark => .hole mark :: partsFrom (mark.chars.length - 1) rest
    | none => .letter c :: partsFrom 0 rest

def parts (argument : String) : List Part :=
  partsFrom 0 argument.toList

/-- An argument with every placeholder replaced by its value in one pass. -/
def substitute (values : Mark → String) (argument : String) : String :=
  String.ofList (render (fun mark => (values mark).toList) (parts argument))

/-- No placeholder begins at a character that stands for itself. -/
def Parted : List Part → Prop
  | [] => True
  | .letter c :: rest =>
    (∀ mark : Mark, ¬ mark.chars <+: c :: spell rest) ∧ Parted rest
  | .hole _ :: rest => Parted rest

theorem render_append (write : Mark → List Char) (first second : List Part) :
    render write (first ++ second) = render write first ++ render write second := by
  induction first with
  | nil =>
      rfl
  | cons piece first inductionHypothesis =>
      cases piece <;> simp [render, inductionHypothesis]

theorem markAt?_eq_none_iff (chars : List Char) :
    markAt? chars = none ↔ ∀ mark : Mark, ¬ mark.chars <+: chars := by
  simp [markAt?, Text.afterPrefix?_isSome_iff, Mark.mem_all]

theorem prefix_of_markAt? {chars : List Char} {mark : Mark} (found : markAt? chars = some mark) :
    mark.chars <+: chars := by
  have begun := List.find?_some found
  exact (Text.afterPrefix?_isSome_iff _ _).mp begun

theorem markAt?_chars_append (mark : Mark) (rest : List Char) :
    markAt? (mark.chars ++ rest) = some mark := by
  cases found : markAt? (mark.chars ++ rest) with
  | none =>
      have noMark := (markAt?_eq_none_iff _).mp found mark
      exact absurd (List.prefix_append _ _) noMark
  | some other =>
      rw [Mark.eq_of_prefix (prefix_of_markAt? found)]

/-- The parts of an argument spell it, and its placeholders are holes. -/
theorem partsFrom_parted (pending : Nat) (chars : List Char) :
    spell (partsFrom pending chars) = chars.drop pending ∧
      Parted (partsFrom pending chars) := by
  induction chars generalizing pending with
  | nil =>
      cases pending <;> exact ⟨rfl, trivial⟩
  | cons c rest inductionHypothesis =>
      cases pending with
      | succ pending =>
          exact inductionHypothesis pending
      | zero =>
          rw [partsFrom]
          cases found : markAt? (c :: rest) with
          | none =>
              obtain ⟨spelled, parted⟩ := inductionHypothesis 0
              refine ⟨congrArg (List.cons c) spelled, ?_, parted⟩
              rw [spelled]
              exact (markAt?_eq_none_iff _).mp found
          | some mark =>
              obtain ⟨spelled, parted⟩ := inductionHypothesis (mark.chars.length - 1)
              refine ⟨?_, parted⟩
              obtain ⟨behind, begun⟩ := prefix_of_markAt? found
              have dropped : rest.drop (mark.chars.length - 1) = behind := by
                have whole := congrArg (List.drop mark.chars.length) begun
                rw [List.drop_left] at whole
                exact whole.symm
              rw [spell, render, ← spell, spelled, dropped]
              exact begun

theorem spelled_parts (argument : String) :
    spell (parts argument) = argument.toList :=
  (partsFrom_parted 0 argument.toList).1

theorem parted_parts (argument : String) : Parted (parts argument) :=
  (partsFrom_parted 0 argument.toList).2

theorem partsFrom_drop (pending : Nat) (chars : List Char) :
    partsFrom pending chars = partsFrom 0 (chars.drop pending) := by
  induction pending generalizing chars with
  | zero =>
      rfl
  | succ pending inductionHypothesis =>
      cases chars with
      | nil =>
          rfl
      | cons c rest =>
          exact inductionHypothesis rest

theorem partsFrom_chars_append (mark : Mark) (rest : List Char) :
    partsFrom 0 (mark.chars ++ rest) = .hole mark :: partsFrom 0 rest := by
  have isMark := markAt?_chars_append mark rest
  have dropped : (mark.name ++ ['}'] ++ rest).drop (mark.chars.length - 1) = rest := by
    rw [Mark.chars, List.length_cons, Nat.add_sub_cancel, List.drop_left]
  simp only [Mark.chars, List.cons_append] at isMark ⊢
  rw [partsFrom, isMark]
  dsimp only
  rw [partsFrom_drop, dropped]

/-- There is one way to take an argument apart. -/
theorem partsFrom_spell {pieces : List Part} (parted : Parted pieces) :
    partsFrom 0 (spell pieces) = pieces := by
  induction pieces with
  | nil =>
      rfl
  | cons piece pieces inductionHypothesis =>
      cases piece with
      | letter c =>
          have noMark := (markAt?_eq_none_iff _).mpr parted.1
          rw [spell, render, ← spell, partsFrom, noMark, inductionHypothesis parted.2]
      | hole mark =>
          rw [spell, render, ← spell, partsFrom_chars_append, inductionHypothesis parted]

/-! ## Filling in -/

/-- A value that no placeholder can be read into: it has no braces, and it is not
a mere word of small letters. -/
structure Solid (value : String) : Prop where
  noOpening : '{' ∉ value.toList
  noClosing : '}' ∉ value.toList
  noWord : ∃ c ∈ value.toList, isSmallLetter c = false

/-- What is written for a placeholder as long as the values of only some are known. -/
def partly (known : List Mark) (values : Mark → String) (mark : Mark) : List Char :=
  if mark ∈ known then (values mark).toList else mark.chars

/-- A placeholder whose value makes no new ones, or that is not among the parts. -/
def Harmless (values : Mark → String) (pieces : List Part) (mark : Mark) : Prop :=
  Solid (values mark) ∨ .hole mark ∉ pieces

section Filling

variable {values : Mark → String}

theorem partly_of_mem {known : List Mark} {mark : Mark} (isKnown : mark ∈ known) :
    partly known values mark = (values mark).toList :=
  if_pos isKnown

theorem partly_of_not_mem {known : List Mark} {mark : Mark} (isUnknown : mark ∉ known) :
    partly known values mark = mark.chars :=
  if_neg isUnknown

theorem partly_nil : partly [] values = Mark.chars := by
  funext mark
  exact partly_of_not_mem List.not_mem_nil

theorem partly_of_all {known : List Mark} (complete : ∀ mark, mark ∈ known) :
    partly known values = fun mark => (values mark).toList := by
  funext mark
  exact partly_of_mem (complete mark)

theorem harmless_tail {piece : Part} {pieces : List Part} {known : List Mark}
    (harmless : ∀ mark ∈ known, Harmless values (piece :: pieces) mark) :
    ∀ mark ∈ known, Harmless values pieces mark := by
  intro mark isKnown
  exact (harmless mark isKnown).imp_right (mt (List.mem_cons_of_mem piece))

theorem solid_of_harmless {mark : Mark} {pieces : List Part}
    (harmless : Harmless values (.hole mark :: pieces) mark) :
    Solid (values mark) :=
  harmless.resolve_right fun absent => absent List.mem_cons_self

/-- A word and a closing brace do not begin in front of a solid value. -/
theorem Solid.not_prefix {value : String} (solid : Solid value) {word : List Char}
    (isWord : ∀ c ∈ word, isSmallLetter c = true) (rest : List Char) :
    ¬ word ++ ['}'] <+: value.toList ++ rest := by
  intro begun
  rcases List.prefix_or_prefix_of_prefix begun (List.prefix_append _ _) with within | around
  · exact solid.noClosing (within.subset (by simp))
  · obtain ⟨c, inValue, notSmall⟩ := solid.noWord
    rcases List.mem_append.mp (around.subset inValue) with inWord | isClosing
    · rw [isWord c inWord] at notSmall
      cases notSmall
    · rw [List.mem_singleton.mp isClosing] at inValue
      exact solid.noClosing inValue

/-- The end of a placeholder that stands in a text that is partly filled in stood
there before: it can neither end in a value nor go through it. -/
theorem prefix_spell_of_prefix_render
    {known : List Mark} {pieces : List Part}
    (harmless : ∀ mark ∈ known, Harmless values pieces mark)
    {word : List Char} (isWord : ∀ c ∈ word, isSmallLetter c = true)
    (begun : word ++ ['}'] <+: render (partly known values) pieces) :
    word ++ ['}'] <+: spell pieces := by
  induction pieces generalizing word with
  | nil =>
      exact begun
  | cons piece pieces inductionHypothesis =>
      cases piece with
      | letter c =>
          rw [render] at begun
          rw [spell, render]
          cases word with
          | nil =>
              rw [List.nil_append, List.cons_prefix_cons] at begun ⊢
              exact ⟨begun.1, List.nil_prefix⟩
          | cons d word =>
              rw [List.cons_append, List.cons_prefix_cons] at begun ⊢
              refine ⟨begun.1, inductionHypothesis (harmless_tail harmless) ?_ begun.2⟩
              exact fun letter inWord => isWord letter (List.mem_cons_of_mem d inWord)
      | hole mark =>
          rw [render] at begun
          by_cases isKnown : mark ∈ known
          · rw [partly_of_mem isKnown] at begun
            have solid := solid_of_harmless (harmless mark isKnown)
            exact absurd begun (solid.not_prefix isWord _)
          · -- What begins here is a placeholder, and no letter or closing brace.
            rw [partly_of_not_mem isKnown, Mark.chars, List.cons_append] at begun
            cases word with
            | nil =>
                simp at begun
            | cons d word =>
                have small := isWord d List.mem_cons_self
                rw [List.cons_append, List.cons_prefix_cons] at begun
                rw [begun.1] at small
                cases small

/-- Where no placeholder stood in front of a character, none has come to stand. -/
theorem not_prefix_letter
    {known : List Mark} {c : Char} {pieces : List Part} (parted : Parted (.letter c :: pieces))
    (harmless : ∀ mark ∈ known, Harmless values pieces mark) (mark : Mark) :
    ¬ mark.chars <+: c :: render (partly known values) pieces := by
  intro begun
  rw [Mark.chars, List.cons_prefix_cons] at begun
  have isWord : ∀ letter ∈ mark.name, isSmallLetter letter = true :=
    fun letter inName => Mark.isSmallLetter_of_mem_name inName
  refine parted.1 mark ?_
  rw [Mark.chars, List.cons_prefix_cons]
  exact ⟨begun.1, prefix_spell_of_prefix_render harmless isWord begun.2⟩

/-- A placeholder is passed over by the replacement of another one. -/
theorem replaceFrom_other {mark other : Mark} (different : other ≠ mark)
    (replacement rest : List Char) :
    Text.replaceFrom mark.chars replacement 0 (other.chars ++ rest) =
      other.chars ++ Text.replaceFrom mark.chars replacement 0 rest := by
  have elsewhere : ¬ mark.chars <+: '{' :: (other.name ++ ['}'] ++ rest) := by
    intro begun
    exact different (Mark.eq_of_prefix begun).symm
  have absent : '{' ∉ other.name ++ ['}'] := by
    cases other <;> decide
  calc
    Text.replaceFrom mark.chars replacement 0 ('{' :: (other.name ++ ['}'] ++ rest))
    _ = '{' :: Text.replaceFrom mark.chars replacement 0 (other.name ++ ['}'] ++ rest) :=
        Text.replaceFrom_cons_of_not_prefix elsewhere
    _ = '{' :: (other.name ++ ['}'] ++ Text.replaceFrom mark.chars replacement 0 rest) :=
        congrArg _ (Text.replaceFrom_append_of_not_mem absent rest)

/-- A text after one replacement. -/
def replaced (values : Mark → String) (chars : List Char) (mark : Mark) : List Char :=
  Text.replaceFrom mark.chars (values mark).toList 0 chars

/-- One replacement fills in one more placeholder. -/
theorem replaced_render
    {known : List Mark} {pieces : List Part} (parted : Parted pieces)
    (harmless : ∀ mark ∈ known, Harmless values pieces mark) (mark : Mark) :
    replaced values (render (partly known values) pieces) mark =
      render (partly (mark :: known) values) pieces := by
  unfold replaced
  induction pieces with
  | nil =>
      rfl
  | cons piece pieces inductionHypothesis =>
      cases piece with
      | letter c =>
          have elsewhere := not_prefix_letter parted (harmless_tail harmless) mark
          rw [render, render, Text.replaceFrom_cons_of_not_prefix elsewhere,
            inductionHypothesis parted.2 (harmless_tail harmless)]
      | hole other =>
          rw [render, render, ← inductionHypothesis parted (harmless_tail harmless)]
          by_cases isKnown : other ∈ known
          · have absent := (solid_of_harmless (harmless other isKnown)).noOpening
            rw [partly_of_mem isKnown, partly_of_mem (List.mem_cons_of_mem mark isKnown)]
            exact Text.replaceFrom_append_of_not_mem absent _
          · rw [partly_of_not_mem isKnown]
            by_cases isMark : other = mark
            · subst isMark
              rw [partly_of_mem List.mem_cons_self]
              exact Text.replaceFrom_piece_append (List.cons_ne_nil _ _) _
            · have notNext : other ∉ mark :: known := by
                simp [isMark, isKnown]
              rw [partly_of_not_mem notNext]
              exact replaceFrom_other isMark _ _

/-- Replacements one after the other fill in their placeholders, as long as those
that were filled in are harmless. -/
theorem foldl_replaced
    {known : List Mark} {pieces : List Part} (parted : Parted pieces) (marks : List Mark)
    (harmless : ∀ mark ∈ marks ++ known, Harmless values pieces mark) :
    marks.foldl (replaced values) (render (partly known values) pieces) =
      render (partly (marks.reverse ++ known) values) pieces := by
  induction marks generalizing known with
  | nil =>
      rfl
  | cons mark marks inductionHypothesis =>
      have knownHarmless : ∀ other ∈ known, Harmless values pieces other := by
        intro other isKnown
        exact harmless other (List.mem_append_right _ isKnown)
      have stillHarmless : ∀ other ∈ marks ++ mark :: known, Harmless values pieces other := by
        intro other isMember
        exact harmless other (List.perm_middle.mem_iff.mp isMember)
      rw [List.foldl_cons, replaced_render parted knownHarmless,
        inductionHypothesis stillHarmless, List.reverse_cons, List.append_assoc,
        List.singleton_append]

end Filling

/-! ## Expansion -/

/-- What stands for each placeholder in one call. -/
def values (command : External) (config input : String) : Mark → String
  | .config => config
  | .input => input
  | .version => command.version
  | .filename => command.filename

theorem toList_replace_mark (values : Mark → String) (argument : String) (mark : Mark) :
    (Text.replace argument mark.text (values mark)).toList =
      replaced values argument.toList mark := by
  rw [Text.replace, String.toList_ofList, Mark.toList_text]
  rfl

/-- An argument is filled in by one replacement after the other. -/
theorem toList_expandArgument (command : External) (config input argument : String) :
    (command.expandArgument config input argument).toList =
      replaced (command.values config input)
        ([Mark.config, .input, .version].foldl (replaced (command.values config input))
          argument.toList) .filename := by
  simp only [List.foldl_cons, List.foldl_nil, ← toList_replace_mark]
  rfl

theorem not_mem_parts_of_not_contains
    {argument : String} {mark : Mark} (absent : Text.contains argument mark.text = false) :
    .hole mark ∉ parts argument := by
  intro isPart
  obtain ⟨before, after, parted⟩ := List.append_of_mem isPart
  have occurs : mark.chars <:+: argument.toList := by
    rw [← spelled_parts, parted, spell, render_append, render]
    exact ⟨spell before, spell after, List.append_assoc _ _ _⟩
  rw [Text.contains, Mark.toList_text, (Text.occursIn_iff _ _).mpr occurs] at absent
  cases absent

/-- The name of the file may be anything, since it is filled in last. -/
theorem expandArgument_eq_substitute
    {command : External} {config input argument : String}
    (harmless : ∀ mark ≠ Mark.filename,
      Harmless (command.values config input) (parts argument) mark) :
    command.expandArgument config input argument =
      substitute (command.values config input) argument := by
  have parted := parted_parts argument
  have harmlessIn : ∀ known : List Mark, .filename ∉ known →
      ∀ mark ∈ known, Harmless (command.values config input) (parts argument) mark := by
    intro known absent mark isKnown
    exact harmless mark fun isFilename => absent (isFilename ▸ isKnown)
  have complete : ∀ mark : Mark, mark ∈ [Mark.filename, .version, .input, .config] := by
    intro mark
    cases mark <;> decide
  apply String.toList_inj.mp
  calc
    (command.expandArgument config input argument).toList
    _ = replaced (command.values config input)
          ([Mark.config, .input, .version].foldl (replaced (command.values config input))
            (render (partly [] (command.values config input)) (parts argument))) .filename := by
        rw [toList_expandArgument, partly_nil, ← spell, spelled_parts]
    _ = replaced (command.values config input)
          (render (partly [.version, .input, .config] (command.values config input))
            (parts argument)) .filename := by
        rw [foldl_replaced parted _ (harmlessIn _ (by decide))]
        rfl
    _ = render (partly [.filename, .version, .input, .config] (command.values config input))
          (parts argument) :=
        replaced_render parted (harmlessIn _ (by decide)) _
    _ = (substitute (command.values config input) argument).toList := by
        rw [partly_of_all complete, substitute, String.toList_ofList]

/-- A template is expanded as if every argument were taken apart once, from left to
right, and all placeholders were filled in at the same time: the parts depend on
the argument alone, and they are the one way to spell it in which no placeholder
begins at a character that stands for itself.  The name of the file may be any
text; any other value has to be solid, unless no argument holds its placeholder. -/
theorem expansion_fills_in_at_once
    (command : External) (config input : String)
    (harmless : ∀ mark ≠ Mark.filename, Solid (command.values config input mark) ∨
      ∀ argument ∈ command.template, Text.contains argument mark.text = false) :
    command.expand config input =
        command.template.map (substitute (command.values config input)) ∧
      ∀ (argument : String) (pieces : List Part),
        spell pieces = argument.toList ∧ Parted pieces ↔ pieces = parts argument := by
  constructor
  · apply List.map_congr_left
    intro argument isArgument
    apply expandArgument_eq_substitute
    intro mark notFilename
    refine (harmless mark notFilename).imp_right fun absent => ?_
    exact not_mem_parts_of_not_contains (absent argument isArgument)
  · intro argument pieces
    constructor
    · rintro ⟨spelled, parted⟩
      rw [parts, ← spelled, partsFrom_spell parted]
    · rintro rfl
      exact ⟨spelled_parts argument, parted_parts argument⟩

/-- A value that is a mere word can complete a placeholder around it. -/
example :
    (External.custom "cat" ["\x7bfile\x7bversion\x7dname\x7d"]).expand "c" "i" =
      ["input.js"] := by
  decide

/-- A command in whose template placeholders stand inside of others.  It has no
version and does not ask for one, and its file is called like a placeholder. -/
def nestedCommand : External where
  label := "nested"
  template := ["cat", "\x7bcon\x7binput\x7dfig\x7d=\x7bconfig\x7d", "\x7b\x7bfilename\x7d\x7d"]
  filename := "\x7bconfig\x7d"

/-- Neither the inner placeholder, once it is filled in, nor the name of the file is
taken for a placeholder. -/
theorem nested_placeholders_are_filled_in_at_once :
    (∀ mark ≠ Mark.filename, Solid (nestedCommand.values "/tmp/c.json" "/tmp/in" mark) ∨
      ∀ argument ∈ nestedCommand.template, Text.contains argument mark.text = false) ∧
    nestedCommand.expand "/tmp/c.json" "/tmp/in" =
      ["cat", "\x7bcon/tmp/infig\x7d=/tmp/c.json", "\x7b\x7bconfig\x7d\x7d"] := by
  have harmless : ∀ mark ≠ Mark.filename,
      Solid (nestedCommand.values "/tmp/c.json" "/tmp/in" mark) ∨
        ∀ argument ∈ nestedCommand.template, Text.contains argument mark.text = false := by
    intro mark notFilename
    cases mark with
    | config =>
        exact Or.inl ⟨by decide, by decide, '/', by decide, by decide⟩
    | input =>
        exact Or.inl ⟨by decide, by decide, '/', by decide, by decide⟩
    | version =>
        exact Or.inr (by decide)
    | filename =>
        exact absurd rfl notFilename
  refine ⟨harmless, ?_⟩
  rw [(expansion_fills_in_at_once _ _ _ harmless).1]
  decide

end ShapeAudit.Transform.External

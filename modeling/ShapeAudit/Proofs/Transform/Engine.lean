import ShapeAudit.Transform.Engine
import ShapeAudit.Proofs.Text.Pieces

/-!
# The grammar of engine specifications

A specification is written as a name, or as a name and a version with the first
`@` between them.  The name may have blanks around it and letters of either
case, the version may not.  Reading accepts exactly these texts, finds fault
with the name before the version, and reads back what is written.
-/

namespace ShapeAudit.Transform

/-! ## Names -/

/-- Two texts that are the same but for the case of ASCII letters. -/
def SameButCase (left right : String) : Prop :=
  Text.toLowerAscii left = Text.toLowerAscii right

instance (left right : String) : Decidable (SameButCase left right) :=
  inferInstanceAs (Decidable (_ = _))

namespace Engine

theorem toLowerAscii_name (engine : Engine) :
    Text.toLowerAscii engine.name = engine.name := by
  cases engine <;> decide

theorem name_injective {first second : Engine} (same : first.name = second.name) :
    first = second := by
  revert same
  cases first <;> cases second <;> decide

theorem mem_all (engine : Engine) :
    engine ∈ all := by
  cases engine <;> decide

/-- A text that names an engine, blanks around it and the case of its letters
aside. -/
def Named (text : String) (engine : Engine) : Prop :=
  SameButCase (Text.trim text) engine.name

theorem parse_eq_ok_iff {text : String} {engine : Engine} :
    parse text = .ok engine ↔ Named text engine := by
  rw [Named, SameButCase, toLowerAscii_name, parse]
  cases found : all.find? fun engine => engine.name == Text.toLowerAscii (Text.trim text) with
  | none =>
      have notNamed := List.find?_eq_none.mp found engine (mem_all engine)
      simp only [beq_iff_eq] at notNamed
      simp only [reduceCtorEq, false_iff]
      exact Ne.symm notNamed
  | some other =>
      have isNamed : other.name = Text.toLowerAscii (Text.trim text) := by
        simpa using List.find?_some found
      rw [← isNamed, Except.ok.injEq]
      exact ⟨fun same => same ▸ rfl, name_injective⟩

theorem parse_eq_error_iff {text : String} {fault : SpecFault} :
    parse text = .error fault ↔
      (∀ engine, ¬ Named text engine) ∧
        fault = .unknownEngine (Text.toLowerAscii (Text.trim text)) := by
  cases parsed : parse text with
  | ok engine =>
      have isNamed := parse_eq_ok_iff.mp parsed
      simp only [reduceCtorEq, false_iff, not_and]
      intro noneNamed
      exact absurd isNamed (noneNamed engine)
  | error found =>
      have noneNamed : ∀ engine, ¬ Named text engine := by
        intro engine isNamed
        rw [parse_eq_ok_iff.mpr isNamed] at parsed
        cases parsed
      have isUnknown : found = .unknownEngine (Text.toLowerAscii (Text.trim text)) := by
        rw [parse] at parsed
        split at parsed
        · cases parsed
        · exact (Except.error.inj parsed).symm
      rw [Except.error.injEq, isUnknown]
      exact ⟨fun same => ⟨noneNamed, same.symm⟩, fun refused => refused.2.symm⟩

/-- What the characters of a name have in common: they are neither blank nor the
sign before a version. -/
theorem visible_of_recased
    {name : String} {engine : Engine} (recased : SameButCase name engine.name)
    {c : Char} (isMember : c ∈ name.toList) :
    Text.isBlank c = false ∧ c ≠ '@' := by
  have sameChars : name.toList.map Text.lowerAscii = engine.name.toList := by
    have sameLists := congrArg String.toList recased
    rwa [toLowerAscii_name, Text.toLowerAscii, String.toList_ofList] at sameLists
  have areLetters : ∀ small ∈ engine.name.toList, 97 ≤ small.toNat ∧ small.toNat ≤ 122 := by
    cases engine <;> simp [Engine.name]
  have isLetter : 97 ≤ (Text.lowerAscii c).toNat ∧ (Text.lowerAscii c).toNat ≤ 122 := by
    apply areLetters
    rw [← sameChars]
    exact List.mem_map_of_mem isMember
  have inRange : 65 ≤ c.toNat ∧ c.toNat ≤ 122 := by
    rw [Text.lowerAscii] at isLetter
    split at isLetter
    · rename_i isCapital
      have bounds : 65 ≤ c.toNat ∧ c.toNat ≤ 90 := by
        simp only [Bool.and_eq_true, decide_eq_true_eq] at isCapital
        exact isCapital
      omega
    · omega
  refine ⟨Text.isBlank_of_printable (by omega) (by omega), ?_⟩
  rintro rfl
  revert inRange
  decide

theorem ne_empty_of_recased
    {name : String} {engine : Engine} (recased : SameButCase name engine.name) :
    name.toList ≠ [] := by
  intro isEmpty
  have noName : name = "" := String.toList_inj.mp isEmpty
  subst noName
  revert recased
  cases engine <;> simp [SameButCase, Text.toLowerAscii, name]

/-- A name in any case, with blanks around it, names its engine. -/
theorem named_around
    {left name right : String} {engine : Engine} (leftBlank : Text.Blank left)
    (recased : SameButCase name engine.name) (rightBlank : Text.Blank right) :
    Named (left ++ name ++ right) engine := by
  have tight : Text.Tight name := by
    constructor
    · intro c isFirst
      exact (visible_of_recased recased (List.mem_of_head? isFirst)).1
    · intro c isLast
      exact (visible_of_recased recased (List.mem_of_getLast? isLast)).1
  rwa [Named, Text.trim_around leftBlank tight rightBlank]

end Engine

namespace EngineSpec

/-! ## Versions -/

/-- The texts that are versions: they begin with a digit and hold letters,
digits, points, dashes and pluses. -/
structure Version (text : String) : Prop where
  begins : ∃ first, text.toList.head? = some first ∧ Text.isAsciiDigit first = true
  holds : ∀ c ∈ text.toList,
    Text.isAsciiLetter c = true ∨ Text.isAsciiDigit c = true ∨ c = '.' ∨ c = '-' ∨ c = '+'

theorem isVersion_iff {text : String} :
    isVersion text = true ↔ Version text := by
  rw [isVersion]
  constructor
  · intro isVersion
    cases chars : text.toList with
    | nil =>
        simp [chars] at isVersion
    | cons first rest =>
        simp only [chars, Bool.and_eq_true, List.all_eq_true] at isVersion
        refine ⟨⟨first, by rw [chars]; rfl, isVersion.1⟩, ?_⟩
        intro c isMember
        rw [chars] at isMember
        simpa [isVersionChar, or_assoc] using isVersion.2 c isMember
  · rintro ⟨⟨first, isFirst, isDigit⟩, holds⟩
    obtain ⟨rest, chars⟩ := List.head?_eq_some_iff.mp isFirst
    rw [chars] at holds ⊢
    simp only [isDigit, Bool.true_and, List.all_eq_true]
    intro c isMember
    simpa [isVersionChar, or_assoc] using holds c isMember

theorem version_default (engine : Engine) :
    Version engine.defaultVersion := by
  rw [← isVersion_iff]
  cases engine <;> decide

theorem Version.visible {text : String} (isVersion : Version text) {c : Char}
    (isMember : c ∈ text.toList) :
    Text.isBlank c = false := by
  have inRange : 43 ≤ c.toNat ∧ c.toNat ≤ 122 := by
    have bounds := isVersion.holds c isMember
    simp only [Text.isAsciiLetter, Text.isAsciiDigit, Bool.or_eq_true, Bool.and_eq_true,
      decide_eq_true_eq] at bounds
    rcases bounds with (⟨low, high⟩ | ⟨low, high⟩) | ⟨low, high⟩ | rfl | rfl | rfl
    · have low : 97 ≤ c.toNat := low
      exact ⟨by omega, high⟩
    · have low : 65 ≤ c.toNat := low
      have high : c.toNat ≤ 90 := high
      omega
    · have low : 48 ≤ c.toNat := low
      have high : c.toNat ≤ 57 := high
      omega
    · decide
    · decide
    · decide
  exact Text.isBlank_of_printable (by omega) (by omega)

/-! ## Specifications -/

/-- What a text means that has no blanks at its ends: a name alone means the
usual version of its engine, and a name before the first `@` the version behind
it. -/
inductive Written : String → EngineSpec → Prop
  | bare {name : String} {engine : Engine} :
      '@' ∉ name.toList →
      Engine.Named name engine →
      Written name ⟨engine, engine.defaultVersion⟩
  | versioned {name version : String} {engine : Engine} :
      '@' ∉ name.toList →
      Engine.Named name engine →
      Version version →
      Written (name ++ "@" ++ version) ⟨engine, version⟩

/-- What is wrong with a text that has no blanks at its ends.  A name that is
unknown is the fault whatever stands behind it. -/
inductive Refused : String → SpecFault → Prop
  | name {name rest : String} :
      '@' ∉ name.toList →
      rest = "" ∨ (∃ version, rest = "@" ++ version) →
      (∀ engine, ¬ Engine.Named name engine) →
      Refused (name ++ rest) (.unknownEngine (Text.toLowerAscii (Text.trim name)))
  | version {name version : String} {engine : Engine} :
      '@' ∉ name.toList →
      Engine.Named name engine →
      ¬ Version version →
      Refused (name ++ "@" ++ version) (.invalidVersion version)

/-! ### Reading by the parts of the trimmed text -/

theorem parse_of_bare {text : String} (noSign : '@' ∉ (Text.trim text).toList) :
    parse text = (Engine.parse (Text.trim text)).bind fun engine =>
      .ok ⟨engine, engine.defaultVersion⟩ := by
  rw [parse, Text.splitOnce?_of_not_mem noSign]
  rfl

theorem parse_of_versioned
    {text name version : String} (noSign : '@' ∉ name.toList)
    (parted : Text.trim text = name ++ "@" ++ version) :
    parse text = (Engine.parse name).bind fun engine =>
      if isVersion version then .ok ⟨engine, version⟩ else .error (.invalidVersion version) := by
  have partedChars : (Text.trim text).toList = name.toList ++ '@' :: version.toList := by
    rw [parted]
    simp
  rw [parse, Text.splitOnce?_of_first noSign partedChars]
  rfl

theorem parse_of_written {text : String} {spec : EngineSpec}
    (written : Written (Text.trim text) spec) :
    parse text = .ok spec := by
  generalize isTrimmed : Text.trim text = trimmed at written
  cases written with
  | bare noSign named =>
      subst isTrimmed
      rw [parse_of_bare noSign, Engine.parse_eq_ok_iff.mpr named]
      rfl
  | versioned noSign named isVersion =>
      rw [parse_of_versioned noSign isTrimmed, Engine.parse_eq_ok_iff.mpr named]
      simp [Except.bind, isVersion_iff.mpr isVersion]

theorem parse_of_refused {text : String} {fault : SpecFault}
    (refused : Refused (Text.trim text) fault) :
    parse text = .error fault := by
  generalize isTrimmed : Text.trim text = trimmed at refused
  cases refused with
  | @name name rest noSign isRest unknown =>
      have isUnknown := Engine.parse_eq_error_iff.mpr ⟨unknown, rfl⟩
      rcases isRest with rfl | ⟨version, rfl⟩
      · rw [String.append_empty] at isTrimmed
        subst isTrimmed
        rw [parse_of_bare noSign, isUnknown]
        rfl
      · rw [← String.append_assoc] at isTrimmed
        rw [parse_of_versioned noSign isTrimmed, isUnknown]
        rfl
  | version noSign named notVersion =>
      rw [parse_of_versioned noSign isTrimmed, Engine.parse_eq_ok_iff.mpr named]
      simp [Except.bind, mt isVersion_iff.mp notVersion]

/-- Every text without blanks at its ends is written by the grammar or refused. -/
theorem written_or_refused (text : String) :
    (∃ spec, Written text spec) ∨ ∃ fault, Refused text fault := by
  by_cases hasSign : '@' ∈ text.toList
  · obtain ⟨name, version, noSign, parted⟩ := Text.exists_first hasSign
    have isText : text = name ++ "@" ++ version := by
      apply String.toList_inj.mp
      rw [parted]
      simp
    subst isText
    by_cases named : ∃ engine, Engine.Named name engine
    · obtain ⟨engine, named⟩ := named
      by_cases isVersion : Version version
      · exact Or.inl ⟨_, .versioned noSign named isVersion⟩
      · exact Or.inr ⟨_, .version noSign named isVersion⟩
    · rw [String.append_assoc]
      exact Or.inr ⟨_, .name noSign (Or.inr ⟨version, rfl⟩) (not_exists.mp named)⟩
  · by_cases named : ∃ engine, Engine.Named text engine
    · obtain ⟨engine, named⟩ := named
      exact Or.inl ⟨_, .bare hasSign named⟩
    · have refused := Refused.name hasSign (Or.inl rfl) (not_exists.mp named)
      rw [String.append_empty] at refused
      exact Or.inr ⟨_, refused⟩

theorem parse_eq_ok_iff {text : String} {spec : EngineSpec} :
    parse text = .ok spec ↔ Written (Text.trim text) spec := by
  refine ⟨?_, parse_of_written⟩
  intro parsed
  rcases written_or_refused (Text.trim text) with ⟨other, written⟩ | ⟨fault, refused⟩
  · rw [parse_of_written written] at parsed
    rwa [← Except.ok.inj parsed]
  · rw [parse_of_refused refused] at parsed
    cases parsed

theorem parse_eq_error_iff {text : String} {fault : SpecFault} :
    parse text = .error fault ↔ Refused (Text.trim text) fault := by
  refine ⟨?_, parse_of_refused⟩
  intro parsed
  rcases written_or_refused (Text.trim text) with ⟨spec, written⟩ | ⟨other, refused⟩
  · rw [parse_of_written written] at parsed
    cases parsed
  · rw [parse_of_refused refused] at parsed
    rwa [← Except.error.inj parsed]

/-! ## Reading back -/

theorem Written.version {text : String} {spec : EngineSpec} (written : Written text spec) :
    Version spec.version := by
  cases written with
  | bare noSign named =>
      exact version_default _
  | versioned noSign named isVersion =>
      exact isVersion

/-- A specification is read back from its name in any case and its version, with
blanks anywhere but around the version. -/
theorem parse_recased
    {left name inner right : String} {spec : EngineSpec} (isVersion : Version spec.version)
    (leftBlank : Text.Blank left) (recased : SameButCase name spec.engine.name)
    (innerBlank : Text.Blank inner) (rightBlank : Text.Blank right) :
    parse (left ++ (name ++ inner ++ "@" ++ spec.version) ++ right) = .ok spec := by
  have tight : Text.Tight (name ++ inner ++ "@" ++ spec.version) := by
    constructor
    · intro c isFirst
      obtain ⟨first, rest, chars⟩ :=
        List.exists_cons_of_ne_nil (Engine.ne_empty_of_recased recased)
      have isC : first = c := by
        simpa [chars] using isFirst
      rw [← isC]
      exact (Engine.visible_of_recased recased (chars ▸ List.mem_cons_self)).1
    · intro c isLast
      obtain ⟨first, isFirst, -⟩ := isVersion.begins
      obtain ⟨rest, chars⟩ := List.head?_eq_some_iff.mp isFirst
      have isLastOfVersion : spec.version.toList.getLast? = some c := by
        rw [String.toList_append, List.getLast?_append, chars, List.getLast?_cons,
          Option.some_or] at isLast
        rwa [chars, List.getLast?_cons]
      exact isVersion.visible (List.mem_of_getLast? isLastOfVersion)
  have noSign : '@' ∉ (name ++ inner).toList := by
    rw [String.toList_append, List.mem_append]
    rintro (inName | inBlanks)
    · exact (Engine.visible_of_recased recased inName).2 rfl
    · exact absurd (innerBlank '@' inBlanks) (by decide)
  have named : Engine.Named (name ++ inner) spec.engine := by
    have nothingBlank : Text.Blank "" := by
      simp [Text.Blank]
    have around := Engine.named_around nothingBlank recased innerBlank
    rwa [String.empty_append] at around
  apply parse_of_written
  rw [Text.trim_around leftBlank tight rightBlank]
  exact Written.versioned noSign named isVersion

/-- Reading accepts exactly the written specifications, and finds the fault of
every other text; an unknown name is found before a version that is none.
Blanks around a text make no difference, and what has been read is read again
from its text, and from its name in any case with blanks beside it. -/
theorem specifications_are_read_by_their_grammar (text : String) :
    (∀ spec, parse text = .ok spec ↔ Written (Text.trim text) spec) ∧
    (∀ fault, parse text = .error fault ↔ Refused (Text.trim text) fault) ∧
    (∀ left right, Text.Blank left → Text.Blank right →
      parse (left ++ text ++ right) = parse text) ∧
    ∀ spec, parse text = .ok spec →
      parse spec.text = .ok spec ∧
      ∀ left name inner right, Text.Blank left → SameButCase name spec.engine.name →
        Text.Blank inner → Text.Blank right →
        parse (left ++ (name ++ inner ++ "@" ++ spec.version) ++ right) = .ok spec := by
  refine ⟨fun spec => parse_eq_ok_iff, fun fault => parse_eq_error_iff, ?_, ?_⟩
  · intro left right leftBlank rightBlank
    have sameCore := Text.trim_of_surrounded leftBlank text rightBlank
    rw [parse, parse, sameCore]
  · intro spec parsed
    have isVersion : Version spec.version := (parse_eq_ok_iff.mp parsed).version
    have readsBack : ∀ left name inner right, Text.Blank left →
        SameButCase name spec.engine.name → Text.Blank inner → Text.Blank right →
        parse (left ++ (name ++ inner ++ "@" ++ spec.version) ++ right) = .ok spec := by
      intro left name inner right leftBlank recased innerBlank rightBlank
      exact parse_recased isVersion leftBlank recased innerBlank rightBlank
    refine ⟨?_, readsBack⟩
    have plain := readsBack "" spec.engine.name "" "" (by decide) rfl (by decide) (by decide)
    rwa [String.empty_append, String.append_empty, String.append_empty] at plain

theorem recased_terser_is_read_back :
    parse "\u3000TerSer @5.0.0-rc.1+b\n" = .ok ⟨.terser, "5.0.0-rc.1+b"⟩ ∧
      parse ("\t" ++ ("tERSER" ++ "\u2003" ++ "@" ++ "5.0.0-rc.1+b") ++ " ") =
        .ok ⟨.terser, "5.0.0-rc.1+b"⟩ := by
  have parsed : parse "\u3000TerSer @5.0.0-rc.1+b\n" = .ok ⟨.terser, "5.0.0-rc.1+b"⟩ := by
    rfl
  have readsBack := ((specifications_are_read_by_their_grammar _).2.2.2 _ parsed).2
  exact ⟨parsed, readsBack "\t" "tERSER" "\u2003" " " (by decide) (by decide) (by decide)
    (by decide)⟩

end EngineSpec

end ShapeAudit.Transform

import Mathlib.Data.List.Pairwise
import ShapeAudit.Proofs.Files.Collect
import ShapeAudit.Proofs.Files.Trail

/-!
# One file under several spellings

Collected paths are told apart by their components, files by the names that lead
to them.  In a tree without links a file is collected twice exactly if two of the
given paths lead to it, or to folders above it, and do not spell the way alike.
-/

namespace ShapeAudit.Files

/-! ## Files and the paths that name them -/

/-- A path leads to where names lead. -/
def LeadsTo (storage : Storage) (path : String) (names : List String) : Prop :=
  ∃ entry, storage.locate true path = .ok (.taken names entry)

/-- Two paths name the same file. -/
def SameFile (storage : Storage) (left right : String) : Prop :=
  ∃ names content, storage.locate true left = .ok (.taken names (.file content)) ∧
    storage.locate true right = .ok (.taken names (.file content))

/-- No two paths of a list name the same file. -/
def EachOnce (storage : Storage) (paths : List String) : Prop :=
  paths.Pairwise fun left right => ¬ SameFile storage left right

/-- Names lead to a script. -/
def ScriptAt (storage : Storage) (names : List String) : Prop :=
  (∃ content, storage.root.at? names = some (.file content)) ∧
    ∃ name, names.getLast? = some name ∧ HasExtension name "js"

/-- Names lead on to a script from where a path leads. -/
structure ScriptBehind (storage : Storage) (path : String) (names rest : List String) : Prop where
  leads : LeadsTo storage path names
  isScript : ScriptAt storage (names ++ rest)

/-- Of two paths that lead to the same script or above it, the one that leads
further is spelled as the other one with the names between them. -/
def SpelledAlike (storage : Storage) (paths : List String) : Prop :=
  ∀ upper ∈ paths, ∀ lower ∈ paths, ∀ names between rest,
    ScriptBehind storage upper names (between ++ rest) →
    ScriptBehind storage lower (names ++ between) rest →
    components lower = components upper ++ between

theorem SameFile.symm
    {storage : Storage} {left right : String} (same : SameFile storage left right) :
    SameFile storage right left := by
  obtain ⟨names, content, isLeft, isRight⟩ := same
  exact ⟨names, content, isRight, isLeft⟩

instance (storage : Storage) : Std.Symm fun left right => ¬ SameFile storage left right :=
  ⟨fun _ _ apart same => apart same.symm⟩

/-- A tree in order, without links. -/
structure PlainTree (storage : Storage) : Prop where
  grounded : storage.Grounded
  wellFormed : storage.root.WellFormed
  linkFree : storage.root.LinkFree

section Plain

variable {storage : Storage} (isPlain : PlainTree storage)

include isPlain

/-! ## Going along a path -/

theorem at?_of_locate
    {path : String} {names : List String} {entry : Entry}
    (located : storage.locate true path = .ok (.taken names entry)) :
    storage.root.at? names = some entry :=
  Storage.locate_fits isPlain.grounded located

/-- The components of a path tell where it leads. -/
theorem LeadsTo.eq_trail
    {path : String} {names : List String} (leads : LeadsTo storage path names) :
    names = trail storage.here (components path) := by
  obtain ⟨entry, located⟩ := leads
  obtain ⟨somePath, isOk⟩ := isPlain.linkFree.stride_of_locate located
  rw [← trail_components somePath]
  exact (Entry.strides_of_stride isOk).names_eq

theorem locate_child
    {path name : String} {names : List String} {entries : List (String × Entry)} {next : Entry}
    (located : storage.locate true path = .ok (.taken names (.folder entries)))
    (stands : storage.root.at? (names ++ [name]) = some next) :
    storage.locate true (child path name) = .ok (.taken (names ++ [name]) next) := by
  have isName : IsName name := (isPlain.wellFormed.at? stands).2 name (by simp)
  obtain ⟨somePath, isOk⟩ := isPlain.linkFree.stride_of_locate located
  obtain ⟨front, last, stays, areSteps, childSteps⟩ := steps_child somePath isName
  rw [areSteps] at isOk
  apply Entry.locate_of_stride (child_ne_empty isName.ne_empty path)
  have sameOutset : Entry.outset storage.here.reverse (child path name) =
      Entry.outset storage.here.reverse path := by
    rw [Entry.outset, Entry.outset, isAbsolute_child somePath]
  have standsThere : storage.root.at? (name :: names.reverse).reverse = some next := by
    rwa [List.reverse_cons, List.reverse_reverse]
  rw [sameOutset, childSteps, Entry.stride_append stays isOk,
    Entry.stride_cons storage.root names.reverse [] isName.ne_here isName.ne_up, standsThere]
  cases next with
  | folder others =>
      simp [Entry.stride, stands]
  | file content =>
      simp
  | link target =>
      exact absurd stands (isPlain.linkFree _ target)

/-- Behind a path names lead on from where it leads. -/
theorem locate_extend
    {path : String} {names more : List String} {entry : Entry} (leads : LeadsTo storage path names)
    (stands : storage.root.at? (names ++ more) = some entry) :
    storage.locate true (extend path more) = .ok (.taken (names ++ more) entry) := by
  induction more generalizing path names with
  | nil =>
      obtain ⟨other, located⟩ := leads
      rw [List.append_nil] at stands ⊢
      have isEntry := (at?_of_locate isPlain located).symm.trans stands
      rw [extend, List.foldl_nil, located, Option.some.inj isEntry]
  | cons name rest inductionHypothesis =>
      obtain ⟨other, located⟩ := leads
      rw [List.append_cons] at stands ⊢
      obtain ⟨next, isNext, -⟩ :=
        Option.bind_eq_some_iff.mp ((Entry.at?_append _ _ storage.root).symm.trans stands)
      have isChild := isNext
      rw [Entry.at?_snoc, at?_of_locate isPlain located] at isChild
      obtain ⟨entries, rfl, -⟩ := Entry.eq_folder_of_child? isChild
      exact inductionHypothesis ⟨next, locate_child isPlain located isNext⟩ stands

theorem last_component_of_file
    {path : String} {names : List String} {content : List UInt8}
    (located : storage.locate true path = .ok (.taken names (.file content))) :
    (components path).getLast? = names.getLast? := by
  obtain ⟨-, isOk⟩ := isPlain.linkFree.stride_of_locate located
  obtain ⟨entries, isFolder⟩ := isPlain.grounded.outset path
  obtain ⟨front, name, areSteps, notHere, isLast⟩ :=
    (Entry.strides_of_stride isOk).last_step isFolder
  obtain ⟨before, last, parts⟩ := exists_splitAt path
  have someLast : last ≠ "" := by
    rintro rfl
    have endsHere := areSteps.symm.trans (steps_of_closed parts)
    exact notHere (List.append_singleton_inj.mp endsHere).2
  have endsThere := areSteps.symm.trans (steps_of_open someLast parts)
  obtain ⟨-, rfl⟩ := List.append_singleton_inj.mp endsThere
  rw [isLast, components_getLast? someLast notHere parts]

/-! ## Scripts behind a path -/

theorem ScriptBehind.locate
    {path : String} {names rest : List String} (isBehind : ScriptBehind storage path names rest) :
    ∃ content,
      storage.locate true (extend path rest) = .ok (.taken (names ++ rest) (.file content)) := by
  obtain ⟨content, isFile⟩ := isBehind.isScript.1
  exact ⟨content, locate_extend isPlain isBehind.leads isFile⟩

theorem ScriptBehind.components_eq
    {path : String} {names rest : List String} (isBehind : ScriptBehind storage path names rest) :
    components (extend path rest) = components path ++ rest := by
  obtain ⟨content, isFile⟩ := isBehind.isScript.1
  obtain ⟨entry, located⟩ := isBehind.leads
  have areNames := (isPlain.wellFormed.at? isFile).2
  apply components_extend (Storage.walk_of_locate located).1
  intro name isMember
  exact areNames name (List.mem_append_right names isMember)

/-- Behind a file there is only the file. -/
theorem scriptBehind_file_iff
    {path : String} {content : List UInt8} (isFile : storage.status path = .ok (.file content))
    {rest : List String} :
    (∃ names, ScriptBehind storage path names rest) ↔ rest = [] ∧ PathHasExtension path "js" := by
  obtain ⟨names, located⟩ := Storage.exists_locate_of_status isFile
  have stands := at?_of_locate isPlain located
  have sameEnd := last_component_of_file isPlain located
  constructor
  · rintro ⟨others, ⟨entry, alsoLocated⟩, ⟨final, isFinal⟩, name, isLast, hasExtension⟩
    cases located.symm.trans alsoLocated
    rw [Entry.at?_append, stands] at isFinal
    cases rest with
    | nil =>
        rw [List.append_nil] at isLast
        exact ⟨rfl, name, sameEnd.trans isLast, hasExtension⟩
    | cons next others =>
        cases isFinal
  · rintro ⟨rfl, name, isLast, hasExtension⟩
    refine ⟨names, ⟨_, located⟩, ?_⟩
    rw [List.append_nil]
    exact ⟨⟨content, stands⟩, name, sameEnd.symm.trans isLast, hasExtension⟩

theorem scriptBehind_folder_iff
    {path : String} {entries : List (String × Entry)}
    (isFolder : storage.status path = .ok (.folder entries)) {relatives : List (List String)}
    (listed : (Entry.folder entries).ListsScripts relatives) {rest : List String} :
    (∃ names, ScriptBehind storage path names rest) ↔ rest ∈ relatives := by
  obtain ⟨names, located⟩ := Storage.exists_locate_of_status isFolder
  have stands := at?_of_locate isPlain located
  have isScript_iff : ScriptAt storage (names ++ rest) ↔ rest ∈ relatives := by
    rw [listed.mem_iff, ScriptAt, Entry.at?_append, stands]
    apply and_congr_right
    rintro ⟨content, isFile⟩
    have someRest : rest ≠ [] := by
      rintro rfl
      cases isFile
    rw [List.getLast?_append, List.getLast?_eq_some_getLast someRest, Option.some_or]
  constructor
  · rintro ⟨others, ⟨entry, alsoLocated⟩, isScript⟩
    cases located.symm.trans alsoLocated
    exact isScript_iff.mp isScript
  · intro isListed
    exact ⟨names, ⟨_, located⟩, isScript_iff.mpr isListed⟩

theorem Expansion.mem_iff
    {path : String} {expansion : List String} (isExpansion : Expansion storage path expansion)
    {found : String} :
    found ∈ expansion ↔
      ∃ rest, (∃ names, ScriptBehind storage path names rest) ∧ found = extend path rest := by
  cases isExpansion with
  | script isFile hasExtension =>
      simp only [scriptBehind_file_iff isPlain isFile, hasExtension, and_true,
        List.mem_singleton, exists_eq_left]
      rfl
  | other isFile noExtension =>
      simp [scriptBehind_file_iff isPlain isFile, noExtension]
  | folder isFolder listed =>
      simp only [scriptBehind_folder_iff isPlain isFolder listed, List.mem_map, eq_comm]

/-! ## Collected paths -/

/-- Of everything that is collected it is known behind which of the given paths it
is, and for each script behind one of them a path of its components is kept. -/
structure Collected (storage : Storage) (paths found : List String) : Prop where
  behind : ∀ one ∈ found, ∃ path ∈ paths, ∃ names rest,
    ScriptBehind storage path names rest ∧ one = extend path rest
  kept : ∀ path ∈ paths, ∀ names rest, ScriptBehind storage path names rest →
    ∃ one ∈ found, components one = components (extend path rest)
  apart : found.Pairwise fun left right => components left ≠ components right

theorem mem_flatten_iff
    {paths : List String} {expansions : List (List String)}
    (areExpansions : List.Forall₂ (Expansion storage) paths expansions) {found : String} :
    found ∈ expansions.flatten ↔ ∃ path ∈ paths, ∃ rest,
      (∃ names, ScriptBehind storage path names rest) ∧ found = extend path rest := by
  induction areExpansions with
  | nil =>
      simp
  | cons isExpansion _ inductionHypothesis =>
      rw [List.flatten_cons, List.mem_append, inductionHypothesis,
        isExpansion.mem_iff isPlain, List.exists_mem_cons_iff]

theorem collected_of_collect
    {paths found : List String} (gathered : collect storage paths = .ok found) :
    Collected storage paths found := by
  rcases mapM_expand_cases isPlain.grounded isPlain.wellFormed paths with
    ⟨-, expansions, areExpansions, expanded⟩ | ⟨-, -, -, fault, -, -, -, failed⟩
  · have areKept : firstOccurrences [] expansions.flatten = found := by
      rw [firstOccurrences_nil]
      exact Except.ok.inj ((collect_of_mapM expanded).symm.trans gathered)
    subst areKept
    refine ⟨?_, ?_, ?_⟩
    · intro one isKept
      obtain ⟨path, isGiven, rest, ⟨names, isBehind⟩, isExtended⟩ :=
        (mem_flatten_iff isPlain areExpansions).mp (mem_of_mem_firstOccurrences isKept)
      exact ⟨path, isGiven, names, rest, isBehind, isExtended⟩
    · intro path isGiven names rest isBehind
      apply exists_mem_firstOccurrences
      · exact (mem_flatten_iff isPlain areExpansions).mpr
          ⟨path, isGiven, rest, ⟨names, isBehind⟩, rfl⟩
      · exact List.not_mem_nil
    · exact List.pairwise_map.mp (firstOccurrences_apart expansions.flatten []).1
  · simp [collect, failed, bind, Except.bind] at gathered

theorem Collected.locate
    {paths found : List String} (isCollected : Collected storage paths found) {one : String}
    (isFound : one ∈ found) :
    ∃ content, storage.locate true one =
      .ok (.taken (trail storage.here (components one)) (.file content)) := by
  obtain ⟨path, -, names, rest, isBehind, rfl⟩ := isCollected.behind one isFound
  obtain ⟨content, located⟩ := isBehind.locate isPlain
  have isTrail := LeadsTo.eq_trail isPlain ⟨_, located⟩
  exact ⟨content, isTrail ▸ located⟩

theorem Collected.spelledAlike
    {paths found : List String} (isCollected : Collected storage paths found)
    (eachOnce : EachOnce storage found) :
    SpelledAlike storage paths := by
  intro upper upperGiven lower lowerGiven names between rest behindUpper behindLower
  obtain ⟨first, firstFound, likeUpper⟩ := isCollected.kept upper upperGiven _ _ behindUpper
  obtain ⟨second, secondFound, likeLower⟩ := isCollected.kept lower lowerGiven _ _ behindLower
  obtain ⟨upperContent, upperLocated⟩ := behindUpper.locate isPlain
  obtain ⟨lowerContent, lowerLocated⟩ := behindLower.locate isPlain
  -- both kept paths lead to the script, so they name one file and are one path
  have sameTrail : trail storage.here (components first) =
      trail storage.here (components second) := by
    calc trail storage.here (components first)
        = names ++ (between ++ rest) := by
          rw [likeUpper, ← LeadsTo.eq_trail isPlain ⟨_, upperLocated⟩]
      _ = names ++ between ++ rest := (List.append_assoc names between rest).symm
      _ = trail storage.here (components second) := by
          rw [likeLower, ← LeadsTo.eq_trail isPlain ⟨_, lowerLocated⟩]
  obtain ⟨firstContent, firstLocated⟩ := isCollected.locate isPlain firstFound
  obtain ⟨secondContent, secondLocated⟩ := isCollected.locate isPlain secondFound
  rw [sameTrail] at firstLocated
  have sameEntry := (at?_of_locate isPlain firstLocated).symm.trans
    (at?_of_locate isPlain secondLocated)
  have sameFile : SameFile storage first second := by
    refine ⟨_, firstContent, firstLocated, ?_⟩
    rw [secondLocated, Option.some.inj sameEntry]
  have isSame : first = second := by
    by_contra different
    exact List.Pairwise.forall eachOnce firstFound secondFound different sameFile
  have sameComponents := likeUpper.symm.trans ((congrArg components isSame).trans likeLower)
  rw [behindUpper.components_eq isPlain, behindLower.components_eq isPlain,
    ← List.append_assoc] at sameComponents
  exact (List.append_cancel_right sameComponents).symm

theorem SpelledAlike.components_eq
    {paths : List String} (spelledAlike : SpelledAlike storage paths)
    {left right : String} (leftGiven : left ∈ paths) (rightGiven : right ∈ paths)
    {leftNames leftRest rightNames rightRest : List String}
    (behindLeft : ScriptBehind storage left leftNames leftRest)
    (behindRight : ScriptBehind storage right rightNames rightRest)
    (sameNames : leftNames ++ leftRest = rightNames ++ rightRest) :
    components (extend left leftRest) = components (extend right rightRest) := by
  rw [behindLeft.components_eq isPlain, behindRight.components_eq isPlain]
  rcases List.append_eq_append_iff.mp sameNames with
    ⟨between, rfl, rfl⟩ | ⟨between, rfl, rfl⟩
  · rw [spelledAlike left leftGiven right rightGiven _ _ _ behindLeft behindRight,
      List.append_assoc]
  · rw [spelledAlike right rightGiven left leftGiven _ _ _ behindRight behindLeft,
      List.append_assoc]

theorem Collected.eachOnce
    {paths found : List String} (isCollected : Collected storage paths found)
    (spelledAlike : SpelledAlike storage paths) :
    EachOnce storage found := by
  apply isCollected.apart.imp_of_mem
  rintro first second firstFound secondFound apart ⟨names, content, isFirst, isSecond⟩
  obtain ⟨left, leftGiven, leftNames, leftRest, behindLeft, rfl⟩ :=
    isCollected.behind first firstFound
  obtain ⟨right, rightGiven, rightNames, rightRest, behindRight, rfl⟩ :=
    isCollected.behind second secondFound
  obtain ⟨leftContent, leftLocated⟩ := behindLeft.locate isPlain
  obtain ⟨rightContent, rightLocated⟩ := behindRight.locate isPlain
  have sameNames : leftNames ++ leftRest = rightNames ++ rightRest := by
    have leftNamed := leftLocated.symm.trans isFirst
    have rightNamed := rightLocated.symm.trans isSecond
    simp only [Except.ok.injEq, Entry.Spot.taken.injEq] at leftNamed rightNamed
    exact leftNamed.1.trans rightNamed.1.symm
  exact apart (spelledAlike.components_eq isPlain leftGiven rightGiven behindLeft behindRight
    sameNames)

/-- Without steps that go nowhere or back there is one spelling only, from the
working folder and from the root. -/
theorem spelledAlike_of_names
    {paths : List String}
    (areNames : ∀ path ∈ paths, "." ∉ components path ∧ ".." ∉ components path)
    (beginAlike : ∀ path ∈ paths, ∀ other ∈ paths, isAbsolute path = isAbsolute other) :
    SpelledAlike storage paths := by
  intro upper upperGiven lower lowerGiven names between rest behindUpper behindLower
  obtain ⟨upperEntry, upperLocated⟩ := behindUpper.leads
  obtain ⟨lowerEntry, lowerLocated⟩ := behindLower.leads
  have isUpper := behindUpper.leads.eq_trail isPlain
  have isLower := behindLower.leads.eq_trail isPlain
  rw [trail_of_plain (areNames upper upperGiven).1 (areNames upper upperGiven).2] at isUpper
  rw [trail_of_plain (areNames lower lowerGiven).1 (areNames lower lowerGiven).2] at isLower
  have upperHead := head?_components_iff (Storage.walk_of_locate upperLocated).1
  have lowerHead := head?_components_iff (Storage.walk_of_locate lowerLocated).1
  rw [beginAlike lower lowerGiven upper upperGiven, ← upperHead] at lowerHead
  by_cases fromRoot : (components upper).head? = some "/"
  · rw [if_pos fromRoot] at isUpper
    rw [if_pos (lowerHead.mpr fromRoot), isUpper] at isLower
    rw [List.eq_cons_of_mem_head? (lowerHead.mpr fromRoot), ← isLower, ← List.cons_append,
      ← List.eq_cons_of_mem_head? fromRoot]
  · rw [if_neg fromRoot] at isUpper
    rw [if_neg (mt lowerHead.mp fromRoot), isUpper, List.append_assoc] at isLower
    exact (List.append_cancel_left isLower).symm

/-- In a tree without links each file is collected once exactly if the given paths
are spelled alike where they lead to the same scripts, so always where no path has
a step `.` in front or a step `..` and all begin in the same folder. -/
theorem each_file_is_collected_once_iff
    {paths found : List String} (gathered : collect storage paths = .ok found) :
    (EachOnce storage found ↔ SpelledAlike storage paths) ∧
      ((∀ path ∈ paths, "." ∉ components path ∧ ".." ∉ components path) →
        (∀ path ∈ paths, ∀ other ∈ paths, isAbsolute path = isAbsolute other) →
        EachOnce storage found) := by
  have isCollected := collected_of_collect isPlain gathered
  refine ⟨⟨isCollected.spelledAlike isPlain, isCollected.eachOnce isPlain⟩, ?_⟩
  intro areNames beginAlike
  exact isCollected.eachOnce isPlain (spelledAlike_of_names isPlain areNames beginAlike)

end Plain

/-- Two scripts, one of them in a folder. -/
def twoScripts : Storage :=
  { root := .folder [("a.js", .file [120, 59]), ("lib", .folder [("c.js", .file [120, 59])])] }

theorem twoScripts_isPlain : PlainTree twoScripts := by
  have innerFormed : (Entry.folder [("c.js", .file [120, 59])]).WellFormed :=
    .folder (by decide) (by decide) (by simp [Entry.WellFormed.file])
  have innerLinkFree : (Entry.folder [("c.js", .file [120, 59])]).LinkFree :=
    Entry.linkFree_folder (by simp [Entry.linkFree_file])
  refine ⟨⟨_, rfl⟩, ?_, ?_⟩
  · exact .folder (by decide) (by decide) (by simp [Entry.WellFormed.file, innerFormed])
  · exact Entry.linkFree_folder (by simp [Entry.linkFree_file, innerLinkFree])

theorem overlapping_paths_are_collected_once :
    collect twoScripts ["lib/c.js", "lib", "a.js"] = .ok ["lib/c.js", "a.js"] ∧
      EachOnce twoScripts ["lib/c.js", "a.js"] := by
  have gathered : collect twoScripts ["lib/c.js", "lib", "a.js"] = .ok ["lib/c.js", "a.js"] := by
    decide +kernel
  exact ⟨gathered, (each_file_is_collected_once_iff twoScripts_isPlain gathered).2 (by decide)
    (by decide)⟩

theorem dotted_path_is_collected_again :
    PlainTree twoScripts ∧
      collect twoScripts ["a.js", "./a.js"] = .ok ["a.js", "./a.js"] ∧
      SameFile twoScripts "a.js" "./a.js" ∧ ¬ EachOnce twoScripts ["a.js", "./a.js"] := by
  have isScript : twoScripts.root.at? ["a.js"] = some (.file [120, 59]) := by
    rfl
  have sameFile : SameFile twoScripts "a.js" "./a.js" := by
    refine ⟨["a.js"], [120, 59], ?_, ?_⟩
    · apply Entry.locate_of_stride (by decide)
      have areSteps : steps "a.js" = ["a.js"] := by
        decide
      have isHere : Entry.outset twoScripts.here.reverse "a.js" = [] := by
        decide
      rw [areSteps, isHere, Entry.stride_cons _ _ _ (by decide) (by decide)]
      simp [isScript]
    · apply Entry.locate_of_stride (by decide)
      have areSteps : steps "./a.js" = [".", "a.js"] := by
        decide
      have isHere : Entry.outset twoScripts.here.reverse "./a.js" = [] := by
        decide
      rw [areSteps, isHere, Entry.stride, if_pos rfl,
        Entry.stride_cons _ _ _ (by decide) (by decide)]
      simp [isScript]
  refine ⟨twoScripts_isPlain, by decide +kernel, sameFile, ?_⟩
  intro eachOnce
  exact (List.pairwise_pair.mp eachOnce) sameFile

end ShapeAudit.Files

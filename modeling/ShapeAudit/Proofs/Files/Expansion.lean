import Mathlib.Data.List.Forall2
import ShapeAudit.Proofs.Files.Upkeep

/-!
# What paths stand for

A path that leads to a file stands for itself if it has the ending of scripts, and
a path that leads to a folder for the scripts below it, links not followed.
Collecting puts together what the paths stand for, in the order of the paths,
and keeps each path where its components come up first.  A path that leads
nowhere makes it fail, and so does a folder that cannot be listed.
-/

namespace ShapeAudit.Files

namespace Entry

/-! ## What a path leads to -/

/-- A way that follows its last link does not end at one. -/
theorem Strides.ne_link
    {root : Entry} {reached : Stride} {folders todo : List String}
    (way : Strides root reached folders todo) {entries : List (String × Entry)}
    (isFolder : root.at? folders.reverse = some (folder entries))
    (names : List String) (target : String) :
    reached ≠ .ended (.taken names (.link target)) := by
  induction way generalizing entries with
  | stop stands ended =>
      rw [ended, Option.some.inj (stands.symm.trans isFolder)]
      simp
  | stay _ inductionHypothesis =>
      exact inductionHypothesis isFolder
  | leave _ inductionHypothesis =>
      obtain ⟨others, isAbove⟩ := at?_tail_reverse isFolder
      exact inductionHypothesis isAbove
  | enter _ _ stands _ inductionHypothesis =>
      exact inductionHypothesis stands
  | vacant _ _ _ ended =>
      simp [ended]
  | file _ _ _ ended =>
      simp [ended]
  | link _ _ _ ended =>
      simp [ended]

theorem walk_not_link
    {root : Entry} {links : Nat} {folders todo names : List String} {target : String}
    {entries : List (String × Entry)}
    (isFolder : root.at? folders.reverse = some (folder entries)) :
    walk root true links folders todo ≠ .ok (.taken names (link target)) := by
  intro walks
  induction links generalizing folders todo entries with
  | zero =>
      rcases walk_cases walks with strides | ⟨left, holder, target, rest, isLess, -⟩
      · exact (strides_of_stride strides).ne_link isFolder names target rfl
      · cases isLess
  | succ links inductionHypothesis =>
      rcases walk_cases walks with
        strides | ⟨left, holder, target, rest, isLess, strides, onward⟩
      · exact (strides_of_stride strides).ne_link isFolder _ _ rfl
      · cases isLess
        have fits := (strides_of_stride strides).fits isFolder
        obtain ⟨others, isHolder⟩ := fits.1 holder target rest rfl
        obtain ⟨entriesThere, isFolderThere⟩ := isFolder_outset isHolder target
        exact inductionHypothesis isFolderThere onward

end Entry

namespace Storage

open Entry (Spot)

theorem locate_not_link
    {storage : Storage} (grounded : storage.Grounded) {path : String} {names : List String}
    {target : String} :
    storage.locate true path ≠ .ok (.taken names (.link target)) := by
  intro located
  obtain ⟨entries, isFolder⟩ := grounded.outset path
  exact Entry.walk_not_link isFolder (walk_of_locate located).2

/-- A path leads to a file, to a folder, or nowhere. -/
theorem locate_cases {storage : Storage} (grounded : storage.Grounded) (path : String) :
    (∃ names content, storage.locate true path = .ok (.taken names (.file content))) ∨
    (∃ names entries, storage.locate true path = .ok (.taken names (.folder entries))) ∨
    (∃ fault, storage.status path = .error fault) ∧
      ∀ names entry, storage.locate true path ≠ .ok (.taken names entry) := by
  cases located : storage.locate true path with
  | error fault =>
      exact Or.inr (Or.inr ⟨⟨fault, by simp [status, located, bind, Except.bind]⟩, by simp⟩)
  | ok spot =>
      cases spot with
      | vacant names =>
          exact Or.inr (Or.inr ⟨⟨.noEntry, by simp [status, located, bind, Except.bind]⟩,
            by simp⟩)
      | taken names entry =>
          cases entry with
          | file content =>
              exact Or.inl ⟨names, content, rfl⟩
          | folder entries =>
              exact Or.inr (Or.inl ⟨names, entries, rfl⟩)
          | link target =>
              exact absurd located (locate_not_link grounded)

theorem exists?_of_status
    {storage : Storage} {path : String} {entry : Entry}
    (isEntry : storage.status path = .ok entry) :
    storage.exists? path = true := by
  simp [exists?, isEntry, Except.toOption]

/-- Every folder at the end of a path or below it can be listed. -/
def Walkable (storage : Storage) (path : String) : Prop :=
  ∀ names entry below entries, storage.locate true path = .ok (.taken names entry) →
    entry.at? below = some (.folder entries) → storage.refuses .read (names ++ below) = false

end Storage

/-! ## What one path stands for -/

/-- What a path stands for: a file for itself if it is a script, a folder for the
scripts below it, at which names lead on from the path. -/
inductive Expansion (storage : Storage) (path : String) : List String → Prop
  | script {content : List UInt8} :
      storage.status path = .ok (.file content) →
      PathHasExtension path "js" →
      Expansion storage path [path]
  | other {content : List UInt8} :
      storage.status path = .ok (.file content) →
      ¬ PathHasExtension path "js" →
      Expansion storage path []
  | folder {entries : List (String × Entry)} {relatives : List (List String)} :
      storage.status path = .ok (.folder entries) →
      (Entry.folder entries).ListsScripts relatives →
      Expansion storage path (relatives.map (extend path))

theorem expand_of_locate
    {storage : Storage} {entry : Entry} {path : String} {names : List String}
    (located : storage.locate true path = .ok (.taken names entry)) :
    expand storage path =
      match entry.sealed? (storage.refuses .read) names path with
      | some inner => .error (.sealed path inner)
      | none => .ok (entry.scripts path) := by
  cases isSealed : entry.sealed? (storage.refuses .read) names path <;>
    simp only [expand, located, isSealed]

/-- A path that exists is expanded unless a folder there cannot be listed, any
other one is not found. -/
theorem expand_cases
    {storage : Storage} (grounded : storage.Grounded) (wellFormed : storage.root.WellFormed)
    (path : String) :
    (storage.exists? path = true ∧ ∃ expansion, Expansion storage path expansion ∧
      expand storage path = .ok expansion) ∨
    (storage.exists? path = true ∧ ¬ storage.Walkable path ∧
      ∃ inner, expand storage path = .error (.sealed path inner)) ∨
    storage.exists? path = false ∧ expand storage path = .error (.notFound path) := by
  rcases Storage.locate_cases grounded path with
    ⟨names, content, located⟩ | ⟨names, entries, located⟩ | ⟨⟨fault, failed⟩, notThere⟩
  · have isFile := Storage.status_of_locate located
    refine Or.inl ⟨Storage.exists?_of_status isFile, ?_⟩
    have isExpanded : expand storage path = .ok ((Entry.file content).scripts path) := by
      rw [expand_of_locate located, Entry.sealed?]
    by_cases hasEnding : PathHasExtension path "js"
    · have isScript := isScript_iff.mpr hasEnding
      rw [Entry.scripts, if_pos isScript] at isExpanded
      exact ⟨[path], .script isFile hasEnding, isExpanded⟩
    · have notScript := mt isScript_iff.mp hasEnding
      rw [Entry.scripts, if_neg notScript] at isExpanded
      exact ⟨[], .other isFile hasEnding, isExpanded⟩
  · have isFolder := Storage.status_of_locate located
    have isThere := Storage.exists?_of_status isFolder
    have stands : storage.root.at? names = some (.folder entries) :=
      Storage.locate_fits grounded located
    have folderFormed := (wellFormed.at? stands).1
    have isExpanded := expand_of_locate located
    cases isSealed : (Entry.folder entries).sealed? (storage.refuses .read) names path with
    | some inner =>
        refine Or.inr (Or.inl ⟨isThere, ?_, inner, by rw [isExpanded, isSealed]⟩)
        intro walkable
        have allListed := fun below others =>
          walkable names (.folder entries) below others located
        rw [(Entry.sealed?_eq_none_iff folderFormed).mpr allListed] at isSealed
        cases isSealed
    | none =>
        obtain ⟨relatives, listed, isScripts⟩ := Entry.exists_scripts_of_folder folderFormed
          (Storage.walk_of_locate located).1
        refine Or.inl ⟨isThere, _, .folder isFolder listed, ?_⟩
        rw [isExpanded, isSealed, isScripts]
  · refine Or.inr (Or.inr ⟨by simp [Storage.exists?, failed, Except.toOption], ?_⟩)
    rw [expand]
    split
    · rename_i names entry located
      exact absurd located (notThere names entry)
    · rfl

/-! ## First occurrences -/

/-- Whether no path with the same components comes before a place in a list. -/
def comesFirst (paths : List String) (spot : String × Nat) : Bool :=
  (paths.take spot.2).all fun earlier => components earlier != components spot.1

/-- The paths of a list, each one only where its components come up first. -/
def firstOfEach (paths : List String) : List String :=
  (paths.zipIdx.filter (comesFirst paths)).map Prod.fst

theorem comesFirst_iff (before : List String) (path : String) (rest : List String) :
    comesFirst (before ++ path :: rest) (path, before.length) = true ↔
      ∀ earlier ∈ before, components earlier ≠ components path := by
  simp [comesFirst]

/-- What has been seen are the components of the paths so far. -/
theorem firstOccurrences_behind
    (before rest : List String) (seen : List (List String))
    (areSeen : ∀ parts, parts ∈ seen ↔ ∃ earlier ∈ before, components earlier = parts) :
    firstOccurrences seen rest =
      ((rest.zipIdx before.length).filter (comesFirst (before ++ rest))).map Prod.fst := by
  induction rest generalizing seen before with
  | nil =>
      rfl
  | cons path rest inductionHypothesis =>
      have isFirst := comesFirst_iff before path rest
      have further : ∀ known : List (List String),
          (∀ parts, parts ∈ known ↔ parts = components path ∨ parts ∈ seen) →
          firstOccurrences known rest =
            ((rest.zipIdx (before.length + 1)).filter
              (comesFirst (before ++ path :: rest))).map Prod.fst := by
        intro known areKnown
        have areKnownNow : ∀ parts, parts ∈ known ↔
            ∃ earlier ∈ before ++ [path], components earlier = parts := by
          intro parts
          rw [areKnown, areSeen]
          simp only [List.mem_append, List.mem_singleton, or_and_right, exists_or,
            exists_eq_left]
          rw [or_comm, eq_comm]
        have behindPath := inductionHypothesis (before ++ [path]) known areKnownNow
        rwa [List.length_append, List.length_singleton, List.append_assoc,
          List.singleton_append] at behindPath
      rw [firstOccurrences, List.zipIdx_cons, List.filter_cons]
      by_cases isSeen : components path ∈ seen
      · have notFirst : ¬ comesFirst (before ++ path :: rest) (path, before.length) = true := by
          obtain ⟨earlier, inBefore, same⟩ := (areSeen _).mp isSeen
          rw [isFirst]
          exact fun allDiffer => allDiffer earlier inBefore same
        rw [if_pos (by simpa using isSeen), if_neg notFirst]
        apply further
        intro parts
        constructor
        · exact Or.inr
        · rintro (rfl | isOther)
          · exact isSeen
          · exact isOther
      · have comesFirst : comesFirst (before ++ path :: rest) (path, before.length) = true := by
          rw [isFirst]
          intro earlier inBefore same
          exact isSeen ((areSeen _).mpr ⟨earlier, inBefore, same⟩)
        rw [if_neg (by simpa using isSeen), if_pos comesFirst, List.map_cons,
          further (components path :: seen) (fun parts => List.mem_cons)]

theorem firstOccurrences_nil (paths : List String) :
    firstOccurrences [] paths = firstOfEach paths := by
  rw [firstOccurrences_behind [] paths [] (by simp)]
  rfl

/-! ## All paths -/

/-- A path that does not exist, behind paths that do. -/
def FirstMissing (storage : Storage) (paths : List String) (missing : String) : Prop :=
  ∃ before after, paths = before ++ missing :: after ∧
    (∀ path ∈ before, storage.exists? path = true) ∧ storage.exists? missing = false

/-- The paths are expanded one after the other up to the first that cannot be. -/
theorem mapM_expand_cases
    {storage : Storage} (grounded : storage.Grounded) (wellFormed : storage.root.WellFormed)
    (paths : List String) :
    ((∀ path ∈ paths, storage.exists? path = true) ∧
      ∃ expansions, List.Forall₂ (Expansion storage) paths expansions ∧
        paths.mapM (expand storage) = .ok expansions) ∨
    ∃ before path after fault, paths = before ++ path :: after ∧
      (∀ earlier ∈ before, storage.exists? earlier = true) ∧
      expand storage path = .error fault ∧ paths.mapM (expand storage) = .error fault := by
  have atFirst : ∀ path rest fault, expand storage path = .error fault →
      ∃ before missing after found, path :: rest = before ++ missing :: after ∧
        (∀ earlier ∈ before, storage.exists? earlier = true) ∧
        expand storage missing = .error found ∧
        (path :: rest).mapM (expand storage) = .error found := by
    intro path rest fault failed
    refine ⟨[], path, rest, fault, rfl, by simp, failed, ?_⟩
    rw [List.mapM_cons, failed]
    rfl
  induction paths with
  | nil =>
      exact Or.inl ⟨by simp, [], .nil, rfl⟩
  | cons path rest inductionHypothesis =>
      rcases expand_cases grounded wellFormed path with
        ⟨isThere, expansion, isExpansion, expanded⟩ | ⟨-, -, inner, failed⟩ | ⟨-, failed⟩
      · rcases inductionHypothesis with
          ⟨allThere, expansions, areExpansions, allExpanded⟩ |
            ⟨before, missing, after, fault, rfl, beforeThere, failed, stopped⟩
        · refine Or.inl ⟨List.forall_mem_cons.mpr ⟨isThere, allThere⟩,
            expansion :: expansions, .cons isExpansion areExpansions, ?_⟩
          rw [List.mapM_cons, expanded, allExpanded]
          rfl
        · refine Or.inr ⟨path :: before, missing, after, fault, rfl,
            List.forall_mem_cons.mpr ⟨isThere, beforeThere⟩, failed, ?_⟩
          rw [List.mapM_cons, expanded, stopped]
          rfl
      · exact Or.inr (atFirst path rest _ failed)
      · exact Or.inr (atFirst path rest _ failed)

theorem collect_of_mapM
    {storage : Storage} {paths : List String} {expansions : List (List String)}
    (expanded : paths.mapM (expand storage) = .ok expansions) :
    collect storage paths = .ok (firstOfEach expansions.flatten) := by
  rw [collect, expanded, ← firstOccurrences_nil]
  rfl

/-- Where every folder can be listed collecting fails exactly if some path does not
exist, and then with the first such path.  Else it gives what the paths stand for,
in the order of the paths and each path only where its components come up first. -/
theorem collecting_puts_expansions_together
    {storage : Storage} (grounded : storage.Grounded) (wellFormed : storage.root.WellFormed)
    {paths : List String} (walkable : ∀ path ∈ paths, storage.Walkable path) :
    ((∃ path ∈ paths, storage.exists? path = false) ↔
      ∃ missing, FirstMissing storage paths missing ∧
        collect storage paths = .error (.notFound missing)) ∧
    ((∀ path ∈ paths, storage.exists? path = true) →
      ∃ expansions, List.Forall₂ (Expansion storage) paths expansions ∧
        collect storage paths = .ok (firstOfEach expansions.flatten)) := by
  rcases mapM_expand_cases grounded wellFormed paths with
    ⟨allThere, expansions, areExpansions, expanded⟩ |
      ⟨before, missing, after, fault, isSplit, beforeThere, failed, stopped⟩
  · have collected := collect_of_mapM expanded
    refine ⟨⟨?_, ?_⟩, fun _ => ⟨expansions, areExpansions, collected⟩⟩
    · rintro ⟨path, isMember, notThere⟩
      rw [allThere path isMember] at notThere
      cases notThere
    · rintro ⟨missing, -, failed⟩
      rw [collected] at failed
      cases failed
  · have isMember : missing ∈ paths :=
      isSplit ▸ List.mem_append_right before List.mem_cons_self
    -- every folder can be listed, so the path that stopped it does not exist
    have notThere : storage.exists? missing = false ∧ fault = .notFound missing := by
      rcases expand_cases grounded wellFormed missing with
        ⟨-, expansion, -, expanded⟩ | ⟨-, notWalkable, -⟩ | ⟨notThere, isMissing⟩
      · cases failed.symm.trans expanded
      · exact absurd (walkable missing isMember) notWalkable
      · exact ⟨notThere, Except.error.inj (failed.symm.trans isMissing)⟩
    have notCollected : collect storage paths = .error (.notFound missing) := by
      rw [collect, stopped, notThere.2]
      rfl
    refine ⟨⟨fun _ => ?_, fun _ => ⟨missing, isMember, notThere.1⟩⟩, ?_⟩
    · exact ⟨missing, ⟨before, after, isSplit, beforeThere, notThere.1⟩, notCollected⟩
    · intro allThere
      rw [allThere missing isMember] at notThere
      cases notThere.1

/-- A folder beside a script of a longer name, a name that is an ending only, and
an absolute link to the folder. -/
def sampleTree : Entry :=
  (((Entry.empty.make "home/.js" (.file [])).make "home/a/x.js" (.file [])).make "home/a.js"
    (.file [])).make "home/b" (.link "/home/a")

/-- The sample as seen from the folder in it. -/
def sampleStorage : Storage :=
  { root := sampleTree, here := ["home"] }

theorem sampleTree_wellFormed : sampleTree.WellFormed :=
  (((Entry.wellFormed_empty.make _ _).make _ _).make _ _).make _ _

theorem sampleTree_is_collected :
    collect sampleStorage ["b", ".", "./a", "/home/a"] =
        .ok ["b/x.js", "./a/x.js", "./a.js", "/home/a/x.js"] ∧
      ∃ expansions,
        List.Forall₂ (Expansion sampleStorage) ["b", ".", "./a", "/home/a"] expansions ∧
        collect sampleStorage ["b", ".", "./a", "/home/a"] =
          .ok (firstOfEach expansions.flatten) := by
  have allThere : ∀ path ∈ ["b", ".", "./a", "/home/a"], sampleStorage.exists? path = true := by
    decide +kernel
  exact ⟨by decide +kernel,
    (collecting_puts_expansions_together (by decide +kernel) sampleTree_wellFormed
      fun _ _ _ _ _ _ _ _ => rfl).2 allThere⟩

end ShapeAudit.Files

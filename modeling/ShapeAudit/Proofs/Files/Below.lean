import ShapeAudit.Files.Collect
import ShapeAudit.Proofs.Files.Path
import ShapeAudit.Proofs.Files.Storage
import ShapeAudit.Proofs.Text.ByteOrder
import ShapeAudit.Text.Order

/-!
# The files below an entry

The scripts below a folder are found by going through its entries one after the
other.  In a tree whose folders are in order this visits every file exactly
once, and the names that lead to the files come in the order of their octets,
name by name.  The walk gets through unless a folder on it cannot be listed.
-/

namespace ShapeAudit.Files

/-- One list of names comes before another: by the octets of the first name that
differs. -/
def Earlier : List String → List String → Prop :=
  List.Lex fun left right => Text.octets left < Text.octets right

namespace Entry

/-! ## Trees in order -/

/-- The folders of a tree hold their entries under names, each one once and in
order. -/
inductive WellFormed : Entry → Prop
  | file (content : List UInt8) :
      WellFormed (.file content)
  | link (target : String) :
      WellFormed (.link target)
  | folder {entries : List (String × Entry)} :
      entries.Pairwise (fun left right => Text.lessThan left.1 right.1 = true) →
      (∀ pair ∈ entries, IsName pair.1) →
      (∀ pair ∈ entries, WellFormed pair.2) →
      WellFormed (.folder entries)

theorem mem_of_find? {name : String} {entry : Entry} {entries : List (String × Entry)}
    (found : find? name entries = some entry) :
    (name, entry) ∈ entries := by
  induction entries with
  | nil =>
      cases found
  | cons head rest inductionHypothesis =>
      obtain ⟨key, other⟩ := head
      rw [find?] at found
      split at found
      · rename_i sameName
        cases found
        rw [sameName]
        exact List.mem_cons_self
      · exact List.mem_cons_of_mem _ (inductionHypothesis found)

/-- Where names are in order, each one stands for the entry that it is beside. -/
theorem find?_eq_some_iff
    {entries : List (String × Entry)}
    (ascending : entries.Pairwise fun left right => Text.lessThan left.1 right.1 = true)
    {name : String} {entry : Entry} :
    find? name entries = some entry ↔ (name, entry) ∈ entries := by
  refine ⟨mem_of_find?, ?_⟩
  intro isMember
  induction entries with
  | nil =>
      cases isMember
  | cons head rest inductionHypothesis =>
      obtain ⟨key, other⟩ := head
      obtain ⟨headBelow, restAscending⟩ := List.pairwise_cons.mp ascending
      rw [find?]
      rcases List.mem_cons.mp isMember with isHead | inRest
      · cases isHead
        rw [if_pos rfl]
      · have different : key ≠ name := Text.ne_of_lessThan (headBelow _ inRest)
        rw [if_neg different]
        exact inductionHypothesis restAscending inRest

/-- Everything in a well-formed tree is well formed, and names lead to it. -/
theorem WellFormed.at?
    {root entry : Entry} (wellFormed : root.WellFormed) {names : List String}
    (stands : root.at? names = some entry) :
    entry.WellFormed ∧ ∀ name ∈ names, IsName name := by
  induction names generalizing root with
  | nil =>
      cases stands
      exact ⟨wellFormed, by simp⟩
  | cons name rest inductionHypothesis =>
      obtain ⟨next, isChild, further⟩ := Option.bind_eq_some_iff.mp stands
      obtain ⟨entries, rfl, found⟩ := eq_folder_of_child? isChild
      cases wellFormed with
      | folder ascending areNames areWellFormed =>
          have isMember := mem_of_find? found
          obtain ⟨isWellFormed, restNames⟩ :=
            inductionHypothesis (areWellFormed _ isMember) further
          exact ⟨isWellFormed, List.forall_mem_cons.mpr ⟨areNames _ isMember, restNames⟩⟩

/-! ## Walking through a tree -/

mutual

/-- The names that lead to the files below an entry, in the order of a walk. -/
def filesBelow : Entry → List (List String)
  | .file _ => [[]]
  | .folder entries => filesAmong entries
  | .link _ => []

/-- The names that lead to the files among some entries. -/
def filesAmong : List (String × Entry) → List (List String)
  | [] => []
  | (name, entry) :: rest => (filesBelow entry).map (name :: ·) ++ filesAmong rest

end

theorem mem_filesAmong {entries : List (String × Entry)} {names : List String} :
    names ∈ filesAmong entries ↔
      ∃ name entry rest, (name, entry) ∈ entries ∧ rest ∈ entry.filesBelow ∧
        names = name :: rest := by
  induction entries with
  | nil =>
      simp [filesAmong]
  | cons head others inductionHypothesis =>
      obtain ⟨key, first⟩ := head
      rw [filesAmong, List.mem_append, inductionHypothesis, List.mem_map]
      constructor
      · rintro (⟨rest, inFirst, rfl⟩ | ⟨name, entry, rest, isMember, isBelow, rfl⟩)
        · exact ⟨key, first, rest, List.mem_cons_self, inFirst, rfl⟩
        · exact ⟨name, entry, rest, List.mem_cons_of_mem _ isMember, isBelow, rfl⟩
      · rintro ⟨name, entry, rest, isMember, isBelow, rfl⟩
        rcases List.mem_cons.mp isMember with isHead | inOthers
        · cases isHead
          exact Or.inl ⟨rest, isBelow, rfl⟩
        · exact Or.inr ⟨name, entry, rest, inOthers, isBelow, rfl⟩

/-- A walk comes to every file, and to nothing else. -/
theorem mem_filesBelow_iff
    {entry : Entry} (wellFormed : entry.WellFormed) {names : List String} :
    names ∈ entry.filesBelow ↔ ∃ content, entry.at? names = some (.file content) := by
  induction wellFormed generalizing names with
  | file content =>
      cases names with
      | nil =>
          simp [filesBelow, at?]
      | cons name rest =>
          simp [filesBelow, at?, child?]
  | link target =>
      cases names with
      | nil =>
          simp [filesBelow, at?]
      | cons name rest =>
          simp [filesBelow, at?, child?]
  | @folder entries ascending areNames areWellFormed inductionHypothesis =>
      rw [filesBelow, mem_filesAmong]
      constructor
      · rintro ⟨name, entry, rest, isMember, isBelow, rfl⟩
        obtain ⟨content, stands⟩ := (inductionHypothesis _ isMember).mp isBelow
        refine ⟨content, ?_⟩
        rw [at?, child?, (find?_eq_some_iff ascending).mpr isMember]
        exact stands
      · rintro ⟨content, stands⟩
        cases names with
        | nil =>
            cases stands
        | cons name rest =>
            obtain ⟨next, isChild, further⟩ := Option.bind_eq_some_iff.mp stands
            have isMember : (name, next) ∈ entries := mem_of_find? isChild
            exact ⟨name, next, rest, isMember,
              (inductionHypothesis _ isMember).mpr ⟨content, further⟩, rfl⟩

theorem earlier_filesAmong
    {entries : List (String × Entry)}
    (ascending : entries.Pairwise fun left right => Text.lessThan left.1 right.1 = true)
    (earlierBelow : ∀ pair ∈ entries, pair.2.filesBelow.Pairwise Earlier) :
    (filesAmong entries).Pairwise Earlier := by
  induction entries with
  | nil =>
      exact List.Pairwise.nil
  | cons head others inductionHypothesis =>
      obtain ⟨key, first⟩ := head
      obtain ⟨headBelow, othersAscending⟩ := List.pairwise_cons.mp ascending
      obtain ⟨firstEarlier, othersEarlier⟩ := List.forall_mem_cons.mp earlierBelow
      rw [filesAmong, List.pairwise_append]
      refine ⟨?_, inductionHypothesis othersAscending othersEarlier, ?_⟩
      · rw [List.pairwise_map]
        exact firstEarlier.imp fun earlier => List.Lex.cons earlier
      · intro left inFirst right inOthers
        obtain ⟨rest, -, rfl⟩ := List.mem_map.mp inFirst
        obtain ⟨name, entry, others, isMember, -, rfl⟩ := mem_filesAmong.mp inOthers
        exact List.Lex.rel (Text.octets_lt_of_lessThan (headBelow _ isMember))

/-- A walk goes up in the order of the names. -/
theorem earlier_filesBelow {entry : Entry} (wellFormed : entry.WellFormed) :
    entry.filesBelow.Pairwise Earlier := by
  induction wellFormed with
  | file content =>
      exact List.pairwise_singleton _ _
  | link target =>
      exact List.Pairwise.nil
  | folder ascending areNames areWellFormed inductionHypothesis =>
      exact earlier_filesAmong ascending inductionHypothesis

/-! ## Folders that cannot be listed -/

theorem sealedAmong?_eq_none_iff
    {refused : List String → Bool} {names : List String} {path : String}
    {entries : List (String × Entry)} :
    sealedAmong? refused names path entries = none ↔
      ∀ pair ∈ entries, pair.2.sealed? refused (names ++ [pair.1]) (child path pair.1) = none := by
  induction entries with
  | nil =>
      simp [sealedAmong?]
  | cons head rest inductionHypothesis =>
      rw [sealedAmong?, Option.or_eq_none_iff, inductionHypothesis, List.forall_mem_cons]

/-- A walk gets through exactly if every folder on it can be listed. -/
theorem sealed?_eq_none_iff
    {entry : Entry} (wellFormed : entry.WellFormed) {refused : List String → Bool}
    {names : List String} {path : String} :
    entry.sealed? refused names path = none ↔
      ∀ below entries, entry.at? below = some (.folder entries) →
        refused (names ++ below) = false := by
  induction wellFormed generalizing names path with
  | file content =>
      refine ⟨?_, fun _ => rfl⟩
      rintro - below entries stands
      cases below <;> cases stands
  | link target =>
      refine ⟨?_, fun _ => rfl⟩
      rintro - below entries stands
      cases below <;> cases stands
  | @folder entries ascending areNames areWellFormed inductionHypothesis =>
      by_cases isRefused : refused names = true
      · rw [sealed?, if_pos isRefused]
        refine ⟨by simp, ?_⟩
        intro allListed
        have isListed := allListed [] entries rfl
        rw [List.append_nil, isRefused] at isListed
        cases isListed
      · rw [sealed?, if_neg isRefused, sealedAmong?_eq_none_iff]
        constructor
        · rintro allListed below others stands
          cases below with
          | nil =>
              rw [List.append_nil]
              exact Bool.eq_false_iff.mpr isRefused
          | cons name rest =>
              obtain ⟨next, isChild, further⟩ := Option.bind_eq_some_iff.mp stands
              have isMember : (name, next) ∈ entries := mem_of_find? isChild
              have isListed :=
                (inductionHypothesis _ isMember).mp (allListed _ isMember) rest others further
              rwa [List.append_assoc, List.singleton_append] at isListed
        · rintro allListed ⟨name, next⟩ isMember
          apply (inductionHypothesis _ isMember).mpr
          intro rest others further
          rw [List.append_assoc, List.singleton_append]
          apply allListed (name :: rest) others
          rw [at?, child?, (find?_eq_some_iff ascending).mpr isMember]
          exact further

/-! ## Scripts -/

mutual

/-- The scripts below an entry are the files of a walk that have the ending. -/
theorem scripts_eq (path : String) :
    (entry : Entry) →
      entry.scripts path = (entry.filesBelow.map (extend path)).filter isScript
  | .file content => by
      by_cases isScript? : isScript path = true
      · simp [scripts, filesBelow, extend, isScript?]
      · simp [scripts, filesBelow, extend, isScript?]
  | .folder entries => by
      rw [scripts, filesBelow, scriptsOf_eq path entries]
  | .link target => by
      simp [scripts, filesBelow]

theorem scriptsOf_eq (path : String) :
    (entries : List (String × Entry)) →
      scriptsOf path entries = ((filesAmong entries).map (extend path)).filter isScript
  | [] => by
      simp [scriptsOf, filesAmong]
  | (name, entry) :: rest => by
      have behindName : extend path ∘ (name :: ·) = extend (child path name) := by
        funext names
        rfl
      rw [scriptsOf, filesAmong, scripts_eq (child path name) entry, scriptsOf_eq path rest,
        List.map_append, List.filter_append, List.map_map, behindName]

end

/-- The names that lead to the scripts below an entry, each once and in order. -/
structure ListsScripts (entry : Entry) (relatives : List (List String)) : Prop where
  mem_iff : ∀ names, names ∈ relatives ↔
    (∃ content, entry.at? names = some (.file content)) ∧
      ∃ name, names.getLast? = some name ∧ HasExtension name "js"
  ascending : relatives.Pairwise Earlier

/-- The ending of a path below a folder is that of the last name. -/
theorem isScript_extend_iff
    {path : String} (somePath : path ≠ "") {names : List String} (someNames : names ≠ [])
    (areNames : ∀ name ∈ names, IsName name) :
    isScript (extend path names) = true ↔
      ∃ name, names.getLast? = some name ∧ HasExtension name "js" := by
  rw [isScript_iff, PathHasExtension, components_extend somePath areNames, List.getLast?_append,
    List.getLast?_eq_some_getLast someNames, Option.some_or]

theorem exists_scripts_of_folder
    {entries : List (String × Entry)} (wellFormed : (folder entries).WellFormed)
    {path : String} (somePath : path ≠ "") :
    ∃ relatives, (folder entries).ListsScripts relatives ∧
      (folder entries).scripts path = relatives.map (extend path) := by
  refine ⟨(folder entries).filesBelow.filter (isScript ∘ extend path), ⟨?_, ?_⟩, ?_⟩
  · intro names
    rw [List.mem_filter, mem_filesBelow_iff wellFormed]
    apply and_congr_right
    rintro ⟨content, stands⟩
    have someNames : names ≠ [] := by
      rintro rfl
      cases stands
    exact isScript_extend_iff somePath someNames (wellFormed.at? stands).2
  · exact (earlier_filesBelow wellFormed).filter _
  · rw [scripts_eq, List.filter_map]

end Entry

end ShapeAudit.Files

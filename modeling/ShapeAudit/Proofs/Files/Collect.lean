import Mathlib.Data.List.Nodup
import ShapeAudit.Files.Collect
import ShapeAudit.Proofs.Files.Storage

/-!
# Collected files

Paths are told apart by their components, so no path is collected twice.  A script
that can be read is collected as it is.
-/

namespace ShapeAudit.Files

/-- The paths that are kept have different components, and none that has
occurred already. -/
theorem firstOccurrences_apart (paths : List String) (seen : List (List String)) :
    ((firstOccurrences seen paths).map components).Nodup ∧
      ∀ path ∈ firstOccurrences seen paths, components path ∉ seen := by
  induction paths generalizing seen with
  | nil =>
      simp [firstOccurrences]
  | cons path rest inductionHypothesis =>
      by_cases isSeen : components path ∈ seen
      · have skipped : firstOccurrences seen (path :: rest) = firstOccurrences seen rest := by
          simp [firstOccurrences, isSeen]
        rw [skipped]
        exact inductionHypothesis seen
      · have kept : firstOccurrences seen (path :: rest) =
            path :: firstOccurrences (components path :: seen) rest := by
          simp [firstOccurrences, isSeen]
        obtain ⟨distinct, others⟩ := inductionHypothesis (components path :: seen)
        rw [kept]
        constructor
        · rw [List.map_cons, List.nodup_cons]
          refine ⟨?_, distinct⟩
          intro isLater
          obtain ⟨later, isKept, sameComponents⟩ := List.mem_map.mp isLater
          exact others later isKept (sameComponents ▸ List.mem_cons_self)
        · intro found isFound
          rcases List.mem_cons.mp isFound with rfl | isLater
          · exact isSeen
          · exact fun wasSeen => others found isLater (List.mem_cons_of_mem _ wasSeen)

theorem mem_of_mem_firstOccurrences
    {paths : List String} {seen : List (List String)} {found : String}
    (isKept : found ∈ firstOccurrences seen paths) :
    found ∈ paths := by
  induction paths generalizing seen with
  | nil =>
      cases isKept
  | cons path rest inductionHypothesis =>
      rw [firstOccurrences] at isKept
      split at isKept
      · exact List.mem_cons_of_mem _ (inductionHypothesis isKept)
      · rcases List.mem_cons.mp isKept with rfl | isLater
        · exact List.mem_cons_self
        · exact List.mem_cons_of_mem _ (inductionHypothesis isLater)

/-- For every path that has not occurred already one of the same components is
kept. -/
theorem exists_mem_firstOccurrences
    {paths : List String} {seen : List (List String)} {path : String} (isMember : path ∈ paths)
    (isNew : components path ∉ seen) :
    ∃ found ∈ firstOccurrences seen paths, components found = components path := by
  induction paths generalizing seen with
  | nil =>
      cases isMember
  | cons first rest inductionHypothesis =>
      by_cases sameAsFirst : components first = components path
      · have firstIsNew : components first ∉ seen := sameAsFirst ▸ isNew
        refine ⟨first, ?_, sameAsFirst⟩
        simp [firstOccurrences, firstIsNew]
      · have inRest : path ∈ rest := by
          rcases List.mem_cons.mp isMember with rfl | inRest
          · exact absurd rfl sameAsFirst
          · exact inRest
        rw [firstOccurrences]
        split
        · exact inductionHypothesis inRest isNew
        · have stillNew : components path ∉ components first :: seen := by
            simp [Ne.symm sameAsFirst, isNew]
          obtain ⟨found, isKept, sameComponents⟩ := inductionHypothesis inRest stillNew
          exact ⟨found, List.mem_cons_of_mem _ isKept, sameComponents⟩

theorem nodup_of_collect
    {storage : Storage} {paths collected : List String}
    (gathered : collect storage paths = .ok collected) :
    collected.Nodup := by
  cases expanded : paths.mapM (expand storage) with
  | error fault =>
      simp [collect, expanded, bind, Except.bind] at gathered
  | ok found =>
      have kept : firstOccurrences [] found.flatten = collected := by
        simpa [collect, expanded, bind, Except.bind] using gathered
      rw [← kept]
      exact List.Nodup.of_map components (firstOccurrences_apart found.flatten []).1

/-- A script that can be read stands for itself. -/
theorem collect_script
    {storage : Storage} {path : String} (script : isScript path = true)
    {content : List UInt8} (held : storage.read path = .ok content) :
    collect storage [path] = .ok [path] := by
  obtain ⟨names, located⟩ := Storage.locate_of_read held
  have expanded : expand storage path = .ok [path] := by
    simp [expand, located, Entry.sealed?, Entry.scripts, script]
  simp [collect, expanded, bind, Except.bind, pure, Except.pure, firstOccurrences]

end ShapeAudit.Files

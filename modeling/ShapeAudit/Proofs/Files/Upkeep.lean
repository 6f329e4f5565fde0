import ShapeAudit.Files.Storage
import ShapeAudit.Proofs.Files.Below

/-!
# Trees stay in order

A tree that is made piece by piece along paths is well formed: a path leads along
names only, and folders keep their entries in order.
-/

namespace ShapeAudit.Files

/-! ## Paths lead along names -/

/-- What stands between the slashes of a path, unless it is empty. -/
structure IsPart (step : String) : Prop where
  ne_empty : step ≠ ""
  single : '/' ∉ step.toList

theorem IsPart.isName
    {step : String} (isPart : IsPart step) (notHere : step ≠ ".") (notUp : step ≠ "..") :
    IsName step :=
  ⟨isPart.ne_empty, isPart.single, notHere, notUp⟩

theorem isPart_of_mem_steps {path step : String} (isStep : step ∈ steps path) : IsPart step := by
  have isPart_of_splitAt : ∀ part ∈ Text.splitAt '/' path, part ≠ "" → IsPart part :=
    fun _ isMember somePart => ⟨somePart, slash_not_mem_of_mem_splitAt isMember⟩
  rw [steps, List.mem_append] at isStep
  rcases isStep with inFront | isLast
  · obtain ⟨isMember, somePart⟩ := List.mem_filter.mp inFront
    exact isPart_of_splitAt step (List.dropLast_subset _ isMember) (by simpa using somePart)
  · split at isLast
    · rw [List.mem_singleton.mp isLast]
      exact ⟨by decide, by decide⟩
    · rename_i last notEmpty ended
      rw [List.mem_singleton.mp isLast]
      have someLast : last ≠ "" := by
        rintro rfl
        exact notEmpty rfl
      exact isPart_of_splitAt last (List.mem_of_getLast? ended) someLast
    · cases isLast

namespace Entry

/-- A stride comes along names, and leaves parts of a path behind a link. -/
def Stride.Named : Stride → Prop
  | .ended spot => ∀ name ∈ spot.names, IsName name
  | .linked holder _ rest => (∀ name ∈ holder, IsName name) ∧ ∀ step ∈ rest, IsPart step

theorem named_of_stride
    {root : Entry} {followLast : Bool} {folders todo : List String} {reached : Stride}
    (areNames : ∀ name ∈ folders, IsName name) (areParts : ∀ step ∈ todo, IsPart step)
    (isOk : stride root followLast folders todo = .ok reached) :
    reached.Named := by
  induction todo generalizing folders with
  | nil =>
      rw [stride] at isOk
      split at isOk
      · cases isOk
        simpa [Stride.Named, Spot.names] using areNames
      · cases isOk
  | cons step rest inductionHypothesis =>
      obtain ⟨isPart, restParts⟩ := List.forall_mem_cons.mp areParts
      rw [stride] at isOk
      split at isOk
      · exact inductionHypothesis areNames restParts isOk
      rename_i notHere
      split at isOk
      · have areNamesAbove : ∀ name ∈ folders.tail, IsName name := fun name isMember =>
          areNames name (List.mem_of_mem_tail isMember)
        exact inductionHypothesis areNamesAbove restParts isOk
      rename_i notUp
      have areNamesBelow : ∀ name ∈ step :: folders, IsName name :=
        List.forall_mem_cons.mpr ⟨isPart.isName notHere notUp, areNames⟩
      have areNamesReversed : ∀ name ∈ (step :: folders).reverse, IsName name := by
        intro name isMember
        exact areNamesBelow name (List.mem_reverse.mp isMember)
      split at isOk
      · split at isOk
        · cases isOk
          exact areNamesReversed
        · cases isOk
      · exact inductionHypothesis areNamesBelow restParts isOk
      · split at isOk
        · cases isOk
          exact areNamesReversed
        · cases isOk
      · split at isOk
        · cases isOk
          exact areNamesReversed
        · cases isOk
          exact ⟨areNames, restParts⟩

theorem named_outset
    {folders : List String} (areNames : ∀ name ∈ folders, IsName name) (path : String) :
    ∀ name ∈ outset folders path, IsName name := by
  rw [outset]
  split
  · simp
  · exact areNames

theorem named_of_walk
    {root : Entry} {followLast : Bool} {links : Nat} {folders todo : List String} {spot : Spot}
    (areNames : ∀ name ∈ folders, IsName name) (areParts : ∀ step ∈ todo, IsPart step)
    (isOk : walk root followLast links folders todo = .ok spot) :
    ∀ name ∈ spot.names, IsName name := by
  induction links generalizing folders todo with
  | zero =>
      rcases walk_cases isOk with strides | ⟨left, holder, target, rest, isLess, -⟩
      · exact named_of_stride areNames areParts strides
      · cases isLess
  | succ links inductionHypothesis =>
      rcases walk_cases isOk with
        strides | ⟨left, holder, target, rest, isLess, strides, onward⟩
      · exact named_of_stride areNames areParts strides
      · cases isLess
        obtain ⟨holderNames, restParts⟩ := named_of_stride areNames areParts strides
        apply inductionHypothesis (named_outset holderNames target) _ onward
        intro step isMember
        rcases List.mem_append.mp isMember with inTarget | inRest
        · exact isPart_of_mem_steps inTarget
        · exact restParts step inRest

theorem named_of_locate
    {root : Entry} {followLast : Bool} {path : String} {spot : Spot}
    (located : Storage.locate root followLast path = .ok spot) :
    ∀ name ∈ spot.names, IsName name := by
  have walks := (Storage.walk_of_locate located).2
  exact named_of_walk (named_outset (by simp) path) (fun _ => isPart_of_mem_steps) walks

/-! ## Entries of a folder -/

theorem mem_of_mem_put
    {name : String} {entry : Entry} {entries : List (String × Entry)} {pair : String × Entry}
    (isMember : pair ∈ put name entry entries) :
    pair = (name, entry) ∨ pair ∈ entries := by
  induction entries with
  | nil =>
      exact Or.inl (List.mem_singleton.mp isMember)
  | cons head rest inductionHypothesis =>
      rw [put] at isMember
      split at isMember
      · exact (List.mem_cons.mp isMember).imp_right (List.mem_cons_of_mem head)
      · split at isMember
        · exact List.mem_cons.mp isMember
        · rcases List.mem_cons.mp isMember with isHead | inRest
          · exact Or.inr (isHead ▸ List.mem_cons_self)
          · exact (inductionHypothesis inRest).imp_right (List.mem_cons_of_mem head)

theorem ascending_put
    {entries : List (String × Entry)}
    (ascending : entries.Pairwise fun left right => Text.lessThan left.1 right.1 = true)
    (name : String) (entry : Entry) :
    (put name entry entries).Pairwise fun left right => Text.lessThan left.1 right.1 = true := by
  induction entries with
  | nil =>
      exact List.pairwise_singleton _ _
  | cons head rest inductionHypothesis =>
      obtain ⟨headBelow, restAscending⟩ := List.pairwise_cons.mp ascending
      rw [put]
      split
      · rename_i sameName
        refine List.pairwise_cons.mpr ⟨?_, restAscending⟩
        rw [← sameName]
        exact headBelow
      · rename_i otherName
        split
        · rename_i nameBelow
          refine List.pairwise_cons.mpr ⟨?_, ascending⟩
          intro later isLater
          rcases List.mem_cons.mp isLater with rfl | inRest
          · exact nameBelow
          · exact Text.lessThan_trans nameBelow (headBelow later inRest)
        · rename_i nameNotBelow
          refine List.pairwise_cons.mpr ⟨?_, inductionHypothesis restAscending⟩
          intro later isLater
          rcases mem_of_mem_put isLater with rfl | inRest
          · exact Text.lessThan_of_not_lessThan (Ne.symm otherName)
              (Bool.eq_false_iff.mpr nameNotBelow)
          · exact headBelow later inRest

theorem wellFormed_empty : empty.WellFormed :=
  .folder List.Pairwise.nil (by simp) (by simp)

namespace WellFormed

theorem put
    {entries : List (String × Entry)} (wellFormed : (Entry.folder entries).WellFormed)
    {name : String} (isName : IsName name) {entry : Entry} (entryWellFormed : entry.WellFormed) :
    (Entry.folder (Entry.put name entry entries)).WellFormed := by
  cases wellFormed with
  | folder ascending areNames areWellFormed =>
      refine .folder (ascending_put ascending name entry) ?_ ?_
      · intro pair isMember
        rcases mem_of_mem_put isMember with rfl | isOld
        · exact isName
        · exact areNames pair isOld
      · intro pair isMember
        rcases mem_of_mem_put isMember with rfl | isOld
        · exact entryWellFormed
        · exact areWellFormed pair isOld

theorem of_find?
    {entries : List (String × Entry)} (wellFormed : (Entry.folder entries).WellFormed)
    {name : String} {entry : Entry} (found : find? name entries = some entry) :
    IsName name ∧ entry.WellFormed := by
  have isMember := mem_of_find? found
  cases wellFormed with
  | folder ascending areNames areWellFormed =>
      exact ⟨areNames _ isMember, areWellFormed _ isMember⟩

/-! ## Names without links -/

theorem place
    {root new : Entry} (wellFormed : root.WellFormed) {names : List String}
    (areNames : ∀ name ∈ names, IsName name) (newWellFormed : new.WellFormed) :
    (root.place names new).WellFormed := by
  induction names generalizing root with
  | nil =>
      cases root <;> exact newWellFormed
  | cons name rest inductionHypothesis =>
      obtain ⟨isName, restNames⟩ := List.forall_mem_cons.mp areNames
      cases root with
      | folder entries =>
          rw [place_cons]
          apply wellFormed.put isName
          cases found : find? name entries with
          | none =>
              exact inductionHypothesis wellFormed_empty restNames
          | some entry =>
              exact inductionHypothesis (wellFormed.of_find? found).2 restNames
      | file content =>
          exact wellFormed
      | link target =>
          exact wellFormed

/-! ## Paths -/

variable {root : Entry} (wellFormed : root.WellFormed)

include wellFormed

theorem place_at
    {followLast : Bool} {path : String} {spot : Spot}
    (located : Storage.locate root followLast path = .ok spot) {new : Entry}
    (newWellFormed : new.WellFormed) :
    (root.place spot.names new).WellFormed :=
  wellFormed.place (named_of_locate located) newWellFormed

theorem write
    {path : String} {content : List UInt8} {names : List String} {after : Storage}
    (written : Storage.write root path content = .ok (names, after)) :
    after.root.WellFormed := by
  obtain ⟨rfl, located | ⟨old, located⟩⟩ := Storage.write_eq_ok written
  · exact wellFormed.place_at located (.file content)
  · exact wellFormed.place_at located (.file content)

end WellFormed

theorem wellFormed_makeFolders {root : Entry} (wellFormed : root.WellFormed) (path : String) :
    (root.makeFolders path).WellFormed := by
  rw [makeFolders]
  refine List.foldlRecOn _ _ (motive := fun state : Entry × String => state.1.WellFormed)
    wellFormed ?_
  rintro ⟨tree, before⟩ treeWellFormed step -
  dsimp only
  split
  · rename_i names located
    exact treeWellFormed.place_at located wellFormed_empty
  · exact treeWellFormed

/-- Every tree that is made piece by piece along paths is well formed. -/
theorem WellFormed.make {root : Entry} (wellFormed : root.WellFormed) (path : String)
    (entry : Entry) :
    (root.make path entry).WellFormed := by
  cases entry with
  | folder entries =>
      exact wellFormed_makeFolders wellFormed path
  | file content =>
      have ready := wellFormed_makeFolders wellFormed (parentPath path)
      simp only [Entry.make]
      split
      · rename_i written
        exact ready.write written
      · exact ready
  | link target =>
      have ready := wellFormed_makeFolders wellFormed (parentPath path)
      simp only [Entry.make]
      split
      · rename_i names located
        exact ready.place_at located (.link target)
      · exact ready

end Entry

end ShapeAudit.Files

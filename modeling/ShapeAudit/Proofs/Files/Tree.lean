import ShapeAudit.Files.Tree

/-!
# Ways through a tree

A way leads through folders and links to an entry, or to a place where nothing
stands yet.  A file that is put at its end is found again by the same way, which
does not depend on what stands there.
-/

namespace ShapeAudit.Files.Entry

/-! ## Entries of a folder -/

theorem find?_put_self (name : String) (entry : Entry) (entries : List (String × Entry)) :
    find? name (put name entry entries) = some entry := by
  induction entries with
  | nil =>
      simp [put, find?]
  | cons head rest inductionHypothesis =>
      obtain ⟨key, old⟩ := head
      by_cases same : key = name
      · simp [put, find?, same]
      · by_cases below : Text.lessThan name key = true
        · simp [put, find?, same, below]
        · simp [put, find?, same, below, inductionHypothesis]

theorem find?_put_of_ne
    {name other : String} (different : other ≠ name) (entry : Entry)
    (entries : List (String × Entry)) :
    find? other (put name entry entries) = find? other entries := by
  induction entries with
  | nil =>
      simp [put, find?, different.symm]
  | cons head rest inductionHypothesis =>
      obtain ⟨key, old⟩ := head
      by_cases same : key = name
      · simp [put, find?, same, different.symm]
      · by_cases below : Text.lessThan name key = true
        · simp [put, find?, same, below, different.symm]
        · simp [put, find?, same, below, inductionHypothesis]

/-! ## Names without links -/

theorem at?_append (first second : List String) (root : Entry) :
    root.at? (first ++ second) = (root.at? first).bind (at? second) := by
  induction first generalizing root with
  | nil =>
      rfl
  | cons name rest inductionHypothesis =>
      simp only [List.cons_append, at?, Option.bind_assoc]
      congr 1
      funext entry
      exact inductionHypothesis entry

theorem at?_snoc (names : List String) (name : String) (root : Entry) :
    root.at? (names ++ [name]) = (root.at? names).bind (child? name) := by
  rw [at?_append]
  congr 1
  funext entry
  simp [at?]

/-- Only a folder has entries. -/
theorem eq_folder_of_child?
    {root entry : Entry} {name : String} (isChild : root.child? name = some entry) :
    ∃ entries, root = folder entries ∧ find? name entries = some entry := by
  cases root with
  | folder entries =>
      exact ⟨entries, rfl, isChild⟩
  | file content =>
      cases isChild
  | link target =>
      cases isChild

theorem exists_folder_of_isFolder {root : Entry} (rooted : root.isFolder = true) :
    ∃ entries, root = folder entries := by
  cases root with
  | folder entries =>
      exact ⟨entries, rfl⟩
  | file content =>
      cases rooted
  | link target =>
      cases rooted

/-- A place for a file: some names lead to a file, or to nothing, in a folder. -/
def FilePlace (root : Entry) (names : List String) : Prop :=
  ∃ parents name entries, names = parents ++ [name] ∧
    root.at? parents = some (folder entries) ∧
    ∀ entry, find? name entries = some entry → ∃ content, entry = file content

theorem filePlace_of_file
    {root : Entry} (rooted : root.isFolder = true) {names : List String} {content : List UInt8}
    (stands : root.at? names = some (file content)) :
    root.FilePlace names := by
  rcases List.eq_nil_or_concat names with rfl | ⟨parents, name, rfl⟩
  · cases stands
    cases rooted
  · rw [List.concat_eq_append, at?_snoc] at stands
    obtain ⟨parent, isParent, isChild⟩ := Option.bind_eq_some_iff.mp stands
    obtain ⟨entries, rfl, isEntry⟩ := eq_folder_of_child? isChild
    refine ⟨parents, name, entries, by simp, isParent, ?_⟩
    intro entry isFound
    exact ⟨content, Option.some.inj (isFound.symm.trans isEntry)⟩

theorem eq_file_of_filePlace
    {root entry : Entry} {names : List String} (isPlace : root.FilePlace names)
    (stands : root.at? names = some entry) :
    ∃ content, entry = file content := by
  obtain ⟨parents, name, entries, rfl, isParent, holdsFile⟩ := isPlace
  rw [at?_snoc, isParent] at stands
  exact holdsFile entry stands

/-- An entry as it looks on the way along a path: what is in a folder aside. -/
def face : Entry → Entry
  | folder _ => empty
  | other => other

/-- One step into the folder that holds the first of some names. -/
theorem place_cons
    (entries : List (String × Entry)) (name : String) (rest : List String) (new : Entry) :
    (folder entries).place (name :: rest) new =
      folder (put name (((find? name entries).getD empty).place rest new) entries) := by
  rfl

theorem at?_place_self
    {root : Entry} {names : List String} (isPlace : root.FilePlace names) (new : Entry) :
    (root.place names new).at? names = some new := by
  obtain ⟨parents, name, entries, rfl, isParent, -⟩ := isPlace
  induction parents generalizing root with
  | nil =>
      cases isParent
      simp [place_cons, at?, child?, find?_put_self, place]
  | cons parent rest inductionHypothesis =>
      obtain ⟨below, isBelow, isRest⟩ := Option.bind_eq_some_iff.mp isParent
      obtain ⟨others, rfl, isEntry⟩ := eq_folder_of_child? isBelow
      have inBelow := inductionHypothesis isRest
      simp [place_cons, at?, child?, find?_put_self, isEntry, inBelow]

/-- Everywhere else the tree looks as before. -/
theorem at?_place_of_ne
    {root : Entry} {names others : List String} (isPlace : root.FilePlace names)
    (elsewhere : others ≠ names) (content : List UInt8) :
    ((root.place names (file content)).at? others).map face = (root.at? others).map face := by
  obtain ⟨parents, name, entries, rfl, isParent, holdsFile⟩ := isPlace
  induction parents generalizing root others with
  | nil =>
      cases isParent
      rw [List.nil_append, place_cons]
      cases others with
      | nil =>
          rfl
      | cons step steps =>
          by_cases same : step = name
          · subst same
            have further : steps ≠ [] := by
              rintro rfl
              exact elsewhere rfl
            -- below the place there is nothing: it was vacant or a file, and is a file now
            obtain ⟨next, steps, rfl⟩ := List.exists_cons_of_ne_nil further
            cases stands : find? step entries with
            | none =>
                simp [at?, child?, find?_put_self, stands, place]
            | some entry =>
                obtain ⟨old, rfl⟩ := holdsFile entry stands
                simp [at?, child?, find?_put_self, stands, place]
          · simp [at?, child?, find?_put_of_ne same]
  | cons parent rest inductionHypothesis =>
      obtain ⟨below, isBelow, isRest⟩ := Option.bind_eq_some_iff.mp isParent
      obtain ⟨siblings, rfl, isEntry⟩ := eq_folder_of_child? isBelow
      rw [List.cons_append, place_cons]
      cases others with
      | nil =>
          rfl
      | cons step steps =>
          by_cases same : step = parent
          · subst same
            have elsewhereBelow : steps ≠ rest ++ [name] := by
              rintro rfl
              exact elsewhere rfl
            have inBelow := inductionHypothesis elsewhereBelow isRest
            simpa [at?, child?, find?_put_self, isEntry] using inBelow
          · simp [at?, child?, find?_put_of_ne same]

/-! ## Paths -/

/-- The names that lead to a spot. -/
def Spot.names : Spot → List String
  | .taken names _ => names
  | .vacant names => names

/-- A step along a path that names something. -/
theorem stride_cons
    (root : Entry) (folders : List String) {step : String} (rest : List String)
    (notHere : step ≠ ".") (notUp : step ≠ "..") :
    stride root true folders (step :: rest) =
      match root.at? (step :: folders).reverse with
      | none =>
          if rest.isEmpty then .ok (.ended (.vacant (step :: folders).reverse))
          else .error .noEntry
      | some (folder _) => stride root true (step :: folders) rest
      | some (file content) =>
          if rest.isEmpty then .ok (.ended (.taken (step :: folders).reverse (file content)))
          else .error .notFolder
      | some (link target) => .ok (.linked folders target rest) := by
  rw [List.reverse_cons, at?_snoc, stride, if_neg notHere, if_neg notUp]
  cases (root.at? folders.reverse).bind (child? step) with
  | none =>
      simp
  | some entry =>
      cases entry <;> simp

/-- What a step that names something can do: the path ends at a file or at
nothing, it goes on in a folder, or it comes to a link. -/
theorem stride_cons_cases
    {root : Entry} {folders : List String} {step : String} {rest : List String}
    (notHere : step ≠ ".") (notUp : step ≠ "..") {reached : Stride}
    (strides : stride root true folders (step :: rest) = .ok reached) :
    (rest = [] ∧
      ((root.at? (step :: folders).reverse = none ∧
          reached = .ended (.vacant (step :: folders).reverse)) ∨
        ∃ content, root.at? (step :: folders).reverse = some (file content) ∧
          reached = .ended (.taken (step :: folders).reverse (file content)))) ∨
    (∃ entries, root.at? (step :: folders).reverse = some (folder entries) ∧
      stride root true (step :: folders) rest = .ok reached) ∨
    (∃ target, root.at? (step :: folders).reverse = some (link target) ∧
      reached = .linked folders target rest) := by
  rw [stride_cons root folders rest notHere notUp] at strides
  cases stands : root.at? (step :: folders).reverse with
  | none =>
      simp only [stands] at strides
      split at strides
      · cases strides
        exact Or.inl ⟨List.isEmpty_iff.mp ‹_›, Or.inl ⟨rfl, rfl⟩⟩
      · cases strides
  | some entry =>
      cases entry with
      | folder entries =>
          exact Or.inr (Or.inl ⟨entries, rfl, by simpa only [stands] using strides⟩)
      | file content =>
          simp only [stands] at strides
          split at strides
          · cases strides
            exact Or.inl ⟨List.isEmpty_iff.mp ‹_›, Or.inr ⟨content, rfl, rfl⟩⟩
          · cases strides
      | link target =>
          simp only [stands] at strides
          cases strides
          exact Or.inr (Or.inr ⟨target, rfl, rfl⟩)

/-- How a stride comes to where it reaches: it stops behind the last step, stays
in a folder, leaves or enters one, and ends at nothing, at a file or at a link. -/
inductive Strides (root : Entry) (reached : Stride) : List String → List String → Prop
  | stop {folders : List String} {entry : Entry} :
      root.at? folders.reverse = some entry →
      reached = .ended (.taken folders.reverse entry) →
      Strides root reached folders []
  | stay {folders rest : List String} :
      Strides root reached folders rest →
      Strides root reached folders ("." :: rest)
  | leave {folders rest : List String} :
      Strides root reached folders.tail rest →
      Strides root reached folders (".." :: rest)
  | enter {folders rest : List String} {step : String} {entries : List (String × Entry)} :
      step ≠ "." → step ≠ ".." →
      root.at? (step :: folders).reverse = some (folder entries) →
      Strides root reached (step :: folders) rest →
      Strides root reached folders (step :: rest)
  | vacant {folders : List String} {step : String} :
      step ≠ "." → step ≠ ".." →
      root.at? (step :: folders).reverse = none →
      reached = .ended (.vacant (step :: folders).reverse) →
      Strides root reached folders [step]
  | file {folders : List String} {step : String} {content : List UInt8} :
      step ≠ "." → step ≠ ".." →
      root.at? (step :: folders).reverse = some (file content) →
      reached = .ended (.taken (step :: folders).reverse (.file content)) →
      Strides root reached folders [step]
  | link {folders rest : List String} {step target : String} :
      step ≠ "." → step ≠ ".." →
      root.at? (step :: folders).reverse = some (link target) →
      reached = .linked folders target rest →
      Strides root reached folders (step :: rest)

theorem strides_of_stride
    {root : Entry} {folders todo : List String} {reached : Stride}
    (isOk : stride root true folders todo = .ok reached) :
    Strides root reached folders todo := by
  induction todo generalizing folders with
  | nil =>
      cases stands : root.at? folders.reverse with
      | none =>
          simp [stride, stands] at isOk
      | some entry =>
          simp only [stride, stands, Except.ok.injEq] at isOk
          exact .stop stands isOk.symm
  | cons step rest inductionHypothesis =>
      by_cases here : step = "."
      · subst here
        exact .stay (inductionHypothesis (by simpa only [stride, if_true] using isOk))
      by_cases up : step = ".."
      · subst up
        exact .leave (inductionHypothesis
          (by simpa only [stride, String.reduceEq, if_true, if_false] using isOk))
      rcases stride_cons_cases here up isOk with
        ⟨rfl, ⟨stands, ended⟩ | ⟨content, stands, ended⟩⟩ | ⟨entries, stands, onward⟩ |
          ⟨target, stands, ended⟩
      · exact .vacant here up stands ended
      · exact .file here up stands ended
      · exact .enter here up stands (inductionHypothesis onward)
      · exact .link here up stands ended

/-- What looks like a folder or a link is one. -/
theorem eq_of_face
    {shown : Option Entry} {entry : Entry} (looks : shown.map face = some (face entry)) :
    (∀ entries, entry = folder entries → ∃ others, shown = some (folder others)) ∧
      (∀ target, entry = link target → shown = some entry) := by
  cases shown with
  | none =>
      cases looks
  | some other =>
      have same : face other = face entry := Option.some.inj looks
      constructor
      · rintro entries rfl
        cases other <;> simp_all [face, empty]
      · rintro target rfl
        cases other <;> simp_all [face, empty]

/-! ### Links -/

theorem walk_of_ended
    {root : Entry} {followLast : Bool} {links : Nat} {folders todo : List String} {spot : Spot}
    (strides : stride root followLast folders todo = .ok (.ended spot)) :
    walk root followLast links folders todo = .ok spot := by
  cases links <;> simp [walk, strides, bind, Except.bind]

theorem walk_of_linked
    {root : Entry} {followLast : Bool} {left : Nat} {folders todo holder rest : List String}
    {target : String}
    (strides : stride root followLast folders todo = .ok (.linked holder target rest)) :
    walk root followLast (left + 1) folders todo =
      walk root followLast left (outset holder target) (steps target ++ rest) := by
  rw [walk]
  simp [strides, bind, Except.bind]

/-- A way ends without a link, or it goes on along the target of one. -/
theorem walk_cases
    {root : Entry} {followLast : Bool} {links : Nat} {folders todo : List String} {spot : Spot}
    (walks : walk root followLast links folders todo = .ok spot) :
    stride root followLast folders todo = .ok (.ended spot) ∨
      ∃ left holder target rest, links = left + 1 ∧
        stride root followLast folders todo = .ok (.linked holder target rest) ∧
        walk root followLast left (outset holder target) (steps target ++ rest) = .ok spot := by
  cases strides : stride root followLast folders todo with
  | error fault =>
      cases links <;> simp [walk, strides, bind, Except.bind] at walks
  | ok reached =>
      cases reached with
      | ended found =>
          rw [walk_of_ended strides] at walks
          cases walks
          exact Or.inl rfl
      | linked holder target rest =>
          cases links with
          | zero =>
              simp [walk, strides, bind, Except.bind] at walks
          | succ left =>
              rw [walk_of_linked strides] at walks
              exact Or.inr ⟨left, holder, target, rest, rfl, rfl, walks⟩

section Placed

variable {root : Entry} {names : List String} (isPlace : root.FilePlace names)
  (content : List UInt8)

include isPlace

/-- A step to the place is the last one, and leads to the file. -/
theorem stride_to_place
    {folders rest : List String} {step : String} (notHere : step ≠ ".") (notUp : step ≠ "..")
    (atPlace : (step :: folders).reverse = names) {reached : Stride}
    (strides : stride root true folders (step :: rest) = .ok reached) :
    (∃ spot, reached = .ended spot) ∧
      stride (root.place names (file content)) true folders (step :: rest) =
        .ok (.ended (.taken names (file content))) := by
  rw [stride_cons _ folders rest notHere notUp, atPlace, at?_place_self isPlace]
  rcases stride_cons_cases notHere notUp strides with
    ⟨rfl, ⟨-, rfl⟩ | ⟨old, -, rfl⟩⟩ | ⟨entries, stands, -⟩ | ⟨target, stands, -⟩
  · exact ⟨⟨_, rfl⟩, rfl⟩
  · exact ⟨⟨_, rfl⟩, rfl⟩
  · obtain ⟨old, isFile⟩ := eq_file_of_filePlace isPlace (atPlace ▸ stands)
    cases isFile
  · obtain ⟨old, isFile⟩ := eq_file_of_filePlace isPlace (atPlace ▸ stands)
    cases isFile

/-- A way up to a link is the same behind the file that is placed, and a way to
its place leads to the file. -/
theorem stride_place
    {folders todo : List String} {reached : Stride}
    (strides : stride root true folders todo = .ok reached) :
    (∀ holder target rest, reached = .linked holder target rest →
      stride (root.place names (file content)) true folders todo = .ok reached) ∧
    (∀ spot, reached = .ended spot → spot.names = names →
      stride (root.place names (file content)) true folders todo =
        .ok (.ended (.taken names (file content)))) := by
  induction todo generalizing folders with
  | nil =>
      cases stands : root.at? folders.reverse with
      | none =>
          simp [stride, stands] at strides
      | some entry =>
          simp only [stride, stands, Except.ok.injEq] at strides
          subst strides
          refine ⟨by simp, ?_⟩
          rintro spot isSpot rfl
          cases isSpot
          have placed := at?_place_self isPlace (file content)
          simp only [Spot.names] at placed ⊢
          simp [stride, placed]
  | cons step rest inductionHypothesis =>
      by_cases here : step = "."
      · simp only [stride, here, if_true] at strides ⊢
        exact inductionHypothesis strides
      by_cases up : step = ".."
      · simp only [stride, up, String.reduceEq, if_true, if_false] at strides ⊢
        exact inductionHypothesis strides
      by_cases atPlace : (step :: folders).reverse = names
      · obtain ⟨⟨spot, rfl⟩, toFile⟩ := stride_to_place isPlace content here up atPlace strides
        refine ⟨by simp, ?_⟩
        intro _ _ _
        exact toFile
      -- anywhere else the two trees look alike, and a way that ends there is not to the place
      have looks := at?_place_of_ne isPlace atPlace content
      rw [stride_cons _ folders rest here up]
      rcases stride_cons_cases here up strides with
        ⟨rfl, ⟨-, rfl⟩ | ⟨old, -, rfl⟩⟩ | ⟨entries, stands, onward⟩ | ⟨target, stands, rfl⟩
      · refine ⟨by simp, ?_⟩
        rintro spot isSpot isThere
        cases isSpot
        exact absurd isThere atPlace
      · refine ⟨by simp, ?_⟩
        rintro spot isSpot isThere
        cases isSpot
        exact absurd isThere atPlace
      · rw [stands] at looks
        obtain ⟨others, isFolder⟩ := (eq_of_face looks).1 entries rfl
        rw [isFolder]
        exact inductionHypothesis onward
      · rw [stands] at looks
        rw [(eq_of_face looks).2 target rfl]
        simp

/-- The same for a way through links. -/
theorem walk_place
    {links : Nat} {folders todo : List String} {spot : Spot}
    (walks : walk root true links folders todo = .ok spot) (isThere : spot.names = names) :
    walk (root.place names (file content)) true links folders todo =
      .ok (.taken names (file content)) := by
  induction links generalizing folders todo with
  | zero =>
      rcases walk_cases walks with strides | ⟨left, holder, target, rest, isLess, -⟩
      · exact walk_of_ended ((stride_place isPlace content strides).2 spot rfl isThere)
      · cases isLess
  | succ links inductionHypothesis =>
      rcases walk_cases walks with
        strides | ⟨left, holder, target, rest, isLess, strides, onward⟩
      · exact walk_of_ended ((stride_place isPlace content strides).2 spot rfl isThere)
      · cases isLess
        have sameStride := (stride_place isPlace content strides).1 holder target rest rfl
        rw [walk_of_linked sameStride]
        exact inductionHypothesis onward

end Placed

/-! ## Where paths lead -/

/-- A spot that is in a tree. -/
def Spot.Fits (root : Entry) : Spot → Prop
  | .taken names entry => root.at? names = some entry
  | .vacant names => root.FilePlace names

/-- Above a folder there are folders. -/
theorem at?_tail_reverse
    {root : Entry} {folders : List String} {entries : List (String × Entry)}
    (isFolder : root.at? folders.reverse = some (folder entries)) :
    ∃ others, root.at? folders.tail.reverse = some (folder others) := by
  cases folders with
  | nil =>
      exact ⟨entries, isFolder⟩
  | cons name rest =>
      rw [List.reverse_cons, at?_snoc] at isFolder
      obtain ⟨parent, isParent, isChild⟩ := Option.bind_eq_some_iff.mp isFolder
      obtain ⟨others, rfl, -⟩ := eq_folder_of_child? isChild
      exact ⟨others, isParent⟩

/-- Above every folder there is the root. -/
theorem isFolder_root
    {root : Entry} {names : List String} {entries : List (String × Entry)}
    (isFolder : root.at? names = some (folder entries)) :
    root.isFolder = true := by
  cases names with
  | nil =>
      cases isFolder
      rfl
  | cons name rest =>
      obtain ⟨next, isChild, -⟩ := Option.bind_eq_some_iff.mp isFolder
      obtain ⟨others, rfl, -⟩ := eq_folder_of_child? isChild
      rfl

/-- A path begins in a folder. -/
theorem isFolder_outset
    {root : Entry} {folders : List String} {entries : List (String × Entry)}
    (isFolder : root.at? folders.reverse = some (folder entries)) (path : String) :
    ∃ others, root.at? (outset folders path).reverse = some (folder others) := by
  rw [outset]
  split
  · obtain ⟨others, rfl⟩ := exists_folder_of_isFolder (isFolder_root isFolder)
    exact ⟨others, rfl⟩
  · exact ⟨entries, isFolder⟩

theorem Strides.fits
    {root : Entry} {reached : Stride} {folders todo : List String}
    (way : Strides root reached folders todo) {entries : List (String × Entry)}
    (isFolder : root.at? folders.reverse = some (folder entries)) :
    (∀ holder target rest, reached = .linked holder target rest →
      ∃ others, root.at? holder.reverse = some (folder others)) ∧
    (∀ spot, reached = .ended spot → spot.Fits root) := by
  induction way generalizing entries with
  | stop stands ended =>
      subst ended
      refine ⟨by simp, ?_⟩
      rintro spot isSpot
      cases isSpot
      exact stands
  | stay _ inductionHypothesis =>
      exact inductionHypothesis isFolder
  | leave _ inductionHypothesis =>
      obtain ⟨others, isAbove⟩ := at?_tail_reverse isFolder
      exact inductionHypothesis isAbove
  | enter _ _ stands _ inductionHypothesis =>
      exact inductionHypothesis stands
  | @vacant folders step _ _ stands ended =>
      subst ended
      refine ⟨by simp, ?_⟩
      rintro spot isSpot
      cases isSpot
      refine ⟨folders.reverse, step, entries, List.reverse_cons, isFolder, ?_⟩
      rw [List.reverse_cons, at?_snoc, isFolder] at stands
      intro entry isEntry
      exact absurd (isEntry.symm.trans stands) (by simp)
  | file _ _ stands ended =>
      subst ended
      refine ⟨by simp, ?_⟩
      rintro spot isSpot
      cases isSpot
      exact stands
  | link _ _ _ ended =>
      subst ended
      refine ⟨?_, by simp⟩
      rintro holder _ _ isLink
      cases isLink
      exact ⟨entries, isFolder⟩

theorem walk_fits
    {root : Entry} {links : Nat} {folders todo : List String} {spot : Spot}
    (walks : walk root true links folders todo = .ok spot)
    {entries : List (String × Entry)}
    (isFolder : root.at? folders.reverse = some (folder entries)) :
    spot.Fits root := by
  induction links generalizing folders todo entries with
  | zero =>
      rcases walk_cases walks with strides | ⟨left, holder, target, rest, isLess, -⟩
      · exact ((strides_of_stride strides).fits isFolder).2 spot rfl
      · cases isLess
  | succ links inductionHypothesis =>
      rcases walk_cases walks with
        strides | ⟨left, holder, target, rest, isLess, strides, onward⟩
      · exact ((strides_of_stride strides).fits isFolder).2 spot rfl
      · cases isLess
        have fits := (strides_of_stride strides).fits isFolder
        obtain ⟨others, isHolder⟩ := fits.1 holder target rest rfl
        obtain ⟨entriesThere, isFolderThere⟩ := isFolder_outset isHolder target
        exact inductionHypothesis onward isFolderThere

end ShapeAudit.Files.Entry

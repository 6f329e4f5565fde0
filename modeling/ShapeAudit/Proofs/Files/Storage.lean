import ShapeAudit.Files.Storage
import ShapeAudit.Proofs.Files.Tree
import ShapeAudit.Proofs.Text.Octets

/-!
# Writing a file

Work goes on in a folder of the tree.  A path leads from there, or from the root,
to something that stands in the tree, or to a place in a folder.  A file that is
written at a path is found again by the same path.
-/

namespace ShapeAudit.Files.Storage

open Entry (Spot)

/-! ## Where paths lead -/

/-- The working folder is a folder of the tree. -/
def Grounded (storage : Storage) : Prop :=
  ∃ entries, storage.root.at? storage.here = some (.folder entries)

theorem grounded_iff (storage : Storage) :
    storage.Grounded ↔ (storage.root.at? storage.here).any Entry.isFolder = true := by
  rw [Option.any_eq_true_iff_get, Grounded]
  constructor
  · rintro ⟨entries, isFolder⟩
    simp [isFolder, Entry.isFolder]
  · rintro ⟨isThere, isFolder⟩
    obtain ⟨entries, isEntries⟩ := Entry.exists_folder_of_isFolder isFolder
    exact ⟨entries, by rw [← isEntries, Option.some_get]⟩

instance (storage : Storage) : Decidable storage.Grounded :=
  decidable_of_iff _ storage.grounded_iff.symm

theorem Grounded.rooted {storage : Storage} (grounded : storage.Grounded) :
    storage.root.isFolder = true := by
  obtain ⟨entries, isFolder⟩ := grounded
  exact Entry.isFolder_root isFolder

/-- A path begins in a folder. -/
theorem Grounded.outset {storage : Storage} (grounded : storage.Grounded) (path : String) :
    ∃ entries, storage.root.at? (Entry.outset storage.here.reverse path).reverse =
      some (.folder entries) := by
  obtain ⟨entries, isFolder⟩ := grounded
  apply Entry.isFolder_outset
  rw [List.reverse_reverse]
  exact isFolder

theorem locate_of_ne_empty
    (storage : Storage) (followLast : Bool) {path : String} (somePath : path ≠ "") :
    storage.locate followLast path =
      storage.root.walk followLast linkLimit (Entry.outset storage.here.reverse path)
        (steps path) := by
  rw [locate, if_neg (by simpa using somePath)]

theorem walk_of_locate
    {storage : Storage} {followLast : Bool} {path : String} {spot : Spot}
    (located : storage.locate followLast path = .ok spot) :
    path ≠ "" ∧ storage.root.walk followLast linkLimit
      (Entry.outset storage.here.reverse path) (steps path) = .ok spot := by
  have somePath : path ≠ "" := by
    rintro rfl
    simp [locate] at located
  exact ⟨somePath, storage.locate_of_ne_empty followLast somePath ▸ located⟩

theorem locate_fits
    {storage : Storage} (grounded : storage.Grounded) {path : String} {spot : Spot}
    (located : storage.locate true path = .ok spot) :
    spot.Fits storage.root := by
  obtain ⟨entries, isFolder⟩ := grounded.outset path
  exact Entry.walk_fits (walk_of_locate located).2 isFolder

theorem status_of_locate
    {storage : Storage} {entry : Entry} {path : String} {names : List String}
    (located : storage.locate true path = .ok (.taken names entry)) :
    storage.status path = .ok entry := by
  rw [status, located]
  rfl

theorem exists_locate_of_status
    {storage : Storage} {entry : Entry} {path : String}
    (isEntry : storage.status path = .ok entry) :
    ∃ names, storage.locate true path = .ok (.taken names entry) := by
  cases located : storage.locate true path with
  | error fault =>
      simp [status, located, bind, Except.bind] at isEntry
  | ok spot =>
      cases spot with
      | vacant names =>
          simp [status, located, bind, Except.bind] at isEntry
      | taken names other =>
          have isOther : other = entry := by
            simpa [status, located, bind, Except.bind] using isEntry
          exact ⟨names, by rw [isOther]⟩

/-! ## Putting files -/

section Placed

variable {storage : Storage} {names : List String}

/-- The working folder is no place for a file. -/
theorem grounded_place
    (grounded : storage.Grounded) (isPlace : storage.root.FilePlace names)
    (content : List UInt8) :
    (storage.place names (.file content)).Grounded := by
  obtain ⟨entries, isFolder⟩ := grounded
  have elsewhere : storage.here ≠ names := by
    rintro rfl
    obtain ⟨old, isFile⟩ := Entry.eq_file_of_filePlace isPlace isFolder
    cases isFile
  have looks := Entry.at?_place_of_ne isPlace elsewhere content
  rw [isFolder] at looks
  exact (Entry.eq_of_face looks).1 entries rfl

/-- The path that leads to a place leads to the file that is placed there. -/
theorem locate_place
    (isPlace : storage.root.FilePlace names) (content : List UInt8) {path : String}
    {spot : Spot} (located : storage.locate true path = .ok spot) (isThere : spot.names = names) :
    (storage.place names (.file content)).locate true path =
      .ok (.taken names (.file content)) := by
  obtain ⟨somePath, walks⟩ := walk_of_locate located
  rw [locate_of_ne_empty _ _ somePath]
  exact Entry.walk_place isPlace content walks isThere

end Placed

/-! ## Writing and reading -/

theorem locate_of_read
    {storage : Storage} {path : String} {content : List UInt8}
    (held : storage.read path = .ok content) :
    ∃ names, storage.locate true path = .ok (.taken names (.file content)) := by
  cases located : storage.locate true path with
  | error fault =>
      simp [read, located, bind, Except.bind] at held
  | ok spot =>
      cases spot with
      | vacant names =>
          simp [read, located, bind, Except.bind] at held
      | taken names entry =>
          simp only [read, located, bind, Except.bind] at held
          split at held
          · cases held
          · cases entry <;> cases held
            exact ⟨names, rfl⟩

theorem status_of_read
    {storage : Storage} {path : String} {content : List UInt8}
    (held : storage.read path = .ok content) :
    storage.status path = .ok (.file content) := by
  obtain ⟨names, located⟩ := locate_of_read held
  exact status_of_locate located

theorem writeAt_eq_ok
    {storage after : Storage} {names found : List String} {content : List UInt8}
    (written : storage.writeAt names content = .ok (found, after)) :
    found = names ∧ after = storage.place names (.file content) := by
  rw [writeAt] at written
  split at written
  · cases written
  · cases written
    exact ⟨rfl, rfl⟩

/-- A file is written where its path leads, over a file or where nothing stands. -/
theorem write_eq_ok
    {storage : Storage} {path : String} {content : List UInt8} {names : List String}
    {after : Storage} (written : storage.write path content = .ok (names, after)) :
    after = storage.place names (.file content) ∧
      (storage.locate true path = .ok (.vacant names) ∨
        ∃ old, storage.locate true path = .ok (.taken names (.file old))) := by
  rw [write] at written
  split at written
  · split at written <;> cases written
  · cases located : storage.locate true path with
    | error fault =>
        simp [located, bind, Except.bind] at written
    | ok spot =>
        cases spot with
        | vacant found =>
            simp only [located, bind, Except.bind] at written
            obtain ⟨rfl, rfl⟩ := writeAt_eq_ok written
            exact ⟨rfl, Or.inl rfl⟩
        | taken found entry =>
            cases entry with
            | file old =>
                simp only [located, bind, Except.bind] at written
                obtain ⟨rfl, rfl⟩ := writeAt_eq_ok written
                exact ⟨rfl, Or.inr ⟨old, rfl⟩⟩
            | folder entries =>
                simp [located, bind, Except.bind] at written
            | link target =>
                simp [located, bind, Except.bind] at written

/-- A path leads to a file with some content. -/
structure HoldsAt (path : String) (names : List String) (storage : Storage)
    (content : List UInt8) : Prop where
  grounded : storage.Grounded
  located : storage.locate true path = .ok (.taken names (.file content))

/-- What was written is there. -/
theorem holdsAt_of_write
    {storage : Storage} (grounded : storage.Grounded) {path : String} {content : List UInt8}
    {names : List String} {after : Storage}
    (written : storage.write path content = .ok (names, after)) :
    HoldsAt path names after content := by
  obtain ⟨rfl, located | ⟨old, located⟩⟩ := write_eq_ok written
  · have isPlace : storage.root.FilePlace names := locate_fits grounded located
    exact ⟨grounded_place grounded isPlace content, locate_place isPlace content located rfl⟩
  · have isPlace := Entry.filePlace_of_file grounded.rooted (locate_fits grounded located)
    exact ⟨grounded_place grounded isPlace content, locate_place isPlace content located rfl⟩

namespace HoldsAt

variable {path : String} {names : List String} {storage : Storage} {content : List UInt8}
  (isHeld : HoldsAt path names storage content)

include isHeld

theorem stands : storage.root.at? names = some (.file content) :=
  locate_fits isHeld.grounded isHeld.located

theorem status : storage.status path = .ok (.file content) :=
  status_of_locate isHeld.located

/-- A text goes behind what the file holds. -/
theorem appended (text : String) :
    HoldsAt path names (storage.append names text) (content ++ Text.octets text) := by
  have isPlace := Entry.filePlace_of_file isHeld.grounded.rooted isHeld.stands
  rw [Storage.append, isHeld.stands]
  exact ⟨grounded_place isHeld.grounded isPlace _,
    locate_place isPlace _ isHeld.located rfl⟩

end HoldsAt

end ShapeAudit.Files.Storage

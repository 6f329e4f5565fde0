import ShapeAudit.Proofs.Files.Expansion

/-!
# Where spellings lead

In a tree without links the components of a path tell where it leads: a name goes
into a folder, two points go back to the folder around it, and one point goes
nowhere.  A path behind another one leads to what stands behind it.
-/

namespace ShapeAudit.Files

/-! ## Trails -/

/-- One step along a path, from a folder given by its names, innermost first. -/
def onward (folders : List String) (step : String) : List String :=
  if step = "." then folders
  else if step = ".." then folders.tail
  else step :: folders

theorem onward_of_name
    {step : String} (notHere : step ≠ ".") (notUp : step ≠ "..") (folders : List String) :
    onward folders step = step :: folders := by
  rw [onward, if_neg notHere, if_neg notUp]

/-- The names to which the components of a path lead from a folder. -/
def trail (here parts : List String) : List String :=
  if parts.head? = some "/" then (parts.tail.foldl onward []).reverse
  else (parts.foldl onward here.reverse).reverse

theorem foldl_onward_filter (folders steps : List String) :
    (steps.filter fun step => step != ".").foldl onward folders = steps.foldl onward folders := by
  induction steps generalizing folders with
  | nil =>
      rfl
  | cons step rest inductionHypothesis =>
      by_cases here : step = "."
      · have stays : onward folders step = folders := if_pos here
        rw [List.filter_cons_of_neg (by simp [here]), inductionHypothesis, List.foldl_cons, stays]
      · rw [List.filter_cons_of_pos (by simp [here]), List.foldl_cons, List.foldl_cons,
          inductionHypothesis]

theorem foldl_onward_of_plain {steps : List String} (notHere : "." ∉ steps)
    (notUp : ".." ∉ steps) (folders : List String) :
    steps.foldl onward folders = steps.reverse ++ folders := by
  induction steps generalizing folders with
  | nil =>
      rfl
  | cons step rest inductionHypothesis =>
      obtain ⟨stepNotHere, restNotHere⟩ := not_or.mp (mt List.mem_cons.mpr notHere)
      obtain ⟨stepNotUp, restNotUp⟩ := not_or.mp (mt List.mem_cons.mpr notUp)
      rw [List.foldl_cons, onward_of_name (Ne.symm stepNotHere) (Ne.symm stepNotUp),
        inductionHypothesis restNotHere restNotUp, List.reverse_cons, List.append_assoc,
        List.singleton_append]

theorem trail_of_plain {here parts : List String} (notHere : "." ∉ parts)
    (notUp : ".." ∉ parts) :
    trail here parts = if parts.head? = some "/" then parts.tail else here ++ parts := by
  have notHereBehind : "." ∉ parts.tail := mt List.mem_of_mem_tail notHere
  have notUpBehind : ".." ∉ parts.tail := mt List.mem_of_mem_tail notUp
  rw [trail, foldl_onward_of_plain notHereBehind notUpBehind,
    foldl_onward_of_plain notHere notUp]
  simp

/-! ## Steps and components -/

theorem exists_splitAt (path : String) :
    ∃ front last, Text.splitAt '/' path = front ++ [last] := by
  have someParts : Text.splitAt '/' path ≠ [] := by
    simpa [Text.splitAt] using Text.splitChars_ne_nil '/' path.toList
  exact ⟨_, _, (List.dropLast_append_getLast someParts).symm⟩

theorem steps_of_closed
    {path : String} {front : List String} (parts : Text.splitAt '/' path = front ++ [""]) :
    steps path = (front.filter fun part => part != "") ++ ["."] := by
  simp [steps, parts]

theorem steps_of_open
    {path last : String} {front : List String} (someLast : last ≠ "")
    (parts : Text.splitAt '/' path = front ++ [last]) :
    steps path = (front.filter fun part => part != "") ++ [last] := by
  simp [steps, parts]

/-- The steps to a name in a folder are those to the folder and the name, but for
a last step that stays where it is. -/
theorem steps_child
    {path name : String} (somePath : path ≠ "") (isName : IsName name) :
    ∃ front last, (last = [] ∨ last = ["."]) ∧ steps path = front ++ last ∧
      steps (child path name) = front ++ [name] := by
  rcases splitAt_child somePath isName.single with
    ⟨front, -, parts, childParts⟩ | ⟨front, last, someLast, parts, childParts⟩
  · exact ⟨_, ["."], Or.inr rfl, steps_of_closed parts, steps_of_open isName.ne_empty childParts⟩
  · refine ⟨_, [], Or.inl rfl, by rw [List.append_nil], ?_⟩
    rw [steps_of_open isName.ne_empty childParts, steps_of_open someLast parts,
      List.filter_append]
    simp [someLast]

theorem isAbsolute_child {path : String} (somePath : path ≠ "") (name : String) :
    isAbsolute (child path name) = isAbsolute path := by
  have someChars : path.toList ≠ [] := fun noChars => somePath (String.toList_inj.mp noChars)
  obtain ⟨c, rest, chars⟩ := List.exists_cons_of_ne_nil someChars
  rw [isAbsolute, isAbsolute, child]
  split <;> simp [chars]

theorem components_getLast?
    {path last : String} {front : List String} (someLast : last ≠ "") (notHere : last ≠ ".")
    (parts : Text.splitAt '/' path = front ++ [last]) :
    (components path).getLast? = some last := by
  cases front with
  | nil =>
      simp [components, parts, someLast]
  | cons first middle =>
      have kept : [last].filter (fun part => part != "" && part != ".") = [last] := by
        simp [someLast, notHere]
      rw [components_of_parts parts, List.filter_append, kept, ← List.cons_append,
        List.getLast?_concat]

/-- The steps along a path are its parts, but for those that go nowhere. -/
theorem filter_steps (path : String) :
    (steps path).filter (fun step => step != ".") =
      (Text.splitAt '/' path).filter fun part => part != "" && part != "." := by
  obtain ⟨front, last, parts⟩ := exists_splitAt path
  rw [parts]
  by_cases closed : last = ""
  · rw [closed] at parts ⊢
    rw [steps_of_closed parts]
    simp [Bool.and_comm]
  · rw [steps_of_open closed parts]
    simp [closed, Bool.and_comm, List.filter_cons]

/-- The parts of a path that are components behind the first one. -/
def furtherParts (parts : List String) : List String :=
  parts.filter fun part => part != "" && part != "."

/-- An absolute path has a slash as its first component, any other one the part
that it begins with. -/
theorem components_cases {path : String} (somePath : path ≠ "") :
    (isAbsolute path = true ∧ ∃ others, Text.splitAt '/' path = "" :: others ∧
      components path = "/" :: furtherParts others) ∨
    (isAbsolute path = false ∧ ∃ first others, first ≠ "" ∧ first ≠ "/" ∧
      Text.splitAt '/' path = first :: others ∧
      components path = first :: furtherParts others) := by
  have someChars : path.toList ≠ [] := fun noChars => somePath (String.toList_inj.mp noChars)
  obtain ⟨c, rest, chars⟩ := List.exists_cons_of_ne_nil someChars
  obtain ⟨second, more, restParts⟩ :=
    List.exists_cons_of_ne_nil (Text.splitChars_ne_nil '/' rest)
  by_cases isSlash : c = '/'
  · have parts : Text.splitAt '/' path = "" :: (second :: more).map String.ofList := by
      simp [Text.splitAt, chars, Text.splitChars, isSlash, restParts]
    refine Or.inl ⟨by simp [isAbsolute, chars, isSlash], _, parts, ?_⟩
    simp [components, parts, furtherParts]
  · have parts : Text.splitAt '/' path =
        String.ofList (c :: second) :: more.map String.ofList := by
      simp [Text.splitAt, chars, Text.splitChars, isSlash, restParts]
    have someFirst : String.ofList (c :: second) ≠ "" := by
      intro isEmpty
      have noChars := congrArg String.toList isEmpty
      simp at noChars
    have notSlash : String.ofList (c :: second) ≠ "/" := by
      intro isOnlySlash
      have noSlash := slash_not_mem_of_mem_splitAt (parts ▸ List.mem_cons_self)
      rw [isOnlySlash] at noSlash
      exact noSlash (by decide)
    refine Or.inr ⟨by simp [isAbsolute, chars, isSlash], _, _, someFirst, notSlash, parts, ?_⟩
    simp [components, parts, furtherParts]

theorem filter_furtherParts (parts : List String) :
    (furtherParts parts).filter (fun part => part != ".") = furtherParts parts := by
  apply List.filter_eq_self.mpr
  intro part isKept
  exact (Bool.and_eq_true_iff.mp (List.mem_filter.mp isKept).2).2

/-- The components of a path tell where its steps lead. -/
theorem trail_components {path : String} (somePath : path ≠ "") (here : List String) :
    ((steps path).foldl onward (Entry.outset here.reverse path)).reverse =
      trail here (components path) := by
  rw [← foldl_onward_filter, filter_steps, Entry.outset]
  rcases components_cases somePath with
    ⟨isAbsolute, others, parts, areComponents⟩ |
      ⟨isRelative, first, others, someFirst, notSlash, parts, areComponents⟩
  · rw [if_pos isAbsolute, parts, areComponents, trail, if_pos List.head?_cons]
    rfl
  · have sameSteps : (first :: others).filter (fun part => part != "" && part != ".") =
        (components path).filter fun part => part != "." := by
      rw [areComponents, List.filter_cons, List.filter_cons, filter_furtherParts, furtherParts]
      simp [someFirst]
    rw [if_neg (by simp [isRelative]), parts, sameSteps, foldl_onward_filter, trail,
      if_neg (by simp [areComponents, notSlash])]

/-- What a path begins with shows in its components. -/
theorem head?_components_iff {path : String} (somePath : path ≠ "") :
    (components path).head? = some "/" ↔ isAbsolute path = true := by
  rcases components_cases somePath with
    ⟨isAbsolute, others, -, areComponents⟩ |
      ⟨isRelative, first, others, -, notSlash, -, areComponents⟩
  · simp [areComponents, isAbsolute]
  · simp [areComponents, isRelative, notSlash]

/-! ## Trees without links -/

namespace Entry

/-- No names lead to a link. -/
def LinkFree (root : Entry) : Prop :=
  ∀ names target, root.at? names ≠ some (link target)

theorem linkFree_file (content : List UInt8) : (file content).LinkFree := by
  intro names target
  cases names <;> simp [at?, child?]

theorem linkFree_folder
    {entries : List (String × Entry)} (areLinkFree : ∀ pair ∈ entries, pair.2.LinkFree) :
    (folder entries).LinkFree := by
  intro names target stands
  cases names with
  | nil =>
      cases stands
  | cons name rest =>
      obtain ⟨next, isChild, further⟩ := Option.bind_eq_some_iff.mp stands
      exact areLinkFree _ (mem_of_find? isChild) rest target further

theorem Strides.ne_linked
    {root : Entry} (linkFree : root.LinkFree) {reached : Stride} {folders todo : List String}
    (way : Strides root reached folders todo) (holder : List String) (target : String)
    (rest : List String) :
    reached ≠ .linked holder target rest := by
  induction way with
  | stop _ ended =>
      simp [ended]
  | stay _ inductionHypothesis =>
      exact inductionHypothesis
  | leave _ inductionHypothesis =>
      exact inductionHypothesis
  | enter _ _ _ _ inductionHypothesis =>
      exact inductionHypothesis
  | vacant _ _ _ ended =>
      simp [ended]
  | file _ _ _ ended =>
      simp [ended]
  | link _ _ stands _ =>
      exact absurd stands (linkFree _ _)

theorem LinkFree.stride_of_locate
    {storage : Storage} (linkFree : storage.root.LinkFree) {path : String} {spot : Spot}
    (located : storage.locate true path = .ok spot) :
    path ≠ "" ∧ stride storage.root true (outset storage.here.reverse path) (steps path) =
      .ok (.ended spot) := by
  obtain ⟨somePath, walks⟩ := Storage.walk_of_locate located
  refine ⟨somePath, ?_⟩
  rcases walk_cases walks with ended | ⟨left, holder, target, rest, -, linked, -⟩
  · exact ended
  · exact absurd rfl ((strides_of_stride linked).ne_linked linkFree holder target rest)

theorem locate_of_stride
    {storage : Storage} {path : String} {spot : Spot} (somePath : path ≠ "")
    (isOk : stride storage.root true (outset storage.here.reverse path) (steps path) =
      .ok (.ended spot)) :
    storage.locate true path = .ok spot := by
  rw [Storage.locate_of_ne_empty _ _ somePath, walk_of_ended isOk]

/-- A stride that ends at something goes along the trail of its steps. -/
theorem Strides.names_eq
    {root entry : Entry} {folders todo names : List String}
    (way : Strides root (.ended (.taken names entry)) folders todo) :
    names = (todo.foldl onward folders).reverse := by
  induction way with
  | stop _ ended =>
      cases ended
      rfl
  | stay _ inductionHypothesis =>
      rw [inductionHypothesis, List.foldl_cons]
      rfl
  | leave _ inductionHypothesis =>
      rw [inductionHypothesis, List.foldl_cons]
      rfl
  | enter notHere notUp _ _ inductionHypothesis =>
      rw [inductionHypothesis, List.foldl_cons, onward_of_name notHere notUp]
  | vacant _ _ _ ended =>
      cases ended
  | file notHere notUp _ ended =>
      cases ended
      rw [List.foldl_cons, onward_of_name notHere notUp]
      rfl
  | link _ _ _ ended =>
      cases ended

theorem Strides.last_step
    {root : Entry} {folders todo names : List String} {content : List UInt8}
    (way : Strides root (.ended (.taken names (.file content))) folders todo)
    {entries : List (String × Entry)}
    (isFolder : root.at? folders.reverse = some (folder entries)) :
    ∃ front name, todo = front ++ [name] ∧ name ≠ "." ∧ names.getLast? = some name := by
  -- what comes before the last step does not matter
  have further : ∀ {step : String} {rest : List String},
      (∃ front name, rest = front ++ [name] ∧ name ≠ "." ∧ names.getLast? = some name) →
      ∃ front name, step :: rest = front ++ [name] ∧ name ≠ "." ∧
        names.getLast? = some name := by
    rintro step _ ⟨front, name, rfl, notHere, isLast⟩
    exact ⟨step :: front, name, rfl, notHere, isLast⟩
  induction way generalizing entries with
  | stop stands ended =>
      cases ended
      cases stands.symm.trans isFolder
  | stay _ inductionHypothesis =>
      exact further (inductionHypothesis isFolder)
  | leave _ inductionHypothesis =>
      obtain ⟨others, isAbove⟩ := at?_tail_reverse isFolder
      exact further (inductionHypothesis isAbove)
  | enter _ _ stands _ inductionHypothesis =>
      exact further (inductionHypothesis stands)
  | vacant _ _ _ ended =>
      cases ended
  | @file _ step _ notHere _ _ ended =>
      cases ended
      exact ⟨[], step, rfl, notHere, by simp⟩
  | link _ _ _ ended =>
      cases ended

/-- A way to a folder can be gone on from there. -/
theorem stride_append
    {root : Entry} {folders front last names : List String} {entries : List (String × Entry)}
    (stays : last = [] ∨ last = ["."])
    (isOk : stride root true folders (front ++ last) =
      .ok (.ended (.taken names (folder entries))))
    (more : List String) :
    stride root true folders (front ++ more) = stride root true names.reverse more := by
  induction front generalizing folders with
  | nil =>
      have areNames : names = folders.reverse := by
        have isTrail := (strides_of_stride isOk).names_eq
        rcases stays with rfl | rfl
        · exact isTrail
        · exact isTrail
      rw [areNames, List.reverse_reverse, List.nil_append]
  | cons step rest inductionHypothesis =>
      simp only [List.cons_append] at isOk ⊢
      by_cases here : step = "."
      · simp only [stride, here, if_true] at isOk ⊢
        exact inductionHypothesis isOk
      by_cases up : step = ".."
      · simp only [stride, up, String.reduceEq, if_true, if_false] at isOk ⊢
        exact inductionHypothesis isOk
      rcases stride_cons_cases here up isOk with
        ⟨-, ⟨-, ended⟩ | ⟨content, -, ended⟩⟩ | ⟨others, stands, further⟩ | ⟨target, -, ended⟩
      · cases ended
      · cases ended
      · rw [stride_cons root folders (rest ++ more) here up, stands]
        exact inductionHypothesis further
      · cases ended

end Entry

end ShapeAudit.Files

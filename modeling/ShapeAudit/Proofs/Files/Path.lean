import ShapeAudit.Files.Path
import ShapeAudit.Proofs.Text.Pieces

/-!
# Paths and their components

Going from a folder to a name in it adds the name to the components of its path,
however the path is spelled.  The ending of a script is the extension of the last
component.
-/

namespace ShapeAudit.Files

/-! ## Names -/

/-- What can stand as a name in a folder. -/
structure IsName (name : String) : Prop where
  ne_empty : name ≠ ""
  single : '/' ∉ name.toList
  ne_here : name ≠ "."
  ne_up : name ≠ ".."

instance (name : String) : Decidable (IsName name) :=
  decidable_of_iff (name ≠ "" ∧ '/' ∉ name.toList ∧ name ≠ "." ∧ name ≠ "..")
    ⟨fun ⟨someName, single, notHere, notUp⟩ => ⟨someName, single, notHere, notUp⟩,
      fun isName => ⟨isName.ne_empty, isName.single, isName.ne_here, isName.ne_up⟩⟩

/-- A name with an extension: what stands behind its last point, with something
before that point. -/
def HasExtension (name extension : String) : Prop :=
  ∃ stem, stem ≠ "" ∧ '.' ∉ extension.toList ∧ name = stem ++ "." ++ extension

theorem hasScriptEnding_iff {name : String} :
    hasScriptEnding name = true ↔ HasExtension name "js" := by
  rw [hasScriptEnding]
  constructor
  · intro hasEnding
    split at hasEnding
    · rename_i c front isReversed
      refine ⟨String.ofList (c :: front).reverse, ?_, by decide, ?_⟩
      · intro isEmpty
        have noChars := congrArg String.toList isEmpty
        simp at noChars
      · apply String.toList_inj.mp
        rw [← List.reverse_reverse name.toList, isReversed]
        simp
    · cases hasEnding
  · rintro ⟨stem, someStem, -, rfl⟩
    have someChars : stem.toList.reverse ≠ [] := by
      intro noChars
      exact someStem (String.toList_inj.mp (List.reverse_eq_nil_iff.mp noChars))
    obtain ⟨c, front, isReversed⟩ := List.exists_cons_of_ne_nil someChars
    simp [isReversed]

/-- The extension of a path is that of its last component. -/
def PathHasExtension (path extension : String) : Prop :=
  ∃ name, (components path).getLast? = some name ∧ HasExtension name extension

theorem isScript_iff {path : String} :
    isScript path = true ↔ PathHasExtension path "js" := by
  rw [isScript, fileName?, PathHasExtension]
  cases (components path).getLast? with
  | none =>
      simp
  | some name =>
      simp only [Option.some.injEq, exists_eq_left']
      rw [← hasScriptEnding_iff]
      by_cases special : name = "." ∨ name = ".." ∨ name = "/"
      · rcases special with rfl | rfl | rfl <;> decide
      · have ordinary : (name == "." || name == ".." || name == "/") = false := by
          simpa [and_assoc] using special
        simp [ordinary]

/-! ## Parts of a path -/

theorem splitAt_append_slash (before after : String) :
    Text.splitAt '/' (before ++ "/" ++ after) =
      Text.splitAt '/' before ++ Text.splitAt '/' after := by
  have chars : (before ++ "/" ++ after).toList = before.toList ++ '/' :: after.toList := by
    simp
  rw [Text.splitAt, chars, Text.splitChars_append_cons, List.map_append]
  rfl

theorem splitAt_of_not_mem {text : String} (noSlash : '/' ∉ text.toList) :
    Text.splitAt '/' text = [text] := by
  rw [Text.splitAt, Text.splitChars_of_not_mem noSlash, List.map_singleton, String.ofList_toList]

theorem slash_not_mem_of_mem_splitAt
    {path part : String} (isPart : part ∈ Text.splitAt '/' path) :
    '/' ∉ part.toList := by
  obtain ⟨chars, areChars, rfl⟩ := List.mem_map.mp isPart
  rw [String.toList_ofList]
  exact Text.not_mem_of_mem_splitChars areChars

theorem endsWithSlash_of_last
    {last : String} (someLast : last ≠ "") (noSlash : '/' ∉ last.toList) (front : String) :
    endsWithSlash (front ++ last) = false := by
  have someChars : last.toList ≠ [] := fun noChars => someLast (String.toList_inj.mp noChars)
  have isLast : (front ++ last).toList.getLast? = some (last.toList.getLast someChars) := by
    rw [String.toList_append, List.getLast?_append, List.getLast?_eq_some_getLast someChars,
      Option.some_or]
  rw [endsWithSlash, isLast]
  simp only [beq_eq_false_iff_ne, ne_eq, Option.some.injEq]
  intro isSlash
  exact noSlash (isSlash ▸ List.getLast_mem someChars)

/-- A path ends with a slash or with a part that is not empty. -/
theorem exists_last_part {path : String} (somePath : path ≠ "") :
    (∃ front, path = front ++ "/") ∨
      endsWithSlash path = false ∧
        ∃ parts last, last ≠ "" ∧ Text.splitAt '/' path = parts ++ [last] := by
  by_cases hasSlash : '/' ∈ path.toList
  · obtain ⟨before, after, parted, noneAfter⟩ := Text.exists_last hasSlash
    have isPath : path = String.ofList before ++ "/" ++ String.ofList after := by
      apply String.toList_inj.mp
      rw [parted]
      simp
    have noSlash : '/' ∉ (String.ofList after).toList := by
      rwa [String.toList_ofList]
    by_cases nothingAfter : String.ofList after = ""
    · rw [nothingAfter, String.append_empty] at isPath
      exact Or.inl ⟨_, isPath⟩
    · rw [isPath]
      refine Or.inr ⟨endsWithSlash_of_last nothingAfter noSlash _,
        Text.splitAt '/' (String.ofList before), String.ofList after, nothingAfter, ?_⟩
      rw [splitAt_append_slash, splitAt_of_not_mem noSlash]
  · have isOpen := endsWithSlash_of_last somePath hasSlash ""
    rw [String.empty_append] at isOpen
    exact Or.inr ⟨isOpen, [], path, somePath, splitAt_of_not_mem hasSlash⟩

/-- The parts of the path of a name in a folder.  A slash at the end of the path
of the folder is taken as the one before the name. -/
theorem splitAt_child
    {path name : String} (somePath : path ≠ "") (single : '/' ∉ name.toList) :
    (∃ front, front ≠ [] ∧ Text.splitAt '/' path = front ++ [""] ∧
      Text.splitAt '/' (child path name) = front ++ [name]) ∨
    ∃ front last, last ≠ "" ∧ Text.splitAt '/' path = front ++ [last] ∧
      Text.splitAt '/' (child path name) = front ++ [last] ++ [name] := by
  rcases exists_last_part somePath with ⟨front, rfl⟩ | ⟨isOpen, parts, last, someLast, isParts⟩
  · have isClosed : endsWithSlash (front ++ "/") = true := by
      simp [endsWithSlash]
    have isChild : child (front ++ "/") name = front ++ "/" ++ name := by
      simp [child, isClosed]
    have someParts : Text.splitAt '/' front ≠ [] := by
      simpa [Text.splitAt] using Text.splitChars_ne_nil '/' front.toList
    refine Or.inl ⟨Text.splitAt '/' front, someParts, ?_, ?_⟩
    · have closed := splitAt_append_slash front ""
      rwa [String.append_empty] at closed
    · rw [isChild, splitAt_append_slash, splitAt_of_not_mem single]
  · have isChild : child path name = path ++ "/" ++ name := by
      simp [child, somePath, isOpen]
    refine Or.inr ⟨parts, last, someLast, isParts, ?_⟩
    rw [isChild, splitAt_append_slash, splitAt_of_not_mem single, isParts]

/-! ## Components -/

/-- The components of a path of several parts. -/
theorem components_of_parts
    {path first : String} {middle : List String} {last : String}
    (parts : Text.splitAt '/' path = first :: (middle ++ [last])) :
    components path = (if first = "" then "/" else first) ::
      (middle ++ [last]).filter fun part => part != "" && part != "." := by
  rw [components, parts]
  by_cases isRoot : first = "" <;> simp [isRoot]

theorem components_child
    {path name : String} (somePath : path ≠ "") (isName : IsName name) :
    components (child path name) = components path ++ [name] := by
  have kept : [name].filter (fun part => part != "" && part != ".") = [name] := by
    simp [isName.ne_empty, isName.ne_here]
  rcases splitAt_child somePath isName.single with
    ⟨front, someFront, parts, childParts⟩ | ⟨front, last, someLast, parts, childParts⟩
  · obtain ⟨first, middle, rfl⟩ := List.exists_cons_of_ne_nil someFront
    rw [components_of_parts parts, components_of_parts childParts, List.filter_append,
      List.filter_append, kept]
    simp
  · cases front with
    | nil =>
        have alone : components path = [last] := by
          simp [components, parts, someLast]
        have isPair : Text.splitAt '/' (child path name) = last :: ([] ++ [name]) := childParts
        rw [components_of_parts isPair, alone, List.nil_append, kept, if_neg someLast]
        rfl
    | cons first middle =>
        have isLonger : Text.splitAt '/' (child path name) =
            first :: (middle ++ [last] ++ [name]) := childParts
        rw [components_of_parts parts, components_of_parts isLonger, List.filter_append, kept]
        rfl

theorem child_ne_empty {name : String} (someName : name ≠ "") (path : String) :
    child path name ≠ "" := by
  rw [child]
  split
  · simp [someName]
  · simp [someName]

/-- The path behind another one along names. -/
def extend (path : String) (names : List String) : String :=
  names.foldl child path

theorem components_extend
    {path : String} (somePath : path ≠ "") {names : List String}
    (areNames : ∀ name ∈ names, IsName name) :
    components (extend path names) = components path ++ names := by
  induction names generalizing path with
  | nil =>
      simp [extend]
  | cons name rest inductionHypothesis =>
      obtain ⟨isName, restNames⟩ := List.forall_mem_cons.mp areNames
      have furtherOn := inductionHypothesis (child_ne_empty isName.ne_empty path) restNames
      rw [components_child somePath isName] at furtherOn
      rw [extend, List.foldl_cons, ← extend, furtherOn, List.append_assoc, List.singleton_append]

end ShapeAudit.Files

import ShapeAudit.Source.Parse

/-!
# The root of a source

Whatever a source holds, its concrete tree is a program, and so is its shape.
What a reading gives is taken apart into what its parts give, one part after
the other.
-/

namespace ShapeAudit.Source

/-! ## Readings and their parts -/

namespace Reading

theorem bind_apply
    {α β : Type} (reading : Reading α) (next : α → Reading β) (cursor : Cursor) :
    (reading >>= next) cursor =
      match reading cursor with
      | .ok (value, later) => next value later
      | .error stopped => .error stopped := by
  rfl

theorem pure_apply {α : Type} (value : α) (cursor : Cursor) :
    (pure value : Reading α) cursor = .ok (value, cursor) := by
  rfl

theorem bind_of_ok
    {α β : Type} {reading : Reading α} {next : α → Reading β}
    {cursor later : Cursor} {value : α}
    (read : reading cursor = .ok (value, later)) :
    (reading >>= next) cursor = next value later := by
  rw [bind_apply, read]

theorem bind_of_error
    {α β : Type} {reading : Reading α} {next : α → Reading β}
    {cursor : Cursor} {stopped : Stop}
    (stops : reading cursor = .error stopped) :
    (reading >>= next) cursor = .error stopped := by
  rw [bind_apply, stops]

theorem inside_of_ok
    {α : Type} {kind : Kind} {reading : Reading α} {cursor : Cursor}
    {result : α × Cursor}
    (read : reading cursor = .ok result) :
    inside kind reading cursor = .ok result := by
  rw [inside, read]
  rfl

theorem bind_eq_ok
    {α β : Type} {reading : Reading α} {next : α → Reading β}
    {cursor later : Cursor} {value : β}
    (read : (reading >>= next) cursor = .ok (value, later)) :
    ∃ middle between,
      reading cursor = .ok (middle, between) ∧ next middle between = .ok (value, later) := by
  rw [bind_apply] at read
  split at read
  · rename_i middle between firstRead
    exact ⟨middle, between, firstRead, read⟩
  · cases read

theorem inside_eq_ok
    {α : Type} {kind : Kind} {reading : Reading α} {cursor : Cursor}
    {result : α × Cursor}
    (read : inside kind reading cursor = .ok result) :
    reading cursor = .ok result := by
  unfold inside at read
  cases outcome : reading cursor with
  | error stopped =>
      rw [outcome] at read
      cases read
  | ok value =>
      rw [outcome] at read
      exact read

/-- What is read first stands first. -/
theorem many_of_some
    {reading : Reading (Option (List Child))} {fuel : Nat}
    {cursor between later : Cursor} {children result : List Child}
    (firstRead : reading cursor = .ok (some children, between))
    (allRead : many reading (fuel + 1) cursor = .ok (result, later)) :
    ∃ others, result = children ++ others := by
  rw [many, bind_of_ok firstRead] at allRead
  obtain ⟨others, _, _, joined⟩ := bind_eq_ok allRead
  cases joined
  exact ⟨others, rfl⟩

@[simp]
theorem splitLast_singleton (field : Option String) (tree : Tree) :
    splitLast [(field, tree)] = ([], tree) := by
  rfl

/-- Reading a construct gives comments and then the construct. -/
theorem node_eq_ok
    {kind : Kind} {reading : Reading (List Child)}
    {cursor later : Cursor} {children : List Child}
    (constructRead : node kind reading cursor = .ok (children, later)) :
    ∃ before start inner, children = before ++ [(none, .branch kind start inner)] := by
  obtain ⟨start, _, _, afterPlace⟩ := bind_eq_ok constructRead
  obtain ⟨before, _, _, afterComments⟩ := bind_eq_ok afterPlace
  obtain ⟨inner, _, _, joined⟩ := bind_eq_ok afterComments
  cases joined
  exact ⟨before, start, inner, rfl⟩

end Reading

/-! ## Programs -/

/-- The concrete tree of a source is a program. -/
theorem readTree_eq_ok
    {chars : List Char} {tree : Tree}
    (treeRead : readTree chars = .ok tree) :
    ∃ start children, tree = .branch .program start children := by
  unfold readTree at treeRead
  split at treeRead
  · rename_i children later programRead
    obtain ⟨before, start, inner, rfl⟩ := Reading.node_eq_ok programRead
    refine ⟨start, inner, ?_⟩
    cases treeRead
    simp [Reading.splitLast]
  · cases treeRead

/-- The shape of a program holds the shapes of its children. -/
theorem lowerProgram_branch
    (options : Options) (start : Place) (children : List Child) :
    lowerProgram options (.branch .program start children) =
      (lowerChildren options .program true children []).map
        fun fields => ⟨.program, fields, none⟩ := by
  have shape : shapeOf options .program start = .ok .program := by
    simp [shapeOf, Kind.shape?, Shape.Kind.isJsx]
  cases lowered : lowerChildren options .program true children [] with
  | error fault =>
      simp [lowerProgram, lower, shape, lowered, Shape.Kind.isLexical, bind,
        Except.bind, Except.map]
  | ok fields =>
      simp [lowerProgram, lower, shape, lowered, Shape.Kind.isLexical, settle, bind,
        Except.bind, Except.map, pure, Except.pure]

theorem parse_of_readTree
    {options : Options} {text : String} {tree : Tree}
    (treeRead : readTree (Text.trimChars text.toList) = .ok tree) :
    parse options text = lowerProgram options tree := by
  unfold parse
  dsimp only
  generalize readTree (Text.trimChars text.toList) = result at treeRead ⊢
  subst treeRead
  rfl

theorem readTree_of_parse
    {options : Options} {text : String} {node : Shape.Node}
    (parsed : parse options text = .ok node) :
    ∃ tree, readTree (Text.trimChars text.toList) = .ok tree := by
  unfold parse at parsed
  dsimp only at parsed
  generalize readTree (Text.trimChars text.toList) = result at parsed ⊢
  cases result with
  | error stopped =>
      cases parsed
  | ok tree =>
      exact ⟨tree, rfl⟩

/-- A source that has a shape reads as a program, whose children make the
fields of the shape. -/
theorem parse_eq_ok
    {options : Options} {text : String} {node : Shape.Node}
    (parsed : parse options text = .ok node) :
    ∃ start children fields,
      readTree (Text.trimChars text.toList) = .ok (.branch .program start children) ∧
        lowerChildren options .program true children [] = .ok fields ∧
          node = ⟨.program, fields, none⟩ := by
  obtain ⟨tree, treeRead⟩ := readTree_of_parse parsed
  obtain ⟨start, children, rfl⟩ := readTree_eq_ok treeRead
  rw [parse_of_readTree treeRead, lowerProgram_branch] at parsed
  cases fieldsRead : lowerChildren options .program true children [] with
  | error fault =>
      simp [fieldsRead, Except.map] at parsed
  | ok fields =>
      refine ⟨start, children, fields, treeRead, fieldsRead, ?_⟩
      simpa [fieldsRead, Except.map, eq_comm] using parsed

theorem parse_of_stopped
    {text : String} {stopped : Stop}
    (stops : readTree (Text.trimChars text.toList) = .error stopped) (options : Options) :
    ∃ place explanation, parse options text = .error (.malformed place explanation) := by
  unfold parse
  dsimp only
  generalize readTree (Text.trimChars text.toList) = result at stops ⊢
  subst stops
  exact ⟨_, _, rfl⟩

theorem parse_eq_error_iff
    {text : String} {start : Place} {children : List Child}
    (treeRead : readTree (Text.trimChars text.toList) = .ok (.branch .program start children))
    (options : Options) (fault : Fault) :
    parse options text = .error fault ↔
      lowerChildren options .program true children [] = .error fault := by
  rw [parse_of_readTree treeRead, lowerProgram_branch]
  cases lowerChildren options .program true children [] with
  | error other =>
      simp [Except.map]
  | ok fields =>
      simp [Except.map]

theorem kind_of_parse
    {options : Options} {text : String} {node : Shape.Node}
    (parsed : parse options text = .ok node) :
    node.kind = .program := by
  obtain ⟨_, _, _, _, _, rfl⟩ := parse_eq_ok parsed
  rfl

end ShapeAudit.Source

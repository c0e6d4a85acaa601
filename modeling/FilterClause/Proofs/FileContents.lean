import FilterClause.FileTree

/-!
# What files hold

A tree extends another one (`FileTree.Extends`) when all that stands in the other one stays and what is
new in it is empty: a directory, or a file without bytes. Making directories and opening a file extend a
tree, also where they fail on the way (`extends_makeAlong`, `opens_openWithParents`), so no file holds
other bytes after it (`Extends.bytesAt_eq`). Only a text that is appended shows, in one file
(`bytesAt_append`).
-/

namespace FilterClause

namespace FileTree

variable {t t' t'' : FileTree} {place : Place} {node : FileNode}

/-- The bytes of the file at a place; there are none where there is no file. -/
def bytesAt (t : FileTree) (place : Place) : ByteArray :=
  match t.node? place with
  | some (.file bytes) => bytes
  | some .directory => .empty
  | none => .empty

/-- There is a file at a place. -/
def HasFile (t : FileTree) (place : Place) : Prop :=
  ∃ bytes, t.node? place = some (.file bytes)

theorem bytesAt_of_file {bytes : ByteArray} (h : t.node? place = some (.file bytes)) :
    t.bytesAt place = bytes := by
  rw [bytesAt, h]

theorem HasFile.node? (h : t.HasFile place) : t.node? place = some (.file (t.bytesAt place)) := by
  obtain ⟨bytes, hbytes⟩ := h
  rw [bytesAt_of_file hbytes, hbytes]

/-! ## Nodes that are put -/

theorem lookup_putNode (place other : Place) (node : FileNode) (nodes : List (Place × FileNode)) :
    (putNode place node nodes).lookup other =
      if other = place then some node else nodes.lookup other := by
  induction nodes with
  | nil => by_cases h : other = place <;> simp [putNode, List.lookup_cons, beq_false_of_ne, h]
  | cons entry rest ih =>
    obtain ⟨p, n⟩ := entry
    by_cases hp : p = place
    · subst hp
      by_cases h : other = p <;> simp [putNode, List.lookup_cons, beq_false_of_ne, h]
    · rw [putNode, if_neg hp]
      by_cases h : other = p
      · subst h
        simp [hp]
      · simp only [List.lookup_cons, beq_false_of_ne h, ih]

theorem node?_put (hplace : place ≠ []) (other : Place) :
    (t.put place node).node? other = if other = place then some node else t.node? other := by
  by_cases hother : other = []
  · subst hother
    rw [if_neg hplace.symm]
    rfl
  · simp only [FileTree.node?, if_neg hother, put, lookup_putNode]

/-- Only below the root can something be missing. -/
theorem ne_nil_of_node? (h : t.node? place = none) : place ≠ [] := by
  rintro rfl
  cases h

/-! ## Extensions -/

/-- All that stands in a tree stands in another one too, and what is new there is empty. -/
structure Extends (t t' : FileTree) : Prop where
  keeps : ∀ place node, t.node? place = some node → t'.node? place = some node
  new : ∀ place bytes, t.node? place = none → t'.node? place = some (.file bytes) → bytes = .empty

theorem Extends.refl (t : FileTree) : t.Extends t where
  keeps _ _ h := h
  new _ _ hnone hsome := by cases hnone.symm.trans hsome

theorem Extends.trans (h : t.Extends t') (h' : t'.Extends t'') : t.Extends t'' where
  keeps place node hnode := h'.keeps place node (h.keeps place node hnode)
  new place bytes hnone hsome := by
    cases hnode : t'.node? place with
    | none => exact h'.new place bytes hnode hsome
    | some node =>
      obtain rfl := Option.some.inj ((h'.keeps place node hnode).symm.trans hsome)
      exact h.new place bytes hnone hnode

theorem Extends.hasFile (h : t.Extends t') (hfile : t.HasFile place) : t'.HasFile place :=
  hfile.imp fun bytes hbytes => h.keeps place (.file bytes) hbytes

/-- An extension shows in no file. -/
theorem Extends.bytesAt_eq (h : t.Extends t') (place : Place) :
    t'.bytesAt place = t.bytesAt place := by
  cases hnode : t.node? place with
  | some node => rw [bytesAt, bytesAt, hnode, h.keeps place node hnode]
  | none =>
    rw [bytesAt, bytesAt, hnode]
    cases hnode' : t'.node? place with
    | none => rfl
    | some node' =>
      cases node' with
      | directory => rfl
      | file bytes => exact h.new place bytes hnode hnode'

/-- What is put where nothing was extends the tree, if it is empty itself. -/
theorem extends_put (hnone : t.node? place = none)
    (hempty : node = .directory ∨ node = .file .empty) : t.Extends (t.put place node) where
  keeps other node' hnode' := by
    rw [node?_put (ne_nil_of_node? hnone), if_neg, hnode']
    rintro rfl
    cases hnone.symm.trans hnode'
  new other bytes hnone' hsome := by
    rw [node?_put (ne_nil_of_node? hnone)] at hsome
    by_cases hother : other = place
    · rw [if_pos hother] at hsome
      obtain rfl := Option.some.inj hsome
      simpa using hempty
    · rw [if_neg hother, hnone'] at hsome
      cases hsome

/-! ## Directories and files that are opened -/

theorem extends_makeAlong (t : FileTree) (here : Place) (names : List String) :
    t.Extends (t.makeAlong here names).2 := by
  induction names generalizing t here with
  | nil => exact .refl t
  | cons name rest ih =>
    rw [makeAlong]
    split
    · exact .refl t
    · exact ih t _
    · exact .refl t
    · next hnone =>
      split
      · exact .refl t
      · exact (extends_put hnone (.inl rfl)).trans (ih _ _)

theorem extends_makeDirectories (t : FileTree) (path : String) :
    t.Extends (t.makeDirectories path).2 := by
  rw [makeDirectories]
  split
  · exact .refl t
  · exact extends_makeAlong t _ _

/-- A file is opened in an extension of the tree, where it is if nothing went wrong. -/
structure Opens (t : FileTree) (result : Except IoFault Place × FileTree) : Prop where
  tree : t.Extends result.2
  file : ∀ place, result.1 = .ok place → result.2.HasFile place

theorem opens_openFile (t : FileTree) (path : String) : t.Opens (t.openFile path) := by
  rw [openFile]
  split
  · exact ⟨.refl t, fun _ h => nomatch h⟩
  · split
    · exact ⟨.refl t, fun _ h => nomatch h⟩
    · next bytes hnode =>
      refine ⟨.refl t, fun place h => ?_⟩
      obtain rfl := Except.ok.inj h
      exact ⟨bytes, hnode⟩
    · next hnone =>
      refine ⟨extends_put hnone (.inr rfl), fun place h => ?_⟩
      obtain rfl := Except.ok.inj h
      exact ⟨.empty, (node?_put (ne_nil_of_node? hnone) _).trans (if_pos rfl)⟩

theorem opens_openWithParents (t : FileTree) (path : String) :
    t.Opens (t.openWithParents path) := by
  rw [openWithParents]
  split
  · exact ⟨.refl t, fun _ h => nomatch h⟩
  · have hparents := extends_makeAlong t (t.start path) (parentNames path)
    split
    · next hmake =>
      rw [hmake] at hparents
      exact ⟨hparents, fun _ h => nomatch h⟩
    · next t' hmake =>
      rw [hmake] at hparents
      have hopens := opens_openFile t' path
      exact ⟨hparents.trans hopens.tree, hopens.file⟩

/-! ## Texts that are appended -/

theorem node?_append (hfile : t.HasFile place) (text : String) (other : Place) :
    (t.append place text).node? other =
      if other = place then some (.file (t.bytesAt place ++ text.toByteArray)) else t.node? other := by
  have hplace : place ≠ [] := by
    rintro rfl
    cases hfile.node?
  rw [append, hfile.node?]
  exact node?_put hplace other

/-- An appended text shows in its file, and in no other one. -/
theorem bytesAt_append (hfile : t.HasFile place) (text : String) (other : Place) :
    (t.append place text).bytesAt other =
      t.bytesAt other ++ if other = place then text.toByteArray else .empty := by
  by_cases hother : other = place
  · subst hother
    rw [if_pos rfl, bytesAt_of_file (node?_append hfile text other |>.trans (if_pos rfl))]
  · rw [if_neg hother, ByteArray.append_empty, bytesAt, bytesAt, node?_append hfile text,
      if_neg hother]

theorem hasFile_append (hfile : t.HasFile place) (text : String) :
    (t.append place text).HasFile place :=
  ⟨_, (node?_append hfile text place).trans (if_pos rfl)⟩

end FileTree

end FilterClause

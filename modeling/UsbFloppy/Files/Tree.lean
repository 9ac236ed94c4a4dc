import UsbFloppy.Files.Folder
import UsbFloppy.Files.Fs

/-! Folders that share their inodes. A folder is known by its path. -/

namespace UsbFloppy.Files

attribute [ext] Folder

/-- What `entries` has for a path that is not in `dirs` is not in the tree. -/
structure Tree where
  dirs : List Text
  entries : Text → AList fun _ : Text => Entry
  data : ℕ → List UInt8
  inodes : ℕ
  allocated : ∀ dir name i, (entries dir).lookup name = some (.file i) → i < inodes

namespace Tree

variable (t : Tree)

def folder (dir : Text) : Folder where
  entries := if dir ∈ t.dirs then t.entries dir else ∅
  data := t.data
  inodes := t.inodes
  allocated name i h := by
    split_ifs at h
    · exact t.allocated dir name i h
    · cases h

/-- The tree after something happened in one of its folders. -/
def setFolder (dir : Text) (d : Folder) : Tree where
  dirs := t.dirs
  entries := Function.update t.entries dir d.entries
  data := d.data
  inodes := max t.inodes d.inodes
  allocated other name i h := by
    by_cases hdir : other = dir
    · subst hdir
      rw [Function.update_self] at h
      exact (d.allocated name i h).trans_le (le_max_right _ _)
    · rw [Function.update_of_ne hdir] at h
      exact (t.allocated other name i h).trans_le (le_max_left _ _)

/-- The inode of a regular file. -/
def inode (dir name : Text) : Option ℕ :=
  match (t.folder dir).entries.lookup name with
  | some (.file i) => some i
  | _ => none

/-- A new file, where its name is free. -/
def create (p : Path) (bytes : List UInt8) : Tree :=
  let d := t.folder p.dir
  if p.dir ∈ t.dirs ∧ d.entries.lookup p.name = none then
    t.setFolder p.dir ((d.create p.name).setData d.inodes bytes)
  else t

def write (p : Path) (bytes : List UInt8) : Tree :=
  match t.inode p.dir p.name with
  | none => t
  | some i => { t with data := Function.update t.data i bytes }

/-- `rename` of a regular file. One that has the new name already is replaced, a folder is
not. -/
def rename (p q : Path) : Tree :=
  match hp : (t.folder p.dir).entries.lookup p.name with
  | some (.file i) =>
    if q.dir ∈ t.dirs ∧ (t.folder q.dir).entries.lookup q.name ≠ some .directory then
      let t' := t.setFolder p.dir ((t.folder p.dir).unlink p.name)
      t'.setFolder q.dir ((t'.folder q.dir).link q.name
        ⟨i, ((t.folder p.dir).allocated _ _ hp).trans_le (le_max_left _ _)⟩)
    else t
  | _ => t

/-- `mkdir(parents=True)`, of a folder one or two levels of which are missing; none where the
name is taken. -/
def mkdir (p : Path) : Option Tree :=
  if p.asPosix ∈ t.dirs ∨ (t.folder p.dir).entries.lookup p.name ≠ none then none
  else some
    { t with
      dirs := p.asPosix :: if p.dir ∈ t.dirs then t.dirs else p.dir :: t.dirs
      entries := fun dir =>
        if dir = p.asPosix then ∅
        else if dir = p.dir then (t.folder p.dir).entries.insert p.name .directory
        else t.entries dir
      allocated := by
        intro dir name i h
        split_ifs at h with hself hparent
        · cases h
        · by_cases hname : name = p.name
          · rw [hname, AList.lookup_insert] at h
            cases h
          · rw [AList.lookup_insert_ne hname] at h
            exact (t.folder p.dir).allocated name i h
        · exact t.allocated dir name i h }

/-- The regular files. -/
def files : List Path :=
  t.dirs.flatMap fun dir => (t.folder dir).entries.keys.filterMap fun name =>
    if h : '/' ∉ name then if (t.inode dir name).isSome then some ⟨dir, name, h⟩ else none else none

/-- The files, as `scan` looks at them. -/
def toFs : Fs :=
  (t.files.map fun p => ⟨p, .file ⟨.ofList (((t.folder p.dir).read p.name).getD []), true⟩⟩).toAList

variable {t} {dir other name : Text} {d : Folder} {i : ℕ}

theorem folder_of_not_mem (h : dir ∉ t.dirs) : (t.folder dir).entries = ∅ := if_neg h

theorem inode_eq_some :
    t.inode dir name = some i ↔ (t.folder dir).entries.lookup name = some (.file i) := by
  unfold inode
  split
  · rename_i j hj
    rw [hj, Option.some_inj, Option.some_inj, Entry.file.injEq]
  · rename_i hno
    exact iff_of_false (fun h => by cases h) (hno i)

theorem dir_of_inode (h : t.inode dir name = some i) : dir ∈ t.dirs := by
  by_contra hdir
  rw [inode_eq_some, folder_of_not_mem hdir] at h
  cases h

theorem setFolder_folder_self (h : dir ∈ t.dirs) :
    ((t.setFolder dir d).folder dir).entries = d.entries :=
  (if_pos h).trans (Function.update_self _ _ _)

theorem setFolder_folder_of_ne (h : other ≠ dir) :
    ((t.setFolder dir d).folder other).entries = (t.folder other).entries := by
  have hupdate : (t.setFolder dir d).entries other = t.entries other :=
    Function.update_of_ne h _ _
  dsimp only [folder]
  rw [hupdate]
  rfl

theorem setFolder_lookup :
    ((t.setFolder dir d).folder other).entries.lookup name =
      if other = dir ∧ dir ∈ t.dirs then d.entries.lookup name
      else (t.folder other).entries.lookup name := by
  by_cases hother : other = dir
  · subst hother
    by_cases hdir : other ∈ t.dirs
    · rw [setFolder_folder_self hdir, if_pos ⟨rfl, hdir⟩]
    · rw [if_neg fun h => hdir h.2, folder_of_not_mem hdir]
      exact congrArg (AList.lookup name) (if_neg hdir)
  · rw [setFolder_folder_of_ne hother, if_neg fun h => hother h.1]

theorem setFolder_folder : (t.setFolder dir (t.folder dir)).folder other = t.folder other := by
  apply Folder.ext
  · by_cases hother : other = dir
    · subst hother
      by_cases hdir : other ∈ t.dirs
      · exact setFolder_folder_self hdir
      · exact (if_neg hdir).trans (if_neg hdir).symm
    · exact setFolder_folder_of_ne hother
  · rfl
  · exact max_self t.inodes

theorem mkdir_dirs {p : Path} {t' : Tree} (h : t.mkdir p = some t') :
    t'.dirs = p.asPosix :: if p.dir ∈ t.dirs then t.dirs else p.dir :: t.dirs := by
  unfold mkdir at h
  by_cases htaken : p.asPosix ∈ t.dirs ∨ (t.folder p.dir).entries.lookup p.name ≠ none
  · rw [if_pos htaken] at h
    cases h
  rw [if_neg htaken, Option.some_inj] at h
  rw [← h]

theorem mkdir_spec {p : Path} {t' : Tree} (h : t.mkdir p = some t') :
    p.asPosix ∉ t.dirs ∧ p.asPosix ∈ t'.dirs ∧ (t'.folder p.asPosix).entries = ∅ ∧
      ∀ dir, dir ≠ p.asPosix → dir ≠ p.dir → (t'.folder dir).entries = (t.folder dir).entries := by
  unfold mkdir at h
  by_cases htaken : p.asPosix ∈ t.dirs ∨ (t.folder p.dir).entries.lookup p.name ≠ none
  · rw [if_pos htaken] at h
    cases h
  rw [if_neg htaken, Option.some_inj] at h
  subst h
  refine ⟨fun hmem => htaken (Or.inl hmem), List.mem_cons_self, ?_, fun dir hself hparent => ?_⟩
  · exact (if_pos List.mem_cons_self).trans (if_pos rfl)
  · have hmem : (dir ∈ p.asPosix :: if p.dir ∈ t.dirs then t.dirs else p.dir :: t.dirs) ↔
        dir ∈ t.dirs := by
      split_ifs <;> simp only [List.mem_cons, hself, hparent, false_or]
    unfold folder
    dsimp only
    simp only [hmem, if_neg hself, if_neg hparent]

/-- What others do gives at most one name to a file. -/
theorem create_lookup {p : Path} {bytes : List UInt8}
    (h : ((t.create p bytes).folder dir).entries.lookup name = some (.file i)) :
    (t.folder dir).entries.lookup name = some (.file i) ∨ dir = p.dir ∧ name = p.name := by
  unfold create at h
  dsimp only at h
  split_ifs at h
  · rw [setFolder_lookup] at h
    split_ifs at h with hdir
    · by_cases hname : name = p.name
      · exact Or.inr ⟨hdir.1, hname⟩
      · rw [hdir.1]
        exact Or.inl ((Folder.create_lookup_of_ne hname).symm.trans h)
    · exact Or.inl h
  · exact Or.inl h

theorem write_lookup {p : Path} {bytes : List UInt8} :
    ((t.write p bytes).folder dir).entries = (t.folder dir).entries := by
  unfold write
  split <;> rfl

theorem rename_lookup {p q : Path}
    (h : ((t.rename p q).folder dir).entries.lookup name = some (.file i)) :
    (t.folder dir).entries.lookup name = some (.file i) ∨ dir = q.dir ∧ name = q.name := by
  unfold rename at h
  split at h
  · rename_i j hj
    split_ifs at h
    · dsimp only at h
      rw [setFolder_lookup] at h
      have hunlink : ((t.setFolder p.dir ((t.folder p.dir).unlink p.name)).folder dir).entries.lookup
          name = some (.file i) → (t.folder dir).entries.lookup name = some (.file i) := by
        intro h
        rw [setFolder_lookup] at h
        split_ifs at h with hdir
        · by_cases hname : name = p.name
          · rw [hname, Folder.unlink_lookup_self] at h
            cases h
          · rw [hdir.1]
            exact (Folder.unlink_lookup_of_ne hname).symm.trans h
        · exact h
      split_ifs at h with hdir
      · by_cases hname : name = q.name
        · exact Or.inr ⟨hdir.1, hname⟩
        · rw [← hdir.1] at h
          exact Or.inl (hunlink ((AList.lookup_insert_ne hname).symm.trans h))
      · exact Or.inl (hunlink h)
    · exact Or.inl h
  · exact Or.inl h

theorem mem_files {p : Path} : p ∈ t.files ↔ (t.inode p.dir p.name).isSome := by
  rw [files, List.mem_flatMap]
  constructor
  · rintro ⟨dir, -, hp⟩
    obtain ⟨name, -, hname⟩ := List.mem_filterMap.mp hp
    split_ifs at hname with hslash hfile
    cases hname
    exact hfile
  · intro h
    obtain ⟨i, hi⟩ := Option.isSome_iff_exists.mp h
    refine ⟨p.dir, dir_of_inode hi, List.mem_filterMap.mpr ⟨p.name, ?_, ?_⟩⟩
    · rw [← AList.mem_keys, ← AList.lookup_isSome, inode_eq_some.mp hi]
      rfl
    · rw [dif_pos p.noSlash, if_pos h]

theorem dlookup_map_mk {α β : Type*} [DecidableEq α] (f : α → β) (l : List α) (a : α) :
    (l.map fun x => (⟨x, f x⟩ : (_ : α) × β)).dlookup a = if a ∈ l then some (f a) else none := by
  induction l with
  | nil => rfl
  | cons x l ih =>
    by_cases hx : a = x
    · subst hx
      rw [List.map_cons, List.dlookup_cons_eq, if_pos List.mem_cons_self]
    · rw [List.map_cons, List.dlookup_cons_ne _ _ hx, ih]
      simp only [List.mem_cons, hx, false_or]

theorem lookup_toFs (p : Path) :
    t.toFs.lookup p = if (t.inode p.dir p.name).isSome then
      some (.file ⟨.ofList (((t.folder p.dir).read p.name).getD []), true⟩) else none := by
  rw [toFs, AList.lookup_to_alist, dlookup_map_mk]
  simp only [mem_files]

end Tree

end UsbFloppy.Files

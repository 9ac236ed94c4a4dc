import UsbFloppy.Storage.Settling

/-! Files that arrive as .ima in the set folders. -/

namespace UsbFloppy.Storage
open Files Gadget Transition

/-- What others do to files. One that is moved into the tree is created there. -/
inductive FileOp
  | create (p : Path) (bytes : List UInt8)
  | write (p : Path) (bytes : List UInt8)
  | rename (p q : Path)

namespace FileOp

def apply (t : Tree) : FileOp → Tree
  | .create p bytes => t.create p bytes
  | .write p bytes => t.write p bytes
  | .rename p q => t.rename p q

/-- A rename is one event, with the old name as its source path. -/
def srcPath : FileOp → Path
  | .create p _ => p
  | .write p _ => p
  | .rename p _ => p

def destPath : FileOp → Path
  | .create p _ => p
  | .write p _ => p
  | .rename _ q => q

def event (x : FileOp) : FsEvent := ⟨x.srcPath.dir, x.srcPath.name⟩

end FileOp

/-- The folder lies right below the root. -/
def IsSetFolder (root : Path) (dir : Text) : Prop :=
  ∃ folder : Path, folder.dir = root.asPosix ∧ folder.asPosix = dir

/-- The file has a name with one of the suffixes in a set folder. -/
def NamedIn (root : Path) (t : Tree) (exts : List Text) (i : ℕ) : Prop :=
  ∃ dir name, IsSetFolder root dir ∧ lower (suffix name) ∈ exts ∧
    (t.folder dir).entries.lookup name = some (.file i)

/-- `arrived` are the files that have had the suffix .ima and that nobody else has taken away
or given another suffix since. -/
structure Arrivals where
  library : Library
  arrived : Set ℕ

inductive ArrivalStep
  | op (x : FileOp)
  | deliver (i : ℕ) (f : NormalizeFaults)
  | expire
  | scanned (seen : List FloppySet)
  | onChange (listener : ℕ)

def ArrivalStep.libraryStep (t : Tree) : ArrivalStep → LibraryStep
  | .op x => .change (x.apply t) x.event []
  | .deliver i f => .deliver i f
  | .expire => .expire
  | .scanned seen => .scanned seen
  | .onChange listener => .onChange listener

def arrivedIn (root : Path) (t : Tree) (arrived : Set ℕ) : Set ℕ :=
  {i | NamedIn root t [".ima".toList] i ∨
    i ∈ arrived ∧ NamedIn root t [".ima".toList, ".img".toList] i}

namespace Arrivals

variable (zip : ZipFile) (root : Path) (s : Arrivals)

def start (tree : Tree) : Arrivals := ⟨.start root tree, arrivedIn root tree ∅⟩

def step (s : Arrivals) (x : ArrivalStep) : Arrivals where
  library := s.library.step zip root (x.libraryStep s.library.tree)
  arrived := match x with
    | .op x => arrivedIn root (x.apply s.library.tree) s.arrived
    | _ => s.arrived

/-- When nothing is on its way, no .ima file is in a set folder, and each that has arrived is
a disk of the library. -/
def Imported : Prop :=
  s.library.Quiet →
    (∀ i, ¬ NamedIn root s.library.tree [".ima".toList] i) ∧
      ∀ i ∈ s.arrived, ∃ set ∈ s.library.sets, ∃ d ∈ set.disks,
        (s.library.tree.folder d.1.dir).entries.lookup d.1.name = some (.file i)

/-- No file is renamed to a .ima file of a set folder, and no OSError keeps the callback of such
a file from giving it its new name. -/
def Unhindered (s : Arrivals) : ArrivalStep → Prop
  | .op (.rename _ q) => IsSetFolder root q.dir → lower (suffix q.name) ≠ ".ima".toList
  | .deliver i f => ∀ e, s.library.Calls (.deliver i f) e f → IsSetFolder root e.dir →
      (s.library.tree.folder e.dir).isFile e.name → lower (suffix e.name) = ".ima".toList →
        f.Renames (s.library.tree.folder e.dir) e.name
  | _ => True

end Arrivals

variable {f : NormalizeFaults} {zip : ZipFile} {root : Path} {t : Tree} {e : FsEvent}
  {dir name : Text} {i : ℕ}

/-! ### One callback -/

/-- A file after a callback was there before and is not the .ima it was to rename, or has the name
of an image that was free. -/
theorem lookup_callbackTree
    (h : ((callbackTree f zip t e).folder dir).entries.lookup name = some (.file i)) :
    (t.folder dir).entries.lookup name = some (.file i) ∧
        ¬ (e = ⟨dir, name⟩ ∧ lower (suffix name) = ".ima".toList ∧
          f.Renames (t.folder e.dir) e.name) ∨
      (t.folder e.dir).isFile e.name = true ∧
        name = nextAvailable (t.folder e.dir) (asImg e.name) ∧ suffix name = ".img".toList := by
  obtain ⟨hsame, hima, -⟩ | ⟨j, hconv, hname, -⟩ | hstuck :=
    onFsEvent_cases f zip (t.folder e.dir) e.name
  · rw [callbackTree, hsame, Tree.setFolder_folder] at h
    refine Or.inl ⟨h, ?_⟩
    rintro ⟨rfl, hsuffix, hrenames⟩
    exact hima ⟨Folder.isFile_iff.mpr ⟨i, h⟩, hsuffix, hrenames⟩
  · -- a conversion: the name is that of the new image, or stays as it was
    by_cases himage : dir = e.dir ∧ name = nextAvailable (t.folder e.dir) (asImg e.name)
    · exact Or.inr ⟨hname.1, himage.2, himage.2 ▸ hconv.image⟩
    · obtain ⟨hold, hne⟩ := hconv.file (dir_of_isFile hname.1) h himage
      refine Or.inl ⟨hold, ?_⟩
      rintro ⟨rfl, -⟩
      exact hne ⟨rfl, rfl⟩
  · -- an archive that stays is no .ima
    have hne : ¬ (e = ⟨dir, name⟩ ∧ lower (suffix name) = ".ima".toList ∧
        f.Renames (t.folder e.dir) e.name) := by
      rintro ⟨rfl, hsuffix, -⟩
      have himz := hstuck.2.1
      dsimp only at himz
      rw [hsuffix] at himz
      exact absurd himz (by decide)
    obtain hsame | ⟨bytes, hcreate⟩ := hstuck.keeps
    · rw [callbackTree, hsame, Tree.setFolder_folder] at h
      exact Or.inl ⟨h, hne⟩
    · rw [callbackTree, hcreate, Tree.setFolder_lookup, Folder.append_entries] at h
      split_ifs at h with hdir
      · by_cases himage : name = nextAvailable (t.folder e.dir) (asImg e.name)
        · have hsuffix := suffix_nextAvailable (d := t.folder e.dir)
            (suffix_ne_nil hstuck.2.1 (by decide))
          exact Or.inr ⟨hstuck.1, himage, himage ▸ hsuffix⟩
        · rw [Folder.create_lookup_of_ne himage] at h
          refine Or.inl ⟨?_, hne⟩
          rw [hdir.1]
          exact h
      · exact Or.inl ⟨h, hne⟩

theorem keeps_callbackTree (f : NormalizeFaults) (zip : ZipFile) (e : FsEvent)
    (h : (t.folder dir).entries.lookup name = some (.file i))
    (hsuffix : lower (suffix name) ∈ [".ima".toList, ".img".toList]) :
    ∃ name', lower (suffix name') ∈ [".ima".toList, ".img".toList] ∧
      ((callbackTree f zip t e).folder dir).entries.lookup name' = some (.file i) := by
  -- new images come under free names, so that this one is not overwritten
  have hne : dir = e.dir → name ≠ nextAvailable (t.folder e.dir) (asImg e.name) := by
    rintro rfl heq
    have hfree := nextAvailable_free (t.folder e.dir) (asImg e.name)
    rw [← heq, h] at hfree
    cases hfree
  obtain ⟨hsame, -, -⟩ | ⟨j, hconv, hname, hinode⟩ | hstuck :=
    onFsEvent_cases f zip (t.folder e.dir) e.name
  · refine ⟨name, hsuffix, ?_⟩
    rw [callbackTree, hsame, Tree.setFolder_folder]
    exact h
  · have hdir := dir_of_isFile hname.1
    by_cases he : dir = e.dir ∧ name = e.name
    · obtain ⟨rfl, rfl⟩ := he
      refine ⟨nextAvailable (t.folder e.dir) (asImg e.name), ?_, ?_⟩
      · rw [hconv.image]
        decide
      · have hima : lower (suffix e.name) = ".ima".toList := by
          obtain hima | himg := List.mem_pair.mp hsuffix
          · exact hima
          · rw [himg] at hname
            exact absurd hname.2 (by decide)
        rw [callbackTree, Tree.setFolder_folder_self hdir, hconv.lookup, if_pos rfl,
          hinode i h hima]
    · refine ⟨name, hsuffix, ?_⟩
      rw [callbackTree, Tree.setFolder_lookup]
      split_ifs with hother
      · rw [hconv.lookup, if_neg (hne hother.1), if_neg fun heq => he ⟨hother.1, heq⟩, ← hother.1]
        exact h
      · exact h
  · refine ⟨name, hsuffix, ?_⟩
    obtain hsame | ⟨bytes, hcreate⟩ := hstuck.keeps
    · rw [callbackTree, hsame, Tree.setFolder_folder]
      exact h
    · rw [callbackTree, hcreate, Tree.setFolder_lookup, Folder.append_entries]
      split_ifs with hother
      · rw [Folder.create_lookup_of_ne (hne hother.1), ← hother.1]
        exact h
      · exact h

/-! ### Whole runs -/

/-- No name holds a slash. -/
def PlainNames (t : Tree) : Prop :=
  ∀ dir name i, (t.folder dir).entries.lookup name = some (.file i) → '/' ∉ name

namespace Arrivals

structure Inv (root : Path) (s : Arrivals) : Prop where
  library : s.library.Inv root
  plain : PlainNames s.library.tree
  reported : ∀ dir name i, IsSetFolder root dir → lower (suffix name) = ".ima".toList →
    (s.library.tree.folder dir).entries.lookup name = some (.file i) →
      ⟨dir, name⟩ ∈ s.library.undelivered
  arrived : ∀ i ∈ s.arrived, NamedIn root s.library.tree [".ima".toList, ".img".toList] i

variable {s : Arrivals}

theorem named_of_arrivedIn {arrived : Set ℕ} (h : i ∈ arrivedIn root t arrived) :
    NamedIn root t [".ima".toList, ".img".toList] i := by
  obtain ⟨dir, name, hdir, hsuffix, hlookup⟩ | ⟨-, hnamed⟩ := h
  · exact ⟨dir, name, hdir, List.mem_cons.mpr (Or.inl (List.mem_singleton.mp hsuffix)), hlookup⟩
  · exact hnamed

theorem lookup_apply {x : FileOp}
    (h : ((x.apply t).folder dir).entries.lookup name = some (.file i)) :
    (t.folder dir).entries.lookup name = some (.file i) ∨
      dir = x.destPath.dir ∧ name = x.destPath.name := by
  cases x with
  | create p bytes => exact Tree.create_lookup h
  | write p bytes =>
    dsimp only [FileOp.apply] at h
    rw [Tree.write_lookup] at h
    exact Or.inl h
  | rename p q => exact Tree.rename_lookup h

theorem undisturbed_libraryStep (x : ArrivalStep) : Library.Undisturbed (x.libraryStep t) := by
  cases x <;> trivial

theorem inv_op (h : Inv root s) {x : FileOp} (hok : s.Unhindered root (.op x)) :
    Inv root (s.step zip root (.op x)) := by
  have hlibrary : (s.step zip root (.op x)).library.Inv root :=
    Library.inv_step zip h.library (undisturbed_libraryStep (.op x))
  refine ⟨hlibrary, ?_, ?_, ?_⟩
  · intro dir name i hlookup
    obtain hold | ⟨-, rfl⟩ := lookup_apply hlookup
    · exact h.plain dir name i hold
    · exact x.destPath.noSlash
  · intro dir name i hdir hima hlookup
    obtain hold | ⟨rfl, rfl⟩ := lookup_apply hlookup
    · exact List.mem_append_left _ (h.reported dir name i hdir hima hold)
    · -- the event has the name, unless this is a rename
      cases x with
      | create p bytes => exact List.mem_append_right _ List.mem_cons_self
      | write p bytes => exact List.mem_append_right _ List.mem_cons_self
      | rename p q => exact absurd hima (hok hdir)
  · intro i hi
    exact named_of_arrivedIn hi

theorem inv_own (h : Inv root s) {x : LibraryStep} (hown : Library.OwnStep x)
    (hx : Library.Undisturbed x) (hok : ∀ e f, s.library.Calls x e f → IsSetFolder root e.dir →
      (s.library.tree.folder e.dir).isFile e.name → lower (suffix e.name) = ".ima".toList →
        f.Renames (s.library.tree.folder e.dir) e.name) :
    Inv root ⟨s.library.step zip root x, s.arrived⟩ := by
  have hlibrary := Library.inv_step zip h.library hx
  obtain ⟨e, f, rest, hcalls, hperm, htree, hevents⟩ | ⟨-, htree, hevents⟩ :=
    Library.ownStep_cases (s := s.library) zip root hown
  · refine ⟨hlibrary, ?_, ?_, ?_⟩
    · intro dir name i hlookup
      rw [htree] at hlookup
      obtain ⟨hold, -⟩ | ⟨hfile, rfl, -⟩ := lookup_callbackTree hlookup
      · exact h.plain dir name i hold
      · obtain ⟨j, hj⟩ := Folder.isFile_iff.mp hfile
        exact slash_not_mem_nextAvailable (h.plain _ _ j hj)
    · intro dir name i hdir hima hlookup
      rw [htree] at hlookup
      rw [hevents]
      obtain ⟨hold, hne⟩ | ⟨-, -, himg⟩ := lookup_callbackTree hlookup
      · obtain heq | hrest :=
          List.mem_cons.mp (hperm.mem_iff.mp (h.reported dir name i hdir hima hold))
        · subst heq
          have hfile := Folder.isFile_iff.mpr ⟨i, hold⟩
          exact absurd ⟨rfl, hima, hok _ f hcalls hdir hfile hima⟩ hne
        · exact List.mem_append_left _ hrest
      · rw [himg] at hima
        exact absurd hima (by decide)
    · intro i hi
      obtain ⟨dir, name, hdir, hsuffix, hlookup⟩ := h.arrived i hi
      obtain ⟨name', hsuffix', hlookup'⟩ := keeps_callbackTree f zip e hlookup hsuffix
      refine ⟨dir, name', hdir, hsuffix', ?_⟩
      rw [htree]
      exact hlookup'
  · refine ⟨hlibrary, ?_, ?_, ?_⟩
    · rw [htree]
      exact h.plain
    · rw [htree, hevents]
      exact h.reported
    · rw [htree]
      exact h.arrived

theorem inv_step (h : Inv root s) {x : ArrivalStep} (hok : s.Unhindered root x) :
    Inv root (s.step zip root x) := by
  cases x with
  | op x => exact inv_op h hok
  | deliver i f =>
    refine inv_own h trivial trivial fun e f' hcalls => ?_
    obtain ⟨j, hj, -⟩ := id hcalls
    cases hj
    exact hok e hcalls
  | expire => exact inv_own h trivial trivial fun e f ⟨_, hx, _⟩ => by cases hx
  | scanned seen => exact inv_own h trivial trivial fun e f ⟨_, hx, _⟩ => by cases hx
  | onChange listener => exact inv_own h trivial trivial fun e f ⟨_, hx, _⟩ => by cases hx

theorem listed_of_lookup (hplain : '/' ∉ name) (hdir : IsSetFolder root dir)
    (himg : lower (suffix name) = ".img".toList)
    (hlookup : (t.folder dir).entries.lookup name = some (.file i)) :
    ∃ set ∈ scan t.toFs root, ∃ d ∈ set.disks, d.1.dir = dir ∧ d.1.name = name := by
  obtain ⟨folder, hroot, rfl⟩ := hdir
  have hfile : pathExists t.toFs ⟨folder.asPosix, name, hplain⟩ = true := by
    have hentry := Tree.lookup_toFs (t := t) ⟨folder.asPosix, name, hplain⟩
    rw [if_pos (by rw [Tree.inode_eq_some.mpr hlookup]; rfl)] at hentry
    rw [pathExists, resolve_of_hasFile hentry]
    rfl
  have hmem : (⟨⟨folder.asPosix, name, hplain⟩, himg⟩ : Image) ∈ (scanFolder t.toFs folder).disks :=
    mem_imagesIn.mpr ⟨rfl, hfile⟩
  exact ⟨_, mem_scan.mpr ⟨folder, hroot, rfl, List.ne_nil_of_mem hmem⟩, _, hmem, rfl, rfl⟩

theorem Inv.imported (h : Inv root s) : s.Imported root := by
  intro hquiet
  have hno : ∀ i, ¬ NamedIn root s.library.tree [".ima".toList] i := by
    rintro i ⟨dir, name, hdir, hsuffix, hlookup⟩
    have hreported := h.reported dir name i hdir (List.mem_singleton.mp hsuffix) hlookup
    rw [hquiet.1] at hreported
    cases hreported
  refine ⟨hno, fun i hi => ?_⟩
  obtain ⟨dir, name, hdir, hsuffix, hlookup⟩ := h.arrived i hi
  obtain hima | himg := List.mem_pair.mp hsuffix
  · exact absurd ⟨dir, name, hdir, List.mem_singleton.mpr hima, hlookup⟩ (hno i)
  · obtain ⟨set, hset, d, hd, rfl, rfl⟩ :=
      listed_of_lookup (h.plain dir name i hlookup) hdir himg hlookup
    rw [h.library.fresh hquiet]
    exact ⟨set, hset, d, hd, hlookup⟩

theorem start_inv (hplain : PlainNames t) (hnone : ∀ i, ¬ NamedIn root t [".ima".toList] i) :
    Inv root (start root t) where
  library := Library.start_inv t
  plain := hplain
  reported dir name i hdir hima hlookup :=
    absurd ⟨dir, name, hdir, List.mem_singleton.mpr hima, hlookup⟩ (hnone i)
  arrived _ hi := named_of_arrivedIn hi

end Arrivals

/-- Where no .ima file is in a set folder from the start, none gets there by a rename, and none
meets an OSError, all that arrive become disks of the library. -/
theorem arrivals_imported {tree : Tree} (hplain : PlainNames tree)
    (hnone : ∀ i, ¬ NamedIn root tree [".ima".toList] i) {steps : List ArrivalStep}
    (hok : Guarded (Arrivals.step zip root) (Arrivals.Unhindered root) (.start root tree) steps) :
    Throughout (Arrivals.step zip root) (Arrivals.Imported root) (.start root tree) steps := by
  have hinv : Throughout (Arrivals.step zip root) (Arrivals.Inv root) (.start root tree) steps :=
    throughout_invariant (fun _ _ h hok => Arrivals.inv_step h hok)
      (Arrivals.start_inv hplain hnone) hok
  exact hinv.mono fun s h => h.imported

/-- A file of the set folder. -/
def game (name : Text) (h : '/' ∉ name := by decide) : Path := ⟨gamesDir, name, h⟩

theorem gamesDir_isSetFolder : IsSetFolder floppyRoot gamesDir :=
  ⟨floppyRoot.child "games".toList, rfl, rfl⟩

theorem emptyTree_lookup (dir name : Text) :
    (emptyTree.folder dir).entries.lookup name = none := by
  dsimp only [Tree.folder, emptyTree]
  split_ifs <;> rfl

/-- An image is copied into the folder under its own name. -/
theorem arrivals_imported_example :
    Throughout (Arrivals.step noZip floppyRoot) (Arrivals.Imported floppyRoot)
      (.start floppyRoot emptyTree)
      [.op (.create (game "a.ima".toList) []), .deliver 0 .none,
        .op (.write (game "a.img".toList) [1]), .expire, .scanned [], .deliver 0 .none,
        .deliver 0 .none, .expire, .scanned []] := by
  apply arrivals_imported
  · intro dir name i h
    rw [emptyTree_lookup] at h
    cases h
  · rintro i ⟨dir, name, -, -, h⟩
    rw [emptyTree_lookup] at h
    cases h
  · refine ⟨trivial, ?_, trivial, trivial, trivial, ?_, ?_, trivial, trivial, trivial⟩
    · rintro e ⟨i, hi, he, -⟩ - - -
      cases hi
      obtain rfl : (⟨gamesDir, "a.ima".toList⟩ : FsEvent) = e := Option.some.inj he
      decide +kernel
    · rintro e ⟨i, hi, he, -⟩ - hfile -
      cases hi
      obtain rfl : (⟨gamesDir, "a.ima".toList⟩ : FsEvent) = e := Option.some.inj he
      exact absurd hfile (by decide +kernel)
    · rintro e ⟨i, hi, he, -⟩ - - hima
      cases hi
      obtain rfl : (⟨gamesDir, "a.img".toList⟩ : FsEvent) = e := Option.some.inj he
      exact absurd hima (by decide +kernel)

theorem slash_not_mem_longStem {ext : Text} (h : '/' ∉ ext) : '/' ∉ longStem ++ ext := by
  rw [List.mem_append, not_or]
  exact ⟨by decide +kernel, h⟩

/-- An image whose name is as long as a name can be. -/
def longImage : Path := ⟨gamesDir, longStem ++ ".img".toList, slash_not_mem_longStem (by decide)⟩

def longArrival : Path := ⟨gamesDir, longStem ++ ".ima".toList, slash_not_mem_longStem (by decide)⟩

/-- A .ima file is there from the start; one is copied under another name and renamed when it
is complete; for one there is no name that is free and fits. They stay as they are. -/
theorem ima_left_behind :
    ¬ Throughout (Arrivals.step noZip floppyRoot) (Arrivals.Imported floppyRoot)
        (.start floppyRoot (emptyTree.create (game "a.ima".toList) [1])) [] ∧
      ¬ Throughout (Arrivals.step noZip floppyRoot) (Arrivals.Imported floppyRoot)
        (.start floppyRoot emptyTree)
        [.op (.create (game "a.tmp".toList) [1]),
          .op (.rename (game "a.tmp".toList) (game "a.ima".toList)), .deliver 0 .none,
          .deliver 0 .none, .expire, .scanned []] ∧
      ¬ Throughout (Arrivals.step noZip floppyRoot) (Arrivals.Imported floppyRoot)
        (.start floppyRoot (emptyTree.create longImage [1]))
        [.op (.create longArrival [2]), .deliver 0 .none, .expire, .scanned []] := by
  have hima : lower (suffix "a.ima".toList) ∈ [".ima".toList] := by decide
  refine ⟨?_, ?_, ?_⟩
  · intro h
    exact (h [] List.prefix_rfl ⟨rfl, rfl⟩).1 0 ⟨_, _, gamesDir_isSetFolder, hima, rfl⟩
  · intro h
    exact (h _ List.prefix_rfl ⟨rfl, rfl⟩).1 0 ⟨_, _, gamesDir_isSetFolder, hima, rfl⟩
  · intro h
    have hlong : lower (suffix longArrival.name) ∈ [".ima".toList] := by decide +kernel
    refine (h _ List.prefix_rfl ⟨by decide +kernel, by decide +kernel⟩).1 1
      ⟨gamesDir, longArrival.name, gamesDir_isSetFolder, hlong, by decide +kernel⟩

end UsbFloppy.Storage

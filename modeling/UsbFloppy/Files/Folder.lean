import Mathlib.Data.List.AList
import UsbFloppy.Files.Path

/-! One folder, with inodes: a file that is open for writing keeps its bytes when its name
moves or goes. -/

namespace UsbFloppy.Files

inductive Entry
  | file (inode : ℕ)
  | directory
  deriving DecidableEq, Repr

/-- `inodes` is how many were given out. -/
structure Folder where
  entries : AList fun _ : Text => Entry
  data : ℕ → List UInt8
  inodes : ℕ
  allocated : ∀ name i, entries.lookup name = some (.file i) → i < inodes

namespace Folder

theorem allocated_empty (name : Text) (i : ℕ)
    (h : (∅ : AList fun _ : Text => Entry).lookup name = some (.file i)) : i < 0 := by
  cases h

variable (d : Folder)

def exists_ (name : Text) : Prop := name ∈ d.entries.keys

instance (name : Text) : Decidable (d.exists_ name) := inferInstanceAs (Decidable (_ ∈ _))

def isFile (name : Text) : Bool :=
  match d.entries.lookup name with
  | some (.file _) => true
  | _ => false

def read (name : Text) : Option (List UInt8) :=
  match d.entries.lookup name with
  | some (.file i) => some (d.data i)
  | _ => none

/-- An empty file under a name that is free. -/
def create (name : Text) : Folder where
  entries := d.entries.insert name (.file d.inodes)
  data := Function.update d.data d.inodes []
  inodes := d.inodes + 1
  allocated other i h := by
    by_cases hname : other = name
    · rw [hname, AList.lookup_insert, Option.some_inj, Entry.file.injEq] at h
      omega
    · rw [AList.lookup_insert_ne hname] at h
      exact (d.allocated other i h).trans (Nat.lt_succ_self _)

def setData (i : ℕ) (bytes : List UInt8) : Folder :=
  { d with data := Function.update d.data i bytes }

/-- `open(name, "wb")`: the inode and the folder; a directory cannot be opened. -/
def openWb (name : Text) : Option (ℕ × Folder) :=
  match d.entries.lookup name with
  | some .directory => none
  | some (.file i) => some (i, d.setData i [])
  | none => some (d.inodes, d.create name)

def append (i : ℕ) (bytes : List UInt8) : Folder := d.setData i (d.data i ++ bytes)

/-- `unlink`, of a file or of a name that is free. -/
def unlink (name : Text) : Folder :=
  { d with
    entries := d.entries.erase name
    allocated := by
      intro other i h
      by_cases hname : other = name
      · rw [hname, AList.lookup_erase] at h
        cases h
      · rw [AList.lookup_erase_ne hname] at h
        exact d.allocated other i h }

/-- A further name for an inode. -/
def link (name : Text) (i : Fin d.inodes) : Folder :=
  { d with
    entries := d.entries.insert name (.file i)
    allocated := by
      intro other j h
      by_cases hname : other = name
      · rw [hname, AList.lookup_insert, Option.some_inj, Entry.file.injEq] at h
        exact h ▸ i.isLt
      · rw [AList.lookup_insert_ne hname] at h
        exact d.allocated other j h }

/-- `rename`, of a name that exists. -/
def rename (name target : Text) : Folder :=
  match hentry : d.entries.lookup name with
  | none => d
  | some entry =>
    { d with
      entries := (d.entries.erase name).insert target entry
      allocated := by
        intro other i h
        by_cases htarget : other = target
        · rw [htarget, AList.lookup_insert, Option.some_inj] at h
          exact d.allocated name i (hentry.trans (congrArg some h))
        · rw [AList.lookup_insert_ne htarget] at h
          exact (d.unlink name).allocated other i h }

variable {d} {name other : Text} {i : ℕ} {bytes : List UInt8}

theorem isFile_iff : d.isFile name = true ↔ ∃ i, d.entries.lookup name = some (.file i) := by
  unfold isFile
  split
  · rename_i i hi
    exact iff_of_true rfl ⟨i, hi⟩
  · rename_i hno
    refine iff_of_false (fun h => by cases h) ?_
    rintro ⟨i, hi⟩
    exact hno i hi

theorem read_eq_some :
    d.read name = some bytes ↔ ∃ i, d.entries.lookup name = some (.file i) ∧ d.data i = bytes := by
  unfold read
  split
  · rename_i i hi
    rw [Option.some_inj]
    constructor
    · intro h
      exact ⟨i, hi, h⟩
    · rintro ⟨j, hj, h⟩
      rw [hi] at hj
      cases hj
      exact h
  · rename_i hno
    refine iff_of_false (fun h => by cases h) ?_
    rintro ⟨i, hi, -⟩
    exact hno i hi

theorem not_exists_iff : ¬ d.exists_ name ↔ d.entries.lookup name = none :=
  (not_congr AList.mem_keys).symm.trans AList.lookup_eq_none.symm

theorem openWb_of_free (h : d.entries.lookup name = none) :
    d.openWb name = some (d.inodes, d.create name) := by
  unfold openWb
  rw [h]

theorem openWb_eq_none : d.openWb name = none ↔ d.entries.lookup name = some .directory := by
  unfold openWb
  split
  · rename_i hdir
    exact iff_of_true rfl hdir
  · rename_i i hi
    refine iff_of_false (Option.some_ne_none _) ?_
    rw [hi]
    exact fun h => by cases h
  · rename_i hfree
    refine iff_of_false (Option.some_ne_none _) ?_
    rw [hfree]
    exact fun h => by cases h

theorem openWb_spec {d' : Folder} (h : d.openWb name = some (i, d')) :
    d'.entries.lookup name = some (.file i) ∧ d'.data i = [] := by
  unfold openWb at h
  split at h
  · cases h
  · rename_i j hj
    cases h
    exact ⟨hj, Function.update_self _ _ _⟩
  · cases h
    exact ⟨AList.lookup_insert d.entries, Function.update_self _ _ _⟩

theorem create_lookup_self : (d.create name).entries.lookup name = some (.file d.inodes) :=
  AList.lookup_insert d.entries

theorem create_lookup_of_ne (h : other ≠ name) :
    (d.create name).entries.lookup other = d.entries.lookup other := AList.lookup_insert_ne h

theorem unlink_lookup_self : (d.unlink name).entries.lookup name = none :=
  AList.lookup_erase name d.entries

theorem unlink_lookup_of_ne (h : other ≠ name) :
    (d.unlink name).entries.lookup other = d.entries.lookup other := AList.lookup_erase_ne h

theorem create_data_of_lt (h : i < d.inodes) : (d.create name).data i = d.data i :=
  Function.update_of_ne h.ne _ _

theorem create_data_self : (d.create name).data d.inodes = [] := Function.update_self _ _ _

theorem append_data_self : (d.append i bytes).data i = d.data i ++ bytes :=
  Function.update_self _ _ _

theorem append_entries : (d.append i bytes).entries = d.entries := rfl

theorem append_nil : d.append i [] = d := by
  unfold append setData
  rw [List.append_nil, Function.update_eq_self]

theorem append_data_of_ne {j : ℕ} (h : j ≠ i) : (d.append i bytes).data j = d.data j :=
  Function.update_of_ne h _ _

theorem create_append_data : ((d.create name).append d.inodes bytes).data d.inodes = bytes := by
  rw [append_data_self, create_data_self, List.nil_append]

theorem rename_of_lookup {entry : Entry} (h : d.entries.lookup name = some entry) :
    (d.rename name other).entries.lookup other = some entry ∧
      (d.rename name other).data = d.data := by
  unfold rename
  split
  · rename_i hnone
    rw [h] at hnone
    cases hnone
  · rename_i entry' hentry
    rw [h] at hentry
    cases hentry
    exact ⟨AList.lookup_insert (d.entries.erase name), rfl⟩

theorem rename_lookup {entry : Entry} (h : d.entries.lookup name = some entry) (x : Text) :
    (d.rename name other).entries.lookup x =
      if x = other then some entry else if x = name then none else d.entries.lookup x := by
  unfold rename
  split
  · rename_i hnone
    cases h.symm.trans hnone
  · rename_i entry' hentry
    cases h.symm.trans hentry
    dsimp only
    split_ifs with hother hname
    · rw [hother, AList.lookup_insert]
    · rw [AList.lookup_insert_ne hother, hname, AList.lookup_erase]
    · rw [AList.lookup_insert_ne hother, AList.lookup_erase_ne hname]

theorem rename_inodes : (d.rename name other).inodes = d.inodes := by
  unfold rename
  split <;> rfl

end Folder

end UsbFloppy.Files

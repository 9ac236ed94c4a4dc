import Mathlib.Data.List.AList
import Mathlib.Data.Nat.Find
import UsbFloppy.Files.Path
import UsbFloppy.Kernel.Lun

/-! The files the service works on. Directories are there as far as files lie in them.
A path may name a symbolic link, which every operation but `unlink`, `rename` and
`symlink` follows. -/

namespace UsbFloppy.Files
open Kernel

/-- The bytes of a regular file. -/
@[ext] structure Contents where
  size : ℕ
  byte : ℕ → UInt8
  zeroPast : ∀ i, size ≤ i → byte i = 0

def Contents.ofList (bytes : List UInt8) : Contents where
  size := bytes.length
  byte i := bytes.getD i 0
  zeroPast i hi := by rw [List.getD_eq_getElem?_getD, List.getElem?_eq_none hi]; rfl

/-- A file of `n` zero bytes. -/
def Contents.zeros (n : ℕ) : Contents := ⟨n, fun _ => 0, fun _ _ => rfl⟩

/-- The first `n` bytes. -/
def Contents.take (c : Contents) (n : ℕ) : Contents where
  size := min n c.size
  byte i := if i < n then c.byte i else 0
  zeroPast i hi := by
    split_ifs with hlt
    · exact c.zeroPast i (by omega)
    · rfl

/-- Zero bytes appended up to a size of `n`. -/
def Contents.padTo (c : Contents) (n : ℕ) : Contents where
  size := max c.size n
  byte := c.byte
  zeroPast i hi := c.zeroPast i (le_trans (le_max_left _ _) hi)

/-- `c` starts with all the bytes of `d`. -/
structure Contents.StartsWith (c d : Contents) : Prop where
  size : d.size ≤ c.size
  byte : ∀ i, i < d.size → c.byte i = d.byte i

theorem Contents.StartsWith.refl (c : Contents) : c.StartsWith c := ⟨le_refl _, fun _ _ => rfl⟩

theorem Contents.StartsWith.trans {a b c : Contents} (h : a.StartsWith b) (h' : b.StartsWith c) :
    a.StartsWith c where
  size := h'.size.trans h.size
  byte i hi := (h.byte i (lt_of_lt_of_le hi h'.size)).trans (h'.byte i hi)

theorem Contents.padTo_startsWith (c : Contents) (n : ℕ) : (c.padTo n).StartsWith c :=
  ⟨le_max_left _ _, fun _ _ => rfl⟩

theorem Contents.padTo_of_le {c : Contents} {n : ℕ} (h : n ≤ c.size) : c.padTo n = c :=
  Contents.ext (max_eq_left h) rfl

@[simp] theorem Contents.padTo_size (c : Contents) (n : ℕ) : (c.padTo n).size = max c.size n := rfl

/-- A regular file; `writable` says whether it can be opened for writing. -/
structure File where
  contents : Contents
  writable : Bool

inductive Node
  | file (f : File)
  | link (target : Path)

abbrev Fs := AList fun _ : Path => Node

/-- `ELOOP` is reached after forty links. -/
def maxSymlinks : ℕ := 40

def followLinks : ℕ → Fs → Path → Option (Path × File)
  | 0, _, _ => none
  | n + 1, fs, p =>
    match fs.lookup p with
    | some (.file f) => some (p, f)
    | some (.link target) => followLinks n fs target
    | none => none

/-- The file a path leads to, and where it really lies. -/
def resolve (fs : Fs) (p : Path) : Option (Path × File) := followLinks (maxSymlinks + 1) fs p

def isSymlink (fs : Fs) (p : Path) : Bool :=
  match fs.lookup p with
  | some (.link _) => true
  | _ => false

/-- `p` itself is a regular file with these contents. -/
def HasFile (fs : Fs) (p : Path) (f : File) : Prop := fs.lookup p = some (.file f)

/-- `os.rename` of a path that exists. -/
def rename (fs : Fs) (p q : Path) : Fs :=
  match fs.lookup p with
  | some node => (fs.erase p).insert q node
  | none => fs

/-- The entries of a directory, in no particular order. -/
def children (fs : Fs) (dir : Text) : List Path := fs.keys.filter fun p => p.dir = dir

def unlinkAll (fs : Fs) (ps : List Path) : Fs := ps.foldl (fun fs p => fs.erase p) fs

/-- `filp_open`. The name is kept as it was given. -/
def filpOpen (fs : Fs) : Vfs := fun text flags =>
  match (Path.ofPosix text).bind (resolve fs) with
  | none => .error .ENOENT
  | some (_, f) =>
    if flags = .rdwr ∧ f.writable = false then .error .EROFS
    else .ok
      { name := text
        kind := .reg
        size := f.contents.size
        fmodeWrite := flags = .rdwr
        canRead := true
        canWrite := true }

/-! ### Lookups -/

theorem resolve_of_hasFile {fs : Fs} {p : Path} {f : File} (h : HasFile fs p f) :
    resolve fs p = some (p, f) := by
  rw [HasFile] at h
  simp only [resolve, followLinks, h]

theorem resolve_of_link {fs : Fs} {p q : Path} {f : File} (hp : fs.lookup p = some (.link q))
    (hq : HasFile fs q f) : resolve fs p = some (q, f) := by
  rw [HasFile] at hq
  simp only [resolve, maxSymlinks, followLinks, hp, hq]

theorem resolve_of_dangling {fs : Fs} {p q : Path} (hp : fs.lookup p = some (.link q))
    (hq : fs.lookup q = none) : resolve fs p = none := by
  simp only [resolve, maxSymlinks, followLinks, hp, hq]

theorem hasFile_of_followLinks {n : ℕ} {fs : Fs} {p q : Path} {f : File}
    (h : followLinks n fs p = some (q, f)) : HasFile fs q f := by
  induction n generalizing p with
  | zero => cases h
  | succ n ih =>
    rw [followLinks] at h
    split at h
    · rename_i g hlook
      cases h
      exact hlook
    · exact ih h
    · cases h

theorem hasFile_of_resolve {fs : Fs} {p q : Path} {f : File} (h : resolve fs p = some (q, f)) :
    HasFile fs q f := hasFile_of_followLinks h

theorem lookup_unlinkAll (fs : Fs) (ps : List Path) (p : Path) :
    (unlinkAll fs ps).lookup p = if p ∈ ps then none else fs.lookup p := by
  induction ps generalizing fs with
  | nil => rfl
  | cons q ps ih =>
    have hrec := ih (fs.erase q)
    rw [unlinkAll, List.foldl_cons, ← unlinkAll, hrec]
    by_cases hq : p = q
    · subst hq
      simp
    · simp [hq]

theorem mem_children {fs : Fs} {dir : Text} {p : Path} :
    p ∈ children fs dir ↔ fs.lookup p ≠ none ∧ p.dir = dir := by
  rw [children, List.mem_filter, ← AList.mem_keys, decide_eq_true_iff, Ne, AList.lookup_eq_none,
    not_not]

theorem lookup_unlinkAll_children (fs : Fs) (dir : Text) (p : Path) :
    (unlinkAll fs (children fs dir)).lookup p = if p.dir = dir then none else fs.lookup p := by
  rw [lookup_unlinkAll]
  by_cases hdir : p.dir = dir
  · rw [if_pos hdir]
    split_ifs with hmem
    · rfl
    · by_contra hne
      exact hmem (mem_children.mpr ⟨hne, hdir⟩)
  · rw [if_neg hdir, if_neg fun hmem => hdir (mem_children.mp hmem).2]

theorem filpOpen_asPosix {fs : Fs} {p q : Path} {f : File} (h : resolve fs p = some (q, f))
    (flags : OpenFlags) :
    filpOpen fs p.asPosix flags =
      if flags = .rdwr ∧ f.writable = false then .error .EROFS
      else .ok ⟨p.asPosix, .reg, f.contents.size, flags = .rdwr, true, true⟩ := by
  simp only [filpOpen, Path.ofPosix_asPosix, Option.bind_some, h]

theorem regularFile_filpOpen {fs : Fs} {p q : Path} {f : File}
    (h : resolve fs p = some (q, f)) (hsize : 512 ≤ f.contents.size) (hw : f.writable = true) :
    RegularFile (filpOpen fs) p.asPosix where
  opens flags := by
    refine ⟨⟨p.asPosix, .reg, f.contents.size, flags = .rdwr, true, true⟩, ?_, rfl, rfl, rfl, hsize⟩
    simp [filpOpen_asPosix h, hw]
  writable g hg := by
    simp only [filpOpen_asPosix h, hw, Bool.true_eq_false, and_false, if_false] at hg
    cases hg
    exact ⟨rfl, rfl⟩

/-! ### Links that stay among some paths -/

/-- The links from a path on, as far as they are followed, stay among the paths of `P`. -/
def StaysIn (fs : Fs) (P : Path → Prop) : ℕ → Path → Prop
  | 0, _ => True
  | n + 1, p => P p ∧ ∀ t, fs.lookup p = some (.link t) → StaysIn fs P n t

theorem staysIn_of_hasFile {fs : Fs} {P : Path → Prop} {p : Path} {f : File} (hp : P p)
    (h : HasFile fs p f) (n : ℕ) : StaysIn fs P n p := by
  cases n with
  | zero => trivial
  | succ n =>
    refine ⟨hp, fun t ht => ?_⟩
    rw [HasFile, ht] at h
    cases h

theorem StaysIn.mono {fs : Fs} {P Q : Path → Prop} (himp : ∀ x, P x → Q x) {n : ℕ} {p : Path}
    (h : StaysIn fs P n p) : StaysIn fs Q n p := by
  induction n generalizing p with
  | zero => trivial
  | succ n ih => exact ⟨himp p h.1, fun t ht => ih (h.2 t ht)⟩

theorem staysIn_of_forall {fs : Fs} {P : Path → Prop} (h : ∀ x, P x) (n : ℕ) (p : Path) :
    StaysIn fs P n p := by
  induction n generalizing p with
  | zero => trivial
  | succ n ih => exact ⟨h p, fun t _ => ih t⟩

theorem StaysIn.and {fs : Fs} {P Q : Path → Prop} {n : ℕ} {p : Path} (h : StaysIn fs P n p)
    (h' : StaysIn fs Q n p) : StaysIn fs (fun x => P x ∧ Q x) n p := by
  induction n generalizing p with
  | zero => trivial
  | succ n ih => exact ⟨⟨h.1, h'.1⟩, fun t ht => ih (h.2 t ht) (h'.2 t ht)⟩

theorem StaysIn.mem {fs : Fs} {P : Path → Prop} {n : ℕ} {p q : Path} {f : File}
    (h : StaysIn fs P n p) (hq : followLinks n fs p = some (q, f)) : P q := by
  induction n generalizing p with
  | zero => cases hq
  | succ n ih =>
    rw [followLinks] at hq
    split at hq
    · cases hq
      exact h.1
    · rename_i t ht
      exact ih (h.2 t ht) hq
    · cases hq

theorem StaysIn.congr {fs fs' : Fs} {P : Path → Prop}
    (hsame : ∀ x, P x → fs'.lookup x = fs.lookup x) {n : ℕ} {p : Path} (h : StaysIn fs P n p) :
    StaysIn fs' P n p := by
  induction n generalizing p with
  | zero => trivial
  | succ n ih =>
    refine ⟨h.1, fun t ht => ih (h.2 t ?_)⟩
    rw [← hsame p h.1]
    exact ht

/-- A path leads to the same place when nothing on its way changes. -/
theorem StaysIn.followLinks_eq {fs fs' : Fs} {P : Path → Prop}
    (hsame : ∀ x, P x → fs'.lookup x = fs.lookup x) {n : ℕ} {p : Path} (h : StaysIn fs P n p) :
    followLinks n fs' p = followLinks n fs p := by
  induction n generalizing p with
  | zero => rfl
  | succ n ih =>
    rw [followLinks, followLinks, hsame p h.1]
    split
    · rfl
    · rename_i t ht
      exact ih (h.2 t ht)
    · rfl

theorem lookup_insert_of_link {fs : Fs} {p q t : Path} {f : File} (node : Node)
    (hq : HasFile fs q f) (hp : fs.lookup p = some (.link t)) :
    (fs.insert q node).lookup p = some (.link t) := by
  have hne : p ≠ q := by
    rintro rfl
    rw [HasFile, hp] at hq
    cases hq
  exact (AList.lookup_insert_ne hne).trans hp

/-- A path leads to the bytes that are written to its file. -/
theorem followLinks_insert {fs : Fs} {n : ℕ} {p q : Path} {f : File} (f' : File)
    (h : followLinks n fs p = some (q, f)) :
    followLinks n (fs.insert q (.file f')) p = some (q, f') := by
  have hq := hasFile_of_followLinks h
  induction n generalizing p with
  | zero => cases h
  | succ n ih =>
    rw [followLinks] at h
    split at h
    · cases h
      rw [followLinks, AList.lookup_insert]
    · rename_i t ht
      rw [followLinks, lookup_insert_of_link _ hq ht]
      exact ih h
    · cases h

theorem followLinks_insert_of_ne {fs : Fs} {n : ℕ} {p q q' : Path} {f f' : File} (node : Node)
    (hq : HasFile fs q f) (h : followLinks n fs p = some (q', f')) (hne : q' ≠ q) :
    followLinks n (fs.insert q node) p = some (q', f') := by
  induction n generalizing p with
  | zero => cases h
  | succ n ih =>
    rw [followLinks] at h
    split at h
    · rename_i hp
      cases h
      rw [followLinks, AList.lookup_insert_ne hne, hp]
    · rename_i t ht
      rw [followLinks, lookup_insert_of_link _ hq ht]
      exact ih h
    · cases h

theorem eq_of_followLinks_insert {fs : Fs} {n : ℕ} {p q q' : Path} {f f' : File}
    (hnone : followLinks n fs p = none)
    (h : followLinks n (fs.insert q (.file f)) p = some (q', f')) : f' = f := by
  induction n generalizing p with
  | zero => cases h
  | succ n ih =>
    by_cases hp : p = q
    · rw [hp, followLinks, AList.lookup_insert] at h
      cases h
      rfl
    · rw [followLinks] at hnone h
      rw [AList.lookup_insert_ne hp] at h
      split at h
      · rename_i hfile
        rw [hfile] at hnone
        cases hnone
      · rename_i t ht
        rw [ht] at hnone
        exact ih hnone h
      · cases h

/-- A path that still leads somewhere when names are gone led there before. -/
theorem followLinks_of_subset {fs fs' : Fs}
    (hsub : ∀ x node, fs'.lookup x = some node → fs.lookup x = some node) {n : ℕ} {p q : Path}
    {f : File} (h : followLinks n fs' p = some (q, f)) : followLinks n fs p = some (q, f) := by
  induction n generalizing p with
  | zero => cases h
  | succ n ih =>
    rw [followLinks] at h
    split at h
    · rename_i hp
      cases h
      rw [followLinks, hsub _ _ hp]
    · rename_i t ht
      rw [followLinks, hsub _ _ ht]
      exact ih h
    · cases h

/-- A way that is cut ends where it is cut. -/
theorem not_of_followLinks_cut {fs fs' : Fs} {P Q : Path → Prop}
    (hsame : ∀ x, P x → Q x → fs'.lookup x = fs.lookup x)
    (hcut : ∀ x t, ¬ P x → Q x → fs'.lookup x ≠ some (.link t)) {n : ℕ} {p q : Path} {f : File}
    (hoff : StaysIn fs Q n p) (h : ¬ StaysIn fs P n p) (hq : followLinks n fs' p = some (q, f)) :
    ¬ P q := by
  induction n generalizing p with
  | zero => exact absurd trivial h
  | succ n ih =>
    rw [followLinks] at hq
    by_cases hp : P p
    · obtain ⟨t, ht, hstays⟩ : ∃ t, fs.lookup p = some (.link t) ∧ ¬ StaysIn fs P n t := by
        by_contra hno
        refine h ⟨hp, fun t ht => ?_⟩
        by_contra hstays
        exact hno ⟨t, ht, hstays⟩
      rw [hsame p hp hoff.1, ht] at hq
      exact ih (hoff.2 t ht) hstays hq
    · split at hq
      · cases hq
        exact hp
      · rename_i t ht
        exact absurd ht (hcut p t hp hoff.1)
      · cases hq

/-- A path whose way is cut leads nowhere. -/
theorem followLinks_eq_none {fs fs' : Fs} {P : Path → Prop}
    (hsame : ∀ x, P x → fs'.lookup x = fs.lookup x) (hgone : ∀ x, ¬ P x → fs'.lookup x = none)
    {n : ℕ} {p : Path} (h : ¬ StaysIn fs P n p) : followLinks n fs' p = none := by
  rcases hq : followLinks n fs' p with _ | ⟨q, f⟩
  · rfl
  have hout : ¬ P q := not_of_followLinks_cut (Q := fun _ => True) (fun x hx _ => hsame x hx)
    (fun x t hx _ ht => by rw [hgone x hx] at ht; cases ht)
    (staysIn_of_forall (fun _ => trivial) n p) h hq
  have hfile : fs'.lookup q = some (.file f) := hasFile_of_followLinks hq
  rw [hgone q hout] at hfile
  cases hfile

/-- A path that leads to a file does not come past a link to itself. -/
theorem staysIn_of_link {fs : Fs} {link p : Path} (hlink : fs.lookup link = some (.link p)) {n : ℕ}
    (h : (followLinks n fs p).isSome = true) (k : ℕ) : StaysIn fs (· ≠ link) k p := by
  have hex : ∃ n, (followLinks n fs p).isSome = true := ⟨n, h⟩
  -- a way that came past the link would lead to the file in fewer steps than the shortest one
  have key : ∀ k j x, (followLinks j fs x).isSome = true →
      (∀ i, i < j → ¬ (followLinks i fs p).isSome = true) → StaysIn fs (· ≠ link) k x := by
    intro k
    induction k with
    | zero => exact fun _ _ _ _ => trivial
    | succ k ih =>
      rintro (_ | j) x hx hmin
      · cases hx
      refine ⟨?_, fun t ht => ?_⟩
      · rintro rfl
        rw [followLinks, hlink] at hx
        exact hmin j (Nat.lt_succ_self j) hx
      · rw [followLinks, ht] at hx
        exact ih j t hx fun i hi => hmin i (Nat.lt_succ_of_lt hi)
  exact key k (Nat.find hex) p (Nat.find_spec hex) fun i hi => Nat.find_min hex hi

theorem lookup_insert_file {fs : Fs} {p x t : Path} {f : File}
    (h : fs.lookup x ≠ some (.link t)) : (fs.insert p (.file f)).lookup x ≠ some (.link t) := by
  by_cases hx : x = p
  · rw [hx, AList.lookup_insert]
    exact fun h => by cases h
  · rw [AList.lookup_insert_ne hx]
    exact h

theorem StaysIn.insert {fs : Fs} {P : Path → Prop} {n : ℕ} {p q : Path} (f' : File)
    (h : StaysIn fs P n p) : StaysIn (fs.insert q (.file f')) P n p := by
  induction n generalizing p with
  | zero => trivial
  | succ n ih =>
    refine ⟨h.1, fun t ht => ?_⟩
    by_cases hp : p = q
    · rw [hp, AList.lookup_insert] at ht
      cases ht
    · rw [AList.lookup_insert_ne hp] at ht
      exact ih (h.2 t ht)

/-! ### Files that differ in their bytes only -/

/-- What `followLinks` and `open` see of a node: its target, or whether it can be written. -/
def Node.mode : Node → Bool ⊕ Path
  | .file f => .inl f.writable
  | .link target => .inr target

def SameModes (fs fs' : Fs) : Prop :=
  ∀ p, (fs.lookup p).map Node.mode = (fs'.lookup p).map Node.mode

theorem SameModes.symm {fs fs' : Fs} (h : SameModes fs fs') : SameModes fs' fs :=
  fun p => (h p).symm

theorem SameModes.of_insert {fs : Fs} {p : Path} {f f' : File} (hf : HasFile fs p f)
    (hw : f.writable = f'.writable) : SameModes fs (fs.insert p (.file f')) := by
  intro x
  by_cases hx : x = p
  · have hfile : fs.lookup p = some (.file f) := hf
    rw [hx, AList.lookup_insert, hfile]
    exact congrArg (some ∘ Sum.inl) hw
  · rw [AList.lookup_insert_ne hx]

theorem SameModes.erase {fs fs' : Fs} (h : SameModes fs fs') (p : Path) :
    SameModes (fs.erase p) (fs'.erase p) := by
  intro x
  by_cases hx : x = p
  · rw [hx, AList.lookup_erase, AList.lookup_erase]
  · rw [AList.lookup_erase_ne hx, AList.lookup_erase_ne hx, h x]

theorem SameModes.insert {fs fs' : Fs} (h : SameModes fs fs') (p : Path) {node node' : Node}
    (hmode : node.mode = node'.mode) : SameModes (fs.insert p node) (fs'.insert p node') := by
  intro x
  by_cases hx : x = p
  · rw [hx, AList.lookup_insert, AList.lookup_insert, Option.map_some, Option.map_some, hmode]
  · rw [AList.lookup_insert_ne hx, AList.lookup_insert_ne hx, h x]

theorem SameModes.node {fs fs' : Fs} (h : SameModes fs fs') (p : Path) :
    (fs.lookup p = none ∧ fs'.lookup p = none) ∨
      (∃ f f', HasFile fs p f ∧ HasFile fs' p f' ∧ f.writable = f'.writable) ∨
      ∃ t, fs.lookup p = some (.link t) ∧ fs'.lookup p = some (.link t) := by
  have hp := h p
  unfold HasFile
  generalize fs.lookup p = node at hp ⊢
  generalize fs'.lookup p = node' at hp ⊢
  rcases node with _ | (f | t) <;> rcases node' with _ | (f' | t')
  · exact Or.inl ⟨rfl, rfl⟩
  · cases hp
  · cases hp
  · cases hp
  · exact Or.inr (Or.inl ⟨f, f', rfl, rfl, Sum.inl.inj (Option.some.inj hp)⟩)
  · cases hp
  · cases hp
  · cases hp
  · obtain rfl : t = t' := Sum.inr.inj (Option.some.inj hp)
    exact Or.inr (Or.inr ⟨t, rfl, rfl⟩)

theorem SameModes.staysIn {fs fs' : Fs} (hsame : SameModes fs fs') {P : Path → Prop} {n : ℕ}
    {p : Path} (h : StaysIn fs P n p) : StaysIn fs' P n p := by
  induction n generalizing p with
  | zero => trivial
  | succ n ih =>
    refine ⟨h.1, fun t ht => ih (h.2 t ?_)⟩
    rcases hsame.node p with ⟨-, hnone⟩ | ⟨f, f', -, hf', -⟩ | ⟨t', ht', hlink⟩
    · rw [hnone] at ht
      cases ht
    · rw [hf'] at ht
      cases ht
    · rw [hlink] at ht
      cases ht
      exact ht'

theorem SameModes.rename {fs fs' : Fs} (h : SameModes fs fs') (p q : Path) :
    SameModes (rename fs p q) (rename fs' p q) := by
  unfold Files.rename
  rcases h.node p with ⟨hnone, hnone'⟩ | ⟨f, f', hf, hf', hw⟩ | ⟨t, ht, ht'⟩
  · rw [hnone, hnone']
    exact h
  · rw [hf, hf']
    exact (h.erase p).insert q (congrArg Sum.inl hw)
  · rw [ht, ht']
    exact (h.erase p).insert q rfl

theorem SameModes.isSymlink_eq {fs fs' : Fs} (h : SameModes fs fs') (p : Path) :
    isSymlink fs p = isSymlink fs' p := by
  unfold isSymlink
  rcases h.node p with ⟨hnone, hnone'⟩ | ⟨f, f', hf, hf', -⟩ | ⟨t, ht, ht'⟩
  · rw [hnone, hnone']
  · rw [hf, hf']
  · rw [ht, ht']

theorem SameModes.followLinks {fs fs' : Fs} (h : SameModes fs fs') (n : ℕ) (p : Path) :
    (followLinks n fs p).map (fun r => (r.1, r.2.writable)) =
      (followLinks n fs' p).map (fun r => (r.1, r.2.writable)) := by
  induction n generalizing p with
  | zero => rfl
  | succ n ih =>
    rw [Files.followLinks, Files.followLinks]
    rcases h.node p with ⟨hnone, hnone'⟩ | ⟨f, f', hf, hf', hw⟩ | ⟨t, ht, ht'⟩
    · rw [hnone, hnone']
    · rw [hf, hf']
      simp only [Option.map_some, hw]
    · rw [ht, ht']
      exact ih t

theorem SameModes.resolve {fs fs' : Fs} (h : SameModes fs fs') (p : Path) :
    (resolve fs p).map (fun r => (r.1, r.2.writable)) =
      (resolve fs' p).map (fun r => (r.1, r.2.writable)) := h.followLinks _ p

theorem SameModes.writable {fs fs' : Fs} (h : SameModes fs fs') {p q : Path} {f' : File}
    (hres : Files.resolve fs' p = some (q, f')) :
    ∃ f, Files.resolve fs p = some (q, f) ∧ f.writable = f'.writable := by
  have heq := h.resolve p
  rw [hres, Option.map_some, Option.map_eq_some_iff] at heq
  obtain ⟨⟨q', f⟩, hres', hpair⟩ := heq
  obtain ⟨rfl, hw⟩ := Prod.mk.inj hpair
  exact ⟨f, hres', hw⟩

end UsbFloppy.Files

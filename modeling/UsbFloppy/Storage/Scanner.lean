import Mathlib.Data.List.Dedup
import Mathlib.Data.List.Sort
import Mathlib.Data.List.Lex
import Mathlib.Data.Char
import UsbFloppy.Gadget.Controller

/-! scan: every folder right below the root that holds an image is a set. Folders are there
as far as files lie in them. -/

namespace UsbFloppy.Storage
open Files Gadget

/-- `Path.exists`, of anything but a folder. -/
def pathExists (fs : Fs) (p : Path) : Bool := (resolve fs p).isSome

/-- The file whose presence makes a set read-only. -/
def marker (folder : Path) : Path := folder.child "ro".toList

def byName (p q : Path) : Prop := p.name ≤ q.name

instance : DecidableRel byName := fun p q => inferInstanceAs (Decidable (p.name ≤ q.name))

/-- The folders of `root.iterdir()`. -/
def folders (fs : Fs) (root : Path) : List Path :=
  ((fs.keys.filterMap fun p => Path.ofPosix p.dir).filter fun d => d.dir = root.asPosix).dedup

def imageIn (fs : Fs) (p : Path) : Option Image :=
  if h : p.hasSuffix ".img".toList then if pathExists fs p then some ⟨p, h⟩ else none else none

def imagesIn (fs : Fs) (folder : Path) : List Image :=
  (((children fs folder.asPosix).insertionSort byName).filterMap (imageIn fs))

theorem imageIn_eq_some {fs : Fs} {p : Path} {d : Image} :
    imageIn fs p = some d ↔ p = d.1 ∧ pathExists fs d.1 = true := by
  unfold imageIn
  split_ifs with hsuffix hexists
  · rw [Option.some_inj, ← Subtype.val_inj]
    exact ⟨fun h => ⟨h, h ▸ hexists⟩, fun h => h.1⟩
  · refine iff_of_false (fun h => by cases h) ?_
    rintro ⟨rfl, h⟩
    exact hexists h
  · refine iff_of_false (fun h => by cases h) ?_
    rintro ⟨rfl, -⟩
    exact hsuffix d.2

theorem mem_imagesIn {fs : Fs} {folder : Path} {d : Image} :
    d ∈ imagesIn fs folder ↔ d.1.dir = folder.asPosix ∧ pathExists fs d.1 = true := by
  rw [imagesIn, List.mem_filterMap]
  constructor
  · rintro ⟨p, hp, himage⟩
    obtain ⟨rfl, hexists⟩ := imageIn_eq_some.mp himage
    exact ⟨(mem_children.mp ((List.mem_insertionSort byName).mp hp)).2, hexists⟩
  · rintro ⟨hdir, hexists⟩
    refine ⟨d.1, ?_, imageIn_eq_some.mpr ⟨rfl, hexists⟩⟩
    rw [List.mem_insertionSort, mem_children]
    refine ⟨fun hnone => ?_, hdir⟩
    rw [pathExists, resolve, followLinks, hnone] at hexists
    cases hexists

def scanFolder (fs : Fs) (folder : Path) : FloppySet where
  name := folder.name
  path := folder
  disks := imagesIn fs folder
  readOnly := pathExists fs (marker folder)
  disksIn _ hd := (mem_imagesIn.mp hd).1

def scan (fs : Fs) (root : Path) : List FloppySet :=
  (((folders fs root).insertionSort byName).map (scanFolder fs)).filter fun s => s.disks ≠ []

/-- The scan finds the folders right below the root that hold an image. -/
theorem mem_scan {fs : Fs} {root : Path} {s : FloppySet} :
    s ∈ scan fs root ↔
      ∃ folder : Path, folder.dir = root.asPosix ∧ s = scanFolder fs folder ∧ s.disks ≠ [] := by
  rw [scan, List.mem_filter, List.mem_map, decide_eq_true_iff]
  constructor
  · rintro ⟨⟨folder, hfolder, rfl⟩, hdisks⟩
    rw [List.mem_insertionSort, folders, List.mem_dedup, List.mem_filter] at hfolder
    exact ⟨folder, of_decide_eq_true hfolder.2, rfl, hdisks⟩
  · rintro ⟨folder, hdir, rfl, hdisks⟩
    refine ⟨⟨folder, ?_, rfl⟩, hdisks⟩
    obtain ⟨d, hd⟩ := List.exists_mem_of_ne_nil _ hdisks
    obtain ⟨hparent, hexists⟩ := mem_imagesIn.mp hd
    rw [List.mem_insertionSort, folders, List.mem_dedup, List.mem_filter, List.mem_filterMap]
    refine ⟨⟨d.1, ?_, by rw [hparent, Path.ofPosix_asPosix]⟩, decide_eq_true hdir⟩
    rw [← AList.mem_keys, ← AList.lookup_isSome]
    by_contra hnone
    rw [Option.not_isSome_iff_eq_none] at hnone
    rw [pathExists, resolve, followLinks, hnone] at hexists
    cases hexists

theorem scan_sorted (fs : Fs) (root : Path) :
    (scan fs root).Pairwise fun s t => s.name ≤ t.name := by
  have hsorted : ((folders fs root).insertionSort byName).Pairwise byName := by
    have : Std.Total byName := ⟨fun p q => le_total p.name q.name⟩
    have : IsTrans Path byName := ⟨fun _ _ _ h h' => le_trans h h'⟩
    exact List.pairwise_insertionSort byName _
  exact (List.Pairwise.map (scanFolder fs) (fun _ _ h => h) hsorted).filter _

end UsbFloppy.Storage

import UsbFloppy.Lib.Run
import UsbFloppy.Files.Tree
import UsbFloppy.Storage.Scanner
import UsbFloppy.Storage.Normalizer

/-! Library: the watcher's events are marshalled to the event loop, where each is normalized
and a rescan is scheduled, unless there is one already. -/

namespace UsbFloppy.Storage
open Files Gadget Transition

/-- The source path of an event, as the path of a folder and a name in it. -/
structure FsEvent where
  dir : Text
  name : Text
  deriving DecidableEq, Repr

/-- The names under which the opens, closes, writes and the like of `_extract_imz` are reported.
What fails is not reported. -/
def extractTouched (f : NormalizeFaults) (zip : ZipFile) (d : Folder) (archive : Text) : List Text :=
  match f.reads zip ((d.read archive).getD []) with
  -- the archive is opened and closed
  | .error _ => if f.barred then [] else [archive, archive]
  | .ok members =>
    match innerMember members with
    | none => [archive, archive]
    | some m =>
      let target := nextAvailable d (asImg archive)
      match f.nameFault d archive, m.opened, f.opening, m.contents with
      -- between the two, the image is created, opened and closed
      | none, .ok (), none, .error _ => [archive, target, target, target, archive]
      | none, .ok (), none, .ok image =>
        let written := f.writing.elim image fun fault => image.take fault.1
        -- and written, when there is something to write; at last the archive is deleted
        [archive, target, target] ++ (if written = [] then [] else [target]) ++
          [target, archive] ++ (if f.writing = none ∧ f.unlinking = false then [archive] else [])
      | _, _, _, _ => [archive, archive]

def touched (f : NormalizeFaults) (zip : ZipFile) (d : Folder) (name : Text) : List Text :=
  if lower (suffix name) = ".ima".toList then if f.Renames d name then [name] else []
  else if lower (suffix name) = ".imz".toList then extractTouched f zip d name
  else []

/-- What a callback for the name is reported as. -/
def ownEvents (f : NormalizeFaults) (zip : ZipFile) (d : Folder) (e : FsEvent) : List FsEvent :=
  if d.isFile e.name ∧ isImageFile e.name then (touched f zip d e.name).map fun name => ⟨e.dir, name⟩
  else []

/-- The task of `_debounced_rescan`. While it scans, the event loop runs nothing else; `changed`
is whether the tree has changed since the scan began. -/
inductive Rescan
  | none
  | sleeping
  | scanning (changed : Bool)
  deriving DecidableEq, Repr

/-- `version` counts the changes of `sets`, and `heard` has for every listener the version that
it was last called for, or registered at. -/
structure Library where
  tree : Tree
  undelivered : List FsEvent
  sets : List FloppySet
  rescan : Rescan
  stopped : Bool
  listeners : List ℕ
  version : ℕ
  heard : ℕ → ℕ

inductive LibraryStep
  /-- Others make the tree what it is now, which is reported by one event or more. -/
  | change (tree : Tree) (event : FsEvent) (events : List FsEvent)
  /-- A callback runs, and meets OSErrors. -/
  | deliver (i : ℕ) (f : NormalizeFaults)
  /-- the debounce is over -/
  | expire
  /-- The scan ends. What it found in a tree that changed under it is an input. -/
  | scanned (seen : List FloppySet)
  | scanFailed
  | onChange (listener : ℕ)
  | stop

namespace Library

variable (zip : ZipFile) (root : Path) (s : Library)

def start (tree : Tree) : Library where
  tree := tree
  undelivered := []
  sets := scan tree.toFs root
  rescan := .none
  stopped := false
  listeners := []
  version := 0
  heard := fun _ => 0

def scheduleRescan : Library :=
  if s.stopped then s
  else if s.rescan ≠ .none then s
  else { s with rescan := .sleeping }

def onFsEvent (f : NormalizeFaults) (e : FsEvent) : Library :=
  let d := s.tree.folder e.dir
  { s with
    tree := s.tree.setFolder e.dir (Storage.onFsEvent f zip d e.name)
    undelivered := s.undelivered ++ ownEvents f zip d e }.scheduleRescan

/-- `_debounced_rescan` from the end of its scan on. -/
def finishRescan (newSets : List FloppySet) : Library :=
  if newSets ≠ s.sets then
    { s with
      sets := newSets
      rescan := .none
      version := s.version + 1
      heard := fun l => if l ∈ s.listeners then s.version + 1 else s.heard l }
  else { s with rescan := .none }

def step (s : Library) : LibraryStep → Library
  | .change tree event events =>
    { s with
      tree := tree
      undelivered := s.undelivered ++ event :: events
      rescan := match s.rescan with
        | .scanning _ => .scanning true
        | rescan => rescan }
  | .deliver i f =>
    match s.rescan, s.undelivered[i]? with
    | .scanning _, _ => s
    | _, none => s
    | _, some e => { s with undelivered := s.undelivered.eraseIdx i }.onFsEvent zip f e
  | .expire =>
    match s.rescan with
    | .sleeping => { s with rescan := if s.stopped then .none else .scanning false }
    | _ => s
  | .scanned seen =>
    match s.rescan with
    | .scanning changed => s.finishRescan (if changed then seen else scan s.tree.toFs root)
    | _ => s
  | .scanFailed =>
    match s.rescan with
    | .scanning _ => { s with rescan := .none }
    | _ => s
  | .onChange listener =>
    { s with
      listeners := s.listeners ++ [listener]
      heard := Function.update s.heard listener s.version }
  | .stop => { s with stopped := true, rescan := .none }

/-- Nothing is on its way. -/
def Quiet : Prop := s.undelivered = [] ∧ s.rescan = .none

/-- The snapshot is that of the tree, and every listener has been called since it changed. -/
def Fresh : Prop := s.sets = scan s.tree.toFs root ∧ ∀ l ∈ s.listeners, s.heard l = s.version

/-- The library is not stopped, and the scan does not fail. -/
def Undisturbed : LibraryStep → Prop
  | .scanFailed => False
  | .stop => False
  | _ => True

structure Inv (s : Library) : Prop where
  running : s.stopped = false
  heard : ∀ l ∈ s.listeners, s.heard l = s.version
  changed : s.rescan = .scanning true → s.undelivered ≠ []
  fresh : s.Quiet → s.sets = scan s.tree.toFs root

variable {zip root s}

theorem start_inv (tree : Tree) : Inv root (start root tree) where
  running := rfl
  heard l hl := by cases hl
  changed h := by cases h
  fresh _ := rfl

theorem onFsEvent_rescan (zip : ZipFile) (f : NormalizeFaults) (e : FsEvent)
    (hrunning : s.stopped = false) :
    (s.onFsEvent zip f e).rescan = if s.rescan ≠ .none then s.rescan else .sleeping := by
  unfold onFsEvent scheduleRescan
  dsimp only
  rw [if_neg (by rw [hrunning]; exact Bool.false_ne_true)]
  split_ifs <;> rfl

theorem onFsEvent_not_scanning (f : NormalizeFaults) (e : FsEvent) {changed : Bool}
    (h : s.rescan ≠ .scanning changed) :
    (s.onFsEvent zip f e).rescan ≠ .scanning changed := by
  unfold onFsEvent scheduleRescan
  dsimp only
  split_ifs
  · exact h
  · exact h
  · exact nofun

theorem onFsEvent_eq (f : NormalizeFaults) (e : FsEvent) :
    s.onFsEvent zip f e =
      { s with
        tree := s.tree.setFolder e.dir (Storage.onFsEvent f zip (s.tree.folder e.dir) e.name)
        undelivered := s.undelivered ++ ownEvents f zip (s.tree.folder e.dir) e
        rescan := (s.onFsEvent zip f e).rescan } := by
  unfold onFsEvent scheduleRescan
  dsimp only
  split_ifs <;> rfl

section

variable (newSets : List FloppySet)

@[simp] theorem finishRescan_tree : (s.finishRescan newSets).tree = s.tree := by
  unfold finishRescan
  split_ifs <;> rfl

@[simp] theorem finishRescan_undelivered :
    (s.finishRescan newSets).undelivered = s.undelivered := by
  unfold finishRescan
  split_ifs <;> rfl

@[simp] theorem finishRescan_stopped : (s.finishRescan newSets).stopped = s.stopped := by
  unfold finishRescan
  split_ifs <;> rfl

@[simp] theorem finishRescan_rescan : (s.finishRescan newSets).rescan = .none := by
  unfold finishRescan
  split_ifs <;> rfl

@[simp] theorem finishRescan_sets : (s.finishRescan newSets).sets = newSets := by
  unfold finishRescan
  split_ifs with hsets
  · rfl
  · exact (not_not.mp hsets).symm

theorem finishRescan_heard (h : ∀ l ∈ s.listeners, s.heard l = s.version) :
    ∀ l ∈ (s.finishRescan newSets).listeners,
      (s.finishRescan newSets).heard l = (s.finishRescan newSets).version := by
  unfold finishRescan
  split_ifs
  · exact fun l hl => if_pos hl
  · exact h

end

theorem inv_step (zip : ZipFile) (h : Inv root s) {x : LibraryStep} (hok : Undisturbed x) :
    Inv root (s.step zip root x) := by
  cases x with
  | change tree event events =>
    refine ⟨h.running, h.heard, fun _ hnil => ?_, fun hquiet => ?_⟩
    · exact List.append_ne_nil_of_right_ne_nil _ (List.cons_ne_nil _ _) hnil
    · exact absurd hquiet.1 (List.append_ne_nil_of_right_ne_nil _ (List.cons_ne_nil _ _))
  | deliver i f =>
    dsimp only [step]
    split
    · exact h
    · exact h
    · rename_i e hi hscanning
      have hrescan := onFsEvent_rescan (s := { s with undelivered := s.undelivered.eraseIdx i })
        zip f e h.running
      rw [onFsEvent_eq]
      refine ⟨h.running, h.heard, fun hscan => ?_, fun hquiet => ?_⟩
      · -- no scan starts in a callback
        rw [hrescan] at hscan
        split_ifs at hscan
        exact absurd hscan (hscanning true)
      · have hnone := hrescan.symm.trans hquiet.2
        split_ifs at hnone with hidle
        exact absurd hnone hidle
  | expire =>
    dsimp only [step]
    split
    · rw [if_neg (by rw [h.running]; exact Bool.false_ne_true)]
      refine ⟨h.running, h.heard, fun hscan => ?_, fun hquiet => ?_⟩
      · cases hscan
      · cases hquiet.2
    · exact h
  | scanned seen =>
    dsimp only [step]
    split
    · rename_i changed hscanning
      refine ⟨?_, finishRescan_heard _ h.heard, fun hscan => ?_, fun hquiet => ?_⟩
      · rw [finishRescan_stopped]
        exact h.running
      · rw [finishRescan_rescan] at hscan
        cases hscan
      · rw [finishRescan_sets, finishRescan_tree]
        cases changed with
        | false => rfl
        | true =>
          -- what has changed is still to be delivered
          have hnil := hquiet.1
          rw [finishRescan_undelivered] at hnil
          exact absurd hnil (h.changed hscanning)
    · exact h
  | scanFailed => exact absurd hok id
  | onChange listener =>
    refine ⟨h.running, fun l hl => ?_, h.changed, h.fresh⟩
    dsimp only [step] at hl ⊢
    by_cases hnew : l = listener
    · subst hnew
      exact Function.update_self _ _ _
    · rw [Function.update_of_ne hnew]
      obtain hold | hlast := List.mem_append.mp hl
      · exact h.heard l hold
      · exact absurd (List.mem_singleton.mp hlast) hnew
  | stop => exact absurd hok id

end Library

/-- Whenever no event is undelivered and no rescan is pending, the library is up to date and
its listeners know it. -/
theorem library_fresh (zip : ZipFile) (root : Path) (tree : Tree) (steps : List LibraryStep)
    (hok : ∀ x ∈ steps, Library.Undisturbed x) :
    Throughout (Library.step zip root) (fun s => s.Quiet → s.Fresh root) (.start root tree)
      steps := by
  have hinv : Throughout (Library.step zip root) (Library.Inv root) (.start root tree) steps :=
    throughout_invariant (fun _ _ h hok => Library.inv_step zip h hok) (Library.start_inv tree)
      (guarded_of_mem _ hok)
  exact hinv.mono fun s h hquiet => ⟨h.fresh hquiet, h.heard⟩

def floppyRoot : Path := ⟨"/home/pi".toList, "floppies".toList, slash_not_mem_floppies⟩

/-- The folder of a set. -/
def gamesDir : Text := "/home/pi/floppies/games".toList

/-- No archive can be read. -/
def noZip : ZipFile := fun _ => .error (.corrupted [])

/-- Every archive holds an empty image. -/
def emptyImageZip : ZipFile := fun _ => .ok [⟨"a.img".toList, 0, .ok (), .ok []⟩]

/-- A library of one set folder, with nothing in it. -/
def emptyTree : Tree where
  dirs := [gamesDir]
  entries := fun _ => ∅
  data := fun _ => []
  inodes := 0
  allocated _ _ _ h := by cases h

/-- An image has come into the set folder. -/
def gameTree : Tree :=
  emptyTree.setFolder gamesDir ((emptyTree.folder gamesDir).create "a.img".toList)

/-- An image comes into the set folder, and is removed again while a rescan is at work. -/
def comesAndGoes : List LibraryStep :=
  [.onChange 0, .change gameTree ⟨gamesDir, "a.img".toList⟩ [], .deliver 0 .none, .expire,
    .scanned [], .change gameTree ⟨gamesDir, "a.img".toList⟩ [], .deliver 0 .none, .expire,
    .change emptyTree ⟨gamesDir, "a.img".toList⟩ [], .scanned (scan gameTree.toFs floppyRoot),
    .deliver 0 .none, .expire, .scanned []]

/-- The library is at rest with the image, and at rest again without it. -/
theorem library_fresh_example :
    Throughout (Library.step noZip floppyRoot) (fun s => s.Quiet → s.Fresh floppyRoot)
        (.start floppyRoot emptyTree) comesAndGoes ∧
      (Library.start floppyRoot emptyTree).sets.length = 0 ∧
      (run (Library.step noZip floppyRoot) (.start floppyRoot emptyTree)
        (comesAndGoes.take 5)).Quiet ∧
      (run (Library.step noZip floppyRoot) (.start floppyRoot emptyTree)
        (comesAndGoes.take 5)).sets.length = 1 ∧
      (run (Library.step noZip floppyRoot) (.start floppyRoot emptyTree) comesAndGoes).Quiet ∧
      (run (Library.step noZip floppyRoot) (.start floppyRoot emptyTree) comesAndGoes).sets.length =
        0 := by
  refine ⟨?_, by decide +kernel, ?_, by decide +kernel, ?_, by decide +kernel⟩
  · apply library_fresh
    intro x hx
    simp only [comesAndGoes, List.mem_cons, List.not_mem_nil, or_false] at hx
    obtain rfl | rfl | rfl | rfl | rfl | rfl | rfl | rfl | rfl | rfl | rfl | rfl | rfl := hx <;>
      trivial
  · exact ⟨by decide +kernel, by decide +kernel⟩
  · exact ⟨by decide +kernel, by decide +kernel⟩

end UsbFloppy.Storage

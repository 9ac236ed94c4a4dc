import Mathlib.Data.Set.Card
import Mathlib.Order.CompletePartialOrder
import UsbFloppy.Lib.Trace
import UsbFloppy.Storage.Library

/-! The library on its own, once nobody else changes the tree: a callback opens, creates,
renames and deletes files below the root, and is called for them again. -/

namespace UsbFloppy.Storage
open Files Transition

variable {f : NormalizeFaults} {zip : ZipFile} {root : Path} {t : Tree} {s : Library}

/-! ### Callbacks on the tree -/

/-- The tree after the callback of an event. -/
def callbackTree (f : NormalizeFaults) (zip : ZipFile) (t : Tree) (e : FsEvent) : Tree :=
  t.setFolder e.dir (onFsEvent f zip (t.folder e.dir) e.name)

/-- The files whose names the library does not want to keep. -/
def convertible (t : Tree) : Set (Text × Text) :=
  {x | (t.folder x.1).isFile x.2 = true ∧ lower (suffix x.2) ∈ [".ima".toList, ".imz".toList]}

theorem dir_of_isFile {dir name : Text} (h : (t.folder dir).isFile name = true) : dir ∈ t.dirs := by
  obtain ⟨i, hi⟩ := Folder.isFile_iff.mp h
  exact Tree.dir_of_inode (Tree.inode_eq_some.mpr hi)

theorem convertible_finite (t : Tree) : (convertible t).Finite := by
  apply Set.Finite.subset (t.dirs.toFinset.biUnion fun dir =>
    (t.folder dir).entries.keys.toFinset.image fun name => (dir, name)).finite_toSet
  rintro ⟨dir, name⟩ ⟨hfile, -⟩
  obtain ⟨i, hi⟩ := Folder.isFile_iff.mp hfile
  rw [Finset.mem_coe, Finset.mem_biUnion]
  refine ⟨dir, List.mem_toFinset.mpr (dir_of_isFile hfile), Finset.mem_image.mpr ⟨name, ?_, rfl⟩⟩
  rw [List.mem_toFinset, ← AList.mem_keys, ← AList.lookup_isSome, hi]
  rfl

theorem Converted.file {dir name target other file : Text} {i j : ℕ} {d' : Folder}
    (h : Converted (t.folder dir) name target i d') (hdir : dir ∈ t.dirs)
    (hj : ((t.setFolder dir d').folder other).entries.lookup file = some (.file j))
    (himage : ¬ (other = dir ∧ file = target)) :
    (t.folder other).entries.lookup file = some (.file j) ∧ ¬ (other = dir ∧ file = name) := by
  by_cases hother : other = dir
  · subst hother
    have htarget : file ≠ target := fun heq => himage ⟨rfl, heq⟩
    rw [Tree.setFolder_folder_self hdir, h.lookup, if_neg htarget] at hj
    split_ifs at hj with hname
    exact ⟨hj, fun hboth => hname hboth.2⟩
  · rw [Tree.setFolder_folder_of_ne hother] at hj
    exact ⟨hj, fun hboth => hother hboth.1⟩

theorem Converted.suffix_ne {d d' : Folder} {name target : Text} {i : ℕ}
    (h : Converted d name target i d') : lower (suffix target) ∉ [".ima".toList, ".imz".toList] := by
  rw [h.image]
  decide

theorem Converted.convertible_ssubset {dir name target : Text} {i : ℕ} {d' : Folder}
    (h : Converted (t.folder dir) name target i d') (hname : (dir, name) ∈ convertible t) :
    convertible (t.setFolder dir d') ⊂ convertible t := by
  have hdir := dir_of_isFile hname.1
  have hold : ∀ x ∈ convertible (t.setFolder dir d'), x ∈ convertible t ∧ x ≠ (dir, name) := by
    rintro ⟨other, file⟩ ⟨hfile, hsuffix⟩
    obtain ⟨j, hj⟩ := Folder.isFile_iff.mp hfile
    have himage : ¬ (other = dir ∧ file = target) := by
      rintro ⟨-, rfl⟩
      exact h.suffix_ne hsuffix
    obtain ⟨hlookup, hne⟩ := h.file hdir hj himage
    refine ⟨⟨Folder.isFile_iff.mpr ⟨j, hlookup⟩, hsuffix⟩, fun heq => ?_⟩
    cases heq
    exact hne ⟨rfl, rfl⟩
  exact ⟨fun x hx => (hold x hx).1, fun hsub => (hold _ (hsub hname)).2 rfl⟩

/-! ### Own events -/

theorem extractTouched_spec (f : NormalizeFaults) (zip : ZipFile) (d : Folder) (archive : Text) :
    (extractTouched f zip d archive).length ≤ 7 ∧
      (f.barred = false → archive ∈ extractTouched f zip d archive) := by
  unfold extractTouched
  split
  · split_ifs with hbarred
    · exact ⟨Nat.zero_le _, fun hopens => absurd (hbarred.symm.trans hopens) (by decide)⟩
    · simp
  · split
    · simp
    · dsimp only
      split
      · simp
      · split_ifs <;> simp
      · simp

theorem touched_length_le (f : NormalizeFaults) (zip : ZipFile) (d : Folder) (name : Text) :
    (touched f zip d name).length ≤ 7 := by
  unfold touched
  split_ifs
  · exact Nat.le_of_ble_eq_true rfl
  · exact Nat.zero_le _
  · exact (extractTouched_spec f zip d name).1
  · exact Nat.zero_le _

theorem ownEvents_length_le (f : NormalizeFaults) (zip : ZipFile) (d : Folder) (e : FsEvent) :
    (ownEvents f zip d e).length ≤ 7 := by
  unfold ownEvents
  split_ifs
  · rw [List.length_map]
    exact touched_length_le f zip d e.name
  · exact Nat.zero_le _

theorem ownEvents_nil {d : Folder} {e : FsEvent}
    (hima : ¬ (d.isFile e.name ∧ lower (suffix e.name) = ".ima".toList ∧ f.Renames d e.name))
    (himz : ¬ (d.isFile e.name ∧ lower (suffix e.name) = ".imz".toList)) :
    ownEvents f zip d e = [] := by
  unfold ownEvents
  split_ifs with harrived
  · have hnone : touched f zip d e.name = [] := by
      unfold touched
      split_ifs with hsuffix hrenames harchive
      · exact absurd ⟨harrived.1, hsuffix, hrenames⟩ hima
      · rfl
      · exact absurd ⟨harrived.1, harchive⟩ himz
      · rfl
    rw [hnone, List.map_nil]
  · rfl

/-! ### One callback -/

/-- The names to convert weigh more than all events that a conversion causes. -/
noncomputable def work (s : Library) : ℕ := 8 * (convertible s.tree).ncard + s.undelivered.length

/-- A callback that does not get stuck takes from the names what it adds to the events. -/
theorem callbackTree_work {e : FsEvent} (he : ¬ Stuck f zip (t.folder e.dir) e.name) :
    8 * (convertible (callbackTree f zip t e)).ncard + (ownEvents f zip (t.folder e.dir) e).length ≤
      8 * (convertible t).ncard := by
  obtain ⟨hsame, hima, himz⟩ | ⟨i, hconv, hname, -⟩ | hstuck :=
    onFsEvent_cases f zip (t.folder e.dir) e.name
  · have hfolder : ∀ dir, (callbackTree f zip t e).folder dir = t.folder dir := by
      intro dir
      rw [callbackTree, hsame]
      exact Tree.setFolder_folder
    rw [ownEvents_nil hima himz, convertible, convertible]
    simp only [hfolder, List.length_nil, add_zero, le_refl]
  · have hlt := Set.ncard_lt_ncard (hconv.convertible_ssubset hname) (convertible_finite t)
    have hlength := ownEvents_length_le f zip (t.folder e.dir) e
    dsimp only [callbackTree]
    omega
  · exact absurd hstuck he

namespace Library

/-- Nobody else changes the tree in this step. -/
def OwnStep : LibraryStep → Prop
  | .change _ _ _ => False
  | _ => True

/-- In this step `_on_fs_event` runs for the event, and meets the OSErrors. -/
def Calls (s : Library) (x : LibraryStep) (e : FsEvent) (f : NormalizeFaults) : Prop :=
  ∃ i, x = .deliver i f ∧ s.undelivered[i]? = some e ∧ ∀ changed, s.rescan ≠ .scanning changed

/-- The callback of this step is for an archive that it does not replace by its image. -/
def Balks (zip : ZipFile) (s : Library) (x : LibraryStep) : Prop :=
  ∃ e f, s.Calls x e f ∧ Stuck f zip (s.tree.folder e.dir) e.name

theorem not_calls {x : LibraryStep} (hx : ∀ i f, x ≠ .deliver i f) (e : FsEvent)
    (f : NormalizeFaults) : ¬ s.Calls x e f :=
  fun ⟨i, hi, _⟩ => hx i f hi

theorem ownStep_cases (zip : ZipFile) (root : Path) {x : LibraryStep} (hx : OwnStep x) :
    (∃ e f rest, s.Calls x e f ∧ s.undelivered.Perm (e :: rest) ∧
        (s.step zip root x).tree = callbackTree f zip s.tree e ∧
        (s.step zip root x).undelivered = rest ++ ownEvents f zip (s.tree.folder e.dir) e) ∨
      (∀ e f, ¬ s.Calls x e f) ∧ (s.step zip root x).tree = s.tree ∧
        (s.step zip root x).undelivered = s.undelivered := by
  cases x with
  | change tree event events => exact absurd hx id
  | deliver i f =>
    dsimp only [step]
    split
    · rename_i changed hscanning
      refine Or.inr ⟨?_, rfl, rfl⟩
      rintro e f ⟨j, -, -, hfree⟩
      exact hfree changed hscanning
    · rename_i hnone hfree
      refine Or.inr ⟨?_, rfl, rfl⟩
      rintro e f ⟨j, hj, he, -⟩
      cases hj
      cases hnone.symm.trans he
    · rename_i e he hfree
      refine Or.inl ⟨e, f, s.undelivered.eraseIdx i, ⟨i, rfl, he, hfree⟩, ?_, ?_, ?_⟩
      · obtain ⟨hlt, rfl⟩ := List.getElem?_eq_some_iff.mp he
        exact (List.getElem_cons_eraseIdx_perm hlt).symm
      · rw [onFsEvent_eq]
        rfl
      · rw [onFsEvent_eq]
  | expire =>
    refine Or.inr ⟨not_calls fun i f hi => (by cases hi), ?_⟩
    dsimp only [step]
    split <;> exact ⟨rfl, rfl⟩
  | scanned seen =>
    refine Or.inr ⟨not_calls fun i f hi => (by cases hi), ?_⟩
    dsimp only [step]
    split
    · exact ⟨finishRescan_tree _, finishRescan_undelivered _⟩
    · exact ⟨rfl, rfl⟩
  | scanFailed =>
    refine Or.inr ⟨not_calls fun i f hi => (by cases hi), ?_⟩
    dsimp only [step]
    split <;> exact ⟨rfl, rfl⟩
  | onChange listener => exact Or.inr ⟨not_calls fun i f hi => (by cases hi), rfl, rfl⟩
  | stop => exact Or.inr ⟨not_calls fun i f hi => (by cases hi), rfl, rfl⟩

/-- Each callback that does not balk makes the work less, and nothing makes it more. -/
theorem work_step {x : LibraryStep} (hx : OwnStep x) (hbalks : ¬ s.Balks zip x) :
    work (s.step zip root x) ≤ work s ∧
      ((∃ e f, s.Calls x e f) → work (s.step zip root x) < work s) := by
  obtain ⟨e, f, rest, hcalls, hperm, htree, hevents⟩ | ⟨hno, htree, hevents⟩ :=
    ownStep_cases (s := s) zip root hx
  · have hweight := callbackTree_work fun hstuck => hbalks ⟨e, f, hcalls, hstuck⟩
    have hlength : s.undelivered.length = rest.length + 1 := hperm.length_eq
    have hlt : work (s.step zip root x) < work s := by
      rw [work, work, htree, hevents, List.length_append, hlength]
      omega
    exact ⟨hlt.le, fun _ => hlt⟩
  · have hwork : work (s.step zip root x) = work s := by
      rw [work, work, htree, hevents]
    refine ⟨hwork.le, ?_⟩
    rintro ⟨e, f, hcalls⟩
    exact absurd hcalls (hno e f)

/-! ### Runs of the library alone -/

/-- In the run only finitely many callbacks run, and the tree stops changing. -/
def Settles (zip : ZipFile) (root : Path) (s : Library) (steps : ℕ → LibraryStep) : Prop :=
  ∃ n, ∀ k, n ≤ k → (∀ e f, ¬ (trace (step zip root) s steps k).Calls (steps k) e f) ∧
    (trace (step zip root) s steps k).tree = (trace (step zip root) s steps n).tree

/-- From some point on no callback balks. -/
def StopsBalking (zip : ZipFile) (root : Path) (s : Library) (steps : ℕ → LibraryStep) : Prop :=
  ∃ n, ∀ k, n ≤ k → ¬ (trace (step zip root) s steps k).Balks zip (steps k)

variable {steps : ℕ → LibraryStep}

theorem Settles.stopsBalking (h : Settles zip root s steps) : StopsBalking zip root s steps := by
  obtain ⟨n, hn⟩ := h
  refine ⟨n, fun k hk => ?_⟩
  rintro ⟨e, f, hcalls, -⟩
  exact (hn k hk).1 e f hcalls

theorem StopsBalking.settles (hown : ∀ k, OwnStep (steps k)) (h : StopsBalking zip root s steps) :
    Settles zip root s steps := by
  obtain ⟨m, hm⟩ := h
  have hwork : ∀ k, work (trace (step zip root) s steps (m + k + 1)) ≤
      work (trace (step zip root) s steps (m + k)) ∧
      ((∃ e f, (trace (step zip root) s steps (m + k)).Calls (steps (m + k)) e f) →
        work (trace (step zip root) s steps (m + k + 1)) <
          work (trace (step zip root) s steps (m + k))) :=
    fun k => work_step (hown (m + k)) (hm (m + k) (Nat.le_add_right m k))
  obtain ⟨n, hn⟩ := eventually_not_of_measure
    (C := fun k => ∃ e f, (trace (step zip root) s steps (m + k)).Calls (steps (m + k)) e f)
    (fun k => work (trace (step zip root) s steps (m + k)))
    (fun k => (hwork k).1) (fun k => (hwork k).2)
  have hcalls : ∀ k, m + n ≤ k → ∀ e f, ¬ (trace (step zip root) s steps k).Calls (steps k) e f := by
    intro k hk e f hcalls
    obtain ⟨j, rfl⟩ := Nat.exists_eq_add_of_le ((Nat.le_add_right m n).trans hk)
    exact hn j (Nat.add_le_add_iff_left.mp hk) ⟨e, f, hcalls⟩
  refine ⟨m + n, fun k hk => ⟨hcalls k hk, ?_⟩⟩
  induction k, hk using Nat.le_induction with
  | base => rfl
  | succ k hk ih =>
    obtain ⟨e, f, rest, hcalls', -⟩ | ⟨-, htree, -⟩ := ownStep_cases
      (s := trace (step zip root) s steps k) zip root (hown k)
    · exact absurd hcalls' (hcalls k hk e f)
    · exact htree.trans ih

/-! ### Coming to rest -/

/-- Deliveries, one after another, of the event that has waited longest. -/
def deliveries (faults : ℕ → NormalizeFaults) (k : ℕ) : LibraryStep := .deliver 0 (faults k)

theorem deliveries_free (faults : ℕ → NormalizeFaults)
    (hfree : ∀ changed, s.rescan ≠ .scanning changed) (k : ℕ) :
    ∀ changed, (trace (step zip root) s (deliveries faults) k).rescan ≠ .scanning changed := by
  induction k with
  | zero => exact hfree
  | succ k ih =>
    intro changed
    change (step zip root _ (.deliver 0 (faults k))).rescan ≠ _
    dsimp only [step]
    split
    · rename_i scanned hscanning
      exact absurd hscanning (ih scanned)
    · exact ih changed
    · exact onFsEvent_not_scanning _ _ (ih changed)

/-- When all events are delivered and only so many callbacks balk, the debounce and the rescan
bring the library to rest, up to date. -/
theorem reaches_fresh (h : Inv root s) (hfree : ∀ changed, s.rescan ≠ .scanning changed)
    (faults : ℕ → NormalizeFaults) (hfew : StopsBalking zip root s (deliveries faults)) :
    ∃ n, (run (step zip root) (trace (step zip root) s (deliveries faults) n)
        [.expire, .scanned []]).Quiet ∧
      (run (step zip root) (trace (step zip root) s (deliveries faults) n)
        [.expire, .scanned []]).Fresh root := by
  have hown : ∀ k, OwnStep (deliveries faults k) := fun _ => trivial
  have hok : ∀ k, Undisturbed (deliveries faults k) := fun _ => trivial
  obtain ⟨n, hn⟩ := hfew.settles hown
  have hinv : Inv root (trace (step zip root) s (deliveries faults) n) :=
    trace_invariant (fun (s : Library) x (h : Inv root s) (hok : Undisturbed x) =>
      inv_step zip h hok) h hok n
  have hcalls := (hn n le_rfl).1
  have hrescan : ∀ changed,
      (trace (step zip root) s (deliveries faults) n).rescan ≠ .scanning changed :=
    deliveries_free faults hfree n
  refine ⟨n, ?_⟩
  generalize trace (step zip root) s (deliveries faults) n = last at hinv hcalls hrescan
  -- an undelivered event would be delivered next
  have hnone : last.undelivered = [] := by
    rcases hevents : last.undelivered with _ | ⟨e, rest⟩
    · rfl
    · exact absurd ⟨0, rfl, by rw [hevents]; rfl, hrescan⟩ (hcalls e (faults n))
  have hlast : Inv root (run (step zip root) last [.expire, .scanned []]) :=
    inv_step zip (x := .scanned []) (inv_step zip (x := .expire) hinv trivial) trivial
  have hquiet : (run (step zip root) last [.expire, .scanned []]).Quiet := by
    rw [run_cons, run_cons, run_nil]
    cases hsleep : last.rescan with
    | none =>
      have hexpire : last.step zip root .expire = last := by
        dsimp only [step]
        rw [hsleep]
      have hscanned : last.step zip root (.scanned []) = last := by
        dsimp only [step]
        rw [hsleep]
      rw [hexpire, hscanned]
      exact ⟨hnone, hsleep⟩
    | sleeping =>
      have hexpire : last.step zip root .expire = { last with rescan := .scanning false } := by
        dsimp only [step]
        rw [hsleep]
        dsimp only
        rw [if_neg (by rw [hinv.running]; exact Bool.false_ne_true)]
      rw [hexpire]
      exact ⟨(finishRescan_undelivered _).trans hnone, finishRescan_rescan _⟩
    | scanning changed => exact absurd hsleep (hrescan changed)
  exact ⟨hquiet, hlast.fresh hquiet, hlast.heard⟩

end Library

/-! ### Archives that stay for ever -/

/-- The file is an archive that no callback replaces, whatever OSErrors it meets or does not
meet: there is no image in it, or the next free name is too long. -/
def Hopeless (zip : ZipFile) (d : Folder) (name : Text) : Prop :=
  d.isFile name ∧ lower (suffix name) = ".imz".toList ∧
    (innerImage zip ((d.read name).getD []) = none ∨ ¬ FitsName (nextAvailable d (asImg name)))

instance (zip : ZipFile) (d : Folder) (name : Text) : Decidable (Hopeless zip d name) :=
  inferInstanceAs (Decidable (_ ∧ _))

theorem hopeless_congr {d d' : Folder} {name : Text} (hentries : d'.entries = d.entries)
    (hdata : d'.data = d.data) : Hopeless zip d' name ↔ Hopeless zip d name := by
  obtain ⟨entries, data, inodes, allocated⟩ := d
  obtain ⟨entries', data', inodes', allocated'⟩ := d'
  subst hentries hdata
  exact Iff.rfl

theorem Hopeless.mem_ownEvents {d : Folder} {e : FsEvent} {f : NormalizeFaults}
    (h : Hopeless zip d e.name) (hopens : f.barred = false) : e ∈ ownEvents f zip d e := by
  have hnot : lower (suffix e.name) ≠ ".ima".toList := by
    rw [h.2.1]
    decide
  have himage : isImageFile e.name := by
    unfold isImageFile
    rw [h.2.1]
    decide
  have htouched : e.name ∈ touched f zip d e.name := by
    rw [touched, if_neg hnot, if_pos h.2.1]
    exact (extractTouched_spec f zip d e.name).2 hopens
  rw [ownEvents, if_pos ⟨h.1, himage⟩]
  exact List.mem_map.mpr ⟨e.name, htouched, rfl⟩

theorem Hopeless.keeps {d : Folder} {name : Text} (f : NormalizeFaults) (h : Hopeless zip d name) :
    Hopeless zip (onFsEvent f zip d name) name := by
  obtain ⟨hfile, himz, hnone | hlong⟩ := h
  · obtain ⟨i, hi⟩ := Folder.isFile_iff.mp hfile
    rw [onFsEvent_of_imz hfile himz]
    obtain hsame | hcreate := extractImz_of_no_image (f := f) fun hboth => hboth.1 hnone
    · rw [hsame]
      exact ⟨hfile, himz, Or.inl hnone⟩
    · -- there is an empty image beside it now
      have hlookup : (d.create (nextAvailable d (asImg name))).entries.lookup name =
          some (.file i) := (Folder.create_lookup_of_ne (nextAvailable_ne hi _).symm).trans hi
      have hread : (d.create (nextAvailable d (asImg name))).read name = d.read name := by
        rw [Folder.read_eq_some.mpr ⟨i, hlookup, Folder.create_data_of_lt (d.allocated _ _ hi)⟩,
          Folder.read_eq_some.mpr ⟨i, hi, rfl⟩]
      rw [hcreate]
      refine ⟨Folder.isFile_iff.mpr ⟨i, hlookup⟩, himz, Or.inl ?_⟩
      rw [hread]
      exact hnone
  · rw [onFsEvent_of_imz hfile himz, extractImz_of_long hlong]
    exact ⟨hfile, himz, Or.inr hlong⟩

namespace Library

/-- The event loop is free, and an event for a hopeless archive is to be delivered. -/
structure Looping (zip : ZipFile) (e : FsEvent) (s : Library) : Prop where
  free : ∀ changed, s.rescan ≠ .scanning changed
  mem : e ∈ s.undelivered
  hopeless : Hopeless zip (s.tree.folder e.dir) e.name

theorem Looping.step (root : Path) {f : NormalizeFaults} (hopens : f.barred = false) {e : FsEvent}
    (h : Looping zip e s) :
    ∃ x, (OwnStep x ∧ s.Calls x e f) ∧ Looping zip e (s.step zip root x) := by
  obtain ⟨i, hi⟩ := List.mem_iff_getElem?.mp h.mem
  have hstep : s.step zip root (.deliver i f) =
      { s with undelivered := s.undelivered.eraseIdx i }.onFsEvent zip f e := by
    dsimp only [Library.step]
    split
    · rename_i changed hscanning
      exact absurd hscanning (h.free changed)
    · rename_i hnone _
      cases hnone.symm.trans hi
    · rename_i e' he' _
      cases he'.symm.trans hi
      rfl
  refine ⟨.deliver i f, ⟨trivial, i, rfl, hi, h.free⟩, ?_⟩
  rw [hstep]
  refine ⟨fun changed => onFsEvent_not_scanning f e (h.free changed), ?_, ?_⟩
  · rw [onFsEvent_eq]
    exact List.mem_append_right _ (h.hopeless.mem_ownEvents hopens)
  · rw [onFsEvent_eq]
    exact (hopeless_congr (Tree.setFolder_folder_self (dir_of_isFile h.hopeless.1)) rfl).mpr
      (h.hopeless.keeps f)

/-- An event for a hopeless archive can keep the library busy for ever, with OSErrors or
without, as long as the archive can be opened. -/
theorem Looping.not_settles (root : Path) {f : NormalizeFaults} (hopens : f.barred = false)
    {e : FsEvent} (h : Looping zip e s) :
    ∃ steps : ℕ → LibraryStep, (∀ k, OwnStep (steps k)) ∧ ¬ Settles zip root s steps := by
  obtain ⟨steps, hsteps⟩ := exists_trace (fun _ h => Looping.step root hopens h) h
  refine ⟨steps, fun k => (hsteps k).1, ?_⟩
  rintro ⟨n, hn⟩
  exact (hn n le_rfl).1 e f (hsteps n).2

end Library

/-- Once nobody else changes the tree, a run of the library settles exactly when, from some point
on, no callback is for an archive that it does not replace by its image. -/
theorem library_settles_iff (zip : ZipFile) (root : Path) (s : Library)
    (steps : ℕ → { x // Library.OwnStep x }) :
    s.Settles zip root (fun k => (steps k).1) ↔ s.StopsBalking zip root fun k => (steps k).1 :=
  ⟨Library.Settles.stopsBalking, Library.StopsBalking.settles fun k => (steps k).2⟩

/-- A corrupted archive has come into the set folder. -/
def archiveTree : Tree :=
  emptyTree.setFolder gamesDir ((emptyTree.folder gamesDir).create "a.imz".toList)

/-- Of 251 letters, so that no number fits behind it. -/
def longStem : Text := List.replicate 251 'a'

/-- An archive has come into the set folder where an image has its name. -/
def longTree : Tree :=
  emptyTree.setFolder gamesDir (((emptyTree.folder gamesDir).create
    (longStem ++ ".img".toList)).create (longStem ++ ".imz".toList))

/-- Both are opened again and again. -/
theorem corrupted_archive_loops :
    (∃ steps : ℕ → LibraryStep, (∀ k, Library.OwnStep (steps k)) ∧
      ¬ (run (Library.step noZip floppyRoot) (.start floppyRoot emptyTree)
        [.change archiveTree ⟨gamesDir, "a.imz".toList⟩ []]).Settles noZip floppyRoot steps) ∧
    ∃ steps : ℕ → LibraryStep, (∀ k, Library.OwnStep (steps k)) ∧
      ¬ (run (Library.step emptyImageZip floppyRoot) (.start floppyRoot emptyTree)
        [.change longTree ⟨gamesDir, longStem ++ ".imz".toList⟩ []]).Settles emptyImageZip floppyRoot
          steps := by
  constructor
  · have hhopeless : Hopeless noZip (archiveTree.folder gamesDir) "a.imz".toList :=
      ⟨by decide, by decide, Or.inl rfl⟩
    have hlooping : Library.Looping noZip ⟨gamesDir, "a.imz".toList⟩
        (run (Library.step noZip floppyRoot) (.start floppyRoot emptyTree)
          [.change archiveTree ⟨gamesDir, "a.imz".toList⟩ []]) :=
      ⟨nofun, List.mem_cons_self, hhopeless⟩
    exact hlooping.not_settles floppyRoot (f := .none) rfl
  · have hhopeless : Hopeless emptyImageZip (longTree.folder gamesDir)
        (longStem ++ ".imz".toList) := by
      refine ⟨by decide +kernel, by decide +kernel, Or.inr (by decide +kernel)⟩
    have hlooping : Library.Looping emptyImageZip ⟨gamesDir, longStem ++ ".imz".toList⟩
        (run (Library.step emptyImageZip floppyRoot) (.start floppyRoot emptyTree)
          [.change longTree ⟨gamesDir, longStem ++ ".imz".toList⟩ []]) :=
      ⟨nofun, List.mem_cons_self, hhopeless⟩
    exact hlooping.not_settles floppyRoot (f := .none) rfl

end UsbFloppy.Storage

import UsbFloppy.Lib.Run
import UsbFloppy.Core.Config
import UsbFloppy.Gadget.Outcome

/-! The wrappers that build_runtime puts around mount and eject of the controller: after a
call that succeeds they persist what is mounted. Control is given up only in the sleep of a
mount. -/

namespace UsbFloppy.Core
open Json Files Kernel Gadget Transition

/-- What a mounted image is remembered by; a session mount is not. -/
def lastMountedOf : Option MountedImage → Option (Str × Str)
  | some m => if m.isSession then none else some (m.setName, m.diskFilename)
  | none => none

/-- `asleep` are the mounts in their sleep. -/
structure Runtime where
  world : World
  cfg : Config
  file : Option Str
  asleep : List (MountCall × Image)

/-- The error of every call is an input, and whether its save fails. -/
inductive RuntimeStep
  | mount (c : MountCall) (a : MountFaults) (saveFails : Bool)
  | resume (i : ℕ) (e : WriteFaults) (saveFails : Bool)
  /-- a sleeping mount is cancelled -/
  | cancel (i : ℕ)
  | eject (fault : Option Errno) (saveFails : Bool)
  /-- whatever the host and others do to the files and the LUN -/
  | outside (fs : Fs) (lun : FsgLun)

def RuntimeStep.saveFails : RuntimeStep → Bool
  | .mount _ _ saveFails => saveFails
  | .resume _ _ saveFails => saveFails
  | .eject _ saveFails => saveFails
  | _ => false

namespace Runtime

variable (g : GadgetController) (s : Runtime)

/-- `_persist_last_mounted`. A save that fails leaves the file as it is. -/
def persistLastMounted (saveFails : Bool) : Runtime :=
  let cfg := (Change.lastMounted (lastMountedOf s.world.current)).apply s.cfg
  { s with
    cfg := cfg
    file := if saveFails then s.file else some cfg.payload }

/-- `_mount` from where the wrapped mount gives back control. -/
def proceed (c : MountCall) (saveFails : Bool) : World × Progress → Runtime
  | (w, .raised _) => { s with world := w }
  | (w, .returned _) => { s with world := w }.persistLastMounted saveFails
  | (w, .sleeping backing) => { s with world := w, asleep := s.asleep ++ [(c, backing)] }

/-- `_eject`. -/
def eject (fault : Option Errno) (saveFails : Bool) : Runtime :=
  match g.eject s.world fault with
  | (w, false) => { s with world := w }
  | (w, true) => { s with world := w }.persistLastMounted saveFails

def step (s : Runtime) : RuntimeStep → Runtime
  | .mount c a saveFails => s.proceed c saveFails (g.mountStart s.world c a)
  | .resume i e saveFails =>
    match s.asleep[i]? with
    | none => s
    | some (c, backing) =>
      { s with asleep := s.asleep.eraseIdx i }.proceed c saveFails
        (g.mountFinish s.world c backing e)
  | .cancel i => { s with asleep := s.asleep.eraseIdx i }
  | .eject fault saveFails => s.eject g fault saveFails
  | .outside fs lun => { s with world := ⟨fs, lun, s.world.current⟩ }

/-- In this step a call of the controller returns. -/
def Returns : RuntimeStep → Bool
  | .mount c a _ => (g.mountStart s.world c a).2.hasReturned
  | .resume i e _ =>
    s.asleep[i]?.any fun x => (g.mountFinish s.world x.1 x.2 e).2.hasReturned
  | .eject fault _ => (g.eject s.world fault).2
  | _ => false

/-- As `build_runtime` leaves it. -/
def start (w : World) (text : Option Str) : Runtime := ⟨w, loadConfig text, text, []⟩

/-- Whether the save after the latest call that returned went through, from what the calls
did and not from what the wrappers made of it. -/
def noteSave (latest : Option Bool) (s : Runtime) (x : RuntimeStep) : Option Bool :=
  if s.Returns g x then some !x.saveFails else latest

/-- The Config follows the controller from the first call that returned on, and the file
the Config. -/
def Follows (p : Runtime × Option Bool) : Prop :=
  ∀ saved, p.2 = some saved →
    p.1.cfg.lastMounted = lastMountedValue (lastMountedOf p.1.world.current) ∧
      (saved = true → (loadConfig p.1.file).lastMounted = p.1.cfg.lastMounted)

end Runtime

/-! ### One step -/

section

variable {g : GadgetController} {w : World} {c : MountCall} {backing : Image}

theorem mountFinish_current {e : WriteFaults}
    (h : (g.mountFinish w c backing e).2.hasReturned = false) :
    (g.mountFinish w c backing e).1.current = w.current := by
  have hout := mountFinish_outcome g w c backing e
  generalize g.mountFinish w c backing e = r at hout h ⊢
  cases hout with
  | refused why => rfl
  | dropped lun accepted unlocked why closed device => rfl
  | done f faults unlocked opens => cases h

theorem mountStart_current {a : MountFaults}
    (h : (g.mountStart w c a).2.hasReturned = false) :
    (g.mountStart w c a).1.current = w.current := by
  have hout := mountStart_outcome g w c a
  generalize g.mountStart w c a = r at hout h ⊢
  cases hout with
  | unprepared fs err prep => rfl
  | refused fs backing prep mounted why => rfl
  | sleeping fs backing prep mounted accepted unlocked => rfl
  | finished fs backing r prep empty finish =>
    cases finish with
    | refused why => rfl
    | dropped lun accepted unlocked why closed device => rfl
    | done f faults unlocked opens => cases h

theorem eject_current {fault : Option Errno} (h : (g.eject w fault).2 = false) :
    (g.eject w fault).1.current = w.current := by
  have hout := eject_outcome g w fault
  generalize g.eject w fault = r at hout h ⊢
  cases hout with
  | refused why => rfl
  | done fault_eq unlocked => cases h

end

namespace Runtime

/-- What a call that does not return leaves as it was. -/
structure Kept (s t : Runtime) : Prop where
  cfg : t.cfg = s.cfg
  current : t.world.current = s.world.current
  file : t.file = s.file

/-- The state is that of a call that has just returned. -/
def Persisted (s t : Runtime) (saveFails : Bool) : Prop :=
  ∃ w asleep, t = { s with world := w, asleep := asleep }.persistLastMounted saveFails

variable {g : GadgetController} {s : Runtime}

theorem proceed_cases (asleep : List (MountCall × Image)) (c : MountCall) (saveFails : Bool)
    {r : World × Progress} (hcurrent : r.2.hasReturned = false → r.1.current = s.world.current) :
    r.2.hasReturned = true ∧
        s.Persisted ({ s with asleep := asleep }.proceed c saveFails r) saveFails ∨
      r.2.hasReturned = false ∧ s.Kept ({ s with asleep := asleep }.proceed c saveFails r) := by
  obtain ⟨w, e | backing | image⟩ := r
  · exact Or.inr ⟨rfl, rfl, hcurrent rfl, rfl⟩
  · exact Or.inr ⟨rfl, rfl, hcurrent rfl, rfl⟩
  · exact Or.inl ⟨rfl, w, asleep, rfl⟩

theorem step_cases (x : RuntimeStep) :
    s.Returns g x = true ∧ s.Persisted (s.step g x) x.saveFails ∨
      s.Returns g x = false ∧ s.Kept (s.step g x) := by
  cases x with
  | mount c a saveFails => exact proceed_cases s.asleep c saveFails mountStart_current
  | resume i e saveFails =>
    dsimp only [step, Returns]
    cases s.asleep[i]? with
    | none => exact Or.inr ⟨rfl, rfl, rfl, rfl⟩
    | some x => exact proceed_cases (s.asleep.eraseIdx i) x.1 saveFails mountFinish_current
  | cancel i => exact Or.inr ⟨rfl, rfl, rfl, rfl⟩
  | eject fault saveFails =>
    dsimp only [step, Returns, Runtime.eject]
    have hcurrent : (g.eject s.world fault).2 = false →
        (g.eject s.world fault).1.current = s.world.current := eject_current
    generalize g.eject s.world fault = r at hcurrent ⊢
    obtain ⟨w, returned⟩ := r
    cases returned with
    | false => exact Or.inr ⟨rfl, rfl, hcurrent rfl, rfl⟩
    | true => exact Or.inl ⟨rfl, w, s.asleep, rfl⟩
  | outside fs lun => exact Or.inr ⟨rfl, rfl, rfl, rfl⟩

/-! ### Whole runs -/

structure Inv (p : Runtime × Option Bool) : Prop where
  ok : p.1.cfg.Ok
  follows : Follows p

theorem Kept.inv {t : Runtime} {latest : Option Bool} (h : s.Kept t) (hinv : Inv (s, latest)) :
    Inv (t, latest) := by
  refine ⟨h.cfg ▸ hinv.ok, fun saved hsaved => ?_⟩
  have hfollows := hinv.follows saved hsaved
  dsimp only at hfollows ⊢
  rwa [h.cfg, h.current, h.file]

theorem Persisted.inv {t : Runtime} {saveFails : Bool} (h : s.Persisted t saveFails)
    (hok : s.cfg.Ok) : Inv (t, some !saveFails) := by
  obtain ⟨w, asleep, rfl⟩ := h
  have hok' := Change.apply_ok hok (.lastMounted (lastMountedOf w.current))
  refine ⟨hok', fun saved hsaved => ⟨rfl, fun hgood => ?_⟩⟩
  cases saveFails with
  | true =>
    cases hsaved
    cases hgood
  | false => exact congrArg Config.lastMounted (loadConfig_payload hok')

theorem inv_step (p : Runtime × Option Bool) (x : RuntimeStep) (h : Inv p) :
    Inv (watched (step g) (noteSave g) p x) := by
  unfold watched noteSave
  obtain ⟨hreturns, hpersisted⟩ | ⟨hraises, hkept⟩ := step_cases (g := g) (s := p.1) x
  · rw [if_pos hreturns]
    exact hpersisted.inv h.ok
  · rw [if_neg (by simp [hraises])]
    exact hkept.inv h

theorem start_inv (w : World) (text : Option Str) : Inv (start w text, none) where
  ok := loadConfig_ok text
  follows _ h := by cases h

end Runtime

/-- From the first call that succeeds on, the Config remembers what is mounted at every
scheduling point, the file does if the latest save succeeded, and a call that raises changes
neither the Config nor the controller. -/
theorem last_mounted_follows (g : GadgetController) (w : World) (text : Option Str)
    (steps : List RuntimeStep) :
    Throughout (watched (Runtime.step g) (Runtime.noteSave g)) Runtime.Follows
        (.start w text, none) steps ∧
      ∀ (s : Runtime) (x : RuntimeStep), s.Returns g x = false →
        (s.step g x).cfg = s.cfg ∧ (s.step g x).world.current = s.world.current := by
  have hinv : Throughout (watched (Runtime.step g) (Runtime.noteSave g)) Runtime.Inv
      (.start w text, none) steps :=
    throughout_invariant (fun p x h _ => Runtime.inv_step p x h) (Runtime.start_inv w text)
      (guarded_of_forall (fun _ _ => trivial) _ steps)
  refine ⟨hinv.mono fun s h => h.follows, fun s x hx => ?_⟩
  obtain ⟨hreturns, -⟩ | ⟨-, hkept⟩ := Runtime.step_cases (g := g) (s := s) x
  · cases hreturns.symm.trans hx
  · exact ⟨hkept.cfg, hkept.current⟩

/-- A session copy is swapped for the disk itself; an eject is refused while the swap sleeps. -/
theorem last_mounted_follows_example :
    let s := run (Runtime.step sampleController) (.start emptyDrive none)
      [.mount ⟨sampleSet, sampleDisk, true⟩ .none false,
        .mount ⟨sampleSet, sampleDisk, false⟩ .none false, .eject (some Errno.EIO) false,
        .resume 0 .none false]
    (loadConfig s.file).lastMounted =
      lastMountedValue (some ("games".toList, "Disk1.IMG".toList)) := by
  intro s
  let steps : List RuntimeStep := [.mount ⟨sampleSet, sampleDisk, true⟩ .none false,
    .mount ⟨sampleSet, sampleDisk, false⟩ .none false, .eject (some Errno.EIO) false,
    .resume 0 .none false]
  have hfollows := (last_mounted_follows sampleController emptyDrive none steps).1 steps
    (List.prefix_refl steps)
  obtain ⟨hcfg, hfile⟩ := hfollows true rfl
  rw [run_watched_fst] at hcfg hfile
  exact (hfile rfl).trans hcfg

end UsbFloppy.Core

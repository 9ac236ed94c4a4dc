import UsbFloppy.Gadget.Controller

/-! What can come of an eject and of the two halves of a mount, whatever errors the writes
meet. -/

namespace UsbFloppy.Gadget
open Files Kernel

variable (g : GadgetController) (w : World) (c : MountCall)

inductive EjectOutcome (fault : Option Errno) : World × Bool → Prop
  | refused (why : fault ≠ none ∨ locked w.lun) :
      EjectOutcome fault (⟨g.backend.updateCurrentSymlink w.fs none, w.lun, w.current⟩, false)
  | done (fault_eq : fault = none) (unlocked : ¬ locked w.lun) :
      EjectOutcome fault
        (⟨g.cleanupSession (g.backend.updateCurrentSymlink w.fs none), detachedLun w.lun, none⟩, true)

/-- The half of a mount that attaches its backing file. -/
inductive FinishOutcome (backing : Image) (e : WriteFaults) : World × Progress → Prop
  | refused (why : e.detach ≠ none ∨ locked w.lun) :
      FinishOutcome backing e
        (⟨g.backend.updateCurrentSymlink w.fs (some backing), w.lun, w.current⟩, .raised .os)
  | dropped (lun : FsgLun) (accepted : e.detach = none) (unlocked : ¬ locked w.lun)
      (why : e.ro ≠ none ∨ e.attach ≠ none ∨
        ∀ f, ¬ Opens (g.backend.updateCurrentSymlink w.fs (some backing)) w.lun backing f)
      (closed : lun.isOpen = false) (device : SameDevice w.lun lun) :
      FinishOutcome backing e
        (⟨g.backend.updateCurrentSymlink w.fs (some backing), lun, w.current⟩, .raised .os)
  | done (f : File) (faults : e = .none) (unlocked : ¬ locked w.lun)
      (opens : Opens (g.backend.updateCurrentSymlink w.fs (some backing)) w.lun backing f) :
      FinishOutcome backing e
        (⟨g.backend.updateCurrentSymlink w.fs (some backing), attachedLun w.lun backing f c.readOnly,
          some (c.mounted backing)⟩, .returned (c.mounted backing))

/-- The half of a mount that prepares its backing file and detaches what is mounted. -/
inductive StartOutcome (a : MountFaults) : World × Progress → Prop
  | unprepared (fs : Fs) (err : MountError) (prep : g.prepare w.fs c a.prep = (fs, .error err)) :
      StartOutcome a (⟨fs, w.lun, w.current⟩, .raised err)
  | refused (fs : Fs) (backing : Image) (prep : g.prepare w.fs c a.prep = (fs, .ok backing))
      (mounted : w.current ≠ none) (why : a.first ≠ none ∨ locked w.lun) :
      StartOutcome a (⟨g.backend.updateCurrentSymlink fs none, w.lun, w.current⟩, .raised .os)
  | sleeping (fs : Fs) (backing : Image) (prep : g.prepare w.fs c a.prep = (fs, .ok backing))
      (mounted : w.current ≠ none) (accepted : a.first = none) (unlocked : ¬ locked w.lun) :
      StartOutcome a
        (⟨g.backend.updateCurrentSymlink fs none, detachedLun w.lun, w.current⟩, .sleeping backing)
  | finished (fs : Fs) (backing : Image) (r : World × Progress)
      (prep : g.prepare w.fs c a.prep = (fs, .ok backing)) (empty : w.current = none)
      (finish : FinishOutcome g { w with fs := fs } c backing a.second r) : StartOutcome a r

theorem eject_outcome (fault : Option Errno) : EjectOutcome g w fault (g.eject w fault) := by
  have hdet := configureLun_detach (filpOpen (g.backend.updateCurrentSymlink w.fs none)) w.lun
    false ⟨fault, none, none⟩
  simp only [GadgetController.eject, GadgetController.configureLun, SysfsBackend.configureLun,
    Option.map_none]
  generalize Gadget.configureLun _ _ _ _ _ = written at hdet ⊢
  cases hdet with
  | refused err why => exact .refused why
  | done fault_eq unlocked => exact .done fault_eq unlocked

theorem mountFinish_outcome (backing : Image) (e : WriteFaults) :
    FinishOutcome g w c backing e (g.mountFinish w c backing e) := by
  have hatt := configureLun_attach (g.backend.updateCurrentSymlink w.fs (some backing)) w.lun
    backing c.readOnly e
  simp only [GadgetController.mountFinish, GadgetController.configureLun,
    SysfsBackend.configureLun, Option.map_some]
  generalize Gadget.configureLun _ _ _ _ _ = written at hatt ⊢
  cases hatt with
  | refused err why => exact .refused why
  | dropped lun err accepted unlocked why closed device =>
    exact .dropped lun accepted unlocked why closed device
  | done f faults unlocked opens => exact .done f faults unlocked opens

theorem mountStart_outcome (a : MountFaults) : StartOutcome g w c a (g.mountStart w c a) := by
  rcases hprep : g.prepare w.fs c a.prep with ⟨fs, err | backing⟩
  · simp only [GadgetController.mountStart, hprep]
    exact .unprepared fs err hprep
  by_cases hcurrent : w.current = none
  · have hstart : g.mountStart w c a = g.mountFinish { w with fs := fs } c backing a.second := by
      simp only [GadgetController.mountStart, hprep, hcurrent, ne_eq, not_true_eq_false, if_false]
    rw [hstart]
    exact .finished fs backing _ hprep hcurrent (mountFinish_outcome g _ c backing a.second)
  · have hdet := configureLun_detach (filpOpen (g.backend.updateCurrentSymlink fs none)) w.lun
      false ⟨a.first, none, none⟩
    simp only [GadgetController.mountStart, hprep, ne_eq, hcurrent, not_false_eq_true, if_true,
      GadgetController.configureLun, SysfsBackend.configureLun, Option.map_none]
    generalize Gadget.configureLun _ _ _ _ _ = written at hdet ⊢
    cases hdet with
    | refused err why => exact .refused fs backing hprep hcurrent why
    | done fault_eq unlocked => exact .sleeping fs backing hprep hcurrent fault_eq unlocked

variable {g w c}

theorem FinishOutcome.fs_eq {backing : Image} {e : WriteFaults} {r : World × Progress}
    (h : FinishOutcome g w c backing e r) :
    r.1.fs = g.backend.updateCurrentSymlink w.fs (some backing) := by
  cases h <;> rfl

/-- What can come of a mount that nothing interrupts. -/
inductive MountOutcome (g : GadgetController) (w : World) (c : MountCall) (a : MountFaults) :
    World × Progress → Prop
  | unprepared (fs : Fs) (err : MountError) (prep : g.prepare w.fs c a.prep = (fs, .error err)) :
      MountOutcome g w c a (⟨fs, w.lun, w.current⟩, .raised err)
  | refused (fs : Fs) (backing : Image) (prep : g.prepare w.fs c a.prep = (fs, .ok backing))
      (mounted : w.current ≠ none) (why : a.first ≠ none ∨ locked w.lun) :
      MountOutcome g w c a (⟨g.backend.updateCurrentSymlink fs none, w.lun, w.current⟩, .raised .os)
  | swapped (fs : Fs) (backing : Image) (r : World × Progress)
      (prep : g.prepare w.fs c a.prep = (fs, .ok backing)) (mounted : w.current ≠ none)
      (accepted : a.first = none) (unlocked : ¬ locked w.lun)
      (finish : FinishOutcome g
        ⟨g.backend.updateCurrentSymlink fs none, detachedLun w.lun, w.current⟩ c backing a.second r) :
      MountOutcome g w c a r
  | loaded (fs : Fs) (backing : Image) (r : World × Progress)
      (prep : g.prepare w.fs c a.prep = (fs, .ok backing)) (empty : w.current = none)
      (finish : FinishOutcome g { w with fs := fs } c backing a.second r) : MountOutcome g w c a r

theorem mount_outcome (g : GadgetController) (w : World) (c : MountCall) (a : MountFaults) :
    MountOutcome g w c a (g.mount w c a) := by
  have hstart := mountStart_outcome g w c a
  unfold GadgetController.mount
  generalize g.mountStart w c a = r at hstart ⊢
  cases hstart with
  | unprepared fs err prep => exact .unprepared fs err prep
  | refused fs backing prep mounted why => exact .refused fs backing prep mounted why
  | sleeping fs backing prep mounted accepted unlocked =>
    exact .swapped fs backing _ prep mounted accepted unlocked (mountFinish_outcome g _ c backing _)
  | finished fs backing r prep empty finish =>
    cases finish with
    | refused why => exact .loaded fs backing _ prep empty (.refused why)
    | dropped lun accepted unlocked why closed device =>
      exact .loaded fs backing _ prep empty (.dropped lun accepted unlocked why closed device)
    | done f faults unlocked opens =>
      exact .loaded fs backing _ prep empty (.done f faults unlocked opens)

/-- The files the kernel sees when the backing file is attached. -/
def attachFs (g : GadgetController) (w : World) (fs : Fs) (backing : Image) : Fs :=
  let fs := if w.current = none then fs else g.backend.updateCurrentSymlink fs none
  g.backend.updateCurrentSymlink fs (some backing)

theorem mount_returned {a : MountFaults} {image : MountedImage}
    (h : (g.mount w c a).2 = .returned image) :
    ∃ fs backing, g.prepare w.fs c a.prep = (fs, .ok backing) ∧
      (g.mount w c a).1.fs = attachFs g w fs backing := by
  have hout := mount_outcome g w c a
  generalize g.mount w c a = r at hout h ⊢
  cases hout with
  | unprepared fs err prep => cases h
  | refused fs backing prep mounted why => cases h
  | swapped fs backing r prep mounted accepted unlocked finish =>
    exact ⟨fs, backing, prep, by rw [finish.fs_eq, attachFs, if_neg mounted]⟩
  | loaded fs backing r prep empty finish =>
    exact ⟨fs, backing, prep, by rw [finish.fs_eq, attachFs, if_pos empty]⟩

end UsbFloppy.Gadget

import UsbFloppy.Gadget.Held

/-! The controller's record of what is mounted against the file that the LUN has open, when any
write of a mount or an eject may fail. -/

namespace UsbFloppy.Gadget
open Files Kernel Transition

/-- The LUN is empty exactly when the controller has no image, and holds its image else. -/
structure Agrees (s : Appliance) : Prop where
  none_iff : s.current = none ↔ s.thread.lun.isOpen = false
  attached : ∀ m, s.current = some m → AttachedTo s.thread.lun m.backingPath m.readOnly
  holds : ∀ m, s.current = some m → s.Holds m.backingPath

inductive ControllerCall
  | mount (c : MountCall) (a : MountFaults)
  | eject (fault : Option Errno)
  deriving DecidableEq

/-- A call from its start to its end, the sleep of a swap included. -/
def ControllerCall.whole (current : Option MountedImage) : ControllerCall → List ApplianceEvent
  | .mount c a =>
    if current = none then .mount c a.prep :: callServices a.second
    else .mount c a.prep ::
      (callServices ⟨a.first, .none, .none⟩ ++ .resume 0 :: callServices a.second)
  | .eject fault => .eject :: callServices ⟨fault, .none, .none⟩

def controllerStep (g : GadgetController) (s : Appliance) (call : ControllerCall) : Appliance :=
  run (Appliance.step g) s (call.whole s.current)

/-- Once a mounted image was detached, the new one is attached without an error; and a
file that is to be writable can be opened for writing. -/
def SwapCompletes (g : GadgetController) (w : World) (c : MountCall) (a : MountFaults) : Prop :=
  ∀ fs backing, g.prepare w.fs c a.prep = (fs, .ok backing) →
    if w.current = none then a.second = .none →
      ∀ f, Opens (attachFs g w fs backing) w.lun backing f → c.readOnly = true ∨ f.writable = true
    else a.first = none → ¬ locked w.lun → a.second = .none ∧
      ∃ f, Opens (attachFs g w fs backing) w.lun backing f ∧ (c.readOnly = true ∨ f.writable = true)

/-- The preparation fails, or the mounted image is not given away. -/
def KeepsImage (g : GadgetController) (w : World) (c : MountCall) (a : MountFaults) : Prop :=
  (∃ fs err, g.prepare w.fs c a.prep = (fs, .error err)) ∨ a.first ≠ none ∨ locked w.lun

/-- Where the mounted image stays in the LUN, the mount does not clear the session directory
under it. -/
def SparesImage (g : GadgetController) (w : World) (c : MountCall) (a : MountFaults) : Prop :=
  KeepsImage g w c a → ClearsSession w.fs c → ∀ m, w.current = some m →
    StaysIn w.fs (OutsideSession g) (maxSymlinks + 1) m.backingPath.1

/-- What keeps the record true: every swap is completed or harmless. -/
def RecordStands (g : GadgetController) (s : Appliance) : ControllerCall → Prop
  | .mount c a => SwapCompletes g s.world c a ∧ SparesImage g s.world c a
  | .eject _ => True

theorem AttachedTo.isOpen {lun : FsgLun} {file : Image} {ro : Bool} (h : AttachedTo lun file ro) :
    lun.isOpen = true := by
  obtain ⟨k, hk, -⟩ := h.filp
  exact FsgLun.isOpen_iff.mpr ⟨k, hk⟩

variable {g : GadgetController} {s s' : Appliance} {w : World} {fs : Fs} {c : MountCall}
  {a : MountFaults} {file backing : Image}

theorem Agrees.of_closed (hcurrent : s.current = none) (hclosed : s.thread.lun.isOpen = false) :
    Agrees s where
  none_iff := iff_of_true hcurrent hclosed
  attached m hm := by
    rw [hcurrent] at hm
    cases hm
  holds m hm := by
    rw [hcurrent] at hm
    cases hm

theorem Agrees.of_attached {m : MountedImage} (hcurrent : s.current = some m)
    (h : AttachedTo s.thread.lun m.backingPath m.readOnly) (hholds : s.Holds m.backingPath) :
    Agrees s where
  none_iff := iff_of_false (by simp [hcurrent]) (by simp [h.isOpen])
  attached m' hm' := by
    rw [hcurrent] at hm'
    cases hm'
    exact h
  holds m' hm' := by
    rw [hcurrent] at hm'
    cases hm'
    exact hholds

/-- A call that leaves the record and the LUN as they were is judged by the files alone. -/
theorem Agrees.kept_iff (h : Agrees s) (hcurrent : s'.current = s.current)
    (hlun : s'.thread.lun = s.thread.lun) :
    Agrees s' ↔ ∀ m, s.current = some m → s'.Holds m.backingPath := by
  constructor
  · intro h' m hm
    exact h'.holds m (hcurrent.trans hm)
  · intro hholds
    refine ⟨?_, fun m hm => ?_, fun m hm => hholds m (hcurrent.symm.trans hm)⟩
    · rw [hcurrent, hlun]
      exact h.none_iff
    · rw [hlun]
      exact h.attached m (hcurrent.symm.trans hm)

/-! ### Calls, one service step after another -/

theorem store_refused (h : locked s.thread.lun) : s.store ⟨.lun0File, ['\n']⟩ = none := by
  simp only [Appliance.store, SysfsWrite.store, fsgStoreFile_newline, if_pos h]

theorem store_accepted (h : ¬ locked s.thread.lun) :
    s.store ⟨.lun0File, ['\n']⟩ = some
      { s with
        thread := { s.thread with lun := detachedLun s.thread.lun }
        opened := none } := by
  rcases hstore : s.store ⟨.lun0File, ['\n']⟩ with _ | s'
  · simp only [Appliance.store, SysfsWrite.store, fsgStoreFile_newline, if_neg h] at hstore
    cases hstore
  · rw [(store_detach hstore).2]

theorem store_opens {f : File} (hclosed : s.thread.lun.isOpen = false)
    (hopens : Opens s.fs s.thread.lun file f) :
    ∃ q f s', resolve s.fs file.1 = some (q, f) ∧ s.store ⟨.lun0File, file.1.asPosix⟩ = some s' ∧
      s'.fs = s.fs ∧ s'.opened = some (.linked q) := by
  rcases hstore : s.store ⟨.lun0File, file.1.asPosix⟩ with _ | s'
  · obtain ⟨f', -, hok⟩ | ⟨hnone, -⟩ := fsgStoreFile_filpOpen s.fs hclosed file
    · simp only [Appliance.store, SysfsWrite.store, hok] at hstore
      cases hstore
    · exact absurd hopens (hnone f)
  · obtain ⟨q, f', hres, -, rfl⟩ := store_attach hstore
    exact ⟨q, f', _, hres, rfl, rfl, rfl⟩

theorem service_performed {step : ServiceStep} {rest : List ServiceStep}
    (hrun : s.running = step :: rest) (h : step.perform g s = some s') :
    s.step g (.service none) = { s' with running := rest } := by
  rw [service_cons g hrun, h]

theorem service_refused {rest : List ServiceStep} (hrun : s.running = .detach :: rest)
    {fault : Option Errno} (why : fault ≠ none ∨ locked s.thread.lun) :
    s.step g (.service fault) = { s with running := [] } := by
  rw [service_cons g hrun]
  rcases fault with _ | e
  · have hnone : ServiceStep.detach.perform g s = none :=
      store_refused (why.resolve_left (not_not.mpr rfl))
    rw [hnone]
  · rfl

/-- What is left of a call that has ended finds nothing to do. -/
theorem idle_resume (hidle : s.running = []) (hawake : s.sleeping = []) (e : WriteFaults) :
    run (Appliance.step g) s (.resume 0 :: callServices e) = s := by
  have hresume : s.step g (.resume 0) = s := by
    rcases s.resume_cases 0 with ⟨-, h⟩ | ⟨x, hx, -⟩
    · exact (if_pos hidle).trans h
    · rw [hawake] at hx
      cases hx
  rw [run_cons, hresume, callServices, run_service_idle hidle]

/-- A backing file that the kernel can open is the one that the LUN has open afterwards. -/
theorem finish_holds (hrun : s.running = finishSteps c backing) (unlocked : ¬ locked s.thread.lun)
    {f : File} (hopens : Opens (g.backend.updateCurrentSymlink s.fs (some backing)) s.thread.lun
      backing f) :
    (run (Appliance.step g) s (callServices .none)).Holds backing ∧
      ClearOfLink g (run (Appliance.step g) s (callServices .none)).fs backing := by
  have hdev := sameDevice_detachedLun s.thread.lun
  have hclosed := isOpen_detachedLun s.thread.lun
  set lun := { detachedLun s.thread.lun with ro := c.readOnly, initiallyRo := c.readOnly }
  set s₁ : Appliance :=
    { s.relink g (some backing) with
      thread := { s.thread with lun }
      opened := none
      running := [.attach backing, .record (some (c.mounted backing))] }
  have hopens₁ : Opens s₁.fs s₁.thread.lun backing f :=
    (SameDevice.opens_iff ⟨hdev.cdrom, hdev.preventMediumRemoval⟩).mpr hopens
  obtain ⟨q, f', s₂, hres, hattach, hfs, hopened⟩ := store_opens (s := s₁) hclosed hopens₁
  -- the states after the link, the detach and the flag
  set linked : Appliance :=
    { s.relink g (some backing) with running := .detach :: .setRo c.readOnly :: s₁.running }
  set empty : Appliance :=
    { s₁ with
      thread := { s.thread with lun := detachedLun s.thread.lun }
      running := .setRo c.readOnly :: s₁.running }
  have hlink : s.step g (.service none) = linked := service_performed hrun rfl
  have hdetach : ServiceStep.detach.perform g linked =
      some { empty with running := linked.running } := store_accepted unlocked
  have hset : (ServiceStep.setRo c.readOnly).perform g empty =
      some { s₁ with running := empty.running } := by
    simp only [ServiceStep.perform, Appliance.store, SysfsWrite.store, empty,
      fsgStoreRo_of_closed hclosed, lun, s₁]
  have hperform : (ServiceStep.attach backing).perform g s₁ = some s₂ := hattach
  have hend : run (Appliance.step g) s (callServices .none) =
      { s₂ with current := some (c.mounted backing), running := [] } := by
    simp only [callServices, WriteFaults.none, List.map_cons, List.map_nil, run_cons, run_nil]
    rw [hlink, service_performed rfl hdetach]
    change ((empty.step g (.service none)).step g (.service none)).step g (.service none) = _
    rw [service_performed rfl hset]
    change (s₁.step g (.service none)).step g (.service none) = _
    rw [service_performed rfl hperform]
    rfl
  rw [hend]
  have hres₂ : resolve s₂.fs backing.1 = some (q, f') := by rw [hfs]; exact hres
  refine ⟨⟨q, f', hopened, hres₂⟩, ?_⟩
  change ClearOfLink g s₂.fs backing
  rw [hfs]
  exact clearOfLink_attached hres

/-! ### One call -/

/-- The controller and its LUN between two calls. -/
structure Steady (g : GadgetController) (s : Appliance) : Prop where
  agrees : Agrees s
  idle : s.running = []
  awake : s.sleeping = []
  clear : ∀ m, s.current = some m → ClearOfLink g s.fs m.backingPath

theorem idle_call (hidle : s.running = []) (e : WriteFaults) :
    run (Appliance.step g) s (callServices e) = s := run_service_idle hidle _

theorem mount_unprepared {err : MountError} (hidle : s.running = []) (hawake : s.sleeping = [])
    (hprep : g.prepare s.fs c a.prep = (fs, .error err)) :
    controllerStep g s (.mount c a) = s.mount g c a.prep := by
  have hmount : s.step g (.mount c a.prep) = s.mount g c a.prep := if_pos hidle
  have hidle' : (s.mount g c a.prep).running = [] := by simp only [Appliance.mount, hprep]
  have hawake' : (s.mount g c a.prep).sleeping = [] := hawake
  rw [controllerStep, ControllerCall.whole]
  split_ifs
  · rw [run_cons, hmount, idle_call hidle']
  · rw [run_cons, hmount, run_append, idle_call hidle', idle_resume hidle' hawake']

/-- The image that is mounted is not given away. -/
theorem detach_refused {rest : List ServiceStep} (hrun : s.running = .link none :: .detach :: rest)
    {fault : Option Errno} (why : fault ≠ none ∨ locked s.thread.lun)
    (faults : List (Option Errno)) :
    run (Appliance.step g) s ((none :: fault :: faults).map .service) =
      { s.relink g none with running := [] } := by
  have hlink : s.step g (.service none) = { s.relink g none with running := .detach :: rest } :=
    service_performed hrun rfl
  have hrefused : Appliance.step g { s.relink g none with running := .detach :: rest }
      (.service fault) = { s.relink g none with running := [] } := service_refused rfl why
  rw [List.map_cons, List.map_cons, run_cons, run_cons, hlink, hrefused, run_service_idle rfl]

theorem mount_refused (hidle : s.running = []) (hawake : s.sleeping = [])
    (hmounted : s.current ≠ none) (hprep : g.prepare s.fs c a.prep = (fs, .ok backing))
    (why : a.first ≠ none ∨ locked s.thread.lun) :
    controllerStep g s (.mount c a) =
      { (s.mount g c a.prep).relink g none with running := [] } := by
  have hmount : s.step g (.mount c a.prep) = s.mount g c a.prep := if_pos hidle
  have hrun : (s.mount g c a.prep).running = [.link none, .detach, .sleep ⟨c, backing⟩] := by
    simp only [Appliance.mount, hprep, mountSteps, if_neg hmounted, configureSteps]
    rfl
  have hfirst : run (Appliance.step g) (s.mount g c a.prep) (callServices ⟨a.first, .none, .none⟩) =
      { (s.mount g c a.prep).relink g none with running := [] } := detach_refused hrun why _
  rw [controllerStep, ControllerCall.whole, if_neg hmounted, run_cons, hmount, run_append, hfirst]
  exact idle_resume (s := { (s.mount g c a.prep).relink g none with running := [] }) rfl hawake
    a.second

/-- Where a mount stands when it comes to its second half. -/
structure Finishing (c : MountCall) (backing : Image) (w : World) (s : Appliance) : Prop where
  running : s.running = finishSteps c backing
  awake : s.sleeping = []
  world : s.world = w

theorem mount_loaded (hidle : s.running = []) (hawake : s.sleeping = [])
    (hempty : s.current = none) (hprep : g.prepare s.fs c a.prep = (fs, .ok backing)) :
    ∃ s₁, Finishing c backing ⟨fs, s.thread.lun, none⟩ s₁ ∧
      controllerStep g s (.mount c a) = run (Appliance.step g) s₁ (callServices a.second) := by
  have hmount : s.step g (.mount c a.prep) = s.mount g c a.prep := if_pos hidle
  refine ⟨s.mount g c a.prep, ⟨?_, hawake, ?_⟩, ?_⟩
  · simp only [Appliance.mount, hprep, mountSteps, if_pos hempty]
  · simp only [Appliance.mount, Appliance.world, hprep, hempty]
  · rw [controllerStep, ControllerCall.whole, if_pos hempty, run_cons, hmount]

theorem mount_swapped (hidle : s.running = []) (hawake : s.sleeping = [])
    (hmounted : s.current ≠ none) (hprep : g.prepare s.fs c a.prep = (fs, .ok backing))
    (accepted : a.first = none) (unlocked : ¬ locked s.thread.lun) :
    ∃ s₁, Finishing c backing
        ⟨g.backend.updateCurrentSymlink fs none, detachedLun s.thread.lun, s.current⟩ s₁ ∧
      controllerStep g s (.mount c a) = run (Appliance.step g) s₁ (callServices a.second) := by
  have hmount : s.step g (.mount c a.prep) = s.mount g c a.prep := if_pos hidle
  have hrun : (s.mount g c a.prep).running = [.link none, .detach, .sleep ⟨c, backing⟩] := by
    simp only [Appliance.mount, hprep, mountSteps, if_neg hmounted, configureSteps]
    rfl
  set linked : Appliance :=
    { (s.mount g c a.prep).relink g none with running := [.detach, .sleep ⟨c, backing⟩] }
  set empty : Appliance :=
    { linked with
      thread := { s.thread with lun := detachedLun s.thread.lun }
      opened := none
      running := [.sleep ⟨c, backing⟩] }
  have hdetach : ServiceStep.detach.perform g linked =
      some { empty with running := linked.running } := store_accepted unlocked
  have hsleep : (ServiceStep.sleep ⟨c, backing⟩).perform g empty =
      some { empty with sleeping := [⟨c, backing⟩] } := by
    simp only [ServiceStep.perform, empty, linked, Appliance.relink, Appliance.mount, hawake]
    rfl
  have hfirst : run (Appliance.step g) (s.mount g c a.prep) (callServices ⟨a.first, .none, .none⟩) =
      { empty with sleeping := [⟨c, backing⟩], running := [] } := by
    have hevents : callServices ⟨a.first, .none, .none⟩ =
        .service none :: .service none :: .service none :: [none, none].map .service := by
      rw [accepted]
      rfl
    rw [hevents, run_cons, service_performed hrun rfl, run_cons]
    change run _ ((linked.step g (.service none)).step g (.service none)) _ = _
    rw [service_performed rfl hdetach]
    change run _ (empty.step g (.service none)) _ = _
    rw [service_performed rfl hsleep, run_service_idle rfl]
  refine ⟨{ empty with running := finishSteps c backing, sleeping := [] }, ⟨rfl, rfl, ?_⟩, ?_⟩
  · simp only [Appliance.world, empty, linked, Appliance.relink, Appliance.mount, hprep]
  · rw [controllerStep, ControllerCall.whole, if_neg hmounted, run_cons, hmount, run_append, hfirst,
      run_cons]
    rfl

/-- What can come of the second half of a mount, on an empty LUN. -/
theorem Finishing.cases {s₁ : Appliance} {e : WriteFaults} (h : Finishing c backing w s₁)
    (hclosed : w.lun.isOpen = false) :
    let s' := run (Appliance.step g) s₁ (callServices e)
    s'.running = [] ∧ s'.sleeping = [] ∧
      (((e = .none → ∀ f,
            ¬ Opens (g.backend.updateCurrentSymlink w.fs (some backing)) w.lun backing f) ∧
          s'.current = w.current ∧ s'.thread.lun.isOpen = false) ∨
        (e = .none ∧ ∃ f,
          Opens (g.backend.updateCurrentSymlink w.fs (some backing)) w.lun backing f ∧
          (Agrees s' ↔ c.readOnly = true ∨ f.writable = true) ∧ (Agrees s' → Steady g s'))) := by
  intro s'
  obtain ⟨hrun, hawake, rfl⟩ := h
  obtain ⟨hworld, -, hsleeping, hidle⟩ := serviced_finish (g := g) c backing e hrun
  have hidle' : s'.running = [] := hidle
  have hawake' : s'.sleeping = [] := hsleeping.trans hawake
  refine ⟨hidle', hawake', ?_⟩
  have hcurrent : s'.current = _ := congrArg World.current hworld
  have hlun : s'.thread.lun = _ := congrArg World.lun hworld
  have hout := mountFinish_outcome g s₁.world c backing e
  generalize g.mountFinish s₁.world c backing e = r at hout hcurrent hlun
  cases hout with
  -- an empty LUN has no door to lock
  | refused why =>
    refine Or.inl ⟨fun he => ?_, hcurrent, by rw [hlun]; exact hclosed⟩
    rcases why with hfault | hlocked
    · exact absurd (congrArg WriteFaults.detach he) hfault
    · exact absurd hlocked.2 (by simp [hclosed])
  -- the LUN is empty, whichever write or open failed
  | dropped lun accepted unlocked why closed device =>
    refine Or.inl ⟨fun he => ?_, hcurrent, by rw [hlun]; exact closed⟩
    have hro : ¬ e.ro ≠ none := not_not.mpr (congrArg WriteFaults.ro he)
    have hattach : ¬ e.attach ≠ none := not_not.mpr (congrArg WriteFaults.attach he)
    exact (why.resolve_left hro).resolve_left hattach
  | done f faults unlocked opens =>
    refine Or.inr ⟨faults, f, opens, ?_⟩
    subst faults
    obtain ⟨hholds, hclear⟩ := finish_holds hrun unlocked opens
    have hattached : AttachedTo s'.thread.lun backing (c.readOnly || !f.writable) := by
      rw [hlun]
      exact attachedTo_attachedLun s₁.thread.lun backing f c.readOnly
    -- the kernel falls back to read-only when the file cannot be opened for writing
    have hflag : (c.readOnly || !f.writable) = c.readOnly ↔
        c.readOnly = true ∨ f.writable = true := by
      cases c.readOnly <;> cases f.writable <;> decide
    refine ⟨?_, fun hagrees => ⟨hagrees, hidle', hawake', fun m hm => ?_⟩⟩
    · rw [← hflag]
      constructor
      · intro hagrees
        exact hattached.ro.symm.trans (hagrees.attached _ hcurrent).ro
      · intro heq
        rw [heq] at hattached
        exact .of_attached hcurrent hattached hholds
    · rw [hcurrent] at hm
      cases hm
      exact hclear

theorem swapCompletes_of_prepared (hprep : g.prepare w.fs c a.prep = (fs, .ok backing)) :
    SwapCompletes g w c a ↔
      if w.current = none then a.second = .none →
        ∀ f, Opens (attachFs g w fs backing) w.lun backing f → c.readOnly = true ∨ f.writable = true
      else a.first = none → ¬ locked w.lun → a.second = .none ∧
        ∃ f, Opens (attachFs g w fs backing) w.lun backing f ∧
          (c.readOnly = true ∨ f.writable = true) := by
  constructor
  · intro h
    exact h fs backing hprep
  · intro h fs' backing' hprep'
    rw [hprep] at hprep'
    cases hprep'
    exact h

/-! ### The controller's functions -/

/-- A whole mount does to the files, the LUN and the record what `mount` does. -/
theorem controllerStep_mount (hidle : s.running = []) (hawake : s.sleeping = []) (c : MountCall)
    (a : MountFaults) : (controllerStep g s (.mount c a)).world = (g.mount s.world c a).1 := by
  obtain ⟨hworld, hidle', hsleeping⟩ := serviced_mount (g := g) hidle c a
  have hstart := mountStart_outcome g s.world c a
  rw [hawake, List.nil_append] at hsleeping
  rw [controllerStep, ControllerCall.whole, GadgetController.mount]
  generalize g.mountStart s.world c a = r at hworld hsleeping hstart ⊢
  by_cases hempty : s.current = none
  · rw [if_pos hempty] at hworld ⊢
    rw [hworld]
    cases hstart with
    | unprepared fs err prep => rfl
    | refused fs backing prep mounted why => exact absurd hempty mounted
    | sleeping fs backing prep mounted accepted unlocked => exact absurd hempty mounted
    | finished fs backing r prep empty finish => cases finish <;> rfl
  · rw [if_neg hempty] at hworld hidle' hsleeping ⊢
    rw [← List.cons_append, run_append]
    generalize run (Appliance.step g) s (.mount c a.prep :: callServices _) = s' at *
    obtain ⟨w, err | backing | image⟩ := r
    · rw [idle_resume hidle' hsleeping]
      exact hworld
    · have hslept : s'.sleeping = [⟨c, backing⟩] := hsleeping
      have hresume : s'.step g (.resume 0) =
          { s' with sleeping := [], running := finishSteps c backing } := by
        simp only [Appliance.step, if_pos hidle', Appliance.resume, hslept]
        rfl
      have hfinish := (serviced_finish (g := g)
        (s := { s' with sleeping := [], running := finishSteps c backing }) c backing a.second
        rfl).world
      rw [run_cons, hresume, hfinish]
      obtain rfl : s'.world = w := hworld
      rfl
    · rw [idle_resume hidle' hsleeping]
      exact hworld

theorem controllerStep_eject (hidle : s.running = []) (fault : Option Errno) :
    (controllerStep g s (.eject fault)).world = (g.eject s.world fault).1 := by
  have heject : s.step g .eject = { s with running := ejectSteps } := if_pos hidle
  rw [controllerStep, ControllerCall.whole, run_cons, heject]
  exact (serviced_eject (s := { s with running := ejectSteps }) fault rfl).world

/-- A mount that leaves the record and the LUN alone does no harm exactly when the image that
is mounted does not go with the session directory. -/
theorem Steady.kept (h : Steady g s) (hcurrent : s'.current = s.current)
    (hlun : s'.thread.lun = s.thread.lun) (hidle : s'.running = []) (hawake : s'.sleeping = [])
    (hkeeps : KeepsImage g s.world c a) (hswap : SwapCompletes g s.world c a)
    (hkept : ∀ m, s.current = some m → (ClearsSession s.fs c →
        StaysIn s.fs (OutsideSession g) (maxSymlinks + 1) m.backingPath.1) →
      s'.Holds m.backingPath ∧ ClearOfLink g s'.fs m.backingPath)
    (hcut : ∀ m, s.current = some m → ClearsSession s.fs c →
      ¬ StaysIn s.fs (OutsideSession g) (maxSymlinks + 1) m.backingPath.1 →
      ¬ s'.Holds m.backingPath) :
    (Agrees s' ↔ RecordStands g s (.mount c a)) ∧ (Agrees s' → Steady g s') := by
  have hspares : Agrees s' → SparesImage g s.world c a := by
    intro hagrees hkeeps hclears m hm
    by_contra hno
    exact hcut m hm hclears hno (hagrees.holds m (hcurrent.trans hm))
  refine ⟨⟨fun hagrees => ⟨hswap, hspares hagrees⟩, fun hstands => ?_⟩, fun hagrees => ?_⟩
  · refine (h.agrees.kept_iff hcurrent hlun).mpr fun m hm => ?_
    exact (hkept m hm fun hclears => hstands.2 hkeeps hclears m hm).1
  · refine ⟨hagrees, hidle, hawake, fun m hm => ?_⟩
    have hm' : s.current = some m := hcurrent.symm.trans hm
    exact (hkept m hm' fun hclears => hspares hagrees hkeeps hclears m hm').2

theorem Steady.mount (h : Steady g s) (c : MountCall) (a : MountFaults) :
    (Agrees (controllerStep g s (.mount c a)) ↔ RecordStands g s (.mount c a)) ∧
      (Agrees (controllerStep g s (.mount c a)) → Steady g (controllerStep g s (.mount c a))) := by
  -- a preparation that fails touches neither the LUN nor the record
  rcases hprep : g.prepare s.fs c a.prep with ⟨fs, err | backing⟩
  · rw [mount_unprepared h.idle h.awake hprep]
    refine h.kept rfl rfl (by simp only [Appliance.mount, hprep]) h.awake
      (Or.inl ⟨fs, err, hprep⟩) (fun fs' backing' hprep' => ?_)
      (fun m hm hspared => mount_of_kept hspared (h.agrees.holds m hm) (h.clear m hm))
      (fun m hm hclears hno => not_holds_mount hclears (h.clear m hm) hno)
    cases hprep.symm.trans hprep'
  have hswap : SwapCompletes g s.world c a ↔ _ := swapCompletes_of_prepared hprep
  have hdone : s.current = none ∨ (a.first = none ∧ ¬ locked s.thread.lun) →
      (RecordStands g s (.mount c a) ↔ SwapCompletes g s.world c a) := by
    intro hdone
    refine ⟨And.left, fun hswap => ⟨hswap, fun hkeeps _ m hm => ?_⟩⟩
    rcases hdone with hempty | ⟨haccepted, hunlocked⟩
    · cases hempty.symm.trans hm
    · obtain ⟨fs', err, hprep'⟩ | hfault | hlocked := hkeeps
      · cases hprep.symm.trans hprep'
      · exact absurd haccepted hfault
      · exact absurd hlocked hunlocked
  -- from an empty drive only the second half runs
  by_cases hempty : s.current = none
  · rw [hdone (Or.inl hempty), hswap, if_pos (show s.world.current = none from hempty), attachFs,
      if_pos (show s.world.current = none from hempty)]
    obtain ⟨s₁, hfinishing, hstep⟩ := mount_loaded h.idle h.awake hempty hprep
    have hclosed : s.thread.lun.isOpen = false := h.agrees.none_iff.mp hempty
    obtain ⟨hidle, hawake, ⟨hnot, hcurrent, hclosed'⟩ | ⟨hsecond, f, hf, hiff, hsteady⟩⟩ :=
      hfinishing.cases (g := g) (e := a.second) hclosed
    all_goals rw [hstep]
    · refine ⟨iff_of_true (.of_closed hcurrent hclosed') fun hsecond f hf => absurd hf
        (hnot hsecond f), fun hagrees => ⟨hagrees, hidle, hawake, fun m hm => ?_⟩⟩
      cases hcurrent.symm.trans hm
    · refine ⟨hiff.trans ⟨fun hflag _ f' hf' => ?_, fun hall => hall hsecond f hf⟩, hsteady⟩
      rw [opens_unique hf' hf]
      exact hflag
  -- the image stays in the LUN, or is detached before the second half
  by_cases hrefused : a.first ≠ none ∨ locked s.thread.lun
  · rw [mount_refused h.idle h.awake hempty hprep hrefused]
    refine h.kept rfl rfl rfl h.awake (Or.inr hrefused) (hswap.mpr ?_)
      (fun m hm hspared => ?_) (fun m hm hclears hno => ?_)
    · rw [if_neg (show ¬ s.world.current = none from hempty)]
      intro hfirst hunlocked
      exact absurd hrefused (not_or.mpr ⟨not_not.mpr hfirst, hunlocked⟩)
    · obtain ⟨hholds, hclear⟩ := mount_of_kept (a := a.prep) hspared (h.agrees.holds m hm)
        (h.clear m hm)
      exact hholds.relink hclear none
    · exact not_holds_relink hclears (h.clear m hm) hno none
  · obtain ⟨haccepted, hunlocked⟩ := not_or.mp hrefused
    rw [not_not] at haccepted
    rw [hdone (Or.inr ⟨haccepted, hunlocked⟩), hswap,
      if_neg (show ¬ s.world.current = none from hempty), attachFs,
      if_neg (show ¬ s.world.current = none from hempty)]
    obtain ⟨s₁, hfinishing, hstep⟩ :=
      mount_swapped h.idle h.awake hempty hprep haccepted hunlocked
    have hdev := sameDevice_detachedLun s.thread.lun
    obtain ⟨hidle, hawake, ⟨hnot, hcurrent, hclosed'⟩ | ⟨hsecond, f, hf, hiff, hsteady⟩⟩ :=
      hfinishing.cases (g := g) (e := a.second) (isOpen_detachedLun s.thread.lun)
    all_goals rw [hstep]
    · -- the record still names the image that was detached
      have hstale : ¬ Agrees (run (Appliance.step g) s₁ (callServices a.second)) :=
        fun hagrees => hempty (hcurrent.symm.trans (hagrees.none_iff.mpr hclosed'))
      refine ⟨iff_of_false hstale fun hall => ?_, fun hagrees => absurd hagrees hstale⟩
      obtain ⟨hsecond, f, hf, -⟩ := hall haccepted hunlocked
      exact hnot hsecond f (hdev.opens_iff.mpr hf)
    · have hopens := hdev.opens_iff.mp hf
      refine ⟨hiff.trans ⟨fun hflag _ _ => ⟨hsecond, f, hopens, hflag⟩, fun hall => ?_⟩, hsteady⟩
      obtain ⟨-, f', hf', hflag⟩ := hall haccepted hunlocked
      rw [opens_unique hopens hf']
      exact hflag

theorem Steady.eject (h : Steady g s) (fault : Option Errno) :
    Steady g (controllerStep g s (.eject fault)) := by
  have heject : s.step g .eject = { s with running := ejectSteps } := if_pos h.idle
  have hevents : callServices ⟨fault, .none, .none⟩ =
      (none :: fault :: [none, none, none]).map .service := rfl
  by_cases hrefused : fault ≠ none ∨ locked s.thread.lun
  · have hstep : controllerStep g s (.eject fault) = { s.relink g none with running := [] } := by
      rw [controllerStep, ControllerCall.whole, run_cons, heject, hevents]
      exact detach_refused (s := { s with running := ejectSteps }) rfl hrefused _
    rw [hstep]
    have hheld : ∀ m, s.current = some m → (s.relink g none).Holds m.backingPath ∧
        ClearOfLink g (s.relink g none).fs m.backingPath :=
      fun m hm => (h.agrees.holds m hm).relink (h.clear m hm) none
    have hkept : Agrees { s.relink g none with running := [] } ↔
        ∀ m, s.current = some m → (s.relink g none).Holds m.backingPath :=
      h.agrees.kept_iff rfl rfl
    exact ⟨hkept.mpr fun m hm => (hheld m hm).1, rfl, h.awake, fun m hm => (hheld m hm).2⟩
  · obtain ⟨hworld, -, hsleeping, hidle⟩ :=
      serviced_eject (g := g) (s := { s with running := ejectSteps }) fault rfl
    rw [← heject] at hworld hsleeping hidle
    have hout := eject_outcome g s.world fault
    have hsame : ({ s with running := ejectSteps } : Appliance).world = s.world := rfl
    rw [heject, hsame] at hworld
    generalize g.eject s.world fault = r at hworld hout
    cases hout with
    | refused why => exact absurd why hrefused
    | done fault_eq unlocked =>
      have hcurrent : (controllerStep g s (.eject fault)).current = none := by
        rw [controllerStep, ControllerCall.whole, run_cons, heject]
        exact congrArg World.current hworld
      have hclosed : (controllerStep g s (.eject fault)).thread.lun.isOpen = false := by
        rw [controllerStep, ControllerCall.whole, run_cons, heject]
        rw [show (run (Appliance.step g) _ _).thread.lun = _ from congrArg World.lun hworld]
        exact isOpen_detachedLun s.thread.lun
      refine ⟨.of_closed hcurrent hclosed, hidle, hsleeping.trans ?_, fun m hm => ?_⟩
      · rw [heject]
        exact h.awake
      · cases hcurrent.symm.trans hm

/-! ### Whole runs -/

/-- From an empty drive, the controller and the LUN agree after every call of a run exactly
when every swap that detached its image is completed, and no image that stays in the LUN is
unlinked under it. -/
theorem agrees_afterEach_iff (g : GadgetController) {s : Appliance} (hcurrent : s.current = none)
    (hclosed : s.thread.lun.isOpen = false) (hidle : s.running = []) (hawake : s.sleeping = [])
    (calls : List ControllerCall) :
    AfterEach (controllerStep g) Agrees s calls ↔
      Guarded (controllerStep g) (RecordStands g) s calls := by
  have hstep : ∀ s call, Steady g s → (Agrees (controllerStep g s call) ↔ RecordStands g s call) ∧
      (Agrees (controllerStep g s call) → Steady g (controllerStep g s call)) := by
    intro s call h
    cases call with
    | mount c a => exact h.mount c a
    | eject fault => exact ⟨iff_of_true (h.eject fault).agrees trivial, fun _ => h.eject fault⟩
  have hany : Guarded (controllerStep g) (fun _ _ => True) s calls :=
    guarded_of_forall (fun _ _ => trivial) s calls
  have hstart : Steady g s := by
    refine ⟨.of_closed hcurrent hclosed, hidle, hawake, fun m hm => ?_⟩
    cases hcurrent.symm.trans hm
  exact afterEach_iff_guarded
    (fun s call h _ hok => (hstep s call h).2 ((hstep s call h).1.mpr hok))
    (fun s call h _ => (hstep s call h).1) hstart hany

/-- A write-protected disk is mounted, then a session of it, then the disk once more. -/
theorem agrees_afterEach_iff_example :
    AfterEach (controllerStep sampleController) Agrees (.start sampleFs)
      [.mount ⟨sampleSet, sampleDisk, false⟩ .none, .mount ⟨sampleSet, sampleDisk, true⟩ .none,
        .mount ⟨sampleSet, sampleDisk, false⟩ .none] := by
  have hsize : 512 ≤ 1474560 := by decide
  refine (agrees_afterEach_iff sampleController rfl rfl rfl rfl _).mpr
    ⟨⟨?_, ?_⟩, ⟨?_, ?_⟩, ⟨?_, ?_⟩, trivial⟩
  · exact (swapCompletes_of_prepared rfl).mpr fun _ _ _ => Or.inl rfl
  · rintro - - m hm
    cases hm
  · exact (swapCompletes_of_prepared rfl).mpr fun _ _ =>
      ⟨rfl, ⟨.zeros 1474560, true⟩, ⟨⟨sampleController.sessionImage.1, rfl⟩, hsize⟩, Or.inr rfl⟩
  · rintro (⟨fs, err, hprep⟩ | hfirst | hlocked)
    · cases hprep
    · exact absurd rfl hfirst
    · cases hlocked.1
  · exact (swapCompletes_of_prepared rfl).mpr fun _ _ =>
      ⟨rfl, ⟨.zeros 1474560, true⟩, ⟨⟨sampleDisk.1, rfl⟩, hsize⟩, Or.inl rfl⟩
  · rintro (⟨fs, err, hprep⟩ | hfirst | hlocked)
    · cases hprep
    · exact absurd rfl hfirst
    · cases hlocked.1

/-- The attach of a swap fails: the LUN is empty and the record names the old image. And a session
replaces the copy under a session that the host does not give away. -/
theorem swap_leaves_stale_record :
    ¬ AfterEach (controllerStep sampleController) Agrees (.start sampleFs)
      [.mount ⟨sampleSet, sampleDisk, false⟩ .none,
        .mount ⟨sampleSet, sampleDisk, false⟩ ⟨.none, none, ⟨none, none, some Errno.EIO⟩⟩] ∧
    ¬ AfterEach (controllerStep sampleController) Agrees (.start sampleFs)
      [.mount ⟨sampleSet, sampleDisk, true⟩ .none,
        .mount ⟨sampleSet, sampleDisk, true⟩ ⟨.none, some Errno.EBUSY, .none⟩] := by
  constructor
  · intro h
    have hnone := h.2.1.none_iff.mpr rfl
    cases hnone
  · intro h
    obtain ⟨q, f, hopened, -⟩ := h.2.1.holds _ rfl
    cases hopened

end UsbFloppy.Gadget

import UsbFloppy.Gadget.Concurrent
import UsbFloppy.Gadget.Presents
import UsbFloppy.Kernel.ReadBack

/-! The appliance as one system: the calls of the service, which stop before each access to the
kernel module, the LUN with its host, and the one tree of files that both work on. -/

namespace UsbFloppy.Gadget
open Files Kernel Transition

/-- The file behind the LUN: where it lies, or the bytes it has since it was unlinked. -/
inductive OpenFile
  | linked (p : Path)
  | unlinked (c : Contents)

def OpenFile.contents (fs : Fs) : OpenFile → Contents
  | .linked p =>
    match fs.lookup p with
    | some (.file f) => f.contents
    | _ => .zeros 0
  | .unlinked c => c

/-- The file has the bytes `c` from now on. -/
def OpenFile.write (fs : Fs) (c : Contents) : OpenFile → Fs × OpenFile
  | .linked p =>
    match fs.lookup p with
    | some (.file f) => (fs.insert p (.file { f with contents := c }), .linked p)
    | _ => (fs, .linked p)
  | .unlinked _ => (fs, .unlinked c)

/-- `_cleanup_session` unlinks the file if it lies in the session directory. -/
def OpenFile.cleaned (g : GadgetController) (fs : Fs) : OpenFile → OpenFile
  | .linked p =>
    if p.dir = g.sessionDir.asPosix then .unlinked ((OpenFile.linked p).contents fs) else .linked p
  | .unlinked c => .unlinked c

/-- `_update_current_symlink` renames a regular file in the link's place, over what lies
there. -/
def OpenFile.relinked (b : SysfsBackend) (fs : Fs) : OpenFile → OpenFile
  | .linked p =>
    match b.currentSymlink, b.blankImage with
    | some link, some _ =>
      if (resolve fs link).isSome ∧ isSymlink fs link = false then
        if p = link then .linked (bakPath link)
        else if p = bakPath link then .unlinked ((OpenFile.linked p).contents fs)
        else .linked p
      else .linked p
    | _, _ => .linked p
  | .unlinked c => .unlinked c

/-! ### The service -/

/-- What a call does between two points where the host may get its turn. -/
inductive ServiceStep
  | link (target : Option Image)
  | detach
  | setRo (ro : Bool)
  | attach (file : Image)
  | sleep (x : Suspended)
  | cleanup
  | record (m : Option MountedImage)
  deriving DecidableEq

/-- `configure_lun`. -/
def configureSteps (file : Option Image) (ro : Bool) : List ServiceStep :=
  .link file :: .detach ::
    match file with
    | none => []
    | some file => [.setRo ro, .attach file]

/-- `mount` after the sleep. -/
def finishSteps (c : MountCall) (backing : Image) : List ServiceStep :=
  configureSteps (some backing) c.readOnly ++ [.record (some (c.mounted backing))]

/-- `mount` from a prepared backing file on, up to its sleep or to its end. -/
def mountSteps (current : Option MountedImage) (c : MountCall) (backing : Image) :
    List ServiceStep :=
  if current = none then finishSteps c backing
  else configureSteps none false ++ [.sleep ⟨c, backing⟩]

def ejectSteps : List ServiceStep := configureSteps none false ++ [.cleanup, .record none]

/-- Whether a mount clears the session directory: it comes as far as making a copy. -/
def MountCall.clearsSession (fs : Fs) (c : MountCall) : Bool :=
  match resolve fs c.disk.1 with
  | none => false
  | some (_, f) =>
    c.floppySet.disks.contains c.disk && decide (f.contents.size ≤ FLOPPY_SIZE_BYTES) &&
      (c.session || decide (f.contents.size < FLOPPY_SIZE_BYTES) && c.floppySet.readOnly)

/-! ### The appliance -/

/-- `running` is what is left of the call that has the event loop. -/
structure Appliance where
  fs : Fs
  thread : FsgThread
  opened : Option OpenFile
  current : Option MountedImage
  running : List ServiceStep
  sleeping : List Suspended

/-- What the kernel gets from elsewhere than the service. -/
inductive KernelEvent
  | command (number : ℕ) (cmd : HostCommand) (io : CommandIo) (data : ℕ → UInt8)
  | status
  | exception (oldState : FsgState)
  | store (a : LunAttribute) (buf : Text)

def KernelEvent.event : KernelEvent → Kernel.DriveEvent
  | .command number cmd io data => .bus (.command number cmd io) data
  | .status => .bus .status fun _ => 0
  | .exception oldState => .bus (.exception oldState) fun _ => 0
  | .store a buf => .store a buf

inductive ApplianceEvent
  | mount (c : MountCall) (a : PrepFaults)
  | resume (i : ℕ)
  | eject
  | shutdown
  | service (fault : Option Errno)
  | kernel (e : KernelEvent)

/-- The part of it that the calls of the controller see. -/
def Appliance.world (s : Appliance) : World := ⟨s.fs, s.thread.lun, s.current⟩

def Appliance.openContents (s : Appliance) : Contents :=
  (s.opened.map fun file => file.contents s.fs).getD (.zeros 0)

/-- The LUN, over the file that is open behind it. -/
def Appliance.drive (s : Appliance) : Drive := ⟨s.thread, fun _ => s.openContents⟩

/-- A file that a store to lun0_file leaves open was opened by it. -/
def Appliance.store (s : Appliance) (w : SysfsWrite) : Option Appliance :=
  match w.store (filpOpen s.fs) s.thread.lun with
  | .error _ => none
  | .ok lun => some
    { s with
      thread := { s.thread with lun }
      opened :=
        match w.attr with
        | .lun0Ro => s.opened
        | .lun0File =>
          lun.filp.bind fun f => ((Path.ofPosix f.name).bind (resolve s.fs)).map fun r =>
            .linked r.1 }

def Appliance.clean (g : GadgetController) (s : Appliance) : Appliance :=
  { s with fs := g.cleanupSession s.fs, opened := s.opened.map fun file => file.cleaned g s.fs }

def ServiceStep.perform (g : GadgetController) (s : Appliance) : ServiceStep → Option Appliance
  | .link target => some
    { s with
      fs := g.backend.updateCurrentSymlink s.fs target
      opened := s.opened.map fun file => file.relinked g.backend s.fs }
  | .detach => s.store ⟨.lun0File, ['\n']⟩
  | .setRo ro => s.store ⟨.lun0Ro, if ro then ['1'] else ['0']⟩
  | .attach file => s.store ⟨.lun0File, file.1.asPosix⟩
  | .sleep x => some { s with sleeping := s.sleeping ++ [x] }
  | .cleanup => some (s.clean g)
  | .record m => some { s with current := m }

/-- An error ends the call. -/
def Appliance.service (g : GadgetController) (s : Appliance) (fault : Option Errno) : Appliance :=
  match s.running with
  | [] => s
  | step :: rest =>
    match fault with
    | some _ => { s with running := [] }
    | none =>
      match step.perform g s with
      | none => { s with running := [] }
      | some s' => { s' with running := rest }

def Appliance.mount (g : GadgetController) (s : Appliance) (c : MountCall) (a : PrepFaults) :
    Appliance :=
  let r := g.prepare s.fs c a
  { s with
    fs := r.1
    opened :=
      if c.clearsSession s.fs then s.opened.map fun file => file.cleaned g s.fs else s.opened
    running :=
      match r.2 with
      | .error _ => []
      | .ok backing => mountSteps s.current c backing }

def Appliance.resume (s : Appliance) (i : ℕ) : Appliance :=
  match s.sleeping[i]? with
  | none => s
  | some x =>
    { s with sleeping := s.sleeping.eraseIdx i, running := finishSteps x.call x.backing }

/-- The LUN works on the file that is open. A LUN that is closed lets go of it. -/
def Appliance.kernel (s : Appliance) (e : KernelEvent) : Appliance :=
  let d := s.drive.step e.event
  let after : Fs × Option OpenFile :=
    match s.thread.lun.filp, s.opened with
    | some f, some file =>
      let r := file.write s.fs (d.files f.name)
      (r.1, some r.2)
    | _, _ => (s.fs, s.opened)
  { s with
    fs := after.1
    thread := d.thread
    opened := if d.thread.lun.isOpen then after.2 else none }

/-- A call starts when no other has the event loop. -/
def Appliance.step (g : GadgetController) (s : Appliance) : ApplianceEvent → Appliance
  | .mount c a => if s.running = [] then s.mount g c a else s
  | .resume i => if s.running = [] then s.resume i else s
  | .eject => if s.running = [] then { s with running := ejectSteps } else s
  | .shutdown => if s.running = [] then { s with running := [.cleanup] } else s
  | .service fault => s.service g fault
  | .kernel e => s.kernel e

/-- The gadget when the host has just configured it, before the first mount. -/
def Appliance.start (fs : Fs) : Appliance := ⟨fs, configured, none, none, [], []⟩

variable {g : GadgetController} {s s' : Appliance}

/-! ### What the stores do -/

theorem store_detach (h : s.store ⟨.lun0File, ['\n']⟩ = some s') :
    ¬ locked s.thread.lun ∧
      s' = { s with
        thread := { s.thread with lun := detachedLun s.thread.lun }
        opened := none } := by
  simp only [Appliance.store, SysfsWrite.store, fsgStoreFile_newline] at h
  by_cases hlocked : locked s.thread.lun
  · rw [if_pos hlocked] at h
    cases h
  · rw [if_neg hlocked] at h
    have hclosed : (detachedLun s.thread.lun).filp = none :=
      FsgLun.not_isOpen_iff.mp (isOpen_detachedLun _)
    simp only [hclosed, Option.bind_none] at h
    exact ⟨hlocked, (Option.some.inj h).symm⟩

theorem store_setRo {ro : Bool} (h : s.store ⟨.lun0Ro, if ro then ['1'] else ['0']⟩ = some s') :
    s.thread.lun.filp = none ∧
      s' = { s with
        thread := { s.thread with lun := { s.thread.lun with ro := ro, initiallyRo := ro } } } := by
  have hparse : kstrtobool (if ro then ['1'] else ['0']) = .ok ro := by cases ro <;> rfl
  simp only [Appliance.store, SysfsWrite.store, fsgStoreRo, hparse] at h
  cases hset : fsgSetRo s.thread.lun ro with
  | error e =>
    rw [hset] at h
    cases h
  | ok lun =>
    obtain ⟨hclosed, rfl⟩ := fsgSetRo_ok hset
    rw [hset] at h
    exact ⟨hclosed, (Option.some.inj h).symm⟩

theorem store_attach {file : Image} (h : s.store ⟨.lun0File, file.1.asPosix⟩ = some s') :
    ∃ q f, resolve s.fs file.1 = some (q, f) ∧ minBytes s.thread.lun ≤ f.contents.size ∧
      s' = { s with
        thread := { s.thread with
          lun := attachedLun s.thread.lun file f s.thread.lun.initiallyRo }
        opened := some (.linked q) } := by
  have hchomp : chomp file.1.asPosix = file.1.asPosix := chomp_of_getLast?_ne file.getLast?_ne
  simp only [Appliance.store, SysfsWrite.store, fsgStoreFile_eq, hchomp, loadMedium, ne_eq,
    file.1.asPosix_ne_nil, not_false_eq_true, if_true] at h
  by_cases hlocked : s.thread.lun.preventMediumRemoval = true ∧ s.thread.lun.isOpen = true
  · rw [if_pos hlocked] at h
    cases h
  rw [if_neg hlocked] at h
  rcases hres : resolve s.fs file.1 with _ | ⟨q, f⟩
  · have hnone : ∀ flags, filpOpen s.fs file.1.asPosix flags = .error .ENOENT := fun flags => by
      simp only [filpOpen, Path.ofPosix_asPosix, Option.bind_some, hres]
    simp only [fsgLunOpen, hnone] at h
    cases h
  · rw [fsgLunOpen_filpOpen s.thread.lun hres] at h
    by_cases hsmall : f.contents.size < minBytes s.thread.lun
    · rw [if_pos hsmall] at h
      cases h
    · rw [if_neg hsmall] at h
      simp only [attachedLun, Option.bind_some, Path.ofPosix_asPosix, hres, Option.map_some] at h
      exact ⟨q, f, rfl, not_lt.mp hsmall, (Option.some.inj h).symm⟩

/-! ### Calls without a turn of the host -/

theorem service_cons {step : ServiceStep} {rest : List ServiceStep} (g : GadgetController)
    (hrun : s.running = step :: rest) (fault : Option Errno) :
    s.step g (.service fault) =
      match fault with
      | some _ => { s with running := [] }
      | none =>
        match step.perform g s with
        | none => { s with running := [] }
        | some s' => { s' with running := rest } := by
  simp only [Appliance.step, Appliance.service, hrun]

/-- The service ends the call that is under way, or does its next step. -/
theorem Appliance.service_cases (g : GadgetController) (s : Appliance) (fault : Option Errno) :
    s.service g fault = { s with running := [] } ∨
      ∃ step rest s', s.running = step :: rest ∧ step.perform g s = some s' ∧
        s.service g fault = { s' with running := rest } := by
  rcases hrun : s.running with _ | ⟨step, rest⟩
  · have hidle : s.service g fault = s := by simp only [Appliance.service, hrun]
    rw [hidle, ← hrun]
    exact Or.inl rfl
  have hservice : s.service g fault = _ := service_cons g hrun fault
  rw [hservice]
  rcases fault with _ | e
  · rcases hdone : step.perform g s with _ | s'
    · exact Or.inl rfl
    · exact Or.inr ⟨step, rest, s', rfl, hdone, rfl⟩
  · exact Or.inl rfl

theorem Appliance.resume_cases (s : Appliance) (i : ℕ) :
    (s.sleeping[i]? = none ∧ s.resume i = s) ∨ ∃ x, s.sleeping[i]? = some x ∧
      s.resume i =
        { s with sleeping := s.sleeping.eraseIdx i, running := finishSteps x.call x.backing } := by
  rcases hx : s.sleeping[i]? with _ | x
  · exact Or.inl ⟨rfl, by simp only [Appliance.resume, hx]⟩
  · exact Or.inr ⟨x, rfl, by simp only [Appliance.resume, hx]⟩

theorem run_service_idle (hidle : s.running = []) (faults : List (Option Errno)) :
    run (Appliance.step g) s (faults.map .service) = s := by
  induction faults with
  | nil => rfl
  | cons fault faults ih =>
    have hstep : s.step g (.service fault) = s := by
      simp only [Appliance.step, Appliance.service, hidle]
    rw [List.map_cons, run_cons, hstep, ih]

/-- The appliance after a call got as far as `r`: with the rest of its steps, or none. -/
structure Reaches (s : Appliance) (w : World) (returned : Bool) (rest : List ServiceStep)
    (s' : Appliance) : Prop where
  world : s'.world = w
  loop : s'.thread.loop = s.thread.loop
  sleeping : s'.sleeping = s.sleeping
  running : s'.running = if returned then rest else []

/-- The writes of a call, one by one, are `writeAll`. -/
theorem serviced_writes {steps : List ServiceStep} {ws : List (SysfsWrite × Moment)}
    (h : List.Forall₂ (fun step w => (∀ s, step.perform g s = s.store w.1) ∧ w.2.host = [])
      steps ws)
    {s : Appliance} (k : ℕ) {rest : List ServiceStep} (hrun : s.running = steps ++ rest) :
    Reaches s { s.world with lun := (writeAll (filpOpen s.fs) s.thread.lun k ws).lun }
      (writeAll (filpOpen s.fs) s.thread.lun k ws).failed.isNone rest
      (run (Appliance.step g) s ((ws.map fun w => w.2.fault).map .service)) := by
  induction h generalizing s k with
  | nil => exact ⟨rfl, rfl, rfl, hrun⟩
  | @cons step w steps ws hstep hrest ih =>
    obtain ⟨w, m⟩ := w
    obtain ⟨hperform, hhost⟩ := hstep
    have hhost : m.host = [] := hhost
    rw [List.map_cons, List.map_cons, run_cons, service_cons g hrun, hperform, writeAll_cons, hhost]
    rcases m.fault with _ | e
    · simp only [List.foldl_nil, Appliance.store]
      rcases w.store (filpOpen s.fs) s.thread.lun with e | lun
      · dsimp only
        rw [run_service_idle rfl]
        exact ⟨rfl, rfl, rfl, rfl⟩
      · dsimp only
        generalize hs₁ : Appliance.mk _ _ _ _ _ _ = s₁
        have hrun₁ : s₁.running = steps ++ rest := by rw [← hs₁]; rfl
        obtain ⟨hworld, hloop, hsleeping, hrunning⟩ := ih (k + 1) hrun₁
        subst hs₁
        exact ⟨hworld, hloop, hsleeping, hrunning⟩
    · -- the call ends here, and the services for its other writes find nothing to do
      rw [run_service_idle rfl]
      exact ⟨rfl, rfl, rfl, rfl⟩

/-- The service steps of `configure_lun`, with the errors that keep its writes from their
handlers. -/
def configureServices (file : Option Image) (e : WriteFaults) : List ApplianceEvent :=
  (none :: e.detach ::
    match file with
    | none => []
    | some _ => [e.ro, e.attach]).map .service

theorem serviced_configure (file : Option Image) (ro : Bool) (e : WriteFaults)
    {rest : List ServiceStep} (hrun : s.running = configureSteps file ro ++ rest) :
    Reaches s (g.configureLun s.world file ro e).1 (g.configureLun s.world file ro e).2 rest
      (run (Appliance.step g) s (configureServices file e)) := by
  obtain ⟨steps, hsteps, hwrites⟩ : ∃ steps, configureSteps file ro = .link file :: steps ∧
      List.Forall₂ (fun step w => (∀ s : Appliance, step.perform g s = s.store w.1) ∧ w.2.host = [])
        steps (configureWrites (file.map Subtype.val) ro e.moments) := by
    cases file with
    | none => exact ⟨_, rfl, .cons ⟨fun _ => rfl, rfl⟩ .nil⟩
    | some file =>
      exact ⟨_, rfl, .cons ⟨fun _ => rfl, rfl⟩ (.cons ⟨fun _ => rfl, rfl⟩
        (.cons ⟨fun _ => rfl, rfl⟩ .nil))⟩
  rw [hsteps] at hrun
  have hlink := service_cons g hrun none
  have hevents : configureServices file e = .service none ::
      ((configureWrites (file.map Subtype.val) ro e.moments).map fun w => w.2.fault).map
        .service := by
    cases file <;> rfl
  have hrun₁ : (s.step g (.service none)).running = steps ++ rest := by
    rw [hlink]
    rfl
  obtain ⟨hworld, hloop, hsleeping, hrunning⟩ := serviced_writes hwrites 0 hrun₁
  rw [hevents, run_cons]
  generalize run (Appliance.step g) (s.step g (.service none)) _ = s' at *
  rw [hlink] at hworld hloop hsleeping hrunning
  exact ⟨hworld, hloop, hsleeping, hrunning⟩

/-- The service steps of a whole call, of which a detaching takes two and the rest of an eject
two more. -/
def callServices (e : WriteFaults) : List ApplianceEvent :=
  [none, e.detach, e.ro, e.attach, none].map .service

theorem serviced_finish (c : MountCall) (backing : Image) (e : WriteFaults)
    (hrun : s.running = finishSteps c backing) :
    Reaches s (g.mountFinish s.world c backing e).1 false []
      (run (Appliance.step g) s (callServices e)) := by
  have hevents : callServices e = configureServices (some backing) e ++ [none].map .service := rfl
  obtain ⟨hworld, hloop, hsleeping, hrunning⟩ :=
    serviced_configure (g := g) (some backing) c.readOnly e hrun
  rw [hevents, run_append]
  generalize run (Appliance.step g) s (configureServices (some backing) e) = s₁ at *
  unfold GadgetController.mountFinish
  rcases hconf : g.configureLun s.world (some backing) c.readOnly e with ⟨w, _ | _⟩
  all_goals rw [hconf] at hworld hrunning
  · rw [run_service_idle hrunning]
    exact ⟨hworld, hloop, hsleeping, hrunning⟩
  · rw [List.map_singleton, run_cons, run_nil, service_cons g hrunning]
    obtain rfl : s₁.world = w := hworld
    exact ⟨rfl, hloop, hsleeping, rfl⟩

/-- A detaching, and what the call does after it. -/
theorem serviced_detach (fault : Option Errno) {rest : List ServiceStep}
    (hrun : s.running = configureSteps none false ++ rest) :
    Reaches s (g.configureLun s.world none false ⟨fault, .none, .none⟩).1
      (g.configureLun s.world none false ⟨fault, .none, .none⟩).2 rest
      (run (Appliance.step g) s ([none, fault].map .service)) :=
  serviced_configure none false ⟨fault, .none, .none⟩ hrun

theorem serviced_eject (fault : Option Errno) (hrun : s.running = ejectSteps) :
    Reaches s (g.eject s.world fault).1 false []
      (run (Appliance.step g) s (callServices ⟨fault, .none, .none⟩)) := by
  have hevents : callServices ⟨fault, .none, .none⟩ =
      [none, fault].map .service ++ [none, none, none].map .service := rfl
  obtain ⟨hworld, hloop, hsleeping, hrunning⟩ := serviced_detach (g := g) fault hrun
  rw [hevents, run_append]
  generalize run (Appliance.step g) s ([none, fault].map .service) = s₁ at *
  unfold GadgetController.eject
  rcases hconf : g.configureLun s.world none false ⟨fault, .none, .none⟩ with ⟨w, _ | _⟩
  all_goals rw [hconf] at hworld hrunning
  · rw [run_service_idle hrunning]
    exact ⟨hworld, hloop, hsleeping, hrunning⟩
  · rw [List.map_cons, run_cons, service_cons g hrunning]
    obtain rfl : s₁.world = w := hworld
    exact ⟨rfl, hloop, hsleeping, rfl⟩

/-- The sleep a mount comes to. -/
def Progress.slept (c : MountCall) : Progress → List Suspended
  | .sleeping backing => [⟨c, backing⟩]
  | _ => []

theorem slept_mountFinish (w : World) (c c' : MountCall) (backing : Image) (e : WriteFaults) :
    (g.mountFinish w c backing e).2.slept c' = [] := by
  unfold GadgetController.mountFinish
  rcases g.configureLun w (some backing) c.readOnly e with ⟨w, _ | _⟩ <;> rfl

theorem mountStart_prepared {w : World} {c : MountCall} {a : MountFaults} {fs : Fs}
    {backing : Image} (hprep : g.prepare w.fs c a.prep = (fs, .ok backing)) :
    let conf := g.configureLun { w with fs := fs } none false ⟨a.first, .none, .none⟩
    g.mountStart w c a =
      if w.current = none then g.mountFinish { w with fs := fs } c backing a.second
      else (conf.1, if conf.2 then .sleeping backing else .raised .os) := by
  intro conf
  simp only [GadgetController.mountStart, hprep, conf]
  by_cases hcurrent : w.current = none
  · rw [if_pos hcurrent, if_neg (not_not.mpr hcurrent)]
  · rw [if_neg hcurrent, if_pos hcurrent]
    split
    all_goals
      rename_i hconf
      simp only [hconf, Bool.false_eq_true, if_false, if_true]

theorem serviced_mount (hidle : s.running = []) (c : MountCall) (a : MountFaults) :
    let r := g.mountStart s.world c a
    let s' := run (Appliance.step g) s (.mount c a.prep ::
      callServices (if s.current = none then a.second else ⟨a.first, .none, .none⟩))
    s'.world = r.1 ∧ s'.running = [] ∧ s'.sleeping = s.sleeping ++ r.2.slept c := by
  intro r s'
  have hmount : s.step g (.mount c a.prep) = s.mount g c a.prep := if_pos hidle
  have hsleeping : (s.mount g c a.prep).sleeping = s.sleeping := rfl
  simp only [s', run_cons, hmount]
  rcases hprep : g.prepare s.fs c a.prep with ⟨fs, e | backing⟩
  · have hr : r = ({ s.world with fs := fs }, .raised e) := by
      simp only [r, GadgetController.mountStart, Appliance.world, hprep]
    have hrun : (s.mount g c a.prep).running = [] := by simp only [Appliance.mount, hprep]
    rw [callServices, run_service_idle hrun, hr]
    refine ⟨?_, hrun, (List.append_nil _).symm⟩
    simp only [Appliance.mount, Appliance.world, hprep]
  have hstart : r = _ := mountStart_prepared (w := s.world) hprep
  have hworld : (s.mount g c a.prep).world = { s.world with fs := fs } := by
    simp only [Appliance.mount, Appliance.world, hprep]
  have hrun : (s.mount g c a.prep).running = mountSteps s.current c backing := by
    simp only [Appliance.mount, hprep]
  rw [← hworld] at hstart
  generalize s.mount g c a.prep = s₁ at *
  by_cases hcurrent : s.current = none
  · rw [if_pos hcurrent, hstart, if_pos (show s.world.current = none from hcurrent),
      slept_mountFinish, List.append_nil]
    rw [mountSteps, if_pos hcurrent] at hrun
    obtain ⟨hworld', -, hsleeping', hrunning'⟩ := serviced_finish (g := g) c backing a.second hrun
    exact ⟨hworld', hrunning', hsleeping'.trans hsleeping⟩
  · have hevents : callServices ⟨a.first, .none, .none⟩ =
        [none, a.first].map .service ++ [none, none, none].map .service := rfl
    -- the disk that is mounted goes out, and the call goes to sleep
    rw [if_neg hcurrent, hstart, if_neg (show ¬ s.world.current = none from hcurrent), hevents,
      run_append]
    rw [mountSteps, if_neg hcurrent] at hrun
    obtain ⟨hworld', -, hsleeping', hrunning'⟩ := serviced_detach (g := g) a.first hrun
    generalize run (Appliance.step g) s₁ ([none, a.first].map .service) = s₂ at *
    dsimp only
    cases hdone : (g.configureLun s₁.world none false ⟨a.first, .none, .none⟩).2 with
    | false =>
      rw [hdone] at hrunning'
      rw [run_service_idle hrunning']
      exact ⟨hworld', hrunning', (hsleeping'.trans hsleeping).trans (List.append_nil _).symm⟩
    | true =>
      rw [hdone] at hrunning'
      rw [List.map_cons, run_cons, service_cons g hrunning']
      refine ⟨hworld', rfl, ?_⟩
      change s₂.sleeping ++ [⟨c, backing⟩] = s.sleeping ++ [⟨c, backing⟩]
      rw [hsleeping', hsleeping]

/-- A coroutine that runs to its next sleep before the host gets a turn. -/
def LoopEvent.whole : LoopEvent → List ApplianceEvent
  | .start c => .mount c .none :: callServices .none
  | .resume i => .resume i :: callServices .none
  | .eject => .eject :: callServices .none

/-- The appliance, no call of which is under way, is where the event loop is. -/
structure Runs (s : Appliance) (l : Loop) : Prop where
  world : s.world = l.world
  sleeping : s.sleeping = l.suspended
  idle : s.running = []

theorem loopStart_spec (l : Loop) (c : MountCall) :
    (loopStart g l c).world = (g.mountStart l.world c .none).1 ∧
      (loopStart g l c).suspended =
        l.suspended ++ (g.mountStart l.world c .none).2.slept c := by
  unfold loopStart
  generalize g.mountStart l.world c .none = r
  obtain ⟨w, e | backing | image⟩ := r
  · exact ⟨rfl, (List.append_nil _).symm⟩
  · exact ⟨rfl, rfl⟩
  · exact ⟨rfl, (List.append_nil _).symm⟩

theorem loopResume_spec {l : Loop} {i : ℕ} {x : Suspended} (hx : l.suspended[i]? = some x) :
    (loopResume g l i).world = (g.mountFinish l.world x.call x.backing .none).1 ∧
      (loopResume g l i).suspended = l.suspended.eraseIdx i := by
  simp only [loopResume, hx]
  generalize g.mountFinish l.world x.call x.backing .none = r
  obtain ⟨w, e | backing | image⟩ := r <;> exact ⟨rfl, rfl⟩

theorem loopEject_spec (l : Loop) :
    (loopEject g l).world = (g.eject l.world none).1 ∧
      (loopEject g l).suspended = l.suspended := by
  unfold loopEject
  generalize g.eject l.world none = r
  obtain ⟨w, _ | _⟩ := r <;> exact ⟨rfl, rfl⟩

theorem Runs.step {l : Loop} (h : Runs s l) (e : LoopEvent) :
    Runs (run (Appliance.step g) s e.whole) (loopStep g l e) := by
  cases e with
  | start c =>
    have hwhole : LoopEvent.whole (.start c) = .mount c MountFaults.none.prep :: callServices
        (if s.current = none then MountFaults.none.second
          else ⟨MountFaults.none.first, .none, .none⟩) := by
      split_ifs <;> rfl
    obtain ⟨hworld, hrun, hsleeping⟩ := serviced_mount (g := g) h.idle c .none
    obtain ⟨hworld', hsuspended'⟩ := loopStart_spec (g := g) l c
    rw [← hwhole, h.world] at hworld hsleeping
    rw [← hwhole] at hrun
    rw [h.sleeping] at hsleeping
    exact ⟨hworld.trans hworld'.symm, hsleeping.trans hsuspended'.symm, hrun⟩
  | resume i =>
    have hstep : s.step g (.resume i) = s.resume i := if_pos h.idle
    rw [LoopEvent.whole, run_cons, hstep]
    rcases s.resume_cases i with ⟨hx, hresume⟩ | ⟨x, hx, hresume⟩
    · rw [h.sleeping] at hx
      have hloop : loopResume g l i = { l with returned := none } := by simp only [loopResume, hx]
      rw [hresume, callServices, run_service_idle h.idle, loopStep, hloop]
      exact ⟨h.world, h.sleeping, h.idle⟩
    · rw [h.sleeping] at hx
      obtain ⟨hworld', hsuspended'⟩ := loopResume_spec (g := g) hx
      have hrunning : (s.resume i).running = finishSteps x.call x.backing := by rw [hresume]
      have hsame : (s.resume i).world = l.world := by rw [hresume]; exact h.world
      obtain ⟨hworld, -, hsleeping, hrun⟩ :=
        serviced_finish (g := g) x.call x.backing .none hrunning
      rw [hsame] at hworld
      refine ⟨hworld.trans hworld'.symm, (hsleeping.trans ?_).trans hsuspended'.symm, hrun⟩
      rw [hresume, ← h.sleeping]
  | eject =>
    have hstep : s.step g .eject = { s with running := ejectSteps } := if_pos h.idle
    obtain ⟨hworld', hsuspended'⟩ := loopEject_spec (g := g) l
    have hrunning : (s.step g .eject).running = ejectSteps := by rw [hstep]
    have hsame : (s.step g .eject).world = l.world := by rw [hstep]; exact h.world
    obtain ⟨hworld, -, hsleeping, hrun⟩ := serviced_eject (g := g) none hrunning
    rw [hsame] at hworld
    refine ⟨hworld.trans hworld'.symm, (hsleeping.trans ?_).trans hsuspended'.symm, hrun⟩
    rw [hstep]
    exact h.sleeping

/-- Runs of the event loop are the runs of the appliance in which each coroutine comes to its
next sleep before the host gets a turn. -/
theorem runs_of_loop {l : Loop} (h : Runs s l) (es : List LoopEvent) :
    Runs (run (Appliance.step g) s (es.flatMap LoopEvent.whole)) (run (loopStep g) l es) := by
  induction es generalizing s l with
  | nil => exact h
  | cons e es ih =>
    rw [List.flatMap_cons, run_append, run_cons]
    exact ih (h.step e)

/-- Two mounts sleep at the same time and wake up in the other order. -/
def sampleLoop : List LoopEvent :=
  [.start ⟨sampleSet, sampleDisk, false⟩, .start ⟨sampleSet, sampleDisk, true⟩,
    .start ⟨sampleSet, sampleDisk, false⟩, .resume 1, .resume 0, .eject]

theorem runs_of_loop_example :
    Runs (run (Appliance.step sampleController) (.start sampleFs)
        (sampleLoop.flatMap LoopEvent.whole))
      (run (loopStep sampleController) (.init ⟨sampleFs, configured.lun, none⟩) sampleLoop) :=
  runs_of_loop ⟨rfl, rfl, rfl⟩ sampleLoop

end UsbFloppy.Gadget

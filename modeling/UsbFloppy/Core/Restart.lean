import UsbFloppy.Core.Runtime
import UsbFloppy.Gadget.Faultless
import UsbFloppy.Web.AudioSettings
import UsbFloppy.Web.Api

/-! A restart: build_runtime mounts the disk that the Config remembers and applies its
settings; the requests after that change and save the Config. -/

namespace UsbFloppy.Core
open Json Files Kernel Gadget Storage Web Transition

def VALID_SPEED_PRESETS : List Str :=
  ["floppy-real".toList, "floppy-fast".toList, "unthrottled".toList]

/-- What each setter of the backend was last called with. -/
structure BackendSettings where
  speedPreset : Value
  volume : Value
  mute : Value
  buzzerEnabled : Value

/-- What the buzzer was built with, or each setter of it was last called with. -/
structure BuzzerSettings where
  volume : Value
  mute : Value
  enabled : Value

structure Service where
  world : World
  sets : List FloppySet
  cfg : Config
  file : Option Str
  backend : BackendSettings
  buzzer : Option BuzzerSettings

/-! ### The start -/

/-- `_set_by_name` and `_disk_in_set`. -/
def mountCall (sets : List FloppySet) (set disk : Str) (session : Bool) : Option MountCall :=
  (setByName sets set).bind fun s => (diskInSet s disk).map fun d => ⟨s, d, session⟩

/-- The disk that `build_runtime` mounts. -/
def restoreTarget (sets : List FloppySet) : Value → Option MountCall
  | .obj data =>
    match get data "set" .null, get data "disk" .null with
    | .str set, .str disk => mountCall sets set disk false
    -- no name of a set or a disk is equal to such a value
    | _, _ => none
  | _ => none

/-- `volume` can be compared with 0 and 100. -/
def comparable : Value → Bool
  | .bool _ | .int _ | .float _ | .nan | .infinity _ => true
  | _ => false

/-- `preset` can be looked up in a set. -/
def hashable : Value → Bool
  | .arr _ | .obj _ => false
  | _ => true

def isDict : Value → Bool
  | .obj _ => true
  | _ => false

def isNull : Value → Bool
  | .null => true
  | _ => false

/-- `_nameToLevel` of logging. -/
def nameToLevel : List (Str × ℤ) :=
  [("CRITICAL".toList, 50), ("FATAL".toList, 50), ("ERROR".toList, 40), ("WARN".toList, 30),
    ("WARNING".toList, 30), ("INFO".toList, 20), ("DEBUG".toList, 10), ("NOTSET".toList, 0)]

/-- The level of the root logger after `basicConfig`; none where `_checkLevel` raises. -/
def rootLevel : Value → Option ℤ
  -- None is not passed on
  | .null => some 30
  | .bool b => some (if b then 1 else 0)
  | .int n => some n
  | .str s => nameToLevel.lookup s
  | _ => none

/-- No value of the Config makes `build_runtime` raise a TypeError, an AttributeError, or the
ValueError of an unknown log level. -/
def Config.starts (cfg : Config) : Bool :=
  (rootLevel cfg.logLevel).isSome && (isNull cfg.lastMounted || isDict cfg.lastMounted) &&
    hashable cfg.speedPreset && comparable cfg.volume

def Config.backendSettings (cfg : Config) : BackendSettings :=
  ⟨cfg.speedPreset, cfg.volume, cfg.mute, cfg.buzzerEnabled⟩

def Config.buzzerSettings (cfg : Config) : BuzzerSettings :=
  ⟨cfg.volume, cfg.mute, cfg.buzzerEnabled⟩

/-- The restoring mount. When it raises, that is logged. -/
def restoreMount (g : GadgetController) (sets : List FloppySet) (cfg : Config) (w : World) : World :=
  match restoreTarget sets cfg.lastMounted with
  | none => w
  | some c => (g.mount w c .none).1

/-- `pwm` is whether the PWM channel is there. -/
def Service.init (g : GadgetController) (root : Path) (pwm : Bool) (w : World)
    (text : Option Str) : Service :=
  let cfg := loadConfig text
  let sets := scan w.fs root
  { world := restoreMount g sets cfg { w with current := none }
    sets := sets
    cfg := cfg
    file := text
    backend := cfg.backendSettings
    buzzer := if pwm then some cfg.buzzerSettings else none }

def buildRuntime (g : GadgetController) (root : Path) (pwm : Bool) (w : World)
    (text : Option Str) : Option Service :=
  if (loadConfig text).starts then some (.init g root pwm w text) else none

/-! ### Requests -/

inductive Request
  | speed (preset : Str)
  | audio (r : AudioRequest)
  | mount (set disk : Str) (session : Bool)
  | eject
  /-- no request, but a command of the host between two of them -/
  | host (cmd : HostCommand)

def BackendSettings.set (b : BackendSettings) : AudioRequest → BackendSettings
  | .volume v => { b with volume := .int v }
  | .mute m => { b with mute := .bool m }
  | .buzzer e => { b with buzzerEnabled := .bool e }

def BuzzerSettings.set (b : BuzzerSettings) : AudioRequest → BuzzerSettings
  | .volume v => { b with volume := .int v }
  | .mute m => { b with mute := .bool m }
  | .buzzer e => { b with enabled := .bool e }

namespace Service

variable (g : GadgetController) (s : Service)

/-- The Config is changed and saved. -/
def persist (c : Change) : Service :=
  { s with cfg := c.apply s.cfg, file := some (c.apply s.cfg).payload }

/-- After a mount or an eject that succeeds. -/
def persistLastMounted : Service := s.persist (.lastMounted (lastMountedOf s.world.current))

def step (s : Service) : Request → Service
  | .speed preset =>
    if preset ∈ VALID_SPEED_PRESETS then
      { s with backend := { s.backend with speedPreset := .str preset } }
    else s
  | .audio r =>
    if r.Accepted then
      { s with
        backend := s.backend.set r
        buzzer := s.buzzer.map fun (b : BuzzerSettings) => b.set r }.persist r.change
    else s
  | .mount set disk session =>
    match mountCall s.sets set disk session with
    | none => s
    | some c =>
      match g.mount s.world c .none with
      | (w, .returned _) => { s with world := w }.persistLastMounted
      | (w, _) => { s with world := w }
  | .eject =>
    match g.eject s.world none with
    | (w, true) => { s with world := w }.persistLastMounted
    | (w, false) => { s with world := w }
  | .host cmd => { s with world := { s.world with lun := hostDoor s.world.lun cmd } }

def Succeeds : Request → Prop
  | .speed preset => preset ∈ VALID_SPEED_PRESETS
  | .audio r => r.Accepted
  | .mount set disk session => ∃ c image, mountCall s.sets set disk session = some c ∧
      (g.mount s.world c .none).2 = .returned image
  | .eject => (g.eject s.world none).2 = true
  | .host _ => True

/-- A shutdown, and the next start. -/
def restart (root : Path) : Option Service :=
  buildRuntime g root s.buzzer.isSome (g.shutdown s.world) s.file

/-- The settings last set are applied again, and what was mounted is mounted again. -/
structure Restored (s t : Service) : Prop where
  backend : t.backend = s.backend
  buzzer : t.buzzer = s.buzzer
  mounted : t.world.current.map (fun m => (m.setName, m.diskFilename)) =
    lastMountedOf s.world.current
  session : ∀ m, t.world.current = some m → m.isSession = false

end Service

/-- The preset that the last request for one names. -/
def lastSpeed : List Request → Option Str
  | [] => none
  | .speed preset :: requests => (lastSpeed requests).or (some preset)
  | _ :: requests => lastSpeed requests

/-- What the last request to mount or eject leaves mounted, a session mount apart. -/
def lastDisk : List Request → Option (Option (Str × Str))
  | [] => none
  | .mount set disk session :: requests =>
    (lastDisk requests).or (some (if session then none else some (set, disk)))
  | .eject :: requests => (lastDisk requests).or (some none)
  | _ :: requests => lastDisk requests

/-- The host lets the medium go at the next start, if a disk was mounted last; if none was asked
for, it does so at both starts or at neither, provided that the disk remembered in the file
fits. -/
def DoorAllows (root : Path) (w : World) (text : Option Str) (lun : FsgLun) :
    Option (Option (Str × Str)) → Prop
  | some none => True
  | some (some _) => ¬ locked lun
  | none => ∀ c f, restoreTarget (scan w.fs root) (loadConfig text).lastMounted = some c →
      HasFile w.fs c.disk.1 f → f.contents.size ≤ FLOPPY_SIZE_BYTES →
        (locked w.lun ↔ locked lun)

/-- The disks of the library are regular files that the service may write, apart from its
own files. -/
def LibraryOk (g : GadgetController) (sets : List FloppySet) (fs : Fs) : Prop :=
  ∀ set ∈ sets, ∀ d ∈ set.disks, Outside g d.1 ∧ ∃ f, HasFile fs d.1 f ∧ f.writable = true

/-! ### What a start can find -/

section

variable {g : GadgetController} {sets : List FloppySet} {fs fs' : Fs} {c : MountCall}

theorem mountCall_some {set disk : Str} {session : Bool}
    (h : mountCall sets set disk session = some c) :
    c.floppySet ∈ sets ∧ c.disk ∈ c.floppySet.disks ∧ c.session = session ∧
      mountCall sets c.floppySet.name c.disk.1.name false = some { c with session := false } := by
  obtain ⟨fset, hfset, hc⟩ := Option.bind_eq_some_iff.mp h
  obtain ⟨d, hd, rfl⟩ := Option.map_eq_some_iff.mp hc
  obtain ⟨hmem, rfl⟩ := setByName_some hfset
  obtain ⟨hdisk, rfl⟩ := diskInSet_some hd
  refine ⟨hmem, hdisk, rfl, ?_⟩
  dsimp only [mountCall]
  rw [hfset, Option.bind_some, hd]
  rfl

theorem mountCall_names {set disk : Str} {session : Bool}
    (h : mountCall sets set disk session = some c) :
    c.floppySet.name = set ∧ c.disk.1.name = disk := by
  obtain ⟨fset, hfset, hc⟩ := Option.bind_eq_some_iff.mp h
  obtain ⟨d, hd, rfl⟩ := Option.map_eq_some_iff.mp hc
  exact ⟨(setByName_some hfset).2, (diskInSet_some hd).2⟩

theorem restoreTarget_some {v : Value} (h : restoreTarget sets v = some c) :
    ∃ set disk, mountCall sets set disk false = some c := by
  unfold restoreTarget at h
  split at h
  · split at h
    · exact ⟨_, _, h⟩
    · cases h
  · cases h

theorem LibraryOk.disk (h : LibraryOk g sets fs) (hset : c.floppySet ∈ sets)
    (hdisk : c.disk ∈ c.floppySet.disks) : ∃ f, LibraryDisk g fs c f := by
  obtain ⟨hout, f, hf, hwritable⟩ := h _ hset _ hdisk
  exact ⟨f, hdisk, hout, hf, hwritable⟩

/-- The files outside the service's own directories are there, at most padded. -/
def KeepsFiles (g : GadgetController) (fs fs' : Fs) : Prop :=
  ∀ p x, Outside g p → HasFile fs p x → ∃ y, HasFile fs' p y ∧ FileKept x y

theorem keepsFiles_of_lookup (h : ∀ p, Outside g p → fs'.lookup p = fs.lookup p) :
    KeepsFiles g fs fs' := fun p x hp hx => ⟨x, (h p hp).trans hx, fileKept_refl x⟩

theorem KeepsFiles.trans {fs'' : Fs} (h : KeepsFiles g fs fs') (h' : KeepsFiles g fs' fs'') :
    KeepsFiles g fs fs'' := by
  intro p x hp hx
  obtain ⟨y, hy, hxy⟩ := h p x hp hx
  obtain ⟨z, hz, hyz⟩ := h' p y hp hy
  exact ⟨z, hz, hxy.trans hyz⟩

theorem LibraryOk.of_keeps (h : LibraryOk g sets fs) (hkeeps : KeepsFiles g fs fs') :
    LibraryOk g sets fs' := by
  intro set hset d hd
  obtain ⟨hout, f, hf, hwritable⟩ := h set hset d hd
  obtain ⟨y, hy, hkept⟩ := hkeeps _ _ hout hf
  exact ⟨hout, y, hy, hkept.writable.trans hwritable⟩

end

namespace Service

variable {g : GadgetController} {root : Path} {s₀ s t : Service}

/-! ### One request -/

/-- The disk that the Config remembers is in the library, it fits, and the host lets the
medium go. -/
def Remountable (s : Service) : Prop :=
  ¬ locked s.world.lun ∧ ∃ c f, restoreTarget s.sets s.cfg.lastMounted = some c ∧
    HasFile s.world.fs c.disk.1 f ∧ f.contents.size ≤ FLOPPY_SIZE_BYTES

/-- `s₀` is the service after its start. -/
structure Inv (g : GadgetController) (s₀ s : Service) : Prop where
  ok : s.cfg.Ok
  saved : loadConfig s.file = s.cfg
  starts : s.cfg.starts = true
  sets : s.sets = s₀.sets
  speed : s.cfg.speedPreset = s₀.cfg.speedPreset
  backend : s.cfg.backendSettings = { s.backend with speedPreset := s.cfg.speedPreset }
  buzzer : s.buzzer = if s.buzzer.isSome then some s.cfg.buzzerSettings else none
  library : LibraryOk g s.sets s.world.fs
  keeps : KeepsFiles g s₀.world.fs s.world.fs
  mounted : ∀ names, lastMountedOf s.world.current = some names →
    ∃ c f, restoreTarget s.sets s.cfg.lastMounted = some c ∧
      (c.floppySet.name, c.disk.1.name) = names ∧ HasFile s.world.fs c.disk.1 f ∧
        f.contents.size ≤ FLOPPY_SIZE_BYTES

theorem backendSettings_change (cfg : Config) (r : AudioRequest) :
    (r.change.apply cfg).backendSettings = cfg.backendSettings.set r := by
  cases r <;> rfl

theorem buzzerSettings_change (cfg : Config) (r : AudioRequest) :
    (r.change.apply cfg).buzzerSettings = cfg.buzzerSettings.set r := by
  cases r <;> rfl

theorem Inv.persistLastMounted (h : Inv g s₀ s) {w : World} (hkeeps : KeepsFiles g s.world.fs w.fs)
    (hmounted : ∀ set disk, lastMountedOf w.current = some (set, disk) →
      ∃ c f, mountCall s.sets set disk false = some c ∧
        (c.floppySet.name, c.disk.1.name) = (set, disk) ∧ HasFile w.fs c.disk.1 f ∧
          f.contents.size ≤ FLOPPY_SIZE_BYTES) :
    Inv g s₀ (Service.persistLastMounted { s with world := w }) := by
  have hok := Change.apply_ok h.ok (.lastMounted (lastMountedOf w.current))
  have hstarts : ((Change.lastMounted (lastMountedOf w.current)).apply s.cfg).starts = true := by
    have hrest := h.starts
    simp only [Config.starts, Bool.and_eq_true] at hrest
    simp only [Config.starts, Change.apply, Bool.and_eq_true]
    refine ⟨⟨⟨hrest.1.1.1, ?_⟩, hrest.1.2⟩, hrest.2⟩
    cases lastMountedOf w.current <;> rfl
  refine ⟨hok, loadConfig_payload hok, hstarts, h.sets, h.speed, h.backend, h.buzzer,
    h.library.of_keeps hkeeps, h.keeps.trans hkeeps, ?_⟩
  rintro ⟨set, disk⟩ hnames
  obtain ⟨c, f, hc, hrest⟩ := hmounted set disk hnames
  refine ⟨c, f, ?_, hrest⟩
  have hvalue : ((Change.lastMounted (lastMountedOf w.current)).apply s.cfg).lastMounted =
      lastMountedValue (some (set, disk)) := congrArg lastMountedValue hnames
  exact (congrArg (restoreTarget s.sets) hvalue).trans hc

theorem Inv.mount (h : Inv g s₀ s) {set disk : Str} {session : Bool} {c : MountCall}
    {image : MountedImage} (hc : mountCall s.sets set disk session = some c)
    (hreturned : (g.mount s.world c .none).2 = .returned image) :
    Inv g s₀ (Service.persistLastMounted { s with world := (g.mount s.world c .none).1 }) := by
  obtain ⟨hset, hdisk, -, hfound⟩ := mountCall_some hc
  obtain ⟨f, hf⟩ := h.library.disk hset hdisk
  obtain ⟨backing, hcurrent⟩ := mount_returned_current hreturned
  refine h.persistLastMounted (fun p x hp hx => hf.mount_keeps hp hx) fun set disk hnames => ?_
  rw [hcurrent, lastMountedOf] at hnames
  split_ifs at hnames with hsession
  cases hnames
  obtain ⟨y, hy, hkept⟩ := hf.mount_keeps (w := s.world) hf.outside hf.file
  exact ⟨_, y, hfound, rfl, hy, hkept.size.mpr (hf.size_of_returned hreturned)⟩

theorem Inv.eject (h : Inv g s₀ s) (hreturned : (g.eject s.world none).2 = true) :
    Inv g s₀ (Service.persistLastMounted { s with world := (g.eject s.world none).1 }) := by
  have hout := eject_outcome g s.world none
  generalize g.eject s.world none = r at hout hreturned ⊢
  cases hout with
  | refused why => cases hreturned
  | done fault_eq unlocked =>
    refine h.persistLastMounted (keepsFiles_of_lookup fun p hp => lookup_eject s.world.fs hp) ?_
    intro set disk hnames
    cases hnames

theorem Inv.audio (h : Inv g s₀ s) (r : AudioRequest) :
    Inv g s₀ ({ s with
      backend := s.backend.set r
      buzzer := s.buzzer.map fun (b : BuzzerSettings) => b.set r }.persist r.change) := by
  have hok := Change.apply_ok h.ok r.change
  have hstarts := h.starts
  simp only [Config.starts, Bool.and_eq_true] at hstarts
  refine ⟨hok, loadConfig_payload hok, ?_, h.sets, ?_, ?_, ?_, h.library, h.keeps, ?_⟩
  · simp only [Config.starts, Bool.and_eq_true]
    cases r with
    | volume v => exact ⟨hstarts.1, rfl⟩
    | mute m => exact hstarts
    | buzzer e => exact hstarts
  · cases r <;> exact h.speed
  · refine (backendSettings_change s.cfg r).trans ?_
    rw [h.backend]
    cases r <;> rfl
  · have hbuzzer := h.buzzer
    dsimp only [persist]
    cases hb : s.buzzer with
    | none => rfl
    | some b =>
      rw [hb] at hbuzzer
      cases hbuzzer
      exact congrArg some (buzzerSettings_change s.cfg r).symm
  · cases r <;> exact h.mounted

theorem inv_step (h : Inv g s₀ s) {r : Request} (hok : s.Succeeds g r) :
    Inv g s₀ (s.step g r) := by
  cases r with
  | speed preset =>
    have hvalid : preset ∈ VALID_SPEED_PRESETS := hok
    rw [step, if_pos hvalid]
    exact ⟨h.ok, h.saved, h.starts, h.sets, h.speed, h.backend, h.buzzer, h.library,
      h.keeps, h.mounted⟩
  | audio r =>
    have haccepted : r.Accepted := hok
    rw [step, if_pos haccepted]
    exact h.audio r
  | mount set disk session =>
    obtain ⟨c, image, hc, hreturned⟩ := hok
    have hmount := h.mount hc hreturned
    simp only [step, hc]
    generalize g.mount s.world c .none = x at hreturned hmount ⊢
    obtain ⟨w, progress⟩ := x
    cases hreturned
    exact hmount
  | eject =>
    have heject := h.eject hok
    have hreturned : (g.eject s.world none).2 = true := hok
    dsimp only [step]
    generalize g.eject s.world none = x at hreturned heject ⊢
    obtain ⟨w, returned⟩ := x
    cases hreturned
    exact heject
  | host cmd =>
    exact ⟨h.ok, h.saved, h.starts, h.sets, h.speed, h.backend, h.buzzer, h.library,
      h.keeps, h.mounted⟩

theorem step_speed {r : Request} (hok : s.Succeeds g r) :
    (s.step g r).backend.speedPreset =
      ((lastSpeed [r]).map Value.str).getD s.backend.speedPreset := by
  cases r with
  | speed preset =>
    have hvalid : preset ∈ VALID_SPEED_PRESETS := hok
    rw [step, if_pos hvalid]
    rfl
  | audio r =>
    have haccepted : r.Accepted := hok
    rw [step, if_pos haccepted]
    cases r <;> rfl
  | mount set disk session =>
    dsimp only [step]
    split
    · rfl
    · split <;> rfl
  | eject =>
    dsimp only [step]
    split <;> rfl
  | host cmd => rfl

theorem lastSpeed_cons (r : Request) (requests : List Request) :
    lastSpeed (r :: requests) = (lastSpeed requests).or (lastSpeed [r]) := by
  cases r <;> simp [lastSpeed]

theorem run_speed {requests : List Request} (h : Guarded (step g) (Succeeds g) s requests) :
    (run (step g) s requests).backend.speedPreset =
      ((lastSpeed requests).map Value.str).getD s.backend.speedPreset := by
  induction requests generalizing s with
  | nil => rfl
  | cons r requests ih =>
    rw [run_cons, ih h.2, step_speed h.1, lastSpeed_cons r requests]
    cases lastSpeed requests <;> rfl

/-- What the Config remembers and what is mounted are what the last request for a disk has left,
or what they were in `s₀`. -/
def Recalls (s₀ : Service) (last : Option (Option (Str × Str))) (s : Service) : Prop :=
  s.cfg.lastMounted = last.elim s₀.cfg.lastMounted lastMountedValue ∧
    lastMountedOf s.world.current = last.getD (lastMountedOf s₀.world.current)

theorem step_recalls {r : Request} (hok : s.Succeeds g r) :
    Recalls s (lastDisk [r]) (s.step g r) := by
  cases r with
  | speed preset =>
    have hvalid : preset ∈ VALID_SPEED_PRESETS := hok
    rw [step, if_pos hvalid]
    exact ⟨rfl, rfl⟩
  | audio r =>
    have haccepted : r.Accepted := hok
    rw [step, if_pos haccepted]
    cases r <;> exact ⟨rfl, rfl⟩
  | mount set disk session =>
    obtain ⟨c, image, hc, hreturned⟩ := hok
    obtain ⟨hset, hdisk⟩ := mountCall_names hc
    obtain ⟨-, -, hsession, -⟩ := mountCall_some hc
    obtain ⟨backing, hcurrent⟩ := mount_returned_current hreturned
    have hmounted : lastMountedOf (g.mount s.world c .none).1.current =
        if session then none else some (set, disk) := by
      rw [hcurrent, ← hset, ← hdisk, ← hsession]
      rfl
    simp only [step, hc]
    generalize g.mount s.world c .none = x at hreturned hmounted ⊢
    obtain ⟨w, progress⟩ := x
    cases hreturned
    exact ⟨congrArg lastMountedValue hmounted, hmounted⟩
  | eject =>
    have hreturned : (g.eject s.world none).2 = true := hok
    have hout := eject_outcome g s.world none
    dsimp only [step]
    generalize g.eject s.world none = x at hreturned hout ⊢
    cases hout with
    | refused why => cases hreturned
    | done fault_eq unlocked => exact ⟨rfl, rfl⟩
  | host cmd => exact ⟨rfl, rfl⟩

theorem lastDisk_cons (r : Request) (requests : List Request) :
    lastDisk (r :: requests) = (lastDisk requests).or (lastDisk [r]) := by
  cases r <;> simp [lastDisk]

theorem run_recalls {requests : List Request} (h : Guarded (step g) (Succeeds g) s requests) :
    Recalls s (lastDisk requests) (run (step g) s requests) := by
  induction requests generalizing s with
  | nil => exact ⟨rfl, rfl⟩
  | cons r requests ih =>
    obtain ⟨hcfg, hmounted⟩ := ih h.2
    obtain ⟨hcfg', hmounted'⟩ := step_recalls h.1
    rw [run_cons, lastDisk_cons r requests]
    cases hlast : lastDisk requests with
    | none =>
      rw [hlast] at hcfg hmounted
      exact ⟨hcfg.trans hcfg', hmounted.trans hmounted'⟩
    | some names =>
      rw [hlast] at hcfg hmounted
      exact ⟨hcfg, hmounted⟩

/-! ### The restart -/

theorem keepsFiles_restoreMount {sets : List FloppySet} {w : World} (cfg : Config)
    (hlibrary : LibraryOk g sets w.fs) : KeepsFiles g w.fs (restoreMount g sets cfg w).fs := by
  unfold restoreMount
  split
  · exact keepsFiles_of_lookup fun _ _ => rfl
  · rename_i c hc
    obtain ⟨set, disk, hcall⟩ := restoreTarget_some hc
    obtain ⟨hset, hdisk, -, -⟩ := mountCall_some hcall
    obtain ⟨f, hf⟩ := hlibrary.disk hset hdisk
    exact fun p x hp hx => hf.mount_keeps hp hx

theorem restoreMount_current {sets : List FloppySet} {cfg : Config} {w : World} {c : MountCall}
    (hlink : LinkOutside g) (hidle : w.current = none) {f : File}
    (hc : restoreTarget sets cfg.lastMounted = some c) (hf : LibraryDisk g w.fs c f) :
    (restoreMount g sets cfg w).current =
      if ¬ locked w.lun ∧ f.contents.size ≤ FLOPPY_SIZE_BYTES then
        some (c.mounted (backingOf g f c))
      else none := by
  rw [restoreMount, hc]
  exact hf.mount_idle hlink hidle

theorem init_inv {pwm : Bool} {w : World} {text : Option Str} (hlink : LinkOutside g)
    (hlibrary : LibraryOk g (scan w.fs root) w.fs) (hstarts : (loadConfig text).starts = true) :
    Inv g (init g root pwm w text) (init g root pwm w text) := by
  have hkeeps := keepsFiles_restoreMount (w := { w with current := none }) (loadConfig text) hlibrary
  refine ⟨loadConfig_ok text, rfl, hstarts, rfl, rfl, rfl, by cases pwm <;> rfl,
    hlibrary.of_keeps hkeeps, keepsFiles_of_lookup fun _ _ => rfl, fun names hnames => ?_⟩
  dsimp only [init] at hnames ⊢
  cases hc : restoreTarget (scan w.fs root) (loadConfig text).lastMounted with
  | none =>
    rw [restoreMount, hc] at hnames
    cases hnames
  | some c =>
    obtain ⟨set, disk, hcall⟩ := restoreTarget_some hc
    obtain ⟨hset, hdisk, -, -⟩ := mountCall_some hcall
    obtain ⟨f, hf⟩ := hlibrary.disk hset hdisk
    rw [restoreMount_current (w := { w with current := none }) hlink rfl hc hf] at hnames
    split_ifs at hnames with hcan
    · rw [lastMountedOf] at hnames
      split_ifs at hnames
      cases hnames
      obtain ⟨y, hy, hkept⟩ := hkeeps _ _ hf.outside hf.file
      exact ⟨c, y, rfl, rfl, hy, hkept.size.mpr hcan.2⟩
    · cases hnames

theorem remountable_iff {c : MountCall} {f : File} (hf : HasFile s.world.fs c.disk.1 f)
    (hc : restoreTarget s.sets s.cfg.lastMounted = some c) :
    s.Remountable ↔ ¬ locked s.world.lun ∧ f.contents.size ≤ FLOPPY_SIZE_BYTES := by
  refine and_congr_right fun _ => ⟨?_, fun hsize => ⟨c, f, hc, hf, hsize⟩⟩
  rintro ⟨c', f', hc', hf', hsize⟩
  cases hc.symm.trans hc'
  cases hf.symm.trans hf'
  exact hsize

theorem Inv.mounted_iff (h : Inv g s₀ s) (hlink : LinkOutside g) {w : World}
    (hlun : w.lun = s.world.lun) (hidle : w.current = none)
    (hfs : ∀ p, Outside g p → w.fs.lookup p = s.world.fs.lookup p) :
    ((restoreMount g s.sets s.cfg w).current.map (fun m => (m.setName, m.diskFilename)) =
        lastMountedOf s.world.current ∧
      ∀ m, (restoreMount g s.sets s.cfg w).current = some m → m.isSession = false) ↔
      ((lastMountedOf s.world.current).isSome ↔ s.Remountable) := by
  cases hc : restoreTarget s.sets s.cfg.lastMounted with
  | none =>
    have hnot : ¬ s.Remountable := by
      rintro ⟨-, c, f, hc', -⟩
      cases hc.symm.trans hc'
    rw [restoreMount, hc]
    dsimp only
    rw [hidle]
    cases lastMountedOf s.world.current <;> simp [hnot]
  | some c =>
    obtain ⟨set, disk, hcall⟩ := restoreTarget_some hc
    obtain ⟨hset, hdisk, hsession, -⟩ := mountCall_some hcall
    obtain ⟨f, hf⟩ := h.library.disk hset hdisk
    have hf' : LibraryDisk g w.fs c f :=
      ⟨hf.mem, hf.outside, (hfs _ hf.outside).trans hf.file, hf.writable⟩
    rw [restoreMount_current hlink hidle hc hf', hlun, remountable_iff hf.file hc]
    split_ifs with hcan
    · cases hold : lastMountedOf s.world.current with
      | none => simp [hcan]
      | some names =>
        obtain ⟨c', -, hc', rfl, -⟩ := h.mounted names hold
        cases hc.symm.trans hc'
        refine iff_of_true ⟨rfl, ?_⟩ (iff_of_true rfl hcan)
        rintro m ⟨⟩
        exact hsession
    · cases lastMountedOf s.world.current <;> simp [hcan]

theorem Inv.restart_eq (h : Inv g s₀ s) (hsets : scan (g.shutdown s.world).fs root = s.sets) :
    s.restart g root = some
      { world := restoreMount g s.sets s.cfg { g.shutdown s.world with current := none }
        sets := s.sets
        cfg := s.cfg
        file := s.file
        backend := s.cfg.backendSettings
        buzzer := s.buzzer } := by
  rw [restart, buildRuntime, h.saved, if_pos h.starts, init, h.saved, hsets]
  dsimp only
  rw [← h.buzzer]

theorem Inv.backend_iff (h : Inv g s₀ s) :
    s.cfg.backendSettings = s.backend ↔ s.backend.speedPreset = s₀.cfg.speedPreset := by
  rw [h.backend, h.speed]
  constructor
  · intro heq
    exact (congrArg BackendSettings.speedPreset heq).symm
  · intro heq
    rw [← heq]

theorem Inv.restored_iff (h : Inv g s₀ s) (hlink : LinkOutside g)
    (hsets : scan (g.shutdown s.world).fs root = s.sets) :
    (∃ t, s.restart g root = some t ∧ Restored s t) ↔
      s.backend.speedPreset = s₀.cfg.speedPreset ∧
        ((lastMountedOf s.world.current).isSome ↔ s.Remountable) := by
  rw [h.restart_eq hsets, ← h.backend_iff, ← h.mounted_iff hlink
    (w := { g.shutdown s.world with current := none }) rfl rfl fun p hp => ?_]
  · constructor
    · rintro ⟨t, ht, hrestored⟩
      cases ht
      exact ⟨hrestored.backend, hrestored.mounted, hrestored.session⟩
    · rintro ⟨hbackend, hmounted, hsession⟩
      exact ⟨_, rfl, hbackend, rfl, hmounted, hsession⟩
  · dsimp only [GadgetController.shutdown]
    rw [lookup_cleanupSession, if_neg hp.session]

end Service

/-- The disk that is remembered is mounted just when it can be mounted again, as far as the
door allows it. -/
theorem Service.Inv.door_iff {g : GadgetController} {root : Path} {pwm : Bool} {w : World}
    {text : Option Str} {s : Service} {last : Option (Option (Str × Str))} (hlink : LinkOutside g)
    (hlibrary : LibraryOk g (scan w.fs root) w.fs)
    (h : Service.Inv g (.init g root pwm w text) s)
    (hrecalls : Service.Recalls (.init g root pwm w text) last s) :
    ((lastMountedOf s.world.current).isSome ↔ s.Remountable) ↔
      DoorAllows root w text s.world.lun last := by
  obtain ⟨hcfg, hcurrent⟩ := hrecalls
  cases last with
  | some names =>
    cases names with
    | none =>
      have hnot : ¬ s.Remountable := by
        rintro ⟨-, c, f, hc, -⟩
        rw [hcfg] at hc
        cases hc
      rw [hcurrent]
      exact iff_of_true (iff_of_false Bool.false_ne_true hnot) trivial
    | some names =>
      -- it was mounted in this run, so only the door can be in the way
      obtain ⟨c, f, hc, -, hf, hsize⟩ := h.mounted names hcurrent
      rw [hcurrent, Service.remountable_iff hf hc]
      exact ⟨fun hmounted => (hmounted.mp rfl).1, fun hdoor => iff_of_true rfl ⟨hdoor, hsize⟩⟩
  | none =>
    -- nothing was asked for: both starts try the disk of the file
    have hlast : s.cfg.lastMounted = (loadConfig text).lastMounted := hcfg
    have hstart : lastMountedOf s.world.current =
        lastMountedOf (restoreMount g (scan w.fs root) (loadConfig text)
          { w with current := none }).current := hcurrent
    have hsets : s.sets = scan w.fs root := h.sets
    rw [hstart]
    cases hc : restoreTarget (scan w.fs root) (loadConfig text).lastMounted with
    | none =>
      have hnot : ¬ s.Remountable := by
        rintro ⟨-, c, f, hc', -⟩
        rw [hsets, hlast, hc] at hc'
        cases hc'
      rw [restoreMount, hc]
      refine iff_of_true (iff_of_false Bool.false_ne_true hnot) fun c f hc' => ?_
      cases hc.symm.trans hc'
    -- a mount may have padded the disk meanwhile, which does not change whether it fits
    | some c =>
      obtain ⟨set, disk, hcall⟩ := restoreTarget_some hc
      obtain ⟨hset, hdisk, hsession, -⟩ := mountCall_some hcall
      obtain ⟨f, hf⟩ := hlibrary.disk hset hdisk
      have hkeeps := (keepsFiles_restoreMount (w := { w with current := none }) (loadConfig text)
        hlibrary).trans h.keeps
      obtain ⟨y, hy, hkept⟩ := hkeeps _ _ hf.outside hf.file
      have hc' : restoreTarget s.sets s.cfg.lastMounted = some c := by rw [hsets, hlast, hc]
      have hdoor : DoorAllows root w text s.world.lun none ↔
          (f.contents.size ≤ FLOPPY_SIZE_BYTES → (locked w.lun ↔ locked s.world.lun)) := by
        refine ⟨fun hall => hall c f hc hf.file, fun hsame c' f' hc' hf' => ?_⟩
        cases hc.symm.trans hc'
        cases hf.file.symm.trans hf'
        exact hsame
      rw [Service.restoreMount_current (w := { w with current := none }) hlink rfl hc hf,
        Service.remountable_iff hy hc', hkept.size, hdoor]
      by_cases hsize : f.contents.size ≤ FLOPPY_SIZE_BYTES
      · by_cases hopen : locked w.lun <;>
          simp [hsize, hopen, lastMountedOf, MountCall.mounted, hsession]
      · simp [hsize, lastMountedOf]

/-- After requests that succeed, a restart restores what the user set exactly when the preset
last asked for, if any, is that of the file, and the host holds the medium in the drive at
neither start, or at both if no disk was asked for in between. -/
theorem restart_restores_iff {g : GadgetController} {root : Path} {pwm : Bool} {w : World}
    {text : Option Str} {s : Service} (hlink : LinkOutside g)
    (hlibrary : LibraryOk g (scan w.fs root) w.fs)
    (hbuilt : buildRuntime g root pwm w text = some s) {requests : List Request}
    (hok : Guarded (Service.step g) (Service.Succeeds g) s requests)
    (hsets : scan (g.shutdown (run (Service.step g) s requests).world).fs root = s.sets) :
    (∃ t, (run (Service.step g) s requests).restart g root = some t ∧
        (run (Service.step g) s requests).Restored t) ↔
      (∀ preset, lastSpeed requests = some preset → (loadConfig text).speedPreset = .str preset) ∧
        DoorAllows root w text (run (Service.step g) s requests).world.lun (lastDisk requests) := by
  have hspeed := Service.run_speed hok
  have hrecalls := Service.run_recalls hok
  unfold buildRuntime at hbuilt
  split_ifs at hbuilt with hstarts
  cases hbuilt
  have hinv : Service.Inv g (.init g root pwm w text) (run (Service.step g) _ requests) :=
    run_invariant
      (fun (s : Service) r (h : Service.Inv g (.init g root pwm w text) s) hok =>
        Service.inv_step h hok)
      (Service.init_inv hlink hlibrary hstarts) hok
  rw [hinv.restored_iff hlink (hsets.trans hinv.sets.symm), hspeed,
    hinv.door_iff hlink hlibrary hrecalls]
  refine and_congr_left fun _ => ?_
  cases lastSpeed requests with
  | none => exact iff_of_true rfl fun preset h => by cases h
  | some preset =>
    constructor
    · rintro heq _ ⟨⟩
      exact heq.symm
    · intro h
      exact (h preset rfl).symm

def sampleRoot : Path := ⟨"/home/pi".toList, "floppies".toList, slash_not_mem_floppies⟩

/-- The service without a Config file, in a library of one disk. -/
def sampleService : Service := .init sampleController sampleRoot true emptyDrive none

theorem sampleLibrary_ok :
    LibraryOk sampleController (scan emptyDrive.fs sampleRoot) emptyDrive.fs := by
  intro set hset d hd
  have hsets : ∀ set ∈ scan emptyDrive.fs sampleRoot, ∀ d ∈ set.disks, d = sampleDisk := by
    decide +kernel
  cases hsets set hset d hd
  refine ⟨⟨by decide, ?_⟩, _, rfl, rfl⟩
  rintro link ⟨⟩

theorem sampleLink_outside : LinkOutside sampleController := by
  rintro link ⟨⟩

/-- A disk is mounted and the volume set. -/
theorem restart_restores_iff_example :
    ∃ t, (run (Service.step sampleController) sampleService
        [.mount "games".toList "Disk1.IMG".toList false, .audio (.volume 30)]).restart
          sampleController sampleRoot = some t ∧
      (run (Service.step sampleController) sampleService
        [.mount "games".toList "Disk1.IMG".toList false, .audio (.volume 30)]).Restored t := by
  have hbuilt : buildRuntime sampleController sampleRoot true emptyDrive none =
      some sampleService := rfl
  have haccepted : (AudioRequest.volume 30).Accepted := by decide
  have hok : Guarded (Service.step sampleController) (Service.Succeeds sampleController)
      sampleService
      [.mount "games".toList "Disk1.IMG".toList false, .audio (.volume 30)] :=
    ⟨⟨_, _, rfl, rfl⟩, haccepted, trivial⟩
  refine (restart_restores_iff sampleLink_outside sampleLibrary_ok hbuilt hok
    (by decide +kernel)).mpr ⟨?_, ?_⟩
  · rintro preset ⟨⟩
  · change ¬ locked _
    decide +kernel

/-- The preset is changed, and the start after that takes the one from before. -/
theorem speed_preset_forgotten :
    buildRuntime sampleController sampleRoot true emptyDrive none = some sampleService ∧
      Guarded (Service.step sampleController) (Service.Succeeds sampleController) sampleService
        [.speed "floppy-fast".toList] ∧
      scan (sampleController.shutdown (run (Service.step sampleController) sampleService
        [.speed "floppy-fast".toList]).world).fs sampleRoot = sampleService.sets ∧
      ¬ ∃ t, (run (Service.step sampleController) sampleService
            [.speed "floppy-fast".toList]).restart sampleController sampleRoot = some t ∧
          (run (Service.step sampleController) sampleService
            [.speed "floppy-fast".toList]).Restored t := by
  have hvalid : "floppy-fast".toList ∈ VALID_SPEED_PRESETS := by decide
  refine ⟨rfl, ⟨hvalid, trivial⟩, by decide +kernel, ?_⟩
  rintro ⟨t, ht, hrestored⟩
  have hpreset : some t.backend.speedPreset = some (.str "floppy-real".toList) :=
    congrArg (Option.map fun (t : Service) => t.backend.speedPreset) ht.symm
  have hlast : t.backend.speedPreset = .str "floppy-fast".toList :=
    congrArg BackendSettings.speedPreset hrestored.backend
  rw [hlast] at hpreset
  injection hpreset with hvalue
  injection hvalue with htext
  revert htext
  decide

end UsbFloppy.Core

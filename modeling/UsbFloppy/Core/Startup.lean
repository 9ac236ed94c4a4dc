import UsbFloppy.Core.Restart

/-! What build_runtime does with the values of the Config, which may be any JSON values, and the
exceptions it lets through. The attributes of the kernel module and the files are inputs. -/

namespace UsbFloppy.Core
open Json Files Kernel Gadget Storage

inductive Exn
  | attributeError
  | typeError
  | valueError
  | osError
  | recursionError
  deriving DecidableEq

/-- Why `json.loads` gives up on what may be a document: an integer has too many digits, which
is a ValueError, or it nests too deep, which is a RecursionError. -/
inductive Overflow
  | digits
  | depth
  deriving DecidableEq

/-- The limits of the interpreter, and its floats. -/
structure Interpreter where
  overflow : Str → Option Overflow
  /-- the float is in 0..100 -/
  inRange : Literal → Bool
  /-- formatting a record with these arguments is a RecursionError -/
  tooDeep : List Value → Bool
  tooDeep_flat : ∀ args, (∀ v ∈ args, hashable v = true) → tooDeep args = false

/-- The writes to attributes that raise an OSError, and the errors of the restoring mount. -/
structure StartFaults where
  mount : MountFaults
  speedPreset : Bool
  volume : Bool
  mute : Bool
  buzzer : Bool

def INFO : ℤ := 20

def WARNING : ℤ := 30

namespace Interpreter

variable (py : Interpreter)

/-- The members of the object in the file, if it is one. -/
def document (text : Option Str) : List (Str × Value) :=
  match text with
  | none => []
  | some t =>
    match py.overflow t, loads t with
    | none, some (.obj data) => data
    | _, _ => []

/-- The values of the file, and the defaults where it has none. -/
def config (text : Option Str) : Config := .ofData (py.document text)

/-- `load_config`. -/
def loadConfig (text : Option Str) : Except Exn Config :=
  match text with
  | none => .ok defaultConfig
  | some t =>
    match py.overflow t with
    | some .depth => .error .recursionError
    -- a ValueError is caught
    | some .digits => .ok defaultConfig
    | none => .ok (Core.loadConfig (some t))

/-- A call of the logger. Only a RecursionError leaves its handler. -/
def log (level severity : ℤ) (args : List Value) : Except Exn Unit :=
  if level ≤ severity ∧ py.tooDeep args = true then .error .recursionError else .ok ()

/-- The root logger has no handler yet. -/
def basicConfig (level : Value) : Except Exn ℤ :=
  match rootLevel level, level with
  | some n, _ => .ok n
  | none, .str _ => .error .valueError
  | none, _ => .error .typeError

/-- An exception of the mount is logged. -/
def restoreLastMounted (g : GadgetController) (sets : List FloppySet) (e : MountFaults) (level : ℤ)
    (w : World) : Value → Except Exn World
  | .null => .ok w
  | .obj data => do
    let w : World :=
      match restoreTarget sets (.obj data) with
      | none => w
      | some c => (g.mount w c e).1
    if w.current = none then
      py.log level INFO [get data "set" .null, get data "disk" .null]
    return w
  -- no get
  | _ => .error .attributeError

/-- A body in a `try`, and what is done about the exceptions that are caught. -/
def attempt (body : Except Exn Unit) (caught : List Exn) (handler : Except Exn Unit) :
    Except Exn Unit :=
  match body with
  | .ok () => .ok ()
  | .error e => if e ∈ caught then handler else .error e

/-- `preset in VALID_SPEED_PRESETS`. -/
def isPreset : Value → Bool
  | .str s => s ∈ VALID_SPEED_PRESETS
  | _ => false

def setSpeedPreset (preset : Value) (fails : Bool) : Except Exn Unit :=
  if hashable preset = false then .error .typeError
  else if isPreset preset = false then .error .valueError
  else if fails then .error .osError
  else .ok ()

/-- `0 <= volume <= 100`, of what can be compared. -/
def volumeInRange : Value → Bool
  | .bool _ => true
  | .int n => 0 ≤ n ∧ n ≤ 100
  | .float x => py.inRange x
  | _ => false

def setVolume (volume : Value) (fails : Bool) : Except Exn Unit :=
  if comparable volume = false then .error .typeError
  else if py.volumeInRange volume = false then .error .valueError
  else if fails then .error .osError
  else .ok ()

/-- `set_mute` and `set_buzzer_enabled`. Every value has a truth value. -/
def setFlag (fails : Bool) : Except Exn Unit := if fails then .error .osError else .ok ()

/-- The volume is clamped, and then logged with the other settings. -/
def buildAudioLoop (level : ℤ) (cfg : Config) : Except Exn Unit :=
  if comparable cfg.volume = false then .error .typeError
  else py.log level INFO [cfg.volume, cfg.mute, cfg.buzzerEnabled]

/-- The settings are applied to the backend and to the buzzer; `pwm` is whether the PWM channel
is there. -/
def applySettings (level : ℤ) (pwm : Bool) (e : StartFaults) (cfg : Config) : Except Exn Unit := do
  attempt (setSpeedPreset cfg.speedPreset e.speedPreset) [.valueError, .osError]
    (py.log level WARNING [cfg.speedPreset])
  attempt (py.setVolume cfg.volume e.volume) [.valueError, .osError]
    (py.log level WARNING [cfg.volume])
  attempt (setFlag e.mute) [.osError] (py.log level WARNING [cfg.mute])
  attempt (setFlag e.buzzer) [.osError] (py.log level WARNING [cfg.buzzerEnabled])
  if pwm then py.buildAudioLoop level cfg

def buildRuntime (g : GadgetController) (sets : List FloppySet) (pwm : Bool) (e : StartFaults)
    (w : World) (text : Option Str) : Except Exn (World × Config) := do
  let cfg ← py.loadConfig text
  let level ← basicConfig cfg.logLevel
  let w ← py.restoreLastMounted g sets e.mount level { w with current := none } cfg.lastMounted
  py.applySettings level pwm e cfg
  return (w, cfg)

/-- The arguments of a record can be formatted, if it is logged at all. -/
def Shows (cfg : Config) (severity : ℤ) (args : List Value) : Prop :=
  ∀ level, rootLevel cfg.logLevel = some level → level ≤ severity → py.tooDeep args = false

/-- What the file must be like for the service to start. -/
structure Startable (pwm : Bool) (e : StartFaults) (text : Option Str) : Prop where
  scanned : ∀ t, text = some t → py.overflow t ≠ some .depth
  starts : (py.config text).starts = true
  missing : ∀ data, (py.config text).lastMounted = .obj data →
    py.Shows (py.config text) INFO [get data "set" .null, get data "disk" .null]
  mute : e.mute = true → py.Shows (py.config text) WARNING [(py.config text).mute]
  buzzer : e.buzzer = true → py.Shows (py.config text) WARNING [(py.config text).buzzerEnabled]
  audio : pwm = true → py.Shows (py.config text) INFO
    [(py.config text).volume, (py.config text).mute, (py.config text).buzzerEnabled]

/-! ### What each use needs -/

variable {py} {level severity : ℤ} {v : Value}

theorem bind_ok {α β : Type} {x : Except Exn α} {f : α → Except Exn β} {b : β} :
    x >>= f = .ok b ↔ ∃ a, x = .ok a ∧ f a = .ok b := by
  rcases x with e | a
  · constructor
    · intro h
      cases h
    · rintro ⟨a, h, -⟩
      cases h
  · constructor
    · intro h
      exact ⟨a, rfl, h⟩
    · rintro ⟨a', h, hb⟩
      cases h
      exact hb

theorem starts_iff {cfg : Config} :
    cfg.starts = true ↔ (∃ level, rootLevel cfg.logLevel = some level) ∧
      (isNull cfg.lastMounted || isDict cfg.lastMounted) = true ∧
      hashable cfg.speedPreset = true ∧ comparable cfg.volume = true := by
  simp only [Config.starts, Bool.and_eq_true, Option.isSome_iff_exists, and_assoc]

theorem loadConfig_returns (py : Interpreter) (text : Option Str) (cfg : Config) :
    py.loadConfig text = .ok cfg ↔
      (∀ t, text = some t → py.overflow t ≠ some .depth) ∧ cfg = py.config text := by
  have hok (c : Config) : (Except.ok c : Except Exn Config) = .ok cfg ↔ cfg = c := by
    rw [Except.ok.injEq, eq_comm]
  have hdefault : defaultConfig = .ofData [] := rfl
  rcases text with _ | t
  · simp [loadConfig, config, document, hok, hdefault]
  · simp only [loadConfig, config, document, Option.some.injEq, forall_eq']
    rcases py.overflow t with _ | (_ | _)
    · rw [Core.loadConfig, Option.bind_some]
      rcases loads t with _ | (_ | _ | _ | _ | _ | _ | _ | _ | _) <;> simp [hok, hdefault]
    · simp [hok, hdefault]
    · simp

theorem basicConfig_returns (n : ℤ) : basicConfig v = .ok n ↔ rootLevel v = some n := by
  unfold basicConfig
  split
  · simp_all
  · simp_all
  · simp_all

theorem log_returns (args : List Value) :
    py.log level severity args = .ok () ↔ (level ≤ severity → py.tooDeep args = false) := by
  unfold log
  split_ifs with h
  · simp [h]
  · simpa using h

theorem log_flat (hv : hashable v = true) : py.log level severity [v] = .ok () :=
  (log_returns [v]).mpr fun _ => py.tooDeep_flat [v] (List.forall_mem_singleton.mpr hv)

theorem attempt_speedPreset (fails : Bool) :
    attempt (setSpeedPreset v fails) [.valueError, .osError] (py.log level WARNING [v]) = .ok () ↔
      hashable v = true := by
  unfold setSpeedPreset
  split_ifs with hv <;> simp_all [attempt, log_flat]

theorem restoreTarget_of_tooDeep {data : List (Str × Value)} (sets : List FloppySet)
    (h : py.tooDeep [get data "set" .null, get data "disk" .null] = true) :
    restoreTarget sets (.obj data) = none := by
  simp only [restoreTarget]
  split
  · rename_i set disk hset hdisk
    have hflat : ∀ v ∈ [Value.str set, .str disk], hashable v = true := by
      simp [hashable]
    rw [hset, hdisk, py.tooDeep_flat _ hflat] at h
    cases h
  · rfl

theorem restore_eq (g : GadgetController) (sets : List FloppySet) (e : MountFaults) (w : World)
    (hlast : (isNull v || isDict v) = true)
    (hshows : ∀ data, v = .obj data → level ≤ INFO →
      py.tooDeep [get data "set" .null, get data "disk" .null] = false) :
    py.restoreLastMounted g sets e level w v = .ok
      (match restoreTarget sets v with
      | none => w
      | some c => (g.mount w c e).1) := by
  rcases v with _ | _ | _ | _ | _ | _ | _ | _ | data
  case null => rfl
  case obj =>
    simp only [restoreLastMounted]
    rw [(log_returns _).mpr (hshows data rfl)]
    split_ifs <;> rfl
  all_goals cases hlast

theorem restore_returns (g : GadgetController) (sets : List FloppySet) (e : MountFaults) {w : World}
    (hw : w.current = none) :
    (∃ w', py.restoreLastMounted g sets e level w v = .ok w') ↔
      (isNull v || isDict v) = true ∧ ∀ data, v = .obj data → level ≤ INFO →
        py.tooDeep [get data "set" .null, get data "disk" .null] = false := by
  constructor
  · rintro ⟨w', h⟩
    rcases v with _ | _ | _ | _ | _ | _ | _ | _ | data
    case null => exact ⟨rfl, fun data hdata => by cases hdata⟩
    case obj =>
      refine ⟨rfl, fun data' hdata hlevel => ?_⟩
      cases hdata
      by_contra hdeep
      rw [Bool.not_eq_false] at hdeep
      have hlog : py.log level INFO [get data "set" .null, get data "disk" .null] =
          .error .recursionError := if_pos ⟨hlevel, hdeep⟩
      simp only [restoreLastMounted] at h
      rw [restoreTarget_of_tooDeep sets hdeep, if_pos hw, hlog] at h
      cases h
    all_goals cases h
  · rintro ⟨hlast, hshows⟩
    exact ⟨_, restore_eq g sets e w hlast hshows⟩

theorem attempt_volume (fails : Bool) :
    attempt (py.setVolume v fails) [.valueError, .osError] (py.log level WARNING [v]) = .ok () ↔
      comparable v = true := by
  have hflat (hv : comparable v = true) : hashable v = true := by
    cases v <;> first | rfl | cases hv
  unfold setVolume
  split_ifs with hv <;> simp_all [attempt, log_flat]

theorem attempt_flag (fails : Bool) :
    attempt (setFlag fails) [.osError] (py.log level WARNING [v]) = .ok () ↔
      (fails = true → level ≤ WARNING → py.tooDeep [v] = false) := by
  unfold setFlag
  split_ifs with hfails
  · simp [attempt, log_returns, hfails]
  · simp [attempt, hfails]

theorem audioLoop_returns (cfg : Config) :
    py.buildAudioLoop level cfg = .ok () ↔ comparable cfg.volume = true ∧
      (level ≤ INFO → py.tooDeep [cfg.volume, cfg.mute, cfg.buzzerEnabled] = false) := by
  unfold buildAudioLoop
  split_ifs with hv
  · simp [hv]
  · simp [hv, log_returns]

theorem seq_ok {x y : Except Exn Unit} : (x >>= fun _ => y) = .ok () ↔ x = .ok () ∧ y = .ok () := by
  rw [bind_ok]
  constructor
  · rintro ⟨_, hx, hy⟩
    exact ⟨hx, hy⟩
  · rintro ⟨hx, hy⟩
    exact ⟨(), hx, hy⟩

theorem applySettings_returns (pwm : Bool) (e : StartFaults) (cfg : Config) :
    py.applySettings level pwm e cfg = .ok () ↔
      hashable cfg.speedPreset = true ∧ comparable cfg.volume = true ∧
        (e.mute = true → level ≤ WARNING → py.tooDeep [cfg.mute] = false) ∧
        (e.buzzer = true → level ≤ WARNING → py.tooDeep [cfg.buzzerEnabled] = false) ∧
        (pwm = true → level ≤ INFO →
          py.tooDeep [cfg.volume, cfg.mute, cfg.buzzerEnabled] = false) := by
  unfold applySettings
  simp only [seq_ok, attempt_speedPreset, attempt_volume, attempt_flag]
  refine and_congr_right fun _ => and_congr_right fun hvolume => ?_
  refine and_congr_right fun _ => and_congr_right fun _ => ?_
  split_ifs with hpwm
  · simp [audioLoop_returns, hvolume, hpwm]
  · simp [hpwm]
    rfl

/-! ### The whole start -/

theorem buildRuntime_ok_iff {g : GadgetController} {sets : List FloppySet} {pwm : Bool}
    {e : StartFaults} {w w' : World} {text : Option Str} {cfg : Config} :
    py.buildRuntime g sets pwm e w text = .ok (w', cfg) ↔
      (∀ t, text = some t → py.overflow t ≠ some .depth) ∧ cfg = py.config text ∧
        ∃ level, rootLevel cfg.logLevel = some level ∧
          py.restoreLastMounted g sets e.mount level { w with current := none } cfg.lastMounted =
            .ok w' ∧
          py.applySettings level pwm e cfg = .ok () := by
  constructor
  · intro h
    obtain ⟨cfg', hcfg, h⟩ := bind_ok.mp h
    obtain ⟨level, hlevel, h⟩ := bind_ok.mp h
    obtain ⟨w'', hrestore, h⟩ := bind_ok.mp h
    obtain ⟨_, hsettings, h⟩ := bind_ok.mp h
    cases h
    obtain ⟨hscanned, hconfig⟩ := (loadConfig_returns py text cfg).mp hcfg
    exact ⟨hscanned, hconfig, level, (basicConfig_returns level).mp hlevel, hrestore, hsettings⟩
  · rintro ⟨hscanned, hconfig, level, hlevel, hrestore, hsettings⟩
    refine bind_ok.mpr ⟨cfg, (loadConfig_returns _ _ _).mpr ⟨hscanned, hconfig⟩, ?_⟩
    refine bind_ok.mpr ⟨level, (basicConfig_returns level).mpr hlevel, ?_⟩
    exact bind_ok.mpr ⟨w', hrestore, bind_ok.mpr ⟨(), hsettings, rfl⟩⟩

/-- The service starts on exactly these files. -/
theorem buildRuntime_returns_iff (py : Interpreter) (g : GadgetController) (sets : List FloppySet)
    (pwm : Bool) (e : StartFaults) (w : World) (text : Option Str) :
    (∃ r, py.buildRuntime g sets pwm e w text = .ok r) ↔ py.Startable pwm e text := by
  constructor
  · rintro ⟨⟨w', cfg⟩, h⟩
    obtain ⟨hscanned, rfl, level, hlevel, hrestore, hsettings⟩ := buildRuntime_ok_iff.mp h
    obtain ⟨hlast, hmissing⟩ := (restore_returns g sets e.mount rfl).mp ⟨w', hrestore⟩
    obtain ⟨hpreset, hvolume, hmute, hbuzzer, haudio⟩ := (applySettings_returns _ _ _).mp hsettings
    have hshows {severity : ℤ} {args : List Value} (h : level ≤ severity → py.tooDeep args = false) :
        py.Shows (py.config text) severity args := by
      intro level' hlevel'
      cases hlevel.symm.trans hlevel'
      exact h
    refine ⟨hscanned, ?_, fun data hdata => hshows (hmissing data hdata),
      fun h => hshows (hmute h), fun h => hshows (hbuzzer h), fun h => hshows (haudio h)⟩
    simp [Config.starts, hlevel, hlast, hpreset, hvolume]
  · intro h
    obtain ⟨⟨level, hlevel⟩, hlast, hpreset, hvolume⟩ := starts_iff.mp h.starts
    have hrestore : ∃ w', py.restoreLastMounted g sets e.mount level { w with current := none }
        (py.config text).lastMounted = .ok w' :=
      (restore_returns g sets e.mount rfl).mpr
        ⟨hlast, fun data hdata => h.missing data hdata level hlevel⟩
    obtain ⟨w', hrestore⟩ := hrestore
    have hsettings : py.applySettings level pwm e (py.config text) = .ok () :=
      (applySettings_returns _ _ _).mpr ⟨hpreset, hvolume, fun he => h.mute he level hlevel,
        fun he => h.buzzer he level hlevel, fun hpwm => h.audio hpwm level hlevel⟩
    exact ⟨(w', _), buildRuntime_ok_iff.mpr ⟨h.scanned, rfl, level, hlevel, hrestore, hsettings⟩⟩

end Interpreter

/-- An interpreter without limits, for which no float is in the range. -/
def boundless : Interpreter where
  overflow _ := none
  inRange _ := false
  tooDeep _ := false
  tooDeep_flat _ _ := rfl

def raised {α : Type} : Except Exn α → Option Exn
  | .ok _ => none
  | .error e => some e

/-- A null for the volume is a TypeError. -/
theorem null_volume_stops_start :
    raised (boundless.buildRuntime sampleController [] false ⟨.none, false, false, false, false⟩
      emptyDrive (some "\x7b\"volume\": null\x7d".toList)) = some .typeError := by
  decide +kernel

/-- So is a name that is no log level a ValueError. -/
example : raised (boundless.buildRuntime sampleController [] false
    ⟨.none, false, false, false, false⟩ emptyDrive
      (some "\x7b\"log_level\": \"verbose\"\x7d".toList)) = some .valueError := by
  decide +kernel

/-! ### The start of a service that runs -/

theorem config_boundless (text : Option Str) : boundless.config text = loadConfig text := by
  have hdefault : defaultConfig = .ofData [] := rfl
  rcases text with _ | t
  · exact hdefault.symm
  · simp only [Interpreter.config, Interpreter.document, boundless, loadConfig, Option.bind_some]
    rcases loads t with _ | (_ | _ | _ | _ | _ | _ | _ | _ | _) <;> simp [hdefault]

/-- Without limits and faults this is the start that a restart repeats. -/
theorem buildRuntime_boundless {g : GadgetController} {root : Path} {pwm : Bool} {w : World}
    {text : Option Str} {s : Service} (h : buildRuntime g root pwm w text = some s) :
    boundless.buildRuntime g (scan w.fs root) pwm ⟨.none, false, false, false, false⟩ w text =
      .ok (s.world, s.cfg) := by
  unfold buildRuntime at h
  split_ifs at h with hstarts
  cases h
  obtain ⟨⟨level, hlevel⟩, hlast, hpreset, hvolume⟩ := Interpreter.starts_iff.mp hstarts
  have hsettings : boundless.applySettings level pwm ⟨.none, false, false, false, false⟩
      (loadConfig text) = .ok () :=
    (Interpreter.applySettings_returns _ _ _).mpr
      ⟨hpreset, hvolume, fun _ _ => rfl, fun _ _ => rfl, fun _ _ => rfl⟩
  refine Interpreter.buildRuntime_ok_iff.mpr
    ⟨fun t _ => nofun, (config_boundless text).symm, level, hlevel, ?_, hsettings⟩
  exact Interpreter.restore_eq g _ _ _ hlast fun _ _ _ => rfl

end UsbFloppy.Core

import UsbFloppy.Lib.Json.Document

/-! Config of config.py. Nothing checks the type of a field, so a field holds whatever value
the file has for it. -/

namespace UsbFloppy.Core
open Json

structure Config where
  mute : Value
  buzzerVolume : Value
  lastMounted : Value
  sambaShareName : Value
  logLevel : Value
  speedPreset : Value
  volume : Value
  buzzerEnabled : Value

def Config.asdict (cfg : Config) : List (Str × Value) :=
  [("mute".toList, cfg.mute), ("buzzer_volume".toList, cfg.buzzerVolume),
    ("last_mounted".toList, cfg.lastMounted), ("samba_share_name".toList, cfg.sambaShareName),
    ("log_level".toList, cfg.logLevel), ("speed_preset".toList, cfg.speedPreset),
    ("volume".toList, cfg.volume), ("buzzer_enabled".toList, cfg.buzzerEnabled)]

def defaultBuzzerVolume : Literal where
  token := ⟨"0".toList, ".6".toList, []⟩
  isFloat := rfl
  valid := ⟨Or.inl (Or.inl rfl),
    Or.inr ⟨"6".toList, ⟨List.cons_ne_nil _ _, List.forall_mem_singleton.mpr rfl⟩, rfl⟩, Or.inl rfl⟩

def defaultConfig : Config where
  mute := .bool false
  buzzerVolume := .float defaultBuzzerVolume
  lastMounted := .null
  sambaShareName := .str "floppies".toList
  logLevel := .str "INFO".toList
  speedPreset := .str "floppy-real".toList
  volume := .int 70
  buzzerEnabled := .bool true

/-- The text that `save_config` writes. -/
def Config.payload (cfg : Config) : Str := dumps (.obj cfg.asdict)

def get (data : List (Str × Value)) (key : String) (default : Value) : Value :=
  ((data.find? fun m => m.1 = key.toList).map Prod.snd).getD default

/-- The defaults, with the known keys of the data in their place. -/
def Config.ofData (data : List (Str × Value)) : Config where
  mute := get data "mute" defaultConfig.mute
  buzzerVolume := get data "buzzer_volume" defaultConfig.buzzerVolume
  lastMounted := get data "last_mounted" defaultConfig.lastMounted
  sambaShareName := get data "samba_share_name" defaultConfig.sambaShareName
  logLevel := get data "log_level" defaultConfig.logLevel
  speedPreset := get data "speed_preset" defaultConfig.speedPreset
  volume := get data "volume" defaultConfig.volume
  buzzerEnabled := get data "buzzer_enabled" defaultConfig.buzzerEnabled

/-- `load_config` of a file with this text; none if it is missing or no text. -/
def loadConfig (text : Option Str) : Config :=
  match text.bind loads with
  | some (.obj data) => .ofData data
  -- missing, not JSON, or not an object
  | _ => defaultConfig

/-- Every field can be written and read back. -/
def Config.Ok (cfg : Config) : Prop := ∀ m ∈ cfg.asdict, m.2.Ok

theorem Config.asdict_ok {cfg : Config} (h : cfg.Ok) : (Value.obj cfg.asdict).Ok := by
  have hkeys : cfg.asdict.map Prod.fst = defaultConfig.asdict.map Prod.fst := rfl
  refine ⟨?_, okMembers_iff.mpr h⟩
  rw [hkeys]
  decide

/-- What is saved is loaded. -/
theorem loadConfig_payload {cfg : Config} (h : cfg.Ok) : loadConfig (some cfg.payload) = cfg := by
  have hloads : (some cfg.payload).bind loads = some (.obj cfg.asdict) :=
    loads_dumps (Config.asdict_ok h)
  rw [loadConfig, hloads]
  rfl

theorem defaultConfig_ok : defaultConfig.Ok := by
  intro m hm
  simp only [Config.asdict, List.mem_cons, List.not_mem_nil, or_false] at hm
  obtain rfl | rfl | rfl | rfl | rfl | rfl | rfl | rfl := hm <;> trivial

theorem get_ok {data : List (Str × Value)} (hdata : ∀ m ∈ data, m.2.Ok) (key : String)
    {default : Value} (hdefault : default.Ok) : (get data key default).Ok := by
  unfold get
  cases hfind : data.find? fun m => m.1 = key.toList with
  | none => exact hdefault
  | some m => exact hdata m (List.mem_of_find?_eq_some hfind)

/-- Whatever the file says, what is loaded can be saved. -/
theorem loadConfig_ok (text : Option Str) : (loadConfig text).Ok := by
  unfold loadConfig
  split
  · rename_i data hdata
    obtain ⟨t, -, ht⟩ := Option.bind_eq_some_iff.mp hdata
    have hmembers := okMembers_iff.mp (loads_ok ht).2
    intro m hm
    simp only [Config.asdict, List.mem_cons, List.not_mem_nil, or_false] at hm
    obtain rfl | rfl | rfl | rfl | rfl | rfl | rfl | rfl := hm <;> exact get_ok hmembers _ trivial
  · exact defaultConfig_ok

/-- What `_persist_last_mounted` and `_persist_audio_change` assign. -/
inductive Change
  | lastMounted (setAndDisk : Option (Str × Str))
  | volume (v : ℤ)
  | mute (b : Bool)
  | buzzerEnabled (b : Bool)
  deriving DecidableEq

def lastMountedValue : Option (Str × Str) → Value
  | none => .null
  | some (set, disk) => .obj [("set".toList, .str set), ("disk".toList, .str disk)]

def Change.apply (cfg : Config) : Change → Config
  | .lastMounted m => { cfg with lastMounted := lastMountedValue m }
  | .volume v => { cfg with volume := .int v }
  | .mute b => { cfg with mute := .bool b }
  | .buzzerEnabled b => { cfg with buzzerEnabled := .bool b }

theorem lastMountedValue_ok (m : Option (Str × Str)) : (lastMountedValue m).Ok := by
  cases m with
  | none => trivial
  | some m =>
    have hkeys : ["set".toList, "disk".toList].Nodup := by decide
    exact ⟨hkeys, trivial, trivial, trivial⟩

theorem Change.apply_ok {cfg : Config} (h : cfg.Ok) (c : Change) : (c.apply cfg).Ok := by
  unfold Config.Ok Config.asdict at h ⊢
  simp only [List.forall_mem_cons] at h ⊢
  obtain ⟨hmute, hbv, hlast, hname, hlevel, hspeed, hvolume, henabled, hnil⟩ := h
  cases c with
  | lastMounted m =>
    exact ⟨hmute, hbv, lastMountedValue_ok m, hname, hlevel, hspeed, hvolume, henabled, hnil⟩
  | volume v => exact ⟨hmute, hbv, hlast, hname, hlevel, hspeed, trivial, henabled, hnil⟩
  | mute b => exact ⟨trivial, hbv, hlast, hname, hlevel, hspeed, hvolume, henabled, hnil⟩
  | buzzerEnabled b => exact ⟨hmute, hbv, hlast, hname, hlevel, hspeed, hvolume, trivial, hnil⟩

end UsbFloppy.Core

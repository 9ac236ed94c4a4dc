import UsbFloppy.Lib.Run
import UsbFloppy.Audio.Buzzer
import UsbFloppy.Core.Config

/-! The endpoints post_volume, post_mute and post_buzzer, in worker threads: each sets the
backend, then the live buzzer, then the Config. -/

namespace UsbFloppy.Web
open Json Audio UsbFloppy.Core Transition

inductive AudioRequest
  | volume (volume : ℤ)
  | mute (mute : Bool)
  | buzzer (enabled : Bool)
  deriving DecidableEq, Repr

/-- The settings that the buzzer and the Config both hold. -/
inductive AudioField
  | volume
  | mute
  | enabled
  deriving DecidableEq, Repr

namespace AudioRequest

def field : AudioRequest → AudioField
  | .volume _ => .volume
  | .mute _ => .mute
  | .buzzer _ => .enabled

def value : AudioRequest → Value
  | .volume v => .int v
  | .mute b => .bool b
  | .buzzer b => .bool b

/-- A volume out of range is answered with status 400 at once. -/
def Accepted : AudioRequest → Prop
  | .volume v => 0 ≤ v ∧ v ≤ 100
  | _ => True

/-- `_hot_reload_audio`, which swallows an OSError. -/
def hotReload (b : SysfsPWMBuzzer) (fails : Bool) : AudioRequest → SysfsPWMBuzzer
  | .volume v => b.setVolume v
  | .mute m => b.setMute m fails
  | .buzzer e => b.setEnabled e fails

/-- What `_persist_audio_change` assigns. -/
def change : AudioRequest → Change
  | .volume v => .volume v
  | .mute m => .mute m
  | .buzzer e => .buzzerEnabled e

instance : DecidablePred Accepted
  | .volume v => inferInstanceAs (Decidable (0 ≤ v ∧ v ≤ 100))
  | .mute _ => isTrue trivial
  | .buzzer _ => isTrue trivial

end AudioRequest

def live (b : SysfsPWMBuzzer) : AudioField → Value
  | .volume => .int b.volume
  | .mute => .bool b.mute
  | .enabled => .bool b.enabled

def persisted (cfg : Config) : AudioField → Value
  | .volume => cfg.volume
  | .mute => cfg.mute
  | .enabled => cfg.buzzerEnabled

/-- The calls that a request has behind it. -/
inductive AudioStage
  | accepted
  | backendSet
  | hotReloaded
  deriving DecidableEq, Repr

/-- `requests` are those in flight. -/
structure AudioState where
  buzzer : SysfsPWMBuzzer
  cfg : Config
  requests : ℕ → Option (AudioRequest × AudioStage)

inductive AudioStep
  | post (i : ℕ) (r : AudioRequest)
  | backendSet (i : ℕ) (fails : Bool)
  | hotReload (i : ℕ) (fails : Bool)
  | persist (i : ℕ)
  deriving DecidableEq, Repr

namespace AudioState

variable (s : AudioState)

def setRequest (i : ℕ) (r : Option (AudioRequest × AudioStage)) : AudioState :=
  { s with requests := Function.update s.requests i r }

def step : AudioStep → AudioState
  | .post i r =>
    if s.requests i = none ∧ r.Accepted then s.setRequest i (some (r, .accepted)) else s
  | .backendSet i fails =>
    match s.requests i with
    | some (r, .accepted) => s.setRequest i (if fails then none else some (r, .backendSet))
    | _ => s
  | .hotReload i fails =>
    match s.requests i with
    | some (r, .backendSet) =>
      { s with buzzer := r.hotReload s.buzzer fails }.setRequest i (some (r, .hotReloaded))
    | _ => s
  | .persist i =>
    match s.requests i with
    | some (r, .hotReloaded) => { s with cfg := r.change.apply s.cfg }.setRequest i none
    | _ => s

/-- When no request is in flight, the buzzer and the Config agree. -/
def Agree : Prop :=
  (∀ i, s.requests i = none) → ∀ field, persisted s.cfg field = live s.buzzer field

/-- A request that will persist this value of the field. -/
def Pending (field : AudioField) (value : Value) (i : ℕ) : Prop :=
  ∃ r, s.requests i = some (r, .hotReloaded) ∧ r.field = field ∧ r.value = value

end AudioState

/-- For each setting the request that was hot-reloaded last. -/
abbrev Reloads := AudioField → Option AudioRequest

def noteReload (last : Reloads) (s : AudioState) : AudioStep → Reloads
  | .hotReload i _ =>
    match s.requests i with
    | some (r, .backendSet) => Function.update last r.field (some r)
    | _ => last
  | _ => last

/-- The service beside the order of its hot reloads. -/
def audioStep : AudioState × Reloads → AudioStep → AudioState × Reloads :=
  watched AudioState.step noteReload

/-- A request that persists asks for what the last reload of its setting asked for, or
another one that does has yet to persist. -/
def InOrder (p : AudioState × Reloads) : AudioStep → Prop
  | .persist i =>
    ∀ r, p.1.requests i = some (r, .hotReloaded) →
      ∃ l ∈ p.2 r.field, r.value = l.value ∨ ∃ j ≠ i, p.1.Pending r.field l.value j
  | _ => True

/-! ### One call -/

/-- The hot reload makes the value live, whether or not it raises. -/
theorem live_hotReload {r : AudioRequest} (hr : r.Accepted) (b : SysfsPWMBuzzer) (fails : Bool)
    (field : AudioField) :
    live (r.hotReload b fails) field = if field = r.field then r.value else live b field := by
  cases r with
  | volume v =>
    have hclamp : clampVolume v = v := by
      have hrange : 0 ≤ v ∧ v ≤ 100 := hr
      unfold clampVolume
      omega
    cases field with
    | volume => exact congrArg Value.int hclamp
    | mute => rfl
    | enabled => rfl
  | mute m => cases m <;> cases fails <;> cases field <;> rfl
  | buzzer e => cases e <;> cases fails <;> cases field <;> rfl

theorem persisted_change (r : AudioRequest) (cfg : Config) (field : AudioField) :
    persisted (r.change.apply cfg) field = if field = r.field then r.value else persisted cfg field := by
  cases r <;> cases field <;> rfl

/-! ### Whole runs -/

namespace AudioState

structure Inv (s : AudioState) : Prop where
  accepted : ∀ i r stage, s.requests i = some (r, stage) → r.Accepted
  agrees : ∀ field, persisted s.cfg field = live s.buzzer field ∨
    ∃ i, s.Pending field (live s.buzzer field) i

variable {s : AudioState}

theorem Inv.agree (h : Inv s) : s.Agree := by
  intro hidle field
  obtain hagree | ⟨i, r, hi, -⟩ := h.agrees field
  · exact hagree
  · rw [hidle i] at hi
    cases hi

theorem Inv.setRequest (h : Inv s) {i : ℕ} {x : Option (AudioRequest × AudioStage)}
    (hi : ∀ r, s.requests i ≠ some (r, .hotReloaded))
    (hx : ∀ r stage, x = some (r, stage) → r.Accepted) : Inv (s.setRequest i x) where
  accepted j r stage hj := by
    obtain ⟨-, hx'⟩ | ⟨-, hj⟩ := update_eq_some hj
    · exact hx r stage hx'
    · exact h.accepted j r stage hj
  agrees field := by
    refine (h.agrees field).imp_right ?_
    rintro ⟨j, r, hj, hr⟩
    have hji : j ≠ i := by
      rintro rfl
      exact hi r hj
    exact ⟨j, r, (Function.update_of_ne hji _ _).trans hj, hr⟩

theorem inv_hotReload (h : Inv s) {i : ℕ} {r : AudioRequest} (hi : s.requests i = some (r, .backendSet))
    (fails : Bool) :
    Inv ({ s with buzzer := r.hotReload s.buzzer fails }.setRequest i (some (r, .hotReloaded))) := by
  have hr := h.accepted i r _ hi
  refine ⟨?_, ?_⟩
  · intro j r' stage hj
    obtain ⟨-, hx⟩ | ⟨-, hj⟩ := update_eq_some hj
    · cases hx
      exact hr
    · exact h.accepted j r' stage hj
  · intro field
    by_cases hfield : field = r.field
    · refine Or.inr ⟨i, r, Function.update_self _ _ _, hfield.symm, ?_⟩
      exact ((live_hotReload hr s.buzzer fails field).trans (if_pos hfield)).symm
    · have hlive := (live_hotReload hr s.buzzer fails field).trans (if_neg hfield)
      refine (h.agrees field).imp (fun hagree => hagree.trans hlive.symm) ?_
      rintro ⟨j, r', hj, hr', hvalue⟩
      have hji : j ≠ i := by
        rintro rfl
        cases hi.symm.trans hj
      exact ⟨j, r', (Function.update_of_ne hji _ _).trans hj, hr', hvalue.trans hlive.symm⟩

theorem inv_persist (h : Inv s) {i : ℕ} {r : AudioRequest}
    (hi : s.requests i = some (r, .hotReloaded))
    (hok : r.value = live s.buzzer r.field ∨
      ∃ j ≠ i, s.Pending r.field (live s.buzzer r.field) j) :
    Inv ({ s with cfg := r.change.apply s.cfg }.setRequest i none) := by
  refine ⟨?_, ?_⟩
  · intro j r' stage hj
    obtain ⟨-, hx⟩ | ⟨-, hj⟩ := update_eq_some hj
    · cases hx
    · exact h.accepted j r' stage hj
  · intro field
    -- what is pending in another request stays pending
    have hkeep : ∀ j ≠ i, s.Pending field (live s.buzzer field) j →
        ∃ j, ({ s with cfg := r.change.apply s.cfg }.setRequest i none).Pending field
          (live s.buzzer field) j := by
      rintro j hj ⟨r', hj', hr'⟩
      exact ⟨j, r', (Function.update_of_ne hj _ _).trans hj', hr'⟩
    have hpersisted := persisted_change r s.cfg field
    by_cases hfield : field = r.field
    · subst hfield
      refine hok.imp (fun hvalue => (hpersisted.trans (if_pos rfl)).trans hvalue) ?_
      rintro ⟨j, hj, hpending⟩
      exact hkeep j hj hpending
    · refine (h.agrees field).imp (fun hagree => (hpersisted.trans (if_neg hfield)).trans hagree) ?_
      rintro ⟨j, r', hj', hr', hvalue⟩
      have hji : j ≠ i := by
        rintro rfl
        cases hi.symm.trans hj'
        exact hfield hr'.symm
      exact hkeep j hji ⟨r', hj', hr', hvalue⟩

theorem inv_step (h : Inv s) {x : AudioStep}
    (hok : ∀ i r, x = .persist i → s.requests i = some (r, .hotReloaded) →
      r.value = live s.buzzer r.field ∨
        ∃ j ≠ i, s.Pending r.field (live s.buzzer r.field) j) : Inv (s.step x) := by
  cases x with
  | post i r =>
    dsimp only [step]
    split_ifs with hpost
    · refine h.setRequest (fun r' hr' => ?_) ?_
      · rw [hpost.1] at hr'
        cases hr'
      · rintro r' stage ⟨⟩
        exact hpost.2
    · exact h
  | backendSet i fails =>
    dsimp only [step]
    split
    · rename_i r hi
      refine h.setRequest (fun r' hr' => ?_) fun r' stage hx => ?_
      · cases hi.symm.trans hr'
      · split_ifs at hx
        cases hx
        exact h.accepted i r _ hi
    · exact h
  | hotReload i fails =>
    dsimp only [step]
    split
    · rename_i r hi
      exact inv_hotReload h hi fails
    · exact h
  | persist i =>
    dsimp only [step]
    split
    · rename_i r hi
      exact inv_persist h hi (hok i r rfl hi)
    · exact h

theorem step_buzzer (s : AudioState) {x : AudioStep} (hx : ∀ i fails, x ≠ .hotReload i fails) :
    (s.step x).buzzer = s.buzzer := by
  cases x with
  | hotReload i fails => exact absurd rfl (hx i fails)
  | post | backendSet | persist => dsimp only [step]; split <;> rfl

end AudioState

/-- What is live is what the last reload asked for. -/
structure Watching (p : AudioState × Reloads) : Prop where
  inv : p.1.Inv
  last : ∀ field, ∀ l ∈ p.2 field, l.value = live p.1.buzzer field

theorem Watching.last_step {p : AudioState × Reloads} (h : Watching p) (x : AudioStep) :
    ∀ field, ∀ l ∈ noteReload p.2 p.1 x field, l.value = live (p.1.step x).buzzer field := by
  intro field l hl
  cases x with
  | hotReload i fails =>
    dsimp only [AudioState.step, noteReload] at hl ⊢
    rcases hi : p.1.requests i with _ | ⟨r, _ | _ | _⟩ <;> simp only [hi] at hl ⊢
    case some.backendSet =>
      have hlive := live_hotReload (h.inv.accepted i r _ hi) p.1.buzzer fails field
      by_cases hfield : field = r.field
      · subst hfield
        rw [Function.update_self, Option.mem_some_iff] at hl
        exact (hl ▸ rfl : l.value = r.value).trans (hlive.trans (if_pos rfl)).symm
      · rw [Function.update_of_ne hfield] at hl
        exact (h.last field l hl).trans (hlive.trans (if_neg hfield)).symm
    all_goals exact h.last field l hl
  | post | backendSet | persist =>
    rw [p.1.step_buzzer (fun _ _ hx => by cases hx)]
    exact h.last field l hl

theorem watching_step {p : AudioState × Reloads} {x : AudioStep} (h : Watching p)
    (hok : InOrder p x) : Watching (audioStep p x) := by
  refine ⟨AudioState.inv_step h.inv ?_, h.last_step x⟩
  rintro i r rfl hi
  obtain ⟨l, hl, hvalue⟩ := hok r hi
  rwa [h.last r.field l hl] at hvalue

/-- The service after its start: the buzzer is built from the Config. -/
def startAudio (cfg : Config) (volume : ℤ) (mute enabled pwmEnable : Bool) : AudioState :=
  ⟨.init volume mute enabled pwmEnable, cfg, fun _ => none⟩

theorem startAudio_inv {cfg : Config} {volume : ℤ} {mute enabled : Bool} (pwmEnable : Bool)
    (hvolume : cfg.volume = .int volume) (hmute : cfg.mute = .bool mute)
    (henabled : cfg.buzzerEnabled = .bool enabled) (hrange : 0 ≤ volume ∧ volume ≤ 100) :
    (startAudio cfg volume mute enabled pwmEnable).Inv where
  accepted i r stage hi := by cases hi
  agrees field := by
    have hclamp : clampVolume volume = volume := by
      unfold clampVolume
      omega
    refine Or.inl ?_
    cases field with
    | volume => exact hvolume.trans (congrArg Value.int hclamp.symm)
    | mute => exact hmute
    | enabled => exact henabled

/-- As long as no request persists after a later reload has been persisted, the live
settings and the persisted ones agree whenever no request is in flight. -/
theorem audio_settings_agree {cfg : Config} {volume : ℤ} {mute enabled : Bool} (pwmEnable : Bool)
    (hvolume : cfg.volume = .int volume) (hmute : cfg.mute = .bool mute)
    (henabled : cfg.buzzerEnabled = .bool enabled) (hrange : 0 ≤ volume ∧ volume ≤ 100)
    {steps : List AudioStep}
    (hok : Guarded audioStep InOrder (startAudio cfg volume mute enabled pwmEnable, fun _ => none)
      steps) :
    Throughout audioStep (fun p => p.1.Agree)
      (startAudio cfg volume mute enabled pwmEnable, fun _ => none) steps := by
  have hstart : Watching (startAudio cfg volume mute enabled pwmEnable, fun _ => none) :=
    ⟨startAudio_inv pwmEnable hvolume hmute henabled hrange, fun _ _ hl => by cases hl⟩
  have hinv : Throughout audioStep Watching _ steps :=
    throughout_invariant (fun _ _ h hok => watching_step h hok) hstart hok
  exact hinv.mono fun _ h => h.inv.agree

/-- Two volumes cross, and the one reloaded last persists last. Muting fails in the backend. -/
theorem audio_settings_agree_example :
    Throughout audioStep (fun p => p.1.Agree)
      (startAudio defaultConfig 70 false true false, fun _ => none)
      [.post 0 (.volume 30), .post 1 (.volume 90), .post 2 (.mute true), .backendSet 1 false,
        .backendSet 0 false, .hotReload 1 false, .hotReload 0 false, .persist 1,
        .backendSet 2 true, .persist 0] := by
  apply audio_settings_agree false rfl rfl rfl (by decide)
  refine ⟨trivial, trivial, trivial, trivial, trivial, trivial, trivial, ?_, trivial, ?_, trivial⟩
  · rintro r ⟨⟩
    exact ⟨.volume 30, rfl, Or.inr ⟨0, by decide, .volume 30, rfl, rfl, rfl⟩⟩
  · rintro r ⟨⟩
    exact ⟨.volume 30, rfl, Or.inl rfl⟩

/-- Two requests reload in one order and persist in the other: 90 is heard, 30 is kept. -/
theorem audio_settings_cross :
    ¬ Throughout AudioState.step AudioState.Agree (startAudio defaultConfig 70 false true false)
      [.post 0 (.volume 30), .post 1 (.volume 90), .backendSet 0 false, .backendSet 1 false,
        .hotReload 0 false, .hotReload 1 false, .persist 1, .persist 0] := by
  intro h
  have hidle : ∀ i, (run AudioState.step (startAudio defaultConfig 70 false true false)
      [.post 0 (.volume 30), .post 1 (.volume 90), .backendSet 0 false, .backendSet 1 false,
        .hotReload 0 false, .hotReload 1 false, .persist 1, .persist 0]).requests i = none := by
    rintro (_ | _ | i) <;> rfl
  have hagree := h _ List.prefix_rfl hidle .volume
  have hvalues : Value.int 30 = Value.int 90 := hagree
  cases hvalues

end UsbFloppy.Web

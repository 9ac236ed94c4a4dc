import UsbFloppy.Lib.Run
import UsbFloppy.Kernel.Throttle

/-! The speed-preset attribute, call by call: what it accepts, and what it shows. -/

namespace UsbFloppy.Kernel
open Transition

/-! ### The loops of set_preset -/

/-- The buffer after the first newline in it was overwritten. -/
def cutNewline : Text → Text
  | [] => []
  | c :: cs => if c = '\n' then [] else c :: cutNewline cs

/-- The loop over `PRESETS`: the value returned, and the state. -/
def setPresetLoop (st : FloppyThrottleState) (clean : Text) :
    List FloppyThrottlePreset → ℤ × FloppyThrottleState
  | [] => (-22, st)
  | p :: ps => if clean = p.name then (0, st.apply p) else setPresetLoop st clean ps

def FloppyThrottleState.setPreset (st : FloppyThrottleState) (name : Text) :
    ℤ × FloppyThrottleState :=
  let (n, clean) := strscpy 32 name
  if sizeT n ≥ 32 - 1 then (-22, st) else setPresetLoop st (cutNewline clean) presets

/-- `floppy_throttle_show_preset`. -/
def floppyThrottleShowPreset (st : FloppyThrottleState) : Text :=
  match presets.find? fun p =>
    st.readKbps = p.readKbps ∧ st.writeKbps = p.writeKbps ∧ st.seekUs = p.seekUs with
  | some p => p.name ++ ['\n']
  | none => "custom\n".toList

/-- A write to the attribute, or a request that passes the throttle. -/
inductive ThrottleCall
  | setPreset (name : Text)
  | on (r : IoRequest)
  deriving DecidableEq

def throttleStep (st : FloppyThrottleState) : ThrottleCall → FloppyThrottleState
  | .setPreset name => (st.setPreset name).2
  | .on r => (floppyThrottleOn st r).1

/-! ### The grammar -/

/-- The part before the first newline. -/
def firstLine (name : Text) : Text := name.takeWhile fun c => c ≠ '\n'

def PresetGrammar (name : Text) : Prop :=
  name.length ≤ 30 ∧ firstLine name ∈ presets.map FloppyThrottlePreset.name

instance (name : Text) : Decidable (PresetGrammar name) := inferInstanceAs (Decidable (_ ∧ _))

/-- The name accepted last. -/
def lastAccepted (calls : List ThrottleCall) : Text :=
  calls.foldl (fun last call =>
    match call with
    | .setPreset name => if PresetGrammar name then firstLine name else last
    | .on _ => last) floppyReal.name

variable {st : FloppyThrottleState} {name : Text}

theorem cutNewline_eq (t : Text) : cutNewline t = firstLine t := by
  induction t with
  | nil => rfl
  | cons c cs ih =>
    unfold cutNewline firstLine
    by_cases hc : c = '\n'
    · simp [hc]
    · simp [hc, ih, firstLine]

theorem setPresetLoop_eq (st : FloppyThrottleState) (clean : Text) (ps : List FloppyThrottlePreset) :
    setPresetLoop st clean ps =
      ((ps.find? fun p => p.name = clean).map fun p => ((0 : ℤ), st.apply p)).getD (-22, st) := by
  induction ps with
  | nil => rfl
  | cons p ps ih =>
    unfold setPresetLoop
    by_cases hp : clean = p.name
    · rw [if_pos hp, List.find?_cons_of_pos (by simpa using hp.symm)]
      rfl
    · have hp' : ¬ p.name = clean := fun h => hp h.symm
      rw [if_neg hp, ih, List.find?_cons_of_neg (by simpa using hp')]

/-- The length that is tested is that of the string, up to 30 characters; beyond them it is 31,
or the negative code as an unsigned number. -/
theorem sizeT_strscpy_iff (name : Text) : sizeT (strscpy 32 name).1 ≥ 32 - 1 ↔ 30 < name.length := by
  unfold strscpy
  split_ifs with hfit
  · unfold sizeT
    omega
  · have hnegative : sizeT (-7) ≥ 32 - 1 := by decide
    exact iff_of_true hnegative (by omega)

theorem strscpy_short (h : name.length ≤ 30) : (strscpy 32 name).2 = name := by
  unfold strscpy
  rw [if_pos (by omega)]

theorem setPreset_eq (st : FloppyThrottleState) (name : Text) : st.setPreset name =
    if name.length ≤ 30 then
      ((presets.find? fun p => p.name = firstLine name).map fun p => ((0 : ℤ), st.apply p)).getD
        (-22, st)
    else (-22, st) := by
  unfold FloppyThrottleState.setPreset
  dsimp only
  by_cases hlen : name.length ≤ 30
  · rw [if_neg (mt (sizeT_strscpy_iff name).mp (not_lt.mpr hlen)), if_pos hlen, strscpy_short hlen,
      cutNewline_eq, setPresetLoop_eq]
  · rw [if_pos ((sizeT_strscpy_iff name).mpr (not_le.mp hlen)), if_neg hlen]

/-- The loops do what the search does. -/
theorem setPreset_eq_result (st : FloppyThrottleState) (name : Text) : st.setPreset name =
    match floppyThrottleSetPreset st name with
    | .ok st' => (0, st')
    | .error _ => (-22, st) := by
  unfold FloppyThrottleState.setPreset floppyThrottleSetPreset
  dsimp only
  split_ifs with hlong
  · rfl
  · rw [setPresetLoop_eq, cutNewline_eq]
    unfold firstLine
    cases presets.find? fun p => p.name = (strscpy 32 name).2.takeWhile fun c => c ≠ '\n' <;> rfl

theorem setPreset_accepts (st : FloppyThrottleState) (h : PresetGrammar name) :
    ∃ p ∈ presets, p.name = firstLine name ∧ st.setPreset name = (0, st.apply p) := by
  obtain ⟨hlen, hname⟩ := h
  obtain ⟨q, hq, hqname⟩ := List.mem_map.mp hname
  have hsome : (presets.find? fun p => p.name = firstLine name).isSome := by
    rw [List.find?_isSome]
    exact ⟨q, hq, decide_eq_true hqname⟩
  obtain ⟨p, hp⟩ := Option.isSome_iff_exists.mp hsome
  refine ⟨p, List.mem_of_find?_eq_some hp, by simpa using List.find?_some hp, ?_⟩
  rw [setPreset_eq, if_pos hlen, hp]
  rfl

theorem setPreset_rejects (st : FloppyThrottleState) (h : ¬ PresetGrammar name) :
    st.setPreset name = (-22, st) := by
  rw [setPreset_eq]
  split_ifs with hlen
  · have hnone : presets.find? (fun p => p.name = firstLine name) = none := by
      rw [List.find?_eq_none]
      intro p hp hname
      exact h ⟨hlen, List.mem_map.mpr ⟨p, hp, of_decide_eq_true hname⟩⟩
    rw [hnone]
    rfl
  · rfl

theorem setPreset_lastTrack (st : FloppyThrottleState) (name : Text) :
    (st.setPreset name).2.lastTrack = st.lastTrack := by
  by_cases h : PresetGrammar name
  · obtain ⟨p, -, -, hset⟩ := setPreset_accepts st h
    rw [hset]
    rfl
  · rw [setPreset_rejects st h]

/-! ### Runs -/

/-- The numbers of the state are those of the preset. -/
def FloppyThrottleState.Has (st : FloppyThrottleState) (p : FloppyThrottlePreset) : Prop :=
  st.readKbps = p.readKbps ∧ st.writeKbps = p.writeKbps ∧ st.seekUs = p.seekUs

theorem floppyThrottleOn_has {p : FloppyThrottlePreset} (h : st.Has p) (r : IoRequest) :
    (floppyThrottleOn st r).1.Has p := by
  unfold floppyThrottleOn floppyThrottleOnWrite floppyThrottleOnRead applyIoDelay
  split_ifs <;> exact h

theorem show_of_has {p : FloppyThrottlePreset} (hp : p ∈ presets) (h : st.Has p) :
    floppyThrottleShowPreset st = p.name ++ ['\n'] := by
  obtain ⟨hread, hwrite, hseek⟩ := h
  unfold floppyThrottleShowPreset
  rw [hread, hwrite, hseek]
  have hfirst : ∀ p ∈ presets, presets.find? (fun q =>
      p.readKbps = q.readKbps ∧ p.writeKbps = q.writeKbps ∧ p.seekUs = q.seekUs) = some p := by
    decide
  rw [hfirst p hp]

theorem lastAccepted_concat (calls : List ThrottleCall) (call : ThrottleCall) :
    lastAccepted (calls ++ [call]) =
      match call with
      | .setPreset name => if PresetGrammar name then firstLine name else lastAccepted calls
      | .on _ => lastAccepted calls := by
  unfold lastAccepted
  rw [List.foldl_concat]

/-- The numbers are those of the preset accepted last. -/
theorem run_has (calls : List ThrottleCall) :
    ∃ p ∈ presets, p.name = lastAccepted calls ∧ (run throttleStep floppyThrottleInit calls).Has p := by
  induction calls using List.reverseRecOn with
  | nil => exact ⟨floppyReal, List.mem_cons_self, rfl, rfl, rfl, rfl⟩
  | append_singleton calls call ih =>
    obtain ⟨p, hp, hname, hhas⟩ := ih
    rw [run_append, lastAccepted_concat, run_cons, run_nil]
    cases call with
    | setPreset name =>
      dsimp only [throttleStep]
      by_cases h : PresetGrammar name
      · obtain ⟨q, hq, hqname, hset⟩ :=
          setPreset_accepts (run throttleStep floppyThrottleInit calls) h
        rw [hset, if_pos h]
        exact ⟨q, hq, hqname, rfl, rfl, rfl⟩
      · rw [setPreset_rejects _ h, if_neg h]
        exact ⟨p, hp, hname, hhas⟩
    | on r => exact ⟨p, hp, hname, floppyThrottleOn_has hhas r⟩

/-- In every state reached the attribute takes exactly its grammar, refuses the rest without a
change, and shows the name accepted last. -/
theorem preset_attribute (calls : List ThrottleCall) :
    let st := run throttleStep floppyThrottleInit calls
    (∀ name, ((st.setPreset name).1 = 0 ↔
        name.length ≤ 30 ∧ firstLine name ∈ presets.map FloppyThrottlePreset.name) ∧
      ((st.setPreset name).1 ≠ 0 → st.setPreset name = (-22, st)) ∧
      (st.setPreset name).2.lastTrack = st.lastTrack) ∧
    floppyThrottleShowPreset st = lastAccepted calls ++ ['\n'] ∧
    floppyThrottleShowPreset st ≠ "custom\n".toList := by
  intro st
  have hshow : floppyThrottleShowPreset st = lastAccepted calls ++ ['\n'] ∧
      floppyThrottleShowPreset st ≠ "custom\n".toList := by
    obtain ⟨p, hp, hname, hhas⟩ := run_has calls
    have hnames : ∀ p ∈ presets, p.name ++ ['\n'] ≠ "custom\n".toList := by decide
    rw [show_of_has hp hhas, hname]
    exact ⟨rfl, hname ▸ hnames p hp⟩
  refine ⟨fun name => ?_, hshow⟩
  by_cases h : PresetGrammar name
  · obtain ⟨p, -, -, hset⟩ := setPreset_accepts st h
    have hzero : (st.setPreset name).1 = 0 := by rw [hset]
    exact ⟨iff_of_true hzero h, fun hne => absurd hzero hne, setPreset_lastTrack st name⟩
  · have hset := setPreset_rejects st h
    have hne : (st.setPreset name).1 ≠ 0 := by
      rw [hset]
      simp
    exact ⟨iff_of_false hne h, fun _ => hset, setPreset_lastTrack st name⟩

end UsbFloppy.Kernel

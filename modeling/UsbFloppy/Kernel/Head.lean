import UsbFloppy.Kernel.Preset

/-! The two hooks do_read and do_write call before a transfer: the throttle, which
sleeps for a seek, and the tracker, which counts crossings. Each remembers a head
position of its own. -/

namespace UsbFloppy.Kernel
open Transition

/-- The states of both modules, and whether a request has been served. -/
structure Head where
  throttle : FloppyThrottleState
  events : FloppyIoEventState
  served : Bool
  deriving DecidableEq, Repr

def headInit : Head := ⟨floppyThrottleInit, floppyIoEventInit, false⟩

inductive HeadEvent
  /-- A write to `speed_preset`. -/
  | preset (name : Text)
  /-- A transfer about to start. -/
  | request (r : IoRequest)
  deriving DecidableEq, Repr

/-- The hooks in the order do_read and do_write call them. -/
def headStep (s : Head) : HeadEvent → Head
  | .preset name =>
    match floppyThrottleSetPreset s.throttle name with
    | .ok st => { s with throttle := st }
    | .error _ => s
  | .request r =>
    { throttle := (floppyThrottleOn s.throttle r).1
      events := r.record s.events
      served := true }

/-- The throttle sleeps for a seek before the request. -/
def sleepsSeek (s : Head) (r : IoRequest) : Prop := (floppyThrottleOn s.throttle r).2.seek.isSome

/-- The tracker counts a crossing between the previous request and this one. -/
def countsStep (s : Head) (r : IoRequest) : Prop := 0 < crossingsBetween s.events r.lba

instance (s : Head) (r : IoRequest) : Decidable (sleepsSeek s r) :=
  inferInstanceAs (Decidable (_ = true))

instance (s : Head) (r : IoRequest) : Decidable (countsStep s r) :=
  inferInstanceAs (Decidable (0 < crossingsBetween s.events r.lba))

/-- Both modules see the same step, for a request after the first under a preset with a
seek time. -/
def HeadsAgree (s : Head) : HeadEvent → Prop
  | .preset _ => True
  | .request r => s.served → 0 < s.throttle.seekUs → (sleepsSeek s r ↔ countsStep s r)

instance (s : Head) : (e : HeadEvent) → Decidable (HeadsAgree s e)
  | .preset _ => isTrue trivial
  | .request r => inferInstanceAs (Decidable
      (s.served → 0 < s.throttle.seekUs → (sleepsSeek s r ↔ countsStep s r)))

/-! ### The requests and presets so far -/

/-- The preset a write to the attribute selects. -/
def selectedPreset (name : Text) : Option FloppyThrottlePreset :=
  if name.length ≤ 30 then presets.find? fun p => p.name = firstLine name else none

/-- The rate for the direction of the request. -/
def FloppyThrottlePreset.kbps (p : FloppyThrottlePreset) (r : IoRequest) : UInt32 :=
  if r.isWrite then p.writeKbps else p.readKbps

/-- The preset has a rate for the direction of the request, or a seek time. -/
def FloppyThrottlePreset.Delays (p : FloppyThrottlePreset) (r : IoRequest) : Prop :=
  ¬ (p.kbps r = 0 ∧ p.seekUs = 0)

instance (p : FloppyThrottlePreset) (r : IoRequest) : Decidable (p.Delays r) :=
  inferInstanceAs (Decidable (¬ _))

/-- What was asked of the two modules, whatever they made of it. -/
structure Past where
  served : Bool
  /-- The preset selected last. -/
  preset : FloppyThrottlePreset
  /-- The last request made under a preset that delays it. -/
  delayed : Option IoRequest
  /-- The last request of at least one block. -/
  counted : Option IoRequest
  /-- The blocks of all requests together. -/
  blocks : ℕ
  deriving DecidableEq, Repr

def Past.init : Past := ⟨false, floppyReal, none, none, 0⟩

def Past.next (past : Past) : HeadEvent → Past
  | .preset name => { past with preset := (selectedPreset name).getD past.preset }
  | .request r =>
    { served := true
      preset := past.preset
      delayed := if past.preset.Delays r then some r else past.delayed
      counted := if r.nblocks ≠ 0 then some r else past.counted
      blocks := past.blocks + r.nblocks.toNat }

/-- The last delayed request began on the track the last counted one ended on, or the
request starts on neither track. A block count that is a multiple of `2 ^ 64`, as at the
start, reads as no request at all. -/
def SameTrack (past : Past) : HeadEvent → Prop
  | .preset _ => True
  | .request r => past.served → 0 < past.preset.seekUs →
    if past.blocks % 2 ^ 64 = 0 then ∃ q ∈ past.delayed, startTrack q.lba = startTrack r.lba
    else ∀ c ∈ past.counted,
      (∃ q ∈ past.delayed, startTrack q.lba = endTrack c.lba c.nblocks) ∨
        (startTrack r.lba ≠ endTrack c.lba c.nblocks ∧
          ∀ q ∈ past.delayed, startTrack r.lba ≠ startTrack q.lba)

theorem selectedPreset_eq (st : FloppyThrottleState) (name : Text) :
    floppyThrottleSetPreset st name =
      (selectedPreset name).elim (.error .EINVAL) fun p => .ok (st.apply p) := by
  unfold floppyThrottleSetPreset selectedPreset
  dsimp only
  by_cases hlen : name.length ≤ 30
  · rw [if_neg (mt (sizeT_strscpy_iff name).mp (not_lt.mpr hlen)), if_pos hlen, strscpy_short hlen]
    unfold firstLine
    cases presets.find? fun p => p.name = name.takeWhile fun c => c ≠ '\n' <;> rfl
  · rw [if_pos ((sizeT_strscpy_iff name).mpr (not_le.mp hlen)), if_neg hlen]
    rfl

theorem countsStep_iff (s : Head) (r : IoRequest) :
    countsStep s r ↔ s.events.totalBlocks.toUInt64 ≠ 0 ∧
      startTrack r.lba ≠ s.events.lastEndTrack.toUInt32 := by
  rw [countsStep, UInt32.pos_iff_ne_zero]
  by_cases h : s.events.totalBlocks.toUInt64 = 0
  · simp [crossingsBetween_of_fresh h, h]
  · have hdist := crossingsBetween_toNat h r.lba
    rw [Ne, ← UInt32.toNat_inj, hdist, ← startTrack_toNat]
    simp only [ne_eq, h, not_false_eq_true, true_and, ← UInt32.toNat_inj, UInt32.toNat_zero]
    rw [not_iff_not, eq_comm (a := (startTrack r.lba).toNat)]
    exact ⟨Nat.eq_of_dist_eq_zero, Nat.dist_eq_zero⟩

theorem ne_iff_ne_iff {α : Type*} (a b c : α) :
    ((a ≠ b) ↔ (a ≠ c)) ↔ b = c ∨ (a ≠ b ∧ a ≠ c) := by
  constructor
  · intro h
    by_cases hab : a = b
    · have hac : a = c := not_not.mp fun hne => h.mpr hne hab
      exact Or.inl (hab.symm.trans hac)
    · exact Or.inr ⟨hab, h.mp hab⟩
  · rintro (rfl | ⟨hb, hc⟩)
    · exact Iff.rfl
    · exact iff_of_true hb hc

/-- No sector lies on the track the throttle starts from. -/
theorem startTrack_ne_noTrack (lba : UInt32) : startTrack lba ≠ noTrack := by
  intro h
  have hnat := congrArg UInt32.toNat h
  have hlt := lba.toNat_lt
  rw [startTrack, UInt32.toNat_div, show sectorsPerTrack.toNat = 36 from rfl,
    show noTrack.toNat = 2 ^ 32 - 1 from rfl] at hnat
  omega

/-! ### What the two heads remember -/

theorem applyIoDelay_lastTrack (st : FloppyThrottleState) (lba nblocks kbps : UInt32) :
    (applyIoDelay st lba nblocks kbps).1.lastTrack =
      if kbps = 0 ∧ st.seekUs = 0 then st.lastTrack else startTrack lba := by
  unfold applyIoDelay startTrack
  split_ifs <;> rfl

theorem floppyThrottleOn_of_has {st : FloppyThrottleState} {p : FloppyThrottlePreset}
    (h : st.Has p) (r : IoRequest) :
    floppyThrottleOn st r = applyIoDelay st r.lba r.nblocks (p.kbps r) := by
  unfold floppyThrottleOn floppyThrottleOnWrite floppyThrottleOnRead FloppyThrottlePreset.kbps
  rw [h.1, h.2.1]
  split_ifs <;> rfl

theorem floppyThrottleOn_lastTrack_of_has {st : FloppyThrottleState} {p : FloppyThrottlePreset}
    (h : st.Has p) (r : IoRequest) : (floppyThrottleOn st r).1.lastTrack =
      if p.Delays r then startTrack r.lba else st.lastTrack := by
  rw [floppyThrottleOn_of_has h, applyIoDelay_lastTrack, h.2.2]
  by_cases hdelays : p.Delays r
  · rw [if_pos hdelays, if_neg hdelays]
  · rw [if_neg hdelays, if_pos (not_not.mp hdelays)]

/-- The tracker remembers where the last counted request ended, the throttle where the
last delayed one began. -/
structure Remembers (s : Head) (past : Past) : Prop where
  served : s.served = past.served
  preset : s.throttle.Has past.preset
  began : s.throttle.lastTrack = past.delayed.elim noTrack fun q => startTrack q.lba
  ended : ∀ c ∈ past.counted, s.events.lastEndTrack.toUInt32 = endTrack c.lba c.nblocks
  blocks : s.events.totalBlocks.toUInt64 = UInt64.ofNat past.blocks
  none_counted : past.counted = none → past.blocks = 0

theorem remembers_init : Remembers headInit Past.init :=
  ⟨rfl, ⟨rfl, rfl, rfl⟩, rfl, fun _ hc => absurd hc (by simp [Past.init]), rfl, fun _ => rfl⟩

variable {s : Head} {past : Past}

theorem Remembers.preset_step (h : Remembers s past) (name : Text) :
    Remembers (headStep s (.preset name)) (past.next (.preset name)) := by
  dsimp only [headStep, Past.next]
  rw [selectedPreset_eq]
  cases selectedPreset name with
  | none => exact h
  | some p => exact { h with preset := ⟨rfl, rfl, rfl⟩ }

theorem Remembers.request_step (h : Remembers s past) (r : IoRequest) :
    Remembers (headStep s (.request r)) (past.next (.request r)) := by
  unfold headStep Past.next
  refine ⟨rfl, floppyThrottleOn_has h.preset r, ?_, ?_, ?_, ?_⟩
  · dsimp only
    rw [floppyThrottleOn_lastTrack_of_has h.preset, h.began]
    split_ifs <;> rfl
  · intro c hc
    dsimp only at hc ⊢
    split_ifs at hc with hn
    · obtain rfl : r = c := by simpa using hc
      exact record_lastEndTrack s.events hn r.isWrite r.now
    · rw [IoRequest.record, not_not.mp hn, record_zero]
      exact h.ended c hc
  · dsimp only
    by_cases hn : r.nblocks = 0
    · rw [IoRequest.record, hn, record_zero, h.blocks, show (0 : UInt32).toNat = 0 from rfl,
        Nat.add_zero]
    · rw [IoRequest.record, record_totalBlocks s.events hn, h.blocks, UInt64.ofNat_add,
        ofNat_toNat_toUInt64]
  · intro hc
    dsimp only at hc ⊢
    split_ifs at hc with hn
    rw [h.none_counted hc, not_not.mp hn]
    rfl

/-- Every request and every preset write keeps both heads in step with the past. -/
theorem Remembers.step (s : Head) (past : Past) (e : HeadEvent) (h : Remembers s past) :
    Remembers (headStep s e) (past.next e) := by
  cases e with
  | preset name => exact h.preset_step name
  | request r => exact h.request_step r

theorem Remembers.sleepsSeek_iff (h : Remembers s past) (hseek : 0 < past.preset.seekUs)
    (r : IoRequest) : sleepsSeek s r ↔ ∀ q ∈ past.delayed, startTrack r.lba ≠ startTrack q.lba := by
  rw [sleepsSeek, floppyThrottleOn_seek_isSome (h.preset.2.2 ▸ hseek), h.began]
  cases past.delayed with
  | none => simpa using startTrack_ne_noTrack r.lba
  | some q => simp

theorem Remembers.blocks_eq_zero_iff (h : Remembers s past) :
    s.events.totalBlocks.toUInt64 = 0 ↔ past.blocks % 2 ^ 64 = 0 := by
  rw [h.blocks, ← UInt64.toNat_inj, UInt64.toNat_ofNat]
  rfl

theorem Remembers.headsAgree_iff (s : Head) (past : Past) (e : HeadEvent) (h : Remembers s past) :
    HeadsAgree s e ↔ SameTrack past e := by
  cases e with
  | preset name => exact Iff.rfl
  | request r =>
    rw [HeadsAgree, SameTrack, h.served, h.preset.2.2]
    refine forall₂_congr fun _ hseek => ?_
    rw [h.sleepsSeek_iff hseek, countsStep_iff, Ne, h.blocks_eq_zero_iff]
    split_ifs with hblocks
    · simp only [hblocks, not_true_eq_false, false_and, iff_false, not_forall, not_not, exists_prop,
        eq_comm]
    · obtain ⟨c, hc⟩ : ∃ c, past.counted = some c :=
        Option.ne_none_iff_exists'.mp fun hnone => hblocks (by rw [h.none_counted hnone]; rfl)
      rw [h.ended c hc, hc]
      simp only [hblocks, not_false_eq_true, true_and, Option.mem_some_iff, forall_eq']
      cases past.delayed with
      | none => simp
      | some q =>
        simp only [Option.mem_some_iff, forall_eq', exists_eq_left', ne_iff_ne_iff]
        exact or_congr_right and_comm

/-- In a run of requests and preset changes both modules see the same steps exactly when
the last delayed request always began on the track where the last counted one ended, or the
next request starts on neither of these tracks. -/
theorem heads_agree_iff (es : List HeadEvent) :
    Guarded headStep HeadsAgree headInit es ↔ Guarded Past.next SameTrack Past.init es :=
  guarded_simulation Remembers.step Remembers.headsAgree_iff remembers_init es

/-- A read of sectors 0 to 39 ends on track 1. The next read starts there, and the
throttle, which remembers track 0, still seeks. -/
theorem heads_disagree : ¬ Guarded headStep HeadsAgree headInit
    [.request ⟨0, 40, false, 0⟩, .request ⟨40, 1, false, 0⟩] := by
  decide

end UsbFloppy.Kernel

import UsbFloppy.Kernel.IoEvents
import UsbFloppy.Audio.Loop

/-! What is heard of I/O that crosses no track: the start of the motor and the texture of the
transfers, and how far apart they come. -/

namespace UsbFloppy.Audio
open Transition Kernel

namespace FloppyStepDetector

variable (d : FloppyStepDetector) (event : IOEvent) (nowUs : ℤ)

def SeesCrossings : Prop := ∃ last ∈ d.lastCrossings, last < event.trackCrossings

/-- The detector has its baseline, and the counter of the blocks has grown. -/
def SeesBlocks : Prop := d.lastCrossings.isSome ∧ d.lastCounter.getD event.counter < event.counter

instance : Decidable (d.SeesCrossings event) :=
  inferInstanceAs (Decidable (∃ last ∈ d.lastCrossings, last < event.trackCrossings))

instance : Decidable (d.SeesBlocks event) := inferInstanceAs (Decidable (_ ∧ _))

/-- What a tick can do: the kind of its sound, and the detector after it. -/
inductive TickCase : SoundKind → FloppyStepDetector → Prop
  | seek (hcrossings : d.SeesCrossings event) :
    TickCase .seekBurst { d.observe event with lastIoUs := nowUs }
  | motor (hcrossings : ¬ d.SeesCrossings event) (hblocks : d.SeesBlocks event)
      (hidle : d.motorIdleUs ≤ nowUs - d.lastIoUs) :
    TickCase .motorSpin { d.observe event with lastActivityUs := nowUs, lastIoUs := nowUs }
  | suppressed (hcrossings : ¬ d.SeesCrossings event) (hblocks : d.SeesBlocks event)
      (hbusy : nowUs - d.lastIoUs < d.motorIdleUs) :
    TickCase .silence { d.observe event with lastIoUs := nowUs }
  | texture (hcrossings : ¬ d.SeesCrossings event) (hblocks : d.SeesBlocks event)
      (hbusy : nowUs - d.lastIoUs < d.motorIdleUs)
      (hlate : d.activityIntervalUs ≤ nowUs - d.lastActivityUs) :
    TickCase .activityTick { d.observe event with lastActivityUs := nowUs, lastIoUs := nowUs }
  | quiet (hcrossings : ¬ d.SeesCrossings event) (hblocks : ¬ d.SeesBlocks event) :
    TickCase .silence (d.observe event)

theorem tick_case :
    d.TickCase event nowUs (d.tick event nowUs).1.kind (d.tick event nowUs).2 := by
  unfold tick
  split
  · rename_i hnone
    have hcrossings : ¬ d.SeesCrossings event := by
      rintro ⟨last, hlast, -⟩
      rw [hnone] at hlast
      cases hlast
    have hblocks : ¬ d.SeesBlocks event := by
      rintro ⟨hsome, -⟩
      rw [hnone] at hsome
      cases hsome
    exact .quiet hcrossings hblocks
  · rename_i last hlast
    have hcrossings : d.SeesCrossings event ↔ event.trackCrossings - last > 0 := by
      unfold SeesCrossings
      rw [hlast]
      simp
    have hblocks : d.SeesBlocks event ↔ event.counter - d.lastCounter.getD event.counter > 0 := by
      unfold SeesBlocks
      rw [hlast]
      simp
    dsimp only
    split_ifs with hdelta hcounter
    · exact .seek (hcrossings.mpr hdelta)
    · rw [← hcrossings] at hdelta
      rw [← hblocks] at hcounter
      unfold activity
      dsimp only
      split_ifs with hidle hearly
      · exact .motor hdelta hcounter hidle
      · exact .suppressed hdelta hcounter (Int.not_le.mp hidle)
      · exact .texture hdelta hcounter (Int.not_le.mp hidle) (Int.not_lt.mp hearly)
    · exact .quiet (mt hcrossings.mp hdelta) (mt hblocks.mp hcounter)

variable {d event nowUs} {kind : SoundKind} {next : FloppyStepDetector}

theorem TickCase.lastIoUs (h : d.TickCase event nowUs kind next) : next.lastIoUs =
    if d.SeesCrossings event ∨ d.SeesBlocks event then nowUs else d.lastIoUs := by
  cases h with
  | seek hcrossings => rw [if_pos (.inl hcrossings)]
  | motor _ hblocks _ => rw [if_pos (.inr hblocks)]
  | suppressed _ hblocks _ => rw [if_pos (.inr hblocks)]
  | texture _ hblocks _ _ => rw [if_pos (.inr hblocks)]
  | quiet hcrossings hblocks =>
    rw [if_neg (not_or.mpr ⟨hcrossings, hblocks⟩)]
    rfl

/-- The sounds that the texture is counted from. -/
def IsTexture (kind : SoundKind) : Prop := kind = .motorSpin ∨ kind = .activityTick

instance (kind : SoundKind) : Decidable (IsTexture kind) := inferInstanceAs (Decidable (_ ∨ _))

theorem TickCase.lastActivityUs (h : d.TickCase event nowUs kind next) :
    next.lastActivityUs = if IsTexture kind then nowUs else d.lastActivityUs := by
  cases h <;> rfl

theorem TickCase.settings (h : d.TickCase event nowUs kind next) :
    next.activityIntervalUs = d.activityIntervalUs ∧ next.motorIdleUs = d.motorIdleUs := by
  cases h <;> exact ⟨rfl, rfl⟩

theorem TickCase.grown (h : d.TickCase event nowUs kind next) (hkind : kind ≠ .silence) :
    d.SeesCrossings event ∨ d.SeesBlocks event := by
  cases h with
  | seek hcrossings => exact .inl hcrossings
  | motor _ hblocks _ => exact .inr hblocks
  | texture _ hblocks _ _ => exact .inr hblocks
  | suppressed => exact absurd rfl hkind
  | quiet => exact absurd rfl hkind

theorem TickCase.motorSpin_iff (h : d.TickCase event nowUs kind next) : kind = .motorSpin ↔
    ¬ d.SeesCrossings event ∧ d.SeesBlocks event ∧ d.motorIdleUs ≤ nowUs - d.lastIoUs := by
  cases h with
  | seek hcrossings => exact iff_of_false (by decide) fun h => h.1 hcrossings
  | motor hcrossings hblocks hidle => exact iff_of_true rfl ⟨hcrossings, hblocks, hidle⟩
  | suppressed _ _ hbusy => exact iff_of_false (by decide) fun h => not_le.mpr hbusy h.2.2
  | texture _ _ hbusy _ => exact iff_of_false (by decide) fun h => not_le.mpr hbusy h.2.2
  | quiet _ hblocks => exact iff_of_false (by decide) fun h => hblocks h.2.1

theorem TickCase.late (h : d.TickCase event nowUs .activityTick next) :
    d.activityIntervalUs ≤ nowUs - d.lastActivityUs := by
  cases h with
  | texture _ _ _ hlate => exact hlate

/-! ### Runs of ticks -/

def step (d : FloppyStepDetector) (t : IOEvent × ℤ) : FloppyStepDetector := (d.tick t.1 t.2).2

/-- What is heard at a tick that comes after the ticks `before`. -/
def soundAfter (d : FloppyStepDetector) (before : List (IOEvent × ℤ)) (t : IOEvent × ℤ) :
    SoundKind := ((run step d before).tick t.1 t.2).1.kind

/-- A counter has grown since the last of the ticks `before`. -/
def Grew (before : List (IOEvent × ℤ)) (t : IOEvent × ℤ) : Prop :=
  ∃ last ∈ before.getLast?,
    last.1.trackCrossings < t.1.trackCrossings ∨ last.1.counter < t.1.counter

/-- The two times are no earlier than the ticks they stand for. -/
structure Paced (d₀ : FloppyStepDetector) (before : List (IOEvent × ℤ)) : Prop where
  crossings : (run step d₀ before).lastCrossings = before.getLast?.map fun t => t.1.trackCrossings
  counter : (run step d₀ before).lastCounter = before.getLast?.map fun t => t.1.counter
  interval : (run step d₀ before).activityIntervalUs = d₀.activityIntervalUs
  idle : (run step d₀ before).motorIdleUs = d₀.motorIdleUs
  activity : ∀ earlier u between, before = earlier ++ u :: between →
    IsTexture (soundAfter d₀ earlier u) → u.2 ≤ (run step d₀ before).lastActivityUs
  io : ∀ earlier u between, before = earlier ++ u :: between →
    Grew earlier u → u.2 ≤ (run step d₀ before).lastIoUs

variable {d₀ : FloppyStepDetector} {before : List (IOEvent × ℤ)} {t : IOEvent × ℤ}

theorem Paced.grew_iff (h : Paced d₀ before) :
    (run step d₀ before).SeesCrossings t.1 ∨ (run step d₀ before).SeesBlocks t.1 ↔
      Grew before t := by
  unfold SeesCrossings SeesBlocks Grew
  rw [h.crossings, h.counter]
  cases before.getLast? <;> simp

theorem paced_nil (hcrossings : d₀.lastCrossings = none) (hcounter : d₀.lastCounter = none) :
    Paced d₀ [] :=
  ⟨hcrossings, hcounter, rfl, rfl, fun _ _ _ h => by simp at h, fun _ _ _ h => by simp at h⟩

theorem split_concat {earlier between : List (IOEvent × ℤ)} {u : IOEvent × ℤ}
    (h : before ++ [t] = earlier ++ u :: between) :
    earlier = before ∧ u = t ∨ ∃ between', before = earlier ++ u :: between' := by
  rcases List.eq_nil_or_concat' between with rfl | ⟨between', x, rfl⟩
  · obtain ⟨hbefore, ht⟩ := List.append_inj' h rfl
    exact .inl ⟨hbefore.symm, (List.singleton_inj.mp ht).symm⟩
  · rw [← List.cons_append, ← List.append_assoc] at h
    exact .inr ⟨between', (List.append_inj' h rfl).1⟩

theorem Paced.concat (h : Paced d₀ before) (htime : ∀ u ∈ before, u.2 ≤ t.2) :
    Paced d₀ (before ++ [t]) := by
  have hcase := (run step d₀ before).tick_case t.1 t.2
  have hrun : run step d₀ (before ++ [t]) = ((run step d₀ before).tick t.1 t.2).2 :=
    run_append d₀ before [t]
  have hmem : ∀ {earlier u between}, before = earlier ++ u :: between → u.2 ≤ t.2 := by
    rintro earlier u between rfl
    exact htime u (List.mem_append_right _ List.mem_cons_self)
  refine ⟨?_, ?_, ?_, ?_, ?_, ?_⟩
  · rw [hrun, tick_lastCrossings, List.getLast?_concat, Option.map_some]
  · rw [hrun, tick_lastCounter, List.getLast?_concat, Option.map_some]
  · rw [hrun, hcase.settings.1, h.interval]
  · rw [hrun, hcase.settings.2, h.idle]
  · intro earlier u between hsplit hsound
    rw [hrun, hcase.lastActivityUs]
    rcases split_concat hsplit with ⟨rfl, rfl⟩ | ⟨between', hbefore⟩
    · exact (if_pos hsound).ge
    · split_ifs
      · exact hmem hbefore
      · exact h.activity earlier u between' hbefore hsound
  · intro earlier u between hsplit hgrew
    rw [hrun, hcase.lastIoUs]
    rcases split_concat hsplit with ⟨rfl, rfl⟩ | ⟨between', hbefore⟩
    · exact (if_pos (h.grew_iff.mpr hgrew)).ge
    · split_ifs
      · exact hmem hbefore
      · exact h.io earlier u between' hbefore hgrew

theorem paced (hcrossings : d₀.lastCrossings = none) (hcounter : d₀.lastCounter = none)
    (htimes : before.Pairwise fun t u => t.2 ≤ u.2) : Paced d₀ before := by
  induction before using List.reverseRecOn with
  | nil => exact paced_nil hcrossings hcounter
  | append_singleton before t ih =>
    obtain ⟨hbefore, -, hlast⟩ := List.pairwise_append.mp htimes
    exact (ih hbefore).concat fun u hu => hlast u hu t (List.mem_singleton_self t)

end FloppyStepDetector

open FloppyStepDetector in
/-- A tick of the texture keeps its distance from the last one and from the start of the motor,
the motor starts only a while after every tick that saw the counters grow, and without growth
nothing is heard. -/
theorem texture_rate_limited (seekSpacingUs minClickSpacingUs maxBurstClicks activityIntervalUs
    motorIdleUs : ℤ) (clickMaskUs maxPendingClicks : Option ℤ) (ticks : List (IOEvent × ℤ))
    (htimes : ticks.Pairwise fun t u => t.2 ≤ u.2) :
    let d := FloppyStepDetector.init seekSpacingUs minClickSpacingUs maxBurstClicks
      activityIntervalUs motorIdleUs clickMaskUs maxPendingClicks
    ∀ before t after, ticks = before ++ t :: after →
      (soundAfter d before t = .activityTick → ∀ earlier u between,
        before = earlier ++ u :: between → IsTexture (soundAfter d earlier u) →
          activityIntervalUs ≤ t.2 - u.2) ∧
      (soundAfter d before t = .motorSpin → ∀ earlier u between,
        before = earlier ++ u :: between → Grew earlier u → motorIdleUs ≤ t.2 - u.2) ∧
      (¬ Grew before t → soundAfter d before t = .silence) := by
  intro d before t after hsplit
  rw [hsplit] at htimes
  have h : Paced d before := paced rfl rfl (List.pairwise_append.mp htimes).1
  have hcase := (run step d before).tick_case t.1 t.2
  refine ⟨?_, ?_, ?_⟩
  · intro hsound earlier u between hbefore htexture
    have hlate : (run step d before).activityIntervalUs ≤
        t.2 - (run step d before).lastActivityUs := by
      unfold soundAfter at hsound
      rw [hsound] at hcase
      exact hcase.late
    have hu := h.activity earlier u between hbefore htexture
    rw [h.interval] at hlate
    exact hlate.trans (Int.sub_le_sub_left hu t.2)
  · intro hsound earlier u between hbefore hgrew
    have hidle := (hcase.motorSpin_iff.mp hsound).2.2
    have hu := h.io earlier u between hbefore hgrew
    rw [h.idle] at hidle
    exact hidle.trans (Int.sub_le_sub_left hu t.2)
  · intro hstill
    by_contra hsound
    exact hstill (h.grew_iff.mp (hcase.grown hsound))

def quietEvent (counter : ℤ) : IOEvent := ⟨counter, 0, false, 0, 0⟩

/-- The motor starts 10 ms after the baseline, and 90 ms later there is a tick of the texture. -/
theorem texture_rate_limited_example :
    let d := FloppyStepDetector.init defaultSeekSpacingUs defaultMinClickSpacingUs
      defaultMaxBurstClicks defaultActivityIntervalUs defaultMotorIdleUs none none
    d.soundAfter [(quietEvent 0, 0)] (quietEvent 1, 10000) = .motorSpin ∧
      d.soundAfter [(quietEvent 0, 0), (quietEvent 1, 10000)] (quietEvent 2, 100000) =
        .activityTick ∧ defaultActivityIntervalUs ≤ 100000 - 10000 := by
  have hmotor : (FloppyStepDetector.init defaultSeekSpacingUs defaultMinClickSpacingUs
      defaultMaxBurstClicks defaultActivityIntervalUs defaultMotorIdleUs none none).soundAfter
        [(quietEvent 0, 0)] (quietEvent 1, 10000) = .motorSpin := by decide +kernel
  obtain ⟨htexture, -⟩ := texture_rate_limited defaultSeekSpacingUs defaultMinClickSpacingUs
    defaultMaxBurstClicks defaultActivityIntervalUs defaultMotorIdleUs none none
    [(quietEvent 0, 0), (quietEvent 1, 10000), (quietEvent 2, 100000)] (by decide +kernel)
    [(quietEvent 0, 0), (quietEvent 1, 10000)] (quietEvent 2, 100000) [] rfl
  exact ⟨hmotor, by decide +kernel,
    htexture (by decide +kernel) [(quietEvent 0, 0)] (quietEvent 1, 10000) [] rfl (.inl hmotor)⟩

/-! ### Idleness -/

/-- A turn of `AudioLoop.run`: the requests that the kernel recorded since the turn before, and
the time of the tick. -/
structure Turn where
  requests : List IoRequest
  nowUs : ℤ
  deriving DecidableEq

/-- The times of the requests that are recorded. -/
def Turn.ioTimes (t : Turn) : List ℤ :=
  (t.requests.filter fun r => r.nblocks ≠ 0).map fun r => r.now.toNat

/-- `SysfsIOEventReader.read`, with nothing recorded between its reads. -/
def readIoEvent (st : FloppyIoEventState) : IOEvent where
  counter := (floppyIoEventTotalBlocks st).toNat
  lastLba := st.lastLba.toUInt32.toNat
  lastIsWrite := st.lastIsWrite ≠ 0
  lastUs := st.lastUs.toUInt64.toNat
  trackCrossings := (floppyIoEventTrackCrossings st).toNat

/-- The kernel's counters at the latest tick, and the loop. The times are not in the code: of
the last request that a tick has seen, and of the last tick that saw a counter grow. -/
structure Listening where
  st : FloppyIoEventState
  loop : AudioLoop
  lastIo : Option ℤ
  lastSeen : Option ℤ

namespace Listening

variable (s : Listening) (t : Turn)

def recorded : FloppyIoEventState := run IoRequest.record s.st t.requests

def Crossed : Prop := s.loop.played ≠ [] ∧
  (readIoEvent s.st).trackCrossings < (readIoEvent (s.recorded t)).trackCrossings

def Transferred : Prop := s.loop.played ≠ [] ∧
  (readIoEvent s.st).counter < (readIoEvent (s.recorded t)).counter

instance : Decidable (s.Crossed t) := inferInstanceAs (Decidable (_ ∧ _))

instance : Decidable (s.Transferred t) := inferInstanceAs (Decidable (_ ∧ _))

def turn : Listening where
  st := s.recorded t
  loop := s.loop.tick (readIoEvent (s.recorded t), t.nowUs)
  lastIo := t.ioTimes.getLast?.or s.lastIo
  lastSeen := if s.Crossed t ∨ s.Transferred t then some t.nowUs else s.lastSeen

/-- There was a sound before. -/
def Sounded : Prop := ∃ p ∈ s.loop.played, p.1.kind ≠ .silence

instance : Decidable s.Sounded := inferInstanceAs (Decidable (∃ p ∈ s.loop.played, _))

/-- Between the last request of the turns before and the newest one there are `motorIdleUs`
without a request. -/
def Paused : Prop := ∃ last ∈ s.lastIo,
  ¬ (last :: t.ioTimes).IsChain fun u v => v - u < s.loop.sm.motorIdleUs

instance : Decidable (s.Paused t) := inferInstanceAs (Decidable (∃ last ∈ s.lastIo, _))

/-- What is claimed of a turn: the motor starts only after a pause. -/
def Honest : Prop :=
  s.Sounded → (s.loop.sm.tick (readIoEvent (s.recorded t)) t.nowUs).1.kind = .motorSpin → s.Paused t

instance : Decidable (s.Honest t) := inferInstanceAs (Decidable (_ → _))

/-- A turn with transfers but no crossings comes less than `motorIdleUs` after the last tick that
saw a counter grow, if there is no pause in what it sees. -/
def Prompt : Prop :=
  s.Sounded → s.Transferred t → ¬ s.Crossed t → ¬ s.Paused t →
    ∃ seen ∈ s.lastSeen, t.nowUs - seen < s.loop.sm.motorIdleUs

/-- The detector knows the counters of the latest tick, and when they grew. -/
structure Watched : Prop where
  baseline : s.loop.played = [] → s.loop.sm.lastCrossings = none
  crossings : s.loop.played ≠ [] →
    s.loop.sm.lastCrossings = some (readIoEvent s.st).trackCrossings
  counter : s.loop.played ≠ [] → s.loop.sm.lastCounter = some (readIoEvent s.st).counter
  lastIoUs : ∀ seen ∈ s.lastSeen, s.loop.sm.lastIoUs = seen
  sounded : s.Sounded → s.lastSeen.isSome

variable {s t}

theorem Watched.crossed_iff (h : s.Watched) :
    s.loop.sm.SeesCrossings (readIoEvent (s.recorded t)) ↔ s.Crossed t := by
  unfold FloppyStepDetector.SeesCrossings Crossed
  by_cases hplayed : s.loop.played = []
  · simp [h.baseline hplayed, hplayed]
  · simp [h.crossings hplayed, hplayed]

theorem Watched.transferred_iff (h : s.Watched) :
    s.loop.sm.SeesBlocks (readIoEvent (s.recorded t)) ↔ s.Transferred t := by
  unfold FloppyStepDetector.SeesBlocks Transferred
  by_cases hplayed : s.loop.played = []
  · simp [h.baseline hplayed, hplayed]
  · simp [h.crossings hplayed, h.counter hplayed, hplayed]

theorem Watched.turn (h : s.Watched) : (s.turn t).Watched := by
  have hcase := s.loop.sm.tick_case (readIoEvent (s.recorded t)) t.nowUs
  have hne : (s.turn t).loop.played ≠ [] := List.append_ne_nil_of_right_ne_nil _ (List.cons_ne_nil _ _)
  refine ⟨fun hnil => absurd hnil hne, fun _ => FloppyStepDetector.tick_lastCrossings,
    fun _ => FloppyStepDetector.tick_lastCounter, ?_, ?_⟩
  · intro seen hseen
    have htime := hcase.lastIoUs
    simp only [h.crossed_iff, h.transferred_iff] at htime
    change seen ∈ (if s.Crossed t ∨ s.Transferred t then some t.nowUs else s.lastSeen) at hseen
    refine htime.trans ?_
    split_ifs at hseen ⊢ with hgrown
    · exact Option.mem_some.mp hseen
    · exact h.lastIoUs seen hseen
  · rintro ⟨p, hp, hsound⟩
    change (if s.Crossed t ∨ s.Transferred t then some t.nowUs else s.lastSeen).isSome = true
    split_ifs with hgrown
    · rfl
    · rcases List.mem_append.mp hp with hp | hp
      · exact h.sounded ⟨p, hp, hsound⟩
      · rw [List.mem_singleton.mp hp] at hsound
        have hgrew := hcase.grown hsound
        rw [h.crossed_iff, h.transferred_iff] at hgrew
        exact absurd hgrew hgrown

theorem Watched.honest_iff (h : s.Watched) : s.Honest t ↔ s.Prompt t := by
  have hcase := s.loop.sm.tick_case (readIoEvent (s.recorded t)) t.nowUs
  unfold Honest Prompt
  rw [hcase.motorSpin_iff, h.crossed_iff, h.transferred_iff]
  apply imp_congr_right
  intro hsounded
  obtain ⟨seen, hseen⟩ := Option.isSome_iff_exists.mp (h.sounded hsounded)
  have hlast : s.loop.sm.lastIoUs = seen := h.lastIoUs seen hseen
  rw [hseen, hlast]
  constructor
  · intro hpaused htransferred hcrossed hno
    refine ⟨seen, rfl, ?_⟩
    by_contra hlate
    exact hno (hpaused ⟨hcrossed, htransferred, not_lt.mp hlate⟩)
  · rintro hprompt ⟨hcrossed, htransferred, hidle⟩
    by_contra hno
    obtain ⟨seen', hseen', hlt⟩ := hprompt htransferred hcrossed hno
    cases hseen'
    exact absurd hidle (not_le.mpr hlt)

/-- A loop that has not ticked yet, over counters that may have counted before. -/
def init (st : FloppyIoEventState) (lastIo : Option ℤ) (loop : AudioLoop) : Listening :=
  ⟨st, loop, lastIo, none⟩

end Listening

open Listening in
/-- Over a whole run the motor starts only after pauses exactly if no tick that sees transfers
without crossings or a pause comes too long after the last one that saw a counter grow. -/
theorem motor_starts_idle_iff (r : SoundRenderer) (seekSpacingUs minClickSpacingUs maxBurstClicks
    activityIntervalUs motorIdleUs : ℤ) (clickMaskUs maxPendingClicks : Option ℤ)
    (st : FloppyIoEventState) (lastIo : Option ℤ) (turns : List Turn) :
    let s := Listening.init st lastIo (.init r seekSpacingUs minClickSpacingUs maxBurstClicks
      activityIntervalUs motorIdleUs clickMaskUs maxPendingClicks)
    Guarded turn Honest s turns ↔ Guarded turn Prompt s turns := by
  intro s
  have hinit : s.Watched := by
    refine ⟨fun _ => rfl, fun hne => absurd rfl hne, fun hne => absurd rfl hne, ?_, ?_⟩
    · intro seen hseen
      cases hseen
    · rintro ⟨p, hp, -⟩
      cases hp
  constructor
  · exact guarded_invariant (fun _ _ h _ => h.turn) (fun _ _ h => h.honest_iff.mp) hinit
  · exact guarded_invariant (fun _ _ h _ => h.turn) (fun _ _ h => h.honest_iff.mpr) hinit

/-- The ticks follow each other within the idle timeout of the loop, and a request is seen by the
first tick after it. -/
def WellTimed : ℤ → List Turn → Prop
  | _, [] => True
  | prev, t :: turns => prev < t.nowUs ∧ t.nowUs ≤ prev + 1000000 ∧
      t.ioTimes.Pairwise (fun u v => u < v) ∧ (∀ u ∈ t.ioTimes, prev < u ∧ u ≤ t.nowUs) ∧
        WellTimed t.nowUs turns

/-- A read of the first block every 100 ms, for a second from `startUs`. -/
def steadyReads (startUs : ℕ) : Turn where
  requests := (List.range 10).map fun i => ⟨0, 1, false, .ofNat (startUs + (i + 1) * 100000)⟩
  nowUs := startUs + 1000000

def quietLoop : AudioLoop :=
  .init ⟨0, 0, 0, 0, 0, 0⟩ defaultSeekSpacingUs defaultMinClickSpacingUs defaultMaxBurstClicks
    defaultActivityIntervalUs defaultMotorIdleUs none none

/-- Reads on one track never stop, and the motor starts again with every tick. -/
theorem motor_starts_under_way :
    let turns := [⟨[], 1000000⟩, steadyReads 1000000, steadyReads 2000000]
    WellTimed 0 turns ∧
      ¬ Guarded Listening.turn Listening.Honest (.init floppyIoEventInit none quietLoop) turns := by
  intro turns
  refine ⟨?_, ?_⟩
  · simp only [turns, WellTimed]
    decide +kernel
  · decide +kernel

end UsbFloppy.Audio

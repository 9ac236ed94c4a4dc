import Mathlib.Data.List.Sort
import UsbFloppy.Kernel.Exceptions

/-! Bulk resets have a delayed status stage, which the thread completes when it has taken the
reset up, unless a later request has arrived by then. -/

namespace UsbFloppy.Kernel
open Transition

/-- The bulk resets are completed in their order, and each at most once. A tag stands for the
number of the request it was taken from. -/
structure Journal.InOrder (j : Journal) : Prop where
  resets : j.resets.Pairwise (· < ·)
  counted : ∀ r ∈ j.resets, r ≤ j.requests
  completed : j.completed.Pairwise (· < ·)
  sound : ∀ r ∈ j.completed, r ∈ j.resets
  latest : j.transport.ep0ReqTag = UInt32.ofNat j.requests
  pending : j.transport.state = .protocolReset → ∃ n ∈ j.resets,
    j.transport.exceptionReqTag = UInt32.ofNat n ∧ ∀ r ∈ j.completed, r < n
  handling : ∀ x, j.transport.handling = some x → x.oldState = .protocolReset → ∃ n ∈ j.resets,
    x.reqTag = UInt32.ofNat n ∧ (∀ r ∈ j.completed, r < n) ∧
      (j.transport.state = .protocolReset → ∃ m ∈ j.resets,
        j.transport.exceptionReqTag = UInt32.ofNat m ∧ (∀ r ∈ j.completed, r < m) ∧ n < m)

/-- Where no reset is raised, taken up or completed. -/
theorem Journal.InOrder.of_same {j j' : Journal} (h : j.InOrder) (hresets : j'.resets = j.resets)
    (hcompleted : j'.completed = j.completed) (hrequests : j.requests ≤ j'.requests)
    (hlatest : j'.transport.ep0ReqTag = UInt32.ofNat j'.requests)
    (hhandling : ∀ x, j'.transport.handling = some x → j.transport.handling = some x)
    (hpending : j'.transport.state = .protocolReset → j.transport.state = .protocolReset ∧
      j'.transport.exceptionReqTag = j.transport.exceptionReqTag) : j'.InOrder := by
  refine ⟨?_, ?_, ?_, ?_, hlatest, fun hreset => ?_, fun x hsome hold => ?_⟩
  · rw [hresets]
    exact h.resets
  · rw [hresets]
    exact fun r hr => (h.counted r hr).trans hrequests
  · rw [hcompleted]
    exact h.completed
  · rw [hresets, hcompleted]
    exact h.sound
  · obtain ⟨hstate, htag⟩ := hpending hreset
    rw [hresets, hcompleted, htag]
    exact h.pending hstate
  · obtain ⟨n, hmem, hn, hless, hnext⟩ := h.handling x (hhandling x hsome) hold
    rw [hresets, hcompleted]
    refine ⟨n, hmem, hn, hless, fun hreset => ?_⟩
    obtain ⟨hstate, htag⟩ := hpending hreset
    rw [htag]
    exact hnext hstate

theorem Journal.InOrder.congr {j j' : Journal} (h : j.InOrder)
    (htransport : j'.transport = j.transport) (hresets : j'.resets = j.resets)
    (hcompleted : j'.completed = j.completed) (hrequests : j'.requests = j.requests) :
    j'.InOrder := by
  refine h.of_same hresets hcompleted hrequests.ge ?_ (fun x hsome => ?_) fun hreset => ?_
  · rw [htransport, hrequests]
    exact h.latest
  · rwa [htransport] at hsome
  · rw [htransport] at hreset ⊢
    exact ⟨hreset, rfl⟩

theorem inOrder_raise {j j' : Journal} (h : j.InOrder) {t : Transport} {newState : ExceptionState}
    {arg : Option ℕ} (htransport : j'.transport = t.raise newState arg)
    (hresets : j'.resets = j.resets) (hcompleted : j'.completed = j.completed)
    (hrequests : j'.requests = j.requests) (hep0 : t.ep0ReqTag = j.transport.ep0ReqTag)
    (hhandling : t.handling = j.transport.handling) (hstate : t.state = j.transport.state)
    (htag : t.exceptionReqTag = j.transport.exceptionReqTag) (hne : newState ≠ .protocolReset) :
    j'.InOrder := by
  refine h.of_same hresets hcompleted hrequests.ge ?_ (fun x hsome => ?_) fun hreset => ?_
  · rw [htransport, raise_ep0ReqTag, hep0, hrequests]
    exact h.latest
  · rwa [htransport, raise_handling, hhandling] at hsome
  · rw [htransport] at hreset ⊢
    rcases raise_cases t newState arg with ⟨hraised, -⟩ | ⟨-, hsame⟩
    · exact absurd (hraised.symm.trans hreset) hne
    · rw [hsame] at hreset ⊢
      exact ⟨hstate.symm.trans hreset, htag⟩

theorem next_tag {t : Transport} {n : ℕ} (h : t.ep0ReqTag = UInt32.ofNat n) :
    t.ep0ReqTag + 1 = UInt32.ofNat (n + 1) := by
  rw [h, UInt32.ofNat_add]
  rfl

/-- A request that is counted, and is no reset. -/
theorem inOrder_counted {j j' : Journal} (h : j.InOrder)
    (htransport : j'.transport = { j.transport with ep0ReqTag := j.transport.ep0ReqTag + 1 })
    (hresets : j'.resets = j.resets) (hcompleted : j'.completed = j.completed)
    (hrequests : j'.requests = j.requests + 1) : j'.InOrder := by
  refine h.of_same hresets hcompleted (by omega) ?_ (fun x hsome => ?_) fun hreset => ?_
  · rw [htransport, hrequests]
    exact next_tag h.latest
  · rw [htransport] at hsome
    exact hsome
  · rw [htransport] at hreset ⊢
    exact ⟨hreset, rfl⟩

theorem inOrder_bulkReset {j : Journal} (h : j.InOrder) : (j.step .bulkReset).InOrder := by
  by_cases hfsg : j.transport.fsg = none
  · have hnot : ¬ decide (j.transport.fsg ≠ none) = true := by
      rw [decide_eq_true_eq]
      exact not_not.mpr hfsg
    exact h.congr (if_pos hfsg) (if_neg hnot) rfl (if_neg hnot)
  have hcounts : decide (j.transport.fsg ≠ none) = true := decide_eq_true hfsg
  have hresets : (j.step .bulkReset).resets = j.resets ++ [j.requests + 1] := if_pos hcounts
  have hcompleted : (j.step .bulkReset).completed = j.completed := rfl
  have hrequests : (j.step .bulkReset).requests = j.requests + 1 := if_pos hcounts
  have htransport : (j.step .bulkReset).transport =
      ({ j.transport with ep0ReqTag := j.transport.ep0ReqTag + 1 } : Transport).raise
        .protocolReset none := if_neg hfsg
  have hnew (r : ℕ) (hr : r ∈ j.resets) : r < j.requests + 1 := Nat.lt_succ_of_le (h.counted r hr)
  have hlast : j.requests + 1 ∈ j.resets ++ [j.requests + 1] :=
    List.mem_append_right _ (List.mem_singleton.mpr rfl)
  -- a reset that is raised is the latest request
  have hraised (hreset : (j.step .bulkReset).transport.state = .protocolReset) :
      (j.step .bulkReset).transport.exceptionReqTag = UInt32.ofNat (j.requests + 1) := by
    rw [htransport] at hreset ⊢
    rcases raise_cases _ _ _ with ⟨-, -, htag, -⟩ | ⟨hprior, hsame⟩
    · exact htag.trans (next_tag h.latest)
    · rw [hsame] at hreset
      rw [hreset] at hprior
      exact absurd hprior (lt_irrefl _)
  refine ⟨?_, ?_, ?_, ?_, ?_, fun hreset => ?_, fun x hsome hold => ?_⟩
  · rw [hresets, List.pairwise_append]
    refine ⟨h.resets, List.pairwise_singleton _ _, fun r hr new hmem => ?_⟩
    rw [List.mem_singleton.mp hmem]
    exact hnew r hr
  · rw [hresets, hrequests]
    intro r hr
    rcases List.mem_append.mp hr with hold | hnow
    · exact (hnew r hold).le
    · rw [List.mem_singleton.mp hnow]
  · rw [hcompleted]
    exact h.completed
  · rw [hresets, hcompleted]
    exact fun r hr => List.mem_append_left _ (h.sound r hr)
  · rw [htransport, raise_ep0ReqTag, hrequests]
    exact next_tag h.latest
  · rw [hresets, hcompleted]
    exact ⟨_, hlast, hraised hreset, fun r hr => hnew r (h.sound r hr)⟩
  · rw [htransport, raise_handling] at hsome
    obtain ⟨n, hmem, hn, hless, -⟩ := h.handling x hsome hold
    rw [hresets, hcompleted]
    exact ⟨n, List.mem_append_left _ hmem, hn, hless, fun hreset =>
      ⟨_, hlast, hraised hreset, fun r hr => hnew r (h.sound r hr), hnew n hmem⟩⟩

theorem inOrder_handle {j : Journal} (h : j.InOrder) (interrupted : Bool) :
    (j.step (.handle interrupted)).InOrder := by
  rcases handle_cases j.transport interrupted with hsame | ⟨hstep, hnone, -, htaken⟩
  · exact h.congr hsame rfl rfl rfl
  have htransport : (j.step (.handle interrupted)).transport =
      j.transport.handleException interrupted := hstep
  have hcompleted : (j.step (.handle interrupted)).completed = j.completed := rfl
  have hlatest : (j.step (.handle interrupted)).transport.ep0ReqTag = UInt32.ofNat j.requests := by
    rw [htransport, handleException_ep0ReqTag]
    exact h.latest
  rcases htaken with ⟨hnone', hstate⟩ | ⟨hsome, hnormal⟩
  · refine h.of_same rfl hcompleted (le_refl _) hlatest
      (fun x hx => absurd (hx.symm.trans hnone') (Option.some_ne_none x)) fun hreset => ?_
    have hpending := hstate.symm.trans hreset
    rw [htransport, handleException_exceptionReqTag]
    exact ⟨(state_of_pending (by rw [hpending]; decide)).trans hpending, rfl⟩
  · refine ⟨h.resets, h.counted, h.completed, h.sound, hlatest,
      fun hreset => ExceptionState.noConfusion (hnormal.symm.trans hreset), fun x hx hold => ?_⟩
    obtain rfl := Option.some.inj (hsome.symm.trans hx)
    have hpending : j.transport.pending = .protocolReset := hold
    obtain ⟨n, hmem, hn, hless⟩ := h.pending
      ((state_of_pending (by rw [hpending]; decide)).trans hpending)
    exact ⟨n, hmem, hn, hless, fun hreset => ExceptionState.noConfusion (hnormal.symm.trans hreset)⟩

/-- A reset is completed where it is taken up, and is the latest request. -/
theorem completed_act {j : Journal} (hquiet : ∀ x, j.transport.handling = some x →
    x.oldState = .protocolReset → j.transport.fsg ≠ none → j.transport.ep0ReqTag ≠ x.reqTag)
    (done : Bool) : (j.step (.act done)).completed = j.completed := by
  have hnothing : ¬ j.transport.completes (.act done) = true := by
    simp only [Transport.completes]
    split
    · rename_i reqTag newFsg hpos
      have hsome : j.transport.handling = some ⟨.protocolReset, reqTag, newFsg⟩ := by
        rw [Transport.handling, hpos]
      rw [decide_eq_true_eq]
      exact fun hgoes => hquiet _ hsome rfl hgoes.1 hgoes.2
    · exact Bool.false_ne_true
  exact if_neg hnothing

theorem completed_act_none {j : Journal} (hnone : j.transport.handling = none) (done : Bool) :
    (j.step (.act done)).completed = j.completed :=
  completed_act (fun x hsome => absurd (hsome.symm.trans hnone) (Option.some_ne_none x)) done

theorem completed_reset {j : Journal} {x : TakenUp} (hsome : j.transport.handling = some x)
    (hold : x.oldState = .protocolReset) (hfsg : j.transport.fsg ≠ none)
    (hlatest : j.transport.ep0ReqTag = x.reqTag) (done : Bool) :
    (j.step (.act done)).completed = j.completed ++ [j.requests] := by
  have hcompletes : j.transport.completes (.act done) = true := by
    simp only [Transport.completes, handling_some hsome, hold]
    exact decide_eq_true ⟨hfsg, hlatest⟩
  exact if_pos hcompletes

theorem inOrder_act {j : Journal} (h : j.InOrder) (hcount : j.requests < UInt32.size) (done : Bool) :
    (j.step (.act done)).InOrder := by
  rcases act_cases j.transport done with ⟨hsame, hnone⟩ | ⟨x, hsome, hstep, hnone⟩
  · exact h.congr hsame rfl (completed_act_none hnone done) rfl
  have htransport : (j.step (.act done)).transport = j.transport.act x.oldState x.newFsg done := hstep
  obtain ⟨hep0, htag⟩ := act_reqTags j.transport x.oldState x.newFsg done
  obtain ⟨-, hstate⟩ := act_position j.transport x.oldState x.newFsg done
  rw [← htransport] at hep0 htag hstate
  have hpending (hreset : (j.step (.act done)).transport.state = .protocolReset) :
      j.transport.state = .protocolReset := by
    rcases hstate with hsame | hend
    · exact hsame.symm.trans hreset
    · exact ExceptionState.noConfusion (hend.symm.trans hreset)
  have hclear (y : TakenUp) : (j.step (.act done)).transport.handling ≠ some y :=
    fun hy => Option.some_ne_none y (hy.symm.trans hnone)
  by_cases hcompletes : x.oldState = .protocolReset ∧ j.transport.fsg ≠ none ∧
      j.transport.ep0ReqTag = x.reqTag
  · obtain ⟨hold, hfsg, hlatest⟩ := hcompletes
    obtain ⟨n, hmem, hn, hless, hnext⟩ := h.handling x hsome hold
    -- the tags have not wrapped around
    obtain rfl : n = j.requests := by
      have htags := congrArg UInt32.toNat ((hn.symm.trans hlatest.symm).trans h.latest)
      rwa [UInt32.toNat_ofNat_of_lt' ((h.counted n hmem).trans_lt hcount),
        UInt32.toNat_ofNat_of_lt' hcount] at htags
    have hcompleted := completed_reset hsome hold hfsg hlatest done
    refine ⟨h.resets, h.counted, ?_, ?_, hep0.trans h.latest, fun hreset => ?_,
      fun y hy => absurd hy (hclear y)⟩
    · rw [hcompleted, List.pairwise_append]
      refine ⟨h.completed, List.pairwise_singleton _ _, fun r hr new hnew => ?_⟩
      rw [List.mem_singleton.mp hnew]
      exact hless r hr
    · rw [hcompleted]
      intro r hr
      rcases List.mem_append.mp hr with hdone | hlast
      · exact h.sound r hdone
      · rw [List.mem_singleton.mp hlast]
        exact hmem
    · obtain ⟨m, hm, -, -, hlater⟩ := hnext (hpending hreset)
      exact absurd (h.counted m hm) (not_le.mpr hlater)
  · have hnothing : (j.step (.act done)).completed = j.completed := by
      refine completed_act (fun y hy hold hfsg hlatest => ?_) done
      obtain rfl := Option.some.inj (hsome.symm.trans hy)
      exact hcompletes ⟨hold, hfsg, hlatest⟩
    exact h.of_same rfl hnothing (le_refl _) (hep0.trans h.latest)
      (fun y hy => absurd hy (hclear y)) fun hreset => ⟨hpending hreset, htag⟩

theorem requests_le (j : Journal) (e : TransportEvent) : j.requests ≤ (j.step e).requests := by
  simp only [Journal.step]
  split_ifs <;> omega

theorem inOrder_step {j : Journal} (h : j.InOrder) {e : TransportEvent}
    (hcount : (j.step e).requests < UInt32.size) : (j.step e).InOrder := by
  by_cases hlocal : e.isLocal = true
  · have hkept := kept_step (t := j.transport) hlocal
    have hresets : (j.step e).resets = j.resets := by
      cases e <;> first | rfl | exact absurd hlocal Bool.false_ne_true
    have hcompleted : (j.step e).completed = j.completed := by
      cases e <;> first | rfl | exact absurd hlocal Bool.false_ne_true
    have hrequests : (j.step e).requests = j.requests := by
      cases e <;> first | rfl | exact absurd hlocal Bool.false_ne_true
    refine h.of_same hresets hcompleted hrequests.ge ?_ (fun x hsome => ?_) fun hreset => ?_
    · rw [hrequests]
      exact hkept.ep0ReqTag.trans h.latest
    · exact hkept.handling.symm.trans hsome
    · rcases hkept.exception with ⟨hstate, -, htag⟩ | ⟨-, hstate⟩
      · exact ⟨hstate.symm.trans hreset, htag⟩
      · exact ExceptionState.noConfusion (hstate.symm.trans hreset)
  · cases e with
    | setAlt fsg => exact inOrder_raise h (t := j.transport) rfl rfl rfl rfl rfl rfl rfl rfl (by decide)
    | disable fsg =>
      exact inOrder_raise h (t := { j.transport with enabled := _ }) rfl rfl rfl rfl rfl rfl rfl rfl
        (by decide)
    | unbind fsg =>
      by_cases hfsg : j.transport.fsg = some fsg
      · exact inOrder_raise h (t := j.transport) (if_pos hfsg) rfl rfl rfl rfl rfl rfl rfl (by decide)
      · exact h.congr (if_neg hfsg) rfl rfl rfl
    | otherSetup =>
      by_cases hfsg : j.transport.fsg = none
      · refine h.congr (if_pos hfsg) rfl rfl (if_neg ?_)
        rw [Transport.counts, decide_eq_true_eq]
        exact not_not.mpr hfsg
      · exact inOrder_counted h (if_neg hfsg) rfl rfl (if_pos (decide_eq_true hfsg))
    | exit => exact inOrder_raise h (t := j.transport) rfl rfl rfl rfl rfl rfl rfl rfl (by decide)
    | kill =>
      exact h.of_same rfl rfl (le_refl _) h.latest (fun _ hsome => hsome) fun hreset => ⟨hreset, rfl⟩
    | bulkReset => exact inOrder_bulkReset h
    | handle interrupted => exact inOrder_handle h interrupted
    | act done => exact inOrder_act h ((requests_le j _).trans_lt hcount) done
    | _ => exact absurd rfl hlocal

theorem inOrder_initial : Journal.initial.InOrder :=
  ⟨List.Pairwise.nil, fun _ h => absurd h List.not_mem_nil, List.Pairwise.nil,
    fun _ h => absurd h List.not_mem_nil, rfl, fun h => ExceptionState.noConfusion h,
    fun x h => absurd h.symm (Option.some_ne_none x)⟩

theorem inOrder_run {events : List TransportEvent}
    (hcount : (run Journal.step Journal.initial events).requests < UInt32.size) :
    (run Journal.step Journal.initial events).InOrder :=
  journal_invariant (fun j => j.requests < UInt32.size → j.InOrder) (fun _ => inOrder_initial)
    (fun j e hj hcount => inOrder_step (hj ((requests_le j e).trans_lt hcount)) hcount) events hcount

/-! ### The status stage of a configuration -/

/-- A configuration whose status stage is still to be completed. -/
def Transport.awaitsSetup (t : Transport) : Bool :=
  t.state = .configChange && t.exceptionArg.isSome

/-- A configuration that is being taken up. -/
def Transport.takesSetup (t : Transport) : Bool :=
  t.handling.any fun x => x.oldState = .configChange && x.newFsg.isSome

/-- Every status stage that was completed or is still to be belongs to a request of its own. -/
def Journal.Continues (j : Journal) : Prop :=
  j.continued + j.transport.awaitsSetup.toNat + j.transport.takesSetup.toNat ≤ j.setAlts

/-- Where no configuration is completed, and none is new. -/
theorem Journal.Continues.of_same {j j' : Journal} (h : j.Continues)
    (hcontinued : j'.continued = j.continued) (hsetAlts : j'.setAlts = j.setAlts)
    (hhandling : j'.transport.handling = j.transport.handling)
    (hawaits : j'.transport.awaitsSetup = true → j.transport.awaitsSetup = true) :
    j'.Continues := by
  have hle := Bool.toNat_le_toNat (Bool.le_iff_imp.mpr hawaits)
  unfold Journal.Continues Transport.takesSetup at h ⊢
  rw [hcontinued, hsetAlts, hhandling]
  omega

theorem raise_awaitsSetup {t : Transport} {newState : ExceptionState} {arg : Option ℕ}
    (harg : newState = .configChange → arg = none)
    (h : (t.raise newState arg).awaitsSetup = true) : t.awaitsSetup = true := by
  rcases raise_cases t newState arg with ⟨hstate, hexception, -⟩ | ⟨-, hsame⟩
  · simp only [Transport.awaitsSetup, Bool.and_eq_true, decide_eq_true_eq] at h
    rw [hexception, harg (hstate.symm.trans h.1)] at h
    cases h.2
  · rwa [hsame] at h

theorem continues_raise {j j' : Journal} (h : j.Continues) {t : Transport}
    {newState : ExceptionState} {arg : Option ℕ} (htransport : j'.transport = t.raise newState arg)
    (hcontinued : j'.continued = j.continued) (hsetAlts : j'.setAlts = j.setAlts)
    (hhandling : t.handling = j.transport.handling)
    (hawaits : t.awaitsSetup = true → j.transport.awaitsSetup = true)
    (harg : newState = .configChange → arg = none) : j'.Continues := by
  refine h.of_same hcontinued hsetAlts ?_ fun hraised => ?_
  · rw [htransport, raise_handling, hhandling]
  · rw [htransport] at hraised
    exact hawaits (raise_awaitsSetup harg hraised)

theorem continues_setAlt {j : Journal} (h : j.Continues) (fsg : ℕ) :
    (j.step (.setAlt fsg)).Continues := by
  have htakes : (j.step (.setAlt fsg)).transport.takesSetup = j.transport.takesSetup := by
    unfold Transport.takesSetup
    exact congrArg _ (raise_handling j.transport .configChange (some fsg))
  have hcontinued : (j.step (.setAlt fsg)).continued = j.continued := rfl
  have hsetAlts : (j.step (.setAlt fsg)).setAlts = j.setAlts + 1 := rfl
  have hle := (j.step (.setAlt fsg)).transport.awaitsSetup.toNat_le
  unfold Journal.Continues at h ⊢
  rw [htakes, hcontinued, hsetAlts]
  omega

theorem takesSetup_none {t : Transport} (h : t.handling = none) : t.takesSetup = false := by
  rw [Transport.takesSetup, h]
  rfl

theorem awaitsSetup_of_pending {t : Transport}
    (h : (t.pending = .configChange && t.exceptionArg.isSome) = true) : t.awaitsSetup = true := by
  simp only [Transport.awaitsSetup, Bool.and_eq_true, decide_eq_true_eq] at h ⊢
  exact ⟨(state_of_pending (by rw [h.1]; decide)).trans h.1, h.2⟩

theorem continues_handle {j : Journal} (h : j.Continues) (interrupted : Bool) :
    (j.step (.handle interrupted)).Continues := by
  have hcontinued : (j.step (.handle interrupted)).continued = j.continued := rfl
  have hsetAlts : (j.step (.handle interrupted)).setAlts = j.setAlts := rfl
  rcases handle_cases j.transport interrupted with hsame | ⟨hstep, hnone, -, htaken⟩
  · have htransport : (j.step (.handle interrupted)).transport = j.transport := hsame
    exact h.of_same hcontinued hsetAlts (congrArg _ htransport) fun hawaits => htransport ▸ hawaits
  rcases htaken with ⟨hnone', hstate⟩ | ⟨hsome, hnormal⟩
  · refine h.of_same hcontinued hsetAlts (hnone'.trans hnone.symm) fun hawaits => ?_
    have hstate' : (j.step (.handle interrupted)).transport.state = j.transport.pending := hstate
    have harg : (j.step (.handle interrupted)).transport.exceptionArg = j.transport.exceptionArg :=
      (congrArg _ hstep).trans (handleException_exceptionArg _ _)
    rw [Transport.awaitsSetup, hstate', harg] at hawaits
    exact awaitsSetup_of_pending hawaits
  · -- what was pending is being taken up
    have hnormal' : (j.step (.handle interrupted)).transport.awaitsSetup = false := by
      rw [Transport.awaitsSetup, show (j.step (.handle interrupted)).transport.state = .normal
        from hnormal]
      rfl
    have htakes : (j.step (.handle interrupted)).transport.takesSetup =
        (j.transport.pending = .configChange && j.transport.exceptionArg.isSome) := by
      rw [Transport.takesSetup, show (j.step (.handle interrupted)).transport.handling = _ from hsome]
      rfl
    have hle := Bool.toNat_le_toNat (Bool.le_iff_imp.mpr (awaitsSetup_of_pending (t := j.transport)))
    unfold Journal.Continues at h ⊢
    rw [hcontinued, hsetAlts, hnormal', htakes, Bool.toNat_false]
    omega

theorem act_exceptionArg (t : Transport) (oldState : ExceptionState) (newFsg : Option ℕ)
    (done : Bool) : (t.act oldState newFsg done).exceptionArg = t.exceptionArg := by
  unfold Transport.act Transport.setInterface
  cases oldState
  all_goals
    dsimp only
    try split_ifs
  all_goals rfl

theorem continuesSetup_act (t : Transport) (done : Bool) :
    t.continuesSetup (.act done) = t.takesSetup := by
  unfold Transport.continuesSetup Transport.takesSetup Transport.handling
  cases t.position with
  | handling oldState reqTag newFsg => cases oldState <;> rfl
  | _ => rfl

/-- A step of the thread that takes no exception up completes no configuration. -/
theorem continued_of_not_act {j : Journal} {e : TransportEvent} (he : ∀ done, e ≠ .act done) :
    (j.step e).continued = j.continued := by
  cases e with
  | act done => exact absurd rfl (he done)
  | _ => rfl

theorem continues_act {j : Journal} (h : j.Continues) (done : Bool) :
    (j.step (.act done)).Continues := by
  have hsetAlts : (j.step (.act done)).setAlts = j.setAlts := rfl
  have hcontinued : (j.step (.act done)).continued = j.continued + j.transport.takesSetup.toNat := by
    simp only [Journal.step, continuesSetup_act]
    cases j.transport.takesSetup <;> rfl
  rcases act_cases j.transport done with ⟨hsame, hnone⟩ | ⟨x, hsome, hstep, hnone⟩
  · have htransport : (j.step (.act done)).transport = j.transport := hsame
    rw [takesSetup_none hnone] at hcontinued
    exact h.of_same hcontinued hsetAlts (congrArg _ htransport) fun hawaits => htransport ▸ hawaits
  · have hawaits : (j.step (.act done)).transport.awaitsSetup = true →
        j.transport.awaitsSetup = true := by
      have htransport : (j.step (.act done)).transport =
        j.transport.act x.oldState x.newFsg done := hstep
      rw [htransport, Transport.awaitsSetup, act_exceptionArg]
      obtain ⟨-, hstate | hend⟩ := act_position j.transport x.oldState x.newFsg done
      · rw [hstate]
        exact id
      · rw [hend]
        exact fun hfalse => absurd hfalse Bool.false_ne_true
    have htakes : (j.step (.act done)).transport.takesSetup = false := takesSetup_none hnone
    have hle := Bool.toNat_le_toNat (Bool.le_iff_imp.mpr hawaits)
    unfold Journal.Continues at h ⊢
    rw [hcontinued, hsetAlts, htakes, Bool.toNat_false]
    omega

theorem continues_step (j : Journal) (e : TransportEvent) (h : j.Continues) :
    (j.step e).Continues := by
  -- of the thread itself only `act` completes anything
  by_cases hlocal : e.isLocal = true
  · have hkept := kept_step (t := j.transport) hlocal
    have hcontinued : (j.step e).continued = j.continued := continued_of_not_act (by
      rintro done rfl
      exact absurd hlocal Bool.false_ne_true)
    have hsetAlts : (j.step e).setAlts = j.setAlts := by
      cases e <;> first | rfl | exact absurd hlocal Bool.false_ne_true
    refine h.of_same hcontinued hsetAlts hkept.handling fun hawaits => ?_
    change (j.transport.step e).awaitsSetup = true at hawaits
    unfold Transport.awaitsSetup at hawaits ⊢
    rcases hkept.exception with ⟨hstate, harg, -⟩ | ⟨-, hstate⟩
    · rwa [hstate, harg] at hawaits
    · rw [hstate] at hawaits
      exact absurd hawaits Bool.false_ne_true
  · cases e with
    | setAlt fsg => exact continues_setAlt h fsg
    | disable fsg =>
      exact continues_raise h (t := { j.transport with enabled := _ }) rfl rfl rfl rfl id fun _ => rfl
    | unbind fsg =>
      by_cases hfsg : j.transport.fsg = some fsg
      · exact continues_raise h (t := j.transport) (if_pos hfsg) rfl rfl rfl id fun _ => rfl
      · have htransport : (j.step (.unbind fsg)).transport = j.transport := if_neg hfsg
        exact h.of_same rfl rfl (congrArg _ htransport) fun hawaits => htransport ▸ hawaits
    | otherSetup =>
      by_cases hfsg : j.transport.fsg = none
      · have htransport : (j.step .otherSetup).transport = j.transport := if_pos hfsg
        exact h.of_same rfl rfl (congrArg _ htransport) fun hawaits => htransport ▸ hawaits
      · have htransport : (j.step .otherSetup).transport =
            { j.transport with ep0ReqTag := j.transport.ep0ReqTag + 1 } := if_neg hfsg
        refine h.of_same rfl rfl ?_ fun hawaits => ?_
        · rw [htransport]
          rfl
        · rw [htransport] at hawaits
          exact hawaits
    | bulkReset =>
      by_cases hfsg : j.transport.fsg = none
      · have htransport : (j.step .bulkReset).transport = j.transport := if_pos hfsg
        exact h.of_same rfl rfl (congrArg _ htransport) fun hawaits => htransport ▸ hawaits
      · exact continues_raise h (t := { j.transport with ep0ReqTag := _ }) (if_neg hfsg) rfl rfl rfl id
          fun hne => ExceptionState.noConfusion hne
    | exit => exact continues_raise h (t := j.transport) rfl rfl rfl rfl id fun _ => rfl
    | kill => exact h.of_same rfl rfl rfl id
    | handle interrupted => exact continues_handle h interrupted
    | act done => exact continues_act h done
    | _ => exact absurd rfl hlocal

/-- Whatever preempts them, the control requests that are completed are bulk resets, each is
completed at most once, and they are completed in the order in which they came, as long as their
tags do not wrap around. The status stage of a configuration is completed at most once, too. -/
theorem resets_completed_once {events : List TransportEvent}
    (hcount : (run Journal.step Journal.initial events).requests < UInt32.size) :
    let j := run Journal.step Journal.initial events
    j.completed.Sublist j.resets ∧ j.resets.Pairwise (· < ·) ∧ j.continued ≤ j.setAlts := by
  have h := inOrder_run hcount
  have hcontinues : (run Journal.step Journal.initial events).Continues :=
    journal_invariant Journal.Continues (Nat.zero_le 0) continues_step events
  refine ⟨List.sublist_of_subperm_of_pairwise (List.subperm_of_subset (h.completed.imp ne_of_lt) h.sound)
    h.completed h.resets, h.resets, ?_⟩
  exact (Nat.le_add_right _ _).trans ((Nat.le_add_right _ _).trans hcontinues)

/-- The first reset is overtaken by the second while it is taken up. -/
theorem resets_completed_once_example :
    [2].Sublist (run Journal.step Journal.initial [.setAlt 1, .handle false, .act true, .bulkReset,
      .handle false, .bulkReset, .act true, .handle false, .act true]).resets := by
  have hcount : (run Journal.step Journal.initial [.setAlt 1, .handle false, .act true, .bulkReset,
      .handle false, .bulkReset, .act true, .handle false, .act true]).requests < UInt32.size := by
    decide
  exact (resets_completed_once hcount).1

/-! ### No reset is lost -/

/-- The thread itself, and what leaves the exceptions to it. -/
def TransportEvent.byThread : TransportEvent → Bool
  | .handle _ | .act _ => true
  | e => e.isLocal

/-- How far the reset of number `n` has come that nothing preempts. -/
inductive Journal.ResetPhase (n : ℕ) (before : List ℕ) (j : Journal) : Prop
  | raised (hstate : j.transport.state = .protocolReset)
    (htag : j.transport.exceptionReqTag = UInt32.ofNat n) (hcompleted : j.completed = before)
    (hhandling : ∀ x, j.transport.handling = some x → x.oldState ≠ .configChange ∧
      x.oldState ≠ .exit ∧ (x.oldState = .protocolReset → x.reqTag ≠ UInt32.ofNat n))
  | takenUp (newFsg : Option ℕ) (hstate : j.transport.state.priority ≤ 1)
    (hcompleted : j.completed = before)
    (hhandling : j.transport.handling = some ⟨.protocolReset, UInt32.ofNat n, newFsg⟩)
  | completed (hstate : j.transport.state.priority ≤ 1) (hcompleted : j.completed = before ++ [n])
    (hhandling : ∀ x, j.transport.handling = some x → x.oldState.priority ≤ 1)

structure Journal.Resetting (n : ℕ) (before : List ℕ) (j : Journal) : Prop where
  configured : j.transport.fsg ≠ none
  requests : j.requests = n
  latest : j.transport.ep0ReqTag = UInt32.ofNat n
  alive : j.transport.killed = false
  phase : j.ResetPhase n before

section Resetting
variable {n : ℕ} {before : List ℕ} {j : Journal} (h : j.Resetting n before)
include h

theorem Journal.Resetting.congr {j' : Journal} (htransport : j'.transport = j.transport)
    (hcompleted : j'.completed = j.completed) (hrequests : j'.requests = j.requests) :
    j'.Resetting n before := by
  obtain ⟨t, accepted, statuses, requests, resets, completed, requested, failed, setAlts,
    continued⟩ := j
  obtain ⟨t', accepted', statuses', requests', resets', completed', requested', failed', setAlts',
    continued'⟩ := j'
  obtain rfl : t' = t := htransport
  obtain rfl : completed' = completed := hcompleted
  refine ⟨h.configured, hrequests.trans h.requests, h.latest, h.alive, ?_⟩
  cases h.phase with
  | raised hstate htag hcompleted hhandling => exact .raised hstate htag hcompleted hhandling
  | takenUp newFsg hstate hcompleted hhandling => exact .takenUp newFsg hstate hcompleted hhandling
  | completed hstate hcompleted hhandling => exact .completed hstate hcompleted hhandling

theorem resetting_local {e : TransportEvent} (hlocal : e.isLocal = true) :
    (j.step e).Resetting n before := by
  have hkept := kept_step (t := j.transport) hlocal
  have hsame : (j.step e).completed = j.completed := by
    cases e <;> first | rfl | exact absurd hlocal Bool.false_ne_true
  have hrequests : (j.step e).requests = j.requests := by
    cases e <;> first | rfl | exact absurd hlocal Bool.false_ne_true
  have hlow (hbefore : j.transport.state.priority ≤ 1) : (j.step e).transport.state.priority ≤ 1 := by
    rcases hkept.exception with ⟨hstate, -⟩ | ⟨-, hstate⟩
    · exact (congrArg _ hstate).trans_le hbefore
    · exact (congrArg _ hstate).le
  refine ⟨fun hnone => h.configured (hkept.fsg.symm.trans hnone), hrequests.trans h.requests,
    hkept.ep0ReqTag.trans h.latest, hkept.killed.trans h.alive, ?_⟩
  cases h.phase with
  | raised hstate htag hcompleted hhandling =>
    rcases hkept.exception with ⟨hstate', -, htag'⟩ | ⟨hprior, -⟩
    · exact .raised (hstate'.trans hstate) (htag'.trans htag) (hsame.trans hcompleted)
        fun x hx => hhandling x (hkept.handling.symm.trans hx)
    · rw [hstate] at hprior
      exact absurd hprior (by decide)
  | takenUp newFsg hstate hcompleted hhandling =>
    exact .takenUp newFsg (hlow hstate) (hsame.trans hcompleted) (hkept.handling.trans hhandling)
  | completed hstate hcompleted hhandling =>
    exact .completed (hlow hstate) (hsame.trans hcompleted)
      fun x hx => hhandling x (hkept.handling.symm.trans hx)

theorem resetting_handle (interrupted : Bool) :
    (j.step (.handle interrupted)).Resetting n before := by
  rcases handle_cases j.transport interrupted with hstep | ⟨hstep, hnone, -, htaken⟩
  · exact h.congr hstep rfl rfl
  have htransport : (j.step (.handle interrupted)).transport =
      j.transport.handleException interrupted := hstep
  have hsame : (j.step (.handle interrupted)).completed = j.completed := rfl
  have hpending : j.transport.pending = j.transport.state := if_neg (by rw [h.alive]; decide)
  refine ⟨?_, h.requests, ?_, ?_, ?_⟩
  · rw [htransport, handleException_fsg]
    exact h.configured
  · rw [htransport, handleException_ep0ReqTag]
    exact h.latest
  · rw [htransport, handleException_killed]
  cases h.phase with
  | raised hstate htag hcompleted hhandling =>
    rw [hpending, hstate, htag] at htaken
    rcases htaken with ⟨hnone', hstate'⟩ | ⟨hsome, hnormal⟩
    · refine .raised hstate' ?_ (hsame.trans hcompleted) fun x hx =>
        absurd (hx.symm.trans hnone') (Option.some_ne_none x)
      rw [htransport, handleException_exceptionReqTag]
      exact htag
    · exact .takenUp _ ((congrArg _ hnormal).trans_le (by decide)) (hsame.trans hcompleted) hsome
  -- it is still being acted on
  | takenUp newFsg hstate hcompleted hhandling =>
    exact absurd (hhandling.symm.trans hnone) (Option.some_ne_none _)
  | completed hstate hcompleted hhandling =>
    rw [hpending] at htaken
    rcases htaken with ⟨hnone', hstate'⟩ | ⟨hsome, hnormal⟩
    · exact .completed ((congrArg _ hstate').trans_le hstate) (hsame.trans hcompleted)
        fun x hx => absurd (hx.symm.trans hnone') (Option.some_ne_none x)
    · refine .completed ((congrArg _ hnormal).trans_le (by decide)) (hsame.trans hcompleted)
        fun x hx => ?_
      obtain rfl := Option.some.inj (hsome.symm.trans hx)
      exact hstate

theorem resetting_quiet {x : TakenUp} (hsome : j.transport.handling = some x) :
    x.oldState ≠ .configChange ∧ x.oldState ≠ .exit := by
  cases h.phase with
  | raised hstate htag hcompleted hhandling =>
    exact ⟨(hhandling x hsome).1, (hhandling x hsome).2.1⟩
  | takenUp newFsg hstate hcompleted hhandling =>
    obtain rfl := Option.some.inj (hhandling.symm.trans hsome)
    exact ⟨ExceptionState.noConfusion, ExceptionState.noConfusion⟩
  | completed hstate hcompleted hhandling =>
    have hlow := hhandling x hsome
    exact ⟨fun hchange => absurd (hchange ▸ hlow) (by decide),
      fun hexit => absurd (hexit ▸ hlow) (by decide)⟩

theorem resetting_act (done : Bool) : (j.step (.act done)).Resetting n before := by
  rcases act_cases j.transport done with ⟨hsame, hnone⟩ | ⟨x, hsome, hstep, hnone⟩
  · exact h.congr hsame (completed_act_none hnone done) rfl
  obtain ⟨hchange, hexit⟩ := resetting_quiet h hsome
  obtain ⟨ignoreBulkOut, hact⟩ := act_quiet (t := j.transport) hchange hexit x.newFsg done
  have htransport : (j.step (.act done)).transport =
      { j.transport with position := .top, ignoreBulkOut } := hstep.trans hact
  have hclear (y : TakenUp) (hy : (j.step (.act done)).transport.handling = some y) : False :=
    Option.some_ne_none y (hy.symm.trans hnone)
  refine ⟨?_, h.requests, ?_, ?_, ?_⟩
  · rw [htransport]
    exact h.configured
  · rw [htransport]
    exact h.latest
  · rw [htransport]
    exact h.alive
  cases h.phase with
  | raised hstate htag hcompleted hhandling =>
    -- an older reset is taken up, whose tag is not the latest any more
    have hsame := completed_act (fun y hy hold _ hlatest =>
      (hhandling y hy).2.2 hold (hlatest.symm.trans h.latest)) done
    refine .raised ?_ ?_ (hsame.trans hcompleted) fun y hy => (hclear y hy).elim
    · rw [htransport]
      exact hstate
    · rw [htransport]
      exact htag
  | takenUp newFsg hstate hcompleted hhandling =>
    refine .completed ?_ ?_ fun y hy => (hclear y hy).elim
    · rw [htransport]
      exact hstate
    · rw [completed_reset hhandling rfl h.configured h.latest, hcompleted, h.requests]
  | completed hstate hcompleted hhandling =>
    have hsame := completed_act (fun y hy hold => absurd (hold ▸ hhandling y hy) (by decide)) done
    refine .completed ?_ (hsame.trans hcompleted) fun y hy => (hclear y hy).elim
    rw [htransport]
    exact hstate

theorem resetting_step {e : TransportEvent} (hthread : e.byThread = true) :
    (j.step e).Resetting n before := by
  cases e with
  | handle interrupted => exact resetting_handle h interrupted
  | act done => exact resetting_act h done
  | _ => exact resetting_local h hthread

end Resetting

/-- A bulk reset that comes while a function is configured, and no exception above it is pending or
in progress, is completed once the thread has come round, as long as only the thread acts. -/
theorem reset_completed {before events : List TransportEvent}
    (hcount : (run Journal.step Journal.initial before).requests + 1 < UInt32.size)
    (hconfigured : (run Journal.step Journal.initial before).transport.fsg ≠ none)
    (halive : (run Journal.step Journal.initial before).transport.killed = false)
    (hpending : (run Journal.step Journal.initial before).transport.state.priority ≤
      ExceptionState.protocolReset.priority)
    (hprogress : ∀ x, (run Journal.step Journal.initial before).transport.handling = some x →
      x.oldState ≠ .configChange ∧ x.oldState ≠ .exit)
    (hthread : ∀ e ∈ events, e.byThread = true)
    (hready : (run Journal.step Journal.initial (before ++ .bulkReset :: events)).transport.Ready) :
    (run Journal.step Journal.initial (before ++ .bulkReset :: events)).completed =
      (run Journal.step Journal.initial before).completed ++
        [(run Journal.step Journal.initial before).requests + 1] := by
  have horder := inOrder_run (Nat.lt_of_succ_lt hcount)
  simp only [run_append, run_cons] at hready ⊢
  set j := run Journal.step Journal.initial before
  have hraise : (j.step .bulkReset).transport =
      { j.transport with
        ep0ReqTag := j.transport.ep0ReqTag + 1
        exceptionReqTag := j.transport.ep0ReqTag + 1
        state := .protocolReset
        exceptionArg := none
        signalPending := true } := (if_neg hconfigured).trans (if_pos hpending)
  have hstart : (j.step .bulkReset).Resetting (j.requests + 1) j.completed := by
    refine ⟨?_, if_pos (decide_eq_true hconfigured), ?_, ?_, .raised ?_ ?_ rfl fun x hx => ?_⟩
    · rw [hraise]
      exact hconfigured
    · rw [hraise]
      exact next_tag horder.latest
    · rw [hraise]
      exact halive
    · rw [hraise]
    · rw [hraise]
      exact next_tag horder.latest
    · -- tags are told apart as long as they do not wrap around
      rw [hraise] at hx
      have hx' : j.transport.handling = some x := hx
      refine ⟨(hprogress x hx').1, (hprogress x hx').2, fun hold htag => ?_⟩
      obtain ⟨n, hmem, hn, -⟩ := horder.handling x hx' hold
      have hle := horder.counted n hmem
      have htags := congrArg UInt32.toNat (hn.symm.trans htag)
      rw [UInt32.toNat_ofNat_of_lt' (by omega), UInt32.toNat_ofNat_of_lt' hcount] at htags
      omega
  have hkept (j' : Journal) (e : TransportEvent) (hj' : j'.Resetting (j.requests + 1) j.completed)
      (he : e.byThread = true) : (j'.step e).Resetting (j.requests + 1) j.completed :=
    resetting_step hj' he
  have hend := run_invariant hkept hstart (guarded_of_mem _ hthread)
  have hnone : (run Journal.step (j.step .bulkReset) events).transport.handling = none := by
    rw [Transport.handling, hready.position]
  cases hend.phase with
  | raised hstate => exact ExceptionState.noConfusion (hready.state.symm.trans hstate)
  | takenUp _ _ _ hhandling => exact absurd (hhandling.symm.trans hnone) (Option.some_ne_none _)
  | completed _ hcompleted => exact hcompleted

/-- Another request came before the reset, and a signal comes while it is taken up. -/
theorem reset_completed_example :
    (run Journal.step Journal.initial ([.setAlt 1, .handle false, .act true, .otherSetup] ++
      [.bulkReset, .handle true, .handle false, .act true])).completed = [2] := by
  have hcount : (run Journal.step Journal.initial
      [.setAlt 1, .handle false, .act true, .otherSetup]).requests + 1 < UInt32.size := by decide
  exact reset_completed hcount (by decide) (by decide) (by decide)
    (fun x hsome => absurd (show some x = none from hsome.symm) (Option.some_ne_none x)) (by decide)
    ⟨rfl, rfl, rfl⟩

end UsbFloppy.Kernel

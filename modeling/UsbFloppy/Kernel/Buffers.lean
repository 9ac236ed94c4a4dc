import UsbFloppy.Kernel.Counters
import UsbFloppy.Kernel.Medium
import UsbFloppy.Lib.RingQueue
import UsbFloppy.Lib.Run

/-! The loop of do_write on the ring of buffer heads, while the controller fills the buffers.
The loop of Medium, which knows the lengths under way only, is what it comes to in every
order of events. -/

namespace UsbFloppy.Kernel
open Files Transition RingQueue

/-- `enum fsg_buffer_state`. -/
inductive FsgBufferState
  | sending
  | receiving
  | empty
  | full
  deriving DecidableEq, Repr

/-- `struct fsg_buffhd`, with the length and the status its request came back with. `number`
counts the requests of a command. -/
structure FsgBuffhd where
  state : FsgBufferState
  buf : ℕ → UInt8
  bulkOutIntendedLength : ℕ
  status : ℤ
  actual : ℕ
  number : ℕ

/-- The variables of `do_write` and the buffer heads, each followed by the next and the last
by the first. -/
structure WriteRing (n : ℕ) where
  transfer : Transfer
  contents : Contents
  usbOffset : ℕ
  fileOffset : ℕ
  leftToReq : ℕ
  leftToWrite : ℕ
  getSomeMore : Bool
  buffhds : Fin n → FsgBuffhd
  nextBuffhdToFill : Fin n
  nextBuffhdToDrain : Fin n
  requested : ℕ

/-- The thread is in the loop, or has left it with an error. -/
inductive WriteThread (n : ℕ)
  | looping (s : WriteRing n)
  | left (e : Errno) (s : WriteRing n)

/-- The thread takes its next step, or the controller completes the request of a buffer. -/
inductive WriteEvent (n : ℕ)
  | thread
  | bulkOutComplete (i : Fin n)

variable {n : ℕ}

def WriteRing.setBuffhd (s : WriteRing n) (i : Fin n) (bh : FsgBuffhd) : WriteRing n :=
  { s with buffhds := Function.update s.buffhds i bh }

/-- The body of the loop for a buffer that came back. -/
def WriteRing.drain (chunks : ℕ → WriteChunk) (s : WriteRing n) (bh : FsgBuffhd) : WriteThread n :=
  let s := { s.setBuffhd s.nextBuffhdToDrain { bh with state := .empty } with
    nextBuffhdToDrain := next s.nextBuffhdToDrain }
  let t := s.transfer
  if bh.status ≠ 0 then
    .left noDefaultReply { s with transfer := t.fail SS_COMMUNICATION_FAILURE s.fileOffset }
  else
    let amount := min (min bh.actual (t.curlun.fileLength - s.fileOffset)) bh.bulkOutIntendedLength
    let amount := amount / t.curlun.blksize * t.curlun.blksize
    if amount = 0 then
      if bh.actual < bh.bulkOutIntendedLength then
        .left noDefaultReply { s with transfer := { t with shortPacketReceived := true } }
      else .looping s
    else
      let result := kernelIo (chunks bh.number).available amount
      let nwritten := t.curlun.settle amount result
      let t := t.move s.fileOffset result
      let s := { s with contents := s.contents.write s.fileOffset (result.getD 0) bh.buf }
      if (chunks bh.number).signal then .left .EINTR { s with transfer := t }
      else
        let t := { t with residue := t.residue - UInt32.ofNat nwritten }
        if nwritten < amount then
          .left noDefaultReply
            { s with transfer := t.fail SS_WRITE_ERROR (s.fileOffset + nwritten) }
        else if bh.actual < bh.bulkOutIntendedLength then
          .left noDefaultReply { s with transfer := { t with shortPacketReceived := true } }
        else
          .looping
            { s with
              transfer := t
              fileOffset := s.fileOffset + nwritten
              leftToWrite := s.leftToWrite - nwritten }

/-- One pass through the loop. A thread that has to wait stays where it is. -/
def WriteRing.pass (chunks : ℕ → WriteChunk) (s : WriteRing n) : WriteThread n :=
  let t := s.transfer
  if s.leftToWrite = 0 then .left noDefaultReply s
  else
    let bh := s.buffhds s.nextBuffhdToFill
    if bh.state = .empty ∧ s.getSomeMore then
      let amount := min s.leftToReq FSG_BUFLEN
      if s.usbOffset ≥ t.curlun.fileLength then
        .looping
          { s with
            transfer := t.fail SS_LOGICAL_BLOCK_ADDRESS_OUT_OF_RANGE s.usbOffset
            getSomeMore := false }
      else
        let s :=
          { s with
            transfer := { t with usbAmountLeft := t.usbAmountLeft - UInt32.ofNat amount }
            usbOffset := s.usbOffset + amount
            leftToReq := s.leftToReq - amount
            getSomeMore := s.leftToReq - amount ≠ 0 }
        if (chunks s.requested).started then
          .looping
            { s.setBuffhd s.nextBuffhdToFill
                { bh with
                  state := .receiving, bulkOutIntendedLength := amount, number := s.requested } with
              nextBuffhdToFill := next s.nextBuffhdToFill
              requested := s.requested + 1 }
        else .left noDefaultReply s
    else
      let bh := s.buffhds s.nextBuffhdToDrain
      if bh.state = .empty ∧ s.getSomeMore = false then .left noDefaultReply s
      else if bh.state = .sending ∨ bh.state = .receiving then
        if (chunks bh.number).interrupted then .left .EINTR s else .looping s
      else s.drain chunks bh

/-- `bulk_out_complete`. The requests of an endpoint are filled in the order they were queued,
so that request `k` gets the bytes of the host from `FSG_BUFLEN * k` on. The one a signal
comes before is not completed in time. -/
def WriteRing.complete (chunks : ℕ → WriteChunk) (data : ℕ → UInt8) (s : WriteRing n)
    (i : Fin n) : WriteRing n :=
  let bh := s.buffhds i
  let chunk := chunks bh.number
  if bh.state = .receiving ∧ chunk.interrupted = false then
    s.setBuffhd i
      { bh with
        state := .full
        buf := fun j => data (FSG_BUFLEN * bh.number + j)
        status := chunk.status
        actual := chunk.actual }
  else s

def WriteThread.step (chunks : ℕ → WriteChunk) (data : ℕ → UInt8) :
    WriteThread n → WriteEvent n → WriteThread n
  | .looping s, .thread => s.pass chunks
  | .looping s, .bulkOutComplete i => .looping (s.complete chunks data i)
  | .left e s, .thread => .left e s
  | .left e s, .bulkOutComplete i => .left e (s.complete chunks data i)

/-! ### The ring as a queue -/

/-- The request a buffer head stands for. -/
def FsgBuffhd.request (bh : FsgBuffhd) : Option (ℕ × ℕ) :=
  if bh.state = .empty then none else some (bh.bulkOutIntendedLength, bh.number)

/-- A full buffer holds what the host sent for its request, and none is on its way out. -/
structure FsgBuffhd.Sound (chunks : ℕ → WriteChunk) (data : ℕ → UInt8) (bh : FsgBuffhd) :
    Prop where
  notSending : bh.state ≠ .sending
  inTime : bh.state = .full → (chunks bh.number).interrupted = false
  status : bh.state = .full → bh.status = (chunks bh.number).status
  actual : bh.state = .full → bh.actual = (chunks bh.number).actual
  buf : bh.state = .full → bh.buf = fun j => data (FSG_BUFLEN * bh.number + j)

/-- The buffer heads are the requests under way, in their order. -/
structure Buffered (chunks : ℕ → WriteChunk) (data : ℕ → UInt8) (s : WriteRing n)
    (w : WriteState) : Prop where
  size : s.transfer.numBuffers.1 = n
  holds : Holds (fun i => (s.buffhds i).request) s.nextBuffhdToDrain s.nextBuffhdToFill
    (w.inFlight.zipIdx w.drained)
  count : w.requested = w.drained + w.inFlight.length
  requested : s.requested = w.requested
  sound : ∀ i, (s.buffhds i).Sound chunks data

/-- The variables agree as well. -/
structure Follows (chunks : ℕ → WriteChunk) (data : ℕ → UInt8) (s : WriteRing n)
    (w : WriteState) : Prop extends Buffered chunks data s w where
  usbOffset : s.usbOffset = w.usbOffset
  fileOffset : s.fileOffset = w.fileOffset
  leftToReq : s.leftToReq = w.leftToReq
  leftToWrite : s.leftToWrite = w.leftToWrite
  getSomeMore : s.getSomeMore = w.getSomeMore

theorem FsgBuffhd.request_eq_none {bh : FsgBuffhd} : bh.request = none ↔ bh.state = .empty := by
  unfold FsgBuffhd.request
  split_ifs with hempty
  · exact ⟨fun _ => hempty, fun _ => rfl⟩
  · exact ⟨fun h => (by cases h), fun h => absurd h hempty⟩

theorem FsgBuffhd.request_of_ne {bh : FsgBuffhd} (h : bh.state ≠ .empty) :
    bh.request = some (bh.bulkOutIntendedLength, bh.number) := if_neg h

theorem FsgBuffhd.Sound.of_ne {chunks : ℕ → WriteChunk} {data : ℕ → UInt8} {bh : FsgBuffhd}
    (hsending : bh.state ≠ .sending) (hfull : bh.state ≠ .full) : bh.Sound chunks data where
  notSending := hsending
  inTime h := absurd h hfull
  status h := absurd h hfull
  actual h := absurd h hfull
  buf h := absurd h hfull

@[simp] theorem setBuffhd_buffhds (s : WriteRing n) (i : Fin n) (bh : FsgBuffhd) :
    (s.setBuffhd i bh).buffhds = Function.update s.buffhds i bh := rfl

theorem request_setBuffhd (s : WriteRing n) (i : Fin n) (bh : FsgBuffhd) :
    (fun j => ((s.setBuffhd i bh).buffhds j).request) =
      Function.update (fun j => (s.buffhds j).request) i bh.request := by
  funext j
  rw [setBuffhd_buffhds]
  by_cases hj : j = i
  · rw [hj, Function.update_self, Function.update_self]
  · rw [Function.update_of_ne hj, Function.update_of_ne hj]

variable {chunks : ℕ → WriteChunk} {data : ℕ → UInt8} {s : WriteRing n} {w : WriteState}

theorem sound_setBuffhd (h : ∀ i, (s.buffhds i).Sound chunks data) {i : Fin n} {bh : FsgBuffhd}
    (hbh : bh.Sound chunks data) (j : Fin n) :
    ((s.setBuffhd i bh).buffhds j).Sound chunks data := by
  rw [setBuffhd_buffhds]
  by_cases hj : j = i
  · rw [hj, Function.update_self]
    exact hbh
  · rw [Function.update_of_ne hj]
    exact h j

/-- A completion changes neither the requests nor their order. -/
theorem Buffered.complete (h : Buffered chunks data s w) (i : Fin n) :
    Buffered chunks data (s.complete chunks data i) w := by
  unfold WriteRing.complete
  dsimp only
  split_ifs with hready
  · refine ⟨h.size, ?_, h.count, h.requested, sound_setBuffhd h.sound ?_⟩
    · have hsame : (s.buffhds i).request =
          some ((s.buffhds i).bulkOutIntendedLength, (s.buffhds i).number) :=
        FsgBuffhd.request_of_ne (by rw [hready.1]; decide)
      rw [request_setBuffhd, FsgBuffhd.request_of_ne FsgBufferState.noConfusion, ← hsame,
        Function.update_eq_self (f := fun j => (s.buffhds j).request)]
      exact h.holds
    · exact ⟨FsgBufferState.noConfusion, fun _ => hready.2, fun _ => rfl, fun _ => rfl,
        fun _ => rfl⟩
  · exact h

theorem Follows.complete (h : Follows chunks data s w) (i : Fin n) :
    Follows chunks data (s.complete chunks data i) w := by
  have hbuffered := h.toBuffered.complete i
  unfold WriteRing.complete at hbuffered ⊢
  dsimp only at hbuffered ⊢
  split_ifs at hbuffered ⊢
  · exact ⟨hbuffered, h.usbOffset, h.fileOffset, h.leftToReq, h.leftToWrite, h.getSomeMore⟩
  · exact h

/-- There is room in the ring exactly when the buffer head to fill is empty. -/
theorem Buffered.room (h : Buffered chunks data s w) :
    (s.buffhds s.nextBuffhdToFill).state = .empty ↔
      w.inFlight.length < s.transfer.numBuffers.1 := by
  have hfree := h.holds.free
  rw [FsgBuffhd.request_eq_none, List.length_zipIdx] at hfree
  rw [h.size]
  exact hfree

/-- The buffer head to drain is the one of the oldest request. -/
theorem Buffered.oldest (h : Buffered chunks data s w) {intended : ℕ} {rest : List ℕ}
    (hw : w.inFlight = intended :: rest) :
    (s.buffhds s.nextBuffhdToDrain).state ≠ .empty ∧
      (s.buffhds s.nextBuffhdToDrain).bulkOutIntendedLength = intended ∧
      (s.buffhds s.nextBuffhdToDrain).number = w.drained := by
  have hhead := h.holds.head
  simp only [hw, List.zipIdx_cons, List.getElem?_cons_zero] at hhead
  have hstate : (s.buffhds s.nextBuffhdToDrain).state ≠ .empty := by
    intro hempty
    rw [FsgBuffhd.request_eq_none.mpr hempty] at hhead
    cases hhead
  rw [FsgBuffhd.request_of_ne hstate] at hhead
  obtain ⟨hintended, hnumber⟩ := Prod.mk.inj (Option.some.inj hhead)
  exact ⟨hstate, hintended, hnumber⟩

theorem Buffered.none_left (h : Buffered chunks data s w) (hw : w.inFlight = []) :
    (s.buffhds s.nextBuffhdToDrain).state = .empty := by
  have hhead := h.holds.head
  simp only [hw, List.zipIdx_nil, List.getElem?_nil] at hhead
  exact FsgBuffhd.request_eq_none.mp hhead

/-- The buffer head to drain is emptied, and the next one is the oldest. -/
theorem Buffered.drained (h : Buffered chunks data s w) {intended : ℕ} {rest : List ℕ}
    (hw : w.inFlight = intended :: rest) {bh : FsgBuffhd} (hbh : bh.state = .empty)
    (s' : WriteRing n) (w' : WriteState)
    (hsize : s'.transfer.numBuffers = s.transfer.numBuffers)
    (hbuffhds : s'.buffhds = Function.update s.buffhds s.nextBuffhdToDrain bh)
    (hfill : s'.nextBuffhdToFill = s.nextBuffhdToFill)
    (hdrain : s'.nextBuffhdToDrain = next s.nextBuffhdToDrain)
    (hrequested : s'.requested = s.requested) (hrest : w'.inFlight = rest)
    (hsame : w'.requested = w.requested) (hdrained : w'.drained = w.drained + 1) :
    Buffered chunks data s' w' where
  size := by rw [hsize]; exact h.size
  holds := by
    have hholds := h.holds
    rw [hw, List.zipIdx_cons] at hholds
    have hpop := hholds.pop
    rw [← FsgBuffhd.request_eq_none.mpr hbh, ← request_setBuffhd] at hpop
    rw [hbuffhds, hfill, hdrain, hrest, hdrained]
    exact hpop
  count := by
    have hcount := h.count
    rw [hw, List.length_cons] at hcount
    rw [hsame, hrest, hdrained]
    omega
  requested := by rw [hrequested, hsame]; exact h.requested
  sound := by
    rw [hbuffhds]
    exact sound_setBuffhd h.sound (.of_ne
      (fun h => FsgBufferState.noConfusion (hbh.symm.trans h))
      fun h => FsgBufferState.noConfusion (hbh.symm.trans h))

/-- A request is queued behind all others. -/
theorem Buffered.queued (h : Buffered chunks data s w)
    (hroom : w.inFlight.length < s.transfer.numBuffers.1) {bh : FsgBuffhd}
    (hstate : bh.state = .receiving) (hnumber : bh.number = s.requested)
    (s' : WriteRing n) (w' : WriteState)
    (hsize : s'.transfer.numBuffers = s.transfer.numBuffers)
    (hbuffhds : s'.buffhds = Function.update s.buffhds s.nextBuffhdToFill bh)
    (hfill : s'.nextBuffhdToFill = next s.nextBuffhdToFill)
    (hdrain : s'.nextBuffhdToDrain = s.nextBuffhdToDrain)
    (hrequested : s'.requested = s.requested + 1)
    (hqueue : w'.inFlight = w.inFlight ++ [bh.bulkOutIntendedLength])
    (hcount : w'.requested = w.requested + 1) (hdrained : w'.drained = w.drained) :
    Buffered chunks data s' w' where
  size := by rw [hsize]; exact h.size
  holds := by
    have hlast : w.drained + w.inFlight.length = bh.number := by
      rw [hnumber, h.requested, h.count]
    have hpush := h.holds.push (by rw [List.length_zipIdx, ← h.size]; exact hroom)
      (bh.bulkOutIntendedLength, bh.number)
    rw [← FsgBuffhd.request_of_ne (by rw [hstate]; exact FsgBufferState.noConfusion),
      ← request_setBuffhd] at hpush
    rw [hbuffhds, hfill, hdrain, hqueue, hdrained, List.zipIdx_append, List.zipIdx_singleton, hlast]
    exact hpush
  count := by
    have hbefore := h.count
    rw [hcount, hqueue, hdrained, List.length_append, List.length_singleton]
    omega
  requested := by rw [hrequested, hcount, h.requested]
  sound := by
    rw [hbuffhds]
    exact sound_setBuffhd h.sound (.of_ne
      (fun h => FsgBufferState.noConfusion (hstate.symm.trans h))
      fun h => FsgBufferState.noConfusion (hstate.symm.trans h))

/-- What is left to do in the loop. -/
def WriteState.ahead (w : WriteState) : ℕ :=
  2 * w.leftToReq + w.inFlight.length + 2 * w.getSomeMore.toNat

/-- What a pass comes to, where the loop of the queue comes to `r`. -/
inductive Passed (chunks : ℕ → WriteChunk) (data : ℕ → UInt8) (s : WriteRing n) (w : WriteState)
    (r : (Errno × Transfer) × Contents × WriteState) : WriteThread n → Prop
  | waits (hstate : (s.buffhds s.nextBuffhdToDrain).state = .receiving)
    (htime : (chunks (s.buffhds s.nextBuffhdToDrain).number).interrupted = false) :
    Passed chunks data s w r (.looping s)
  | passes (s' : WriteRing n) (w' : WriteState) (h : Follows chunks data s' w')
    (hsame : writeLoopBytes chunks data s'.transfer s'.contents w' = r)
    (hless : w'.ahead < w.ahead) :
    Passed chunks data s w r (.looping s')
  | leaves (e : Errno) (s' : WriteRing n) (h : Buffered chunks data s' r.2.2)
    (hresult : r.1 = (e, s'.transfer)) (hcontents : r.2.1 = s'.contents) :
    Passed chunks data s w r (.left e s')

/-- A buffer that came back goes the way of the oldest request. -/
theorem Follows.drain (h : Follows chunks data s w) (hleft : ¬ w.leftToWrite = 0)
    (hfill : ¬ (w.inFlight.length < s.transfer.numBuffers.1 ∧ w.getSomeMore))
    {intended : ℕ} {rest : List ℕ} (hw : w.inFlight = intended :: rest)
    (hfull : (s.buffhds s.nextBuffhdToDrain).state = .full)
    {r : (Errno × Transfer) × Contents × WriteState}
    (hr : writeLoopBytes chunks data s.transfer s.contents w = r) :
    Passed chunks data s w r (s.drain chunks (s.buffhds s.nextBuffhdToDrain)) := by
  obtain ⟨hstate, hintended, hnumber⟩ := h.toBuffered.oldest hw
  have hsound := h.sound s.nextBuffhdToDrain
  have hstatus := hsound.status hfull
  have hactual := hsound.actual hfull
  have htime := hsound.inTime hfull
  have hbuf := hsound.buf hfull
  have hring := h.toBuffered.drained hw
    (show FsgBuffhd.state { s.buffhds s.nextBuffhdToDrain with state := .empty } = .empty from rfl)
  obtain ⟨usbOffset, fileOffset, leftToReq, leftToWrite, more, flight, requested, drained⟩ := w
  obtain rfl : flight = intended :: rest := hw
  obtain rfl : s.fileOffset = fileOffset := h.fileOffset
  obtain rfl : s.leftToWrite = leftToWrite := h.leftToWrite
  -- both go through the same tests from here on
  rw [writeLoopBytes, if_neg hleft, if_neg hfill] at hr
  generalize s.buffhds s.nextBuffhdToDrain = bh at *
  obtain ⟨state, buf, intended', status, actual, number⟩ := bh
  dsimp only at hintended hnumber hstatus hactual htime hbuf
  subst hintended hnumber hstatus hactual hbuf
  unfold WriteRing.drain
  dsimp only [WriteRing.setBuffhd] at hr ⊢
  rw [if_neg (by rw [htime]; exact Bool.false_ne_true)] at hr
  by_cases hstatus : (chunks number).status ≠ 0
  · rw [if_pos hstatus] at hr ⊢
    subst hr
    exact .leaves _ _ (hring _ _ rfl rfl rfl rfl rfl rfl rfl rfl) rfl rfl
  rw [if_neg hstatus] at hr ⊢
  generalize hamount : min (min (chunks number).actual
    (s.transfer.curlun.fileLength - s.fileOffset)) intended' / s.transfer.curlun.blksize *
      s.transfer.curlun.blksize = amount at hr ⊢
  have hless : rest.length < (intended' :: rest).length := Nat.lt_succ_self _
  by_cases hzero : amount = 0
  · rw [if_pos hzero] at hr ⊢
    by_cases hshort : (chunks number).actual < intended'
    · rw [if_pos hshort] at hr ⊢
      subst hr
      exact .leaves _ _ (hring _ _ rfl rfl rfl rfl rfl rfl rfl rfl) rfl rfl
    · rw [if_neg hshort] at hr ⊢
      refine .passes _ _ ?_ hr ?_
      · exact ⟨hring _ _ rfl rfl rfl rfl rfl rfl rfl rfl, h.usbOffset, rfl, h.leftToReq, rfl,
          h.getSomeMore⟩
      · simp only [WriteState.ahead]
        omega
  rw [if_neg hzero] at hr ⊢
  by_cases hsignal : (chunks number).signal
  · rw [if_pos hsignal] at hr ⊢
    subst hr
    exact .leaves _ _ (hring _ _ rfl rfl rfl rfl rfl rfl rfl rfl) rfl rfl
  rw [if_neg hsignal] at hr ⊢
  generalize hwritten : s.transfer.curlun.settle amount (kernelIo (chunks number).available amount) =
    nwritten at hr ⊢
  by_cases herror : nwritten < amount
  · rw [if_pos herror] at hr ⊢
    subst hr
    exact .leaves _ _ (hring _ _ rfl rfl rfl rfl rfl rfl rfl rfl) rfl rfl
  rw [if_neg herror] at hr ⊢
  by_cases hshort : (chunks number).actual < intended'
  · rw [if_pos hshort] at hr ⊢
    subst hr
    exact .leaves _ _ (hring _ _ rfl rfl rfl rfl rfl rfl rfl rfl) rfl rfl
  · rw [if_neg hshort] at hr ⊢
    refine .passes _ _ ?_ hr ?_
    · exact ⟨hring _ _ rfl rfl rfl rfl rfl rfl rfl rfl, h.usbOffset, rfl, h.leftToReq, rfl,
        h.getSomeMore⟩
    · simp only [WriteState.ahead]
      omega

/-- A buffer that is empty is asked for. -/
theorem Follows.fill (h : Follows chunks data s w) (hleft : ¬ s.leftToWrite = 0)
    (hempty : (s.buffhds s.nextBuffhdToFill).state = .empty ∧ s.getSomeMore)
    (hleft' : ¬ w.leftToWrite = 0)
    (hfill : w.inFlight.length < s.transfer.numBuffers.1 ∧ w.getSomeMore)
    {r : (Errno × Transfer) × Contents × WriteState}
    (hr : writeLoopBytes chunks data s.transfer s.contents w = r) :
    Passed chunks data s w r (s.pass chunks) := by
  have hpast := h.leftToReq
  rw [writeLoopBytes, if_neg hleft', if_pos hfill, ← h.usbOffset, ← h.leftToReq] at hr
  unfold WriteRing.pass
  dsimp only at hr ⊢
  rw [if_neg hleft, if_pos hempty]
  by_cases hend : s.usbOffset ≥ s.transfer.curlun.fileLength
  · rw [if_pos hend] at hr ⊢
    refine .passes _ _ ?_ hr ?_
    · exact ⟨⟨h.size, h.holds, h.count, h.requested, h.sound⟩, rfl, h.fileOffset, rfl,
        h.leftToWrite, rfl⟩
    · simp only [WriteState.ahead, hfill.2, Bool.toNat_true, Bool.toNat_false]
      omega
  rw [if_neg hend] at hr ⊢
  by_cases hstarted : (chunks w.requested).started
  · rw [if_pos hstarted] at hr
    rw [if_pos (by rw [h.requested]; exact hstarted)]
    refine .passes _ _ ?_ hr ?_
    · exact ⟨h.toBuffered.queued hfill.1 rfl rfl _ _ rfl rfl rfl rfl rfl rfl rfl rfl, rfl,
        h.fileOffset, rfl, h.leftToWrite, rfl⟩
    · have hbuf : 0 < FSG_BUFLEN := by decide
      simp only [WriteState.ahead, hfill.2, Bool.toNat_true, List.length_append,
        List.length_singleton]
      by_cases hlast : s.leftToReq - min s.leftToReq FSG_BUFLEN = 0
      · rw [hlast, decide_eq_false (not_not.mpr rfl), Bool.toNat_false]
        omega
      · rw [decide_eq_true hlast, Bool.toNat_true]
        omega
  · rw [if_neg hstarted] at hr
    rw [if_neg (by rw [h.requested]; exact hstarted)]
    subst hr
    exact .leaves _ _ ⟨h.size, h.holds, h.count, h.requested, h.sound⟩ rfl rfl

/-- Each pass goes the way of the queue, unless the thread waits for a buffer under way. -/
theorem Follows.pass (h : Follows chunks data s w)
    {r : (Errno × Transfer) × Contents × WriteState}
    (hr : writeLoopBytes chunks data s.transfer s.contents w = r) :
    Passed chunks data s w r (s.pass chunks) := by
  have hroom := h.toBuffered.room
  have hmore := h.getSomeMore
  by_cases hleft : w.leftToWrite = 0
  · rw [writeLoopBytes, if_pos hleft] at hr
    subst hr
    unfold WriteRing.pass
    dsimp only
    rw [if_pos (h.leftToWrite.trans hleft)]
    exact .leaves _ _ h.toBuffered rfl rfl
  have hleft' : ¬ s.leftToWrite = 0 := by
    rw [h.leftToWrite]
    exact hleft
  -- a buffer of the ring is empty exactly when the queue has room
  by_cases hfill : w.inFlight.length < s.transfer.numBuffers.1 ∧ w.getSomeMore
  · have hfill' : (s.buffhds s.nextBuffhdToFill).state = .empty ∧ s.getSomeMore :=
      ⟨hroom.mpr hfill.1, hmore.trans hfill.2⟩
    exact h.fill hleft' hfill' hleft hfill hr
  · have hfill' : ¬ ((s.buffhds s.nextBuffhdToFill).state = .empty ∧ s.getSomeMore) := by
      rw [hroom, hmore]
      exact hfill
    unfold WriteRing.pass
    dsimp only
    rw [if_neg hleft', if_neg hfill']
    cases hw : w.inFlight with
    | nil =>
      have hempty := h.toBuffered.none_left hw
      have hstop : s.getSomeMore = false := by
        rw [hmore]
        refine eq_false_of_ne_true fun hgo => hfill ⟨?_, hgo⟩
        rw [hw]
        exact s.transfer.numBuffers.2
      rw [if_pos ⟨hempty, hstop⟩]
      obtain ⟨usbOffset, fileOffset, leftToReq, leftToWrite, more, flight, requested, drained⟩ := w
      obtain rfl : flight = [] := hw
      rw [writeLoopBytes, if_neg hleft, if_neg hfill] at hr
      subst hr
      exact .leaves _ _ h.toBuffered rfl rfl
    | cons intended rest =>
      obtain ⟨hstate, -, hnumber⟩ := h.toBuffered.oldest hw
      have hsound := h.sound s.nextBuffhdToDrain
      rw [if_neg fun hempty => hstate hempty.1]
      -- the oldest request is still under way: a signal ends the wait, or nothing happens
      by_cases hbusy : (s.buffhds s.nextBuffhdToDrain).state = .receiving
      · rw [if_pos (Or.inr hbusy)]
        split_ifs with hint
        · obtain ⟨usbOffset, fileOffset, leftToReq, leftToWrite, more, flight, requested, drained⟩ := w
          obtain rfl : flight = intended :: rest := hw
          rw [writeLoopBytes, if_neg hleft, if_neg hfill] at hr
          dsimp only at hr hnumber
          rw [hnumber] at hint
          rw [if_pos hint] at hr
          subst hr
          exact .leaves _ _ h.toBuffered rfl rfl
        · exact .waits hbusy (eq_false_of_ne_true hint)
      · rw [if_neg fun hsleep => hsleep.elim hsound.notSending hbusy]
        refine h.drain hleft hfill hw ?_ hr
        cases hcase : (s.buffhds s.nextBuffhdToDrain).state with
        | sending => exact absurd hcase hsound.notSending
        | receiving => exact absurd hcase hbusy
        | empty => exact absurd hcase hstate
        | full => rfl

/-! ### Every order of events -/

/-- The ring is on its way to what the queue comes to, or has come to it. -/
def Refines (chunks : ℕ → WriteChunk) (data : ℕ → UInt8)
    (r : (Errno × Transfer) × Contents × WriteState) : WriteThread n → Prop
  | .looping s => ∃ w, Follows chunks data s w ∧
      writeLoopBytes chunks data s.transfer s.contents w = r
  | .left e s => Buffered chunks data s r.2.2 ∧ r.1 = (e, s.transfer) ∧ r.2.1 = s.contents

theorem complete_transfer (chunks : ℕ → WriteChunk) (data : ℕ → UInt8) (s : WriteRing n)
    (i : Fin n) :
    (s.complete chunks data i).transfer = s.transfer ∧
      (s.complete chunks data i).contents = s.contents := by
  unfold WriteRing.complete
  dsimp only
  split_ifs <;> exact ⟨rfl, rfl⟩

theorem Refines.step {r : (Errno × Transfer) × Contents × WriteState} {th : WriteThread n}
    (h : Refines chunks data r th) (ev : WriteEvent n) :
    Refines chunks data r (th.step chunks data ev) := by
  cases th with
  | looping s =>
    obtain ⟨w, hfollows, hr⟩ := h
    cases ev with
    | thread =>
      have hpass := hfollows.pass hr
      simp only [WriteThread.step]
      generalize s.pass chunks = th' at hpass ⊢
      cases hpass with
      | waits => exact ⟨w, hfollows, hr⟩
      | passes s' w' h' hsame => exact ⟨w', h', hsame⟩
      | leaves e s' h' hresult hcontents => exact ⟨h', hresult, hcontents⟩
    | bulkOutComplete i =>
      obtain ⟨htransfer, hcontents⟩ := complete_transfer chunks data s i
      refine ⟨w, hfollows.complete i, ?_⟩
      rw [htransfer, hcontents]
      exact hr
  | left e s =>
    obtain ⟨hbuffered, hresult, hsame⟩ := h
    cases ev with
    | thread => exact ⟨hbuffered, hresult, hsame⟩
    | bulkOutComplete i =>
      obtain ⟨htransfer, hcontents⟩ := complete_transfer chunks data s i
      refine ⟨hbuffered.complete i, ?_, ?_⟩
      · rw [htransfer]
        exact hresult
      · rw [hcontents]
        exact hsame

/-- A request that is completed keeps nobody waiting. -/
theorem complete_ready (chunks : ℕ → WriteChunk) (data : ℕ → UInt8) (s : WriteRing n) (i : Fin n) :
    ¬ (((s.complete chunks data i).buffhds i).state = .receiving ∧
      (chunks ((s.complete chunks data i).buffhds i).number).interrupted = false) := by
  unfold WriteRing.complete
  dsimp only
  split_ifs with hready
  · rw [setBuffhd_buffhds, Function.update_self]
    exact fun h => FsgBufferState.noConfusion h.1
  · exact hready

/-- The thread leaves the loop when the requests it waits for are completed. -/
theorem Follows.leaves {k : ℕ} (h : Follows chunks data s w) (hk : w.ahead ≤ k) :
    ∃ es e s', run (WriteThread.step chunks data) (.looping s) es = .left e s' := by
  induction k using Nat.strong_induction_on generalizing s w with
  | _ k ih =>
    have hpass := (h.complete s.nextBuffhdToDrain).pass rfl
    have hready := complete_ready chunks data s s.nextBuffhdToDrain
    have hdrain : (s.complete chunks data s.nextBuffhdToDrain).nextBuffhdToDrain =
        s.nextBuffhdToDrain := by
      unfold WriteRing.complete
      dsimp only
      split_ifs <;> rfl
    generalize hto : (s.complete chunks data s.nextBuffhdToDrain).pass chunks = th at hpass
    cases hpass with
    | waits hstate htime =>
      rw [hdrain] at hstate htime
      exact absurd ⟨hstate, htime⟩ hready
    | passes s' w' h' hsame hless =>
      obtain ⟨es, e, s'', hes⟩ := ih w'.ahead (by omega) h' (le_refl _)
      refine ⟨.bulkOutComplete s.nextBuffhdToDrain :: .thread :: es, e, s'', ?_⟩
      simp only [run_cons, WriteThread.step, hto]
      exact hes
    | leaves e s' =>
      exact ⟨[.bulkOutComplete s.nextBuffhdToDrain, .thread], e, s', hto⟩

/-- Before the first request, with the buffer heads at rest. -/
def WriteRing.start (t : Transfer) (c : Contents) (offset size : ℕ) (buffhds : Fin n → FsgBuffhd)
    (i : Fin n) : WriteRing n where
  transfer := t
  contents := c
  usbOffset := offset
  fileOffset := offset
  leftToReq := size
  leftToWrite := size
  getSomeMore := true
  buffhds
  nextBuffhdToFill := i
  nextBuffhdToDrain := i
  requested := 0

theorem follows_start {t : Transfer} (hsize : t.numBuffers.1 = n) (c : Contents)
    (offset size : ℕ) {buffhds : Fin n → FsgBuffhd} (hempty : ∀ i, (buffhds i).state = .empty)
    (i : Fin n) :
    Follows chunks data (WriteRing.start t c offset size buffhds i) (writeStart offset size) where
  size := hsize
  holds := by
    have hnone : (fun j => (buffhds j).request) = fun _ => none :=
      funext fun j => FsgBuffhd.request_eq_none.mpr (hempty j)
    have hholds : Holds (fun j => (buffhds j).request) i i [] := by
      rw [hnone]
      exact holds_nil i
    exact hholds
  count := rfl
  requested := rfl
  sound j := .of_ne (fun h => FsgBufferState.noConfusion ((hempty j).symm.trans h))
    fun h => FsgBufferState.noConfusion ((hempty j).symm.trans h)
  usbOffset := rfl
  fileOffset := rfl
  leftToReq := rfl
  leftToWrite := rfl
  getSomeMore := rfl

/-- Whenever the controller completes the requests, the ring writes what the queue writes and
ends as it ends, and from any state on the way there it gets there. -/
theorem write_ring_refines {t : Transfer} (hsize : t.numBuffers.1 = n) (c : Contents)
    (offset size : ℕ) {buffhds : Fin n → FsgBuffhd} (hempty : ∀ i, (buffhds i).state = .empty)
    (i : Fin n) (es : List (WriteEvent n)) :
    let start := WriteThread.looping (WriteRing.start t c offset size buffhds i)
    let r := writeLoopBytes chunks data t c (writeStart offset size)
    (∀ e s, run (WriteThread.step chunks data) start es = .left e s →
      r.1 = (e, s.transfer) ∧ r.2.1 = s.contents ∧ Buffered chunks data s r.2.2) ∧
    ∃ es' e s, run (WriteThread.step chunks data) start (es ++ es') = .left e s := by
  intro start r
  have hstart : Refines chunks data r start := ⟨_, follows_start hsize c offset size hempty i, rfl⟩
  have hfree : Guarded (WriteThread.step chunks data) (fun _ _ => True) start es :=
    guarded_of_forall (fun _ _ => trivial) start es
  have hrefines : Refines chunks data r (run (WriteThread.step chunks data) start es) :=
    run_invariant (fun _ ev h _ => h.step ev) hstart hfree
  refine ⟨fun e s hleft => ?_, ?_⟩
  · rw [hleft] at hrefines
    exact ⟨hrefines.2.1, hrefines.2.2, hrefines.1⟩
  · simp only [run_append]
    cases hstate : run (WriteThread.step chunks data) start es with
    | looping s =>
      rw [hstate] at hrefines
      obtain ⟨w, hfollows, -⟩ := hrefines
      exact hfollows.leaves (le_refl _)
    | left e s => exact ⟨[], e, s, rfl⟩

/-- A buffer head that was never used. -/
def unusedBuffhd : FsgBuffhd := ⟨.empty, fun _ => 0, 0, 0, 0, 0⟩

/-- A host that sends all it is asked for. -/
def sampleChunks : ℕ → WriteChunk := fun _ => ⟨true, false, 0, 16384, some 16384, false⟩

/-- A drive with a file of four buffers. -/
def fourBuffers : Transfer :=
  { sampleTransfer with curlun := { sampleTransfer.curlun with fileLength := 65536 } }

/-- The thread asks for two buffers and waits. The controller completes the second first, and
then the first, which goes to the file before the thread asks for a third. -/
theorem write_ring_refines_example : ∃ (es : List (WriteEvent 2)) (e : Errno) (s : WriteRing 2),
    let r := writeLoopBytes sampleChunks (fun _ => 7) fourBuffers (Contents.zeros 65536)
      (writeStart 512 40960)
    run (WriteThread.step sampleChunks fun _ => 7)
        (.looping (WriteRing.start fourBuffers (Contents.zeros 65536) 512 40960
          (fun _ => unusedBuffhd) 0))
        ([.thread, .thread, .thread, .bulkOutComplete 1, .bulkOutComplete 0, .thread, .thread] ++
          es) =
      .left e s ∧ r.1 = (e, s.transfer) ∧ r.2.1 = s.contents := by
  have hempty (i : Fin 2) : ((fun _ => unusedBuffhd) i).state = .empty := rfl
  have hsize : fourBuffers.numBuffers.1 = 2 := rfl
  obtain ⟨-, es, e, s, hleaves⟩ := write_ring_refines 
    hsize (Contents.zeros 65536) 512 40960 hempty 0
    [.thread, .thread, .thread, .bulkOutComplete 1, .bulkOutComplete 0, .thread, .thread]
  obtain ⟨hends, -⟩ := write_ring_refines 
    hsize (Contents.zeros 65536) 512 40960 hempty 0
    ([.thread, .thread, .thread, .bulkOutComplete 1, .bulkOutComplete 0, .thread, .thread] ++ es)
  obtain ⟨hend, hcontents, -⟩ := hends e s hleaves
  exact ⟨es, e, s, hleaves, hend, hcontents⟩

end UsbFloppy.Kernel

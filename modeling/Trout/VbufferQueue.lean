import Trout.VbufferRefinement

/-! Whole runs of the ring buffer against the bounded queue of frames. Each call is one queue
operation on the live frames, so a run from a fresh buffer is a run of the queue. -/

namespace Trout.Audio
open CInt RingWindow AudioVbuffer

/-- The queue operation a call stands for. -/
def VbufferCall.op (frameSize : Nat) : VbufferCall → BoundedFifo.Op (List UInt8)
  | .write buffer frameCount => .push (records buffer frameSize 0 frameCount.toNat)
  | .read _ frameCount => .pop frameCount.toNat

/-- The queue result a return value stands for: a read returned the frames it left in the memory. -/
def VbufferReturn.result (frameSize : Nat) : VbufferReturn → BoundedFifo.Result (List UInt8)
  | .written frames => .accepted frames
  | .read frames buffer => .removed (records buffer frameSize 0 frames)

/-- A fresh buffer is well formed when the byte count passed to `calloc` did not wrap. -/
theorem audioVbufferInit_spec {calloc : Nat → Bool} {frameCount frameSize : Nat} {b : AudioVbuffer}
    (hpos : 0 < frameCount) (hlt : frameCount < 2 ^ 32) (hfits : frameCount * frameSize < 2 ^ 64)
    (hwide : ∀ m : Nat, intMax < m → m ≤ frameCount →
      frameCount * frameSize < sizeMul (toSize (toInt m)) frameSize)
    (hinit : audioVbufferInit calloc frameCount frameSize = .ok b) :
    b.WellFormed ∧ b.frameCount = frameCount ∧ b.frameSize = frameSize ∧ b.live = 0 := by
  rw [audioVbufferInit, sizeMul_of_lt hfits] at hinit
  split at hinit
  swap
  · cases hinit
  cases hinit
  exact
    ⟨{ capacity_pos := hpos
       capacity_lt := hlt
       allocated := rfl
       fits := hfits
       tail_lt := hpos
       live_le := Nat.zero_le _
       head_eq := (Nat.zero_mod _).symm
       wide := hwide }, rfl, rfl, rfl⟩

theorem stored_eq_nil {b : AudioVbuffer} (h : b.live = 0) : b.stored = [] := by
  rw [← List.length_eq_zero_iff, stored_length, h]

theorem AudioVbuffer.WellFormed.live_add_dead {b : AudioVbuffer} (h : b.WellFormed)
    (hint : b.frameCount ≤ intMax) : audioVbufferLive b + audioVbufferDead b = b.frameCount := by
  have hlive := h.live_le
  have hcap := h.capacity_lt
  rw [audioVbufferLive, audioVbufferDead, sizeSub_of_le hlive (by omega), toInt_of_le (by omega),
    toInt_of_le (by omega)]
  omega

/-- One call is one queue operation. -/
theorem vbufferStep_spec {b b' : AudioVbuffer} {call : VbufferCall} {returns : List VbufferReturn}
    (h : b.WellFormed) (hstep : vbufferStep b call = some (b', returns)) :
    b'.WellFormed ∧ b'.frameCount = b.frameCount ∧ b'.frameSize = b.frameSize ∧
      ∃ r, returns = [r] ∧ BoundedFifo.step b.frameCount b.stored (call.op b.frameSize) =
        (b'.stored, r.result b.frameSize) := by
  cases call with
  | write buffer frameCount =>
      simp only [vbufferStep, Option.map_eq_some_iff] at hstep
      obtain ⟨⟨c, written⟩, hrun, hpair⟩ := hstep
      cases hpair
      obtain ⟨happ, hwritten⟩ := audioVbufferWrite_spec h frameCount.toNat_lt hrun
      refine ⟨happ.wellFormed, happ.frameCount, happ.frameSize, .written written, rfl, ?_⟩
      have htake : (records buffer b.frameSize 0 frameCount.toNat).take (b.frameCount - b.live) =
          records buffer b.frameSize 0 written := by
        have hmin : (records buffer b.frameSize 0 frameCount.toNat).take (b.frameCount - b.live) =
            (records buffer b.frameSize 0 frameCount.toNat).take written := by
          rw [List.take_eq_take_iff, records_length]
          omega
        rw [hmin, records_take _ _ _ (by omega)]
      simp only [VbufferCall.op, BoundedFifo.step, BoundedFifo.push, stored_length, records_length,
        VbufferReturn.result, happ.stored, htake, hwritten]
  | read buffer frameCount =>
      simp only [vbufferStep, Option.map_eq_some_iff] at hstep
      obtain ⟨⟨c, filled, count⟩, hrun, hpair⟩ := hstep
      cases hpair
      obtain ⟨hrem, hfill, hcount⟩ := audioVbufferRead_spec h frameCount.toNat_lt hrun
      refine ⟨hrem.wellFormed, hrem.frameCount, hrem.frameSize, .read count filled, rfl, ?_⟩
      have hlength : (b.stored.take frameCount.toNat).length = count := by
        rw [List.length_take, stored_length, hcount]
      have hrecords := hfill.inside
      rw [hlength] at hrecords
      have hdrop : b.stored.drop frameCount.toNat = c.stored := by
        have hsame := hrem.stored
        conv_lhs at hsame => rw [← List.take_append_drop frameCount.toNat b.stored]
        exact List.append_cancel_left hsame
      simp only [VbufferCall.op, BoundedFifo.step, VbufferReturn.result, hrecords, hdrop]

theorem vbufferStep_defined {b : AudioVbuffer} (h : b.WellFormed) (hint : b.frameCount ≤ intMax)
    (call : VbufferCall) : ∃ b' returns, vbufferStep b call = some (b', returns) := by
  cases call with
  | write buffer frameCount =>
      obtain ⟨b', written, hrun⟩ := audioVbufferWrite_defined h hint buffer frameCount.toNat_lt
      exact ⟨b', _, by rw [vbufferStep, hrun]; rfl⟩
  | read buffer frameCount =>
      obtain ⟨b', filled, count, hrun⟩ := audioVbufferRead_defined h hint buffer frameCount.toNat_lt
      exact ⟨b', _, by rw [vbufferStep, hrun]; rfl⟩

/-- A run of calls is a run of the queue. -/
theorem vbufferRun_spec (calls : List VbufferCall) {b : AudioVbuffer} (h : b.WellFormed)
    (hint : b.frameCount ≤ intMax) :
    ∃ b' returns, Runs.exec vbufferStep b calls = some (b', returns) ∧ b'.WellFormed ∧
      b'.frameCount = b.frameCount ∧
      BoundedFifo.run b.frameCount b.stored (calls.map (VbufferCall.op b.frameSize)) =
        (b'.stored, returns.map (VbufferReturn.result b.frameSize)) := by
  induction calls generalizing b with
  | nil => exact ⟨b, [], rfl, h, rfl, rfl⟩
  | cons call calls ih =>
      obtain ⟨c, returns, hstep⟩ := vbufferStep_defined h hint call
      obtain ⟨hc, hcount, hsize, r, rfl, hop⟩ := vbufferStep_spec h hstep
      obtain ⟨b', rest, hrun, hwf, hcap, hqueue⟩ := ih hc (by rw [hcount]; exact hint)
      rw [hcount, hsize] at hqueue
      refine ⟨b', r :: rest, Runs.exec_cons_eq_some.mpr ⟨c, [r], rest, hstep, hrun, rfl⟩, hwf,
        hcap.trans hcount, ?_⟩
      simp only [List.map_cons, BoundedFifo.run, hop, hqueue]

/-- The ring buffer refines a bounded queue of frames, for every capacity an `int` can hold and every
frame size whose byte count is a `size_t`. -/
theorem audioVbuffer_refines_fifo {calloc : Nat → Bool} {frameCount frameSize : Nat} {b₀ : AudioVbuffer}
    (hpos : 1 ≤ frameCount) (hint : frameCount ≤ intMax) (hfits : frameCount * frameSize < 2 ^ 64)
    (hinit : audioVbufferInit calloc frameCount frameSize = .ok b₀) (calls : List VbufferCall) :
    ∃ b returns, Runs.exec vbufferStep b₀ calls = some (b, returns) ∧
      b.head < frameCount ∧ b.tail < frameCount ∧ b.live ≤ frameCount ∧
      b.head = (b.tail + b.live) % frameCount ∧
      audioVbufferLive b + audioVbufferDead b = frameCount ∧
      BoundedFifo.run frameCount [] (calls.map (VbufferCall.op frameSize)) =
        (b.stored, returns.map (VbufferReturn.result frameSize)) ∧
      BoundedFifo.removedItems (returns.map (VbufferReturn.result frameSize)) ++ b.stored =
        BoundedFifo.acceptedItems (calls.map (VbufferCall.op frameSize))
          (returns.map (VbufferReturn.result frameSize)) := by
  have hlt : frameCount < 2 ^ 32 := by
    simp only [intMax] at hint
    omega
  have hwide : ∀ m : Nat, intMax < m → m ≤ frameCount →
      frameCount * frameSize < sizeMul (toSize (toInt m)) frameSize := by
    intro m hm hle
    omega
  obtain ⟨hwf₀, hcount, hsize, hlive⟩ := audioVbufferInit_spec hpos hlt hfits hwide hinit
  obtain ⟨b, returns, hrun, hwf, hcap, hqueue⟩ := vbufferRun_spec calls hwf₀ (by rw [hcount]; exact hint)
  rw [stored_eq_nil hlive, hcount, hsize] at hqueue
  rw [hcount] at hcap
  have hsum := hwf.live_add_dead (by rw [hcap]; exact hint)
  have hconserve := BoundedFifo.run_conservation frameCount (calls.map (VbufferCall.op frameSize)) []
  rw [hqueue, List.nil_append] at hconserve
  refine ⟨b, returns, hrun, ?_, ?_, ?_, ?_, ?_, hqueue, hconserve⟩
  · rw [← hcap]
    exact hwf.head_lt
  · rw [← hcap]
    exact hwf.tail_lt
  · rw [← hcap]
    exact hwf.live_le
  · rw [← hcap]
    exact hwf.head_eq
  · rw [hsum, hcap]

/-- A write past the free space, a read and a write that wraps, on three one-byte frames. -/
theorem audioVbuffer_refines_fifo_wrapping :
    ∃ b returns, Runs.exec vbufferStep ⟨fun _ => 0, 3, 1, 3, 0, 0, 0⟩
        [.write (fun i => UInt8.ofNat i) 5, .read (fun _ => 0) 2, .write (fun _ => 9) 1] =
          some (b, returns) ∧
      b.live ≤ 3 ∧ b.head = (b.tail + b.live) % 3 := by
  have hinit : audioVbufferInit (fun _ => true) 3 1 = .ok ⟨fun _ => 0, 3, 1, 3, 0, 0, 0⟩ := rfl
  obtain ⟨b, returns, hrun, _, _, hlive, hhead, _⟩ :=
    audioVbuffer_refines_fifo (by decide) (by decide) (by decide) hinit
      [.write (fun i => UInt8.ofNat i) 5, .read (fun _ => 0) 2, .write (fun _ => 9) 1]
  exact ⟨b, returns, hrun, hlive, hhead⟩

/-- Past the range of `size_t` the allocation is too small: `2 ^ 30` frames of `2 ^ 34` bytes get no
byte at all, and the first write leaves the allocation. -/
theorem audioVbufferInit_wraps :
    1 ≤ 2 ^ 30 ∧ 2 ^ 30 ≤ intMax ∧
      (audioVbufferInit (fun _ => true) (2 ^ 30) (2 ^ 34)).toOption.map (fun b =>
        (b.dataSize, (Runs.exec vbufferStep b [.write (fun _ => 0) 1]).isNone)) = some (0, true) := by
  decide +kernel

end Trout.Audio

import Trout.BoundedFifo
import Trout.Runs
import Trout.VbufferModel

/-! The ring buffer is a bounded queue of frames. The representation invariant is `WellFormed`; the
queue it stands for is the window of live frames. One iteration of either loop moves one contiguous
segment, and an induction over the iterations gives the whole call. -/

namespace Trout.Audio
open CInt RingWindow

namespace AudioVbuffer

/-- Frame `i` of the storage. -/
def frame (b : AudioVbuffer) (i : Nat) : List UInt8 := slice b.data (i * b.frameSize) b.frameSize

/-- The live frames, oldest first. -/
def stored (b : AudioVbuffer) : List (List UInt8) := window b.frame b.frameCount b.tail b.live

@[simp] theorem stored_length (b : AudioVbuffer) : b.stored.length = b.live :=
  window_length b.frame b.frameCount b.tail b.live

/-- The representation invariant. The last field says that a transfer length that does not fit an
`int` leaves the allocation; it holds for every capacity up to `INT_MAX`, since no transfer is
longer than the capacity. -/
structure WellFormed (b : AudioVbuffer) : Prop where
  capacity_pos : 0 < b.frameCount
  capacity_lt : b.frameCount < 2 ^ 32
  allocated : b.dataSize = b.frameCount * b.frameSize
  fits : b.frameCount * b.frameSize < 2 ^ 64
  tail_lt : b.tail < b.frameCount
  live_le : b.live ≤ b.frameCount
  head_eq : b.head = (b.tail + b.live) % b.frameCount
  wide : ∀ m : Nat, intMax < m → m ≤ b.frameCount → b.dataSize < sizeMul (toSize (toInt m)) b.frameSize

namespace WellFormed

variable {b : AudioVbuffer} (h : b.WellFormed)
include h

theorem head_lt : b.head < b.frameCount := by
  rw [h.head_eq]
  exact Nat.mod_lt _ h.capacity_pos

/-- Where the head is, relative to the tail. -/
theorem head_cases :
    (b.tail + b.live < b.frameCount ∧ b.head = b.tail + b.live) ∨
      (b.frameCount ≤ b.tail + b.live ∧ b.head + b.frameCount = b.tail + b.live) := by
  have htail := h.tail_lt
  have hlive := h.live_le
  rcases Nat.lt_or_ge (b.tail + b.live) b.frameCount with hlt | hge
  · exact Or.inl ⟨hlt, by rw [h.head_eq, Nat.mod_eq_of_lt hlt]⟩
  · refine Or.inr ⟨hge, ?_⟩
    rw [h.head_eq, Nat.mod_eq_sub_mod hge, Nat.mod_eq_of_lt (by omega)]
    omega

theorem offset_lt {i : Nat} (hi : i ≤ b.frameCount) : i * b.frameSize < 2 ^ 64 :=
  lt_of_le_of_lt (Nat.mul_le_mul_right _ hi) h.fits

theorem offset_eq {i : Nat} (hi : i ≤ b.frameCount) : sizeMul i b.frameSize = i * b.frameSize :=
  sizeMul_of_lt (h.offset_lt hi)

/-- A transfer that stays inside the allocation has the length that was asked for. -/
theorem length_exact {m : Nat} (hm : m ≤ b.frameCount)
    (hin : sizeMul (toSize (toInt m)) b.frameSize ≤ b.dataSize) : toSize (toInt m) = m := by
  rcases Nat.lt_or_ge intMax m with hwide | hle
  · have := h.wide m hwide hm
    omega
  · have := h.capacity_lt
    rw [toInt_of_le hle, toSize_natCast (by omega)]

end WellFormed

end AudioVbuffer

open AudioVbuffer

/-! ### The write loop -/

/-- The write loop stops on a full buffer only, and otherwise moves a segment that fits both the
free space and the room before the end of the storage. -/
theorem writeFrames_cases (w : WriteLoop) (h : w.vbuffer.WellFormed) :
    (w.frames = none ∧ w.vbuffer.live = w.vbuffer.frameCount) ∨
      ∃ m : Nat, w.frames = some (toInt m) ∧ m ≤ w.frameCount ∧
        w.vbuffer.live + m ≤ w.vbuffer.frameCount ∧ w.vbuffer.head + m ≤ w.vbuffer.frameCount ∧
        (0 < w.frameCount → 0 < m) := by
  have hcap := h.capacity_lt
  have hhead := h.head_lt
  have htail := h.tail_lt
  have hlive := h.live_le
  have hcases := h.head_cases
  unfold WriteLoop.frames
  by_cases hlow : w.vbuffer.live = 0 ∨ w.vbuffer.head > w.vbuffer.tail
  · refine Or.inr ⟨min w.frameCount (w.vbuffer.frameCount - w.vbuffer.head), ?_, ?_, ?_, ?_, ?_⟩
    · rw [if_pos hlow, sizeSub_of_le (Nat.le_of_lt hhead) (by omega)]
    all_goals omega
  · by_cases hwrap : w.vbuffer.head < w.vbuffer.tail
    · refine Or.inr ⟨min w.frameCount (w.vbuffer.tail - w.vbuffer.head), ?_, ?_, ?_, ?_, ?_⟩
      · rw [if_neg hlow, if_pos hwrap, sizeSub_of_le (Nat.le_of_lt hwrap) (by omega)]
      all_goals omega
    · refine Or.inl ⟨?_, by omega⟩
      rw [if_neg hlow, if_neg hwrap]

theorem writeLoop_done (buffer : Nat → UInt8) (fuel : Nat) {w : WriteLoop} (h : w.frameCount = 0) :
    (writeLoop buffer (fuel + 1) w).2 = some w := by
  rw [writeLoop, if_pos h]

theorem writeLoop_break (buffer : Nat → UInt8) (fuel : Nat) {w : WriteLoop} (hframes : w.frames = none) :
    (writeLoop buffer (fuel + 1) w).2 = some w := by
  rw [writeLoop, hframes]
  split <;> rfl

theorem writeLoop_step (buffer : Nat → UInt8) (fuel : Nat) {w : WriteLoop} {frames : Int}
    (hpos : w.frameCount ≠ 0) (hframes : w.frames = some frames) :
    (writeLoop buffer (fuel + 1) w).2 =
      (w.advance buffer frames).bind fun next => (writeLoop buffer fuel next).2 := by
  rw [writeLoop, if_neg hpos]
  simp only [hframes]
  cases w.advance buffer frames <;> rfl

/-- `b'` holds the frames of `b` followed by `frames`, in the same storage. -/
structure Appended (b b' : AudioVbuffer) (frames : List (List UInt8)) : Prop where
  wellFormed : b'.WellFormed
  frameSize : b'.frameSize = b.frameSize
  frameCount : b'.frameCount = b.frameCount
  stored : b'.stored = b.stored ++ frames

theorem Appended.live {b b' : AudioVbuffer} {frames : List (List UInt8)} (h : Appended b b' frames) :
    b'.live = b.live + frames.length := by
  rw [← stored_length b', h.stored, List.length_append, stored_length]

theorem Appended.trans {b b' b'' : AudioVbuffer} {fs gs : List (List UInt8)} (h : Appended b b' fs)
    (h' : Appended b' b'' gs) : Appended b b'' (fs ++ gs) where
  wellFormed := h'.wellFormed
  frameSize := h'.frameSize.trans h.frameSize
  frameCount := h'.frameCount.trans h.frameCount
  stored := by rw [h'.stored, h.stored, List.append_assoc]

/-- What one iteration of the write loop does, given the segment it moves. -/
theorem writeAdvance_spec {buffer : Nat → UInt8} {w next : WriteLoop} {m : Nat}
    (h : w.vbuffer.WellFormed) (hmoved : w.framesWritten ≤ w.vbuffer.live)
    (hcount : w.frameCount < 2 ^ 64) (hm : m ≤ w.frameCount)
    (hspace : w.vbuffer.live + m ≤ w.vbuffer.frameCount)
    (hcontig : w.vbuffer.head + m ≤ w.vbuffer.frameCount)
    (hnext : w.advance buffer (toInt m) = some next) :
    Appended w.vbuffer next.vbuffer
        (records buffer w.vbuffer.frameSize w.framesWritten m) ∧
      next.framesWritten = w.framesWritten + m ∧ next.frameCount = w.frameCount - m := by
  have hcap := h.capacity_lt
  have hhead := h.head_lt
  simp only [WriteLoop.advance] at hnext
  split at hnext
  swap
  · cases hnext
  rename_i hin
  cases hnext
  have hlen : toSize (toInt m) = m := by
    apply h.length_exact (by omega)
    have := hin.1
    simp only [WriteLoop.memcpy] at this
    omega
  have hsrc : sizeMul w.framesWritten w.vbuffer.frameSize = w.framesWritten * w.vbuffer.frameSize :=
    h.offset_eq (by omega)
  have hdst : sizeMul w.vbuffer.head w.vbuffer.frameSize = w.vbuffer.head * w.vbuffer.frameSize :=
    h.offset_eq (by omega)
  have hbytes : sizeMul m w.vbuffer.frameSize = m * w.vbuffer.frameSize := h.offset_eq (by omega)
  have hlive : (w.vbuffer.live + m) % sizeMod = w.vbuffer.live + m :=
    Nat.mod_eq_of_lt (by simp only [sizeMod]; omega)
  have hfirst : (w.vbuffer.head + m) % sizeMod = w.vbuffer.head + m :=
    Nat.mod_eq_of_lt (by simp only [sizeMod]; omega)
  have hwritten : (w.framesWritten + m) % sizeMod = w.framesWritten + m :=
    Nat.mod_eq_of_lt (by simp only [sizeMod]; omega)
  simp only [WriteLoop.memcpy, hlen, hsrc, hdst, hbytes, hlive, hfirst, hwritten]
  refine ⟨⟨?_, rfl, rfl, ?_⟩, trivial, sizeSub_of_le hm hcount⟩
  · exact
      { capacity_pos := h.capacity_pos
        capacity_lt := h.capacity_lt
        allocated := h.allocated
        fits := h.fits
        tail_lt := h.tail_lt
        live_le := hspace
        head_eq := by rw [h.head_eq, Nat.mod_add_mod, Nat.add_assoc]
        wide := h.wide }
  · -- the segment sits at the head, so the window grows by it and keeps its other frames
    simp only [AudioVbuffer.stored]
    rw [window_append h.head_eq hspace hcontig]
    · rw [records_eq_slice]
      refine congrArg _ (slice_congr ?_)
      intro i hi
      have hend : (i + 1) * w.vbuffer.frameSize ≤ m * w.vbuffer.frameSize := Nat.mul_le_mul_right _ hi
      rw [Nat.succ_mul] at hend
      simp only [AudioVbuffer.frame, Nat.add_mul]
      exact slice_copy_inside hend
    · intro i _ hout
      apply slice_copy_outside
      rcases hout with hlt | hge
      · left
        rw [← Nat.succ_mul]
        exact Nat.mul_le_mul_right _ hlt
      · right
        rw [← Nat.add_mul]
        exact Nat.mul_le_mul_right _ hge

/-- Inside the `INT_MAX` range every iteration stays inside the allocation. -/
theorem writeAdvance_defined (buffer : Nat → UInt8) {w : WriteLoop} {m : Nat}
    (h : w.vbuffer.WellFormed) (hint : w.vbuffer.frameCount ≤ intMax)
    (hcontig : w.vbuffer.head + m ≤ w.vbuffer.frameCount) :
    ∃ next, w.advance buffer (toInt m) = some next := by
  have hcap := h.capacity_lt
  have hlen : toSize (toInt m) = m := by rw [toInt_of_le (by omega), toSize_natCast (by omega)]
  simp only [WriteLoop.advance, WriteLoop.memcpy, hlen]
  rw [if_pos]
  · exact ⟨_, rfl⟩
  · rw [h.offset_eq (by omega), h.offset_eq (by omega), ← Nat.add_mul, h.allocated]
    exact ⟨Nat.mul_le_mul_right _ hcontig, Nat.ne_of_gt h.capacity_pos⟩

/-- The write loop appends the longest prefix of the remaining frames that fits. -/
theorem writeLoop_spec {buffer : Nat → UInt8} {fuel : Nat} {w last : WriteLoop}
    (h : w.vbuffer.WellFormed) (hmoved : w.framesWritten ≤ w.vbuffer.live)
    (hcount : w.frameCount < 2 ^ 64) (hrun : (writeLoop buffer fuel w).2 = some last) :
    Appended w.vbuffer last.vbuffer (records buffer w.vbuffer.frameSize w.framesWritten
        (min w.frameCount (w.vbuffer.frameCount - w.vbuffer.live))) ∧
      last.framesWritten =
        w.framesWritten + min w.frameCount (w.vbuffer.frameCount - w.vbuffer.live) := by
  induction fuel generalizing w with
  | zero => cases hrun
  | succ fuel ih =>
      have hstop : min w.frameCount (w.vbuffer.frameCount - w.vbuffer.live) = 0 →
          w = last → Appended w.vbuffer last.vbuffer (records buffer w.vbuffer.frameSize w.framesWritten
            (min w.frameCount (w.vbuffer.frameCount - w.vbuffer.live))) ∧
          last.framesWritten =
            w.framesWritten + min w.frameCount (w.vbuffer.frameCount - w.vbuffer.live) := by
        rintro hzero rfl
        rw [hzero]
        exact ⟨⟨h, rfl, rfl, by rw [records, List.range_zero, List.map_nil, List.append_nil]⟩, rfl⟩
      by_cases hzero : w.frameCount = 0
      · rw [writeLoop_done buffer fuel hzero] at hrun
        exact hstop (by omega) (Option.some.inj hrun)
      rcases writeFrames_cases w h with ⟨hnone, hfull⟩ | ⟨m, hframes, hm, hspace, hcontig, hgt⟩
      · rw [writeLoop_break buffer fuel hnone] at hrun
        exact hstop (by omega) (Option.some.inj hrun)
      · rw [writeLoop_step buffer fuel hzero hframes, Option.bind_eq_some_iff] at hrun
        obtain ⟨next, hadv, hrun⟩ := hrun
        obtain ⟨happ, hwritten, hleft⟩ := writeAdvance_spec h hmoved hcount hm hspace hcontig hadv
        have hlive := happ.live
        rw [records_length] at hlive
        obtain ⟨hrest, hlast⟩ := ih happ.wellFormed (by omega) (by omega) hrun
        have hsum : min w.frameCount (w.vbuffer.frameCount - w.vbuffer.live) =
            m + min next.frameCount (next.vbuffer.frameCount - next.vbuffer.live) := by
          rw [happ.frameCount, hleft, hlive]
          omega
        refine ⟨?_, by omega⟩
        rw [hsum, records_add]
        rw [happ.frameSize, hwritten] at hrest
        exact happ.trans hrest

/-- Inside the `INT_MAX` range the write loop ends. -/
theorem writeLoop_defined (buffer : Nat → UInt8) {fuel : Nat} {w : WriteLoop}
    (h : w.vbuffer.WellFormed) (hint : w.vbuffer.frameCount ≤ intMax)
    (hmoved : w.framesWritten ≤ w.vbuffer.live) (hcount : w.frameCount < 2 ^ 64)
    (hfuel : w.frameCount < fuel) : ∃ last, (writeLoop buffer fuel w).2 = some last := by
  induction fuel generalizing w with
  | zero => omega
  | succ fuel ih =>
      by_cases hzero : w.frameCount = 0
      · exact ⟨w, writeLoop_done buffer fuel hzero⟩
      rcases writeFrames_cases w h with ⟨hnone, _⟩ | ⟨m, hframes, hm, hspace, hcontig, hgt⟩
      · exact ⟨w, writeLoop_break buffer fuel hnone⟩
      · obtain ⟨next, hadv⟩ := writeAdvance_defined buffer h hint hcontig
        obtain ⟨happ, hwritten, hleft⟩ := writeAdvance_spec h hmoved hcount hm hspace hcontig hadv
        have hlive := happ.live
        rw [records_length] at hlive
        have hpos := hgt (Nat.pos_of_ne_zero hzero)
        rw [writeLoop_step buffer fuel hzero hframes, hadv, Option.bind_some]
        exact ih happ.wellFormed (by rw [happ.frameCount]; exact hint) (by omega) (by omega) (by omega)

theorem memcpy_eq {w : WriteLoop} {m : Nat} (h : w.vbuffer.WellFormed) (hmoved : w.framesWritten ≤ w.vbuffer.live)
    (hm : m ≤ intMax) (hcontig : w.vbuffer.head + m ≤ w.vbuffer.frameCount) :
    (w.memcpy (toInt m)).src = w.framesWritten * w.vbuffer.frameSize ∧
      (w.memcpy (toInt m)).len = m * w.vbuffer.frameSize := by
  have hcap := h.capacity_lt
  have hlive := h.live_le
  have hlen : toSize (toInt m) = m := by rw [toInt_of_le hm, toSize_natCast (by omega)]
  simp only [WriteLoop.memcpy, hlen]
  exact ⟨h.offset_eq (by omega), h.offset_eq (by omega)⟩

theorem writeLoop_copies_stop (buffer : Nat → UInt8) (fuel : Nat) {w : WriteLoop}
    (h : w.frameCount = 0 ∨ w.frames = none) : (writeLoop buffer (fuel + 1) w).1 = [] := by
  rw [writeLoop]
  rcases h with hzero | hnone
  · rw [if_pos hzero]
  · rw [hnone]
    split <;> rfl

theorem writeLoop_copies_step (buffer : Nat → UInt8) (fuel : Nat) {w : WriteLoop} {frames : Int}
    (hpos : w.frameCount ≠ 0) (hframes : w.frames = some frames) :
    (writeLoop buffer (fuel + 1) w).1 =
      w.memcpy frames :: ((w.advance buffer frames).map fun next => (writeLoop buffer fuel next).1).getD [] := by
  rw [writeLoop, if_neg hpos]
  simp only [hframes]
  cases w.advance buffer frames <;> rfl

/-- The copies of a write of at most `INT_MAX` frames stay inside the frames that it was given. -/
theorem writeLoop_copies {buffer : Nat → UInt8} {fuel : Nat} {w : WriteLoop} (h : w.vbuffer.WellFormed)
    (hmoved : w.framesWritten ≤ w.vbuffer.live) (hcount : w.frameCount ≤ intMax) :
    ∀ c ∈ (writeLoop buffer fuel w).1,
      c.src + c.len ≤ (w.framesWritten + w.frameCount) * w.vbuffer.frameSize := by
  induction fuel generalizing w with
  | zero => exact fun c hc => absurd hc List.not_mem_nil
  | succ fuel ih =>
      have hlarge : w.frameCount < 2 ^ 64 := by
        simp only [intMax] at hcount
        omega
      intro c hc
      by_cases hzero : w.frameCount = 0
      · rw [writeLoop_copies_stop buffer fuel (Or.inl hzero)] at hc
        exact absurd hc List.not_mem_nil
      rcases writeFrames_cases w h with ⟨hnone, -⟩ | ⟨m, hframes, hm, hspace, hcontig, -⟩
      · rw [writeLoop_copies_stop buffer fuel (Or.inr hnone)] at hc
        exact absurd hc List.not_mem_nil
      rw [writeLoop_copies_step buffer fuel hzero hframes] at hc
      rcases List.mem_cons.mp hc with rfl | hrest
      · obtain ⟨hsrc, hlen⟩ := memcpy_eq h hmoved (hm.trans hcount) hcontig
        rw [hsrc, hlen, ← Nat.add_mul]
        exact Nat.mul_le_mul_right _ (Nat.add_le_add_left hm _)
      · cases hadv : w.advance buffer (toInt m) with
        | none =>
            rw [hadv] at hrest
            exact absurd hrest List.not_mem_nil
        | some next =>
            rw [hadv, Option.map_some, Option.getD_some] at hrest
            obtain ⟨happ, hwritten, hleft⟩ := writeAdvance_spec h hmoved hlarge hm hspace hcontig hadv
            have hlive := happ.live
            rw [records_length] at hlive
            have hbound := ih happ.wellFormed (by omega) (by omega) c hrest
            rw [hwritten, hleft, happ.frameSize] at hbound
            rwa [show w.framesWritten + m + (w.frameCount - m) = w.framesWritten + w.frameCount by omega] at hbound

/-- The first copy of a write to a buffer with room takes at least one whole frame. -/
theorem audioVbufferWrite_first_copy {b : AudioVbuffer} (h : b.WellFormed) (buffer : Nat → UInt8) {frameCount : Nat}
    (hpos : 0 < frameCount) (hcount : frameCount ≤ intMax) (hroom : b.live < b.frameCount) :
    ∃ c ∈ audioVbufferWriteCopies b buffer frameCount, c.src = 0 ∧ b.frameSize ≤ c.len := by
  rcases writeFrames_cases ⟨b, 0, frameCount⟩ h with ⟨-, hfull⟩ | ⟨m, hframes, hm, -, hcontig, hgt⟩
  · exact absurd hfull (Nat.ne_of_lt hroom)
  · obtain ⟨hsrc, hlen⟩ := memcpy_eq h (Nat.zero_le b.live) (hm.trans hcount) hcontig
    refine ⟨WriteLoop.memcpy ⟨b, 0, frameCount⟩ (toInt m), ?_, hsrc.trans (Nat.zero_mul _), ?_⟩
    · rw [audioVbufferWriteCopies, writeLoop_copies_step _ _ (Nat.ne_of_gt hpos) hframes]
      exact List.mem_cons_self
    · rw [hlen]
      exact Nat.le_mul_of_pos_left _ (hgt hpos)

/-- `audio_vbuffer_write` appends the longest prefix that fits and returns its length. -/
theorem audioVbufferWrite_spec {b b' : AudioVbuffer} {buffer : Nat → UInt8} {frameCount written : Nat}
    (h : b.WellFormed) (hcount : frameCount < 2 ^ 64)
    (hrun : audioVbufferWrite b buffer frameCount = some (b', written)) :
    Appended b b' (records buffer b.frameSize 0 written) ∧
      written = min frameCount (b.frameCount - b.live) := by
  simp only [audioVbufferWrite, Option.map_eq_some_iff] at hrun
  obtain ⟨last, hloop, hpair⟩ := hrun
  cases hpair
  obtain ⟨happ, hwritten⟩ := writeLoop_spec h (Nat.zero_le _) hcount hloop
  simp only [Nat.zero_add] at hwritten
  rw [hwritten]
  exact ⟨happ, rfl⟩

theorem audioVbufferWrite_defined {b : AudioVbuffer} (h : b.WellFormed) (hint : b.frameCount ≤ intMax)
    (buffer : Nat → UInt8) {frameCount : Nat} (hcount : frameCount < 2 ^ 64) :
    ∃ b' written, audioVbufferWrite b buffer frameCount = some (b', written) := by
  have hend : ∃ last, (writeLoop buffer (frameCount + 1) ⟨b, 0, frameCount⟩).2 = some last :=
    writeLoop_defined buffer h hint (Nat.zero_le _) hcount (Nat.lt_succ_self _)
  obtain ⟨last, hloop⟩ := hend
  exact ⟨last.vbuffer, last.framesWritten, by rw [audioVbufferWrite, hloop]; rfl⟩

/-! ### The read loop -/

/-- The read loop stops on an empty buffer only, and otherwise moves a segment that fits both the
live frames and the room before the end of the storage. -/
theorem readFrames_cases (r : ReadLoop) (h : r.vbuffer.WellFormed) :
    (r.frames = none ∧ r.vbuffer.live = 0) ∨
      ∃ m : Nat, r.frames = some (toInt m) ∧ m ≤ r.frameCount ∧ m ≤ r.vbuffer.live ∧
        r.vbuffer.tail + m ≤ r.vbuffer.frameCount ∧ (0 < r.frameCount → 0 < m) := by
  have hcap := h.capacity_lt
  have hhead := h.head_lt
  have htail := h.tail_lt
  have hlive := h.live_le
  have hcases := h.head_cases
  unfold ReadLoop.frames
  by_cases hlow : r.vbuffer.live = r.vbuffer.frameCount ∨ r.vbuffer.tail > r.vbuffer.head
  · refine Or.inr ⟨min r.frameCount (r.vbuffer.frameCount - r.vbuffer.tail), ?_, ?_, ?_, ?_, ?_⟩
    · rw [if_pos hlow, sizeSub_of_le (Nat.le_of_lt htail) (by omega)]
    all_goals omega
  · by_cases hwrap : r.vbuffer.tail < r.vbuffer.head
    · refine Or.inr ⟨min r.frameCount (r.vbuffer.head - r.vbuffer.tail), ?_, ?_, ?_, ?_, ?_⟩
      · rw [if_neg hlow, if_pos hwrap, sizeSub_of_le (Nat.le_of_lt hwrap) (by omega)]
      all_goals omega
    · refine Or.inl ⟨?_, by omega⟩
      rw [if_neg hlow, if_neg hwrap]

theorem readLoop_done (fuel : Nat) {r : ReadLoop} (h : r.frameCount = 0) :
    (readLoop (fuel + 1) r).2 = some r := by
  rw [readLoop, if_pos h]

theorem readLoop_break (fuel : Nat) {r : ReadLoop} (hframes : r.frames = none) :
    (readLoop (fuel + 1) r).2 = some r := by
  rw [readLoop, hframes]
  split <;> rfl

theorem readLoop_step (fuel : Nat) {r : ReadLoop} {frames : Int}
    (hpos : r.frameCount ≠ 0) (hframes : r.frames = some frames) :
    (readLoop (fuel + 1) r).2 = (r.advance frames).bind fun next => (readLoop fuel next).2 := by
  rw [readLoop, if_neg hpos]
  simp only [hframes]
  cases r.advance frames <;> rfl

/-- `b'` holds the frames of `b` less the oldest ones, `frames`, in the same storage. -/
structure Removed (b b' : AudioVbuffer) (frames : List (List UInt8)) : Prop where
  wellFormed : b'.WellFormed
  frameSize : b'.frameSize = b.frameSize
  frameCount : b'.frameCount = b.frameCount
  stored : b.stored = frames ++ b'.stored

theorem Removed.live {b b' : AudioVbuffer} {frames : List (List UInt8)} (h : Removed b b' frames) :
    b.live = frames.length + b'.live := by
  rw [← stored_length b, h.stored, List.length_append, stored_length]

theorem Removed.trans {b b' b'' : AudioVbuffer} {fs gs : List (List UInt8)} (h : Removed b b' fs)
    (h' : Removed b' b'' gs) : Removed b b'' (fs ++ gs) where
  wellFormed := h'.wellFormed
  frameSize := h'.frameSize.trans h.frameSize
  frameCount := h'.frameCount.trans h.frameCount
  stored := by rw [h.stored, h'.stored, List.append_assoc]

/-- `buffer'` is `buffer` with `frames` put down from frame index `start` on. -/
structure Filled (frameSize start : Nat) (buffer buffer' : Nat → UInt8) (frames : List (List UInt8)) :
    Prop where
  inside : records buffer' frameSize start frames.length = frames
  outside : ∀ a, a < start * frameSize ∨ (start + frames.length) * frameSize ≤ a → buffer' a = buffer a

theorem Filled.trans {frameSize start : Nat} {m m' m'' : Nat → UInt8} {fs gs : List (List UInt8)}
    (h : Filled frameSize start m m' fs) (h' : Filled frameSize (start + fs.length) m' m'' gs) :
    Filled frameSize start m m'' (fs ++ gs) where
  inside := by
    have hkeep : records m'' frameSize start fs.length = records m' frameSize start fs.length := by
      apply List.map_congr_left
      intro i hi
      apply slice_congr
      intro a ha
      apply h'.outside
      left
      have hend : (start + i + 1) * frameSize ≤ (start + fs.length) * frameSize :=
        Nat.mul_le_mul_right _ (by have := List.mem_range.mp hi; omega)
      rw [Nat.succ_mul] at hend
      omega
    rw [List.length_append, records_add, hkeep, h.inside, h'.inside]
  outside := by
    intro a ha
    rw [List.length_append, ← Nat.add_assoc] at ha
    have hgrow : (start + fs.length) * frameSize ≤ (start + fs.length + gs.length) * frameSize :=
      Nat.mul_le_mul_right _ (Nat.le_add_right _ _)
    have hstart : start * frameSize ≤ (start + fs.length) * frameSize :=
      Nat.mul_le_mul_right _ (Nat.le_add_right _ _)
    rw [h'.outside a (by omega), h.outside a (by omega)]

/-- What one iteration of the read loop does, given the segment it moves. -/
theorem readAdvance_spec {r next : ReadLoop} {m : Nat} (h : r.vbuffer.WellFormed)
    (hmoved : r.framesRead + r.vbuffer.live ≤ r.vbuffer.frameCount) (hcount : r.frameCount < 2 ^ 64)
    (hm : m ≤ r.frameCount) (hlive : m ≤ r.vbuffer.live)
    (hcontig : r.vbuffer.tail + m ≤ r.vbuffer.frameCount) (hnext : r.advance (toInt m) = some next) :
    Removed r.vbuffer next.vbuffer (r.vbuffer.stored.take m) ∧
      Filled r.vbuffer.frameSize r.framesRead r.buffer next.buffer (r.vbuffer.stored.take m) ∧
      next.framesRead = r.framesRead + m ∧ next.frameCount = r.frameCount - m := by
  have hcap := h.capacity_lt
  have htail := h.tail_lt
  simp only [ReadLoop.advance] at hnext
  split at hnext
  swap
  · cases hnext
  rename_i hin
  cases hnext
  have hlen : toSize (toInt m) = m := by
    apply h.length_exact (by omega)
    have := hin.1
    simp only [ReadLoop.memcpy] at this
    omega
  have hsrc : sizeMul r.vbuffer.tail r.vbuffer.frameSize = r.vbuffer.tail * r.vbuffer.frameSize :=
    h.offset_eq (by omega)
  have hdst : sizeMul r.framesRead r.vbuffer.frameSize = r.framesRead * r.vbuffer.frameSize :=
    h.offset_eq (by omega)
  have hbytes : sizeMul m r.vbuffer.frameSize = m * r.vbuffer.frameSize := h.offset_eq (by omega)
  have hleft : sizeSub r.vbuffer.live m = r.vbuffer.live - m := sizeSub_of_le hlive (by omega)
  have hfirst : (r.vbuffer.tail + m) % sizeMod = r.vbuffer.tail + m :=
    Nat.mod_eq_of_lt (by simp only [sizeMod]; omega)
  have hread : (r.framesRead + m) % sizeMod = r.framesRead + m :=
    Nat.mod_eq_of_lt (by simp only [sizeMod]; omega)
  have htake : r.vbuffer.stored.take m = records r.vbuffer.data r.vbuffer.frameSize r.vbuffer.tail m :=
    window_take hlive hcontig
  simp only [ReadLoop.memcpy, hlen, hsrc, hdst, hbytes, hleft, hfirst, hread]
  refine ⟨⟨?_, rfl, rfl, ?_⟩, ⟨?_, ?_⟩, trivial, sizeSub_of_le hm hcount⟩
  · exact
      { capacity_pos := h.capacity_pos
        capacity_lt := h.capacity_lt
        allocated := h.allocated
        fits := h.fits
        tail_lt := Nat.mod_lt _ h.capacity_pos
        live_le := by
          have := h.live_le
          simp only
          omega
        head_eq := by
          simp only [Nat.mod_add_mod]
          rw [h.head_eq, Nat.add_assoc, Nat.add_sub_cancel' hlive]
        wide := h.wide }
  · conv_lhs => rw [← List.take_append_drop m r.vbuffer.stored]
    exact congrArg _ (window_drop hlive)
  · rw [htake, records_length]
    apply List.map_congr_left
    intro i hi
    have hend : (i + 1) * r.vbuffer.frameSize ≤ m * r.vbuffer.frameSize :=
      Nat.mul_le_mul_right _ (List.mem_range.mp hi)
    rw [Nat.succ_mul] at hend
    simp only [Nat.add_mul]
    exact slice_copy_inside hend
  · intro a ha
    rw [htake, records_length, Nat.add_mul] at ha
    exact copy_of_not_mem ha

theorem readAdvance_defined {r : ReadLoop} {m : Nat} (h : r.vbuffer.WellFormed)
    (hint : r.vbuffer.frameCount ≤ intMax) (hcontig : r.vbuffer.tail + m ≤ r.vbuffer.frameCount) :
    ∃ next, r.advance (toInt m) = some next := by
  have hcap := h.capacity_lt
  have hlen : toSize (toInt m) = m := by rw [toInt_of_le (by omega), toSize_natCast (by omega)]
  simp only [ReadLoop.advance, ReadLoop.memcpy, hlen]
  rw [if_pos]
  · exact ⟨_, rfl⟩
  · rw [h.offset_eq (by omega), h.offset_eq (by omega), ← Nat.add_mul, h.allocated]
    exact ⟨Nat.mul_le_mul_right _ hcontig, Nat.ne_of_gt h.capacity_pos⟩

/-- The read loop removes the oldest frames and puts them down in order. -/
theorem readLoop_spec {fuel : Nat} {r last : ReadLoop} (h : r.vbuffer.WellFormed)
    (hmoved : r.framesRead + r.vbuffer.live ≤ r.vbuffer.frameCount) (hcount : r.frameCount < 2 ^ 64)
    (hrun : (readLoop fuel r).2 = some last) :
    Removed r.vbuffer last.vbuffer (r.vbuffer.stored.take r.frameCount) ∧
      Filled r.vbuffer.frameSize r.framesRead r.buffer last.buffer
        (r.vbuffer.stored.take r.frameCount) ∧
      last.framesRead = r.framesRead + min r.frameCount r.vbuffer.live := by
  induction fuel generalizing r with
  | zero => cases hrun
  | succ fuel ih =>
      have hstop : min r.frameCount r.vbuffer.live = 0 → r = last →
          Removed r.vbuffer last.vbuffer (r.vbuffer.stored.take r.frameCount) ∧
          Filled r.vbuffer.frameSize r.framesRead r.buffer last.buffer
            (r.vbuffer.stored.take r.frameCount) ∧
          last.framesRead = r.framesRead + min r.frameCount r.vbuffer.live := by
        rintro hzero rfl
        have hnil : r.vbuffer.stored.take r.frameCount = [] := by
          rw [← List.length_eq_zero_iff, List.length_take, stored_length, hzero]
        rw [hzero, hnil]
        exact ⟨⟨h, rfl, rfl, rfl⟩, ⟨rfl, fun _ _ => rfl⟩, rfl⟩
      by_cases hzero : r.frameCount = 0
      · rw [readLoop_done fuel hzero] at hrun
        exact hstop (by omega) (Option.some.inj hrun)
      rcases readFrames_cases r h with ⟨hnone, hempty⟩ | ⟨m, hframes, hm, hlive, hcontig, hgt⟩
      · rw [readLoop_break fuel hnone] at hrun
        exact hstop (by omega) (Option.some.inj hrun)
      · rw [readLoop_step fuel hzero hframes, Option.bind_eq_some_iff] at hrun
        obtain ⟨next, hadv, hrun⟩ := hrun
        obtain ⟨hrem, hfill, hread, hleft⟩ :=
          readAdvance_spec h hmoved hcount hm hlive hcontig hadv
        have hsize : (r.vbuffer.stored.take m).length = m := by
          rw [List.length_take, stored_length, Nat.min_eq_left hlive]
        have hnow := hrem.live
        rw [hsize] at hnow
        obtain ⟨hrem', hfill', hlast⟩ := ih hrem.wellFormed (by rw [hrem.frameCount]; omega) (by omega) hrun
        have hsplit : r.vbuffer.stored.take r.frameCount =
            r.vbuffer.stored.take m ++ next.vbuffer.stored.take next.frameCount := by
          have hdrop : r.vbuffer.stored.drop m = next.vbuffer.stored := by
            conv_lhs => rw [hrem.stored]
            exact List.drop_left' hsize
          rw [← hdrop, hleft, ← List.take_add, Nat.add_sub_cancel' hm]
        rw [hsplit]
        refine ⟨hrem.trans hrem', hfill.trans ?_, by omega⟩
        rw [hsize, ← hread, ← hrem.frameSize]
        exact hfill'

theorem readLoop_defined {fuel : Nat} {r : ReadLoop} (h : r.vbuffer.WellFormed)
    (hint : r.vbuffer.frameCount ≤ intMax)
    (hmoved : r.framesRead + r.vbuffer.live ≤ r.vbuffer.frameCount) (hcount : r.frameCount < 2 ^ 64)
    (hfuel : r.frameCount < fuel) : ∃ last, (readLoop fuel r).2 = some last := by
  induction fuel generalizing r with
  | zero => omega
  | succ fuel ih =>
      by_cases hzero : r.frameCount = 0
      · exact ⟨r, readLoop_done fuel hzero⟩
      rcases readFrames_cases r h with ⟨hnone, _⟩ | ⟨m, hframes, hm, hlive, hcontig, hgt⟩
      · exact ⟨r, readLoop_break fuel hnone⟩
      · obtain ⟨next, hadv⟩ := readAdvance_defined h hint hcontig
        obtain ⟨hrem, _, hread, hleft⟩ := readAdvance_spec h hmoved hcount hm hlive hcontig hadv
        have hnow := hrem.live
        rw [List.length_take, stored_length, Nat.min_eq_left hlive] at hnow
        have hpos := hgt (Nat.pos_of_ne_zero hzero)
        have hsame := hrem.frameCount
        rw [readLoop_step fuel hzero hframes, hadv, Option.bind_some]
        exact ih hrem.wellFormed (by omega) (by omega) (by omega) (by omega)

/-- `audio_vbuffer_read` removes the oldest frames, puts them at the start of the caller's memory and
returns their number. -/
theorem audioVbufferRead_spec {b b' : AudioVbuffer} {buffer buffer' : Nat → UInt8} {frameCount count : Nat}
    (h : b.WellFormed) (hcount : frameCount < 2 ^ 64)
    (hrun : audioVbufferRead b buffer frameCount = some (b', buffer', count)) :
    Removed b b' (b.stored.take frameCount) ∧
      Filled b.frameSize 0 buffer buffer' (b.stored.take frameCount) ∧
      count = min frameCount b.live := by
  simp only [audioVbufferRead, Option.map_eq_some_iff] at hrun
  obtain ⟨last, hloop, hpair⟩ := hrun
  cases hpair
  have hmoved : 0 + b.live ≤ b.frameCount := by
    have := h.live_le
    omega
  obtain ⟨hrem, hfill, hread⟩ := readLoop_spec h hmoved hcount hloop
  refine ⟨hrem, hfill, ?_⟩
  rw [hread, Nat.zero_add]

theorem audioVbufferRead_defined {b : AudioVbuffer} (h : b.WellFormed) (hint : b.frameCount ≤ intMax)
    (buffer : Nat → UInt8) {frameCount : Nat} (hcount : frameCount < 2 ^ 64) :
    ∃ b' buffer' count, audioVbufferRead b buffer frameCount = some (b', buffer', count) := by
  have hmoved : 0 + b.live ≤ b.frameCount := by
    have := h.live_le
    omega
  have hend : ∃ last, (readLoop (frameCount + 1) ⟨b, buffer, 0, frameCount⟩).2 = some last :=
    readLoop_defined h hint hmoved hcount (Nat.lt_succ_self _)
  obtain ⟨last, hloop⟩ := hend
  exact ⟨last.vbuffer, last.buffer, last.framesRead, by rw [audioVbufferRead, hloop]; rfl⟩

end Trout.Audio

import Trout.VbufferRefinement

/-! The segments of a read: the frames up to the end of the storage, and the ones that have wrapped to its start.
The loop keeps the length of a segment in an `int`, and the read returns exactly when both lengths are one. -/

namespace Trout.Audio
open CInt RingWindow

/-- Both segments of a read of so many frames have a length that an `int` holds. -/
def AudioVbuffer.SegmentsFit (b : AudioVbuffer) (frameCount : Nat) : Prop :=
  min (min frameCount b.live) (b.frameCount - b.tail) ≤ intMax ∧
    min frameCount b.live - (b.frameCount - b.tail) ≤ intMax

/-- The copies `audio_vbuffer_read` makes to the caller's buffer. -/
def audioVbufferReadCopies (b : AudioVbuffer) (buffer : Nat → UInt8) (frameCount : Nat) : List Memcpy :=
  (readLoop (frameCount + 1) ⟨b, buffer, 0, frameCount⟩).1

section Segments
variable {r next : ReadLoop} {m : Nat}

/-- The next segment ends with the frames asked for, the live frames or the storage. -/
theorem readFrames_eq (h : r.vbuffer.WellFormed) (hlive : 0 < r.vbuffer.live) :
    r.frames =
      some (toInt (min (min r.frameCount r.vbuffer.live) (r.vbuffer.frameCount - r.vbuffer.tail) : Nat)) := by
  have hcap := h.capacity_lt
  have htail := h.tail_lt
  have hle := h.live_le
  have hhead := h.head_lt
  have hcases := h.head_cases
  unfold ReadLoop.frames
  by_cases hlow : r.vbuffer.live = r.vbuffer.frameCount ∨ r.vbuffer.tail > r.vbuffer.head
  · have hlength : min r.frameCount (r.vbuffer.frameCount - r.vbuffer.tail) =
        min (min r.frameCount r.vbuffer.live) (r.vbuffer.frameCount - r.vbuffer.tail) := by omega
    rw [if_pos hlow, sizeSub_of_le (Nat.le_of_lt htail) (by omega), hlength]
  · have hwrap : r.vbuffer.tail < r.vbuffer.head := by omega
    have hlength : min r.frameCount (r.vbuffer.head - r.vbuffer.tail) =
        min (min r.frameCount r.vbuffer.live) (r.vbuffer.frameCount - r.vbuffer.tail) := by omega
    rw [if_neg hlow, if_pos hwrap, sizeSub_of_le (Nat.le_of_lt hwrap) (by omega), hlength]

theorem readAdvance_isSome_iff (h : r.vbuffer.WellFormed) (hcontig : r.vbuffer.tail + m ≤ r.vbuffer.frameCount) :
    (r.advance (toInt (m : Nat))).isSome ↔ m ≤ intMax := by
  have hcap := h.capacity_lt
  constructor
  · intro hsome
    by_contra hlong
    have hwide := h.wide m (Nat.not_le.mp hlong) (by omega)
    rw [ReadLoop.advance, if_neg] at hsome
    · cases hsome
    · rintro ⟨hinside, -⟩
      exact absurd hwide (Nat.not_lt.mpr (Nat.le_trans (Nat.le_add_left _ _) hinside))
  · intro hint
    have hlen : toSize (toInt (m : Nat)) = m := by rw [toInt_of_le hint, toSize_natCast (by omega)]
    have hinside : (r.memcpy (toInt (m : Nat))).src + (r.memcpy (toInt (m : Nat))).len ≤ r.vbuffer.dataSize := by
      simp only [ReadLoop.memcpy, hlen]
      rw [h.offset_eq (by omega), h.offset_eq (by omega), ← Nat.add_mul, h.allocated]
      exact Nat.mul_le_mul_right _ hcontig
    rw [ReadLoop.advance, if_pos ⟨hinside, Nat.ne_of_gt h.capacity_pos⟩]
    rfl

/-- What the next iteration starts from. -/
structure ReadLoop.Advances (r next : ReadLoop) (m : Nat) : Prop where
  wellFormed : next.vbuffer.WellFormed
  frameSize : next.vbuffer.frameSize = r.vbuffer.frameSize
  capacity : next.vbuffer.frameCount = r.vbuffer.frameCount
  live : r.vbuffer.live = m + next.vbuffer.live
  tail : next.vbuffer.tail = (r.vbuffer.tail + m) % r.vbuffer.frameCount
  framesRead : next.framesRead = r.framesRead + m
  frameCount : next.frameCount = r.frameCount - m

theorem readAdvance_advances (h : r.vbuffer.WellFormed) (hmoved : r.framesRead + r.vbuffer.live ≤ r.vbuffer.frameCount)
    (hcount : r.frameCount < 2 ^ 64) (hm : m ≤ r.frameCount) (hlive : m ≤ r.vbuffer.live)
    (hcontig : r.vbuffer.tail + m ≤ r.vbuffer.frameCount) (hint : m ≤ intMax)
    (hnext : r.advance (toInt (m : Nat)) = some next) : r.Advances next m := by
  have hcap := h.capacity_lt
  obtain ⟨hrem, -, hread, hleft⟩ := readAdvance_spec h hmoved hcount hm hlive hcontig hnext
  have hnow := hrem.live
  rw [List.length_take, AudioVbuffer.stored_length, Nat.min_eq_left hlive] at hnow
  refine ⟨hrem.wellFormed, hrem.frameSize, hrem.frameCount, hnow, ?_, hread, hleft⟩
  have hlen : toSize (toInt (m : Nat)) = m := by rw [toInt_of_le hint, toSize_natCast (by omega)]
  rw [ReadLoop.advance] at hnext
  split at hnext
  · cases hnext
    dsimp only
    rw [hlen, Nat.mod_eq_of_lt (show r.vbuffer.tail + m < sizeMod by rw [sizeMod]; omega)]
  · cases hnext

/-- Moving a segment leaves what does not fit an `int` to the segments after it. -/
theorem ReadLoop.Advances.segmentsFit (hadvances : r.Advances next m) (h : r.vbuffer.WellFormed)
    (hm : m = min (min r.frameCount r.vbuffer.live) (r.vbuffer.frameCount - r.vbuffer.tail)) (hint : m ≤ intMax) :
    next.vbuffer.SegmentsFit next.frameCount ↔ r.vbuffer.SegmentsFit r.frameCount := by
  have htail := h.tail_lt
  have hle := h.live_le
  have hlive := hadvances.live
  have hcount := hadvances.frameCount
  have hnext := hadvances.tail
  unfold AudioVbuffer.SegmentsFit
  rw [hadvances.capacity]
  rcases Nat.lt_or_ge (r.vbuffer.tail + m) r.vbuffer.frameCount with hinside | hend
  · -- the segment is the last one
    rw [Nat.mod_eq_of_lt hinside] at hnext
    omega
  · have hwrapped : r.vbuffer.tail + m = r.vbuffer.frameCount := by omega
    rw [hwrapped, Nat.mod_self] at hnext
    omega

/-- Nothing is left to read. -/
theorem readLoop_stops_of_none (h : r.vbuffer.WellFormed) (hnone : min r.frameCount r.vbuffer.live = 0) (fuel : Nat) :
    readLoop (fuel + 1) r = ([], some r) := by
  rw [readLoop]
  by_cases hzero : r.frameCount = 0
  · rw [if_pos hzero]
  rw [if_neg hzero]
  rcases readFrames_cases r h with ⟨hframes, -⟩ | ⟨m, -, hm, hlive, -, hgt⟩
  · rw [hframes]
  · have := hgt (Nat.pos_of_ne_zero hzero)
    omega

theorem readLoop_isSome_iff {fuel : Nat} (h : r.vbuffer.WellFormed)
    (hmoved : r.framesRead + r.vbuffer.live ≤ r.vbuffer.frameCount) (hcount : r.frameCount < 2 ^ 64)
    (hfuel : r.frameCount < fuel) : (readLoop fuel r).2.isSome ↔ r.vbuffer.SegmentsFit r.frameCount := by
  induction fuel generalizing r with
  | zero => omega
  | succ fuel ih =>
      by_cases hnone : min r.frameCount r.vbuffer.live = 0
      · rw [readLoop_stops_of_none h hnone, AudioVbuffer.SegmentsFit, hnone]
        simp
      have hframes := readFrames_eq h (show 0 < r.vbuffer.live by omega)
      generalize hm : min (min r.frameCount r.vbuffer.live) (r.vbuffer.frameCount - r.vbuffer.tail) = m at hframes
      have htail := h.tail_lt
      have hcontig : r.vbuffer.tail + m ≤ r.vbuffer.frameCount := by omega
      have hdefined := readAdvance_isSome_iff h hcontig
      rw [readLoop_step fuel (by omega) hframes]
      cases hadv : r.advance (toInt (m : Nat)) with
      | none =>
          rw [hadv] at hdefined
          have hlong : ¬ m ≤ intMax := fun hint => by cases hdefined.mpr hint
          rw [Option.bind_none, AudioVbuffer.SegmentsFit, hm]
          exact iff_of_false Bool.false_ne_true fun hfits => hlong hfits.1
      | some next =>
          have hint : m ≤ intMax := hdefined.mp (by rw [hadv]; rfl)
          have hadvances := readAdvance_advances h hmoved hcount (by omega) (by omega) hcontig hint hadv
          have hlive := hadvances.live
          have hread := hadvances.framesRead
          have hleft := hadvances.frameCount
          have hcap := hadvances.capacity
          rw [Option.bind_some, ← hadvances.segmentsFit h hm.symm hint]
          exact ih hadvances.wellFormed (by omega) (by omega) (by omega)

theorem readLoop_copies_step (fuel : Nat) {frames : Int} (hpos : r.frameCount ≠ 0) (hframes : r.frames = some frames) :
    (readLoop (fuel + 1) r).1 =
      r.memcpy frames :: ((r.advance frames).map fun next => (readLoop fuel next).1).getD [] := by
  rw [readLoop, if_neg hpos]
  simp only [hframes]
  cases r.advance frames <;> rfl

/-- The copies of a read whose segments fit stay behind one another. -/
theorem readLoop_copies {fuel : Nat} (h : r.vbuffer.WellFormed)
    (hmoved : r.framesRead + r.vbuffer.live ≤ r.vbuffer.frameCount) (hcount : r.frameCount < 2 ^ 64)
    (hfits : r.vbuffer.SegmentsFit r.frameCount) : ∀ c ∈ (readLoop fuel r).1,
      c.dst + c.len ≤ (r.framesRead + min r.frameCount r.vbuffer.live) * r.vbuffer.frameSize := by
  induction fuel generalizing r with
  | zero => exact fun c hc => by cases hc
  | succ fuel ih =>
      by_cases hnone : min r.frameCount r.vbuffer.live = 0
      · rw [readLoop_stops_of_none h hnone]
        exact fun c hc => by cases hc
      have hframes := readFrames_eq h (show 0 < r.vbuffer.live by omega)
      have hint := hfits.1
      generalize hm : min (min r.frameCount r.vbuffer.live) (r.vbuffer.frameCount - r.vbuffer.tail) = m at hframes hint
      have hcap := h.capacity_lt
      have htail := h.tail_lt
      have hcontig : r.vbuffer.tail + m ≤ r.vbuffer.frameCount := by omega
      obtain ⟨next, hadv⟩ := Option.isSome_iff_exists.mp ((readAdvance_isSome_iff h hcontig).mpr hint)
      have hadvances := readAdvance_advances h hmoved hcount (by omega) (by omega) hcontig hint hadv
      have hlive := hadvances.live
      have hread := hadvances.framesRead
      have hleft := hadvances.frameCount
      have hsame := hadvances.capacity
      have hlater := ih hadvances.wellFormed (by omega) (by omega) ((hadvances.segmentsFit h hm.symm hint).mpr hfits)
      have hmoves : next.framesRead + min next.frameCount next.vbuffer.live =
          r.framesRead + min r.frameCount r.vbuffer.live := by omega
      rw [hmoves, hadvances.frameSize] at hlater
      rw [readLoop_copies_step fuel (by omega) hframes, hadv, Option.map_some, Option.getD_some]
      refine List.forall_mem_cons.mpr ⟨?_, hlater⟩
      have hlen : toSize (toInt (m : Nat)) = m := by rw [toInt_of_le hint, toSize_natCast (by omega)]
      simp only [ReadLoop.memcpy, hlen]
      rw [h.offset_eq (by omega), h.offset_eq (by omega), ← Nat.add_mul]
      exact Nat.mul_le_mul_right _ (by omega)

end Segments

/-- A read returns exactly when its segments fit. -/
theorem audioVbufferRead_isSome_iff {b : AudioVbuffer} (h : b.WellFormed) (buffer : Nat → UInt8) {frameCount : Nat}
    (hcount : frameCount < 2 ^ 64) : (audioVbufferRead b buffer frameCount).isSome ↔ b.SegmentsFit frameCount := by
  have hmoved : 0 + b.live ≤ b.frameCount := by
    have := h.live_le
    omega
  rw [audioVbufferRead, Option.isSome_map]
  exact readLoop_isSome_iff h hmoved hcount (Nat.lt_succ_self _)

theorem audioVbufferReadCopies_inside {b : AudioVbuffer} (h : b.WellFormed) (buffer : Nat → UInt8) {frameCount : Nat}
    (hcount : frameCount < 2 ^ 64) (hfits : b.SegmentsFit frameCount) :
    ∀ c ∈ audioVbufferReadCopies b buffer frameCount, c.dst + c.len ≤ frameCount * b.frameSize := by
  have hmoved : 0 + b.live ≤ b.frameCount := by
    have := h.live_le
    omega
  intro c hc
  have hinside := readLoop_copies h hmoved hcount hfits c hc
  rw [Nat.zero_add] at hinside
  exact Nat.le_trans hinside (Nat.mul_le_mul_right _ (Nat.min_le_left _ _))

end Trout.Audio

import Trout.ConfigRefinement
import Trout.InputSections
import Trout.OutputSections

/-! The ring buffer of a stream that has been opened. Its capacity comes from two properties that nothing checks;
with a capacity of zero the first transfer divides by it. -/

namespace Trout.Audio
open CInt Runs

/-! ### The end of a transfer -/

/-- The write loop ends: nothing is left to write, the buffer is full, or a copy leaves the allocation. An
iteration without a result is none of these when it divides by zero. -/
inductive WriteLoop.Stops (buffer : Nat → UInt8) : WriteLoop → Prop where
  | written (w : WriteLoop) : w.frameCount = 0 → Stops buffer w
  | full (w : WriteLoop) : w.frames = none → Stops buffer w
  | outside (w : WriteLoop) (frames : Int) : w.frames = some frames →
      w.vbuffer.dataSize < (w.memcpy frames).dst + (w.memcpy frames).len → Stops buffer w
  | next (w next : WriteLoop) (frames : Int) : w.frames = some frames → w.advance buffer frames = some next →
      Stops buffer next → Stops buffer w

/-- The read loop ends, likewise. -/
inductive ReadLoop.Stops : ReadLoop → Prop where
  | read (r : ReadLoop) : r.frameCount = 0 → Stops r
  | empty (r : ReadLoop) : r.frames = none → Stops r
  | outside (r : ReadLoop) (frames : Int) : r.frames = some frames →
      r.vbuffer.dataSize < (r.memcpy frames).src + (r.memcpy frames).len → Stops r
  | next (r next : ReadLoop) (frames : Int) : r.frames = some frames → r.advance frames = some next →
      Stops next → Stops r

/-- The loop of a call ends. -/
def AudioVbuffer.Stops (b : AudioVbuffer) : VbufferCall → Prop
  | .write buffer frameCount => WriteLoop.Stops buffer ⟨b, 0, frameCount.toNat⟩
  | .read buffer frameCount => ReadLoop.Stops ⟨b, buffer, 0, frameCount.toNat⟩

theorem writeLoop_stops (buffer : Nat → UInt8) {w : WriteLoop} (h : w.vbuffer.WellFormed)
    (hmoved : w.framesWritten ≤ w.vbuffer.live) (hcount : w.frameCount < 2 ^ 64) : w.Stops buffer := by
  induction hleft : w.frameCount using Nat.strong_induction_on generalizing w with
  | _ left ih =>
      by_cases hzero : w.frameCount = 0
      · exact .written w hzero
      rcases writeFrames_cases w h with ⟨hnone, -⟩ | ⟨m, hframes, hm, hspace, hcontig, hgt⟩
      · exact .full w hnone
      cases hadv : w.advance buffer (toInt m) with
      | none =>
          refine .outside w _ hframes ?_
          by_contra hinside
          rw [WriteLoop.advance, if_pos ⟨Nat.not_lt.mp hinside, h.capacity_pos.ne'⟩] at hadv
          cases hadv
      | some next =>
          obtain ⟨happ, hwritten, hless⟩ := writeAdvance_spec h hmoved hcount hm hspace hcontig hadv
          have hlive := happ.live
          rw [RingWindow.records_length] at hlive
          have hpos := hgt (Nat.pos_of_ne_zero hzero)
          exact .next w next _ hframes hadv
            (ih next.frameCount (by omega) happ.wellFormed (by omega) (by omega) rfl)

theorem readLoop_stops {r : ReadLoop} (h : r.vbuffer.WellFormed)
    (hmoved : r.framesRead + r.vbuffer.live ≤ r.vbuffer.frameCount) (hcount : r.frameCount < 2 ^ 64) : r.Stops := by
  induction hleft : r.frameCount using Nat.strong_induction_on generalizing r with
  | _ left ih =>
      by_cases hzero : r.frameCount = 0
      · exact .read r hzero
      rcases readFrames_cases r h with ⟨hnone, -⟩ | ⟨m, hframes, hm, hlive, hcontig, hgt⟩
      · exact .empty r hnone
      cases hadv : r.advance (toInt m) with
      | none =>
          refine .outside r _ hframes ?_
          by_contra hinside
          rw [ReadLoop.advance, if_pos ⟨Nat.not_lt.mp hinside, h.capacity_pos.ne'⟩] at hadv
          cases hadv
      | some next =>
          obtain ⟨hrem, -, hread, hless⟩ := readAdvance_spec h hmoved hcount hm hlive hcontig hadv
          have hnow := hrem.live
          rw [List.length_take, AudioVbuffer.stored_length, Nat.min_eq_left hlive] at hnow
          have hpos := hgt (Nat.pos_of_ne_zero hzero)
          have hsame := hrem.frameCount
          exact .next r next _ hframes hadv
            (ih next.frameCount (by omega) hrem.wellFormed (by omega) (by omega) rfl)

theorem AudioVbuffer.WellFormed.stops {b : AudioVbuffer} (h : b.WellFormed) (call : VbufferCall) : b.Stops call := by
  cases call with
  | write buffer frameCount => exact writeLoop_stops buffer h (Nat.zero_le _) frameCount.toNat_lt
  | read buffer frameCount =>
      refine readLoop_stops h ?_ frameCount.toNat_lt
      change 0 + b.live ≤ b.frameCount
      have := h.live_le
      omega

theorem AudioVbuffer.WellFormed.reachable {b b' : AudioVbuffer} (h : b.WellFormed)
    (hreach : Reachable vbufferStep b b') : b'.WellFormed ∧ b'.frameCount = b.frameCount :=
  hreach.invariant (fun c => c.WellFormed ∧ c.frameCount = b.frameCount)
    (fun _ _ _ _ hc hstep =>
      have hnext := vbufferStep_spec hc.1 hstep
      ⟨hnext.1, hnext.2.1.trans hc.2⟩) ⟨h, rfl⟩

/-! ### The capacity -/

/-- The period size and the capacity are exact, the capacity is not zero, its bytes are allocated, and after any
calls the loop of the next one ends. -/
structure RingUsable (rate : UInt32) (p : PeriodProperties) (c : PcmConfig) (b : AudioVbuffer) : Prop where
  periodSize : (c.periodSize.toNat : Int) = (rate.toNat * p.periodMs.toInt).tdiv 1000
  capacity : (b.frameCount : Int) = (rate.toNat * p.periodMs.toInt).tdiv 1000 * p.periodCount.toInt
  nonempty : 1 ≤ b.frameCount
  allocated : b.dataSize = b.frameCount * c.frameSize
  stops : ∀ b', Reachable vbufferStep b b' → ∀ call, b'.Stops call

/-- A period has a frame at least, there is a period at least, and no product wraps. -/
structure PeriodsFit (rate : UInt32) (p : PeriodProperties) : Prop where
  frame : 1000 ≤ rate.toNat * p.periodMs.toInt
  period_lt : rate.toNat * p.periodMs.toInt < 2 ^ 32
  count : 1 ≤ p.periodCount.toInt
  capacity_lt : rate.toNat * p.periodMs.toInt / 1000 * p.periodCount.toInt < 2 ^ 32

theorem pcmConfigFor_period (rate : UInt32) (p : PeriodProperties) :
    ((pcmConfigFor rate p).periodSize.toNat : Int) = (rate.toNat * p.periodMs.toInt) % 2 ^ 32 / 1000 := by
  rw [← mul_toUInt32_toNat]
  change ((rate * p.periodMs.toUInt32 / 1000).toNat : Int) = _
  rw [UInt32.toNat_div]
  rfl

theorem pcmConfigFor_capacity (rate : UInt32) (p : PeriodProperties) :
    ((pcmConfigFor rate p).capacity : Int) =
      ((pcmConfigFor rate p).periodSize.toNat * p.periodCount.toInt) % 2 ^ 32 := mul_toUInt32_toNat _ _

/-- An exact quotient that is not zero has not wrapped. -/
theorem product_of_exact {product : Int} (hexact : product % 2 ^ 32 / 1000 = product.tdiv 1000)
    (hpos : 1 ≤ product % 2 ^ 32 / 1000) : 1000 ≤ product ∧ product < 2 ^ 32 := by
  rcases lt_or_ge product 0 with hneg | hnonneg
  · have hquotient := Int.tdiv_nonneg (Int.neg_nonneg_of_nonpos hneg.le) (show (0 : Int) ≤ 1000 by decide)
    rw [Int.neg_tdiv] at hquotient
    omega
  · rw [Int.tdiv_eq_ediv_of_nonneg hnonneg] at hexact
    omega

section Exact
variable {rate : UInt32} {p : PeriodProperties}

/-- An exact capacity that is not zero comes from periods that fit. -/
theorem periodsFit_of_exact
    (hperiod : ((pcmConfigFor rate p).periodSize.toNat : Int) = (rate.toNat * p.periodMs.toInt).tdiv 1000)
    (hcapacity : ((pcmConfigFor rate p).capacity : Int) =
      (rate.toNat * p.periodMs.toInt).tdiv 1000 * p.periodCount.toInt)
    (hpos : 1 ≤ (pcmConfigFor rate p).capacity) : PeriodsFit rate p := by
  have hlt := (pcmConfigFor rate p).capacity_lt
  have hwrapped := pcmConfigFor_period rate p
  rw [← hperiod] at hcapacity
  have hsize : 1 ≤ (pcmConfigFor rate p).periodSize.toNat := by
    by_contra hzero
    rw [Nat.lt_one_iff.mp (Nat.not_le.mp hzero), Nat.cast_zero, Int.zero_mul] at hcapacity
    omega
  have hcount : 1 ≤ p.periodCount.toInt := by
    by_contra hzero
    have hnonpos := Int.mul_nonpos_of_nonneg_of_nonpos (Int.natCast_nonneg (pcmConfigFor rate p).periodSize.toNat)
      (show p.periodCount.toInt ≤ 0 by omega)
    omega
  obtain ⟨hfirst, hlast⟩ := product_of_exact (hwrapped.symm.trans hperiod) (by omega)
  refine ⟨hfirst, hlast, hcount, ?_⟩
  rw [← Int.tdiv_eq_ediv_of_nonneg (by omega), ← hperiod, ← hcapacity]
  exact_mod_cast hlt

theorem PeriodsFit.exact (h : PeriodsFit rate p) :
    ((pcmConfigFor rate p).periodSize.toNat : Int) = (rate.toNat * p.periodMs.toInt).tdiv 1000 ∧
      ((pcmConfigFor rate p).capacity : Int) = (rate.toNat * p.periodMs.toInt).tdiv 1000 * p.periodCount.toInt ∧
      1 ≤ (pcmConfigFor rate p).capacity := by
  have hfirst := h.frame
  have hcount := h.count
  have hquotient : (rate.toNat * p.periodMs.toInt).tdiv 1000 = rate.toNat * p.periodMs.toInt / 1000 :=
    Int.tdiv_eq_ediv_of_nonneg (by omega)
  have hperiod : ((pcmConfigFor rate p).periodSize.toNat : Int) = rate.toNat * p.periodMs.toInt / 1000 := by
    rw [pcmConfigFor_period, Int.emod_eq_of_lt (by omega) h.period_lt]
  have hproduct : (1 : Int) ≤ rate.toNat * p.periodMs.toInt / 1000 * p.periodCount.toInt := by
    have := Int.mul_le_mul (show (1 : Int) ≤ rate.toNat * p.periodMs.toInt / 1000 by omega) hcount (by decide) (by omega)
    omega
  have hcapacity : ((pcmConfigFor rate p).capacity : Int) =
      rate.toNat * p.periodMs.toInt / 1000 * p.periodCount.toInt := by
    rw [pcmConfigFor_capacity, hperiod, Int.emod_eq_of_lt (by omega) h.capacity_lt]
  exact ⟨hperiod.trans hquotient.symm, by rw [hcapacity, hquotient], by omega⟩

theorem streamVbuffer_eq {calloc : Nat → Bool} {capacity : Nat} {b : AudioVbuffer}
    (hinit : audioVbufferInit calloc capacity 4 = .ok b) : b = ⟨fun _ => 0, sizeMul capacity 4, 4, capacity, 0, 0, 0⟩ := by
  rw [audioVbufferInit] at hinit
  split at hinit
  · cases hinit
    rfl
  · cases hinit

/-- The ring buffer of a stream is usable exactly when the periods fit. -/
theorem ringUsable_iff {calloc : Nat → Bool} {b : AudioVbuffer}
    (hinit : audioVbufferInit calloc (pcmConfigFor rate p).capacity 4 = .ok b) :
    RingUsable rate p (pcmConfigFor rate p) b ↔ PeriodsFit rate p := by
  have hcap := (streamVbuffer_usable (PcmConfig.capacity_lt _) hinit).2.1
  constructor
  · intro h
    have hpos := h.nonempty
    have hcapacity := h.capacity
    rw [hcap] at hpos hcapacity
    exact periodsFit_of_exact h.periodSize hcapacity hpos
  · intro h
    obtain ⟨hperiod, hcapacity, hpos⟩ := h.exact
    have hwf := streamVbuffer_wellFormed hpos (PcmConfig.capacity_lt _) hinit
    refine ⟨hperiod, by rw [hcap, hcapacity], by rwa [hcap], ?_, fun b' hreach => (hwf.reachable hreach).1.stops⟩
    rw [hwf.allocated, streamVbuffer_eq hinit, pcmConfigFor_frameSize]

/-- Every call returns, after any calls. -/
def AlwaysReturns (b : AudioVbuffer) : Prop :=
  ∀ b', Reachable vbufferStep b b' → ∀ call, (vbufferStep b' call).isSome

/-- Every call on a usable ring buffer returns exactly when its capacity is an `int`. -/
theorem alwaysReturns_iff {calloc : Nat → Bool} {b : AudioVbuffer} {capacity : Nat} (hpos : 0 < capacity)
    (hlt : capacity < 2 ^ 32) (hinit : audioVbufferInit calloc capacity 4 = .ok b) :
    AlwaysReturns b ↔ capacity ≤ intMax := by
  have hwf := streamVbuffer_wellFormed hpos hlt hinit
  obtain ⟨-, hcap, hlive⟩ := streamVbuffer_usable hlt hinit
  constructor
  · intro h
    by_contra hwide
    -- a first write of as many frames as the buffer holds, whose length is negative as an `int`
    have hreturns := h b (Reachable.refl b) (.write (fun _ => 0) (UInt64.ofNat capacity))
    have hcount : (UInt64.ofNat capacity).toNat = capacity := UInt64.toNat_ofNat_of_lt' (by rw [UInt64.size]; omega)
    have hframes : WriteLoop.frames ⟨b, 0, capacity⟩ = some (toInt (capacity : Nat)) := by
      rw [WriteLoop.frames, if_pos (Or.inl hlive), hcap]
      have hroom : sizeSub capacity b.head = capacity := by
        rw [streamVbuffer_eq hinit]
        exact sizeSub_of_le (Nat.zero_le _) (by omega)
      rw [hroom, Nat.min_self]
    have hout : WriteLoop.advance (fun _ => 0) ⟨b, 0, capacity⟩ (toInt (capacity : Nat)) = none := by
      have hlong := hwf.wide capacity (Nat.not_le.mp hwide) hcap.ge
      rw [WriteLoop.advance, if_neg]
      rintro ⟨hinside, -⟩
      have := Nat.le_trans (Nat.le_add_left _ _) hinside
      exact absurd hlong (Nat.not_lt.mpr this)
    rw [vbufferStep, audioVbufferWrite, hcount, writeLoop_step _ _ hpos.ne' hframes, hout] at hreturns
    cases hreturns
  · intro hint b' hreach call
    obtain ⟨hwf', hcap'⟩ := hwf.reachable hreach
    obtain ⟨next, returns, hstep⟩ := vbufferStep_defined hwf' (by rw [hcap', hcap]; exact hint) call
    rw [hstep, Option.isSome_some]

/-- The periods fit, and an `int` holds the capacity. -/
def CapacityFits (rate : UInt32) (p : PeriodProperties) : Prop :=
  PeriodsFit rate p ∧ rate.toNat * p.periodMs.toInt / 1000 * p.periodCount.toInt ≤ intMax

theorem ringReturns_iff {calloc : Nat → Bool} {b : AudioVbuffer}
    (hinit : audioVbufferInit calloc (pcmConfigFor rate p).capacity 4 = .ok b) :
    (RingUsable rate p (pcmConfigFor rate p) b ∧ AlwaysReturns b) ↔ CapacityFits rate p := by
  rw [CapacityFits, ringUsable_iff hinit]
  refine and_congr_right fun hfit => ?_
  obtain ⟨-, hcapacity, hpos⟩ := hfit.exact
  have hfirst := hfit.frame
  rw [alwaysReturns_iff hpos (PcmConfig.capacity_lt _) hinit, ← Int.tdiv_eq_ediv_of_nonneg (by omega), ← hcapacity]
  exact Int.ofNat_le.symm

end Exact

/-- The ring buffer of a stream that has been opened is usable exactly when the periods fit, and its calls return
whatever their lengths exactly when furthermore an `int` holds its capacity. -/
theorem opened_usable_iff (p : PeriodProperties) (allocated : Bool) (calloc : Nat → Bool) (config : AudioConfig) :
    (∀ out, adevOpenOutputStream allocated calloc p config = .ok out →
      (RingUsable config.sampleRate p out.pcmConfig out.buffer ↔ PeriodsFit config.sampleRate p) ∧
      (RingUsable config.sampleRate p out.pcmConfig out.buffer ∧ AlwaysReturns out.buffer ↔
        CapacityFits config.sampleRate p)) ∧
    ∀ device address inp, adevOpenInputStream allocated calloc p device address config = .ok inp →
      (RingUsable config.sampleRate p inp.pcmConfig inp.buffer ↔ PeriodsFit config.sampleRate p) ∧
      (RingUsable config.sampleRate p inp.pcmConfig inp.buffer ∧ AlwaysReturns inp.buffer ↔
        CapacityFits config.sampleRate p) := by
  constructor
  · intro out hopen
    obtain ⟨hinit, -, -, hpcm, -⟩ := open_init hopen
    rw [hpcm]
    exact ⟨ringUsable_iff hinit, ringReturns_iff hinit⟩
  · intro device address inp hopen
    obtain ⟨hinit, -, hpcm, -⟩ := openInput_init hopen
    rw [hpcm]
    exact ⟨ringUsable_iff hinit, ringReturns_iff hinit⟩

/-- The first transfer into a ring buffer without frames divides by its capacity. -/
theorem not_stops_of_empty (buffer : Nat → UInt8) (n : Nat) :
    ¬ WriteLoop.Stops buffer ⟨⟨fun _ => 0, 0, 4, 0, 0, 0, 0⟩, 0, n + 1⟩ := by
  have hframes : WriteLoop.frames ⟨⟨fun _ => 0, 0, 4, 0, 0, 0, 0⟩, 0, n + 1⟩ = some 0 := by
    have hroom : sizeSub 0 0 = 0 := sizeSub_of_le le_rfl (by decide)
    rw [WriteLoop.frames, if_pos (Or.inl rfl)]
    dsimp only
    rw [hroom, Nat.min_zero]
    rfl
  intro h
  cases h with
  | written _ hzero => cases hzero
  | full _ hfull => cases hframes.symm.trans hfull
  | outside _ frames hsome hout =>
      cases hframes.symm.trans hsome
      exact absurd hout (Nat.lt_irrefl 0)
  | next _ next frames hsome hadvance =>
      cases hframes.symm.trans hsome
      rw [WriteLoop.advance, if_neg fun hdefined => hdefined.2 rfl] at hadvance
      cases hadvance

/-- With a period of 0 ms the stream opens, its ring buffer has no frame, and a first write does not end. -/
theorem opened_without_capacity :
    ∃ out, adevOpenOutputStream true (fun _ => true) ⟨0, 4⟩ ⟨48000, audioFormatPcm16Bit, 3⟩ = .ok out ∧
      out.buffer.frameCount = 0 ∧ ¬ out.buffer.Stops (.write (fun _ => 0) 1) ∧
      ¬ RingUsable 48000 ⟨0, 4⟩ out.pcmConfig out.buffer :=
  ⟨_, rfl, rfl, not_stops_of_empty _ 0, fun h => absurd h.nonempty (by decide)⟩

end Trout.Audio

import Trout.CaptureAssertion
import Trout.InputSections
import Trout.VbufferSegments

/-! What `in_read` leaves in the buffer of its caller. The three ways to fill it share one exit, which computes where
the zeros start from an `int`; the conversion buffer is filled for as many frames as the caller asks for. -/

namespace Trout.Audio
open CInt Pcm16 RingWindow Runs

/-- The client takes one channel of a stream that is captured in stereo. -/
def Converts (inp : GenericStreamIn) : Prop := popcount inp.reqConfig.channelMask = 1 ∧ inp.pcmConfig.channels = 2

instance (inp : GenericStreamIn) : Decidable (Converts inp) := inferInstanceAs (Decidable (_ ∧ _))

/-- The frames that leave the ring buffer. -/
def framesTaken (inp : GenericStreamIn) (bytes : Nat) : Nat := min (bytes / audioStreamInFrameSize inp) inp.buffer.live

/-- The stream was put in standby during the sleep, or the conversion buffer cannot be allocated. -/
def ReadDisturbed (inp : GenericStreamIn) (bytes : Nat) (realloc : Nat → Option (Nat → UInt8)) : Prop :=
  inp.standby = true ∨
    Converts inp ∧ inp.stereoToMonoBufSize < sizeMul bytes 2 ∧ realloc (sizeMul bytes 2) = none

/-- The places and lengths in the conversion buffer of what is copied there and of the samples that are taken. -/
def conversionAccesses (inp : GenericStreamIn) (bytes : Nat) (memory : Nat → UInt8) : List (Nat × Nat) :=
  let frames := bytes / audioStreamInFrameSize inp
  (audioVbufferReadCopies inp.buffer memory frames).map (fun c => (c.dst, c.len)) ++
    (List.range frames).map fun i => (4 * i, 2)

/-- Silence, and a ring buffer left alone. -/
structure ReadSilent (inp inp' : GenericStreamIn) (bytes : Nat) (filled : Nat → UInt8) : Prop where
  zero : ∀ a < bytes, filled a = 0
  ring : inp'.buffer = inp.buffer

/-- The oldest frames, in the channels of the client, and zeros behind them; only zeros when it is muted. -/
structure ReadOldest (inp inp' : GenericStreamIn) (bytes : Nat) (readMute : Bool) (filled : Nat → UInt8) : Prop where
  ring : inp'.buffer.stored = inp.buffer.stored.drop (framesTaken inp bytes)
  audio : readMute = false → records filled (audioStreamInFrameSize inp) 0 (framesTaken inp bytes) =
    (inp.buffer.stored.take (framesTaken inp bytes)).map (List.take (audioStreamInFrameSize inp))
  rest : ∀ a < bytes, readMute = true ∨ framesTaken inp bytes * audioStreamInFrameSize inp ≤ a → filled a = 0
  conversion : Converts inp → ∀ memory, ∀ e ∈ conversionAccesses inp bytes memory, e.1 + e.2 ≤ sizeMul bytes 2

/-- After its sleep the call returns, whatever the buffer holds and whatever `realloc` returns. -/
def FillsExactly (inp : GenericStreamIn) (bytes : Nat) (readMute : Bool) : Prop :=
  ∀ buffer tone realloc, ∃ inp' filled frames,
    fillSection inp ⟨buffer, bytes, readMute, false⟩ tone realloc =
        some ⟨inp', .idle, false, [.returned ⟨buffer, bytes, readMute, false⟩ filled frames]⟩ ∧
      (ReadDisturbed inp bytes realloc → ReadSilent inp inp' bytes filled) ∧
      (¬ ReadDisturbed inp bytes realloc → ReadOldest inp inp' bytes readMute filled)

/-- The ring buffer has capacity, the segments of the read fit an `int`, and so does their sum where zeros are
to follow, and the size of the conversion buffer does not wrap. -/
structure ReadFits (inp : GenericStreamIn) (bytes : Nat) (readMute : Bool) : Prop where
  capacity : 0 < inp.buffer.frameCount
  segments : inp.buffer.SegmentsFit (bytes / audioStreamInFrameSize inp)
  count : readMute = true ∨ framesTaken inp bytes ≤ intMax ∨
    framesTaken inp bytes * audioStreamInFrameSize inp = bytes
  conversion : Converts inp → bytes < 2 ^ 63

/-- In standby, or for less than a frame, nothing is read. -/
def FillFits (inp : GenericStreamIn) (bytes : Nat) (readMute : Bool) : Prop :=
  inp.standby = true ∨ bytes < audioStreamInFrameSize inp ∨ ReadFits inp bytes readMute

/-- What the filling of the buffer relies on. -/
structure FillReady (inp : GenericStreamIn) : Prop where
  usable : inp.buffer.Usable
  channels : popcount inp.reqConfig.channelMask = 1 ∨ popcount inp.reqConfig.channelMask = 2
  stereo : inp.pcmConfig.channels = 2
  unsized : inp.stereoToMonoBufSize = 0

/-! ### The ways to fill the buffer -/

section Fill
variable {inp : GenericStreamIn} {c : ReadCall} {tone : Nat → Int16} {realloc : Nat → Option (Nat → UInt8)}

theorem frameSize_mono (h : Converts inp) : audioStreamInFrameSize inp = 2 := by
  rw [audioStreamInFrameSize, AudioConfig.frameSize, h.1]

theorem FillReady.frameSize_stereo (h : FillReady inp) (hstereo : ¬ Converts inp) : audioStreamInFrameSize inp = 4 := by
  have htwo := h.channels.resolve_left fun hone => hstereo ⟨hone, h.stereo⟩
  rw [audioStreamInFrameSize, AudioConfig.frameSize, htwo]

theorem FillReady.frameSize (h : FillReady inp) : audioStreamInFrameSize inp = 2 ∨ audioStreamInFrameSize inp = 4 := by
  by_cases hmono : Converts inp
  · exact Or.inl (frameSize_mono hmono)
  · exact Or.inr (h.frameSize_stereo hmono)

theorem fillSection_of_fill {inp' : GenericStreamIn} {buffer : Nat → UInt8} {readFrames : Int}
    (h : inReadFill inp c tone realloc = some (inp', buffer, readFrames)) :
    fillSection inp c tone realloc = some ⟨inp', .idle, false,
      [.returned c (inReadZero c buffer (inReadBytes inp c readFrames)) (if c.readMute then 0 else toUint readFrames)]⟩ := by
  rw [fillSection, h]
  rfl

variable (tone realloc)

/-- A call that is disturbed reads nothing. -/
theorem inReadFill_disturbed (htone : c.isToneGenerator = false) (h : ReadDisturbed inp c.bytes realloc) :
    ∃ inp', inReadFill inp c tone realloc = some (inp', c.buffer, 0) ∧ inp'.buffer = inp.buffer := by
  unfold inReadFill
  dsimp only
  by_cases hstandby : inp.standby = true
  · rw [if_pos hstandby]
    exact ⟨inp, rfl, rfl⟩
  obtain ⟨hmono, hsize, hfailed⟩ := h.resolve_left hstandby
  unfold Converts at hmono
  rw [if_neg hstandby, htone, if_neg Bool.false_ne_true, if_pos hmono, if_pos hsize, hfailed]
  dsimp only
  rw [if_pos (Or.inl hsize)]
  exact ⟨_, rfl, rfl⟩

/-- A call that gets a conversion buffer keeps the left channel of what it reads into it. -/
theorem inReadFill_mono {memory : Nat → UInt8} (htone : c.isToneGenerator = false) (hstandby : inp.standby = false)
    (hmono : Converts inp) (hsize : inp.stereoToMonoBufSize < sizeMul c.bytes 2)
    (halloc : realloc (sizeMul c.bytes 2) = some memory) :
    ∃ inp' : GenericStreamIn, inReadFill inp c tone realloc =
      (audioVbufferRead inp.buffer memory (c.bytes / audioStreamInFrameSize inp)).map fun r =>
        ({ inp' with buffer := r.1, stereoToMonoBuf := some r.2.1 },
          stereoToMono r.2.1 c.buffer (c.bytes / audioStreamInFrameSize inp), toInt (r.2.2 : Nat)) := by
  unfold Converts at hmono
  unfold inReadFill
  dsimp only
  rw [if_neg (by rw [hstandby]; exact Bool.false_ne_true), htone, if_neg Bool.false_ne_true, if_pos hmono, if_pos hsize,
    halloc]
  exact ⟨_, rfl⟩

theorem inReadFill_stereo (htone : c.isToneGenerator = false) (hstandby : inp.standby = false)
    (hstereo : ¬ Converts inp) :
    ∃ inp' : GenericStreamIn, inReadFill inp c tone realloc =
      (audioVbufferRead inp.buffer c.buffer (c.bytes / audioStreamInFrameSize inp)).map fun r =>
        ({ inp' with buffer := r.1 }, r.2.1, toInt (r.2.2 : Nat)) := by
  unfold Converts at hstereo
  unfold inReadFill
  dsimp only
  rw [if_neg (by rw [hstandby]; exact Bool.false_ne_true), htone, if_neg Bool.false_ne_true, if_neg hstereo]
  exact ⟨{ inp with standbyFramesRead := toLong (inp.standbyFramesRead + (c.bytes / audioStreamInFrameSize inp : Nat)) },
    rfl⟩

theorem stereoToMono_zero (src dst : Nat → UInt8) : stereoToMono src dst 0 = dst := by
  funext a
  rw [stereoToMono, if_neg (Nat.not_lt_zero _)]

theorem audioVbufferRead_zero (b : AudioVbuffer) (memory : Nat → UInt8) :
    audioVbufferRead b memory 0 = some (b, memory, 0) := by
  rw [audioVbufferRead, readLoop_done 0 rfl]
  rfl

theorem audioVbufferReadCopies_zero (b : AudioVbuffer) (memory : Nat → UInt8) :
    audioVbufferReadCopies b memory 0 = [] := by
  unfold audioVbufferReadCopies readLoop
  rw [if_pos rfl]

theorem toInt_zero : toInt ((0 : Nat) : Int) = 0 := toInt_of_le (Nat.zero_le _)

/-- A call for less than a frame that is not disturbed reads nothing. -/
theorem inReadFill_nothing (h : FillReady inp) (htone : c.isToneGenerator = false) (hstandby : inp.standby = false)
    (hfew : c.bytes / audioStreamInFrameSize inp = 0) (hcalm : ¬ ReadDisturbed inp c.bytes realloc) :
    ∃ inp', inReadFill inp c tone realloc = some (inp', c.buffer, 0) ∧ inp'.buffer = inp.buffer := by
  by_cases hmono : Converts inp
  · have hunsized := h.unsized
    unfold Converts at hmono
    unfold inReadFill
    dsimp only
    rw [if_neg (by rw [hstandby]; exact Bool.false_ne_true), htone, if_neg Bool.false_ne_true, if_pos hmono, hfew]
    by_cases hsize : inp.stereoToMonoBufSize < sizeMul c.bytes 2
    · cases halloc : realloc (sizeMul c.bytes 2) with
      | none => exact absurd (Or.inr ⟨hmono, hsize, halloc⟩) hcalm
      | some memory =>
          rw [if_pos hsize]
          dsimp only
          rw [audioVbufferRead_zero, Option.map_some, stereoToMono_zero, toInt_zero]
          exact ⟨_, rfl, rfl⟩
    · rw [if_neg hsize]
      dsimp only
      cases inp.stereoToMonoBuf with
      | none =>
          dsimp only
          rw [if_pos (Or.inr rfl)]
          exact ⟨_, rfl, rfl⟩
      | some memory =>
          dsimp only
          rw [audioVbufferRead_zero, Option.map_some, stereoToMono_zero, toInt_zero]
          exact ⟨_, rfl, rfl⟩
  · obtain ⟨inp', hfill⟩ := inReadFill_stereo tone realloc htone hstandby hmono
    rw [hfew, audioVbufferRead_zero, Option.map_some, toInt_zero] at hfill
    exact ⟨_, hfill, rfl⟩

end Fill

/-! ### The zeros -/

section Zeros
variable {inp inp' : GenericStreamIn} {c : ReadCall}

theorem inReadBytes_zero (inp : GenericStreamIn) (c : ReadCall) : inReadBytes inp c 0 = 0 := by
  rw [inReadBytes]
  split
  · rfl
  · rw [show toSize 0 = 0 from rfl, sizeMul, Nat.zero_mul, Nat.zero_mod]

theorem inReadZero_all {buffer : Nat → UInt8} {a : Nat} (ha : a < c.bytes) : inReadZero c buffer 0 a = 0 := by
  rw [inReadZero, if_pos ⟨Nat.zero_le a, ha⟩]

/-- The zeros start behind the frames that were read, as long as an `int` holds their number. -/
theorem inReadBytes_exact (hsize : audioStreamInFrameSize inp = 2 ∨ audioStreamInFrameSize inp = 4)
    (hmute : c.readMute = false) {count : Nat} (hint : count ≤ intMax) :
    inReadBytes inp c (toInt (count : Nat)) = count * audioStreamInFrameSize inp := by
  have hlt : count < 2 ^ 64 := lt_of_le_of_lt hint (by decide)
  rw [inReadBytes, hmute, if_neg Bool.false_ne_true, toInt_of_le hint, toSize_natCast hlt]
  refine sizeMul_of_lt ?_
  rw [intMax] at hint
  rcases hsize with hsize | hsize <;> rw [hsize] <;> omega

/-- A number of frames that an `int` does not hold starts the zeros near the end of memory. -/
theorem inReadBytes_wrapped (hsize : audioStreamInFrameSize inp = 2 ∨ audioStreamInFrameSize inp = 4)
    (hmute : c.readMute = false) {count : Nat} (hwide : intMax < count) (hlt : count < 2 ^ 32) :
    count * audioStreamInFrameSize inp < inReadBytes inp c (toInt (count : Nat)) := by
  have hread : toSize (toInt (count : Nat)) = count + (2 ^ 64 - 2 ^ 32) := by
    rw [toInt_of_gt hwide hlt]
    simp only [toSize, sizeMod]
    omega
  rw [inReadBytes, hmute, if_neg Bool.false_ne_true, hread, sizeMul, sizeMod]
  rw [intMax] at hwide
  rcases hsize with hsize | hsize <;> rw [hsize] <;> omega

end Zeros

/-! ### Calls that fit -/

section Fits
variable {inp inp' : GenericStreamIn} {c : ReadCall}

theorem FillReady.wellFormed (h : FillReady inp) (hcap : 0 < inp.buffer.frameCount) :
    inp.buffer.WellFormed ∧ inp.buffer.frameSize = 4 := by
  rcases h.usable with hwf | ⟨hnone, -, -⟩
  · exact hwf
  · omega

/-- Everything that is copied to the conversion buffer or taken from it lies in the frames asked for. -/
theorem conversion_inside (h : FillReady inp) (hmono : Converts inp) {bytes : Nat} {readMute : Bool}
    (hfits : ReadFits inp bytes readMute) (memory : Nat → UInt8) :
    ∀ e ∈ conversionAccesses inp bytes memory, e.1 + e.2 ≤ sizeMul bytes 2 := by
  obtain ⟨hwf, hfour⟩ := h.wellFormed hfits.capacity
  have hshort := hfits.conversion hmono
  have hsize := frameSize_mono hmono
  have hsegments := hfits.segments
  have hwhole : sizeMul bytes 2 = bytes * 2 := sizeMul_of_lt (by omega)
  intro e he
  rw [hwhole]
  unfold conversionAccesses at he
  rw [hsize] at he hsegments
  rcases List.mem_append.mp he with hcopied | htaken
  · obtain ⟨copied, hmem, rfl⟩ := List.mem_map.mp hcopied
    have hinside := audioVbufferReadCopies_inside hwf memory (by omega) hsegments copied hmem
    rw [hfour] at hinside
    exact Nat.le_trans hinside (by omega)
  · obtain ⟨i, hi, rfl⟩ := List.mem_map.mp htaken
    have hlt := List.mem_range.mp hi
    dsimp only
    omega

/-- What a read puts down ends up at the start of the caller's buffer, before the zeros. -/
theorem readOldest_of_read {memory memory' filled : Nat → UInt8} {count : Nat} (h : FillReady inp)
    (hbytes : c.bytes < 2 ^ 64) (hfits : ReadFits inp c.bytes c.readMute)
    (hread : audioVbufferRead inp.buffer memory (c.bytes / audioStreamInFrameSize inp) =
      some (inp'.buffer, memory', count))
    (hfilled : records filled (audioStreamInFrameSize inp) 0 count =
      (records memory' 4 0 count).map (List.take (audioStreamInFrameSize inp))) :
    ReadOldest inp inp' c.bytes c.readMute (inReadZero c filled (inReadBytes inp c (toInt (count : Nat)))) := by
  have hframes : c.bytes / audioStreamInFrameSize inp < 2 ^ 64 := lt_of_le_of_lt (Nat.div_le_self _ _) hbytes
  obtain ⟨-, -, hcount, hstored⟩ := h.usable.read_spec hframes hread
  have htaken : framesTaken inp c.bytes = count := hcount.symm
  have hlt : count < 2 ^ 32 := by
    have := h.usable.live_lt
    omega
  have hlength : (records memory' 4 0 count).length = count := records_length _ _ _ _
  have hcounted := hfits.count
  rw [htaken] at hcounted
  constructor
  · rw [htaken, hstored, List.drop_left' hlength]
  · intro hmute
    rw [htaken, records_inReadZero hlt h.frameSize hmute, hfilled, hstored, List.take_left' hlength]
  · intro a ha hbehind
    rw [htaken] at hbehind
    cases hmute : c.readMute with
    | true =>
        rw [inReadBytes, if_pos hmute]
        exact inReadZero_all ha
    | false =>
        rw [hmute] at hcounted hbehind
        have hend := hbehind.resolve_left Bool.false_ne_true
        have hint : count ≤ intMax := by
          rcases hcounted.resolve_left Bool.false_ne_true with hint | hwhole
          · exact hint
          · omega
        rw [inReadBytes_exact h.frameSize hmute hint, inReadZero, if_pos ⟨hend, ha⟩]
  · exact fun hmono => conversion_inside h hmono hfits

/-- Nothing is taken by a call for less than a frame. -/
theorem readOldest_of_nothing (hfew : c.bytes / audioStreamInFrameSize inp = 0) (hring : inp'.buffer = inp.buffer)
    {filled : Nat → UInt8} (hzero : ∀ a < c.bytes, filled a = 0) : ReadOldest inp inp' c.bytes c.readMute filled := by
  have hnone : framesTaken inp c.bytes = 0 := by rw [framesTaken, hfew, Nat.zero_min]
  constructor
  · rw [hnone, hring, List.drop_zero]
  · intro _
    rw [hnone, List.take_zero]
    rfl
  · exact fun a ha _ => hzero a ha
  · intro _ memory e he
    unfold conversionAccesses at he
    rw [hfew] at he
    dsimp only at he
    rw [audioVbufferReadCopies_zero] at he
    cases he

theorem exists_oldest (h : FillReady inp) (hbytes : c.bytes < 2 ^ 64) (htone : c.isToneGenerator = false)
    (tone : Nat → Int16) {realloc : Nat → Option (Nat → UInt8)} (hcalm : ¬ ReadDisturbed inp c.bytes realloc)
    (hfits : FillFits inp c.bytes c.readMute) :
    ∃ inp' buffer readFrames, inReadFill inp c tone realloc = some (inp', buffer, readFrames) ∧
      ReadOldest inp inp' c.bytes c.readMute (inReadZero c buffer (inReadBytes inp c readFrames)) := by
  have hstandby : inp.standby = false := by
    rw [← Bool.not_eq_true]
    exact fun hstandby => hcalm (Or.inl hstandby)
  have hpos : 0 < audioStreamInFrameSize inp := by
    rcases h.frameSize with hsize | hsize <;> rw [hsize] <;> decide
  by_cases hfew : c.bytes / audioStreamInFrameSize inp = 0
  · obtain ⟨inp', hfill, hring⟩ := inReadFill_nothing tone realloc h htone hstandby hfew hcalm
    refine ⟨inp', c.buffer, 0, hfill, readOldest_of_nothing hfew hring fun a ha => ?_⟩
    rw [inReadBytes_zero]
    exact inReadZero_all ha
  have hreads : ReadFits inp c.bytes c.readMute := by
    rcases hfits with hrests | hshort | hreads
    · rw [hstandby] at hrests
      cases hrests
    · exact absurd (Nat.div_eq_of_lt hshort) hfew
    · exact hreads
  obtain ⟨hwf, -⟩ := h.wellFormed hreads.capacity
  have hframes : c.bytes / audioStreamInFrameSize inp < 2 ^ 64 := lt_of_le_of_lt (Nat.div_le_self _ _) hbytes
  have hdefined (memory : Nat → UInt8) : ∃ r, audioVbufferRead inp.buffer memory (c.bytes / audioStreamInFrameSize inp) = some r :=
    Option.isSome_iff_exists.mp ((audioVbufferRead_isSome_iff hwf memory hframes).mpr hreads.segments)
  by_cases hmono : Converts inp
  · have hsize := frameSize_mono hmono
    have hless : inp.stereoToMonoBufSize < sizeMul c.bytes 2 := by
      have hshort := hreads.conversion hmono
      rw [h.unsized, sizeMul_of_lt (by omega)]
      rw [hsize] at hfew
      omega
    cases halloc : realloc (sizeMul c.bytes 2) with
    | none => exact absurd (Or.inr ⟨hmono, hless, halloc⟩) hcalm
    | some memory =>
        obtain ⟨inp', hfill⟩ := inReadFill_mono tone realloc htone hstandby hmono hless halloc
        obtain ⟨⟨b, memory', count⟩, hread⟩ := hdefined memory
        have hcount := (h.usable.read_spec hframes hread).2.2.1
        rw [hread, Option.map_some] at hfill
        refine ⟨_, _, _, hfill, readOldest_of_read h hbytes hreads hread ?_⟩
        dsimp only
        rw [hsize] at hcount ⊢
        exact records_stereoToMono memory' c.buffer (by omega)
  · obtain ⟨inp', hfill⟩ := inReadFill_stereo tone realloc htone hstandby hmono
    obtain ⟨⟨b, memory', count⟩, hread⟩ := hdefined c.buffer
    rw [hread, Option.map_some] at hfill
    refine ⟨_, _, _, hfill, readOldest_of_read h hbytes hreads hread ?_⟩
    dsimp only
    rw [h.frameSize_stereo hmono, records_map_take memory' 0 count le_rfl]
    rfl

theorem fillsExactly_of_fits {bytes : Nat} {readMute : Bool} (h : FillReady inp) (hbytes : bytes < 2 ^ 64)
    (hfits : FillFits inp bytes readMute) : FillsExactly inp bytes readMute := by
  intro buffer tone realloc
  by_cases hdisturbed : ReadDisturbed inp bytes realloc
  · obtain ⟨inp', hfill, hring⟩ := @inReadFill_disturbed inp ⟨buffer, bytes, readMute, false⟩ tone realloc rfl hdisturbed
    refine ⟨inp', _, _, fillSection_of_fill hfill, fun _ => ⟨fun a ha => ?_, hring⟩, fun hcalm => absurd hdisturbed hcalm⟩
    rw [inReadBytes_zero]
    exact inReadZero_all ha
  · obtain ⟨inp', filled, readFrames, hfill, holdest⟩ :=
      exists_oldest (c := ⟨buffer, bytes, readMute, false⟩) h hbytes rfl tone hdisturbed hfits
    exact ⟨inp', _, _, fillSection_of_fill hfill, fun hyes => absurd hyes hdisturbed, fun _ => holdest⟩

end Fits

/-! ### Calls that do not fit -/

section Exact
variable {inp : GenericStreamIn}

/-- A read of a frame or more without capacity divides by it. -/
theorem audioVbufferRead_without_capacity {b : AudioVbuffer} (hcap : b.frameCount = 0) (hlive : b.live = 0)
    (memory : Nat → UInt8) {frameCount : Nat} (hpos : frameCount ≠ 0) : audioVbufferRead b memory frameCount = none := by
  obtain ⟨frames, hframes⟩ : ∃ frames, ReadLoop.frames ⟨b, memory, 0, frameCount⟩ = some frames :=
    ⟨_, if_pos (Or.inl (hlive.trans hcap.symm))⟩
  have hnone : ReadLoop.advance ⟨b, memory, 0, frameCount⟩ frames = none := by
    rw [ReadLoop.advance, if_neg fun hdefined => hdefined.2 hcap]
  rw [audioVbufferRead, readLoop_step _ hpos hframes, hnone]
  rfl

/-- The samples of the last frame do not fit a conversion buffer whose size has wrapped. -/
theorem conversion_short {bytes : Nat} (hmono : Converts inp) (hbytes : bytes < 2 ^ 64) (hpos : 2 ≤ bytes)
    (hinside : ∀ memory, ∀ e ∈ conversionAccesses inp bytes memory, e.1 + e.2 ≤ sizeMul bytes 2) : bytes < 2 ^ 63 := by
  have hlast : (4 * (bytes / 2 - 1), 2) ∈ conversionAccesses inp bytes fun _ => 0 := by
    refine List.mem_append_right _ (List.mem_map.mpr ⟨bytes / 2 - 1, List.mem_range.mpr ?_, rfl⟩)
    rw [frameSize_mono hmono]
    omega
  have hle := hinside _ _ hlast
  rw [sizeMul, sizeMod] at hle
  omega

/-- A read of a frame or more that returns has capacity and segments that fit, and leaves alone what is behind the
frames that it takes. -/
theorem FillReady.read_returns (h : FillReady inp) {bytes : Nat} (hbytes : bytes < 2 ^ 64)
    (hsome : bytes / audioStreamInFrameSize inp ≠ 0) {memory memory' : Nat → UInt8} {b : AudioVbuffer} {count : Nat}
    (hread : audioVbufferRead inp.buffer memory (bytes / audioStreamInFrameSize inp) = some (b, memory', count)) :
    inp.buffer.WellFormed ∧ inp.buffer.SegmentsFit (bytes / audioStreamInFrameSize inp) ∧
      framesTaken inp bytes = count ∧ memory' (4 * count) = memory (4 * count) := by
  have hlt : bytes / audioStreamInFrameSize inp < 2 ^ 64 := lt_of_le_of_lt (Nat.div_le_self _ _) hbytes
  rcases h.usable with ⟨hwf, hfour⟩ | ⟨hcap, hlive, -⟩
  · have hreturns : (audioVbufferRead inp.buffer memory (bytes / audioStreamInFrameSize inp)).isSome := by
      rw [hread]
      rfl
    obtain ⟨-, hfilled, hcount⟩ := audioVbufferRead_spec hwf hlt hread
    refine ⟨hwf, (audioVbufferRead_isSome_iff hwf memory hlt).mp hreturns, hcount.symm, hfilled.outside _ (Or.inr ?_)⟩
    rw [List.length_take, AudioVbuffer.stored_length, ← hcount, hfour]
    omega
  · rw [audioVbufferRead_without_capacity hcap hlive memory hsome] at hread
    cases hread

/-- The calls whose buffers hold ones tell whether zeros follow what is read. -/
structure FilledOnes (inp : GenericStreamIn) (c : ReadCall) (buffer : Nat → UInt8) (readFrames : Int) : Prop where
  wellFormed : inp.buffer.WellFormed
  segments : inp.buffer.SegmentsFit (c.bytes / audioStreamInFrameSize inp)
  readFrames : readFrames = toInt (framesTaken inp c.bytes : Nat)
  behind : buffer (framesTaken inp c.bytes * audioStreamInFrameSize inp) = 1

theorem inReadFill_ones (h : FillReady inp) {c : ReadCall} {tone : Nat → Int16} (htone : c.isToneGenerator = false)
    (hstandby : inp.standby = false) (hbytes : c.bytes < 2 ^ 64) (hframe : audioStreamInFrameSize inp ≤ c.bytes)
    (hshort : Converts inp → c.bytes < 2 ^ 63) (hbuffer : c.buffer = fun _ => 1) {inp' : GenericStreamIn}
    {buffer : Nat → UInt8} {readFrames : Int}
    (hfill : inReadFill inp c tone (fun _ => some fun _ => 1) = some (inp', buffer, readFrames)) :
    FilledOnes inp c buffer readFrames := by
  have hsome : c.bytes / audioStreamInFrameSize inp ≠ 0 := by
    have hpos := h.frameSize
    exact Nat.ne_of_gt (Nat.div_pos hframe (by omega))
  by_cases hmono : Converts inp
  · have hsize := frameSize_mono hmono
    have hless : inp.stereoToMonoBufSize < sizeMul c.bytes 2 := by
      have := hshort hmono
      rw [h.unsized, sizeMul_of_lt (by omega)]
      omega
    obtain ⟨inp'', heq⟩ := inReadFill_mono tone (fun _ => some fun _ => 1) htone hstandby hmono hless rfl
    rw [heq] at hfill
    obtain ⟨⟨b, memory', count⟩, hread, hpair⟩ := Option.map_eq_some_iff.mp hfill
    obtain ⟨hwf, hfits, htaken, houtside⟩ := h.read_returns hbytes hsome hread
    cases hpair
    refine ⟨hwf, hfits, by rw [htaken], ?_⟩
    rw [htaken, hsize, stereoToMono]
    split
    · have hleft := bytesOf_leftSamples memory' count (show 0 < 2 by decide)
      rw [Nat.add_zero, Nat.mul_comm 2 count, Nat.add_zero] at hleft
      rw [hleft, houtside]
    · rw [hbuffer]
  · have hsize := h.frameSize_stereo hmono
    obtain ⟨inp'', heq⟩ := inReadFill_stereo tone (fun _ => some fun _ => 1) htone hstandby hmono
    rw [heq] at hfill
    obtain ⟨⟨b, memory', count⟩, hread, hpair⟩ := Option.map_eq_some_iff.mp hfill
    obtain ⟨hwf, hfits, htaken, houtside⟩ := h.read_returns hbytes hsome hread
    cases hpair
    refine ⟨hwf, hfits, by rw [htaken], ?_⟩
    dsimp only
    rw [htaken, hsize, Nat.mul_comm, houtside, hbuffer]

/-- A call that returns as it should fits: with ones in both buffers, what is not overwritten shows. -/
theorem fits_of_fillsExactly {bytes : Nat} {readMute : Bool} (h : FillReady inp) (hbytes : bytes < 2 ^ 64)
    (hfills : FillsExactly inp bytes readMute) : FillFits inp bytes readMute := by
  by_cases hstandby : inp.standby = true
  · exact Or.inl hstandby
  by_cases hshort : bytes < audioStreamInFrameSize inp
  · exact Or.inr (Or.inl hshort)
  refine Or.inr (Or.inr ?_)
  -- the caller's buffer and the conversion buffer hold ones
  let c : ReadCall := ⟨fun _ => 1, bytes, readMute, false⟩
  obtain ⟨inp', filled, frames, hsection, -, holdest⟩ := hfills c.buffer (fun _ => 0) fun _ => some fun _ => 1
  have hcalm : ¬ ReadDisturbed inp bytes fun _ => some fun _ => 1 := by
    rintro (hrests | ⟨-, -, hfailed⟩)
    · exact hstandby hrests
    · cases hfailed
  obtain ⟨-, -, hrest, hconversion⟩ := holdest hcalm
  have hpos := h.frameSize
  have hwhole : Converts inp → bytes < 2 ^ 63 := fun hmono =>
    conversion_short hmono hbytes (by omega) (hconversion hmono)
  rw [fillSection, Option.map_eq_some_iff] at hsection
  obtain ⟨⟨next, buffer, readFrames⟩, hfill, hpair⟩ := hsection
  have hfilled : inReadZero c buffer (inReadBytes inp c readFrames) = filled := by
    simp only [InputSection.mk.injEq, List.cons.injEq, InputEvent.returned.injEq] at hpair
    exact hpair.2.2.2.1.2.1
  obtain ⟨hwf, hsegments, hread, hone⟩ := inReadFill_ones (c := c) h rfl (Bool.not_eq_true _ ▸ hstandby) hbytes
    (Nat.not_lt.mp hshort) hwhole rfl hfill
  refine ⟨hwf.capacity_pos, hsegments, ?_, hwhole⟩
  by_contra hcount
  obtain ⟨hmute, hcount⟩ := not_or.mp hcount
  obtain ⟨hwide, hpart⟩ := not_or.mp hcount
  have htaken : framesTaken inp bytes * audioStreamInFrameSize inp ≤ bytes :=
    Nat.le_trans (Nat.mul_le_mul_right _ (Nat.min_le_left _ _)) (Nat.div_mul_le_self _ _)
  have hlt : framesTaken inp bytes < 2 ^ 32 := lt_of_le_of_lt (Nat.min_le_right _ _) h.usable.live_lt
  have hzero := hrest (framesTaken inp bytes * audioStreamInFrameSize inp) (by omega) (Or.inr (le_refl _))
  have hbefore := @inReadBytes_wrapped inp c h.frameSize (Bool.not_eq_true _ ▸ hmute) _
    (Nat.not_le.mp hwide) hlt
  rw [hread] at hfilled
  rw [← hfilled, inReadZero, if_neg (fun hinside => absurd hbefore (Nat.not_lt.mpr hinside.1)), hone] at hzero
  cases hzero

end Exact

/-- After its sleep a call does what it should exactly when it fits. -/
theorem fillsExactly_iff {inp : GenericStreamIn} {bytes : Nat} {readMute : Bool} (h : FillReady inp)
    (hbytes : bytes < 2 ^ 64) : FillsExactly inp bytes readMute ↔ FillFits inp bytes readMute :=
  ⟨fits_of_fillsExactly h hbytes, fillsExactly_of_fits h hbytes⟩

/-! ### Before the sleep -/

/-- The call comes to its sleep, with the ring buffer left alone; it is muted on a microphone only. -/
def EntersRead (inp : GenericStreamIn) (buffer : Nat → UInt8) (bytes now : Nat) (micMute : Bool) : Prop :=
  ∃ inp', readSection inp buffer bytes now micMute =
      some ⟨inp', .readSleeping ⟨buffer, bytes, micMute && isMicrophoneDevice inp, false⟩, true, []⟩ ∧
    inp'.buffer = inp.buffer

/-- The frames counted since standby have been captured. -/
def ReadsCaptured (inp : GenericStreamIn) (now : Nat) : Prop :=
  inp.standby = true ∨ inp.standbyFramesRead ≤ (capturedMillionths inp now / 1000000 : Nat)

theorem entersRead_iff {inp : GenericStreamIn} (htone : isToneGeneratorDevice inp = some false) (buffer : Nat → UInt8)
    (bytes now : Nat) (micMute : Bool) : EntersRead inp buffer bytes now micMute ↔ ReadsCaptured inp now := by
  have havailable : 0 ≤ (inReadEnter inp now).2 ↔ ReadsCaptured inp now := by
    rw [inReadEnter_available, ReadsCaptured]
    by_cases hstandby : inp.standby = true
    · rw [if_pos hstandby]
      exact iff_of_true (le_refl _) (Or.inl hstandby)
    · rw [if_neg hstandby, Int.sub_nonneg]
      exact ⟨Or.inr, fun h => h.resolve_left hstandby⟩
  rw [← havailable, EntersRead, readSection, htone]
  dsimp only
  constructor
  · rintro ⟨inp', hentered, -⟩
    by_contra hfails
    rw [if_neg hfails] at hentered
    cases hentered
  · intro hholds
    rw [if_pos hholds]
    exact ⟨_, rfl, (inReadEnter_same inp now).2⟩

/-! ### Reachable states -/

variable {n : Nat}

/-- The PCM that the worker holds. -/
def CapturePc.pcm? : CapturePc → Option CapturePcm
  | .top pcm _ => pcm
  | .standbyWait pcm _ _ => pcm
  | .reading pcm _ => some pcm
  | .storing pcm _ => some pcm
  | .terminated => none

/-- A period of the worker is an `unsigned int`. -/
def CapturePc.Bounded (pc : CapturePc) : Prop := ∀ q, pc.pcm? = some q → q.bufferFrames < 2 ^ 32

/-- What holds of every state of a stream that generates no tone. -/
structure Filling (req : AudioConfig) (pcm : PcmConfig) (s : InputSystem n) : Prop where
  usable : s.inp.buffer.Usable
  reqConfig : s.inp.reqConfig = req
  pcmConfig : s.inp.pcmConfig = pcm
  toneless : isToneGeneratorDevice s.inp = some false
  unsized : s.inp.stereoToMonoBufSize = 0
  calls : ∀ i c, s.readers i = .readSleeping c → c.Toneless
  worker : s.worker.Bounded

theorem inReadFill_unsized {inp : GenericStreamIn} {c : ReadCall} {tone : Nat → Int16}
    {realloc : Nat → Option (Nat → UInt8)} {r : GenericStreamIn × (Nat → UInt8) × Int}
    (h : inReadFill inp c tone realloc = some r) : r.1.stereoToMonoBufSize = inp.stereoToMonoBufSize := by
  unfold inReadFill at h
  dsimp only at h
  split at h
  · cases h
    rfl
  split at h
  · cases h
    rfl
  split at h
  · split at h
    · split at h
      · cases h
        split <;> rfl
      · cases h
    · obtain ⟨read, -, hpair⟩ := Option.map_eq_some_iff.mp h
      cases hpair
      dsimp only
      split <;> rfl
  · obtain ⟨read, -, hpair⟩ := Option.map_eq_some_iff.mp h
    cases hpair
    rfl

/-- The size of the conversion buffer is never updated. -/
theorem readerSection_unsized {inp : GenericStreamIn} {pc : ReaderPc} {l : ReaderLabel} {r : InputSection ReaderPc}
    (h : readerSection inp pc l = some r) : r.inp.stereoToMonoBufSize = inp.stereoToMonoBufSize := by
  have hrests (now : Nat) : (doInStandby inp now).stereoToMonoBufSize = inp.stereoToMonoBufSize := by
    rw [doInStandby]
    split <;> rfl
  unfold readerSection at h
  split at h
  · rw [readSection] at h
    split at h
    · cases h
    · dsimp only at h
      split at h
      · cases h
        unfold inReadEnter
        dsimp only
        split <;> rfl
      · cases h
  · obtain ⟨filled, hfill, hpair⟩ := Option.map_eq_some_iff.mp h
    cases hpair
    exact inReadFill_unsized hfill
  · cases h
    exact hrests _
  · cases h
    exact hrests _
  · cases h
    rfl
  · cases h

theorem CapturePc.Bounded.signal {pc : CapturePc} (h : pc.Bounded) : pc.signal.Bounded := by
  cases pc <;> exact h

theorem captureCheck_bounded {inp : GenericStreamIn} {opened : Option CapturePcm} {restart : Bool} {env : CaptureEnv}
    (h : ∀ q, opened = some q → q.bufferFrames < 2 ^ 32) :
    (captureCheck inp opened restart env).inp = inp ∧ (captureCheck inp opened restart env).pc.Bounded := by
  have hnone : ∀ pc : CapturePc, pc.pcm? = none → pc.Bounded := by
    intro pc hpc q hq
    rw [hpc] at hq
    cases hq
  rw [captureCheck]
  split
  · split
    · exact ⟨rfl, hnone _ rfl⟩
    · exact ⟨rfl, hnone _ rfl⟩
  split
  · exact ⟨rfl, hnone _ rfl⟩
  split
  · exact ⟨rfl, hnone _ rfl⟩
  · rename_i q hopen
    refine ⟨rfl, fun q' hq' => ?_⟩
    cases hq'
    unfold openCapture at hopen
    split at hopen
    · exact h q hopen
    · split at hopen
      · obtain ⟨memory, -, rfl⟩ := Option.map_eq_some_iff.mp hopen
        exact inp.pcmConfig.periodSize.toNat_lt
      · cases hopen

section Steps
variable {req : AudioConfig} {pcm : PcmConfig} {s t : InputSystem n} {es : List InputEvent}

/-- A step of the worker that leaves the stream alone. -/
theorem Filling.moves (h : Filling req pcm s) {pc : CapturePc} {freed : Bool} (hpc : pc.Bounded) :
    Filling req pcm { s with worker := pc, freed := freed } :=
  ⟨h.usable, h.reqConfig, h.pcmConfig, h.toneless, h.unsized, h.calls, hpc⟩

theorem filling_reader (h : Filling req pcm s) (hchannels : popcount req.channelMask = 1 ∨ popcount req.channelMask = 2)
    (hstereo : pcm.channels = 2) {i : Fin n} {l : ReaderLabel} (hstep : readerStep s i l = some (t, es)) :
    Filling req pcm t := by
  obtain ⟨r, hsection, hpair⟩ := Option.map_eq_some_iff.mp hstep
  cases hpair
  have htoneless : isToneGeneratorDevice s.inp ≠ some true := by
    rw [h.toneless]
    exact fun h => by cases h
  obtain ⟨removed, outcome⟩ := readerSection_outcome h.usable (h.reqConfig ▸ hchannels) (h.pcmConfig ▸ hstereo)
    htoneless (h.calls i) hsection
  refine ⟨outcome.usable, outcome.same.reqConfig.trans h.reqConfig, outcome.same.pcmConfig.trans h.pcmConfig,
    outcome.same.isToneGeneratorDevice.trans h.toneless, (readerSection_unsized hsection).trans h.unsized, ?_, ?_⟩
  · intro j c hpc
    by_cases hj : j = i
    · rw [hj] at hpc
      simp only [Function.update_self] at hpc
      exact outcome.calls c hpc
    · simp only [Function.update_of_ne hj] at hpc
      exact h.calls j c hpc
  · dsimp only
    split
    · exact h.worker.signal
    · exact h.worker

theorem captureSection_bounded {inp : GenericStreamIn} {pc : CapturePc} {env : CaptureEnv} {r : InputSection CapturePc}
    (hworker : pc.Bounded) (hsection : captureSection inp env pc = some r) : r.inp = inp ∧ r.pc.Bounded := by
  unfold captureSection at hsection
  split at hsection
  · cases hsection
    exact captureCheck_bounded hworker
  · cases hsection
    exact captureCheck_bounded hworker
  · cases hsection

theorem filling_capture (h : Filling req pcm s) {env : CaptureEnv} {r : InputSection CapturePc}
    (hsection : captureSection s.inp env s.worker = some r) :
    Filling req pcm { s with inp := r.inp, worker := r.pc } := by
  obtain ⟨hinp, hbounded⟩ := captureSection_bounded h.worker hsection
  rw [hinp]
  exact h.moves hbounded

theorem filling_pcmRead (h : Filling req pcm s) {ret : Int32} {data : Nat → UInt8} {r : InputSection CapturePc}
    (hsection : pcmReadSection s.inp ret data s.worker = some r) :
    Filling req pcm { s with inp := r.inp, worker := r.pc } := by
  have hworker := h.worker
  unfold pcmReadSection at hsection
  split at hsection
  · rename_i q restart hpc
    rw [hpc] at hworker
    cases hsection
    refine h.moves fun q' hq' => ?_
    cases hq'
    exact hworker q rfl
  · cases hsection

/-- The worker stores what it has read, in a ring buffer that stays usable. -/
theorem filling_store (h : Filling req pcm s) {r : InputSection CapturePc}
    (hsection : storeSectionIn s.inp s.worker = some r) : Filling req pcm { s with inp := r.inp, worker := r.pc } := by
  have hworker := h.worker
  unfold storeSectionIn at hsection
  split at hsection
  · rename_i q restart hpc
    rw [hpc] at hworker
    have hshort := hworker q rfl
    obtain ⟨⟨b, written⟩, hwrite, hpair⟩ := Option.map_eq_some_iff.mp hsection
    obtain ⟨husable, -⟩ := h.usable.write_spec (by omega) hwrite
    cases hpair
    exact ⟨husable, h.reqConfig, h.pcmConfig, h.toneless, h.unsized, h.calls, hworker⟩
  · cases hsection

theorem filling_step (hchannels : popcount req.channelMask = 1 ∨ popcount req.channelMask = 2)
    (hstereo : pcm.channels = 2) {l : InputLabel n} (h : Filling req pcm s) (hstep : inputStep s l = some (t, es)) :
    Filling req pcm t := by
  unfold inputStep at hstep
  split at hstep
  · cases hstep
  cases l with
  | reader i l => exact filling_reader h hchannels hstereo hstep
  | join i =>
      dsimp only at hstep
      split at hstep
      · cases hstep
        exact h.moves h.worker
      · cases hstep
  | capture env =>
      obtain ⟨r, hsection, hpair⟩ := Option.map_eq_some_iff.mp hstep
      cases hpair
      exact filling_capture h hsection
  | pcmRead ret data =>
      obtain ⟨r, hsection, hpair⟩ := Option.map_eq_some_iff.mp hstep
      cases hpair
      exact filling_pcmRead h hsection
  | store =>
      obtain ⟨r, hsection, hpair⟩ := Option.map_eq_some_iff.mp hstep
      cases hpair
      exact filling_store h hsection
  | captureSpurious =>
      have hworker := h.worker
      dsimp only at hstep
      split at hstep
      · rename_i opened restart hpc
        rw [hpc] at hworker
        cases hstep
        exact h.moves hworker
      · cases hstep

end Steps

theorem openInput_unsized {allocated : Bool} {calloc : Nat → Bool} {p : PeriodProperties} {device : AudioDevice}
    {address : Option String} {config : AudioConfig} {inp : GenericStreamIn}
    (h : adevOpenInputStream allocated calloc p device address config = .ok inp) : inp.stereoToMonoBufSize = 0 := by
  rw [adevOpenInputStream] at h
  split at h
  · cases h
  split at h
  · cases h
  dsimp only at h
  split at h
  · cases h
  · cases h
    rfl

theorem Filling.init {allocated : Bool} {calloc : Nat → Bool} {p : PeriodProperties} {device : AudioDevice}
    {address : Option String} {config : AudioConfig} {inp : GenericStreamIn}
    (hopen : adevOpenInputStream allocated calloc p device address config = .ok inp)
    (htone : isToneGeneratorDevice inp = some false) :
    Filling config (pcmConfigFor config.sampleRate p) (InputSystem.init n inp) := by
  obtain ⟨husable, -, -, hreq, hpcm, -⟩ := openInput_usable hopen
  refine ⟨husable, hreq, hpcm, htone, openInput_unsized hopen, ?_, ?_⟩
  · intro i c hpc
    cases hpc
  · intro q hq
    cases hq

theorem Filling.ready {req : AudioConfig} {pcm : PcmConfig} {s : InputSystem n} (h : Filling req pcm s)
    (hchannels : popcount req.channelMask = 1 ∨ popcount req.channelMask = 2) (hstereo : pcm.channels = 2) :
    FillReady s.inp :=
  ⟨h.usable, h.reqConfig ▸ hchannels, h.pcmConfig ▸ hstereo, h.unsized⟩

/-- In every reachable state of a stream that generates no tone, a call comes to its sleep exactly when the frames
counted have been captured, and after it does what it should exactly when it fits. -/
theorem in_read_exact {allocated : Bool} {calloc : Nat → Bool} {p : PeriodProperties} {device : AudioDevice}
    {address : Option String} {config : AudioConfig} {inp : GenericStreamIn} {s : InputSystem n}
    (hopen : adevOpenInputStream allocated calloc p device address config = .ok inp)
    (htone : isToneGeneratorDevice inp = some false) (hreach : Reachable inputStep (InputSystem.init n inp) s) :
    (∀ buffer bytes now micMute, EntersRead s.inp buffer bytes now micMute ↔ ReadsCaptured s.inp now) ∧
      ∀ i c, s.readers i = .readSleeping c →
        (FillsExactly s.inp c.bytes c.readMute ↔ FillFits s.inp c.bytes c.readMute) := by
  obtain ⟨-, -, -, -, -, hchannels⟩ := openInput_usable hopen
  have hfilling : Filling config (pcmConfigFor config.sampleRate p) s :=
    hreach.invariant _ (fun _ _ _ _ h hstep => filling_step hchannels rfl h hstep) (Filling.init hopen htone)
  exact ⟨entersRead_iff hfilling.toneless, fun i c hpc =>
    fillsExactly_iff (hfilling.ready hchannels rfl) (hfilling.calls i c hpc).bytes_lt⟩

/-- One frame is asked for. -/
def frameAsked : List (InputLabel 1) := [.reader (Fin.last 0) (.read (fun _ => 0) 4 0 false)]

theorem in_read_exact_frameAsked :
    ∃ s es, exec inputStep (InputSystem.init 1 eightFramesIn) frameAsked = some (s, es) ∧
      EntersRead eightFramesIn (fun _ => 0) 4 0 false ∧ FillsExactly s.inp 4 false := by
  have hrun : exec inputStep (InputSystem.init 1 eightFramesIn) frameAsked = some (_, _) := rfl
  have henters := (in_read_exact (n := 1) open_eightFramesIn (by decide) (Reachable.refl _)).1
  have hfills := (in_read_exact open_eightFramesIn (by decide) ⟨frameAsked, _, hrun⟩).2 (Fin.last 0)
    ⟨fun _ => 0, 4, false, false⟩ rfl
  refine ⟨_, _, hrun, (henters _ 4 0 false).mpr (Or.inl rfl), hfills.mpr (Or.inr (Or.inr ?_))⟩
  exact ⟨by decide, ⟨by decide, by decide⟩, Or.inr (Or.inl (by decide)), fun hmono => absurd hmono (by decide)⟩

/-- A stereo microphone opened with a period of 0 ms. -/
def emptyRingIn : GenericStreamIn :=
  { eightFramesIn with
    pcmConfig := ⟨2, 8000, 0, 1⟩
    buffer := ⟨fun _ => 0, 0, 4, 0, 0, 0, 0⟩ }

/-- The first frame that is asked for makes the read divide by a capacity of zero. -/
theorem in_read_never_returns :
    adevOpenInputStream true (fun _ => true) ⟨0, 1⟩ .builtinMic none ⟨8000, audioFormatPcm16Bit, audioChannelInStereo⟩ =
        .ok emptyRingIn ∧
      ∃ s es, exec inputStep (InputSystem.init 1 emptyRingIn) frameAsked = some (s, es) ∧
        (∀ tone realloc, fillSection s.inp ⟨fun _ => 0, 4, false, false⟩ tone realloc = none) ∧
        ¬ FillsExactly s.inp 4 false := by
  have hnever : ∀ tone realloc, fillSection { emptyRingIn with workerStandby := false, standby := false }
      ⟨fun _ => 0, 4, false, false⟩ tone realloc = none := fun _ _ => rfl
  refine ⟨rfl, _, _, rfl, hnever, fun hfills => ?_⟩
  obtain ⟨inp', filled, frames, hsection, -⟩ := hfills (fun _ => 0) (fun _ => 0) fun _ => none
  cases (hnever _ _).symm.trans hsection

end Trout.Audio

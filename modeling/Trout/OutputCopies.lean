import Trout.OutputSections

/-! The copies of `out_write` from the caller's buffer. The client counts in frames of its own
configuration, the ring buffer copies frames of four bytes. The copies of every run stay inside the
caller's buffer exactly when both sizes agree, or when the ring buffer has no room for a frame at all. -/

namespace Trout.Audio
open CInt RingWindow Runs

/-- A copy covers only offsets below `bytes`. -/
def Memcpy.Inside (m : Memcpy) (bytes : Nat) : Prop := ∀ o, m.src ≤ o → o < m.src + m.len → o < bytes

variable {n : Nat}

/-- The copies of the next section stay inside the buffer its caller gave. -/
def CopiesInside (s : OutputSystem n) (l : OutputLabel n) : Prop :=
  ∀ i cl entered c, l = .client i cl → storeCall s.out (s.clients i) cl = some (entered, c) →
    ∀ m ∈ c.copies entered, m.Inside c.bytes

theorem Memcpy.inside_of_le {m : Memcpy} {bytes : Nat} (h : m.src + m.len ≤ bytes) : m.Inside bytes :=
  fun _ _ hlt => lt_of_lt_of_le hlt h

theorem Memcpy.inside_of_empty {m : Memcpy} {bytes : Nat} (h : m.len = 0) : m.Inside bytes := by
  intro o hge hlt
  omega

/-- With frames of four bytes on both sides a store stays inside the frames of its call. -/
theorem copies_stereo {c : WriteCall} {out : GenericStreamOut} (hwf : out.buffer.WellFormed)
    (hsize : out.buffer.frameSize = 4) (hclient : audioStreamOutFrameSize out = 4) (hc : c.Sound 4) :
    ∀ m ∈ c.copies out, m.Inside c.bytes := by
  have hle := hc.written_le
  have hframes := hc.frames_eq
  have hshort := hc.short
  have hlt := hc.frames_lt
  have hbytes : c.frames * 4 ≤ c.bytes := by
    rw [hframes]
    exact Nat.div_mul_le_self c.bytes 4
  have hoffset : sizeMul c.framesWritten 4 = c.framesWritten * 4 := sizeMul_of_lt (by omega)
  have hrest : sizeSub c.frames c.framesWritten = c.frames - c.framesWritten := sizeSub_of_le hle (by omega)
  intro m hm
  rw [WriteCall.copies, hclient] at hm
  obtain ⟨m', hm', rfl⟩ := List.mem_map.mp hm
  rw [audioVbufferWriteCopies, hrest] at hm'
  have hsmall : c.frames - c.framesWritten ≤ intMax := by
    simp only [intMax] at hshort ⊢
    omega
  have hloop : m'.src + m'.len ≤ (0 + (c.frames - c.framesWritten)) * out.buffer.frameSize :=
    writeLoop_copies (w := ⟨out.buffer, 0, c.frames - c.framesWritten⟩) hwf (Nat.zero_le _) hsmall m' hm'
  apply Memcpy.inside_of_le
  change sizeMul c.framesWritten 4 + m'.src + m'.len ≤ c.bytes
  rw [hsize] at hloop
  rw [hoffset]
  omega

/-- Without capacity every copy is empty. -/
theorem copies_no_capacity {c : WriteCall} {out : GenericStreamOut} (hcap : out.buffer.frameCount = 0)
    (hlive : out.buffer.live = 0) (hhead : out.buffer.head = 0) : ∀ m ∈ c.copies out, m.Inside c.bytes := by
  intro m hm
  obtain ⟨m', hm', rfl⟩ := List.mem_map.mp hm
  apply Memcpy.inside_of_empty
  change m'.len = 0
  generalize sizeSub c.frames c.framesWritten = count at hm'
  rw [audioVbufferWriteCopies] at hm'
  by_cases hzero : count = 0
  · rw [writeLoop_copies_stop _ _ (Or.inl hzero)] at hm'
    exact absurd hm' List.not_mem_nil
  have hframes : WriteLoop.frames ⟨out.buffer, 0, count⟩ = some 0 := by
    have hnone : toInt ((min count (sizeSub out.buffer.frameCount out.buffer.head) : Nat) : Int) = 0 := by
      rw [hcap, hhead, show sizeSub 0 0 = 0 from rfl, Nat.min_zero]
      rfl
    unfold WriteLoop.frames
    rw [if_pos (Or.inl hlive)]
    exact congrArg some hnone
  rw [writeLoop_copies_step _ _ hzero hframes] at hm'
  have hadvance : ∀ buffer, WriteLoop.advance buffer ⟨out.buffer, 0, count⟩ 0 = none := by
    intro buffer
    rw [WriteLoop.advance, if_neg fun hdefined => hdefined.2 hcap]
  rw [hadvance] at hm'
  rw [List.mem_singleton.mp hm']
  simp only [WriteLoop.memcpy]
  rw [show toSize 0 = 0 from rfl, sizeMul, Nat.zero_mul, Nat.zero_mod]

/-- An unmuted write of two bytes, one frame of a single channel, at time 0. -/
def writeOneSample : OutputLabel 1 :=
  .client (Fin.last 0) (.write (fun _ => 0) 2 0 ⟨false, fun _ x => x⟩)

/-- A write of one frame does not sleep on a ring buffer with room. -/
theorem outWriteEnter_awake {out : GenericStreamOut} (now : Nat) (hpos : 0 < out.buffer.frameCount)
    (hlt : out.buffer.frameCount < 2 ^ 32) (hlive : out.buffer.live = 0) : (outWriteEnter out now 1).2 = 0 := by
  obtain ⟨view, -⟩ := outWriteEnter_view out now 1
  have hdead : audioVbufferDead out.buffer = toInt (out.buffer.frameCount : Nat) := by
    rw [audioVbufferDead, hlive, sizeSub_of_le (Nat.zero_le _) (by omega), Nat.sub_zero]
  have hnone : outWriteFramesSleep (outWriteEnter out now 1).1 1 = 0 := by
    rw [outWriteFramesSleep, view.buffer, hdead]
    rcases Nat.lt_or_ge intMax out.buffer.frameCount with hwide | hint
    · rw [toInt_of_gt hwide hlt]
      apply if_pos
      simp only [toSize, sizeMod, intMax] at *
      omega
    · rw [toInt_of_le hint, toSize_natCast (by omega)]
      by_cases hmore : out.buffer.frameCount > 1
      · exact if_pos hmore
      · rw [show out.buffer.frameCount = 1 by omega]
        rfl
  rw [outWriteEnter_sleep, hnone, sleepTimeUs, Int.zero_mul, Int.zero_tdiv]
  rfl

/-- Every stream with one channel and room for a frame reads past a client's single frame. -/
theorem copies_mono {allocated : Bool} {calloc : Nat → Bool} {p : PeriodProperties} {config : AudioConfig}
    {out : GenericStreamOut} (hopen : adevOpenOutputStream allocated calloc p config = .ok out)
    (hmono : popcount config.channelMask = 1) (hcap : (pcmConfigFor config.sampleRate p).capacity ≠ 0) :
    ¬ CopiesInside (OutputSystem.init 1 out) writeOneSample := by
  obtain ⟨husable, hcount, hlive, -, hreq, hpcm, -⟩ := open_usable hopen
  have hcount : out.buffer.frameCount ≠ 0 := by rwa [hcount, hpcm]
  obtain ⟨hwf, hsize⟩ := husable.resolve_right fun hempty => hcount hempty.1
  have hclient : audioStreamOutFrameSize out = 2 := by
    rw [audioStreamOutFrameSize, hreq, AudioConfig.frameSize, hmono]
  have hawake := outWriteEnter_awake 0 hwf.capacity_pos hwf.capacity_lt hlive
  obtain ⟨view, -⟩ := outWriteEnter_view out 0 1
  generalize hentered : (outWriteEnter out 0 1).1 = entered at view
  have hcall : ∃ adjusted, storeCall out .idle (.write (fun _ => 0) 2 0 ⟨false, fun _ x => x⟩) =
      some (entered, ⟨adjusted, 2, 1, 0⟩) := by
    have hframes : (2 : UInt64).toNat / audioStreamOutFrameSize out = 1 := by rw [hclient]; rfl
    have henteredSize : audioStreamOutFrameSize entered = 2 := by
      rw [audioStreamOutFrameSize, view.reqConfig]
      exact hclient
    obtain ⟨adjusted, hgain⟩ : ∃ adjusted, outApplyGain (fun _ x => x) (fun _ => 0) 2 = some adjusted :=
      ⟨_, if_pos (by decide)⟩
    refine ⟨adjusted, ?_⟩
    simp only [storeCall, hframes, hawake]
    rw [if_neg (Nat.lt_irrefl 0), hentered, startStore, if_neg Bool.false_ne_true]
    rw [show (2 : UInt64).toNat = 2 from rfl, hgain, henteredSize]
    rfl
  obtain ⟨adjusted, hcall⟩ := hcall
  intro hinside
  have hall := hinside 0 _ entered ⟨adjusted, 2, 1, 0⟩ rfl hcall
  have hwf : entered.buffer.WellFormed := view.buffer ▸ hwf
  have hsize : entered.buffer.frameSize = 4 := view.buffer ▸ hsize
  have hlive : entered.buffer.live = 0 := view.buffer ▸ hlive
  -- the only frame of the client is two bytes long, the frame that is copied four
  obtain ⟨m, hmem, hsrc, hlen⟩ := audioVbufferWrite_first_copy hwf
    (WriteCall.rest ⟨adjusted, 2, 1, 0⟩ (audioStreamOutFrameSize entered)) Nat.one_pos (by decide)
    (hlive ▸ hwf.capacity_pos)
  have hone : sizeSub 1 0 = 1 := by decide
  simp only [WriteCall.copies, hone] at hall
  have hthird := hall _ (List.mem_map_of_mem hmem) 3
  have hoffset : sizeMul 0 (audioStreamOutFrameSize entered) = 0 := by rw [sizeMul, Nat.zero_mul, Nat.zero_mod]
  dsimp only at hthird
  rw [hoffset, hsrc] at hthird
  exact absurd (hthird (by decide) (by omega)) (by decide)

/-- The copies of every run stay inside the callers' buffers exactly for the streams with two channels
and for those whose ring buffer has no capacity. -/
theorem copies_inside_iff {allocated : Bool} {calloc : Nat → Bool} {p : PeriodProperties} {config : AudioConfig}
    {out : GenericStreamOut} (hopen : adevOpenOutputStream allocated calloc p config = .ok out) :
    (∀ (n : Nat) (ls : List (OutputLabel n)) s es l,
        exec outputStep (OutputSystem.init n out) ls = some (s, es) → CopiesInside s l) ↔
      popcount config.channelMask = 2 ∨ (pcmConfigFor config.sampleRate p).capacity = 0 := by
  obtain ⟨-, -, -, -, hreq, hpcm, hchannels⟩ := open_usable hopen
  constructor
  · intro hall
    by_contra hnot
    obtain ⟨hmono, hcap⟩ := not_or.mp hnot
    exact copies_mono hopen (hchannels.resolve_right hmono) hcap (hall 1 [] _ [] _ rfl)
  · intro hgood n ls s es l hrun i cl entered c hl hcall
    have hconsistent : Consistent out.reqConfig out.pcmConfig s :=
      exec_invariant _ (fun s l t es h _ => consistent_step s l t es h) (Consistent.init hopen)
        (guarded_true _ _) hrun
    have hsound := hconsistent.storeCall_sound hcall
    have view := storeCall_view hcall
    have husable : entered.buffer.Usable := by
      rw [view.buffer]
      exact hconsistent.usable
    rcases husable with ⟨hwf, hsize⟩ | ⟨hcap, hlive, hhead⟩
    · rcases hgood with hstereo | hzero
      · have hclient : out.reqConfig.frameSize = 4 := by rw [hreq, AudioConfig.frameSize, hstereo]
        rw [hclient] at hsound
        refine copies_stereo hwf hsize ?_ hsound
        rw [audioStreamOutFrameSize, view.reqConfig, hconsistent.reqConfig, hclient]
      · have hcount : entered.buffer.frameCount = 0 := by
          rw [view.buffer, hconsistent.capacity, hpcm, hzero]
        exact absurd hcount (Nat.ne_of_gt hwf.capacity_pos)
    · exact copies_no_capacity hcap hlive hhead

/-- The stream of eight frames, asked for with one channel. -/
def monoStream : GenericStreamOut := { eightFrames with reqConfig := ⟨8000, audioFormatPcm16Bit, 1⟩ }

theorem open_monoStream :
    adevOpenOutputStream true (fun _ => true) ⟨1, 1⟩ ⟨8000, audioFormatPcm16Bit, 1⟩ = .ok monoStream := rfl

theorem copies_inside_iff_monoStream :
    ¬ ∀ (n : Nat) (ls : List (OutputLabel n)) s es l,
      exec outputStep (OutputSystem.init n monoStream) ls = some (s, es) → CopiesInside s l := by
  intro hall
  rcases (copies_inside_iff open_monoStream).mp hall with hstereo | hcap
  · exact absurd hstereo (by decide)
  · exact absurd hcap (by decide)

/-- A write of two bytes to a stream with one channel copies four. -/
theorem copies_outside :
    ¬ ∀ (config : AudioConfig) (out : GenericStreamOut),
      adevOpenOutputStream true (fun _ => true) ⟨1, 1⟩ config = .ok out →
        ∀ (n : Nat) (ls : List (OutputLabel n)) s es l,
          exec outputStep (OutputSystem.init n out) ls = some (s, es) → CopiesInside s l := by
  intro hall
  have hinside := hall _ _ open_monoStream 1 [] _ [] writeOneSample rfl
  exact copies_mono open_monoStream (by decide) (by decide) hinside

end Trout.Audio

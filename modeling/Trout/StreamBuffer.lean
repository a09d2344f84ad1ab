import Trout.AudioConfig

/-! The ring buffer of a stream, whose frames have four bytes. A stream can be opened with a period or a
period count of zero; its ring buffer is then empty for ever, and every other one is well formed. -/

namespace Trout.Audio
open CInt RingWindow

/-- Well formed, or empty for ever when the stream was opened without capacity. -/
def AudioVbuffer.Usable (b : AudioVbuffer) : Prop :=
  (b.WellFormed ∧ b.frameSize = 4) ∨ (b.frameCount = 0 ∧ b.live = 0 ∧ b.head = 0)

theorem streamVbuffer_usable {calloc : Nat → Bool} {capacity : Nat} {b : AudioVbuffer} (hlt : capacity < 2 ^ 32)
    (hinit : audioVbufferInit calloc capacity 4 = .ok b) : b.Usable ∧ b.frameCount = capacity ∧ b.live = 0 := by
  have hbuffer : b.frameCount = capacity ∧ b.live = 0 ∧ b.frameSize = 4 ∧ b.head = 0 := by
    rw [audioVbufferInit] at hinit
    split at hinit
    · cases hinit
      exact ⟨rfl, rfl, rfl, rfl⟩
    · cases hinit
  obtain ⟨hcap, hlive, hsize, hhead⟩ := hbuffer
  refine ⟨?_, hcap, hlive⟩
  by_cases hpos : 0 < capacity
  · exact Or.inl ⟨streamVbuffer_wellFormed hpos hlt hinit, hsize⟩
  · exact Or.inr ⟨hcap.trans (Nat.eq_zero_of_not_pos hpos), hlive, hhead⟩

theorem AudioVbuffer.Usable.live_le {b : AudioVbuffer} (h : b.Usable) : b.live ≤ b.frameCount := by
  rcases h with ⟨hwf, -⟩ | ⟨-, hlive, -⟩
  · exact hwf.live_le
  · rw [hlive]
    exact Nat.zero_le _

theorem AudioVbuffer.Usable.live_lt {b : AudioVbuffer} (h : b.Usable) : b.live < 2 ^ 32 := by
  rcases h with ⟨hwf, -⟩ | ⟨-, hlive, -⟩
  · exact lt_of_le_of_lt hwf.live_le hwf.capacity_lt
  · rw [hlive]
    decide

theorem AudioVbuffer.Usable.live_eq_zero {b : AudioVbuffer} (h : b.Usable) :
    audioVbufferLive b = 0 ↔ b.live = 0 := by
  unfold audioVbufferLive
  exact toInt_eq_zero_iff h.live_lt

/-- Without capacity only an empty write returns, and it changes nothing. -/
theorem audioVbufferWrite_no_capacity {b b' : AudioVbuffer} {buffer : Nat → UInt8} {frameCount written : Nat}
    (hcap : b.frameCount = 0) (hlive : b.live = 0)
    (hrun : audioVbufferWrite b buffer frameCount = some (b', written)) :
    frameCount = 0 ∧ b' = b ∧ written = 0 := by
  rw [audioVbufferWrite, Option.map_eq_some_iff] at hrun
  obtain ⟨last, hloop, hpair⟩ := hrun
  by_cases hzero : frameCount = 0
  · rw [writeLoop_done _ _ (by exact hzero)] at hloop
    cases hloop
    cases hpair
    exact ⟨hzero, rfl, rfl⟩
  · obtain ⟨frames, hframes⟩ : ∃ frames, WriteLoop.frames ⟨b, 0, frameCount⟩ = some frames :=
      ⟨_, if_pos (Or.inl hlive)⟩
    have hnone : WriteLoop.advance buffer ⟨b, 0, frameCount⟩ frames = none := by
      rw [WriteLoop.advance, if_neg fun hdefined => hdefined.2 hcap]
    rw [writeLoop] at hloop
    simp only [if_neg hzero, hframes, hnone] at hloop
    cases hloop

/-- Without capacity only an empty read returns, and it changes nothing. -/
theorem audioVbufferRead_no_capacity {b b' : AudioVbuffer} {buffer buffer' : Nat → UInt8} {frameCount count : Nat}
    (hcap : b.frameCount = 0) (hlive : b.live = 0)
    (hrun : audioVbufferRead b buffer frameCount = some (b', buffer', count)) :
    b' = b ∧ buffer' = buffer ∧ count = 0 := by
  rw [audioVbufferRead, Option.map_eq_some_iff] at hrun
  obtain ⟨last, hloop, hpair⟩ := hrun
  by_cases hzero : frameCount = 0
  · rw [readLoop_done _ (by exact hzero)] at hloop
    cases hloop
    cases hpair
    exact ⟨rfl, rfl, rfl⟩
  · obtain ⟨frames, hframes⟩ : ∃ frames, ReadLoop.frames ⟨b, buffer, 0, frameCount⟩ = some frames :=
      ⟨_, if_pos (Or.inl (hlive.trans hcap.symm))⟩
    have hnone : ReadLoop.advance ⟨b, buffer, 0, frameCount⟩ frames = none := by
      rw [ReadLoop.advance, if_neg fun hdefined => hdefined.2 hcap]
    rw [readLoop] at hloop
    simp only [if_neg hzero, hframes, hnone] at hloop
    cases hloop

/-- A write appends the frames it reports. -/
theorem AudioVbuffer.Usable.write_spec {b b' : AudioVbuffer} {buffer : Nat → UInt8} {frameCount written : Nat}
    (h : b.Usable) (hcount : frameCount < 2 ^ 64) (hrun : audioVbufferWrite b buffer frameCount = some (b', written)) :
    b'.Usable ∧ b'.frameCount = b.frameCount ∧ b'.live = b.live + written ∧
      written = min frameCount (b.frameCount - b.live) ∧ b'.stored = b.stored ++ records buffer 4 0 written := by
  rcases h with ⟨hwf, hsize⟩ | ⟨hcap, hlive, hhead⟩
  · obtain ⟨happ, hwritten⟩ := audioVbufferWrite_spec hwf hcount hrun
    have hlive := happ.live
    rw [records_length] at hlive
    refine ⟨Or.inl ⟨happ.wellFormed, happ.frameSize.trans hsize⟩, happ.frameCount, hlive, hwritten, ?_⟩
    rw [← hsize]
    exact happ.stored
  · obtain ⟨hnone, rfl, rfl⟩ := audioVbufferWrite_no_capacity hcap hlive hrun
    refine ⟨Or.inr ⟨hcap, hlive, hhead⟩, rfl, rfl, ?_, ?_⟩
    · rw [hnone, Nat.zero_min]
    · rw [records, List.range_zero, List.map_nil, List.append_nil]

/-- A read removes the oldest frames and puts them down in the caller's memory. -/
theorem AudioVbuffer.Usable.read_spec {b b' : AudioVbuffer} {memory memory' : Nat → UInt8} {frameCount count : Nat}
    (h : b.Usable) (hcount : frameCount < 2 ^ 64)
    (hrun : audioVbufferRead b memory frameCount = some (b', memory', count)) :
    b'.Usable ∧ b'.frameCount = b.frameCount ∧ count = min frameCount b.live ∧
      b.stored = records memory' 4 0 count ++ b'.stored := by
  rcases h with ⟨hwf, hsize⟩ | ⟨hcap, hlive, hhead⟩
  · obtain ⟨hremoved, hfilled, hread⟩ := audioVbufferRead_spec hwf hcount hrun
    have hlength : (b.stored.take frameCount).length = count := by
      rw [List.length_take, AudioVbuffer.stored_length, hread]
    have hinside := hfilled.inside
    rw [hsize, hlength] at hinside
    refine ⟨Or.inl ⟨hremoved.wellFormed, hremoved.frameSize.trans hsize⟩, hremoved.frameCount, hread, ?_⟩
    rw [hinside]
    exact hremoved.stored
  · obtain ⟨rfl, rfl, rfl⟩ := audioVbufferRead_no_capacity hcap hlive hrun
    refine ⟨Or.inr ⟨hcap, hlive, hhead⟩, rfl, ?_, ?_⟩
    · rw [hlive, Nat.min_zero]
    · rw [records, List.range_zero, List.map_nil, List.nil_append]

end Trout.Audio

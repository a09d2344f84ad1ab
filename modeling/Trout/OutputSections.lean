import Trout.OutputThreads
import Trout.StreamBuffer

/-! What one section of an output stream can do. Every section of a client leaves the worker's view
alone, makes one store, or ends a `do_out_standby`; every section of the worker ends, blocks, reads or
plays. The ring buffer stays usable throughout, whatever the capacity it was opened with. -/

namespace Trout.Audio
open CInt RingWindow

/-! ### The ring buffer of a stream -/

/-- The ring buffer of a stream is initialised with the capacity of its own configuration. -/
theorem open_init {allocated : Bool} {calloc : Nat → Bool} {p : PeriodProperties} {config : AudioConfig}
    {out : GenericStreamOut} (h : adevOpenOutputStream allocated calloc p config = .ok out) :
    audioVbufferInit calloc (pcmConfigFor config.sampleRate p).capacity 4 = .ok out.buffer ∧
      out.workerExit = false ∧ out.reqConfig = config ∧ out.pcmConfig = pcmConfigFor config.sampleRate p ∧
      (popcount config.channelMask = 1 ∨ popcount config.channelMask = 2) := by
  rw [adevOpenOutputStream] at h
  split at h
  · cases h
  rename_i hinval
  split at h
  · cases h
  have hrefined : refineOutputParameters config = ((refineOutputParameters config).1, false) := by
    rw [Bool.not_eq_true] at hinval
    rw [← hinval]
  dsimp only at h
  split at h
  · cases h
  rename_i buffer hinit
  cases h
  obtain ⟨hsame, hchannels⟩ := refineParameters_accepted hrefined
  have hpcm : pcmConfigFor (refineOutputParameters config).1.sampleRate p = pcmConfigFor config.sampleRate p := by
    rw [hsame]
  rw [pcmConfigFor_frameSize, hpcm] at hinit
  exact ⟨hinit, rfl, hsame, hpcm, hchannels⟩

theorem open_usable {allocated : Bool} {calloc : Nat → Bool} {p : PeriodProperties} {config : AudioConfig}
    {out : GenericStreamOut} (h : adevOpenOutputStream allocated calloc p config = .ok out) :
    out.buffer.Usable ∧ out.buffer.frameCount = out.pcmConfig.capacity ∧ out.buffer.live = 0 ∧
      out.workerExit = false ∧ out.reqConfig = config ∧ out.pcmConfig = pcmConfigFor config.sampleRate p ∧
      (popcount config.channelMask = 1 ∨ popcount config.channelMask = 2) := by
  obtain ⟨hinit, hexit, hreq, hpcm, hchannels⟩ := open_init h
  obtain ⟨husable, hcap, hlive⟩ := streamVbuffer_usable (PcmConfig.capacity_lt _) hinit
  exact ⟨husable, by rw [hcap, hpcm], hlive, hexit, hreq, hpcm, hchannels⟩

/-- A store appends to a usable buffer the frames it reports. -/
theorem WriteCall.store_spec {c c' : WriteCall} {out out' : GenericStreamOut} (h : out.buffer.Usable)
    (hstore : c.store out = some (out', c')) :
    out'.buffer.Usable ∧ ∃ written,
      written = min (sizeSub c.frames c.framesWritten) (out.buffer.frameCount - out.buffer.live) ∧
      out'.buffer.frameCount = out.buffer.frameCount ∧ out'.buffer.live = out.buffer.live + written ∧
      c'.framesWritten = (c.framesWritten + written) % sizeMod ∧
      out'.buffer.stored = out.buffer.stored ++
        records (c.rest (audioStreamOutFrameSize out)) 4 0 written := by
  rw [WriteCall.store, Option.map_eq_some_iff] at hstore
  obtain ⟨⟨b, written⟩, hrun, hpair⟩ := hstore
  cases hpair
  obtain ⟨husable, hcap, hlive, hwritten, hstored⟩ := h.write_spec (sizeSub_lt _ _) hrun
  exact ⟨husable, written, hwritten, hcap, hlive, rfl, hstored⟩

/-- A call whose byte count the gain loop can index and that is not past its end. -/
structure WriteCall.Sound (c : WriteCall) (frameSize : Nat) : Prop where
  frames_eq : c.frames = c.bytes / frameSize
  short : c.bytes / 2 ≤ intMax
  written_le : c.framesWritten ≤ c.frames

theorem WriteCall.Sound.frames_lt {c : WriteCall} {frameSize : Nat} (h : c.Sound frameSize) :
    c.frames < 2 ^ 32 := by
  have hle : c.frames ≤ c.bytes := by
    rw [h.frames_eq]
    exact Nat.div_le_self c.bytes frameSize
  have hshort := h.short
  simp only [intMax] at hshort
  omega

/-- What one turn of the store loop does. -/
structure StoreOutcome (out : GenericStreamOut) (c : WriteCall) (r : Section ClientPc) (written : Nat) : Prop where
  written_eq : written = min (c.frames - c.framesWritten) (out.buffer.frameCount - out.buffer.live)
  usable : r.out.buffer.Usable
  frameCount : r.out.buffer.frameCount = out.buffer.frameCount
  live : r.out.buffer.live = out.buffer.live + written
  stored : r.out.buffer.stored = out.buffer.stored ++ records (c.rest (audioStreamOutFrameSize out)) 4 0 written
  reqConfig : r.out.reqConfig = out.reqConfig
  pcmConfig : r.out.pcmConfig = out.pcmConfig
  workerExit : r.out.workerExit = out.workerExit
  workerStandby : r.out.workerStandby = out.workerStandby
  signals : r.signals = true
  leaves : (c.framesWritten + written < c.frames ∧
      r.pc = .writeWaiting { c with framesWritten := c.framesWritten + written } false ∧
      r.events = [.stored (records c.buffer (audioStreamOutFrameSize out) c.framesWritten written)]) ∨
    (c.framesWritten + written = c.frames ∧ r.pc = .idle ∧
      r.events = [.stored (records c.buffer (audioStreamOutFrameSize out) c.framesWritten written),
        .returned { c with framesWritten := c.frames }])

theorem storeLoop_outcome {out : GenericStreamOut} {c : WriteCall} {frameSize : Nat} {r : Section ClientPc}
    (h : out.buffer.Usable) (hc : c.Sound frameSize) (hloop : storeLoop out c = some r) :
    ∃ written, StoreOutcome out c r written := by
  have hframes := hc.frames_lt
  have hle := hc.written_le
  rw [storeLoop] at hloop
  split at hloop
  · cases hloop
  rename_i out' c' hstore
  obtain ⟨husable, written, hwritten, hcap, hlive, hnext, hstored⟩ := WriteCall.store_spec h hstore
  obtain ⟨hout, hcall⟩ := WriteCall.store_view hstore
  have hmin : written = min (c.frames - c.framesWritten) (out.buffer.frameCount - out.buffer.live) := by
    rw [hwritten, sizeSub_of_le hle (by omega)]
  have hsum : c'.framesWritten = c.framesWritten + written := by
    rw [hnext, sizeMod]
    omega
  have hcount : c'.framesWritten - c.framesWritten = written := by omega
  have hcall : c' = { c with framesWritten := c.framesWritten + written } := by rw [hcall, hsum]
  have hreq : out'.reqConfig = out.reqConfig := by rw [hout]
  have hpcm : out'.pcmConfig = out.pcmConfig := by rw [hout]
  have hexit : out'.workerExit = out.workerExit := by rw [hout]
  have hstandby : out'.workerStandby = out.workerStandby := by rw [hout]
  refine ⟨written, ?_⟩
  by_cases hmore : c'.framesWritten < c'.frames
  · simp only [if_pos hmore] at hloop
    cases hloop
    refine ⟨hmin, husable, hcap, hlive, hstored, hreq, hpcm, hexit, hstandby, rfl, Or.inl ⟨?_, ?_, ?_⟩⟩
    · rw [hcall] at hmore
      exact hmore
    · rw [hcall]
    · rw [hcount]
  · simp only [if_neg hmore] at hloop
    cases hloop
    have hdone : c.framesWritten + written = c.frames := by
      rw [hcall] at hmore
      have hmore : ¬ c.framesWritten + written < c.frames := hmore
      omega
    refine ⟨hmin, husable, hcap, hlive, hstored, hreq, hpcm, hexit, hstandby, rfl, Or.inr ⟨hdone, rfl, ?_⟩⟩
    rw [hcount, hcall, hdone]

theorem StoreOutcome.sound {out : GenericStreamOut} {c : WriteCall} {frameSize : Nat} {r : Section ClientPc}
    {written : Nat} (h : StoreOutcome out c r written) (hc : c.Sound frameSize) {c' : WriteCall} {woken : Bool}
    (hpc : r.pc = .writeWaiting c' woken) : c'.Sound frameSize := by
  rcases h.leaves with ⟨hlt, hwait, -⟩ | ⟨-, hidle, -⟩
  · cases hwait.symm.trans hpc
    exact ⟨hc.frames_eq, hc.short, hlt.le⟩
  · cases hidle.symm.trans hpc

/-! ### Sections of the clients -/

/-- The sections that end a `do_out_standby`: those of a close, and those that raise `worker_standby`. -/
def requests (out : GenericStreamOut) : ClientPc → ClientLabel → Option Bool
  | .idle, .standby closing now =>
      if out.standby then (if closing then some true else none)
      else if (doOutStandbyTurn out now).2 = 0 then some closing else none
  | .standbySleeping closing, .standbySlept now =>
      if (doOutStandbyTurn out now).2 = 0 then some closing else none
  | _, _ => none

theorem requests_source {out : GenericStreamOut} {pc : ClientPc} {l : ClientLabel} {closing : Bool}
    (h : requests out pc l = some closing) :
    (∃ now, l = .standby closing now) ∨ pc = .standbySleeping closing := by
  unfold requests at h
  split at h
  · rename_i asked now
    by_cases hstandby : out.standby
    · rw [if_pos hstandby] at h
      cases asked <;> cases h
      exact Or.inl ⟨now, rfl⟩
    · rw [if_neg hstandby] at h
      split at h
      · cases h
        exact Or.inl ⟨now, rfl⟩
      · cases h
  · split at h
    · cases h
      exact Or.inr rfl
    · cases h
  · cases h

inductive ClientEffect (out : GenericStreamOut) (pc : ClientPc) (l : ClientLabel) (r : Section ClientPc) : Prop where
  /-- Nothing the worker sees changes, except that a write takes back a standby request. -/
  | quiet (view : SameWorkerView out r.out)
      (standby : r.out.workerStandby = true → out.workerStandby = true) (signals : r.signals = false)
      (waiting : ∀ c woken, r.pc = .writeWaiting c woken → woken = true ∧ pc = .writeWaiting c false)
      (keeps : ∀ c woken, pc = .writeWaiting c woken → r.pc = .writeWaiting c true)
      (sleeping : ∀ closing, r.pc = .standbySleeping closing →
        (∃ now, l = .standby closing now) ∨ pc = .standbySleeping closing)
      (silent : ∀ frames c, OutputEvent.stored frames ∉ r.events ∧ OutputEvent.returned c ∉ r.events)
      (request : requests out pc l = none)
  /-- One store of the call. -/
  | store (entered : GenericStreamOut) (c : WriteCall) (call : storeCall out pc l = some (entered, c))
      (view : SameWorkerView out entered) (standby : entered.workerStandby = true → out.workerStandby = true)
      (loop : storeLoop entered c = some r)
  /-- The end of a `do_out_standby`. -/
  | request (closing : Bool) (asks : requests out pc l = some closing) (raised : GenericStreamOut)
      (view : SameWorkerView out raised) (result : r = standbyEnd raised closing)

theorem storeSection_effect {out entered : GenericStreamOut} {pc : ClientPc} {l : ClientLabel}
    {buffer : Nat → UInt8} {bytes : Nat} {env : WriteEnv} {r : Section ClientPc}
    (view : SameWorkerView out entered) (standby : entered.workerStandby = true → out.workerStandby = true)
    (call : storeCall out pc l = (startStore entered buffer bytes env).map fun c => (entered, c))
    (fresh : ∀ c woken, pc ≠ .writeWaiting c woken) (request : requests out pc l = none)
    (h : storeSection entered buffer bytes env = some r) :
    ClientEffect out pc l r := by
  rw [storeSection] at h
  by_cases hmuted : env.muted
  · rw [if_pos hmuted] at h
    cases h
    refine .quiet ⟨view.reqConfig, view.pcmConfig, view.buffer, view.workerExit⟩ standby rfl ?_
      (fun c woken hpc => absurd hpc (fresh c woken)) nofun ?_ request
    · intro c woken hpc
      cases hpc
    · intro frames c
      exact ⟨by simp, by simp⟩
  · rw [if_neg hmuted] at h
    split at h
    · cases h
    · rename_i c hstart
      rw [hstart] at call
      exact .store entered c call view standby h

theorem startStore_sound {out : GenericStreamOut} {buffer : Nat → UInt8} {bytes : Nat} {env : WriteEnv} {c : WriteCall}
    (h : startStore out buffer bytes env = some c) : c.Sound (audioStreamOutFrameSize out) := by
  rw [startStore] at h
  split at h
  · cases h
  obtain ⟨adjusted, hgain, rfl⟩ := Option.map_eq_some_iff.mp h
  rw [outApplyGain] at hgain
  split at hgain
  · rename_i hshort
    exact ⟨rfl, hshort, Nat.zero_le _⟩
  · cases hgain

/-- A store goes on with the waiting call or starts a new one. -/
theorem storeCall_start {out entered : GenericStreamOut} {pc : ClientPc} {l : ClientLabel} {c : WriteCall}
    (h : storeCall out pc l = some (entered, c)) :
    pc = .writeWaiting c true ∨ (c.framesWritten = 0 ∧ ∀ c' woken, pc ≠ .writeWaiting c' woken) := by
  have hstart : ∀ {out : GenericStreamOut} {buffer bytes env} {c : WriteCall},
      startStore out buffer bytes env = some c → c.framesWritten = 0 := by
    intro out buffer bytes env c hstart
    rw [startStore] at hstart
    split at hstart
    · cases hstart
    · obtain ⟨adjusted, -, rfl⟩ := Option.map_eq_some_iff.mp hstart
      rfl
  unfold storeCall at h
  split at h
  · dsimp only at h
    split at h
    · cases h
    · obtain ⟨c', hc, hpair⟩ := Option.map_eq_some_iff.mp h
      cases hpair
      exact Or.inr ⟨hstart hc, nofun⟩
  · obtain ⟨c', hc, hpair⟩ := Option.map_eq_some_iff.mp h
    cases hpair
    exact Or.inr ⟨hstart hc, nofun⟩
  · cases h
    exact Or.inl rfl
  · cases h

theorem storeCall_view {out entered : GenericStreamOut} {pc : ClientPc} {l : ClientLabel} {c : WriteCall}
    (h : storeCall out pc l = some (entered, c)) : SameWorkerView out entered := by
  unfold storeCall at h
  split at h
  · dsimp only at h
    split at h
    · cases h
    · obtain ⟨c', -, hpair⟩ := Option.map_eq_some_iff.mp h
      cases hpair
      exact (outWriteEnter_view out _ _).1
  · obtain ⟨c', -, hpair⟩ := Option.map_eq_some_iff.mp h
    cases hpair
    exact SameWorkerView.refl out
  · cases h
    exact SameWorkerView.refl out
  · cases h

/-- The call of every store is sound when the waiting ones are. -/
theorem storeCall_sound {out entered : GenericStreamOut} {pc : ClientPc} {l : ClientLabel} {c : WriteCall}
    (h : ∀ c woken, pc = .writeWaiting c woken → c.Sound (audioStreamOutFrameSize out))
    (hcall : storeCall out pc l = some (entered, c)) : c.Sound (audioStreamOutFrameSize out) := by
  unfold storeCall at hcall
  split at hcall
  · rename_i buffer bytes now env
    obtain ⟨hview, -⟩ := outWriteEnter_view out now (bytes.toNat / audioStreamOutFrameSize out)
    dsimp only at hcall
    split at hcall
    · cases hcall
    · obtain ⟨c', hstart, hpair⟩ := Option.map_eq_some_iff.mp hcall
      cases hpair
      have hsound := startStore_sound hstart
      rwa [audioStreamOutFrameSize, hview.reqConfig] at hsound
  · obtain ⟨c', hstart, hpair⟩ := Option.map_eq_some_iff.mp hcall
    cases hpair
    exact startStore_sound hstart
  · cases hcall
    exact h c true rfl
  · cases hcall

theorem standbyLoop_effect {out : GenericStreamOut} {pc : ClientPc} {l : ClientLabel} {closing : Bool} {now : Nat}
    (asks : requests out pc l = if (doOutStandbyTurn out now).2 = 0 then some closing else none)
    (source : (∃ now, l = .standby closing now) ∨ pc = .standbySleeping closing)
    (fresh : ∀ c woken, pc ≠ .writeWaiting c woken) :
    ClientEffect out pc l (standbyLoop out closing now) := by
  obtain ⟨⟨hreq, hpcm, hbuffer, hexit⟩, hstandby⟩ := doOutStandbyTurn_view out now
  rw [standbyLoop]
  by_cases hdone : (doOutStandbyTurn out now).2 = 0
  · rw [if_pos hdone] at asks
    rw [if_pos hdone]
    exact .request closing asks (doOutStandbyDone (doOutStandbyTurn out now).1) ⟨hreq, hpcm, hbuffer, hexit⟩ rfl
  · rw [if_neg hdone] at asks
    rw [if_neg hdone]
    refine .quiet ⟨hreq, hpcm, hbuffer, hexit⟩ (fun h => hstandby ▸ h) rfl ?_
      (fun c woken hpc => absurd hpc (fresh c woken)) ?_ ?_ asks
    · intro c woken hpc
      cases hpc
    · intro closing' hpc
      cases hpc
      exact source
    · intro frames c
      exact ⟨List.not_mem_nil, List.not_mem_nil⟩

/-- Every section of a client is of one of three kinds. -/
theorem clientSection_effect {out : GenericStreamOut} {pc : ClientPc} {l : ClientLabel} {r : Section ClientPc}
    (h : clientSection out pc l = some r) : ClientEffect out pc l r := by
  have hnil : ∀ frames c, OutputEvent.stored frames ∉ ([] : List OutputEvent) ∧
      OutputEvent.returned c ∉ ([] : List OutputEvent) := fun _ _ => ⟨List.not_mem_nil, List.not_mem_nil⟩
  unfold clientSection at h
  split at h
  · rename_i buffer bytes now env
    obtain ⟨hview, hstandby⟩ :=
      outWriteEnter_view out now (bytes.toNat / audioStreamOutFrameSize out)
    have hawake : ∀ {e : GenericStreamOut}, e.workerStandby = false → e.workerStandby = true →
        out.workerStandby = true := fun hf ht => absurd (hf.symm.trans ht) Bool.false_ne_true
    rw [writeSection] at h
    by_cases hsleep : (outWriteEnter out now (bytes.toNat / audioStreamOutFrameSize out)).2 > 0
    · simp only [if_pos hsleep] at h
      cases h
      refine .quiet hview (hawake hstandby) rfl ?_ nofun nofun hnil rfl
      intro c woken hpc
      cases hpc
    · simp only [if_neg hsleep] at h
      refine storeSection_effect hview (hawake hstandby) ?_ nofun rfl h
      simp only [storeCall, if_neg hsleep]
  · exact storeSection_effect (SameWorkerView.refl out) id rfl nofun rfl h
  · rename_i c
    exact .store out c rfl (SameWorkerView.refl out) id h
  · rename_i c
    cases h
    refine .quiet (SameWorkerView.refl out) id rfl ?_ ?_ nofun hnil rfl
    · intro c' woken hpc
      cases hpc
      exact ⟨rfl, rfl⟩
    · intro c' woken hpc
      cases hpc
      rfl
  · rename_i closing now
    by_cases hstandby : out.standby
    · rw [if_pos hstandby] at h
      cases h
      cases closing with
      | true => exact .request true (by simp [requests, hstandby]) out (SameWorkerView.refl out) rfl
      | false =>
          refine .quiet (SameWorkerView.refl out) id rfl ?_ nofun nofun hnil (by simp [requests, hstandby])
          intro c woken hpc
          cases hpc
    · rw [if_neg hstandby] at h
      rw [← Option.some.inj h]
      exact standbyLoop_effect (by simp [requests, hstandby]) (Or.inl ⟨now, rfl⟩) nofun
  · rw [← Option.some.inj h]
    exact standbyLoop_effect (by simp only [requests]) (Or.inr rfl) nofun
  · rename_i now
    cases h
    obtain ⟨hview, hstandby⟩ := getCurrentOutputPosition_view out now
    refine .quiet hview (fun h => hstandby ▸ h) rfl ?_ nofun nofun ?_ rfl
    · intro c woken hpc
      cases hpc
    · intro frames c
      exact ⟨by simp, by simp⟩
  · cases h

/-! ### Sections of the worker -/

/-- The worker's next section comes to its test for data with the locals `w`. -/
def ReachesData (out : GenericStreamOut) (pc : WorkerPc) (w : WorkerLocals) : Prop :=
  pc = .emptyWait w true ∨
    ((pc = .top w ∨ pc = .standbyWait w true) ∧ out.workerExit = false ∧ out.workerStandby = false ∧ w.restart = false)

inductive WorkerEffect (out : GenericStreamOut) (env : WorkerEnv) (pc : WorkerPc) (r : Section WorkerPc) : Prop where
  /-- The exit that a close has requested. -/
  | exits (result : r = ⟨out, .terminated, false, []⟩) (exit : out.workerExit = true)
  /-- The exit after a failure to open the PCM or to allocate its buffer. -/
  | fails (w : WorkerLocals) (result : r = ⟨out, .terminated, false, []⟩) (error : openPcm out w env = none)
      (data : audioVbufferLive out.buffer ≠ 0) (reached : ReachesData out pc w)
  | rests (result : r = ⟨out, .standbyWait ⟨none, false⟩ false, false, []⟩) (exit : out.workerExit = false)
      (asked : out.workerStandby = true ∨ ∃ w, (pc = .top w ∨ pc = .standbyWait w true) ∧ w.restart = true)
  | starves (w : WorkerLocals) (result : r = ⟨out, .emptyWait w false, false, []⟩)
      (empty : audioVbufferLive out.buffer = 0) (reached : ReachesData out pc w)
  | reads (w : WorkerLocals) (pcm : OpenPcm) (opened : openPcm out w env = some pcm)
      (data : audioVbufferLive out.buffer ≠ 0) (buffer : AudioVbuffer) (memory : Nat → UInt8) (count : Nat)
      (read : audioVbufferRead out.buffer pcm.memory (toSize pcm.bufferFrames) = some (buffer, memory, count))
      (result : r = ⟨{ out with buffer := buffer },
        .playing { w with extPcm := some { pcm with memory := memory } } (toInt (count : Nat)), true, []⟩)
      (reached : ReachesData out pc w)
  | plays (w : WorkerLocals) (frames : Int) (playing : pc = .playing w frames)
      (result : r =
        ⟨out, .top { w with restart := w.restart || (env.selected && env.writeError) }, false, []⟩)

theorem emptyLoop_effect {out : GenericStreamOut} {env : WorkerEnv} {pc : WorkerPc} {w : WorkerLocals}
    {r : Section WorkerPc} (reached : ReachesData out pc w) (h : emptyLoop out w env = some r) : WorkerEffect out env pc r := by
  rw [emptyLoop] at h
  by_cases hempty : audioVbufferLive out.buffer = 0
  · rw [if_pos hempty] at h
    cases h
    exact .starves w rfl hempty reached
  rw [if_neg hempty, fetchSection] at h
  cases hopen : openPcm out w env with
  | none =>
      rw [hopen] at h
      cases h
      exact .fails w rfl hopen hempty reached
  | some pcm =>
      simp only [hopen] at h
      split at h
      · cases h
      · rename_i buffer memory count hread
        cases h
        exact .reads w pcm hopen hempty buffer memory count hread rfl reached

theorem standbyCheck_effect {out : GenericStreamOut} {env : WorkerEnv} {pc : WorkerPc} {w : WorkerLocals}
    {r : Section WorkerPc} (local_pc : pc = .top w ∨ pc = .standbyWait w true)
    (h : standbyCheck out w env = some r) : WorkerEffect out env pc r := by
  rw [standbyCheck] at h
  by_cases hexit : out.workerExit
  · rw [if_pos hexit, if_pos hexit, ite_self] at h
    cases h
    exact .exits rfl hexit
  rw [if_neg hexit, if_neg hexit] at h
  by_cases hstandby : (out.workerStandby || w.restart) = true
  · rw [if_pos hstandby] at h
    cases h
    refine .rests rfl (by simpa using hexit) ?_
    rcases Bool.or_eq_true_iff.mp hstandby with hasked | hrestart
    · exact Or.inl hasked
    · exact Or.inr ⟨w, local_pc, hrestart⟩
  · rw [if_neg hstandby] at h
    rw [Bool.or_eq_true, not_or] at hstandby
    refine emptyLoop_effect (Or.inr ⟨local_pc, ?_, ?_, ?_⟩) h
    · simpa using hexit
    · simpa using hstandby.1
    · simpa using hstandby.2

/-- Every section of the worker is of one of six kinds. -/
theorem workerSection_effect {out : GenericStreamOut} {env : WorkerEnv} {pc : WorkerPc} {r : Section WorkerPc}
    (h : workerSection out env pc = some r) : WorkerEffect out env pc r := by
  unfold workerSection at h
  split at h
  · exact standbyCheck_effect (Or.inl rfl) h
  · exact standbyCheck_effect (Or.inr rfl) h
  · exact emptyLoop_effect (Or.inl rfl) h
  · rename_i w frames
    cases h
    exact .plays w frames rfl rfl
  · cases h

/-! ### The system -/

/-- What holds in every state of a stream opened with these configurations. -/
structure Consistent {n : Nat} (req : AudioConfig) (pcm : PcmConfig) (s : OutputSystem n) : Prop where
  usable : s.out.buffer.Usable
  capacity : s.out.buffer.frameCount = pcm.capacity
  reqConfig : s.out.reqConfig = req
  pcmConfig : s.out.pcmConfig = pcm
  calls : ∀ i c woken, s.clients i = .writeWaiting c woken → c.Sound req.frameSize

section System

variable {n : Nat} {req : AudioConfig} {pcm : PcmConfig}

theorem Consistent.init {allocated : Bool} {calloc : Nat → Bool} {p : PeriodProperties} {config : AudioConfig}
    {out : GenericStreamOut} (h : adevOpenOutputStream allocated calloc p config = .ok out) :
    Consistent out.reqConfig out.pcmConfig (OutputSystem.init n out) := by
  obtain ⟨husable, hcap, -⟩ := open_usable h
  refine ⟨husable, hcap, rfl, rfl, ?_⟩
  intro i c woken hpc
  cases hpc

theorem Consistent.storeCall_sound {s : OutputSystem n} (h : Consistent req pcm s) {i : Fin n}
    {l : ClientLabel} {entered : GenericStreamOut} {c : WriteCall}
    (hcall : storeCall s.out (s.clients i) l = some (entered, c)) : c.Sound req.frameSize := by
  have hcalls : ∀ c woken, s.clients i = .writeWaiting c woken → c.Sound (audioStreamOutFrameSize s.out) := by
    intro c woken hpc
    rw [audioStreamOutFrameSize, h.reqConfig]
    exact h.calls i c woken hpc
  have hsound := Audio.storeCall_sound hcalls hcall
  rwa [audioStreamOutFrameSize, h.reqConfig] at hsound

/-- A store from a consistent state has an outcome. -/
theorem Consistent.store {s : OutputSystem n} (h : Consistent req pcm s) {i : Fin n}
    {l : ClientLabel} {entered : GenericStreamOut} {c : WriteCall} {r : Section ClientPc}
    (hcall : storeCall s.out (s.clients i) l = some (entered, c)) (view : SameWorkerView s.out entered)
    (hloop : storeLoop entered c = some r) : ∃ written, StoreOutcome entered c r written := by
  refine storeLoop_outcome ?_ (h.storeCall_sound hcall) hloop
  rw [view.buffer]
  exact h.usable

theorem consistent_client {s t : OutputSystem n} {i : Fin n} {l : ClientLabel} {es : List OutputEvent}
    (h : Consistent req pcm s) (hstep : clientStep s i l = some (t, es)) :
    Consistent req pcm t := by
  rw [clientStep, Option.map_eq_some_iff] at hstep
  obtain ⟨r, hsection, hpair⟩ := hstep
  cases hpair
  -- the calls of the other clients are as before
  have hcalls : (∀ c woken, r.pc = .writeWaiting c woken → c.Sound req.frameSize) →
      ∀ j c woken, Function.update s.clients i r.pc j = .writeWaiting c woken → c.Sound req.frameSize := by
    intro hown j c woken hpc
    by_cases hj : j = i
    · rw [hj, Function.update_self] at hpc
      exact hown c woken hpc
    · rw [Function.update_of_ne hj] at hpc
      exact h.calls j c woken hpc
  cases clientSection_effect hsection with
  | quiet view standby signals waiting keeps sleeping silent request =>
      refine ⟨?_, ?_, view.reqConfig.trans h.reqConfig, view.pcmConfig.trans h.pcmConfig, hcalls ?_⟩
      · rw [view.buffer]
        exact h.usable
      · rw [view.buffer]
        exact h.capacity
      · intro c woken hpc
        exact h.calls i c false (waiting c woken hpc).2
  | store entered c call view standby loop =>
      obtain ⟨written, outcome⟩ := h.store call view loop
      refine ⟨outcome.usable, ?_, ?_, ?_, hcalls ?_⟩
      · rw [outcome.frameCount, view.buffer]
        exact h.capacity
      · exact (outcome.reqConfig.trans view.reqConfig).trans h.reqConfig
      · exact (outcome.pcmConfig.trans view.pcmConfig).trans h.pcmConfig
      · intro c' woken hpc
        exact outcome.sound (h.storeCall_sound call) hpc
  | request closing asks raised view result =>
      rw [result] at hcalls ⊢
      have hraised : raised.buffer.Usable ∧ raised.buffer.frameCount = pcm.capacity := by
        rw [view.buffer]
        exact ⟨h.usable, h.capacity⟩
      have hreq := view.reqConfig.trans h.reqConfig
      have hpcm := view.pcmConfig.trans h.pcmConfig
      cases closing with
      | true => exact ⟨hraised.1, hraised.2, hreq, hpcm, hcalls nofun⟩
      | false => exact ⟨hraised.1, hraised.2, hreq, hpcm, hcalls nofun⟩

theorem signalWriter_calls {clients clients' : Fin n → ClientPc} {wake : Option (Fin n)}
    (h : signalWriter clients wake = some clients') (j : Fin n) :
    clients' j = clients j ∨ ∃ c, clients j = .writeWaiting c false ∧ clients' j = .writeWaiting c true := by
  cases wake with
  | none =>
      rw [signalWriter] at h
      split at h
      · cases h
      · cases h
        exact Or.inl rfl
  | some i =>
      rw [signalWriter] at h
      split at h
      · rename_i c hblocked
        cases h
        by_cases hj : j = i
        · rw [hj, Function.update_self]
          exact Or.inr ⟨c, hblocked, rfl⟩
        · rw [Function.update_of_ne hj]
          exact Or.inl rfl
      · cases h

theorem consistent_worker {s t : OutputSystem n} {env : WorkerEnv} {wake : Option (Fin n)} {es : List OutputEvent}
    (h : Consistent req pcm s) (hstep : workerStep s env wake = some (t, es)) :
    Consistent req pcm t := by
  rw [workerStep] at hstep
  split at hstep
  · cases hstep
  rename_i r hsection
  have hquiet : r = ⟨s.out, r.pc, false, []⟩ → Consistent req pcm t := by
    intro hresult
    rw [hresult] at hstep
    cases hstep
    exact ⟨h.usable, h.capacity, h.reqConfig, h.pcmConfig, h.calls⟩
  cases workerSection_effect hsection with
  | exits result exit => exact hquiet (by rw [result])
  | fails w result error data reached => exact hquiet (by rw [result])
  | rests result exit asked => exact hquiet (by rw [result])
  | starves w result empty reached => exact hquiet (by rw [result])
  | plays w frames playing result => exact hquiet (by rw [result])
  | reads w pcm opened data buffer memory count read result reached =>
      rw [result] at hstep
      simp only [if_true, Option.map_eq_some_iff] at hstep
      obtain ⟨clients, hsignal, hpair⟩ := hstep
      cases hpair
      obtain ⟨husable, hcap, -⟩ := h.usable.read_spec (toSize_lt _) read
      refine ⟨husable, hcap.trans h.capacity, h.reqConfig, h.pcmConfig, ?_⟩
      intro j c woken hpc
      rcases signalWriter_calls hsignal j with hsame | ⟨c', hblocked, hwoken⟩
      · exact h.calls j c woken (hsame.symm.trans hpc)
      · cases hwoken.symm.trans hpc
        exact h.calls j c false hblocked

theorem consistent_step (s : OutputSystem n) (l : OutputLabel n) (t : OutputSystem n) (es : List OutputEvent)
    (h : Consistent req pcm s) (hstep : outputStep s l = some (t, es)) :
    Consistent req pcm t := by
  unfold outputStep at hstep
  split at hstep
  · cases hstep
  cases l with
  | client i l => exact consistent_client h hstep
  | worker env wake => exact consistent_worker h hstep
  | join i =>
      dsimp only at hstep
      split at hstep
      · cases hstep
        exact ⟨h.usable, h.capacity, h.reqConfig, h.pcmConfig, h.calls⟩
      · cases hstep
  | workerSpurious =>
      dsimp only at hstep
      split at hstep
      · cases hstep
        exact ⟨h.usable, h.capacity, h.reqConfig, h.pcmConfig, h.calls⟩
      · cases hstep
        exact ⟨h.usable, h.capacity, h.reqConfig, h.pcmConfig, h.calls⟩
      · cases hstep

end System

/-! ### A small stream -/

/-- A stereo stream at 8 kHz with one period of one millisecond: eight frames. -/
def eightFrames : GenericStreamOut where
  reqConfig := ⟨8000, audioFormatPcm16Bit, 3⟩
  pcmConfig := ⟨2, 8000, 8, 1⟩
  buffer := ⟨fun _ => 0, 32, 4, 8, 0, 0, 0⟩
  standby := true
  underrunPosition := 0
  underrunTime := 0
  framesTotalBuffered := 0
  framesWritten := 0
  framesRendered := 0
  workerStandby := true
  workerExit := false

theorem open_eightFrames :
    adevOpenOutputStream true (fun _ => true) ⟨1, 1⟩ ⟨8000, audioFormatPcm16Bit, 3⟩ = .ok eightFrames := rfl

/-- An unmuted write of one frame at time 0. -/
def writeOneFrame : OutputLabel 1 :=
  .client (Fin.last 0) (.write (fun _ => 0) 4 0 ⟨false, fun _ x => x⟩)

/-- A turn of the worker in which everything succeeds and no writer waits. -/
def workerTurn : OutputLabel 1 :=
  .worker ⟨true, fun _ => some fun _ => 0, true, false⟩ none

end Trout.Audio

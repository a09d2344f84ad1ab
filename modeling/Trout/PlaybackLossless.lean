import Trout.OutputSections
import Trout.PlaybackForwarding

/-! Playback loses nothing. In a run without standby, mutes or errors, what the mixer has handed to the
device, what its pipeline holds, the rest of the worker's period and the ring buffer are together, in
this order, the frames that `out_write` has stored; and a call that has returned stored all its frames. -/

namespace Trout.Playback
open CInt Pcm16 RingWindow Runs Audio Mixer

/-! ### The invariant -/

@[simp] theorem outputEvents_append (h es : List PlaybackEvent) :
    outputEvents (h ++ es) = outputEvents h ++ outputEvents es := List.filterMap_append

@[simp] theorem mixerEvents_append (h es : List PlaybackEvent) :
    mixerEvents (h ++ es) = mixerEvents h ++ mixerEvents es := List.filterMap_append

@[simp] theorem outputEvents_output (es : List OutputEvent) : outputEvents (es.map .output) = es := by
  rw [outputEvents, List.filterMap_map]
  exact List.filterMap_some

@[simp] theorem outputEvents_mixer (es : List (MixerEvent Unit)) : outputEvents (es.map .mixer) = [] := by
  rw [outputEvents, List.filterMap_map]
  exact List.filterMap_eq_nil_iff.mpr fun _ _ => rfl

@[simp] theorem mixerEvents_mixer (es : List (MixerEvent Unit)) : mixerEvents (es.map .mixer) = es := by
  rw [mixerEvents, List.filterMap_map]
  exact List.filterMap_some

@[simp] theorem mixerEvents_output (es : List OutputEvent) : mixerEvents (es.map .output) = [] := by
  rw [mixerEvents, List.filterMap_map]
  exact List.filterMap_eq_nil_iff.mpr fun _ _ => rfl

theorem storedFrames_append (h es : List OutputEvent) : storedFrames (h ++ es) = storedFrames h ++ storedFrames es :=
  List.flatMap_append

theorem returnedFrames_append (h es : List OutputEvent) :
    returnedFrames (h ++ es) = returnedFrames h ++ returnedFrames es := List.flatMap_append

/-- Events without a store or a return. -/
theorem silent_frames {es : List OutputEvent} (h : ∀ frames c, OutputEvent.stored frames ∉ es ∧ OutputEvent.returned c ∉ es) :
    storedFrames es = [] ∧ returnedFrames es = [] := by
  constructor
  · refine List.flatMap_eq_nil_iff.mpr fun e he => ?_
    cases e with
    | stored frames => exact absurd he (h frames ⟨fun _ => 0, 0, 0, 0⟩).1
    | returned c => rfl
    | muted frames => rfl
    | position frames now => rfl
  · refine List.flatMap_eq_nil_iff.mpr fun e he => ?_
    cases e with
    | stored frames => rfl
    | returned c => exact absurd he (h [] c).2
    | muted frames => rfl
    | position frames now => rfl

/-- The worker between two turns: no restart, no call of the mixer, and a PCM of the stream's period. -/
structure WorkerIdle (pcm : PcmConfig) (mixer : MixerSystem Unit) (w : WorkerLocals) : Prop where
  restart : w.restart = false
  mixer : mixer.writers () = none
  period : ∀ p, w.extPcm = some p → p.bufferFrames = toInt pcm.periodSize.toNat

/-- The worker with a period it has read. -/
structure WorkerPlaying (pcm : PcmConfig) (w : WorkerLocals) (frames : Int) : Prop where
  restart : w.restart = false
  period : ∃ p, w.extPcm = some p ∧ p.bufferFrames = toInt pcm.periodSize.toNat
  frames : ∃ k : Nat, frames = k ∧ k * 4 ≤ intMax

def WorkerSound (pcm : PcmConfig) (mixer : MixerSystem Unit) : WorkerPc → Prop
  | .top w => WorkerIdle pcm mixer w
  | .standbyWait w _ => WorkerIdle pcm mixer w
  | .emptyWait w _ => WorkerIdle pcm mixer w
  | .playing w frames => WorkerPlaying pcm w frames
  | .terminated => False

/-- The worker has not left its first standby. -/
def FirstStandby (pc : WorkerPc) : Prop :=
  pc = .top ⟨none, false⟩ ∨ ∃ woken, pc = .standbyWait ⟨none, false⟩ woken

/-- The invariant of the runs in which nothing is lost. -/
structure Lossless (req : AudioConfig) (pcm : PcmConfig) (events : List PlaybackEvent) (s : PlaybackSystem) :
    Prop where
  consistent : Consistent req pcm s.output
  conserves : Conserves (mixerEvents events) s.mixer
  single : ∀ consumed block, MixerEvent.mixed consumed block ∈ mixerEvents events → consumed.length ≤ 1
  unclosed : s.output.out.workerExit = false
  awake : ∀ closing, s.output.clients 0 ≠ .standbySleeping closing
  resting : s.output.out.workerStandby = true → FirstStandby s.output.worker
  worker : WorkerSound pcm s.mixer s.output.worker
  calls : storedFrames (outputEvents events) = returnedFrames (outputEvents events) ++ s.waitingFrames
  accounted : writtenTo () (mixerEvents events) s.mixer ++ s.restOfPeriod ++ samples s.output.out.buffer.stored =
    samples (storedFrames (outputEvents events))

theorem WorkerSound.signal {pcm : PcmConfig} {mixer : MixerSystem Unit} {pc : WorkerPc}
    (h : WorkerSound pcm mixer pc) : WorkerSound pcm mixer pc.signal := by
  cases pc <;> exact h

theorem FirstStandby.signal {pc : WorkerPc} (h : FirstStandby pc) : FirstStandby pc.signal := by
  rcases h with rfl | ⟨woken, rfl⟩
  · exact Or.inl rfl
  · exact Or.inr ⟨true, rfl⟩

/-- The rest of the period depends on the worker and the mixer only, and a signal does not change it. -/
theorem restOfPeriod_signal {s t : PlaybackSystem} (hmixer : t.mixer = s.mixer)
    (hworker : t.output.worker = s.output.worker ∨ t.output.worker = s.output.worker.signal) :
    t.restOfPeriod = s.restOfPeriod := by
  unfold PlaybackSystem.restOfPeriod
  rcases hworker with hsame | hsignal
  · rw [hsame, hmixer]
  · rw [hsignal, hmixer]
    cases s.output.worker <;> rfl

theorem waitingFrames_of_ne {s : PlaybackSystem} (h : ∀ c woken, s.output.clients 0 ≠ .writeWaiting c woken) :
    s.waitingFrames = [] := by
  unfold PlaybackSystem.waitingFrames
  split
  · rename_i c woken hpc
    exact absurd hpc (h c woken)
  · rfl

theorem waitingFrames_of_waiting {s : PlaybackSystem} {c : WriteCall} {woken : Bool}
    (h : s.output.clients 0 = .writeWaiting c woken) : s.waitingFrames = records c.buffer 4 0 c.framesWritten := by
  rw [PlaybackSystem.waitingFrames, h]

/-! ### Sections of the client -/

section Steps

variable {req : AudioConfig} {pcm : PcmConfig} {events : List PlaybackEvent} {s : PlaybackSystem}

/-- A section of the client that stores `new` keeps the invariant when the calls account for `new`. -/
theorem Lossless.client (h : Lossless req pcm events s) {r : Section ClientPc} {new : List (List UInt8)}
    (hconsistent : Consistent req pcm { s.output with
      out := r.out
      clients := Function.update s.output.clients 0 r.pc
      worker := if r.signals then s.output.worker.signal else s.output.worker })
    (hexit : r.out.workerExit = s.output.out.workerExit)
    (hstandby : r.out.workerStandby = true → s.output.out.workerStandby = true)
    (hawake : ∀ closing, r.pc ≠ .standbySleeping closing) (hnew : storedFrames r.events = new)
    (hbuffer : r.out.buffer.stored = s.output.out.buffer.stored ++ new)
    (hcalls : s.waitingFrames ++ new = returnedFrames r.events ++ PlaybackSystem.waitingFrames
      ⟨{ s.output with
         out := r.out
         clients := Function.update s.output.clients 0 r.pc
         worker := if r.signals then s.output.worker.signal else s.output.worker }, s.mixer⟩) :
    Lossless req pcm (events ++ r.events.map .output)
      ⟨{ s.output with
         out := r.out
         clients := Function.update s.output.clients 0 r.pc
         worker := if r.signals then s.output.worker.signal else s.output.worker }, s.mixer⟩ := by
  have hworker : (if r.signals then s.output.worker.signal else s.output.worker) = s.output.worker ∨
      (if r.signals then s.output.worker.signal else s.output.worker) = s.output.worker.signal := by
    by_cases hsignals : r.signals
    · exact Or.inr (if_pos hsignals)
    · exact Or.inl (if_neg hsignals)
  have hmixer : mixerEvents (events ++ r.events.map .output) = mixerEvents events := by
    rw [mixerEvents_append, mixerEvents_output, List.append_nil]
  have houtput : outputEvents (events ++ r.events.map .output) = outputEvents events ++ r.events := by
    rw [outputEvents_append, outputEvents_output]
  refine ⟨hconsistent, ?_, ?_, hexit.trans h.unclosed, ?_, ?_, ?_, ?_, ?_⟩
  · rw [hmixer]
    exact h.conserves
  · rw [hmixer]
    exact h.single
  · intro closing hpc
    simp only [Function.update_self] at hpc
    exact hawake closing hpc
  · intro hraised
    have hfirst := h.resting (hstandby hraised)
    rcases hworker with hsame | hsignal
    · exact hsame.symm ▸ hfirst
    · exact hsignal.symm ▸ hfirst.signal
  · rcases hworker with hsame | hsignal
    · exact hsame.symm ▸ h.worker
    · exact hsignal.symm ▸ h.worker.signal
  · rw [houtput, storedFrames_append, returnedFrames_append, h.calls, hnew, List.append_assoc, hcalls,
      List.append_assoc]
  · have hrest := restOfPeriod_signal (s := s) (t := ⟨{ s.output with
        out := r.out
        clients := Function.update s.output.clients 0 r.pc
        worker := if r.signals then s.output.worker.signal else s.output.worker }, s.mixer⟩) rfl hworker
    rw [hmixer, houtput, hrest, storedFrames_append, samples_append, hnew, ← h.accounted]
    dsimp only
    rw [hbuffer, samples_append, ← List.append_assoc]

/-- The labels of clients that only write and ask for positions, unmuted. -/
def Unmuted : ClientLabel → Prop
  | .write _ _ _ env => env.muted = false
  | .writeSlept env => env.muted = false
  | .standby _ _ => False
  | _ => True

/-- The rest of a call begins with its next frames. -/
theorem records_rest {c : WriteCall} (hlt : c.framesWritten * 4 < 2 ^ 64) (count : Nat) :
    records (c.rest 4) 4 0 count = records c.buffer 4 c.framesWritten count := by
  refine List.map_congr_left fun j _ => slice_congr fun b _ => ?_
  simp only [WriteCall.rest, sizeMul_of_lt hlt]
  exact congrArg c.buffer (by omega)

theorem storedFrames_of_outcome {c : WriteCall} {entered : GenericStreamOut} {r : Section ClientPc} {written : Nat}
    (hsize : audioStreamOutFrameSize entered = 4) (outcome : StoreOutcome entered c r written) :
    storedFrames r.events = records c.buffer 4 c.framesWritten written := by
  rcases outcome.leaves with ⟨-, -, hevents⟩ | ⟨-, -, hevents⟩
  · rw [hevents, hsize]
    exact List.append_nil _
  · rw [hevents, hsize]
    exact List.append_nil _

/-- A call that has stored its next frames accounts for them, whether it waits or returns. -/
theorem stored_accounted {c : WriteCall} {l : ClientLabel} {entered : GenericStreamOut} {r : Section ClientPc}
    {written : Nat} {t : PlaybackSystem} (hsize : audioStreamOutFrameSize entered = 4)
    (hcall : storeCall s.output.out (s.output.clients 0) l = some (entered, c)) (hframes : c.frames = c.bytes / 4)
    (outcome : StoreOutcome entered c r written) (hafter : t.output.clients 0 = r.pc) :
    s.waitingFrames ++ records c.buffer 4 c.framesWritten written = returnedFrames r.events ++ t.waitingFrames := by
  have hbefore : s.waitingFrames = records c.buffer 4 0 c.framesWritten := by
    rcases storeCall_start hcall with hpc | ⟨hfresh, hpc⟩
    · exact waitingFrames_of_waiting hpc
    · rw [waitingFrames_of_ne hpc, hfresh]
      rfl
  have htotal : records c.buffer 4 0 c.framesWritten ++ records c.buffer 4 c.framesWritten written =
      records c.buffer 4 0 (c.framesWritten + written) := by rw [records_add, Nat.zero_add]
  rw [hbefore, htotal]
  rcases outcome.leaves with ⟨hlt, hpc, hevents⟩ | ⟨hdone, hpc, hevents⟩
  · rw [hsize] at hevents
    rw [hevents]
    refine Eq.symm ((List.nil_append _).trans ?_)
    exact @waitingFrames_of_waiting t { c with framesWritten := c.framesWritten + written } false (hafter.trans hpc)
  · rw [hsize] at hevents
    have hidle : ∀ c' woken, t.output.clients 0 ≠ .writeWaiting c' woken := by
      intro c' woken hwaits
      cases hpc.symm.trans (hafter.symm.trans hwaits)
    rw [hevents, hdone, waitingFrames_of_ne hidle, hframes, List.append_nil]
    exact (List.append_nil _).symm

theorem lossless_client (h : Lossless req pcm events s) (hsize : req.frameSize = 4) {i : Fin 1} {l : ClientLabel}
    {t : OutputSystem 1} {es : List OutputEvent} (hplays : Unmuted l)
    (hstep : clientStep s.output i l = some (t, es)) :
    Lossless req pcm (events ++ es.map .output) ⟨t, s.mixer⟩ := by
  have hconsistent := consistent_client h.consistent hstep
  have hi : i = 0 := Fin.fin_one_eq_zero i
  subst hi
  rw [clientStep, Option.map_eq_some_iff] at hstep
  obtain ⟨r, hsection, hpair⟩ := hstep
  cases hpair
  -- no client is on its way into standby
  have hactive : ∀ closing, ¬ ((∃ now, l = .standby closing now) ∨ s.output.clients 0 = .standbySleeping closing) := by
    rintro closing (⟨now, rfl⟩ | hpc)
    · exact hplays
    · exact h.awake closing hpc
  have hafter : Function.update s.output.clients 0 r.pc 0 = r.pc := Function.update_self 0 r.pc s.output.clients
  cases clientSection_effect hsection with
  | quiet view standby signals waiting keeps sleeping silent request =>
      obtain ⟨hstored, hreturned⟩ := silent_frames silent
      refine h.client hconsistent view.workerExit standby (fun closing hpc => hactive closing (sleeping closing hpc))
        hstored ?_ ?_
      · rw [view.buffer, List.append_nil]
      · rw [hreturned, List.append_nil, List.nil_append]
        by_cases hwaits : ∃ c woken, s.output.clients 0 = .writeWaiting c woken
        · obtain ⟨c, woken, hpc⟩ := hwaits
          rw [waitingFrames_of_waiting hpc]
          exact Eq.symm (waitingFrames_of_waiting (hafter.trans (keeps c woken hpc)))
        · have hbefore : ∀ c woken, s.output.clients 0 ≠ .writeWaiting c woken :=
            fun c woken hpc => hwaits ⟨c, woken, hpc⟩
          rw [waitingFrames_of_ne hbefore, waitingFrames_of_ne]
          intro c woken hpc
          exact hbefore c false (waiting c woken (hafter.symm.trans hpc)).2
  | store entered c call view standby loop =>
      obtain ⟨written, outcome⟩ := h.consistent.store call view loop
      have hsound := h.consistent.storeCall_sound call
      have hclient : audioStreamOutFrameSize entered = 4 := by
        rw [audioStreamOutFrameSize, view.reqConfig, h.consistent.reqConfig, hsize]
      have hrest : records (c.rest 4) 4 0 written = records c.buffer 4 c.framesWritten written := by
        have hframes := hsound.frames_lt
        have hle := hsound.written_le
        exact records_rest (by omega) written
      have hbuffer : r.out.buffer.stored =
          s.output.out.buffer.stored ++ records c.buffer 4 c.framesWritten written := by
        rw [outcome.stored, hclient, hrest, view.buffer]
      have hexit := outcome.workerExit.trans view.workerExit
      have hstandby : r.out.workerStandby = true → s.output.out.workerStandby = true :=
        fun hraised => standby (outcome.workerStandby ▸ hraised)
      have hawake : ∀ closing, r.pc ≠ .standbySleeping closing := by
        rcases outcome.leaves with ⟨-, hpc, -⟩ | ⟨-, hpc, -⟩ <;> (rw [hpc]; simp)
      exact h.client hconsistent hexit hstandby hawake (storedFrames_of_outcome hclient outcome) hbuffer
        (stored_accounted hclient call (hsize ▸ hsound.frames_eq) outcome hafter)
  | request closing asks raised view result => exact absurd (requests_source asks) (hactive closing)

/-! ### Sections of the worker -/

/-- What one label of the output stream does to the whole system. -/
theorem playbackStep_output {l : OutputLabel 1} {t : PlaybackSystem} {es : List PlaybackEvent}
    (hstep : playbackStep s (.output l) = some (t, es)) :
    ∃ o eo, outputStep s.output l = some (o, eo) ∧ es = eo.map .output ∧
      t = ⟨o, if closesPcm s.output.worker o.worker then .init else s.mixer⟩ ∧
      ((∃ env wake, l = .worker env wake) → ∀ w frames, s.output.worker ≠ .playing w frames) := by
  unfold playbackStep at hstep
  dsimp only at hstep
  split at hstep
  · cases hstep
  · rename_i hidle
    obtain ⟨r, hout, hpair⟩ := Option.map_eq_some_iff.mp hstep
    cases hpair
    refine ⟨r.1, r.2, hout, rfl, rfl, ?_⟩
    rintro ⟨env, wake, rfl⟩ w frames hplaying
    exact hidle env wake w frames rfl hplaying

theorem restOfPeriod_of_ne {s : PlaybackSystem} (h : ∀ w frames, s.output.worker ≠ .playing w frames) :
    s.restOfPeriod = [] := by
  unfold PlaybackSystem.restOfPeriod
  split
  · rename_i w frames hpc
    exact absurd hpc (h w frames)
  · rfl

/-- Between its turns the worker can only move on. -/
theorem Lossless.moves (h : Lossless req pcm events s) {pc : WorkerPc} {freed : Bool}
    (hbefore : ∀ w frames, s.output.worker ≠ .playing w frames) (hafter : ∀ w frames, pc ≠ .playing w frames)
    (hresting : s.output.out.workerStandby = true → FirstStandby pc) (hworker : WorkerSound pcm s.mixer pc) :
    Lossless req pcm events ⟨{ s.output with worker := pc, freed := freed }, s.mixer⟩ := by
  have hrest : PlaybackSystem.restOfPeriod ⟨{ s.output with worker := pc, freed := freed }, s.mixer⟩ = s.restOfPeriod :=
    (restOfPeriod_of_ne hafter).trans (restOfPeriod_of_ne hbefore).symm
  refine ⟨⟨h.consistent.usable, h.consistent.capacity, h.consistent.reqConfig, h.consistent.pcmConfig,
    h.consistent.calls⟩, h.conserves, h.single, h.unclosed, h.awake, hresting, hworker, h.calls, ?_⟩
  rw [hrest]
  exact h.accounted

/-- A signal to the writers leaves what they have stored. -/
theorem waitingFrames_signalWriter {clients : Fin 1 → ClientPc} {wake : Option (Fin 1)} {o : OutputSystem 1}
    {mixer : MixerSystem Unit} (hsignal : signalWriter s.output.clients wake = some clients) (ho : o.clients = clients) :
    PlaybackSystem.waitingFrames ⟨o, mixer⟩ = s.waitingFrames := by
  have hclients : (PlaybackSystem.output ⟨o, mixer⟩).clients 0 = clients 0 := congrFun ho 0
  rcases signalWriter_calls hsignal 0 with hsame | ⟨c, hblocked, hwoken⟩
  · unfold PlaybackSystem.waitingFrames
    rw [hclients, hsame]
  · rw [waitingFrames_of_waiting hblocked, waitingFrames_of_waiting (hclients.trans hwoken)]

/-- The environment of a section of the worker in which nothing fails. -/
def Supplied (env : WorkerEnv) : Prop := env.ready = true ∧ ∀ size, (env.malloc size).isSome

/-- With everything supplied the worker has a PCM for its next read. -/
theorem openPcm_supplied {w : WorkerLocals} {env : WorkerEnv} (henv : Supplied env) :
    ∃ p, openPcm s.output.out w env = some p := by
  rw [openPcm]
  cases w.extPcm with
  | some p => exact ⟨p, rfl⟩
  | none =>
      dsimp only
      rw [if_pos henv.1]
      obtain ⟨memory, hmemory⟩ := Option.isSome_iff_exists.mp
        (henv.2 (toSize (toInt (s.output.out.pcmConfig.framesToBytes
          (toUint (toInt s.output.out.pcmConfig.periodSize.toNat)) : Nat))))
      rw [hmemory]
      exact ⟨_, rfl⟩

/-- The PCM of an idle worker has the stream's period, whether it was open or is opened now. -/
theorem openPcm_period (h : Lossless req pcm events s) {w : WorkerLocals} {env : WorkerEnv} {p : OpenPcm}
    (hidle : WorkerIdle pcm s.mixer w) (hopened : openPcm s.output.out w env = some p) :
    p.bufferFrames = toInt pcm.periodSize.toNat := by
  rw [openPcm] at hopened
  split at hopened
  · rename_i q hopen
    rw [← Option.some.inj hopened]
    exact hidle.period q hopen
  · split at hopened
    · obtain ⟨memory, -, rfl⟩ := Option.map_eq_some_iff.mp hopened
      rw [← h.consistent.pcmConfig]
    · cases hopened

/-- A worker that comes to its test for data is awake and idle. -/
theorem Lossless.reached (h : Lossless req pcm events s) {w : WorkerLocals}
    (hreached : ReachesData s.output.out s.output.worker w) :
    s.output.out.workerStandby = false ∧ WorkerIdle pcm s.mixer w := by
  have hsound := h.worker
  rcases hreached with hpc | ⟨hpc | hpc, -, hstandby, -⟩
  · rw [hpc] at hsound
    refine ⟨?_, hsound⟩
    by_contra hraised
    rcases h.resting (by simpa using hraised) with hfirst | ⟨woken, hfirst⟩ <;> cases hpc.symm.trans hfirst
  · rw [hpc] at hsound
    exact ⟨hstandby, hsound⟩
  · rw [hpc] at hsound
    exact ⟨hstandby, hsound⟩

/-- A read takes the period out of the ring buffer. -/
theorem Lossless.reads (h : Lossless req pcm events s) (hperiod : pcm.periodSize.toNat * 4 ≤ intMax)
    {w : WorkerLocals} {p : OpenPcm} {env : WorkerEnv} {buffer : AudioVbuffer} {memory : Nat → UInt8} {count : Nat}
    {clients : Fin 1 → ClientPc} {wake : Option (Fin 1)} (hidle : WorkerIdle pcm s.mixer w)
    (hopened : openPcm s.output.out w env = some p)
    (hread : audioVbufferRead s.output.out.buffer p.memory (toSize p.bufferFrames) = some (buffer, memory, count))
    (hawake : s.output.out.workerStandby = false) (hbefore : ∀ w frames, s.output.worker ≠ .playing w frames)
    (hsignal : signalWriter s.output.clients wake = some clients)
    (hconsistent : Consistent req pcm ({ s.output with
      out := { s.output.out with buffer := buffer }
      clients := clients
      worker := .playing { w with extPcm := some { p with memory := memory } } (toInt (count : Nat)) } : OutputSystem 1)) :
    Lossless req pcm events ⟨{ s.output with
      out := { s.output.out with buffer := buffer }
      clients := clients
      worker := .playing { w with extPcm := some { p with memory := memory } } (toInt (count : Nat)) }, s.mixer⟩ := by
  have hframes := openPcm_period h hidle hopened
  have hsmall : pcm.periodSize.toNat ≤ intMax := le_trans (Nat.le_mul_of_pos_right _ (by decide)) hperiod
  have hasked : toSize p.bufferFrames = pcm.periodSize.toNat := by
    rw [hframes, toInt_of_le hsmall, toSize_natCast (lt_of_le_of_lt hsmall (by decide))]
  rw [hasked] at hread
  obtain ⟨-, -, hcount, hstored⟩ := h.consistent.usable.read_spec (lt_of_le_of_lt hsmall (by decide)) hread
  have hle : count * 4 ≤ intMax := by omega
  have hcast : toInt (count : Nat) = (count : Int) := toInt_of_le (le_trans (Nat.le_mul_of_pos_right _ (by decide)) hle)
  have hrest : ∀ o : OutputSystem 1,
      o.worker = .playing { w with extPcm := some { p with memory := memory } } (toInt (count : Nat)) →
      PlaybackSystem.restOfPeriod ⟨o, s.mixer⟩ = samples (records memory 4 0 count) := by
    intro o ho
    rw [PlaybackSystem.restOfPeriod, ho, hcast, hidle.mixer, samples_records]
    rfl
  refine ⟨hconsistent, h.conserves, h.single, h.unclosed, ?_, ?_, ?_, ?_, ?_⟩
  · intro closing hpc
    rcases signalWriter_calls hsignal 0 with hsame | ⟨c, -, hwoken⟩
    · exact h.awake closing (hsame.symm.trans hpc)
    · cases hwoken.symm.trans hpc
  · intro hraised
    exact absurd (hawake.symm.trans hraised) Bool.false_ne_true
  · exact ⟨hidle.restart, ⟨_, rfl, hframes⟩, count, hcast, hle⟩
  · rw [waitingFrames_signalWriter hsignal rfl]
    exact h.calls
  · have haccounted := h.accounted
    rw [restOfPeriod_of_ne hbefore, List.append_nil, hstored, samples_append, ← List.append_assoc] at haccounted
    rw [hrest _ rfl]
    exact haccounted

theorem lossless_worker (h : Lossless req pcm events s) (hperiod : pcm.periodSize.toNat * 4 ≤ intMax)
    {env : WorkerEnv} {wake : Option (Fin 1)} {t : PlaybackSystem} {es : List PlaybackEvent} (henv : Supplied env)
    (hstep : playbackStep s (.output (.worker env wake)) = some (t, es)) : Lossless req pcm (events ++ es) t := by
  obtain ⟨o, eo, hout, rfl, rfl, hidle⟩ := playbackStep_output hstep
  have hconsistent := consistent_step s.output _ o eo h.consistent hout
  have hbefore := hidle ⟨env, wake, rfl⟩
  unfold outputStep at hout
  split at hout
  · cases hout
  dsimp only at hout
  rw [workerStep] at hout
  split at hout
  · cases hout
  rename_i r hsection
  -- a section without a signal only moves the worker on
  have hmoves : ∀ pc, r = ⟨s.output.out, pc, false, []⟩ → (∀ w frames, pc ≠ .playing w frames) →
      closesPcm s.output.worker pc = false → (s.output.out.workerStandby = true → FirstStandby pc) →
      WorkerSound pcm s.mixer pc →
      Lossless req pcm (events ++ eo.map .output)
        ⟨o, if closesPcm s.output.worker o.worker then .init else s.mixer⟩ := by
    intro pc hresult hafter hcloses hresting hworker
    rw [hresult] at hout
    cases hout
    dsimp only
    rw [hcloses, List.map_nil, List.append_nil]
    exact h.moves hbefore hafter hresting hworker
  cases workerSection_effect hsection with
  | exits result exit => exact absurd (h.unclosed.symm.trans exit) Bool.false_ne_true
  | fails w result error data reached =>
      obtain ⟨p, hopened⟩ := openPcm_supplied henv (s := s) (w := w)
      cases hopened.symm.trans error
  | rests result exit asked =>
      have hfirst : FirstStandby s.output.worker := by
        rcases asked with hraised | ⟨w, hpc, hrestart⟩
        · exact h.resting hraised
        · have hsound := h.worker
          have hidle : WorkerIdle pcm s.mixer w := by
            rcases hpc with hpc | hpc <;> rw [hpc] at hsound <;> exact hsound
          exact absurd (hidle.restart.symm.trans hrestart) Bool.false_ne_true
      have hmixer : s.mixer.writers () = none := by
        have hsound := h.worker
        rcases hfirst with hpc | ⟨woken, hpc⟩ <;> rw [hpc] at hsound <;> exact hsound.mixer
      refine hmoves _ result (by simp) ?_ (fun _ => Or.inr ⟨false, rfl⟩) ⟨rfl, hmixer, by simp⟩
      rcases hfirst with hpc | ⟨woken, hpc⟩ <;> rw [hpc] <;> rfl
  | starves w result empty reached =>
      obtain ⟨hawake, hidle⟩ := h.reached reached
      refine hmoves _ result (by simp) ?_ (fun hraised => absurd (hawake.symm.trans hraised) Bool.false_ne_true) hidle
      rcases reached with hpc | ⟨hpc | hpc, -⟩ <;> rw [hpc] <;> rfl
  | plays w frames playing result => exact absurd playing (hbefore w frames)
  | reads w p opened data buffer memory count read result reached =>
      obtain ⟨hawake, hidle⟩ := h.reached reached
      rw [result] at hout
      simp only [if_true, Option.map_eq_some_iff] at hout
      obtain ⟨clients, hsignal, hpair⟩ := hout
      cases hpair
      have hcloses : closesPcm s.output.worker
          (.playing { w with extPcm := some { p with memory := memory } } (toInt (count : Nat))) = false := by
        rcases reached with hpc | ⟨hpc | hpc, -⟩ <;> rw [hpc] <;> rfl
      dsimp only
      rw [hcloses, List.map_nil, List.append_nil]
      exact h.reads hperiod hidle opened read hawake hbefore hsignal hconsistent

/-! ### Sections of the mixer -/

/-- The turn that ends without an error. -/
theorem workerPlayed_eq {w : WorkerLocals} {frames : Int} {mixer : MixerSystem Unit} {es es' : List PlaybackEvent}
    {t : PlaybackSystem} (hplaying : s.output.worker = .playing w frames)
    (hplayed : workerPlayed s mixer true es = some (t, es')) :
    t = ⟨{ s.output with worker := .top w }, mixer⟩ ∧ es' = es := by
  obtain ⟨r, hout, hpair⟩ := Option.map_eq_some_iff.mp hplayed
  cases hpair
  unfold outputStep at hout
  split at hout
  · cases hout
  · simp only [workerStep, hplaying, workerSection, Bool.and_false, Bool.or_false, Bool.false_eq_true, if_false,
      Option.some_inj] at hout
    rw [← hout]
    exact ⟨rfl, List.append_nil _⟩

/-- A section of `mixer_pipeline_write` has no turn of the mixer. -/
theorem after_not_mixed {m m' : MixerSystem Unit} {w : PipelineWrite} {chunk : ExtPcm Unit × Option PipelineWrite}
    {es : List (MixerEvent Unit)} (hafter : m.after () w chunk = (m', es)) {consumed : List (Unit × List Int16)}
    {block : Option (List Int16)} : MixerEvent.mixed consumed block ∉ es := by
  rw [MixerSystem.after] at hafter
  cases hafter
  split
  · simp
  · exact List.not_mem_nil

/-- A section of the worker's `mixer_pipeline_write`, after which the call waits or the turn ends. -/
theorem Lossless.forward (h : Lossless req pcm events s) {w : WorkerLocals} {frames : Int} {m : MixerSystem Unit}
    {es : List (MixerEvent Unit)} {t : PlaybackSystem} {es' : List PlaybackEvent}
    (hplaying : s.output.worker = .playing w frames) (hconserves : Conserves (mixerEvents events ++ es) m)
    (hsilent : ∀ consumed block, MixerEvent.mixed consumed block ∉ es)
    (haccounted : writtenTo () (mixerEvents events ++ es) m ++ restOfCall m =
      writtenTo () (mixerEvents events) s.mixer ++ s.restOfPeriod)
    (hafter : afterForward s (m, es) = some (t, es')) : Lossless req pcm (events ++ es') t := by
  have hsound : WorkerPlaying pcm w frames := by
    have hworker := h.worker
    rwa [hplaying] at hworker
  have hmixer : mixerEvents (events ++ es.map .mixer) = mixerEvents events ++ es := by
    rw [mixerEvents_append, mixerEvents_mixer]
  have houtput : outputEvents (events ++ es.map .mixer) = outputEvents events := by
    rw [outputEvents_append, outputEvents_mixer, List.append_nil]
  have hsingle : ∀ consumed block, MixerEvent.mixed consumed block ∈ mixerEvents events ++ es → consumed.length ≤ 1 := by
    intro consumed block hmem
    rcases List.mem_append.mp hmem with hbefore | hnow
    · exact h.single consumed block hbefore
    · exact absurd hnow (hsilent consumed block)
  have htotal := h.accounted
  rw [← haccounted] at htotal
  unfold afterForward at hafter
  split at hafter
  · rename_i hwaits
    obtain ⟨call, hcall⟩ := Option.isSome_iff_exists.mp hwaits
    have hcall : m.writers () = some call := hcall
    cases hafter
    have hrest : PlaybackSystem.restOfPeriod ⟨s.output, m⟩ = restOfCall m := by
      simp only [PlaybackSystem.restOfPeriod, hplaying, restOfCall, hcall]
    refine ⟨h.consistent, ?_, ?_, h.unclosed, h.awake, h.resting, ?_, ?_, ?_⟩
    · rw [hmixer]
      exact hconserves
    · rw [hmixer]
      exact hsingle
    · dsimp only
      rw [hplaying]
      exact hsound
    · rw [houtput]
      exact h.calls
    · rw [hmixer, houtput, hrest]
      exact htotal
  · rename_i hdone
    have hnone : m.writers () = none := by simpa using hdone
    obtain ⟨rfl, rfl⟩ := workerPlayed_eq hplaying hafter
    have hrest : PlaybackSystem.restOfPeriod ⟨{ s.output with worker := .top w }, m⟩ = restOfCall m := by
      simp only [PlaybackSystem.restOfPeriod, restOfCall, hnone]
    refine ⟨⟨h.consistent.usable, h.consistent.capacity, h.consistent.reqConfig, h.consistent.pcmConfig,
      h.consistent.calls⟩, ?_, ?_, h.unclosed, h.awake, ?_, ?_, ?_, ?_⟩
    · rw [hmixer]
      exact hconserves
    · rw [hmixer]
      exact hsingle
    · intro hraised
      rcases h.resting hraised with hfirst | ⟨woken, hfirst⟩ <;> cases hplaying.symm.trans hfirst
    · obtain ⟨p, hopen, hframes⟩ := hsound.period
      refine ⟨hsound.restart, hnone, fun q hq => ?_⟩
      cases hopen.symm.trans hq
      exact hframes
    · rw [houtput]
      exact h.calls
    · rw [hmixer, houtput, hrest]
      exact htotal

/-- The bytes of a period the worker has read, and the label of its call of the mixer. -/
theorem forwardLabel_eq (h : Lossless req pcm events s) (hbytes : ∀ k, pcm.framesToBytes k = k * 4 % uintMod) {w : WorkerLocals}
    {p : OpenPcm} {frames : Int} (hsound : WorkerPlaying pcm w frames) :
    ∃ count : UInt32, forwardLabel s.output.out p frames = .write () p.memory count ∧ count.toNat = frames.toNat * 4 := by
  obtain ⟨k, rfl, hshort⟩ := hsound.frames
  have hk : toUint (k : Int) = k := by
    simp only [toUint, uintMod, intMax] at *
    omega
  have hlt : k * 4 < 2 ^ 32 := lt_of_le_of_lt hshort (by decide)
  refine ⟨_, rfl, ?_⟩
  rw [h.consistent.pcmConfig, hbytes, hk, uintMod, Nat.mod_eq_of_lt hlt, UInt32.toNat_ofNat', Nat.mod_eq_of_lt hlt,
    Int.toNat_natCast]

theorem lossless_play (h : Lossless req pcm events s) (hbytes : ∀ k, pcm.framesToBytes k = k * 4 % uintMod)
    {t : PlaybackSystem} {es : List PlaybackEvent} (hstep : playbackStep s (.play true) = some (t, es)) :
    Lossless req pcm (events ++ es) t := by
  unfold playbackStep at hstep
  dsimp only at hstep
  split at hstep
  · rename_i w frames hplaying
    have hsound : WorkerPlaying pcm w frames := by
      have hworker := h.worker
      rwa [hplaying] at hworker
    obtain ⟨p, hopen, -⟩ := hsound.period
    simp only [if_true, hopen, Option.bind_eq_some_iff] at hstep
    obtain ⟨⟨m, ms⟩, hwrite, hafter⟩ := hstep
    obtain ⟨count, hlabel, hcount⟩ := forwardLabel_eq h hbytes (p := p) hsound
    rw [hlabel] at hwrite
    have hstereo : MixerLabel.Stereo (.write () p.memory count) := ⟨frames.toNat, by rw [hcount, Nat.mul_comm]⟩
    obtain ⟨hfree, haccounted⟩ := forward_accounted h.conserves hstereo hwrite
    refine h.forward hplaying (mixerStep_conserves _ _ _ _ _ h.conserves hstereo hwrite) ?_ ?_ hafter
    · intro consumed block hmem
      simp only [mixerStep, hfree, Option.some_inj] at hwrite
      exact after_not_mixed hwrite hmem
    · rw [haccounted, hcount]
      simp only [PlaybackSystem.restOfPeriod, hplaying, hfree, hopen]
      rw [show frames.toNat * 4 / 2 = 2 * frames.toNat by omega]
  · cases hstep

theorem lossless_resume (h : Lossless req pcm events s) {t : PlaybackSystem} {es : List PlaybackEvent}
    (hstep : playbackStep s .resume = some (t, es)) : Lossless req pcm (events ++ es) t := by
  unfold playbackStep at hstep
  dsimp only at hstep
  split at hstep
  · rename_i w frames hplaying
    obtain ⟨⟨m, ms⟩, hwrite, hafter⟩ := Option.bind_eq_some_iff.mp hstep
    have hstereo : MixerLabel.Stereo (.resume ()) := trivial
    have haccounted := forward_accounted h.conserves hstereo hwrite
    cases hwriter : s.mixer.writers () with
    | none => simp [mixerStep, hwriter] at hwrite
    | some call =>
        refine h.forward hplaying (mixerStep_conserves _ _ _ _ _ h.conserves hstereo hwrite) ?_ ?_ hafter
        · intro consumed block hmem
          cases hlookup : s.mixer.extPcm.mixerPipelineMap.lookup () with
          | none => simp [mixerStep, hwriter, hlookup] at hwrite
          | some p =>
              simp only [mixerStep, hwriter, hlookup, Option.some_inj] at hwrite
              exact after_not_mixed hwrite hmem
        · refine haccounted.trans ?_
          simp only [PlaybackSystem.restOfPeriod, hplaying, restOfCall, hwriter]
  · cases hstep

/-- A turn of the mixer leaves the worker's call where it is. -/
theorem lossless_turn (h : Lossless req pcm events s) {order : List Unit} {t : PlaybackSystem}
    {es : List PlaybackEvent} (hstep : playbackStep s (.turn order) = some (t, es)) :
    Lossless req pcm (events ++ es) t := by
  obtain ⟨⟨m, ms⟩, hturn, hpair⟩ := Option.map_eq_some_iff.mp hstep
  cases hpair
  have hstereo : MixerLabel.Stereo (.turn order) := trivial
  obtain ⟨hwritten, hwriters⟩ := forward_accounted h.conserves hstereo hturn
  have hmixer : mixerEvents (events ++ ms.map .mixer) = mixerEvents events ++ ms := by
    rw [mixerEvents_append, mixerEvents_mixer]
  have houtput : outputEvents (events ++ ms.map .mixer) = outputEvents events := by
    rw [outputEvents_append, outputEvents_mixer, List.append_nil]
  have hrest : PlaybackSystem.restOfPeriod ⟨s.output, m⟩ = s.restOfPeriod := by
    simp only [PlaybackSystem.restOfPeriod, hwriters]
  have hidle : ∀ w, WorkerIdle pcm s.mixer w → WorkerIdle pcm m w :=
    fun w hw => ⟨hw.restart, (congrFun hwriters ()).trans hw.mixer, hw.period⟩
  refine ⟨h.consistent, ?_, ?_, h.unclosed, h.awake, h.resting, ?_, ?_, ?_⟩
  · rw [hmixer]
    exact mixerStep_conserves _ _ _ _ _ h.conserves hstereo hturn
  · rw [hmixer]
    intro consumed block hmem
    rcases List.mem_append.mp hmem with hbefore | hnow
    · exact h.single consumed block hbefore
    · rw [mixerStep] at hturn
      split at hturn
      · rename_i horder
        cases hturn
        rw [List.mem_singleton] at hnow
        cases hnow
        rw [List.length_map]
        exact horder.1.length_le_card
      · cases hturn
  · have hworker := h.worker
    dsimp only
    cases hpc : s.output.worker with
    | top w => exact hidle w (by rwa [hpc] at hworker)
    | standbyWait w woken => exact hidle w (by rwa [hpc] at hworker)
    | emptyWait w woken => exact hidle w (by rwa [hpc] at hworker)
    | playing w frames => rwa [hpc] at hworker
    | terminated => rwa [hpc] at hworker
  · rw [houtput]
    exact h.calls
  · rw [hmixer, hwritten, houtput, hrest]
    exact h.accounted

/-! ### The run -/

/-- The labels of an unmuted playback in the selected zone, without standby and without failures. -/
def PlaybackLabel.Succeeds : PlaybackLabel → Prop
  | .output (.client _ l) => Unmuted l
  | .output (.worker env _) => Supplied env
  | .play selected => selected = true
  | _ => True

theorem lossless_step (hsize : req.frameSize = 4) (hperiod : pcm.periodSize.toNat * 4 ≤ intMax)
    (hbytes : ∀ k, pcm.framesToBytes k = k * 4 % uintMod) (events : List PlaybackEvent) (s : PlaybackSystem)
    (l : PlaybackLabel) (t : PlaybackSystem) (es : List PlaybackEvent) (h : Lossless req pcm events s)
    (hsucceeds : l.Succeeds) (hstep : playbackStep s l = some (t, es)) : Lossless req pcm (events ++ es) t := by
  cases l with
  | output l =>
      cases l with
      | client i l =>
          obtain ⟨o, eo, hout, rfl, rfl, -⟩ := playbackStep_output hstep
          unfold outputStep at hout
          split at hout
          · cases hout
          have hclient := lossless_client h hsize hsucceeds hout
          have hcloses : closesPcm s.output.worker o.worker = false := by
            obtain ⟨r, -, hpair⟩ := Option.map_eq_some_iff.mp hout
            have ho : _ = o := congrArg Prod.fst hpair
            rw [← ho]
            dsimp only
            split
            · exact closesPcm_signal _
            · exact closesPcm_self _
          rwa [hcloses]
      | worker env wake => exact lossless_worker h hperiod hsucceeds hstep
      | join i =>
          obtain ⟨o, eo, hout, rfl, rfl, -⟩ := playbackStep_output hstep
          unfold outputStep at hout
          split at hout
          · cases hout
          dsimp only at hout
          split at hout
          · rename_i hworker
            have hsound := h.worker
            rw [hworker] at hsound
            exact hsound.elim
          · cases hout
      | workerSpurious =>
          obtain ⟨o, eo, hout, rfl, rfl, -⟩ := playbackStep_output hstep
          have hsound := h.worker
          have hresting := h.resting
          unfold outputStep at hout
          split at hout
          · cases hout
          dsimp only at hout
          split at hout
          · rename_i w hworker
            cases hout
            rw [hworker] at hsound hresting ⊢
            rw [List.map_nil, List.append_nil]
            refine h.moves (by rw [hworker]; nofun) nofun (fun hraised => ?_) hsound
            rcases hresting hraised with hfirst | ⟨woken, hfirst⟩
            · cases hfirst
            · cases hfirst
              exact Or.inr ⟨true, rfl⟩
          · rename_i w hworker
            cases hout
            rw [hworker] at hsound hresting ⊢
            rw [List.map_nil, List.append_nil]
            refine h.moves (by rw [hworker]; nofun) nofun (fun hraised => ?_) hsound
            rcases hresting hraised with hfirst | ⟨woken, hfirst⟩ <;> cases hfirst
          · cases hout
  | play selected =>
      cases hsucceeds
      exact lossless_play h hbytes hstep
  | resume => exact lossless_resume h hstep
  | turn order => exact lossless_turn h hstep

end Steps

theorem Lossless.init {allocated : Bool} {calloc : Nat → Bool} {p : PeriodProperties} {config : AudioConfig}
    {out : GenericStreamOut} (hopen : adevOpenOutputStream allocated calloc p config = .ok out) :
    Lossless config (pcmConfigFor config.sampleRate p) [] (PlaybackSystem.init out) := by
  obtain ⟨-, -, hlive, hexit, hreq, hpcm, -⟩ := open_usable hopen
  have hconsistent := Consistent.init (n := 1) hopen
  rw [hreq, hpcm] at hconsistent
  have hstored : out.buffer.stored = [] :=
    List.eq_nil_of_length_eq_zero (by rw [AudioVbuffer.stored_length, hlive])
  refine ⟨hconsistent, Conserves.init, fun _ _ hmem => absurd hmem List.not_mem_nil, hexit, nofun,
    fun _ => Or.inl rfl, ⟨rfl, rfl, nofun⟩, rfl, ?_⟩
  change [] ++ [] ++ samples out.buffer.stored = []
  rw [hstored]
  rfl

/-- In every run of an open two-channel stream with one writer, unmuted and without standby or failures,
the device's samples, the pipeline, the rest of the worker's period and the ring buffer are what
`out_write` has stored, and its returned calls have stored all their frames. -/
theorem playback_lossless {allocated : Bool} {calloc : Nat → Bool} {p : PeriodProperties} {config : AudioConfig}
    {out : GenericStreamOut} {ls : List PlaybackLabel} {s : PlaybackSystem} {events : List PlaybackEvent}
    (hopen : adevOpenOutputStream allocated calloc p config = .ok out) (hstereo : popcount config.channelMask = 2)
    (hsucceeds : ∀ l ∈ ls, l.Succeeds) (hrun : exec playbackStep (.init out) ls = some (s, events)) :
    handedSamples (mixerEvents events) ++ s.mixer.content () ++ s.restOfPeriod ++ samples s.output.out.buffer.stored =
        samples (storedFrames (outputEvents events)) ∧
      storedFrames (outputEvents events) = returnedFrames (outputEvents events) ++ s.waitingFrames := by
  have hsize : config.frameSize = 4 := by rw [AudioConfig.frameSize, hstereo]
  have hlossless : Lossless config (pcmConfigFor config.sampleRate p) ([] ++ events) s :=
    exec_invariant_history _
      (lossless_step hsize (pcmConfigFor_periodSize _ p) (pcmConfigFor_framesToBytes _ p))
      (Lossless.init hopen) (guarded_of_labels hsucceeds _) hrun
  have hhanded := handed_eq_consumed hlossless.conserves.mixes hlossless.single
  rw [List.nil_append] at hhanded hlossless
  refine ⟨?_, hlossless.calls⟩
  rw [hhanded, hlossless.conserves.conserved ()]
  exact hlossless.accounted

/-- The worker rests, one frame is written, read and forwarded, and the mixer hands it on. -/
def oneFrameThrough : List PlaybackLabel :=
  [.output workerTurn, .output (.client (Fin.last 0) (.write (fun a => a.toUInt8) 4 0 ⟨false, fun _ x => x⟩)), .output workerTurn,
    .play true, .turn [()]]

theorem playback_lossless_one_frame :
    ∃ s events, exec playbackStep (.init eightFrames) oneFrameThrough = some (s, events) ∧
      handedSamples (mixerEvents events) ++ s.mixer.content () ++ s.restOfPeriod ++ samples s.output.out.buffer.stored =
        samples (storedFrames (outputEvents events)) ∧
      handedSamples (mixerEvents events) = [256, 770] := by
  have hsucceeds : ∀ l ∈ oneFrameThrough, l.Succeeds := by
    intro l hl
    simp only [oneFrameThrough, List.mem_cons, List.not_mem_nil, or_false] at hl
    rcases hl with rfl | rfl | rfl | rfl | rfl
    · exact ⟨rfl, fun _ => rfl⟩
    · exact rfl
    · exact ⟨rfl, fun _ => rfl⟩
    · exact rfl
    · trivial
  exact ⟨_, _, rfl, (playback_lossless open_eightFrames rfl hsucceeds rfl).1, rfl⟩

end Trout.Playback

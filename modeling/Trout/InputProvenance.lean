import Trout.InputSections

/-! Where the client's audio comes from. `in_read_worker` stores its buffer after every `pcm_read`, also
after one that failed. As long as nothing fits the ring buffer after a failure, every store takes the
block captured last, once, and the client gets a subsequence of what was captured. -/

namespace Trout.Audio
open CInt RingWindow Runs

/-! ### Blocks and stores -/

/-- The frames of the `pcm_read`s that returned 0. -/
def capturedFrames (events : List InputEvent) : List (List UInt8) :=
  events.flatMap fun
    | .captured frames => frames
    | _ => []

/-- The frames that entered the ring buffer. -/
def queuedFrames (events : List InputEvent) : List (List UInt8) :=
  events.flatMap fun
    | .stored frames => frames
    | _ => []

/-- Every store takes the first frames of the block captured last, and no block is stored twice. -/
def StoresCaptured : List (List UInt8) → List InputEvent → Prop
  | _, [] => True
  | _, .captured block :: events => StoresCaptured block events
  | block, .stored frames :: events => frames <+: block ∧ StoresCaptured [] events
  | block, .returned _ _ _ :: events => StoresCaptured block events
  | block, .position _ _ :: events => StoresCaptured block events

/-- The captured block that has not been stored yet. -/
def pendingBlock : List (List UInt8) → List InputEvent → List (List UInt8)
  | block, [] => block
  | _, .captured block :: events => pendingBlock block events
  | _, .stored _ :: events => pendingBlock [] events
  | block, .returned _ _ _ :: events => pendingBlock block events
  | block, .position _ _ :: events => pendingBlock block events

theorem storesCaptured_append (block : List (List UInt8)) (h es : List InputEvent) :
    StoresCaptured block (h ++ es) ↔ StoresCaptured block h ∧ StoresCaptured (pendingBlock block h) es := by
  induction h generalizing block with
  | nil => exact ⟨fun h => ⟨trivial, h⟩, And.right⟩
  | cons e h ih =>
      cases e with
      | captured frames => exact ih frames
      | stored frames => exact Iff.trans (and_congr_right fun _ => ih []) and_assoc.symm
      | returned c buffer frames => exact ih block
      | position frames now => exact ih block

theorem pendingBlock_append (block : List (List UInt8)) (h es : List InputEvent) :
    pendingBlock block (h ++ es) = pendingBlock (pendingBlock block h) es := by
  induction h generalizing block with
  | nil => rfl
  | cons e h ih =>
      cases e with
      | captured frames => exact ih frames
      | stored frames => exact ih []
      | returned c buffer frames => exact ih block
      | position frames now => exact ih block

/-- What was queued is a subsequence of what was captured. -/
theorem StoresCaptured.sublist {block : List (List UInt8)} {events : List InputEvent}
    (h : StoresCaptured block events) : (queuedFrames events).Sublist (block ++ capturedFrames events) := by
  induction events generalizing block with
  | nil => exact List.nil_sublist _
  | cons e events ih =>
      cases e with
      | captured frames => exact (ih h).trans (List.sublist_append_right _ _)
      | stored frames =>
          obtain ⟨hfirst, hrest⟩ := h
          exact hfirst.sublist.append (ih hrest)
      | returned c buffer frames => exact ih h
      | position frames now => exact ih h

/-- Events without captures and stores change nothing. -/
theorem silent_block {es : List InputEvent}
    (h : ∀ frames, InputEvent.stored frames ∉ es ∧ InputEvent.captured frames ∉ es) (block : List (List UInt8)) :
    StoresCaptured block es ∧ pendingBlock block es = block ∧ queuedFrames es = [] := by
  induction es with
  | nil => exact ⟨trivial, rfl, rfl⟩
  | cons e es ih =>
      have hrest := ih fun frames =>
        ⟨fun hmem => (h frames).1 (List.mem_cons_of_mem e hmem), fun hmem => (h frames).2 (List.mem_cons_of_mem e hmem)⟩
      cases e with
      | captured frames => exact absurd List.mem_cons_self (h frames).2
      | stored frames => exact absurd List.mem_cons_self (h frames).1
      | returned c buffer frames => exact hrest
      | position frames now => exact hrest

theorem queuedFrames_append (h es : List InputEvent) : queuedFrames (h ++ es) = queuedFrames h ++ queuedFrames es :=
  List.flatMap_append

theorem deliveredFrames_append (frameSize : Nat) (h es : List InputEvent) :
    deliveredFrames frameSize (h ++ es) = deliveredFrames frameSize h ++ deliveredFrames frameSize es :=
  List.flatMap_append

/-- Only captured audio reaches the client: every store takes the block captured last, each captured frame
is queued at most once and in order, and the client gets the channels it asked for of a subsequence. -/
structure OnlyCaptured (frameSize : Nat) (events : List InputEvent) : Prop where
  stores : StoresCaptured [] events
  once : (queuedFrames events).Sublist (capturedFrames events)
  delivered : (deliveredFrames frameSize events).Sublist ((capturedFrames events).map (List.take frameSize))

/-! ### The invariant -/

variable {n : Nat}

/-- After a failed `pcm_read` the worker finds nothing to store or no room for it. -/
def FailureDropped (s : InputSystem n) : InputLabel n → Prop
  | .store => ∀ pcm, s.worker = .storing pcm true →
      pcm.bufferFrames = 0 ∨ s.inp.buffer.live = s.inp.buffer.frameCount
  | _ => True

/-- The worker's buffer is a period long; after a successful `pcm_read` it is the captured block. -/
def CaptureHolds (pcm : PcmConfig) (events : List InputEvent) : CapturePc → Prop
  | .top opened _ => ∀ q, opened = some q → q.bufferFrames = pcm.periodSize.toNat
  | .standbyWait opened _ _ => ∀ q, opened = some q → q.bufferFrames = pcm.periodSize.toNat
  | .reading q restart => restart = false ∧ q.bufferFrames = pcm.periodSize.toNat
  | .storing q restart => q.bufferFrames = pcm.periodSize.toNat ∧
      (restart = false → pendingBlock [] events = records q.memory 4 0 q.bufferFrames)
  | .terminated => True

/-- The invariant of the runs in which nothing is stored after a failure. -/
structure Provenance (req : AudioConfig) (pcm : PcmConfig) (events : List InputEvent) (s : InputSystem n) : Prop where
  usable : s.inp.buffer.Usable
  reqConfig : s.inp.reqConfig = req
  pcmConfig : s.inp.pcmConfig = pcm
  toneless : isToneGeneratorDevice s.inp ≠ some true
  calls : ∀ i c, s.readers i = .readSleeping c → c.Toneless
  stores : StoresCaptured [] events
  taken : ∃ removed, queuedFrames events = removed ++ s.inp.buffer.stored ∧
    (deliveredFrames req.frameSize events).Sublist (removed.map (List.take req.frameSize))
  worker : CaptureHolds pcm events s.worker

theorem CaptureHolds.signal {pcm : PcmConfig} {events : List InputEvent} {pc : CapturePc}
    (h : CaptureHolds pcm events pc) : CaptureHolds pcm events pc.signal := by
  cases pc <;> exact h

/-- The worker's buffer does not depend on events that capture and store nothing. -/
theorem CaptureHolds.silent {pcm : PcmConfig} {events es : List InputEvent} {pc : CapturePc}
    (h : CaptureHolds pcm events pc) (hblock : pendingBlock (pendingBlock [] events) es = pendingBlock [] events) :
    CaptureHolds pcm (events ++ es) pc := by
  cases pc with
  | storing q restart =>
      refine ⟨h.1, fun hsuccess => ?_⟩
      rw [pendingBlock_append, hblock]
      exact h.2 hsuccess
  | top opened restart => exact h
  | standbyWait opened restart woken => exact h
  | reading q restart => exact h
  | terminated => exact h

theorem Provenance.onlyCaptured {req : AudioConfig} {pcm : PcmConfig} {events : List InputEvent} {s : InputSystem n}
    (h : Provenance req pcm events s) : OnlyCaptured req.frameSize events := by
  obtain ⟨removed, hqueued, hdelivered⟩ := h.taken
  have honce : (queuedFrames events).Sublist (capturedFrames events) := h.stores.sublist
  have hremoved : removed.Sublist (capturedFrames events) := by
    apply List.Sublist.trans _ honce
    rw [hqueued]
    exact List.sublist_append_left _ _
  exact ⟨h.stores, honce, hdelivered.trans (hremoved.map _)⟩

section Steps

variable {req : AudioConfig} {pcm : PcmConfig} {events : List InputEvent} {s : InputSystem n}

theorem provenance_reader (h : Provenance req pcm events s)
    (hchannels : popcount req.channelMask = 1 ∨ popcount req.channelMask = 2) (hstereo : pcm.channels = 2) {i : Fin n}
    {l : ReaderLabel} {t : InputSystem n} {es : List InputEvent} (hstep : readerStep s i l = some (t, es)) :
    Provenance req pcm (events ++ es) t := by
  obtain ⟨r, hsection, hpair⟩ := Option.map_eq_some_iff.mp hstep
  cases hpair
  obtain ⟨removed, outcome⟩ := readerSection_outcome h.usable (h.reqConfig ▸ hchannels) (h.pcmConfig ▸ hstereo)
    h.toneless (h.calls i) hsection
  obtain ⟨hstores, hblock, hqueued⟩ := silent_block outcome.silent (pendingBlock [] events)
  obtain ⟨before, htaken, hdelivered⟩ := h.taken
  have hworker : CaptureHolds pcm events (if r.signals then s.worker.signal else s.worker) := by
    split
    · exact h.worker.signal
    · exact h.worker
  refine ⟨outcome.usable, outcome.same.reqConfig.trans h.reqConfig, outcome.same.pcmConfig.trans h.pcmConfig, ?_, ?_,
    (storesCaptured_append _ _ _).mpr ⟨h.stores, hstores⟩, ⟨before ++ removed, ?_, ?_⟩, hworker.silent hblock⟩
  · rw [outcome.same.isToneGeneratorDevice]
    exact h.toneless
  · intro j c hpc
    by_cases hj : j = i
    · rw [hj] at hpc
      simp only [Function.update_self] at hpc
      exact outcome.calls c hpc
    · simp only [Function.update_of_ne hj] at hpc
      exact h.calls j c hpc
  · rw [queuedFrames_append, hqueued, List.append_nil, htaken, outcome.taken, List.append_assoc]
  · have hsize : audioStreamInFrameSize s.inp = req.frameSize := by rw [audioStreamInFrameSize, h.reqConfig]
    have hnow := outcome.delivered
    rw [hsize] at hnow
    rw [deliveredFrames_append, List.map_append]
    exact hdelivered.append hnow

/-- A section of the worker that neither captures nor stores. -/
theorem Provenance.moves (h : Provenance req pcm events s) {pc : CapturePc} {freed : Bool}
    (hworker : CaptureHolds pcm events pc) :
    Provenance req pcm (events ++ []) { s with worker := pc, freed := freed } := by
  rw [List.append_nil]
  exact ⟨h.usable, h.reqConfig, h.pcmConfig, h.toneless, h.calls, h.stores, h.taken, hworker⟩

/-- The PCM for the next `pcm_read` has the stream's period, whether it was open or is opened now. -/
theorem openCapture_period (h : Provenance req pcm events s) {opened : Option CapturePcm} {env : CaptureEnv}
    {q : CapturePcm} (hbefore : ∀ q, opened = some q → q.bufferFrames = pcm.periodSize.toNat)
    (hopened : openCapture s.inp opened env = some q) : q.bufferFrames = pcm.periodSize.toNat := by
  unfold openCapture at hopened
  split at hopened
  · rename_i before
    rw [← Option.some.inj hopened]
    exact hbefore before rfl
  · split at hopened
    · obtain ⟨memory, -, rfl⟩ := Option.map_eq_some_iff.mp hopened
      rw [← h.pcmConfig]
    · cases hopened

theorem captureCheck_holds (h : Provenance req pcm events s) {opened : Option CapturePcm} (restart : Bool)
    (env : CaptureEnv) (hbefore : ∀ q, opened = some q → q.bufferFrames = pcm.periodSize.toNat) :
    ∃ pc, captureCheck s.inp opened restart env = ⟨s.inp, pc, false, []⟩ ∧ CaptureHolds pcm events pc := by
  rw [captureCheck]
  by_cases hrest : (s.inp.workerStandby || restart) = true
  · rw [if_pos hrest]
    by_cases hexit : s.inp.workerExit
    · rw [if_pos hexit]
      exact ⟨_, rfl, trivial⟩
    · rw [if_neg hexit]
      exact ⟨_, rfl, nofun⟩
  rw [if_neg hrest]
  by_cases hexit : s.inp.workerExit
  · rw [if_pos hexit]
    exact ⟨_, rfl, trivial⟩
  rw [if_neg hexit]
  cases hopen : openCapture s.inp opened env with
  | none => exact ⟨_, rfl, trivial⟩
  | some q =>
      rw [Bool.or_eq_true, not_or] at hrest
      exact ⟨_, rfl, Bool.not_eq_true _ ▸ hrest.2, openCapture_period h hbefore hopen⟩

theorem provenance_capture (h : Provenance req pcm events s) {env : CaptureEnv} {r : InputSection CapturePc}
    (hsection : captureSection s.inp env s.worker = some r) :
    Provenance req pcm (events ++ (s.captured r).2) (s.captured r).1 := by
  have hworker := h.worker
  have hcheck : ∃ opened restart, s.worker = .top opened restart ∨ s.worker = .standbyWait opened restart true := by
    unfold captureSection at hsection
    split at hsection
    · exact ⟨_, _, Or.inl ‹_›⟩
    · exact ⟨_, _, Or.inr ‹_›⟩
    · cases hsection
  obtain ⟨opened, restart, hpc⟩ := hcheck
  have hresult : captureCheck s.inp opened restart env = r := by
    rcases hpc with hpc | hpc <;> rw [hpc] at hsection <;> exact Option.some.inj hsection
  have hbefore : ∀ q, opened = some q → q.bufferFrames = pcm.periodSize.toNat := by
    rcases hpc with hpc | hpc <;> rw [hpc] at hworker <;> exact hworker
  obtain ⟨pc, heq, hholds⟩ := captureCheck_holds h restart env hbefore
  rw [← hresult, heq]
  exact h.moves hholds

theorem provenance_pcmRead (h : Provenance req pcm events s) (hperiod : pcm.periodSize.toNat * 4 ≤ intMax)
    (hsize : pcm.frameSize = 4) (hbytes : ∀ k, pcm.framesToBytes k = k * 4 % uintMod) {ret : Int32}
    {data : Nat → UInt8} {r : InputSection CapturePc} (hsection : pcmReadSection s.inp ret data s.worker = some r) :
    Provenance req pcm (events ++ (s.captured r).2) (s.captured r).1 := by
  have hworker := h.worker
  unfold pcmReadSection at hsection
  split at hsection
  · rename_i q restart hpc
    rw [hpc] at hworker
    obtain ⟨hrestart, hframes⟩ := hworker
    rw [← Option.some.inj hsection]
    have hcount : s.inp.pcmConfig.framesToBytes (toUint q.bufferFrames) = q.bufferFrames * 4 := by
      rw [h.pcmConfig, hbytes, hframes]
      simp only [toUint, uintMod, intMax] at *
      omega
    rw [hcount, h.pcmConfig, hsize, Nat.mul_div_cancel _ (by decide), hrestart, Bool.false_or]
    simp only [InputSystem.captured]
    by_cases hret : ret = 0
    · rw [if_pos hret]
      refine ⟨h.usable, h.reqConfig, h.pcmConfig, h.toneless, h.calls,
        (storesCaptured_append _ _ _).mpr ⟨h.stores, trivial⟩, ?_, hframes, fun _ => ?_⟩
      · obtain ⟨removed, hqueued, hdelivered⟩ := h.taken
        refine ⟨removed, ?_, ?_⟩
        · rw [queuedFrames_append, hqueued]
          exact List.append_nil _
        · rw [deliveredFrames_append]
          exact (List.append_nil _).symm ▸ hdelivered
      · rw [pendingBlock_append]
        exact (records_copy_block q.memory data 4 q.bufferFrames).symm
    · rw [if_neg hret]
      refine h.moves ⟨hframes, fun hsuccess => ?_⟩
      exact absurd hsuccess (by simpa using hret)
  · cases hsection

theorem provenance_store (h : Provenance req pcm events s) (hsize : pcm.frameSize = 4)
    (hdropped : FailureDropped s .store) {r : InputSection CapturePc}
    (hsection : storeSectionIn s.inp s.worker = some r) :
    Provenance req pcm (events ++ (s.captured r).2) (s.captured r).1 := by
  have hworker := h.worker
  unfold storeSectionIn at hsection
  split at hsection
  · rename_i q restart hpc
    rw [hpc] at hworker
    obtain ⟨hframes, hcaptured⟩ := hworker
    have hshort : q.bufferFrames < 2 ^ 64 := by
      have hperiod := pcm.periodSize.toNat_lt
      omega
    obtain ⟨⟨b, written⟩, hwrite, hpair⟩ := Option.map_eq_some_iff.mp hsection
    obtain ⟨husable, -, -, hwritten, hstored⟩ := h.usable.write_spec hshort hwrite
    have hsource : records q.memory 4 0 written <+: pendingBlock [] events := by
      cases restart with
      | false =>
          rw [hcaptured rfl, ← records_take q.memory 4 0 (hwritten ▸ Nat.min_le_left _ _)]
          exact List.take_prefix _ _
      | true =>
          have hnone : written = 0 := by
            rcases hdropped q hpc with hempty | hfull
            · rw [hwritten, hempty, Nat.zero_min]
            · rw [hwritten, hfull, Nat.sub_self, Nat.min_zero]
          rw [hnone]
          exact List.nil_prefix
    have hframeSize : s.inp.pcmConfig.frameSize = 4 := by rw [h.pcmConfig, hsize]
    rw [hframeSize] at hpair
    rw [← hpair]
    simp only [InputSystem.captured]
    obtain ⟨removed, hqueued, hdelivered⟩ := h.taken
    refine ⟨husable, h.reqConfig, h.pcmConfig, h.toneless, h.calls,
      (storesCaptured_append _ _ _).mpr ⟨h.stores, hsource, trivial⟩, ⟨removed, ?_, ?_⟩, ?_⟩
    · rw [queuedFrames_append, hqueued, List.append_assoc, hstored]
      exact congrArg (removed ++ ·) (congrArg (s.inp.buffer.stored ++ ·) (List.append_nil _))
    · rw [deliveredFrames_append]
      exact (List.append_nil _).symm ▸ hdelivered
    · intro q' hq'
      rw [← Option.some.inj hq']
      exact hframes
  · cases hsection

theorem provenance_step (hchannels : popcount req.channelMask = 1 ∨ popcount req.channelMask = 2)
    (hstereo : pcm.channels = 2) (hperiod : pcm.periodSize.toNat * 4 ≤ intMax) (hsize : pcm.frameSize = 4)
    (hbytes : ∀ k, pcm.framesToBytes k = k * 4 % uintMod) (events : List InputEvent) (s : InputSystem n)
    (l : InputLabel n) (t : InputSystem n) (es : List InputEvent) (h : Provenance req pcm events s)
    (hdropped : FailureDropped s l) (hstep : inputStep s l = some (t, es)) : Provenance req pcm (events ++ es) t := by
  unfold inputStep at hstep
  split at hstep
  · cases hstep
  cases l with
  | reader i l => exact provenance_reader h hchannels hstereo hstep
  | join i =>
      dsimp only at hstep
      split at hstep
      · cases hstep
        exact h.moves h.worker
      · cases hstep
  | capture env =>
      obtain ⟨r, hsection, hpair⟩ := Option.map_eq_some_iff.mp hstep
      have hnext := provenance_capture h hsection
      rwa [hpair] at hnext
  | pcmRead ret data =>
      obtain ⟨r, hsection, hpair⟩ := Option.map_eq_some_iff.mp hstep
      have hnext := provenance_pcmRead h hperiod hsize hbytes hsection
      rwa [hpair] at hnext
  | store =>
      obtain ⟨r, hsection, hpair⟩ := Option.map_eq_some_iff.mp hstep
      have hnext := provenance_store h hsize hdropped hsection
      rwa [hpair] at hnext
  | captureSpurious =>
      dsimp only at hstep
      split at hstep
      · rename_i opened restart hpc
        have hworker := h.worker
        rw [hpc] at hworker
        cases hstep
        exact h.moves hworker
      · cases hstep

end Steps

theorem Provenance.init {allocated : Bool} {calloc : Nat → Bool} {p : PeriodProperties} {device : AudioDevice}
    {address : Option String} {config : AudioConfig} {inp : GenericStreamIn}
    (hopen : adevOpenInputStream allocated calloc p device address config = .ok inp)
    (htone : isToneGeneratorDevice inp ≠ some true) :
    Provenance config (pcmConfigFor config.sampleRate p) [] (InputSystem.init n inp) := by
  obtain ⟨husable, -, hlive, hreq, hpcm, -⟩ := openInput_usable hopen
  have hstored : inp.buffer.stored = [] :=
    List.eq_nil_of_length_eq_zero (by rw [AudioVbuffer.stored_length, hlive])
  refine ⟨husable, hreq, hpcm, htone, nofun, trivial, ⟨[], ?_, List.Sublist.refl _⟩, nofun⟩
  rw [List.nil_append]
  exact hstored.symm

/-- In every run of an open stream that generates no tone, if nothing is stored after a failed `pcm_read`,
only captured audio reaches the client. -/
theorem only_captured {allocated : Bool} {calloc : Nat → Bool} {p : PeriodProperties} {device : AudioDevice}
    {address : Option String} {config : AudioConfig} {inp : GenericStreamIn} {ls : List (InputLabel n)}
    {s : InputSystem n} {es : List InputEvent}
    (hopen : adevOpenInputStream allocated calloc p device address config = .ok inp)
    (htone : isToneGeneratorDevice inp ≠ some true)
    (hdropped : Guarded inputStep FailureDropped (InputSystem.init n inp) ls)
    (hrun : exec inputStep (InputSystem.init n inp) ls = some (s, es)) : OnlyCaptured config.frameSize es := by
  obtain ⟨-, -, -, -, -, hchannels⟩ := openInput_usable hopen
  have hprovenance : Provenance config (pcmConfigFor config.sampleRate p) ([] ++ es) s :=
    exec_invariant_history _
      (provenance_step hchannels rfl (pcmConfigFor_periodSize _ p) (pcmConfigFor_frameSize _ p)
        (pcmConfigFor_framesToBytes _ p))
      (Provenance.init hopen htone) hdropped hrun
  exact hprovenance.onlyCaptured

/-- One period is captured; the next `pcm_read` fails while the ring buffer is full. -/
def failedWhenFull : List (InputLabel 1) :=
  [captureTurn, .reader (Fin.last 0) (.read (fun _ => 0) 4 0 false), captureTurn, .pcmRead 0 fun a => a.toUInt8, .store,
    captureTurn, .pcmRead (-1) fun _ => 0, .store, .reader (Fin.last 0) (.readSlept (fun _ => 0) fun _ => none)]

theorem only_captured_failedWhenFull :
    ∃ s es, exec inputStep (InputSystem.init 1 eightFramesIn) failedWhenFull = some (s, es) ∧
      OnlyCaptured 4 es ∧ deliveredFrames 4 es = [[0, 1, 2, 3]] := by
  have hdropped : Guarded inputStep FailureDropped (InputSystem.init 1 eightFramesIn) failedWhenFull := by
    refine guarded_cons rfl trivial (guarded_cons rfl trivial (guarded_cons rfl trivial (guarded_cons rfl trivial ?_)))
    refine guarded_cons rfl (fun _ hpc => by cases hpc) ?_
    refine guarded_cons rfl trivial (guarded_cons rfl trivial ?_)
    refine guarded_cons rfl (fun _ _ => Or.inr rfl) ?_
    exact guarded_cons rfl trivial trivial
  exact ⟨_, _, rfl, only_captured open_eightFramesIn (by decide) hdropped rfl, by decide⟩

/-- The first `pcm_read` after the opening fails. -/
def failedFirst : List (InputLabel 1) :=
  [captureTurn, .reader (Fin.last 0) (.read (fun _ => 0) 4 0 false), captureTurn, .pcmRead (-1) fun _ => 0, .store]

theorem uncaptured_stored :
    ¬ ∀ (inp : GenericStreamIn) (ls : List (InputLabel 1)) (s : InputSystem 1) (es : List InputEvent),
      adevOpenInputStream true (fun _ => true) ⟨1, 1⟩ .builtinMic none
          ⟨8000, audioFormatPcm16Bit, audioChannelInStereo⟩ = .ok inp →
        isToneGeneratorDevice inp ≠ some true → exec inputStep (InputSystem.init 1 inp) ls = some (s, es) →
          OnlyCaptured 4 es := by
  intro hall
  have hcaptured := hall eightFramesIn failedFirst _ _ open_eightFramesIn (by decide) rfl
  exact absurd hcaptured.once.length_le (by decide)

end Trout.Audio

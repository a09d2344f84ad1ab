import Trout.OutputPosition

/-! The positions that an output stream reports, over whole runs under a clock that never goes back. They
never fall and stay within the frames written. They keep pace with the clock as long as every turn of
`do_out_standby` that goes on to sleep comes before a whole frame has played since the underrun. -/

namespace Trout.Audio
open CInt Runs

variable {n : Nat}

/-- A step takes a turn of the loop of `do_out_standby` that goes on to sleep. -/
def OutputSystem.Drains (s : OutputSystem n) : OutputLabel n → Prop
  | .client i l => Audio.Drains s.out (s.clients i) l
  | _ => False

/-- At every turn of the loop of `do_out_standby`, no whole frame has played since the underrun, or a
multiple of `2 ^ 32` frames is left to play. -/
def PunctualDrain (s : OutputSystem n) : OutputLabel n → Prop
  | .client i l => ∀ now ∈ standbyTurn s.out (s.clients i) l, framesSinceUnderrun s.out now = 0 ∨
      (s.out.framesWritten - (s.out.underrunPosition + framesSinceUnderrun s.out now)) % 2 ^ 32 = 0
  | _ => True

instance (s : OutputSystem n) : ∀ l, Decidable (PunctualDrain s l)
  | .client i l => inferInstanceAs (Decidable (∀ now ∈ standbyTurn s.out (s.clients i) l, _))
  | .join _ => isTrue trivial
  | .worker _ _ => isTrue trivial
  | .workerSpurious => isTrue trivial

/-- What holds in every state of a stream while its counters fit. -/
structure Supplied (req : AudioConfig) (s : OutputSystem n) : Prop where
  reqConfig : s.out.reqConfig = req
  base : s.out.underrunPosition ≤ s.out.framesWritten
  calls : ∀ i, CallFits (s.clients i)

theorem open_framesWritten {allocated : Bool} {calloc : Nat → Bool} {p : PeriodProperties} {config : AudioConfig}
    {out : GenericStreamOut} (h : adevOpenOutputStream allocated calloc p config = .ok out) : out.framesWritten = 0 ∧
      out.underrunPosition = 0 := by
  rw [adevOpenOutputStream] at h
  split at h
  · cases h
  split at h
  · cases h
  dsimp only at h
  split at h
  · cases h
  · cases h
    exact ⟨rfl, rfl⟩

theorem Supplied.init {allocated : Bool} {calloc : Nat → Bool} {p : PeriodProperties} {config : AudioConfig}
    {out : GenericStreamOut} (h : adevOpenOutputStream allocated calloc p config = .ok out) :
    Supplied config (OutputSystem.init n out) where
  reqConfig := (open_usable h).2.2.2.2.1
  base := by
    obtain ⟨hwritten, hposition⟩ := open_framesWritten h
    show out.underrunPosition ≤ out.framesWritten
    rw [hwritten, hposition]
  calls := fun _ => ⟨fun _ _ h => (by cases h), fun _ _ h => (by cases h)⟩

/-! ### The calls in progress -/

theorem callFits_idle : CallFits .idle := ⟨fun _ _ h => (by cases h), fun _ _ h => (by cases h)⟩

theorem callFits_waiting {c : WriteCall} {woken : Bool} (h : c.frames < 2 ^ 63) : CallFits (.writeWaiting c woken) := by
  refine ⟨fun buffer bytes hpc => (by cases hpc), fun c' woken' hpc => ?_⟩
  cases hpc
  exact h

theorem storeLoop_callFits {out : GenericStreamOut} {c : WriteCall} {r : Section ClientPc}
    (hframes : c.frames < 2 ^ 63) (h : storeLoop out c = some r) : CallFits r.pc := by
  rw [storeLoop] at h
  split at h
  · cases h
  rename_i out' c' hstore
  have hlength : c'.frames = c.frames := by rw [(WriteCall.store_view hstore).2]
  by_cases hmore : c'.framesWritten < c'.frames
  · simp only [if_pos hmore] at h
    cases h
    exact callFits_waiting (hlength.trans_lt hframes)
  · simp only [if_neg hmore] at h
    cases h
    exact callFits_idle

theorem storeSection_callFits {out : GenericStreamOut} {buffer : Nat → UInt8} {bytes : Nat} {env : WriteEnv}
    {r : Section ClientPc} (h : storeSection out buffer bytes env = some r) : CallFits r.pc := by
  rw [storeSection] at h
  split at h
  · cases h
    exact callFits_idle
  · split at h
    · cases h
    · rename_i c hstart
      exact storeLoop_callFits (lt_trans (startStore_sound hstart).frames_lt (by decide)) h

theorem standbyEnd_callFits (out : GenericStreamOut) (closing : Bool) : CallFits (standbyEnd out closing).pc := by
  cases closing with
  | true => exact ⟨fun _ _ h => (by cases h), fun _ _ h => (by cases h)⟩
  | false => exact callFits_idle

theorem standbyLoop_callFits (out : GenericStreamOut) (closing : Bool) (now : Nat) :
    CallFits (standbyLoop out closing now).pc := by
  rw [standbyLoop]
  split
  · exact standbyEnd_callFits _ closing
  · exact ⟨fun _ _ h => (by cases h), fun _ _ h => (by cases h)⟩

theorem clientSection_callFits {out : GenericStreamOut} {pc : ClientPc} {l : ClientLabel} {r : Section ClientPc}
    (hcall : CallFits pc) (h : clientSection out pc l = some r) : CallFits r.pc := by
  unfold clientSection at h
  split at h
  · rename_i buffer bytes now env
    rw [writeSection] at h
    by_cases hsleep : (outWriteEnter out now (bytes.toNat / audioStreamOutFrameSize out)).2 > 0
    · simp only [if_pos hsleep] at h
      cases h
      refine ⟨fun buffer' bytes' hpc => ?_, fun _ _ hpc => (by cases hpc)⟩
      cases hpc
      exact bytes.toNat_lt
    · simp only [if_neg hsleep] at h
      exact storeSection_callFits h
  · exact storeSection_callFits h
  · exact storeLoop_callFits (hcall.waiting _ _ rfl) h
  · cases h
    exact callFits_waiting (hcall.waiting _ _ rfl)
  · rename_i closing now
    rw [← Option.some.inj h]
    split
    · exact standbyEnd_callFits out closing
    · exact standbyLoop_callFits out closing now
  · rename_i closing now
    rw [← Option.some.inj h]
    exact standbyLoop_callFits out closing now
  · cases h
    exact callFits_idle
  · cases h

/-! ### Steps -/

/-- A worker's step leaves the counter and the calls in progress alone. -/
theorem workerStep_played {s t : OutputSystem n} {env : WorkerEnv} {wake : Option (Fin n)} {es : List OutputEvent}
    (h : workerStep s env wake = some (t, es)) :
    t.out.played = s.out.played ∧ t.out.reqConfig = s.out.reqConfig ∧ es = [] ∧
      ((∀ i, CallFits (s.clients i)) → ∀ i, CallFits (t.clients i)) := by
  rw [workerStep] at h
  split at h
  · cases h
  rename_i r hsection
  have hview : r.out.played = s.out.played ∧ r.out.reqConfig = s.out.reqConfig ∧ r.events = [] := by
    cases workerSection_effect hsection with
    | exits result exit => rw [result]; exact ⟨rfl, rfl, rfl⟩
    | fails w result error data reached => rw [result]; exact ⟨rfl, rfl, rfl⟩
    | rests result exit asked => rw [result]; exact ⟨rfl, rfl, rfl⟩
    | starves w result empty reached => rw [result]; exact ⟨rfl, rfl, rfl⟩
    | plays w frames playing result => rw [result]; exact ⟨rfl, rfl, rfl⟩
    | reads w pcm opened data buffer memory count read result reached => rw [result]; exact ⟨rfl, rfl, rfl⟩
  split at h
  · obtain ⟨clients, hsignal, hpair⟩ := Option.map_eq_some_iff.mp h
    cases hpair
    refine ⟨hview.1, hview.2.1, hview.2.2, fun hcalls i => ?_⟩
    rcases signalWriter_calls hsignal i with hsame | ⟨c, hblocked, hwoken⟩
    · show CallFits (clients i)
      rw [hsame]
      exact hcalls i
    · show CallFits (clients i)
      rw [hwoken]
      exact callFits_waiting ((hcalls i).waiting c false hblocked)
  · cases h
    exact ⟨hview.1, hview.2.1, hview.2.2, id⟩

section Config

variable {req : AudioConfig}

theorem clientStep_reqConfig {s t : OutputSystem n} {i : Fin n} {l : ClientLabel} {es : List OutputEvent}
    (h : clientStep s i l = some (t, es)) : t.out.reqConfig = s.out.reqConfig := by
  rw [clientStep, Option.map_eq_some_iff] at h
  obtain ⟨r, hsection, hpair⟩ := h
  cases hpair
  cases clientSection_effect hsection with
  | quiet view standby signals waiting keeps sleeping silent request => exact view.reqConfig
  | store entered c call view standby loop =>
      rw [storeLoop] at loop
      split at loop
      · cases loop
      rename_i out' c' hstore
      have hout := congrArg GenericStreamOut.reqConfig (WriteCall.store_view hstore).1
      by_cases hmore : c'.framesWritten < c'.frames
      · simp only [if_pos hmore] at loop
        cases loop
        exact hout.trans view.reqConfig
      · simp only [if_neg hmore] at loop
        cases loop
        exact hout.trans view.reqConfig
  | request closing asks raised view result =>
      rw [result]
      cases closing with
      | true => exact view.reqConfig
      | false => exact view.reqConfig

/-- Every step of the system is a step of the counter, and keeps what holds while the counters fit. -/
theorem outputStep_played {s t : OutputSystem n} {l : OutputLabel n} {es : List OutputEvent} {now : Nat}
    (hsize : 2 ≤ req.frameSize) (h : Supplied req s) (hfits : PositionFits s.out l.reading)
    (hnow : ∀ first ∈ l.reading, first = now) (hstep : outputStep s l = some (t, es)) :
    Supplied req t ∧ ∃ shows, SuppliedClock.Step req.sampleRate.toNat 1000000 (s.Drains l) s.out.played (now / 1000)
      t.out.played shows ∧ positionReports es = shows.map fun v => (v, now / 1000) := by
  have hrate : outGetSampleRate s.out = req.sampleRate.toNat := by rw [outGetSampleRate, h.reqConfig]
  unfold outputStep at hstep
  split at hstep
  · cases hstep
  cases l with
  | client i l =>
      have hstep : clientStep s i l = some (t, es) := hstep
      have hreq := clientStep_reqConfig hstep
      rw [clientStep, Option.map_eq_some_iff] at hstep
      obtain ⟨r, hsection, hpair⟩ := hstep
      cases hpair
      have hframe : 2 ≤ audioStreamOutFrameSize s.out := by rwa [audioStreamOutFrameSize, h.reqConfig]
      obtain ⟨shows, hplayed, hreports⟩ := clientSection_played h.base hfits (h.calls i) hframe hnow hsection
      rw [hrate] at hplayed
      refine ⟨⟨hreq.trans h.reqConfig, hplayed.base_le h.base, fun j => ?_⟩, shows, hplayed, hreports⟩
      by_cases hj : j = i
      · rw [hj]
        show CallFits (Function.update s.clients i r.pc i)
        rw [Function.update_self]
        exact clientSection_callFits (h.calls i) hsection
      · show CallFits (Function.update s.clients i r.pc j)
        rw [Function.update_of_ne hj]
        exact h.calls j
  | worker env wake =>
      obtain ⟨hplayed, hreq, hsilent, hcalls⟩ := workerStep_played hstep
      refine ⟨⟨hreq.trans h.reqConfig, ?_, hcalls h.calls⟩, [], ?_, by rw [hsilent]; rfl⟩
      · show t.out.played.clock.base ≤ t.out.played.supply
        rw [hplayed]
        exact h.base
      · rw [hplayed]
        exact .kept
  | join i =>
      dsimp only at hstep
      split at hstep
      · cases hstep
        exact ⟨⟨h.reqConfig, h.base, h.calls⟩, [], .kept, rfl⟩
      · cases hstep
  | workerSpurious =>
      dsimp only at hstep
      split at hstep
      · cases hstep
        exact ⟨⟨h.reqConfig, h.base, h.calls⟩, [], .kept, rfl⟩
      · cases hstep
        exact ⟨⟨h.reqConfig, h.base, h.calls⟩, [], .kept, rfl⟩
      · cases hstep

end Config

/-- The frames of a stream that can be opened have two bytes at least. -/
theorem open_frameSize {allocated : Bool} {calloc : Nat → Bool} {p : PeriodProperties} {config : AudioConfig}
    {out : GenericStreamOut} (h : adevOpenOutputStream allocated calloc p config = .ok out) : 2 ≤ config.frameSize := by
  rw [AudioConfig.frameSize]
  rcases (open_usable h).2.2.2.2.2.2 with hmono | hstereo
  · rw [hmono]
  · rw [hstereo]
    decide

/-! ### Runs -/

/-- The positions reported by a run end with those of its last step. -/
theorem positionReports_append (h es : List OutputEvent) :
    positionReports (h ++ es) = positionReports h ++ positionReports es := by
  simp only [positionReports, List.filterMap_append]

/-- The reported positions rise up to what the counter shows. -/
structure Reported (req : AudioConfig) (events : List OutputEvent) (s : OutputSystem n × Nat) : Prop where
  supplied : Supplied req s.1
  rising : RateClock.Rising (positionReports events) (s.1.out.played.shown req.sampleRate.toNat 1000000 (s.2 / 1000))

theorem reported_step {req : AudioConfig} (hsize : 2 ≤ req.frameSize) (h : List OutputEvent) (s : OutputSystem n × Nat)
    (l : OutputLabel n) (t : OutputSystem n × Nat) (es : List OutputEvent) (hinv : Reported req h s)
    (hfits : PositionFits s.1.out l.reading) (hclocked : clocked outputStep OutputLabel.reading s l = some (t, es)) :
    Reported req (h ++ es) t := by
  obtain ⟨-, hle, hstep⟩ := clocked_eq_some.mp hclocked
  obtain ⟨hnext, shows, hplayed, hreports⟩ :=
    outputStep_played hsize hinv.supplied hfits (clocked_reading hclocked) hstep
  refine ⟨hnext, ?_⟩
  rw [positionReports_append, hreports]
  exact hplayed.rising (Nat.div_le_div_right hle) hinv.rising

section Runs

variable {allocated : Bool} {calloc : Nat → Bool} {p : PeriodProperties} {config : AudioConfig} {out : GenericStreamOut}

/-- In every run, the positions that are reported never fall and stay within the frames written. -/
theorem positions_rise (hopen : adevOpenOutputStream allocated calloc p config = .ok out)
    {labels : List (OutputLabel n)} {s : OutputSystem n × Nat} {events : List OutputEvent}
    (hfits : Guarded (clocked outputStep OutputLabel.reading) (fun s l => PositionFits s.1.out l.reading)
      (OutputSystem.init n out, 0) labels)
    (hrun : exec (clocked outputStep OutputLabel.reading) (OutputSystem.init n out, 0) labels = some (s, events)) :
    s.1.out.underrunPosition ≤ s.1.out.framesWritten ∧
      (positionReports events).Pairwise (fun r r' => r.1 ≤ r'.1) ∧
      ∀ l t es, PositionFits s.1.out l.reading → clocked outputStep OutputLabel.reading s l = some (t, es) →
        ∀ r ∈ positionReports es, r.1 ≤ t.1.out.framesWritten := by
  have hsize := open_frameSize hopen
  have hinit : Reported config [] ((OutputSystem.init n out, 0) : OutputSystem n × Nat) :=
    ⟨Supplied.init hopen, RateClock.rising_nil _⟩
  have hreported := exec_invariant_history _ (reported_step hsize) (h := []) hinit hfits hrun
  refine ⟨hreported.supplied.base, hreported.rising.2, ?_⟩
  intro l t es hfits hclocked r hr
  have hnext := reported_step hsize events s l t es hreported hfits hclocked
  have hmem : r ∈ positionReports (events ++ es) := by
    rw [positionReports_append]
    exact List.mem_append_right _ hr
  calc r.1 ≤ t.1.out.played.shown config.sampleRate.toNat 1000000 (t.2 / 1000) := hnext.rising.1 r hmem
    _ ≤ t.1.out.framesWritten := min_le_left _ _

end Runs

/-- A muted write of eight frames at time 0. -/
def writeMuted : OutputLabel 2 := .client (Fin.last 1) (.write (fun _ => 0) 32 0 ⟨true, fun _ x => x⟩)

def queryPosition (micros : Nat) : OutputLabel 2 :=
  .client (Fin.castSucc (Fin.last 0)) (.presentationPosition (1000 * micros))

/-- The stream is asked to stand by half a millisecond after eight frames were written, and asked for its
position before and while it drains. -/
def lateStandby : List (OutputLabel 2) :=
  [writeMuted, queryPosition 500, .client (Fin.last 1) (.standby false 500000), queryPosition 501]

theorem positions_rise_lateStandby :
    ∃ s events, exec (clocked outputStep OutputLabel.reading) (OutputSystem.init 2 eightFrames, 0) lateStandby =
        some (s, events) ∧
      s.1.out.underrunPosition ≤ s.1.out.framesWritten ∧ (positionReports events).Pairwise fun r r' => r.1 ≤ r'.1 := by
  have hfits : Guarded (clocked outputStep OutputLabel.reading) (fun s l => PositionFits s.1.out l.reading)
      (OutputSystem.init 2 eightFrames, 0) lateStandby := by decide +kernel
  obtain ⟨hbase, hrise, -⟩ := positions_rise open_eightFrames hfits rfl
  exact ⟨_, _, rfl, hbase, hrise⟩

/-! ### Pace -/

section Runs

variable {allocated : Bool} {calloc : Nat → Bool} {p : PeriodProperties} {config : AudioConfig} {out : GenericStreamOut}

/-- The sleep of a turn is that of the frames left to play, as an `int`. -/
theorem doOutStandbyTurn_sleep {now : Nat} (hbase : out.underrunPosition ≤ out.framesWritten)
    (hfits : PositionFits out (some now)) :
    (doOutStandbyTurn out now).2 =
      toInt (out.framesWritten - (out.underrunPosition + framesSinceUnderrun out now) : Nat) := by
  have hcounter : (getCurrentOutputPosition out now).1.framesWritten = out.framesWritten := by
    have hsupply := congrArg SuppliedClock.supply (getCurrentOutputPosition_played hbase hfits).1
    rwa [SuppliedClock.look_supply] at hsupply
  have hposition := getCurrentOutputPosition_position hbase hfits
  have hwritten := hfits.1
  simp only [doOutStandbyTurn, hcounter, hposition]
  rw [sizeSub_of_le (min_le_left _ _) (by omega)]
  congr 2
  omega

theorem standbyTurn_reading {pc : ClientPc} {l : ClientLabel} {now : Nat} (h : now ∈ standbyTurn out pc l) :
    l.reading = some now := by
  unfold standbyTurn at h
  split at h
  · split at h
    · cases h
    · exact h
  · exact h
  · cases h

theorem toInt_eq_zero_of_mod {a : Nat} (h : a % 2 ^ 32 = 0) : toInt (a : Int) = 0 := by
  simp only [toInt, Int.bmod, uintMod]
  omega

/-- A punctual turn that goes on to sleep has no whole frame to move. -/
theorem PunctualDrain.elapsed {s : OutputSystem n} {l : OutputLabel n} {now : Nat} (h : PunctualDrain s l)
    (hbase : s.out.underrunPosition ≤ s.out.framesWritten) (hfits : PositionFits s.out l.reading)
    (hread : ∀ first ∈ l.reading, first = now) (hdrains : s.Drains l) : framesSinceUnderrun s.out now = 0 := by
  cases l with
  | client i l =>
      obtain ⟨first, hturn, hsleep⟩ := hdrains
      have hreading : l.reading = some first := standbyTurn_reading hturn
      obtain rfl : first = now := hread first hreading
      have hfits : PositionFits s.out (some first) := by
        rw [← hreading]
        exact hfits
      rcases h first hturn with hnone | hleft
      · exact hnone
      · rw [doOutStandbyTurn_sleep hbase hfits, toInt_eq_zero_of_mod hleft] at hsleep
        exact absurd rfl hsleep
  | join i => exact hdrains.elim
  | worker env wake => exact hdrains.elim
  | workerSpurious => exact hdrains.elim

/-- The reported positions are also behind the exact one by no more than the clock allows. -/
structure PacedReports (req : AudioConfig) (events : List OutputEvent) (s : OutputSystem n × Nat) : Prop where
  reported : Reported req events s
  paced : RateClock.Paced req.sampleRate.toNat 1000000 (positionReports events)
    (s.1.out.played.clock.exact req.sampleRate.toNat 1000000 (s.2 / 1000)) (s.2 / 1000)

theorem pacedReports_step {req : AudioConfig} (hsize : 2 ≤ req.frameSize) (h : List OutputEvent)
    (s : OutputSystem n × Nat) (l : OutputLabel n) (t : OutputSystem n × Nat) (es : List OutputEvent)
    (hinv : PacedReports req h s) (hguard : PositionFits s.1.out l.reading ∧ PunctualDrain s.1 l)
    (hclocked : clocked outputStep OutputLabel.reading s l = some (t, es)) : PacedReports req (h ++ es) t := by
  obtain ⟨hfits, hpunctual⟩ := hguard
  refine ⟨reported_step hsize h s l t es hinv.reported hfits hclocked, ?_⟩
  have hsupplied := hinv.reported.supplied
  have hread := clocked_reading hclocked
  obtain ⟨-, hle, hstep⟩ := clocked_eq_some.mp hclocked
  obtain ⟨-, shows, hplayed, hreports⟩ := outputStep_played hsize hsupplied hfits hread hstep
  have hgained : s.1.Drains l → s.1.out.played.clock.elapsed req.sampleRate.toNat 1000000 (t.2 / 1000) = 0 := by
    intro hdrains
    rw [← hsupplied.reqConfig]
    exact (played_elapsed s.1.out t.2).trans (hpunctual.elapsed hsupplied.base hfits hread hdrains)
  rw [positionReports_append, hreports]
  exact (hplayed.of_slips hsupplied.base hgained).paced (by decide) (Nat.div_le_div_right hle) hinv.paced

/-- In every run whose turns of `do_out_standby` are punctual, two positions that are reported differ by the
frames of the time between them, and one, at most. -/
theorem positions_paced (hopen : adevOpenOutputStream allocated calloc p config = .ok out)
    {labels : List (OutputLabel n)} {s : OutputSystem n × Nat} {events : List OutputEvent}
    (hguard : Guarded (clocked outputStep OutputLabel.reading)
      (fun s l => PositionFits s.1.out l.reading ∧ PunctualDrain s.1 l) (OutputSystem.init n out, 0) labels)
    (hrun : exec (clocked outputStep OutputLabel.reading) (OutputSystem.init n out, 0) labels = some (s, events)) :
    (positionReports events).Pairwise fun r r' => r.2 ≤ r'.2 ∧
      ((r'.1 : Int) - r.1).natAbs ≤ config.sampleRate.toNat * (r'.2 - r.2) / 1000000 + 1 := by
  have hinit : PacedReports config [] ((OutputSystem.init n out, 0) : OutputSystem n × Nat) :=
    ⟨⟨Supplied.init hopen, RateClock.rising_nil _⟩, RateClock.paced_nil _ _⟩
  obtain ⟨⟨-, -, hrise⟩, -, hpace⟩ :=
    exec_invariant_history _ (pacedReports_step (open_frameSize hopen)) (h := []) hinit hguard hrun
  refine (hpace.and hrise).imp fun ⟨⟨htime, hle⟩, hrises⟩ => ⟨htime, ?_⟩
  rw [Nat.mul_comm]
  omega

end Runs

/-- The stream is asked to stand by before the first of eight frames has played. -/
def punctualStandby : List (OutputLabel 2) :=
  [writeMuted, queryPosition 100, .client (Fin.last 1) (.standby false 100000), queryPosition 500,
    .client (Fin.last 1) (.standbySlept 1100000), queryPosition 2000]

theorem positions_paced_punctualStandby :
    ∃ s events, exec (clocked outputStep OutputLabel.reading) (OutputSystem.init 2 eightFrames, 0) punctualStandby =
        some (s, events) ∧
      (positionReports events).Pairwise fun r r' => r.2 ≤ r'.2 ∧
        ((r'.1 : Int) - r.1).natAbs ≤ 8000 * (r'.2 - r.2) / 1000000 + 1 := by
  have hguard : Guarded (clocked outputStep OutputLabel.reading)
      (fun s l => PositionFits s.1.out l.reading ∧ PunctualDrain s.1 l) (OutputSystem.init 2 eightFrames, 0)
      punctualStandby := by decide +kernel
  exact ⟨_, _, rfl, positions_paced open_eightFrames hguard rfl⟩

/-- Four frames have played when the stream is asked to stand by, and eight a microsecond later. -/
theorem positions_unpaced :
    ¬ ∀ (out : GenericStreamOut) (labels : List (OutputLabel 2)) (s : OutputSystem 2 × Nat) (events : List OutputEvent),
      adevOpenOutputStream true (fun _ => true) ⟨1, 1⟩ ⟨8000, audioFormatPcm16Bit, 3⟩ = .ok out →
        Guarded (clocked outputStep OutputLabel.reading) (fun s l => PositionFits s.1.out l.reading)
          (OutputSystem.init 2 out, 0) labels →
        exec (clocked outputStep OutputLabel.reading) (OutputSystem.init 2 out, 0) labels = some (s, events) →
        (positionReports events).Pairwise fun r r' => r.2 ≤ r'.2 ∧
          ((r'.1 : Int) - r.1).natAbs ≤ 8000 * (r'.2 - r.2) / 1000000 + 1 := by
  intro hall
  have hpaced := hall eightFrames lateStandby _ _ open_eightFrames (by decide +kernel) rfl
  exact absurd hpaced (by decide +kernel)

end Trout.Audio

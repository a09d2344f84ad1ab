import Trout.InputSections
import Trout.RateClock

/-! The position of an input stream, over whole runs under a clock that never goes back. It is a counter that
`in_read` starts and standby stops where it is, in microseconds of the clock. The products of microseconds and
sample rate are integers here; an `int64_t` holds them up to `2 ^ 63`. -/

namespace Trout.Audio
open CInt Runs

variable {n : Nat}

/-- The time that a section of a client reads from the clock. -/
def ReaderLabel.reading : ReaderLabel → Option Nat
  | .read _ _ now _ => some now
  | .readSlept _ _ => none
  | .standby now => some now
  | .close now => some now
  | .capturePosition now => some now

def InputLabel.reading : InputLabel n → Option Nat
  | .reader _ l => l.reading
  | _ => none

/-- The positions that `in_get_capture_position` reported, with their microseconds. -/
def captureReports (events : List InputEvent) : List (Int × Nat) :=
  events.filterMap fun
    | .position frames now => some (frames, now / 1000)
    | _ => none

theorem captureReports_append (h es : List InputEvent) :
    captureReports (h ++ es) = captureReports h ++ captureReports es := by
  simp only [captureReports, List.filterMap_append]

/-- The position as a counter, which runs out of standby. -/
def GenericStreamIn.clock (inp : GenericStreamIn) : RateClock :=
  ⟨!inp.standby, inp.standbyPosition.toNat, inp.standbyExitTime / 1000⟩

/-- What the position is computed from. -/
structure SameTime (inp inp' : GenericStreamIn) : Prop where
  standby : inp'.standby = inp.standby
  standbyPosition : inp'.standbyPosition = inp.standbyPosition
  standbyExitTime : inp'.standbyExitTime = inp.standbyExitTime
  reqConfig : inp'.reqConfig = inp.reqConfig

theorem SameTime.refl (inp : GenericStreamIn) : SameTime inp inp := ⟨rfl, rfl, rfl, rfl⟩

theorem SameTime.clock {inp inp' : GenericStreamIn} (h : SameTime inp inp') : inp'.clock = inp.clock := by
  rw [GenericStreamIn.clock, GenericStreamIn.clock, h.standby, h.standbyPosition, h.standbyExitTime]

/-! ### Sections as steps of the counter -/

theorem getCurrentInputPosition_clock {inp : GenericStreamIn} (h : 0 ≤ inp.standbyPosition) (now : Nat) :
    getCurrentInputPosition inp now = (inp.clock.value (inGetSampleRate inp) 1000000 (now / 1000) : Nat) := by
  rw [getCurrentInputPosition, RateClock.value, RateClock.elapsed, GenericStreamIn.clock, framesSince_eq]
  cases inp.standby with
  | true =>
      show inp.standbyPosition + 0 = ((inp.standbyPosition.toNat + 0 : Nat) : Int)
      omega
  | false =>
      show inp.standbyPosition + ((_ : Nat) : Int) = ((inp.standbyPosition.toNat + _ : Nat) : Int)
      rw [Int.natCast_add, Int.toNat_of_nonneg h]
      rfl

/-- Standby stops the counter where it is. -/
theorem doInStandby_clock {inp : GenericStreamIn} (h : 0 ≤ inp.standbyPosition) (now : Nat) :
    (doInStandby inp now).clock =
        inp.clock.stop (inp.clock.value (inGetSampleRate inp) 1000000 (now / 1000)) ∧
      0 ≤ (doInStandby inp now).standbyPosition := by
  have hposition := getCurrentInputPosition_clock h now
  rw [doInStandby]
  by_cases hstandby : inp.standby
  · rw [if_pos hstandby]
    refine ⟨?_, h⟩
    rw [RateClock.value_of_standing (by simp [GenericStreamIn.clock, hstandby]), RateClock.stop, GenericStreamIn.clock]
    simp only [hstandby, Bool.not_true]
  · rw [if_neg hstandby]
    refine ⟨?_, ?_⟩
    · show (⟨!true, (getCurrentInputPosition inp now).toNat, inp.standbyExitTime / 1000⟩ : RateClock) = _
      rw [hposition, Int.toNat_natCast]
      rfl
    · show 0 ≤ getCurrentInputPosition inp now
      rw [hposition]
      exact Int.natCast_nonneg _

/-- `in_read` starts the counter. -/
theorem inReadEnter_clock (inp : GenericStreamIn) (now : Nat) :
    (inReadEnter inp now).1.clock = inp.clock.begin (now / 1000) ∧
      (inReadEnter inp now).1.standbyPosition = inp.standbyPosition := by
  simp only [inReadEnter, RateClock.begin]
  by_cases hstandby : inp.standby
  · rw [if_pos hstandby, if_neg (by simp [GenericStreamIn.clock, hstandby])]
    exact ⟨rfl, rfl⟩
  · rw [if_neg hstandby, if_pos (by simp [GenericStreamIn.clock, hstandby])]
    exact ⟨rfl, rfl⟩

/-- Filling the caller's buffer counts the frames of the call, unless standby has come in between. -/
theorem inReadFill_time {inp : GenericStreamIn} {c : ReadCall} {tone : Nat → Int16}
    {realloc : Nat → Option (Nat → UInt8)} {r : GenericStreamIn × (Nat → UInt8) × Int}
    (h : inReadFill inp c tone realloc = some r) :
    SameTime inp r.1 ∧ r.1.standbyFramesRead =
      if inp.standby then inp.standbyFramesRead
      else toLong (inp.standbyFramesRead + (c.bytes / audioStreamInFrameSize inp : Nat)) := by
  unfold inReadFill at h
  dsimp only at h
  by_cases hstandby : inp.standby
  · rw [if_pos hstandby] at h ⊢
    cases h
    exact ⟨SameTime.refl inp, rfl⟩
  rw [if_neg hstandby] at h ⊢
  split at h
  · cases h
    exact ⟨⟨rfl, rfl, rfl, rfl⟩, rfl⟩
  split at h
  · split at h
    · split at h
      · cases h
        split
        · exact ⟨⟨rfl, rfl, rfl, rfl⟩, rfl⟩
        · exact ⟨⟨rfl, rfl, rfl, rfl⟩, rfl⟩
      · cases h
    · obtain ⟨read, -, hpair⟩ := Option.map_eq_some_iff.mp h
      cases hpair
      split
      · exact ⟨⟨rfl, rfl, rfl, rfl⟩, rfl⟩
      · exact ⟨⟨rfl, rfl, rfl, rfl⟩, rfl⟩
  · obtain ⟨read, -, hpair⟩ := Option.map_eq_some_iff.mp h
    cases hpair
    exact ⟨⟨rfl, rfl, rfl, rfl⟩, rfl⟩

/-- Every section of a client is a step of the counter. -/
theorem readerSection_clock {inp : GenericStreamIn} {pc : ReaderPc} {l : ReaderLabel} {r : InputSection ReaderPc}
    {now : Nat} (hbase : 0 ≤ inp.standbyPosition) (hnow : ∀ first ∈ l.reading, first = now)
    (h : readerSection inp pc l = some r) :
    0 ≤ r.inp.standbyPosition ∧ r.inp.reqConfig = inp.reqConfig ∧
      ∃ shows, RateClock.Step (inGetSampleRate inp) 1000000 inp.clock (now / 1000) r.inp.clock shows ∧
        captureReports r.events = shows.map fun v : Nat => ((v : Int), now / 1000) := by
  unfold readerSection at h
  split at h
  · rename_i buffer bytes first micMute
    obtain rfl : first = now := hnow first rfl
    obtain ⟨hclock, hposition⟩ := inReadEnter_clock inp first
    rw [readSection] at h
    split at h
    · cases h
    · dsimp only at h
      split at h
      · cases h
        refine ⟨hposition ▸ hbase, (inReadEnter_same inp first).1.reqConfig, [], ?_, rfl⟩
        rw [hclock]
        exact .begun
      · cases h
  · obtain ⟨filled, hfill, hpair⟩ := Option.map_eq_some_iff.mp h
    obtain ⟨htime, -⟩ := inReadFill_time hfill
    cases hpair
    refine ⟨htime.standbyPosition ▸ hbase, htime.reqConfig, [], ?_, rfl⟩
    rw [htime.clock]
    exact .kept
  · rename_i first
    obtain rfl : first = now := hnow first rfl
    obtain ⟨hclock, hposition⟩ := doInStandby_clock hbase first
    cases h
    refine ⟨hposition, (doInStandby_same inp first).1.reqConfig, [], ?_, rfl⟩
    rw [hclock]
    exact .stopped
  · rename_i first
    obtain rfl : first = now := hnow first rfl
    obtain ⟨hclock, hposition⟩ := doInStandby_clock hbase first
    cases h
    refine ⟨hposition, (doInStandby_same inp first).1.reqConfig, [], ?_, rfl⟩
    show RateClock.Step _ _ _ _ (doInStandby inp first).clock []
    rw [hclock]
    exact .stopped
  · rename_i first
    obtain rfl : first = now := hnow first rfl
    cases h
    refine ⟨hbase, rfl, [inp.clock.value (inGetSampleRate inp) 1000000 (first / 1000)], .shown, ?_⟩
    show [(getCurrentInputPosition inp first, first / 1000)] = _
    rw [getCurrentInputPosition_clock hbase]
    rfl
  · cases h

/-- The sections of the worker leave the counter alone. -/
theorem captureWorker_time {inp : GenericStreamIn} {pc : CapturePc} {r : InputSection CapturePc} :
    (∀ env, captureSection inp env pc = some r → r.inp = inp ∧ r.events = []) ∧
      (∀ ret data, pcmReadSection inp ret data pc = some r → r.inp = inp ∧ captureReports r.events = []) ∧
      (storeSectionIn inp pc = some r →
        (∃ buffer, r.inp = { inp with buffer := buffer }) ∧ captureReports r.events = []) := by
  have hcheck : ∀ pcm restart env, (captureCheck inp pcm restart env).inp = inp ∧
      (captureCheck inp pcm restart env).events = [] := by
    intro pcm restart env
    rw [captureCheck]
    split
    · split
      · exact ⟨rfl, rfl⟩
      · exact ⟨rfl, rfl⟩
    · split
      · exact ⟨rfl, rfl⟩
      · split
        · exact ⟨rfl, rfl⟩
        · exact ⟨rfl, rfl⟩
  refine ⟨?_, ?_, ?_⟩
  · intro env h
    unfold captureSection at h
    split at h
    · cases h
      exact hcheck _ _ env
    · cases h
      exact hcheck _ _ env
    · cases h
  · intro ret data h
    unfold pcmReadSection at h
    split at h
    · cases h
      refine ⟨rfl, ?_⟩
      show captureReports (if ret = 0 then _ else []) = []
      split
      · rfl
      · rfl
    · cases h
  · intro h
    unfold storeSectionIn at h
    split at h
    · obtain ⟨written, -, hpair⟩ := Option.map_eq_some_iff.mp h
      cases hpair
      exact ⟨⟨written.1, rfl⟩, rfl⟩
    · cases h

/-! ### Steps -/

/-- What holds of the position in every state of a stream. -/
structure Timed (req : AudioConfig) (s : InputSystem n) : Prop where
  reqConfig : s.inp.reqConfig = req
  base : 0 ≤ s.inp.standbyPosition

theorem Timed.init {allocated : Bool} {calloc : Nat → Bool} {p : PeriodProperties} {device : AudioDevice}
    {address : Option String} {config : AudioConfig} {inp : GenericStreamIn}
    (h : adevOpenInputStream allocated calloc p device address config = .ok inp) :
    Timed config (InputSystem.init n inp) := by
  obtain ⟨-, hposition, -⟩ := openInput_standby h
  exact ⟨(openInput_usable h).2.2.2.1, hposition.ge⟩

theorem inputStep_clock {req : AudioConfig} {s t : InputSystem n} {l : InputLabel n} {es : List InputEvent} {now : Nat}
    (h : Timed req s) (hnow : ∀ first ∈ l.reading, first = now) (hstep : inputStep s l = some (t, es)) :
    Timed req t ∧ ∃ shows,
      RateClock.Step req.sampleRate.toNat 1000000 s.inp.clock (now / 1000) t.inp.clock shows ∧
        captureReports es = shows.map fun v : Nat => ((v : Int), now / 1000) := by
  have hrate : inGetSampleRate s.inp = req.sampleRate.toNat := by rw [inGetSampleRate, h.reqConfig]
  -- a step of the worker
  have hworker : SameTime s.inp t.inp → captureReports es = [] → Timed req t ∧ ∃ shows,
      RateClock.Step req.sampleRate.toNat 1000000 s.inp.clock (now / 1000) t.inp.clock shows ∧
        captureReports es = shows.map fun v : Nat => ((v : Int), now / 1000) := by
    intro htime hsilent
    refine ⟨⟨htime.reqConfig.trans h.reqConfig, htime.standbyPosition ▸ h.base⟩, [], ?_, hsilent⟩
    rw [htime.clock]
    exact .kept
  unfold inputStep at hstep
  split at hstep
  · cases hstep
  cases l with
  | reader i l =>
      have hstep : readerStep s i l = some (t, es) := hstep
      rw [readerStep, Option.map_eq_some_iff] at hstep
      obtain ⟨r, hsection, hpair⟩ := hstep
      obtain ⟨hbase, hreq, shows, hclock, hreports⟩ := readerSection_clock h.base hnow hsection
      rw [hrate] at hclock
      cases hpair
      exact ⟨⟨hreq.trans h.reqConfig, hbase⟩, shows, hclock, hreports⟩
  | join i =>
      dsimp only at hstep
      split at hstep
      · cases hstep
        exact hworker (SameTime.refl _) rfl
      · cases hstep
  | capture env =>
      obtain ⟨r, hsection, hpair⟩ := Option.map_eq_some_iff.mp hstep
      obtain ⟨hinp, hevents⟩ := captureWorker_time.1 env hsection
      cases hpair
      refine hworker ?_ (by rw [hevents]; rfl)
      show SameTime s.inp r.inp
      rw [hinp]
      exact SameTime.refl _
  | pcmRead ret data =>
      obtain ⟨r, hsection, hpair⟩ := Option.map_eq_some_iff.mp hstep
      obtain ⟨hinp, hevents⟩ := captureWorker_time.2.1 ret data hsection
      cases hpair
      refine hworker ?_ hevents
      show SameTime s.inp r.inp
      rw [hinp]
      exact SameTime.refl _
  | store =>
      obtain ⟨r, hsection, hpair⟩ := Option.map_eq_some_iff.mp hstep
      obtain ⟨⟨buffer, hinp⟩, hevents⟩ := captureWorker_time.2.2 hsection
      cases hpair
      refine hworker ?_ hevents
      show SameTime s.inp r.inp
      rw [hinp]
      exact ⟨rfl, rfl, rfl, rfl⟩
  | captureSpurious =>
      dsimp only at hstep
      split at hstep
      · cases hstep
        exact hworker (SameTime.refl _) rfl
      · cases hstep

/-! ### Runs -/

/-- In standby the position is the stored one. -/
theorem getCurrentInputPosition_standby {inp : GenericStreamIn} (h : inp.standby = true) (now : Nat) :
    getCurrentInputPosition inp now = inp.standbyPosition := by
  rw [getCurrentInputPosition, if_pos h, Int.add_zero]

/-- A step from standby to standby keeps the stored position, which is all that is reported. -/
theorem standby_step {req : AudioConfig} {s t : InputSystem n} {l : InputLabel n} {es : List InputEvent} {now : Nat}
    (h : Timed req s) (hnow : ∀ first ∈ l.reading, first = now) (hstep : inputStep s l = some (t, es))
    (hbefore : s.inp.standby = true) (hafter : t.inp.standby = true) :
    t.inp.standbyPosition = s.inp.standbyPosition ∧ ∀ r ∈ captureReports es, r.1 = s.inp.standbyPosition := by
  obtain ⟨ht, shows, hclock, hreports⟩ := inputStep_clock h hnow hstep
  have hstanding : ∀ {inp : GenericStreamIn}, 0 ≤ inp.standbyPosition → inp.standby = true →
      ((inp.clock.value req.sampleRate.toNat 1000000 (now / 1000) : Nat) : Int) = inp.standbyPosition := by
    intro inp hbase hstandby
    rw [RateClock.value_of_standing (by simp [GenericStreamIn.clock, hstandby])]
    exact Int.toNat_of_nonneg hbase
  refine ⟨?_, ?_⟩
  · calc t.inp.standbyPosition
        = ((t.inp.clock.value req.sampleRate.toNat 1000000 (now / 1000) : Nat) : Int) := (hstanding ht.base hafter).symm
      _ = ((s.inp.clock.value req.sampleRate.toNat 1000000 (now / 1000) : Nat) : Int) := by rw [hclock.value_eq]
      _ = s.inp.standbyPosition := hstanding h.base hbefore
  · intro r hr
    rw [hreports] at hr
    obtain ⟨v, hv, rfl⟩ := List.mem_map.mp hr
    rw [hclock.shows_value v hv]
    exact hstanding h.base hbefore

theorem standby_run {req : AudioConfig} {s u : InputSystem n × Nat} {labels : List (InputLabel n)}
    {events : List InputEvent} (h : Timed req s.1)
    (hstanding : Guarded (clocked inputStep InputLabel.reading) (fun s _ => s.1.inp.standby = true) s labels)
    (hrun : exec (clocked inputStep InputLabel.reading) s labels = some (u, events)) (hend : u.1.inp.standby = true) :
    u.1.inp.standbyPosition = s.1.inp.standbyPosition ∧ ∀ r ∈ captureReports events, r.1 = s.1.inp.standbyPosition := by
  induction labels generalizing s events with
  | nil =>
      cases hrun
      exact ⟨rfl, fun r hr => by cases hr⟩
  | cons l labels ih =>
      obtain ⟨t, es, fs, hone, hrest, rfl⟩ := exec_cons_eq_some.mp hrun
      obtain ⟨-, -, hstep⟩ := clocked_eq_some.mp hone
      have hguard := hstanding.2 t es hone
      have ht := (inputStep_clock h (clocked_reading hone) hstep).1
      obtain ⟨hlast, hlater⟩ := ih ht hguard hrest
      have hafter : t.1.inp.standby = true := by
        cases labels with
        | nil =>
            cases hrest
            exact hend
        | cons m labels => exact hguard.1
      obtain ⟨hkept, hfirst⟩ := standby_step h (clocked_reading hone) hstep hstanding.1 hafter
      refine ⟨hlast.trans hkept, ?_⟩
      rw [captureReports_append, List.forall_mem_append]
      exact ⟨hfirst, fun r hr => (hlater r hr).trans hkept⟩

/-- The reported positions rise up to the counter's value, and keep pace with the clock. -/
structure CaptureReported (req : AudioConfig) (events : List InputEvent) (s : InputSystem n × Nat) : Prop where
  timed : Timed req s.1
  reports : ∃ reports : List (Nat × Nat), captureReports events = reports.map (fun r => ((r.1 : Int), r.2)) ∧
    RateClock.Rising reports (s.1.inp.clock.value req.sampleRate.toNat 1000000 (s.2 / 1000)) ∧
    RateClock.Paced req.sampleRate.toNat 1000000 reports
      (s.1.inp.clock.exact req.sampleRate.toNat 1000000 (s.2 / 1000)) (s.2 / 1000)

theorem captureReported_step {req : AudioConfig} (h : List InputEvent) (s : InputSystem n × Nat) (l : InputLabel n)
    (t : InputSystem n × Nat) (es : List InputEvent) (hinv : CaptureReported req h s)
    (hclocked : clocked inputStep InputLabel.reading s l = some (t, es)) : CaptureReported req (h ++ es) t := by
  obtain ⟨htimed, reports, hreports, hrising, hpaced⟩ := hinv
  obtain ⟨-, hle, hstep⟩ := clocked_eq_some.mp hclocked
  have hmicro : s.2 / 1000 ≤ t.2 / 1000 := Nat.div_le_div_right hle
  obtain ⟨hnext, shows, hclock, hshows⟩ := inputStep_clock htimed (clocked_reading hclocked) hstep
  refine ⟨hnext, reports ++ shows.map fun v => (v, t.2 / 1000), ?_, hclock.rising hmicro hrising,
    hclock.paced (by decide) hmicro hpaced⟩
  rw [captureReports_append, hreports, hshows, List.map_append, List.map_map]
  rfl

section Runs

variable {allocated : Bool} {calloc : Nat → Bool} {p : PeriodProperties} {device : AudioDevice} {address : Option String}
  {config : AudioConfig} {inp : GenericStreamIn}

/-- In every run, the positions that are reported never fall, two of them differ by the frames of the time between
them, and one, at most, and the position stands still in standby. -/
theorem capture_positions (hopen : adevOpenInputStream allocated calloc p device address config = .ok inp)
    {labels : List (InputLabel n)} {s : InputSystem n × Nat} {events : List InputEvent}
    (hrun : exec (clocked inputStep InputLabel.reading) (InputSystem.init n inp, 0) labels = some (s, events)) :
    (captureReports events).Pairwise (fun r r' => r.2 ≤ r'.2 ∧ r.1 ≤ r'.1 ∧
        r'.1 - r.1 ≤ ((config.sampleRate.toNat * (r'.2 - r.2) / 1000000 + 1 : Nat) : Int)) ∧
      ∀ later u es, Guarded (clocked inputStep InputLabel.reading) (fun s _ => s.1.inp.standby = true) s later →
        exec (clocked inputStep InputLabel.reading) s later = some (u, es) → u.1.inp.standby = true →
        (∀ first last, s.1.inp.standby = true →
          getCurrentInputPosition u.1.inp last = getCurrentInputPosition s.1.inp first) ∧
        ∀ r ∈ captureReports es, r.1 = u.1.inp.standbyPosition := by
  have hinit : CaptureReported config [] ((InputSystem.init n inp, 0) : InputSystem n × Nat) :=
    ⟨Timed.init hopen, [], rfl, RateClock.rising_nil _, RateClock.paced_nil _ _⟩
  obtain ⟨htimed, reports, hreports, ⟨-, hrise⟩, -, hpace⟩ := exec_history _ captureReported_step hinit hrun
  refine ⟨?_, ?_⟩
  · rw [hreports, List.pairwise_map]
    refine (hpace.and hrise).imp fun ⟨⟨htime, hle⟩, hrises⟩ => ⟨htime, Int.ofNat_le.mpr hrises, ?_⟩
    dsimp only
    rw [Nat.mul_comm]
    omega
  · intro later u es hstanding hlater hend
    obtain ⟨hkept, hall⟩ := standby_run htimed hstanding hlater hend
    refine ⟨fun first last hbefore => ?_, ?_⟩
    · rw [getCurrentInputPosition_standby hend, getCurrentInputPosition_standby hbefore, hkept]
    · rw [hkept]
      exact hall

end Runs

/-- A microphone is read for 300 microseconds and asked for its position before and after it stands by. -/
def readThenStandby : List (InputLabel 1) :=
  [.reader (Fin.last 0) (.read (fun _ => 0) 4 0 false), .reader (Fin.last 0) (.readSlept (fun _ => 0) fun _ => none),
    .reader (Fin.last 0) (.capturePosition 250000), .reader (Fin.last 0) (.standby 300000),
    .reader (Fin.last 0) (.capturePosition 1000000)]

theorem capture_positions_readThenStandby :
    ∃ s events, exec (clocked inputStep InputLabel.reading) (InputSystem.init 1 eightFramesIn, 0) readThenStandby =
        some (s, events) ∧
      captureReports events = [(2, 250), (2, 1000)] ∧
      (captureReports events).Pairwise fun r r' => r.2 ≤ r'.2 ∧ r.1 ≤ r'.1 ∧
        r'.1 - r.1 ≤ ((8000 * (r'.2 - r.2) / 1000000 + 1 : Nat) : Int) := by
  have hrun : exec (clocked inputStep InputLabel.reading) (InputSystem.init 1 eightFramesIn, 0) readThenStandby =
    some (_, _) := rfl
  exact ⟨_, _, hrun, by decide +kernel, (capture_positions open_eightFramesIn hrun).1⟩

end Trout.Audio

import Trout.CapturePosition

/-! The assertion of `in_read`: a call never counts frames that have not been captured. A call that has to wait
sleeps for the time of the frames it waits for, rounded down to microseconds, and the position is rounded down to
frames. The fraction of a frame that the sleep loses must be there already when the call enters. -/

namespace Trout.Audio
open CInt Runs

variable {n : Nat}

/-- What `in_read` passes to `usleep`, if it sleeps at all. A `useconds_t` has 32 bits. -/
def inReadUsleep (inp : GenericStreamIn) (bytes now : Nat) : Nat :=
  let entered := inReadEnter inp now
  let sleepTimeUs := inReadSleepTimeUs entered.1 entered.2 (bytes / audioStreamInFrameSize inp)
  if sleepTimeUs > 0 then toUint sleepTimeUs else 0

/-- The sleep of `in_read`, in nanoseconds. -/
def captureSleepers (n : Nat) : Sleepers (InputSystem n) (InputLabel n) (Fin n) where
  reading := InputLabel.reading
  sleeps := fun s l =>
    match l with
    | .reader i (.read _ bytes now _) => some (i, 1000 * inReadUsleep s.inp bytes.toNat now)
    | _ => none
  resumes := fun l =>
    match l with
    | .reader i (.readSlept _ _) => some i
    | _ => none

/-- Nobody but the reader `i` calls `in_read`. -/
def InputLabel.ReadBy (i : Fin n) : InputLabel n → Prop
  | .reader j (.read _ _ _ _) => j = i
  | _ => True

/-- The millionths of a frame that have been captured since standby. -/
def capturedMillionths (inp : GenericStreamIn) (now : Nat) : Nat :=
  if inp.standby then 0 else (now / 1000 - inp.standbyExitTime / 1000) * inGetSampleRate inp

/-- The frames that a call of `frames` frames lacks at time `now`. -/
def framesLacking (inp : GenericStreamIn) (now frames : Nat) : Nat :=
  (if inp.standby then 0 else inp.standbyFramesRead.toNat) + frames - capturedMillionths inp now / 1000000

/-- The frames that a call lacks take up to a fraction of a microsecond that is made up for by a fraction of a frame
already captured; their time fits a `useconds_t` and the captured ones an `int64_t`. -/
def SleepCovers (inp : GenericStreamIn) (now frames : Nat) : Prop :=
  framesLacking inp now frames * 1000000 % inGetSampleRate inp ≤ capturedMillionths inp now % 1000000 ∧
    framesLacking inp now frames * 1000000 < 2 ^ 32 * inGetSampleRate inp ∧ capturedMillionths inp now < 2 ^ 63

instance (inp : GenericStreamIn) (now frames : Nat) : Decidable (SleepCovers inp now frames) :=
  inferInstanceAs (Decidable (_ ∧ _ ∧ _))

/-- Every `in_read` sleeps long enough. -/
def ReadCovered (s : TimedState (InputSystem n) (Fin n)) : InputLabel n × Nat → Prop
  | (.reader _ (.read _ bytes now _), _) =>
      SleepCovers s.state.inp now (bytes.toNat / audioStreamInFrameSize s.state.inp)
  | _ => True

/-! ### One call -/

/-- Waiting for the frames that are lacking captures them, if the fraction lost is there already. -/
theorem covered_frames {rate millionths counted frames lacking : Nat}
    (hlacking : lacking = counted + frames - millionths / 1000000)
    (hfraction : lacking * 1000000 % rate ≤ millionths % 1000000) :
    counted + frames ≤ (millionths + lacking * 1000000 / rate * rate) / 1000000 := by
  rw [Nat.le_div_iff_mul_le (by decide)]
  have hwhole := Nat.div_add_mod millionths 1000000
  have hslept := Nat.div_add_mod (lacking * 1000000) rate
  rw [Nat.mul_comm rate] at hslept
  omega

theorem inReadEnter_available (inp : GenericStreamIn) (now : Nat) :
    (inReadEnter inp now).2 =
      if inp.standby then 0 else ((capturedMillionths inp now / 1000000 : Nat) : Int) - inp.standbyFramesRead := by
  simp only [inReadEnter, getCurrentInputPosition, framesSince_eq, capturedMillionths, inGetSampleRate]
  by_cases hstandby : inp.standby
  · simp only [if_pos hstandby]
    omega
  · simp only [if_neg hstandby]
    omega

/-- The frames counted are not negative, and out of standby they have been captured. -/
structure CountedFrames (inp : GenericStreamIn) (now : Nat) : Prop where
  nonneg : 0 ≤ inp.standbyFramesRead
  captured : inp.standby = false → inp.standbyFramesRead ≤ (capturedMillionths inp now / 1000000 : Nat)

theorem CountedFrames.available {inp : GenericStreamIn} {now : Nat} (h : CountedFrames inp now) :
    ∃ available : Nat, (inReadEnter inp now).2 = available ∧ available ≤ capturedMillionths inp now / 1000000 ∧
      ∀ frames, framesLacking inp now frames = frames - available := by
  rw [inReadEnter_available]
  by_cases hstandby : inp.standby
  · refine ⟨0, by rw [if_pos hstandby]; rfl, Nat.zero_le _, fun frames => ?_⟩
    simp only [framesLacking, capturedMillionths, if_pos hstandby]
    omega
  · have hcaptured := h.captured (by simpa using hstandby)
    have hnonneg := h.nonneg
    refine ⟨capturedMillionths inp now / 1000000 - inp.standbyFramesRead.toNat, ?_, Nat.sub_le _ _, fun frames => ?_⟩
    · rw [if_neg hstandby]
      omega
    · simp only [framesLacking, if_neg hstandby]
      omega

theorem inReadUsleep_eq {inp : GenericStreamIn} {bytes now : Nat} (hbytes : bytes < 2 ^ 64)
    (h : CountedFrames inp now) (hcovers : SleepCovers inp now (bytes / audioStreamInFrameSize inp)) :
    inReadUsleep inp bytes now =
      framesLacking inp now (bytes / audioStreamInFrameSize inp) * 1000000 / inGetSampleRate inp := by
  obtain ⟨available, havailable, hcaptured, hlacking⟩ := h.available
  obtain ⟨-, hshort, hmillionths⟩ := hcovers
  have hframes : bytes / audioStreamInFrameSize inp < 2 ^ 64 := lt_of_le_of_lt (Nat.div_le_self _ _) hbytes
  have hrate : inGetSampleRate inp < 2 ^ 32 := inp.reqConfig.sampleRate.toNat_lt
  have hsame : inGetSampleRate (inReadEnter inp now).1 = inGetSampleRate inp := by
    rw [inGetSampleRate, (inReadEnter_same inp now).1.reqConfig, inGetSampleRate]
  rw [hlacking] at hshort ⊢
  simp only [inReadUsleep, havailable]
  generalize bytes / audioStreamInFrameSize inp = frames at hframes hshort ⊢
  have hsize : toSize (available : Int) = available := toSize_natCast (by omega)
  have hwait : (if available > frames then 0 else sizeSub frames available) = frames - available := by
    split
    · omega
    · rw [sizeSub_of_le (by omega) hframes]
  have hmul : sizeMul (frames - available) 1000000 = (frames - available) * 1000000 := sizeMul_of_lt (by omega)
  have hquotient : (frames - available) * 1000000 / inGetSampleRate inp < 2 ^ 32 := by
    apply Nat.div_lt_of_lt_mul
    rwa [Nat.mul_comm (inGetSampleRate inp)]
  have hsleep : inReadSleepTimeUs (inReadEnter inp now).1 available frames =
      ((frames - available) * 1000000 / inGetSampleRate inp : Nat) := by
    simp only [inReadSleepTimeUs, hsize, hwait, hmul, hsame]
    exact toLong_natCast (by omega)
  simp only [hsleep, toUint_natCast hquotient]
  generalize (frames - available) * 1000000 / inGetSampleRate inp = micros
  split
  · rfl
  · omega

/-! ### Sections -/

theorem capturedMillionths_mono (inp : GenericStreamIn) {first now : Nat} (h : first ≤ now) :
    capturedMillionths inp first ≤ capturedMillionths inp now := by
  rw [capturedMillionths, capturedMillionths]
  split
  · exact le_refl 0
  · apply Nat.mul_le_mul_right
    apply Nat.sub_le_sub_right
    exact Nat.div_le_div_right h

theorem CountedFrames.mono {inp : GenericStreamIn} {first now : Nat} (h : CountedFrames inp first) (hle : first ≤ now) :
    CountedFrames inp now := by
  refine ⟨h.nonneg, fun hstandby => le_trans (h.captured hstandby) ?_⟩
  exact Int.ofNat_le.mpr (Nat.div_le_div_right (capturedMillionths_mono inp hle))

theorem capturedMillionths_same {inp inp' : GenericStreamIn} (h : SameTime inp inp') (now : Nat) :
    capturedMillionths inp' now = capturedMillionths inp now := by
  rw [capturedMillionths, capturedMillionths, h.standby, h.standbyExitTime, inGetSampleRate, h.reqConfig, inGetSampleRate]

/-- `in_read` leaves standby and forgets the frames counted before. -/
theorem inReadEnter_time (inp : GenericStreamIn) (now : Nat) :
    (inReadEnter inp now).1.standby = false ∧
      (inReadEnter inp now).1.standbyExitTime = (if inp.standby then now else inp.standbyExitTime) ∧
      (inReadEnter inp now).1.standbyFramesRead = (if inp.standby then 0 else inp.standbyFramesRead) := by
  simp only [inReadEnter]
  by_cases hstandby : inp.standby
  · simp only [if_pos hstandby, and_self]
  · simp only [if_neg hstandby, and_true]
    simpa using hstandby

/-- What is captured after the call has slept. -/
theorem inReadEnter_captured {inp : GenericStreamIn} {now : Nat}
    (hstarted : inp.standby = false → inp.standbyExitTime ≤ now) (micros : Nat) :
    capturedMillionths (inReadEnter inp now).1 (now + 1000 * micros) =
      capturedMillionths inp now + micros * inGetSampleRate inp := by
  obtain ⟨hrunning, hexit, -⟩ := inReadEnter_time inp now
  have hrate : inGetSampleRate (inReadEnter inp now).1 = inGetSampleRate inp := by
    rw [inGetSampleRate, (inReadEnter_same inp now).1.reqConfig, inGetSampleRate]
  rw [capturedMillionths, hrunning, if_neg Bool.false_ne_true, hexit, hrate, capturedMillionths]
  by_cases hstandby : inp.standby
  · rw [if_pos hstandby, if_pos hstandby, Nat.zero_add]
    congr 1
    omega
  · have hbefore := hstarted (by simpa using hstandby)
    rw [if_neg hstandby, if_neg hstandby, ← Nat.add_mul]
    congr 1
    omega

theorem doInStandby_frames (inp : GenericStreamIn) (now : Nat) :
    (doInStandby inp now).standby = true ∧ (doInStandby inp now).standbyFramesRead = inp.standbyFramesRead := by
  rw [doInStandby]
  by_cases hstandby : inp.standby
  · rw [if_pos hstandby]
    exact ⟨hstandby, rfl⟩
  · rw [if_neg hstandby]
    exact ⟨rfl, rfl⟩

/-- A call that sleeps long enough has captured its frames when it goes on. -/
theorem CountedFrames.sleep {inp : GenericStreamIn} {bytes now : Nat} (h : CountedFrames inp now)
    (hbytes : bytes < 2 ^ 64) (hstarted : inp.standby = false → inp.standbyExitTime ≤ now)
    (hcovers : SleepCovers inp now (bytes / audioStreamInFrameSize inp)) :
    CountedFrames (inReadEnter inp now).1 now ∧
      (inReadEnter inp now).1.standbyFramesRead + (bytes / audioStreamInFrameSize inp : Nat) ≤
        (capturedMillionths (inReadEnter inp now).1 (now + 1000 * inReadUsleep inp bytes now) / 1000000 : Nat) ∧
      (inReadEnter inp now).1.standbyFramesRead + (bytes / audioStreamInFrameSize inp : Nat) < 2 ^ 63 := by
  obtain ⟨hrunning, -, hframes⟩ := inReadEnter_time inp now
  have hrate : inGetSampleRate inp < 2 ^ 32 := inp.reqConfig.sampleRate.toNat_lt
  have hnow := inReadEnter_captured hstarted 0
  rw [Nat.mul_zero, Nat.add_zero, Nat.zero_mul, Nat.add_zero] at hnow
  have hnonneg : 0 ≤ (inReadEnter inp now).1.standbyFramesRead := by
    rw [hframes]
    split
    · exact le_refl 0
    · exact h.nonneg
  refine ⟨⟨hnonneg, fun _ => ?_⟩, ?_⟩
  · rw [hnow, hframes]
    split
    · exact Int.natCast_nonneg _
    · rename_i hstandby
      exact h.captured (by simpa using hstandby)
  have hlacking : framesLacking inp now (bytes / audioStreamInFrameSize inp) =
      (inReadEnter inp now).1.standbyFramesRead.toNat + bytes / audioStreamInFrameSize inp -
        capturedMillionths inp now / 1000000 := by
    rw [framesLacking, hframes]
    split
    · rfl
    · rfl
  have hcovered := covered_frames hlacking hcovers.1
  rw [inReadEnter_captured hstarted, inReadUsleep_eq hbytes h hcovers]
  have hslept : framesLacking inp now (bytes / audioStreamInFrameSize inp) * 1000000 / inGetSampleRate inp *
      inGetSampleRate inp ≤ framesLacking inp now (bytes / audioStreamInFrameSize inp) * 1000000 := Nat.div_mul_le_self _ _
  have hshort := hcovers.2.1
  have hcaptured := hcovers.2.2
  omega

/-! ### Runs -/

/-- What holds of the only reader in every state, while its calls sleep long enough. -/
structure Covered (i : Fin n) (s : TimedState (InputSystem n) (Fin n)) : Prop where
  others : ∀ j c, s.state.readers j = .readSleeping c → j = i
  started : s.state.inp.standby = false → s.state.inp.standbyExitTime ≤ s.now
  counted : CountedFrames s.state.inp s.now
  sleeping : ∀ c, s.state.readers i = .readSleeping c → s.state.inp.standby = false →
    s.state.inp.standbyFramesRead + (c.bytes / audioStreamInFrameSize s.state.inp : Nat) ≤
        (capturedMillionths s.state.inp (s.wake i) / 1000000 : Nat) ∧
      s.state.inp.standbyFramesRead + (c.bytes / audioStreamInFrameSize s.state.inp : Nat) < 2 ^ 63

theorem Covered.init {allocated : Bool} {calloc : Nat → Bool} {p : PeriodProperties} {device : AudioDevice}
    {address : Option String} {config : AudioConfig} {inp : GenericStreamIn} (i : Fin n)
    (h : adevOpenInputStream allocated calloc p device address config = .ok inp) :
    Covered i ⟨InputSystem.init n inp, 0, fun _ => 0⟩ := by
  obtain ⟨hstandby, -, hframes⟩ := openInput_standby h
  refine ⟨fun j c hpc => (by cases hpc), fun hrunning => absurd (hstandby.symm.trans hrunning) (by decide), ?_,
    fun c hpc => (by cases hpc)⟩
  exact ⟨hframes.ge, fun hrunning => absurd (hstandby.symm.trans hrunning) (by decide)⟩

variable {i : Fin n} {s t : TimedState (InputSystem n) (Fin n)}

/-- A step that leaves time, counted frames and sleepers alone. -/
theorem Covered.quiet (h : Covered i s) (hnow : s.now ≤ t.now) (htime : SameTime s.state.inp t.state.inp)
    (hframes : t.state.inp.standbyFramesRead = s.state.inp.standbyFramesRead)
    (hreaders : ∀ j c, t.state.readers j = .readSleeping c → s.state.readers j = .readSleeping c)
    (hwake : t.wake = s.wake) : Covered i t := by
  have hsize : audioStreamInFrameSize t.state.inp = audioStreamInFrameSize s.state.inp := by
    rw [audioStreamInFrameSize, htime.reqConfig, audioStreamInFrameSize]
  have hcounted := h.counted.mono hnow
  refine ⟨fun j c hpc => h.others j c (hreaders j c hpc), fun hrunning => ?_, ⟨?_, fun hrunning => ?_⟩,
    fun c hpc hrunning => ?_⟩
  · rw [htime.standbyExitTime]
    exact le_trans (h.started (htime.standby ▸ hrunning)) hnow
  · rw [hframes]
    exact hcounted.nonneg
  · rw [hframes, capturedMillionths_same htime]
    exact hcounted.captured (htime.standby ▸ hrunning)
  · rw [hframes, hsize, capturedMillionths_same htime, hwake]
    exact h.sleeping c (hreaders i c hpc) (htime.standby ▸ hrunning)

/-- A step that puts the stream in standby. -/
theorem Covered.rests (h : Covered i s) (hstandby : t.state.inp.standby = true)
    (hframes : t.state.inp.standbyFramesRead = s.state.inp.standbyFramesRead)
    (hreaders : ∀ j c, t.state.readers j = .readSleeping c → s.state.readers j = .readSleeping c) : Covered i t := by
  have hnever : ∀ {P : Prop}, t.state.inp.standby = false → P := fun hrunning =>
    absurd (hstandby.symm.trans hrunning) (by decide)
  exact ⟨fun j c hpc => h.others j c (hreaders j c hpc), hnever, ⟨hframes ▸ h.counted.nonneg, hnever⟩,
    fun c hpc => hnever⟩

/-- A read that goes to sleep has entered and has the reader's place. -/
theorem readSection_enters {inp : GenericStreamIn} {buffer : Nat → UInt8} {bytes now : Nat} {micMute : Bool}
    {r : InputSection ReaderPc} (h : readSection inp buffer bytes now micMute = some r) :
    r.inp = (inReadEnter inp now).1 ∧ ∃ c, r.pc = .readSleeping c ∧ c.bytes = bytes := by
  rw [readSection] at h
  split at h
  · cases h
  · dsimp only at h
    split at h
    · cases h
      exact ⟨rfl, _, rfl, rfl⟩
    · cases h

/-- The reader goes to sleep for long enough. -/
theorem Covered.sleeps {bytes : Nat} {c : ReadCall} (h : Covered i s) (hnow : s.now ≤ t.now)
    (hlt : bytes < 2 ^ 64) (hbytes : c.bytes = bytes)
    (hcovers : SleepCovers s.state.inp t.now (bytes / audioStreamInFrameSize s.state.inp))
    (hinp : t.state.inp = (inReadEnter s.state.inp t.now).1)
    (hreaders : t.state.readers = Function.update s.state.readers i (.readSleeping c))
    (hwake : t.wake = Function.update s.wake i (t.now + 1000 * inReadUsleep s.state.inp bytes t.now)) : Covered i t := by
  have hstarted : s.state.inp.standby = false → s.state.inp.standbyExitTime ≤ t.now :=
    fun hrunning => le_trans (h.started hrunning) hnow
  obtain ⟨hcounted, hslept, hshort⟩ := (h.counted.mono hnow).sleep hlt hstarted hcovers
  obtain ⟨-, hexit, -⟩ := inReadEnter_time s.state.inp t.now
  have hsize : audioStreamInFrameSize (inReadEnter s.state.inp t.now).1 = audioStreamInFrameSize s.state.inp := by
    rw [audioStreamInFrameSize, (inReadEnter_same s.state.inp t.now).1.reqConfig, audioStreamInFrameSize]
  refine ⟨fun k d hk => ?_, fun _ => ?_, ?_, fun d hd _ => ?_⟩
  · rw [hreaders] at hk
    by_cases hki : k = i
    · exact hki
    · rw [Function.update_of_ne hki] at hk
      exact h.others k d hk
  · rw [hinp, hexit]
    split
    · exact le_refl _
    · rename_i hstandby
      exact hstarted (by simpa using hstandby)
  · rw [hinp]
    exact hcounted
  · rw [hreaders, Function.update_self] at hd
    cases hd
    rw [hinp, hsize, hbytes, hwake, Function.update_self]
    exact ⟨hslept, hshort⟩

/-- The reader has slept and counts the frames of its call. -/
theorem Covered.counts {c : ReadCall} {tone : Nat → Int16} {realloc : Nat → Option (Nat → UInt8)}
    {filled : GenericStreamIn × (Nat → UInt8) × Int} (h : Covered i s) (hnow : s.now ≤ t.now)
    (hpc : s.state.readers i = .readSleeping c) (hwoken : s.wake i ≤ t.now)
    (hfill : inReadFill s.state.inp c tone realloc = some filled) (hinp : t.state.inp = filled.1)
    (hreaders : t.state.readers = Function.update s.state.readers i .idle) : Covered i t := by
  obtain ⟨htime, hframes⟩ := inReadFill_time hfill
  have hsleepers : ∀ k d, t.state.readers k = .readSleeping d → s.state.readers k = .readSleeping d ∧ k ≠ i := by
    intro k d hk
    rw [hreaders] at hk
    by_cases hki : k = i
    · rw [hki, Function.update_self] at hk
      cases hk
    · rw [Function.update_of_ne hki] at hk
      exact ⟨hk, hki⟩
  by_cases hstandby : s.state.inp.standby
  · refine h.rests ?_ ?_ fun k d hk => (hsleepers k d hk).1
    · rw [hinp, htime.standby]
      exact hstandby
    · rw [hinp, hframes, if_pos hstandby]
  have hrunning : s.state.inp.standby = false := by simpa using hstandby
  obtain ⟨hslept, hshort⟩ := h.sleeping c hpc hrunning
  have hcounted : t.state.inp.standbyFramesRead =
      s.state.inp.standbyFramesRead + (c.bytes / audioStreamInFrameSize s.state.inp : Nat) := by
    obtain ⟨counted, hnat⟩ := Int.eq_ofNat_of_zero_le h.counted.nonneg
    rw [hinp, hframes, if_neg hstandby]
    rw [hnat] at hshort ⊢
    rw [← Int.natCast_add]
    exact toLong_natCast (by omega)
  refine ⟨fun k d hk => h.others k d (hsleepers k d hk).1, fun _ => ?_, ⟨?_, fun _ => ?_⟩, fun d hd _ => ?_⟩
  · rw [hinp, htime.standbyExitTime]
    exact le_trans (h.started hrunning) hnow
  · rw [hcounted]
    exact Int.add_nonneg h.counted.nonneg (Int.natCast_nonneg _)
  · rw [hcounted, hinp, capturedMillionths_same htime]
    exact le_trans hslept (Int.ofNat_le.mpr (Nat.div_le_div_right (capturedMillionths_mono _ hwoken)))
  · exact absurd rfl (hsleepers i d hd).2

theorem covered_reader {j : Fin n} {l : ReaderLabel} {now : Nat} {es : List InputEvent} (h : Covered i s)
    (hreader : (InputLabel.reader j l).ReadBy i) (hcovered : ReadCovered s (.reader j l, now))
    (hstep : readerStep s.state j l = some (t.state, es)) (hnow : s.now ≤ t.now)
    (hreading : ∀ first ∈ l.reading, first = t.now)
    (hresumes : ∀ k ∈ (captureSleepers n).resumes (.reader j l), s.wake k ≤ t.now)
    (hwake : t.wake = ((captureSleepers n).sleeps s.state (.reader j l)).elim s.wake fun p =>
      Function.update s.wake p.1 (t.now + p.2)) : Covered i t := by
  rw [readerStep, Option.map_eq_some_iff] at hstep
  obtain ⟨r, hsection, hpair⟩ := hstep
  have hinp : t.state.inp = r.inp := (congrArg (fun p => p.1.inp) hpair).symm
  have hreaders : t.state.readers = Function.update s.state.readers j r.pc :=
    (congrArg (fun p => p.1.readers) hpair).symm
  -- a section that does not go to sleep leaves the sleepers among the others
  have hawake : (∀ c, r.pc ≠ .readSleeping c) →
      ∀ k c, t.state.readers k = .readSleeping c → s.state.readers k = .readSleeping c := by
    intro hpc k c hk
    rw [hreaders] at hk
    by_cases hkj : k = j
    · rw [hkj, Function.update_self] at hk
      exact absurd hk (hpc c)
    · rwa [Function.update_of_ne hkj] at hk
  unfold readerSection at hsection
  split at hsection
  · rename_i buffer bytes first micMute _
    obtain rfl : first = t.now := hreading first rfl
    obtain rfl : j = i := hreader
    obtain ⟨hentered, c, hpc, hbytes⟩ := readSection_enters hsection
    exact h.sleeps hnow bytes.toNat_lt hbytes hcovered (hinp.trans hentered) (hpc ▸ hreaders) hwake
  · rename_i c tone realloc hpc
    obtain rfl : j = i := h.others j c hpc
    obtain ⟨filled, hfill, hpair⟩ := Option.map_eq_some_iff.mp hsection
    cases hpair
    exact h.counts hnow hpc (hresumes j rfl) hfill hinp hreaders
  · rename_i first _
    cases hsection
    obtain ⟨hstandby, hframes⟩ := doInStandby_frames s.state.inp first
    exact h.rests (hinp ▸ hstandby) (hinp ▸ hframes) (hawake fun c => by simp)
  · rename_i first _
    cases hsection
    obtain ⟨hstandby, hframes⟩ := doInStandby_frames s.state.inp first
    exact h.rests (hinp ▸ hstandby) (hinp ▸ hframes) (hawake fun c => by simp)
  · rename_i first _
    cases hsection
    exact h.quiet hnow (hinp ▸ SameTime.refl _) (hinp ▸ rfl) (hawake fun c => by simp) hwake
  · cases hsection

theorem covered_step {l : InputLabel n × Nat} {es : List InputEvent} (h : Covered i s) (hreader : l.1.ReadBy i)
    (hcovered : ReadCovered s l) (hstep : timed inputStep (captureSleepers n) s l = some (t, es)) : Covered i t := by
  obtain ⟨hstep, hnow, hlabel, hreading, hresumes, hwake⟩ := timed_eq_some hstep
  obtain ⟨l, now⟩ := l
  unfold inputStep at hstep
  split at hstep
  · cases hstep
  -- a step that changes the ring buffer at most, and no reader
  have hquiet : ∀ buffer, t.state.inp = { s.state.inp with buffer := buffer } → t.state.readers = s.state.readers →
      t.wake = s.wake → Covered i t := by
    intro buffer hinp hreaders hwake
    refine h.quiet hnow ?_ ?_ (fun j c hpc => hreaders ▸ hpc) hwake
    · rw [hinp]
      exact ⟨rfl, rfl, rfl, rfl⟩
    · rw [hinp]
  have hworker : ∀ r : InputSection CapturePc, s.state.captured r = (t.state, es) →
      (∃ buffer, r.inp = { s.state.inp with buffer := buffer }) → t.wake = s.wake → Covered i t := by
    rintro r hpair ⟨buffer, hbuffer⟩ hwake
    exact hquiet buffer ((congrArg (fun p => p.1.inp) hpair).symm.trans hbuffer)
      (congrArg (fun p => p.1.readers) hpair).symm hwake
  cases l with
  | reader j l => exact covered_reader h hreader hcovered hstep hnow hreading hresumes hwake
  | join j =>
      dsimp only at hstep
      split at hstep
      · have hpair := Option.some.inj hstep
        exact hquiet _ (congrArg (fun p => p.1.inp) hpair).symm (congrArg (fun p => p.1.readers) hpair).symm hwake
      · cases hstep
  | capture env =>
      obtain ⟨r, hsection, hpair⟩ := Option.map_eq_some_iff.mp hstep
      exact hworker r hpair ⟨_, (captureWorker_time.1 env hsection).1⟩ hwake
  | pcmRead ret data =>
      obtain ⟨r, hsection, hpair⟩ := Option.map_eq_some_iff.mp hstep
      exact hworker r hpair ⟨_, (captureWorker_time.2.1 ret data hsection).1⟩ hwake
  | store =>
      obtain ⟨r, hsection, hpair⟩ := Option.map_eq_some_iff.mp hstep
      exact hworker r hpair (captureWorker_time.2.2 hsection).1 hwake
  | captureSpurious =>
      dsimp only at hstep
      split at hstep
      · have hpair := Option.some.inj hstep
        exact hquiet _ (congrArg (fun p => p.1.inp) hpair).symm (congrArg (fun p => p.1.readers) hpair).symm hwake
      · cases hstep

/-- In every run of one reader whose calls sleep long enough, the assertion holds at whatever time it calls again. -/
theorem assertion_holds {allocated : Bool} {calloc : Nat → Bool} {p : PeriodProperties} {device : AudioDevice}
    {address : Option String} {config : AudioConfig} {inp : GenericStreamIn} {i : Fin n}
    (hopen : adevOpenInputStream allocated calloc p device address config = .ok inp)
    {labels : List (InputLabel n × Nat)} {s : TimedState (InputSystem n) (Fin n)} {events : List InputEvent}
    (hreader : ∀ l ∈ labels, l.1.ReadBy i)
    (hcovered : Guarded (timed inputStep (captureSleepers n)) ReadCovered ⟨InputSystem.init n inp, 0, fun _ => 0⟩ labels)
    (hrun : exec (timed inputStep (captureSleepers n)) ⟨InputSystem.init n inp, 0, fun _ => 0⟩ labels =
      some (s, events)) :
    ∀ now, s.now ≤ now → s.state.readers i = .idle → 0 ≤ (inReadEnter s.state.inp now).2 := by
  have hkeep : ∀ s l t es, Covered i s → ReadCovered s l ∧ l.1.ReadBy i →
      timed inputStep (captureSleepers n) s l = some (t, es) → Covered i t :=
    fun s l t es h hguard hstep => covered_step h hguard.2 hguard.1 hstep
  have hinv := exec_invariant _ hkeep (Covered.init i hopen) (hcovered.and_labels hreader) hrun
  intro now hnow hidle
  obtain ⟨available, havailable, -⟩ := (hinv.counted.mono hnow).available
  rw [havailable]
  exact Int.natCast_nonneg _

/-- No fraction is lost at a rate whose frames take whole microseconds, such as 8 kHz. -/
theorem sleepCovers_of_dvd {inp : GenericStreamIn} {now frames : Nat} (hrate : inGetSampleRate inp ∣ 1000000)
    (hshort : framesLacking inp now frames * 1000000 < 2 ^ 32 * inGetSampleRate inp)
    (hfits : capturedMillionths inp now < 2 ^ 63) : SleepCovers inp now frames := by
  refine ⟨?_, hshort, hfits⟩
  rw [Nat.mod_eq_zero_of_dvd (hrate.mul_left _)]
  exact Nat.zero_le _

/-- A call of one frame, which sleeps for `micros` microseconds. -/
def readOneFrame (micros : Nat) : List (InputLabel 1 × Nat) :=
  [(.reader (Fin.last 0) (.read (fun _ => 0) 4 0 false), 0),
    (.reader (Fin.last 0) (.readSlept (fun _ => 0) fun _ => none), 1000 * micros)]

theorem readOneFrame_readBy (micros : Nat) : ∀ l ∈ readOneFrame micros, l.1.ReadBy (Fin.last 0) := by
  intro l hl
  rcases List.mem_cons.mp hl with rfl | hl
  · rfl
  · rw [List.mem_singleton.mp hl]
    exact True.intro

theorem assertion_holds_eightFramesIn :
    ∃ s events, exec (timed inputStep (captureSleepers 1)) ⟨InputSystem.init 1 eightFramesIn, 0, fun _ => 0⟩
        (readOneFrame 125) = some (s, events) ∧ s.state.inp.standbyFramesRead = 1 ∧
      0 ≤ (inReadEnter s.state.inp 125000).2 := by
  have hrun : exec (timed inputStep (captureSleepers 1)) ⟨InputSystem.init 1 eightFramesIn, 0, fun _ => 0⟩
    (readOneFrame 125) = some (_, _) := rfl
  have hcovers : SleepCovers eightFramesIn 0 1 := sleepCovers_of_dvd (by decide) (by decide) (by decide)
  have hcovered : Guarded (timed inputStep (captureSleepers 1)) ReadCovered
      ⟨InputSystem.init 1 eightFramesIn, 0, fun _ => 0⟩ (readOneFrame 125) :=
    guarded_cons rfl hcovers (guarded_cons rfl True.intro True.intro)
  exact ⟨_, _, hrun, by decide +kernel, assertion_holds open_eightFramesIn (readOneFrame_readBy 125) hcovered hrun 125000
    (le_refl _) rfl⟩

/-- The microphone at 44.1 kHz. -/
def compactDiscIn : GenericStreamIn :=
  { eightFramesIn with
    reqConfig := ⟨44100, audioFormatPcm16Bit, audioChannelInStereo⟩
    pcmConfig := ⟨2, 44100, 44, 1⟩
    buffer := ⟨fun _ => 0, 176, 4, 44, 0, 0, 0⟩ }

/-- A frame takes 22.7 microseconds, and the first call sleeps for 22. -/
theorem assertion_fails :
    ¬ ∀ (inp : GenericStreamIn) (labels : List (InputLabel 1 × Nat)) (s : TimedState (InputSystem 1) (Fin 1))
      (events : List InputEvent) (now : Nat),
      adevOpenInputStream true (fun _ => true) ⟨1, 1⟩ .builtinMic none
          ⟨44100, audioFormatPcm16Bit, audioChannelInStereo⟩ = .ok inp →
        (∀ l ∈ labels, l.1.ReadBy (Fin.last 0)) →
        exec (timed inputStep (captureSleepers 1)) ⟨InputSystem.init 1 inp, 0, fun _ => 0⟩ labels = some (s, events) →
        s.now ≤ now → s.state.readers (Fin.last 0) = .idle → 0 ≤ (inReadEnter s.state.inp now).2 := by
  intro hall
  have hrun : exec (timed inputStep (captureSleepers 1)) ⟨InputSystem.init 1 compactDiscIn, 0, fun _ => 0⟩
    (readOneFrame 22) = some (_, _) := rfl
  have hholds := hall compactDiscIn (readOneFrame 22) _ _ 22000 rfl (readOneFrame_readBy 22) hrun (le_refl _) rfl
  exact absurd hholds (by decide +kernel)

end Trout.Audio

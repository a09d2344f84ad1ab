import Trout.DeviceModel
import Trout.InputProvenance

/-! The tone of an input stream, over whole runs. `pseudo_pcm_read` takes the samples from the stream's oscillator and
leaves it at the phase after the last of them, under the lock that all calls hold. However the calls of several clients
interleave with standby and the idle worker, what they are given is the oscillator's sequence, without a gap and
without a repetition. The oscillator is floating point, so it enters as any phases with a sample and a next phase. -/

namespace Trout.Audio
open CInt Pcm16 RingWindow Runs

/-- `struct oscillator`, and what one iteration of the loop of `pseudo_pcm_read` does with it. -/
structure Oscillator (φ : Type*) where
  sample : φ → Int16
  advance : φ → φ

variable {φ : Type*} {n : Nat}

/-- The sequence of an oscillator from a phase on. -/
def Oscillator.tone (osc : Oscillator φ) (phase : φ) (k : Nat) : Int16 := osc.sample (osc.advance^[k] phase)

/-- The iterations of the loop of `pseudo_pcm_read` in the next section of a client. -/
def samplesDrawn (inp : GenericStreamIn) : ReaderPc → Nat
  | .readSleeping c => if c.isToneGenerator ∧ inp.standby = false then toUint c.bytes / 2 else 0
  | _ => 0

/-- The threads of an input stream with the stream's oscillator. -/
def oscillatorStep (osc : Oscillator φ) (s : InputSystem n × φ) :
    InputLabel n → Option ((InputSystem n × φ) × List InputEvent)
  | .reader i (.readSlept _ realloc) =>
      (inputStep s.1 (.reader i (.readSlept (osc.tone s.2) realloc))).map fun r =>
        ((r.1, osc.advance^[samplesDrawn s.1.inp (s.1.readers i)] s.2), r.2)
  | l => (inputStep s.1 l).map fun r => ((r.1, s.2), r.2)

theorem Oscillator.tone_iterate (osc : Oscillator φ) (phase : φ) (m : Nat) :
    osc.tone (osc.advance^[m] phase) = fun k => osc.tone phase (m + k) := by
  funext k
  rw [Oscillator.tone, Oscillator.tone, ← Function.iterate_add_apply, Nat.add_comm k m]

/-- Where one piece of the sequence ends the next one begins. -/
theorem Oscillator.slice_tone (osc : Oscillator φ) (phase : φ) (m k : Nat) :
    slice (osc.tone phase) 0 (m + k) = slice (osc.tone phase) 0 m ++ slice (osc.tone (osc.advance^[m] phase)) 0 k := by
  rw [slice_add, osc.tone_iterate]
  refine congrArg (_ ++ ·) ?_
  apply slice_congr
  intro j hj
  rw [Nat.zero_add, Nat.zero_add]

/-! ### A read -/

theorem SameInput.trans {inp inp' inp'' : GenericStreamIn} (h : SameInput inp inp') (h' : SameInput inp' inp'') :
    SameInput inp inp'' where
  device := h'.device.trans h.device
  busAddress := h'.busAddress.trans h.busAddress
  reqConfig := h'.reqConfig.trans h.reqConfig
  pcmConfig := h'.pcmConfig.trans h.pcmConfig

/-- A read of whole frames that its result can count, from a tone generator. -/
structure ReadCall.Tones (c : ReadCall) (frameSize : Nat) : Prop where
  tone : c.isToneGenerator = true
  unmuted : c.readMute = false
  whole : frameSize ∣ c.bytes
  short : c.bytes < 2 ^ 31

/-- The read has got the next piece of the tone, or silence from a stream that has been put into standby. -/
inductive ToneFilled (inp : GenericStreamIn) (c : ReadCall) (tone : Nat → Int16) (event : InputEvent) : Prop where
  | plays (awake : inp.standby = false) (buffer : Nat → UInt8)
      (event_eq : event = .returned c buffer (c.bytes / audioStreamInFrameSize inp))
      (filled : ∀ k, k < c.bytes / 2 → samplesOf buffer k = tone k)
  | rests (standby : inp.standby = true) (buffer : Nat → UInt8) (event_eq : event = .returned c buffer 0)
      (silent : ∀ a, a < c.bytes → buffer a = 0)

theorem toUint_bytes {c : ReadCall} {frameSize : Nat} (h : c.Tones frameSize) : toUint c.bytes = c.bytes :=
  toUint_natCast (h.short.trans (by decide))

theorem pseudoPcmRead_samples (tone : Nat → Int16) (data : Nat → UInt8) {count k : Nat} (hk : k < count / 2) :
    samplesOf (pseudoPcmRead tone data count).1 k = tone k := by
  have hsample : samplesOf (bytesOf tone) k = tone k := by rw [samplesOf_bytesOf]
  rw [← hsample, samplesOf, samplesOf]
  simp only [pseudoPcmRead]
  rw [if_pos (by omega), if_pos (by omega)]

theorem fillSection_tones {inp : GenericStreamIn} {c : ReadCall} (h : c.Tones (audioStreamInFrameSize inp))
    {tone : Nat → Int16} {realloc : Nat → Option (Nat → UInt8)} {r : InputSection ReaderPc}
    (hsection : fillSection inp c tone realloc = some r) :
    SameInput inp r.inp ∧ r.pc = .idle ∧ ∃ event, r.events = [event] ∧ ToneFilled inp c tone event := by
  obtain ⟨⟨inp', buffer, readFrames⟩, hfill, rfl⟩ := Option.map_eq_some_iff.mp hsection
  unfold inReadFill at hfill
  dsimp only at hfill
  by_cases hstandby : inp.standby = true
  · rw [if_pos hstandby] at hfill
    cases hfill
    refine ⟨SameInput.refl inp, rfl, _, rfl, .rests hstandby (inReadZero c c.buffer (inReadBytes inp c 0)) ?_ fun a ha => ?_⟩
    · rw [h.unmuted]
      rfl
    · have hnone : inReadBytes inp c 0 = 0 := by
        rw [inReadBytes, h.unmuted, if_neg Bool.false_ne_true]
        exact (congrArg (· % sizeMod) (Nat.zero_mul _)).trans rfl
      rw [hnone, inReadZero, if_pos ⟨Nat.zero_le a, ha⟩]
  · rw [if_neg hstandby, h.tone, if_pos rfl, toUint_bytes h] at hfill
    cases hfill
    have hshort := h.short
    have hcount : toInt (c.bytes : Nat) = (c.bytes : Int) := toInt_of_le (by rw [intMax]; omega)
    have hframes : c.bytes / audioStreamInFrameSize inp ≤ c.bytes := Nat.div_le_self _ _
    have hread : toInt ((toSize (toInt (c.bytes : Nat)) / audioStreamInFrameSize inp : Nat) : Int) =
        ((c.bytes / audioStreamInFrameSize inp : Nat) : Int) := by
      rw [hcount, toSize_natCast (by omega)]
      exact toInt_of_le (by rw [intMax]; omega)
    have hbytes : inReadBytes inp c ((c.bytes / audioStreamInFrameSize inp : Nat) : Int) = c.bytes := by
      rw [inReadBytes, h.unmuted, if_neg Bool.false_ne_true, toSize_natCast (by omega), sizeMul,
        Nat.div_mul_cancel h.whole, Nat.mod_eq_of_lt (by rw [sizeMod]; omega)]
    refine ⟨⟨rfl, rfl, rfl, rfl⟩, rfl, _, rfl, .plays (by simpa using hstandby)
      (inReadZero c (pseudoPcmRead tone c.buffer c.bytes).1 c.bytes) ?_ fun k hk => ?_⟩
    · simp only [pseudoPcmRead]
      rw [hread, hbytes, h.unmuted, if_neg Bool.false_ne_true, toUint_natCast (by omega)]
    · rw [samplesOf, inReadZero, inReadZero, if_neg (by omega), if_neg (by omega)]
      exact pseudoPcmRead_samples tone c.buffer hk

/-! ### Sections and steps -/

/-- A client reads whole frames, at most as many as `in_read` can count. -/
def InputLabel.WholeFrames (frameSize : Nat) : InputLabel n → Prop
  | .reader _ (.read _ bytes _ _) => frameSize ∣ bytes.toNat ∧ bytes.toNat < 2 ^ 31
  | _ => True

instance (frameSize : Nat) : ∀ l : InputLabel n, Decidable (l.WholeFrames frameSize)
  | .reader _ (.read _ bytes _ _) => inferInstanceAs (Decidable (frameSize ∣ bytes.toNat ∧ bytes.toNat < 2 ^ 31))
  | .reader _ (.readSlept _ _) => isTrue trivial
  | .reader _ (.standby _) => isTrue trivial
  | .reader _ (.close _) => isTrue trivial
  | .reader _ (.capturePosition _) => isTrue trivial
  | .join _ => isTrue trivial
  | .capture _ => isTrue trivial
  | .pcmRead _ _ => isTrue trivial
  | .store => isTrue trivial
  | .captureSpurious => isTrue trivial

/-- A tone generator is no microphone, so it is not muted. -/
theorem unmuted_of_tone {inp : GenericStreamIn} (h : isToneGeneratorDevice inp = some true) :
    isMicrophoneDevice inp = false := by
  unfold isToneGeneratorDevice at h
  split at h
  · rename_i hdevice
    rw [isMicrophoneDevice, hdevice]
    rfl
  · rename_i hdevice
    rw [isMicrophoneDevice, hdevice]
    rfl
  · cases h

/-- What a section of a client does that takes nothing from the oscillator. -/
structure QuietSection (inp : GenericStreamIn) (frameSize : Nat) (r : InputSection ReaderPc) : Prop where
  same : SameInput inp r.inp
  calls : ∀ c, r.pc = .readSleeping c → c.Tones frameSize
  silent : ∀ c buffer frames, InputEvent.returned c buffer frames ∉ r.events

theorem readerSection_quiet {inp : GenericStreamIn} (htone : isToneGeneratorDevice inp = some true) {frameSize : Nat}
    {pc : ReaderPc} {l : ReaderLabel} (hlabel : ∀ tone realloc, l ≠ .readSlept tone realloc) {i : Fin n}
    (hwhole : (InputLabel.reader i l).WholeFrames frameSize) {r : InputSection ReaderPc}
    (hsection : readerSection inp pc l = some r) : QuietSection inp frameSize r := by
  unfold readerSection at hsection
  split at hsection
  · rename_i buffer bytes now micMute
    rw [readSection, htone] at hsection
    dsimp only at hsection
    split at hsection
    · cases hsection
      refine ⟨(inReadEnter_same inp now).1, fun c hpc => ?_, fun c buffer frames => List.not_mem_nil⟩
      cases hpc
      exact ⟨rfl, by rw [unmuted_of_tone htone, Bool.and_false], hwhole.1, hwhole.2⟩
    · cases hsection
  · rename_i c tone realloc
    exact absurd rfl (hlabel tone realloc)
  · rename_i now
    cases hsection
    exact ⟨(doInStandby_same inp now).1, (fun c hpc => by cases hpc), fun c buffer frames => List.not_mem_nil⟩
  · rename_i now
    cases hsection
    obtain ⟨hdevice, haddress, hreq, hpcm⟩ := (doInStandby_same inp now).1
    exact ⟨⟨hdevice, haddress, hreq, hpcm⟩, (fun c hpc => by cases hpc), fun c buffer frames => List.not_mem_nil⟩
  · cases hsection
    refine ⟨SameInput.refl inp, (fun c hpc => by cases hpc), fun c buffer frames hmem => ?_⟩
    cases List.mem_singleton.mp hmem
  · cases hsection

/-- The worker leaves the clients and the configuration alone. -/
theorem inputStep_worker {s t : InputSystem n} {l : InputLabel n} (hlabel : ∀ i l', l ≠ .reader i l')
    {es : List InputEvent} (hstep : inputStep s l = some (t, es)) :
    SameInput s.inp t.inp ∧ t.readers = s.readers ∧ ∀ c buffer frames, InputEvent.returned c buffer frames ∉ es := by
  unfold inputStep at hstep
  split at hstep
  · cases hstep
  cases l with
  | reader i l' => exact absurd rfl (hlabel i l')
  | join i =>
      dsimp only at hstep
      split at hstep
      · cases hstep
        exact ⟨SameInput.refl _, rfl, fun c buffer frames => List.not_mem_nil⟩
      · cases hstep
  | capture env =>
      obtain ⟨r, hsection, hpair⟩ := Option.map_eq_some_iff.mp hstep
      cases hpair
      have hkept : r.inp = s.inp ∧ r.events = [] := by
        unfold captureSection captureCheck at hsection
        split at hsection
        · cases hsection
          split_ifs
          · exact ⟨rfl, rfl⟩
          · exact ⟨rfl, rfl⟩
          · exact ⟨rfl, rfl⟩
          · split <;> exact ⟨rfl, rfl⟩
        · cases hsection
          split_ifs
          · exact ⟨rfl, rfl⟩
          · exact ⟨rfl, rfl⟩
          · exact ⟨rfl, rfl⟩
          · split <;> exact ⟨rfl, rfl⟩
        · cases hsection
      refine ⟨?_, rfl, fun c buffer frames => ?_⟩
      · exact hkept.1 ▸ SameInput.refl s.inp
      · rw [hkept.2]
        exact List.not_mem_nil
  | pcmRead ret data =>
      obtain ⟨r, hsection, hpair⟩ := Option.map_eq_some_iff.mp hstep
      cases hpair
      unfold pcmReadSection at hsection
      split at hsection
      · cases hsection
        refine ⟨SameInput.refl _, rfl, fun c buffer frames hmem => ?_⟩
        split at hmem
        · cases List.mem_singleton.mp hmem
        · cases hmem
      · cases hsection
  | store =>
      obtain ⟨r, hsection, hpair⟩ := Option.map_eq_some_iff.mp hstep
      cases hpair
      unfold storeSectionIn at hsection
      split at hsection
      · obtain ⟨written, hwrite, rfl⟩ := Option.map_eq_some_iff.mp hsection
        refine ⟨⟨rfl, rfl, rfl, rfl⟩, rfl, fun c buffer frames hmem => ?_⟩
        cases List.mem_singleton.mp hmem
      · cases hsection
  | captureSpurious =>
      dsimp only at hstep
      split at hstep
      · cases hstep
        exact ⟨SameInput.refl _, rfl, fun c buffer frames => List.not_mem_nil⟩
      · cases hstep

/-! ### Runs -/

/-- What the clients have been given is the sequence of the oscillator up to its phase. -/
structure ToneKept (osc : Oscillator φ) (inp : GenericStreamIn) (phase : φ) (h : List InputEvent)
    (s : InputSystem n × φ) : Prop where
  same : SameInput inp s.1.inp
  calls : ∀ i c, s.1.readers i = .readSleeping c → c.Tones (audioStreamInFrameSize inp)
  given : ∃ m, samples (deliveredFrames (audioStreamInFrameSize inp) h) = slice (osc.tone phase) 0 m ∧
    s.2 = osc.advance^[m] phase
  answers : ∀ c buffer frames, .returned c buffer frames ∈ h →
    frames * audioStreamInFrameSize inp = c.bytes ∨ frames = 0 ∧ ∀ a, a < c.bytes → buffer a = 0

theorem deliveredFrames_silent {frameSize : Nat} {es : List InputEvent}
    (h : ∀ c buffer frames, InputEvent.returned c buffer frames ∉ es) : deliveredFrames frameSize es = [] := by
  refine List.flatMap_eq_nil_iff.mpr fun event hevent => ?_
  cases event with
  | captured frames => rfl
  | stored frames => rfl
  | returned c buffer frames => exact absurd hevent (h c buffer frames)
  | position frames now => rfl

section Steps

variable {osc : Oscillator φ} {inp : GenericStreamIn} {phase : φ} {h es : List InputEvent} {s : InputSystem n × φ}

theorem ToneKept.quiet (hkept : ToneKept osc inp phase h s) {t : InputSystem n} (hsame : SameInput s.1.inp t.inp)
    (hcalls : ∀ i c, t.readers i = .readSleeping c → c.Tones (audioStreamInFrameSize inp))
    (hsilent : ∀ c buffer frames, InputEvent.returned c buffer frames ∉ es) :
    ToneKept osc inp phase (h ++ es) (t, s.2) := by
  refine ⟨hkept.same.trans hsame, hcalls, ?_, fun c buffer frames hmem => ?_⟩
  · obtain ⟨m, hgiven, hphase⟩ := hkept.given
    refine ⟨m, ?_, hphase⟩
    rw [deliveredFrames_append, deliveredFrames_silent hsilent, List.append_nil, hgiven]
  · rcases List.mem_append.mp hmem with hold | hnew
    · exact hkept.answers c buffer frames hold
    · exact absurd hnew (hsilent c buffer frames)

/-- The end of a read gives the client the next piece of the tone, or nothing of it. -/
theorem ToneKept.fills (hkept : ToneKept osc inp phase h s)
    (hsize : audioStreamInFrameSize inp = 2 ∨ audioStreamInFrameSize inp = 4) {i : Fin n} {c : ReadCall}
    (hsleeping : s.1.readers i = .readSleeping c) {realloc : Nat → Option (Nat → UInt8)} {r : InputSection ReaderPc}
    (hsection : fillSection s.1.inp c (osc.tone s.2) realloc = some r) {t : InputSystem n} (hinp : t.inp = r.inp)
    (hreaders : t.readers = Function.update s.1.readers i r.pc) :
    ToneKept osc inp phase (h ++ r.events) (t, osc.advance^[samplesDrawn s.1.inp (s.1.readers i)] s.2) := by
  have hframe : audioStreamInFrameSize s.1.inp = audioStreamInFrameSize inp := by
    rw [audioStreamInFrameSize, hkept.same.reqConfig, audioStreamInFrameSize]
  have hcall := hkept.calls i c hsleeping
  obtain ⟨hsame, hidle, event, hevents, hfilled⟩ := fillSection_tones (hframe ▸ hcall) hsection
  have hcalls : ∀ j c', t.readers j = .readSleeping c' → c'.Tones (audioStreamInFrameSize inp) := by
    intro j c' hj
    rw [hreaders, hidle, Function.update_apply] at hj
    split at hj
    · cases hj
    · exact hkept.calls j c' hj
  rw [← hinp] at hsame
  have hkeeps : SameInput inp t.inp := hkept.same.trans hsame
  obtain ⟨m, hgiven, hphase⟩ := hkept.given
  rw [hevents, hsleeping, samplesDrawn]
  cases hfilled with
  | plays awake buffer event_eq filled =>
      rw [hframe] at event_eq
      subst event_eq
      rw [if_pos ⟨hcall.tone, awake⟩, toUint_bytes hcall]
      obtain ⟨frames, hframes⟩ := hcall.whole
      have hpos : 0 < audioStreamInFrameSize inp := by omega
      have hdiv : c.bytes / audioStreamInFrameSize inp = frames := by rw [hframes, Nat.mul_div_cancel_left _ hpos]
      refine ⟨hkeeps, hcalls, ⟨m + c.bytes / 2, ?_, ?_⟩, fun c' buffer' frames' hmem => ?_⟩
      · have hpiece : samples (records buffer (audioStreamInFrameSize inp) 0 frames) =
            slice (osc.tone s.2) 0 (c.bytes / 2) := by
          have hhalf : 2 * (audioStreamInFrameSize inp / 2) = audioStreamInFrameSize inp := by omega
          have hsamples := samples_frames buffer (audioStreamInFrameSize inp / 2) 0 frames
          rw [hhalf, Nat.mul_zero] at hsamples
          have hlength : audioStreamInFrameSize inp / 2 * frames = c.bytes / 2 := by
            rw [hframes, ← hhalf, Nat.mul_assoc, Nat.mul_div_cancel_left _ (by decide),
              Nat.mul_div_cancel_left _ (by decide)]
          rw [hsamples, hlength]
          apply slice_congr
          intro k hk
          rw [Nat.zero_add]
          exact filled k hk
        rw [osc.slice_tone, ← hphase, ← hpiece, ← hgiven, deliveredFrames_append, samples_append, hdiv]
        simp [deliveredFrames]
      · rw [Nat.add_comm, Function.iterate_add_apply, ← hphase]
      · rcases List.mem_append.mp hmem with hold | hnew
        · exact hkept.answers c' buffer' frames' hold
        · cases List.mem_singleton.mp hnew
          exact Or.inl (Nat.div_mul_cancel hcall.whole)
  | rests standby buffer event_eq silent =>
      subst event_eq
      rw [if_neg fun hawake => by rw [standby] at hawake; cases hawake.2]
      refine ⟨hkeeps, hcalls, ⟨m, ?_, hphase⟩, fun c' buffer' frames' hmem => ?_⟩
      · rw [deliveredFrames_append, samples_append, hgiven]
        exact List.append_nil _
      · rcases List.mem_append.mp hmem with hold | hnew
        · exact hkept.answers c' buffer' frames' hold
        · cases List.mem_singleton.mp hnew
          exact Or.inr ⟨rfl, silent⟩

theorem toneKept_step (hsize : audioStreamInFrameSize inp = 2 ∨ audioStreamInFrameSize inp = 4)
    (htone : isToneGeneratorDevice inp = some true) (hkept : ToneKept osc inp phase h s) {l : InputLabel n}
    (hwhole : l.WholeFrames (audioStreamInFrameSize inp)) {t : InputSystem n × φ}
    (hstep : oscillatorStep osc s l = some (t, es)) : ToneKept osc inp phase (h ++ es) t := by
  have htone' : isToneGeneratorDevice s.1.inp = some true := hkept.same.isToneGeneratorDevice.trans htone
  unfold oscillatorStep at hstep
  split at hstep
  · rename_i i tone realloc
    obtain ⟨⟨u, fs⟩, hinput, hpair⟩ := Option.map_eq_some_iff.mp hstep
    cases hpair
    unfold inputStep at hinput
    split at hinput
    · cases hinput
    obtain ⟨r, hsection, hmoved⟩ := Option.map_eq_some_iff.mp hinput
    cases hmoved
    unfold readerSection at hsection
    split at hsection
    · rename_i hlabel
      cases hlabel
    · rename_i c tone' realloc' hsleeping hlabel
      cases hlabel
      exact hkept.fills hsize hsleeping hsection rfl rfl
    · rename_i hlabel
      cases hlabel
    · rename_i hlabel
      cases hlabel
    · rename_i hlabel
      cases hlabel
    · cases hsection
  · rename_i hother
    obtain ⟨⟨u, fs⟩, hinput, hpair⟩ := Option.map_eq_some_iff.mp hstep
    cases hpair
    by_cases hreader : ∃ i l', l = .reader i l'
    · obtain ⟨i, l', rfl⟩ := hreader
      unfold inputStep at hinput
      split at hinput
      · cases hinput
      obtain ⟨r, hsection, hmoved⟩ := Option.map_eq_some_iff.mp hinput
      cases hmoved
      have hquiet := readerSection_quiet htone' (fun tone realloc heq => hother i tone realloc (by rw [heq])) hwhole hsection
      refine hkept.quiet hquiet.same (fun j c hj => ?_) hquiet.silent
      dsimp only at hj
      rw [Function.update_apply] at hj
      split at hj
      · exact hquiet.calls c hj
      · exact hkept.calls j c hj
    · obtain ⟨hsame, hreaders, hsilent⟩ := inputStep_worker (fun i l' heq => hreader ⟨i, l', heq⟩) hinput
      exact hkept.quiet hsame (fun j c hj => hkept.calls j c (hreaders ▸ hj)) hsilent

end Steps

/-- Over every run of the clients of a tone generator, the samples that they are given one after another are the
oscillator's from its first phase on, and the oscillator stands behind the last of them; and a read fills its buffer with
whole frames of the tone, or with silence that counts no frame. -/
theorem tone_unbroken {ι : Type} (osc : Oscillator φ) (phase : φ) {adev : GenericAudioDevice ι}
    {allocations : OpenAllocations} {p : PeriodProperties} {device : AudioDevice} {address : Option String}
    {config : AudioConfig} {opened : OpenReturn GenericStreamIn ι} {inp : GenericStreamIn}
    {labels : List (InputLabel n)} {s : InputSystem n × φ} {events : List InputEvent}
    (hopened : adev.openInputStream allocations p device config address = some opened) (hret : opened.ret = none)
    (hstream : opened.stream = some inp) (htone : isToneGeneratorDevice inp = some true) (hwhole : ∀ l ∈ labels, l.WholeFrames config.frameSize)
    (hrun : exec (oscillatorStep osc) (InputSystem.init n inp, phase) labels = some (s, events)) :
    (∃ m, samples (deliveredFrames config.frameSize events) = slice (osc.tone phase) 0 m ∧ s.2 = osc.advance^[m] phase) ∧
      ∀ c buffer frames, .returned c buffer frames ∈ events →
        frames * config.frameSize = c.bytes ∨ frames = 0 ∧ ∀ a, a < c.bytes → buffer a = 0 := by
  have hopen := openInputStream_stream hopened hret hstream
  obtain ⟨-, -, -, hreq, -, hchannels⟩ := openInput_usable hopen
  have hframe : audioStreamInFrameSize inp = config.frameSize := by rw [audioStreamInFrameSize, hreq]
  have hsize : audioStreamInFrameSize inp = 2 ∨ audioStreamInFrameSize inp = 4 := by
    rw [hframe, AudioConfig.frameSize]
    omega
  rw [← hframe] at hwhole ⊢
  have hkept : ToneKept osc inp phase ([] ++ events) s := by
    refine exec_invariant_history (fun h s => ToneKept osc inp phase h s)
      (fun h s l t es hI hwhole hstep => toneKept_step hsize htone hI hwhole hstep) ?_ (guarded_of_labels hwhole _) hrun
    exact ⟨SameInput.refl inp, (fun i c hi => by cases hi), ⟨0, rfl, rfl⟩,
      fun c buffer frames hmem => by cases hmem⟩
  exact ⟨hkept.given, hkept.answers⟩

/-- A tuner at 8 kHz. -/
def tunerIn : GenericStreamIn := { eightFramesIn with device := .fmTuner }

/-- Two clients whose reads overlap, and a read that is put into standby. -/
def overlappingReads : List (InputLabel 2) :=
  [.reader 0 (.read (fun _ => 9) 8 0 false), .reader 1 (.read (fun _ => 9) 4 0 true),
    .reader 1 (.readSlept (fun _ => 0) fun _ => none), .reader 0 (.readSlept (fun _ => 0) fun _ => none),
    .reader 0 (.read (fun _ => 9) 4 1000000 false), .reader 1 (.standby 1000000),
    .reader 0 (.readSlept (fun _ => 0) fun _ => none), .reader 1 (.read (fun _ => 9) 4 2000000 false),
    .reader 1 (.readSlept (fun _ => 0) fun _ => none)]

/-- An oscillator that counts. -/
def counting : Oscillator Nat := ⟨fun k => Int16.ofNat k, fun k => k + 1⟩

theorem tone_unbroken_overlapping : ∃ s events m,
    exec (oscillatorStep counting) (InputSystem.init 2 tunerIn, 5) overlappingReads = some (s, events) ∧
      deliveredFrames 4 events = [[5, 0, 6, 0], [7, 0, 8, 0], [9, 0, 10, 0], [11, 0, 12, 0]] ∧
      samples (deliveredFrames 4 events) = slice (counting.tone 5) 0 m ∧ s.2 = counting.advance^[m] 5 := by
  have hopen : (GenericAudioDevice.init : GenericAudioDevice Unit).openInputStream ⟨true, fun _ => true, true, true⟩
      ⟨1, 1⟩ .fmTuner ⟨8000, audioFormatPcm16Bit, audioChannelInStereo⟩ none = some ⟨none, some tunerIn, .init⟩ := rfl
  obtain ⟨s, events, hrun, hdelivered⟩ : ∃ s events,
      exec (oscillatorStep counting) (InputSystem.init 2 tunerIn, 5) overlappingReads = some (s, events) ∧
        deliveredFrames 4 events = [[5, 0, 6, 0], [7, 0, 8, 0], [9, 0, 10, 0], [11, 0, 12, 0]] := by
    refine ⟨_, _, rfl, ?_⟩
    decide
  obtain ⟨⟨m, hsamples, hphase⟩, -⟩ := tone_unbroken counting 5 hopen rfl rfl rfl (by decide) hrun
  exact ⟨s, events, m, hrun, hdelivered, hsamples, hphase⟩

end Trout.Audio

import Trout.OutputProgress

/-! How far `out_write` gets ahead. A frame that is written has been taken by the worker, lies in the ring
buffer or was passed over in a muted call, so the frames written are ahead of the other two by the capacity at
most. Nothing holds back the worker or a muted call, so the position has no part in that bound. -/

namespace Trout.Audio
open CInt Runs RingWindow

/-- The number of frames that `out_write` has stored. -/
def storedCount (events : List OutputEvent) : Nat :=
  (events.map fun
    | .stored frames => frames.length
    | _ => 0).sum

/-- The frames of the calls of `out_write` that have returned. -/
def returnedCount (events : List OutputEvent) : Nat :=
  (events.map fun
    | .returned c => c.frames
    | _ => 0).sum

/-- The frames of the muted calls of `out_write`. -/
def mutedCount (events : List OutputEvent) : Nat :=
  (events.map fun
    | .muted frames => frames
    | _ => 0).sum

/-- The frames stored by a call of `out_write` that waits for the worker. -/
def ClientPc.waitingCount : ClientPc → Nat
  | .writeWaiting c _ => c.framesWritten
  | _ => 0

variable {n : Nat}

/-- The frames that the worker has taken: those stored that the ring buffer does not hold any more. -/
def OutputSystem.takenCount (s : OutputSystem n) (events : List OutputEvent) : Nat :=
  storedCount events - s.out.buffer.live

theorem counts_append (h es : List OutputEvent) :
    storedCount (h ++ es) = storedCount h + storedCount es ∧
      returnedCount (h ++ es) = returnedCount h + returnedCount es ∧
      mutedCount (h ++ es) = mutedCount h + mutedCount es := by
  simp only [storedCount, returnedCount, mutedCount, List.map_append, List.sum_append, and_self]

theorem counts_silent {es : List OutputEvent}
    (h : ∀ frames c, OutputEvent.stored frames ∉ es ∧ OutputEvent.returned c ∉ es) :
    storedCount es = 0 ∧ returnedCount es = 0 := by
  refine ⟨?_, ?_⟩
  · apply List.sum_eq_zero
    intro k hk
    obtain ⟨e, he, rfl⟩ := List.mem_map.mp hk
    split
    · exact absurd he (h _ ⟨fun _ => 0, 0, 0, 0⟩).1
    · rfl
  · apply List.sum_eq_zero
    intro k hk
    obtain ⟨e, he, rfl⟩ := List.mem_map.mp hk
    split
    · exact absurd he (h [] _).2
    · rfl

theorem waitingCount_of_not_waiting {pc : ClientPc} (h : ∀ c woken, pc ≠ .writeWaiting c woken) : pc.waitingCount = 0 := by
  cases pc with
  | writeWaiting c woken => exact absurd rfl (h c woken)
  | _ => rfl

theorem requests_not_waiting {out : GenericStreamOut} {pc : ClientPc} {l : ClientLabel} {closing : Bool}
    (h : requests out pc l = some closing) (c : WriteCall) (woken : Bool) : pc ≠ .writeWaiting c woken := by
  rintro rfl
  cases l <;> cases h

/-- What a section of a client stores is in the ring buffer, and belongs to a call that has returned or waits. -/
theorem clientSection_stored {out : GenericStreamOut} {pc : ClientPc} {l : ClientLabel} {r : Section ClientPc}
    (husable : out.buffer.Usable)
    (hcalls : ∀ c woken, pc = .writeWaiting c woken → c.Sound (audioStreamOutFrameSize out))
    (h : clientSection out pc l = some r) :
    storedCount r.events + pc.waitingCount = returnedCount r.events + r.pc.waitingCount ∧
      r.out.buffer.live = out.buffer.live + storedCount r.events := by
  cases clientSection_effect h with
  | quiet view standby signals waiting keeps sleeping silent request =>
      obtain ⟨hstored, hreturned⟩ := counts_silent silent
      have hwaiting : pc.waitingCount = r.pc.waitingCount := by
        by_cases hbefore : ∃ c woken, pc = .writeWaiting c woken
        · obtain ⟨c, woken, hpc⟩ := hbefore
          rw [keeps c woken hpc, hpc]
          rfl
        · rw [waitingCount_of_not_waiting fun c woken hpc => hbefore ⟨c, woken, hpc⟩, waitingCount_of_not_waiting]
          intro c woken hpc
          exact hbefore ⟨c, false, (waiting c woken hpc).2⟩
      rw [hstored, hreturned, hwaiting, view.buffer]
      exact ⟨rfl, rfl⟩
  | store entered c call view standby loop =>
      have hsound := storeCall_sound hcalls call
      have hentered : entered.buffer.Usable := by
        rw [view.buffer]
        exact husable
      obtain ⟨written, outcome⟩ := storeLoop_outcome hentered hsound loop
      have hbefore : pc.waitingCount = c.framesWritten := by
        rcases storeCall_start call with hpc | ⟨hzero, hnone⟩
        · rw [hpc]
          rfl
        · rw [hzero, waitingCount_of_not_waiting hnone]
      have hlive := outcome.live
      rw [view.buffer] at hlive
      rcases outcome.leaves with ⟨-, hpc, hevents⟩ | ⟨hdone, hpc, hevents⟩
      · rw [hbefore, hpc, hevents, hlive]
        simp only [storedCount, returnedCount, ClientPc.waitingCount, List.map_cons, List.map_nil, List.sum_cons,
          List.sum_nil, records_length]
        omega
      · rw [hbefore, hpc, hevents, hlive]
        simp only [storedCount, returnedCount, ClientPc.waitingCount, List.map_cons, List.map_nil, List.sum_cons,
          List.sum_nil, records_length]
        omega
  | request closing asks raised view result =>
      rw [waitingCount_of_not_waiting (requests_not_waiting asks), result]
      cases closing with
      | true => exact ⟨rfl, congrArg AudioVbuffer.live view.buffer⟩
      | false => exact ⟨rfl, congrArg AudioVbuffer.live view.buffer⟩

/-! ### The frame counter -/

theorem getCurrentOutputPosition_written (out : GenericStreamOut) (now : Nat) :
    (getCurrentOutputPosition out now).1.framesWritten = out.framesWritten ∧
      (getCurrentOutputPosition out now).2 ≤ out.framesWritten := by
  simp only [getCurrentOutputPosition]
  by_cases hunder : toSize (out.underrunPosition + if out.standby then 0 else
      framesSince (outGetSampleRate out) now out.underrunTime) > out.framesWritten
  · rw [if_pos hunder]
    exact ⟨rfl, le_refl _⟩
  · rw [if_neg hunder]
    exact ⟨rfl, Nat.le_of_not_lt hunder⟩

theorem outWriteEnter_written (out : GenericStreamOut) (now frames : Nat) :
    (outWriteEnter out now frames).1.framesWritten = out.framesWritten := by
  obtain ⟨hwritten, -⟩ := getCurrentOutputPosition_written { out with workerStandby := false } now
  simp only [outWriteEnter]
  split
  · exact hwritten
  · exact hwritten

theorem doOutStandbyTurn_written (out : GenericStreamOut) (now : Nat) :
    (doOutStandbyTurn out now).1.framesWritten = out.framesWritten :=
  (getCurrentOutputPosition_written out now).1

/-- The counter after a section that returns from calls with these frames. -/
def Counts (out : GenericStreamOut) (r : Section ClientPc) : Prop :=
  r.out.framesWritten = (out.framesWritten + (returnedCount r.events + mutedCount r.events)) % sizeMod

theorem counts_of_silent {out : GenericStreamOut} {r : Section ClientPc} (hlt : out.framesWritten < sizeMod)
    (hwritten : r.out.framesWritten = out.framesWritten) (hevents : returnedCount r.events + mutedCount r.events = 0) :
    Counts out r := by
  rw [Counts, hevents, Nat.add_zero, Nat.mod_eq_of_lt hlt]
  exact hwritten

theorem storeLoop_counts {out : GenericStreamOut} {c : WriteCall} {r : Section ClientPc}
    (hlt : out.framesWritten < sizeMod) (h : storeLoop out c = some r) : Counts out r := by
  rw [storeLoop] at h
  split at h
  · cases h
  rename_i out' c' hstore
  have hcounter : out'.framesWritten = out.framesWritten := by rw [(WriteCall.store_view hstore).1]
  by_cases hmore : c'.framesWritten < c'.frames
  · simp only [if_pos hmore] at h
    cases h
    exact counts_of_silent hlt hcounter rfl
  · simp only [if_neg hmore] at h
    cases h
    simp only [Counts, outWriteDone, returnedCount, mutedCount, List.map_cons, List.map_nil, List.sum_cons, List.sum_nil,
      Nat.zero_add, Nat.add_zero, hcounter]

theorem storeSection_counts {out : GenericStreamOut} {buffer : Nat → UInt8} {bytes : Nat} {env : WriteEnv}
    {r : Section ClientPc} (hlt : out.framesWritten < sizeMod) (h : storeSection out buffer bytes env = some r) :
    Counts out r := by
  rw [storeSection] at h
  by_cases hmuted : env.muted
  · rw [if_pos hmuted] at h
    cases h
    simp only [Counts, outWriteDone, returnedCount, mutedCount, List.map_cons, List.map_nil, List.sum_cons, List.sum_nil,
      Nat.zero_add, Nat.add_zero]
  · rw [if_neg hmuted] at h
    split at h
    · cases h
    · exact storeLoop_counts hlt h

theorem standbyEnd_counts {out raised : GenericStreamOut} (closing : Bool) (hlt : out.framesWritten < sizeMod)
    (hwritten : raised.framesWritten = out.framesWritten) : Counts out (standbyEnd raised closing) := by
  cases closing with
  | true => exact counts_of_silent hlt hwritten rfl
  | false => exact counts_of_silent hlt hwritten rfl

theorem standbyLoop_counts {out : GenericStreamOut} (closing : Bool) (now : Nat) (hlt : out.framesWritten < sizeMod) :
    Counts out (standbyLoop out closing now) := by
  rw [standbyLoop]
  by_cases hdone : (doOutStandbyTurn out now).2 = 0
  · rw [if_pos hdone]
    exact standbyEnd_counts closing hlt (doOutStandbyTurn_written out now)
  · rw [if_neg hdone]
    exact counts_of_silent hlt (doOutStandbyTurn_written out now) rfl

/-- The counter grows by the frames of the calls that a section returns from. -/
theorem clientSection_counts {out : GenericStreamOut} {pc : ClientPc} {l : ClientLabel} {r : Section ClientPc}
    (hlt : out.framesWritten < sizeMod) (h : clientSection out pc l = some r) : Counts out r := by
  unfold clientSection at h
  split at h
  · rename_i buffer bytes now env
    have hentered := outWriteEnter_written out now (bytes.toNat / audioStreamOutFrameSize out)
    rw [writeSection] at h
    by_cases hsleep : (outWriteEnter out now (bytes.toNat / audioStreamOutFrameSize out)).2 > 0
    · simp only [if_pos hsleep] at h
      cases h
      exact counts_of_silent hlt hentered rfl
    · simp only [if_neg hsleep] at h
      have hcounts := storeSection_counts (hentered.trans_lt hlt) h
      rwa [Counts, hentered] at hcounts
  · exact storeSection_counts hlt h
  · exact storeLoop_counts hlt h
  · cases h
    exact counts_of_silent hlt rfl rfl
  · rename_i closing now
    rw [← Option.some.inj h]
    by_cases hstandby : out.standby
    · rw [if_pos hstandby]
      exact standbyEnd_counts closing hlt rfl
    · rw [if_neg hstandby]
      exact standbyLoop_counts closing now hlt
  · rename_i closing now
    rw [← Option.some.inj h]
    exact standbyLoop_counts closing now hlt
  · rename_i now
    cases h
    exact counts_of_silent hlt (getCurrentOutputPosition_written out now).1 rfl
  · cases h

/-! ### The system -/

/-- The frames of a run, where they are. -/
structure Accounted (events : List OutputEvent) (s : OutputSystem n) : Prop where
  written : s.out.framesWritten = (returnedCount events + mutedCount events) % sizeMod
  stored : storedCount events = returnedCount events + ∑ i, (s.clients i).waitingCount
  live : s.out.buffer.live ≤ storedCount events

/-- A step of the worker takes frames out of the ring buffer. -/
theorem workerStep_stored {req : AudioConfig} {pcm : PcmConfig} {s t : OutputSystem n} {env : WorkerEnv}
    {wake : Option (Fin n)} {es : List OutputEvent} (hconsistent : Consistent req pcm s)
    (h : workerStep s env wake = some (t, es)) :
    es = [] ∧ t.out.framesWritten = s.out.framesWritten ∧ t.out.buffer.live ≤ s.out.buffer.live ∧
      ∀ i, (t.clients i).waitingCount = (s.clients i).waitingCount := by
  obtain ⟨hplayed, -, hsilent, -⟩ := workerStep_played h
  have hwritten := congrArg SuppliedClock.supply hplayed
  refine ⟨hsilent, hwritten, ?_⟩
  rw [workerStep] at h
  split at h
  · cases h
  rename_i r hsection
  have hlive : r.out.buffer.live ≤ s.out.buffer.live := by
    cases workerSection_effect hsection with
    | reads w pcm opened data buffer memory count read result reached =>
        rw [result]
        obtain ⟨-, -, -, hstored⟩ := hconsistent.usable.read_spec (toSize_lt _) read
        have hlength := congrArg List.length hstored
        rw [List.length_append, AudioVbuffer.stored_length, AudioVbuffer.stored_length] at hlength
        show buffer.live ≤ s.out.buffer.live
        omega
    | exits result exit => rw [result]
    | fails w result error data reached => rw [result]
    | rests result exit asked => rw [result]
    | starves w result empty reached => rw [result]
    | plays w frames playing result => rw [result]
  split at h
  · obtain ⟨clients, hsignal, hpair⟩ := Option.map_eq_some_iff.mp h
    cases hpair
    refine ⟨hlive, fun i => ?_⟩
    show (clients i).waitingCount = _
    rcases signalWriter_calls hsignal i with hsame | ⟨c, hblocked, hwoken⟩
    · rw [hsame]
    · rw [hwoken, hblocked]
      rfl
  · cases h
    exact ⟨hlive, fun i => rfl⟩

theorem accounted_step {req : AudioConfig} {pcm : PcmConfig} {s t : OutputSystem n} {l : OutputLabel n}
    {h es : List OutputEvent} (hconsistent : Consistent req pcm s) (hacc : Accounted h s)
    (hstep : outputStep s l = some (t, es)) : Accounted (h ++ es) t := by
  obtain ⟨hstored, hreturned, hmuted⟩ := counts_append h es
  have hbefore := hacc.written
  have hkept := hacc.stored
  have hlive := hacc.live
  -- a step without events that leaves the counter, the calls and at most the frames in the buffer
  have hquiet : es = [] → t.out.framesWritten = s.out.framesWritten → t.out.buffer.live ≤ s.out.buffer.live →
      (∀ i, (t.clients i).waitingCount = (s.clients i).waitingCount) → Accounted (h ++ es) t := by
    intro hsilent hwritten hfewer hwaiting
    rw [hsilent, List.append_nil]
    refine ⟨hwritten.trans hbefore, ?_, hfewer.trans hlive⟩
    rw [Finset.sum_congr rfl fun i _ => hwaiting i]
    exact hkept
  unfold outputStep at hstep
  split at hstep
  · cases hstep
  cases l with
  | client i l =>
      have hstep : clientStep s i l = some (t, es) := hstep
      rw [clientStep, Option.map_eq_some_iff] at hstep
      obtain ⟨r, hsection, hpair⟩ := hstep
      cases hpair
      have hcalls : ∀ c woken, s.clients i = .writeWaiting c woken → c.Sound (audioStreamOutFrameSize s.out) := by
        intro c woken hpc
        rw [audioStreamOutFrameSize, hconsistent.reqConfig]
        exact hconsistent.calls i c woken hpc
      obtain ⟨hcounts, hbuffer⟩ := clientSection_stored hconsistent.usable hcalls hsection
      have hsum := sum_update ClientPc.waitingCount s.clients i r.pc
      refine ⟨?_, ?_, ?_⟩
      · have hlt : s.out.framesWritten < sizeMod := by
          rw [hbefore]
          exact Nat.mod_lt _ (by decide)
        have hcounts : r.out.framesWritten = _ := clientSection_counts hlt hsection
        rw [hcounts, hbefore, hreturned, hmuted, Nat.mod_add_mod]
        congr 1
        omega
      · rw [hstored, hreturned]
        show _ = _ + ∑ j, (Function.update s.clients i r.pc j).waitingCount
        omega
      · rw [hstored]
        show r.out.buffer.live ≤ _
        omega
  | worker env wake =>
      obtain ⟨hsilent, hwritten, hfewer, hwaiting⟩ := workerStep_stored hconsistent hstep
      exact hquiet hsilent hwritten hfewer hwaiting
  | join i =>
      dsimp only at hstep
      split at hstep
      · cases hstep
        exact hquiet rfl rfl (le_refl _) fun _ => rfl
      · cases hstep
  | workerSpurious =>
      dsimp only at hstep
      split at hstep
      · cases hstep
        exact hquiet rfl rfl (le_refl _) fun _ => rfl
      · cases hstep
        exact hquiet rfl rfl (le_refl _) fun _ => rfl
      · cases hstep

section Runs

variable {allocated : Bool} {calloc : Nat → Bool} {p : PeriodProperties} {config : AudioConfig} {out : GenericStreamOut}

theorem accounted_run (hopen : adevOpenOutputStream allocated calloc p config = .ok out)
    {labels : List (OutputLabel n)} {s : OutputSystem n} {events : List OutputEvent}
    (hrun : exec outputStep (OutputSystem.init n out) labels = some (s, events)) :
    Consistent out.reqConfig out.pcmConfig s ∧ Accounted events s := by
  have hkeep : ∀ h s l t es, Consistent out.reqConfig out.pcmConfig s ∧ Accounted h s →
      outputStep (n := n) s l = some (t, es) → Consistent out.reqConfig out.pcmConfig t ∧ Accounted (h ++ es) t :=
    fun h s l t es hinv hstep => ⟨consistent_step s l t es hinv.1 hstep, accounted_step hinv.1 hinv.2 hstep⟩
  have hinit : Accounted [] (OutputSystem.init n out) := by
    refine ⟨(open_framesWritten hopen).1, ?_, (open_usable hopen).2.2.1.le⟩
    show 0 = 0 + ∑ _i : Fin n, 0
    rw [Finset.sum_const_zero, Nat.zero_add]
  exact exec_history _ hkeep ⟨Consistent.init hopen, hinit⟩ hrun

/-- `do_out_standby` converts exactly what an `int` can hold. -/
theorem doOutStandbyTurn_exact {now : Nat} (hlt : out.framesWritten < sizeMod)
    (hint : out.framesWritten - (getCurrentOutputPosition out now).2 ≤ intMax) :
    (doOutStandbyTurn out now).2 = (out.framesWritten : Int) - (getCurrentOutputPosition out now).2 := by
  obtain ⟨hwritten, hle⟩ := getCurrentOutputPosition_written out now
  simp only [doOutStandbyTurn, hwritten]
  rw [sizeSub_of_le hle hlt, toInt_of_le hint]
  omega

/-- In every run, the frames written are ahead of those that the worker has taken and those of muted calls by the
capacity of the ring buffer at most, and by what it holds when no call waits. Where these two are ahead of the
position by the frames of a call at most, the frames written are ahead of it by the capacity and the frames of the
call, and `do_out_standby` converts their difference exactly. -/
theorem backlog_bounded (hopen : adevOpenOutputStream allocated calloc p config = .ok out)
    {labels : List (OutputLabel n)} {s : OutputSystem n} {events : List OutputEvent}
    (hrun : exec outputStep (OutputSystem.init n out) labels = some (s, events)) :
    s.out.framesWritten ≤ out.buffer.frameCount + s.takenCount events + mutedCount events ∧
      ((∀ i c woken, s.clients i ≠ .writeWaiting c woken) →
        s.out.framesWritten = (s.out.buffer.live + s.takenCount events + mutedCount events) % sizeMod) ∧
      ∀ frames now, s.takenCount events + mutedCount events ≤ (getCurrentOutputPosition s.out now).2 + frames →
        s.out.framesWritten - (getCurrentOutputPosition s.out now).2 ≤ out.buffer.frameCount + frames ∧
          (out.buffer.frameCount + frames ≤ intMax → (doOutStandbyTurn s.out now).2 =
            (s.out.framesWritten : Int) - (getCurrentOutputPosition s.out now).2) := by
  obtain ⟨hconsistent, hacc⟩ := accounted_run hopen hrun
  have hcapacity : s.out.buffer.live ≤ out.buffer.frameCount := by
    rw [(open_usable hopen).2.1, ← hconsistent.capacity]
    exact hconsistent.usable.live_le
  obtain ⟨hwritten, hstored, hlive⟩ := hacc
  have hbound : s.out.framesWritten ≤ out.buffer.frameCount + s.takenCount events + mutedCount events := by
    have hmod := Nat.mod_le (returnedCount events + mutedCount events) sizeMod
    rw [OutputSystem.takenCount]
    omega
  refine ⟨hbound, ?_, ?_⟩
  · intro hnone
    have hwaiting : ∑ i, (s.clients i).waitingCount = 0 :=
      Finset.sum_eq_zero fun i _ => waitingCount_of_not_waiting (hnone i)
    rw [hwritten, OutputSystem.takenCount]
    congr 1
    omega
  · intro frames now hplayed
    have hahead : s.out.framesWritten - (getCurrentOutputPosition s.out now).2 ≤ out.buffer.frameCount + frames := by
      omega
    refine ⟨hahead, fun hint => doOutStandbyTurn_exact ?_ (hahead.trans hint)⟩
    rw [hwritten]
    exact Nat.mod_lt _ (by decide)

end Runs

/-- The worker takes the only frame of a write. -/
def takenWrite : List (OutputLabel 1) := [workerTurn, writeOneFrame, workerTurn]

theorem backlog_bounded_takenWrite :
    ∃ s events, exec outputStep (OutputSystem.init 1 eightFrames) takenWrite = some (s, events) ∧
      s.takenCount events = 1 ∧ s.out.framesWritten - (getCurrentOutputPosition s.out 0).2 ≤ 8 + 1 := by
  have hrun : exec outputStep (OutputSystem.init 1 eightFrames) takenWrite = some (_, _) := rfl
  obtain ⟨-, -, hpaced⟩ := backlog_bounded open_eightFrames hrun
  exact ⟨_, _, hrun, by decide +kernel, (hpaced 1 0 (by decide +kernel)).1⟩

/-- A write of eight frames at the time 0. -/
def writeEightFrames (muted : Bool) : OutputLabel 1 :=
  .client (Fin.last 0) (.write (fun _ => 0) 32 0 ⟨muted, fun _ x => x⟩)

/-- Three muted writes of eight frames at one time. -/
def mutedWrites : List (OutputLabel 1) := List.replicate 3 (writeEightFrames true)

/-- A turn of the worker of a stream whose zone is not selected. -/
def unselectedTurn : OutputLabel 1 := .worker ⟨true, fun _ => some fun _ => 0, false, false⟩ none

/-- Three writes at one time that are not muted. The worker takes the frames of each at once and drops them. -/
def unselectedWrites : List (OutputLabel 1) :=
  [writeEightFrames false, unselectedTurn, unselectedTurn, writeEightFrames false, unselectedTurn, unselectedTurn,
    writeEightFrames false]

/-- Muted writes of no more frames than the capacity, none of which sleeps, get ahead of the position by more than
the capacity and the frames of the last one; and so do writes that are not muted when their zone is not selected. -/
theorem writes_unpaced :
    (¬ ∀ (out : GenericStreamOut) (labels : List (OutputLabel 1)) (s : OutputSystem 1 × Nat) (events : List OutputEvent)
      (frames : Nat),
      adevOpenOutputStream true (fun _ => true) ⟨1, 1⟩ ⟨8000, audioFormatPcm16Bit, 3⟩ = .ok out →
        (∀ l ∈ labels, ∃ buffer bytes now env, l = .client (Fin.last 0) (.write buffer bytes now env) ∧
          bytes.toNat / audioStreamOutFrameSize out ≤ out.buffer.frameCount) →
        exec (clocked outputStep OutputLabel.reading) (OutputSystem.init 1 out, 0) labels = some (s, events) →
        events.getLast? = some (.muted frames) →
        s.1.out.framesWritten - (getCurrentOutputPosition s.1.out s.2).2 ≤ out.buffer.frameCount + frames) ∧
    ∃ s events c, exec (clocked outputStep OutputLabel.reading) (OutputSystem.init 1 eightFrames, 0) unselectedWrites =
        some (s, events) ∧ mutedCount events = 0 ∧ events.getLast? = some (.returned c) ∧
      eightFrames.buffer.frameCount + c.frames <
        s.1.out.framesWritten - (getCurrentOutputPosition s.1.out s.2).2 := by
  refine ⟨fun hall => ?_, _, _, _, rfl, rfl, rfl, by decide +kernel⟩
  have hwrites : ∀ l ∈ mutedWrites, ∃ buffer bytes now env, l = .client (Fin.last 0) (.write buffer bytes now env) ∧
      bytes.toNat / audioStreamOutFrameSize eightFrames ≤ eightFrames.buffer.frameCount := by
    intro l hl
    rw [List.eq_of_mem_replicate hl]
    exact ⟨_, _, _, _, rfl, by decide +kernel⟩
  have hpaced := hall eightFrames mutedWrites _ _ 8 open_eightFrames hwrites rfl rfl
  exact absurd hpaced (by decide +kernel)

end Trout.Audio

import Trout.HalLocks

/-! The data races of the audio HAL, as far as the mutexes are to exclude them. `audio_hw.h` names for the fields of its
structures the mutex that protects them; the variables of the other structures, and the static ones, have a mutex beside
them. Of most variables the functions keep to it, in every interleaving; the others are exactly those that some function
reads or writes without the mutex, and for each of them two threads can be at the variable at a time. That a stream is
used after its open has returned, or the device before its last close, is not part of the model. -/

namespace Trout.Locks
open LockOrder Runs

/-- Some interleaving brings two threads to the field at a time, one of them to write it. -/
def RaceReachable (f : HalField) : Prop := ∃ s, Reachable lockStep (.start halProgram) s ∧ Races s f

/-! ### The fields that some function reads or writes without the mutex -/

/-- Client `n` on its way to the start of one of `halCalls`. -/
def entersCall (n stream place : Nat) : List (Label HalThread Nat) :=
  [⟨.client n, true, 0⟩, ⟨.client n, true, 0⟩, ⟨.client n, false, 0⟩, ⟨.client n, true, 0⟩, ⟨.client n, true, stream⟩] ++
    List.replicate place ⟨.client n, false, 0⟩ ++ [⟨.client n, true, 0⟩]

def goesOn (t : HalThread) (steps : Nat) : List (Label HalThread Nat) := List.replicate steps ⟨t, true, 0⟩

/-- Client `n` opens an output stream, with the period known. -/
def opensOutput (n stream steps : Nat) : List (Label HalThread Nat) :=
  entersCall n stream 11 ++ goesOn (.client n) 7 ++ ⟨.client n, false, 0⟩ :: goesOn (.client n) steps

/-- Client `n` opens an input stream, with the period known. -/
def opensInput (n stream steps : Nat) : List (Label HalThread Nat) :=
  entersCall n stream 20 ++ goesOn (.client n) 8 ++ ⟨.client n, false, 0⟩ :: goesOn (.client n) steps

theorem raceReachable_of_exec (labels : List (Label HalThread Nat)) {f : HalField}
    {s : Machine HalMutex HalThread Nat HalField} {t u : HalThread} {reads writes reads' writes' : List HalField}
    {k k' : Cont HalMutex HalThread Nat HalField} (hrun : exec lockStep (.start halProgram) labels = some (s, []))
    (hwriter : s.threads t = .run (.access reads writes) k) (hother : s.threads u = .run (.access reads' writes') k')
    (hne : t ≠ u) (hwrite : f ∈ writes) (htouch : f ∈ reads' ++ writes') : RaceReachable f :=
  ⟨s, ⟨labels, [], hrun⟩, t, u, hne, ⟨reads, writes, k, hwriter, hwrite⟩, reads', writes', k', hother, htouch⟩

/-- The first open of the device sets the number of periods while a stream is opened. -/
theorem pcmConfigOut_races : RaceReachable (.static .pcmConfigOut) :=
  raceReachable_of_exec
    (entersCall 0 0 0 ++ goesOn (.client 0) 7 ++ ⟨.client 0, false, 0⟩ :: goesOn (.client 0) 28 ++
      (entersCall 1 0 11 ++ goesOn (.client 1) 3))
    (t := .client 0) (u := .client 1) rfl rfl rfl (by simp) (by simp) (by simp)

theorem pcmConfigIn_races : RaceReachable (.static .pcmConfigIn) :=
  raceReachable_of_exec
    (entersCall 0 0 0 ++ goesOn (.client 0) 7 ++ ⟨.client 0, false, 0⟩ :: goesOn (.client 0) 16 ++
      (entersCall 1 0 20 ++ goesOn (.client 1) 4))
    (t := .client 0) (u := .client 1) rfl rfl rfl (by simp) (by simp) (by simp)

/-- An output and an input stream ask for their periods. -/
theorem propValue_races : RaceReachable (.static .propValue) :=
  raceReachable_of_exec
    (entersCall 0 0 11 ++ goesOn (.client 0) 10 ++ (entersCall 1 0 20 ++ goesOn (.client 1) 11))
    (t := .client 0) (u := .client 1) rfl rfl rfl (by simp) (by simp) (by simp)

/-- Two output streams do. -/
theorem outPeriodMs_races : RaceReachable (.static .outPeriodMs) :=
  raceReachable_of_exec
    (entersCall 0 0 11 ++ goesOn (.client 0) 13 ++ (entersCall 1 1 11 ++ goesOn (.client 1) 6))
    (t := .client 0) (u := .client 1) rfl rfl rfl (by simp) (by simp) (by simp)

/-- The size of a buffer is asked for while a stream is opened. -/
theorem inPeriodMs_races : RaceReachable (.static .inPeriodMs) :=
  raceReachable_of_exec
    (entersCall 0 0 20 ++ goesOn (.client 0) 14 ++ (entersCall 1 0 29 ++ goesOn (.client 1) 3))
    (t := .client 0) (u := .client 1) rfl rfl rfl (by simp) (by simp) (by simp)

/-- A patch gets its number while the caller that got the last one reads it for its handle. -/
theorem lastPatchId_races : RaceReachable (.device .lastPatchId) :=
  raceReachable_of_exec
    (entersCall 0 0 8 ++ goesOn (.client 0) 7 ++ (entersCall 1 0 8 ++ goesOn (.client 1) 5))
    (t := .client 1) (u := .client 0) rfl rfl rfl (by simp) (by simp) (by simp)

/-- The master mute is set while a write reads it. -/
theorem masterMute_races : RaceReachable (.device .masterMute) :=
  raceReachable_of_exec
    (entersCall 1 0 3 ++ goesOn (.client 1) 3 ++
      (entersCall 0 0 13 ++ goesOn (.client 0) 19 ++ ⟨.client 0, false, 0⟩ :: goesOn (.client 0) 1))
    (t := .client 1) (u := .client 0) rfl rfl rfl (by simp) (by simp) (by simp)

/-- Two streams are put into the map. -/
theorem outBusStreamMap_races : RaceReachable (.device .outBusStreamMap) :=
  raceReachable_of_exec (opensOutput 0 0 8 ++ opensOutput 1 1 8)
    (t := .client 0) (u := .client 1) rfl rfl rfl (by simp) (by simp) (by simp)

/-- An address is given its frequency while another one looks for its own. -/
theorem inBusToneFrequencyMap_races : RaceReachable (.device .inBusToneFrequencyMap) :=
  raceReachable_of_exec (opensInput 0 0 19 ++ opensInput 1 1 17) (t := .client 0) (u := .client 1)
    (exec_append_eq_some.mpr ⟨_, [], [], rfl, rfl, rfl⟩) rfl rfl (by simp) (by simp) (by simp)

/-- The next frequency goes up while another stream reads it. -/
theorem nextToneFrequencyToAssign_races : RaceReachable (.device .nextToneFrequencyToAssign) :=
  raceReachable_of_exec (opensInput 0 0 22 ++ opensInput 1 1 15) (t := .client 0) (u := .client 1)
    (exec_append_eq_some.mpr ⟨_, [], [], rfl, rfl, rfl⟩) rfl rfl (by simp) (by simp) (by simp)

/-- The gain of a stream is set as soon as it is in the map, while its open sets it, too. -/
theorem amplitudeRatio_races (stream : Nat) : RaceReachable (.out stream .amplitudeRatio) :=
  raceReachable_of_exec (opensOutput 0 stream 9 ++ (entersCall 1 stream 7 ++ goesOn (.client 1) 9))
    (t := .client 0) (u := .client 1) rfl rfl rfl (by simp) (by simp) (by simp)

/-- And the range of the gain is read while the open sets it. -/
theorem gainStage_races (stream : Nat) : RaceReachable (.out stream .gainStage) :=
  raceReachable_of_exec (opensOutput 0 stream 9 ++ (entersCall 1 stream 7 ++ goesOn (.client 1) 8))
    (t := .client 0) (u := .client 1) rfl rfl rfl (by simp) (by simp) (by simp)

/-- The rest of an open sets what a dump, a read or a close takes from the stream. -/
theorem enabledChannels_races (stream : Nat) : RaceReachable (.out stream .enabledChannels) :=
  raceReachable_of_exec (opensOutput 0 stream 12 ++ (entersCall 1 stream 14 ++ goesOn (.client 1) 3))
    (t := .client 0) (u := .client 1) rfl rfl rfl (by simp) (by simp) (by simp)

theorem outWorkerThread_races (stream : Nat) : RaceReachable (.out stream .workerThread) :=
  raceReachable_of_exec
    (opensOutput 0 stream 14 ++
      (entersCall 1 stream 19 ++ goesOn (.client 1) 9 ++ ⟨.client 1, false, 0⟩ :: goesOn (.client 1) 3))
    (t := .client 0) (u := .client 1) rfl rfl rfl (by simp) (by simp) (by simp)

theorem inWorkerThread_races (stream : Nat) : RaceReachable (.input stream .workerThread) :=
  raceReachable_of_exec (opensInput 0 stream 4 ++ (entersCall 1 stream 27 ++ goesOn (.client 1) 16))
    (t := .client 0) (u := .client 1) rfl rfl rfl (by simp) (by simp) (by simp)

theorem busAddress_races (stream : Nat) : RaceReachable (.input stream .busAddress) :=
  raceReachable_of_exec (opensInput 0 stream 9 ++ (entersCall 1 stream 22 ++ goesOn (.client 1) 12))
    (t := .client 0) (u := .client 1) rfl rfl rfl (by simp) (by simp) (by simp)

theorem exec_lock {s s' : Machine HalMutex HalThread Nat HalField} {t : HalThread} {m : HalMutex}
    {k : Cont HalMutex HalThread Nat HalField} {labels : List (Label HalThread Nat)}
    (hat : s.threads t = .run (.lock m) k) (hfree : s.owner m = none)
    (hrest : exec lockStep ((s.setOwner m (some t)).setThread t k.resume) labels = some (s', [])) :
    exec lockStep s (⟨t, true, 0⟩ :: labels) = some (s', []) := by
  refine exec_cons_eq_some.mpr ⟨_, [], [], ?_, hrest, rfl⟩
  simp only [lockStep, hat, if_pos hfree]

/-- The read takes its mutex for the second time, after it has released it. -/
theorem oscillator_races (stream : Nat) : RaceReachable (.input stream .oscillator) := by
  obtain ⟨s, k, k', hrun, hwriter, hother⟩ : ∃ s k k', exec lockStep (.start halProgram)
      (entersCall 1 stream 22 ++ goesOn (.client 1) 18 ++
        ⟨.client 1, true, 0⟩ :: (goesOn (.client 1) 6 ++ opensInput 0 stream 25)) = some (s, []) ∧
      s.threads (.client 0) = .run (inAccess stream [] [.oscillator]) k ∧
      s.threads (.client 1) = .run (inAccess stream [.oscillator] [.oscillator]) k' := by
    refine ⟨_, _, _, exec_append_eq_some.mpr ⟨_, _, _, rfl, exec_lock rfl ?_ rfl, rfl⟩, rfl, rfl⟩
    exact Function.update_self ..
  exact raceReachable_of_exec _ hrun hwriter hother (by simp) (by simp) (by simp)

/-- The routing of an input stream is set while it is asked for. -/
theorem device_races (stream : Nat) : RaceReachable (.input stream .device) :=
  raceReachable_of_exec
    (entersCall 0 stream 25 ++ goesOn (.client 0) 1 ++ (entersCall 1 stream 24 ++ goesOn (.client 1) 3))
    (t := .client 1) (u := .client 0) rfl rfl rfl (by simp) (by simp) (by simp)

/-- The mixer thread has its mutex and starts with the pipelines. -/
theorem mixerThreadLoop_starts (pcm : Nat) : ∃ k, exec lockStep (.start halProgram) (goesOn (.mixerThreadLoop pcm) 6) =
    some (((Machine.start halProgram).setOwner (.mixerLock pcm) (some (.mixerThreadLoop pcm))).setThread
      (.mixerThreadLoop pcm)
      (.run (pcmAccess pcm [.mixerPipelineMap, .pipelines, .mixerPipeline] [.pipelines, .mixerPipeline]) k), []) := by
  have happend : ∀ p q : HalCode, p ++ q = .seq p q := fun p q => rfl
  simp [goesOn, exec, lockStep, Machine.start, Machine.setThread, Machine.setOwner, halProgram, mixerThreadLoop, under,
    Cont.resume, happend]
  exact ⟨_, rfl⟩

/-- A worker on its way into its first open, and some steps of it. -/
def opensPcm (stream pcm steps : Nat) : List (Label HalThread Nat) :=
  goesOn (.outWriteWorker stream) 26 ++ ⟨.outWriteWorker stream, false, 0⟩ :: goesOn (.outWriteWorker stream) 4 ++
    ⟨.outWriteWorker stream, true, pcm⟩ :: goesOn (.outWriteWorker stream) steps

/-- A worker on its way into a close of its PCM, up to the join. -/
def closesPcm (stream pcm : Nat) : List (Label HalThread Nat) :=
  goesOn (.outWriteWorker stream) 14 ++ ⟨.outWriteWorker stream, false, 0⟩ :: goesOn (.outWriteWorker stream) 4 ++
    ⟨.outWriteWorker stream, true, pcm⟩ :: goesOn (.outWriteWorker stream) 16

/-- A first open sets the static variable while an open that is over reads its result from it. -/
theorem sharedExtPcm_races : RaceReachable (.static .sharedExtPcm) :=
  raceReachable_of_exec (opensPcm 0 0 17 ++ opensPcm 1 0 11)
    (t := .outWriteWorker 1) (u := .outWriteWorker 0) rfl rfl rfl (by simp) (by simp) (by simp)

/-- A close reads the thread that it joins without the mutex. -/
theorem mixerThread_races (pcm : Nat) : RaceReachable (.extPcm pcm .mixerThread) :=
  raceReachable_of_exec (closesPcm 1 pcm ++ opensPcm 0 pcm 12)
    (t := .outWriteWorker 0) (u := .outWriteWorker 1) rfl rfl rfl (by simp) (by simp) (by simp)

theorem opensPcm_thread {stream pcm steps : Nat} {l : Label HalThread Nat} (hl : l ∈ opensPcm stream pcm steps) :
    l.thread = .outWriteWorker stream := by
  simp only [opensPcm, goesOn, List.mem_append, List.mem_cons, List.mem_replicate] at hl
  rcases hl with (⟨-, rfl⟩ | rfl | ⟨-, rfl⟩) | rfl | ⟨-, rfl⟩ <;> rfl

/-- The first open sets the map with the mixer thread running. -/
theorem mixerPipelineMap_races (pcm : Nat) : RaceReachable (.extPcm pcm .mixerPipelineMap) := by
  obtain ⟨k, hmixer⟩ := mixerThreadLoop_starts pcm
  obtain ⟨s, k', hopens, hat⟩ : ∃ s k', exec lockStep (((Machine.start halProgram).setOwner (.mixerLock pcm)
      (some (.mixerThreadLoop pcm))).setThread (.mixerThreadLoop pcm) (.run (pcmAccess pcm
        [.mixerPipelineMap, .pipelines, .mixerPipeline] [.pipelines, .mixerPipeline]) k)) (opensPcm 0 pcm 13) = some (s, []) ∧
      s.threads (.outWriteWorker 0) = .run (pcmAccess pcm [] [.mixerPipelineMap, .runMixer]) k' := ⟨_, _, rfl, rfl⟩
  have hmixing : s.threads (.mixerThreadLoop pcm) = .run (pcmAccess pcm [.mixerPipelineMap, .pipelines, .mixerPipeline]
      [.pipelines, .mixerPipeline]) k := by
    rw [exec_others (fun l hl => by rw [opensPcm_thread hl]; simp) hopens]
    exact Function.update_self ..
  exact raceReachable_of_exec (goesOn (.mixerThreadLoop pcm) 6 ++ opensPcm 0 pcm 13)
    (exec_append_eq_some.mpr ⟨_, _, _, hmixer, hopens, rfl⟩) hat hmixing (by simp) (by simp) (by simp)

end Trout.Locks

import Trout.OutputSections

/-! Standby and exit requests of an output stream. The worker waits in two loops on one condition
variable, and the wait for data tests neither request. A blocked worker has obeyed every request as
long as no request is made while it is in that wait with an empty buffer; otherwise it sleeps on. -/

namespace Trout.Audio
open CInt Runs

/-- Blocked on `worker_wake` with the locals `w`. -/
def WorkerPc.BlockedWith (pc : WorkerPc) (w : WorkerLocals) : Prop :=
  pc = .standbyWait w false ∨ pc = .emptyWait w false

/-- In no call, or in a close that waits in `pthread_join`. -/
def ClientPc.Resting : ClientPc → Prop
  | .idle => True
  | .joining => True
  | _ => False

variable {n : Nat}

/-- When only a join is in progress, a blocked worker is not asked to exit, and in standby it holds no
open PCM. -/
def ObeysRequests (s : OutputSystem n) : Prop :=
  (∀ i, (s.clients i).Resting) → ∀ w, s.worker.BlockedWith w →
    s.out.workerExit = false ∧ (s.out.workerStandby = true → w.extPcm = none)

/-- A section that makes a request does not meet the worker waiting for data on an empty ring buffer;
without an open PCM the worker may wait there when standby is requested. -/
def RequestHeard (s : OutputSystem n) : OutputLabel n → Prop
  | .client i l => ∀ closing, requests s.out (s.clients i) l = some closing →
      ∀ w woken, s.worker = .emptyWait w woken → s.out.buffer.live = 0 → closing = false ∧ w.extPcm = none
  | _ => True

/-- The invariant of the runs in which every request is heard. -/
structure Attentive (s : OutputSystem n) : Prop where
  rest_closed : ∀ w woken, s.worker = .standbyWait w woken → w.extPcm = none
  rest_exit : ∀ w, s.worker = .standbyWait w false → s.out.workerExit = false
  starved : ∀ w, s.worker = .emptyWait w false → s.out.buffer.live = 0
  unasked : ∀ w woken, s.worker = .emptyWait w woken → s.out.buffer.live = 0 →
    s.out.workerExit = false ∧ (s.out.workerStandby = true → w.extPcm = none)

theorem Attentive.obeys {s : OutputSystem n} (h : Attentive s) : ObeysRequests s := by
  rintro - w (hrest | hstarve)
  · exact ⟨h.rest_exit w hrest, fun _ => h.rest_closed w false hrest⟩
  · exact h.unasked w false hstarve (h.starved w hstarve)

theorem Attentive.init (out : GenericStreamOut) : Attentive (OutputSystem.init n out) where
  rest_closed := by
    intro w woken hw
    cases hw
  rest_exit := by
    intro w hw
    cases hw
  starved := by
    intro w hw
    cases hw
  unasked := by
    intro w woken hw
    cases hw

theorem signal_standbyWait {pc : WorkerPc} {w : WorkerLocals} {woken : Bool}
    (h : pc.signal = .standbyWait w woken) : woken = true ∧ ∃ before, pc = .standbyWait w before := by
  cases pc <;> simp only [WorkerPc.signal, reduceCtorEq, WorkerPc.standbyWait.injEq] at h
  rename_i w' before
  obtain ⟨rfl, rfl⟩ := h
  exact ⟨rfl, before, rfl⟩

theorem signal_emptyWait {pc : WorkerPc} {w : WorkerLocals} {woken : Bool}
    (h : pc.signal = .emptyWait w woken) : woken = true ∧ ∃ before, pc = .emptyWait w before := by
  cases pc <;> simp only [WorkerPc.signal, reduceCtorEq, WorkerPc.emptyWait.injEq] at h
  rename_i w' before
  obtain ⟨rfl, rfl⟩ := h
  exact ⟨rfl, before, rfl⟩

/-- A signalled worker stays attentive when the requests it may have missed are still unasked. -/
theorem Attentive.signalled {s t : OutputSystem n} (h : Attentive s) (hworker : t.worker = s.worker.signal)
    (hunasked : ∀ w woken, s.worker = .emptyWait w woken → t.out.buffer.live = 0 →
      t.out.workerExit = false ∧ (t.out.workerStandby = true → w.extPcm = none)) : Attentive t where
  rest_closed := by
    intro w woken hw
    obtain ⟨-, before, hbefore⟩ := signal_standbyWait (hworker.symm.trans hw)
    exact h.rest_closed w before hbefore
  rest_exit := by
    intro w hw
    exact absurd (signal_standbyWait (hworker.symm.trans hw)).1 Bool.false_ne_true
  starved := by
    intro w hw
    exact absurd (signal_emptyWait (hworker.symm.trans hw)).1 Bool.false_ne_true
  unasked := by
    intro w woken hw hlive
    obtain ⟨-, before, hbefore⟩ := signal_emptyWait (hworker.symm.trans hw)
    exact hunasked w before hbefore hlive

variable {req : AudioConfig} {pcm : PcmConfig}

theorem attentive_client {s t : OutputSystem n} {i : Fin n} {l : ClientLabel} {es : List OutputEvent}
    (hconsistent : Consistent req pcm s) (h : Attentive s) (hheard : RequestHeard s (.client i l))
    (hstep : clientStep s i l = some (t, es)) :
    Attentive t := by
  rw [clientStep, Option.map_eq_some_iff] at hstep
  obtain ⟨r, hsection, hpair⟩ := hstep
  cases hpair
  cases clientSection_effect hsection with
  | quiet view standby signals waiting keeps sleeping silent request =>
      refine ⟨?_, ?_, ?_, ?_⟩
      · simp only [signals]
        exact h.rest_closed
      · simp only [signals, view.workerExit]
        exact h.rest_exit
      · simp only [signals, view.buffer]
        exact h.starved
      · simp only [signals, view.buffer, view.workerExit]
        intro w woken hw hlive
        obtain ⟨hexit, hclosed⟩ := h.unasked w woken hw hlive
        exact ⟨hexit, fun hflag => hclosed (standby hflag)⟩
  | store entered c call view standby loop =>
      obtain ⟨written, outcome⟩ := hconsistent.store call view loop
      refine h.signalled (by simp only [outcome.signals, if_true]) ?_
      intro w woken hw hempty
      have hbefore : s.out.buffer.live = 0 := by
        have hlive := outcome.live
        rw [view.buffer] at hlive
        have hempty : r.out.buffer.live = 0 := hempty
        omega
      obtain ⟨hunexit, hclosed⟩ := h.unasked w woken hw hbefore
      refine ⟨(outcome.workerExit.trans view.workerExit).trans hunexit, fun hraised => hclosed (standby ?_)⟩
      rw [← outcome.workerStandby]
      exact hraised
  | request closing asks raised view result =>
      have hquiet := hheard closing asks
      rw [result]
      cases closing with
      | true =>
          refine h.signalled rfl ?_
          intro w woken hw hempty
          have hempty : raised.buffer.live = 0 := hempty
          rw [view.buffer] at hempty
          exact absurd (hquiet w woken hw hempty).1 (by decide)
      | false =>
          refine ⟨h.rest_closed, ?_, ?_, ?_⟩
          · intro w hw
            exact view.workerExit.trans (h.rest_exit w hw)
          · intro w hw
            change raised.buffer.live = 0
            rw [view.buffer]
            exact h.starved w hw
          · intro w woken hw hempty
            have hempty : raised.buffer.live = 0 := hempty
            rw [view.buffer] at hempty
            exact ⟨view.workerExit.trans (h.unasked w woken hw hempty).1, fun _ => (hquiet w woken hw hempty).2⟩

theorem attentive_worker {s t : OutputSystem n} {env : WorkerEnv} {wake : Option (Fin n)} {es : List OutputEvent}
    (hconsistent : Consistent req pcm s) (h : Attentive s)
    (hstep : workerStep s env wake = some (t, es)) : Attentive t := by
  rw [workerStep] at hstep
  split at hstep
  · cases hstep
  rename_i r hsection
  -- a section that ends outside both waits keeps the invariant for want of a waiting worker
  have haway : ∀ out' clients',
      (∀ w woken, r.pc ≠ .standbyWait w woken ∧ r.pc ≠ .emptyWait w woken) →
      Attentive (⟨out', clients', r.pc, s.freed⟩ : OutputSystem n) := by
    intro out' clients' hnot
    exact
      { rest_closed := fun w woken hw => absurd hw (hnot w woken).1
        rest_exit := fun w hw => absurd hw (hnot w false).1
        starved := fun w hw => absurd hw (hnot w false).2
        unasked := fun w woken hw => absurd hw (hnot w woken).2 }
  cases workerSection_effect hsection with
  | exits result exit =>
      rw [result] at hstep haway
      cases hstep
      exact haway s.out s.clients fun w woken => by simp
  | fails w result error data reached =>
      rw [result] at hstep haway
      cases hstep
      exact haway s.out s.clients fun w woken => by simp
  | plays w frames playing result =>
      rw [result] at hstep haway
      cases hstep
      exact haway s.out s.clients fun w woken => by simp
  | reads w pcm opened data buffer memory count read result reached =>
      rw [result] at hstep haway
      simp only [if_true, Option.map_eq_some_iff] at hstep
      obtain ⟨clients, -, hpair⟩ := hstep
      cases hpair
      exact haway _ clients fun w woken => by simp
  | rests result exit asked =>
      rw [result] at hstep
      cases hstep
      refine ⟨?_, fun _ _ => exit, ?_, ?_⟩
      · intro w woken hw
        cases hw
        rfl
      · intro w hw
        cases hw
      · intro w woken hw
        cases hw
  | starves w result empty reached =>
      rw [result] at hstep
      cases hstep
      refine ⟨?_, ?_, fun _ _ => hconsistent.usable.live_eq_zero.mp empty, ?_⟩
      · intro w' woken hw
        cases hw
      · intro w' hw
        cases hw
      · intro w' woken hw hlive
        cases hw
        rcases reached with hpc | ⟨-, hexit, hstandby, -⟩
        · exact h.unasked w true hpc hlive
        · exact ⟨hexit, fun hraised => absurd (hstandby.symm.trans hraised) Bool.false_ne_true⟩

theorem attentive_step (s : OutputSystem n) (l : OutputLabel n) (t : OutputSystem n) (es : List OutputEvent)
    (hconsistent : Consistent req pcm s) (h : Attentive s) (hheard : RequestHeard s l)
    (hstep : outputStep s l = some (t, es)) : Attentive t := by
  unfold outputStep at hstep
  split at hstep
  · cases hstep
  cases l with
  | client i l => exact attentive_client hconsistent h hheard hstep
  | join i =>
      dsimp only at hstep
      split at hstep
      · cases hstep
        exact ⟨h.rest_closed, h.rest_exit, h.starved, h.unasked⟩
      · cases hstep
  | worker env wake => exact attentive_worker hconsistent h hstep
  | workerSpurious =>
      dsimp only at hstep
      split at hstep
      · rename_i w hworker
        cases hstep
        refine ⟨?_, nofun, nofun, nofun⟩
        intro w' woken hw
        cases hw
        exact h.rest_closed w false hworker
      · rename_i w hworker
        cases hstep
        refine ⟨nofun, nofun, nofun, ?_⟩
        intro w' woken hw hlive
        cases hw
        exact h.unasked w false hworker hlive
      · cases hstep

/-- In every run of an opened stream whose requests are all heard, a blocked worker has obeyed them. -/
theorem requests_obeyed {allocated : Bool} {calloc : Nat → Bool} {p : PeriodProperties} {config : AudioConfig}
    {out : GenericStreamOut} (hopen : adevOpenOutputStream allocated calloc p config = .ok out)
    {ls : List (OutputLabel n)} {s : OutputSystem n} {es : List OutputEvent}
    (hheard : Guarded outputStep RequestHeard (OutputSystem.init n out) ls)
    (hrun : exec outputStep (OutputSystem.init n out) ls = some (s, es)) : ObeysRequests s := by
  have hstep : ∀ (s : OutputSystem n) l t es,
      (Consistent out.reqConfig out.pcmConfig s ∧ Attentive s) → RequestHeard s l →
      outputStep s l = some (t, es) → Consistent out.reqConfig out.pcmConfig t ∧ Attentive t :=
    fun s l t es h hheard hstep =>
      ⟨consistent_step s l t es h.1 hstep, attentive_step s l t es h.1 h.2 hheard hstep⟩
  exact (exec_invariant _ hstep ⟨Consistent.init hopen, Attentive.init out⟩ hheard hrun).2.obeys

/-- Standby is requested while the worker plays its only frame. -/
def heardStandby : List (OutputLabel 1) :=
  [workerTurn, writeOneFrame, workerTurn, .client (Fin.last 0) (.standby false 1000000000), workerTurn, workerTurn]

theorem requests_obeyed_heardStandby :
    ∃ s es, exec outputStep (OutputSystem.init 1 eightFrames) heardStandby = some (s, es) ∧ ObeysRequests s := by
  have hheard : Guarded outputStep RequestHeard (OutputSystem.init 1 eightFrames) heardStandby := by
    refine guarded_cons rfl trivial ?_
    refine guarded_cons rfl (fun _ hasks => by cases hasks) ?_
    refine guarded_cons rfl trivial ?_
    refine guarded_cons rfl (fun _ _ _ _ hwaits => by cases hwaits) ?_
    exact guarded_cons rfl trivial (guarded_cons rfl trivial trivial)
  exact ⟨_, _, rfl, requests_obeyed open_eightFrames hheard rfl⟩

/-- Standby is requested after the worker has played its only frame and waits for more; then the
stream is closed. -/
def missedStandby : List (OutputLabel 1) :=
  [workerTurn, writeOneFrame, workerTurn, workerTurn, workerTurn, .client (Fin.last 0) (.standby false 1000000000),
    .client (Fin.last 0) (.standby true 1000000000), workerTurn]

/-- The worker keeps its PCM open in standby, and the close waits for a worker that sleeps on. -/
theorem requests_missed :
    ¬ ∀ (out : GenericStreamOut) (ls : List (OutputLabel 1)) (s : OutputSystem 1) (es : List OutputEvent),
      adevOpenOutputStream true (fun _ => true) ⟨1, 1⟩ ⟨8000, audioFormatPcm16Bit, 3⟩ = .ok out →
        exec outputStep (OutputSystem.init 1 out) ls = some (s, es) → ObeysRequests s := by
  intro hall
  have hobeys := hall eightFrames missedStandby _ _ open_eightFrames rfl
  have hexit := (hobeys (fun i => by rw [Fin.fin_one_eq_zero i]; trivial) _ (Or.inr rfl)).1
  exact absurd hexit (by decide)

end Trout.Audio

import Trout.OutputSections

/-! Writers and a worker that has given up. The worker ends when it cannot open its PCM or allocate its
buffer, without a signal to the writers. A writer is left waiting exactly when the worker gives up on
it, or when it stores more than the rest of the ring buffer after that. -/

namespace Trout.Audio
open CInt Runs

variable {n : Nat}

/-- An `out_write` is blocked on `write_wake` and the worker has ended. -/
def Stranded (s : OutputSystem n) : Prop := s.worker = .terminated ∧ ∃ i, (s.clients i).blocked = true

/-- The label starts `adev_close_output_stream`. -/
def OutputLabel.Closes : OutputLabel n → Prop
  | .client _ (.standby closing _) => closing = true
  | _ => False

/-- The worker comes to its read and has no PCM, nor can it open one with its buffer. -/
def GivesUp (out : GenericStreamOut) (env : WorkerEnv) (pc : WorkerPc) : Prop :=
  ∃ w, ReachesData out pc w ∧ audioVbufferLive out.buffer ≠ 0 ∧ openPcm out w env = none

/-- The worker does not give up on a blocked writer, and what is stored after its end fits the ring buffer. -/
def WriterServed (s : OutputSystem n) : OutputLabel n → Prop
  | .worker env _ => GivesUp s.out env s.worker → ∀ i, (s.clients i).blocked = false
  | .client i l => s.worker = .terminated → ∀ entered c, storeCall s.out (s.clients i) l = some (entered, c) →
      c.frames - c.framesWritten ≤ s.out.buffer.frameCount - s.out.buffer.live
  | _ => True

/-- The invariant of the runs without a close in which every writer is served. -/
structure Served (s : OutputSystem n) : Prop where
  unclosed : s.out.workerExit = false
  not_closing : ∀ i, s.clients i ≠ .standbySleeping true
  served : s.worker = .terminated → ∀ i, (s.clients i).blocked = false

theorem Served.not_stranded {s : OutputSystem n} (h : Served s) : ¬ Stranded s := by
  rintro ⟨hworker, i, hblocked⟩
  exact absurd ((h.served hworker i).symm.trans hblocked) Bool.false_ne_true

theorem signal_terminated {pc : WorkerPc} (h : pc.signal = .terminated) : pc = .terminated := by
  cases pc <;> simp only [WorkerPc.signal, reduceCtorEq] at h
  rfl

variable {req : AudioConfig} {pcm : PcmConfig}

/-- After a section of client `i`, the invariant asks only about that client and the exit flag. -/
theorem Served.client {s : OutputSystem n} (h : Served s) {i : Fin n} {r : Section ClientPc}
    (hexit : r.out.workerExit = s.out.workerExit) (hclosing : r.pc ≠ .standbySleeping true)
    (hblocked : s.worker = .terminated → r.pc.blocked = false) :
    Served { s with
      out := r.out
      clients := Function.update s.clients i r.pc
      worker := if r.signals then s.worker.signal else s.worker } where
  unclosed := hexit.trans h.unclosed
  not_closing := by
    intro j
    by_cases hj : j = i
    · rw [hj]
      simp only [Function.update_self]
      exact hclosing
    · simp only [Function.update_of_ne hj]
      exact h.not_closing j
  served := by
    intro hworker j
    have hbefore : s.worker = .terminated := by
      by_cases hsignals : r.signals
      · exact signal_terminated ((if_pos hsignals).symm.trans hworker)
      · exact (if_neg hsignals).symm.trans hworker
    by_cases hj : j = i
    · rw [hj]
      simp only [Function.update_self]
      exact hblocked hbefore
    · simp only [Function.update_of_ne hj]
      exact h.served hbefore j

theorem served_client {s t : OutputSystem n} {i : Fin n} {l : ClientLabel} {es : List OutputEvent}
    (hconsistent : Consistent req pcm s) (h : Served s) (hserved : WriterServed s (.client i l))
    (hclose : ¬ (OutputLabel.client i l).Closes) (hstep : clientStep s i l = some (t, es)) : Served t := by
  rw [clientStep, Option.map_eq_some_iff] at hstep
  obtain ⟨r, hsection, hpair⟩ := hstep
  cases hpair
  -- nothing in this run asks for a close
  have hopen : ¬ ((∃ now, l = .standby true now) ∨ s.clients i = .standbySleeping true) := by
    rintro (⟨now, rfl⟩ | hpc)
    · exact hclose rfl
    · exact h.not_closing i hpc
  cases clientSection_effect hsection with
  | quiet view standby signals waiting keeps sleeping silent request =>
      refine h.client view.workerExit (fun hpc => hopen (sleeping true hpc)) fun _ => ?_
      cases hpc : r.pc with
      | writeWaiting c woken =>
          rw [(waiting c woken hpc).1]
          rfl
      | idle => rfl
      | writeSleeping buffer bytes => rfl
      | standbySleeping closing => rfl
      | joining => rfl
  | store entered c call view standby loop =>
      obtain ⟨written, outcome⟩ := hconsistent.store call view loop
      have hwritten := outcome.written_eq
      rw [view.buffer] at hwritten
      rcases outcome.leaves with ⟨hlt, hpc, -⟩ | ⟨-, hpc, -⟩
      · refine h.client (outcome.workerExit.trans view.workerExit) (by rw [hpc]; simp) fun hworker => ?_
        have hfits := hserved hworker entered c call
        omega
      · refine h.client (outcome.workerExit.trans view.workerExit) (by rw [hpc]; simp) fun _ => ?_
        rw [hpc]
        rfl
  | request closing asks raised view result =>
      cases closing with
      | true => exact absurd (requests_source asks) hopen
      | false =>
          rw [result]
          exact h.client view.workerExit (by simp [standbyEnd]) fun _ => rfl

theorem served_worker {s t : OutputSystem n} {env : WorkerEnv} {wake : Option (Fin n)} {es : List OutputEvent}
    (h : Served s) (hserved : WriterServed s (.worker env wake)) (hstep : workerStep s env wake = some (t, es)) :
    Served t := by
  rw [workerStep] at hstep
  split at hstep
  · cases hstep
  rename_i r hsection
  cases workerSection_effect hsection with
  | exits result exit => exact absurd (h.unclosed.symm.trans exit) Bool.false_ne_true
  | fails w result error data reached =>
      rw [result] at hstep
      cases hstep
      exact ⟨h.unclosed, h.not_closing, fun _ => hserved ⟨w, reached, data, error⟩⟩
  | rests result exit asked =>
      rw [result] at hstep
      cases hstep
      exact ⟨h.unclosed, h.not_closing, fun hworker => by cases hworker⟩
  | starves w result empty reached =>
      rw [result] at hstep
      cases hstep
      exact ⟨h.unclosed, h.not_closing, fun hworker => by cases hworker⟩
  | plays w frames playing result =>
      rw [result] at hstep
      cases hstep
      exact ⟨h.unclosed, h.not_closing, fun hworker => by cases hworker⟩
  | reads w pcm opened data buffer memory count read result reached =>
      rw [result] at hstep
      simp only [if_true, Option.map_eq_some_iff] at hstep
      obtain ⟨clients, hsignal, hpair⟩ := hstep
      cases hpair
      refine ⟨h.unclosed, ?_, fun hworker => by cases hworker⟩
      intro j hpc
      rcases signalWriter_calls hsignal j with hsame | ⟨c, -, hwoken⟩
      · exact h.not_closing j (hsame.symm.trans hpc)
      · cases hwoken.symm.trans hpc

theorem served_step (s : OutputSystem n) (l : OutputLabel n) (t : OutputSystem n) (es : List OutputEvent)
    (hconsistent : Consistent req pcm s) (h : Served s) (hserved : WriterServed s l) (hclose : ¬ l.Closes)
    (hstep : outputStep s l = some (t, es)) : Served t := by
  unfold outputStep at hstep
  split at hstep
  · cases hstep
  cases l with
  | client i l => exact served_client hconsistent h hserved hclose hstep
  | worker env wake => exact served_worker h hserved hstep
  | join i =>
      dsimp only at hstep
      split at hstep
      · cases hstep
        exact ⟨h.unclosed, h.not_closing, h.served⟩
      · cases hstep
  | workerSpurious =>
      dsimp only at hstep
      split at hstep
      · cases hstep
        exact ⟨h.unclosed, h.not_closing, nofun⟩
      · cases hstep
        exact ⟨h.unclosed, h.not_closing, nofun⟩
      · cases hstep

/-- In every run of an opened stream without a close in which the writers are served, none is stranded. -/
theorem writers_not_stranded {allocated : Bool} {calloc : Nat → Bool} {p : PeriodProperties} {config : AudioConfig}
    {out : GenericStreamOut} (hopen : adevOpenOutputStream allocated calloc p config = .ok out)
    {ls : List (OutputLabel n)} {s : OutputSystem n} {es : List OutputEvent} (hclose : ∀ l ∈ ls, ¬ l.Closes)
    (hserved : Guarded outputStep WriterServed (OutputSystem.init n out) ls)
    (hrun : exec outputStep (OutputSystem.init n out) ls = some (s, es)) : ¬ Stranded s := by
  have hstep : ∀ (s : OutputSystem n) l t es,
      (Consistent out.reqConfig out.pcmConfig s ∧ Served s) → (WriterServed s l ∧ ¬ l.Closes) →
      outputStep s l = some (t, es) → Consistent out.reqConfig out.pcmConfig t ∧ Served t :=
    fun s l t es h hguard hstep =>
      ⟨consistent_step s l t es h.1 hstep, served_step s l t es h.1 h.2 hguard.1 hguard.2 hstep⟩
  have hinit : Served (OutputSystem.init n out) := ⟨(open_usable hopen).2.2.2.1, nofun, nofun⟩
  exact (exec_invariant _ hstep ⟨Consistent.init hopen, hinit⟩ (hserved.and_labels hclose) hrun).2.not_stranded

/-- A turn of the worker in which the PCM is not ready. -/
def failedTurn : OutputLabel 1 := .worker ⟨false, fun _ => none, true, false⟩ none

/-- The worker gives up with one frame in the ring buffer, and the next frame still fits. -/
def fittingWrite : List (OutputLabel 1) := [workerTurn, writeOneFrame, failedTurn, writeOneFrame]

theorem writers_not_stranded_fittingWrite :
    ∃ s es, exec outputStep (OutputSystem.init 1 eightFrames) fittingWrite = some (s, es) ∧
      s.worker = .terminated ∧ ¬ Stranded s := by
  have hclose : ∀ l ∈ fittingWrite, ¬ l.Closes := by
    intro l hl
    fin_cases hl <;> exact fun hcloses => by cases hcloses
  have hserved : Guarded outputStep WriterServed (OutputSystem.init 1 eightFrames) fittingWrite := by
    refine guarded_cons rfl (fun _ i => by rw [Fin.fin_one_eq_zero i]; rfl) ?_
    refine guarded_cons rfl (fun hworker => by cases hworker) ?_
    refine guarded_cons rfl (fun _ i => by rw [Fin.fin_one_eq_zero i]; rfl) ?_
    refine guarded_cons rfl ?_ trivial
    intro _ entered c hcall
    cases hcall
    decide
  exact ⟨_, _, rfl, rfl, writers_not_stranded open_eightFrames hclose hserved rfl⟩

/-- A write of sixteen frames fills the ring buffer and waits; then the worker cannot open its PCM. -/
def strandedWrite : List (OutputLabel 1) :=
  [workerTurn, .client (Fin.last 0) (.write (fun _ => 0) 64 0 ⟨false, fun _ x => x⟩),
    .client (Fin.last 0) (.writeSlept ⟨false, fun _ x => x⟩), failedTurn]

theorem writer_stranded :
    ¬ ∀ (out : GenericStreamOut) (ls : List (OutputLabel 1)) (s : OutputSystem 1) (es : List OutputEvent),
      adevOpenOutputStream true (fun _ => true) ⟨1, 1⟩ ⟨8000, audioFormatPcm16Bit, 3⟩ = .ok out →
        (∀ l ∈ ls, ¬ l.Closes) → exec outputStep (OutputSystem.init 1 out) ls = some (s, es) → ¬ Stranded s := by
  intro hall
  have hclose : ∀ l ∈ strandedWrite, ¬ l.Closes := by
    intro l hl
    fin_cases hl <;> exact fun hcloses => by cases hcloses
  exact hall eightFrames strandedWrite _ _ open_eightFrames hclose rfl ⟨rfl, 0, rfl⟩

end Trout.Audio

import Mathlib.Logic.Relation
import Trout.Runs

/-! Circular waits are ruled out by an order of the locks. A thread's program keeps what it does to its mutexes, its
waits on condition variables, its joins and what it reads and writes of shared variables; tests are left open. When every
program takes its mutexes, and joins its threads, upwards in an order, and sleeps with no other mutex than the one it
waits with, no threads wait for each other in a circle, and behind every thread that is blocked on a mutex there is one
that can take its next step. A sleeper may be woken at any time here: whether it ever is, and how long a join of it lasts,
is not said. And when every program holds the guards of the variables that it reads and writes, no two threads are ever at
one of them. -/

namespace LockOrder
open Runs

universe u v w x
variable {κ : Type u} {τ : Type v} {ι : Type w} {φ : Type x}

/-! ### Programs -/

/-- Programs over the mutexes `κ`, the threads `τ`, the indices `ι` of choices and the shared variables `φ`. -/
inductive Code (κ : Type u) (τ : Type v) (ι : Type w) (φ : Type x) where
  | skip
  /-- Statements that read and write shared variables. -/
  | access (reads writes : List φ)
  | lock (m : κ)
  | unlock (m : κ)
  /-- A wait on a condition variable, which releases the mutex and takes it again. -/
  | wait (m : κ)
  | join (t : τ)
  | seq (p q : Code κ τ ι φ)
  | either (p q : Code κ τ ι φ)
  | pick (p : ι → Code κ τ ι φ)
  /-- A loop that ends with a `leave`. -/
  | loop (p : Code κ τ ι φ)
  | leave

instance : Append (Code κ τ ι φ) := ⟨.seq⟩

/-- What follows the code that is running. -/
inductive Cont (κ : Type u) (τ : Type v) (ι : Type w) (φ : Type x) where
  | done
  | next (p : Code κ τ ι φ) (k : Cont κ τ ι φ)
  /-- The end of the body of a loop. -/
  | again (p : Code κ τ ι φ) (k : Cont κ τ ι φ)

inductive Thread (κ : Type u) (τ : Type v) (ι : Type w) (φ : Type x) where
  | run (p : Code κ τ ι φ) (k : Cont κ τ ι φ)
  /-- In a wait, without the mutex. -/
  | asleep (m : κ) (k : Cont κ τ ι φ)
  | ended

namespace Cont

def resume : Cont κ τ ι φ → Thread κ τ ι φ
  | done => .ended
  | next p k => .run p k
  | again p k => .run (.loop p) k

/-- The continuation after a `leave`. -/
def leave : Cont κ τ ι φ → Thread κ τ ι φ
  | done => .ended
  | next _ k => k.leave
  | again _ k => k.resume

end Cont

structure Machine (κ : Type u) (τ : Type v) (ι : Type w) (φ : Type x) where
  threads : τ → Thread κ τ ι φ
  owner : κ → Option τ

/-- The thread that goes on, and how it chooses. -/
structure Label (τ : Type v) (ι : Type w) where
  thread : τ
  choice : Bool
  index : ι

section Steps
variable [DecidableEq κ] [DecidableEq τ]

def Machine.setThread (s : Machine κ τ ι φ) (t : τ) (thread : Thread κ τ ι φ) : Machine κ τ ι φ :=
  { s with threads := Function.update s.threads t thread }

def Machine.setOwner (s : Machine κ τ ι φ) (m : κ) (owner : Option τ) : Machine κ τ ι φ :=
  { s with owner := Function.update s.owner m owner }

/-- One step of one thread. A sleeper wakes at any time. -/
def lockStep (s : Machine κ τ ι φ) (l : Label τ ι) : Option (Machine κ τ ι φ × List Empty) :=
  match s.threads l.thread with
  | .ended => none
  | .asleep m k => some (s.setThread l.thread (.run (.lock m) k), [])
  | .run p k =>
      match p with
      | .skip => some (s.setThread l.thread k.resume, [])
      | .access _ _ => some (s.setThread l.thread k.resume, [])
      | .lock m =>
          if s.owner m = none then some ((s.setOwner m (some l.thread)).setThread l.thread k.resume, []) else none
      | .unlock m => some ((s.setOwner m none).setThread l.thread k.resume, [])
      | .wait m => some ((s.setOwner m none).setThread l.thread (.asleep m k), [])
      | .join u =>
          match s.threads u with
          | .ended => some (s.setThread l.thread k.resume, [])
          | _ => none
      | .seq p q => some (s.setThread l.thread (.run p (.next q k)), [])
      | .either p q => some (s.setThread l.thread (.run (if l.choice then p else q) k), [])
      | .pick p => some (s.setThread l.thread (.run (p l.index) k), [])
      | .loop p => some (s.setThread l.thread (.run p (.again p k)), [])
      | .leave => some (s.setThread l.thread k.leave, [])

end Steps

/-- Every thread at the start of its program. -/
def Machine.start (program : τ → Code κ τ ι φ) : Machine κ τ ι φ := ⟨fun t => .run (program t) .done, fun _ => none⟩

/-! ### The order -/

/-- Places for the mutexes and the threads, which threads may sleep, and the mutex that guards a variable. -/
structure Order (κ : Type u) (τ : Type v) (φ : Type x) where
  mutex : κ → Nat
  thread : τ → Nat
  mayWait : τ → Prop
  guard : φ → Option κ
  top : Nat
  mutex_lt : ∀ m, mutex m < top
  thread_lt : ∀ t, thread t < top

/-- The code of thread `t` keeps to the order when it starts with the mutexes `h`, and ends with mutexes that `Q` is
true of, or leaves its loop with mutexes that `E` is true of. -/
@[simp] def Code.Orderly (o : Order κ τ φ) (t : τ) : Code κ τ ι φ → (List κ → Prop) → (List κ → Prop) → List κ → Prop
  | skip, Q, _, h => Q h
  | access reads writes, Q, _, h => (∀ f ∈ reads ++ writes, ∀ m ∈ o.guard f, m ∈ h) ∧ Q h
  | lock m, Q, _, h => o.thread t < o.mutex m ∧ (∀ m' ∈ h, o.mutex m' < o.mutex m) ∧ Q (m :: h)
  | unlock m, Q, _, h => ∃ h', h = m :: h' ∧ Q h'
  | wait m, Q, _, h => o.mayWait t ∧ o.thread t < o.mutex m ∧ h = [m] ∧ Q [m]
  | join u, Q, _, h =>
      o.thread t < o.thread u ∧ (∀ m ∈ h, o.mutex m < o.thread u) ∧ (o.mayWait u → h = [] ∧ o.mayWait t) ∧ Q h
  | seq p q, Q, E, h => p.Orderly o t (q.Orderly o t Q E) E h
  | either p q, Q, E, h => p.Orderly o t Q E h ∧ q.Orderly o t Q E h
  | pick p, Q, E, h => ∀ i, (p i).Orderly o t Q E h
  | loop p, Q, _, h => p.Orderly o t (· = h) Q h
  | leave, _, E, h => E h

/-- A program that starts and ends without mutexes. -/
def Code.Keeps (o : Order κ τ φ) (t : τ) (p : Code κ τ ι φ) : Prop := p.Orderly o t (· = []) (fun _ => False) []

mutual

/-- What the mutexes must be like where the continuation takes over, and where a `leave` does. -/
def Cont.post (o : Order κ τ φ) (t : τ) : Cont κ τ ι φ → List κ → Prop
  | .done => fun h => h = []
  | .next p k => p.Orderly o t (k.post o t) (k.exit o t)
  | .again p k => fun h => p.Orderly o t (· = h) (k.post o t) h

def Cont.exit (o : Order κ τ φ) (t : τ) : Cont κ τ ι φ → List κ → Prop
  | .done => fun _ => False
  | .next _ k => k.exit o t
  | .again _ k => k.post o t

end

def Thread.Orderly (o : Order κ τ φ) (t : τ) : Thread κ τ ι φ → List κ → Prop
  | run p k, h => p.Orderly o t (k.post o t) (k.exit o t) h
  | asleep m k, h => o.mayWait t ∧ o.thread t < o.mutex m ∧ h = [] ∧ k.post o t [m]
  | ended, h => h = []

variable {o : Order κ τ φ} {t : τ}

@[simp] theorem Code.append_orderly (p q : Code κ τ ι φ) (Q E : List κ → Prop) (h : List κ) :
    (p ++ q).Orderly o t Q E h = p.Orderly o t (q.Orderly o t Q E) E h := rfl

theorem Code.Orderly.mono {p : Code κ τ ι φ} {Q Q' E E' : List κ → Prop} {h : List κ} (hp : p.Orderly o t Q E h)
    (hQ : ∀ h, Q h → Q' h) (hE : ∀ h, E h → E' h) : p.Orderly o t Q' E' h := by
  induction p generalizing Q Q' E E' h with
  | skip => exact hQ h hp
  | access reads writes => exact ⟨hp.1, hQ h hp.2⟩
  | lock m => exact ⟨hp.1, hp.2.1, hQ _ hp.2.2⟩
  | unlock m =>
      obtain ⟨h', rfl, hrest⟩ := hp
      exact ⟨h', rfl, hQ h' hrest⟩
  | wait m => exact ⟨hp.1, hp.2.1, hp.2.2.1, hQ _ hp.2.2.2⟩
  | join u => exact ⟨hp.1, hp.2.1, hp.2.2.1, hQ h hp.2.2.2⟩
  | seq p q ihp ihq => exact ihp hp (fun h hq => ihq hq hQ hE) hE
  | either p q ihp ihq => exact ⟨ihp hp.1 hQ hE, ihq hp.2 hQ hE⟩
  | pick p ih => exact fun i => ih i (hp i) hQ hE
  | loop p ih => exact ih hp (fun _ => id) hQ
  | leave => exact hE h hp

theorem Cont.resume_orderly {k : Cont κ τ ι φ} {h : List κ} (hk : k.post o t h) : k.resume.Orderly o t h := by
  cases k with
  | done => exact hk
  | next p k => exact hk
  | again p k => exact hk

theorem Cont.leave_orderly {k : Cont κ τ ι φ} {h : List κ} (hk : k.exit o t h) : k.leave.Orderly o t h := by
  induction k with
  | done => exact hk.elim
  | next p k ih => exact ih hk
  | again p k _ => exact k.resume_orderly hk

/-! ### Machines that keep to the order -/

/-- The threads hold the mutexes in `held`, and keep to the order from where they are. -/
structure Machine.Orderly (o : Order κ τ φ) (s : Machine κ τ ι φ) (held : τ → List κ) : Prop where
  owned : ∀ t m, m ∈ held t ↔ s.owner m = some t
  nodup : ∀ t, (held t).Nodup
  threads : ∀ t, (s.threads t).Orderly o t (held t)

theorem Machine.start_orderly {program : τ → Code κ τ ι φ} (h : ∀ t, (program t).Keeps o t) :
    (Machine.start program).Orderly o fun _ => [] where
  owned t m := by simp [Machine.start]
  nodup t := List.nodup_nil
  threads t := h t

section Steps
variable [DecidableEq κ] [DecidableEq τ]

omit [DecidableEq κ] in
@[simp] theorem Machine.setThread_owner (s : Machine κ τ ι φ) (t : τ) (thread : Thread κ τ ι φ) :
    (s.setThread t thread).owner = s.owner := rfl

omit [DecidableEq τ] in
@[simp] theorem Machine.setOwner_threads (s : Machine κ τ ι φ) (m : κ) (owner : Option τ) :
    (s.setOwner m owner).threads = s.threads := rfl

omit [DecidableEq τ] in
theorem Machine.setOwner_self (s : Machine κ τ ι φ) (m : κ) (owner : Option τ) : (s.setOwner m owner).owner m = owner :=
  Function.update_self ..

omit [DecidableEq τ] in
theorem Machine.setOwner_of_ne (s : Machine κ τ ι φ) {m m' : κ} (h : m' ≠ m) (owner : Option τ) :
    (s.setOwner m owner).owner m' = s.owner m' :=
  Function.update_of_ne h ..

omit [DecidableEq κ] in
/-- One thread has gone on, with other mutexes. -/
theorem Machine.threads_orderly {s : Machine κ τ ι φ} {held : τ → List κ} (h : ∀ u, (s.threads u).Orderly o u (held u))
    {thread : Thread κ τ ι φ} {mine : List κ} (hthread : thread.Orderly o t mine) (u : τ) :
    ((s.setThread t thread).threads u).Orderly o u (Function.update held t mine u) := by
  by_cases hu : u = t
  · subst hu
    simpa [setThread] using hthread
  · simpa [setThread, hu] using h u

omit [DecidableEq κ] in
theorem Machine.Orderly.goesOn {s : Machine κ τ ι φ} {held : τ → List κ} (h : s.Orderly o held) {thread : Thread κ τ ι φ}
    (hthread : thread.Orderly o t (held t)) : (s.setThread t thread).Orderly o held where
  owned := h.owned
  nodup := h.nodup
  threads u := by
    have hu := s.threads_orderly h.threads hthread u
    rwa [Function.update_eq_self] at hu

theorem Machine.Orderly.takes {s : Machine κ τ ι φ} {held : τ → List κ} (h : s.Orderly o held) {thread : Thread κ τ ι φ}
    {m : κ} (hfree : s.owner m = none) (hthread : thread.Orderly o t (m :: held t)) :
    ((s.setOwner m (some t)).setThread t thread).Orderly o (Function.update held t (m :: held t)) := by
  have hnone : ∀ u, m ∉ held u := fun u hmem => by
    have howner := (h.owned u m).mp hmem
    rw [hfree] at howner
    cases howner
  refine ⟨fun u m' => ?_, fun u => ?_, (s.setOwner m (some t)).threads_orderly h.threads hthread⟩
  · rw [setThread_owner]
    by_cases hm : m' = m
    · subst hm
      rw [setOwner_self]
      by_cases hu : u = t
      · simp [hu]
      · simp [hu, hnone u, Ne.symm hu]
    · rw [setOwner_of_ne s hm, ← h.owned u m']
      by_cases hu : u = t
      · simp [hu, hm]
      · simp [hu]
  · by_cases hu : u = t
    · rw [hu, Function.update_self]
      exact List.nodup_cons.mpr ⟨hnone t, h.nodup t⟩
    · rw [Function.update_of_ne hu]
      exact h.nodup u

theorem Machine.Orderly.releases {s : Machine κ τ ι φ} {held : τ → List κ} (h : s.Orderly o held) {thread : Thread κ τ ι φ}
    {m : κ} {rest : List κ} (hheld : held t = m :: rest) (hthread : thread.Orderly o t rest) :
    ((s.setOwner m none).setThread t thread).Orderly o (Function.update held t rest) := by
  have hnodup := h.nodup t
  rw [hheld, List.nodup_cons] at hnodup
  have howner : s.owner m = some t := (h.owned t m).mp (hheld ▸ List.mem_cons_self)
  refine ⟨fun u m' => ?_, fun u => ?_, (s.setOwner m none).threads_orderly h.threads hthread⟩
  · rw [setThread_owner]
    by_cases hm : m' = m
    · subst hm
      rw [setOwner_self]
      by_cases hu : u = t
      · simp [hu, hnodup.1]
      · have hnot : m' ∉ held u := fun hmem => hu (Option.some.inj (((h.owned u m').mp hmem).symm.trans howner))
        simp [hu, hnot]
    · rw [setOwner_of_ne s hm, ← h.owned u m']
      by_cases hu : u = t
      · simp [hu, hheld, hm]
      · simp [hu]
  · by_cases hu : u = t
    · rw [hu, Function.update_self]
      exact hnodup.2
    · rw [Function.update_of_ne hu]
      exact h.nodup u

/-- A step keeps to the order. -/
theorem Machine.Orderly.step {s s' : Machine κ τ ι φ} {l : Label τ ι} {es : List Empty} {held : τ → List κ}
    (h : s.Orderly o held) (hstep : lockStep s l = some (s', es)) : ∃ held', s'.Orderly o held' := by
  have hthread := h.threads l.thread
  rw [lockStep] at hstep
  cases hat : s.threads l.thread with
  | ended =>
      rw [hat] at hstep
      cases hstep
  | asleep m k =>
      rw [hat] at hstep hthread
      cases hstep
      obtain ⟨-, hlt, hnone, hpost⟩ := hthread
      refine ⟨held, h.goesOn ⟨hlt, ?_, ?_⟩⟩
      · rw [hnone]
        exact fun m' hm' => absurd hm' List.not_mem_nil
      · rw [hnone]
        exact hpost
  | run p k =>
      rw [hat] at hstep hthread
      cases p with
      | skip =>
          cases hstep
          exact ⟨held, h.goesOn (k.resume_orderly hthread)⟩
      | access reads writes =>
          cases hstep
          exact ⟨held, h.goesOn (k.resume_orderly hthread.2)⟩
      | lock m =>
          obtain ⟨hfree, hsome⟩ := Option.ite_none_right_eq_some.mp hstep
          cases hsome
          exact ⟨_, h.takes hfree (k.resume_orderly hthread.2.2)⟩
      | unlock m =>
          cases hstep
          obtain ⟨rest, hheld, hpost⟩ := hthread
          exact ⟨_, h.releases hheld (k.resume_orderly hpost)⟩
      | wait m =>
          cases hstep
          obtain ⟨hmay, hlt, hheld, hpost⟩ := hthread
          exact ⟨_, h.releases hheld ⟨hmay, hlt, rfl, hpost⟩⟩
      | join u =>
          dsimp only at hstep
          split at hstep
          · cases hstep
            exact ⟨held, h.goesOn (k.resume_orderly hthread.2.2.2)⟩
          · cases hstep
      | seq p q =>
          cases hstep
          exact ⟨held, h.goesOn hthread⟩
      | either p q =>
          cases hstep
          refine ⟨held, h.goesOn ?_⟩
          cases l.choice with
          | true => exact hthread.1
          | false => exact hthread.2
      | pick p =>
          cases hstep
          exact ⟨held, h.goesOn (hthread l.index)⟩
      | loop p =>
          cases hstep
          refine ⟨held, h.goesOn (Code.Orderly.mono hthread ?_ fun _ => id)⟩
          rintro _ rfl
          exact hthread
      | leave =>
          cases hstep
          exact ⟨held, h.goesOn (k.leave_orderly hthread)⟩

/-- A step moves its own thread. -/
theorem lockStep_threads {s s' : Machine κ τ ι φ} {l : Label τ ι} {es : List Empty}
    (hstep : lockStep s l = some (s', es)) : ∃ thread, s'.threads = Function.update s.threads l.thread thread := by
  rw [lockStep] at hstep
  cases hat : s.threads l.thread with
  | ended =>
      rw [hat] at hstep
      cases hstep
  | asleep m k =>
      rw [hat] at hstep
      cases hstep
      exact ⟨_, rfl⟩
  | run p k =>
      rw [hat] at hstep
      cases p with
      | lock m =>
          obtain ⟨-, hsome⟩ := Option.ite_none_right_eq_some.mp hstep
          cases hsome
          exact ⟨_, rfl⟩
      | join u =>
          dsimp only at hstep
          split at hstep
          · cases hstep
            exact ⟨_, rfl⟩
          · cases hstep
      | _ =>
          cases hstep
          exact ⟨_, rfl⟩

theorem exec_others {u : τ} {ls : List (Label τ ι)} (hothers : ∀ l ∈ ls, u ≠ l.thread) {s s' : Machine κ τ ι φ}
    {es : List Empty} (hrun : exec lockStep s ls = some (s', es)) : s'.threads u = s.threads u := by
  induction ls generalizing s es with
  | nil =>
      cases hrun
      rfl
  | cons l ls ih =>
      obtain ⟨s₁, es₁, es₂, hstep, hrest, -⟩ := exec_cons_eq_some.mp hrun
      obtain ⟨thread, hthreads⟩ := lockStep_threads hstep
      rw [ih (fun l' hl' => hothers l' (List.mem_cons_of_mem l hl')) hrest, hthreads,
        Function.update_of_ne (hothers l List.mem_cons_self)]

theorem reachable_orderly {program : τ → Code κ τ ι φ} (hprogram : ∀ t, (program t).Keeps o t) {s : Machine κ τ ι φ}
    (hs : Reachable lockStep (Machine.start program) s) : ∃ held, s.Orderly o held :=
  hs.invariant (fun s => ∃ held, s.Orderly o held) (fun _ _ _ _ ⟨_, h⟩ hstep => h.step hstep)
    ⟨_, Machine.start_orderly hprogram⟩

end Steps

/-! ### Waiting -/

/-- A thread is blocked: on a mutex that is held, or on the end of another thread. -/
inductive WaitsFor (s : Machine κ τ ι φ) (t u : τ) : Prop where
  | mutex (m : κ) (k : Cont κ τ ι φ) : s.threads t = .run (.lock m) k → s.owner m = some u → WaitsFor s t u
  | thread (k : Cont κ τ ι φ) : s.threads t = .run (.join u) k → s.threads u ≠ .ended → WaitsFor s t u

/-- The thread is awake and not blocked. -/
def Ready (s : Machine κ τ ι φ) (t : τ) : Prop := (∃ p k, s.threads t = .run p k) ∧ ∀ u, ¬ WaitsFor s t u

theorem Ready.steps [DecidableEq κ] [DecidableEq τ] [Nonempty ι] {s : Machine κ τ ι φ} (h : Ready s t) :
    ∃ l s', l.thread = t ∧ lockStep s l = some (s', []) := by
  obtain ⟨⟨p, k, hat⟩, hfree⟩ := h
  obtain ⟨i⟩ := ‹Nonempty ι›
  refine ⟨⟨t, true, i⟩, ?_⟩
  simp only [lockStep, hat]
  cases p with
  | lock m =>
      have hnone : s.owner m = none := by
        cases howner : s.owner m with
        | none => rfl
        | some u => exact absurd (.mutex m k hat howner) (hfree u)
      exact ⟨_, trivial, if_pos hnone⟩
  | join u =>
      have hended : s.threads u = .ended := not_not.mp fun hnot => hfree u (.thread k hat hnot)
      simp [hended]
  | _ => exact ⟨_, trivial, rfl⟩

/-- The place of what a thread is about to take. -/
def Thread.aim (o : Order κ τ φ) : Thread κ τ ι φ → Nat
  | run (.lock m) _ => o.mutex m
  | run (.join u) _ => o.thread u
  | _ => 0

/-- The thread cannot be asleep: it holds a mutex, or never sleeps. -/
def Steady (o : Order κ τ φ) (held : τ → List κ) (t : τ) : Prop := held t ≠ [] ∨ ¬ o.mayWait t

section Waiting
variable {s : Machine κ τ ι φ} {held : τ → List κ} (h : s.Orderly o held) {u v : τ}
include h

/-- Who is waited for waits further up. -/
theorem Machine.Orderly.aim_lt (htu : WaitsFor s t u) (huv : WaitsFor s u v) :
    (s.threads t).aim o < (s.threads u).aim o := by
  have hu := h.threads u
  have hbelow : ∀ a, (∀ m ∈ held u, o.mutex m < a) → o.thread u < a → (s.threads t).aim o < a := by
    intro a hheld hself
    cases htu with
    | mutex m k hat howner =>
        rw [hat]
        exact hheld m ((h.owned u m).mpr howner)
    | thread k hat _ =>
        rw [hat]
        exact hself
  cases huv with
  | mutex m k hat _ =>
      rw [hat] at hu ⊢
      exact hbelow _ hu.2.1 hu.1
  | thread k hat _ =>
      rw [hat] at hu ⊢
      exact hbelow _ hu.2.1 hu.1

theorem Machine.Orderly.no_cycle : ¬ Relation.TransGen (WaitsFor s) t t := by
  intro hcycle
  obtain ⟨w, hfirst, -⟩ := Relation.TransGen.head'_iff.mp hcycle
  have hlt : ∀ u, Relation.TransGen (WaitsFor s) t u → ∀ v, WaitsFor s u v →
      (s.threads t).aim o < (s.threads u).aim o := by
    intro u htu
    induction htu with
    | single hone => exact fun v huv => h.aim_lt hone huv
    | tail _ hone ih => exact fun v huv => (ih _ hone).trans (h.aim_lt hone huv)
  exact lt_irrefl _ (hlt t hcycle w hfirst)

/-- Steady threads wait for steady threads. -/
theorem Machine.Orderly.steady (hsteady : Steady o held t) (htu : WaitsFor s t u) :
    Steady o held u ∧ s.threads u ≠ .ended := by
  have ht := h.threads t
  cases htu with
  | mutex m k hat howner =>
      have hmem : m ∈ held u := (h.owned u m).mpr howner
      refine ⟨.inl (List.ne_nil_of_mem hmem), fun hended => ?_⟩
      have hu := h.threads u
      rw [hended] at hu
      rw [show held u = [] from hu] at hmem
      cases hmem
  | thread k hat hnot =>
      rw [hat] at ht
      refine ⟨.inr fun hmay => ?_, hnot⟩
      obtain ⟨hnone, hmine⟩ := ht.2.2.1 hmay
      rcases hsteady with hheld | hnever
      · exact hheld hnone
      · exact hnever hmine

theorem Machine.Orderly.awake (hsteady : Steady o held t) (hnot : s.threads t ≠ .ended) :
    ∃ p k, s.threads t = .run p k := by
  have ht := h.threads t
  cases hat : s.threads t with
  | run p k => exact ⟨p, k, rfl⟩
  | ended => exact absurd hat hnot
  | asleep m k =>
      rw [hat] at ht
      rcases hsteady with hheld | hnever
      · exact absurd ht.2.2.1 hheld
      · exact absurd ht.1 hnever

/-- Behind a steady thread there is one that is ready: who is waited for waits further up, and there is a top. -/
theorem Machine.Orderly.exists_ready (hsteady : Steady o held t) (hnot : s.threads t ≠ .ended) :
    ∃ v, Relation.ReflTransGen (WaitsFor s) t v ∧ Ready s v := by
  induction hn : o.top - (s.threads t).aim o using Nat.strong_induction_on generalizing t with
  | _ n ih =>
      by_cases hfree : ∀ u, ¬ WaitsFor s t u
      · exact ⟨t, .refl, h.awake hsteady hnot, hfree⟩
      obtain ⟨u, htu⟩ := not_forall_not.mp hfree
      obtain ⟨hu, hnotu⟩ := h.steady hsteady htu
      by_cases hfreeu : ∀ v, ¬ WaitsFor s u v
      · exact ⟨u, .single htu, h.awake hu hnotu, hfreeu⟩
      obtain ⟨w, huw⟩ := not_forall_not.mp hfreeu
      have hlt := h.aim_lt htu huw
      have htop : (s.threads u).aim o < o.top := by
        cases huw with
        | mutex m k hat _ =>
            rw [hat]
            exact o.mutex_lt m
        | thread k hat _ =>
            rw [hat]
            exact o.thread_lt w
      obtain ⟨v, huv, hready⟩ := ih (o.top - (s.threads u).aim o) (by omega) hu hnotu rfl
      exact ⟨v, .head htu huv, hready⟩

/-- Who is blocked on a mutex is held up by a thread that is ready. -/
theorem Machine.Orderly.lock_progress {m : κ} {k : Cont κ τ ι φ} (hat : s.threads t = .run (.lock m) k)
    (howner : s.owner m = some u) : ∃ v, Relation.TransGen (WaitsFor s) t v ∧ Ready s v := by
  have hmem : m ∈ held u := (h.owned u m).mpr howner
  have hnot : s.threads u ≠ .ended := fun hended => by
    have hu := h.threads u
    rw [hended] at hu
    rw [show held u = [] from hu] at hmem
    cases hmem
  obtain ⟨v, huv, hready⟩ := h.exists_ready (.inl (List.ne_nil_of_mem hmem)) hnot
  exact ⟨v, Relation.TransGen.head' (.mutex m k hat howner) huv, hready⟩

end Waiting

/-! ### Discipline -/

/-- Mutexes are released, and waited with, by those that hold them; nobody takes one twice, sleeps with another one or
ends with one. -/
structure Disciplined (s : Machine κ τ ι φ) : Prop where
  unlocks : ∀ t m k, s.threads t = .run (.unlock m) k → s.owner m = some t
  waits : ∀ t m k, s.threads t = .run (.wait m) k → ∀ m', s.owner m' = some t ↔ m' = m
  locks : ∀ t m k, s.threads t = .run (.lock m) k → s.owner m ≠ some t
  sleeps : ∀ t m k, s.threads t = .asleep m k → ∀ m', s.owner m' ≠ some t
  ends : ∀ t, s.threads t = .ended → ∀ m, s.owner m ≠ some t

theorem Machine.Orderly.disciplined {s : Machine κ τ ι φ} {held : τ → List κ} (h : s.Orderly o held) : Disciplined s where
  unlocks t m k hat := by
    have ht := h.threads t
    rw [hat] at ht
    obtain ⟨rest, hheld, -⟩ := ht
    exact (h.owned t m).mp (hheld ▸ List.mem_cons_self)
  waits t m k hat m' := by
    have ht := h.threads t
    rw [hat] at ht
    rw [← h.owned t m', ht.2.2.1, List.mem_singleton]
  locks t m k hat howner := by
    have ht := h.threads t
    rw [hat] at ht
    exact lt_irrefl _ (ht.2.1 m ((h.owned t m).mpr howner))
  sleeps t m k hat m' howner := by
    have ht := h.threads t
    rw [hat] at ht
    have hmem := (h.owned t m').mpr howner
    rw [ht.2.2.1] at hmem
    cases hmem
  ends t hat m howner := by
    have ht := h.threads t
    rw [hat] at ht
    have hmem := (h.owned t m).mpr howner
    rw [show held t = [] from ht] at hmem
    cases hmem

/-! ### Races -/

/-- The thread is about to read or write the variable. -/
def Touches (s : Machine κ τ ι φ) (t : τ) (f : φ) : Prop :=
  ∃ reads writes k, s.threads t = .run (.access reads writes) k ∧ f ∈ reads ++ writes

def Writes (s : Machine κ τ ι φ) (t : τ) (f : φ) : Prop :=
  ∃ reads writes k, s.threads t = .run (.access reads writes) k ∧ f ∈ writes

/-- One thread is about to write the variable while another one is about to read or write it. -/
def Races (s : Machine κ τ ι φ) (f : φ) : Prop := ∃ t u, t ≠ u ∧ Writes s t f ∧ Touches s u f

theorem Writes.touches {s : Machine κ τ ι φ} {f : φ} (h : Writes s t f) : Touches s t f := by
  obtain ⟨reads, writes, k, hat, hf⟩ := h
  exact ⟨reads, writes, k, hat, List.mem_append_right reads hf⟩

theorem Machine.Orderly.guarded {s : Machine κ τ ι φ} {held : τ → List κ} (h : s.Orderly o held) {f : φ} {m : κ}
    (hguard : o.guard f = some m) (htouches : Touches s t f) : s.owner m = some t := by
  obtain ⟨reads, writes, k, hat, hf⟩ := htouches
  have ht := h.threads t
  rw [hat] at ht
  exact (h.owned t m).mp (ht.1 f hf m hguard)

/-- A variable with a guard has one thread at it at a time. -/
theorem Machine.Orderly.no_race {s : Machine κ τ ι φ} {held : τ → List κ} (h : s.Orderly o held) {f : φ} {m : κ}
    (hguard : o.guard f = some m) : ¬ Races s f := by
  rintro ⟨t, u, hne, hwrites, htouches⟩
  have hone := h.guarded hguard hwrites.touches
  rw [h.guarded hguard htouches] at hone
  exact hne (Option.some.inj hone).symm

end LockOrder

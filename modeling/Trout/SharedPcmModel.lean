import Trout.CInt
import Trout.Runs

/-! The shared PCM of `ext_pcm.c`: the objects that `ext_pcm_open` creates and counts references on, the
global pointer to the current one, and the mixer thread of each. A step is a section under
`ext_pcm_init_lock`, or a part of one where the mixer thread can run in between: it starts while its object
is being initialised and takes `mixer_lock` first. `pcm_open` returns a handle, as the allocations do. -/

namespace Trout.SharedPcm
open CInt

/-- A pointer to an object. Every object has its own, also after it has been freed. -/
abbrev Address := Nat

/-- Before the section under `mixer_lock`, before the read of `run_mixer`, or returned. -/
inductive MixerPc where
  | mixes
  | tests
  | ended
  deriving DecidableEq

variable {κ τ : Type}

/-- `struct ext_pcm` with the state of its mixer thread; of the map the keys are kept. -/
structure ExtPcm (κ : Type) where
  refCount : UInt32
  runMixer : Bool
  mixerPipelineMap : Option (List κ)
  mixerThread : MixerPc
  /-- `pcm_open` has been called and `pcm_close` has not. -/
  opened : Bool
  freed : Bool

/-- The object after `calloc`, `pcm_open` and `pthread_create`. -/
def ExtPcm.create : ExtPcm κ := ⟨0, false, none, .mixes, true, false⟩

/-- Where a thread stands in a call, and the pointers it has obtained and not closed. -/
inductive CallPc where
  | idle
  /-- In `ext_pcm_open` with the lock, before `hashmapCreate`. -/
  | createsMap
  | setsRun
  | counts
  /-- After the release of the lock, before the read of `shared_ext_pcm`; the reference is on this object. -/
  | reads (counted : Address)
  /-- In `ext_pcm_close`, before `pthread_join` returns. -/
  | joins (p : Address)
  | destroys (p : Address)
  deriving DecidableEq

structure Thread where
  pc : CallPc
  held : List Address

structure PcmSystem (κ τ : Type) where
  initLock : Option τ
  sharedExtPcm : Option Address
  object : Address → ExtPcm κ
  /-- The objects so far have the addresses below. -/
  allocated : Address
  threads : τ → Thread

def PcmSystem.init : PcmSystem κ τ := ⟨none, none, fun _ => .create, 0, fun _ => ⟨.idle, []⟩⟩

inductive PcmLabel (κ τ : Type) where
  /-- `ext_pcm_open` up to `pthread_create`, or to the count when there is an object. -/
  | beginOpen (i : τ)
  /-- The next statement of `ext_pcm_open` under the lock. -/
  | proceed (i : τ)
  | endOpen (i : τ)
  /-- `ext_pcm_close` up to its first release of the lock. -/
  | close (i : τ) (p : Address)
  | join (i : τ)
  | destroy (i : τ)
  /-- The lookup of `mixer_pipeline_write`, which adds its key when the map has none that is equal. -/
  | write (i : τ) (p : Address) (key : κ)
  /-- The mixer thread of an object under `mixer_lock`. -/
  | mix (p : Address)
  /-- Its read of `run_mixer`. -/
  | test (p : Address)

inductive PcmEvent (τ : Type) where
  /-- `ext_pcm_open` has counted its reference on one object and returns another pointer. -/
  | returned (i : τ) (counted : Address) (result : Option Address)
  /-- `ext_pcm_close` has given up its reference, and whether it was the last one. -/
  | closed (i : τ) (p : Address) (last : Bool)
  | joined (p : Address)
  /-- `pcm_close` and `free` -/
  | destroyed (p : Address)
  /-- `hashmapForEach` has been called, on a map or on none. -/
  | mixed (p : Address) (created : Bool)
  | tested (p : Address) (running : Bool)
  deriving DecidableEq

section Step
variable [DecidableEq τ]

def PcmSystem.setObject (s : PcmSystem κ τ) (p : Address) (e : ExtPcm κ) : PcmSystem κ τ :=
  { s with object := Function.update s.object p e }

def PcmSystem.setThread (s : PcmSystem κ τ) (i : τ) (t : Thread) : PcmSystem κ τ :=
  { s with threads := Function.update s.threads i t }

def PcmSystem.goto (s : PcmSystem κ τ) (i : τ) (pc : CallPc) : PcmSystem κ τ :=
  s.setThread i { s.threads i with pc := pc }

def beginOpen (s : PcmSystem κ τ) (i : τ) : PcmSystem κ τ :=
  match s.sharedExtPcm with
  | some _ => { s.goto i .counts with initLock := some i }
  | none =>
      { (s.setObject s.allocated .create).goto i .createsMap with
        initLock := some i, sharedExtPcm := some s.allocated, allocated := s.allocated + 1 }

/-- One statement of `ext_pcm_open` on the object that `shared_ext_pcm` points to. -/
def proceed (s : PcmSystem κ τ) (i : τ) (p : Address) : Option (PcmSystem κ τ) :=
  let e := s.object p
  match (s.threads i).pc with
  | .createsMap => some ((s.setObject p { e with mixerPipelineMap := some [] }).goto i .setsRun)
  | .setsRun => some ((s.setObject p { e with runMixer := true }).goto i .counts)
  | .counts =>
      some { (s.setObject p { e with refCount := e.refCount + 1 }).goto i (.reads p) with initLock := none }
  | _ => none

/-- `return shared_ext_pcm;` -/
def endOpen (s : PcmSystem κ τ) (i : τ) : PcmSystem κ τ :=
  s.setThread i ⟨.idle, s.sharedExtPcm.toList ++ (s.threads i).held⟩

/-- The first section of `ext_pcm_close`; the count is an `int`. -/
def close (s : PcmSystem κ τ) (i : τ) (p : Address) : PcmSystem κ τ × Bool :=
  let e := s.object p
  let count := toInt ((e.refCount - 1).toNat : Nat)
  let held := (s.threads i).held.erase p
  if count ≤ 0 then
    ({ (s.setObject p { e with refCount := e.refCount - 1, runMixer := false }).setThread i ⟨.joins p, held⟩ with
        sharedExtPcm := none }, true)
  else
    ((s.setObject p { e with refCount := e.refCount - 1 }).setThread i ⟨.idle, held⟩, false)

/-- `hashmapGet` and `hashmapPut`, which keeps the pointer to the key. -/
def putKey (strEq : κ → κ → Bool) (key : κ) (keys : List κ) : List κ :=
  if keys.any (strEq key) then keys else key :: keys

def pcmStep (strEq : κ → κ → Bool) (s : PcmSystem κ τ) : PcmLabel κ τ → Option (PcmSystem κ τ × List (PcmEvent τ))
  | .beginOpen i => if (s.threads i).pc = .idle ∧ s.initLock = none then some (beginOpen s i, []) else none
  | .proceed i => (s.sharedExtPcm.bind (proceed s i)).map fun t => (t, [])
  | .endOpen i =>
      match (s.threads i).pc with
      | .reads counted => some (endOpen s i, [.returned i counted s.sharedExtPcm])
      | _ => none
  | .close i p =>
      if (s.threads i).pc = .idle ∧ p ∈ (s.threads i).held ∧ s.initLock = none then
        some ((close s i p).1, [.closed i p (close s i p).2])
      else
        none
  | .join i =>
      match (s.threads i).pc with
      | .joins p => if (s.object p).mixerThread = .ended then some (s.goto i (.destroys p), [.joined p]) else none
      | _ => none
  | .destroy i =>
      match (s.threads i).pc with
      | .destroys p =>
          if s.initLock = none then
            some ((s.setObject p { s.object p with opened := false, freed := true }).goto i .idle, [.destroyed p])
          else
            none
      | _ => none
  | .write i p key =>
      if (s.threads i).pc = .idle ∧ p ∈ (s.threads i).held then
        (s.object p).mixerPipelineMap.map fun keys =>
          (s.setObject p { s.object p with mixerPipelineMap := some (putKey strEq key keys) }, [])
      else
        none
  | .mix p =>
      if p < s.allocated ∧ (s.object p).mixerThread = .mixes then
        some (s.setObject p { s.object p with mixerThread := .tests },
          [.mixed p (s.object p).mixerPipelineMap.isSome])
      else
        none
  | .test p =>
      if p < s.allocated ∧ (s.object p).mixerThread = .tests ∧ s.initLock = none then
        let running := (s.object p).runMixer
        some (s.setObject p { s.object p with mixerThread := if running then .mixes else .ended },
          [.tested p running])
      else
        none

/-- The steps, each with its condition and its result. -/
inductive Stepped (strEq : κ → κ → Bool) (s : PcmSystem κ τ) :
    PcmLabel κ τ → PcmSystem κ τ → List (PcmEvent τ) → Prop where
  | shares (i : τ) (p : Address) : (s.threads i).pc = .idle → s.initLock = none → s.sharedExtPcm = some p →
      Stepped strEq s (.beginOpen i) { s.goto i .counts with initLock := some i } []
  | creates (i : τ) : (s.threads i).pc = .idle → s.initLock = none → s.sharedExtPcm = none →
      Stepped strEq s (.beginOpen i) { (s.setObject s.allocated .create).goto i .createsMap with
        initLock := some i, sharedExtPcm := some s.allocated, allocated := s.allocated + 1 } []
  | createsMap (i : τ) (p : Address) : (s.threads i).pc = .createsMap → s.sharedExtPcm = some p →
      Stepped strEq s (.proceed i)
        ((s.setObject p { s.object p with mixerPipelineMap := some [] }).goto i .setsRun) []
  | setsRun (i : τ) (p : Address) : (s.threads i).pc = .setsRun → s.sharedExtPcm = some p →
      Stepped strEq s (.proceed i) ((s.setObject p { s.object p with runMixer := true }).goto i .counts) []
  | counts (i : τ) (p : Address) : (s.threads i).pc = .counts → s.sharedExtPcm = some p →
      Stepped strEq s (.proceed i)
        { (s.setObject p { s.object p with refCount := (s.object p).refCount + 1 }).goto i (.reads p) with
          initLock := none } []
  | returns (i : τ) (counted : Address) : (s.threads i).pc = .reads counted →
      Stepped strEq s (.endOpen i) (endOpen s i) [.returned i counted s.sharedExtPcm]
  | closesLast (i : τ) (p : Address) : (s.threads i).pc = .idle → p ∈ (s.threads i).held → s.initLock = none →
      toInt (((s.object p).refCount - 1).toNat : Nat) ≤ 0 →
      Stepped strEq s (.close i p)
        { (s.setObject p { s.object p with refCount := (s.object p).refCount - 1, runMixer := false }).setThread i
            ⟨.joins p, (s.threads i).held.erase p⟩ with sharedExtPcm := none } [.closed i p true]
  | closesMore (i : τ) (p : Address) : (s.threads i).pc = .idle → p ∈ (s.threads i).held → s.initLock = none →
      ¬ toInt (((s.object p).refCount - 1).toNat : Nat) ≤ 0 →
      Stepped strEq s (.close i p)
        ((s.setObject p { s.object p with refCount := (s.object p).refCount - 1 }).setThread i
          ⟨.idle, (s.threads i).held.erase p⟩) [.closed i p false]
  | joins (i : τ) (p : Address) : (s.threads i).pc = .joins p → (s.object p).mixerThread = .ended →
      Stepped strEq s (.join i) (s.goto i (.destroys p)) [.joined p]
  | destroys (i : τ) (p : Address) : (s.threads i).pc = .destroys p → s.initLock = none →
      Stepped strEq s (.destroy i)
        ((s.setObject p { s.object p with opened := false, freed := true }).goto i .idle) [.destroyed p]
  | writes (i : τ) (p : Address) (key : κ) (keys : List κ) : (s.threads i).pc = .idle → p ∈ (s.threads i).held →
      (s.object p).mixerPipelineMap = some keys →
      Stepped strEq s (.write i p key)
        (s.setObject p { s.object p with mixerPipelineMap := some (putKey strEq key keys) }) []
  | mixes (p : Address) : p < s.allocated → (s.object p).mixerThread = .mixes →
      Stepped strEq s (.mix p) (s.setObject p { s.object p with mixerThread := .tests })
        [.mixed p (s.object p).mixerPipelineMap.isSome]
  | tests (p : Address) : p < s.allocated → (s.object p).mixerThread = .tests → s.initLock = none →
      Stepped strEq s (.test p)
        (s.setObject p { s.object p with mixerThread := if (s.object p).runMixer then .mixes else .ended })
        [.tested p (s.object p).runMixer]

theorem stepped {strEq : κ → κ → Bool} {s s' : PcmSystem κ τ} {l : PcmLabel κ τ} {es : List (PcmEvent τ)}
    (h : pcmStep strEq s l = some (s', es)) : Stepped strEq s l s' es := by
  cases l with
  | beginOpen i =>
      obtain ⟨⟨hidle, hfree⟩, heq⟩ := Option.ite_none_right_eq_some.mp h
      cases heq
      cases hshared : s.sharedExtPcm with
      | some p =>
          rw [beginOpen, hshared]
          exact .shares i p hidle hfree hshared
      | none =>
          rw [beginOpen, hshared]
          exact .creates i hidle hfree hshared
  | proceed i =>
      obtain ⟨t, ht, heq⟩ := Option.map_eq_some_iff.mp h
      obtain ⟨p, hshared, hproceed⟩ := Option.bind_eq_some_iff.mp ht
      cases heq
      dsimp only [proceed] at hproceed
      split at hproceed
      · next hpc =>
          cases hproceed
          exact .createsMap i p hpc hshared
      · next hpc =>
          cases hproceed
          exact .setsRun i p hpc hshared
      · next hpc =>
          cases hproceed
          exact .counts i p hpc hshared
      · cases hproceed
  | endOpen i =>
      rw [pcmStep] at h
      split at h
      · next counted hpc =>
          cases h
          exact .returns i counted hpc
      · cases h
  | close i p =>
      obtain ⟨⟨hidle, hp, hfree⟩, heq⟩ := Option.ite_none_right_eq_some.mp h
      obtain ⟨rfl, rfl⟩ := Prod.mk.inj (Option.some.inj heq)
      dsimp only [close]
      split
      · next hcount => exact .closesLast i p hidle hp hfree hcount
      · next hcount => exact .closesMore i p hidle hp hfree hcount
  | join i =>
      rw [pcmStep] at h
      split at h
      · next p hpc =>
          obtain ⟨hended, heq⟩ := Option.ite_none_right_eq_some.mp h
          cases heq
          exact .joins i p hpc hended
      · cases h
  | destroy i =>
      rw [pcmStep] at h
      split at h
      · next p hpc =>
          obtain ⟨hfree, heq⟩ := Option.ite_none_right_eq_some.mp h
          cases heq
          exact .destroys i p hpc hfree
      · cases h
  | write i p key =>
      obtain ⟨⟨hidle, hp⟩, hmap⟩ := Option.ite_none_right_eq_some.mp h
      obtain ⟨keys, hkeys, heq⟩ := Option.map_eq_some_iff.mp hmap
      cases heq
      exact .writes i p key keys hidle hp hkeys
  | mix p =>
      obtain ⟨⟨hlt, hmixes⟩, heq⟩ := Option.ite_none_right_eq_some.mp h
      cases heq
      exact .mixes p hlt hmixes
  | test p =>
      obtain ⟨⟨hlt, htests, hfree⟩, heq⟩ := Option.ite_none_right_eq_some.mp h
      cases heq
      exact .tests p hlt htests hfree

end Step

/-! ### References -/

/-- The references of a thread on an object: the pointers it holds and the one it is about to return. -/
def Thread.references (t : Thread) (p : Address) : Nat := t.held.count p + if t.pc = .reads p then 1 else 0

/-- The thread tears the object down. -/
def Thread.tearsDown (t : Thread) (p : Address) : Bool := t.pc == .joins p || t.pc == .destroys p

section Count
variable [Fintype τ]

def PcmSystem.references (s : PcmSystem κ τ) (p : Address) : Nat := ∑ i, (s.threads i).references p

/-- The number of threads that tear the object down. -/
def PcmSystem.closers (s : PcmSystem κ τ) (p : Address) : Nat := ∑ i, ((s.threads i).tearsDown p).toNat

end Count

end Trout.SharedPcm

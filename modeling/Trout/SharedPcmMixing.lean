import Trout.SharedPcmCounting

/-! What the mixer thread of a shared PCM finds. `ext_pcm_open` starts it before `mixer_pipeline_map` is created
and `run_mixer` is set. The read of `run_mixer` waits for `ext_pcm_init_lock`; the use of the map does not. -/

namespace Trout.SharedPcm
open Runs

variable {κ τ : Type}

/-- The opener of the object has not created its map yet. -/
def PcmSystem.BeforeMap (s : PcmSystem κ τ) (p : Address) : Prop :=
  ∃ i, (s.threads i).pc = .createsMap ∧ s.sharedExtPcm = some p

/-- The opener of the object has not set `run_mixer` yet. -/
def PcmSystem.BeforeRun (s : PcmSystem κ τ) (p : Address) : Prop :=
  ∃ i, ((s.threads i).pc = .createsMap ∨ (s.threads i).pc = .setsRun) ∧ s.sharedExtPcm = some p

/-- The use of the map and the read of `run_mixer` come after their initialisation; only a last close clears
`run_mixer`. -/
def FullyInitialised (before : List (PcmEvent τ)) : PcmEvent τ → Prop
  | .mixed _ created => created = true
  | .tested p running => running = true ∨ ∃ i, .closed i p true ∈ before
  | _ => True

/-- The mixer thread does not mix while the opener of its object is before `hashmapCreate`. -/
def MapCreated (s : PcmSystem κ τ) : PcmLabel κ τ → Prop
  | .mix p => ¬ s.BeforeMap p
  | _ => True

instance [Fintype τ] (s : PcmSystem κ τ) : (l : PcmLabel κ τ) → Decidable (MapCreated s l)
  | .mix p => inferInstanceAs (Decidable (¬ ∃ i, (s.threads i).pc = .createsMap ∧ s.sharedExtPcm = some p))
  | .beginOpen _ => isTrue trivial
  | .proceed _ => isTrue trivial
  | .endOpen _ => isTrue trivial
  | .close _ _ => isTrue trivial
  | .join _ => isTrue trivial
  | .destroy _ => isTrue trivial
  | .write _ _ _ => isTrue trivial
  | .test _ => isTrue trivial

/-- An object lacks its map or a set `run_mixer` only in the hands of its opener. -/
structure Initialised (h : List (PcmEvent τ)) (s : PcmSystem κ τ) : Prop where
  lock : ∀ i, (s.threads i).pc.locks = true ↔ s.initLock = some i
  map : ∀ p, p < s.allocated → (s.object p).mixerPipelineMap.isSome = true ∨ s.BeforeMap p
  run : ∀ p, p < s.allocated → (s.object p).runMixer = true ∨ (∃ i, .closed i p true ∈ h) ∨ s.BeforeRun p

theorem Initialised.init : Initialised [] (PcmSystem.init : PcmSystem κ τ) :=
  ⟨fun _ => ⟨nofun, nofun⟩, nofun, nofun⟩

section Step
variable {h es : List (PcmEvent τ)} {s s' : PcmSystem κ τ} {i : τ} {p : Address}

/-- Nobody is initialising, as when the lock is free. -/
def PcmSystem.Ready (s : PcmSystem κ τ) : Prop := ∀ i, (s.threads i).pc ≠ .createsMap ∧ (s.threads i).pc ≠ .setsRun

theorem Initialised.ready_of_free (hi : Initialised h s) (hfree : s.initLock = none) : s.Ready := by
  have hnobody (i : τ) : (s.threads i).pc.locks ≠ true := fun hlocks => by
    have := (hi.lock i).mp hlocks
    rw [hfree] at this
    cases this
  exact fun i => ⟨fun hpc => hnobody i (by rw [hpc]; rfl), fun hpc => hnobody i (by rw [hpc]; rfl)⟩

/-- The thread with the lock has initialised its object, if there was something to initialise. -/
theorem Initialised.ready_of_counts (hi : Initialised h s) (hcounts : (s.threads i).pc = .counts) : s.Ready := by
  have hlocks : s.initLock = some i := (hi.lock i).mp (by rw [hcounts]; rfl)
  have hnobody {j : τ} (hj : (s.threads j).pc.locks = true) : (s.threads j).pc = .counts := by
    obtain rfl : i = j := Option.some.inj (hlocks.symm.trans ((hi.lock j).mp hj))
    exact hcounts
  refine fun j => ⟨fun hpc => ?_, fun hpc => ?_⟩
  · exact CallPc.noConfusion (hpc.symm.trans (hnobody (by rw [hpc]; rfl)))
  · exact CallPc.noConfusion (hpc.symm.trans (hnobody (by rw [hpc]; rfl)))

theorem Initialised.ready (hi : Initialised h s) (hready : s.Ready) (hp : p < s.allocated) :
    (s.object p).mixerPipelineMap.isSome = true ∧
      ((s.object p).runMixer = true ∨ ∃ i, .closed i p true ∈ h) := by
  constructor
  · rcases hi.map p hp with hmap | ⟨i, hpc, _⟩
    · exact hmap
    · exact absurd hpc (hready i).1
  · rcases hi.run p hp with hrun | hclosed | ⟨i, hpc | hpc, _⟩
    · exact Or.inl hrun
    · exact Or.inr hclosed
    · exact absurd hpc (hready i).1
    · exact absurd hpc (hready i).2

/-- Only the shared object can be in the hands of an opener. -/
theorem Initialised.other (hi : Initialised h s) (hshared : s.sharedExtPcm = some p) {q : Address} (hq : q < s.allocated)
    (hqp : q ≠ p) : (s.object q).mixerPipelineMap.isSome = true ∧
      ((s.object q).runMixer = true ∨ ∃ i, .closed i q true ∈ h) := by
  have hother (hq : s.sharedExtPcm = some q) : False := hqp (Option.some.inj (hq.symm.trans hshared))
  constructor
  · rcases hi.map q hq with hmap | ⟨_, _, hj⟩
    · exact hmap
    · exact (hother hj).elim
  · rcases hi.run q hq with hrun | hclosed | ⟨_, _, hj⟩
    · exact Or.inl hrun
    · exact Or.inr hclosed
    · exact (hother hj).elim

/-- A last close stays in the history. -/
theorem closed_append {P Q : Prop} (hclosed : P ∨ ∃ i, .closed i p true ∈ h) :
    P ∨ (∃ i, .closed i p true ∈ h ++ es) ∨ Q := by
  rcases hclosed with hp | ⟨i, hi⟩
  · exact Or.inl hp
  · exact Or.inr (Or.inl ⟨i, List.mem_append_left es hi⟩)

/-- Steps that change neither an opener under the lock nor `shared_ext_pcm`. -/
theorem Initialised.keeps (hi : Initialised h s) (hshared : s'.sharedExtPcm = s.sharedExtPcm)
    (hallocated : s'.allocated = s.allocated) (hlock : s'.initLock = s.initLock)
    (hthreads : ∀ j, (s.threads j).pc.locks = true ∨ (s'.threads j).pc.locks = true → (s'.threads j).pc = (s.threads j).pc)
    (hmap : ∀ p, (s'.object p).mixerPipelineMap.isSome = (s.object p).mixerPipelineMap.isSome)
    (hrun : ∀ p, (s'.object p).runMixer = (s.object p).runMixer) : Initialised (h ++ es) s' := by
  refine ⟨fun j => ?_, fun p hp => ?_, fun p hp => ?_⟩
  · rw [hlock, ← hi.lock j]
    exact ⟨fun hj => hthreads j (Or.inr hj) ▸ hj, fun hj => (hthreads j (Or.inl hj)).symm ▸ hj⟩
  · rcases hi.map p (hallocated ▸ hp) with hm | ⟨j, hpc, hj⟩
    · exact Or.inl ((hmap p).trans hm)
    · exact Or.inr ⟨j, (hthreads j (Or.inl (by rw [hpc]; rfl))).trans hpc, hshared.trans hj⟩
  · rcases hi.run p (hallocated ▸ hp) with hr | ⟨j, hj⟩ | ⟨j, hpc, hj⟩
    · exact Or.inl ((hrun p).trans hr)
    · exact Or.inr (Or.inl ⟨j, List.mem_append_left es hj⟩)
    · have hsame : (s'.threads j).pc = (s.threads j).pc :=
        hthreads j (Or.inl (by rcases hpc with hpc | hpc <;> (rw [hpc]; rfl)))
      exact Or.inr (Or.inr ⟨j, hsame ▸ hpc, hshared.trans hj⟩)

variable [DecidableEq τ]

/-- A thread that neither enters nor leaves `ext_pcm_open` under the lock. -/
theorem outside_same {t : Thread} (ht : s'.threads = Function.update s.threads i t) (hbefore : (s.threads i).pc.locks = false)
    (hafter : t.pc.locks = false) (j : τ) (hj : (s.threads j).pc.locks = true ∨ (s'.threads j).pc.locks = true) :
    (s'.threads j).pc = (s.threads j).pc := by
  rw [ht] at hj ⊢
  by_cases hji : j = i
  · rw [hji, Function.update_self, hbefore, hafter] at hj
    exact absurd hj (by decide)
  · rw [Function.update_of_ne hji]

theorem Initialised.creates (hi : Initialised h s) (hfree : s.initLock = none) :
    Initialised (h ++ es) { (s.setObject s.allocated .create).goto i .createsMap with
      initLock := some i, sharedExtPcm := some s.allocated, allocated := s.allocated + 1 } := by
  set u : PcmSystem κ τ := { (s.setObject s.allocated .create).goto i .createsMap with
    initLock := some i, sharedExtPcm := some s.allocated, allocated := s.allocated + 1 } with hu
  have hpc : (u.threads i).pc = .createsMap := congrArg Thread.pc (Function.update_self i _ s.threads)
  have hother {q : Address} (hq : q ≠ s.allocated) : u.object q = s.object q := Function.update_of_ne hq _ _
  have hlt {q : Address} (hq : q < u.allocated) (hne : q ≠ s.allocated) : q < s.allocated :=
    Nat.lt_of_le_of_ne (Nat.lt_succ_iff.mp hq) hne
  refine ⟨lock_update hi.lock rfl ⟨fun _ => rfl, fun _ => rfl⟩ (lock_taken hfree), fun q hq => ?_, fun q hq => ?_⟩
  · by_cases hnew : q = s.allocated
    · exact Or.inr ⟨i, hpc, congrArg some hnew.symm⟩
    · rw [hother hnew]
      exact Or.inl (hi.ready (hi.ready_of_free hfree) (hlt hq hnew)).1
  · by_cases hnew : q = s.allocated
    · exact Or.inr (Or.inr ⟨i, Or.inl hpc, congrArg some hnew.symm⟩)
    · rw [hother hnew]
      exact closed_append (hi.ready (hi.ready_of_free hfree) (hlt hq hnew)).2

/-- A thread that stays in `ext_pcm_open` under the lock. -/
theorem lock_within {pc : CallPc} {e : ExtPcm κ} (hi : Initialised h s) (hbefore : (s.threads i).pc.locks = true)
    (hpc : pc.locks = true) (j : τ) : (((s.setObject p e).goto i pc).threads j).pc.locks = true ↔ s.initLock = some j :=
  lock_update hi.lock (rfl : ((s.setObject p e).goto i pc).threads = _)
    ⟨fun _ => (hi.lock i).mp hbefore, fun _ => hpc⟩ (fun _ _ => Iff.rfl) j

theorem Initialised.createsMap (hi : Initialised h s) (hpc : (s.threads i).pc = .createsMap)
    (hshared : s.sharedExtPcm = some p) :
    Initialised (h ++ es) ((s.setObject p { s.object p with mixerPipelineMap := some [] }).goto i .setsRun) := by
  set e : ExtPcm κ := { s.object p with mixerPipelineMap := some [] } with he
  set u := (s.setObject p e).goto i .setsRun with hu
  have hself : u.object p = e := Function.update_self _ _ _
  have hother {q : Address} (hq : q ≠ p) : u.object q = s.object q := Function.update_of_ne hq _ _
  have hthread : (u.threads i).pc = .setsRun := congrArg Thread.pc (Function.update_self i _ s.threads)
  refine ⟨lock_within hi (by rw [hpc]; rfl) rfl, fun q hq => Or.inl ?_, fun q hq => ?_⟩
  · by_cases hqp : q = p
    · rw [hqp, hself]
      rfl
    · rw [hother hqp]
      exact (hi.other hshared hq hqp).1
  · by_cases hqp : q = p
    · exact Or.inr (Or.inr ⟨i, Or.inr hthread, hqp ▸ hshared⟩)
    · rw [hother hqp]
      exact closed_append (hi.other hshared hq hqp).2

theorem Initialised.setsRun (hi : Initialised h s) (hpc : (s.threads i).pc = .setsRun)
    (hshared : s.sharedExtPcm = some p) :
    Initialised (h ++ es) ((s.setObject p { s.object p with runMixer := true }).goto i .counts) := by
  set e : ExtPcm κ := { s.object p with runMixer := true } with he
  set u := (s.setObject p e).goto i .counts with hu
  have hself : u.object p = e := Function.update_self _ _ _
  have hother {q : Address} (hq : q ≠ p) : u.object q = s.object q := Function.update_of_ne hq _ _
  have hlocks : s.initLock = some i := (hi.lock i).mp (by rw [hpc]; rfl)
  have hkeeps : ∀ q, (u.object q).mixerPipelineMap.isSome = (s.object q).mixerPipelineMap.isSome :=
    field_same (fun e => e.mixerPipelineMap.isSome) rfl rfl
  refine ⟨lock_within hi (by rw [hpc]; rfl) rfl, fun q hq => Or.inl ?_, fun q hq => ?_⟩
  · rw [hkeeps]
    rcases hi.map q hq with hmap | ⟨j, hcreates, _⟩
    · exact hmap
    · have hj := (hi.lock j).mp (by rw [hcreates]; rfl)
      obtain rfl : i = j := Option.some.inj (hlocks.symm.trans hj)
      exact CallPc.noConfusion (hpc.symm.trans hcreates)
  · by_cases hqp : q = p
    · rw [hqp, hself]
      exact Or.inl rfl
    · rw [hother hqp]
      exact closed_append (hi.other hshared hq hqp).2

omit [DecidableEq τ] in
/-- Steps that begin and end with nobody initialising. -/
theorem Initialised.of_ready (hi : Initialised h s) (hready : s.Ready) (hallocated : s'.allocated = s.allocated)
    (hlock : ∀ j, (s'.threads j).pc.locks = true ↔ s'.initLock = some j)
    (hmap : ∀ p, (s'.object p).mixerPipelineMap.isSome = (s.object p).mixerPipelineMap.isSome)
    (hrun : ∀ p, (s'.object p).runMixer = (s.object p).runMixer ∨ ∃ i, .closed i p true ∈ es) :
    Initialised (h ++ es) s' := by
  refine ⟨hlock, fun p hp => Or.inl ((hmap p).trans (hi.ready hready (hallocated ▸ hp)).1), fun p hp => ?_⟩
  rcases hrun p with hsame | ⟨i, hnew⟩
  · rw [hsame]
    exact closed_append (hi.ready hready (hallocated ▸ hp)).2
  · exact Or.inr (Or.inl ⟨i, List.mem_append_right h hnew⟩)

theorem Initialised.step {strEq : κ → κ → Bool} {l : PcmLabel κ τ} (hi : Initialised h s)
    (hstep : Stepped strEq s l s' es) : Initialised (h ++ es) s' := by
  cases hstep with
  | shares i p _ hfree _ =>
      exact hi.of_ready (hi.ready_of_free hfree) rfl
        (lock_update hi.lock rfl ⟨fun _ => rfl, fun _ => rfl⟩ (lock_taken hfree)) (fun _ => rfl) fun _ => Or.inl rfl
  | creates i _ hfree _ => exact hi.creates hfree
  | createsMap i p hpc hshared => exact hi.createsMap hpc hshared
  | setsRun i p hpc hshared => exact hi.setsRun hpc hshared
  | counts i p hpc _ =>
      have hrun : ∀ q, ((s.setObject p { s.object p with refCount := (s.object p).refCount + 1 }).object q).runMixer
          = (s.object q).runMixer := field_same ExtPcm.runMixer rfl rfl
      refine hi.of_ready (hi.ready_of_counts hpc) rfl (lock_update hi.lock rfl ⟨nofun, nofun⟩ fun j hj => ?_)
        (field_same (fun e => e.mixerPipelineMap.isSome) rfl rfl) fun q => Or.inl (hrun q)
      rw [(hi.lock i).mp (by rw [hpc]; rfl)]
      exact ⟨fun hij => absurd (Option.some.inj hij).symm hj, nofun⟩
  | returns i counted hpc =>
      exact hi.keeps rfl rfl rfl (outside_same rfl (by rw [hpc]; rfl) rfl) (fun _ => rfl) fun _ => rfl
  | closesLast i p hidle _ hfree _ =>
      refine hi.of_ready (hi.ready_of_free hfree) rfl
        (lock_update hi.lock rfl ⟨nofun, fun hlock => nomatch hfree.symm.trans hlock⟩ fun _ _ => Iff.rfl)
        (field_same (fun e => e.mixerPipelineMap.isSome) rfl rfl) fun q => ?_
      by_cases hqp : q = p
      · exact Or.inr ⟨i, hqp ▸ List.mem_singleton_self _⟩
      · exact Or.inl (congrArg ExtPcm.runMixer (Function.update_of_ne hqp _ _))
  | closesMore i p hidle _ _ _ =>
      exact hi.keeps rfl rfl rfl (outside_same rfl (by rw [hidle]; rfl) rfl)
        (field_same (fun e => e.mixerPipelineMap.isSome) rfl rfl) (field_same ExtPcm.runMixer rfl rfl)
  | joins i p hpc _ =>
      exact hi.keeps rfl rfl rfl (outside_same rfl (by rw [hpc]; rfl) rfl) (fun _ => rfl) fun _ => rfl
  | destroys i p hpc _ =>
      exact hi.keeps rfl rfl rfl (outside_same rfl (by rw [hpc]; rfl) rfl)
        (field_same (fun e => e.mixerPipelineMap.isSome) rfl rfl) (field_same ExtPcm.runMixer rfl rfl)
  | writes i p key keys _ _ hkeys =>
      exact hi.keeps rfl rfl rfl (fun _ _ => rfl)
        (field_same (fun e => e.mixerPipelineMap.isSome) rfl (by rw [hkeys]; rfl)) (field_same ExtPcm.runMixer rfl rfl)
  | mixes p _ _ =>
      exact hi.keeps rfl rfl rfl (fun _ _ => rfl)
        (field_same (fun e => e.mixerPipelineMap.isSome) rfl rfl) (field_same ExtPcm.runMixer rfl rfl)
  | tests p _ _ _ =>
      exact hi.keeps rfl rfl rfl (fun _ _ => rfl)
        (field_same (fun e => e.mixerPipelineMap.isSome) rfl rfl) (field_same ExtPcm.runMixer rfl rfl)

omit [DecidableEq τ] in
theorem fullyInitialised_of_closing {e : PcmEvent τ} (hmixed : ∀ p created, e ≠ .mixed p created)
    (htested : ∀ p running, e ≠ .tested p running) : Throughout (fun before => FullyInitialised (h ++ before)) [e] := by
  apply throughout_singleton
  cases e with
  | mixed p created => exact absurd rfl (hmixed p created)
  | tested p running => exact absurd rfl (htested p running)
  | returned _ _ _ => trivial
  | closed _ _ _ => trivial
  | joined _ => trivial
  | destroyed _ => trivial

/-- What the mixer thread finds in one step. -/
theorem Initialised.allows {strEq : κ → κ → Bool} {l : PcmLabel κ τ} (hi : Initialised h s) (hcreated : MapCreated s l)
    (hstep : Stepped strEq s l s' es) : Throughout (fun before => FullyInitialised (h ++ before)) es := by
  cases hstep with
  | shares i p _ _ _ => exact throughout_nil _
  | creates i _ _ _ => exact throughout_nil _
  | createsMap i p _ _ => exact throughout_nil _
  | setsRun i p _ _ => exact throughout_nil _
  | counts i p _ _ => exact throughout_nil _
  | returns i counted _ => exact fullyInitialised_of_closing nofun nofun
  | closesLast i p _ _ _ _ => exact fullyInitialised_of_closing nofun nofun
  | closesMore i p _ _ _ _ => exact fullyInitialised_of_closing nofun nofun
  | joins i p _ _ => exact fullyInitialised_of_closing nofun nofun
  | destroys i p _ _ => exact fullyInitialised_of_closing nofun nofun
  | writes i p key keys _ _ _ => exact throughout_nil _
  | mixes p hp _ =>
      apply throughout_singleton
      exact (hi.map p hp).resolve_right hcreated
  | tests p hp _ hfree =>
      -- the lock is free, so that no opener is before `run_mixer = true`
      apply throughout_singleton
      rw [FullyInitialised, List.append_nil]
      exact (hi.ready (hi.ready_of_free hfree) hp).2

end Step

/-- When no mixer thread mixes before the opener has created its map, every use of a map is of one that has been
created, and `run_mixer` reads true until a last close clears it. -/
theorem mixes_initialised [DecidableEq τ] {strEq : κ → κ → Bool} {ls : List (PcmLabel κ τ)} {s : PcmSystem κ τ}
    {es : List (PcmEvent τ)} (hrun : exec (pcmStep strEq) PcmSystem.init ls = some (s, es))
    (hcreated : Guarded (pcmStep strEq) MapCreated PcmSystem.init ls) : Throughout FullyInitialised es := by
  refine (exec_throughout Initialised FullyInitialised ?_ Initialised.init hcreated hrun).2
  intro h s l t es hi hguard hstep
  exact ⟨hi.step (stepped hstep), hi.allows hguard (stepped hstep)⟩

theorem mixes_initialised_once :
    ∃ s es, exec (pcmStep fun _ _ => true) (PcmSystem.init : PcmSystem Unit Unit)
      [.beginOpen (), .proceed (), .mix 0, .proceed (), .proceed (), .test 0, .endOpen (), .close () 0, .mix 0, .test 0]
        = some (s, es) ∧ Throughout FullyInitialised es := by
  obtain ⟨⟨s, es⟩, hrun⟩ : ∃ result, exec (pcmStep fun _ _ => true) (PcmSystem.init : PcmSystem Unit Unit)
      [.beginOpen (), .proceed (), .mix 0, .proceed (), .proceed (), .test 0, .endOpen (), .close () 0, .mix 0, .test 0]
        = some result := Option.isSome_iff_exists.mp (by decide +kernel)
  exact ⟨s, es, hrun, mixes_initialised hrun (by decide +kernel)⟩

/-- The mixer thread runs between `pthread_create` and `hashmapCreate`. -/
theorem mixes_uninitialised :
    ¬ ∀ (ls : List (PcmLabel Unit Unit)) (s : PcmSystem Unit Unit) (es : List (PcmEvent Unit)),
      exec (pcmStep fun _ _ => true) PcmSystem.init ls = some (s, es) → Throughout FullyInitialised es := by
  intro h
  have hall := h [.beginOpen (), .mix 0] _ [.mixed 0 false] rfl
  exact Bool.false_ne_true (hall [] (.mixed 0 false) [] rfl)

end Trout.SharedPcm

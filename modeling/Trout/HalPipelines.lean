import Trout.HalReferences

/-! The keys of the live mixer. `hashmapPut` keeps the pointer to the bus address of the stream that writes first
under that address; a close frees the stream and takes it out of `out_bus_stream_map` only. -/

namespace Trout.Hal
open CInt Runs Audio SharedPcm

section Keys
variable {ι : Type} [DecidableEq ι] {n : Nat}

/-- The keys in the map of the object that `shared_ext_pcm` points to. -/
def liveKeys (s : PcmSystem (PipelineKey ι) ι) : List (PipelineKey ι) :=
  (s.sharedExtPcm.bind fun p => (s.object p).mixerPipelineMap).getD []

/-- The key is the bus address of a stream that has not been closed. -/
def HalSystem.RefersToOpen (s : HalSystem ι n) (key : PipelineKey ι) : Prop :=
  ∃ st, s.streams key.1 = some st ∧ st.output.freed = false ∧ key.2 = st.busAddress

/-- A stream is freed when no key of the live mixer is its own. -/
def KeysReleased (s : HalSystem ι n) : HalLabel ι n → Prop
  | .output i (.join _) => ∀ key ∈ liveKeys s.pcm, key.1 ≠ i
  | _ => True

instance (s : HalSystem ι n) : (l : HalLabel ι n) → Decidable (KeysReleased s l)
  | .openOutputStream .. => isTrue trivial
  | .output _ (.client _ _) => isTrue trivial
  | .output _ (.join _) => inferInstanceAs (Decidable (∀ key ∈ liveKeys s.pcm, _))
  | .output _ (.worker _ _) => isTrue trivial
  | .output _ .workerSpurious => isTrue trivial
  | .pcm _ => isTrue trivial

section Step
variable {s s' : PcmSystem (PipelineKey ι) ι} {l : PcmLabel (PipelineKey ι) ι} {es : List (PcmEvent ι)}

omit [DecidableEq ι] in
/-- A change of an object that keeps its map. -/
theorem mem_liveKeys_before {key : PipelineKey ι} {p : Address} {e : ExtPcm (PipelineKey ι)} (hkey : key ∈ liveKeys s')
    (hshared : s'.sharedExtPcm = s.sharedExtPcm) (ho : s'.object = Function.update s.object p e)
    (he : e.mixerPipelineMap = (s.object p).mixerPipelineMap) : key ∈ liveKeys s := by
  have hmap : (fun q => (s'.object q).mixerPipelineMap) = fun q => (s.object q).mixerPipelineMap := by
    funext q
    exact field_same ExtPcm.mixerPipelineMap ho he q
  rwa [liveKeys, hshared, hmap] at hkey

omit [DecidableEq ι] in
/-- The keys of the shared object when that one has changed. -/
theorem mem_liveKeys_changed {key : PipelineKey ι} {p : Address} {e : ExtPcm (PipelineKey ι)} (hkey : key ∈ liveKeys s')
    (hshared : s'.sharedExtPcm = some p) (ho : s'.object = Function.update s.object p e) :
    key ∈ e.mixerPipelineMap.getD [] := by
  rwa [liveKeys, hshared, Option.bind_some, ho, Function.update_self] at hkey

omit [DecidableEq ι] in
/-- The keys of the shared object when another one has changed. -/
theorem mem_liveKeys_unchanged {key : PipelineKey ι} {p : Address} {e : ExtPcm (PipelineKey ι)} (hkey : key ∈ liveKeys s')
    (hshared : s'.sharedExtPcm = s.sharedExtPcm) (hother : s.sharedExtPcm ≠ some p)
    (ho : s'.object = Function.update s.object p e) : key ∈ liveKeys s := by
  rw [liveKeys, hshared] at hkey
  rw [liveKeys]
  cases hq : s.sharedExtPcm with
  | none =>
      rw [hq] at hkey
      exact hkey
  | some q =>
      have hne : q ≠ p := fun hqp => hother (hqp ▸ hq)
      rw [hq, Option.bind_some, ho, Function.update_of_ne hne] at hkey
      exact hkey

omit [DecidableEq ι] in
theorem mem_putKey {key new : PipelineKey ι} {keys : List (PipelineKey ι)} (h : key ∈ putKey strEq new keys) :
    key = new ∨ key ∈ keys := by
  rw [putKey] at h
  split at h
  · exact Or.inr h
  · exact List.mem_cons.mp h

/-- Only a write adds a key, the one it is given. -/
theorem stepped_liveKeys (hstep : Stepped strEq s l s' es) {key : PipelineKey ι} (hkey : key ∈ liveKeys s') :
    key ∈ liveKeys s ∨ ∃ i p, l = .write i p key := by
  cases hstep with
  | shares i p _ _ _ => exact Or.inl hkey
  | creates i _ _ _ => exact absurd (mem_liveKeys_changed hkey rfl rfl) List.not_mem_nil
  | createsMap i p _ hshared => exact absurd (mem_liveKeys_changed hkey hshared rfl) List.not_mem_nil
  | setsRun i p _ _ => exact Or.inl (mem_liveKeys_before hkey rfl rfl rfl)
  | counts i p _ _ => exact Or.inl (mem_liveKeys_before hkey rfl rfl rfl)
  | returns i counted _ => exact Or.inl hkey
  | closesLast i p _ _ _ _ => exact absurd hkey List.not_mem_nil
  | closesMore i p _ _ _ _ => exact Or.inl (mem_liveKeys_before hkey rfl rfl rfl)
  | joins i p _ _ => exact Or.inl hkey
  | destroys i p _ _ => exact Or.inl (mem_liveKeys_before hkey rfl rfl rfl)
  | writes i p new keys _ _ hkeys =>
      by_cases hshared : s.sharedExtPcm = some p
      · rcases mem_putKey (mem_liveKeys_changed hkey hshared rfl) with heq | hmem
        · exact Or.inr ⟨i, p, by rw [heq]⟩
        · rw [liveKeys, hshared, Option.bind_some, hkeys]
          exact Or.inl hmem
      · exact Or.inl (mem_liveKeys_unchanged hkey rfl hshared rfl)
  | mixes p _ _ => exact Or.inl (mem_liveKeys_before hkey rfl rfl rfl)
  | tests p _ _ _ => exact Or.inl (mem_liveKeys_before hkey rfl rfl rfl)

end Step

/-! ### Streams -/

omit [DecidableEq ι] in
/-- A stream is freed by the join of its worker. -/
theorem outputStep_freed {s s' : OutputSystem n} {l : OutputLabel n} {es : List OutputEvent}
    (hstep : outputStep s l = some (s', es)) (hl : ∀ j, l ≠ .join j) : s'.freed = false := by
  obtain ⟨hfreed, h⟩ := Option.ite_none_left_eq_some.mp hstep
  rw [Bool.not_eq_true] at hfreed
  cases l with
  | client i l =>
      obtain ⟨r, _, heq⟩ := Option.map_eq_some_iff.mp h
      cases heq
      exact hfreed
  | join i => exact absurd rfl (hl i)
  | worker env wake =>
      obtain ⟨r, _, _, hsame⟩ := outputStep_section hstep
      exact hsame.trans hfreed
  | workerSpurious =>
      dsimp only at h
      split at h
      · cases h
        exact hfreed
      · cases h
        exact hfreed
      · cases h

theorem serves_same {st st' : HalStream n} {l : PcmLabel (PipelineKey ι) ι} (h : st.serves l = some st') :
    st'.output = st.output ∧ st'.busAddress = st.busAddress := by
  unfold HalStream.serves at h
  split at h
  · obtain ⟨_, heq⟩ := Option.ite_none_right_eq_some.mp h
    cases heq
    exact ⟨rfl, rfl⟩
  · obtain ⟨_, heq⟩ := Option.ite_none_right_eq_some.mp h
    cases heq
    exact ⟨rfl, rfl⟩
  · obtain ⟨_, heq⟩ := Option.ite_none_right_eq_some.mp h
    cases heq
    exact ⟨rfl, rfl⟩
  · cases h
    exact ⟨rfl, rfl⟩

theorem serves_write {st st' : HalStream n} {i : ι} {p : Address} {key : PipelineKey ι}
    (h : st.serves (.write i p key) = some st') : key = (i, st.busAddress) := by
  obtain ⟨⟨_, _, hkey⟩, _⟩ := Option.ite_none_right_eq_some.mp h
  exact hkey

/-- The keys of the live mixer refer to open streams. -/
def KeysOpen (s : HalSystem ι n) : Prop := ∀ key ∈ liveKeys s.pcm, s.RefersToOpen key

/-- A stream that is neither opened nor freed keeps its address. -/
theorem HalSystem.RefersToOpen.update {s : HalSystem ι n} {key : PipelineKey ι} {i : ι} {st' : HalStream n}
    (h : s.RefersToOpen key) (hstream : ∀ st, s.streams i = some st → key.1 = i →
      st'.busAddress = st.busAddress ∧ st'.output.freed = false) :
    (s.setStream i st').RefersToOpen key := by
  obtain ⟨st, hst, hfreed, hkey⟩ := h
  by_cases howner : key.1 = i
  · obtain ⟨haddress, hkept⟩ := hstream st (howner ▸ hst) howner
    refine ⟨st', ?_, hkept, hkey.trans haddress.symm⟩
    show Function.update s.streams i (some st') key.1 = some st'
    rw [howner, Function.update_self]
  · refine ⟨st, ?_, hfreed, hkey⟩
    show Function.update s.streams i (some st') key.1 = some st
    rw [Function.update_of_ne howner, hst]

theorem KeysOpen.step {s s' : HalSystem ι n} {l : HalLabel ι n} {es : List (PcmEvent ι)} (h : KeysOpen s)
    (hreleased : KeysReleased s l) (hstep : HalStepped s l s' es) : KeysOpen s' := by
  intro key hkey
  cases hstep with
  | opened i allocated calloc p config address out hnone _ =>
      refine (h key hkey).update fun st hst _ => ?_
      rw [hnone] at hst
      cases hst
  | refused i allocated calloc p config address => exact h key hkey
  | output i l st output events hstream _ hout =>
      refine (h key hkey).update fun st₀ hst₀ howner => ?_
      cases hstream.symm.trans hst₀
      cases l with
      | client j l => exact ⟨rfl, outputStep_freed hout nofun⟩
      | join j => exact absurd howner (hreleased key hkey)
      | worker env wake => exact ⟨rfl, outputStep_freed hout nofun⟩
      | workerSpurious => exact ⟨rfl, outputStep_freed hout nofun⟩
  | mixer l pcm es hworker hpcm =>
      rcases stepped_liveKeys hpcm hkey with hbefore | ⟨i, p, rfl⟩
      · exact h key hbefore
      · cases hworker
  | worker i l st st' pcm es hworker hstream hfreed hserves hpcm =>
      obtain ⟨houtput, haddress⟩ := serves_same hserves
      have hkept : st'.output.freed = false := houtput ▸ hfreed
      rcases stepped_liveKeys hpcm hkey with hbefore | ⟨j, p, rfl⟩
      · refine (h key hbefore).update fun st₀ hst₀ _ => ?_
        cases hstream.symm.trans hst₀
        exact ⟨haddress, hkept⟩
      · cases hworker
        rw [serves_write hserves]
        refine ⟨st', ?_, hkept, haddress.symm⟩
        show Function.update s.streams i (some st') i = some st'
        rw [Function.update_self]

/-- When every stream is freed without a key in the live mixer, the keys there refer to open streams. -/
theorem keys_refer_to_open {ls : List (HalLabel ι n)} {s : HalSystem ι n} {es : List (PcmEvent ι)}
    (hrun : exec halStep HalSystem.init ls = some (s, es)) (hreleased : Guarded halStep KeysReleased HalSystem.init ls) :
    ∀ key ∈ liveKeys s.pcm, s.RefersToOpen key := by
  refine exec_invariant KeysOpen ?_ (nofun : KeysOpen (HalSystem.init : HalSystem ι n)) hreleased hrun
  intro s l t es h hguard hstep
  exact h.step hguard (halStepped hstep)

end Keys

/-- After one stream has been closed with the mixer, another one plays. -/
def playedAfterClose : List (HalLabel Bool 1) :=
  playedAndClosed ++ untilOpened true "bus1" ++ [.output true workerTurn, .pcm (.write true 1 (true, "bus1"))]

theorem keys_refer_to_open_playedAfterClose :
    ∃ s es, exec halStep HalSystem.init playedAfterClose = some (s, es) ∧ liveKeys s.pcm = [(true, "bus1")] ∧
      ∀ key ∈ liveKeys s.pcm, s.RefersToOpen key := by
  obtain ⟨⟨s, es⟩, hrun, hkeys⟩ := Option.map_eq_some_iff.mp
    (by decide +kernel : (exec halStep HalSystem.init playedAfterClose).map (fun r => liveKeys r.1.pcm) = some [(true, "bus1")])
  exact ⟨s, es, hrun, hkeys, keys_refer_to_open hrun (by decide +kernel)⟩

/-- Two streams play, and the first is closed while the second keeps the shared PCM. -/
def closedWhilePlaying : List (HalLabel Bool 1) :=
  untilOpened false "bus0" ++
    [.output false workerTurn, .pcm (.write false 0 (false, "bus0")), .output false workerTurn,
      .openOutputStream true true (fun _ => true) ⟨1, 1⟩ ⟨8000, audioFormatPcm16Bit, 3⟩ "bus1",
      .output true workerTurn, .output true writeOneFrame, .pcm (.beginOpen true), .pcm (.proceed true),
      .pcm (.endOpen true), .output true workerTurn,
      .output false (.client (Fin.last 0) (.standby true 1000000000)), .pcm (.close false 0), .output false workerTurn,
      .output false (.join (Fin.last 0))]

theorem key_refers_to_closed :
    ¬ ∀ (ls : List (HalLabel Bool 1)) (s : HalSystem Bool 1) (es : List (PcmEvent Bool)),
      exec halStep HalSystem.init ls = some (s, es) → ∀ key ∈ liveKeys s.pcm, s.RefersToOpen key := by
  intro hall
  obtain ⟨s, es, st, hrun, hkeys, hstream, hfreed⟩ : ∃ s es st,
      exec halStep HalSystem.init closedWhilePlaying = some (s, es) ∧ liveKeys s.pcm = [(false, "bus0")] ∧
        s.streams false = some st ∧ st.output.freed = true :=
    ⟨_, _, _, rfl, rfl, rfl, rfl⟩
  obtain ⟨st', hst', hopen, _⟩ := hall closedWhilePlaying s es hrun (false, "bus0") (hkeys ▸ List.mem_singleton_self _)
  cases hstream.symm.trans hst'
  exact Bool.false_ne_true (hopen.symm.trans hfreed)

end Trout.Hal

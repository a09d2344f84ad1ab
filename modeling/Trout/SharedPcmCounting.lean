import Trout.SharedPcmModel

/-! Reference counting of the shared PCM. All references are on the object that `shared_ext_pcm` points to,
and its count is their number; an object that the pointer has left is torn down by one thread, or has been. -/

namespace Trout.SharedPcm
open CInt Runs

variable {κ τ : Type} [Fintype τ] [DecidableEq τ]

/-- What a change of one thread does to the references and the closers of an object. -/
theorem counts_update {s s' : PcmSystem κ τ} {i : τ} {t : Thread} (h : s'.threads = Function.update s.threads i t)
    (p : Address) :
    s'.references p + (s.threads i).references p = s.references p + t.references p ∧
      s'.closers p + ((s.threads i).tearsDown p).toNat = s.closers p + (t.tearsDown p).toNat := by
  rw [PcmSystem.references, PcmSystem.closers, h]
  exact ⟨sum_update (fun t => t.references p) s.threads i t, sum_update (fun t => (t.tearsDown p).toNat) s.threads i t⟩

omit [DecidableEq τ] in
theorem references_le (s : PcmSystem κ τ) (i : τ) (p : Address) : (s.threads i).references p ≤ s.references p :=
  Finset.single_le_sum (f := fun j => (s.threads j).references p) (fun _ _ => Nat.zero_le _) (Finset.mem_univ i)

omit [DecidableEq τ] in
theorem closers_le (s : PcmSystem κ τ) (i : τ) (p : Address) : ((s.threads i).tearsDown p).toNat ≤ s.closers p :=
  Finset.single_le_sum (f := fun j => ((s.threads j).tearsDown p).toNat) (fun _ _ => Nat.zero_le _) (Finset.mem_univ i)

/-! ### The invariant -/

/-- The thread is in `ext_pcm_open` with the lock. -/
def CallPc.locks : CallPc → Bool
  | .createsMap => true
  | .setsRun => true
  | .counts => true
  | _ => false

/-- Neither about to return from `ext_pcm_open` nor tearing down. -/
def CallPc.plain : CallPc → Bool
  | .reads _ => false
  | .joins _ => false
  | .destroys _ => false
  | _ => true

theorem Thread.counts_plain {t : Thread} (h : t.pc.plain = true) (p : Address) :
    t.references p = t.held.count p ∧ t.tearsDown p = false := by
  obtain ⟨pc, held⟩ := t
  cases pc with
  | reads _ => cases h
  | joins _ => cases h
  | destroys _ => cases h
  | idle => exact ⟨rfl, rfl⟩
  | createsMap => exact ⟨rfl, rfl⟩
  | setsRun => exact ⟨rfl, rfl⟩
  | counts => exact ⟨rfl, rfl⟩

theorem Thread.references_reads {t : Thread} {q : Address} (h : t.pc = .reads q) (p : Address) :
    t.references p = t.held.count p + if p = q then 1 else 0 := by
  rw [references, h]
  by_cases hp : p = q
  · rw [if_pos (by rw [hp]), if_pos hp]
  · rw [if_neg fun hr => hp (CallPc.reads.inj hr).symm, if_neg hp]

theorem Thread.tearsDown_of {t : Thread} {q : Address} (h : t.pc = .joins q ∨ t.pc = .destroys q) (p : Address) :
    t.tearsDown p = decide (p = q) := by
  rw [tearsDown, Bool.eq_iff_iff, Bool.or_eq_true, beq_iff_eq, beq_iff_eq, decide_eq_true_eq]
  rcases h with h | h
  · rw [h, CallPc.joins.injEq, eq_comm]
    exact or_iff_left nofun
  · rw [h, CallPc.destroys.injEq, @eq_comm _ q p]
    exact or_iff_right nofun

structure Counted (s : PcmSystem κ τ) : Prop where
  fresh : ∀ p, s.sharedExtPcm = some p → p < s.allocated
  lock : ∀ i, (s.threads i).pc.locks = true ↔ s.initLock = some i
  count : ∀ p, s.sharedExtPcm = some p → (s.object p).refCount.toNat = s.references p
  few : ∀ p, s.references p ≤ 2 ^ 31
  stray : ∀ p, s.sharedExtPcm ≠ some p → s.references p = 0
  positive : s.initLock = none → ∀ p, s.sharedExtPcm = some p → 0 < s.references p
  current : ∀ p, s.sharedExtPcm = some p ∨ s.allocated ≤ p → s.closers p = 0 ∧ (s.object p).freed = false
  retired : ∀ p, p < s.allocated → s.sharedExtPcm ≠ some p → s.closers p + (s.object p).freed.toNat = 1

/-- A reference is counted only while there are fewer than `2 ^ 31`. -/
def FewReferences (s : PcmSystem κ τ) : PcmLabel κ τ → Prop
  | .proceed i => (s.threads i).pc = .counts → ∀ p, s.sharedExtPcm = some p → s.references p < 2 ^ 31
  | _ => True

instance (s : PcmSystem κ τ) : (l : PcmLabel κ τ) → Decidable (FewReferences s l)
  | .proceed i =>
      match hshared : s.sharedExtPcm with
      | none => isTrue fun _ _ hp => nomatch hshared.symm.trans hp
      | some p => decidable_of_iff ((s.threads i).pc = .counts → s.references p < 2 ^ 31)
          ⟨fun h hpc _ hq => Option.some.inj (hshared.symm.trans hq) ▸ h hpc, fun h hpc => h hpc p hshared⟩
  | .beginOpen _ => isTrue trivial
  | .endOpen _ => isTrue trivial
  | .close _ _ => isTrue trivial
  | .join _ => isTrue trivial
  | .destroy _ => isTrue trivial
  | .write _ _ _ => isTrue trivial
  | .mix _ => isTrue trivial
  | .test _ => isTrue trivial

omit [DecidableEq τ] in
theorem Counted.init : Counted (PcmSystem.init : PcmSystem κ τ) := by
  have hnone : ∀ p, (PcmSystem.init : PcmSystem κ τ).references p = 0 := fun p => Finset.sum_eq_zero fun _ _ => rfl
  have hclosers : ∀ p, (PcmSystem.init : PcmSystem κ τ).closers p = 0 := fun p => Finset.sum_eq_zero fun _ _ => rfl
  exact ⟨nofun, fun i => ⟨nofun, nofun⟩, nofun, fun p => by rw [hnone p]; omega, fun p _ => hnone p, nofun,
    fun p _ => ⟨hclosers p, rfl⟩, nofun⟩

section Steps
variable {s s' : PcmSystem κ τ} {i : τ} {t : Thread}

omit [DecidableEq τ] in
/-- A thread with a reference has it on the shared object. -/
theorem Counted.shared_of_reference (h : Counted s) {p : Address} (hp : 0 < (s.threads i).references p) :
    s.sharedExtPcm = some p := by
  by_contra hne
  have := references_le s i p
  have := h.stray p hne
  omega

omit [Fintype τ] in
/-- One thread takes the lock, releases it, or neither. -/
theorem lock_update (h : ∀ j, (s.threads j).pc.locks = true ↔ s.initLock = some j)
    (ht : s'.threads = Function.update s.threads i t) (hself : t.pc.locks = true ↔ s'.initLock = some i)
    (hothers : ∀ j, j ≠ i → (s.initLock = some j ↔ s'.initLock = some j)) :
    ∀ j, (s'.threads j).pc.locks = true ↔ s'.initLock = some j := by
  intro j
  rw [ht]
  by_cases hj : j = i
  · rw [hj, Function.update_self]
    exact hself
  · rw [Function.update_of_ne hj, h j]
    exact hothers j hj

omit [Fintype τ] [DecidableEq τ] in
theorem lock_taken (hfree : s.initLock = none) (j : τ) (hj : j ≠ i) : s.initLock = some j ↔ some i = some j := by
  rw [hfree]
  exact ⟨nofun, fun hij => absurd (Option.some.inj hij).symm hj⟩

/-- The lock stays with its owner when the changed thread is outside the critical section before and after. -/
theorem Counted.lock_outside (h : Counted s) (ht : s'.threads = Function.update s.threads i t)
    (hlock : s'.initLock = s.initLock) (hbefore : (s.threads i).pc.locks = false) (hafter : t.pc.locks = false) :
    ∀ j, (s'.threads j).pc.locks = true ↔ s'.initLock = some j := by
  refine lock_update h.lock ht ⟨fun hlocks => ?_, fun howner => ?_⟩ fun j _ => by rw [hlock]
  · exact absurd (hafter.symm.trans hlocks) Bool.false_ne_true
  · have hlocks := (h.lock i).mpr (hlock ▸ howner)
    exact absurd (hbefore.symm.trans hlocks) Bool.false_ne_true

omit [DecidableEq τ] in
/-- Steps that begin and end no object: what they owe is the count of the shared one. -/
theorem Counted.recounts (h : Counted s) (hshared : s'.sharedExtPcm = s.sharedExtPcm) (hallocated : s'.allocated = s.allocated)
    (hfreed : ∀ p, (s'.object p).freed = (s.object p).freed) (hclosers : ∀ p, s'.closers p = s.closers p)
    (hlock : ∀ j, (s'.threads j).pc.locks = true ↔ s'.initLock = some j)
    (hcount : ∀ p, s.sharedExtPcm = some p → (s'.object p).refCount.toNat = s'.references p)
    (hfew : ∀ p, s'.references p ≤ 2 ^ 31) (hstray : ∀ p, s.sharedExtPcm ≠ some p → s'.references p = 0)
    (hpositive : s'.initLock = none → ∀ p, s.sharedExtPcm = some p → 0 < s'.references p) : Counted s' := by
  refine ⟨?_, hlock, ?_, hfew, ?_, ?_, ?_, ?_⟩
  · rw [hshared, hallocated]
    exact h.fresh
  · rw [hshared]
    exact hcount
  · rw [hshared]
    exact hstray
  · rw [hshared]
    exact hpositive
  · intro p hp
    rw [hfreed, hclosers]
    exact h.current p (hshared ▸ hallocated ▸ hp)
  · intro p hlt hp
    rw [hfreed, hclosers]
    exact h.retired p (hallocated ▸ hlt) (hshared ▸ hp)

omit [DecidableEq τ] in
/-- Steps that touch no count leave the invariant alone. -/
theorem Counted.same (h : Counted s) (hshared : s'.sharedExtPcm = s.sharedExtPcm) (hallocated : s'.allocated = s.allocated)
    (hobject : ∀ p, (s'.object p).refCount = (s.object p).refCount ∧ (s'.object p).freed = (s.object p).freed)
    (hcounts : ∀ p, s'.references p = s.references p ∧ s'.closers p = s.closers p)
    (hlock : ∀ j, (s'.threads j).pc.locks = true ↔ s'.initLock = some j) (hfree : s'.initLock = none → s.initLock = none) :
    Counted s' := by
  refine h.recounts hshared hallocated (fun p => (hobject p).2) (fun p => (hcounts p).2) hlock ?_
    (fun p => (hcounts p).1 ▸ h.few p) ?_ ?_
  · intro p hp
    rw [(hobject p).1, (hcounts p).1]
    exact h.count p hp
  · intro p hp
    rw [(hcounts p).1]
    exact h.stray p hp
  · intro hnone p hp
    rw [(hcounts p).1]
    exact h.positive (hfree hnone) p hp

theorem closers_same (ht : s'.threads = Function.update s.threads i t)
    (hdown : ∀ p, t.tearsDown p = (s.threads i).tearsDown p) (p : Address) : s'.closers p = s.closers p := by
  have hsum := (counts_update ht p).2
  rw [hdown] at hsum
  exact Nat.add_right_cancel hsum

/-- The changed thread has as many references on each object, and tears down the same. -/
theorem counts_same (ht : s'.threads = Function.update s.threads i t)
    (hrefs : ∀ p, t.references p = (s.threads i).references p)
    (hdown : ∀ p, t.tearsDown p = (s.threads i).tearsDown p) (p : Address) :
    s'.references p = s.references p ∧ s'.closers p = s.closers p := by
  have hsum := (counts_update ht p).1
  rw [hrefs] at hsum
  exact ⟨Nat.add_right_cancel hsum, closers_same ht hdown p⟩

/-- A thread that moves within `ext_pcm_open` keeps its references. -/
theorem counts_goto (ht : s'.threads = Function.update s.threads i t) (hheld : t.held = (s.threads i).held)
    (hplain : t.pc.plain = true) (hbefore : (s.threads i).pc.plain = true) (p : Address) :
    s'.references p = s.references p ∧ s'.closers p = s.closers p := by
  refine counts_same ht (fun q => ?_) (fun q => ?_) p
  · rw [(Thread.counts_plain hplain q).1, (Thread.counts_plain hbefore q).1, hheld]
  · rw [(Thread.counts_plain hplain q).2, (Thread.counts_plain hbefore q).2]

omit [Fintype τ] [DecidableEq τ] in
theorem object_setObject (s : PcmSystem κ τ) (p q : Address) (e : ExtPcm κ) :
    (s.setObject p e).object q = if q = p then e else s.object q := Function.update_apply _ _ _ _

omit [Fintype τ] [DecidableEq τ] in
/-- What a change of one object keeps of it, it keeps of all. -/
theorem field_same {α : Type} {p : Address} {e : ExtPcm κ} (f : ExtPcm κ → α)
    (ho : s'.object = Function.update s.object p e) (he : f e = f (s.object p)) (q : Address) :
    f (s'.object q) = f (s.object q) := by
  rw [ho, Function.update_apply]
  split
  · next hq => rw [hq, he]
  · rfl

/-- `ext_pcm_open` finds an object. -/
theorem Counted.shares (h : Counted s) (hidle : (s.threads i).pc = .idle) (hfree : s.initLock = none) :
    Counted { s.goto i .counts with initLock := some i } :=
  h.same rfl rfl (fun _ => ⟨rfl, rfl⟩) (counts_goto (s := s) (t := ⟨.counts, _⟩) rfl rfl rfl (by rw [hidle]; rfl))
    (lock_update h.lock rfl ⟨fun _ => rfl, fun _ => rfl⟩ (lock_taken hfree)) nofun

/-- `ext_pcm_open` creates an object. -/
theorem Counted.creates (h : Counted s) (hidle : (s.threads i).pc = .idle) (hfree : s.initLock = none)
    (hshared : s.sharedExtPcm = none) :
    Counted { (s.setObject s.allocated .create).goto i .createsMap with
      initLock := some i, sharedExtPcm := some s.allocated, allocated := s.allocated + 1 } := by
  set u : PcmSystem κ τ := { (s.setObject s.allocated .create).goto i .createsMap with
    initLock := some i, sharedExtPcm := some s.allocated, allocated := s.allocated + 1 } with hu
  have hthreads : u.threads = Function.update s.threads i ⟨.createsMap, (s.threads i).held⟩ := rfl
  have hcounts := counts_goto hthreads rfl rfl (by rw [hidle]; rfl)
  have hnew := h.current s.allocated (Or.inr (le_refl _))
  have hstray (p : Address) : s.references p = 0 := h.stray p (by rw [hshared]; nofun)
  have hother {p : Address} (hp : p ≠ s.allocated) : (s.setObject s.allocated .create).object p = s.object p := by
    rw [object_setObject, if_neg hp]
  have hself : (s.setObject s.allocated .create).object s.allocated = .create := by
    rw [object_setObject, if_pos rfl]
  refine ⟨?_, lock_update h.lock rfl ⟨fun _ => rfl, fun _ => rfl⟩ (lock_taken hfree), ?_, ?_, ?_, nofun, ?_, ?_⟩
  · intro p hp
    cases hp
    exact Nat.lt_succ_self _
  · intro p hp
    cases hp
    rw [(hcounts s.allocated).1, hstray]
    exact congrArg (fun e => e.refCount.toNat) hself
  · intro p
    rw [(hcounts p).1]
    exact h.few p
  · intro p _
    rw [(hcounts p).1]
    exact hstray p
  · intro p hp
    rw [(hcounts p).2]
    by_cases hpnew : p = s.allocated
    · rw [hpnew]
      exact ⟨hnew.1, congrArg (fun e => e.freed) hself⟩
    · have hbeyond : s.allocated ≤ p := by
        rcases hp with hp | hp
        · exact absurd (Option.some.inj hp).symm hpnew
        · exact Nat.le_of_succ_le hp
      exact ⟨(h.current p (Or.inr hbeyond)).1, (congrArg (fun e => e.freed) (hother hpnew)).trans
        (h.current p (Or.inr hbeyond)).2⟩
  · intro p hlt hne
    have hpnew : p ≠ s.allocated := fun hp => hne (congrArg some hp.symm)
    rw [(hcounts p).2]
    have hretired := h.retired p (Nat.lt_of_le_of_ne (Nat.lt_succ_iff.mp hlt) hpnew) (by rw [hshared]; nofun)
    rw [← hother hpnew] at hretired
    exact hretired

omit [DecidableEq τ] in
theorem Counted.object_only (h : Counted s) {p : Address} {e : ExtPcm κ} (hs' : s' = s.setObject p e)
    (hcount : e.refCount = (s.object p).refCount) (hfreed : e.freed = (s.object p).freed) : Counted s' := by
  subst hs'
  exact h.same rfl rfl (fun q => ⟨field_same ExtPcm.refCount rfl hcount q, field_same ExtPcm.freed rfl hfreed q⟩)
    (fun _ => ⟨rfl, rfl⟩) h.lock id

/-- A thread that keeps to `ext_pcm_open` under the lock. -/
theorem Counted.within (h : Counted s) {pc : CallPc} {p : Address} {e : ExtPcm κ}
    (hbefore : (s.threads i).pc.locks = true) (hpc : pc.locks = true)
    (he : e.refCount = (s.object p).refCount ∧ e.freed = (s.object p).freed) :
    Counted ((s.setObject p e).goto i pc) := by
  have hplain : ∀ pc : CallPc, pc.locks = true → pc.plain = true := fun pc hpc => by cases pc <;> first | rfl | cases hpc
  have hlock : s.initLock = some i := (h.lock i).mp hbefore
  refine h.same rfl rfl (fun q => ⟨field_same ExtPcm.refCount rfl he.1 q, field_same ExtPcm.freed rfl he.2 q⟩)
    (counts_goto (t := ⟨pc, _⟩) rfl rfl (hplain _ hpc) (hplain _ hbefore)) (lock_update h.lock rfl ?_ fun _ _ => Iff.rfl) id
  exact ⟨fun _ => hlock, fun _ => hpc⟩

/-- `shared_ext_pcm->ref_count += 1;` and the release of the lock. -/
theorem Counted.counts (h : Counted s) (hpc : (s.threads i).pc = .counts) {p : Address}
    (hshared : s.sharedExtPcm = some p) (hfew : s.references p < 2 ^ 31) :
    Counted { (s.setObject p { s.object p with refCount := (s.object p).refCount + 1 }).goto i (.reads p) with
      initLock := none } := by
  set e : ExtPcm κ := { s.object p with refCount := (s.object p).refCount + 1 } with he
  set u : PcmSystem κ τ := { (s.setObject p e).goto i (.reads p) with initLock := none } with hu
  have hlock : s.initLock = some i := (h.lock i).mp (by rw [hpc]; rfl)
  have hplain := Thread.counts_plain (t := s.threads i) (by rw [hpc]; rfl)
  have hthreads : u.threads = Function.update s.threads i ⟨.reads p, (s.threads i).held⟩ := rfl
  have hreads (q : Address) : (⟨.reads p, (s.threads i).held⟩ : Thread).references q
      = (s.threads i).references q + if q = p then 1 else 0 := by
    rw [(hplain q).1]
    exact Thread.references_reads rfl q
  have hrefs (q : Address) : u.references q = s.references q + if q = p then 1 else 0 := by
    have := (counts_update hthreads q).1
    rw [hreads] at this
    omega
  have hself : u.object p = e := Function.update_self _ _ _
  refine h.recounts rfl rfl (field_same ExtPcm.freed rfl rfl) (closers_same hthreads fun q => (hplain q).2.symm)
    (lock_update h.lock hthreads ⟨nofun, nofun⟩ fun j hj => ?_) ?_ ?_ ?_ ?_
  · rw [hlock]
    exact ⟨fun hij => absurd (Option.some.inj hij).symm hj, nofun⟩
  · intro q hq
    obtain rfl : p = q := Option.some.inj (hshared.symm.trans hq)
    rw [hself, hrefs, if_pos rfl, he, UInt32.toNat_add, h.count p hshared]
    exact Nat.mod_eq_of_lt (by rw [UInt32.toNat_one]; omega)
  · intro q
    have := h.few q
    rw [hrefs]
    split
    · next hq =>
        rw [hq]
        omega
    · exact this
  · intro q hq
    have hne : q ≠ p := fun hqp => hq (hqp ▸ hshared)
    rw [hrefs, if_neg hne]
    exact h.stray q hq
  · intro _ q hq
    obtain rfl : p = q := Option.some.inj (hshared.symm.trans hq)
    rw [hrefs, if_pos rfl]
    exact Nat.succ_pos _

omit [DecidableEq τ] in
/-- The read after the release of the lock finds the object that the reference is on. -/
theorem Counted.reads_counted (h : Counted s) {p : Address} (hpc : (s.threads i).pc = .reads p) :
    s.sharedExtPcm = some p := by
  apply h.shared_of_reference (i := i)
  rw [Thread.references, if_pos hpc]
  exact Nat.succ_pos _

theorem Counted.returns (h : Counted s) {p : Address} (hpc : (s.threads i).pc = .reads p) : Counted (endOpen s i) := by
  have hshared := h.reads_counted hpc
  have hthread : (endOpen s i).threads = Function.update s.threads i ⟨.idle, p :: (s.threads i).held⟩ := by
    rw [endOpen, hshared]
    rfl
  refine h.same rfl rfl (fun _ => ⟨rfl, rfl⟩) (counts_same hthread (fun q => ?_) (fun q => ?_))
    (h.lock_outside hthread rfl (by rw [hpc]; rfl) rfl) id
  · rw [Thread.references_reads hpc, (Thread.counts_plain rfl q).1, List.count_cons]
    simp only [beq_iff_eq, @eq_comm _ q p]
  · rw [Thread.tearsDown, Thread.tearsDown, hpc]
    rfl

omit [DecidableEq τ] in
/-- The reference of a thread that closes is the last one exactly when the count is not positive. -/
theorem Counted.last_iff (h : Counted s) {p : Address} (hp : p ∈ (s.threads i).held) :
    s.sharedExtPcm = some p ∧ ((s.object p).refCount - 1).toNat = s.references p - 1 ∧
      (toInt (((s.object p).refCount - 1).toNat : Nat) ≤ 0 ↔ s.references p = 1) := by
  have hpos : 0 < s.references p := by
    calc 0 < (s.threads i).held.count p := List.count_pos_iff.mpr hp
      _ ≤ (s.threads i).references p := Nat.le_add_right _ _
      _ ≤ s.references p := references_le s i p
  have hshared := h.shared_of_reference (i := i) (p := p) ((List.count_pos_iff.mpr hp).trans_le (Nat.le_add_right _ _))
  have hcount := h.count p hshared
  have hfew := h.few p
  have hsub : ((s.object p).refCount - 1).toNat = s.references p - 1 := by
    rw [UInt32.toNat_sub_of_le, hcount, UInt32.toNat_one]
    rw [UInt32.le_iff_toNat_le, UInt32.toNat_one, hcount]
    exact hpos
  refine ⟨hshared, hsub, ?_⟩
  rw [hsub, toInt_of_le (by rw [intMax]; omega)]
  omega

theorem close_references (ht : s'.threads = Function.update s.threads i t) (hpc : (s.threads i).pc = .idle)
    {p : Address} (hp : p ∈ (s.threads i).held) (hheld : t.held = (s.threads i).held.erase p)
    (hreads : ∀ q, t.pc ≠ .reads q) (q : Address) :
    s'.references q + (if q = p then 1 else 0) = s.references q := by
  have hsum := (counts_update ht q).1
  have hbefore := (Thread.counts_plain (t := s.threads i) (by rw [hpc]; rfl) q).1
  have hafter : t.references q + (if q = p then 1 else 0) = (s.threads i).held.count q := by
    rw [Thread.references, if_neg (hreads q), hheld, List.count_erase]
    by_cases hq : q = p
    · have := List.count_pos_iff.mpr hp
      rw [hq, beq_self_eq_true, if_pos rfl, if_pos rfl]
      omega
    · rw [if_neg (by rwa [beq_iff_eq, eq_comm]), if_neg hq]
      rfl
  omega

/-- `ext_pcm->ref_count -= 1` when other references remain. -/
theorem Counted.closesMore (h : Counted s) (hpc : (s.threads i).pc = .idle) {p : Address} (hp : p ∈ (s.threads i).held)
    (hmore : s.references p ≠ 1) :
    Counted ((s.setObject p { s.object p with refCount := (s.object p).refCount - 1 }).setThread i
      ⟨.idle, (s.threads i).held.erase p⟩) := by
  obtain ⟨hshared, hsub, _⟩ := h.last_iff hp
  set e : ExtPcm κ := { s.object p with refCount := (s.object p).refCount - 1 } with he
  set u := (s.setObject p e).setThread i ⟨.idle, (s.threads i).held.erase p⟩ with hu
  have hthreads : u.threads = Function.update s.threads i ⟨.idle, (s.threads i).held.erase p⟩ := rfl
  have hrefs := close_references hthreads hpc hp rfl nofun
  have hplain := Thread.counts_plain (t := s.threads i) (by rw [hpc]; rfl)
  have hself : u.object p = e := Function.update_self _ _ _
  refine h.recounts rfl rfl (field_same ExtPcm.freed rfl rfl) (closers_same hthreads fun q => (hplain q).2.symm)
    (h.lock_outside hthreads rfl (by rw [hpc]; rfl) rfl) ?_ ?_ ?_ ?_
  · intro q hq
    obtain rfl : p = q := Option.some.inj (hshared.symm.trans hq)
    have := hrefs p
    rw [if_pos rfl] at this
    rw [hself, hsub]
    omega
  · intro q
    have := hrefs q
    have := h.few q
    omega
  · intro q hq
    have := hrefs q
    have := h.stray q hq
    omega
  · intro hfree q hq
    obtain rfl : p = q := Option.some.inj (hshared.symm.trans hq)
    have := hrefs p
    rw [if_pos rfl] at this
    have := h.positive hfree p hshared
    omega

/-- The last reference is given up: the object leaves `shared_ext_pcm` and this thread tears it down. -/
theorem Counted.closesLast (h : Counted s) (hpc : (s.threads i).pc = .idle) {p : Address} (hp : p ∈ (s.threads i).held)
    (hlast : s.references p = 1) :
    Counted { (s.setObject p { s.object p with refCount := (s.object p).refCount - 1, runMixer := false }).setThread i
      ⟨.joins p, (s.threads i).held.erase p⟩ with sharedExtPcm := none } := by
  obtain ⟨hshared, _, _⟩ := h.last_iff hp
  set e : ExtPcm κ := { s.object p with refCount := (s.object p).refCount - 1, runMixer := false } with he
  set u : PcmSystem κ τ := { (s.setObject p e).setThread i ⟨.joins p, (s.threads i).held.erase p⟩ with
    sharedExtPcm := none } with hu
  have hthreads : u.threads = Function.update s.threads i ⟨.joins p, (s.threads i).held.erase p⟩ := rfl
  have hrefs := close_references hthreads hpc hp rfl nofun
  have hclosers (q : Address) : u.closers q = s.closers q + (decide (q = p)).toNat := by
    have := (counts_update hthreads q).2
    rw [(Thread.counts_plain (t := s.threads i) (by rw [hpc]; rfl) q).2, Thread.tearsDown_of (Or.inl rfl)] at this
    exact this
  have hfreed : ∀ q, (u.object q).freed = (s.object q).freed := field_same ExtPcm.freed rfl rfl
  have hgone (q : Address) : u.references q = 0 := by
    have := hrefs q
    by_cases hq : q = p
    · rw [if_pos hq, hq, hlast] at this
      rw [hq]
      omega
    · have := h.stray q fun hs => hq (Option.some.inj (hs.symm.trans hshared))
      omega
  refine ⟨nofun, h.lock_outside hthreads rfl (by rw [hpc]; rfl) rfl, nofun, ?_, fun q _ => hgone q, nofun, ?_, ?_⟩
  · intro q
    rw [hgone]
    exact Nat.zero_le _
  · intro q hq
    have hbeyond : s.allocated ≤ q := hq.resolve_left nofun
    have hne : q ≠ p := fun hqp => absurd (h.fresh p hshared) (hqp ▸ Nat.not_lt.mpr hbeyond)
    rw [hclosers, hfreed, decide_eq_false hne]
    exact h.current q (Or.inr hbeyond)
  · intro q hlt _
    rw [hclosers, hfreed]
    by_cases hq : q = p
    · have hbefore := h.current q (Or.inl (hq ▸ hshared))
      rw [decide_eq_true hq, hbefore.1, hbefore.2]
      rfl
    · rw [decide_eq_false hq]
      exact h.retired q hlt fun hs => hq (Option.some.inj (hs.symm.trans hshared))

/-- The join returns. -/
theorem Counted.joins (h : Counted s) {p : Address} (hpc : (s.threads i).pc = .joins p) :
    Counted (s.goto i (.destroys p)) := by
  have hthreads : (s.goto i (.destroys p)).threads = Function.update s.threads i ⟨.destroys p, (s.threads i).held⟩ := rfl
  refine h.same rfl rfl (fun _ => ⟨rfl, rfl⟩) (counts_same hthreads (fun q => ?_) fun q => ?_)
    (h.lock_outside hthreads rfl (by rw [hpc]; rfl) rfl) id
  · rw [Thread.references, Thread.references, hpc]
    rfl
  · rw [Thread.tearsDown_of (Or.inr rfl), Thread.tearsDown_of (Or.inl hpc)]

omit [DecidableEq τ] in
/-- An object that a thread tears down is allocated, has left `shared_ext_pcm` and is not freed yet. -/
theorem Counted.of_closer (h : Counted s) {p : Address} (hpc : (s.threads i).pc = .joins p ∨ (s.threads i).pc = .destroys p) :
    p < s.allocated ∧ s.sharedExtPcm ≠ some p ∧ (s.object p).freed = false := by
  have hpos : 0 < s.closers p := by
    have := closers_le s i p
    rw [Thread.tearsDown_of hpc, decide_eq_true rfl] at this
    exact this
  have hshared : s.sharedExtPcm ≠ some p := fun hs => absurd (h.current p (Or.inl hs)).1 hpos.ne'
  have hlt : p < s.allocated := Nat.lt_of_not_le fun hle => absurd (h.current p (Or.inr hle)).1 hpos.ne'
  refine ⟨hlt, hshared, ?_⟩
  have hsum := h.retired p hlt hshared
  cases hfreed : (s.object p).freed with
  | false => rfl
  | true =>
      rw [hfreed, Bool.toNat_true] at hsum
      omega

/-- `pcm_close` and `free` -/
theorem Counted.destroys (h : Counted s) {p : Address} (hpc : (s.threads i).pc = .destroys p) :
    Counted ((s.setObject p { s.object p with opened := false, freed := true }).goto i .idle) := by
  set e : ExtPcm κ := { s.object p with opened := false, freed := true } with he
  set u := (s.setObject p e).goto i .idle with hu
  have hthreads : u.threads = Function.update s.threads i ⟨.idle, (s.threads i).held⟩ := rfl
  have hrefs (q : Address) : u.references q = s.references q := by
    have := (counts_update hthreads q).1
    rw [Thread.references, hpc] at this
    exact Nat.add_right_cancel this
  have hclosers (q : Address) : u.closers q + (decide (q = p)).toNat = s.closers q := by
    have := (counts_update hthreads q).2
    rw [Thread.tearsDown_of (Or.inr hpc)] at this
    exact this
  obtain ⟨hlt, hshared, _⟩ := h.of_closer (Or.inr hpc)
  have hself : u.object p = e := Function.update_self _ _ _
  have hother {q : Address} (hq : q ≠ p) : u.object q = s.object q := Function.update_of_ne hq _ _
  refine ⟨h.fresh, h.lock_outside hthreads rfl (by rw [hpc]; rfl) rfl, ?_, ?_, ?_, ?_, ?_, ?_⟩
  · intro q hq
    rw [hrefs, hother fun hqp => hshared (hqp ▸ hq)]
    exact h.count q hq
  · intro q
    rw [hrefs]
    exact h.few q
  · intro q hq
    rw [hrefs]
    exact h.stray q hq
  · intro hfree q hq
    rw [hrefs]
    exact h.positive hfree q hq
  · intro q hq
    have hne : q ≠ p := by
      rintro rfl
      exact hq.elim hshared (Nat.not_le.mpr hlt)
    have := hclosers q
    rw [decide_eq_false hne] at this
    rw [hother hne, ← Nat.add_zero (u.closers q), ← Bool.toNat_false, this]
    exact h.current q hq
  · intro q hq hne
    have hsum := hclosers q
    have hbefore := h.retired q hq hne
    by_cases hqp : q = p
    · rw [decide_eq_true hqp] at hsum
      rw [hqp] at hsum hbefore ⊢
      rw [hself, he]
      simp only [Bool.toNat_true] at hsum ⊢
      omega
    · rw [decide_eq_false hqp] at hsum
      rw [hother hqp]
      simp only [Bool.toNat_false] at hsum
      omega

theorem Counted.step {strEq : κ → κ → Bool} {l : PcmLabel κ τ} {es : List (PcmEvent τ)} (h : Counted s)
    (hfew : FewReferences s l) (hstep : Stepped strEq s l s' es) : Counted s' := by
  cases hstep with
  | shares i p hidle hfree _ => exact h.shares hidle hfree
  | creates i hidle hfree hshared => exact h.creates hidle hfree hshared
  | createsMap i p hpc _ => exact h.within (by rw [hpc]; rfl) rfl ⟨rfl, rfl⟩
  | setsRun i p hpc _ => exact h.within (by rw [hpc]; rfl) rfl ⟨rfl, rfl⟩
  | counts i p hpc hshared => exact h.counts hpc hshared (hfew hpc p hshared)
  | returns i counted hpc => exact h.returns hpc
  | closesLast i p hidle hp _ hcount => exact h.closesLast hidle hp ((h.last_iff hp).2.2.mp hcount)
  | closesMore i p hidle hp _ hcount =>
      exact h.closesMore hidle hp fun hone => hcount ((h.last_iff hp).2.2.mpr hone)
  | joins i p hpc _ => exact h.joins hpc
  | destroys i p hpc _ => exact h.destroys hpc
  | writes i p key keys _ _ _ => exact h.object_only rfl rfl rfl
  | mixes p _ _ => exact h.object_only rfl rfl rfl
  | tests p _ _ _ => exact h.object_only rfl rfl rfl

end Steps

/-! ### Teardowns -/

/-- The number of threads between the join of an object and its release. -/
def PcmSystem.destroyers {τ : Type} [Fintype τ] (s : PcmSystem κ τ) (p : Address) : Nat :=
  ∑ i, (decide ((s.threads i).pc = .destroys p)).toNat

/-- What has been emitted about the teardown of each object, and about the calls that have returned. -/
structure TornDown (es : List (PcmEvent τ)) (s : PcmSystem κ τ) : Prop where
  destroyed : ∀ p, es.count (.destroyed p) = (s.object p).freed.toNat
  joined : ∀ p, es.count (.joined p) = (s.object p).freed.toNat + s.destroyers p
  returned : ∀ i counted result, .returned i counted result ∈ es → result = some counted

section Teardowns
variable {s s' : PcmSystem κ τ} {i : τ} {t : Thread} {h es : List (PcmEvent τ)}

theorem destroyers_update (ht : s'.threads = Function.update s.threads i t) (p : Address) :
    s'.destroyers p + (decide ((s.threads i).pc = .destroys p)).toNat
      = s.destroyers p + (decide (t.pc = .destroys p)).toNat := by
  rw [PcmSystem.destroyers, ht]
  exact sum_update (fun t => (decide (t.pc = .destroys p)).toNat) s.threads i t

theorem destroyers_same (ht : s'.threads = Function.update s.threads i t) (hbefore : ∀ p, (s.threads i).pc ≠ .destroys p)
    (hafter : ∀ p, t.pc ≠ .destroys p) (p : Address) : s'.destroyers p = s.destroyers p := by
  have := destroyers_update ht p
  rw [decide_eq_false (hbefore p), decide_eq_false (hafter p)] at this
  exact this

/-- Steps that tear nothing down. -/
theorem TornDown.quiet (hdown : TornDown h s) (hfreed : ∀ p, (s'.object p).freed = (s.object p).freed)
    (hdestroyers : ∀ p, s'.destroyers p = s.destroyers p)
    (hes : ∀ e ∈ es, (∀ p, e ≠ .destroyed p ∧ e ≠ .joined p) ∧
      ∀ i counted result, e = .returned i counted result → result = some counted) :
    TornDown (h ++ es) s' := by
  refine ⟨fun p => ?_, fun p => ?_, fun i counted result he => ?_⟩
  · rw [List.count_append, hfreed, hdown.destroyed p, List.count_eq_zero.mpr fun he => ((hes _ he).1 p).1 rfl]
    rfl
  · rw [List.count_append, hfreed, hdestroyers, hdown.joined p,
      List.count_eq_zero.mpr fun he => ((hes _ he).1 p).2 rfl]
    rfl
  · rcases List.mem_append.mp he with he | he
    · exact hdown.returned i counted result he
    · exact (hes _ he).2 i counted result rfl

theorem TornDown.joins (hdown : TornDown h s) {p : Address} (hpc : (s.threads i).pc = .joins p) :
    TornDown (h ++ [.joined p]) (s.goto i (.destroys p)) := by
  refine ⟨fun q => ?_, fun q => ?_, fun j counted result he => ?_⟩
  · rw [List.count_append, hdown.destroyed q]
    rfl
  · have hthreads : (s.goto i (.destroys p)).threads = Function.update s.threads i ⟨.destroys p, (s.threads i).held⟩ := rfl
    have hsum := destroyers_update hthreads q
    rw [hpc, decide_eq_false (nofun : CallPc.joins p ≠ .destroys q)] at hsum
    rw [List.count_append, hdown.joined q, List.count_singleton]
    by_cases hq : p = q
    · rw [hq] at hsum ⊢
      rw [decide_eq_true rfl] at hsum
      rw [beq_self_eq_true, if_pos rfl, Nat.add_assoc]
      exact congrArg ((s.object q).freed.toNat + ·) hsum.symm
    · rw [decide_eq_false fun hr => hq (CallPc.destroys.inj hr)] at hsum
      rw [if_neg fun hr => hq (PcmEvent.joined.inj (beq_iff_eq.mp hr))]
      exact congrArg ((s.object q).freed.toNat + ·) hsum.symm
  · rcases List.mem_append.mp he with he | he
    · exact hdown.returned j counted result he
    · cases List.mem_singleton.mp he

theorem TornDown.destroys (hdown : TornDown h s) {p : Address} (hpc : (s.threads i).pc = .destroys p)
    (hfreed : (s.object p).freed = false) :
    TornDown (h ++ [.destroyed p])
      ((s.setObject p { s.object p with opened := false, freed := true }).goto i .idle) := by
  set e : ExtPcm κ := { s.object p with opened := false, freed := true } with he
  set u := (s.setObject p e).goto i .idle with hu
  have hself : u.object p = e := Function.update_self _ _ _
  have hother {q : Address} (hq : q ≠ p) : u.object q = s.object q := Function.update_of_ne hq _ _
  refine ⟨fun q => ?_, fun q => ?_, fun j counted result he => ?_⟩
  · rw [List.count_append, hdown.destroyed q, List.count_singleton]
    by_cases hq : q = p
    · rw [hq, hself, he, hfreed, beq_self_eq_true]
      rfl
    · rw [hother hq, if_neg fun hr => hq (PcmEvent.destroyed.inj (beq_iff_eq.mp hr)).symm]
      rfl
  · have hthreads : u.threads = Function.update s.threads i ⟨.idle, (s.threads i).held⟩ := rfl
    have hsum := destroyers_update hthreads q
    rw [hpc] at hsum
    rw [List.count_append, hdown.joined q, List.count_singleton, if_neg nofun]
    by_cases hq : q = p
    · rw [hq] at hsum ⊢
      rw [decide_eq_true rfl, decide_eq_false (nofun : CallPc.idle ≠ .destroys p)] at hsum
      rw [hself, he, hfreed]
      simp only [Bool.toNat_true, Bool.toNat_false] at hsum ⊢
      omega
    · rw [decide_eq_false fun hr => hq (CallPc.destroys.inj hr).symm] at hsum
      rw [hother hq]
      exact congrArg ((s.object q).freed.toNat + ·) hsum.symm
  · rcases List.mem_append.mp he with he | he
    · exact hdown.returned j counted result he
    · cases List.mem_singleton.mp he

omit [Fintype τ] [DecidableEq τ] in
theorem quiet_nil : ∀ e ∈ ([] : List (PcmEvent τ)), (∀ p, e ≠ .destroyed p ∧ e ≠ .joined p) ∧
    ∀ i counted result, e = .returned i counted result → result = some counted := nofun

theorem TornDown.step {strEq : κ → κ → Bool} {l : PcmLabel κ τ} (hc : Counted s) (hdown : TornDown h s)
    (hstep : Stepped strEq s l s' es) : TornDown (h ++ es) s' := by
  cases hstep with
  | shares i p hidle _ _ =>
      exact hdown.quiet (fun _ => rfl) (destroyers_same rfl (by rw [hidle]; nofun) nofun) quiet_nil
  | creates i hidle _ _ =>
      have hfresh := (hc.current s.allocated (Or.inr (le_refl _))).2
      exact hdown.quiet (field_same ExtPcm.freed rfl hfresh.symm) (destroyers_same rfl (by rw [hidle]; nofun) nofun)
        quiet_nil
  | createsMap i p hpc _ =>
      exact hdown.quiet (field_same ExtPcm.freed rfl rfl) (destroyers_same rfl (by rw [hpc]; nofun) nofun) quiet_nil
  | setsRun i p hpc _ =>
      exact hdown.quiet (field_same ExtPcm.freed rfl rfl) (destroyers_same rfl (by rw [hpc]; nofun) nofun) quiet_nil
  | counts i p hpc _ =>
      exact hdown.quiet (field_same ExtPcm.freed rfl rfl) (destroyers_same rfl (by rw [hpc]; nofun) nofun) quiet_nil
  | returns i counted hpc =>
      refine hdown.quiet (fun _ => rfl) (destroyers_same rfl (by rw [hpc]; nofun) nofun) ?_
      refine List.forall_mem_singleton.mpr ⟨fun p => ⟨nofun, nofun⟩, fun _ _ _ heq => ?_⟩
      cases heq
      exact hc.reads_counted hpc
  | closesLast i p hidle _ _ _ =>
      refine hdown.quiet (field_same ExtPcm.freed rfl rfl) (destroyers_same rfl (by rw [hidle]; nofun) nofun) ?_
      exact List.forall_mem_singleton.mpr ⟨fun _ => ⟨nofun, nofun⟩, nofun⟩
  | closesMore i p hidle _ _ _ =>
      refine hdown.quiet (field_same ExtPcm.freed rfl rfl) (destroyers_same rfl (by rw [hidle]; nofun) nofun) ?_
      exact List.forall_mem_singleton.mpr ⟨fun _ => ⟨nofun, nofun⟩, nofun⟩
  | joins i p hpc _ => exact hdown.joins hpc
  | destroys i p hpc _ => exact hdown.destroys hpc (hc.of_closer (Or.inr hpc)).2.2
  | writes i p key keys _ _ _ =>
      exact hdown.quiet (field_same ExtPcm.freed rfl rfl) (fun _ => rfl) quiet_nil
  | mixes p _ _ =>
      refine hdown.quiet (field_same ExtPcm.freed rfl rfl) (fun _ => rfl) ?_
      exact List.forall_mem_singleton.mpr ⟨fun _ => ⟨nofun, nofun⟩, nofun⟩
  | tests p _ _ _ =>
      refine hdown.quiet (field_same ExtPcm.freed rfl rfl) (fun _ => rfl) ?_
      exact List.forall_mem_singleton.mpr ⟨fun _ => ⟨nofun, nofun⟩, nofun⟩

theorem TornDown.init : TornDown [] (PcmSystem.init : PcmSystem κ τ) := by
  have hnone (p : Address) : (PcmSystem.init : PcmSystem κ τ).destroyers p = 0 := Finset.sum_eq_zero fun _ _ => rfl
  refine ⟨fun _ => rfl, fun p => ?_, nofun⟩
  rw [hnone p]
  rfl

end Teardowns

/-! ### Runs -/

section Runs
variable {strEq : κ → κ → Bool} {s s' : PcmSystem κ τ} {l : PcmLabel κ τ} {es : List (PcmEvent τ)}

/-- An object that has left `shared_ext_pcm` has been told to stop mixing. -/
def Stopped (s : PcmSystem κ τ) : Prop := ∀ p, s.sharedExtPcm ≠ some p → (s.object p).runMixer = false

omit [Fintype τ] [DecidableEq τ] in
theorem Stopped.keeps (h : Stopped s) (hshared : s'.sharedExtPcm = s.sharedExtPcm)
    (hrun : ∀ q, (s'.object q).runMixer = (s.object q).runMixer) : Stopped s' := by
  intro q hq
  rw [hrun]
  exact h q (hshared ▸ hq)

theorem Stopped.step (hc : Counted s) (h : Stopped s) (hstep : Stepped strEq s l s' es) : Stopped s' := by
  have hkeep {p : Address} {e : ExtPcm κ} (hshared : s.sharedExtPcm = some p) (q : Address)
      (hq : s.sharedExtPcm ≠ some q) : ((s.setObject p e).object q).runMixer = false := by
    rw [object_setObject, if_neg fun hqp : q = p => hq (hqp ▸ hshared)]
    exact h q hq
  cases hstep with
  | shares i p _ _ _ => exact h
  | creates i _ _ hnone =>
      intro q hq
      refine (congrArg ExtPcm.runMixer (object_setObject s s.allocated q _)).trans ?_
      rw [if_neg fun hqp => hq (congrArg some hqp.symm)]
      exact h q (by rw [hnone]; nofun)
  | createsMap i p _ hshared => exact hkeep hshared
  | setsRun i p _ hshared => exact hkeep hshared
  | counts i p _ hshared => exact hkeep hshared
  | returns i counted _ => exact h
  | closesLast i p _ hp _ _ =>
      intro q _
      refine (congrArg ExtPcm.runMixer (object_setObject s p q _)).trans ?_
      split
      · rfl
      · next hq => exact h q fun hshared => hq (Option.some.inj (hshared.symm.trans (hc.last_iff hp).1))
  | closesMore i p _ _ _ _ => exact h.keeps rfl (field_same ExtPcm.runMixer rfl rfl)
  | joins i p _ _ => exact h
  | destroys i p _ _ => exact h.keeps rfl (field_same ExtPcm.runMixer rfl rfl)
  | writes i p key keys _ _ _ => exact h.keeps rfl (field_same ExtPcm.runMixer rfl rfl)
  | mixes p _ _ => exact h.keeps rfl (field_same ExtPcm.runMixer rfl rfl)
  | tests p _ _ _ => exact h.keeps rfl (field_same ExtPcm.runMixer rfl rfl)

/-- Some steps lead to the release of the object. -/
def Finishes (strEq : κ → κ → Bool) (s : PcmSystem κ τ) (p : Address) : Prop :=
  ∃ ls u fs, exec (pcmStep strEq) s ls = some (u, fs) ∧ .destroyed p ∈ fs

omit [Fintype τ] in
theorem Finishes.cons {p : Address} (hstep : pcmStep strEq s l = some (s', es)) (h : Finishes strEq s' p) :
    Finishes strEq s p := by
  obtain ⟨ls, u, fs, hrun, hmem⟩ := h
  exact ⟨l :: ls, u, es ++ fs, exec_cons_eq_some.mpr ⟨s', es, fs, hstep, hrun, rfl⟩, List.mem_append_right es hmem⟩

omit [Fintype τ] in
theorem finishes_of_destroys (hfree : s.initLock = none) {i : τ} {p : Address} (hpc : (s.threads i).pc = .destroys p) :
    Finishes strEq s p := by
  have hstep : pcmStep strEq s (.destroy i) =
      some ((s.setObject p { s.object p with opened := false, freed := true }).goto i .idle, [.destroyed p]) := by
    rw [pcmStep, hpc]
    exact if_pos hfree
  exact ⟨[.destroy i], _, [.destroyed p], (exec_single).trans hstep, List.mem_singleton_self _⟩

omit [Fintype τ] in
theorem finishes_of_ended (hfree : s.initLock = none) {i : τ} {p : Address} (hpc : (s.threads i).pc = .joins p)
    (hended : (s.object p).mixerThread = .ended) : Finishes strEq s p := by
  have hstep : pcmStep strEq s (.join i) = some (s.goto i (.destroys p), [.joined p]) := by
    rw [pcmStep, hpc]
    exact if_pos hended
  have hpc' : ((s.goto i (.destroys p)).threads i).pc = .destroys p := by
    show (Function.update s.threads i ⟨.destroys p, (s.threads i).held⟩ i).pc = .destroys p
    rw [Function.update_self]
  exact Finishes.cons hstep (@finishes_of_destroys _ _ _ _ (s.goto i (.destroys p)) hfree i p hpc')

omit [Fintype τ] in
theorem finishes_of_tests (hfree : s.initLock = none) {i : τ} {p : Address} (hpc : (s.threads i).pc = .joins p)
    (hlt : p < s.allocated) (hrun : (s.object p).runMixer = false) (htests : (s.object p).mixerThread = .tests) :
    Finishes strEq s p := by
  have hstep : pcmStep strEq s (.test p) = some (s.setObject p { s.object p with mixerThread := .ended },
      [.tested p false]) := by
    refine (if_pos ⟨hlt, htests, hfree⟩).trans ?_
    rw [hrun]
    rfl
  refine Finishes.cons hstep (@finishes_of_ended _ _ _ _ (s.setObject p _) hfree i p hpc ?_)
  rw [object_setObject, if_pos rfl]

/-- The mixer thread and the thread in `ext_pcm_close` can finish the teardown of an object by themselves. -/
theorem teardown_finishes (hc : Counted s) (h : Stopped s) (hfree : s.initLock = none) {i : τ} {p : Address}
    (hpc : (s.threads i).pc = .joins p ∨ (s.threads i).pc = .destroys p) : Finishes strEq s p := by
  obtain ⟨hlt, hshared, _⟩ := hc.of_closer hpc
  have hrun := h p hshared
  rcases hpc with hjoins | hdestroys
  · cases hmixer : (s.object p).mixerThread with
    | ended => exact finishes_of_ended hfree hjoins hmixer
    | tests => exact finishes_of_tests hfree hjoins hlt hrun hmixer
    | mixes =>
        have hstep : pcmStep strEq s (.mix p) = some (s.setObject p { s.object p with mixerThread := .tests },
            [.mixed p (s.object p).mixerPipelineMap.isSome]) := if_pos ⟨hlt, hmixer⟩
        refine Finishes.cons hstep (@finishes_of_tests _ _ _ _ (s.setObject p _) hfree i p hjoins hlt ?_ ?_)
        · rw [object_setObject, if_pos rfl]
          exact hrun
        · rw [object_setObject, if_pos rfl]
  · exact finishes_of_destroys hfree hdestroys

/-- The object has lost its last reference: a thread is tearing it down or has done so. -/
def PcmSystem.Dying (s : PcmSystem κ τ) (p : Address) : Prop := 0 < s.closers p ∨ (s.object p).freed = true

/-- The reference counting after the events. -/
structure ReferencesSound (es : List (PcmEvent τ)) (s : PcmSystem κ τ) : Prop where
  returned : ∀ i counted result, .returned i counted result ∈ es → result = some counted
  null_iff : s.initLock = none → (s.sharedExtPcm = none ↔ ∀ p, ¬ s.Dying p → s.references p = 0)
  dying : ∀ p, s.Dying p → s.references p = 0
  /-- One thread is tearing the object down or it has been torn down once, unless it is the shared one. -/
  teardown : ∀ p, p < s.allocated → s.closers p + es.count (.destroyed p) = if s.sharedExtPcm = some p then 0 else 1
  joined : ∀ p, es.count (.destroyed p) ≤ es.count (.joined p) ∧ es.count (.joined p) ≤ 1

theorem referencesSound (hc : Counted s) (hdown : TornDown es s) : ReferencesSound es s := by
  have hdying {p : Address} (hp : s.Dying p) : s.sharedExtPcm ≠ some p := by
    intro hshared
    have hcurrent := hc.current p (Or.inl hshared)
    rcases hp with hp | hp
    · exact hp.ne' hcurrent.1
    · exact Bool.false_ne_true (hcurrent.2.symm.trans hp)
  refine ⟨hdown.returned, fun hfree => ⟨fun hnone p _ => hc.stray p (by rw [hnone]; nofun), fun hzero => ?_⟩,
    fun p hp => hc.stray p (hdying hp), fun p hlt => ?_, fun p => ?_⟩
  · cases hshared : s.sharedExtPcm with
    | none => rfl
    | some p =>
        have hpos := hc.positive hfree p hshared
        exact absurd (hzero p fun hp => hdying hp hshared) hpos.ne'
  · rw [hdown.destroyed p]
    split
    · next hshared =>
        obtain ⟨hclosers, hfreed⟩ := hc.current p (Or.inl hshared)
        rw [hclosers, hfreed]
        rfl
    · next hshared => exact hc.retired p hlt hshared
  · rw [hdown.destroyed p, hdown.joined p]
    refine ⟨Nat.le_add_right _ _, ?_⟩
    have hle : s.destroyers p ≤ s.closers p := by
      apply Finset.sum_le_sum
      intro i _
      by_cases hpc : (s.threads i).pc = .destroys p
      · rw [Thread.tearsDown_of (Or.inr hpc), decide_eq_true hpc, decide_eq_true rfl]
      · rw [decide_eq_false hpc]
        exact Nat.zero_le _
    have hsum : s.closers p + (s.object p).freed.toNat ≤ 1 := by
      by_cases hp : s.sharedExtPcm = some p ∨ s.allocated ≤ p
      · rw [(hc.current p hp).1, (hc.current p hp).2]
        exact Nat.zero_le _
      · obtain ⟨hshared, hlt⟩ := not_or.mp hp
        exact (hc.retired p (Nat.lt_of_not_le hlt) hshared).le
    omega

/-- The reference counting is sound as long as at most `2 ^ 31` references are outstanding at a time, and every
teardown that has begun can be finished. -/
theorem counts_references {strEq : κ → κ → Bool} {ls : List (PcmLabel κ τ)} {s : PcmSystem κ τ} {es : List (PcmEvent τ)}
    (hrun : exec (pcmStep strEq) PcmSystem.init ls = some (s, es))
    (hfew : Guarded (pcmStep strEq) FewReferences PcmSystem.init ls) :
    ReferencesSound es s ∧ ∀ i p, s.initLock = none →
      (s.threads i).pc = .joins p ∨ (s.threads i).pc = .destroys p → Finishes strEq s p := by
  have hkeep : ∀ h (s : PcmSystem κ τ) l t es, (Counted s ∧ TornDown h s ∧ Stopped s) → FewReferences s l →
      pcmStep strEq s l = some (t, es) → Counted t ∧ TornDown (h ++ es) t ∧ Stopped t := by
    intro h s l t es ⟨hc, hdown, hstopped⟩ hguard hstep
    exact ⟨hc.step hguard (stepped hstep), hdown.step hc (stepped hstep), hstopped.step hc (stepped hstep)⟩
  have hinit : Counted (PcmSystem.init : PcmSystem κ τ) ∧ TornDown [] (PcmSystem.init : PcmSystem κ τ) ∧
      Stopped (PcmSystem.init : PcmSystem κ τ) := ⟨Counted.init, TornDown.init, fun _ _ => rfl⟩
  obtain ⟨hc, hdown, hstopped⟩ := exec_invariant_history
    (fun h s => Counted s ∧ TornDown h s ∧ Stopped s) hkeep (h := []) hinit hfew hrun
  exact ⟨referencesSound hc hdown, fun i p hfree hpc => teardown_finishes hc hstopped hfree hpc⟩

end Runs

/-- One thread opens twice, closes twice and tears the object down. -/
theorem counts_references_twice :
    ∃ s es, exec (pcmStep fun _ _ => true) (PcmSystem.init : PcmSystem Unit Unit)
      [.beginOpen (), .proceed (), .proceed (), .proceed (), .endOpen (), .beginOpen (), .proceed (), .endOpen (),
        .close () 0, .close () 0, .mix 0, .test 0, .join (), .destroy ()] = some (s, es) ∧ ReferencesSound es s := by
  obtain ⟨⟨s, es⟩, hrun⟩ : ∃ result, exec (pcmStep fun _ _ => true) (PcmSystem.init : PcmSystem Unit Unit)
      [.beginOpen (), .proceed (), .proceed (), .proceed (), .endOpen (), .beginOpen (), .proceed (), .endOpen (),
        .close () 0, .close () 0, .mix 0, .test 0, .join (), .destroy ()] = some result :=
    Option.isSome_iff_exists.mp (by decide +kernel)
  exact ⟨s, es, hrun, (counts_references hrun (by decide +kernel)).1⟩

/-! ### A count beyond `INT_MAX` -/

/-- One thread has opened the first object `n` times. -/
structure Opened (n : Nat) (s : PcmSystem Unit Unit) : Prop where
  lock : s.initLock = none
  shared : s.sharedExtPcm = some 0
  count : (s.object 0).refCount = UInt32.ofNat n
  threads : s.threads = fun _ => ⟨.idle, List.replicate n 0⟩

theorem opens_first : ∃ s es, exec (pcmStep fun _ _ => true) PcmSystem.init
    [.beginOpen (), .proceed (), .proceed (), .proceed (), .endOpen ()] = some (s, es) ∧ Opened 1 s :=
  ⟨_, _, rfl, rfl, rfl, rfl, rfl⟩

theorem Opened.again {n : Nat} {s : PcmSystem Unit Unit} (h : Opened n s) : ∃ u es,
    exec (pcmStep fun _ _ => true) s [.beginOpen (), .proceed (), .endOpen ()] = some (u, es) ∧ Opened (n + 1) u := by
  obtain ⟨lock, shared, object, allocated, threads⟩ := s
  obtain ⟨hlock, hshared, hcount, hthreads⟩ := h
  dsimp only at *
  subst hlock hshared hthreads
  refine ⟨_, _, rfl, rfl, rfl, ?_, rfl⟩
  show (object 0).refCount + 1 = UInt32.ofNat (n + 1)
  rw [hcount, UInt32.ofNat_add]
  rfl

theorem Opened.times {n : Nat} {s : PcmSystem Unit Unit} (h : Opened n s) (k : Nat) :
    ∃ ls u es, exec (pcmStep fun _ _ => true) s ls = some (u, es) ∧ Opened (n + k) u := by
  induction k with
  | zero => exact ⟨[], s, [], rfl, h⟩
  | succ k ih =>
      obtain ⟨ls, u, es, hrun, hu⟩ := ih
      obtain ⟨v, fs, hagain, hv⟩ := hu.again
      exact ⟨ls ++ _, v, es ++ fs, exec_append_eq_some.mpr ⟨u, es, fs, hrun, hagain, rfl⟩, hv⟩

/-- The first close tears the object down when the count is not positive as an `int`. -/
theorem Opened.close_wrapped {n : Nat} {s : PcmSystem Unit Unit} (h : Opened (n + 2) s)
    (hcount : toInt ((UInt32.ofNat (n + 2) - 1).toNat : Nat) ≤ 0) :
    ∃ u es, pcmStep (fun _ _ => true) s (.close () 0) = some (u, es) ∧ 0 < u.closers 0 ∧ 0 < u.references 0 := by
  rw [← h.count] at hcount
  have hheld : (s.threads ()).held = List.replicate (n + 2) 0 := congrArg (fun f => (f ()).held) h.threads
  have hmem : 0 ∈ (s.threads ()).held := by
    rw [hheld, List.replicate_succ]
    exact List.mem_cons_self
  have hpc : (s.threads ()).pc = .idle := congrArg (fun f => (f ()).pc) h.threads
  have hclose : (close s () 0).1.threads () = ⟨.joins 0, (s.threads ()).held.erase 0⟩ := by
    rw [close, if_pos hcount]
    rfl
  refine ⟨_, _, if_pos ⟨hpc, hmem, h.lock⟩, ?_, ?_⟩
  · refine Nat.lt_of_lt_of_le ?_ (closers_le _ () 0)
    rw [hclose]
    exact Nat.one_pos
  · refine Nat.lt_of_lt_of_le ?_ (references_le _ () 0)
    rw [hclose, Thread.references, hheld, List.count_erase_self, List.count_replicate_self]
    omega

/-- With `2 ^ 31 + 1` references the first close tears the object down. -/
theorem counts_references_wrapped :
    ¬ ∀ (ls : List (PcmLabel Unit Unit)) (s : PcmSystem Unit Unit) (es : List (PcmEvent Unit)),
      exec (pcmStep fun _ _ => true) PcmSystem.init ls = some (s, es) → ReferencesSound es s := by
  intro h
  have hcount : toInt ((UInt32.ofNat (2147483647 + 2) - 1).toNat : Nat) ≤ 0 := by decide +kernel
  -- from here on the number is a variable, so that no list of its length is evaluated
  generalize 2147483647 = n at hcount
  obtain ⟨s, es, hfirst, hs⟩ := opens_first
  obtain ⟨ls, u, fs, hmore, hu⟩ := hs.times (n + 1)
  rw [Nat.add_comm 1] at hu
  obtain ⟨v, gs, hclose, hclosers, hrefs⟩ := hu.close_wrapped hcount
  have hrun := exec_append_eq_some.mpr ⟨s, es, fs ++ gs, hfirst,
    exec_append_eq_some.mpr ⟨u, fs, gs, hmore, exec_single.trans hclose, rfl⟩, rfl⟩
  exact hrefs.ne' ((h _ v _ hrun).dying 0 (Or.inl hclosers))

end Trout.SharedPcm

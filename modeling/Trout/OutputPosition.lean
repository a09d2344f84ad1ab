import Trout.OutputSections
import Trout.RateClock

/-! The position of an output stream. It counts the frames that have played since the last underrun, and
stops at the frames written. Every section of the clients is a step of a counter that is supplied, in
microseconds of the clock, except for the turns of `do_out_standby` that go on to sleep: they store the
position in `underrun_position` and leave `underrun_time`. -/

namespace Trout.Audio
open CInt Runs

/-- The time that a section of a client reads from the clock. -/
def ClientLabel.reading : ClientLabel → Option Nat
  | .write _ _ now _ => some now
  | .standby _ now => some now
  | .standbySlept now => some now
  | .presentationPosition now => some now
  | .writeSlept _ => none
  | .writeResume => none
  | .writeSpurious => none

def OutputLabel.reading {n : Nat} : OutputLabel n → Option Nat
  | .client _ l => l.reading
  | _ => none

/-- The positions that `out_get_presentation_position` reported, with their microseconds. -/
def positionReports (events : List OutputEvent) : List (Nat × Nat) :=
  events.filterMap fun
    | .position frames now => some (frames, now / 1000)
    | _ => none

/-- The frames played since the underrun. -/
def framesSinceUnderrun (out : GenericStreamOut) (now : Nat) : Nat :=
  if out.standby then 0 else (now / 1000 - out.underrunTime / 1000) * outGetSampleRate out / 1000000

/-- The position as a counter that `out_write` supplies. -/
def GenericStreamOut.played (out : GenericStreamOut) : SuppliedClock :=
  ⟨⟨!out.standby, out.underrunPosition, out.underrunTime / 1000⟩, out.framesWritten⟩

/-- The frame counter, and a reading in microseconds times the sample rate, fit an `int64_t`. -/
def PositionFits (out : GenericStreamOut) (reading : Option Nat) : Prop :=
  out.framesWritten < 2 ^ 63 ∧ ∀ now ∈ reading, now / 1000 * outGetSampleRate out < 2 ^ 63

instance (out : GenericStreamOut) (reading : Option Nat) : Decidable (PositionFits out reading) :=
  inferInstanceAs (Decidable (_ ∧ _))

/-- The times at which a section of a client takes a turn of the loop of `do_out_standby`. -/
def standbyTurn (out : GenericStreamOut) : ClientPc → ClientLabel → Option Nat
  | .idle, .standby _ now => if out.standby then none else some now
  | .standbySleeping _, .standbySlept now => some now
  | _, _ => none

/-- A section takes a turn of the loop of `do_out_standby` that goes on to sleep. -/
def Drains (out : GenericStreamOut) (pc : ClientPc) (l : ClientLabel) : Prop :=
  ∃ now ∈ standbyTurn out pc l, (doOutStandbyTurn out now).2 ≠ 0

/-! ### Positions as a counter -/

theorem played_elapsed (out : GenericStreamOut) (now : Nat) :
    out.played.clock.elapsed (outGetSampleRate out) 1000000 (now / 1000) = framesSinceUnderrun out now := by
  rw [RateClock.elapsed, framesSinceUnderrun, GenericStreamOut.played]
  cases out.standby with
  | true => rfl
  | false => rfl

theorem framesSinceUnderrun_lt {out : GenericStreamOut} {now : Nat} (h : PositionFits out (some now)) :
    framesSinceUnderrun out now < 2 ^ 63 := by
  have hproduct := h.2 now rfl
  rw [framesSinceUnderrun]
  split
  · decide
  · calc (now / 1000 - out.underrunTime / 1000) * outGetSampleRate out / 1000000
        ≤ (now / 1000 - out.underrunTime / 1000) * outGetSampleRate out := Nat.div_le_self _ _
      _ ≤ now / 1000 * outGetSampleRate out := Nat.mul_le_mul_right _ (Nat.sub_le _ _)
      _ < 2 ^ 63 := hproduct

/-- `get_current_output_position` looks at the counter. -/
theorem getCurrentOutputPosition_played {out : GenericStreamOut} {now : Nat}
    (hbase : out.underrunPosition ≤ out.framesWritten) (hfits : PositionFits out (some now)) :
    (getCurrentOutputPosition out now).1.played = out.played.look (outGetSampleRate out) 1000000 (now / 1000) ∧
      (getCurrentOutputPosition out now).2 = out.played.shown (outGetSampleRate out) 1000000 (now / 1000) := by
  have hsince : (if out.standby then 0 else framesSince (outGetSampleRate out) now out.underrunTime) =
      ((framesSinceUnderrun out now : Nat) : Int) := by
    rw [framesSinceUnderrun, framesSince_eq]
    split
    · rfl
    · rfl
  have hvalue : out.played.clock.value (outGetSampleRate out) 1000000 (now / 1000) =
      out.underrunPosition + framesSinceUnderrun out now := by
    rw [RateClock.value, played_elapsed]
    rfl
  have hlt := framesSinceUnderrun_lt hfits
  have hwritten := hfits.1
  have hposition : toSize (out.underrunPosition + framesSinceUnderrun out now : Int) =
      out.underrunPosition + framesSinceUnderrun out now := by
    rw [← Int.natCast_add]
    apply toSize_natCast
    omega
  rw [getCurrentOutputPosition, SuppliedClock.look, SuppliedClock.shown, hvalue, hsince, hposition]
  by_cases hunder : out.underrunPosition + framesSinceUnderrun out now > out.framesWritten
  · simp only [if_pos hunder]
    rw [if_pos (show out.played.supply < _ from hunder)]
    exact ⟨rfl, (min_eq_left hunder.le).symm⟩
  · simp only [if_neg hunder]
    rw [if_neg (show ¬ out.played.supply < _ from hunder)]
    exact ⟨rfl, (min_eq_right (Nat.le_of_not_lt hunder)).symm⟩

/-- The position is that of the clock, up to the frames written. -/
theorem getCurrentOutputPosition_position {out : GenericStreamOut} {now : Nat}
    (hbase : out.underrunPosition ≤ out.framesWritten) (hfits : PositionFits out (some now)) :
    (getCurrentOutputPosition out now).2 =
      min out.framesWritten (out.underrunPosition + framesSinceUnderrun out now) := by
  rw [(getCurrentOutputPosition_played hbase hfits).2, SuppliedClock.shown, RateClock.value, played_elapsed]
  rfl

/-! ### Sections as steps of the counter -/

/-- `out_write` looks at the counter and starts it. -/
theorem outWriteEnter_played {out : GenericStreamOut} {now : Nat} (frames : Nat)
    (hbase : out.underrunPosition ≤ out.framesWritten) (hfits : PositionFits out (some now)) :
    (outWriteEnter out now frames).1.played =
      ⟨(out.played.look (outGetSampleRate out) 1000000 (now / 1000)).clock.begin (now / 1000), out.framesWritten⟩ := by
  have hawake : PositionFits { out with workerStandby := false } (some now) := hfits
  have hlook : (getCurrentOutputPosition { out with workerStandby := false } now).1.played =
      out.played.look (outGetSampleRate out) 1000000 (now / 1000) :=
    (getCurrentOutputPosition_played (by exact hbase) hawake).1
  have hsupply : (getCurrentOutputPosition { out with workerStandby := false } now).1.framesWritten =
      out.framesWritten := by
    have hcongr := congrArg SuppliedClock.supply hlook
    rwa [SuppliedClock.look_supply] at hcongr
  rw [← hlook, outWriteEnter, RateClock.begin]
  generalize (getCurrentOutputPosition { out with workerStandby := false } now).1 = current at hsupply ⊢
  by_cases hstandby : current.standby
  · simp only [if_pos hstandby]
    rw [if_neg (show ¬ current.played.clock.running = true by simp [GenericStreamOut.played, hstandby]), ← hsupply]
    rfl
  · simp only [if_neg hstandby]
    rw [if_pos (show current.played.clock.running = true by simp [GenericStreamOut.played, hstandby]), ← hsupply]
    rfl

theorem doOutStandbyTurn_played {out : GenericStreamOut} {now : Nat}
    (hbase : out.underrunPosition ≤ out.framesWritten) (hfits : PositionFits out (some now)) :
    (doOutStandbyTurn out now).1.played =
      { out.played with
        clock := { (out.played.look (outGetSampleRate out) 1000000 (now / 1000)).clock with
          base := out.played.shown (outGetSampleRate out) 1000000 (now / 1000) } } := by
  obtain ⟨hlook, hshown⟩ := getCurrentOutputPosition_played hbase hfits
  have hsupply := congrArg SuppliedClock.supply hlook
  rw [SuppliedClock.look_supply] at hsupply
  rw [← hlook, ← hshown]
  calc (doOutStandbyTurn out now).1.played
      = ⟨{ (getCurrentOutputPosition out now).1.played.clock with base := (getCurrentOutputPosition out now).2 },
          (getCurrentOutputPosition out now).1.played.supply⟩ := rfl
    _ = _ := by rw [hsupply]

theorem outWriteDone_played {out : GenericStreamOut} {frames : Nat} (hwritten : out.framesWritten < 2 ^ 63)
    (hframes : frames < 2 ^ 63) :
    (outWriteDone out frames).played = { out.played with supply := out.played.supply + frames } := by
  have hsum : (out.framesWritten + frames) % sizeMod = out.framesWritten + frames := by
    apply Nat.mod_eq_of_lt
    rw [sizeMod]
    omega
  calc (outWriteDone out frames).played
      = { out.played with supply := (out.framesWritten + frames) % sizeMod } := rfl
    _ = _ := by rw [hsum]; rfl

/-- A turn of the store loop supplies the frames of a call that returns. -/
theorem storeLoop_played {out : GenericStreamOut} {c : WriteCall} {r : Section ClientPc}
    (hwritten : out.framesWritten < 2 ^ 63) (hframes : c.frames < 2 ^ 63) (h : storeLoop out c = some r) :
    ∃ n, r.out.played = { out.played with supply := out.played.supply + n } ∧ positionReports r.events = [] := by
  rw [storeLoop] at h
  split at h
  · cases h
  rename_i out' c' hstore
  obtain ⟨hout, hcall⟩ := WriteCall.store_view hstore
  have hsame : out'.played = out.played := by rw [hout]; rfl
  have hcounter : out'.framesWritten = out.framesWritten := by rw [hout]
  have hlength : c'.frames = c.frames := by rw [hcall]
  by_cases hmore : c'.framesWritten < c'.frames
  · simp only [if_pos hmore] at h
    cases h
    exact ⟨0, hsame, rfl⟩
  · simp only [if_neg hmore] at h
    cases h
    refine ⟨c'.frames, ?_, rfl⟩
    rw [← hsame]
    exact outWriteDone_played (by rwa [hcounter]) (by rwa [hlength])

theorem storeSection_played {out : GenericStreamOut} {buffer : Nat → UInt8} {bytes : Nat} {env : WriteEnv}
    {r : Section ClientPc} (hwritten : out.framesWritten < 2 ^ 63) (hframes : bytes / audioStreamOutFrameSize out < 2 ^ 63)
    (h : storeSection out buffer bytes env = some r) :
    ∃ n, r.out.played = { out.played with supply := out.played.supply + n } ∧ positionReports r.events = [] := by
  rw [storeSection] at h
  by_cases hmuted : env.muted
  · rw [if_pos hmuted] at h
    cases h
    exact ⟨_, outWriteDone_played hwritten hframes, rfl⟩
  · rw [if_neg hmuted] at h
    split at h
    · cases h
    · rename_i c hstart
      exact storeLoop_played hwritten (lt_trans (startStore_sound hstart).frames_lt (by decide)) h

/-- The frames that a client's `out_write` in progress will add to `frames_written` fit its counter. -/
structure CallFits (pc : ClientPc) : Prop where
  sleeping : ∀ buffer bytes, pc = .writeSleeping buffer bytes → bytes < 2 ^ 64
  waiting : ∀ c woken, pc = .writeWaiting c woken → c.frames < 2 ^ 63

theorem standbyLoop_played {out : GenericStreamOut} {now : Nat} (closing : Bool) {slips : Prop}
    (hbase : out.underrunPosition ≤ out.framesWritten) (hfits : PositionFits out (some now))
    (hslips : (doOutStandbyTurn out now).2 ≠ 0 → slips) :
    SuppliedClock.Step (outGetSampleRate out) 1000000 slips out.played (now / 1000)
        (standbyLoop out closing now).out.played [] ∧ (standbyLoop out closing now).events = [] := by
  have hturn := doOutStandbyTurn_played hbase hfits
  rw [standbyLoop]
  by_cases hdone : (doOutStandbyTurn out now).2 = 0
  · rw [if_pos hdone]
    have hstop : (doOutStandbyDone (doOutStandbyTurn out now).1).played =
        { out.played with
          clock := (out.played.look (outGetSampleRate out) 1000000 (now / 1000)).clock.stop
            (out.played.shown (outGetSampleRate out) 1000000 (now / 1000)) } := by
      calc (doOutStandbyDone (doOutStandbyTurn out now).1).played
          = { (doOutStandbyTurn out now).1.played with
              clock := { (doOutStandbyTurn out now).1.played.clock with running := false } } := rfl
        _ = _ := by rw [hturn]; rfl
    have hend : (standbyEnd (doOutStandbyDone (doOutStandbyTurn out now).1) closing).out.played =
        (doOutStandbyDone (doOutStandbyTurn out now).1).played ∧
        (standbyEnd (doOutStandbyDone (doOutStandbyTurn out now).1) closing).events = [] := by
      cases closing with
      | true => exact ⟨rfl, rfl⟩
      | false => exact ⟨rfl, rfl⟩
    refine ⟨?_, hend.2⟩
    rw [hend.1, hstop]
    exact .stopped
  · rw [if_neg hdone]
    refine ⟨?_, rfl⟩
    show SuppliedClock.Step _ _ _ _ _ (doOutStandbyTurn out now).1.played []
    rw [hturn]
    exact .slipped (hslips hdone)

/-- The section of `out_write` up to its sleep, its first wait or its return. -/
theorem writeSection_played {out : GenericStreamOut} {buffer : Nat → UInt8} {bytes now : Nat} {env : WriteEnv}
    {r : Section ClientPc} {slips : Prop} (hbase : out.underrunPosition ≤ out.framesWritten)
    (hfits : PositionFits out (some now)) (hframes : bytes / audioStreamOutFrameSize out < 2 ^ 63)
    (h : writeSection out buffer bytes now env = some r) :
    SuppliedClock.Step (outGetSampleRate out) 1000000 slips out.played (now / 1000) r.out.played [] ∧
      positionReports r.events = [] := by
  have hentered := outWriteEnter_played (bytes / audioStreamOutFrameSize out) hbase hfits
  rw [writeSection] at h
  by_cases hsleep : (outWriteEnter out now (bytes / audioStreamOutFrameSize out)).2 > 0
  · simp only [if_pos hsleep] at h
    cases h
    refine ⟨?_, rfl⟩
    rw [hentered]
    exact .begun 0
  · simp only [if_neg hsleep] at h
    have hview := (outWriteEnter_view out now (bytes / audioStreamOutFrameSize out)).1
    have hcounter := congrArg SuppliedClock.supply hentered
    obtain ⟨n, hplayed, hsilent⟩ := storeSection_played (by exact hcounter.trans_lt hfits.1)
      (by rw [audioStreamOutFrameSize, hview.reqConfig]; exact hframes) h
    refine ⟨?_, hsilent⟩
    rw [hplayed, hentered]
    exact .begun n

/-- Every section of a client is a step of the counter. Only a turn that goes on to sleep may slip. -/
theorem clientSection_played {out : GenericStreamOut} {pc : ClientPc} {l : ClientLabel} {r : Section ClientPc}
    {now : Nat} (hbase : out.underrunPosition ≤ out.framesWritten) (hfits : PositionFits out l.reading)
    (hcall : CallFits pc) (hsize : 2 ≤ audioStreamOutFrameSize out) (hnow : ∀ first ∈ l.reading, first = now)
    (h : clientSection out pc l = some r) :
    ∃ shows, SuppliedClock.Step (outGetSampleRate out) 1000000 (Drains out pc l) out.played (now / 1000) r.out.played
        shows ∧ positionReports r.events = shows.map fun v => (v, now / 1000) := by
  have hwritten := hfits.1
  have hframes : ∀ bytes < 2 ^ 64, bytes / audioStreamOutFrameSize out < 2 ^ 63 := by
    intro bytes hbytes
    calc bytes / audioStreamOutFrameSize out ≤ bytes / 2 := Nat.div_le_div_left hsize (by decide)
      _ < 2 ^ 63 := by omega
  have hsupply : ∀ n, r.out.played = { out.played with supply := out.played.supply + n } →
      SuppliedClock.Step (outGetSampleRate out) 1000000 (Drains out pc l) out.played (now / 1000) r.out.played [] := by
    intro n hplayed
    rw [hplayed]
    exact .supplied n
  unfold clientSection at h
  split at h
  · rename_i buffer bytes first env
    obtain rfl : first = now := hnow first rfl
    obtain ⟨hstep, hsilent⟩ := writeSection_played hbase hfits (hframes _ bytes.toNat_lt) h
    exact ⟨[], hstep, hsilent⟩
  · obtain ⟨n, hplayed, hsilent⟩ := storeSection_played hwritten (hframes _ (hcall.sleeping _ _ rfl)) h
    exact ⟨[], hsupply n hplayed, hsilent⟩
  · obtain ⟨n, hplayed, hsilent⟩ := storeLoop_played hwritten (hcall.waiting _ _ rfl) h
    exact ⟨[], hsupply n hplayed, hsilent⟩
  · cases h
    exact ⟨[], .kept, rfl⟩
  · rename_i closing first
    obtain rfl : first = now := hnow first rfl
    by_cases hstandby : out.standby
    · rw [if_pos hstandby] at h
      cases h
      refine ⟨[], ?_, ?_⟩
      · cases closing with
        | true => exact .kept
        | false => exact .kept
      · cases closing with
        | true => rfl
        | false => rfl
    · rw [if_neg hstandby] at h
      obtain ⟨hstep, hsilent⟩ := standbyLoop_played closing hbase hfits
        (fun hmore => (⟨first, by simp [standbyTurn, hstandby], hmore⟩ : Drains out .idle (.standby closing first)))
      rw [← Option.some.inj h]
      exact ⟨[], hstep, by rw [hsilent]; rfl⟩
  · rename_i closing first
    obtain rfl : first = now := hnow first rfl
    obtain ⟨hstep, hsilent⟩ := standbyLoop_played closing hbase hfits
      (fun hmore => (⟨first, rfl, hmore⟩ : Drains out (.standbySleeping closing) (.standbySlept first)))
    rw [← Option.some.inj h]
    exact ⟨[], hstep, by rw [hsilent]; rfl⟩
  · rename_i first
    obtain rfl : first = now := hnow first rfl
    obtain ⟨hlook, hshown⟩ := getCurrentOutputPosition_played hbase hfits
    cases h
    refine ⟨[(getCurrentOutputPosition out first).2], ?_, rfl⟩
    rw [hlook, hshown]
    exact .looked
  · cases h

end Trout.Audio

import Trout.Runs
import Trout.SetParameters

/-! The mixer's control for the hands-free profile, over whole runs. The device remembers what it has told the mixer, and
tells it only what changes: however calls and failures of the mixer follow each other, the profile is started and
stopped in turns, and `hfp_running` is what the control has last been set to. -/

namespace Trout.Audio
open Runs

/-! ### What the mixer is told -/

/-- A call of `adev_set_parameters`, with the mixer as it finds it. -/
structure SetParametersCall where
  mixer : MixerControls
  strParms : StrParms

def setParametersStep (hfpEnabled : Bool) (adev : DeviceParameters) (call : SetParametersCall) :
    Option (DeviceParameters × List MixerCommand) :=
  let r := adevSetParameters hfpEnabled call.mixer adev call.strParms
  some (r.1, r.2.2)

/-- The values that the control of the profile has been set to. -/
def enableValues (commands : List MixerCommand) : List Int :=
  (commands.filter fun command => command.name = parameterHfpEnable).map MixerCommand.value

/-- Start and stop in turns. -/
def inTurns (n : Nat) : List Int := (List.range n).map fun k => if k % 2 = 0 then 1 else 0

/-! ### One call -/

theorem enableValues_append (before after : List MixerCommand) :
    enableValues (before ++ after) = enableValues before ++ enableValues after := by
  rw [enableValues, List.filter_append, List.map_append]
  rfl

theorem enableValues_other {commands : List MixerCommand} (h : ∀ command ∈ commands, command.name ≠ parameterHfpEnable) :
    enableValues commands = [] := by
  rw [enableValues, List.filter_eq_nil_iff.mpr fun command hcommand => by simpa using h command hcommand]
  rfl

theorem setControl_commands (mixer : MixerControls) (name : String) (value : Int) :
    (setControl mixer name value).2 =
      if (setControl mixer name value).1 < 0 then [] else [⟨name, value⟩] := by
  rw [setControl]
  cases mixer.find name with
  | false => rfl
  | true => cases mixer.takes name value <;> rfl

/-- A part that sets a number leaves the other controls alone. -/
theorem hfpNumberParameter_name {mixer : MixerControls} {strParms : StrParms} {key name : String} :
    ∀ command ∈ (hfpNumberParameter strParms key (setControl mixer name)).2, command.name = name := by
  intro command hcommand
  simp only [hfpNumberParameter] at hcommand
  split at hcommand
  · rw [setControl_commands] at hcommand
    split at hcommand
    · cases hcommand
    · rw [List.mem_singleton.mp hcommand]
  · cases hcommand

/-- The profile is switched over with one command, or neither changes. -/
inductive Switched (running running' : Bool) (values : List Int) : Prop where
  | stays (same : running' = running) (silent : values = [])
  | switches (other : running' = !running) (value : values = [running'.toInt])

theorem hfpSetEnable_switched {mixer : MixerControls} {adev : DeviceParameters} {enable : Bool}
    (hother : adev.hfpRunning = !enable) :
    Switched adev.hfpRunning (hfpSetEnable mixer adev enable).1.hfpRunning
      (enableValues (hfpSetEnable mixer adev enable).2.2) := by
  have hcommands := setControl_commands mixer parameterHfpEnable enable.toInt
  rw [hfpSetEnable]
  by_cases hfails : (setControl mixer parameterHfpEnable enable.toInt).1 < 0
  · rw [if_pos hfails] at hcommands
    rw [if_pos hfails, hcommands]
    exact .stays rfl rfl
  · rw [if_neg hfails] at hcommands
    rw [if_neg hfails, hcommands]
    exact .switches (by rw [hother, Bool.not_not]) rfl

theorem hfpEnable_switched (mixer : MixerControls) (adev : DeviceParameters) (strParms : StrParms) :
    Switched adev.hfpRunning (hfpEnableParameter mixer adev strParms).1.hfpRunning
      (enableValues (hfpEnableParameter mixer adev strParms).2.2) := by
  simp only [hfpEnableParameter]
  split
  · split
    · split
      · rename_i hstopped
        exact hfpSetEnable_switched hstopped
      · exact .stays rfl rfl
    · split
      · rename_i hstarted
        exact hfpSetEnable_switched hstarted
      · exact .stays rfl rfl
  · exact .stays rfl rfl

/-- The sampling rate and the volume go to controls of their own and leave the profile alone. -/
theorem audioExtnHfpSetParameters_enable (mixer : MixerControls) (adev : DeviceParameters) (strParms : StrParms) :
    (audioExtnHfpSetParameters mixer adev strParms).1 = (hfpEnableParameter mixer adev strParms).1 ∧
      enableValues (audioExtnHfpSetParameters mixer adev strParms).2.2 =
        enableValues (hfpEnableParameter mixer adev strParms).2.2 := by
  have hrate : enableValues
      (hfpNumberParameter strParms parameterHfpSetSamplingRate (hfpSetSamplingRate mixer)).2 = [] :=
    enableValues_other fun command hcommand => by
      rw [hfpNumberParameter_name command hcommand]
      decide
  have hvolume : enableValues (hfpNumberParameter strParms parameterHfpVolume (hfpSetVolume mixer)).2 = [] :=
    enableValues_other fun command hcommand => by
      rw [hfpNumberParameter_name command hcommand]
      decide
  simp only [audioExtnHfpSetParameters]
  split
  · exact ⟨rfl, rfl⟩
  · split
    · exact ⟨rfl, by rw [enableValues_append, hrate, List.append_nil]⟩
    · exact ⟨rfl, by rw [enableValues_append, enableValues_append, hrate, hvolume, List.append_nil, List.append_nil]⟩

theorem adevSetParameters_switched (hfpEnabled : Bool) (mixer : MixerControls) (adev : DeviceParameters)
    (strParms : StrParms) :
    Switched adev.hfpRunning (adevSetParameters hfpEnabled mixer adev strParms).1.hfpRunning
      (enableValues (adevSetParameters hfpEnabled mixer adev strParms).2.2) := by
  simp only [adevSetParameters]
  generalize hselected : (if 0 ≤ (getIntValue strParms parameterSelectedZone 0).1 then
    { adev with lastZoneSelectedToPlay := (getIntValue strParms parameterSelectedZone 0).2 } else adev) = selected
  have hrunning : adev.hfpRunning = selected.hfpRunning := by
    rw [← hselected]
    split <;> rfl
  rw [hrunning]
  cases hfpEnabled with
  | false => exact .stays rfl rfl
  | true =>
      obtain ⟨hsame, hvalues⟩ := audioExtnHfpSetParameters_enable mixer selected strParms
      rw [if_pos rfl, hsame, hvalues]
      exact hfpEnable_switched mixer selected strParms

/-! ### Runs -/

theorem inTurns_succ (n : Nat) : inTurns (n + 1) = inTurns n ++ [if n % 2 = 0 then 1 else 0] := by
  rw [inTurns, List.range_succ, List.map_append]
  rfl

/-- In every run from the opening of the device on, whatever the calls say and whichever commands fail, the control of the
profile is started and stopped in turns, and the device knows which of the two was the last. -/
theorem profile_in_turns {hfpEnabled : Bool} {zone : Int} {calls : List SetParametersCall} {adev : DeviceParameters}
    {commands : List MixerCommand}
    (hrun : exec (setParametersStep hfpEnabled) ⟨zone, false⟩ calls = some (adev, commands)) :
    ∃ n, enableValues commands = inTurns n ∧ adev.hfpRunning = decide (n % 2 = 1) := by
  refine exec_history (fun h adev => ∃ n, enableValues h = inTurns n ∧ adev.hfpRunning = decide (n % 2 = 1))
    (fun h adev call adev' es hI hstep => ?_) ⟨0, rfl, rfl⟩ hrun
  obtain ⟨n, hvalues, hrunning⟩ := hI
  cases hstep
  rw [enableValues_append, hvalues]
  have hswitched := adevSetParameters_switched hfpEnabled call.mixer adev call.strParms
  generalize (adevSetParameters hfpEnabled call.mixer adev call.strParms).1 = adev' at hswitched ⊢
  rcases hswitched with ⟨same, silent⟩ | ⟨other, value⟩
  · exact ⟨n, by rw [silent, List.append_nil], same.trans hrunning⟩
  · have hnext : adev'.hfpRunning = decide ((n + 1) % 2 = 1) := by
      rw [other, hrunning]
      by_cases heven : n % 2 = 0
      · rw [decide_eq_false (by omega), decide_eq_true (by omega)]
        rfl
      · rw [decide_eq_true (by omega), decide_eq_false (by omega)]
        rfl
    refine ⟨n + 1, ?_, hnext⟩
    rw [inTurns_succ, value, hnext]
    by_cases heven : n % 2 = 0
    · rw [if_pos heven, decide_eq_true (by omega)]
      rfl
    · rw [if_neg heven, decide_eq_false (by omega)]
      rfl

/-- The key of the profile with a value. -/
def hfpEnableParms (text : String) : StrParms := fun key => if key = parameterHfpEnable then some text.toList else none

/-- A mixer that takes every value. -/
def willingMixer : MixerControls := ⟨fun _ => true, fun _ _ => true⟩

theorem profile_in_turns_repeated : ∃ adev commands n,
    exec (setParametersStep true) ⟨1, false⟩ [⟨willingMixer, hfpEnableParms "true"⟩, ⟨willingMixer, hfpEnableParms "true"⟩,
      ⟨⟨fun _ => true, fun _ _ => false⟩, hfpEnableParms "off"⟩, ⟨willingMixer, hfpEnableParms "off"⟩,
      ⟨willingMixer, hfpEnableParms "true"⟩] = some (adev, commands) ∧
      enableValues commands = [1, 0, 1] ∧ enableValues commands = inTurns n ∧ adev.hfpRunning = decide (n % 2 = 1) := by
  obtain ⟨adev, commands, hrun, hvalues⟩ : ∃ adev commands,
      exec (setParametersStep true) ⟨1, false⟩ [⟨willingMixer, hfpEnableParms "true"⟩,
        ⟨willingMixer, hfpEnableParms "true"⟩, ⟨⟨fun _ => true, fun _ _ => false⟩, hfpEnableParms "off"⟩,
        ⟨willingMixer, hfpEnableParms "off"⟩, ⟨willingMixer, hfpEnableParms "true"⟩] = some (adev, commands) ∧
        enableValues commands = [1, 0, 1] := ⟨_, _, rfl, rfl⟩
  obtain ⟨n, hturns, hrunning⟩ := profile_in_turns hrun
  exact ⟨adev, commands, n, hrun, hvalues, hturns, hrunning⟩

end Trout.Audio

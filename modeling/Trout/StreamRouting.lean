import Trout.IntegerParameters
import Trout.Runs

/-! The routing of a stream: `out_set_parameters`, `out_get_parameters` and the same two of an input stream. The number
of the devices goes in as text and comes out as text, is set in standby only, and what is reported can be set again. A
text of parameters is the map from keys to values that `str_parms_create_str` makes of it: `str_parms_add_int` puts in a
number in decimal, and what `str_parms_to_str` prints is read as the map that it has been printed from. -/

namespace Trout.Audio
open CInt CString Runs

/-! ### Parameters -/

/-- `AUDIO_PARAMETER_STREAM_ROUTING` -/
def parameterStreamRouting : String := "routing"

/-- The fields of `struct generic_stream_out` and of `struct generic_stream_in` that their parameters use. -/
structure RoutedStream where
  /-- `audio_devices_t` -/
  device : UInt32
  standby : Bool
  deriving DecidableEq

/-- What the two functions that set parameters share. -/
def setParameters (stream : RoutedStream) (parms : StrParms) : RoutedStream × Int :=
  if stream.standby = false then
    (stream, -Errno.enosys.number)
  else
    let ret := getIntValue parms parameterStreamRouting 0
    if 0 ≤ ret.1 then ({ stream with device := UInt32.ofNat (toUint ret.2) }, 0) else (stream, ret.1)

def outSetParameters (out : RoutedStream) (parms : StrParms) : RoutedStream × Int := setParameters out parms

def inSetParameters (inp : RoutedStream) (parms : StrParms) : RoutedStream × Int := setParameters inp parms

/-- `str_parms_add_int` on parameters without values -/
def strParmsOfInt (key : String) (v : Int) : StrParms := fun other => if other = key then some (formatInt v) else none

/-- What the two functions that report parameters share: the reply, or the query itself. -/
def getParameters (stream : RoutedStream) (query : StrParms) : StrParms :=
  if 0 ≤ (strParmsGetStr query parameterStreamRouting 256).1 then
    strParmsOfInt parameterStreamRouting (toInt (stream.device.toNat : Nat))
  else
    query

def outGetParameters (out : RoutedStream) (query : StrParms) : StrParms := getParameters out query

def inGetParameters (inp : RoutedStream) (query : StrParms) : StrParms := getParameters inp query

/-! ### Round trips -/

/-- What is added as an integer is read as that integer. -/
theorem getIntValue_strParmsOfInt (key : String) {v : Int} (hlow : -2 ^ 31 ≤ v) (hhigh : v < 2 ^ 31) (returnValue : Int) :
    getIntValue (strParmsOfInt key v) key returnValue = (((formatInt v).length : Int), v) := by
  have hpresent : strParmsOfInt key v key = some (formatInt v) := if_pos rfl
  have hshort : (formatInt v).length ≤ 11 := formatInt_length (by omega)
  have hread : ReadsAsInt ((formatInt v).take (sizeOfParseBuffer - 1)) v := by
    rw [List.take_of_length_le (by rw [sizeOfParseBuffer]; omega)]
    exact ⟨formatInt_numeral v, hlow, hhigh⟩
  have hne : formatInt v ≠ [] := fun hempty => not_readsAsInt_nil v (by rwa [hempty] at hread)
  rcases getIntValue_present hpresent hne returnValue with ⟨w, hw, heq⟩ | ⟨hunread, -⟩
  · rw [heq, hw.unique hread]
  · exact absurd hread (hunread v)

/-- The number of the devices goes through `int` and back. -/
theorem device_roundTrip (device : UInt32) : UInt32.ofNat (toUint (toInt (device.toNat : Nat))) = device := by
  have hlt : device.toNat < 2 ^ 32 := device.toNat_lt
  have hsame : toUint (toInt (device.toNat : Nat)) = device.toNat := by
    simp only [toUint, toInt, Int.bmod, uintMod]
    omega
  rw [hsame, UInt32.ofNat_toNat]

/-- A reply can be set on a stream in standby: it then has the devices of the stream that has replied. -/
theorem setParameters_getParameters {stream other : RoutedStream} {query : StrParms}
    (hquery : query parameterStreamRouting ≠ none) (hstandby : other.standby = true) :
    setParameters other (getParameters stream query) = ({ other with device := stream.device }, 0) := by
  obtain ⟨value, hvalue⟩ := Option.ne_none_iff_exists'.mp hquery
  have hreply : getParameters stream query = strParmsOfInt parameterStreamRouting (toInt (stream.device.toNat : Nat)) := by
    rw [getParameters, strParmsGetStr, hvalue, if_pos (Int.natCast_nonneg _)]
  have hrange : -2 ^ 31 ≤ toInt (stream.device.toNat : Nat) ∧ toInt (stream.device.toNat : Nat) < 2 ^ 31 := by
    simp only [toInt, Int.bmod, uintMod]
    omega
  have hread := getIntValue_strParmsOfInt parameterStreamRouting hrange.1 hrange.2 0
  have hactive : ¬ other.standby = false := by
    rw [hstandby]
    exact Bool.noConfusion
  rw [hreply, setParameters, if_neg hactive, hread]
  dsimp only
  rw [if_pos (Int.natCast_nonneg _), device_roundTrip]

/-! ### Runs -/

inductive RoutingLabel where
  | setParameters (parms : StrParms)
  | getParameters (query : StrParms)
  /-- The stream is put into standby or leaves it. -/
  | standby (standby : Bool)

inductive RoutingEvent where
  | set (parms : StrParms) (result : Int)
  | reply (query reply : StrParms)

def routingStep (s : RoutedStream) : RoutingLabel → Option (RoutedStream × List RoutingEvent)
  | .setParameters parms => some ((setParameters s parms).1, [.set parms (setParameters s parms).2])
  | .getParameters query => some (s, [.reply query (getParameters s query)])
  | .standby standby => some ({ s with standby := standby }, [])

/-- The devices that a call has set, if it has succeeded. -/
def RoutingEvent.device? : RoutingEvent → Option UInt32
  | .set parms result =>
      if result = 0 then some (UInt32.ofNat (toUint (getIntValue parms parameterStreamRouting 0).2)) else none
  | .reply _ _ => none

/-- A reply tells of the devices that have been set last. -/
def Reports (device : UInt32) (before : List RoutingEvent) (event : RoutingEvent) : Prop :=
  ∀ query reply, event = .reply query reply → query parameterStreamRouting ≠ none → ∀ other : RoutedStream,
    other.standby = true →
      setParameters other reply = ({ other with device := lastSet RoutingEvent.device? device before }, 0)

theorem setParameters_device (stream : RoutedStream) (parms : StrParms) :
    (setParameters stream parms).1.device =
      ((RoutingEvent.set parms (setParameters stream parms).2).device?).getD stream.device := by
  rw [setParameters]
  by_cases hactive : stream.standby = false
  · rw [if_pos hactive]
    rfl
  · rw [if_neg hactive]
    dsimp only
    by_cases haccepted : 0 ≤ (getIntValue parms parameterStreamRouting 0).1
    · rw [if_pos haccepted]
      rfl
    · rw [if_neg haccepted]
      have hfailed : (getIntValue parms parameterStreamRouting 0).1 ≠ 0 := by
        omega
      rw [RoutingEvent.device?, if_neg hfailed]
      rfl

/-- In every run a stream reports the devices that have last been set with success, and what it reports can be set on
any stream in standby. -/
theorem routing_reported {stream s : RoutedStream} {labels : List RoutingLabel} {events : List RoutingEvent}
    (hrun : exec routingStep stream labels = some (s, events)) : Throughout (Reports stream.device) events := by
  refine (exec_throughout (fun h s => s.device = lastSet RoutingEvent.device? stream.device h) _
    (fun h s l t es hI _ hstep => ?_) rfl (guarded_true _ labels) hrun).2
  cases l with
  | setParameters parms =>
      cases hstep
      refine ⟨?_, throughout_singleton fun query reply heq => by cases heq⟩
      rw [lastSet_append, ← hI]
      exact setParameters_device s parms
  | getParameters query =>
      cases hstep
      refine ⟨?_, throughout_singleton fun query' reply heq hquery other hstandby => ?_⟩
      · rw [lastSet_append, ← hI]
        rfl
      · cases heq
        rw [List.append_nil, ← hI]
        exact setParameters_getParameters hquery hstandby
  | standby standby =>
      cases hstep
      refine ⟨?_, throughout_nil _⟩
      rw [List.append_nil]
      exact hI

/-- The routing as the text of a number. -/
def routingParms (text : String) : StrParms := fun key => if key = parameterStreamRouting then some text.toList else none

/-- A stream is routed to device 2, cannot be routed again while it runs, and is asked. -/
def routedOnce : List RoutingLabel :=
  [.setParameters (routingParms " +2"), .standby false, .setParameters (routingParms "8"), .getParameters (routingParms "")]

theorem routing_reported_once : ∃ s events reply,
    exec routingStep ⟨4, true⟩ routedOnce = some (s, events ++ [.reply (routingParms "") reply]) ∧
      setParameters ⟨1, true⟩ reply = (⟨2, true⟩, 0) := by
  obtain ⟨s, events, reply, hrun, hlast⟩ : ∃ s events reply,
      exec routingStep ⟨4, true⟩ routedOnce = some (s, events ++ [.reply (routingParms "") reply]) ∧
        lastSet RoutingEvent.device? 4 events = 2 :=
    ⟨_, [.set (routingParms " +2") 0, .set (routingParms "8") (-38)], _, rfl, rfl⟩
  have hreported := routing_reported hrun events (.reply (routingParms "") reply) [] rfl (routingParms "") reply rfl
    (Option.some_ne_none _) ⟨1, true⟩ rfl
  rw [hlast] at hreported
  exact ⟨s, events, reply, hrun, hreported⟩

end Trout.Audio

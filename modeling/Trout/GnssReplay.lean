import Mathlib.Data.List.DropRight
import Mathlib.Data.List.GetD
import Trout.PrefixCode

/-! The replay of recorded GNSS lines: the two stores that `load` fills, and the command loop, which takes each chunk
that `recv` returns for one whole command. -/

namespace Trout.Gnss
open PrefixCode

/-- `str.strip('\n')`. -/
def stripNewlines (line : String) : String :=
  String.ofList ((line.toList.dropWhile (· = '\n')).rdropWhile (· = '\n'))

/-- `str.encode`. -/
def encode (text : String) : List UInt8 := text.toUTF8.data.toList

structure DataStore where
  idx : Nat
  lines : List String
  inRange : lines ≠ [] → idx < lines.length

/-- `DataStore.__init__`. -/
def DataStore.init (start : String) (lines : List String) : DataStore where
  idx := 0
  lines := (lines.filter fun line => start.toList <+: line.toList).map stripNewlines
  inRange h := List.length_pos_iff.mpr h

def DataStore.next (store : DataStore) : String × DataStore :=
  if h : store.lines ≠ [] then
    (store.lines.get ⟨store.idx, store.inRange h⟩,
      { store with
        idx := (store.idx + 1) % store.lines.length
        inRange := fun h => Nat.mod_lt _ (List.length_pos_iff.mpr h) })
  else
    ("", store)

structure Data where
  locations : DataStore
  measurements : DataStore

def load (lines : List String) : Data where
  locations := .init "Fix" lines
  measurements := .init "Raw" lines

inductive Command
  | getLocation
  | getRawMeasurement
  deriving DecidableEq, Repr

/-- The actions that `main` registers. -/
def Command.bytes : Command → List UInt8
  | .getLocation => encode "CMD_GET_LOCATION"
  | .getRawMeasurement => encode "CMD_GET_RAWMEASUREMENT"

/-- `commands.get`. -/
def commandsGet (inp : List UInt8) : Option Command :=
  if inp = Command.getLocation.bytes then some .getLocation
  else if inp = Command.getRawMeasurement.bytes then some .getRawMeasurement
  else none

/-- The reactions that `main` registers. -/
def Data.reaction (data : Data) : Command → String × Data
  | .getLocation =>
      let (line, locations) := data.locations.next
      (line, { data with locations })
  | .getRawMeasurement =>
      let (line, measurements) := data.measurements.next
      (line, { data with measurements })

def recvSize : Nat := 128

/-- What `recv` returns while the peer is there. -/
structure Chunk where
  inp : List UInt8
  notEmpty : inp ≠ []
  fits : inp.length ≤ recvSize

def endOfResponse : String := "\n\n\n\n"

/-- One iteration of `CommandLoop.loop`: what it sends. -/
def Data.respond (data : Data) (inp : List UInt8) : List UInt8 × Data :=
  match commandsGet inp with
  | some action =>
      let (line, data') := data.reaction action
      (encode (line ++ endOfResponse), data')
  | none => (encode endOfResponse, data)

/-- `CommandLoop.loop`: the messages that it sends for the chunks that it receives. -/
def commandLoop (data : Data) : List Chunk → List (List UInt8)
  | [] => []
  | chunk :: chunks => (data.respond chunk.inp).1 :: commandLoop (data.respond chunk.inp).2 chunks

/-! ### The lines of a store -/

/-- The line that a store gives after `k` more calls. -/
def DataStore.line (store : DataStore) (k : Nat) : String :=
  store.lines.getD ((store.idx + k) % store.lines.length) ""

theorem DataStore.next_fst (store : DataStore) : store.next.1 = store.line 0 := by
  rw [next, line]
  split
  · next h =>
    have hidx : (store.idx + 0) % store.lines.length = store.idx := Nat.mod_eq_of_lt (store.inRange h)
    rw [hidx, List.getD_eq_getElem _ _ (store.inRange h)]
    rfl
  · next h => rw [not_not.mp h, List.getD_nil]

theorem DataStore.next_line (store : DataStore) (k : Nat) : store.next.2.line k = store.line (k + 1) := by
  rw [next]
  split
  · simp only [line]
    rw [Nat.mod_add_mod, Nat.add_assoc, Nat.add_comm 1 k]
  · next h => simp only [line, not_not.mp h, List.getD_nil]

/-- The lines of a fresh store, in their order and over and over. -/
theorem DataStore.init_line (start : String) (lines : List String) (k : Nat) :
    (DataStore.init start lines).line k =
      (DataStore.init start lines).lines.getD (k % (DataStore.init start lines).lines.length) "" := by
  rw [line, show (DataStore.init start lines).idx = 0 from rfl, Nat.zero_add]

def Data.store (data : Data) : Command → DataStore
  | .getLocation => data.locations
  | .getRawMeasurement => data.measurements

theorem Data.reaction_fst (data : Data) (action : Command) : (data.reaction action).1 = (data.store action).line 0 := by
  cases action with
  | getLocation => exact data.locations.next_fst
  | getRawMeasurement => exact data.measurements.next_fst

/-- A reaction moves the store of its own command, and no other. -/
theorem Data.reaction_line (data : Data) (action other : Command) (k : Nat) :
    ((data.reaction action).2.store other).line k = (data.store other).line (if action = other then k + 1 else k) := by
  cases action <;> cases other
  · exact data.locations.next_line k
  · rfl
  · rfl
  · exact data.measurements.next_line k

/-! ### One iteration -/

theorem Command.bytes_prefixFree : PrefixFree (Set.range Command.bytes) where
  nil_notMem := by
    rintro ⟨action, h⟩
    cases action <;> exact absurd h (by decide)
  unique := by
    rintro _ ⟨action, rfl⟩ _ ⟨other, rfl⟩ h
    cases action <;> cases other
    · rfl
    · exact absurd h (by decide)
    · exact absurd h (by decide)
    · rfl

theorem Command.bytes_injective : Function.Injective Command.bytes := by
  intro action other h
  cases action <;> cases other
  · rfl
  · exact absurd h (by decide)
  · exact absurd h (by decide)
  · rfl

theorem commandsGet_eq_some {inp : List UInt8} {action : Command} :
    commandsGet inp = some action ↔ inp = action.bytes := by
  constructor
  · intro h
    rw [commandsGet] at h
    split_ifs at h with hlocation hmeasurement
    · rw [← Option.some.inj h, hlocation]
    · rw [← Option.some.inj h, hmeasurement]
  · rintro rfl
    cases action <;> rfl

theorem Data.respond_known (data : Data) (action : Command) :
    data.respond action.bytes =
      (encode ((data.store action).line 0 ++ endOfResponse), (data.reaction action).2) := by
  rw [respond, commandsGet_eq_some.mpr rfl, ← data.reaction_fst action]

theorem Data.respond_unknown (data : Data) {inp : List UInt8} (h : ∀ action : Command, inp ≠ action.bytes) :
    data.respond inp = (encode endOfResponse, data) := by
  have hnone : commandsGet inp = none := by
    rw [Option.eq_none_iff_forall_not_mem]
    intro action hmem
    exact h action (commandsGet_eq_some.mp hmem)
  rw [respond, hnone]

/-! ### The answers to a stream of commands -/

/-- What the `n`-th command of a stream is to be answered with, when it is `action`: the line of its kind whose number
is the number of commands of this kind before it, modulo the number of these lines. -/
def Data.answer (data : Data) (commands : List Command) (n : Nat) (action : Command) : List UInt8 :=
  let lines := (data.store action).lines
  encode (lines.getD ((commands.take n).count action % lines.length) "" ++ endOfResponse)

/-- Every command of the stream has one response, with its line. -/
def AnsweredOnce (data : Data) (commands : List Command) (responses : List (List UInt8)) : Prop :=
  responses.length = commands.length ∧
    ∀ n action, commands[n]? = some action → responses[n]? = some (data.answer commands n action)

theorem commandLoop_length (data : Data) (chunks : List Chunk) : (commandLoop data chunks).length = chunks.length := by
  induction chunks generalizing data with
  | nil => rfl
  | cons chunk chunks ih => rw [commandLoop, List.length_cons, ih, List.length_cons]

/-- A chunk that is no command is answered with the end of a response alone. -/
theorem commandLoop_unknown (data : Data) {chunks : List Chunk} {n : Nat} {chunk : Chunk} (hn : chunks[n]? = some chunk)
    (h : ∀ action : Command, chunk.inp ≠ action.bytes) : (commandLoop data chunks)[n]? = some (encode endOfResponse) := by
  induction chunks generalizing data n with
  | nil => exact absurd hn (by simp)
  | cons head chunks ih =>
      cases n with
      | zero =>
          obtain rfl : head = chunk := by simpa using hn
          rw [commandLoop, List.getElem?_cons_zero, data.respond_unknown h]
      | succ n =>
          rw [List.getElem?_cons_succ] at hn
          rw [commandLoop, List.getElem?_cons_succ, ih _ hn]

/-- When each chunk is one command, a command is answered with the line that its store gives after as many calls as
there are commands of its kind before it. -/
theorem commandLoop_known (data : Data) {chunks : List Chunk} {commands : List Command}
    (h : chunks.map Chunk.inp = commands.map Command.bytes) {n : Nat} {action : Command} (hn : commands[n]? = some action) :
    (commandLoop data chunks)[n]? =
      some (encode ((data.store action).line ((commands.take n).count action) ++ endOfResponse)) := by
  induction commands generalizing data chunks n with
  | nil => exact absurd hn (by simp)
  | cons command commands ih =>
      obtain ⟨chunk, rest, rfl, hchunk, hrest⟩ := List.map_eq_cons_iff.mp h
      rw [commandLoop, hchunk, data.respond_known]
      cases n with
      | zero =>
          obtain rfl : command = action := by simpa using hn
          rfl
      | succ n =>
          rw [List.getElem?_cons_succ] at hn
          rw [List.getElem?_cons_succ, ih _ hrest hn, data.reaction_line]
          -- the command in front counts when it is of the kind of the one that is asked for
          rw [List.take_succ_cons, List.count_cons]
          by_cases heq : command = action
          · rw [if_pos heq, if_pos (beq_iff_eq.mpr heq)]
          · rw [if_neg heq, if_neg (beq_eq_false_iff_ne.mpr heq ▸ Bool.false_ne_true), Nat.add_zero]

theorem chunks_eq_commands {chunks : List Chunk} (h : ∀ chunk ∈ chunks, ∃ action : Command, chunk.inp = action.bytes) :
    ∃ received : List Command, chunks.map Chunk.inp = received.map Command.bytes := by
  induction chunks with
  | nil => exact ⟨[], rfl⟩
  | cons chunk chunks ih =>
      obtain ⟨action, haction⟩ := h chunk List.mem_cons_self
      obtain ⟨received, hreceived⟩ := ih fun chunk hchunk => h chunk (List.mem_cons_of_mem _ hchunk)
      exact ⟨action :: received, by rw [List.map_cons, List.map_cons, haction, hreceived]⟩

/-! ### Lines that are not empty -/

theorem encode_injective : Function.Injective encode := by
  intro text text' h
  rw [encode, encode, Array.toList_inj] at h
  exact String.toByteArray_inj.mp (ByteArray.ext h)

theorem stripNewlines_ne_empty {line : String} {c : Char} (hc : c ∈ line.toList) (hnewline : c ≠ '\n') :
    stripNewlines line ≠ "" := by
  intro h
  have hnil : (line.toList.dropWhile (· = '\n')).rdropWhile (· = '\n') = [] := by
    rw [← String.toList_ofList (l := (line.toList.dropWhile (· = '\n')).rdropWhile (· = '\n'))]
    exact congrArg String.toList h
  have hdrop := List.rdropWhile_eq_nil_iff.mp hnil
  rw [← List.takeWhile_append_dropWhile (p := (· = '\n')) (l := line.toList), List.mem_append] at hc
  rcases hc with htake | hc
  · exact hnewline (of_decide_eq_true (List.mem_takeWhile_imp (p := (· = '\n')) htake))
  · exact hnewline (of_decide_eq_true (hdrop c hc))

/-- A store whose lines start with a character that is no newline gives a line that is not empty, if it has any. -/
theorem DataStore.init_line_ne_empty {start : String} {c : Char} (hstart : c ∈ start.toList) (hnewline : c ≠ '\n')
    {lines : List String} (hsome : ∃ line ∈ lines, start.toList <+: line.toList) (k : Nat) :
    (DataStore.init start lines).line k ≠ "" := by
  obtain ⟨given, hgiven, hgivenStart⟩ := hsome
  have hpos : 0 < (DataStore.init start lines).lines.length := by
    apply List.length_pos_of_mem
    exact List.mem_map_of_mem (List.mem_filter.mpr ⟨hgiven, decide_eq_true hgivenStart⟩)
  have hlt := Nat.mod_lt k hpos
  rw [init_line, List.getD_eq_getElem _ _ hlt]
  obtain ⟨line, hline, heq⟩ := List.mem_map.mp (List.getElem_mem hlt)
  rw [← heq]
  have hlineStart : start.toList <+: line.toList := of_decide_eq_true (List.mem_filter.mp hline).2
  exact stripNewlines_ne_empty (hlineStart.subset hstart) hnewline

section Replayed

variable {lines : List String} (hfix : ∃ line ∈ lines, "Fix".toList <+: line.toList)
  (hraw : ∃ line ∈ lines, "Raw".toList <+: line.toList)

include hfix hraw in
theorem load_line_ne_empty (action : Command) (k : Nat) : ((load lines).store action).line k ≠ "" := by
  cases action with
  | getLocation => exact DataStore.init_line_ne_empty (c := 'F') (by decide) (by decide) hfix k
  | getRawMeasurement => exact DataStore.init_line_ne_empty (c := 'R') (by decide) (by decide) hraw k

theorem load_answer (commands : List Command) (n : Nat) (action : Command) :
    (load lines).answer commands n action =
      encode (((load lines).store action).line ((commands.take n).count action) ++ endOfResponse) := by
  cases action with
  | getLocation => rw [Data.answer, show (load lines).store .getLocation = .init "Fix" lines from rfl, DataStore.init_line]
  | getRawMeasurement =>
      rw [Data.answer, show (load lines).store .getRawMeasurement = .init "Raw" lines from rfl, DataStore.init_line]

include hfix hraw in
theorem load_answer_ne_end (commands : List Command) (n : Nat) (action : Command) :
    (load lines).answer commands n action ≠ encode endOfResponse := by
  intro h
  rw [load_answer] at h
  have htext := congrArg String.toList (encode_injective h)
  rw [String.toList_append] at htext
  have hnil := List.append_left_eq_self.mp htext
  exact load_line_ne_empty hfix hraw action _ (String.toList_eq_nil_iff.mp hnil)

include hfix hraw in
/-- The commands of a stream are answered once each, with the lines of their kinds in turn, exactly when no chunk that
`recv` returns holds less or more than one command. -/
theorem replay_answers (commands : List Command) (chunks : List Chunk)
    (hstream : (chunks.map Chunk.inp).flatten = (commands.map Command.bytes).flatten) :
    AnsweredOnce (load lines) commands (commandLoop (load lines) chunks) ↔
      ∀ chunk ∈ chunks, ∃ action : Command, chunk.inp = action.bytes := by
  constructor
  · rintro ⟨hlength, hanswers⟩ chunk hchunk
    by_contra hunknown
    rw [commandLoop_length] at hlength
    obtain ⟨n, hn⟩ := List.mem_iff_getElem?.mp hchunk
    have hlt : n < commands.length := hlength ▸ (List.getElem?_eq_some_iff.mp hn).1
    have hresponse := hanswers n commands[n] (List.getElem?_eq_getElem hlt)
    rw [commandLoop_unknown _ hn fun action heq => hunknown ⟨action, heq⟩] at hresponse
    exact load_answer_ne_end hfix hraw commands n commands[n] (Option.some.inj hresponse).symm
  · intro hknown
    -- chunks that are commands are the commands of the stream, since these can be told apart
    obtain ⟨received, hreceived⟩ := chunks_eq_commands hknown
    obtain rfl : received = commands :=
      Command.bytes_prefixFree.decode_eq Command.bytes_injective (hreceived ▸ hstream)
    constructor
    · rw [commandLoop_length, ← List.length_map Chunk.inp, hreceived, List.length_map]
    · intro n action hn
      rw [load_answer]
      exact commandLoop_known _ hreceived hn

end Replayed

/-! ### A stream that is cut in another way -/

def Command.chunk (action : Command) : Chunk where
  inp := action.bytes
  notEmpty h := Command.bytes_prefixFree.nil_notMem ⟨action, h⟩
  fits := by cases action <;> decide

def recorded : List String := ["Raw,1\n", "Fix,1\n", "Fix,2\n", "Status\n"]

theorem recorded_answers :
    (([Command.getLocation, .getRawMeasurement, .getLocation].map Command.chunk).map Chunk.inp).flatten =
      ([Command.getLocation, .getRawMeasurement, .getLocation].map Command.bytes).flatten ∧
    (AnsweredOnce (load recorded) [.getLocation, .getRawMeasurement, .getLocation]
        (commandLoop (load recorded) ([Command.getLocation, .getRawMeasurement, .getLocation].map Command.chunk)) ↔
      ∀ chunk ∈ [Command.getLocation, .getRawMeasurement, .getLocation].map Command.chunk,
        ∃ action : Command, chunk.inp = action.bytes) :=
  ⟨by decide, replay_answers (by decide) (by decide) _ _ (by decide)⟩

/-- Two commands that one `recv` returns are answered as one unknown command, and a command that two of them return as
two. -/
theorem recut_commands_unanswered :
    (∃ chunk : Chunk, chunk.inp = Command.getLocation.bytes ++ Command.getRawMeasurement.bytes ∧
      commandLoop (load recorded) [chunk] = [encode endOfResponse] ∧
      ¬ AnsweredOnce (load recorded) [.getLocation, .getRawMeasurement] (commandLoop (load recorded) [chunk])) ∧
    ∃ chunk chunk' : Chunk, chunk.inp ++ chunk'.inp = Command.getLocation.bytes ∧
      commandLoop (load recorded) [chunk, chunk'] = [encode endOfResponse, encode endOfResponse] ∧
      ¬ AnsweredOnce (load recorded) [.getLocation] (commandLoop (load recorded) [chunk, chunk']) := by
  refine ⟨⟨⟨Command.getLocation.bytes ++ Command.getRawMeasurement.bytes, by decide, by decide⟩, rfl, ?_, ?_⟩,
    ⟨Command.getLocation.bytes.take 4, by decide, by decide⟩, ⟨Command.getLocation.bytes.drop 4, by decide, by decide⟩,
    List.take_append_drop 4 _, ?_, ?_⟩
  · decide
  · rintro ⟨hlength, -⟩
    exact absurd hlength (by decide)
  · decide
  · rintro ⟨hlength, -⟩
    exact absurd hlength (by decide)

end Trout.Gnss

import Trout.DhcpMessage

/-! The encoder of DHCP options and the lookup are inverse: what a message carries after its cookie is what
`getOption` finds. -/

namespace Trout.Dhcp
open RingWindow

/-! ### Bytes in memory -/

theorem poke_of_lt {mem : Nat → UInt8} {start a : Nat} {bytes : List UInt8} (h : a < start) :
    poke mem start bytes a = mem a := by
  rw [poke, if_neg (by omega)]

theorem poke_of_ge {mem : Nat → UInt8} {start a : Nat} {bytes : List UInt8} (h : start + bytes.length ≤ a) :
    poke mem start bytes a = mem a := by
  rw [poke, if_pos (by omega), List.getD_eq_default _ _ (by omega)]

theorem slice_poke_self (mem : Nat → UInt8) (start : Nat) (bytes : List UInt8) :
    slice (poke mem start bytes) start bytes.length = bytes := by
  apply List.ext_getElem (slice_length _ _ _)
  intro i hi hlt
  simp only [slice, List.getElem_map, List.getElem_range]
  rw [poke, if_pos (by omega), Nat.add_sub_cancel_left, List.getD_eq_getElem _ _ hlt]

theorem slice_poke_before {mem : Nat → UInt8} {at' start len : Nat} {bytes : List UInt8} (h : start + len ≤ at') :
    slice (poke mem at' bytes) start len = slice mem start len :=
  slice_congr fun _ hi => poke_of_lt (by omega)

theorem slice_poke_after {mem : Nat → UInt8} {at' start len : Nat} {bytes : List UInt8}
    (h : at' + bytes.length ≤ start) : slice (poke mem at' bytes) start len = slice mem start len :=
  slice_congr fun _ _ => poke_of_ge (by omega)

theorem word_of_bytes (x : UInt32) :
    x.toUInt8.toUInt32 ||| (x >>> 8).toUInt8.toUInt32 <<< 8 ||| (x >>> 16).toUInt8.toUInt32 <<< 16 |||
      (x >>> 24).toUInt8.toUInt32 <<< 24 = x := by
  apply UInt32.eq_of_toBitVec_eq
  ext i hi
  simp only [UInt32.toBitVec_or, UInt32.toBitVec_shiftLeft, UInt8.toBitVec_toUInt32, UInt32.toBitVec_toUInt8,
    UInt32.toBitVec_shiftRight, UInt32.toBitVec_ofNat, BitVec.ofNat_eq_ofNat, BitVec.reduceMod,
    BitVec.ushiftRight_eq', BitVec.toNat_ofNat, Nat.reducePow, Nat.reduceMod, BitVec.shiftLeft_eq', BitVec.getElem_or,
    BitVec.getElem_setWidth, BitVec.getLsbD_setWidth, BitVec.getElem_shiftLeft, BitVec.getLsbD_ushiftRight]
  grind

theorem load32_getD_bytes32 (x : UInt32) (rest : List UInt8) : load32 (fun a => (bytes32 x ++ rest).getD a 0) 0 = x :=
  word_of_bytes x

theorem slice_getD {mem : Nat → UInt8} {start len k : Nat} (h : k < len) : (slice mem start len).getD k 0 = mem (start + k) := by
  rw [List.getD_eq_getElem _ _ (by rwa [slice_length])]
  simp only [slice, List.getElem_map, List.getElem_range]

theorem load32_congr {mem mem' : Nat → UInt8} {i i' : Nat} (h : ∀ k < 4, mem (i + k) = mem' (i' + k)) :
    load32 mem i = load32 mem' i' := by
  have h0 : mem i = mem' i' := h 0 (by decide)
  rw [load32, load32, h0, h 1 (by decide), h 2 (by decide), h 3 (by decide)]

/-! ### The encoding -/

/-- An option as `addOption` takes it. -/
structure MessageOption where
  code : UInt8
  data : List UInt8

/-- Data that fits its length octet, under a code that does not end the options. -/
def MessageOption.Encodable (o : MessageOption) : Prop := o.code ≠ optEnd ∧ o.data.length ≤ 255

def MessageOption.bytes (o : MessageOption) : List UInt8 := o.code :: UInt8.ofNat o.data.length :: o.data

def encodeOptions (os : List MessageOption) : List UInt8 := os.flatMap MessageOption.bytes

/-- The data of the first option with the code. -/
def firstData (os : List MessageOption) (code : UInt8) : Option (List UInt8) :=
  (os.find? fun o => o.code == code).map MessageOption.data

theorem firstData_head (code : UInt8) (data : List UInt8) (os : List MessageOption) :
    firstData (⟨code, data⟩ :: os) code = some data := by
  simp [firstData]

theorem firstData_tail {code : UInt8} {o : MessageOption} (h : o.code ≠ code) (os : List MessageOption) :
    firstData (o :: os) code = firstData os code := by
  rw [firstData, List.find?_cons_of_neg (by rwa [beq_iff_eq]), firstData]

/-- The message for an operation, with these bytes in its options area. -/
structure Message.Carries (m : Message) (operation : UInt8) (bytes : List UInt8) : Prop where
  op : m.dhcpData 0 = operation
  htype : m.dhcpData 1 = htypeEther
  hlen : m.dhcpData 2 = ethAlen
  size : m.mSize = optionsOffset + bytes.length
  area : slice m.dhcpData optionsOffset bytes.length = bytes

namespace Message
variable {m : Message} {operation : UInt8} {bytes : List UInt8}

theorem Carries.append (h : m.Carries operation bytes) (more : List UInt8) :
    (m.append more).Carries operation (bytes ++ more) := by
  have hstart : 3 ≤ m.mSize := by rw [h.size, optionsOffset]; omega
  refine ⟨?_, ?_, ?_, ?_, ?_⟩
  · exact (poke_of_lt (by omega)).trans h.op
  · exact (poke_of_lt (by omega)).trans h.htype
  · exact (poke_of_lt (by omega)).trans h.hlen
  · rw [Message.append, h.size, List.length_append, Nat.add_assoc]
  · rw [Message.append, h.size, List.length_append, slice_add, slice_poke_before (le_refl _), h.area, slice_poke_self]

/-- A field between the first octets and the options is none of theirs. -/
theorem Carries.poke (h : m.Carries operation bytes) (offset : Nat) (field : List UInt8) (hstart : 3 ≤ offset)
    (hend : offset + field.length ≤ optionsOffset) :
    ({ m with dhcpData := poke m.dhcpData offset field } : Message).Carries operation bytes := by
  refine ⟨?_, ?_, ?_, h.size, ?_⟩
  · exact (poke_of_lt (by omega)).trans h.op
  · exact (poke_of_lt (by omega)).trans h.htype
  · exact (poke_of_lt (by omega)).trans h.hlen
  · rw [slice_poke_after hend, h.area]

theorem Carries.copyField (h : m.Carries operation bytes) (source : Message) (offset size : Nat) (hstart : 3 ≤ offset)
    (hend : offset + size ≤ optionsOffset) : (m.copyField source offset size).Carries operation bytes :=
  h.poke offset _ hstart (by rwa [slice_length])

theorem Carries.addOption {os : List MessageOption} (h : m.Carries operation (optCookie ++ encodeOptions os))
    (o : MessageOption) (hlen : o.data.length ≤ 255) :
    (m.addOption o.code o.data).Carries operation (optCookie ++ encodeOptions (os ++ [o])) := by
  have hsize : (UInt8.ofNat o.data.length).toNat = o.data.length := UInt8.toNat_ofNat_of_lt' (by rw [UInt8.size]; omega)
  have hbytes : optCookie ++ encodeOptions (os ++ [o]) = optCookie ++ encodeOptions os ++ o.bytes := by
    simp only [encodeOptions, List.flatMap_append, List.flatMap_singleton, List.append_assoc]
  rw [hbytes, Message.addOption, hsize, List.take_length]
  exact h.append o.bytes

theorem make_carries (operation : UInt8) (macAddress : Vector UInt8 6) (type : UInt8) (transactionId : UInt32) :
    (make operation macAddress type transactionId).Carries operation
      (optCookie ++ encodeOptions [⟨optMessageType, [type]⟩]) := by
  refine @Carries.append _ operation [] ⟨?_, ?_, ?_, rfl, rfl⟩ _
  all_goals
    dsimp only
    rw [poke_of_lt (by decide), poke_of_lt (by decide), poke_of_lt (by decide)]
    rfl

/-- The options of a list, appended one after the other. -/
def addOptions (m : Message) (os : List MessageOption) : Message := os.foldl (fun m o => m.addOption o.code o.data) m

theorem Carries.addOptions {first : List MessageOption} (h : m.Carries operation (optCookie ++ encodeOptions first))
    (os : List MessageOption) (hlen : ∀ o ∈ os, o.data.length ≤ 255) :
    (m.addOptions os).Carries operation (optCookie ++ encodeOptions (first ++ os)) := by
  induction os generalizing m first with
  | nil =>
      rw [List.append_nil]
      exact h
  | cons o os ih =>
      have hnext := ih (h.addOption o (hlen o List.mem_cons_self)) fun o' ho' => hlen o' (List.mem_cons_of_mem o ho')
      rwa [List.append_assoc] at hnext

/-- A finished message: its options after the cookie, and the end. -/
def Finished (m : Message) (operation : UInt8) (os : List MessageOption) : Prop :=
  m.Carries operation (optCookie ++ encodeOptions os ++ [optEnd])

theorem Carries.endOptions {os : List MessageOption} (h : m.Carries operation (optCookie ++ encodeOptions os)) :
    m.endOptions.Finished operation os := h.append [optEnd]

/-! ### The lookup -/

theorem Finished.isValid {os : List MessageOption} (h : m.Finished operation os) :
    m.isValidDhcpMessageOp operation = true := by
  have hcookie : (List.range 4).map m.options = optCookie := by
    have harea := congrArg (List.take 4) h.area
    rwa [slice_take _ _ (by simp only [List.length_append, optCookie, List.length_cons]; omega)] at harea
  simp only [isValidDhcpMessageOp, h.op, h.htype, h.hlen, hcookie, h.size, List.length_append, beq_self_eq_true,
    Bool.and_true, decide_eq_true_eq]
  simp only [optCookie, List.length_cons, List.length_nil]
  omega

/-- From the index of an option on, the lookup finds the first option with the code; the induction follows
the options that are left. What lies behind their end does not matter. -/
theorem getOptionFrom_eq {os : List MessageOption} (hos : ∀ o ∈ os, o.Encodable) (code : UInt8) {i fuel : Nat}
    (hsize : i + (encodeOptions os ++ [optEnd]).length ≤ m.optionsSize)
    (harea : slice m.dhcpData (optionsOffset + i) (encodeOptions os ++ [optEnd]).length = encodeOptions os ++ [optEnd])
    (hfuel : os.length < fuel) :
    (m.getOptionFrom code fuel i).map (fun found => slice m.dhcpData (optionsOffset + found.1) found.2.toNat) =
      firstData os code := by
  induction os generalizing i fuel with
  | nil =>
      obtain ⟨fuel, rfl⟩ := Nat.exists_eq_add_of_lt hfuel
      have hend : m.options i = optEnd := by
        rw [encodeOptions, List.flatMap_nil, List.nil_append, List.length_singleton, slice_succ] at harea
        exact (List.cons.inj harea).1
      rw [getOptionFrom]
      dsimp only
      rw [if_pos hend, ite_self]
      rfl
  | cons o os ih =>
      obtain ⟨fuel, rfl⟩ := Nat.exists_eq_add_of_lt hfuel
      obtain ⟨hcode, hlen⟩ := hos o List.mem_cons_self
      have hlength : (UInt8.ofNat o.data.length).toNat = o.data.length :=
        UInt8.toNat_ofNat_of_lt' (by rw [UInt8.size]; omega)
      let rest := encodeOptions os ++ [optEnd]
      have hbytes : encodeOptions (o :: os) ++ [optEnd] = o.code :: UInt8.ofNat o.data.length :: (o.data ++ rest) := by
        simp only [rest, encodeOptions, List.flatMap_cons, MessageOption.bytes, List.cons_append, List.append_assoc]
      rw [hbytes] at hsize harea
      rw [List.length_cons, List.length_cons, slice_succ, slice_succ, List.length_append, slice_add] at harea
      obtain ⟨hfirst, htail⟩ := List.cons.inj harea
      obtain ⟨hsecond, htail⟩ := List.cons.inj htail
      obtain ⟨hdata, hrest⟩ := List.append_inj htail (slice_length _ _ _)
      have hmore : i + 2 < m.optionsSize := by
        simp only [rest, List.length_append, List.length_cons] at hsize
        omega
      have hoption : m.options i = o.code ∧ m.options (i + 1) = UInt8.ofNat o.data.length := ⟨hfirst, hsecond⟩
      simp only [getOptionFrom, if_pos hmore, hoption.1, hoption.2, if_neg hcode, hlength]
      by_cases hfound : o.code = code
      · rw [if_pos hfound, firstData, List.find?_cons_of_pos (by rw [beq_iff_eq, hfound]), Option.map_some,
          Option.map_some, hlength]
        exact congrArg some hdata
      · rw [if_neg hfound]
        rw [firstData_tail hfound]
        refine ih (fun o' ho' => hos o' (List.mem_cons_of_mem o ho')) ?_ ?_ ?_
        · simp only [rest, List.length_append, List.length_cons] at hsize ⊢
          omega
        · rw [show optionsOffset + (i + 2 + o.data.length) = optionsOffset + i + 1 + 1 + o.data.length by omega]
          exact hrest
        · rw [List.length_cons]
          omega

/-- Every encoded option takes two octets at least. -/
theorem length_le_encodeOptions (os : List MessageOption) : os.length ≤ (encodeOptions os).length := by
  induction os with
  | nil => exact Nat.zero_le _
  | cons o os ih =>
      rw [encodeOptions, List.flatMap_cons, List.length_append, List.length_cons, MessageOption.bytes, List.length_cons]
      rw [encodeOptions] at ih
      omega

theorem Finished.optionData {os : List MessageOption} (h : m.Finished operation os) (hos : ∀ o ∈ os, o.Encodable)
    (code : UInt8) : m.optionData code = firstData os code := by
  have hlength : (optCookie ++ encodeOptions os ++ [optEnd]).length = 4 + (encodeOptions os ++ [optEnd]).length := by
    rw [List.append_assoc, List.length_append]
    rfl
  have hsize : m.optionsSize = 4 + (encodeOptions os ++ [optEnd]).length := by
    rw [optionsSize, h.size, hlength, Nat.add_sub_cancel_left]
  have harea : slice m.dhcpData (optionsOffset + 4) (encodeOptions os ++ [optEnd]).length = encodeOptions os ++ [optEnd] := by
    have hwhole := h.area
    rw [hlength, slice_add, List.append_assoc] at hwhole
    exact (List.append_inj hwhole (slice_length _ _ _)).2
  refine getOptionFrom_eq hos code (le_of_eq hsize.symm) harea ?_
  rw [hsize, List.length_append]
  have := length_le_encodeOptions os
  omega

/-! ### Encoder and lookup -/

/-- A message under construction, as `make`, a list of options and `endOptions` leave it. -/
def build (operation : UInt8) (macAddress : Vector UInt8 6) (type : UInt8) (transactionId : UInt32)
    (os : List MessageOption) : Message :=
  ((make operation macAddress type transactionId).addOptions os).endOptions

theorem build_finished (operation : UInt8) (macAddress : Vector UInt8 6) (type : UInt8) (transactionId : UInt32)
    {os : List MessageOption} (hlen : ∀ o ∈ os, o.data.length ≤ 255) :
    (build operation macAddress type transactionId os).Finished operation (⟨optMessageType, [type]⟩ :: os) :=
  ((make_carries operation macAddress type transactionId).addOptions os hlen).endOptions

/-- The message is valid, fits its buffer, and the lookup finds the data of its options. -/
structure RoundTrips (m : Message) (operation : UInt8) (os : List MessageOption) : Prop where
  valid : m.isValidDhcpMessageOp operation = true
  size : m.mSize ≤ messageCapacity
  lookup : ∀ code, m.optionData code = firstData os code

theorem Finished.roundTrips {os : List MessageOption} (h : m.Finished operation os) (hos : ∀ o ∈ os, o.Encodable)
    (hfits : (optCookie ++ encodeOptions os ++ [optEnd]).length ≤ 1024) : m.RoundTrips operation os := by
  refine ⟨h.isValid, ?_, h.optionData hos⟩
  rw [h.size, optionsOffset, messageCapacity]
  omega

/-- The options of a DHCPREQUEST, after its type. -/
def requestOptions (requestAddress serverAddress : UInt32) : List MessageOption :=
  [⟨optParameterList, requestParameters⟩, ⟨optRequestedIp, bytes32 requestAddress⟩, ⟨optServerId, bytes32 serverAddress⟩]

theorem discover_eq_build (sourceMac : Vector UInt8 6) (transactionId : UInt32) :
    discover sourceMac transactionId =
      build opBootRequest sourceMac dhcpDiscover transactionId [⟨optParameterList, requestParameters⟩] := rfl

theorem request_eq_build (sourceMac : Vector UInt8 6) (transactionId requestAddress serverAddress : UInt32) :
    request sourceMac transactionId requestAddress serverAddress =
      build opBootRequest sourceMac dhcpRequest transactionId (requestOptions requestAddress serverAddress) := rfl

theorem addressOption_encodable {code : UInt8} (hcode : code ≠ optEnd) (address : UInt32) :
    MessageOption.Encodable ⟨code, bytes32 address⟩ := ⟨hcode, (by decide : 4 ≤ 255)⟩

theorem build_roundTrips {operation type : UInt8} {os : List MessageOption} (hos : ∀ o ∈ os, o.Encodable)
    (hfits : (optCookie ++ encodeOptions (⟨optMessageType, [type]⟩ :: os) ++ [optEnd]).length ≤ 1024)
    (macAddress : Vector UInt8 6) (transactionId : UInt32) :
    (build operation macAddress type transactionId os).RoundTrips operation (⟨optMessageType, [type]⟩ :: os) := by
  have hall : ∀ o ∈ (⟨optMessageType, [type]⟩ :: os : List MessageOption), o.Encodable :=
    List.forall_mem_cons.mpr ⟨⟨by change optMessageType ≠ optEnd; decide, (by decide : 1 ≤ 255)⟩, hos⟩
  exact (build_finished operation macAddress type transactionId fun o ho => (hos o ho).2).roundTrips hall hfits

theorem discover_roundTrips (sourceMac : Vector UInt8 6) (transactionId : UInt32) :
    (discover sourceMac transactionId).RoundTrips opBootRequest
      [⟨optMessageType, [dhcpDiscover]⟩, ⟨optParameterList, requestParameters⟩] := by
  rw [discover_eq_build]
  refine build_roundTrips ?_ (by decide) sourceMac transactionId
  exact List.forall_mem_singleton.mpr ⟨by decide, by decide⟩

theorem request_roundTrips (sourceMac : Vector UInt8 6) (transactionId requestAddress serverAddress : UInt32) :
    (request sourceMac transactionId requestAddress serverAddress).RoundTrips opBootRequest
      (⟨optMessageType, [dhcpRequest]⟩ :: requestOptions requestAddress serverAddress) := by
  rw [request_eq_build]
  refine build_roundTrips ?_ (by change 30 ≤ 1024; decide) sourceMac transactionId
  rw [requestOptions, List.forall_mem_cons, List.forall_mem_cons, List.forall_mem_singleton]
  exact ⟨⟨by decide, by decide⟩, addressOption_encodable (by decide) _, addressOption_encodable (by decide) _⟩

theorem nack_roundTrips (sourceMessage : Message) (serverAddress transactionId : UInt32) :
    (nack sourceMessage serverAddress transactionId).RoundTrips opBootReply
      [⟨optMessageType, [dhcpNak]⟩, ⟨optServerId, bytes32 serverAddress⟩] := by
  have hmade := make_carries opBootReply sourceMessage.sourceMac dhcpNak transactionId
  have hheaded := ((hmade.copyField sourceMessage xidOffset 4 (by decide) (by decide)).copyField sourceMessage
    flagsOffset 2 (by decide) (by decide)).copyField sourceMessage giaddrOffset 4 (by decide) (by decide)
  have hserver := @addressOption_encodable optServerId (by decide) serverAddress
  refine (hheaded.addOption ⟨optServerId, bytes32 serverAddress⟩ hserver.2).endOptions.roundTrips ?_
    (by change 14 ≤ 1024; decide)
  exact List.forall_mem_cons.mpr ⟨⟨by decide, by decide⟩, List.forall_mem_singleton.mpr hserver⟩

theorem type_of_getOption {found : Nat × UInt8} {t : UInt8} (hfound : m.getOption optMessageType = some found)
    (hlength : found.2 = 1) (ht : m.options found.1 = t) : m.type = t := by
  unfold Message.type
  rw [hfound]
  dsimp only
  rw [if_pos hlength]
  exact ht

theorem type_of_optionData {t : UInt8} (h : m.optionData optMessageType = some [t]) : m.type = t := by
  rw [Message.optionData] at h
  cases hfound : m.getOption optMessageType with
  | none =>
      rw [hfound] at h
      cases h
  | some found =>
      simp only [hfound, Option.map_some, Option.some.injEq] at h
      have hlength : found.2.toNat = 1 := by
        rw [← slice_length m.dhcpData (optionsOffset + found.1) found.2.toNat, h, List.length_singleton]
      rw [hlength, slice_succ, slice_zero] at h
      refine type_of_getOption hfound ?_ ?_
      · exact (@UInt8.toNat_inj found.2 1).mp hlength
      · exact (List.cons.inj h).1

/-- The common body of `serverId` and `requestedIp`. -/
def addressOption (code : UInt8) (m : Message) : UInt32 :=
  match m.getOption code with
  | some (i, length) => if length = 4 then load32 m.dhcpData (optionsOffset + i) else 0
  | none => 0

theorem serverId_eq_addressOption : Message.serverId = addressOption optServerId := by
  funext m
  unfold Message.serverId addressOption
  cases m.getOption optServerId <;> rfl

theorem requestedIp_eq_addressOption : Message.requestedIp = addressOption optRequestedIp := by
  funext m
  unfold Message.requestedIp addressOption
  cases m.getOption optRequestedIp <;> rfl

/-- The address that an option carries is the one that the lookup of the option reads. -/
theorem addressOption_of_optionData {code : UInt8} {address : UInt32} (h : m.optionData code = some (bytes32 address)) :
    addressOption code m = address := by
  rw [Message.optionData] at h
  unfold addressOption
  cases hfound : m.getOption code with
  | none =>
      rw [hfound] at h
      cases h
  | some found =>
      obtain ⟨i, length⟩ := found
      simp only [hfound, Option.map_some, Option.some.injEq] at h
      have hlength : length.toNat = 4 := by
        rw [← slice_length m.dhcpData (optionsOffset + i) length.toNat, h]
        rfl
      dsimp only
      rw [if_pos ((@UInt8.toNat_inj length 4).mp hlength), ← load32_getD_bytes32 address [], List.append_nil, ← h]
      refine load32_congr fun k hk => ?_
      rw [Nat.zero_add, slice_getD (by omega)]

theorem serverId_of_optionData {address : UInt32} (h : m.optionData optServerId = some (bytes32 address)) :
    m.serverId = address := by
  rw [serverId_eq_addressOption]
  exact addressOption_of_optionData h

theorem RoundTrips.type {t : UInt8} {os : List MessageOption} (h : m.RoundTrips operation (⟨optMessageType, [t]⟩ :: os)) :
    m.type = t :=
  type_of_optionData ((h.lookup optMessageType).trans (firstData_head optMessageType [t] os))

theorem type_discover (sourceMac : Vector UInt8 6) (transactionId : UInt32) :
    (discover sourceMac transactionId).type = dhcpDiscover := (discover_roundTrips sourceMac transactionId).type

theorem type_request (sourceMac : Vector UInt8 6) (transactionId requestAddress serverAddress : UInt32) :
    (request sourceMac transactionId requestAddress serverAddress).type = dhcpRequest :=
  (request_roundTrips sourceMac transactionId requestAddress serverAddress).type

/-- A DHCPREQUEST carries its two addresses. -/
theorem request_addresses (sourceMac : Vector UInt8 6) (transactionId requestAddress serverAddress : UInt32) :
    (request sourceMac transactionId requestAddress serverAddress).optionData optRequestedIp =
        some (bytes32 requestAddress) ∧
      (request sourceMac transactionId requestAddress serverAddress).optionData optServerId =
        some (bytes32 serverAddress) := by
  have hlookup := (request_roundTrips sourceMac transactionId requestAddress serverAddress).lookup
  refine ⟨(hlookup optRequestedIp).trans ?_, (hlookup optServerId).trans ?_⟩
  · rw [requestOptions, firstData_tail (by decide), firstData_tail (by decide), firstData_head]
  · rw [requestOptions, firstData_tail (by decide), firstData_tail (by decide), firstData_tail (by change optRequestedIp ≠ _; decide),
      firstData_head]

/-- The encoder and the lookup are inverse, for every list of options that fits, and so for the messages of
the client and the denial of the server. -/
theorem message_round_trips :
    (∀ (operation : UInt8) (macAddress : Vector UInt8 6) (type : UInt8) (transactionId : UInt32) (os : List MessageOption),
      (∀ o ∈ os, o.Encodable) →
        (optCookie ++ encodeOptions (⟨optMessageType, [type]⟩ :: os) ++ [optEnd]).length ≤ 1024 →
          (build operation macAddress type transactionId os).RoundTrips operation (⟨optMessageType, [type]⟩ :: os)) ∧
      (∀ sourceMac id, (discover sourceMac id).RoundTrips opBootRequest
        [⟨optMessageType, [dhcpDiscover]⟩, ⟨optParameterList, requestParameters⟩]) ∧
      (∀ sourceMac id requestAddress serverAddress, (request sourceMac id requestAddress serverAddress).RoundTrips
        opBootRequest (⟨optMessageType, [dhcpRequest]⟩ :: requestOptions requestAddress serverAddress)) ∧
      ∀ sourceMessage serverAddress id, (nack sourceMessage serverAddress id).RoundTrips opBootReply
        [⟨optMessageType, [dhcpNak]⟩, ⟨optServerId, bytes32 serverAddress⟩] :=
  ⟨fun _ macAddress _ transactionId _ hos hfits => build_roundTrips hos hfits macAddress transactionId,
    discover_roundTrips, request_roundTrips, nack_roundTrips⟩

/-- An option whose data look like another one, and an empty one before the end. -/
theorem message_round_trips_misleading :
    (build opBootRequest #v[2, 0, 0, 0, 0, 1] dhcpRequest 7 [⟨12, [optServerId, 4, optEnd]⟩, ⟨43, []⟩]).RoundTrips
      opBootRequest [⟨optMessageType, [dhcpRequest]⟩, ⟨12, [optServerId, 4, optEnd]⟩, ⟨43, []⟩] := by
  refine message_round_trips.1 opBootRequest #v[2, 0, 0, 0, 0, 1] dhcpRequest 7 _ ?_ (by decide)
  exact List.forall_mem_cons.mpr ⟨⟨by decide, by decide⟩, List.forall_mem_singleton.mpr ⟨by decide, by decide⟩⟩

end Message

end Trout.Dhcp

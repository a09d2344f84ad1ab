import Trout.DhcpOptions
import Trout.DhcpTimers

/-! The grammar of an options area: options, single octets of padding, and an end. The loops of `getOption` and
of `configureDhcp` read a length after every code, so they parse an area without padding as the grammar
does, and no other. -/

namespace Trout.Dhcp
open RingWindow Runs

/-! ### What an option sets -/

/-- The data of an option as memory. -/
def MessageOption.mem (o : MessageOption) : Nat → UInt8 := fun a => o.data.getD a 0

/-- The value of an option with the code, if its data has a length that is right. -/
def MessageOption.sets {α : Type} (o : MessageOption) (code : UInt8) (right : Nat → Bool)
    (read : (Nat → UInt8) → α) : Option α :=
  if o.code = code ∧ right o.data.length then some (read o.mem) else none

/-- Every field that the loop recognises has the value of the last of the options that sets it. -/
structure DhcpInfo.Gathers (info : DhcpInfo) (first : DhcpInfo) (os : List MessageOption) : Prop where
  leaseTime : info.leaseTime = lastSet (fun o => o.sets optLeaseTime (· == 4) (netLoad32 · 0)) first.leaseTime os
  t1 : info.t1 = lastSet (fun o => o.sets optT1 (· == 4) (netLoad32 · 0)) first.t1 os
  t2 : info.t2 = lastSet (fun o => o.sets optT2 (· == 4) (netLoad32 · 0)) first.t2 os
  subnetMask : info.subnetMask = lastSet (fun o => o.sets optSubnetMask (· == 4) (load32 · 0)) first.subnetMask os
  gateway : info.gateway = lastSet (fun o => o.sets optGateway (4 ≤ ·) (load32 · 0)) first.gateway os
  mtu : info.mtu = lastSet (fun o => o.sets optMtu (· == 2) (netLoad16 · 0)) first.mtu os
  dns : ∀ j : Fin 4,
    info.dns j = lastSet (fun o => o.sets optDns (4 * (j.val + 1) ≤ ·) (load32 · (4 * j))) (first.dns j) os
  serverId : info.serverId = lastSet (fun o => o.sets optServerId (· == 4) (load32 · 0)) first.serverId os

/-- The option at an index of the options area. -/
def Message.optionAt (m : Message) (i : Nat) : MessageOption :=
  ⟨m.options i, slice m.dhcpData (optionsOffset + (i + 2)) (m.options (i + 1)).toNat⟩

theorem optionAt_mem {m : Message} {i k : Nat} (h : k < (m.options (i + 1)).toNat) :
    (m.optionAt i).mem k = m.dhcpData (optionsOffset + (i + 2) + k) := slice_getD h

/-- A value that is read from the data of the option at an index is read from the message. -/
theorem optionAt_sets {α : Type} (m : Message) (i : Nat) (code : UInt8) (right : Nat → Bool)
    (read : (Nat → UInt8) → α) (value : α)
    (hread : right (m.options (i + 1)).toNat = true → read (m.optionAt i).mem = value) :
    (m.optionAt i).sets code right read =
      if m.options i = code ∧ right (m.options (i + 1)).toNat then some value else none := by
  rw [MessageOption.sets, Message.optionAt, slice_length]
  split
  · rename_i h
    rw [← hread h.2]
    rfl
  · rfl

theorem netLoad32_congr {mem mem' : Nat → UInt8} {i i' : Nat} (h : ∀ k < 4, mem (i + k) = mem' (i' + k)) :
    netLoad32 mem i = netLoad32 mem' i' := by
  have h0 : mem i = mem' i' := h 0 (by decide)
  rw [netLoad32, netLoad32, h0, h 1 (by decide), h 2 (by decide), h 3 (by decide)]

theorem netLoad16_congr {mem mem' : Nat → UInt8} {i i' : Nat} (h : ∀ k < 2, mem (i + k) = mem' (i' + k)) :
    netLoad16 mem i = netLoad16 mem' i' := by
  have h0 : mem i = mem' i' := h 0 (by decide)
  rw [netLoad16, netLoad16, h0, h 1 (by decide)]

theorem sets_netWord (m : Message) (i : Nat) (code : UInt8) :
    (m.optionAt i).sets code (· == 4) (netLoad32 · 0) =
      if m.options i = code ∧ (m.options (i + 1)).toNat == 4 then some (netLoad32 m.dhcpData (optionsOffset + (i + 2)))
      else none := by
  refine optionAt_sets m i code _ _ _ fun hright => netLoad32_congr fun k hk => ?_
  rw [Nat.zero_add, optionAt_mem (by rwa [eq_of_beq hright])]

theorem sets_words (m : Message) (i j : Nat) (code : UInt8) {right : Nat → Bool}
    (hfits : ∀ n, right n = true → 4 * (j + 1) ≤ n) :
    (m.optionAt i).sets code right (load32 · (4 * j)) =
      if m.options i = code ∧ right (m.options (i + 1)).toNat then some (addressAt m (i + 2 + 4 * j)) else none := by
  refine optionAt_sets m i code right _ _ fun hright => load32_congr fun k hk => ?_
  have hlen := hfits _ hright
  rw [optionAt_mem (by omega)]
  congr 1
  omega

theorem sets_word (m : Message) (i : Nat) (code : UInt8) {right : Nat → Bool} (hfits : ∀ n, right n = true → 4 ≤ n) :
    (m.optionAt i).sets code right (load32 · 0) =
      if m.options i = code ∧ right (m.options (i + 1)).toNat then some (addressAt m (i + 2)) else none :=
  sets_words m i 0 code hfits

theorem sets_mtu (m : Message) (i : Nat) :
    (m.optionAt i).sets optMtu (· == 2) (netLoad16 · 0) =
      if m.options i = optMtu ∧ (m.options (i + 1)).toNat == 2 then some (netLoad16 m.dhcpData (optionsOffset + (i + 2)))
      else none := by
  refine optionAt_sets m i optMtu _ _ _ fun hright => netLoad16_congr fun k hk => ?_
  rw [Nat.zero_add, optionAt_mem (by rwa [eq_of_beq hright])]

theorem ite_some_getD {α : Type} (c : Prop) [Decidable c] (v w : α) :
    (if c then some v else none).getD w = if c then v else w := by
  split <;> rfl

/-- An option sets the fields that it is an option for, and no others. -/
theorem visit_gathers (info : DhcpInfo) (m : Message) (i : Nat) : (info.visit m i).Gathers info [m.optionAt i] := by
  constructor
  case dns =>
    intro j
    rw [lastSet, List.foldl_cons, List.foldl_nil, sets_words m i j optDns (by simp), ite_some_getD]
    by_cases h : m.options i = optDns
    · simp +decide [DhcpInfo.visit, h]
    · simp only [DhcpInfo.visit, h, false_and, if_false, apply_ite DhcpInfo.dns, ite_self]
  case leaseTime =>
    rw [lastSet, List.foldl_cons, List.foldl_nil, sets_netWord, ite_some_getD]
    by_cases h : m.options i = optLeaseTime
    · simp +decide [DhcpInfo.visit, h, apply_ite DhcpInfo.leaseTime]
    · simp only [DhcpInfo.visit, h, false_and, if_false, apply_ite DhcpInfo.leaseTime, ite_self]
  case t1 =>
    rw [lastSet, List.foldl_cons, List.foldl_nil, sets_netWord, ite_some_getD]
    by_cases h : m.options i = optT1
    · simp +decide [DhcpInfo.visit, h, apply_ite DhcpInfo.t1]
    · simp only [DhcpInfo.visit, h, false_and, if_false, apply_ite DhcpInfo.t1, ite_self]
  case t2 =>
    rw [lastSet, List.foldl_cons, List.foldl_nil, sets_netWord, ite_some_getD]
    by_cases h : m.options i = optT2
    · simp +decide [DhcpInfo.visit, h, apply_ite DhcpInfo.t2]
    · simp only [DhcpInfo.visit, h, false_and, if_false, apply_ite DhcpInfo.t2, ite_self]
  case subnetMask =>
    rw [lastSet, List.foldl_cons, List.foldl_nil, sets_word m i optSubnetMask (by simp), ite_some_getD]
    by_cases h : m.options i = optSubnetMask
    · simp +decide [DhcpInfo.visit, h, apply_ite DhcpInfo.subnetMask]
    · simp only [DhcpInfo.visit, h, false_and, if_false, apply_ite DhcpInfo.subnetMask, ite_self]
  case gateway =>
    rw [lastSet, List.foldl_cons, List.foldl_nil, sets_word m i optGateway (by simp), ite_some_getD]
    by_cases h : m.options i = optGateway
    · simp +decide [DhcpInfo.visit, h, apply_ite DhcpInfo.gateway]
    · simp only [DhcpInfo.visit, h, false_and, if_false, apply_ite DhcpInfo.gateway, ite_self]
  case mtu =>
    rw [lastSet, List.foldl_cons, List.foldl_nil, sets_mtu, ite_some_getD]
    by_cases h : m.options i = optMtu
    · simp +decide [DhcpInfo.visit, h, apply_ite DhcpInfo.mtu]
    · simp only [DhcpInfo.visit, h, false_and, if_false, apply_ite DhcpInfo.mtu, ite_self]
  case serverId =>
    rw [lastSet, List.foldl_cons, List.foldl_nil, sets_word m i optServerId (by simp), ite_some_getD]
    by_cases h : m.options i = optServerId
    · simp +decide [DhcpInfo.visit, h, apply_ite DhcpInfo.serverId]
    · simp only [DhcpInfo.visit, h, false_and, if_false, apply_ite DhcpInfo.serverId, ite_self]

theorem DhcpInfo.Gathers.refl (info : DhcpInfo) : info.Gathers info [] :=
  ⟨rfl, rfl, rfl, rfl, rfl, rfl, fun _ => rfl, rfl⟩

theorem DhcpInfo.Gathers.trans {first info info' : DhcpInfo} {os os' : List MessageOption}
    (h : info.Gathers first os) (h' : info'.Gathers info os') : info'.Gathers first (os ++ os') where
  leaseTime := by rw [lastSet_append, ← h.leaseTime, h'.leaseTime]
  t1 := by rw [lastSet_append, ← h.t1, h'.t1]
  t2 := by rw [lastSet_append, ← h.t2, h'.t2]
  subnetMask := by rw [lastSet_append, ← h.subnetMask, h'.subnetMask]
  gateway := by rw [lastSet_append, ← h.gateway, h'.gateway]
  mtu := by rw [lastSet_append, ← h.mtu, h'.mtu]
  dns := fun j => by rw [lastSet_append, ← h.dns j, h'.dns j]
  serverId := by rw [lastSet_append, ← h.serverId, h'.serverId]

/-- The loop gathers what the options it visits set. -/
theorem parseOptions_gathers (m : Message) (fuel i : Nat) (info : DhcpInfo) :
    (parseOptions m fuel i info).1.Gathers info ((visited m fuel i).map m.optionAt) := by
  rw [parseOptions_eq_foldl]
  generalize visited m fuel i = is
  induction is generalizing info with
  | nil => exact .refl info
  | cons i is ih => exact (visit_gathers info m i).trans (ih (info.visit m i))

/-! ### The grammar -/

/-- An octet of padding, or an option. -/
inductive OptionItem where
  | pad
  | option (o : MessageOption)

def OptionItem.bytes : OptionItem → List UInt8
  | .pad => [optPad]
  | .option o => o.bytes

def OptionItem.option? : OptionItem → Option MessageOption
  | .pad => none
  | .option o => some o

def optionsOf (items : List OptionItem) : List MessageOption := items.filterMap OptionItem.option?

def itemBytes (items : List OptionItem) : List UInt8 := items.flatMap OptionItem.bytes

/-- The options have codes of their own, and their data fit their length octets. -/
def WellFormed (items : List OptionItem) : Prop := ∀ o ∈ optionsOf items, o.code ≠ optPad ∧ o.Encodable

/-- The indices of the options among the items, the first of which is at index `i`. -/
def optionIndices : Nat → List OptionItem → List Nat
  | _, [] => []
  | i, .pad :: items => optionIndices (i + 1) items
  | i, .option o :: items => i :: optionIndices (i + (2 + o.data.length)) items

/-- From an index of the options area on, the message has these bytes. -/
def Message.HasAt (m : Message) (i : Nat) (bytes : List UInt8) : Prop :=
  i + bytes.length ≤ m.optionsSize ∧ slice m.dhcpData (optionsOffset + i) bytes.length = bytes

/-- The options area is a cookie, the items and an end; whatever follows the end does not belong to it. -/
def Message.HasArea (m : Message) (items : List OptionItem) : Prop :=
  m.HasAt 0 (optCookie ++ (itemBytes items ++ [optEnd]))

/-- Both parsers read the area by the grammar. -/
structure ParsedByGrammar (m : Message) (items : List OptionItem) : Prop where
  lookup : ∀ code, m.optionData code = firstData (optionsOf items) code
  visits : visited m m.optionsSize 4 = optionIndices 4 items
  fields : (parseOptions m m.optionsSize 4 .zero).1.Gathers .zero (optionsOf items)
  accepts : (parseOptions m m.optionsSize 4 .zero).2 = true

/-! ### Octets in the area -/

namespace Message.HasAt
variable {m : Message} {i : Nat}

theorem cons {b : UInt8} {bytes : List UInt8} (h : m.HasAt i (b :: bytes)) :
    i < m.optionsSize ∧ m.options i = b ∧ m.HasAt (i + 1) bytes := by
  obtain ⟨hsize, hbytes⟩ := h
  rw [List.length_cons] at hsize hbytes
  rw [slice_succ] at hbytes
  obtain ⟨hfirst, hrest⟩ := List.cons.inj hbytes
  exact ⟨by omega, hfirst, by omega, hrest⟩

theorem append {as bs : List UInt8} (h : m.HasAt i (as ++ bs)) : m.HasAt i as ∧ m.HasAt (i + as.length) bs := by
  obtain ⟨hsize, hbytes⟩ := h
  rw [List.length_append] at hsize hbytes
  rw [slice_add] at hbytes
  obtain ⟨hfirst, hrest⟩ := List.append_inj hbytes (slice_length _ _ _)
  rw [Nat.add_assoc] at hrest
  exact ⟨⟨by omega, hfirst⟩, by omega, hrest⟩

/-- An option at an index, and what follows it. -/
theorem option {o : MessageOption} {rest : List UInt8} (h : m.HasAt i (o.bytes ++ rest)) (ho : o.Encodable) :
    m.options i = o.code ∧ (m.options (i + 1)).toNat = o.data.length ∧ m.optionAt i = o ∧
      m.HasAt (i + (2 + o.data.length)) rest := by
  obtain ⟨-, hcode, h⟩ := h.cons
  obtain ⟨-, hlength, h⟩ := h.cons
  obtain ⟨hdata, hrest⟩ := append h
  have htoNat : (m.options (i + 1)).toNat = o.data.length := by
    rw [hlength]
    exact UInt8.toNat_ofNat_of_lt' (Nat.lt_of_le_of_lt ho.2 (by decide))
  refine ⟨hcode, htoNat, ?_, ?_⟩
  · rw [Message.optionAt, hcode, htoNat]
    exact congrArg (MessageOption.mk o.code) hdata.2
  · rwa [show i + (2 + o.data.length) = i + 1 + 1 + o.data.length by omega]

end Message.HasAt

theorem encodeOptions_cons (o : MessageOption) (os : List MessageOption) :
    encodeOptions (o :: os) = o.bytes ++ encodeOptions os := List.flatMap_cons

theorem length_bytes (o : MessageOption) : o.bytes.length = 2 + o.data.length := by
  rw [MessageOption.bytes, List.length_cons, List.length_cons]
  omega

/-- The loop passes the options that lie before other octets. The induction follows the options. -/
theorem parse_through {m : Message} {os : List MessageOption} (hos : ∀ o ∈ os, o.Encodable) {rest : List UInt8}
    (hrest : rest ≠ []) (fuel : Nat) {i : Nat} (h : m.HasAt i (encodeOptions os ++ rest)) (info : DhcpInfo) :
    visited m (os.length + fuel) i =
        optionIndices i (os.map .option) ++ visited m fuel (i + (encodeOptions os).length) ∧
      ∃ info', (parseOptions m (os.length + fuel) i info).2 =
        (parseOptions m fuel (i + (encodeOptions os).length) info').2 := by
  induction os generalizing i info with
  | nil =>
      rw [List.length_nil, Nat.zero_add]
      exact ⟨rfl, info, rfl⟩
  | cons o os ih =>
      have ho := hos o List.mem_cons_self
      rw [encodeOptions_cons, List.append_assoc] at h
      obtain ⟨hcode, hlength, -, hnext⟩ := h.option ho
      have hfits : i + (2 + o.data.length) + 1 ≤ m.optionsSize := by
        have hsize := hnext.1
        have := List.length_pos_of_ne_nil hrest
        rw [List.length_append] at hsize
        omega
      have hend : m.options i ≠ optEnd := by
        rw [hcode]
        exact ho.1
      obtain ⟨hvisited, info', hparse⟩ :=
        ih (fun o' ho' => hos o' (List.mem_cons_of_mem o ho')) hnext (info.visit m i)
      rw [List.length_cons, Nat.add_right_comm, encodeOptions_cons, List.length_append, length_bytes, ← Nat.add_assoc i]
      constructor
      · rw [visited, if_pos ⟨by omega, hend, by omega⟩, hlength, Nat.add_assoc i 2, hvisited]
        rfl
      · refine ⟨info', ?_⟩
        rw [parseOptions, if_pos (by omega)]
        dsimp only
        rw [if_neg hend, if_neg (by omega), hlength, Nat.add_assoc i 2, hparse]

/-- The indices of options lead to the options. -/
theorem optionAt_indices {m : Message} {os : List MessageOption} (hos : ∀ o ∈ os, o.Encodable) {rest : List UInt8}
    {i : Nat} (h : m.HasAt i (encodeOptions os ++ rest)) : (optionIndices i (os.map .option)).map m.optionAt = os := by
  induction os generalizing i with
  | nil => rfl
  | cons o os ih =>
      rw [encodeOptions_cons, List.append_assoc] at h
      obtain ⟨-, -, hat, hnext⟩ := h.option (hos o List.mem_cons_self)
      rw [List.map_cons, optionIndices, List.map_cons, hat, ih (fun o' ho' => hos o' (List.mem_cons_of_mem o ho')) hnext]

/-- An area whose octets are those of options: the lookup finds the first with a code, and the loop visits all. -/
theorem parse_area {m : Message} {os : List MessageOption} (hos : ∀ o ∈ os, o.Encodable)
    (h : m.HasAt 0 (optCookie ++ (encodeOptions os ++ [optEnd]))) :
    (∀ code, m.optionData code = firstData os code) ∧ visited m m.optionsSize 4 = optionIndices 4 (os.map .option) ∧
      (parseOptions m m.optionsSize 4 .zero).1.Gathers .zero os ∧ (parseOptions m m.optionsSize 4 .zero).2 = true := by
  obtain ⟨-, harea⟩ := h.append
  replace harea : m.HasAt 4 (encodeOptions os ++ [optEnd]) := harea
  have hlength := Message.length_le_encodeOptions os
  have hsize := harea.1
  rw [List.length_append, List.length_singleton] at hsize
  obtain ⟨fuel, hfuel⟩ : ∃ fuel, m.optionsSize = os.length + (fuel + 1) := ⟨m.optionsSize - os.length - 1, by omega⟩
  obtain ⟨hvisited, info, hparse⟩ := parse_through hos (List.cons_ne_nil optEnd []) (fuel + 1) harea .zero
  obtain ⟨-, hend, -⟩ := harea.append.2.cons
  have hvisits : visited m m.optionsSize 4 = optionIndices 4 (os.map .option) := by
    rw [hfuel, hvisited, visited, if_neg (fun hmore => hmore.2.1 hend), List.append_nil]
  refine ⟨fun code => Message.getOptionFrom_eq hos code harea.1 harea.2 (by omega), hvisits, ?_, ?_⟩
  · have hgathers := parseOptions_gathers m m.optionsSize 4 .zero
    rwa [hvisits, optionAt_indices hos harea] at hgathers
  · rw [hfuel, hparse, parseOptions]
    dsimp only
    rw [if_pos hend, ite_self]

/-! ### Padding -/

theorem itemBytes_append (first second : List OptionItem) :
    itemBytes (first ++ second) = itemBytes first ++ itemBytes second := List.flatMap_append

theorem itemBytes_options (os : List MessageOption) : itemBytes (os.map .option) = encodeOptions os := by
  rw [itemBytes, List.flatMap_map]
  rfl

theorem optionsOf_append (first second : List OptionItem) :
    optionsOf (first ++ second) = optionsOf first ++ optionsOf second := List.filterMap_append

theorem optionsOf_options (os : List MessageOption) : optionsOf (os.map .option) = os := by
  rw [optionsOf, List.filterMap_map]
  exact List.filterMap_some

theorem optionIndices_append (i : Nat) (first second : List OptionItem) :
    optionIndices i (first ++ second) =
      optionIndices i first ++ optionIndices (i + (itemBytes first).length) second := by
  fun_induction optionIndices i first with
  | case1 i => rfl
  | case2 i items ih =>
      change optionIndices (i + 1) (items ++ second) = _
      rw [ih, itemBytes, itemBytes, List.flatMap_cons, List.length_append, Nat.add_assoc]
      rfl
  | case3 i o items ih =>
      change i :: optionIndices (i + (2 + o.data.length)) (items ++ second) = _
      rw [ih, itemBytes, itemBytes, List.flatMap_cons, List.length_append, Nat.add_assoc]
      rw [show (OptionItem.option o).bytes.length = 2 + o.data.length from length_bytes o]
      rfl

theorem optionIndices_range {i j : Nat} {items : List OptionItem} (h : j ∈ optionIndices i items) :
    i ≤ j ∧ j < i + (itemBytes items).length := by
  fun_induction optionIndices i items with
  | case1 i => cases h
  | case2 i items ih =>
      have := ih h
      have hbytes : (itemBytes (.pad :: items)).length = 1 + (itemBytes items).length := by
        rw [itemBytes, List.flatMap_cons, List.length_append]
        rfl
      omega
  | case3 i o items ih =>
      have hbytes : (itemBytes (.option o :: items)).length = 2 + o.data.length + (itemBytes items).length := by
        rw [itemBytes, List.flatMap_cons, List.length_append,
          show (OptionItem.option o).bytes.length = 2 + o.data.length from length_bytes o]
        rfl
      rcases List.mem_cons.mp h with rfl | h
      · omega
      · have := ih h
        omega

theorem visited_ge {m : Message} {fuel i j : Nat} (h : j ∈ visited m fuel i) : i ≤ j := by
  fun_induction visited m fuel i with
  | case1 i => cases h
  | case2 fuel i hmore ih =>
      rcases List.mem_cons.mp h with rfl | h
      · exact le_refl _
      · have := ih h
        omega
  | case3 fuel i hmore => cases h

/-- The first octet of padding, if there is one. -/
theorem options_or_pad (items : List OptionItem) :
    (∃ os : List MessageOption, items = os.map .option) ∨
      ∃ (os : List MessageOption) (rest : List OptionItem), items = os.map .option ++ .pad :: rest := by
  induction items with
  | nil => exact Or.inl ⟨[], rfl⟩
  | cons item items ih =>
      cases item with
      | pad => exact Or.inr ⟨[], items, rfl⟩
      | option o =>
          rcases ih with ⟨os, rfl⟩ | ⟨os, rest, rfl⟩
          · exact Or.inl ⟨o :: os, rfl⟩
          · exact Or.inr ⟨o :: os, rest, rfl⟩

/-- The loop comes to an octet of padding after options, with the octets behind it to go. -/
theorem parse_to_pad {m : Message} {os : List MessageOption} (hos : ∀ o ∈ os, o.Encodable) {more : List UInt8}
    (hmore : more ≠ []) (h : m.HasAt 4 (encodeOptions os ++ (optPad :: more))) :
    ∃ fuel i info, i = 4 + (encodeOptions os).length ∧ m.options i = optPad ∧ m.HasAt (i + 1) more ∧
      i + 1 < m.optionsSize ∧
      visited m m.optionsSize 4 = optionIndices 4 (os.map .option) ++ visited m (fuel + 1) i ∧
      (parseOptions m m.optionsSize 4 .zero).2 = (parseOptions m (fuel + 1) i info).2 := by
  have hlength := Message.length_le_encodeOptions os
  obtain ⟨-, hpad, hnext⟩ := h.append.2.cons
  have hsize := hnext.1
  have hpos := List.length_pos_of_ne_nil hmore
  obtain ⟨fuel, hfuel⟩ : ∃ fuel, m.optionsSize = os.length + (fuel + 1) := ⟨m.optionsSize - os.length - 1, by omega⟩
  obtain ⟨hvisited, info, hparse⟩ := parse_through hos (List.cons_ne_nil _ _) (fuel + 1) h .zero
  rw [← hfuel] at hvisited hparse
  exact ⟨fuel, _, info, rfl, hpad, hnext, by omega, hvisited, hparse⟩

/-- An area is parsed by the grammar exactly when it has no padding. -/
theorem parsedByGrammar_iff {m : Message} {items : List OptionItem} (hitems : WellFormed items)
    (h : m.HasArea items) : ParsedByGrammar m items ↔ .pad ∉ items := by
  rcases options_or_pad items with ⟨os, rfl⟩ | ⟨os, rest, rfl⟩
  · have hnone : OptionItem.pad ∉ os.map OptionItem.option := by simp
    rw [iff_true_right hnone]
    have hos : ∀ o ∈ os, o.Encodable := fun o ho => (hitems o (by rwa [optionsOf_options])).2
    rw [Message.HasArea, itemBytes_options] at h
    obtain ⟨hlookup, hvisits, hfields, haccepts⟩ := parse_area hos h
    exact ⟨by rwa [optionsOf_options], hvisits, by rwa [optionsOf_options], haccepts⟩
  · rw [iff_false_right (by simp)]
    intro hparsed
    have hos : ∀ o ∈ os, o.Encodable := by
      refine fun o ho => (hitems o ?_).2
      rw [optionsOf_append, optionsOf_options]
      exact List.mem_append_left _ ho
    rw [Message.HasArea, itemBytes_append, itemBytes_options, List.append_assoc] at h
    have harea : m.HasAt 4 (encodeOptions os ++ (optPad :: (itemBytes rest ++ [optEnd]))) := h.append.2
    obtain ⟨fuel, i, info, hi, hpad, -, hmore, hvisited, hparse⟩ := parse_to_pad hos (by simp) harea
    have hvisits := hparsed.visits
    have haccepts := hparsed.accepts
    rw [hvisited, optionIndices_append, itemBytes_options, ← hi, List.append_right_inj] at hvisits
    rw [hparse] at haccepts
    have hend : m.options i ≠ optEnd := by
      rw [hpad]
      decide
    by_cases hfits : (m.options (i + 1)).toNat + i < m.optionsSize
    · -- the padding is visited as an option, before every option that is left
      rw [visited, if_pos ⟨by omega, hend, hfits⟩] at hvisits
      have hmem : i ∈ optionIndices (i + 1) rest := by
        change i ∈ optionIndices i (.pad :: rest)
        rw [← hvisits]
        exact List.mem_cons_self
      have := (optionIndices_range hmem).1
      omega
    · -- or the octet after it is too long a length
      rw [parseOptions, if_pos (by omega)] at haccepts
      dsimp only at haccepts
      rw [if_neg hend, if_pos (by omega)] at haccepts
      cases haccepts

/-! ### Padding in pairs -/

/-- Every run of padding has an even length. -/
def EvenPads : List OptionItem → Prop
  | [] => True
  | .option _ :: items => EvenPads items
  | .pad :: .pad :: items => EvenPads items
  | [.pad] => False
  | .pad :: .option _ :: _ => False

/-- Both parsers read the options by the grammar; what they make of padding is left open. -/
structure ParsedUpToPads (m : Message) (items : List OptionItem) : Prop where
  lookup : ∀ code, code ≠ optPad → m.optionData code = firstData (optionsOf items) code
  visits : (visited m m.optionsSize 4).filter (m.options · ≠ optPad) = optionIndices 4 items
  fields : (parseOptions m m.optionsSize 4 .zero).1.Gathers .zero (optionsOf items)
  accepts : (parseOptions m m.optionsSize 4 .zero).2 = true

/-- Two octets of padding are an option of code 0 without data. -/
def readPads : List OptionItem → List MessageOption
  | .option o :: items => o :: readPads items
  | .pad :: .pad :: items => ⟨optPad, []⟩ :: readPads items
  | _ => []

theorem itemBytes_even {items : List OptionItem} (heven : EvenPads items) :
    itemBytes items = encodeOptions (readPads items) := by
  fun_induction EvenPads items with
  | case1 => rfl
  | case2 o items ih =>
      change o.bytes ++ itemBytes items = o.bytes ++ encodeOptions (readPads items)
      rw [ih heven]
  | case3 items ih =>
      change optPad :: optPad :: itemBytes items = optPad :: optPad :: encodeOptions (readPads items)
      rw [ih heven]
  | case4 => exact heven.elim
  | case5 => exact heven.elim

theorem wellFormed_option {o : MessageOption} {items : List OptionItem} (h : WellFormed (.option o :: items)) :
    (o.code ≠ optPad ∧ o.Encodable) ∧ WellFormed items := List.forall_mem_cons.mp h

theorem mem_readPads {items : List OptionItem} (hitems : WellFormed items) : ∀ o ∈ readPads items, o.Encodable := by
  fun_induction readPads items with
  | case1 o items ih =>
      obtain ⟨ho, hitems⟩ := wellFormed_option hitems
      exact List.forall_mem_cons.mpr ⟨ho.2, ih hitems⟩
  | case2 items ih => exact List.forall_mem_cons.mpr ⟨⟨by change optPad ≠ optEnd; decide, Nat.zero_le _⟩, ih hitems⟩
  | case3 => exact List.forall_mem_nil _

theorem filter_readPads {items : List OptionItem} (hitems : WellFormed items) (heven : EvenPads items) :
    (readPads items).filter (·.code ≠ optPad) = optionsOf items := by
  fun_induction EvenPads items with
  | case1 => rfl
  | case2 o items ih =>
      obtain ⟨ho, hitems⟩ := wellFormed_option hitems
      rw [readPads, List.filter_cons_of_pos (by simpa using ho.1), ih hitems heven]
      rfl
  | case3 items ih =>
      rw [readPads, List.filter_cons_of_neg (by simp), ih hitems heven]
      rfl
  | case4 => exact heven.elim
  | case5 => exact heven.elim

theorem filter_indices {m : Message} {items : List OptionItem} (hitems : WellFormed items) (heven : EvenPads items)
    {i : Nat} {rest : List UInt8} (h : m.HasAt i (itemBytes items ++ rest)) :
    (optionIndices i ((readPads items).map .option)).filter (m.options · ≠ optPad) = optionIndices i items := by
  fun_induction EvenPads items generalizing i with
  | case1 => rfl
  | case2 o items ih =>
      obtain ⟨ho, hitems⟩ := wellFormed_option hitems
      replace h : m.HasAt i (o.bytes ++ (itemBytes items ++ rest)) := by
        rw [← List.append_assoc]
        exact h
      obtain ⟨hcode, -, -, hnext⟩ := h.option ho.2
      rw [readPads, List.map_cons, optionIndices, optionIndices, List.filter_cons_of_pos, ih hitems heven hnext]
      simpa [hcode] using ho.1
  | case3 items ih =>
      obtain ⟨-, hpad, hnext⟩ := h.cons
      obtain ⟨-, -, hnext⟩ := hnext.cons
      change List.filter _ (i :: optionIndices (i + 1 + 1) ((readPads items).map .option)) = optionIndices (i + 1 + 1) items
      rw [List.filter_cons_of_neg (by simpa using hpad), ih hitems heven hnext]
  | case4 => exact heven.elim
  | case5 => exact heven.elim

/-- Padding sets nothing. -/
theorem DhcpInfo.Gathers.filter {first info : DhcpInfo} {os : List MessageOption} (h : info.Gathers first os) :
    info.Gathers first (os.filter (·.code ≠ optPad)) := by
  have hsets {α : Type} {code : UInt8} (hcode : code ≠ optPad) (right : Nat → Bool) (read : (Nat → UInt8) → α) (a : α) :
      lastSet (fun o => o.sets code right read) a (os.filter (·.code ≠ optPad)) =
        lastSet (fun o => o.sets code right read) a os := by
    refine lastSet_filter (fun o ho => ?_) a os
    rw [decide_eq_false_iff_not, not_not] at ho
    rw [MessageOption.sets, if_neg]
    rintro ⟨rfl, -⟩
    exact hcode ho
  constructor
  case dns =>
    intro j
    rw [hsets (by decide), h.dns j]
  · rw [hsets (by decide), h.leaseTime]
  · rw [hsets (by decide), h.t1]
  · rw [hsets (by decide), h.t2]
  · rw [hsets (by decide), h.subnetMask]
  · rw [hsets (by decide), h.gateway]
  · rw [hsets (by decide), h.mtu]
  · rw [hsets (by decide), h.serverId]

theorem firstData_filter {code : UInt8} (hcode : code ≠ optPad) (os : List MessageOption) :
    firstData (os.filter (·.code ≠ optPad)) code = firstData os code := by
  rw [firstData, List.find?_filter, firstData]
  congr 2
  funext o
  by_cases h : o.code = code
  · simp [h, hcode]
  · simp [h]

/-- Padding in pairs does not disturb the options. -/
theorem parsedUpToPads_of_even {m : Message} {items : List OptionItem} (hitems : WellFormed items)
    (h : m.HasArea items) (heven : EvenPads items) : ParsedUpToPads m items := by
  have harea : m.HasAt 4 (itemBytes items ++ [optEnd]) := h.append.2
  rw [Message.HasArea, itemBytes_even heven] at h
  obtain ⟨hlookup, hvisits, hfields, haccepts⟩ := parse_area (mem_readPads hitems) h
  have hfilter := filter_readPads hitems heven
  refine ⟨fun code hcode => ?_, ?_, ?_, haccepts⟩
  · rw [hlookup, ← hfilter, firstData_filter hcode]
  · rw [hvisits, filter_indices hitems heven harea]
  · rw [← hfilter]
    exact hfields.filter

/-- The first octet of padding that has no second. -/
theorem even_or_odd (items : List OptionItem) :
    EvenPads items ∨ ∃ pre rest, items = pre ++ .pad :: rest ∧ EvenPads pre ∧
      (rest = [] ∨ ∃ o items', rest = .option o :: items') := by
  fun_induction EvenPads items with
  | case1 => exact Or.inl trivial
  | case2 o items ih =>
      rcases ih with heven | ⟨pre, rest, rfl, heven, hrest⟩
      · exact Or.inl heven
      · exact Or.inr ⟨.option o :: pre, rest, rfl, heven, hrest⟩
  | case3 items ih =>
      rcases ih with heven | ⟨pre, rest, rfl, heven, hrest⟩
      · exact Or.inl heven
      · exact Or.inr ⟨.pad :: .pad :: pre, rest, rfl, heven, hrest⟩
  | case4 => exact Or.inr ⟨[], [], rfl, trivial, Or.inl rfl⟩
  | case5 o items => exact Or.inr ⟨[], .option o :: items, rfl, trivial, Or.inr ⟨o, items, rfl⟩⟩

/-- A single octet of padding makes the loop miss the option after it, or reject an area that ends there. -/
theorem even_of_parsedUpToPads {m : Message} {items : List OptionItem} (hitems : WellFormed items)
    (h : m.HasArea items) (hlast : m.optionsSize = 4 + (itemBytes items).length + 1) (hparsed : ParsedUpToPads m items) :
    EvenPads items := by
  rcases even_or_odd items with heven | ⟨pre, rest, rfl, heven, hrest⟩
  · exact heven
  exfalso
  have hpre : WellFormed pre := by
    refine fun o ho => hitems o ?_
    rw [optionsOf_append]
    exact List.mem_append_left _ ho
  have hos := mem_readPads hpre
  rw [Message.HasArea, itemBytes_append, itemBytes_even heven, List.append_assoc] at h
  have harea : m.HasAt 4 (encodeOptions (readPads pre) ++ (optPad :: (itemBytes rest ++ [optEnd]))) := h.append.2
  obtain ⟨fuel, i, info, hi, hpad, hnext, hmore, hvisited, hparse⟩ := parse_to_pad hos (by simp) harea
  have hvisits := hparsed.visits
  have haccepts := hparsed.accepts
  rw [hvisited, optionIndices_append, itemBytes_even heven, ← hi] at hvisits
  rw [hparse] at haccepts
  rw [itemBytes_append, itemBytes_even heven, List.length_append] at hlast
  have hend : m.options i ≠ optEnd := by
    rw [hpad]
    decide
  rcases hrest with rfl | ⟨o, items', rfl⟩
  · -- the end is read as a length of 255
    obtain ⟨-, hlen, -⟩ := hnext.cons
    have htoNat : (optEnd).toNat = 255 := rfl
    rw [show (itemBytes [OptionItem.pad]).length = 1 from rfl] at hlast
    rw [parseOptions, if_pos (by omega)] at haccepts
    dsimp only at haccepts
    rw [if_neg hend, hlen, htoNat, if_pos (by omega)] at haccepts
    cases haccepts
  · -- the option after the padding is not visited
    have hmem : i + 1 ∈
        (optionIndices 4 ((readPads pre).map .option) ++ visited m (fuel + 1) i).filter (m.options · ≠ optPad) := by
      rw [hvisits]
      exact List.mem_append_right _ List.mem_cons_self
    rcases List.mem_append.mp (List.mem_of_mem_filter hmem) with hbefore | hafter
    · have := (optionIndices_range hbefore).2
      rw [itemBytes_options] at this
      omega
    · rw [visited] at hafter
      split at hafter
      · rcases List.mem_cons.mp hafter with heq | hlater
        · omega
        · have := visited_ge hlater
          omega
      · cases hafter

/-- Both parsers read an area by the grammar exactly when it has no padding. As far as the options alone are
concerned, padding in pairs does no harm, and in a message that ends with the area any other does. -/
theorem options_parsed_by_grammar {m : Message} {items : List OptionItem} (hitems : WellFormed items)
    (h : m.HasArea items) :
    (ParsedByGrammar m items ↔ .pad ∉ items) ∧ (EvenPads items → ParsedUpToPads m items) ∧
      (m.optionsSize = 4 + (itemBytes items).length + 1 → (ParsedUpToPads m items ↔ EvenPads items)) :=
  ⟨parsedByGrammar_iff hitems h, parsedUpToPads_of_even hitems h, fun hlast =>
    ⟨even_of_parsedUpToPads hitems h hlast, parsedUpToPads_of_even hitems h⟩⟩

/-- A message that consists of its options area. -/
def areaMessage (items : List OptionItem) : Message :=
  .append ⟨fun _ => 0, optionsOffset⟩ (optCookie ++ (itemBytes items ++ [optEnd]))

theorem areaMessage_hasArea (items : List OptionItem) : (areaMessage items).HasArea items := by
  constructor
  · rw [areaMessage, Message.optionsSize, Message.append, Nat.add_sub_cancel_left, Nat.zero_add]
  · exact slice_poke_self _ _ _

/-- An acknowledgement with two octets of padding before its type, and a lease time. -/
def pairedItems : List OptionItem :=
  [.pad, .pad, .option ⟨optMessageType, [dhcpAck]⟩, .option ⟨optLeaseTime, [0, 0, 0, 9]⟩]

theorem options_parsed_by_grammar_paired : ParsedUpToPads (areaMessage pairedItems) pairedItems := by
  refine (options_parsed_by_grammar ?_ (areaMessage_hasArea pairedItems)).2.1 trivial
  exact List.forall_mem_cons.mpr ⟨⟨by decide, by decide, by decide⟩,
    List.forall_mem_singleton.mpr ⟨by decide, by decide, by decide⟩⟩

/-- An acknowledgement with one octet of padding before its type. -/
def paddedItems : List OptionItem := [.pad, .option ⟨optMessageType, [dhcpAck]⟩]

theorem options_missed_after_pad : WellFormed paddedItems ∧ (areaMessage paddedItems).HasArea paddedItems ∧
    (areaMessage paddedItems).mSize ≤ messageCapacity ∧
    firstData (optionsOf paddedItems) optMessageType = some [dhcpAck] ∧
    (areaMessage paddedItems).optionData optMessageType = none ∧ ¬ ParsedByGrammar (areaMessage paddedItems) paddedItems := by
  have hlookup : (areaMessage paddedItems).optionData optMessageType = none := by decide +kernel
  refine ⟨List.forall_mem_singleton.mpr ⟨by decide, by decide, by decide⟩, areaMessage_hasArea _, by decide, rfl, hlookup,
    fun hparsed => ?_⟩
  have hfound := hparsed.lookup optMessageType
  rw [hlookup] at hfound
  cases hfound

end Trout.Dhcp

import Trout.DhcpGrammar

/-! Which octets the lookup and the option loop of the client read. The lookup only makes sure that one
octet follows the header of an option, and the loop leaves the header out of its bound, so neither
keeps to the octets that were received. -/

namespace Trout.Dhcp
open RingWindow

/-- The value does not depend on octets that were not received. -/
def Message.ReceivedOnly {α : Type} (m : Message) (value : Message → α) : Prop :=
  ∀ m' : Message, m'.mSize = m.mSize → (∀ a < m.mSize, m'.dhcpData a = m.dhcpData a) → value m' = value m

theorem options_received {m m' : Message} (hbytes : ∀ a < m.mSize, m'.dhcpData a = m.dhcpData a) {i : Nat}
    (hi : i < m.optionsSize) : m'.options i = m.options i := by
  rw [Message.optionsSize] at hi
  exact hbytes _ (by omega)

theorem optionsSize_eq {m m' : Message} (hsize : m'.mSize = m.mSize) : m'.optionsSize = m.optionsSize := by
  rw [Message.optionsSize, hsize, Message.optionsSize]

/-- The index behind the option at index `i`. -/
def Message.optionEnd (m : Message) (i : Nat) : Nat := i + 2 + (m.options (i + 1)).toNat

/-! ### The lookup -/

/-- The indices of the options that the loop of `getOption` comes to from index `i` on. -/
def lookupIndices (m : Message) : Nat → Nat → List Nat
  | 0, _ => []
  | fuel + 1, i =>
      if i + 2 < m.optionsSize ∧ m.options i ≠ optEnd then i :: lookupIndices m fuel (m.optionEnd i) else []

theorem lookupIndices_range {m : Message} {fuel i j : Nat} (h : j ∈ lookupIndices m fuel i) :
    i ≤ j ∧ j + 2 < m.optionsSize := by
  induction fuel generalizing i with
  | zero => cases h
  | succ fuel ih =>
      rw [lookupIndices] at h
      split at h
      · rename_i hmore
        rcases List.mem_cons.mp h with rfl | hlater
        · exact ⟨le_refl _, hmore.1⟩
        · obtain ⟨hle, hlt⟩ := ih hlater
          rw [Message.optionEnd] at hle
          exact ⟨by omega, hlt⟩
      · cases h

theorem lookupIndices_sorted (m : Message) (fuel i : Nat) : (lookupIndices m fuel i).Pairwise (· < ·) := by
  induction fuel generalizing i with
  | zero => exact .nil
  | succ fuel ih =>
      rw [lookupIndices]
      split
      · refine List.pairwise_cons.mpr ⟨fun j hj => ?_, ih _⟩
        have hle := (lookupIndices_range hj).1
        rw [Message.optionEnd] at hle
        omega
      · exact .nil

/-- The lookup is a search among the options that its loop comes to. -/
theorem getOptionFrom_eq_find? (m : Message) (code : UInt8) (fuel i : Nat) :
    m.getOptionFrom code fuel i =
      ((lookupIndices m fuel i).find? (m.options · == code)).map fun j => (j + 2, m.options (j + 1)) := by
  induction fuel generalizing i with
  | zero => rfl
  | succ fuel ih =>
      rw [Message.getOptionFrom, lookupIndices]
      by_cases hmore : i + 2 < m.optionsSize
      · rw [if_pos hmore]
        dsimp only
        by_cases hend : m.options i = optEnd
        · rw [if_pos hend, if_neg fun h => h.2 hend]
          rfl
        have hcomes : i + 2 < m.optionsSize ∧ m.options i ≠ optEnd := ⟨hmore, hend⟩
        rw [if_neg hend, if_pos hcomes]
        by_cases hcode : m.options i = code
        · rw [if_pos hcode, List.find?_cons_of_pos (by rwa [beq_iff_eq])]
          rfl
        · rw [if_neg hcode, List.find?_cons_of_neg (by rwa [beq_iff_eq])]
          exact ih _
      · rw [if_neg hmore, if_neg fun h => hmore h.1]
        rfl

/-- What the lookup finds is the first option with the code. -/
theorem getOption_eq_some {m : Message} {code : UInt8} {found : Nat × UInt8} (h : m.getOption code = some found) :
    ∃ i ∈ lookupIndices m m.optionsSize 4, found = (i + 2, m.options (i + 1)) ∧ m.options i = code ∧
      ∀ j ∈ lookupIndices m m.optionsSize 4, m.options j = code → i ≤ j := by
  rw [Message.getOption, getOptionFrom_eq_find?, Option.map_eq_some_iff] at h
  obtain ⟨i, hfind, rfl⟩ := h
  obtain ⟨hcode, before, after, hlist, hbefore⟩ := List.find?_eq_some_iff_append.mp hfind
  refine ⟨i, List.mem_of_find?_eq_some hfind, rfl, eq_of_beq hcode, fun j hj hjcode => ?_⟩
  have hsorted := lookupIndices_sorted m m.optionsSize 4
  rw [hlist] at hj hsorted
  rcases List.mem_append.mp hj with hearlier | hlater
  · have hne := hbefore j hearlier
    rw [hjcode, beq_self_eq_true] at hne
    cases hne
  rcases List.mem_cons.mp hlater with rfl | hlater
  · exact le_refl _
  · exact Nat.le_of_lt ((List.pairwise_cons.mp (List.pairwise_append.mp hsorted).2.1).1 j hlater)

/-- An option that the loop comes to makes the lookup of its code succeed. -/
theorem getOption_isSome {m : Message} {i : Nat} (hi : i ∈ lookupIndices m m.optionsSize 4) :
    ∃ found, m.getOption (m.options i) = some found := by
  rw [Message.getOption, getOptionFrom_eq_find?]
  have hsome : ((lookupIndices m m.optionsSize 4).find? (m.options · == m.options i)).isSome :=
    List.find?_isSome.mpr ⟨i, hi, beq_self_eq_true _⟩
  obtain ⟨j, hj⟩ := Option.isSome_iff_exists.mp hsome
  exact ⟨_, by rw [hj, Option.map_some]⟩

theorem getOption_receivedOnly (m : Message) (code : UInt8) : m.ReceivedOnly (·.getOption code) := by
  intro m' hsize hbytes
  have hfrom : ∀ fuel i, m'.getOptionFrom code fuel i = m.getOptionFrom code fuel i := by
    intro fuel
    induction fuel with
    | zero => exact fun _ => rfl
    | succ fuel ih =>
        intro i
        rw [Message.getOptionFrom, Message.getOptionFrom, optionsSize_eq hsize]
        by_cases hmore : i + 2 < m.optionsSize
        · rw [if_pos hmore, if_pos hmore, options_received hbytes (by omega), options_received hbytes (by omega)]
          dsimp only
          rw [ih]
        · rw [if_neg hmore, if_neg hmore]
  change m'.getOption code = m.getOption code
  rw [Message.getOption, hfrom, optionsSize_eq hsize, Message.getOption]

/-- The data that the lookup finds lies between the cookie and the end of the message. -/
def Message.LookupInside (m : Message) (code : UInt8) : Prop :=
  ∀ i length, m.getOption code = some (i, length) → 4 ≤ i ∧ i + length.toNat ≤ m.optionsSize

/-- The lookup of every code, and what the accessors make of it. -/
structure Message.LookupSafe (m : Message) : Prop where
  inside : ∀ code, m.LookupInside code
  type : m.ReceivedOnly Message.type
  serverId : m.ReceivedOnly Message.serverId
  requestedIp : m.ReceivedOnly Message.requestedIp

/-- An option that extends beyond the end of the message has the code of an option before it. -/
def Message.FirstOptionsFit (m : Message) : Prop :=
  ∀ i ∈ lookupIndices m m.optionsSize 4, m.optionsSize < m.optionEnd i →
    ∃ j ∈ lookupIndices m m.optionsSize 4, j < i ∧ m.options j = m.options i

theorem lookupInside_of_fit {m : Message} (hfit : m.FirstOptionsFit) (code : UInt8) : m.LookupInside code := by
  intro start length hfound
  obtain ⟨i, hi, heq, hcode, hfirst⟩ := getOption_eq_some hfound
  obtain ⟨rfl, rfl⟩ := Prod.mk.inj heq
  have hrange := lookupIndices_range hi
  refine ⟨by omega, Nat.le_of_not_lt fun hbeyond => ?_⟩
  obtain ⟨j, hj, hlt, hsame⟩ := hfit i hi hbeyond
  have hle := hfirst j hj (hsame.trans hcode)
  omega

theorem fit_of_lookupInside {m : Message} (hinside : ∀ code, m.LookupInside code) : m.FirstOptionsFit := by
  intro i hi hbeyond
  obtain ⟨found, hfound⟩ := getOption_isSome hi
  obtain ⟨j, hj, rfl, hcode, hfirst⟩ := getOption_eq_some hfound
  have hle := hfirst i hi rfl
  refine ⟨j, hj, Nat.lt_of_le_of_ne hle ?_, hcode⟩
  rintro rfl
  have hfits := (hinside _ _ _ hfound).2
  rw [Message.optionEnd] at hbeyond
  omega

/-- The type has one octet, and one octet behind the header is always there. -/
theorem type_receivedOnly (m : Message) : m.ReceivedOnly Message.type := by
  intro m' hsize hbytes
  have hsame : m'.getOption optMessageType = m.getOption optMessageType :=
    getOption_receivedOnly m optMessageType m' hsize hbytes
  change m'.type = m.type
  unfold Message.type
  rw [hsame]
  cases hfound : m.getOption optMessageType with
  | none => rfl
  | some found =>
      obtain ⟨i, hi, rfl, -, -⟩ := getOption_eq_some hfound
      have hrange := lookupIndices_range hi
      dsimp only
      rw [options_received hbytes (by omega)]

theorem addressOption_receivedOnly {m : Message} {code : UInt8} (hinside : m.LookupInside code) :
    m.ReceivedOnly (Message.addressOption code) := by
  intro m' hsize hbytes
  have hsame : m'.getOption code = m.getOption code := getOption_receivedOnly m code m' hsize hbytes
  change Message.addressOption code m' = Message.addressOption code m
  unfold Message.addressOption
  rw [hsame]
  cases hfound : m.getOption code with
  | none => rfl
  | some found =>
      obtain ⟨i, length⟩ := found
      dsimp only
      split
      · rename_i hlength
        have hfits := (hinside i length hfound).2
        have hfour : length.toNat = 4 := by rw [hlength]; rfl
        rw [Message.optionsSize] at hfits
        rw [load32, load32, hbytes _ (by omega), hbytes _ (by omega), hbytes _ (by omega), hbytes _ (by omega)]
      · rfl

/-- The lookup stays inside the message, for every code, exactly when every option that runs over the end of
the message has the code of an earlier one. -/
theorem lookup_inside_iff (m : Message) : m.LookupSafe ↔ m.FirstOptionsFit := by
  constructor
  · intro hsafe
    exact fit_of_lookupInside hsafe.inside
  · intro hfit
    have hinside := lookupInside_of_fit hfit
    refine ⟨hinside, type_receivedOnly m, ?_, ?_⟩
    · rw [Message.serverId_eq_addressOption]
      exact addressOption_receivedOnly (hinside optServerId)
    · rw [Message.requestedIp_eq_addressOption]
      exact addressOption_receivedOnly (hinside optRequestedIp)

/-- An acknowledgement that ends after the first octet of the server's address. -/
def truncatedServerId : Message :=
  (Message.make opBootReply plainNetwork.macAddress dhcpAck 2).append [optServerId, 4, 10]

/-- The same with other octets in the buffer behind its end. -/
def staleServerId : Message := { truncatedServerId with dhcpData := poke truncatedServerId.dhcpData truncatedServerId.mSize [7] }

theorem lookup_beyond_end : truncatedServerId.isValidDhcpMessageOp opBootReply = true ∧
    truncatedServerId.mSize ≤ messageCapacity ∧ truncatedServerId.optionsSize = 10 ∧
    truncatedServerId.getOption optServerId = some (9, 4) ∧ staleServerId.serverId ≠ truncatedServerId.serverId ∧
    ¬ truncatedServerId.LookupSafe := by
  have hfound : truncatedServerId.getOption optServerId = some (9, 4) := by decide +kernel
  have hsize : truncatedServerId.optionsSize = 10 := by decide +kernel
  refine ⟨by decide +kernel, by decide +kernel, hsize, hfound, by decide +kernel, fun hsafe => ?_⟩
  have hfits := (hsafe.inside optServerId 9 4 hfound).2
  rw [hsize] at hfits
  exact absurd hfits (by decide)

/-! ### The option loop -/

/-- The indices of the data that the `switch` reads for the option at index `i`. -/
def switchReads (m : Message) (i : Nat) : List Nat :=
  let optCode := m.options i
  let optLength := (m.options (i + 1)).toNat
  let opt := i + 2
  if optCode ∈ [optLeaseTime, optT1, optT2, optSubnetMask, optServerId] then
    if optLength = 4 then List.range' opt 4 else []
  else if optCode = optGateway then
    if optLength ≥ 4 then List.range' opt 4 else []
  else if optCode = optMtu then
    if optLength = 2 then List.range' opt 2 else []
  else if optCode = optDns then
    (List.range 4).flatMap fun j => if optLength ≥ 4 * (j + 1) then List.range' (opt + 4 * j) 4 else []
  else
    []

/-- The indices that the loop of `configureDhcp` reads from index `i` on: codes, lengths and data. -/
def loopReads (m : Message) : Nat → Nat → List Nat
  | 0, _ => []
  | fuel + 1, i =>
      if i + 1 < m.optionsSize then
        i :: (i + 1) ::
          if m.options i = optEnd ∨ (m.options (i + 1)).toNat + i ≥ m.optionsSize then []
          else switchReads m i ++ loopReads m fuel (m.optionEnd i)
      else
        []

/-- The index of the option at which the loop rejects the message. -/
def rejectedAt (m : Message) : Nat → Nat → Option Nat
  | 0, _ => none
  | fuel + 1, i =>
      if i + 1 < m.optionsSize then
        if m.options i = optEnd then none
        else if (m.options (i + 1)).toNat + i ≥ m.optionsSize then some i
        else rejectedAt m fuel (m.optionEnd i)
      else
        none

/-- The options, other than the end, that the loop comes to. -/
def loopOptions (m : Message) : List Nat :=
  visited m m.optionsSize 4 ++ (rejectedAt m m.optionsSize 4).toList

theorem mem_visited {m : Message} {fuel i j : Nat} (h : j ∈ visited m fuel i) :
    (m.options (j + 1)).toNat + j < m.optionsSize := by
  induction fuel generalizing i with
  | zero => cases h
  | succ fuel ih =>
      rw [visited] at h
      split at h
      · rename_i hfits
        rcases List.mem_cons.mp h with rfl | hlater
        · exact hfits.2.2
        · exact ih hlater
      · cases h

theorem rejectedAt_eq_some {m : Message} {fuel i j : Nat} (h : rejectedAt m fuel i = some j) :
    m.optionsSize ≤ (m.options (j + 1)).toNat + j := by
  fun_induction rejectedAt m fuel i with
  | case1 => cases h
  | case2 => cases h
  | case3 fuel i hmore hend hlong =>
      cases h
      exact hlong
  | case4 fuel i hmore hend hfits ih => exact ih h
  | case5 => cases h

/-- The result of the loop says whether it has rejected an option. -/
theorem parseOptions_rejected (m : Message) (fuel i : Nat) (info : DhcpInfo) :
    (parseOptions m fuel i info).2 = (rejectedAt m fuel i).isNone := by
  induction fuel generalizing i info with
  | zero => rfl
  | succ fuel ih =>
      rw [parseOptions, rejectedAt]
      by_cases hmore : i + 1 < m.optionsSize
      · rw [if_pos hmore, if_pos hmore]
        dsimp only
        by_cases hend : m.options i = optEnd
        · rw [if_pos hend, if_pos hend]
          rfl
        rw [if_neg hend, if_neg hend]
        by_cases hlong : (m.options (i + 1)).toNat + i ≥ m.optionsSize
        · rw [if_pos hlong, if_pos hlong]
          rfl
        · rw [if_neg hlong, if_neg hlong]
          exact ih _ _
      · rw [if_neg hmore, if_neg hmore]
        rfl

/-- The `switch` keeps to the data of its option. -/
theorem switchReads_range {m : Message} {i a : Nat} (h : a ∈ switchReads m i) : a < m.optionEnd i := by
  rw [Message.optionEnd]
  unfold switchReads at h
  dsimp only at h
  split at h
  · split at h
    · have := (List.mem_range'_1.mp h).2
      omega
    · cases h
  split at h
  · split at h
    · have := (List.mem_range'_1.mp h).2
      omega
    · cases h
  split at h
  · split at h
    · have := (List.mem_range'_1.mp h).2
      omega
    · cases h
  split at h
  · obtain ⟨j, -, hj⟩ := List.mem_flatMap.mp h
    split at hj
    · have := (List.mem_range'_1.mp hj).2
      omega
    · cases hj
  · cases h

/-- Every octet that the loop reads belongs to a header or to the data of an option that it accepts. -/
theorem mem_loopReads {m : Message} {fuel i a : Nat} (h : a ∈ loopReads m fuel i) :
    a < m.optionsSize ∨ ∃ j ∈ visited m fuel i, a < m.optionEnd j := by
  induction fuel generalizing i with
  | zero => cases h
  | succ fuel ih =>
      rw [loopReads] at h
      split at h
      case isFalse => cases h
      rename_i hmore
      rcases List.mem_cons.mp h with rfl | h
      · exact Or.inl (by omega)
      rcases List.mem_cons.mp h with rfl | h
      · exact Or.inl hmore
      split at h
      · cases h
      rename_i hgoes
      obtain ⟨hend, hfits⟩ := not_or.mp hgoes
      rw [visited, if_pos ⟨hmore, hend, Nat.lt_of_not_le hfits⟩]
      rcases List.mem_append.mp h with hdata | hlater
      · exact Or.inr ⟨i, List.mem_cons_self, switchReads_range hdata⟩
      · rcases ih hlater with hinside | ⟨j, hj, hlt⟩
        · exact Or.inl hinside
        · exact Or.inr ⟨j, List.mem_cons_of_mem i hj, hlt⟩

section Agreement
variable {m m' : Message}

/-- Words of octets that agree. -/
theorem words_agree {i : Nat} (h : ∀ a ∈ List.range' i 4, m'.options a = m.options a) :
    addressAt m' i = addressAt m i ∧
      netLoad32 m'.dhcpData (optionsOffset + i) = netLoad32 m.dhcpData (optionsOffset + i) := by
  have hoctets : ∀ k < 4, m'.dhcpData (optionsOffset + i + k) = m.dhcpData (optionsOffset + i + k) := by
    intro k hk
    rw [Nat.add_assoc]
    exact h (i + k) (List.mem_range'_1.mpr ⟨by omega, by omega⟩)
  exact ⟨load32_congr hoctets, netLoad32_congr hoctets⟩

/-- What the `switch` does is decided by the header and the octets that it reads. -/
theorem visit_congr {i : Nat} (hcode : m'.options i = m.options i) (hlength : m'.options (i + 1) = m.options (i + 1))
    (hdata : ∀ a ∈ switchReads m i, m'.options a = m.options a) (info : DhcpInfo) : info.visit m' i = info.visit m i := by
  have hword (hmem : m.options i ∈ [optLeaseTime, optT1, optT2, optSubnetMask, optServerId])
      (hfour : (m.options (i + 1)).toNat = 4) :
      addressAt m' (i + 2) = addressAt m (i + 2) ∧
        netLoad32 m'.dhcpData (optionsOffset + (i + 2)) = netLoad32 m.dhcpData (optionsOffset + (i + 2)) := by
    rw [switchReads, if_pos hmem, if_pos hfour] at hdata
    exact words_agree hdata
  unfold DhcpInfo.visit
  rw [hcode, hlength]
  refine ite_congr rfl (fun hlease => ite_congr rfl (fun hfour => ?_) fun _ => rfl) fun _ => ?_
  · rw [(hword (by rw [hlease]; decide) hfour).2]
  refine ite_congr rfl (fun ht1 => ite_congr rfl (fun hfour => ?_) fun _ => rfl) fun _ => ?_
  · rw [(hword (by rw [ht1]; decide) hfour).2]
  refine ite_congr rfl (fun ht2 => ite_congr rfl (fun hfour => ?_) fun _ => rfl) fun _ => ?_
  · rw [(hword (by rw [ht2]; decide) hfour).2]
  refine ite_congr rfl (fun hmask => ite_congr rfl (fun hfour => ?_) fun _ => rfl) fun _ => ?_
  · rw [(hword (by rw [hmask]; decide) hfour).1]
  refine ite_congr rfl (fun hgateway => ite_congr rfl (fun hlong => ?_) fun _ => rfl) fun _ => ?_
  · rw [switchReads, hgateway, if_neg (by decide), if_pos rfl, if_pos hlong] at hdata
    rw [(words_agree hdata).1]
  refine ite_congr rfl (fun hmtu => ite_congr rfl (fun htwo => ?_) fun _ => rfl) fun _ => ?_
  · rw [switchReads, hmtu, if_neg (by decide), if_neg (by decide), if_pos rfl, if_pos htwo] at hdata
    rw [netLoad16_congr fun k hk => ?_]
    rw [Nat.add_assoc]
    exact hdata (i + 2 + k) (List.mem_range'_1.mpr ⟨by omega, by omega⟩)
  refine ite_congr rfl (fun hdns => ?_) fun _ => ?_
  · rw [switchReads, hdns, if_neg (by decide), if_neg (by decide), if_neg (by decide), if_pos rfl] at hdata
    congr 1
    funext j
    refine ite_congr rfl (fun hlong => (words_agree fun a ha => hdata a ?_).1) fun _ => rfl
    exact List.mem_flatMap.mpr ⟨j.val, List.mem_range.mpr j.isLt, by rwa [if_pos hlong]⟩
  refine ite_congr rfl (fun hserver => ite_congr rfl (fun hfour => ?_) fun _ => rfl) fun _ => rfl
  rw [(hword (by rw [hserver]; decide) hfour).1]

/-- The loop is decided by the octets that it reads. -/
theorem parseOptions_congr (hsize : m'.optionsSize = m.optionsSize) {fuel i : Nat}
    (hreads : ∀ a ∈ loopReads m fuel i, m'.options a = m.options a) (info : DhcpInfo) :
    parseOptions m' fuel i info = parseOptions m fuel i info := by
  induction fuel generalizing i info with
  | zero => rfl
  | succ fuel ih =>
      rw [parseOptions, parseOptions, hsize]
      rw [loopReads] at hreads
      refine ite_congr rfl (fun hmore => ?_) fun _ => rfl
      rw [if_pos hmore] at hreads
      obtain ⟨hcode, hreads⟩ := List.forall_mem_cons.mp hreads
      obtain ⟨hlength, hreads⟩ := List.forall_mem_cons.mp hreads
      dsimp only
      rw [hcode, hlength]
      refine ite_congr rfl (fun _ => rfl) fun hend => ite_congr rfl (fun _ => rfl) fun hfits => ?_
      rw [if_neg (not_or.mpr ⟨hend, hfits⟩)] at hreads
      obtain ⟨hdata, hlater⟩ := List.forall_mem_append.mp hreads
      rw [visit_congr hcode hlength hdata]
      exact ih hlater _

end Agreement

/-- The loop keeps to the octets that were received, and rejects an option if and only if it extends beyond them. -/
structure Message.LoopInBounds (m : Message) : Prop where
  reads : ∀ a ∈ loopReads m m.optionsSize 4, a < m.optionsSize
  parsed : m.ReceivedOnly fun m => parseOptions m m.optionsSize 4 .zero
  rejects : ∀ i ∈ loopOptions m, rejectedAt m m.optionsSize 4 = some i ↔ m.optionsSize < m.optionEnd i
  accepts : (parseOptions m m.optionsSize 4 .zero).2 = true ↔ ∀ i ∈ loopOptions m, m.optionEnd i ≤ m.optionsSize

/-- No option that the loop visits ends one octet beyond the end of the message. -/
def Message.NoneEndsOneBeyond (m : Message) : Prop :=
  ∀ i ∈ visited m m.optionsSize 4, m.optionEnd i ≠ m.optionsSize + 1

/-- An option that is accepted ends one octet beyond the end at most. -/
theorem visited_end {m : Message} {fuel i j : Nat} (h : j ∈ visited m fuel i) : m.optionEnd j ≤ m.optionsSize + 1 := by
  have hfits := mem_visited h
  rw [Message.optionEnd]
  omega

theorem rejected_end {m : Message} {fuel i j : Nat} (h : rejectedAt m fuel i = some j) :
    m.optionsSize < m.optionEnd j := by
  have hlong := rejectedAt_eq_some h
  rw [Message.optionEnd]
  omega

/-- An option is either accepted or rejected. -/
theorem not_rejected_of_visited {m : Message} {fuel i j : Nat} (h : j ∈ visited m fuel i) :
    rejectedAt m fuel i ≠ some j := by
  intro hrejected
  have hfits := mem_visited h
  have hlong := rejectedAt_eq_some hrejected
  omega

theorem mem_loopOptions {m : Message} {i : Nat} :
    i ∈ loopOptions m ↔ i ∈ visited m m.optionsSize 4 ∨ rejectedAt m m.optionsSize 4 = some i := by
  rw [loopOptions, List.mem_append, Option.mem_toList]

theorem loop_rejects_iff {m : Message} (hnone : m.NoneEndsOneBeyond) {i : Nat} (hi : i ∈ loopOptions m) :
    rejectedAt m m.optionsSize 4 = some i ↔ m.optionsSize < m.optionEnd i := by
  refine ⟨rejected_end, fun hbeyond => ?_⟩
  rcases mem_loopOptions.mp hi with hvisited | hrejected
  · have hle := visited_end hvisited
    have hne := hnone i hvisited
    omega
  · exact hrejected

theorem loop_accepts_iff {m : Message} (hnone : m.NoneEndsOneBeyond) :
    (parseOptions m m.optionsSize 4 .zero).2 = true ↔ ∀ i ∈ loopOptions m, m.optionEnd i ≤ m.optionsSize := by
  rw [parseOptions_rejected, Option.isNone_iff_eq_none]
  constructor
  · intro haccepted i hi
    refine Nat.le_of_not_lt fun hbeyond => ?_
    rw [(loop_rejects_iff hnone hi).mpr hbeyond] at haccepted
    cases haccepted
  · intro hfit
    refine Option.eq_none_iff_forall_ne_some.mpr fun i hi => ?_
    have hle := hfit i (mem_loopOptions.mpr (Or.inr hi))
    have hlt := rejected_end hi
    omega

theorem loop_reads_inside {m : Message} (hnone : m.NoneEndsOneBeyond) {a : Nat}
    (ha : a ∈ loopReads m m.optionsSize 4) : a < m.optionsSize := by
  rcases mem_loopReads ha with hinside | ⟨i, hi, hlt⟩
  · exact hinside
  · have hle := visited_end hi
    have hne := hnone i hi
    omega

/-- The option loop reads and accepts what fits exactly when none of the options that it visits ends one octet
beyond the end of the message. -/
theorem loop_in_bounds_iff (m : Message) : m.LoopInBounds ↔ m.NoneEndsOneBeyond := by
  constructor
  · intro hbounds i hi hend
    have hrejected := (hbounds.rejects i (mem_loopOptions.mpr (Or.inl hi))).mpr (by omega)
    exact not_rejected_of_visited hi hrejected
  · intro hnone
    have hreads : ∀ a ∈ loopReads m m.optionsSize 4, a < m.optionsSize := fun a => loop_reads_inside hnone
    refine ⟨hreads, ?_, fun i => loop_rejects_iff hnone, loop_accepts_iff hnone⟩
    intro m' hsize hbytes
    have hoptions := optionsSize_eq hsize
    dsimp only
    rw [hoptions]
    exact parseOptions_congr hoptions (fun a ha => options_received hbytes (hreads a ha)) .zero

/-- An acknowledgement that ends after the third octet of the lease time. -/
def truncatedLease : Message :=
  (Message.make opBootReply plainNetwork.macAddress dhcpAck 2).append [optLeaseTime, 4, 0, 0, 14]

theorem loop_beyond_end : truncatedLease.isValidDhcpMessageOp opBootReply = true ∧
    truncatedLease.type = dhcpAck ∧ truncatedLease.mSize ≤ messageCapacity ∧ truncatedLease.optionsSize = 12 ∧
    rejectedAt truncatedLease truncatedLease.optionsSize 4 = none ∧
    12 ∈ loopReads truncatedLease truncatedLease.optionsSize 4 ∧ ¬ truncatedLease.LoopInBounds := by
  have hsize : truncatedLease.optionsSize = 12 := by decide +kernel
  have hread : 12 ∈ loopReads truncatedLease truncatedLease.optionsSize 4 := by decide +kernel
  refine ⟨by decide +kernel, by decide +kernel, by decide +kernel, hsize, by decide +kernel, hread, fun hbounds => ?_⟩
  have hlt := hbounds.reads 12 hread
  rw [hsize] at hlt
  exact absurd hlt (by decide)

end Trout.Dhcp

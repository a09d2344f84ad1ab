import Trout.DhcpSocket

/-! The checksums of the datagrams that `sendRawUdp` sends. The code adds up words in pieces, in 32 bits, and folds
after each piece; the sums in ones' complement that a receiver computes come out as the second zero. -/

namespace Trout.Dhcp
open RingWindow OnesComplement

/-! ### Words -/

/-- The half words of a buffer as they lie in memory; an odd buffer is padded with a zero byte. -/
def leWords : List UInt8 → List Nat
  | low :: high :: rest => (low.toNat + 256 * high.toNat) :: leWords rest
  | [last] => [last.toNat]
  | [] => []

/-- The half words of a buffer in network order. -/
def beWords : List UInt8 → List Nat
  | high :: low :: rest => (256 * high.toNat + low.toNat) :: beWords rest
  | [last] => [256 * last.toNat]
  | [] => []

theorem leWords_le (buffer : List UInt8) : ∀ w ∈ leWords buffer, w ≤ 65535 := by
  fun_induction leWords buffer with
  | case1 low high rest ih =>
      rw [List.forall_mem_cons]
      have hlow := low.toNat_lt
      have hhigh := high.toNat_lt
      exact ⟨by omega, ih⟩
  | case2 last =>
      rw [List.forall_mem_singleton]
      have hlast := last.toNat_lt
      omega
  | case3 => exact List.forall_mem_nil _

theorem beWords_le (buffer : List UInt8) : ∀ w ∈ beWords buffer, w ≤ 65535 := by
  fun_induction beWords buffer with
  | case1 high low rest ih =>
      rw [List.forall_mem_cons]
      have hlow := low.toNat_lt
      have hhigh := high.toNat_lt
      exact ⟨by omega, ih⟩
  | case2 last =>
      rw [List.forall_mem_singleton]
      have hlast := last.toNat_lt
      omega
  | case3 => exact List.forall_mem_nil _

/-- A buffer is at most as heavy as its length allows. -/
theorem leWords_sum_le (buffer : List UInt8) : (leWords buffer).sum ≤ 65535 * ((buffer.length + 1) / 2) := by
  fun_induction leWords buffer with
  | case1 low high rest ih =>
      have hlow := low.toNat_lt
      have hhigh := high.toNat_lt
      rw [List.sum_cons, List.length_cons, List.length_cons]
      omega
  | case2 last =>
      have hlast := last.toNat_lt
      rw [List.sum_singleton, List.length_singleton]
      omega
  | case3 => exact Nat.zero_le _

/-- The words of an even buffer and of what follows it. -/
theorem leWords_append {first : List UInt8} (heven : first.length % 2 = 0) (second : List UInt8) :
    leWords (first ++ second) = leWords first ++ leWords second := by
  fun_induction leWords first with
  | case1 low high rest ih =>
      rw [List.length_cons, List.length_cons] at heven
      change _ :: leWords (rest ++ second) = _
      rw [ih (by omega)]
      rfl
  | case2 last => exact absurd heven (by simp)
  | case3 => rfl

/-- Half words in network order sum up to the others, shifted by a byte. -/
theorem beWords_sum_modEq (buffer : List UInt8) : (beWords buffer).sum ≡ 256 * (leWords buffer).sum [MOD 65535] := by
  fun_induction beWords buffer with
  | case1 high low rest ih =>
      have hword : 256 * high.toNat + low.toNat ≡ 256 * (high.toNat + 256 * low.toNat) [MOD 65535] := by
        have hbase : 65536 * low.toNat ≡ 1 * low.toNat [MOD 65535] := Nat.ModEq.mul_right _ (by decide)
        calc 256 * high.toNat + low.toNat ≡ 256 * high.toNat + 65536 * low.toNat [MOD 65535] := by
              apply Nat.ModEq.add_left
              rw [Nat.one_mul] at hbase
              exact hbase.symm
          _ = 256 * (high.toNat + 256 * low.toNat) := by ring
      rw [leWords, List.sum_cons, List.sum_cons, Nat.mul_add]
      exact hword.add ih
  | case2 last => exact Nat.ModEq.rfl
  | case3 => exact Nat.ModEq.rfl

theorem beWords_sum_eq_zero_iff (buffer : List UInt8) : (beWords buffer).sum = 0 ↔ 256 * (leWords buffer).sum = 0 := by
  fun_induction beWords buffer with
  | case1 high low rest ih =>
      rw [leWords, List.sum_cons, List.sum_cons]
      omega
  | case2 last => exact Iff.rfl
  | case3 => exact Iff.rfl

/-- The order of the bytes in a word does not matter to a sum that verifies. -/
theorem sum_beWords_eq_max_iff (buffer : List UInt8) :
    OnesComplement.sum 65535 (beWords buffer) = 65535 ↔ OnesComplement.sum 65535 (leWords buffer) = 65535 := by
  rw [sum_eq_reduce (by decide) (beWords_le buffer), sum_eq_reduce (by decide) (leWords_le buffer),
    reduce_congr (beWords_sum_modEq buffer) (beWords_sum_eq_zero_iff buffer)]
  exact reduce_mul_eq_max_iff (by decide) (by decide) (by decide)

/-! ### The code's sums -/

theorem word_toNat (low high : UInt8) : (low.toUInt32 ||| high.toUInt32 <<< 8).toNat = low.toNat + 256 * high.toNat := by
  have hlow := low.toNat_lt
  have hhigh := high.toNat_lt
  have hshift : (high.toUInt32 <<< 8).toNat = high.toNat <<< 8 := by
    rw [UInt32.toNat_shiftLeft, UInt8.toNat_toUInt32]
    change high.toNat <<< 8 % 2 ^ 32 = _
    rw [Nat.shiftLeft_eq]
    omega
  rw [UInt32.toNat_or, hshift, UInt8.toNat_toUInt32, Nat.or_comm, ← Nat.shiftLeft_add_eq_or_of_lt hlow, Nat.shiftLeft_eq]
  omega

/-- As long as they fit 32 bits, the code adds up the words. -/
theorem accumulate_toNat {buffer : List UInt8} {checksum : UInt32}
    (hfits : checksum.toNat + (leWords buffer).sum < 2 ^ 32) :
    (accumulate buffer checksum).toNat = checksum.toNat + (leWords buffer).sum := by
  fun_induction accumulate buffer checksum with
  | case1 low high rest checksum ih =>
      rw [leWords, List.sum_cons] at hfits ⊢
      have hword : (checksum + (low.toUInt32 ||| high.toUInt32 <<< 8)).toNat =
          checksum.toNat + (low.toNat + 256 * high.toNat) := by
        rw [UInt32.toNat_add, word_toNat]
        exact Nat.mod_eq_of_lt (by omega)
      rw [ih (by omega), hword]
      omega
  | case2 last checksum =>
      rw [leWords, List.sum_singleton] at hfits ⊢
      rw [UInt32.toNat_add, UInt8.toNat_toUInt32]
      exact Nat.mod_eq_of_lt hfits
  | case3 checksum => rfl

theorem foldChecksum_toNat (checksum : UInt32) : (foldChecksum checksum).toNat = reduce 65535 checksum.toNat := by
  fun_induction foldChecksum checksum with
  | case1 checksum msw hmsw =>
      have hsmall : checksum.toNat / 65536 = 0 := by
        rw [← msw_toNat]
        exact congrArg UInt32.toNat hmsw
      exact (reduce_of_le (by omega)).symm
  | case2 checksum msw hmsw ih => rw [ih, carry_toNat, reduce_carry]

theorem addChecksum_toNat {buffer : List UInt8} {checksum : UInt32}
    (hfits : checksum.toNat + (leWords buffer).sum < 2 ^ 32) :
    (addChecksum buffer checksum).toNat = reduce 65535 (checksum.toNat + (leWords buffer).sum) := by
  rw [addChecksum, foldChecksum_toNat, accumulate_toNat hfits]

theorem addChecksum_le (buffer : List UInt8) (checksum : UInt32) : (addChecksum buffer checksum).toNat ≤ 65535 := by
  rw [addChecksum, foldChecksum_toNat]
  exact reduce_le (by decide) _

/-- A folded checksum and a buffer that a datagram can hold do not overflow. -/
theorem fits_of_le {buffer : List UInt8} {checksum : UInt32} (hchecksum : checksum.toNat ≤ 65535)
    (hlength : buffer.length ≤ 65535) : checksum.toNat + (leWords buffer).sum < 2 ^ 32 := by
  have hsum := leWords_sum_le buffer
  omega

/-! ### The fold loop -/

/-- The body of the fold loop. -/
def foldStep (checksum : UInt32) : UInt32 := (checksum &&& (0xFFFF : UInt32)) + (checksum >>> 16)

theorem msw_eq_zero_iff (checksum : UInt32) : checksum >>> 16 = 0 ↔ checksum.toNat ≤ 65535 := by
  rw [← UInt32.toNat_inj, msw_toNat, UInt32.toNat_zero]
  omega

theorem foldChecksum_step (checksum : UInt32) :
    foldChecksum checksum = if checksum >>> 16 = 0 then checksum else foldChecksum (foldStep checksum) := by
  rw [foldChecksum]
  rfl

/-- The loop runs twice at most, on any checksum. -/
theorem foldChecksum_terminates (checksum : UInt32) :
    ∃ n ≤ 2, foldChecksum checksum = foldStep^[n] checksum ∧ (foldStep^[n] checksum) >>> 16 = 0 := by
  have hlt := checksum.toNat_lt
  have hstep (c : UInt32) : (foldStep c).toNat = c.toNat % 65536 + c.toNat / 65536 := carry_toNat c
  rw [foldChecksum_step]
  by_cases hfirst : checksum >>> 16 = 0
  · exact ⟨0, by decide, if_pos hfirst, hfirst⟩
  rw [if_neg hfirst, foldChecksum_step]
  by_cases hsecond : foldStep checksum >>> 16 = 0
  · exact ⟨1, by decide, if_pos hsecond, hsecond⟩
  rw [if_neg hsecond, foldChecksum_step]
  have hthird : foldStep (foldStep checksum) >>> 16 = 0 := by
    rw [msw_eq_zero_iff, hstep, hstep]
    omega
  exact ⟨2, by decide, if_pos hthird, hthird⟩

/-! ### Pieces -/

theorem addChecksums_snoc (pieces : List (List UInt8)) (piece : List UInt8) :
    addChecksums (pieces ++ [piece]) = addChecksum piece (addChecksums pieces) := List.foldl_append

theorem addChecksums_le (pieces : List (List UInt8)) : (addChecksums pieces).toNat ≤ 65535 := by
  rcases List.eq_nil_or_concat pieces with rfl | ⟨pieces, piece, rfl⟩
  · exact Nat.zero_le _
  · rw [List.concat_eq_append, addChecksums_snoc]
    exact addChecksum_le piece _

/-- Pieces that a datagram can hold add up to their sum. -/
theorem addChecksums_toNat {pieces : List (List UInt8)} (hpieces : ∀ piece ∈ pieces, piece.length ≤ 65535) :
    (addChecksums pieces).toNat = reduce 65535 (pieces.map fun piece => (leWords piece).sum).sum := by
  induction pieces using List.reverseRecOn with
  | nil => rfl
  | append_singleton pieces piece ih =>
      have hpiece := hpieces piece (List.mem_append_right _ List.mem_cons_self)
      have hbefore := ih fun p hp => hpieces p (List.mem_append_left _ hp)
      rw [addChecksums_snoc, addChecksum_toNat (fits_of_le (addChecksums_le pieces) hpiece), hbefore, reduce_reduce_add,
        List.map_append, List.sum_append, List.map_singleton, List.sum_singleton]

/-- Pieces of which all but the last are even are added up as if they were one buffer. -/
theorem leWords_flatten {pieces : List (List UInt8)} (heven : ∀ piece ∈ pieces, piece.length % 2 = 0) (last : List UInt8) :
    (leWords (pieces.flatten ++ last)).sum = ((pieces ++ [last]).map fun piece => (leWords piece).sum).sum := by
  induction pieces with
  | nil => simp
  | cons piece pieces ih =>
      rw [List.flatten_cons, List.append_assoc, leWords_append (heven piece List.mem_cons_self), List.sum_append,
        ih fun p hp => heven p (List.mem_cons_of_mem piece hp)]
      rfl

/-! ### Headers -/

theorem finishChecksum_toNat {checksum : UInt32} (h : checksum.toNat ≤ 65535) :
    (finishChecksum checksum).toUInt16.toNat = 65535 - checksum.toNat := by
  have hmask : (finishChecksum checksum).toNat = (~~~checksum).toNat % 65536 :=
    (UInt32.toNat_and _ 0xFFFF).trans (Nat.and_two_pow_sub_one_eq_mod _ 16)
  rw [UInt32.toNat_toUInt16, hmask, UInt32.toNat_not]
  change (2 ^ 32 - 1 - checksum.toNat) % 65536 % 65536 = _
  omega

theorem leWords_bytes16 (x : UInt16) (rest : List UInt8) : leWords (bytes16 x ++ rest) = x.toNat :: leWords rest := by
  have hhigh : (x >>> 8).toNat = x.toNat / 256 := (UInt16.toNat_shiftRight x 8).trans (Nat.shiftRight_eq_div_pow _ 8)
  have hlt := x.toNat_lt
  have hword : x.toUInt8.toNat + 256 * (x >>> 8).toUInt8.toNat = x.toNat := by
    rw [UInt16.toNat_toUInt8, UInt16.toNat_toUInt8, hhigh]
    omega
  change (x.toUInt8.toNat + 256 * (x >>> 8).toUInt8.toNat) :: leWords rest = _
  rw [hword]

/-- The sum of a buffer verifies, whatever the order of the bytes in its words. -/
def Verifies (buffer : List UInt8) : Prop :=
  OnesComplement.sum 65535 (leWords buffer) = 0xFFFF ∧ OnesComplement.sum 65535 (beWords buffer) = 0xFFFF

/-- A buffer verifies when its check field holds the complement of the sum without it. -/
theorem verifies_of_check {pre post : List UInt8} (heven : pre.length % 2 = 0) {check : UInt16}
    (hcheck : check.toNat = 65535 - reduce 65535 (leWords (pre ++ (bytes16 0 ++ post))).sum) :
    Verifies (pre ++ (bytes16 check ++ post)) := by
  have hsum (c : UInt16) : (leWords (pre ++ (bytes16 c ++ post))).sum =
      (leWords pre).sum + (leWords post).sum + c.toNat := by
    rw [leWords_append heven, leWords_bytes16, List.sum_append, List.sum_cons]
    omega
  rw [hsum, UInt16.toNat_zero, Nat.add_zero] at hcheck
  rw [Verifies, sum_beWords_eq_max_iff, and_self, sum_eq_reduce (by decide) (leWords_le _), hsum, hcheck]
  exact reduce_complement (by decide) _

/-- The payload padded with a zero byte to even length. -/
def padded (payload : List UInt8) : List UInt8 := if payload.length % 2 = 0 then payload else payload ++ [0]

/-- The pseudo header: the addresses, a zero byte, the protocol, and the length of the UDP datagram. -/
def pseudoHeader (datagram : RawUdp) : List UInt8 :=
  bytes32 datagram.ip.saddr ++ bytes32 datagram.ip.daddr ++ [0, datagram.ip.protocol] ++ bytes16 datagram.udp.len

theorem leWords_padded (payload : List UInt8) : leWords (padded payload) = leWords payload := by
  rw [padded]
  split
  · rfl
  · rename_i hodd
    fun_induction leWords payload with
    | case1 low high rest ih =>
        rw [List.length_cons, List.length_cons] at hodd
        change _ :: leWords (rest ++ [0]) = _
        rw [ih (by omega)]
    | case2 last => simp [leWords]
    | case3 => exact absurd rfl hodd

theorem ip_verifies (ip : IpHeader) :
    Verifies { ip with check := (finishChecksum (addChecksum { ip with check := 0 }.bytes 0)).toUInt16 }.bytes := by
  let pre := [ip.ihl ||| ip.version <<< 4, ip.tos] ++ bytes16 ip.totLen ++ bytes16 ip.id ++ bytes16 ip.fragOff ++
    [ip.ttl, ip.protocol]
  have hbytes (check : UInt16) : { ip with check := check }.bytes =
      pre ++ (bytes16 check ++ (bytes32 ip.saddr ++ bytes32 ip.daddr)) := by
    simp only [IpHeader.bytes, pre, List.append_assoc]
  have hlength : (pre ++ (bytes16 0 ++ (bytes32 ip.saddr ++ bytes32 ip.daddr))).length = 20 := rfl
  rw [hbytes, hbytes]
  apply verifies_of_check
  · show 10 % 2 = 0
    rfl
  · rw [finishChecksum_toNat (addChecksum_le _ _), addChecksum_toNat (fits_of_le (Nat.zero_le _) (by rw [hlength]; decide)),
      UInt32.toNat_zero, Nat.zero_add]

theorem udpPieces_length {ip : IpHeader} {udp : UdpHeader} {message : Message} (hsize : message.mSize ≤ messageCapacity) :
    ∀ piece ∈ udpPieces ip udp message, piece.length ≤ 65535 := by
  have hpayload : message.payload.length ≤ 65535 := by
    rw [Message.payload, slice_length]
    exact le_trans hsize (by decide)
  simp only [udpPieces, List.forall_mem_cons]
  exact ⟨by change 4 ≤ 65535; decide, by change 4 ≤ 65535; decide, by change 2 ≤ 65535; decide,
    by change 2 ≤ 65535; decide, by change 8 ≤ 65535; decide, hpayload, List.forall_mem_nil _⟩

/-- The pieces before the payload. -/
def headPieces (ip : IpHeader) (udp : UdpHeader) : List (List UInt8) :=
  [bytes32 ip.saddr, bytes32 ip.daddr, bytes16 (htons ipProtoUdp.toUInt16), bytes16 udp.len, udp.bytes]

theorem udpPieces_eq (ip : IpHeader) (udp : UdpHeader) (message : Message) :
    udpPieces ip udp message = headPieces ip udp ++ [message.payload] := rfl

theorem headPieces_even (ip : IpHeader) (udp : UdpHeader) : ∀ piece ∈ headPieces ip udp, piece.length % 2 = 0 := by
  simp only [headPieces, List.forall_mem_cons]
  exact ⟨by show 4 % 2 = 0; rfl, by show 4 % 2 = 0; rfl, by show 2 % 2 = 0; rfl, by show 2 % 2 = 0; rfl,
    by show 8 % 2 = 0; rfl, List.forall_mem_nil _⟩

/-- The pieces, in order, are the words of their concatenation. -/
theorem udpPieces_sum (ip : IpHeader) (udp : UdpHeader) (message : Message) :
    ((udpPieces ip udp message).map fun piece => (leWords piece).sum).sum =
      (leWords (udpPieces ip udp message).flatten).sum := by
  have hflatten := leWords_flatten (headPieces_even ip udp) message.payload
  rw [udpPieces_eq, ← hflatten, List.flatten_append, List.flatten_singleton]

theorem udpPieces_flatten_length (ip : IpHeader) (udp : UdpHeader) {message : Message}
    (hsize : message.mSize ≤ messageCapacity) : (udpPieces ip udp message).flatten.length ≤ 65535 := by
  have hhead : (headPieces ip udp).flatten.length = 20 := rfl
  rw [udpPieces_eq, List.flatten_append, List.flatten_singleton, List.length_append, hhead, Message.payload, slice_length]
  rw [messageCapacity] at hsize
  omega

theorem udp_verifies (ip : IpHeader) (udp : UdpHeader) {message : Message} (hsize : message.mSize ≤ messageCapacity)
    (hprotocol : ip.protocol = ipProtoUdp) (hcheck : udp.check = 0) :
    Verifies (bytes32 ip.saddr ++ bytes32 ip.daddr ++ [0, ip.protocol] ++ bytes16 udp.len ++
      { udp with check := (finishChecksum (addChecksums (udpPieces ip udp message))).toUInt16 }.bytes ++
        padded message.payload) := by
  let pre := bytes32 ip.saddr ++ bytes32 ip.daddr ++ [0, ip.protocol] ++ bytes16 udp.len ++
    (bytes16 udp.source ++ bytes16 udp.dest ++ bytes16 udp.len)
  have hbytes (check : UInt16) : bytes32 ip.saddr ++ bytes32 ip.daddr ++ [0, ip.protocol] ++ bytes16 udp.len ++
      { udp with check := check }.bytes ++ padded message.payload =
        pre ++ (bytes16 check ++ padded message.payload) := by
    simp only [UdpHeader.bytes, pre, List.append_assoc]
  have hpieces : (udpPieces ip udp message).flatten = pre ++ (bytes16 0 ++ message.payload) := by
    have hudp : bytes16 (htons ipProtoUdp.toUInt16) = [0, ip.protocol] := by
      rw [hprotocol]
      rfl
    rw [← hcheck]
    simp only [udpPieces, hudp, UdpHeader.bytes, pre, List.flatten_cons, List.flatten_nil, List.append_assoc, List.append_nil]
  have heven : (pre ++ bytes16 0).length % 2 = 0 := by
    show 20 % 2 = 0
    rfl
  have hpadded : (leWords (pre ++ (bytes16 0 ++ padded message.payload))).sum =
      (leWords (udpPieces ip udp message).flatten).sum := by
    rw [hpieces, ← List.append_assoc, ← List.append_assoc, leWords_append heven, leWords_append heven, leWords_padded]
  rw [hbytes]
  apply verifies_of_check
  · show 18 % 2 = 0
    rfl
  · rw [finishChecksum_toNat (addChecksums_le _), addChecksums_toNat (udpPieces_length hsize), udpPieces_sum, hpadded]

/-- The headers before their checksums are set. -/
def IpHeader.unchecked (ip : IpHeader) : IpHeader := { ip with check := 0 }

def UdpHeader.unchecked (udp : UdpHeader) : UdpHeader := { udp with check := 0 }

/-- What a datagram carries verifies, and none of the sums it takes overflows. -/
structure Checksummed (datagram : RawUdp) (message : Message) : Prop where
  /-- The IP header verifies. -/
  ip : Verifies datagram.ip.bytes
  /-- The pseudo header, the UDP header and the padded payload verify. -/
  udp : Verifies (pseudoHeader datagram ++ datagram.udp.bytes ++ padded datagram.payload)
  /-- The 32 bits of a checksum hold every piece that is added to it. -/
  ipFits : (leWords datagram.ip.unchecked.bytes).sum < 2 ^ 32
  udpFits : ∀ before piece after, udpPieces datagram.ip datagram.udp.unchecked message = before ++ piece :: after →
    (addChecksums before).toNat + (leWords piece).sum < 2 ^ 32
  /-- The pieces give what their concatenation gives. -/
  pieces : addChecksums (udpPieces datagram.ip datagram.udp.unchecked message) =
    addChecksum (udpPieces datagram.ip datagram.udp.unchecked message).flatten 0

section
variable (source : UInt32) (sourcePort : UInt16) (destination : UInt32) (destinationPort : UInt16)
  (interfaceIndex : UInt32) {message : Message}

theorem sendRawUdp_udp :
    (sendRawUdp source sourcePort destination destinationPort interfaceIndex message).udp =
      { (sendRawUdp source sourcePort destination destinationPort interfaceIndex message).udp with
        check := (finishChecksum (addChecksums (udpPieces
          (sendRawUdp source sourcePort destination destinationPort interfaceIndex message).ip
          (sendRawUdp source sourcePort destination destinationPort interfaceIndex message).udp.unchecked
          message))).toUInt16 } := rfl

/-- Every datagram verifies, whatever it carries, and the loop that folds its checksums ends after two rounds. -/
theorem sendRawUdp_checksummed (hsize : message.mSize ≤ messageCapacity) :
    Checksummed (sendRawUdp source sourcePort destination destinationPort interfaceIndex message) message ∧
      ∀ checksum, ∃ n ≤ 2, foldChecksum checksum = foldStep^[n] checksum ∧ (foldStep^[n] checksum) >>> 16 = 0 := by
  refine ⟨⟨ip_verifies _, ?_, ?_, ?_, ?_⟩, foldChecksum_terminates⟩
  · rw [sendRawUdp_udp]
    exact udp_verifies (sendRawUdp source sourcePort destination destinationPort interfaceIndex message).ip
      (sendRawUdp source sourcePort destination destinationPort interfaceIndex message).udp.unchecked hsize rfl rfl
  · have hsum := leWords_sum_le
      (sendRawUdp source sourcePort destination destinationPort interfaceIndex message).ip.unchecked.bytes
    exact lt_of_le_of_lt hsum (by show 65535 * ((20 + 1) / 2) < 2 ^ 32; decide)
  · intro before piece after hpieces
    have hmem : piece ∈ before ++ piece :: after := List.mem_append_right before List.mem_cons_self
    rw [← hpieces] at hmem
    exact fits_of_le (addChecksums_le before) (udpPieces_length hsize piece hmem)
  · apply UInt32.toNat_inj.mp
    rw [addChecksums_toNat (udpPieces_length hsize), udpPieces_sum,
      addChecksum_toNat (fits_of_le (Nat.zero_le _) (udpPieces_flatten_length _ _ hsize)), UInt32.toNat_zero, Nat.zero_add]

end

/-- A message of one byte between the addresses 1 and 2. -/
theorem sendRawUdp_checksummed_odd : Checksummed (sendRawUdp 1 68 2 67 0 ⟨fun _ => 0xFF, 1⟩) ⟨fun _ => 0xFF, 1⟩ :=
  (sendRawUdp_checksummed 1 68 2 67 0 (by decide)).1

end Trout.Dhcp

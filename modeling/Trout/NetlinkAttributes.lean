import Trout.CInt
import Trout.DhcpOptions
import Trout.DhcpDatagram

/-! The attributes of netlink requests: `addRouterAttribute` of `netlink.h` appends them to the buffer behind the family
message, and the macros of `linux/rtnetlink.h` walk over them. -/

namespace Trout.Dhcp
open RingWindow

/-! ### The macros -/

/-- `NLMSG_ALIGN` and `RTA_ALIGN` -/
def align4 (len : UInt32) : UInt32 := (len + 4 - 1) &&& ~~~(4 - 1)

/-- `sizeof(struct rtattr)` -/
def rtattrSize : Nat := 4

/-- `RTA_LENGTH` -/
def rtaLength (len : Nat) : Nat := rtattrSize + len

/-- `sizeof(struct nlmsghdr)` and `sizeof(request.buf)` -/
def nlmsghdrSize : Nat := 16
def bufSize : Nat := 256

/-- A message like `struct ifaddrmsg`; the length of the request with it can be said in its header. -/
structure FamilyMessage where
  size : Nat
  fits : nlmsghdrSize + size + bufSize < 2 ^ 32

def ifaddrmsg : FamilyMessage := ⟨8, by decide⟩
def rtmsg : FamilyMessage := ⟨12, by decide⟩
def rtgenmsg : FamilyMessage := ⟨1, by decide⟩

/-- `NLMSG_ALIGN` leaves the size of the message as it is. -/
def FamilyMessage.Aligned (family : FamilyMessage) : Prop := 4 ∣ family.size

theorem ifaddrmsg_aligned : ifaddrmsg.Aligned := by
  unfold FamilyMessage.Aligned
  decide

theorem rtmsg_aligned : rtmsg.Aligned := by
  unfold FamilyMessage.Aligned
  decide

/-- `NLMSG_LENGTH(sizeof(msg))` -/
def FamilyMessage.nlmsgLength (family : FamilyMessage) : UInt32 := UInt32.ofNat (nlmsghdrSize + family.size)

/-- `offsetof(Request, buf)` -/
def FamilyMessage.offsetofBuf (family : FamilyMessage) : Nat := nlmsghdrSize + family.size

/-! ### Requests -/

/-- `struct nlmsghdr`, as far as it is set. -/
structure Nlmsghdr where
  nlmsgLen : UInt32
  nlmsgType : UInt16
  nlmsgFlags : UInt16

/-- `Request`, with a family message of any type. -/
structure Request (μ : Type) where
  hdr : Nlmsghdr
  msg : μ
  buf : Nat → UInt8

/-- Bytes written to the buffer. -/
structure BufWrite where
  offset : Nat
  bytes : List UInt8

def BufWrite.poke (buf : Nat → UInt8) (write : BufWrite) : Nat → UInt8 := Dhcp.poke buf write.offset write.bytes

structure Attribute where
  type : UInt16
  data : List UInt8
  deriving DecidableEq

section
variable {μ : Type}

/-- `addRouterAttribute`, with what it writes: the type, the length and the data. -/
def addRouterAttribute (family : FamilyMessage) (r : Request μ) (type : Int) (data : List UInt8) :
    Request μ × List BufWrite :=
  let offset := CInt.sizeSub (align4 r.hdr.nlmsgLen).toNat family.offsetofBuf
  let rtaLen := UInt16.ofNat (rtaLength data.length)
  let writes := [⟨offset + 2, bytes16 (UInt16.ofInt type)⟩, ⟨offset, bytes16 rtaLen⟩, ⟨offset + rtaLength 0, data⟩]
  ({ r with
      hdr := { r.hdr with nlmsgLen := align4 r.hdr.nlmsgLen + align4 rtaLen.toUInt32 }
      buf := writes.foldl BufWrite.poke r.buf }, writes)

/-- One call after the other. -/
def addRouterAttributes (family : FamilyMessage) : Request μ → List Attribute → Request μ × List BufWrite
  | r, [] => (r, [])
  | r, attr :: attributes =>
      let first := addRouterAttribute family r attr.type.toNat attr.data
      let rest := addRouterAttributes family first.1 attributes
      (rest.1, first.2 ++ rest.2)

/-- The loop over `RTA_OK` and `RTA_NEXT`, from an attribute on and with the length that is left. -/
def walkAttributes (buf : Nat → UInt8) : Nat → Nat → Int → List Attribute
  | 0, _, _ => []
  | fuel + 1, rta, len =>
      let rtaLen := load16 buf rta
      let next := (align4 rtaLen.toUInt32).toNat
      if (rtattrSize : Int) ≤ len ∧ rtattrSize ≤ rtaLen.toNat ∧ (rtaLen.toNat : Int) ≤ len then
        ⟨load16 buf (rta + 2), slice buf (rta + rtaLength 0) (rtaLen.toNat - rtaLength 0)⟩ ::
          walkAttributes buf fuel (rta + next) (len - next)
      else
        []

/-- The attributes of a request, from the start of its buffer up to `nlmsg_len`. -/
def Request.attributes (family : FamilyMessage) (r : Request μ) : List Attribute :=
  let len := r.hdr.nlmsgLen.toNat - family.offsetofBuf
  walkAttributes r.buf len 0 len

end

/-! ### Alignment -/

theorem and_not_three {n : Nat} (h : n < 2 ^ 32) : n &&& 4294967292 = n / 4 * 4 := by
  have hmask : 4294967292 = (2 ^ 30 - 1) * 2 ^ 2 := by decide
  have hfour : n / 4 * 4 = n / 2 ^ 2 * 2 ^ 2 := rfl
  rw [hmask, hfour]
  apply Nat.eq_of_testBit_eq
  intro i
  rw [Nat.testBit_and, Nat.testBit_mul_two_pow, Nat.testBit_mul_two_pow, Nat.testBit_two_pow_sub_one,
    Nat.testBit_div_two_pow]
  by_cases hlow : 2 ≤ i
  · by_cases hhigh : i < 32
    · simp [hlow, show i - 2 < 30 by omega, Nat.sub_add_cancel hlow]
    · have hzero : n.testBit i = false :=
        Nat.testBit_lt_two_pow (lt_of_lt_of_le h (Nat.pow_le_pow_right (by decide) (Nat.le_of_not_lt hhigh)))
      simp [hzero, Nat.sub_add_cancel hlow]
  · simp [hlow]

theorem align4_toNat {len : UInt32} (h : len.toNat + 3 < 2 ^ 32) : (align4 len).toNat = (len.toNat + 3) / 4 * 4 := by
  -- The sum in the macro may reach 2 ^ 32, and the difference takes it back.
  have hsum : (len + 4 - 1).toNat = len.toNat + 3 := by
    rw [show len + 4 - 1 = len + 3 by grind]
    exact (UInt32.toNat_add len 3).trans (Nat.mod_eq_of_lt h)
  rw [align4, UInt32.toNat_and, hsum]
  exact and_not_three h

/-! ### Attributes in a buffer -/

/-- `RTA_ALIGN(RTA_LENGTH(size))` -/
def Attribute.alignedSize (a : Attribute) : Nat := (rtaLength a.data.length + 3) / 4 * 4

def alignedSizes (attributes : List Attribute) : Nat := (attributes.map Attribute.alignedSize).sum

/-- The attributes lie one behind the other from an offset on. -/
def LaidOut (buf : Nat → UInt8) : Nat → List Attribute → Prop
  | _, [] => True
  | i, a :: attributes =>
      (load16 buf i = UInt16.ofNat (rtaLength a.data.length) ∧ load16 buf (i + 2) = a.type ∧
        slice buf (i + rtaLength 0) a.data.length = a.data) ∧ LaidOut buf (i + a.alignedSize) attributes

theorem rtaLength_le_alignedSize (a : Attribute) : rtaLength a.data.length ≤ a.alignedSize := by
  rw [Attribute.alignedSize]
  omega

/-- The `rta_len` of an attribute that fits in the buffer is not cut. -/
theorem rtaLen_toNat {a : Attribute} (h : a.alignedSize ≤ bufSize) :
    (UInt16.ofNat (rtaLength a.data.length)).toNat = rtaLength a.data.length := by
  have hsize := rtaLength_le_alignedSize a
  rw [bufSize] at h
  exact UInt16.toNat_ofNat_of_lt' (by simp only [UInt16.size]; omega)

theorem rtaLen_align {a : Attribute} (h : a.alignedSize ≤ bufSize) :
    (align4 (UInt16.ofNat (rtaLength a.data.length)).toUInt32).toNat = a.alignedSize := by
  have hsize := rtaLength_le_alignedSize a
  have hwide : (UInt16.ofNat (rtaLength a.data.length)).toUInt32.toNat = rtaLength a.data.length :=
    (UInt16.toNat_toUInt32 _).trans (rtaLen_toNat h)
  rw [bufSize] at h
  rw [align4_toNat (by omega), hwide]
  rfl

theorem four_dvd_alignedSize (a : Attribute) : 4 ∣ a.alignedSize := ⟨_, Nat.mul_comm _ _⟩

theorem alignedSizes_cons (a : Attribute) (attributes : List Attribute) :
    alignedSizes (a :: attributes) = a.alignedSize + alignedSizes attributes := by
  rw [alignedSizes, List.map_cons, List.sum_cons, alignedSizes]

theorem load16_congr {buf buf' : Nat → UInt8} {i : Nat} (h : ∀ j, i ≤ j → j < i + 2 → buf j = buf' j) :
    load16 buf i = load16 buf' i := by
  rw [load16, load16, h i (le_refl i) (by omega), h (i + 1) (by omega) (by omega)]

/-- Where attributes lie does not depend on the bytes around them. -/
theorem LaidOut.congr {buf buf' : Nat → UInt8} {i : Nat} {attributes : List Attribute} (h : LaidOut buf i attributes)
    (hsame : ∀ j, i ≤ j → j < i + alignedSizes attributes → buf j = buf' j) : LaidOut buf' i attributes := by
  induction attributes generalizing i with
  | nil => trivial
  | cons a attributes ih =>
      rw [alignedSizes_cons] at hsame
      have hsize := rtaLength_le_alignedSize a
      have hheader : rtaLength a.data.length = 4 + a.data.length := rfl
      obtain ⟨⟨hlen, htype, hdata⟩, hrest⟩ := h
      refine ⟨⟨?_, ?_, ?_⟩, ih hrest fun j hj hlt => hsame j (by omega) (by omega)⟩
      · rw [← hlen]
        exact (load16_congr fun j hj hlt => hsame j hj (by omega)).symm
      · rw [← htype]
        exact (load16_congr fun j hj hlt => hsame j (by omega) (by omega)).symm
      · calc slice buf' (i + rtaLength 0) a.data.length = slice buf (i + rtaLength 0) a.data.length := by
              apply slice_congr
              intro j hj
              exact (hsame _ (by omega) (by change i + 4 + j < _; omega)).symm
          _ = a.data := hdata

/-- Attributes that lie in a buffer of `bufSize` are what the walk over them finds. -/
theorem walkAttributes_laidOut {buf : Nat → UInt8} {i fuel : Nat} {attributes : List Attribute}
    (h : LaidOut buf i attributes) (hsmall : alignedSizes attributes ≤ bufSize) (hfuel : attributes.length ≤ fuel) :
    walkAttributes buf fuel i (alignedSizes attributes) = attributes := by
  induction attributes generalizing i fuel with
  | nil =>
      cases fuel with
      | zero => rfl
      | succ fuel =>
          rw [walkAttributes]
          exact if_neg fun hok => absurd hok.1 (by decide)
  | cons a attributes ih =>
      obtain ⟨⟨hlen, htype, hdata⟩, hrest⟩ := h
      rw [alignedSizes_cons] at hsmall ⊢
      have hsize := rtaLength_le_alignedSize a
      have hheader : rtaLength a.data.length = 4 + a.data.length := rfl
      have hone : a.alignedSize ≤ bufSize := le_trans (Nat.le_add_right _ _) hsmall
      have hlength : (load16 buf i).toNat = 4 + a.data.length := hlen ▸ rtaLen_toNat hone
      have hnext : (align4 (load16 buf i).toUInt32).toNat = a.alignedSize := hlen ▸ rtaLen_align hone
      obtain ⟨fuel, rfl⟩ := Nat.exists_eq_succ_of_ne_zero (Nat.ne_of_gt (Nat.lt_of_lt_of_le (Nat.succ_pos _) hfuel))
      rw [walkAttributes]
      simp only [hnext, hlength, htype]
      rw [if_pos (by simp only [rtattrSize]; omega)]
      have hleft : ((a.alignedSize + alignedSizes attributes : Nat) : Int) - a.alignedSize = alignedSizes attributes := by
        omega
      have hpayload : 4 + a.data.length - rtaLength 0 = a.data.length := Nat.add_sub_cancel_left 4 _
      rw [hleft, ih hrest (le_trans (Nat.le_add_left _ _) hsmall) (Nat.le_of_succ_le_succ hfuel), hpayload, hdata]

/-! ### Appending -/

section
variable {μ : Type} {family : FamilyMessage}

theorem load16_poke_self (mem : Nat → UInt8) (i : Nat) (x : UInt16) : load16 (poke mem i (bytes16 x)) i = x := by
  have hlow : poke mem i (bytes16 x) i = x.toUInt8 := by
    rw [poke, if_pos (le_refl i), Nat.sub_self]
    rfl
  have hhigh : poke mem i (bytes16 x) (i + 1) = (x >>> 8).toUInt8 := by
    rw [poke, if_pos (Nat.le_succ i), Nat.add_sub_cancel_left]
    rfl
  rw [load16, hlow, hhigh, load16_bytes16]

/-- Where a call puts its attribute. -/
theorem addRouterAttribute_offset (hfamily : family.Aligned) {r : Request μ} {used : Nat}
    (hlen : r.hdr.nlmsgLen.toNat = family.offsetofBuf + used) (haligned : 4 ∣ used) (hused : used ≤ bufSize) :
    (align4 r.hdr.nlmsgLen).toNat = family.offsetofBuf + used ∧
      CInt.sizeSub (align4 r.hdr.nlmsgLen).toNat family.offsetofBuf = used := by
  have hrange := family.fits
  rw [FamilyMessage.Aligned] at hfamily
  rw [FamilyMessage.offsetofBuf] at hlen ⊢
  simp only [nlmsghdrSize, bufSize] at hlen hrange hused ⊢
  have halign : (align4 r.hdr.nlmsgLen).toNat = 16 + family.size + used := by
    rw [align4_toNat (by omega), hlen]
    omega
  refine ⟨halign, ?_⟩
  rw [halign, CInt.sizeSub_of_le (Nat.le_add_right _ _) (by omega), Nat.add_sub_cancel_left]

/-- A call appends its attribute to those that use up the buffer so far. -/
theorem addRouterAttribute_appends (hfamily : family.Aligned) {r : Request μ} {used : Nat}
    (hlen : r.hdr.nlmsgLen.toNat = family.offsetofBuf + used) (haligned : 4 ∣ used) (a : Attribute)
    (hfits : used + a.alignedSize ≤ bufSize) :
    (addRouterAttribute family r a.type.toNat a.data).1.hdr.nlmsgLen.toNat =
        family.offsetofBuf + (used + a.alignedSize) ∧
      LaidOut (addRouterAttribute family r a.type.toNat a.data).1.buf used [a] ∧
      (∀ i < used, (addRouterAttribute family r a.type.toNat a.data).1.buf i = r.buf i) ∧
      ∀ w ∈ (addRouterAttribute family r a.type.toNat a.data).2,
        used ≤ w.offset ∧ w.offset + w.bytes.length ≤ used + a.alignedSize := by
  obtain ⟨halign, hoffset⟩ := addRouterAttribute_offset hfamily hlen haligned (le_trans (Nat.le_add_right _ _) hfits)
  have hsize := rtaLength_le_alignedSize a
  have hheader : rtaLength a.data.length = 4 + a.data.length := rfl
  have hrange := family.fits
  have hnext := rtaLen_align (le_trans (Nat.le_add_left _ _) hfits)
  rw [bufSize] at hfits hrange
  have htype : UInt16.ofInt a.type.toNat = a.type := by
    have hlt := a.type.toNat_lt
    rw [UInt16.ofInt, ← UInt16.toNat_inj, UInt16.toNat_ofNat']
    omega
  have hbuf : (addRouterAttribute family r a.type.toNat a.data).1.buf =
      poke (poke (poke r.buf (used + 2) (bytes16 a.type)) used (bytes16 (UInt16.ofNat (rtaLength a.data.length))))
        (used + 4) a.data := by
    simp only [addRouterAttribute, hoffset, htype]
    rfl
  refine ⟨?_, ⟨⟨?_, ?_, ?_⟩, trivial⟩, ?_, ?_⟩
  · have hsum : (addRouterAttribute family r a.type.toNat a.data).1.hdr.nlmsgLen =
        align4 r.hdr.nlmsgLen + align4 (UInt16.ofNat (rtaLength a.data.length)).toUInt32 := rfl
    rw [hsum, UInt32.toNat_add, halign, hnext, FamilyMessage.offsetofBuf, Nat.add_assoc _ used]
    exact Nat.mod_eq_of_lt (by omega)
  · rw [hbuf, load16_congr fun j _ hj => poke_of_lt (by omega)]
    exact load16_poke_self _ _ _
  · rw [hbuf, load16_congr fun j _ hj => poke_of_lt (by omega), load16_congr fun j hj _ => poke_of_ge (by exact hj)]
    exact load16_poke_self _ _ _
  · rw [hbuf]
    exact slice_poke_self _ _ _
  · intro i hi
    rw [hbuf, poke_of_lt (by omega), poke_of_lt hi, poke_of_lt (by omega)]
  · intro w hw
    simp only [addRouterAttribute, hoffset, List.mem_cons, List.not_mem_nil, or_false] at hw
    rcases hw with rfl | rfl | rfl
    · change used ≤ used + 2 ∧ used + 2 + 2 ≤ used + a.alignedSize
      omega
    · change used ≤ used ∧ used + 2 ≤ used + a.alignedSize
      omega
    · change used ≤ used + 4 ∧ used + 4 + a.data.length ≤ used + a.alignedSize
      omega

/-- Calls append their attributes, in order. -/
theorem addRouterAttributes_append (hfamily : family.Aligned) {r : Request μ} {used : Nat}
    (hlen : r.hdr.nlmsgLen.toNat = family.offsetofBuf + used) (haligned : 4 ∣ used) {attributes : List Attribute}
    (hfits : used + alignedSizes attributes ≤ bufSize) :
    (addRouterAttributes family r attributes).1.hdr.nlmsgLen.toNat =
        family.offsetofBuf + (used + alignedSizes attributes) ∧
      LaidOut (addRouterAttributes family r attributes).1.buf used attributes ∧
      (∀ i < used, (addRouterAttributes family r attributes).1.buf i = r.buf i) ∧
      ∀ w ∈ (addRouterAttributes family r attributes).2, used ≤ w.offset ∧ w.offset + w.bytes.length ≤ bufSize := by
  induction attributes generalizing r used with
  | nil => exact ⟨hlen, trivial, fun _ _ => rfl, fun w hw => absurd hw List.not_mem_nil⟩
  | cons a attributes ih =>
      rw [alignedSizes_cons, ← Nat.add_assoc used] at hfits ⊢
      have hone : used + a.alignedSize ≤ bufSize := le_trans (Nat.le_add_right _ _) hfits
      obtain ⟨hfirstLen, ⟨hfirst, -⟩, hfirstKept, hfirstWrites⟩ := addRouterAttribute_appends hfamily hlen haligned a hone
      obtain ⟨hrestLen, hrest, hrestKept, hrestWrites⟩ :=
        ih hfirstLen (Nat.dvd_add haligned (four_dvd_alignedSize a)) hfits
      have hstays : LaidOut (addRouterAttributes family r (a :: attributes)).1.buf used [a] := by
        have hinside : LaidOut (addRouterAttribute family r a.type.toNat a.data).1.buf used [a] := ⟨hfirst, trivial⟩
        exact hinside.congr fun j _ hj => (hrestKept j hj).symm
      refine ⟨hrestLen, ⟨hstays.1, hrest⟩, fun i hi => ?_, fun w hw => ?_⟩
      · exact (hrestKept i (Nat.lt_add_right _ hi)).trans (hfirstKept i hi)
      · rcases List.mem_append.mp hw with hw | hw
        · exact ⟨(hfirstWrites w hw).1, le_trans (hfirstWrites w hw).2 hone⟩
        · exact ⟨le_trans (Nat.le_add_right _ _) (hrestWrites w hw).1, (hrestWrites w hw).2⟩

theorem alignedSizes_append (before after : List Attribute) :
    alignedSizes (before ++ after) = alignedSizes before + alignedSizes after := by
  rw [alignedSizes, List.map_append, List.sum_append, alignedSizes, alignedSizes]

theorem four_dvd_alignedSizes (attributes : List Attribute) : 4 ∣ alignedSizes attributes := by
  apply List.dvd_sum
  intro n hn
  obtain ⟨a, -, rfl⟩ := List.mem_map.mp hn
  exact four_dvd_alignedSize a

theorem length_le_alignedSizes (attributes : List Attribute) : attributes.length ≤ alignedSizes attributes := by
  induction attributes with
  | nil => exact Nat.zero_le _
  | cons a attributes ih =>
      have hsize := rtaLength_le_alignedSize a
      have hheader : rtaLength a.data.length = 4 + a.data.length := rfl
      rw [alignedSizes_cons, List.length_cons]
      omega

theorem nlmsgLength_toNat (family : FamilyMessage) : family.nlmsgLength.toNat = family.offsetofBuf + 0 := by
  have hrange := family.fits
  exact UInt32.toNat_ofNat_of_lt' (by simp only [UInt32.size]; omega)

/-- A request's attributes are those that have been appended. -/
theorem attributes_of_laidOut {r : Request μ} {attributes : List Attribute}
    (hlen : r.hdr.nlmsgLen.toNat = family.offsetofBuf + (0 + alignedSizes attributes)) (h : LaidOut r.buf 0 attributes)
    (hfits : alignedSizes attributes ≤ bufSize) : r.attributes family = attributes := by
  rw [Nat.zero_add] at hlen
  simp only [Request.attributes, hlen, Nat.add_sub_cancel_left]
  exact walkAttributes_laidOut h hfits (length_le_alignedSizes attributes)

/-- The walk over a new request finds what has been appended to it. -/
theorem addRouterAttributes_attributes (hfamily : family.Aligned) {r : Request μ} (hstart : r.hdr.nlmsgLen = family.nlmsgLength)
    {attributes : List Attribute} (hfits : alignedSizes attributes ≤ bufSize) :
    (addRouterAttributes family r attributes).1.attributes family = attributes := by
  have hlen : r.hdr.nlmsgLen.toNat = family.offsetofBuf + 0 := by rw [hstart, nlmsgLength_toNat]
  have hall : 0 + alignedSizes attributes ≤ bufSize := by rwa [Nat.zero_add]
  obtain ⟨hend, hlaid, -, -⟩ := addRouterAttributes_append hfamily hlen (dvd_zero 4) hall
  exact attributes_of_laidOut hend hlaid hfits

theorem addRouterAttributes_msg (r : Request μ) (attributes : List Attribute) :
    (addRouterAttributes family r attributes).1.msg = r.msg := by
  induction attributes generalizing r with
  | nil => rfl
  | cons a attributes ih => exact ih _

/-- Behind a family message of an aligned size, attributes that fit in the buffer are appended as a list that is well
formed: every call writes inside the buffer and behind the attributes of the calls before it, and the walk finds the
attributes, in order. -/
theorem attributes_wellFormed (hfamily : family.Aligned) {r : Request μ} (hstart : r.hdr.nlmsgLen = family.nlmsgLength)
    {attributes : List Attribute} (hfits : alignedSizes attributes ≤ bufSize) :
    (∀ before after, attributes = before ++ after →
      ∀ w ∈ (addRouterAttributes family (addRouterAttributes family r before).1 after).2,
        alignedSizes before ≤ w.offset ∧ w.offset + w.bytes.length ≤ bufSize) ∧
      (addRouterAttributes family r attributes).1.hdr.nlmsgLen.toNat = family.offsetofBuf + alignedSizes attributes ∧
      (addRouterAttributes family r attributes).1.attributes family = attributes := by
  have hlen : r.hdr.nlmsgLen.toNat = family.offsetofBuf + 0 := by rw [hstart, nlmsgLength_toNat]
  have hall : 0 + alignedSizes attributes ≤ bufSize := by rwa [Nat.zero_add]
  refine ⟨?_, ?_, addRouterAttributes_attributes hfamily hstart hfits⟩
  · rintro before after rfl
    rw [alignedSizes_append] at hfits
    have hbefore : 0 + alignedSizes before ≤ bufSize := by omega
    obtain ⟨hmiddle, -, -, -⟩ := addRouterAttributes_append hfamily hlen (dvd_zero 4) hbefore
    rw [Nat.zero_add] at hmiddle
    exact (addRouterAttributes_append hfamily hmiddle (four_dvd_alignedSizes before) hfits).2.2.2
  · rw [(addRouterAttributes_append hfamily hlen (dvd_zero 4) hall).1, Nat.zero_add]

end

/-- A route request with a gateway and with an attribute of three bytes. -/
theorem attributes_wellFormed_route :
    (addRouterAttributes rtmsg ⟨⟨rtmsg.nlmsgLength, 24, 0x401⟩, (), fun _ => 0⟩
      [⟨5, [10, 0, 2, 2]⟩, ⟨4, [1, 2, 3]⟩]).1.attributes rtmsg = [⟨5, [10, 0, 2, 2]⟩, ⟨4, [1, 2, 3]⟩] :=
  (attributes_wellFormed rtmsg_aligned rfl (by decide)).2.2

/-- A request with `struct rtgenmsg`, of one byte: the attributes begin three bytes behind the start of the buffer. The
walk does not find them, and those that fill the buffer are written over its end. -/
theorem attributes_misaligned_rtgenmsg :
    let request : Request Unit := ⟨⟨rtgenmsg.nlmsgLength, 18, 1⟩, (), fun _ => 0⟩
    alignedSizes [⟨5, [10, 0, 2, 2]⟩] ≤ bufSize ∧
      (addRouterAttributes rtgenmsg request [⟨5, [10, 0, 2, 2]⟩]).1.attributes rtgenmsg ≠ [⟨5, [10, 0, 2, 2]⟩] ∧
      alignedSizes [⟨5, List.replicate 252 0⟩] ≤ bufSize ∧
      ∃ w ∈ (addRouterAttributes rtgenmsg request [⟨5, List.replicate 252 0⟩]).2,
        bufSize < w.offset + w.bytes.length := by
  have hlong (data : List UInt8) (hdata : data.length = 252) : alignedSizes [⟨5, data⟩] ≤ bufSize ∧
      ∃ w ∈ (addRouterAttributes rtgenmsg (⟨⟨rtgenmsg.nlmsgLength, 18, 1⟩, (), fun _ => 0⟩ : Request Unit)
        [⟨5, data⟩]).2, bufSize < w.offset + w.bytes.length := by
    refine ⟨?_, ⟨7, data⟩, List.mem_cons_of_mem _ (List.mem_cons_of_mem _ List.mem_cons_self), ?_⟩
    · rw [alignedSizes_cons, Attribute.alignedSize, hdata]
      decide
    · rw [hdata]
      exact Nat.lt_add_of_pos_left (by decide : 0 < 3)
  exact ⟨by decide, by decide, hlong (List.replicate 252 0) List.length_replicate⟩

end Trout.Dhcp

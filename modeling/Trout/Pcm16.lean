import Trout.RingWindow

/-! Signed 16-bit PCM in little-endian byte order: a memory of bytes read as a memory of samples, and
back. A copy of whole samples between byte memories is a copy of samples. -/

namespace Pcm16
open RingWindow

/-- The sample stored as the two bytes `lo`, `hi`. -/
def sample (lo hi : UInt8) : Int16 := Int16.ofBitVec (hi.toBitVec ++ lo.toBitVec)

def lowByte (x : Int16) : UInt8 := UInt8.ofBitVec (x.toBitVec.extractLsb' 0 8)

def highByte (x : Int16) : UInt8 := UInt8.ofBitVec (x.toBitVec.extractLsb' 8 8)

@[simp] theorem sample_bytes (x : Int16) : sample (lowByte x) (highByte x) = x := by
  have hjoin : x.toBitVec.extractLsb' 8 8 ++ x.toBitVec.extractLsb' 0 8 = x.toBitVec.extractLsb' 0 16 :=
    BitVec.extractLsb'_append_extractLsb'_eq_extractLsb' rfl
  rw [sample, lowByte, highByte, UInt8.toBitVec_ofBitVec, UInt8.toBitVec_ofBitVec, hjoin,
    BitVec.extractLsb'_eq_self, Int16.ofBitVec_toBitVec]

@[simp] theorem lowByte_sample (lo hi : UInt8) : lowByte (sample lo hi) = lo :=
  UInt8.toBitVec_inj.mp BitVec.extractLsb'_append_eq_right

@[simp] theorem highByte_sample (lo hi : UInt8) : highByte (sample lo hi) = hi :=
  UInt8.toBitVec_inj.mp BitVec.extractLsb'_append_eq_left

/-- A byte memory as samples. -/
def samplesOf (mem : Nat → UInt8) : Nat → Int16 := fun i => sample (mem (2 * i)) (mem (2 * i + 1))

/-- A memory of samples as bytes. -/
def bytesOf (mem : Nat → Int16) : Nat → UInt8 := fun a =>
  if a % 2 = 0 then lowByte (mem (a / 2)) else highByte (mem (a / 2))

@[simp] theorem samplesOf_bytesOf (mem : Nat → Int16) : samplesOf (bytesOf mem) = mem := by
  funext i
  have hlow : bytesOf mem (2 * i) = lowByte (mem i) := by
    rw [bytesOf, if_pos (by omega), Nat.mul_div_cancel_left i (by decide)]
  have hhigh : bytesOf mem (2 * i + 1) = highByte (mem i) := by
    rw [bytesOf, if_neg (by omega), show (2 * i + 1) / 2 = i by omega]
  rw [samplesOf, hlow, hhigh, sample_bytes]

/-- Copying whole samples byte by byte copies the samples. -/
theorem samplesOf_copy (dst src : Nat → UInt8) (dstStart srcStart len : Nat) :
    samplesOf (copy dst (2 * dstStart) src (2 * srcStart) (2 * len)) =
      copy (samplesOf dst) dstStart (samplesOf src) srcStart len := by
  funext i
  by_cases hin : dstStart ≤ i ∧ i < dstStart + len
  · obtain ⟨j, rfl⟩ := Nat.exists_eq_add_of_le hin.1
    have hsrc : ∀ b, b < 2 → copy dst (2 * dstStart) src (2 * srcStart) (2 * len) (2 * (dstStart + j) + b) =
        src (2 * (srcStart + j) + b) := by
      intro b hb
      rw [show 2 * (dstStart + j) + b = 2 * dstStart + (2 * j + b) by omega, copy_of_mem (by omega)]
      exact congrArg src (by omega)
    rw [copy_of_mem (by omega), samplesOf, samplesOf, hsrc 1 (by decide)]
    exact congrArg (fun b => sample b _) (hsrc 0 (by decide))
  · rw [samplesOf, copy_of_not_mem (by omega), copy_of_not_mem (by omega), copy_of_not_mem (by omega), samplesOf]

/-- Bytes copied behind whole samples come as samples behind them; an odd last byte is of no sample. -/
theorem slice_samplesOf_copy {dst src : Nat → UInt8} {dstStart srcStart len : Nat} :
    slice (samplesOf (copy dst (2 * dstStart) src (2 * srcStart) len)) 0 (dstStart + len / 2) =
      slice (samplesOf dst) 0 dstStart ++ slice (samplesOf src) srcStart (len / 2) := by
  have hold : ∀ i, i < dstStart →
      samplesOf (copy dst (2 * dstStart) src (2 * srcStart) len) (0 + i) = samplesOf dst (0 + i) := by
    intro i hi
    rw [samplesOf, copy_of_not_mem (by omega), copy_of_not_mem (by omega), samplesOf]
  have hnew : ∀ i, i < len / 2 →
      samplesOf (copy dst (2 * dstStart) src (2 * srcStart) len) (0 + dstStart + i) = samplesOf src (srcStart + i) := by
    intro i hi
    have hbyte : ∀ b, b < 2 → copy dst (2 * dstStart) src (2 * srcStart) len (2 * (0 + dstStart + i) + b) =
        src (2 * (srcStart + i) + b) := by
      intro b hb
      rw [show 2 * (0 + dstStart + i) + b = 2 * dstStart + (2 * i + b) by omega, copy_of_mem (by omega)]
      exact congrArg src (by omega)
    rw [samplesOf, samplesOf, hbyte 1 (by decide)]
    exact congrArg (fun b => sample b _) (hbyte 0 (by decide))
  rw [slice_add, slice_congr hold, slice_congr hnew]

/-- The samples of a list of bytes. -/
def decode : List UInt8 → List Int16
  | lo :: hi :: rest => sample lo hi :: decode rest
  | _ => []

/-- The samples of a list of records. -/
def samples (records : List (List UInt8)) : List Int16 := records.flatMap decode

@[simp] theorem samples_append (rs qs : List (List UInt8)) : samples (rs ++ qs) = samples rs ++ samples qs :=
  List.flatMap_append

theorem decode_slice (mem : Nat → UInt8) (start len : Nat) :
    decode (slice mem (2 * start) (2 * len)) = slice (samplesOf mem) start len := by
  induction len generalizing start with
  | zero => rfl
  | succ len ih =>
      have hbytes : slice mem (2 * start) (2 * (len + 1)) =
          mem (2 * start) :: mem (2 * start + 1) :: slice mem (2 * (start + 1)) (2 * len) := by
        rw [show 2 * (len + 1) = 2 + 2 * len by omega, slice_add]
        rfl
      have hsamples : slice (samplesOf mem) start (len + 1) =
          samplesOf mem start :: slice (samplesOf mem) (start + 1) len := by
        rw [Nat.add_comm len 1, slice_add]
        rfl
      rw [hbytes, hsamples, decode, ih (start + 1)]
      rfl

/-- Stereo frames of four bytes are pairs of samples. -/
theorem samples_records (mem : Nat → UInt8) (start count : Nat) :
    samples (records mem 4 start count) = slice (samplesOf mem) (2 * start) (2 * count) := by
  induction count with
  | zero => rfl
  | succ count ih =>
      have hlast : samples (records mem 4 (start + count) 1) = slice (samplesOf mem) (2 * (start + count)) 2 := by
        have hframe := decode_slice mem (2 * (start + count)) 2
        rw [show 2 * (2 * (start + count)) = (start + count) * 4 by omega] at hframe
        simp only [samples, records, List.range_one, List.map_cons, List.map_nil, List.flatMap_cons,
          List.flatMap_nil, List.append_nil, Nat.add_zero]
        exact hframe
      rw [records_add, samples_append, ih, hlast, Nat.mul_succ, slice_add, Nat.mul_add]

/-- Frames of some channels are as many samples. -/
theorem samples_frames (mem : Nat → UInt8) (channels start count : Nat) :
    samples (records mem (2 * channels) start count) = slice (samplesOf mem) (channels * start) (channels * count) := by
  induction count with
  | zero => rfl
  | succ count ih =>
      have hlast : samples (records mem (2 * channels) (start + count) 1) =
          slice (samplesOf mem) (channels * (start + count)) channels := by
        have hframe := decode_slice mem (channels * (start + count)) channels
        rw [show 2 * (channels * (start + count)) = (start + count) * (2 * channels) by ring] at hframe
        simp only [samples, records, List.range_one, List.map_cons, List.map_nil, List.flatMap_cons,
          List.flatMap_nil, List.append_nil, Nat.add_zero]
        exact hframe
      rw [records_add, samples_append, ih, hlast, Nat.mul_succ, slice_add, Nat.mul_add]

end Pcm16

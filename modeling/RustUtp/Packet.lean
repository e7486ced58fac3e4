import Mathlib.Data.List.GetD
import Mathlib.Data.Nat.Bitwise

/-! # The uTP version 1 wire format

    Accessors and in-place setters over a raw header, at the byte offsets of
    the wire layout.  All multi-byte header fields are big-endian; a field is
    read and written through `u16At`/`u32At` and `setU16`/`setU32`, so the
    round trip and the independence of different fields are proved once, for
    any two offsets that do not overlap. -/

namespace UtpPacket

abbrev Bytes := List UInt8

def headerSize : Nat := 20

/-- Data packet. -/
def stData : UInt8 := 0
/-- Finalize the connection. This is the last packet. -/
def stFin : UInt8 := 1
/-- State packet. Used to transmit an ACK with no data. -/
def stState : UInt8 := 2
/-- Terminate connection forcefully. -/
def stReset : UInt8 := 3
/-- Connect SYN. -/
def stSyn : UInt8 := 4
/-- Used for bounds checking. -/
def stNumStates : UInt8 := 5

def byteAt (b : Bytes) (i : Nat) : UInt8 := b.getD i 0

/-- `u16::from_be_bytes` of the two bytes at offset `i`. -/
def u16At (b : Bytes) (i : Nat) : UInt16 :=
  UInt16.ofNat ((byteAt b i).toNat * 256 + (byteAt b (i + 1)).toNat)

/-- `u32::from_be_bytes` of the four bytes at offset `i`. -/
def u32At (b : Bytes) (i : Nat) : UInt32 :=
  UInt32.ofNat ((byteAt b i).toNat * 2 ^ 24 + (byteAt b (i + 1)).toNat * 2 ^ 16
    + (byteAt b (i + 2)).toNat * 2 ^ 8 + (byteAt b (i + 3)).toNat)

/-- `copy_from_slice` of `v.to_be_bytes()` at offset `i`. -/
def setU16 (b : Bytes) (i : Nat) (v : UInt16) : Bytes :=
  (b.set i (UInt8.ofNat (v.toNat / 256))).set (i + 1) (UInt8.ofNat v.toNat)

/-- `copy_from_slice` of `v.to_be_bytes()` at offset `i`. -/
def setU32 (b : Bytes) (i : Nat) (v : UInt32) : Bytes :=
  (((b.set i (UInt8.ofNat (v.toNat / 2 ^ 24))).set (i + 1)
    (UInt8.ofNat (v.toNat / 2 ^ 16))).set (i + 2)
    (UInt8.ofNat (v.toNat / 2 ^ 8))).set (i + 3) (UInt8.ofNat v.toNat)

/-! ## Header accessors -/

def version (b : Bytes) : UInt8 := byteAt b 0 &&& 0xf
def packetType (b : Bytes) : UInt8 := byteAt b 0 >>> 4
def ext (b : Bytes) : UInt8 := byteAt b 1
def connId (b : Bytes) : UInt16 := u16At b 2
def tvUsec (b : Bytes) : UInt32 := u32At b 4
def replyMicro (b : Bytes) : UInt32 := u32At b 8
def windowSize (b : Bytes) : UInt32 := u32At b 12
def seqNr (b : Bytes) : UInt16 := u16At b 16
def ackNr (b : Bytes) : UInt16 := u16At b 18

/-- Sanity checks that make a buffer look like a v1 packet at all. -/
def wireVersion (b : Bytes) : UInt8 :=
  if packetType b < stNumStates ∧ ext b < 3 then version b else 0

/-! ## Header setters -/

def setVersionType (b : Bytes) (version packetType : UInt8) : Bytes :=
  b.set 0 ((packetType <<< 4) ||| (version &&& 0xf))
def setExt (b : Bytes) (v : UInt8) : Bytes := b.set 1 v
def setConnId (b : Bytes) (v : UInt16) : Bytes := setU16 b 2 v
def setTvUsec (b : Bytes) (v : UInt32) : Bytes := setU32 b 4 v
def setReplyMicro (b : Bytes) (v : UInt32) : Bytes := setU32 b 8 v
def setWindowSize (b : Bytes) (v : UInt32) : Bytes := setU32 b 12 v
def setSeqNr (b : Bytes) (v : UInt16) : Bytes := setU16 b 16 v
def setAckNr (b : Bytes) (v : UInt16) : Bytes := setU16 b 18 v

/-! ## Lengths and single bytes -/

/-- Writing a field keeps the length. -/
@[simp] theorem length_setU16 (b : Bytes) (i : Nat) (v : UInt16) :
    (setU16 b i v).length = b.length := by
  simp [setU16]

@[simp] theorem length_setU32 (b : Bytes) (i : Nat) (v : UInt32) :
    (setU32 b i v).length = b.length := by
  simp [setU32]

/-- A byte that was written is read back, all others are as before. -/
theorem byteAt_set (b : Bytes) (i j : Nat) (v : UInt8) (hi : i < b.length) :
    byteAt (b.set i v) j = if i = j then v else byteAt b j := by
  unfold byteAt
  by_cases hj : j < b.length
  · rw [List.getD_eq_getElem _ _ (by rw [List.length_set]; exact hj),
      List.getD_eq_getElem _ _ hj, List.getElem_set]
  · rw [List.getD_eq_default _ _ (by rw [List.length_set]; omega),
      List.getD_eq_default _ _ (by omega), if_neg (by omega)]

/-- The bytes after a 16-bit field was written, most significant first. -/
theorem byteAt_setU16 (b : Bytes) (i j : Nat) (v : UInt16) (hi : i + 1 < b.length) :
    byteAt (setU16 b i v) j
      = if i + 1 = j then UInt8.ofNat v.toNat
        else if i = j then UInt8.ofNat (v.toNat / 256) else byteAt b j := by
  unfold setU16
  rw [byteAt_set _ _ _ _ (by rw [List.length_set]; exact hi),
    byteAt_set _ _ _ _ (by omega)]

/-- The bytes after a 32-bit field was written, most significant first. -/
theorem byteAt_setU32 (b : Bytes) (i j : Nat) (v : UInt32) (hi : i + 3 < b.length) :
    byteAt (setU32 b i v) j
      = if i + 3 = j then UInt8.ofNat v.toNat
        else if i + 2 = j then UInt8.ofNat (v.toNat / 2 ^ 8)
        else if i + 1 = j then UInt8.ofNat (v.toNat / 2 ^ 16)
        else if i = j then UInt8.ofNat (v.toNat / 2 ^ 24) else byteAt b j := by
  unfold setU32
  rw [byteAt_set _ _ _ _ (by simp only [List.length_set]; exact hi),
    byteAt_set _ _ _ _ (by simp only [List.length_set]; omega),
    byteAt_set _ _ _ _ (by simp only [List.length_set]; omega),
    byteAt_set _ _ _ _ (by omega)]

/-! ## Round trips -/

/-- **A 16-BIT FIELD IS READ BACK** as it was written. -/
theorem u16At_setU16 (b : Bytes) (i : Nat) (v : UInt16) (hi : i + 1 < b.length) :
    u16At (setU16 b i v) i = v := by
  have hlo : byteAt (setU16 b i v) (i + 1) = UInt8.ofNat v.toNat := by
    rw [byteAt_setU16 _ _ _ _ hi, if_pos rfl]
  have hhi : byteAt (setU16 b i v) i = UInt8.ofNat (v.toNat / 256) := by
    rw [byteAt_setU16 _ _ _ _ hi, if_neg (by omega), if_pos rfl]
  have hv := v.toNat_lt
  apply UInt16.toNat_inj.mp
  unfold u16At
  rw [hlo, hhi, UInt16.toNat_ofNat', UInt8.toNat_ofNat', UInt8.toNat_ofNat']
  omega

/-- **A 32-BIT FIELD IS READ BACK** as it was written. -/
theorem u32At_setU32 (b : Bytes) (i : Nat) (v : UInt32) (hi : i + 3 < b.length) :
    u32At (setU32 b i v) i = v := by
  have h3 : byteAt (setU32 b i v) (i + 3) = UInt8.ofNat v.toNat := by
    rw [byteAt_setU32 _ _ _ _ hi, if_pos rfl]
  have h2 : byteAt (setU32 b i v) (i + 2) = UInt8.ofNat (v.toNat / 2 ^ 8) := by
    rw [byteAt_setU32 _ _ _ _ hi, if_neg (by omega), if_pos rfl]
  have h1 : byteAt (setU32 b i v) (i + 1) = UInt8.ofNat (v.toNat / 2 ^ 16) := by
    rw [byteAt_setU32 _ _ _ _ hi, if_neg (by omega), if_neg (by omega), if_pos rfl]
  have h0 : byteAt (setU32 b i v) i = UInt8.ofNat (v.toNat / 2 ^ 24) := by
    rw [byteAt_setU32 _ _ _ _ hi, if_neg (by omega), if_neg (by omega),
      if_neg (by omega), if_pos rfl]
  have hv := v.toNat_lt
  apply UInt32.toNat_inj.mp
  unfold u32At
  rw [h0, h1, h2, h3, UInt32.toNat_ofNat', UInt8.toNat_ofNat', UInt8.toNat_ofNat',
    UInt8.toNat_ofNat', UInt8.toNat_ofNat']
  omega

/-! ## The header as a record

    `hdr` collects the accessors.  Each setter changes exactly its own field
    of the record and leaves the payload alone, so a chain of setters is read
    back by rewriting. -/

structure Hdr where
  version : UInt8
  packetType : UInt8
  ext : UInt8
  connId : UInt16
  tvUsec : UInt32
  replyMicro : UInt32
  windowSize : UInt32
  seqNr : UInt16
  ackNr : UInt16
  deriving DecidableEq

def hdr (b : Bytes) : Hdr where
  version := version b
  packetType := packetType b
  ext := ext b
  connId := connId b
  tvUsec := tvUsec b
  replyMicro := replyMicro b
  windowSize := windowSize b
  seqNr := seqNr b
  ackNr := ackNr b

/-- The bytes after the fixed header. -/
def body (b : Bytes) : Bytes := b.drop headerSize

/-- The byte that `set_version_type` writes splits back into its halves. -/
theorem split_versionType (t : UInt8) (ht : t < stNumStates) :
    ((t <<< 4) ||| (1 &&& 0xf)) &&& 0xf = 1
      ∧ ((t <<< 4) ||| ((1 : UInt8) &&& 0xf)) >>> 4 = t := by
  have hlt : t.toNat < 5 := UInt8.lt_iff_toNat_lt.mp ht
  have hcases : t = 0 ∨ t = 1 ∨ t = 2 ∨ t = 3 ∨ t = 4 := by
    have hv : t.toNat = 0 ∨ t.toNat = 1 ∨ t.toNat = 2 ∨ t.toNat = 3 ∨ t.toNat = 4 := by
      omega
    simpa [← UInt8.toNat_inj] using hv
  rcases hcases with rfl | rfl | rfl | rfl | rfl <;> decide

/-- Appending payload leaves the header alone. -/
theorem hdr_append {b : Bytes} (hb : headerSize ≤ b.length) (c : Bytes) :
    hdr (b ++ c) = hdr b := by
  have hlt : ∀ i, i < 20 → byteAt (b ++ c) i = byteAt b i := by
    intro i hi
    have hi' : i < b.length := lt_of_lt_of_le hi hb
    show (b ++ c).getD i 0 = b.getD i 0
    rw [List.getD_eq_getElem?_getD, List.getElem?_append_left hi', ← List.getD_eq_getElem?_getD]
  simp [hdr, version, packetType, ext, connId, tvUsec, replyMicro, windowSize, seqNr,
    ackNr, u16At, u32At, hlt]

/-- Bytes appended to a packet leave its sequence number. -/
theorem seqNr_append {b : Bytes} (hb : headerSize ≤ b.length) (c : Bytes) :
    seqNr (b ++ c) = seqNr b := congrArg Hdr.seqNr (hdr_append hb c)

section Setters

variable {b : Bytes} (hb : headerSize ≤ b.length)

include hb

/-- Version and type share a byte; both are read back if the type fits its four
    bits. -/
theorem hdr_setVersionType (t : UInt8) (ht : t < stNumStates) :
    hdr (setVersionType b 1 t) = { hdr b with version := 1, packetType := t } := by
  have hlen : 0 < b.length := lt_of_lt_of_le (by decide) hb
  have h0 : byteAt (setVersionType b 1 t) 0 = (t <<< 4) ||| (1 &&& 0xf) := by
    rw [setVersionType, byteAt_set _ _ _ _ hlen, if_pos rfl]
  have hne : ∀ j, 1 ≤ j → byteAt (setVersionType b 1 t) j = byteAt b j := by
    intro j hj
    rw [setVersionType, byteAt_set _ _ _ _ hlen, if_neg (by omega)]
  obtain ⟨hver, hty⟩ := split_versionType t ht
  simp only [hdr, version, packetType, ext, connId, tvUsec, replyMicro, windowSize,
    seqNr, ackNr, u16At, u32At, h0, hver, hty, hne, Nat.reduceLeDiff, Nat.reduceAdd]

/-- Each setter changes its own field of the header record, and no other. -/
theorem hdr_setExt (v : UInt8) : hdr (setExt b v) = { hdr b with ext := v } := by
  have hlen : 1 < b.length := lt_of_lt_of_le (by decide) hb
  have h1 : byteAt (setExt b v) 1 = v := by
    rw [setExt, byteAt_set _ _ _ _ hlen, if_pos rfl]
  have hne : ∀ j, j ≠ 1 → byteAt (setExt b v) j = byteAt b j := by
    intro j hj
    rw [setExt, byteAt_set _ _ _ _ hlen, if_neg (Ne.symm hj)]
  simp only [hdr, version, packetType, ext, connId, tvUsec, replyMicro, windowSize,
    seqNr, ackNr, u16At, u32At, h1, hne, ne_eq, Nat.reduceEqDiff, not_false_eq_true,
    Nat.reduceAdd]

/-- A 16-bit field at offset `i` leaves every byte outside `[i, i + 2)`. -/
theorem byteAt_setU16_of_ne {i j : Nat} (v : UInt16) (hi : i + 1 < headerSize)
    (h0 : j ≠ i) (h1 : j ≠ i + 1) : byteAt (setU16 b i v) j = byteAt b j := by
  rw [byteAt_setU16 _ _ _ _ (lt_of_lt_of_le hi hb), if_neg (Ne.symm h1),
    if_neg (Ne.symm h0)]

/-- A 32-bit field at offset `i` leaves every byte outside `[i, i + 4)`. -/
theorem byteAt_setU32_of_ne {i j : Nat} (v : UInt32) (hi : i + 3 < headerSize)
    (h : j < i ∨ i + 3 < j) : byteAt (setU32 b i v) j = byteAt b j := by
  rw [byteAt_setU32 _ _ _ _ (lt_of_lt_of_le hi hb), if_neg (by omega),
    if_neg (by omega), if_neg (by omega), if_neg (by omega)]

theorem hdr_setConnId (v : UInt16) :
    hdr (setConnId b v) = { hdr b with connId := v } := by
  have hown : u16At (setConnId b v) 2 = v :=
    u16At_setU16 b 2 v (lt_of_lt_of_le (by decide) hb)
  have hne : ∀ j, j ≠ 2 → j ≠ 3 → byteAt (setConnId b v) j = byteAt b j :=
    fun j h0 h1 => byteAt_setU16_of_ne hb v (by decide) h0 h1
  simp only [hdr, connId, hown]
  simp only [version, packetType, ext, tvUsec, replyMicro, windowSize, seqNr, ackNr,
    u16At, u32At, hne, ne_eq, Nat.reduceEqDiff, not_false_eq_true, Nat.reduceAdd,
    OfNat.zero_ne_ofNat, OfNat.one_ne_ofNat]

theorem hdr_setTvUsec (v : UInt32) :
    hdr (setTvUsec b v) = { hdr b with tvUsec := v } := by
  have hown : u32At (setTvUsec b v) 4 = v :=
    u32At_setU32 b 4 v (lt_of_lt_of_le (by decide) hb)
  have hne : ∀ j, j < 4 ∨ 7 < j → byteAt (setTvUsec b v) j = byteAt b j :=
    fun j h => byteAt_setU32_of_ne hb v (by decide) h
  simp only [hdr, tvUsec, hown]
  simp [version, packetType, ext, connId, replyMicro, windowSize, seqNr, ackNr,
    u16At, u32At, hne]

theorem hdr_setReplyMicro (v : UInt32) :
    hdr (setReplyMicro b v) = { hdr b with replyMicro := v } := by
  have hown : u32At (setReplyMicro b v) 8 = v :=
    u32At_setU32 b 8 v (lt_of_lt_of_le (by decide) hb)
  have hne : ∀ j, j < 8 ∨ 11 < j → byteAt (setReplyMicro b v) j = byteAt b j :=
    fun j h => byteAt_setU32_of_ne hb v (by decide) h
  simp only [hdr, replyMicro, hown]
  simp [version, packetType, ext, connId, tvUsec, windowSize, seqNr, ackNr,
    u16At, u32At, hne]

theorem hdr_setWindowSize (v : UInt32) :
    hdr (setWindowSize b v) = { hdr b with windowSize := v } := by
  have hown : u32At (setWindowSize b v) 12 = v :=
    u32At_setU32 b 12 v (lt_of_lt_of_le (by decide) hb)
  have hne : ∀ j, j < 12 ∨ 15 < j → byteAt (setWindowSize b v) j = byteAt b j :=
    fun j h => byteAt_setU32_of_ne hb v (by decide) h
  simp only [hdr, windowSize, hown]
  simp [version, packetType, ext, connId, tvUsec, replyMicro, seqNr, ackNr,
    u16At, u32At, hne]

theorem hdr_setSeqNr (v : UInt16) :
    hdr (setSeqNr b v) = { hdr b with seqNr := v } := by
  have hown : u16At (setSeqNr b v) 16 = v :=
    u16At_setU16 b 16 v (lt_of_lt_of_le (by decide) hb)
  have hne : ∀ j, j ≠ 16 → j ≠ 17 → byteAt (setSeqNr b v) j = byteAt b j :=
    fun j h0 h1 => byteAt_setU16_of_ne hb v (by decide) h0 h1
  simp only [hdr, seqNr, hown]
  simp [version, packetType, ext, connId, tvUsec, replyMicro, windowSize, ackNr,
    u16At, u32At, hne]

theorem hdr_setAckNr (v : UInt16) :
    hdr (setAckNr b v) = { hdr b with ackNr := v } := by
  have hown : u16At (setAckNr b v) 18 = v :=
    u16At_setU16 b 18 v (lt_of_lt_of_le (by decide) hb)
  have hne : ∀ j, j ≠ 18 → j ≠ 19 → byteAt (setAckNr b v) j = byteAt b j :=
    fun j h0 h1 => byteAt_setU16_of_ne hb v (by decide) h0 h1
  simp only [hdr, ackNr, hown]
  simp [version, packetType, ext, connId, tvUsec, replyMicro, windowSize, seqNr,
    u16At, u32At, hne]

end Setters

/-- No setter changes the length. -/
@[simp] theorem length_setVersionType (b : Bytes) (v t : UInt8) :
    (setVersionType b v t).length = b.length := List.length_set ..
@[simp] theorem length_setExt (b : Bytes) (v : UInt8) :
    (setExt b v).length = b.length := List.length_set ..
@[simp] theorem length_setConnId (b : Bytes) (v : UInt16) :
    (setConnId b v).length = b.length := length_setU16 ..
@[simp] theorem length_setTvUsec (b : Bytes) (v : UInt32) :
    (setTvUsec b v).length = b.length := length_setU32 ..
@[simp] theorem length_setReplyMicro (b : Bytes) (v : UInt32) :
    (setReplyMicro b v).length = b.length := length_setU32 ..
@[simp] theorem length_setWindowSize (b : Bytes) (v : UInt32) :
    (setWindowSize b v).length = b.length := length_setU32 ..
@[simp] theorem length_setSeqNr (b : Bytes) (v : UInt16) :
    (setSeqNr b v).length = b.length := length_setU16 ..
@[simp] theorem length_setAckNr (b : Bytes) (v : UInt16) :
    (setAckNr b v).length = b.length := length_setU16 ..

/-- What is written inside the header leaves the body. -/
theorem body_set (b : Bytes) {i : Nat} (v : UInt8) (hi : i < headerSize) :
    body (b.set i v) = body b := List.drop_set_of_lt hi

/-- No setter changes the body. -/
@[simp] theorem body_setVersionType (b : Bytes) (v t : UInt8) :
    body (setVersionType b v t) = body b := body_set b _ (by decide)
@[simp] theorem body_setExt (b : Bytes) (v : UInt8) :
    body (setExt b v) = body b := body_set b _ (by decide)

/-- A 16-bit field of the header leaves the body. -/
theorem body_setU16 (b : Bytes) {i : Nat} (v : UInt16) (hi : i + 1 < headerSize) :
    body (setU16 b i v) = body b := by
  rw [setU16, body_set _ _ hi, body_set _ _ (by omega)]

/-- A 32-bit field of the header leaves the body. -/
theorem body_setU32 (b : Bytes) {i : Nat} (v : UInt32) (hi : i + 3 < headerSize) :
    body (setU32 b i v) = body b := by
  rw [setU32, body_set _ _ hi, body_set _ _ (by omega), body_set _ _ (by omega),
    body_set _ _ (by omega)]

@[simp] theorem body_setConnId (b : Bytes) (v : UInt16) :
    body (setConnId b v) = body b := body_setU16 b v (by decide)
@[simp] theorem body_setTvUsec (b : Bytes) (v : UInt32) :
    body (setTvUsec b v) = body b := body_setU32 b v (by decide)
@[simp] theorem body_setReplyMicro (b : Bytes) (v : UInt32) :
    body (setReplyMicro b v) = body b := body_setU32 b v (by decide)
@[simp] theorem body_setWindowSize (b : Bytes) (v : UInt32) :
    body (setWindowSize b v) = body b := body_setU32 b v (by decide)
@[simp] theorem body_setSeqNr (b : Bytes) (v : UInt16) :
    body (setSeqNr b v) = body b := body_setU16 b v (by decide)
@[simp] theorem body_setAckNr (b : Bytes) (v : UInt16) :
    body (setAckNr b v) = body b := body_setU16 b v (by decide)

end UtpPacket

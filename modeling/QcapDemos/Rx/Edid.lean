import QcapDemos.Drm.Mode
import QcapDemos.Lib.CString

set_option autoImplicit false

/-! # The EDID that the sink hands out

Dante asks the sink for an EDID of two blocks. The sink takes the one of the monitor where it is
valid, cut to two blocks or padded with zeros, and a constant one elsewhere. The cut leaves the
number of extension blocks in the first block as the monitor has it.
-/

namespace QcapDemos.Rx

open QcapDemos.Drm QcapDemos.Lib.CString

def EDID_LEN : Nat := 256

def EDID_HEADER : List UInt8 := [0x00, 0xff, 0xff, 0xff, 0xff, 0xff, 0xff, 0x00]

/-- The sum of the bytes of block `b`. -/
def blockSum (edid : List UInt8) (b : Nat) : Nat :=
  ((edid.drop (b * 128)).take 128).foldl (fun sum byte => sum + byte.toNat) 0

def isValidEdid (edid : List UInt8) (len : Nat) : Bool :=
  if len < 128 then false
  else if edid.take 8 ≠ EDID_HEADER then false
  else
    let blocks := if 2 < len / 128 then 2 else len / 128
    blocks != 0 && (List.range blocks).all fun b => blockSum edid b % 256 == 0

def gFallbackEdid : List UInt8 := [
  0x00, 0xff, 0xff, 0xff, 0xff, 0xff, 0xff, 0x00, 0x61, 0x98, 0x34, 0x12, 0x78, 0x56, 0x34, 0x12,
  0x03, 0x1c, 0x01, 0x03, 0x80, 0x59, 0x32, 0x78, 0x0a, 0xee, 0x91, 0xa3, 0x54, 0x4c, 0x99, 0x26,
  0x0f, 0x50, 0x54, 0x21, 0x08, 0x00, 0x71, 0x4f, 0x81, 0xc0, 0x81, 0x00, 0x81, 0x80, 0x95, 0x00,
  0xa9, 0xc0, 0xb3, 0x00, 0x01, 0x01, 0x02, 0x3a, 0x80, 0x18, 0x71, 0x38, 0x2d, 0x40, 0x58, 0x2c,
  0x45, 0x00, 0x20, 0xc2, 0x31, 0x00, 0x00, 0x1e, 0x00, 0x00, 0x00, 0xfc, 0x00, 0x58, 0x49, 0x4c,
  0x49, 0x4e, 0x58, 0x20, 0x48, 0x44, 0x4d, 0x49, 0x0a, 0x20, 0x00, 0x00, 0x00, 0xfd, 0x00, 0x18,
  0x4b, 0x0f, 0x8c, 0x3c, 0x00, 0x0a, 0x20, 0x20, 0x20, 0x20, 0x20, 0x20, 0x00, 0x00, 0x00, 0x10,
  0x00, 0x00, 0x00, 0x00, 0x00, 0x00, 0x00, 0x00, 0x00, 0x00, 0x00, 0x00, 0x00, 0x00, 0x01, 0x36,
  0x02, 0x03, 0x3d, 0x70, 0x5c, 0x61, 0x10, 0x1f, 0x21, 0x20, 0x5d, 0x5e, 0x5f, 0x60, 0x65, 0x66,
  0x62, 0x63, 0x64, 0x48, 0x67, 0x68, 0x69, 0x6b, 0x6a, 0x22, 0x3e, 0x04, 0x3e, 0x3d, 0x41, 0x43,
  0x45, 0x23, 0x09, 0x07, 0x07, 0x6d, 0x03, 0x0c, 0x00, 0x10, 0x00, 0x78, 0x3c, 0x20, 0x00, 0x60,
  0x01, 0x02, 0x03, 0x67, 0xd8, 0x5d, 0xc4, 0x01, 0x78, 0x80, 0x07, 0xe1, 0x0f, 0x02, 0x3a, 0x80,
  0x18, 0x71, 0x38, 0x2d, 0x40, 0x58, 0x2c, 0x45, 0x00, 0x20, 0xc2, 0x31, 0x00, 0x00, 0x1e, 0x08,
  0xe8, 0x00, 0x30, 0xf2, 0x70, 0x5a, 0x80, 0xb0, 0x58, 0x8a, 0x00, 0x20, 0xc2, 0x31, 0x00, 0x00,
  0x1e, 0x04, 0x74, 0x00, 0x30, 0xf2, 0x70, 0x5a, 0x80, 0xb0, 0x58, 0x8a, 0x00, 0x20, 0x52, 0x31,
  0x00, 0x00, 0x1e, 0x00, 0x00, 0x00, 0x00, 0x00, 0x00, 0x00, 0x00, 0x00, 0x00, 0x00, 0x00, 0x2c]

/-- The EDID blob of a connector: whole blocks of 128 bytes. -/
structure EdidBlob where
  data : List UInt8
  wholeBlocks : data.length % 128 = 0

/-- The connector as `read_connector_edid` finds it: its properties and their values, the id of the
property `EDID`, and the blobs. -/
structure EdidSource where
  drmFd : Int
  connectorId : Nat
  properties : Option (List (Nat × Nat))
  edidPropId : Nat
  propertyBlob : Nat → Option EdidBlob

/-- The blob that the property `EDID` of the connector names. -/
def connectorBlob (src : EdidSource) : Option EdidBlob := do
  let props ← src.properties
  if src.edidPropId = 0 then none
  else
    let (_, blobId) ← props.find? fun p => p.1 == src.edidPropId
    if blobId = 0 then none else src.propertyBlob blobId

def readConnectorEdid (src : EdidSource) (maxLen : Nat) : Option (List UInt8) :=
  if src.drmFd < 0 ∨ src.connectorId = 0 ∨ maxLen < EDID_LEN then none
  else
    match connectorBlob src with
    | none => none
    | some blob =>
        if 128 ≤ blob.data.length then
          let copyLen := if blob.data.length < maxLen then blob.data.length else maxLen
          -- the first block is copied as it is, with its number of extension blocks
          let outEdid := blob.data.take copyLen ++ List.replicate (maxLen - copyLen) 0
          if isValidEdid outEdid copyLen then some outEdid else none
        else none

/-- The reply of `dau_get_edid` on the HDMI sink. -/
def dauGetEdid (ctx : Option EdidSource) : List UInt8 :=
  match ctx with
  | none => gFallbackEdid
  | some src =>
      if 0 ≤ src.drmFd ∧ src.connectorId ≠ 0 then
        (readConnectorEdid src EDID_LEN).getD gFallbackEdid
      else gFallbackEdid

/-! ## Self-consistent replies -/

/-- The number of extension blocks that the first block promises. -/
def extensionCount (edid : List UInt8) : Nat := (edid.getD 126 0).toNat

/-- A reply of two blocks with sound checksums that promises no more than these. -/
structure SelfConsistent (reply : List UInt8) : Prop where
  length : reply.length = 256
  header : EDID_HEADER <+: reply
  block0 : blockSum reply 0 % 256 = 0
  block1 : blockSum reply 1 % 256 = 0
  extensions : extensionCount reply ≤ 1

theorem gFallbackEdid_selfConsistent : SelfConsistent gFallbackEdid :=
  { length := by decide +kernel
    header := by decide +kernel
    block0 := by decide +kernel
    block1 := by decide +kernel
    extensions := by decide +kernel }

section Reply

variable {edid : List UInt8} {len : Nat}

theorem isValidEdid_iff :
    isValidEdid edid len = true ↔ 128 ≤ len ∧ edid.take 8 = EDID_HEADER ∧
      blockSum edid 0 % 256 = 0 ∧ (256 ≤ len → blockSum edid 1 % 256 = 0) := by
  unfold isValidEdid
  by_cases hlen : len < 128
  · simp [hlen]
  by_cases hheader : edid.take 8 = EDID_HEADER
  · by_cases htwo : 256 ≤ len
    · have hblocks : (if 2 < len / 128 then 2 else len / 128) = 2 := by
        split_ifs <;> omega
      simp only [hlen, hheader, hblocks, List.range_succ, List.range_zero]
      simp [htwo, not_lt.mp hlen]
    · have hblocks : (if 2 < len / 128 then 2 else len / 128) = 1 := by
        split_ifs <;> omega
      simp only [hlen, hheader, hblocks, List.range_succ, List.range_zero]
      simp [htwo, not_lt.mp hlen]
  · simp [hlen, hheader]

/-- What a copy of `len` bytes keeps of the blob, whatever fills the rest. -/
theorem take_copy {n i : Nat} (h : i + n ≤ len) (hlen : len ≤ edid.length) (fill : List UInt8) :
    ((edid.take len ++ fill).drop i).take n = (edid.drop i).take n := by
  have htake : (edid.take len).length = len := List.length_take_of_le hlen
  rw [List.drop_append_of_le_length (by omega), List.take_append_of_le_length, List.drop_take,
    List.take_take, Nat.min_eq_left (by omega)]
  rw [List.length_drop]
  omega

theorem blockSum_copy {b : Nat} (h : b * 128 + 128 ≤ len) (hlen : len ≤ edid.length)
    (fill : List UInt8) : blockSum (edid.take len ++ fill) b = blockSum edid b := by
  rw [blockSum, take_copy h hlen, blockSum]

/-- The bytes that a copy keeps decide whether it is valid. -/
theorem isValidEdid_copy (hlen : len ≤ edid.length) (fill : List UInt8) :
    isValidEdid (edid.take len ++ fill) len = isValidEdid edid len := by
  rw [Bool.eq_iff_iff, isValidEdid_iff, isValidEdid_iff]
  refine and_congr_right fun h128 => ?_
  have hheader := take_copy (i := 0) (n := 8) (by omega) hlen fill
  rw [List.drop_zero, List.drop_zero] at hheader
  rw [hheader, blockSum_copy (by omega) hlen]
  refine and_congr_right fun _ => and_congr_right fun _ => forall_congr' fun h256 => ?_
  rw [blockSum_copy (by omega) hlen]

theorem extensionCount_copy (h : 128 ≤ len) (hlen : len ≤ edid.length) (fill : List UInt8) :
    extensionCount (edid.take len ++ fill) = extensionCount edid := by
  have hread := take_copy (i := 126) (n := 1) (by omega) hlen fill
  have hhead (l : List UInt8) : l.getD 126 0 = ((l.drop 126).take 1).headD 0 := by
    simp [List.getD_eq_getElem?_getD, List.headD_eq_head?_getD, List.head?_take, List.head?_drop]
  rw [extensionCount, hhead, hread, ← hhead, extensionCount]

/-- The second block of an EDID of one block is all zeros. -/
theorem blockSum_padding (h : edid.length = 128) :
    blockSum (edid ++ List.replicate 128 0) 1 = 0 := by
  rw [blockSum, List.drop_left' (by omega)]
  decide +kernel

/-- A valid EDID of the monitor gives a reply that has everything but the extension count. -/
theorem selfConsistent_copy {blob : EdidBlob} (h : 128 ≤ blob.data.length)
    (hvalid : isValidEdid blob.data (min blob.data.length 256) = true) :
    SelfConsistent (blob.data.take (min blob.data.length 256)
      ++ List.replicate (256 - min blob.data.length 256) 0) ↔ extensionCount blob.data ≤ 1 := by
  have hwhole := blob.wholeBlocks
  have hlen : min blob.data.length 256 ≤ blob.data.length := Nat.min_le_left _ _
  rw [← isValidEdid_copy hlen (List.replicate (256 - min blob.data.length 256) 0),
    isValidEdid_iff] at hvalid
  obtain ⟨-, hheader, hblock0, hblock1⟩ := hvalid
  have hext := extensionCount_copy (by omega) hlen
    (List.replicate (256 - min blob.data.length 256) 0)
  rw [← hext]
  refine ⟨SelfConsistent.extensions, fun hle => ⟨?_, ?_, hblock0, ?_, hle⟩⟩
  · rw [List.length_append, List.length_take, List.length_replicate]
    omega
  · rw [← hheader]
    exact List.take_prefix 8 _
  · by_cases htwo : 256 ≤ blob.data.length
    · exact hblock1 (by omega)
    · -- one block, and a second one of zeros
      have hone : blob.data.length = 128 := by omega
      rw [hone, List.take_of_length_le (by omega)]
      exact congrArg (· % 256) (blockSum_padding hone)

end Reply

/-- A valid EDID of the monitor promises no more extension blocks than a reply has room for. -/
def FitsReply (ctx : Option EdidSource) : Prop :=
  ∀ src ∈ ctx, 0 ≤ src.drmFd → src.connectorId ≠ 0 → ∀ blob ∈ connectorBlob src,
    isValidEdid blob.data (min blob.data.length 256) = true → extensionCount blob.data ≤ 1

/-- The reply of a connector whose EDID is read. -/
theorem readConnectorEdid_eq {src : EdidSource} (hfd : 0 ≤ src.drmFd) (hid : src.connectorId ≠ 0)
    {blob : EdidBlob} (hblob : connectorBlob src = some blob) :
    readConnectorEdid src EDID_LEN =
      if isValidEdid blob.data (min blob.data.length 256) = true then
        some (blob.data.take (min blob.data.length 256)
          ++ List.replicate (256 - min blob.data.length 256) 0)
      else none := by
  have hargs : ¬ (src.drmFd < 0 ∨ src.connectorId = 0 ∨ EDID_LEN < EDID_LEN) := by
    simp [hid, hfd]
  have hcopy : (if blob.data.length < EDID_LEN then blob.data.length else EDID_LEN)
      = min blob.data.length 256 := by
    unfold EDID_LEN
    split_ifs <;> omega
  rw [readConnectorEdid, if_neg hargs, hblob]
  simp only [hcopy, isValidEdid_copy (Nat.min_le_left blob.data.length 256)]
  by_cases h128 : 128 ≤ blob.data.length
  · rw [if_pos h128]
    rfl
  · -- the test of the length is one that `is_valid_edid` makes again
    have hinvalid : ¬ isValidEdid blob.data (min blob.data.length 256) = true := by
      rw [isValidEdid_iff]
      omega
    rw [if_neg h128, if_neg hinvalid]

/-- **The EDID of the sink is self-consistent exactly if the EDID of the monitor, where it is valid,
has no more than one extension block.** -/
theorem dauGetEdid_selfConsistent_iff (ctx : Option EdidSource) :
    SelfConsistent (dauGetEdid ctx) ↔ FitsReply ctx := by
  cases ctx with
  | none =>
      refine ⟨fun _ src hsrc => ?_, fun _ => gFallbackEdid_selfConsistent⟩
      cases hsrc
  | some src =>
      have hfits : FitsReply (some src) ↔ (0 ≤ src.drmFd → src.connectorId ≠ 0 →
          ∀ blob ∈ connectorBlob src, isValidEdid blob.data (min blob.data.length 256) = true →
            extensionCount blob.data ≤ 1) := by
        simp [FitsReply]
      rw [hfits, dauGetEdid]
      -- every way but that of a valid EDID ends in the constant one
      by_cases hread : 0 ≤ src.drmFd ∧ src.connectorId ≠ 0
      · rw [if_pos hread]
        cases hblob : connectorBlob src with
        | none =>
            have hnone : readConnectorEdid src EDID_LEN = none := by
              unfold readConnectorEdid
              rw [hblob]
              split_ifs <;> rfl
            rw [hnone]
            refine ⟨fun _ _ _ blob hmem => ?_, fun _ => gFallbackEdid_selfConsistent⟩
            cases hmem
        | some blob =>
            rw [readConnectorEdid_eq hread.1 hread.2 hblob]
            by_cases hvalid : isValidEdid blob.data (min blob.data.length 256) = true
            · have h128 : 128 ≤ blob.data.length := by
                have hlen := (isValidEdid_iff.mp hvalid).1
                omega
              rw [if_pos hvalid, Option.getD_some, selfConsistent_copy h128 hvalid]
              simp [hread, hvalid]
            · rw [if_neg hvalid, Option.getD_none]
              refine ⟨fun _ _ _ blob' hmem hvalid' => ?_, fun _ => gFallbackEdid_selfConsistent⟩
              obtain rfl := Option.some.inj hmem
              exact absurd hvalid' hvalid
      · rw [if_neg hread]
        exact ⟨fun _ hfd hid => absurd ⟨hfd, hid⟩ hread, fun _ => gFallbackEdid_selfConsistent⟩

/-- The EDID of a monitor with two extension blocks. -/
def threeBlocks : EdidBlob where
  data := EDID_HEADER ++ List.replicate 118 0 ++ [2, 4] ++ List.replicate 256 0
  wholeBlocks := by decide +kernel

def threeBlockMonitor : EdidSource where
  drmFd := 3
  connectorId := 52
  properties := some [(1, 17)]
  edidPropId := 1
  propertyBlob := fun blobId => if blobId = 17 then some threeBlocks else none

/-- The reply has two blocks, and promises three. -/
theorem not_dauGetEdid_selfConsistent : ¬ ∀ ctx, SelfConsistent (dauGetEdid ctx) := by
  intro h
  have hle := (h (some threeBlockMonitor)).extensions
  have hpromised : extensionCount (dauGetEdid (some threeBlockMonitor)) = 2 := by decide +kernel
  omega

/-! ## The EDID of an SDI sink -/

/-- The bytes from `i` on replaced. -/
def put (e : List UInt8) (i : Nat) (bytes : List UInt8) : List UInt8 :=
  e.take i ++ bytes ++ e.drop (i + bytes.length)

/-- The last byte of block `b` set so that the block sums to zero. -/
def closeBlock (e : List UInt8) (b : Nat) : List UInt8 :=
  let sum := ((e.drop (b * 128)).take 127).foldl (fun sum byte => sum + byte.toNat) 0
  put e (b * 128 + 127) [(2 ^ 32 - sum % 2 ^ 32).toUInt8]

/-- The detailed timings of the two modes. -/
def sdiTiming (width : Nat) : List UInt8 :=
  if width = 1920 then
    [0x02, 0x3a, 0x80, 0x18, 0x71, 0x38, 0x2d, 0x40, 0x58, 0x2c, 0x45, 0, 0, 0, 0, 0, 0, 0x1e]
  else
    [0x08, 0xe8, 0, 0x30, 0xf2, 0x70, 0x5a, 0x80, 0xb0, 0x58, 0x8a, 0, 0, 0, 0, 0, 0, 0x1e]

/-- The EDID of `sdi_capabilities` for a timing. -/
def sdiEdid (timing : List UInt8) : List UInt8 :=
  let e := put (List.replicate 256 0) 0 EDID_HEADER
  let e := put e 8 [0x66, 0xa1, 1]
  let e := put e 17 [36, 1, 4, 0xa0]
  let e := put e 23 [0xff, 0x02]
  let e := put e 38 (List.replicate 16 1)
  let e := put e 54 timing
  let e := put e 75 [0x10]
  let e := put e 93 [0xfc]
  let e := put e 95 (ascii "SC6F0 SDI RX\n")
  let e := put e 111 [0x10]
  let e := put e 126 [1]
  let e := put e 128 [0x02, 0x03, 8]
  let e := put e 132 [0x23, 0x09, 0x04, 0x04]
  closeBlock (closeBlock e 0) 1

def sdiCapabilities (width height fps : Nat) : Option (List UInt8) :=
  if !sdiSize width height || fps != 60 then none else some (sdiEdid (sdiTiming width))

/-- The EDID that the sink makes up on SDI has two blocks and says so. -/
theorem sdiCapabilities_selfConsistent {width height fps : Nat} {e : List UInt8}
    (h : sdiCapabilities width height fps = some e) : SelfConsistent e := by
  unfold sdiCapabilities at h
  split_ifs at h
  obtain rfl := Option.some.inj h
  unfold sdiTiming
  split_ifs
  · exact
      { length := by decide +kernel
        header := by decide +kernel
        block0 := by decide +kernel
        block1 := by decide +kernel
        extensions := by decide +kernel }
  · exact
      { length := by decide +kernel
        header := by decide +kernel
        block0 := by decide +kernel
        block1 := by decide +kernel
        extensions := by decide +kernel }

end QcapDemos.Rx

import Mathlib.Data.List.Basic

set_option autoImplicit false

/-! # The axis probe: profiles and the decoding of one point

A probe point publishes a bank of 64 words. The layouts of the two known FPGA images differ in
the names and widths of their five points only.
-/

namespace QcapDemos.Probe

def FPGA : Nat := 0x26102005
def MAGIC : Nat := 0x41585052
def ABI : Nat := 0x00020000

def OVERFLOW_NAMES : List String :=
  ["window_cycles", "reserved1", "reserved2", "reserved3", "reserved4", "reserved5", "reserved6",
    "reserved7", "reserved8", "reserved9", "epoch",
    "line_beats", "frame_lines", "frame_beats", "runs",
    "period_range", "period_overrun_count"]

def POINT_NAMES : List String :=
  ["dante_out", "cdc_out", "vproc_in", "vproc_out", "mixer_overlay_in"]

structure Profile where
  abi : Nat
  names : List String
  widths : List Nat

def PROFILES : List (Nat × Profile) :=
  [(FPGA, { abi := ABI, names := POINT_NAMES, widths := [72, 48, 48, 48, 48] }),
    (0x26102101, {
      abi := 0x00030000
      names := ["dante_out", "mixer_overlay_in", "mixer_out", "csc_out", "packer_out"]
      widths := [72, 48, 48, 48, 64] })]

/-- No profile names two points alike, so a sample has one entry for each point. -/
theorem names_nodup : ∀ p ∈ PROFILES, p.2.names.Nodup ∧ p.2.names.length = 5 := by decide

/-! ## One point -/

/-- A statistic of which the compact encoding keeps the last value only. -/
structure Stat where
  last : Nat
  min : Option Nat
  max : Option Nat
deriving DecidableEq

structure Point where
  overflowFlags : Nat
  overflowFields : List String
  compactEncodingValid : Bool
  measurementComplete : Bool
  flags : Nat
  epoch : Nat
  acceptedBeats : Nat
  validCycles : Nat
  stallCycles : Nat
  invalidCycles : Nat
  sof : Nat
  eol : Nat
  geometryErrorBeats : Nat
  stallViolationCycles : Nat
  lineBeats : Stat
  frameLines : Stat
  frameBeats : Stat
  stallRun : Option Nat
  stallMax : Option Nat
  noTransferRun : Option Nat
  noTransferMax : Option Nat
  sofPeriodRefTicks : Stat
  localCycles : Nat
  observedResetAssertions : Nat
  snapshotRefTicks : Nat
  expectedLineBeats : Nat
  expectedFrameLines : Nat
  invalidRun : Option Nat
  invalidMax : Option Nat
  unsupportedStatistics : List String
  sofAgeRefTicks : Nat
  periodSampleOverrun : Nat
  periodUpdatePending : Bool
deriving DecidableEq

/-- The word `i` of a bank; the banks that are decoded hold all 64 words. -/
def word (words : List Nat) (i : Nat) : Nat := words.getD i 0

def u64 (words : List Nat) (index : Nat) : Nat :=
  word words index ||| (word words (index + 1) <<< 32)

/-- The names of the bits of `overflow` that are set. -/
def overflowFields (overflow : Nat) : List String :=
  (OVERFLOW_NAMES.zipIdx.filter fun x => overflow &&& (1 <<< x.2) ≠ 0).map Prod.fst

def encodingValid (words : List Nat) : Bool :=
  ([3, 5, 7, 9, 11, 13, 30, 34, 36].all fun i => word words i == 0) &&
  ([2, 4, 6, 8, 10, 12, 14, 15, 35, 37, 46].all fun i => decide (word words i < 1 <<< 28))

def decodePoint (words : List Nat) : Point :=
  let overflow := word words 47
  let lastOnly (last : Nat) : Stat := { last := last, min := none, max := none }
  { overflowFlags := overflow
    overflowFields := overflowFields overflow
    compactEncodingValid := encodingValid words
    measurementComplete := encodingValid words && overflow == 0 && word words 46 == 0 &&
      word words 0 &&& 64 == 0
    flags := word words 0
    epoch := word words 1
    acceptedBeats := u64 words 2
    validCycles := u64 words 4
    stallCycles := u64 words 6
    invalidCycles := u64 words 8
    sof := u64 words 10
    eol := u64 words 12
    geometryErrorBeats := word words 14
    stallViolationCycles := word words 15
    lineBeats := lastOnly (word words 16)
    frameLines := lastOnly (word words 19)
    frameBeats := lastOnly (word words 22)
    stallRun := none
    stallMax := none
    noTransferRun := none
    noTransferMax := none
    sofPeriodRefTicks := lastOnly (u64 words 29)
    localCycles := u64 words 35
    observedResetAssertions := word words 37
    snapshotRefTicks := u64 words 38
    expectedLineBeats := word words 40
    expectedFrameLines := word words 41
    invalidRun := none
    invalidMax := none
    unsupportedStatistics := ["minima", "maxima", "run_lengths"]
    sofAgeRefTicks := u64 words 44
    periodSampleOverrun := word words 46
    periodUpdatePending := word words 0 &&& 64 != 0 }

end QcapDemos.Probe

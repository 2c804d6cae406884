import QcapDemos.Lib.Seqlock
import QcapDemos.Probe.Decode

set_option autoImplicit false

/-! # The axis probe: a capture never returns a torn sample

The FPGA publishes snapshots, each as a whole: the banks of the five points, the mask of the
points that are valid, and a sequence number of 32 bits. `capture` reads them one register at a
time between two reads of the sequence number, while further snapshots may be published before
any of its accesses.
-/

namespace QcapDemos.Probe

open QcapDemos.Lib QcapDemos.Lib.Reader

/-! ## The registers -/

structure Snapshot where
  mask : UInt32
  words : Nat → Nat → UInt32

/-- The probe during a run: snapshot number `n` of the run, the sequence number of the
snapshot with which the run begins, how many snapshots are published before each access, and
what the registers outside the snapshot read (access by access: the status changes freely). -/
structure Fpga where
  published : Nat → Snapshot
  start : UInt32
  gap : Nat → Nat
  other : Nat → Nat → UInt32

def Fpga.sequence (F : Fpga) (n : Nat) : Nat := (F.start.toNat + n) % 2 ^ 32

def Fpga.mask (F : Fpga) (n : Nat) : Nat := (F.published n).mask.toNat

def Fpga.word (F : Fpga) (n point i : Nat) : Nat := ((F.published n).words point i).toNat

/-- All 64 words of a point of snapshot `n`. -/
def Fpga.bank (F : Fpga) (n point : Nat) : List Nat := (List.range 64).map (F.word n point)

/-- The register at `offset`, read by access number `k` while snapshot `n` is published. -/
def Fpga.register (F : Fpga) (offset n k : Nat) : Nat :=
  if offset = 0x10 then F.sequence n
  else if offset = 0x18 then F.mask n
  else if 0x100 ≤ offset ∧ offset < 0x600 then
    F.word n ((offset - 0x100) / 0x100) ((offset - 0x100) % 0x100 / 4)
  else (F.other k offset).toNat

inductive ErrorKind where
  | valueError
  | runtimeError
  | timeoutError
  | keyError
deriving DecidableEq

structure Error where
  kind : ErrorKind
  text : String
deriving DecidableEq

abbrev Access (α : Type) : Type := Reader Error α

/-- An aligned offset of the mapped page, within the bounds `read32` checks. -/
def ValidOffset (offset : Nat) : Prop := offset % 4 = 0 ∧ offset < 4096

instance (offset : Nat) : Decidable (ValidOffset offset) := inferInstanceAs (Decidable (_ ∧ _))

section Program

variable (F : Fpga)

def read32 (offset : Nat) : Access Nat := do
  raiseIf (¬ ValidOffset offset) ⟨.valueError, "Invalid probe register offset"⟩
  access F.gap (F.register offset)

/-- The snapshots that a command leads to are among those published before later accesses. -/
def write32 (offset value : Nat) : Access Unit := do
  raiseIf (offset ≠ 0xC ∨ value ∉ [1, 3])
    ⟨.valueError, "Only probe SNAPSHOT/CLEAR_AFTER_SNAPSHOT may be written"⟩
  access F.gap fun _ _ => ()

def validateProbe (expectedFpga : Option Nat) : Access Nat := do
  let magic ← read32 F 0
  let abi ← read32 F 4
  let points ← read32 F 8
  match PROFILES.filter fun p => p.2.abi == abi with
  | [(fpga, _)] =>
      raiseIf (magic ≠ MAGIC ∨ points ≠ 5)
        ⟨.runtimeError, "Unknown probe identity/ABI/point count; no command issued"⟩
      raiseIf (∃ e ∈ expectedFpga, e ≠ fpga)
        ⟨.runtimeError, "FPGA/probe ABI mismatch; no command issued"⟩
      let features ← read32 F 0x30
      let statistics ← read32 F 0x34
      raiseIf ((features, statistics) ≠ (3, 28))
        ⟨.runtimeError, "Unknown compact probe features; no command issued"⟩
      pure fpga
  | _ => throw ⟨.runtimeError, "Unknown probe identity/ABI/point count; no command issued"⟩

/-- A new sequence number whose capture is over: no longer busy, or timed out. -/
def Arrived (priorSeq seq status : Nat) : Prop :=
  seq ≠ priorSeq ∧ (status &&& 1 = 0 ∨ status &&& 2 ≠ 0)

instance (p s t : Nat) : Decidable (Arrived p s t) := inferInstanceAs (Decidable (_ ∧ _))

/-- Poll for the end of the capture. The deadline lies ahead for `polls` more polls. -/
def awaitSequence (priorSeq : Nat) : Nat → Access Nat
  | 0 => do
      let seq ← read32 F 0x10
      let status ← read32 F 0x14
      if Arrived priorSeq seq status then pure seq
      else throw ⟨.timeoutError, "Software capture deadline; no video/reset action taken"⟩
  | polls + 1 => do
      let seq ← read32 F 0x10
      let status ← read32 F 0x14
      if Arrived priorSeq seq status then pure seq
      else awaitSequence priorSeq polls

def requestSnapshot (priorSeq : Nat) (clear : Bool) (polls : Nat) : Access Unit := do
  let busy ← read32 F 0x14
  raiseIf (busy &&& 1 ≠ 0)
    ⟨.runtimeError, "Previous capture still BUSY; refusing to cancel/re-toggle it"⟩
  write32 F 0xC (if clear then 3 else 1)
  let seq ← awaitSequence F priorSeq polls
  raiseIf (seq ≠ (priorSeq + 1) &&& 0xFFFFFFFF) ⟨.runtimeError, "Concurrent capture detected"⟩

/-- A point whose bit is clear is absent: its bank holds what an older capture left. -/
def readPoint (mask : Nat) (x : String × Nat) : Access (String × Option Point) :=
  if mask &&& (1 <<< x.2) ≠ 0 then do
    let words ← (List.range 64).mapM fun i => read32 F (0x100 + x.2 * 0x100 + i * 4)
    pure (x.1, some (decodePoint words))
  else pure (x.1, none)

def readPoints (mask : Nat) (names : List String) : Access (List (String × Option Point)) :=
  names.zipIdx.mapM (readPoint F mask)

/-- The digits of `n` as the format `#010x` writes them. -/
def hex010 (n : Nat) : String :=
  let digits := Nat.toDigits 16 n
  "0x" ++ String.ofList (List.replicate (8 - digits.length) '0' ++ digits)

structure Sample where
  fpga : String
  abi : String
  sequence : Nat
  pointDataWidthBits : List (String × Nat)
  busy : Bool
  timedOut : Bool
  validMask : Nat
  isPartial : Bool
  measurementComplete : Bool
  points : List (String × Option Point)
  clearAfterCaptureRequested : Bool
deriving DecidableEq

/-- What `capture` reads between the two reads of the sequence number, checks included. -/
def readSnapshot (names : List String) :
    Access (Nat × Nat × Nat × List (String × Option Point)) := do
  let sequence ← read32 F 0x10
  let status ← read32 F 0x14
  let mask ← read32 F 0x18
  raiseIf (sequence = 0)
    ⟨.runtimeError, "No published snapshot yet; explicitly request --snapshot"⟩
  let points ← readPoints F mask names
  let again ← read32 F 0x10
  raiseIf (again ≠ sequence)
    ⟨.runtimeError, "Snapshot sequence changed during read; discard torn sample"⟩
  pure (sequence, status, mask, points)

def capture (request clear : Bool) (polls : Nat) (expectedFpga : Option Nat) :
    Access Sample := do
  let fpga ← validateProbe F expectedFpga
  match PROFILES.lookup fpga with
  | none => throw ⟨.keyError, hex010 fpga⟩
  | some profile =>
      raiseIf (clear = true ∧ request = false) ⟨.valueError, "--clear requires --snapshot"⟩
      let priorSeq ← read32 F 0x10
      (if request then requestSnapshot F priorSeq clear polls else pure () : Access Unit)
      let (sequence, status, mask, points) ← readSnapshot F profile.names
      pure {
        fpga := hex010 fpga
        abi := toString (profile.abi >>> 16) ++ ".0"
        sequence := sequence
        pointDataWidthBits := profile.names.zip profile.widths
        busy := status &&& 1 ≠ 0
        timedOut := status &&& 2 ≠ 0
        validMask := mask
        isPartial := mask ≠ 31
        measurementComplete := mask = 31 ∧
          ∀ x ∈ points, ∀ point ∈ x.2, point.measurementComplete = true
        points := points
        clearAfterCaptureRequested := clear }

end Program

/-! ## What the accesses see -/

theorem read32_eq_ok {F : Fpga} {offset a : Nat} {t t' : Tick}
    (h : read32 F offset t = .ok (a, t')) :
    a = F.register offset t'.version t.accesses ∧ t.version ≤ t'.version := by
  obtain ⟨_, u, hcheck, hacc⟩ := bind_eq_ok.mp h
  obtain ⟨-, rfl⟩ := raiseIf_eq_ok.mp hcheck
  obtain ⟨rfl, ht⟩ := access_eq_ok.mp hacc
  refine ⟨rfl, ?_⟩
  rw [ht]
  exact Nat.le_add_right _ _

theorem sees_read32 (F : Fpga) (offset : Nat) :
    Sees (read32 F offset) fun n a => ∃ k, a = F.register offset n k := by
  refine (sees_raiseIf _ _).bind fun _ => (sees_access _ _).mono ?_
  intro n a hread _
  exact hread

theorem sees_write32 (F : Fpga) (offset value : Nat) :
    Sees (write32 F offset value) fun _ _ => True :=
  (sees_raiseIf _ _).bind fun _ => (sees_access _ _).mono fun _ _ _ _ => trivial

@[simp] theorem register_sequence (F : Fpga) (n k : Nat) :
    F.register 0x10 n k = F.sequence n := rfl

@[simp] theorem register_mask (F : Fpga) (n k : Nat) : F.register 0x18 n k = F.mask n := rfl

/-- The offsets at which the words of the five banks are read. -/
theorem register_word (F : Fpga) {point i : Nat} (hp : point < 5) (hi : i < 64) (n k : Nat) :
    F.register (0x100 + point * 0x100 + i * 4) n k = F.word n point i := by
  have hbank : (0x100 + point * 0x100 + i * 4 - 0x100) / 0x100 = point := by omega
  have hindex : (0x100 + point * 0x100 + i * 4 - 0x100) % 0x100 / 4 = i := by omega
  unfold Fpga.register
  rw [if_neg (by omega), if_neg (by omega), if_pos (by omega), hbank, hindex]

theorem sees_word (F : Fpga) {point i : Nat} (hp : point < 5) (hi : i < 64) :
    Sees (read32 F (0x100 + point * 0x100 + i * 4)) fun n a => a = F.word n point i := by
  refine (sees_read32 F _).mono ?_
  rintro n a ⟨k, rfl⟩
  exact register_word F hp hi n k

/-! ## What the points are -/

/-- The entry of a point in a sample of snapshot `n`, when `mask` tells the valid points. -/
def Fpga.entry (F : Fpga) (mask n : Nat) (x : String × Nat) : String × Option Point :=
  (x.1, if mask &&& (1 <<< x.2) ≠ 0 then some (decodePoint (F.bank n x.2)) else none)

/-- The points of snapshot `n`: the valid ones decoded from their whole banks, the others
absent. -/
def Fpga.points (F : Fpga) (n : Nat) (names : List String) : List (String × Option Point) :=
  names.zipIdx.map (F.entry (F.mask n) n)

theorem sees_readPoint (F : Fpga) (mask : Nat) {x : String × Nat} (hx : x.2 < 5) :
    Sees (readPoint F mask x) fun n e => e = F.entry mask n x := by
  unfold readPoint Fpga.entry
  refine Sees.ite (fun hset => ?_) fun hclear => ?_
  · have hwords : Sees
        ((List.range 64).mapM fun i => read32 F (0x100 + x.2 * 0x100 + i * 4))
        fun n words => words = F.bank n x.2 :=
      Sees.mapM _ fun i hi => sees_word F hx (List.mem_range.mp hi)
    refine hwords.bind fun words => (sees_pure _).mono ?_
    rintro n e rfl hbank
    rw [hbank, if_pos hset]
  · refine (sees_pure _).mono ?_
    rintro n e rfl
    rw [if_neg hclear]

theorem sees_readPoints (F : Fpga) (mask : Nat) {names : List String} (hlen : names.length = 5) :
    Sees (readPoints F mask names) fun n ps => ps = names.zipIdx.map (F.entry mask n) := by
  refine Sees.mapM _ fun x hx => sees_readPoint F mask ?_
  have hlt := List.snd_lt_of_mem_zipIdx hx
  omega

/-! ## The snapshot between the two sequence reads -/

/-- **One snapshot.** What is read between two equal sequence numbers is one snapshot, whole. -/
theorem readSnapshot_spec (F : Fpga) {names : List String} (hlen : names.length = 5)
    {t t' : Tick} {sequence status mask : Nat} {points : List (String × Option Point)}
    (h : readSnapshot F names t = .ok ((sequence, status, mask, points), t'))
    (hfew : t'.version - t.version < 2 ^ 32) :
    ∃ n, t.version ≤ n ∧ n ≤ t'.version ∧ sequence = F.sequence n ∧ mask = F.mask n ∧
      points = F.points n names := by
  obtain ⟨seq, u, hseq, h⟩ := bind_eq_ok.mp h
  obtain ⟨st, u₁, hst, h⟩ := bind_eq_ok.mp h
  obtain ⟨mk, u₂, hmk, h⟩ := bind_eq_ok.mp h
  obtain ⟨_, u₂', hzero, h⟩ := bind_eq_ok.mp h
  obtain ⟨-, rfl⟩ := raiseIf_eq_ok.mp hzero
  obtain ⟨ps, u₃, hps, h⟩ := bind_eq_ok.mp h
  obtain ⟨again, v, hagain, h⟩ := bind_eq_ok.mp h
  obtain ⟨_, v', hsame, h⟩ := bind_eq_ok.mp h
  obtain ⟨heq, rfl⟩ := raiseIf_eq_ok.mp hsame
  obtain ⟨hres, rfl⟩ := pure_eq_ok.mp h
  cases hres
  obtain ⟨hseq, hle⟩ := read32_eq_ok hseq
  obtain ⟨-, hle₁⟩ := read32_eq_ok hst
  obtain ⟨hmk, hle₂⟩ := read32_eq_ok hmk
  obtain ⟨hle₃, hpoints⟩ := sees_readPoints F mask hlen _ _ _ hps
  obtain ⟨hagain, hle₄⟩ := read32_eq_ok hagain
  -- the second sequence number is the first one, so no snapshot came in between
  have hcount : F.sequence u.version = F.sequence v.version := by
    rw [register_sequence] at hseq hagain
    rw [← hseq, ← hagain]
    exact (not_not.mp heq).symm
  have huv : u.version = v.version := single_version (by omega) (by omega) hcount
  have hu₂ : u₂.version = v.version := by omega
  have hu₃ : u₃.version = v.version := by omega
  rw [hu₂] at hpoints hmk
  refine ⟨v.version, by omega, le_rfl, (not_not.mp heq).symm.trans hagain, hmk, ?_⟩
  rw [hpoints hu₃, hmk]
  rfl

/-! ## The whole capture -/

/-- Time only advances in the checks and in the request that come before. -/
theorem sees_validateProbe (F : Fpga) (expectedFpga : Option Nat) :
    Sees (validateProbe F expectedFpga) fun _ _ => True := by
  unfold validateProbe
  refine (sees_read32 F 0).bind fun magic => (sees_read32 F 4).bind fun abi =>
    (sees_read32 F 8).bind fun points => ?_
  split
  · refine (sees_raiseIf _ _).bind fun _ => (sees_raiseIf _ _).bind fun _ =>
      (sees_read32 F 0x30).bind fun features => (sees_read32 F 0x34).bind fun statistics =>
      (sees_raiseIf _ _).bind fun _ => (sees_pure _).mono ?_
    simp
  · exact sees_throw _ _

theorem sees_awaitSequence (F : Fpga) (priorSeq polls : Nat) :
    Sees (awaitSequence F priorSeq polls) fun _ _ => True := by
  induction polls with
  | zero =>
      refine (sees_read32 F 0x10).bind fun seq => (sees_read32 F 0x14).bind fun status =>
        Sees.ite (fun _ => (sees_pure seq).mono ?_) fun _ => sees_throw _ _
      simp
  | succ polls ih =>
      refine (sees_read32 F 0x10).bind fun seq => (sees_read32 F 0x14).bind fun status =>
        Sees.ite (fun _ => (sees_pure seq).mono ?_) fun _ => ih.mono ?_
      · simp
      · simp

theorem sees_requestSnapshot (F : Fpga) (priorSeq : Nat) (clear : Bool) (polls : Nat) :
    Sees (requestSnapshot F priorSeq clear polls) fun _ _ => True := by
  refine (sees_read32 F 0x14).bind fun busy => (sees_raiseIf _ _).bind fun _ =>
    (sees_write32 F _ _).bind fun _ => (sees_awaitSequence F priorSeq polls).bind fun seq =>
    (sees_raiseIf _ _).mono ?_
  simp

theorem mem_of_lookup {fpga : Nat} {profile : Profile}
    (h : PROFILES.lookup fpga = some profile) : (fpga, profile) ∈ PROFILES := by
  obtain ⟨l₁, l₂, heq, -⟩ := List.lookup_eq_some_iff.mp h
  rw [heq]
  simp

/-- **A capture is never torn.** While fewer than `2 ^ 32` snapshots are published during the
call, the mask and all points of a sample are those of one snapshot, the only one of the call
with the reported sequence number. -/
theorem capture_not_torn (F : Fpga) (request clear : Bool) (polls : Nat)
    (expectedFpga : Option Nat) (t t' : Tick) (s : Sample)
    (h : capture F request clear polls expectedFpga t = .ok (s, t'))
    (hfew : t'.version - t.version < 2 ^ 32) :
    ∃ n, t.version ≤ n ∧ n ≤ t'.version ∧ s.sequence = F.sequence n ∧
      (∀ m, t.version ≤ m → m ≤ t'.version → F.sequence m = s.sequence → m = n) ∧
      s.validMask = F.mask n ∧
      ∃ p ∈ PROFILES, s.fpga = hex010 p.1 ∧ s.points = F.points n p.2.names := by
  obtain ⟨fpga, u, hval, h⟩ := bind_eq_ok.mp h
  have hle := (sees_validateProbe F expectedFpga _ _ _ hval).1
  cases hlookup : PROFILES.lookup fpga with
  | none =>
      rw [hlookup] at h
      exact absurd h throw_ne_ok
  | some profile =>
      have hmem := mem_of_lookup hlookup
      rw [hlookup] at h
      -- the steps of the call, each with the number of snapshots that it sees
      obtain ⟨_, u', hargs, h⟩ := bind_eq_ok.mp h
      obtain ⟨-, rfl⟩ := raiseIf_eq_ok.mp hargs
      obtain ⟨priorSeq, u₁, hprior, h⟩ := bind_eq_ok.mp h
      obtain ⟨_, u₂, hreq, h⟩ := bind_eq_ok.mp h
      obtain ⟨⟨sequence, status, mask, points⟩, v, hsnap, h⟩ := bind_eq_ok.mp h
      obtain ⟨rfl, rfl⟩ := pure_eq_ok.mp h
      have hle₁ := (read32_eq_ok hprior).2
      have hle₂ : u₁.version ≤ u₂.version := by
        refine ((Sees.ite (Q := fun _ _ => True) (fun _ => ?_) fun _ => ?_) _ _ _ hreq).1
        · exact sees_requestSnapshot F priorSeq clear polls
        · exact (sees_pure ()).mono (by simp)
      obtain ⟨n, hn, hn', hseq, hmask, hpoints⟩ :=
        readSnapshot_spec F (names_nodup _ hmem).2 hsnap (by omega)
      refine ⟨n, by omega, hn', hseq, ?_, hmask, (fpga, profile), hmem, rfl, hpoints⟩
      intro m hm hm' hcount
      have hcount' : F.sequence m = F.sequence n := hcount.trans hseq
      -- fewer than `2 ^ 32` snapshots do not repeat a sequence number
      rcases Nat.le_total m n with hmn | hnm
      · exact single_version hmn (by omega) hcount'
      · exact (single_version hnm (by omega) hcount'.symm).symm

/-- A legacy probe that publishes one snapshot just before access number `moment`. -/
def probeAt (moment : Nat) : Fpga where
  published n := { mask := 2, words := fun point i => UInt32.ofNat (n + point + i) }
  start := 0xFFFFFFF0
  gap k := if k = moment then 1 else 0
  other _ offset :=
    if offset = 0 then UInt32.ofNat MAGIC
    else if offset = 4 then UInt32.ofNat ABI
    else if offset = 8 then 5
    else if offset = 0x30 then 3
    else if offset = 0x34 then 28
    else 0

/-- The capture that was requested with access number 7 and published before the next one. -/
theorem capture_not_torn_requested :
    ∃ s t', capture (probeAt 8) true true 10 (some FPGA) ⟨0, 0⟩ = .ok (s, t') ∧
      ∃ n, 0 ≤ n ∧ n ≤ t'.version ∧ s.sequence = (probeAt 8).sequence n ∧
        (∀ m, 0 ≤ m → m ≤ t'.version → (probeAt 8).sequence m = s.sequence → m = n) ∧
        s.validMask = (probeAt 8).mask n ∧
        ∃ p ∈ PROFILES, s.fpga = hex010 p.1 ∧ s.points = (probeAt 8).points n p.2.names := by
  have hrun : (match capture (probeAt 8) true true 10 (some FPGA) ⟨0, 0⟩ with
      | .ok (_, t') => decide (t'.version - 0 < 2 ^ 32)
      | .error _ => false) = true := by decide +kernel
  cases h : capture (probeAt 8) true true 10 (some FPGA) ⟨0, 0⟩ with
  | error e => rw [h] at hrun; cases hrun
  | ok x =>
      rw [h] at hrun
      exact ⟨x.1, x.2, rfl,
        capture_not_torn (probeAt 8) true true 10 (some FPGA) ⟨0, 0⟩ x.2 x.1 h
          (of_decide_eq_true hrun)⟩

/-- A snapshot published between two words of a bank makes the capture fail. -/
example : (match capture (probeAt 20) false false 0 none ⟨0, 0⟩ with
    | .ok _ => none
    | .error e => some e.text)
    = some "Snapshot sequence changed during read; discard torn sample" := by
  decide +kernel

end QcapDemos.Probe

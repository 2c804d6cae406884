import QcapDemos.Probe.Capture

set_option autoImplicit false

/-! # The axis probe: which snapshot a requested capture returns

A requested capture reads the sequence number three times: while it waits for its command to
complete, when the read-out begins, and when it ends. The first read tells whether another
writer's command got in between; the snapshot that is returned is the one the second read sees.
Here the accesses of a capture are numbered from its first one, so that a run can be described
by what is published before which access.
-/

namespace QcapDemos.Probe

open QcapDemos.Lib QcapDemos.Lib.Reader

/-! ## The run of a capture, access by access -/

section Run

variable (F : Fpga) (t : Tick)

/-- How many snapshots are published up to access `k` of a run from `t`. -/
def Fpga.versionAt (k : Nat) : Nat := (t.after F.gap (k + 1)).version

/-- The sequence number that access `k` of a run from `t` finds. -/
def Fpga.sequenceAt (k : Nat) : Nat := F.sequence (F.versionAt t k)

/-- A register outside the snapshot, as access `k` of a run from `t` finds it. -/
def Fpga.otherAt (offset k : Nat) : Nat := (F.other (t.accesses + k) offset).toNat

def Fpga.statusAt (k : Nat) : Nat := F.otherAt t 0x14 k

/-- The sequence number with which a requested capture compares. -/
def Fpga.priorSequence : Nat := F.sequenceAt t 5

/-- `validate_probe` accepts the probe as that of `fpga`. -/
structure Recognised (expectedFpga : Option Nat) (fpga : Nat) (profile : Profile) : Prop where
  abi : (PROFILES.filter fun p => p.2.abi == F.otherAt t 4 1) = [(fpga, profile)]
  magic : F.otherAt t 0 0 = MAGIC
  points : F.otherAt t 8 2 = 5
  expected : ∀ e ∈ expectedFpga, e = fpga
  features : F.otherAt t 0x30 3 = 3
  statistics : F.otherAt t 0x34 4 = 28

/-- The wait that begins with access `k` ends at its poll number `j`. -/
structure EndsAt (priorSeq k j : Nat) : Prop where
  arrived : Arrived priorSeq (F.sequenceAt t (k + 2 * j)) (F.statusAt t (k + 2 * j + 1))
  first : ∀ i < j,
    ¬ Arrived priorSeq (F.sequenceAt t (k + 2 * i)) (F.statusAt t (k + 2 * i + 1))

end Run

/-- How many registers of the banks a capture with this mask reads. -/
def bankReads (mask : Nat) (names : List String) : Nat :=
  (names.zipIdx.map fun x => if mask &&& (1 <<< x.2) ≠ 0 then 64 else 0).sum

theorem sequence_lt (F : Fpga) (n : Nat) : F.sequence n < 2 ^ 32 := Nat.mod_lt _ (by decide)

theorem sequence_succ (F : Fpga) (n : Nat) : F.sequence (n + 1) = (F.sequence n + 1) % 2 ^ 32 := by
  unfold Fpga.sequence
  rw [Nat.mod_add_mod]
  rfl

/-- The next sequence number is another one. -/
theorem sequence_succ_ne (F : Fpga) (n : Nat) : F.sequence (n + 1) ≠ F.sequence n := by
  have hlt := sequence_lt F n
  rw [sequence_succ]
  omega

theorem and_mask (n : Nat) : n &&& 0xFFFFFFFF = n % 2 ^ 32 := Nat.and_two_pow_sub_one_eq_mod n 32

/-! ## What each part of the program does with its accesses -/

section Parts

variable {F : Fpga} {t t' : Tick}

theorem read32_run {offset : Nat} (h : ValidOffset offset) (t : Tick) :
    read32 F offset t
      = .ok (F.register offset (t.after F.gap 1).version t.accesses, t.after F.gap 1) := by
  unfold read32
  rw [bind_run (raiseIf_run (not_not.mpr h) _ t), access_run]

theorem takes_read32 {offset : Nat} (h : ValidOffset offset) :
    Takes F.gap (read32 F offset) 1 := fun t => ⟨_, read32_run h t⟩

/-- Access `k` of a run reads a register outside the snapshot. -/
theorem read32_other {offset : Nat} (h : ValidOffset offset) (hseq : offset ≠ 0x10)
    (hmask : offset ≠ 0x18) (hbank : offset < 0x100) (t : Tick) (k : Nat) :
    read32 F offset (t.after F.gap k) = .ok (F.otherAt t offset k, t.after F.gap (k + 1)) := by
  rw [read32_run h, Tick.after_add, Tick.accesses_after]
  unfold Fpga.register
  rw [if_neg hseq, if_neg hmask, if_neg (by omega)]
  rfl

/-- Access `k` of a run reads the sequence number. -/
theorem read32_sequence (t : Tick) (k : Nat) :
    read32 F 0x10 (t.after F.gap k) = .ok (F.sequenceAt t k, t.after F.gap (k + 1)) := by
  rw [read32_run (by decide), register_sequence, Tick.after_add]
  unfold Fpga.sequenceAt Fpga.versionAt
  rw [Tick.after_add]

theorem read32_mask (t : Tick) (k : Nat) :
    read32 F 0x18 (t.after F.gap k) = .ok (F.mask (F.versionAt t k), t.after F.gap (k + 1)) := by
  rw [read32_run (by decide), register_mask, Tick.after_add]
  unfold Fpga.versionAt
  rw [Tick.after_add]

theorem write32_run {value : Nat} (h : value ∈ [1, 3]) (t : Tick) (k : Nat) :
    write32 F 0xC value (t.after F.gap k) = .ok ((), t.after F.gap (k + 1)) := by
  have hc : ¬ ((0xC : Nat) ≠ 0xC ∨ value ∉ [1, 3]) := by
    rintro (h' | h')
    · exact h' rfl
    · exact h' h
  unfold write32
  rw [bind_run (raiseIf_run hc _ _), access_run, Tick.after_add]

/-- A read of a register outside the snapshot at the beginning of a program. -/
theorem bind_other {α : Type} {offset : Nat} (f : Nat → Access α) (k : Nat)
    (h : ValidOffset offset ∧ offset ≠ 0x10 ∧ offset ≠ 0x18 ∧ offset < 0x100) :
    (read32 F offset >>= f) (t.after F.gap k)
      = f (F.otherAt t offset k) (t.after F.gap (k + 1)) :=
  bind_run (read32_other h.1 h.2.1 h.2.2.1 h.2.2.2 t k)

theorem bind_sequence {α : Type} (f : Nat → Access α) (k : Nat) :
    (read32 F 0x10 >>= f) (t.after F.gap k) = f (F.sequenceAt t k) (t.after F.gap (k + 1)) :=
  bind_run (read32_sequence t k)

theorem validateProbe_eq_ok {expectedFpga : Option Nat} {fpga : Nat} :
    validateProbe F expectedFpga t = .ok (fpga, t') ↔
      (∃ profile, Recognised F t expectedFpga fpga profile) ∧ t' = t.after F.gap 5 := by
  change validateProbe F expectedFpga (t.after F.gap 0) = _ ↔ _
  unfold validateProbe
  rw [bind_other _ _ (by decide), bind_other _ _ (by decide), bind_other _ _ (by decide)]
  constructor
  · -- each check that does not raise is a fact about the register it reads
    intro h
    rcases hmatch : PROFILES.filter fun p => p.2.abi == F.otherAt t 4 1 with
      _ | ⟨⟨fpga', profile⟩, _ | ⟨q, rest⟩⟩
    · rw [hmatch] at h
      exact absurd h throw_ne_ok
    · rw [hmatch] at h
      obtain ⟨_, u, hcheck, h⟩ := bind_eq_ok.mp h
      obtain ⟨hmagic, rfl⟩ := raiseIf_eq_ok.mp hcheck
      obtain ⟨_, u, hcheck, h⟩ := bind_eq_ok.mp h
      obtain ⟨hexpected, rfl⟩ := raiseIf_eq_ok.mp hcheck
      rw [bind_other _ _ (by decide), bind_other _ _ (by decide)] at h
      obtain ⟨_, u, hcheck, h⟩ := bind_eq_ok.mp h
      obtain ⟨hfeatures, rfl⟩ := raiseIf_eq_ok.mp hcheck
      obtain ⟨rfl, rfl⟩ := pure_eq_ok.mp h
      rw [not_or, not_not, not_not] at hmagic
      rw [not_not, Prod.mk.injEq] at hfeatures
      refine ⟨⟨profile, hmatch, hmagic.1, hmagic.2, ?_, hfeatures.1, hfeatures.2⟩, rfl⟩
      intro e he
      by_contra hne
      exact hexpected ⟨e, he, hne⟩
    · rw [hmatch] at h
      exact absurd h throw_ne_ok
  · rintro ⟨⟨profile, hr⟩, rfl⟩
    -- none of the checks raises
    have hmagic : ¬ (F.otherAt t 0 0 ≠ MAGIC ∨ F.otherAt t 8 2 ≠ 5) := by
      rw [not_or, not_not, not_not]
      exact ⟨hr.magic, hr.points⟩
    have hexpected : ¬ ∃ e ∈ expectedFpga, e ≠ fpga := by
      rintro ⟨e, he, hne⟩
      exact hne (hr.expected e he)
    have hfeatures : ¬ (F.otherAt t 0x30 3, F.otherAt t 0x34 4) ≠ (3, 28) := by
      rw [not_not, Prod.mk.injEq]
      exact ⟨hr.features, hr.statistics⟩
    rw [hr.abi]
    show (raiseIf _ _ >>= _) _ = _
    rw [bind_run (raiseIf_run hmagic _ _), bind_run (raiseIf_run hexpected _ _),
      bind_other _ _ (by decide), bind_other _ _ (by decide),
      bind_run (raiseIf_run hfeatures _ _)]
    rfl

theorem poll_succ (k j : Nat) : k + 2 * (j + 1) = k + 1 + 1 + 2 * j := by omega

/-- A wait that its first poll does not end. -/
theorem EndsAt.later {priorSeq k j : Nat}
    (h : ¬ Arrived priorSeq (F.sequenceAt t k) (F.statusAt t (k + 1)))
    (hends : EndsAt F t priorSeq (k + 1 + 1) j) : EndsAt F t priorSeq k (j + 1) := by
  refine ⟨by rw [poll_succ]; exact hends.arrived, ?_⟩
  intro i hi
  cases i with
  | zero => exact h
  | succ i =>
      rw [poll_succ]
      exact hends.first i (by omega)

theorem EndsAt.earlier {priorSeq k j : Nat} (hends : EndsAt F t priorSeq k (j + 1)) :
    EndsAt F t priorSeq (k + 1 + 1) j := by
  refine ⟨by rw [← poll_succ]; exact hends.arrived, ?_⟩
  intro i hi
  rw [← poll_succ]
  exact hends.first (i + 1) (by omega)

/-- The wait from access `k` on succeeds with the sequence number of the poll that ends it. -/
theorem awaitSequence_eq_ok {priorSeq polls seq k : Nat} :
    awaitSequence F priorSeq polls (t.after F.gap k) = .ok (seq, t') ↔
      ∃ j ≤ polls, EndsAt F t priorSeq k j ∧ seq = F.sequenceAt t (k + 2 * j) ∧
        t' = t.after F.gap (k + 2 * j + 2) := by
  induction polls generalizing k with
  | zero =>
      unfold awaitSequence
      rw [bind_sequence, bind_other _ _ (by decide)]
      constructor
      · intro h
        by_cases harr : Arrived priorSeq (F.sequenceAt t k) (F.otherAt t 0x14 (k + 1))
        · rw [if_pos harr] at h
          obtain ⟨rfl, rfl⟩ := pure_eq_ok.mp h
          exact ⟨0, le_rfl, ⟨harr, fun i hi => absurd hi (Nat.not_lt_zero i)⟩, rfl, rfl⟩
        · rw [if_neg harr] at h
          exact absurd h throw_ne_ok
      · rintro ⟨j, hj, hends, rfl, rfl⟩
        obtain rfl : j = 0 := by omega
        have harr : Arrived priorSeq (F.sequenceAt t k) (F.otherAt t 0x14 (k + 1)) :=
          hends.arrived
        rw [if_pos harr]
        rfl
  | succ polls ih =>
      unfold awaitSequence
      rw [bind_sequence, bind_other _ _ (by decide)]
      by_cases harr : Arrived priorSeq (F.sequenceAt t k) (F.otherAt t 0x14 (k + 1))
      · rw [if_pos harr, pure_eq_ok]
        constructor
        · rintro ⟨rfl, rfl⟩
          exact ⟨0, by omega, ⟨harr, fun i hi => absurd hi (Nat.not_lt_zero i)⟩, rfl, rfl⟩
        · rintro ⟨j, -, hends, rfl, rfl⟩
          -- the first poll already ends the wait
          obtain rfl : j = 0 := by
            by_contra hne
            exact hends.first 0 (by omega) harr
          exact ⟨rfl, rfl⟩
      · -- the wait goes on, with its polls counted from the next one
        rw [if_neg harr, ih]
        constructor
        · rintro ⟨j, hj, hends, rfl, rfl⟩
          exact ⟨j + 1, by omega, hends.later harr, by rw [poll_succ], by rw [poll_succ]⟩
        · rintro ⟨j, hj, hends, rfl, rfl⟩
          obtain ⟨i, rfl⟩ : ∃ i, j = i + 1 := by
            refine Nat.exists_eq_succ_of_ne_zero ?_
            rintro rfl
            exact harr hends.arrived
          exact ⟨i, by omega, hends.earlier, by rw [poll_succ], by rw [poll_succ]⟩

/-- A request succeeds with the wait that its own snapshot ends. -/
theorem requestSnapshot_eq_ok {priorSeq polls k : Nat} {clear : Bool} {u : Unit} :
    requestSnapshot F priorSeq clear polls (t.after F.gap k) = .ok (u, t') ↔
      F.statusAt t k &&& 1 = 0 ∧ ∃ j ≤ polls, EndsAt F t priorSeq (k + 2) j ∧
        F.sequenceAt t (k + 2 + 2 * j) = (priorSeq + 1) % 2 ^ 32 ∧
        t' = t.after F.gap (k + 2 + 2 * j + 2) := by
  unfold requestSnapshot
  rw [bind_other _ _ (by decide)]
  constructor
  · intro h
    obtain ⟨_, v, hcheck, h⟩ := bind_eq_ok.mp h
    obtain ⟨hidle, rfl⟩ := raiseIf_eq_ok.mp hcheck
    rw [bind_run (write32_run (by cases clear <;> decide) t (k + 1))] at h
    obtain ⟨seq, v, hwait, h⟩ := bind_eq_ok.mp h
    obtain ⟨j, hj, hends, rfl, rfl⟩ := awaitSequence_eq_ok.mp hwait
    obtain ⟨hseq, rfl⟩ := raiseIf_eq_ok.mp h
    rw [not_not, and_mask] at hseq
    exact ⟨not_not.mp hidle, j, hj, hends, hseq, rfl⟩
  · rintro ⟨hidle, j, hj, hends, hseq, rfl⟩
    have hwait := awaitSequence_eq_ok.mpr ⟨j, hj, hends, rfl, rfl⟩
    have hsame : ¬ F.sequenceAt t (k + 2 + 2 * j) ≠ (priorSeq + 1) &&& 0xFFFFFFFF := by
      rw [not_not, and_mask]
      exact hseq
    have hfree : ¬ F.otherAt t 0x14 k &&& 1 ≠ 0 := not_not.mpr hidle
    show (raiseIf _ _ >>= _) _ = _
    rw [bind_run (raiseIf_run hfree _ _),
      bind_run (write32_run (by cases clear <;> decide) t (k + 1)), bind_run hwait]
    exact raiseIf_run hsame _ _

theorem takes_readPoint (mask : Nat) {x : String × Nat} (hx : x.2 < 5) :
    Takes F.gap (readPoint F mask x) (if mask &&& (1 <<< x.2) ≠ 0 then 64 else 0) := by
  unfold readPoint
  by_cases hset : mask &&& (1 <<< x.2) ≠ 0
  · rw [if_pos hset, if_pos hset]
    have hwords : Takes F.gap
        ((List.range 64).mapM fun i => read32 F (0x100 + x.2 * 0x100 + i * 4))
        ((List.range 64).map fun _ => 1).sum := by
      refine Takes.mapM _ fun i hi => takes_read32 ⟨by omega, ?_⟩
      have hlt := List.mem_range.mp hi
      omega
    exact hwords.bind fun words => takes_pure _
  · rw [if_neg hset, if_neg hset]
    exact takes_pure _

theorem takes_readPoints (mask : Nat) {names : List String} (hlen : names.length = 5) :
    Takes F.gap (readPoints F mask names) (bankReads mask names) := by
  refine Takes.mapM _ fun x hx => takes_readPoint mask ?_
  have hlt := List.snd_lt_of_mem_zipIdx hx
  omega

/-- A read-out from access `k` on succeeds where its first sequence number is not 0 and is
still there when all banks are read. -/
theorem readSnapshot_eq_ok {names : List String} (hlen : names.length = 5) {k q : Nat} :
    (∃ r, readSnapshot F names (t.after F.gap k) = .ok (r, t') ∧ r.1 = q) ↔
      q = F.sequenceAt t k ∧ q ≠ 0 ∧
        F.sequenceAt t (k + 3 + bankReads (F.mask (F.versionAt t (k + 2))) names) = q ∧
        t' = t.after F.gap (k + 4 + bankReads (F.mask (F.versionAt t (k + 2))) names) := by
  set mask := F.mask (F.versionAt t (k + 2)) with hmask
  unfold readSnapshot
  rw [bind_sequence, bind_other _ _ (by decide), bind_run (read32_mask t (k + 2))]
  obtain ⟨points, hpoints⟩ := takes_readPoints (F := F) mask hlen (t.after F.gap (k + 3))
  rw [← Tick.after_add] at hpoints
  constructor
  · rintro ⟨r, h, rfl⟩
    obtain ⟨_, v, hcheck, h⟩ := bind_eq_ok.mp h
    obtain ⟨hzero, rfl⟩ := raiseIf_eq_ok.mp hcheck
    rw [bind_run hpoints, bind_sequence] at h
    obtain ⟨_, v, hcheck, h⟩ := bind_eq_ok.mp h
    obtain ⟨hsame, rfl⟩ := raiseIf_eq_ok.mp hcheck
    obtain ⟨rfl, rfl⟩ := pure_eq_ok.mp h
    refine ⟨rfl, hzero, not_not.mp hsame, ?_⟩
    congr 1
    omega
  · rintro ⟨rfl, hzero, hsame, rfl⟩
    refine ⟨(F.sequenceAt t k, F.statusAt t (k + 1), mask, points), ?_, rfl⟩
    show (raiseIf _ _ >>= _) _ = _
    rw [bind_run (raiseIf_run hzero _ _), bind_run hpoints, bind_sequence,
      bind_run (raiseIf_run (not_not.mpr hsame) _ _), pure_eq_ok]
    refine ⟨rfl, ?_⟩
    congr 1
    omega

end Parts

/-! ## The whole capture -/

/-- The capture that starts at `t` sends its command, and the poll `j` of its wait finds the
snapshot that this command leads to: no other writer's came before. -/
structure Requested (F : Fpga) (t : Tick) (polls : Nat) (expectedFpga : Option Nat) (fpga : Nat)
    (profile : Profile) (j : Nat) : Prop where
  recognised : Recognised F t expectedFpga fpga profile
  idle : F.statusAt t 6 &&& 1 = 0
  inTime : j ≤ polls
  endsAt : EndsAt F t (F.priorSequence t) 8 j
  own : F.sequenceAt t (8 + 2 * j) = (F.priorSequence t + 1) % 2 ^ 32

theorem lookup_of_mem : ∀ p ∈ PROFILES, PROFILES.lookup p.1 = some p.2 := by
  intro p hp
  simp only [PROFILES, List.mem_cons, List.not_mem_nil, or_false] at hp
  rcases hp with rfl | rfl
  · rfl
  · rfl

theorem Recognised.mem {F : Fpga} {t : Tick} {expectedFpga : Option Nat} {fpga : Nat}
    {profile : Profile} (h : Recognised F t expectedFpga fpga profile) :
    (fpga, profile) ∈ PROFILES := by
  have hmem : (fpga, profile) ∈ PROFILES.filter fun p => p.2.abi == F.otherAt t 4 1 := by
    rw [h.abi]
    exact List.mem_singleton_self _
  exact (List.mem_filter.mp hmem).1

theorem Recognised.length_names {F : Fpga} {t : Tick} {expectedFpga : Option Nat} {fpga : Nat}
    {profile : Profile} (h : Recognised F t expectedFpga fpga profile) :
    profile.names.length = 5 := (names_nodup _ h.mem).2

section Whole

variable {F : Fpga} {t t' : Tick} {clear : Bool} {polls : Nat} {expectedFpga : Option Nat}

/-- A requested capture that succeeds is a request followed by a read-out. -/
theorem capture_inv {s : Sample}
    (h : capture F true clear polls expectedFpga t = .ok (s, t')) :
    ∃ fpga profile j r, Requested F t polls expectedFpga fpga profile j ∧
      readSnapshot F profile.names (t.after F.gap (10 + 2 * j)) = .ok (r, t') ∧
      s.sequence = r.1 := by
  obtain ⟨fpga, u, hval, h⟩ := bind_eq_ok.mp h
  obtain ⟨⟨profile, hrec⟩, rfl⟩ := validateProbe_eq_ok.mp hval
  rw [lookup_of_mem _ hrec.mem] at h
  obtain ⟨_, u, hargs, h⟩ := bind_eq_ok.mp h
  obtain ⟨-, rfl⟩ := raiseIf_eq_ok.mp hargs
  rw [bind_sequence] at h
  obtain ⟨_, u, hreq, h⟩ := bind_eq_ok.mp h
  obtain ⟨hidle, j, hj, hends, hown, rfl⟩ := requestSnapshot_eq_ok.mp hreq
  obtain ⟨r, v, hsnap, h⟩ := bind_eq_ok.mp h
  obtain ⟨rfl, rfl⟩ := pure_eq_ok.mp h
  refine ⟨fpga, profile, j, r, ⟨hrec, hidle, hj, hends, hown⟩, ?_, rfl⟩
  rw [← hsnap]
  congr 2
  omega

/-- A request followed by a read-out is a requested capture. -/
theorem capture_run {fpga : Nat} {profile : Profile} {j : Nat}
    {r : Nat × Nat × Nat × List (String × Option Point)}
    (hreq : Requested F t polls expectedFpga fpga profile j)
    (hread : readSnapshot F profile.names (t.after F.gap (10 + 2 * j)) = .ok (r, t'))
    (clear : Bool) :
    ∃ s, capture F true clear polls expectedFpga t = .ok (s, t') ∧ s.fpga = hex010 fpga ∧
      s.sequence = r.1 ∧ s.validMask = r.2.2.1 ∧ s.points = r.2.2.2 := by
  have hval := validateProbe_eq_ok.mpr ⟨⟨profile, hreq.recognised⟩, rfl⟩
  have hargs : ¬ (clear = true ∧ true = false) := fun h => by cases h.2
  have hrequest : requestSnapshot F (F.sequenceAt t 5) clear polls (t.after F.gap (5 + 1))
      = .ok ((), t.after F.gap (10 + 2 * j)) := by
    refine requestSnapshot_eq_ok.mpr
      ⟨hreq.idle, j, hreq.inTime, hreq.endsAt, hreq.own, ?_⟩
    congr 1
    omega
  unfold capture
  rw [bind_run hval, lookup_of_mem _ hreq.recognised.mem]
  show ∃ s, (raiseIf _ _ >>= _) _ = _ ∧ _
  rw [bind_run (raiseIf_run hargs _ _), bind_sequence]
  show ∃ s, (requestSnapshot F _ clear polls >>= _) _ = _ ∧ _
  rw [bind_run hrequest, bind_run hread]
  exact ⟨_, rfl, rfl, rfl, rfl, rfl⟩

end Whole

/-! ## The requested snapshot -/

/-- Between the wait and the read-out the sequence number moves on, and what it moves on to is a
snapshot that stays until the end of the read-out. -/
structure Overtaken (F : Fpga) (t : Tick) (profile : Profile) (j : Nat) : Prop where
  moved : F.sequenceAt t (10 + 2 * j) ≠ F.sequenceAt t (8 + 2 * j)
  published : F.sequenceAt t (10 + 2 * j) ≠ 0
  stays : F.sequenceAt t
      (13 + 2 * j + bankReads (F.mask (F.versionAt t (12 + 2 * j))) profile.names)
    = F.sequenceAt t (10 + 2 * j)

/-- No other writer, and a hardware that completes in time: the one snapshot that is published
once the sequence number was read comes after the command and at the latest before the last
poll, and from then on the capture is over, or has timed out. -/
structure Alone (F : Fpga) (t : Tick) (polls : Nat) (expectedFpga : Option Nat) (moment : Nat) :
    Prop where
  recognised : ∃ fpga profile, Recognised F t expectedFpga fpga profile
  idle : F.statusAt t 6 &&& 1 = 0
  inTime : moment ≤ 2 * polls
  once : ∀ k, 6 ≤ k → F.gap (t.accesses + k) = if k = 8 + moment then 1 else 0
  ended : ∀ k, 8 + moment < k → F.statusAt t k &&& 1 = 0 ∨ F.statusAt t k &&& 2 ≠ 0

/-- The sample is snapshot number `n` of the run, whole. -/
structure IsSnapshot (F : Fpga) (n : Nat) (s : Sample) : Prop where
  sequence : s.sequence = F.sequence n
  validMask : s.validMask = F.mask n
  points : ∃ p ∈ PROFILES, s.fpga = hex010 p.1 ∧ s.points = F.points n p.2.names

/-- What a requested capture owes its caller: never another snapshot than the one after the
prior sequence number, whoever else sends commands, and that snapshot where nobody does. -/
structure ReturnsRequested (F : Fpga) (t : Tick) (clear : Bool) (polls : Nat)
    (expectedFpga : Option Nat) : Prop where
  never_another : ∀ s t', capture F true clear polls expectedFpga t = .ok (s, t') →
    s.sequence = (F.priorSequence t + 1) % 2 ^ 32
  returned : ∀ moment, Alone F t polls expectedFpga moment →
    ∃ s t', capture F true clear polls expectedFpga t = .ok (s, t') ∧
      IsSnapshot F (F.versionAt t 5 + 1) s

/-- The last access of a read-out that follows poll `j`. -/
theorem read_end (F : Fpga) (t : Tick) (j : Nat) (names : List String) :
    10 + 2 * j + 3 + bankReads (F.mask (F.versionAt t (10 + 2 * j + 2))) names
      = 13 + 2 * j + bankReads (F.mask (F.versionAt t (12 + 2 * j))) names := by
  have haccess : 10 + 2 * j + 2 = 12 + 2 * j := by omega
  rw [haccess]
  omega

section Alone

variable {F : Fpga} {t : Tick} {polls : Nat} {expectedFpga : Option Nat} {moment : Nat}

theorem versionAt_succ (F : Fpga) (t : Tick) (k : Nat) :
    F.versionAt t (k + 1) = F.versionAt t k + F.gap (t.accesses + (k + 1)) :=
  Tick.version_after_succ F.gap (k + 1) t

/-- Up to the moment of its publication a capture alone finds the prior version, then the
next one. -/
theorem Alone.versionAt (h : Alone F t polls expectedFpga moment) (k : Nat) (hk : 5 ≤ k) :
    F.versionAt t k = F.versionAt t 5 + if 8 + moment ≤ k then 1 else 0 := by
  induction k, hk using Nat.le_induction with
  | base => rw [if_neg (by omega), Nat.add_zero]
  | succ k hk ih =>
      rw [versionAt_succ, ih, h.once (k + 1) (by omega)]
      by_cases hat : k + 1 = 8 + moment
      · rw [if_neg (by omega), if_pos hat, if_pos (by omega)]
      · rw [if_neg hat]
        by_cases hpast : 8 + moment ≤ k
        · rw [if_pos hpast, if_pos (by omega)]
        · rw [if_neg hpast, if_neg (by omega)]

theorem Alone.before (h : Alone F t polls expectedFpga moment) {k : Nat} (hk : 5 ≤ k)
    (hlt : k < 8 + moment) : F.versionAt t k = F.versionAt t 5 := by
  rw [h.versionAt k hk, if_neg (by omega), Nat.add_zero]

theorem Alone.past (h : Alone F t polls expectedFpga moment) {k : Nat} (hle : 8 + moment ≤ k) :
    F.versionAt t k = F.versionAt t 5 + 1 := by
  rw [h.versionAt k (by omega), if_pos hle]

/-- The wait of a capture alone ends at the first poll after the publication. -/
theorem Alone.requested (h : Alone F t polls expectedFpga moment) :
    ∃ fpga profile, Requested F t polls expectedFpga fpga profile ((moment + 1) / 2) := by
  obtain ⟨fpga, profile, hrec⟩ := h.recognised
  have hinTime := h.inTime
  have hseq : F.sequenceAt t (8 + 2 * ((moment + 1) / 2)) = F.sequence (F.versionAt t 5 + 1) := by
    unfold Fpga.sequenceAt
    rw [h.past (by omega)]
  refine ⟨fpga, profile, hrec, h.idle, by omega, ⟨?_, ?_⟩, ?_⟩
  · rw [hseq]
    exact ⟨sequence_succ_ne F _, h.ended _ (by omega)⟩
  · -- the polls before the publication find the prior sequence number
    intro i hi harr
    apply harr.1
    unfold Fpga.priorSequence Fpga.sequenceAt
    rw [h.before (by omega) (by omega)]
  · rw [hseq, sequence_succ]
    rfl

/-- Overtaken, the capture succeeds with the other snapshot. -/
theorem Requested.another_of_overtaken {fpga : Nat} {profile : Profile} {j : Nat}
    (hreq : Requested F t polls expectedFpga fpga profile j) (hover : Overtaken F t profile j)
    (clear : Bool) :
    ∃ s t', capture F true clear polls expectedFpga t = .ok (s, t') ∧
      s.sequence ≠ (F.priorSequence t + 1) % 2 ^ 32 := by
  have hlen := hreq.recognised.length_names
  obtain ⟨r, hread, hseq⟩ := (readSnapshot_eq_ok hlen).mpr
    ⟨rfl, hover.published, by rw [read_end]; exact hover.stays, rfl⟩
  obtain ⟨s, hs, -, hsequence, -⟩ := capture_run hreq hread clear
  refine ⟨s, _, hs, fun heq => hover.moved ?_⟩
  rw [hreq.own, ← heq, hsequence, hseq]

/-- A capture that no snapshot overtakes returns the one that its wait ended with. -/
theorem sequence_of_not_overtaken {clear : Bool}
    (hover : ∀ fpga profile j, Requested F t polls expectedFpga fpga profile j →
      ¬ Overtaken F t profile j)
    {s : Sample} {t' : Tick} (hs : capture F true clear polls expectedFpga t = .ok (s, t')) :
    s.sequence = (F.priorSequence t + 1) % 2 ^ 32 := by
  obtain ⟨fpga, profile, j, r, hreq, hread, hsequence⟩ := capture_inv hs
  have hlen := hreq.recognised.length_names
  obtain ⟨hseq, hzero, hstays, -⟩ := (readSnapshot_eq_ok hlen).mp ⟨r, hread, rfl⟩
  rw [hsequence, ← hreq.own, hseq]
  -- a read-out that succeeds with another sequence number was overtaken
  by_contra hmoved
  rw [hseq] at hzero hstays
  rw [read_end] at hstays
  exact hover fpga profile j hreq ⟨hmoved, hzero, hstays⟩

/-- Alone, the capture returns its snapshot, unless the sequence number of that one is zero. -/
theorem Alone.returned (halone : Alone F t polls expectedFpga moment)
    (hlast : F.priorSequence t ≠ 2 ^ 32 - 1) (clear : Bool) :
    ∃ s t', capture F true clear polls expectedFpga t = .ok (s, t') ∧
      IsSnapshot F (F.versionAt t 5 + 1) s := by
  obtain ⟨fpga, profile, hreq⟩ := halone.requested
  have hlen := hreq.recognised.length_names
  set j := (moment + 1) / 2 with hj
  have hsequence (k : Nat) (hk : 8 + moment ≤ k) :
      F.sequenceAt t k = F.sequence (F.versionAt t 5 + 1) := by
    unfold Fpga.sequenceAt
    rw [halone.past hk]
  have hnonzero : F.sequenceAt t (10 + 2 * j) ≠ 0 := by
    have hlt := sequence_lt F (F.versionAt t 5)
    have hne : F.sequence (F.versionAt t 5) ≠ 2 ^ 32 - 1 := hlast
    rw [hsequence _ (by omega), sequence_succ]
    omega
  obtain ⟨r, hread, -⟩ := (readSnapshot_eq_ok hlen).mpr
    ⟨rfl, hnonzero, by rw [hsequence _ (by omega), hsequence _ (by omega)], rfl⟩
  obtain ⟨s, hs, hfpga, hseq, hmask, hpoints⟩ := capture_run hreq hread clear
  -- the whole read-out sees the one version
  have hversion (k : Nat) (hk : 9 + moment ≤ k) :
      (t.after F.gap k).version = F.versionAt t 5 + 1 := by
    obtain ⟨i, rfl⟩ : ∃ i, k = i + 1 := ⟨k - 1, by omega⟩
    exact halone.past (by omega)
  have hbegin := hversion (10 + 2 * j) (by omega)
  have hend := hversion (10 + 2 * j + 4
    + bankReads (F.mask (F.versionAt t (10 + 2 * j + 2))) profile.names) (by omega)
  obtain ⟨n, hn, hn', hsequence', hmask', hpoints'⟩ :=
    readSnapshot_spec F hlen hread (by omega)
  obtain rfl : n = F.versionAt t 5 + 1 := by omega
  exact ⟨s, _, hs, hseq.trans hsequence', hmask.trans hmask',
    (fpga, profile), hreq.recognised.mem, hfpga, hpoints.trans hpoints'⟩

/-- A capture does not return the snapshot after the last sequence number, which is the one that
stands for no snapshot. -/
theorem not_returned_of_last {clear : Bool} {s : Sample} {t' : Tick}
    (hs : capture F true clear polls expectedFpga t = .ok (s, t'))
    (hsnap : IsSnapshot F (F.versionAt t 5 + 1) s) : F.priorSequence t ≠ 2 ^ 32 - 1 := by
  intro hlast
  obtain ⟨fpga, profile, j, r, hreq, hread, hsequence⟩ := capture_inv hs
  have hlen := hreq.recognised.length_names
  obtain ⟨-, hzero, -, -⟩ := (readSnapshot_eq_ok hlen).mp ⟨r, hread, rfl⟩
  apply hzero
  rw [← hsequence, hsnap.sequence, sequence_succ]
  show (F.priorSequence t + 1) % 2 ^ 32 = 0
  rw [hlast]
  rfl

end Alone

/-- **A requested capture returns the requested snapshot**, unless another snapshot takes its
place between the wait and the read-out, or the prior sequence number is the last one. -/
theorem returnsRequested_iff (F : Fpga) (t : Tick) (clear : Bool) (polls : Nat)
    (expectedFpga : Option Nat) :
    ReturnsRequested F t clear polls expectedFpga ↔
      (∀ fpga profile j, Requested F t polls expectedFpga fpga profile j →
        ¬ Overtaken F t profile j) ∧
      (∀ moment, Alone F t polls expectedFpga moment → F.priorSequence t ≠ 2 ^ 32 - 1) := by
  constructor
  · intro h
    refine ⟨fun fpga profile j hreq hover => ?_, fun moment halone => ?_⟩
    · obtain ⟨s, t', hs, hne⟩ := hreq.another_of_overtaken hover clear
      exact hne (h.never_another s t' hs)
    · obtain ⟨s, t', hs, hsnap⟩ := h.returned moment halone
      exact not_returned_of_last hs hsnap
  · rintro ⟨hover, hlast⟩
    refine ⟨fun s t' hs => sequence_of_not_overtaken hover hs, fun moment halone => ?_⟩
    exact halone.returned (hlast moment halone) clear

/-- A probe that publishes one snapshot before each access in `moments`. -/
def probeTimes (start : UInt32) (moments : List Nat) : Fpga where
  published n := { mask := 2, words := fun point i => UInt32.ofNat (n + point + i) }
  start := start
  gap k := if k ∈ moments then 1 else 0
  other _ offset := (probeAt 0).other 0 offset

/-- Another writer's snapshot published right after the wait, and a capture alone whose prior
sequence number is the last one. -/
theorem not_returnsRequested :
    ¬ ReturnsRequested (probeTimes 5 [8, 10]) ⟨0, 0⟩ true 10 (some FPGA) ∧
    ¬ ReturnsRequested (probeTimes 0xFFFFFFFF [8]) ⟨0, 0⟩ true 10 (some FPGA) := by
  refine ⟨fun h => ?_, fun h => ?_⟩
  · have hrun : (match capture (probeTimes 5 [8, 10]) true true 10 (some FPGA) ⟨0, 0⟩ with
        | .ok (s, _) => decide (s.sequence = 7)
        | .error _ => false) = true := by decide +kernel
    cases hs : capture (probeTimes 5 [8, 10]) true true 10 (some FPGA) ⟨0, 0⟩ with
    | error e => rw [hs] at hrun; cases hrun
    | ok x =>
        rw [hs] at hrun
        have hseven : x.1.sequence = 7 := of_decide_eq_true hrun
        have hsix := h.never_another x.1 x.2 hs
        rw [hseven] at hsix
        cases hsix
  · have halone : Alone (probeTimes 0xFFFFFFFF [8]) ⟨0, 0⟩ 10 (some FPGA) 0 := by
      refine ⟨⟨FPGA, (PROFILES.head (by decide)).2, by rfl, by decide, by decide, ?_, by decide,
        by decide⟩, by decide, by decide, ?_, ?_⟩
      · intro e he
        exact (Option.some.inj he).symm
      · intro k _
        simp [probeTimes]
      · intro k _
        refine .inl ?_
        simp [Fpga.statusAt, Fpga.otherAt, probeTimes, probeAt]
    obtain ⟨s, t', hs, -⟩ := h.returned 0 halone
    have hrun : (match capture (probeTimes 0xFFFFFFFF [8]) true true 10 (some FPGA) ⟨0, 0⟩ with
        | .ok _ => false
        | .error _ => true) = true := by decide +kernel
    rw [hs] at hrun
    cases hrun

end QcapDemos.Probe

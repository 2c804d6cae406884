import QcapDemos.Lib.Serial

set_option autoImplicit false

/-! # The receiver of `udptest`

The receiver measures the loss, the duplicates and the late arrivals of a stream by the sequence
number at the head of each datagram. It classifies an arrival by its unsigned distance from the one
before, which is never negative: a late arrival counts as a loss of almost `2 ^ 32` numbers, and the
number it carries becomes the one that the next arrival is compared with.
-/

namespace QcapDemos.Tools

open QcapDemos.Lib

/-! ## The loop -/

/-- The counters of the sequence numbers. The 64-bit ones do not wrap in a run, and `prevSeq` only
ever holds a sequence number. -/
structure Accounting where
  lost : Nat := 0
  dup : Nat := 0
  late : Nat := 0
  prevSeq : BitVec 32 := 0
  havePrev : Bool := false
  maxGap : BitVec 32 := 0
deriving DecidableEq

/-- What a sequence number does to the counters. -/
def Accounting.note (s : Accounting) (seq : BitVec 32) : Accounting :=
  let counted :=
    if s.havePrev then
      let delta := seq - s.prevSeq
      -- `delta` is unsigned, so that the last branch is never taken
      if delta = 0 then { s with dup := s.dup + 1 }
      else if delta > 0 then
        { s with
          lost := s.lost + (delta - 1).toNat
          maxGap := if delta - 1 > s.maxGap then delta - 1 else s.maxGap }
      else { s with late := s.late + 1 }
    else s
  -- the reference moves to every arrival, also to one that is behind
  { counted with prevSeq := seq, havePrev := true }

/-- The variables of `run_rx`. -/
structure Rx where
  received : Nat := 0
  bytes : Nat := 0
  accounting : Accounting := {}
deriving DecidableEq

/-- What a turn of the loop meets before the deadline: no datagram within the poll, an interrupted
or a failed `recvfrom`, or a datagram. -/
inductive Event where
  | idle
  | interrupted
  | failed
  | datagram (pkt : List UInt8)
deriving DecidableEq

/-- The sequence number in the first four bytes, in little endian. -/
def seqOf (pkt : List UInt8) : BitVec 32 :=
  (pkt.take 4).foldr (fun byte seq => seq <<< 8 ||| BitVec.ofNat 32 byte.toNat) 0

/-- The loop of `run_rx`, up to the deadline. -/
def runRx : List Event → Rx → Rx
  | [], s => s
  | .idle :: es, s => runRx es s
  | .interrupted :: es, s => runRx es s
  | .failed :: _, s => s
  | .datagram pkt :: es, s =>
      if pkt.length < 12 then runRx es s
      else runRx es
        { received := s.received + 1
          bytes := s.bytes + pkt.length
          accounting := s.accounting.note (seqOf pkt) }

/-- The sequence numbers that arrive. -/
def accepted : List Event → List (BitVec 32)
  | [] => []
  | .idle :: es => accepted es
  | .interrupted :: es => accepted es
  | .failed :: _ => []
  | .datagram pkt :: es => if pkt.length < 12 then accepted es else seqOf pkt :: accepted es

theorem accounting_runRx (es : List Event) (s : Rx) :
    (runRx es s).accounting = (accepted es).foldl Accounting.note s.accounting := by
  fun_induction runRx es s with
  | case1 => rfl
  | case2 es s ih => exact ih
  | case3 es s ih => exact ih
  | case4 => rfl
  | case5 pkt es s hshort ih => rw [accepted, if_pos hshort, ih]
  | case6 pkt es s hlong ih => rw [accepted, if_neg hlong, List.foldl_cons, ih]

/-! ## The account of a stream -/

/-- The arrivals of a stream, numbered before the numbers go round: `first`, and then `rest`, each
less than `2 ^ 31` away from the highest number before it. -/
structure Arrivals where
  first : Nat
  rest : List Nat
  near : InReach (2 ^ 31) first rest

/-- The arrivals are accounted for: what is counted as lost is missing, what is not beyond the
highest number is counted as late or as a duplicate, and the largest gap is a run of missing
numbers. -/
structure Accounted (arr : Arrivals) (s : Accounting) : Prop where
  lost : s.lost = (missing arr.first arr.rest).card
  behind : s.late + s.dup = notBeyond arr.first arr.rest
  gap : ∃ n, ∀ k < s.maxGap.toNat, n + k ∈ missing arr.first arr.rest

def Arrivals.numbers (arr : Arrivals) : List Nat := arr.first :: arr.rest

/-! ## One arrival -/

section Note

variable {s : Accounting} {seq : BitVec 32}

theorem note_dup (hprev : s.havePrev = true) (h : seq = s.prevSeq) :
    s.note seq = { s with dup := s.dup + 1 } := by
  subst h
  rw [Accounting.note, hprev]
  simp

/-- Any other arrival counts as one ahead. -/
theorem note_ahead (hprev : s.havePrev = true) (h : seq ≠ s.prevSeq) :
    s.note seq =
      { s with
        lost := s.lost + (seq - s.prevSeq - 1).toNat
        maxGap := if seq - s.prevSeq - 1 > s.maxGap then seq - s.prevSeq - 1 else s.maxGap
        prevSeq := seq } := by
  have hne : ¬ seq - s.prevSeq = 0 := by bv_omega
  have hpos : seq - s.prevSeq > 0 := by bv_omega
  unfold Accounting.note
  simp only [hprev, if_true, if_neg hne, if_pos hpos]

end Note

/-! ## Whole streams -/

/-- What the counters know of the arrivals so far. -/
structure Tracks (first : Nat) (rest : List Nat) (s : Accounting) : Prop where
  havePrev : s.havePrev = true
  prev : ∃ p ∈ first :: rest, s.prevSeq = BitVec.ofNat 32 p ∧ highest first rest < p + 2 ^ 31 ∧
    ((first :: rest).Pairwise (· ≤ ·) → p = highest first rest)
  late : s.late = 0
  dup_le : s.dup ≤ notBeyond first rest
  ordered : s.dup = notBeyond first rest ↔ (first :: rest).Pairwise (· ≤ ·)
  lost : (first :: rest).Pairwise (· ≤ ·) →
    s.lost + (first :: rest).toFinset.card = highest first rest + 1 - first
  gap : (first :: rest).Pairwise (· ≤ ·) →
    ∃ n, ∀ k < s.maxGap.toNat, n + k ∈ missing first rest

theorem tracks_first (first : Nat) :
    Tracks first [] (Accounting.note {} (BitVec.ofNat 32 first)) :=
  { havePrev := rfl
    prev := ⟨first, List.mem_singleton_self first, rfl, by simp, fun _ => rfl⟩
    late := rfl
    dup_le := le_rfl
    ordered := ⟨fun _ => List.pairwise_singleton _ _, fun _ => rfl⟩
    lost := fun _ => by simp [Accounting.note]
    gap := fun _ => ⟨0, fun k hk => absurd hk (Nat.not_lt_zero k)⟩ }

section Step

variable {first a : Nat} {rest : List Nat} {s : Accounting}

/-- The number that came last comes again. -/
theorem Tracks.step_dup (h : Tracks first rest s) (hmem : a ∈ first :: rest)
    (hprev : s.prevSeq = BitVec.ofNat 32 a) (hnear : highest first rest < a + 2 ^ 31)
    (hlast : (first :: rest).Pairwise (· ≤ ·) → a = highest first rest) :
    Tracks first (rest ++ [a]) { s with dup := s.dup + 1 } := by
  -- neither the set of the arrivals nor the highest number changes
  have hle := le_highest hmem
  have hhigh : highest first (rest ++ [a]) = highest first rest := by
    rw [highest_snoc, Nat.max_eq_left hle]
  have hcount : notBeyond first (rest ++ [a]) = notBeyond first rest + 1 := by
    rw [notBeyond_snoc, if_pos hle]
  have horder : (first :: (rest ++ [a])).Pairwise (· ≤ ·) ↔ (first :: rest).Pairwise (· ≤ ·) := by
    rw [pairwise_snoc]
    exact ⟨And.left, fun hpairs => ⟨hpairs, (hlast hpairs).ge⟩⟩
  have hset : (first :: (rest ++ [a])).toFinset = (first :: rest).toFinset := by
    rw [toFinset_snoc, Finset.insert_eq_of_mem (List.mem_toFinset.mpr hmem)]
  refine
    { havePrev := h.havePrev
      prev := ⟨a, ?_, hprev, by rw [hhigh]; exact hnear, ?_⟩
      late := h.late
      dup_le := ?_
      ordered := ?_
      lost := ?_
      gap := ?_ }
  · rw [← List.cons_append]
    exact List.mem_append_left [a] hmem
  · rw [horder, hhigh]
    exact hlast
  · rw [hcount]
    exact Nat.succ_le_succ h.dup_le
  · rw [hcount, horder, ← h.ordered]
    exact Nat.succ_inj
  · rw [horder, hset, hhigh]
    exact h.lost
  · rw [horder, missing, hset, hhigh]
    exact h.gap

/-- The distance from the number that came last, less one. -/
theorem toNat_gap {p : Nat} (hlt : p < a) (hnear : a < p + 2 ^ 32) :
    (BitVec.ofNat 32 a - BitVec.ofNat 32 p - 1).toNat = a - p - 1 := by
  have hdelta := toNat_sub_of_near (w := 32) hlt.le hnear
  bv_omega

/-- The largest gap is still a run of missing numbers after an arrival beyond the highest number. -/
theorem gap_ahead {maxGap : BitVec 32} (hlt : highest first rest < a)
    (hnear : a < highest first rest + 2 ^ 32)
    (hgap : ∃ n, ∀ k < maxGap.toNat, n + k ∈ missing first rest) :
    let gap := BitVec.ofNat 32 a - BitVec.ofNat 32 (highest first rest) - 1
    ∃ n, ∀ k < (if gap > maxGap then gap else maxGap).toNat,
      n + k ∈ missing first (rest ++ [a]) := by
  intro gap
  by_cases hnew : gap > maxGap
  · -- the numbers that the arrival leaves out are above all arrivals of before
    have hfirst : first ≤ highest first rest := le_highest List.mem_cons_self
    refine ⟨highest first rest + 1, fun k hk => ?_⟩
    rw [if_pos hnew, toNat_gap hlt hnear] at hk
    exact (mem_missing_snoc hlt).mpr ⟨by omega, by omega, not_mem_of_highest_lt (by omega)⟩
  · -- the numbers of the old gap are still missing
    obtain ⟨n, hn⟩ := hgap
    refine ⟨n, fun k hk => ?_⟩
    rw [if_neg hnew] at hk
    obtain ⟨⟨hfirst, hle⟩, hnot⟩ := mem_missing.mp (hn k hk)
    exact (mem_missing_snoc hlt).mpr ⟨hfirst, by omega, hnot⟩

/-- Another number comes than the one that came last. -/
theorem Tracks.step_ahead {p : Nat} (h : Tracks first rest s) (hmem : p ∈ first :: rest)
    (hprev : s.prevSeq = BitVec.ofNat 32 p) (hne : a ≠ p)
    (hlast : (first :: rest).Pairwise (· ≤ ·) → p = highest first rest)
    (hnear : a < highest first rest + 2 ^ 31 ∧ highest first rest < a + 2 ^ 31)
    (hseq : BitVec.ofNat 32 a ≠ s.prevSeq) :
    Tracks first (rest ++ [a]) (s.note (BitVec.ofNat 32 a)) := by
  have hp := le_highest hmem
  have hfirst : first ≤ highest first rest := le_highest List.mem_cons_self
  -- an order that goes on goes on beyond the highest number
  have hbeyond (hpairs : (first :: (rest ++ [a])).Pairwise (· ≤ ·)) :
      (first :: rest).Pairwise (· ≤ ·) ∧ p = highest first rest ∧ p < a := by
    obtain ⟨hrest, hle⟩ := pairwise_snoc.mp hpairs
    have hlast := hlast hrest
    exact ⟨hrest, hlast, by omega⟩
  rw [note_ahead h.havePrev hseq, hprev]
  refine
    { havePrev := h.havePrev
      prev := ⟨a, ?_, rfl, ?_, ?_⟩
      late := h.late
      dup_le := ?_
      ordered := ?_
      lost := fun hpairs => ?_
      gap := fun hpairs => ?_ }
  · rw [← List.cons_append]
    exact List.mem_append_right _ (List.mem_singleton_self a)
  · rw [highest_snoc]
    omega
  · intro hpairs
    have hle := (pairwise_snoc.mp hpairs).2
    rw [highest_snoc, Nat.max_eq_right hle]
  · rw [notBeyond_snoc]
    exact h.dup_le.trans (Nat.le_add_right _ _)
  · rw [notBeyond_snoc, pairwise_snoc, ← h.ordered]
    have hdup := h.dup_le
    by_cases hle : a ≤ highest first rest
    · rw [if_pos hle]
      -- an arrival behind the highest number counts neither as late nor as a duplicate
      constructor
      · intro heq
        have hdup' : s.dup = notBeyond first rest + 1 := heq
        omega
      · rintro ⟨heq, hge⟩
        have hlast := hlast (h.ordered.mp heq)
        omega
    · rw [if_neg hle]
      exact ⟨fun heq => ⟨heq, by omega⟩, fun hpair => hpair.1⟩
  · obtain ⟨hrest, rfl, hlt⟩ := hbeyond hpairs
    have hnew : a ∉ (first :: rest).toFinset := by
      rw [List.mem_toFinset]
      exact not_mem_of_highest_lt hlt
    have hlost := h.lost hrest
    rw [toNat_gap hlt (by omega), toFinset_snoc, Finset.card_insert_of_notMem hnew, highest_snoc,
      Nat.max_eq_right hlt.le]
    show s.lost + (a - highest first rest - 1) + _ = _
    omega
  · obtain ⟨hrest, rfl, hlt⟩ := hbeyond hpairs
    exact gap_ahead hlt (by omega) (h.gap hrest)

/-- What one arrival keeps. -/
theorem Tracks.step (h : Tracks first rest s)
    (hnear : a < highest first rest + 2 ^ 31 ∧ highest first rest < a + 2 ^ 31) :
    Tracks first (rest ++ [a]) (s.note (BitVec.ofNat 32 a)) := by
  obtain ⟨p, hmem, hprev, hclose, hlast⟩ := h.prev
  have hp := le_highest hmem
  have hinj := ofNat_inj_of_near (w := 32) (a := a) (b := p) (by omega) (by omega)
  by_cases hap : a = p
  · subst hap
    rw [note_dup h.havePrev hprev.symm]
    exact h.step_dup hmem hprev hclose hlast
  · refine h.step_ahead hmem hprev hap hlast hnear ?_
    rw [hprev]
    exact fun heq => hap (hinj.mp heq)

end Step

/-- The receiver, one arrival after the other. -/
def receiver : Machine Accounting Nat Unit where
  step s a := (s.note (BitVec.ofNat 32 a), ())

theorem tracks_run (arr : Arrivals) :
    Tracks arr.first arr.rest
      (receiver.run (Accounting.note {} (BitVec.ofNat 32 arr.first)) arr.rest) :=
  receiver.history_inv _ _ (fun rest s => Tracks arr.first rest s) (tracks_first arr.first)
    (fun _ _ htracks hnear => htracks.step hnear) arr.rest arr.near

/-- **The arrivals are accounted for exactly if they come in order**, with repetitions and gaps, but
none behind a higher number. -/
theorem accounted_iff (es : List Event) (arr : Arrivals)
    (hseq : accepted es = arr.numbers.map (BitVec.ofNat 32)) :
    Accounted arr (runRx es {}).accounting ↔ arr.numbers.Pairwise (· ≤ ·) := by
  have hrun : (runRx es {}).accounting
      = receiver.run (Accounting.note {} (BitVec.ofNat 32 arr.first)) arr.rest := by
    rw [accounting_runRx, hseq, Arrivals.numbers, List.map_cons, List.foldl_cons, List.foldl_map]
    rfl
  have htracks := tracks_run arr
  rw [hrun]
  constructor
  · intro h
    have hbehind := h.behind
    rw [htracks.late, Nat.zero_add] at hbehind
    exact htracks.ordered.mp hbehind
  · intro h
    refine ⟨?_, ?_, htracks.gap h⟩
    · have hlost := htracks.lost h
      have hcard := card_missing h
      omega
    · rw [htracks.late, Nat.zero_add]
      exact htracks.ordered.mpr h

/-- A datagram of twelve bytes. -/
def packet (seq : UInt8) : Event := .datagram (seq :: List.replicate 11 0)

def inOrder : Arrivals where
  first := 0
  rest := [2, 2, 3]
  near := by
    rw [InReach, Machine.admissible_iff_getElem]
    decide

theorem accounted_iff_inOrder :
    Accounted inOrder (runRx [packet 0, .idle, packet 2, packet 2, packet 3] {}).accounting ↔
      inOrder.numbers.Pairwise (· ≤ ·) :=
  accounted_iff _ inOrder (by decide +kernel)

def swapped : Arrivals where
  first := 0
  rest := [2, 1]
  near := by
    rw [InReach, Machine.admissible_iff_getElem]
    decide

/-- Two datagrams that arrive the other way round count as a loss of more than four billion. -/
theorem not_accounted :
    ¬ ∀ (es : List Event) (arr : Arrivals), accepted es = arr.numbers.map (BitVec.ofNat 32) →
      Accounted arr (runRx es {}).accounting := by
  intro h
  have hlost := (h [packet 0, packet 2, packet 1] swapped (by decide +kernel)).lost
  have hcounted : (runRx [packet 0, packet 2, packet 1] {}).accounting.lost = 4294967295 := by
    decide +kernel
  have hmissing : (missing swapped.first swapped.rest).card = 0 := by decide +kernel
  omega

end QcapDemos.Tools

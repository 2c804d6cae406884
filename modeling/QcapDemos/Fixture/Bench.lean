import QcapDemos.Fixture.VdecBench
import QcapDemos.Lib.Run

set_option autoImplicit false

/-! # The decoder benchmark: feeding the decoder

The timer of `VideoDecoderBenchmark` feeds the units of the file to the decoder, each in a packet of
a pool that it goes round, and its decoder event counts the frames that come out. The decoder is a
library. It accepts a packet or not, hands out frames, and keeps a reference to each packet that it
accepted until it is through with it, all of which may happen between any two steps of the timer.
-/

namespace QcapDemos.Fixture.Bench

open QcapDemos.Lib QcapDemos.Lib.Machine

/-! ## State -/

structure Packet where
  data : List UInt8
  key : Bool
  pts : Int
deriving DecidableEq

/-- What the benchmark is run on: the file, its units, `mMaxPackets` and `mBenchTimeoutMs`. -/
structure Config where
  data : List UInt8
  table : NalTable
  maxPackets : Nat
  benchTimeoutMs : Int

/-- `(int)mNalOffsets.size()`, where the count of the loop starts at 0. -/
def Config.nalCount (c : Config) : Nat := (int c.table.offsets.length).toNat

/-- The packet of the unit `k`, with the size as an `int`. -/
def Config.packetAt (c : Config) (k : Nat) : Packet where
  data := (c.data.drop (c.table.offsets.getD k 0)).take (int (c.table.sizes.getD k 0)).toNat
  key := k == 0
  pts := k * 100000

/-- Where the timer callback is. -/
inductive Phase where
  | idle
  | filling
  | pushing
  | checking
deriving DecidableEq

/-- A packet that the decoder has accepted and still refers to: the value of `mPacketPoolNext` that
it was taken from the pool with, and what it contained then. -/
structure Held where
  ticket : Nat
  packet : Packet

/-- `pool` gives the contents by the index in `mPacketPool`. The last two fields belong to the
decoder: what it was given, and what it refers to. -/
structure State where
  phase : Phase
  pool : Nat → Packet
  packetPoolNext : Nat
  pushedCount : Nat
  popCount : Nat
  decodeStartTime : Int
  decodeEndTime : Int
  lastPopTime : Int
  allPushed : Bool
  benchDone : Bool
  accepted : List Packet
  held : List Held

/-- What `Setup` leaves, with the packets as they are allocated. -/
def State.setup : State where
  phase := .idle
  pool _ := { data := [], key := false, pts := 0 }
  packetPoolNext := 0
  pushedCount := 0
  popCount := 0
  decodeStartTime := 0
  decodeEndTime := 0
  lastPopTime := 0
  allPushed := false
  benchDone := false
  accepted := []
  held := []

/-! ## Steps -/

inductive PushResult where
  | success
  | timeout
  | failure
deriving DecidableEq

inductive Label where
  /-- The timer fires, and the calls that wait for it and restart it succeed or not. -/
  | tick (waited restarted : Bool)
  /-- The next packet is filled, if its buffer can be allocated. -/
  | fill (allocated : Bool)
  | push (result : PushResult)
  /-- The timer callback ends, at the time `now`. -/
  | check (now : Int)
  /-- The decoder event takes out a frame, at the time `now`. -/
  | pop (now : Int)
  /-- The decoder is through with a packet. -/
  | release (ticket : Nat)
deriving DecidableEq

variable (c : Config)

/-- The first part of `OnTimer`. -/
def State.tick (s : State) (waited restarted : Bool) : State :=
  if waited && restarted then
    if !s.allPushed && s.pushedCount < c.nalCount then { s with phase := .filling }
    else { s with phase := .checking }
  else s

/-- The loop of `OnTimer` up to the call of the decoder. -/
def State.fill (s : State) (allocated : Bool) : State :=
  if allocated then
    { s with
      phase := .pushing
      pool := Function.update s.pool (s.packetPoolNext % c.maxPackets) (c.packetAt s.pushedCount)
      packetPoolNext := s.packetPoolNext + 1 }
  else { s with phase := .checking, packetPoolNext := s.packetPoolNext + 1 }

/-- The packet that was taken from the pool last. -/
def State.current (s : State) : Held :=
  ⟨s.packetPoolNext - 1, s.pool ((s.packetPoolNext - 1) % c.maxPackets)⟩

/-- The rest of the loop. -/
def State.push (s : State) : PushResult → State
  | .success =>
      let more := s.pushedCount + 1 < c.nalCount
      { s with
        phase := if more then .filling else .checking
        pushedCount := s.pushedCount + 1
        allPushed := if more then s.allPushed else true
        accepted := s.accepted ++ [(s.current c).packet]
        held := s.held ++ [s.current c] }
  | .timeout => { s with phase := .checking, packetPoolNext := s.packetPoolNext - 1 }
  | .failure => { s with phase := .checking }

/-- The end of `OnTimer`. -/
def State.check (s : State) (now : Int) : State :=
  if s.allPushed && decide (0 < s.popCount) && !s.benchDone &&
      decide (c.benchTimeoutMs * 1000 < now - s.lastPopTime) then
    { s with phase := .idle, decodeEndTime := s.lastPopTime, benchDone := true }
  else { s with phase := .idle }

/-- One turn of the loop of `OnVdecEvent`. -/
def State.pop (s : State) (now : Int) : State :=
  { s with
    popCount := s.popCount + 1
    lastPopTime := now
    decodeStartTime := if s.popCount + 1 = 1 then now else s.decodeStartTime }

/-- A step that the phase does not allow does nothing. -/
def State.step (s : State) : Label → State
  | .tick waited restarted => if s.phase = .idle then s.tick c waited restarted else s
  | .fill allocated => if s.phase = .filling then s.fill c allocated else s
  | .push result => if s.phase = .pushing then s.push c result else s
  | .check now => if s.phase = .checking then s.check c now else s
  | .pop now => s.pop now
  | .release ticket => { s with held := s.held.filter fun h => h.ticket ≠ ticket }

def bench : Machine State Label Unit where
  step s e := (s.step c e, ())

/-- The state after the steps. -/
def after (es : List Label) : State := (bench c).run .setup es

/-! ## What the decoder is given -/

/-- The times of the frames so far. -/
def popped (es : List Label) : List Int :=
  es.filterMap fun e =>
    match e with
    | .pop now => some now
    | _ => none

/-- The timer has found the decoder quiet: all units were accepted, and the last frame that had come
out by then, at the end that the benchmark reports, was longer ago than the time set. -/
def Finished (es : List Label) (s : State) : Prop :=
  s.allPushed = true ∧ ∃ before now later, es = before ++ .check now :: later ∧
    (after c before).phase = .checking ∧ (after c before).allPushed = true ∧
    (popped before).getLast? = some s.decodeEndTime ∧
    c.benchTimeoutMs * 1000 < now - s.decodeEndTime

structure Inv (es : List Label) (s : State) : Prop where
  accepted : s.accepted = (List.range s.pushedCount).map c.packetAt
  bounded : s.pushedCount ≤ c.nalCount
  allPushed : s.allPushed = true ↔ s.pushedCount = c.nalCount
  filling : s.phase = .filling → s.pushedCount < c.nalCount
  pushing : s.phase = .pushing → s.pushedCount < c.nalCount ∧
    s.current c = ⟨s.packetPoolNext - 1, c.packetAt s.pushedCount⟩
  popCount : s.popCount = (popped es).length
  startTime : s.decodeStartTime = (popped es).head?.getD 0
  lastTime : s.lastPopTime = (popped es).getLast?.getD 0
  done : s.benchDone = true → Finished c es s

section Steps

variable {c} {es : List Label} {s : State}

theorem popped_snoc (es : List Label) (e : Label) :
    popped (es ++ [e]) = popped es ++ popped [e] := List.filterMap_append

theorem Finished.snoc {s' : State} (h : Finished c es s) (e : Label)
    (hpushed : s'.allPushed = s.allPushed) (htime : s'.decodeEndTime = s.decodeEndTime) :
    Finished c (es ++ [e]) s' := by
  obtain ⟨hall, before, now, later, rfl, hphase, hbefore, hlast, hquiet⟩ := h
  refine ⟨hpushed ▸ hall, before, now, later ++ [e], List.append_assoc _ _ _, hphase, hbefore,
    ?_, ?_⟩
  · rw [htime, hlast]
  · rw [htime]
    exact hquiet

theorem inv_setup (h : 0 < c.nalCount) : Inv c [] .setup where
  accepted := rfl
  bounded := Nat.zero_le _
  allPushed := by
    refine ⟨nofun, fun hzero => ?_⟩
    exact absurd hzero h.ne
  filling := nofun
  pushing := nofun
  popCount := rfl
  startTime := rfl
  lastTime := rfl
  done := nofun

/-- A step that leaves the counters as they are. -/
theorem Inv.keep {s' : State} {e : Label} (h : Inv c es s) (he : popped [e] = [])
    (haccepted : s'.accepted = s.accepted) (hcount : s'.pushedCount = s.pushedCount)
    (hall : s'.allPushed = s.allPushed) (hpop : s'.popCount = s.popCount)
    (hstart : s'.decodeStartTime = s.decodeStartTime) (hlast : s'.lastPopTime = s.lastPopTime)
    (hfilling : s'.phase = .filling → s.pushedCount < c.nalCount)
    (hpushing : s'.phase = .pushing → s.pushedCount < c.nalCount ∧
      s'.current c = ⟨s'.packetPoolNext - 1, c.packetAt s.pushedCount⟩)
    (hdone : s'.benchDone = true → Finished c (es ++ [e]) s') : Inv c (es ++ [e]) s' := by
  have hpopped : popped (es ++ [e]) = popped es := by rw [popped_snoc, he, List.append_nil]
  refine ⟨?_, ?_, ?_, ?_, ?_, ?_, ?_, ?_, hdone⟩
  · rw [haccepted, hcount]
    exact h.accepted
  · rw [hcount]
    exact h.bounded
  · rw [hall, hcount]
    exact h.allPushed
  · rw [hcount]
    exact hfilling
  · rw [hcount]
    exact hpushing
  · rw [hpop, hpopped]
    exact h.popCount
  · rw [hstart, hpopped]
    exact h.startTime
  · rw [hlast, hpopped]
    exact h.lastTime

/-- A step that does nothing. -/
theorem Inv.skip {e : Label} (h : Inv c es s) (he : popped [e] = []) : Inv c (es ++ [e]) s :=
  h.keep he rfl rfl rfl rfl rfl rfl h.filling h.pushing fun hdone => (h.done hdone).snoc e rfl rfl

theorem inv_tick {waited restarted : Bool} (h : Inv c es s) :
    Inv c (es ++ [.tick waited restarted]) (s.tick c waited restarted) := by
  unfold State.tick
  split_ifs with hok hmore
  · simp only [Bool.and_eq_true, decide_eq_true_eq] at hmore
    exact h.keep rfl rfl rfl rfl rfl rfl rfl (fun _ => hmore.2) nofun
      fun hdone => (h.done hdone).snoc _ rfl rfl
  · exact h.keep rfl rfl rfl rfl rfl rfl rfl nofun nofun
      fun hdone => (h.done hdone).snoc _ rfl rfl
  · exact h.skip rfl

theorem inv_fill {allocated : Bool} (h : Inv c es s) (hphase : s.phase = .filling) :
    Inv c (es ++ [.fill allocated]) (s.fill c allocated) := by
  unfold State.fill
  split_ifs with hok
  · refine h.keep rfl rfl rfl rfl rfl rfl rfl nofun (fun _ => ⟨h.filling hphase, ?_⟩)
      fun hdone => (h.done hdone).snoc _ rfl rfl
    simp [State.current]
  · exact h.keep rfl rfl rfl rfl rfl rfl rfl nofun nofun
      fun hdone => (h.done hdone).snoc _ rfl rfl

theorem inv_push {result : PushResult} (h : Inv c es s) (hphase : s.phase = .pushing) :
    Inv c (es ++ [.push result]) (s.push c result) := by
  obtain ⟨hmore, hcurrent⟩ := h.pushing hphase
  cases result with
  | success =>
      have hall : s.allPushed = false := by
        rw [Bool.eq_false_iff, Ne, h.allPushed]
        exact hmore.ne
      have hpopped : popped (es ++ [.push .success]) = popped es := by
        rw [popped_snoc]
        exact List.append_nil _
      have hlast : ¬ s.pushedCount + 1 < c.nalCount ↔ s.pushedCount + 1 = c.nalCount := by omega
      simp only [State.push]
      refine ⟨?_, hmore, ?_, ?_, ?_, ?_, ?_, ?_, ?_⟩
      · show s.accepted ++ [(s.current c).packet] = _
        rw [h.accepted, hcurrent]
        simp [List.range_succ]
      · simp only [hall]
        by_cases hnext : s.pushedCount + 1 < c.nalCount
        · simp [hnext, hnext.ne]
        · simp [hlast.mp hnext]
      · dsimp only
        split_ifs with hnext
        · exact fun _ => hnext
        · nofun
      · dsimp only
        split_ifs with hnext
        · nofun
        · nofun
      · rw [hpopped]
        exact h.popCount
      · rw [hpopped]
        exact h.startTime
      · rw [hpopped]
        exact h.lastTime
      · intro hdone
        exact absurd (h.done hdone).1 (Bool.eq_false_iff.mp hall)
  | timeout =>
      exact h.keep rfl rfl rfl rfl rfl rfl rfl nofun nofun
        fun hdone => (h.done hdone).snoc _ rfl rfl
  | failure =>
      exact h.keep rfl rfl rfl rfl rfl rfl rfl nofun nofun
        fun hdone => (h.done hdone).snoc _ rfl rfl

/-- The benchmark is done at the first check that finds the decoder quiet. -/
theorem inv_check {now : Int} (h : Inv c es (after c es))
    (hphase : (after c es).phase = .checking) :
    Inv c (es ++ [.check now]) ((after c es).check c now) := by
  unfold State.check
  split_ifs with hquiet
  · simp only [Bool.and_eq_true, decide_eq_true_eq] at hquiet
    obtain ⟨⟨⟨hall, hframes⟩, -⟩, hlong⟩ := hquiet
    refine h.keep rfl rfl rfl rfl rfl rfl rfl nofun nofun fun _ =>
      ⟨hall, es, now, [], rfl, hphase, hall, ?_, hlong⟩
    show (popped es).getLast? = some (after c es).lastPopTime
    rw [h.popCount] at hframes
    rw [h.lastTime, List.getLast?_eq_some_getLast (List.ne_nil_of_length_pos hframes)]
    rfl
  · exact h.keep rfl rfl rfl rfl rfl rfl rfl nofun nofun
      fun hdone => (h.done hdone).snoc _ rfl rfl

theorem inv_pop {now : Int} (h : Inv c es s) : Inv c (es ++ [.pop now]) (s.pop now) := by
  have hpopped : popped (es ++ [.pop now]) = popped es ++ [now] := popped_snoc es _
  refine ⟨h.accepted, h.bounded, h.allPushed, h.filling, h.pushing, ?_, ?_, ?_,
    fun hdone => (h.done hdone).snoc _ rfl rfl⟩
  · rw [hpopped, List.length_append]
    exact congrArg (· + 1) h.popCount
  · have hcount := h.popCount
    have hstart := h.startTime
    rw [hpopped]
    cases hpops : popped es with
    | nil =>
        rw [hpops] at hcount
        simp [State.pop, hcount]
    | cons first rest =>
        rw [hpops] at hcount hstart
        simp [State.pop, hcount, hstart]
  · rw [hpopped, List.getLast?_concat]
    rfl

theorem inv_step {e : Label} (h : Inv c es (after c es)) :
    Inv c (es ++ [e]) ((after c es).step c e) := by
  unfold State.step
  cases e with
  | tick waited restarted =>
      dsimp only
      split_ifs with hphase
      · exact inv_tick h
      · exact h.skip rfl
  | fill allocated =>
      dsimp only
      split_ifs with hphase
      · exact inv_fill h hphase
      · exact h.skip rfl
  | push result =>
      dsimp only
      split_ifs with hphase
      · exact inv_push h hphase
      · exact h.skip rfl
  | check now =>
      dsimp only
      split_ifs with hphase
      · exact inv_check h hphase
      · exact h.skip rfl
  | pop now => exact inv_pop h
  | release ticket =>
      exact h.keep rfl rfl rfl rfl rfl rfl rfl h.filling h.pushing
        fun hdone => (h.done hdone).snoc _ rfl rfl

theorem inv_after (hn : 0 < c.nalCount) (es : List Label) : Inv c es (after c es) :=
  history_inv (bench c) .setup (fun _ _ => True) (Inv c) (inv_setup hn)
    (fun _ _ h _ => inv_step h) es fun _ _ _ _ => trivial

end Steps

/-! ## The bytes of the file -/

/-- The number of units and their sizes are values of an `int`. -/
structure Config.FitsInt (c : Config) : Prop where
  count : c.table.offsets.length < 2 ^ 31
  sizes : ∀ size ∈ c.table.sizes, size < 2 ^ 31

/-- The units that `LoadAndParse` leaves cut the file from the first of them on. -/
structure Split (c : Config) : Prop where
  sizes : c.table.sizes = lengths c.data.length c.table.offsets
  sorted : c.table.offsets.Pairwise (· < ·)
  nonempty : c.table.offsets ≠ []

section Bytes

variable {c}

theorem Config.FitsInt.nalCount_eq (h : c.FitsInt) : c.nalCount = c.table.offsets.length := by
  rw [nalCount, int_eq h.count, Int.toNat_natCast]

theorem three_le_of_load {data : List UInt8} {r : Option NalTable}
    (hload : loadAndParse data = some r) : 3 ≤ data.length := by
  by_contra hshort
  rw [loadAndParse, parseLoop_of_short (by omega) 0 (Nat.zero_le _)] at hload
  cases hload

theorem split_of_load (hlt : c.data.length < 2 ^ 64)
    (hload : loadAndParse c.data = some (some c.table)) : Split c := by
  obtain ⟨found, hloop, hspec⟩ := scanLoop_spec c.data 0
  have hconsecutive : Consecutive c.data.length (setEnds c.data.length found) :=
    setEnds_consecutive hspec.ordered fun u hu =>
      ⟨(hspec.of_mem hu).start_lt, (hspec.of_mem hu).payload_lt⟩
  rw [loadAndParse_eq (three_le_of_load hload) hlt hloop] at hload
  by_cases hfound : found = []
  · rw [if_pos hfound] at hload
    cases hload
  · rw [if_neg hfound] at hload
    have htable := (Option.some.inj (Option.some.inj hload)).symm
    have hstarts : (setEnds c.data.length found).map Nal.start = found.map Nal.start := by
      have hfst := congrArg (List.map Prod.fst) (map_setEnds c.data.length found)
      rwa [List.map_map, List.map_map] at hfst
    refine ⟨?_, ?_, ?_⟩
    · rw [htable]
    · rw [htable]
      exact hstarts ▸ hconsecutive.sorted
    · rw [htable]
      exact mt List.map_eq_nil_iff.mp hfound

/-- The packets of all units, as ranges of the file. -/
theorem map_packetAt (h : Split c) (hfits : c.FitsInt) :
    ((List.range c.nalCount).map fun k => (c.packetAt k).data) =
      (cut c.data.length c.table.offsets).map (slice c.data) := by
  have hlen : (cut c.data.length c.table.offsets).length = c.nalCount := by
    have hfst := congrArg List.length (map_fst_cut c.data.length c.table.offsets)
    rw [List.length_map] at hfst
    rw [hfst, hfits.nalCount_eq]
  refine List.ext_getElem (by simp [hlen]) fun k hk hk' => ?_
  have hk' : k < (cut c.data.length c.table.offsets).length := by
    rwa [List.length_map] at hk'
  have hstart : c.table.offsets[k]? = ((cut c.data.length c.table.offsets)[k]?).map Prod.fst := by
    rw [← List.getElem?_map, map_fst_cut]
  have hsize : c.table.sizes[k]? =
      ((cut c.data.length c.table.offsets)[k]?).map fun r => r.2 - r.1 := by
    rw [h.sizes, lengths, List.getElem?_map]
  have hcut : (cut c.data.length c.table.offsets)[k]? =
      some (cut c.data.length c.table.offsets)[k] := List.getElem?_eq_getElem hk'
  rw [hcut] at hstart hsize
  have hint := int_eq (hfits.sizes _ (List.mem_of_getElem? hsize))
  simp only [List.getElem_map, List.getElem_range, Config.packetAt, slice,
    List.getD_eq_getElem?_getD, hstart, hsize, Option.map_some, Option.getD_some, hint,
    Int.toNat_natCast]

/-- The bytes of the first `k` units are the beginning of what the file holds from its first unit
on, and all of it for all units. -/
theorem bytes_range (h : Split c) (hfits : c.FitsInt) {k : Nat} (hk : k ≤ c.nalCount) :
    ∃ first, c.table.offsets.head? = some first ∧
      ((List.range k).map fun i => (c.packetAt i).data).flatten <+: c.data.drop first ∧
      (k = c.nalCount →
        ((List.range k).map fun i => (c.packetAt i).data).flatten = c.data.drop first) := by
  cases hoffsets : c.table.offsets with
  | nil => exact absurd hoffsets h.nonempty
  | cons first rest =>
      have hall : ((List.range c.nalCount).map fun i => (c.packetAt i).data).flatten =
          c.data.drop first := by
        rw [map_packetAt h hfits, hoffsets]
        exact flatten_cut c.data (hoffsets ▸ h.sorted)
      refine ⟨first, rfl, ?_, fun heq => heq ▸ hall⟩
      have htake : List.range k = (List.range c.nalCount).take k := by
        rw [List.take_range, Nat.min_eq_left hk]
      rw [← hall, htake, ← List.take_append_drop k (List.range c.nalCount), List.map_append,
        List.flatten_append, List.take_append_drop]
      exact List.prefix_append _ _

end Bytes

/-- What the benchmark has done after the steps `es`. -/
structure Delivered (es : List Label) (s : State) : Prop where
  packets : s.accepted = (List.range s.pushedCount).map c.packetAt
  bytes : ∃ first, c.table.offsets.head? = some first ∧
    (s.accepted.map Packet.data).flatten <+: c.data.drop first ∧
    (s.allPushed = true → (s.accepted.map Packet.data).flatten = c.data.drop first)
  frames : s.popCount = (popped es).length ∧ s.decodeStartTime = (popped es).head?.getD 0
  done : s.benchDone = true → Finished c es s

/-- **The decoder is given the file.** However the calls of the timer and of the decoder end and
interleave, the packets accepted so far are the first units, each once and in order, and together
the beginning of the file from its first unit on; the benchmark is done only when the decoder has
had all of it and was quiet for the time set. -/
theorem bench_delivers (hlt : c.data.length < 2 ^ 64)
    (hload : loadAndParse c.data = some (some c.table)) (hfits : c.FitsInt) (es : List Label) :
    Delivered c es (after c es) := by
  have hsplit := split_of_load hlt hload
  have hinv := inv_after (hfits.nalCount_eq ▸ List.length_pos_iff.mpr hsplit.nonempty) es
  have hmap : (after c es).accepted.map Packet.data =
      (List.range (after c es).pushedCount).map fun i => (c.packetAt i).data := by
    rw [hinv.accepted, List.map_map]
    rfl
  obtain ⟨first, hfirst, hprefix, hfull⟩ := bytes_range hsplit hfits hinv.bounded
  refine ⟨hinv.accepted, ⟨first, hfirst, ?_, fun hall => ?_⟩, ⟨hinv.popCount, hinv.startTime⟩,
    hinv.done⟩
  · rw [hmap]
    exact hprefix
  · rw [hmap]
    exact hfull (hinv.allPushed.mp hall)

/-- A file of two units. -/
def twoUnits (maxPackets : Nat) : Config where
  data := [0, 0, 1, 9, 0, 0, 0, 1, 5]
  table := { offsets := [0, 4], sizes := [4, 5] }
  maxPackets := maxPackets
  benchTimeoutMs := 3000

theorem load_twoUnits (maxPackets : Nat) :
    loadAndParse (twoUnits maxPackets).data = some (some (twoUnits maxPackets).table) := by
  have hscan : scanLoop [0, 0, 1, 9, 0, 0, 0, 1, 5] 0 = some [⟨0, 3, 0, 9⟩, ⟨4, 8, 0, 5⟩] := by
    decide +kernel
  exact loadAndParse_eq (by decide) (by decide) hscan

theorem bench_delivers_two :
    Delivered (twoUnits 64)
      [.tick true true, .fill true, .push .success, .fill true, .push .timeout, .check 7]
      (after (twoUnits 64)
        [.tick true true, .fill true, .push .success, .fill true, .push .timeout, .check 7]) :=
  bench_delivers (twoUnits 64) (by decide) (load_twoUnits 64) ⟨by decide, by decide⟩ _

/-! ## The pool -/

/-- Every packet that the decoder refers to is as it was when it was accepted. -/
def Intact (s : State) : Prop :=
  ∀ h ∈ s.held, s.pool (h.ticket % c.maxPackets) = h.packet

/-- The number of packets that were taken from the pool and passed on. -/
def State.passed (s : State) : Nat :=
  if s.phase = .pushing then s.packetPoolNext - 1 else s.packetPoolNext

/-- The decoder refers to the packets that were passed on last, and to no earlier ones. -/
structure InOrder (s : State) : Prop where
  tickets : ∃ oldest, s.held.map Held.ticket = List.range' oldest s.held.length ∧
    oldest + s.held.length = s.passed
  pushing : s.phase = .pushing → 0 < s.packetPoolNext

/-- What the decoder refers to are earlier units. -/
def Earlier (s : State) : Prop := ∀ h ∈ s.held, ∃ k < s.pushedCount, h.packet = c.packetAt k

/-- The allocations succeed, the decoder refuses a packet only for now, and it is through with the
packets in the order in which it accepted them. -/
def Orderly (es : List Label) (e : Label) : Prop :=
  e ≠ .fill false ∧ e ≠ .push .failure ∧
    ∀ t, e = .release t → ((after c es).held.map Held.ticket).head? = some t

section Pool

variable {c} {es : List Label} {s : State}

/-- A step that keeps what the decoder refers to and what was passed on. -/
theorem InOrder.keep {s' : State} (h : InOrder s) (hheld : s'.held = s.held)
    (hpassed : s'.passed = s.passed) (hpushing : s'.phase = .pushing → 0 < s'.packetPoolNext) :
    InOrder s' := by
  obtain ⟨oldest, htickets, hsum⟩ := h.tickets
  refine ⟨⟨oldest, ?_, ?_⟩, hpushing⟩
  · rw [hheld]
    exact htickets
  · rw [hheld, hpassed]
    exact hsum

/-- An accepted packet, as far as the pool is concerned. -/
theorem push_success (s : State) : ∃ phase allPushed, phase ≠ .pushing ∧
    s.push c .success =
      { s with
        phase := phase
        pushedCount := s.pushedCount + 1
        allPushed := allPushed
        accepted := s.accepted ++ [(s.current c).packet]
        held := s.held ++ [s.current c] } := by
  refine ⟨_, _, ?_, rfl⟩
  split_ifs with hmore
  · nofun
  · nofun

theorem inOrder_push {result : PushResult} (h : InOrder s) (hphase : s.phase = .pushing)
    (hok : result ≠ .failure) : InOrder (s.push c result) := by
  have hpos := h.pushing hphase
  have hpassed : s.passed = s.packetPoolNext - 1 := if_pos hphase
  cases result with
  | success =>
      obtain ⟨phase, allPushed, hphase', hpush⟩ := push_success (c := c) s
      rw [hpush]
      obtain ⟨oldest, htickets, hsum⟩ := h.tickets
      have hlen : (s.held ++ [s.current c]).length = s.held.length + 1 := List.length_append
      refine ⟨⟨oldest, ?_, ?_⟩, fun hcon => absurd hcon hphase'⟩
      · rw [hlen, List.range'_concat, Nat.one_mul, hsum, hpassed, ← htickets]
        exact List.map_append
      · rw [hlen, State.passed, if_neg hphase']
        show oldest + (s.held.length + 1) = s.packetPoolNext
        omega
  | timeout => exact h.keep rfl (by rw [hpassed]; exact if_neg nofun) nofun
  | failure => exact absurd rfl hok

/-- The oldest packet is the first one. -/
theorem inOrder_release {ticket : Nat} (h : InOrder s)
    (hfirst : (s.held.map Held.ticket).head? = some ticket) :
    InOrder { s with held := s.held.filter fun h => h.ticket ≠ ticket } := by
  obtain ⟨oldest, htickets, hsum⟩ := h.tickets
  cases hheld : s.held with
  | nil =>
      rw [hheld] at hfirst
      cases hfirst
  | cons first rest =>
      rw [hheld] at htickets hfirst hsum
      rw [List.map_cons, List.length_cons, List.range'_succ] at htickets
      obtain ⟨hhead, htail⟩ := List.cons.inj htickets
      have hticket : first.ticket = ticket := Option.some.inj hfirst
      have hrest : (first :: rest).filter (fun h => h.ticket ≠ ticket) = rest := by
        rw [List.filter_cons_of_neg (by simp [hticket]), List.filter_eq_self]
        intro later hlater
        have hmem := List.mem_map_of_mem (f := Held.ticket) hlater
        rw [htail, List.mem_range'_1] at hmem
        exact decide_eq_true (by omega)
      rw [hrest]
      refine ⟨⟨oldest + 1, htail, ?_⟩, h.pushing⟩
      rw [List.length_cons] at hsum
      show oldest + 1 + rest.length = s.passed
      omega

theorem inOrder_step {e : Label} (h : InOrder (after c es)) (hok : Orderly c es e) :
    InOrder ((after c es).step c e) := by
  obtain ⟨hfill, hpush, hrelease⟩ := hok
  generalize after c es = s at h hrelease ⊢
  cases e with
  | tick waited restarted =>
      show InOrder (if s.phase = .idle then s.tick c waited restarted else s)
      unfold State.tick
      split_ifs with hphase
      · exact h.keep rfl (by simp [State.passed, hphase]) nofun
      · exact h.keep rfl (by simp [State.passed, hphase]) nofun
      · exact h
      · exact h
  | fill allocated =>
      show InOrder (if s.phase = .filling then s.fill c allocated else s)
      split_ifs with hphase
      · cases allocated with
        | true =>
            have hpassed : (s.fill c true).passed = s.passed := by
              simp [State.passed, State.fill, hphase]
            exact h.keep rfl hpassed fun _ => Nat.succ_pos _
        | false => exact absurd rfl hfill
      · exact h
  | push result =>
      show InOrder (if s.phase = .pushing then s.push c result else s)
      split_ifs with hphase
      · exact inOrder_push h hphase fun hcon => hpush (congrArg _ hcon)
      · exact h
  | check now =>
      show InOrder (if s.phase = .checking then s.check c now else s)
      unfold State.check
      split_ifs with hphase
      · exact h.keep rfl (by simp [State.passed, hphase]) nofun
      · exact h.keep rfl (by simp [State.passed, hphase]) nofun
      · exact h
  | pop now => exact h.keep rfl rfl h.pushing
  | release ticket => exact inOrder_release h (hrelease ticket rfl)

theorem inOrder_after (es : List Label) (hok : Admissible (Orderly c) es) :
    InOrder (after c es) :=
  history_inv (bench c) .setup (Orderly c) (fun _ => InOrder) ⟨⟨0, rfl, rfl⟩, nofun⟩
    (fun _ _ h hok => inOrder_step h hok) es hok

theorem earlier_step {e : Label} (hinv : Inv c es s) (h : Earlier c s) :
    Earlier c (s.step c e) := by
  cases e with
  | tick waited restarted =>
      show Earlier c (if s.phase = .idle then s.tick c waited restarted else s)
      unfold State.tick
      split_ifs with hphase
      · exact h
      · exact h
      · exact h
      · exact h
  | fill allocated =>
      show Earlier c (if s.phase = .filling then s.fill c allocated else s)
      unfold State.fill
      split_ifs with hphase
      · exact h
      · exact h
      · exact h
  | push result =>
      show Earlier c (if s.phase = .pushing then s.push c result else s)
      split_ifs with hphase
      · cases result with
        | success =>
            have hcurrent := (hinv.pushing hphase).2
            obtain ⟨phase, allPushed, -, hpush⟩ := push_success (c := c) s
            rw [hpush]
            intro held hheld
            rcases List.mem_append.mp hheld with hold | hnew
            · obtain ⟨k, hk, hpacket⟩ := h held hold
              exact ⟨k, Nat.lt_succ_of_lt hk, hpacket⟩
            · obtain rfl := List.mem_singleton.mp hnew
              exact ⟨s.pushedCount, Nat.lt_succ_self _, by rw [hcurrent]⟩
        | timeout => exact h
        | failure => exact h
      · exact h
  | check now =>
      show Earlier c (if s.phase = .checking then s.check c now else s)
      unfold State.check
      split_ifs with hphase
      · exact h
      · exact h
      · exact h
  | pop now => exact h
  | release ticket => exact fun held hheld => h held (List.mem_of_mem_filter hheld)

theorem earlier_after (hn : 0 < c.nalCount) (es : List Label) : Earlier c (after c es) :=
  history_inv (bench c) .setup (fun _ _ => True) (fun _ => Earlier c) (fun _ => nofun)
    (fun es _ h _ => earlier_step (inv_after hn es) h) es fun _ _ _ _ => trivial

/-- Only filling a packet writes to the pool. -/
theorem intact_step {e : Label} (h : Intact c s) (he : e = .fill true → s.phase ≠ .filling) :
    Intact c (s.step c e) := by
  cases e with
  | tick waited restarted =>
      show Intact c (if s.phase = .idle then s.tick c waited restarted else s)
      unfold State.tick
      split_ifs with hphase
      · exact h
      · exact h
      · exact h
      · exact h
  | fill allocated =>
      show Intact c (if s.phase = .filling then s.fill c allocated else s)
      split_ifs with hphase
      · cases allocated with
        | true => exact absurd hphase (he rfl)
        | false => exact h
      · exact h
  | push result =>
      show Intact c (if s.phase = .pushing then s.push c result else s)
      split_ifs with hphase
      · cases result with
        | success =>
            obtain ⟨phase, allPushed, -, hpush⟩ := push_success (c := c) s
            rw [hpush]
            intro held hheld
            rcases List.mem_append.mp hheld with hold | hnew
            · exact h held hold
            · obtain rfl := List.mem_singleton.mp hnew
              rfl
        | timeout => exact h
        | failure => exact h
      · exact h
  | check now =>
      show Intact c (if s.phase = .checking then s.check c now else s)
      unfold State.check
      split_ifs with hphase
      · exact h
      · exact h
      · exact h
  | pop now => exact h
  | release ticket => exact fun held hheld => h held (List.mem_of_mem_filter hheld)

/-- Of consecutive tickets, none has the slot of the next one exactly if they are fewer than the
slots. -/
theorem forall_slot_ne_iff {oldest len next slots : Nat} (hslots : 0 < slots)
    (hnext : oldest + len = next) :
    (∀ t ∈ List.range' oldest len, t % slots ≠ next % slots) ↔ len < slots := by
  constructor
  · intro h
    by_contra hge
    refine h (next - slots) ?_ ?_
    · rw [List.mem_range'_1]
      omega
    · conv_rhs => rw [← Nat.sub_add_cancel (show slots ≤ next by omega), Nat.add_mod_right]
  · intro hlt t ht hmod
    rw [List.mem_range'_1] at ht
    have hdvd := Nat.dvd_of_mod_eq_zero (Nat.sub_mod_eq_zero_of_mod_eq hmod.symm)
    have hzero := Nat.eq_zero_of_dvd_of_lt hdvd (by omega)
    omega

theorem intact_fill_iff (hmax : 0 < c.maxPackets) (horder : InOrder s) (hearlier : Earlier c s)
    (h : Intact c s) (hphase : s.phase = .filling) :
    Intact c (s.fill c true) ↔ s.held.length < c.maxPackets := by
  obtain ⟨oldest, htickets, hsum⟩ := horder.tickets
  rw [State.passed, if_neg (by simp [hphase])] at hsum
  rw [← forall_slot_ne_iff hmax hsum, ← htickets, List.forall_mem_map]
  refine forall₂_congr fun held hheld => ?_
  show Function.update s.pool (s.packetPoolNext % c.maxPackets) (c.packetAt s.pushedCount)
    (held.ticket % c.maxPackets) = held.packet ↔ _
  by_cases hslot : held.ticket % c.maxPackets = s.packetPoolNext % c.maxPackets
  · -- the packet would be taken for an earlier unit, which has another time stamp
    obtain ⟨k, hk, hpacket⟩ := hearlier held hheld
    rw [hslot, Function.update_self, hpacket]
    refine iff_of_false (fun heq => ?_) fun hne => hne rfl
    have hpts := congrArg Packet.pts heq
    simp only [Config.packetAt] at hpts
    omega
  · rw [Function.update_of_ne hslot]
    exact iff_of_true (h held hheld) hslot

/-- One step of an orderly run. -/
theorem intact_snoc_iff (hn : 0 < c.nalCount) (hmax : 0 < c.maxPackets) {e : Label}
    (hok : Admissible (Orderly c) es) (h : Intact c (after c es)) :
    Intact c (after c (es ++ [e])) ↔ (e = .fill true → (after c es).phase = .filling →
      (after c es).held.length < c.maxPackets) := by
  have hstep : after c (es ++ [e]) = (after c es).step c e := run_snoc _ _ _ _
  rw [hstep]
  by_cases he : e = .fill true ∧ (after c es).phase = .filling
  · obtain ⟨rfl, hphase⟩ := he
    have hfill : (after c es).step c (.fill true) = (after c es).fill c true := if_pos hphase
    rw [hfill, intact_fill_iff hmax (inOrder_after es hok) (earlier_after hn es) h hphase]
    exact ⟨fun hlt _ _ => hlt, fun hlt => hlt rfl hphase⟩
  · refine iff_of_true (intact_step h fun hfill hphase => he ⟨hfill, hphase⟩) ?_
    exact fun hfill hphase => absurd ⟨hfill, hphase⟩ he

/-- **The pool must be larger than what the decoder holds.** In an orderly run every packet that the
decoder refers to stays as it was accepted exactly if the decoder refers to fewer packets than the
pool has whenever the next one is filled. -/
theorem intact_iff (hn : 0 < c.nalCount) (hmax : 0 < c.maxPackets) (es : List Label)
    (hok : Admissible (Orderly c) es) :
    (∀ p, p <+: es → Intact c (after c p)) ↔
      ∀ p, p ++ [.fill true] <+: es → (after c p).phase = .filling →
        (after c p).held.length < c.maxPackets := by
  induction es using List.reverseRecOn with
  | nil =>
      refine iff_of_true (fun p hp => ?_) fun p hp => ?_
      · rw [List.prefix_nil.mp hp]
        exact fun _ => nofun
      · exact absurd (List.prefix_nil.mp hp) (by simp)
  | append_singleton es e ih =>
      have ih := ih hok.prefix
      simp only [List.prefix_concat_iff]
      constructor
      · intro h p hp hphase
        have hall : ∀ p, p <+: es → Intact c (after c p) := fun p hp => h p (.inr hp)
        rcases hp with hlast | hp
        · obtain ⟨rfl, he⟩ := List.append_inj' hlast rfl
          have hlast := (intact_snoc_iff hn hmax hok.prefix (hall p (List.prefix_refl p))).mp
            (h _ (.inl rfl))
          exact hlast (List.cons.inj he).1.symm hphase
        · exact ih.mp hall p hp hphase
      · intro h
        have hall := ih.mpr fun p hp => h p (.inr hp)
        rintro p (rfl | hp)
        · refine (intact_snoc_iff hn hmax hok.prefix (hall es (List.prefix_refl es))).mpr ?_
          rintro rfl
          exact h es (.inl rfl)
        · exact hall p hp

/-- With as many packets as the decoder takes, one is overwritten while it is still waiting. -/
theorem intact_iff_full :
    (∀ p, p <+: [.tick true true, .fill true, .push .success, .fill true] →
      Intact (twoUnits 1) (after (twoUnits 1) p)) ↔
    ∀ p, p ++ [.fill true] <+: [.tick true true, .fill true, .push .success, .fill true] →
      (after (twoUnits 1) p).phase = .filling →
        (after (twoUnits 1) p).held.length < (twoUnits 1).maxPackets := by
  refine intact_iff (by decide) (by decide) _ (admissible_iff_getElem.mpr fun i hi => ?_)
  have hcases : i = 0 ∨ i = 1 ∨ i = 2 ∨ i = 3 := by
    simp only [List.length_cons, List.length_nil] at hi
    omega
  rcases hcases with rfl | rfl | rfl | rfl
  · exact ⟨nofun, nofun, nofun⟩
  · exact ⟨nofun, nofun, nofun⟩
  · exact ⟨nofun, nofun, nofun⟩
  · exact ⟨nofun, nofun, nofun⟩

end Pool

end QcapDemos.Fixture.Bench

import QcapDemos.Fixture.Decode
import QcapDemos.Lib.Proc

set_option autoImplicit false

/-! # The encode fixture

`sc6f0-allegro2-encode-fixture.cpp` has the encoder encode a number of test pictures and writes what
it pops to a file, the input of the decode fixture. It pops whenever it waits: for a buffer of the
pool, after a push, and at the end for the frames that are still out. The output is a stream that
buffers what it takes, and passes it on to the file when it likes, when it is flushed and when it is
closed.

Whatever the calls return, the file is a beginning of the packets in the order in which they are
popped, and where the program succeeds it has as many of them as pictures.
-/

namespace QcapDemos.Fixture.Encode

open QcapDemos.Lib Proc

/-! ## The calls -/

/-- A packet that is popped; without data it is empty. `fwrite` takes so many of its bytes, and
passes so many of the bytes that the stream holds on to the file. -/
structure Popped where
  data : List UInt8
  /-- The size is an `int`. -/
  fits : data.length < 2 ^ 31
  taken : Nat
  passed : Nat

/-- One call of `drain_encoder`: the packets that are popped, until a pop times out or fails. -/
structure Drain where
  popped : List Popped
  timedOut : Bool

/-- The calls for one picture: the pool has no buffer for as long as there are drains in `waits`. -/
structure FrameCalls where
  waits : List Drain
  got : Bool
  filled : Bool
  push : Bool
  drain : Drain

/-- The calls of the program. `started` are the ones before the loop over the pictures. -/
structure Calls where
  opened : Bool
  started : Bool
  frame : Nat → FrameCalls
  flush : Bool
  /-- The drains after the end of the stream. -/
  last : Nat → Drain
  /-- `fflush` succeeds, or passes only so many bytes on. -/
  fflush : Bool
  flushed : Nat
  /-- The bytes that `fclose` passes on. Its result is ignored. -/
  closed : Nat

/-! ## The program -/

structure State where
  file : List UInt8 := []
  /-- What the stream has taken and not passed on to the file. -/
  buffered : List UInt8 := []
  produced : Nat := 0
  /-- What the encoder was given: the pictures by their number, and the end of the stream. -/
  inputs : List (Option Nat) := []

/-- The stream passes the first `n` bytes that it holds on to the file. -/
def State.pass (s : State) (n : Nat) : State :=
  { s with file := s.file ++ s.buffered.take n, buffered := s.buffered.drop n }

/-- The stream takes bytes. -/
def State.take (s : State) (bytes : List UInt8) : State :=
  { s with buffered := s.buffered ++ bytes }

/-- `goto done` with an error. -/
abbrev Program (α : Type) : Type := Proc State Unit α

/-- `fwrite`, with the number of bytes that it reports. -/
def fwrite (p : Popped) : Program Nat :=
  call fun s => (p.taken, (s.take (p.data.take p.taken)).pass p.passed)

/-- A packet goes to the file. -/
def writePacket (p : Popped) : Program Unit := do
  require (p.data ≠ []) ()
  let taken ← fwrite p
  require (taken = p.data.length) ()
  update fun s => { s with produced := s.produced + 1 }

def drainEncoder (d : Drain) : Program Unit := do
  d.popped.forM writePacket
  require d.timedOut ()

/-- The loop over `wait_ms` before a buffer is there. -/
def waitForBuffer (got : Bool) (waitMs : Nat) : List Drain → Program Unit
  | [] => require got ()
  | d :: waits =>
      if 5000 ≤ waitMs then raise ()
      else do
        drainEncoder d
        waitForBuffer got (waitMs + 1) waits

def push (input : Option Nat) (ok : Bool) : Program Unit := do
  require ok ()
  update fun s => { s with inputs := s.inputs ++ [input] }

/-- The body of the loop over the pictures. -/
def encodeFrame (k : Nat) (c : FrameCalls) : Program Unit := do
  waitForBuffer c.got 0 c.waits
  require c.filled ()
  push (some k) c.push
  drainEncoder c.drain

/-- The loop that waits for the frames that are still out, with the milliseconds that are left. -/
def waitForOutput (frameCount : Nat) (last : Nat → Drain) : Nat → Program Unit
  | 0 => pure ()
  | left + 1 => do
      let s ← call fun s => (s, s)
      if s.produced < frameCount then do
        drainEncoder (last (5000 - (left + 1)))
        waitForOutput frameCount last left
      else pure ()

/-- `fflush` -/
def flush (c : Calls) : Program Unit := do
  update fun s => s.pass (if c.fflush then s.buffered.length else c.flushed)
  require c.fflush ()

/-- From the allocations to the label `done`. -/
def encode (frameCount : Nat) (c : Calls) : Program Unit := do
  require c.started ()
  (List.range frameCount).forM fun k => encodeFrame k (c.frame k)
  push none c.flush
  waitForOutput frameCount c.last 5000
  let s ← call fun s => (s, s)
  require (s.produced = frameCount) ()
  flush c

/-- The value of `main`, and what it leaves. -/
def main (frameCount slices : Int) (c : Calls) : Int × State :=
  if frameCount < 2 ∨ slices < 1 then (2, {})
  else if !c.opened then (1, {})
  else match encode frameCount.toNat c {} with
    | (.ok _, s) => (0, s.pass c.closed)
    | (.error _, s) => (1, s.pass c.closed)

/-! ## What is popped and written -/

def FrameCalls.popped (c : FrameCalls) : List Popped :=
  c.waits.flatMap Drain.popped ++ c.drain.popped

/-- The packets that the encoder has, in the order in which they are popped. -/
def Calls.popped (frameCount : Nat) (c : Calls) : List Popped :=
  (List.range frameCount).flatMap (fun k => (c.frame k).popped) ++
    (List.range 5000).flatMap fun k => (c.last k).popped

def bytesOf (ps : List Popped) : List UInt8 := ps.flatMap Popped.data

/-- What the stream has passed on, and what it still holds, are the packets `ps`; the inputs are
`inputs`. -/
structure Between (ps : List Popped) (inputs : List (Option Nat)) (s : State) : Prop where
  bytes : s.file ++ s.buffered = bytesOf ps
  produced : s.produced = ps.length
  nonempty : ∀ p ∈ ps, p.data ≠ []
  inputs : s.inputs = inputs

/-- The inputs of a run with `n` pictures. -/
def allInputs (n : Nat) : List (Option Nat) := (List.range n).map some ++ [none]

/-- What is left where the program does not succeed. -/
def Stopped (total : List Popped) (n : Nat) (s : State) : Prop :=
  s.file ++ s.buffered <+: bytesOf total ∧ s.inputs <+: allInputs n

theorem bytesOf_append (ps qs : List Popped) : bytesOf (ps ++ qs) = bytesOf ps ++ bytesOf qs :=
  List.flatMap_append

theorem bytesOf_isPrefix {ps qs : List Popped} (h : ps <+: qs) : bytesOf ps <+: bytesOf qs := by
  obtain ⟨rest, rfl⟩ := h
  rw [bytesOf_append]
  exact List.prefix_append _ _

/-- Passing bytes on keeps the order of all that the stream has taken. -/
theorem pass_bytes (s : State) (n : Nat) :
    (s.pass n).file ++ (s.pass n).buffered = s.file ++ s.buffered := by
  show s.file ++ s.buffered.take n ++ s.buffered.drop n = _
  rw [List.append_assoc, List.take_append_drop]

theorem pass_isPrefix (s : State) (n : Nat) : (s.pass n).file <+: s.file ++ s.buffered :=
  pass_bytes s n ▸ List.prefix_append _ _

/-- A stream that holds nothing has nothing to pass on. -/
theorem pass_file_of_empty {s : State} (h : s.buffered = []) (n : Nat) :
    (s.pass n).file = s.file := by
  show s.file ++ s.buffered.take n = _
  rw [h, List.take_nil, List.append_nil]

theorem pass_all (s : State) : (s.pass s.buffered.length).buffered = [] := by
  show s.buffered.drop s.buffered.length = []
  exact List.drop_length

section Program

variable {n : Nat} {total ps : List Popped} {inputs : List (Option Nat)}

theorem stopped_of_between {s : State} (hps : ps <+: total) (hinputs : inputs <+: allInputs n)
    (h : Between ps inputs s) : Stopped total n s :=
  ⟨h.bytes ▸ bytesOf_isPrefix hps, h.inputs ▸ hinputs⟩

theorem require_spec {ok : Bool} (hps : ps <+: total) (hinputs : inputs <+: allInputs n) :
    Meets (Between ps inputs) (require ok ()) (fun _ => Between ps inputs)
      fun _ => Stopped total n :=
  meets_require (fun _ hs _ => hs) fun _ hs _ => stopped_of_between hps hinputs hs

theorem writePacket_spec {p : Popped} (hps : ps ++ [p] <+: total)
    (hinputs : inputs <+: allInputs n) :
    Meets (Between ps inputs) (writePacket p) (fun _ => Between (ps ++ [p]) inputs)
      fun _ => Stopped total n := by
  have hbytes : bytesOf (ps ++ [p]) = bytesOf ps ++ p.data := by
    rw [bytesOf_append]
    exact congrArg (bytesOf ps ++ ·) (List.append_nil p.data)
  refine Meets.bind (Q := fun _ s => p.data ≠ [] ∧ Between ps inputs s)
    (meets_require (fun s hs hok => ⟨of_decide_eq_true hok, hs⟩) fun s hs _ => ?_) fun _ => ?_
  · exact stopped_of_between ((List.prefix_append _ _).trans hps) hinputs hs
  -- the stream has taken the packets and the first bytes of this one
  refine Meets.bind (Q := fun taken s => taken = p.taken ∧ p.data ≠ [] ∧
    s.file ++ s.buffered = bytesOf ps ++ p.data.take p.taken ∧ s.produced = ps.length ∧
    (∀ q ∈ ps, q.data ≠ []) ∧ s.inputs = inputs) (meets_call fun s hs => ?_) fun taken => ?_
  · obtain ⟨hne, hs⟩ := hs
    refine ⟨rfl, hne, ?_, hs.produced, hs.nonempty, hs.inputs⟩
    show ((s.take (p.data.take p.taken)).pass p.passed).file ++ _ = _
    rw [pass_bytes, ← hs.bytes]
    exact (List.append_assoc _ _ _).symm
  refine Meets.bind (Q := fun _ => fun s => p.data ≠ [] ∧ s.file ++ s.buffered = bytesOf (ps ++ [p])
    ∧ s.produced = ps.length ∧ (∀ q ∈ ps, q.data ≠ []) ∧ s.inputs = inputs)
    (meets_require (fun s hs hok => ?_) fun s hs _ => ?_) fun _ => meets_update fun s hs => ?_
  · obtain ⟨rfl, hne, hfile, hrest⟩ := hs
    rw [of_decide_eq_true hok, List.take_length, ← hbytes] at hfile
    exact ⟨hne, hfile, hrest⟩
  · obtain ⟨-, -, hfile, -, -, hs⟩ := hs
    refine ⟨?_, hs ▸ hinputs⟩
    rw [hfile]
    refine List.IsPrefix.trans ?_ (bytesOf_isPrefix hps)
    rw [hbytes, List.prefix_append_right_inj]
    exact List.take_prefix _ _
  · obtain ⟨hne, hfile, hproduced, hnonempty, hs⟩ := hs
    refine ⟨hfile, ?_, fun q hq => ?_, hs⟩
    · show s.produced + 1 = (ps ++ [p]).length
      rw [hproduced, List.length_append, List.length_singleton]
    · rcases List.mem_append.mp hq with hq | hq
      · exact hnonempty q hq
      · exact List.mem_singleton.mp hq ▸ hne

theorem writePackets_spec (hinputs : inputs <+: allInputs n) (popped : List Popped) :
    ∀ ps, ps ++ popped <+: total →
      Meets (Between ps inputs) (popped.forM writePacket) (fun _ => Between (ps ++ popped) inputs)
        fun _ => Stopped total n := by
  induction popped with
  | nil => exact fun ps _ => meets_pure fun s hs => (List.append_nil ps).symm ▸ hs
  | cons p popped ih =>
      intro ps hps
      rw [List.append_cons] at hps ⊢
      exact (writePacket_spec ((List.prefix_append _ _).trans hps) hinputs).bind
        fun _ => ih (ps ++ [p]) hps

theorem drainEncoder_spec {d : Drain} (hps : ps ++ d.popped <+: total)
    (hinputs : inputs <+: allInputs n) :
    Meets (Between ps inputs) (drainEncoder d) (fun _ => Between (ps ++ d.popped) inputs)
      fun _ => Stopped total n :=
  (writePackets_spec hinputs d.popped ps hps).bind fun _ => require_spec hps hinputs

theorem waitForBuffer_spec (hinputs : inputs <+: allInputs n) (got : Bool) (waits : List Drain) :
    ∀ ps waitMs, ps ++ waits.flatMap Drain.popped <+: total →
      Meets (Between ps inputs) (waitForBuffer got waitMs waits)
        (fun _ => Between (ps ++ waits.flatMap Drain.popped) inputs) fun _ => Stopped total n := by
  induction waits with
  | nil =>
      intro ps _ hps
      rw [List.flatMap_nil, List.append_nil] at hps ⊢
      exact require_spec hps hinputs
  | cons d waits ih =>
      intro ps waitMs hps
      rw [List.flatMap_cons, ← List.append_assoc] at hps ⊢
      have hfirst := (List.prefix_append _ _).trans hps
      rw [waitForBuffer]
      split_ifs
      · exact meets_raise fun s hs =>
          stopped_of_between ((List.prefix_append _ _).trans hfirst) hinputs hs
      · exact (drainEncoder_spec hfirst hinputs).bind fun _ => ih _ _ hps

theorem push_spec (input : Option Nat) (ok : Bool) (hps : ps <+: total)
    (hinputs : inputs <+: allInputs n) :
    Meets (Between ps inputs) (push input ok) (fun _ => Between ps (inputs ++ [input]))
      fun _ => Stopped total n :=
  (require_spec hps hinputs).bind fun _ =>
    meets_update fun _ hs => ⟨hs.bytes, hs.produced, hs.nonempty, hs.inputs ▸ rfl⟩

/-- The loop ends where all packets are there, or the time is over. -/
theorem waitForOutput_spec (hinputs : inputs <+: allInputs n) (last : Nat → Drain) (left : Nat) :
    ∀ ps, left ≤ 5000 →
      ps ++ (List.range' (5000 - left) left).flatMap (fun k => (last k).popped) <+: total →
      Meets (Between ps inputs) (waitForOutput n last left)
        (fun _ s => ∃ ps, ps <+: total ∧ Between ps inputs s) fun _ => Stopped total n := by
  induction left with
  | zero =>
      intro ps _ hps
      exact meets_pure fun s hs => ⟨ps, (List.prefix_append _ _).trans hps, hs⟩
  | succ left ih =>
      intro ps hleft hps
      rw [List.range'_succ, List.flatMap_cons, ← List.append_assoc,
        show 5000 - (left + 1) + 1 = 5000 - left by omega] at hps
      have hfirst := (List.prefix_append _ _).trans hps
      refine Meets.bind (Q := fun _ => Between ps inputs) (meets_call fun s hs => hs) fun s => ?_
      split_ifs
      · exact (drainEncoder_spec hfirst hinputs).bind fun _ => ih _ (by omega) hps
      · exact meets_pure fun s hs => ⟨ps, (List.prefix_append _ _).trans hfirst, hs⟩

/-- The first pictures. -/
theorem first_inputs {k : Nat} (hk : k ≤ n) : (List.range k).map some <+: allInputs n := by
  have hrange : List.range k <+: List.range n := by
    obtain ⟨j, rfl⟩ := Nat.exists_eq_add_of_le hk
    rw [List.range_add]
    exact List.prefix_append _ _
  exact (hrange.map some).trans (List.prefix_append _ _)

theorem encodeFrame_spec {k : Nat} (hk : k < n) {c : FrameCalls}
    (hps : ps ++ c.popped <+: total) :
    Meets (Between ps ((List.range k).map some)) (encodeFrame k c)
      (fun _ => Between (ps ++ c.popped) ((List.range (k + 1)).map some))
      fun _ => Stopped total n := by
  have hbefore : (List.range k).map some <+: allInputs n := first_inputs hk.le
  have hafter : (List.range (k + 1)).map some <+: allInputs n := first_inputs hk
  have hsnoc : (List.range k).map some ++ [some k] = (List.range (k + 1)).map some := by
    rw [List.range_succ, List.map_append, List.map_singleton]
  rw [FrameCalls.popped, ← List.append_assoc] at hps ⊢
  have hwaits := (List.prefix_append _ _).trans hps
  refine (waitForBuffer_spec hbefore c.got c.waits ps 0 hwaits).bind fun _ => ?_
  refine (require_spec hwaits hbefore).bind fun _ => ?_
  refine (push_spec (some k) c.push hwaits hbefore).bind fun _ => ?_
  rw [hsnoc]
  exact drainEncoder_spec hps hafter

theorem frames_spec (c : Nat → FrameCalls) (m : Nat) :
    ∀ k ps, k + m ≤ n → ps ++ (List.range' k m).flatMap (fun k => (c k).popped) <+: total →
      Meets (Between ps ((List.range k).map some))
        ((List.range' k m).forM fun k => encodeFrame k (c k))
        (fun _ => Between (ps ++ (List.range' k m).flatMap fun k => (c k).popped)
          ((List.range (k + m)).map some)) fun _ => Stopped total n := by
  induction m with
  | zero => exact fun k ps _ _ => meets_pure fun s hs => (List.append_nil ps).symm ▸ hs
  | succ m ih =>
      intro k ps hk hps
      rw [List.range'_succ, List.flatMap_cons, ← List.append_assoc] at hps ⊢
      have hrest := ih (k + 1) _ (by omega) hps
      rw [show k + 1 + m = k + (m + 1) by omega] at hrest
      exact (encodeFrame_spec (by omega) ((List.prefix_append _ _).trans hps)).bind fun _ => hrest

/-- Where the flush succeeds, the file has all that the stream has taken. -/
theorem flush_spec (c : Calls) (hps : ps <+: total) (hinputs : inputs <+: allInputs n) :
    Meets (Between ps inputs) (flush c)
      (fun _ s => Between ps inputs s ∧ s.buffered = []) fun _ => Stopped total n := by
  unfold flush
  cases c.fflush with
  | true =>
      refine Meets.bind (Q := fun _ s => Between ps inputs s ∧ s.buffered = [])
        (meets_update fun s hs => ?_) fun _ => meets_pure fun s hs => hs
      exact ⟨⟨(pass_bytes _ _).trans hs.bytes, hs.produced, hs.nonempty, hs.inputs⟩, pass_all s⟩
  | false =>
      refine Meets.bind (Q := fun _ => Between ps inputs) (meets_update fun s hs => ?_)
        fun _ => meets_raise fun s hs => stopped_of_between hps hinputs hs
      exact ⟨(pass_bytes _ _).trans hs.bytes, hs.produced, hs.nonempty, hs.inputs⟩

theorem encode_spec (c : Calls) :
    Meets (Between [] []) (encode n c)
      (fun _ s => ∃ ps, ps <+: c.popped n ∧ ps.length = n ∧ Between ps (allInputs n) s ∧
        s.buffered = []) fun _ => Stopped (c.popped n) n := by
  have hall : allInputs n <+: allInputs n := List.prefix_rfl
  refine (require_spec List.nil_prefix List.nil_prefix).bind fun _ => ?_
  have hpictures : (List.range' 0 n).flatMap (fun k => (c.frame k).popped) <+: c.popped n := by
    rw [Calls.popped, List.range_eq_range']
    exact List.prefix_append _ _
  have hframes := frames_spec (n := n) c.frame n 0 [] (by omega) hpictures
  rw [← List.range_eq_range', Nat.zero_add, List.nil_append] at hframes
  rw [← List.range_eq_range'] at hpictures
  refine hframes.bind fun _ => (push_spec none c.flush hpictures (first_inputs le_rfl)).bind
    fun _ => ?_
  have hlast : (List.range n).flatMap (fun k => (c.frame k).popped) ++
      (List.range' (5000 - 5000) 5000).flatMap (fun k => (c.last k).popped) <+: c.popped n := by
    rw [Calls.popped, Nat.sub_self, ← List.range_eq_range']
  refine (waitForOutput_spec hall c.last 5000 _ le_rfl hlast).bind fun _ => ?_
  refine meets_exists fun ps => meets_assume fun hps => ?_
  refine Meets.bind (Q := fun seen s => seen = s ∧ Between ps (allInputs n) s)
    (meets_call fun s hs => ⟨rfl, hs⟩) fun seen => ?_
  refine Meets.bind (Q := fun _ s => ps.length = n ∧ Between ps (allInputs n) s)
    (meets_require (fun s hs hok => ?_) fun s hs _ => stopped_of_between hps hall hs.2)
    fun _ => meets_assume fun hlen => (flush_spec c hps hall).returning fun _ s hs =>
      ⟨ps, hps, hlen, hs.1, hs.2⟩
  obtain ⟨rfl, hs⟩ := hs
  exact ⟨hs.produced.symm.trans (of_decide_eq_true hok), hs⟩

end Program

/-- The file and the inputs are complete. -/
structure Complete (n : Nat) (c : Calls) (s : State) : Prop where
  file : ∃ ps, ps <+: c.popped n ∧ ps.length = n ∧ s.file = bytesOf ps ∧ ∀ p ∈ ps, p.data ≠ []
  inputs : s.inputs = allInputs n

/-- The program fails, or it comes to its end. -/
theorem main_cases (frameCount slices : Int) (c : Calls) :
    (main frameCount slices c).1 ≠ 0 ∧
        (main frameCount slices c).2.file <+: bytesOf (c.popped frameCount.toNat) ∧
        (main frameCount slices c).2.inputs <+: allInputs frameCount.toNat ∨
      (main frameCount slices c).1 = 0 ∧
        Complete frameCount.toNat c (main frameCount slices c).2 := by
  rw [main]
  split_ifs
  · exact .inl ⟨by decide, List.nil_prefix, List.nil_prefix⟩
  · exact .inl ⟨by decide, List.nil_prefix, List.nil_prefix⟩
  · have hrun := encode_spec (n := frameCount.toNat) c {} ⟨rfl, rfl, nofun, rfl⟩
    generalize encode frameCount.toNat c {} = r at hrun ⊢
    obtain ⟨e | u, s⟩ := r
    · exact .inl ⟨Int.one_ne_zero, (pass_isPrefix s c.closed).trans hrun.1, hrun.2⟩
    · obtain ⟨ps, hps, hlen, hs, hempty⟩ := hrun
      have hfile : (s.pass c.closed).file = bytesOf ps := by
        rw [pass_file_of_empty hempty, ← hs.bytes, hempty, List.append_nil]
      exact .inr ⟨rfl, ⟨ps, hps, hlen, hfile, hs.nonempty⟩, hs.inputs⟩

/-- What a run leaves: a file that is a beginning of the packets, in the order in which they are
popped, and the inputs in their order; and all of them where it returns 0. -/
structure Encoded (n : Nat) (c : Calls) (code : Int) (s : State) : Prop where
  written : s.file <+: bytesOf (c.popped n)
  inputs : s.inputs <+: allInputs n
  complete : code = 0 → Complete n c s

/-- **The encode fixture writes the packets of the encoder,** in their order and nothing else, and
it returns 0 only with one packet for each picture, after the encoder was given every picture once
and in order and then the end of the stream. -/
theorem encode_outcome (frameCount slices : Int) (c : Calls) :
    Encoded frameCount.toNat c (main frameCount slices c).1 (main frameCount slices c).2 := by
  rcases main_cases frameCount slices c with ⟨hcode, hwritten, hinputs⟩ | ⟨-, hcomplete⟩
  · exact ⟨hwritten, hinputs, fun h => absurd h hcode⟩
  · obtain ⟨ps, hps, -, hfile, -⟩ := hcomplete.file
    exact ⟨hfile ▸ bytesOf_isPrefix hps, hcomplete.inputs ▸ List.prefix_rfl, fun _ => hcomplete⟩

end QcapDemos.Fixture.Encode

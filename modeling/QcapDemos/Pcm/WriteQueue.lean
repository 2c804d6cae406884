import Mathlib.Algebra.GroupWithZero.Nat
import Mathlib.Algebra.Order.Group.Nat
import Mathlib.Data.List.Basic

set_option autoImplicit false

/-! # The PCM write queue

`drain` of `sc6f0-pcm-write-queue.h`: the queue of pending stereo S24_LE bytes is bounded
by dropping its oldest frames, then offered to a nonblocking PCM write call, one period at
a time. The write and prepare calls are the environment: their results are given to the
model as data, and every theorem holds for all of them.

Besides what the source returns, the model records what happened at the head of the queue
(`QueueEvent`), so that "which bytes left the queue, and how" can be stated.
-/

namespace QcapDemos.Pcm

/-! ## Constants -/

def EINTR : Int := 4
def EAGAIN : Int := 11
def EPIPE : Int := 32
def ESTRPIPE : Int := 86

/-- Stereo S24_LE occupies 8 bytes per frame. -/
def frameBytes : Nat := 8

/-- One PCM period, in frames. -/
def chunk : Nat := 960

/-- The bound of the queue, in frames. -/
def maxFrames : Nat := 7680

/-- At most this many write calls are made by one `drain`. -/
def maxAttempts : Nat := 16

/-! ## The queue -/

structure WriteStats where
  accepted : Nat := 0
  again : Nat := 0
  shortWrites : Nat := 0
  xruns : Nat := 0
  suspended : Nat := 0
  errors : Nat := 0
  recoveryErrors : Nat := 0
  dropped : Nat := 0
deriving DecidableEq, Repr

/-- What happened at the head of the queue. A `write` records the bytes it offered, the
frame count it asked for and the result it got. -/
inductive QueueEvent where
  | overflow (bytes : List UInt8)
  | write (offered : List UInt8) (requested : Nat) (written : Int)
  | prepare (result : Int)
deriving DecidableEq, Repr

/-- The working state of one `drain`: the two references it updates, its statistics and the
events at the head of the queue, in order. -/
structure Drain where
  pending : List UInt8
  shortTail : Bool
  stats : WriteStats := {}
  log : List QueueEvent := []
deriving DecidableEq, Repr

/-- A write result that accepts frames: positive and no more than was asked for. -/
def accepts (requested : Nat) (written : Int) : Prop := 0 < written ∧ written ≤ requested

instance (requested : Nat) (written : Int) : Decidable (accepts requested written) :=
  inferInstanceAs (Decidable (_ ∧ _))

/-- The bounded-queue step at the entry of `drain`: drop the oldest frames. -/
def dropOverflow (d : Drain) : Drain :=
  if maxFrames * frameBytes < d.pending.length then
    let excess := d.pending.length - maxFrames * frameBytes
    { pending := d.pending.drop excess
      shortTail := false
      stats := { d.stats with dropped := excess / frameBytes }
      log := d.log ++ [.overflow (d.pending.take excess)] }
  else d

/-- The branch of an accepted write: remove exactly the accepted frames. -/
def acceptWrite (requested : Nat) (written : Int) (d : Drain) : Drain :=
  let short := decide (written < requested)
  { d with
    pending := d.pending.drop (written.toNat * frameBytes)
    shortTail := short
    stats := { d.stats with
      accepted := d.stats.accepted + written.toNat
      shortWrites := d.stats.shortWrites + short.toNat } }

/-- The branches that keep all unaccepted data and end the loop. An xrun or a suspend is
answered by one prepare call, whose result is `prepare`. -/
def refuseWrite (written prepare : Int) (d : Drain) : Drain :=
  if written = 0 ∨ written = -EAGAIN ∨ written = -EINTR then
    { d with stats := { d.stats with
        again := d.stats.again + (decide (written = -EAGAIN)).toNat } }
  else if written = -EPIPE ∨ written = -ESTRPIPE then
    { d with
      stats := { d.stats with
        errors := d.stats.errors + 1
        xruns := d.stats.xruns + (decide (written = -EPIPE)).toNat
        suspended := d.stats.suspended + (decide (written ≠ -EPIPE)).toNat
        recoveryErrors := d.stats.recoveryErrors + (decide (prepare < 0)).toNat }
      log := d.log ++ [.prepare prepare] }
  else
    { d with stats := { d.stats with errors := d.stats.errors + 1 } }

/-- The loop of `drain`, `left` attempts before its bound. `write k` is the result of the
`k`-th write call, counted from the one numbered `attempts`. -/
def writeLoop (write : Nat → Int) (prepare : Int) : (left attempts : Nat) → Drain → Drain
  | 0, _, d => d
  | left + 1, attempts, d =>
    let available := d.pending.length / frameBytes
    if available = 0 ∨ (!d.shortTail ∧ available < chunk) then d
    else
      let requested := min available chunk
      let written := write attempts
      let d' := { d with
        log := d.log ++ [.write (d.pending.take (requested * frameBytes)) requested written] }
      if accepts requested written then
        writeLoop write prepare left (attempts + 1) (acceptWrite requested written d')
      else refuseWrite written prepare d'

/-- `drain`: bound the queue, then feed the PCM until it refuses. -/
def drain (write : Nat → Int) (prepare : Int) (pending : List UInt8) (shortTail : Bool) :
    Drain :=
  writeLoop write prepare maxAttempts 0 (dropOverflow { pending, shortTail })

/-! ## What left the head of the queue -/

/-- The bytes a write call accepted. -/
def QueueEvent.accepted : QueueEvent → List UInt8
  | .write offered requested written =>
      if accepts requested written then offered.take (written.toNat * frameBytes) else []
  | _ => []

/-- The bytes the overflow step dropped. -/
def QueueEvent.dropped : QueueEvent → List UInt8
  | .overflow bytes => bytes
  | _ => []

/-- The bytes that left the head of the queue, accepted or dropped. -/
def QueueEvent.departed (e : QueueEvent) : List UInt8 := e.accepted ++ e.dropped

/-- The frames accepted by the writes of a log. -/
def acceptedFrames (log : List QueueEvent) : Nat :=
  (log.map fun e => e.accepted.length / frameBytes).sum

/-- The frames dropped by the overflow steps of a log. -/
def droppedFrames (log : List QueueEvent) : Nat :=
  (log.map fun e => e.dropped.length / frameBytes).sum

@[simp] theorem acceptedFrames_append (l l' : List QueueEvent) :
    acceptedFrames (l ++ l') = acceptedFrames l + acceptedFrames l' := by
  simp [acceptedFrames]

@[simp] theorem droppedFrames_append (l l' : List QueueEvent) :
    droppedFrames (l ++ l') = droppedFrames l + droppedFrames l' := by
  simp [droppedFrames]

@[simp] theorem acceptedFrames_nil : acceptedFrames [] = 0 := rfl

@[simp] theorem droppedFrames_nil : droppedFrames [] = 0 := rfl

/-- **The conservation invariant** of a working state reached from the queue `start`: the
departed bytes followed by the pending ones are the bytes the queue started with, nothing
left in parts of a frame, and the statistics count exactly what left. -/
structure Conserves (start : List UInt8) (d : Drain) : Prop where
  bytes : d.log.flatMap QueueEvent.departed ++ d.pending = start
  whole : ∀ e ∈ d.log, frameBytes ∣ e.departed.length
  aligned : frameBytes ∣ d.pending.length
  accepted : d.stats.accepted = acceptedFrames d.log
  dropped : d.stats.dropped = droppedFrames d.log

theorem conserves_start {pending : List UInt8} (shortTail : Bool)
    (h : frameBytes ∣ pending.length) : Conserves pending { pending, shortTail } where
  bytes := rfl
  whole := by simp
  aligned := h
  accepted := rfl
  dropped := rfl

/-- An event that moves nothing keeps the invariant, whatever happens to the flag and to
the other statistics. -/
theorem Conserves.log_idle {start : List UInt8} {d d' : Drain} {e : QueueEvent}
    (h : Conserves start d) (hidle : e.departed = []) (hp : d'.pending = d.pending)
    (hl : d'.log = d.log ++ [e]) (ha : d'.stats.accepted = d.stats.accepted)
    (hd : d'.stats.dropped = d.stats.dropped) : Conserves start d' := by
  have hacc : e.accepted = [] := (List.append_eq_nil_iff.mp hidle).1
  have hdrop : e.dropped = [] := (List.append_eq_nil_iff.mp hidle).2
  refine ⟨?_, ?_, ?_, ?_, ?_⟩
  · rw [hl, hp, List.flatMap_append, List.flatMap_singleton, hidle, List.append_nil]
    exact h.bytes
  · intro a ha'
    rw [hl, List.mem_append, List.mem_singleton] at ha'
    rcases ha' with ha' | rfl
    · exact h.whole a ha'
    · simp [hidle]
  · rw [hp]; exact h.aligned
  · rw [ha, h.accepted, hl, acceptedFrames_append]
    simp [acceptedFrames, hacc]
  · rw [hd, h.dropped, hl, droppedFrames_append]
    simp [droppedFrames, hdrop]

theorem dropOverflow_of_lt {d : Drain} (h : maxFrames * frameBytes < d.pending.length) :
    dropOverflow d =
      { pending := d.pending.drop (d.pending.length - maxFrames * frameBytes)
        shortTail := false
        stats := { d.stats with
          dropped := (d.pending.length - maxFrames * frameBytes) / frameBytes }
        log := d.log ++
          [.overflow (d.pending.take (d.pending.length - maxFrames * frameBytes))] } := by
  unfold dropOverflow
  simp only [h, ↓reduceIte]

theorem dropOverflow_of_le {d : Drain} (h : d.pending.length ≤ maxFrames * frameBytes) :
    dropOverflow d = d := by
  unfold dropOverflow
  simp only [Nat.not_lt.mpr h, ↓reduceIte]

/-- Dropping whole frames off the head and logging them conserves the queue. -/
theorem conserves_overflow {start : List UInt8} {excess : Nat} (h : frameBytes ∣ start.length)
    (hdvd : frameBytes ∣ excess) (htake : (start.take excess).length = excess) :
    Conserves start
      { pending := start.drop excess
        shortTail := false
        stats := { dropped := excess / frameBytes }
        log := [.overflow (start.take excess)] } := by
  refine ⟨?_, ?_, ?_, ?_, ?_⟩
  · simp [QueueEvent.departed, QueueEvent.accepted, QueueEvent.dropped]
  · simp [QueueEvent.departed, QueueEvent.accepted, QueueEvent.dropped, htake, hdvd]
  · rw [List.length_drop]; exact Nat.dvd_sub h hdvd
  · simp [acceptedFrames, QueueEvent.accepted]
  · simp [droppedFrames, QueueEvent.dropped, htake]

theorem conserves_dropOverflow {start : List UInt8} (shortTail : Bool)
    (h : frameBytes ∣ start.length) :
    Conserves start (dropOverflow { pending := start, shortTail }) := by
  by_cases hlong : maxFrames * frameBytes < start.length
  · rw [dropOverflow_of_lt (d := { pending := start, shortTail }) hlong]
    refine conserves_overflow h ?_ ?_
    · exact Nat.dvd_sub h (Nat.dvd_mul_left frameBytes maxFrames)
    · rw [List.length_take]
      exact Nat.min_eq_left (Nat.sub_le _ _)
  · rw [dropOverflow_of_le (d := { pending := start, shortTail }) (Nat.not_lt.mp hlong)]
    exact conserves_start shortTail h

/-- The step lemma of an accepted write: exactly the accepted frames leave the head. -/
theorem Conserves.accept {start : List UInt8} {d : Drain} {requested : Nat} {written : Int}
    (h : Conserves start d) (hreq : requested ≤ d.pending.length / frameBytes)
    (hacc : accepts requested written) :
    Conserves start (acceptWrite requested written { d with
      log := d.log ++ [.write (d.pending.take (requested * frameBytes)) requested written] }) := by
  obtain ⟨hpos, hle⟩ := hacc
  have hn : written.toNat ≤ requested := by omega
  have hlen : requested * frameBytes ≤ d.pending.length :=
    le_trans (Nat.mul_le_mul_right _ hreq) (Nat.div_mul_le_self _ _)
  -- Of the bytes offered, the write took a prefix of whole frames.
  have hoff : (d.pending.take (requested * frameBytes)).take (written.toNat * frameBytes)
      = d.pending.take (written.toNat * frameBytes) := by
    rw [List.take_take, Nat.min_eq_left (Nat.mul_le_mul_right _ hn)]
  have htake : (d.pending.take (written.toNat * frameBytes)).length
      = written.toNat * frameBytes := by
    rw [List.length_take]
    exact Nat.min_eq_left (le_trans (Nat.mul_le_mul_right _ hn) hlen)
  have hev : (QueueEvent.write (d.pending.take (requested * frameBytes)) requested
      written).accepted = d.pending.take (written.toNat * frameBytes) := by
    rw [QueueEvent.accepted, if_pos ⟨hpos, hle⟩, hoff]
  refine ⟨?_, ?_, ?_, ?_, ?_⟩
  · simp only [acceptWrite, List.flatMap_append, List.flatMap_singleton, QueueEvent.departed,
      hev, QueueEvent.dropped, List.append_nil, List.append_assoc, List.take_append_drop]
    exact h.bytes
  · intro e he
    simp only [acceptWrite, List.mem_append, List.mem_singleton] at he
    rcases he with he | rfl
    · exact h.whole e he
    · simp only [QueueEvent.departed, hev, QueueEvent.dropped, List.append_nil, htake]
      exact Nat.dvd_mul_left _ _
  · simp only [acceptWrite, List.length_drop]
    exact Nat.dvd_sub h.aligned (Nat.dvd_mul_left _ _)
  · have hdiv : written.toNat * frameBytes / frameBytes = written.toNat :=
      Nat.mul_div_cancel _ (by decide)
    simp only [acceptWrite, h.accepted, acceptedFrames_append]
    simp [acceptedFrames, hev, htake, hdiv]
  · simp [acceptWrite, h.dropped, droppedFrames, QueueEvent.dropped]

/-- A refused write leaves every byte in the queue. -/
theorem Conserves.refuse {start : List UInt8} {d : Drain} {written prepare : Int}
    (h : Conserves start d) : Conserves start (refuseWrite written prepare d) := by
  unfold refuseWrite
  split
  · exact ⟨h.bytes, h.whole, h.aligned, h.accepted, h.dropped⟩
  split
  · exact h.log_idle rfl rfl rfl rfl rfl
  · exact ⟨h.bytes, h.whole, h.aligned, h.accepted, h.dropped⟩

/-- The run lemma of the loop, by induction on the attempts left. -/
theorem Conserves.writeLoop {start : List UInt8} (write : Nat → Int) (prepare : Int)
    (left : Nat) : ∀ (attempts : Nat) (d : Drain), Conserves start d →
      Conserves start (writeLoop write prepare left attempts d) := by
  induction left with
  | zero => intro _ d h; exact h
  | succ left ih =>
      intro attempts d h
      simp only [Pcm.writeLoop]
      split
      · exact h
      split
      · rename_i hacc
        exact ih _ _ (h.accept (Nat.min_le_left _ _) hacc)
      · rename_i hrej
        refine Conserves.refuse (h.log_idle ?_ rfl rfl rfl rfl)
        simp [QueueEvent.departed, QueueEvent.accepted, QueueEvent.dropped, hrej]

/-- **`drain` conserves the queue**, for every result of every write and prepare call. -/
theorem drain_conserves (write : Nat → Int) (prepare : Int) (pending : List UInt8)
    (shortTail : Bool) (h : frameBytes ∣ pending.length) :
    Conserves pending (drain write prepare pending shortTail) :=
  (conserves_dropOverflow shortTail h).writeLoop write prepare maxAttempts 0 _

end QcapDemos.Pcm

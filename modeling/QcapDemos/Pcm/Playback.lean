import Mathlib.Tactic.Ring
import QcapDemos.Lib.Run
import QcapDemos.Pcm.WriteQueue

set_option autoImplicit false

/-! # Audio playback of the receiver

`rx_audio_playback` of `sc6f0-dante-rx.cpp`: each S32LE buffer is converted to S24_LE,
appended to `audio_pending_frame` and the queue is drained into the PCM. A run of callbacks
is a `Machine` whose output is what happened at the head of the queue in each callback, and
`playback_conserves` says that over a whole run no frame is lost, repeated, reordered or
split.
-/

namespace QcapDemos.Pcm

open Lib

/-! ## Data -/

/-- The sample formats of a decoded audio frame. -/
inductive SampleFormat where
  | U8 | S16LE | S32LE | F32LE | S16P | S32P | F32P
  | other (code : Nat)
deriving DecidableEq, Repr

/-- The frame description attached to a buffer. -/
structure AudioFrame where
  channels : Nat
  sampleRate : Nat
  format : SampleFormat
  nbSamples : Nat
deriving DecidableEq, Repr

/-- An input buffer; `data = none` is a null data pointer. -/
structure Buffer where
  data : Option (List UInt8)
  pts : Nat
deriving DecidableEq, Repr

/-- The audio output of the receiver: the PCM handle (`audioPcm` says that it is open), the
pending queue and the counters. -/
structure RxAudio where
  audioPcm : Bool := false
  audioPcmStarted : Bool := false
  audioPendingFrame : List UInt8 := []
  audioShortTail : Bool := false
  audioPendingPts : Nat := 0
  audioPlaybackErrors : UInt64 := 0
  audioUnsupportedPeriods : UInt64 := 0
  audioAcceptedFrames : UInt64 := 0
  audioAgain : UInt64 := 0
  audioShortWrites : UInt64 := 0
  audioXruns : UInt64 := 0
  audioRecoveryErrors : UInt64 := 0
  audioQueueDropped : UInt64 := 0
deriving DecidableEq, Repr

/-- One callback: the buffer with its frame description, and the results of the PCM calls
made while it runs. -/
structure PlaybackCall where
  buf : Option Buffer
  audio : Option AudioFrame
  write : Nat → Int
  prepare : Int

/-! ## The conversion to S24_LE -/

/-- The `i`-th sample of the buffer, copied as a little-endian 32-bit integer. -/
def loadSample (data : List UInt8) (i : Nat) : BitVec 32 :=
  (data.getD (i * 4 + 3) 0).toBitVec ++ (data.getD (i * 4 + 2) 0).toBitVec ++
    (data.getD (i * 4 + 1) 0).toBitVec ++ (data.getD (i * 4) 0).toBitVec

/-- The four bytes written for one sample: `sample >>= 8`, then its low three bytes. -/
def storeSample (sample : BitVec 32) : List UInt8 :=
  let sample := sample.sshiftRight 8
  [⟨sample.setWidth 8⟩, ⟨(sample.sshiftRight 8).setWidth 8⟩,
    ⟨(sample.sshiftRight 16).setWidth 8⟩, 0]

/-- The conversion loop over `count` samples. -/
def convert (data : List UInt8) (count : Nat) : List UInt8 :=
  (List.range count).flatMap fun i => storeSample (loadSample data i)

/-! ## The callback -/

/-- The format check of the callback. -/
def unsupported (channels rate : Nat) (format : SampleFormat) (samples size : Nat) : Prop :=
  channels ≠ 2 ∨ rate ≠ 48000 ∨ format ≠ .S32LE ∨ samples = 0 ∨ 48000 < samples ∨
    size ≠ samples * 8

instance (channels rate : Nat) (format : SampleFormat) (samples size : Nat) :
    Decidable (unsupported channels rate format samples size) :=
  inferInstanceAs (Decidable (_ ∨ _))

/-- The number of samples per channel a callback takes its buffer to hold. -/
def sampleCount (audio : Option AudioFrame) (data : List UInt8) : Nat :=
  match audio with
  | some a => a.nbSamples
  | none => data.length / 8

/-- The format check with the defaults used when no frame description is attached. -/
def rejects (audio : Option AudioFrame) (data : List UInt8) : Prop :=
  match audio with
  | some a => unsupported a.channels a.sampleRate a.format a.nbSamples data.length
  | none => unsupported 2 48000 .S32LE (data.length / 8) data.length

instance (audio : Option AudioFrame) (data : List UInt8) : Decidable (rejects audio data) := by
  unfold rejects; cases audio <;> infer_instance

/-- The body of the callback once its buffer is accepted. -/
def playSamples (rx : RxAudio) (pts : Nat) (data : List UInt8) (samples : Nat)
    (write : Nat → Int) (prepare : Int) : RxAudio × List QueueEvent :=
  let pendingPts := if rx.audioPendingFrame = [] then pts else rx.audioPendingPts
  let pending := rx.audioPendingFrame ++ convert data (samples * 2)
  let d := drain write prepare pending rx.audioShortTail
  ({ rx with
      audioPendingPts := pendingPts
      audioPendingFrame := d.pending
      audioShortTail := d.shortTail
      audioAcceptedFrames := rx.audioAcceptedFrames + .ofNat d.stats.accepted
      audioAgain := rx.audioAgain + .ofNat d.stats.again
      audioShortWrites := rx.audioShortWrites + .ofNat d.stats.shortWrites
      audioXruns := rx.audioXruns + .ofNat d.stats.xruns
      audioRecoveryErrors := rx.audioRecoveryErrors + .ofNat d.stats.recoveryErrors
      audioQueueDropped := rx.audioQueueDropped + .ofNat d.stats.dropped
      audioPlaybackErrors := rx.audioPlaybackErrors +
        .ofNat (d.stats.errors + d.stats.recoveryErrors) +
        (if d.stats.dropped ≠ 0 then 1 else 0) }, d.log)

/-- `rx_audio_playback`. -/
def rxAudioPlayback (rx : RxAudio) (c : PlaybackCall) : RxAudio × List QueueEvent :=
  if !rx.audioPcm ∨ !rx.audioPcmStarted then (rx, [])
  else
    match c.buf with
    | none => (rx, [])
    | some buf =>
      match buf.data with
      | none => (rx, [])
      | some data =>
        if rejects c.audio data then
          ({ rx with audioUnsupportedPeriods := rx.audioUnsupportedPeriods + 1 }, [])
        else playSamples rx buf.pts data (sampleCount c.audio data) c.write c.prepare

/-- The callbacks of a run, each answering with what happened at the head of the queue. -/
def playback : Machine RxAudio PlaybackCall (List QueueEvent) where
  step := rxAudioPlayback

/-! ## What the conversion computes

The specification side reads the buffer as signed 32-bit integers and writes 24-bit ones,
with integer arithmetic only. -/

/-- The signed value of four little-endian bytes. -/
def s32le (b0 b1 b2 b3 : UInt8) : Int :=
  let n : Nat := b0.toNat + 2 ^ 8 * b1.toNat + 2 ^ 16 * b2.toNat + 2 ^ 24 * b3.toNat
  if n < 2 ^ 31 then (n : Int) else (n : Int) - 2 ^ 32

/-- The samples of an S32LE buffer. -/
def s32leSamples : List UInt8 → List Int
  | b0 :: b1 :: b2 :: b3 :: rest => s32le b0 b1 b2 b3 :: s32leSamples rest
  | _ => []

/-- The S24_LE slot of a sample: the sample shifted right by 8 (rounding down), its low 24
bits little-endian, and a zero byte. -/
def s24leSlot (x : Int) : List UInt8 :=
  let low := (x / 2 ^ 8 % 2 ^ 24).toNat
  [.ofNat (low % 2 ^ 8), .ofNat (low / 2 ^ 8 % 2 ^ 8), .ofNat (low / 2 ^ 16 % 2 ^ 8), 0]

/-- An S32LE buffer converted to S24_LE. -/
def s24le (data : List UInt8) : List UInt8 := (s32leSamples data).flatMap s24leSlot

theorem toNat_append_eq {v w : Nat} (x : BitVec w) (y : BitVec v) :
    (x ++ y).toNat = x.toNat * 2 ^ v + y.toNat := by
  rw [BitVec.toNat_append, ← Nat.shiftLeft_add_eq_or_of_lt y.isLt, Nat.shiftLeft_eq]

theorem loadSample_zero (b0 b1 b2 b3 : UInt8) (rest : List UInt8) :
    (loadSample (b0 :: b1 :: b2 :: b3 :: rest) 0).toInt = s32le b0 b1 b2 b3 := by
  have h3 := b3.toNat_lt
  have hn : (loadSample (b0 :: b1 :: b2 :: b3 :: rest) 0).toNat
      = b0.toNat + 2 ^ 8 * b1.toNat + 2 ^ 16 * b2.toNat + 2 ^ 24 * b3.toNat := by
    simp only [loadSample, toNat_append_eq, List.getD_cons_succ, List.getD_cons_zero,
      Nat.zero_mul, Nat.zero_add, UInt8.toNat_toBitVec]
    omega
  rw [BitVec.toInt_eq_toNat_cond, hn, s32le]
  split <;> split <;> first | rfl | omega

theorem loadSample_succ (b0 b1 b2 b3 : UInt8) (rest : List UInt8) (i : Nat) :
    loadSample (b0 :: b1 :: b2 :: b3 :: rest) (i + 1) = loadSample rest i := by
  have hi : (i + 1) * 4 = i * 4 + 4 := by omega
  simp only [loadSample, hi, List.getD_cons_succ]

/-- The low byte of a bit vector is its signed value modulo 256. -/
theorem lowByte (v : BitVec 32) :
    (⟨v.setWidth 8⟩ : UInt8) = .ofNat (v.toInt % 2 ^ 8).toNat := by
  apply UInt8.toNat_inj.mp
  have hv := v.isLt
  rw [BitVec.toInt_eq_toNat_cond, UInt8.toNat_ofNat']
  show (v.setWidth 8).toNat = _
  rw [BitVec.toNat_setWidth]
  split <;> omega

/-- The bytes of the low 24 bits of a number are bytes of the number. -/
theorem toNat_low_bytes (y : Int) :
    (y % 2 ^ 24).toNat % 2 ^ 8 = (y % 2 ^ 8).toNat ∧
    (y % 2 ^ 24).toNat / 2 ^ 8 % 2 ^ 8 = (y / 2 ^ 8 % 2 ^ 8).toNat ∧
    (y % 2 ^ 24).toNat / 2 ^ 16 % 2 ^ 8 = (y / 2 ^ 16 % 2 ^ 8).toNat := by
  refine ⟨?_, ?_, ?_⟩
  · omega
  · omega
  · omega

theorem storeSample_eq (s : BitVec 32) : storeSample s = s24leSlot s.toInt := by
  obtain ⟨h8, h16, h24⟩ := toNat_low_bytes (s.toInt / 2 ^ 8)
  simp only [storeSample, s24leSlot, lowByte, BitVec.toInt_sshiftRight,
    Int.shiftRight_eq_div_pow, h8, h16, h24]
  rfl

/-- The conversion loop computes the specified conversion. -/
theorem convert_eq (data : List UInt8) (count : Nat) (h : data.length = count * 4) :
    convert data count = s24le data := by
  induction count generalizing data with
  | zero =>
      rw [List.length_eq_zero_iff.mp (by omega : data.length = 0)]
      rfl
  | succ count ih =>
      obtain ⟨b0, b1, b2, b3, rest, rfl⟩ :
          ∃ b0 b1 b2 b3 rest, data = b0 :: b1 :: b2 :: b3 :: rest := by
        match data, h with
        | b0 :: b1 :: b2 :: b3 :: rest, _ => exact ⟨b0, b1, b2, b3, rest, rfl⟩
        | [], h => simp at h
        | [_], h | [_, _], h | [_, _, _], h => simp only [List.length] at h; omega
      have hrest := ih rest (by simp at h; omega)
      rw [convert] at hrest
      rw [convert, List.range_succ_eq_map, List.flatMap_cons, List.flatMap_map, s24le,
        s32leSamples, List.flatMap_cons, storeSample_eq, loadSample_zero]
      simp only [loadSample_succ]
      rw [hrest, s24le]

theorem length_convert (data : List UInt8) (count : Nat) :
    (convert data count).length = 4 * count := by
  induction count with
  | zero => rfl
  | succ count ih =>
      rw [convert] at ih ⊢
      rw [List.range_succ, List.flatMap_append, List.length_append, ih]
      simp [storeSample]
      omega

theorem length_s24le (data : List UInt8) (count : Nat) (h : data.length = count * 4) :
    (s24le data).length = data.length := by
  rw [← convert_eq data count h, length_convert, h, Nat.mul_comm]

/-! ## A run of callbacks -/

/-- The bytes a callback delivers. -/
def PlaybackCall.input (c : PlaybackCall) : List UInt8 := (c.buf.bind Buffer.data).getD []

/-- The callback carries a buffer that the function accepts. -/
def PlaybackCall.Accepted (c : PlaybackCall) : Prop :=
  ∃ buf data, c.buf = some buf ∧ buf.data = some data ∧ ¬ rejects c.audio data

/-- The frames received by the callbacks of a run. -/
def receivedFrames (es : List PlaybackCall) : Nat :=
  (es.map fun c => c.input.length / frameBytes).sum

theorem length_of_accepted {audio : Option AudioFrame} {data : List UInt8}
    (h : ¬ rejects audio data) : data.length = sampleCount audio data * 8 := by
  cases audio with
  | none => simp only [rejects, unsupported, not_or, not_not] at h; exact h.2.2.2.2.2
  | some a => simp only [rejects, unsupported, not_or, not_not] at h; exact h.2.2.2.2.2

/-- The bytes that left the queue are the counted frames, when none left in parts. -/
theorem length_departed (log : List QueueEvent)
    (h : ∀ e ∈ log, frameBytes ∣ e.departed.length) :
    (log.flatMap QueueEvent.departed).length
      = frameBytes * (acceptedFrames log + droppedFrames log) := by
  induction log with
  | nil => rfl
  | cons e log ih =>
      have he : frameBytes ∣ e.departed.length := h e (by simp)
      have ihl := ih (fun a ha => h a (by simp [ha]))
      have hone : e.departed.length
          = frameBytes * (e.accepted.length / frameBytes + e.dropped.length / frameBytes) := by
        obtain ⟨k, hk⟩ := he
        cases e with
        | overflow bytes =>
            simp only [QueueEvent.departed, QueueEvent.accepted, QueueEvent.dropped,
              List.nil_append, List.length_nil, frameBytes] at hk ⊢
            omega
        | write offered requested written =>
            simp only [QueueEvent.departed, QueueEvent.dropped, List.append_nil,
              List.length_nil, frameBytes] at hk ⊢
            omega
        | prepare result =>
            simp [QueueEvent.departed, QueueEvent.accepted, QueueEvent.dropped]
      rw [List.flatMap_cons, List.length_append, ihl, hone]
      simp only [acceptedFrames, droppedFrames, List.map_cons, List.sum_cons]
      ring

/-- **The invariant of a run**: what left the queue since `rx₀`, followed by the pending
bytes, is what the callbacks received, converted; and the counters moved by the frames that
left. -/
structure Delivered (rx₀ : RxAudio) (es : List PlaybackCall) (rx : RxAudio) : Prop where
  opened : rx.audioPcm = true ∧ rx.audioPcmStarted = true
  bytes : (playback.outputs rx₀ es).flatten.flatMap QueueEvent.departed ++ rx.audioPendingFrame
    = es.flatMap fun c => s24le c.input
  whole : ∀ e ∈ (playback.outputs rx₀ es).flatten, frameBytes ∣ e.departed.length
  aligned : frameBytes ∣ rx.audioPendingFrame.length
  accepted : rx.audioAcceptedFrames
    = rx₀.audioAcceptedFrames + .ofNat (acceptedFrames (playback.outputs rx₀ es).flatten)
  dropped : rx.audioQueueDropped
    = rx₀.audioQueueDropped + .ofNat (droppedFrames (playback.outputs rx₀ es).flatten)

/-- An accepted callback runs the body on its samples. -/
theorem rxAudioPlayback_of_accepted {rx : RxAudio} {c : PlaybackCall}
    (hopen : rx.audioPcm = true ∧ rx.audioPcmStarted = true) (hc : c.Accepted) :
    ∃ pts, ∃ samples, c.input.length = samples * 8 ∧
      rxAudioPlayback rx c = playSamples rx pts c.input samples c.write c.prepare := by
  obtain ⟨buf, data, hb, hd, hacc⟩ := hc
  have hin : c.input = data := by simp [PlaybackCall.input, hb, hd]
  refine ⟨buf.pts, sampleCount c.audio data, ?_, ?_⟩
  · rw [hin]; exact length_of_accepted hacc
  · simp [rxAudioPlayback, hopen.1, hopen.2, hb, hd, hacc, hin]

/-- The step lemma: one more accepted callback keeps the invariant. -/
theorem Delivered.step {rx₀ rx : RxAudio} {es : List PlaybackCall} {c : PlaybackCall}
    (h : Delivered rx₀ es rx) (hrx : rx = playback.run rx₀ es) (hc : c.Accepted) :
    Delivered rx₀ (es ++ [c]) (playback.step rx c).1 := by
  obtain ⟨pts, samples, hlen, hstep⟩ := rxAudioPlayback_of_accepted h.opened hc
  have hlen4 : c.input.length = samples * 2 * 4 := by omega
  have hconv : convert c.input (samples * 2) = s24le c.input := convert_eq _ _ hlen4
  have hal : frameBytes ∣ (rx.audioPendingFrame ++ convert c.input (samples * 2)).length := by
    rw [List.length_append, length_convert]
    exact Nat.dvd_add h.aligned ⟨samples, by simp only [frameBytes]; omega⟩
  have hd := drain_conserves c.write c.prepare _ rx.audioShortTail hal
  set d := drain c.write c.prepare (rx.audioPendingFrame ++ convert c.input (samples * 2))
    rx.audioShortTail with hdef
  have hs : playback.step rx c = playSamples rx pts c.input samples c.write c.prepare := hstep
  have hlog : (playback.outputs rx₀ (es ++ [c])).flatten
      = (playback.outputs rx₀ es).flatten ++ d.log := by
    rw [Machine.outputs_snoc, List.flatten_append, ← hrx, hs]
    simp [playSamples, ← hdef]
  refine ⟨?_, ?_, ?_, ?_, ?_, ?_⟩
  · rw [hs]; exact h.opened
  · -- The bytes pending before the callback were all that was left of the earlier input.
    rw [hlog, hs, List.flatMap_append, List.append_assoc]
    simp only [playSamples, ← hdef]
    rw [hd.bytes, hconv, ← List.append_assoc, h.bytes, List.flatMap_append,
      List.flatMap_singleton]
  · intro e he
    rw [hlog, List.mem_append] at he
    exact he.elim (h.whole e) (hd.whole e)
  · rw [hs]; exact hd.aligned
  · rw [hlog, hs, acceptedFrames_append, UInt64.ofNat_add, ← UInt64.add_assoc, ← h.accepted]
    simp only [playSamples, ← hdef, hd.accepted]
  · rw [hlog, hs, droppedFrames_append, UInt64.ofNat_add, ← UInt64.add_assoc, ← h.dropped]
    simp only [playSamples, ← hdef, hd.dropped]

theorem delivered_run (rx₀ : RxAudio)
    (hopen : rx₀.audioPcm = true ∧ rx₀.audioPcmStarted = true)
    (hempty : rx₀.audioPendingFrame = []) (es : List PlaybackCall)
    (hes : ∀ c ∈ es, c.Accepted) : Delivered rx₀ es (playback.run rx₀ es) := by
  refine playback.history_inv rx₀ (fun _ c => c.Accepted) (Delivered rx₀) ?_ ?_ es ?_
  · exact ⟨hopen, by simp [hempty], by simp, by simp [hempty], by simp, by simp⟩
  · intro es c h hc
    exact h.step rfl hc
  · intro p c q hpq
    exact hes c (by simp [hpq])

/-- The frames received over a run left the queue or are still pending. -/
theorem Delivered.frames {rx₀ rx : RxAudio} {es : List PlaybackCall} (h : Delivered rx₀ es rx)
    (hes : ∀ c ∈ es, c.Accepted) :
    receivedFrames es = acceptedFrames (playback.outputs rx₀ es).flatten +
      droppedFrames (playback.outputs rx₀ es).flatten +
      rx.audioPendingFrame.length / frameBytes := by
  have hrec : (es.flatMap fun c => s24le c.input).length = frameBytes * receivedFrames es := by
    clear h
    induction es with
    | nil => rfl
    | cons c es ih =>
        obtain ⟨buf, data, hb, hd, hacc⟩ := hes c (by simp)
        have hin : c.input = data := by simp [PlaybackCall.input, hb, hd]
        have hlen := length_of_accepted hacc
        have hs := length_s24le data (sampleCount c.audio data * 2) (by omega)
        rw [List.flatMap_cons, List.length_append, ih (fun a ha => hes a (by simp [ha])), hin, hs]
        simp only [receivedFrames, List.map_cons, List.sum_cons, hin, frameBytes]
        omega
  have hlen := congrArg List.length h.bytes
  rw [List.length_append, length_departed _ h.whole, hrec] at hlen
  obtain ⟨k, hk⟩ := h.aligned
  simp only [frameBytes] at hlen hk ⊢
  omega

/-- **No frame is lost, repeated, reordered or split.** Over every run of accepted callbacks
that starts with an open PCM and an empty queue, whatever the PCM calls return, the bytes
that left the head of the queue followed by the pending ones are the received buffers
converted to S24_LE; everything leaves in whole frames; and the received frames are the
accepted, the dropped and the pending ones, both as numbers and in the 64-bit counters. -/
theorem playback_conserves (rx₀ : RxAudio)
    (hopen : rx₀.audioPcm = true ∧ rx₀.audioPcmStarted = true)
    (hempty : rx₀.audioPendingFrame = []) (es : List PlaybackCall)
    (hes : ∀ c ∈ es, c.Accepted) :
    let rx := playback.run rx₀ es
    let log := (playback.outputs rx₀ es).flatten
    log.flatMap QueueEvent.departed ++ rx.audioPendingFrame
        = (es.flatMap fun c => s24le c.input) ∧
      (∀ e ∈ log, frameBytes ∣ e.departed.length) ∧
      frameBytes ∣ rx.audioPendingFrame.length ∧
      receivedFrames es = acceptedFrames log + droppedFrames log +
        rx.audioPendingFrame.length / frameBytes ∧
      rx.audioAcceptedFrames = rx₀.audioAcceptedFrames + .ofNat (acceptedFrames log) ∧
      rx.audioQueueDropped = rx₀.audioQueueDropped + .ofNat (droppedFrames log) := by
  have h := delivered_run rx₀ hopen hempty es hes
  exact ⟨h.bytes, h.whole, h.aligned, h.frames hes, h.accepted, h.dropped⟩

/-- One period of 960 frames, of which the PCM takes 240 before it is full. -/
def shortWriteCall : PlaybackCall where
  buf := some ⟨some (List.replicate 7680 1), 0⟩
  audio := none
  write := fun k => if k = 0 then 240 else -EAGAIN
  prepare := 0

theorem playback_conserves_shortWrite :
    let rx₀ : RxAudio := { audioPcm := true, audioPcmStarted := true }
    let rx := playback.run rx₀ [shortWriteCall]
    let log := (playback.outputs rx₀ [shortWriteCall]).flatten
    log.flatMap QueueEvent.departed ++ rx.audioPendingFrame = s24le shortWriteCall.input ∧
      960 = acceptedFrames log + droppedFrames log + rx.audioPendingFrame.length / frameBytes := by
  have hacc : ∀ c ∈ [shortWriteCall], c.Accepted := by
    intro c hc
    rw [List.mem_singleton.mp hc]
    refine ⟨_, List.replicate 7680 1, rfl, rfl, ?_⟩
    show ¬ unsupported 2 48000 .S32LE _ _
    rw [List.length_replicate]
    decide
  have h := playback_conserves { audioPcm := true, audioPcmStarted := true } ⟨rfl, rfl⟩ rfl
    [shortWriteCall] hacc
  have hrec : receivedFrames [shortWriteCall] = 960 := by
    simp [-List.reduceReplicate, receivedFrames, PlaybackCall.input, shortWriteCall, frameBytes]
  refine ⟨by simpa using h.1, ?_⟩
  rw [← hrec]
  exact h.2.2.2.1

end QcapDemos.Pcm

import QcapDemos.Tx.OnDmx

set_option autoImplicit false

/-! # Captured audio on its way to the sender

`OnAsrc` copies each captured buffer and describes the copy by the properties of the frame, with
those of the source where the frame leaves them open. The bytes of a sample come from the bits per
sample, the sample format from whether these are 32: the format has no third value for 24.
-/

namespace QcapDemos.Tx

/-- What `zst_dante_tx_t` keeps for the audio. The first three are `uint32_t`; the counters do not
wrap in a run. -/
structure AudioTx where
  audioChannels : Nat
  audioSampleRate : Nat
  audioBits : Nat
  txAudioFrames : Nat := 0
  txAudioBytes : Nat := 0
  txAudioSamples : Nat := 0

/-- The audio properties that `StartDanteServer` sets. -/
def AudioTx.start (p : AudioProperty) : AudioTx :=
  { audioChannels := (if p.channels ≠ 0 then p.channels else 2).toNat
    audioSampleRate := (if p.sampleFrequency ≠ 0 then p.sampleFrequency else 48000).toNat
    audioBits := (if p.bitsPerSample ≠ 0 then p.bitsPerSample else 16).toNat }

/-- A captured frame: its buffer, the stride, which is an `int`, and the properties, each a `ULONG`.
-/
structure AvFrame where
  pFrameBuffer : Option (List UInt8)
  nFrameBufferStride : Int
  nChannels : Nat
  nSampleFmt : Nat
  nSampleFrequency : Nat
  nFrameSamples : Nat

/-- The values of `ZST_AUDIO_FMT_*` that `OnAsrc` uses. -/
inductive AudioFmt where
  | s16le
  | s32le
deriving DecidableEq

/-- The bytes of a sample. -/
def AudioFmt.bytes : AudioFmt → Nat
  | .s16le => 2
  | .s32le => 4

/-- A `zst_audio_frame_t`, whose data are the memory of the buffer that it is the payload of. -/
structure ZstAudioFrame where
  sampleRate : Nat
  channels : Nat
  format : AudioFmt
  nbSamples : Nat

/-- A `zst_buffer_t` with its payload. The time stamps, which the description does not rest on,
are left out. -/
structure ZstBuffer where
  memoryData : List UInt8
  memorySize : Nat
  payload : ZstAudioFrame

/-- What a call of `OnAsrc` meets: the frame that it pops, if any; whether the encoder takes it;
whether the audio goes to a sender of the other library; whether there is a pad; and whether the
buffer and its memory can be allocated. -/
structure AsrcCalls where
  frame : Option AvFrame
  encoded : Bool
  qcapSender : Bool
  pad : Bool
  created : Bool
  allocated : Bool

/-- The number of channels that `OnAsrc` goes by. -/
def AudioTx.channelsOf (tx : AudioTx) (av : AvFrame) : Nat :=
  if av.nChannels ≠ 0 then av.nChannels % 2 ^ 32
  else if tx.audioChannels ≠ 0 then tx.audioChannels else 2

def AudioTx.sampleRateOf (tx : AudioTx) (av : AvFrame) : Nat :=
  if av.nSampleFrequency ≠ 0 then av.nSampleFrequency % 2 ^ 32
  else if tx.audioSampleRate ≠ 0 then tx.audioSampleRate else 48000

def AudioTx.sampleBytes (tx : AudioTx) : Nat := if tx.audioBits > 0 then tx.audioBits / 8 else 2

/-- The bytes to copy: the stride as a `size_t`, or what the number of samples makes. -/
def AudioTx.lengthOf (tx : AudioTx) (av : AvFrame) : Nat :=
  let nFrameBufferLen := (av.nFrameBufferStride % 2 ^ 64).toNat
  if nFrameBufferLen = 0 ∧ av.nFrameSamples > 0 then
    av.nFrameSamples * tx.channelsOf av * tx.sampleBytes % 2 ^ 64
  else nFrameBufferLen

/-- The description of `len` bytes. -/
def AudioTx.describe (tx : AudioTx) (av : AvFrame) (len : Nat) : ZstAudioFrame :=
  let bytesPerSample := tx.channelsOf av * tx.sampleBytes % 2 ^ 32
  { sampleRate := tx.sampleRateOf av
    channels := tx.channelsOf av
    format := if tx.audioBits = 32 then .s32le else .s16le
    nbSamples :=
      if bytesPerSample > 0 then len / bytesPerSample % 2 ^ 32 else av.nFrameSamples % 2 ^ 32 }

/-- The buffer that a frame is sent in. -/
def AudioTx.wrap (tx : AudioTx) (av : AvFrame) (bytes : List UInt8) : ZstBuffer :=
  { memoryData := bytes.take (tx.lengthOf av)
    memorySize := tx.lengthOf av
    payload := tx.describe av (tx.lengthOf av) }

/-- The buffer that `OnAsrc` pushes, unless it gives up before. -/
def pushedBuffer (calls : AsrcCalls) (tx : AudioTx) : Option ZstBuffer := do
  let av ← calls.frame
  guard (calls.encoded && !calls.qcapSender && calls.pad)
  let bytes ← av.pFrameBuffer
  guard (tx.lengthOf av > 0 && calls.created && calls.allocated)
  pure (tx.wrap av bytes)

def AudioTx.count (tx : AudioTx) (zbuf : ZstBuffer) : AudioTx :=
  { tx with
    txAudioFrames := tx.txAudioFrames + 1
    txAudioBytes := tx.txAudioBytes + zbuf.memorySize
    txAudioSamples := tx.txAudioSamples + zbuf.payload.nbSamples }

/-- `OnAsrc`, with the buffer that it pushes. -/
def onAsrc (calls : AsrcCalls) (tx : AudioTx) : AudioTx × Option ZstBuffer :=
  ((pushedBuffer calls tx).elim tx tx.count, pushedBuffer calls tx)

/-- The sender after a run of calls. -/
def afterAsrc (p : AudioProperty) (calls : List AsrcCalls) : AudioTx :=
  calls.foldl (fun tx c => (onAsrc c tx).1) (AudioTx.start p)

/-! ## A whole number of sample frames -/

/-- The channels of a captured frame: its own, or those of the source. -/
def AvFrame.channels (av : AvFrame) (p : AudioProperty) : Nat :=
  if av.nChannels ≠ 0 then av.nChannels
  else if p.channels ≠ 0 then p.channels.toNat else 2

/-- The frame holds `n` sample frames. Its stride says how many bytes they are, or else its number
of samples how many they are; the length of a frame is an `int`. -/
structure AvFrame.Holds (av : AvFrame) (p : AudioProperty) (n : Nat) : Prop where
  length : av.nFrameBufferStride = (n * av.channels p * (p.bitsPerSample.toNat / 8) : Nat) ∧
      0 < av.nFrameBufferStride ∨
    av.nFrameBufferStride = 0 ∧ av.nFrameSamples = n
  fits : n * av.channels p * (p.bitsPerSample.toNat / 8) < 2 ^ 31
  bytes : ∀ bytes, av.pFrameBuffer = some bytes →
    bytes.length = n * av.channels p * (p.bitsPerSample.toNat / 8)

/-- The description says how many sample frames there are, and accounts for all of the memory. -/
structure Describes (n : Nat) (zbuf : ZstBuffer) : Prop where
  size : zbuf.payload.nbSamples * zbuf.payload.channels * zbuf.payload.format.bytes
    = zbuf.memorySize
  count : zbuf.payload.nbSamples = n

section Describe

variable {p : AudioProperty} {tx : AudioTx} {av : AvFrame} {n : Nat}

/-- The counters are all that a call changes. -/
theorem onAsrc_audio (calls : AsrcCalls) (tx : AudioTx) :
    (onAsrc calls tx).1.audioChannels = tx.audioChannels ∧
      (onAsrc calls tx).1.audioBits = tx.audioBits := by
  unfold onAsrc
  cases pushedBuffer calls tx with
  | none => exact ⟨rfl, rfl⟩
  | some zbuf => exact ⟨rfl, rfl⟩

theorem foldl_onAsrc_audio (calls : List AsrcCalls) (tx : AudioTx) :
    (calls.foldl (fun tx c => (onAsrc c tx).1) tx).audioChannels = tx.audioChannels ∧
      (calls.foldl (fun tx c => (onAsrc c tx).1) tx).audioBits = tx.audioBits := by
  induction calls generalizing tx with
  | nil => exact ⟨rfl, rfl⟩
  | cons c calls ih =>
      obtain ⟨hchannels, hbits⟩ := onAsrc_audio c tx
      obtain ⟨hchannels', hbits'⟩ := ih (onAsrc c tx).1
      exact ⟨hchannels'.trans hchannels, hbits'.trans hbits⟩

/-- What is pushed is a frame that has bytes, wrapped. -/
theorem pushedBuffer_eq_some {calls : AsrcCalls} {zbuf : ZstBuffer}
    (hframe : calls.frame = some av) :
    pushedBuffer calls tx = some zbuf ↔
      (calls.encoded && !calls.qcapSender && calls.pad) = true ∧
      ∃ bytes, av.pFrameBuffer = some bytes ∧
        (tx.lengthOf av > 0 && calls.created && calls.allocated) = true ∧
        tx.wrap av bytes = zbuf := by
  unfold pushedBuffer
  simp [hframe, guard, Option.bind_eq_some_iff, and_assoc]

/-- A sender that still has the properties of its source. -/
structure Keeps (p : AudioProperty) (tx : AudioTx) : Prop where
  channels : tx.audioChannels = (AudioTx.start p).audioChannels
  bits : tx.audioBits = (AudioTx.start p).audioBits

theorem keeps_afterAsrc (p : AudioProperty) (history : List AsrcCalls) :
    Keeps p (afterAsrc p history) :=
  ⟨(foldl_onAsrc_audio history _).1, (foldl_onAsrc_audio history _).2⟩

theorem Keeps.audioBits_eq (h : Keeps p tx) (hbits : 0 < p.bitsPerSample.toNat) :
    tx.audioBits = p.bitsPerSample.toNat := by
  have hne : p.bitsPerSample ≠ 0 := by
    intro hzero
    rw [hzero] at hbits
    exact absurd hbits (by decide)
  rw [h.bits, AudioTx.start, if_pos hne]

theorem Keeps.sampleBytes_eq (h : Keeps p tx) (hbits : 0 < p.bitsPerSample.toNat) :
    tx.sampleBytes = p.bitsPerSample.toNat / 8 := by
  rw [AudioTx.sampleBytes, h.audioBits_eq hbits, if_pos hbits]

/-- The channels of the source, where the frame does not say. -/
theorem Keeps.audioChannels_eq (h : Keeps p tx) :
    (if tx.audioChannels ≠ 0 then tx.audioChannels else 2)
      = if p.channels ≠ 0 then p.channels.toNat else 2 := by
  rw [h.channels, AudioTx.start]
  by_cases hzero : p.channels = 0
  · simp [hzero]
  · have hnat : p.channels.toNat ≠ 0 := fun h => hzero (UInt32.toNat_inj.mp h)
    simp [hzero, hnat]

theorem AvFrame.channels_pos (av : AvFrame) (p : AudioProperty) : 0 < av.channels p := by
  unfold AvFrame.channels
  split_ifs with hown hsource
  · exact Nat.pos_of_ne_zero hown
  · exact Nat.pos_of_ne_zero fun h => hsource (UInt32.toNat_inj.mp h)
  · decide

/-- One sample frame is not longer than the frame. -/
theorem AvFrame.Holds.sampleFrame_lt (h : av.Holds p n) (hn : 0 < n) :
    av.channels p * (p.bitsPerSample.toNat / 8) < 2 ^ 31 := by
  have hfits := h.fits
  rw [Nat.mul_assoc] at hfits
  exact (Nat.le_mul_of_pos_left _ hn).trans_lt hfits

/-- A frame that is not empty is described with its channels. -/
theorem AvFrame.Holds.channelsOf_eq (h : av.Holds p n) (hkeeps : Keeps p tx) (hn : 0 < n)
    (hbits : 8 ≤ p.bitsPerSample.toNat) : tx.channelsOf av = av.channels p := by
  have hlt := h.sampleFrame_lt hn
  have hle : av.channels p ≤ av.channels p * (p.bitsPerSample.toNat / 8) :=
    Nat.le_mul_of_pos_right _ (by omega)
  unfold AudioTx.channelsOf
  by_cases hzero : av.nChannels = 0
  · rw [if_neg (not_not.mpr hzero), hkeeps.audioChannels_eq, AvFrame.channels,
      if_neg (not_not.mpr hzero)]
  · have hown : av.channels p = av.nChannels := if_pos hzero
    rw [if_pos hzero, hown, Nat.mod_eq_of_lt (by omega)]

/-- The bytes that are copied are those of the sample frames. -/
theorem AvFrame.Holds.lengthOf_eq (h : av.Holds p n) (hkeeps : Keeps p tx)
    (hbits : 8 ≤ p.bitsPerSample.toNat) :
    tx.lengthOf av = n * av.channels p * (p.bitsPerSample.toNat / 8) := by
  have hfits := h.fits
  unfold AudioTx.lengthOf
  rcases h.length with ⟨hstride, hpos⟩ | ⟨hstride, hsamples⟩
  · have hmod : (av.nFrameBufferStride % 2 ^ 64).toNat
        = n * av.channels p * (p.bitsPerSample.toNat / 8) := by
      rw [Int.emod_eq_of_lt hpos.le (by omega), hstride, Int.toNat_natCast]
    simp only [hmod]
    rw [if_neg (by omega)]
  · simp only [hstride, hsamples, hkeeps.sampleBytes_eq (by omega)]
    rcases Nat.eq_zero_or_pos n with rfl | hn
    · simp
    · rw [h.channelsOf_eq hkeeps hn hbits, if_pos ⟨rfl, hn⟩, Nat.mod_eq_of_lt (by omega)]

/-- The number of sample frames is right, however the bytes of a sample are tagged. -/
theorem AvFrame.Holds.nbSamples_eq (h : av.Holds p n) (hkeeps : Keeps p tx) (hn : 0 < n)
    (hbits : 8 ≤ p.bitsPerSample.toNat) :
    (tx.describe av (tx.lengthOf av)).nbSamples = n := by
  have hfits := h.fits
  have hlt := h.sampleFrame_lt hn
  have hpos : 0 < av.channels p * (p.bitsPerSample.toNat / 8) :=
    Nat.mul_pos (av.channels_pos p) (by omega)
  have hle : n ≤ n * av.channels p * (p.bitsPerSample.toNat / 8) := by
    rw [Nat.mul_assoc]
    exact Nat.le_mul_of_pos_right _ hpos
  rw [h.lengthOf_eq hkeeps hbits]
  unfold AudioTx.describe
  simp only [h.channelsOf_eq hkeeps hn hbits, hkeeps.sampleBytes_eq (show 0 < _ by omega)]
  rw [Nat.mod_eq_of_lt (by omega), if_pos hpos, Nat.mul_assoc, Nat.mul_div_cancel _ hpos,
    Nat.mod_eq_of_lt (by omega)]

/-- A frame that is not empty is described truthfully exactly if its format has samples of as many
bytes as it has. -/
theorem AvFrame.Holds.describes_iff (h : av.Holds p n) (hkeeps : Keeps p tx) (hn : 0 < n)
    (hbits : 8 ≤ p.bitsPerSample.toNat) (bytes : List UInt8) :
    Describes n (tx.wrap av bytes) ↔
      (if p.bitsPerSample.toNat = 32 then AudioFmt.s32le else .s16le).bytes
        = p.bitsPerSample.toNat / 8 := by
  have hcount : (tx.wrap av bytes).payload.nbSamples = n := h.nbSamples_eq hkeeps hn hbits
  have hchannels : (tx.wrap av bytes).payload.channels = av.channels p :=
    h.channelsOf_eq hkeeps hn hbits
  have hsize : (tx.wrap av bytes).memorySize = n * av.channels p * (p.bitsPerSample.toNat / 8) :=
    h.lengthOf_eq hkeeps hbits
  have hformat : (tx.wrap av bytes).payload.format
      = if p.bitsPerSample.toNat = 32 then .s32le else .s16le := by
    rw [← hkeeps.audioBits_eq (by omega)]
    rfl
  have hpos : 0 < n * av.channels p := Nat.mul_pos hn (av.channels_pos p)
  constructor
  · intro hdesc
    have heq := hdesc.size
    rw [hcount, hchannels, hsize, hformat] at heq
    exact Nat.eq_of_mul_eq_mul_left hpos heq
  · intro heq
    refine ⟨?_, hcount⟩
    rw [hcount, hchannels, hsize, hformat, heq]

end Describe

/-- **The description is truthful exactly if the samples do not have 24 bits.** -/
theorem describes_onAsrc_iff {p : AudioProperty} {av : AvFrame} {n : Nat}
    (hbits : p.bitsPerSample = 16 ∨ p.bitsPerSample = 24 ∨ p.bitsPerSample = 32)
    (h : av.Holds p n) :
    (∀ (history : List AsrcCalls) (calls : AsrcCalls) (zbuf : ZstBuffer),
      calls.frame = some av → (onAsrc calls (afterAsrc p history)).2 = some zbuf →
      Describes n zbuf) ↔
    (p.bitsPerSample = 24 → n = 0 ∨ av.pFrameBuffer = none) := by
  have hnat : 8 ≤ p.bitsPerSample.toNat := by
    rcases hbits with heq | heq | heq <;> rw [heq] <;> decide
  have hlength (history : List AsrcCalls) := h.lengthOf_eq (keeps_afterAsrc p history) hnat
  constructor
  · intro hall h24
    by_contra hnot
    rw [not_or] at hnot
    obtain ⟨bytes, hbuffer⟩ := Option.ne_none_iff_exists'.mp hnot.2
    have hn := Nat.pos_of_ne_zero hnot.1
    -- the first call, where everything succeeds
    have hpos : 0 < (afterAsrc p []).lengthOf av := by
      rw [hlength]
      exact Nat.mul_pos (Nat.mul_pos hn (av.channels_pos p)) (by omega)
    have hdesc := hall [] ⟨some av, true, false, true, true, true⟩ _ rfl
      ((pushedBuffer_eq_some rfl).mpr ⟨rfl, bytes, hbuffer, by simp [hpos], rfl⟩)
    rw [h.describes_iff (keeps_afterAsrc p []) hn hnat, h24] at hdesc
    exact absurd hdesc (by decide)
  · intro hcond history calls zbuf hframe hpushed
    obtain ⟨-, bytes, hbuffer, hsome, rfl⟩ := (pushedBuffer_eq_some hframe).mp hpushed
    simp only [Bool.and_eq_true, decide_eq_true_eq, gt_iff_lt, hlength] at hsome
    have hn : 0 < n := by
      rcases Nat.eq_zero_or_pos n with rfl | hn
      · simp at hsome
      · exact hn
    rw [h.describes_iff (keeps_afterAsrc p history) hn hnat]
    rcases hbits with heq | heq | heq
    · rw [heq]
      decide
    · rcases hcond heq with hzero | hnone
      · omega
      · rw [hnone] at hbuffer
        cases hbuffer
    · rw [heq]
      decide

/-- A stereo source of a width in bits. -/
def stereo (bits : UInt32) : AudioProperty :=
  { channels := 2, bitsPerSample := bits, sampleFrequency := 48000 }

/-- Two silent stereo sample frames, of `len` bytes. -/
def silence (len : Nat) : AvFrame :=
  { pFrameBuffer := some (List.replicate len 0)
    nFrameBufferStride := len
    nChannels := 2
    nSampleFmt := 0
    nSampleFrequency := 48000
    nFrameSamples := 2 }

theorem holds_silence {bits : UInt32} {len : Nat}
    (hlen : len = 2 * 2 * (bits.toNat / 8)) (hpos : 0 < len) (hlt : len < 2 ^ 31) :
    (silence len).Holds (stereo bits) 2 := by
  have hchannels : (silence len).channels (stereo bits) = 2 := rfl
  have hbits : (stereo bits).bitsPerSample = bits := rfl
  refine ⟨.inl ⟨?_, ?_⟩, ?_, fun bytes hbytes => ?_⟩
  · rw [hchannels, hbits, ← hlen]
    rfl
  · show (0 : Int) < len
    omega
  · rw [hchannels, hbits, ← hlen]
    exact hlt
  · obtain rfl := Option.some.inj hbytes
    rw [hchannels, hbits, ← hlen, List.length_replicate]

theorem describes_onAsrc_iff_sixteen :
    (∀ (history : List AsrcCalls) (calls : AsrcCalls) (zbuf : ZstBuffer),
      calls.frame = some (silence 8) →
      (onAsrc calls (afterAsrc (stereo 16) history)).2 = some zbuf → Describes 2 zbuf) ↔
    ((stereo 16).bitsPerSample = 24 → 2 = 0 ∨ (silence 8).pFrameBuffer = none) :=
  describes_onAsrc_iff (.inl rfl) (holds_silence (by decide) (by decide) (by decide))

/-- Samples of three bytes are tagged as samples of two. -/
theorem not_describes :
    ¬ ∀ (p : AudioProperty) (av : AvFrame) (n : Nat) (history : List AsrcCalls)
        (calls : AsrcCalls) (zbuf : ZstBuffer),
      p.bitsPerSample = 16 ∨ p.bitsPerSample = 24 ∨ p.bitsPerSample = 32 → av.Holds p n →
      calls.frame = some av → (onAsrc calls (afterAsrc p history)).2 = some zbuf →
      Describes n zbuf := by
  intro h
  have hdesc := h (stereo 24) (silence 12) 2 [] ⟨some (silence 12), true, false, true, true, true⟩
    ((AudioTx.start (stereo 24)).wrap (silence 12) (List.replicate 12 0)) (.inr (.inl rfl))
    (holds_silence (by decide) (by decide) (by decide)) rfl rfl
  exact absurd hdesc.size (by decide)

end QcapDemos.Tx

import QcapDemos.Lib.Run
import QcapDemos.Tx.Teardown

set_option autoImplicit false

/-! # What the TX publishes and what it produces

The video format is published once the video source and encoder run, and the audio info once
the audio source and encoder run. An event that gives up before has stopped the previous
stream, but it leaves what was published of it. A client that reads again at each signal has
the published values in any case.
-/

namespace QcapDemos.Tx

open QcapDemos.Lib QcapDemos.Lib.Script QcapDemos.Lib.World

def txMachine (cfg : TxConfig) : Machine TxState DmxEvent Unit where
  step tx e := (onDmx cfg tx e, ())

/-! ## What is published about a state -/

/-- The source and the encoder were given the published format. An interleaved source delivers
fields, of half the height. -/
structure Matches (format : VideoFormat) (source : SourceFormat) (encoder : VideoProperty) :
    Prop where
  sourceWidth : source.width = format.width
  sourceHeight : source.height = if format.interlaced then format.height / 2 else format.height
  sourceInterleaved : source.interleaved = format.interlaced
  sourceFrameRate : truncate source.frameRate = format.framerate
  width : encoder.width = format.width
  height : encoder.height = format.height
  frameRate : truncate encoder.frameRate = format.framerate

structure AudioMatches (info : AudioInfo) (encoder : AudioProperty) : Prop where
  channels : encoder.channels = info.channelCount
  bitsPerSample : encoder.bitsPerSample = info.sampleBits
  sampleFrequency : encoder.sampleFrequency = info.sampleRate

/-- A published lock is that of a running source and encoder. -/
def VideoTruthful (tx : TxState) : Prop :=
  tx.currentVideoFormat.locked = true →
    Runs tx.actions .vsrc = true ∧ Runs tx.actions .venc = true ∧
    ∃ source encoder, tx.vsrcFormat = some source ∧ tx.vencProperty = some encoder ∧
      Matches tx.currentVideoFormat source encoder

def AudioTruthful (tx : TxState) : Prop :=
  tx.currentAudioInfo ≠ .zero →
    Runs tx.actions .asrc = true ∧ Runs tx.actions .aenc = true ∧
    ∃ encoder, tx.aencProperty = some encoder ∧ AudioMatches tx.currentAudioInfo encoder

/-- The client has the published values. Before the first publication there was no signal. -/
structure Informed (cfg : TxConfig) (tx : TxState) : Prop where
  cable : cfg.service = true → tx.havePublishedVideoState = true →
    tx.client.cable = some tx.currentVideoFormat.locked
  video : cfg.service = true → tx.havePublishedVideoState = true →
    tx.client.video = some tx.currentVideoFormat
  audio : cfg.service = true → tx.havePublishedAudioState = true →
    tx.client.audio = some tx.currentAudioInfo

structure Truthful (cfg : TxConfig) (tx : TxState) : Prop where
  video : VideoTruthful tx
  audio : AudioTruthful tx
  informed : Informed cfg tx

/-! ## The client -/

theorem informed_initial (cfg : TxConfig) : Informed cfg .initial := by
  refine ⟨fun _ h => ?_, fun _ h => ?_, fun _ h => ?_⟩ <;> cases h

/-- Each value is signalled where it changes, and the first time. -/
theorem informed_publishVideo {cfg : TxConfig} {tx : TxState} (h : Informed cfg tx)
    (format : VideoFormat) : Informed cfg (tx.publishVideo cfg format) := by
  rw [TxState.publishVideo_eq]
  refine ⟨fun hservice _ => ?_, fun hservice _ => ?_, h.audio⟩
  · dsimp only
    split
    · rfl
    · next hsame =>
      have hpub : tx.havePublishedVideoState = true ∧
          tx.currentVideoFormat.locked = format.locked := by
        simpa [hservice] using hsame
      rw [h.cable hservice hpub.1, hpub.2]
  · dsimp only
    split
    · rfl
    · next hsame =>
      have hpub : tx.havePublishedVideoState = true ∧ tx.currentVideoFormat = format := by
        simpa [hservice] using hsame
      rw [h.video hservice hpub.1, hpub.2]

theorem informed_publishAudio {cfg : TxConfig} {tx : TxState} (h : Informed cfg tx)
    (info : AudioInfo) : Informed cfg (tx.publishAudio cfg info) := by
  rw [TxState.publishAudio_eq]
  refine ⟨h.cable, h.video, fun hservice _ => ?_⟩
  dsimp only
  split
  · rfl
  · next hsame =>
    have hpub : tx.havePublishedAudioState = true ∧ tx.currentAudioInfo = info := by
      simpa [hservice] using hsame
    rw [h.audio hservice hpub.1, hpub.2]

/-- **The client has what is published**, after every event. -/
theorem informed_onDmx {cfg : TxConfig} {tx : TxState} (h : Informed cfg tx) (e : DmxEvent) :
    Informed cfg (onDmx cfg tx e) := by
  have hflush : Informed cfg tx.flush := ⟨h.cable, h.video, h.audio⟩
  unfold onDmx
  dsimp only
  split
  · exact hflush
  · have hvideo : Informed cfg (tx.flush.runVideo e) :=
      ⟨hflush.cable, hflush.video, hflush.audio⟩
    split
    · exact hvideo
    · have hpub := informed_publishVideo hvideo e.newVideoFormat
      have haudio : Informed cfg
          (((tx.flush.runVideo e).publishVideo cfg e.newVideoFormat).runAudio e) :=
        ⟨hpub.cable, hpub.video, hpub.audio⟩
      split
      · exact haudio
      · have hpub' := informed_publishAudio haudio e.newAudioInfo
        exact ⟨hpub'.cable, hpub'.video, hpub'.audio⟩

/-! ## What is published and what runs -/

def DmxEvent.publishesVideo (e : DmxEvent) : Bool := e.update && e.videoStarts

def DmxEvent.publishesAudio (e : DmxEvent) : Bool := e.publishesVideo && e.audioStarts

theorem currentVideoFormat_onDmx (cfg : TxConfig) (tx : TxState) (e : DmxEvent) :
    (onDmx cfg tx e).currentVideoFormat
      = if e.publishesVideo then e.newVideoFormat else tx.currentVideoFormat := by
  unfold onDmx DmxEvent.publishesVideo
  cases e.update with
  | false => rfl
  | true =>
      rw [result_startVideo, result_startAudio]
      cases e.videoStarts <;> cases e.audioStarts <;>
        simp [TxState.publishVideo_eq, TxState.publishAudio_eq, TxState.append, TxState.runVideo,
          TxState.runAudio, TxState.flush]

theorem currentAudioInfo_onDmx (cfg : TxConfig) (tx : TxState) (e : DmxEvent) :
    (onDmx cfg tx e).currentAudioInfo
      = if e.publishesAudio then e.newAudioInfo else tx.currentAudioInfo := by
  unfold onDmx DmxEvent.publishesAudio DmxEvent.publishesVideo
  cases e.update with
  | false => rfl
  | true =>
      rw [result_startVideo, result_startAudio]
      cases e.videoStarts <;> cases e.audioStarts <;>
        simp [TxState.publishVideo_eq, TxState.publishAudio_eq, TxState.append, TxState.runVideo,
          TxState.runAudio, TxState.flush]

/-- The formats that a published video source and encoder were given. -/
theorem videoFormats_onDmx (cfg : TxConfig) (tx : TxState) {e : DmxEvent}
    (hpub : e.publishesVideo = true) (hlinked : e.linked = true) :
    (onDmx cfg tx e).vsrcFormat = some (sourceFormat e) ∧
      (onDmx cfg tx e).vencProperty = some (videoProperty e) := by
  obtain ⟨hupdate, hstarts⟩ : e.update = true ∧ e.videoStarts = true := by
    simpa [DmxEvent.publishesVideo] using hpub
  have hcalls : ((e.vsrc.event = true ∧ e.vsrc.start = true) ∧ e.venc.event = true) ∧
      e.venc.start = true := by
    simpa [DmxEvent.videoStarts, hlinked] using hstarts
  unfold onDmx
  rw [hupdate, result_startVideo, result_startAudio, hstarts]
  cases e.audioStarts <;>
    simp [TxState.publishVideo_eq, TxState.publishAudio_eq, TxState.append, TxState.runVideo,
      TxState.runAudio, hlinked, hcalls]

theorem audioFormats_onDmx (cfg : TxConfig) (tx : TxState) {e : DmxEvent}
    (hpub : e.publishesAudio = true) (hlinked : e.audioLinked = true) :
    (onDmx cfg tx e).aencProperty = some (audioProperty e) := by
  obtain ⟨⟨hupdate, hvideo⟩, haudio⟩ :
      (e.update = true ∧ e.videoStarts = true) ∧ e.audioStarts = true := by
    simpa [DmxEvent.publishesAudio, DmxEvent.publishesVideo] using hpub
  have hcalls : ((e.asrc.event = true ∧ e.asrc.start = true) ∧ e.aenc.event = true) ∧
      e.aenc.start = true := by
    simpa [DmxEvent.audioStarts, hlinked] using haudio
  unfold onDmx
  rw [hupdate, result_startVideo, result_startAudio, hvideo, haudio]
  simp [TxState.publishVideo_eq, TxState.publishAudio_eq, TxState.append, TxState.runVideo,
    TxState.runAudio, hlinked, hcalls]

theorem runs_startSource (source : TxObject) (h : Handled) (hs : source ≠ .event h)
    (c : SourceCalls) :
    Runs (startSource source h c).actions source = (c.event && c.start) := by
  obtain ⟨event, start⟩ := c
  cases event <;> cases start <;>
    simp [startSource, newEvent, actions_bind, result_bind, perform, check, Runs, Action.name,
      hs.symm]

theorem runs_startEncoder (encoder : TxObject) (h : Handled) (hs : encoder ≠ .event h)
    (c : SourceCalls) :
    Runs (startEncoder encoder h c).actions encoder = (c.event && c.start) := by
  obtain ⟨event, start⟩ := c
  cases event <;> cases start <;>
    simp [startEncoder, newEvent, actions_bind, result_bind, perform, check, Runs, Action.name,
      hs.symm]

/-- The later steps do not touch what a bracketed program runs. -/
theorem runs_bind {p q : TxScript Unit} {k : TxObject}
    (hq : ∀ b ∈ q.actions, b.name ≠ .activity k) :
    Runs (p >>= fun _ => q).actions k = Runs p.actions k := by
  rw [actions_bind]
  refine runs_append_of_right fun b hb => ?_
  cases hres : p.result with
  | none => simp [hres] at hb
  | some u => exact hq b (by simpa [hres] using hb)

/-- The earlier steps do not start `k`; the later ones come where the earlier go through. -/
theorem runs_bind_of_left {p q : TxScript Unit} {k : TxObject}
    (hp : ∀ b ∈ p.actions, b.name ≠ .activity k) :
    Runs (p >>= fun _ => q).actions k = (p.result.isSome && Runs q.actions k) := by
  rw [actions_bind, runs_append_of_left hp]
  cases p.result <;> rfl

/-- The video source and encoder both run exactly where there is a link and the part starts. -/
theorem runs_startVideo (e : DmxEvent) :
    (Runs (startVideo e).actions .vsrc && Runs (startVideo e).actions .venc)
      = (e.linked && e.videoStarts) := by
  have hsource : ∀ b ∈ (startVsrc e.vsrc).actions, b.name ≠ .activity .venc := by
    intro b hb hcon
    have hmem := (bracketed_startSource (by decide : TxObject.vsrc ≠ .event .vsrc) e.vsrc).acted b
      (List.mem_append_left _ hb)
    rw [hcon] at hmem
    exact absurd hmem (by decide)
  have hencoder : ∀ b ∈ (startVenc e.venc).actions, b.name ≠ .activity .vsrc := by
    intro b hb hcon
    have hmem := (bracketed_startEncoder (by decide : TxObject.venc ≠ .event .venc) e.venc).acted
      b (List.mem_append_left _ hb)
    rw [hcon] at hmem
    exact absurd hmem (by decide)
  unfold startVideo DmxEvent.videoStarts
  cases e.linked with
  | false => rfl
  | true =>
      rw [if_pos rfl, runs_bind hencoder, runs_bind_of_left hsource, startVsrc, startVenc,
        runs_startSource .vsrc .vsrc (by decide), runs_startEncoder .venc .venc (by decide),
        result_startSource]
      cases e.vsrc.event <;> cases e.vsrc.start <;> cases e.venc.event <;> cases e.venc.start <;>
        rfl

theorem runs_startAudio (e : DmxEvent) :
    (Runs (startAudio e).actions .asrc && Runs (startAudio e).actions .aenc)
      = (e.audioLinked && e.audioStarts) := by
  have hsource : ∀ b ∈ (startAsrc e.asrc).actions, b.name ≠ .activity .aenc := by
    intro b hb hcon
    have hmem := (bracketed_startSource (by decide : TxObject.asrc ≠ .event .asrc) e.asrc).acted b
      (List.mem_append_left _ hb)
    rw [hcon] at hmem
    exact absurd hmem (by decide)
  have hencoder : ∀ b ∈ (startAenc e.aenc).actions, b.name ≠ .activity .asrc := by
    intro b hb hcon
    have hmem := (bracketed_startEncoder (by decide : TxObject.aenc ≠ .event .aenc) e.aenc).acted
      b (List.mem_append_left _ hb)
    rw [hcon] at hmem
    exact absurd hmem (by decide)
  unfold startAudio DmxEvent.audioStarts
  cases e.audioLinked with
  | false => rfl
  | true =>
      rw [if_pos rfl, runs_bind hencoder, runs_bind_of_left hsource, startAsrc, startAenc,
        runs_startSource .asrc .asrc (by decide), runs_startEncoder .aenc .aenc (by decide),
        result_startSource]
      cases e.asrc.event <;> cases e.asrc.start <;> cases e.aenc.event <;> cases e.aenc.start <;>
        rfl

/-- The server and the handlers are none of the sources and encoders. -/
theorem runs_reaction {cfg : TxConfig} {e : DmxEvent} {k : TxObject}
    (hk : stage (.activity k) = .stream) :
    Runs (reaction cfg e).actions k = (e.update && Runs (startStream e).actions k) := by
  unfold reaction
  cases e.update with
  | false => rfl
  | true =>
      rw [if_pos rfl, runs_bind, Bool.true_and]
      intro b hb hcon
      exact stage_startSender cfg e b (List.mem_append_left _ hb) (hcon ▸ hk)

theorem runs_startStream_video {e : DmxEvent} {k : TxObject} (hk : .activity k ∉ audioNames) :
    Runs (startStream e).actions k = Runs (startVideo e).actions k := by
  refine runs_bind fun b hb hcon => hk ?_
  rw [← hcon]
  exact (bracketed_startAudio e).acted b (List.mem_append_left _ hb)

theorem runs_startStream_audio {e : DmxEvent} {k : TxObject} (hk : .activity k ∉ videoNames) :
    Runs (startStream e).actions k = (e.videoStarts && Runs (startAudio e).actions k) := by
  have hbind : Runs (startStream e).actions k
      = ((startVideo e).result.isSome && Runs (startAudio e).actions k) := by
    refine runs_bind_of_left fun b hb hcon => hk ?_
    rw [← hcon]
    exact (bracketed_startVideo e).acted b (List.mem_append_left _ hb)
  rw [hbind, result_startVideo]
  cases e.videoStarts <;> rfl

/-- The video source and encoder run after the event exactly where a link is published. -/
theorem runs_video_iff (cfg : TxConfig) (tx : TxState) (e : DmxEvent) :
    (Runs (onDmx cfg tx e).actions .vsrc = true ∧ Runs (onDmx cfg tx e).actions .venc = true) ↔
      (e.publishesVideo = true ∧ e.linked = true) := by
  rw [(onDmx_stack cfg tx e).1, runs_reaction rfl, runs_reaction rfl,
    runs_startStream_video (by decide), runs_startStream_video (by decide),
    DmxEvent.publishesVideo]
  cases e.update with
  | false => simp
  | true =>
      simp only [Bool.true_and]
      rw [← Bool.and_eq_true, runs_startVideo, Bool.and_eq_true, and_comm]

theorem runs_audio_iff (cfg : TxConfig) (tx : TxState) (e : DmxEvent) :
    (Runs (onDmx cfg tx e).actions .asrc = true ∧ Runs (onDmx cfg tx e).actions .aenc = true) ↔
      (e.publishesAudio = true ∧ e.audioLinked = true) := by
  rw [(onDmx_stack cfg tx e).1, runs_reaction rfl, runs_reaction rfl,
    runs_startStream_audio (by decide), runs_startStream_audio (by decide),
    DmxEvent.publishesAudio, DmxEvent.publishesVideo]
  cases e.update with
  | false => simp
  | true =>
      cases e.videoStarts with
      | false => simp
      | true =>
          simp only [Bool.true_and]
          rw [← Bool.and_eq_true, runs_startAudio, Bool.and_eq_true, and_comm]

/-! ## One event, and a run -/

theorem videoTruthful_onDmx_iff (cfg : TxConfig) (tx : TxState) (e : DmxEvent) :
    VideoTruthful (onDmx cfg tx e) ↔
      (e.publishesVideo = false → tx.currentVideoFormat.locked = false) := by
  unfold VideoTruthful
  rw [currentVideoFormat_onDmx, ← and_assoc, runs_video_iff]
  cases hpub : e.publishesVideo with
  | false =>
      -- the previous stream is stopped, its format is still published
      simp
  | true =>
      rw [if_pos rfl]
      refine iff_of_true (fun hlocked => ?_) (fun h => by cases h)
      have hlinked : e.linked = true := by
        by_contra hcon
        rw [Bool.not_eq_true] at hcon
        rw [DmxEvent.newVideoFormat, if_neg (by rw [hcon]; exact Bool.false_ne_true)] at hlocked
        cases hlocked
      obtain ⟨hsource, hencoder⟩ := videoFormats_onDmx cfg tx hpub hlinked
      refine ⟨⟨rfl, hlinked⟩, _, _, hsource, hencoder, ?_⟩
      rw [DmxEvent.newVideoFormat, if_pos hlinked]
      exact ⟨rfl, rfl, rfl, rfl, rfl, rfl, rfl⟩

theorem audioTruthful_onDmx_iff (cfg : TxConfig) (tx : TxState) (e : DmxEvent) :
    AudioTruthful (onDmx cfg tx e) ↔
      (e.publishesAudio = false → tx.currentAudioInfo = .zero) := by
  unfold AudioTruthful
  rw [currentAudioInfo_onDmx, ← and_assoc, runs_audio_iff]
  cases hpub : e.publishesAudio with
  | false => simp
  | true =>
      rw [if_pos rfl]
      refine iff_of_true (fun hinfo => ?_) (fun h => by cases h)
      have hlinked : e.audioLinked = true := by
        by_contra hcon
        rw [Bool.not_eq_true] at hcon
        rw [DmxEvent.newAudioInfo, if_neg (by rw [hcon]; exact Bool.false_ne_true)] at hinfo
        exact hinfo rfl
      have hencoder := audioFormats_onDmx cfg tx hpub hlinked
      refine ⟨⟨rfl, hlinked⟩, _, hencoder, ?_⟩
      rw [DmxEvent.newAudioInfo, if_pos hlinked]
      exact ⟨rfl, rfl, rfl⟩

/-- An event that gives up before a publication finds nothing published there. -/
structure Replaces (tx : TxState) (e : DmxEvent) : Prop where
  video : e.publishesVideo = false → tx.currentVideoFormat.locked = false
  audio : e.publishesAudio = false → tx.currentAudioInfo = .zero

theorem truthful_onDmx_iff {cfg : TxConfig} {tx : TxState} (h : Informed cfg tx) (e : DmxEvent) :
    Truthful cfg (onDmx cfg tx e) ↔ Replaces tx e := by
  constructor
  · rintro ⟨hvideo, haudio, -⟩
    exact ⟨(videoTruthful_onDmx_iff cfg tx e).mp hvideo, (audioTruthful_onDmx_iff cfg tx e).mp haudio⟩
  · rintro ⟨hvideo, haudio⟩
    exact ⟨(videoTruthful_onDmx_iff cfg tx e).mpr hvideo,
      (audioTruthful_onDmx_iff cfg tx e).mpr haudio, informed_onDmx h e⟩

theorem informed_run (cfg : TxConfig) (es : List DmxEvent) :
    Informed cfg ((txMachine cfg).run .initial es) :=
  (txMachine cfg).inv_run (fun _ => True) (Informed cfg) (fun _ e hs _ => informed_onDmx hs e) es
    .initial (fun _ _ => trivial) (informed_initial cfg)

end QcapDemos.Tx

import QcapDemos.Lib.Lifecycle

set_option autoImplicit false

/-! # What `start_dante_rx` acquires, and what its exits release

`start_dante_rx` creates its objects one after the other, and each of its failing exits spells
out its own list of destructions. The program below does the same over the outcomes of the
calls. `Clean` says of an exit that everything created has been destroyed, once, and nothing
else. Two exits are not clean: the one of a failed `fopen`, and in direct mode the two that
destroy a session that was never created.
-/

namespace QcapDemos.Rx

open QcapDemos.Lib QcapDemos.Lib.Script QcapDemos.Lib.World

inductive RxObject where
  | rx
  | pipe
  | session
  | coordinator
  | videoStats
  | videoSink
  | videoSinkPad
  | parser
  | capsPriv
  | capsSink
  | capsSinkPad
  | depSrc
  | audioStats
  | audioSink
  | audioSinkPad
  | pcm
  | file
  | clock
  | sched
deriving DecidableEq

abbrev RxScript (α : Type) : Type := Script RxObject α

/-! ## The helpers -/

/-- The calls of `create_rx_video_sink` and of `create_rx_audio_sink`. -/
structure RxSinkCalls where
  stats : Bool
  element : Bool
  pad : Bool
  addPad : Bool

def RxSinkCalls.ok (c : RxSinkCalls) : Bool := c.stats && c.element && c.pad && c.addPad

/-- The element owns its statistics from its creation on, and its pad once that is added. -/
def createRxSink (stats sink pad : RxObject) (c : RxSinkCalls) : RxScript Bool := do
  if !(← acquire c.stats stats) then pure false
  else if !(← acquire c.element sink) then do
    release [stats]
    pure false
  else do
    handOver stats
    if !(← acquire c.pad pad) then do
      release [sink]
      pure false
    else if !c.addPad then do
      release [pad, sink]
      pure false
    else do
      handOver pad
      pure true

def createRxVideoSink (c : RxSinkCalls) : RxScript Bool :=
  createRxSink .videoStats .videoSink .videoSinkPad c

def createRxAudioSink (c : RxSinkCalls) : RxScript Bool :=
  createRxSink .audioStats .audioSink .audioSinkPad c

/-- The calls of `rx_h264_parser_create`; `configured` is the chain of property, link and state
calls at its end, none of which acquires anything. -/
structure ParserCalls where
  parser : Bool
  priv : Bool
  capsSink : Bool
  pad : Bool
  addPad : Bool
  configured : Bool

def ParserCalls.ok (c : ParserCalls) : Bool :=
  c.parser && c.priv && c.capsSink && c.pad && c.addPad && c.configured

/-- The label `fail`: the parser and the observer, where they exist. -/
def failParser (parser capsSink : Bool) : RxScript Bool := do
  release ((if parser then [.parser] else []) ++ if capsSink then [.capsSink] else [])
  pure false

def rxH264ParserCreate (c : ParserCalls) : RxScript Bool := do
  let parser ← acquire c.parser .parser
  let priv ← acquire c.priv .capsPriv
  if !parser || !priv then do
    release (if priv then [.capsPriv] else [])
    failParser parser false
  else if !(← acquire c.capsSink .capsSink) then do
    release [.capsPriv]
    failParser parser false
  else do
    handOver .capsPriv
    if !(← acquire c.pad .capsSinkPad) then failParser parser true
    else if !c.addPad then do
      release [.capsSinkPad]
      failParser parser true
    else do
      handOver .capsSinkPad
      if !c.configured then failParser parser true else pure true

/-- The calls of `configure_dep_audio_batch`. -/
structure BatchCalls where
  queueTime : Bool
  blockTime : Bool

def configureDepAudioBatch (batched : Bool) (c : BatchCalls) : Bool :=
  if !batched then true else c.queueTime && c.blockTime

/-- The calls of `start_hdmi_audio_sink`. -/
structure PcmCalls where
  route : Bool
  open' : Bool
  params : Bool

/-- The result says whether the caller goes on with a warning only. On SDI there is no active
modeset yet, and no PCM is opened. -/
def Acquire.startHdmiAudioSink (sdi : Bool) (c : PcmCalls) : RxScript Bool := do
  if sdi then pure true
  else if !c.route then pure false
  else if !(← acquire c.open' .pcm) then pure false
  else if !c.params then do
    release [.pcm]
    pure false
  else pure true

/-! ## The function -/

/-- The arguments, and the global settings, on which the acquisitions depend. -/
structure RxArgs where
  directMode : Bool
  rtpStatsOnly : Bool
  autoMode : Bool
  /-- `output_is_sdi()` -/
  sdi : Bool
  /-- `g_dep_audio_batched` -/
  batched : Bool
  /-- `reconstructed_path` is not empty. -/
  reconstructed : Bool

/-- Whether each call succeeds. -/
structure RxCalls where
  pipelineCreate : Bool
  sessionCreate : Bool
  coordinatorCreate : Bool
  requestPad : Bool
  videoSink : RxSinkCalls
  parser : ParserCalls
  depSource : Bool
  batch : BatchCalls
  audioSink : RxSinkCalls
  pcm : PcmCalls
  addCoordinator : Bool
  addVideoSink : Bool
  addDepSource : Bool
  addAudioSink : Bool
  fopen : Bool
  clockCreate : Bool
  schedulerCreate : Bool

/-- `if (rx->session) zst_element_destroy(rx->session)` -/
def ifSession (session : Bool) : List RxObject := if session then [.session] else []

/-- `rx_h264_parser_destroy`, once the parser pair exists. -/
def parserPair : List RxObject := [.parser, .capsSink]

/-- The end of the cleanups that follow the creation of the video sink. -/
def fromVideoSink (session : Bool) : List RxObject :=
  .videoSink :: .coordinator :: (ifSession session ++ [.pipe, .rx])

/-- The pipeline takes an element over where it accepts it. -/
def pipelineAdd (ok : Bool) (element : RxObject) : RxScript Unit :=
  if ok then handOver element else pure ()

/-- The DEP source and the audio sink. -/
def startDepAudio (a : RxArgs) (c : RxCalls) (session : Bool) : RxScript Unit := do
  let depSrc ← acquire c.depSource .depSrc
  giveUpIf (!depSrc || !configureDepAudioBatch a.batched c.batch)
    ((if depSrc then [.depSrc] else []) ++ (parserPair ++ fromVideoSink session))
  let audioSink ← createRxAudioSink c.audioSink
  giveUpIf (!audioSink) (.depSrc :: (parserPair ++ fromVideoSink session))
  if !a.autoMode then do
    let _ ← Acquire.startHdmiAudioSink a.sdi c.pcm
    pure ()
  else pure ()

/-- The output file, the clock and the scheduler. -/
def openOutput (a : RxArgs) (c : RxCalls) : RxScript Unit := do
  let file ← acquire (a.reconstructed && c.fopen) .file
  -- this exit has no cleanup at all
  giveUpIf (a.reconstructed && !file) []
  let _ ← acquire c.clockCreate .clock
  let _ ← acquire c.schedulerCreate .sched
  pure ()

/-- What follows the creation of the elements. -/
def startPipeline (a : RxArgs) (c : RxCalls) : RxScript Unit := do
  pipelineAdd c.addCoordinator .coordinator
  pipelineAdd c.addVideoSink .videoSink
  pipelineAdd (!a.directMode && !a.rtpStatsOnly && c.addDepSource) .depSrc
  pipelineAdd (!a.directMode && !a.rtpStatsOnly && c.addAudioSink) .audioSink
  openOutput a c

def startDanteRx (a : RxArgs) (c : RxCalls) : RxScript Unit := do
  let _ ← acquire true .rx
  let pipe ← acquire c.pipelineCreate .pipe
  giveUpIf (!pipe) [.rx]
  let session ← acquire (!a.directMode && c.sessionCreate) .session
  giveUpIf (!a.directMode && !session) [.pipe, .rx]
  let coordinator ← acquire c.coordinatorCreate .coordinator
  giveUpIf (!coordinator) (ifSession session ++ [.pipe, .rx])
  -- the next two exits destroy the session without asking whether there is one
  giveUpIf (!c.requestPad) [.coordinator, .session, .pipe, .rx]
  let videoSink ← createRxVideoSink c.videoSink
  giveUpIf (!videoSink) [.coordinator, .session, .pipe, .rx]
  let parser ← rxH264ParserCreate c.parser
  giveUpIf (!parser) (fromVideoSink session)
  (if !a.directMode && !a.rtpStatsOnly then startDepAudio a c session else pure () : RxScript Unit)
  startPipeline a c

/-! ## The helpers clean up after themselves -/

theorem createRxVideoSink_spec (c : RxSinkCalls) :
    (createRxVideoSink c).result = some c.ok ∧
    empty.exec (createRxVideoSink c).actions
      = some ⟨if c.ok then [.videoSink] else [], []⟩ ∧
    ∀ b ∈ (createRxVideoSink c).actions,
      b.name ∈ [.object .videoStats, .object .videoSink, .object .videoSinkPad] := by
  obtain ⟨stats, element, pad, addPad⟩ := c
  revert stats element pad addPad
  decide

theorem createRxAudioSink_spec (c : RxSinkCalls) :
    (createRxAudioSink c).result = some c.ok ∧
    empty.exec (createRxAudioSink c).actions
      = some ⟨if c.ok then [.audioSink] else [], []⟩ ∧
    ∀ b ∈ (createRxAudioSink c).actions,
      b.name ∈ [.object .audioStats, .object .audioSink, .object .audioSinkPad] := by
  obtain ⟨stats, element, pad, addPad⟩ := c
  revert stats element pad addPad
  decide

theorem rxH264ParserCreate_spec (c : ParserCalls) :
    (rxH264ParserCreate c).result = some c.ok ∧
    empty.exec (rxH264ParserCreate c).actions
      = some ⟨if c.ok then [.capsSink, .parser] else [], []⟩ ∧
    ∀ b ∈ (rxH264ParserCreate c).actions,
      b.name ∈ [.object .parser, .object .capsPriv, .object .capsSink, .object .capsSinkPad] := by
  obtain ⟨parser, priv, capsSink, pad, addPad, configured⟩ := c
  revert parser priv capsSink pad addPad configured
  decide

theorem Acquire.startHdmiAudioSink_spec (sdi : Bool) (c : PcmCalls) :
    ∃ started pcm : Bool, (Acquire.startHdmiAudioSink sdi c).result = some started ∧
      empty.exec (Acquire.startHdmiAudioSink sdi c).actions
        = some ⟨if pcm then [.pcm] else [], []⟩ ∧
      ∀ b ∈ (Acquire.startHdmiAudioSink sdi c).actions, b.name ∈ [.object .pcm] := by
  obtain ⟨route, open', params⟩ := c
  revert sdi route open' params
  decide

/-! ## The exits -/

theorem pipelineAdd_spec (ok : Bool) (element : RxObject) :
    (pipelineAdd ok element).result = some () ∧
    ∀ b ∈ (pipelineAdd ok element).actions, b.name = .object element := by
  cases ok with
  | false => exact ⟨rfl, fun b hb => absurd hb List.not_mem_nil⟩
  | true => exact ⟨rfl, fun b hb => by rw [List.mem_singleton.mp hb]; rfl⟩

theorem openOutput_spec (a : RxArgs) (c : RxCalls) :
    ((openOutput a c).result = none ↔ a.reconstructed = true ∧ c.fopen = false) ∧
    ∀ b ∈ (openOutput a c).actions, b.name ≠ .object .rx := by
  unfold openOutput
  generalize a.reconstructed = reconstructed
  generalize c.fopen = fopen
  generalize c.clockCreate = clock
  generalize c.schedulerCreate = sched
  revert reconstructed fopen clock sched
  decide

/-- The one exit from here on leaves the `rx` object, among others. -/
theorem clean_startPipeline {live : List RxObject} (hrx : .rx ∈ live) (a : RxArgs)
    (c : RxCalls) :
    Clean ⟨live, []⟩ (startPipeline a c) ↔ ¬ (a.reconstructed = true ∧ c.fopen = false) := by
  have hadd := fun ok element => (pipelineAdd_spec ok element).1
  obtain ⟨hfails, hfile⟩ := openOutput_spec a c
  have hresult : (startPipeline a c).result = (openOutput a c).result := by
    simp only [startPipeline, result_bind, hadd, Option.bind_some]
  have hname : ∀ b ∈ (startPipeline a c).actions, b.name ≠ .object .rx := by
    intro b hb
    simp only [startPipeline, actions_bind, hadd, Option.map_some, Option.getD_some,
      List.mem_append] at hb
    rcases hb with hb | hb | hb | hb | hb
    · rw [(pipelineAdd_spec _ _).2 b hb]; decide
    · rw [(pipelineAdd_spec _ _).2 b hb]; decide
    · rw [(pipelineAdd_spec _ _).2 b hb]; decide
    · rw [(pipelineAdd_spec _ _).2 b hb]; decide
    · exact hfile b hb
  unfold Clean
  rw [hresult, hfails]
  refine ⟨fun h hfail => ?_, fun h hfail => absurd hfail h⟩
  have hleft := (present_exec (h hfail) hname).mpr hrx
  exact absurd hleft List.not_mem_nil

/-- The calls for the DEP source and the audio sink succeed, where they are made. -/
def audioOk (a : RxArgs) (c : RxCalls) : Bool :=
  a.directMode || a.rtpStatsOnly ||
    (c.depSource && configureDepAudioBatch a.batched c.batch && c.audioSink.ok)

/-- The objects that exist after the parser pair was created. -/
def beforeAudio (session : Bool) : List RxObject :=
  .capsSink :: .parser :: fromVideoSink session

theorem clean_startDepAudio (a : RxArgs) (c : RxCalls) (session : Bool) :
    Clean ⟨beforeAudio session, []⟩ (startDepAudio a c session >>= fun _ => startPipeline a c) ↔
      ((c.depSource && configureDepAudioBatch a.batched c.batch && c.audioSink.ok) = true →
        ¬ (a.reconstructed = true ∧ c.fopen = false)) := by
  obtain ⟨hsink, hsinkexec, hsinkname⟩ := createRxAudioSink_spec c.audioSink
  unfold startDepAudio
  rw [bind_bind, clean_acquire (by cases session <;> decide)]
  cases hdep : c.depSource with
  | false =>
      -- the exit without a source
      have hperm : (parserPair ++ fromVideoSink session).Perm (beforeAudio session) := by
        cases session <;> decide
      rw [bind_bind]
      refine clean_giveUpIf.trans ?_
      simpa using hperm
  | true =>
      have hperm : (.depSrc :: (parserPair ++ fromVideoSink session)).Perm
          (.depSrc :: beforeAudio session) := by
        cases session <;> decide
      rw [bind_bind]
      refine clean_giveUpIf.trans ?_
      cases hbatch : configureDepAudioBatch a.batched c.batch with
      | false => simpa using hperm
      | true =>
          rw [if_neg (by decide), bind_bind]
          refine (clean_beside hsink hsinkexec hsinkname
            (by cases session <;> decide)).trans ?_
          rw [bind_bind]
          cases haudio : c.audioSink.ok with
          | false =>
              refine clean_giveUpIf.trans ?_
              simpa using hperm
          | true =>
              refine clean_giveUpIf.trans ?_
              rw [if_neg (by decide)]
              cases hauto : a.autoMode with
              | true =>
                  refine (clean_startPipeline ?_ a c).trans ?_
                  · cases session <;> decide
                  · simp
              | false =>
                  obtain ⟨started, pcm, hpcm, hpcmexec, hpcmname⟩ :=
                    Acquire.startHdmiAudioSink_spec a.sdi c.pcm
                  refine (Iff.of_eq (congrArg _ (bind_bind _ _ _))).trans ?_
                  refine (clean_beside hpcm hpcmexec hpcmname
                    (by cases session <;> decide)).trans ?_
                  refine (clean_startPipeline ?_ a c).trans ?_
                  · cases session <;> cases pcm <;> decide
                  · simp

/-! ## Every exit -/

/-- The call comes as far as the request of the output pad. -/
def reachesPad (a : RxArgs) (c : RxCalls) : Bool :=
  c.pipelineCreate && (a.directMode || c.sessionCreate) && c.coordinatorCreate

/-- The two kinds of calls that are not cleaned up after. In direct mode, the request of the
output pad or the creation of the video sink is the first to fail; or everything up to the
output file succeeds, and the file cannot be opened. -/
def Leaks (a : RxArgs) (c : RxCalls) : Prop :=
  reachesPad a c = true ∧
    ((a.directMode = true ∧ (c.requestPad && c.videoSink.ok) = false) ∨
      ((c.requestPad && c.videoSink.ok && c.parser.ok && audioOk a c) = true ∧
        a.reconstructed = true ∧ c.fopen = false))

/-- The exits from the request of the output pad on. -/
theorem clean_fromPad (a : RxArgs) (c : RxCalls) (session : Bool)
    (hsession : session = !a.directMode) :
    Clean ⟨.coordinator :: (ifSession session ++ [.pipe, .rx]), []⟩
      (giveUpIf (!c.requestPad) [.coordinator, .session, .pipe, .rx] >>= fun _ => do
        let videoSink ← createRxVideoSink c.videoSink
        giveUpIf (!videoSink) [.coordinator, .session, .pipe, .rx]
        let parser ← rxH264ParserCreate c.parser
        giveUpIf (!parser) (fromVideoSink session)
        (if !a.directMode && !a.rtpStatsOnly then startDepAudio a c session else pure () :
          RxScript Unit)
        startPipeline a c) ↔
      ¬ ((a.directMode = true ∧ (c.requestPad && c.videoSink.ok) = false) ∨
        ((c.requestPad && c.videoSink.ok && c.parser.ok && audioOk a c) = true ∧
          a.reconstructed = true ∧ c.fopen = false)) := by
  obtain ⟨hsink, hsinkexec, hsinkname⟩ := createRxVideoSink_spec c.videoSink
  obtain ⟨hparser, hparserexec, hparsername⟩ := rxH264ParserCreate_spec c.parser
  -- the cleanup of both exits names the session, which exists outside direct mode
  have hperm : ([.coordinator, .session, .pipe, .rx] : List RxObject).Perm
      (.coordinator :: (ifSession session ++ [.pipe, .rx])) ↔ a.directMode = false := by
    rw [hsession]
    cases a.directMode <;> decide
  refine clean_giveUpIf.trans ?_
  cases hpad : c.requestPad with
  | false =>
      cases hdirect : a.directMode <;> simp [hperm, hdirect]
  | true =>
      rw [if_neg (by decide)]
      refine (clean_beside hsink hsinkexec hsinkname (by cases session <;> decide)).trans ?_
      cases hvideo : c.videoSink.ok with
      | false =>
          refine clean_giveUpIf.trans ?_
          cases hdirect : a.directMode <;> simp [hperm, hdirect]
      | true =>
          refine clean_giveUpIf.trans ?_
          rw [if_neg (by decide)]
          refine (clean_beside hparser hparserexec hparsername
            (by cases session <;> decide)).trans ?_
          cases hok : c.parser.ok with
          | false =>
              refine clean_giveUpIf.trans ?_
              simp [fromVideoSink]
          | true =>
              refine clean_giveUpIf.trans ?_
              rw [if_neg (by decide)]
              by_cases haudio : (!a.directMode && !a.rtpStatsOnly) = true
              · rw [if_pos haudio]
                refine (clean_startDepAudio a c session).trans ?_
                rw [Bool.and_eq_true, Bool.not_eq_true', Bool.not_eq_true'] at haudio
                simp [audioOk, haudio.1, haudio.2]
              · rw [if_neg haudio]
                refine (clean_bind (v := ⟨beforeAudio session, []⟩) rfl rfl).trans ?_
                refine (clean_startPipeline (by cases session <;> decide) a c).trans ?_
                have hskip : audioOk a c = true := by
                  unfold audioOk
                  cases hd : a.directMode <;> cases hr : a.rtpStatsOnly <;>
                    simp [hd, hr] at haudio ⊢
                simp [hskip]

/-- **What the exits release.** A failed `start_dante_rx` has destroyed everything that it
created, once, and nothing else, exactly where the calls are not of the two kinds. -/
theorem startDanteRx_clean_iff (a : RxArgs) (c : RxCalls) :
    Clean empty (startDanteRx a c) ↔ ¬ Leaks a c := by
  unfold startDanteRx Leaks reachesPad
  -- each call acquires an object or gives up, in the order of the source
  refine (clean_acquire (by decide)).trans ?_
  rw [if_pos rfl]
  refine (clean_acquire (by decide)).trans ?_
  cases hpipe : c.pipelineCreate with
  | false =>
      refine clean_giveUpIf.trans ?_
      simp [empty]
  | true =>
      refine clean_giveUpIf.trans ?_
      rw [if_neg (by decide)]
      refine (clean_acquire (show _ ∉ [RxObject.pipe, .rx] by decide)).trans ?_
      generalize hsession : (!a.directMode && c.sessionCreate) = session
      have hworld : (if session = true then
            ⟨.session :: [RxObject.pipe, .rx], []⟩ else ⟨[.pipe, .rx], []⟩ : World RxObject)
          = ⟨ifSession session ++ [.pipe, .rx], []⟩ := by
        cases session <;> rfl
      refine (Iff.of_eq (congrArg (Clean · _) hworld)).trans (clean_giveUpIf.trans ?_)
      -- without a session only the direct mode goes on
      by_cases hnone : (!a.directMode && !session) = true
      · have hmissing : (a.directMode || c.sessionCreate) = false := by
          subst hsession
          cases hd : a.directMode <;> cases hs : c.sessionCreate <;> simp [hd, hs] at hnone ⊢
        have hsame : session = false := by
          cases session with
          | false => rfl
          | true => simp at hnone
        rw [if_pos hnone, hmissing, hsame]
        simp [ifSession]
      · have hpresent : (a.directMode || c.sessionCreate) = true := by
          subst hsession
          cases hd : a.directMode <;> cases hs : c.sessionCreate <;> simp [hd, hs] at hnone ⊢
        have hsame : session = !a.directMode := by
          subst hsession
          cases hd : a.directMode <;> cases hs : c.sessionCreate <;> simp [hd, hs] at hnone ⊢
        rw [if_neg hnone, hpresent]
        refine (clean_acquire (by cases session <;> decide)).trans ?_
        cases hcoordinator : c.coordinatorCreate with
        | false =>
            refine clean_giveUpIf.trans ?_
            simp
        | true =>
            refine clean_giveUpIf.trans ?_
            rw [if_neg (by decide)]
            refine (clean_fromPad a c session hsame).trans ?_
            simp

/-- A direct receiver that writes the stream to a file; every call succeeds. -/
def directArgs : RxArgs where
  directMode := true
  rtpStatsOnly := false
  autoMode := false
  sdi := false
  batched := false
  reconstructed := true

def allSucceed : RxCalls where
  pipelineCreate := true
  sessionCreate := true
  coordinatorCreate := true
  requestPad := true
  videoSink := ⟨true, true, true, true⟩
  parser := ⟨true, true, true, true, true, true⟩
  depSource := true
  batch := ⟨true, true⟩
  audioSink := ⟨true, true, true, true⟩
  pcm := ⟨true, true, true⟩
  addCoordinator := true
  addVideoSink := true
  addDepSource := true
  addAudioSink := true
  fopen := true
  clockCreate := true
  schedulerCreate := true

/-- The file cannot be opened: nothing is released. The output pad is refused in direct mode:
the session that is destroyed does not exist. -/
theorem startDanteRx_not_clean :
    ¬ Clean empty (startDanteRx directArgs { allSucceed with fopen := false }) ∧
    ¬ Clean empty (startDanteRx directArgs { allSucceed with requestPad := false }) := by
  constructor
  · intro h
    exact absurd (h (by decide)) (by decide)
  · intro h
    exact absurd (h (by decide)) (by decide)

end QcapDemos.Rx

import QcapDemos.Tx.OnDmx

set_option autoImplicit false

/-! # The teardown of a TX stream

What `OnDmx` did is undone by the next flush of its free stack. The steps on the sources and
the encoders come before the server and the handlers after it, and both are bracketed. So the
teardown is as complete, and as safely ordered, as the part of it that belongs to the server.
-/

namespace QcapDemos.Tx

open QcapDemos.Lib QcapDemos.Lib.Script QcapDemos.Lib.World

/-! ## Which part of the stream a name belongs to -/

inductive Stage where
  /-- Sources, encoders and their events. -/
  | stream
  | server
  | handler
deriving DecidableEq

def stage : Name TxObject → Stage
  | .object (.event .qcapAudioResampler) | .activity (.event .qcapAudioResampler) => .server
  | .object (.event _) | .activity (.event _) => .stream
  | .object (.callback _) | .activity (.callback _) => .handler
  | .object (.handler _) | .activity (.handler _) => .handler
  | .object .vsrc | .object .asrc | .object .venc | .object .aenc => .stream
  | .activity .vsrc | .activity .asrc | .activity .venc | .activity .aenc => .stream
  | _ => .server

/-! ## The sources and the encoders -/

def videoNames : List (Name TxObject) :=
  .activity .vsrc :: (eventNames .vsrc ++ .object .venc :: .activity .venc :: eventNames .venc)

def audioNames : List (Name TxObject) :=
  .activity .asrc :: (eventNames .asrc ++ .object .aenc :: .activity .aenc :: eventNames .aenc)

theorem stage_videoNames : ∀ n ∈ videoNames, stage n = .stream := by decide

theorem stage_audioNames : ∀ n ∈ audioNames, stage n = .stream := by decide

theorem bracketed_startVideo (e : DmxEvent) : Bracketed (startVideo e) videoNames videoNames := by
  unfold startVideo
  split
  · exact (bracketed_startSource (by decide) e.vsrc).bind
      (fun _ => bracketed_startEncoder (by decide) e.venc) (by decide)
  · exact (bracketed_pure ()).mono (List.nil_subset _) (List.nil_subset _)

theorem bracketed_startAudio (e : DmxEvent) : Bracketed (startAudio e) audioNames audioNames := by
  unfold startAudio
  split
  · exact (bracketed_startSource (by decide) e.asrc).bind
      (fun _ => bracketed_startEncoder (by decide) e.aenc) (by decide)
  · exact (bracketed_pure ()).mono (List.nil_subset _) (List.nil_subset _)

/-- Everything before the server. -/
def startStream (e : DmxEvent) : TxScript Unit := do
  startVideo e
  startAudio e

theorem bracketed_startStream (e : DmxEvent) :
    Bracketed (startStream e) (videoNames ++ audioNames) (videoNames ++ audioNames) :=
  (bracketed_startVideo e).bind (fun _ => bracketed_startAudio e) (by decide)

theorem stage_startStream : ∀ n ∈ videoNames ++ audioNames, stage n = .stream := by
  intro n hn
  rcases List.mem_append.mp hn with hn | hn
  · exact stage_videoNames n hn
  · exact stage_audioNames n hn

/-! ## The handlers -/

def handlerNames (h : Handled) : List (Name TxObject) :=
  [.object (.callback h), .activity (.handler h)]

/-- What a handler needs while it is registered: itself, its callback, and objects of which
none is a callback. -/
def handlerNeeds (h : Handled) (bound : List TxObject) : List (Name TxObject) :=
  .activity (.handler h) :: .object (.callback h) :: .object (.event h) :: bound.map .object

theorem bracketed_addHandlerIf (b : Bool) (h : Handled) (bound : List TxObject)
    (c : HandlerCalls) :
    Bracketed (addHandlerIf b h bound c) (handlerNames h) (handlerNeeds h bound) := by
  cases b with
  | true => exact bracketed_addEventHandler h bound c
  | false => exact (bracketed_pure ()).mono (List.nil_subset _) (List.nil_subset _)

def allHandlerNames : List (Name TxObject) :=
  handlerNames .vsrc ++ (handlerNames .asrc ++ (handlerNames .qcapAudioResampler ++
    (handlerNames .venc ++ handlerNames .aenc)))

theorem bracketed_addHandlers (cfg : TxConfig) (e : DmxEvent) :
    ∃ M, Bracketed (addHandlers cfg e) allHandlerNames M := by
  have hserver : serverObject cfg = .qcapTx ∨ serverObject cfg = .danteTx := by
    unfold serverObject
    split
    · exact .inl rfl
    · exact .inr rfl
  have hbound : ∀ h' : Handled, serverObject cfg ≠ .callback h' := by
    intro h' hcon
    rcases hserver with hs | hs <;> rw [hs] at hcon <;> cases hcon
  have haenc := bracketed_addHandlerIf e.audioLinked .aenc
    (if cfg.useQcap then [.aenc] else [.aenc, .danteTx]) (e.handlers .aenc)
  have hvenc := (bracketed_addHandlerIf true .venc [.venc, serverObject cfg]
    (e.handlers .venc)).bind (fun _ => haenc) (by
      simp [handlerNames, handlerNeeds, (hbound _).symm])
  have hresampler := (bracketed_addHandlerIf cfg.useQcap .qcapAudioResampler [serverObject cfg]
    (e.handlers .qcapAudioResampler)).bind (fun _ => hvenc) (by
      simp [handlerNames, handlerNeeds, (hbound _).symm])
  have hasrc := (bracketed_addHandlerIf e.audioLinked .asrc [.aenc, serverObject cfg]
    (e.handlers .asrc)).bind (fun _ => hresampler) (by
      simp [handlerNames, handlerNeeds, (hbound _).symm])
  exact ⟨_, (bracketed_addHandlerIf true .vsrc [.venc] (e.handlers .vsrc)).bind
    (fun _ => hasrc) (by simp [handlerNames, handlerNeeds])⟩

theorem stage_allHandlerNames : ∀ n ∈ allHandlerNames, stage n = .handler := by decide

/-! ## The server -/

def InServer (n : Name TxObject) : Prop := stage n = .server

instance (n : Name TxObject) : Decidable (InServer n) := inferInstanceAs (Decidable (_ = _))

theorem within_startQcapDanteServer (c : QcapCalls) :
    (startQcapDanteServer c).Within InServer := by
  unfold startQcapDanteServer qcapServerBody Within
  generalize c.createServer = createServer
  generalize c.serverStarts = serverStarts
  generalize c.createSender = createSender
  generalize c.resamplerCreated = resamplerCreated
  generalize c.event = event
  generalize c.startResampler = startResampler
  generalize c.startSender = startSender
  revert createServer serverStarts createSender resamplerCreated event startResampler startSender
  decide +kernel

theorem inServer_chosen {l : List (Bool × TxObject)}
    (h : ∀ i ∈ l.map Prod.snd, InServer (.object i) ∧ InServer (.activity i))
    {f : TxObject → Action TxObject}
    (hf : ∀ i, (f i).mentions = [.object i] ∨ (f i).mentions = [.activity i]) :
    ∀ b ∈ (chosen l).map f, ∀ n ∈ b.mentions, InServer n := by
  intro b hb n hn
  obtain ⟨i, hi, rfl⟩ := List.mem_map.mp hb
  have hmem : i ∈ l.map Prod.snd := List.mem_map.mpr ⟨_, mem_chosen.mp hi, rfl⟩
  rcases hf i with hm | hm
  · rw [hm, List.mem_singleton] at hn
    exact hn ▸ (h i hmem).1
  · rw [hm, List.mem_singleton] at hn
    exact hn ▸ (h i hmem).2

theorem within_createAll {l : List (Bool × TxObject)}
    (h : ∀ i ∈ l.map Prod.snd, InServer (.object i) ∧ InServer (.activity i)) :
    (createAll l).Within InServer := by
  intro b hb
  rw [createAll, List.append_nil] at hb
  exact inServer_chosen h (fun i => .inl rfl) b hb

theorem within_addAll {l : List (Bool × TxObject)}
    (h : ∀ i ∈ l.map Prod.snd, InServer (.object i) ∧ InServer (.activity i)) :
    (addAll l).Within InServer := by
  intro b hb
  rw [addAll, List.append_nil] at hb
  exact inServer_chosen h (fun i => .inl rfl) b hb

theorem within_startThreads {l : List (Bool × TxObject)}
    (h : ∀ i ∈ l.map Prod.snd, InServer (.object i) ∧ InServer (.activity i)) :
    (startThreads l).Within InServer := by
  intro b hb
  rw [startThreads, List.append_nil] at hb
  exact inServer_chosen h (fun i => .inr rfl) b hb

theorem within_register_danteCleanup (a : DanteArgs) (c : DanteCalls) :
    (register (danteCleanup a c)).Within InServer := by
  intro b hb
  simp only [register, danteCleanup, List.nil_append, List.mem_append] at hb
  rcases hb with ((hb | hb) | hb) | hb
  · exact inServer_chosen (by simp; decide) (fun i => .inr rfl) b hb
  · exact inServer_chosen (by simp; decide) (fun i => .inl rfl) b hb
  · exact inServer_chosen (by simp; decide) (fun i => .inr rfl) b hb
  · exact inServer_chosen (by simp; decide) (fun i => .inl rfl) b hb

theorem within_buildPipeline (a : DanteArgs) (c : DanteCalls) :
    (buildPipeline a c).Within InServer := by
  have hend := (within_startThreads (l := threads c) (by simp [threads]; decide)).bind
    fun _ => within_register_danteCleanup a c
  have hlast := (within_createAll (l := createdLast c) (by simp [createdLast]; decide)).bind
    fun _ => hend
  have hadd := (within_addAll (l := added a c) (by simp [added]; decide)).bind fun _ => hlast
  have hthird := (within_createAll (l := createdThird a c) (by simp [createdThird]; decide)).bind
    fun _ => hadd
  have hmirror := (within_check (!a.mirror || (c.payloaderCreate && c.udpSinkCreate)) InServer).bind
    fun _ => hthird
  have hsecond := (within_createAll (l := createdSecond a c)
    (by simp [createdSecond]; decide)).bind fun _ => hmirror
  have hserver := (within_check (c.rtspServerCreate && c.rtspAddSession) InServer).bind
    fun _ => hsecond
  exact (within_createAll (l := createdFirst a c) (by simp [createdFirst]; decide)).bind
    fun _ => hserver

theorem within_startDanteServer (a : DanteArgs) (c : DanteCalls) :
    (startDanteServer a c).Within InServer := by
  have hcreate : (perform (.create .danteTx) [] : TxScript Unit).Within InServer := by
    unfold Within
    decide
  refine hcreate.bind fun _ => ?_
  split
  · exact within_buildPipeline a c
  · have hdestroy : (perform (.destroy .danteTx) [] : TxScript Unit).Within InServer := by
      unfold Within
      decide
    exact hdestroy.bind fun _ => within_check false InServer

theorem within_startServer (cfg : TxConfig) (e : DmxEvent) :
    (startServer cfg e).Within InServer := by
  unfold startServer
  split
  · exact within_startQcapDanteServer e.qcap
  · exact within_startDanteServer cfg.dante e.dante

/-! ## The whole reaction -/

/-- The reaction as one program. -/
def reaction (cfg : TxConfig) (e : DmxEvent) : TxScript Unit :=
  if e.update then do
    startStream e
    startSender cfg e
  else pure ()

/-- Publishing does not touch the free stack. -/
theorem publishVideo_stack (cfg : TxConfig) (tx : TxState) (format : VideoFormat) :
    (tx.publishVideo cfg format).actions = tx.actions ∧
      (tx.publishVideo cfg format).undo = tx.undo := by
  rw [TxState.publishVideo_eq]
  exact ⟨rfl, rfl⟩

theorem publishAudio_stack (cfg : TxConfig) (tx : TxState) (info : AudioInfo) :
    (tx.publishAudio cfg info).actions = tx.actions ∧
      (tx.publishAudio cfg info).undo = tx.undo := by
  rw [TxState.publishAudio_eq]
  exact ⟨rfl, rfl⟩

/-- The free stack after an event is that of the reaction alone. -/
theorem onDmx_stack (cfg : TxConfig) (tx : TxState) (e : DmxEvent) :
    (onDmx cfg tx e).actions = (reaction cfg e).actions ∧
      (onDmx cfg tx e).undo = (reaction cfg e).undo := by
  unfold onDmx reaction startStream
  cases hupdate : e.update with
  | false => exact ⟨rfl, rfl⟩
  | true =>
      rw [if_pos rfl, bind_bind]
      cases hvideo : (startVideo e).result with
      | none =>
          rw [bind_of_failed hvideo]
          simp [TxState.runVideo, TxState.append, TxState.flush]
      | some u =>
          rw [bind_of_result hvideo]
          cases haudio : (startAudio e).result with
          | none =>
              rw [bind_of_failed haudio]
              simp [TxState.runVideo, TxState.runAudio, TxState.append, TxState.flush,
                publishVideo_stack]
          | some v =>
              rw [bind_of_result haudio]
              simp [TxState.runVideo, TxState.runAudio, TxState.append, TxState.flush,
                publishVideo_stack, publishAudio_stack]

/-- The video part starts, or there is nothing to start. -/
def DmxEvent.videoStarts (e : DmxEvent) : Bool :=
  !e.linked || (e.vsrc.event && e.vsrc.start && e.venc.event && e.venc.start)

def DmxEvent.audioStarts (e : DmxEvent) : Bool :=
  !e.audioLinked || (e.asrc.event && e.asrc.start && e.aenc.event && e.aenc.start)

theorem result_startSource (source : TxObject) (h : Handled) (c : SourceCalls) :
    (startSource source h c).result = if c.event && c.start then some () else none := by
  simp only [startSource, newEvent, result_bind, perform, check]
  cases c.event <;> cases c.start <;> rfl

theorem result_startEncoder (encoder : TxObject) (h : Handled) (c : SourceCalls) :
    (startEncoder encoder h c).result = if c.event && c.start then some () else none := by
  simp only [startEncoder, newEvent, result_bind, perform, check]
  cases c.event <;> cases c.start <;> rfl

theorem result_startVideo (e : DmxEvent) :
    (startVideo e).result = if e.videoStarts then some () else none := by
  unfold startVideo DmxEvent.videoStarts
  cases e.linked with
  | false => rfl
  | true =>
      rw [if_pos rfl, result_bind, startVsrc, startVenc, result_startSource, result_startEncoder]
      cases e.vsrc.event <;> cases e.vsrc.start <;> cases e.venc.event <;> cases e.venc.start <;>
        rfl

theorem result_startAudio (e : DmxEvent) :
    (startAudio e).result = if e.audioStarts then some () else none := by
  unfold startAudio DmxEvent.audioStarts
  cases e.audioLinked with
  | false => rfl
  | true =>
      rw [if_pos rfl, result_bind, startAsrc, startAenc, result_startSource, result_startEncoder]
      cases e.asrc.event <;> cases e.asrc.start <;> cases e.aenc.event <;> cases e.aenc.start <;>
        rfl

/-- The event gets as far as the server of the sender. -/
def DmxEvent.reachesServer (e : DmxEvent) : Bool :=
  e.update && e.videoStarts && e.audioStarts && e.linked

/-- The server's part of the free stack is in order. -/
def serverOwned (cfg : TxConfig) (e : DmxEvent) : Prop :=
  if cfg.useQcap then e.qcap.reachesResampler = false
  else e.dante.pipelineCreate = false ∨
    (e.dante.passes cfg.dante = true ∧ e.dante.owned cfg.dante)

theorem startServer_safe_iff (cfg : TxConfig) (e : DmxEvent) :
    (startServer cfg e).Safe ↔ serverOwned cfg e := by
  unfold startServer serverOwned
  split
  · exact startQcapDanteServer_safe_iff e.qcap
  · exact startDanteServer_safe_iff cfg.dante e.dante

/-- The handlers add nothing to what the server needs. -/
theorem startSender_safe_iff (cfg : TxConfig) (e : DmxEvent) :
    (startSender cfg e).Safe ↔ (e.linked = true → serverOwned cfg e) := by
  unfold startSender
  cases e.linked with
  | false => exact iff_of_true (bracketed_pure ()).safe fun h => by cases h
  | true =>
      rw [if_pos rfl]
      have hserver : (startServer cfg e >>= fun _ => addHandlers cfg e).Safe ↔
          (startServer cfg e).Safe := by
        cases hres : (startServer cfg e).result with
        | none =>
            rw [bind_of_failed hres]
            exact Iff.rfl
        | some u =>
            obtain ⟨M, hM⟩ := bracketed_addHandlers cfg e
            refine safe_bind_inner hres hM fun b hb n hn hcon => ?_
            have hin := within_startServer cfg e b (List.mem_append_left _ hb) n hn
            have hstage := stage_allHandlerNames n hcon
            rw [hin] at hstage
            cases hstage
      rw [hserver, startServer_safe_iff]
      exact ⟨fun h _ => h, fun h => h rfl⟩

theorem stage_startSender (cfg : TxConfig) (e : DmxEvent) :
    ∀ b ∈ (startSender cfg e).actions ++ (startSender cfg e).undo, stage b.name ≠ .stream := by
  have hserver : (startServer cfg e).Within fun n => stage n ≠ .stream := by
    intro b hb n hn hcon
    have hin := within_startServer cfg e b hb n hn
    rw [hin] at hcon
    cases hcon
  obtain ⟨M, hM⟩ := bracketed_addHandlers cfg e
  have hhandlers : ∀ b ∈ (addHandlers cfg e).actions ++ (addHandlers cfg e).undo,
      stage b.name ≠ .stream := by
    intro b hb hcon
    rw [stage_allHandlerNames _ (hM.acted b hb)] at hcon
    cases hcon
  unfold startSender
  split
  · cases hres : (startServer cfg e).result with
    | none =>
        rw [bind_of_failed hres]
        exact fun b hb => hserver b hb _ b.name_mem_mentions
    | some u =>
        rw [bind_of_result hres]
        intro b hb
        simp only [List.mem_append] at hb
        rcases hb with (hb | hb) | hb | hb
        · exact hserver b (List.mem_append_left _ hb) _ b.name_mem_mentions
        · exact hhandlers b (List.mem_append_left _ hb)
        · exact hhandlers b (List.mem_append_right _ hb)
        · exact hserver b (List.mem_append_right _ hb) _ b.name_mem_mentions
  · exact fun b hb => absurd hb List.not_mem_nil

theorem reaction_safe_iff (cfg : TxConfig) (e : DmxEvent) :
    (reaction cfg e).Safe ↔ (e.reachesServer = true → serverOwned cfg e) := by
  unfold reaction DmxEvent.reachesServer
  cases e.update with
  | false => exact iff_of_true (bracketed_pure ()).safe fun h => by cases h
  | true =>
      rw [if_pos rfl]
      have hstream : (startStream e).result
          = if e.videoStarts && e.audioStarts then some () else none := by
        rw [startStream, result_bind, result_startVideo, result_startAudio]
        cases e.videoStarts <;> cases e.audioStarts <;> rfl
      cases hstarts : e.videoStarts && e.audioStarts with
      | false =>
          rw [hstarts] at hstream
          rw [bind_of_failed hstream]
          refine iff_of_true ?_ fun h => ?_
          · exact (bracketed_startStream e).safe
          · rw [Bool.true_and, hstarts] at h
            cases h
      | true =>
          rw [hstarts] at hstream
          have hdis : ∀ b ∈ (startSender cfg e).actions ++ (startSender cfg e).undo,
              b.name ∉ videoNames ++ audioNames ∧ b.name ∉ videoNames ++ audioNames := by
            intro b hb
            have hnot : b.name ∉ videoNames ++ audioNames :=
              fun hcon => stage_startSender cfg e b hb (stage_startStream _ hcon)
            exact ⟨hnot, hnot⟩
          rw [safe_bind_iff (bracketed_startStream e) hstream hdis, startSender_safe_iff,
            Bool.true_and, hstarts, Bool.true_and]

/-! ## The next flush -/

/-- The next flush destroys every object created by the event and stops everything it started,
once each, and nothing else; and it destroys nothing that something still running uses. -/
def TxState.Releases (tx : TxState) : Prop := empty.exec (tx.actions ++ tx.undo) = some empty

instance (tx : TxState) : Decidable tx.Releases := inferInstanceAs (Decidable (_ = _))

/-- Every call succeeds. -/
def QcapCalls.succeed : QcapCalls :=
  { createServer := true, setCustomProperty := true, registerCallback := true,
    startServer := true, createSender := true, setVideoProperty := true,
    setAudioProperty := true, newResampler := true, event := true, startResampler := true,
    startSender := true }

def DanteCalls.succeed : DanteCalls :=
  { pipelineCreate := true, sessionCreate := true, coordinatorCreate := true,
    appVideoSrcPad := true, rtspServerCreate := true, rtspAddSession := true,
    rtspVideoPad := true, rtspAudioPad := true, payloaderCreate := true, udpSinkCreate := true,
    appVideoMirrorSrcPad := true, depSinkCreate := true, resamplerCreate := true,
    appAudioSrcPad := true, addCoordinator := true, addRtspServer := true, addPayloader := true,
    addUdpSink := true, addResampler := true, addDepSink := true, clockCreate := true,
    schedulerCreate := true, schedThread := true, busThread := true }

/-- A source of 1080p60 with stereo audio, with every call of the reaction successful. -/
def DmxEvent.succeed : DmxEvent :=
  { update := true, colorSpaceDefined := true, width := 1920, height := 1080,
    interleaved := false, frameRate := 60, channels := 2, bitsPerSample := 16,
    sampleFrequency := 48000, vsrc := ⟨true, true⟩, venc := ⟨true, true⟩, asrc := ⟨true, true⟩,
    aenc := ⟨true, true⟩, qcap := .succeed, dante := .succeed, handlers := fun _ => ⟨true, true⟩ }

end QcapDemos.Tx

import Mathlib.Data.List.Nodup
import QcapDemos.Tx.Start

set_option autoImplicit false

/-! # The TX server of zstreamer

`StartDanteServer` registers its one cleanup at its very end. Two exits in the middle return
without it, and leave everything that was created before. The cleanup itself releases what
exists, provided that the pipeline took over all its elements and that the scheduler has a
thread exactly where it has a scheduler.
-/

namespace QcapDemos.Tx

open QcapDemos.Lib QcapDemos.Lib.Script QcapDemos.Lib.World

/-- The settings on which the objects depend. -/
structure DanteArgs where
  /-- `g_tx_direct_rx_ip` is not empty. -/
  directMode : Bool
  /-- `g_tx_rtsp_only` -/
  rtspOnly : Bool
  /-- `g_tx_direct_mirror_rx_ip` is not empty. -/
  directMirror : Bool
deriving DecidableEq

/-- Whether each call succeeds. -/
structure DanteCalls where
  pipelineCreate : Bool
  sessionCreate : Bool
  coordinatorCreate : Bool
  appVideoSrcPad : Bool
  rtspServerCreate : Bool
  rtspAddSession : Bool
  rtspVideoPad : Bool
  rtspAudioPad : Bool
  payloaderCreate : Bool
  udpSinkCreate : Bool
  appVideoMirrorSrcPad : Bool
  depSinkCreate : Bool
  resamplerCreate : Bool
  appAudioSrcPad : Bool
  addCoordinator : Bool
  addRtspServer : Bool
  addPayloader : Bool
  addUdpSink : Bool
  addResampler : Bool
  addDepSink : Bool
  clockCreate : Bool
  schedulerCreate : Bool
  schedThread : Bool
  busThread : Bool
deriving DecidableEq

/-- The DVR session and the DEP audio exist outside the direct and the RTSP-only mode. -/
def DanteArgs.dep (a : DanteArgs) : Bool := !a.directMode && !a.rtspOnly

def DanteArgs.mirror (a : DanteArgs) : Bool := a.dep && a.directMirror

section Program

variable (a : DanteArgs) (c : DanteCalls)

/-- The objects created up to the RTSP server. -/
def createdFirst : List (Bool × TxObject) :=
  [(true, .pipe), (a.dep && c.sessionCreate, .session),
    (!a.rtspOnly && c.coordinatorCreate, .coordinator),
    (!a.rtspOnly && c.appVideoSrcPad, .appVideoSrcPad),
    (c.rtspServerCreate, .rtspServer)]

/-- Those created from there to the elements of the mirror. -/
def createdSecond : List (Bool × TxObject) :=
  [(c.rtspVideoPad, .rtspVideoPad), (c.rtspAudioPad, .rtspAudioPad),
    (a.mirror && c.payloaderCreate, .mirrorRtpPayloader),
    (a.mirror && c.udpSinkCreate, .mirrorUdpSink)]

/-- Those created from there to the pipeline. -/
def createdThird : List (Bool × TxObject) :=
  [(a.mirror && c.appVideoMirrorSrcPad, .appVideoMirrorSrcPad),
    (a.dep && c.depSinkCreate, .txDepSink),
    (a.dep && c.resamplerCreate, .txResampler),
    (a.dep && c.appAudioSrcPad, .appAudioSrcPad)]

/-- The elements that the pipeline takes over. -/
def added : List (Bool × TxObject) :=
  [(!a.rtspOnly && c.coordinatorCreate && c.addCoordinator, .coordinator),
    (c.addRtspServer, .rtspServer),
    (a.mirror && c.addPayloader, .mirrorRtpPayloader),
    (a.mirror && c.addUdpSink, .mirrorUdpSink),
    (a.dep && c.resamplerCreate && c.addResampler, .txResampler),
    (a.dep && c.depSinkCreate && c.addDepSink, .txDepSink)]

def createdLast : List (Bool × TxObject) := [(c.clockCreate, .clock), (c.schedulerCreate, .sched)]

def threads : List (Bool × TxObject) := [(c.schedThread, .schedThread), (c.busThread, .busThread)]

/-- What the cleanup does with the fields of `zst_dante_tx_t` as they are at the end. The bus
thread has an id where its creation succeeded; the scheduler's thread is joined wherever there
is a scheduler. -/
def danteCleanup : List (Action TxObject) :=
  (chosen [(c.busThread, TxObject.busThread)]).map .stop ++
  (chosen [(!a.rtspOnly && c.appVideoSrcPad, TxObject.appVideoSrcPad),
    (a.mirror && c.appVideoMirrorSrcPad, .appVideoMirrorSrcPad),
    (a.dep && c.appAudioSrcPad, .appAudioSrcPad),
    (c.rtspVideoPad, .rtspVideoPad), (c.rtspAudioPad, .rtspAudioPad),
    (a.dep && c.sessionCreate, .session)]).map .destroy ++
  (chosen [(c.schedulerCreate, TxObject.schedThread)]).map .stop ++
  (chosen [(c.schedulerCreate, TxObject.sched), (true, .pipe), (c.clockCreate, .clock),
    (true, .danteTx)]).map .destroy

/-- Create the chosen objects, in order. -/
def createAll (l : List (Bool × TxObject)) : TxScript Unit :=
  { result := some (), actions := (chosen l).map .create, undo := [] }

/-- Hand the chosen elements to the pipeline, in order. -/
def addAll (l : List (Bool × TxObject)) : TxScript Unit :=
  { result := some (), actions := (chosen l).map .handOver, undo := [] }

def startThreads (l : List (Bool × TxObject)) : TxScript Unit :=
  { result := some (), actions := (chosen l).map fun k => .start k [], undo := [] }

def register (undo : List (Action TxObject)) : TxScript Unit :=
  { result := some (), actions := [], undo := undo }

/-- Everything after the creation of the pipeline object. -/
def buildPipeline : TxScript Unit := do
  createAll (createdFirst a c)
  -- these two exits register nothing
  check (c.rtspServerCreate && c.rtspAddSession)
  createAll (createdSecond a c)
  check (!a.mirror || (c.payloaderCreate && c.udpSinkCreate))
  createAll (createdThird a c)
  addAll (added a c)
  createAll (createdLast c)
  startThreads (threads c)
  register (danteCleanup a c)

def startDanteServer : TxScript Unit := do
  perform (.create .danteTx) []
  if c.pipelineCreate then buildPipeline a c
  else do
    perform (.destroy .danteTx) []
    check false

end Program

/-! ## The world at the end -/

/-- Everything created before the pipeline takes its elements over. -/
def created (a : DanteArgs) (c : DanteCalls) : List (Bool × TxObject) :=
  (true, .danteTx) :: (createdFirst a c ++ createdSecond a c ++ createdThird a c)

/-- The objects of a server that started. -/
def liveAtEnd (a : DanteArgs) (c : DanteCalls) : List TxObject :=
  (chosen (createdLast c)).reverse ++ (chosen (created a c)).reverse.diff (chosen (added a c))

/-- Both checks in the middle pass. -/
def DanteCalls.passes (a : DanteArgs) (c : DanteCalls) : Bool :=
  (c.rtspServerCreate && c.rtspAddSession) && (!a.mirror || (c.payloaderCreate && c.udpSinkCreate))

theorem nodup_created (a : DanteArgs) (c : DanteCalls) : (chosen (created a c)).Nodup :=
  nodup_chosen (by
    show (_ : List TxObject).Nodup
    simp [created, createdFirst, createdSecond, createdThird])

theorem added_subset {a : DanteArgs} {c : DanteCalls} (hpass : c.passes a = true) :
    ∀ i ∈ chosen (added a c), i ∈ chosen (created a c) := by
  intro i hi
  rw [mem_chosen] at hi ⊢
  simp only [DanteCalls.passes, Bool.and_eq_true, Bool.or_eq_true, Bool.not_eq_true'] at hpass
  obtain ⟨⟨hserver, -⟩, hmirror⟩ := hpass
  simp only [added, List.mem_cons, Prod.mk.injEq, List.not_mem_nil, or_false] at hi
  rcases hi with ⟨h, rfl⟩ | ⟨h, rfl⟩ | ⟨h, rfl⟩ | ⟨h, rfl⟩ | ⟨h, rfl⟩ | ⟨h, rfl⟩
  · simp only [Bool.true_eq, Bool.and_eq_true] at h
    simp [created, createdFirst, h.1]
  · simp [created, createdFirst, hserver]
  · simp only [Bool.true_eq, Bool.and_eq_true] at h
    have hpayloader : c.payloaderCreate = true := by
      rcases hmirror with hmirror | hmirror
      · rw [hmirror] at h; cases h.1
      · exact hmirror.1
    simp [created, createdFirst, createdSecond, h.1, hpayloader]
  · simp only [Bool.true_eq, Bool.and_eq_true] at h
    have hsink : c.udpSinkCreate = true := by
      rcases hmirror with hmirror | hmirror
      · rw [hmirror] at h; cases h.1
      · exact hmirror.2
    simp [created, createdFirst, createdSecond, h.1, hsink]
  · simp only [Bool.true_eq, Bool.and_eq_true] at h
    simp [created, createdFirst, createdSecond, createdThird, h.1]
  · simp only [Bool.true_eq, Bool.and_eq_true] at h
    simp [created, createdFirst, createdSecond, createdThird, h.1]

/-- What a server that started has done. -/
theorem buildPipeline_passes {a : DanteArgs} {c : DanteCalls} (hpass : c.passes a = true) :
    buildPipeline a c = {
      result := some ()
      actions :=
        (chosen (createdFirst a c)).map .create ++ ((chosen (createdSecond a c)).map .create ++
          ((chosen (createdThird a c)).map .create ++ ((chosen (added a c)).map .handOver ++
            ((chosen (createdLast c)).map .create ++
              (chosen (threads c)).map fun k => .start k []))))
      undo := danteCleanup a c } := by
  simp only [DanteCalls.passes, Bool.and_eq_true] at hpass
  have hserver : (c.rtspServerCreate && c.rtspAddSession) = true := by simp [hpass.1]
  have hmirror : (!a.mirror || (c.payloaderCreate && c.udpSinkCreate)) = true := by
    simpa using hpass.2
  unfold buildPipeline
  rw [hserver, hmirror]
  simp [bind, createAll, addAll, startThreads, register, check]

theorem chosen_append (l m : List (Bool × TxObject)) : chosen (l ++ m) = chosen l ++ chosen m := by
  simp [chosen]

theorem disjoint_last (a : DanteArgs) (c : DanteCalls) :
    ∀ i ∈ chosen (createdLast c), i ∉ chosen (created a c) := by
  intro i hi hcon
  rw [mem_chosen] at hi hcon
  simp only [createdLast, List.mem_cons, Prod.mk.injEq, List.not_mem_nil, or_false] at hi
  rcases hi with ⟨-, rfl⟩ | ⟨-, rfl⟩ <;>
    simp [created, createdFirst, createdSecond, createdThird] at hcon

/-- The creations, the hand-overs and the threads, one after the other. -/
theorem exec_buildPipeline {a : DanteArgs} {c : DanteCalls} (hpass : c.passes a = true) :
    empty.exec (.create .danteTx :: (buildPipeline a c).actions)
      = some ⟨liveAtEnd a c, (chosen (threads c)).reverse.map fun k => (k, [])⟩ := by
  have hcreated : (Action.create TxObject.danteTx :: (buildPipeline a c).actions)
      = (chosen (created a c)).map .create ++ ((chosen (added a c)).map .handOver ++
          ((chosen (createdLast c)).map .create ++
            (chosen (threads c)).map fun k => .start k [])) := by
    have hfirst : chosen (created a c) = .danteTx :: (chosen (createdFirst a c) ++
        chosen (createdSecond a c) ++ chosen (createdThird a c)) := by
      rw [← chosen_append, ← chosen_append]
      rfl
    rw [buildPipeline_passes hpass, hfirst]
    simp only [List.map_cons, List.map_append, List.cons_append, List.append_assoc]
  have hadded : ∀ i ∈ chosen (added a c), i ∈ (chosen (created a c)).reverse ++ [] := by
    intro i hi
    rw [List.append_nil, List.mem_reverse]
    exact added_subset hpass i hi
  have hlast : ∀ i ∈ chosen (createdLast c),
      i ∉ ((chosen (created a c)).reverse ++ []).diff (chosen (added a c)) := by
    intro i hi hcon
    have hmem := List.diff_subset _ _ hcon
    rw [List.append_nil, List.mem_reverse] at hmem
    exact disjoint_last a c i hi hmem
  have hthreads : (chosen (threads c)).Nodup := nodup_chosen (by simp [threads])
  rw [hcreated, exec_append, exec_creates (nodup_created a c) fun _ _ => List.not_mem_nil,
    Option.bind_some, exec_append, exec_handOvers (nodup_chosen (by simp [added])) hadded,
    Option.bind_some, exec_append, exec_creates (nodup_chosen (by simp [createdLast])) hlast,
    Option.bind_some, exec_starts hthreads fun _ _ => List.not_mem_nil]
  simp [liveAtEnd, empty]

/-- The pipeline takes over every element that exists, and the scheduler has a thread exactly
where it exists. -/
def DanteCalls.owned (a : DanteArgs) (c : DanteCalls) : Prop :=
  (a.rtspOnly = false → c.coordinatorCreate = true → c.addCoordinator = true) ∧
  c.addRtspServer = true ∧
  (a.mirror = true → c.addPayloader = true ∧ c.addUdpSink = true) ∧
  (a.dep = true → c.resamplerCreate = true → c.addResampler = true) ∧
  (a.dep = true → c.depSinkCreate = true → c.addDepSink = true) ∧
  c.schedulerCreate = c.schedThread

theorem danteCleanup_releases (a : DanteArgs) (c : DanteCalls) :
    ∀ b ∈ danteCleanup a c, releases b = true := by
  intro b hb
  simp only [danteCleanup, List.mem_append, List.mem_map] at hb
  rcases hb with ((⟨i, -, rfl⟩ | ⟨i, -, rfl⟩) | ⟨i, -, rfl⟩) | ⟨i, -, rfl⟩ <;> rfl

/-- The objects that the cleanup destroys, in its order. -/
def cleanedUp (a : DanteArgs) (c : DanteCalls) : List (Bool × TxObject) :=
  [(!a.rtspOnly && c.appVideoSrcPad, .appVideoSrcPad),
    (a.mirror && c.appVideoMirrorSrcPad, .appVideoMirrorSrcPad),
    (a.dep && c.appAudioSrcPad, .appAudioSrcPad),
    (c.rtspVideoPad, .rtspVideoPad), (c.rtspAudioPad, .rtspAudioPad),
    (a.dep && c.sessionCreate, .session)] ++
  [(c.schedulerCreate, .sched), (true, .pipe), (c.clockCreate, .clock), (true, .danteTx)]

theorem destroyed_danteCleanup (a : DanteArgs) (c : DanteCalls) :
    destroyed (danteCleanup a c) = chosen (cleanedUp a c) := by
  have hdes : ∀ l : List TxObject, destroyed (l.map Action.destroy) = l := by
    intro l
    simp [destroyed, List.filterMap_map]
  have hstop : ∀ l : List TxObject, destroyed (l.map Action.stop) = [] := by
    intro l
    simp [destroyed, List.filterMap_map]
  have happend : ∀ as bs : List (Action TxObject),
      destroyed (as ++ bs) = destroyed as ++ destroyed bs := by
    intro as bs
    simp [destroyed]
  rw [danteCleanup, happend, happend, happend, hstop, hstop, hdes, hdes, List.nil_append,
    List.append_nil, cleanedUp, chosen_append]

theorem stopped_danteCleanup (a : DanteArgs) (c : DanteCalls) :
    stopped (danteCleanup a c)
      = chosen [(c.busThread, .busThread)] ++ chosen [(c.schedulerCreate, .schedThread)] := by
  have hdes : ∀ l : List TxObject, stopped (l.map Action.destroy) = [] := by
    intro l
    simp [stopped, List.filterMap_map]
  have hstop : ∀ l : List TxObject, stopped (l.map Action.stop) = l := by
    intro l
    simp [stopped, List.filterMap_map]
  have happend : ∀ as bs : List (Action TxObject),
      stopped (as ++ bs) = stopped as ++ stopped bs := by
    intro as bs
    simp [stopped]
  rw [danteCleanup, happend, happend, happend, hstop, hstop, hdes, hdes, List.append_nil,
    List.append_nil]

theorem mem_liveAtEnd (a : DanteArgs) (c : DanteCalls) (i : TxObject) :
    i ∈ liveAtEnd a c ↔ (true, i) ∈ createdLast c ∨
      ((true, i) ∈ created a c ∧ (true, i) ∉ added a c) := by
  have hnodup : (chosen (created a c)).reverse.Nodup :=
    List.nodup_reverse.mpr (nodup_created a c)
  rw [liveAtEnd, List.mem_append, List.mem_reverse, hnodup.mem_sdiff_iff, List.mem_reverse,
    mem_chosen, mem_chosen, mem_chosen]

theorem nodup_liveAtEnd (a : DanteArgs) (c : DanteCalls) : (liveAtEnd a c).Nodup := by
  have hcreated : ((chosen (created a c)).reverse.diff (chosen (added a c))).Nodup :=
    (List.nodup_reverse.mpr (nodup_created a c)).diff
  refine List.nodup_append'.mpr ⟨List.nodup_reverse.mpr (nodup_chosen (by simp [createdLast])),
    hcreated, ?_⟩
  intro i hi hcon
  have hmem := List.diff_subset _ _ hcon
  rw [List.mem_reverse] at hi hmem
  exact disjoint_last a c i hi hmem

/-- Every object is destroyed by the cleanup or taken over by the pipeline. -/
theorem perm_liveAtEnd_iff (a : DanteArgs) (c : DanteCalls) (hpass : c.passes a = true) :
    (chosen (cleanedUp a c)).Perm (liveAtEnd a c) ↔
      (a.rtspOnly = false → c.coordinatorCreate = true → c.addCoordinator = true) ∧
      c.addRtspServer = true ∧
      (a.mirror = true → c.addPayloader = true ∧ c.addUdpSink = true) ∧
      (a.dep = true → c.resamplerCreate = true → c.addResampler = true) ∧
      (a.dep = true → c.depSinkCreate = true → c.addDepSink = true) := by
  have hcleaned : (chosen (cleanedUp a c)).Nodup := nodup_chosen (by simp [cleanedUp])
  simp only [DanteCalls.passes, Bool.and_eq_true, Bool.or_eq_true, Bool.not_eq_true'] at hpass
  obtain ⟨⟨hserver, -⟩, hmirror⟩ := hpass
  rw [List.perm_ext_iff_of_nodup hcleaned (nodup_liveAtEnd a c)]
  simp only [mem_liveAtEnd, mem_chosen, cleanedUp, created, createdFirst, createdSecond,
    createdThird, createdLast, added, List.mem_append, List.mem_cons, List.not_mem_nil,
    Prod.mk.injEq, or_false]
  constructor
  · intro h
    refine ⟨fun hr hc => ?_, ?_, fun hm => ?_, fun hd hc => ?_, fun hd hc => ?_⟩
    · have hi : a.rtspOnly = false → c.coordinatorCreate = true →
          a.rtspOnly = false ∧ c.coordinatorCreate = true ∧ c.addCoordinator = true := by
        simpa using h .coordinator
      exact (hi hr hc).2.2
    · have hi : c.rtspServerCreate = true → c.addRtspServer = true := by
        simpa using h .rtspServer
      exact hi hserver
    · have hp : a.mirror = true → c.payloaderCreate = true →
          a.mirror = true ∧ c.addPayloader = true := by
        simpa using h .mirrorRtpPayloader
      have hu : a.mirror = true → c.udpSinkCreate = true →
          a.mirror = true ∧ c.addUdpSink = true := by
        simpa using h .mirrorUdpSink
      rcases hmirror with hmirror | ⟨hpayloader, hsink⟩
      · rw [hmirror] at hm; cases hm
      · exact ⟨(hp hm hpayloader).2, (hu hm hsink).2⟩
    · have hi : a.dep = true → c.resamplerCreate = true →
          a.dep = true ∧ c.resamplerCreate = true ∧ c.addResampler = true := by
        simpa using h .txResampler
      exact (hi hd hc).2.2
    · have hi : a.dep = true → c.depSinkCreate = true →
          a.dep = true ∧ c.depSinkCreate = true ∧ c.addDepSink = true := by
        simpa using h .txDepSink
      exact (hi hd hc).2.2
  · rintro ⟨hcoordinator, hrtsp, hmirr, hres, hdep⟩ i
    -- the elements are live nowhere, the other objects in both lists alike
    cases i with
    | coordinator => simpa using fun hr hc => ⟨hr, hc, hcoordinator hr hc⟩
    | rtspServer => simpa using fun _ => hrtsp
    | mirrorRtpPayloader => simpa using fun hm _ => ⟨hm, (hmirr hm).1⟩
    | mirrorUdpSink => simpa using fun hm _ => ⟨hm, (hmirr hm).2⟩
    | txResampler => simpa using fun hd hc => ⟨hd, hc, hres hd hc⟩
    | txDepSink => simpa using fun hd hc => ⟨hd, hc, hdep hd hc⟩
    | _ => simp

theorem perm_threads_iff (c : DanteCalls) :
    (chosen [(c.busThread, TxObject.busThread)] ++
        chosen [(c.schedulerCreate, TxObject.schedThread)]).Perm (chosen (threads c)).reverse ↔
      c.schedulerCreate = c.schedThread := by
  unfold threads
  cases c.busThread <;> cases c.schedulerCreate <;> cases c.schedThread <;> decide

/-- A start that fails in the middle registers nothing, and does not destroy its object. -/
theorem buildPipeline_fails {a : DanteArgs} {c : DanteCalls} (hpass : c.passes a = false) :
    (buildPipeline a c).undo = [] ∧
    ∀ b ∈ (buildPipeline a c).actions, b.name ≠ .object .danteTx := by
  have hfirst : ∀ i ∈ chosen (createdFirst a c), i ≠ .danteTx := by
    rintro i hi rfl
    simp [mem_chosen, createdFirst] at hi
  have hsecond : ∀ i ∈ chosen (createdSecond a c), i ≠ .danteTx := by
    rintro i hi rfl
    simp [mem_chosen, createdSecond] at hi
  unfold DanteCalls.passes at hpass
  unfold buildPipeline
  cases hserver : c.rtspServerCreate && c.rtspAddSession with
  | false =>
      refine ⟨rfl, fun b hb => ?_⟩
      have hb' : b ∈ (chosen (createdFirst a c)).map Action.create := by
        simpa [bind, createAll, check] using hb
      obtain ⟨i, hi, rfl⟩ := List.mem_map.mp hb'
      exact fun e => hfirst i hi (Name.object.inj e)
  | true =>
      rw [hserver, Bool.true_and] at hpass
      rw [hpass]
      refine ⟨rfl, fun b hb => ?_⟩
      have hb' : b ∈ (chosen (createdFirst a c)).map Action.create ++
          (chosen (createdSecond a c)).map Action.create := by
        simpa [bind, createAll, check] using hb
      rcases List.mem_append.mp hb' with hb' | hb'
      · obtain ⟨i, hi, rfl⟩ := List.mem_map.mp hb'
        exact fun e => hfirst i hi (Name.object.inj e)
      · obtain ⟨i, hi, rfl⟩ := List.mem_map.mp hb'
        exact fun e => hsecond i hi (Name.object.inj e)

/-- **The teardown of the zstreamer server.** Where both checks in the middle pass, it is complete
exactly if the pipeline owns its elements and the scheduler its thread; where one of them fails,
nothing is undone. -/
theorem startDanteServer_safe_iff (a : DanteArgs) (c : DanteCalls) :
    (startDanteServer a c).Safe ↔
      c.pipelineCreate = false ∨ (c.passes a = true ∧ c.owned a) := by
  unfold startDanteServer
  cases hpipe : c.pipelineCreate with
  | false =>
      refine iff_of_true ?_ (.inl rfl)
      rw [if_neg Bool.false_ne_true]
      decide
  | true =>
      rw [if_pos rfl]
      -- the run from the start is that of the body, and then of what it leaves to undo
      have htotal : ((perform (.create .danteTx) [] : TxScript Unit) >>=
          fun _ => buildPipeline a c).Safe ↔
          (empty.exec (.create .danteTx :: (buildPipeline a c).actions)).bind
            (fun w => w.exec (buildPipeline a c).undo) = some empty := by
        unfold Safe
        rw [bind_of_result rfl, ← exec_append]
        simp [perform]
      refine htotal.trans ?_
      cases hpass : c.passes a with
      | false =>
          -- the server object at least is left
          obtain ⟨hundo, hname⟩ := buildPipeline_fails hpass
          refine iff_of_false ?_ (by simp)
          rw [hundo]
          intro hend
          have hexec : (⟨[.danteTx], []⟩ : World TxObject).exec (buildPipeline a c).actions
              = some empty := by
            cases hw : (⟨[.danteTx], []⟩ : World TxObject).exec (buildPipeline a c).actions with
            | none => simp [step, empty, hw] at hend
            | some w => simpa [step, empty, hw] using hend
          have hleft := (present_exec hexec hname).mpr (show _ ∈ [TxObject.danteTx] by simp)
          exact absurd hleft List.not_mem_nil
      | true =>
          have hkeys : (⟨liveAtEnd a c, (chosen (threads c)).reverse.map fun k => (k, [])⟩ :
              World TxObject).keys = (chosen (threads c)).reverse := by
            simp [keys, Function.comp_def]
          have hused : (⟨liveAtEnd a c, (chosen (threads c)).reverse.map fun k => (k, [])⟩ :
              World TxObject).used = [] := by
            simp [used]
          have hnodup : (chosen (threads c)).reverse.Nodup :=
            List.nodup_reverse.mpr (nodup_chosen (by simp [threads]))
          rw [exec_buildPipeline hpass, Option.bind_some, buildPipeline_passes hpass,
            exec_release (by rw [hkeys]; exact hnodup) hused (danteCleanup_releases a c), hkeys,
            destroyed_danteCleanup, stopped_danteCleanup, perm_liveAtEnd_iff a c hpass,
            perm_threads_iff]
          simp [DanteCalls.owned, and_assoc]

end QcapDemos.Tx

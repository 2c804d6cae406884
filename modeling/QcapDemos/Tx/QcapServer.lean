import QcapDemos.Tx.Start

set_option autoImplicit false

/-! # The TX server of the QCAP API

`StartQcapDanteServer` registers one cleanup for all its objects before it creates the first of
them. What the cleanup does is decided by the fields of `qcap_dante_tx_t` when it runs. The
event of the audio resampler is created later, so its own cleanups run before: the event is
deleted while the resampler that was given it still runs, and a resampler that was never
started is stopped.
-/

namespace QcapDemos.Tx

open QcapDemos.Lib QcapDemos.Lib.Script QcapDemos.Lib.World

/-- The fields of `qcap_dante_tx_t` that the cleanup reads. -/
structure QcapTx where
  server : Bool
  sender : Bool
  audioResampler : Bool
  serverStarted : Bool
  senderStarted : Bool
deriving DecidableEq

def QcapTx.new : QcapTx :=
  { server := false, sender := false, audioResampler := false, serverStarted := false,
    senderStarted := false }

/-- `if (b)` in front of some of the cleanup. -/
def when (b : Bool) (actions : List (Action TxObject)) : List (Action TxObject) :=
  if b then actions else []

/-- The cleanup, run when the fields are those of `tx`. -/
def QcapTx.cleanup (tx : QcapTx) : List (Action TxObject) :=
  when tx.audioResampler [.stop .audioResampler, .destroy .audioResampler] ++
  when tx.sender (when tx.senderStarted [.stop .qcapSender] ++ [.destroy .qcapSender]) ++
  when tx.server (when tx.serverStarted [.stop .qcapServer] ++ [.destroy .qcapServer]) ++
  [.destroy .qcapTx]

/-- Whether each call succeeds. -/
structure QcapCalls where
  createServer : Bool
  setCustomProperty : Bool
  registerCallback : Bool
  startServer : Bool
  createSender : Bool
  setVideoProperty : Bool
  setAudioProperty : Bool
  newResampler : Bool
  event : Bool
  startResampler : Bool
  startSender : Bool
deriving DecidableEq

/-- The checks from the creation of the server to its start. -/
def QcapCalls.serverStarts (c : QcapCalls) : Bool :=
  c.setCustomProperty && c.registerCallback && c.startServer

/-- The checks from the creation of the sender to that of the audio resampler. -/
def QcapCalls.resamplerCreated (c : QcapCalls) : Bool :=
  c.setVideoProperty && c.setAudioProperty && c.newResampler

/-- The function after the registration of the cleanup: the fields of `tx` at its end, and what
it did itself, with the cleanups that it registered. -/
def qcapServerBody (c : QcapCalls) : QcapTx × TxScript Unit :=
  let tx := QcapTx.new
  if !c.createServer then (tx, check false)
  else
    let tx := { tx with server := true }
    let create : TxScript Unit := perform (.create .qcapServer) []
    if !c.serverStarts then
      (tx, do create; check false)
    else
      let tx := { tx with serverStarted := true }
      let start : TxScript Unit := do create; perform (.start .qcapServer [.qcapServer]) []
      if !c.createSender then (tx, do start; check false)
      else
        let tx := { tx with sender := true }
        let sender : TxScript Unit := do start; perform (.create .qcapSender) []
        if !c.resamplerCreated then
          (tx, do sender; check false)
        else
          let tx := { tx with audioResampler := true }
          let resampler : TxScript Unit := do
            sender
            perform (.create .audioResampler) []
            newEvent .qcapAudioResampler c.event
            check c.startResampler
            perform (.start .audioResampler [.audioResampler, .event .qcapAudioResampler]) []
            check c.startSender
            perform (.start .qcapSender [.qcapSender]) []
          ({ tx with senderStarted := c.event && c.startResampler && c.startSender }, resampler)

def startQcapDanteServer (c : QcapCalls) : TxScript Unit := do
  perform (.create .qcapTx) (qcapServerBody c).1.cleanup
  (qcapServerBody c).2

/-- The audio resampler is created. -/
def QcapCalls.reachesResampler (c : QcapCalls) : Bool :=
  c.createServer && c.serverStarts && c.createSender && c.resamplerCreated

/-- **The teardown of the QCAP server.** It is complete and in a safe order exactly where the
start failed before there was an audio resampler. -/
theorem startQcapDanteServer_safe_iff (c : QcapCalls) :
    (startQcapDanteServer c).Safe ↔ c.reachesResampler = false := by
  unfold startQcapDanteServer qcapServerBody QcapCalls.reachesResampler
  generalize c.createServer = createServer
  generalize c.serverStarts = serverStarts
  generalize c.createSender = createSender
  generalize c.resamplerCreated = resamplerCreated
  generalize c.event = event
  generalize c.startResampler = startResampler
  generalize c.startSender = startSender
  revert createServer serverStarts createSender resamplerCreated event startResampler startSender
  decide +kernel

end QcapDemos.Tx

import QcapDemos.Drm.Mode

set_option autoImplicit false

/-! # The command line of the receiver

`main` of the receiver reads its options, checks them against each other, and starts one of four
clients: the RTSP bridge, the Ultra output (with or without the AVH receiver), the receiver of the
QCAP API, or the pipeline of zstreamer. An option that wants a value takes the next argument,
whatever it is; at the end of the line it is ignored like an unknown option, but for `--rtsp-url`.

The settings that a command line can reach are exactly the sound ones (`exists_main_iff`).
-/

namespace QcapDemos.Rx.CommandLine

open QcapDemos.Drm

/-! ## Numbers in arguments -/

/-- `isspace` -/
def isSpace (c : Char) : Bool := c.toNat == 32 || (9 ≤ c.toNat && c.toNat ≤ 13)

/-- The value of `strtoul` for the digits that it has read. -/
def toULong (negative : Bool) (n : Nat) : Nat :=
  if 2 ^ 64 ≤ n then 2 ^ 64 - 1
  else if negative then (2 ^ 64 - n) % 2 ^ 64
  else n

/-- The sign, and what follows. -/
def scanSign : List Char → Bool × List Char
  | '-' :: text => (true, text)
  | '+' :: text => (false, text)
  | text => (false, text)

/-- A number as `strtoul` and the `%u` of `sscanf` read it, and what follows. -/
def scanNumber (text : List Char) : Option (Nat × List Char) :=
  let (negative, text) := scanSign (text.dropWhile isSpace)
  let digits := text.takeWhile Char.isDigit
  if digits.isEmpty then none
  else some (toULong negative (Nat.ofDigitChars 10 digits 0), text.dropWhile Char.isDigit)

def strtoul (text : String) : Nat := ((scanNumber text.toList).map Prod.fst).getD 0

/-- A character of a `sscanf` format. -/
def literal (c : Char) : List Char → Option (List Char)
  | [] => none
  | d :: text => if d = c then some text else none

/-- `%ux%u@%u`, or else `%ux%u` at 60. -/
def scanMode (text : List Char) : Option (UInt32 × UInt32 × UInt32) := do
  let (w, text) ← scanNumber text
  let (h, text) ← (literal 'x' text).bind scanNumber
  let fps := (((literal '@' text).bind scanNumber).map Prod.fst).getD 60
  return (UInt32.ofNat w, UInt32.ofNat h, UInt32.ofNat fps)

/-! ## The options -/

/-- The variables of `main` and the globals that the options set. -/
structure Settings where
  dvrSocket : String := "/var/run/dante/dvr"
  depName : String := "DanteEP"
  channels : String := "0,1"
  sampleRate : UInt32 := 48000
  statInterval : UInt32 := 3
  reconstructedPath : String := ""
  mediaPath : String := "linux-decode"
  fixedModeOverride : Bool := false
  forceDanteSource : Bool := false
  fixedW : UInt32 := 3840
  fixedH : UInt32 := 2160
  fixedFps : UInt32 := 60
  directMode : Bool := false
  useQcap : Bool := false
  decodeRequested : Bool := false
  recvOnly : Bool := false
  rtpStatsOnly : Bool := false
  displayEnabled : Bool := true
  rtspUrl : String := ""
  reorderWindow : UInt32 := 1
  reorderTimeoutMs : UInt32 := 1
  directPeer : String := ""
  directLocal : String := "192.168.190.145"
  directPort : UInt16 := 16490
  depAudioBatched : Bool := false
  sdiAudioOptional : Bool := false
  sdiAudioDisabled : Bool := false
  tpgPattern : UInt32 := 7
deriving DecidableEq

/-- Why `main` returns before it starts a client: with 0 after the help, or with 1. -/
inductive Exit where
  | help
  | error (message : String)
deriving DecidableEq

/-- The options without a value. -/
def flag (arg : String) : Option (Settings → Settings) :=
  match arg with
  | "--use-qcap" => some fun s => { s with useQcap := true }
  | "--dep-audio-batched" => some fun s => { s with depAudioBatched := true }
  | "--sdi-audio-optional" => some fun s => { s with sdiAudioOptional := true }
  | "--no-sdi-audio" => some fun s => { s with sdiAudioDisabled := true }
  | "--force-dante-source" => some fun s => { s with forceDanteSource := true }
  | "--decode" => some fun s => { s with decodeRequested := true }
  | "--recv-only" => some fun s => { s with recvOnly := true }
  | "--no-display" => some fun s => { s with displayEnabled := false }
  | "--rtp-stats-only" => some fun s => { s with rtpStatsOnly := true }
  | _ => none

/-- `--mode` -/
def setMode (value : String) (s : Settings) : Except Exit Settings :=
  match scanMode value.toList with
  | some (w, h, fps) =>
      .ok { s with fixedW := w, fixedH := h, fixedFps := fps, fixedModeOverride := true }
  | none =>
      .error (.error ("Invalid --mode format '" ++ value ++
        "'. Expected WxH[@fps], e.g. 3840x2160@60"))

/-- The options with a value. -/
def valued (arg : String) : Option (String → Settings → Except Exit Settings) :=
  match arg with
  | "--rtsp-url" => some fun v s => .ok { s with rtspUrl := v }
  | "--dvr" => some fun v s => .ok { s with dvrSocket := v }
  | "--dep" => some fun v s => .ok { s with depName := v }
  | "--channels" => some fun v s => .ok { s with channels := v }
  | "--rate" => some fun v s => .ok { s with sampleRate := .ofNat (strtoul v) }
  | "--interval" => some fun v s => .ok { s with statInterval := .ofNat (strtoul v) }
  | "--media-path" => some fun v s => .ok { s with mediaPath := v }
  | "--tpg-pattern" => some fun v s => .ok { s with tpgPattern := .ofNat (strtoul v) }
  | "--mode" => some setMode
  | "--dump-reconstructed" => some fun v s => .ok { s with reconstructedPath := v }
  | "--direct" => some fun v s => .ok { s with directPeer := v, directMode := true }
  | "--local-ip" => some fun v s => .ok { s with directLocal := v }
  | "--port" => some fun v s => .ok { s with directPort := .ofNat (strtoul v) }
  | "--reorder-window" => some fun v s => .ok { s with reorderWindow := .ofNat (strtoul v) }
  | "--reorder-timeout-ms" => some fun v s => .ok { s with reorderTimeoutMs := .ofNat (strtoul v) }
  | _ => none

/-- The loop over the arguments. -/
def parse : List String → Settings → Except Exit Settings
  | [], s => .ok s
  | arg :: rest, s =>
      if arg = "--help" ∨ arg = "-h" then .error .help
      else
        match flag arg with
        | some set => parse rest (set s)
        | none =>
            match valued arg, rest with
            | some set, value :: rest => do parse rest (← set value s)
            | some _, [] =>
                if arg = "--rtsp-url" then .error (.error "--rtsp-url requires a URL") else .ok s
            | none, rest => parse rest s

/-! ## The checks -/

/-- The client that is started: the Ultra output with the Dante overlay from the start or not, the
pipeline with the decoder or without. -/
inductive Client where
  | rtsp
  | ultra (forceDanteSource : Bool)
  | qcap
  | pipeline (decodeEnabled : Bool)
deriving DecidableEq

/-- `from_product`: the output is SDI. -/
def fromProduct (product : String) : Bool :=
  "SC6F0 SDI Dante RX".toList.isPrefixOf product.toList

/-- The output of the product that the device tree names, HDMI where it names none. -/
def onSdi (product : Option String) : Bool := (product.map fromProduct).getD false

/-- The mode of an SDI output. -/
def checkOutput (sdi : Bool) (s : Settings) : Except Exit Settings :=
  if !sdi then .ok s
  else
    let s :=
      if s.fixedModeOverride then s
      else { s with fixedW := 1920, fixedH := 1080, fixedFps := 60, fixedModeOverride := true }
    if !sdiSize s.fixedW.toNat s.fixedH.toNat || s.fixedFps != 60 then
      .error (.error "SDI output requires --mode 1920x1080@60 or 3840x2160@60")
    else .ok s

def Settings.onUltra (s : Settings) : Bool := s.mediaPath == "ultra-direct" || s.mediaPath == "auto"

/-- The first check that fails. -/
def refusal (s : Settings) : Option String :=
  if s.reorderWindow < 1 || 4096 < s.reorderWindow then
    some ("Invalid --reorder-window " ++ toString s.reorderWindow ++ " (expected 1..4096)")
  else if s.reorderTimeoutMs < 1 || 10000 < s.reorderTimeoutMs then
    some ("Invalid --reorder-timeout-ms " ++ toString s.reorderTimeoutMs ++ " (expected 1..10000)")
  else if s.depAudioBatched && (s.useQcap || s.directMode || s.rtspUrl != "" || s.recvOnly ||
      s.rtpStatsOnly || s.mediaPath != "linux-decode" || s.sampleRate != 48000) then
    some "--dep-audio-batched requires 48kHz native DEP linux-decode playback"
  else if s.rtspUrl != "" && (s.useQcap || s.directMode || s.reconstructedPath != "" ||
      s.recvOnly || s.rtpStatsOnly || s.mediaPath != "linux-decode") then
    some ("--rtsp-url is an independent playback mode; do not combine it with " ++
      "Dante/Ultra/direct decode options")
  else if s.useQcap && (s.directMode || s.reconstructedPath != "" || s.recvOnly ||
      s.rtpStatsOnly || s.mediaPath != "linux-decode" || s.dvrSocket != "/var/run/dante/dvr" ||
      s.depName != "DanteEP" || s.channels != "0,1" || s.sampleRate != 48000) then
    some ("--use-qcap requires the normal Dante route with default --dvr /var/run/dante/dvr, " ++
      "--dep DanteEP, --channels 0,1, and --rate 48000; it cannot be combined with " ++
      "--direct, --dump-reconstructed, --recv-only, --rtp-stats-only, or ultra-direct media mode")
  else if s.directMode && s.onUltra then
    some "--direct cannot be combined with Ultra/auto media paths"
  else if s.mediaPath == "auto" && (s.recvOnly || s.rtpStatsOnly || !s.displayEnabled ||
      s.reconstructedPath != "") then
    some ("--media-path auto requires AVH decode/display; --recv-only, --rtp-stats-only, " ++
      "--no-display and --dump-reconstructed are unsupported")
  else if s.forceDanteSource && s.mediaPath != "auto" &&
      (s.mediaPath != "ultra-direct" || !s.fixedModeOverride) then
    some ("--force-dante-source requires --media-path ultra-direct and --mode WxH@fps " ++
      "(or --media-path auto)")
  else if s.mediaPath != "linux-decode" && !s.onUltra then
    some ("unknown --media-path '" ++ s.mediaPath ++
      "' (expected 'linux-decode', 'ultra-direct' or 'auto')")
  else none

def Settings.decodeEnabled (s : Settings) : Bool :=
  if s.recvOnly || s.rtpStatsOnly then false
  else if s.directMode then s.decodeRequested
  else true

def Settings.client (s : Settings) : Client :=
  if s.rtspUrl != "" then .rtsp
  else if s.onUltra then .ultra (s.forceDanteSource || s.mediaPath == "auto")
  else if s.useQcap then .qcap
  else .pipeline s.decodeEnabled

/-- `main`, up to the client that it starts. -/
def main (product : Option String) (argv : List String) : Except Exit (Client × Settings) := do
  let s ← checkOutput (onSdi product) (← parse argv {})
  match refusal s with
  | some message => .error (.error message)
  | none => .ok (s.client, s)

/-! ## Numbers that are written out -/

/-- The text starts with no digit. -/
def NoDigitHead (text : List Char) : Prop := ∀ c ∈ text.head?, c.isDigit = false

theorem toULong_of_lt {n : Nat} (h : n < 2 ^ 64) : toULong false n = n := by
  rw [toULong, if_neg (by omega)]
  rfl

theorem isDigit_of_mem_repr {n : Nat} {c : Char} (h : c ∈ (Nat.repr n).toList) :
    c.isDigit = true := by
  rw [Nat.toList_repr] at h
  exact Nat.isDigit_of_mem_toDigits (by decide) (by decide) h

theorem repr_ne_nil (n : Nat) : (Nat.repr n).toList ≠ [] := by
  rw [Nat.toList_repr]
  exact Nat.toDigits_ne_nil

theorem takeWhile_digits {digits rest : List Char} (hd : ∀ c ∈ digits, c.isDigit = true)
    (hr : NoDigitHead rest) : (digits ++ rest).takeWhile Char.isDigit = digits := by
  induction digits with
  | nil =>
      cases rest with
      | nil => rfl
      | cons c rest => simp [hr c (by simp)]
  | cons d digits ih => simp [hd d (by simp), ih fun c hc => hd c (by simp [hc])]

theorem dropWhile_digits {digits rest : List Char} (hd : ∀ c ∈ digits, c.isDigit = true)
    (hr : NoDigitHead rest) : (digits ++ rest).dropWhile Char.isDigit = rest := by
  induction digits with
  | nil =>
      cases rest with
      | nil => rfl
      | cons c rest => simp [hr c (by simp)]
  | cons d digits ih => simp [hd d (by simp), ih fun c hc => hd c (by simp [hc])]

/-- A digit is neither a space nor a sign. -/
theorem scanSign_digit {c : Char} (hc : c.isDigit = true) (text : List Char) :
    scanSign ((c :: text).dropWhile isSpace) = (false, c :: text) := by
  have hc' : 48 ≤ c.toNat ∧ c.toNat ≤ 57 := by
    simp only [Char.isDigit, Bool.and_eq_true, decide_eq_true_eq] at hc
    exact hc
  have hs : isSpace c = false := by
    simp [isSpace]
    omega
  rw [List.dropWhile_cons_of_neg (by simp [hs])]
  unfold scanSign
  split
  · next h => cases h; cases hc
  · next h => cases h; cases hc
  · rfl

theorem scanNumber_repr {n : Nat} (hn : n < 2 ^ 64) {rest : List Char} (hr : NoDigitHead rest) :
    scanNumber ((Nat.repr n).toList ++ rest) = some (n, rest) := by
  have ht := takeWhile_digits (fun _ => isDigit_of_mem_repr (n := n)) hr
  have hw := dropWhile_digits (fun _ => isDigit_of_mem_repr (n := n)) hr
  have hsign : scanSign (((Nat.repr n).toList ++ rest).dropWhile isSpace) =
      (false, (Nat.repr n).toList ++ rest) := by
    cases hl : (Nat.repr n).toList with
    | nil => exact absurd hl (repr_ne_nil n)
    | cons c cs => exact scanSign_digit (isDigit_of_mem_repr (n := n) (by simp [hl])) (cs ++ rest)
  have hne : (Nat.repr n).toList.isEmpty = false := by simp
  simp only [scanNumber, hsign, ht, hw, hne, Bool.false_eq_true, if_false]
  rw [Nat.toList_repr, Nat.ofDigitChars_ten_toDigits, toULong_of_lt hn]

theorem strtoul_repr {n : Nat} (hn : n < 2 ^ 64) : strtoul (Nat.repr n) = n := by
  have h := @scanNumber_repr n hn [] (by simp [NoDigitHead])
  rw [List.append_nil] at h
  rw [strtoul, h]
  rfl

/-- The text of a mode. -/
def modeText (w h fps : UInt32) : String :=
  Nat.repr w.toNat ++ "x" ++ Nat.repr h.toNat ++ "@" ++ Nat.repr fps.toNat

theorem scanMode_modeText (w h fps : UInt32) : scanMode (modeText w h fps).toList =
    some (w, h, fps) := by
  have lt : ∀ n : UInt32, n.toNat < 2 ^ 64 := fun n => Nat.lt_trans n.toNat_lt (by decide)
  have hw := @scanNumber_repr w.toNat (lt w)
    ('x' :: ((Nat.repr h.toNat).toList ++ '@' :: (Nat.repr fps.toNat).toList))
    (by simp [NoDigitHead])
  have hh := @scanNumber_repr h.toNat (lt h) ('@' :: (Nat.repr fps.toNat).toList)
    (by simp [NoDigitHead])
  have hf := @scanNumber_repr fps.toNat (lt fps) [] (by simp [NoDigitHead])
  rw [List.append_nil] at hf
  have htext : (modeText w h fps).toList = (Nat.repr w.toNat).toList ++ 'x' ::
      ((Nat.repr h.toNat).toList ++ '@' :: (Nat.repr fps.toNat).toList) := by
    simp [modeText]
  simp [-Nat.toList_repr, scanMode, htext, hw, hh, hf, literal]

/-! ## What a command line sets -/

/-- The settings keep to the defaults of the mode and of the peer where no option has touched
them. -/
structure Settings.KeepsDefaults (s : Settings) : Prop where
  mode : s.fixedModeOverride = false → s.fixedW = 3840 ∧ s.fixedH = 2160 ∧ s.fixedFps = 60
  peer : s.directMode = false → s.directPeer = ""

theorem Settings.keepsDefaults : ({} : Settings).KeepsDefaults :=
  ⟨fun _ => ⟨rfl, rfl, rfl⟩, fun _ => rfl⟩

theorem Settings.KeepsDefaults.flag {arg : String} {set : Settings → Settings}
    (h : flag arg = some set) {s : Settings} (hs : s.KeepsDefaults) : (set s).KeepsDefaults := by
  unfold CommandLine.flag at h
  split at h
  all_goals first
    | cases h
      exact ⟨hs.mode, hs.peer⟩
    | cases h

theorem Settings.KeepsDefaults.setMode {v : String} {s t : Settings} (h : setMode v s = .ok t)
    (hs : s.KeepsDefaults) : t.KeepsDefaults := by
  unfold CommandLine.setMode at h
  split at h
  · cases h
    exact ⟨fun hm => (by cases hm), hs.peer⟩
  · cases h

theorem Settings.KeepsDefaults.valued {arg : String}
    {set : String → Settings → Except Exit Settings} (h : valued arg = some set) {v : String}
    {s t : Settings} (ht : set v s = .ok t) (hs : s.KeepsDefaults) : t.KeepsDefaults := by
  unfold CommandLine.valued at h
  split at h
  all_goals cases h
  case h_9 => exact hs.setMode ht
  case h_11 =>
    cases ht
    exact ⟨hs.mode, fun hm => (by cases hm)⟩
  all_goals
    cases ht
    exact ⟨hs.mode, hs.peer⟩

theorem bind_eq_ok_iff {ε α β : Type} {x : Except ε α} {f : α → Except ε β} {b : β} :
    x >>= f = .ok b ↔ ∃ a, x = .ok a ∧ f a = .ok b := by
  cases x with
  | error e => simp [bind, Except.bind]
  | ok a => simp [bind, Except.bind]

theorem Settings.KeepsDefaults.parse {argv : List String} {s t : Settings}
    (h : parse argv s = .ok t) (hs : s.KeepsDefaults) : t.KeepsDefaults := by
  fun_induction CommandLine.parse argv s with
  | case1 s =>
      cases h
      exact hs
  | case2 => cases h
  | case3 arg s rest _ set hf ih => exact ih h (hs.flag hf)
  | case4 arg s _ _ set value rest hv ih =>
      obtain ⟨u, hset, hu⟩ := bind_eq_ok_iff.mp h
      exact ih u hu (hs.valued hv hset)
  | case5 => cases h
  | case6 =>
      cases h
      exact hs
  | case7 arg s _ _ rest _ ih => exact ih h hs

/-- In front of any other arguments, the arguments change the settings by `f`. -/
def Sets (args : List String) (f : Settings → Settings) : Prop :=
  ∀ rest s, parse (args ++ rest) s = parse rest (f s)

theorem Sets.append {xs ys : List String} {f g : Settings → Settings} (hf : Sets xs f)
    (hg : Sets ys g) : Sets (xs ++ ys) fun s => g (f s) := by
  intro rest s
  rw [List.append_assoc, hf, hg]

theorem Sets.parse {xs : List String} {f : Settings → Settings} (h : Sets xs f) (s : Settings) :
    parse xs s = .ok (f s) := by
  have h' := h [] s
  rwa [List.append_nil] at h'

/-- Arguments that are left out where they are not wanted. -/
def optional (b : Bool) (args : List String) : List String := if b then args else []

theorem Sets.optional {args : List String} {f : Settings → Settings} (h : Sets args f) (b : Bool) :
    Sets (optional b args) fun s => if b then f s else s := by
  cases b
  · exact fun _ _ => rfl
  · exact h

theorem not_help_of_flag {arg : String} {set : Settings → Settings} (h : flag arg = some set) :
    ¬(arg = "--help" ∨ arg = "-h") := by
  rintro (rfl | rfl) <;> cases h

theorem flag_eq_none {arg : String} {set : String → Settings → Except Exit Settings}
    (h : valued arg = some set) : flag arg = none := by
  unfold valued at h
  split at h
  all_goals first
    | rfl
    | cases h

theorem not_help_of_valued {arg : String} {set : String → Settings → Except Exit Settings}
    (h : valued arg = some set) : ¬(arg = "--help" ∨ arg = "-h") := by
  rintro (rfl | rfl) <;> cases h

theorem sets_flag (arg : String) {set : Settings → Settings} (h : flag arg = some set) :
    Sets [arg] set := by
  intro rest s
  rw [List.singleton_append, parse.eq_def]
  simp only [not_help_of_flag h, h, if_false]

theorem sets_valued (arg v : String) {set : String → Settings → Except Exit Settings}
    (h : valued arg = some set) {f : Settings → Settings} (hv : ∀ s, set v s = .ok (f s)) :
    Sets [arg, v] f := by
  intro rest s
  rw [List.cons_append, List.singleton_append, parse.eq_def]
  simp only [not_help_of_valued h, flag_eq_none h, h, hv, if_false]
  rfl

theorem sets_optional (arg : String) {set : Settings → Settings} (h : flag arg = some set)
    (b : Bool) {f : Settings → Settings} (hf : ∀ t, (if b then set t else t) = f t) :
    Sets (optional b [arg]) f := by
  intro rest t
  rw [← hf]
  exact (sets_flag arg h).optional b rest t

/-! ## The command line of given settings -/

/-- A command line that reaches the settings. -/
def Settings.arguments (s : Settings) : List String :=
  optional s.useQcap ["--use-qcap"] ++
  optional s.depAudioBatched ["--dep-audio-batched"] ++
  optional s.sdiAudioOptional ["--sdi-audio-optional"] ++
  optional s.sdiAudioDisabled ["--no-sdi-audio"] ++
  optional s.forceDanteSource ["--force-dante-source"] ++
  optional s.decodeRequested ["--decode"] ++
  optional s.recvOnly ["--recv-only"] ++
  optional (!s.displayEnabled) ["--no-display"] ++
  optional s.rtpStatsOnly ["--rtp-stats-only"] ++
  optional s.fixedModeOverride ["--mode", modeText s.fixedW s.fixedH s.fixedFps] ++
  optional s.directMode ["--direct", s.directPeer] ++
  ["--rtsp-url", s.rtspUrl] ++
  ["--dvr", s.dvrSocket] ++
  ["--dep", s.depName] ++
  ["--channels", s.channels] ++
  ["--rate", Nat.repr s.sampleRate.toNat] ++
  ["--interval", Nat.repr s.statInterval.toNat] ++
  ["--media-path", s.mediaPath] ++
  ["--tpg-pattern", Nat.repr s.tpgPattern.toNat] ++
  ["--dump-reconstructed", s.reconstructedPath] ++
  ["--local-ip", s.directLocal] ++
  ["--port", Nat.repr s.directPort.toNat] ++
  ["--reorder-window", Nat.repr s.reorderWindow.toNat] ++
  ["--reorder-timeout-ms", Nat.repr s.reorderTimeoutMs.toNat]

theorem ofNat_strtoul (n : UInt32) : UInt32.ofNat (strtoul (Nat.repr n.toNat)) = n := by
  rw [strtoul_repr (Nat.lt_trans n.toNat_lt (by decide)), UInt32.ofNat_toNat]

theorem ofNat_strtoul_port (n : UInt16) : UInt16.ofNat (strtoul (Nat.repr n.toNat)) = n := by
  rw [strtoul_repr (Nat.lt_trans n.toNat_lt (by decide)), UInt16.ofNat_toNat]

theorem setMode_modeText (w h fps : UInt32) (s : Settings) : setMode (modeText w h fps) s =
    .ok { s with fixedW := w, fixedH := h, fixedFps := fps, fixedModeOverride := true } := by
  rw [setMode, scanMode_modeText]

theorem parse_arguments {s : Settings} (hs : s.KeepsDefaults) : parse s.arguments {} = .ok s := by
  have hqcap := sets_optional "--use-qcap" rfl s.useQcap
    (f := fun t => { t with useQcap := s.useQcap || t.useQcap })
    fun t => by cases s.useQcap <;> rfl
  have hbatched := sets_optional "--dep-audio-batched" rfl s.depAudioBatched
    (f := fun t => { t with depAudioBatched := s.depAudioBatched || t.depAudioBatched })
    fun t => by cases s.depAudioBatched <;> rfl
  have hoptional := sets_optional "--sdi-audio-optional" rfl s.sdiAudioOptional
    (f := fun t => { t with sdiAudioOptional := s.sdiAudioOptional || t.sdiAudioOptional })
    fun t => by cases s.sdiAudioOptional <;> rfl
  have hdisabled := sets_optional "--no-sdi-audio" rfl s.sdiAudioDisabled
    (f := fun t => { t with sdiAudioDisabled := s.sdiAudioDisabled || t.sdiAudioDisabled })
    fun t => by cases s.sdiAudioDisabled <;> rfl
  have hforce := sets_optional "--force-dante-source" rfl s.forceDanteSource
    (f := fun t => { t with forceDanteSource := s.forceDanteSource || t.forceDanteSource })
    fun t => by cases s.forceDanteSource <;> rfl
  have hdecode := sets_optional "--decode" rfl s.decodeRequested
    (f := fun t => { t with decodeRequested := s.decodeRequested || t.decodeRequested })
    fun t => by cases s.decodeRequested <;> rfl
  have hrecv := sets_optional "--recv-only" rfl s.recvOnly
    (f := fun t => { t with recvOnly := s.recvOnly || t.recvOnly })
    fun t => by cases s.recvOnly <;> rfl
  have hstats := sets_optional "--rtp-stats-only" rfl s.rtpStatsOnly
    (f := fun t => { t with rtpStatsOnly := s.rtpStatsOnly || t.rtpStatsOnly })
    fun t => by cases s.rtpStatsOnly <;> rfl
  have hdisplay := sets_optional "--no-display" rfl (!s.displayEnabled)
    (f := fun t => { t with displayEnabled := s.displayEnabled && t.displayEnabled })
    fun t => by cases s.displayEnabled <;> rfl
  have hmode := (sets_valued "--mode" _ rfl
    (setMode_modeText s.fixedW s.fixedH s.fixedFps)).optional s.fixedModeOverride
  have hdirect := (sets_valued "--direct" s.directPeer rfl fun _ => rfl).optional s.directMode
  have h := (((((((hqcap.append hbatched).append hoptional).append hdisabled).append
    hforce).append hdecode).append hrecv).append hdisplay).append hstats
  have h := (h.append hmode).append hdirect
  have h := h.append (sets_valued "--rtsp-url" s.rtspUrl rfl fun _ => rfl)
  have h := h.append (sets_valued "--dvr" s.dvrSocket rfl fun _ => rfl)
  have h := h.append (sets_valued "--dep" s.depName rfl fun _ => rfl)
  have h := h.append (sets_valued "--channels" s.channels rfl fun _ => rfl)
  have h := h.append (sets_valued "--rate" (Nat.repr s.sampleRate.toNat) rfl fun _ => rfl)
  have h := h.append (sets_valued "--interval" (Nat.repr s.statInterval.toNat) rfl fun _ => rfl)
  have h := h.append (sets_valued "--media-path" s.mediaPath rfl fun _ => rfl)
  have h := h.append (sets_valued "--tpg-pattern" (Nat.repr s.tpgPattern.toNat) rfl fun _ => rfl)
  have h := h.append (sets_valued "--dump-reconstructed" s.reconstructedPath rfl fun _ => rfl)
  have h := h.append (sets_valued "--local-ip" s.directLocal rfl fun _ => rfl)
  have h := h.append (sets_valued "--port" (Nat.repr s.directPort.toNat) rfl fun _ => rfl)
  have h := h.append
    (sets_valued "--reorder-window" (Nat.repr s.reorderWindow.toNat) rfl fun _ => rfl)
  have h := h.append
    (sets_valued "--reorder-timeout-ms" (Nat.repr s.reorderTimeoutMs.toNat) rfl fun _ => rfl)
  refine (h.parse {}).trans (congrArg Except.ok ?_)
  -- The mode and the peer are the defaults where the options are left out.
  simp only [ofNat_strtoul, ofNat_strtoul_port, Bool.or_false, Bool.and_true]
  have hmode' := hs.mode
  have hpeer' := hs.peer
  clear * - hmode' hpeer'
  cases hmode : s.fixedModeOverride <;> cases hdirect : s.directMode <;>
    (cases s; simp_all)

/-! ## The client of the settings -/

/-- What each client asks of its settings. -/
def Settings.Suits (s : Settings) : Client → Prop
  | .rtsp => s.rtspUrl ≠ "" ∧ s.mediaPath = "linux-decode" ∧ s.useQcap = false ∧
      s.directMode = false ∧ s.recvOnly = false ∧ s.rtpStatsOnly = false ∧
      s.reconstructedPath = "" ∧ s.depAudioBatched = false ∧ s.forceDanteSource = false
  | .ultra force => s.rtspUrl = "" ∧ s.useQcap = false ∧ s.directMode = false ∧
      s.depAudioBatched = false ∧
      (s.mediaPath = "ultra-direct" ∧ force = s.forceDanteSource ∧
          (force = true → s.fixedModeOverride = true) ∨
        s.mediaPath = "auto" ∧ force = true ∧ s.displayEnabled = true ∧ s.recvOnly = false ∧
          s.rtpStatsOnly = false ∧ s.reconstructedPath = "")
  | .qcap => s.rtspUrl = "" ∧ s.useQcap = true ∧ s.mediaPath = "linux-decode" ∧
      s.directMode = false ∧ s.recvOnly = false ∧ s.rtpStatsOnly = false ∧
      s.reconstructedPath = "" ∧ s.depAudioBatched = false ∧ s.forceDanteSource = false ∧
      s.dvrSocket = "/var/run/dante/dvr" ∧ s.depName = "DanteEP" ∧ s.channels = "0,1" ∧
      s.sampleRate = 48000
  | .pipeline decode => s.rtspUrl = "" ∧ s.mediaPath = "linux-decode" ∧ s.useQcap = false ∧
      s.forceDanteSource = false ∧
      (decode = true ↔ s.recvOnly = false ∧ s.rtpStatsOnly = false ∧
        (s.directMode = true → s.decodeRequested = true)) ∧
      (s.depAudioBatched = true → s.directMode = false ∧ s.recvOnly = false ∧
        s.rtpStatsOnly = false ∧ s.sampleRate = 48000)

/-- The mode of the settings suits the output. -/
def Settings.Fits (sdi : Bool) (s : Settings) : Prop :=
  sdi = true → s.fixedModeOverride = true ∧ sdiSize s.fixedW.toNat s.fixedH.toNat = true ∧
    s.fixedFps = 60

/-- The settings of a client that the receiver starts. -/
structure Sound (sdi : Bool) (client : Client) (s : Settings) : Prop where
  defaults : s.KeepsDefaults
  window : 1 ≤ s.reorderWindow ∧ s.reorderWindow ≤ 4096
  timeout : 1 ≤ s.reorderTimeoutMs ∧ s.reorderTimeoutMs ≤ 10000
  output : s.Fits sdi
  suits : s.Suits client

theorem ite_some_eq_none_iff {α : Type} {c : Bool} {a : α} {o : Option α} :
    (if c then some a else o) = none ↔ c = false ∧ o = none := by
  cases c <;> simp

theorem refusal_eq_none_iff {s : Settings} {client : Client} :
    refusal s = none ∧ s.client = client ↔ (1 ≤ s.reorderWindow ∧ s.reorderWindow ≤ 4096) ∧
      (1 ≤ s.reorderTimeoutMs ∧ s.reorderTimeoutMs ≤ 10000) ∧ s.Suits client := by
  unfold refusal
  simp only [ite_some_eq_none_iff, Bool.or_eq_false_iff, decide_eq_false_iff_not, UInt32.not_lt,
    and_assoc]
  -- The bounds are the same on both sides; the other checks depend on the client.
  refine and_congr_right fun _ => and_congr_right fun _ => and_congr_right fun _ =>
    and_congr_right fun _ => ?_
  have hpath : s.mediaPath = "linux-decode" ∨ s.mediaPath = "ultra-direct" ∨
      s.mediaPath = "auto" ∨ (s.mediaPath ≠ "linux-decode" ∧ s.mediaPath ≠ "ultra-direct" ∧
        s.mediaPath ≠ "auto") := by
    tauto
  have hdecode : s.decodeEnabled = true ↔ s.recvOnly = false ∧ s.rtpStatsOnly = false ∧
      (s.directMode = true → s.decodeRequested = true) := by
    unfold Settings.decodeEnabled
    grind
  by_cases hu : s.rtspUrl = "" <;> rcases hpath with hp | hp | hp | ⟨hp, hp', hp''⟩ <;>
    cases hq : s.useQcap <;> cases client <;>
      simp [Settings.Suits, Settings.client, Settings.onUltra, *]
  case pos.inl.false.pipeline decode =>
    rw [← hdecode, ← Bool.eq_iff_iff, eq_comm (b := decode)]
    tauto
  case pos.inr.inl.false.ultra force =>
    rw [eq_comm (b := force)]
    constructor
    · rintro ⟨hb, hd, hf, rfl⟩
      exact ⟨hd, hb, rfl, hf⟩
    · rintro ⟨hd, hb, rfl, hf⟩
      exact ⟨hb, hd, hf, rfl⟩
  all_goals tauto

theorem main_eq_ok_iff {product : Option String} {argv : List String} {client : Client}
    {s : Settings} : main product argv = .ok (client, s) ↔ ∃ t, parse argv {} = .ok t ∧
      checkOutput (onSdi product) t = .ok s ∧ refusal s = none ∧ s.client = client := by
  simp only [main, bind_eq_ok_iff]
  refine exists_congr fun t => and_congr_right fun _ => ?_
  constructor
  · rintro ⟨u, ho, h⟩
    split at h
    · cases h
    · next hr =>
        cases h
        exact ⟨ho, hr, rfl⟩
  · rintro ⟨ho, hr, rfl⟩
    refine ⟨s, ho, ?_⟩
    rw [hr]

theorem checkOutput_spec {sdi : Bool} {s t : Settings} (h : checkOutput sdi t = .ok s) :
    (t.KeepsDefaults → s.KeepsDefaults) ∧ s.Fits sdi := by
  unfold checkOutput at h
  cases sdi with
  | false =>
      cases h
      exact ⟨id, fun hsdi => (by cases hsdi)⟩
  | true =>
      cases hm : t.fixedModeOverride with
      | false =>
          have hs : sdiSize (1920 : UInt32).toNat (1080 : UInt32).toNat = true := by decide
          simp only [hm, Bool.not_true, Bool.false_eq_true, if_false, hs, bne_self_eq_false,
            Bool.or_self] at h
          cases h
          exact ⟨fun ht => ⟨fun hm' => (by cases hm'), ht.peer⟩, fun _ => ⟨rfl, hs, rfl⟩⟩
      | true =>
          simp only [hm, Bool.not_true, Bool.false_eq_true, if_false, if_true] at h
          split at h
          · cases h
          · next hfit =>
              cases h
              simp only [Bool.or_eq_true, Bool.not_eq_true', bne_iff_ne, not_or, not_not,
                Bool.not_eq_false] at hfit
              exact ⟨id, fun _ => ⟨hm, hfit⟩⟩

theorem checkOutput_of_fits {sdi : Bool} {s : Settings} (h : s.Fits sdi) :
    checkOutput sdi s = .ok s := by
  cases sdi with
  | false => rfl
  | true =>
      obtain ⟨hm, hs, hf⟩ := h rfl
      simp [checkOutput, hm, hs, hf]

/-- **The settings that a client is started with.** Every client starts with the settings that suit
it, and with no others: a command line that starts the client with them exists exactly then. -/
theorem exists_main_iff {product : Option String} {client : Client} {s : Settings} :
    (∃ argv, main product argv = .ok (client, s)) ↔ Sound (onSdi product) client s := by
  constructor
  · rintro ⟨argv, h⟩
    obtain ⟨t, hp, ho, hr, hc⟩ := main_eq_ok_iff.mp h
    obtain ⟨hdefaults, hfits⟩ := checkOutput_spec ho
    obtain ⟨hwindow, htimeout, hsuits⟩ := refusal_eq_none_iff.mp ⟨hr, hc⟩
    exact ⟨hdefaults (Settings.keepsDefaults.parse hp), hwindow, htimeout, hfits, hsuits⟩
  · rintro ⟨hdefaults, hwindow, htimeout, hfits, hsuits⟩
    obtain ⟨hr, hc⟩ := refusal_eq_none_iff.mpr ⟨hwindow, htimeout, hsuits⟩
    exact ⟨s.arguments, main_eq_ok_iff.mpr
      ⟨s, parse_arguments hdefaults, checkOutput_of_fits hfits, hr, hc⟩⟩

end QcapDemos.Rx.CommandLine

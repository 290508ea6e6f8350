import PiHub.Settings
import PiHub.SoundbarListen

/-! Mute and volume of the Audio Pro (audiopro_speaker.py): what its messages do to the state, the
controls, and the soft mute on HDMI. Volumes are in percent, as the messages have them. Times, status
requests, log lines and the group host's address are left out. -/
namespace PiHub.SoftMute
open PiHub.Transition PiHub.PyStr PiHub.Keymap PiHub.StartupMode PiHub.Settings
open PiHub.SoundbarListen (InitialStatus Signal)

def hdmiSoftMuteRestoreDefaultPct : Int := 30

/-- `_volume_step_pct`. -/
def volumeStepPct : Int := 2

/-- `_PLM_TO_SOURCE`. -/
def plmToSource : List (String × String) :=
  [("000", "idle"), ("040", "line-in"), ("041", "bluetooth"), ("043", "optical"), ("049", "hdmi"),
    ("001", "airplay"), ("099", "multiroom-secondary"), ("002", "wifi"), ("010", "wifi"),
    ("011", "wifi"), ("020", "wifi"), ("031", "wifi"), ("032", "wifi")]

def physicalSources : List String := ["hdmi", "optical", "line-in", "bluetooth"]
def networkSources : List String := ["wifi", "airplay", "multiroom-secondary"]

def clampPct (v : Int) : Int := max 0 (min 100 v)

/-- `s.zfill(width)`; a sign stays in front. -/
def zfill (width : Nat) (s : String) : String :=
  let zeros := List.replicate (width - s.toList.length) '0'
  match s.toList with
  | '+' :: cs => String.ofList ('+' :: (zeros ++ cs))
  | '-' :: cs => String.ofList ('-' :: (zeros ++ cs))
  | cs => String.ofList (zeros ++ cs)

/-- `s.split("+")[-1]`. -/
def lastField (s : String) : String :=
  String.ofList (s.toList.reverse.takeWhile (· ≠ '+')).reverse

def endsWith (last : Char) (s : String) : Bool := s.toList.getLast? = some last

def dropAmp (s : String) : String :=
  if endsWith '&' s then String.ofList s.toList.dropLast else s

/-- What Python makes of JSON: `json.loads` of a text in braces, where `none` is ValueError, and
`str` of a value that is no string. -/
structure PyJson where
  loads : String → Option (List (String × Json))
  repr : Json → String

structure SpeakerState where
  reachable : Bool := false
  connected : Bool := false
  ready : Bool := false
  lastError : Option String := none
  poweredOn : Option Bool := none
  playbackStatus : Option String := none
  volume : Option Int := none
  muted : Option Bool := none
  source : Option String := none
  sourceDetail : Option String := none
  multiroomGuestActive : Bool := false
  multiroomHostActive : Bool := false
  multiroomSlaveCount : Nat := 0
  deriving DecidableEq

/-- A payload handed to `_send_control`, and whether it went out. -/
structure Command where
  payload : String
  sent : Bool
  deriving DecidableEq

/-- The speaker; `writer` says whether there is one, `commands` is ghost. -/
structure Speaker where
  state : SpeakerState := {}
  writer : Bool := false
  physicalMuteRestorePct : Option Int := none
  physicalMuted : Bool := false
  initial : InitialStatus := {}
  signals : List Signal := []
  commands : List Command := []
  deriving DecidableEq

/-! ### Messages -/

/-- The arguments of `_apply_updates`; `none` is one that is not given. -/
structure Updates where
  source : Option String := none
  sourceDetail : Option (Option String) := none
  playbackStatus : Option (Option String) := none
  volumePct : Option Int := none
  muted : Option Bool := none
  ready : Option Bool := none

def listenActive (source status : Option String) : Bool :=
  lower (strip (source.getD "")) ∈ networkSources && lower (strip (status.getD "")) ∈ ["load", "play"]

def SpeakerState.listening (s : SpeakerState) : Bool := listenActive s.source s.playbackStatus

/-- What `_parse_ply_inf_json` returns. -/
structure Info where
  type : String
  mode : String
  vendor : String
  status : String
  vol : String
  mute : String

section
variable (py : PyJson)

/-- `str(data.get(key, "")).strip()`. -/
def infoField (data : List (String × Json)) (key : String) : String :=
  strip ((data.lookup key).elim "" (pyStr py.repr))

def parsePlyInfJson (payload : String) : Option Info :=
  let p := dropAmp (strip payload)
  if !startsWith "AXX+PLY+INF" p then none
  else
    let raw := strip (String.ofList (p.toList.drop "AXX+PLY+INF".toList.length))
    if !(startsWith "\x7b" raw && endsWith '\x7d' raw) then none
    else (py.loads raw).map fun data =>
      { type := infoField py data "type"
        mode := zfill 3 (infoField py data "mode")
        vendor := infoField py data "vendor"
        status := lower (infoField py data "status")
        vol := infoField py data "vol"
        mute := infoField py data "mute" }

end

/-- The source that a full status names, or else the one there is. -/
def Info.source (info : Info) (current : Option String) : String :=
  (plmToSource.lookup info.mode).getD ((current.filter (· ≠ "")).getD "unknown")

def Info.muted (info : Info) : Option Bool :=
  if info.mute = "0" then some false else if info.mute = "1" then some true else none

def Info.multiroomGuestActive (info : Info) (current : Option String) : Bool :=
  info.source current = "multiroom-secondary" && info.type = "1"

/-- An active guest may report "stop" as it plays. -/
def Info.updates (info : Info) (current : Option String) : Updates :=
  { source := info.source current
    sourceDetail := some (if info.vendor = "" then none else some info.vendor)
    playbackStatus :=
      some (if info.source current ∈ physicalSources then none
        else if info.multiroomGuestActive current then some "play"
        else some info.status)
    volumePct := int? info.vol
    muted := info.muted
    ready := some true }

def plmSource (payload : String) : String :=
  (plmToSource.lookup (zfill 3 (strip (lastField (strip payload))))).getD "unknown"

namespace Speaker

/-- `_emit_listen_edge`. -/
def emitListenEdge (b : Speaker) (old : SpeakerState) : Speaker :=
  if !b.initial.settled then b
  else if !old.listening && b.state.listening then
    { b with signals := b.signals ++
        [{ source := b.state.source, playbackStatus := b.state.playbackStatus }] }
  else b

def applyUpdates (b : Speaker) (u : Updates) : Speaker :=
  { b with state := { b.state with
    source := u.source.or b.state.source
    sourceDetail := u.sourceDetail.getD b.state.sourceDetail
    playbackStatus := u.playbackStatus.getD b.state.playbackStatus
    volume := (u.volumePct.map clampPct).or b.state.volume
    muted := u.muted.or b.state.muted
    ready := u.ready.getD b.state.ready } }.emitListenEdge b.state

def handleVol (b : Speaker) (payload : String) : Speaker :=
  match int? (lastField (strip payload)) with
  | none => b
  | some vol => b.applyUpdates { volumePct := vol }

def handlePlm (b : Speaker) (payload : String) : Speaker :=
  let source := plmSource payload
  if source ∈ physicalSources then
    b.applyUpdates { source := source, sourceDetail := some none, playbackStatus := some none }
  else b.applyUpdates { source := source, sourceDetail := some none }

def setPowered (b : Speaker) (on : Bool) : Speaker :=
  { b with state := { b.state with poweredOn := some on } }

def handlePms (b : Speaker) (payload : String) : Speaker :=
  if lastField (strip payload) = "000" then b.setPowered true else b

def handlePow (b : Speaker) (payload : String) : Speaker :=
  if strip (lastField (strip payload)) = "001" then b.setPowered false else b

def handlePst (b : Speaker) (payload : String) : Speaker :=
  let code := strip (lastField (strip payload))
  if code ∈ ["000", "001"] then b.setPowered true
  else if code = "003" then b.setPowered false
  else b

/-- A count: what `isdigit` accepts and `int` then refuses changes nothing, as AXX+SLV+YES does. -/
def handleSlv (b : Speaker) (payload : String) : Speaker :=
  let code := strip (lastField (strip payload))
  if code.toList.all fun c => (digit? c).isSome then
    match digits? code.toList with
    | none => b
    | some slaveCount =>
      { b with state := { b.state with multiroomSlaveCount := slaveCount
                                       multiroomHostActive := slaveCount > 0 } }
  else b

/-- `_handle_ply_inf` from `_apply_updates` on. -/
def takeInfo (b : Speaker) (info : Info) : Speaker :=
  let c := b.applyUpdates (info.updates b.state.source)
  { c with
    state := { c.state with multiroomGuestActive := info.multiroomGuestActive b.state.source }
    initial := if !b.state.ready then c.initial.markReceived else c.initial }

def handlePlyInf (py : PyJson) (b : Speaker) (payload : String) : Speaker :=
  (parsePlyInfJson py payload).elim b b.takeInfo

/-- `_on_payload`; AXX+MUT+ and the messages that come after AXX+SLV+ at most ask for a status. -/
def onPayload (py : PyJson) (b : Speaker) (payload : String) : Speaker :=
  let p := dropAmp (strip payload)
  if startsWith "AXX+VOL+" p then b.handleVol p
  else if startsWith "AXX+MUT+" p then b
  else if startsWith "AXX+PLM+" p then b.handlePlm p
  else if startsWith "AXX+PLY+INF" p then b.handlePlyInf py p
  else if startsWith "AXX+PMS+" p then b.handlePms p
  else if startsWith "AXX+POW+" p then b.handlePow p
  else if startsWith "AXX+PST+" p then b.handlePst p
  else if startsWith "AXX+SLV+" p then b.handleSlv p
  else b

/-! ### The link and the controls -/

def markDown (b : Speaker) (error : String) : Speaker :=
  { b with state := { b.state with
    reachable := false, connected := false, ready := false, lastError := some error } }

def disconnect (b : Speaker) : Speaker :=
  { b with state := { b.state with reachable := false, connected := false, ready := false }
           writer := false }

end Speaker

/-- What becomes of a packet: written and drained in time, or not. -/
inductive Transport where
  | ok
  | fails (error : String)
  deriving DecidableEq

namespace Speaker

/-- `_send`, with the text of what it raises. -/
def send (b : Speaker) (transport : Transport) : Speaker × Option String :=
  if !b.writer then (b, some "not connected")
  else match transport with
    | .ok => (b, none)
    | .fails error =>
      let reason := "send failed: " ++ error
      ((b.markDown reason).disconnect, some reason)

/-- `_send_control`. -/
def sendControl (b : Speaker) (payload : String) (transport : Transport) : Speaker × Bool :=
  if !b.state.ready then ({ b with commands := b.commands ++ [⟨payload, false⟩] }, false)
  else
    let (c, error) := b.send transport
    ({ c with state := { c.state with lastError := error }
              commands := c.commands ++ [⟨payload, error.isNone⟩] }, error.isNone)

/-- `_require_control_sent`: the text of the RuntimeError. -/
def notSent (b : Speaker) (action : String) : String :=
  let detail := strip (b.state.lastError.getD "")
  if detail = "" then action ++ "_not_sent" else action ++ "_not_sent: " ++ detail

/-- `_tcp_command`, with the text of what it raises. -/
def tcpCommand (b : Speaker) (payload action : String) (transport : Transport) :
    Speaker × Option String :=
  let (c, ok) := b.sendControl payload transport
  (c, if ok then none else some (c.notSent action))

end Speaker

def volPayload (target : Int) : String := "MCU+VOL+" ++ zfill 3 (toString target)

namespace Speaker

def setVolume (b : Speaker) (pct : Int) (transport : Transport) : Speaker × Option String :=
  b.tcpCommand (volPayload (clampPct pct)) "set_volume" transport

/-- `src == "hdmi"`. -/
def onHdmi (b : Speaker) : Bool := lower (strip (b.state.source.getD "")) = "hdmi"

/-- `restore`. -/
def restorePct (b : Speaker) : Int :=
  (b.physicalMuteRestorePct.filter (0 < ·)).getD hdmiSoftMuteRestoreDefaultPct

/-- `volume_up` and `volume_down`. -/
def stepVolume (b : Speaker) (change : Int) (action : String) (transport : Transport) :
    Speaker × Option String :=
  if b.onHdmi && b.physicalMuted then
    { b with physicalMuted := false, state := { b.state with muted := some false } }.tcpCommand
      (volPayload (clampPct (b.restorePct + change))) action transport
  else b.tcpCommand (volPayload (clampPct (b.state.volume.getD 0 + change))) action transport

def volumeUp (b : Speaker) (transport : Transport) : Speaker × Option String :=
  b.stepVolume volumeStepPct "volume_up" transport

def volumeDown (b : Speaker) (transport : Transport) : Speaker × Option String :=
  b.stepVolume (-volumeStepPct) "volume_down" transport

/-- The volume to come back to, kept as the soft mute begins. -/
def keepRestore (b : Speaker) : Option Int :=
  let curPct := b.state.volume.getD 0
  if b.physicalMuted then b.physicalMuteRestorePct
  else if curPct > 0 then some curPct
  else b.physicalMuteRestorePct.or (some hdmiSoftMuteRestoreDefaultPct)

def setMuted (b : Speaker) (target : Bool) (transport : Transport) : Speaker × Option String :=
  if b.onHdmi then
    if target then
      ({ b with physicalMuteRestorePct := b.keepRestore, physicalMuted := true }.applyUpdates
        { muted := some true }).setVolume 0 transport
    else
      ({ b with physicalMuted := false }.applyUpdates { muted := some false }).setVolume
        b.restorePct transport
  else if b.state.muted = some target then (b, none)
  else
    let (c, error) :=
      b.tcpCommand ("MCU+MUT+" ++ if target then "001" else "000") "set_muted" transport
    (if error.isNone then c.applyUpdates { muted := some target } else c, error)

def muteToggle (b : Speaker) (transport : Transport) : Speaker × Option String :=
  b.setMuted (!b.state.muted.getD false) transport

end Speaker

/-- What the link brings: a payload, a connection, the loss of one (or a failed attempt). -/
inductive Event where
  | payload (text : String)
  | connects
  | drops (error : String)
  deriving DecidableEq

def Speaker.handle (py : PyJson) (b : Speaker) : Event → Speaker
  | .payload text => b.onPayload py text
  | .connects =>
    { b with writer := true
             state := { b.state with reachable := true, connected := true, ready := false
                                     lastError := none } }
  | .drops error => { (b.markDown error).disconnect with initial := b.initial.markFailed }

def Speaker.hear (py : PyJson) (b : Speaker) (events : List Event) : Speaker :=
  events.foldl (Speaker.handle py) b

/-! ### What an event says -/

/-- What is said of the source, the volume and the firmware's own mute. -/
structure Reading where
  source : Option String := none
  volume : Option Int := none
  muted : Option Bool := none
  deriving DecidableEq

def Info.reading (info : Info) (current : Option String) : Reading :=
  { source := info.source current, volume := (int? info.vol).map clampPct, muted := info.muted }

def reading (py : PyJson) (current : Option String) (payload : String) : Reading :=
  let p := dropAmp (strip payload)
  if startsWith "AXX+VOL+" p then { volume := (int? (lastField (strip p))).map clampPct }
  else if startsWith "AXX+MUT+" p then {}
  else if startsWith "AXX+PLM+" p then { source := plmSource p }
  else if startsWith "AXX+PLY+INF" p then
    (parsePlyInfJson py p).elim {} fun info => info.reading current
  else {}

/-- The full status that a payload is, if it is one. -/
def statusOf (py : PyJson) (payload : String) : Option Info :=
  let p := dropAmp (strip payload)
  if startsWith "AXX+VOL+" p then none
  else if startsWith "AXX+MUT+" p then none
  else if startsWith "AXX+PLM+" p then none
  else if startsWith "AXX+PLY+INF" p then parsePlyInfJson py p
  else none

def Event.reading (py : PyJson) (current : Option String) : Event → Reading
  | .payload text => SoftMute.reading py current text
  | .connects => {}
  | .drops _ => {}

/-- `c` is `b` with the reading taken over, and with the soft mute as it was. -/
structure Taken (r : Reading) (b c : Speaker) : Prop where
  source : c.state.source = r.source.or b.state.source
  volume : c.state.volume = r.volume.or b.state.volume
  muted : c.state.muted = r.muted.or b.state.muted
  soft : c.physicalMuted = b.physicalMuted
  restore : c.physicalMuteRestorePct = b.physicalMuteRestorePct

/-- The listen edge adds a signal at most. -/
theorem emitListenEdge_eq (b : Speaker) (old : SpeakerState) :
    ∃ signals, b.emitListenEdge old = { b with signals := signals } := by
  unfold Speaker.emitListenEdge
  split
  · exact ⟨b.signals, rfl⟩
  · split
    · exact ⟨_, rfl⟩
    · exact ⟨b.signals, rfl⟩

theorem applyUpdates_eq (b : Speaker) (u : Updates) :
    ∃ signals, b.applyUpdates u = { b with
      state := { b.state with
        source := u.source.or b.state.source
        sourceDetail := u.sourceDetail.getD b.state.sourceDetail
        playbackStatus := u.playbackStatus.getD b.state.playbackStatus
        volume := (u.volumePct.map clampPct).or b.state.volume
        muted := u.muted.or b.state.muted
        ready := u.ready.getD b.state.ready }
      signals := signals } :=
  emitListenEdge_eq _ _

theorem taken_applyUpdates {r : Reading} (b : Speaker) (u : Updates) (hsource : r.source = u.source)
    (hvolume : r.volume = u.volumePct.map clampPct) (hmuted : r.muted = u.muted) :
    Taken r b (b.applyUpdates u) := by
  obtain ⟨signals, heq⟩ := applyUpdates_eq b u
  rw [heq, ← hsource, ← hvolume, ← hmuted]
  exact ⟨rfl, rfl, rfl, rfl, rfl⟩

/-- An event that says nothing of them. -/
theorem Taken.quiet {b c : Speaker} (hsource : c.state.source = b.state.source)
    (hvolume : c.state.volume = b.state.volume) (hmuted : c.state.muted = b.state.muted)
    (hsoft : c.physicalMuted = b.physicalMuted)
    (hrestore : c.physicalMuteRestorePct = b.physicalMuteRestorePct) : Taken {} b c :=
  ⟨hsource, hvolume, hmuted, hsoft, hrestore⟩

theorem taken_takeInfo (b : Speaker) (info : Info) :
    Taken (info.reading b.state.source) b (b.takeInfo info) := by
  have hupd : Taken (info.reading b.state.source) b
      (b.applyUpdates (info.updates b.state.source)) := by
    apply taken_applyUpdates
    all_goals simp only [Info.reading, Info.updates]
  exact ⟨hupd.source, hupd.volume, hupd.muted, hupd.soft, hupd.restore⟩

/-- What a message can do, by what it says and by the full status that it is. -/
inductive Effect (b : Speaker) : Reading → Option Info → Speaker → Prop
  | same : Effect b {} none b
  | updates (u : Updates) (hready : u.ready = none) :
      Effect b { source := u.source, volume := u.volumePct.map clampPct, muted := u.muted } none
        (b.applyUpdates u)
  | takesInfo (info : Info) : Effect b (info.reading b.state.source) (some info) (b.takeInfo info)
  | powered (on : Bool) : Effect b {} none (b.setPowered on)
  | slaves (slaveCount : Nat) :
      Effect b {} none { b with state := { b.state with
        multiroomSlaveCount := slaveCount, multiroomHostActive := slaveCount > 0 } }

theorem effect_handleVol (b : Speaker) (p : String) :
    Effect b { volume := (int? (lastField (strip p))).map clampPct } none (b.handleVol p) := by
  unfold Speaker.handleVol
  cases int? (lastField (strip p)) with
  | none => exact .same
  | some vol => exact .updates { volumePct := some vol } rfl

theorem effect_handlePlm (b : Speaker) (p : String) :
    Effect b { source := plmSource p } none (b.handlePlm p) := by
  unfold Speaker.handlePlm
  dsimp only
  split_ifs
  · exact .updates { source := plmSource p, sourceDetail := some none, playbackStatus := some none } rfl
  · exact .updates { source := plmSource p, sourceDetail := some none } rfl

theorem effect_handlePlyInf (py : PyJson) (b : Speaker) (p : String) :
    Effect b ((parsePlyInfJson py p).elim {} fun info => info.reading b.state.source)
      (parsePlyInfJson py p) (b.handlePlyInf py p) := by
  unfold Speaker.handlePlyInf
  cases parsePlyInfJson py p with
  | none => exact .same
  | some info => exact .takesInfo info

theorem effect_handlePms (b : Speaker) (p : String) : Effect b {} none (b.handlePms p) := by
  unfold Speaker.handlePms
  split_ifs
  · exact .powered true
  · exact .same

theorem effect_handlePow (b : Speaker) (p : String) : Effect b {} none (b.handlePow p) := by
  unfold Speaker.handlePow
  split_ifs
  · exact .powered false
  · exact .same

theorem effect_handlePst (b : Speaker) (p : String) : Effect b {} none (b.handlePst p) := by
  unfold Speaker.handlePst
  dsimp only
  split_ifs
  · exact .powered true
  · exact .powered false
  · exact .same

theorem effect_handleSlv (b : Speaker) (p : String) : Effect b {} none (b.handleSlv p) := by
  unfold Speaker.handleSlv
  dsimp only
  split
  · split
    · exact .same
    · exact .slaves _
  · exact .same

theorem effect_onPayload (py : PyJson) (b : Speaker) (text : String) :
    Effect b (reading py b.state.source text) (statusOf py text) (b.onPayload py text) := by
  unfold reading statusOf Speaker.onPayload
  dsimp only
  split_ifs
  · exact effect_handleVol b _
  · exact .same
  · exact effect_handlePlm b _
  · exact effect_handlePlyInf py b _
  · exact effect_handlePms b _
  · exact effect_handlePow b _
  · exact effect_handlePst b _
  · exact effect_handleSlv b _
  · exact .same

theorem Effect.taken {b c : Speaker} {r : Reading} {status : Option Info} (h : Effect b r status c) :
    Taken r b c := by
  cases h with
  | same | powered | slaves => exact .quiet rfl rfl rfl rfl rfl
  | updates u => exact taken_applyUpdates b u rfl rfl rfl
  | takesInfo info => exact taken_takeInfo b info

theorem taken_onPayload (py : PyJson) (b : Speaker) (text : String) :
    Taken (reading py b.state.source text) b (b.onPayload py text) :=
  (effect_onPayload py b text).taken

theorem taken_handle (py : PyJson) (b : Speaker) (e : Event) :
    Taken (e.reading py b.state.source) b (b.handle py e) := by
  cases e with
  | payload text => exact taken_onPayload py b text
  | connects => exact .quiet rfl rfl rfl rfl rfl
  | drops error => exact .quiet rfl rfl rfl rfl rfl

/-! ### Commands -/

/-- Whether a command that is now handed over goes out. -/
def Speaker.takes (b : Speaker) (transport : Transport) : Bool :=
  b.state.ready && b.writer && transport = .ok

theorem sendControl_commands (b : Speaker) (payload : String) (transport : Transport) :
    (b.sendControl payload transport).1.commands =
      b.commands ++ [⟨payload, b.takes transport⟩] := by
  unfold Speaker.sendControl Speaker.send Speaker.takes
  cases b.state.ready with
  | false => rfl
  | true =>
    cases b.writer with
    | false => rfl
    | true => cases transport <;> rfl

theorem taken_sendControl (b : Speaker) (payload : String) (transport : Transport) :
    Taken {} b (b.sendControl payload transport).1 := by
  unfold Speaker.sendControl Speaker.send
  cases b.state.ready with
  | false => exact .quiet rfl rfl rfl rfl rfl
  | true =>
    cases b.writer with
    | false => exact .quiet rfl rfl rfl rfl rfl
    | true => cases transport <;> exact .quiet rfl rfl rfl rfl rfl

/-- Taking over the mute alone leaves the link as it is. -/
theorem applyMuted_link (b : Speaker) (muted : Bool) (transport : Transport) :
    (b.applyUpdates { muted := some muted }).commands = b.commands ∧
      (b.applyUpdates { muted := some muted }).takes transport = b.takes transport := by
  obtain ⟨signals, heq⟩ := applyUpdates_eq b { muted := some muted }
  exact ⟨(congrArg Speaker.commands heq).trans rfl,
    (congrArg (fun c => Speaker.takes c transport) heq).trans rfl⟩

/-- The mute taken over, then a volume command. -/
theorem muted_then_volume (b : Speaker) (muted : Bool) (pct : Int) (transport : Transport) :
    let c := ((b.applyUpdates { muted := some muted }).setVolume pct transport).1
    Taken { muted := some muted } b c ∧
      c.commands = b.commands ++ [⟨volPayload (clampPct pct), b.takes transport⟩] := by
  have hupd : Taken { muted := some muted } b (b.applyUpdates { muted := some muted }) :=
    taken_applyUpdates b _ rfl rfl rfl
  obtain ⟨hcommands, htakes⟩ := applyMuted_link b muted transport
  generalize b.applyUpdates { muted := some muted } = d at hupd hcommands htakes
  have hsend := taken_sendControl d (volPayload (clampPct pct)) transport
  have hsent := sendControl_commands d (volPayload (clampPct pct)) transport
  rw [hcommands, htakes] at hsent
  exact ⟨⟨hsend.source.trans hupd.source, hsend.volume.trans hupd.volume,
    hsend.muted.trans hupd.muted, hsend.soft.trans hupd.soft, hsend.restore.trans hupd.restore⟩, hsent⟩

theorem onHdmi_of_source {b : Speaker} (h : b.state.source = some "hdmi") : b.onHdmi = true := by
  unfold Speaker.onHdmi
  rw [h]
  decide

/-- What `set_muted` does on HDMI, whatever becomes of its command. -/
structure MutedTo (target : Bool) (transport : Transport) (b c : Speaker) : Prop where
  source : c.state.source = b.state.source
  volume : c.state.volume = b.state.volume
  muted : c.state.muted = some target
  soft : c.physicalMuted = target
  restore : c.physicalMuteRestorePct = if target then b.keepRestore else b.physicalMuteRestorePct
  commands : c.commands = b.commands ++
    [⟨volPayload (clampPct (if target then 0 else b.restorePct)), b.takes transport⟩]

theorem mutedTo_setMuted {b : Speaker} (hsource : b.state.source = some "hdmi") (target : Bool)
    (transport : Transport) : MutedTo target transport b (b.setMuted target transport).1 := by
  unfold Speaker.setMuted
  rw [if_pos (onHdmi_of_source hsource)]
  cases target with
  | true =>
    obtain ⟨htaken, hcommands⟩ := muted_then_volume
      { b with physicalMuteRestorePct := b.keepRestore, physicalMuted := true } true 0 transport
    exact ⟨htaken.source, htaken.volume, htaken.muted, htaken.soft, htaken.restore, hcommands⟩
  | false =>
    obtain ⟨htaken, hcommands⟩ := muted_then_volume
      { b with physicalMuted := false } false b.restorePct transport
    exact ⟨htaken.source, htaken.volume, htaken.muted, htaken.soft, htaken.restore, hcommands⟩

/-! ### Muting and restoring -/

/-- A full status in which the firmware's own mute is off. -/
def Event.SaysUnmuted (py : PyJson) (e : Event) : Prop :=
  (e.reading py (some "hdmi")).muted = some false

/-- An event that keeps the source and that reports, if any, volume 0 or `v`, and no firmware
mute. -/
structure Event.Reports (py : PyJson) (v : Int) (e : Event) : Prop where
  source : ∀ source ∈ (e.reading py (some "hdmi")).source, source = "hdmi"
  volume : ∀ pct ∈ (e.reading py (some "hdmi")).volume, pct = v ∨ pct = 0
  muted : some true ≠ (e.reading py (some "hdmi")).muted

structure AtHdmi (v : Int) (b : Speaker) : Prop where
  source : b.state.source = some "hdmi"
  volume : b.state.volume = some v ∨ b.state.volume = some 0

/-- Not muted, and `v` is what there is to come back to. -/
structure Rested (v : Int) (b : Speaker) : Prop extends AtHdmi v b where
  unmuted : b.state.muted ≠ some true
  plain : b.physicalMuted = false
  kept : b.state.volume = some v ∨ b.physicalMuteRestorePct = some v

/-- Soft-muted from `v`. -/
structure SoftMuted (v : Int) (b : Speaker) : Prop extends AtHdmi v b where
  soft : b.physicalMuted = true
  kept : b.physicalMuteRestorePct = some v

theorem AtHdmi.handle {py : PyJson} {v : Int} {b : Speaker} (h : AtHdmi v b) {e : Event}
    (he : e.Reports py v) : AtHdmi v (b.handle py e) := by
  have htaken := taken_handle py b e
  obtain ⟨hsource, hvolume, -⟩ := he
  rw [h.source] at htaken
  refine ⟨?_, ?_⟩
  · rw [htaken.source, h.source]
    cases hs : (e.reading py (some "hdmi")).source with
    | none => rfl
    | some source => rw [hsource source hs, Option.some_or]
  · rw [htaken.volume]
    cases hv : (e.reading py (some "hdmi")).volume with
    | none => exact h.volume
    | some pct => obtain rfl | rfl := hvolume pct hv <;> simp

/-- What a run of such events leaves: the soft mute as it was, the mute at most denied. -/
structure Heard (py : PyJson) (v : Int) (events : List Event) (b c : Speaker) : Prop where
  hdmi : AtHdmi v c
  soft : c.physicalMuted = b.physicalMuted
  restore : c.physicalMuteRestorePct = b.physicalMuteRestorePct
  denied : (∃ e ∈ events, e.SaysUnmuted py) → c.state.muted = some false
  untold : (∀ e ∈ events, ¬ e.SaysUnmuted py) → c.state.muted = b.state.muted

theorem heard {py : PyJson} {v : Int} {events : List Event}
    (hreports : ∀ e ∈ events, e.Reports py v) {b : Speaker} (h : AtHdmi v b) :
    Heard py v events b (b.hear py events) := by
  induction events generalizing b with
  | nil => exact ⟨h, rfl, rfl, by simp, fun _ => rfl⟩
  | cons e events ih =>
    obtain ⟨he, hreports⟩ := List.forall_mem_cons.mp hreports
    obtain ⟨hdmi, hsoft, hrestore, hdenied, huntold⟩ := ih hreports (h.handle he)
    have htaken := taken_handle py b e
    rw [h.source] at htaken
    refine ⟨hdmi, hsoft.trans htaken.soft, hrestore.trans htaken.restore, fun hsome => ?_,
      fun hnone => ?_⟩
    · by_cases htail : ∃ e ∈ events, e.SaysUnmuted py
      · exact hdenied htail
      · obtain ⟨f, hf, hsays⟩ := hsome
        obtain rfl | hf := List.mem_cons.mp hf
        · refine (huntold fun g hg hs => htail ⟨g, hg, hs⟩).trans ?_
          rw [htaken.muted, hsays, Option.some_or]
        · exact absurd ⟨f, hf, hsays⟩ htail
    · obtain ⟨hhead, htail⟩ := List.forall_mem_cons.mp hnone
      refine (huntold htail).trans ?_
      rw [htaken.muted]
      cases hm : (e.reading py (some "hdmi")).muted with
      | none => rfl
      | some muted =>
        cases muted with
        | true => exact absurd hm.symm he.muted
        | false => exact absurd hm hhead

/-- Two toggles: what becomes of their commands, and what is heard after each. -/
structure Round where
  muting : Transport
  afterMuting : List Event
  restoring : Transport
  afterRestoring : List Event

def Round.muted (py : PyJson) (b : Speaker) (r : Round) : Speaker :=
  (b.muteToggle r.muting).1.hear py r.afterMuting

def Round.restored (py : PyJson) (b : Speaker) (r : Round) : Speaker :=
  ((r.muted py b).muteToggle r.restoring).1

def playRound (py : PyJson) (b : Speaker) (r : Round) : Option Speaker :=
  some ((r.restored py b).hear py r.afterRestoring)

def Round.Reports (py : PyJson) (v : Int) (r : Round) : Prop :=
  (∀ e ∈ r.afterMuting, e.Reports py v) ∧ ∀ e ∈ r.afterRestoring, e.Reports py v

/-- The second toggle's one command is MCU+VOL with `v`; it goes out if the link takes it. -/
def Restores (py : PyJson) (v : Int) (b : Speaker) (r : Round) : Prop :=
  (r.restored py b).commands =
    (r.muted py b).commands ++ [⟨volPayload v, (r.muted py b).takes r.restoring⟩]

theorem volPayload_ne_zero {v : Int} (hpos : 0 < v) (hle : v ≤ 100) : volPayload v ≠ volPayload 0 := by
  have hall : ∀ n : Fin 101, n.val ≠ 0 → volPayload (n.val : Int) ≠ volPayload 0 := by decide
  have hv := hall ⟨v.toNat, by omega⟩ (by dsimp only; omega)
  rwa [Int.toNat_of_nonneg hpos.le] at hv

theorem clampPct_of_mem {v : Int} (hpos : 0 < v) (hle : v ≤ 100) : clampPct v = v := by
  unfold clampPct
  omega

theorem SoftMuted.restorePct_eq {v : Int} {b : Speaker} (h : SoftMuted v b) (hpos : 0 < v) :
    b.restorePct = v := by
  unfold Speaker.restorePct
  rw [h.kept, Option.filter_some_pos (by simpa using hpos), Option.getD_some]

/-- The first toggle mutes. -/
theorem Rested.softMuted {v : Int} {b : Speaker} (h : Rested v b) (hpos : 0 < v)
    (transport : Transport) : SoftMuted v (b.muteToggle transport).1 ∧
      (b.muteToggle transport).1.state.muted = some true := by
  have htarget : (!b.state.muted.getD false) = true := by
    cases hm : b.state.muted with
    | none => rfl
    | some muted =>
      cases muted with
      | true => exact absurd hm h.unmuted
      | false => rfl
  have hkeep : b.keepRestore = some v := by
    unfold Speaker.keepRestore
    rw [h.plain, if_neg Bool.false_ne_true]
    obtain hv | hv := h.volume
    · rw [hv, Option.getD_some, if_pos hpos]
    · -- muted again before the speaker's answer: the volume kept is still there
      have hrestore : b.physicalMuteRestorePct = some v :=
        h.kept.resolve_left fun heq => hpos.ne (Option.some.inj (hv.symm.trans heq))
      rw [hv, hrestore, Option.getD_some, if_neg (lt_irrefl 0), Option.some_or]
  unfold Speaker.muteToggle
  rw [htarget]
  have hmuted := mutedTo_setMuted h.source true transport
  exact ⟨⟨⟨hmuted.source.trans h.source, by rw [hmuted.volume]; exact h.volume⟩, hmuted.soft,
    hmuted.restore.trans hkeep⟩, hmuted.muted⟩

theorem SoftMuted.heard {py : PyJson} {v : Int} {b c : Speaker} {events : List Event}
    (h : SoftMuted v b) (hheard : Heard py v events b c) : SoftMuted v c :=
  ⟨hheard.hdmi, hheard.soft.trans h.soft, hheard.restore.trans h.kept⟩

/-- A toggle of the soft-muted speaker restores the volume exactly if `muted` still says so. -/
theorem SoftMuted.toggle {v : Int} {b : Speaker} (h : SoftMuted v b) (hpos : 0 < v) (hle : v ≤ 100)
    (transport : Transport) : (b.muteToggle transport).1.commands =
      b.commands ++ [⟨volPayload v, b.takes transport⟩] ↔ b.state.muted = some true := by
  unfold Speaker.muteToggle
  cases hm : b.state.muted.getD false with
  | true =>
    have hmuted : b.state.muted = some true := by
      cases hb : b.state.muted with
      | none => simp [hb] at hm
      | some muted => rw [hb, Option.getD_some] at hm; rw [hm]
    rw [Bool.not_true, (mutedTo_setMuted h.source false transport).commands, h.restorePct_eq hpos,
      if_neg Bool.false_ne_true, clampPct_of_mem hpos hle]
    exact iff_of_true rfl hmuted
  | false =>
    rw [Bool.not_false, (mutedTo_setMuted h.source true transport).commands]
    refine iff_of_false (fun heq => ?_) fun hmuted => by simp [hmuted] at hm
    have hcommand := List.append_cancel_left heq
    exact volPayload_ne_zero hpos hle (congrArg Command.payload (List.head_eq_of_cons_eq hcommand)).symm

theorem SoftMuted.rested {v : Int} {b : Speaker} (h : SoftMuted v b) (hmuted : b.state.muted = some true)
    (transport : Transport) : AtHdmi v (b.muteToggle transport).1 ∧
      (b.muteToggle transport).1.state.muted = some false ∧
      (b.muteToggle transport).1.physicalMuted = false ∧
      (b.muteToggle transport).1.physicalMuteRestorePct = some v := by
  have htarget : (!b.state.muted.getD false) = false := by rw [hmuted]; rfl
  unfold Speaker.muteToggle
  rw [htarget]
  have hto := mutedTo_setMuted h.source false transport
  exact ⟨⟨hto.source.trans h.source, by rw [hto.volume]; exact h.volume⟩, hto.muted, hto.soft,
    hto.restore.trans h.kept⟩

/-- The volume keys ask the soft mute itself: they step from `v`, whatever was heard meanwhile. -/
theorem stepVolume_of_muted {py : PyJson} {v : Int} {b : Speaker} (h : Rested v b) (hpos : 0 < v)
    {events : List Event} (hreports : ∀ e ∈ events, e.Reports py v) (change : Int) (action : String)
    (muting transport : Transport) :
    let c := (b.muteToggle muting).1.hear py events
    (c.stepVolume change action transport).1.commands =
      c.commands ++ [⟨volPayload (clampPct (v + change)), c.takes transport⟩] := by
  intro c
  obtain ⟨hmuted, -⟩ := h.softMuted hpos muting
  have hsoft : SoftMuted v c := hmuted.heard (heard hreports hmuted.toAtHdmi)
  rw [Speaker.stepVolume, if_pos (by rw [onHdmi_of_source hsoft.source, hsoft.soft]; rfl),
    hsoft.restorePct_eq hpos, Speaker.tcpCommand]
  exact sendControl_commands _ _ _

/-- One round: it restores the volume exactly if no full status denies the mute in it, and then the
speaker is at rest again. -/
theorem Rested.round {py : PyJson} {v : Int} {b : Speaker} (h : Rested v b) (hpos : 0 < v)
    (hle : v ≤ 100) {r : Round} (hr : r.Reports py v) :
    (Restores py v b r ↔ ∀ e ∈ r.afterMuting, ¬ e.SaysUnmuted py) ∧
      (Restores py v b r → Rested v ((r.restored py b).hear py r.afterRestoring)) := by
  obtain ⟨hsoft, hmuted⟩ := h.softMuted hpos r.muting
  have hheard : Heard py v r.afterMuting (b.muteToggle r.muting).1 (r.muted py b) :=
    heard hr.1 hsoft.toAtHdmi
  have hsoft' := hsoft.heard hheard
  have htoggle : Restores py v b r ↔ (r.muted py b).state.muted = some true := by
    unfold Restores Round.restored
    exact hsoft'.toggle hpos hle r.restoring
  refine ⟨⟨fun hrestores e he hsays => ?_, fun hnone => ?_⟩, fun hrestores => ?_⟩
  · have hdenied := hheard.denied ⟨e, he, hsays⟩
    exact absurd ((htoggle.mp hrestores).symm.trans hdenied) (by decide)
  · exact htoggle.mpr ((hheard.untold hnone).trans hmuted)
  · obtain ⟨hat, hoff, hplain, hkept⟩ := hsoft'.rested (htoggle.mp hrestores) r.restoring
    have hrest := heard hr.2 hat
    refine ⟨hrest.hdmi, fun hon => ?_, hrest.soft.trans hplain, Or.inr (hrest.restore.trans hkept)⟩
    by_cases hsays : ∃ e ∈ r.afterRestoring, e.SaysUnmuted py
    · exact absurd (hon.symm.trans (hrest.denied hsays)) (by decide)
    · have hsame := hrest.untold fun e he hs => hsays ⟨e, he, hs⟩
      exact absurd (hon.symm.trans (hsame.trans hoff)) (by decide)

theorem Rested.rounds {py : PyJson} {v : Int} (hpos : 0 < v) (hle : v ≤ 100) {rounds : List Round}
    (hreports : ∀ r ∈ rounds, r.Reports py v) {b : Speaker} (h : Rested v b) :
    Along (playRound py) (Restores py v) b rounds ↔
      ∀ r ∈ rounds, ∀ e ∈ r.afterMuting, ¬ e.SaysUnmuted py := by
  induction rounds generalizing b with
  | nil => simp [Along]
  | cons r rounds ih =>
    obtain ⟨hr, hreports⟩ := List.forall_mem_cons.mp hreports
    obtain ⟨hiff, hrested⟩ := h.round hpos hle hr
    rw [List.forall_mem_cons, ← hiff]
    exact and_congr_right fun hrestores => ih hreports (hrested hrestores)

/-- On HDMI every second toggle of a series restores the volume exactly if none of the full
statuses heard while muted has the firmware's own mute off. -/
theorem volume_restored_iff (py : PyJson) {v : Int} {b : Speaker}
    (hsource : b.state.source = some "hdmi") (hvolume : b.state.volume = some v) (hpos : 0 < v)
    (hle : v ≤ 100) (hunmuted : b.state.muted ≠ some true) (hplain : b.physicalMuted = false)
    {rounds : List Round} (hreports : ∀ r ∈ rounds, r.Reports py v) :
    Along (playRound py) (Restores py v) b rounds ↔
      ∀ r ∈ rounds, ∀ e ∈ r.afterMuting, ¬ e.SaysUnmuted py :=
  Rested.rounds hpos hle hreports ⟨⟨hsource, Or.inl hvolume⟩, hunmuted, hplain, Or.inl hvolume⟩

/-- A full status on HDMI, at volume 0 and with the firmware's mute off. -/
def sampleJson : String :=
  "\x7b\"mode\":\"49\",\"vol\":\"0\",\"mute\":\"0\"\x7d"

def samplePy : PyJson where
  loads raw :=
    if raw = sampleJson then some [("mode", .str "49"), ("vol", .str "0"), ("mute", .str "0")]
    else none
  repr _ := ""

def sampleSpeaker : Speaker where
  state := { reachable := true, connected := true, ready := true, volume := some 40
             muted := some false, source := some "hdmi" }
  writer := true
  initial := ⟨true, true⟩

/-- The echoes of both commands, and a loss of the link. -/
def sampleRound : Round where
  muting := .ok
  afterMuting := [.payload "AXX+VOL+000", .payload "AXX+MUT+001"]
  restoring := .fails "send timeout after 2.0s"
  afterRestoring := [.connects, .payload "AXX+VOL+040"]

theorem reports_of_reading {py : PyJson} {v : Int} {e : Event}
    (h : e.reading py (some "hdmi") = { volume := some v } ∨
      e.reading py (some "hdmi") = { volume := some 0 } ∨ e.reading py (some "hdmi") = {} ∨
      e.reading py (some "hdmi") =
        { source := some "hdmi", volume := some 0, muted := some false }) : e.Reports py v := by
  constructor
  all_goals obtain h | h | h | h := h
  all_goals simp [h]

theorem volume_restored_iff_sample :
    Along (playRound samplePy) (Restores samplePy 40) sampleSpeaker [sampleRound, sampleRound] :=
  (volume_restored_iff samplePy rfl rfl (by decide) (by decide) (by decide) rfl
    (by
      have hround : sampleRound.Reports samplePy 40 := by
        refine ⟨fun e he => reports_of_reading ?_, fun e he => reports_of_reading ?_⟩
        · revert e
          decide
        · revert e
          decide
      simpa using hround)).mpr (by
    have hround : ∀ e ∈ sampleRound.afterMuting, ¬ e.SaysUnmuted samplePy := by
      unfold Event.SaysUnmuted
      decide
    simpa using hround)

def sampleStatus : Event := .payload ("AXX+PLY+INF" ++ sampleJson ++ "&")

theorem sampleStatus_reading : sampleStatus.reading samplePy (some "hdmi") =
    { source := some "hdmi", volume := some 0, muted := some false } := by decide +kernel

def deniedRound : Round := ⟨.ok, [.payload "AXX+VOL+000", sampleStatus], .ok, []⟩

/-- The full status after the echo, and the second toggle mutes again. -/
theorem volume_not_restored_status : sampleSpeaker.state.source = some "hdmi" ∧
    sampleSpeaker.state.volume = some 40 ∧ sampleSpeaker.state.muted = some false ∧
    sampleSpeaker.physicalMuted = false ∧ deniedRound.Reports samplePy 40 ∧
    (deniedRound.restored samplePy sampleSpeaker).commands =
      [⟨"MCU+VOL+000", true⟩, ⟨"MCU+VOL+000", true⟩] ∧
    ¬ Along (playRound samplePy) (Restores samplePy 40) sampleSpeaker [deniedRound] := by
  have hreports : deniedRound.Reports samplePy 40 := by
    refine ⟨?_, nofun⟩
    rw [deniedRound, List.forall_mem_cons, List.forall_mem_singleton]
    exact ⟨reports_of_reading (by decide),
      reports_of_reading (Or.inr (Or.inr (Or.inr sampleStatus_reading)))⟩
  have hrested : Rested 40 sampleSpeaker := ⟨⟨rfl, Or.inl rfl⟩, by decide, rfl, Or.inl rfl⟩
  refine ⟨rfl, rfl, rfl, rfl, hreports, by decide +kernel, fun halong => ?_⟩
  have hnone := (hrested.rounds (by decide) (by decide) (by simpa using hreports)).mp halong
  refine hnone deniedRound (by simp) sampleStatus (by simp [deniedRound]) ?_
  rw [Event.SaysUnmuted, sampleStatus_reading]

end PiHub.SoftMute

import Mathlib.Tactic.Tauto
import PiHub.Transition
import PiHub.HostFrames

/-! The dongle's link state (main.c): the Bluetooth callbacks that change it, the
lines they queue for the host, and the gates of the two report senders. -/
namespace PiHub.DongleLink
open Transition HostFrames

/-- The characteristics a report is notified on. -/
inductive HidsAttr where
  | bootVal | kbVal | ccVal
  deriving DecidableEq

/-- The fields `cmd_emit_status_line` prints. -/
structure Status where
  adv : Bool
  conn : Bool
  sec : UInt8
  ready : Bool
  proto : UInt8
  err : Bool
  kbNotify : Bool
  bootNotify : Bool
  ccNotify : Bool
  battNotify : Bool
  suspend : Bool
  haveConnParams : Bool
  interval : UInt16
  latency : UInt16
  timeout : UInt16
  deriving DecidableEq

/-- The lines the firmware queues for the host, by their format and arguments. -/
inductive Line where
  | evtAdv (on : Bool)
  | evtConn (on : Bool)
  | evtReady (on : Bool)
  | evtProto (report : Bool)
  | evtErr (on : Bool)
  | evtDisc (reason : UInt8)
  | evtConnParams (interval latency timeout : UInt16)
  | evtBinErr (usage : Usage) (rc : Int32)
  | evtBinErrTimeout (usage : Usage)
  | status (s : Status)
  | pong
  | info (addr : Option (List Char))
  deriving DecidableEq

/-! ### libc's error numbers -/

def eagain : Int32 := 11
def enomem : Int32 := 12
def eacces : Int32 := 13
def ebusy : Int32 := 16
def ealready : Int32 := 120
def enotconn : Int32 := 128

def btAttErrInvalidAttributeLen : Int := 0x0d
def btGattCccNotify : UInt16 := 1
def btSecurityL1 : UInt8 := 1
def btSecurityL2 : UInt8 := 2

/-- main.c's file-scope link state, and the whole lines it has queued so far. The LEDs,
the timers and the retries of parameter requests are left out. -/
structure Dongle where
  currentConn : Option Nat
  advIsOn : Bool
  errorState : Bool
  notifyKbEnabled : Bool
  notifyCcEnabled : Bool
  notifyBootEnabled : Bool
  notifyBattEnabled : Bool
  hidSuspended : Bool
  currentSecLevel : UInt8
  linkReady : Bool
  haveConnParams : Bool
  lastInterval : UInt16
  lastLatency : UInt16
  lastTimeout : UInt16
  protocolMode : UInt8
  kbReport : List UInt8
  ccReport : List UInt8
  bootKbReport : List UInt8
  out : List Line
  deriving DecidableEq

def Dongle.boot : Dongle where
  currentConn := none
  advIsOn := false
  errorState := false
  notifyKbEnabled := false
  notifyCcEnabled := false
  notifyBootEnabled := false
  notifyBattEnabled := false
  hidSuspended := false
  currentSecLevel := 0
  linkReady := false
  haveConnParams := false
  lastInterval := 0
  lastLatency := 0
  lastTimeout := 0
  protocolMode := 1
  kbReport := List.replicate 8 0
  ccReport := List.replicate 2 0
  bootKbReport := List.replicate 8 0
  out := []

namespace Dongle

/-! ### Announcements -/

def cmdUartSendLine (d : Dongle) (l : Line) : Dongle := { d with out := d.out ++ [l] }

def cmdEvtAdv (d : Dongle) (on : Bool) : Dongle :=
  { d with advIsOn := on }.cmdUartSendLine (.evtAdv on)

def cmdEvtConn (d : Dongle) (on : Bool) : Dongle := d.cmdUartSendLine (.evtConn on)
def cmdEvtReady (d : Dongle) (on : Bool) : Dongle := d.cmdUartSendLine (.evtReady on)
def cmdEvtProto (d : Dongle) (pm : UInt8) : Dongle := d.cmdUartSendLine (.evtProto (pm ≠ 0))
def cmdSendErrLine (d : Dongle) (on : Bool) : Dongle := d.cmdUartSendLine (.evtErr on)

/-- The flag is announced only when it changes. -/
def cmdEvtErr (d : Dongle) (on : Bool) : Dongle :=
  if d.errorState ≠ on then { d with errorState := on }.cmdSendErrLine on
  else { d with errorState := on }

def cmdEvtDisc (d : Dongle) (reason : UInt8) : Dongle := d.cmdUartSendLine (.evtDisc reason)

def cmdEvtConnParams (d : Dongle) (interval latency timeout : UInt16) : Dongle :=
  { d with
    haveConnParams := true
    lastInterval := interval
    lastLatency := latency
    lastTimeout := timeout }.cmdUartSendLine (.evtConnParams interval latency timeout)

def computeLinkReady (d : Dongle) : Bool :=
  d.currentConn.isSome && btSecurityL2 ≤ d.currentSecLevel && !d.hidSuspended &&
    (d.notifyKbEnabled || d.notifyBootEnabled) && d.notifyCcEnabled

/-- What `cmd_emit_status_line` reads to format its buffer. -/
def statusFields (d : Dongle) : Status where
  adv := d.advIsOn
  conn := d.currentConn.isSome
  sec := d.currentSecLevel
  ready := d.linkReady
  proto := d.protocolMode
  err := d.errorState
  kbNotify := d.notifyKbEnabled
  bootNotify := d.notifyBootEnabled
  ccNotify := d.notifyCcEnabled
  battNotify := d.notifyBattEnabled
  suspend := d.hidSuspended
  haveConnParams := d.haveConnParams
  interval := d.lastInterval
  latency := d.lastLatency
  timeout := d.lastTimeout

def updateLinkReady (d : Dongle) : Dongle :=
  if d.computeLinkReady ≠ d.linkReady then
    { d with linkReady := d.computeLinkReady }.cmdEvtReady d.computeLinkReady
  else d

/-! ### GATT callbacks -/

/-- The value the callback returns to the stack, and the dongle after it. -/
def writeProtocolMode (d : Dongle) (buf : List UInt8) (offset : Nat) : Int × Dongle :=
  match buf with
  | [b] =>
    if offset ≠ 0 then (-btAttErrInvalidAttributeLen, d)
    else
      let newMode : UInt8 := if b ≠ 0 then 1 else 0
      if newMode ≠ d.protocolMode then
        (1, ({ d with protocolMode := newMode }.cmdEvtProto newMode).updateLinkReady)
      else (1, d)
  | _ => (-btAttErrInvalidAttributeLen, d)

/-- The CCC callbacks differ in the flag they set. -/
def cccChanged (setFlag : Dongle → Bool → Dongle) (d : Dongle) (value : UInt16) : Dongle :=
  (setFlag d (value = btGattCccNotify)).updateLinkReady

def kbCccChanged : Dongle → UInt16 → Dongle := cccChanged fun d on => { d with notifyKbEnabled := on }
def ccCccChanged : Dongle → UInt16 → Dongle := cccChanged fun d on => { d with notifyCcEnabled := on }
def bootCccChanged : Dongle → UInt16 → Dongle :=
  cccChanged fun d on => { d with notifyBootEnabled := on }
def battCccChanged : Dongle → UInt16 → Dongle :=
  cccChanged fun d on => { d with notifyBattEnabled := on }

def writeCtrlPoint (d : Dongle) (buf : List UInt8) : Int × Dongle :=
  match buf with
  | [] => (-btAttErrInvalidAttributeLen, d)
  | cp :: _ =>
    (buf.length,
      (if cp = 0 then { d with hidSuspended := false }
        else if cp = 1 then { d with hidSuspended := true }
        else d).updateLinkReady)

/-! ### Connection callbacks -/

/-- `bt_conn_get_info` of an LE connection: interval in microseconds, latency, timeout. -/
structure ConnInfo where
  intervalUs : Nat
  latency : UInt16
  timeout : UInt16
  deriving DecidableEq

/-- `info` is what `bt_conn_get_info` gives for an LE connection, `advStop` the result of
`bt_le_adv_stop`. -/
def connected (d : Dongle) (conn : Nat) (err : UInt8) (info : Option ConnInfo)
    (advStop : Int32) : Dongle :=
  if err ≠ 0 then d
  else
    let d := { d with
      currentConn := some conn
      notifyKbEnabled := false
      notifyCcEnabled := false
      notifyBootEnabled := false
      currentSecLevel := btSecurityL1
      hidSuspended := false }
    let d := d.cmdEvtConn true
    let d := match info with
      | some i => d.cmdEvtConnParams (UInt16.ofNat (i.intervalUs / 1250)) i.latency i.timeout
      | none => { d with haveConnParams := false }
    let d := (d.cmdEvtErr false).updateLinkReady
    let d := if advStop = 0 ∨ advStop = -ealready then d.cmdEvtAdv false else d
    d.updateLinkReady

def disconnected (d : Dongle) (reason : UInt8) : Dongle :=
  let d := ((d.cmdEvtAdv false).cmdEvtDisc reason).cmdEvtConn false
  let d := { d with
    currentConn := none
    notifyKbEnabled := false
    notifyCcEnabled := false
    notifyBootEnabled := false
    currentSecLevel := 0
    hidSuspended := false }
  (d.cmdEvtErr false).updateLinkReady

def leParamUpdated (d : Dongle) (interval latency timeout : UInt16) : Dongle :=
  d.cmdEvtConnParams interval latency timeout

def securityChanged (d : Dongle) (level err : UInt8) : Dongle :=
  if err ≠ 0 then d
  else ({ d with currentSecLevel := level }.cmdEvtErr false).updateLinkReady

/-- `advStart` is the result of `bt_le_adv_start`. -/
def advRestartWorkHandler (d : Dongle) (advStart : Int32) : Dongle :=
  if d.currentConn.isSome then d
  else if advStart ≠ 0 then d
  else d.cmdEvtAdv true

/-! ### Reports -/

/-- The error returned, or the dongle handing the report to `bt_gatt_notify` and the
characteristic it goes out on. -/
def sendKeyboardReport (d : Dongle) (report8 : List UInt8) : Except Int32 (HidsAttr × Dongle) :=
  if d.currentConn = none then .error (-enotconn)
  else if d.currentSecLevel < btSecurityL2 then .error (-eacces)
  else if d.protocolMode = 0 then
    if !d.notifyBootEnabled then .error (-eacces)
    else .ok (.bootVal, { d with bootKbReport := report8 })
  else if !d.notifyKbEnabled then .error (-eacces)
  else .ok (.kbVal, { d with kbReport := report8 })

def sendConsumerReport (d : Dongle) (report2 : List UInt8) : Except Int32 (HidsAttr × Dongle) :=
  if d.currentConn = none then .error (-enotconn)
  else if d.currentSecLevel < btSecurityL2 then .error (-eacces)
  else if !d.notifyCcEnabled then .error (-eacces)
  else .ok (.ccVal, { d with ccReport := report2 })

/-- The end of `cmd_handle_bin_*`, after the sender's result. -/
def binHandled (usage : Usage) (d : Dongle) (rc : Int32) : Dongle :=
  let d := if d.errorState then d.cmdEvtErr false else d
  if rc ≠ 0 ∧ rc ≠ -ebusy ∧ rc ≠ -eagain ∧ rc ≠ -enomem then
    d.cmdUartSendLine (.evtBinErr usage rc)
  else d

/-- `cmd_handle_bin_*` once the report is read. `notify` is what `bt_gatt_notify` returns
if the report gets that far. -/
def cmdHandleBin (usage : Usage) (send : Dongle → List UInt8 → Except Int32 (HidsAttr × Dongle))
    (d : Dongle) (report : List UInt8) (notify : Int32) : Dongle :=
  match send d report with
  | .error rc => binHandled usage d rc
  | .ok (_, d') => binHandled usage d' notify

def cmdHandleBinKb : Dongle → List UInt8 → Int32 → Dongle := cmdHandleBin .keyboard sendKeyboardReport
def cmdHandleBinCc : Dongle → List UInt8 → Int32 → Dongle := cmdHandleBin .consumer sendConsumerReport

/-- `cmd_handle_bin_*` when the report does not arrive in time. -/
def cmdHandleBinTimeout (d : Dongle) (usage : Usage) : Dongle :=
  (d.cmdEvtErr true).cmdUartSendLine (.evtBinErrTimeout usage)

end Dongle

/-- The calls the Bluetooth stack and the system work queue make, with what the stack
tells them. -/
inductive Callback where
  | connected (conn : Nat) (err : UInt8) (info : Option Dongle.ConnInfo) (advStop : Int32)
  | disconnected (reason : UInt8)
  | leParamUpdated (interval latency timeout : UInt16)
  | securityChanged (level err : UInt8)
  | kbCccChanged (value : UInt16)
  | ccCccChanged (value : UInt16)
  | bootCccChanged (value : UInt16)
  | battCccChanged (value : UInt16)
  | writeProtocolMode (buf : List UInt8) (offset : Nat)
  | writeCtrlPoint (buf : List UInt8)
  | advRestartWorkHandler (advStart : Int32)
  deriving DecidableEq

def Dongle.callback (d : Dongle) : Callback → Dongle
  | .connected conn err info advStop => d.connected conn err info advStop
  | .disconnected reason => d.disconnected reason
  | .leParamUpdated interval latency timeout => d.leParamUpdated interval latency timeout
  | .securityChanged level err => d.securityChanged level err
  | .kbCccChanged value => d.kbCccChanged value
  | .ccCccChanged value => d.ccCccChanged value
  | .bootCccChanged value => d.bootCccChanged value
  | .battCccChanged value => d.battCccChanged value
  | .writeProtocolMode buf offset => (d.writeProtocolMode buf offset).2
  | .writeCtrlPoint buf => (d.writeCtrlPoint buf).2
  | .advRestartWorkHandler advStart => d.advRestartWorkHandler advStart

def step (d : Dongle) (cb : Callback) : Option Dongle := some (d.callback cb)

/-! ### READY and the gates -/

namespace Dongle

@[simp] theorem computeLinkReady_evtErr (d : Dongle) (on : Bool) :
    (d.cmdEvtErr on).computeLinkReady = d.computeLinkReady := by
  unfold cmdEvtErr
  split <;> rfl

/-- `link_ready` is what `compute_link_ready` would say now. -/
def Settled (d : Dongle) : Prop := d.linkReady = d.computeLinkReady

theorem updateLinkReady_settled (d : Dongle) : d.updateLinkReady.Settled := by
  unfold updateLinkReady
  split
  · rfl
  · next h => exact (not_not.mp h).symm

theorem Settled.congr {d e : Dongle} (h : d.Settled) (hready : e.linkReady = d.linkReady)
    (hcompute : e.computeLinkReady = d.computeLinkReady) : e.Settled := by
  rw [Settled, hready, hcompute, h]

/-- A protocol mode write changes nothing, or announces the mode and recomputes readiness. -/
theorem writeProtocolMode_cases (d : Dongle) (buf : List UInt8) (offset : Nat) :
    (d.writeProtocolMode buf offset).2 = d ∨ ∃ mode, (d.writeProtocolMode buf offset).2 =
      ({ d with protocolMode := mode }.cmdEvtProto mode).updateLinkReady := by
  unfold writeProtocolMode
  split
  · next b =>
    generalize (if b ≠ 0 then 1 else 0 : UInt8) = mode
    by_cases hoff : offset ≠ 0
    · exact .inl (by rw [if_pos hoff])
    · rw [if_neg hoff]
      by_cases hmode : mode ≠ d.protocolMode
      · exact .inr ⟨mode, by rw [if_pos hmode]⟩
      · exact .inl (by rw [if_neg hmode])
  · exact .inl rfl

theorem Settled.evtErr {d : Dongle} (h : d.Settled) (on : Bool) : (d.cmdEvtErr on).Settled := by
  have hready : (d.cmdEvtErr on).linkReady = d.linkReady := by
    unfold cmdEvtErr
    split <;> rfl
  exact h.congr hready (computeLinkReady_evtErr d on)

end Dongle

open Dongle

/-- Every callback that touches an input of `compute_link_ready` ends by recomputing it. -/
theorem settled_callback {d : Dongle} (h : d.Settled) (cb : Callback) : (d.callback cb).Settled := by
  cases cb with
  | connected conn err info advStop =>
    simp only [callback, connected]
    split
    · exact h
    · exact updateLinkReady_settled _
  | disconnected reason => exact updateLinkReady_settled _
  | leParamUpdated interval latency timeout => exact h.congr rfl rfl
  | securityChanged level err =>
    simp only [callback, securityChanged]
    split
    · exact h
    · exact updateLinkReady_settled _
  | kbCccChanged value => exact updateLinkReady_settled _
  | ccCccChanged value => exact updateLinkReady_settled _
  | bootCccChanged value => exact updateLinkReady_settled _
  | battCccChanged value => exact updateLinkReady_settled _
  | writeProtocolMode buf offset =>
    rcases d.writeProtocolMode_cases buf offset with hd | ⟨mode, hd⟩
    · simpa only [callback, hd] using h
    · simpa only [callback, hd] using updateLinkReady_settled _
  | writeCtrlPoint buf =>
    cases buf with
    | nil => exact h
    | cons cp buf => exact updateLinkReady_settled _
  | advRestartWorkHandler advStart =>
    simp only [callback, advRestartWorkHandler]
    split
    · exact h
    · split
      · exact h
      · exact h.congr rfl rfl

theorem settled_of_reachable {d : Dongle} (h : Reachable step Dongle.boot d) : d.Settled :=
  h.invariant rfl fun _ cb _ hd _ hstep => Option.some.inj hstep ▸ settled_callback hd cb

/-- The characteristic the current protocol mode reports keys on. -/
def Dongle.keyboardAttr (d : Dongle) : HidsAttr := if d.protocolMode = 0 then .bootVal else .kbVal

/-- Both senders reach `bt_gatt_notify`, whatever the report. -/
def Dongle.KeysGoThrough (d : Dongle) : Prop :=
  (∀ report8, ∃ d', d.sendKeyboardReport report8 = .ok (d.keyboardAttr, d')) ∧
    ∀ report2, ∃ d', d.sendConsumerReport report2 = .ok (.ccVal, d')

/-- The central has subscribed to the keyboard of the other protocol mode only, and to all
else that readiness asks for. -/
def Dongle.OtherModeOnly (d : Dongle) : Prop :=
  d.currentConn ≠ none ∧ btSecurityL2 ≤ d.currentSecLevel ∧ d.hidSuspended = false ∧
    d.notifyCcEnabled = true ∧
    if d.protocolMode = 0 then d.notifyKbEnabled = true ∧ d.notifyBootEnabled = false
    else d.notifyBootEnabled = true ∧ d.notifyKbEnabled = false

theorem computeLinkReady_iff (d : Dongle) : d.computeLinkReady = true ↔
    d.currentConn ≠ none ∧ btSecurityL2 ≤ d.currentSecLevel ∧ d.hidSuspended = false ∧
      d.notifyCcEnabled = true ∧ (d.notifyKbEnabled = true ∨ d.notifyBootEnabled = true) := by
  simp only [computeLinkReady, Bool.and_eq_true, Option.isSome_iff_ne_none, decide_eq_true_eq,
    Bool.not_eq_true', Bool.or_eq_true]
  tauto

theorem keysGoThrough_iff (d : Dongle) : d.KeysGoThrough ↔
    d.currentConn ≠ none ∧ btSecurityL2 ≤ d.currentSecLevel ∧ d.notifyCcEnabled = true ∧
      if d.protocolMode = 0 then d.notifyBootEnabled = true else d.notifyKbEnabled = true := by
  constructor
  · rintro ⟨hkb, hcc⟩
    obtain ⟨-, hkb⟩ := hkb []
    obtain ⟨-, hcc⟩ := hcc []
    unfold sendKeyboardReport at hkb
    unfold sendConsumerReport at hcc
    split_ifs at hkb hcc <;> simp_all
  · rintro ⟨hconn, hsec, hcc, hkb⟩
    have hlow : ¬ d.currentSecLevel < btSecurityL2 := UInt8.not_lt.mpr hsec
    refine ⟨fun report8 => ?_, fun report2 => ?_⟩
    · rw [sendKeyboardReport, if_neg hconn, if_neg hlow, keyboardAttr]
      by_cases hpm : d.protocolMode = 0 <;> simp_all
    · rw [sendConsumerReport, if_neg hconn, if_neg hlow]
      simp_all

/-- READY means keys go through, but for a central that listens to the other protocol mode
only: the two keyboard flags are not told apart when readiness is computed. -/
theorem ready_keys_iff (d : Dongle) (h : Reachable step Dongle.boot d) :
    (d.linkReady = true → d.KeysGoThrough) ↔ ¬ d.OtherModeOnly := by
  rw [settled_of_reachable h, computeLinkReady_iff, keysGoThrough_iff, OtherModeOnly]
  by_cases hpm : d.protocolMode = 0 <;> simp only [hpm, if_true, if_false] <;>
    cases d.notifyKbEnabled <;> cases d.notifyBootEnabled <;> simp <;> tauto

/-- Connected, encrypted, consumer reports subscribed to, and of the keyboards only Boot's,
in Report mode. -/
def bootOnly : List Callback :=
  [.connected 0 0 none 0, .securityChanged 2 0, .ccCccChanged 1, .bootCccChanged 1]

theorem ready_keys_iff_sample :
    ∃ d, execute step Dongle.boot (bootOnly ++ [.kbCccChanged 1]) = some d ∧
      ((d.linkReady = true → d.KeysGoThrough) ↔ ¬ d.OtherModeOnly) := by
  have hrun : execute step Dongle.boot (bootOnly ++ [.kbCccChanged 1]) = some _ := rfl
  exact ⟨_, hrun, ready_keys_iff _ (reachable_of_execute hrun)⟩

/-- READY is announced, and a key press is refused. -/
theorem ready_keys_refused : ∃ d, execute step Dongle.boot bootOnly = some d ∧
    d.linkReady = true ∧ .evtReady true ∈ d.out ∧
    d.sendKeyboardReport [0, 0, 4, 0, 0, 0, 0, 0] = .error (-eacces) :=
  ⟨_, rfl, by decide, by decide, by decide⟩

end PiHub.DongleLink

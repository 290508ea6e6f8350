import PiHub.DongleLink

/-! Two hosts in turn on the dongle (main.c): what a new connection inherits from the earlier
ones. The state of the link is an abstract machine of its own, which the dongle refines. -/
namespace PiHub.FreshLink
open PiHub.Transition PiHub.HostFrames PiHub.DongleLink PiHub.DongleLink.Dongle

/-- A report that `bt_gatt_notify` sends. -/
structure Notification where
  attr : HidsAttr
  report : List UInt8
  deriving DecidableEq

/-- What reaches the dongle: the stack's callbacks, a HID frame, a frame cut short, the `KB` and
`CC` lines, `SNAPEVT`, and a round of `hid_release_all_best_effort`, which sleeps between its two.
The number is what `bt_gatt_notify` returns. -/
inductive Input where
  | callback (cb : Callback)
  | frame (usage : Usage) (report : List UInt8) (notify : Int32)
  | frameTimeout (usage : Usage)
  | textReport (usage : Usage) (report : List UInt8)
  | snapEvt
  | releaseRound
  deriving DecidableEq

/-- `send_keyboard_report` or `send_consumer_report`. -/
def sendReport (d : Dongle) : Usage → List UInt8 → Except Int32 (HidsAttr × Dongle)
  | .keyboard => d.sendKeyboardReport
  | .consumer => d.sendConsumerReport

/-- The dongle after a sender, and the report it hands to `bt_gatt_notify`. -/
def sent (d : Dongle) (usage : Usage) (report : List UInt8) : Dongle × List Notification :=
  match sendReport d usage report with
  | .error _ => (d, [])
  | .ok (attr, d') => (d', [⟨attr, report⟩])

/-- `cmd_handle_bin_kb` or `cmd_handle_bin_cc`. -/
def cmdHandleBin (d : Dongle) : Usage → List UInt8 → Int32 → Dongle
  | .keyboard => d.cmdHandleBinKb
  | .consumer => d.cmdHandleBinCc

/-- `cmd_emit_status_snapshot`. -/
def cmdEmitStatusSnapshot (d : Dongle) : Dongle :=
  let now := d.computeLinkReady
  let d := ((({ d with linkReady := now }.cmdEvtReady now).cmdEvtAdv d.advIsOn).cmdEvtConn
    d.currentConn.isSome).cmdEvtProto d.protocolMode
  let d := d.cmdSendErrLine d.errorState
  if d.haveConnParams then d.cmdEvtConnParams d.lastInterval d.lastLatency d.lastTimeout else d

/-- The zero reports of one round of `hid_release_all_best_effort`. -/
def releaseRound (d : Dongle) : Dongle × List Notification :=
  let kb := sent d .keyboard (List.replicate 8 0)
  let cc := sent kb.1 .consumer (List.replicate 2 0)
  (cc.1, kb.2 ++ cc.2)

/-- The dongle after an input, and the reports it notifies. The reply to a `KB` or `CC` line is
left out. -/
def input (d : Dongle) : Input → Dongle × List Notification
  | .callback cb => (d.callback cb, [])
  | .frame usage report notify => (cmdHandleBin d usage report notify, (sent d usage report).2)
  | .frameTimeout usage => (d.cmdHandleBinTimeout usage, [])
  | .textReport usage report => sent d usage report
  | .snapEvt => (cmdEmitStatusSnapshot d, [])
  | .releaseRound => releaseRound d

def readyLine : Line → Option Bool
  | .evtReady on => some on
  | _ => none

/-- The READY announcements that `d'` has made since `d`. -/
def announced (d d' : Dongle) : List Bool := (d'.out.drop d.out.length).filterMap readyLine

/-- What is seen of a run: for each input the reports notified and the READY lines. -/
def watch (d : Dongle) : List Input → List (List Notification × List Bool)
  | [] => []
  | i :: is => ((input d i).2, announced d (input d i).1) :: watch (input d i).1 is

def run (d : Dongle) (is : List Input) : Dongle := is.foldl (fun d i => (input d i).1) d

/-- What decides where and whether reports are sent and READY is announced. -/
structure Link where
  conn : Option Nat
  sec : UInt8
  suspended : Bool
  kb : Bool
  cc : Bool
  boot : Bool
  proto : UInt8
  ready : Bool
  deriving DecidableEq

def link (d : Dongle) : Link where
  conn := d.currentConn
  sec := d.currentSecLevel
  suspended := d.hidSuspended
  kb := d.notifyKbEnabled
  cc := d.notifyCcEnabled
  boot := d.notifyBootEnabled
  proto := d.protocolMode
  ready := d.linkReady

/-! ### The link by itself -/

namespace Link

def computeReady (l : Link) : Bool :=
  l.conn.isSome && btSecurityL2 ≤ l.sec && !l.suspended && (l.kb || l.boot) && l.cc

/-- READY is announced when it changes. -/
def settle (l : Link) : Link × List Bool :=
  if l.computeReady ≠ l.ready then ({ l with ready := l.computeReady }, [l.computeReady]) else (l, [])

def opened (l : Link) (conn : Nat) : Link :=
  { l with conn := some conn, sec := btSecurityL1, suspended := false
           kb := false, cc := false, boot := false }

def closed (l : Link) : Link :=
  { l with conn := none, sec := 0, suspended := false, kb := false, cc := false, boot := false }

/-- The mode that an accepted write of Protocol Mode sets. -/
def writtenMode : List UInt8 → Nat → Option UInt8
  | [b], 0 => some (if b ≠ 0 then 1 else 0)
  | _, _ => none

def writeMode (l : Link) (mode : UInt8) : Link × List Bool :=
  if mode ≠ l.proto then { l with proto := mode }.settle else (l, [])

def control (l : Link) (cp : UInt8) : Link :=
  if cp = 0 then { l with suspended := false }
  else if cp = 1 then { l with suspended := true }
  else l

def callback (l : Link) : Callback → Link × List Bool
  | .connected conn err _ _ => if err ≠ 0 then (l, []) else (l.opened conn).settle
  | .disconnected _ => l.closed.settle
  | .leParamUpdated _ _ _ | .advRestartWorkHandler _ => (l, [])
  | .securityChanged level err => if err ≠ 0 then (l, []) else { l with sec := level }.settle
  | .kbCccChanged value => { l with kb := value = btGattCccNotify }.settle
  | .ccCccChanged value => { l with cc := value = btGattCccNotify }.settle
  | .bootCccChanged value => { l with boot := value = btGattCccNotify }.settle
  | .battCccChanged _ => l.settle
  | .writeProtocolMode buf offset => (writtenMode buf offset).elim (l, []) l.writeMode
  | .writeCtrlPoint buf => buf.head?.elim (l, []) fun cp => (l.control cp).settle

/-- The link after an input, and what it announces. -/
def input (l : Link) : Input → Link × List Bool
  | .callback cb => l.callback cb
  | .snapEvt => ({ l with ready := l.computeReady }, [l.computeReady])
  | .frame _ _ _ | .frameTimeout _ | .textReport _ _ | .releaseRound => (l, [])

def sends (l : Link) (usage : Usage) (report : List UInt8) : List Notification :=
  if l.conn = none then []
  else if l.sec < btSecurityL2 then []
  else
    match usage with
    | .keyboard =>
      if l.proto = 0 then if l.boot then [⟨.bootVal, report⟩] else []
      else if l.kb then [⟨.kbVal, report⟩] else []
    | .consumer => if l.cc then [⟨.ccVal, report⟩] else []

def notifies (l : Link) : Input → List Notification
  | .frame usage report _ | .textReport usage report => l.sends usage report
  | .releaseRound => l.sends .keyboard (List.replicate 8 0) ++ l.sends .consumer (List.replicate 2 0)
  | .callback _ | .frameTimeout _ | .snapEvt => []

def watch (l : Link) : List Input → List (List Notification × List Bool)
  | [] => []
  | i :: is => (l.notifies i, (l.input i).2) :: watch (l.input i).1 is

end Link

/-- From `d` to `d'` the link becomes `l` and READY is announced as listed. -/
structure Moves (d d' : Dongle) (l : Link) (rs : List Bool) : Prop where
  link : link d' = l
  out : ∃ ls, d'.out = d.out ++ ls ∧ ls.filterMap readyLine = rs

theorem Moves.stay (d : Dongle) : Moves d d (FreshLink.link d) [] := ⟨rfl, [], by simp, rfl⟩

/-- Fields beside the queued lines are written. -/
theorem Moves.write {d d' : Dongle} (hout : d'.out = d.out) : Moves d d' (FreshLink.link d') [] :=
  ⟨rfl, [], by simp [hout], rfl⟩

/-- Fields beside the queued lines are written and one line queued. -/
theorem Moves.line {d d' : Dongle} (l : Line) (hout : d'.out = d.out ++ [l]) :
    Moves d d' (FreshLink.link d') (readyLine l).toList := by
  refine ⟨rfl, [l], hout, ?_⟩
  cases h : readyLine l with
  | none => simp [h]
  | some on => simp [h]

theorem Moves.trans {d d' d'' : Dongle} {l l' : Link} {rs rs' : List Bool} (h : Moves d d' l rs)
    (h' : Moves d' d'' l' rs') : Moves d d'' l' (rs ++ rs') := by
  obtain ⟨ls, hls, hrs⟩ := h.out
  obtain ⟨ls', hls', hrs'⟩ := h'.out
  refine ⟨h'.link, ls ++ ls', ?_, ?_⟩
  · rw [hls', hls, List.append_assoc]
  · rw [List.filterMap_append, hrs, hrs']

theorem Moves.announced {d d' : Dongle} {l : Link} {rs : List Bool} (h : Moves d d' l rs) :
    announced d d' = rs := by
  obtain ⟨ls, hls, hrs⟩ := h.out
  rw [FreshLink.announced, hls, List.drop_left, hrs]

/-- Neither the link nor READY is touched. -/
abbrev Quiet (d d' : Dongle) : Prop := Moves d d' (link d) []

theorem Quiet.trans {d d' d'' : Dongle} (h : Quiet d d') (h' : Quiet d' d'') : Quiet d d'' := by
  have hboth := Moves.trans h h'
  rw [h.link] at hboth
  exact hboth

theorem Quiet.then {d d' d'' : Dongle} {l : Link} {rs : List Bool} (h : Quiet d d')
    (h' : Moves d' d'' l rs) : Moves d d'' l rs :=
  Moves.trans h h'

theorem Moves.quiet {d d' d'' : Dongle} {l : Link} {rs : List Bool} (h : Moves d d' l rs)
    (h' : Quiet d' d'') : Moves d d'' l rs := by
  have hboth := h.trans h'
  rw [h.link, List.append_nil] at hboth
  exact hboth

theorem quiet_write {d d' : Dongle} (hlink : link d' = link d) (hout : d'.out = d.out) :
    Quiet d d' := by
  rw [Quiet, ← hlink]
  exact .write hout

theorem quiet_line {d d' : Dongle} (l : Line) (hlink : link d' = link d)
    (hout : d'.out = d.out ++ [l]) (hl : readyLine l = none) : Quiet d d' := by
  have h := Moves.line l hout
  rw [hl, hlink] at h
  exact h

theorem quiet_evtAdv (d : Dongle) (on : Bool) : Quiet d (d.cmdEvtAdv on) :=
  quiet_line (.evtAdv on) rfl rfl rfl

theorem quiet_evtConn (d : Dongle) (on : Bool) : Quiet d (d.cmdEvtConn on) :=
  quiet_line (.evtConn on) rfl rfl rfl

theorem quiet_evtProto (d : Dongle) (pm : UInt8) : Quiet d (d.cmdEvtProto pm) :=
  quiet_line (.evtProto (pm ≠ 0)) rfl rfl rfl

theorem quiet_evtDisc (d : Dongle) (reason : UInt8) : Quiet d (d.cmdEvtDisc reason) :=
  quiet_line (.evtDisc reason) rfl rfl rfl

theorem quiet_errLine (d : Dongle) (on : Bool) : Quiet d (d.cmdSendErrLine on) :=
  quiet_line (.evtErr on) rfl rfl rfl

theorem quiet_evtErr (d : Dongle) (on : Bool) : Quiet d (d.cmdEvtErr on) := by
  unfold cmdEvtErr
  split
  · exact quiet_line (.evtErr on) rfl rfl rfl
  · exact quiet_write rfl rfl

theorem quiet_evtConnParams (d : Dongle) (interval latency timeout : UInt16) :
    Quiet d (d.cmdEvtConnParams interval latency timeout) :=
  quiet_line (.evtConnParams interval latency timeout) rfl rfl rfl

theorem moves_updateLinkReady (d : Dongle) :
    Moves d d.updateLinkReady (link d).settle.1 (link d).settle.2 := by
  unfold updateLinkReady Link.settle
  by_cases h : d.computeLinkReady ≠ d.linkReady
  · rw [if_pos h, if_pos (show (link d).computeReady ≠ (link d).ready from h)]
    exact .line (.evtReady d.computeLinkReady) rfl
  · rw [if_neg h, if_neg (show ¬ (link d).computeReady ≠ (link d).ready from h)]
    exact .stay d

theorem settle_settled (l : Link) : l.settle.1.settle = (l.settle.1, []) := by
  unfold Link.settle
  by_cases h : l.computeReady ≠ l.ready
  · rw [if_pos h]
    exact if_neg (not_not.mpr rfl)
  · rw [if_neg h]
    exact if_neg h

/-- What is done first leads to `l`, then readiness is recomputed. -/
theorem Moves.settles {d d' : Dongle} {l : Link} (h : Moves d d' l []) :
    Moves d d'.updateLinkReady l.settle.1 l.settle.2 := by
  have hboth := h.trans (moves_updateLinkReady d')
  rw [h.link] at hboth
  exact hboth

/-- A second look at readiness finds nothing new. -/
theorem Moves.settles_again {d d' : Dongle} {l : Link} (h : Moves d d' l.settle.1 l.settle.2) :
    Moves d d'.updateLinkReady l.settle.1 l.settle.2 := by
  have hboth := h.trans (moves_updateLinkReady d')
  rw [h.link, settle_settled, List.append_nil] at hboth
  exact hboth

theorem moves_connected (d : Dongle) (conn : Nat) (err : UInt8) (info : Option ConnInfo)
    (advStop : Int32) : Moves d (d.connected conn err info advStop)
      ((link d).callback (.connected conn err info advStop)).1
      ((link d).callback (.connected conn err info advStop)).2 := by
  unfold connected Link.callback
  by_cases herr : err ≠ 0
  · simp only [if_pos herr]
    exact .stay d
  · simp only [if_neg herr]
    set opened : Dongle := { d with
      currentConn := some conn, notifyKbEnabled := false, notifyCcEnabled := false
      notifyBootEnabled := false, currentSecLevel := btSecurityL1, hidSuspended := false }
    have hopened : Moves d opened ((link d).opened conn) [] := .write rfl
    -- what is read of the connection sends events only
    have hrest (e : Dongle) (hinfo : Quiet opened e) : Moves d
        (if advStop = 0 ∨ advStop = -ealready then (e.cmdEvtErr false).updateLinkReady.cmdEvtAdv false
          else (e.cmdEvtErr false).updateLinkReady).updateLinkReady
        ((link d).opened conn).settle.1 ((link d).opened conn).settle.2 := by
      have hready := ((hopened.quiet hinfo).quiet (quiet_evtErr _ false)).settles
      split
      · exact (hready.quiet (quiet_evtAdv _ false)).settles_again
      · exact hready.settles_again
    cases info with
    | some i => exact hrest _ ((quiet_evtConn opened true).trans (quiet_evtConnParams _ _ _ _))
    | none => exact hrest _ ((quiet_evtConn opened true).trans (quiet_write rfl rfl))

theorem moves_disconnected (d : Dongle) (reason : UInt8) :
    Moves d (d.disconnected reason) (link d).closed.settle.1 (link d).closed.settle.2 := by
  have hlines : Quiet d (((d.cmdEvtAdv false).cmdEvtDisc reason).cmdEvtConn false) :=
    ((quiet_evtAdv d false).trans (quiet_evtDisc _ reason)).trans (quiet_evtConn _ false)
  have hclosed := hlines.then (show Moves _ { ((d.cmdEvtAdv false).cmdEvtDisc reason).cmdEvtConn false with
      currentConn := none, notifyKbEnabled := false, notifyCcEnabled := false
      notifyBootEnabled := false, currentSecLevel := 0, hidSuspended := false }
      (link d).closed [] from .write rfl)
  exact (hclosed.quiet (quiet_evtErr _ false)).settles

theorem moves_writeProtocolMode (d : Dongle) (buf : List UInt8) (offset : Nat) :
    Moves d (d.writeProtocolMode buf offset).2
      ((link d).callback (.writeProtocolMode buf offset)).1
      ((link d).callback (.writeProtocolMode buf offset)).2 := by
  match buf, offset with
  | [], _ | _ :: _ :: _, _ | [_], _ + 1 => exact .stay d
  | [b], 0 =>
    simp only [Link.callback, Link.writtenMode, Option.elim_some, Link.writeMode, writeProtocolMode,
      ne_eq, not_true_eq_false, if_false]
    generalize (if ¬b = 0 then 1 else 0 : UInt8) = mode
    have hproto : (link d).proto = d.protocolMode := rfl
    by_cases hmode : mode = d.protocolMode
    · simp only [hproto, hmode, not_true_eq_false, if_false]
      exact .stay d
    · simp only [hproto, hmode, not_false_eq_true, if_true]
      have hset : Moves d { d with protocolMode := mode } { link d with proto := mode } [] := .write rfl
      exact (hset.quiet (quiet_evtProto _ mode)).settles

theorem moves_writeCtrlPoint (d : Dongle) (buf : List UInt8) :
    Moves d (d.writeCtrlPoint buf).2 ((link d).callback (.writeCtrlPoint buf)).1
      ((link d).callback (.writeCtrlPoint buf)).2 := by
  cases buf with
  | nil => exact .stay d
  | cons cp buf =>
    have hset : Moves d (if cp = 0 then { d with hidSuspended := false }
        else if cp = 1 then { d with hidSuspended := true } else d) ((link d).control cp) [] := by
      unfold Link.control
      split_ifs
      · exact .write rfl
      · exact .write rfl
      · exact .stay d
    exact hset.settles

/-- Every callback moves the link as the machine does, and announces what it announces. -/
theorem moves_callback (d : Dongle) (cb : Callback) :
    Moves d (d.callback cb) ((link d).callback cb).1 ((link d).callback cb).2 := by
  cases cb with
  | connected conn err info advStop => exact moves_connected d conn err info advStop
  | disconnected reason => exact moves_disconnected d reason
  | leParamUpdated interval latency timeout => exact quiet_evtConnParams d interval latency timeout
  | securityChanged level err =>
    by_cases herr : err ≠ 0
    · simp only [Dongle.callback, securityChanged, Link.callback, if_pos herr]
      exact .stay d
    · simp only [Dongle.callback, securityChanged, Link.callback, if_neg herr]
      have hset : Moves d { d with currentSecLevel := level } { link d with sec := level } [] := .write rfl
      exact (hset.quiet (quiet_evtErr _ false)).settles
  | kbCccChanged value =>
    exact (show Moves d { d with notifyKbEnabled := value = btGattCccNotify } _ [] from .write rfl).settles
  | ccCccChanged value =>
    exact (show Moves d { d with notifyCcEnabled := value = btGattCccNotify } _ [] from .write rfl).settles
  | bootCccChanged value =>
    exact (show Moves d { d with notifyBootEnabled := value = btGattCccNotify } _ [] from
      .write rfl).settles
  | battCccChanged value =>
    exact (show Moves d { d with notifyBattEnabled := value = btGattCccNotify } _ [] from
      .write rfl).settles
  | writeProtocolMode buf offset => exact moves_writeProtocolMode d buf offset
  | writeCtrlPoint buf => exact moves_writeCtrlPoint d buf
  | advRestartWorkHandler advStart =>
    simp only [Dongle.callback, advRestartWorkHandler, Link.callback]
    split_ifs
    · exact .stay d
    · exact .stay d
    · exact quiet_evtAdv d true

/-! ### The senders -/

theorem sendReport_writes {d d' : Dongle} {usage : Usage} {report : List UInt8} {attr : HidsAttr}
    (h : sendReport d usage report = .ok (attr, d')) : link d' = link d ∧ d'.out = d.out := by
  cases usage with
  | keyboard =>
    simp only [sendReport, sendKeyboardReport] at h
    split_ifs at h <;> (cases h; exact ⟨rfl, rfl⟩)
  | consumer =>
    simp only [sendReport, sendConsumerReport] at h
    split_ifs at h
    cases h
    exact ⟨rfl, rfl⟩

theorem quiet_sent (d : Dongle) (usage : Usage) (report : List UInt8) :
    Quiet d (sent d usage report).1 := by
  unfold sent
  cases h : sendReport d usage report with
  | error rc => exact .stay d
  | ok p => exact quiet_write (sendReport_writes h).1 (sendReport_writes h).2

/-- A sender goes by the link alone. -/
theorem sent_sends (d : Dongle) (usage : Usage) (report : List UInt8) :
    (sent d usage report).2 = (link d).sends usage report := by
  unfold sent sendReport sendKeyboardReport sendConsumerReport
  by_cases hconn : d.currentConn = none
  · cases usage <;> simp [Link.sends, link, hconn]
  · by_cases hsec : d.currentSecLevel < btSecurityL2
    · cases usage <;> simp [Link.sends, link, hconn, hsec]
    · cases usage with
      | keyboard =>
        by_cases hproto : d.protocolMode = 0
        · cases hboot : d.notifyBootEnabled <;> simp [Link.sends, link, hconn, hsec, hproto, hboot]
        · cases hkb : d.notifyKbEnabled <;> simp [Link.sends, link, hconn, hsec, hproto, hkb]
      | consumer =>
        cases hcc : d.notifyCcEnabled <;> simp [Link.sends, link, hconn, hsec, hcc]

theorem quiet_binHandled (usage : Usage) (d : Dongle) (rc : Int32) : Quiet d (binHandled usage d rc) := by
  have herr : Quiet d (if d.errorState then d.cmdEvtErr false else d) := by
    split
    · exact quiet_evtErr d false
    · exact .stay d
  unfold binHandled
  dsimp only
  split
  · exact herr.trans (quiet_line (.evtBinErr usage rc) rfl rfl rfl)
  · exact herr

theorem quiet_handleBin (d : Dongle) (usage : Usage) (report : List UInt8) (notify : Int32) :
    Quiet d (cmdHandleBin d usage report notify) := by
  have hshape : cmdHandleBin d usage report notify =
      Dongle.cmdHandleBin usage (fun d => sendReport d usage) d report notify := by
    cases usage <;> rfl
  rw [hshape, Dongle.cmdHandleBin]
  cases h : sendReport d usage report with
  | error rc => exact quiet_binHandled usage d rc
  | ok p =>
    exact (quiet_write (sendReport_writes h).1 (sendReport_writes h).2).trans
      (quiet_binHandled usage p.2 notify)

theorem releaseRound_eq (d : Dongle) :
    Quiet d (releaseRound d).1 ∧ (releaseRound d).2 = (link d).notifies .releaseRound := by
  have hkb := quiet_sent d .keyboard (List.replicate 8 0)
  refine ⟨hkb.trans (quiet_sent _ .consumer (List.replicate 2 0)), ?_⟩
  rw [releaseRound, Link.notifies, sent_sends, sent_sends, hkb.link]

theorem moves_snapEvt (d : Dongle) :
    Moves d (cmdEmitStatusSnapshot d) ((link d).input .snapEvt).1 ((link d).input .snapEvt).2 := by
  have hready : Moves d ({ d with linkReady := d.computeLinkReady }.cmdEvtReady d.computeLinkReady)
      ((link d).input .snapEvt).1 ((link d).input .snapEvt).2 := .line (.evtReady d.computeLinkReady) rfl
  have hlines := (((hready.quiet (quiet_evtAdv _ d.advIsOn)).quiet
    (quiet_evtConn _ d.currentConn.isSome)).quiet (quiet_evtProto _ d.protocolMode)).quiet
      (quiet_errLine _ d.errorState)
  unfold cmdEmitStatusSnapshot
  dsimp only
  split
  · exact hlines.quiet (quiet_evtConnParams _ _ _ _)
  · exact hlines

/-- The dongle refines the link: an input does to the link what the machine does, announces what
the machine announces, and notifies what the machine notifies. -/
theorem moves_input (d : Dongle) (i : Input) :
    Moves d (input d i).1 ((link d).input i).1 ((link d).input i).2 ∧
      (input d i).2 = (link d).notifies i := by
  cases i with
  | callback cb => exact ⟨moves_callback d cb, rfl⟩
  | frame usage report notify =>
    exact ⟨quiet_handleBin d usage report notify, sent_sends d usage report⟩
  | frameTimeout usage =>
    exact ⟨(quiet_evtErr d true).trans (quiet_line (.evtBinErrTimeout usage) rfl rfl rfl), rfl⟩
  | textReport usage report => exact ⟨quiet_sent d usage report, sent_sends d usage report⟩
  | snapEvt => exact ⟨moves_snapEvt d, rfl⟩
  | releaseRound => exact releaseRound_eq d

/-- What is seen of a run depends on nothing but the link it starts from. -/
theorem watch_eq (d : Dongle) (is : List Input) : watch d is = (link d).watch is := by
  induction is generalizing d with
  | nil => rfl
  | cons i is ih =>
    obtain ⟨hmoves, hsent⟩ := moves_input d i
    rw [watch, Link.watch, ih, hsent, hmoves.announced, hmoves.link]

/-! ### Two histories -/

/-- The mode that an input sets by an accepted write of Protocol Mode. -/
def written : Input → Option UInt8
  | .callback (.writeProtocolMode buf offset) => Link.writtenMode buf offset
  | _ => none

/-- The mode that the last accepted write of a history sets; main.c starts in Report mode. -/
def lastMode (is : List Input) : UInt8 := (is.filterMap written).getLast?.getD 1

theorem settle_proto (l : Link) : l.settle.1.proto = l.proto := by
  unfold Link.settle
  split <;> rfl

theorem input_proto (l : Link) (i : Input) : (l.input i).1.proto = (written i).getD l.proto := by
  cases i with
  | callback cb =>
    cases cb with
    | connected conn err info advStop =>
      simp only [Link.input, Link.callback]
      split
      · rfl
      · exact settle_proto _
    | disconnected reason => exact settle_proto _
    | leParamUpdated interval latency timeout => rfl
    | securityChanged level err =>
      simp only [Link.input, Link.callback]
      split
      · rfl
      · exact settle_proto _
    | kbCccChanged value => exact settle_proto _
    | ccCccChanged value => exact settle_proto _
    | bootCccChanged value => exact settle_proto _
    | battCccChanged value => exact settle_proto _
    | writeProtocolMode buf offset =>
      simp only [Link.input, Link.callback, written]
      cases Link.writtenMode buf offset with
      | none => rfl
      | some mode =>
        simp only [Option.elim_some, Option.getD_some, Link.writeMode]
        split
        · exact settle_proto _
        · next h => exact (not_not.mp h).symm
    | writeCtrlPoint buf =>
      cases buf with
      | nil => rfl
      | cons cp buf =>
        refine (settle_proto _).trans ?_
        unfold Link.control
        split_ifs <;> rfl
    | advRestartWorkHandler advStart => rfl
  | frame usage report notify => rfl
  | frameTimeout usage => rfl
  | textReport usage report => rfl
  | snapEvt => rfl
  | releaseRound => rfl

/-- No callback but an accepted write touches the mode. -/
theorem run_protocolMode (d : Dongle) (is : List Input) :
    (run d is).protocolMode = (is.filterMap written).getLast?.getD d.protocolMode := by
  induction is using List.reverseRecOn with
  | nil => rfl
  | append_singleton is i ih =>
    have hstep : (input (run d is) i).1.protocolMode = (written i).getD (run d is).protocolMode :=
      (congrArg Link.proto (moves_input (run d is) i).1.link).trans (input_proto _ i)
    rw [run, List.foldl_append, List.foldl_cons, List.foldl_nil]
    rw [show List.foldl (fun d i => (input d i).1) d is = run d is from rfl, hstep,
      List.filterMap_append]
    cases hw : written i with
    | none => simp [hw, ih]
    | some mode => simp [hw]

/-- The same host, connecting after one history or after the other, finds the same link and sees
the same whatever comes then. -/
structure SameStart (is is' : List Input) (conn : Nat) (info : Option ConnInfo) (advStop : Int32) :
    Prop where
  link : link ((run .boot is).connected conn 0 info advStop) =
    FreshLink.link ((run .boot is').connected conn 0 info advStop)
  watch : ∀ later, watch ((run .boot is).connected conn 0 info advStop) later =
    FreshLink.watch ((run .boot is').connected conn 0 info advStop) later

/-- A link just opened is not encrypted, so it is never ready. -/
theorem link_connected (d : Dongle) (conn : Nat) (info : Option ConnInfo) (advStop : Int32) :
    link (d.connected conn 0 info advStop) =
      ⟨some conn, btSecurityL1, false, false, false, false, d.protocolMode, false⟩ := by
  rw [(moves_connected d conn 0 info advStop).link]
  unfold Link.callback Link.settle
  have hready : ((link d).opened conn).computeReady = false := rfl
  simp only [ne_eq, not_true_eq_false, if_false, hready]
  split
  · rfl
  · next h =>
    have hold : (link d).ready = false := (not_not.mp h).symm
    exact congrArg (Link.mk (some conn) btSecurityL1 false false false false d.protocolMode) hold

/-- Everything is reset for a new connection but the protocol mode, so what earlier hosts did
shows exactly if their last writes left different modes. -/
theorem sameStart_iff (is is' : List Input) (conn : Nat) (info : Option ConnInfo) (advStop : Int32) :
    SameStart is is' conn info advStop ↔ lastMode is = lastMode is' := by
  have hmode (is : List Input) : (run .boot is).protocolMode = lastMode is := run_protocolMode .boot is
  constructor
  · intro h
    have hproto := congrArg Link.proto h.link
    rwa [link_connected, link_connected, hmode, hmode] at hproto
  · intro h
    have hlink : link ((run .boot is).connected conn 0 info advStop) =
        link ((run .boot is').connected conn 0 info advStop) := by
      rw [link_connected, link_connected, hmode, hmode, h]
    exact ⟨hlink, fun later => by rw [watch_eq, watch_eq, hlink]⟩

/-- A host secures the link, selects Boot mode and leaves. -/
def bootHost : List Input :=
  [.callback (.connected 0 0 none 0), .callback (.securityChanged 2 0),
    .callback (.writeProtocolMode [0] 0), .callback (.disconnected 0x13)]

/-- The next host, which enables Report notifications, gets no key at all after it. -/
theorem sameStart_bootHost :
    (run .boot bootHost).currentConn = none ∧ ¬ SameStart bootHost [] 1 none 0 ∧
      let later := [.callback (.securityChanged 2 0), .callback (.kbCccChanged 1),
        .callback (.ccCccChanged 1), .frame .keyboard [0, 0, 40, 0, 0, 0, 0, 0] 0]
      watch ((run .boot []).connected 1 0 none 0) later =
        [([], []), ([], []), ([], [true]), ([⟨.kbVal, [0, 0, 40, 0, 0, 0, 0, 0]⟩], [])] ∧
      watch ((run .boot bootHost).connected 1 0 none 0) later =
        [([], []), ([], []), ([], [true]), ([], [])] := by
  refine ⟨by decide, fun h => ?_, by decide, by decide⟩
  exact absurd h.link (by decide)

end PiHub.FreshLink

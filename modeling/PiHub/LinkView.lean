import PiHub.Transition
import PiHub.DongleHost

/-! The host's copy of the link state: the dongle's lines in the order they are queued,
folded over by the host one at a time. -/
namespace PiHub.LinkView
open Transition HostFrames DongleLink DongleHost

def isStatus : Line → Bool
  | .status _ => true
  | _ => false

/-- EVT ADV, EVT CONN, EVT READY and EVT ERR. -/
def isNews : Line → Bool
  | .evtAdv _ | .evtConn _ | .evtReady _ | .evtErr _ => true
  | _ => false

def dongleView (d : Dongle) : View :=
  ⟨d.advIsOn, d.currentConn.isSome, d.linkReady, d.errorState⟩

/-- Both ends of an open port. `formatted` is the local buffer of `cmd_emit_status_line`
between its two steps and how many lines had been queued when it was filled; `heard`
counts the lines the host has handled, `synced` tells whether a STATUS was among them
since the port was opened, `stale` whether one was ever queued behind newer news. -/
structure Link where
  dongle : Dongle
  formatted : Option (Status × Nat)
  heard : Nat
  host : BleDongleLink
  synced : Bool
  stale : Bool
  deriving DecidableEq

def Link.start : Link := ⟨.boot, none, 0, {}, false, false⟩

inductive LinkEvent where
  | callback (cb : Callback)
  | ping
  | info (addr : Option (List Char))
  | status
  | formatStatus
  | queueStatus
  | frame (f : Frame) (notify : Int32)
  | frameTimeout (usage : Usage)
  | hear
  | openPort
  deriving DecidableEq

def cmdEmitStatusLine (d : Dongle) : Dongle := d.cmdUartSendLine (.status d.statusFields)

def cmdHandleFrame (d : Dongle) (f : Frame) (notify : Int32) : Dongle :=
  match f.usage with
  | .keyboard => d.cmdHandleBinKb f.report notify
  | .consumer => d.cmdHandleBinCc f.report notify

/-- `_try_open_and_handshake` starts from nothing, whatever lay in the input buffer. -/
def reopened (h : BleDongleLink) : BleDongleLink :=
  { h with state := {}, transportEvt := false, lastError := none }

/-- A step of the command thread, which is not in the middle of a STATUS reply. -/
def Link.command (s : Link) (f : Dongle → Dongle) : Option Link :=
  if s.formatted = none then some { s with dongle := f s.dongle } else none

def Link.step (build : Build) (s : Link) : LinkEvent → Option Link
  | .callback cb => some { s with dongle := s.dongle.callback cb }
  | .ping => s.command fun d => d.cmdUartSendLine .pong
  | .info addr => s.command fun d => d.cmdUartSendLine (.info addr)
  | .status => s.command cmdEmitStatusLine
  | .formatStatus =>
    if s.formatted = none then
      some { s with formatted := some (s.dongle.statusFields, s.dongle.out.length) }
    else none
  | .queueStatus =>
    match s.formatted with
    | none => none
    | some (st, n) => some { s with
        dongle := s.dongle.cmdUartSendLine (.status st)
        formatted := none
        stale := s.stale || (s.dongle.out.drop n).any isNews }
  | .frame f notify => s.command fun d => cmdHandleFrame d f notify
  | .frameTimeout usage => s.command fun d => d.cmdHandleBinTimeout usage
  | .hear =>
    match s.dongle.out[s.heard]? with
    | none => none
    | some l => some { s with
        heard := s.heard + 1
        host := s.host.handleLine (lineText build l)
        synced := s.synced || isStatus l }
  | .openPort => some { s with
      heard := s.dongle.out.length, host := reopened s.host, synced := false }

/-! ### What a step of the dongle announces -/

/-- The lines queued on the way carry a host that agrees with the dongle along with it. -/
def Announces (d e : Dongle) : Prop :=
  ∃ ls, e.out = d.out ++ ls ∧ ls.foldl hear (dongleView d) = dongleView e ∧
    ∀ l ∈ ls, isStatus l = false

namespace Announces
variable {d e f : Dongle}

theorem quiet (hout : e.out = d.out) (hview : dongleView e = dongleView d) : Announces d e :=
  ⟨[], by simp [hout], hview.symm, by simp⟩

theorem trans (h : Announces d e) (h' : Announces e f) : Announces d f := by
  obtain ⟨ls, hout, hview, hstatus⟩ := h
  obtain ⟨ls', hout', hview', hstatus'⟩ := h'
  refine ⟨ls ++ ls', by rw [hout', hout, List.append_assoc], ?_, ?_⟩
  · rw [List.foldl_append, hview, hview']
  · intro l hl
    cases List.mem_append.mp hl with
    | inl hl => exact hstatus l hl
    | inr hl => exact hstatus' l hl

/-- One line, heard as the change it announces. -/
theorem line (l : Line) (hout : e.out = d.out ++ [l]) (hview : hear (dongleView d) l = dongleView e)
    (hl : isStatus l = false) : Announces d e :=
  ⟨[l], hout, hview, by simp [hl]⟩

theorem evtAdv (d : Dongle) (on : Bool) : Announces d (d.cmdEvtAdv on) := line _ rfl rfl rfl

theorem evtConnParams (d : Dongle) (i l t : UInt16) : Announces d (d.cmdEvtConnParams i l t) :=
  line _ rfl rfl rfl

theorem evtErr (d : Dongle) (on : Bool) : Announces d (d.cmdEvtErr on) := by
  unfold Dongle.cmdEvtErr
  split
  · exact line _ rfl rfl rfl
  · next h => exact quiet rfl (by simp [dongleView, not_not.mp h])

/-- Readiness needs a connection, so a host told READY 1 is right to think the link is up. -/
theorem updateLinkReady (d : Dongle) : Announces d d.updateLinkReady := by
  unfold Dongle.updateLinkReady
  split
  · refine line _ rfl ?_ rfl
    cases hready : d.computeLinkReady with
    | false => simp [hear, dongleView, Dongle.cmdEvtReady, Dongle.cmdUartSendLine]
    | true =>
      have hconn : d.currentConn ≠ none := ((computeLinkReady_iff d).mp hready).1
      simp [hear, dongleView, Dongle.cmdEvtReady, Dongle.cmdUartSendLine,
        Option.isSome_iff_ne_none.mpr hconn]
  · exact quiet rfl rfl

/-- A change the host has no flag for, then the recomputation. -/
theorem updated (hout : e.out = d.out) (hview : dongleView e = dongleView d) :
    Announces d e.updateLinkReady :=
  (quiet hout hview).trans (updateLinkReady e)

end Announces

theorem announces_connected (d : Dongle) (conn : Nat) (err : UInt8) (info : Option Dongle.ConnInfo)
    (advStop : Int32) : Announces d (d.connected conn err info advStop) := by
  unfold Dongle.connected
  split
  · exact .quiet rfl rfl
  · have hup : Announces d ({ d with
        currentConn := some conn
        notifyKbEnabled := false
        notifyCcEnabled := false
        notifyBootEnabled := false
        currentSecLevel := btSecurityL1
        hidSuspended := false }.cmdEvtConn true) :=
      .line (.evtConn true) rfl (by simp [hear, dongleView, Dongle.cmdEvtConn, Dongle.cmdUartSendLine])
        rfl
    have hend (e : Dongle) (he : Announces d e) : Announces d
        (if advStop = 0 ∨ advStop = -ealready then (e.cmdEvtErr false).updateLinkReady.cmdEvtAdv false
          else (e.cmdEvtErr false).updateLinkReady).updateLinkReady := by
      have hsettled := (he.trans (.evtErr _ false)).trans (.updateLinkReady _)
      split
      · exact (hsettled.trans (.evtAdv _ false)).trans (.updateLinkReady _)
      · exact hsettled.trans (.updateLinkReady _)
    cases info with
    | none => exact hend _ (hup.trans (.quiet rfl rfl))
    | some i => exact hend _ (hup.trans (.evtConnParams _ _ _ _))

/-- CONN 0 takes the host's ready flag down before the dongle's own follows. -/
theorem announces_disconnected (d : Dongle) (reason : UInt8) :
    Announces d (d.disconnected reason) := by
  refine ⟨[.evtAdv false, .evtDisc reason, .evtConn false] ++
    (if d.errorState then [.evtErr false] else []) ++
    (if d.linkReady then [.evtReady false] else []), ?_, ?_, ?_⟩ <;>
  cases herr : d.errorState <;> cases hready : d.linkReady <;>
  simp [Dongle.disconnected, Dongle.cmdEvtAdv, Dongle.cmdEvtDisc, Dongle.cmdEvtConn,
    Dongle.cmdEvtErr, Dongle.cmdSendErrLine, Dongle.cmdUartSendLine, Dongle.updateLinkReady,
    Dongle.computeLinkReady, Dongle.cmdEvtReady, herr, hready, hear, dongleView, isStatus]

theorem announces_callback (d : Dongle) (cb : Callback) : Announces d (d.callback cb) := by
  cases cb with
  | connected conn err info advStop => exact announces_connected d conn err info advStop
  | disconnected reason => exact announces_disconnected d reason
  | leParamUpdated interval latency timeout => exact .evtConnParams d interval latency timeout
  | securityChanged level err =>
    simp only [Dongle.callback, Dongle.securityChanged]
    split
    · exact .quiet rfl rfl
    · have hlevel : Announces d { d with currentSecLevel := level } := .quiet rfl rfl
      exact (hlevel.trans (.evtErr _ false)).trans (.updateLinkReady _)
  | kbCccChanged value => exact .updated rfl rfl
  | ccCccChanged value => exact .updated rfl rfl
  | bootCccChanged value => exact .updated rfl rfl
  | battCccChanged value => exact .updated rfl rfl
  | writeProtocolMode buf offset =>
    cases d.writeProtocolMode_cases buf offset with
    | inl hd => exact .quiet (by rw [Dongle.callback, hd]) (by rw [Dongle.callback, hd])
    | inr hd =>
      obtain ⟨mode, hd⟩ := hd
      rw [Dongle.callback, hd]
      have hmode : Announces d ({ d with protocolMode := mode }.cmdEvtProto mode) :=
        .line (.evtProto (mode ≠ 0)) rfl rfl rfl
      exact hmode.trans (.updateLinkReady _)
  | writeCtrlPoint buf =>
    cases buf with
    | nil => exact .quiet rfl rfl
    | cons cp buf =>
      simp only [Dongle.callback, Dongle.writeCtrlPoint]
      split
      · exact .updated rfl rfl
      · split
        · exact .updated rfl rfl
        · exact .updated rfl rfl
  | advRestartWorkHandler advStart =>
    simp only [Dongle.callback, Dongle.advRestartWorkHandler]
    split
    · exact .quiet rfl rfl
    · split
      · exact .quiet rfl rfl
      · exact .evtAdv d true

/-- Nothing announced and nothing to announce: only a report buffer differs. -/
structure Quiet (d e : Dongle) : Prop where
  out : e.out = d.out
  view : dongleView e = dongleView d
  ready : e.computeLinkReady = d.computeLinkReady

theorem sendKeyboardReport_quiet {d e : Dongle} {report : List UInt8} {attr : HidsAttr}
    (h : d.sendKeyboardReport report = .ok (attr, e)) : Quiet d e := by
  unfold Dongle.sendKeyboardReport at h
  split_ifs at h <;>
  · cases h
    exact ⟨rfl, rfl, rfl⟩

theorem sendConsumerReport_quiet {d e : Dongle} {report : List UInt8} {attr : HidsAttr}
    (h : d.sendConsumerReport report = .ok (attr, e)) : Quiet d e := by
  unfold Dongle.sendConsumerReport at h
  split_ifs at h
  cases h
  exact ⟨rfl, rfl, rfl⟩

theorem announces_binHandled {d : Dongle} (h : d.Settled) (usage : Usage) (rc : Int32) :
    Announces d (d.binHandled usage rc) ∧ (d.binHandled usage rc).Settled := by
  have hclear : Announces d (if d.errorState then d.cmdEvtErr false else d) ∧
      (if d.errorState then d.cmdEvtErr false else d).Settled := by
    split
    · exact ⟨.evtErr d false, h.evtErr false⟩
    · exact ⟨.quiet rfl rfl, h⟩
  unfold Dongle.binHandled
  dsimp only
  split
  · exact ⟨hclear.1.trans (.line (.evtBinErr usage rc) rfl rfl rfl), hclear.2.congr rfl rfl⟩
  · exact hclear

/-- After a whole frame, sent or refused, what changed has been announced. -/
theorem announces_bin {send : Dongle → List UInt8 → Except Int32 (HidsAttr × Dongle)} {d : Dongle}
    {report : List UInt8} (hsend : ∀ attr e, send d report = .ok (attr, e) → Quiet d e)
    (h : d.Settled) (usage : Usage) (notify : Int32) :
    Announces d (Dongle.cmdHandleBin usage send d report notify) ∧
      (Dongle.cmdHandleBin usage send d report notify).Settled := by
  unfold Dongle.cmdHandleBin
  split
  · exact announces_binHandled h usage _
  · next attr e hs =>
    have hquiet := hsend attr e hs
    have hready : e.linkReady = d.linkReady := congrArg View.ready hquiet.view
    obtain ⟨hto, hsettled⟩ := announces_binHandled (h.congr hready hquiet.ready) usage notify
    exact ⟨(Announces.quiet hquiet.out hquiet.view).trans hto, hsettled⟩

theorem announces_frame {d : Dongle} (h : d.Settled) (f : Frame) (notify : Int32) :
    Announces d (cmdHandleFrame d f notify) ∧ (cmdHandleFrame d f notify).Settled := by
  unfold cmdHandleFrame
  split
  · exact announces_bin (fun _ _ hs => sendKeyboardReport_quiet hs) h .keyboard notify
  · exact announces_bin (fun _ _ hs => sendConsumerReport_quiet hs) h .consumer notify

theorem announces_frameTimeout (d : Dongle) (usage : Usage) :
    Announces d (d.cmdHandleBinTimeout usage) :=
  (Announces.evtErr d true).trans (.line (.evtBinErrTimeout usage) rfl rfl rfl)

theorem settled_frameTimeout {d : Dongle} (h : d.Settled) (usage : Usage) :
    (d.cmdHandleBinTimeout usage).Settled :=
  (h.evtErr true).congr rfl rfl

/-! ### The lines on their way -/

theorem hear_quiet (v : View) {l : Line} (hnews : isNews l = false) (hstatus : isStatus l = false) :
    hear v l = v := by
  cases l <;> simp_all [hear, isNews, isStatus]

theorem foldl_hear_quiet (v : View) {ls : List Line}
    (h : ∀ l ∈ ls, isNews l = false ∧ isStatus l = false) : ls.foldl hear v = v := by
  induction ls with
  | nil => rfl
  | cons l ls ih =>
    obtain ⟨hnews, hstatus⟩ := h l (by simp)
    rw [List.foldl_cons, hear_quiet v hnews hstatus]
    exact ih fun m hm => h m (by simp [hm])

theorem hear_status {d : Dongle} (h : d.Settled) (v : View) :
    hear v (.status d.statusFields) = dongleView d := by
  have hready : d.linkReady = true → d.currentConn.isSome = true := by
    intro hr
    rw [h] at hr
    exact Option.isSome_iff_ne_none.mpr ((computeLinkReady_iff d).mp hr).1
  cases hl : d.linkReady with
  | false => simp [hear, Dongle.statusFields, dongleView, hl]
  | true => simp [hear, Dongle.statusFields, dongleView, hl, hready hl]

/-- Once a STATUS is among the lines heard or waiting, the waiting lines take the host to
the dongle's view; a reply still in the buffer describes the dongle as it is. -/
structure Link.Good (s : Link) : Prop where
  settled : s.dongle.Settled
  inRange : s.heard ≤ s.dongle.out.length
  agree : s.synced = true ∨ (∃ l ∈ s.dongle.out.drop s.heard, isStatus l = true) →
    (s.dongle.out.drop s.heard).foldl hear s.host.state.view = dongleView s.dongle
  buffered : ∀ st n, s.formatted = some (st, n) → n ≤ s.dongle.out.length ∧
    (∀ l ∈ s.dongle.out.drop n, isNews l = false) ∧
    ∀ v, hear v (.status st) = dongleView s.dongle
  fresh : s.stale = false

theorem good_start : Link.start.Good where
  settled := rfl
  inRange := Nat.le_refl 0
  agree := by simp [Link.start, Dongle.boot]
  buffered := by simp [Link.start]
  fresh := rfl

/-- The dongle moves on and announces it, saying no news past a buffered reply. -/
theorem Link.Good.announced {s : Link} {e : Dongle} (h : s.Good) (ha : Announces s.dongle e)
    (hsettled : e.Settled)
    (hquiet : s.formatted ≠ none → ∀ l ∈ e.out.drop s.dongle.out.length, isNews l = false) :
    Link.Good { s with dongle := e } := by
  obtain ⟨ls, hout, hview, hstatus⟩ := ha
  have hwaiting : e.out.drop s.heard = s.dongle.out.drop s.heard ++ ls := by
    rw [hout, List.drop_append_of_le_length h.inRange]
  have hnew : e.out.drop s.dongle.out.length = ls := by
    rw [hout, List.drop_left]
  refine ⟨hsettled, ?_, ?_, ?_, h.fresh⟩
  · have hle := h.inRange
    simp only [hout, List.length_append]
    omega
  · intro hsync
    have hsync' : s.synced = true ∨ ∃ l ∈ s.dongle.out.drop s.heard, isStatus l = true := by
      apply hsync.imp_right
      intro hmem
      obtain ⟨l, hl, hl'⟩ := hmem
      rw [hwaiting] at hl
      cases List.mem_append.mp hl with
      | inl hl => exact ⟨l, hl, hl'⟩
      | inr hl => simp [hstatus l hl] at hl'
    rw [hwaiting, List.foldl_append, h.agree hsync', hview]
  · intro st n (hst : s.formatted = some (st, n))
    obtain ⟨hn, hnews, hfields⟩ := h.buffered st n hst
    have hformatted : s.formatted ≠ none := by simp [hst]
    have hnone := hquiet hformatted
    rw [hnew] at hnone
    have hsame : dongleView e = dongleView s.dongle := by
      rw [← hview]
      exact foldl_hear_quiet _ fun l hl => ⟨hnone l hl, hstatus l hl⟩
    refine ⟨by simp only [hout, List.length_append]; omega, ?_, fun v => by rw [hfields v, hsame]⟩
    intro l hl
    rw [hout, List.drop_append_of_le_length hn] at hl
    cases List.mem_append.mp hl with
    | inl hl => exact hnews l hl
    | inr hl => exact hnone l hl

/-- A STATUS line that describes the dongle as it is settles the view at the end of the queue. -/
theorem Link.Good.queued {s : Link} {st : Status} (h : s.Good)
    (hfields : ∀ v, hear v (.status st) = dongleView s.dongle) :
    Link.Good { s with dongle := s.dongle.cmdUartSendLine (.status st), formatted := none } := by
  have hwaiting : (s.dongle.out ++ [Line.status st]).drop s.heard =
      s.dongle.out.drop s.heard ++ [Line.status st] :=
    List.drop_append_of_le_length h.inRange
  refine ⟨h.settled.congr rfl rfl, ?_, ?_, by simp, h.fresh⟩
  · have hle := h.inRange
    simp only [Dongle.cmdUartSendLine, List.length_append]
    omega
  · intro _
    simp only [Dongle.cmdUartSendLine, hwaiting, List.foldl_append, List.foldl_cons, List.foldl_nil]
    exact hfields _

theorem Link.Good.command {s t : Link} (h : s.Good) (f : Dongle → Dongle)
    (ha : Announces s.dongle (f s.dongle)) (hsettled : (f s.dongle).Settled)
    (hstep : s.command f = some t) : t.Good := by
  simp only [Link.command, Option.ite_none_right_eq_some, Option.some.injEq] at hstep
  obtain ⟨hnone, rfl⟩ := hstep
  exact h.announced ha hsettled fun hsome => absurd hnone hsome

theorem Link.Good.hear {build : Build} {s t : Link} (h : s.Good)
    (hstep : s.step build .hear = some t) : t.Good := by
  simp only [Link.step] at hstep
  split at hstep
  · cases hstep
  · next l hl =>
    obtain rfl := Option.some.inj hstep
    obtain ⟨hlt, hget⟩ := List.getElem?_eq_some_iff.mp hl
    have hwaiting : s.dongle.out.drop s.heard = l :: s.dongle.out.drop (s.heard + 1) := by
      rw [← hget, List.getElem_cons_drop]
    refine ⟨h.settled, hlt, ?_, h.buffered, h.fresh⟩
    intro hsync
    have hsync' : s.synced = true ∨ ∃ m ∈ s.dongle.out.drop s.heard, isStatus m = true := by
      rw [hwaiting]
      cases hsync with
      | inl hs =>
        cases Bool.or_eq_true_iff.mp hs with
        | inl hs => exact .inl hs
        | inr hs => exact .inr ⟨l, by simp, hs⟩
      | inr hmem =>
        obtain ⟨m, hm, hm'⟩ := hmem
        exact .inr ⟨m, List.mem_cons_of_mem l hm, hm'⟩
    have hagree := h.agree hsync'
    rw [hwaiting, List.foldl_cons] at hagree
    rw [handleLine_view]
    exact hagree

/-- No callback with news runs while a STATUS reply waits in its buffer. -/
def Undisturbed (s : Link) : LinkEvent → Prop
  | .callback cb => s.formatted ≠ none →
    ∀ l ∈ (s.dongle.callback cb).out.drop s.dongle.out.length, isNews l = false
  | _ => True

theorem good_step {build : Build} {s t : Link} {e : LinkEvent} (h : s.Good) (hok : Undisturbed s e)
    (hstep : s.step build e = some t) : t.Good := by
  cases e with
  | callback cb =>
    obtain rfl := Option.some.inj hstep
    exact h.announced (announces_callback _ cb) (settled_callback h.settled cb) hok
  | ping =>
    exact h.command (fun d => d.cmdUartSendLine .pong) (.line .pong rfl rfl rfl)
      (h.settled.congr rfl rfl) hstep
  | info addr =>
    exact h.command (fun d => d.cmdUartSendLine (.info addr)) (.line (.info addr) rfl rfl rfl)
      (h.settled.congr rfl rfl) hstep
  | status =>
    simp only [Link.step, Link.command, Option.ite_none_right_eq_some, Option.some.injEq] at hstep
    obtain ⟨hnone, rfl⟩ := hstep
    have hq := h.queued fun v => hear_status h.settled v
    rw [← hnone] at hq
    exact hq
  | formatStatus =>
    simp only [Link.step, Option.ite_none_right_eq_some, Option.some.injEq] at hstep
    obtain ⟨-, rfl⟩ := hstep
    refine ⟨h.settled, h.inRange, h.agree, ?_, h.fresh⟩
    intro st n hst
    obtain ⟨rfl, rfl⟩ := Prod.mk.inj (Option.some.inj hst)
    exact ⟨Nat.le_refl _, by simp, hear_status h.settled⟩
  | queueStatus =>
    simp only [Link.step] at hstep
    split at hstep
    · cases hstep
    · next st n hst =>
      obtain rfl := Option.some.inj hstep
      obtain ⟨-, hnews, hfields⟩ := h.buffered st n hst
      have hfresh : (s.stale || (s.dongle.out.drop n).any isNews) = false := by
        simpa [h.fresh] using hnews
      rw [hfresh, ← h.fresh]
      exact h.queued hfields
  | frame f notify =>
    obtain ⟨ha, hsettled⟩ := announces_frame h.settled f notify
    exact h.command (fun d => cmdHandleFrame d f notify) ha hsettled hstep
  | frameTimeout usage =>
    exact h.command (fun d => d.cmdHandleBinTimeout usage) (announces_frameTimeout _ usage)
      (settled_frameTimeout h.settled usage) hstep
  | hear => exact h.hear hstep
  | openPort =>
    obtain rfl := Option.some.inj hstep
    exact ⟨h.settled, Nat.le_refl _, by simp, h.buffered, h.fresh⟩

theorem good_of_reachable {build : Build} {s : Link}
    (h : ReachableBy (Link.step build) Undisturbed .start s) : s.Good :=
  h.invariant good_start fun _ _ _ hs hok hstep => good_step hs hok hstep

/-- The host's flags are the dongle's, readiness as it would be computed now. -/
structure Link.Agrees (s : Link) : Prop where
  connected : s.host.state.connected = s.dongle.currentConn.isSome
  ready : s.host.state.ready = s.dongle.computeLinkReady
  advertising : s.host.state.advertising = s.dongle.advIsOn
  error : s.host.state.error = s.dongle.errorState

theorem Link.Good.agrees {s : Link} (h : s.Good) (hsync : s.synced = true)
    (hdone : s.heard = s.dongle.out.length) : s.Agrees := by
  have hview := h.agree (.inl hsync)
  rw [hdone, List.drop_length, List.foldl_nil] at hview
  refine ⟨congrArg View.connected hview, ?_, congrArg View.advertising hview,
    congrArg View.error hview⟩
  exact (congrArg View.ready hview).trans h.settled

/-- `cmd_emit_status_line` in one step. -/
def Atomic (_ : Link) (e : LinkEvent) : Prop := e ≠ .formatStatus

instance (s : Link) (e : LinkEvent) : Decidable (Atomic s e) := inferInstanceAs (Decidable (_ ≠ _))

theorem unformatted_step {build : Build} {s t : Link} {e : LinkEvent} (h : s.formatted = none)
    (hok : Atomic s e) (hstep : s.step build e = some t) : t.formatted = none := by
  cases e with
  | callback cb => obtain rfl := Option.some.inj hstep; exact h
  | openPort => obtain rfl := Option.some.inj hstep; exact h
  | formatStatus => exact absurd rfl hok
  | queueStatus => simp [Link.step, h] at hstep
  | hear =>
    simp only [Link.step] at hstep
    split at hstep
    · cases hstep
    · obtain rfl := Option.some.inj hstep
      exact h
  | ping | info _ | status | frame _ _ | frameTimeout _ =>
    simp only [Link.step, Link.command, h, if_true, Option.some.injEq] at hstep
    rw [← hstep]

theorem undisturbed_of_unformatted {s : Link} (h : s.formatted = none) (e : LinkEvent) :
    Undisturbed s e := by
  cases e with
  | callback cb => intro hsome; exact absurd h hsome
  | ping | info _ | status | formatStatus | queueStatus | frame _ _ | frameTimeout _ | hear
  | openPort => trivial

theorem good_of_atomic {build : Build} {s : Link}
    (h : ReachableBy (Link.step build) Atomic .start s) : s.Good ∧ s.formatted = none := by
  induction h with
  | start => exact ⟨good_start, rfl⟩
  | next _ hok hstep ih =>
    obtain ⟨hgood, hnone⟩ := ih
    exact ⟨good_step hgood (undisturbed_of_unformatted hnone _) hstep,
      unformatted_step hnone hok hstep⟩

/-- However callbacks, commands and frames interleave, a host that has seen a STATUS reply
and everything since knows the link as the dongle does. -/
theorem host_agrees (build : Build) (s : Link)
    (h : ReachableBy (Link.step build) Atomic .start s) (hsync : s.synced = true)
    (hdone : s.heard = s.dongle.out.length) : s.Agrees :=
  (good_of_atomic h).1.agrees hsync hdone

/-- With the reply in two steps: as long as no news overtakes it in its buffer, no STATUS
is ever stale and the host still agrees. -/
theorem status_fresh (build : Build) (s : Link)
    (h : ReachableBy (Link.step build) Undisturbed .start s) :
    s.stale = false ∧ (s.synced = true → s.heard = s.dongle.out.length → s.Agrees) :=
  ⟨(good_of_reachable h).fresh, fun hsync hdone => (good_of_reachable h).agrees hsync hdone⟩

instance (s : Link) (e : LinkEvent) : Decidable (Undisturbed s e) :=
  match e with
  | .callback cb => inferInstanceAs (Decidable (s.formatted ≠ none →
      ∀ l ∈ (s.dongle.callback cb).out.drop s.dongle.out.length, isNews l = false))
  | .ping | .info _ | .status | .formatStatus | .queueStatus | .frame _ _ | .frameTimeout _
  | .hear | .openPort => .isTrue trivial

def sampleBuild : Build := ⟨"PiHub nrf Remote".toList, "unknown".toList⟩

def phoneConnects : Callback := .connected 0 0 (some ⟨15000, 0, 400⟩) 0

/-- A phone connects and subscribes around a STATUS request. -/
def sampleRun : List LinkEvent :=
  [.openPort, .callback (.advRestartWorkHandler 0), .callback phoneConnects, .status,
    .callback (.securityChanged 2 0), .callback (.kbCccChanged 1), .callback (.ccCccChanged 1)] ++
    List.replicate 6 .hear

theorem host_agrees_sample : ∃ s, execute (Link.step sampleBuild) .start sampleRun = some s ∧
    s.Agrees := by
  have hend : ((execute (Link.step sampleBuild) .start sampleRun).map fun s =>
      decide (s.synced = true ∧ s.heard = s.dongle.out.length)) = some true := by
    decide +kernel
  have hatomic : Along (Link.step sampleBuild) Atomic .start sampleRun := by decide +kernel
  obtain ⟨s, hs, hs'⟩ := Option.map_eq_some_iff.mp hend
  obtain ⟨hsync, hdone⟩ := of_decide_eq_true hs'
  exact ⟨s, hs, host_agrees sampleBuild s (reachableBy_of_execute hs hatomic) hsync hdone⟩

/-- The request split around a callback that has nothing to announce. -/
def splitRun : List LinkEvent :=
  [.openPort, .formatStatus, .callback (.battCccChanged 1), .queueStatus, .hear]

theorem status_fresh_sample : ∃ s, execute (Link.step sampleBuild) .start splitRun = some s ∧
    s.stale = false ∧ s.Agrees := by
  have hend : ((execute (Link.step sampleBuild) .start splitRun).map fun s =>
      decide (s.synced = true ∧ s.heard = s.dongle.out.length)) = some true := by
    decide +kernel
  have hquiet : Along (Link.step sampleBuild) Undisturbed .start splitRun := by decide +kernel
  obtain ⟨s, hs, hs'⟩ := Option.map_eq_some_iff.mp hend
  obtain ⟨hsync, hdone⟩ := of_decide_eq_true hs'
  obtain ⟨hfresh, hagrees⟩ := status_fresh sampleBuild s (reachableBy_of_execute hs hquiet)
  exact ⟨s, hs, hfresh, hagrees hsync hdone⟩

/-- A phone connects after the reply was formatted and before it is queued. -/
def overtakenRun : List LinkEvent :=
  [.openPort, .formatStatus, .callback phoneConnects, .queueStatus] ++ List.replicate 4 .hear

/-- The old reply comes last, and the host takes the link for down. -/
theorem status_overwrites_news :
    ∃ s, execute (Link.step sampleBuild) .start overtakenRun = some s ∧
      s.stale = true ∧ s.synced = true ∧ s.heard = s.dongle.out.length ∧
      s.dongle.currentConn = some 0 ∧ s.host.state.connected = false := by
  have hend : ((execute (Link.step sampleBuild) .start overtakenRun).map fun s =>
      decide (s.stale = true ∧ s.synced = true ∧ s.heard = s.dongle.out.length ∧
        s.dongle.currentConn = some 0 ∧ s.host.state.connected = false)) = some true := by
    decide +kernel
  obtain ⟨s, hs, hs'⟩ := Option.map_eq_some_iff.mp hend
  exact ⟨s, hs, of_decide_eq_true hs'⟩

end PiHub.LinkView

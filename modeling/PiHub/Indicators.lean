import PiHub.LinkView

/-! The dongle's LEDs (main.c): what the link, the error flag, the blink timer and SW1 make of them. A
callback, a command, a work item and SW1's interrupt are each taken whole, so that SW1 does not move
inside `sw1_feedback_work_fn`; and the runs begin in main's loop, with the error flag clear. -/
namespace PiHub.Indicators
open Transition HostFrames DongleLink LinkView

/-- The red LED, the red of the RGB, the green (connected) and the blue (advertising). -/
structure Leds where
  err : Bool
  rgbRed : Bool
  conn : Bool
  adv : Bool
  deriving DecidableEq

namespace Leds

def allOff : Leds := ⟨false, false, false, false⟩
def errOn : Leds := { allOff with err := true }
def connOn : Leds := { allOff with conn := true }
def advSet (l : Leds) (on : Bool) : Leds := { l with err := false, conn := false, adv := on }

end Leds

/-- Times are in ms; a timer and a work item are their next expiry. Recorded are `letGo`, that SW1 has
been let go since the error flag was raised; `darkened`, that the flag was cleared without a link while
SW1 was held, which leaves the blink timer stopped; and `wipeFailed`, that a failed erase has started
the blink timer over a link or an error. -/
structure Board where
  now : Nat
  dongle : Dongle
  leds : Leds
  blinkTimer : Option Nat
  blinkState : Bool
  sw1Pressed : Bool
  sw1FeedbackOn : Bool
  sw1FeedbackWork : Option Nat
  letGo : Bool
  darkened : Bool
  wipeFailed : Bool
  deriving DecidableEq

namespace Board

/-- `main`, once Bluetooth is up. -/
def boot (now : Nat) : Board where
  now := now
  dongle := .boot
  leds := .allOff
  blinkTimer := some now
  blinkState := false
  sw1Pressed := false
  sw1FeedbackOn := false
  sw1FeedbackWork := none
  letGo := false
  darkened := false
  wipeFailed := false

def linked (s : Board) : Bool := s.dongle.currentConn.isSome

def setLedsAdv (s : Board) : Board := { s with leds := .allOff }
def setLedsConn (s : Board) : Board := { s with leds := .connOn }

def pihubLedRestoreState (s : Board) : Board := if s.linked then s.setLedsConn else s.setLedsAdv

/-- `k_timer_start(&blink_timer, K_NO_WAIT, K_MSEC(500))`. -/
def startBlink (s : Board) : Board := { s with blinkTimer := some s.now, darkened := false }

/-- The LEDs' part of `cmd_evt_err`, called with the link up or not. -/
def cmdEvtErr (s : Board) (linked on : Bool) : Board :=
  if on then
    { s with
      blinkTimer := none
      leds := .errOn
      letGo := false
      darkened := false
      wipeFailed := false }
  else if s.sw1Pressed then
    { s with darkened := s.darkened || (s.dongle.errorState && !linked && s.blinkTimer.isNone) }
  else if linked then s.setLedsConn
  else { s.setLedsAdv.startBlink with blinkState := false, wipeFailed := false }

/-- The LEDs' part of the callbacks. -/
def lights (s : Board) : Callback → Board
  | .connected _ err _ _ =>
    if err ≠ 0 then s
    else
      { (s.cmdEvtErr true false).setLedsConn with
        blinkTimer := none
        darkened := false
        wipeFailed := false }
  | .disconnected _ => { (s.cmdEvtErr false false).setLedsAdv.startBlink with wipeFailed := false }
  | .securityChanged _ err => if err ≠ 0 then s else s.cmdEvtErr s.linked false
  | _ => s

def callback (s : Board) (cb : Callback) : Board :=
  { s.lights cb with dongle := s.dongle.callback cb }

/-- A report has been read, or has not come in time. -/
def frame (s : Board) (f : Frame) (notify : Int32) : Board :=
  { (if s.dongle.errorState then s.cmdEvtErr s.linked false else s) with
    dongle := cmdHandleFrame s.dongle f notify }

def frameTimeout (s : Board) (usage : Usage) : Board :=
  { s.cmdEvtErr s.linked true with dongle := s.dongle.cmdHandleBinTimeout usage }

def blinkTimerHandler (s : Board) (due : Nat) : Board :=
  { s with
    blinkTimer := some (due + 500)
    blinkState := !s.blinkState
    leds := s.leds.advSet !s.blinkState }

def sw1ScheduleOrCancel (s : Board) (pressed : Bool) : Board :=
  if pressed then
    { s with
      sw1Pressed := true
      sw1FeedbackOn := false
      sw1FeedbackWork := some (s.sw1FeedbackWork.getD s.now) }
  else
    { s with
      sw1Pressed := false
      sw1FeedbackWork := none
      sw1FeedbackOn := false
      letGo := s.letGo || s.dongle.errorState }.pihubLedRestoreState

/-- Each branch begins with an `atomic_cas` on `sw1_pressed`. -/
def sw1GpioIsr (s : Board) (pressed : Bool) : Board :=
  if s.sw1Pressed = pressed then s else s.sw1ScheduleOrCancel pressed

def sw1FeedbackWorkFn (s : Board) : Board :=
  if !s.sw1Pressed then
    { s with sw1FeedbackOn := false, sw1FeedbackWork := none }.pihubLedRestoreState
  else
    let t := { s with sw1FeedbackOn := !s.sw1FeedbackOn, sw1FeedbackWork := some (s.now + 200) }
    if t.sw1FeedbackOn then { t with leds := .errOn } else t.pihubLedRestoreState

/-- The end of `bond_clear_work_handler`: a reboot when the storage could be erased. -/
def bondClearWorkHandler (s : Board) (eraseErr : Int32) : Board :=
  if eraseErr = 0 then boot s.now
  else { s.setLedsAdv.startBlink with wipeFailed := s.linked || s.dongle.errorState }

end Board

inductive Event where
  | passes (ms : Nat)
  | callback (cb : Callback)
  | frame (f : Frame) (notify : Int32)
  | frameTimeout (usage : Usage)
  | blinkTimerHandler
  | sw1GpioIsr (pressed : Bool)
  | sw1FeedbackWorkFn
  | bondClearWorkHandler (eraseErr : Int32)

def step (s : Board) : Event → Option Board
  | .passes ms => some { s with now := s.now + ms }
  | .callback cb => some (s.callback cb)
  | .frame f notify => some (s.frame f notify)
  | .frameTimeout usage => some (s.frameTimeout usage)
  | .blinkTimerHandler =>
    match s.blinkTimer with
    | some due => if due ≤ s.now then some (s.blinkTimerHandler due) else none
    | none => none
  | .sw1GpioIsr pressed => some (s.sw1GpioIsr pressed)
  | .sw1FeedbackWorkFn =>
    match s.sw1FeedbackWork with
    | some due => if due ≤ s.now then some s.sw1FeedbackWorkFn else none
    | none => none
  | .bondClearWorkHandler eraseErr => some (s.bondClearWorkHandler eraseErr)

/-! ### The flags the LEDs follow -/

/-- The error flag and the link, which the LEDs show. -/
structure Flags (d : Dongle) (error linked : Bool) : Prop where
  errorState : d.errorState = error
  linked : d.currentConn.isSome = linked

namespace Flags
variable {d : Dongle} {error linked : Bool}

theorem updateLinkReady (h : Flags d error linked) : Flags d.updateLinkReady error linked := by
  unfold Dongle.updateLinkReady
  split
  · exact ⟨h.errorState, h.linked⟩
  · exact h

theorem evtErr (h : Flags d error linked) (on : Bool) : Flags (d.cmdEvtErr on) on linked := by
  unfold Dongle.cmdEvtErr
  split <;> exact ⟨rfl, h.linked⟩

/-- The end of the callbacks that clear the error flag. -/
theorem cleared (h : Flags d error linked) : Flags (d.cmdEvtErr false).updateLinkReady false linked :=
  (h.evtErr false).updateLinkReady

end Flags

theorem flags_connected (d : Dongle) (conn : Nat) (info : Option Dongle.ConnInfo) (advStop : Int32) :
    Flags (d.connected conn 0 info advStop) false true := by
  have hend (e : Dongle) (he : Flags e d.errorState true) : Flags
      (if advStop = 0 ∨ advStop = -ealready then (e.cmdEvtErr false).updateLinkReady.cmdEvtAdv false
        else (e.cmdEvtErr false).updateLinkReady).updateLinkReady false true := by
    split
    · exact Flags.updateLinkReady ⟨he.cleared.errorState, he.cleared.linked⟩
    · exact he.cleared.updateLinkReady
  cases info with
  | none => exact hend _ ⟨rfl, rfl⟩
  | some i => exact hend _ ⟨rfl, rfl⟩

theorem flags_disconnected (d : Dongle) (reason : UInt8) :
    Flags (d.disconnected reason) false false := by
  have hdown : Flags { (((d.cmdEvtAdv false).cmdEvtDisc reason).cmdEvtConn false) with
      currentConn := none
      notifyKbEnabled := false
      notifyCcEnabled := false
      notifyBootEnabled := false
      currentSecLevel := 0
      hidSuspended := false } d.errorState false := ⟨rfl, rfl⟩
  exact hdown.cleared

/-- A callback opens or ends a link, clears the error flag of a secured one, or leaves both flags and
the LEDs alone. -/
theorem callback_cases (s : Board) (cb : Callback) :
    (s.lights cb = s ∧ Flags (s.dongle.callback cb) s.dongle.errorState s.linked) ∨
      (∃ conn info advStop, cb = .connected conn 0 info advStop) ∨
      (∃ reason, cb = .disconnected reason) ∨
      ∃ level, cb = .securityChanged level 0 ∧ Flags (s.dongle.callback cb) false s.linked := by
  have hsame : Flags s.dongle s.dongle.errorState s.linked := ⟨rfl, rfl⟩
  cases cb with
  | connected conn err info advStop =>
    by_cases herr : err = 0
    · subst herr
      exact Or.inr (Or.inl ⟨conn, info, advStop, rfl⟩)
    · rw [Dongle.callback, Dongle.connected, if_pos herr]
      exact Or.inl ⟨if_pos herr, hsame⟩
  | disconnected reason => exact Or.inr (Or.inr (Or.inl ⟨reason, rfl⟩))
  | securityChanged level err =>
    by_cases herr : err = 0
    · subst herr
      refine Or.inr (Or.inr (Or.inr ⟨level, rfl, ?_⟩))
      have hsecured : Flags { s.dongle with currentSecLevel := level } s.dongle.errorState s.linked :=
        ⟨rfl, rfl⟩
      exact hsecured.cleared
    · rw [Dongle.callback, Dongle.securityChanged, if_pos herr]
      exact Or.inl ⟨if_pos herr, hsame⟩
  | leParamUpdated interval latency timeout => exact Or.inl ⟨rfl, rfl, rfl⟩
  | kbCccChanged value | ccCccChanged value | bootCccChanged value | battCccChanged value =>
    exact Or.inl ⟨rfl, Flags.updateLinkReady ⟨rfl, rfl⟩⟩
  | writeProtocolMode buf offset =>
    refine Or.inl ⟨rfl, ?_⟩
    obtain hd | ⟨mode, hd⟩ := s.dongle.writeProtocolMode_cases buf offset
    · rw [Dongle.callback, hd]
      exact hsame
    · rw [Dongle.callback, hd]
      exact Flags.updateLinkReady ⟨rfl, rfl⟩
  | writeCtrlPoint buf =>
    refine Or.inl ⟨rfl, ?_⟩
    cases buf with
    | nil => exact hsame
    | cons cp buf =>
      simp only [Dongle.callback, Dongle.writeCtrlPoint]
      split
      · exact Flags.updateLinkReady ⟨rfl, rfl⟩
      · split
        · exact Flags.updateLinkReady ⟨rfl, rfl⟩
        · exact Flags.updateLinkReady ⟨rfl, rfl⟩
  | advRestartWorkHandler advStart =>
    refine Or.inl ⟨rfl, ?_⟩
    simp only [Dongle.callback, Dongle.advRestartWorkHandler]
    split
    · exact hsame
    · split
      · exact hsame
      · exact ⟨rfl, rfl⟩

/-- A frame that is read clears the error flag. -/
theorem flags_frame (d : Dongle) (f : Frame) (notify : Int32) :
    Flags (cmdHandleFrame d f notify) false d.currentConn.isSome := by
  have hhandled (usage : Usage) {e : Dongle} (he : Flags e d.errorState d.currentConn.isSome)
      (rc : Int32) : Flags (e.binHandled usage rc) false d.currentConn.isSome := by
    have hcleared : Flags (if e.errorState then e.cmdEvtErr false else e) false
        d.currentConn.isSome := by
      split
      · exact he.evtErr false
      · next hclear => exact ⟨Bool.eq_false_iff.mpr hclear, he.linked⟩
    unfold Dongle.binHandled
    dsimp only
    split
    · exact ⟨hcleared.errorState, hcleared.linked⟩
    · exact hcleared
  have hbin (usage : Usage) {send : Dongle → List UInt8 → Except Int32 (HidsAttr × Dongle)}
      (hsend : ∀ attr e, send d f.report = .ok (attr, e) → Quiet d e) :
      Flags (Dongle.cmdHandleBin usage send d f.report notify) false d.currentConn.isSome := by
    unfold Dongle.cmdHandleBin
    split
    · exact hhandled usage ⟨rfl, rfl⟩ _
    · next attr e hs =>
      have hview := (hsend attr e hs).view
      exact hhandled usage ⟨congrArg DongleHost.View.error hview,
        congrArg DongleHost.View.connected hview⟩ notify
  unfold cmdHandleFrame
  split
  · exact hbin .keyboard fun _ _ hs => sendKeyboardReport_quiet hs
  · exact hbin .consumer fun _ _ hs => sendConsumerReport_quiet hs

/-! ### What the LEDs show -/

/-- What `pihub_led_restore_state` shows. -/
def Leds.restored (linked : Bool) : Leds := if linked then .connOn else .allOff

/-- With SW1 let go: red alone for an error, unless SW1 has been let go since; else green alone with a
link, and without one no red and no green. -/
structure AtRest (s : Board) : Prop where
  error : s.wipeFailed = false → s.dongle.errorState = true →
    s.leds = if s.letGo then .restored s.linked else .errOn
  link : s.wipeFailed = false → s.dongle.errorState = false → s.linked = true → s.leds = .connOn
  dark : s.dongle.errorState = false → s.linked = false → s.leds.err = false ∧ s.leds.conn = false ∧
    (s.darkened = true → s.leds = .allOff)

structure Lit (s : Board) : Prop where
  rgbRed : s.leds.rgbRed = false
  due : ∀ due, s.blinkTimer = some due → due ≤ s.now + 500
  feedback : s.sw1Pressed = false → s.sw1FeedbackWork = none
  stopped : s.wipeFailed = false → s.dongle.errorState = true ∨ s.linked = true → s.blinkTimer = none
  blinks : s.dongle.errorState = false → s.linked = false →
    (s.darkened = true ↔ s.blinkTimer = none)
  darkened : s.darkened = true → s.dongle.errorState = false ∧ s.linked = false
  atRest : s.sw1Pressed = false → AtRest s

theorem lit_boot (now : Nat) : Lit (.boot now) where
  rgbRed := rfl
  due := fun due hdue => by
    obtain rfl := Option.some.inj hdue
    exact Nat.le_add_right _ _
  feedback := fun _ => rfl
  stopped := fun _ h => by
    obtain h | h := h
    · cases h
    · cases h
  blinks := fun _ _ => ⟨(fun h => by cases h), fun h => by cases h⟩
  darkened := fun h => by cases h
  atRest := fun _ => ⟨(fun _ h => by cases h), (fun _ _ h => by cases h), fun _ _ => ⟨rfl, rfl, fun _ => rfl⟩⟩

/-- A step of the dongle that leaves both flags alone. -/
theorem Lit.congr {s : Board} (h : Lit s) {d : Dongle}
    (hflags : Flags d s.dongle.errorState s.linked) : Lit { s with dongle := d } where
  rgbRed := h.rgbRed
  due := h.due
  feedback := h.feedback
  stopped := fun hwipe hwhy => by
    refine h.stopped hwipe ?_
    rw [← hflags.errorState, ← hflags.linked]
    exact hwhy
  blinks := fun herr hlink => h.blinks (hflags.errorState ▸ herr) (hflags.linked ▸ hlink)
  darkened := fun hdark => by
    change d.errorState = false ∧ d.currentConn.isSome = false
    rw [hflags.errorState, hflags.linked]
    exact h.darkened hdark
  atRest := fun hrest => by
    have hat := h.atRest hrest
    refine ⟨fun hwipe herr => ?_, fun hwipe herr hlink => ?_, fun herr hlink => ?_⟩
    · change s.leds = if s.letGo then .restored d.currentConn.isSome else .errOn
      rw [hflags.linked]
      exact hat.error hwipe (hflags.errorState ▸ herr)
    · exact hat.link hwipe (hflags.errorState ▸ herr) (hflags.linked ▸ hlink)
    · exact hat.dark (hflags.errorState ▸ herr) (hflags.linked ▸ hlink)

/-- The error flag is raised. -/
theorem Lit.raised {s : Board} (h : Lit s) {d : Dongle} (hflags : Flags d true s.linked) :
    Lit { s.cmdEvtErr s.linked true with dongle := d } where
  rgbRed := rfl
  due := fun due hdue => by cases hdue
  feedback := h.feedback
  stopped := fun _ _ => rfl
  blinks := fun herr _ => by
    change d.errorState = false at herr
    rw [hflags.errorState] at herr
    cases herr
  darkened := fun hdark => by cases hdark
  atRest := fun _ => by
    refine ⟨fun _ _ => rfl, fun _ herr => ?_, fun herr => ?_⟩ <;>
    · change d.errorState = false at herr
      rw [hflags.errorState] at herr
      cases herr

/-- While SW1 is held, clearing the error flag leaves the LEDs to the feedback. -/
theorem Lit.cleared_held {s : Board} (h : Lit s) {d : Dongle} (hflags : Flags d false s.linked)
    (hpressed : s.sw1Pressed = true) : Lit { s with
      dongle := d
      darkened := s.darkened || (s.dongle.errorState && !s.linked && s.blinkTimer.isNone) } where
  rgbRed := h.rgbRed
  due := h.due
  feedback := h.feedback
  stopped := fun hwipe hwhy => by
    obtain herr | hup := hwhy
    · cases hflags.errorState.symm.trans herr
    · exact h.stopped hwipe (Or.inr (hflags.linked ▸ hup))
  blinks := fun _ hdown => by
    have hdown : s.linked = false := hflags.linked ▸ hdown
    dsimp only
    cases hold : s.dongle.errorState with
    | false => simpa [hold] using h.blinks hold hdown
    | true =>
      have hlit : s.darkened = false := by
        cases hdark : s.darkened with
        | false => rfl
        | true =>
          rw [(h.darkened hdark).1] at hold
          cases hold
      simp [hlit, hdown]
  darkened := fun hdark => by
    refine ⟨hflags.errorState, hflags.linked.trans ?_⟩
    cases hup : s.linked with
    | false => rfl
    | true =>
      have hdark : s.darkened = true := by simpa [hup] using hdark
      rw [(h.darkened hdark).2] at hup
      cases hup
  atRest := fun hrest => by
    rw [show s.sw1Pressed = false from hrest] at hpressed
    cases hpressed

theorem Lit.cleared_linked {s : Board} (h : Lit s) {d : Dongle} (hflags : Flags d false true)
    (hup : s.linked = true) (hpressed : s.sw1Pressed = false) :
    Lit { s.setLedsConn with dongle := d } where
  rgbRed := rfl
  due := h.due
  feedback := fun _ => h.feedback hpressed
  stopped := fun hwipe _ => h.stopped hwipe (Or.inr hup)
  blinks := fun _ hdown => by cases hflags.linked.symm.trans hdown
  darkened := fun hdark => by
    rw [(h.darkened hdark).2] at hup
    cases hup
  atRest := fun _ => by
    refine ⟨fun _ herr => ?_, fun _ _ _ => rfl, fun _ hdown => ?_⟩
    · cases hflags.errorState.symm.trans herr
    · cases hflags.linked.symm.trans hdown

/-- Without a link the blink timer starts over. -/
theorem Lit.blinking {s : Board} {d : Dongle} (hflags : Flags d false false)
    (hfeedback : s.sw1Pressed = false → s.sw1FeedbackWork = none) (blinkState : Bool) :
    Lit { s.setLedsAdv.startBlink with
      dongle := d, blinkState := blinkState, wipeFailed := false } where
  rgbRed := rfl
  due := fun due hdue => by
    obtain rfl := Option.some.inj hdue
    exact Nat.le_add_right _ _
  feedback := hfeedback
  stopped := fun _ hwhy => by
    obtain herr | hup := hwhy
    · cases hflags.errorState.symm.trans herr
    · cases hflags.linked.symm.trans hup
  blinks := fun _ _ => ⟨(fun hdark => by cases hdark), fun hnone => by cases hnone⟩
  darkened := fun hdark => by cases hdark
  atRest := fun _ => by
    refine ⟨fun _ herr => ?_, fun _ _ hup => ?_, fun _ _ => ⟨rfl, rfl, fun _ => rfl⟩⟩
    · cases hflags.errorState.symm.trans herr
    · cases hflags.linked.symm.trans hup

/-- The error flag is cleared, or was clear. -/
theorem Lit.cleared {s : Board} (h : Lit s) {d : Dongle} (hflags : Flags d false s.linked) :
    Lit { s.cmdEvtErr s.linked false with dongle := d } := by
  unfold Board.cmdEvtErr
  rw [if_neg Bool.false_ne_true]
  split
  · next hpressed => exact h.cleared_held hflags hpressed
  · next hpressed =>
    have hpressed : s.sw1Pressed = false := Bool.eq_false_iff.mpr hpressed
    split
    · next hup => exact h.cleared_linked (hup ▸ hflags) hup hpressed
    · next hdown =>
      have hdown : s.linked = false := Bool.eq_false_iff.mpr hdown
      exact Lit.blinking (hdown ▸ hflags) h.feedback false

/-- `cmd_evt_err` leaves SW1 alone. -/
theorem evtErr_feedback {s : Board} (h : Lit s) (linked on : Bool) :
    (s.cmdEvtErr linked on).sw1Pressed = false → (s.cmdEvtErr linked on).sw1FeedbackWork = none := by
  unfold Board.cmdEvtErr
  split
  · exact h.feedback
  · split
    · exact h.feedback
    · split <;> exact h.feedback

theorem Lit.callback {s : Board} (h : Lit s) (cb : Callback) : Lit (s.callback cb) := by
  obtain ⟨hlights, hsame⟩ | ⟨conn, info, advStop, rfl⟩ | ⟨reason, rfl⟩ | ⟨level, rfl, hclear⟩ :=
    callback_cases s cb
  · rw [Board.callback, hlights]
    exact h.congr hsame
  · have hflags := flags_connected s.dongle conn info advStop
    exact {
      rgbRed := rfl
      due := fun due hdue => by cases hdue
      feedback := evtErr_feedback h true false
      stopped := fun _ _ => rfl
      blinks := fun _ hdown => by cases hflags.linked.symm.trans hdown
      darkened := fun hdark => by cases hdark
      atRest := fun _ => by
        refine ⟨fun _ herr => ?_, fun _ _ _ => rfl, fun _ hdown => ?_⟩
        · cases hflags.errorState.symm.trans herr
        · cases hflags.linked.symm.trans hdown }
  · exact Lit.blinking (flags_disconnected s.dongle reason) (evtErr_feedback h false false)
      (s.cmdEvtErr false false).blinkState
  · exact h.cleared hclear

theorem Lit.frame {s : Board} (h : Lit s) (f : Frame) (notify : Int32) : Lit (s.frame f notify) := by
  have hflags := flags_frame s.dongle f notify
  unfold Board.frame
  split
  · exact h.cleared hflags
  · next hclear =>
    have hclear : s.dongle.errorState = false := Bool.eq_false_iff.mpr hclear
    exact h.congr (hclear ▸ hflags)

theorem Lit.frameTimeout {s : Board} (h : Lit s) (usage : Usage) : Lit (s.frameTimeout usage) := by
  have hsame : Flags s.dongle s.dongle.errorState s.linked := ⟨rfl, rfl⟩
  have hraised := hsame.evtErr true
  exact h.raised ⟨hraised.errorState, hraised.linked⟩

theorem Lit.blinkTimerHandler {s : Board} (h : Lit s) {due : Nat} (hdue : s.blinkTimer = some due)
    (hover : due ≤ s.now) : Lit (s.blinkTimerHandler due) where
  rgbRed := h.rgbRed
  due := fun next hnext => by
    obtain rfl := Option.some.inj hnext
    exact Nat.add_le_add_right hover 500
  feedback := h.feedback
  stopped := fun hwipe hwhy => by
    rw [h.stopped hwipe hwhy] at hdue
    cases hdue
  blinks := fun herr hdown => by
    refine ⟨fun hdark => ?_, fun hnone => by cases hnone⟩
    rw [(h.blinks herr hdown).mp hdark] at hdue
    cases hdue
  darkened := h.darkened
  atRest := fun _ => by
    refine ⟨fun hwipe herr => ?_, fun hwipe _ hup => ?_, fun herr hdown => ⟨rfl, rfl, fun hdark => ?_⟩⟩
    · rw [h.stopped hwipe (Or.inl herr)] at hdue
      cases hdue
    · rw [h.stopped hwipe (Or.inr hup)] at hdue
      cases hdue
    · rw [(h.blinks herr hdown).mp hdark] at hdue
      cases hdue

theorem restoreState_eq (s : Board) :
    s.pihubLedRestoreState = { s with leds := .restored s.linked } := by
  unfold Board.pihubLedRestoreState Leds.restored
  split <;> rfl

theorem restored_rgbRed (linked : Bool) : (Leds.restored linked).rgbRed = false := by
  cases linked <;> rfl

/-- Letting SW1 go shows the link, whatever the error flag says. -/
theorem Lit.letGo {s : Board} (h : Lit s) : Lit (s.sw1ScheduleOrCancel false) := by
  unfold Board.sw1ScheduleOrCancel
  rw [if_neg Bool.false_ne_true, restoreState_eq]
  refine ⟨restored_rgbRed s.linked, h.due, fun _ => rfl, h.stopped, h.blinks, h.darkened, fun _ => ?_⟩
  refine ⟨fun _ herr => ?_, fun _ _ hup => ?_, fun _ hdown => ?_⟩
  · have hletGo : (s.letGo || s.dongle.errorState) = true := by
      rw [show s.dongle.errorState = true from herr, Bool.or_true]
    exact (if_pos hletGo).symm
  · exact congrArg Leds.restored (show s.linked = true from hup)
  · have hoff : Leds.restored s.linked = .allOff :=
      congrArg Leds.restored (show s.linked = false from hdown)
    exact ⟨congrArg Leds.err hoff, congrArg Leds.conn hoff, fun _ => hoff⟩

/-- With SW1 held, the LEDs may show anything. -/
theorem Lit.held {s : Board} (h : Lit s) (leds : Leds) (hrgb : leds.rgbRed = false) (on : Bool)
    (work : Option Nat) : Lit { s with
      leds := leds, sw1Pressed := true, sw1FeedbackOn := on, sw1FeedbackWork := work } where
  rgbRed := hrgb
  due := h.due
  feedback := fun hrest => by cases hrest
  stopped := h.stopped
  blinks := h.blinks
  darkened := h.darkened
  atRest := fun hrest => by cases hrest

theorem Lit.sw1GpioIsr {s : Board} (h : Lit s) (pressed : Bool) : Lit (s.sw1GpioIsr pressed) := by
  unfold Board.sw1GpioIsr
  split
  · exact h
  · cases pressed with
    | true => exact h.held s.leds h.rgbRed false (some (s.sw1FeedbackWork.getD s.now))
    | false => exact h.letGo

theorem Lit.sw1FeedbackWorkFn {s : Board} (h : Lit s) (hpending : s.sw1FeedbackWork ≠ none) :
    Lit s.sw1FeedbackWorkFn := by
  have hpressed : s.sw1Pressed = true := by
    cases hrest : s.sw1Pressed with
    | true => rfl
    | false => exact absurd (h.feedback hrest) hpending
  unfold Board.sw1FeedbackWorkFn
  rw [hpressed, if_neg (by decide)]
  dsimp only
  split
  · exact h.held .errOn rfl (!s.sw1FeedbackOn) (some (s.now + 200))
  · rw [restoreState_eq]
    exact h.held _ (restored_rgbRed s.linked) (!s.sw1FeedbackOn) (some (s.now + 200))

theorem Lit.bondClearWorkHandler {s : Board} (h : Lit s) (eraseErr : Int32) :
    Lit (s.bondClearWorkHandler eraseErr) := by
  unfold Board.bondClearWorkHandler
  split
  · exact lit_boot s.now
  · have hwipe (hok : (s.linked || s.dongle.errorState) = false) :
        s.linked = false ∧ s.dongle.errorState = false := Bool.or_eq_false_iff.mp hok
    refine ⟨rfl, fun due hdue => ?_, h.feedback, fun hok hwhy => ?_, fun _ _ => ?_,
      (fun hdark => by cases hdark), fun _ => ?_⟩
    · obtain rfl := Option.some.inj hdue
      exact Nat.le_add_right _ _
    · obtain ⟨hdown, hclear⟩ := hwipe hok
      obtain herr | hup := hwhy
      · cases hclear.symm.trans herr
      · cases hdown.symm.trans hup
    · exact ⟨(fun hdark => by cases hdark), fun hnone => by cases hnone⟩
    · refine ⟨fun hok herr => ?_, fun hok _ hup => ?_, fun _ _ => ⟨rfl, rfl, fun _ => rfl⟩⟩
      · cases (hwipe hok).2.symm.trans herr
      · cases (hwipe hok).1.symm.trans hup

theorem Lit.step {s t : Board} {e : Event} (h : Lit s) (hstep : Indicators.step s e = some t) :
    Lit t := by
  cases e with
  | passes ms =>
    obtain rfl := Option.some.inj hstep
    have hat := h.atRest
    exact { h with
      due := fun due hdue => by
        have hle := h.due due hdue
        dsimp only
        omega
      atRest := fun hrest => ⟨(hat hrest).error, (hat hrest).link, (hat hrest).dark⟩ }
  | callback cb =>
    obtain rfl := Option.some.inj hstep
    exact h.callback cb
  | frame f notify =>
    obtain rfl := Option.some.inj hstep
    exact h.frame f notify
  | frameTimeout usage =>
    obtain rfl := Option.some.inj hstep
    exact h.frameTimeout usage
  | blinkTimerHandler =>
    simp only [Indicators.step] at hstep
    split at hstep
    · next due hdue =>
      obtain ⟨hover, rfl⟩ := of_guard hstep
      exact h.blinkTimerHandler hdue hover
    · cases hstep
  | sw1GpioIsr pressed =>
    obtain rfl := Option.some.inj hstep
    exact h.sw1GpioIsr pressed
  | sw1FeedbackWorkFn =>
    simp only [Indicators.step] at hstep
    split at hstep
    · next due hdue =>
      obtain ⟨-, rfl⟩ := of_guard hstep
      exact h.sw1FeedbackWorkFn (by rw [hdue]; exact Option.some_ne_none due)
    · cases hstep
  | bondClearWorkHandler eraseErr =>
    obtain rfl := Option.some.inj hstep
    exact h.bondClearWorkHandler eraseErr

/-- What the LEDs tell with SW1 let go, over every run of whole events from main's loop on. Without an error: green alone and no blinking
with a link; without one the blue LED alone, whose blink timer runs, unless clearing an error while SW1
was held has left the dongle dark. With an error: red alone, unless SW1 has been let go since, which
shows the link in its place. A failed erase puts the blink timer over a link or an error. -/
theorem leds_show {start : Nat} {s : Board} {es : List Event}
    (h : execute step (.boot start) es = some s) (hrest : s.sw1Pressed = false) :
    (s.dongle.errorState = true → s.wipeFailed = false → s.blinkTimer = none ∧
        s.leds = if s.letGo then .restored s.linked else .errOn) ∧
      (s.dongle.errorState = false → s.linked = true → s.wipeFailed = false →
        s.blinkTimer = none ∧ s.leds = .connOn) ∧
      (s.dongle.errorState = false → s.linked = false →
        (∃ blue, s.leds = { Leds.allOff with adv := blue }) ∧
          if s.darkened then s.leds = .allOff ∧ s.blinkTimer = none
          else ∃ due, s.blinkTimer = some due ∧ due ≤ s.now + 500) := by
  have hlit : Lit s := (reachable_of_execute h).invariant (lit_boot start)
    fun _ _ _ ht _ hstep => ht.step hstep
  have hat := hlit.atRest hrest
  refine ⟨fun herr hwipe => ⟨hlit.stopped hwipe (Or.inl herr), hat.error hwipe herr⟩,
    fun herr hup hwipe => ⟨hlit.stopped hwipe (Or.inr hup), hat.link hwipe herr hup⟩,
    fun herr hdown => ⟨?_, ?_⟩⟩
  · obtain ⟨hred, hgreen, -⟩ := hat.dark herr hdown
    refine ⟨s.leds.adv, ?_⟩
    calc s.leds = ⟨s.leds.err, s.leds.rgbRed, s.leds.conn, s.leds.adv⟩ := rfl
      _ = { Leds.allOff with adv := s.leds.adv } := by rw [hred, hlit.rgbRed, hgreen]; rfl
  · have hblinks := hlit.blinks herr hdown
    cases hdark : s.darkened with
    | true =>
      rw [if_pos rfl]
      exact ⟨(hat.dark herr hdown).2.2 hdark, hblinks.mp hdark⟩
    | false =>
      rw [if_neg Bool.false_ne_true]
      cases hdue : s.blinkTimer with
      | none =>
        rw [hblinks.mpr hdue] at hdark
        cases hdark
      | some due => exact ⟨due, rfl, hlit.due due hdue⟩

/-- A report does not come in time, and the next one is read while SW1 is held for a moment. -/
def tapped : List Event :=
  [.blinkTimerHandler, .frameTimeout .keyboard, .sw1GpioIsr true, .sw1FeedbackWorkFn,
    .frame (zeroFrame .consumer) 0, .passes 300, .sw1GpioIsr false]

theorem leds_show_tapped : ∃ s : Board, execute step (.boot 0) tapped = some s ∧
    s.dongle.errorState = false ∧ s.leds = .allOff ∧ s.blinkTimer = none := by
  have h : (execute step (.boot 0) tapped).map (fun s => decide (s.sw1Pressed = false ∧
      s.dongle.errorState = false ∧ s.linked = false ∧ s.darkened = true)) = some true := by
    decide +kernel
  obtain ⟨s, hs, hat⟩ := Option.map_eq_some_iff.mp h
  obtain ⟨hrest, herr, hdown, hdark⟩ := of_decide_eq_true hat
  have hshown := ((leds_show hs hrest).2.2 herr hdown).2
  rw [if_pos hdark] at hshown
  exact ⟨s, hs, herr, hshown⟩

end PiHub.Indicators

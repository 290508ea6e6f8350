import PiHub.DongleLink
import PiHub.WorkItems

/-! Link upkeep (main.c): the work item that drops a link which is not encrypted in time, and the
one that asks again for the low-latency parameters. -/
namespace PiHub.LinkUpkeep
open Transition DongleLink WorkItems

structure LeConnParam where
  intervalMin : UInt16
  intervalMax : UInt16
  latency : UInt16
  deriving DecidableEq

/-- What Kconfig sets of the two requests. -/
structure Prefs where
  prefMinInt : UInt16
  prefMaxInt : UInt16
  prefLatency : UInt16
  deriving DecidableEq

def Prefs.lowLatencyConnParams (p : Prefs) : LeConnParam := ⟨p.prefMinInt, p.prefMinInt, p.prefLatency⟩
def Prefs.fallbackConnParams (p : Prefs) : LeConnParam := ⟨p.prefMaxInt, p.prefMaxInt, p.prefLatency⟩

/-- prj.conf as shipped. -/
def shipped : Prefs := ⟨12, 12, 0⟩

def linkUnencryptedLimitMs : Nat := 15000
def linkParamRecheckMs : Nat := 8000
def linkParamMaxRequests : UInt8 := 3

/-- Times are in ms. From `openedAt` on, the fields record what has become of the link. -/
structure State where
  now : Nat := 0
  dongle : Dongle := .boot
  linkSecureWork : Item := {}
  linkParamWork : Item := {}
  linkParamRequests : UInt8 := 0
  /-- Calls of `security_changed` that are still in `bt_conn_le_param_update`. -/
  securing : Nat := 0
  openedAt : Nat := 0
  encrypted : Bool := false
  /-- When `link_secure_work` has asked to disconnect. -/
  dropAskedAt : Option Nat := none
  /-- When the link was encrypted or its parameters were reported, whichever came last. -/
  movedAt : Nat := 0
  /-- The requests of `link_param_work` since then. -/
  asked : Nat := 0
  deriving DecidableEq

namespace State

def linkParamsAreLowLatency (p : Prefs) (s : State) : Bool :=
  s.dongle.haveConnParams &&
    p.lowLatencyConnParams.intervalMin ≤ s.dongle.lastInterval &&
    s.dongle.lastInterval ≤ p.fallbackConnParams.intervalMax &&
    s.dongle.lastLatency = p.lowLatencyConnParams.latency

def linkSecureWorkHandler (s : State) : State :=
  if s.dongle.currentConn.isSome && s.dongle.currentSecLevel < btSecurityL2 then
    { s with dropAskedAt := some s.now }
  else s

/-- The guard of `link_param_work_handler`. -/
def mayAsk (p : Prefs) (s : State) : Bool :=
  s.dongle.currentConn.isSome && btSecurityL2 ≤ s.dongle.currentSecLevel &&
    !s.linkParamsAreLowLatency p && s.linkParamRequests < linkParamMaxRequests

/-- `link_param_work_handler` up to the answer of `bt_conn_le_param_update`, if it asks. -/
def linkParamWorkHandler (p : Prefs) (s : State) : State :=
  if s.mayAsk p then { s with linkParamRequests := s.linkParamRequests + 1, asked := s.asked + 1 }
  else { s with linkParamWork := s.linkParamWork.finish }

/-- The rest of it. -/
def looksAgain (s : State) : State :=
  { s with linkParamWork := (s.linkParamWork.reschedule s.now linkParamRecheckMs).finish }

/-- What a callback does besides changing the link state. -/
def upkeep (p : Prefs) (s : State) : Callback → State
  | .connected _ err _ _ =>
    if err ≠ 0 then s
    else
      { s with
        linkParamRequests := 0
        linkSecureWork := s.linkSecureWork.reschedule s.now linkUnencryptedLimitMs
        openedAt := s.now
        encrypted := false
        dropAskedAt := none
        movedAt := s.now
        asked := 0 }
  | .disconnected _ =>
    { s with linkSecureWork := s.linkSecureWork.cancel, linkParamWork := s.linkParamWork.cancel }
  | .leParamUpdated _ _ _ =>
    let s := { s with movedAt := s.now, asked := 0 }
    if s.linkParamsAreLowLatency p then { s with linkParamRequests := 0 }
    else { s with linkParamWork := s.linkParamWork.reschedule s.now linkParamRecheckMs }
  | .securityChanged level err =>
    if err = 0 ∧ btSecurityL2 ≤ level then
      { s with
        linkSecureWork := s.linkSecureWork.cancel
        securing := s.securing + 1
        encrypted := true
        movedAt := s.now
        asked := 0 }
    else s
  | _ => s

/-- The end of `security_changed`. -/
def securityAsked (s : State) : State :=
  { s with
    securing := s.securing - 1
    linkParamRequests := 1
    linkParamWork := s.linkParamWork.reschedule s.now linkParamRecheckMs
    asked := 0 }

end State

/-- The callbacks of the stack, time, and what the kernel does with the two items. The handler of
`link_secure_work` cannot be interrupted; that of `link_param_work` waits for the stack. -/
inductive Event where
  | callback (cb : Callback)
  | securityAsked
  | passes (ms : Nat)
  | secureExpires
  | secureRuns
  | paramExpires
  | paramStarts
  | paramEnds
  deriving DecidableEq

def step (p : Prefs) (s : State) : Event → Option State
  | .callback cb => some ({ s with dongle := s.dongle.callback cb }.upkeep p cb)
  | .securityAsked => if 0 < s.securing then some s.securityAsked else none
  | .passes ms => some { s with now := s.now + ms }
  | .secureExpires =>
    if s.linkSecureWork.isDue s.now then
      some { s with linkSecureWork := s.linkSecureWork.expire }
    else none
  | .secureRuns =>
    if s.linkSecureWork.queued ∧ s.linkParamWork.running = false then
      some { s with linkSecureWork := s.linkSecureWork.start.finish }.linkSecureWorkHandler
    else none
  | .paramExpires =>
    if s.linkParamWork.isDue s.now then some { s with linkParamWork := s.linkParamWork.expire }
    else none
  | .paramStarts =>
    if s.linkParamWork.queued ∧ s.linkParamWork.running = false then
      some ({ s with linkParamWork := s.linkParamWork.start }.linkParamWorkHandler p)
    else none
  | .paramEnds => if s.linkParamWork.running then some s.looksAgain else none

/-- There is one connection slot: the stack opens a link when the one before it is reported gone. -/
def OneSlot (s : State) : Event → Prop
  | .callback (.connected _ err _ _) => err = 0 → s.dongle.currentConn = none
  | _ => True

/-- Time does not pass what is due, nor while a handler or a request is under way. -/
def Prompt (s : State) : Event → Prop
  | .passes ms => s.linkSecureWork.Rests (s.now + ms) ∧ s.linkParamWork.Rests (s.now + ms) ∧
      s.securing = 0
  | _ => True

instance (s : State) : ∀ e : Event, Decidable (OneSlot s e)
  | .callback (.connected _ _ _ _) => inferInstanceAs (Decidable (_ → _))
  | .callback (.disconnected _) | .callback (.leParamUpdated _ _ _)
  | .callback (.securityChanged _ _) | .callback (.kbCccChanged _) | .callback (.ccCccChanged _)
  | .callback (.bootCccChanged _) | .callback (.battCccChanged _)
  | .callback (.writeProtocolMode _ _) | .callback (.writeCtrlPoint _)
  | .callback (.advRestartWorkHandler _) | .securityAsked | .passes _ | .secureExpires
  | .secureRuns | .paramExpires | .paramStarts | .paramEnds => .isTrue trivial

instance (s : State) : ∀ e : Event, Decidable (Prompt s e)
  | .passes _ => inferInstanceAs (Decidable (_ ∧ _ ∧ _))
  | .callback _ | .securityAsked | .secureExpires | .secureRuns | .paramExpires | .paramStarts
  | .paramEnds => .isTrue trivial

/-! ### What the callbacks change -/

/-- What link upkeep reads of the dongle. -/
structure Link where
  conn : Option Nat
  sec : UInt8
  haveConnParams : Bool
  interval : UInt16
  latency : UInt16

def linkOf (d : Dongle) : Link :=
  ⟨d.currentConn, d.currentSecLevel, d.haveConnParams, d.lastInterval, d.lastLatency⟩

@[simp] theorem linkOf_cmdUartSendLine (d : Dongle) (l : Line) :
    linkOf (d.cmdUartSendLine l) = linkOf d := rfl

@[simp] theorem linkOf_cmdEvtAdv (d : Dongle) (on : Bool) : linkOf (d.cmdEvtAdv on) = linkOf d := rfl

@[simp] theorem linkOf_cmdEvtErr (d : Dongle) (on : Bool) : linkOf (d.cmdEvtErr on) = linkOf d := by
  unfold Dongle.cmdEvtErr
  split <;> rfl

@[simp] theorem linkOf_updateLinkReady (d : Dongle) : linkOf d.updateLinkReady = linkOf d := by
  unfold Dongle.updateLinkReady
  split <;> rfl

/-- The callbacks that report on the link itself. -/
def reportsLink : Callback → Bool
  | .connected _ _ _ _ | .disconnected _ | .leParamUpdated _ _ _ | .securityChanged _ _ => true
  | _ => false

theorem callback_cases (cb : Callback) : reportsLink cb = false ∨
    (∃ conn err info advStop, cb = .connected conn err info advStop) ∨
    (∃ reason, cb = .disconnected reason) ∨
    (∃ interval latency timeout, cb = .leParamUpdated interval latency timeout) ∨
    ∃ level err, cb = .securityChanged level err := by
  cases cb <;> simp [reportsLink]

theorem upkeep_other (p : Prefs) (s : State) {cb : Callback} (h : reportsLink cb = false) :
    s.upkeep p cb = s := by
  cases cb <;> first | rfl | cases h

theorem linkOf_callback (d : Dongle) {cb : Callback} (h : reportsLink cb = false) :
    linkOf (d.callback cb) = linkOf d := by
  cases cb with
  | connected conn err info advStop => cases h
  | disconnected reason => cases h
  | leParamUpdated interval latency timeout => cases h
  | securityChanged level err => cases h
  | kbCccChanged value => exact linkOf_updateLinkReady _
  | ccCccChanged value => exact linkOf_updateLinkReady _
  | bootCccChanged value => exact linkOf_updateLinkReady _
  | battCccChanged value => exact linkOf_updateLinkReady _
  | writeProtocolMode buf offset =>
    rcases d.writeProtocolMode_cases buf offset with hd | ⟨mode, hd⟩
    · exact congrArg linkOf hd
    · exact (congrArg linkOf hd).trans (linkOf_updateLinkReady _)
  | writeCtrlPoint buf =>
    cases buf with
    | nil => rfl
    | cons cp buf =>
      simp only [Dongle.callback, Dongle.writeCtrlPoint, linkOf_updateLinkReady]
      split_ifs <;> rfl
  | advRestartWorkHandler advStart =>
    simp only [Dongle.callback, Dongle.advRestartWorkHandler]
    split_ifs <;> rfl

theorem linkOf_connected (d : Dongle) (conn : Nat) (info : Option Dongle.ConnInfo)
    (advStop : Int32) : (linkOf (d.connected conn 0 info advStop)).conn = some conn ∧
      (linkOf (d.connected conn 0 info advStop)).sec = btSecurityL1 := by
  rw [Dongle.connected, if_neg (by decide)]
  simp only [linkOf_updateLinkReady, apply_ite linkOf, linkOf_cmdEvtAdv, ite_self, linkOf_cmdEvtErr]
  cases info with
  | none => exact ⟨rfl, rfl⟩
  | some info => exact ⟨rfl, rfl⟩

theorem linkOf_disconnected (d : Dongle) (reason : UInt8) :
    (linkOf (d.disconnected reason)).conn = none := by
  simp only [Dongle.disconnected, linkOf_updateLinkReady, linkOf_cmdEvtErr]
  rfl

theorem linkOf_securityChanged (d : Dongle) (level err : UInt8) :
    linkOf (d.securityChanged level err) =
      if err = 0 then { linkOf d with sec := level } else linkOf d := by
  unfold Dongle.securityChanged
  by_cases herr : err = 0
  · rw [if_neg (not_not.mpr herr), if_pos herr, linkOf_updateLinkReady, linkOf_cmdEvtErr]
    rfl
  · rw [if_pos herr, if_neg herr]

/-- A failed attempt to connect changes nothing. -/
theorem connected_failed (d : Dongle) (conn : Nat) {err : UInt8} (info : Option Dongle.ConnInfo)
    (advStop : Int32) (h : err ≠ 0) : d.connected conn err info advStop = d := by
  rw [Dongle.connected, if_pos h]

/-! ### The limit for a link that is not encrypted -/

/-- A link is up that has not been encrypted yet and that nobody has asked to drop. -/
def Watched (s : State) : Prop :=
  (linkOf s.dongle).conn ≠ none ∧ s.encrypted = false ∧ s.dropAskedAt = none

/-- `link_secure_work` is set for the end of the limit, or has reached it and is queued. -/
def Armed (s : State) : Prop :=
  (s.linkSecureWork.due = some (s.openedAt + linkUnencryptedLimitMs) ∧
      s.linkSecureWork.queued = false) ∨
    (s.linkSecureWork.due = none ∧ s.linkSecureWork.queued = true ∧
      s.openedAt + linkUnencryptedLimitMs ≤ s.now)

/-- The item is pending for a watched link and for nothing else. -/
structure Limited (s : State) : Prop where
  still : s.linkSecureWork.running = false
  sound : s.linkSecureWork.Sound
  unencrypted : (linkOf s.dongle).conn ≠ none → s.encrypted = false →
    (linkOf s.dongle).sec < btSecurityL2
  armed : Watched s → Armed s
  idle : ¬ Watched s → s.linkSecureWork.due = none ∧ s.linkSecureWork.queued = false
  asked : ∀ t, s.dropAskedAt = some t → s.openedAt + linkUnencryptedLimitMs ≤ t

/-- The fields that the limit is about, besides the link and the time. -/
def limitOf (s : State) : Item × Bool × Option Nat × Nat :=
  (s.linkSecureWork, s.encrypted, s.dropAskedAt, s.openedAt)

theorem Limited.congr {s t : State} (h : Limited s) (hsame : limitOf t = limitOf s)
    (hconn : (linkOf t.dongle).conn = (linkOf s.dongle).conn)
    (hsec : (linkOf s.dongle).sec < btSecurityL2 → (linkOf t.dongle).sec < btSecurityL2)
    (hnow : s.now ≤ t.now) : Limited t := by
  simp only [limitOf, Prod.mk.injEq] at hsame
  obtain ⟨hwork, hencrypted, hdrop, hopened⟩ := hsame
  have hwatched : Watched t ↔ Watched s := by rw [Watched, Watched, hconn, hencrypted, hdrop]
  refine ⟨by rw [hwork]; exact h.still, by rw [hwork]; exact h.sound, ?_, fun hw => ?_, ?_, ?_⟩
  · rw [hconn, hencrypted]
    exact fun hup hnot => hsec (h.unencrypted hup hnot)
  · unfold Armed
    rw [hwork, hopened]
    exact (h.armed (hwatched.mp hw)).imp_right fun hq => ⟨hq.1, hq.2.1, Nat.le_trans hq.2.2 hnow⟩
  · rw [hwatched, hwork]
    exact h.idle
  · rw [hdrop, hopened]
    exact h.asked

theorem Limited.not_canceling {s : State} (h : Limited s) : s.linkSecureWork.canceling = false := by
  by_contra hcanceling
  have hrunning := h.sound (Bool.not_eq_false _ ▸ hcanceling)
  simp [h.still] at hrunning

theorem Limited.connected {p : Prefs} {s : State} (h : Limited s) (conn : Nat) (err : UInt8)
    (info : Option Dongle.ConnInfo) (advStop : Int32)
    (hone : err = 0 → s.dongle.currentConn = none) : Limited ({ s with
      dongle := s.dongle.callback (.connected conn err info advStop) }.upkeep p
        (.connected conn err info advStop)) := by
  by_cases herr : err = 0
  · obtain rfl := herr
    obtain ⟨hconn, hsec⟩ := linkOf_connected s.dongle conn info advStop
    have hfree : ¬ Watched s := fun hw => hw.1 (hone rfl)
    obtain ⟨hdue, hqueued⟩ := h.idle hfree
    have harmed : s.linkSecureWork.reschedule s.now linkUnencryptedLimitMs =
        { s.linkSecureWork with due := some (s.now + linkUnencryptedLimitMs) } := by
      rw [Item.reschedule, Item.arm, if_neg (by decide)]
    refine ⟨?_, ?_, fun _ _ => ?_, fun _ => Or.inl ⟨?_, ?_⟩, fun hnot => ?_, nofun⟩
    · simp [State.upkeep, h.still]
    · simpa [State.upkeep] using h.sound.reschedule s.now linkUnencryptedLimitMs
    · simp only [State.upkeep, Dongle.callback, ne_eq, not_true_eq_false, if_false, hsec]
      decide
    · simp [State.upkeep, harmed]
    · simp [State.upkeep, harmed, hqueued]
    · refine absurd ⟨?_, rfl, rfl⟩ hnot
      simp [State.upkeep, Dongle.callback, hconn]
  · have hupkeep : ({ s with dongle := s.dongle.callback (.connected conn err info advStop) } :
        State).upkeep p (.connected conn err info advStop) = s := by
      simp only [State.upkeep, Dongle.callback, connected_failed s.dongle conn info advStop herr]
      rw [if_pos herr]
    rw [hupkeep]
    exact h

theorem Limited.callback {p : Prefs} {s : State} (h : Limited s) {cb : Callback}
    (hone : OneSlot s (.callback cb)) :
    Limited ({ s with dongle := s.dongle.callback cb }.upkeep p cb) := by
  obtain hother | ⟨conn, err, info, advStop, rfl⟩ | ⟨reason, rfl⟩ | ⟨interval, latency, timeout, rfl⟩ |
    ⟨level, err, rfl⟩ := callback_cases cb
  · have hlink := linkOf_callback s.dongle hother
    rw [upkeep_other p _ hother]
    exact h.congr rfl (by rw [hlink]) (by rw [hlink]; exact id) (Nat.le_refl _)
  · exact h.connected conn err info advStop hone
  · have hdown := linkOf_disconnected s.dongle reason
    exact ⟨h.still, Item.sound_cancel _, fun hup => absurd hdown hup,
      fun hw => absurd hdown hw.1, fun _ => ⟨rfl, rfl⟩, h.asked⟩
  · unfold State.upkeep
    dsimp only
    split
    · exact h.congr rfl rfl id (Nat.le_refl _)
    · exact h.congr rfl rfl id (Nat.le_refl _)
  · have hlink := linkOf_securityChanged s.dongle level err
    unfold State.upkeep
    dsimp only
    split
    · exact ⟨h.still, Item.sound_cancel _, fun _ => nofun, fun hw => absurd hw.2.1 (by simp),
        fun _ => ⟨rfl, rfl⟩, h.asked⟩
    · next hnot =>
      refine h.congr rfl ?_ (fun hsec => ?_) (Nat.le_refl _)
      · simp only [Dongle.callback, hlink]
        split <;> rfl
      · simp only [Dongle.callback, hlink]
        split
        · next herr => exact UInt8.not_le.mp fun hle => hnot ⟨herr, hle⟩
        · exact hsec

theorem Limited.step {p : Prefs} {s t : State} {e : Event} (h : Limited s) (hone : OneSlot s e)
    (hstep : step p s e = some t) : Limited t := by
  cases e with
  | callback cb =>
    obtain rfl := Option.some.inj hstep
    exact h.callback hone
  | securityAsked =>
    obtain ⟨-, rfl⟩ := of_guard hstep
    exact h.congr rfl rfl id (Nat.le_refl _)
  | passes ms =>
    obtain rfl := Option.some.inj hstep
    exact h.congr rfl rfl id (Nat.le_add_right _ _)
  | secureExpires =>
    obtain ⟨hdue, rfl⟩ := of_guard hstep
    obtain ⟨due, hsome, hle⟩ := (Option.any_eq_true _ _).mp hdue
    have hwatched : Watched s := by
      by_contra hnot
      rw [(h.idle hnot).1] at hsome
      cases hsome
    have hend : s.openedAt + linkUnencryptedLimitMs ≤ s.now := by
      obtain ⟨harmed, -⟩ | ⟨hnone, -⟩ := h.armed hwatched
      · obtain rfl := Option.some.inj (hsome.symm.trans harmed)
        exact of_decide_eq_true hle
      · rw [hnone] at hsome
        cases hsome
    refine ⟨?_, h.sound.expire, h.unencrypted, fun _ => Or.inr ⟨?_, ?_, hend⟩,
      fun hnot => absurd hwatched hnot, h.asked⟩
    · exact (Item.expire_running _).trans h.still
    · exact Item.expire_due _
    · exact Item.expire_queued h.not_canceling
  | secureRuns =>
    obtain ⟨⟨hqueued, -⟩, rfl⟩ := of_guard hstep
    have hwatched : Watched s := by
      by_contra hnot
      simp [(h.idle hnot).2] at hqueued
    obtain ⟨-, hfalse⟩ | ⟨hdue, -, hend⟩ := h.armed hwatched
    · simp [hfalse] at hqueued
    · have hup : s.dongle.currentConn.isSome = true := Option.isSome_iff_ne_none.mpr hwatched.1
      have hsec : s.dongle.currentSecLevel < btSecurityL2 := h.unencrypted hwatched.1 hwatched.2.1
      rw [State.linkSecureWorkHandler, if_pos (by simp [hup, hsec])]
      refine ⟨rfl, Item.sound_finish _, h.unencrypted, fun hw => absurd hw.2.2 nofun,
        fun _ => ⟨hdue, rfl⟩, fun t ht => ?_⟩
      obtain rfl := Option.some.inj ht
      exact hend
  | paramExpires =>
    obtain ⟨-, rfl⟩ := of_guard hstep
    exact h.congr rfl rfl id (Nat.le_refl _)
  | paramStarts =>
    obtain ⟨-, rfl⟩ := of_guard hstep
    unfold State.linkParamWorkHandler
    split
    · exact h.congr rfl rfl id (Nat.le_refl _)
    · exact h.congr rfl rfl id (Nat.le_refl _)
  | paramEnds =>
    obtain ⟨-, rfl⟩ := of_guard hstep
    exact h.congr rfl rfl id (Nat.le_refl _)

theorem Armed.dueBy {s : State} (h : Armed s) :
    s.linkSecureWork.DueBy (s.openedAt + linkUnencryptedLimitMs) :=
  h.elim (fun hdue => Or.inr ⟨_, hdue.1, Nat.le_refl _⟩) fun hqueued => Or.inl hqueued.2.1

/-- The limit has not passed for a link that is watched, and had not when one was to be dropped. -/
structure InTime (s : State) : Prop where
  watched : Watched s → s.now ≤ s.openedAt + linkUnencryptedLimitMs
  asked : ∀ t, s.dropAskedAt = some t → t ≤ s.openedAt + linkUnencryptedLimitMs

theorem InTime.congr {s t : State} (h : InTime s)
    (hwatched : Watched t → Watched s) (hdrop : t.dropAskedAt = s.dropAskedAt)
    (hopened : t.openedAt = s.openedAt) (hnow : t.now = s.now) : InTime t :=
  ⟨fun hw => by rw [hnow, hopened]; exact h.watched (hwatched hw),
    by rw [hdrop, hopened]; exact h.asked⟩

theorem InTime.callback {p : Prefs} {s : State} (h : InTime s) (cb : Callback) :
    InTime ({ s with dongle := s.dongle.callback cb }.upkeep p cb) := by
  obtain hother | ⟨conn, err, info, advStop, rfl⟩ | ⟨reason, rfl⟩ | ⟨interval, latency, timeout, rfl⟩ |
    ⟨level, err, rfl⟩ := callback_cases cb
  · rw [upkeep_other p _ hother]
    refine h.congr (fun hw => ?_) rfl rfl rfl
    rwa [Watched, linkOf_callback s.dongle hother] at hw
  · unfold State.upkeep
    dsimp only
    split
    · next herr =>
      refine h.congr (fun hw => ?_) rfl rfl rfl
      rwa [Watched, Dongle.callback, connected_failed s.dongle conn info advStop herr] at hw
    · exact ⟨fun _ => Nat.le_add_right _ _, fun t ht => by cases ht⟩
  · refine ⟨fun hw => absurd (linkOf_disconnected s.dongle reason) hw.1, h.asked⟩
  · unfold State.upkeep
    dsimp only
    split
    · exact h.congr id rfl rfl rfl
    · exact h.congr id rfl rfl rfl
  · have hlink := linkOf_securityChanged s.dongle level err
    unfold State.upkeep
    dsimp only
    split
    · exact ⟨fun hw => absurd hw.2.1 (by simp), h.asked⟩
    · refine h.congr (fun hw => ⟨?_, hw.2⟩) rfl rfl rfl
      have hconn : (linkOf (s.dongle.securityChanged level err)).conn = (linkOf s.dongle).conn := by
        rw [hlink]
        split <;> rfl
      rw [← hconn]
      exact hw.1

theorem InTime.step {p : Prefs} {s t : State} {e : Event} (h : InTime s) (hlimited : Limited s)
    (hprompt : Prompt s e) (hstep : step p s e = some t) : InTime t := by
  cases e with
  | callback cb =>
    obtain rfl := Option.some.inj hstep
    exact h.callback cb
  | securityAsked =>
    obtain ⟨-, rfl⟩ := of_guard hstep
    exact h.congr id rfl rfl rfl
  | passes ms =>
    obtain rfl := Option.some.inj hstep
    exact ⟨fun hw => (hlimited.armed hw).dueBy.le hprompt.1, h.asked⟩
  | secureExpires =>
    obtain ⟨-, rfl⟩ := of_guard hstep
    exact h.congr id rfl rfl rfl
  | secureRuns =>
    obtain ⟨⟨hqueued, -⟩, rfl⟩ := of_guard hstep
    unfold State.linkSecureWorkHandler
    split
    · refine ⟨fun hw => absurd hw.2.2 nofun, fun t ht => ?_⟩
      obtain rfl := Option.some.inj ht
      refine h.watched ?_
      by_contra hnot
      simp [(hlimited.idle hnot).2] at hqueued
    · exact h.congr id rfl rfl rfl
  | paramExpires =>
    obtain ⟨-, rfl⟩ := of_guard hstep
    exact h.congr id rfl rfl rfl
  | paramStarts =>
    obtain ⟨-, rfl⟩ := of_guard hstep
    unfold State.linkParamWorkHandler
    split
    · exact h.congr id rfl rfl rfl
    · exact h.congr id rfl rfl rfl
  | paramEnds =>
    obtain ⟨-, rfl⟩ := of_guard hstep
    exact h.congr id rfl rfl rfl

theorem limited_boot : Limited {} where
  still := rfl
  sound := nofun
  unencrypted := fun hup => absurd rfl hup
  armed := fun hw => absurd rfl hw.1
  idle := fun _ => ⟨rfl, rfl⟩
  asked := nofun

theorem inTime_boot : InTime {} := ⟨fun hw => absurd rfl hw.1, nofun⟩

theorem limited_of_execute {p : Prefs} {s : State} {es : List Event}
    (h : execute (step p) {} es = some s) (hone : Along (step p) OneSlot {} es) : Limited s :=
  (reachableBy_of_execute h hone).invariant limited_boot fun _ _ _ ht he hstep => ht.step he hstep

/-- A link is never asked to go for lack of encryption before it has been up for 15 s. If time does
not pass what is due, a link that has not been encrypted by then has been asked to go exactly then. -/
theorem unencrypted_link_dropped {p : Prefs} {s : State} {es : List Event}
    (h : execute (step p) {} es = some s) (hone : Along (step p) OneSlot {} es) :
    (∀ t, s.dropAskedAt = some t → s.openedAt + linkUnencryptedLimitMs ≤ t) ∧
    (Along (step p) Prompt {} es → s.dongle.currentConn ≠ none → s.encrypted = false →
      s.openedAt + linkUnencryptedLimitMs < s.now →
      s.dropAskedAt = some (s.openedAt + linkUnencryptedLimitMs)) := by
  have hlimited := limited_of_execute h hone
  refine ⟨hlimited.asked, fun hprompt hup hencrypted hlate => ?_⟩
  have hboth := (reachableBy_of_execute h (hone.and hprompt)).invariant
    (P := fun t => Limited t ∧ InTime t) ⟨limited_boot, inTime_boot⟩
    fun _ _ _ ht he hstep => ⟨ht.1.step he.1 hstep, ht.2.step ht.1 he.2 hstep⟩
  cases hdrop : s.dropAskedAt with
  | none => exact absurd (hboth.2.watched ⟨hup, hencrypted, hdrop⟩) (Nat.not_le.mpr hlate)
  | some t =>
    rw [Nat.le_antisymm (hboth.2.asked t hdrop) (hlimited.asked t hdrop)]

/-- A link that is never encrypted, and the first moment after its limit. -/
def idleLink : List Event :=
  [.callback (.connected 0 0 none 0), .passes 9000, .passes 6000, .secureExpires, .secureRuns,
    .passes 1]

theorem unencrypted_link_dropped_idle : ∃ s, execute (step shipped) {} idleLink = some s ∧
    s.dropAskedAt = some (s.openedAt + linkUnencryptedLimitMs) :=
  ⟨_, rfl, (unencrypted_link_dropped (show execute (step shipped) {} idleLink = some _ from rfl)
    (by decide)).2 (by decide) (by decide) rfl (by decide)⟩

/-! ### The requests for low-latency parameters -/

theorem mayAsk_congr {p : Prefs} {s t : State} (hlink : linkOf t.dongle = linkOf s.dongle)
    (hrequests : t.linkParamRequests = s.linkParamRequests) : t.mayAsk p = s.mayAsk p := by
  simp only [linkOf, Link.mk.injEq] at hlink
  obtain ⟨hconn, hsec, hhave, hinterval, hlatency⟩ := hlink
  simp only [State.mayAsk, State.linkParamsAreLowLatency, hconn, hsec, hhave, hinterval, hlatency,
    hrequests]

theorem mayAsk_iff {p : Prefs} {s : State} : s.mayAsk p = true ↔
    s.dongle.currentConn ≠ none ∧ btSecurityL2 ≤ s.dongle.currentSecLevel ∧
      s.linkParamsAreLowLatency p = false ∧ s.linkParamRequests < linkParamMaxRequests := by
  simp [State.mayAsk, Option.isSome_iff_ne_none, and_assoc]

/-- The requests that have been counted. -/
structure Counted (s : State) : Prop where
  sound : s.linkParamWork.Sound
  requests_le : s.linkParamRequests ≤ linkParamMaxRequests
  asked_le : s.asked ≤ s.linkParamRequests.toNat

theorem Counted.congr {s t : State} (h : Counted s) (hwork : t.linkParamWork.Sound)
    (hrequests : t.linkParamRequests = s.linkParamRequests) (hasked : t.asked ≤ s.asked) :
    Counted t :=
  ⟨hwork, by rw [hrequests]; exact h.requests_le,
    by rw [hrequests]; exact Nat.le_trans hasked h.asked_le⟩

theorem counted_reset {s : State} (hwork : s.linkParamWork.Sound)
    (hrequests : s.linkParamRequests ≤ 1) (hasked : s.asked = 0) : Counted s :=
  ⟨hwork, UInt8.le_trans hrequests (by decide), by rw [hasked]; exact Nat.zero_le _⟩

theorem Counted.step {p : Prefs} {s t : State} {e : Event} (h : Counted s)
    (hstep : step p s e = some t) : Counted t := by
  cases e with
  | callback cb =>
    obtain rfl := Option.some.inj hstep
    obtain hother | ⟨conn, err, info, advStop, rfl⟩ | ⟨reason, rfl⟩ |
      ⟨interval, latency, timeout, rfl⟩ | ⟨level, err, rfl⟩ := callback_cases cb
    · rw [upkeep_other p _ hother]
      exact h.congr h.sound rfl (Nat.le_refl _)
    · unfold State.upkeep
      dsimp only
      split
      · exact h.congr h.sound rfl (Nat.le_refl _)
      · exact counted_reset h.sound (by simp) rfl
    · exact h.congr (Item.sound_cancel _) rfl (Nat.le_refl _)
    · unfold State.upkeep
      dsimp only
      split
      · exact counted_reset h.sound (by simp) rfl
      · exact h.congr (h.sound.reschedule _ _) rfl (Nat.zero_le _)
    · unfold State.upkeep
      dsimp only
      split
      · exact h.congr h.sound rfl (Nat.zero_le _)
      · exact h.congr h.sound rfl (Nat.le_refl _)
  | securityAsked =>
    obtain ⟨-, rfl⟩ := of_guard hstep
    exact counted_reset (h.sound.reschedule _ _) (UInt8.le_refl _) rfl
  | passes ms =>
    obtain rfl := Option.some.inj hstep
    exact h.congr h.sound rfl (Nat.le_refl _)
  | secureExpires =>
    obtain ⟨-, rfl⟩ := of_guard hstep
    exact h.congr h.sound rfl (Nat.le_refl _)
  | secureRuns =>
    obtain ⟨-, rfl⟩ := of_guard hstep
    unfold State.linkSecureWorkHandler
    split
    · exact h.congr h.sound rfl (Nat.le_refl _)
    · exact h.congr h.sound rfl (Nat.le_refl _)
  | paramExpires =>
    obtain ⟨-, rfl⟩ := of_guard hstep
    exact h.congr h.sound.expire rfl (Nat.le_refl _)
  | paramStarts =>
    obtain ⟨-, rfl⟩ := of_guard hstep
    unfold State.linkParamWorkHandler
    split
    · next hask =>
      have hlt : s.linkParamRequests < 3 := (mayAsk_iff.mp hask).2.2.2
      have hnext : (s.linkParamRequests + 1).toNat = s.linkParamRequests.toNat + 1 := by
        rw [UInt8.lt_iff_toNat_lt] at hlt
        rw [UInt8.toNat_add]
        exact Nat.mod_eq_of_lt (by change _ < 256; change _ < 3 at hlt; change _ + 1 < 256; omega)
      refine ⟨Item.sound_start _, ?_, ?_⟩
      · rw [UInt8.le_iff_toNat_le, hnext]
        exact UInt8.lt_iff_toNat_lt.mp hlt
      · rw [hnext]
        exact Nat.succ_le_succ h.asked_le
    · exact h.congr (Item.sound_finish _) rfl (Nat.le_refl _)
  | paramEnds =>
    obtain ⟨-, rfl⟩ := of_guard hstep
    exact h.congr (Item.sound_finish _) rfl (Nat.le_refl _)

/-- By when the link is asked for other parameters the next time. -/
def nextBy (s : State) : Nat := s.movedAt + linkParamRecheckMs * (s.asked + 1)

/-- While there is something to ask for, `link_param_work` is pending or about to be set. -/
structure Rechecked (p : Prefs) (s : State) : Prop where
  securing : 0 < s.securing → s.now = s.movedAt
  running : s.linkParamWork.running = true → s.now ≤ s.movedAt + linkParamRecheckMs * s.asked
  inTime : s.mayAsk p = true → s.now ≤ nextBy s
  pending : s.mayAsk p = true →
    s.linkParamWork.DueBy (nextBy s) ∨ s.linkParamWork.running = true ∨ 0 < s.securing

/-- The fields that the requests are about, besides the link. -/
def requestsOf (s : State) : Nat × Item × UInt8 × Nat × Nat × Nat :=
  (s.now, s.linkParamWork, s.linkParamRequests, s.securing, s.movedAt, s.asked)

theorem Rechecked.congr {p : Prefs} {s t : State} (h : Rechecked p s)
    (hsame : requestsOf t = requestsOf s) (hlink : linkOf t.dongle = linkOf s.dongle) :
    Rechecked p t := by
  simp only [requestsOf, Prod.mk.injEq] at hsame
  obtain ⟨hnow, hwork, hrequests, hsecuring, hmoved, hasked⟩ := hsame
  have hmay : t.mayAsk p = s.mayAsk p := mayAsk_congr hlink hrequests
  refine ⟨?_, ?_, ?_, ?_⟩
  · rw [hsecuring, hnow, hmoved]
    exact h.securing
  · rw [hwork, hnow, hmoved, hasked]
    exact h.running
  · rw [hmay, hnow, nextBy, hmoved, hasked]
    exact h.inTime
  · rw [hmay, hwork, hsecuring, nextBy, hmoved, hasked]
    exact h.pending

theorem now_le_nextBy {s : State} (h : s.now ≤ s.movedAt + linkParamRecheckMs * s.asked) :
    s.now ≤ nextBy s :=
  Nat.le_trans h (Nat.add_le_add_left (Nat.mul_le_mul_left _ (Nat.le_succ _)) _)

/-- The link has just been encrypted or has just moved. -/
theorem rechecked_moved {p : Prefs} {s : State} (hmoved : s.movedAt = s.now)
    (hpending : s.mayAsk p = true →
      s.linkParamWork.DueBy (nextBy s) ∨ s.linkParamWork.running = true ∨ 0 < s.securing) :
    Rechecked p s := by
  have hnow : s.now ≤ s.movedAt + linkParamRecheckMs * s.asked := by
    rw [hmoved]
    exact Nat.le_add_right _ _
  exact ⟨fun _ => hmoved.symm, fun _ => hnow, fun _ => now_le_nextBy hnow, hpending⟩

theorem rechecked_callback {p : Prefs} {s : State} (h : Rechecked p s) (cb : Callback) :
    Rechecked p ({ s with dongle := s.dongle.callback cb }.upkeep p cb) := by
  obtain hother | ⟨conn, err, info, advStop, rfl⟩ | ⟨reason, rfl⟩ | ⟨interval, latency, timeout, rfl⟩ |
    ⟨level, err, rfl⟩ := callback_cases cb
  · rw [upkeep_other p _ hother]
    exact h.congr rfl (linkOf_callback s.dongle hother)
  · unfold State.upkeep
    dsimp only
    split
    · next herr =>
      exact h.congr rfl (congrArg linkOf (connected_failed s.dongle conn info advStop herr))
    · next herr =>
      obtain rfl := not_not.mp herr
      refine rechecked_moved rfl fun hask => ?_
      have hsec : btSecurityL2 ≤ (linkOf (s.dongle.connected conn 0 info advStop)).sec :=
        (mayAsk_iff.mp hask).2.1
      rw [(linkOf_connected s.dongle conn info advStop).2] at hsec
      cases (by decide : ¬ btSecurityL2 ≤ btSecurityL1) hsec
  · have hnot : ∀ t : State, t.dongle = s.dongle.disconnected reason → ¬ t.mayAsk p = true := by
      intro t ht hask
      refine (mayAsk_iff.mp hask).1 ?_
      rw [ht]
      exact linkOf_disconnected s.dongle reason
    exact ⟨h.securing, h.running, fun hask => absurd hask (hnot _ rfl),
      fun hask => absurd hask (hnot _ rfl)⟩
  · unfold State.upkeep
    dsimp only
    split
    · next hlow =>
      refine rechecked_moved rfl fun hask => ?_
      cases (mayAsk_iff.mp hask).2.2.1.symm.trans hlow
    · exact rechecked_moved rfl fun _ => Or.inl (Item.dueBy_reschedule _ _ (by decide))
  · unfold State.upkeep
    dsimp only
    split
    · exact rechecked_moved rfl fun _ => Or.inr (Or.inr (Nat.succ_pos _))
    · next hnot =>
      have hlink := linkOf_securityChanged s.dongle level err
      by_cases herr : err = 0
      · have hweak : ∀ t : State, t.dongle = s.dongle.securityChanged level err →
            ¬ t.mayAsk p = true := by
          intro t ht hask
          have hsec : btSecurityL2 ≤ (linkOf t.dongle).sec := (mayAsk_iff.mp hask).2.1
          rw [ht, hlink, if_pos herr] at hsec
          exact hnot ⟨herr, hsec⟩
        exact ⟨h.securing, h.running, fun hask => absurd hask (hweak _ rfl),
          fun hask => absurd hask (hweak _ rfl)⟩
      · exact h.congr rfl (hlink.trans (if_neg herr))

theorem Rechecked.step {p : Prefs} {s t : State} {e : Event} (h : Rechecked p s)
    (hcounted : Counted s) (hprompt : Prompt s e) (hstep : step p s e = some t) :
    Rechecked p t := by
  cases e with
  | callback cb =>
    obtain rfl := Option.some.inj hstep
    exact rechecked_callback h cb
  | securityAsked =>
    obtain ⟨hsecuring, rfl⟩ := of_guard hstep
    have hnow := h.securing hsecuring
    exact rechecked_moved hnow.symm fun _ => Or.inl (by
      simpa [nextBy, State.securityAsked, hnow] using
        Item.dueBy_reschedule s.linkParamWork s.now (by decide : 0 < linkParamRecheckMs))
  | passes ms =>
    obtain rfl := Option.some.inj hstep
    obtain ⟨-, hrests, hsecuring⟩ := hprompt
    refine ⟨fun hpos => ?_, fun hrunning => ?_, fun hask => ?_, h.pending⟩
    · rw [hsecuring] at hpos
      cases hpos
    · rw [hrests.2.1] at hrunning
      cases hrunning
    · obtain hdue | hrunning | hpos := h.pending hask
      · exact hdue.le hrests
      · rw [hrests.2.1] at hrunning
        cases hrunning
      · rw [hsecuring] at hpos
        cases hpos
  | secureExpires =>
    obtain ⟨-, rfl⟩ := of_guard hstep
    exact h.congr rfl rfl
  | secureRuns =>
    obtain ⟨-, rfl⟩ := of_guard hstep
    unfold State.linkSecureWorkHandler
    split
    · exact h.congr rfl rfl
    · exact h.congr rfl rfl
  | paramExpires =>
    obtain ⟨-, rfl⟩ := of_guard hstep
    refine ⟨h.securing, fun hrunning => h.running ?_, h.inTime, fun hask => ?_⟩
    · exact (Item.expire_running _).symm.trans hrunning
    · cases hcanceling : s.linkParamWork.canceling with
      | false => exact Or.inl (Or.inl (Item.expire_queued hcanceling))
      | true =>
        -- lost, but the handler that is running sets it again
        exact Or.inr (Or.inl ((Item.expire_running _).trans (hcounted.sound hcanceling)))
  | paramStarts =>
    obtain ⟨-, rfl⟩ := of_guard hstep
    unfold State.linkParamWorkHandler
    split
    · next hask =>
      have hnow : s.now ≤ s.movedAt + linkParamRecheckMs * (s.asked + 1) := h.inTime hask
      exact ⟨h.securing, fun _ => hnow, fun _ => now_le_nextBy hnow, fun _ => Or.inr (Or.inl rfl)⟩
    · next hnot => exact ⟨h.securing, nofun, fun hask => absurd hask hnot, fun hask => absurd hask hnot⟩
  | paramEnds =>
    obtain ⟨hrunning, rfl⟩ := of_guard hstep
    have hnow := h.running hrunning
    refine ⟨h.securing, nofun, fun _ => now_le_nextBy hnow, fun _ => Or.inl ?_⟩
    have hnext : s.now + linkParamRecheckMs ≤ nextBy s := by
      rw [nextBy, Nat.mul_succ, ← Nat.add_assoc]
      exact Nat.add_le_add_right hnow _
    exact ((Item.dueBy_reschedule s.linkParamWork s.now
      (by decide : 0 < linkParamRecheckMs)).mono hnext : Item.DueBy _ _)

theorem counted_boot : Counted {} := ⟨nofun, by decide, Nat.le_refl _⟩

theorem rechecked_boot (p : Prefs) : Rechecked p {} :=
  ⟨nofun, nofun, fun hask => absurd rfl (mayAsk_iff.mp hask).1,
    fun hask => absurd rfl (mayAsk_iff.mp hask).1⟩

/-- Since the link was encrypted or its parameters last moved, the firmware has asked again at most
three times. As long as time does not pass what is due, an encrypted link on other parameters with
requests left is asked the first time within 8 s, and each further time within 8 s of the last. -/
theorem low_latency_asked_again {p : Prefs} {s : State} {es : List Event}
    (h : execute (step p) {} es = some s) : s.asked ≤ 3 ∧
    (Along (step p) Prompt {} es → s.dongle.currentConn ≠ none →
      btSecurityL2 ≤ s.dongle.currentSecLevel → s.linkParamsAreLowLatency p = false →
      s.linkParamRequests = linkParamMaxRequests ∨
        s.now ≤ s.movedAt + linkParamRecheckMs * (s.asked + 1)) := by
  have hcounted : Counted s :=
    (reachable_of_execute h).invariant counted_boot fun _ _ _ ht _ hstep => ht.step hstep
  refine ⟨?_, fun hprompt hup hsec hoff => ?_⟩
  · exact Nat.le_trans hcounted.asked_le (UInt8.le_iff_toNat_le.mp hcounted.requests_le)
  · obtain hlt | heq := UInt8.lt_or_eq_of_le hcounted.requests_le
    · have hboth := (reachableBy_of_execute h hprompt).invariant
        (P := fun t => Counted t ∧ Rechecked p t) ⟨counted_boot, rechecked_boot p⟩
        fun _ _ _ ht he hstep => ⟨ht.1.step hstep, ht.2.step ht.1 he hstep⟩
      exact Or.inr (hboth.2.inTime (mayAsk_iff.mpr ⟨hup, hsec, hoff, hlt⟩))
    · exact Or.inl heq

/-- A central that answers no request. -/
def unheard : List Event :=
  [.callback (.connected 0 0 (some ⟨30000, 4, 600⟩) 0), .callback (.securityChanged 2 0),
    .securityAsked, .passes 8000, .paramExpires, .paramStarts, .paramEnds, .passes 8000,
    .paramExpires, .paramStarts, .paramEnds]

theorem low_latency_asked_again_unheard : ∃ s, execute (step shipped) {} unheard = some s ∧
    s.asked ≤ 3 ∧ (s.linkParamRequests = linkParamMaxRequests ∨
      s.now ≤ s.movedAt + linkParamRecheckMs * (s.asked + 1)) :=
  have h := low_latency_asked_again (show execute (step shipped) {} unheard = some _ from rfl)
  ⟨_, rfl, h.1, h.2 (by decide) (by decide) (by decide) (by decide)⟩

end PiHub.LinkUpkeep

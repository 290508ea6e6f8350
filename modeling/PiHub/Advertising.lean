import PiHub.FreshLink
import PiHub.WorkItems

/-! What keeps the dongle reachable (main.c): `adv_restart_work` on the system work queue, the
connection callbacks that start it, and the bond clear that falls back on it. -/
namespace PiHub.Advertising
open PiHub.Transition PiHub.DongleLink PiHub.WorkItems

/-- What the system work queue is running: the stages of `adv_restart_work_handler`, or the whole
of `bond_clear_work_handler`. -/
inductive Handler where
  | looking | stopping | starting | failed | announcing
  | bondClear
  deriving DecidableEq

/-- Times are in ms. -/
structure State where
  now : Nat
  dongle : Dongle
  /-- Whether the stack advertises. -/
  advertising : Bool
  advRestartWork : Item
  handler : Option Handler
  /-- Disconnections whose `recycled` has not come yet. -/
  recycledDue : Nat
  /-- Whether `start_advertising` has been called. -/
  started : Bool
  deriving DecidableEq

def State.boot : State := ⟨0, .boot, false, {}, none, 0, false⟩

def State.startAdvertising (s : State) : State :=
  { s with advRestartWork := s.advRestartWork.reschedule s.now 0, started := true }

/-- The end of `adv_restart_work_handler`. -/
def State.finish (s : State) : State :=
  { s with advRestartWork := s.advRestartWork.finish, handler := none }

/-- The retry that a failed start or a failed erase asks for. -/
def State.advRestartSoon (s : State) : State :=
  { s with advRestartWork := s.advRestartWork.schedule s.now 100 }

/-- The calls of the stack and of the kernel. After a connection attempt and after
`bt_le_adv_stop`, `advertises` is what the stack has made of advertising. -/
inductive Event where
  | starts
  | connected (conn : Nat) (err : UInt8) (info : Option Dongle.ConnInfo) (advStop : Int32)
      (advertises : Bool)
  | disconnected (reason : UInt8)
  | recycled
  | passes (ms : Nat)
  | expires
  | takes
  | looks
  | advStops (advertises : Bool)
  | advStarts (err : Int32)
  | schedules
  | announces
  | bondClearTakes
  | bondClearEnds (eraseErr : Int32)
  deriving DecidableEq

def step (s : State) : Event → Option State
  | .starts => some s.startAdvertising
  | .connected conn err info advStop advertises =>
    let s := { s with dongle := s.dongle.connected conn err info advStop, advertising := advertises }
    some (if err ≠ 0 then s.startAdvertising else s)
  | .disconnected reason =>
    some { s with dongle := s.dongle.disconnected reason, recycledDue := s.recycledDue + 1 }
  | .recycled =>
    if s.recycledDue = 0 then none
    else
      let s := { s with recycledDue := s.recycledDue - 1 }
      some (if s.dongle.currentConn = none then s.startAdvertising else s)
  | .passes ms => some { s with now := s.now + ms }
  | .expires =>
    if s.advRestartWork.isDue s.now then some { s with advRestartWork := s.advRestartWork.expire }
    else none
  | .takes =>
    if s.advRestartWork.queued ∧ s.handler = none then
      some { s with advRestartWork := s.advRestartWork.start, handler := some .looking }
    else none
  | .looks =>
    if s.handler = some .looking then
      some (if s.dongle.currentConn.isSome then s.finish else { s with handler := some .stopping })
    else none
  | .advStops advertises =>
    if s.handler = some .stopping then
      some { s with advertising := advertises, handler := some .starting }
    else none
  | .advStarts err =>
    if s.handler = some .starting then
      some (if err ≠ 0 then { s with handler := some .failed }
        else { s with advertising := true, handler := some .announcing })
    else none
  | .schedules => if s.handler = some .failed then some s.advRestartSoon.finish else none
  | .announces =>
    if s.handler = some .announcing then
      some { s with dongle := s.dongle.cmdEvtAdv true }.finish
    else none
  | .bondClearTakes => if s.handler = none then some { s with handler := some .bondClear } else none
  | .bondClearEnds eraseErr =>
    if s.handler = some .bondClear then
      some (if eraseErr = 0 then .boot else { s.advRestartSoon with handler := none })
    else none

/-- The handler run by itself is `adv_restart_work_handler` as the link state sees it. -/
theorem handler_alone (s : State) (advertises : Bool) (err : Int32) (h : s.handler = some .looking)
    (hkeeps : s.advRestartWork.canceling = false) :
    ∃ t es, execute step s es = some t ∧ t.handler = none ∧
      t.dongle = s.dongle.advRestartWorkHandler err ∧
      (s.dongle.currentConn = none → err ≠ 0 → t.advRestartWork.Pending) := by
  by_cases hconn : s.dongle.currentConn.isSome
  · refine ⟨s.finish, [.looks], ?_, rfl, ?_, fun hnone => ?_⟩
    · simp [execute, step, h, hconn]
    · rw [Dongle.advRestartWorkHandler, if_pos hconn]
      rfl
    · simp [hnone] at hconn
  · by_cases herr : err ≠ 0
    · refine ⟨{ s with advertising := advertises }.advRestartSoon.finish,
        [.looks, .advStops advertises, .advStarts err, .schedules], ?_, rfl, ?_,
        fun _ _ => Item.pending_schedule hkeeps s.now 100⟩
      · simp [execute, step, h, hconn, herr]
        rfl
      · rw [Dongle.advRestartWorkHandler, if_neg hconn, if_pos herr]
        rfl
    · refine ⟨{ s with advertising := true, dongle := s.dongle.cmdEvtAdv true }.finish,
        [.looks, .advStops advertises, .advStarts err, .announces], ?_, rfl, ?_,
        fun _ h => absurd h herr⟩
      · simp [execute, step, h, hconn, herr]
        rfl
      · rw [Dongle.advRestartWorkHandler, if_neg hconn, if_neg herr]
        rfl

/-! ### Never dark -/

/-- Nothing cancels the item, and it runs as long as its handler does. -/
structure Kept (s : State) : Prop where
  keeps : s.advRestartWork.canceling = false
  runs : s.advRestartWork.running = s.handler.any (· ≠ .bondClear)

theorem kept_startAdvertising {s : State} (h : Kept s) : Kept s.startAdvertising where
  keeps := by simpa [State.startAdvertising] using h.keeps
  runs := by simpa [State.startAdvertising] using h.runs

theorem Kept.finish {s : State} : Kept s.finish := ⟨rfl, rfl⟩

theorem kept_step {s t : State} {e : Event} (h : Kept s) (hstep : step s e = some t) : Kept t := by
  cases e with
  | starts =>
    cases hstep
    exact kept_startAdvertising h
  | connected conn err info advStop advertises =>
    cases hstep
    split
    · exact kept_startAdvertising ⟨h.keeps, h.runs⟩
    · exact ⟨h.keeps, h.runs⟩
  | disconnected reason =>
    cases hstep
    exact ⟨h.keeps, h.runs⟩
  | recycled =>
    simp only [step] at hstep
    split at hstep
    · cases hstep
    · cases hstep
      split
      · exact kept_startAdvertising ⟨h.keeps, h.runs⟩
      · exact ⟨h.keeps, h.runs⟩
  | passes ms =>
    cases hstep
    exact ⟨h.keeps, h.runs⟩
  | expires =>
    obtain ⟨_, rfl⟩ := of_guard hstep
    exact ⟨by simpa using h.keeps, by simpa using h.runs⟩
  | takes =>
    obtain ⟨_, rfl⟩ := of_guard hstep
    exact ⟨h.keeps, rfl⟩
  | looks =>
    obtain ⟨hhandler, rfl⟩ := of_guard hstep
    split
    · exact .finish
    · exact ⟨h.keeps, h.runs.trans (by simp [hhandler])⟩
  | advStops advertises =>
    obtain ⟨hhandler, rfl⟩ := of_guard hstep
    exact ⟨h.keeps, h.runs.trans (by simp [hhandler])⟩
  | advStarts err =>
    obtain ⟨hhandler, rfl⟩ := of_guard hstep
    split
    · exact ⟨h.keeps, h.runs.trans (by simp [hhandler])⟩
    · exact ⟨h.keeps, h.runs.trans (by simp [hhandler])⟩
  | schedules =>
    obtain ⟨_, rfl⟩ := of_guard hstep
    exact .finish
  | announces =>
    obtain ⟨_, rfl⟩ := of_guard hstep
    exact .finish
  | bondClearTakes =>
    obtain ⟨hhandler, rfl⟩ := of_guard hstep
    exact ⟨h.keeps, h.runs.trans (by simp [hhandler])⟩
  | bondClearEnds eraseErr =>
    obtain ⟨hhandler, rfl⟩ := of_guard hstep
    split
    · exact ⟨rfl, rfl⟩
    · refine ⟨?_, ?_⟩
      · simpa [State.advRestartSoon] using h.keeps
      · simpa [State.advRestartSoon, hhandler] using h.runs

/-- A stage that still leads to advertising, or to another try. -/
def Handler.retries : Handler → Bool
  | .looking | .stopping | .starting | .failed => true
  | .announcing | .bondClear => false

/-- Something is up, or something will bring advertising back. -/
def Awake (s : State) : Prop :=
  s.dongle.currentConn.isSome ∨ s.advertising ∨ s.advRestartWork.Pending ∨ s.recycledDue ≠ 0 ∨
    s.handler.any Handler.retries

theorem awake_startAdvertising {s : State} (h : s.advRestartWork.canceling = false) :
    Awake s.startAdvertising :=
  .inr (.inr (.inl (.inl (by simp [State.startAdvertising, Item.reschedule, Item.arm, Item.submit, h]))))

/-- A handler that retries nothing starts or ends, and the rest stays. -/
theorem Awake.handler {s t : State} (h : Awake s) (hold : ¬ s.handler.any Handler.retries)
    (hconn : t.dongle.currentConn = s.dongle.currentConn) (hadv : t.advertising = s.advertising)
    (hwork : s.advRestartWork.Pending → t.advRestartWork.Pending)
    (hdue : t.recycledDue = s.recycledDue) : Awake t := by
  unfold Awake
  rw [hconn, hadv, hdue]
  obtain hup | hon | hpending | hrecycled | hretries := h
  · exact .inl hup
  · exact .inr (.inl hon)
  · exact .inr (.inr (.inl (hwork hpending)))
  · exact .inr (.inr (.inr (.inl hrecycled)))
  · exact absurd hretries hold

/-- Each way out of an awake state leaves another one open. -/
theorem awake_step {s t : State} {e : Event} (hkept : Kept s) (hs : s.started → Awake s)
    (h : step s e = some t) (ht : t.started) : Awake t := by
  cases e with
  | starts =>
    cases h
    exact awake_startAdvertising hkept.keeps
  | connected conn err info advStop advertises =>
    cases h
    by_cases herr : err ≠ 0
    · simp only [if_pos herr]
      exact awake_startAdvertising hkept.keeps
    · obtain rfl : err = 0 := not_not.mp herr
      have hup := congrArg FreshLink.Link.conn (FreshLink.link_connected s.dongle conn info advStop)
      exact .inl (Option.isSome_iff_exists.mpr ⟨conn, hup⟩)
  | disconnected reason =>
    cases h
    exact .inr (.inr (.inr (.inl (Nat.succ_ne_zero _))))
  | recycled =>
    simp only [step] at h
    split at h
    · cases h
    · cases h
      by_cases hconn : s.dongle.currentConn = none
      · rw [if_pos hconn]
        exact awake_startAdvertising hkept.keeps
      · rw [if_neg hconn]
        exact .inl (Option.isSome_iff_ne_none.mpr hconn)
  | passes ms =>
    cases h
    exact hs ht
  | expires =>
    obtain ⟨_, rfl⟩ := of_guard h
    exact .inr (.inr (.inl (.inl (Item.expire_queued hkept.keeps))))
  | takes =>
    obtain ⟨_, rfl⟩ := of_guard h
    exact .inr (.inr (.inr (.inr rfl)))
  | looks =>
    obtain ⟨_, rfl⟩ := of_guard h
    by_cases hconn : s.dongle.currentConn.isSome
    · rw [if_pos hconn]
      exact .inl hconn
    · rw [if_neg hconn]
      exact .inr (.inr (.inr (.inr rfl)))
  | advStops advertises =>
    obtain ⟨_, rfl⟩ := of_guard h
    exact .inr (.inr (.inr (.inr rfl)))
  | advStarts err =>
    obtain ⟨_, rfl⟩ := of_guard h
    by_cases herr : err ≠ 0
    · rw [if_pos herr]
      exact .inr (.inr (.inr (.inr rfl)))
    · rw [if_neg herr]
      exact .inr (.inl rfl)
  | schedules =>
    obtain ⟨_, rfl⟩ := of_guard h
    exact .inr (.inr (.inl (Item.pending_schedule hkept.keeps s.now 100)))
  | announces =>
    obtain ⟨hhandler, rfl⟩ := of_guard h
    exact (hs ht).handler (by simp [hhandler, Handler.retries]) rfl rfl id rfl
  | bondClearTakes =>
    obtain ⟨hhandler, rfl⟩ := of_guard h
    exact (hs ht).handler (by simp [hhandler]) rfl rfl id rfl
  | bondClearEnds eraseErr =>
    obtain ⟨_, rfl⟩ := of_guard h
    by_cases herr : eraseErr = 0
    · -- a reboot, and main has yet to start advertising
      rw [if_pos herr] at ht
      cases ht
    · rw [if_neg herr]
      exact .inr (.inr (.inl (Item.pending_schedule hkept.keeps s.now 100)))

/-- The dongle never goes dark: in every reachable state after `start_advertising` a link is up,
or advertising is on, or `adv_restart_work` is pending or running, or `recycled` is still due. -/
theorem never_dark {s : State} (h : Reachable step .boot s) (hstarted : s.started) :
    s.dongle.currentConn.isSome ∨ s.advertising ∨
      (s.advRestartWork.Pending ∨ s.advRestartWork.running) ∨ 0 < s.recycledDue := by
  obtain ⟨hkept, hawake⟩ : Kept s ∧ (s.started → Awake s) :=
    h.invariant (P := fun s => Kept s ∧ (s.started → Awake s)) ⟨⟨rfl, rfl⟩, nofun⟩
      fun t e u ht _ hstep => ⟨kept_step ht.1 hstep, awake_step ht.1 ht.2 hstep⟩
  obtain hup | hon | hpending | hrecycled | hretries := hawake hstarted
  · exact .inl hup
  · exact .inr (.inl hon)
  · exact .inr (.inr (.inl (.inl hpending)))
  · exact .inr (.inr (.inr (Nat.pos_of_ne_zero hrecycled)))
  · refine .inr (.inr (.inl (.inr ?_)))
    rw [hkept.runs]
    obtain ⟨stage, hstage, hretries⟩ := Option.any_eq_true .. |>.mp hretries
    cases stage with
    | bondClear => cases hretries
    | looking | stopping | starting | failed | announcing => simp [hstage]

/-- A start fails while a bond clear waits, a host connects and leaves in the middle of the
retry, and its connection is recycled last. -/
def retried : List Event :=
  [.starts, .takes, .looks, .advStops false, .advStarts (-12), .schedules, .bondClearTakes,
    .passes 100, .expires, .bondClearEnds (-5), .takes, .looks, .connected 0 0 none 0 false, .disconnected 0x13,
    .advStops false, .advStarts (-12)]

theorem never_dark_retried : ∃ s, execute step .boot retried = some s ∧ s.started ∧
    (s.dongle.currentConn.isSome ∨ s.advertising ∨
      (s.advRestartWork.Pending ∨ s.advRestartWork.running) ∨ 0 < s.recycledDue) :=
  ⟨_, rfl, rfl, never_dark (reachable_of_execute (show execute step .boot retried = some _ from rfl)) rfl⟩

end PiHub.Advertising

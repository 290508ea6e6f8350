import Mathlib.Algebra.Order.Ring.Rat
import Mathlib.Tactic.Linarith
import PiHub.Transition

/-! When the Audio Pro is asked for its status (audiopro_speaker.py): hints, the scheduled
MCU+PINFGET, `request_refresh`, and the send lock. The speaker stays enabled and connected; its
clock is `time.monotonic`, in seconds. -/
namespace PiHub.StatusRequests
open PiHub.Transition

def pinfgetMinGapS : ℚ := 1
def pinfgetHintDelayS : ℚ := 1
def pinfgetMaxWaitS : ℚ := 2
def plyHintDelayS : ℚ := 3 / 10

/-- The callers of `_request_pinfget`; `command` is `_tcp_command` and `_http_command`,
`multiroom` the guest kickout and the host ungroup. -/
inductive Hint where
  | push
  | mut
  | plm
  | ply
  | pms
  | plyNew
  | key
  | command (delayedRefresh : Bool)
  | multiroom
  deriving DecidableEq

def Hint.delayS : Hint → ℚ
  | .ply => plyHintDelayS
  | .command delayedRefresh => if delayedRefresh then 3 / 4 else 1 / 4
  | .multiroom => 1 / 2
  | _ => pinfgetHintDelayS

/-- `_run_scheduled_pinfget`, with the time of the hint that created its task; `request_refresh`
at its MCU+PINFGET; any other `_send`. -/
inductive Kind where
  | scheduled (hint : ℚ)
  | refresh
  | other
  deriving DecidableEq

/-- Where a call is: before its first turn or in its sleep (a scheduled one), at the send lock, in
the sleep that keeps commands apart, in `drain`, finished (a scheduled one's done-callback is
due), past its done-callback. -/
inductive Stage where
  | created
  | sleeping (wake : ℚ)
  | waiting
  | pacing
  | draining
  | done
  | cleared
  deriving DecidableEq

def Stage.unfinished : Stage → Bool
  | .done | .cleared => false
  | _ => true

/-- It has not stamped its ask yet. -/
def Stage.unstamped : Stage → Bool
  | .created | .sleeping _ => true
  | _ => false

/-- It has not written its packet yet. -/
def Stage.unwritten : Stage → Bool
  | .created | .sleeping _ | .waiting | .pacing => true
  | _ => false

/-- It holds the send lock. -/
def Stage.holding : Stage → Bool
  | .pacing | .draining => true
  | _ => false

structure Call where
  kind : Kind
  stage : Stage
  deriving DecidableEq

/-- A scheduled ask as it is stamped: its task's hint, the previous stamp, its own. -/
structure Ask where
  hint : ℚ
  previous : ℚ
  stamp : ℚ
  deriving DecidableEq

/-- The speaker; `unanswered` (a hint has come since an MCU+PINFGET was last written) and `asks`
are ghost. -/
structure AudioProSpeaker where
  now : ℚ := 0
  commandIntervalS : ℚ := 1 / 5
  pinfgetDue : ℚ := 0
  pinfgetFirstHint : ℚ := 0
  pinfgetLastHint : ℚ := 0
  lastPinfgetMonotonic : ℚ := 0
  lastSendMonotonic : ℚ := 0
  pendingPinfgetTask : Option Nat := none
  sendLock : Option Nat := none
  calls : List Call := []
  unanswered : Bool := false
  asks : List Ask := []

/-- `task is not None and not task.done()`. -/
def AudioProSpeaker.pendingRuns (s : AudioProSpeaker) : Bool :=
  s.pendingPinfgetTask.any fun i => s.calls[i]?.any fun c => c.stage.unfinished

/-- A hint while the task waits: the ask is put off, not beyond PINFGET_MAX_WAIT_S. -/
def AudioProSpeaker.putOff (s : AudioProSpeaker) (delayS : ℚ) : AudioProSpeaker :=
  let latest := s.pinfgetFirstHint + pinfgetMaxWaitS
  { s with
    pinfgetLastHint := s.now
    unanswered := true
    pinfgetDue := min (max s.pinfgetDue (s.now + delayS)) latest }

/-- A hint that creates a task. -/
def AudioProSpeaker.schedule (s : AudioProSpeaker) (delayS : ℚ) : AudioProSpeaker :=
  { s with
    pinfgetLastHint := s.now
    unanswered := true
    pinfgetFirstHint := s.now
    pinfgetDue := s.now + delayS
    pendingPinfgetTask := some s.calls.length
    calls := s.calls ++ [⟨.scheduled s.now, .created⟩] }

def AudioProSpeaker.requestPinfget (s : AudioProSpeaker) (delayS : ℚ) : AudioProSpeaker :=
  if s.pendingRuns then s.putOff delayS else s.schedule delayS

def AudioProSpeaker.goto (s : AudioProSpeaker) (i : Nat) (c : Call) (stage : Stage) : AudioProSpeaker :=
  { s with calls := s.calls.set i { c with stage := stage } }

/-- `self._writer.write(packet)`; all but `other` write MCU+PINFGET. -/
def AudioProSpeaker.write (s : AudioProSpeaker) (i : Nat) (c : Call) : AudioProSpeaker :=
  { s.goto i c .draining with unanswered := s.unanswered && c.kind = .other }

/-- `_send` from the lock on. -/
def AudioProSpeaker.locked (s : AudioProSpeaker) (i : Nat) (c : Call) : AudioProSpeaker :=
  if s.now - s.lastSendMonotonic < s.commandIntervalS then
    { s with sendLock := some i }.goto i c .pacing
  else { s with sendLock := some i }.write i c

/-- `acquire` returns at once. -/
def AudioProSpeaker.Free (s : AudioProSpeaker) : Prop :=
  s.sendLock = none ∧ ∀ c ∈ s.calls, c.stage ≠ .waiting

instance (s : AudioProSpeaker) : Decidable s.Free := inferInstanceAs (Decidable (_ ∧ _))

def AudioProSpeaker.send (s : AudioProSpeaker) (i : Nat) (c : Call) : AudioProSpeaker :=
  if s.Free then s.locked i c else s.goto i c .waiting

def AudioProSpeaker.stamp (s : AudioProSpeaker) (hint : ℚ) : AudioProSpeaker :=
  { s with
    lastPinfgetMonotonic := s.now
    asks := s.asks ++ [Ask.mk hint s.lastPinfgetMonotonic s.now] }

/-- `_run_scheduled_pinfget` looks again. -/
def AudioProSpeaker.look (s : AudioProSpeaker) (i : Nat) (c : Call) (hint : ℚ) : AudioProSpeaker :=
  let due := max s.pinfgetDue (s.lastPinfgetMonotonic + pinfgetMinGapS)
  if due ≤ s.now then (s.stamp hint).send i c else s.goto i c (.sleeping due)

/-- `drain` returns, the lock is released and the caller goes on; `request_refresh` stamps. -/
def AudioProSpeaker.drained (s : AudioProSpeaker) (i : Nat) (c : Call) : AudioProSpeaker :=
  { s.goto i c .done with
    sendLock := none
    lastSendMonotonic := s.now
    lastPinfgetMonotonic := if c.kind = .refresh then s.now else s.lastPinfgetMonotonic }

/-- `_clear_pending_pinfget` up to the result. -/
def AudioProSpeaker.cleared (s : AudioProSpeaker) (i : Nat) (c : Call) : AudioProSpeaker :=
  { s.goto i c .cleared with
    pendingPinfgetTask := if s.pendingPinfgetTask = some i then none else s.pendingPinfgetTask }

def AudioProSpeaker.clearPendingPinfget (s : AudioProSpeaker) (i : Nat) (c : Call) : AudioProSpeaker :=
  let s := s.cleared i c
  if s.lastPinfgetMonotonic < s.pinfgetLastHint ∧ s.pendingPinfgetTask = none then
    s.requestPinfget 0
  else s

/-- A hint; a turn of a scheduled task; another `_send` begins; the lock comes to a call, its
pacing sleep ends, its `drain` returns; a done-callback; a call that is not scheduled is
cancelled. -/
inductive Act where
  | hint (h : Hint)
  | turn (i : Nat)
  | sends (refresh : Bool)
  | takesLock (i : Nat)
  | paced (i : Nat)
  | drains (i : Nat)
  | callback (i : Nat)
  | cancelled (i : Nat)
  deriving DecidableEq

structure Event where
  time : ℚ
  act : Act
  deriving DecidableEq

/-- Call `i`, if it is there. -/
def AudioProSpeaker.callAt (s : AudioProSpeaker) (i : Nat) (stage : Stage) : Option Call :=
  s.calls[i]?.filter fun c => c.stage = stage

def AudioProSpeaker.turn (s : AudioProSpeaker) (i : Nat) : Option AudioProSpeaker :=
  s.calls[i]?.bind fun c =>
    match c.kind, c.stage with
    | .scheduled hint, .created | .scheduled hint, .sleeping _ => some (s.look i c hint)
    | _, _ => none

def AudioProSpeaker.act (s : AudioProSpeaker) : Act → Option AudioProSpeaker
  | .hint h => some (s.requestPinfget h.delayS)
  | .turn i => s.turn i
  | .sends refresh =>
    let c : Call := ⟨if refresh then .refresh else .other, .waiting⟩
    if s.Free then some ({ s with calls := s.calls ++ [c] }.locked s.calls.length c)
    else some { s with calls := s.calls ++ [c] }
  | .takesLock i =>
    if s.sendLock = none then (s.callAt i .waiting).map fun c => s.locked i c else none
  | .paced i => (s.callAt i .pacing).map fun c => s.write i c
  | .drains i => (s.callAt i .draining).map fun c => s.drained i c
  | .callback i => ((s.callAt i .done).filter fun c => c.kind ≠ .refresh ∧ c.kind ≠ .other).map
    fun c => s.clearPendingPinfget i c
  | .cancelled i => (s.calls[i]?.filter fun c => c.kind = .refresh ∨ c.kind = .other).map fun c =>
    { s.goto i c .done with sendLock := if s.sendLock = some i then none else s.sendLock }

/-- The clock only goes on. -/
def step (s : AudioProSpeaker) (ev : Event) : Option AudioProSpeaker :=
  if s.now < ev.time then { s with now := ev.time }.act ev.act else none

/-- The pending task is the one scheduled task that may be unfinished, and who holds the lock is
in `_send`. -/
structure Owned (s : AudioProSpeaker) : Prop where
  owner : ∀ (i : Nat) (hint : ℚ) (stage : Stage), s.calls[i]? = some ⟨.scheduled hint, stage⟩ → stage.unfinished = true →
    s.pendingPinfgetTask = some i
  pending : ∀ i, s.pendingPinfgetTask = some i → ∃ hint stage,
    s.calls[i]? = some ⟨.scheduled hint, stage⟩ ∧ stage ≠ .cleared
  holder : ∀ i c, s.calls[i]? = some c → c.stage.holding = true → s.sendLock = some i

theorem Owned.goto {s : AudioProSpeaker} (h : Owned s) {i : Nat} {c : Call} (stage : Stage)
    (hc : s.calls[i]? = some c) (hunfinished : stage.unfinished = true → c.stage.unfinished = true)
    (hcleared : stage ≠ .cleared) (hholding : stage.holding = true → s.sendLock = some i) :
    Owned (s.goto i c stage) := by
  refine ⟨fun j hint st hj hst => ?_, fun j hj => ?_, fun j d hj hd => ?_⟩
  · obtain ⟨rfl, heq⟩ | ⟨_, hold⟩ := at_set hj
    · obtain ⟨hkind, rfl⟩ := Call.mk.inj heq
      have hc : s.calls[j]? = some ⟨.scheduled hint, c.stage⟩ := by rw [hc, hkind]
      exact h.owner j hint c.stage hc (hunfinished hst)
    · exact h.owner j hint st hold hst
  · obtain ⟨hint, st, hget, hst⟩ := h.pending j hj
    by_cases hji : j = i
    · subst hji
      obtain rfl := Option.some.inj (hc.symm.trans hget)
      have hlt := (List.getElem?_eq_some_iff.mp hc).1
      exact ⟨hint, stage, by simp [AudioProSpeaker.goto, hlt], hcleared⟩
    · exact ⟨hint, st, by simp [AudioProSpeaker.goto, List.getElem?_set_ne (Ne.symm hji), hget], hst⟩
  · obtain ⟨rfl, rfl⟩ | ⟨_, hold⟩ := at_set hj
    · exact hholding hd
    · exact h.holder j d hold hd

/-- Nobody holds the lock, so it can change hands. -/
theorem Owned.lock {s : AudioProSpeaker} (h : Owned s)
    (hfree : ∀ (i : Nat) (c : Call), s.calls[i]? = some c → c.stage.holding = false)
    (l : Option Nat) : Owned { s with sendLock := l } := by
  refine ⟨h.owner, h.pending, fun i c hc hholding => ?_⟩
  have hnot := hfree i c hc
  simp [hnot] at hholding

theorem Owned.free {s : AudioProSpeaker} (h : Owned s) (hlock : s.sendLock = none) (i : Nat)
    (c : Call) (hc : s.calls[i]? = some c) : c.stage.holding = false := by
  by_contra hholding
  have hsome := h.holder i c hc (by simpa using hholding)
  simp [hlock] at hsome

theorem Owned.schedule {s : AudioProSpeaker} (h : Owned s) (hruns : s.pendingRuns = false)
    (delayS : ℚ) : Owned (s.schedule delayS) := by
  refine ⟨fun i hint stage hi hst => ?_, fun i hi => ?_, fun i c hi hc => ?_⟩
  · obtain ⟨rfl, _⟩ | hold := at_concat hi
    · rfl
    · have hpending := h.owner i hint stage hold hst
      simp [AudioProSpeaker.pendingRuns, hpending, hold, hst] at hruns
  · obtain rfl := Option.some.inj hi
    exact ⟨s.now, .created, List.getElem?_concat_length, nofun⟩
  · obtain ⟨_, rfl⟩ | hold := at_concat hi
    · cases hc
    · exact h.holder i c hold hc

theorem Owned.requestPinfget {s : AudioProSpeaker} (h : Owned s) (delayS : ℚ) :
    Owned (s.requestPinfget delayS) := by
  by_cases hruns : s.pendingRuns = true
  · rw [AudioProSpeaker.requestPinfget, if_pos hruns]
    exact ⟨h.owner, h.pending, h.holder⟩
  · rw [AudioProSpeaker.requestPinfget, if_neg hruns]
    exact h.schedule (by simpa using hruns) delayS

theorem Owned.write {s : AudioProSpeaker} (h : Owned s) {i : Nat} {c : Call}
    (hc : s.calls[i]? = some c) (hunfinished : c.stage.unfinished = true)
    (hlock : s.sendLock = some i) : Owned (s.write i c) := by
  have hgoto := h.goto .draining hc (fun _ => hunfinished) nofun fun _ => hlock
  exact ⟨hgoto.owner, hgoto.pending, hgoto.holder⟩

theorem Owned.locked {s : AudioProSpeaker} (h : Owned s) {i : Nat} {c : Call}
    (hc : s.calls[i]? = some c) (hunfinished : c.stage.unfinished = true)
    (hlock : s.sendLock = none) : Owned (s.locked i c) := by
  have hheld := h.lock (h.free hlock) (some i)
  rw [AudioProSpeaker.locked]
  split
  · exact hheld.goto .pacing hc (fun _ => hunfinished) nofun fun _ => rfl
  · exact hheld.write hc hunfinished rfl

theorem Owned.send {s : AudioProSpeaker} (h : Owned s) {i : Nat} {c : Call}
    (hc : s.calls[i]? = some c) (hunfinished : c.stage.unfinished = true) : Owned (s.send i c) := by
  rw [AudioProSpeaker.send]
  split
  · next hfree => exact h.locked hc hunfinished hfree.1
  · exact h.goto .waiting hc (fun _ => hunfinished) nofun nofun

theorem Owned.look {s : AudioProSpeaker} (h : Owned s) {i : Nat} {c : Call} (hint : ℚ)
    (hc : s.calls[i]? = some c) (hunfinished : c.stage.unfinished = true) :
    Owned (s.look i c hint) := by
  unfold AudioProSpeaker.look
  dsimp only
  split
  · have hstamp : Owned (s.stamp hint) := ⟨h.owner, h.pending, h.holder⟩
    exact hstamp.send hc hunfinished
  · exact h.goto (.sleeping _) hc (fun _ => hunfinished) nofun nofun

theorem Owned.drained {s : AudioProSpeaker} (h : Owned s) {i : Nat} {c : Call}
    (hc : s.calls[i]? = some c) (hdraining : c.stage = .draining) : Owned (s.drained i c) := by
  have hheld : s.sendLock = some i := h.holder i c hc (by rw [hdraining]; rfl)
  have hfree (j : Nat) (d : Call) (hd : (s.goto i c .done).calls[j]? = some d) :
      d.stage.holding = false := by
    obtain ⟨_, rfl⟩ | ⟨hne, hold⟩ := at_set hd
    · rfl
    · by_contra hholding
      have hother := h.holder j d hold (by simpa using hholding)
      exact hne (Option.some.inj (hother.symm.trans hheld))
  have hdone := (h.goto .done hc nofun nofun nofun).lock hfree none
  exact ⟨hdone.owner, hdone.pending, hdone.holder⟩

theorem Owned.cleared {s : AudioProSpeaker} (h : Owned s) (i : Nat) (c : Call) :
    Owned (s.cleared i c) := by
  refine ⟨fun j hint stage hj hst => ?_, fun j hj => ?_, fun j d hj hd => ?_⟩
  · obtain ⟨_, heq⟩ | ⟨hne, hold⟩ := at_set hj
    · obtain ⟨_, rfl⟩ := Call.mk.inj heq
      cases hst
    · have hpending := h.owner j hint stage hold hst
      have hother : s.pendingPinfgetTask ≠ some i := by
        rw [hpending]
        exact fun heq => hne (Option.some.inj heq)
      simp [AudioProSpeaker.cleared, hpending, hne]
  · have hother : s.pendingPinfgetTask ≠ some i ∧ s.pendingPinfgetTask = some j := by
      by_cases hi : s.pendingPinfgetTask = some i
      · simp [AudioProSpeaker.cleared, hi] at hj
      · exact ⟨hi, by simpa [AudioProSpeaker.cleared, hi] using hj⟩
    obtain ⟨hint, stage, hget, hst⟩ := h.pending j hother.2
    have hne : i ≠ j := fun heq => hother.1 (heq ▸ hother.2)
    refine ⟨hint, stage, ?_, hst⟩
    rw [← hget]
    exact List.getElem?_set_ne hne
  · obtain ⟨_, rfl⟩ | ⟨_, hold⟩ := at_set hj
    · cases hd
    · exact h.holder j d hold hd

theorem Owned.clearPendingPinfget {s : AudioProSpeaker} (h : Owned s) (i : Nat) (c : Call) :
    Owned (s.clearPendingPinfget i c) := by
  unfold AudioProSpeaker.clearPendingPinfget
  dsimp only
  split
  · exact (h.cleared i c).requestPinfget 0
  · exact h.cleared i c

theorem Owned.cancelled {s : AudioProSpeaker} (h : Owned s) {i : Nat} {c : Call}
    (hc : s.calls[i]? = some c) : Owned { s.goto i c .done with
      sendLock := if s.sendLock = some i then none else s.sendLock } := by
  have hdone := h.goto .done hc nofun nofun nofun
  refine ⟨hdone.owner, hdone.pending, fun j d hj hd => ?_⟩
  obtain ⟨_, rfl⟩ | ⟨hne, hold⟩ := at_set hj
  · cases hd
  · have hheld := h.holder j d hold hd
    simp [hheld, hne]

/-- No `request_refresh` is in its `drain`. -/
def AudioProSpeaker.Quiet (s : AudioProSpeaker) : Prop :=
  ∀ (i : Nat) (stage : Stage), s.calls[i]? = some ⟨.refresh, stage⟩ → stage ≠ .draining

/-- A hint that no MCU+PINFGET has followed has a task that will write one, or that will look
for such hints when it is done. -/
def Told (s : AudioProSpeaker) : Prop :=
  s.unanswered = true → ∃ (i : Nat) (hint : ℚ) (stage : Stage), s.pendingPinfgetTask = some i ∧
    s.calls[i]? = some ⟨.scheduled hint, stage⟩ ∧
    (stage.unwritten = true ∨ s.lastPinfgetMonotonic < s.pinfgetLastHint ∧ s.Quiet)

theorem quiet_goto {s : AudioProSpeaker} (h : s.Quiet) {i : Nat} {c : Call} {stage : Stage}
    (hrefresh : c.kind = .refresh → stage ≠ .draining) : (s.goto i c stage).Quiet := by
  intro k st hk
  obtain ⟨_, heq⟩ | ⟨_, hold⟩ := at_set hk
  · obtain ⟨hkind, rfl⟩ := Call.mk.inj heq
    exact hrefresh hkind.symm
  · exact h k st hold

theorem Told.goto {s : AudioProSpeaker} (h : Told s) {i : Nat} {c : Call} (stage : Stage)
    (hc : s.calls[i]? = some c) (hrefresh : c.kind = .refresh → stage ≠ .draining)
    (hunwritten : ∀ hint, c.kind = .scheduled hint → c.stage.unwritten = true →
      stage.unwritten = true) : Told (s.goto i c stage) := by
  intro hasked
  obtain ⟨j, hint, st, hpending, hj, htold⟩ := h hasked
  have hlt := (List.getElem?_eq_some_iff.mp hc).1
  have hlater := htold.imp_right fun hlast => And.intro hlast.1 (quiet_goto (i := i) hlast.2 hrefresh)
  by_cases hij : i = j
  · subst hij
    obtain rfl := Option.some.inj (hc.symm.trans hj)
    refine ⟨i, hint, stage, hpending, by simp [AudioProSpeaker.goto, hlt], ?_⟩
    exact hlater.imp_left (hunwritten hint rfl)
  · refine ⟨j, hint, st, hpending, ?_, hlater⟩
    rw [← hj]
    exact List.getElem?_set_ne hij

theorem Told.write {s : AudioProSpeaker} (h : Told s) {i : Nat} {c : Call}
    (hc : s.calls[i]? = some c) : Told (s.write i c) := by
  by_cases hother : c.kind = .other
  · have hgoto := h.goto .draining hc (by simp [hother]) (by simp [hother])
    intro hasked
    have hbefore : s.unanswered = true := by simpa [AudioProSpeaker.write, hother] using hasked
    exact hgoto hbefore
  · intro hasked
    simp [AudioProSpeaker.write, hother] at hasked

theorem Told.locked {s : AudioProSpeaker} (h : Told s) {i : Nat} {c : Call}
    (hc : s.calls[i]? = some c) : Told (s.locked i c) := by
  have hheld : Told { s with sendLock := some i } := h
  rw [AudioProSpeaker.locked]
  split
  · exact hheld.goto .pacing hc nofun fun _ _ _ => rfl
  · exact hheld.write hc

theorem Told.send {s : AudioProSpeaker} (h : Told s) {i : Nat} {c : Call}
    (hc : s.calls[i]? = some c) : Told (s.send i c) := by
  rw [AudioProSpeaker.send]
  split
  · exact h.locked hc
  · exact h.goto .waiting hc nofun fun _ _ _ => rfl

/-- The ask that is stamped is still to be written. -/
theorem Told.look {s : AudioProSpeaker} (h : Told s) (howned : Owned s) {i : Nat} {hint : ℚ}
    {stage : Stage} (hc : s.calls[i]? = some ⟨.scheduled hint, stage⟩)
    (hunfinished : stage.unfinished = true) (hunwritten : stage.unwritten = true) :
    Told (s.look i ⟨.scheduled hint, stage⟩ hint) := by
  unfold AudioProSpeaker.look
  dsimp only
  split
  · have hstamp : Told (s.stamp hint) := fun _ =>
      ⟨i, hint, stage, howned.owner i hint stage hc hunfinished, hc, Or.inl hunwritten⟩
    exact hstamp.send hc
  · exact h.goto (.sleeping _) hc nofun fun _ _ _ => rfl

/-- When `request_refresh` stamps, a hint that its packet does not answer has a task to come. -/
theorem Told.drained {s : AudioProSpeaker} (h : Told s) {i : Nat} {c : Call}
    (hc : s.calls[i]? = some c) (hdraining : c.stage = .draining) : Told (s.drained i c) := by
  have hgoto := h.goto .done hc nofun (by simp [hdraining, Stage.unwritten])
  intro hasked
  by_cases hrefresh : c.kind = .refresh
  · obtain ⟨j, hint, stage, hpending, hj, htold⟩ := h hasked
    have hc : s.calls[i]? = some ⟨.refresh, .draining⟩ := by rw [hc, ← hrefresh, ← hdraining]
    have hne : i ≠ j := by
      rintro rfl
      cases hc.symm.trans hj
    refine ⟨j, hint, stage, hpending, ?_, Or.inl ?_⟩
    · rw [← hj]
      exact List.getElem?_set_ne hne
    · exact htold.resolve_right fun hlast => hlast.2 i .draining hc rfl
  · obtain ⟨j, hint, stage, hpending, hj, htold⟩ := hgoto hasked
    have hsame : (s.drained i c).lastPinfgetMonotonic = s.lastPinfgetMonotonic := if_neg hrefresh
    exact ⟨j, hint, stage, hpending, hj, by rw [hsame]; exact htold⟩

theorem Told.schedule (s : AudioProSpeaker) (delayS : ℚ) : Told (s.schedule delayS) :=
  fun _ => ⟨s.calls.length, s.now, .created, rfl, List.getElem?_concat_length, Or.inl rfl⟩

theorem pendingRuns_eq {s : AudioProSpeaker} (h : s.pendingRuns = true) : ∃ i,
    s.pendingPinfgetTask = some i ∧ ∀ c, s.calls[i]? = some c → c.stage.unfinished = true := by
  cases hpending : s.pendingPinfgetTask with
  | none => simp [AudioProSpeaker.pendingRuns, hpending] at h
  | some i =>
    refine ⟨i, rfl, fun c hc => ?_⟩
    simpa [AudioProSpeaker.pendingRuns, hpending, hc] using h

/-- A hint whose task has written already comes after its stamp. -/
theorem Told.putOff {s : AudioProSpeaker} (howned : Owned s)
    (hclock : s.lastPinfgetMonotonic < s.now) (hruns : s.pendingRuns = true) (delayS : ℚ) :
    Told (s.putOff delayS) := by
  intro _
  obtain ⟨i, hpending, hany⟩ := pendingRuns_eq hruns
  obtain ⟨hint, stage, hget, _⟩ := howned.pending i hpending
  have hany : stage.unfinished = true := hany _ hget
  refine ⟨i, hint, stage, hpending, hget, ?_⟩
  by_cases hdraining : stage = .draining
  · refine Or.inr ⟨hclock, fun j st hj hst => ?_⟩
    subst hdraining hst
    have hi := howned.holder i _ hget rfl
    have hj' := howned.holder j _ hj rfl
    obtain rfl : i = j := Option.some.inj (hi.symm.trans hj')
    cases hget.symm.trans hj
  · left
    cases stage with
    | draining => exact absurd rfl hdraining
    | done | cleared => cases hany
    | _ => rfl

theorem Told.requestPinfget {s : AudioProSpeaker} (howned : Owned s)
    (hclock : s.lastPinfgetMonotonic < s.now) (delayS : ℚ) : Told (s.requestPinfget delayS) := by
  rw [AudioProSpeaker.requestPinfget]
  split
  · next hruns => exact .putOff howned hclock hruns delayS
  · exact .schedule s delayS

/-- If the done-callback does not ask again, there was nothing to ask for. -/
theorem Told.clearPendingPinfget {s : AudioProSpeaker} (h : Told s) (howned : Owned s)
    (hclock : s.lastPinfgetMonotonic < s.now) {i : Nat} {c : Call} (hc : s.calls[i]? = some c)
    (hdone : c.stage = .done) (hrefresh : c.kind ≠ .refresh) : Told (s.clearPendingPinfget i c) := by
  unfold AudioProSpeaker.clearPendingPinfget
  dsimp only
  split
  · exact .requestPinfget (howned.cleared i c) hclock 0
  · next hsettled =>
    intro hasked
    obtain ⟨j, hint, stage, hpending, hj, htold⟩ := h hasked
    by_cases hij : i = j
    · subst hij
      obtain rfl := Option.some.inj (hc.symm.trans hj)
      have hlast := htold.resolve_left (by rw [show stage = .done from hdone]; nofun)
      exact absurd ⟨hlast.1, by simp [AudioProSpeaker.cleared, hpending]⟩ hsettled
    · refine ⟨j, hint, stage, ?_, ?_, htold.imp_right fun hlast => ⟨hlast.1, ?_⟩⟩
      · simp [AudioProSpeaker.cleared, hpending, Ne.symm hij]
      · rw [← hj]
        exact List.getElem?_set_ne hij
      · exact quiet_goto hlast.2 fun heq => absurd heq hrefresh

/-- An ask that is not stamped yet is due, and woken, within PINFGET_MAX_WAIT_S of its hint or
as soon as the gap allows. -/
structure Due (s : AudioProSpeaker) : Prop where
  first : ∀ (i : Nat) (hint : ℚ) (stage : Stage), s.calls[i]? = some ⟨.scheduled hint, stage⟩ →
    stage.unstamped = true → s.pinfgetFirstHint = hint ∧ s.pinfgetDue ≤ hint + pinfgetMaxWaitS
  woken : ∀ (i : Nat) (hint wake : ℚ), s.calls[i]? = some ⟨.scheduled hint, .sleeping wake⟩ →
    wake ≤ max (hint + pinfgetMaxWaitS) (s.lastPinfgetMonotonic + pinfgetMinGapS)
  clock : s.lastPinfgetMonotonic ≤ s.now
  gap : ∀ a ∈ s.asks, a.previous + pinfgetMinGapS ≤ a.stamp

/-- A later stamp only allows more. -/
theorem Due.restamp {s : AudioProSpeaker} (h : Due s) {stamp : ℚ}
    (hlater : s.lastPinfgetMonotonic ≤ stamp) (hnow : stamp ≤ s.now) :
    Due { s with lastPinfgetMonotonic := stamp } := by
  refine ⟨h.first, fun i hint wake hi => ?_, hnow, h.gap⟩
  have hgap : s.lastPinfgetMonotonic + pinfgetMinGapS ≤ stamp + pinfgetMinGapS := by linarith
  exact (h.woken i hint wake hi).trans (max_le_max_left _ hgap)

theorem Due.goto {s : AudioProSpeaker} (h : Due s) {i : Nat} {c : Call} (stage : Stage)
    (hstamped : stage.unstamped = false) : Due (s.goto i c stage) := by
  refine ⟨fun j hint st hj hst => ?_, fun j hint wake hj => ?_, h.clock, h.gap⟩
  · obtain ⟨_, heq⟩ | ⟨_, hold⟩ := at_set hj
    · obtain ⟨_, rfl⟩ := Call.mk.inj heq
      simp [hstamped] at hst
    · exact h.first j hint st hold hst
  · obtain ⟨_, heq⟩ | ⟨_, hold⟩ := at_set hj
    · obtain ⟨_, rfl⟩ := Call.mk.inj heq
      cases hstamped
    · exact h.woken j hint wake hold

theorem Due.write {s : AudioProSpeaker} (h : Due s) (i : Nat) (c : Call) : Due (s.write i c) := by
  have hgoto := h.goto (i := i) (c := c) .draining rfl
  exact ⟨hgoto.first, hgoto.woken, hgoto.clock, hgoto.gap⟩

theorem Due.locked {s : AudioProSpeaker} (h : Due s) (i : Nat) (c : Call) : Due (s.locked i c) := by
  have hheld : Due { s with sendLock := some i } := ⟨h.first, h.woken, h.clock, h.gap⟩
  rw [AudioProSpeaker.locked]
  split
  · exact hheld.goto .pacing rfl
  · exact hheld.write i c

theorem Due.send {s : AudioProSpeaker} (h : Due s) (i : Nat) (c : Call) : Due (s.send i c) := by
  rw [AudioProSpeaker.send]
  split
  · exact h.locked i c
  · exact h.goto .waiting rfl

/-- A stamp keeps the gap; a sleep ends when the ask, as it stands, is due. -/
theorem Due.look {s : AudioProSpeaker} (h : Due s) {i : Nat} {hint : ℚ} {stage : Stage}
    (hc : s.calls[i]? = some ⟨.scheduled hint, stage⟩) (hunstamped : stage.unstamped = true) :
    Due (s.look i ⟨.scheduled hint, stage⟩ hint) := by
  obtain ⟨hfirst, hdue⟩ := h.first i hint stage hc hunstamped
  unfold AudioProSpeaker.look
  dsimp only
  split
  · next hnow =>
    have hgap := (le_max_right _ _).trans hnow
    have hstamp : Due (s.stamp hint) := by
      have hlater := h.restamp h.clock le_rfl
      refine ⟨hlater.first, hlater.woken, hlater.clock, fun a ha => ?_⟩
      obtain hold | hnew := List.mem_append.mp ha
      · exact h.gap a hold
      · obtain rfl := List.mem_singleton.mp hnew
        exact hgap
    exact hstamp.send i _
  · refine ⟨fun j hint' st hj hst => ?_, fun j hint' wake hj => ?_, h.clock, h.gap⟩
    · obtain ⟨_, heq⟩ | ⟨_, hold⟩ := at_set hj
      · obtain ⟨hkind, _⟩ := Call.mk.inj heq
        obtain rfl := Kind.scheduled.inj hkind
        exact ⟨hfirst, hdue⟩
      · exact h.first j hint' st hold hst
    · obtain ⟨_, heq⟩ | ⟨_, hold⟩ := at_set hj
      · obtain ⟨hkind, hstage⟩ := Call.mk.inj heq
        obtain rfl := Kind.scheduled.inj hkind
        obtain rfl := Stage.sleeping.inj hstage
        exact max_le_max_right _ hdue
      · exact h.woken j hint' wake hold

theorem Due.drained {s : AudioProSpeaker} (h : Due s) (i : Nat) (c : Call) : Due (s.drained i c) := by
  have hgoto := h.goto (i := i) (c := c) .done rfl
  by_cases hrefresh : c.kind = .refresh
  · have hstamp : (s.drained i c).lastPinfgetMonotonic = s.now := if_pos hrefresh
    have hlater := hgoto.restamp h.clock le_rfl
    exact ⟨hlater.first, by rw [hstamp]; exact hlater.woken, hstamp.le, hgoto.gap⟩
  · have hsame : (s.drained i c).lastPinfgetMonotonic = s.lastPinfgetMonotonic := if_neg hrefresh
    exact ⟨hgoto.first, by rw [hsame]; exact hgoto.woken, hsame.trans_le h.clock, hgoto.gap⟩

theorem delayS_le (h : Hint) : h.delayS ≤ pinfgetMaxWaitS := by
  cases h with
  | command delayedRefresh =>
    cases delayedRefresh with
    | false => norm_num [Hint.delayS, pinfgetMaxWaitS]
    | true => norm_num [Hint.delayS, pinfgetMaxWaitS]
  | _ => norm_num [Hint.delayS, pinfgetMaxWaitS, pinfgetHintDelayS, plyHintDelayS]

theorem Due.requestPinfget {s : AudioProSpeaker} (h : Due s) (howned : Owned s) {delayS : ℚ}
    (hdelay : delayS ≤ pinfgetMaxWaitS) : Due (s.requestPinfget delayS) := by
  rw [AudioProSpeaker.requestPinfget]
  split
  · refine ⟨fun i hint stage hi hst => ?_, h.woken, h.clock, h.gap⟩
    obtain ⟨hfirst, _⟩ := h.first i hint stage hi hst
    exact ⟨hfirst, hfirst ▸ min_le_right _ _⟩
  · next hruns =>
    refine ⟨fun i hint stage hi hst => ?_, fun i hint wake hi => ?_, h.clock, h.gap⟩
    · obtain ⟨_, heq⟩ | hold := at_concat hi
      · obtain ⟨hkind, _⟩ := Call.mk.inj heq
        obtain rfl := Kind.scheduled.inj hkind
        exact ⟨rfl, by simpa [AudioProSpeaker.schedule] using hdelay⟩
      · have hunfinished : stage.unfinished = true := by
          cases stage with
          | created | sleeping wake => rfl
          | _ => cases hst
        have hpending := howned.owner i hint stage hold hunfinished
        simp [AudioProSpeaker.pendingRuns, hpending, hold, hunfinished] at hruns
    · obtain ⟨_, heq⟩ | hold := at_concat hi
      · cases heq
      · exact h.woken i hint wake hold

theorem Due.clearPendingPinfget {s : AudioProSpeaker} (h : Due s) (howned : Owned s) (i : Nat)
    (c : Call) : Due (s.clearPendingPinfget i c) := by
  have hgoto := h.goto (i := i) (c := c) .cleared rfl
  have hcleared : Due (s.cleared i c) := ⟨hgoto.first, hgoto.woken, hgoto.clock, hgoto.gap⟩
  unfold AudioProSpeaker.clearPendingPinfget
  dsimp only
  split
  · exact hcleared.requestPinfget (howned.cleared i c) (by norm_num [pinfgetMaxWaitS])
  · exact hcleared

/-- What holds of every reachable speaker. -/
structure Sound (s : AudioProSpeaker) : Prop where
  owned : Owned s
  told : Told s
  due : Due s

theorem Sound.tick {s : AudioProSpeaker} (h : Sound s) {time : ℚ} (htime : s.now < time) :
    Sound { s with now := time } where
  owned := ⟨h.owned.owner, h.owned.pending, h.owned.holder⟩
  told := h.told
  due := ⟨h.due.first, h.due.woken, h.due.clock.trans htime.le, h.due.gap⟩

theorem callAt_eq {s : AudioProSpeaker} {i : Nat} {stage : Stage} {c : Call}
    (h : s.callAt i stage = some c) : s.calls[i]? = some c ∧ c.stage = stage := by
  obtain ⟨hget, hstage⟩ := Option.filter_eq_some_iff.mp h
  exact ⟨hget, of_decide_eq_true hstage⟩

theorem turn_eq {s s' : AudioProSpeaker} {i : Nat} (h : s.turn i = some s') :
    ∃ hint stage, s.calls[i]? = some ⟨.scheduled hint, stage⟩ ∧ stage.unstamped = true ∧
      s' = s.look i ⟨.scheduled hint, stage⟩ hint := by
  obtain ⟨⟨kind, stage⟩, hget, hlook⟩ := Option.bind_eq_some_iff.mp h
  cases kind with
  | scheduled hint =>
    cases stage with
    | created => exact ⟨hint, .created, hget, rfl, (Option.some.inj hlook).symm⟩
    | sleeping wake => exact ⟨hint, .sleeping wake, hget, rfl, (Option.some.inj hlook).symm⟩
    | _ => cases hlook
  | _ => cases hlook

theorem unfinished_of_unstamped {stage : Stage} (h : stage.unstamped = true) :
    stage.unfinished = true ∧ stage.unwritten = true := by
  cases stage with
  | created | sleeping wake => exact ⟨rfl, rfl⟩
  | _ => cases h

/-- A new `_send` joins. -/
theorem Sound.join {s : AudioProSpeaker} (h : Sound s) {c : Call} (hkind : c.kind ≠ .other → c.kind = .refresh)
    (hstage : c.stage = .waiting) : Sound { s with calls := s.calls ++ [c] } := by
  have hscheduled {hint : ℚ} {stage : Stage} {j : Nat}
      (hj : (s.calls ++ [c])[j]? = some ⟨.scheduled hint, stage⟩) :
      s.calls[j]? = some ⟨.scheduled hint, stage⟩ := by
    obtain ⟨_, rfl⟩ | hold := at_concat hj
    · cases hkind nofun
    · exact hold
  refine ⟨⟨fun i hint stage hi => h.owned.owner i hint stage (hscheduled hi), fun i hi => ?_,
    fun i d hi hd => ?_⟩, fun hasked => ?_, ⟨fun i hint stage hi =>
    h.due.first i hint stage (hscheduled hi), fun i hint wake hi =>
    h.due.woken i hint wake (hscheduled hi), h.due.clock, h.due.gap⟩⟩
  · obtain ⟨hint, stage, hget, hst⟩ := h.owned.pending i hi
    exact ⟨hint, stage, concat_at hget c, hst⟩
  · obtain ⟨_, rfl⟩ | hold := at_concat hi
    · simp [hstage, Stage.holding] at hd
    · exact h.owned.holder i d hold hd
  · obtain ⟨i, hint, stage, hpending, hget, htold⟩ := h.told hasked
    refine ⟨i, hint, stage, hpending, concat_at hget c, htold.imp_right fun hlast =>
      ⟨hlast.1, fun j st hj => ?_⟩⟩
    obtain ⟨_, heq⟩ | hold := at_concat hj
    · have hst : st = .waiting := by rw [← hstage, ← heq]
      rw [hst]
      nofun
    · exact hlast.2 j st hold

theorem Sound.locked {s : AudioProSpeaker} (h : Sound s) {i : Nat} {c : Call}
    (hc : s.calls[i]? = some c) (hunfinished : c.stage.unfinished = true)
    (hlock : s.sendLock = none) : Sound (s.locked i c) :=
  ⟨h.owned.locked hc hunfinished hlock, h.told.locked hc, h.due.locked i c⟩

theorem sound_act {s s' : AudioProSpeaker} {act : Act} (h : Sound s)
    (hclock : s.lastPinfgetMonotonic < s.now) (hact : s.act act = some s') : Sound s' := by
  cases act with
  | hint hint =>
    obtain rfl := Option.some.inj hact
    exact ⟨h.owned.requestPinfget _, .requestPinfget h.owned hclock _,
      h.due.requestPinfget h.owned (delayS_le hint)⟩
  | turn i =>
    obtain ⟨hint, stage, hget, hunstamped, rfl⟩ := turn_eq hact
    obtain ⟨hunfinished, hunwritten⟩ := unfinished_of_unstamped hunstamped
    exact ⟨h.owned.look hint hget hunfinished, h.told.look h.owned hget hunfinished hunwritten,
      h.due.look hget hunstamped⟩
  | sends refresh =>
    have hjoin : Sound { s with calls := s.calls ++
        [⟨if refresh then .refresh else .other, .waiting⟩] } := by
      refine h.join (fun hother => ?_) rfl
      cases refresh with
      | false => exact absurd rfl hother
      | true => rfl
    simp only [AudioProSpeaker.act] at hact
    split at hact
    · next hfree =>
      obtain rfl := Option.some.inj hact
      exact hjoin.locked List.getElem?_concat_length rfl hfree.1
    · obtain rfl := Option.some.inj hact
      exact hjoin
  | takesLock i =>
    obtain ⟨hlock, heq⟩ := Option.ite_none_right_eq_some.mp hact
    obtain ⟨c, hc, rfl⟩ := Option.map_eq_some_iff.mp heq
    obtain ⟨hget, hwaiting⟩ := callAt_eq hc
    exact h.locked hget (by rw [hwaiting]; rfl) hlock
  | paced i =>
    obtain ⟨c, hc, rfl⟩ := Option.map_eq_some_iff.mp hact
    obtain ⟨hget, hpacing⟩ := callAt_eq hc
    have hlock := h.owned.holder i c hget (by rw [hpacing]; rfl)
    exact ⟨h.owned.write hget (by rw [hpacing]; rfl) hlock, h.told.write hget, h.due.write i c⟩
  | drains i =>
    obtain ⟨c, hc, rfl⟩ := Option.map_eq_some_iff.mp hact
    obtain ⟨hget, hdraining⟩ := callAt_eq hc
    exact ⟨h.owned.drained hget hdraining, h.told.drained hget hdraining, h.due.drained i c⟩
  | callback i =>
    obtain ⟨c, hc, rfl⟩ := Option.map_eq_some_iff.mp hact
    obtain ⟨hc, hkind⟩ := Option.filter_eq_some_iff.mp hc
    obtain ⟨hget, hdone⟩ := callAt_eq hc
    have hrefresh : c.kind ≠ .refresh := (of_decide_eq_true hkind).1
    exact ⟨h.owned.clearPendingPinfget i c, h.told.clearPendingPinfget h.owned hclock hget hdone hrefresh,
      h.due.clearPendingPinfget h.owned i c⟩
  | cancelled i =>
    obtain ⟨c, hc, rfl⟩ := Option.map_eq_some_iff.mp hact
    obtain ⟨hget, hkind⟩ := Option.filter_eq_some_iff.mp hc
    have hgoto := h.due.goto (i := i) (c := c) .done rfl
    have hnotScheduled (hint : ℚ) : c.kind ≠ .scheduled hint := by
      intro hscheduled
      simp [hscheduled] at hkind
    exact ⟨h.owned.cancelled hget,
      h.told.goto .done hget nofun fun hint heq => absurd heq (hnotScheduled hint),
      ⟨hgoto.first, hgoto.woken, hgoto.clock, hgoto.gap⟩⟩

theorem sound_step {s s' : AudioProSpeaker} {ev : Event} (h : Sound s)
    (hstep : step s ev = some s') : Sound s' := by
  obtain ⟨htime, hact⟩ := Option.ite_none_right_eq_some.mp hstep
  exact sound_act (h.tick htime) (h.due.clock.trans_lt htime) hact

/-- When the next turn is to come: a sleep ends at its instant; a new task's first turn comes
in the event loop's next iteration, at any rate before PINFGET_MAX_WAIT_S have passed. -/
def Call.timer : Call → Option ℚ
  | ⟨.scheduled hint, .created⟩ => some (hint + pinfgetMaxWaitS)
  | ⟨_, .sleeping wake⟩ => some wake
  | _ => none

/-- Timers fire on time. -/
def OnTime (s : AudioProSpeaker) (ev : Event) : Prop :=
  match ev.act with
  | .turn i => ∀ c ∈ s.calls[i]?, ∀ t ∈ c.timer, ev.time ≤ t
  | _ => True

instance (s : AudioProSpeaker) (ev : Event) : Decidable (OnTime s ev) :=
  match hact : ev.act with
  | .turn i => decidable_of_iff (∀ c ∈ s.calls[i]?, ∀ t ∈ c.timer, ev.time ≤ t) (by simp [OnTime, hact])
  | .hint _ | .sends _ | .takesLock _ | .paced _ | .drains _ | .callback _ | .cancelled _ =>
    .isTrue (by simp [OnTime, hact])

/-- The asks have been stamped in time. -/
def Prompt (s : AudioProSpeaker) : Prop :=
  ∀ a ∈ s.asks, a.stamp ≤ max (a.hint + pinfgetMaxWaitS) (a.previous + pinfgetMinGapS)

theorem asks_locked (s : AudioProSpeaker) (i : Nat) (c : Call) : (s.locked i c).asks = s.asks := by
  rw [AudioProSpeaker.locked]
  split
  · rfl
  · rfl

theorem asks_send (s : AudioProSpeaker) (i : Nat) (c : Call) : (s.send i c).asks = s.asks := by
  rw [AudioProSpeaker.send]
  split
  · exact asks_locked s i c
  · rfl

theorem asks_requestPinfget (s : AudioProSpeaker) (delayS : ℚ) :
    (s.requestPinfget delayS).asks = s.asks := by
  rw [AudioProSpeaker.requestPinfget]
  split
  · rfl
  · rfl

theorem asks_clearPendingPinfget (s : AudioProSpeaker) (i : Nat) (c : Call) :
    (s.clearPendingPinfget i c).asks = s.asks := by
  unfold AudioProSpeaker.clearPendingPinfget
  dsimp only
  split
  · exact asks_requestPinfget (s.cleared i c) 0
  · rfl

/-- Only a turn that finds its ask due adds one. -/
theorem asks_act {s s' : AudioProSpeaker} {act : Act} (hact : s.act act = some s') :
    s'.asks = s.asks ∨ ∃ i hint stage, act = .turn i ∧
      s.calls[i]? = some ⟨.scheduled hint, stage⟩ ∧ stage.unstamped = true ∧
      s'.asks = s.asks ++ [⟨hint, s.lastPinfgetMonotonic, s.now⟩] := by
  cases act with
  | hint h =>
    obtain rfl := Option.some.inj hact
    exact Or.inl (asks_requestPinfget s _)
  | turn i =>
    obtain ⟨hint, stage, hget, hunstamped, rfl⟩ := turn_eq hact
    unfold AudioProSpeaker.look
    dsimp only
    split
    · exact Or.inr ⟨i, hint, stage, rfl, hget, hunstamped, asks_send _ i _⟩
    · exact Or.inl rfl
  | sends refresh =>
    simp only [AudioProSpeaker.act] at hact
    split at hact
    · obtain rfl := Option.some.inj hact
      exact Or.inl (asks_locked _ _ _)
    · obtain rfl := Option.some.inj hact
      exact Or.inl rfl
  | takesLock i =>
    obtain ⟨_, heq⟩ := Option.ite_none_right_eq_some.mp hact
    obtain ⟨c, _, rfl⟩ := Option.map_eq_some_iff.mp heq
    exact Or.inl (asks_locked s i c)
  | paced i | drains i | cancelled i =>
    obtain ⟨c, _, rfl⟩ := Option.map_eq_some_iff.mp hact
    exact Or.inl rfl
  | callback i =>
    obtain ⟨c, _, rfl⟩ := Option.map_eq_some_iff.mp hact
    exact Or.inl (asks_clearPendingPinfget s i c)

theorem prompt_step {s s' : AudioProSpeaker} {ev : Event} (h : Prompt s) (hdue : Due s)
    (hontime : OnTime s ev) (hstep : step s ev = some s') : Prompt s' := by
  obtain ⟨_, hact⟩ := Option.ite_none_right_eq_some.mp hstep
  obtain hsame | ⟨i, hint, stage, hturn, hget, hunstamped, hnew⟩ := asks_act hact
  · intro a ha
    exact h a (hsame ▸ ha)
  · intro a ha
    rw [hnew] at ha
    obtain hold | hlast := List.mem_append.mp ha
    · exact h a hold
    · obtain rfl := List.mem_singleton.mp hlast
      simp only [OnTime, hturn] at hontime
      have htime := hontime _ hget
      cases stage with
      | created => exact le_max_of_le_left (htime _ rfl)
      | sleeping wake => exact le_trans (htime _ rfl) (hdue.woken i hint wake hget)
      | _ => cases hunstamped

/-- A speaker whose connection has just come up. -/
structure Connected (s : AudioProSpeaker) : Prop where
  calls : s.calls = []
  pending : s.pendingPinfgetTask = none
  clock : s.lastPinfgetMonotonic ≤ s.now
  unanswered : s.unanswered = false
  asks : s.asks = []

theorem Connected.sound {s : AudioProSpeaker} (h : Connected s) : Sound s where
  owned := ⟨by simp [h.calls], by simp [h.pending], by simp [h.calls]⟩
  told := by simp [Told, h.unanswered]
  due := ⟨by simp [h.calls], by simp [h.calls], h.clock, by simp [h.asks]⟩

theorem prompt_run {s s' : AudioProSpeaker} {es : List Event} (hsound : Sound s) (h : Prompt s)
    (hontime : Along step OnTime s es) (hrun : execute step s es = some s') : Prompt s' := by
  have hinv : Sound s' ∧ Prompt s' := by
    apply (reachableBy_of_execute hrun hontime).invariant
    · exact ⟨hsound, h⟩
    · intro t ev u ⟨ht, hprompt⟩ hok hstep
      exact ⟨sound_step ht hstep, prompt_step hprompt ht.due hok hstep⟩
  exact hinv.2

/-- While the connection stays up: one scheduled task at a time; when none is left, every hint has
been followed by an MCU+PINFGET; a scheduled ask keeps the gap, and with timers on time it does
not wait beyond PINFGET_MAX_WAIT_S unless the gap asks for it. -/
theorem hints_answered {s s' : AudioProSpeaker} {es : List Event} (h : Connected s)
    (hrun : execute step s es = some s') :
    (∀ (i j : Nat) (hint hint' : ℚ) (stage stage' : Stage),
      s'.calls[i]? = some ⟨.scheduled hint, stage⟩ → stage.unfinished = true →
      s'.calls[j]? = some ⟨.scheduled hint', stage'⟩ → stage'.unfinished = true → i = j) ∧
    ((∀ (i : Nat) (hint : ℚ) (stage : Stage), s'.calls[i]? = some ⟨.scheduled hint, stage⟩ →
      stage = .cleared) → s'.unanswered = false) ∧
    (∀ a ∈ s'.asks, a.previous + pinfgetMinGapS ≤ a.stamp) ∧
    (Along step OnTime s es → ∀ a ∈ s'.asks,
      a.stamp ≤ max (a.hint + pinfgetMaxWaitS) (a.previous + pinfgetMinGapS)) := by
  have hsound : Sound s' := by
    apply (reachable_of_execute hrun).invariant h.sound
    intro t ev u ht _ hstep
    exact sound_step ht hstep
  refine ⟨fun i j hint hint' stage stage' hi hst hj hst' => ?_, fun hcleared => ?_, hsound.due.gap,
    fun hontime => ?_⟩
  · have hpending := hsound.owned.owner i hint stage hi hst
    have hpending' := hsound.owned.owner j hint' stage' hj hst'
    exact Option.some.inj (hpending.symm.trans hpending')
  · by_contra hasked
    obtain ⟨i, hint, stage, hpending, hget, _⟩ := hsound.told (by simpa using hasked)
    obtain ⟨hint', stage', hget', hst⟩ := hsound.owned.pending i hpending
    exact hst (hcleared i hint' stage' hget')
  · exact prompt_run h.sound (by simp [Prompt, h.asks]) hontime hrun

/-- A hint and one that puts its ask off; a command holds the send lock when the ask is stamped;
hints come while the ask waits for the lock and after it is written. -/
def burst : List Event :=
  [⟨10, .hint .push⟩, ⟨101 / 10, .turn 0⟩, ⟨105 / 10, .hint .ply⟩, ⟨109 / 10, .sends false⟩,
    ⟨11, .turn 0⟩, ⟨1105 / 100, .hint .mut⟩, ⟨111 / 10, .drains 1⟩, ⟨1115 / 100, .takesLock 0⟩,
    ⟨113 / 10, .paced 0⟩, ⟨1135 / 100, .hint .plm⟩, ⟨114 / 10, .drains 0⟩, ⟨1145 / 100, .callback 0⟩,
    ⟨115 / 10, .turn 2⟩, ⟨12, .turn 2⟩, ⟨121 / 10, .drains 2⟩, ⟨1215 / 100, .callback 2⟩]

theorem burst_answered_twice : ∃ s, execute step {} burst = some s ∧
    s.asks = [⟨10, 0, 11⟩, ⟨1145 / 100, 11, 12⟩] ∧ s.unanswered = false ∧
    (∀ a ∈ s.asks, a.previous + pinfgetMinGapS ≤ a.stamp) ∧
    ∀ a ∈ s.asks, a.stamp ≤ max (a.hint + pinfgetMaxWaitS) (a.previous + pinfgetMinGapS) := by
  have hrun : (execute step {} burst).map (fun s => (s.calls, s.asks)) =
      some ([⟨.scheduled 10, .cleared⟩, ⟨.other, .done⟩, ⟨.scheduled (1145 / 100), .cleared⟩],
        [⟨10, 0, 11⟩, ⟨1145 / 100, 11, 12⟩]) := by decide +kernel
  have hontime : Along step OnTime {} burst := by decide +kernel
  obtain ⟨s, hs, hseen⟩ := Option.map_eq_some_iff.mp hrun
  obtain ⟨hcalls, hasks⟩ := Prod.mk.inj hseen
  have hconnected : Connected {} := ⟨rfl, rfl, le_rfl, rfl, rfl⟩
  obtain ⟨_, hanswered, hgap, hprompt⟩ := hints_answered hconnected hs
  refine ⟨s, hs, hasks, hanswered fun i hint stage hi => ?_, hgap, hprompt hontime⟩
  rw [hcalls] at hi
  match i with
  | 0 | 2 =>
    obtain ⟨_, hst⟩ : _ ∧ Stage.cleared = stage := by simpa using hi
    exact hst.symm
  | 1 => simp at hi
  | i + 3 => simp at hi

end PiHub.StatusRequests

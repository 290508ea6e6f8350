import PiHub.Transition

/-! `power_on` of the Samsung TV (samsung_tv.py): its callers, the workers of an attempt and the
one KEY_0, among presence changes and the other users of the websocket. There is a session. -/
namespace PiHub.PowerOn
open PiHub.Transition

/-- The number of POWER_ON_DIRECT_CHECKS_S. -/
def directChecks : Nat := 2

inductive Wol where
  | created
  | sleeping
  | done
  deriving DecidableEq

inductive Key where
  | created
  | connecting
  | locking
  | sending
  | sleeping
  | done
  deriving DecidableEq

/-- `sleeping` and `probing` have the number of the check. -/
inductive Check where
  | created
  | sleeping (n : Nat)
  | probing (n : Nat)
  | done
  deriving DecidableEq

inductive Worker where
  | wol
  | key
  | check
  deriving DecidableEq

/-- The variables of the call that its workers share, and where these are. -/
structure Attempt where
  id : Nat
  stop : Bool := false
  keySent : Bool := false
  wol : Wol := .created
  key : Key := .created
  check : Check := .created
  deriving DecidableEq

def Attempt.finished (a : Attempt) : Bool := a.wol = .done && a.key = .done && a.check = .done

inductive Outcome where
  | returned (on : Bool)
  | cancelled
  deriving DecidableEq

/-- A call waits for presence, beside an attempt or with its own; then its workers are gathered,
which a cancellation interrupts, and the websocket is connected. -/
inductive Stage where
  | waiting
  | running
  | gathering (outcome : Outcome) (interrupted : Bool)
  | connecting (outcome : Outcome)
  | ended (outcome : Outcome)
  deriving DecidableEq

/-- In `_wait_for_presence_true`. -/
def Stage.waits : Stage → Bool
  | .waiting | .running => true
  | _ => false

/-- In its attempt. -/
def Stage.attempts : Stage → Bool
  | .running | .gathering _ _ | .connecting _ => true
  | _ => false

def Stage.isEnded : Stage → Bool
  | .ended _ => true
  | _ => false

/-- A call; `since` is how often the event had been set as it began to wait. -/
structure Call where
  stage : Stage
  since : Nat := 0
  attempt : Option Attempt := none
  deriving DecidableEq

/-- The controller. `eventSets` counts what wakes the waiters, each of them once the event has been
set in its wait; `keys`, which is ghost, has the calls that have passed KEY_0 to `send_key`. -/
structure TvController where
  presenceCached : Option Bool := none
  presenceSource : String := "unknown"
  presenceOnEvent : Bool := false
  eventSets : Nat := 0
  powerOnActive : Bool := false
  powerOnKeyLock : Option Nat := none
  powerOnAttemptId : Nat := 0
  wsConnected : Bool := false
  calls : List Call := []
  keys : List Nat := []
  deriving DecidableEq

/-- What a turn of the key worker comes to: where it suspends, the lock, whether it sends. -/
structure KeyTurn where
  stage : Key
  lock : Option Nat
  sends : Bool := false

namespace TvController

/-- `self._presence_cached is True`. -/
def on (tv : TvController) : Bool := tv.presenceCached = some true

def setEvent (tv : TvController) (on : Bool) : TvController :=
  { tv with presenceOnEvent := on, eventSets := if on then tv.eventSets + 1 else tv.eventSets }

def commitPresence (tv : TvController) (on : Bool) (source : String) : TvController :=
  if tv.presenceCached = some on then tv.setEvent on
  else { tv with presenceCached := some on, presenceSource := source }.setEvent on

def join (tv : TvController) (c : Call) : TvController := { tv with calls := tv.calls ++ [c] }

/-- `power_on` up to its first pause. -/
def powerOn (tv : TvController) : TvController :=
  if tv.on then (tv.setEvent true).join { stage := .ended (.returned true) }
  else if tv.powerOnActive then tv.join { stage := .waiting, since := tv.eventSets }
  else
    { tv with powerOnActive := true, powerOnAttemptId := tv.powerOnAttemptId + 1 }.join
      { stage := .running, since := tv.eventSets, attempt := some { id := tv.powerOnAttemptId + 1 } }

def setCall (tv : TvController) (i : Nat) (c : Call) : TvController :=
  { tv with calls := tv.calls.set i c }

/-- The wait for presence is over: the workers are stopped. -/
def waitEnds (tv : TvController) (i : Nat) (c : Call) (outcome : Outcome) : TvController :=
  match c.attempt with
  | none => tv.setCall i { c with stage := .ended outcome }
  | some a =>
    tv.setCall i { c with stage := .gathering outcome false, attempt := some { a with stop := true } }

/-- The outer `finally`. -/
def finish (tv : TvController) (i : Nat) (c : Call) (outcome : Outcome) : TvController :=
  { tv with powerOnActive := false }.setCall i { c with stage := .ended outcome }

def cancel (tv : TvController) (i : Nat) (c : Call) : TvController :=
  match c.stage with
  | .gathering outcome _ => tv.setCall i { c with stage := .gathering outcome true }
  | .connecting _ => tv.finish i c .cancelled
  | _ => tv.waitEnds i c .cancelled

/-- The workers have all finished. -/
def gathered (tv : TvController) (i : Nat) (c : Call) (outcome : Outcome) (interrupted : Bool) :
    TvController :=
  if interrupted then tv.finish i c .cancelled
  else if tv.on then tv.setCall i { c with stage := .connecting outcome }
  else tv.finish i c outcome

/-! ### The workers -/

def work (tv : TvController) (i : Nat) (c : Call) (a : Attempt) : TvController :=
  tv.setCall i { c with attempt := some a }

def wolTurn (tv : TvController) (a : Attempt) : Wol := if a.stop || tv.on then .done else .sleeping

/-- Under the lock, immediately before sending. -/
def keyGuard (tv : TvController) (i : Nat) (a : Attempt) : KeyTurn :=
  if a.id ≠ tv.powerOnAttemptId then { stage := .done, lock := none }
  else if a.keySent then { stage := .done, lock := none }
  else if a.stop || tv.on then { stage := .done, lock := none }
  else { stage := .sending, lock := some i, sends := true }

def keyConnected (tv : TvController) (i : Nat) (a : Attempt) (wsConnected : Bool) : KeyTurn :=
  if a.stop || tv.on then { stage := .done, lock := tv.powerOnKeyLock }
  else if wsConnected then
    if tv.powerOnKeyLock = none then tv.keyGuard i a
    else { stage := .locking, lock := tv.powerOnKeyLock }
  else { stage := .sleeping, lock := tv.powerOnKeyLock }

/-- The head of `key_worker`'s loop. -/
def keyHead (tv : TvController) (i : Nat) (a : Attempt) : KeyTurn :=
  if a.stop || tv.on then { stage := .done, lock := tv.powerOnKeyLock }
  else if tv.wsConnected then tv.keyConnected i a true
  else { stage := .connecting, lock := tv.powerOnKeyLock }

def keyTurn (tv : TvController) (i : Nat) (c : Call) (a : Attempt) (t : KeyTurn) : TvController :=
  { tv with
    powerOnKeyLock := t.lock
    keys := if t.sends then tv.keys ++ [i] else tv.keys }.work i c
      { a with key := t.stage, keySent := a.keySent || t.sends }

/-- The head of `direct_check_worker`'s loop; `late` says that the moment has passed. -/
def checkHead (tv : TvController) (a : Attempt) (n : Nat) (late : Bool) : Check :=
  if n ≥ directChecks then .done
  else if !late then .sleeping n
  else if a.stop || tv.on then .done
  else .probing n

/-- A cancelled worker ends. -/
def workerEnds (tv : TvController) (i : Nat) (c : Call) (a : Attempt) : Worker → TvController
  | .wol => tv.work i c { a with wol := .done }
  | .key =>
    tv.keyTurn i c a
      { stage := .done, lock := if a.key = .sending then none else tv.powerOnKeyLock }
  | .check => tv.work i c { a with check := .done }

/-- The workers of call `i`, if that is where they are. -/
def workers (tv : TvController) (i : Nat) (where_ : Attempt → Bool) : Option (Call × Attempt) :=
  tv.calls[i]?.bind fun c => (c.attempt.filter where_).map fun a => (c, a)

end TvController

/-- Calls, presence as other coroutines commit it, the other users of the websocket, what the waits
of a call come to, and the turns of its workers. A result of `none` is an exception. -/
inductive Event where
  | powerOn
  | commits (on : Bool) (source : String)
  | socket (connected : Bool)
  | wakes (i : Nat)
  | timesOut (i : Nat)
  | cancelled (i : Nat)
  | wolTurn (i : Nat)
  | keyTurn (i : Nat)
  | keyConnects (i : Nat) (result : Option Bool)
  | keyLocks (i : Nat)
  | keySends (i : Nat) (result : Option Bool)
  | checkTurn (i : Nat)
  | checkProbes (i : Nat) (result : Option Bool) (late : Bool)
  | workerEnds (i : Nat) (w : Worker)
  | gathers (i : Nat)
  | connects (i : Nat) (result : Option Bool)
  deriving DecidableEq

def Attempt.runs (a : Attempt) : Worker → Bool
  | .wol => a.wol ≠ .done
  | .key => a.key ≠ .done
  | .check => a.check ≠ .done

def step (tv : TvController) : Event → Option TvController
  | .powerOn => some tv.powerOn
  | .commits on source => some (tv.commitPresence on source)
  | .socket connected => some { tv with wsConnected := connected }
  | .wakes i =>
    (tv.calls[i]?.filter fun c => c.stage.waits && c.since < tv.eventSets).map fun c =>
      tv.waitEnds i c (.returned tv.on)
  | .timesOut i => (tv.calls[i]?.filter (·.stage.waits)).map fun c =>
    tv.waitEnds i c (.returned false)
  | .cancelled i => (tv.calls[i]?.filter (!·.stage.isEnded)).map fun c => tv.cancel i c
  | .wolTurn i => (tv.workers i (·.runs .wol)).map fun (c, a) =>
    tv.work i c { a with wol := tv.wolTurn a }
  | .keyTurn i => (tv.workers i fun a => a.key = .created || a.key = .sleeping).map fun (c, a) =>
    tv.keyTurn i c a (tv.keyHead i a)
  | .keyConnects i result => (tv.workers i (·.key = .connecting)).map fun (c, a) =>
    match result with
    | none => tv.keyTurn i c a { stage := .sleeping, lock := tv.powerOnKeyLock }
    | some ok => { tv with wsConnected := ok }.keyTurn i c a (tv.keyConnected i a ok)
  | .keyLocks i =>
    if tv.powerOnKeyLock = none then
      (tv.workers i (·.key = .locking)).map fun (c, a) => tv.keyTurn i c a (tv.keyGuard i a)
    else none
  | .keySends i result => (tv.workers i (·.key = .sending)).map fun (c, a) =>
    { tv with wsConnected := tv.wsConnected && result.getD true }.keyTurn i c a
      { stage := if result.isSome then .done else .sleeping, lock := none }
  | .checkTurn i => (tv.workers i (·.runs .check)).bind fun (c, a) =>
    match a.check with
    | .created => some (tv.work i c { a with check := tv.checkHead a 0 false })
    | .sleeping n => some (tv.work i c { a with check := tv.checkHead a n true })
    | _ => none
  | .checkProbes i result late => (tv.workers i (·.runs .check)).bind fun (c, a) =>
    match a.check with
    | .probing n =>
      if result = some true then
        some ((tv.commitPresence true "probe_http_up").work i c { a with check := .done })
      else some (tv.work i c { a with check := tv.checkHead a (n + 1) late })
    | _ => none
  | .workerEnds i w => (tv.workers i fun a => a.stop && a.runs w).map fun (c, a) =>
    tv.workerEnds i c a w
  | .gathers i => (tv.calls[i]?.filter fun c => c.attempt.all (·.finished)).bind fun c =>
    match c.stage with
    | .gathering outcome interrupted => some (tv.gathered i c outcome interrupted)
    | _ => none
  | .connects i result => tv.calls[i]?.bind fun c =>
    match c.stage with
    | .connecting outcome => some ({ tv with wsConnected := result.getD tv.wsConnected }.finish i c outcome)
    | _ => none

/-! ### What a step does -/

/-- `_presence_on_event` agrees with presence. -/
def Aligned (tv : TvController) : Prop := tv.presenceOnEvent = tv.on

def Call.keySent (c : Call) : Bool := c.attempt.any (·.keySent)

/-- Some worker of the call has not finished. -/
def Call.busy (c : Call) : Bool := c.attempt.any (!·.finished)

/-- A call without an attempt waits for another's or has ended; with one, it does not go on before
its workers have finished. -/
structure Sane (c : Call) : Prop where
  beside : c.attempt = none → c.stage.attempts = false
  own : c.attempt.isSome → c.stage ≠ .waiting
  gathered : c.busy = true → c.stage = .running ∨ ∃ outcome interrupted, c.stage = .gathering outcome interrupted

/-- Call `i` moves from `c` to `d`: within its attempt or out of it, which clears
`_power_on_active`, and with at most the first KEY_0 of the attempt. -/
structure Moves (tv tv' : TvController) (i : Nat) (c d : Call) : Prop where
  calls : tv'.calls = tv.calls.set i d
  sane : Sane d
  active : (d.stage.attempts = c.stage.attempts ∧ tv'.powerOnActive = tv.powerOnActive) ∨
    (c.stage.attempts = true ∧ d.stage.attempts = false ∧ tv'.powerOnActive = false)
  keys : (tv'.keys = tv.keys ∧ (c.keySent = true → d.keySent = true)) ∨
    (tv'.keys = tv.keys ++ [i] ∧ c.keySent = false ∧ d.keySent = true)
  aligned : Aligned tv → Aligned tv'

inductive Effect (tv tv' : TvController) : Prop
  | around : tv'.calls = tv.calls → tv'.powerOnActive = tv.powerOnActive → tv'.keys = tv.keys →
      (Aligned tv → Aligned tv') → Effect tv tv'
  | joins (c : Call) : tv'.calls = tv.calls ++ [c] → Sane c →
      (c.stage.attempts = false ∧ tv'.powerOnActive = tv.powerOnActive ∨
        c.stage.attempts = true ∧ tv.powerOnActive = false ∧ tv'.powerOnActive = true) →
      tv'.keys = tv.keys → (Aligned tv → Aligned tv') → Effect tv tv'
  | moves (i : Nat) (c d : Call) : tv.calls[i]? = some c → Moves tv tv' i c d → Effect tv tv'

theorem aligned_commit (tv : TvController) (on : Bool) (source : String) :
    Aligned (tv.commitPresence on source) := by
  unfold Aligned TvController.commitPresence
  split
  case isTrue h => cases on <;> simp [TvController.setEvent, TvController.on, h]
  case isFalse h => cases on <;> simp [TvController.setEvent, TvController.on]

theorem commit_keeps (tv : TvController) (on : Bool) (source : String) :
    (tv.commitPresence on source).calls = tv.calls ∧
      (tv.commitPresence on source).powerOnActive = tv.powerOnActive ∧
      (tv.commitPresence on source).keys = tv.keys := by
  unfold TvController.commitPresence
  split
  · exact ⟨rfl, rfl, rfl⟩
  · exact ⟨rfl, rfl, rfl⟩

theorem effect_powerOn (tv : TvController) : Effect tv tv.powerOn := by
  unfold TvController.powerOn
  split
  case isTrue hon =>
    refine .joins _ rfl ⟨fun _ => rfl, nofun, nofun⟩ (Or.inl ⟨rfl, rfl⟩) rfl fun _ => ?_
    exact hon.symm
  case isFalse hoff =>
    split
    case isTrue => exact .joins _ rfl ⟨fun _ => rfl, nofun, nofun⟩ (Or.inl ⟨rfl, rfl⟩) rfl id
    case isFalse hactive =>
      refine .joins _ rfl ⟨nofun, fun _ => nofun, fun _ => Or.inl rfl⟩
        (Or.inr ⟨rfl, Bool.eq_false_iff.mpr hactive, rfl⟩) rfl id

theorem moves_setCall {tv : TvController} {i : Nat} {c d : Call} (hsane : Sane d)
    (hactive : d.stage.attempts = c.stage.attempts) (hkey : c.keySent = true → d.keySent = true) :
    Moves tv (tv.setCall i d) i c d :=
  ⟨rfl, hsane, Or.inl ⟨hactive, rfl⟩, Or.inl ⟨rfl, hkey⟩, id⟩

/-- A call leaves its wait. -/
theorem moves_waitEnds (tv : TvController) (i : Nat) {c : Call} (h : Sane c)
    (hwaits : c.stage.waits = true) (outcome : Outcome) : ∃ d, Moves tv (tv.waitEnds i c outcome) i c d := by
  unfold TvController.waitEnds
  cases hattempt : c.attempt with
  | none =>
    refine ⟨_, moves_setCall ⟨fun _ => rfl, fun _ => nofun, fun hbusy => ?_⟩ (h.beside hattempt).symm ?_⟩
    · simp [Call.busy] at hbusy
    · simp [Call.keySent, hattempt]
  | some a =>
    have hrunning : c.stage.attempts = true := by
      have hown := h.own (by rw [hattempt]; rfl)
      cases hstage : c.stage with
      | waiting => exact absurd hstage hown
      | running => rfl
      | _ => simp [hstage, Stage.waits] at hwaits
    refine ⟨_, moves_setCall ⟨nofun, fun _ => nofun, fun _ => Or.inr ⟨_, _, rfl⟩⟩ hrunning.symm ?_⟩
    simp [Call.keySent, hattempt]

/-- A call whose workers have finished ends. -/
theorem moves_finish (tv : TvController) (i : Nat) {c : Call} (hattempts : c.stage.attempts = true)
    (hidle : c.busy = false) (outcome : Outcome) : ∃ d, Moves tv (tv.finish i c outcome) i c d := by
  refine ⟨_, rfl, ⟨fun _ => rfl, fun _ => nofun, fun hbusy => ?_⟩, Or.inr ⟨hattempts, rfl, rfl⟩,
    Or.inl ⟨rfl, id⟩, id⟩
  exact absurd (hidle.symm.trans hbusy) Bool.false_ne_true

theorem moves_cancel (tv : TvController) (i : Nat) {c : Call} (h : Sane c)
    (hrunning : c.stage.isEnded = false) : ∃ d, Moves tv (tv.cancel i c) i c d := by
  unfold TvController.cancel
  cases hstage : c.stage with
  | waiting | running => exact moves_waitEnds tv i h (by rw [hstage]; rfl) .cancelled
  | gathering outcome interrupted =>
    have hattempts : c.stage.attempts = true := by rw [hstage]; rfl
    refine ⟨_, moves_setCall ⟨fun hnone => ?_, fun _ => nofun, fun _ => Or.inr ⟨_, _, rfl⟩⟩
      hattempts.symm id⟩
    exact absurd ((h.beside hnone).symm.trans hattempts) Bool.false_ne_true
  | connecting outcome =>
    refine moves_finish tv i (by rw [hstage]; rfl) (Bool.eq_false_iff.mpr fun hbusy => ?_) .cancelled
    obtain heq | ⟨_, _, heq⟩ := h.gathered hbusy <;> simp [hstage] at heq
  | ended outcome => simp [hstage, Stage.isEnded] at hrunning

theorem moves_gathered (tv : TvController) (i : Nat) {c : Call} (h : Sane c)
    (hattempts : c.stage.attempts = true) (hidle : c.busy = false) (outcome : Outcome)
    (interrupted : Bool) : ∃ d, Moves tv (tv.gathered i c outcome interrupted) i c d := by
  unfold TvController.gathered
  split
  · exact moves_finish tv i hattempts hidle .cancelled
  · split
    · refine ⟨_, moves_setCall ⟨fun hnone => ?_, fun _ => nofun, fun hbusy => ?_⟩ hattempts.symm id⟩
      · exact absurd ((h.beside hnone).symm.trans hattempts) Bool.false_ne_true
      · exact absurd (hidle.symm.trans hbusy) Bool.false_ne_true
    · exact moves_finish tv i hattempts hidle outcome

/-- A worker that has not finished takes a turn. -/
theorem sane_work {c : Call} {a : Attempt} (h : Sane c) (hattempt : c.attempt = some a)
    (hruns : a.finished = false) (a' : Attempt) : Sane { c with attempt := some a' } := by
  refine ⟨nofun, fun _ => h.own (by rw [hattempt]; rfl), fun _ => h.gathered ?_⟩
  simp [Call.busy, hattempt, hruns]

theorem moves_work {tv : TvController} {i : Nat} {c : Call} {a a' : Attempt} (h : Sane c)
    (hattempt : c.attempt = some a) (hruns : a.finished = false) (hkey : a'.keySent = a.keySent) :
    Moves tv (tv.work i c a') i c { c with attempt := some a' } :=
  moves_setCall (sane_work h hattempt hruns a') rfl (by simp [Call.keySent, hattempt, hkey])

theorem moves_keyTurn {tv : TvController} {i : Nat} {c : Call} {a : Attempt} (h : Sane c)
    (hattempt : c.attempt = some a) (hruns : a.finished = false) {t : KeyTurn}
    (hsends : t.sends = true → a.keySent = false) : ∃ d, Moves tv (tv.keyTurn i c a t) i c d := by
  refine ⟨_, rfl, sane_work h hattempt hruns _, Or.inl ⟨rfl, rfl⟩, ?_, id⟩
  unfold TvController.keyTurn Call.keySent
  cases hsend : t.sends with
  | false => exact Or.inl ⟨rfl, by simp [hattempt]⟩
  | true => exact Or.inr ⟨rfl, by simp [hattempt, hsends hsend], by simp⟩

/-- `send_key` is called only where `key_sent` is not set. -/
theorem keyGuard_sends {tv : TvController} {i : Nat} {a : Attempt}
    (h : (tv.keyGuard i a).sends = true) : a.keySent = false := by
  unfold TvController.keyGuard at h
  split at h
  · cases h
  · split at h
    · cases h
    · exact Bool.eq_false_iff.mpr ‹_›

theorem keyConnected_sends {tv : TvController} {i : Nat} {a : Attempt} {wsConnected : Bool}
    (h : (tv.keyConnected i a wsConnected).sends = true) : a.keySent = false := by
  unfold TvController.keyConnected at h
  split at h
  · cases h
  · split at h
    · split at h
      · exact keyGuard_sends h
      · cases h
    · cases h

theorem keyHead_sends {tv : TvController} {i : Nat} {a : Attempt}
    (h : (tv.keyHead i a).sends = true) : a.keySent = false := by
  unfold TvController.keyHead at h
  split at h
  · cases h
  · split at h
    · exact keyConnected_sends h
    · cases h

theorem workers_eq {tv : TvController} {i : Nat} {p : Attempt → Bool} {c : Call} {a : Attempt}
    (h : tv.workers i p = some (c, a)) :
    tv.calls[i]? = some c ∧ c.attempt = some a ∧ p a = true := by
  obtain ⟨d, hd, hrest⟩ := Option.bind_eq_some_iff.mp h
  obtain ⟨b, hb, heq⟩ := Option.map_eq_some_iff.mp hrest
  obtain ⟨rfl, rfl⟩ := Prod.mk.inj heq
  obtain ⟨hattempt, hp⟩ := Option.filter_eq_some_iff.mp hb
  exact ⟨hd, hattempt, hp⟩

theorem turn_eq {tv tv' : TvController} {i : Nat} {p : Attempt → Bool}
    {f : Call × Attempt → TvController} (h : (tv.workers i p).map f = some tv') :
    ∃ c a, tv.calls[i]? = some c ∧ c.attempt = some a ∧ p a = true ∧ f (c, a) = tv' := by
  obtain ⟨⟨c, a⟩, hworkers, hf⟩ := Option.map_eq_some_iff.mp h
  obtain ⟨hc, hattempt, hp⟩ := workers_eq hworkers
  exact ⟨c, a, hc, hattempt, hp, hf⟩

theorem unfinished_of_key {a : Attempt} {k : Key} (h : a.key = k) (hk : k ≠ .done) :
    a.finished = false := by
  simp [Attempt.finished, h, hk]

theorem unfinished_of_runs {a : Attempt} {w : Worker} (h : a.runs w = true) : a.finished = false := by
  cases w <;> simp_all [Attempt.runs, Attempt.finished]

/-- What another use of the controller changes beside the calls is no matter to a move. -/
theorem Moves.after {tv u tv' : TvController} {i : Nat} {c d : Call} (h : Moves u tv' i c d)
    (hcalls : u.calls = tv.calls) (hactive : u.powerOnActive = tv.powerOnActive)
    (hkeys : u.keys = tv.keys) (haligned : Aligned tv → Aligned u) : Moves tv tv' i c d :=
  ⟨hcalls ▸ h.calls, h.sane, hactive ▸ h.active, hkeys ▸ h.keys, h.aligned ∘ haligned⟩

theorem effect_of_moves {tv tv' : TvController} {i : Nat} {c : Call} (hc : tv.calls[i]? = some c)
    (h : ∃ d, Moves tv tv' i c d) : Effect tv tv' := by
  obtain ⟨d, hd⟩ := h
  exact .moves i c d hc hd

/-- A turn of the key worker, after what it has learned of the websocket. -/
theorem effect_keyTurn {tv : TvController} {i : Nat} {c : Call} {a : Attempt} (h : Sane c)
    (hc : tv.calls[i]? = some c) (hattempt : c.attempt = some a) {k : Key} (hk : a.key = k)
    (hruns : k ≠ .done) (wsConnected : Bool) {t : KeyTurn} (hsends : t.sends = true → a.keySent = false) :
    Effect tv ({ tv with wsConnected := wsConnected }.keyTurn i c a t) := by
  have hmoves : ∃ d, Moves { tv with wsConnected := wsConnected }
      ({ tv with wsConnected := wsConnected }.keyTurn i c a t) i c d :=
    moves_keyTurn h hattempt (unfinished_of_key hk hruns) hsends
  obtain ⟨d, hd⟩ := hmoves
  exact .moves i c d hc (hd.after rfl rfl rfl id)

theorem step_effect {tv tv' : TvController} {ev : Event} (hsane : ∀ c ∈ tv.calls, Sane c)
    (hstep : step tv ev = some tv') : Effect tv tv' := by
  have sane {i : Nat} {c : Call} (hc : tv.calls[i]? = some c) : Sane c :=
    hsane c (List.mem_of_getElem? hc)
  cases ev with
  | powerOn =>
    obtain rfl := Option.some.inj hstep
    exact effect_powerOn tv
  | commits on source =>
    obtain rfl := Option.some.inj hstep
    obtain ⟨hcalls, hactive, hkeys⟩ := commit_keeps tv on source
    exact .around hcalls hactive hkeys fun _ => aligned_commit tv on source
  | socket connected =>
    obtain rfl := Option.some.inj hstep
    exact .around rfl rfl rfl id
  | wakes i =>
    obtain ⟨c, hfilter, rfl⟩ := Option.map_eq_some_iff.mp hstep
    obtain ⟨hc, hp⟩ := Option.filter_eq_some_iff.mp hfilter
    refine effect_of_moves hc (moves_waitEnds tv i (sane hc) ?_ _)
    exact (Bool.and_eq_true_iff.mp hp).1
  | timesOut i =>
    obtain ⟨c, hfilter, rfl⟩ := Option.map_eq_some_iff.mp hstep
    obtain ⟨hc, hwaits⟩ := Option.filter_eq_some_iff.mp hfilter
    exact effect_of_moves hc (moves_waitEnds tv i (sane hc) hwaits _)
  | cancelled i =>
    obtain ⟨c, hfilter, rfl⟩ := Option.map_eq_some_iff.mp hstep
    obtain ⟨hc, hrunning⟩ := Option.filter_eq_some_iff.mp hfilter
    refine effect_of_moves hc (moves_cancel tv i (sane hc) ?_)
    simpa using hrunning
  | wolTurn i =>
    obtain ⟨c, a, hc, hattempt, hruns, rfl⟩ := turn_eq hstep
    exact .moves i c _ hc (moves_work (sane hc) hattempt (unfinished_of_runs hruns) rfl)
  | keyTurn i =>
    obtain ⟨c, a, hc, hattempt, hat, rfl⟩ := turn_eq hstep
    have hruns : a.finished = false := by
      obtain hkey | hkey := Bool.or_eq_true_iff.mp hat
      · exact unfinished_of_key (of_decide_eq_true hkey) nofun
      · exact unfinished_of_key (of_decide_eq_true hkey) nofun
    exact effect_of_moves hc (moves_keyTurn (sane hc) hattempt hruns keyHead_sends)
  | keyConnects i result =>
    obtain ⟨c, a, hc, hattempt, hkey, rfl⟩ := turn_eq hstep
    have hat : a.key = .connecting := of_decide_eq_true hkey
    cases result with
    | none => exact effect_keyTurn (sane hc) hc hattempt hat nofun tv.wsConnected nofun
    | some ok => exact effect_keyTurn (sane hc) hc hattempt hat nofun ok keyConnected_sends
  | keyLocks i =>
    obtain ⟨-, hmap⟩ := Option.ite_none_right_eq_some.mp hstep
    obtain ⟨c, a, hc, hattempt, hkey, rfl⟩ := turn_eq hmap
    exact effect_keyTurn (sane hc) hc hattempt (of_decide_eq_true hkey) nofun tv.wsConnected
      keyGuard_sends
  | keySends i result =>
    obtain ⟨c, a, hc, hattempt, hkey, rfl⟩ := turn_eq hstep
    exact effect_keyTurn (sane hc) hc hattempt (of_decide_eq_true hkey) nofun _ nofun
  | checkTurn i =>
    obtain ⟨⟨c, a⟩, hworkers, hmatch⟩ := Option.bind_eq_some_iff.mp hstep
    obtain ⟨hc, hattempt, hruns⟩ := workers_eq hworkers
    cases hcheck : a.check with
    | created =>
      simp only [hcheck, Option.some.injEq] at hmatch
      exact hmatch ▸ .moves i c _ hc (moves_work (sane hc) hattempt (unfinished_of_runs hruns) rfl)
    | sleeping n =>
      simp only [hcheck, Option.some.injEq] at hmatch
      exact hmatch ▸ .moves i c _ hc (moves_work (sane hc) hattempt (unfinished_of_runs hruns) rfl)
    | _ => simp [hcheck] at hmatch
  | checkProbes i result late =>
    obtain ⟨⟨c, a⟩, hworkers, hmatch⟩ := Option.bind_eq_some_iff.mp hstep
    obtain ⟨hc, hattempt, hruns⟩ := workers_eq hworkers
    cases hcheck : a.check with
    | probing n =>
      simp only [hcheck] at hmatch
      split at hmatch
      · obtain rfl := Option.some.inj hmatch
        obtain ⟨hcalls, hactive, hkeys⟩ := commit_keeps tv true "probe_http_up"
        have hwork : Moves (tv.commitPresence true "probe_http_up")
            ((tv.commitPresence true "probe_http_up").work i c { a with check := .done }) i c
            { c with attempt := some { a with check := .done } } :=
          moves_work (sane hc) hattempt (unfinished_of_runs hruns) rfl
        exact .moves i c _ hc (hwork.after hcalls hactive hkeys fun _ =>
          aligned_commit tv true "probe_http_up")
      · obtain rfl := Option.some.inj hmatch
        exact .moves i c _ hc (moves_work (sane hc) hattempt (unfinished_of_runs hruns) rfl)
    | _ => simp [hcheck] at hmatch
  | workerEnds i w =>
    obtain ⟨c, a, hc, hattempt, hp, rfl⟩ := turn_eq hstep
    have hruns := unfinished_of_runs (Bool.and_eq_true_iff.mp hp).2
    cases w with
    | wol => exact .moves i c _ hc (moves_work (sane hc) hattempt hruns rfl)
    | key => exact effect_of_moves hc (moves_keyTurn (sane hc) hattempt hruns nofun)
    | check => exact .moves i c _ hc (moves_work (sane hc) hattempt hruns rfl)
  | gathers i =>
    obtain ⟨c, hfilter, hmatch⟩ := Option.bind_eq_some_iff.mp hstep
    obtain ⟨hc, hfinished⟩ := Option.filter_eq_some_iff.mp hfilter
    have hidle : c.busy = false := by
      unfold Call.busy
      cases hattempt : c.attempt with
      | none => rfl
      | some a => simpa [hattempt] using hfinished
    cases hstage : c.stage with
    | gathering outcome interrupted =>
      simp only [hstage, Option.some.injEq] at hmatch
      exact hmatch ▸ effect_of_moves hc (moves_gathered tv i (sane hc)
        (by rw [hstage]; rfl) hidle outcome interrupted)
    | _ => simp [hstage] at hmatch
  | connects i result =>
    obtain ⟨c, hc, hmatch⟩ := Option.bind_eq_some_iff.mp hstep
    cases hstage : c.stage with
    | connecting outcome =>
      simp only [hstage, Option.some.injEq] at hmatch
      have hidle : c.busy = false := Bool.eq_false_iff.mpr fun hbusy => by
        obtain heq | ⟨_, _, heq⟩ := (sane hc).gathered hbusy <;> simp [hstage] at heq
      obtain ⟨d, hd⟩ := moves_finish { tv with wsConnected := result.getD tv.wsConnected } i
        (by rw [hstage]; rfl) hidle outcome
      exact hmatch ▸ .moves i c d hc (hd.after rfl rfl rfl id)
    | _ => simp [hstage] at hmatch

/-! ### One key for each attempt -/

structure Single (tv : TvController) : Prop where
  aligned : Aligned tv
  sane : ∀ c ∈ tv.calls, Sane c
  active : ∀ (i : Nat) (c : Call), tv.calls[i]? = some c → c.stage.attempts = true →
    tv.powerOnActive = true
  one : ∀ (i j : Nat) (c d : Call), tv.calls[i]? = some c → tv.calls[j]? = some d →
    c.stage.attempts = true → d.stage.attempts = true → i = j
  owner : tv.powerOnActive = true → ∃ (i : Nat) (c : Call), tv.calls[i]? = some c ∧
    c.stage.attempts = true
  keys : ∀ i, tv.keys.count i ≤ 1
  sent : ∀ i ∈ tv.keys, ∃ c : Call, tv.calls[i]? = some c ∧ c.keySent = true

theorem single_init : Single {} := by
  refine ⟨rfl, fun c hc => absurd hc List.not_mem_nil, fun i c hc => ?_, fun i _ c _ hc => ?_,
    fun hon => ?_, fun _ => Nat.zero_le 1, fun i hi => absurd hi List.not_mem_nil⟩
  · simp at hc
  · simp at hc
  · exact absurd hon Bool.false_ne_true

/-- A call has joined. -/
theorem single_joins {tv tv' : TvController} {c : Call} (h : Single tv)
    (hcalls : tv'.calls = tv.calls ++ [c]) (hsane : Sane c)
    (hactive : c.stage.attempts = false ∧ tv'.powerOnActive = tv.powerOnActive ∨
      c.stage.attempts = true ∧ tv.powerOnActive = false ∧ tv'.powerOnActive = true)
    (hkeys : tv'.keys = tv.keys) (haligned : Aligned tv') : Single tv' := by
  have hat : ∀ (i : Nat) (d : Call), tv'.calls[i]? = some d →
      (i = tv.calls.length ∧ d = c) ∨ tv.calls[i]? = some d :=
    fun i d hd => at_concat (by rwa [← hcalls])
  have hkept : ∀ (i : Nat) (d : Call), tv.calls[i]? = some d → tv'.calls[i]? = some d := by
    intro i d hd
    rw [hcalls]
    exact concat_at hd c
  -- an attempt begins only when no other call is in one
  have halone : c.stage.attempts = true → ∀ (i : Nat) (d : Call), tv.calls[i]? = some d →
      d.stage.attempts = false := by
    intro hnew i d hd
    refine Bool.eq_false_iff.mpr fun hattempts => ?_
    obtain ⟨hnot, -⟩ | ⟨-, hoff, -⟩ := hactive
    · exact absurd (hnot.symm.trans hnew) Bool.false_ne_true
    · exact absurd (hoff.symm.trans (h.active i d hd hattempts)) Bool.false_ne_true
  refine ⟨haligned, fun d hd => ?_, fun i d hd hattempts => ?_, fun i j d e hd he hdi hej => ?_,
    fun hon => ?_, fun i => ?_, fun i hi => ?_⟩
  · rw [hcalls] at hd
    obtain hd | hd := List.mem_append.mp hd
    · exact h.sane d hd
    · rwa [List.mem_singleton.mp hd]
  · obtain ⟨hnot, hsame⟩ | ⟨-, -, hon⟩ := hactive
    · rw [hsame]
      obtain ⟨-, rfl⟩ | hd := hat i d hd
      · exact absurd (hnot.symm.trans hattempts) Bool.false_ne_true
      · exact h.active i d hd hattempts
    · exact hon
  · obtain ⟨rfl, rfl⟩ | hd := hat i d hd
    · obtain ⟨rfl, -⟩ | he := hat j e he
      · rfl
      · exact absurd ((halone hdi j e he).symm.trans hej) Bool.false_ne_true
    · obtain ⟨-, rfl⟩ | he := hat j e he
      · exact absurd ((halone hej i d hd).symm.trans hdi) Bool.false_ne_true
      · exact h.one i j d e hd he hdi hej
  · obtain ⟨-, hsame⟩ | ⟨hnew, -, -⟩ := hactive
    · rw [hsame] at hon
      obtain ⟨i, d, hd, hattempts⟩ := h.owner hon
      exact ⟨i, d, hkept i d hd, hattempts⟩
    · exact ⟨tv.calls.length, c, by rw [hcalls, List.getElem?_concat_length], hnew⟩
  · rw [hkeys]
    exact h.keys i
  · rw [hkeys] at hi
    obtain ⟨d, hd, hsent⟩ := h.sent i hi
    exact ⟨d, hkept i d hd, hsent⟩

section
variable {tv tv' : TvController} {i : Nat} {c d : Call}

theorem Moves.at (h : Moves tv tv' i c d) {j : Nat} {e : Call} (he : tv'.calls[j]? = some e) :
    (j = i ∧ e = d) ∨ (j ≠ i ∧ tv.calls[j]? = some e) :=
  at_set (by rwa [← h.calls])

theorem Moves.new (h : Moves tv tv' i c d) (hc : tv.calls[i]? = some c) :
    tv'.calls[i]? = some d := by
  rw [h.calls, List.getElem?_set_self (List.getElem?_eq_some_iff.mp hc).1]

theorem Moves.kept (h : Moves tv tv' i c d) {j : Nat} {e : Call} (hj : j ≠ i)
    (he : tv.calls[j]? = some e) : tv'.calls[j]? = some e := by
  rw [h.calls, List.getElem?_set_ne (Ne.symm hj), he]

/-- No call moves into an attempt. -/
theorem Moves.attempting (h : Moves tv tv' i c d) (hd : d.stage.attempts = true) :
    c.stage.attempts = true := by
  obtain ⟨hsame, -⟩ | ⟨hc, -, -⟩ := h.active
  · exact hsame ▸ hd
  · exact hc

theorem Moves.active_kept (hmoves : Moves tv tv' i c d) (h : Single tv)
    (hc : tv.calls[i]? = some c) {j : Nat} {e : Call} (he : tv'.calls[j]? = some e)
    (hattempts : e.stage.attempts = true) : tv'.powerOnActive = true := by
  obtain ⟨-, hsame⟩ | ⟨hin, hout, -⟩ := hmoves.active
  · rw [hsame]
    obtain ⟨-, rfl⟩ | ⟨-, he⟩ := hmoves.at he
    · exact h.active i c hc (hmoves.attempting hattempts)
    · exact h.active j e he hattempts
  · -- the attempt that has ended was the only one
    obtain ⟨-, rfl⟩ | ⟨hji, he⟩ := hmoves.at he
    · exact absurd (hout.symm.trans hattempts) Bool.false_ne_true
    · exact absurd (h.one j i e c he hc hattempts hin) hji

theorem Moves.one_kept (hmoves : Moves tv tv' i c d) (h : Single tv) (hc : tv.calls[i]? = some c)
    {j k : Nat} {e f : Call} (he : tv'.calls[j]? = some e) (hf : tv'.calls[k]? = some f)
    (hej : e.stage.attempts = true) (hfk : f.stage.attempts = true) : j = k := by
  obtain ⟨rfl, rfl⟩ | ⟨-, he⟩ := hmoves.at he
  · obtain ⟨rfl, -⟩ | ⟨-, hf⟩ := hmoves.at hf
    · rfl
    · exact h.one j k c f hc hf (hmoves.attempting hej) hfk
  · obtain ⟨rfl, rfl⟩ | ⟨-, hf⟩ := hmoves.at hf
    · exact h.one j k e c he hc hej (hmoves.attempting hfk)
    · exact h.one j k e f he hf hej hfk

theorem Moves.owner_kept (hmoves : Moves tv tv' i c d) (h : Single tv) (hc : tv.calls[i]? = some c)
    (hon : tv'.powerOnActive = true) :
    ∃ (j : Nat) (e : Call), tv'.calls[j]? = some e ∧ e.stage.attempts = true := by
  obtain ⟨hsame, hon'⟩ | ⟨-, -, hoff⟩ := hmoves.active
  · rw [hon'] at hon
    obtain ⟨j, e, he, hattempts⟩ := h.owner hon
    by_cases hji : j = i
    · subst hji
      obtain rfl := Option.some.inj (hc.symm.trans he)
      exact ⟨j, d, hmoves.new hc, hsame.trans hattempts⟩
    · exact ⟨j, e, hmoves.kept hji he, hattempts⟩
  · exact absurd (hoff.symm.trans hon) Bool.false_ne_true

/-- A second key of a call would follow one that it has sent. -/
theorem Moves.keys_kept (hmoves : Moves tv tv' i c d) (h : Single tv) (hc : tv.calls[i]? = some c)
    (j : Nat) : tv'.keys.count j ≤ 1 := by
  obtain ⟨hsame, -⟩ | ⟨happend, hunsent, -⟩ := hmoves.keys
  · rw [hsame]
    exact h.keys j
  · rw [happend, List.count_append]
    by_cases hji : j = i
    · subst hji
      have hnone : tv.keys.count j = 0 := by
        refine List.count_eq_zero.mpr fun hmem => ?_
        obtain ⟨e, he, hsent⟩ := h.sent j hmem
        obtain rfl := Option.some.inj (hc.symm.trans he)
        exact absurd (hunsent.symm.trans hsent) Bool.false_ne_true
      have hfirst : [j].count j = 1 := List.count_singleton_self
      omega
    · have hother : [i].count j = 0 := List.count_eq_zero.mpr fun hmem =>
        hji (List.mem_singleton.mp hmem)
      rw [hother]
      exact h.keys j

theorem Moves.sent_kept (hmoves : Moves tv tv' i c d) (h : Single tv) (hc : tv.calls[i]? = some c)
    {j : Nat} (hj : j ∈ tv'.keys) : ∃ e : Call, tv'.calls[j]? = some e ∧ e.keySent = true := by
  have hold : j ∈ tv.keys → ∃ e : Call, tv'.calls[j]? = some e ∧ e.keySent = true := by
    intro hj
    obtain ⟨e, he, hsent⟩ := h.sent j hj
    by_cases hji : j = i
    · subst hji
      obtain rfl := Option.some.inj (hc.symm.trans he)
      obtain ⟨-, hkey⟩ | ⟨-, -, hkey⟩ := hmoves.keys
      · exact ⟨d, hmoves.new hc, hkey hsent⟩
      · exact ⟨d, hmoves.new hc, hkey⟩
    · exact ⟨e, hmoves.kept hji he, hsent⟩
  obtain ⟨hsame, -⟩ | ⟨happend, -, hkey⟩ := hmoves.keys
  · exact hold (hsame ▸ hj)
  · rw [happend] at hj
    obtain hj | hj := List.mem_append.mp hj
    · exact hold hj
    · obtain rfl := List.mem_singleton.mp hj
      exact ⟨d, hmoves.new hc, hkey⟩

/-- A call has moved. -/
theorem single_moves (h : Single tv) (hc : tv.calls[i]? = some c) (hmoves : Moves tv tv' i c d) :
    Single tv' where
  aligned := hmoves.aligned h.aligned
  sane e he := by
    rw [hmoves.calls] at he
    obtain he | rfl := List.mem_or_eq_of_mem_set he
    · exact h.sane e he
    · exact hmoves.sane
  active j e he hattempts := hmoves.active_kept h hc he hattempts
  one j k e f he hf hej hfk := hmoves.one_kept h hc he hf hej hfk
  owner hon := hmoves.owner_kept h hc hon
  keys j := hmoves.keys_kept h hc j
  sent j hj := hmoves.sent_kept h hc hj

end

theorem single_step {tv tv' : TvController} {ev : Event} (h : Single tv)
    (hstep : step tv ev = some tv') : Single tv' := by
  cases step_effect h.sane hstep with
  | around hcalls hactive hkeys haligned =>
    obtain ⟨ha, hs, hac, ho, how, hk, hse⟩ := h
    rw [← hcalls] at hs hac ho how hse
    rw [← hactive] at hac how
    rw [← hkeys] at hk hse
    exact ⟨haligned ha, hs, hac, ho, how, hk, hse⟩
  | joins c hcalls hsane hactive hkeys haligned =>
    exact single_joins h hcalls hsane hactive hkeys (haligned h.aligned)
  | moves i c d hc hmoves => exact single_moves h hc hmoves

theorem attempts_of_busy {c : Call} (h : Sane c) (hbusy : c.busy = true) : c.stage.attempts = true := by
  obtain heq | ⟨_, _, heq⟩ := h.gathered hbusy
  · rw [heq]; rfl
  · rw [heq]; rfl

/-- One call at most has workers, and none once it has ended; an attempt passes KEY_0 to
`send_key` once at most; the event says whether the TV is on, and without an attempt the
single-flight flag is clear. -/
theorem one_key_per_attempt {tv : TvController} (h : Reachable step {} tv) :
    (∀ (i j : Nat) (c d : Call), tv.calls[i]? = some c → tv.calls[j]? = some d → c.busy = true →
      d.busy = true → i = j) ∧
    (∀ i, tv.keys.count i ≤ 1) ∧
    (∀ c ∈ tv.calls, c.stage.isEnded = true → c.busy = false) ∧
    (tv.presenceOnEvent = true ↔ tv.presenceCached = some true) ∧
    ((∀ c ∈ tv.calls, c.stage.attempts = false) → tv.powerOnActive = false) := by
  have hsingle : Single tv := h.invariant single_init fun t ev u ht _ hstep => single_step ht hstep
  refine ⟨fun i j c d hc hd hci hdj => ?_, hsingle.keys, fun c hc hended => ?_, ?_, fun hnone => ?_⟩
  · exact hsingle.one i j c d hc hd
      (attempts_of_busy (hsingle.sane c (List.mem_of_getElem? hc)) hci)
      (attempts_of_busy (hsingle.sane d (List.mem_of_getElem? hd)) hdj)
  · refine Bool.eq_false_iff.mpr fun hbusy => ?_
    obtain heq | ⟨_, _, heq⟩ := (hsingle.sane c hc).gathered hbusy
    · simp [heq, Stage.isEnded] at hended
    · simp [heq, Stage.isEnded] at hended
  · rw [hsingle.aligned]
    exact decide_eq_true_iff
  · refine Bool.eq_false_iff.mpr fun hon => ?_
    obtain ⟨i, c, hc, hattempts⟩ := hsingle.owner hon
    exact absurd ((hnone c (List.mem_of_getElem? hc)).symm.trans hattempts) Bool.false_ne_true

/-- Two calls overlap; the first is cancelled as its key hangs. A third one then has its attempt,
whose websocket connects as the TV comes on. -/
def overlapping : List Event :=
  [.powerOn, .wolTurn 0, .keyTurn 0, .checkTurn 0, .powerOn, .keyConnects 0 (some true),
    .cancelled 0, .workerEnds 0 .key, .workerEnds 0 .wol, .timesOut 1, .workerEnds 0 .check,
    .gathers 0, .socket false, .powerOn, .keyTurn 2, .commits true "ssdp_alive",
    .keyConnects 2 (some true), .wakes 2, .workerEnds 2 .wol, .workerEnds 2 .check, .gathers 2,
    .connects 2 (some true)]

theorem one_key_per_attempt_overlapping : ∃ tv, execute step {} overlapping = some tv ∧
    tv.calls.map (·.stage) = [.ended .cancelled, .ended (.returned false), .ended (.returned true)] ∧
    tv.keys = [0] ∧ tv.powerOnActive = false := by
  have hrun : (execute step {} overlapping).map (fun tv => (tv.calls.map (·.stage), tv.keys)) =
      some ([.ended .cancelled, .ended (.returned false), .ended (.returned true)], [0]) := by decide
  obtain ⟨tv, htv, hseen⟩ := Option.map_eq_some_iff.mp hrun
  obtain ⟨hstages, hkeys⟩ := Prod.mk.inj hseen
  refine ⟨tv, htv, hstages, hkeys, ?_⟩
  refine (one_key_per_attempt (reachable_of_execute htv)).2.2.2.2 fun c hc => ?_
  have hmem : c.stage ∈ tv.calls.map (·.stage) := List.mem_map.mpr ⟨c, hc, rfl⟩
  rw [hstages] at hmem
  revert hmem
  generalize c.stage = stage
  revert stage
  decide

end PiHub.PowerOn

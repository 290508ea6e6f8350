import PiHub.Transition

/-! The watch signal of the Apple TV (apple_tv_airplay.py): TXT updates and removals from mDNS,
the first reading, and the debounce task. -/
namespace PiHub.AirPlayWatch
open PiHub.Transition

/-- `flags & APPLE_TV_CONNECTED_SESSION_BIT`, which is bit 17. -/
def sessionBit (flags : Int) : Bool := (flags >>> (17 : Nat)) % 2 = 1

/-- `debounce_s` in ticks of the clock, and whether a state-change callback is set. -/
structure Setup where
  debounce : Nat
  callback : Bool

inductive Stage where
  | created
  | sleeping (due : Nat)
  | calling
  deriving DecidableEq

/-- The task of `_emit_watch_after_debounce`. -/
structure Debounce where
  serviceName : String
  stage : Stage := .created
  deriving DecidableEq

/-- A call of the callback. -/
structure Signal where
  serviceName : String
  flags : Int
  deriving DecidableEq

/-- The detector. A debounce task that has been cancelled does nothing more, so only
`_pending_watch_task` is kept. -/
structure AirPlay where
  now : Nat := 0
  reachable : Bool := false
  serviceName : Option String := none
  flags : Option Int := none
  connectedSession : Bool := false
  settled : Bool := false
  received : Bool := false
  pendingWatchTask : Option Debounce := none
  signals : List Signal := []
  stopped : Bool := false
  deriving DecidableEq

/-- `initial.mark_received`. -/
def AirPlay.markReceived (a : AirPlay) : AirPlay := { a with settled := true, received := true }

/-- `initial.mark_failed`. -/
def AirPlay.markFailed (a : AirPlay) : AirPlay := { a with settled := true }

def AirPlay.cancelPendingWatchSignal (a : AirPlay) : AirPlay := { a with pendingWatchTask := none }

def AirPlay.scheduleWatchSignal (a : AirPlay) (name : String) : AirPlay :=
  { a.cancelPendingWatchSignal with pendingWatchTask := some { serviceName := name } }

/-- `_resolve_service` for a record of the configured address with flags. -/
def AirPlay.reading (a : AirPlay) (name : String) (flags : Int) : AirPlay :=
  let connectedSession := sessionBit flags
  let firstReading := !a.settled
  let a := { a with reachable := true, serviceName := some name, flags := some flags
                    connectedSession := connectedSession }.markReceived
  if !connectedSession then a.cancelPendingWatchSignal
  else if !firstReading then a.scheduleWatchSignal name
  else a

/-- `_resolve_service`: a record that is not `ours` or has no flags is passed over. -/
def AirPlay.resolved (a : AirPlay) (name : String) : Bool → Option Int → AirPlay
  | true, some flags => a.reading name flags
  | _, _ => a

/-- `_handle_service_removed`. -/
def AirPlay.removed (a : AirPlay) (name : String) : AirPlay :=
  if a.serviceName ≠ some name then a
  else { a with reachable := false, connectedSession := false }.cancelPendingWatchSignal

/-- `_emit_watch_after_debounce` from the end of its sleep. -/
def AirPlay.wake (S : Setup) (a : AirPlay) (name : String) : AirPlay :=
  match a.flags with
  | none => a.cancelPendingWatchSignal
  | some flags =>
    if !sessionBit flags then a.cancelPendingWatchSignal
    else if !a.connectedSession then a.cancelPendingWatchSignal
    else if !S.callback then a.cancelPendingWatchSignal
    else { a with signals := a.signals ++ [{ serviceName := name, flags := flags }]
                  pendingWatchTask := some { serviceName := name, stage := .calling } }

def AirPlay.starts (S : Setup) (a : AirPlay) : Option AirPlay :=
  match a.pendingWatchTask with
  | some ⟨name, .created⟩ =>
    some { a with pendingWatchTask := some ⟨name, .sleeping (a.now + S.debounce)⟩ }
  | _ => none

def AirPlay.wakes (S : Setup) (a : AirPlay) : Option AirPlay :=
  match a.pendingWatchTask with
  | some ⟨name, .sleeping due⟩ => if due ≤ a.now then some (a.wake S name) else none
  | _ => none

def AirPlay.returns (a : AirPlay) : Option AirPlay :=
  match a.pendingWatchTask with
  | some ⟨_, .calling⟩ => some a.cancelPendingWatchSignal
  | _ => none

/-- A record has been resolved (`ours`: at the configured address; its flags, if it has any), a
service has been removed, the start-up wait has ended, the debounce task takes its first step,
wakes, returns from the callback; the clock goes on; `stop`. -/
inductive Event where
  | resolved (name : String) (ours : Bool) (flags : Option Int)
  | removed (name : String)
  | initialDeadline
  | starts
  | wakes
  | returns
  | tick (d : Nat)
  | stop
  deriving DecidableEq

def step (S : Setup) (a : AirPlay) : Event → Option AirPlay
  | .resolved name ours flags => if a.stopped then none else some (a.resolved name ours flags)
  | .removed name => if a.stopped then none else some (a.removed name)
  | .initialDeadline => if a.stopped then none else some a.markFailed
  | .starts => a.starts S
  | .wakes => a.wakes S
  | .returns => a.returns
  | .tick d => some { a with now := a.now + d }
  | .stop => some { a.cancelPendingWatchSignal with stopped := true }

/-- A debounce has been scheduled and has not woken. -/
def Waiting (a : AirPlay) : Prop := ∃ task ∈ a.pendingWatchTask, task.stage ≠ .calling

instance (a : AirPlay) : Decidable (Waiting a) :=
  match h : a.pendingWatchTask with
  | none => .isFalse (by simp [Waiting, h])
  | some task => decidable_of_iff (task.stage ≠ .calling) (by simp [Waiting, h])

/-- After start-up has settled, a record with the session bit that finds the session already
connected finds its debounce still waiting. -/
def Fresh (a : AirPlay) : Event → Prop
  | .resolved _ true (some flags) =>
    sessionBit flags = true → a.settled = true → a.connectedSession = true → Waiting a
  | _ => True

instance (a : AirPlay) (ev : Event) : Decidable (Fresh a ev) :=
  match ev with
  | .resolved _ true (some _) => inferInstanceAs (Decidable (_ → _))
  | .resolved _ false _ | .resolved _ true none | .removed _ | .initialDeadline | .starts | .wakes
  | .returns | .tick _ | .stop => .isTrue trivial

/-- The step sends a watch signal. -/
def Emits (a b : AirPlay) : Prop := a.signals.length < b.signals.length

instance (a b : AirPlay) : Decidable (Emits a b) := inferInstanceAs (Decidable (_ < _))

/-- A reading without the session bit, or the removal of the service. -/
def Clearing (a : AirPlay) : Event → Prop
  | .resolved _ true (some flags) => sessionBit flags = false
  | .removed name => a.serviceName = some name
  | _ => False

/-- What each event can do. -/
inductive Effect (S : Setup) (a : AirPlay) : Event → AirPlay → Prop
  | noReading (name : String) (ours : Bool) (flags : Option Int) :
      Effect S a (.resolved name ours flags) a
  | idle (name : String) (flags : Int) : sessionBit flags = false →
      Effect S a (.resolved name true (some flags))
        { a with reachable := true, serviceName := some name, flags := some flags
                 connectedSession := false, settled := true, received := true
                 pendingWatchTask := none }
  | first (name : String) (flags : Int) : sessionBit flags = true → a.settled = false →
      Effect S a (.resolved name true (some flags))
        { a with reachable := true, serviceName := some name, flags := some flags
                 connectedSession := true, settled := true, received := true }
  | active (name : String) (flags : Int) : sessionBit flags = true → a.settled = true →
      Effect S a (.resolved name true (some flags))
        { a with reachable := true, serviceName := some name, flags := some flags
                 connectedSession := true, settled := true, received := true
                 pendingWatchTask := some { serviceName := name } }
  | other (name : String) : Effect S a (.removed name) a
  | gone (name : String) : a.serviceName = some name →
      Effect S a (.removed name)
        { a with reachable := false, connectedSession := false, pendingWatchTask := none }
  | deadline : Effect S a .initialDeadline { a with settled := true }
  | starts (name : String) : a.pendingWatchTask = some ⟨name, .created⟩ →
      Effect S a .starts { a with pendingWatchTask := some ⟨name, .sleeping (a.now + S.debounce)⟩ }
  | emits (name : String) (due : Nat) (flags : Int) :
      a.pendingWatchTask = some ⟨name, .sleeping due⟩ → due ≤ a.now → a.connectedSession = true →
      Effect S a .wakes { a with signals := a.signals ++ [{ serviceName := name, flags := flags }]
                                 pendingWatchTask := some { serviceName := name, stage := .calling } }
  | drops : Effect S a .wakes { a with pendingWatchTask := none }
  | returns : Effect S a .returns { a with pendingWatchTask := none }
  | tick (d : Nat) : Effect S a (.tick d) { a with now := a.now + d }
  | stop : Effect S a .stop { a with pendingWatchTask := none, stopped := true }

theorem reading_effect (S : Setup) (a : AirPlay) (name : String) (flags : Int) :
    Effect S a (.resolved name true (some flags)) (a.reading name flags) := by
  unfold AirPlay.reading
  cases hbit : sessionBit flags with
  | false => exact .idle name flags hbit
  | true =>
    by_cases hsettled : a.settled = true
    · simp only [hsettled]
      exact .active name flags hbit hsettled
    · have hfirst : a.settled = false := by simpa using hsettled
      simp only [hfirst]
      exact .first name flags hbit hfirst

theorem wake_effect {S : Setup} {a : AirPlay} {name : String} {due : Nat}
    (htask : a.pendingWatchTask = some ⟨name, .sleeping due⟩) (hdue : due ≤ a.now) :
    Effect S a .wakes (a.wake S name) := by
  unfold AirPlay.wake
  split
  · exact .drops
  · rename_i flags _
    split
    · exact .drops
    split
    · exact .drops
    rename_i hsession
    split
    · exact .drops
    · exact .emits name due flags htask hdue (by simpa using hsession)

theorem starts_eq {S : Setup} {a b : AirPlay} (h : a.starts S = some b) :
    ∃ name, a.pendingWatchTask = some ⟨name, .created⟩ ∧
      { a with pendingWatchTask := some ⟨name, .sleeping (a.now + S.debounce)⟩ } = b := by
  unfold AirPlay.starts at h
  split at h
  · rename_i name htask
    exact ⟨name, htask, Option.some.inj h⟩
  · simp at h

theorem wakes_eq {S : Setup} {a b : AirPlay} (h : a.wakes S = some b) :
    ∃ name due, a.pendingWatchTask = some ⟨name, .sleeping due⟩ ∧ due ≤ a.now ∧
      a.wake S name = b := by
  unfold AirPlay.wakes at h
  split at h
  · rename_i name due htask
    split at h
    · rename_i hdue
      exact ⟨name, due, htask, hdue, Option.some.inj h⟩
    · simp at h
  · simp at h

theorem returns_eq {a b : AirPlay} (h : a.returns = some b) : a.cancelPendingWatchSignal = b := by
  unfold AirPlay.returns at h
  split at h
  · exact Option.some.inj h
  · simp at h

theorem step_effect {S : Setup} {a b : AirPlay} {ev : Event} (h : step S a ev = some b) :
    Effect S a ev b := by
  cases ev with
  | resolved name ours flags =>
    by_cases hstop : a.stopped = true
    · simp [step, hstop] at h
    · obtain rfl : a.resolved name ours flags = b := by simpa [step, hstop] using h
      cases ours with
      | false => exact .noReading name false flags
      | true =>
        cases flags with
        | none => exact .noReading name true none
        | some flags => exact reading_effect S a name flags
  | removed name =>
    by_cases hstop : a.stopped = true
    · simp [step, hstop] at h
    · obtain rfl : a.removed name = b := by simpa [step, hstop] using h
      unfold AirPlay.removed
      by_cases hname : a.serviceName ≠ some name
      · rw [if_pos hname]
        exact .other name
      · rw [if_neg hname]
        exact .gone name (not_not.mp hname)
  | initialDeadline =>
    by_cases hstop : a.stopped = true
    · simp [step, hstop] at h
    · obtain rfl : a.markFailed = b := by simpa [step, hstop] using h
      exact .deadline
  | starts =>
    obtain ⟨name, htask, rfl⟩ := starts_eq h
    exact .starts name htask
  | wakes =>
    obtain ⟨name, due, htask, hdue, rfl⟩ := wakes_eq h
    exact wake_effect htask hdue
  | returns =>
    obtain rfl := returns_eq h
    exact .returns
  | tick d =>
    obtain rfl := Option.some.inj h
    exact .tick d
  | stop =>
    obtain rfl := Option.some.inj h
    exact .stop

structure Sound (a : AirPlay) : Prop where
  pending : a.pendingWatchTask ≠ none → a.connectedSession = true
  connected : a.connectedSession = true → a.received = true
  received : a.received = true → a.settled = true

theorem Sound.step {S : Setup} {a b : AirPlay} {ev : Event} (h : Sound a) (heff : Effect S a ev b) :
    Sound b := by
  cases heff with
  | noReading => exact h
  | idle => exact ⟨by simp, by simp, by simp⟩
  | first => exact ⟨by simp, by simp, by simp⟩
  | active => exact ⟨by simp, by simp, by simp⟩
  | other => exact h
  | gone => exact ⟨by simp, by simp, h.received⟩
  | deadline => exact ⟨h.pending, h.connected, by simp⟩
  | starts name htask => exact ⟨fun _ => h.pending (by simp [htask]), h.connected, h.received⟩
  | emits name due flags htask hdue hconn => exact ⟨fun _ => hconn, h.connected, h.received⟩
  | drops => exact ⟨by simp, h.connected, h.received⟩
  | returns => exact ⟨by simp, h.connected, h.received⟩
  | tick => exact ⟨h.pending, h.connected, h.received⟩
  | stop => exact ⟨by simp, h.connected, h.received⟩

theorem sound_of_execute {S : Setup} {a : AirPlay} {evs : List Event}
    (h : execute (step S) {} evs = some a) : Sound a := by
  apply (reachable_of_execute h).invariant
  · exact ⟨by simp, by simp, by simp⟩
  · intro t ev u ht _ hstep
    exact ht.step (step_effect hstep)

theorem not_waiting_of_none {a : AirPlay} (h : a.pendingWatchTask = none) : ¬ Waiting a := by
  simp [Waiting, h]

/-- No debounce waits for a session that is connected, and a record schedules none as long as
the updates are fresh. -/
structure Quiet (a : AirPlay) : Prop where
  settled : a.settled = true
  pending : ¬ Waiting a

theorem Quiet.step {S : Setup} {a b : AirPlay} {ev : Event} (h : Quiet a) (hfresh : Fresh a ev)
    (hconn : a.connectedSession = true) (heff : Effect S a ev b) : Quiet b := by
  cases heff with
  | noReading => exact h
  | idle => exact ⟨rfl, not_waiting_of_none rfl⟩
  | first => exact ⟨rfl, h.pending⟩
  | active name flags hbit hsettled => exact absurd (hfresh hbit hsettled hconn) h.pending
  | other => exact h
  | gone => exact ⟨h.settled, not_waiting_of_none rfl⟩
  | deadline => exact ⟨rfl, h.pending⟩
  | starts name htask => exact absurd ⟨_, htask, by simp⟩ h.pending
  | emits name due flags htask _ _ => exact absurd ⟨_, htask, by simp⟩ h.pending
  | drops => exact ⟨h.settled, not_waiting_of_none rfl⟩
  | returns => exact ⟨h.settled, not_waiting_of_none rfl⟩
  | tick => exact ⟨h.settled, h.pending⟩
  | stop => exact ⟨h.settled, not_waiting_of_none rfl⟩

/-- A debounce scheduled at `since` or later wakes `debounce_s` after that. -/
structure DueAfter (S : Setup) (since : Nat) (a : AirPlay) : Prop where
  now : since ≤ a.now
  due : ∀ name due, a.pendingWatchTask = some ⟨name, .sleeping due⟩ → since + S.debounce ≤ due

theorem DueAfter.step {S : Setup} {since : Nat} {a b : AirPlay} {ev : Event}
    (h : DueAfter S since a) (heff : Effect S a ev b) : DueAfter S since b := by
  have hnow := h.now
  cases heff with
  | noReading => exact h
  | idle => exact ⟨hnow, by simp⟩
  | first => exact ⟨hnow, h.due⟩
  | active => exact ⟨hnow, by simp⟩
  | other => exact h
  | gone => exact ⟨hnow, by simp⟩
  | deadline => exact ⟨hnow, h.due⟩
  | starts name htask =>
    refine ⟨hnow, fun name' due hdue => ?_⟩
    obtain ⟨_, hsleep⟩ := Debounce.mk.inj (Option.some.inj hdue)
    have hdue' := Stage.sleeping.inj hsleep
    omega
  | emits => exact ⟨hnow, by simp⟩
  | drops => exact ⟨hnow, by simp⟩
  | returns => exact ⟨hnow, by simp⟩
  | tick d => exact ⟨by simp; omega, h.due⟩
  | stop => exact ⟨hnow, by simp⟩

/-- Only a debounce that is due sends a signal. -/
theorem emits_inv {S : Setup} {a b : AirPlay} {ev : Event} (hemits : Emits a b)
    (heff : Effect S a ev b) : ∃ name due, a.pendingWatchTask = some ⟨name, .sleeping due⟩ ∧
      due ≤ a.now ∧ a.connectedSession = true ∧ b.connectedSession = true ∧
      b.settled = a.settled ∧ ¬ Waiting b := by
  unfold Emits at hemits
  cases heff with
  | emits name due flags htask hdue hconn =>
    exact ⟨name, due, htask, hdue, hconn, hconn, rfl, by simp [Waiting]⟩
  | _ => simp at hemits

/-- What clears the connected session at or after the first reading, or makes the first reading
without it. -/
theorem clearing_of_effect {S : Setup} {a b : AirPlay} {ev : Event} (heff : Effect S a ev b)
    (ha : ¬ (a.received = true ∧ a.connectedSession = false))
    (hb : b.received = true ∧ b.connectedSession = false) : Clearing a ev := by
  cases heff with
  | idle name flags hbit => exact hbit
  | gone name hname => exact hname
  | first => simp at hb
  | active => simp at hb
  | _ => exact absurd hb ha

/-- The connected session was cleared at or after the first reading. -/
def Cleared (S : Setup) (evs : List Event) : Prop :=
  ∃ early clear late x y, evs = early ++ clear :: late ∧ execute (step S) {} early = some x ∧
    step S x clear = some y ∧ Clearing x clear ∧ y.received = true ∧ y.connectedSession = false

/-- The connected session has been true for `debounce_s`, from an event that made it so after
it had been cleared, or that was a first reading after start-up had settled as failed. -/
def NewSession (S : Setup) (evs : List Event) (t : AirPlay) : Prop :=
  ∃ before onset after a b, evs = before ++ onset :: after ∧
    execute (step S) {} before = some a ∧ step S a onset = some b ∧
    a.connectedSession = false ∧ b.connectedSession = true ∧
    Along (step S) (fun u _ => u.connectedSession = true) b after ∧
    b.now + S.debounce ≤ t.now ∧
    (Cleared S before ∨ (a.received = false ∧ a.settled = true ∧ b.received = true))

structure EdgeTriggered (S : Setup) (evs : List Event) : Prop where
  change : ∀ pre ev post t u, evs = pre ++ ev :: post → execute (step S) {} pre = some t →
    step S t ev = some u → Emits t u → NewSession S pre t
  apart : ∀ pre ev mid ev' post t u v w, evs = pre ++ ev :: (mid ++ ev' :: post) →
    execute (step S) {} pre = some t → step S t ev = some u → Emits t u →
    execute (step S) u mid = some v → step S v ev' = some w → Emits v w →
    ∃ before clear after x y, mid = before ++ clear :: after ∧ execute (step S) u before = some x ∧
      step S x clear = some y ∧ x.connectedSession = true ∧ y.connectedSession = false

theorem along_split {S : Setup} {ok : AirPlay → Event → Prop} {s t : AirPlay}
    {pre post : List Event} (h : Along (step S) ok s (pre ++ post))
    (ht : execute (step S) s pre = some t) : Along (step S) ok t post :=
  (along_append.mp h).2 t ht

theorem along_tail {S : Setup} {ok : AirPlay → Event → Prop} {s t : AirPlay} {ev : Event}
    {post : List Event} (h : Along (step S) ok s (ev :: post)) (ht : step S s ev = some t) :
    Along (step S) ok t post := by
  obtain ⟨_, htail⟩ := h
  rwa [ht] at htail

theorem quiet_along {S : Setup} {b t : AirPlay} {evs : List Event}
    (h : execute (step S) b evs = some t) (hfresh : Along (step S) Fresh b evs)
    (hconn : Along (step S) (fun u _ => u.connectedSession = true) b evs) (hb : Quiet b) :
    Quiet t := by
  apply (reachableBy_of_execute h (hfresh.and hconn)).invariant
  · exact hb
  · intro u ev v hu hok hstep
    exact hu.step hok.1 hok.2 (step_effect hstep)

theorem due_along {S : Setup} {b t : AirPlay} {evs : List Event}
    (h : execute (step S) b evs = some t) (hb : DueAfter S b.now b) : DueAfter S b.now t := by
  apply (reachable_of_execute h).invariant
  · exact hb
  · intro u ev v hu _ hstep
    exact hu.step (step_effect hstep)

/-- What makes the session connected is a reading, and it is the first one exactly if nothing
was scheduled. -/
theorem onset_effect {S : Setup} {a b : AirPlay} {ev : Event} (ha : Sound a)
    (hstep : step S a ev = some b) (hoff : ¬ a.connectedSession = true)
    (hon : b.connectedSession = true) : b.now = a.now ∧ b.received = true ∧ b.settled = true ∧
      (∀ name due, b.pendingWatchTask ≠ some ⟨name, .sleeping due⟩) ∧
      (a.settled = true ∨ b.pendingWatchTask = none) := by
  have hnone : a.pendingWatchTask = none := by
    by_contra hne
    exact hoff (ha.pending hne)
  cases step_effect hstep with
  | first name flags hbit hsettled => exact ⟨rfl, rfl, rfl, by simp [hnone], Or.inr hnone⟩
  | active name flags hbit hsettled => exact ⟨rfl, rfl, rfl, by simp, Or.inl hsettled⟩
  | idle => simp at hon
  | gone => simp at hon
  | _ => exact absurd hon hoff

theorem cleared_of_execute {S : Setup} {a : AirPlay} {evs : List Event}
    (h : execute (step S) {} evs = some a) (hreceived : a.received = true)
    (hoff : a.connectedSession = false) : Cleared S evs := by
  obtain ⟨early, clear, late, x, y, heq, hx, hy, hnot, hP, _, _⟩ :=
    exists_onset (P := fun u : AirPlay => u.received = true ∧ u.connectedSession = false) h
      (by simp) ⟨hreceived, hoff⟩
  exact ⟨early, clear, late, x, y, heq, hx, hy, clearing_of_effect (step_effect hy) hnot hP, hP⟩

/-- As long as the updates are fresh, every signal is for a new session. -/
theorem newSession_of_emits {S : Setup} {pre : List Event} {ev : Event} {t u : AirPlay}
    (ht : execute (step S) {} pre = some t) (hfresh : Along (step S) Fresh {} pre)
    (hu : step S t ev = some u) (hemits : Emits t u) : NewSession S pre t := by
  obtain ⟨name, due, htask, hdue, hconn, _⟩ := emits_inv hemits (step_effect hu)
  obtain ⟨before, onset, after, a, b, rfl, ha, hab, hoff, hon, hbt, halong⟩ :=
    exists_onset (P := fun u : AirPlay => u.connectedSession = true) ht (by simp) hconn
  have hsound := sound_of_execute ha
  obtain ⟨hnow, hreceived, hsettled, hsleep, hpending⟩ := onset_effect hsound hab hoff hon
  have hsince := due_along hbt ⟨Nat.le_refl _, fun name due h => absurd h (hsleep name due)⟩
  have hwait : b.now + S.debounce ≤ t.now := Nat.le_trans (hsince.due name due htask) hdue
  have hoff' : a.connectedSession = false := by simpa using hoff
  refine ⟨before, onset, after, a, b, rfl, ha, hab, hoff', hon, halong, hwait, ?_⟩
  cases hrec : a.received with
  | true => exact Or.inl (cleared_of_execute ha hrec hoff')
  | false =>
    refine Or.inr ⟨rfl, ?_, hreceived⟩
    by_contra hset
    -- a first reading within the start-up wait schedules nothing, and nothing does after it
    have hquiet : Quiet b := ⟨hsettled, not_waiting_of_none (hpending.resolve_left hset)⟩
    have hfresh' := along_tail (along_split hfresh ha) hab
    exact (quiet_along hbt hfresh' halong hquiet).pending ⟨_, htask, by simp⟩

theorem watch_edge_triggered (S : Setup) {evs : List Event} {t : AirPlay}
    (h : execute (step S) {} evs = some t) (hfresh : Along (step S) Fresh {} evs) :
    EdgeTriggered S evs := by
  constructor
  · rintro pre ev post t u rfl ht hu hemits
    exact newSession_of_emits ht (along_append.mp hfresh).1 hu hemits
  · rintro pre ev mid ev' post t u v w rfl ht hu hemits hv hw hemits'
    obtain ⟨_, _, _, _, htconn, hconn, hsettled, hquiet⟩ := emits_inv hemits (step_effect hu)
    obtain ⟨name, due, htask, _⟩ := emits_inv hemits' (step_effect hw)
    have hsound := sound_of_execute ht
    obtain ⟨halong, _⟩ | ⟨before, clear, after, x, y, heq, hx, hy, hxconn, hyconn⟩ :=
      along_or_exit (P := fun u : AirPlay => u.connectedSession = true) hv hconn
    · have hset : u.settled = true := hsettled.trans (hsound.received (hsound.connected htconn))
      have hfresh' := (along_append.mp (along_tail (along_split hfresh ht) hu)).1
      exact absurd ⟨_, htask, by simp⟩ (quiet_along hv hfresh' halong ⟨hset, hquiet⟩).pending
    · exact ⟨before, clear, after, x, y, heq, hx, hy, hxconn, by simpa using hyconn⟩

def sampleSetup : Setup := { debounce := 5, callback := true }

/-- A session that is reported. -/
def reported : List Event :=
  [.resolved "Living Room" true (some 0x18644), .resolved "Living Room" true (some 0x38644), .starts,
    .tick 5]

/-- The session ends, and another begins. -/
def secondSession : List Event :=
  [.returns, .resolved "Living Room" true (some 0x18644),
    .resolved "Living Room" true (some 0x138644), .starts, .tick 5]

theorem two_sessions_two_signals : ∃ a,
    execute (step sampleSetup) {} (reported ++ .wakes :: (secondSession ++ .wakes :: [])) = some a ∧
      a.signals.length = 2 ∧
      EdgeTriggered sampleSetup (reported ++ .wakes :: (secondSession ++ .wakes :: [])) := by
  have hrun : (execute (step sampleSetup) {}
      (reported ++ .wakes :: (secondSession ++ .wakes :: []))).map (fun a => a.signals.length) =
      some 2 := by decide
  obtain ⟨a, ha, hlen⟩ := Option.map_eq_some_iff.mp hrun
  exact ⟨a, ha, hlen, watch_edge_triggered sampleSetup ha (by decide)⟩

/-- Playback begins in the session: an update with the same session bit. -/
def playbackBegins : List Event :=
  [.returns, .resolved "Living Room" true (some 0x138644), .starts, .tick 5]

/-- The detector in a session, with its debounce task and the signals it has sent. -/
def inSession (now : Nat) (flags : Int) (stage : Stage) (signals : List Signal) : AirPlay :=
  { now := now, reachable := true, serviceName := some "Living Room", flags := some flags
    connectedSession := true, settled := true, received := true
    pendingWatchTask := some ⟨"Living Room", stage⟩, signals := signals }

theorem update_sends_again :
    ¬ EdgeTriggered sampleSetup (reported ++ .wakes :: (playbackBegins ++ .wakes :: [])) := by
  intro hedge
  have hfirst : step sampleSetup (inSession 5 0x38644 (.sleeping 5) []) .wakes =
      some (inSession 5 0x38644 .calling [⟨"Living Room", 0x38644⟩]) := by decide
  have hsecond : execute (step sampleSetup)
      (inSession 5 0x38644 .calling [⟨"Living Room", 0x38644⟩]) playbackBegins =
      some (inSession 10 0x138644 (.sleeping 10) [⟨"Living Room", 0x38644⟩]) := by decide
  have hagain : step sampleSetup
      (inSession 10 0x138644 (.sleeping 10) [⟨"Living Room", 0x38644⟩]) .wakes =
      some (inSession 10 0x138644 .calling
        [⟨"Living Room", 0x38644⟩, ⟨"Living Room", 0x138644⟩]) := by decide
  obtain ⟨before, clear, after, x, y, heq, hx, hy, _, hoff⟩ :=
    hedge.apart reported .wakes playbackBegins .wakes [] _ _ _ _ rfl (by decide) hfirst (by decide)
      hsecond hagain (by decide)
  -- the session stays connected from the first signal to the second
  have hall : Along (step sampleSetup) (fun u _ => u.connectedSession = true)
      (inSession 5 0x38644 .calling [⟨"Living Room", 0x38644⟩]) (playbackBegins ++ [.wakes]) := by
    decide
  rw [heq, List.append_assoc] at hall
  have hrest := along_tail (along_split hall hx) hy
  cases after with
  | nil => simpa [hoff] using hrest.1
  | cons _ _ => simpa [hoff] using hrest.1

end PiHub.AirPlayWatch

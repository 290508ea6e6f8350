import PiHub.Transition

/-! How the reader keeps the remote's input device open (unifying_reader.py): the rounds of `_run`,
its waits and its clean-up, while the receiver comes and goes and the reader is started and stopped. -/
namespace PiHub.ReaderSessions
open Transition

def firstBackoffMs : Nat := 1000
def maxBackoffMs : Nat := 10000

/-- The random factor is `permille` thousandths. -/
def jittered (ms permille : Nat) : Nat := min 10000 (ms * permille / 1000)

def nextBackoff (ms : Nat) : Nat := min (ms * 2) maxBackoffMs

/-- An open input device. -/
structure Device where
  fd : Nat
  grabbed : Bool
  deriving DecidableEq

/-- What a round finds: no device node, one that does not open, or a device, grabbed or not. -/
inductive Found where
  | missing
  | refused (exc : String)
  | opened (grabbed : Bool)
  deriving DecidableEq

/-- How the event loop ends: ENODEV or EIO, another error, or the end of the events. -/
inductive Ending where
  | lost (errno : Nat)
  | fails (error : String)
  | runsOut
  deriving DecidableEq

/-- Where `_run` is: about to take a round, asleep without a device, in the event loop, in the
callback for a lost device, asleep after the event loop has ended, or in the callback once the device
is closed. -/
inductive Stage where
  | looking
  | waiting (due : Nat)
  | reading
  | notifying
  | pausing (disconnectSeen : Bool) (due : Nat)
  | closed
  | ended
  deriving DecidableEq

/-- `open'` are the descriptors the process holds, `present` records since when the device can be
opened. Counted are the sessions begun, the calls of `on_disconnect`, the sessions that end without
one, and the calls of `stop`; `troubled` records when a session last was on its way out. -/
structure Reader where
  now : Nat
  stage : Stage
  stop : Bool
  backoff : Nat
  dev : Option Device
  disconnectNotified : Bool
  receiverPresent : Bool
  pairedRemote : Bool
  inputOpen : Bool
  lastGrabbed : Bool
  lastError : Option String
  initialReceived : Bool
  initialSettled : Bool
  open' : List Device
  nextFd : Nat
  present : Option Nat
  sessions : Nat
  notices : Nat
  cutOff : Nat
  stops : Nat
  troubled : Nat
  deriving DecidableEq

def Reader.new (now : Nat) : Reader where
  now := now
  stage := .ended
  stop := false
  backoff := firstBackoffMs
  dev := none
  disconnectNotified := false
  receiverPresent := false
  pairedRemote := false
  inputOpen := false
  lastGrabbed := false
  lastError := none
  initialReceived := false
  initialSettled := false
  open' := []
  nextFd := 0
  present := none
  sessions := 0
  notices := 0
  cutOff := 0
  stops := 0
  troubled := now

namespace Reader

/-- A round without a device: its sleep begins. -/
def goesWithout (s : Reader) (receiver paired : Bool) (error : String) (permille : Nat) : Reader :=
  { s with
    receiverPresent := receiver
    pairedRemote := paired
    inputOpen := false
    lastError := some error
    initialSettled := true
    stage := .waiting (s.now + jittered s.backoff permille) }

/-- A round of `_run`, up to its first wait. -/
def round (s : Reader) (receiver : Bool) (found : Found) (permille : Nat) : Reader :=
  if s.stop then { s with stage := .ended }
  else
    match found with
    | .missing => s.goesWithout receiver false "no_input_device" permille
    | .refused exc => s.goesWithout receiver true ("open_failed: " ++ exc) permille
    | .opened grabbed =>
      { s with
        receiverPresent := receiver
        pairedRemote := true
        dev := some ⟨s.nextFd, grabbed⟩
        open' := s.open' ++ [⟨s.nextFd, grabbed⟩]
        nextFd := s.nextFd + 1
        inputOpen := true
        lastGrabbed := grabbed
        disconnectNotified := false
        lastError := none
        initialReceived := true
        initialSettled := true
        backoff := firstBackoffMs
        stage := .reading
        sessions := s.sessions + 1 }

/-- `_notify_disconnect`, up to the callback. -/
def notify (s : Reader) (called skipped : Stage) : Reader :=
  if s.disconnectNotified then { s with stage := skipped }
  else { s with disconnectNotified := true, notices := s.notices + 1, stage := called }

/-- `dev.ungrab()` and `dev.close()`. -/
def close (s : Reader) : Reader :=
  { s with open' := s.open'.filter fun d => s.dev ≠ some d, dev := none, inputOpen := false }

/-- The `finally` block, up to its callback. -/
def finish (s : Reader) (disconnectSeen : Bool) : Reader :=
  let t := s.close
  if disconnectSeen then { t with stage := .looking }
  else if s.stop then
    { t with
      stage := .looking
      cutOff := if s.disconnectNotified then s.cutOff else s.cutOff + 1 }
  else t.notify .closed .looking

/-- The exception that `stop` throws into `_run`. -/
def cancelled (s : Reader) : Reader :=
  match s.stage with
  | .reading => { s.finish false with stage := .ended }
  | .notifying => { s.finish true with stage := .ended }
  | .pausing disconnectSeen _ => { s.finish disconnectSeen with stage := .ended }
  | _ => { s with stage := .ended }

end Reader

/-- `appears`, `vanishes`: the device can be opened, or can no more. `looks`: a round. `wakes`: the
sleep without a device is over. `breaks`: the event loop ends. `returns`: the callback has returned or
raised. `resumes`: the sleep after the event loop is over. -/
inductive Event where
  | passes (ms : Nat)
  | appears
  | vanishes
  | starts
  | stops
  | cancelled
  | looks (receiver : Bool) (found : Found) (permille : Nat)
  | wakes
  | breaks (ending : Ending) (permille : Nat)
  | returns (permille : Nat)
  | resumes

def step (s : Reader) : Event → Option Reader
  | .passes ms => some { s with now := s.now + ms }
  | .appears => some { s with present := some (s.present.getD s.now) }
  | .vanishes => some { s with present := none }
  | .starts =>
    if s.stage = .ended then
      some { s with stage := .looking, stop := false, backoff := firstBackoffMs }
    else none
  | .stops => some { s with stop := true, stops := s.stops + 1 }
  | .cancelled => if s.stop = true ∧ s.stage ≠ .ended then some s.cancelled else none
  | .looks receiver found permille =>
    if s.stage = .looking ∧ ((∃ grabbed, found = .opened grabbed) ↔ s.present.isSome = true) then
      some (s.round receiver found permille)
    else none
  | .wakes =>
    match s.stage with
    | .waiting due =>
      if due ≤ s.now then some { s with stage := .looking, backoff := nextBackoff s.backoff } else none
    | _ => none
  | .breaks ending permille =>
    if s.stage = .reading then
      some (match ending with
        | .lost errno =>
          { s with
            lastError := some ("device_disconnected errno=" ++ toString errno)
            troubled := s.now }.notify .notifying
              (.pausing true (s.now + jittered s.backoff permille))
        | .fails error =>
          { s with
            lastError := some error
            troubled := s.now
            stage := .pausing false (s.now + jittered 1000 permille) }
        | .runsOut => { s with troubled := s.now }.finish false)
    else none
  | .returns permille =>
    match s.stage with
    | .notifying => some { s with
        stage := .pausing true (s.now + jittered s.backoff permille), troubled := s.now }
    | .closed => some { s with stage := .looking, troubled := s.now }
    | _ => none
  | .resumes =>
    match s.stage with
    | .pausing disconnectSeen due =>
      if due ≤ s.now then
        let t := if disconnectSeen then { s with backoff := nextBackoff s.backoff } else s
        some { t.finish disconnectSeen with troubled := s.now }
      else none
    | _ => none

/-! ### What is held open, and what is announced -/

/-- The device is open. -/
def Stage.holds : Stage → Bool
  | .reading | .notifying | .pausing _ _ => true
  | .looking | .waiting _ | .closed | .ended => false

/-- The session under way that `on_disconnect` has not been called for. -/
def Stage.owes : Stage → Nat
  | .reading | .pausing false _ => 1
  | .looking | .waiting _ | .notifying | .pausing true _ | .closed | .ended => 0

theorem Stage.owes_le_one (stage : Stage) : stage.owes ≤ 1 := by
  cases stage with
  | pausing b due =>
    cases b with
    | true => exact Nat.zero_le 1
    | false => exact Nat.le_refl 1
  | reading => exact Nat.le_refl 1
  | looking | waiting due | notifying | closed | ended => exact Nat.zero_le 1

structure Held (s : Reader) : Prop where
  open' : s.open' = s.dev.toList
  dev : s.dev.isSome = s.stage.holds
  inputOpen : s.inputOpen = s.dev.isSome
  notified : s.stage.owes = 1 → s.disconnectNotified = false
  sessions : s.sessions = s.notices + s.cutOff + s.stage.owes
  cutOff : s.cutOff + (if s.stop then s.stage.owes else 0) ≤ s.stops

theorem held_new (now : Nat) : Held (.new now) where
  open' := rfl
  dev := rfl
  inputOpen := rfl
  notified := fun h => by cases h
  sessions := rfl
  cutOff := Nat.le_refl 0

theorem Held.cutOff_le {s : Reader} (h : Held s) : s.cutOff ≤ s.stops :=
  Nat.le_trans (Nat.le_add_right ..) h.cutOff

/-- From one stage without a device to another. -/
theorem Held.goto {s : Reader} (h : Held s) (stage : Stage) (hs : s.stage.holds = false)
    (hstage : stage.holds = false) : Held { s with stage := stage } := by
  have howes : ∀ t : Stage, t.holds = false → t.owes = 0 := by
    intro t ht
    cases t with
    | looking | waiting due | closed | ended => rfl
    | reading | notifying => cases ht
    | pausing b due => cases ht
  have hzero := howes stage hstage
  exact { h with
    dev := by rw [h.dev, hs, hstage]
    notified := fun hone => by rw [hzero] at hone; cases hone
    sessions := by
      change s.sessions = s.notices + s.cutOff + stage.owes
      rw [hzero, ← howes s.stage hs]
      exact h.sessions
    cutOff := by
      change s.cutOff + (if s.stop then stage.owes else 0) ≤ s.stops
      rw [hzero, ite_self]
      exact h.cutOff_le }

/-- Without a device open, nothing is owed. -/
theorem Held.closed_sessions {s : Reader} (h : Held s) (hs : s.stage = .looking) :
    s.sessions = s.notices + s.cutOff := by
  have hall := h.sessions
  rw [hs] at hall
  exact hall

theorem Held.round {s : Reader} (h : Held s) (hs : s.stage = .looking) (receiver : Bool)
    (found : Found) (permille : Nat) : Held (s.round receiver found permille) := by
  have hnone : s.dev = none := by
    cases hdev : s.dev with
    | none => rfl
    | some d =>
      have hholds := h.dev
      rw [hs, hdev] at hholds
      cases hholds
  have hclosed : s.stage.holds = false := by rw [hs]; rfl
  unfold Reader.round
  split
  · exact h.goto .ended hclosed rfl
  · next hstop =>
    have hwithout (paired : Bool) (error : String) :
        Held (s.goesWithout receiver paired error permille) := by
      have hwaits := h.goto (.waiting (s.now + jittered s.backoff permille)) hclosed rfl
      exact { hwaits with inputOpen := by rw [Reader.goesWithout, hnone]; rfl }
    cases found with
    | missing => exact hwithout false _
    | refused exc => exact hwithout true _
    | opened grabbed =>
      have hopen := h.open'
      rw [hnone] at hopen
      exact {
        open' := by
          change s.open' ++ _ = _
          rw [hopen]
          rfl
        dev := rfl
        inputOpen := rfl
        notified := fun _ => rfl
        sessions := congrArg (· + 1) (h.closed_sessions hs)
        cutOff := by
          change s.cutOff + (if s.stop then 1 else 0) ≤ s.stops
          rw [if_neg hstop]
          exact h.cutOff_le }

theorem Held.close {s : Reader} (h : Held s) :
    s.close.open' = [] ∧ s.close.dev = none ∧ s.close.inputOpen = false := by
  refine ⟨?_, rfl, rfl⟩
  change s.open'.filter (fun d => s.dev ≠ some d) = []
  rw [h.open']
  cases s.dev with
  | none => rfl
  | some d => simp

/-- The clean-up: the device is closed and the notice, if it is owed, is given or cut off. -/
theorem Held.finish {s : Reader} {b : Bool} (h : Held s) (hs : s.stage.owes = if b then 0 else 1) :
    Held (s.finish b) ∧ ((s.finish b).stage = .looking ∨ (s.finish b).stage = .closed) := by
  obtain ⟨hopen, hdev, hinput⟩ := h.close
  have hsessions := h.sessions
  have hcut := h.cutOff
  rw [hs] at hsessions hcut
  cases b with
  | true =>
    refine ⟨⟨hopen, rfl, rfl, (fun hone => by cases hone), hsessions, ?_⟩, Or.inl rfl⟩
    change s.cutOff + (if s.stop then 0 else 0) ≤ s.stops
    rw [ite_self]
    exact h.cutOff_le
  | false =>
    have hnotified : s.disconnectNotified = false := h.notified hs
    cases hstop : s.stop with
    | true =>
      rw [hstop] at hcut
      have hfinish : s.finish false = { s.close with stage := .looking, cutOff := s.cutOff + 1 } := by
        simp only [Reader.finish, Bool.false_eq_true, if_false, hstop, if_true, hnotified]
      rw [hfinish]
      refine ⟨⟨hopen, rfl, rfl, (fun hone => by cases hone), ?_, ?_⟩, Or.inl rfl⟩
      · change s.sessions = s.notices + (s.cutOff + 1) + 0
        rw [hsessions]
        rfl
      · change s.cutOff + 1 + (if s.stop then 0 else 0) ≤ s.stops
        rw [ite_self]
        exact hcut
    | false =>
      have hfinish : s.finish false = { s.close with
          disconnectNotified := true, notices := s.notices + 1, stage := .closed } := by
        have hclose : s.close.disconnectNotified = false := hnotified
        simp only [Reader.finish, Bool.false_eq_true, if_false, hstop, Reader.notify, hclose]
        rfl
      rw [hfinish]
      refine ⟨⟨hopen, rfl, rfl, (fun hone => by cases hone), ?_, ?_⟩, Or.inr rfl⟩
      · change s.sessions = s.notices + 1 + s.cutOff + 0
        rw [hsessions]
        simp only [Bool.false_eq_true, if_false]
        omega
      · change s.cutOff + (if s.stop then 0 else 0) ≤ s.stops
        rw [ite_self]
        exact h.cutOff_le

theorem Held.finish_ended {s : Reader} {b : Bool} (h : Held s)
    (hs : s.stage.owes = if b then 0 else 1) : Held { s.finish b with stage := .ended } := by
  obtain ⟨hfinish, hstage⟩ := h.finish hs
  refine hfinish.goto .ended ?_ rfl
  obtain hlooking | hclosed := hstage
  · rw [hlooking]
    rfl
  · rw [hclosed]
    rfl

theorem Held.cancelled {s : Reader} (h : Held s) : Held s.cancelled := by
  cases hs : s.stage with
  | looking | waiting due | closed | ended =>
    have hcancel : s.cancelled = { s with stage := .ended } := by rw [Reader.cancelled, hs]
    rw [hcancel]
    exact h.goto .ended (by rw [hs]; rfl) rfl
  | reading =>
    have hcancel : s.cancelled = { s.finish false with stage := .ended } := by
      rw [Reader.cancelled, hs]
    rw [hcancel]
    exact h.finish_ended (by rw [hs]; rfl)
  | notifying =>
    have hcancel : s.cancelled = { s.finish true with stage := .ended } := by
      rw [Reader.cancelled, hs]
    rw [hcancel]
    exact h.finish_ended (by rw [hs]; rfl)
  | pausing b due =>
    have hcancel : s.cancelled = { s.finish b with stage := .ended } := by rw [Reader.cancelled, hs]
    rw [hcancel]
    exact h.finish_ended (by rw [hs]; cases b <;> rfl)

theorem Held.breaks {s : Reader} (h : Held s) (hs : s.stage = .reading) {ending : Ending}
    {permille : Nat} {t : Reader} (hstep : step s (.breaks ending permille) = some t) : Held t := by
  obtain ⟨-, rfl⟩ := of_guard hstep
  have howes : s.stage.owes = 1 := by rw [hs]; rfl
  have hholds : s.stage.holds = true := by rw [hs]; rfl
  have hsessions := h.sessions
  have hcut := h.cutOff
  rw [howes] at hsessions hcut
  cases ending with
  | lost errno =>
    have hnotified : s.disconnectNotified = false := h.notified howes
    simp only [Reader.notify, hnotified, Bool.false_eq_true, if_false]
    refine ⟨h.open', h.dev.trans hholds, h.inputOpen, (fun hone => by cases hone), ?_, ?_⟩
    · change s.sessions = s.notices + 1 + s.cutOff + 0
      omega
    · change s.cutOff + (if s.stop then 0 else 0) ≤ s.stops
      rw [ite_self]
      exact h.cutOff_le
  | fails error =>
    exact ⟨h.open', h.dev.trans hholds, h.inputOpen, fun _ => h.notified howes, hsessions, hcut⟩
  | runsOut =>
    have hnow : Held { s with troubled := s.now } := { h with }
    exact (hnow.finish (b := false) howes).1

theorem Held.step {s t : Reader} {e : Event} (h : Held s) (hstep : ReaderSessions.step s e = some t) :
    Held t := by
  cases e with
  | passes ms =>
    obtain rfl := Option.some.inj hstep
    exact { h with }
  | appears =>
    obtain rfl := Option.some.inj hstep
    exact { h with }
  | vanishes =>
    obtain rfl := Option.some.inj hstep
    exact { h with }
  | starts =>
    obtain ⟨hs, rfl⟩ := of_guard hstep
    have hlooking := h.goto .looking (by rw [hs]; rfl) rfl
    exact { hlooking with cutOff := h.cutOff_le }
  | stops =>
    obtain rfl := Option.some.inj hstep
    refine { h with cutOff := ?_ }
    have hle := h.cutOff_le
    change s.cutOff + (if true then s.stage.owes else 0) ≤ s.stops + 1
    have hone := s.stage.owes_le_one
    simp only [if_true]
    omega
  | cancelled =>
    obtain ⟨-, rfl⟩ := of_guard hstep
    exact h.cancelled
  | looks receiver found permille =>
    obtain ⟨⟨hs, -⟩, rfl⟩ := of_guard hstep
    exact h.round hs receiver found permille
  | wakes =>
    simp only [ReaderSessions.step] at hstep
    split at hstep
    · next due hs =>
      obtain ⟨-, rfl⟩ := of_guard hstep
      have hlooking := h.goto .looking (by rw [hs]; rfl) rfl
      exact { hlooking with }
    · cases hstep
  | breaks ending permille =>
    obtain ⟨hs, -⟩ := of_guard hstep
    exact h.breaks hs hstep
  | returns permille =>
    simp only [ReaderSessions.step] at hstep
    split at hstep
    · next hs =>
      obtain rfl := Option.some.inj hstep
      have hdev := h.dev
      have hsessions := h.sessions
      have hcut := h.cutOff
      rw [hs] at hdev hsessions hcut
      exact ⟨h.open', hdev, h.inputOpen, (fun hone => by cases hone), hsessions, hcut⟩
    · next hs =>
      obtain rfl := Option.some.inj hstep
      have hlooking := h.goto .looking (by rw [hs]; rfl) rfl
      exact { hlooking with }
    · cases hstep
  | resumes =>
    simp only [ReaderSessions.step] at hstep
    split at hstep
    · next b due hs =>
      obtain ⟨-, rfl⟩ := of_guard hstep
      have howes : s.stage.owes = if b then 0 else 1 := by
        rw [hs]
        cases b <;> rfl
      cases b with
      | true =>
        have hdoubled : Held { s with backoff := nextBackoff s.backoff } := { h with }
        have hfinish := (hdoubled.finish (b := true) howes).1
        exact { hfinish with }
      | false =>
        have hfinish := (h.finish (b := false) howes).1
        exact { hfinish with }
    · cases hstep

theorem held_of_execute {start : Nat} {s : Reader} {es : List Event}
    (h : execute step (.new start) es = some s) : Held s :=
  (reachable_of_execute h).invariant (held_new start) fun _ _ _ ht _ hstep => ht.step hstep

/-- Over every run of the reader, whatever the receiver and the file system do and whenever it is
started, stopped or interrupted in a wait: it holds one device open in a session and none otherwise,
and says so; every session that is over has had `on_disconnect` called for it exactly once, unless it
was cut off by a `stop`, and no `stop` cuts off more than one. -/
theorem one_notice_a_session {start : Nat} {s : Reader} {es : List Event}
    (h : execute step (.new start) es = some s) :
    (s.open'.length = (if s.stage.holds then 1 else 0) ∧
        (s.inputOpen = true ↔ s.open' ≠ []) ∧ (s.stage = .ended → s.open' = [])) ∧
      s.sessions = s.notices + s.cutOff + s.stage.owes ∧ s.cutOff ≤ s.stops := by
  have hheld := held_of_execute h
  have hholds := hheld.dev
  refine ⟨?_, hheld.sessions, hheld.cutOff_le⟩
  rw [hheld.open', hheld.inputOpen, ← hholds]
  cases hdev : s.dev with
  | none => exact ⟨rfl, ⟨(fun hsome => by cases hsome), fun hne => absurd rfl hne⟩, fun _ => rfl⟩
  | some d =>
    refine ⟨rfl, ⟨fun _ => List.cons_ne_nil _ _, fun _ => rfl⟩, fun hended => ?_⟩
    rw [hdev, hended] at hholds
    cases hholds

/-- The receiver is plugged in while the reader sleeps, pulled out, and plugged in again. -/
def replugged : List Event :=
  [.starts, .looks true .missing 1000, .passes 400, .appears, .passes 600, .wakes,
    .looks true (.opened true) 1000, .passes 5000, .vanishes, .breaks (.lost 19) 1000, .returns 1000,
    .appears, .passes 1000, .resumes, .looks true (.opened true) 1000, .passes 20000]

theorem one_notice_a_session_replugged : ∃ s : Reader, execute step (.new 0) replugged = some s ∧
    s.sessions = s.notices + s.cutOff + 1 ∧ s.cutOff ≤ s.stops := by
  have h : (execute step (.new 0) replugged).map (fun s => decide (s.stage = .reading)) =
      some true := by decide +kernel
  obtain ⟨s, hs, hreading⟩ := Option.map_eq_some_iff.mp h
  obtain ⟨-, hsessions, hcut⟩ := one_notice_a_session hs
  rw [of_decide_eq_true hreading] at hsessions
  exact ⟨s, hs, hsessions, hcut⟩

/-! ### How long it takes -/

theorem jittered_le (ms permille : Nat) : jittered ms permille ≤ 10000 := Nat.min_le_left _ _

structure Timed (s : Reader) : Prop where
  present : ∀ T, s.present = some T → T ≤ s.now
  troubled : s.troubled ≤ s.now
  waiting : ∀ due, s.stage = .waiting due → due ≤ s.present.getD s.now + 10000
  pausing : ∀ b due, s.stage = .pausing b due → due ≤ s.troubled + 10000

theorem timed_new (now : Nat) : Timed (.new now) where
  present := fun T hT => by cases hT
  troubled := Nat.le_refl _
  waiting := fun due hs => by cases hs
  pausing := fun b due hs => by cases hs

def Stage.sleeps : Stage → Bool
  | .waiting _ | .pausing _ _ => true
  | .looking | .reading | .notifying | .closed | .ended => false

/-- To a stage that is no sleep. -/
theorem Timed.awake {s t : Reader} (h : Timed s) (hnow : t.now = s.now)
    (hpresent : t.present = s.present) (htroubled : t.troubled = s.troubled ∨ t.troubled = s.now)
    (hstage : t.stage.sleeps = false) : Timed t where
  present := fun T hT => by rw [hnow]; exact h.present T (hpresent ▸ hT)
  troubled := by
    rw [hnow]
    obtain hsame | hset := htroubled
    · rw [hsame]
      exact h.troubled
    · exact Nat.le_of_eq hset
  waiting := fun due hs => by rw [hs] at hstage; cases hstage
  pausing := fun b due hs => by rw [hs] at hstage; cases hstage

/-- To the sleep after the event loop. -/
theorem Timed.pauses {s t : Reader} (h : Timed s) (hnow : t.now = s.now)
    (hpresent : t.present = s.present) (htroubled : t.troubled = s.now) {b : Bool} {ms permille : Nat}
    (hstage : t.stage = .pausing b (s.now + jittered ms permille)) : Timed t where
  present := fun T hT => by rw [hnow]; exact h.present T (hpresent ▸ hT)
  troubled := Nat.le_of_eq (htroubled.trans hnow.symm)
  waiting := fun due hs => by rw [hstage] at hs; cases hs
  pausing := fun b' due hs => by
    rw [hstage] at hs
    obtain ⟨-, rfl⟩ := Stage.pausing.inj hs
    rw [htroubled]
    exact Nat.add_le_add_left (jittered_le ms permille) _

theorem Timed.getD_le {s : Reader} (h : Timed s) : s.present.getD s.now ≤ s.now := by
  cases hT : s.present with
  | none => exact Nat.le_refl _
  | some T => exact h.present T hT

theorem finish_stage (s : Reader) (b : Bool) :
    (s.finish b).stage = .looking ∨ (s.finish b).stage = .closed := by
  unfold Reader.finish
  dsimp only
  split
  · exact Or.inl rfl
  · split
    · exact Or.inl rfl
    · unfold Reader.notify
      split
      · exact Or.inl rfl
      · exact Or.inr rfl

/-- The clean-up leaves the clock and the device node alone. -/
theorem finish_frame (s : Reader) (b : Bool) : (s.finish b).now = s.now ∧
    (s.finish b).present = s.present ∧ (s.finish b).troubled = s.troubled := by
  unfold Reader.finish
  dsimp only
  split
  · exact ⟨rfl, rfl, rfl⟩
  · split
    · exact ⟨rfl, rfl, rfl⟩
    · unfold Reader.notify
      split <;> exact ⟨rfl, rfl, rfl⟩

theorem finish_awake (s : Reader) (b : Bool) : (s.finish b).stage.sleeps = false := by
  obtain hlooking | hclosed := finish_stage s b
  · rw [hlooking]
    rfl
  · rw [hclosed]
    rfl

theorem Timed.cancelled {s : Reader} (h : Timed s) : Timed s.cancelled := by
  have hfinish (b : Bool) : Timed { s.finish b with stage := .ended } := by
    obtain ⟨hnow, hpresent, htroubled⟩ := finish_frame s b
    exact h.awake hnow hpresent (Or.inl htroubled) rfl
  have hended : Timed { s with stage := .ended } := h.awake rfl rfl (Or.inl rfl) rfl
  unfold Reader.cancelled
  split
  · exact hfinish false
  · exact hfinish true
  · exact hfinish _
  · exact hended

theorem Timed.round {s : Reader} {receiver : Bool} {found : Found} {permille : Nat} (h : Timed s)
    (hfound : (∃ grabbed, found = .opened grabbed) ↔ s.present.isSome = true) :
    Timed (s.round receiver found permille) := by
  have hwithout (paired : Bool) (error : String) (hnot : ∀ grabbed, found ≠ .opened grabbed) :
      Timed (s.goesWithout receiver paired error permille) := by
    have hnone : s.present = none := by
      cases hpresent : s.present with
      | none => rfl
      | some T =>
        obtain ⟨grabbed, hopened⟩ := hfound.mpr (by rw [hpresent]; rfl)
        exact absurd hopened (hnot grabbed)
    refine ⟨h.present, h.troubled, fun due hs => ?_, fun b due hs => by cases hs⟩
    obtain rfl := Stage.waiting.inj hs
    change s.now + jittered s.backoff permille ≤ s.present.getD s.now + 10000
    rw [hnone]
    exact Nat.add_le_add_left (jittered_le _ _) _
  unfold Reader.round
  split
  · exact h.awake rfl rfl (Or.inl rfl) rfl
  · cases found with
    | missing => exact hwithout false _ fun grabbed heq => by cases heq
    | refused exc => exact hwithout true _ fun grabbed heq => by cases heq
    | opened grabbed => exact h.awake rfl rfl (Or.inl rfl) rfl

theorem Timed.breaks {s t : Reader} {ending : Ending} {permille : Nat} (h : Timed s)
    (hstep : ReaderSessions.step s (.breaks ending permille) = some t) : Timed t := by
  obtain ⟨-, rfl⟩ := of_guard hstep
  cases ending with
  | lost errno =>
    unfold Reader.notify
    dsimp only
    split
    · exact h.pauses rfl rfl rfl rfl
    · exact h.awake rfl rfl (Or.inr rfl) rfl
  | fails error => exact h.pauses rfl rfl rfl rfl
  | runsOut =>
    obtain ⟨hnow, hpresent, htroubled⟩ := finish_frame { s with troubled := s.now } false
    exact h.awake hnow hpresent (Or.inr htroubled) (finish_awake _ _)

theorem Timed.step {s t : Reader} {e : Event} (h : Timed s)
    (hstep : ReaderSessions.step s e = some t) : Timed t := by
  cases e with
  | passes ms =>
    obtain rfl := Option.some.inj hstep
    refine ⟨fun T hT => Nat.le_add_right_of_le (h.present T hT),
      Nat.le_add_right_of_le h.troubled, fun due hs => ?_, h.pausing⟩
    have hdue := h.waiting due hs
    dsimp only
    cases hT : s.present with
    | none =>
      rw [hT] at hdue
      dsimp only [Option.getD_none] at hdue ⊢
      omega
    | some T =>
      rw [hT] at hdue
      exact hdue
  | appears =>
    obtain rfl := Option.some.inj hstep
    refine ⟨fun T hT => ?_, h.troubled, h.waiting, h.pausing⟩
    obtain rfl := Option.some.inj hT
    exact h.getD_le
  | vanishes =>
    obtain rfl := Option.some.inj hstep
    refine ⟨(fun T hT => by cases hT), h.troubled, fun due hs => ?_, h.pausing⟩
    exact Nat.le_trans (h.waiting due hs) (Nat.add_le_add_right h.getD_le _)
  | starts =>
    obtain ⟨-, rfl⟩ := of_guard hstep
    exact h.awake rfl rfl (Or.inl rfl) rfl
  | stops =>
    obtain rfl := Option.some.inj hstep
    exact { h with }
  | cancelled =>
    obtain ⟨-, rfl⟩ := of_guard hstep
    exact h.cancelled
  | looks receiver found permille =>
    obtain ⟨⟨-, hfound⟩, rfl⟩ := of_guard hstep
    exact h.round hfound
  | wakes =>
    simp only [ReaderSessions.step] at hstep
    split at hstep
    · obtain ⟨-, rfl⟩ := of_guard hstep
      exact h.awake rfl rfl (Or.inl rfl) rfl
    · cases hstep
  | breaks ending permille => exact h.breaks hstep
  | returns permille =>
    simp only [ReaderSessions.step] at hstep
    split at hstep
    · obtain rfl := Option.some.inj hstep
      exact h.pauses rfl rfl rfl rfl
    · obtain rfl := Option.some.inj hstep
      exact h.awake rfl rfl (Or.inr rfl) rfl
    · cases hstep
  | resumes =>
    simp only [ReaderSessions.step] at hstep
    split at hstep
    · next b due hs =>
      obtain ⟨-, rfl⟩ := of_guard hstep
      cases b with
      | true =>
        obtain ⟨hnow, hpresent, -⟩ := finish_frame { s with backoff := nextBackoff s.backoff } true
        exact h.awake hnow hpresent (Or.inr rfl) (finish_awake _ _)
      | false =>
        obtain ⟨hnow, hpresent, -⟩ := finish_frame s false
        exact h.awake hnow hpresent (Or.inr rfl) (finish_awake _ _)
    · cases hstep

/-- The reader is in no round and no callback, and no sleep of it is overdue by more than `late`. -/
def Reader.Rests (s : Reader) (late : Nat) : Prop :=
  match s.stage with
  | .looking | .notifying | .closed => False
  | .waiting due | .pausing _ due => s.now ≤ due + late
  | .reading | .ended => True

/-- The remote works again within 10 s: once the device has been there for longer than that, and the
last session has been over for longer than that, a running reader is reading the device. What the
process is late in waking it comes on top. -/
theorem input_back {start : Nat} {s : Reader} {es : List Event}
    (h : execute step (.new start) es = some s) (hruns : s.stage ≠ .ended) {T late : Nat}
    (hT : s.present = some T) (hrests : s.Rests late)
    (hlate : max T s.troubled + 10000 + late < s.now) :
    s.stage = .reading ∧ s.inputOpen = true ∧ s.open'.length = 1 := by
  have htimed : Timed s := (reachable_of_execute h).invariant (timed_new start)
    fun _ _ _ ht _ hstep => ht.step hstep
  have hreading : s.stage = .reading := by
    cases hs : s.stage with
    | reading => rfl
    | ended => exact absurd hs hruns
    | looking | notifying | closed =>
      rw [Reader.Rests, hs] at hrests
      exact hrests.elim
    | waiting due =>
      rw [Reader.Rests, hs] at hrests
      have hdue := htimed.waiting due hs
      rw [hT, Option.getD_some] at hdue
      omega
    | pausing b due =>
      rw [Reader.Rests, hs] at hrests
      have hdue := htimed.pausing b due hs
      omega
  have hheld := held_of_execute h
  have hholds := hheld.dev
  rw [hreading] at hholds
  refine ⟨hreading, hheld.inputOpen.trans hholds, ?_⟩
  rw [hheld.open']
  cases hdev : s.dev with
  | none =>
    rw [hdev] at hholds
    cases hholds
  | some d => rfl

theorem input_back_replugged : ∃ s : Reader, execute step (.new 0) replugged = some s ∧
    s.inputOpen = true ∧ s.open'.length = 1 := by
  have h : (execute step (.new 0) replugged).map
      (fun s => decide (s.stage = .reading ∧ s.present = some 6000 ∧ s.troubled = 7000 ∧
        s.now = 27000)) = some true := by decide +kernel
  obtain ⟨s, hs, hat⟩ := Option.map_eq_some_iff.mp h
  obtain ⟨hreading, hpresent, htroubled, hnow⟩ := of_decide_eq_true hat
  have hruns : s.stage ≠ .ended := by
    rw [hreading]
    exact fun hended => by cases hended
  have hrests : s.Rests 0 := by
    rw [Reader.Rests, hreading]
    trivial
  exact ⟨s, hs, (input_back hs hruns hpresent hrests (by rw [htroubled, hnow]; decide)).2⟩

end PiHub.ReaderSessions

import Mathlib.Data.List.Induction
import PiHub.FlowSteps
import PiHub.PyStr
import PiHub.Transition

/-! Flow runs of the runtime engine (runtime.py): one run at a time, its callers cancelled
at any await. -/
namespace PiHub.SingleFlight
open PiHub.Transition PiHub.FlowSteps PiHub.PyStr

/-- `str` of a `FlowStepFailures`. -/
def failuresText (failures : List Failure) : String :=
  "flow_failed: " ++ ", ".intercalate (failures.map fun f => f.stepId ++ ": " ++ f.error)

/-- What `FlowRunner.run` returns or raises. -/
inductive Outcome where
  | returned (ok : Bool)
  | stepFailures (failures : List Failure)
  | exception (text : String)
  deriving DecidableEq

inductive RunResult where
  | running | ok | failed
  deriving DecidableEq

/-- `finishes` counts the calls of `finish`. -/
structure FlowRunReport where
  flowName : String
  trigger : String
  source : String
  result : RunResult := .running
  error : Option String := none
  finishes : Nat := 0
  deriving DecidableEq

def FlowRunReport.finish (r : FlowRunReport) (result : RunResult) (error : Option String) :
    FlowRunReport :=
  { r with result := result, error := error.bind stripped, finishes := r.finishes + 1 }

/-- Where the caller of an admitted run is: at its first `await asyncio.shield(seq_task)`,
at the one in the CancelledError handler, or gone. -/
inductive Caller where
  | awaiting | awaitingAgain | left
  deriving DecidableEq

/-- An admitted run; `task` is the outcome of its sequence task, `none` while that runs. -/
structure Run where
  report : FlowRunReport
  targetMode : Option String
  task : Option Outcome := none
  caller : Caller := .awaiting
  deriving DecidableEq

structure HistoryEvent where
  kind : String
  message : String
  level : String := "info"
  flowName : String
  trigger : String
  deriving DecidableEq

/-- The dictionary a call returns. -/
structure Reply where
  ok : Bool
  name : Option String := none
  mode : Option String := none
  lastFlow : Option String := none
  trigger : Option String := none
  source : Option String := none
  error : Option String := none
  reason : Option String := none
  reportId : Option Nat := none
  failures : List Failure := []
  deriving DecidableEq

/-- What the engine is built with: the flows of the speaker's profile, the dispatcher's
`available_modes` (`none`: no dispatcher) and whether there is a history. -/
structure Setup where
  flows : List String
  dispatcher : Option (List String)
  history : Bool

/-- The runtime engine. Runs are numbered in the order of admission, and a report's id is
its run's number. `bindings` is the mode last given to the dispatcher, `remembered` what the
mode writer was last given. -/
structure Engine where
  mode : String
  lastFlow : Option String
  locked : Bool := false
  flowRunning : Bool := false
  activeSequenceTask : Option Nat := none
  acted : Bool := false
  lastTrigger : Option String := none
  error : Bool := false
  lastError : Option String := none
  lastResult : Option String := none
  runs : List Run := []
  events : List HistoryEvent := []
  replies : List Reply := []
  bindings : Option String := none
  remembered : Option (String × Option String) := none
  deriving DecidableEq

def Engine.setRuntimeOk (e : Engine) (result : String) : Engine :=
  { e with error := false, lastError := none, lastResult := some result }

def Engine.setRuntimeError (e : Engine) (error result : String) : Engine :=
  { e with error := true, lastError := stripped error, lastResult := some result }

def Engine.emit (S : Setup) (e : Engine) (event : HistoryEvent) : Engine :=
  if S.history then { e with events := e.events ++ [event] } else e

def Engine.reply (e : Engine) (reply : Reply) : Engine :=
  { e with replies := e.replies ++ [reply] }

def Engine.remember (e : Engine) : Engine := { e with remembered := some (e.mode, e.lastFlow) }

/-- Change the report of run `i`. -/
def Engine.onReport (e : Engine) (i : Nat) (f : FlowRunReport → FlowRunReport) : Engine :=
  { e with runs := e.runs.modify i fun r => { r with report := f r.report } }

def targetModes : List (String × String) :=
  [("listen", "listen"), ("watch", "watch"), ("listen_signal", "listen"),
    ("watch_signal", "watch"), ("power_off", "power_off")]

def Setup.targetMode (S : Setup) (name : String) : Option String :=
  if strip name ∈ S.flows then targetModes.lookup (strip name) else none

/-- `_commit_mode_internal`; an error is the text of what it raises. -/
def Engine.commitModeInternal (S : Setup) (e : Engine) (name : String) : Except String Engine :=
  let name := strip name
  if name = "" then .error "mode name required"
  else
    match S.dispatcher with
    | none => .error "dispatcher unavailable"
    | some validModes =>
      if validModes ≠ [] ∧ name ∉ validModes then .error ("invalid_mode:" ++ name)
      else .ok { e with bindings := some name, mode := name }

def Engine.flowFailed (S : Setup) (e : Engine) (i : Nat) (r : FlowRunReport) (error : String)
    (failures : List Failure) : Engine :=
  let e := (e.setRuntimeError error "failed").onReport i fun r => r.finish .failed (some error)
  let e := e.emit S
    { kind := "flow_failed", message := "flow " ++ r.flowName ++ " failed", level := "error",
      flowName := r.flowName, trigger := r.trigger }
  e.reply
    { ok := false, name := r.flowName, trigger := r.trigger, source := r.source,
      error := error, reportId := i, failures := failures }

def Engine.flowOk (S : Setup) (e : Engine) (i : Nat) (r : FlowRunReport) : Engine :=
  let lastFlow := if r.flowName = "listen_signal" then "listen"
    else if r.flowName = "watch_signal" then "watch" else r.flowName
  let e := ({ e with lastFlow := some lastFlow }.remember.setRuntimeOk "ok").onReport i
    fun r => r.finish .ok none
  let e := e.emit S
    { kind := "flow_finished", message := "flow " ++ r.flowName ++ " completed",
      flowName := r.flowName, trigger := r.trigger }
  e.reply
    { ok := true, name := r.flowName, mode := e.mode, lastFlow := e.lastFlow,
      trigger := r.trigger, source := r.source, reportId := i }

/-- The `finally` block of `run_sequence` and the release of the lock. -/
def Engine.leave (e : Engine) (i : Nat) : Engine :=
  { e with activeSequenceTask := none, flowRunning := false, locked := false,
           runs := e.runs.modify i fun r => { r with caller := .left } }

/-- `run_sequence` from the outcome of the shielded task to its end. The commit never
suspends, so nothing comes in between. -/
def Engine.collect (S : Setup) (e : Engine) (i : Nat) (r : Run) : Outcome → Engine
  | .returned false => (e.flowFailed S i r.report "flow_failed" []).leave i
  | .returned true =>
    match r.targetMode with
    | none => (e.flowOk S i r.report).leave i
    | some mode =>
      match e.commitModeInternal S mode with
      | .error text => (e.flowFailed S i r.report ("mode_commit_failed:" ++ text) []).leave i
      | .ok e => (e.flowOk S i r.report).leave i
  | .stepFailures failures => (e.flowFailed S i r.report (failuresText failures) failures).leave i
  | .exception text => (e.flowFailed S i r.report text []).leave i

/-- `run_sequence` up to its first shield. The lock is free when it is taken, so `async
with` does not suspend. -/
def Engine.runSequence (S : Setup) (e : Engine) (name trigger source : String) : Engine :=
  let name := strip name
  let source := (stripped source).getD "intent"
  if name = "" then
    (e.setRuntimeError "flow_name_required" "invalid").reply
      { ok := false, error := "flow name required" }
  else if e.locked then
    { e with lastResult := some "busy" }.reply
      { ok := false, name := name, trigger := trigger, source := source, reason := "runner_busy" }
  else
    let run : Run :=
      { report := { flowName := name, trigger := trigger, source := source }
        targetMode := S.targetMode name }
    let e := { e with locked := true, flowRunning := true, acted := true,
                      lastTrigger := some trigger, activeSequenceTask := some e.runs.length,
                      runs := e.runs ++ [run] }
    e.emit S
      { kind := "flow_started", message := "flow " ++ name ++ " started",
        flowName := name, trigger := trigger }

def Engine.runFlow (S : Setup) (e : Engine) (name trigger : String) : Engine :=
  e.runSequence S name trigger "intent"

def Engine.onDeviceStateChange (S : Setup) (e : Engine) (name : String) : Engine :=
  let name := strip name
  if name = "" then
    (e.setRuntimeError "state_change_name_required" "invalid").reply
      { ok := false, error := "state change name required" }
  else if e.locked then
    { e with lastResult := some "busy" }.reply
      { ok := false, name := name, source := "device_state_change", reason := "runner_busy" }
  else if name = "listen" ∧ e.lastFlow = some "listen" then
    (e.setRuntimeOk "ignored_already_listen").reply
      { ok := false, name := name, reason := "last_flow_listen" }
  else if name = "watch" ∧ e.lastFlow = some "watch" then
    (e.setRuntimeOk "ignored_already_watch").reply
      { ok := false, name := name, reason := "last_flow_watch" }
  else
    match [("listen", "listen_signal"), ("watch", "watch_signal")].lookup name with
    | none =>
      (e.setRuntimeError "unknown_device_state_change" "invalid").reply
        { ok := false, name := name, reason := "unknown_device_state_change" }
    | some sequenceName =>
      e.runSequence S sequenceName ("device_state_change." ++ name) "device_state_change"

/-- `set_mode` from a task other than the running sequence. -/
def Engine.setMode (S : Setup) (e : Engine) (name trigger : String) : Engine :=
  let name := strip name
  if name = "" then
    (e.setRuntimeError "mode_name_required" "invalid").reply
      { ok := false, error := "mode name required" }
  else
    match S.dispatcher with
    | none =>
      (e.setRuntimeError "dispatcher_unavailable" "failed").reply
        { ok := false, error := "dispatcher unavailable" }
    | some validModes =>
      if e.flowRunning then
        { e with lastResult := some "busy" }.reply
          { ok := false, mode := name, trigger := trigger, reason := "sequence_running" }
      else if validModes ≠ [] ∧ name ∉ validModes then
        (e.setRuntimeError "invalid_mode" "invalid").reply
          { ok := false, error := "invalid_mode", mode := name, trigger := trigger }
      else
        ({ e with bindings := some name, lastTrigger := some trigger, mode := name,
                  acted := true }.remember.setRuntimeOk "ok").reply
          { ok := true, mode := name, trigger := trigger }

/-- The end of `_correct_startup_mode`, for the mode the devices ask for. -/
def Engine.correctStartupMode (S : Setup) (e : Engine) (want : String) : Engine :=
  if e.acted || e.flowRunning then e
  else if want = e.mode ∨ (S.dispatcher.getD [] ≠ [] ∧ want ∉ S.dispatcher.getD []) then e
  else { e with bindings := some want, mode := want, lastFlow := some want }.remember

/-- Calls from other tasks, the sequence task of run `i` ending, its caller woken by that,
and CancelledError delivered to its caller. -/
inductive Event where
  | runFlow (name trigger : String)
  | deviceStateChange (name : String)
  | setMode (name trigger : String)
  | correctStartupMode (want : String)
  | taskEnds (i : Nat) (outcome : Outcome)
  | resume (i : Nat)
  | cancel (i : Nat)
  deriving DecidableEq

def step (S : Setup) (e : Engine) : Event → Option Engine
  | .runFlow name trigger => some (e.runFlow S name trigger)
  | .deviceStateChange name => some (e.onDeviceStateChange S name)
  | .setMode name trigger => some (e.setMode S name trigger)
  | .correctStartupMode want => some (e.correctStartupMode S want)
  | .taskEnds i outcome =>
    match e.runs[i]? with
    | none => none
    | some r =>
      if r.task = none then
        some { e with runs := e.runs.modify i fun r => { r with task := some outcome } }
      else none
  | .resume i =>
    match e.runs[i]? with
    | none => none
    | some r =>
      match r.task, r.caller with
      | some outcome, .awaiting => some (e.collect S i r outcome)
      | some outcome, .awaitingAgain => some (e.collect S i r outcome)
      | _, _ => none
  | .cancel i =>
    match e.runs[i]? with
    | none => none
    | some r =>
      match r.caller, r.task with
      | .awaiting, none =>
        some { e with runs := e.runs.modify i fun r => { r with caller := .awaitingAgain } }
      -- the handler's shield of a task that is done does not suspend
      | .awaiting, some outcome => some (e.collect S i r outcome)
      -- CancelledError is no Exception: only the `finally` block runs
      | .awaitingAgain, _ => some (e.leave i)
      | .left, _ => none

/-- A run is in progress from its admission until its task has ended and its caller, who
collects the outcome, has left. -/
def Run.InProgress (r : Run) : Prop := r.task = none ∨ r.caller ≠ .left

instance (r : Run) : Decidable r.InProgress := inferInstanceAs (Decidable (_ ∨ _))

structure FlowRunReport.Unfinished (r : FlowRunReport) : Prop where
  running : r.result = .running
  finishes : r.finishes = 0

structure FlowRunReport.FinishedOnce (r : FlowRunReport) : Prop where
  result : r.result = .ok ∨ r.result = .failed
  finishes : r.finishes = 1

/-- What a call that starts nothing leaves as it was. -/
structure Undisturbed (e e' : Engine) : Prop where
  runs : e'.runs = e.runs
  flowRunning : e'.flowRunning = e.flowRunning
  locked : e'.locked = e.locked
  activeSequenceTask : e'.activeSequenceTask = e.activeSequenceTask
  events : e'.events = e.events
  mode : e'.mode = e.mode
  lastFlow : e'.lastFlow = e.lastFlow

def Event.IsCall : Event → Prop
  | .runFlow _ _ => True
  | .deviceStateChange _ => True
  | _ => False

/-- Single flight, in one state. -/
structure OneAtATime (S : Setup) (e : Engine) : Prop where
  at_most_one : ∀ (i j : Nat) (r q : Run), e.runs[i]? = some r → e.runs[j]? = some q → r.InProgress →
    q.InProgress → i = j
  flag : e.flowRunning = true ↔ ∃ r ∈ e.runs, r.InProgress
  starts_nothing : (∃ r ∈ e.runs, r.InProgress) → ∀ c e', c.IsCall → step S e c = some e' →
    Undisturbed e e'
  unfinished : ∀ r ∈ e.runs, r.InProgress → r.report.Unfinished
  finished : ∀ r ∈ e.runs, ¬ r.InProgress → r.report.FinishedOnce

/-- The event is not a cancellation of a caller that already waits in the CancelledError
handler. -/
def Spared (e : Engine) : Event → Prop
  | .cancel i => ∀ r, e.runs[i]? = some r → r.caller ≠ .awaitingAgain
  | _ => True

instance (e : Engine) (ev : Event) : Decidable (Spared e ev) :=
  match ev with
  | .cancel i => decidable_of_iff (∀ r ∈ e.runs[i]?, r.caller ≠ .awaitingAgain) Iff.rfl
  | .runFlow _ _ | .deviceStateChange _ | .setMode _ _ | .correctStartupMode _ | .taskEnds _ _
  | .resume _ => .isTrue trivial

/-- A run whose caller has not left. -/
structure Run.Live (r : Run) : Prop where
  caller : r.caller ≠ .left
  report : r.report.Unfinished

structure Run.Done (r : Run) : Prop where
  task : r.task ≠ none
  caller : r.caller = .left
  report : r.report.FinishedOnce

theorem Run.Live.inProgress {r : Run} (h : r.Live) : r.InProgress := Or.inr h.caller

theorem Run.Done.not_inProgress {r : Run} (h : r.Done) : ¬ r.InProgress := by
  simp [Run.InProgress, h.task, h.caller]

/-- No run, or one, which is the last that was admitted and holds the lock. -/
inductive Good (e : Engine) : Prop
  | idle : e.flowRunning = false → e.locked = false → (∀ r ∈ e.runs, r.Done) → Good e
  | busy (done : List Run) (r : Run) : e.flowRunning = true → e.locked = true →
      e.runs = done ++ [r] → (∀ q ∈ done, q.Done) → r.Live → Good e

/-- What the invariant reads is as it was. -/
structure SameRuns (e e' : Engine) : Prop where
  runs : e'.runs = e.runs
  flowRunning : e'.flowRunning = e.flowRunning
  locked : e'.locked = e.locked

theorem Good.same {e e' : Engine} (hgood : Good e) (h : SameRuns e e') : Good e' := by
  cases hgood with
  | idle hflag hlock hdone =>
    exact .idle (h.flowRunning.trans hflag) (h.locked.trans hlock) (by rwa [h.runs])
  | busy done r hflag hlock hruns hdone hlive =>
    exact .busy done r (h.flowRunning.trans hflag) (h.locked.trans hlock) (h.runs.trans hruns)
      hdone hlive

theorem Undisturbed.sameRuns {e e' : Engine} (h : Undisturbed e e') : SameRuns e e' :=
  ⟨h.runs, h.flowRunning, h.locked⟩

theorem emit_sameRuns (S : Setup) (e : Engine) (event : HistoryEvent) :
    SameRuns e (e.emit S event) := by
  unfold Engine.emit
  split
  · exact ⟨rfl, rfl, rfl⟩
  · exact ⟨rfl, rfl, rfl⟩

/-- What an admitted call changes. -/
structure Admitted (e e' : Engine) (r : Run) : Prop where
  runs : e'.runs = e.runs ++ [r]
  flowRunning : e'.flowRunning = true
  locked : e'.locked = true
  live : r.Live

theorem Admitted.good {e e' : Engine} {r : Run} (h : Admitted e e' r) (hlock : e.locked = false)
    (hgood : Good e) : Good e' := by
  cases hgood with
  | idle _ _ hdone => exact .busy e.runs r h.flowRunning h.locked h.runs hdone h.live
  | busy _ _ _ hlocked => simp [hlock] at hlocked

theorem runSequence_locked (S : Setup) {e : Engine} (name trigger source : String)
    (h : e.locked = true) : Undisturbed e (e.runSequence S name trigger source) := by
  unfold Engine.runSequence
  by_cases hname : strip name = ""
  · dsimp only
    rw [if_pos hname]
    constructor <;> rfl
  · dsimp only
    rw [if_neg hname, if_pos h]
    constructor <;> rfl

theorem runSequence_free (S : Setup) {e : Engine} (name trigger source : String)
    (h : e.locked = false) :
    SameRuns e (e.runSequence S name trigger source) ∨
      ∃ r, Admitted e (e.runSequence S name trigger source) r := by
  unfold Engine.runSequence
  by_cases hname : strip name = ""
  · dsimp only
    rw [if_pos hname]
    exact Or.inl ⟨rfl, rfl, rfl⟩
  · dsimp only
    rw [if_neg hname, if_neg (by simp [h])]
    have hsame := emit_sameRuns S
    exact Or.inr ⟨_, (hsame _ _).runs, (hsame _ _).flowRunning, (hsame _ _).locked,
      ⟨by simp, rfl, rfl⟩⟩

theorem runSequence_good (S : Setup) {e : Engine} (name trigger source : String) (h : Good e) :
    Good (e.runSequence S name trigger source) := by
  cases hlock : e.locked with
  | true => exact h.same (runSequence_locked S name trigger source hlock).sameRuns
  | false =>
    cases runSequence_free S name trigger source hlock with
    | inl hsame => exact h.same hsame
    | inr hadmitted =>
      obtain ⟨r, hr⟩ := hadmitted
      exact hr.good hlock h

theorem onDeviceStateChange_locked (S : Setup) {e : Engine} (name : String)
    (h : e.locked = true) : Undisturbed e (e.onDeviceStateChange S name) := by
  unfold Engine.onDeviceStateChange
  by_cases hname : strip name = ""
  · dsimp only
    rw [if_pos hname]
    constructor <;> rfl
  · dsimp only
    rw [if_neg hname, if_pos h]
    constructor <;> rfl

theorem onDeviceStateChange_good (S : Setup) {e : Engine} (name : String) (h : Good e) :
    Good (e.onDeviceStateChange S name) := by
  unfold Engine.onDeviceStateChange
  dsimp only
  split
  · exact h.same ⟨rfl, rfl, rfl⟩
  split
  · exact h.same ⟨rfl, rfl, rfl⟩
  split
  · exact h.same ⟨rfl, rfl, rfl⟩
  split
  · exact h.same ⟨rfl, rfl, rfl⟩
  split
  · exact h.same ⟨rfl, rfl, rfl⟩
  · exact runSequence_good S _ _ _ h

theorem setMode_sameRuns (S : Setup) (e : Engine) (name trigger : String) :
    SameRuns e (e.setMode S name trigger) := by
  unfold Engine.setMode
  dsimp only
  split
  · exact ⟨rfl, rfl, rfl⟩
  split
  · exact ⟨rfl, rfl, rfl⟩
  split
  · exact ⟨rfl, rfl, rfl⟩
  split
  · exact ⟨rfl, rfl, rfl⟩
  · exact ⟨rfl, rfl, rfl⟩

theorem correctStartupMode_sameRuns (S : Setup) (e : Engine) (want : String) :
    SameRuns e (e.correctStartupMode S want) := by
  unfold Engine.correctStartupMode
  split
  · exact ⟨rfl, rfl, rfl⟩
  split
  · exact ⟨rfl, rfl, rfl⟩
  · exact ⟨rfl, rfl, rfl⟩

theorem flowFailed_runs (S : Setup) (e : Engine) (i : Nat) (r : FlowRunReport) (error : String)
    (failures : List Failure) : (e.flowFailed S i r error failures).runs =
      e.runs.modify i fun r => { r with report := r.report.finish .failed (some error) } := by
  simp [Engine.flowFailed, Engine.reply, (emit_sameRuns S _ _).runs, Engine.onReport, Engine.setRuntimeError]

theorem flowOk_runs (S : Setup) (e : Engine) (i : Nat) (r : FlowRunReport) :
    (e.flowOk S i r).runs =
      e.runs.modify i fun r => { r with report := r.report.finish .ok none } := by
  simp [Engine.flowOk, Engine.reply, (emit_sameRuns S _ _).runs, Engine.onReport, Engine.setRuntimeOk,
    Engine.remember]

theorem commitModeInternal_runs {S : Setup} {e e' : Engine} {name : String}
    (h : e.commitModeInternal S name = .ok e') : e'.runs = e.runs := by
  unfold Engine.commitModeInternal at h
  dsimp only at h
  split at h
  · simp at h
  split at h
  · simp at h
  split at h
  · simp at h
  · obtain rfl := Except.ok.inj h
    rfl

/-- The caller leaves after finishing the report. -/
structure Left (e e' : Engine) (i : Nat) (result : RunResult) (error : Option String) : Prop where
  runs : e'.runs = e.runs.modify i fun r =>
    { r with report := r.report.finish result error, caller := .left }
  flowRunning : e'.flowRunning = false
  locked : e'.locked = false
  result : result = .ok ∨ result = .failed

theorem leave_failed (S : Setup) (e : Engine) (i : Nat) (r : FlowRunReport) (error : String)
    (failures : List Failure) :
    Left e ((e.flowFailed S i r error failures).leave i) i .failed (some error) := by
  refine ⟨?_, rfl, rfl, Or.inr rfl⟩
  simp only [Engine.leave, flowFailed_runs, List.modify_modify_eq]
  rfl

theorem leave_ok (S : Setup) (e : Engine) (i : Nat) (r : FlowRunReport) :
    Left e ((e.flowOk S i r).leave i) i .ok none := by
  refine ⟨?_, rfl, rfl, Or.inl rfl⟩
  simp only [Engine.leave, flowOk_runs, List.modify_modify_eq]
  rfl

theorem collect_left (S : Setup) (e : Engine) (i : Nat) (r : Run) (outcome : Outcome) :
    ∃ result error, Left e (e.collect S i r outcome) i result error := by
  cases outcome with
  | returned ok =>
    cases ok with
    | false => exact ⟨_, _, leave_failed S e i r.report _ _⟩
    | true =>
      cases hmode : r.targetMode with
      | none => exact ⟨_, _, by simpa [Engine.collect, hmode] using leave_ok S e i r.report⟩
      | some mode =>
        cases hcommit : e.commitModeInternal S mode with
        | error text =>
          exact ⟨_, _, by
            simpa [Engine.collect, hmode, hcommit] using leave_failed S e i r.report _ _⟩
        | ok e' =>
          have hleft := leave_ok S e' i r.report
          have hcollect : e.collect S i r (.returned true) = (e'.flowOk S i r.report).leave i := by
            simp [Engine.collect, hmode, hcommit]
          rw [hcollect]
          exact ⟨_, _, hleft.runs.trans (by rw [commitModeInternal_runs hcommit]), rfl, rfl,
            hleft.result⟩
  | stepFailures failures => exact ⟨_, _, leave_failed S e i r.report _ _⟩
  | exception text => exact ⟨_, _, leave_failed S e i r.report _ _⟩

/-- Only the last run can be in progress. -/
theorem last_of_inProgress {done : List Run} {r x : Run} {i : Nat} (hdone : ∀ q ∈ done, q.Done)
    (hx : (done ++ [r])[i]? = some x) (hprog : x.InProgress) : i = done.length ∧ x = r := by
  by_cases hi : i < done.length
  · rw [List.getElem?_append_left hi] at hx
    exact absurd hprog (hdone x (List.mem_of_getElem? hx)).not_inProgress
  · have hlen := (List.getElem?_eq_some_iff.mp hx).1
    obtain rfl : i = done.length := by simp at hlen; omega
    exact ⟨rfl, by simpa using hx.symm⟩

/-- A good engine with a run in progress is its done runs and that one. -/
theorem Good.split {e : Engine} {i : Nat} {x : Run} (h : Good e) (hx : e.runs[i]? = some x)
    (hprog : x.InProgress) : ∃ done, e.flowRunning = true ∧ e.locked = true ∧
      e.runs = done ++ [x] ∧ i = done.length ∧ (∀ q ∈ done, q.Done) ∧ x.Live := by
  cases h with
  | idle _ _ hdone => exact absurd hprog (hdone x (List.mem_of_getElem? hx)).not_inProgress
  | busy done r hflag hlock hruns hdone hlive =>
    rw [hruns] at hx
    obtain ⟨hi, rfl⟩ := last_of_inProgress hdone hx hprog
    exact ⟨done, hflag, hlock, hruns, hi, hdone, hlive⟩

theorem modify_last (done : List Run) (r : Run) (f : Run → Run) :
    (done ++ [r]).modify done.length f = done ++ [f r] := by
  simpa using modify_at done [] r f

theorem Left.good {e e' : Engine} {i : Nat} {x : Run} {result : RunResult} {error : Option String}
    (hleft : Left e e' i result error) (h : Good e) (hx : e.runs[i]? = some x)
    (htask : x.task ≠ none) (hcaller : x.caller ≠ .left) : Good e' := by
  obtain ⟨done, _, _, hruns, rfl, hdone, hlive⟩ := h.split hx (Or.inr hcaller)
  refine .idle hleft.flowRunning hleft.locked fun q hq => ?_
  rw [hleft.runs, hruns, modify_last, List.mem_append, List.mem_singleton] at hq
  cases hq with
  | inl hmem => exact hdone q hmem
  | inr hlast =>
    subst hlast
    refine ⟨htask, rfl, hleft.result, ?_⟩
    simp [FlowRunReport.finish, hlive.report.finishes]

theorem good_step {S : Setup} {e e' : Engine} {ev : Event} (h : Good e) (hspared : Spared e ev)
    (hstep : step S e ev = some e') : Good e' := by
  cases ev with
  | runFlow name trigger =>
    obtain rfl := Option.some.inj hstep
    exact runSequence_good S _ _ _ h
  | deviceStateChange name =>
    obtain rfl := Option.some.inj hstep
    exact onDeviceStateChange_good S _ h
  | setMode name trigger =>
    obtain rfl := Option.some.inj hstep
    exact h.same (setMode_sameRuns S e name trigger)
  | correctStartupMode want =>
    obtain rfl := Option.some.inj hstep
    exact h.same (correctStartupMode_sameRuns S e want)
  | taskEnds i outcome =>
    cases hx : e.runs[i]? with
    | none => simp [step, hx] at hstep
    | some x =>
      by_cases htask : x.task = none
      · obtain rfl : { e with runs := e.runs.modify i fun r => { r with task := some outcome } } =
            e' := by simpa [step, hx, htask] using hstep
        obtain ⟨done, hflag, hlock, hruns, rfl, hdone, hlive⟩ := h.split hx (Or.inl htask)
        refine .busy done { x with task := some outcome } hflag hlock ?_ hdone
          ⟨hlive.caller, hlive.report⟩
        simp only [hruns, modify_last]
      · simp [step, hx, htask] at hstep
  | resume i =>
    cases hx : e.runs[i]? with
    | none => simp [step, hx] at hstep
    | some x =>
      cases htask : x.task with
      | none => simp [step, hx, htask] at hstep
      | some outcome =>
        obtain ⟨result, error, hleft⟩ := collect_left S e i x outcome
        cases hcaller : x.caller with
        | left => simp [step, hx, htask, hcaller] at hstep
        | awaiting =>
          obtain rfl : e.collect S i x outcome = e' := by
            simpa [step, hx, htask, hcaller] using hstep
          exact hleft.good h hx (by simp [htask]) (by simp [hcaller])
        | awaitingAgain =>
          obtain rfl : e.collect S i x outcome = e' := by
            simpa [step, hx, htask, hcaller] using hstep
          exact hleft.good h hx (by simp [htask]) (by simp [hcaller])
  | cancel i =>
    cases hx : e.runs[i]? with
    | none => simp [step, hx] at hstep
    | some x =>
      cases hcaller : x.caller with
      | left => simp [step, hx, hcaller] at hstep
      | awaitingAgain => exact absurd hcaller (hspared x hx)
      | awaiting =>
        cases htask : x.task with
        | none =>
          obtain rfl : { e with runs := e.runs.modify i fun r =>
              { r with caller := .awaitingAgain } } = e' := by
            simpa [step, hx, hcaller, htask] using hstep
          obtain ⟨done, hflag, hlock, hruns, rfl, hdone, hlive⟩ := h.split hx (Or.inl htask)
          refine .busy done { x with caller := .awaitingAgain } hflag hlock ?_ hdone
            ⟨by simp, hlive.report⟩
          simp only [hruns, modify_last]
        | some outcome =>
          obtain ⟨result, error, hleft⟩ := collect_left S e i x outcome
          obtain rfl : e.collect S i x outcome = e' := by
            simpa [step, hx, hcaller, htask] using hstep
          exact hleft.good h hx (by simp [htask]) (by simp [hcaller])

theorem call_undisturbed {S : Setup} {e e' : Engine} {c : Event} (hlock : e.locked = true)
    (hcall : c.IsCall) (hstep : step S e c = some e') : Undisturbed e e' := by
  cases c with
  | runFlow name trigger =>
    obtain rfl := Option.some.inj hstep
    exact runSequence_locked S _ _ _ hlock
  | deviceStateChange name =>
    obtain rfl := Option.some.inj hstep
    exact onDeviceStateChange_locked S _ hlock
  | _ => exact hcall.elim

theorem Good.oneAtATime (S : Setup) {e : Engine} (h : Good e) : OneAtATime S e := by
  cases h with
  | idle hflag hlock hdone =>
    have hnone : ∀ r ∈ e.runs, ¬ r.InProgress := fun r hr => (hdone r hr).not_inProgress
    refine ⟨?_, ?_, ?_, fun r hr hprog => absurd hprog (hnone r hr),
      fun r hr _ => (hdone r hr).report⟩
    · intro i j r q hr hq hprog
      exact absurd hprog (hnone r (List.mem_of_getElem? hr))
    · simpa [hflag] using hnone
    · intro hprog
      obtain ⟨r, hr, hr'⟩ := hprog
      exact absurd hr' (hnone r hr)
  | busy done last hflag hlock hruns hdone hlive =>
    have hlast : ∀ r ∈ e.runs, r ∈ done ∨ r = last := by simp [hruns]
    refine ⟨?_, ?_, ?_, ?_, ?_⟩
    · intro i j r q hr hq hrprog hqprog
      rw [hruns] at hr hq
      exact (last_of_inProgress hdone hr hrprog).1.trans
        (last_of_inProgress hdone hq hqprog).1.symm
    · exact ⟨fun _ => ⟨last, by simp [hruns], hlive.inProgress⟩, fun _ => hflag⟩
    · intro _ c e' hcall hstep
      exact call_undisturbed hlock hcall hstep
    · intro r hr hprog
      cases hlast r hr with
      | inl hmem => exact absurd hprog (hdone r hmem).not_inProgress
      | inr heq => exact heq ▸ hlive.report
    · intro r hr hprog
      cases hlast r hr with
      | inl hmem => exact (hdone r hmem).report
      | inr heq => exact absurd (heq ▸ hlive.inProgress) hprog

/-- A caller cancelled in the handler leaves its report unfinished, the task perhaps running. -/
theorem Good.spared {S : Setup} {e e' : Engine} {ev : Event} (h : Good e)
    (hstep : step S e ev = some e') (hsafe : OneAtATime S e') : Spared e ev := by
  cases ev with
  | cancel i =>
    intro x hx hcaller
    obtain rfl : e.leave i = e' := by simpa [step, hx, hcaller] using hstep
    obtain ⟨done, _, _, hruns, rfl, _, hlive⟩ := h.split hx (Or.inr (by simp [hcaller]))
    have hmem : { x with caller := .left } ∈ (e.leave done.length).runs := by
      simp [Engine.leave, hruns, modify_last]
    cases htask : x.task with
    | none =>
      have hflag := hsafe.flag.mpr ⟨_, hmem, Or.inl htask⟩
      simp [Engine.leave] at hflag
    | some outcome =>
      have hfinished := hsafe.finished _ hmem (by simp [Run.InProgress, htask])
      have hcount := hfinished.finishes
      simp [hlive.report.finishes] at hcount
  | _ => trivial

/-- The engine when `start` returns. -/
def Engine.started (mode : String) (lastFlow : Option String) : Engine :=
  { mode := mode, lastFlow := lastFlow, lastTrigger := some "startup", lastResult := some "ok",
    bindings := some mode }

theorem good_of_spared {S : Setup} {mode : String} {lastFlow : Option String} {e : Engine}
    (h : ReachableBy (step S) Spared (Engine.started mode lastFlow) e) : Good e := by
  apply h.invariant
  · exact .idle rfl rfl (by simp [Engine.started])
  · intro t ev u hgood hspared hstep
    exact good_step hgood hspared hstep

/-- Single flight holds throughout a run exactly if no caller is cancelled while it waits in
the CancelledError handler. -/
theorem single_flight_iff (S : Setup) (mode : String) (lastFlow : Option String)
    {evs : List Event} {e : Engine}
    (h : execute (step S) (Engine.started mode lastFlow) evs = some e) :
    (∀ before after t, evs = before ++ after →
      execute (step S) (Engine.started mode lastFlow) before = some t → OneAtATime S t) ↔
      Along (step S) Spared (Engine.started mode lastFlow) evs := by
  constructor
  · intro hsafe
    induction evs using List.reverseRecOn generalizing e with
    | nil => trivial
    | append_singleton evs ev ih =>
      obtain ⟨t, ht, hstep⟩ := execute_concat h
      have halong := ih ht fun before after u hevs hu =>
        hsafe before (after ++ [ev]) u (by simp [hevs]) hu
      have hgood := good_of_spared (reachableBy_of_execute ht halong)
      have hspared := hgood.spared hstep (hsafe (evs ++ [ev]) [] e (by simp) h)
      refine along_append.mpr ⟨halong, fun u hu => ?_⟩
      obtain rfl := Option.some.inj (ht.symm.trans hu)
      exact ⟨hspared, by simp [hstep, Along]⟩
  · intro halong before after t hevs ht
    subst hevs
    exact (good_of_spared (reachableBy_of_execute ht (along_append.mp halong).1)).oneAtATime S

def sampleSetup : Setup :=
  { flows := ["listen", "watch", "power_off"], dispatcher := some ["listen", "watch", "power_off"]
    history := true }

def sampleEngine : Engine := Engine.started "power_off" (some "power_off")

/-- A call that finds the run in progress, a cancelled caller, then the flow's success. -/
def sampleEvents : List Event :=
  [.runFlow "watch" "http.ha", .deviceStateChange "listen", .cancel 0,
    .taskEnds 0 (.returned true), .resume 0, .runFlow "listen" "remote.rem_listen"]

theorem single_flight_sample :
    (execute (step sampleSetup) sampleEngine sampleEvents).isSome = true ∧
      ∀ before after t, sampleEvents = before ++ after →
        execute (step sampleSetup) sampleEngine before = some t → OneAtATime sampleSetup t := by
  have hrun : (execute (step sampleSetup) sampleEngine sampleEvents).isSome = true := by decide
  obtain ⟨e, he⟩ := Option.isSome_iff_exists.mp hrun
  exact ⟨hrun, (single_flight_iff sampleSetup _ _ he).mpr (by decide)⟩

/-- Two cancellations of the first caller let a second flow start beside the first. -/
def cancelledTwice : List Event :=
  [.runFlow "watch" "http.ha", .cancel 0, .cancel 0, .runFlow "listen" "remote.rem_listen"]

theorem two_runs_in_progress : ∃ e,
    execute (step sampleSetup) sampleEngine cancelledTwice = some e ∧
      e.runs.map Run.task = [none, none] ∧
      e.runs.map (fun r => r.report.result) = [.running, .running] ∧
      e.runs.map Run.caller = [.left, .awaiting] ∧ ¬ OneAtATime sampleSetup e := by
  refine ⟨_, rfl, by decide, by decide, by decide, fun h => ?_⟩
  have hsame : 0 = 1 := h.at_most_one 0 1 _ _ rfl rfl (by decide) (by decide)
  omega

end PiHub.SingleFlight

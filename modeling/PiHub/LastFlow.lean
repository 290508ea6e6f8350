import PiHub.SingleFlight

/-! The mode and the last flow (runtime.py): what each step of the engine makes of them, and
how the last flow keeps device-state signals apart. -/
namespace PiHub.LastFlow
open PiHub.Transition PiHub.PyStr PiHub.SingleFlight

/-- What a successful flow of this name leaves in `_last_flow`. -/
def logicalName (name : String) : String :=
  if name = "listen_signal" then "listen" else if name = "watch_signal" then "watch" else name

def Ok (r : Run) : Prop := r.report.result = .ok

instance (r : Run) : Decidable (Ok r) := inferInstanceAs (Decidable (_ = _))

def logical (r : Run) : String := logicalName r.report.flowName

/-- The step leaves the mode, the last flow, the bindings and the save alone. -/
structure SameMode (e e' : Engine) : Prop where
  mode : e'.mode = e.mode
  lastFlow : e'.lastFlow = e.lastFlow
  bindings : e'.bindings = e.bindings
  remembered : e'.remembered = e.remembered

/-- The step answers one call. -/
def Answered (e e' : Engine) (ok : Bool) : Prop :=
  ∃ reply : Reply, e'.replies = e.replies ++ [reply] ∧ reply.ok = ok

/-- `_commit_mode_internal` takes the name. -/
def Commits (S : Setup) (name : String) : Prop :=
  strip name ≠ "" ∧ ∃ validModes, S.dispatcher = some validModes ∧
    (validModes = [] ∨ strip name ∈ validModes)

/-- The flow returned true and its target mode, if any, can be committed. -/
def Succeeds (S : Setup) (r : Run) : Prop :=
  r.task = some (.returned true) ∧ ∀ mode, r.targetMode = some mode → Commits S mode

theorem commitModeInternal_cases (S : Setup) (e : Engine) (name : String) :
    (Commits S name ∧ e.commitModeInternal S name =
      .ok { e with bindings := some (strip name), mode := strip name }) ∨
      (¬ Commits S name ∧ ∃ text, e.commitModeInternal S name = .error text) := by
  unfold Engine.commitModeInternal Commits
  by_cases hname : strip name = ""
  · exact Or.inr ⟨fun h => h.1 hname, "mode name required", by simp [hname]⟩
  · cases hdisp : S.dispatcher with
    | none =>
      refine Or.inr ⟨fun h => ?_, "dispatcher unavailable", by simp [hname]⟩
      obtain ⟨_, _, hsome, _⟩ := h
      simp at hsome
    | some validModes =>
      by_cases hvalid : validModes ≠ [] ∧ strip name ∉ validModes
      · refine Or.inr ⟨fun h => ?_, "invalid_mode:" ++ strip name, ?_⟩
        · obtain ⟨_, modes, hsome, hmodes⟩ := h
          obtain rfl := Option.some.inj hsome
          exact hmodes.elim hvalid.1 hvalid.2
        · simp only [hname, if_false, if_pos hvalid]
      · refine Or.inl ⟨⟨hname, validModes, rfl, ?_⟩, ?_⟩
        · by_cases hnil : validModes = []
          · exact Or.inl hnil
          · exact Or.inr (by_contra fun hmem => hvalid ⟨hnil, hmem⟩)
        · simp only [hname, if_false, if_neg hvalid]

theorem emit_same (S : Setup) (e : Engine) (event : HistoryEvent) :
    SameMode e (e.emit S event) ∧ (e.emit S event).acted = e.acted ∧
      (e.emit S event).replies = e.replies := by
  unfold Engine.emit
  split
  · exact ⟨⟨rfl, rfl, rfl, rfl⟩, rfl, rfl⟩
  · exact ⟨⟨rfl, rfl, rfl, rfl⟩, rfl, rfl⟩

theorem flowFailed_same (S : Setup) (e : Engine) (i : Nat) (r : FlowRunReport) (error : String)
    (failures : List FlowSteps.Failure) : SameMode e ((e.flowFailed S i r error failures).leave i) ∧
      ((e.flowFailed S i r error failures).leave i).acted = e.acted ∧
      Answered e ((e.flowFailed S i r error failures).leave i) false := by
  obtain ⟨hsame, hacted, hreplies⟩ := emit_same S
    ((e.setRuntimeError error "failed").onReport i fun r => r.finish .failed (some error))
    { kind := "flow_failed", message := "flow " ++ r.flowName ++ " failed", level := "error"
      flowName := r.flowName, trigger := r.trigger }
  refine ⟨⟨hsame.mode, hsame.lastFlow, hsame.bindings, hsame.remembered⟩, hacted, ?_⟩
  exact ⟨_, congrArg (· ++ [_]) hreplies, rfl⟩

/-- What a flow's success writes. -/
structure Moved (e e' : Engine) (r : Run) : Prop where
  mode : e'.mode = r.targetMode.elim e.mode strip
  bindings : e'.bindings = r.targetMode.elim e.bindings fun mode => some (strip mode)
  lastFlow : e'.lastFlow = some (logical r)
  remembered : e'.remembered = some (e'.mode, e'.lastFlow)
  acted : e'.acted = e.acted
  answered : Answered e e' true

/-- The end of a run whose mode is committed in `t`. -/
theorem flowOk_moved (S : Setup) {e t : Engine} (i : Nat) (r : Run)
    (hmode : t.mode = r.targetMode.elim e.mode strip)
    (hbindings : t.bindings = r.targetMode.elim e.bindings fun mode => some (strip mode))
    (hacted : t.acted = e.acted) (hreplies : t.replies = e.replies) :
    Moved e ((t.flowOk S i r.report).leave i) r := by
  obtain ⟨hsame, hsacted, hsreplies⟩ := emit_same S
    (({ t with lastFlow := some (logical r) }.remember.setRuntimeOk "ok").onReport i
      fun r => r.finish .ok none)
    { kind := "flow_finished", message := "flow " ++ r.report.flowName ++ " completed"
      flowName := r.report.flowName, trigger := r.report.trigger }
  refine ⟨hsame.mode.trans hmode, hsame.bindings.trans hbindings, hsame.lastFlow, ?_,
    hsacted.trans hacted, ?_⟩
  · exact hsame.remembered.trans
      (congrArg some (Prod.ext hsame.mode.symm hsame.lastFlow.symm))
  · exact ⟨_, congrArg (· ++ [_]) (hsreplies.trans hreplies), rfl⟩

/-- How `run_sequence` ends for run `i`. -/
inductive Ended (S : Setup) (e e' : Engine) (i : Nat) (r : Run) : Prop
  | ok : Succeeds S r → Moved e e' r → Left e e' i .ok none → Ended S e e' i r
  | failed (error : String) : ¬ Succeeds S r → SameMode e e' → e'.acted = e.acted →
      Answered e e' false → Left e e' i .failed (some error) → Ended S e e' i r

theorem Ended.left {S : Setup} {e e' : Engine} {i : Nat} {r : Run} (h : Ended S e e' i r) :
    ∃ result error, Left e e' i result error := by
  cases h with
  | ok _ _ hleft => exact ⟨_, _, hleft⟩
  | failed error _ _ _ _ hleft => exact ⟨_, _, hleft⟩

theorem ended_of_failed {S : Setup} {e : Engine} {i : Nat} {r : Run} {error : String}
    {failures : List FlowSteps.Failure} (h : ¬ Succeeds S r) :
    Ended S e ((e.flowFailed S i r.report error failures).leave i) i r := by
  obtain ⟨hsame, hacted, hanswer⟩ := flowFailed_same S e i r.report error failures
  exact .failed error h hsame hacted hanswer (leave_failed S e i r.report error failures)

theorem collect_ended (S : Setup) (e : Engine) (i : Nat) (r : Run) {outcome : Outcome}
    (htask : r.task = some outcome) : Ended S e (e.collect S i r outcome) i r := by
  cases outcome with
  | stepFailures failures =>
    exact ended_of_failed fun h => by simp [Succeeds, htask] at h
  | exception text => exact ended_of_failed fun h => by simp [Succeeds, htask] at h
  | returned ok =>
    cases ok with
    | false => exact ended_of_failed fun h => by simp [Succeeds, htask] at h
    | true =>
      unfold Engine.collect
      cases hmode : r.targetMode with
      | none =>
        refine .ok ⟨htask, by simp [hmode]⟩ (flowOk_moved S i r ?_ ?_ rfl rfl)
          (leave_ok S e i r.report)
        · simp [hmode]
        · simp [hmode]
      | some mode =>
        obtain ⟨hcommits, heq⟩ | ⟨hnot, text, heq⟩ := commitModeInternal_cases S e mode
        · simp only [heq]
          refine .ok ⟨htask, by simpa [hmode] using hcommits⟩ (flowOk_moved S i r ?_ ?_ rfl rfl) ?_
          · simp [hmode]
          · simp [hmode]
          · have hleft := leave_ok S { e with bindings := some (strip mode), mode := strip mode } i
              r.report
            exact ⟨hleft.runs, hleft.flowRunning, hleft.locked, hleft.result⟩
        · simp only [heq]
          exact ended_of_failed fun h => hnot (h.2 mode hmode)

/-- A call that is turned down. -/
structure Refused (e e' : Engine) : Prop where
  same : SameMode e e'
  runs : SameRuns e e'
  acted : e'.acted = e.acted
  answered : Answered e e' false

/-- The run that `run_sequence` admits. -/
def newRun (S : Setup) (name trigger source : String) : Run :=
  { report := { flowName := strip name, trigger := trigger
                source := (stripped source).getD "intent" }
    targetMode := S.targetMode (strip name) }

structure Admission (S : Setup) (e e' : Engine) (name trigger source : String) : Prop where
  named : strip name ≠ ""
  free : e.locked = false
  admitted : Admitted e e' (newRun S name trigger source)
  same : SameMode e e'
  acted : e'.acted = true
  replies : e'.replies = e.replies

theorem runSequence_cases (S : Setup) (e : Engine) (name trigger source : String) :
    ((strip name = "" ∨ e.locked = true) ∧ Refused e (e.runSequence S name trigger source)) ∨
      Admission S e (e.runSequence S name trigger source) name trigger source := by
  unfold Engine.runSequence
  by_cases hname : strip name = ""
  · dsimp only
    rw [if_pos hname]
    exact Or.inl ⟨Or.inl hname, ⟨rfl, rfl, rfl, rfl⟩, ⟨rfl, rfl, rfl⟩, rfl, _, rfl, rfl⟩
  · cases hlock : e.locked with
    | true =>
      dsimp only
      rw [if_neg hname, if_pos rfl]
      exact Or.inl ⟨Or.inr rfl, ⟨rfl, rfl, rfl, rfl⟩, ⟨rfl, rfl, hlock.symm⟩, rfl, _, rfl, rfl⟩
    | false =>
      dsimp only
      rw [if_neg hname, if_neg (by simp)]
      obtain ⟨hsame, hacted, hreplies⟩ := emit_same S
        { e with locked := true, flowRunning := true, acted := true, lastTrigger := some trigger
                 activeSequenceTask := some e.runs.length
                 runs := e.runs ++ [newRun S name trigger source] }
        { kind := "flow_started", message := "flow " ++ strip name ++ " started"
          flowName := strip name, trigger := trigger }
      have hruns := emit_sameRuns S
        { e with locked := true, flowRunning := true, acted := true, lastTrigger := some trigger
                 activeSequenceTask := some e.runs.length
                 runs := e.runs ++ [newRun S name trigger source] }
        { kind := "flow_started", message := "flow " ++ strip name ++ " started"
          flowName := strip name, trigger := trigger }
      exact Or.inr ⟨hname, hlock,
        ⟨hruns.runs, hruns.flowRunning, hruns.locked, by simp [newRun], rfl, rfl⟩,
        ⟨hsame.mode, hsame.lastFlow, hsame.bindings, hsame.remembered⟩, hacted, hreplies⟩

/-- The flow that a device-state signal asks for. -/
def signalFlow (name : String) : Option String :=
  [("listen", "listen_signal"), ("watch", "watch_signal")].lookup name

theorem signalFlow_cases {name flow : String} (h : signalFlow name = some flow) :
    (name = "listen" ∧ flow = "listen_signal") ∨ (name = "watch" ∧ flow = "watch_signal") := by
  unfold signalFlow at h
  rw [List.lookup_cons] at h
  by_cases heq : name = "listen"
  · exact Or.inl ⟨heq, by simpa [heq] using h.symm⟩
  · rw [beq_false_of_ne heq, List.lookup_cons] at h
    by_cases heq' : name = "watch"
    · exact Or.inr ⟨heq', by simpa [heq'] using h.symm⟩
    · rw [beq_false_of_ne heq'] at h
      simp at h

theorem onDeviceStateChange_cases (S : Setup) (e : Engine) (name : String) :
    Refused e (e.onDeviceStateChange S name) ∨
      ∃ flow, signalFlow (strip name) = some flow ∧ e.lastFlow ≠ some (logicalName flow) ∧
        Admission S e (e.onDeviceStateChange S name) flow
          ("device_state_change." ++ strip name) "device_state_change" := by
  unfold Engine.onDeviceStateChange
  dsimp only
  split
  · exact Or.inl ⟨⟨rfl, rfl, rfl, rfl⟩, ⟨rfl, rfl, rfl⟩, rfl, _, rfl, rfl⟩
  split
  · exact Or.inl ⟨⟨rfl, rfl, rfl, rfl⟩, ⟨rfl, rfl, rfl⟩, rfl, _, rfl, rfl⟩
  rename_i hname hfree
  split
  · exact Or.inl ⟨⟨rfl, rfl, rfl, rfl⟩, ⟨rfl, rfl, rfl⟩, rfl, _, rfl, rfl⟩
  rename_i hlisten
  split
  · exact Or.inl ⟨⟨rfl, rfl, rfl, rfl⟩, ⟨rfl, rfl, rfl⟩, rfl, _, rfl, rfl⟩
  rename_i hwatch
  split
  · exact Or.inl ⟨⟨rfl, rfl, rfl, rfl⟩, ⟨rfl, rfl, rfl⟩, rfl, _, rfl, rfl⟩
  · rename_i flow hflow
    obtain ⟨_, href⟩ | hadm := runSequence_cases S e flow ("device_state_change." ++ strip name)
      "device_state_change"
    · exact Or.inl href
    · refine Or.inr ⟨flow, hflow, fun hlast => ?_, hadm⟩
      -- the two names the table knows are the two that were compared with the last flow
      obtain ⟨heq, rfl⟩ | ⟨heq, rfl⟩ := signalFlow_cases hflow
      · exact hlisten ⟨heq, hlast⟩
      · exact hwatch ⟨heq, hlast⟩

/-- With no flow running, a signal that the last flow does not hold back starts its flow. -/
theorem onDeviceStateChange_admits {S : Setup} {e : Engine} {name flow : String}
    (hfree : e.locked = false) (hflow : signalFlow (strip name) = some flow)
    (hlast : e.lastFlow ≠ some (strip name)) :
    Admission S e (e.onDeviceStateChange S name) flow ("device_state_change." ++ strip name)
      "device_state_change" := by
  have hnames := signalFlow_cases hflow
  have hname : strip name ≠ "" := by
    obtain ⟨heq, _⟩ | ⟨heq, _⟩ := hnames
    · simp [heq]
    · simp [heq]
  have hother : ∀ signal : String, ¬ (strip name = signal ∧ e.lastFlow = some signal) := by
    rintro signal ⟨heq, hsome⟩
    exact hlast (hsome.trans (congrArg some heq.symm))
  have hrun : e.onDeviceStateChange S name = e.runSequence S flow
      ("device_state_change." ++ strip name) "device_state_change" := by
    unfold signalFlow at hflow
    unfold Engine.onDeviceStateChange
    dsimp only
    rw [if_neg hname, if_neg (by simp [hfree]), if_neg (hother "listen"), if_neg (hother "watch"),
      hflow]
  rw [hrun]
  obtain ⟨hwhy | hlock, _⟩ | hadm := runSequence_cases S e flow
    ("device_state_change." ++ strip name) "device_state_change"
  · obtain ⟨_, rfl⟩ | ⟨_, rfl⟩ := hnames
    · exact absurd hwhy (by decide)
    · exact absurd hwhy (by decide)
  · simp [hfree] at hlock
  · exact hadm

/-- An accepted `set_mode`. -/
structure ModeSet (S : Setup) (e e' : Engine) (name : String) : Prop where
  idle : e.flowRunning = false
  commits : Commits S name
  mode : e'.mode = strip name
  bindings : e'.bindings = some (strip name)
  lastFlow : e'.lastFlow = e.lastFlow
  remembered : e'.remembered = some (e'.mode, e'.lastFlow)
  acted : e'.acted = true
  runs : SameRuns e e'
  answered : Answered e e' true

theorem setMode_cases (S : Setup) (e : Engine) (name trigger : String) :
    Refused e (e.setMode S name trigger) ∨ ModeSet S e (e.setMode S name trigger) name := by
  unfold Engine.setMode
  by_cases hname : strip name = ""
  · simp only [if_pos hname]
    exact Or.inl ⟨⟨rfl, rfl, rfl, rfl⟩, ⟨rfl, rfl, rfl⟩, rfl, _, rfl, rfl⟩
  · cases hdisp : S.dispatcher with
    | none =>
      simp only [if_neg hname]
      exact Or.inl ⟨⟨rfl, rfl, rfl, rfl⟩, ⟨rfl, rfl, rfl⟩, rfl, _, rfl, rfl⟩
    | some validModes =>
      by_cases hflag : e.flowRunning = true
      · simp only [if_neg hname, if_pos hflag]
        exact Or.inl ⟨⟨rfl, rfl, rfl, rfl⟩, ⟨rfl, rfl, rfl⟩, rfl, _, rfl, rfl⟩
      · by_cases hvalid : validModes ≠ [] ∧ strip name ∉ validModes
        · simp only [if_neg hname, if_neg hflag, if_pos hvalid]
          exact Or.inl ⟨⟨rfl, rfl, rfl, rfl⟩, ⟨rfl, rfl, rfl⟩, rfl, _, rfl, rfl⟩
        · simp only [if_neg hname, if_neg hflag, if_neg hvalid]
          refine Or.inr ⟨by simpa using hflag, ⟨hname, validModes, hdisp, ?_⟩, rfl, rfl, rfl, rfl,
            rfl, ⟨rfl, rfl, rfl⟩, _, rfl, rfl⟩
          by_cases hnil : validModes = []
          · exact Or.inl hnil
          · exact Or.inr (by_contra fun hmem => hvalid ⟨hnil, hmem⟩)

/-- The start-up check changes the mode. -/
structure Corrected (S : Setup) (e e' : Engine) (want : String) : Prop where
  before : e.acted = false
  valid : S.dispatcher.getD [] = [] ∨ want ∈ S.dispatcher.getD []
  mode : e'.mode = want
  bindings : e'.bindings = some want
  lastFlow : e'.lastFlow = some want
  remembered : e'.remembered = some (e'.mode, e'.lastFlow)
  acted : e'.acted = e.acted
  runs : SameRuns e e'
  replies : e'.replies = e.replies

theorem correctStartupMode_cases (S : Setup) (e : Engine) (want : String) :
    e.correctStartupMode S want = e ∨ Corrected S e (e.correctStartupMode S want) want := by
  unfold Engine.correctStartupMode
  by_cases hacted : (e.acted || e.flowRunning) = true
  · exact Or.inl (if_pos hacted)
  · rw [if_neg hacted]
    by_cases hskip : want = e.mode ∨ (S.dispatcher.getD [] ≠ [] ∧ want ∉ S.dispatcher.getD [])
    · exact Or.inl (if_pos hskip)
    · rw [if_neg hskip]
      have hidle : e.acted = false ∧ e.flowRunning = false := by simpa using hacted
      refine Or.inr ⟨hidle.1, ?_, rfl, rfl, rfl, rfl,
        rfl, ⟨rfl, rfl, rfl⟩, rfl⟩
      by_cases hnil : S.dispatcher.getD [] = []
      · exact Or.inl hnil
      · exact Or.inr (by_contra fun hmem => hskip (Or.inr ⟨hnil, hmem⟩))

/-- Only run `i` changes. -/
structure Changes (e e' : Engine) (i : Nat) (r r' : Run) : Prop where
  before : e.runs[i]? = some r
  after : e'.runs[i]? = some r'
  others : ∀ k, k ≠ i → e'.runs[k]? = e.runs[k]?
  length : e'.runs.length = e.runs.length

theorem changes_of_modify {e e' : Engine} {i : Nat} {r : Run} (f : Run → Run)
    (hr : e.runs[i]? = some r) (h : e'.runs = e.runs.modify i f) : Changes e e' i r (f r) := by
  refine ⟨hr, ?_, fun k hk => ?_, ?_⟩
  · rw [h, List.getElem?_modify_eq, hr]
    rfl
  · rw [h, List.getElem?_modify_ne _ _ (Ne.symm hk)]
  · rw [h, List.length_modify]

/-- A step that only moves run `i` on: it changes neither the report nor whether the caller
is there. -/
structure MovesOn (e e' : Engine) (i : Nat) (r r' : Run) : Prop where
  changes : Changes e e' i r r'
  report : r'.report = r.report
  targetMode : r'.targetMode = r.targetMode
  caller : r'.caller = .left ↔ r.caller = .left
  same : SameMode e e'
  acted : e'.acted = e.acted
  replies : e'.replies = e.replies
  locked : e'.locked = e.locked
  flowRunning : e'.flowRunning = e.flowRunning

/-- What each event can do. -/
inductive Effect (S : Setup) (e : Engine) : Event → Engine → Prop
  | flowRefused {name trigger : String} {e' : Engine} :
      (strip name = "" ∨ e.locked = true) → Refused e e' → Effect S e (.runFlow name trigger) e'
  | flowAdmitted {name trigger : String} {e' : Engine} :
      Admission S e e' name trigger "intent" → Effect S e (.runFlow name trigger) e'
  | signalRefused {name : String} {e' : Engine} :
      Refused e e' → Effect S e (.deviceStateChange name) e'
  | signalAdmitted {name flow trigger : String} {e' : Engine} :
      signalFlow (strip name) = some flow → e.lastFlow ≠ some (logicalName flow) →
      Admission S e e' flow trigger "device_state_change" →
      Effect S e (.deviceStateChange name) e'
  | modeRefused {name trigger : String} {e' : Engine} :
      Refused e e' → Effect S e (.setMode name trigger) e'
  | modeSet {name trigger : String} {e' : Engine} :
      ModeSet S e e' name → Effect S e (.setMode name trigger) e'
  | stands {want : String} : Effect S e (.correctStartupMode want) e
  | corrected {want : String} {e' : Engine} :
      Corrected S e e' want → Effect S e (.correctStartupMode want) e'
  | movesOn {ev : Event} {i : Nat} {r r' : Run} {e' : Engine} :
      MovesOn e e' i r r' → r.task = none → Effect S e ev e'
  | ended {ev : Event} {i : Nat} {r : Run} {e' : Engine} :
      e.runs[i]? = some r → r.task ≠ none → r.caller ≠ .left → Ended S e e' i r → Effect S e ev e'
  | abandoned {i : Nat} {r : Run} :
      e.runs[i]? = some r → r.caller = .awaitingAgain → Effect S e (.cancel i) (e.leave i)

theorem step_effect {S : Setup} {e e' : Engine} {ev : Event} (h : step S e ev = some e') :
    Effect S e ev e' := by
  cases ev with
  | runFlow name trigger =>
    obtain rfl := Option.some.inj h
    obtain ⟨hwhy, href⟩ | hadm := runSequence_cases S e name trigger "intent"
    · exact .flowRefused hwhy href
    · exact .flowAdmitted hadm
  | deviceStateChange name =>
    obtain rfl := Option.some.inj h
    obtain href | ⟨flow, hflow, hlast, hadm⟩ := onDeviceStateChange_cases S e name
    · exact .signalRefused href
    · exact .signalAdmitted hflow hlast hadm
  | setMode name trigger =>
    obtain rfl := Option.some.inj h
    obtain href | hset := setMode_cases S e name trigger
    · exact .modeRefused href
    · exact .modeSet hset
  | correctStartupMode want =>
    obtain rfl := Option.some.inj h
    obtain hsame | hcorr := correctStartupMode_cases S e want
    · rw [hsame]
      exact .stands
    · exact .corrected hcorr
  | taskEnds i outcome =>
    cases hx : e.runs[i]? with
    | none => simp [step, hx] at h
    | some r =>
      by_cases htask : r.task = none
      · obtain rfl : { e with runs := e.runs.modify i fun r => { r with task := some outcome } } =
            e' := by simpa [step, hx, htask] using h
        have hmoves : MovesOn e { e with runs := e.runs.modify i fun r =>
            { r with task := some outcome } } i r { r with task := some outcome } :=
          ⟨changes_of_modify (fun r => { r with task := some outcome }) hx rfl, rfl, rfl, Iff.rfl, ⟨rfl, rfl, rfl, rfl⟩, rfl, rfl, rfl, rfl⟩
        exact .movesOn hmoves htask
      · simp [step, hx, htask] at h
  | resume i =>
    cases hx : e.runs[i]? with
    | none => simp [step, hx] at h
    | some r =>
      cases htask : r.task with
      | none => simp [step, hx, htask] at h
      | some outcome =>
        have hended := collect_ended S e i r htask
        cases hcaller : r.caller with
        | left => simp [step, hx, htask, hcaller] at h
        | awaiting =>
          obtain rfl : e.collect S i r outcome = e' := by simpa [step, hx, htask, hcaller] using h
          exact .ended hx (by simp [htask]) (by simp [hcaller]) hended
        | awaitingAgain =>
          obtain rfl : e.collect S i r outcome = e' := by simpa [step, hx, htask, hcaller] using h
          exact .ended hx (by simp [htask]) (by simp [hcaller]) hended
  | cancel i =>
    cases hx : e.runs[i]? with
    | none => simp [step, hx] at h
    | some r =>
      cases hcaller : r.caller with
      | left => simp [step, hx, hcaller] at h
      | awaitingAgain =>
        obtain rfl : e.leave i = e' := by simpa [step, hx, hcaller] using h
        exact .abandoned hx hcaller
      | awaiting =>
        cases htask : r.task with
        | none =>
          obtain rfl : { e with runs := e.runs.modify i fun r =>
              { r with caller := .awaitingAgain } } = e' := by
            simpa [step, hx, hcaller, htask] using h
          have hmoves : MovesOn e { e with runs := e.runs.modify i fun r =>
              { r with caller := .awaitingAgain } } i r { r with caller := .awaitingAgain } :=
            ⟨changes_of_modify (fun r => { r with caller := .awaitingAgain }) hx rfl, rfl, rfl, by simp [hcaller], ⟨rfl, rfl, rfl, rfl⟩, rfl, rfl,
              rfl, rfl⟩
          exact .movesOn hmoves htask
        | some outcome =>
          obtain rfl : e.collect S i r outcome = e' := by
            simpa [step, hx, hcaller, htask] using h
          exact .ended hx (by simp [htask]) (by simp [hcaller]) (collect_ended S e i r htask)

theorem left_changes {e e' : Engine} {i : Nat} {r : Run} {result : RunResult}
    {error : Option String} (h : Left e e' i result error) (hr : e.runs[i]? = some r) :
    Changes e e' i r { r with report := r.report.finish result error, caller := .left } :=
  changes_of_modify (fun r => { r with report := r.report.finish result error, caller := .left })
    hr h.runs

theorem leave_changes {e : Engine} {i : Nat} {r : Run} (hr : e.runs[i]? = some r) :
    Changes e (e.leave i) i r { r with caller := .left } :=
  changes_of_modify (fun r => { r with caller := .left }) hr rfl

/-- What an event leaves of the mode. -/
inductive ModeAfter (S : Setup) (e : Engine) : Event → Engine → Prop
  | same {ev : Event} {e' : Engine} : SameMode e e' → ModeAfter S e ev e'
  | set {name trigger : String} {e' : Engine} :
      ModeSet S e e' name → ModeAfter S e (.setMode name trigger) e'
  | corrected {want : String} {e' : Engine} :
      Corrected S e e' want → ModeAfter S e (.correctStartupMode want) e'
  | moved {ev : Event} {i : Nat} {r : Run} {e' : Engine} :
      e.runs[i]? = some r → r.task ≠ none → r.caller ≠ .left → Succeeds S r → Moved e e' r →
      Left e e' i .ok none → ModeAfter S e ev e'

theorem Effect.mode {S : Setup} {e e' : Engine} {ev : Event} (h : Effect S e ev e') :
    ModeAfter S e ev e' := by
  cases h with
  | flowRefused _ href => exact .same href.same
  | flowAdmitted hadm => exact .same hadm.same
  | signalRefused href => exact .same href.same
  | signalAdmitted _ _ hadm => exact .same hadm.same
  | modeRefused href => exact .same href.same
  | modeSet hset => exact .set hset
  | stands => exact .same ⟨rfl, rfl, rfl, rfl⟩
  | corrected hcorr => exact .corrected hcorr
  | movesOn hm _ => exact .same hm.same
  | ended hr htask hcaller hend =>
    cases hend with
    | ok hok hmoved hleft => exact .moved hr htask hcaller hok hmoved hleft
    | failed _ _ hsame _ _ _ => exact .same hsame
  | abandoned _ _ => exact .same ⟨rfl, rfl, rfl, rfl⟩

/-- What an event leaves of the runs. -/
inductive RunsAfter (S : Setup) (e : Engine) : Event → Engine → Prop
  | same {ev : Event} {e' : Engine} : SameRuns e e' → RunsAfter S e ev e'
  | admitted {ev : Event} {name trigger source : String} {e' : Engine} :
      Admission S e e' name trigger source → RunsAfter S e ev e'
  | movesOn {ev : Event} {i : Nat} {r r' : Run} {e' : Engine} :
      MovesOn e e' i r r' → r.task = none → RunsAfter S e ev e'
  | ended {ev : Event} {i : Nat} {r : Run} {result : RunResult} {error : Option String}
      {e' : Engine} : e.runs[i]? = some r → r.task ≠ none → r.caller ≠ .left →
      Ended S e e' i r → Left e e' i result error → RunsAfter S e ev e'
  | abandoned {i : Nat} {r : Run} :
      e.runs[i]? = some r → r.caller = .awaitingAgain → RunsAfter S e (.cancel i) (e.leave i)

theorem Effect.runs {S : Setup} {e e' : Engine} {ev : Event} (h : Effect S e ev e') :
    RunsAfter S e ev e' := by
  cases h with
  | flowRefused _ href => exact .same href.runs
  | flowAdmitted hadm => exact .admitted hadm
  | signalRefused href => exact .same href.runs
  | signalAdmitted _ _ hadm => exact .admitted hadm
  | modeRefused href => exact .same href.runs
  | modeSet hset => exact .same hset.runs
  | stands => exact .same ⟨rfl, rfl, rfl⟩
  | corrected hcorr => exact .same hcorr.runs
  | movesOn hm htask => exact .movesOn hm htask
  | ended hr htask hcaller hend =>
    obtain ⟨result, error, hleft⟩ := hend.left
    exact .ended hr htask hcaller hend hleft
  | abandoned hr hcaller => exact .abandoned hr hcaller

theorem Changes.forall_runs {e e' : Engine} {i : Nat} {r r' : Run} {P : Run → Prop}
    (hch : Changes e e' i r r') (h : ∀ q ∈ e.runs, P q) (hr' : P r → P r') : ∀ q ∈ e'.runs, P q := by
  intro q hq
  obtain ⟨k, hk⟩ := List.mem_iff_getElem?.mp hq
  by_cases hki : k = i
  · subst hki
    obtain rfl := Option.some.inj (hch.after.symm.trans hk)
    exact hr' (h r (List.mem_of_getElem? hch.before))
  · rw [hch.others k hki] at hk
    exact h q (List.mem_of_getElem? hk)

/-- What holds of a new run, and says nothing but the flow and its target mode, holds of every
run. -/
theorem RunsAfter.forall_runs {S : Setup} {e e' : Engine} {ev : Event} {P : Run → Prop}
    (h : RunsAfter S e ev e') (hold : ∀ r ∈ e.runs, P r)
    (hnew : ∀ name trigger source, strip name ≠ "" → P (newRun S name trigger source))
    (hkeep : ∀ r r' : Run, r'.report.flowName = r.report.flowName →
      r'.targetMode = r.targetMode → P r → P r') : ∀ r ∈ e'.runs, P r := by
  cases h with
  | same hruns => exact hruns.runs ▸ hold
  | admitted hadm =>
    intro r hr
    rw [hadm.admitted.runs, List.mem_append, List.mem_singleton] at hr
    cases hr with
    | inl hmem => exact hold r hmem
    | inr heq => exact heq ▸ hnew _ _ _ hadm.named
  | movesOn hm _ =>
    exact hm.changes.forall_runs hold (hkeep _ _ (congrArg FlowRunReport.flowName hm.report)
      hm.targetMode)
  | ended hr _ _ _ hleft => exact (left_changes hleft hr).forall_runs hold (hkeep _ _ rfl rfl)
  | abandoned hr _ => exact (leave_changes hr).forall_runs hold (hkeep _ _ rfl rfl)

theorem RunsAfter.length {S : Setup} {e e' : Engine} {ev : Event} (h : RunsAfter S e ev e') :
    e.runs.length ≤ e'.runs.length := by
  cases h with
  | same hruns => exact Nat.le_of_eq (congrArg List.length hruns.runs.symm)
  | admitted hadm => simp [hadm.admitted.runs]
  | movesOn hm _ => exact Nat.le_of_eq hm.changes.length.symm
  | ended hr _ _ _ hleft => exact Nat.le_of_eq (left_changes hleft hr).length.symm
  | abandoned hr _ => exact Nat.le_of_eq (leave_changes hr).length.symm

/-- No step puts a run back in progress. -/
theorem RunsAfter.inProgress {S : Setup} {e e' : Engine} {ev : Event} {i : Nat} {r r' : Run}
    (h : RunsAfter S e ev e') (hr : e.runs[i]? = some r) (hr' : e'.runs[i]? = some r')
    (hprog : r'.InProgress) : r.InProgress := by
  have hchanged : ∀ {j : Nat} {q q' : Run}, Changes e e' j q q' →
      (q'.InProgress → q.InProgress) → r.InProgress := by
    intro j q q' hch hq
    by_cases hi : i = j
    · subst hi
      obtain rfl := Option.some.inj (hch.before.symm.trans hr)
      obtain rfl := Option.some.inj (hch.after.symm.trans hr')
      exact hq hprog
    · obtain rfl := Option.some.inj (hr.symm.trans ((hch.others i hi).symm.trans hr'))
      exact hprog
  cases h with
  | same hruns =>
    rw [hruns.runs, hr] at hr'
    exact Option.some.inj hr' ▸ hprog
  | admitted hadm =>
    rw [hadm.admitted.runs, List.getElem?_append_left (List.getElem?_eq_some_iff.mp hr).1, hr] at hr'
    exact Option.some.inj hr' ▸ hprog
  | movesOn hm htask => exact hchanged hm.changes fun _ => Or.inl htask
  | ended hx htask hcaller _ hleft => exact hchanged (left_changes hleft hx) fun _ => Or.inr hcaller
  | abandoned hx hcaller => exact hchanged (leave_changes hx) fun _ => Or.inr (by simp [hcaller])

/-- Only the last run has a caller waiting, who holds the lock. -/
structure Callers (e : Engine) : Prop where
  waiting : ∀ (i : Nat) (r : Run), e.runs[i]? = some r → r.caller ≠ .left →
    e.locked = true ∧ i + 1 = e.runs.length ∧ ¬ Ok r
  holder : e.locked = true → ∃ r ∈ e.runs, r.caller ≠ .left

theorem Callers.same {e e' : Engine} (h : Callers e) (hsame : SameRuns e e') : Callers e' := by
  constructor
  · rw [hsame.runs, hsame.locked]
    exact h.waiting
  · rw [hsame.runs, hsame.locked]
    exact h.holder

theorem Callers.admission {S : Setup} {e e' : Engine} {name trigger source : String}
    (h : Callers e) (hadm : Admission S e e' name trigger source) : Callers e' := by
  refine ⟨fun i r hr hcaller => ?_, fun _ => ⟨newRun S name trigger source, ?_, by simp [newRun]⟩⟩
  · rw [hadm.admitted.runs] at hr
    by_cases hi : i < e.runs.length
    · rw [List.getElem?_append_left hi] at hr
      have hlock := (h.waiting i r hr hcaller).1
      simp [hadm.free] at hlock
    · have hlen := (List.getElem?_eq_some_iff.mp hr).1
      obtain rfl : i = e.runs.length := by simp at hlen; omega
      obtain rfl : newRun S name trigger source = r := by simpa using hr
      exact ⟨hadm.admitted.locked, by simp [hadm.admitted.runs], by simp [Ok, newRun]⟩
  · simp [hadm.admitted.runs]

theorem Callers.movesOn {e e' : Engine} {i : Nat} {r r' : Run} (h : Callers e)
    (hm : MovesOn e e' i r r') : Callers e' := by
  refine ⟨fun k q hq hcaller => ?_, fun hlock => ?_⟩
  · rw [hm.locked, hm.changes.length]
    by_cases hk : k = i
    · subst hk
      obtain rfl := Option.some.inj (hm.changes.after.symm.trans hq)
      have hr := h.waiting k r hm.changes.before (mt hm.caller.mpr hcaller)
      exact ⟨hr.1, hr.2.1, by simpa [Ok, hm.report] using hr.2.2⟩
    · rw [hm.changes.others k hk] at hq
      exact h.waiting k q hq hcaller
  · rw [hm.locked] at hlock
    obtain ⟨q, hq, hcaller⟩ := h.holder hlock
    obtain ⟨k, hk⟩ := List.mem_iff_getElem?.mp hq
    by_cases hki : k = i
    · subst hki
      obtain rfl := Option.some.inj (hm.changes.before.symm.trans hk)
      exact ⟨r', List.mem_of_getElem? hm.changes.after, mt hm.caller.mp hcaller⟩
    · rw [← hm.changes.others k hki] at hk
      exact ⟨q, List.mem_of_getElem? hk, hcaller⟩

/-- The run that had the lock gives it back and its caller is gone. -/
theorem Callers.gone {e e' : Engine} {i : Nat} {r r' : Run} (h : Callers e)
    (hch : Changes e e' i r r') (hcaller : r.caller ≠ .left) (hlock : e'.locked = false)
    (hleft : r'.caller = .left) : Callers e' := by
  refine ⟨fun k q hq hq' => ?_, fun hl => by simp [hlock] at hl⟩
  by_cases hk : k = i
  · subst hk
    obtain rfl := Option.some.inj (hch.after.symm.trans hq)
    exact absurd hleft hq'
  · rw [hch.others k hk] at hq
    have hk' := (h.waiting k q hq hq').2.1
    have hi := (h.waiting i r hch.before hcaller).2.1
    omega

theorem Callers.step {S : Setup} {e e' : Engine} {ev : Event} (h : Callers e)
    (heff : Effect S e ev e') : Callers e' := by
  cases heff.runs with
  | same hruns => exact h.same hruns
  | admitted hadm => exact h.admission hadm
  | movesOn hm _ => exact h.movesOn hm
  | ended hr _ hcaller _ hleft => exact h.gone (left_changes hleft hr) hcaller hleft.locked rfl
  | abandoned hr hcaller =>
    exact h.gone (leave_changes hr) (by simp [hcaller]) rfl rfl

/-- The run was started by a device-state signal. -/
def OfSignal (r : Run) : Prop := r.report.source = "device_state_change"

instance (r : Run) : Decidable (OfSignal r) := inferInstanceAs (Decidable (_ = _))

/-- Between two successful runs of one logical name, the later started by a signal, another
name has come. -/
def Apart (runs : List Run) : Prop :=
  ∀ (i j : Nat) (r q : Run), i < j → runs[i]? = some r → runs[j]? = some q → Ok r → Ok q →
    OfSignal q → logical r = logical q →
    ∃ k p, i < k ∧ k < j ∧ runs[k]? = some p ∧ Ok p ∧ logical p ≠ logical q

/-- The last flow is the logical name of the last successful run, and a signal's run was
admitted under another. -/
structure Marked (e : Engine) : Prop where
  acted : e.runs ≠ [] → e.acted = true
  since : ∀ (i : Nat) (r : Run), e.runs[i]? = some r → Ok r →
    e.lastFlow = some (logical r) ∨
      ∃ k p, i < k ∧ e.runs[k]? = some p ∧ Ok p ∧ logical p ≠ logical r
  fresh : ∀ r ∈ e.runs, r.caller ≠ .left → OfSignal r → e.lastFlow ≠ some (logical r)
  apart : Apart e.runs

theorem Marked.same {e e' : Engine} (h : Marked e) (hruns : e'.runs = e.runs)
    (hlast : e'.lastFlow = e.lastFlow) (hacted : e.acted = true → e'.acted = true) : Marked e' := by
  refine ⟨fun hne => hacted (h.acted (hruns ▸ hne)), ?_, ?_, hruns ▸ h.apart⟩
  · rw [hruns, hlast]
    exact h.since
  · rw [hruns, hlast]
    exact h.fresh

/-- Nothing has run before the start-up check changes the last flow. -/
theorem Marked.corrected {S : Setup} {e e' : Engine} {want : String} (h : Marked e)
    (hcorr : Corrected S e e' want) : Marked e' := by
  have hnil : e'.runs = [] := by
    rw [hcorr.runs.runs]
    by_contra hne
    simpa [hcorr.before] using h.acted hne
  refine ⟨fun hne => absurd hnil hne, ?_, ?_, ?_⟩
  · intro i r hr
    simp [hnil] at hr
  · intro r hr
    simp [hnil] at hr
  · intro i j r q _ hr
    simp [hnil] at hr

theorem Marked.admission {S : Setup} {e e' : Engine} {name trigger source : String}
    (h : Marked e) (hadm : Admission S e e' name trigger source)
    (hsignal : OfSignal (newRun S name trigger source) →
      e.lastFlow ≠ some (logical (newRun S name trigger source))) : Marked e' := by
  have hold : ∀ {k : Nat} {p : Run}, e'.runs[k]? = some p → Ok p → e.runs[k]? = some p := by
    intro k p hp hok
    rw [hadm.admitted.runs] at hp
    by_cases hk : k < e.runs.length
    · rwa [List.getElem?_append_left hk] at hp
    · have hlen := (List.getElem?_eq_some_iff.mp hp).1
      obtain rfl : k = e.runs.length := by simp at hlen; omega
      obtain rfl : newRun S name trigger source = p := by simpa using hp
      simp [Ok, newRun] at hok
  have hnew : ∀ {k : Nat} {p : Run}, e.runs[k]? = some p → e'.runs[k]? = some p := by
    intro k p hp
    rw [hadm.admitted.runs, List.getElem?_append_left (List.getElem?_eq_some_iff.mp hp).1]
    exact hp
  refine ⟨fun _ => hadm.acted, ?_, ?_, ?_⟩
  · intro i r hr hok
    rw [hadm.same.lastFlow]
    obtain hlast | ⟨k, p, hik, hp, hpok, hne⟩ := h.since i r (hold hr hok) hok
    · exact Or.inl hlast
    · exact Or.inr ⟨k, p, hik, hnew hp, hpok, hne⟩
  · intro r hr hcaller hsig
    rw [hadm.same.lastFlow]
    rw [hadm.admitted.runs, List.mem_append, List.mem_singleton] at hr
    cases hr with
    | inl hmem => exact h.fresh r hmem hcaller hsig
    | inr heq =>
      subst heq
      exact hsignal hsig
  · intro i j r q hij hr hq hrok hqok hsig heq
    obtain ⟨k, p, hik, hkj, hp, hrest⟩ := h.apart i j r q hij (hold hr hrok) (hold hq hqok) hrok
      hqok hsig heq
    exact ⟨k, p, hik, hkj, hnew hp, hrest⟩

/-- A run changes and does not count as successful by it. -/
theorem Marked.changes {e e' : Engine} {i : Nat} {r r' : Run} (h : Marked e)
    (hch : Changes e e' i r r') (hacted : e'.acted = e.acted) (hlast : e'.lastFlow = e.lastFlow)
    (hreport : Ok r ∨ Ok r' ∨ r'.caller ≠ .left → r'.report = r.report)
    (hcaller : r'.caller ≠ .left → r.caller ≠ .left) : Marked e' := by
  have hold : ∀ {k : Nat} {p : Run}, e'.runs[k]? = some p → Ok p →
      ∃ q, e.runs[k]? = some q ∧ p.report = q.report := by
    intro k p hp hok
    by_cases hk : k = i
    · subst hk
      obtain rfl := Option.some.inj (hch.after.symm.trans hp)
      exact ⟨r, hch.before, hreport (Or.inr (Or.inl hok))⟩
    · exact ⟨p, (hch.others k hk).symm.trans hp, rfl⟩
  have hnew : ∀ {k : Nat} {p : Run}, e.runs[k]? = some p → Ok p →
      ∃ q, e'.runs[k]? = some q ∧ q.report = p.report := by
    intro k p hp hok
    by_cases hk : k = i
    · subst hk
      obtain rfl := Option.some.inj (hch.before.symm.trans hp)
      exact ⟨r', hch.after, hreport (Or.inl hok)⟩
    · exact ⟨p, (hch.others k hk).trans hp, rfl⟩
  refine ⟨fun _ => ?_, ?_, ?_, ?_⟩
  · rw [hacted]
    exact h.acted fun hnil => by simpa [hnil] using hch.before
  · intro k p hp hok
    obtain ⟨q, hq, heq⟩ := hold hp hok
    unfold Ok logical at *
    rw [heq] at hok
    rw [hlast, heq]
    obtain hl | ⟨m, x, hkm, hx, hxok, hne⟩ := h.since k q hq hok
    · exact Or.inl hl
    · obtain ⟨y, hy, hyx⟩ := hnew hx hxok
      exact Or.inr ⟨m, y, hkm, hy, hyx ▸ hxok, by rw [hyx]; exact hne⟩
  · intro p hp hpcaller hsig
    obtain ⟨k, hk⟩ := List.mem_iff_getElem?.mp hp
    rw [hlast]
    by_cases hki : k = i
    · subst hki
      obtain rfl := Option.some.inj (hch.after.symm.trans hk)
      have heq := hreport (Or.inr (Or.inr hpcaller))
      unfold OfSignal at hsig
      unfold logical
      rw [heq] at hsig ⊢
      exact h.fresh r (List.mem_of_getElem? hch.before) (hcaller hpcaller) hsig
    · rw [hch.others k hki] at hk
      exact h.fresh p (List.mem_of_getElem? hk) hpcaller hsig
  · intro j k p q hjk hp hq hpok hqok hsig heq
    obtain ⟨p', hp', hpp⟩ := hold hp hpok
    obtain ⟨q', hq', hqq⟩ := hold hq hqok
    unfold Ok logical OfSignal at *
    rw [hpp] at hpok heq
    rw [hqq] at hqok hsig heq
    obtain ⟨m, x, hjm, hmk, hx, hxok, hne⟩ := h.apart j k p' q' hjk hp' hq' hpok hqok hsig heq
    obtain ⟨y, hy, hyx⟩ := hnew hx hxok
    exact ⟨m, y, hjm, hmk, hy, hyx ▸ hxok, by rw [hyx, hqq]; exact hne⟩

/-- The last run ends well: its name is now the last flow. -/
theorem Marked.ok {e e' : Engine} {i : Nat} {r : Run} (h : Marked e) (hc : Callers e)
    (hr : e.runs[i]? = some r) (hcaller : r.caller ≠ .left) (hmoved : Moved e e' r)
    (hleft : Left e e' i .ok none) : Marked e' := by
  have hch := left_changes hleft hr
  obtain ⟨_, hlen, hrok⟩ := hc.waiting i r hr hcaller
  have hold : ∀ {k : Nat} {p : Run}, e'.runs[k]? = some p → k ≠ i → e.runs[k]? = some p :=
    fun hp hk => (hch.others _ hk).symm.trans hp
  have hnew : ∀ {k : Nat} {p : Run}, e.runs[k]? = some p → Ok p → k < i ∧ e'.runs[k]? = some p := by
    intro k p hp hok
    have hk : k ≠ i := by
      intro hk
      subst hk
      obtain rfl := Option.some.inj (hr.symm.trans hp)
      exact hrok hok
    have hlt := (List.getElem?_eq_some_iff.mp hp).1
    exact ⟨by omega, (hch.others k hk).trans hp⟩
  refine ⟨fun _ => ?_, ?_, ?_, ?_⟩
  · rw [hmoved.acted]
    exact h.acted fun hnil => by simp [hnil] at hr
  · intro k p hp hok
    rw [hmoved.lastFlow]
    by_cases hk : k = i
    · subst hk
      obtain rfl := Option.some.inj (hch.after.symm.trans hp)
      exact Or.inl rfl
    · by_cases heq : logical r = logical p
      · exact Or.inl (congrArg some heq)
      · have hlt := (List.getElem?_eq_some_iff.mp (hold hp hk)).1
        exact Or.inr ⟨i, _, by omega, hch.after, rfl, heq⟩
  · intro p hp hp'
    obtain ⟨k, hk⟩ := List.mem_iff_getElem?.mp hp
    by_cases hki : k = i
    · subst hki
      obtain rfl := Option.some.inj (hch.after.symm.trans hk)
      exact absurd rfl hp'
    · have hlast := (hc.waiting k p (hold hk hki) hp').2.1
      omega
  · intro j k p q hjk hp hq hpok hqok hsig heq
    have hklt := (List.getElem?_eq_some_iff.mp hq).1
    rw [hch.length] at hklt
    have hp' := hold hp (by omega)
    by_cases hki : k = i
    · subst hki
      obtain rfl := Option.some.inj (hch.after.symm.trans hq)
      -- the signal found another last flow, so an earlier success of its name has been followed
      have hfresh := h.fresh r (List.mem_of_getElem? hr) hcaller hsig
      obtain hlast | ⟨m, x, hjm, hx, hxok, hne⟩ := h.since j p hp' hpok
      · exact absurd (heq ▸ hlast) hfresh
      · obtain ⟨hmk, hx'⟩ := hnew hx hxok
        exact ⟨m, x, hjm, hmk, hx', hxok, fun hx => hne (hx.trans heq.symm)⟩
    · obtain ⟨m, x, hjm, hmk, hx, hxok, hne⟩ :=
        h.apart j k p q hjk hp' (hold hq hki) hpok hqok hsig heq
      exact ⟨m, x, hjm, hmk, (hnew hx hxok).2, hxok, hne⟩

theorem intent_not_signal {S : Setup} {name trigger : String} :
    ¬ OfSignal (newRun S name trigger "intent") := by
  have hsource : (stripped "intent").getD "intent" ≠ "device_state_change" := by decide
  exact hsource

theorem Marked.step {S : Setup} {e e' : Engine} {ev : Event} (h : Marked e) (hc : Callers e)
    (heff : Effect S e ev e') : Marked e' := by
  cases heff with
  | flowRefused _ href =>
    exact h.same href.runs.runs href.same.lastFlow fun ha => href.acted.trans ha
  | flowAdmitted hadm => exact h.admission hadm fun hsig => absurd hsig intent_not_signal
  | signalRefused href =>
    exact h.same href.runs.runs href.same.lastFlow fun ha => href.acted.trans ha
  | signalAdmitted hflow hlast hadm =>
    refine h.admission hadm fun _ => ?_
    obtain ⟨_, rfl⟩ | ⟨_, rfl⟩ := signalFlow_cases hflow
    · exact hlast
    · exact hlast
  | modeRefused href =>
    exact h.same href.runs.runs href.same.lastFlow fun ha => href.acted.trans ha
  | modeSet hset => exact h.same hset.runs.runs hset.lastFlow fun _ => hset.acted
  | stands => exact h
  | corrected hcorr => exact h.corrected hcorr
  | movesOn hm _ =>
    exact h.changes hm.changes hm.acted hm.same.lastFlow (fun _ => hm.report) (mt hm.caller.mpr)
  | ended hr _ hcaller hend =>
    have hrok := (hc.waiting _ _ hr hcaller).2.2
    cases hend with
    | ok _ hmoved hleft => exact h.ok hc hr hcaller hmoved hleft
    | failed _ _ hsame hacted _ hleft =>
      refine h.changes (left_changes hleft hr) hacted hsame.lastFlow ?_ fun _ => hcaller
      rintro (hok | hok | hleft')
      · exact absurd hok hrok
      · simp [Ok, FlowRunReport.finish] at hok
      · simp at hleft'
  | abandoned hr hcaller =>
    exact h.changes (leave_changes hr) rfl rfl (fun _ => rfl) (by simp [hcaller])

theorem started_marked (mode : String) (lastFlow : Option String) :
    Marked (Engine.started mode lastFlow) := by
  refine ⟨by simp [Engine.started], ?_, ?_, ?_⟩
  · simp [Engine.started]
  · simp [Engine.started]
  · simp [Apart, Engine.started]

theorem started_callers (mode : String) (lastFlow : Option String) :
    Callers (Engine.started mode lastFlow) := by
  constructor
  · simp [Engine.started]
  · simp [Engine.started]

theorem marked_of_reachable {S : Setup} {mode : String} {lastFlow : Option String} {e : Engine}
    (h : Reachable (step S) (Engine.started mode lastFlow) e) : Callers e ∧ Marked e := by
  apply h.invariant (P := fun e => Callers e ∧ Marked e)
  · exact ⟨started_callers mode lastFlow, started_marked mode lastFlow⟩
  · intro t ev u ht _ hstep
    have heff := step_effect hstep
    exact ⟨ht.1.step heff, ht.2.step ht.1 heff⟩

/-- Signals do not flap, in one state. Runs are numbered as they are admitted. -/
structure NoFlapping (S : Setup) (e : Engine) : Prop where
  in_order : ∀ (i : Nat) (r : Run), e.runs[i]? = some r → i + 1 < e.runs.length → r.caller = .left
  between : ∀ (name flow : String), signalFlow name = some flow → ∀ (i j : Nat) (r q : Run),
    i < j → e.runs[i]? = some r → e.runs[j]? = some q → r.report.flowName = flow →
    q.report.flowName = flow → OfSignal r → OfSignal q → Ok r → Ok q →
    ∃ k p, i < k ∧ k < j ∧ e.runs[k]? = some p ∧ Ok p ∧ logical p ≠ name
  explicit : ∀ name trigger : String, strip name ≠ "" → (∀ r ∈ e.runs, ¬ r.InProgress) →
    (e.runFlow S name trigger).runs = e.runs ++ [newRun S name trigger "intent"]
  any_last_flow : ∀ (name trigger : String) (lastFlow : Option String),
    ({ e with lastFlow := lastFlow }.runFlow S name trigger).runs = (e.runFlow S name trigger).runs

theorem runFlow_runs (S : Setup) (e : Engine) (name trigger : String) :
    (e.runFlow S name trigger).runs =
      if strip name = "" ∨ e.locked = true then e.runs
      else e.runs ++ [newRun S name trigger "intent"] := by
  obtain ⟨hwhy, href⟩ | hadm := runSequence_cases S e name trigger "intent"
  · rw [if_pos hwhy]
    exact href.runs.runs
  · have hname : ¬ (strip name = "" ∨ e.locked = true) := by
      rintro (hname | hlock)
      · exact hadm.named hname
      · simp [hadm.free] at hlock
    rw [if_neg hname]
    exact hadm.admitted.runs

/-- Between two device-state signals whose flows both succeeded, another flow has succeeded;
an explicit flow is never held back by the last flow. -/
theorem signals_do_not_flap (S : Setup) (mode : String) (lastFlow : Option String) {e : Engine}
    (h : Reachable (step S) (Engine.started mode lastFlow) e) : NoFlapping S e := by
  obtain ⟨hcallers, hmarked⟩ := marked_of_reachable h
  refine ⟨?_, ?_, ?_, ?_⟩
  · intro i r hr hlt
    by_contra hcaller
    have hlen := (hcallers.waiting i r hr hcaller).2.1
    omega
  · intro name flow hflow i j r q hij hr hq hrflow hqflow _ hqsig hrok hqok
    have hlogical : logical q = name := by
      unfold logical
      rw [hqflow]
      obtain ⟨rfl, rfl⟩ | ⟨rfl, rfl⟩ := signalFlow_cases hflow
      · rfl
      · rfl
    have heq : logical r = logical q := by
      unfold logical
      rw [hrflow, hqflow]
    obtain ⟨k, p, hik, hkj, hp, hpok, hne⟩ := hmarked.apart i j r q hij hr hq hrok hqok hqsig heq
    exact ⟨k, p, hik, hkj, hp, hpok, hlogical ▸ hne⟩
  · intro name trigger hname hidle
    rw [runFlow_runs, if_neg]
    rintro (hempty | hlock)
    · exact hname hempty
    · obtain ⟨r, hr, hcaller⟩ := hcallers.holder hlock
      exact hidle r hr (Or.inr hcaller)
  · intro name trigger lastFlow
    rw [runFlow_runs, runFlow_runs]

/-- Two successful listen signals with a watch flow between them. -/
def listenTwice : List Event :=
  [.deviceStateChange "listen", .taskEnds 0 (.returned true), .resume 0,
    .deviceStateChange "listen", .runFlow "watch" "http.ha", .taskEnds 1 (.returned true), .resume 1,
    .deviceStateChange "listen", .taskEnds 2 (.returned true), .resume 2]

def signalSetup : Setup :=
  { flows := ["listen", "watch", "power_off", "listen_signal"]
    dispatcher := some ["power_off", "watch", "listen"], history := true }

theorem listen_twice_apart : ∃ e,
    execute (step signalSetup) (Engine.started "power_off" none) listenTwice = some e ∧
      e.runs.map (fun r => r.report.flowName) = ["listen_signal", "watch", "listen_signal"] ∧
      e.runs.map (fun r => r.report.result) = [.ok, .ok, .ok] ∧ NoFlapping signalSetup e := by
  have hrun : (execute (step signalSetup) (Engine.started "power_off" none) listenTwice).map
      (fun e => (e.runs.map fun r => r.report.flowName, e.runs.map fun r => r.report.result)) =
      some (["listen_signal", "watch", "listen_signal"], [.ok, .ok, .ok]) := by decide
  obtain ⟨e, he, hseen⟩ := Option.map_eq_some_iff.mp hrun
  obtain ⟨hnames, hresults⟩ := Prod.mk.inj hseen
  exact ⟨e, he, hnames, hresults,
    signals_do_not_flap signalSetup "power_off" none (reachable_of_execute he)⟩

end PiHub.LastFlow

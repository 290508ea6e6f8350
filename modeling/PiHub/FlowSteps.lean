import Mathlib.Data.List.Basic

/-! Flows as sequences of `FlowContext.step` calls (flows.py): what each step's outcome
does to the report, the failures and the background tasks. -/
namespace PiHub.FlowSteps

/-- The keys of `_CONDITIONS`. -/
inductive Condition where
  | tvIsOn | tvIsOff | frameTvIsOff | speakerIsOnListenSource | speakerIsInMultiroom
  | speakerShouldStop
  deriving DecidableEq

def Condition.name : Condition → String
  | .tvIsOn => "tv_is_on"
  | .tvIsOff => "tv_is_off"
  | .frameTvIsOff => "frame_tv_is_off"
  | .speakerIsOnListenSource => "speaker_is_on_listen_source"
  | .speakerIsInMultiroom => "speaker_is_in_multiroom"
  | .speakerShouldStop => "speaker_should_stop"

structure Snapshot where
  tvIsOn : Bool
  tvIsFrame : Bool
  speakerSource : String
  speakerIsMultiroomGuest : Bool
  speakerIsMultiroomHost : Bool

def listenSources : List String := ["wifi", "airplay", "multiroom-secondary"]

def Condition.holds (snap : Snapshot) : Condition → Bool
  | .tvIsOn => snap.tvIsOn
  | .tvIsOff => !snap.tvIsOn
  | .frameTvIsOff => snap.tvIsFrame && !snap.tvIsOn
  | .speakerIsOnListenSource => snap.speakerSource ∈ listenSources
  | .speakerIsInMultiroom => snap.speakerSource ∈ listenSources &&
      (snap.speakerIsMultiroomGuest || snap.speakerIsMultiroomHost)
  | .speakerShouldStop => snap.speakerSource ∈ listenSources && !snap.speakerIsMultiroomGuest

/-- An exception an action raises, with its text. -/
inductive Exc where
  | timeoutError (text : String)
  | other (text : String)
  deriving DecidableEq

/-- What becomes of a step's action. `overran`: it is cut off by the step's timeout, or by
the settle timeout if it is a background step without one. -/
inductive Outcome where
  | returned
  | raised (exc : Exc)
  | overran
  deriving DecidableEq

/-- The arguments of one `ctx.step` call, and its action's outcome in this run. `τ` is the
type of timeouts. -/
structure Step (τ : Type) where
  stepId : String
  domain : String
  action : String
  cond : Option Condition
  timeoutS : Option τ
  background : Bool
  outcome : Outcome
  bounded : outcome = .overran → timeoutS.isSome = true ∨ background = true
  deriving DecidableEq

inductive ReportMode where
  | dispatch | await
  deriving DecidableEq

inductive Status where
  | pending | skipped | ok | failed | dispatched
  deriving DecidableEq

structure FlowStepReport where
  stepId : String
  domain : String
  action : String
  mode : ReportMode
  status : Status := .pending
  reason : Option String := none
  error : Option String := none
  outcomeStatus : Option Status := none
  outcomeError : Option String := none
  deriving DecidableEq

def FlowStepReport.finish (r : FlowStepReport) (status : Status) (reason error : Option String) :
    FlowStepReport :=
  { r with status := status, reason := reason, error := error }

def FlowStepReport.markDispatched (r : FlowStepReport) : FlowStepReport :=
  r.finish .dispatched none none

def FlowStepReport.settleOutcome (r : FlowStepReport) (status : Status) (error : Option String) :
    FlowStepReport :=
  { r with outcomeStatus := some status, outcomeError := error }

structure Failure where
  stepId : String
  domain : String
  action : String
  phase : String
  error : String
  deriving DecidableEq

/-- What a run raises: the failures it collected, or what escaped a handler. -/
inductive Raised where
  | flowStepFailures (failures : List Failure)
  | typeError (text : String)
  deriving DecidableEq

/-- One flow run. A step's report is found by the number of its call. `calls`, `started`
and `pending` (background tasks created and not yet awaited) record the run. -/
structure FlowContext (τ : Type) where
  report : Option (List FlowStepReport)
  failures : List Failure := []
  background : List (Step τ × Nat) := []
  calls : Nat := 0
  started : List (Step τ) := []
  pending : List (Step τ) := []

variable {τ : Type}

def FlowContext.start (reported : Bool) : FlowContext τ :=
  { report := if reported then some [] else none }

def Step.holds (snap : Snapshot) (s : Step τ) : Bool := s.cond.all fun cond => cond.holds snap

/-- What awaiting the step's task raises. -/
def Step.raises (s : Step τ) : Option Exc :=
  match s.outcome with
  | .returned => none
  | .raised exc => some exc
  | .overran => some (.timeoutError "")

def Step.newReport (s : Step τ) : FlowStepReport where
  stepId := s.stepId
  domain := s.domain
  action := s.action
  mode := if s.background then .dispatch else .await

namespace FlowContext

def onReport (c : FlowContext τ) (call : Nat) (f : FlowStepReport → FlowStepReport) :
    FlowContext τ :=
  { c with report := c.report.map fun rs => rs.modify call f }

/-- `_fail`. -/
def fail (c : FlowContext τ) (s : Step τ) (phase error : String) (call : Nat) (outcome : Bool) :
    FlowContext τ :=
  let c := c.onReport call fun r =>
    if outcome then r.settleOutcome .failed (some error) else r.finish .failed none (some error)
  { c with failures := c.failures ++ [⟨s.stepId, s.domain, s.action, phase, error⟩] }

/-- `FlowContext.step`, and the exception that leaves it, if any. `g` gives the `:g` text
of a timeout; `None` has none. -/
def step (g : τ → String) (snap : Snapshot) (c : FlowContext τ) (s : Step τ) :
    Option Raised × FlowContext τ :=
  let call := c.calls
  let c := { c with report := c.report.map (· ++ [s.newReport]), calls := c.calls + 1 }
  match s.cond.filter fun cond => !cond.holds snap with
  | some cond =>
    (none, c.onReport call fun r => r.finish .skipped (some ("when_false:" ++ cond.name)) none)
  | none => start g c s call
where
  start (g : τ → String) (c : FlowContext τ) (s : Step τ) (call : Nat) :
      Option Raised × FlowContext τ :=
    let c := { c with started := c.started ++ [s] }
    if s.background then
      let c := { c with pending := c.pending ++ [s] }
      let c := c.onReport call FlowStepReport.markDispatched
      (none, { c with background := c.background ++ [(s, call)] })
    else
      match s.raises with
      | none => (none, c.onReport call fun r => r.finish .ok none none)
      | some (.timeoutError _) =>
        match s.timeoutS with
        | none =>
          (some (.typeError "unsupported format string passed to NoneType.__format__"), c)
        | some t => (none, c.fail s "step_run" ("timeout:" ++ g t ++ "s") call false)
      | some (.other text) => (none, c.fail s "step_run" text call false)

/-- The error text of a background step whose task raised TimeoutError. -/
def settleTimeoutError (g : τ → String) (s : Step τ) : String :=
  match s.timeoutS with
  | none => "dispatch_settle_timeout:10s"
  | some t => "timeout:" ++ g t ++ "s"

/-- One round of `settle_background`. -/
def settle (g : τ → String) (c : FlowContext τ) (entry : Step τ × Nat) : FlowContext τ :=
  let c := { c with pending := c.pending.tail }
  match entry.1.raises with
  | none => c.onReport entry.2 fun r => r.settleOutcome .ok none
  | some (.timeoutError _) =>
    c.fail entry.1 "dispatch_settle" (settleTimeoutError g entry.1) entry.2 true
  | some (.other text) => c.fail entry.1 "dispatch_settle" text entry.2 true

def settleBackground (g : τ → String) (c : FlowContext τ) : FlowContext τ :=
  c.background.foldl (settle g) c

end FlowContext

/-- The steps of a flow function, until one lets an exception out. -/
def runSteps (g : τ → String) (snap : Snapshot) :
    FlowContext τ → List (Step τ) → Option Raised × FlowContext τ
  | c, [] => (none, c)
  | c, s :: steps =>
    match c.step g snap s with
    | (none, c) => runSteps g snap c steps
    | (some raised, c) => (some raised, c)

/-- `FlowRunner.run` of a known flow, from the snapshot on. -/
def run (g : τ → String) (snap : Snapshot) (reported : Bool) (flow : List (Step τ)) :
    Except Raised Bool × FlowContext τ :=
  match runSteps g snap (.start reported) flow with
  | (some raised, c) => (.error raised, c)
  | (none, c) =>
    let c := c.settleBackground g
    if c.failures ≠ [] then (.error (.flowStepFailures c.failures), c) else (.ok true, c)

/-! ### What a run comes to -/

variable (g : τ → String) (snap : Snapshot)

/-- The error text an awaited step is recorded with. -/
def Step.awaitError (s : Step τ) : Option String :=
  match s.raises with
  | none => none
  | some (.timeoutError _) => s.timeoutS.map fun t => "timeout:" ++ g t ++ "s"
  | some (.other text) => some text

def Step.settleError (s : Step τ) : Option String :=
  match s.raises with
  | none => none
  | some (.timeoutError _) => some (FlowContext.settleTimeoutError g s)
  | some (.other text) => some text

/-- A step's report when its call returns. -/
def Step.stepReport (s : Step τ) : FlowStepReport :=
  match s.cond.filter fun cond => !cond.holds snap with
  | some cond => s.newReport.finish .skipped (some ("when_false:" ++ cond.name)) none
  | none =>
    if s.background then s.newReport.markDispatched
    else match s.awaitError g with
      | none => s.newReport.finish .ok none none
      | some e => s.newReport.finish .failed none (some e)

def Step.settled (s : Step τ) (r : FlowStepReport) : FlowStepReport :=
  match s.settleError g with
  | none => r.settleOutcome .ok none
  | some e => r.settleOutcome .failed (some e)

/-- A step's report when the run ends. -/
def Step.finalReport (s : Step τ) : FlowStepReport :=
  if s.holds snap && s.background then s.settled g (s.stepReport g snap) else s.stepReport g snap

def Step.failure (s : Step τ) (phase error : String) : Failure :=
  ⟨s.stepId, s.domain, s.action, phase, error⟩

def Step.stepFailures (s : Step τ) : List Failure :=
  if s.holds snap && !s.background then (s.awaitError g).toList.map (s.failure "step_run") else []

def Step.settleFailures (s : Step τ) : List Failure :=
  (s.settleError g).toList.map (s.failure "dispatch_settle")

/-- An awaited step without a timeout whose action raises TimeoutError: the handler has no
timeout to print. -/
def Step.Unprintable (s : Step τ) : Prop :=
  s.holds snap = true ∧ s.background = false ∧ s.timeoutS = none ∧
    ∃ text, s.outcome = .raised (.timeoutError text)

/-- The entries a run of steps adds to the background list from call `n` on. -/
def entriesFrom : Nat → List (Step τ) → List (Step τ × Nat)
  | _, [] => []
  | n, s :: steps =>
    (if s.holds snap && s.background then [(s, n)] else []) ++ entriesFrom (n + 1) steps

theorem holds_iff (s : Step τ) :
    s.holds snap = true ↔ (s.cond.filter fun cond => !cond.holds snap) = none := by
  cases hc : s.cond with
  | none => simp [Step.holds, hc]
  | some cond => simp [Step.holds, hc, Option.filter]

theorem modify_at {α : Type*} (xs ys : List α) (x : α) (f : α → α) :
    (xs ++ x :: ys).modify xs.length f = xs ++ f x :: ys := by
  induction xs with
  | nil => rfl
  | cons z zs ih => simpa using ih

/-- A step that has just added its report can find it. -/
theorem report_last {rs : Option (List FlowStepReport)} {n : Nat}
    (hlen : ∀ xs, rs = some xs → xs.length = n) (x : FlowStepReport)
    (f : FlowStepReport → FlowStepReport) :
    (rs.map (· ++ [x])).map (fun xs => xs.modify n f) = rs.map (· ++ [f x]) := by
  cases rs with
  | none => rfl
  | some xs => simp [← hlen xs rfl, modify_at]

/-- The context after a step whose call returns. -/
def FlowContext.after (c : FlowContext τ) (s : Step τ) : FlowContext τ where
  report := c.report.map (· ++ [s.stepReport g snap])
  failures := c.failures ++ s.stepFailures g snap
  background := c.background ++ (if s.holds snap && s.background then [(s, c.calls)] else [])
  calls := c.calls + 1
  started := c.started ++ (if s.holds snap then [s] else [])
  pending := c.pending ++ (if s.holds snap && s.background then [s] else [])

theorem after_length {c : FlowContext τ} (s : Step τ)
    (hlen : ∀ rs, c.report = some rs → rs.length = c.calls) :
    ∀ rs, (c.after g snap s).report = some rs → rs.length = (c.after g snap s).calls := by
  intro rs hrs
  obtain ⟨xs, hxs, rfl⟩ := Option.map_eq_some_iff.mp hrs
  simp [FlowContext.after, hlen xs hxs]

/-- Without a timeout to be cut off by, TimeoutError comes from the action itself. -/
theorem raised_timeout {s : Step τ} {text : String}
    (hraises : s.raises = some (.timeoutError text)) (hbg : s.background = false)
    (htimeout : s.timeoutS = none) : ∃ text, s.outcome = .raised (.timeoutError text) := by
  unfold Step.raises at hraises
  cases houtcome : s.outcome with
  | returned => simp [houtcome] at hraises
  | raised exc => exact ⟨text, by simpa [houtcome] using hraises⟩
  | overran => simpa [hbg, htimeout] using s.bounded houtcome

theorem step_eq_after {c : FlowContext τ} {s : Step τ}
    (hlen : ∀ rs, c.report = some rs → rs.length = c.calls) (hs : ¬ s.Unprintable snap) :
    c.step g snap s = (none, c.after g snap s) := by
  cases hcond : s.cond.filter fun cond => !cond.holds snap with
  | some cond =>
    have hholds : s.holds snap = false := by
      by_contra h
      simp [(holds_iff snap s).mp (by simpa using h)] at hcond
    simp [FlowContext.step, FlowContext.after, FlowContext.onReport, Step.stepReport,
      Step.stepFailures, hcond, hholds, report_last hlen]
  | none =>
    have hholds : s.holds snap = true := (holds_iff snap s).mpr hcond
    cases hbg : s.background with
    | true =>
      simp [FlowContext.step, FlowContext.step.start, FlowContext.after, FlowContext.onReport,
        Step.stepReport, Step.stepFailures, hcond, hholds, hbg, report_last hlen]
    | false =>
      cases hraises : s.raises with
      | none =>
        simp [FlowContext.step, FlowContext.step.start, FlowContext.after, FlowContext.onReport,
          Step.stepReport, Step.stepFailures, Step.awaitError, hcond, hholds, hbg, hraises,
          report_last hlen]
      | some exc =>
        cases exc with
        | other text =>
          simp [FlowContext.step, FlowContext.step.start, FlowContext.after, FlowContext.fail,
            FlowContext.onReport, Step.stepReport, Step.stepFailures, Step.awaitError, Step.failure,
            hcond, hholds, hbg, hraises, report_last hlen]
        | timeoutError text =>
          cases htimeout : s.timeoutS with
          | none =>
            exact absurd ⟨hholds, hbg, htimeout, raised_timeout hraises hbg htimeout⟩ hs
          | some t =>
            simp [FlowContext.step, FlowContext.step.start, FlowContext.after, FlowContext.fail,
              FlowContext.onReport, Step.stepReport, Step.stepFailures, Step.awaitError,
              Step.failure, hcond, hholds, hbg, hraises, htimeout, report_last hlen]

theorem step_unprintable {c : FlowContext τ} {s : Step τ} (hs : s.Unprintable snap) :
    ∃ text, (c.step g snap s).1 = some (.typeError text) := by
  obtain ⟨hholds, hbg, htimeout, text, houtcome⟩ := hs
  have hcond := (holds_iff snap s).mp hholds
  have hraises : s.raises = some (.timeoutError text) := by rw [Step.raises, houtcome]
  refine ⟨"unsupported format string passed to NoneType.__format__", ?_⟩
  simp [FlowContext.step, FlowContext.step.start, hcond, hbg, hraises, htimeout]

/-- The context after a whole flow that lets no exception out. -/
theorem runSteps_eq {c : FlowContext τ} {steps : List (Step τ)}
    (hlen : ∀ rs, c.report = some rs → rs.length = c.calls)
    (hs : ∀ s ∈ steps, ¬ s.Unprintable snap) :
    runSteps g snap c steps = (none, {
      report := c.report.map (· ++ steps.map fun s => s.stepReport g snap)
      failures := c.failures ++ steps.flatMap fun s => s.stepFailures g snap
      background := c.background ++ entriesFrom snap c.calls steps
      calls := c.calls + steps.length
      started := c.started ++ steps.filter fun s => s.holds snap
      pending := c.pending ++ steps.filter fun s => s.holds snap && s.background }) := by
  induction steps generalizing c with
  | nil => simp [runSteps, entriesFrom]
  | cons s steps ih =>
    rw [runSteps, step_eq_after g snap hlen (hs s (by simp))]
    dsimp only
    rw [ih (after_length g snap s hlen) fun t ht => hs t (by simp [ht])]
    cases hholds : s.holds snap <;> cases hbg : s.background <;>
      simp [FlowContext.after, entriesFrom, hholds, hbg, Function.comp_def] <;> omega

theorem runSteps_unprintable {c : FlowContext τ} {steps : List (Step τ)}
    (hlen : ∀ rs, c.report = some rs → rs.length = c.calls)
    (hs : ∃ s ∈ steps, s.Unprintable snap) :
    ∃ text, (runSteps g snap c steps).1 = some (.typeError text) := by
  induction steps generalizing c with
  | nil => simp at hs
  | cons s steps ih =>
    by_cases hbad : s.Unprintable snap
    · obtain ⟨text, htext⟩ := step_unprintable g snap (c := c) hbad
      exact ⟨text, by rw [runSteps]; split <;> simp_all⟩
    · obtain ⟨t, ht, hbad'⟩ := hs
      have hrest : ∃ t ∈ steps, t.Unprintable snap := by
        cases List.mem_cons.mp ht with
        | inl h => exact absurd (h ▸ hbad') hbad
        | inr h => exact ⟨t, h, hbad'⟩
      rw [runSteps, step_eq_after g snap hlen hbad]
      exact ih (after_length g snap s hlen) hrest

/-! ### Settling the background steps -/

theorem settle_reports (pre : List FlowStepReport) (steps : List (Step τ)) :
    (entriesFrom snap pre.length steps).foldl (fun rs e => rs.modify e.2 (e.1.settled g))
      (pre ++ steps.map fun s => s.stepReport g snap) =
    pre ++ steps.map fun s => s.finalReport g snap := by
  induction steps generalizing pre with
  | nil => simp [entriesFrom]
  | cons s steps ih =>
    have hhead : (if s.holds snap && s.background then [(s, pre.length)] else []).foldl
        (fun rs e => rs.modify e.2 (e.1.settled g))
        (pre ++ s.stepReport g snap :: steps.map fun s => s.stepReport g snap) =
        (pre ++ [s.finalReport g snap]) ++ steps.map fun s => s.stepReport g snap := by
      cases hbg : s.holds snap && s.background with
      | false => simp [Step.finalReport, hbg]
      | true => simp [Step.finalReport, hbg, modify_at]
    have hlen : pre.length + 1 = (pre ++ [s.finalReport g snap]).length := by simp
    rw [entriesFrom, List.foldl_append, List.map_cons, hhead, hlen, ih]
    simp

theorem settle_eq {c : FlowContext τ} (entry : Step τ × Nat) :
    c.settle g entry = { c with
      report := c.report.map fun rs => rs.modify entry.2 (entry.1.settled g)
      failures := c.failures ++ entry.1.settleFailures g
      pending := c.pending.tail } := by
  cases hraises : entry.1.raises with
  | none =>
    have hsettled : entry.1.settled g = fun r => r.settleOutcome .ok none := by
      funext r
      simp [Step.settled, Step.settleError, hraises]
    simp [FlowContext.settle, FlowContext.onReport, Step.settleError, Step.settleFailures, hraises,
      hsettled]
  | some exc =>
    cases exc with
    | timeoutError text =>
      have hsettled : entry.1.settled g = fun r =>
          r.settleOutcome .failed (some (FlowContext.settleTimeoutError g entry.1)) := by
        funext r
        simp [Step.settled, Step.settleError, hraises]
      simp [FlowContext.settle, FlowContext.onReport, FlowContext.fail, Step.settleError,
        Step.settleFailures, Step.failure, hraises, hsettled]
    | other text =>
      have hsettled : entry.1.settled g = fun r => r.settleOutcome .failed (some text) := by
        funext r
        simp [Step.settled, Step.settleError, hraises]
      simp [FlowContext.settle, FlowContext.onReport, FlowContext.fail, Step.settleError,
        Step.settleFailures, Step.failure, hraises, hsettled]

theorem settle_all {c : FlowContext τ} (entries : List (Step τ × Nat)) :
    entries.foldl (FlowContext.settle g) c = { c with
      report := c.report.map fun rs =>
        entries.foldl (fun rs e => rs.modify e.2 (e.1.settled g)) rs
      failures := c.failures ++ entries.flatMap fun e => e.1.settleFailures g
      pending := c.pending.drop entries.length } := by
  induction entries generalizing c with
  | nil => simp
  | cons e entries ih => simp [settle_eq, ih, Function.comp_def]

/-! ### The run as a whole -/

/-- The step was started and its action did not return. -/
def Step.fails (s : Step τ) : Bool := s.holds snap && s.raises.isSome

/-- The states a report may end in. -/
def FlowStepReport.Terminal (r : FlowStepReport) : Prop :=
  (r.status = .skipped ∨ r.status = .ok ∨ r.status = .failed) ∧ r.outcomeStatus = none ∨
    r.status = .dispatched ∧ (r.outcomeStatus = some .ok ∨ r.outcomeStatus = some .failed)

/-- No step stopped the flow: all due steps were started in order, every task was awaited,
every report is closed, and the result names the failed steps, the awaited ones first. -/
structure KeepsGoing (flow : List (Step τ)) (r : Except Raised Bool × FlowContext τ) : Prop where
  started : r.2.started = flow.filter fun s => s.holds snap
  settled : r.2.pending = []
  reports : ∀ rs, r.2.report = some rs →
    rs.map (·.stepId) = flow.map (·.stepId) ∧ ∀ p ∈ rs, p.Terminal
  result : r.1 = if flow.any fun s => s.fails snap then .error (.flowStepFailures r.2.failures)
    else .ok true
  failures : r.2.failures.map (fun f => (f.stepId, f.domain, f.action)) =
    ((flow.filter fun s => s.fails snap && !s.background) ++
      flow.filter fun s => s.fails snap && s.background).map fun s =>
        (s.stepId, s.domain, s.action)

theorem finalReport_terminal (s : Step τ) :
    (s.finalReport g snap).stepId = s.stepId ∧ (s.finalReport g snap).Terminal := by
  cases hcond : s.cond.filter fun cond => !cond.holds snap with
  | some cond =>
    have hholds : s.holds snap = false := by
      by_contra h
      simp [(holds_iff snap s).mp (by simpa using h)] at hcond
    simp [Step.finalReport, Step.stepReport, hholds, hcond, FlowStepReport.finish, Step.newReport,
      FlowStepReport.Terminal]
  | none =>
    have hholds : s.holds snap = true := (holds_iff snap s).mpr hcond
    cases hbg : s.background with
    | true =>
      cases herror : s.settleError g <;>
        simp [Step.finalReport, Step.stepReport, Step.settled, hholds, hcond, hbg, herror,
          FlowStepReport.markDispatched, FlowStepReport.finish, FlowStepReport.settleOutcome,
          Step.newReport, FlowStepReport.Terminal]
    | false =>
      cases herror : s.awaitError g <;>
        simp [Step.finalReport, Step.stepReport, hholds, hcond, hbg, herror, FlowStepReport.finish,
          Step.newReport, FlowStepReport.Terminal]

/-- An awaited step is recorded as failed exactly when its action did not return. -/
theorem stepFailures_ids {s : Step τ} (hs : ¬ s.Unprintable snap) :
    (s.stepFailures g snap).map (fun f => (f.stepId, f.domain, f.action)) =
      if s.fails snap && !s.background then [(s.stepId, s.domain, s.action)] else [] := by
  cases hholds : s.holds snap with
  | false => simp [Step.stepFailures, Step.fails, hholds]
  | true =>
    cases hbg : s.background with
    | true => simp [Step.stepFailures, hbg]
    | false =>
      cases hraises : s.raises with
      | none => simp [Step.stepFailures, Step.fails, Step.awaitError, hraises]
      | some exc =>
        cases exc with
        | other text =>
          simp [Step.stepFailures, Step.fails, Step.awaitError, Step.failure, hholds, hbg, hraises]
        | timeoutError text =>
          cases htimeout : s.timeoutS with
          | none =>
            exact absurd ⟨hholds, hbg, htimeout, raised_timeout hraises hbg htimeout⟩ hs
          | some t =>
            simp [Step.stepFailures, Step.fails, Step.awaitError, Step.failure, hholds, hbg,
              hraises, htimeout]

theorem settleFailures_ids (s : Step τ) :
    (s.settleFailures g).map (fun f => (f.stepId, f.domain, f.action)) =
      if s.raises.isSome then [(s.stepId, s.domain, s.action)] else [] := by
  cases hraises : s.raises with
  | none => simp [Step.settleFailures, Step.settleError, hraises]
  | some exc =>
    cases exc <;> simp [Step.settleFailures, Step.settleError, Step.failure, hraises]

theorem entriesFrom_steps (n : Nat) (steps : List (Step τ)) :
    (entriesFrom snap n steps).map Prod.fst = steps.filter fun s => s.holds snap && s.background := by
  induction steps generalizing n with
  | nil => rfl
  | cons s steps ih =>
    cases hbg : s.holds snap && s.background <;> simp [entriesFrom, hbg, ih]

theorem flatMap_ids {α β : Type*} (xs : List α) (p : α → Bool) (f : α → β) :
    xs.flatMap (fun x => if p x then [f x] else []) = (xs.filter p).map f := by
  induction xs with
  | nil => rfl
  | cons x xs ih => cases hp : p x <;> simp [hp, ih]

theorem awaited_ids {flow : List (Step τ)} (hs : ∀ s ∈ flow, ¬ s.Unprintable snap) :
    (flow.flatMap fun s => s.stepFailures g snap).map (fun f => (f.stepId, f.domain, f.action)) =
      (flow.filter fun s => s.fails snap && !s.background).map fun s =>
        (s.stepId, s.domain, s.action) := by
  rw [List.map_flatMap, ← flatMap_ids]
  apply List.flatMap_congr
  intro s hmem
  exact stepFailures_ids g snap (hs s hmem)

theorem settled_ids (n : Nat) (flow : List (Step τ)) :
    ((entriesFrom snap n flow).flatMap fun e => e.1.settleFailures g).map
        (fun f => (f.stepId, f.domain, f.action)) =
      (flow.filter fun s => s.fails snap && s.background).map fun s =>
        (s.stepId, s.domain, s.action) := by
  have hentries : (entriesFrom snap n flow).flatMap (fun e => e.1.settleFailures g) =
      (flow.filter fun s => s.holds snap && s.background).flatMap fun s => s.settleFailures g := by
    rw [← entriesFrom_steps snap n flow, List.flatMap_map]
  simp only [hentries, List.map_flatMap, settleFailures_ids, flatMap_ids, List.filter_filter]
  congr 2
  funext s
  simp only [Step.fails]
  cases s.holds snap <;> cases s.background <;> simp

theorem start_length (reported : Bool) (rs : List FlowStepReport)
    (h : (FlowContext.start reported : FlowContext τ).report = some rs) : rs.length = 0 := by
  cases reported <;> simp_all [FlowContext.start]

/-- The context at the end of a flow that lets no exception out. -/
def finalContext (reported : Bool) (flow : List (Step τ)) : FlowContext τ where
  report := if reported then some (flow.map fun s => s.finalReport g snap) else none
  failures := (flow.flatMap fun s => s.stepFailures g snap) ++
    (entriesFrom snap 0 flow).flatMap fun e => e.1.settleFailures g
  background := entriesFrom snap 0 flow
  calls := flow.length
  started := flow.filter fun s => s.holds snap
  pending := []

theorem run_eq (reported : Bool) {flow : List (Step τ)} (hs : ∀ s ∈ flow, ¬ s.Unprintable snap) :
    run g snap reported flow =
      (if (finalContext g snap reported flow).failures ≠ [] then
        .error (.flowStepFailures (finalContext g snap reported flow).failures)
      else .ok true, finalContext g snap reported flow) := by
  have hpending : (flow.filter fun s => s.holds snap && s.background).drop
      (entriesFrom snap 0 flow).length = [] := by
    have hlen := congrArg List.length (entriesFrom_steps snap 0 flow)
    rw [List.length_map] at hlen
    exact List.drop_eq_nil_of_le (Nat.le_of_eq hlen.symm)
  have hreports := settle_reports g snap [] flow
  have hsteps := runSteps_eq g snap (start_length reported) hs
  have hfinal : FlowContext.settleBackground g (runSteps g snap (.start reported) flow).2 =
      finalContext g snap reported flow := by
    rw [hsteps, FlowContext.settleBackground, settle_all]
    cases reported <;>
      simp_all [FlowContext.start, finalContext]
  unfold run
  rw [hsteps]
  rw [hsteps] at hfinal
  simp only [hfinal]
  split <;> rfl

theorem run_keepsGoing (reported : Bool) {flow : List (Step τ)}
    (hs : ∀ s ∈ flow, ¬ s.Unprintable snap) :
    KeepsGoing snap flow (run g snap reported flow) := by
  have hids : (finalContext g snap reported flow).failures.map
      (fun f => (f.stepId, f.domain, f.action)) =
      ((flow.filter fun s => s.fails snap && !s.background) ++
        flow.filter fun s => s.fails snap && s.background).map fun s =>
          (s.stepId, s.domain, s.action) := by
    rw [finalContext, List.map_append, List.map_append, awaited_ids g snap hs,
      settled_ids g snap 0 flow]
  have hnone : (finalContext g snap reported flow).failures = [] ↔
      (flow.any fun s => s.fails snap) = false := by
    rw [← List.map_eq_nil_iff, hids, List.map_eq_nil_iff, List.append_eq_nil_iff]
    simp only [List.filter_eq_nil_iff, List.any_eq_false]
    constructor
    · intro h s hs
      have h1 := h.1 s hs
      have h2 := h.2 s hs
      cases hbg : s.background <;> simp_all
    · intro h
      exact ⟨fun s hs => by simp [h s hs], fun s hs => by simp [h s hs]⟩
  rw [run_eq g snap reported hs]
  refine ⟨rfl, rfl, ?_, ?_, hids⟩
  · intro rs hrs
    cases reported with
    | false => simp [finalContext] at hrs
    | true =>
      obtain rfl : flow.map (fun s => s.finalReport g snap) = rs := by
        simpa [finalContext] using hrs
      constructor
      · simp [finalReport_terminal]
      · intro p hp
        obtain ⟨s, -, rfl⟩ := List.mem_map.mp hp
        exact (finalReport_terminal g snap s).2
  · cases hany : flow.any fun s => s.fails snap with
    | false => simp [hnone.mpr hany]
    | true =>
      have hsome : (finalContext g snap reported flow).failures ≠ [] := by
        intro h
        simp [hnone.mp h] at hany
      simp [hsome]

/-- A failing step never stops a flow, but for the one failure that has no error text. -/
theorem keepsGoing_iff (reported : Bool) (flow : List (Step τ)) :
    KeepsGoing snap flow (run g snap reported flow) ↔ ∀ s ∈ flow, ¬ s.Unprintable snap := by
  constructor
  · intro h s hs hbad
    obtain ⟨text, htext⟩ := runSteps_unprintable g snap (start_length reported) ⟨s, hs, hbad⟩
    have hresult := h.result
    unfold run at hresult
    split at hresult
    · next raised c hrun =>
      obtain rfl : raised = .typeError text := by simpa [hrun] using htext
      split at hresult <;> simp at hresult
    · next c hrun => simp [hrun] at htext
  · exact run_keepsGoing g snap reported

/-- Playing AirPlay, TV on. -/
def airplaySnapshot : Snapshot := ⟨true, false, "airplay", false, false⟩

/-- `_audiopro_power_off` with its multiroom steps skipped, every action returning but
`speaker_stop`, which times out by itself. -/
def powerOffStopTimesOut : List (Step Nat) :=
  [⟨"apple_tv_return_home", "ble", "return_home", some .tvIsOn, none, true, .returned, by simp⟩,
    ⟨"tv_power_off", "tv", "power_off", some .tvIsOn, some 8, false, .returned, by simp⟩,
    ⟨"speaker_stop", "speaker", "stop_playback", some .speakerShouldStop, none, false,
      .raised (.timeoutError ""), by simp⟩,
    ⟨"speaker_leave_group", "speaker", "leave_native_multiroom_if_needed",
      some .speakerIsInMultiroom, none, false, .returned, by simp⟩,
    ⟨"speaker_settle_after_group", "system", "sleep", some .speakerIsInMultiroom, none, false,
      .returned, by simp⟩,
    ⟨"speaker_power_off", "speaker", "power_off", some .speakerIsOnListenSource, none, false,
      .returned, by simp⟩]

/-- The speaker is never switched off, the Apple TV's task is left behind, and what is
raised is not the list of failures. -/
theorem power_off_stopped :
    ¬ KeepsGoing airplaySnapshot powerOffStopTimesOut
        (run Nat.repr airplaySnapshot true powerOffStopTimesOut) ∧
      (run Nat.repr airplaySnapshot true powerOffStopTimesOut).1 =
        .error (.typeError "unsupported format string passed to NoneType.__format__") ∧
      (run Nat.repr airplaySnapshot true powerOffStopTimesOut).2.pending.map (·.stepId) =
        ["apple_tv_return_home"] ∧
      "speaker_power_off" ∉
        (run Nat.repr airplaySnapshot true powerOffStopTimesOut).2.started.map (·.stepId) := by
  refine ⟨?_, by decide, by decide, by decide⟩
  intro h
  have hpending : (run Nat.repr airplaySnapshot true powerOffStopTimesOut).2.pending ≠ [] := by
    decide
  exact hpending h.settled

end PiHub.FlowSteps

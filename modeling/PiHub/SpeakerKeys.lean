import PiHub.Dispatcher
import PiHub.JobQueue
import PiHub.Slots
import PiHub.Transition

/-! The speaker's keys (dispatcher.py): the worker that carries them out one by one, what it has the
Status page show of one that failed, and the warnings it logs. -/
namespace PiHub.SpeakerKeys
open Transition Keymap JobQueue Slots
open Dispatcher (SpeakerJob)

def domainQueueMax : Nat := 4
def domainJobTimeoutMs : Nat := 30000
def directFailLogIntervalMs : Nat := 60000

/-! ### One key -/

/-- What `getattr` finds on the speaker, and whether that can be called and awaited. -/
inductive Attr where
  | missing | uncallable | notAsync | coroutine
  deriving DecidableEq

inductive ActionError where
  | invalid (method : String)
  | denied (method : String)
  | unknown (method : String)
  | uncallable (method : String)
  | nonAsync (method : String)
  deriving DecidableEq

/-- `str(exc)`. -/
def ActionError.text (repr : String → String) : ActionError → String
  | .invalid method => "invalid_action_method:" ++ repr method
  | .denied method => "denied_action_method:" ++ method
  | .unknown method => "unknown_action_method:" ++ method
  | .uncallable method => "uncallable_action_method:" ++ method
  | .nonAsync method => "non_async_action_method:" ++ method

def denyCalls : List String := ["start", "stop", "_runner", "snapshot"]

/-- `_METHOD_RE.match`, in which `$` is also before a newline at the end. -/
def methodRe (method : String) : Bool :=
  let chars := method.toList
  let chars := if chars.getLast? = some '\n' then chars.dropLast else chars
  match chars with
  | [] => false
  | c :: cs => c.isAlpha && cs.all fun c => c.isAlphanum || c = '_'

/-- `_call_action_method` up to the call of the speaker. -/
def callActionMethod (attr : String → Attr) (method : String) : Except ActionError Unit :=
  if method = "" || !methodRe method then .error (.invalid method)
  else if "_".isPrefixOf method || method ∈ denyCalls then .error (.denied method)
  else
    match attr method with
    | .missing => .error (.unknown method)
    | .uncallable => .error (.uncallable method)
    | .notAsync => .error (.nonAsync method)
    | .coroutine => .ok ()

inductive Reason where
  | speakerMissing | speakerUnreachable | speakerNotConnected | speakerNotReady | settingsMissing
  | invalidStreamSlot | streamSlotEmpty | playUrlFailed | speakerActionFailed
  deriving DecidableEq

def Reason.text : Reason → String
  | .speakerMissing => "speaker_missing"
  | .speakerUnreachable => "speaker_unreachable"
  | .speakerNotConnected => "speaker_not_connected"
  | .speakerNotReady => "speaker_not_ready"
  | .settingsMissing => "settings_missing"
  | .invalidStreamSlot => "invalid_stream_slot"
  | .streamSlotEmpty => "stream_slot_empty"
  | .playUrlFailed => "play_url_failed"
  | .speakerActionFailed => "speaker_action_failed"

/-- How a key press ended. `ignored` is neither a fault nor a success; `missing` is logged and not
shown; `abandoned` is shown and not logged as a key's. -/
inductive Verdict where
  | ok
  | failed (reason : Reason)
  | missing
  | ignored
  | abandoned
  deriving DecidableEq

/-- What the handler awaits. -/
inductive Awaited where
  | playSlot (target : SlotTarget) (call : SpeakerCall)
  | method (name : String) (kwargs : List (String × Json))

/-- How the speaker's method ends; `raises` has the text of the exception. -/
inductive Answer where
  | returns
  | raises (text : String)
  deriving DecidableEq

inductive Handling where
  | ends (verdict : Verdict)
  | awaits (call : Awaited)

structure SpeakerState where
  reachable : Bool
  connected : Bool
  ready : Bool
  deriving DecidableEq

/-- What the dispatcher is built with; `speaker` and `settings` say whether it was given them. -/
structure Setup where
  speaker : Bool
  attr : String → Attr
  settings : Bool
  speakerBackend : String
  isalnum : Char → Bool
  repr : String → String

/-- A play_slot key up to its wait. -/
def Setup.handlePlaySlot (S : Setup) (settings : Slots.Settings) (job : SpeakerJob) : Handling :=
  if !S.settings then .ends (.failed .settingsMissing)
  else
    match (Keymap.get job.kwargs "slot").toInt with
    | .error _ => .ends (.failed .invalidStreamSlot)
    | .ok slot =>
      match resolveSlot S.isalnum settings S.speakerBackend slot with
      | .error _ => .ends (.failed .invalidStreamSlot)
      | .ok target =>
        match Slots.playSlot target with
        | .error (.slotEmptyError _) => .ends (.failed .streamSlotEmpty)
        | .error (.valueError _) =>
          .ends (.failed (if target.url = "" then .speakerActionFailed else .playUrlFailed))
        | .ok call => .awaits (.playSlot target call)

def unsupportedOnBackend (text : String) : Bool := "unsupported_on_backend:".isPrefixOf text

/-- `_handle_speaker_action` on a down edge, up to its wait. -/
def Setup.handleSpeakerAction (S : Setup) (st : SpeakerState) (settings : Slots.Settings)
    (job : SpeakerJob) : Handling :=
  if !S.speaker then .ends .missing
  else if !st.reachable then .ends (.failed .speakerUnreachable)
  else if !st.connected then .ends (.failed .speakerNotConnected)
  else if !st.ready then .ends (.failed .speakerNotReady)
  else
    match job.action with
    | .str action =>
      if action = "" then .ends .ignored
      else if action = "play_slot" then S.handlePlaySlot settings job
      else
        match callActionMethod S.attr action with
        | .ok () => .awaits (.method action job.kwargs)
        | .error e =>
          .ends (if unsupportedOnBackend (e.text S.repr) then .ignored
            else .failed .speakerActionFailed)
    | _ => .ends .ignored

/-- `_handle_speaker_action` from the end of its wait. -/
def Awaited.verdict : Awaited → Answer → Verdict
  | _, .returns => .ok
  | .playSlot target _, .raises _ =>
    .failed (if target.url = "" then .speakerActionFailed else .playUrlFailed)
  | .method _ _, .raises text =>
    if unsupportedOnBackend text then .ignored else .failed .speakerActionFailed

/-! ### Runs -/

/-- `last_key_error`; `null` and `none` stand for None. -/
structure KeyError where
  reason : Reason
  action : Json
  key : Option String
  at' : Int

/-- A press that has come to its end. -/
structure Handled where
  press : Queued SpeakerJob
  verdict : Verdict
  /-- By the monotonic clock and by `time.time()`. -/
  ended : Nat
  time : Int
  /-- The warning was logged. -/
  warned : Bool

/-- Times are in ms. `wall` is what `time.time()` is ahead of the monotonic clock. `lastCmdFailLog`
is 0 where the latch is cleared. The last two fields are records: the presses with how many jobs
each found waiting, newest last, and those that have ended, newest first. -/
structure State where
  jobs : Server SpeakerJob domainQueueMax
  /-- What the job that is served awaits. -/
  call : Option Awaited
  speaker : SpeakerState
  settings : Slots.Settings
  wall : Int
  lastCmdFailLog : Nat
  lastKeyError : Option KeyError
  pressed : List (Queued SpeakerJob × Nat)
  handled : List Handled

def State.start (now : Nat) (wall : Int) (speaker : SpeakerState) (settings : Slots.Settings) :
    State where
  jobs := .start now
  call := none
  speaker := speaker
  settings := settings
  wall := wall
  lastCmdFailLog := 0
  lastKeyError := none
  pressed := []
  handled := []

namespace State

def now (s : State) : Nat := s.jobs.now
def time (s : State) : Int := s.now + s.wall

/-- `_log_direct_failure` logs. -/
def logs (s : State) : Bool := directFailLogIntervalMs ≤ s.now - s.lastCmdFailLog

def logDirectFailure (s : State) : State :=
  if s.logs then { s with lastCmdFailLog := s.now } else s

def keyFailed (s : State) (reason : Reason) (action : Json) (remKey : String) : State :=
  { s with lastKeyError := some ⟨reason, action, some remKey, s.time⟩ }.logDirectFailure

def keyOk (s : State) : State := { s with lastKeyError := none, lastCmdFailLog := 0 }

def settle (s : State) (job : SpeakerJob) : Verdict → State
  | .ok => s.keyOk
  | .failed reason => s.keyFailed reason job.action job.remKey
  | .missing => s.logDirectFailure
  | .ignored => s
  | .abandoned =>
    { s with lastKeyError := some ⟨.speakerActionFailed, .null, none, s.time⟩ }

end State

/-- The verdicts that `_log_direct_failure` is told of. -/
def Verdict.reported : Verdict → Bool
  | .failed _ => true
  | .missing => true
  | _ => false

/-- The job that is served comes to its end. -/
def State.finish (s : State) (press : Queued SpeakerJob) (verdict : Verdict) : State :=
  let settled := s.settle press.job verdict
  { settled with
    jobs := s.jobs.finish
    call := none
    handled := ⟨press, verdict, s.now, s.time, verdict.reported && s.logs⟩ :: s.handled }

/-- `answers`: the method that the job awaits ends. `abandons`: `wait_for` gives the job up. The
speaker's state, its settings and the wall clock change as they like. -/
inductive Event where
  | passes (ms : Nat)
  | setsWall (wall : Int)
  | speaker (state : SpeakerState)
  | settings (settings : Slots.Settings)
  | press (job : SpeakerJob)
  | takes
  | answers (answer : Answer)
  | abandons

/-- The presses that did not find DOMAIN_QUEUE_MAX jobs waiting. -/
def State.accepted (s : State) : List (Queued SpeakerJob) :=
  (s.pressed.filter fun p => p.2 < domainQueueMax).map Prod.fst

def State.press (s : State) (job : SpeakerJob) : State :=
  { s with
    jobs := s.jobs.submit job
    pressed := s.pressed ++ [(⟨job, s.now⟩, s.jobs.waiting.items.length)] }

/-- The worker takes the next job and runs it up to its first wait. -/
def State.begin (S : Setup) (s : State) (press : Queued SpeakerJob)
    (jobs : Server SpeakerJob domainQueueMax) : State :=
  match S.handleSpeakerAction s.speaker s.settings press.job with
  | .ends verdict => { s with jobs := jobs }.finish press verdict
  | .awaits call => { s with jobs := jobs, call := some call }

def step (S : Setup) (s : State) : Event → Option State
  | .passes ms => some { s with jobs := s.jobs.pass ms }
  | .setsWall wall => some { s with wall := wall }
  | .speaker state => some { s with speaker := state }
  | .settings settings => some { s with settings := settings }
  | .press job => some (s.press job)
  | .takes => (s.jobs.take domainJobTimeoutMs).map fun next => s.begin S next.1 next.2
  | .answers answer =>
    match s.jobs.serving, s.call with
    | some serving, some call => some (s.finish serving.queued (call.verdict answer))
    | _, _ => none
  | .abandons =>
    match s.jobs.serving with
    | some serving =>
      if serving.deadline ≤ s.now then some (s.finish serving.queued .abandoned) else none
    | none => none

/-! ### What is shown and what is warned of -/

/-- The verdicts that the shown error goes by. -/
def Verdict.decisive : Verdict → Bool
  | .ok | .failed _ | .abandoned => true
  | .missing | .ignored => false

/-- The error that a press leaves. -/
def Handled.error (h : Handled) : Option KeyError :=
  match h.verdict with
  | .failed reason => some ⟨reason, h.press.job.action, some h.press.job.remKey, h.time⟩
  | .abandoned => some ⟨.speakerActionFailed, .null, none, h.time⟩
  | .ok | .missing | .ignored => none

/-- The last decisive press of the list. -/
def lastDecisive (handled : List Handled) : Option Handled :=
  handled.find? fun h => h.verdict.decisive

/-- When the last warning was logged, if no press has succeeded since. -/
def latch : List Handled → Nat
  | [] => 0
  | h :: hs => if h.verdict = .ok then 0 else if h.warned then h.ended else latch hs

/-- Each press was warned of as the latch said that the earlier ones had left. -/
def Warned : List Handled → Prop
  | [] => True
  | h :: hs => h.warned = (h.verdict.reported && directFailLogIntervalMs ≤ h.ended - latch hs) ∧ Warned hs

structure Kept (s : State) : Prop where
  order : s.accepted = s.handled.reverse.map Handled.press ++ s.jobs.pending
  shown : s.lastKeyError = (lastDecisive s.handled).bind Handled.error
  latched : s.lastCmdFailLog = latch s.handled
  warned : Warned s.handled
  past : ∀ h ∈ s.handled, h.ended ≤ s.now
  sorted : s.handled.Pairwise fun h earlier => earlier.ended ≤ h.ended

theorem kept_start (now : Nat) (wall : Int) (speaker : SpeakerState) (settings : Slots.Settings) :
    Kept (.start now wall speaker settings) where
  order := rfl
  shown := rfl
  latched := rfl
  warned := trivial
  past := fun h hh => by cases hh
  sorted := .nil

theorem Kept.passes {s : State} (h : Kept s) (ms : Nat) : Kept { s with jobs := s.jobs.pass ms } :=
  { h with past := fun x hx => Nat.le_add_right_of_le (h.past x hx) }

theorem Kept.press {s : State} (h : Kept s) (job : SpeakerJob) : Kept (s.press job) := by
  have haccepted : (s.press job).accepted = s.accepted ++ s.jobs.accepts job := by
    simp only [State.accepted, State.press, List.filter_append, List.map_append]
    unfold Server.accepts
    split
    · next hlt => simp [hlt, State.now]
    · next hfull => simp [hfull]
  refine { h with order := ?_ }
  rw [haccepted, h.order, List.append_assoc]
  exact congrArg _ (Server.submit_pending s.jobs job).symm

theorem Kept.taken {s : State} (h : Kept s) {press : Queued SpeakerJob}
    {jobs : Server SpeakerJob domainQueueMax}
    (htake : s.jobs.take domainJobTimeoutMs = some (press, jobs)) : Kept { s with jobs := jobs } := by
  refine { h with order := ?_, past := fun x hx => ?_ }
  · rw [← Server.take_pending htake]
    exact h.order
  · change x.ended ≤ jobs.now
    rw [(Server.of_take htake).2.2.1]
    exact h.past x hx

/-- What a verdict leaves of the shown error and of the latch. -/
theorem settle_shown {s : State} (h : Kept s) (press : Queued SpeakerJob) (verdict : Verdict) :
    (s.settle press.job verdict).lastKeyError =
      (lastDecisive (⟨press, verdict, s.now, s.time, verdict.reported && s.logs⟩ ::
        s.handled)).bind Handled.error := by
  have hsame : s.logDirectFailure.lastKeyError = s.lastKeyError := by
    unfold State.logDirectFailure
    split <;> rfl
  cases verdict with
  | ok => rfl
  | failed reason =>
    simp only [State.settle, State.keyFailed, State.logDirectFailure]
    split <;> rfl
  | missing => exact hsame.trans h.shown
  | ignored => exact h.shown
  | abandoned => rfl

theorem settle_latched {s : State} (h : Kept s) (press : Queued SpeakerJob) (verdict : Verdict) :
    (s.settle press.job verdict).lastCmdFailLog =
      latch (⟨press, verdict, s.now, s.time, verdict.reported && s.logs⟩ :: s.handled) := by
  have hlog : ∀ t : State, t.logs = s.logs → t.now = s.now → t.lastCmdFailLog = s.lastCmdFailLog →
      t.logDirectFailure.lastCmdFailLog = if s.logs then s.now else latch s.handled := by
    intro t hlogs hnow hlast
    rw [State.logDirectFailure, hlogs]
    split
    · exact hnow
    · exact hlast.trans h.latched
  cases verdict with
  | ok => rfl
  | failed reason => exact hlog _ rfl rfl rfl
  | missing => exact hlog s rfl rfl rfl
  | ignored => exact h.latched
  | abandoned => exact h.latched

theorem logDirectFailure_pressed (s : State) : s.logDirectFailure.pressed = s.pressed := by
  unfold State.logDirectFailure
  split <;> rfl

theorem Kept.finish {s : State} (h : Kept s) {press : Queued SpeakerJob} {deadline : Nat}
    (hserving : s.jobs.serving = some ⟨press, deadline⟩) (verdict : Verdict) :
    Kept (s.finish press verdict) := by
  have hpressed : (s.settle press.job verdict).pressed = s.pressed := by
    cases verdict with
    | ok => rfl
    | failed reason => exact logDirectFailure_pressed _
    | missing => exact logDirectFailure_pressed s
    | ignored => rfl
    | abandoned => rfl
  have haccepted : (s.finish press verdict).accepted = s.accepted :=
    congrArg (fun ps => (ps.filter fun p => p.2 < domainQueueMax).map Prod.fst) hpressed
  refine ⟨?_, settle_shown h press verdict, settle_latched h press verdict, ⟨?_, h.warned⟩, ?_, ?_⟩
  · rw [haccepted, h.order, Server.finish_pending hserving]
    simp [State.finish]
  · rw [← h.latched]
    rfl
  · intro x hx
    obtain rfl | hx := List.mem_cons.mp hx
    · exact Nat.le_refl _
    · exact h.past x hx
  · exact List.Pairwise.cons h.past h.sorted

theorem Kept.step {S : Setup} {s t : State} {e : Event} (h : Kept s)
    (hstep : SpeakerKeys.step S s e = some t) : Kept t := by
  cases e with
  | passes ms =>
    obtain rfl := Option.some.inj hstep
    exact h.passes ms
  | setsWall wall =>
    obtain rfl := Option.some.inj hstep
    exact { h with }
  | speaker state =>
    obtain rfl := Option.some.inj hstep
    exact { h with }
  | settings settings =>
    obtain rfl := Option.some.inj hstep
    exact { h with }
  | press job =>
    obtain rfl := Option.some.inj hstep
    exact h.press job
  | takes =>
    obtain ⟨⟨press, jobs⟩, htake, rfl⟩ := Option.map_eq_some_iff.mp hstep
    have htaken := h.taken htake
    unfold State.begin
    split
    · exact htaken.finish (Server.of_take htake).2.2.2 _
    · exact { htaken with }
  | answers answer =>
    simp only [SpeakerKeys.step] at hstep
    split at hstep
    · next serving call hserving hcall =>
      obtain rfl := Option.some.inj hstep
      exact h.finish hserving _
    · cases hstep
  | abandons =>
    simp only [SpeakerKeys.step] at hstep
    split at hstep
    · next serving hserving =>
      obtain ⟨-, rfl⟩ := of_guard hstep
      exact h.finish hserving _
    · cases hstep

theorem kept_of_reachable {S : Setup} {now : Nat} {wall : Int} {speaker : SpeakerState}
    {settings : Slots.Settings} {s : State}
    (h : Reachable (step S) (.start now wall speaker settings) s) : Kept s :=
  h.invariant (kept_start now wall speaker settings) fun _ _ _ ht _ hstep => ht.step hstep

/-- The speaker's keys come to their ends one at a time in the order of the presses, and only a press
that finds four jobs waiting is dropped. The Status page shows an error exactly if the last press
that succeeded, failed or was abandoned did not succeed, and then the error of that press. -/
theorem last_key_error_shown {S : Setup} {now : Nat} {wall : Int} {speaker : SpeakerState}
    {settings : Slots.Settings} {s : State}
    (h : Reachable (step S) (.start now wall speaker settings) s) :
    s.accepted = s.handled.reverse.map Handled.press ++ s.jobs.pending ∧
      ∀ e, s.lastKeyError = some e ↔ ∃ later x earlier, s.handled = later ++ x :: earlier ∧
        (∀ y ∈ later, y.verdict.decisive = false) ∧ x.error = some e := by
  have hkept := kept_of_reachable h
  refine ⟨hkept.order, fun e => ?_⟩
  rw [hkept.shown, Option.bind_eq_some_iff]
  constructor
  · rintro ⟨x, hlast, herror⟩
    obtain ⟨-, later, earlier, hsplit, hlater⟩ := List.find?_eq_some_iff_append.mp hlast
    exact ⟨later, x, earlier, hsplit, fun y hy => by simpa using hlater y hy, herror⟩
  · rintro ⟨later, x, earlier, hsplit, hlater, herror⟩
    have hdecisive : x.verdict.decisive = true := by
      unfold Handled.error at herror
      split at herror
      · next hverdict => rw [hverdict]; rfl
      · next hverdict => rw [hverdict]; rfl
      · cases herror
      · cases herror
      · cases herror
    refine ⟨x, List.find?_eq_some_iff_append.mpr ⟨hdecisive, later, earlier, hsplit, fun y hy => ?_⟩,
      herror⟩
    simpa using hlater y hy

/-- An Audio Pro speaker with all its methods, and no stream in any slot. -/
def audiopro : Setup where
  speaker := true
  attr := fun _ => .coroutine
  settings := true
  speakerBackend := "audiopro"
  isalnum := Char.isAlphanum
  repr := fun method => "'" ++ method ++ "'"

def noStreams : Slots.Settings where
  getListenTarget := ⟨"preset", 1, 1⟩
  getStreamUrl := fun _ => ""
  getSoundbarStreamUrl := fun _ => ""
  getSoundbarRestream := fun _ => false

def slotKey (slot : Int) (remKey : String) : SpeakerJob := ⟨.str "play_slot", [("slot", .int slot)], remKey⟩

/-- A preset that fails, an empty slot, and a key that is not for this speaker. -/
def failing : List Event :=
  [.press (slotKey 1 "rem_1"), .press (slotKey 7 "rem_7"), .takes, .passes 200,
    .answers (.raises "timeout"), .takes, .press ⟨.null, [], "rem_ok"⟩, .takes]

theorem last_key_error_shown_failing : ∃ s,
    execute (step audiopro) (.start 90000 0 ⟨true, true, true⟩ noStreams) failing = some s ∧
      s.lastKeyError = some ⟨.streamSlotEmpty, .str "play_slot", some "rem_7", 90200⟩ ∧
      s.accepted = s.handled.reverse.map Handled.press ++ s.jobs.pending ∧
      ∀ e, s.lastKeyError = some e ↔ ∃ later x earlier, s.handled = later ++ x :: earlier ∧
        (∀ y ∈ later, y.verdict.decisive = false) ∧ x.error = some e :=
  ⟨_, rfl, rfl, last_key_error_shown (reachable_of_execute
    (show execute (step audiopro) (.start 90000 0 ⟨true, true, true⟩ noStreams) failing = some _ from rfl))⟩

/-! ### Warnings -/

/-- The latch is far enough back exactly if every warning is that no success has followed. -/
theorem interval_latch_iff {hs : List Handled} {time : Nat} (hwarned : Warned hs)
    (hpast : ∀ h ∈ hs, h.ended ≤ time) (hsorted : hs.Pairwise fun h earlier => earlier.ended ≤ h.ended) :
    60000 ≤ time - latch hs ↔ 60000 ≤ time ∧ ∀ between w before, hs = between ++ w :: before →
      w.warned = true → (∀ y ∈ between, y.verdict ≠ .ok) → w.ended + 60000 ≤ time := by
  induction hs with
  | nil => simp [latch]
  | cons h hs ih =>
    obtain ⟨hfirst, hrest⟩ := hwarned
    obtain ⟨hnewest, hsorted⟩ := List.pairwise_cons.mp hsorted
    have hold := ih hrest (fun x hx => hpast x (List.mem_cons_of_mem h hx)) hsorted
    have hlate : h.ended ≤ time := hpast h List.mem_cons_self
    unfold latch
    split
    · next hok =>
      have hquiet : h.warned = false := by rw [hfirst, hok]; rfl
      refine ⟨fun hle => ⟨hle, fun between w before hsplit hw hnone => ?_⟩, fun hall => hall.1⟩
      cases between with
      | nil =>
        obtain ⟨rfl, -⟩ := List.cons.inj hsplit
        rw [hquiet] at hw
        cases hw
      | cons y between =>
        obtain ⟨rfl, -⟩ := List.cons.inj hsplit
        exact absurd hok (hnone _ List.mem_cons_self)
    · next hnot =>
      split
      · next hw =>
        refine ⟨fun hle => ⟨by omega, fun between w before hsplit _ _ => ?_⟩, fun hall => ?_⟩
        · cases between with
          | nil =>
            obtain ⟨rfl, -⟩ := List.cons.inj hsplit
            omega
          | cons y between =>
            obtain ⟨rfl, rfl⟩ := List.cons.inj hsplit
            have hbefore := hnewest w (by simp)
            omega
        · have hself := hall.2 [] h hs rfl hw (fun y hy => by cases hy)
          omega
      · next hquiet =>
        rw [hold]
        refine and_congr_right fun _ => ⟨fun hall between w before hsplit hw hnone => ?_,
          fun hall between w before hsplit hw hnone => ?_⟩
        · cases between with
          | nil =>
            obtain ⟨rfl, -⟩ := List.cons.inj hsplit
            exact absurd hw hquiet
          | cons y between =>
            obtain ⟨rfl, rfl⟩ := List.cons.inj hsplit
            exact hall between w before rfl hw fun z hz => hnone z (List.mem_cons_of_mem _ hz)
        · refine hall (h :: between) w before (by rw [hsplit]; rfl) hw fun z hz => ?_
          obtain rfl | hz := List.mem_cons.mp hz
          · exact hnot
          · exact hnone z hz

theorem Warned.append {later earlier : List Handled} (h : Warned (later ++ earlier)) : Warned earlier := by
  induction later with
  | nil => exact h
  | cons x later ih => exact ih h.2

/-- Exactly those failed presses are warned of that come 60 s after the hardware booted or later, and
60 s or more after each warning before them since when no press has succeeded. -/
theorem warned_iff_quiet {S : Setup} {now : Nat} {wall : Int} {speaker : SpeakerState}
    {settings : Slots.Settings} {s : State}
    (h : Reachable (step S) (.start now wall speaker settings) s) {later earlier : List Handled}
    {x : Handled} (hx : s.handled = later ++ x :: earlier) :
    x.warned = true ↔ x.verdict.reported = true ∧ 60000 ≤ x.ended ∧
      ∀ between w before, earlier = between ++ w :: before → w.warned = true →
        (∀ y ∈ between, y.verdict ≠ .ok) → w.ended + 60000 ≤ x.ended := by
  have hkept := kept_of_reachable h
  have hwarned : Warned (x :: earlier) := Warned.append (hx ▸ hkept.warned)
  have hsorted := hkept.sorted
  rw [hx] at hsorted
  obtain ⟨hpast, hsorted⟩ := List.pairwise_cons.mp (List.pairwise_append.mp hsorted).2.1
  rw [hwarned.1, Bool.and_eq_true, decide_eq_true_iff]
  exact and_congr_right fun _ => interval_latch_iff hwarned.2 hpast hsorted

/-- The speaker is gone when the hardware has just booted. -/
def unreachable : List Event :=
  [.press (slotKey 1 "rem_1"), .takes, .passes 40000, .press (slotKey 2 "rem_2"), .takes, .passes 30000,
    .press (slotKey 3 "rem_3"), .takes]

theorem warned_iff_quiet_unreachable : ∃ s x y z,
    execute (step audiopro) (.start 20000 0 ⟨false, false, false⟩ noStreams) unreachable = some s ∧
      s.handled = [z, y, x] ∧ x.warned = false ∧
      (y.warned = true ↔ y.verdict.reported = true ∧ 60000 ≤ y.ended ∧
        ∀ between w before, [x] = between ++ w :: before → w.warned = true →
          (∀ y ∈ between, y.verdict ≠ .ok) → w.ended + 60000 ≤ y.ended) ∧
      z.warned = false :=
  ⟨_, _, _, _, rfl, rfl, rfl, warned_iff_quiet (reachable_of_execute
    (show execute (step audiopro) (.start 20000 0 ⟨false, false, false⟩ noStreams) unreachable = some _
      from rfl)) (show _ = [_] ++ _ :: _ from rfl), rfl⟩

/-! ### No key is stuck -/

/-- The worker takes a job at once, and time does not pass what `wait_for` allows. -/
def Prompt (s : State) : Event → Prop
  | .passes ms => s.jobs.Rests (s.now + ms)
  | _ => True

instance (s : State) : ∀ e : Event, Decidable (Prompt s e)
  | .passes ms => by
    unfold Prompt Server.Rests
    dsimp only
    split
    · exact decidable_of_iff _ List.isEmpty_iff
    · exact Nat.decLe _ _
  | .setsWall _ | .speaker _ | .settings _ | .press _ | .takes | .answers _ | .abandons => .isTrue trivial

structure Timely (s : State) : Prop where
  jobs : s.jobs.InTime domainJobTimeoutMs
  ended : ∀ x ∈ s.handled, x.ended ≤ x.press.since + 150000

theorem Timely.finish {s : State} (h : Timely s) {press : Queued SpeakerJob} {deadline : Nat}
    (hserving : s.jobs.serving = some ⟨press, deadline⟩) (verdict : Verdict) :
    Timely (s.finish press verdict) where
  jobs := h.jobs.finish
  ended := fun x hx => by
    obtain rfl | hx := List.mem_cons.mp hx
    · exact h.jobs.pending (by simp [Server.pending, hserving])
    · exact h.ended x hx

theorem Timely.step {S : Setup} {s t : State} {e : Event} (h : Timely s) (hprompt : Prompt s e)
    (hstep : SpeakerKeys.step S s e = some t) : Timely t := by
  cases e with
  | passes ms =>
    obtain rfl := Option.some.inj hstep
    exact { h with jobs := h.jobs.pass hprompt }
  | setsWall wall =>
    obtain rfl := Option.some.inj hstep
    exact { h with }
  | speaker state =>
    obtain rfl := Option.some.inj hstep
    exact { h with }
  | settings settings =>
    obtain rfl := Option.some.inj hstep
    exact { h with }
  | press job =>
    obtain rfl := Option.some.inj hstep
    exact { h with jobs := h.jobs.submit job }
  | takes =>
    obtain ⟨⟨press, jobs⟩, htake, rfl⟩ := Option.map_eq_some_iff.mp hstep
    have htaken : Timely { s with jobs := jobs } := { h with jobs := h.jobs.take htake }
    unfold State.begin
    split
    · exact htaken.finish (Server.of_take htake).2.2.2 _
    · exact { htaken with }
  | answers answer =>
    simp only [SpeakerKeys.step] at hstep
    split at hstep
    · next serving call hserving hcall =>
      obtain rfl := Option.some.inj hstep
      exact h.finish hserving _
    · cases hstep
  | abandons =>
    simp only [SpeakerKeys.step] at hstep
    split at hstep
    · next serving hserving =>
      obtain ⟨-, rfl⟩ := of_guard hstep
      exact h.finish hserving _
    · cases hstep

/-- Whatever the speaker does, an accepted press comes to its end within 150 s: 30 s for each of the
four that can be ahead of it, and its own. -/
theorem no_key_stuck {S : Setup} {now : Nat} {wall : Int} {speaker : SpeakerState}
    {settings : Slots.Settings} {s : State}
    (h : ReachableBy (step S) Prompt (.start now wall speaker settings) s) :
    (∀ x ∈ s.handled, x.ended ≤ x.press.since + 150000) ∧
      ∀ q ∈ s.accepted, q.since + 150000 < s.now → q ∈ s.handled.map Handled.press := by
  have htimely : Timely s := h.invariant
    ⟨Server.inTime_start now, fun x hx => by cases hx⟩ fun _ _ _ ht he hstep => ht.step he hstep
  refine ⟨htimely.ended, fun q hq hlate => ?_⟩
  rw [(kept_of_reachable h.reachable).order, List.mem_append] at hq
  obtain hended | hpending := hq
  · simpa using hended
  · have hyoung : s.now ≤ q.since + 150000 := htimely.jobs.pending hpending
    omega

/-- Six presses of a key that the speaker never answers. -/
def stuck : List Event :=
  [.press (slotKey 1 "rem_1"), .takes] ++ List.replicate 5 (.press (slotKey 2 "rem_2")) ++
    (List.replicate 4 [Event.passes 30000, .abandons, .takes]).flatten ++ [.passes 30000, .abandons]

theorem no_key_stuck_stuck : ∃ s,
    execute (step audiopro) (.start 0 0 ⟨true, true, true⟩ noStreams) stuck = some s ∧
      s.handled.length = 5 ∧ s.pressed.length = 6 ∧
      (∀ x ∈ s.handled, x.ended ≤ x.press.since + 150000) ∧
      ∀ q ∈ s.accepted, q.since + 150000 < s.now → q ∈ s.handled.map Handled.press :=
  ⟨_, rfl, rfl, rfl, no_key_stuck (S := audiopro) (reachableBy_of_execute
    (show execute (step audiopro) (.start 0 0 ⟨true, true, true⟩ noStreams) stuck = some _ from rfl)
    (by decide +kernel))⟩

end PiHub.SpeakerKeys

import PiHub.PacketStream
import PiHub.SoftMute

/-! The Audio Pro's link (audiopro_speaker.py): the turns that `_runner`, `_read_loop`, the `_send`
calls and `stop` take, and what becomes of the speaker's state. A `_read_loop` that has been woken goes
through its chunk in one turn. Times and the tasks that only wait to send are left out. -/
namespace PiHub.SpeakerLink
open PiHub.Transition PiHub.PyStr PiHub.PacketStream
open PiHub.Settings (startsWith)
open PiHub.SoftMute (Speaker SpeakerState PyJson Info Reading Updates Effect effect_onPayload statusOf
  samplePy sampleJson)

/-- Whose `_send` it is: `_runner`'s three questions, `_send_control`, or a status request's, which
has no use for the outcome. -/
inductive Caller where
  | runner
  | control
  | request
  deriving DecidableEq

/-- Where a `_send` is: at the lock, in the sleep that keeps commands apart, in `drain`, in
`_disconnect` of its `_fail_link`. -/
inductive SendStage where
  | waiting
  | pacing
  | draining
  | failing (reason : String)
  | done
  deriving DecidableEq

structure Send where
  caller : Caller
  stage : SendStage
  deriving DecidableEq

/-- Where `_runner` is: in `_connect`, in a `_send` with so many questions left after it, in
`_wait_ready`, in `await read_task`, in the `_disconnect` and the `_cancel_task` of its `finally`, in
the sleep before the next cycle. -/
inductive Runner where
  | off
  | connecting
  | asking (left : Nat)
  | waitingReady
  | following
  | closing
  | cancelling
  | pausing
  deriving DecidableEq

/-- Where `_read_loop` is: not started, in `read`, in its turn. -/
inductive ReadStage where
  | created
  | waiting
  | running
  | done
  deriving DecidableEq

/-- `payloads` are those of the chunk that have not been handled yet. -/
structure ReadTask where
  stage : ReadStage := .created
  cancelled : Bool := false
  buf : List UInt8 := []
  payloads : List String := []
  deriving DecidableEq

/-- `task.cancel()`. -/
def ReadTask.cancel (task : ReadTask) : ReadTask :=
  if task.stage = .done then task else { task with cancelled := true }

/-- `received` and `eof` are of the `StreamReader`; `_reader` is there exactly when `_writer` is.
`hasRead` (a full status has been handled) and `hasFailed` (`_runner` has marked a failure) are
ghost. -/
structure AudioProSpeaker where
  speaker : Speaker := {}
  enabled : Bool := false
  runner : Runner := .off
  cancelled : Bool := false
  readTask : Option ReadTask := none
  received : List UInt8 := []
  eof : Bool := false
  sendLock : Option Nat := none
  sends : List Send := []
  hasRead : Bool := false
  hasFailed : Bool := false
  deriving DecidableEq

/-! ### The flags -/

/-- `_connect` up to `open_connection`. -/
def beginConnect (b : Speaker) : Speaker :=
  { b with state := { b.state with
    lastError := none, reachable := false, connected := false, ready := false } }

/-- `_connect` from the open connection on. -/
def connected (b : Speaker) : Speaker :=
  { b with writer := true, state := { b.state with reachable := true, connected := true } }

/-- `_runner`'s `except Exception`, and `_disconnect` up to its wait. -/
def failed (b : Speaker) (error : String) : Speaker :=
  { (b.markDown error).disconnect with initial := b.initial.markFailed }

def setLastError (b : Speaker) (error : Option String) : Speaker :=
  { b with state := { b.state with lastError := error } }

namespace AudioProSpeaker

def runnerFails (s : AudioProSpeaker) (error : String) : AudioProSpeaker :=
  { s with speaker := failed s.speaker error, runner := .closing, hasFailed := true }

/-! ### Sending -/

/-- What `_send` raises comes to its caller. -/
def raised (s : AudioProSpeaker) (reason : String) : Caller → AudioProSpeaker
  | .runner => s.runnerFails reason
  | .control => { s with speaker := setLastError s.speaker (some reason) }
  | .request => s

/-- `_send` up to the lock. -/
def send (s : AudioProSpeaker) (caller : Caller) : AudioProSpeaker :=
  if !s.speaker.writer then s.raised "not connected" caller
  else { s with sends := s.sends ++ [⟨caller, .waiting⟩] }

/-- `_runner` after one of its questions. -/
def asked (s : AudioProSpeaker) : AudioProSpeaker :=
  match s.runner with
  | .asking (left + 1) => { s with runner := .asking left }.send .runner
  | .asking 0 => { s with runner := .waitingReady }
  | _ => s

/-- `_send` has returned. -/
def sent (s : AudioProSpeaker) : Caller → AudioProSpeaker
  | .runner => s.asked
  | .control => { s with speaker := setLastError s.speaker none }
  | .request => s

def setSend (s : AudioProSpeaker) (i : Nat) (caller : Caller) (stage : SendStage) : AudioProSpeaker :=
  { s with sends := s.sends.set i ⟨caller, stage⟩ }

/-- The lock is released, and `_fail_link` marks the link down and takes it down. -/
def failLink (s : AudioProSpeaker) (i : Nat) (caller : Caller) (error : String) : AudioProSpeaker :=
  let reason := "send failed: " ++ error
  { s.setSend i caller (.failing reason) with
    speaker := (s.speaker.markDown reason).disconnect
    sendLock := none }

/-- `self._writer.write(packet)`. -/
def write (s : AudioProSpeaker) (i : Nat) (caller : Caller) : AudioProSpeaker :=
  if s.speaker.writer then s.setSend i caller .draining
  else s.failLink i caller "'NoneType' object has no attribute 'write'"

/-- `drain` returns, or it raises or times out. -/
def drained (s : AudioProSpeaker) (i : Nat) (caller : Caller) : Option String → AudioProSpeaker
  | none => { s.setSend i caller .done with sendLock := none }.sent caller
  | some error => s.failLink i caller error

/-- Number `i` of the calls, unless it is the runner's and the runner is cancelled. -/
def sendAt (s : AudioProSpeaker) (i : Nat) : Option Send :=
  s.sends[i]?.filter fun c => !(s.cancelled && c.caller = .runner)

/-- Whose call number `i` is, if it is at this stage. -/
def callerAt (s : AudioProSpeaker) (i : Nat) (stage : SendStage) : Option Caller :=
  ((s.sendAt i).filter fun c => c.stage = stage).map Send.caller

/-- A `_send` whose task is cancelled. -/
def dropSend (s : AudioProSpeaker) (i : Nat) (caller : Caller) : AudioProSpeaker :=
  { s.setSend i caller .done with sendLock := if s.sendLock = some i then none else s.sendLock }

/-- The same for the runner's. -/
def dropQuestion (s : AudioProSpeaker) : AudioProSpeaker :=
  { s with
    sends := s.sends.map fun c => if c.caller = .runner then { c with stage := .done } else c
    sendLock := s.sendLock.filter fun i => !s.sends[i]?.any fun c => c.caller = .runner }

/-! ### `_runner` -/

def runs (s : AudioProSpeaker) : AudioProSpeaker :=
  if s.enabled then { s with speaker := beginConnect s.speaker, runner := .connecting }
  else { s with runner := .off }

/-- The link is open: the read task is created, and MCU+PST+GET is the first of three questions. -/
def opened (s : AudioProSpeaker) : AudioProSpeaker :=
  { s with
    speaker := connected s.speaker
    runner := .asking 2
    readTask := some {}
    received := []
    eof := false }.send .runner

/-- After the `finally`. -/
def cycleEnds (s : AudioProSpeaker) : AudioProSpeaker :=
  { s with runner := if s.enabled then .pausing else .off }

/-- `_cancel_task(read_task)`. -/
def cancelReadTask (s : AudioProSpeaker) : AudioProSpeaker :=
  match s.readTask with
  | none => s.cycleEnds
  | some task =>
    if task.stage = .done then s.cycleEnds
    else { s with readTask := some task.cancel, runner := .cancelling }

/-- A cancelled `_runner` leaves its cycle through `finally`, or that too. -/
def runnerLeaves (s : AudioProSpeaker) : AudioProSpeaker :=
  match s.runner with
  | .connecting | .asking _ | .waitingReady | .following =>
    { s.dropQuestion with speaker := s.speaker.disconnect, runner := .closing, cancelled := false }
  | _ => { s with runner := .off, cancelled := false }

/-- `stop` up to the end of the runner; a cancellation goes on to the task that is awaited. -/
def stop (s : AudioProSpeaker) : AudioProSpeaker :=
  { s with
    enabled := false
    cancelled := s.runner ≠ .off
    readTask := if s.runner = .following then s.readTask.map ReadTask.cancel else s.readTask }

/-! ### `_read_loop` -/

def setReadTask (s : AudioProSpeaker) (task : ReadTask) : AudioProSpeaker :=
  { s with readTask := some task }

/-- `read` returns: a chunk, from which packets are parsed, or nothing at the end of the stream. -/
def chunk (s : AudioProSpeaker) (task : ReadTask) : AudioProSpeaker :=
  if s.received = [] then s.setReadTask { task with stage := .done }
  else
    let parsed := drain (task.buf ++ s.received.take 4096)
    { s with received := s.received.drop 4096 }.setReadTask
      { task with stage := .running, buf := parsed.2, payloads := parsed.1 }

/-- The top of the `while`; without a reader `self._reader.read` raises. -/
def readAgain (s : AudioProSpeaker) (task : ReadTask) : AudioProSpeaker :=
  if !s.enabled || !s.speaker.writer then s.setReadTask { task with stage := .done }
  else if s.received = [] && !s.eof then s.setReadTask { task with stage := .waiting }
  else s.chunk task

end AudioProSpeaker

section
variable (py : PyJson)

namespace AudioProSpeaker

/-- `_on_payload` for the first of the payloads. -/
def handle (s : AudioProSpeaker) (task : ReadTask) (payload : String) (rest : List String) :
    AudioProSpeaker :=
  { s.setReadTask { task with payloads := rest } with
    speaker := s.speaker.onPayload py payload
    hasRead := s.hasRead || (statusOf py payload).isSome }

/-- One thing that `_read_loop` does in its turn. -/
def reads (s : AudioProSpeaker) (task : ReadTask) : AudioProSpeaker :=
  match task.payloads with
  | payload :: rest => s.handle py task payload rest
  | [] => s.readAgain task

end AudioProSpeaker
end

/-- `start`, and `stop` in two parts; the runner is cancelled; what comes of `open_connection`;
`_wait_ready` sees that it may return, or times out; the read task has ended; the runner gets past the
`_disconnect` and the `_cancel_task` of its `finally`, and past its sleep; the read task is woken, goes
on in its turn, is cancelled; the transport feeds data or the end of the stream; a `_send` is called,
takes the lock, writes, comes back from `drain`, raises what `_fail_link` raises, is cancelled. -/
inductive Event where
  | starts
  | stops
  | stopDisconnects
  | runnerCancelled
  | opens
  | connectFails (error : String)
  | seesReady
  | handshakeTimesOut
  | readLoopEnded (error : String)
  | closed
  | readTaskCancelled
  | pauseEnds
  | wakes
  | goesOn
  | readLoopCancelled
  | receives (bytes : List UInt8)
  | peerCloses
  | sends (caller : Caller)
  | takesLock (i : Nat)
  | writes (i : Nat)
  | drains (i : Nat) (error : Option String)
  | raises (i : Nat)
  | sendCancelled (i : Nat)
  deriving DecidableEq

namespace AudioProSpeaker

/-- The runner is there, and has not been cancelled. -/
def runnerAt (s : AudioProSpeaker) (runner : Runner) : Bool := s.runner = runner && !s.cancelled

def readDone (s : AudioProSpeaker) : Bool := s.readTask.any fun task => task.stage = .done

/-- `_read_loop` is woken, or started. -/
def wakes (s : AudioProSpeaker) : Option AudioProSpeaker :=
  s.readTask.bind fun task =>
    if task.cancelled then none
    else match task.stage with
      | .created => some (s.setReadTask { task with stage := .running })
      | .waiting => if s.received ≠ [] ∨ s.eof then some (s.chunk task) else none
      | _ => none

/-- The turns of all but `_read_loop`, when it is not in its own. -/
def act (s : AudioProSpeaker) : Event → Option AudioProSpeaker
  | .starts =>
    if s.enabled then some s
    else if s.runner = .off then some { s with enabled := true, cancelled := false }.runs
    else none
  | .stops => some s.stop
  | .stopDisconnects =>
    if s.enabled then none else some { s with speaker := s.speaker.disconnect }
  | .runnerCancelled =>
    if s.cancelled ∧ (s.runner = .following → s.readDone) then some s.runnerLeaves else none
  | .opens => if s.runnerAt .connecting then some s.opened else none
  | .connectFails error => if s.runnerAt .connecting then some (s.runnerFails error) else none
  | .seesReady =>
    if s.runnerAt .waitingReady ∧ (s.speaker.state.ready ∨ !s.enabled) then
      some { s with runner := .following }
    else none
  | .handshakeTimesOut =>
    if s.runnerAt .waitingReady ∧ !s.speaker.state.ready then some (s.runnerFails "handshake timeout")
    else none
  | .readLoopEnded error =>
    if s.runnerAt .following ∧ s.readDone then some (s.runnerFails error) else none
  | .closed => if s.runnerAt .closing then some s.cancelReadTask else none
  | .readTaskCancelled => if s.runnerAt .cancelling ∧ s.readDone then some s.cycleEnds else none
  | .pauseEnds => if s.runnerAt .pausing then some s.runs else none
  | .wakes => s.wakes
  | .goesOn => none
  | .readLoopCancelled =>
    (s.readTask.filter fun task => task.cancelled ∧ task.stage ≠ .done).map fun task =>
      s.setReadTask { task with stage := .done }
  | .receives bytes =>
    if s.speaker.writer ∧ !s.eof then some { s with received := s.received ++ bytes } else none
  | .peerCloses => some { s with eof := true }
  | .sends caller =>
    match caller with
    | .runner => none
    | .control => some (if s.speaker.state.ready then s.send .control else s)
    | .request => some (s.send .request)
  | .takesLock i =>
    if s.sendLock = none then (s.callerAt i .waiting).map fun caller =>
      { s with sendLock := some i }.setSend i caller .pacing
    else none
  | .writes i => (s.callerAt i .pacing).map fun caller => s.write i caller
  | .drains i error => (s.callerAt i .draining).map fun caller => s.drained i caller error
  | .raises i =>
    match s.sendAt i with
    | some ⟨caller, .failing reason⟩ => some ((s.setSend i caller .done).raised reason caller)
    | _ => none
  | .sendCancelled i =>
    (s.sends[i]?.filter fun c => c.caller ≠ .runner ∧ c.stage ≠ .done).map fun c =>
      s.dropSend i c.caller

end AudioProSpeaker

def step (py : PyJson) (s : AudioProSpeaker) (e : Event) : Option AudioProSpeaker :=
  match s.readTask with
  | some task =>
    if task.stage = .running then if e = .goesOn then some (s.reads py task) else none
    else s.act e
  | none => s.act e

/-- The payload that `_read_loop` handles next. -/
def AudioProSpeaker.next? (s : AudioProSpeaker) : Option String :=
  s.readTask.bind fun task => if task.stage = .running then task.payloads.head? else none

/-- The payload that is handled in this step. -/
def handled (s : AudioProSpeaker) (e : Event) : Option String := if e = .goesOn then s.next? else none

/-! ### What a message does -/

/-- A start of listening, seen by `_emit_listen_edge`. -/
def starts (b c : Speaker) : Bool := !b.state.listening && c.state.listening && b.initial.settled

theorem starts_same {b c : Speaker} (h : c.state.listening = b.state.listening) :
    starts b c = false := by
  unfold starts
  rw [h]
  cases b.state.listening <;> rfl

/-- A message leaves the link alone; a full status makes the speaker ready; a start of listening is
told. -/
structure Heard (b c : Speaker) (status : Bool) : Prop where
  reachable : c.state.reachable = b.state.reachable
  connected : c.state.connected = b.state.connected
  writer : c.writer = b.writer
  ready : c.state.ready = (b.state.ready || status)
  initial : c.initial = if status && !b.state.ready then b.initial.markReceived else b.initial
  signals : c.signals = b.signals ++ if starts b c then
    [{ source := c.state.source, playbackStatus := c.state.playbackStatus }] else []

/-- `_emit_listen_edge` after the state has been set. -/
theorem emitListenEdge_told (b : Speaker) (state : SpeakerState) :
    { b with state := state }.emitListenEdge b.state =
      { b with
        state := state
        signals := b.signals ++ if starts b { b with state := state } then
          [{ source := state.source, playbackStatus := state.playbackStatus }] else [] } := by
  unfold Speaker.emitListenEdge starts
  cases hsettled : b.initial.settled <;> cases hold : b.state.listening <;>
    cases hnew : state.listening <;> simp

theorem heard_applyUpdates (b : Speaker) {u : Updates} (hready : u.ready = none) :
    Heard b (b.applyUpdates u) false := by
  unfold Speaker.applyUpdates
  rw [emitListenEdge_told]
  exact ⟨rfl, rfl, rfl, by simp [hready], rfl, rfl⟩

theorem heard_takeInfo (b : Speaker) (info : Info) : Heard b (b.takeInfo info) true := by
  unfold Speaker.takeInfo Speaker.applyUpdates
  rw [emitListenEdge_told]
  exact ⟨rfl, rfl, rfl, by simp [Info.updates], rfl, rfl⟩

/-- A message that touches neither. -/
theorem Heard.quiet {b c : Speaker} (hreachable : c.state.reachable = b.state.reachable)
    (hconnected : c.state.connected = b.state.connected) (hwriter : c.writer = b.writer)
    (hready : c.state.ready = b.state.ready) (hinitial : c.initial = b.initial)
    (hsignals : c.signals = b.signals) (hlistening : c.state.listening = b.state.listening) :
    Heard b c false := by
  refine ⟨hreachable, hconnected, hwriter, by rw [hready, Bool.or_false], hinitial, ?_⟩
  rw [starts_same hlistening, hsignals, if_neg Bool.false_ne_true, List.append_nil]

theorem heard_of_effect {b c : Speaker} {r : Reading} {status : Option Info}
    (h : Effect b r status c) : Heard b c status.isSome := by
  cases h with
  | same | powered | slaves => exact .quiet rfl rfl rfl rfl rfl rfl rfl
  | updates u hready => exact heard_applyUpdates b hready
  | takesInfo info => exact heard_takeInfo b info

theorem heard_onPayload (py : PyJson) (b : Speaker) (payload : String) :
    Heard b (b.onPayload py payload) (statusOf py payload).isSome :=
  heard_of_effect (effect_onPayload py b payload)

/-! ### What a step does -/

/-- What befalls the speaker apart from messages; the last one is a failure of the runner. -/
inductive Change (b : Speaker) : Bool → Speaker → Prop
  | same : Change b false b
  | lastError (error : Option String) : Change b false (setLastError b error)
  | begins : Change b false (beginConnect b)
  | connected : Change b false (connected b)
  | disconnects : Change b false b.disconnect
  | failsLink (reason : String) : Change b false (b.markDown reason).disconnect
  | fails (error : String) : Change b true (failed b error)

/-- A step that handles no message. -/
structure Moves (s t : AudioProSpeaker) : Prop where
  changes : ∃ fails, Change s.speaker fails t.speaker ∧ t.hasFailed = (s.hasFailed || fails)
  hasRead : t.hasRead = s.hasRead

theorem Moves.of {s t : AudioProSpeaker} (hchange : Change s.speaker false t.speaker)
    (hasFailed : t.hasFailed = s.hasFailed) (hasRead : t.hasRead = s.hasRead) : Moves s t :=
  ⟨⟨false, hchange, by rw [hasFailed, Bool.or_false]⟩, hasRead⟩

/-- The speaker is not touched. -/
theorem Moves.same {s t : AudioProSpeaker} (hspeaker : t.speaker = s.speaker)
    (hasFailed : t.hasFailed = s.hasFailed) (hasRead : t.hasRead = s.hasRead) : Moves s t :=
  .of (by rw [hspeaker]; exact .same) hasFailed hasRead

theorem moves_runnerFails (s : AudioProSpeaker) (error : String) : Moves s (s.runnerFails error) :=
  ⟨⟨true, .fails error, (Bool.or_true _).symm⟩, rfl⟩

/-- What has been put aside before does not matter. -/
theorem Moves.after {s s' t : AudioProSpeaker} (h : Moves s' t) (hspeaker : s'.speaker = s.speaker)
    (hasFailed : s'.hasFailed = s.hasFailed) (hasRead : s'.hasRead = s.hasRead) : Moves s t := by
  obtain ⟨⟨fails, hchange, hfailed⟩, hread⟩ := h
  rw [hspeaker] at hchange
  exact ⟨⟨fails, hchange, by rw [hfailed, hasFailed]⟩, hread.trans hasRead⟩

theorem moves_raised (s : AudioProSpeaker) (reason : String) (caller : Caller) :
    Moves s (s.raised reason caller) := by
  cases caller with
  | runner => exact moves_runnerFails s reason
  | control => exact .of (.lastError _) rfl rfl
  | request => exact .same rfl rfl rfl

theorem moves_send (s : AudioProSpeaker) (caller : Caller) : Moves s (s.send caller) := by
  unfold AudioProSpeaker.send
  split
  · exact moves_raised s _ caller
  · exact .same rfl rfl rfl

theorem moves_sent (s : AudioProSpeaker) (caller : Caller) : Moves s (s.sent caller) := by
  cases caller with
  | runner =>
    show Moves s s.asked
    unfold AudioProSpeaker.asked
    split
    · exact (moves_send _ .runner).after rfl rfl rfl
    · exact .same rfl rfl rfl
    · exact .same rfl rfl rfl
  | control => exact .of (.lastError none) rfl rfl
  | request => exact .same rfl rfl rfl

theorem moves_failLink (s : AudioProSpeaker) (i : Nat) (caller : Caller) (error : String) :
    Moves s (s.failLink i caller error) :=
  .of (.failsLink _) rfl rfl

theorem moves_write (s : AudioProSpeaker) (i : Nat) (caller : Caller) : Moves s (s.write i caller) := by
  unfold AudioProSpeaker.write
  split
  · exact .same rfl rfl rfl
  · exact moves_failLink s i caller _

theorem moves_drained (s : AudioProSpeaker) (i : Nat) (caller : Caller) (error : Option String) :
    Moves s (s.drained i caller error) := by
  cases error with
  | none => exact (moves_sent _ caller).after rfl rfl rfl
  | some error => exact moves_failLink s i caller error

theorem moves_runs (s : AudioProSpeaker) : Moves s s.runs := by
  unfold AudioProSpeaker.runs
  split
  · exact .of .begins rfl rfl
  · exact .same rfl rfl rfl

/-- The first question finds the writer there. -/
theorem moves_opened (s : AudioProSpeaker) : Moves s s.opened := .of .connected rfl rfl

theorem moves_cancelReadTask (s : AudioProSpeaker) : Moves s s.cancelReadTask := by
  unfold AudioProSpeaker.cancelReadTask
  split
  · exact .same rfl rfl rfl
  · split <;> exact .same rfl rfl rfl

theorem moves_runnerLeaves (s : AudioProSpeaker) : Moves s s.runnerLeaves := by
  unfold AudioProSpeaker.runnerLeaves
  split
  all_goals first | exact .of .disconnects rfl rfl | exact .same rfl rfl rfl

theorem moves_chunk (s : AudioProSpeaker) (task : ReadTask) : Moves s (s.chunk task) := by
  unfold AudioProSpeaker.chunk
  split <;> exact .same rfl rfl rfl

theorem moves_readAgain (s : AudioProSpeaker) (task : ReadTask) : Moves s (s.readAgain task) := by
  unfold AudioProSpeaker.readAgain
  split
  · exact .same rfl rfl rfl
  · split
    · exact .same rfl rfl rfl
    · exact moves_chunk s task

theorem moves_wakes {s t : AudioProSpeaker} (h : s.wakes = some t) : Moves s t := by
  obtain ⟨task, _, h⟩ := Option.bind_eq_some_iff.mp h
  obtain ⟨_, h⟩ := Option.ite_none_left_eq_some.mp h
  split at h
  · obtain rfl := Option.some.inj h
    exact .same rfl rfl rfl
  · obtain ⟨_, rfl⟩ := of_guard h
    exact moves_chunk s task
  · cases h

theorem moves_act {s t : AudioProSpeaker} {e : Event} (h : s.act e = some t) : Moves s t := by
  cases e with
  | starts =>
    dsimp only [AudioProSpeaker.act] at h
    split at h
    · obtain rfl := Option.some.inj h
      exact .same rfl rfl rfl
    · obtain ⟨_, rfl⟩ := of_guard h
      exact (moves_runs _).after rfl rfl rfl
  | stops =>
    obtain rfl := Option.some.inj h
    exact .same rfl rfl rfl
  | stopDisconnects =>
    obtain ⟨_, h⟩ := Option.ite_none_left_eq_some.mp h
    obtain rfl := Option.some.inj h
    exact .of .disconnects rfl rfl
  | runnerCancelled =>
    obtain ⟨_, rfl⟩ := of_guard h
    exact moves_runnerLeaves s
  | opens =>
    obtain ⟨_, rfl⟩ := of_guard h
    exact moves_opened s
  | connectFails error =>
    obtain ⟨_, rfl⟩ := of_guard h
    exact moves_runnerFails s error
  | seesReady =>
    obtain ⟨_, rfl⟩ := of_guard h
    exact .same rfl rfl rfl
  | handshakeTimesOut =>
    obtain ⟨_, rfl⟩ := of_guard h
    exact moves_runnerFails s _
  | readLoopEnded error =>
    obtain ⟨_, rfl⟩ := of_guard h
    exact moves_runnerFails s error
  | closed =>
    obtain ⟨_, rfl⟩ := of_guard h
    exact moves_cancelReadTask s
  | readTaskCancelled =>
    obtain ⟨_, rfl⟩ := of_guard h
    exact .same rfl rfl rfl
  | pauseEnds =>
    obtain ⟨_, rfl⟩ := of_guard h
    exact moves_runs s
  | wakes => exact moves_wakes h
  | goesOn => cases h
  | readLoopCancelled =>
    obtain ⟨task, _, rfl⟩ := Option.map_eq_some_iff.mp h
    exact .same rfl rfl rfl
  | receives bytes =>
    obtain ⟨_, rfl⟩ := of_guard h
    exact .same rfl rfl rfl
  | peerCloses =>
    obtain rfl := Option.some.inj h
    exact .same rfl rfl rfl
  | sends caller =>
    cases caller with
    | runner => cases h
    | control =>
      obtain rfl := Option.some.inj h
      split
      · exact moves_send s .control
      · exact .same rfl rfl rfl
    | request =>
      obtain rfl := Option.some.inj h
      exact moves_send s .request
  | takesLock i =>
    obtain ⟨_, h⟩ := Option.ite_none_right_eq_some.mp h
    obtain ⟨caller, _, rfl⟩ := Option.map_eq_some_iff.mp h
    exact .same rfl rfl rfl
  | writes i =>
    obtain ⟨caller, _, rfl⟩ := Option.map_eq_some_iff.mp h
    exact moves_write s i caller
  | drains i error =>
    obtain ⟨caller, _, rfl⟩ := Option.map_eq_some_iff.mp h
    exact moves_drained s i caller error
  | raises i =>
    dsimp only [AudioProSpeaker.act] at h
    split at h
    · obtain rfl := Option.some.inj h
      exact (moves_raised _ _ _).after rfl rfl rfl
    · cases h
  | sendCancelled i =>
    obtain ⟨c, _, rfl⟩ := Option.map_eq_some_iff.mp h
    exact .same rfl rfl rfl

/-- A step in which a message is handled. -/
structure Handles (py : PyJson) (s t : AudioProSpeaker) (payload : String) : Prop where
  speaker : t.speaker = s.speaker.onPayload py payload
  hasFailed : t.hasFailed = s.hasFailed
  hasRead : t.hasRead = (s.hasRead || (statusOf py payload).isSome)

theorem handles_handle (py : PyJson) (s : AudioProSpeaker) (task : ReadTask) (payload : String)
    (rest : List String) : Handles py s (s.handle py task payload rest) payload := by
  constructor <;> simp only [AudioProSpeaker.handle, AudioProSpeaker.setReadTask]

/-- What a step can do. -/
theorem step_cases {py : PyJson} {s t : AudioProSpeaker} {e : Event} (h : step py s e = some t) :
    (∃ payload, handled s e = some payload ∧ Handles py s t payload) ∨
      handled s e = none ∧ Moves s t := by
  have hquiet (hread : s.next? = none) : handled s e = none := by
    unfold handled
    rw [hread, ite_self]
  dsimp only [step] at h
  cases htask : s.readTask with
  | none =>
    rw [htask] at h
    exact Or.inr ⟨hquiet (by simp [AudioProSpeaker.next?, htask]), moves_act h⟩
  | some task =>
    rw [htask] at h
    dsimp only at h
    by_cases hrunning : task.stage = .running
    · rw [if_pos hrunning] at h
      obtain ⟨rfl, rfl⟩ := of_guard h
      have hnext : handled s .goesOn = task.payloads.head? := by
        simp [handled, AudioProSpeaker.next?, htask, hrunning]
      rw [hnext]
      unfold AudioProSpeaker.reads
      cases task.payloads with
      | nil => exact Or.inr ⟨rfl, moves_readAgain s task⟩
      | cons payload rest => exact Or.inl ⟨payload, rfl, handles_handle py s task payload rest⟩
    · rw [if_neg hrunning] at h
      exact Or.inr ⟨hquiet (by simp [AudioProSpeaker.next?, htask, hrunning]), moves_act h⟩

/-! ### Ready, connected, reachable -/

/-- Connected only when reachable and with a writer. -/
structure Linked (b : Speaker) : Prop where
  connected : b.state.connected = true → b.state.reachable = true
  writer : b.state.connected = true → b.writer = true

/-- And ready only when connected. -/
structure Coherent (b : Speaker) : Prop extends Linked b where
  ready : b.state.ready = true → b.state.connected = true

theorem Change.linked {b c : Speaker} {fails : Bool} (hchange : Change b fails c) (h : Linked b) :
    Linked c := by
  cases hchange with
  | same | lastError => exact ⟨h.connected, h.writer⟩
  | begins | disconnects | failsLink | fails => exact ⟨nofun, nofun⟩
  | connected => exact ⟨fun _ => rfl, fun _ => rfl⟩

/-- Nothing but a message makes the speaker ready. -/
theorem Change.ready {b c : Speaker} {fails : Bool} (hchange : Change b fails c)
    (h : b.state.ready = true → b.state.connected = true) :
    c.state.ready = true → c.state.connected = true := by
  cases hchange with
  | same | lastError => exact h
  | begins | disconnects | failsLink | fails => exact nofun
  | connected => exact fun _ => rfl

theorem Heard.linked {b c : Speaker} {status : Bool} (hheard : Heard b c status) (h : Linked b) :
    Linked c := by
  refine ⟨fun hconnected => ?_, fun hconnected => ?_⟩
  · rw [hheard.connected] at hconnected
    rw [hheard.reachable, h.connected hconnected]
  · rw [hheard.connected] at hconnected
    rw [hheard.writer, h.writer hconnected]

theorem linked_step {py : PyJson} {s t : AudioProSpeaker} {e : Event} (h : Linked s.speaker)
    (hstep : step py s e = some t) : Linked t.speaker := by
  obtain ⟨payload, _, hhandles⟩ | ⟨_, hmoves⟩ := step_cases hstep
  · rw [hhandles.speaker]
    exact (heard_onPayload py s.speaker payload).linked h
  · obtain ⟨fails, hchange, _⟩ := hmoves.changes
    exact hchange.linked h

/-- A full status is handled only while the link is up. -/
def Current (py : PyJson) (s : AudioProSpeaker) (e : Event) : Prop :=
  ∀ payload ∈ handled s e, (statusOf py payload).isSome = true → s.speaker.state.connected = true

theorem coherent_step {py : PyJson} {s t : AudioProSpeaker} {e : Event} (h : Coherent s.speaker)
    (hstep : step py s e = some t) : Current py s e ↔ Coherent t.speaker := by
  have hlinked : Linked t.speaker := linked_step h.toLinked hstep
  have hiff : Coherent t.speaker ↔
      (t.speaker.state.ready = true → t.speaker.state.connected = true) :=
    ⟨Coherent.ready, fun hready => ⟨hlinked, hready⟩⟩
  rw [hiff]
  obtain ⟨payload, hhandled, hhandles⟩ | ⟨hhandled, hmoves⟩ := step_cases hstep
  · have hheard := heard_onPayload py s.speaker payload
    rw [hhandles.speaker, hheard.ready, hheard.connected]
    refine ⟨fun hcurrent hready => ?_, fun hready p hp hstatus => ?_⟩
    · obtain hready | hstatus := Bool.or_eq_true_iff.mp hready
      · exact h.ready hready
      · exact hcurrent payload hhandled hstatus
    · obtain rfl := Option.some.inj (hhandled.symm.trans hp)
      exact hready (by rw [hstatus, Bool.or_true])
  · obtain ⟨fails, hchange, _⟩ := hmoves.changes
    refine iff_of_true (fun p hp => ?_) (hchange.ready h.ready)
    rw [hhandled] at hp
    cases hp

theorem coherent_start : Coherent ({} : AudioProSpeaker).speaker := ⟨⟨nofun, nofun⟩, nofun⟩

/-- However the tasks take turns, connected implies reachable and a writer in every state; ready
implies connected in every state of a run exactly if every full status of the run is handled while the
link is up. -/
theorem ready_connected_iff {py : PyJson} {s : AudioProSpeaker} {es : List Event}
    (h : execute (step py) {} es = some s) :
    (s.speaker.state.connected = true → s.speaker.state.reachable = true ∧ s.speaker.writer = true) ∧
    (Along (step py) (Current py) {} es ↔
      ∀ before after u, es = before ++ after → execute (step py) {} before = some u →
        Coherent u.speaker) := by
  have hlinked : Linked s.speaker := (reachable_of_execute h).invariant ⟨nofun, nofun⟩
    fun _ _ _ ht _ hstep => linked_step ht hstep
  exact ⟨fun hconnected => ⟨hlinked.connected hconnected, hlinked.writer hconnected⟩,
    along_iff_forall_states (fun _ _ _ ht hstep => coherent_step ht hstep) h coherent_start⟩

instance (py : PyJson) (s : AudioProSpeaker) (e : Event) : Decidable (Current py s e) :=
  match h : handled s e with
  | none => .isTrue fun payload hp => by rw [h] at hp; cases hp
  | some payload =>
    decidable_of_iff ((statusOf py payload).isSome = true → s.speaker.state.connected = true) <| by
      rw [Current, h]
      simp

/-- Connected, with the first question at the lock and the read loop waiting. -/
def connects : List Event := [.starts, .opens, .wakes, .goesOn]

theorem ready_connected_iff_connects : ∃ s, execute (step samplePy) {} connects = some s ∧
    s.speaker.state.reachable = true ∧ s.speaker.writer = true ∧
      ∀ before after u, connects = before ++ after → execute (step samplePy) {} before = some u →
        Coherent u.speaker := by
  have hruns : execute (step samplePy) {} connects = some _ := rfl
  obtain ⟨hlinked, hiff⟩ := ready_connected_iff hruns
  exact ⟨_, hruns, (hlinked rfl).1, (hlinked rfl).2, hiff.mp (by decide)⟩

theorem readAgain_speaker (s : AudioProSpeaker) (task : ReadTask) :
    (s.readAgain task).speaker = s.speaker := by
  unfold AudioProSpeaker.readAgain AudioProSpeaker.chunk
  split_ifs <;> rfl

/-- A read loop that waits, with one packet for it: it takes the packet and handles the payload, and
that ends its turn. -/
theorem reads_packet (py : PyJson) {s : AudioProSpeaker} {p : Payload}
    (htask : s.readTask = some { stage := .waiting }) (hreceived : s.received = mkPacket p.text)
    (hlength : (mkPacket p.text).length ≤ 4096) : ∃ t,
      execute (step py) s [.wakes, .goesOn, .goesOn] = some t ∧
        t.speaker = s.speaker.onPayload py p.text := by
  have hparsed : (drain (mkPacket p.text)).1 = [p.text] := by
    simpa [packets] using drain_packets [p]
  have hne : mkPacket p.text ≠ [] := by simp [mkPacket, tcpHeader]
  let task : ReadTask :=
    { stage := .running, buf := (drain s.received).2, payloads := [p.text] }
  let woken := { s with received := [] }.setReadTask task
  let told := woken.handle py task p.text []
  have hwakes : step py s .wakes = some woken := by
    simp [step, AudioProSpeaker.act, AudioProSpeaker.wakes, AudioProSpeaker.chunk, htask, hreceived, hne,
      hparsed, List.take_of_length_le hlength, List.drop_of_length_le hlength, woken, task]
  have htold : step py woken .goesOn = some told := by
    simp [step, AudioProSpeaker.setReadTask, AudioProSpeaker.reads, woken, task, told]
  have hagain : step py told .goesOn = some (told.readAgain { task with payloads := [] }) := by
    simp [step, AudioProSpeaker.setReadTask, AudioProSpeaker.reads, AudioProSpeaker.handle, told, task]
  refine ⟨told.readAgain { task with payloads := [] }, ?_, ?_⟩
  · rw [execute_cons hwakes, execute_cons htold, execute_cons hagain, execute]
  · rw [readAgain_speaker]
    exact (handles_handle py woken task p.text []).speaker

/-! A full status has been received but not read when the link goes down. -/

def samplePayload : Payload :=
  ⟨"AXX+PLY+INF" ++ sampleJson ++ "&", by decide +kernel, by decide +kernel, by decide +kernel⟩

/-- A question of the runner's is written, and answered or not. -/
def asks (i : Nat) (error : Option String) : List Event := [.takesLock i, .writes i, .drains i error]

/-- The third question fails, after the answer to the second one has arrived. -/
def sendFails : List Event :=
  connects ++ asks 0 none ++ asks 1 none ++
    [.takesLock 2, .writes 2, .receives (mkPacket samplePayload.text),
      .drains 2 (some "send timeout after 2.0s")]

/-- `stop` cancels the runner in its handshake, as the answer arrives. -/
def stopsEarly : List Event :=
  connects ++ asks 0 none ++ asks 1 none ++
    [.stops, .receives (mkPacket samplePayload.text), .runnerCancelled]

/-- Where the link is down by then, the speaker is ready all the same. -/
theorem ready_when_late {s : AudioProSpeaker} {es : List Event}
    (h : execute (step samplePy) {} es = some s) (htask : s.readTask = some { stage := .waiting })
    (hreceived : s.received = mkPacket samplePayload.text)
    (hdown : s.speaker.state.connected = false) :
    ∃ t, execute (step samplePy) {} (es ++ [.wakes, .goesOn, .goesOn]) = some t ∧
      t.speaker.state.ready = true ∧ t.speaker.state.connected = false := by
  have hstatus : (statusOf samplePy samplePayload.text).isSome = true := by decide +kernel
  obtain ⟨t, ht, hspeaker⟩ := reads_packet samplePy htask hreceived (by decide +kernel)
  have hheard := heard_onPayload samplePy s.speaker samplePayload.text
  rw [← hspeaker] at hheard
  refine ⟨t, by rw [execute_append, h, Option.bind_some, ht], ?_, hheard.connected.trans hdown⟩
  rw [hheard.ready, hstatus, Bool.or_true]

theorem ready_after_teardown :
    (∃ s, execute (step samplePy) {} (sendFails ++ [.wakes, .goesOn, .goesOn]) = some s ∧
      s.speaker.state.ready = true ∧ s.speaker.state.connected = false) ∧
    ∃ s, execute (step samplePy) {} (stopsEarly ++ [.wakes, .goesOn, .goesOn]) = some s ∧
      s.speaker.state.ready = true ∧ s.speaker.state.connected = false := by
  have hsend : execute (step samplePy) {} sendFails = some _ := rfl
  have hstop : execute (step samplePy) {} stopsEarly = some _ := rfl
  exact ⟨ready_when_late hsend rfl rfl rfl, ready_when_late hstop rfl rfl rfl⟩

end PiHub.SpeakerLink

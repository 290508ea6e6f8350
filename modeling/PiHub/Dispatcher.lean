import Mathlib.Data.List.TakeWhile
import PiHub.BleFrames
import PiHub.Fifo
import PiHub.LiveTable

/-! The dispatcher (dispatcher.py): key edges to BLE frames, speaker jobs and flows, with the
repeat and hold tasks they start and stop. -/
namespace PiHub.Dispatcher
open PiHub.HostFrames PiHub.Keymap PiHub.BleFrames PiHub.LiveTable

def repeatInitialMs : Nat := 400
def repeatRateMs : Nat := 300

/-- `_REPEAT_KEYS`. -/
def repeatKeys : List String := ["rem_vol_up", "rem_vol_down"]

inductive Edge where
  | down | up
  deriving DecidableEq

def Edge.name : Edge → String
  | .down => "down"
  | .up => "up"

/-- What the dispatcher is built with; `runFlow` says whether it was given a flow runner. -/
structure Setup where
  hid : HidKeymap
  bindings : Bindings
  runFlow : Bool

/-- `_active_bindings` in a mode. -/
def Setup.activeBindings (S : Setup) (mode : Option String) : Dict String (List Action) :=
  mode.elim ∅ fun m => (S.bindings.lookup m).getD ∅

/-- `_active_ble_frames` in a mode. -/
def Setup.activeBleFrames (S : Setup) (mode : Option String) : Option CompiledBleFrames :=
  mode.bind fun m => (S.bindings.lookup m).map (compileBleFrames S.hid)

def Setup.actions (S : Setup) (mode : Option String) (remKey : String) : List Action :=
  ((S.activeBindings mode).lookup remKey).getD []

/-- A key of `_hold_tasks`. -/
abbrev HoldKey := String × Nat

inductive TaskKind where
  | repeats (remKey : String)
  | hold (key : HoldKey) (minHoldMs : Int) (flow trigger : String)
  deriving DecidableEq

/-- `created` until its first step; `failed` if an exception ended it. -/
inductive TaskState where
  | created
  | sleeping (due : Nat)
  | ended
  | failed
  deriving DecidableEq

/-- `cancelled`: `cancel()` has been called and CancelledError is still to be delivered, if
the task is not done. -/
structure Task where
  kind : TaskKind
  state : TaskState := .created
  cancelled : Bool := false
  deriving DecidableEq

def Task.Done (t : Task) : Prop := t.state = .ended ∨ t.state = .failed

instance (t : Task) : Decidable t.Done := inferInstanceAs (Decidable (_ ∨ _))

structure SpeakerJob where
  action : Json
  kwargs : List (String × Json)
  remKey : String

/-- The dispatcher between two steps of the event loop. A task is known by its place in
`tasks`. `flows` holds the name and trigger of each flow task created, `sent` the frames
handed to the dongle's queue with the key they were for, newest first. The clock counts
milliseconds. -/
structure State where
  mode : Option String := none
  repeatTasks : Dict String Nat := ∅
  pressedAt : Dict String Nat := ∅
  holdTasks : Dict HoldKey Nat := ∅
  tasks : List Task := []
  speakerQueue : Fifo SpeakerJob 4 := Fifo.empty
  flows : List (String × String) := []
  sent : List (Frame × Option String) := []
  now : Nat := 0

/-- How far a coroutine got in one step of the event loop. -/
inductive Progress (φ : Type) where
  | waits (phase : φ)
  | returns
  | raises
  deriving DecidableEq

def State.setModeBindings (s : State) (mode : Option String) : State := { s with mode := mode }

/-- The state of a task; there is none that is not in the list. -/
def State.taskState (s : State) (t : Nat) : TaskState := (s.tasks[t]?.map Task.state).getD .ended

/-- The task is not done. -/
def State.Live (s : State) (t : Nat) : Prop := s.taskState t ≠ .ended ∧ s.taskState t ≠ .failed

instance (s : State) (t : Nat) : Decidable (s.Live t) := inferInstanceAs (Decidable (_ ∧ _))

def State.create (s : State) (kind : TaskKind) : State := { s with tasks := s.tasks ++ [{ kind }] }

def State.cancel (s : State) (t : Nat) : State :=
  { s with tasks := s.tasks.modify t fun task => { task with cancelled := true } }

def State.setTask (s : State) (t : Nat) (state : TaskState) : State :=
  { s with tasks := s.tasks.modify t fun task => { task with state := state } }

/-- `_hold_tasks.pop(key, None)`. -/
def State.popHold (s : State) (key : HoldKey) : State :=
  { s with holdTasks := s.holdTasks.erase key }

def State.popRepeat (s : State) (remKey : String) : State :=
  { s with repeatTasks := s.repeatTasks.erase remKey }

def State.hand (s : State) (remKey : String) : Option Frame → State
  | none => s
  | some f => { s with sent := (f, some remKey) :: s.sent }

/-- `release_all`. -/
def State.releaseAll (s : State) : State :=
  { s with sent := (zeroFrame .consumer, none) :: (zeroFrame .keyboard, none) :: s.sent }

/-- The frame `_handle_ble_action` hands over. -/
def Setup.bleFrame (S : Setup) (mode : Option String) (edge : Edge) (usage code : String) :
    Option Frame :=
  match S.activeBleFrames mode, edge with
  | some frames, .down => compiledKeyDown frames usage code
  | some frames, .up => compiledKeyUp frames usage code
  | none, .down => keyDown S.hid usage code
  | none, .up => keyUp usage code

/-- `_submit` to the speaker's queue. -/
def State.submit (s : State) (job : SpeakerJob) : State :=
  { s with speakerQueue := s.speakerQueue.put [job] }

/-- The speaker's worker takes its next job. -/
def State.speakerTakes (s : State) : State := { s with speakerQueue := s.speakerQueue.drop 1 }

def flowTrigger (remKey : String) : String := if remKey = "" then "remote" else "remote." ++ remKey

def State.spawnFlow (s : State) (name trigger : String) : State :=
  { s with flows := s.flows ++ [(name, trigger)] }

def State.scheduleHoldAction (s : State) (key : HoldKey) (minHoldMs : Int) (name : String) : State :=
  if (s.holdTasks.lookup key).isSome then s
  else { s.create (.hold key minHoldMs name (flowTrigger key.1)) with
         holdTasks := s.holdTasks.insert key s.tasks.length }

/-- `_handle_flow_action`. -/
def handleFlowAction (S : Setup) (s : State) (name : String) (whenEdge minHoldMs : Json)
    (edge : Edge) (remKey : String) (idx : Nat) : Except PyError State :=
  if !S.runFlow || name = "" then .ok s
  else
    match parseMs minHoldMs 0 0 5000 with
    | .error e => .error e
    | .ok minHold =>
      if whenEdge.isStr "up" && edge = .up then
        if 0 < minHold ∧ remKey ≠ "" then
          match s.pressedAt.lookup remKey with
          | none => .ok s
          | some t0 =>
            if (s.now : Int) - t0 < minHold then .ok s
            else .ok (s.spawnFlow name (flowTrigger remKey))
        else .ok (s.spawnFlow name (flowTrigger remKey))
      else if whenEdge.isStr "down" && edge = .down then
        if 0 < minHold then .ok (s.scheduleHoldAction (remKey, idx) minHold name)
        else .ok (s.spawnFlow name (flowTrigger remKey))
      else .ok s

/-- `_do_action`. -/
def doAction (S : Setup) (s : State) (a : Action) (edge : Edge) (remKey : String) (idx : Nat) :
    Except PyError State :=
  match a with
  | .noop => .ok s
  | .ble usage code => .ok (s.hand remKey (S.bleFrame s.mode edge usage code))
  | .flow name whenEdge minHoldMs =>
    if whenEdge.isStr edge.name then handleFlowAction S s name whenEdge minHoldMs edge remKey idx
    else .ok s
  | .speaker whenEdge action kwargs =>
    if whenEdge.isStr edge.name ∧ edge = .down then
      .ok (s.submit { action := action, kwargs := kwargs, remKey := remKey })
    else .ok s

/-- The loop over a key's numbered actions; `false` if one of them raises. -/
def runActions (S : Setup) (remKey : String) (edge : Edge) :
    State → List (Action × Nat) → State × Bool
  | s, [] => (s, true)
  | s, (a, idx) :: rest =>
    match doAction S s a edge remKey idx with
    | .error _ => (s, false)
    | .ok s => runActions S remKey edge s rest

def State.startRepeat (s : State) (remKey : String) : State :=
  if (s.repeatTasks.lookup remKey).isSome then s
  else { s.create (.repeats remKey) with
         repeatTasks := s.repeatTasks.insert remKey s.tasks.length }

/-- Where `on_usb_edge` awaits a task it has cancelled: in `_stop_repeat`, or in
`_cancel_hold_tasks` with the keys still to cancel. -/
inductive EdgePhase where
  | stopRepeat (task : Nat)
  | cancelHolds (task : Nat) (rest : List HoldKey)
  deriving DecidableEq

/-- `on_usb_edge` once the press state is updated. -/
def runEdge (S : Setup) (s : State) (remKey : String) (edge : Edge) : State × Progress EdgePhase :=
  let ran := runActions S remKey edge s (S.actions s.mode remKey).zipIdx
  if ran.2 then
    match edge with
    | .down => (if remKey ∈ repeatKeys then ran.1.startRepeat remKey else ran.1, .returns)
    | .up => ({ ran.1 with pressedAt := ran.1.pressedAt.erase remKey }, .returns)
  else (ran.1, .raises)

/-- The loop of `_cancel_hold_tasks`, up to a task it has to wait for. -/
def State.cancelHoldTasks (s : State) : List HoldKey → State × Option (Nat × List HoldKey)
  | [] => (s, none)
  | key :: rest =>
    match s.holdTasks.lookup key with
    | none => s.cancelHoldTasks rest
    | some t =>
      let s := (s.popHold key).cancel t
      if s.Live t then (s, some (t, rest)) else s.cancelHoldTasks rest

def cancelThenRun (S : Setup) (s : State) (remKey : String) (edge : Edge) (keys : List HoldKey) :
    State × Progress EdgePhase :=
  match s.cancelHoldTasks keys with
  | (s, some (t, rest)) => (s, .waits (.cancelHolds t rest))
  | (s, none) => runEdge S s remKey edge

/-- `to_cancel` of `_cancel_hold_tasks`. -/
def State.holdKeys (s : State) (remKey : String) : List HoldKey :=
  s.holdTasks.keys.reverse.filter fun key => key.1 = remKey

/-- `on_usb_edge` up to its first wait. -/
def onUsbEdge (S : Setup) (s : State) (remKey : String) : Edge → State × Progress EdgePhase
  | .down =>
    let s := { s with pressedAt := s.pressedAt.insert remKey s.now }
    cancelThenRun S s remKey .down (s.holdKeys remKey)
  | .up =>
    match s.repeatTasks.lookup remKey with
    | none => cancelThenRun S s remKey .up (s.holdKeys remKey)
    | some t =>
      let s := (s.popRepeat remKey).cancel t
      if s.Live t then (s, .waits (.stopRepeat t))
      else if s.taskState t = .failed then (s, .raises)
      else cancelThenRun S s remKey .up (s.holdKeys remKey)

/-- `on_usb_edge` from the end of the task it awaits to its next wait. -/
def resumeEdge (S : Setup) (s : State) (remKey : String) (edge : Edge) :
    EdgePhase → State × Progress EdgePhase
  | .stopRepeat t =>
    if s.taskState t = .failed then (s, .raises)
    else cancelThenRun S s remKey edge (s.holdKeys remKey)
  | .cancelHolds _ rest => cancelThenRun S s remKey edge rest

def EdgePhase.task : EdgePhase → Nat
  | .stopRepeat t => t
  | .cancelHolds t _ => t

/-- A step of the call for an edge: its first, or the one that ends a wait. -/
def edgeStep (S : Setup) (s : State) (remKey : String) (edge : Edge) :
    Option EdgePhase → State × Progress EdgePhase
  | none => onUsbEdge S s remKey edge
  | some phase => resumeEdge S s remKey edge phase

/-- The hold keys that are left to cancel when a step of an edge's call begins. -/
def State.keysLeft (s : State) (remKey : String) : Option EdgePhase → List HoldKey
  | some (.cancelHolds _ rest) => rest
  | _ => s.holdKeys remKey

/-- The actions a tick of the repeat runner passes to `_do_action`. -/
def repeatable : Action → Bool
  | .noop => true
  | .ble _ _ => false
  | .speaker whenEdge _ _ => whenEdge.isStr "down"
  | .flow _ whenEdge _ => whenEdge.isStr "down"

def repeatTick (S : Setup) (s : State) (remKey : String) : State × Bool :=
  runActions S remKey .down s ((S.actions s.mode remKey).zipIdx.filter fun a => repeatable a.1)

/-- One step of a repeat or hold task, if it can take one. -/
def taskStep (S : Setup) (s : State) (t : Nat) : Option State :=
  match s.tasks[t]? with
  | none => none
  | some task =>
    match task.state, task.kind, task.cancelled with
    | .ended, _, _ => none
    | .failed, _, _ => none
    -- cancelled before its first step: its body is never entered
    | .created, _, true => some (s.setTask t .ended)
    | .sleeping _, .repeats _, true => some (s.setTask t .ended)
    | .sleeping _, .hold key _ _ _, true =>
      some ((s.setTask t .ended).popHold key)
    | .created, .repeats _, false => some (s.setTask t (.sleeping (s.now + repeatInitialMs)))
    | .created, .hold _ minHoldMs _ _, false =>
      some (s.setTask t (.sleeping (s.now + minHoldMs.toNat)))
    | .sleeping due, .repeats remKey, false =>
      if due ≤ s.now then
        let ran := repeatTick S s remKey
        some (ran.1.setTask t (if ran.2 then .sleeping (s.now + repeatRateMs) else .failed))
      else none
    | .sleeping due, .hold key _ name trigger, false =>
      if due ≤ s.now then
        let s := if (s.pressedAt.lookup key.1).isSome then s.spawnFlow name trigger else s
        some ((s.setTask t .ended).popHold key)
      else none

/-- Where `on_usb_disconnect` awaits a task it has cancelled, with those still to await. -/
inductive DisconnectPhase where
  | repeats (task : Nat) (rest : List Nat)
  | holds (task : Nat) (rest : List Nat)
  deriving DecidableEq

def DisconnectPhase.task : DisconnectPhase → Nat
  | .repeats t _ => t
  | .holds t _ => t

/-- `for t in tasks: await t`, up to one it has to wait for. -/
def State.awaitAll (s : State) : List Nat → Progress (Nat × List Nat)
  | [] => .returns
  | t :: rest =>
    if s.Live t then .waits (t, rest)
    else if s.taskState t = .failed then .raises
    else s.awaitAll rest

def State.cancelAll (s : State) (ts : List Nat) : State := ts.foldl State.cancel s

/-- `on_usb_disconnect` from the hold tasks that are left to await. -/
def awaitHolds (s : State) (ts : List Nat) : State × Progress DisconnectPhase :=
  match s.awaitAll ts with
  | .waits (t, rest) => (s, .waits (.holds t rest))
  | .raises => (s, .raises)
  | .returns => ({ s with pressedAt := ∅ }.releaseAll, .returns)

/-- `on_usb_disconnect` from the repeat tasks that are left to await. -/
def awaitRepeats (s : State) (ts : List Nat) : State × Progress DisconnectPhase :=
  match s.awaitAll ts with
  | .waits (t, rest) => (s, .waits (.repeats t rest))
  | .raises => (s, .raises)
  | .returns =>
    awaitHolds ({ s with holdTasks := ∅ }.cancelAll (values s.holdTasks)) (values s.holdTasks)

def onUsbDisconnect (s : State) : State × Progress DisconnectPhase :=
  awaitRepeats ({ s with repeatTasks := ∅ }.cancelAll (values s.repeatTasks)) (values s.repeatTasks)

def resumeDisconnect (s : State) : DisconnectPhase → State × Progress DisconnectPhase
  | .repeats t rest => awaitRepeats s (t :: rest)
  | .holds t rest => awaitHolds s (t :: rest)

/-- The hold that an action starts on a key-down. -/
def Setup.holdMs (S : Setup) : Action → Option Int
  | .flow name whenEdge minHoldMs =>
    if !S.runFlow || name = "" || !whenEdge.isStr "down" then none
    else
      match parseMs minHoldMs 0 0 5000 with
      | .ok minHold => if 0 < minHold then some minHold else none
      | .error _ => none
  | _ => none

/-- `_do_action` raises: an infinite `min_hold_ms`. -/
def Setup.overflows (S : Setup) (edge : Edge) : Action → Bool
  | .flow name whenEdge minHoldMs =>
    S.runFlow && name ≠ "" && whenEdge.isStr edge.name &&
      match parseMs minHoldMs 0 0 5000 with
      | .ok _ => false
      | .error _ => true
  | _ => false

def Setup.frame (S : Setup) (mode : Option String) (edge : Edge) : Action → Option Frame
  | .ble usage code => S.bleFrame mode edge usage code
  | _ => none

/-- The frames that running the actions hands over, the first first. -/
def Setup.edgeFrames (S : Setup) (mode : Option String) (edge : Edge) (actions : List Action) :
    List Frame :=
  (actions.takeWhile fun a => !S.overflows edge a).filterMap (S.frame mode edge)

theorem handleFlowAction_cases {S : Setup} {s s' : State} {name : String}
    {whenEdge minHoldMs : Json} {edge : Edge} {remKey : String} {idx : Nat}
    (h : handleFlowAction S s name whenEdge minHoldMs edge remKey idx = .ok s') :
    s' = s ∨ s' = s.spawnFlow name (flowTrigger remKey) ∨
      ∃ minHold, edge = .down ∧ S.holdMs (.flow name whenEdge minHoldMs) = some minHold ∧
        s' = s.scheduleHoldAction (remKey, idx) minHold name := by
  unfold handleFlowAction at h
  split at h
  case isTrue => exact Or.inl (Except.ok.inj h).symm
  case isFalse hrun =>
    cases hparse : parseMs minHoldMs 0 0 5000 with
    | error e => simp [hparse] at h
    | ok minHold =>
      simp only [hparse] at h
      split at h
      · split at h
        · split at h
          · exact Or.inl (Except.ok.inj h).symm
          · split at h
            · exact Or.inl (Except.ok.inj h).symm
            · exact Or.inr (Or.inl (Except.ok.inj h).symm)
        · exact Or.inr (Or.inl (Except.ok.inj h).symm)
      · split at h
        case isTrue hdown =>
          obtain ⟨hwhen, hedge⟩ : whenEdge.isStr "down" = true ∧ edge = .down := by
            simpa using hdown
          split at h
          case isTrue hpos =>
            refine Or.inr (Or.inr ⟨minHold, hedge, ?_, (Except.ok.inj h).symm⟩)
            rw [Setup.holdMs, if_neg (by simpa [hwhen] using hrun), hparse]
            exact if_pos hpos
          case isFalse => exact Or.inr (Or.inl (Except.ok.inj h).symm)
        case isFalse => exact Or.inl (Except.ok.inj h).symm

/-- Everything an action can do. -/
theorem doAction_cases {S : Setup} {s s' : State} {a : Action} {edge : Edge} {remKey : String}
    {idx : Nat} (h : doAction S s a edge remKey idx = .ok s') :
    s' = s.hand remKey (S.frame s.mode edge a) ∨
      S.frame s.mode edge a = none ∧
        ((∃ job, s' = s.submit job) ∨ (∃ name, s' = s.spawnFlow name (flowTrigger remKey)) ∨
          ∃ minHold name, edge = .down ∧ S.holdMs a = some minHold ∧
            s' = s.scheduleHoldAction (remKey, idx) minHold name) := by
  cases a with
  | noop => exact Or.inl (Except.ok.inj h).symm
  | ble usage code => exact Or.inl (Except.ok.inj h).symm
  | speaker whenEdge action kwargs =>
    simp only [doAction] at h
    split at h
    · exact Or.inr ⟨rfl, Or.inl ⟨_, (Except.ok.inj h).symm⟩⟩
    · exact Or.inl (Except.ok.inj h).symm
  | flow name whenEdge minHoldMs =>
    simp only [doAction] at h
    split at h
    case isFalse => exact Or.inl (Except.ok.inj h).symm
    case isTrue =>
      cases handleFlowAction_cases h with
      | inl hsame => exact Or.inl hsame
      | inr hrest =>
        refine Or.inr ⟨rfl, Or.inr ?_⟩
        cases hrest with
        | inl hspawn => exact Or.inl ⟨name, hspawn⟩
        | inr hhold =>
          obtain ⟨minHold, hedge, hms, hs'⟩ := hhold
          exact Or.inr ⟨minHold, name, hedge, hms, hs'⟩

theorem doAction_error {S : Setup} {s : State} {a : Action} {edge : Edge} {remKey : String}
    {idx : Nat} : (∃ e, doAction S s a edge remKey idx = .error e) ↔ S.overflows edge a = true := by
  cases a with
  | noop => simp [doAction, Setup.overflows]
  | ble usage code => simp [doAction, Setup.overflows]
  | speaker whenEdge action kwargs =>
    simp only [doAction, Setup.overflows]
    split
    · simp
    · simp
  | flow name whenEdge minHoldMs =>
    simp only [doAction, Setup.overflows, handleFlowAction]
    cases hwhen : whenEdge.isStr edge.name with
    | false => simp
    | true =>
      cases hrun : S.runFlow with
      | false => simp
      | true =>
        by_cases hname : name = ""
        · simp [hname]
        · cases hparse : parseMs minHoldMs 0 0 5000 with
          | error e => simp [hname]
          | ok minHold =>
            simp [hname]
            repeat' split
            all_goals simp

theorem doAction_ok {S : Setup} {s s' : State} {a : Action} {edge : Edge} {remKey : String}
    {idx : Nat} (h : doAction S s a edge remKey idx = .ok s') : S.overflows edge a = false := by
  cases hover : S.overflows edge a with
  | false => rfl
  | true =>
    obtain ⟨e, he⟩ := doAction_error.mpr hover
    exact absurd (h.symm.trans he) (by simp)

/-- What running actions and cancelling hold tasks leave alone. -/
structure Acted (s s' : State) : Prop where
  mode : s'.mode = s.mode
  repeatTasks : s'.repeatTasks = s.repeatTasks
  pressedAt : s'.pressedAt = s.pressedAt
  now : s'.now = s.now

theorem Acted.trans {s t u : State} (h : Acted s t) (h' : Acted t u) : Acted s u :=
  ⟨h'.mode.trans h.mode, h'.repeatTasks.trans h.repeatTasks, h'.pressedAt.trans h.pressedAt,
    h'.now.trans h.now⟩

theorem hand_acted (s : State) (remKey : String) (f : Option Frame) :
    Acted s (s.hand remKey f) := by
  cases f with
  | none => exact ⟨rfl, rfl, rfl, rfl⟩
  | some f => exact ⟨rfl, rfl, rfl, rfl⟩

theorem hand_sent (s : State) (remKey : String) (f : Option Frame) :
    (s.hand remKey f).sent = (f.toList.map fun f => (f, some remKey)) ++ s.sent := by
  cases f with
  | none => rfl
  | some f => rfl

theorem scheduleHoldAction_acted (s : State) (key : HoldKey) (minHoldMs : Int) (name : String) :
    Acted s (s.scheduleHoldAction key minHoldMs name) := by
  unfold State.scheduleHoldAction
  split
  · exact ⟨rfl, rfl, rfl, rfl⟩
  · exact ⟨rfl, rfl, rfl, rfl⟩

theorem scheduleHoldAction_sent (s : State) (key : HoldKey) (minHoldMs : Int) (name : String) :
    (s.scheduleHoldAction key minHoldMs name).sent = s.sent := by
  unfold State.scheduleHoldAction
  split
  · rfl
  · rfl

theorem doAction_acted {S : Setup} {s s' : State} {a : Action} {edge : Edge} {remKey : String}
    {idx : Nat} (h : doAction S s a edge remKey idx = .ok s') :
    Acted s s' ∧ s'.sent =
      ((S.frame s.mode edge a).toList.map fun f => (f, some remKey)) ++ s.sent := by
  cases doAction_cases h with
  | inl hhand =>
    subst hhand
    exact ⟨hand_acted .., hand_sent ..⟩
  | inr hrest =>
    obtain ⟨hframe, hrest⟩ := hrest
    rw [hframe]
    cases hrest with
    | inl hsubmit =>
      obtain ⟨job, rfl⟩ := hsubmit
      exact ⟨⟨rfl, rfl, rfl, rfl⟩, rfl⟩
    | inr hrest =>
      cases hrest with
      | inl hspawn =>
        obtain ⟨name, rfl⟩ := hspawn
        exact ⟨⟨rfl, rfl, rfl, rfl⟩, rfl⟩
      | inr hhold =>
        obtain ⟨minHold, name, _, _, rfl⟩ := hhold
        exact ⟨scheduleHoldAction_acted .., scheduleHoldAction_sent ..⟩

/-- The first action raises and ends the loop, or is done and the loop goes on. -/
theorem runActions_cons (S : Setup) (remKey : String) (edge : Edge) (s : State) (a : Action) (idx : Nat)
    (as : List (Action × Nat)) :
    (S.overflows edge a = true ∧ runActions S remKey edge s ((a, idx) :: as) = (s, false)) ∨
      ∃ t, S.overflows edge a = false ∧ doAction S s a edge remKey idx = .ok t ∧
        runActions S remKey edge s ((a, idx) :: as) = runActions S remKey edge t as := by
  rw [runActions]
  cases hdo : doAction S s a edge remKey idx with
  | error e => exact .inl ⟨doAction_error.mp ⟨e, hdo⟩, rfl⟩
  | ok t => exact .inr ⟨t, doAction_ok hdo, rfl, rfl⟩

/-- What the actions that can be taken preserve, running them preserves. -/
theorem runActions_induct {S : Setup} {remKey : String} {edge : Edge} {P : State → Prop} {s : State}
    {as : List (Action × Nat)}
    (hstep : ∀ s s' a idx, (a, idx) ∈ as → doAction S s a edge remKey idx = .ok s' → P s → P s')
    (h : P s) : P (runActions S remKey edge s as).1 := by
  induction as generalizing s with
  | nil => exact h
  | cons head as ih =>
    obtain ⟨a, idx⟩ := head
    obtain ⟨-, hrun⟩ | ⟨t, -, hdo, hrun⟩ := runActions_cons S remKey edge s a idx as
    · rw [hrun]
      exact h
    · rw [hrun]
      apply ih
      · intro s s' b jdx hmem
        exact hstep s s' b jdx (List.mem_cons_of_mem _ hmem)
      · exact hstep s t a idx List.mem_cons_self hdo h

theorem runActions_acted (S : Setup) (remKey : String) (edge : Edge) (s : State)
    (as : List (Action × Nat)) : Acted s (runActions S remKey edge s as).1 := by
  apply runActions_induct
  · intro t t' a idx _ hdo h
    exact h.trans (doAction_acted hdo).1
  · exact ⟨rfl, rfl, rfl, rfl⟩

theorem runActions_sent (S : Setup) (remKey : String) (edge : Edge) (s : State)
    (as : List (Action × Nat)) : (runActions S remKey edge s as).1.sent =
      ((S.edgeFrames s.mode edge (as.map Prod.fst)).map fun f => (f, some remKey)).reverse ++
        s.sent := by
  induction as generalizing s with
  | nil => rfl
  | cons head as ih =>
    obtain ⟨a, idx⟩ := head
    obtain ⟨hover, hrun⟩ | ⟨t, hover, hdo, hrun⟩ := runActions_cons S remKey edge s a idx as
    · rw [hrun]
      simp [Setup.edgeFrames, hover]
    · obtain ⟨hacted, hsent⟩ := doAction_acted hdo
      have hframes : S.edgeFrames s.mode edge (a :: as.map Prod.fst) =
          (S.frame s.mode edge a).toList ++ S.edgeFrames s.mode edge (as.map Prod.fst) := by
        cases hframe : S.frame s.mode edge a <;>
          simp [Setup.edgeFrames, hover, hframe]
      rw [hrun, ih, hacted.mode, hsent, List.map_cons, hframes]
      cases S.frame s.mode edge a <;> simp

theorem runActions_completes (S : Setup) (remKey : String) (edge : Edge) (s : State)
    (as : List (Action × Nat)) :
    (runActions S remKey edge s as).2 = (as.all fun a => !S.overflows edge a.1) := by
  induction as generalizing s with
  | nil => rfl
  | cons head as ih =>
    obtain ⟨a, idx⟩ := head
    obtain ⟨hover, hrun⟩ | ⟨t, hover, -, hrun⟩ := runActions_cons S remKey edge s a idx as
    · simp [hrun, hover]
    · simpa [hrun, hover] using ih t

/-- `_cancel_hold_tasks` has a task to wait for among the keys. -/
def State.Blocked (s : State) (keys : List HoldKey) : Prop :=
  ∃ key ∈ keys, ∃ t ∈ s.holdTasks.lookup key, s.Live t

instance (s : State) (keys : List HoldKey) : Decidable (s.Blocked keys) :=
  inferInstanceAs (Decidable (∃ key ∈ keys, _))

@[simp] theorem taskState_cancel (s : State) (t t' : Nat) :
    (s.cancel t).taskState t' = s.taskState t' := by
  simp only [State.taskState, State.cancel, List.getElem?_modify]
  cases s.tasks[t']? with
  | none => simp
  | some task => by_cases ht : t = t' <;> simp [ht]

@[simp] theorem taskState_popHold (s : State) (key : HoldKey) (t : Nat) :
    (s.popHold key).taskState t = s.taskState t := rfl

theorem popHold_cancel_acted (s : State) (key : HoldKey) (t : Nat) :
    Acted s ((s.popHold key).cancel t) := ⟨rfl, rfl, rfl, rfl⟩

theorem cancelHoldTasks_acted (s : State) (keys : List HoldKey) :
    Acted s (s.cancelHoldTasks keys).1 := by
  induction keys generalizing s with
  | nil => exact ⟨rfl, rfl, rfl, rfl⟩
  | cons key keys ih =>
    rw [State.cancelHoldTasks]
    split
    · exact ih s
    · dsimp only
      split
      · exact popHold_cancel_acted s key _
      · exact (popHold_cancel_acted s key _).trans (ih _)

theorem cancelHoldTasks_sent (s : State) (keys : List HoldKey) :
    (s.cancelHoldTasks keys).1.sent = s.sent := by
  induction keys generalizing s with
  | nil => rfl
  | cons key keys ih =>
    rw [State.cancelHoldTasks]
    split
    · exact ih s
    · dsimp only
      split
      · rfl
      · exact ih _

theorem not_blocked_of_cancelled {s : State} {keys : List HoldKey}
    (h : (s.cancelHoldTasks keys).2 = none) : ¬ s.Blocked keys := by
  induction keys generalizing s with
  | nil => simp [State.Blocked]
  | cons key keys ih =>
    rw [State.cancelHoldTasks] at h
    cases hkey : s.holdTasks.lookup key with
    | none =>
      have hrest := ih (by simpa [hkey] using h)
      simpa [State.Blocked, hkey] using hrest
    | some t =>
      simp only [hkey] at h
      split at h
      case isTrue => simp at h
      case isFalse hdone =>
        have hrest := ih h
        intro hblocked
        obtain ⟨key', hmem, t', hlookup, hlive⟩ := hblocked
        by_cases hsame : key' = key
        · subst hsame
          obtain rfl : t = t' := Option.some.inj (hkey.symm.trans hlookup)
          exact hdone (by simpa [State.Live] using hlive)
        · have hmem' : key' ∈ keys := by simpa [hsame] using hmem
          refine hrest ⟨key', hmem', t', ?_, by simpa [State.Live] using hlive⟩
          exact (AList.lookup_erase_ne hsame).trans hlookup

theorem startRepeat_sent (s : State) (remKey : String) : (s.startRepeat remKey).sent = s.sent := by
  unfold State.startRepeat
  split
  · rfl
  · rfl

theorem runEdge_sent (S : Setup) (s : State) (remKey : String) (edge : Edge) :
    (runEdge S s remKey edge).1.sent =
      ((S.edgeFrames s.mode edge (S.actions s.mode remKey)).map fun f =>
        (f, some remKey)).reverse ++ s.sent := by
  have hsent := runActions_sent S remKey edge s (S.actions s.mode remKey).zipIdx
  rw [List.zipIdx_map_fst] at hsent
  rw [← hsent]
  unfold runEdge
  dsimp only
  split
  · cases edge with
    | up => rfl
    | down =>
      dsimp only
      split
      · exact startRepeat_sent ..
      · rfl
  · rfl

@[simp] theorem live_popHold (s : State) (key : HoldKey) (t t' : Nat) :
    ((s.popHold key).cancel t).Live t' ↔ s.Live t' := by
  simp [State.Live]

@[simp] theorem live_popRepeat (s : State) (remKey : String) (t t' : Nat) :
    ((s.popRepeat remKey).cancel t).Live t' ↔ s.Live t' := by
  rw [State.Live, taskState_cancel]
  rfl

theorem onUsbEdge_up_none (S : Setup) {s : State} {remKey : String}
    (h : s.repeatTasks.lookup remKey = none) :
    onUsbEdge S s remKey .up = cancelThenRun S s remKey .up (s.holdKeys remKey) := by
  simp [onUsbEdge, h]

theorem onUsbEdge_up_repeat (S : Setup) {s : State} {remKey : String} {t : Nat}
    (h : s.repeatTasks.lookup remKey = some t) : onUsbEdge S s remKey .up =
      if s.Live t then ((s.popRepeat remKey).cancel t, .waits (.stopRepeat t))
      else if s.taskState t = .failed then ((s.popRepeat remKey).cancel t, .raises)
      else cancelThenRun S ((s.popRepeat remKey).cancel t) remKey .up (s.holdKeys remKey) := by
  simp only [onUsbEdge, h, live_popRepeat, taskState_cancel]
  rfl

/-- The last frame of the usage that was handed over. -/
def lastFrame (u : Usage) (sent : List (Frame × Option String)) : Option (Frame × Option String) :=
  sent.find? fun e => e.1.usage = u

/-- The last frame of the usage is not the zero report, and it was handed over for `who`. -/
def HeldFor (sent : List (Frame × Option String)) (who : Option String) (u : Usage) : Prop :=
  match lastFrame u sent with
  | none => False
  | some e => e.2 = who ∧ e.1 ≠ zeroFrame u

instance (sent : List (Frame × Option String)) (who : Option String) (u : Usage) :
    Decidable (HeldFor sent who u) := by
  unfold HeldFor
  split <;> infer_instance

/-- The last frame of the usage, if any, is the zero report. -/
def Clean (sent : List (Frame × Option String)) (u : Usage) : Prop :=
  ∀ e, lastFrame u sent = some e → e.1 = zeroFrame u

theorem clean_of_not_heldFor {sent : List (Frame × Option String)} {u : Usage}
    (h : ∀ who, ¬ HeldFor sent who u) : Clean sent u := by
  intro e he
  by_contra hne
  exact h e.2 (by simpa [HeldFor, he] using hne)

theorem lastFrame_append {fs sent : List (Frame × Option String)} {u : Usage}
    (h : lastFrame u sent ≠ none) : lastFrame u (fs ++ sent) ≠ none := by
  rw [lastFrame, List.find?_append]
  intro hnone
  exact h (Option.or_eq_none_iff.mp hnone).2

theorem edgeFrames_repeatable (S : Setup) (mode : Option String) (actions : List (Action × Nat)) :
    S.edgeFrames mode .down ((actions.filter fun a => repeatable a.1).map Prod.fst) = [] := by
  rw [Setup.edgeFrames, List.filterMap_eq_nil_iff]
  intro a ha
  obtain ⟨b, hb, rfl⟩ := List.mem_map.mp ((List.takeWhile_sublist _).mem ha)
  cases hact : b.1 with
  | ble usage code => simp [hact, repeatable] at hb
  | noop => rfl
  | speaker whenEdge action kwargs => rfl
  | flow name whenEdge minHoldMs => rfl

/-- Everything a step of a task can do. -/
inductive TaskMove (S : Setup) (s : State) (t : Nat) (task : Task) : State → Prop
  | stops : task.cancelled = true → TaskMove S s t task (s.setTask t .ended)
  | unwinds (key : HoldKey) (minHoldMs : Int) (flow trigger : String) : task.cancelled = true →
      task.kind = .hold key minHoldMs flow trigger →
      TaskMove S s t task ((s.setTask t .ended).popHold key)
  | sleeps (due : Nat) : task.cancelled = false → TaskMove S s t task (s.setTask t (.sleeping due))
  | ticks (remKey : String) (due due' : Nat) : task = ⟨.repeats remKey, .sleeping due, false⟩ →
      TaskMove S s t task ((repeatTick S s remKey).1.setTask t
        (if (repeatTick S s remKey).2 then .sleeping due' else .failed))
  | fires (key : HoldKey) (minHoldMs : Int) (flow trigger : String)
      (flows : List (String × String)) : task.cancelled = false →
      task.kind = .hold key minHoldMs flow trigger →
      TaskMove S s t task (({ s with flows := flows }.setTask t .ended).popHold key)

theorem taskStep_move {S : Setup} {s s' : State} {t : Nat} (h : taskStep S s t = some s') :
    ∃ task, s.tasks[t]? = some task ∧ ¬ task.Done ∧ TaskMove S s t task s' := by
  cases htask : s.tasks[t]? with
  | none => simp [taskStep, htask] at h
  | some task =>
    obtain ⟨kind, state, cancelled⟩ := task
    refine ⟨_, rfl, ?_⟩
    cases state with
    | ended => simp [taskStep, htask] at h
    | failed => simp [taskStep, htask] at h
    | created =>
      refine ⟨by simp [Task.Done], ?_⟩
      cases cancelled with
      | true =>
        simp only [taskStep, htask, Option.some.injEq] at h
        exact h ▸ .stops rfl
      | false =>
        cases kind with
        | repeats remKey =>
          simp only [taskStep, htask, Option.some.injEq] at h
          exact h ▸ .sleeps _ rfl
        | hold key minHoldMs flow trigger =>
          simp only [taskStep, htask, Option.some.injEq] at h
          exact h ▸ .sleeps _ rfl
    | sleeping due =>
      refine ⟨by simp [Task.Done], ?_⟩
      cases cancelled with
      | true =>
        cases kind with
        | repeats remKey =>
          simp only [taskStep, htask, Option.some.injEq] at h
          exact h ▸ .stops rfl
        | hold key minHoldMs flow trigger =>
          simp only [taskStep, htask, Option.some.injEq] at h
          exact h ▸ .unwinds key minHoldMs flow trigger rfl rfl
      | false =>
        cases kind with
        | repeats remKey =>
          simp only [taskStep, htask] at h
          split at h
          case isFalse => simp at h
          case isTrue =>
            obtain rfl := Option.some.inj h
            exact .ticks remKey due _ rfl
        | hold key minHoldMs flow trigger =>
          simp only [taskStep, htask] at h
          split at h
          case isFalse => simp at h
          case isTrue =>
            obtain rfl := Option.some.inj h
            split
            · exact .fires key minHoldMs flow trigger _ rfl rfl
            · exact .fires key minHoldMs flow trigger s.flows rfl rfl

/-- Repeat and hold tasks hand over no frame. -/
theorem taskStep_sent {S : Setup} {s s' : State} {t : Nat} (h : taskStep S s t = some s') :
    s'.sent = s.sent := by
  obtain ⟨task, _, _, hmove⟩ := taskStep_move h
  have hticks (remKey : String) := runActions_sent S remKey .down s
    ((S.actions s.mode remKey).zipIdx.filter fun a => repeatable a.1)
  simp only [edgeFrames_repeatable] at hticks
  cases hmove with
  | stops => rfl
  | unwinds => rfl
  | sleeps => rfl
  | ticks remKey => exact hticks remKey
  | fires => rfl

/-- After frames handed over for a key, a usage is held for that key, or as before if no
frame was of the usage. -/
theorem heldFor_append {fs : List Frame} {remKey : String} {sent : List (Frame × Option String)}
    {who : Option String} {u : Usage}
    (h : HeldFor ((fs.map fun f => (f, some remKey)).reverse ++ sent) who u) :
    (who = some remKey ∧ ∃ f ∈ fs, f.usage = u ∧ f ≠ zeroFrame u) ∨
      HeldFor sent who u ∧ ∀ f ∈ fs, f.usage ≠ u := by
  rw [HeldFor, lastFrame, List.find?_append] at h
  cases hnew : (fs.map fun f => (f, some remKey)).reverse.find? fun e => e.1.usage = u with
  | none =>
    refine Or.inr ⟨by simpa [HeldFor, lastFrame, hnew] using h, ?_⟩
    intro f hf
    have hnone := List.find?_eq_none.mp hnew (f, some remKey)
      (List.mem_reverse.mpr (List.mem_map_of_mem hf))
    simpa using hnone
  | some e =>
    obtain ⟨f, hf, rfl⟩ := List.mem_map.mp (List.mem_reverse.mp (List.mem_of_find?_eq_some hnew))
    have husage : f.usage = u := by simpa using List.find?_some hnew
    obtain ⟨hwho, hne⟩ : some remKey = who ∧ f ≠ zeroFrame u := by simpa [hnew] using h
    exact Or.inl ⟨hwho.symm, f, hf, husage, hne⟩

theorem bleFrame_up_zero {S : Setup} {mode : Option String} {usage code : String} {f : Frame}
    (h : S.bleFrame mode .up usage code = some f) : f = zeroFrame (usageOf usage) := by
  unfold Setup.bleFrame at h
  cases hframes : S.activeBleFrames mode with
  | none => exact keyUp_zero (by simpa [hframes] using h)
  | some frames => exact compiledKeyUp_zero (by simpa [hframes] using h)

/-- An up edge hands over nothing but zero reports. -/
theorem edgeFrames_up_zero {S : Setup} {mode : Option String} {actions : List Action} {f : Frame}
    (h : f ∈ S.edgeFrames mode .up actions) : f = zeroFrame f.usage := by
  obtain ⟨a, _, hframe⟩ := List.mem_filterMap.mp h
  cases a with
  | ble usage code =>
    have hzero : f = zeroFrame (usageOf usage) := bleFrame_up_zero hframe
    rw [hzero]
    rfl
  | noop => simp [Setup.frame] at hframe
  | speaker whenEdge action kwargs => simp [Setup.frame] at hframe
  | flow name whenEdge minHoldMs => simp [Setup.frame] at hframe

theorem heldFor_up {S : Setup} {mode : Option String} {actions : List Action} {remKey : String}
    {sent : List (Frame × Option String)} {who : Option String} {u : Usage}
    (h : HeldFor (((S.edgeFrames mode .up actions).map fun f => (f, some remKey)).reverse ++ sent)
      who u) : HeldFor sent who u ∧ ∀ f ∈ S.edgeFrames mode .up actions, f.usage ≠ u := by
  cases heldFor_append h with
  | inr hold => exact hold
  | inl hnew =>
    obtain ⟨_, f, hf, rfl, hne⟩ := hnew
    exact absurd (edgeFrames_up_zero hf) hne

/-- In one mode, an up edge hands over a report for each that the down edge does, unless an
action overflows. -/
theorem edgeFrames_up_of_down {S : Setup} {mode : Option String} {actions : List Action} {f : Frame}
    (h : f ∈ S.edgeFrames mode .down actions) (hover : ∀ a ∈ actions, S.overflows .up a = false) :
    zeroFrame f.usage ∈ S.edgeFrames mode .up actions := by
  obtain ⟨a, hmem, hframe⟩ := List.mem_filterMap.mp h
  have hall : (actions.takeWhile fun a => !S.overflows .up a) = actions := by
    rw [List.takeWhile_eq_self_iff]
    intro b hb
    simp [hover b hb]
  refine List.mem_filterMap.mpr ⟨a, by rw [hall]; exact (List.takeWhile_sublist _).mem hmem, ?_⟩
  cases a with
  | ble usage code =>
    unfold Setup.frame Setup.bleFrame at hframe ⊢
    cases hframes : S.activeBleFrames mode with
    | none => exact keyUp_of_down (by simpa [hframes] using hframe)
    | some frames => exact compiledKeyUp_of_down (by simpa [hframes] using hframe)
  | noop => simp [Setup.frame] at hframe
  | speaker whenEdge action kwargs => simp [Setup.frame] at hframe
  | flow name whenEdge minHoldMs => simp [Setup.frame] at hframe

end PiHub.Dispatcher

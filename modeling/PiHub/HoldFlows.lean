import PiHub.EdgeTables
import PiHub.Transition

/-! Flows on a long press (`min_hold_ms`, dispatcher.py), under edges from the remote's worker and
from HTTP taps (`_handle_remote_tap`, http_server.py). -/
namespace PiHub.HoldFlows
open PiHub.Transition PiHub.Keymap PiHub.LiveTable PiHub.Dispatcher

/-- Who calls `on_usb_edge`: the remote's worker, or a tap that holds its key for so long. -/
inductive Source where
  | usb
  | tap (holdMs : Nat)
  deriving DecidableEq

/-- In a call for an edge that arrived then, in a tap's sleep, or past it. -/
inductive Stage where
  | calling (edge : Edge) (phase : EdgePhase) (arrived : Nat)
  | holding (due : Nat)
  | over
  deriving DecidableEq

structure Caller where
  source : Source
  remKey : String
  stage : Stage
  deriving DecidableEq

/-- `processed`: the call for an edge has ended. `started`: a hold task has started its flow. -/
inductive Entry where
  | processed (remKey : String) (edge : Edge) (arrived : Nat)
  | started (key : HoldKey) (minHoldMs : Int) (now : Nat)
  deriving DecidableEq

/-- The dispatcher, all callers so far, and the log, newest first. -/
structure System where
  dispatcher : State := {}
  callers : List Caller := []
  log : List Entry := []

/-- `cancels`: a tap is cancelled in its sleep. In a call the cancellation only reaches the task that
the call awaits, which has been cancelled before. -/
inductive Event where
  | usb (remKey : String) (edge : Edge)
  | tap (remKey : String) (holdMs : Int)
  | resumes (i : Nat)
  | releases (i : Nat)
  | cancels (i : Nat)
  | task (t : Nat)
  | setModeBindings (mode : Option String)
  | speakerTakes
  | tick (ms : Nat)

def afterCall (source : Source) (edge : Edge) (arrived now : Nat) : Progress EdgePhase → Stage
  | .waits phase => .calling edge phase arrived
  | .returns =>
    match source, edge with
    | .tap holdMs, .down => .holding (now + holdMs)
    | _, _ => .over
  | .raises => .over

def entries (remKey : String) (edge : Edge) (arrived : Nat) : Progress EdgePhase → List Entry
  | .waits _ => []
  | _ => [.processed remKey edge arrived]

/-- After a step of a call: the caller has moved on to where the step has left it. -/
def System.called (s : System) (source : Source) (remKey : String) (edge : Edge) (arrived : Nat)
    (place : Caller → List Caller) (r : State × Progress EdgePhase) : System :=
  { dispatcher := r.1
    callers := place ⟨source, remKey, afterCall source edge arrived s.dispatcher.now r.2⟩
    log := entries remKey edge arrived r.2 ++ s.log }

/-- `hold_ms` as the handler bounds it. -/
def tapHoldMs (holdMs : Int) : Nat := (max 20 (min holdMs 2000)).toNat

/-- What the step of a task adds to the log. -/
def fired (s s' : State) (t : Nat) : List Entry :=
  match s.tasks[t]? with
  | some ⟨.hold key minHoldMs _ _, _, _⟩ =>
    if s'.flows = s.flows then [] else [.started key minHoldMs s.now]
  | _ => []

def step (S : Setup) (s : System) : Event → Option System
  | .usb remKey edge =>
    -- the worker awaits one call after the other
    if ∀ c ∈ s.callers, c.source = .usb → c.stage = .over then
      some (s.called .usb remKey edge s.dispatcher.now (fun c => s.callers ++ [c])
        (edgeStep S s.dispatcher remKey edge none))
    else none
  | .tap remKey holdMs =>
    some (s.called (.tap (tapHoldMs holdMs)) remKey .down s.dispatcher.now
      (fun c => s.callers ++ [c]) (edgeStep S s.dispatcher remKey .down none))
  | .resumes i =>
    match s.callers[i]? with
    | some ⟨source, remKey, .calling edge phase arrived⟩ =>
      if s.dispatcher.Live phase.task then none
      else some (s.called source remKey edge arrived (fun c => s.callers.set i c)
        (edgeStep S s.dispatcher remKey edge (some phase)))
    | _ => none
  | .releases i =>
    match s.callers[i]? with
    | some ⟨source, remKey, .holding due⟩ =>
      if due ≤ s.dispatcher.now then
        some (s.called source remKey .up s.dispatcher.now (fun c => s.callers.set i c)
          (edgeStep S s.dispatcher remKey .up none))
      else none
    | _ => none
  | .cancels i =>
    -- the `finally` hands in the up edge before its time
    match s.callers[i]? with
    | some ⟨source, remKey, .holding _⟩ =>
      some (s.called source remKey .up s.dispatcher.now (fun c => s.callers.set i c)
        (edgeStep S s.dispatcher remKey .up none))
    | _ => none
  | .task t =>
    (taskStep S s.dispatcher t).map fun d =>
      { s with dispatcher := d, log := fired s.dispatcher d t ++ s.log }
  | .setModeBindings mode => some { s with dispatcher := s.dispatcher.setModeBindings mode }
  | .speakerTakes => some { s with dispatcher := s.dispatcher.speakerTakes }
  | .tick ms => some { s with dispatcher := { s.dispatcher with now := s.dispatcher.now + ms } }

/-! ### What a start must come after -/

/-- An edge of the action's key, or a start by the action itself. -/
def Entry.concerns (key : HoldKey) : Entry → Bool
  | .processed remKey _ _ => remKey = key.1
  | .started key' _ _ => key' = key

/-- It is the hold of the action at that place of the key's actions in some mode. -/
def OfAction (S : Setup) (key : HoldKey) (minHoldMs : Int) : Prop :=
  ∃ mode a, (a, key.2) ∈ (S.actions mode key.1).zipIdx ∧ S.holdMs a = some minHoldMs

/-- Every start comes after a down edge of its key that arrived at least the action's hold before;
since that edge none of the key was processed, and the action has not started its flow. -/
def StartsOnce (S : Setup) (log : List Entry) : Prop :=
  ∀ later key minHoldMs (now : Nat) earlier, log = later ++ .started key minHoldMs now :: earlier →
    OfAction S key minHoldMs ∧
      ∃ since, ∃ arrived : Nat, ∃ before, earlier = since ++ .processed key.1 .down arrived :: before ∧
        (∀ e ∈ since, e.concerns key = false) ∧ (arrived : Int) + minHoldMs ≤ now

/-- When the key's last edge arrived, if it is a down edge that the action has not used. -/
def pressedSince (key : HoldKey) : List Entry → Option Nat
  | [] => none
  | .processed remKey edge arrived :: log =>
    if remKey = key.1 then if edge = .down then some arrived else none else pressedSince key log
  | .started key' _ _ :: log => if key' = key then none else pressedSince key log

def Sound (S : Setup) : List Entry → Prop
  | [] => True
  | .processed _ _ _ :: log => Sound S log
  | .started key minHoldMs now :: log =>
    OfAction S key minHoldMs ∧
      (∃ arrived ∈ pressedSince key log, (arrived : Int) + minHoldMs ≤ now) ∧ Sound S log

theorem pressedSince_some {key : HoldKey} {log : List Entry} {arrived : Nat}
    (h : pressedSince key log = some arrived) : ∃ since before,
      log = since ++ .processed key.1 .down arrived :: before ∧ ∀ e ∈ since, e.concerns key = false := by
  induction log with
  | nil => cases h
  | cons e log ih =>
    have hskip (hconcerns : e.concerns key = false) (hrest : pressedSince key log = some arrived) :
        ∃ since before, e :: log = since ++ .processed key.1 .down arrived :: before ∧
          ∀ e ∈ since, e.concerns key = false := by
      obtain ⟨since, before, rfl, hsince⟩ := ih hrest
      exact ⟨e :: since, before, rfl, List.forall_mem_cons.mpr ⟨hconcerns, hsince⟩⟩
    cases e with
    | processed remKey edge a =>
      rw [pressedSince] at h
      split at h
      · next hkey =>
        obtain ⟨rfl, rfl⟩ : edge = .down ∧ a = arrived := by simpa using h
        exact ⟨[], log, by rw [hkey]; rfl, nofun⟩
      · next hkey => exact hskip (decide_eq_false hkey) h
    | started key' minHoldMs now =>
      rw [pressedSince] at h
      split at h
      · cases h
      · next hkey => exact hskip (decide_eq_false hkey) h

theorem startsOnce_of_sound {S : Setup} {log : List Entry} (h : Sound S log) : StartsOnce S log := by
  intro later key minHoldMs now earlier heq
  subst heq
  induction later with
  | nil =>
    obtain ⟨hof, ⟨arrived, hpressed, hlong⟩, -⟩ := h
    obtain ⟨since, before, hlog, hsince⟩ := pressedSince_some hpressed
    exact ⟨hof, since, arrived, before, hlog, hsince, hlong⟩
  | cons e later ih =>
    cases e with
    | processed remKey edge a => exact ih h
    | started key' minHoldMs' now' => exact ih h.2.2

/-! ### Edges in turn -/

def Stage.calls : Stage → Bool
  | .calling _ _ _ => true
  | _ => false

/-- A call for an edge of the key waits. -/
def System.Calling (s : System) (remKey : String) : Prop :=
  ∃ c ∈ s.callers, c.remKey = remKey ∧ c.stage.calls = true

instance (s : System) (remKey : String) : Decidable (s.Calling remKey) :=
  inferInstanceAs (Decidable (∃ c ∈ s.callers, _))

/-- If the task is a repeat task about to tick, no action of its tick overflows or starts a hold. -/
def TickQuiet (S : Setup) (s : State) (t : Nat) : Prop :=
  match s.tasks[t]? with
  | some ⟨.repeats remKey, .sleeping _, false⟩ =>
    ∀ p ∈ (S.actions s.mode remKey).zipIdx, repeatable p.1 = true →
      S.overflows .down p.1 = false ∧
        ((S.holdMs p.1).isSome = true → (remKey, p.2) ∈ s.holdTasks)
  | _ => True

instance (S : Setup) (s : State) (t : Nat) : Decidable (TickQuiet S s t) := by
  unfold TickQuiet
  rcases s.tasks[t]? with _ | ⟨kind, state, cancelled⟩
  · infer_instance
  · cases kind <;> cases state <;> cases cancelled <;> infer_instance

/-- No edge is handed in while a call for the same key waits, and no repeat starts a hold. -/
def InTurn (S : Setup) (s : System) : Event → Prop
  | .usb remKey _ => ¬ s.Calling remKey
  | .tap remKey _ => ¬ s.Calling remKey
  | .releases i => ∀ c ∈ s.callers[i]?, ¬ s.Calling c.remKey
  | .cancels i => ∀ c ∈ s.callers[i]?, ¬ s.Calling c.remKey
  | .task t => TickQuiet S s.dispatcher t
  | _ => True

instance (S : Setup) (s : System) : ∀ e : Event, Decidable (InTurn S s e)
  | .usb remKey _ => inferInstanceAs (Decidable (¬ s.Calling remKey))
  | .tap remKey _ => inferInstanceAs (Decidable (¬ s.Calling remKey))
  | .resumes _ => .isTrue trivial
  | .releases i => inferInstanceAs (Decidable (∀ c ∈ s.callers[i]?, ¬ s.Calling c.remKey))
  | .cancels i => inferInstanceAs (Decidable (∀ c ∈ s.callers[i]?, ¬ s.Calling c.remKey))
  | .task t => inferInstanceAs (Decidable (TickQuiet S s.dispatcher t))
  | .setModeBindings _ => .isTrue trivial
  | .speakerTakes => .isTrue trivial
  | .tick _ => .isTrue trivial

/-! ### Steps of a call -/

/-- Everything a step of a call can do. -/
inductive EdgeMove (S : Setup) (s : State) (remKey : String) (edge : Edge)
    (phase : Option EdgePhase) : State × Progress EdgePhase → Prop
  | stopsRepeat (t : Nat) : s.repeatTasks.lookup remKey = some t →
      EdgeMove S s remKey edge phase ((s.popRepeat remKey).cancel t, .waits (.stopRepeat t))
  | cancelsHold (pressedAt : Dict String Nat) (key : HoldKey) (t : Nat) (before rest : List HoldKey) :
      s.keysLeft remKey phase = before ++ key :: rest → (∀ k ∈ before, k ∉ s.holdTasks) →
      s.holdTasks.lookup key = some t → EdgeMove S s remKey edge phase
        (({ s with pressedAt := pressedAt }.popHold key).cancel t, .waits (.cancelHolds t rest))
  | runs (pressedAt : Dict String Nat) : (∀ key ∈ s.keysLeft remKey phase, key ∉ s.holdTasks) →
      EdgeMove S s remKey edge phase (runEdge S { s with pressedAt := pressedAt } remKey edge)

theorem cancelThenRun_move {S : Setup} {s : State} (h : Tracked s) (pressedAt : Dict String Nat)
    (remKey : String) (edge : Edge) (phase : Option EdgePhase) : EdgeMove S s remKey edge phase
      (cancelThenRun S { s with pressedAt := pressedAt } remKey edge (s.keysLeft remKey phase)) := by
  have htracked : Tracked { s with pressedAt := pressedAt } := h.congr rfl rfl rfl
  obtain ⟨hcancel, hnone⟩ | ⟨key, t, rest, before, hkeys, hbefore, hlookup, hcancel⟩ :=
    cancelHoldTasks_cases htracked (s.keysLeft remKey phase)
  · rw [cancelThenRun, hcancel]
    exact .runs pressedAt hnone
  · rw [cancelThenRun, hcancel]
    exact .cancelsHold pressedAt key t before rest hkeys hbefore hlookup

theorem edgeStep_move {S : Setup} {s : State} (h : Tracked s) (remKey : String) (edge : Edge)
    (phase : Option EdgePhase) :
    EdgeMove S s remKey edge phase (edgeStep S s remKey edge phase) := by
  cases phase with
  | none =>
    cases edge with
    | down => exact cancelThenRun_move h (s.pressedAt.insert remKey s.now) remKey .down none
    | up =>
      cases hlookup : s.repeatTasks.lookup remKey with
      | none =>
        rw [edgeStep, onUsbEdge_up_none S hlookup]
        exact cancelThenRun_move h s.pressedAt remKey .up none
      | some t =>
        rw [edgeStep, onUsbEdge_up_repeat S hlookup, if_pos (h.repeat_live hlookup)]
        exact .stopsRepeat t hlookup
  | some phase =>
    cases phase with
    | stopRepeat t =>
      rw [edgeStep, resumeEdge, if_neg (h.not_failed t)]
      exact cancelThenRun_move h s.pressedAt remKey edge (some (.stopRepeat t))
    | cancelHolds t rest =>
      exact cancelThenRun_move h s.pressedAt remKey edge (some (.cancelHolds t rest))

/-- Running a key's actions adds hold tasks of that key, on a down edge. -/
def Adds (S : Setup) (remKey : String) (edge : Edge) (as : List (Action × Nat)) (s s' : State) : Prop :=
  ∃ new, s'.tasks = s.tasks ++ new ∧ ∀ task ∈ new, ∀ key minHoldMs flow trigger,
    task.kind = .hold key minHoldMs flow trigger → key.1 = remKey ∧ edge = .down ∧
      task.state = .created ∧ ∃ a, (a, key.2) ∈ as ∧ S.holdMs a = some minHoldMs

theorem Adds.create {S : Setup} {remKey : String} {edge : Edge} {as : List (Action × Nat)}
    {s t u : State} (h : Adds S remKey edge as s t) {kind : TaskKind}
    (htasks : u.tasks = (t.create kind).tasks)
    (hkind : ∀ key minHoldMs flow trigger, kind = .hold key minHoldMs flow trigger →
      key.1 = remKey ∧ edge = .down ∧ ∃ a, (a, key.2) ∈ as ∧ S.holdMs a = some minHoldMs) :
    Adds S remKey edge as s u := by
  obtain ⟨new, heq, hnew⟩ := h
  refine ⟨new ++ [({ kind := kind } : Task)], by rw [htasks, State.create, heq, List.append_assoc], ?_⟩
  intro task hmem key minHoldMs flow trigger hkey
  obtain hold | hlast := List.mem_append.mp hmem
  · exact hnew task hold key minHoldMs flow trigger hkey
  · rw [List.mem_singleton.mp hlast] at hkey ⊢
    obtain ⟨hkey, hedge, ha⟩ := hkind key minHoldMs flow trigger hkey
    exact ⟨hkey, hedge, rfl, ha⟩

theorem runActions_adds (S : Setup) (remKey : String) (edge : Edge) (s : State)
    (as : List (Action × Nat)) : Adds S remKey edge as s (runActions S remKey edge s as).1 := by
  refine runActions_induct (P := Adds S remKey edge as s) ?_ ⟨[], (List.append_nil _).symm, nofun⟩
  intro t t' a idx hmem hdo h
  obtain rfl | ⟨-, ⟨job, rfl⟩ | ⟨name, rfl⟩ | ⟨minHold, name, hedge, hms, rfl⟩⟩ := doAction_cases hdo
  · obtain ⟨new, heq, hnew⟩ := h
    exact ⟨new, (hand_tasks ..).trans heq, hnew⟩
  · exact h
  · exact h
  · unfold State.scheduleHoldAction
    split
    · exact h
    · refine h.create rfl fun key minHoldMs flow trigger hkey => ?_
      obtain ⟨rfl, rfl, -⟩ := TaskKind.hold.inj hkey
      exact ⟨rfl, hedge, a, hmem, hms⟩

/-! ### The invariant -/

/-- The hold task's time comes at least its hold after the edge arrived. -/
def Aged (now arrived : Nat) (minHoldMs : Int) (task : Task) : Prop :=
  match task.state with
  | .created => arrived ≤ now
  | .sleeping due => (arrived : Int) + minHoldMs ≤ due
  | _ => True

structure Inv (S : Setup) (s : System) : Prop where
  tracked : Tracked s.dispatcher
  awaited : ∀ (t : Nat) (key : HoldKey), (s.dispatcher.doomedKind t).bind TaskKind.holdKey? = some key →
    ∃ (j : Nat) (source : Source) (edge : Edge) (phase : EdgePhase) (arrived : Nat),
      s.callers[j]? = some ⟨source, key.1, .calling edge phase arrived⟩ ∧ phase.task = t
  alone : ∀ (i j : Nat) (c c' : Caller), s.callers[i]? = some c → s.callers[j]? = some c' →
    c.stage.calls = true → c'.stage.calls = true → c.remKey = c'.remKey → i = j
  covers : ∀ (j : Nat) (source : Source) (remKey : String) (edge : Edge) (t : Nat)
    (rest : List HoldKey) (arrived : Nat),
    s.callers[j]? = some ⟨source, remKey, .calling edge (.cancelHolds t rest) arrived⟩ →
    (∀ key ∈ rest, key.1 = remKey) ∧
      ∀ key ∈ s.dispatcher.holdTasks, key.1 = remKey → key ∈ rest
  arrived : ∀ (j : Nat) (source : Source) (remKey : String) (edge : Edge) (phase : EdgePhase)
    (arrived : Nat), s.callers[j]? = some ⟨source, remKey, .calling edge phase arrived⟩ →
    arrived ≤ s.dispatcher.now
  pending : ∀ (t : Nat) (task : Task) (key : HoldKey) (minHoldMs : Int) (flow trigger : String),
    s.dispatcher.tasks[t]? = some task → task.alive = some (.hold key minHoldMs flow trigger) →
    OfAction S key minHoldMs ∧
      ∃ arrived ∈ pressedSince key s.log, Aged s.dispatcher.now arrived minHoldMs task
  sound : Sound S s.log

theorem inv_start (S : Setup) : Inv S {} where
  tracked := ⟨by intro key t; simp [State.aliveKind], by intro key t; simp [State.aliveKind],
    by intro key t h; simp [State.doomedKind] at h, nofun⟩
  awaited := by
    intro t key h
    simp [State.doomedKind] at h
  alone := by
    intro i j c c' h
    simp at h
  covers := by
    intro j source remKey edge t rest arrived h
    simp at h
  arrived := by
    intro j source remKey edge phase arrived h
    simp at h
  pending := by
    intro t task key minHoldMs flow trigger h
    simp at h
  sound := trivial

/-- One caller has come or moved on, and the others stand where they stood. -/
structure Placed (callers : List Caller) (i : Nat) (c : Caller) (callers' : List Caller) : Prop where
  new : callers'[i]? = some c
  old : ∀ j, j ≠ i → callers'[j]? = callers[j]?

theorem Placed.cases {callers callers' : List Caller} {i j : Nat} {c c' : Caller}
    (h : Placed callers i c callers') (hj : callers'[j]? = some c') :
    (j = i ∧ c' = c) ∨ (j ≠ i ∧ callers[j]? = some c') := by
  by_cases hij : j = i
  · subst hij
    exact Or.inl ⟨rfl, Option.some.inj (hj.symm.trans h.new)⟩
  · exact Or.inr ⟨hij, h.old j hij ▸ hj⟩

theorem placed_concat (callers : List Caller) (c : Caller) :
    Placed callers callers.length c (callers ++ [c]) := by
  refine ⟨List.getElem?_concat_length .., fun j hj => ?_⟩
  by_cases hlt : j < callers.length
  · rw [List.getElem?_append_left hlt]
  · rw [List.getElem?_eq_none (by rw [List.length_append, List.length_singleton]; omega),
      List.getElem?_eq_none (by omega)]

theorem placed_set {callers : List Caller} {i : Nat} (hi : i < callers.length) (c : Caller) :
    Placed callers i c (callers.set i c) :=
  ⟨List.getElem?_set_self hi, fun _ hj => List.getElem?_set_ne (Ne.symm hj)⟩

/-- What is known as a step of the call at place `i` begins. -/
structure Acts (s : System) (i : Nat) (remKey : String) (phase : Option EdgePhase)
    (arrived : Nat) : Prop where
  alone : ∀ (j : Nat) (c : Caller), s.callers[j]? = some c → c.stage.calls = true →
    c.remKey = remKey → j = i
  ready : ∀ (source : Source) (key : String) (edge : Edge) (phase : EdgePhase) (arrived : Nat),
    s.callers[i]? = some ⟨source, key, .calling edge phase arrived⟩ → ¬ s.dispatcher.Live phase.task
  own : ∀ key ∈ s.dispatcher.keysLeft remKey phase, key.1 = remKey
  left : ∀ key ∈ s.dispatcher.holdTasks, key.1 = remKey → key ∈ s.dispatcher.keysLeft remKey phase
  arrived : arrived ≤ s.dispatcher.now

/-- A cancelled hold task that is still unwinding is awaited by another call. -/
theorem Acts.awaits {S : Setup} {s : System} {i : Nat} {remKey : String} {phase : Option EdgePhase}
    {arrived : Nat} (ha : Acts s i remKey phase arrived) (h : Inv S s) {t : Nat} {key : HoldKey}
    (hdoomed : (s.dispatcher.doomedKind t).bind TaskKind.holdKey? = some key) :
    ∃ (j : Nat) (source : Source) (edge : Edge) (phase : EdgePhase) (arrived : Nat), j ≠ i ∧
      s.callers[j]? = some ⟨source, key.1, .calling edge phase arrived⟩ ∧ phase.task = t := by
  obtain ⟨j, source, edge, phase', a, hj, htask⟩ := h.awaited t key hdoomed
  refine ⟨j, source, edge, phase', a, ?_, hj, htask⟩
  intro hij
  subst hij
  apply ha.ready source key.1 edge phase' a hj
  rw [htask]
  exact live_of_doomedKind fun hnone => by simp [hnone] at hdoomed

/-- No cancelled hold task of the acting call's key is still unwinding. -/
theorem Acts.free {S : Setup} {s : System} {i : Nat} {remKey : String} {phase : Option EdgePhase} {arrived : Nat}
    (ha : Acts s i remKey phase arrived) (h : Inv S s) {t : Nat} {key : HoldKey}
    (hdoomed : (s.dispatcher.doomedKind t).bind TaskKind.holdKey? = some key) : key.1 ≠ remKey := by
  intro hkey
  obtain ⟨j, source, edge, phase', a, hne, hj, -⟩ := ha.awaits h hdoomed
  exact hne (ha.alone j _ hj rfl hkey)

/-- What running the key's actions and the rest of the call do. -/
structure Ran (S : Setup) (s : State) (remKey : String) (edge : Edge)
    (r : State × Progress EdgePhase) : Prop where
  tracked : Tracked r.1
  doomed : r.1.doomedKind = s.doomedKind
  hold : ∀ key ∈ r.1.holdTasks, key ∈ s.holdTasks ∨ key.1 = remKey
  adds : Adds S remKey edge (S.actions s.mode remKey).zipIdx s r.1
  now : r.1.now = s.now
  ends : ∀ phase, r.2 ≠ .waits phase

theorem runEdge_ran {S : Setup} {s : State} {remKey : String} (h : Tracked s)
    (hfree : HoldsFree S s remKey) (edge : Edge) : Ran S s remKey edge (runEdge S s remKey edge) := by
  have hran : Scheduled S remKey edge (S.actions s.mode remKey).zipIdx s _ :=
    runActions_scheduled h fun _ => hfree
  have hacted := runActions_acted S remKey edge s (S.actions s.mode remKey).zipIdx
  have hadds := runActions_adds S remKey edge s (S.actions s.mode remKey).zipIdx
  unfold runEdge
  generalize runActions S remKey edge s (S.actions s.mode remKey).zipIdx = ran at hran hacted hadds ⊢
  have hsame : Ran S s remKey edge (ran.1, .returns) :=
    ⟨hran.tracked, hran.doomed, fun key hkey => (hran.hold key hkey).imp_right And.left, hadds,
      hacted.now, nofun⟩
  dsimp only
  split
  · cases edge with
    | up => exact ⟨hsame.tracked.congr rfl rfl rfl, hsame.doomed, hsame.hold, hadds, hacted.now, nofun⟩
    | down =>
      dsimp only
      split
      · refine ⟨hsame.tracked.startRepeat remKey, ?_, ?_, ?_, ?_, nofun⟩
        all_goals unfold State.startRepeat; dsimp only; split
        · exact hsame.doomed
        · exact (funext (doomedKind_create ran.1 _)).trans hsame.doomed
        · exact hsame.hold
        · exact hsame.hold
        · exact hadds
        · exact hadds.create rfl nofun
        · exact hacted.now
        · exact hacted.now
      · exact hsame
  · exact ⟨hsame.tracked, hsame.doomed, hsame.hold, hadds, hacted.now, nofun⟩

/-- The call waits for a task it has cancelled. -/
theorem inv_waits {S : Setup} {s : System} {i : Nat} {remKey : String} {edge : Edge} {phase : Option EdgePhase}
    {arrived : Nat} {place : Caller → List Caller} {d : State} {phase' : EdgePhase} (h : Inv S s)
    (ha : Acts s i remKey phase arrived) (hplaced : ∀ c, Placed s.callers i c (place c))
    (source : Source) (htracked : Tracked d) (hnow : d.now = s.dispatcher.now)
    (hdoomed : ∀ (t : Nat) (key : HoldKey), (d.doomedKind t).bind TaskKind.holdKey? = some key →
      (s.dispatcher.doomedKind t).bind TaskKind.holdKey? = some key ∨
        key.1 = remKey ∧ phase'.task = t)
    (hhold : ∀ key ∈ d.holdTasks, key ∈ s.dispatcher.holdTasks)
    (hleft : ∀ t rest, phase' = .cancelHolds t rest → (∀ key ∈ rest, key.1 = remKey) ∧
      ∀ key ∈ d.holdTasks, key.1 = remKey → key ∈ rest)
    (halive : ∀ (t : Nat) (task : Task), d.tasks[t]? = some task → task.alive ≠ none →
      s.dispatcher.tasks[t]? = some task) :
    Inv S (s.called source remKey edge arrived place (d, .waits phase')) := by
  have hnew := hplaced ⟨source, remKey, .calling edge phase' arrived⟩
  constructor
  · exact htracked
  · intro t key hkey
    obtain hold | ⟨hkey', htask⟩ := hdoomed t key hkey
    · obtain ⟨j, source', edge', phase₀, a, hne, hj, htask⟩ := ha.awaits h hold
      exact ⟨j, source', edge', phase₀, a, (hnew.old j hne).trans hj, htask⟩
    · exact ⟨i, source, edge, phase', arrived, by rw [hkey']; exact hnew.new, htask⟩
  · intro j k c c' hj hk hc hc' hkeys
    obtain ⟨rfl, rfl⟩ | ⟨hne, hj⟩ := hnew.cases hj
    · obtain ⟨rfl, rfl⟩ | ⟨hne, hk⟩ := hnew.cases hk
      · rfl
      · exact absurd (ha.alone k c' hk hc' hkeys.symm) hne
    · obtain ⟨rfl, rfl⟩ | ⟨-, hk⟩ := hnew.cases hk
      · exact absurd (ha.alone j c hj hc hkeys) hne
      · exact h.alone j k c c' hj hk hc hc' hkeys
  · intro j source' remKey' edge' t rest a hj
    obtain ⟨rfl, heq⟩ | ⟨hne, hj⟩ := hnew.cases hj
    · obtain ⟨-, rfl, hstage⟩ := Caller.mk.inj heq
      obtain ⟨-, hphase, -⟩ := Stage.calling.inj hstage
      exact hleft t rest hphase.symm
    · obtain ⟨hown, hcovers⟩ := h.covers j source' remKey' edge' t rest a hj
      exact ⟨hown, fun key hkey => hcovers key (hhold key hkey)⟩
  · intro j source' remKey' edge' phase₀ a hj
    refine (?_ : a ≤ s.dispatcher.now).trans_eq hnow.symm
    obtain ⟨rfl, heq⟩ | ⟨hne, hj⟩ := hnew.cases hj
    · obtain ⟨-, rfl, hstage⟩ := Caller.mk.inj heq
      obtain ⟨-, -, rfl⟩ := Stage.calling.inj hstage
      exact ha.arrived
    · exact h.arrived j source' remKey' edge' phase₀ a hj
  · intro t task key minHoldMs flow trigger htask hkind
    obtain ⟨hof, a, hpressed, haged⟩ := h.pending t task key minHoldMs flow trigger
      (halive t task htask (by simp [hkind])) hkind
    refine ⟨hof, a, hpressed, ?_⟩
    change Aged d.now a minHoldMs task
    rw [hnow]
    exact haged
  · exact h.sound

theorem lookup_of_alive {s : State} (h : Tracked s) {t : Nat} {task : Task} {key : HoldKey}
    {minHoldMs : Int} {flow trigger : String} (htask : s.tasks[t]? = some task)
    (hkind : task.alive = some (.hold key minHoldMs flow trigger)) :
    s.holdTasks.lookup key = some t := by
  rw [h.hold key t, State.aliveKind, htask, Option.bind_some, hkind]
  rfl

/-- The call ends. -/
theorem inv_ends {S : Setup} {s : System} {i : Nat} {remKey : String} {edge : Edge} {phase : Option EdgePhase}
    {arrived : Nat} {place : Caller → List Caller} {r : State × Progress EdgePhase} (h : Inv S s)
    (ha : Acts s i remKey phase arrived) (hplaced : ∀ c, Placed s.callers i c (place c))
    (source : Source) (hran : Ran S s.dispatcher remKey edge r)
    (hnone : ∀ key ∈ s.dispatcher.holdTasks, key.1 ≠ remKey) :
    Inv S (s.called source remKey edge arrived place r) := by
  obtain ⟨d, progress⟩ := r
  have hcalls : (afterCall source edge arrived s.dispatcher.now progress).calls = false ∧
      entries remKey edge arrived progress = [.processed remKey edge arrived] := by
    cases progress with
    | waits phase => exact absurd rfl (hran.ends phase)
    | raises => exact ⟨rfl, rfl⟩
    | returns =>
      cases source with
      | usb => exact ⟨rfl, rfl⟩
      | tap holdMs => cases edge with
        | down => exact ⟨rfl, rfl⟩
        | up => exact ⟨rfl, rfl⟩
  have hnew := hplaced ⟨source, remKey, afterCall source edge arrived s.dispatcher.now progress⟩
  have hold {j : Nat} {c : Caller} (hj : (s.called source remKey edge arrived place
      (d, progress)).callers[j]? = some c) (hc : c.stage.calls = true) :
      j ≠ i ∧ s.callers[j]? = some c := by
    obtain ⟨-, rfl⟩ | hother := hnew.cases hj
    · exact absurd (hc.symm.trans hcalls.1) (by simp)
    · exact hother
  constructor
  · exact hran.tracked
  · intro t key hkey
    change (d.doomedKind t).bind _ = _ at hkey
    have hdoomed : d.doomedKind = s.dispatcher.doomedKind := hran.doomed
    rw [hdoomed] at hkey
    obtain ⟨j, source', edge', phase₀, a, hne, hj, htask⟩ := ha.awaits h hkey
    exact ⟨j, source', edge', phase₀, a, (hnew.old j hne).trans hj, htask⟩
  · intro j k c c' hj hk hc hc' hkeys
    exact h.alone j k c c' (hold hj hc).2 (hold hk hc').2 hc hc' hkeys
  · intro j source' remKey' edge' t rest a hj
    obtain ⟨hne, hj⟩ := hold hj rfl
    obtain ⟨hown, hcovers⟩ := h.covers j source' remKey' edge' t rest a hj
    refine ⟨hown, fun key hkey hkey' => ?_⟩
    obtain hmem | hmem := hran.hold key hkey
    · exact hcovers key hmem hkey'
    · exact absurd (ha.alone j _ hj rfl (hkey'.symm.trans hmem)) hne
  · intro j source' remKey' edge' phase₀ a hj
    exact (h.arrived j source' remKey' edge' phase₀ a (hold hj rfl).2).trans_eq hran.now.symm
  · intro t task key minHoldMs flow trigger htask hkind
    change OfAction S key minHoldMs ∧ ∃ a ∈ pressedSince key
      (entries remKey edge arrived progress ++ s.log), Aged d.now a minHoldMs task
    have hnow : d.now = s.dispatcher.now := hran.now
    rw [hcalls.2, hnow]
    obtain ⟨new, htasks, hfresh⟩ := hran.adds
    change d.tasks[t]? = some task at htask
    have hkey : task.kind = .hold key minHoldMs flow trigger :=
      Option.some.inj (Option.ite_none_right_eq_some.mp hkind).2
    have htasks' : d.tasks = s.dispatcher.tasks ++ new := htasks
    rw [htasks'] at htask
    by_cases hlt : t < s.dispatcher.tasks.length
    · rw [List.getElem?_append_left hlt] at htask
      have hmem : key ∈ s.dispatcher.holdTasks :=
        AList.lookup_isSome.mp (Option.isSome_of_eq_some (lookup_of_alive h.tracked htask hkind))
      rw [List.singleton_append, pressedSince, if_neg (hnone key hmem).symm]
      exact h.pending t task key minHoldMs flow trigger htask hkind
    · rw [List.getElem?_append_right (Nat.le_of_not_lt hlt)] at htask
      obtain ⟨hkey', hedge, hstate, action, haction, hms⟩ :=
        hfresh task (List.mem_of_getElem? htask) key minHoldMs flow trigger hkey
      refine ⟨⟨s.dispatcher.mode, action, by rw [hkey']; exact haction, hms⟩, arrived, ?_, ?_⟩
      · rw [List.singleton_append, pressedSince, if_pos hkey'.symm, if_pos hedge]
        rfl
      · rw [Aged, hstate]
        exact ha.arrived
  · change Sound S (entries remKey edge arrived progress ++ s.log)
    rw [hcalls.2]
    exact h.sound

/-- Cancelling a task leaves the others, and it is not alive any more. -/
theorem getElem?_cancel {s : State} {t t' : Nat} {task : Task}
    (h : (s.cancel t).tasks[t']? = some task) (halive : task.alive ≠ none) :
    s.tasks[t']? = some task := by
  rw [State.cancel, List.getElem?_modify] at h
  by_cases ht : t = t'
  · subst ht
    obtain ⟨old, -, rfl⟩ := Option.map_eq_some_iff.mp h
    simp [Task.alive] at halive
  · simpa [ht] using h

/-- A step of a call keeps the invariant. -/
theorem inv_called {S : Setup} {s : System} {i : Nat} {remKey : String} {phase : Option EdgePhase}
    {arrived : Nat} {place : Caller → List Caller} (h : Inv S s) (ha : Acts s i remKey phase arrived)
    (hplaced : ∀ c, Placed s.callers i c (place c)) (source : Source) (edge : Edge) :
    Inv S (s.called source remKey edge arrived place (edgeStep S s.dispatcher remKey edge phase)) := by
  have hmove := edgeStep_move (S := S) h.tracked remKey edge phase
  generalize edgeStep S s.dispatcher remKey edge phase = r at hmove
  cases hmove with
  | stopsRepeat t hlookup =>
    obtain ⟨kind, halive, hkind⟩ := h.tracked.repeats.kind hlookup
    refine inv_waits h ha hplaced source (h.tracked.popRepeat_cancel hlookup) rfl ?_ (fun _ => id) nofun
      fun t' task => getElem?_cancel
    intro t' key hdoomed
    have hcancel := doomedKind_cancel (s.dispatcher.popRepeat remKey) t t'
    have halive' : (s.dispatcher.popRepeat remKey).aliveKind t = some kind := halive
    rw [hcancel, halive'] at hdoomed
    by_cases ht : t' = t
    · simp [ht, holdKey?_of_repeatKey? hkind] at hdoomed
    · rw [if_neg ht] at hdoomed
      exact Or.inl hdoomed
  | cancelsHold pressedAt key t before rest hkeys hbefore hlookup =>
    obtain ⟨kind, halive, hkind⟩ := h.tracked.hold.kind hlookup
    have htracked : Tracked { s.dispatcher with pressedAt := pressedAt } := h.tracked.congr rfl rfl rfl
    refine inv_waits h ha hplaced source (htracked.popHold_cancel hlookup) rfl ?_ ?_ ?_
      fun t' task => getElem?_cancel
    · intro t' key' hdoomed
      have hcancel := doomedKind_cancel
        ({ s.dispatcher with pressedAt := pressedAt }.popHold key) t t'
      have halive' : ({ s.dispatcher with pressedAt := pressedAt }.popHold key).aliveKind t =
          some kind := halive
      rw [hcancel, halive'] at hdoomed
      by_cases ht : t' = t
      · obtain rfl : key = key' := by simpa [ht, hkind] using hdoomed
        exact Or.inr ⟨ha.own key (by simp [hkeys]), ht.symm⟩
      · rw [if_neg ht] at hdoomed
        exact Or.inl hdoomed
    · intro key' hmem
      exact (AList.mem_erase.mp hmem).2
    · intro t' rest' hphase
      obtain ⟨rfl, rfl⟩ := EdgePhase.cancelHolds.inj hphase
      refine ⟨fun key' hmem => ha.own key' (by simp [hkeys, hmem]), fun key' hmem hkey' => ?_⟩
      obtain ⟨hne, hmem⟩ := AList.mem_erase.mp hmem
      have hin := ha.left key' hmem hkey'
      rw [hkeys] at hin
      simp only [List.mem_append, List.mem_cons, hne, false_or] at hin
      exact hin.resolve_left fun hb => hbefore key' hb hmem
  | runs pressedAt hnone =>
    have htracked : Tracked { s.dispatcher with pressedAt := pressedAt } := h.tracked.congr rfl rfl rfl
    have hfree : HoldsFree S { s.dispatcher with pressedAt := pressedAt } remKey := by
      intro p _ _ hunwinding
      obtain ⟨task, hmem, hkey⟩ := hunwinding
      obtain ⟨t, ht⟩ := List.mem_iff_getElem?.mp hmem
      have ht' : s.dispatcher.tasks[t]? = some task := ht
      have hdoomed : (s.dispatcher.doomedKind t).bind TaskKind.holdKey? = some (remKey, p.2) := by
        rw [State.doomedKind, ht']
        exact hkey
      exact ha.free h hdoomed rfl
    have hran := runEdge_ran htracked hfree edge
    refine inv_ends h ha hplaced source ?_ ?_
    · exact ⟨hran.tracked, hran.doomed, hran.hold, hran.adds, hran.now, hran.ends⟩
    · intro key hmem hkey
      exact hnone key (ha.left key hmem hkey) hmem

/-! ### Steps of a task -/

theorem repeatable_of_holdMs {S : Setup} {a : Action} (h : (S.holdMs a).isSome = true) :
    repeatable a = true := by
  cases a with
  | noop => rfl
  | ble usage code => simp [Setup.holdMs] at h
  | speaker whenEdge action kwargs => simp [Setup.holdMs] at h
  | flow name whenEdge minHoldMs =>
    by_cases hwhen : whenEdge.isStr "down" = true
    · exact hwhen
    · simp [Setup.holdMs, hwhen] at h

/-- Actions whose holds are all pending start no task. -/
theorem runActions_quiet {S : Setup} {remKey : String} (edge : Edge) {s : State}
    {as : List (Action × Nat)}
    (h : ∀ p ∈ as, (S.holdMs p.1).isSome = true → (remKey, p.2) ∈ s.holdTasks) :
    (runActions S remKey edge s as).1.tasks = s.tasks ∧
      (runActions S remKey edge s as).1.holdTasks = s.holdTasks := by
  refine runActions_induct (P := fun t => t.tasks = s.tasks ∧ t.holdTasks = s.holdTasks) ?_ ⟨rfl, rfl⟩
  intro t t' a idx hmem hdo ht
  obtain rfl | ⟨-, ⟨job, rfl⟩ | ⟨name, rfl⟩ | ⟨minHold, name, -, hms, rfl⟩⟩ := doAction_cases hdo
  · exact ⟨(hand_tasks ..).trans ht.1, (hand_holdTasks ..).trans ht.2⟩
  · exact ht
  · exact ht
  · have hpending : (remKey, idx) ∈ t.holdTasks := ht.2 ▸ h (a, idx) hmem (by simp [hms])
    rw [State.scheduleHoldAction, if_pos (AList.lookup_isSome.mpr hpending)]
    exact ht

theorem tickOk_of_quiet {S : Setup} {s : State} {t : Nat} (h : Tracked s) (hquiet : TickQuiet S s t) :
    TickOk S s t := by
  unfold TickOk
  split
  case h_2 => trivial
  case h_1 remKey due htask =>
    rw [TickQuiet, htask] at hquiet
    refine ⟨fun a ha hrepeatable => ?_, fun p hp hms hunwinding => ?_⟩
    · obtain ⟨p, hp, rfl⟩ := List.mem_map.mp (List.zipIdx_map_fst 0 (S.actions s.mode remKey) ▸ ha)
      exact (hquiet p hp hrepeatable).1
    · obtain ⟨task, hmem, hkey⟩ := hunwinding
      obtain ⟨t', ht'⟩ := List.mem_iff_getElem?.mp hmem
      have hdoomed : (s.doomedKind t').bind TaskKind.holdKey? = some (remKey, p.2) := by
        rw [State.doomedKind, ht']
        exact hkey
      have hpending := (hquiet p hp (repeatable_of_holdMs hms)).2 hms
      exact AList.lookup_eq_none.mp (h.unwinding _ t' hdoomed) hpending

theorem fired_same {s s' : State} (h : s'.flows = s.flows) (t : Nat) : fired s s' t = [] := by
  unfold fired
  split
  · exact if_pos h
  · rfl

theorem getElem?_setTask {s : State} {t t' : Nat} {state : TaskState} {task : Task}
    (h : (s.setTask t state).tasks[t']? = some task) : t' ≠ t ∧ s.tasks[t']? = some task ∨
      t' = t ∧ ∃ old, s.tasks[t]? = some old ∧ task = { old with state := state } := by
  rw [State.setTask, List.getElem?_modify] at h
  by_cases ht : t = t'
  · subst ht
    obtain ⟨old, hold, rfl⟩ := Option.map_eq_some_iff.mp h
    exact Or.inr ⟨rfl, old, hold, by simp⟩
  · exact Or.inl ⟨Ne.symm ht, by simpa [ht] using h⟩

/-- The steps of a hold task that has not been cancelled. -/
theorem hold_steps {S : Setup} {s s' : State} {t : Nat} {key : HoldKey} {minHoldMs : Int}
    {flow trigger : String} {state : TaskState}
    (htask : s.tasks[t]? = some ⟨.hold key minHoldMs flow trigger, state, false⟩)
    (h : taskStep S s t = some s') :
    state = .created ∧ s' = s.setTask t (.sleeping (s.now + minHoldMs.toNat)) ∨
      ∃ due flows, state = .sleeping due ∧ due ≤ s.now ∧
        s' = ({ s with flows := flows }.setTask t .ended).popHold key := by
  cases state with
  | ended => simp [taskStep, htask] at h
  | failed => simp [taskStep, htask] at h
  | created =>
    refine Or.inl ⟨rfl, ?_⟩
    simpa [taskStep, htask] using h.symm
  | sleeping due =>
    simp only [taskStep, htask] at h
    split at h
    case isFalse => cases h
    case isTrue hdue =>
      obtain rfl := Option.some.inj h
      split
      · exact Or.inr ⟨due, _, rfl, hdue, rfl⟩
      · exact Or.inr ⟨due, s.flows, rfl, hdue, rfl⟩

/-- What every step of a task leaves to the calls. -/
structure Kept (s d : State) : Prop where
  tracked : Tracked d
  now : d.now = s.now
  doomed : ∀ (t : Nat) (kind : TaskKind), d.doomedKind t = some kind → s.doomedKind t = some kind
  hold : ∀ key ∈ d.holdTasks, key ∈ s.holdTasks

theorem doomedKind_of_ended {s : State} {t t' : Nat} {kind : TaskKind}
    (h : (s.setTask t .ended).doomedKind t' = some kind) : s.doomedKind t' = some kind := by
  rw [doomedKind_ended] at h
  exact (Option.ite_none_left_eq_some.mp h).2

theorem Inv.kept {S : Setup} {s : System} {d : State} {log : List Entry} (h : Inv S s)
    (hkept : Kept s.dispatcher d)
    (hpending : ∀ (t : Nat) (task : Task) (key : HoldKey) (minHoldMs : Int) (flow trigger : String),
      d.tasks[t]? = some task → task.alive = some (.hold key minHoldMs flow trigger) →
      OfAction S key minHoldMs ∧
        ∃ arrived ∈ pressedSince key log, Aged d.now arrived minHoldMs task)
    (hsound : Sound S log) :
    Inv S { s with dispatcher := d, log := log } := by
  refine ⟨hkept.tracked, ?_, h.alone, ?_, ?_, hpending, hsound⟩
  · intro t key hkey
    obtain ⟨kind, hkind, hholdKey⟩ := Option.bind_eq_some_iff.mp hkey
    exact h.awaited t key (by rw [hkept.doomed t kind hkind]; exact hholdKey)
  · intro j source remKey edge t rest a hj
    obtain ⟨hown, hcovers⟩ := h.covers j source remKey edge t rest a hj
    exact ⟨hown, fun key hkey => hcovers key (hkept.hold key hkey)⟩
  · intro j source remKey edge phase a hj
    exact (h.arrived j source remKey edge phase a hj).trans_eq hkept.now.symm

/-- The hold tasks that are left are as they were. -/
theorem Inv.same {S : Setup} {s : System} {d : State} (h : Inv S s) (hkept : Kept s.dispatcher d)
    (htasks : ∀ (t : Nat) (task : Task) (key : HoldKey) (minHoldMs : Int) (flow trigger : String),
      d.tasks[t]? = some task → task.alive = some (.hold key minHoldMs flow trigger) →
      s.dispatcher.tasks[t]? = some task) : Inv S { s with dispatcher := d } := by
  refine h.kept hkept ?_ h.sound
  intro t task key minHoldMs flow trigger htask hkind
  rw [hkept.now]
  exact h.pending t task key minHoldMs flow trigger (htasks t task key minHoldMs flow trigger htask hkind)
    hkind

/-- A task that has come to a state in which it is no live hold task. -/
theorem others_of_setTask {s : State} {t : Nat} {state : TaskState} {task : Task}
    (htask : s.tasks[t]? = some task) (hdead : ∀ (key : HoldKey) (minHoldMs : Int)
      (flow trigger : String), ({ task with state := state } : Task).alive ≠
        some (.hold key minHoldMs flow trigger))
    {t' : Nat} {task' : Task} {key : HoldKey} {minHoldMs : Int} {flow trigger : String}
    (htask' : (s.setTask t state).tasks[t']? = some task')
    (hkind : task'.alive = some (.hold key minHoldMs flow trigger)) :
    t' ≠ t ∧ s.tasks[t']? = some task' := by
  obtain hother | ⟨-, old, hold, rfl⟩ := getElem?_setTask htask'
  · exact hother
  · obtain rfl := Option.some.inj (htask.symm.trans hold)
    exact absurd hkind (hdead key minHoldMs flow trigger)

/-- The step of a task that is cancelled, or is a repeat task. -/
theorem inv_other {S : Setup} {s : System} {t : Nat} {d : State} {task : Task} (h : Inv S s)
    (hquiet : TickQuiet S s.dispatcher t) (hstep : taskStep S s.dispatcher t = some d)
    (htask : s.dispatcher.tasks[t]? = some task)
    (hother : task.cancelled = true ∨ ∃ remKey, task.kind = .repeats remKey) :
    Inv S { s with dispatcher := d, log := fired s.dispatcher d t ++ s.log } := by
  have hstepped := taskStep_stepped h.tracked (tickOk_of_quiet h.tracked hquiet) hstep
  have hended (key : HoldKey) (minHoldMs : Int) (flow trigger : String) :
      ({ task with state := .ended } : Task).alive ≠ some (.hold key minHoldMs flow trigger) := by
    simp [Task.alive, Task.Done]
  obtain ⟨task', htask', hdone, hmove⟩ := taskStep_move hstep
  obtain rfl := Option.some.inj (htask.symm.trans htask')
  cases hmove with
  | stops hcancelled =>
    rw [fired_same]
    · exact h.same ⟨hstepped.tracked, rfl, fun _ _ => doomedKind_of_ended, fun _ => id⟩
        fun t' task' key minHoldMs flow trigger htask' hkind =>
          (others_of_setTask htask hended htask' hkind).2
    · rfl
  | unwinds key minHoldMs flow trigger hcancelled hkind =>
    rw [fired_same]
    · exact h.same ⟨hstepped.tracked, rfl, fun _ _ => doomedKind_of_ended,
        fun _ hmem => (AList.mem_erase.mp hmem).2⟩
        fun t' task' key minHoldMs flow trigger htask' hkind =>
          (others_of_setTask htask hended htask' hkind).2
    · rfl
  | sleeps due hcancelled =>
    obtain ⟨remKey, hkind⟩ := hother.resolve_left (by simp [hcancelled])
    rw [fired_same]
    · refine h.same ⟨hstepped.tracked, rfl, ?_, fun _ => id⟩ ?_
      · intro t' kind hdoomed
        rwa [(h.tracked.sleep htask hdone due).2] at hdoomed
      · intro t' task' key minHoldMs flow trigger htask' hkind'
        exact (others_of_setTask htask (by simp [Task.alive, hkind]) htask' hkind').2
    · rfl
  | ticks remKey due due' hshape =>
    subst hshape
    have hlog (d : State) : fired s.dispatcher d t = [] := by simp [fired, htask]
    rw [TickQuiet, htask] at hquiet
    obtain ⟨htasks, hholds⟩ := runActions_quiet (S := S) .down
      fun (p : Action × Nat) (hp : p ∈ (S.actions s.dispatcher.mode remKey).zipIdx.filter
        fun a => repeatable a.1) hms =>
        (hquiet p (List.mem_of_mem_filter hp) (repeatable_of_holdMs hms)).2 hms
    rw [hlog]
    refine h.same ⟨hstepped.tracked, hstepped.acted.now, ?_, fun key hkey => hholds ▸ hkey⟩ ?_
    · intro t' kind hdoomed
      rw [doomedKind_setTask] at hdoomed
      split at hdoomed
      · simp [repeatTick, htasks, htask, Task.doomed] at hdoomed
      · exact (congrFun (doomedKind_congr htasks) t').symm.trans hdoomed
    · intro t' task' key minHoldMs flow trigger htask' hkind'
      have htask₀ := (congrArg (·[t]?) htasks).trans htask
      have hold := (others_of_setTask htask₀ (by simp [Task.alive]) htask' hkind').2
      exact (congrArg (·[t']?) htasks).symm.trans hold
  | fires key minHoldMs flow trigger flows hcancelled hkind =>
    obtain ⟨remKey, hkind'⟩ := hother.resolve_left (by simp [hcancelled])
    exact absurd (hkind'.symm.trans hkind) (by simp)

/-- The step of a hold task that has not been cancelled. -/
theorem inv_hold {S : Setup} {s : System} {t : Nat} {d : State} {key : HoldKey} {minHoldMs : Int}
    {flow trigger : String} {state : TaskState} (h : Inv S s) (hquiet : TickQuiet S s.dispatcher t)
    (hstep : taskStep S s.dispatcher t = some d)
    (htask : s.dispatcher.tasks[t]? = some ⟨.hold key minHoldMs flow trigger, state, false⟩) :
    Inv S { s with dispatcher := d, log := fired s.dispatcher d t ++ s.log } := by
  have hstepped := taskStep_stepped h.tracked (tickOk_of_quiet h.tracked hquiet) hstep
  obtain ⟨rfl, rfl⟩ | ⟨due, flows, rfl, hdue, rfl⟩ := hold_steps htask hstep
  · have hsleep := h.tracked.sleep htask (by simp [Task.Done])
      (s.dispatcher.now + minHoldMs.toNat)
    obtain ⟨hof, arrived, hpressed, haged⟩ := h.pending t _ key minHoldMs flow trigger htask rfl
    rw [fired_same]
    · refine h.kept ⟨hsleep.1, rfl, fun t' kind => by rw [hsleep.2]; exact id, fun _ => id⟩ ?_ h.sound
      intro t' task' key' minHoldMs' flow' trigger' htask' hkind
      obtain ⟨-, hold⟩ | ⟨rfl, old, hold, rfl⟩ := getElem?_setTask htask'
      · exact h.pending t' task' key' minHoldMs' flow' trigger' hold hkind
      · obtain rfl := Option.some.inj (htask.symm.trans hold)
        obtain ⟨rfl, rfl, -⟩ := TaskKind.hold.inj (Option.some.inj hkind)
        refine ⟨hof, arrived, hpressed, ?_⟩
        have hbefore : arrived ≤ s.dispatcher.now := haged
        change (arrived : Int) + minHoldMs ≤ ((s.dispatcher.now + minHoldMs.toNat : Nat) : Int)
        omega
    · rfl
  · obtain ⟨hof, arrived, hpressed, haged⟩ := h.pending t _ key minHoldMs flow trigger htask rfl
    have hkept : Kept s.dispatcher
        (({ s.dispatcher with flows := flows }.setTask t .ended).popHold key) :=
      ⟨hstepped.tracked, rfl, fun _ _ => doomedKind_of_ended,
        fun _ hmem => (AList.mem_erase.mp hmem).2⟩
    have hothers {t' : Nat} {task' : Task} {key' : HoldKey} {minHoldMs' : Int}
        {flow' trigger' : String} (htask' : (s.dispatcher.setTask t .ended).tasks[t']? = some task')
        (hkind : task'.alive = some (.hold key' minHoldMs' flow' trigger')) :=
      others_of_setTask htask (by simp [Task.alive, Task.Done]) htask' hkind
    by_cases hflows : flows = s.dispatcher.flows
    · rw [fired_same]
      · exact h.same hkept fun t' task' key' minHoldMs' flow' trigger' htask' hkind =>
          (hothers htask' hkind).2
      · exact hflows
    · have hlog : fired s.dispatcher
          (({ s.dispatcher with flows := flows }.setTask t .ended).popHold key) t =
            [.started key minHoldMs s.dispatcher.now] := by
        rw [fired, htask]
        exact if_neg hflows
      rw [hlog]
      refine h.kept hkept ?_ ⟨hof, ⟨arrived, hpressed, ?_⟩, h.sound⟩
      · intro t' task' key' minHoldMs' flow' trigger' htask' hkind
        obtain ⟨hne, hold⟩ := hothers htask' hkind
        -- a table has one task under a key
        have hother : key ≠ key' := by
          intro hsame
          have hmine : s.dispatcher.holdTasks.lookup key = some t := lookup_of_alive h.tracked htask rfl
          have hits := lookup_of_alive h.tracked hold hkind
          rw [← hsame, hmine] at hits
          exact hne (Option.some.inj hits).symm
        rw [List.singleton_append, pressedSince, if_neg hother]
        exact h.pending t' task' key' minHoldMs' flow' trigger' hold hkind
      · have hlong : (arrived : Int) + minHoldMs ≤ due := haged
        omega

theorem inv_task {S : Setup} {s : System} {t : Nat} {d : State} (h : Inv S s)
    (hquiet : TickQuiet S s.dispatcher t) (hstep : taskStep S s.dispatcher t = some d) :
    Inv S { s with dispatcher := d, log := fired s.dispatcher d t ++ s.log } := by
  obtain ⟨⟨kind, state, cancelled⟩, htask, -⟩ := taskStep_move hstep
  cases cancelled with
  | true => exact inv_other h hquiet hstep htask (Or.inl rfl)
  | false =>
    cases kind with
    | repeats remKey => exact inv_other h hquiet hstep htask (Or.inr ⟨remKey, rfl⟩)
    | hold key minHoldMs flow trigger => exact inv_hold h hquiet hstep htask

/-- An edge comes with no call for its key under way. -/
theorem acts_fresh {s : System} {remKey : String} (hcalling : ¬ s.Calling remKey) {i : Nat}
    (hi : ∀ c ∈ s.callers[i]?, c.stage.calls = false) : Acts s i remKey none s.dispatcher.now := by
  refine ⟨?_, ?_, fun key hkey => (mem_holdKeys.mp hkey).2,
    fun key hkey hkey' => mem_holdKeys.mpr ⟨hkey, hkey'⟩, Nat.le_refl _⟩
  · intro j c hj hc hkey
    exact absurd ⟨c, List.mem_of_getElem? hj, hkey, hc⟩ hcalling
  · intro source key edge phase arrived hc
    exact absurd (hi _ hc) (by simp [Stage.calls])

/-- A tap is past its sleep, or cancelled in it. -/
theorem inv_lifted {S : Setup} {s : System} {i due : Nat} {source : Source} {remKey : String}
    (h : Inv S s) (hi : s.callers[i]? = some ⟨source, remKey, .holding due⟩)
    (hcalling : ¬ s.Calling remKey) :
    Inv S (s.called source remKey .up s.dispatcher.now (fun c => s.callers.set i c)
      (edgeStep S s.dispatcher remKey .up none)) := by
  refine inv_called h (acts_fresh hcalling ?_)
    (placed_set (List.getElem?_eq_some_iff.mp hi).1) source .up
  rw [hi]
  simp [Stage.calls]

/-- A call goes on once the task that it has cancelled is done. -/
theorem inv_resumes {S : Setup} {s : System} {i arrived : Nat} {source : Source} {remKey : String}
    {edge : Edge} {phase : EdgePhase} (h : Inv S s)
    (hi : s.callers[i]? = some ⟨source, remKey, .calling edge phase arrived⟩)
    (hlive : ¬ s.dispatcher.Live phase.task) :
    Inv S (s.called source remKey edge arrived (fun c => s.callers.set i c)
      (edgeStep S s.dispatcher remKey edge (some phase))) := by
  refine inv_called h ⟨?_, ?_, ?_, ?_, h.arrived i source remKey edge phase arrived hi⟩
    (placed_set (List.getElem?_eq_some_iff.mp hi).1) source edge
  · intro j c hj hc hkey
    exact h.alone j i c _ hj hi hc rfl hkey
  · intro source' key edge' phase' arrived' hi'
    obtain ⟨-, -, hstage⟩ := Caller.mk.inj (Option.some.inj (hi.symm.trans hi'))
    obtain ⟨-, rfl, -⟩ := Stage.calling.inj hstage
    exact hlive
  · cases phase with
    | stopRepeat t => exact fun key hkey => (mem_holdKeys.mp hkey).2
    | cancelHolds t rest => exact (h.covers i source remKey edge t rest arrived hi).1
  · cases phase with
    | stopRepeat t => exact fun key hkey hkey' => mem_holdKeys.mpr ⟨hkey, hkey'⟩
    | cancelHolds t rest => exact (h.covers i source remKey edge t rest arrived hi).2

/-- Every event in turn keeps the invariant. -/
theorem inv_step {S : Setup} {s s' : System} {e : Event} (h : Inv S s) (hturn : InTurn S s e)
    (hstep : step S s e = some s') : Inv S s' := by
  cases e with
  | usb remKey edge =>
    obtain ⟨-, rfl⟩ := of_guard hstep
    exact inv_called h (acts_fresh hturn (by simp)) (placed_concat s.callers) .usb edge
  | tap remKey holdMs =>
    obtain rfl := Option.some.inj hstep
    exact inv_called h (acts_fresh hturn (by simp)) (placed_concat s.callers) _ .down
  | resumes i =>
    simp only [step] at hstep
    split at hstep
    case h_2 => cases hstep
    case h_1 source remKey edge phase arrived hi =>
      split at hstep
      case isTrue => cases hstep
      case isFalse hlive =>
        obtain rfl := Option.some.inj hstep
        exact inv_resumes h hi hlive
  | releases i =>
    simp only [step] at hstep
    split at hstep
    case h_2 => cases hstep
    case h_1 source remKey due hi =>
      obtain ⟨-, rfl⟩ := of_guard hstep
      exact inv_lifted h hi (hturn _ hi)
  | cancels i =>
    simp only [step] at hstep
    split at hstep
    case h_2 => cases hstep
    case h_1 source remKey due hi =>
      obtain rfl := Option.some.inj hstep
      exact inv_lifted h hi (hturn _ hi)
  | task t =>
    obtain ⟨d, hd, rfl⟩ := Option.map_eq_some_iff.mp hstep
    exact inv_task h hturn hd
  | setModeBindings mode =>
    obtain rfl := Option.some.inj hstep
    exact h.same ⟨h.tracked.congr rfl rfl rfl, rfl, fun _ _ => id, fun _ => id⟩
      fun _ _ _ _ _ _ htask _ => htask
  | speakerTakes =>
    obtain rfl := Option.some.inj hstep
    exact h.same ⟨h.tracked.congr rfl rfl rfl, rfl, fun _ _ => id, fun _ => id⟩
      fun _ _ _ _ _ _ htask _ => htask
  | tick ms =>
    obtain rfl := Option.some.inj hstep
    refine ⟨h.tracked.congr rfl rfl rfl, h.awaited, h.alone, h.covers, ?_, ?_, h.sound⟩
    · intro j source remKey edge phase arrived hj
      exact (h.arrived j source remKey edge phase arrived hj).trans (Nat.le_add_right _ _)
    · intro t task key minHoldMs flow trigger htask hkind
      obtain ⟨hof, arrived, hpressed, haged⟩ := h.pending t task key minHoldMs flow trigger htask hkind
      refine ⟨hof, arrived, hpressed, ?_⟩
      obtain ⟨kind, state, cancelled⟩ := task
      cases state with
      | created => exact Nat.le_trans haged (Nat.le_add_right _ _)
      | sleeping due => exact haged
      | ended => trivial
      | failed => trivial

/-- An action with a hold starts no flow itself. -/
theorem flows_of_holdMs {S : Setup} {s s' : State} {a : Action} {edge : Edge} {remKey : String}
    {idx : Nat} {minHoldMs : Int} (hms : S.holdMs a = some minHoldMs)
    (h : doAction S s a edge remKey idx = .ok s') : s'.flows = s.flows := by
  cases a with
  | noop => cases hms
  | ble usage code => cases hms
  | speaker whenEdge action kwargs => cases hms
  | flow name whenEdge value =>
    rw [Setup.holdMs] at hms
    split at hms
    case isTrue => cases hms
    case isFalse hrun =>
      obtain ⟨⟨hflow, hname⟩, hdown⟩ : (S.runFlow = true ∧ name ≠ "") ∧ whenEdge.isStr "down" = true := by
        simpa [not_or] using hrun
      have hup : whenEdge.isStr "up" = false := by
        cases whenEdge with
        | str t =>
          obtain rfl : t = "down" := by simpa [Json.isStr] using hdown
          rfl
        | _ => cases hdown
      cases hparse : parseMs value 0 0 5000 with
      | error e => simp [hparse] at hms
      | ok minHold =>
        obtain ⟨hpos, -⟩ := Option.ite_none_right_eq_some.mp (by simpa only [hparse] using hms)
        cases edge with
        | up =>
          have hs' : s = s' := by simpa [doAction, Edge.name, hup] using h
          rw [hs']
        | down =>
          have hs' : s' = s.scheduleHoldAction (remKey, idx) minHold name := by
            simpa [doAction, handleFlowAction, Edge.name, hdown, hup, hflow, hname, hparse, hpos]
              using h.symm
          rw [hs', State.scheduleHoldAction]
          split
          · rfl
          · rfl

/-- While the edges come in turn, each start of a flow on a long press has a press of its own. -/
theorem flow_starts_once {S : Setup} {es : List Event} {q : System}
    (h : execute (step S) {} es = some q) (hturn : Along (step S) (InTurn S) {} es) :
    StartsOnce S q.log ∧ ∀ s s' a edge remKey idx minHoldMs, S.holdMs a = some minHoldMs →
      doAction S s a edge remKey idx = .ok s' → s'.flows = s.flows := by
  refine ⟨startsOnce_of_sound ?_, fun s s' a edge remKey idx minHoldMs => flows_of_holdMs⟩
  exact ((reachableBy_of_execute h hturn).invariant (inv_start S) fun s e s' => inv_step).sound

def sampleSetup : Setup :=
  { hid := ⟨[], []⟩
    bindings := AList.singleton "watch" (
      [("rem_mode_1", [.noop, .flow "listen" (.str "down") (.int 1000)]),
        ("rem_vol_up", [.flow "power_off" (.str "down") (.int 500)])].foldl
        (fun d e => d.insert e.1 e.2) ∅)
    runFlow := true }

def longPress : List Event :=
  [.setModeBindings (some "watch"), .usb "rem_mode_1" .down, .task 0, .tick 1000, .task 0,
    .usb "rem_mode_1" .up]

theorem flow_starts_once_pressed : ∃ q, execute (step sampleSetup) {} longPress = some q ∧
    q.log = [.processed "rem_mode_1" .up 1000, .started ("rem_mode_1", 1) 1000 1000,
      .processed "rem_mode_1" .down 0] ∧ StartsOnce sampleSetup q.log := by
  have hlog : (execute (step sampleSetup) {} longPress).map System.log =
      some [.processed "rem_mode_1" .up 1000, .started ("rem_mode_1", 1) 1000 1000,
        .processed "rem_mode_1" .down 0] := by decide
  obtain ⟨q, hq, hlog⟩ := Option.map_eq_some_iff.mp hlog
  exact ⟨q, hq, hlog, (flow_starts_once hq (by decide)).1⟩

theorem not_startsOnce_twice {S : Setup} {key : HoldKey} {minHoldMs minHoldMs' : Int} {now now' : Nat}
    {log : List Entry} :
    ¬ StartsOnce S (.started key minHoldMs now :: .started key minHoldMs' now' :: log) := by
  intro h
  obtain ⟨-, since, arrived, before, hlog, hsince, -⟩ := h [] key minHoldMs now _ rfl
  cases since with
  | nil => cases hlog
  | cons e since =>
    obtain rfl := (List.cons.inj hlog).1
    exact absurd (hsince _ List.mem_cons_self) (by simp [Entry.concerns])

/-- Two taps come while the key is held and the first waits for the hold task: as it ends, it takes
the newer one out of the table. -/
def tapsInPress : List Event :=
  [.setModeBindings (some "watch"), .usb "rem_mode_1" .down, .task 0, .tick 900,
    .tap "rem_mode_1" 2000, .tap "rem_mode_1" 2000, .task 1, .task 0, .resumes 1, .task 2,
    .tick 1000, .task 1, .task 2]

/-- A volume key is held, and its repeat starts the hold anew. -/
def volumeHeld : List Event :=
  [.setModeBindings (some "watch"), .usb "rem_vol_up" .down, .task 0, .task 1, .tick 500,
    .task 1, .task 0, .tick 300, .task 1, .task 2, .tick 500, .task 2]

theorem flow_starts_twice :
    (∃ q, execute (step sampleSetup) {} tapsInPress = some q ∧ ¬ StartsOnce sampleSetup q.log) ∧
      ∃ q, execute (step sampleSetup) {} volumeHeld = some q ∧ ¬ StartsOnce sampleSetup q.log := by
  have htaps : (execute (step sampleSetup) {} tapsInPress).map System.log =
      some [.started ("rem_mode_1", 1) 1000 1900, .started ("rem_mode_1", 1) 1000 1900,
        .processed "rem_mode_1" .down 900, .processed "rem_mode_1" .down 900,
        .processed "rem_mode_1" .down 0] := by decide
  have hheld : (execute (step sampleSetup) {} volumeHeld).map System.log =
      some [.started ("rem_vol_up", 0) 500 1300, .started ("rem_vol_up", 0) 500 500,
        .processed "rem_vol_up" .down 0] := by decide
  obtain ⟨q, hq, hlog⟩ := Option.map_eq_some_iff.mp htaps
  obtain ⟨r, hr, hlog'⟩ := Option.map_eq_some_iff.mp hheld
  exact ⟨⟨q, hq, hlog ▸ not_startsOnce_twice⟩, r, hr, hlog' ▸ not_startsOnce_twice⟩

end PiHub.HoldFlows

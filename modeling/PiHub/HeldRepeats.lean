import PiHub.HoldFlows

/-! The volume keys' repeats (`_start_repeat` and `_stop_repeat`, dispatcher.py), under edges from the
remote's worker and from HTTP taps, mode changes, and `on_usb_disconnect`. -/
namespace PiHub.HeldRepeats
open PiHub.Transition PiHub.Keymap PiHub.LiveTable PiHub.Dispatcher
open PiHub.HoldFlows (Source Stage Caller)

/-- The dispatcher with its callers, and `on_usb_disconnect` where it waits. Recorded are the keys whose
last edge from the remote that was handled is a key-down, with no disconnect since, and the ticks of
the repeat tasks, newest first. -/
structure System where
  calls : HoldFlows.System := {}
  disconnecting : Option DisconnectPhase := none
  heldUsb : List String := []
  ticks : List (String × Nat) := []

abbrev System.dispatcher (s : System) : State := s.calls.dispatcher

inductive Event where
  | calls (e : HoldFlows.Event)
  | disconnects
  | disconnectResumes

/-- The call of that caller has ended. -/
def handled (s : HoldFlows.System) (i : Nat) : Bool :=
  s.callers[i]?.any fun c => c.stage = .over

/-- The keys the remote holds, after a step of the calls. -/
def heldAfter (before after : HoldFlows.System) (held : List String) : HoldFlows.Event → List String
  | .usb remKey .up => held.filter fun k => k ≠ remKey
  | .usb remKey .down => if handled after before.callers.length then remKey :: held else held
  | .resumes i =>
    match before.callers[i]? with
    | some ⟨.usb, remKey, .calling .down _ _⟩ => if handled after i then remKey :: held else held
    | _ => held
  | _ => held

/-- The key whose repeat task ticks in the step. -/
def ticking (s : State) : HoldFlows.Event → Option String
  | .task t =>
    match s.tasks[t]? with
    | some ⟨.repeats remKey, .sleeping _, false⟩ => some remKey
    | _ => none
  | _ => none

def System.disconnected (s : System) (held : List String) (r : State × Progress DisconnectPhase) :
    System :=
  { s with
    calls := { s.calls with dispatcher := r.1 }
    disconnecting :=
      match r.2 with
      | .waits phase => some phase
      | _ => none
    heldUsb := held }

def step (S : Setup) (s : System) : Event → Option System
  | .calls e =>
    (HoldFlows.step S s.calls e).map fun c =>
      { s with
        calls := c
        heldUsb := heldAfter s.calls c s.heldUsb e
        ticks := (ticking s.dispatcher e).toList.map (·, s.dispatcher.now) ++ s.ticks }
  | .disconnects =>
    if s.disconnecting = none then some (s.disconnected [] (onUsbDisconnect s.dispatcher)) else none
  | .disconnectResumes =>
    match s.disconnecting with
    | some phase =>
      if s.dispatcher.Live phase.task then none
      else some (s.disconnected s.heldUsb (resumeDisconnect s.dispatcher phase))
    | none => none

/-! ### The repeat tasks that still run -/

/-- The key and state of a repeat task that is neither done nor cancelled. -/
def Task.repeating (task : Task) : Option (String × TaskState) :=
  if task.cancelled = false ∧ ¬ task.Done then task.kind.repeatKey?.map (·, task.state) else none

def repeating (s : State) (t : Nat) : Option (String × TaskState) :=
  s.tasks[t]?.bind Task.repeating

/-- No repeat is started, and none that still runs has taken a step. -/
structure Quiet (s s' : State) : Prop where
  now : s'.now = s.now
  repeatTasks : s'.repeatTasks = s.repeatTasks
  repeating : ∀ t x, repeating s' t = some x → repeating s t = some x

namespace Quiet
variable {s s' s'' : State}

theorem refl (s : State) : Quiet s s := ⟨rfl, rfl, fun _ _ h => h⟩

theorem trans (h : Quiet s s') (h' : Quiet s' s'') : Quiet s s'' :=
  ⟨h'.now.trans h.now, h'.repeatTasks.trans h.repeatTasks,
    fun t x hx => h.repeating t x (h'.repeating t x hx)⟩

theorem congr (hnow : s'.now = s.now) (hrepeat : s'.repeatTasks = s.repeatTasks)
    (htasks : s'.tasks = s.tasks) : Quiet s s' :=
  ⟨hnow, hrepeat, fun t x hx => by rwa [HeldRepeats.repeating, htasks] at hx⟩

end Quiet

theorem repeating_cancel (s : State) (t t' : Nat) :
    repeating (s.cancel t) t' = if t' = t then none else repeating s t' := by
  simp only [repeating, State.cancel, List.getElem?_modify]
  by_cases ht : t' = t
  · subst ht
    cases s.tasks[t']? <;> simp [Task.repeating]
  · simp [ht, Ne.symm ht]

theorem quiet_cancel (s : State) (t : Nat) : Quiet s (s.cancel t) := by
  refine ⟨rfl, rfl, fun t' x hx => ?_⟩
  rw [repeating_cancel] at hx
  split at hx
  · cases hx
  · exact hx

theorem repeating_create (s : State) (kind : TaskKind) (t : Nat) :
    repeating (s.create kind) t =
      if t = s.tasks.length then kind.repeatKey?.map (·, .created) else repeating s t := by
  rw [repeating, repeating, getElem?_create]
  by_cases ht : t = s.tasks.length
  · rw [if_pos ht, if_pos ht]
    rfl
  · rw [if_neg ht, if_neg ht]

theorem quiet_create (s : State) {kind : TaskKind} (hkind : kind.repeatKey? = none) :
    Quiet s (s.create kind) := by
  refine ⟨rfl, rfl, fun t x hx => ?_⟩
  rw [repeating_create, hkind] at hx
  split at hx
  · cases hx
  · exact hx

theorem quiet_scheduleHoldAction (s : State) (key : HoldKey) (minHoldMs : Int) (name : String) :
    Quiet s (s.scheduleHoldAction key minHoldMs name) := by
  unfold State.scheduleHoldAction
  split
  · exact .refl s
  · exact (quiet_create s rfl).trans (.congr rfl rfl rfl)

theorem quiet_runActions (S : Setup) (remKey : String) (edge : Edge) (s : State)
    (as : List (Action × Nat)) : Quiet s (runActions S remKey edge s as).1 := by
  refine runActions_induct (P := Quiet s) ?_ (.refl s)
  intro t t' a idx hmem hdo h
  obtain rfl | ⟨-, ⟨job, rfl⟩ | ⟨name, rfl⟩ | ⟨minHold, name, -, -, rfl⟩⟩ := doAction_cases hdo
  · exact h.trans (.congr (hand_acted ..).now (hand_acted ..).repeatTasks (hand_tasks ..))
  · exact h.trans (.congr rfl rfl rfl)
  · exact h.trans (.congr rfl rfl rfl)
  · exact h.trans (quiet_scheduleHoldAction ..)

theorem quiet_cancelHoldTasks (s : State) (keys : List HoldKey) :
    Quiet s (s.cancelHoldTasks keys).1 := by
  induction keys generalizing s with
  | nil => exact .refl s
  | cons key keys ih =>
    rw [State.cancelHoldTasks]
    split
    · exact ih s
    · next t ht =>
      have hcancel : Quiet s ((s.popHold key).cancel t) :=
        (Quiet.congr rfl rfl rfl : Quiet s (s.popHold key)).trans (quiet_cancel _ t)
      dsimp only
      split
      · exact hcancel
      · exact hcancel.trans (ih _)

/-! ### What the edges do to them -/

theorem quiet_runEdge_up (S : Setup) (s : State) (remKey : String) :
    Quiet s (runEdge S s remKey .up).1 := by
  have hran := quiet_runActions S remKey .up s (S.actions s.mode remKey).zipIdx
  unfold runEdge
  dsimp only
  split
  · exact hran.trans (.congr rfl rfl rfl)
  · exact hran

theorem quiet_cancelThenRun_up (S : Setup) (s : State) (remKey : String) (keys : List HoldKey) :
    Quiet s (cancelThenRun S s remKey .up keys).1 := by
  have hcancel := quiet_cancelHoldTasks s keys
  unfold cancelThenRun
  split
  · next heq =>
    rw [heq] at hcancel
    exact hcancel
  · next heq =>
    rw [heq] at hcancel
    exact hcancel.trans (quiet_runEdge_up S _ remKey)

/-- A key-up takes the key's repeat task out of the table, and cancels it, in its first step. -/
theorem onUsbEdge_up (S : Setup) (s : State) (remKey : String) :
    (onUsbEdge S s remKey .up).1.repeatTasks.lookup remKey = none ∧
      ∃ u, (u = s ∨ ∃ t, s.repeatTasks.lookup remKey = some t ∧ u = (s.popRepeat remKey).cancel t) ∧
        Quiet u (onUsbEdge S s remKey .up).1 := by
  cases hlookup : s.repeatTasks.lookup remKey with
  | none =>
    rw [onUsbEdge_up_none S hlookup]
    have hquiet := quiet_cancelThenRun_up S s remKey (s.holdKeys remKey)
    exact ⟨by rw [hquiet.repeatTasks, hlookup], s, Or.inl rfl, hquiet⟩
  | some t =>
    have hpopped : ((s.popRepeat remKey).cancel t).repeatTasks.lookup remKey = none :=
      AList.lookup_erase remKey s.repeatTasks
    have hquiet : Quiet ((s.popRepeat remKey).cancel t) (onUsbEdge S s remKey .up).1 := by
      simp only [onUsbEdge, hlookup]
      split
      · exact .refl _
      · split
        · exact .refl _
        · exact quiet_cancelThenRun_up ..
    exact ⟨by rw [hquiet.repeatTasks, hpopped], _, Or.inr ⟨t, rfl, rfl⟩, hquiet⟩

theorem quiet_resumeEdge_up (S : Setup) (s : State) (remKey : String) (phase : EdgePhase) :
    Quiet s (resumeEdge S s remKey .up phase).1 := by
  cases phase with
  | stopRepeat t =>
    rw [resumeEdge]
    split
    · exact .refl s
    · exact quiet_cancelThenRun_up ..
  | cancelHolds t rest => exact quiet_cancelThenRun_up ..

/-- A key-down starts the repeat, if at all, as it returns. -/
def StartsLast (s : State) (remKey : String) (r : State × Progress EdgePhase) : Prop :=
  Quiet s r.1 ∨ r.2 = .returns ∧ ∃ u, Quiet s u ∧ r.1 = u.startRepeat remKey

theorem cancelThenRun_down (S : Setup) (s : State) (remKey : String) (keys : List HoldKey) :
    StartsLast s remKey (cancelThenRun S s remKey .down keys) := by
  have hcancel := quiet_cancelHoldTasks s keys
  unfold cancelThenRun
  split
  · next heq =>
    rw [heq] at hcancel
    exact Or.inl hcancel
  · next u heq =>
    rw [heq] at hcancel
    have hran := hcancel.trans (quiet_runActions S remKey .down u (S.actions u.mode remKey).zipIdx)
    unfold runEdge
    dsimp only
    split
    · split
      · exact Or.inr ⟨rfl, _, hran, rfl⟩
      · exact Or.inl hran
    · exact Or.inl hran

theorem edgeStep_down (S : Setup) (s : State) (remKey : String) (phase : Option EdgePhase) :
    StartsLast s remKey (edgeStep S s remKey .down phase) := by
  cases phase with
  | none =>
    have hpressed : Quiet s { s with pressedAt := s.pressedAt.insert remKey s.now } :=
      .congr rfl rfl rfl
    obtain hquiet | ⟨hreturns, u, hquiet, hstart⟩ :=
      cancelThenRun_down S { s with pressedAt := s.pressedAt.insert remKey s.now } remKey
        (State.holdKeys { s with pressedAt := s.pressedAt.insert remKey s.now } remKey)
    · exact Or.inl (hpressed.trans hquiet)
    · exact Or.inr ⟨hreturns, u, hpressed.trans hquiet, hstart⟩
  | some phase =>
    cases phase with
    | stopRepeat t =>
      rw [edgeStep, resumeEdge]
      split
      · exact Or.inl (.refl s)
      · exact cancelThenRun_down ..
    | cancelHolds t rest => exact cancelThenRun_down ..

/-! ### What a disconnect does to them -/

theorem quiet_cancelAll (s : State) (ts : List Nat) : Quiet s (s.cancelAll ts) := by
  unfold State.cancelAll
  induction ts generalizing s with
  | nil => exact .refl s
  | cons t ts ih => exact (quiet_cancel s t).trans (ih (s.cancel t))

theorem repeating_cancelAll {s : State} {ts : List Nat} {t : Nat} {x : String × TaskState}
    (h : repeating (s.cancelAll ts) t = some x) : t ∉ ts := by
  unfold State.cancelAll at h
  induction ts generalizing s with
  | nil => exact List.not_mem_nil
  | cons t' ts ih =>
    rw [List.mem_cons, not_or]
    refine ⟨fun heq => ?_, ih h⟩
    have hcancelled := (quiet_cancelAll (s.cancel t') ts).repeating t x h
    rw [repeating_cancel, if_pos heq] at hcancelled
    cases hcancelled

theorem quiet_awaitHolds (s : State) (ts : List Nat) : Quiet s (awaitHolds s ts).1 := by
  unfold awaitHolds
  split
  · exact .refl s
  · exact .refl s
  · exact .congr rfl rfl rfl

theorem quiet_awaitRepeats (s : State) (ts : List Nat) : Quiet s (awaitRepeats s ts).1 := by
  unfold awaitRepeats
  split
  · exact .refl s
  · exact .refl s
  · have hcleared : Quiet s { s with holdTasks := ∅ } := .congr rfl rfl rfl
    exact (hcleared.trans (quiet_cancelAll _ _)).trans (quiet_awaitHolds _ _)

theorem quiet_resumeDisconnect (s : State) (phase : DisconnectPhase) :
    Quiet s (resumeDisconnect s phase).1 := by
  cases phase with
  | repeats t rest => exact quiet_awaitRepeats s (t :: rest)
  | holds t rest => exact quiet_awaitHolds s (t :: rest)

/-! ### What a task's own steps do to them -/

theorem repeating_setTask (s : State) (t t' : Nat) (state : TaskState) :
    repeating (s.setTask t state) t' =
      if t' = t then s.tasks[t]?.bind fun task => Task.repeating { task with state := state }
      else repeating s t' := by
  simp only [repeating, State.setTask, List.getElem?_modify]
  by_cases ht : t' = t
  · subst ht
    cases s.tasks[t']? <;> simp
  · simp [ht, Ne.symm ht]

theorem quiet_ended (s : State) (t : Nat) : Quiet s (s.setTask t .ended) := by
  refine ⟨rfl, rfl, fun t' x hx => ?_⟩
  rw [repeating_setTask] at hx
  split at hx
  · cases htask : s.tasks[t]? <;> simp [htask, Task.repeating, Task.Done] at hx
  · exact hx

/-- A hold task goes to sleep. -/
theorem quiet_holdSleeps {s : State} {t : Nat} {key : HoldKey} {minHoldMs : Int} {name trigger : String}
    {state : TaskState} (h : s.tasks[t]? = some ⟨.hold key minHoldMs name trigger, state, false⟩)
    (due : Nat) : Quiet s (s.setTask t (.sleeping due)) := by
  refine ⟨rfl, rfl, fun t' x hx => ?_⟩
  rw [repeating_setTask] at hx
  split at hx
  · simp [h, Task.repeating, TaskKind.repeatKey?] at hx
  · exact hx

/-- A step of a task starts the first sleep of a repeat, or is its tick, or leaves the repeats alone. -/
inductive TaskChange (s : State) (t : Nat) (s' : State) : Prop
  | quiet : ticking s (.task t) = none → Quiet s s' → TaskChange s t s'
  | starts (remKey : String) : s.tasks[t]? = some ⟨.repeats remKey, .created, false⟩ →
      s' = s.setTask t (.sleeping (s.now + repeatInitialMs)) → TaskChange s t s'
  | ticks (remKey : String) (due : Nat) (u : State) (state : TaskState) :
      s.tasks[t]? = some ⟨.repeats remKey, .sleeping due, false⟩ → due ≤ s.now → Quiet s u →
      u.tasks[t]? = s.tasks[t]? → state = .failed ∨ state = .sleeping (s.now + repeatRateMs) →
      s' = u.setTask t state → TaskChange s t s'

theorem taskStep_change {S : Setup} {s s' : State} {t : Nat} (h : taskStep S s t = some s') :
    TaskChange s t s' := by
  unfold taskStep at h
  cases htask : s.tasks[t]? with
  | none =>
    rw [htask] at h
    cases h
  | some task =>
    obtain ⟨kind, state, cancelled⟩ := task
    rw [htask] at h
    have hnone (hkind : ∀ remKey due, (⟨kind, state, cancelled⟩ : Task) ≠
        ⟨.repeats remKey, .sleeping due, false⟩) : ticking s (.task t) = none := by
      simp only [ticking, htask]
      split
      · next heq => exact absurd (Option.some.inj heq) (hkind _ _)
      · rfl
    cases state with
    | ended | failed => cases h
    | created =>
      cases cancelled with
      | true =>
        obtain rfl := Option.some.inj h
        exact .quiet (hnone (by simp)) (quiet_ended s t)
      | false =>
        cases kind with
        | repeats remKey =>
          obtain rfl := Option.some.inj h
          exact .starts remKey htask rfl
        | hold key minHoldMs name trigger =>
          obtain rfl := Option.some.inj h
          exact .quiet (hnone (by simp)) (quiet_holdSleeps htask _)
    | sleeping due =>
      cases cancelled with
      | true =>
        have hquiet := quiet_ended s t
        cases kind with
        | repeats remKey =>
          obtain rfl := Option.some.inj h
          exact .quiet (hnone (by simp)) hquiet
        | hold key minHoldMs name trigger =>
          obtain rfl := Option.some.inj h
          exact .quiet (hnone (by simp)) (hquiet.trans (.congr rfl rfl rfl))
      | false =>
        cases kind with
        | repeats remKey =>
          obtain ⟨hdue, rfl⟩ := of_guard h
          have hran := quiet_runActions S remKey .down s
            ((S.actions s.mode remKey).zipIdx.filter fun a => repeatable a.1)
          obtain ⟨new, hnew, -⟩ := HoldFlows.runActions_adds S remKey .down s
            ((S.actions s.mode remKey).zipIdx.filter fun a => repeatable a.1)
          have hlt := (List.getElem?_eq_some_iff.mp htask).1
          refine .ticks remKey due _ _ htask hdue hran ?_ ?_ rfl
          · rw [hnew, List.getElem?_append_left hlt]
          · split
            · exact Or.inr rfl
            · exact Or.inl rfl
        | hold key minHoldMs name trigger =>
          obtain ⟨hdue, rfl⟩ := of_guard h
          refine .quiet (hnone (by simp)) ?_
          have hspawn : Quiet s (if (s.pressedAt.lookup key.1).isSome then s.spawnFlow name trigger
              else s) := by
            split
            · exact .congr rfl rfl rfl
            · exact .refl s
          exact (hspawn.trans (quiet_ended _ t)).trans (.congr rfl rfl rfl)

/-! ### The ticks -/

/-- A key has at most one repeat task that runs, which is in the table; it next ticks no sooner than
the repeat rate allows after the key's last tick. -/
structure Spaced (s : State) (ticks : List (String × Nat)) : Prop where
  listed : ∀ t remKey state, repeating s t = some (remKey, state) →
    s.repeatTasks.lookup remKey = some t
  past : ∀ remKey at', (remKey, at') ∈ ticks → at' ≤ s.now
  due : ∀ t remKey due at', repeating s t = some (remKey, .sleeping due) → (remKey, at') ∈ ticks →
    at' + repeatRateMs ≤ due
  apart : ticks.Pairwise fun later earlier =>
    later.1 = earlier.1 → earlier.2 + repeatRateMs ≤ later.2

namespace Spaced
variable {s s' : State} {ticks : List (String × Nat)}

theorem quiet (h : Spaced s ticks) (hquiet : Quiet s s') : Spaced s' ticks where
  listed := fun t remKey state hx => by
    rw [hquiet.repeatTasks]
    exact h.listed t remKey state (hquiet.repeating t _ hx)
  past := fun remKey at' hat => by
    rw [hquiet.now]
    exact h.past remKey at' hat
  due := fun t remKey due at' hx hat => h.due t remKey due at' (hquiet.repeating t _ hx) hat
  apart := h.apart

theorem popRepeat (h : Spaced s ticks) {remKey : String} {t : Nat}
    (hlookup : s.repeatTasks.lookup remKey = some t) :
    Spaced ((s.popRepeat remKey).cancel t) ticks := by
  have hpopped : ∀ t' x, repeating ((s.popRepeat remKey).cancel t) t' = some x →
      t' ≠ t ∧ repeating s t' = some x := by
    intro t' x hx
    rw [repeating_cancel] at hx
    split at hx
    · cases hx
    · next hne => exact ⟨hne, hx⟩
  refine ⟨fun t' k state hx => ?_, h.past, fun t' k due at' hx hat => ?_, h.apart⟩
  · obtain ⟨hne, hold⟩ := hpopped t' _ hx
    have hlisted := h.listed t' k state hold
    have hkey : k ≠ remKey := fun heq => hne (Option.some.inj ((heq ▸ hlisted).symm.trans hlookup))
    exact (AList.lookup_erase_ne hkey).trans hlisted
  · exact h.due t' k due at' (hpopped t' _ hx).2 hat

theorem startRepeat (h : Spaced s ticks) (remKey : String) : Spaced (s.startRepeat remKey) ticks := by
  unfold State.startRepeat
  split
  · exact h
  · next hfree =>
    have hnone : s.repeatTasks.lookup remKey = none := by simpa using hfree
    have hcreated : ∀ t x, repeating (s.create (.repeats remKey)) t = some x →
        t = s.tasks.length ∧ x = (remKey, .created) ∨ repeating s t = some x := by
      intro t x hx
      rw [repeating_create] at hx
      split at hx
      · next ht => exact Or.inl ⟨ht, (Option.some.inj hx).symm⟩
      · exact Or.inr hx
    refine ⟨fun t k state hx => ?_, h.past, fun t k due at' hx hat => ?_, h.apart⟩
    · obtain ⟨rfl, heq⟩ | hold := hcreated t _ hx
      · rw [(Prod.mk.inj heq).1]
        exact AList.lookup_insert _
      · have hlisted := h.listed t k state hold
        have hkey : k ≠ remKey := fun heq => by
          rw [heq, hnone] at hlisted
          cases hlisted
        exact (AList.lookup_insert_ne hkey).trans hlisted
    · obtain ⟨-, heq⟩ | hold := hcreated t _ hx
      · cases (Prod.mk.inj heq).2
      · exact h.due t k due at' hold hat

/-- `_cancel_all_repeat_tasks` leaves no repeat task to run. -/
theorem cleared (h : Spaced s ticks) :
    Spaced ({ s with repeatTasks := ∅ }.cancelAll (values s.repeatTasks)) ticks := by
  have hquiet := quiet_cancelAll { s with repeatTasks := ∅ } (values s.repeatTasks)
  have hnone : ∀ t x,
      repeating (State.cancelAll { s with repeatTasks := ∅ } (values s.repeatTasks)) t ≠ some x := by
    intro t x hx
    have hlisted := h.listed t x.1 x.2 (hquiet.repeating t x hx)
    exact repeating_cancelAll hx (mem_values.mpr ⟨x.1, hlisted⟩)
  refine ⟨fun t k state hx => absurd hx (hnone t _), fun k at' hat => ?_,
    fun t k due at' hx => absurd hx (hnone t _), h.apart⟩
  rw [hquiet.now]
  exact h.past k at' hat

/-- A repeat task's next sleep. -/
theorem sleeps (h : Spaced s ticks) {t : Nat} {remKey : String} {state : TaskState} {due : Nat}
    (htask : s.tasks[t]? = some ⟨.repeats remKey, state, false⟩) (hdone : state ≠ .ended)
    (hfailed : state ≠ .failed) (hdue : ∀ at', (remKey, at') ∈ ticks → at' + repeatRateMs ≤ due) :
    Spaced (s.setTask t (.sleeping due)) ticks := by
  have hself : repeating s t = some (remKey, state) := by
    simp [repeating, htask, Task.repeating, Task.Done, TaskKind.repeatKey?, hdone, hfailed]
  have hset : ∀ t' x, repeating (s.setTask t (.sleeping due)) t' = some x →
      t' = t ∧ x = (remKey, .sleeping due) ∨ repeating s t' = some x := by
    intro t' x hx
    rw [repeating_setTask] at hx
    split at hx
    · next ht =>
      refine Or.inl ⟨ht, ?_⟩
      simpa [htask, Task.repeating, Task.Done, TaskKind.repeatKey?] using hx.symm
    · exact Or.inr hx
  refine ⟨fun t' k state' hx => ?_, h.past, fun t' k due' at' hx hat => ?_, h.apart⟩
  · obtain ⟨rfl, heq⟩ | hold := hset t' _ hx
    · rw [(Prod.mk.inj heq).1]
      exact h.listed t' remKey state hself
    · exact h.listed t' k state' hold
  · obtain ⟨-, heq⟩ | hold := hset t' _ hx
    · obtain ⟨rfl, hsleep⟩ := Prod.mk.inj heq
      obtain rfl := TaskState.sleeping.inj hsleep
      exact hdue at' hat
    · exact h.due t' k due' at' hold hat

theorem fails (h : Spaced s ticks) (t : Nat) : Spaced (s.setTask t .failed) ticks := by
  refine h.quiet ⟨rfl, rfl, fun t' x hx => ?_⟩
  rw [repeating_setTask] at hx
  split at hx
  · cases htask : s.tasks[t]? <;> simp [htask, Task.repeating, Task.Done] at hx
  · exact hx

/-- The key ticks now: its task had slept until the rate allowed it. -/
theorem ticks_cons (h : Spaced s ticks) {t : Nat} {remKey : String} {due : Nat}
    (hself : repeating s t = some (remKey, .sleeping due)) (hover : due ≤ s.now) :
    ((remKey, s.now) :: ticks).Pairwise fun later earlier =>
      later.1 = earlier.1 → earlier.2 + repeatRateMs ≤ later.2 := by
  refine List.pairwise_cons.mpr ⟨fun tick htick hkey => ?_, h.apart⟩
  obtain ⟨k, at'⟩ := tick
  obtain rfl : remKey = k := hkey
  exact Nat.le_trans (h.due t remKey due at' hself htick) hover

/-- The tick is recorded; what still runs of the key's repeat sleeps for the rate. -/
theorem ticked (h : Spaced s ticks) {remKey : String}
    (hapart : ((remKey, s.now) :: ticks).Pairwise fun later earlier =>
      later.1 = earlier.1 → earlier.2 + repeatRateMs ≤ later.2)
    (hdue : ∀ t due, repeating s t = some (remKey, .sleeping due) → s.now + repeatRateMs ≤ due) :
    Spaced s ((remKey, s.now) :: ticks) where
  listed := h.listed
  past := fun k at' hat => by
    obtain heq | hold := List.mem_cons.mp hat
    · exact Nat.le_of_eq (Prod.mk.inj heq).2
    · exact h.past k at' hold
  due := fun t k due at' hx hat => by
    obtain heq | hold := List.mem_cons.mp hat
    · obtain ⟨rfl, rfl⟩ := Prod.mk.inj heq
      exact hdue t due hx
    · exact h.due t k due at' hx hold
  apart := hapart

/-- A step of a task keeps the spacing, and the table. -/
theorem task (h : Spaced s ticks) {t : Nat} (hchange : TaskChange s t s') :
    Spaced s' ((ticking s (.task t)).toList.map (·, s.now) ++ ticks) ∧
      s'.repeatTasks = s.repeatTasks := by
  obtain ⟨hnone, hquiet⟩ | ⟨remKey, htask, rfl⟩ | ⟨remKey, due, u, state, htask, hover, hquiet, hsame,
    hstate, rfl⟩ := hchange
  · rw [hnone]
    exact ⟨h.quiet hquiet, hquiet.repeatTasks⟩
  · have hnone : ticking s (.task t) = none := by simp [ticking, htask]
    rw [hnone]
    refine ⟨h.sleeps htask (by simp) (by simp) fun at' hat => ?_, rfl⟩
    have hpast := h.past remKey at' hat
    have hle : repeatRateMs ≤ repeatInitialMs := by decide
    omega
  · have htick : ticking s (.task t) = some remKey := by simp [ticking, htask]
    have hself : repeating s t = some (remKey, .sleeping due) := by
      simp [repeating, htask, Task.repeating, Task.Done, TaskKind.repeatKey?]
    have hu := h.quiet hquiet
    have htasku : u.tasks[t]? = some ⟨.repeats remKey, .sleeping due, false⟩ := hsame.trans htask
    have hset : Spaced (u.setTask t state) ticks := by
      obtain rfl | rfl := hstate
      · exact hu.fails t
      · refine hu.sleeps htasku (by simp) (by simp) fun at' hat => ?_
        exact Nat.add_le_add_right (h.past remKey at' hat) _
    have hnow : (u.setTask t state).now = s.now := hquiet.now
    have hapart := h.ticks_cons hself hover
    rw [htick]
    refine ⟨?_, hquiet.repeatTasks⟩
    rw [← hnow] at hapart ⊢
    refine hset.ticked hapart fun t' due' hx => ?_
    -- the table has one entry for the key, so it is the task that has just ticked
    obtain rfl : t' = t := by
      have hlisted := hset.listed t' remKey _ hx
      have hticked := h.listed t remKey _ hself
      rw [show (u.setTask t state).repeatTasks = s.repeatTasks from hquiet.repeatTasks] at hlisted
      exact Option.some.inj (hlisted.symm.trans hticked)
    rw [repeating_setTask, if_pos rfl, htasku] at hx
    obtain rfl | rfl := hstate
    · simp [Task.repeating, Task.Done] at hx
    · have hsleep : s.now + repeatRateMs = due' := by
        simpa [Task.repeating, Task.Done, TaskKind.repeatKey?] using hx
      rw [hnow]
      exact Nat.le_of_eq hsleep

end Spaced

/-! ### Who holds the key -/

/-- Some source has the key down: the remote, by its last edge that was handled, or a tap in its
sleep. -/
def System.Held (s : System) (remKey : String) : Prop :=
  remKey ∈ s.heldUsb ∨ ∃ c ∈ s.calls.callers, c.remKey = remKey ∧ ∃ due, c.stage = .holding due

structure Inv (s : System) : Prop where
  spaced : Spaced s.dispatcher s.ticks
  held : ∀ remKey t, s.dispatcher.repeatTasks.lookup remKey = some t → s.Held remKey

theorem inv_start : Inv {} where
  spaced := ⟨(fun t k state hx => by cases hx), (fun k at' hat => by cases hat),
    (fun t k due at' hx => by cases hx), List.Pairwise.nil⟩
  held := fun k t hlookup => by cases hlookup

/-- A caller that is not the one that has moved on. -/
theorem mem_set_of_ne {callers : List Caller} {i : Nat} {c old new : Caller}
    (hold : callers[i]? = some old) (hc : c ∈ callers) (hne : c ≠ old) : c ∈ callers.set i new := by
  obtain ⟨j, hj⟩ := List.mem_iff_getElem?.mp hc
  have hij : i ≠ j := fun heq => hne (Option.some.inj (hj.symm.trans (heq ▸ hold)))
  exact List.mem_iff_getElem?.mpr ⟨j, by rw [List.getElem?_set_ne hij, hj]⟩

theorem System.Held.mono {s s' : System} {remKey : String} (h : s.Held remKey)
    (husb : remKey ∈ s.heldUsb → remKey ∈ s'.heldUsb)
    (hcallers : ∀ c ∈ s.calls.callers, c.remKey = remKey → (∃ due, c.stage = .holding due) →
      c ∈ s'.calls.callers) : s'.Held remKey := by
  obtain hmem | ⟨c, hc, hkey, hholding⟩ := h
  · exact Or.inl (husb hmem)
  · exact Or.inr ⟨c, hcallers c hc hkey hholding, hkey, hholding⟩

/-- What a step of a key-down's call does to the spacing and the table. -/
theorem StartsLast.kept {d : State} {remKey : String} {r : State × Progress EdgePhase}
    {ticks : List (String × Nat)} (h : StartsLast d remKey r) (hspaced : Spaced d ticks) :
    Spaced r.1 ticks ∧ ∀ k t, r.1.repeatTasks.lookup k = some t →
      (∃ t', d.repeatTasks.lookup k = some t') ∨ k = remKey ∧ r.2 = .returns := by
  obtain hquiet | ⟨hreturns, u, hquiet, hstart⟩ := h
  · refine ⟨hspaced.quiet hquiet, fun k t hlookup => Or.inl ⟨t, ?_⟩⟩
    rw [← hquiet.repeatTasks]
    exact hlookup
  · rw [hstart]
    refine ⟨(hspaced.quiet hquiet).startRepeat remKey, fun k t hlookup => ?_⟩
    obtain hold | rfl := mem_startRepeat (AList.lookup_isSome.mp (Option.isSome_of_mem hlookup))
    · rw [hquiet.repeatTasks] at hold
      exact Or.inl (Option.isSome_iff_exists.mp (AList.lookup_isSome.mpr hold))
    · exact Or.inr ⟨rfl, hreturns⟩

/-- What the first step of a key-up's call does to the spacing and the table. -/
theorem onUsbEdge_up_kept (S : Setup) {d : State} (remKey : String) {ticks : List (String × Nat)}
    (hspaced : Spaced d ticks) : Spaced (onUsbEdge S d remKey .up).1 ticks ∧
      ∀ k t, (onUsbEdge S d remKey .up).1.repeatTasks.lookup k = some t →
        k ≠ remKey ∧ d.repeatTasks.lookup k = some t := by
  obtain ⟨hnone, u, hu, hquiet⟩ := onUsbEdge_up S d remKey
  have hother : ∀ k t, (onUsbEdge S d remKey .up).1.repeatTasks.lookup k = some t → k ≠ remKey := by
    rintro k t hlookup rfl
    rw [hnone] at hlookup
    cases hlookup
  obtain rfl | ⟨t', hlookup', rfl⟩ := hu
  · refine ⟨hspaced.quiet hquiet, fun k t hlookup => ⟨hother k t hlookup, ?_⟩⟩
    rw [← hquiet.repeatTasks]
    exact hlookup
  · refine ⟨(hspaced.popRepeat hlookup').quiet hquiet, fun k t hlookup => ?_⟩
    have hkey := hother k t hlookup
    rw [hquiet.repeatTasks] at hlookup
    exact ⟨hkey, (AList.lookup_erase_ne hkey).symm.trans hlookup⟩

/-- The call of a key-down takes a step; `place` puts its caller among the others. -/
theorem Inv.down {S : Setup} {s : System} (h : Inv s) (source : Source) (remKey : String)
    (phase : Option EdgePhase) (arrived : Nat) (place : Caller → List Caller)
    (hplaced : ∀ c, c ∈ place c)
    (hkept : ∀ new, ∀ c ∈ s.calls.callers, (∃ due, c.stage = .holding due) → c ∈ place new)
    {held : List String} (hheld : ∀ k ∈ s.heldUsb, k ∈ held)
    (hreturned : source = .usb → (edgeStep S s.dispatcher remKey .down phase).2 = .returns →
      remKey ∈ held) :
    Inv { s with
      calls := s.calls.called source remKey .down arrived place
        (edgeStep S s.dispatcher remKey .down phase)
      heldUsb := held } := by
  obtain ⟨hspaced, htable⟩ := (edgeStep_down S s.dispatcher remKey phase).kept h.spaced
  refine ⟨hspaced, fun k t hlookup => ?_⟩
  obtain ⟨t', hold⟩ | ⟨rfl, hreturns⟩ := htable k t hlookup
  · exact (h.held k t' hold).mono (hheld k) fun c hc _ => hkept _ c hc
  · cases source with
    | usb => exact Or.inl (hreturned rfl hreturns)
    | tap holdMs =>
      refine Or.inr ⟨_, hplaced _, rfl, s.dispatcher.now + holdMs, ?_⟩
      rw [hreturns]
      rfl

/-- The call of a key-up takes its first step: the remote's, or that of the tap in its sleep. -/
theorem Inv.up {S : Setup} {s : System} (h : Inv s) (source : Source) (remKey : String)
    (arrived : Nat) (place : Caller → List Caller)
    (hkept : ∀ new, ∀ c ∈ s.calls.callers, c.remKey ≠ remKey → c ∈ place new) {held : List String}
    (hheld : ∀ k ∈ s.heldUsb, k ≠ remKey → k ∈ held) :
    Inv { s with
      calls := s.calls.called source remKey .up arrived place
        (edgeStep S s.dispatcher remKey .up none)
      heldUsb := held } := by
  obtain ⟨hspaced, htable⟩ := onUsbEdge_up_kept S remKey h.spaced
  refine ⟨hspaced, fun k t hlookup => ?_⟩
  obtain ⟨hkey, hold⟩ := htable k t hlookup
  exact (h.held k t hold).mono (fun hmem => hheld k hmem hkey)
    fun c hc hc' _ => hkept _ c hc (hc'.symm ▸ hkey)

/-- A tap hands in its up edge and holds the key no more. -/
theorem Inv.lifted {S : Setup} {s : System} (h : Inv s) {i due : Nat} {source : Source} {remKey : String}
    (hcaller : s.calls.callers[i]? = some ⟨source, remKey, .holding due⟩) {held : List String}
    (hheld : held = s.heldUsb) :
    Inv { s with
      calls := s.calls.called source remKey .up s.dispatcher.now (fun c => s.calls.callers.set i c)
        (edgeStep S s.dispatcher remKey .up none)
      heldUsb := held } := by
  refine h.up source remKey s.dispatcher.now (fun c => s.calls.callers.set i c)
    (fun new c hc hkey => ?_) fun k hk _ => hheld.symm ▸ hk
  exact mem_set_of_ne hcaller hc fun heq => hkey (heq ▸ rfl)

/-- The repeats are left alone, and so are the holders. -/
theorem Inv.quiet {s s' : System} (h : Inv s) (hquiet : Quiet s.dispatcher s'.dispatcher)
    (husb : s'.heldUsb = s.heldUsb) (hticks : s'.ticks = s.ticks)
    (hcallers : ∀ c ∈ s.calls.callers, (∃ due, c.stage = .holding due) → c ∈ s'.calls.callers) :
    Inv s' := by
  refine ⟨hticks ▸ h.spaced.quiet hquiet, fun k t hlookup => ?_⟩
  rw [hquiet.repeatTasks] at hlookup
  exact (h.held k t hlookup).mono (fun hmem => husb ▸ hmem) fun c hc _ => hcallers c hc

theorem Inv.resumes {S : Setup} {s : System} (h : Inv s) {i : Nat} {source : Source}
    {remKey : String} {edge : Edge} {phase : EdgePhase} {arrived : Nat}
    (hcaller : s.calls.callers[i]? = some ⟨source, remKey, .calling edge phase arrived⟩) :
    Inv { s with
      calls := s.calls.called source remKey edge arrived (fun c => s.calls.callers.set i c)
        (edgeStep S s.dispatcher remKey edge (some phase))
      heldUsb := heldAfter s.calls (s.calls.called source remKey edge arrived
        (fun c => s.calls.callers.set i c) (edgeStep S s.dispatcher remKey edge (some phase)))
        s.heldUsb (.resumes i) } := by
  have hlt := (List.getElem?_eq_some_iff.mp hcaller).1
  have hkept : ∀ new, ∀ c ∈ s.calls.callers, (∃ due, c.stage = .holding due) →
      c ∈ s.calls.callers.set i new := by
    intro new c hc ⟨due, hstage⟩
    refine mem_set_of_ne hcaller hc fun heq => ?_
    rw [heq] at hstage
    cases hstage
  cases edge with
  | down =>
    refine h.down source remKey (some phase) arrived _ (fun c => List.mem_set hlt c) hkept
      (fun k hk => ?_) fun hsource hreturns => ?_
    · cases source with
      | usb =>
        simp only [heldAfter, hcaller]
        split
        · exact List.mem_cons_of_mem remKey hk
        · exact hk
      | tap holdMs =>
        simp only [heldAfter, hcaller]
        exact hk
    · subst hsource
      have hover : handled (s.calls.called .usb remKey .down arrived
          (fun c => s.calls.callers.set i c) (edgeStep S s.dispatcher remKey .down (some phase)))
          i = true := by
        simp [handled, HoldFlows.System.called, hlt, hreturns, HoldFlows.afterCall]
      simp only [heldAfter, hcaller, hover, if_true]
      exact List.mem_cons_self
  | up =>
    have hheld : heldAfter s.calls (s.calls.called source remKey .up arrived
        (fun c => s.calls.callers.set i c) (edgeStep S s.dispatcher remKey .up (some phase)))
        s.heldUsb (.resumes i) = s.heldUsb := by
      simp only [heldAfter, hcaller]
    exact h.quiet (quiet_resumeEdge_up S s.dispatcher remKey phase) hheld rfl (hkept _)

theorem Inv.calls {S : Setup} {s : System} (h : Inv s) {e : HoldFlows.Event} {c : HoldFlows.System}
    (hstep : HoldFlows.step S s.calls e = some c) : Inv { s with
      calls := c
      heldUsb := heldAfter s.calls c s.heldUsb e
      ticks := (ticking s.dispatcher e).toList.map (·, s.dispatcher.now) ++ s.ticks } := by
  cases e with
  | usb remKey edge =>
    obtain ⟨-, rfl⟩ := of_guard hstep
    cases edge with
    | down =>
      refine h.down .usb remKey none s.dispatcher.now (fun c => s.calls.callers ++ [c])
        (fun c => List.mem_append_right _ (List.mem_singleton_self c))
        (fun new c hc _ => List.mem_append_left _ hc) (fun k hk => ?_) fun _ hreturns => ?_
      · simp only [heldAfter]
        split
        · exact List.mem_cons_of_mem remKey hk
        · exact hk
      · have hover : handled (s.calls.called .usb remKey .down s.dispatcher.now
            (fun c => s.calls.callers ++ [c]) (edgeStep S s.dispatcher remKey .down none))
            s.calls.callers.length = true := by
          simp [handled, HoldFlows.System.called, hreturns, HoldFlows.afterCall]
        simp only [heldAfter, hover, if_true]
        exact List.mem_cons_self
    | up =>
      refine h.up .usb remKey s.dispatcher.now (fun c => s.calls.callers ++ [c])
        (fun new c hc _ => List.mem_append_left _ hc) fun k hk hkey => ?_
      exact List.mem_filter.mpr ⟨hk, decide_eq_true hkey⟩
  | tap remKey holdMs =>
    obtain rfl := Option.some.inj hstep
    exact h.down (.tap (HoldFlows.tapHoldMs holdMs)) remKey none s.dispatcher.now
      (fun c => s.calls.callers ++ [c])
      (fun c => List.mem_append_right _ (List.mem_singleton_self c))
      (fun new c hc _ => List.mem_append_left _ hc) (fun k hk => hk) nofun
  | resumes i =>
    simp only [HoldFlows.step] at hstep
    split at hstep
    · next source remKey edge phase arrived hcaller =>
      split at hstep
      · cases hstep
      · obtain rfl := Option.some.inj hstep
        exact h.resumes hcaller
    · cases hstep
  | releases i =>
    simp only [HoldFlows.step] at hstep
    split at hstep
    · next source remKey due hcaller =>
      obtain ⟨-, rfl⟩ := of_guard hstep
      exact h.lifted hcaller rfl
    · cases hstep
  | cancels i =>
    simp only [HoldFlows.step] at hstep
    split at hstep
    · next source remKey due hcaller =>
      obtain rfl := Option.some.inj hstep
      exact h.lifted hcaller rfl
    · cases hstep
  | task t =>
    simp only [HoldFlows.step, Option.map_eq_some_iff] at hstep
    obtain ⟨d, htask, rfl⟩ := hstep
    obtain ⟨hspaced, htable⟩ := h.spaced.task (taskStep_change htask)
    refine ⟨hspaced, fun k t hlookup => ?_⟩
    have hlookup : d.repeatTasks.lookup k = some t := hlookup
    rw [htable] at hlookup
    exact (h.held k t hlookup).mono id fun c hc _ _ => hc
  | setModeBindings mode =>
    obtain rfl := Option.some.inj hstep
    exact h.quiet (.congr rfl rfl rfl) rfl rfl fun c hc _ => hc
  | speakerTakes =>
    obtain rfl := Option.some.inj hstep
    exact h.quiet (.congr rfl rfl rfl) rfl rfl fun c hc _ => hc
  | tick ms =>
    obtain rfl := Option.some.inj hstep
    refine ⟨⟨h.spaced.listed, fun k at' hat => ?_, h.spaced.due, h.spaced.apart⟩,
      fun k t hlookup => (h.held k t hlookup).mono id fun c hc _ _ => hc⟩
    exact Nat.le_add_right_of_le (h.spaced.past k at' hat)

theorem inv_step {S : Setup} {s s' : System} {e : Event} (h : Inv s) (hstep : step S s e = some s') :
    Inv s' := by
  cases e with
  | calls e =>
    obtain ⟨c, hc, rfl⟩ := Option.map_eq_some_iff.mp hstep
    exact h.calls hc
  | disconnects =>
    obtain ⟨-, rfl⟩ := of_guard hstep
    have hquiet := quiet_awaitRepeats
      (State.cancelAll { s.dispatcher with repeatTasks := ∅ } (values s.dispatcher.repeatTasks))
      (values s.dispatcher.repeatTasks)
    refine ⟨h.spaced.cleared.quiet hquiet, fun k t hlookup => ?_⟩
    have hlookup : (onUsbDisconnect s.dispatcher).1.repeatTasks.lookup k = some t := hlookup
    rw [onUsbDisconnect, hquiet.repeatTasks, (quiet_cancelAll _ _).repeatTasks] at hlookup
    cases hlookup
  | disconnectResumes =>
    simp only [step] at hstep
    split at hstep
    · next phase _ =>
      split at hstep
      · cases hstep
      · obtain rfl := Option.some.inj hstep
        exact h.quiet (quiet_resumeDisconnect s.dispatcher phase) rfl rfl fun c hc _ => hc
    · cases hstep

/-- No runaway volume, over every interleaving of the remote's edges, taps, mode changes, disconnects
and tasks: while no source has a key down, no repeat task of it runs on; a key has at most one that
does, and its ticks come at least 300 ms apart, however often it is pressed. -/
theorem repeats_while_held {S : Setup} {s : System} {es : List Event}
    (h : execute (step S) {} es = some s) :
    (∀ t remKey state, repeating s.dispatcher t = some (remKey, state) → s.Held remKey ∧
        ∀ t' state', repeating s.dispatcher t' = some (remKey, state') → t' = t) ∧
      s.ticks.Pairwise fun later earlier => later.1 = earlier.1 → earlier.2 + 300 ≤ later.2 := by
  have hinv : Inv s := (reachable_of_execute h).invariant inv_start
    fun _ _ _ ht _ hstep => inv_step ht hstep
  refine ⟨fun t remKey state hx => ?_, hinv.spaced.apart⟩
  have hlisted := hinv.spaced.listed t remKey state hx
  refine ⟨hinv.held remKey t hlisted, fun t' state' hx' => ?_⟩
  exact Option.some.inj ((hinv.spaced.listed t' remKey state' hx').symm.trans hlisted)

/-- The remote holds a volume key while a tap of the same key comes and goes, which stops the repeat. -/
def volumeHeld : List Event :=
  [.calls (.usb "rem_vol_up" .down), .calls (.task 0), .calls (.tick 400), .calls (.task 0),
    .calls (.tick 250), .calls (.tap "rem_vol_up" 80), .calls (.tick 80), .calls (.task 0),
    .calls (.releases 1), .calls (.task 0), .calls (.resumes 1), .calls (.usb "rem_vol_up" .down),
    .calls (.task 1), .calls (.tick 400), .calls (.task 1)]

theorem repeats_while_held_volume : ∃ s : System,
    execute (step HoldFlows.sampleSetup) {} volumeHeld = some s ∧ s.Held "rem_vol_up" ∧
      s.ticks = [("rem_vol_up", 1130), ("rem_vol_up", 730), ("rem_vol_up", 400)] ∧
      s.ticks.Pairwise fun later earlier => later.1 = earlier.1 → earlier.2 + 300 ≤ later.2 := by
  have h : (execute (step HoldFlows.sampleSetup) {} volumeHeld).map (fun s => decide
      (repeating s.dispatcher 1 = some ("rem_vol_up", .sleeping 1430) ∧
        s.ticks = [("rem_vol_up", 1130), ("rem_vol_up", 730), ("rem_vol_up", 400)])) =
      some true := by decide +kernel
  obtain ⟨s, hs, hat⟩ := Option.map_eq_some_iff.mp h
  obtain ⟨hrepeats, hticks⟩ := of_decide_eq_true hat
  obtain ⟨hruns, hapart⟩ := repeats_while_held hs
  exact ⟨s, hs, (hruns 1 _ _ hrepeats).1, hticks, hapart⟩

end PiHub.HeldRepeats

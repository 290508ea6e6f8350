import PiHub.Dispatcher

/-! The dispatcher's tasks and its tables of them: every repeat or hold task that has not
been cancelled is in its table until it is done. -/
namespace PiHub.Dispatcher
open PiHub.HostFrames PiHub.Keymap PiHub.LiveTable

def TaskKind.holdKey? : TaskKind → Option HoldKey
  | .repeats _ => none
  | .hold key _ _ _ => some key

def TaskKind.repeatKey? : TaskKind → Option String
  | .repeats remKey => some remKey
  | .hold _ _ _ _ => none

/-- The kind of a task that is neither done nor cancelled. -/
def Task.alive (task : Task) : Option TaskKind :=
  if task.cancelled = false ∧ ¬ task.Done then some task.kind else none

/-- The kind of a task that is cancelled and not yet done. -/
def Task.doomed (task : Task) : Option TaskKind :=
  if task.cancelled = true ∧ ¬ task.Done then some task.kind else none

def State.aliveKind (s : State) (t : Nat) : Option TaskKind := s.tasks[t]?.bind Task.alive

def State.doomedKind (s : State) (t : Nat) : Option TaskKind := s.tasks[t]?.bind Task.doomed

theorem aliveKind_cancel (s : State) (t t' : Nat) :
    (s.cancel t).aliveKind t' = if t' = t then none else s.aliveKind t' := by
  simp only [State.aliveKind, State.cancel, List.getElem?_modify]
  by_cases ht : t' = t
  · cases s.tasks[t']? <;> simp [ht, Task.alive]
  · simp [ht, Ne.symm ht]

theorem doomedKind_cancel (s : State) (t t' : Nat) :
    (s.cancel t).doomedKind t' =
      if t' = t then (s.aliveKind t).or (s.doomedKind t) else s.doomedKind t' := by
  simp only [State.aliveKind, State.doomedKind, State.cancel, List.getElem?_modify]
  by_cases ht : t' = t
  · subst ht
    cases htask : s.tasks[t']? with
    | none => simp
    | some task =>
      cases hcancelled : task.cancelled <;>
        by_cases hdone : task.Done <;>
          simp_all [Task.alive, Task.doomed, Task.Done]
  · simp [ht, Ne.symm ht]

theorem aliveKind_setTask (s : State) (t t' : Nat) (state : TaskState) :
    (s.setTask t state).aliveKind t' =
      if t' = t then s.tasks[t]?.bind fun task => { task with state := state }.alive
      else s.aliveKind t' := by
  simp only [State.aliveKind, State.setTask, List.getElem?_modify]
  by_cases ht : t' = t
  · subst ht
    cases s.tasks[t']? <;> simp
  · simp [ht, Ne.symm ht]

theorem doomedKind_setTask (s : State) (t t' : Nat) (state : TaskState) :
    (s.setTask t state).doomedKind t' =
      if t' = t then s.tasks[t]?.bind fun task => { task with state := state }.doomed
      else s.doomedKind t' := by
  simp only [State.doomedKind, State.setTask, List.getElem?_modify]
  by_cases ht : t' = t
  · subst ht
    cases s.tasks[t']? <;> simp
  · simp [ht, Ne.symm ht]

theorem getElem?_create (s : State) (kind : TaskKind) (t : Nat) :
    (s.create kind).tasks[t]? =
      if t = s.tasks.length then some { kind := kind } else s.tasks[t]? := by
  rw [State.create, List.getElem?_append]
  by_cases hlt : t < s.tasks.length
  · rw [if_pos hlt, if_neg (by omega)]
  · rw [if_neg hlt]
    by_cases ht : t = s.tasks.length
    · simp [ht]
    · rw [if_neg ht, List.getElem?_eq_none (by simp; omega),
        List.getElem?_eq_none (Nat.le_of_not_lt hlt)]

theorem aliveKind_create (s : State) (kind : TaskKind) (t : Nat) :
    (s.create kind).aliveKind t = if t = s.tasks.length then some kind else s.aliveKind t := by
  rw [State.aliveKind, State.aliveKind, getElem?_create]
  by_cases ht : t = s.tasks.length
  · rw [if_pos ht, if_pos ht]
    rfl
  · rw [if_neg ht, if_neg ht]

theorem doomedKind_create (s : State) (kind : TaskKind) (t : Nat) :
    (s.create kind).doomedKind t = s.doomedKind t := by
  rw [State.doomedKind, State.doomedKind, getElem?_create]
  by_cases ht : t = s.tasks.length
  · rw [if_pos ht, ht, List.getElem?_eq_none (Nat.le_refl _)]
    rfl
  · rw [if_neg ht]

/-- The tables agree with the tasks, no hold task is unwinding whose key is taken again, and
no task has failed. -/
structure Tracked (s : State) : Prop where
  hold : Agrees s.holdTasks TaskKind.holdKey? s.aliveKind
  repeats : Agrees s.repeatTasks TaskKind.repeatKey? s.aliveKind
  unwinding : ∀ key t, (s.doomedKind t).bind TaskKind.holdKey? = some key →
    s.holdTasks.lookup key = none
  sound : ∀ task ∈ s.tasks, task.state ≠ .failed

theorem aliveKind_congr {s s' : State} (h : s'.tasks = s.tasks) : s'.aliveKind = s.aliveKind := by
  funext t
  simp [State.aliveKind, h]

theorem doomedKind_congr {s s' : State} (h : s'.tasks = s.tasks) :
    s'.doomedKind = s.doomedKind := by
  funext t
  simp [State.doomedKind, h]

/-- Nothing but the tables and the tasks matters. -/
theorem Tracked.congr {s s' : State} (h : Tracked s) (hhold : s'.holdTasks = s.holdTasks)
    (hrepeat : s'.repeatTasks = s.repeatTasks) (htasks : s'.tasks = s.tasks) : Tracked s' := by
  refine ⟨?_, ?_, ?_, by simpa [htasks] using h.sound⟩
  · simpa [hhold, aliveKind_congr htasks] using h.hold
  · simpa [hrepeat, aliveKind_congr htasks] using h.repeats
  · simpa [hhold, doomedKind_congr htasks] using h.unwinding

/-- Once the tables are empty and nobody awaits a task, every task is done. -/
theorem Tracked.all_done {s : State} (h : Tracked s) (hrepeat : s.repeatTasks = ∅)
    (hhold : s.holdTasks = ∅) (hdoomed : ∀ t, s.doomedKind t = none) :
    ∀ task ∈ s.tasks, task.Done := by
  intro task hmem
  by_contra hdone
  obtain ⟨t, htask⟩ := List.mem_iff_getElem?.mp hmem
  cases hcancelled : task.cancelled with
  | true =>
    have hnone := hdoomed t
    simp [State.doomedKind, htask, Task.doomed, hcancelled, hdone] at hnone
  | false =>
    have halive : s.aliveKind t = some task.kind := by
      simp [State.aliveKind, htask, Task.alive, hcancelled, hdone]
    cases hkind : task.kind with
    | repeats remKey =>
      have hlookup := (h.repeats remKey t).mpr (by simp [halive, hkind, TaskKind.repeatKey?])
      simp [hrepeat] at hlookup
    | hold key minHoldMs flow trigger =>
      have hlookup := (h.hold key t).mpr (by simp [halive, hkind, TaskKind.holdKey?])
      simp [hhold] at hlookup

theorem cancel_sound {s : State} (h : ∀ task ∈ s.tasks, task.state ≠ .failed) (t : Nat) :
    ∀ task ∈ (s.cancel t).tasks, task.state ≠ .failed := by
  intro task hmem
  obtain ⟨t', ht'⟩ := List.mem_iff_getElem?.mp hmem
  simp only [State.cancel, List.getElem?_modify, Option.map_eq_map, Option.map_eq_some_iff] at ht'
  obtain ⟨old, hold, rfl⟩ := ht'
  have hstate := h old (List.mem_of_getElem? hold)
  by_cases hsame : t = t'
  · simpa [hsame] using hstate
  · simpa [hsame] using hstate

theorem holdKey?_of_repeatKey? {kind : TaskKind} {remKey : String}
    (h : kind.repeatKey? = some remKey) : kind.holdKey? = none := by
  cases kind with
  | repeats remKey => rfl
  | hold key minHoldMs flow trigger => simp [TaskKind.repeatKey?] at h

theorem repeatKey?_of_holdKey? {kind : TaskKind} {key : HoldKey}
    (h : kind.holdKey? = some key) : kind.repeatKey? = none := by
  cases kind with
  | repeats remKey => simp [TaskKind.holdKey?] at h
  | hold key minHoldMs flow trigger => rfl

theorem Tracked.popHold_cancel {s : State} (h : Tracked s) {key : HoldKey} {t : Nat}
    (hlookup : s.holdTasks.lookup key = some t) : Tracked ((s.popHold key).cancel t) := by
  obtain ⟨kind, halive, hkey⟩ := h.hold.kind hlookup
  have hcancel : ((s.popHold key).cancel t).aliveKind =
      fun t' => if t' = t then none else s.aliveKind t' := funext fun t' => aliveKind_cancel ..
  constructor
  · rw [hcancel]
    exact h.hold.erase hlookup
  · rw [hcancel]
    exact h.repeats.drop (by simp [halive, repeatKey?_of_holdKey? hkey])
  · intro key' t' hdoomed
    have hdoomed' := doomedKind_cancel (s.popHold key) t t'
    rw [hdoomed'] at hdoomed
    by_cases hsame : key' = key
    · subst hsame
      exact AList.lookup_erase ..
    · refine (AList.lookup_erase_ne hsame).trans ?_
      by_cases ht : t' = t
      · have halive' : (s.popHold key).aliveKind t = some kind := halive
        simp [ht, halive', hkey, Ne.symm hsame] at hdoomed
      · rw [if_neg ht] at hdoomed
        exact h.unwinding key' t' hdoomed
  · exact cancel_sound h.sound t

theorem Tracked.popRepeat_cancel {s : State} (h : Tracked s) {remKey : String} {t : Nat}
    (hlookup : s.repeatTasks.lookup remKey = some t) :
    Tracked ((s.popRepeat remKey).cancel t) := by
  obtain ⟨kind, halive, hkey⟩ := h.repeats.kind hlookup
  have hcancel : ((s.popRepeat remKey).cancel t).aliveKind =
      fun t' => if t' = t then none else s.aliveKind t' := funext fun t' => aliveKind_cancel ..
  constructor
  · rw [hcancel]
    exact h.hold.drop (by simp [halive, holdKey?_of_repeatKey? hkey])
  · rw [hcancel]
    exact h.repeats.erase hlookup
  · intro key' t' hdoomed
    have hdoomed' := doomedKind_cancel (s.popRepeat remKey) t t'
    rw [hdoomed'] at hdoomed
    by_cases ht : t' = t
    · have halive' : (s.popRepeat remKey).aliveKind t = some kind := halive
      simp [ht, halive', holdKey?_of_repeatKey? hkey] at hdoomed
    · rw [if_neg ht] at hdoomed
      exact h.unwinding key' t' hdoomed
  · exact cancel_sound h.sound t

theorem aliveKind_length (s : State) : s.aliveKind s.tasks.length = none := by
  simp [State.aliveKind]

/-- A hold task of this key has been cancelled and is not yet done. -/
def State.Unwinding (s : State) (key : HoldKey) : Prop :=
  ∃ task ∈ s.tasks, task.doomed.bind TaskKind.holdKey? = some key

instance (s : State) (key : HoldKey) : Decidable (s.Unwinding key) :=
  inferInstanceAs (Decidable (∃ task ∈ s.tasks, _))

theorem unwinding_of_doomedKind {s : State} {key : HoldKey} {t : Nat}
    (h : (s.doomedKind t).bind TaskKind.holdKey? = some key) : s.Unwinding key := by
  rw [State.doomedKind, Option.bind_assoc] at h
  obtain ⟨task, htask, hkey⟩ := Option.bind_eq_some_iff.mp h
  exact ⟨task, List.mem_of_getElem? htask, hkey⟩

/-- What running a key's actions does to the tables: a down edge adds hold tasks of that key. -/
structure Scheduled (S : Setup) (remKey : String) (edge : Edge) (as : List (Action × Nat))
    (s s' : State) : Prop where
  tracked : Tracked s'
  tasks : s.tasks <+: s'.tasks
  doomed : s'.doomedKind = s.doomedKind
  hold : ∀ key ∈ s'.holdTasks, key ∈ s.holdTasks ∨
    key.1 = remKey ∧ edge = .down ∧ ∃ a, (a, key.2) ∈ as ∧ (S.holdMs a).isSome = true

theorem create_sound {s : State} (h : ∀ task ∈ s.tasks, task.state ≠ .failed) (kind : TaskKind) :
    ∀ task ∈ (s.create kind).tasks, task.state ≠ .failed := by
  intro task hmem
  cases List.mem_append.mp hmem with
  | inl hold => exact h task hold
  | inr hnew =>
    rw [List.mem_singleton.mp hnew]
    simp

theorem Tracked.schedule {s : State} (h : Tracked s) {key : HoldKey} {minHoldMs : Int}
    {name : String} (hfree : ¬ s.Unwinding key) :
    Tracked (s.scheduleHoldAction key minHoldMs name) := by
  unfold State.scheduleHoldAction
  split
  case isTrue => exact h
  case isFalse hnone =>
    have hlookup : s.holdTasks.lookup key = none := by simpa using hnone
    have halive := funext (aliveKind_create s (.hold key minHoldMs name (flowTrigger key.1)))
    constructor
    · change Agrees _ _ (s.create _).aliveKind
      rw [halive]
      exact h.hold.insert hlookup (aliveKind_length s) rfl
    · change Agrees _ _ (s.create _).aliveKind
      rw [halive]
      exact h.repeats.skip (aliveKind_length s) rfl
    · intro key' t hdoomed
      change ((s.create _).doomedKind t).bind _ = _ at hdoomed
      rw [doomedKind_create] at hdoomed
      have hne : key' ≠ key := by
        intro hsame
        subst hsame
        exact hfree (unwinding_of_doomedKind hdoomed)
      exact (AList.lookup_insert_ne hne).trans (h.unwinding key' t hdoomed)
    · exact create_sound h.sound _

theorem Tracked.startRepeat {s : State} (h : Tracked s) (remKey : String) :
    Tracked (s.startRepeat remKey) := by
  unfold State.startRepeat
  split
  case isTrue => exact h
  case isFalse hnone =>
    have hlookup : s.repeatTasks.lookup remKey = none := by simpa using hnone
    have halive := funext (aliveKind_create s (.repeats remKey))
    constructor
    · change Agrees _ _ (s.create _).aliveKind
      rw [halive]
      exact h.hold.skip (aliveKind_length s) rfl
    · change Agrees _ _ (s.create _).aliveKind
      rw [halive]
      exact h.repeats.insert hlookup (aliveKind_length s) rfl
    · intro key t hdoomed
      change ((s.create _).doomedKind t).bind _ = _ at hdoomed
      rw [doomedKind_create] at hdoomed
      exact h.unwinding key t hdoomed
    · exact create_sound h.sound _

theorem scheduleHoldAction_doomed (s : State) (key : HoldKey) (minHoldMs : Int) (name : String) :
    (s.scheduleHoldAction key minHoldMs name).doomedKind = s.doomedKind := by
  unfold State.scheduleHoldAction
  split
  · rfl
  · exact funext (doomedKind_create s _)

theorem scheduleHoldAction_tasks (s : State) (key : HoldKey) (minHoldMs : Int) (name : String) :
    s.tasks <+: (s.scheduleHoldAction key minHoldMs name).tasks := by
  unfold State.scheduleHoldAction
  split
  · exact List.prefix_refl _
  · exact List.prefix_append _ _

theorem scheduleHoldAction_hold {s : State} {key key' : HoldKey} {minHoldMs : Int} {name : String}
    (h : key' ∈ (s.scheduleHoldAction key minHoldMs name).holdTasks) :
    key' ∈ s.holdTasks ∨ key' = key := by
  unfold State.scheduleHoldAction at h
  split at h
  · exact Or.inl h
  · exact ((AList.mem_insert _).mp h).symm

theorem unwinding_congr {s s' : State} (h : s'.doomedKind = s.doomedKind) {key : HoldKey}
    (hs' : s'.Unwinding key) : s.Unwinding key := by
  obtain ⟨task, hmem, hkey⟩ := hs'
  obtain ⟨t, ht⟩ := List.mem_iff_getElem?.mp hmem
  have hdoomed : (s'.doomedKind t).bind TaskKind.holdKey? = some key := by
    simpa [State.doomedKind, ht] using hkey
  exact unwinding_of_doomedKind (h ▸ hdoomed)

theorem hand_holdTasks (s : State) (remKey : String) (f : Option Frame) :
    (s.hand remKey f).holdTasks = s.holdTasks := by
  cases f with
  | none => rfl
  | some f => rfl

theorem hand_tasks (s : State) (remKey : String) (f : Option Frame) :
    (s.hand remKey f).tasks = s.tasks := by
  cases f with
  | none => rfl
  | some f => rfl

theorem runActions_scheduled {S : Setup} {remKey : String} {edge : Edge} {s : State}
    {as : List (Action × Nat)} (h : Tracked s)
    (hfree : edge = .down → ∀ p ∈ as, (S.holdMs p.1).isSome = true →
      ¬ s.Unwinding (remKey, p.2)) :
    Scheduled S remKey edge as s (runActions S remKey edge s as).1 := by
  apply runActions_induct
  · intro t t' a idx hmem hdo ht
    have hsame (hhold : t'.holdTasks = t.holdTasks) (hrepeat : t'.repeatTasks = t.repeatTasks)
        (htasks : t'.tasks = t.tasks) : Scheduled S remKey edge as s t' :=
      ⟨ht.tracked.congr hhold hrepeat htasks, htasks ▸ ht.tasks,
        (doomedKind_congr htasks).trans ht.doomed, hhold ▸ ht.hold⟩
    cases doAction_cases hdo with
    | inl hhand =>
      subst hhand
      exact hsame (hand_holdTasks ..) (hand_acted ..).repeatTasks (hand_tasks ..)
    | inr hrest =>
      obtain ⟨_, hrest⟩ := hrest
      cases hrest with
      | inl hsubmit =>
        obtain ⟨job, rfl⟩ := hsubmit
        exact hsame rfl rfl rfl
      | inr hrest =>
        cases hrest with
        | inl hspawn =>
          obtain ⟨name, rfl⟩ := hspawn
          exact hsame rfl rfl rfl
        | inr hschedule =>
          obtain ⟨minHold, name, rfl, hms, rfl⟩ := hschedule
          have hsome : (S.holdMs a).isSome = true := by simp [hms]
          constructor
          · apply ht.tracked.schedule
            intro hunwinding
            exact hfree rfl (a, idx) hmem hsome (unwinding_congr ht.doomed hunwinding)
          · exact ht.tasks.trans (scheduleHoldAction_tasks ..)
          · exact (scheduleHoldAction_doomed ..).trans ht.doomed
          · intro key hkey
            cases scheduleHoldAction_hold hkey with
            | inl hold => exact ht.hold key hold
            | inr hnew => exact Or.inr (hnew ▸ ⟨rfl, rfl, a, hmem, hsome⟩)
  · exact ⟨h, List.prefix_refl _, rfl, fun key hkey => Or.inl hkey⟩

/-- No hold task that the key's actions would start is unwinding. -/
def HoldsFree (S : Setup) (s : State) (remKey : String) : Prop :=
  ∀ p ∈ (S.actions s.mode remKey).zipIdx, (S.holdMs p.1).isSome = true →
    ¬ s.Unwinding (remKey, p.2)

instance (S : Setup) (s : State) (remKey : String) : Decidable (HoldsFree S s remKey) :=
  inferInstanceAs (Decidable (∀ p ∈ (S.actions s.mode remKey).zipIdx, _ → _))

/-- If the task is a repeat task about to tick, none of its actions overflows, and no hold
task that they would start is unwinding. -/
def TickOk (S : Setup) (s : State) (t : Nat) : Prop :=
  match s.tasks[t]? with
  | some ⟨.repeats remKey, .sleeping _, false⟩ =>
    (∀ a ∈ S.actions s.mode remKey, repeatable a = true → S.overflows .down a = false) ∧
      HoldsFree S s remKey
  | _ => True

instance (S : Setup) (s : State) (t : Nat) : Decidable (TickOk S s t) := by
  unfold TickOk
  split <;> infer_instance

theorem repeatTick_scheduled {S : Setup} {s : State} {remKey : String} (h : Tracked s)
    (hfree : HoldsFree S s remKey) : Scheduled S remKey .down
      ((S.actions s.mode remKey).zipIdx.filter fun a => repeatable a.1) s
      (repeatTick S s remKey).1 := by
  apply runActions_scheduled h
  intro _ p hmem
  exact hfree p (List.mem_of_mem_filter hmem)

theorem repeatTick_completes {S : Setup} {s : State} {remKey : String}
    (hover : ∀ a ∈ S.actions s.mode remKey, repeatable a = true → S.overflows .down a = false) :
    (repeatTick S s remKey).2 = true := by
  rw [repeatTick, runActions_completes, List.all_eq_true]
  intro p hp
  obtain ⟨hmem, hrepeatable⟩ := List.mem_filter.mp hp
  simp [hover p.1 (List.fst_mem_of_mem_zipIdx hmem) hrepeatable]

theorem setTask_sound {s : State} (h : ∀ task ∈ s.tasks, task.state ≠ .failed) (t : Nat)
    {state : TaskState} (hstate : state ≠ .failed) :
    ∀ task ∈ (s.setTask t state).tasks, task.state ≠ .failed := by
  intro task hmem
  obtain ⟨t', ht'⟩ := List.mem_iff_getElem?.mp hmem
  simp only [State.setTask, List.getElem?_modify, Option.map_eq_map, Option.map_eq_some_iff] at ht'
  obtain ⟨old, hold, rfl⟩ := ht'
  have hold' := h old (List.mem_of_getElem? hold)
  by_cases hsame : t = t'
  · simpa [hsame] using hstate
  · simpa [hsame] using hold'

theorem aliveKind_ended (s : State) (t : Nat) : (s.setTask t .ended).aliveKind =
    fun t' => if t' = t then none else s.aliveKind t' := by
  funext t'
  rw [aliveKind_setTask]
  cases s.tasks[t]? <;> simp [Task.alive, Task.Done]

theorem doomedKind_ended (s : State) (t : Nat) : (s.setTask t .ended).doomedKind =
    fun t' => if t' = t then none else s.doomedKind t' := by
  funext t'
  rw [doomedKind_setTask]
  cases s.tasks[t]? <;> simp [Task.doomed, Task.Done]

/-- A task that is not done goes to sleep. -/
theorem Tracked.sleep {s : State} (h : Tracked s) {t : Nat} {task : Task}
    (htask : s.tasks[t]? = some task) (hdone : ¬ task.Done) (due : Nat) :
    Tracked (s.setTask t (.sleeping due)) ∧
      (s.setTask t (.sleeping due)).doomedKind = s.doomedKind := by
  have hstate : ¬ task.state = .ended ∧ ¬ task.state = .failed := by simpa [Task.Done] using hdone
  have halive : (s.setTask t (.sleeping due)).aliveKind = s.aliveKind := by
    funext t'
    rw [aliveKind_setTask]
    by_cases ht : t' = t
    · subst ht
      simp [State.aliveKind, htask, Task.alive, Task.Done, hstate]
    · rw [if_neg ht]
  have hdoomed : (s.setTask t (.sleeping due)).doomedKind = s.doomedKind := by
    funext t'
    rw [doomedKind_setTask]
    by_cases ht : t' = t
    · subst ht
      simp [State.doomedKind, htask, Task.doomed, Task.Done, hstate]
    · rw [if_neg ht]
  refine ⟨⟨?_, ?_, ?_, setTask_sound h.sound t (by simp)⟩, hdoomed⟩
  · rw [halive]
    exact h.hold
  · rw [halive]
    exact h.repeats
  · rw [hdoomed]
    exact h.unwinding

/-- A cancelled task ends. -/
theorem Tracked.stop {s : State} (h : Tracked s) {t : Nat} (hdead : s.aliveKind t = none) :
    Tracked (s.setTask t .ended) := by
  refine ⟨?_, ?_, ?_, setTask_sound h.sound t (by simp)⟩
  · rw [aliveKind_ended]
    exact h.hold.drop (by simp [hdead])
  · rw [aliveKind_ended]
    exact h.repeats.drop (by simp [hdead])
  · intro key t' hdoomed
    rw [doomedKind_ended] at hdoomed
    by_cases ht : t' = t
    · simp [ht] at hdoomed
    · exact h.unwinding key t' (by simpa [ht] using hdoomed)

/-- A hold task that has fired ends and takes itself out of the table. -/
theorem Tracked.fire {s : State} (h : Tracked s) {key : HoldKey} {t : Nat}
    (hlookup : s.holdTasks.lookup key = some t) :
    Tracked ((s.setTask t .ended).popHold key) := by
  obtain ⟨kind, halive, hkey⟩ := h.hold.kind hlookup
  refine ⟨?_, ?_, ?_, setTask_sound h.sound t (by simp)⟩
  · change Agrees (s.holdTasks.erase key) _ (s.setTask t .ended).aliveKind
    rw [aliveKind_ended]
    exact h.hold.erase hlookup
  · change Agrees s.repeatTasks _ (s.setTask t .ended).aliveKind
    rw [aliveKind_ended]
    exact h.repeats.drop (by simp [halive, repeatKey?_of_holdKey? hkey])
  · intro key' t' hdoomed
    change ((s.setTask t .ended).doomedKind t').bind _ = _ at hdoomed
    rw [doomedKind_ended] at hdoomed
    by_cases hsame : key' = key
    · subst hsame
      exact AList.lookup_erase ..
    · refine (AList.lookup_erase_ne hsame).trans ?_
      by_cases ht : t' = t
      · simp [ht] at hdoomed
      · exact h.unwinding key' t' (by simpa [ht] using hdoomed)

/-- What a task's step does to the tables. -/
structure Stepped (s s' : State) : Prop where
  tracked : Tracked s'
  doomed : ∀ t, s'.doomedKind t ≠ none → s.doomedKind t ≠ none
  hold : ∀ key ∈ s'.holdTasks, key ∈ s.holdTasks ∨ key.1 ∈ s.repeatTasks
  acted : Acted s s'

theorem taskStep_stepped {S : Setup} {s s' : State} {t : Nat} (h : Tracked s)
    (htick : TickOk S s t) (hstep : taskStep S s t = some s') : Stepped s s' := by
  obtain ⟨task, htask, hdone, hmove⟩ := taskStep_move hstep
  have hended (t' : Nat) : (s.setTask t .ended).doomedKind t' ≠ none → s.doomedKind t' ≠ none := by
    rw [doomedKind_ended]
    by_cases ht : t' = t
    · simp [ht]
    · simp [ht]
  cases hmove with
  | stops hcancelled =>
    have hdead : s.aliveKind t = none := by simp [State.aliveKind, htask, Task.alive, hcancelled]
    exact ⟨h.stop hdead, hended, fun key hkey => Or.inl hkey, ⟨rfl, rfl, rfl, rfl⟩⟩
  | unwinds key minHoldMs flow trigger hcancelled hkind =>
    have hdead : s.aliveKind t = none := by simp [State.aliveKind, htask, Task.alive, hcancelled]
    have hdoomed : (s.doomedKind t).bind TaskKind.holdKey? = some key := by
      simp [State.doomedKind, htask, Task.doomed, hcancelled, hdone, hkind, TaskKind.holdKey?]
    have hfree : key ∉ s.holdTasks := AList.lookup_eq_none.mp (h.unwinding key t hdoomed)
    have hsame : ∀ key', (s.holdTasks.erase key).lookup key' = s.holdTasks.lookup key' := by
      intro key'
      by_cases hk : key' = key
      · rw [hk, AList.lookup_erase, AList.lookup_eq_none.mpr hfree]
      · exact AList.lookup_erase_ne hk
    have hstop := h.stop hdead
    refine ⟨⟨?_, hstop.repeats, ?_, hstop.sound⟩, hended, ?_, ⟨rfl, rfl, rfl, rfl⟩⟩
    · intro key' t'
      exact (hsame key').symm ▸ hstop.hold key' t'
    · intro key' t' hd
      exact (hsame key').trans (hstop.unwinding key' t' hd)
    · intro key' hkey'
      exact Or.inl (AList.mem_erase.mp hkey').2
  | sleeps due hcancelled =>
    obtain ⟨htracked, hdoomed⟩ := h.sleep htask hdone due
    exact ⟨htracked, fun t' => by rw [hdoomed]; exact id, fun key hkey => Or.inl hkey,
      ⟨rfl, rfl, rfl, rfl⟩⟩
  | ticks remKey due due' hshape =>
    subst hshape
    rw [TickOk, htask] at htick
    obtain ⟨hover, hfree⟩ := htick
    have hran := repeatTick_scheduled h hfree
    have htask' : (repeatTick S s remKey).1.tasks[t]? =
        some ⟨.repeats remKey, .sleeping due, false⟩ := by
      obtain ⟨new, hnew⟩ := hran.tasks
      rw [← hnew, List.getElem?_append_left (List.getElem?_eq_some_iff.mp htask).1, htask]
    obtain ⟨htracked, hdoomed⟩ := hran.tracked.sleep htask' hdone due'
    have hin : remKey ∈ s.repeatTasks := by
      apply AList.lookup_isSome.mp
      rw [(h.repeats remKey t).mpr (by
        simp [State.aliveKind, htask, Task.alive, Task.Done, TaskKind.repeatKey?])]
      rfl
    have hacted := runActions_acted S remKey .down s
      ((S.actions s.mode remKey).zipIdx.filter fun a => repeatable a.1)
    rw [repeatTick_completes hover, if_pos rfl]
    refine ⟨htracked, fun t' => by rw [hdoomed, hran.doomed]; exact id, ?_,
      hacted.trans ⟨rfl, rfl, rfl, rfl⟩⟩
    intro key hkey
    cases hran.hold key hkey with
    | inl hold => exact Or.inl hold
    | inr hnew => exact Or.inr (hnew.1 ▸ hin)
  | fires key minHoldMs flow trigger flows hcancelled hkind =>
    have hlookup : s.holdTasks.lookup key = some t := (h.hold key t).mpr (by
      simp [State.aliveKind, htask, Task.alive, hcancelled, hdone, hkind, TaskKind.holdKey?])
    refine ⟨(h.fire hlookup).congr rfl rfl rfl, hended, ?_, ⟨rfl, rfl, rfl, rfl⟩⟩
    intro key' hkey'
    exact Or.inl (AList.mem_erase.mp hkey').2

end PiHub.Dispatcher

import PiHub.Keymap
import PiHub.LastFlow

/-! Start-up of the runtime engine (runtime.py): the remembered mode, its check against the
devices, and what may change the mode from then on. -/
namespace PiHub.StartupMode
open PiHub.Transition PiHub.PyStr PiHub.Keymap PiHub.SingleFlight PiHub.LastFlow

/-- `FALLBACK_MODE`. -/
def fallbackMode : String := "power_off"

/-- What `json.load` makes of mode.json. -/
inductive ModeFile where
  | missing
  | unreadable
  | document (doc : Json)

/-- `bool(value)`. -/
def truthy : Json → Bool
  | .null => false
  | .bool b => b
  | .int n => n ≠ 0
  | .float (.finite q) => q ≠ 0
  | .float _ => true
  | .str s => s ≠ ""
  | .arr values => !values.isEmpty
  | .obj members => !members.isEmpty

/-- `str(value)`; `repr` says what it makes of a value that is no string. -/
def pyStr (repr : Json → String) : Json → String
  | .str s => s
  | value => repr value

/-- `_load_remembered`. -/
def loadRemembered (repr : Json → String) : ModeFile → String × Option String
  | .missing => (fallbackMode, none)
  | .unreadable => (fallbackMode, none)
  | .document (.obj raw) =>
    match raw.lookup "mode" with
    | none => (fallbackMode, none)
    | some value =>
      let mode := pyStr repr value
      let lastFlow := get raw "last_flow"
      (mode, some (if truthy lastFlow then pyStr repr lastFlow else mode))
  | .document _ => (fallbackMode, none)

/-- `_startup_task`. -/
inductive StartupTask where
  | waiting | done
  deriving DecidableEq

structure Runtime where
  engine : Engine
  startup : StartupTask := .waiting
  deriving DecidableEq

/-- `_valid_modes`. -/
def validModes (S : Setup) : List String := S.dispatcher.getD []

/-- `start`. -/
def start (S : Setup) (repr : Json → String) (file : ModeFile) : Runtime :=
  let (mode, lastFlow) := loadRemembered repr file
  if validModes S ≠ [] ∧ mode ∉ validModes S then { engine := Engine.started fallbackMode none }
  else { engine := Engine.started mode lastFlow }

/-- The TV as the check finds it. -/
structure TvStatus where
  received : Bool
  presenceOn : Option Bool
  deriving DecidableEq

structure SpeakerStatus where
  received : Bool
  listening : Bool
  deriving DecidableEq

/-- The devices at the end of the wait; `none`: there is no such device. -/
structure Room where
  tv : Option TvStatus
  speaker : Option SpeakerStatus
  deriving DecidableEq

def Room.tvOn (room : Room) : Option Bool :=
  match room.tv with
  | none => some false
  | some tv => if tv.received then tv.presenceOn else none

def Room.listening (room : Room) : Option Bool :=
  match room.speaker with
  | none => some false
  | some speaker => if speaker.received then some speaker.listening else none

/-- The mode the room asks for; `none`: can't tell. -/
def Room.want (room : Room) : Option String :=
  if room.listening = some true then some "listen"
  else if room.tvOn = some true then some "watch"
  else if room.listening = none ∨ room.tvOn = none then none
  else some "power_off"

/-- `_correct_startup_mode` after its waits, which it does not suspend again. -/
def checkRoom (S : Setup) (e : Engine) (room : Room) : Engine :=
  match room.want with
  | none => e
  | some want => e.correctStartupMode S want

/-- Whatever happens to the engine besides, the end of the start-up check's waits, and its
cancellation by `stop`. -/
inductive Event where
  | act (event : SingleFlight.Event)
  | startupCheck (room : Room)
  | stop
  deriving DecidableEq

def step (S : Setup) (rt : Runtime) : Event → Option Runtime
  -- the check is the start-up task's own
  | .act (.correctStartupMode _) => none
  | .act event => (SingleFlight.step S rt.engine event).map fun e => { rt with engine := e }
  | .startupCheck room =>
    match rt.startup with
    | .waiting => some { engine := checkRoom S rt.engine room, startup := .done }
    | .done => none
  | .stop => some { rt with startup := .done }

theorem step_act {S : Setup} {rt : Runtime} {event : SingleFlight.Event}
    (h : ∀ want, event ≠ .correctStartupMode want) : step S rt (.act event) =
      (SingleFlight.step S rt.engine event).map fun e => { rt with engine := e } := by
  cases event with
  | correctStartupMode want => exact absurd rfl (h want)
  | _ => rfl

/-- No caller is cancelled a second time. -/
def Kept (rt : Runtime) : Event → Prop
  | .act event => Spared rt.engine event
  | _ => True

/-- What each event of the runtime can do. -/
inductive Outcome (S : Setup) (rt : Runtime) : Event → Runtime → Prop
  | acted {event : SingleFlight.Event} {e : Engine} :
      (∀ want, event ≠ .correctStartupMode want) → SingleFlight.step S rt.engine event = some e →
      Outcome S rt (.act event) { rt with engine := e }
  | stands {room : Room} : rt.startup = .waiting →
      Outcome S rt (.startupCheck room) { rt with startup := .done }
  | corrected {room : Room} {want : String} : rt.startup = .waiting → room.want = some want →
      Corrected S rt.engine (rt.engine.correctStartupMode S want) want →
      Outcome S rt (.startupCheck room)
        { engine := rt.engine.correctStartupMode S want, startup := .done }
  | stopped : Outcome S rt .stop { rt with startup := .done }

theorem step_outcome {S : Setup} {rt rt' : Runtime} {ev : Event} (h : step S rt ev = some rt') :
    Outcome S rt ev rt' := by
  cases ev with
  | act event =>
    by_cases hcheck : ∃ want, event = .correctStartupMode want
    · obtain ⟨want, rfl⟩ := hcheck
      simp [step] at h
    · have hne : ∀ want, event ≠ .correctStartupMode want := fun want heq => hcheck ⟨want, heq⟩
      rw [step_act hne, Option.map_eq_some_iff] at h
      obtain ⟨e, he, rfl⟩ := h
      exact .acted hne he
  | startupCheck room =>
    cases hs : rt.startup with
    | done => simp [step, hs] at h
    | waiting =>
      obtain rfl : { engine := checkRoom S rt.engine room, startup := .done } = rt' := by
        simpa [step, hs] using h
      unfold checkRoom
      cases hwant : room.want with
      | none => exact .stands hs
      | some want =>
        obtain heq | hcorr := correctStartupMode_cases S rt.engine want
        · simp only [heq]
          exact .stands hs
        · exact .corrected hs hwant hcorr
  | stop =>
    obtain rfl := Option.some.inj h
    exact .stopped

/-- The dispatcher has the keymap's modes, and the mode to fall back on is one of them. -/
structure HasModes (S : Setup) (modes : List String) : Prop where
  dispatcher : S.dispatcher = some modes
  fallback : fallbackMode ∈ modes

theorem HasModes.known {S : Setup} {modes : List String} (h : HasModes S modes) {name : String}
    (hname : Commits S name) : strip name ∈ modes := by
  obtain ⟨_, valid, hdisp, hvalid⟩ := hname
  obtain rfl := Option.some.inj (h.dispatcher.symm.trans hdisp)
  exact hvalid.resolve_left (List.ne_nil_of_mem h.fallback)

theorem HasModes.valid {S : Setup} {modes : List String} (h : HasModes S modes) :
    validModes S = modes := by
  simp [validModes, h.dispatcher]

/-- The dispatcher is bound to the engine's mode, a mode of the keymap, and every run has the
target mode of its flow. -/
structure Sound (S : Setup) (modes : List String) (e : Engine) : Prop where
  bound : e.bindings = some e.mode
  known : e.mode ∈ modes
  targets : ∀ r ∈ e.runs, r.targetMode = S.targetMode r.report.flowName

theorem Sound.same {S : Setup} {modes : List String} {e e' : Engine} (h : Sound S modes e)
    (hsame : SameMode e e') (htargets : ∀ r ∈ e'.runs, r.targetMode = S.targetMode r.report.flowName) :
    Sound S modes e' := by
  refine ⟨?_, ?_, htargets⟩
  · rw [hsame.bindings, hsame.mode]
    exact h.bound
  · rw [hsame.mode]
    exact h.known

theorem Sound.corrected {S : Setup} {modes : List String} {e e' : Engine} {want : String}
    (h : Sound S modes e) (hmodes : HasModes S modes) (hcorr : Corrected S e e' want) :
    Sound S modes e' := by
  refine ⟨?_, ?_, ?_⟩
  · rw [hcorr.bindings, hcorr.mode]
  · rw [hcorr.mode]
    have hvalid := hcorr.valid
    rw [show S.dispatcher.getD [] = modes from hmodes.valid] at hvalid
    exact hvalid.resolve_left (List.ne_nil_of_mem hmodes.fallback)
  · rw [hcorr.runs.runs]
    exact h.targets

theorem Sound.moved {S : Setup} {modes : List String} {e e' : Engine} {r : Run}
    (h : Sound S modes e) (hmodes : HasModes S modes) (hmoved : Moved e e' r)
    (hok : Succeeds S r) (htargets : ∀ q ∈ e'.runs, q.targetMode = S.targetMode q.report.flowName) :
    Sound S modes e' := by
  refine ⟨?_, ?_, htargets⟩
  · rw [hmoved.bindings, hmoved.mode]
    cases r.targetMode with
    | none => exact h.bound
    | some mode => rfl
  · rw [hmoved.mode]
    cases hmode : r.targetMode with
    | none => exact h.known
    | some mode => exact hmodes.known (hok.2 mode hmode)

theorem Sound.step {S : Setup} {modes : List String} {e e' : Engine} {ev : SingleFlight.Event}
    (h : Sound S modes e) (hmodes : HasModes S modes) (heff : Effect S e ev e') :
    Sound S modes e' := by
  have htargets : ∀ r ∈ e'.runs, r.targetMode = S.targetMode r.report.flowName := by
    refine heff.runs.forall_runs h.targets (fun _ _ _ _ => rfl) fun r r' hname hmode hr => ?_
    rw [hname, hmode]
    exact hr
  cases heff.mode with
  | same hsame => exact h.same hsame htargets
  | set hset =>
    refine ⟨?_, ?_, htargets⟩
    · rw [hset.bindings, hset.mode]
    · rw [hset.mode]
      exact hmodes.known hset.commits
  | corrected hcorr => exact h.corrected hmodes hcorr
  | moved _ _ _ hok hmoved _ => exact h.moved hmodes hmoved hok htargets

/-- A property of the engine that its steps keep is kept by the runtime's. -/
theorem outcome_keeps {S : Setup} {rt rt' : Runtime} {ev : Event} {P : Engine → Prop}
    (h : Outcome S rt ev rt') (hP : P rt.engine)
    (hkeep : ∀ event e, SingleFlight.step S rt.engine event = some e →
      (Kept rt ev → Spared rt.engine event) → P e) : P rt'.engine := by
  cases h with
  | acted _ hstep => exact hkeep _ _ hstep id
  | stands _ => exact hP
  | corrected _ _ _ => exact hkeep (.correctStartupMode _) _ rfl fun _ => trivial
  | stopped => exact hP

theorem start_engine {S : Setup} {modes : List String} (hmodes : HasModes S modes)
    (repr : Json → String) (file : ModeFile) : ∃ mode lastFlow, mode ∈ modes ∧
      start S repr file = { engine := Engine.started mode lastFlow } := by
  unfold start
  rw [hmodes.valid]
  dsimp only
  split
  · exact ⟨fallbackMode, none, hmodes.fallback, rfl⟩
  · rename_i hvalid
    refine ⟨_, _, ?_, rfl⟩
    by_contra hmem
    exact hvalid ⟨List.ne_nil_of_mem hmodes.fallback, hmem⟩

theorem sound_of_reachable {S : Setup} {modes : List String} {repr : Json → String}
    {file : ModeFile} {ok : Runtime → Event → Prop} {rt : Runtime} (hmodes : HasModes S modes)
    (h : ReachableBy (step S) ok (start S repr file) rt) : Sound S modes rt.engine := by
  apply h.invariant (P := fun rt => Sound S modes rt.engine)
  · obtain ⟨mode, lastFlow, hmode, heq⟩ := start_engine hmodes repr file
    rw [heq]
    exact ⟨rfl, hmode, by simp [Engine.started]⟩
  · intro t ev u ht _ hstep
    exact outcome_keeps (step_outcome hstep) ht fun _ _ he _ => ht.step hmodes (step_effect he)

/-- Single flight, and what goes with it. -/
structure InFlight (e : Engine) : Prop where
  good : Good e
  callers : Callers e
  marked : Marked e

theorem inFlight_of_reachable {S : Setup} {repr : Json → String} {file : ModeFile} {rt : Runtime}
    (h : ReachableBy (step S) Kept (start S repr file) rt) : InFlight rt.engine := by
  apply h.invariant (P := fun rt => InFlight rt.engine)
  · have hstart : ∃ mode lastFlow, (start S repr file).engine = Engine.started mode lastFlow := by
      unfold start
      dsimp only
      split
      · exact ⟨_, _, rfl⟩
      · exact ⟨_, _, rfl⟩
    obtain ⟨mode, lastFlow, heq⟩ := hstart
    rw [heq]
    exact ⟨good_of_spared (S := S) .start, started_callers mode lastFlow, started_marked mode lastFlow⟩
  · intro t ev u ht hkept hstep
    refine outcome_keeps (step_outcome hstep) ht fun event e he hspared => ?_
    have heff := step_effect he
    exact ⟨good_step ht.good (hspared hkept) he, ht.callers.step heff, ht.marked.step ht.callers heff⟩

/-- What a run in progress says about its engine. -/
structure Busy (e : Engine) (i : Nat) (r : Run) : Prop where
  flag : e.flowRunning = true
  locked : e.locked = true
  last : i + 1 = e.runs.length
  caller : r.caller ≠ .left
  acted : e.acted = true

theorem InFlight.busy {e : Engine} {i : Nat} {r : Run} (h : InFlight e)
    (hr : e.runs[i]? = some r) (hprog : r.InProgress) : Busy e i r := by
  obtain ⟨done, hflag, hlock, hruns, hi, _, hlive⟩ := h.good.split hr hprog
  refine ⟨hflag, hlock, ?_, hlive.caller, h.marked.acted ?_⟩
  · simp [hruns, hi]
  · simp [hruns]

/-- While a run is in progress, no step changes the mode or the last flow. -/
theorem inProgress_step {S : Setup} {e e' : Engine} {ev : SingleFlight.Event} {i : Nat}
    {r r' : Run} (h : InFlight e) (heff : Effect S e ev e') (hr : e.runs[i]? = some r)
    (hr' : e'.runs[i]? = some r') (hprog : r'.InProgress) :
    r.InProgress ∧ e'.mode = e.mode ∧ e'.lastFlow = e.lastFlow := by
  have hbefore := heff.runs.inProgress hr hr' hprog
  have hbusy := h.busy hr hbefore
  refine ⟨hbefore, ?_⟩
  cases heff.mode with
  | same hsame => exact ⟨hsame.mode, hsame.lastFlow⟩
  | set hset => exact absurd hbusy.flag (by simp [hset.idle])
  | corrected hcorr => exact absurd hbusy.acted (by simp [hcorr.before])
  | @moved _ j _ _ hx htask hcaller _ _ hleft =>
    -- the run that ends is the one in progress, and then it no longer is
    have hlast := (h.callers.waiting _ _ hx hcaller).2.1
    obtain rfl : i = j := Nat.succ_injective (hbusy.last.trans hlast.symm)
    obtain rfl := Option.some.inj ((left_changes hleft hx).after.symm.trans hr')
    exact absurd hprog (by simp [Run.InProgress, htask])

/-- A run that a step ends has been collected by it. -/
theorem ended_step {S : Setup} {e e' : Engine} {ev : SingleFlight.Event} {i : Nat} {r r' : Run}
    (h : InFlight e) (hspared : Spared e ev) (heff : Effect S e ev e')
    (hr : e.runs[i]? = some r) (hr' : e'.runs[i]? = some r') (hprog : r.InProgress)
    (hdone : ¬ r'.InProgress) : Ended S e e' i r := by
  cases heff.runs with
  | same hruns =>
    rw [hruns.runs, hr] at hr'
    exact absurd (Option.some.inj hr' ▸ hprog) hdone
  | admitted hadm =>
    rw [hadm.admitted.runs, List.getElem?_append_left (List.getElem?_eq_some_iff.mp hr).1, hr] at hr'
    exact absurd (Option.some.inj hr' ▸ hprog) hdone
  | @movesOn _ j _ _ _ hm _ =>
    by_cases hi : i = j
    · subst hi
      obtain rfl := Option.some.inj (hm.changes.before.symm.trans hr)
      obtain rfl := Option.some.inj (hm.changes.after.symm.trans hr')
      exact absurd (Or.inr (mt hm.caller.mp (h.busy hr hprog).caller)) hdone
    · rw [hm.changes.others i hi, hr] at hr'
      exact absurd (Option.some.inj hr' ▸ hprog) hdone
  | @ended _ j _ _ _ _ hx _ hcaller hend _ =>
    have hlast := (h.callers.waiting _ _ hx hcaller).2.1
    obtain rfl := Nat.succ_injective ((h.busy hr hprog).last.trans hlast.symm)
    obtain rfl := Option.some.inj (hx.symm.trans hr)
    exact hend
  | abandoned hx hcaller => exact absurd hcaller (hspared _ hx)

/-- The mode and the last flow stay. -/
def Unmoved (e e' : Engine) : Prop := e'.mode = e.mode ∧ e'.lastFlow = e.lastFlow

theorem unmoved_of_same {e e' : Engine} (h : SameMode e e') : Unmoved e e' := ⟨h.mode, h.lastFlow⟩

/-- What a flow's end makes of the mode and the last flow. -/
structure FlowEnd (S : Setup) (e e' : Engine) (r r' : Run) : Prop where
  ok_iff : Ok r' ↔ Succeeds S r
  ok : Succeeds S r → e'.mode = (S.targetMode r.report.flowName).getD e.mode ∧
    e'.lastFlow = some (logicalName r.report.flowName)
  failed : ¬ Succeeds S r → Unmoved e e'

theorem targetMode_strip {S : Setup} {name mode : String} (h : S.targetMode name = some mode) :
    strip mode = mode := by
  unfold Setup.targetMode at h
  split at h
  · obtain ⟨before, after, htable, _⟩ := List.lookup_eq_some_iff.mp h
    have hfixed : ∀ p ∈ targetModes, strip p.2 = p.2 := by decide
    exact hfixed (strip name, mode) (by simp [htable])
  · simp at h

theorem flowEnd_of_ended {S : Setup} {modes : List String} {e e' : Engine} {i : Nat} {r r' : Run}
    (h : Ended S e e' i r) (hsound : Sound S modes e) (hr : e.runs[i]? = some r)
    (hr' : e'.runs[i]? = some r') : FlowEnd S e e' r r' := by
  have htarget := hsound.targets r (List.mem_of_getElem? hr)
  cases h with
  | ok hok hmoved hleft =>
    obtain rfl := Option.some.inj ((left_changes hleft hr).after.symm.trans hr')
    refine ⟨⟨fun _ => hok, fun _ => rfl⟩, fun _ => ⟨?_, hmoved.lastFlow⟩, fun hnot => absurd hok hnot⟩
    rw [hmoved.mode, htarget]
    cases hmode : S.targetMode r.report.flowName with
    | none => rfl
    | some mode => exact targetMode_strip hmode
  | failed error hnot hsame _ _ hleft =>
    obtain rfl := Option.some.inj ((left_changes hleft hr).after.symm.trans hr')
    refine ⟨⟨fun hok => ?_, fun hok => absurd hok hnot⟩, fun hok => absurd hok hnot,
      fun _ => unmoved_of_same hsame⟩
    simp [Ok, FlowRunReport.finish] at hok

theorem not_answered_both {e e' : Engine} (h : Answered e e' true) (h' : Answered e e' false) :
    False := by
  obtain ⟨reply, hreply, hok⟩ := h
  obtain ⟨reply', hreply', hok'⟩ := h'
  obtain rfl : reply = reply' := by simpa [hreply] using hreply'
  simp [hok] at hok'

theorem not_answered_same {e e' : Engine} {ok : Bool} (hsame : e'.replies = e.replies) :
    ¬ Answered e e' ok := by
  rintro ⟨reply, hreply, _⟩
  simp [hsame] at hreply

/-- Only these change the mode or the last flow. -/
inductive Reason (S : Setup) (rt rt' : Runtime) : Event → Prop
  | modeSet (name trigger : String) : Answered rt.engine rt'.engine true →
      rt'.engine.mode = strip name → rt'.engine.lastFlow = rt.engine.lastFlow →
      Reason S rt rt' (.act (.setMode name trigger))
  | flow {ev : Event} (i : Nat) (r r' : Run) : rt.engine.runs[i]? = some r →
      rt'.engine.runs[i]? = some r' → r.InProgress → ¬ r'.InProgress → Ok r' → Reason S rt rt' ev
  | check (room : Room) : rt.startup = .waiting → rt.engine.acted = false →
      room.want = some rt'.engine.mode → rt'.engine.lastFlow = some rt'.engine.mode →
      Reason S rt rt' (.startupCheck room)

/-- What a step does to the mode and the last flow. -/
structure StepMoves (S : Setup) (rt : Runtime) (ev : Event) (rt' : Runtime) : Prop where
  admits : ∀ (i : Nat) (r' : Run), rt.engine.runs[i]? = none → rt'.engine.runs[i]? = some r' →
    Unmoved rt.engine rt'.engine
  ends : ∀ (i : Nat) (r r' : Run), rt.engine.runs[i]? = some r → rt'.engine.runs[i]? = some r' → r.InProgress →
    ¬ r'.InProgress → FlowEnd S rt.engine rt'.engine r r'
  turned_down : Answered rt.engine rt'.engine false → Unmoved rt.engine rt'.engine
  reason : ¬ Unmoved rt.engine rt'.engine → Reason S rt rt' ev

theorem effect_reason {S : Setup} {rt : Runtime} {e : Engine} {event : SingleFlight.Event}
    (hcheck : ∀ want, event ≠ .correctStartupMode want) (heff : Effect S rt.engine event e)
    (hmoved : ¬ Unmoved rt.engine e) : Reason S rt { rt with engine := e } (.act event) := by
  cases heff.mode with
  | same hsame => exact absurd (unmoved_of_same hsame) hmoved
  | set hset => exact .modeSet _ _ hset.answered hset.mode hset.lastFlow
  | corrected _ => exact absurd rfl (hcheck _)
  | @moved _ i r _ hr htask hcaller hok _ hleft =>
    exact .flow i r _ hr (left_changes hleft hr).after (Or.inr hcaller)
      (by simp [Run.InProgress, htask]) rfl

theorem effect_turned_down {S : Setup} {e e' : Engine} {event : SingleFlight.Event}
    (heff : Effect S e event e') (h : Answered e e' false) : Unmoved e e' := by
  cases heff.mode with
  | same hsame => exact unmoved_of_same hsame
  | set hset => exact (not_answered_both hset.answered h).elim
  | corrected hcorr => exact absurd h (not_answered_same hcorr.replies)
  | moved _ _ _ _ hmoved _ => exact (not_answered_both hmoved.answered h).elim

/-- A step that admits a flow does nothing else. -/
theorem effect_admits {S : Setup} {e e' : Engine} {event : SingleFlight.Event} {i : Nat} {r' : Run}
    (heff : Effect S e event e') (hr : e.runs[i]? = none) (hr' : e'.runs[i]? = some r') :
    Unmoved e e' := by
  have hlen := (List.getElem?_eq_some_iff.mp hr').1
  have hlen' := List.getElem?_eq_none_iff.mp hr
  cases heff.mode with
  | same hsame => exact unmoved_of_same hsame
  | set hset =>
    rw [hset.runs.runs] at hlen
    omega
  | corrected hcorr =>
    rw [hcorr.runs.runs] at hlen
    omega
  | moved hx _ _ _ _ hleft =>
    rw [(left_changes hleft hx).length] at hlen
    omega

theorem stepMoves {S : Setup} {modes : List String} {rt rt' : Runtime} {ev : Event}
    (hflight : InFlight rt.engine) (hsound : Sound S modes rt.engine) (hkept : Kept rt ev)
    (hstep : step S rt ev = some rt') : StepMoves S rt ev rt' := by
  have hends : ∀ event e, Spared rt.engine event → Effect S rt.engine event e →
      ∀ (i : Nat) (r r' : Run), rt.engine.runs[i]? = some r → e.runs[i]? = some r' → r.InProgress → ¬ r'.InProgress →
      FlowEnd S rt.engine e r r' := by
    intro event e hspared heff i r r' hr hr' hprog hdone
    exact flowEnd_of_ended (ended_step hflight hspared heff hr hr' hprog hdone) hsound hr hr'
  cases step_outcome hstep with
  | acted hcheck he =>
    have heff := step_effect he
    exact ⟨fun i r' => effect_admits heff, hends _ _ hkept heff, effect_turned_down heff,
      effect_reason hcheck heff⟩
  | stands hwait =>
    refine ⟨fun _ _ _ _ => ⟨rfl, rfl⟩, fun i r r' hr hr' hprog hdone => ?_, fun _ => ⟨rfl, rfl⟩,
      fun h => absurd ⟨rfl, rfl⟩ h⟩
    obtain rfl := Option.some.inj (hr.symm.trans hr')
    exact absurd hprog hdone
  | corrected hwait hwant hcorr =>
    have heff := Effect.corrected hcorr
    refine ⟨fun i r' => effect_admits heff, hends (.correctStartupMode _) _ trivial heff,
      effect_turned_down heff, fun _ => .check _ hwait hcorr.before ?_ ?_⟩
    · exact hwant.trans (congrArg some hcorr.mode.symm)
    · exact hcorr.lastFlow.trans (congrArg some hcorr.mode.symm)
  | stopped =>
    refine ⟨fun _ _ _ _ => ⟨rfl, rfl⟩, fun i r r' hr hr' hprog hdone => ?_, fun _ => ⟨rfl, rfl⟩,
      fun h => absurd ⟨rfl, rfl⟩ h⟩
    obtain rfl := Option.some.inj (hr.symm.trans hr')
    exact absurd hprog hdone

def isCheck : Event → Bool
  | .startupCheck _ => true
  | _ => false

/-- Once done, the start-up task never runs again. -/
theorem checks_once {S : Setup} {rt rt' : Runtime} {evs : List Event}
    (h : execute (step S) rt evs = some rt') :
    evs.countP isCheck ≤ 1 ∧ (rt.startup = .done → evs.countP isCheck = 0) := by
  induction evs generalizing rt with
  | nil => simp
  | cons ev evs ih =>
    obtain ⟨t, ht, hrest⟩ := Option.bind_eq_some_iff.mp h
    obtain ⟨hle, hzero⟩ := ih hrest
    cases step_outcome ht with
    | acted _ _ => exact ⟨by simpa [isCheck] using hle, fun hs => by simpa [isCheck] using hzero hs⟩
    | stands hwait =>
      refine ⟨?_, fun hs => absurd (hs.symm.trans hwait) (by decide)⟩
      rw [List.countP_cons, hzero rfl]
      simp [isCheck]
    | corrected hwait _ _ =>
      refine ⟨?_, fun hs => absurd (hs.symm.trans hwait) (by decide)⟩
      rw [List.countP_cons, hzero rfl]
      simp [isCheck]
    | stopped => exact ⟨by simpa [isCheck] using hle, fun _ => by simpa [isCheck] using hzero rfl⟩

theorem acted_of_effect {S : Setup} {e e' : Engine} {event : SingleFlight.Event}
    (heff : Effect S e event e') (h : e.acted = true) : e'.acted = true := by
  cases heff with
  | flowRefused _ href => exact href.acted.trans h
  | flowAdmitted hadm => exact hadm.acted
  | signalRefused href => exact href.acted.trans h
  | signalAdmitted _ _ hadm => exact hadm.acted
  | modeRefused href => exact href.acted.trans h
  | modeSet hset => exact hset.acted
  | stands => exact h
  | corrected hcorr => exact hcorr.acted.trans h
  | movesOn hm _ => exact hm.acted.trans h
  | ended _ _ _ hend =>
    cases hend with
    | ok _ hmoved _ => exact hmoved.acted.trans h
    | failed _ _ _ hacted _ _ => exact hacted.trans h
  | abandoned _ _ => exact h

theorem acted_stays {S : Setup} {rt rt' : Runtime} (h : Reachable (step S) rt rt')
    (hacted : rt.engine.acted = true) : rt'.engine.acted = true := by
  apply h.invariant (P := fun rt => rt.engine.acted = true)
  · exact hacted
  · intro t ev u ht _ hstep
    exact outcome_keeps (step_outcome hstep) ht fun _ _ he _ => acted_of_effect (step_effect he) ht

/-- An accepted `set_mode` counts as having acted. -/
theorem acted_of_setMode {S : Setup} {rt rt' : Runtime} {name trigger : String}
    (hstep : step S rt (.act (.setMode name trigger)) = some rt')
    (hanswer : Answered rt.engine rt'.engine true) : rt'.engine.acted = true := by
  cases step_outcome hstep with
  | acted _ he =>
    obtain rfl := Option.some.inj he
    obtain href | hset := setMode_cases S rt.engine name trigger
    · exact (not_answered_both hanswer href.answered).elim
    · exact hset.acted

/-- The runtime after the events: its mode, its bindings and its last flow belong together, and
every change since the start had a reason. -/
structure ModeMoves (S : Setup) (modes : List String) (repr : Json → String) (file : ModeFile)
    (evs : List Event) (rt : Runtime) : Prop where
  bound : rt.engine.bindings = some rt.engine.mode
  known : rt.engine.mode ∈ modes
  step_moves : ∀ ev rt', Kept rt ev → step S rt ev = some rt' → StepMoves S rt ev rt'
  running : ∀ rt', ReachableBy (step S) Kept rt rt' → ∀ (i : Nat) (r r' : Run),
    rt.engine.runs[i]? = some r → rt'.engine.runs[i]? = some r' → r.InProgress → r'.InProgress →
    Unmoved rt.engine rt'.engine
  check_once : evs.countP isCheck ≤ 1
  check_first : ∀ before room after t u, evs = before ++ .startupCheck room :: after →
    execute (step S) (start S repr file) before = some t → step S t (.startupCheck room) = some u →
    ¬ Unmoved t.engine u.engine → t.engine.runs = [] ∧
      ∀ early name trigger late s s', before = early ++ .act (.setMode name trigger) :: late →
        execute (step S) (start S repr file) early = some s →
        step S s (.act (.setMode name trigger)) = some s' → ¬ Answered s.engine s'.engine true

/-- A run that is in progress was so all along, and no step of it moved the mode. -/
theorem running_unmoved {S : Setup} {rt rt' : Runtime} {i : Nat} {r : Run}
    (hflight : InFlight rt.engine) (h : ReachableBy (step S) Kept rt rt')
    (hr : rt.engine.runs[i]? = some r) : InFlight rt'.engine ∧
      ∃ r', rt'.engine.runs[i]? = some r' ∧ (r'.InProgress → Unmoved rt.engine rt'.engine) := by
  apply h.invariant (P := fun t => InFlight t.engine ∧ ∃ r', t.engine.runs[i]? = some r' ∧
    (r'.InProgress → Unmoved rt.engine t.engine))
  · exact ⟨hflight, r, hr, fun _ => ⟨rfl, rfl⟩⟩
  · intro t ev u ht hkept hstep
    obtain ⟨hf, q, hq, hqprog⟩ := ht
    refine outcome_keeps (P := fun e => InFlight e ∧ ∃ r', e.runs[i]? = some r' ∧
      (r'.InProgress → Unmoved rt.engine e)) (step_outcome hstep) ⟨hf, q, hq, hqprog⟩
      fun event e he hspared => ?_
    have heff := step_effect he
    have hsp := hspared hkept
    refine ⟨⟨good_step hf.good hsp he, hf.callers.step heff, hf.marked.step hf.callers heff⟩, ?_⟩
    have hlt := Nat.lt_of_lt_of_le (List.getElem?_eq_some_iff.mp hq).1 heff.runs.length
    refine ⟨e.runs[i], List.getElem?_eq_getElem hlt, fun hprog => ?_⟩
    obtain ⟨hqp, hmode, hlast⟩ :=
      inProgress_step hf heff hq (List.getElem?_eq_getElem hlt) hprog
    exact ⟨hmode.trans (hqprog hqp).1, hlast.trans (hqprog hqp).2⟩

theorem mode_moves_for_a_reason {S : Setup} {modes : List String} (hmodes : HasModes S modes)
    (repr : Json → String) (file : ModeFile) {evs : List Event} {rt : Runtime}
    (h : execute (step S) (start S repr file) evs = some rt)
    (hkept : Along (step S) Kept (start S repr file) evs) :
    ModeMoves S modes repr file evs rt := by
  have hreach := reachableBy_of_execute h hkept
  have hsound := sound_of_reachable hmodes hreach
  have hflight := inFlight_of_reachable hreach
  refine ⟨hsound.bound, hsound.known, fun ev rt' => stepMoves hflight hsound, ?_,
    (checks_once h).1, ?_⟩
  · intro rt' hrun i r r' hr hr' _ hprog
    obtain ⟨_, q, hq, hunmoved⟩ := running_unmoved hflight hrun hr
    obtain rfl := Option.some.inj (hq.symm.trans hr')
    exact hunmoved hprog
  · intro before room after t u hevs ht hu hmoved
    have hflight' := inFlight_of_reachable
      (reachableBy_of_execute ht (along_append.mp (hevs ▸ hkept)).1)
    have hacted : t.engine.acted = false := by
      cases step_outcome hu with
      | stands _ => exact absurd ⟨rfl, rfl⟩ hmoved
      | corrected _ _ hcorr => exact hcorr.before
    refine ⟨?_, ?_⟩
    · by_contra hne
      simpa [hacted] using hflight'.marked.acted hne
    · intro early name trigger late s s' hbefore hs hs' hanswer
      rw [hbefore, execute_append, hs, Option.bind_some, execute_cons hs'] at ht
      simpa [hacted] using
        acted_stays (reachable_of_execute ht) (acted_of_setMode hs' hanswer)

instance (rt : Runtime) (ev : Event) : Decidable (Kept rt ev) :=
  match ev with
  | .act event => inferInstanceAs (Decidable (Spared rt.engine event))
  | .startupCheck _ | .stop => .isTrue trivial

/-- The modes of keymap.json. -/
def keymapModes : List String := ["power_off", "watch", "listen"]

def audioproSetup : Setup :=
  { flows := ["watch", "listen", "watch_signal", "listen_signal", "power_off"]
    dispatcher := some keymapModes, history := true }

/-- A soundbar that reported nothing, and a TV that is on. -/
def watchingRoom : Room :=
  { tv := some { received := true, presenceOn := some true }, speaker := none }

/-- The check moves the mode, a flow fails, a mode is set, a signal's flow succeeds. -/
def firstEvening : List Event :=
  [.startupCheck watchingRoom, .act (.runFlow "listen" "http.ha"),
    .act (.setMode "power_off" "http.ha"), .act (.taskEnds 0 (.returned false)), .act (.resume 0),
    .act (.setMode "power_off" "http.ha"), .act (.deviceStateChange "listen"),
    .act (.taskEnds 1 (.returned true)), .act (.resume 1)]

theorem first_evening_moves : ∃ rt,
    execute (step audioproSetup) (start audioproSetup (fun _ => "") .missing) firstEvening =
      some rt ∧ rt.engine.mode = "listen" ∧ rt.engine.lastFlow = some "listen" ∧
      ModeMoves audioproSetup keymapModes (fun _ => "") .missing firstEvening rt := by
  have hrun : (execute (step audioproSetup) (start audioproSetup (fun _ => "") .missing)
      firstEvening).map (fun rt => (rt.engine.mode, rt.engine.lastFlow)) =
      some ("listen", some "listen") := by decide
  obtain ⟨rt, hrt, hseen⟩ := Option.map_eq_some_iff.mp hrun
  obtain ⟨hmode, hlast⟩ := Prod.mk.inj hseen
  exact ⟨rt, hrt, hmode, hlast,
    mode_moves_for_a_reason ⟨rfl, by decide⟩ (fun _ => "") .missing hrt (by decide)⟩

end PiHub.StartupMode

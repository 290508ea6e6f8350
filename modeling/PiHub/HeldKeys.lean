import PiHub.Dispatcher
import PiHub.Transition

/-! Key presses and mode changes against the dispatcher: when all keys are up, what the
host last heard of the keyboard and of the consumer keys. -/
namespace PiHub.HeldKeys
open PiHub.Transition PiHub.HostFrames PiHub.Keymap PiHub.Dispatcher

/-- Where a press is: its down edge waiting in `on_usb_edge`, handled, its up edge waiting,
or handled. -/
inductive Stage where
  | downWaits (phase : EdgePhase)
  | held
  | upWaits (phase : EdgePhase)
  | released
  deriving DecidableEq

structure Press where
  remKey : String
  stage : Stage
  deriving DecidableEq

/-- The dispatcher and every press since the start, from the USB remote or from HTTP. -/
structure System where
  dispatcher : State := {}
  presses : List Press := []

/-- The down edge of a new press, the up edge of press `i`, its call going on after a wait,
and what happens beside the presses. -/
inductive Event where
  | down (remKey : String)
  | up (i : Nat)
  | resume (i : Nat)
  | setModeBindings (mode : Option String)
  | task (t : Nat)
  | speakerTakes
  | tick (ms : Nat)

/-- The stage after a step of the down edge's call. -/
def afterDown : Progress EdgePhase → Stage
  | .waits phase => .downWaits phase
  | _ => .held

def afterUp : Progress EdgePhase → Stage
  | .waits phase => .upWaits phase
  | _ => .released

/-- The up edge of the press has been given. -/
def Press.Given (p : Press) : Prop :=
  match p.stage with
  | .downWaits _ | .held => False
  | .upWaits _ | .released => True

instance (p : Press) : Decidable p.Given := by
  unfold Press.Given
  split <;> infer_instance

/-- A key goes down again only after its last up edge was given. -/
def step (S : Setup) (s : System) : Event → Option System
  | .down remKey =>
    if ∀ p ∈ s.presses, p.remKey = remKey → p.Given then
      let r := edgeStep S s.dispatcher remKey .down none
      some { dispatcher := r.1, presses := s.presses ++ [⟨remKey, afterDown r.2⟩] }
    else none
  | .up i =>
    match s.presses[i]? with
    | some ⟨remKey, .held⟩ =>
      let r := edgeStep S s.dispatcher remKey .up none
      some { dispatcher := r.1, presses := s.presses.set i ⟨remKey, afterUp r.2⟩ }
    | _ => none
  | .resume i =>
    match s.presses[i]? with
    | some ⟨remKey, .downWaits phase⟩ =>
      if s.dispatcher.Live phase.task then none
      else
        let r := edgeStep S s.dispatcher remKey .down (some phase)
        some { dispatcher := r.1, presses := s.presses.set i ⟨remKey, afterDown r.2⟩ }
    | some ⟨remKey, .upWaits phase⟩ =>
      if s.dispatcher.Live phase.task then none
      else
        let r := edgeStep S s.dispatcher remKey .up (some phase)
        some { dispatcher := r.1, presses := s.presses.set i ⟨remKey, afterUp r.2⟩ }
    | _ => none
  | .setModeBindings mode => some { s with dispatcher := s.dispatcher.setModeBindings mode }
  | .task t => (taskStep S s.dispatcher t).map fun d => { s with dispatcher := d }
  | .speakerTakes => some { s with dispatcher := s.dispatcher.speakerTakes }
  | .tick ms => some { s with dispatcher := { s.dispatcher with now := s.dispatcher.now + ms } }

/-- An up edge, new or after a wait, finds that its key's repeat task has failed. -/
def UpFails (s : State) (remKey : String) : Option EdgePhase → Prop
  | none => ∃ t ∈ s.repeatTasks.lookup remKey, s.taskState t = .failed
  | some (.stopRepeat t) => s.taskState t = .failed
  | some (.cancelHolds _ _) => False

/-- An up edge, new or after a wait, gets to its actions in this step. -/
def UpRuns (s : State) (remKey : String) : Option EdgePhase → Prop
  | none => (∀ t ∈ s.repeatTasks.lookup remKey, s.taskState t = .ended) ∧
      ¬ s.Blocked (s.holdKeys remKey)
  | some (.stopRepeat t) => s.taskState t ≠ .failed ∧ ¬ s.Blocked (s.holdKeys remKey)
  | some (.cancelHolds _ rest) => ¬ s.Blocked rest

/-- If the last report of a usage is a press for this key, the key's actions in the mode now
in force release it, and nothing raised keeps them from running. -/
def UpCovered (S : Setup) (s : State) (remKey : String) (phase : Option EdgePhase) : Prop :=
  ∀ u, HeldFor s.sent (some remKey) u → ¬ UpFails s remKey phase ∧
    (UpRuns s remKey phase →
      zeroFrame u ∈ S.edgeFrames s.mode .up (S.actions s.mode remKey))

def Covered (S : Setup) (s : System) : Event → Prop
  | .up i => ∀ p ∈ s.presses[i]?, UpCovered S s.dispatcher p.remKey none
  | .resume i => ∀ p ∈ s.presses[i]?,
      match p.stage with
      | .upWaits phase => UpCovered S s.dispatcher p.remKey (some phase)
      | _ => True
  | _ => True

instance (s : State) (remKey : String) (phase : Option EdgePhase) :
    Decidable (UpFails s remKey phase) := by
  unfold UpFails
  split <;> infer_instance

instance (s : State) (remKey : String) (phase : Option EdgePhase) :
    Decidable (UpRuns s remKey phase) := by
  unfold UpRuns
  split <;> infer_instance

instance (S : Setup) (s : State) (remKey : String) (phase : Option EdgePhase) :
    Decidable (UpCovered S s remKey phase) :=
  decidable_of_iff (∀ u ∈ [Usage.keyboard, Usage.consumer],
      HeldFor s.sent (some remKey) u → ¬ UpFails s remKey phase ∧
        (UpRuns s remKey phase →
          zeroFrame u ∈ S.edgeFrames s.mode .up (S.actions s.mode remKey)))
    ⟨fun h u => h u (by cases u <;> simp), fun h u _ => h u⟩

instance (S : Setup) (s : System) (e : Event) : Decidable (Covered S s e) := by
  unfold Covered
  split
  · infer_instance
  · have (p : Press) : Decidable (match p.stage with
        | .upWaits phase => UpCovered S s.dispatcher p.remKey (some phase)
        | _ => True) := by
      split <;> infer_instance
    infer_instance
  · infer_instance

theorem cancelThenRun_sent (S : Setup) (s : State) (remKey : String) (edge : Edge)
    (keys : List HoldKey) :
    (∃ phase, (cancelThenRun S s remKey edge keys).2 = .waits phase) ∧
        (cancelThenRun S s remKey edge keys).1.sent = s.sent ∨
      ¬ s.Blocked keys ∧ (cancelThenRun S s remKey edge keys).1.sent =
        ((S.edgeFrames s.mode edge (S.actions s.mode remKey)).map fun f =>
          (f, some remKey)).reverse ++ s.sent := by
  have hacted := cancelHoldTasks_acted s keys
  have hsent := cancelHoldTasks_sent s keys
  cases hcancel : s.cancelHoldTasks keys with
  | mk t waits =>
    rw [hcancel] at hacted hsent
    cases waits with
    | some wait =>
      refine Or.inl ⟨⟨.cancelHolds wait.1 wait.2, ?_⟩, ?_⟩
      · simp [cancelThenRun, hcancel]
      · simpa [cancelThenRun, hcancel] using hsent
    | none =>
      refine Or.inr ⟨not_blocked_of_cancelled (by rw [hcancel]), ?_⟩
      have hrun := runEdge_sent S t remKey edge
      rw [hacted.mode, hsent] at hrun
      simpa [cancelThenRun, hcancel] using hrun

/-- The frames that a step of a down edge's call hands over. -/
theorem edgeStep_down_sent (S : Setup) (s : State) (remKey : String) (phase : Option EdgePhase) :
    ∃ fs : List Frame, (edgeStep S s remKey .down phase).1.sent =
        (fs.map fun f => (f, some remKey)).reverse ++ s.sent ∧
      (fs ≠ [] → ¬ s.Blocked (s.keysLeft remKey phase) ∧
        fs = S.edgeFrames s.mode .down (S.actions s.mode remKey)) := by
  have hrun (t : State) (keys : List HoldKey) : ∃ fs : List Frame,
      (cancelThenRun S t remKey .down keys).1.sent =
          (fs.map fun f => (f, some remKey)).reverse ++ t.sent ∧
        (fs ≠ [] → ¬ t.Blocked keys ∧
          fs = S.edgeFrames t.mode .down (S.actions t.mode remKey)) := by
    cases cancelThenRun_sent S t remKey .down keys with
    | inl hwaits => exact ⟨[], hwaits.2, by simp⟩
    | inr hruns => exact ⟨_, hruns.2, fun _ => ⟨hruns.1, rfl⟩⟩
  cases phase with
  | none => exact hrun { s with pressedAt := s.pressedAt.insert remKey s.now } _
  | some phase =>
    cases phase with
    | cancelHolds t rest => exact hrun s rest
    | stopRepeat t =>
      by_cases hfailed : s.taskState t = .failed
      · exact ⟨[], by simp [edgeStep, resumeEdge, hfailed]⟩
      · rw [edgeStep, resumeEdge, if_neg hfailed]
        exact hrun s (s.holdKeys remKey)

theorem edgeStep_up_sent (S : Setup) (s : State) (remKey : String) (phase : Option EdgePhase) :
    (∃ phase', (edgeStep S s remKey .up phase).2 = .waits phase') ∧
        (edgeStep S s remKey .up phase).1.sent = s.sent ∨
      UpFails s remKey phase ∧ (edgeStep S s remKey .up phase).1.sent = s.sent ∨
      UpRuns s remKey phase ∧ (edgeStep S s remKey .up phase).1.sent =
        ((S.edgeFrames s.mode .up (S.actions s.mode remKey)).map fun f =>
          (f, some remKey)).reverse ++ s.sent := by
  cases phase with
  | none =>
    cases hrepeat : s.repeatTasks.lookup remKey with
    | none =>
      rw [edgeStep, onUsbEdge_up_none S hrepeat]
      cases cancelThenRun_sent S s remKey .up (s.holdKeys remKey) with
      | inl hwaits => exact Or.inl hwaits
      | inr hruns => exact Or.inr (Or.inr ⟨⟨by simp [hrepeat], hruns.1⟩, hruns.2⟩)
    | some t =>
      rw [edgeStep, onUsbEdge_up_repeat S hrepeat]
      by_cases hlive : s.Live t
      · rw [if_pos hlive]
        exact Or.inl ⟨⟨_, rfl⟩, rfl⟩
      rw [if_neg hlive]
      by_cases hfailed : s.taskState t = .failed
      · rw [if_pos hfailed]
        exact Or.inr (Or.inl ⟨⟨t, hrepeat, hfailed⟩, rfl⟩)
      rw [if_neg hfailed]
      have hended : s.taskState t = .ended := by
        by_contra hne
        exact hlive ⟨hne, hfailed⟩
      cases cancelThenRun_sent S ((s.popRepeat remKey).cancel t) remKey .up
          (s.holdKeys remKey) with
      | inl hwaits => exact Or.inl hwaits
      | inr hruns =>
        refine Or.inr (Or.inr ⟨⟨by simpa [hrepeat] using hended, ?_⟩, hruns.2⟩)
        intro hblocked
        obtain ⟨key, hmem, t', hlookup, hlive'⟩ := hblocked
        exact hruns.1 ⟨key, hmem, t', hlookup, by simpa using hlive'⟩
  | some phase =>
    cases phase with
    | cancelHolds t rest =>
      cases cancelThenRun_sent S s remKey .up rest with
      | inl hwaits => exact Or.inl hwaits
      | inr hruns => exact Or.inr (Or.inr hruns)
    | stopRepeat t =>
      rw [edgeStep, resumeEdge]
      by_cases hfailed : s.taskState t = .failed
      · rw [if_pos hfailed]
        exact Or.inr (Or.inl ⟨hfailed, rfl⟩)
      · rw [if_neg hfailed]
        cases cancelThenRun_sent S s remKey .up (s.holdKeys remKey) with
        | inl hwaits => exact Or.inl hwaits
        | inr hruns => exact Or.inr (Or.inr ⟨⟨hfailed, hruns.1⟩, hruns.2⟩)

/-- A key for which a usage is held has a press that is not over. -/
def Good (s : System) : Prop :=
  ∀ who u, HeldFor s.dispatcher.sent who u →
    ∃ p ∈ s.presses, who = some p.remKey ∧ p.stage ≠ .released

theorem Good.same_sent {s : System} {d : State} (h : Good s) (hsent : d.sent = s.dispatcher.sent) :
    Good { s with dispatcher := d } := by
  intro who u hheld
  exact h who u (hsent ▸ hheld)

theorem mem_set_or {ps : List Press} {p q : Press} (i : Nat) (h : p ∈ ps) :
    p ∈ ps.set i q ∨ ps[i]? = some p := by
  obtain ⟨j, hj⟩ := List.mem_iff_getElem?.mp h
  by_cases hij : i = j
  · exact Or.inr (hij ▸ hj)
  · exact Or.inl (List.mem_iff_getElem?.mpr ⟨j, by rwa [List.getElem?_set_ne hij]⟩)

theorem afterDown_ne_released (progress : Progress EdgePhase) : afterDown progress ≠ .released := by
  cases progress with
  | waits phase => simp [afterDown]
  | returns => simp [afterDown]
  | raises => simp [afterDown]

/-- A press whose down edge takes a step is not over, and what is held is held for it, or as
before. -/
theorem Good.down {S : Setup} {s : System} {i : Nat} {p : Press} {phase : Option EdgePhase}
    (h : Good s) (hp : s.presses[i]? = some p) :
    Good { dispatcher := (edgeStep S s.dispatcher p.remKey .down phase).1
           presses := s.presses.set i
            ⟨p.remKey, afterDown (edgeStep S s.dispatcher p.remKey .down phase).2⟩ } := by
  intro who u hheld
  obtain ⟨fs, hsent, _⟩ := edgeStep_down_sent S s.dispatcher p.remKey phase
  have hnew : (⟨p.remKey, afterDown (edgeStep S s.dispatcher p.remKey .down phase).2⟩ : Press) ∈
      s.presses.set i ⟨p.remKey, afterDown (edgeStep S s.dispatcher p.remKey .down phase).2⟩ :=
    List.mem_set (List.getElem?_eq_some_iff.mp hp).1 _
  rw [hsent] at hheld
  cases heldFor_append hheld with
  | inl hkey => exact ⟨_, hnew, hkey.1, afterDown_ne_released _⟩
  | inr hold =>
    obtain ⟨q, hq, hwho, hstage⟩ := h who u hold.1
    cases mem_set_or i hq with
    | inl hmem => exact ⟨q, hmem, hwho, hstage⟩
    | inr hsame =>
      obtain rfl : p = q := Option.some.inj (hp.symm.trans hsame)
      exact ⟨_, hnew, hwho, afterDown_ne_released _⟩

/-- An up edge that is covered leaves nothing held for its key once it is handled. -/
theorem Good.up {S : Setup} {s : System} {i : Nat} {p : Press} {phase : Option EdgePhase}
    (h : Good s) (hp : s.presses[i]? = some p)
    (hcovered : UpCovered S s.dispatcher p.remKey phase) :
    Good { dispatcher := (edgeStep S s.dispatcher p.remKey .up phase).1
           presses := s.presses.set i
            ⟨p.remKey, afterUp (edgeStep S s.dispatcher p.remKey .up phase).2⟩ } := by
  intro who u hheld
  -- a press of another key stays as it is
  have hother : HeldFor s.dispatcher.sent who u → who ≠ some p.remKey →
      ∃ q ∈ s.presses.set i ⟨p.remKey, afterUp (edgeStep S s.dispatcher p.remKey .up phase).2⟩,
        who = some q.remKey ∧ q.stage ≠ .released := by
    intro hold hne
    obtain ⟨q, hq, hwho, hq'⟩ := h who u hold
    cases mem_set_or i hq with
    | inl hmem => exact ⟨q, hmem, hwho, hq'⟩
    | inr hsame =>
      obtain rfl : p = q := Option.some.inj (hp.symm.trans hsame)
      exact absurd hwho hne
  cases edgeStep_up_sent S s.dispatcher p.remKey phase with
  | inl hwaits =>
    obtain ⟨⟨phase', hphase⟩, hsent⟩ := hwaits
    by_cases hwho : who = some p.remKey
    · refine ⟨⟨p.remKey, .upWaits phase'⟩, ?_, hwho, by simp⟩
      rw [hphase]
      exact List.mem_set (List.getElem?_eq_some_iff.mp hp).1 _
    · exact hother (hsent ▸ hheld) hwho
  | inr hends =>
    cases hends with
    | inl hfails =>
      have hold : HeldFor s.dispatcher.sent who u := hfails.2 ▸ hheld
      apply hother hold
      intro hwho
      subst hwho
      exact (hcovered u hold).1 hfails.1
    | inr hruns =>
      obtain ⟨hold, hframes⟩ := heldFor_up (hruns.2 ▸ hheld)
      apply hother hold
      intro hwho
      subst hwho
      exact hframes _ ((hcovered u hold).2 hruns.1) rfl

theorem Good.press {S : Setup} {s : System} (remKey : String) (h : Good s) :
    Good { dispatcher := (edgeStep S s.dispatcher remKey .down none).1
           presses := s.presses ++
            [⟨remKey, afterDown (edgeStep S s.dispatcher remKey .down none).2⟩] } := by
  intro who u hheld
  obtain ⟨fs, hsent, _⟩ := edgeStep_down_sent S s.dispatcher remKey none
  rw [hsent] at hheld
  cases heldFor_append hheld with
  | inl hkey =>
    exact ⟨_, List.mem_append_right _ (List.mem_singleton.mpr rfl), hkey.1,
      afterDown_ne_released _⟩
  | inr hold =>
    obtain ⟨q, hq, hwho, hstage⟩ := h who u hold.1
    exact ⟨q, List.mem_append_left _ hq, hwho, hstage⟩

theorem good_step {S : Setup} {s s' : System} {e : Event} (h : Good s) (hcovered : Covered S s e)
    (hstep : step S s e = some s') : Good s' := by
  cases e with
  | down remKey =>
    simp only [step] at hstep
    split at hstep
    case isFalse => simp at hstep
    case isTrue =>
      obtain rfl := Option.some.inj hstep
      exact h.press remKey
  | up i =>
    cases hp : s.presses[i]? with
    | none => simp [step, hp] at hstep
    | some p =>
      obtain ⟨remKey, stage⟩ := p
      cases stage with
      | held =>
        simp only [step, hp, Option.some.injEq] at hstep
        exact hstep ▸ h.up hp (hcovered _ hp)
      | downWaits phase => simp [step, hp] at hstep
      | upWaits phase => simp [step, hp] at hstep
      | released => simp [step, hp] at hstep
  | resume i =>
    cases hp : s.presses[i]? with
    | none => simp [step, hp] at hstep
    | some p =>
      obtain ⟨remKey, stage⟩ := p
      cases stage with
      | held => simp [step, hp] at hstep
      | released => simp [step, hp] at hstep
      | downWaits phase =>
        simp only [step, hp] at hstep
        split at hstep
        case isTrue => simp at hstep
        case isFalse => exact Option.some.inj hstep ▸ h.down hp
      | upWaits phase =>
        simp only [step, hp] at hstep
        split at hstep
        case isTrue => simp at hstep
        case isFalse =>
          exact Option.some.inj hstep ▸ h.up hp (hcovered _ hp)
  | setModeBindings mode => exact Option.some.inj hstep ▸ h.same_sent rfl
  | task t =>
    obtain ⟨d, hd, rfl⟩ := Option.map_eq_some_iff.mp hstep
    exact h.same_sent (taskStep_sent hd)
  | speakerTakes => exact Option.some.inj hstep ▸ h.same_sent rfl
  | tick ms => exact Option.some.inj hstep ▸ h.same_sent rfl

/-- In a run whose up edges are covered, once every press is over the last keyboard report
and the last consumer report handed to the dongle are zero. -/
theorem released_clean {S : Setup} {s : System}
    (h : ReachableBy (step S) (Covered S) {} s) (hover : ∀ p ∈ s.presses, p.stage = .released)
    (u : Usage) : Clean s.dispatcher.sent u := by
  have hgood : Good s := by
    apply h.invariant
    · intro who u hheld
      simp [HeldFor, lastFrame] at hheld
    · intro t e t' hgood hcovered hstep
      exact good_step hgood hcovered hstep
  apply clean_of_not_heldFor
  intro who hheld
  obtain ⟨p, hp, _, hstage⟩ := hgood who u hheld
  exact hstage (hover p hp)

/-- An excerpt of keymap.json. -/
def sampleKeymap : Json :=
  .obj [("modes", .obj [
    ("power_off", .obj [
      ("rem_mode_3", .arr [.obj [("domain", .str "noop")]])]),
    ("watch", .obj [
      ("rem_mode_1", .arr [.obj [("domain", .str "noop")],
        .obj [("domain", .str "flow"), ("min_hold_ms", .int 1000), ("action", .str "run"),
          ("name", .str "listen")]]),
      ("rem_vol_up", .arr [.obj [("domain", .str "speaker"), ("action", .str "volume_up")]]),
      ("rem_dir_left", .arr [.obj [("domain", .str "ble"), ("usage", .str "consumer"),
        ("code", .str "menu_left")]])])])]

def sampleSetup : Setup :=
  { hid := { hidKb := [], hidCc := [("menu_left", 68)] }
    bindings := (readKeymap sampleKeymap).toOption.getD ∅
    runFlow := true }

/-- A key pressed for a frame, one for the volume, whose repeat is waited for, in one mode. -/
def sampleEvents : List Event :=
  [.setModeBindings (some "watch"), .down "rem_dir_left", .down "rem_vol_up", .task 0, .up 0,
    .tick 500, .task 0, .up 1, .task 0, .resume 1, .setModeBindings (some "power_off")]

theorem released_clean_sample : ∃ s, execute (step sampleSetup) {} sampleEvents = some s ∧
    s.presses = [⟨"rem_dir_left", .released⟩, ⟨"rem_vol_up", .released⟩] ∧
      Clean s.dispatcher.sent .consumer := by
  have hpresses : (execute (step sampleSetup) {} sampleEvents).map System.presses =
      some [⟨"rem_dir_left", .released⟩, ⟨"rem_vol_up", .released⟩] := by decide
  obtain ⟨s, hs, hover⟩ := Option.map_eq_some_iff.mp hpresses
  exact ⟨s, hs, hover,
    released_clean (reachableBy_of_execute hs (by decide)) (by simp [hover]) .consumer⟩

/-- The mode changes while the key is down, as when a flow finishes. -/
def modeChanges : List Event :=
  [.setModeBindings (some "watch"), .down "rem_dir_left", .setModeBindings (some "power_off"),
    .up 0]

theorem key_left_held : (readKeymap sampleKeymap).isOk = true ∧
    ∃ s, execute (step sampleSetup) {} modeChanges = some s ∧
      s.presses = [⟨"rem_dir_left", .released⟩] ∧
        (lastFrame .consumer s.dispatcher.sent).map (fun e => e.1.bytes) = some [0x02, 0x44, 0x00] ∧
          ¬ Clean s.dispatcher.sent .consumer := by
  refine ⟨by decide, _, rfl, by decide, by decide, fun h => ?_⟩
  have hzero := h _ rfl
  exact absurd hzero (by decide)

/-- An up edge handled in the mode in which its key went down is covered, unless an action
overflows. -/
theorem upCovered_of_same_mode {S : Setup} {s : State} {remKey : String}
    {phase : Option EdgePhase} (hfails : ¬ UpFails s remKey phase)
    (hover : ∀ a ∈ S.actions s.mode remKey, S.overflows .up a = false)
    (hdown : ∀ u, HeldFor s.sent (some remKey) u →
      ∃ f ∈ S.edgeFrames s.mode .down (S.actions s.mode remKey), f.usage = u) :
    UpCovered S s remKey phase := by
  intro u hheld
  obtain ⟨f, hf, rfl⟩ := hdown u hheld
  exact ⟨hfails, fun _ => edgeFrames_up_of_down hf hover⟩

end PiHub.HeldKeys

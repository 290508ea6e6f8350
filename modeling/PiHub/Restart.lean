import PiHub.StartupMode

/-! A restart of the runtime engine (runtime.py): what `_remember` has saved and what the next
`start` makes of it. -/
namespace PiHub.Restart
open PiHub.Transition PiHub.PyStr PiHub.Keymap PiHub.SingleFlight PiHub.LastFlow
open PiHub.StartupMode

/-- mode.json once every save has landed, after a first start without it. -/
def savedFile (e : Engine) : ModeFile :=
  match e.remembered with
  | none => .missing
  | some (mode, lastFlow) =>
    .document (.obj [("mode", .str mode), ("last_flow", lastFlow.elim .null .str)])

def restarted (S : Setup) (repr : Json → String) (rt : Runtime) : Engine :=
  (start S repr (savedFile rt.engine)).engine

/-- With no flow running, the signal is turned down for the last flow. -/
def Suppresses (S : Setup) (e : Engine) (name : String) : Prop :=
  ∃ reply : Reply,
    ({ e with locked := false }.onDeviceStateChange S name).replies = e.replies ++ [reply] ∧
    (reply.reason = some "last_flow_listen" ∨ reply.reason = some "last_flow_watch")

theorem not_suppresses {S : Setup} {e : Engine} {name : String} (reply : Reply)
    (h : ({ e with locked := false }.onDeviceStateChange S name).replies = e.replies ++ [reply])
    (hlisten : reply.reason ≠ some "last_flow_listen")
    (hwatch : reply.reason ≠ some "last_flow_watch") : ¬ Suppresses S e name := by
  rintro ⟨reply', hreply', hreason⟩
  obtain rfl : reply = reply' := by simpa [h] using hreply'
  exact hreason.elim hlisten hwatch

/-- A signal under another last flow is not turned down for it. -/
theorem other_not_suppressed {S : Setup} {e : Engine} {name : String}
    (hlisten : ¬ (strip name = "listen" ∧ e.lastFlow = some "listen"))
    (hwatch : ¬ (strip name = "watch" ∧ e.lastFlow = some "watch")) : ¬ Suppresses S e name := by
  by_cases hname : strip name = ""
  · refine not_suppresses { ok := false, error := "state change name required" } ?_ (by simp)
      (by simp)
    simp [Engine.onDeviceStateChange, hname, Engine.reply, Engine.setRuntimeError]
  · cases hflow : signalFlow (strip name) with
    | none =>
      refine not_suppresses { ok := false, name := strip name
                              reason := "unknown_device_state_change" } ?_ (by simp) (by simp)
      unfold signalFlow at hflow
      simp [Engine.onDeviceStateChange, hname, hlisten, hwatch, hflow, Engine.reply,
        Engine.setRuntimeError]
    | some flow =>
      have hlast : e.lastFlow ≠ some (strip name) := by
        obtain ⟨heq, _⟩ | ⟨heq, _⟩ := signalFlow_cases hflow
        · exact fun h => hlisten ⟨heq, heq ▸ h⟩
        · exact fun h => hwatch ⟨heq, heq ▸ h⟩
      have hadm := onDeviceStateChange_admits (S := S) (e := { e with locked := false }) rfl hflow
        hlast
      rintro ⟨reply, hreply, _⟩
      rw [hadm.replies] at hreply
      simp at hreply

theorem suppresses_iff {S : Setup} {e : Engine} {name : String} : Suppresses S e name ↔
    (strip name = "listen" ∨ strip name = "watch") ∧ e.lastFlow = some (strip name) := by
  by_cases hlisten : strip name = "listen" ∧ e.lastFlow = some "listen"
  · refine ⟨fun _ => ⟨Or.inl hlisten.1, hlisten.1 ▸ hlisten.2⟩, fun _ => ?_⟩
    refine ⟨{ ok := false, name := strip name, reason := "last_flow_listen" }, ?_, Or.inl rfl⟩
    simp [Engine.onDeviceStateChange, hlisten, Engine.reply, Engine.setRuntimeOk]
  · by_cases hwatch : strip name = "watch" ∧ e.lastFlow = some "watch"
    · refine ⟨fun _ => ⟨Or.inr hwatch.1, hwatch.1 ▸ hwatch.2⟩, fun _ => ?_⟩
      refine ⟨{ ok := false, name := strip name, reason := "last_flow_watch" }, ?_, Or.inr rfl⟩
      simp [Engine.onDeviceStateChange, hwatch, Engine.reply, Engine.setRuntimeOk]
    · refine ⟨fun h => absurd h (other_not_suppressed hlisten hwatch), ?_⟩
      rintro ⟨hname | hname, hlast⟩
      · exact absurd ⟨hname, hlast.trans (congrArg some hname)⟩ hlisten
      · exact absurd ⟨hname, hlast.trans (congrArg some hname)⟩ hwatch

/-- What was saved last is what the engine has now; a last flow is never the empty string. -/
structure Saved (e : Engine) : Prop where
  names : ∀ r ∈ e.runs, r.report.flowName ≠ ""
  lastFlow : e.lastFlow ≠ some ""
  saved : (e.remembered = none ∧ e.mode = fallbackMode ∧ e.lastFlow = none) ∨
    e.remembered = some (e.mode, e.lastFlow)

theorem Saved.same {e e' : Engine} (h : Saved e) (hsame : SameMode e e')
    (hnames : ∀ r ∈ e'.runs, r.report.flowName ≠ "") : Saved e' := by
  refine ⟨hnames, ?_, ?_⟩
  · rw [hsame.lastFlow]
    exact h.lastFlow
  · rw [hsame.remembered, hsame.mode, hsame.lastFlow]
    exact h.saved

theorem logicalName_ne {name : String} (h : name ≠ "") : logicalName name ≠ "" := by
  unfold logicalName
  split
  · simp
  split
  · simp
  · exact h

theorem Saved.step {S : Setup} {e e' : Engine} {event : SingleFlight.Event} (h : Saved e)
    (hcheck : ∀ want, event = .correctStartupMode want → want ≠ "") (heff : Effect S e event e') :
    Saved e' := by
  have hnames : ∀ r ∈ e'.runs, r.report.flowName ≠ "" :=
    heff.runs.forall_runs h.names (fun _ _ _ hname => hname) fun r r' hname _ hr => hname ▸ hr
  cases heff.mode with
  | same hsame => exact h.same hsame hnames
  | set hset =>
    refine ⟨hnames, ?_, Or.inr hset.remembered⟩
    rw [hset.lastFlow]
    exact h.lastFlow
  | corrected hcorr =>
    refine ⟨hnames, ?_, Or.inr hcorr.remembered⟩
    rw [hcorr.lastFlow]
    exact fun heq => hcheck _ rfl (Option.some.inj heq)
  | moved hr _ _ _ hmoved _ =>
    refine ⟨hnames, ?_, Or.inr hmoved.remembered⟩
    rw [hmoved.lastFlow]
    exact fun heq => logicalName_ne (h.names _ (List.mem_of_getElem? hr)) (Option.some.inj heq)

theorem want_ne {room : Room} {want : String} (h : room.want = some want) : want ≠ "" := by
  unfold Room.want at h
  split at h
  · rw [← Option.some.inj h]
    decide
  split at h
  · rw [← Option.some.inj h]
    decide
  split at h
  · simp at h
  · rw [← Option.some.inj h]
    decide

theorem start_missing (S : Setup) (repr : Json → String) :
    (start S repr .missing).engine = Engine.started fallbackMode none := by
  unfold start
  dsimp only [loadRemembered]
  split
  · rfl
  · rfl

theorem saved_of_reachable {S : Setup} {repr : Json → String} {rt : Runtime}
    (h : Reachable (StartupMode.step S) (start S repr .missing) rt) : Saved rt.engine := by
  apply h.invariant (P := fun rt => Saved rt.engine)
  · rw [start_missing]
    exact ⟨by simp [Engine.started], by simp [Engine.started], Or.inl ⟨rfl, rfl, rfl⟩⟩
  · intro t ev u ht _ hstep
    cases step_outcome hstep with
    | acted hcheck he => exact ht.step (fun want heq => absurd heq (hcheck want)) (step_effect he)
    | stands _ => exact ht
    | corrected _ hwant hcorr =>
      refine ht.step (fun want heq => ?_) (.corrected hcorr)
      obtain rfl := SingleFlight.Event.correctStartupMode.inj heq
      exact want_ne hwant
    | stopped => exact ht

/-- What a restart makes of a runtime that first started without mode.json. -/
structure Restored (S : Setup) (repr : Json → String) (rt : Runtime) : Prop where
  mode : (restarted S repr rt).mode = rt.engine.mode
  lastFlow : ∀ flow, rt.engine.lastFlow = some flow → (restarted S repr rt).lastFlow = some flow
  unsaved : rt.engine.remembered = none → (restarted S repr rt).lastFlow = rt.engine.lastFlow
  fallback : rt.engine.remembered ≠ none → rt.engine.lastFlow = none →
    (restarted S repr rt).lastFlow = some rt.engine.mode
  suppresses : ∀ name, Suppresses S (restarted S repr rt) name ↔ Suppresses S rt.engine name ∨
    (rt.engine.remembered ≠ none ∧ rt.engine.lastFlow = none ∧
      (strip name = "listen" ∨ strip name = "watch") ∧ rt.engine.mode = strip name)

theorem loadRemembered_saved {repr : Json → String} {e : Engine}
    (h : e.remembered = some (e.mode, e.lastFlow)) (hlast : e.lastFlow ≠ some "") :
    loadRemembered repr (savedFile e) = (e.mode, some (e.lastFlow.getD e.mode)) := by
  unfold savedFile
  rw [h]
  cases hflow : e.lastFlow with
  | none => rfl
  | some flow =>
    have hne : flow ≠ "" := fun heq => hlast (hflow.trans (congrArg some heq))
    simp [loadRemembered, pyStr, truthy, Keymap.get, List.lookup_cons, hne]

theorem restarted_saved {S : Setup} {modes : List String} (repr : Json → String) {rt : Runtime}
    (hmodes : HasModes S modes) (hknown : rt.engine.mode ∈ modes) (hsaved : Saved rt.engine)
    (h : rt.engine.remembered ≠ none) : (restarted S repr rt).mode = rt.engine.mode ∧
      (restarted S repr rt).lastFlow = some (rt.engine.lastFlow.getD rt.engine.mode) := by
  have hrem : rt.engine.remembered = some (rt.engine.mode, rt.engine.lastFlow) :=
    hsaved.saved.resolve_left fun hnone => h hnone.1
  unfold restarted start
  rw [loadRemembered_saved hrem hsaved.lastFlow, hmodes.valid]
  simp only [hknown, not_true, and_false, if_false]
  exact ⟨rfl, rfl⟩

theorem restarted_unsaved (S : Setup) (repr : Json → String) {rt : Runtime}
    (hsaved : Saved rt.engine) (h : rt.engine.remembered = none) :
    (restarted S repr rt).mode = rt.engine.mode ∧
      (restarted S repr rt).lastFlow = rt.engine.lastFlow := by
  obtain ⟨hmode, hlast⟩ : rt.engine.mode = fallbackMode ∧ rt.engine.lastFlow = none := by
    obtain ⟨_, hrest⟩ | hrem := hsaved.saved
    · exact hrest
    · simp [h] at hrem
  have hfile : savedFile rt.engine = .missing := by simp [savedFile, h]
  unfold restarted
  rw [hfile, start_missing, hmode, hlast]
  exact ⟨rfl, rfl⟩

theorem restart_restores {S : Setup} {modes : List String} (hmodes : HasModes S modes)
    (repr : Json → String) {rt : Runtime}
    (h : Reachable (StartupMode.step S) (start S repr .missing) rt) : Restored S repr rt := by
  have hknown := (sound_of_reachable hmodes h).known
  have hsaved := saved_of_reachable h
  by_cases hrem : rt.engine.remembered = none
  · obtain ⟨hmode, hlast⟩ := restarted_unsaved S repr hsaved hrem
    refine ⟨hmode, fun flow hflow => hlast.trans hflow, fun _ => hlast, fun hne => absurd hrem hne,
      fun name => ?_⟩
    rw [suppresses_iff, suppresses_iff, hlast]
    exact ⟨Or.inl, fun h => h.resolve_right fun hr => hr.1 hrem⟩
  · obtain ⟨hmode, hlast⟩ := restarted_saved repr hmodes hknown hsaved hrem
    refine ⟨hmode, fun flow hflow => ?_, fun hnone => absurd hnone hrem, fun _ hnone => ?_,
      fun name => ?_⟩
    · rw [hlast, hflow]
      rfl
    · rw [hlast, hnone]
      rfl
    · rw [suppresses_iff, suppresses_iff, hlast]
      cases hflow : rt.engine.lastFlow with
      | none => simp [hrem]
      | some flow => simp

/-- A mode set before any flow: the restart takes it for the last flow. -/
theorem set_mode_restart : ∃ rt, execute (StartupMode.step audioproSetup)
    (start audioproSetup (fun _ => "") .missing) [.act (.setMode "listen" "http.ha")] = some rt ∧
      rt.engine.lastFlow = none ∧
      (restarted audioproSetup (fun _ => "") rt).lastFlow = some "listen" ∧
      ¬ Suppresses audioproSetup rt.engine "listen" ∧
      Suppresses audioproSetup (restarted audioproSetup (fun _ => "") rt) "listen" := by
  refine ⟨_, rfl, rfl, by decide, ?_, ?_⟩
  · rw [suppresses_iff]
    decide
  · rw [suppresses_iff]
    decide

/-- A successful flow first, then a mode. -/
def flowThenMode : List StartupMode.Event :=
  [.act (.runFlow "watch" "http.ha"), .act (.taskEnds 0 (.returned true)), .act (.resume 0),
    .act (.setMode "listen" "http.ha")]

theorem flow_and_mode_restored : ∃ rt, execute (StartupMode.step audioproSetup)
    (start audioproSetup (fun _ => "") .missing) flowThenMode = some rt ∧
      rt.engine.mode = "listen" ∧ rt.engine.lastFlow = some "watch" ∧
      Restored audioproSetup (fun _ => "") rt := by
  have hrun : (execute (StartupMode.step audioproSetup) (start audioproSetup (fun _ => "") .missing)
      flowThenMode).map (fun rt => (rt.engine.mode, rt.engine.lastFlow)) =
      some ("listen", some "watch") := by decide
  obtain ⟨rt, hrt, hseen⟩ := Option.map_eq_some_iff.mp hrun
  obtain ⟨hmode, hlast⟩ := Prod.mk.inj hseen
  exact ⟨rt, hrt, hmode, hlast, restart_restores ⟨rfl, by decide⟩ (fun _ => "")
    (reachable_of_execute hrt)⟩

end PiHub.Restart

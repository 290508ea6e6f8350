import PiHub.FlowSteps
import PiHub.Interleaving
import PiHub.Settings

/-! The flows (flows.py) and what they are for: where each leaves the TV, the Apple TV and the
speaker, in whatever order its background steps come to their ends. -/
namespace PiHub.FlowGoals
open Transition FlowSteps Interleaving Settings Slots

/-! ### The flows -/

/-- What a step calls; `settles` is the sleep after a group was left. -/
inductive Call where
  | appleTvHome | appleTvOn | tvOn | tvOff | tvInputHdmi1 | watchVolume | listenVolume
  | playListenTarget | speakerStop | speakerOff | speakerHdmi | speakerLeaveGroup | speakerToTv
  | settles
  deriving DecidableEq

/-- The arguments of one `ctx.step` call. -/
structure Line where
  stepId : String
  domain : String
  action : String
  call : Call
  cond : Option Condition := none
  timeoutS : Option Nat := none
  background : Bool := false
  deriving DecidableEq

def tvPowerTimeoutS : Nat := 8

def appleTvHome (background : Bool) : Line :=
  { stepId := "apple_tv_return_home", domain := "ble", action := "return_home", call := .appleTvHome,
    cond := some .tvIsOn, background }

def appleTvPowerOn : Line :=
  { stepId := "apple_tv_power_on", domain := "ble", action := "power_on", call := .appleTvOn,
    cond := some .tvIsOff, background := true }

def tvPowerOff (background : Bool) : Line :=
  { stepId := "tv_power_off", domain := "tv", action := "power_off", call := .tvOff,
    cond := some .tvIsOn, timeoutS := some tvPowerTimeoutS, background }

def tvPowerOn : Line :=
  { stepId := "tv_power_on", domain := "tv", action := "power_on", call := .tvOn,
    cond := some .tvIsOff, timeoutS := some tvPowerTimeoutS }

def tvInputHdmi1 : Line :=
  { stepId := "tv_input_hdmi1", domain := "tv", action := "set_input_hdmi1", call := .tvInputHdmi1,
    cond := some .frameTvIsOff, background := true }

def speakerWatchVolume : Line :=
  { stepId := "speaker_watch_volume", domain := "speaker", action := "set_volume",
    call := .watchVolume, background := true }

def speakerListenVolume : Line :=
  { stepId := "speaker_listen_volume", domain := "speaker", action := "set_volume",
    call := .listenVolume, background := true }

def speakerPlayListenTarget (background : Bool) : Line :=
  { stepId := "speaker_play_listen_target", domain := "speaker", action := "play_listen_target",
    call := .playListenTarget, background }

def speakerHdmiSource : Line :=
  { stepId := "speaker_hdmi_source", domain := "speaker", action := "set_source",
    call := .speakerHdmi }

def speakerPowerOff : Line :=
  { stepId := "speaker_power_off", domain := "speaker", action := "power_off", call := .speakerOff,
    cond := some .speakerIsOnListenSource }

def speakerToTv (cond : Option Condition) : Line :=
  { stepId := "speaker_to_tv", domain := "speaker", action := "release_to_tv", call := .speakerToTv,
    cond }

def audioproStopSpeaker : List Line :=
  [{ stepId := "speaker_stop", domain := "speaker", action := "stop_playback", call := .speakerStop,
     cond := some .speakerShouldStop },
   { stepId := "speaker_leave_group", domain := "speaker",
     action := "leave_native_multiroom_if_needed", call := .speakerLeaveGroup,
     cond := some .speakerIsInMultiroom },
   { stepId := "speaker_settle_after_group", domain := "system", action := "sleep", call := .settles,
     cond := some .speakerIsInMultiroom }]

def audioproListen : List Line :=
  [appleTvHome true, tvPowerOff false, speakerListenVolume, speakerPlayListenTarget false]

def audioproWatch : List Line :=
  audioproStopSpeaker ++
    [appleTvPowerOn, tvPowerOn, tvInputHdmi1, speakerWatchVolume, speakerHdmiSource]

def audioproListenSignal : List Line := [tvPowerOff true, appleTvHome false]

def audioproWatchSignal : List Line :=
  audioproStopSpeaker ++ [tvPowerOn, tvInputHdmi1, speakerWatchVolume, speakerHdmiSource]

def audioproPowerOff : List Line :=
  [appleTvHome true, tvPowerOff false] ++ audioproStopSpeaker ++ [speakerPowerOff]

def soundbarListen : List Line :=
  [appleTvHome true, tvPowerOff false, speakerListenVolume, speakerPlayListenTarget true]

def soundbarWatch : List Line :=
  [speakerToTv none, appleTvPowerOn, tvPowerOn, speakerWatchVolume]

def soundbarListenSignal : List Line := [tvPowerOff true, appleTvHome false]

def soundbarWatchSignal : List Line := [speakerToTv none, tvPowerOn, speakerWatchVolume]

def soundbarPowerOff : List Line :=
  [appleTvHome true, tvPowerOff false, speakerToTv (some .speakerIsOnListenSource)]

inductive FlowName where
  | listen | watch | listenSignal | watchSignal | powerOff
  deriving DecidableEq

/-- `_FLOWS`; any backend that is not the soundbar has the Audio Pro flows. -/
def flows (soundbar : Bool) : FlowName → List Line
  | .listen => if soundbar then soundbarListen else audioproListen
  | .watch => if soundbar then soundbarWatch else audioproWatch
  | .listenSignal => if soundbar then soundbarListenSignal else audioproListenSignal
  | .watchSignal => if soundbar then soundbarWatchSignal else audioproWatchSignal
  | .powerOff => if soundbar then soundbarPowerOff else audioproPowerOff

/-! ### The room -/

structure Tv where
  on : Bool
  hdmi1 : Bool
  deriving DecidableEq

inductive AppleTv where
  | awake | home | other
  deriving DecidableEq

structure Speaker where
  powered : Bool
  source : String
  grouped : Bool
  playing : Option SpeakerCall
  deriving DecidableEq

inductive Component where
  | tv | appleTv | volume | speaker | system
  deriving DecidableEq

abbrev Component.State : Component → Type
  | .tv => Tv
  | .appleTv => AppleTv
  | .volume => Int
  | .speaker => Speaker
  | .system => Unit

/-- The devices of a room as their drivers know them. -/
abbrev Room := (c : Component) → c.State

def Call.component : Call → Component
  | .appleTvHome | .appleTvOn => .appleTv
  | .tvOn | .tvOff | .tvInputHdmi1 => .tv
  | .watchVolume | .listenVolume => .volume
  | .playListenTarget | .speakerStop | .speakerOff | .speakerHdmi | .speakerLeaveGroup
  | .speakerToTv => .speaker
  | .settles => .system

/-- What the runner is built with. -/
structure Setup where
  py : PyText
  speakerBackend : String
  settings : Option SettingsData

namespace Setup

def soundbar (S : Setup) : Bool := S.speakerBackend = soundbarBackend

/-- `_volume`. -/
def volume (S : Setup) (watch : Bool) : Int :=
  match S.settings with
  | none => if watch then ({} : SettingsData).watchVolumePct else ({} : SettingsData).listenVolumePct
  | some s => if watch then s.watchVolumePct else s.listenVolumePct

/-- What `play_listen_target` asks of the speaker, if it does. -/
def listenCall (S : Setup) : Option SpeakerCall :=
  S.settings.bind fun s =>
    match resolveSlot S.py.isalnum s.settings S.speakerBackend (listenSlot s.settings S.speakerBackend) with
    | .error _ => none
    | .ok target =>
      match playSlot target with
      | .error _ => none
      | .ok call => some call

/-- What a call has brought about when its driver returns. -/
def Done (S : Setup) : (call : Call) → call.component.State → call.component.State → Prop
  | .appleTvHome, _, y => y = .home
  | .appleTvOn, _, y => y = .awake
  | .tvOn, _, y => y.on = true
  | .tvOff, _, y => y.on = false
  | .tvInputHdmi1, x, y => y.on = x.on ∧ y.hdmi1 = true
  | .watchVolume, _, y => y = S.volume true
  | .listenVolume, _, y => y = S.volume false
  | .playListenTarget, _, y => y.playing.isSome = true ∧ y.playing = S.listenCall
  | .speakerStop, _, y => y.playing = none
  | .speakerOff, _, y => y.powered = false
  | .speakerHdmi, _, y => y.source = "hdmi"
  | .speakerLeaveGroup, _, y => y.grouped = false
  | .speakerToTv, _, y => y.source = "optical"
  | .settles, _, _ => True

end Setup

/-- How the call of a step ends and what it does to its device, to which anything may happen if it
fails. -/
structure Behaviour (S : Setup) (l : Line) where
  outcome : Outcome
  bounded : outcome = .overran → l.timeoutS.isSome = true ∨ l.background = true
  effect : l.call.component.State → l.call.component.State
  done : outcome = .returned → ∀ x, S.Done l.call x (effect x)

abbrev World (S : Setup) := (l : Line) → Behaviour S l

variable {S : Setup}

/-- The step as the runner sees it. -/
def World.step (W : World S) (l : Line) : Step Nat :=
  ⟨l.stepId, l.domain, l.action, l.cond, l.timeoutS, l.background, (W l).outcome, (W l).bounded⟩

def Line.holds (l : Line) (snap : Snapshot) : Bool := l.cond.all fun cond => cond.holds snap

/-- The step as the room sees it. -/
def World.act (W : World S) (l : Line) : Act Room where
  run := fun room => Function.update room l.call.component ((W l).effect (room l.call.component))
  background := l.background

def due (snap : Snapshot) (lines : List Line) : List Line := lines.filter fun l => l.holds snap

def World.acts (W : World S) (snap : Snapshot) (lines : List Line) : List (Act Room) :=
  (due snap lines).map W.act

/-- The snapshot tells what the room is like. -/
structure Matches (snap : Snapshot) (room : Room) : Prop where
  tv : snap.tvIsOn = (room .tv).on
  speaker : snap.speakerSource = (room .speaker).source

/-! ### The plain order -/

/-- What the steps make of one device, one after another. -/
def World.part (W : World S) (c : Component) : List Line → c.State → c.State
  | [], x => x
  | l :: ls, x =>
    if h : l.call.component = c then W.part c ls (h ▸ (W l).effect (h ▸ x)) else W.part c ls x

theorem inOrder_part (W : World S) (c : Component) (lines : List Line) (room : Room) :
    inOrder (lines.map W.act) room c = W.part c lines (room c) := by
  induction lines generalizing room with
  | nil => rfl
  | cons l lines ih =>
    rw [List.map_cons, inOrder, ih, World.part]
    split
    · next h =>
      subst h
      exact congrArg _ (Function.update_self _ _ _)
    · next h => exact congrArg _ (Function.update_of_ne (Ne.symm h) _ _)

def onComponent (c : Component) (lines : List Line) : List Line :=
  lines.filter fun l => l.call.component = c

/-- A device is left to the steps that are for it. -/
theorem part_onComponent (W : World S) (c : Component) (lines : List Line) (x : c.State) :
    W.part c (onComponent c lines) x = W.part c lines x := by
  induction lines generalizing x with
  | nil => rfl
  | cons l lines ih =>
    by_cases h : l.call.component = c
    · have hkeep : onComponent c (l :: lines) = l :: onComponent c lines := by simp [onComponent, h]
      rw [hkeep, World.part, World.part, dif_pos h, dif_pos h, ih]
    · have hdrop : onComponent c (l :: lines) = onComponent c lines := by simp [onComponent, h]
      rw [hdrop, World.part, dif_neg h, ih]

theorem onComponent_due (c : Component) (snap : Snapshot) (lines : List Line) :
    onComponent c (due snap lines) = due snap (onComponent c lines) := by
  simp only [onComponent, due, List.filter_filter, Bool.and_comm]

theorem part_append (W : World S) (c : Component) (as bs : List Line) (x : c.State) :
    W.part c (as ++ bs) x = W.part c bs (W.part c as x) := by
  induction as generalizing x with
  | nil => rfl
  | cons l as ih =>
    rw [List.cons_append, World.part, World.part]
    split
    · exact ih _
    · exact ih x

/-- What is due on a device is all that counts for it. -/
theorem part_due (W : World S) {c : Component} {snap : Snapshot} (lines : List Line) (x : c.State) :
    W.part c (due snap lines) x = W.part c (due snap (onComponent c lines)) x := by
  rw [← part_onComponent, onComponent_due]

/-- Every step for the device that is due has returned. -/
def World.Returned (W : World S) (snap : Snapshot) (lines : List Line) (c : Component) : Prop :=
  ∀ l ∈ lines, l.holds snap = true → l.call.component = c → (W l).outcome = .returned

/-- The last step for a device leaves it as its call says. -/
theorem last_done (W : World S) {snap : Snapshot} {lines : List Line} (l : Line) (pre : List Line)
    (hret : W.Returned snap lines l.call.component)
    (hlines : onComponent l.call.component lines = pre ++ [l]) (hholds : l.holds snap = true)
    (x : l.call.component.State) : S.Done l.call (W.part l.call.component (due snap pre) x)
      (W.part l.call.component (due snap lines) x) := by
  have hmem : l ∈ lines := by
    have hlast : l ∈ onComponent l.call.component lines := by simp [hlines]
    exact List.mem_of_mem_filter hlast
  have hdue : due snap (pre ++ [l]) = due snap pre ++ [l] := by simp [due, hholds]
  rw [part_due W lines, hlines, hdue, part_append, World.part, dif_pos rfl]
  exact (W l).done (hret l hmem hholds rfl) _

/-- A device without a step that is due is left alone. -/
theorem untouched (W : World S) {snap : Snapshot} {lines : List Line} {c : Component}
    (h : ∀ l ∈ onComponent c lines, l.holds snap = false) (x : c.State) :
    W.part c (due snap lines) x = x := by
  have hnone : due snap (onComponent c lines) = [] :=
    List.filter_eq_nil_iff.mpr fun l hl => by simp [h l hl]
  rw [part_due, hnone]
  rfl

/-! ### The goals -/

/-- Where a flow leaves a device, by the room it began in. -/
def Goal (S : Setup) (frame : Bool) (room : Room) : FlowName → (c : Component) → c.State → Prop
  | .listen, .tv, y | .listenSignal, .tv, y | .powerOff, .tv, y => y.on = false
  | .watch, .tv, y | .watchSignal, .tv, y => y.on = true ∧
      (S.soundbar = false → frame = true → (room .tv).on = false → y.hdmi1 = true)
  | .listen, .appleTv, y | .listenSignal, .appleTv, y | .powerOff, .appleTv, y =>
      y = if (room .tv).on then .home else room .appleTv
  | .watch, .appleTv, y => y = if (room .tv).on then room .appleTv else .awake
  | .watchSignal, .appleTv, y => y = room .appleTv
  | .listen, .volume, y => y = S.volume false
  | .watch, .volume, y | .watchSignal, .volume, y => y = S.volume true
  | .listenSignal, .volume, y | .powerOff, .volume, y => y = room .volume
  | .listen, .speaker, y => y.playing.isSome = true ∧ y.playing = S.listenCall
  | .watch, .speaker, y | .watchSignal, .speaker, y =>
      y.source = if S.soundbar then "optical" else "hdmi"
  | .listenSignal, .speaker, y => y = room .speaker
  | .powerOff, .speaker, y =>
      if (room .speaker).source ∈ listenSources then
        if S.soundbar then y.source = "optical" else y.powered = false
      else y = room .speaker
  | _, .system, _ => True

section
variable {W : World S} {snap : Snapshot} {room : Room} {lines : List Line}

theorem tv_off {background : Bool} (hmatches : Matches snap room) (hret : W.Returned snap lines .tv)
    (hlines : onComponent .tv lines = [tvPowerOff background]) :
    (W.part .tv (due snap lines) (room .tv)).on = false := by
  cases hon : snap.tvIsOn with
  | true => exact last_done W (tvPowerOff background) [] hret hlines hon (room .tv)
  | false =>
    rw [untouched W (by simp [hlines, tvPowerOff, Line.holds, Condition.holds, hon]), ← hmatches.tv, hon]

theorem tv_on (hmatches : Matches snap room) (hret : W.Returned snap lines .tv)
    (hlines : onComponent .tv lines = [tvPowerOn]) :
    (W.part .tv (due snap lines) (room .tv)).on = true := by
  cases hon : snap.tvIsOn with
  | true =>
    rw [untouched W (by simp [hlines, tvPowerOn, Line.holds, Condition.holds, hon]), ← hmatches.tv, hon]
  | false =>
    exact last_done W tvPowerOn [] hret hlines
      (by simp [tvPowerOn, Line.holds, Condition.holds, hon]) (room .tv)

theorem tv_on_hdmi1 (hmatches : Matches snap room) (hret : W.Returned snap lines .tv)
    (hlines : onComponent .tv lines = [tvPowerOn, tvInputHdmi1]) :
    (W.part .tv (due snap lines) (room .tv)).on = true ∧
      (snap.tvIsFrame = true → (room .tv).on = false →
        (W.part .tv (due snap lines) (room .tv)).hdmi1 = true) := by
  have hmem : tvPowerOn ∈ lines := by
    have hfirst : tvPowerOn ∈ onComponent .tv lines := by simp [hlines]
    exact List.mem_of_mem_filter hfirst
  have hon : (W.part .tv (due snap [tvPowerOn]) (room .tv)).on = true :=
    tv_on hmatches (fun l hl => hret l (List.mem_singleton.mp hl ▸ hmem)) rfl
  by_cases hdue : tvInputHdmi1.holds snap = true
  · obtain ⟨hsame, hinput⟩ := last_done W tvInputHdmi1 [tvPowerOn] hret hlines hdue
      (room .tv)
    exact ⟨hsame.trans hon, fun _ _ => hinput⟩
  · have hskip : due snap [tvPowerOn, tvInputHdmi1] = due snap [tvPowerOn] := by
      simp [due, List.filter, hdue]
    rw [part_due, hlines, hskip]
    refine ⟨hon, fun hframe hoff => absurd ?_ hdue⟩
    have hsnap : snap.tvIsOn = false := hmatches.tv.trans hoff
    simp [tvInputHdmi1, Line.holds, Condition.holds, hframe, hsnap]

theorem appleTv_home {background : Bool} (hmatches : Matches snap room)
    (hret : W.Returned snap lines .appleTv)
    (hlines : onComponent .appleTv lines = [appleTvHome background]) :
    W.part .appleTv (due snap lines) (room .appleTv) =
      if (room .tv).on then .home else room .appleTv := by
  rw [← hmatches.tv]
  cases hon : snap.tvIsOn with
  | true =>
    exact last_done W (appleTvHome background) [] hret hlines hon (room .appleTv)
  | false => exact untouched W (by simp [hlines, appleTvHome, Line.holds, Condition.holds, hon]) _

theorem appleTv_awake (hmatches : Matches snap room) (hret : W.Returned snap lines .appleTv)
    (hlines : onComponent .appleTv lines = [appleTvPowerOn]) :
    W.part .appleTv (due snap lines) (room .appleTv) =
      if (room .tv).on then room .appleTv else .awake := by
  rw [← hmatches.tv]
  cases hon : snap.tvIsOn with
  | true => exact untouched W (by simp [hlines, appleTvPowerOn, Line.holds, Condition.holds, hon]) _
  | false =>
    exact last_done W appleTvPowerOn [] hret hlines
      (by simp [appleTvPowerOn, Line.holds, Condition.holds, hon]) (room .appleTv)

theorem speaker_off (l : Line) (pre : List Line) (hmatches : Matches snap room)
    (hret : W.Returned snap lines l.call.component)
    (hlines : onComponent l.call.component lines = pre ++ [l])
    (hcond : l.cond = some .speakerIsOnListenSource)
    (hpre : ∀ l' ∈ pre, l'.cond = some .speakerShouldStop ∨ l'.cond = some .speakerIsInMultiroom)
    (x : l.call.component.State) :
    if (room .speaker).source ∈ listenSources then
      ∃ y, S.Done l.call y (W.part l.call.component (due snap lines) x)
    else W.part l.call.component (due snap lines) x = x := by
  rw [← hmatches.speaker]
  split
  · next hlistens =>
    exact ⟨_, last_done W l pre hret hlines (by simp [Line.holds, hcond, Condition.holds, hlistens]) x⟩
  · next hnot =>
    refine untouched W (fun l' hl' => ?_) x
    rw [hlines] at hl'
    obtain hl' | hl' := List.mem_append.mp hl'
    · obtain h | h := hpre l' hl' <;> simp [Line.holds, h, Condition.holds, hnot]
    · obtain rfl := List.mem_singleton.mp hl'
      simp [Line.holds, hcond, Condition.holds, hnot]

end

/-- The steps that stop the speaker's own listening have their conditions. -/
theorem stop_conditions : ∀ l ∈ onComponent .speaker audioproStopSpeaker,
    l.cond = some .speakerShouldStop ∨ l.cond = some .speakerIsInMultiroom := by decide

theorem audiopro_goal {W : World S} {snap : Snapshot} {room : Room} (hsb : S.soundbar = false)
    (hmatches : Matches snap room) {name : FlowName} {c : Component}
    (hret : W.Returned snap (flows false name) c) :
    Goal S snap.tvIsFrame room name c (W.part c (due snap (flows false name)) (room c)) := by
  cases c with
  | tv =>
    cases name with
    | listen => exact tv_off hmatches hret rfl
    | listenSignal => exact tv_off hmatches hret rfl
    | powerOff => exact tv_off hmatches hret rfl
    | watch => exact (tv_on_hdmi1 hmatches hret rfl).imp_right fun h _ => h
    | watchSignal => exact (tv_on_hdmi1 hmatches hret rfl).imp_right fun h _ => h
  | appleTv =>
    cases name with
    | listen => exact appleTv_home hmatches hret rfl
    | listenSignal => exact appleTv_home hmatches hret rfl
    | powerOff => exact appleTv_home hmatches hret rfl
    | watch => exact appleTv_awake hmatches hret rfl
    | watchSignal => exact untouched W (fun l hl => by cases hl) _
  | volume =>
    cases name with
    | listen => exact last_done W speakerListenVolume [] hret rfl rfl (room .volume)
    | listenSignal => exact untouched W (fun l hl => by cases hl) _
    | powerOff => exact untouched W (fun l hl => by cases hl) _
    | watch => exact last_done W speakerWatchVolume [] hret rfl rfl (room .volume)
    | watchSignal => exact last_done W speakerWatchVolume [] hret rfl rfl (room .volume)
  | speaker =>
    have hhdmi : ∀ lines, W.Returned snap lines .speaker →
        onComponent .speaker lines = onComponent .speaker audioproStopSpeaker ++ [speakerHdmiSource] →
        (W.part .speaker (due snap lines) (room .speaker)).source =
          if S.soundbar then "optical" else "hdmi" := by
      intro lines hret hlines
      rw [hsb]
      exact last_done W speakerHdmiSource _ hret hlines rfl (room .speaker)
    cases name with
    | listen =>
      exact last_done W (speakerPlayListenTarget false) [] hret rfl rfl (room .speaker)
    | listenSignal => exact untouched W (fun l hl => by cases hl) _
    | powerOff =>
      have hoff := speaker_off speakerPowerOff (onComponent .speaker audioproStopSpeaker) hmatches hret
        rfl rfl stop_conditions (room .speaker)
      simp only [Goal, hsb]
      split at hoff
      · next hlistens =>
        obtain ⟨_, hdone⟩ := hoff
        rw [if_pos hlistens]
        exact hdone
      · next hnot =>
        rw [if_neg hnot]
        exact hoff
    | watch => exact hhdmi _ hret rfl
    | watchSignal => exact hhdmi _ hret rfl
  | system => cases name <;> trivial

theorem soundbar_goal {W : World S} {snap : Snapshot} {room : Room} (hsb : S.soundbar = true)
    (hmatches : Matches snap room) {name : FlowName} {c : Component}
    (hret : W.Returned snap (flows true name) c) :
    Goal S snap.tvIsFrame room name c (W.part c (due snap (flows true name)) (room c)) := by
  have hother : ¬ S.soundbar = false := by simp [hsb]
  cases c with
  | tv =>
    cases name with
    | listen => exact tv_off hmatches hret rfl
    | listenSignal => exact tv_off hmatches hret rfl
    | powerOff => exact tv_off hmatches hret rfl
    | watch => exact ⟨tv_on hmatches hret rfl, fun h => absurd h hother⟩
    | watchSignal => exact ⟨tv_on hmatches hret rfl, fun h => absurd h hother⟩
  | appleTv =>
    cases name with
    | listen => exact appleTv_home hmatches hret rfl
    | listenSignal => exact appleTv_home hmatches hret rfl
    | powerOff => exact appleTv_home hmatches hret rfl
    | watch => exact appleTv_awake hmatches hret rfl
    | watchSignal => exact untouched W (fun l hl => by cases hl) _
  | volume =>
    cases name with
    | listen => exact last_done W speakerListenVolume [] hret rfl rfl (room .volume)
    | listenSignal => exact untouched W (fun l hl => by cases hl) _
    | powerOff => exact untouched W (fun l hl => by cases hl) _
    | watch => exact last_done W speakerWatchVolume [] hret rfl rfl (room .volume)
    | watchSignal => exact last_done W speakerWatchVolume [] hret rfl rfl (room .volume)
  | speaker =>
    have htv : ∀ lines, W.Returned snap lines .speaker →
        onComponent .speaker lines = [speakerToTv none] →
        (W.part .speaker (due snap lines) (room .speaker)).source =
          if S.soundbar then "optical" else "hdmi" := by
      intro lines hret hlines
      rw [hsb]
      exact last_done W (speakerToTv none) [] hret hlines rfl (room .speaker)
    cases name with
    | listen =>
      exact last_done W (speakerPlayListenTarget true) [] hret rfl rfl (room .speaker)
    | listenSignal => exact untouched W (fun l hl => by cases hl) _
    | powerOff =>
      have hoff := speaker_off (speakerToTv (some .speakerIsOnListenSource)) [] hmatches hret
        rfl rfl (fun l hl => by cases hl) (room .speaker)
      simp only [Goal, hsb]
      split at hoff
      · next hlistens =>
        obtain ⟨_, hdone⟩ := hoff
        rw [if_pos hlistens]
        exact hdone
      · next hnot =>
        rw [if_neg hnot]
        exact hoff
    | watch => exact htv _ hret rfl
    | watchSignal => exact htv _ hret rfl
  | system => cases name <;> trivial

/-! ### Every order -/

/-- What runs in the background is on a device of its own from there on. -/
theorem background_apart (soundbar : Bool) (name : FlowName) : (flows soundbar name).Pairwise
    fun l l' => l.background = true → l.call.component ≠ l'.call.component := by
  cases soundbar <;> cases name <;> decide

theorem act_commute (W : World S) {l l' : Line} (h : l.call.component ≠ l'.call.component) :
    Function.Commute (W.act l).run (W.act l').run := by
  intro room
  have hleft : (W.act l').run room l.call.component = room l.call.component :=
    Function.update_of_ne h _ _
  have hright : (W.act l).run room l'.call.component = room l'.call.component :=
    Function.update_of_ne h.symm _ _
  change Function.update (Function.update room _ _) _ _ =
    Function.update (Function.update room _ _) _ _
  rw [hleft, hright, Function.update_comm h]

theorem independent (W : World S) (snap : Snapshot) (soundbar : Bool) (name : FlowName) :
    Independent (W.acts snap (flows soundbar name)) :=
  List.pairwise_map.mpr (((background_apart soundbar name).filter _).imp fun hapart hbg =>
    act_commute W (hapart hbg))

/-- Each device whose own steps have returned is where the flow is to leave it, whatever became of
the others. -/
theorem goal_of_returned {W : World S} {snap : Snapshot} {room : Room} (hmatches : Matches snap room)
    {name : FlowName} {es : List Event} {r : Run Room}
    (hrun : execute step (.start room (W.acts snap (flows S.soundbar name))) es = some r)
    (hend : r.Ended) {c : Component} (hret : W.Returned snap (flows S.soundbar name) c) :
    Goal S snap.tvIsFrame room name c (r.state c) := by
  have horder := ends_in_order (independent W snap S.soundbar name) hrun hend
  rw [horder, World.acts, inOrder_part]
  cases hsb : S.soundbar with
  | false =>
    rw [hsb] at hret
    exact audiopro_goal hsb hmatches hret
  | true =>
    rw [hsb] at hret
    exact soundbar_goal hsb hmatches hret

section
variable (g : Nat → String) {W : World S} {snap : Snapshot} {room : Room} {name : FlowName}
  {reported : Bool} {es : List Event} {r : Run Room}

/-- A flow that succeeds has had every due step return. -/
theorem returned_of_ok {lines : List Line}
    (hok : (FlowSteps.run g snap reported (lines.map W.step)).1 = .ok true) (c : Component) :
    W.Returned snap lines c := by
  have hprintable : ∀ s ∈ lines.map W.step, ¬ s.Unprintable snap := by
    intro s hs hbad
    obtain ⟨text, htext⟩ := runSteps_unprintable g snap (start_length reported) ⟨s, hs, hbad⟩
    unfold FlowSteps.run at hok
    split at hok
    · cases hok
    · next hnone =>
      rw [hnone] at htext
      cases htext
  intro l hl hholds _
  have hresult := ((keepsGoing_iff g snap reported _).mpr hprintable).result
  rw [hok] at hresult
  by_contra hfailed
  have hfails : (W.step l).fails snap = true := by
    have hdue : (W.step l).holds snap = true := hholds
    have hraises : (W.step l).raises.isSome = true := by
      have hsame : (W.step l).outcome = (W l).outcome := rfl
      unfold Step.raises
      rw [hsame]
      cases houtcome : (W l).outcome with
      | returned => exact absurd houtcome hfailed
      | raised exc => rfl
      | overran => rfl
    rw [Step.fails, hdue, hraises]
    rfl
  have hany : ((lines.map W.step).any fun s => s.fails snap) = true :=
    List.any_eq_true.mpr ⟨_, List.mem_map_of_mem hl, hfails⟩
  rw [hany] at hresult
  cases hresult

/-- A flow that succeeds leaves the whole room as its mode is to have it, in whatever order its
background steps come to their ends. -/
theorem success_reaches_goal (hmatches : Matches snap room)
    (hok : (FlowSteps.run g snap reported ((flows S.soundbar name).map W.step)).1 = .ok true)
    (hrun : execute step (.start room (W.acts snap (flows S.soundbar name))) es = some r)
    (hend : r.Ended) (c : Component) : Goal S snap.tvIsFrame room name c (r.state c) :=
  goal_of_returned hmatches hrun hend (returned_of_ok g hok c)

/-- A step that fails, by anything but an awaited call's own TimeoutError, neither stops the flow nor
keeps it from bringing every device there whose own steps return; and the order in which background
steps end makes no difference. -/
theorem failure_stays_apart (hmatches : Matches snap room)
    (hprintable : ∀ s ∈ (flows S.soundbar name).map W.step, ¬ s.Unprintable snap)
    (hrun : execute step (.start room (W.acts snap (flows S.soundbar name))) es = some r)
    (hend : r.Ended) :
    KeepsGoing snap ((flows S.soundbar name).map W.step)
        (FlowSteps.run g snap reported ((flows S.soundbar name).map W.step)) ∧
      r.state = inOrder (W.acts snap (flows S.soundbar name)) room ∧
      ∀ c, W.Returned snap (flows S.soundbar name) c → Goal S snap.tvIsFrame room name c (r.state c) :=
  ⟨(keepsGoing_iff g snap reported _).mpr hprintable,
    ends_in_order (independent W snap S.soundbar name) hrun hend,
    fun _ hret => goal_of_returned hmatches hrun hend hret⟩

end

/-! ### An evening -/

/-- A room with an Audio Pro speaker and nothing saved but the volumes and a preset to listen to. -/
def audiopro : Setup where
  py := ⟨fun _ => "", Char.isAlphanum⟩
  speakerBackend := "audiopro"
  settings := some { watchVolumePct := 25, listenVolumePct := 40, listenTargetPreset := 3 }

def playingRadio : Room
  | .tv => ⟨false, false⟩
  | .appleTv => .other
  | .volume => 60
  | .speaker => ⟨true, "wifi", false, some (.preset 1)⟩
  | .system => ()

def radioSnapshot : Snapshot := ⟨false, true, "wifi", false, false⟩

theorem radio_matches : Matches radioSnapshot playingRadio := ⟨rfl, rfl⟩

def brings : (call : Call) → call.component.State → call.component.State
  | .appleTvHome, _ => .home
  | .appleTvOn, _ => .awake
  | .tvOn, x => { x with on := true }
  | .tvOff, x => { x with on := false }
  | .tvInputHdmi1, x => { x with hdmi1 := true }
  | .watchVolume, _ => audiopro.volume true
  | .listenVolume, _ => audiopro.volume false
  | .playListenTarget, x => { x with playing := audiopro.listenCall }
  | .speakerStop, x => { x with playing := none }
  | .speakerOff, x => { x with powered := false }
  | .speakerHdmi, x => { x with source := "hdmi" }
  | .speakerLeaveGroup, x => { x with grouped := false }
  | .speakerToTv, x => { x with source := "optical" }
  | .settles, x => x

theorem brings_done (call : Call) (x : call.component.State) : audiopro.Done call x (brings call x) := by
  cases call with
  | tvInputHdmi1 => exact ⟨rfl, rfl⟩
  | playListenTarget => exact ⟨rfl, rfl⟩
  | settles => trivial
  | _ => rfl

/-- Every call does what it is for, or is one of those that fail. -/
def working (failing : List Call) : World audiopro := fun l =>
  if l.call ∈ failing then
    { outcome := .raised (.other "unreachable"), bounded := nofun, effect := id, done := nofun }
  else
    { outcome := .returned, bounded := nofun, effect := brings l.call
      done := fun _ => brings_done l.call }

theorem working_printable (failing : List Call) (snap : Snapshot) (lines : List Line) :
    ∀ s ∈ lines.map (working failing).step, ¬ s.Unprintable snap := by
  rintro _ hs ⟨-, -, -, text, htext⟩
  obtain ⟨l, -, rfl⟩ := List.mem_map.mp hs
  change (working failing l).outcome = _ at htext
  unfold working at htext
  split at htext <;> cases htext

/-- The volume is set while the speaker is still switched to the TV, and the Apple TV wakes last. -/
def evening : List Event :=
  [.next, .next, .next, .next, .next, .settles 2, .next, .settles 1, .settles 0]

theorem success_reaches_goal_evening : ∃ r,
    execute step (.start playingRadio ((working []).acts radioSnapshot (flows audiopro.soundbar .watch)))
      evening = some r ∧ (r.state .speaker).source = "hdmi" ∧ r.state .volume = 25 ∧
      ∀ c, Goal audiopro true playingRadio .watch c (r.state c) :=
  ⟨_, rfl, rfl, rfl, success_reaches_goal (W := working []) Nat.repr radio_matches
    (show (FlowSteps.run Nat.repr radioSnapshot true _).1 = .ok true from rfl)
    (show execute step _ evening = some _ from rfl) ⟨rfl, rfl⟩⟩

theorem failure_stays_apart_evening : ∃ r,
    execute step (.start playingRadio
      ((working [.appleTvOn, .tvInputHdmi1]).acts radioSnapshot (flows audiopro.soundbar .watch)))
      evening = some r ∧
    KeepsGoing radioSnapshot ((flows audiopro.soundbar .watch).map
        (working [.appleTvOn, .tvInputHdmi1]).step)
      (FlowSteps.run Nat.repr radioSnapshot true ((flows audiopro.soundbar .watch).map
        (working [.appleTvOn, .tvInputHdmi1]).step)) ∧
    r.state = inOrder ((working [.appleTvOn, .tvInputHdmi1]).acts radioSnapshot
      (flows audiopro.soundbar .watch)) playingRadio ∧
    ∀ c, (working [.appleTvOn, .tvInputHdmi1]).Returned radioSnapshot
        (flows audiopro.soundbar .watch) c →
      Goal audiopro true playingRadio .watch c (r.state c) :=
  ⟨_, rfl, failure_stays_apart Nat.repr radio_matches (working_printable _ _ _)
    (show execute step _ evening = some _ from rfl) ⟨rfl, rfl⟩⟩

end PiHub.FlowGoals

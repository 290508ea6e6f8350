import Mathlib.Algebra.Group.Nat.Defs
import PiHub.BleFrames
import PiHub.Fallible
import PiHub.Transition

/-! `run_macro` (ble_dongle.py): key presses through the strict calls, under cancellation and
changes of the link. -/
namespace PiHub.Macros
open PiHub.Transition PiHub.HostFrames PiHub.Keymap PiHub.BleFrames PiHub.Fallible

/-- What `_enqueue_strict` looks at; `full`: the queue has no room. -/
structure Transport where
  isOpen : Bool
  connected : Bool
  ready : Bool
  full : Bool
  deriving DecidableEq

inductive Why where
  | unknownCode (usage code : Json)
  | transportNotOpen | notConnected | notReady | txQueueFull

inductive MacroError where
  | notSent (action : String) (why : Why)
  | keyError (key : String)
  | python (e : PyError)

/-- One entry of `steps`. -/
abbrev Step := List (String × Json)

/-- The arguments of `run_macro`. -/
structure Call where
  steps : List Step
  defaultKeyHoldMs : Int := 40
  interDelayMs : Int := 400

inductive Outcome where
  | returned
  | raised (e : MacroError)
  | cancelled

/-- Not begun, in one of its sleeps with the steps that are left, or ended. -/
inductive Stage where
  | begins
  | waits (rest : List Step)
  | holds (usage code : Json) (rest : List Step)
  | gaps (rest : List Step)
  | ended (outcome : Outcome)

/-- A frame that the macro has put on the queue, for the key going down or up. -/
inductive Sent where
  | down (f : Frame)
  | up (f : Frame)

def Sent.frame : Sent → Frame
  | .down f => f
  | .up f => f

structure State where
  transport : Transport
  stage : Stage := .begins
  sent : List Sent := []

inductive Event where
  | runs
  | cancelled
  | link (connected ready : Bool)
  | queue (full : Bool)

def enqueueStrict (t : Transport) (action : String) (payload : Frame) : Except MacroError Frame :=
  if !t.isOpen then .error (.notSent action .transportNotOpen)
  else if !t.connected then .error (.notSent action .notConnected)
  else if !t.ready then .error (.notSent action .notReady)
  else if t.full then .error (.notSent action .txQueueFull)
  else .ok payload

/-- The usage as the encoders tell it apart. -/
def usageText (usage : Json) : String := if usage.isStr "keyboard" then "keyboard" else "consumer"

def keyDownStrict (hid : HidKeymap) (t : Transport) (usage code : Json) : Except MacroError Frame :=
  match code with
  | .str c =>
    match keyDown hid (usageText usage) c with
    | none => .error (.notSent "key_down" (.unknownCode usage code))
    | some payload => enqueueStrict t "key_down" payload
  -- unhashable: `dict.get` raises
  | .arr _ => .error (.python .typeError)
  | .obj _ => .error (.python .typeError)
  | _ => .error (.notSent "key_down" (.unknownCode usage code))

def keyUpStrict (t : Transport) (usage : Json) : Except MacroError Frame :=
  enqueueStrict t "key_up" (zeroFrame (usageOf (usageText usage)))

/-- The least natural number that is too large for a float: 2^1024 - 2^970. -/
def floatLimit : Nat := (2 ^ 64) ^ 16 - (2 ^ 97) ^ 10

/-- `value / 1000.0`, and `asyncio.sleep` for it. -/
def sleep : Json → Except PyError Unit
  | .bool _ => .ok ()
  | .int n => if n.natAbs < floatLimit then .ok () else .error .overflowError
  | .float .nan => .error .valueError
  | .float _ => .ok ()
  | _ => .error .typeError

/-- The sleep in `send_key_strict`. -/
def holdSleep (keyHoldMs : Json) : Except PyError Unit :=
  keyHoldMs.toInt.bind fun n => sleep (.int (max 0 n))

/-- `step.get("key_hold_ms", default_key_hold_ms)`. -/
def keyHoldMs (c : Call) (step : Step) : Json := (step.lookup "key_hold_ms").getD (.int c.defaultKeyHoldMs)

def item (step : Step) (key : String) : Except MacroError Json :=
  (step.lookup key).elim (.error (.keyError key)) .ok

/-- A press up to its down frame: its usage, its code and the frame. -/
def pressDown (hid : HidKeymap) (t : Transport) (step : Step) :
    Except MacroError (Json × Json × Frame) := do
  let usage ← item step "usage"
  let code ← item step "code"
  return (usage, code, ← keyDownStrict hid t usage code)

def State.ends (s : State) (outcome : Outcome) : State := { s with stage := .ended outcome }

/-- The loop of `run_macro` up to its next sleep. -/
def takeStep (hid : HidKeymap) (c : Call) (s : State) : List Step → State
  | [] => s.ends .returned
  | step :: rest =>
    match step.lookup "wait_ms" with
    | some ms =>
      match sleep ms with
      | .error e => s.ends (.raised (.python e))
      | .ok () => { s with stage := .waits rest }
    | none =>
      match pressDown hid s.transport step with
      | .error e => s.ends (.raised e)
      | .ok (usage, code, payload) =>
        let s := { s with sent := s.sent ++ [Sent.down payload] }
        match holdSleep (keyHoldMs c step) with
        | .error e => s.ends (.raised (.python e))
        | .ok () => { s with stage := .holds usage code rest }

/-- The end of `send_key_strict`, and the pause between presses. -/
def release (s : State) (usage : Json) (rest : List Step) : State :=
  match keyUpStrict s.transport usage with
  | .error e => s.ends (.raised e)
  | .ok payload =>
    let s := { s with sent := s.sent ++ [Sent.up payload] }
    if rest.isEmpty then s.ends .returned else { s with stage := .gaps rest }

def runs (hid : HidKeymap) (c : Call) (s : State) : Option State :=
  match s.stage with
  | .begins =>
    match sleep (.int c.interDelayMs) with
    | .error e => some (s.ends (.raised (.python e)))
    | .ok () => some (takeStep hid c s c.steps)
  | .waits rest => some (takeStep hid c s rest)
  | .holds usage _ rest => some (release s usage rest)
  | .gaps rest => some (takeStep hid c s rest)
  | .ended _ => none

/-- CancelledError comes where the task waits, or before it has begun. -/
def cancel (s : State) : Option State :=
  match s.stage with
  | .ended _ => none
  | _ => some (s.ends .cancelled)

def step (hid : HidKeymap) (c : Call) (s : State) : Event → Option State
  | .runs => runs hid c s
  | .cancelled => cancel s
  | .link connected ready =>
    some { s with transport := { s.transport with connected := connected, ready := ready } }
  | .queue full => some { s with transport := { s.transport with full := full } }

/-- After each down frame comes the zero report of its usage. -/
def Released (sent : List Sent) : Prop :=
  ∀ before f after, sent = before ++ .down f :: after → ∃ e ∈ after, e.frame = zeroFrame f.usage

/-- A strict call gets its frame onto the queue. -/
def Transport.Takes (t : Transport) : Prop :=
  t.isOpen = true ∧ t.connected = true ∧ t.ready = true ∧ t.full = false

instance (t : Transport) : Decidable t.Takes := inferInstanceAs (Decidable (_ ∧ _))

/-- The steps whose first is taken next. -/
def State.left (c : Call) (s : State) : List Step :=
  match s.stage with
  | .begins => if (sleep (.int c.interDelayMs)).isOk then c.steps else []
  | .waits rest => rest
  | .gaps rest => rest
  | _ => []

/-- If the first step is a press that is sent, its hold can be slept. -/
def HoldOk (hid : HidKeymap) (c : Call) (t : Transport) (steps : List Step) : Prop :=
  ∀ step ∈ steps.head?, (step.lookup "wait_ms").isNone = true →
    (pressDown hid t step).isOk = true → (holdSleep (keyHoldMs c step)).isOk = true

instance (hid : HidKeymap) (c : Call) (t : Transport) (steps : List Step) :
    Decidable (HoldOk hid c t steps) :=
  inferInstanceAs (Decidable (∀ step ∈ steps.head?, _ → _ → _))

/-- A held key is neither cancelled nor due for its release while the link does not take it, and
no press is sent whose hold cannot be slept. -/
def ReleaseGetsOut (hid : HidKeymap) (c : Call) (s : State) : Event → Prop
  | .runs =>
    match s.stage with
    | .holds _ _ _ => s.transport.Takes
    | _ => HoldOk hid c s.transport (s.left c)
  | .cancelled =>
    match s.stage with
    | .holds _ _ _ => False
    | _ => True
  | _ => True

instance (hid : HidKeymap) (c : Call) (s : State) (e : Event) : Decidable (ReleaseGetsOut hid c s e) := by
  unfold ReleaseGetsOut
  split
  · split <;> infer_instance
  · split <;> infer_instance
  · infer_instance

theorem not_released_concat_down (sent : List Sent) (f : Frame) : ¬ Released (sent ++ [.down f]) := by
  intro h
  obtain ⟨e, he, -⟩ := h sent f [] rfl
  cases he

theorem Released.concat_press {sent : List Sent} (h : Released sent) (f : Frame) :
    Released (sent ++ [.down f] ++ [.up (zeroFrame f.usage)]) := by
  intro before g after heq
  rw [List.append_assoc] at heq
  obtain ⟨rest, rfl, hrest⟩ | ⟨rest, rfl, hrest⟩ := List.append_eq_append_iff.mp heq
  · cases rest with
    | nil =>
      obtain ⟨hsent, rfl⟩ := List.cons.inj hrest
      obtain rfl := Sent.down.inj hsent
      exact ⟨_, List.mem_singleton_self _, rfl⟩
    | cons e rest =>
      obtain ⟨-, htail⟩ := List.cons.inj hrest
      cases rest with
      | nil => cases htail
      | cons e rest => simp at htail
  · cases rest with
    | nil =>
      obtain ⟨hsent, rfl⟩ := List.cons.inj hrest
      obtain rfl := Sent.down.inj hsent
      exact ⟨_, List.mem_singleton_self _, rfl⟩
    | cons e rest =>
      obtain ⟨rfl, rfl⟩ := List.cons.inj hrest
      obtain ⟨e, he, hzero⟩ := h before g rest rfl
      exact ⟨e, List.mem_append_left _ he, hzero⟩

theorem keyDown_usage {hid : HidKeymap} {usage code : String} {f : Frame}
    (h : keyDown hid usage code = some f) : f.usage = usageOf usage := by
  by_cases hkb : usage = "keyboard"
  · rw [keyDown, if_pos hkb] at h
    simpa [usageOf, hkb] using kbReport8_usage hid h
  · rw [keyDown, if_neg hkb] at h
    simpa [usageOf, hkb] using ccReport2_usage hid h

theorem enqueueStrict_ok {t : Transport} {action : String} {payload f : Frame}
    (h : enqueueStrict t action payload = .ok f) : t.Takes ∧ f = payload := by
  unfold enqueueStrict at h
  repeat' split at h
  all_goals cases h
  simp_all [Transport.Takes]

theorem enqueueStrict_error {t : Transport} {action : String} {payload : Frame} {e : MacroError}
    (h : enqueueStrict t action payload = .error e) : ¬ t.Takes := by
  rintro ⟨hopen, hconnected, hready, hroom⟩
  simp [enqueueStrict, hopen, hconnected, hready, hroom] at h

theorem pressDown_usage {hid : HidKeymap} {t : Transport} {step : Step} {usage code : Json}
    {payload : Frame} (h : pressDown hid t step = .ok (usage, code, payload)) :
    payload.usage = usageOf (usageText usage) := by
  obtain ⟨usage', -, h⟩ := bind_eq_ok.mp h
  obtain ⟨code', -, h⟩ := bind_eq_ok.mp h
  obtain ⟨f, hdown, h⟩ := bind_eq_ok.mp h
  obtain ⟨rfl, rfl, rfl⟩ : usage' = usage ∧ code' = code ∧ f = payload := by
    simpa using Except.ok.inj h
  cases code' with
  | str c =>
    simp only [keyDownStrict] at hdown
    split at hdown
    · cases hdown
    · next f' hf' =>
      rw [(enqueueStrict_ok hdown).2]
      exact keyDown_usage hf'
  | _ => cases hdown

/-- Everything a step of the loop can do. -/
inductive Taken (hid : HidKeymap) (c : Call) (s : State) (steps : List Step) : State → Prop
  | rests (stage : Stage) : (∀ usage code rest, stage ≠ .holds usage code rest) →
      HoldOk hid c s.transport steps → Taken hid c s steps { s with stage := stage }
  | presses (usage code : Json) (payload : Frame) (rest : List Step) :
      payload.usage = usageOf (usageText usage) → HoldOk hid c s.transport steps →
      Taken hid c s steps
        { s with sent := s.sent ++ [.down payload], stage := .holds usage code rest }
  | drops (payload : Frame) (e : MacroError) : ¬ HoldOk hid c s.transport steps →
      Taken hid c s steps
        { s with sent := s.sent ++ [.down payload], stage := .ended (.raised e) }

theorem takeStep_taken (hid : HidKeymap) (c : Call) (s : State) (steps : List Step) :
    Taken hid c s steps (takeStep hid c s steps) := by
  cases steps with
  | nil => exact .rests (.ended .returned) nofun nofun
  | cons step rest =>
    rw [takeStep]
    cases hwait : step.lookup "wait_ms" with
    | some ms =>
      have hok : HoldOk hid c s.transport (step :: rest) := by
        intro step' hmem hnone
        obtain rfl := Option.some.inj hmem
        simp [hwait] at hnone
      dsimp only
      cases hsleep : sleep ms with
      | error e => exact .rests (.ended (.raised (.python e))) nofun hok
      | ok => exact .rests (.waits rest) nofun hok
    | none =>
      dsimp only
      cases hpress : pressDown hid s.transport step with
      | error e =>
        refine .rests (.ended (.raised e)) nofun ?_
        intro step' hmem _ hsent
        obtain rfl := Option.some.inj hmem
        simp [hpress, Except.isOk, Except.toBool] at hsent
      | ok press =>
        obtain ⟨usage, code, payload⟩ := press
        dsimp only
        cases hhold : holdSleep (keyHoldMs c step) with
        | error e =>
          refine .drops payload _ fun hok => ?_
          have hsleeps := hok step rfl (by simp [hwait]) (by simp [hpress, Except.isOk, Except.toBool])
          simp [hhold, Except.isOk, Except.toBool] at hsleeps
        | ok =>
          refine .presses usage code payload rest (pressDown_usage hpress) ?_
          intro step' hmem _ _
          obtain rfl := Option.some.inj hmem
          simp [hhold, Except.isOk, Except.toBool]

/-- Between two steps of the event loop every key is released but the one that is held. -/
def Good (s : State) : Prop :=
  match s.stage with
  | .holds usage _ _ => ∃ before f, s.sent = before ++ [.down f] ∧ Released before ∧
      f.usage = usageOf (usageText usage)
  | _ => Released s.sent

theorem good_of_not_holds {s : State} (h : ∀ usage code rest, s.stage ≠ .holds usage code rest) :
    Good s ↔ Released s.sent := by
  unfold Good
  split
  next usage code rest hstage => exact absurd hstage (h usage code rest)
  next => exact Iff.rfl

/-- The macro is over and has left a key down. -/
def Lost (s : State) : Prop := (∃ outcome, s.stage = .ended outcome) ∧ ¬ Released s.sent

theorem Taken.good {hid : HidKeymap} {c : Call} {s s' : State} {steps : List Step}
    (h : Taken hid c s steps s') (hsent : Released s.sent) :
    (HoldOk hid c s.transport steps → Good s') ∧ (¬ HoldOk hid c s.transport steps → Lost s') := by
  cases h with
  | rests stage hstage hok => exact ⟨fun _ => (good_of_not_holds hstage).mpr hsent, (absurd hok ·)⟩
  | presses usage code payload rest husage hok =>
    exact ⟨fun _ => ⟨s.sent, payload, rfl, hsent, husage⟩, (absurd hok ·)⟩
  | drops payload e hnot =>
    exact ⟨(absurd · hnot), fun _ => ⟨⟨_, rfl⟩, not_released_concat_down s.sent payload⟩⟩

theorem release_good {s : State} {usage code : Json} {rest : List Step}
    (hstage : s.stage = .holds usage code rest) (h : Good s) :
    (s.transport.Takes → Good (release s usage rest)) ∧
      (¬ s.transport.Takes → Lost (release s usage rest)) := by
  obtain ⟨before, f, hsent, hbefore, husage⟩ : ∃ before f, s.sent = before ++ [.down f] ∧
      Released before ∧ f.usage = usageOf (usageText usage) := by
    simpa only [Good, hstage] using h
  rw [release, keyUpStrict]
  cases hup : enqueueStrict s.transport "key_up" (zeroFrame (usageOf (usageText usage))) with
  | error e =>
    refine ⟨(absurd · (enqueueStrict_error hup)), fun _ => ⟨⟨_, rfl⟩, ?_⟩⟩
    change ¬ Released s.sent
    rw [hsent]
    exact not_released_concat_down before f
  | ok payload =>
    obtain ⟨htakes, rfl⟩ := enqueueStrict_ok hup
    refine ⟨fun _ => ?_, (absurd htakes ·)⟩
    have hreleased : Released (s.sent ++ [.up (zeroFrame (usageOf (usageText usage)))]) := by
      rw [hsent, ← husage]
      exact hbefore.concat_press f
    dsimp only
    split
    · exact hreleased
    · exact hreleased

/-- One step keeps the keys released if it meets the condition, and ends the macro with a key
down if not. -/
theorem step_good {hid : HidKeymap} {c : Call} {s s' : State} {e : Event} (h : Good s)
    (hstep : step hid c s e = some s') :
    (ReleaseGetsOut hid c s e → Good s') ∧ (¬ ReleaseGetsOut hid c s e → Lost s') := by
  obtain ⟨transport, stage, sent⟩ := s
  cases e with
  | link connected ready =>
    obtain rfl := Option.some.inj hstep
    exact ⟨fun _ => h, (absurd trivial ·)⟩
  | queue full =>
    obtain rfl := Option.some.inj hstep
    exact ⟨fun _ => h, (absurd trivial ·)⟩
  | cancelled =>
    cases stage with
    | ended outcome => cases hstep
    | holds usage code rest =>
      obtain rfl := Option.some.inj hstep
      refine ⟨False.elim, fun _ => ⟨⟨_, rfl⟩, ?_⟩⟩
      obtain ⟨before, f, rfl, -, -⟩ := h
      exact not_released_concat_down before f
    | begins =>
      obtain rfl := Option.some.inj hstep
      exact ⟨fun _ => h, (absurd trivial ·)⟩
    | waits rest =>
      obtain rfl := Option.some.inj hstep
      exact ⟨fun _ => h, (absurd trivial ·)⟩
    | gaps rest =>
      obtain rfl := Option.some.inj hstep
      exact ⟨fun _ => h, (absurd trivial ·)⟩
  | runs =>
    cases stage with
    | ended outcome => cases hstep
    | holds usage code rest =>
      obtain rfl := Option.some.inj hstep
      exact release_good rfl h
    | waits rest =>
      obtain rfl := Option.some.inj hstep
      exact (takeStep_taken hid c _ rest).good h
    | gaps rest =>
      obtain rfl := Option.some.inj hstep
      exact (takeStep_taken hid c _ rest).good h
    | begins =>
      simp only [step, runs] at hstep
      cases hsleep : sleep (.int c.interDelayMs) with
      | error e =>
        obtain rfl := Option.some.inj (by simpa only [hsleep] using hstep)
        refine ⟨fun _ => h, fun hnot => absurd ?_ hnot⟩
        simp [ReleaseGetsOut, State.left, hsleep, Except.isOk, Except.toBool, HoldOk]
      | ok =>
        obtain rfl := Option.some.inj (by simpa only [hsleep] using hstep)
        simpa [ReleaseGetsOut, State.left, hsleep, Except.isOk, Except.toBool] using
          (takeStep_taken hid c _ c.steps).good h

theorem lost_step {hid : HidKeymap} {c : Call} {s s' : State} {e : Event} (h : Lost s)
    (hstep : step hid c s e = some s') : Lost s' := by
  obtain ⟨⟨outcome, hstage⟩, hdown⟩ := h
  cases e with
  | link connected ready =>
    obtain rfl := Option.some.inj hstep
    exact ⟨⟨outcome, hstage⟩, hdown⟩
  | queue full =>
    obtain rfl := Option.some.inj hstep
    exact ⟨⟨outcome, hstage⟩, hdown⟩
  | cancelled => simp [step, cancel, hstage] at hstep
  | runs => simp [step, runs, hstage] at hstep

theorem run_good {hid : HidKeymap} {c : Call} {s q : State} {es : List Event}
    (h : execute (step hid c) s es = some q) (hgood : Good s) :
    (Along (step hid c) (ReleaseGetsOut hid c) s es → Good q) ∧
      (¬ Along (step hid c) (ReleaseGetsOut hid c) s es → Lost q) := by
  induction es generalizing s with
  | nil =>
    obtain rfl : s = q := by simpa [execute] using h
    exact ⟨fun _ => hgood, (absurd trivial ·)⟩
  | cons e es ih =>
    obtain ⟨t, ht, hrest⟩ := Option.bind_eq_some_iff.mp h
    obtain ⟨hkeeps, hloses⟩ := step_good hgood ht
    by_cases hok : ReleaseGetsOut hid c s e
    · have htail : Along (step hid c) (ReleaseGetsOut hid c) s (e :: es) ↔
          Along (step hid c) (ReleaseGetsOut hid c) t es := by
        simp [Along, hok, ht]
      rw [htail]
      exact ih hrest (hkeeps hok)
    · refine ⟨fun halong => absurd halong.1 hok, fun _ => ?_⟩
      exact (reachable_of_execute hrest).invariant (hloses hok) fun u e v hu _ hv => lost_step hu hv

/-- With the port open, a macro that is over has released its keys exactly if every release got
out. -/
theorem keys_released_iff {hid : HidKeymap} {c : Call} {connected ready full : Bool}
    {es : List Event} {q : State} {outcome : Outcome}
    (h : execute (step hid c) { transport := ⟨true, connected, ready, full⟩ } es = some q)
    (hover : q.stage = .ended outcome) : Released q.sent ↔ Along (step hid c) (ReleaseGetsOut hid c)
      { transport := ⟨true, connected, ready, full⟩ } es := by
  have hstart : Released [] := by
    intro before f after heq
    simp at heq
  obtain ⟨hkeeps, hloses⟩ := run_good h hstart
  refine ⟨fun hreleased => ?_, fun halong => ?_⟩
  · by_contra hnot
    exact (hloses hnot).2 hreleased
  · exact (good_of_not_holds (by simp [hover])).mp (hkeeps halong)

def press (code : String) (keyHoldMs : Int) : Step :=
  [("usage", .str "consumer"), ("code", .str code), ("key_hold_ms", .int keyHoldMs)]

/-- `power_on`. -/
def powerOn : Call where
  steps := [press "menu" 40, [("wait_ms", .int 1000)], press "menu" 40]

/-- `power_off`. -/
def powerOff : Call where
  steps := [press "ac_home" 40, press "ac_home" 40, press "ac_home" 40, press "menu" 40,
    press "menu" 40, press "power" 2000]

def sampleHid : HidKeymap where
  hidKb := []
  hidCc := [("menu", 64), ("ac_home", 547), ("power", 48)]

def ready : Transport := ⟨true, true, true, false⟩

theorem keys_released_powerOn : ∃ q, execute (step sampleHid powerOn) { transport := ready }
    [.runs, .runs, .runs, .runs, .runs] = some q ∧ q.sent.length = 4 ∧ Released q.sent := by
  have hends : (execute (step sampleHid powerOn) { transport := ready }
      [.runs, .runs, .runs, .runs, .runs]).map (fun q => (q.stage, q.sent.length)) =
        some (.ended .returned, 4) := rfl
  obtain ⟨q, hq, hstate⟩ := Option.map_eq_some_iff.mp hends
  obtain ⟨hover, hlength⟩ := Prod.mk.inj hstate
  exact ⟨q, hq, hlength, (keys_released_iff hq hover).mpr (by decide)⟩

/-- The task is cancelled while power is held. -/
theorem power_left_down : ∃ q, execute (step sampleHid powerOff) { transport := ready }
    (List.replicate 11 .runs ++ [.cancelled]) = some q ∧ q.stage = .ended .cancelled ∧
      ¬ Released q.sent := by
  have hends : (execute (step sampleHid powerOff) { transport := ready }
      (List.replicate 11 .runs ++ [.cancelled])).map (fun q => (q.stage, q.sent.drop 10)) =
        some (.ended .cancelled, [.down ⟨.consumer, [48, 0], rfl⟩]) := rfl
  obtain ⟨q, hq, hstate⟩ := Option.map_eq_some_iff.mp hends
  obtain ⟨hover, hlast⟩ := Prod.mk.inj hstate
  refine ⟨q, hq, hover, ?_⟩
  rw [← List.take_append_drop 10 q.sent, hlast]
  exact not_released_concat_down _ _

end PiHub.Macros

import PiHub.PyStr
import PiHub.Transition

/-! Power reads of the Frame TV (samsung_tv_frame.py): its announcements, the announce-read
task, and the lock that every call to the TV takes. -/
namespace PiHub.FrameTv
open PiHub.Transition PiHub.PyStr

/-- `notify_ssdp` takes it for an announcement of the media renderer. -/
def accepted (nt : String) (location : Option String) : Bool :=
  contains nt "MediaRenderer" || contains (location.getD "") "/dmr"

/-- Where `_read_after_announce` is: in its sleep, at the lock, or at the answer to
powerControl, which it sends as it takes the lock. -/
inductive Stage where
  | sleeping
  | waiting
  | inFlight
  | finished
  deriving DecidableEq

inductive Holder where
  | announceRead
  | other
  deriving DecidableEq

/-- What an RPC comes to: an exception, or the power in the result. -/
inductive Answer where
  | failed
  | power (value : Option String)
  deriving DecidableEq

/-- An announcement accepted, or a powerControl read sent. -/
inductive Entry where
  | announced
  | readSent
  deriving DecidableEq

/-- The backend; `log` is ghost. -/
structure SamsungFrameTv where
  token : Bool := true
  power : Option String := none
  presenceCached : Option Bool := none
  presenceSource : String := "unknown"
  received : Bool := false
  announceReadTask : Option Stage := none
  lock : Option Holder := none
  log : List Entry := []
  deriving DecidableEq

/-- `next_on`. -/
def SamsungFrameTv.nextOn (tv : SamsungFrameTv) (power : Option String) : Option Bool :=
  if power = some "powerOn" then some true
  else if power = some "powerOff" then some false
  else tv.presenceCached

/-- `_commit_power`. -/
def SamsungFrameTv.commitPower (tv : SamsungFrameTv) (power : Option String) (source : String) :
    SamsungFrameTv :=
  let nextOn := tv.nextOn (power.bind stripped)
  let tv := { tv with power := power.bind stripped, received := tv.received || nextOn.isSome }
  if tv.presenceCached = nextOn then tv
  else { tv with presenceCached := nextOn, presenceSource := source }

/-- No announce-read task, or one that is done. -/
def SamsungFrameTv.Idle (tv : SamsungFrameTv) : Prop :=
  tv.announceReadTask = none ∨ tv.announceReadTask = some .finished

instance (tv : SamsungFrameTv) : Decidable tv.Idle := inferInstanceAs (Decidable (_ ∨ _))

def SamsungFrameTv.notifySsdp (tv : SamsungFrameTv) (nt : String) (location : Option String) : SamsungFrameTv :=
  if accepted nt location then
    if tv.Idle then
      { tv with announceReadTask := some .sleeping, log := tv.log ++ [.announced] }
    else { tv with log := tv.log ++ [.announced] }
  else tv

/-- `refresh_presence` from the lock to its request. Without a token nothing is sent. -/
def SamsungFrameTv.takesLock (tv : SamsungFrameTv) : SamsungFrameTv :=
  if tv.token then
    { tv with lock := some .announceRead, announceReadTask := some .inFlight
              log := tv.log ++ [.readSent] }
  else { tv with announceReadTask := some .finished }

/-- `refresh_presence` from the answer to its end. -/
def SamsungFrameTv.answered (tv : SamsungFrameTv) : Answer → SamsungFrameTv
  | .failed => { tv with lock := none, announceReadTask := some .finished }
  | .power value =>
    { tv.commitPower value "ip_control_power" with
      lock := none, announceReadTask := some .finished }

/-- Announcements, the announce-read task's steps, and what another call that holds the lock
does: it reads the power, commits an answer, or does anything else with the TV. -/
inductive Event where
  | notifySsdp (nt : String) (location : Option String)
  | wakes
  | takesLock
  | answered (answer : Answer)
  | otherTakes
  | otherReads
  | otherCommits (power : Option String) (source : String)
  | otherReleases
  deriving DecidableEq

def step (tv : SamsungFrameTv) : Event → Option SamsungFrameTv
  | .notifySsdp nt location => some (tv.notifySsdp nt location)
  | .wakes =>
    if tv.announceReadTask = some .sleeping then
      some { tv with announceReadTask := some .waiting }
    else none
  | .takesLock =>
    if tv.announceReadTask = some .waiting ∧ tv.lock = none then some tv.takesLock else none
  | .answered answer =>
    if tv.announceReadTask = some .inFlight then some (tv.answered answer) else none
  | .otherTakes => if tv.lock = none then some { tv with lock := some .other } else none
  | .otherReads =>
    if tv.lock = some .other then some { tv with log := tv.log ++ [.readSent] } else none
  | .otherCommits power source =>
    if tv.lock = some .other then some (tv.commitPower power source) else none
  | .otherReleases => if tv.lock = some .other then some { tv with lock := none } else none

/-- Every accepted announcement has been followed by a power read. -/
def Answered (log : List Entry) : Prop :=
  ∀ before after, log = before ++ .announced :: after → .readSent ∈ after

/-- No announcement is accepted while the announce-read task's own request is out. -/
def Heard (tv : SamsungFrameTv) : Event → Prop
  | .notifySsdp nt location => accepted nt location = true → tv.announceReadTask ≠ some .inFlight
  | _ => True

instance (tv : SamsungFrameTv) (ev : Event) : Decidable (Heard tv ev) :=
  match ev with
  | .notifySsdp _ _ => inferInstanceAs (Decidable (_ → _))
  | .wakes | .takesLock | .answered _ | .otherTakes | .otherReads | .otherCommits _ _
  | .otherReleases => .isTrue trivial

theorem answered_readSent (log : List Entry) : Answered (log ++ [.readSent]) := by
  intro before after heq
  cases after using List.reverseRecOn with
  | nil => simpa using (List.append_inj' heq rfl).2
  | append_singleton after e _ =>
    have hsplit : log ++ [.readSent] = (before ++ .announced :: after) ++ [e] := by simpa using heq
    obtain rfl : Entry.readSent = e := by simpa using (List.append_inj' hsplit rfl).2
    simp

theorem not_answered_announced (log : List Entry) : ¬ Answered (log ++ [.announced]) := by
  intro h
  simpa using h log [] rfl

theorem commitPower_same (tv : SamsungFrameTv) (power : Option String) (source : String) :
    (tv.commitPower power source).token = tv.token ∧
      (tv.commitPower power source).announceReadTask = tv.announceReadTask ∧
      (tv.commitPower power source).lock = tv.lock ∧
      (tv.commitPower power source).log = tv.log := by
  unfold SamsungFrameTv.commitPower
  dsimp only
  split
  · exact ⟨rfl, rfl, rfl, rfl⟩
  · exact ⟨rfl, rfl, rfl, rfl⟩

/-- An announcement that has not been answered finds the task before its read. -/
structure Sound (tv : SamsungFrameTv) : Prop where
  token : tv.token = true
  answered : Answered tv.log ∨ tv.announceReadTask = some .sleeping ∨
    tv.announceReadTask = some .waiting

theorem Sound.notifySsdp {tv : SamsungFrameTv} {nt : String} {location : Option String}
    (h : Sound tv) (hheard : accepted nt location = true → tv.announceReadTask ≠ some .inFlight) :
    Sound (tv.notifySsdp nt location) := by
  unfold SamsungFrameTv.notifySsdp
  by_cases hacc : accepted nt location = true
  · rw [if_pos hacc]
    by_cases hidle : tv.Idle
    · rw [if_pos hidle]
      exact ⟨h.token, Or.inr (Or.inl rfl)⟩
    · rw [if_neg hidle]
      refine ⟨h.token, Or.inr ?_⟩
      obtain ⟨hnone, hfinished⟩ := not_or.mp hidle
      cases htask : tv.announceReadTask with
      | none => exact absurd htask hnone
      | some stage =>
        cases stage with
        | sleeping => exact Or.inl rfl
        | waiting => exact Or.inr rfl
        | inFlight => exact absurd htask (hheard hacc)
        | finished => exact absurd htask hfinished
  · rw [if_neg hacc]
    exact h

theorem Sound.commitPower {tv : SamsungFrameTv} (h : Sound tv) (power : Option String)
    (source : String) : Sound (tv.commitPower power source) := by
  obtain ⟨htoken, htask, _, hlog⟩ := commitPower_same tv power source
  exact ⟨htoken.trans h.token, by rw [htask, hlog]; exact h.answered⟩

/-- The answer ends the task, whose read came after every announcement. -/
theorem Sound.answer {tv : SamsungFrameTv} (h : Sound tv)
    (htask : tv.announceReadTask = some .inFlight) (answer : Answer) : Sound (tv.answered answer) := by
  have hlog : Answered tv.log := by simpa [htask] using h.answered
  cases answer with
  | failed => exact ⟨h.token, Or.inl hlog⟩
  | power value =>
    obtain ⟨htoken, _, _, hsame⟩ := commitPower_same tv value "ip_control_power"
    exact ⟨htoken.trans h.token, Or.inl (by rw [← hsame] at hlog; exact hlog)⟩

theorem sound_step {tv tv' : SamsungFrameTv} {ev : Event} (h : Sound tv) (hheard : Heard tv ev)
    (hstep : step tv ev = some tv') : Sound tv' := by
  cases ev with
  | notifySsdp nt location =>
    obtain rfl := Option.some.inj hstep
    exact h.notifySsdp hheard
  | wakes =>
    obtain ⟨_, rfl⟩ := of_guard hstep
    exact ⟨h.token, Or.inr (Or.inr rfl)⟩
  | takesLock =>
    obtain ⟨_, rfl⟩ := of_guard hstep
    unfold SamsungFrameTv.takesLock
    rw [if_pos h.token]
    exact ⟨h.token, Or.inl (answered_readSent tv.log)⟩
  | answered answer =>
    obtain ⟨htask, rfl⟩ := of_guard hstep
    exact h.answer htask answer
  | otherTakes =>
    obtain ⟨_, rfl⟩ := of_guard hstep
    exact ⟨h.token, h.answered⟩
  | otherReads =>
    obtain ⟨_, rfl⟩ := of_guard hstep
    exact ⟨h.token, Or.inl (answered_readSent tv.log)⟩
  | otherCommits power source =>
    obtain ⟨_, rfl⟩ := of_guard hstep
    exact h.commitPower power source
  | otherReleases =>
    obtain ⟨_, rfl⟩ := of_guard hstep
    exact ⟨h.token, h.answered⟩

/-- As long as none comes while the announce-read task's request is out, no announcement is
left without a read. -/
theorem announcements_answered {tv : SamsungFrameTv} (h : ReachableBy step Heard {} tv)
    (hidle : tv.Idle) : Answered tv.log := by
  have hsound : Sound tv := by
    apply h.invariant
    · refine ⟨rfl, Or.inl fun before after heq => ?_⟩
      simp at heq
    · intro t ev u ht hheard hstep
      exact sound_step ht hheard hstep
  obtain hlog | htask | htask := hsound.answered
  · exact hlog
  · simp [SamsungFrameTv.Idle, htask] at hidle
  · simp [SamsungFrameTv.Idle, htask] at hidle

/-- An announcement that comes while it is out is lost, whatever the TV answers. -/
theorem in_flight_lost {tv : SamsungFrameTv} {nt : String} {location : Option String}
    (hacc : accepted nt location = true) (htask : tv.announceReadTask = some .inFlight)
    (answer : Answer) : ∃ tv', execute step tv [.notifySsdp nt location, .answered answer] = some tv' ∧
      tv'.Idle ∧ ¬ Answered tv'.log := by
  have hidle : ¬ tv.Idle := by simp [SamsungFrameTv.Idle, htask]
  have hnotify : tv.notifySsdp nt location = { tv with log := tv.log ++ [.announced] } := by
    unfold SamsungFrameTv.notifySsdp
    rw [if_pos hacc, if_neg hidle]
  refine ⟨{ tv with log := tv.log ++ [Entry.announced] }.answered answer, ?_, ?_⟩
  · simp [execute, step, hnotify, htask]
  · cases answer with
    | failed => exact ⟨Or.inr rfl, not_answered_announced tv.log⟩
    | power value =>
      obtain ⟨_, _, _, hlog⟩ :=
        commitPower_same { tv with log := tv.log ++ [.announced] } value "ip_control_power"
      refine ⟨Or.inr rfl, fun h => not_answered_announced tv.log ?_⟩
      have hcommitted : Answered ({ tv with log := tv.log ++ [Entry.announced] }.commitPower value
        "ip_control_power").log := h
      rwa [hlog] at hcommitted

def renderer : String := "urn:schemas-upnp-org:device:MediaRenderer:1"

/-- A switch-on's burst, a flow's read that the task waits for, and one more announcement. -/
def burst : List Event :=
  [.notifySsdp renderer none, .notifySsdp "upnp:rootdevice" (some "http://tv:9197/dmr"), .otherTakes,
    .otherReads, .wakes, .otherCommits (some "powerOff") "ip_control_power", .otherReleases,
    .notifySsdp renderer none, .takesLock, .answered (.power (some "powerOn"))]

theorem burst_answered : ∃ tv, execute step {} burst = some tv ∧
    tv.presenceCached = some true ∧ tv.Idle ∧ Answered tv.log := by
  have hrun : (execute step {} burst).map (fun tv => (tv.presenceCached, tv.announceReadTask)) =
      some (some true, some .finished) := by decide
  obtain ⟨tv, htv, hseen⟩ := Option.map_eq_some_iff.mp hrun
  obtain ⟨hpresence, htask⟩ := Prod.mk.inj hseen
  have hidle : tv.Idle := Or.inr htask
  exact ⟨tv, htv, hpresence, hidle,
    announcements_answered (reachableBy_of_execute htv (by decide)) hidle⟩

/-- The TV is switched off while the read that the first announcement asked for is out. -/
def switchedOff : List Event :=
  [.notifySsdp renderer none, .wakes, .takesLock, .notifySsdp renderer none,
    .answered (.power (some "powerOn"))]

theorem switched_off_lost : ∃ tv, execute step {} switchedOff = some tv ∧
    tv.presenceCached = some true ∧ tv.Idle ∧ ¬ Answered tv.log := by
  refine ⟨_, rfl, by decide, by decide, ?_⟩
  exact not_answered_announced [.announced, .readSent]

end PiHub.FrameTv

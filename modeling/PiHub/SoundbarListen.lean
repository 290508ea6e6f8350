import Mathlib.Algebra.Order.Ring.Unbundled.Rat
import PiHub.Transition
import PiHub.PyStr

/-! The soundbar's state (samsung_soundbar.py): AirPlay records and removals, Cast receiver and
media statuses, the fields that follow from them, and the listen signal. Times are left out. -/
namespace PiHub.SoundbarListen
open PiHub.Transition PiHub.PyStr

/-- `flags & AIRPLAY_ACTIVE_BIT`, which is bit 11. -/
def activeBit (flags : Int) : Bool := (flags >>> (11 : Nat)) % 2 = 1

def castPlayingStates : List String := ["PLAYING", "BUFFERING"]

/-- Whether a string or `None` is true. -/
def truthy (s : Option String) : Bool := s.any (· ≠ "")

/-- What `_derived_state` returns. -/
structure Derived where
  listenActive : Bool
  source : Option String
  playbackStatus : Option String
  powerOn : Option Bool
  soundFrom : Option String
  deriving DecidableEq

def castPlaying (playerState : Option String) : Bool := playerState.any (· ∈ castPlayingStates)

def deriveSource (airplayActive : Bool) (castAppId : Option String) : String :=
  if airplayActive then "airplay" else if truthy castAppId then "wifi" else "optical"

def derivePlaybackStatus (airplayActive : Bool) (castAppId castPlayerState : Option String) :
    Option String :=
  if airplayActive then some "playing"
  else if truthy castAppId then
    if castPlaying castPlayerState then some "playing"
    else if castPlayerState = some "PAUSED" then some "paused"
    else some "idle"
  else none

def derivedState (airplayFlags : Option Int) (castAppId castPlayerState : Option String) : Derived :=
  let airplayActive := airplayFlags.any activeBit
  let listenActive := airplayActive || (truthy castAppId && castPlaying castPlayerState)
  { listenActive := listenActive
    source := deriveSource airplayActive castAppId
    playbackStatus := derivePlaybackStatus airplayActive castAppId castPlayerState
    powerOn := if listenActive || truthy castAppId then some true else none
    soundFrom :=
      if airplayActive then some "airplay" else if truthy castAppId then some "google_cast" else none }

/-- `SamsungSoundbarState`. -/
structure SoundbarState where
  reachable : Bool := false
  connected : Bool := false
  ready : Bool := false
  lastError : Option String := none
  powerOn : Option Bool := none
  playbackStatus : Option String := none
  volume : Option ℚ := none
  muted : Option Bool := none
  source : Option String := none
  soundFrom : Option String := none
  listenActive : Bool := false
  castAppId : Option String := none
  castPlayerState : Option String := none
  airplayFlags : Option Int := none
  airplayDevice : Option String := none
  deriving DecidableEq

def SoundbarState.derived (s : SoundbarState) : Derived :=
  ⟨s.listenActive, s.source, s.playbackStatus, s.powerOn, s.soundFrom⟩

/-- The updates `**self._derived_state(...)`. -/
def SoundbarState.withDerived (s : SoundbarState) (d : Derived) : SoundbarState :=
  { s with listenActive := d.listenActive, source := d.source, playbackStatus := d.playbackStatus
           powerOn := d.powerOn, soundFrom := d.soundFrom }

/-- A device's first reading (initial_status.py). -/
structure InitialStatus where
  settled : Bool := false
  received : Bool := false
  deriving DecidableEq

def InitialStatus.markReceived (i : InitialStatus) : InitialStatus :=
  if i.received then i else ⟨true, true⟩

def InitialStatus.markFailed (i : InitialStatus) : InitialStatus :=
  if i.settled then i else { i with settled := true }

/-- The payload of a listen signal for the runtime. -/
structure Signal where
  domain : String := "speaker"
  source : Option String
  playbackStatus : Option String
  deriving DecidableEq

/-- The backend. A Cast connection is known by a number. -/
structure Soundbar where
  enabled : Bool := false
  state : SoundbarState := {}
  cast : Option Nat := none
  airplayServiceRawName : Option String := none
  availabilityLoggedDown : Bool := false
  castReadyLogged : Bool := false
  statusLineDue : Bool := false
  mediaStatusSeen : Bool := false
  statusWaitTask : Bool := false
  initial : InitialStatus := {}
  airplayInitial : InitialStatus := {}
  signals : List Signal := []
  deriving DecidableEq

/-- What is read from a Cast receiver status, with the `app_id` of the connection. -/
structure CastStatus where
  appId : Option String
  volume : Option ℚ
  muted : Option Bool
  deriving DecidableEq

def SoundbarState.signal (s : SoundbarState) : Signal :=
  { source := s.source, playbackStatus := s.playbackStatus }

namespace Soundbar

/-- `_emit_state_change` with "listen". -/
def emitListen (b : Soundbar) : Soundbar := { b with signals := b.signals ++ [b.state.signal] }

/-- `_maybe_emit_listen_edge`. -/
def maybeEmitListenEdge (b : Soundbar) (oldListen firstReading : Bool) : Soundbar :=
  if firstReading then b
  else if !oldListen && b.state.listenActive then b.emitListen
  else b

/-- The handlers differ in the fields they update and in whose first reading they ask for:
`_apply_state_updates`, then the listen edge if something has changed. -/
def applyUpdates (b : Soundbar) (state : SoundbarState) (initial : InitialStatus) : Soundbar :=
  let oldListen := b.state.listenActive
  let changed := state ≠ b.state
  let b := { b with state := state }
  if changed then b.maybeEmitListenEdge oldListen !initial.settled else b

def applyAirplaySnapshot (b : Soundbar) (airplayFlags : Option Int) (airplayDevice : Option String) :
    Soundbar :=
  b.applyUpdates
    ({ b.state with airplayFlags := airplayFlags, airplayDevice := airplayDevice }.withDerived
      (derivedState airplayFlags b.state.castAppId b.state.castPlayerState)) b.airplayInitial

def applyCastSnapshot (b : Soundbar) (castStatus : CastStatus) : Soundbar :=
  let appId := castStatus.appId.bind stripped
  -- a different app means any media state held is stale
  let playerState := if appId = b.state.castAppId then b.state.castPlayerState else none
  let state := { b.state with
    reachable := true
    connected := true
    ready := true
    lastError := none
    castAppId := appId
    castPlayerState := playerState
    volume := castStatus.volume.map fun v => max 0 (min 1 v)
    muted := castStatus.muted }
  b.applyUpdates (state.withDerived (derivedState b.state.airplayFlags appId playerState)) b.initial

def sayStatusWhenKnown (b : Soundbar) : Soundbar :=
  if !b.statusLineDue then b
  else if truthy b.state.castAppId && !b.mediaStatusSeen then { b with statusWaitTask := true }
  else { b with statusLineDue := false, initial := b.initial.markReceived }

def noteRefreshSuccess (b : Soundbar) : Soundbar :=
  let b := if !b.castReadyLogged || b.availabilityLoggedDown then { b with statusLineDue := true } else b
  { { b with castReadyLogged := true }.sayStatusWhenKnown with availabilityLoggedDown := false }

def handleAirplayUpdate (b : Soundbar) (rawName : String) (device : Option String)
    (flags : Option Int) : Soundbar :=
  if !b.enabled then b
  else
    let b := { b with airplayServiceRawName := some rawName }.applyAirplaySnapshot flags device
    if flags.isSome then { b with airplayInitial := b.airplayInitial.markReceived } else b

def handleAirplayRemoved (b : Soundbar) (rawName : String) : Soundbar :=
  if some rawName ≠ b.airplayServiceRawName then b
  else { b with airplayServiceRawName := none }.applyAirplaySnapshot none b.state.airplayDevice

def handleCastStatusEvent (b : Soundbar) (status : CastStatus) : Soundbar :=
  if !b.enabled then b
  else b.applyCastSnapshot { status with appId := if b.cast.isSome then status.appId else none }

def handleCastMediaEvent (b : Soundbar) (cast : Nat) (playerState : Option String) : Soundbar :=
  if !b.enabled || b.cast ≠ some cast then b
  else
    let playerState := (playerState.bind stripped).filter (· ≠ "UNKNOWN")
    let b := b.applyUpdates ({ b.state with castPlayerState := playerState }.withDerived
      (derivedState b.state.airplayFlags b.state.castAppId playerState)) b.initial
    { b with mediaStatusSeen := true }.sayStatusWhenKnown

/-- The watchdog's branch for an exception. -/
def refreshFails (b : Soundbar) (error : String) : Soundbar :=
  { b with
    state := { b.state with reachable := false, connected := false, ready := false
                            lastError := some error }
    initial := b.initial.markFailed
    availabilityLoggedDown := true }

end Soundbar

/-- The threads' events as the loop handles them, the watchdog's reads, and the deadlines.
`refreshed` has the status read in a thread, whatever happened since. -/
inductive Event where
  | starts | stops
  | connects (cast : Nat)
  | disconnects
  | airplayUpdate (rawName : String) (device : Option String) (flags : Option Int)
  | airplayRemoved (rawName : String)
  | airplayDeadline
  | castStatus (status : CastStatus)
  | castMedia (cast : Nat) (playerState : Option String)
  | refreshed (status : CastStatus)
  | refreshFails (error : String)
  | statusWaitDeadline
  deriving DecidableEq

def Soundbar.handle (b : Soundbar) : Event → Soundbar
  | .starts => { b with enabled := true }
  | .stops => { b with enabled := false, statusWaitTask := false }
  | .connects cast => { b with cast := some cast }
  | .disconnects => { b with cast := none, castReadyLogged := false, mediaStatusSeen := false }
  | .airplayUpdate rawName device flags => b.handleAirplayUpdate rawName device flags
  | .airplayRemoved rawName => b.handleAirplayRemoved rawName
  | .airplayDeadline => { b with airplayInitial := b.airplayInitial.markFailed }
  | .castStatus status => b.handleCastStatusEvent status
  | .castMedia cast playerState => b.handleCastMediaEvent cast playerState
  | .refreshed status => (b.applyCastSnapshot status).noteRefreshSuccess
  | .refreshFails error => b.refreshFails error
  | .statusWaitDeadline =>
    if b.statusWaitTask then
      { b with statusWaitTask := false
               initial := if b.statusLineDue && !b.mediaStatusSeen then b.initial.markFailed
                 else b.initial }
    else b

def step (b : Soundbar) (e : Event) : Option Soundbar := some (b.handle e)

/-! ### Consistency -/

/-- The derived fields are those of the primary fields now stored. -/
def Consistent (b : Soundbar) : Prop :=
  b.state.derived = derivedState b.state.airplayFlags b.state.castAppId b.state.castPlayerState

/-- An AirPlay or Cast event that is not ignored: the removal of another service, a media status
of a replaced connection and most events of a stopped backend are. -/
def Applies (b : Soundbar) : Event → Prop
  | .airplayUpdate _ _ _ | .castStatus _ => b.enabled
  | .airplayRemoved rawName => b.airplayServiceRawName = some rawName
  | .castMedia cast _ => b.enabled ∧ b.cast = some cast
  | .refreshed _ => True
  | _ => False

instance (b : Soundbar) (e : Event) : Decidable (Applies b e) := by
  unfold Applies
  split <;> infer_instance

instance (b : Soundbar) : Decidable (Consistent b) := by unfold Consistent; infer_instance

/-- Whether the channel that an event arrives on has settled its first reading. -/
def ChannelSettled (b : Soundbar) : Event → Bool
  | .airplayUpdate _ _ _ | .airplayRemoved _ => b.airplayInitial.settled
  | .castStatus _ | .castMedia _ _ | .refreshed _ => b.initial.settled
  | _ => false

/-- `listen_active` goes from false to true. -/
def Rises (s t : SoundbarState) : Prop := s.listenActive = false ∧ t.listenActive = true

instance (s t : SoundbarState) : Decidable (Rises s t) := by unfold Rises; infer_instance

/-- The signal of a rise, once the channel's first reading is settled. -/
def edge (s t : SoundbarState) (settled : Bool) : List Signal :=
  if Rises s t ∧ settled then [t.signal] else []

theorem edge_of_listen_eq {s t : SoundbarState} (h : t.listenActive = s.listenActive)
    (settled : Bool) : edge s t settled = [] :=
  if_neg fun hrise => absurd (hrise.1.1.symm.trans (h.symm.trans hrise.1.2)) (by decide)

theorem applyUpdates_eq (b : Soundbar) (state : SoundbarState) (initial : InitialStatus) :
    b.applyUpdates state initial =
      { b with state := state, signals := b.signals ++ edge b.state state initial.settled } := by
  unfold Soundbar.applyUpdates Soundbar.maybeEmitListenEdge
  by_cases hsame : state = b.state
  · subst hsame
    simp [edge_of_listen_eq rfl]
  · cases hsettled : initial.settled <;> cases hold : b.state.listenActive <;>
      cases hnew : state.listenActive <;>
      simp [hsame, hold, hnew, edge, Rises, Soundbar.emitListen]

/-- What an event does to the state: nothing that the derived fields or what they follow from
see, or an update after which they agree. Signals are the edges. -/
structure Handled (b c : Soundbar) (e : Event) : Prop where
  signals : c.signals = b.signals ++ edge b.state c.state (ChannelSettled b e)
  consistent : Applies b e → Consistent c
  kept : ¬ Applies b e → c.state.derived = b.state.derived ∧
    c.state.airplayFlags = b.state.airplayFlags ∧ c.state.castAppId = b.state.castAppId ∧
    c.state.castPlayerState = b.state.castPlayerState

/-- An event that touches none of these. -/
theorem Handled.quiet {b c : Soundbar} {e : Event} (hnot : ¬ Applies b e)
    (hsignals : c.signals = b.signals) (hderived : c.state.derived = b.state.derived)
    (hflags : c.state.airplayFlags = b.state.airplayFlags)
    (happ : c.state.castAppId = b.state.castAppId)
    (hplayer : c.state.castPlayerState = b.state.castPlayerState) : Handled b c e := by
  refine ⟨?_, fun h => absurd h hnot, fun _ => ⟨hderived, hflags, happ, hplayer⟩⟩
  have hlisten : c.state.listenActive = b.state.listenActive := congrArg Derived.listenActive hderived
  rw [edge_of_listen_eq hlisten, List.append_nil, hsignals]

/-- What follows a snapshot leaves the state and the signals alone. -/
theorem sayStatusWhenKnown_keeps (b : Soundbar) :
    b.sayStatusWhenKnown.state = b.state ∧ b.sayStatusWhenKnown.signals = b.signals := by
  unfold Soundbar.sayStatusWhenKnown
  split
  · exact ⟨rfl, rfl⟩
  · split <;> exact ⟨rfl, rfl⟩

theorem noteRefreshSuccess_keeps (b : Soundbar) :
    b.noteRefreshSuccess.state = b.state ∧ b.noteRefreshSuccess.signals = b.signals := by
  unfold Soundbar.noteRefreshSuccess
  dsimp only
  split
  · exact sayStatusWhenKnown_keeps _
  · exact sayStatusWhenKnown_keeps _

theorem handled_airplayUpdate (b : Soundbar) (rawName : String) (device : Option String)
    (flags : Option Int) : Handled b (b.handleAirplayUpdate rawName device flags)
      (.airplayUpdate rawName device flags) := by
  unfold Soundbar.handleAirplayUpdate
  by_cases henabled : b.enabled
  · simp only [henabled, Bool.not_true, Bool.false_eq_true, if_false, Soundbar.applyAirplaySnapshot,
      applyUpdates_eq]
    split
    · exact ⟨rfl, fun _ => rfl, fun hnot => absurd henabled hnot⟩
    · exact ⟨rfl, fun _ => rfl, fun hnot => absurd henabled hnot⟩
  · simp only [henabled, Bool.not_false, if_true]
    exact .quiet henabled rfl rfl rfl rfl rfl

theorem handled_airplayRemoved (b : Soundbar) (rawName : String) :
    Handled b (b.handleAirplayRemoved rawName) (.airplayRemoved rawName) := by
  unfold Soundbar.handleAirplayRemoved
  by_cases hname : some rawName ≠ b.airplayServiceRawName
  · rw [if_pos hname]
    exact .quiet (fun h => hname h.symm) rfl rfl rfl rfl rfl
  · rw [if_neg hname, Soundbar.applyAirplaySnapshot, applyUpdates_eq]
    exact ⟨rfl, fun _ => rfl, fun hnot => absurd (not_not.mp hname).symm hnot⟩

/-- A Cast receiver status, from the listener or from the watchdog. -/
theorem applyCastSnapshot_eq (b : Soundbar) (status : CastStatus) :
    ∃ state, b.applyCastSnapshot status =
        { b with state := state, signals := b.signals ++ edge b.state state b.initial.settled } ∧
      state.derived = derivedState state.airplayFlags state.castAppId state.castPlayerState := by
  unfold Soundbar.applyCastSnapshot
  dsimp only
  rw [applyUpdates_eq]
  exact ⟨_, rfl, rfl⟩

theorem handled_castStatus (b : Soundbar) (status : CastStatus) :
    Handled b (b.handleCastStatusEvent status) (.castStatus status) := by
  unfold Soundbar.handleCastStatusEvent
  by_cases henabled : b.enabled
  · simp only [henabled, Bool.not_true, Bool.false_eq_true, if_false]
    obtain ⟨state, heq, hderived⟩ := applyCastSnapshot_eq b
      { status with appId := if b.cast.isSome then status.appId else none }
    rw [heq]
    exact ⟨rfl, fun _ => hderived, fun hnot => absurd henabled hnot⟩
  · simp only [henabled, Bool.not_false, if_true]
    exact .quiet henabled rfl rfl rfl rfl rfl

theorem handled_refreshed (b : Soundbar) (status : CastStatus) :
    Handled b (b.applyCastSnapshot status).noteRefreshSuccess (.refreshed status) := by
  obtain ⟨state, heq, hderived⟩ := applyCastSnapshot_eq b status
  obtain ⟨hstate, hsignals⟩ := noteRefreshSuccess_keeps (b.applyCastSnapshot status)
  rw [heq] at hstate hsignals ⊢
  refine ⟨?_, fun _ => ?_, fun hnot => absurd trivial hnot⟩
  · rw [hsignals, hstate]
    rfl
  · rw [Consistent, hstate]
    exact hderived

theorem handled_castMedia (b : Soundbar) (cast : Nat) (playerState : Option String) :
    Handled b (b.handleCastMediaEvent cast playerState) (.castMedia cast playerState) := by
  unfold Soundbar.handleCastMediaEvent
  by_cases happlies : b.enabled ∧ b.cast = some cast
  · obtain ⟨henabled, hcast⟩ := happlies
    simp only [henabled, hcast, Bool.not_true, ne_eq, not_true_eq_false, decide_false, Bool.or_self,
      Bool.false_eq_true, if_false, applyUpdates_eq]
    refine ⟨?_, fun _ => ?_, fun hnot => absurd ⟨henabled, hcast⟩ hnot⟩
    · rw [(sayStatusWhenKnown_keeps _).2, (sayStatusWhenKnown_keeps _).1]
      rfl
    · rw [Consistent, (sayStatusWhenKnown_keeps _).1]
      rfl
  · have hignored : (!b.enabled || decide (b.cast ≠ some cast)) = true := by
      cases henabled : b.enabled <;> simp_all
    rw [if_pos hignored]
    exact .quiet happlies rfl rfl rfl rfl rfl

theorem handled (b : Soundbar) (e : Event) : Handled b (b.handle e) e := by
  cases e with
  | starts => exact .quiet id rfl rfl rfl rfl rfl
  | stops => exact .quiet id rfl rfl rfl rfl rfl
  | connects cast => exact .quiet id rfl rfl rfl rfl rfl
  | disconnects => exact .quiet id rfl rfl rfl rfl rfl
  | airplayUpdate rawName device flags => exact handled_airplayUpdate b rawName device flags
  | airplayRemoved rawName => exact handled_airplayRemoved b rawName
  | airplayDeadline => exact .quiet id rfl rfl rfl rfl rfl
  | castStatus status => exact handled_castStatus b status
  | castMedia cast playerState => exact handled_castMedia b cast playerState
  | refreshed status => exact handled_refreshed b status
  | refreshFails error => exact .quiet id rfl rfl rfl rfl rfl
  | statusWaitDeadline =>
    simp only [Soundbar.handle]
    split
    · exact .quiet id rfl rfl rfl rfl rfl
    · exact .quiet id rfl rfl rfl rfl rfl

theorem consistent_handle {b : Soundbar} (hb : Consistent b) (e : Event) : Consistent (b.handle e) := by
  by_cases happlies : Applies b e
  · exact (handled b e).consistent happlies
  · obtain ⟨hderived, hflags, happ, hplayer⟩ := (handled b e).kept happlies
    rw [Consistent, hderived, hflags, happ, hplayer]
    exact hb

/-- A consistent state stays consistent, whatever comes. -/
theorem consistent_reachable {b c : Soundbar} (hb : Consistent b) (h : Reachable step b c) :
    Consistent c := by
  refine h.invariant hb fun c e d hc _ hstep => ?_
  obtain rfl := Option.some.inj hstep
  exact consistent_handle hc e

/-- The event emits a signal. -/
def Emits (b : Soundbar) (e : Event) : Prop := (b.handle e).signals ≠ b.signals

theorem rises_of_emits {b : Soundbar} {e : Event} (h : Emits b e) : Rises b.state (b.handle e).state := by
  by_contra hnot
  apply h
  rw [(handled b e).signals, edge, if_neg fun hrise => hnot hrise.1, List.append_nil]

/-- Once an AirPlay or Cast event has been applied the derived fields follow from the primary ones
ever after; a failing refresh leaves them alone; listen is emitted exactly when `listen_active`
rises on an event whose channel has settled, and `listen_active` is false again before the next
time. -/
theorem derived_consistent_and_edge (b : Soundbar) (e : Event) :
    (Applies b e → ∀ c, Reachable step (b.handle e) c → Consistent c) ∧
    (∀ error, (b.handle (.refreshFails error)).state.derived = b.state.derived) ∧
    ((b.handle e).signals = b.signals ++
      if Rises b.state (b.handle e).state ∧ ChannelSettled b e then [(b.handle e).state.signal] else []) ∧
    (Emits b e → (b.handle e).state.listenActive = true ∧
      ∀ c e', Reachable step (b.handle e) c → Emits c e' → c.state.listenActive = false) := by
  refine ⟨fun happlies c hc => ?_, fun error => rfl, (handled b e).signals, fun hemits => ?_⟩
  · exact consistent_reachable ((handled b e).consistent happlies) hc
  · exact ⟨(rises_of_emits hemits).2, fun c e' _ hemits' => (rises_of_emits hemits').1⟩

/-- Another service of the network is removed first: nothing is stored yet, not even the source. -/
theorem not_consistent_removed : ∃ b, execute step {} [.starts, .airplayRemoved
      "Kitchen._airplay._tcp.local."] = some b ∧ b.state.source = none ∧
    (derivedState b.state.airplayFlags b.state.castAppId b.state.castPlayerState).source =
      some "optical" ∧ ¬ Consistent b :=
  ⟨_, rfl, rfl, rfl, by decide⟩

end PiHub.SoundbarListen

import PiHub.Transition

/-! `TvWsClient` (samsung_tv.py): its websocket and the `connected` flag, over any number of
`connect`, `send_key` and `close` calls and the receive loops of all the sockets opened so far. The
token, `last_error` and the fields for logging are left out. -/
namespace PiHub.TvSocket
open PiHub.Transition

/-- Where `_rx_loop` is: not started, in its `async for`, or at the lock in its `finally`. -/
inductive Stage where
  | created
  | receiving
  | ending
  | done
  deriving DecidableEq

/-- A receive loop; `cancelled` is a cancellation that has not been raised yet. -/
structure Loop where
  stage : Stage := .created
  cancelled : Bool := false
  deriving DecidableEq

/-- `task.cancel()` if it is not done. -/
def Loop.cancel (l : Loop) : Loop := if l.stage = .done then l else { l with cancelled := true }

/-- What the call that has the lock is suspended at: `ws_connect`, or `send_str` of a socket. -/
inductive Holder where
  | connecting
  | sending (ws : Nat)
  deriving DecidableEq

/-- Sockets are numbered as they are opened; each has its receive loop, and `_rx_task` is a number of
one of these. -/
structure TvWsClient where
  ws : Option Nat := none
  connected : Bool := false
  rxTask : Option Nat := none
  lock : Option Holder := none
  loops : List Loop := []
  closed : List Nat := []
  deriving DecidableEq

/-- What an `await` comes to. -/
inductive Outcome where
  | done
  | failed
  | cancelled
  deriving DecidableEq

def TvWsClient.clear (c : TvWsClient) : TvWsClient := { c with ws := none, connected := false }

def TvWsClient.release (c : TvWsClient) : TvWsClient := { c with lock := none }

def TvWsClient.cancelLoop (c : TvWsClient) (k : Nat) : TvWsClient :=
  { c with loops := c.loops.modify k Loop.cancel }

def TvWsClient.cancelRxTask (c : TvWsClient) : TvWsClient := c.rxTask.elim c c.cancelLoop

/-- `connect` from the lock to `ws_connect`. -/
def TvWsClient.connect (c : TvWsClient) : TvWsClient :=
  if c.ws.any (· ∉ c.closed) && c.connected then c else { c with lock := some .connecting }

/-- A new socket, with its receive loop. -/
def TvWsClient.opened (c : TvWsClient) : TvWsClient :=
  { c.cancelRxTask with
    ws := some c.loops.length
    connected := true
    rxTask := some c.loops.length
    loops := c.cancelRxTask.loops ++ [{}] }

/-- `connect` from `ws_connect` on. -/
def TvWsClient.connectEnds (c : TvWsClient) : Outcome → TvWsClient
  | .done => c.opened.release
  | .failed => c.clear.release
  | .cancelled => c.release

/-- `close` under the lock. -/
def TvWsClient.close (c : TvWsClient) : TvWsClient := { c.cancelRxTask.clear with rxTask := none }

/-- `send_key` from the lock to `send_str`. -/
def TvWsClient.sendKey (c : TvWsClient) : TvWsClient :=
  match c.ws with
  | none => c.clear
  | some k => if k ∈ c.closed then c.clear else { c with lock := some (.sending k) }

/-- `send_key` from `send_str` on. -/
def TvWsClient.sendEnds (c : TvWsClient) (k : Nat) : Outcome → TvWsClient
  | .done => c.release
  | .failed =>
    { c with connected := false, ws := if c.ws = some k then none else c.ws }.release
  | .cancelled => c.release

def TvWsClient.setLoop (c : TvWsClient) (k : Nat) (l : Loop) : TvWsClient :=
  { c with loops := c.loops.set k l }

/-- The `finally` of the loop of socket `k`, from the lock on. -/
def TvWsClient.finish (c : TvWsClient) (k : Nat) : TvWsClient :=
  (if c.ws = some k then c.clear else c).setLoop k { stage := .done }

/-- A call takes the lock and runs to its next `await`, or the one that has the lock goes on; a
receive loop starts, stops receiving, takes the lock, or is cancelled there or before it starts;
anyone may cancel one, and any socket may close. -/
inductive Event where
  | connect
  | connectEnds (outcome : Outcome)
  | close
  | sendKey
  | sendEnds (outcome : Outcome)
  | loopStarts (k : Nat)
  | loopEnds (k : Nat)
  | loopFinishes (k : Nat)
  | loopCancelled (k : Nat)
  | cancels (k : Nat)
  | socketCloses (k : Nat)
  deriving DecidableEq

def step (c : TvWsClient) : Event → Option TvWsClient
  | .connect => if c.lock = none then some c.connect else none
  | .connectEnds outcome =>
    if c.lock = some .connecting then some (c.connectEnds outcome) else none
  | .close => if c.lock = none then some c.close else none
  | .sendKey => if c.lock = none then some c.sendKey else none
  | .sendEnds outcome =>
    match c.lock with
    | some (.sending k) => some (c.sendEnds k outcome)
    | _ => none
  | .loopStarts k =>
    if c.loops[k]? = some {} then some (c.setLoop k { stage := .receiving }) else none
  | .loopEnds k =>
    if c.loops[k]?.any (·.stage = .receiving) then some (c.setLoop k { stage := .ending }) else none
  | .loopFinishes k =>
    if c.lock = none ∧ c.loops[k]? = some { stage := .ending } then some (c.finish k) else none
  | .loopCancelled k =>
    if c.loops[k]? = some { stage := .created, cancelled := true } ∨
        c.loops[k]? = some { stage := .ending, cancelled := true } then
      some (c.setLoop k { stage := .done })
    else none
  | .cancels k => some (c.cancelLoop k)
  | .socketCloses k => some { c with closed := c.closed ++ [k] }

/-- The flag says whether there is a socket, which is one of those opened, and a call that sends
does so over it. -/
structure Sound (c : TvWsClient) : Prop where
  flag : c.connected = true ↔ c.ws.isSome = true
  opened : ∀ k, c.ws = some k → k < c.loops.length
  sending : ∀ k, c.lock = some (.sending k) → c.ws = some k

theorem cancelLoop_length (c : TvWsClient) (k : Nat) :
    (c.cancelLoop k).loops.length = c.loops.length :=
  List.length_modify _ _ _

/-- To cancel the receive loop is to touch nothing but its loop. -/
theorem cancelRxTask_same (c : TvWsClient) : c.cancelRxTask.ws = c.ws ∧
    c.cancelRxTask.connected = c.connected ∧ c.cancelRxTask.lock = c.lock ∧
    c.cancelRxTask.loops.length = c.loops.length := by
  unfold TvWsClient.cancelRxTask
  cases c.rxTask with
  | none => exact ⟨rfl, rfl, rfl, rfl⟩
  | some k => exact ⟨rfl, rfl, rfl, cancelLoop_length c k⟩

theorem Sound.same {c d : TvWsClient} (h : Sound c) (hws : d.ws = c.ws)
    (hconnected : d.connected = c.connected) (hlock : d.lock = c.lock)
    (hloops : d.loops.length = c.loops.length) : Sound d :=
  ⟨by rw [hws, hconnected, h.flag], by rw [hws, hloops]; exact h.opened,
    by rw [hws, hlock]; exact h.sending⟩

theorem Sound.release {c : TvWsClient} (h : Sound c) : Sound c.release :=
  ⟨h.flag, h.opened, nofun⟩

/-- Without a socket, where no call is sending. -/
theorem sound_clear {c : TvWsClient} (h : ∀ k, c.lock ≠ some (.sending k)) : Sound c.clear :=
  ⟨by simp [TvWsClient.clear], nofun, fun k hk => absurd hk (h k)⟩

theorem sound_opened {c : TvWsClient} (h : ∀ k, c.lock ≠ some (.sending k)) : Sound c.opened := by
  obtain ⟨_, _, hlock, hlength⟩ := cancelRxTask_same c
  refine ⟨by simp [TvWsClient.opened], ?_, ?_⟩
  · rintro k hk
    obtain rfl := Option.some.inj hk
    show c.loops.length < (c.cancelRxTask.loops ++ [_]).length
    rw [List.length_append, hlength]
    exact Nat.lt_succ_self _
  · exact fun k hk => absurd (hlock.symm.trans hk) (h k)

theorem Sound.connect {c : TvWsClient} (h : Sound c) : Sound c.connect := by
  unfold TvWsClient.connect
  split
  · exact h
  · exact ⟨h.flag, h.opened, nofun⟩

theorem Sound.connectEnds {c : TvWsClient} (h : Sound c) (hlock : c.lock = some .connecting)
    (outcome : Outcome) : Sound (c.connectEnds outcome) := by
  have hidle (k : Nat) : c.lock ≠ some (.sending k) := by simp [hlock]
  cases outcome with
  | done => exact (sound_opened hidle).release
  | failed => exact (sound_clear hidle).release
  | cancelled => exact h.release

theorem sound_close {c : TvWsClient} (hlock : c.lock = none) : Sound c.close := by
  obtain ⟨_, _, hsame, _⟩ := cancelRxTask_same c
  have hclear : Sound c.cancelRxTask.clear := sound_clear fun k => by simp [hsame, hlock]
  exact hclear.same rfl rfl rfl rfl

theorem Sound.sendKey {c : TvWsClient} (h : Sound c) (hlock : c.lock = none) : Sound c.sendKey := by
  have hclear : Sound c.clear := sound_clear fun k => by simp [hlock]
  unfold TvWsClient.sendKey
  cases hws : c.ws with
  | none => exact hclear
  | some k =>
    dsimp only
    split
    · exact hclear
    · refine ⟨by simpa [hws] using h.flag, fun j hj => h.opened j (hws.trans hj), fun j hj => ?_⟩
      rw [Holder.sending.inj (Option.some.inj hj)]

theorem Sound.sendEnds {c : TvWsClient} (h : Sound c) {k : Nat} (hlock : c.lock = some (.sending k))
    (outcome : Outcome) : Sound (c.sendEnds k outcome) := by
  cases outcome with
  | done => exact h.release
  | cancelled => exact h.release
  | failed =>
    -- the socket is still the one it sends over
    unfold TvWsClient.sendEnds
    rw [if_pos (h.sending k hlock)]
    exact ⟨by simp [TvWsClient.release], nofun, nofun⟩

theorem Sound.setLoop {c : TvWsClient} (h : Sound c) (k : Nat) (l : Loop) : Sound (c.setLoop k l) :=
  h.same rfl rfl rfl List.length_set

theorem Sound.finish {c : TvWsClient} (h : Sound c) (hlock : c.lock = none) (k : Nat) :
    Sound (c.finish k) := by
  unfold TvWsClient.finish
  split
  · exact (sound_clear fun k => by simp [hlock]).setLoop k _
  · exact h.setLoop k _

theorem of_sendEnds {c d : TvWsClient} {outcome : Outcome}
    (h : step c (.sendEnds outcome) = some d) :
    ∃ k, c.lock = some (.sending k) ∧ c.sendEnds k outcome = d := by
  dsimp only [step] at h
  split at h
  · exact ⟨_, ‹_›, Option.some.inj h⟩
  · cases h

theorem sound_step {c d : TvWsClient} {ev : Event} (h : Sound c) (hstep : step c ev = some d) :
    Sound d := by
  cases ev with
  | connect =>
    obtain ⟨_, rfl⟩ := of_guard hstep
    exact h.connect
  | connectEnds outcome =>
    obtain ⟨hlock, rfl⟩ := of_guard hstep
    exact h.connectEnds hlock outcome
  | close =>
    obtain ⟨hlock, rfl⟩ := of_guard hstep
    exact sound_close hlock
  | sendKey =>
    obtain ⟨hlock, rfl⟩ := of_guard hstep
    exact h.sendKey hlock
  | sendEnds outcome =>
    obtain ⟨k, hlock, rfl⟩ := of_sendEnds hstep
    exact h.sendEnds hlock outcome
  | loopStarts k =>
    obtain ⟨_, rfl⟩ := of_guard hstep
    exact h.setLoop k _
  | loopEnds k =>
    obtain ⟨_, rfl⟩ := of_guard hstep
    exact h.setLoop k _
  | loopFinishes k =>
    obtain ⟨⟨hlock, _⟩, rfl⟩ := of_guard hstep
    exact h.finish hlock k
  | loopCancelled k =>
    obtain ⟨_, rfl⟩ := of_guard hstep
    exact h.setLoop k _
  | cancels k =>
    obtain rfl := Option.some.inj hstep
    exact h.same rfl rfl rfl (cancelLoop_length c k)
  | socketCloses k =>
    obtain rfl := Option.some.inj hstep
    exact h.same rfl rfl rfl rfl

/-- Socket `k` has been opened and is not, or no longer, the current one. -/
structure Gone (k : Nat) (c : TvWsClient) : Prop where
  opened : k < c.loops.length
  ws : c.ws ≠ some k

theorem Gone.keeps {k : Nat} {c d : TvWsClient} (h : Gone k c)
    (hws : d.ws = c.ws ∨ d.ws = none) (hloops : d.loops.length = c.loops.length) : Gone k d := by
  refine ⟨by rw [hloops]; exact h.opened, ?_⟩
  rcases hws with hws | hws
  · rw [hws]
    exact h.ws
  · rw [hws]
    exact nofun

theorem gone_opened {k : Nat} {c : TvWsClient} (h : k < c.loops.length) : Gone k c.opened := by
  have hlength := (cancelRxTask_same c).2.2.2
  refine ⟨?_, fun hk => ?_⟩
  · show k < (c.cancelRxTask.loops ++ [_]).length
    rw [List.length_append, hlength]
    exact Nat.lt_succ_of_lt h
  · obtain rfl := Option.some.inj hk
    exact absurd h (Nat.lt_irrefl _)

/-- A new socket has a new number, so that one that is gone does not come back. -/
theorem gone_step {k : Nat} {c d : TvWsClient} {ev : Event} (h : Gone k c)
    (hstep : step c ev = some d) : Gone k d := by
  cases ev with
  | connect =>
    obtain ⟨_, rfl⟩ := of_guard hstep
    unfold TvWsClient.connect
    split
    · exact h
    · exact h.keeps (Or.inl rfl) rfl
  | connectEnds outcome =>
    obtain ⟨_, rfl⟩ := of_guard hstep
    cases outcome with
    | done => exact (gone_opened h.opened).keeps (Or.inl rfl) rfl
    | failed => exact h.keeps (Or.inr rfl) rfl
    | cancelled => exact h.keeps (Or.inl rfl) rfl
  | close =>
    obtain ⟨_, rfl⟩ := of_guard hstep
    exact h.keeps (Or.inr rfl) (cancelRxTask_same c).2.2.2
  | sendKey =>
    obtain ⟨_, rfl⟩ := of_guard hstep
    unfold TvWsClient.sendKey
    cases hws : c.ws with
    | none => exact h.keeps (Or.inr rfl) rfl
    | some j =>
      dsimp only
      split
      · exact h.keeps (Or.inr rfl) rfl
      · exact h.keeps (Or.inl hws.symm) rfl
  | sendEnds outcome =>
    obtain ⟨j, _, rfl⟩ := of_sendEnds hstep
    cases outcome with
    | done => exact h.keeps (Or.inl rfl) rfl
    | cancelled => exact h.keeps (Or.inl rfl) rfl
    | failed =>
      refine h.keeps ?_ rfl
      show (if c.ws = some j then none else c.ws) = c.ws ∨ (if c.ws = some j then none else c.ws) = none
      split
      · exact Or.inr rfl
      · exact Or.inl rfl
  | loopStarts j =>
    obtain ⟨_, rfl⟩ := of_guard hstep
    exact h.keeps (Or.inl rfl) List.length_set
  | loopEnds j =>
    obtain ⟨_, rfl⟩ := of_guard hstep
    exact h.keeps (Or.inl rfl) List.length_set
  | loopFinishes j =>
    obtain ⟨_, rfl⟩ := of_guard hstep
    unfold TvWsClient.finish
    split
    · exact h.keeps (Or.inr rfl) List.length_set
    · exact h.keeps (Or.inl rfl) List.length_set
  | loopCancelled j =>
    obtain ⟨_, rfl⟩ := of_guard hstep
    exact h.keeps (Or.inl rfl) List.length_set
  | cancels j =>
    obtain rfl := Option.some.inj hstep
    exact h.keeps (Or.inl rfl) (cancelLoop_length c j)
  | socketCloses j =>
    obtain rfl := Option.some.inj hstep
    exact h.keeps (Or.inl rfl) rfl

theorem Gone.finish {k : Nat} {c : TvWsClient} (h : Gone k c) :
    (c.finish k).ws = c.ws ∧ (c.finish k).connected = c.connected := by
  unfold TvWsClient.finish
  rw [if_neg h.ws]
  exact ⟨rfl, rfl⟩

/-- The flag says whether there is a socket, whether or not a call has the lock, and from when a
socket is no longer the current one on, the end of its receive loop touches neither. -/
theorem connected_follows_socket {c : TvWsClient} {evs : List Event}
    (h : execute step {} evs = some c) :
    (c.connected = true ↔ c.ws.isSome = true) ∧
      ∀ k more d e, k < c.loops.length → c.ws ≠ some k → execute step c more = some d →
        step d (.loopFinishes k) = some e → e.ws = d.ws ∧ e.connected = d.connected := by
  have hstart : Sound {} := ⟨by simp, nofun, nofun⟩
  have hsound : Sound c := (reachable_of_execute h).invariant hstart fun _ _ _ ht _ hstep =>
    sound_step ht hstep
  refine ⟨hsound.flag, fun k more d e hopened hws hmore hfinish => ?_⟩
  have hgone : Gone k d := (reachable_of_execute hmore).invariant ⟨hopened, hws⟩
    fun _ _ _ ht _ hstep => gone_step ht hstep
  obtain ⟨_, rfl⟩ := of_guard hfinish
  exact hgone.finish

/-- The first socket closes and a second one is opened, which cancels the loop of the first. -/
def reconnects : List Event :=
  [.connect, .connectEnds .done, .loopStarts 0, .socketCloses 0, .connect, .connectEnds .done]

def reconnected : TvWsClient :=
  { ws := some 1, connected := true, rxTask := some 1
    loops := [{ stage := .receiving, cancelled := true }, {}], closed := [0] }

theorem connected_follows_socket_reconnects : ∃ d e, execute step {} reconnects = some reconnected ∧
    execute step reconnected [.loopEnds 0] = some d ∧ step d (.loopFinishes 0) = some e ∧
      (reconnected.connected = true ↔ reconnected.ws.isSome = true) ∧
        e.ws = d.ws ∧ e.connected = d.connected := by
  have hruns : execute step {} reconnects = some reconnected := by decide
  obtain ⟨hflag, hends⟩ := connected_follows_socket hruns
  exact ⟨_, _, hruns, rfl, rfl, hflag, hends 0 [.loopEnds 0] _ _ (by decide) (by decide) rfl rfl⟩

end PiHub.TvSocket

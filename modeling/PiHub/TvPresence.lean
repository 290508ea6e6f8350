import PiHub.PyStr
import PiHub.Transition

/-! Presence of the Samsung TV (samsung_tv.py): SSDP notifications, the probes that
`refresh_presence`, `reconcile_presence` and `power_off` start, and the websocket that
`power_off` sends its key on. The controller has been started, so it has a session. -/
namespace PiHub.TvPresence
open PiHub.Transition PiHub.PyStr

/-- What presence is committed for. -/
inductive Evidence where
  | ssdpAlive
  | ssdpByebye
  | msearch
  | probeHttp (up : Bool)
  deriving DecidableEq

def Evidence.on : Evidence → Bool
  | .ssdpAlive | .msearch => true
  | .ssdpByebye => false
  | .probeHttp up => up

def Evidence.source : Evidence → String
  | .ssdpAlive => "ssdp_alive"
  | .ssdpByebye => "ssdp_byebye"
  | .msearch => "msearch"
  | .probeHttp true => "probe_http_up"
  | .probeHttp false => "probe_http_down"

/-- Whose coroutine it is. `directCheck` is one of `power_on`'s; `connects`, `sendsKey` and
`drops` are the other users of the websocket: its warm-up and `power_on`, then `close` and the
end of a receive loop, which clears the websocket if it is still the loop's own. -/
inductive Op where
  | refreshPresence
  | reconcilePresence
  | powerOff (wait : Bool)
  | directCheck
  | connects
  | sendsKey (key : String)
  | drops (own : Bool)
  deriving DecidableEq

def Op.isPowerOff : Op → Bool
  | .powerOff _ => true
  | _ => false

/-- The key that a coroutine sends. -/
def Op.key : Op → Option String
  | .powerOff _ => some "KEY_POWER"
  | .sendsKey key => some key
  | _ => none

/-- What a coroutine is suspended at. `bootstrap` is the M-SEARCH; the locks are those of
`connect`, `send_key` and `close`; `loopProbe` and `loopSleep` are in `power_off`'s wait. -/
inductive Await where
  | created
  | bootstrap
  | probe
  | connectLock
  | wsConnect
  | sendLock
  | sendStr
  | wsClose
  | dropLock
  | loopProbe
  | loopSleep
  | returned
  deriving DecidableEq

/-- In `presence_probe_up`. -/
def Await.probing : Await → Bool
  | .probe | .loopProbe => true
  | _ => false

/-- In `connect`. -/
def Await.connecting : Await → Bool
  | .connectLock | .wsConnect => true
  | _ => false

/-- Before the place where a coroutine calls `send_key`. -/
def Await.beforeKey : Await → Bool
  | .created | .bootstrap | .probe | .connectLock | .wsConnect => true
  | _ => false

/-- `_ws` with whether it is closed, and the lock with those that queue at it. -/
structure TvWsClient where
  ws : Option Bool := none
  connected : Bool := false
  lock : Option Nat := none
  waiters : List Nat := []
  deriving DecidableEq

/-- `acquire` returns at once. -/
def TvWsClient.Free (w : TvWsClient) : Prop := w.lock = none ∧ w.waiters = []

instance (w : TvWsClient) : Decidable w.Free := inferInstanceAs (Decidable (_ ∧ _))

def TvWsClient.queue (w : TvWsClient) (i : Nat) : TvWsClient := { w with waiters := w.waiters ++ [i] }

/-- `close` under the lock, or a receive loop's end. -/
def TvWsClient.drop (w : TvWsClient) (own : Bool) : TvWsClient :=
  if own then { w with ws := none, connected := false } else w

/-- What `ws_connect` comes to. -/
def TvWsClient.connectEnds (w : TvWsClient) (ok : Bool) : TvWsClient :=
  if ok then { w with ws := some false, connected := true, lock := none }
  else { w with ws := none, connected := false, lock := none }

/-- What `send_str` comes to. -/
def TvWsClient.sendEnds (w : TvWsClient) (ok : Bool) : TvWsClient :=
  if ok then { w with lock := none } else { w with ws := none, connected := false, lock := none }

/-- What a coroutine does when it runs: the websocket it leaves, what it suspends at, and the
key if it has called `send_key`. -/
structure Turn where
  ws : TvWsClient
  await : Await
  key : Option String := none

/-- The head of `power_off`'s wait. -/
def loopHead (presence : Option Bool) : Await := if presence = some false then .returned else .loopProbe

/-- After `send_key` returns. -/
def Op.afterSend (presence : Option Bool) : Op → Await
  | .powerOff true => loopHead presence
  | _ => .returned

/-- `send_key` from the lock on. -/
def TvWsClient.sendLocked (w : TvWsClient) (i : Nat) (next : Await) : Turn :=
  if w.ws = some false then { ws := { w with lock := some i }, await := .sendStr }
  else { ws := { w with connected := false, ws := none }, await := next }

def TvWsClient.sendKey (w : TvWsClient) (i : Nat) (key : String) (next : Await) : Turn :=
  if w.Free then { w.sendLocked i next with key := some key }
  else { ws := w.queue i, await := .sendLock, key := some key }

/-- After `connect` returns. -/
def Op.afterConnect (presence : Option Bool) (w : TvWsClient) (i : Nat) : Op → Turn
  | .powerOff wait =>
    if w.connected then w.sendKey i "KEY_POWER" (Op.afterSend presence (.powerOff wait))
    else { ws := w, await := Op.afterSend presence (.powerOff wait) }
  | _ => { ws := w, await := .returned }

/-- `connect` from the lock on. -/
def Op.connectLocked (op : Op) (presence : Option Bool) (w : TvWsClient) (i : Nat) : Turn :=
  if w.ws = some false ∧ w.connected then op.afterConnect presence w i
  else { ws := { w with lock := some i }, await := .wsConnect }

def Op.connect (op : Op) (presence : Option Bool) (w : TvWsClient) (i : Nat) : Turn :=
  if w.Free then op.connectLocked presence w i else { ws := w.queue i, await := .connectLock }

/-- `power_off` after `refresh_presence` returns. -/
def Op.afterRefresh (op : Op) (presence : Option Bool) (w : TvWsClient) (i : Nat) : Turn :=
  if presence = some false then { ws := w, await := .returned }
  else if w.connected then op.afterConnect presence w i
  else op.connect presence w i

/-- A coroutine's first turn. -/
def Op.start (presence : Option Bool) (w : TvWsClient) (i : Nat) : Op → Turn
  | .refreshPresence => { ws := w, await := if presence = some true then .probe else .returned }
  | .reconcilePresence => { ws := w, await := .bootstrap }
  | .powerOff wait =>
    if presence = some true then { ws := w, await := .probe }
    else Op.afterRefresh (.powerOff wait) presence w i
  | .directCheck => { ws := w, await := if presence = some true then .returned else .probe }
  | .connects => Op.connect .connects presence w i
  | .sendsKey key => w.sendKey i key .returned
  | .drops own =>
    if w.Free then { ws := w.drop own, await := .returned }
    else { ws := w.queue i, await := .dropLock }

/-- After the M-SEARCH. -/
def Op.afterBootstrap (op : Op) (presence : Option Bool) (w : TvWsClient) (i : Nat) : Turn :=
  if presence = some true then op.connect presence w i else { ws := w, await := .probe }

/-- What a probe's result is committed as. -/
def Op.learns (up : Bool) : Op → Option Evidence
  | .reconcilePresence => some (.probeHttp up)
  | .directCheck => if up then some (.probeHttp true) else none
  | _ => if up then none else some (.probeHttp false)

/-- After a probe whose result has been committed. -/
def Op.afterProbe (up : Bool) (presence : Option Bool) (w : TvWsClient) (i : Nat) : Op → Turn
  | .reconcilePresence =>
    if up then Op.connect .reconcilePresence presence w i else { ws := w, await := .returned }
  | .powerOff wait => Op.afterRefresh (.powerOff wait) presence w i
  | _ => { ws := w, await := .returned }

/-- A coroutine; `since`, which is ghost, is the evidence committed since its probe or its
`connect` began. -/
structure Call where
  op : Op
  await : Await
  since : List Evidence := []
  deriving DecidableEq

def Call.goto (c : Call) (a : Await) : Call :=
  { c with await := a, since := if c.await.connecting && a.connecting then c.since else [] }

def Call.afterProbe (c : Call) (up : Bool) (presence : Option Bool) (w : TvWsClient) (i : Nat) : Turn :=
  if c.await = .loopProbe then { ws := w, await := if up then .loopSleep else .returned }
  else c.op.afterProbe up presence w i

/-- The lock has come to it. -/
def Call.afterLock (c : Call) (presence : Option Bool) (w : TvWsClient) (i : Nat) : Turn :=
  match c.await with
  | .connectLock => c.op.connectLocked presence w i
  | .sendLock => w.sendLocked i (c.op.afterSend presence)
  | _ =>
    match c.op with
    | .drops own => { ws := w.drop own, await := .returned }
    | _ => { ws := w, await := .returned }

/-- A call of `send_key`, and the cached presence as it was made. -/
structure Sent where
  call : Nat
  key : String
  presence : Option Bool
  deriving DecidableEq

/-- The controller; `keys` and `probes`, the number of probes started that can find the TV off,
are ghost. -/
structure TvController where
  presenceCached : Option Bool := none
  presenceSource : String := "unknown"
  ws : TvWsClient := {}
  calls : List Call := []
  keys : List Sent := []
  probes : Nat := 0
  deriving DecidableEq

/-- `_commit_presence`. -/
def TvController.commitPresence (tv : TvController) (on : Bool) (source : String) : TvController :=
  if tv.presenceCached = some on then tv
  else { tv with presenceCached := some on, presenceSource := source }

def TvController.learn (tv : TvController) (e : Evidence) : TvController :=
  { tv.commitPresence e.on e.source with
    calls := tv.calls.map fun c => { c with since := c.since ++ [e] } }

def TvController.learned (tv : TvController) : Option Evidence → TvController
  | none => tv
  | some e => tv.learn e

/-- The notification is about the TV's media renderer. -/
def isRendererPresence (nt : String) (location : Option String) : Bool :=
  (location.any fun l => contains l "/dmr") || contains nt "MediaRenderer"

def ssdpEvidence (nts nt : String) (location : Option String) : Option Evidence :=
  if isRendererPresence nt location then
    if nts = "ssdp:alive" then some .ssdpAlive
    else if nts = "ssdp:byebye" then some .ssdpByebye
    else none
  else none

def TvController.notifySsdp (tv : TvController) (nts nt : String) (location : Option String) :
    TvController :=
  tv.learned (ssdpEvidence nts nt location)

def TvController.notifyMsearch (tv : TvController) (location : Option String) : TvController :=
  if location.all fun l => l = "" || contains l "/dmr" then tv.learn .msearch else tv

/-- Call `i` has had its turn. -/
def TvController.resume (tv : TvController) (i : Nat) (c : Call) (t : Turn) : TvController :=
  { tv with
    ws := t.ws
    calls := tv.calls.set i (c.goto t.await)
    keys := tv.keys ++ t.key.toList.map fun key => ⟨i, key, tv.presenceCached⟩
    probes := if t.await.probing ∧ c.op ≠ .directCheck then tv.probes + 1 else tv.probes }

def TvController.create (tv : TvController) (op : Op) : TvController :=
  { tv with calls := tv.calls ++ [{ op := op, await := .created }] }

/-- Call `i`, if it is suspended there. -/
def TvController.suspended (tv : TvController) (i : Nat) (at_ : Await → Bool) : Option Call :=
  tv.calls[i]?.filter fun c => at_ c.await

/-- The call's result for the websocket when it is cancelled: it releases the lock, or leaves
the queue. -/
def TvWsClient.cancel (w : TvWsClient) (i : Nat) : TvWsClient :=
  { w with lock := if w.lock = some i then none else w.lock, waiters := w.waiters.filter (· ≠ i) }

/-- Notifications, coroutines started, what each of their awaits comes to, and the socket. -/
inductive Event where
  | notifySsdp (nts nt : String) (location : Option String)
  | notifyMsearch (location : Option String)
  | starts (op : Op)
  | bootstrapEnds (i : Nat)
  | probeEnds (i : Nat) (up : Bool)
  | takesLock (i : Nat)
  | wsConnects (i : Nat) (ok : Bool)
  | sends (i : Nat) (ok : Bool)
  | wsCloses (i : Nat)
  | wakes (i : Nat) (expired : Bool)
  | cancelled (i : Nat)
  | socketCloses
  deriving DecidableEq

def step (tv : TvController) : Event → Option TvController
  | .notifySsdp nts nt location => some (tv.notifySsdp nts nt location)
  | .notifyMsearch location => some (tv.notifyMsearch location)
  | .starts op =>
    let tv' := tv.create op
    some (tv'.resume tv.calls.length { op := op, await := .created }
      (op.start tv.presenceCached tv.ws tv.calls.length))
  | .bootstrapEnds i => (tv.suspended i (· = .bootstrap)).map fun c =>
    tv.resume i c (c.op.afterBootstrap tv.presenceCached tv.ws i)
  | .probeEnds i up => (tv.suspended i Await.probing).map fun c =>
    let tv' := tv.learned (c.op.learns up)
    tv'.resume i c (c.afterProbe up tv'.presenceCached tv'.ws i)
  | .takesLock i =>
    if tv.ws.lock = none ∧ tv.ws.waiters.head? = some i then
      tv.calls[i]?.map fun c => tv.resume i c
        (c.afterLock tv.presenceCached { tv.ws with waiters := tv.ws.waiters.tail } i)
    else none
  | .wsConnects i ok => (tv.suspended i (· = .wsConnect)).map fun c =>
    tv.resume i c (c.op.afterConnect tv.presenceCached (tv.ws.connectEnds ok) i)
  | .sends i ok => (tv.suspended i (· = .sendStr)).map fun c =>
    tv.resume i c { ws := tv.ws.sendEnds ok
                    await := if ok ∨ tv.ws.ws = some true then c.op.afterSend tv.presenceCached
                      else .wsClose }
  | .wsCloses i => (tv.suspended i (· = .wsClose)).map fun c =>
    tv.resume i c { ws := tv.ws, await := c.op.afterSend tv.presenceCached }
  | .wakes i expired => (tv.suspended i (· = .loopSleep)).map fun c =>
    tv.resume i c { ws := tv.ws, await := if expired then .returned else loopHead tv.presenceCached }
  | .cancelled i => (tv.suspended i (· ≠ .returned)).map fun c =>
    tv.resume i c { ws := tv.ws.cancel i, await := .returned }
  | .socketCloses => some { tv with ws := { tv.ws with ws := tv.ws.ws.map fun _ => true } }

/-- What a turn does to the key: `send_key` is called at most once, and with `KEY_POWER` only
past a look at presence or out of `connect`; `connect` is entered only past such a look. -/
inductive Move (op : Op) (presence : Option Bool) : Await → Turn → Prop
  | keyed {a : Await} {t : Turn} : a.beforeKey = true → t.await.beforeKey = false →
      t.key = op.key → (op.isPowerOff = true → presence ≠ some false ∨ a.connecting = true) →
      Move op presence a t
  | connects {a : Await} {t : Turn} : a.beforeKey = true → t.key = none →
      (op.isPowerOff = true → presence ≠ some false ∨ a.connecting = true) → Move op presence a t
  | waits {a : Await} {t : Turn} : a.beforeKey = true → t.await.connecting = false →
      t.key = none → Move op presence a t
  | passes {a : Await} {t : Turn} : t.await.beforeKey = false → t.key = none → Move op presence a t

theorem loopHead_beforeKey (presence : Option Bool) : (loopHead presence).beforeKey = false := by
  unfold loopHead
  split
  · rfl
  · rfl

theorem afterSend_beforeKey (op : Op) (presence : Option Bool) :
    (op.afterSend presence).beforeKey = false := by
  cases op with
  | powerOff wait =>
    cases wait with
    | false => rfl
    | true => exact loopHead_beforeKey presence
  | _ => rfl

theorem sendLocked_turn (w : TvWsClient) (i : Nat) {next : Await} (hnext : next.beforeKey = false) :
    (w.sendLocked i next).await.beforeKey = false ∧ (w.sendLocked i next).key = none := by
  unfold TvWsClient.sendLocked
  split
  · exact ⟨rfl, rfl⟩
  · exact ⟨hnext, rfl⟩

theorem sendKey_turn (w : TvWsClient) (i : Nat) (key : String) {next : Await}
    (hnext : next.beforeKey = false) :
    (w.sendKey i key next).await.beforeKey = false ∧ (w.sendKey i key next).key = some key := by
  unfold TvWsClient.sendKey
  split
  · exact ⟨(sendLocked_turn w i hnext).1, rfl⟩
  · exact ⟨rfl, rfl⟩

theorem move_afterConnect {op : Op} {presence : Option Bool} (w : TvWsClient) (i : Nat) {a : Await}
    (ha : a.beforeKey = true)
    (hlook : op.isPowerOff = true → presence ≠ some false ∨ a.connecting = true) :
    Move op presence a (op.afterConnect presence w i) := by
  cases op with
  | powerOff wait =>
    have hsend := afterSend_beforeKey (.powerOff wait) presence
    unfold Op.afterConnect
    dsimp only
    by_cases hconn : w.connected = true
    · obtain ⟨hawait, hkey⟩ := sendKey_turn w i "KEY_POWER" hsend
      rw [if_pos hconn]
      exact .keyed ha hawait hkey hlook
    · rw [if_neg hconn]
      exact .passes hsend rfl
  | _ => exact .passes rfl rfl

theorem move_connectLocked {op : Op} {presence : Option Bool} (w : TvWsClient) (i : Nat) {a : Await}
    (ha : a.beforeKey = true)
    (hlook : op.isPowerOff = true → presence ≠ some false ∨ a.connecting = true) :
    Move op presence a (op.connectLocked presence w i) := by
  unfold Op.connectLocked
  split
  · exact move_afterConnect w i ha hlook
  · exact .connects ha rfl hlook

theorem move_connect {op : Op} {presence : Option Bool} (w : TvWsClient) (i : Nat) {a : Await}
    (ha : a.beforeKey = true)
    (hlook : op.isPowerOff = true → presence ≠ some false ∨ a.connecting = true) :
    Move op presence a (op.connect presence w i) := by
  unfold Op.connect
  split
  · exact move_connectLocked w i ha hlook
  · exact .connects ha rfl hlook

theorem move_afterRefresh (op : Op) (presence : Option Bool) (w : TvWsClient) (i : Nat) {a : Await}
    (ha : a.beforeKey = true) : Move op presence a (op.afterRefresh presence w i) := by
  unfold Op.afterRefresh
  by_cases hoff : presence = some false
  · rw [if_pos hoff]
    exact .passes rfl rfl
  · rw [if_neg hoff]
    split
    · exact move_afterConnect w i ha fun _ => Or.inl hoff
    · exact move_connect w i ha fun _ => Or.inl hoff

theorem move_start (op : Op) (presence : Option Bool) (w : TvWsClient) (i : Nat) :
    Move op presence .created (op.start presence w i) := by
  cases op with
  | refreshPresence | directCheck =>
    refine .waits rfl ?_ rfl
    unfold Op.start
    dsimp only
    split
    · rfl
    · rfl
  | reconcilePresence => exact .waits rfl rfl rfl
  | powerOff wait =>
    unfold Op.start
    dsimp only
    split
    · exact .waits rfl rfl rfl
    · exact move_afterRefresh _ presence w i rfl
  | connects => exact move_connect w i rfl nofun
  | sendsKey key =>
    obtain ⟨hawait, hkey⟩ := sendKey_turn w i key (show Await.returned.beforeKey = false from rfl)
    exact .keyed rfl hawait hkey nofun
  | drops own =>
    unfold Op.start
    dsimp only
    split
    · exact .passes rfl rfl
    · exact .passes rfl rfl

theorem move_afterBootstrap (op : Op) (presence : Option Bool) (w : TvWsClient) (i : Nat) :
    Move op presence .bootstrap (op.afterBootstrap presence w i) := by
  unfold Op.afterBootstrap
  by_cases hon : presence = some true
  · rw [if_pos hon]
    exact move_connect w i rfl fun _ => Or.inl (by simp [hon])
  · rw [if_neg hon]
    exact .waits rfl rfl rfl

theorem move_afterProbe {c : Call} (hprobing : c.await.probing = true) (up : Bool)
    (presence : Option Bool) (w : TvWsClient) (i : Nat) :
    Move c.op presence c.await (c.afterProbe up presence w i) := by
  unfold Call.afterProbe
  by_cases hloop : c.await = .loopProbe
  · rw [if_pos hloop]
    cases up with
    | false => exact .passes rfl rfl
    | true => exact .passes rfl rfl
  · rw [if_neg hloop]
    have hprobe : c.await.beforeKey = true := by
      cases ha : c.await with
      | probe => rfl
      | loopProbe => exact absurd ha hloop
      | _ => simp [ha, Await.probing] at hprobing
    cases c.op with
    | reconcilePresence =>
      cases up with
      | false => exact .passes rfl rfl
      | true => exact move_connect w i hprobe nofun
    | powerOff wait => exact move_afterRefresh _ presence w i hprobe
    | _ => exact .passes rfl rfl

theorem move_afterLock (c : Call) (presence : Option Bool) (w : TvWsClient) (i : Nat) :
    Move c.op presence c.await (c.afterLock presence w i) := by
  unfold Call.afterLock
  split
  · next ha => exact ha ▸ move_connectLocked w i rfl fun _ => Or.inr rfl
  · obtain ⟨hawait, hkey⟩ := sendLocked_turn w i (afterSend_beforeKey c.op presence)
    exact .passes hawait hkey
  · split
    · exact .passes rfl rfl
    · exact .passes rfl rfl

/-- The last evidence since its probe or its `connect` began is not that the TV is off. -/
def Call.NotOff (c : Call) : Prop := c.since.getLast?.map Evidence.on ≠ some false

instance (c : Call) : Decidable c.NotOff := inferInstanceAs (Decidable (_ ≠ _))

/-- If call `i` is `power_off` in its `connect`, the TV has not been found off in there. -/
def TvController.NotOffAt (tv : TvController) (i : Nat) : Prop :=
  ∀ c ∈ tv.calls[i]?, c.op.isPowerOff = true → c.await.connecting = true → c.NotOff

instance (tv : TvController) (i : Nat) : Decidable (tv.NotOffAt i) :=
  inferInstanceAs (Decidable (∀ c ∈ tv.calls[i]?, _))

/-- `power_off`'s `connect` does not end connected after the last evidence that came while it
ran was that the TV is off. -/
def Clear (tv : TvController) : Event → Prop
  | .takesLock i => tv.ws.ws = some false ∧ tv.ws.connected = true → tv.NotOffAt i
  | .wsConnects i ok => ok = true → tv.NotOffAt i
  | _ => True

instance (tv : TvController) (ev : Event) : Decidable (Clear tv ev) :=
  match ev with
  | .takesLock _ | .wsConnects _ _ => inferInstanceAs (Decidable (_ → _))
  | .notifySsdp _ _ _ | .notifyMsearch _ | .starts _ | .bootstrapEnds _ | .probeEnds _ _ | .sends _ _
  | .wsCloses _ | .wakes _ _ | .cancelled _ | .socketCloses => .isTrue trivial

/-- What one step does. -/
inductive Effect (tv : TvController) : Event → TvController → Prop
  | learns {ev : Event} (e : Evidence) : (e = .msearch ∨ ∃ nts nt location,
      ev = .notifySsdp nts nt location ∧ ssdpEvidence nts nt location = some e) →
      Effect tv ev (tv.learn e)
  | socket {ev : Event} (w : TvWsClient) : Effect tv ev { tv with ws := w }
  | starts (op : Op) (t : Turn) : Move op tv.presenceCached .created t → Effect tv (.starts op)
      ((tv.create op).resume tv.calls.length { op := op, await := .created } t)
  | probed {i : Nat} {up : Bool} {c : Call} (since : List Evidence) (t : Turn) :
      tv.calls[i]? = some c → c.await.probing = true →
      (tv.learned (c.op.learns up)).calls[i]? = some { c with since := since } →
      Move c.op (tv.learned (c.op.learns up)).presenceCached c.await t →
      Effect tv (.probeEnds i up) ((tv.learned (c.op.learns up)).resume i { c with since := since } t)
  | turns {ev : Event} {i : Nat} {c : Call} (t : Turn) : tv.calls[i]? = some c →
      (c.op.isPowerOff = true → c.await.connecting = true → t.key ≠ none → Clear tv ev → c.NotOff) →
      Move c.op tv.presenceCached c.await t → Effect tv ev (tv.resume i c t)

theorem suspended_eq {tv : TvController} {i : Nat} {at_ : Await → Bool} {c : Call}
    (h : tv.suspended i at_ = some c) : tv.calls[i]? = some c ∧ at_ c.await = true :=
  Option.filter_eq_some_iff.mp h

theorem key_afterConnect {op : Op} {presence : Option Bool} {w : TvWsClient} {i : Nat}
    (h : (op.afterConnect presence w i).key ≠ none) : w.connected = true := by
  cases op with
  | powerOff wait =>
    by_contra hconn
    unfold Op.afterConnect at h
    dsimp only at h
    rw [if_neg hconn] at h
    exact h rfl
  | _ => exact absurd rfl h

theorem key_connectLocked {op : Op} {presence : Option Bool} {w : TvWsClient} {i : Nat}
    (h : (op.connectLocked presence w i).key ≠ none) : w.ws = some false ∧ w.connected = true := by
  by_contra hopen
  unfold Op.connectLocked at h
  rw [if_neg hopen] at h
  exact h rfl

theorem getElem_learn (tv : TvController) (e : Evidence) (i : Nat) : (tv.learn e).calls[i]? =
    tv.calls[i]?.map fun c => { c with since := c.since ++ [e] } :=
  List.getElem?_map

theorem getElem_learned {tv : TvController} {i : Nat} {c : Call} (hc : tv.calls[i]? = some c)
    (e : Option Evidence) : ∃ since, (tv.learned e).calls[i]? = some { c with since := since } := by
  cases e with
  | none => exact ⟨c.since, hc⟩
  | some e =>
    refine ⟨c.since ++ [e], ?_⟩
    unfold TvController.learned
    dsimp only
    rw [getElem_learn, hc]
    rfl

/-- What every evidence keeps is kept by a probe, whether it learns anything or not. -/
theorem learned_keeps {P : TvController → Prop} {tv : TvController} (h : P tv)
    (hlearn : ∀ e, P (tv.learn e)) (e : Option Evidence) : P (tv.learned e) := by
  cases e with
  | none => exact h
  | some e => exact hlearn e

theorem getElem_create (tv : TvController) (op : Op) :
    (tv.create op).calls[tv.calls.length]? = some { op := op, await := .created } :=
  List.getElem?_concat_length

theorem mem_create {tv : TvController} {op : Op} {d : Call} (hd : d ∈ (tv.create op).calls) :
    d ∈ tv.calls ∨ d = { op := op, await := .created } :=
  (List.mem_append.mp hd).imp_right List.mem_singleton.mp

theorem connecting_of_probing {a : Await} (h : a.probing = true) : a.connecting = false := by
  cases a with
  | probe | loopProbe => rfl
  | _ => simp [Await.probing] at h

theorem goto_probing {c : Call} (h : c.await.probing = true) (since : List Evidence) (a : Await) :
    { c with since := since }.goto a = c.goto a := by
  simp [Call.goto, connecting_of_probing h]

theorem effect_ssdp (tv : TvController) (nts nt : String) (location : Option String) :
    Effect tv (.notifySsdp nts nt location) (tv.notifySsdp nts nt location) := by
  unfold TvController.notifySsdp
  cases he : ssdpEvidence nts nt location with
  | none => exact .socket tv.ws
  | some e => exact .learns e (Or.inr ⟨nts, nt, location, rfl, he⟩)

theorem effect_msearch (tv : TvController) (location : Option String) :
    Effect tv (.notifyMsearch location) (tv.notifyMsearch location) := by
  unfold TvController.notifyMsearch
  split
  · exact .learns .msearch (Or.inl rfl)
  · exact .socket tv.ws

/-- The lock comes to `power_off` in `connect`: what it does is `connectLocked`. -/
theorem effect_lock {tv : TvController} {i : Nat} {c : Call} (hc : tv.calls[i]? = some c) :
    Effect tv (.takesLock i) (tv.resume i c
      (c.afterLock tv.presenceCached { tv.ws with waiters := tv.ws.waiters.tail } i)) := by
  refine .turns _ hc (fun hop hconn hkey hclear => ?_) (move_afterLock c _ _ i)
  unfold Call.afterLock at hkey
  split at hkey
  · have hopen := key_connectLocked hkey
    exact hclear hopen c hc hop hconn
  · next ha => simp [ha, Await.connecting] at hconn
  · split at hkey
    · exact absurd rfl hkey
    · exact absurd rfl hkey

theorem step_effect {tv tv' : TvController} {ev : Event} (hstep : step tv ev = some tv') :
    Effect tv ev tv' := by
  cases ev with
  | notifySsdp nts nt location =>
    obtain rfl := Option.some.inj hstep
    exact effect_ssdp tv nts nt location
  | notifyMsearch location =>
    obtain rfl := Option.some.inj hstep
    exact effect_msearch tv location
  | starts op =>
    obtain rfl := Option.some.inj hstep
    exact .starts op _ (move_start op tv.presenceCached tv.ws tv.calls.length)
  | bootstrapEnds i =>
    obtain ⟨c, hc, rfl⟩ := Option.map_eq_some_iff.mp hstep
    obtain ⟨hget, ha⟩ := suspended_eq hc
    have ha : c.await = .bootstrap := of_decide_eq_true ha
    refine .turns _ hget (fun _ hconn => by simp [ha, Await.connecting] at hconn) ?_
    exact ha ▸ move_afterBootstrap c.op tv.presenceCached tv.ws i
  | probeEnds i up =>
    obtain ⟨c, hc, rfl⟩ := Option.map_eq_some_iff.mp hstep
    obtain ⟨hget, ha⟩ := suspended_eq hc
    obtain ⟨since, hsince⟩ := getElem_learned hget (c.op.learns up)
    have heq (tv' : TvController) (t : Turn) :
        tv'.resume i { c with since := since } t = tv'.resume i c t := by
      simp only [TvController.resume, goto_probing ha]
    exact heq _ _ ▸ .probed since _ hget ha hsince (move_afterProbe ha up _ _ i)
  | takesLock i =>
    obtain ⟨_, heq⟩ := Option.ite_none_right_eq_some.mp hstep
    obtain ⟨c, hget, rfl⟩ := Option.map_eq_some_iff.mp heq
    exact effect_lock hget
  | wsConnects i ok =>
    obtain ⟨c, hc, rfl⟩ := Option.map_eq_some_iff.mp hstep
    obtain ⟨hget, ha⟩ := suspended_eq hc
    have ha : c.await = .wsConnect := of_decide_eq_true ha
    refine .turns _ hget (fun hop hconn hkey hclear => ?_) ?_
    · have hok : ok = true := by
        cases ok with
        | true => rfl
        | false => simpa [TvWsClient.connectEnds] using key_afterConnect hkey
      exact hclear hok c hget hop hconn
    · exact ha ▸ move_afterConnect _ i rfl fun _ => Or.inr rfl
  | sends i ok =>
    obtain ⟨c, hc, rfl⟩ := Option.map_eq_some_iff.mp hstep
    obtain ⟨hget, _⟩ := suspended_eq hc
    refine .turns _ hget (fun _ _ hkey => absurd rfl hkey) (.passes ?_ rfl)
    dsimp only
    split
    · exact afterSend_beforeKey c.op tv.presenceCached
    · rfl
  | wsCloses i =>
    obtain ⟨c, hc, rfl⟩ := Option.map_eq_some_iff.mp hstep
    obtain ⟨hget, _⟩ := suspended_eq hc
    exact .turns _ hget (fun _ _ hkey => absurd rfl hkey)
      (.passes (afterSend_beforeKey c.op tv.presenceCached) rfl)
  | wakes i expired =>
    obtain ⟨c, hc, rfl⟩ := Option.map_eq_some_iff.mp hstep
    obtain ⟨hget, _⟩ := suspended_eq hc
    refine .turns _ hget (fun _ _ hkey => absurd rfl hkey) (.passes ?_ rfl)
    dsimp only
    split
    · rfl
    · exact loopHead_beforeKey tv.presenceCached
  | cancelled i =>
    obtain ⟨c, hc, rfl⟩ := Option.map_eq_some_iff.mp hstep
    obtain ⟨hget, _⟩ := suspended_eq hc
    exact .turns _ hget (fun _ _ hkey => absurd rfl hkey) (.passes rfl rfl)
  | socketCloses =>
    obtain rfl := Option.some.inj hstep
    exact .socket _

theorem presence_learn (tv : TvController) (e : Evidence) :
    (tv.learn e).presenceCached = some e.on := by
  unfold TvController.learn TvController.commitPresence
  split
  · assumption
  · rfl

theorem commitPresence_same (tv : TvController) (on : Bool) (source : String) :
    (tv.commitPresence on source).calls = tv.calls ∧ (tv.commitPresence on source).keys = tv.keys ∧
      (tv.commitPresence on source).probes = tv.probes := by
  unfold TvController.commitPresence
  split
  · exact ⟨rfl, rfl, rfl⟩
  · exact ⟨rfl, rfl, rfl⟩

@[simp] theorem keys_learn (tv : TvController) (e : Evidence) : (tv.learn e).keys = tv.keys :=
  (commitPresence_same tv e.on e.source).2.1

@[simp] theorem probes_learn (tv : TvController) (e : Evidence) : (tv.learn e).probes = tv.probes :=
  (commitPresence_same tv e.on e.source).2.2

theorem mem_learn {tv : TvController} {e : Evidence} {d : Call} (hd : d ∈ (tv.learn e).calls) :
    ∃ c ∈ tv.calls, d = { c with since := c.since ++ [e] } := by
  obtain ⟨c, hc, rfl⟩ := List.mem_map.mp hd
  exact ⟨c, hc, rfl⟩

theorem mem_resume {tv : TvController} {i : Nat} {c : Call} {t : Turn} {d : Call}
    (hd : d ∈ (tv.resume i c t).calls) : d ∈ tv.calls ∨ d = c.goto t.await :=
  List.mem_or_eq_of_mem_set hd

theorem getElem_resume {tv : TvController} {i j : Nat} {c d : Call} {t : Turn}
    (hd : (tv.resume i c t).calls[j]? = some d) :
    (j = i ∧ d = c.goto t.await) ∨ (j ≠ i ∧ tv.calls[j]? = some d) :=
  at_set hd

/-- `send_key` is called at most once by each coroutine, and by none before its place. -/
structure Once (tv : TvController) : Prop where
  bound : ∀ s ∈ tv.keys, s.call < tv.calls.length
  before : ∀ i c, tv.calls[i]? = some c → c.await.beforeKey = true → ∀ s ∈ tv.keys, s.call ≠ i
  once : ∀ i, (tv.keys.filter (·.call = i)).length ≤ 1

theorem Once.learn {tv : TvController} (h : Once tv) (e : Evidence) : Once (tv.learn e) := by
  have hlength : (tv.learn e).calls.length = tv.calls.length := List.length_map _
  refine ⟨?_, ?_, ?_⟩
  · rw [keys_learn, hlength]
    exact h.bound
  · intro i d hd ha
    rw [getElem_learn] at hd
    obtain ⟨c, hc, rfl⟩ := Option.map_eq_some_iff.mp hd
    rw [keys_learn]
    exact h.before i c hc ha
  · rw [keys_learn]
    exact h.once

theorem Once.create {tv : TvController} (h : Once tv) (op : Op) : Once (tv.create op) := by
  refine ⟨fun s hs => ?_, fun i c hc ha s hs => ?_, h.once⟩
  · simpa [TvController.create] using Nat.lt_succ_of_lt (h.bound s hs)
  · by_cases hi : i < tv.calls.length
    · have hold : tv.calls[i]? = some c := by
        rw [← hc]
        exact (List.getElem?_append_left hi).symm
      exact h.before i c hold ha s hs
    · have := h.bound s hs
      omega

/-- A turn adds a key only for a call that has added none, and then leaves that call past the
place where it adds one. -/
theorem Once.resume {tv : TvController} (h : Once tv) {i : Nat} {c : Call} {t : Turn}
    {presence : Option Bool} (hc : tv.calls[i]? = some c) (hmove : Move c.op presence c.await t) :
    Once (tv.resume i c t) := by
  obtain ⟨hi, _⟩ := List.getElem?_eq_some_iff.mp hc
  have hlength : (tv.resume i c t).calls.length = tv.calls.length := List.length_set
  have hsilent (hkey : t.key = none) : (tv.resume i c t).keys = tv.keys := by
    simp [TvController.resume, hkey]
  have hkeep (hkey : t.key = none) (hawait : t.await.beforeKey = true → c.await.beforeKey = true) :
      Once (tv.resume i c t) := by
    refine ⟨?_, fun j d hd ha => ?_, ?_⟩
    · rw [hsilent hkey, hlength]
      exact h.bound
    · rw [hsilent hkey]
      obtain ⟨rfl, rfl⟩ | ⟨_, hold⟩ := getElem_resume hd
      · exact h.before j c hc (hawait ha)
      · exact h.before j d hold ha
    · rw [hsilent hkey]
      exact h.once
  cases hmove with
  | connects ha hkey _ | waits ha _ hkey => exact hkeep hkey fun _ => ha
  | passes hawait hkey => exact hkeep hkey fun hbefore => by simp [hawait] at hbefore
  | keyed ha hawait _ _ =>
    have hfresh := h.before i c hc ha
    refine ⟨fun s hs => ?_, fun j d hd hbefore s hs => ?_, fun j => ?_⟩
    · rw [hlength]
      obtain hold | hnew := List.mem_append.mp hs
      · exact h.bound s hold
      · obtain ⟨key, _, rfl⟩ := List.mem_map.mp hnew
        exact hi
    · obtain ⟨rfl, rfl⟩ | ⟨hne, hold⟩ := getElem_resume hd
      · have hpast : t.await.beforeKey = true := hbefore
        simp [hawait] at hpast
      · obtain hs | hnew := List.mem_append.mp hs
        · exact h.before j d hold hbefore s hs
        · obtain ⟨key, _, rfl⟩ := List.mem_map.mp hnew
          exact fun heq => hne heq.symm
    · have honce := h.once j
      unfold TvController.resume
      dsimp only
      rw [List.filter_append, List.length_append]
      by_cases hj : j = i
      · have hnone : tv.keys.filter (·.call = j) = [] :=
          List.filter_eq_nil_iff.mpr fun s hs => by simpa [hj] using hfresh s hs
        rw [hnone]
        cases t.key with
        | none => simp
        | some key => simp [hj]
      · have hother : (t.key.toList.map fun key => (⟨i, key, tv.presenceCached⟩ : Sent)).filter
            (·.call = j) = [] :=
          List.filter_eq_nil_iff.mpr fun s hs => by
            obtain ⟨key, _, rfl⟩ := List.mem_map.mp hs
            simpa using fun heq => hj heq.symm
        rw [hother]
        exact honce

theorem once_step {tv tv' : TvController} {ev : Event} (h : Once tv) (hstep : step tv ev = some tv') :
    Once tv' := by
  cases step_effect hstep with
  | learns e _ => exact h.learn e
  | socket w => exact ⟨h.bound, h.before, h.once⟩
  | starts op t hmove =>
    exact (h.create op).resume (getElem_create tv op) hmove
  | probed since t _ _ hsince hmove => exact (learned_keeps h h.learn _).resume hsince hmove
  | turns t hc _ hmove => exact h.resume hc hmove

theorem beforeKey_of_connecting {a : Await} (h : a.connecting = true) : a.beforeKey = true := by
  cases a with
  | connectLock | wsConnect => rfl
  | _ => simp [Await.connecting] at h

/-- Presence is what the last evidence says; `power_off` is not in `connect` on a presence that
was False when it entered. -/
structure Current (tv : TvController) : Prop where
  last : ∀ c ∈ tv.calls, ∀ e, c.since.getLast? = some e → tv.presenceCached = some e.on
  looked : ∀ c ∈ tv.calls, c.op.isPowerOff = true → c.await.connecting = true → c.since = [] →
    tv.presenceCached ≠ some false

theorem Current.learn {tv : TvController} (e : Evidence) : Current (tv.learn e) := by
  refine ⟨fun d hd e' hlast => ?_, fun d hd _ _ hnil => ?_⟩
  · obtain ⟨c, _, rfl⟩ := mem_learn hd
    obtain rfl : e = e' := by simpa using hlast
    exact presence_learn tv e
  · obtain ⟨c, _, rfl⟩ := mem_learn hd
    simp at hnil

theorem Current.create {tv : TvController} (h : Current tv) (op : Op) : Current (tv.create op) := by
  refine ⟨fun d hd e hlast => ?_, fun d hd hop hconn hnil => ?_⟩
  · obtain hold | rfl := mem_create hd
    · exact h.last d hold e hlast
    · simp at hlast
  · obtain hold | rfl := mem_create hd
    · exact h.looked d hold hop hconn hnil
    · simp [Await.connecting] at hconn

theorem Current.resume {tv : TvController} (h : Current tv) {i : Nat} {c : Call} {t : Turn}
    (hc : tv.calls[i]? = some c) (hmove : Move c.op tv.presenceCached c.await t) :
    Current (tv.resume i c t) := by
  have hmem : c ∈ tv.calls := List.mem_of_getElem? hc
  refine ⟨fun d hd e hlast => ?_, fun d hd hop hconn hnil => ?_⟩
  · obtain hold | rfl := mem_resume hd
    · exact h.last d hold e hlast
    · by_cases hstay : (c.await.connecting && t.await.connecting) = true
      · exact h.last c hmem e (by simpa [Call.goto, hstay] using hlast)
      · simp [Call.goto, hstay] at hlast
  · obtain hold | rfl := mem_resume hd
    · exact h.looked d hold hop hconn hnil
    · have hconn : t.await.connecting = true := hconn
      by_cases hstay : c.await.connecting = true
      · exact h.looked c hmem hop hstay (by simpa [Call.goto, hstay, hconn] using hnil)
      · cases hmove with
        | keyed _ hawait _ _ | passes hawait _ => simp [beforeKey_of_connecting hconn] at hawait
        | connects _ _ hlook => exact (hlook hop).resolve_right hstay
        | waits _ hawait _ => simp [hconn] at hawait

theorem current_step {tv tv' : TvController} {ev : Event} (h : Current tv)
    (hstep : step tv ev = some tv') : Current tv' := by
  cases step_effect hstep with
  | learns e _ => exact .learn e
  | socket w => exact ⟨h.last, h.looked⟩
  | starts op t hmove =>
    exact (h.create op).resume (getElem_create tv op) hmove
  | probed since t _ _ hsince hmove => exact (learned_keeps h (fun _ => .learn _) _).resume hsince hmove
  | turns t hc _ hmove => exact h.resume hc hmove

/-- As `power_off`'s turn begins, presence is not False if its `connect` is clear. -/
theorem Current.notOff {tv : TvController} (h : Current tv) {c : Call} (hmem : c ∈ tv.calls)
    (hop : c.op.isPowerOff = true) (hconn : c.await.connecting = true) (hclear : c.NotOff) :
    tv.presenceCached ≠ some false := by
  cases hlast : c.since.getLast? with
  | none => exact h.looked c hmem hop hconn (List.getLast?_eq_none_iff.mp hlast)
  | some e =>
    rw [h.last c hmem e hlast]
    simpa [Call.NotOff, hlast] using hclear

/-- What `power_off` sends is `KEY_POWER`, and the TV was not known to be off. -/
def Looked (tv : TvController) : Prop :=
  ∀ s ∈ tv.keys, ∀ c, tv.calls[s.call]? = some c → c.op.isPowerOff = true →
    s.key = "KEY_POWER" ∧ s.presence ≠ some false

theorem Looked.learn {tv : TvController} (h : Looked tv) (e : Evidence) : Looked (tv.learn e) := by
  intro s hs d hd hop
  rw [keys_learn] at hs
  rw [getElem_learn] at hd
  obtain ⟨c, hc, rfl⟩ := Option.map_eq_some_iff.mp hd
  exact h s hs c hc hop

theorem Looked.create {tv : TvController} (h : Looked tv) (honce : Once tv) (op : Op) :
    Looked (tv.create op) := by
  intro s hs c hc hop
  refine h s hs c ?_ hop
  rw [← hc]
  exact (List.getElem?_append_left (honce.bound s hs)).symm

theorem Looked.resume {tv : TvController} (h : Looked tv) {i : Nat} {c : Call} {t : Turn}
    {presence : Option Bool} (hc : tv.calls[i]? = some c) (hmove : Move c.op presence c.await t)
    (hkey : t.key ≠ none → c.op.isPowerOff = true → tv.presenceCached ≠ some false) :
    Looked (tv.resume i c t) := by
  intro s hs d hd hop
  obtain hold | hnew := List.mem_append.mp hs
  · obtain ⟨heq, rfl⟩ | ⟨_, hget⟩ := getElem_resume hd
    · exact h s hold c (heq ▸ hc) hop
    · exact h s hold d hget hop
  · obtain ⟨key, hsent, rfl⟩ := List.mem_map.mp hnew
    have hsent : t.key = some key := by simpa using hsent
    obtain ⟨_, rfl⟩ | ⟨hne, _⟩ := getElem_resume hd
    · refine ⟨?_, hkey (by simp [hsent]) hop⟩
      cases hmove with
      | keyed _ _ hown _ =>
        have hop : c.op.isPowerOff = true := hop
        cases hcop : c.op with
        | powerOff wait => simpa [hsent, hcop, Op.key] using hown
        | _ => simp [hcop, Op.isPowerOff] at hop
      | connects _ hnone _ | waits _ _ hnone | passes _ hnone => simp [hsent] at hnone
    · exact absurd rfl hne

theorem looked_step {tv tv' : TvController} {ev : Event} (h : Looked tv) (honce : Once tv)
    (hcurrent : Current tv) (hclear : Clear tv ev) (hstep : step tv ev = some tv') : Looked tv' := by
  have hpast {op : Op} {presence : Option Bool} {a : Await} {t : Turn} (hmove : Move op presence a t)
      (ha : a.connecting ≠ true) (hkey : t.key ≠ none) (hop : op.isPowerOff = true) :
      presence ≠ some false := by
    cases hmove with
    | keyed _ _ _ hlook => exact (hlook hop).resolve_right ha
    | connects _ hnone _ | waits _ _ hnone | passes _ hnone => exact absurd hnone hkey
  cases step_effect hstep with
  | learns e _ => exact h.learn e
  | socket w => exact h
  | starts op t hmove =>
    exact (h.create honce op).resume (getElem_create tv op) hmove (hpast hmove nofun)
  | probed since t hc hprobing hsince hmove =>
    have hidle := connecting_of_probing hprobing
    exact (learned_keeps h h.learn _).resume hsince hmove (hpast hmove (by simp [hidle]))
  | @turns _ _ c t hc hnotOff hmove =>
    refine h.resume hc hmove fun hkey hop => ?_
    by_cases hconn : c.await.connecting = true
    · exact hcurrent.notOff (List.mem_of_getElem? hc) hop hconn (hnotOff hop hconn hkey hclear)
    · exact hpast hmove hconn hkey hop

/-- As long as no `connect` of a `power_off` ends connected after its last evidence was that the
TV is off, every `power_off` sends `KEY_POWER` at most once, with presence not False. -/
theorem power_key_when_on {tv : TvController} (h : ReachableBy step Clear {} tv) {i : Nat} {c : Call}
    (hc : tv.calls[i]? = some c) (hop : c.op.isPowerOff = true) :
    (tv.keys.filter (·.call = i)).length ≤ 1 ∧
      ∀ s ∈ tv.keys, s.call = i → s.key = "KEY_POWER" ∧ s.presence ≠ some false := by
  have hinv : Once tv ∧ Current tv ∧ Looked tv := by
    apply h.invariant
    · refine ⟨⟨nofun, nofun, fun _ => Nat.zero_le 1⟩, ⟨nofun, nofun⟩, nofun⟩
    · intro t ev u ⟨honce, hcurrent, hlooked⟩ hclear hstep
      exact ⟨once_step honce hstep, current_step hcurrent hstep,
        looked_step hlooked honce hcurrent hclear hstep⟩
  obtain ⟨honce, _, hlooked⟩ := hinv
  refine ⟨honce.once i, fun s hs hcall => ?_⟩
  exact hlooked s hs c (hcall ▸ hc) hop

theorem current_reachable {tv : TvController} {ok : TvController → Event → Prop}
    (h : ReachableBy step ok {} tv) : Current tv := by
  apply h.invariant
  · exact ⟨nofun, nofun⟩
  · intro t ev u hcurrent _ hstep
    exact current_step hcurrent hstep

/-- A call that has last heard that the TV is off is right. -/
theorem Current.off {tv : TvController} (h : Current tv) {c : Call} (hmem : c ∈ tv.calls)
    (hoff : ¬ c.NotOff) : tv.presenceCached = some false := by
  obtain ⟨e, hlast, hon⟩ := Option.map_eq_some_iff.mp (not_not.mp hoff)
  rw [h.last c hmem e hlast, hon]

theorem powerOff_key {op : Op} {w : TvWsClient} (hop : op.isPowerOff = true)
    (hconn : w.connected = true) (presence : Option Bool) (i : Nat) :
    (op.afterConnect presence w i).key = some "KEY_POWER" := by
  cases op with
  | powerOff wait =>
    obtain ⟨_, hkey⟩ := sendKey_turn w i "KEY_POWER" (afterSend_beforeKey (.powerOff wait) presence)
    simpa [Op.afterConnect, hconn] using hkey
  | _ => simp [Op.isPowerOff] at hop

theorem sent_resume {tv : TvController} {t : Turn} {key : String} {presence : Option Bool}
    (hkey : t.key = some key) (hpresence : tv.presenceCached = presence) (i : Nat) (c : Call) :
    ⟨i, key, presence⟩ ∈ (tv.resume i c t).keys := by
  simp [TvController.resume, hkey, hpresence]

/-- Otherwise the key goes to a TV known to be off. -/
theorem found_off_in_connect {tv : TvController} (h : Reachable step {} tv) {i : Nat} {c : Call}
    (hc : tv.calls[i]? = some c) (hop : c.op.isPowerOff = true) (hoff : ¬ c.NotOff) :
    (c.await = .wsConnect → ∃ tv', step tv (.wsConnects i true) = some tv' ∧
      ⟨i, "KEY_POWER", some false⟩ ∈ tv'.keys) ∧
    (c.await = .connectLock → tv.ws.lock = none → tv.ws.waiters.head? = some i →
      tv.ws.ws = some false → tv.ws.connected = true → ∃ tv', step tv (.takesLock i) = some tv' ∧
        ⟨i, "KEY_POWER", some false⟩ ∈ tv'.keys) := by
  have hpresence := (current_reachable h).off (List.mem_of_getElem? hc) hoff
  refine ⟨fun ha => ?_, fun ha hlock hhead hopen hconn => ?_⟩
  · have hkey := powerOff_key (w := tv.ws.connectEnds true) hop rfl tv.presenceCached i
    exact ⟨_, by simp [step, TvController.suspended, hc, ha], sent_resume hkey hpresence i c⟩
  · have hkey : (c.afterLock tv.presenceCached { tv.ws with waiters := tv.ws.waiters.tail } i).key =
        some "KEY_POWER" := by
      simpa [Call.afterLock, ha, Op.connectLocked, hopen, hconn] using
        powerOff_key (w := { tv.ws with waiters := tv.ws.waiters.tail }) hop hconn tv.presenceCached i
    exact ⟨_, by simp [step, hlock, hhead, hc], sent_resume hkey hpresence i c⟩

def renderer : String := "urn:schemas-upnp-org:device:MediaRenderer:1"

/-- The TV is on; `power_off` connects while it says byebye. -/
def byebyeWhileConnecting : List Event :=
  [.notifySsdp "ssdp:alive" renderer none, .starts (.powerOff true), .probeEnds 0 true,
    .notifySsdp "ssdp:byebye" renderer none, .wsConnects 0 true]

theorem byebye_while_connecting : ∃ tv, execute step {} byebyeWhileConnecting = some tv ∧
    ∃ s ∈ tv.keys, s.call = 0 ∧ s.key = "KEY_POWER" ∧ s.presence = some false := by
  have hrun : (execute step {} byebyeWhileConnecting).map (·.keys) =
      some [⟨0, "KEY_POWER", some false⟩] := by decide
  obtain ⟨tv, htv, hkeys⟩ := Option.map_eq_some_iff.mp hrun
  exact ⟨tv, htv, _, hkeys ▸ List.mem_singleton.mpr rfl, rfl, rfl, rfl⟩

/-- The byebye is followed by an alive before the websocket is connected. -/
def aliveWhileConnecting : List Event :=
  [.notifySsdp "ssdp:alive" renderer none, .starts (.powerOff true), .probeEnds 0 true,
    .notifySsdp "ssdp:byebye" renderer none, .notifySsdp "ssdp:alive" renderer none,
    .wsConnects 0 true, .sends 0 true]

theorem alive_while_connecting : ∃ tv c, execute step {} aliveWhileConnecting = some tv ∧
    tv.calls[0]? = some c ∧ c.op = .powerOff true ∧ c.await = .loopProbe ∧
    (tv.keys.filter (·.call = 0)).length ≤ 1 ∧
      ∀ s ∈ tv.keys, s.call = 0 → s.key = "KEY_POWER" ∧ s.presence ≠ some false := by
  have hrun : (execute step {} aliveWhileConnecting).map (·.calls[0]?) =
      some (some ⟨.powerOff true, .loopProbe, []⟩) := by decide
  obtain ⟨tv, htv, hc⟩ := Option.map_eq_some_iff.mp hrun
  exact ⟨tv, _, htv, hc, rfl, rfl,
    power_key_when_on (reachableBy_of_execute htv (by decide)) hc rfl⟩

/-- A probe does not come back negative when an alive has been accepted since it began, unless
the last evidence by then is that the TV is off again. -/
def Fresh (tv : TvController) : Event → Prop
  | .probeEnds i up => up = false → ∀ c ∈ tv.calls[i]?, c.op ≠ .directCheck →
    .ssdpAlive ∈ c.since → ¬ c.NotOff
  | _ => True

instance (tv : TvController) (ev : Event) : Decidable (Fresh tv ev) :=
  match ev with
  | .probeEnds _ _ => inferInstanceAs (Decidable (_ → ∀ c ∈ _, _ → _ → _))
  | .notifySsdp _ _ _ | .notifyMsearch _ | .starts _ | .bootstrapEnds _ | .takesLock _
  | .wsConnects _ _ | .sends _ _ | .wsCloses _ | .wakes _ _ | .cancelled _ | .socketCloses =>
    .isTrue trivial

theorem learns_eq {op : Op} {up : Bool} {e : Evidence} (h : op.learns up = some e) :
    e = .probeHttp up ∧ (up = false → op ≠ .directCheck) := by
  cases op with
  | reconcilePresence =>
    obtain rfl := Option.some.inj h
    exact ⟨rfl, nofun⟩
  | directCheck =>
    cases up with
    | false => cases h
    | true =>
      obtain rfl := Option.some.inj h
      exact ⟨rfl, nofun⟩
  | _ =>
    cases up with
    | false =>
      obtain rfl := Option.some.inj h
      exact ⟨rfl, nofun⟩
    | true => cases h

/-- The TV is on, and every probe that could say otherwise began before an alive. -/
structure Revived (tv : TvController) : Prop where
  on : tv.presenceCached = some true
  heard : ∀ c ∈ tv.calls, c.await.probing = true → c.op ≠ .directCheck → .ssdpAlive ∈ c.since

theorem Revived.learn {tv : TvController} (h : Revived tv) {e : Evidence} (he : e.on = true) :
    Revived (tv.learn e) := by
  refine ⟨he ▸ presence_learn tv e, fun d hd hprobing hop => ?_⟩
  obtain ⟨c, hc, rfl⟩ := mem_learn hd
  exact List.mem_append_left [e] (h.heard c hc hprobing hop)

theorem Revived.create {tv : TvController} (h : Revived tv) (op : Op) : Revived (tv.create op) := by
  refine ⟨h.on, fun d hd hprobing hop => ?_⟩
  obtain hold | rfl := mem_create hd
  · exact h.heard d hold hprobing hop
  · simp [Await.probing] at hprobing

theorem Revived.resume {tv : TvController} (h : Revived tv) {i : Nat} {c : Call} {t : Turn}
    (hprobes : (tv.resume i c t).probes = tv.probes) : Revived (tv.resume i c t) := by
  refine ⟨h.on, fun d hd hprobing hop => ?_⟩
  obtain hold | rfl := mem_resume hd
  · exact h.heard d hold hprobing hop
  · have hnew : t.await.probing = true ∧ c.op ≠ .directCheck := ⟨hprobing, hop⟩
    unfold TvController.resume at hprobes
    dsimp only at hprobes
    rw [if_pos hnew] at hprobes
    omega

theorem probes_learned (tv : TvController) (e : Option Evidence) :
    (tv.learned e).probes = tv.probes :=
  learned_keeps (P := fun t => t.probes = tv.probes) rfl (probes_learn tv) e

theorem revived_step {tv tv' : TvController} {ev : Event} (h : Revived tv) (hcurrent : Current tv)
    (hfresh : Fresh tv ev) (hstep : step tv ev = some tv') (hprobes : tv'.probes = tv.probes)
    (hquiet : ∀ nts nt location, ev = .notifySsdp nts nt location →
      ssdpEvidence nts nt location = none) : Revived tv' := by
  cases step_effect hstep with
  | learns e he =>
    obtain rfl | ⟨nts, nt, location, rfl, hsome⟩ := he
    · exact h.learn rfl
    · simp [hquiet nts nt location rfl] at hsome
  | socket w => exact ⟨h.on, h.heard⟩
  | starts op t _ => exact (h.create op).resume hprobes
  | @probed i up c since t hc hprobing _ _ =>
    have hlearned : Revived (tv.learned (c.op.learns up)) := by
      cases he : c.op.learns up with
      | none => exact h
      | some e =>
        obtain ⟨rfl, hop⟩ := learns_eq he
        cases up with
        | true => exact h.learn rfl
        | false =>
          have hmem : c ∈ tv.calls := List.mem_of_getElem? hc
          have hoff := hcurrent.off hmem
            (hfresh rfl c hc (hop rfl) (h.heard c hmem hprobing (hop rfl)))
          simp [h.on] at hoff
    exact hlearned.resume (by rw [hprobes, probes_learned])
  | turns t _ _ _ => exact h.resume hprobes

theorem probes_resume (tv : TvController) (i : Nat) (c : Call) (t : Turn) :
    tv.probes ≤ (tv.resume i c t).probes := by
  unfold TvController.resume
  dsimp only
  split
  · exact Nat.le_succ _
  · exact Nat.le_refl _

theorem probes_step {tv tv' : TvController} {ev : Event} (hstep : step tv ev = some tv') :
    tv.probes ≤ tv'.probes := by
  cases step_effect hstep with
  | learns e _ => exact Nat.le_of_eq (probes_learn tv e).symm
  | socket w => exact Nat.le_refl _
  | starts op t _ => exact probes_resume (tv.create op) _ _ t
  | probed since t _ _ _ _ =>
    rw [← probes_learned tv _]
    exact probes_resume _ _ _ t
  | turns t _ _ _ => exact probes_resume tv _ _ t

theorem probes_run {tv tv' : TvController} {es : List Event} (h : execute step tv es = some tv') :
    tv.probes ≤ tv'.probes := by
  apply (reachable_of_execute h).invariant (P := fun t => tv.probes ≤ t.probes)
  · exact Nat.le_refl _
  · intro t ev u hle _ hstep
    exact Nat.le_trans hle (probes_step hstep)

/-- While no probe starts and no SSDP notification is accepted, the TV stays on. -/
theorem revived_run {tv tv' : TvController} {es : List Event} (h : Revived tv)
    (hcurrent : Current tv) (hfresh : Along step Fresh tv es) (hrun : execute step tv es = some tv')
    (hprobes : tv'.probes = tv.probes) (hquiet : ∀ nts nt location,
      .notifySsdp nts nt location ∈ es → ssdpEvidence nts nt location = none) : Revived tv' := by
  induction es generalizing tv with
  | nil =>
    obtain rfl : tv = tv' := by simpa [execute] using hrun
    exact h
  | cons e es ih =>
    obtain ⟨u, hstep, hrest⟩ := Option.bind_eq_some_iff.mp hrun
    obtain ⟨hhead, htail⟩ := hfresh
    rw [hstep] at htail
    have hle := probes_step hstep
    have hle' := probes_run hrest
    have hu : u.probes = tv.probes := by omega
    refine ih ?_ (current_step hcurrent hstep) htail hrest (hprobes.trans hu.symm) ?_
    · refine revived_step h hcurrent hhead hstep hu fun nts nt location heq => ?_
      exact hquiet nts nt location (heq ▸ List.mem_cons_self)
    · exact fun nts nt location hmem => hquiet nts nt location (List.mem_cons_of_mem e hmem)

/-- As long as no probe comes back negative that an alive has overtaken, unless the TV has been
found off again: what such a probe returns leaves presence alone, and after an alive that no
SSDP notification follows and no probe starts after, presence is True. -/
theorem newer_alive_stands {tv : TvController} (h : ReachableBy step Fresh {} tv) :
    (∀ i c tv', tv.calls[i]? = some c → c.await.probing = true → .ssdpAlive ∈ c.since →
      Fresh tv (.probeEnds i false) → step tv (.probeEnds i false) = some tv' →
      tv'.presenceCached = tv.presenceCached) ∧
    ∀ nt location es tv', isRendererPresence nt location = true →
      execute step tv (.notifySsdp "ssdp:alive" nt location :: es) = some tv' →
      Along step Fresh tv (.notifySsdp "ssdp:alive" nt location :: es) →
      (∀ nts nt location, .notifySsdp nts nt location ∈ es → ssdpEvidence nts nt location = none) →
      tv'.probes = tv.probes → tv'.presenceCached = some true := by
  have hcurrent := current_reachable h
  refine ⟨fun i c tv' hc hprobing halive hfresh hstep => ?_,
    fun nt location es tv' hacc hrun hfresh hquiet hprobes => ?_⟩
  · obtain ⟨d, hd, rfl⟩ := Option.map_eq_some_iff.mp hstep
    obtain rfl : c = d := Option.some.inj (hc.symm.trans (suspended_eq hd).1)
    have hlearned : (tv.learned (c.op.learns false)).presenceCached = tv.presenceCached := by
      cases he : c.op.learns false with
      | none => rfl
      | some e =>
        obtain ⟨rfl, hop⟩ := learns_eq he
        rw [hcurrent.off (List.mem_of_getElem? hc) (hfresh rfl c hc (hop rfl) halive)]
        exact presence_learn tv (.probeHttp false)
    exact hlearned
  · have hnotify : tv.notifySsdp "ssdp:alive" nt location = tv.learn .ssdpAlive := by
      simp [TvController.notifySsdp, TvController.learned, ssdpEvidence, hacc]
    have hrevived : Revived (tv.learn .ssdpAlive) := by
      refine ⟨presence_learn tv .ssdpAlive, fun d hd _ _ => ?_⟩
      obtain ⟨c, _, rfl⟩ := mem_learn hd
      simp
    have hstep : step tv (.notifySsdp "ssdp:alive" nt location) = some (tv.learn .ssdpAlive) :=
      congrArg some hnotify
    obtain ⟨_, htail⟩ := hfresh
    rw [hstep] at htail
    rw [execute_cons hstep] at hrun
    have hsame : tv'.probes = (tv.learn .ssdpAlive).probes := by rw [hprobes, probes_learn]
    exact (revived_run hrevived (.learn .ssdpAlive) htail hrun hsame hquiet).on

/-- Otherwise presence, which is True, becomes False. -/
theorem overtaken_probe_wins {tv : TvController} (h : Reachable step {} tv) {i : Nat} {c : Call}
    (hc : tv.calls[i]? = some c) (hprobing : c.await.probing = true) (hop : c.op ≠ .directCheck)
    (halive : .ssdpAlive ∈ c.since) (hon : c.NotOff) : tv.presenceCached = some true ∧
      ∃ tv', step tv (.probeEnds i false) = some tv' ∧ tv'.presenceCached = some false := by
  have hpresence : tv.presenceCached = some true := by
    cases hlast : c.since.getLast? with
    | none =>
      rw [List.getLast?_eq_none_iff.mp hlast] at halive
      cases halive
    | some e =>
      have he : e.on = true := by simpa [Call.NotOff, hlast] using hon
      rw [(current_reachable h).last c (List.mem_of_getElem? hc) e hlast, he]
  have hlearns : c.op.learns false = some (.probeHttp false) := by
    cases hcop : c.op with
    | directCheck => exact absurd hcop hop
    | _ => rfl
  refine ⟨hpresence, _, by simp [step, TvController.suspended, hc, hprobing]; rfl, ?_⟩
  rw [hlearns]
  exact presence_learn tv (.probeHttp false)

/-- The first attempt of a probe has failed when the TV, just switched on, says alive; its HTTP
server does not answer the second one either. -/
def switchedOn : List Event :=
  [.notifyMsearch none, .starts .refreshPresence, .notifySsdp "ssdp:alive" renderer none]

theorem switched_on_found_off : ∃ tv c tv', execute step {} switchedOn = some tv ∧
    tv.calls[0]? = some c ∧ c.op = .refreshPresence ∧ c.await.probing = true ∧
    .ssdpAlive ∈ c.since ∧ tv.presenceCached = some true ∧
    step tv (.probeEnds 0 false) = some tv' ∧ tv'.presenceCached = some false ∧
    tv'.probes = tv.probes := by
  have hrun : (execute step {} switchedOn).bind (fun tv => (step tv (.probeEnds 0 false)).map
      fun tv' => (tv.calls[0]?, tv.presenceCached, tv'.presenceCached, tv.probes, tv'.probes)) =
      some (some ⟨.refreshPresence, .probe, [.ssdpAlive]⟩, some true, some false, 1, 1) := by decide
  obtain ⟨tv, htv, hmap⟩ := Option.bind_eq_some_iff.mp hrun
  obtain ⟨tv', htv', hseen⟩ := Option.map_eq_some_iff.mp hmap
  simp only [Prod.mk.injEq] at hseen
  obtain ⟨hc, hon, hoff, hone, hone'⟩ := hseen
  exact ⟨tv, _, tv', htv, hc, rfl, rfl, List.mem_singleton.mpr rfl, hon, htv', hoff,
    hone'.trans hone.symm⟩

/-- Two probes; an alive and a byebye come before the first ends, an alive before the second. -/
def twoProbes : List Event :=
  [.notifyMsearch none, .starts .refreshPresence, .starts (.powerOff true),
    .notifySsdp "ssdp:alive" renderer none, .notifySsdp "ssdp:byebye" renderer none]

theorem two_probes_stand : ∃ tv tv' tv'', execute step {} twoProbes = some tv ∧
    step tv (.probeEnds 0 false) = some tv' ∧ tv'.presenceCached = tv.presenceCached ∧
    execute step tv' [.notifySsdp "ssdp:alive" renderer none, .probeEnds 1 true] = some tv'' ∧
    tv''.presenceCached = some true := by
  have hrun : (execute step {} twoProbes).bind (fun tv => (step tv (.probeEnds 0 false)).bind
      fun tv' => (execute step tv' [.notifySsdp "ssdp:alive" renderer none, .probeEnds 1 true]).map
      fun tv'' => (tv.calls[0]?, decide (Fresh tv (.probeEnds 0 false)), decide (Along step Fresh tv'
        [.notifySsdp "ssdp:alive" renderer none, .probeEnds 1 true]), tv'.probes, tv''.probes)) =
      some (some ⟨.refreshPresence, .probe, [.ssdpAlive, .ssdpByebye]⟩, true, true, 2, 2) := by decide
  obtain ⟨tv, htv, hbind⟩ := Option.bind_eq_some_iff.mp hrun
  obtain ⟨tv', htv', hmap⟩ := Option.bind_eq_some_iff.mp hbind
  obtain ⟨tv'', htv'', hseen⟩ := Option.map_eq_some_iff.mp hmap
  simp only [Prod.mk.injEq, decide_eq_true_eq] at hseen
  obtain ⟨hc, hfresh, halong, htwo, htwo'⟩ := hseen
  have hreach : ReachableBy step Fresh {} tv := reachableBy_of_execute htv (by decide)
  refine ⟨tv, tv', tv'', htv, htv', ?_, htv'', ?_⟩
  · exact (newer_alive_stands hreach).1 0 _ tv' hc rfl (by decide) hfresh htv'
  · refine (newer_alive_stands (hreach.next hfresh htv')).2 renderer none [.probeEnds 1 true] tv''
      (by decide) htv'' halong (fun nts nt location hmem => ?_) (htwo'.trans htwo.symm)
    simp at hmem

end PiHub.TvPresence

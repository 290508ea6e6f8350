import PiHub.RxLines
import PiHub.TxQueue

/-! The serial port under the dongle link (ble_dongle.py): how the reconnect loop, the writer, the
reader and the calls that queue a payload interleave. -/
namespace PiHub.SerialLink
open HostFrames DongleHost RxLines TxQueue Transition

/-- A payload in the queue. `port` records which serial port was open when it was handed in. -/
structure Queued where
  payload : List UInt8
  port : Option Nat
  deriving DecidableEq

/-- The lines that the reconnect loop sends. -/
inductive Asked where
  | ping | status | info
  deriving DecidableEq

def Asked.text : Asked → List Char
  | .ping => "PING".toList
  | .status => "STATUS".toList
  | .info => "INFO".toList

/-- Where `_reconnect_loop` is: it has no task; before its next turn, sleeping or not; in the pause
after the port opened; in the queue's `put`; waiting for the PONG; or waiting on `_link_down`. -/
inductive ReconnectLoop where
  | ended
  | turns
  | settles
  | puts (line : Asked)
  | awaitsPong (answered : Bool)
  | sleepsUntilDown
  deriving DecidableEq

inductive WriterLoop where
  | ended
  | gets
  | backsOff
  deriving DecidableEq

/-- A `BleDongleLink`. Serial ports are numbered as they are opened; `closing` counts the tasks that
failed reads have started, `putting` are the calls of `_write_line` in the queue's `put`, and
`written` records what was given to which port. -/
structure State (cap : Nat) where
  ser : Option Nat := none
  opened : Nat := 0
  reading : Bool := false
  linkDown : Bool := true
  rxBuf : List UInt8 := []
  host : BleDongleLink := {}
  txQ : Fifo Queued cap := .empty
  reconnect : ReconnectLoop := .ended
  writer : WriterLoop := .ended
  closing : Nat := 0
  putting : List Queued := []
  written : List (Nat × Queued) := []

/-- `_find_port` and `serial.Serial`; `raises`: the port opens and then `add_reader` fails. -/
inductive Opening where
  | noPort
  | fails
  | opens
  | raises

/-- What `os.write` does: it takes so many bytes, or raises. -/
inductive Written where
  | bytes (n : Nat)
  | raises

namespace State
variable {cap : Nat}

def isOpen (s : State cap) : Bool := s.ser.isSome

def link (s : State cap) : Link Queued cap := ⟨s.ser, s.host.state, s.txQ⟩

def stopReading (s : State cap) : State cap :=
  if s.isOpen then { s with reading := false } else s

/-- `_close_serial`. Setting `_link_down` wakes the reconnect loop. -/
def closeSerial (s : State cap) : State cap :=
  { s.stopReading with
    txQ := .empty
    ser := none
    linkDown := true
    reconnect := if s.reconnect = .sleepsUntilDown then .turns else s.reconnect }

def forceReconnect (s : State cap) (reason : String) : State cap :=
  { s.closeSerial with
    host := { s.host with state := {}, transportEvt := false, lastError := some reason.toList } }

/-- `await self._link_down.wait()`. -/
def awaitsDown (s : State cap) : State cap :=
  { s with reconnect := if s.linkDown then .turns else .sleepsUntilDown }

def asksInfo (s : State cap) : State cap :=
  if s.isOpen then { s with reconnect := .puts .info } else s.awaitsDown

/-- What follows an answered handshake. -/
def asksStatus (s : State cap) : State cap :=
  if s.isOpen then { s with reconnect := .puts .status } else s.asksInfo

def awaitsPong (s : State cap) : State cap :=
  { s with reconnect := .awaitsPong s.host.transportEvt }

/-- `_handshake_once` up to its first wait. -/
def handshakes (s : State cap) : State cap :=
  if s.isOpen then { s with reconnect := .puts .ping } else s.awaitsPong

def afterPut (s : State cap) : Asked → State cap
  | .ping => s.awaitsPong
  | .status => s.asksInfo
  | .info => s.awaitsDown

/-- `_try_open_and_handshake` with an open port, up to `add_reader`. -/
def takesPort (s : State cap) : State cap :=
  { s with
    ser := some s.opened
    opened := s.opened + 1
    linkDown := false
    host := { s.host with state := {}, transportEvt := false, lastError := none }
    rxBuf := [] }

/-- One turn of the reconnect loop, up to its next wait. -/
def turn (s : State cap) (opening : Opening) : State cap :=
  if s.isOpen then s.awaitsDown
  else match opening with
    | .noPort | .fails => s
    | .raises => s.takesPort
    | .opens =>
      { s.takesPort with
        reading := true
        writer := if s.writer = .ended then .gets else s.writer
        reconnect := .settles }

/-- The data a read returns, line by line; a PONG wakes the handshake. -/
def receives (s : State cap) (data : List UInt8) : State cap :=
  let read := ingestRxBytes s.rxBuf data
  let host := read.2.foldl BleDongleLink.handleLine s.host
  { s with
    rxBuf := read.1
    host := host
    reconnect := match s.reconnect with
      | .awaitsPong answered => .awaitsPong (answered || host.transportEvt)
      | r => r }

/-- The writer's turn with a payload that it has just taken from the queue. -/
def writes (s : State cap) (x : Queued) (result : Written) : State cap :=
  match s.ser with
  | none => s
  | some port =>
    match result with
    | .raises => { s.forceReconnect "writer_error" with writer := .backsOff }
    | .bytes n =>
      let s := { s with written := s.written ++ [(port, x)] }
      if n = x.payload.length then s
      else { s.forceReconnect "writer_error" with writer := .backsOff }

end State

inductive Event where
  | enqueueNowait (payload : List UInt8)
  | enqueueStrict (payload : List UInt8) (action : String)
  | releaseAll
  | writeLine (text : List Char) (printable : ∀ c ∈ text, Printable c)
  | putLine (i : Nat)
  | start
  | stopCancels
  | stopCloses
  | turn (opening : Opening)
  | settled
  | reconnectPuts
  | answered
  | timesOut
  | readable (data : List UInt8)
  | readFails (exc : List Char)
  | readerError
  | writer (result : Written)
  | writerRetries

variable {cap : Nat}

/-- What runs between one wait of a task and its next. -/
def step (s : State cap) : Event → Option (State cap)
  | .enqueueNowait payload => some { s with txQ := (s.link.enqueueNowait ⟨payload, s.ser⟩).txQ }
  | .enqueueStrict payload action =>
    match s.link.enqueueStrict ⟨payload, s.ser⟩ action with
    | .ok l => some { s with txQ := l.txQ }
    | .error _ => some s
  | .releaseAll =>
    some { s with txQ := (s.link.enqueuePriorityFrames Queued.payload
      (releaseFrames.map fun payload => ⟨payload, s.ser⟩)).txQ }
  | .writeLine text _ =>
    some (if s.isOpen then { s with putting := s.putting ++ [⟨HostFrames.writeLine text, s.ser⟩] }
      else s)
  | .putLine i => s.putting[i]?.bind fun x =>
    (s.txQ.putNowait x).map fun q => { s with txQ := q, putting := s.putting.eraseIdx i }
  | .start => some (if s.reconnect = .ended then { s with reconnect := .turns } else s)
  | .stopCancels => some { s with reconnect := .ended, writer := .ended }
  | .stopCloses => some s.closeSerial
  | .turn opening => if s.reconnect = .turns then some (s.turn opening) else none
  | .settled => if s.reconnect = .settles then some s.handshakes else none
  | .reconnectPuts =>
    match s.reconnect with
    | .puts line => (s.txQ.putNowait ⟨HostFrames.writeLine line.text, s.ser⟩).map fun q =>
      { s with txQ := q }.afterPut line
    | _ => none
  | .answered => if s.reconnect = .awaitsPong true then some s.asksStatus else none
  | .timesOut =>
    match s.reconnect with
    | .awaitsPong _ =>
      some (if s.host.transportEvt then s.asksStatus
        else { s.forceReconnect "handshake_timeout" with reconnect := .turns })
    | _ => none
  | .readable data => if s.reading ∧ s.isOpen then some (s.receives data) else none
  | .readFails exc =>
    if s.reading ∧ s.isOpen then
      some { s.stopReading with
        host := { s.host with lastError := some ("reader_error: ".toList ++ exc) }
        closing := s.closing + 1 }
    else none
  | .readerError =>
    if 0 < s.closing then
      some { s.forceReconnect "reader_error" with closing := s.closing - 1 }
    else none
  | .writer result =>
    if s.writer = .gets then
      s.txQ.getNowait.map fun (x, q) => { s with txQ := q }.writes x result
    else none
  | .writerRetries =>
    if s.writer = .backsOff then some { s with writer := .gets } else none

/-- The reports in the queue were handed in on the port that is open now, and so was every report
that has been written on the port it was written to. `_link_down` is set when no port is held, and
the reconnect loop sleeps on it only while it is not. -/
structure Sound (s : State cap) : Prop where
  down : s.ser = none → s.linkDown = true
  asleep : s.reconnect = .sleepsUntilDown → s.linkDown = false
  queued : ∀ x ∈ s.txQ.items, isHidFrame x.payload = true → s.ser ≠ none ∧ x.port = s.ser
  lines : ∀ x ∈ s.putting, isHidFrame x.payload = false
  written : ∀ w ∈ s.written, isHidFrame w.2.payload = true → w.2.port = some w.1

theorem start_sound : Sound ({} : State cap) := by
  refine ⟨fun _ => rfl, nofun, ?_, ?_, ?_⟩ <;> simp [Fifo.empty]

theorem writeLine_isHidFrame {text : List Char} (h : ∀ c ∈ text, Printable c) :
    isHidFrame (HostFrames.writeLine text) = false :=
  Payload.isHidFrame_bytes (.line text h)

theorem Asked.printable (line : Asked) : ∀ c ∈ line.text, Printable c := by
  cases line <;> decide

/-- Nothing has changed that it speaks of. -/
theorem Sound.same {s t : State cap} (h : Sound s) (hser : t.ser = s.ser)
    (hdown : t.linkDown = s.linkDown) (hreconnect : t.reconnect = s.reconnect)
    (hqueue : t.txQ = s.txQ) (hputting : t.putting = s.putting) (hwritten : t.written = s.written) :
    Sound t :=
  ⟨by rw [hser, hdown]; exact h.down, by rw [hreconnect, hdown]; exact h.asleep,
    by rw [hqueue, hser]; exact h.queued, by rw [hputting]; exact h.lines,
    by rw [hwritten]; exact h.written⟩

/-- The queue has changed. -/
theorem Sound.queue {s : State cap} (h : Sound s) {q : Fifo Queued cap}
    (hq : ∀ x ∈ q.items, isHidFrame x.payload = true →
      x ∈ s.txQ.items ∨ s.ser ≠ none ∧ x.port = s.ser) : Sound { s with txQ := q } := by
  refine ⟨h.down, h.asleep, fun x hx hhid => ?_, h.lines, h.written⟩
  rcases hq x hx hhid with hold | hnew
  · exact h.queued x hold hhid
  · exact hnew

/-- The reconnect loop is elsewhere, and does not sleep. -/
theorem Sound.goes {s : State cap} (h : Sound s) {r : ReconnectLoop} (hr : r ≠ .sleepsUntilDown) :
    Sound { s with reconnect := r } :=
  ⟨h.down, fun heq => absurd heq hr, h.queued, h.lines, h.written⟩

theorem Sound.awaitsDown {s : State cap} (h : Sound s) : Sound s.awaitsDown := by
  refine ⟨h.down, fun heq => ?_, h.queued, h.lines, h.written⟩
  cases hdown : s.linkDown with
  | true => simp [State.awaitsDown, hdown] at heq
  | false => exact hdown

theorem Sound.asksInfo {s : State cap} (h : Sound s) : Sound s.asksInfo := by
  unfold State.asksInfo
  split
  · exact h.goes nofun
  · exact h.awaitsDown

theorem Sound.asksStatus {s : State cap} (h : Sound s) : Sound s.asksStatus := by
  unfold State.asksStatus
  split
  · exact h.goes nofun
  · exact h.asksInfo

theorem Sound.handshakes {s : State cap} (h : Sound s) : Sound s.handshakes := by
  unfold State.handshakes
  split
  · exact h.goes nofun
  · exact h.goes nofun

theorem Sound.afterPut {s : State cap} (h : Sound s) (line : Asked) : Sound (s.afterPut line) := by
  cases line with
  | ping => exact h.goes nofun
  | status => exact h.asksInfo
  | info => exact h.awaitsDown

theorem Sound.stopReading {s : State cap} (h : Sound s) : Sound s.stopReading := by
  unfold State.stopReading
  split
  · exact h.same rfl rfl rfl rfl rfl rfl
  · exact h

/-- The queue is emptied before the port is given up. -/
theorem Sound.closeSerial {s : State cap} (h : Sound s) : Sound s.closeSerial := by
  obtain ⟨-, -, -, hlines, hwritten⟩ := h.stopReading
  refine ⟨fun _ => rfl, fun heq => ?_, by simp [State.closeSerial, Fifo.empty], hlines, hwritten⟩
  by_cases hsleeps : s.reconnect = .sleepsUntilDown
  · simp [State.closeSerial, hsleeps] at heq
  · simp only [State.closeSerial, if_neg hsleeps] at heq
    exact absurd heq hsleeps

theorem Sound.forceReconnect {s : State cap} (h : Sound s) (reason : String) :
    Sound (s.forceReconnect reason) :=
  h.closeSerial.same rfl rfl rfl rfl rfl rfl

/-- A port is opened only with none held, so there are no reports in the queue. -/
theorem Sound.turn {s : State cap} (h : Sound s) (hturns : s.reconnect = .turns)
    (opening : Opening) : Sound (s.turn opening) := by
  unfold State.turn
  split
  · exact h.awaitsDown
  · rename_i hclosed
    have hnone : s.ser = none := by simpa [State.isOpen] using hclosed
    have hqueued : ∀ x ∈ s.txQ.items, isHidFrame x.payload = true → False := fun x hx hhid =>
      (h.queued x hx hhid).1 hnone
    cases opening with
    | noPort => exact h
    | fails => exact h
    | raises =>
      refine ⟨nofun, fun heq => ?_, fun x hx hhid => (hqueued x hx hhid).elim, h.lines, h.written⟩
      cases hturns.symm.trans heq
    | opens =>
      exact ⟨nofun, nofun, fun x hx hhid => (hqueued x hx hhid).elim, h.lines, h.written⟩

theorem Sound.receives {s : State cap} (h : Sound s) (data : List UInt8) :
    Sound (s.receives data) := by
  refine ⟨h.down, fun heq => ?_, h.queued, h.lines, h.written⟩
  refine h.asleep ?_
  unfold State.receives at heq
  cases hr : s.reconnect with
  | sleepsUntilDown => rfl
  | _ => simp [hr] at heq

/-- The payload was in the queue: a report goes to the port that was open when it was handed in. -/
theorem Sound.writes {s : State cap} (h : Sound s) {x : Queued}
    (hx : isHidFrame x.payload = true → s.ser ≠ none ∧ x.port = s.ser) (result : Written) :
    Sound (s.writes x result) := by
  have hfails : ∀ t : State cap, Sound t →
      Sound { t.forceReconnect "writer_error" with writer := .backsOff } := fun t ht =>
    (ht.forceReconnect "writer_error").same rfl rfl rfl rfl rfl rfl
  unfold State.writes
  split
  · exact h
  · rename_i port hser
    have hput : Sound { s with written := s.written ++ [(port, x)] } := by
      refine ⟨h.down, h.asleep, h.queued, h.lines, fun w hw hhid => ?_⟩
      rcases List.mem_append.mp hw with hold | hnew
      · exact h.written w hold hhid
      · obtain rfl := List.mem_singleton.mp hnew
        exact (hx hhid).2.trans hser
    cases result with
    | raises => exact hfails s h
    | bytes n =>
      dsimp only
      split
      · exact hput
      · exact hfails _ hput

theorem isOpen_of_sends {s : State cap} (h : s.link.sends = true) : s.ser ≠ none := by
  intro hnone
  simp [Link.sends, Link.isOpen, State.link, hnone] at h

theorem sound_enqueueNowait {s : State cap} (h : Sound s) (payload : List UInt8) :
    Sound { s with txQ := (s.link.enqueueNowait ⟨payload, s.ser⟩).txQ } := by
  refine h.queue fun x hx _ => ?_
  rcases Link.mem_enqueueNowait hx with hold | ⟨hsends, rfl⟩
  · exact Or.inl hold
  · exact Or.inr ⟨isOpen_of_sends hsends, rfl⟩

theorem sound_enqueueStrict {s : State cap} (h : Sound s) {payload : List UInt8} {action : String}
    {l : Link Queued cap} (hl : s.link.enqueueStrict ⟨payload, s.ser⟩ action = .ok l) :
    Sound { s with txQ := l.txQ } := by
  obtain ⟨hsends, q, hq, rfl⟩ := Link.enqueueStrict_ok hl
  refine h.queue fun x hx _ => ?_
  rw [(Fifo.putNowait_items hq).2, List.mem_append, List.mem_singleton] at hx
  rcases hx with hold | rfl
  · exact Or.inl hold
  · exact Or.inr ⟨isOpen_of_sends hsends, rfl⟩

theorem sound_releaseAll {s : State cap} (h : Sound s) :
    Sound { s with txQ := (s.link.enqueuePriorityFrames Queued.payload
      (releaseFrames.map fun payload => ⟨payload, s.ser⟩)).txQ } := by
  refine h.queue fun x hx _ => ?_
  rcases Link.mem_enqueuePriorityFrames hx with hold | ⟨hopen, hnew⟩
  · exact Or.inl hold
  · obtain ⟨payload, -, rfl⟩ := List.mem_map.mp hnew
    exact Or.inr ⟨by simpa [State.link, Link.isOpen, Option.isSome_iff_ne_none] using hopen, rfl⟩

/-- A line gets into the queue. -/
theorem Sound.putLine {s : State cap} (h : Sound s) {x : Queued} {q : Fifo Queued cap}
    (hx : isHidFrame x.payload = false) (hq : s.txQ.putNowait x = some q) :
    Sound { s with txQ := q } := by
  refine h.queue fun y hy hhid => ?_
  rw [(Fifo.putNowait_items hq).2, List.mem_append, List.mem_singleton] at hy
  rcases hy with hold | rfl
  · exact Or.inl hold
  · exact absurd hhid (by simp [hx])

theorem step_sound {s t : State cap} {e : Event} (hs : Sound s) (h : step s e = some t) :
    Sound t := by
  cases e with
  | enqueueNowait payload =>
    obtain rfl := Option.some.inj h
    exact sound_enqueueNowait hs payload
  | enqueueStrict payload action =>
    dsimp only [step] at h
    cases hl : s.link.enqueueStrict ⟨payload, s.ser⟩ action with
    | ok l =>
      rw [hl] at h
      obtain rfl := Option.some.inj h
      exact sound_enqueueStrict hs hl
    | error err =>
      rw [hl] at h
      obtain rfl := Option.some.inj h
      exact hs
  | releaseAll =>
    obtain rfl := Option.some.inj h
    exact sound_releaseAll hs
  | writeLine text printable =>
    obtain rfl := Option.some.inj h
    split
    · refine ⟨hs.down, hs.asleep, hs.queued, fun x hx => ?_, hs.written⟩
      rcases List.mem_append.mp hx with hold | hnew
      · exact hs.lines x hold
      · obtain rfl := List.mem_singleton.mp hnew
        exact writeLine_isHidFrame printable
    · exact hs
  | putLine i =>
    obtain ⟨x, hx, hput⟩ := Option.bind_eq_some_iff.mp h
    obtain ⟨q, hq, rfl⟩ := Option.map_eq_some_iff.mp hput
    have hline := hs.lines x (List.mem_of_getElem? hx)
    obtain ⟨hdown, hasleep, hqueued, hlines, hwritten⟩ := hs.putLine hline hq
    exact ⟨hdown, hasleep, hqueued, fun y hy => hlines y (List.mem_of_mem_eraseIdx hy), hwritten⟩
  | start =>
    obtain rfl := Option.some.inj h
    split
    · exact hs.goes nofun
    · exact hs
  | stopCancels =>
    obtain rfl := Option.some.inj h
    exact ⟨hs.down, nofun, hs.queued, hs.lines, hs.written⟩
  | stopCloses =>
    obtain rfl := Option.some.inj h
    exact hs.closeSerial
  | turn opening =>
    obtain ⟨hturns, rfl⟩ := of_guard h
    exact hs.turn hturns opening
  | settled =>
    obtain ⟨-, rfl⟩ := of_guard h
    exact hs.handshakes
  | reconnectPuts =>
    dsimp only [step] at h
    split at h
    · rename_i line hputs
      obtain ⟨q, hq, rfl⟩ := Option.map_eq_some_iff.mp h
      exact (hs.putLine (writeLine_isHidFrame line.printable) hq).afterPut line
    · cases h
  | answered =>
    obtain ⟨-, rfl⟩ := of_guard h
    exact hs.asksStatus
  | timesOut =>
    dsimp only [step] at h
    split at h
    · obtain rfl := Option.some.inj h
      split
      · exact hs.asksStatus
      · exact (hs.forceReconnect "handshake_timeout").goes nofun
    · cases h
  | readable data =>
    obtain ⟨-, rfl⟩ := of_guard h
    exact hs.receives data
  | readFails exc =>
    obtain ⟨-, rfl⟩ := of_guard h
    exact hs.stopReading.same rfl rfl rfl rfl rfl rfl
  | readerError =>
    obtain ⟨-, rfl⟩ := of_guard h
    exact (hs.forceReconnect "reader_error").same rfl rfl rfl rfl rfl rfl
  | writer result =>
    obtain ⟨-, hwrites⟩ := Option.ite_none_right_eq_some.mp h
    obtain ⟨⟨x, q⟩, hget, rfl⟩ := Option.map_eq_some_iff.mp hwrites
    have hitems := Fifo.getNowait_items hget
    have hrest : Sound { s with txQ := q } := hs.queue fun y hy _ => Or.inl (by simp [hitems, hy])
    exact hrest.writes (hs.queued x (by simp [hitems])) result
  | writerRetries =>
    obtain ⟨-, rfl⟩ := of_guard h
    exact hs.same rfl rfl rfl rfl rfl rfl

/-- Every report is written to the port that was open when it was handed in, or to none. With no
port held `_link_down` is set, so the reconnect loop does not sleep on it. -/
theorem no_stale_report {s : State cap} (h : Reachable step {} s) :
    (∀ port x, (port, x) ∈ s.written → isHidFrame x.payload = true → x.port = some port) ∧
      (s.ser = none → s.linkDown = true) ∧
      (s.reconnect = .sleepsUntilDown → s.ser ≠ none) := by
  have hs : Sound s := h.invariant start_sound fun _ _ _ ht _ hstep => step_sound ht hstep
  refine ⟨fun port x hx => hs.written (port, x) hx, hs.down, fun hsleeps hnone => ?_⟩
  have hdown := hs.down hnone
  rw [hs.asleep hsleeps] at hdown
  cases hdown

/-- A key goes down on the first port, which is lost with the key-up in the queue; the second port
opens and only a PING is written to it. -/
def unplugged : List Event :=
  [.start, .turn .opens, .readable (HostFrames.writeLine "EVT READY 1".toList),
    .enqueueNowait [0x01, 0, 0, 0x28, 0, 0, 0, 0, 0], .writer (.bytes 9),
    .enqueueNowait [0x01, 0, 0, 0, 0, 0, 0, 0, 0], .readFails "gone".toList, .readerError,
    .settled, .timesOut, .turn .opens, .settled, .reconnectPuts, .writer (.bytes 5)]

theorem no_stale_report_unplugged : ∃ s, execute step ({} : State 2) unplugged = some s ∧
    s.written = [(0, ⟨[0x01, 0, 0, 0x28, 0, 0, 0, 0, 0], some 0⟩),
      (1, ⟨HostFrames.writeLine "PING".toList, some 1⟩)] ∧
    (∀ port x, (port, x) ∈ s.written → isHidFrame x.payload = true → x.port = some port) ∧
      (s.ser = none → s.linkDown = true) ∧
      (s.reconnect = .sleepsUntilDown → s.ser ≠ none) :=
  ⟨_, rfl, rfl, no_stale_report
    (reachable_of_execute (show execute step ({} : State 2) unplugged = some _ from rfl))⟩

end PiHub.SerialLink

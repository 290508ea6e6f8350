import Mathlib.Data.List.ReduceOption
import PiHub.CommandReader

/-! How the command thread waits for bytes (main.c): the steps of `cmd_rx_get_byte` against those of
`cmd_uart_isr`, with the ring and the semaphore between them. The machine of the command reader, to
which a call is one step, is what it refines. -/
namespace PiHub.CommandWait
open Transition HostFrames CommandReader

/-- Where `cmd_rx_get_byte` is: not called, before the ring, before `k_sem_take`, waiting in it, or
timed out and before its last look. -/
inductive Stage where
  | idle
  | looking
  | taking
  | sleeping
  | lastLook
  deriving DecidableEq

/-- `cmdRxSem` is the count, 0 or 1; `inIsr` says that `cmd_uart_isr` is in its receive path, up to the
give. The clock and the deadline are in ticks. `arrived`, what went into the ring, and `results`, what
the calls have returned (`none` is false), are ghost. -/
structure RxWait where
  port : RxPort := .start
  cmdRxSem : Bool := false
  inIsr : Bool := false
  stage : Stage := .idle
  deadline : Nat := 0
  now : Nat := 0
  arrived : List UInt8 := []
  results : List (Option UInt8) := []
  deriving DecidableEq

/-- `ring_buf_get` has given the oldest byte: the call returns it. -/
def RxWait.got (w : RxWait) (ch : UInt8) : RxWait :=
  { w with
    port := { w.port with cmdRxRb := w.port.cmdRxRb.drop 1 }.become (w.port.thread.onByte ch)
    stage := .idle
    results := w.results ++ [some ch] }

/-- The call returns false. -/
def RxWait.gaveUp (w : RxWait) : RxWait :=
  { w with
    port := w.port.become w.port.thread.onTimeout
    stage := .idle
    results := w.results ++ [none] }

/-- The condition of the `while`. -/
def RxWait.look (w : RxWait) : RxWait :=
  match w.port.cmdRxRb.items with
  | [] => { w with stage := .taking }
  | ch :: _ => w.got ch

/-- `k_sem_take`, which does not wait beyond the deadline. -/
def RxWait.semTake (w : RxWait) : RxWait :=
  if w.cmdRxSem then { w with cmdRxSem := false, stage := .looking }
  else if w.deadline ≤ w.now then { w with stage := .lastLook }
  else { w with stage := .sleeping }

/-- The last look. -/
def RxWait.lookAgain (w : RxWait) : RxWait :=
  match w.port.cmdRxRb.items with
  | [] => w.gaveUp
  | ch :: _ => w.got ch

/-- `ring_buf_put` of what one `uart_fifo_read` gave; what does not fit is dropped. -/
def RxWait.put (w : RxWait) (bytes : List UInt8) : RxWait :=
  { w with
    port := { w.port with cmdRxRb := w.port.cmdRxRb.put bytes }
    arrived := w.arrived ++ bytes.take w.port.cmdRxRb.space }

/-- `k_sem_give`: it readies the thread that waits, or else counts up to the limit. -/
def RxWait.semGive (w : RxWait) : RxWait :=
  if w.stage = .sleeping then { w with stage := .looking, inIsr := false }
  else { w with cmdRxSem := true, inIsr := false }

/-- The thread calls, looks, takes, is timed out, looks again; the interrupt comes, puts, gives; the
clock goes on. -/
inductive Event where
  | calls (deadline : Nat)
  | looks
  | takes
  | timesOut
  | looksAgain
  | interrupts
  | puts (bytes : List UInt8)
  | gives
  | passes (ticks : Nat)
  deriving DecidableEq

def step (w : RxWait) : Event → Option RxWait
  | .calls deadline =>
    if w.stage = .idle then some { w with stage := .looking, deadline := deadline } else none
  | .looks => if w.stage = .looking then some w.look else none
  | .takes => if w.stage = .taking then some w.semTake else none
  | .timesOut =>
    if w.stage = .sleeping ∧ w.deadline ≤ w.now then some { w with stage := .lastLook } else none
  | .looksAgain => if w.stage = .lastLook then some w.lookAgain else none
  | .interrupts => if w.inIsr then none else some { w with inIsr := true }
  | .puts bytes => if w.inIsr then some (w.put bytes) else none
  | .gives => if w.inIsr then some w.semGive else none
  | .passes ticks => some { w with now := w.now + ticks }

/-- Outside the interrupt, a thread that has found the ring empty will be woken for what came since,
and one that waits has missed nothing. Every byte is returned or still in the ring. -/
structure Sound (w : RxWait) : Prop where
  taking : w.inIsr = false → w.stage = .taking → w.port.cmdRxRb.items ≠ [] → w.cmdRxSem = true
  sleeping : w.inIsr = false → w.stage = .sleeping → w.port.cmdRxRb.items = []
  late : w.stage = .lastLook → w.deadline ≤ w.now
  bytes : w.arrived = w.results.reduceOption ++ w.port.cmdRxRb.items

theorem sound_start : Sound {} := ⟨nofun, nofun, nofun, rfl⟩

theorem Sound.got {w : RxWait} (h : Sound w) {ch : UInt8} {rest : List UInt8}
    (hring : w.port.cmdRxRb.items = ch :: rest) : Sound (w.got ch) := by
  refine ⟨nofun, nofun, nofun, ?_⟩
  show w.arrived = (w.results ++ [some ch]).reduceOption ++ w.port.cmdRxRb.items.drop 1
  rw [h.bytes, hring, List.reduceOption_append, List.reduceOption_singleton, List.append_assoc]
  rfl

theorem Sound.gaveUp {w : RxWait} (h : Sound w) : Sound w.gaveUp := by
  refine ⟨nofun, nofun, nofun, ?_⟩
  show w.arrived = (w.results ++ [none]).reduceOption ++ w.port.cmdRxRb.items
  rw [h.bytes, List.reduceOption_append, List.reduceOption_singleton, Option.toList_none, List.append_nil]

theorem Sound.look {w : RxWait} (h : Sound w) : Sound w.look := by
  unfold RxWait.look
  split
  · next hring => exact ⟨fun _ _ hne => absurd hring hne, nofun, nofun, h.bytes⟩
  · next hring => exact h.got hring

/-- It goes to sleep on a count of 0 only: with a byte in the ring, that is in an interrupt. -/
theorem Sound.semTake {w : RxWait} (h : Sound w) (hstage : w.stage = .taking) : Sound w.semTake := by
  unfold RxWait.semTake
  split
  · exact ⟨nofun, nofun, nofun, h.bytes⟩
  · next hsem =>
    split
    · next hlate => exact ⟨nofun, nofun, fun _ => hlate, h.bytes⟩
    · refine ⟨nofun, fun hisr _ => ?_, nofun, h.bytes⟩
      by_contra hne
      exact hsem (h.taking hisr hstage hne)

theorem Sound.lookAgain {w : RxWait} (h : Sound w) : Sound w.lookAgain := by
  unfold RxWait.lookAgain
  split
  · exact h.gaveUp
  · next hring => exact h.got hring

theorem Sound.put {w : RxWait} (h : Sound w) (hisr : w.inIsr = true) (bytes : List UInt8) :
    Sound (w.put bytes) := by
  refine ⟨fun hnot => ?_, fun hnot => ?_, h.late, ?_⟩
  · exact absurd (hisr.symm.trans hnot) (by decide)
  · exact absurd (hisr.symm.trans hnot) (by decide)
  · show w.arrived ++ bytes.take _ = w.results.reduceOption ++ (w.port.cmdRxRb.put bytes).items
    rw [h.bytes, Fifo.put_items, List.append_assoc]

theorem Sound.semGive {w : RxWait} (h : Sound w) : Sound w.semGive := by
  unfold RxWait.semGive
  split
  · exact ⟨nofun, nofun, nofun, h.bytes⟩
  · next hawake => exact ⟨fun _ _ _ => rfl, fun _ hsleeping => absurd hsleeping hawake, h.late, h.bytes⟩

theorem sound_step {w v : RxWait} {e : Event} (h : Sound w) (hstep : step w e = some v) : Sound v := by
  cases e with
  | calls deadline =>
    obtain ⟨_, rfl⟩ := of_guard hstep
    exact ⟨nofun, nofun, nofun, h.bytes⟩
  | looks =>
    obtain ⟨_, rfl⟩ := of_guard hstep
    exact h.look
  | takes =>
    obtain ⟨hstage, rfl⟩ := of_guard hstep
    exact h.semTake hstage
  | timesOut =>
    obtain ⟨⟨_, hlate⟩, rfl⟩ := of_guard hstep
    exact ⟨nofun, nofun, fun _ => hlate, h.bytes⟩
  | looksAgain =>
    obtain ⟨_, rfl⟩ := of_guard hstep
    exact h.lookAgain
  | interrupts =>
    obtain ⟨_, hv⟩ := Option.ite_none_left_eq_some.mp hstep
    obtain rfl := Option.some.inj hv
    exact ⟨nofun, nofun, h.late, h.bytes⟩
  | puts bytes =>
    obtain ⟨hisr, rfl⟩ := of_guard hstep
    exact h.put hisr bytes
  | gives =>
    obtain ⟨_, rfl⟩ := of_guard hstep
    exact h.semGive
  | passes ticks =>
    obtain rfl := Option.some.inj hstep
    exact ⟨h.taking, h.sleeping, fun hlast => Nat.le_add_right_of_le (h.late hlast), h.bytes⟩

theorem sound_of_execute {w : RxWait} {es : List Event} (h : execute step {} es = some w) :
    Sound w :=
  (reachable_of_execute h).invariant sound_start fun _ _ _ ht _ hstep => sound_step ht hstep

/-- A look that does not end the call with false. -/
theorem look_results (w : RxWait) : w.look.results ≠ w.results ++ [none] := by
  unfold RxWait.look
  split
  · simp
  · simp [RxWait.got]

theorem semTake_results (w : RxWait) : w.semTake.results = w.results := by
  unfold RxWait.semTake
  split_ifs <;> rfl

theorem semGive_results (w : RxWait) : w.semGive.results = w.results := by
  unfold RxWait.semGive
  split_ifs <;> rfl

/-- The call returns false at its last look only, and only where that finds nothing. -/
theorem gives_up {w v : RxWait} {e : Event} (hstep : step w e = some v)
    (hfalse : v.results = w.results ++ [none]) :
    w.stage = .lastLook ∧ w.port.cmdRxRb.items = [] := by
  have hsame {u : RxWait} (h : u.results = w.results) : u.results ≠ w.results ++ [none] := by simp [h]
  cases e with
  | calls deadline =>
    obtain ⟨_, rfl⟩ := of_guard hstep
    exact absurd hfalse (hsame rfl)
  | looks =>
    obtain ⟨_, rfl⟩ := of_guard hstep
    exact absurd hfalse (look_results w)
  | takes =>
    obtain ⟨_, rfl⟩ := of_guard hstep
    exact absurd hfalse (hsame (semTake_results w))
  | timesOut =>
    obtain ⟨_, rfl⟩ := of_guard hstep
    exact absurd hfalse (hsame rfl)
  | looksAgain =>
    obtain ⟨hstage, rfl⟩ := of_guard hstep
    refine ⟨hstage, ?_⟩
    unfold RxWait.lookAgain at hfalse
    split at hfalse
    · assumption
    · simp [RxWait.got] at hfalse
  | interrupts =>
    obtain ⟨_, hv⟩ := Option.ite_none_left_eq_some.mp hstep
    obtain rfl := Option.some.inj hv
    exact absurd hfalse (hsame rfl)
  | puts bytes =>
    obtain ⟨_, rfl⟩ := of_guard hstep
    exact absurd hfalse (hsame rfl)
  | gives =>
    obtain ⟨_, rfl⟩ := of_guard hstep
    exact absurd hfalse (hsame (semGive_results w))
  | passes ticks =>
    obtain rfl := Option.some.inj hstep
    exact absurd hfalse (hsame rfl)

/-- A call is one step of the command reader, as is a put; the rest it does not see. -/
theorem step_simulates (w : RxWait) (e : Event) (v : RxWait) (hstep : step w e = some v) :
    v.port = w.port ∨ ∃ ev, w.port.step ev = some v.port := by
  have hgot {ch : UInt8} {rest : List UInt8} (hring : w.port.cmdRxRb.items = ch :: rest) :
      w.port.step .read = some (w.got ch).port := by
    rw [RxPort.step, hring]
    rfl
  cases e with
  | calls deadline =>
    obtain ⟨_, rfl⟩ := of_guard hstep
    exact Or.inl rfl
  | looks =>
    obtain ⟨_, rfl⟩ := of_guard hstep
    unfold RxWait.look
    split
    · exact Or.inl rfl
    · next hring => exact Or.inr ⟨.read, hgot hring⟩
  | takes =>
    obtain ⟨_, rfl⟩ := of_guard hstep
    unfold RxWait.semTake
    split_ifs <;> exact Or.inl rfl
  | timesOut =>
    obtain ⟨_, rfl⟩ := of_guard hstep
    exact Or.inl rfl
  | looksAgain =>
    obtain ⟨_, rfl⟩ := of_guard hstep
    unfold RxWait.lookAgain
    split
    · next hring => exact Or.inr ⟨.timeout, if_pos hring⟩
    · next hring => exact Or.inr ⟨.read, hgot hring⟩
  | interrupts =>
    obtain ⟨_, hv⟩ := Option.ite_none_left_eq_some.mp hstep
    obtain rfl := Option.some.inj hv
    exact Or.inl rfl
  | puts bytes =>
    obtain ⟨_, rfl⟩ := of_guard hstep
    exact Or.inr ⟨.isr bytes, rfl⟩
  | gives =>
    obtain ⟨_, rfl⟩ := of_guard hstep
    unfold RxWait.semGive
    split_ifs <;> exact Or.inl rfl
  | passes ticks =>
    obtain rfl := Option.some.inj hstep
    exact Or.inl rfl

/-- However its calls wait, the thread makes a run of the command reader. -/
theorem wait_refines {w : RxWait} {es : List Event} (h : execute step {} es = some w) :
    ∃ evs, execute RxPort.step .start evs = some w.port :=
  execute_simulates (f := RxWait.port) step_simulates h

/-- The thread never waits in `k_sem_take` with bytes in the ring, unless an interrupt is at work; the
calls have returned what came, in order and nothing twice, but for what is still in the ring; and a
call returns false only at a last look after the deadline that finds the ring empty. -/
theorem never_sleeps_on_data {w : RxWait} {es : List Event} (h : execute step {} es = some w) :
    (w.stage = .sleeping → w.inIsr = false → w.port.cmdRxRb.items = []) ∧
    w.arrived = w.results.reduceOption ++ w.port.cmdRxRb.items ∧
    ∀ e v, step w e = some v → v.results = w.results ++ [none] →
      w.stage = .lastLook ∧ w.port.cmdRxRb.items = [] ∧ w.deadline ≤ w.now := by
  have hsound := sound_of_execute h
  refine ⟨fun hstage hisr => hsound.sleeping hisr hstage, hsound.bytes, fun e v hstep hfalse => ?_⟩
  obtain ⟨hstage, hring⟩ := gives_up hstep hfalse
  exact ⟨hstage, hring, hsound.late hstage⟩

/-- A byte comes while the thread waits, and a second one as it goes for the first; the second call
finds it at once, and the third one spends the stale count, waits and is timed out. -/
def twoBytes : List Event :=
  [.calls 30, .looks, .takes, .interrupts, .puts [80], .gives, .interrupts, .puts [10], .gives, .looks,
    .calls 30, .looks, .calls 30, .looks, .takes, .looks, .takes, .passes 30, .timesOut]

theorem never_sleeps_on_data_sample : ∃ w v, execute step {} twoBytes = some w ∧
    w.arrived = [80, 10] ∧ step w .looksAgain = some v ∧ v.results = [some 80, some 10, none] ∧
      w.results.reduceOption ++ w.port.cmdRxRb.items = [80, 10] ∧ w.deadline ≤ w.now := by
  have hruns : execute step {} twoBytes = some _ := rfl
  obtain ⟨-, hbytes, hfalse⟩ := never_sleeps_on_data hruns
  exact ⟨_, _, hruns, rfl, rfl, rfl, hbytes.symm, (hfalse .looksAgain _ rfl rfl).2.2⟩

end PiHub.CommandWait

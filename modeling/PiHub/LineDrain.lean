import Mathlib.Logic.Function.Basic
import PiHub.LineOutput
import PiHub.WorkItems

/-! How the firmware's transmit ring empties (main.c): the threads that put lines into it, the
interrupt that takes them out, and the work item that starts the interrupt again after the port has
refused. The machine of the lines is what it refines. -/
namespace PiHub.LineDrain
open Transition LineOutput WorkItems

def cmdTxKickMs : Nat := 10

/-- Whatever calls `cmd_uart_kick_tx`: a thread that has put text, or the work item's handler. -/
inductive Party where
  | thread (t : Sender)
  | work
  deriving DecidableEq

/-- Where a party is in `cmd_uart_kick_tx`: not called, before the size is read, or before the
interrupt is enabled. -/
inductive Stage where
  | idle
  | looking
  | enabling
  deriving DecidableEq

/-- `accepting` records since when the port has taken whatever it was given, if it does. -/
structure Output where
  port : LinePort
  now : Nat
  txIrq : Bool
  cmdTxKick : Item
  stage : Party → Stage
  accepting : Option Nat

def Output.start (now : Nat) : Output where
  port := .start
  now := now
  txIrq := false
  cmdTxKick := {}
  stage := fun _ => .idle
  accepting := none

namespace Output

def ring (s : Output) : List UInt8 := s.port.cmdTxRb.items

def at' (s : Output) (p : Party) (stage : Stage) : Output :=
  { s with stage := Function.update s.stage p stage }

/-- The party's call ends. -/
def done (s : Output) (p : Party) : Output :=
  match p with
  | .thread _ => s.at' p .idle
  | .work => { s.at' p .idle with cmdTxKick := s.cmdTxKick.finish }

/-- A thread's `cmd_uart_send_str` up to its put. -/
def put (s : Output) (t : Sender) (port : LinePort) (bytes : List UInt8) : Output :=
  if s.port.cmdUartReady = false ∨ bytes = [] then { s with port := port }
  else { s.at' (.thread t) .looking with port := port }

/-- A round of the interrupt's loop: the driver takes `n` bytes, or none and is asked again later. -/
def fill (s : Output) (port : LinePort) (n : Nat) : Output :=
  if n = 0 then
    { s with txIrq := false, cmdTxKick := s.cmdTxKick.schedule s.now cmdTxKickMs }
  else { s with port := port }

end Output

/-- `ready`: the host has opened the port. `text`, `newline`: the puts of a thread's
`cmd_uart_send_line`. `looks`, `enables`: the steps of `cmd_uart_kick_tx`. `fills`, `disables`: rounds
of the interrupt's loop. `expires`, `starts`: the work item. `accepts`: the host begins or stops to
read. -/
inductive Event where
  | passes (ms : Nat)
  | ready
  | text (t : Sender) (l : TxLine)
  | newline (t : Sender)
  | looks (p : Party)
  | enables (p : Party)
  | fills (n : Nat)
  | disables
  | expires
  | starts
  | accepts (on : Bool)

def step (s : Output) : Event → Option Output
  | .passes ms => some { s with now := s.now + ms }
  | .ready => some { s with port := { s.port with cmdUartReady := true } }
  | .text t l =>
    if s.stage (.thread t) = .idle then
      (s.port.step (.text t l)).map fun port => s.put t port l.bytes
    else none
  | .newline t =>
    if s.stage (.thread t) = .idle then
      (s.port.step (.newline t)).map fun port => s.put t port [10]
    else none
  | .looks p =>
    if s.stage p = .looking then
      some (if s.port.cmdUartReady = false ∨ s.ring = [] then s.done p else s.at' p .enabling)
    else none
  | .enables p => if s.stage p = .enabling then some { s.done p with txIrq := true } else none
  | .fills n =>
    if s.txIrq = true ∧ s.ring ≠ [] ∧ n ≤ min 64 s.ring.length ∧ (n = 0 → s.accepting = none) then
      (s.port.step (.drain n)).map fun port => s.fill port n
    else none
  | .disables => if s.txIrq = true ∧ s.ring = [] then some { s with txIrq := false } else none
  | .expires =>
    if s.cmdTxKick.isDue s.now then some { s with cmdTxKick := s.cmdTxKick.expire } else none
  | .starts =>
    if s.cmdTxKick.queued = true ∧ s.cmdTxKick.running = false then
      some { s.at' .work .looking with cmdTxKick := s.cmdTxKick.start }
    else none
  | .accepts on => some { s with accepting := if on then some (s.accepting.getD s.now) else none }

/-- Since when the port has not refused, or now. -/
def Output.acceptingSince (s : Output) : Nat := s.accepting.getD s.now

/-! ### The lines -/

/-- A thread's put, as the machine of the lines has it. -/
theorem step_put {p q : LinePort} {t : Sender} {e : PortEvent} {bytes : List UInt8}
    (he : (∃ l : TxLine, e = .text t l ∧ bytes = l.bytes) ∨ e = .newline t ∧ bytes = [10])
    (h : p.step e = some q) :
    q.cmdUartReady = p.cmdUartReady ∧ q.cmdTxRb = (p.cmdUartSendStr bytes).cmdTxRb := by
  obtain ⟨l, rfl, rfl⟩ | ⟨rfl, rfl⟩ := he
  · simp only [LinePort.step] at h
    split at h
    · cases h
    · obtain rfl := Option.some.inj h
      exact ⟨LinePort.cmdUartSendStr_cmdUartReady p l.bytes, rfl⟩
  · simp only [LinePort.step] at h
    split at h
    · obtain rfl := Option.some.inj h
      exact ⟨LinePort.cmdUartSendStr_cmdUartReady p [10], rfl⟩
    · cases h

theorem sendStr_nothing {p : LinePort} {bytes : List UInt8}
    (h : p.cmdUartReady = false ∨ bytes = []) : p.cmdUartSendStr bytes = p := by
  unfold LinePort.cmdUartSendStr
  obtain hready | rfl := h
  · rw [if_pos (by rw [hready]; rfl)]
  · split
    · rfl
    · exact if_pos rfl

theorem Output.put_port (s : Output) (t : Sender) (port : LinePort) (bytes : List UInt8) :
    (s.put t port bytes).port = port := by
  unfold Output.put
  split <;> rfl

theorem Output.done_port (s : Output) (p : Party) : (s.done p).port = s.port := by cases p <;> rfl

/-- Every step is one of the lines' machine, or nothing to it. -/
theorem step_port {s t : Output} {e : Event} (h : step s e = some t) :
    t.port = s.port ∨ ∃ d, s.port.step d = some t.port := by
  cases e with
  | passes ms =>
    obtain rfl := Option.some.inj h
    exact Or.inl rfl
  | ready =>
    obtain rfl := Option.some.inj h
    exact Or.inr ⟨.ready, rfl⟩
  | text t l =>
    simp only [step] at h
    split at h
    · obtain ⟨port, hport, rfl⟩ := Option.map_eq_some_iff.mp h
      exact Or.inr ⟨_, by rw [Output.put_port]; exact hport⟩
    · cases h
  | newline t =>
    simp only [step] at h
    split at h
    · obtain ⟨port, hport, rfl⟩ := Option.map_eq_some_iff.mp h
      exact Or.inr ⟨_, by rw [Output.put_port]; exact hport⟩
    · cases h
  | looks p =>
    obtain ⟨-, rfl⟩ := of_guard h
    refine Or.inl ?_
    split
    · exact s.done_port p
    · rfl
  | enables p =>
    obtain ⟨-, rfl⟩ := of_guard h
    exact Or.inl (s.done_port p)
  | fills n =>
    simp only [step] at h
    split at h
    · obtain ⟨port, hport, rfl⟩ := Option.map_eq_some_iff.mp h
      unfold Output.fill
      split
      · exact Or.inl rfl
      · exact Or.inr ⟨_, hport⟩
    · cases h
  | disables =>
    obtain ⟨-, rfl⟩ := of_guard h
    exact Or.inl rfl
  | expires =>
    obtain ⟨-, rfl⟩ := of_guard h
    exact Or.inl rfl
  | starts =>
    obtain ⟨-, rfl⟩ := of_guard h
    exact Or.inl rfl
  | accepts on =>
    obtain rfl := Option.some.inj h
    exact Or.inl rfl

/-! ### No wake-up is lost -/

/-- Something will take out what waits in the ring. -/
def Output.Awake (s : Output) : Prop :=
  s.txIrq = true ∨ s.cmdTxKick.queued = true ∨ s.cmdTxKick.due.isSome = true ∨
    ∃ p, s.stage p ≠ .idle

structure Kept (s : Output) : Prop where
  ready : s.ring ≠ [] → s.port.cmdUartReady = true
  keeps : s.cmdTxKick.canceling = false
  since : ∀ T, s.accepting = some T → T ≤ s.now
  due : ∀ d, s.cmdTxKick.due = some d → d ≤ s.acceptingSince + cmdTxKickMs
  awake : s.ring ≠ [] → s.Awake

theorem kept_start (now : Nat) : Kept (.start now) where
  ready := fun h => absurd rfl h
  keeps := rfl
  since := fun T hT => by cases hT
  due := fun d hd => by cases hd
  awake := fun h => absurd rfl h

theorem Kept.passes {s : Output} (h : Kept s) (ms : Nat) : Kept { s with now := s.now + ms } := by
  refine { h with since := fun T hT => ?_, due := fun d hd => ?_ }
  · exact Nat.le_add_right_of_le (h.since T hT)
  · have hold := h.due d hd
    unfold Output.acceptingSince at hold ⊢
    cases hT : s.accepting with
    | none =>
      rw [hT] at hold
      dsimp only [Option.getD_none] at hold ⊢
      omega
    | some T =>
      rw [hT] at hold
      exact hold

theorem Kept.accepts {s : Output} (h : Kept s) (on : Bool) :
    Kept { s with accepting := if on then some (s.accepting.getD s.now) else none } := by
  have hsince : s.accepting.getD s.now ≤ s.now := by
    cases hT : s.accepting with
    | none => exact Nat.le_refl _
    | some T => exact h.since T hT
  refine { h with since := fun T hT => ?_, due := fun d hd => ?_ }
  · cases on with
    | true =>
      obtain rfl := Option.some.inj hT
      exact hsince
    | false => cases hT
  · have hold : d ≤ s.accepting.getD s.now + cmdTxKickMs := h.due d hd
    cases on with
    | true => exact hold
    | false => exact Nat.le_trans hold (Nat.add_le_add_right hsince _)

theorem Kept.put {s : Output} (h : Kept s) {t : Sender} {port : LinePort} {bytes : List UInt8}
    (hready : port.cmdUartReady = s.port.cmdUartReady)
    (hring : port.cmdTxRb = (s.port.cmdUartSendStr bytes).cmdTxRb) : Kept (s.put t port bytes) := by
  unfold Output.put
  split
  · next hnothing =>
    rw [sendStr_nothing hnothing] at hring
    have hsame : port.cmdTxRb.items = s.ring := congrArg Fifo.items hring
    exact { h with
      ready := fun hne => hready.trans (h.ready fun hnil => hne (hsame.trans hnil))
      awake := fun hne => h.awake fun hnil => hne (hsame.trans hnil) }
  · next hsends =>
    refine { h with ready := fun _ => ?_, awake := fun _ => Or.inr (Or.inr (Or.inr ⟨.thread t, ?_⟩)) }
    · rw [not_or, Bool.not_eq_false] at hsends
      exact hready.trans hsends.1
    · change Function.update s.stage (.thread t) .looking (.thread t) ≠ .idle
      rw [Function.update_self]
      nofun

theorem Kept.fill {s : Output} (h : Kept s) {port : LinePort} {n : Nat}
    (hn : n = 0 → s.accepting = none) (hirq : s.txIrq = true) (hport : s.port.step (.drain n) = some port) :
    Kept (s.fill port n) := by
  unfold Output.fill
  split
  · next hrefused =>
    have hsince : s.acceptingSince = s.now := by rw [Output.acceptingSince, hn hrefused]; rfl
    obtain ⟨hpending, hsame⟩ | harmed :=
      Item.schedule_cases h.keeps s.now (show 0 < cmdTxKickMs by decide)
    · rw [hsame]
      exact { h with awake := fun _ => Or.inr (hpending.imp_right Or.inl) }
    · rw [harmed]
      refine { h with due := fun d hd => ?_, awake := fun _ => Or.inr (Or.inr (Or.inl rfl)) }
      obtain rfl := Option.some.inj hd
      exact Nat.le_of_eq (congrArg (· + cmdTxKickMs) hsince.symm)
  · obtain rfl := Option.some.inj hport
    refine { h with ready := fun hne => h.ready fun hnil => hne ?_, awake := fun _ => Or.inl hirq }
    change s.port.cmdTxRb.items = [] at hnil
    change (s.port.cmdTxRb.drop n).items = []
    rw [Fifo.drop_items, hnil, List.drop_nil]

/-- A party whose call has ended leaves nothing asleep: it saw an empty ring, or enabled the
interrupt. -/
theorem Kept.done {s : Output} (h : Kept s) (p : Party) (txIrq : Bool)
    (hends : s.ring = [] ∨ txIrq = true) : Kept { s.done p with txIrq := txIrq } := by
  have hawake : s.ring ≠ [] → txIrq = true := fun hne => hends.resolve_left hne
  cases p with
  | thread t => exact { h with awake := fun hne => Or.inl (hawake hne) }
  | work => exact { h with keeps := rfl, awake := fun hne => Or.inl (hawake hne) }

theorem Kept.step {s t : Output} {e : Event} (h : Kept s) (hstep : LineDrain.step s e = some t) :
    Kept t := by
  cases e with
  | passes ms =>
    obtain rfl := Option.some.inj hstep
    exact h.passes ms
  | ready =>
    obtain rfl := Option.some.inj hstep
    exact { h with ready := fun _ => rfl }
  | text t l =>
    simp only [LineDrain.step] at hstep
    split at hstep
    · obtain ⟨port, hport, rfl⟩ := Option.map_eq_some_iff.mp hstep
      obtain ⟨hready, hring⟩ := step_put (Or.inl ⟨l, rfl, rfl⟩) hport
      exact h.put hready hring
    · cases hstep
  | newline t =>
    simp only [LineDrain.step] at hstep
    split at hstep
    · obtain ⟨port, hport, rfl⟩ := Option.map_eq_some_iff.mp hstep
      obtain ⟨hready, hring⟩ := step_put (Or.inr ⟨rfl, rfl⟩) hport
      exact h.put hready hring
    · cases hstep
  | looks p =>
    obtain ⟨-, rfl⟩ := of_guard hstep
    split
    · next hempty =>
      have hnil : s.ring = [] := by
        by_contra hne
        obtain hclosed | hnil := hempty
        · rw [h.ready hne] at hclosed
          cases hclosed
        · exact hne hnil
      cases p with
      | thread t => exact h.done (.thread t) s.txIrq (Or.inl hnil)
      | work => exact h.done .work s.txIrq (Or.inl hnil)
    · refine { h with awake := fun _ => Or.inr (Or.inr (Or.inr ⟨p, ?_⟩)) }
      change Function.update s.stage p .enabling p ≠ .idle
      rw [Function.update_self]
      nofun
  | enables p =>
    obtain ⟨-, rfl⟩ := of_guard hstep
    exact h.done p true (Or.inr rfl)
  | fills n =>
    simp only [LineDrain.step] at hstep
    split at hstep
    · next hfills =>
      obtain ⟨port, hport, rfl⟩ := Option.map_eq_some_iff.mp hstep
      exact h.fill hfills.2.2.2 hfills.1 hport
    · cases hstep
  | disables =>
    obtain ⟨⟨-, hnil⟩, rfl⟩ := of_guard hstep
    exact { h with awake := fun hne => absurd hnil hne }
  | expires =>
    obtain ⟨-, rfl⟩ := of_guard hstep
    have hqueued : s.cmdTxKick.expire.queued = true := Item.expire_queued h.keeps
    refine { h with keeps := ?_, due := fun d hd => ?_, awake := fun _ => Or.inr (Or.inl hqueued) }
    · exact (Item.expire_canceling _).trans h.keeps
    · rw [Item.expire_due] at hd
      cases hd
  | starts =>
    obtain ⟨-, rfl⟩ := of_guard hstep
    refine { h with awake := fun _ => Or.inr (Or.inr (Or.inr ⟨.work, ?_⟩)) }
    change Function.update s.stage .work .looking .work ≠ .idle
    rw [Function.update_self]
    nofun
  | accepts on =>
    obtain rfl := Option.some.inj hstep
    exact h.accepts on

/-- Nothing is left to be done before that time while the port takes what it is given. -/
def Output.Rests (s : Output) (time : Nat) : Prop :=
  (∀ p, s.stage p = .idle) ∧ s.txIrq = false ∧ s.cmdTxKick.Rests time

theorem kept_of_execute {start : Nat} {s : Output} {es : List Event}
    (h : execute step (.start start) es = some s) : Kept s :=
  (reachable_of_execute h).invariant (kept_start start) fun _ _ _ ht _ hstep => ht.step hstep

/-- With no call under way, what waits in the ring is about to be taken out. -/
theorem Kept.pending {s : Output} (h : Kept s) (hne : s.ring ≠ []) (hidle : ∀ p, s.stage p = .idle) :
    s.txIrq = true ∨ s.cmdTxKick.DueBy (s.acceptingSince + 10) := by
  obtain hirq | hqueued | hdue | ⟨p, hp⟩ := h.awake hne
  · exact Or.inl hirq
  · exact Or.inr (Or.inl hqueued)
  · obtain ⟨d, hd⟩ := Option.isSome_iff_exists.mp hdue
    exact Or.inr (Or.inr ⟨d, hd, h.due d hd⟩)
  · exact absurd (hidle p) hp

theorem Kept.acceptingSince_le {s : Output} (h : Kept s) : s.acceptingSince ≤ s.now := by
  unfold Output.acceptingSince
  cases hT : s.accepting with
  | none => exact Nat.le_refl _
  | some T => exact h.since T hT

/-- A port that takes what it is given has nothing left waiting after 10 ms. -/
theorem Kept.empties {s : Output} (h : Kept s) {T time : Nat} (hT : s.accepting = some T)
    (hrests : s.Rests time) (hne : s.ring ≠ []) : time ≤ T + 10 := by
  obtain ⟨hidle, hirq, hkick⟩ := hrests
  obtain htx | hdue := h.pending hne hidle
  · rw [hirq] at htx
    cases htx
  · have hle := hdue.le hkick
    rw [Output.acceptingSince, hT] at hle
    exact hle

/-- However the threads, the interrupt and the work item interleave, and however often the port
refuses: the lines are as their machine has them; while bytes wait in the ring and no call is under
way, the interrupt is enabled or the work item comes within 10 ms; and once the port takes what it is
given, no byte is left waiting after 10 ms. These 10 ms are the work item's delay and no more: `Rests`
has nothing that is due still to come, neither the interrupt nor the work queue being late. -/
theorem output_never_stalls {start : Nat} {s : Output} {es : List Event}
    (h : execute step (.start start) es = some s) :
    (∃ ds, execute LinePort.step .start ds = some s.port) ∧
      (s.ring ≠ [] → (∀ p, s.stage p = .idle) →
        s.txIrq = true ∨ s.cmdTxKick.DueBy (s.now + 10)) ∧
      ∀ T time, s.accepting = some T → s.Rests time → s.ring ≠ [] → time ≤ T + 10 := by
  have hkept := kept_of_execute h
  refine ⟨execute_simulates (f := Output.port) (fun _ _ _ => step_port) h, fun hne hidle => ?_,
    fun T time hT hrests hne => hkept.empties hT hrests hne⟩
  have hsince := hkept.acceptingSince_le
  exact (hkept.pending hne hidle).imp_right fun hdue => hdue.mono (by omega)

/-- The port refuses a line, and takes it when the work item has come. -/
def refused : List Event :=
  [.ready, .text .command pong, .looks (.thread .command), .enables (.thread .command),
    .newline .command, .looks (.thread .command), .fills 0, .enables (.thread .command), .fills 0,
    .accepts true, .passes 10, .expires, .starts, .looks .work, .enables .work, .fills 5, .disables]

theorem output_never_stalls_refused : ∃ s, execute step (.start 7) refused = some s ∧
    s.port.host.lines = [⟨pong.bytes, false⟩] ∧
    (∃ ds, execute LinePort.step .start ds = some s.port) ∧
      (s.ring ≠ [] → (∀ p, s.stage p = .idle) →
        s.txIrq = true ∨ s.cmdTxKick.DueBy (s.now + 10)) ∧
      ∀ T time, s.accepting = some T → s.Rests time → s.ring ≠ [] → time ≤ T + 10 :=
  ⟨_, rfl, rfl, output_never_stalls (show execute step (.start 7) refused = some _ from rfl)⟩

end PiHub.LineDrain

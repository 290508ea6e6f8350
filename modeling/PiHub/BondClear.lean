import PiHub.TextCommands
import PiHub.Transition
import PiHub.WorkItems

/-! `bond_clear_work` (main.c): the one work item that holding SW1 and the UNPAIR command share. -/
namespace PiHub.BondClear
open TextCommands Transition WorkItems

/-- Times are in ms. `pressedAt` records when the press was processed that no release has followed;
`owes`, that an UNPAIR has been answered OK and the handler has not started since; `runs`, how often
it has started. -/
structure State where
  now : Nat := 0
  bondClearWork : Item := {}
  sw1Pressed : Bool := false
  pressedAt : Option Nat := none
  owes : Bool := false
  runs : Nat := 0
  deriving DecidableEq

namespace State

def sw1ScheduleOrCancel (s : State) (pressed : Bool) : State :=
  if pressed then
    { s with
      sw1Pressed := true
      bondClearWork := s.bondClearWork.schedule s.now 5000
      pressedAt := some s.now }
  else { s with sw1Pressed := false, bondClearWork := s.bondClearWork.cancel, pressedAt := none }

/-- Each branch begins with an `atomic_cas` on `sw1_pressed`. -/
def sw1GpioIsr (s : State) (pressed : Bool) : State :=
  if s.sw1Pressed = pressed then s else s.sw1ScheduleOrCancel pressed

/-- What a command line does to the work item. -/
def command (s : State) : Command → State
  | .unpair => { s with bondClearWork := s.bondClearWork.schedule s.now 0, owes := true }
  | _ => s

/-- The memory after `sys_reboot`; the clock of the records goes on. -/
def reboot (s : State) : State := { now := s.now, runs := s.runs }

end State

/-- `expires`: the delay is over. `starts` and `ends`: the system work queue runs
`bond_clear_work_handler`, which reboots when the storage could be erased. -/
inductive Event where
  | sw1GpioIsr (pressed : Bool)
  | command (c : Command)
  | passes (ms : Nat)
  | expires
  | starts
  | ends (eraseErr : Int32)
  deriving DecidableEq

def step (s : State) : Event → Option State
  | .sw1GpioIsr pressed => some (s.sw1GpioIsr pressed)
  | .command c => some (s.command c)
  | .passes ms => some { s with now := s.now + ms }
  | .expires =>
    if s.bondClearWork.isDue s.now then some { s with bondClearWork := s.bondClearWork.expire }
    else none
  | .starts =>
    if s.bondClearWork.queued ∧ s.bondClearWork.running = false then
      some { s with bondClearWork := s.bondClearWork.start, owes := false, runs := s.runs + 1 }
    else none
  | .ends eraseErr =>
    if s.bondClearWork.running then
      some (if eraseErr = 0 then s.reboot else { s with bondClearWork := s.bondClearWork.finish })
    else none

/-- Time and the work queue alone. -/
def Event.ofKernel : Event → Bool
  | .sw1GpioIsr _ | .command _ => false
  | _ => true

/-- The handler that an UNPAIR was promised comes to run without any further help. -/
def Answered (s : State) : Prop :=
  s.owes = true → ∃ es t, (∀ e ∈ es, e.ofKernel = true) ∧ execute step s es = some t ∧ s.runs < t.runs

/-- No release of SW1 is processed between an UNPAIR and the start of the handler, and no UNPAIR
comes while a handler still runs that a release has cancelled. -/
def Undisturbed (s : State) : Event → Prop
  | .sw1GpioIsr false => s.sw1Pressed = true → s.owes = false
  | .command .unpair => s.bondClearWork.canceling = false
  | _ => True

/-- What has been promised is still pending. -/
def Kept (s : State) : Prop := s.owes = true → s.bondClearWork.Pending

theorem clear_step {s t : State} {e : Event} (hs : s.bondClearWork.Clear) (h : step s e = some t) :
    t.bondClearWork.Clear := by
  cases e with
  | sw1GpioIsr pressed =>
    obtain rfl := Option.some.inj h
    unfold State.sw1GpioIsr
    split
    · exact hs
    · cases pressed with
      | true => exact hs.schedule s.now 5000
      | false => exact fun _ => s.bondClearWork.not_pending_cancel
  | command c =>
    obtain rfl := Option.some.inj h
    cases c with
    | unpair => exact hs.schedule s.now 0
    | _ => exact hs
  | passes ms =>
    obtain rfl := Option.some.inj h
    exact hs
  | expires =>
    obtain ⟨hdue, rfl⟩ := of_guard h
    exact hs.expire (Item.isSome_of_isDue hdue)
  | starts =>
    obtain ⟨⟨hqueued, -⟩, rfl⟩ := of_guard h
    exact fun hcancel => absurd (Or.inl hqueued) (hs hcancel)
  | ends eraseErr =>
    obtain ⟨-, rfl⟩ := of_guard h
    split
    · exact nofun
    · exact nofun

/-- Only a release, or an UNPAIR that the kernel refuses, can break the promise. -/
theorem undisturbed_iff {s t : State} {e : Event} (hclear : s.bondClearWork.Clear) (hs : Kept s)
    (h : step s e = some t) : Undisturbed s e ↔ Kept t := by
  cases e with
  | sw1GpioIsr pressed =>
    obtain rfl := Option.some.inj h
    unfold State.sw1GpioIsr
    cases pressed with
    | true =>
      refine ⟨fun _ => ?_, fun _ => trivial⟩
      split
      · exact hs
      · intro howes
        change (s.bondClearWork.schedule s.now 5000).Pending
        rw [(hs howes).schedule]
        exact hs howes
    | false =>
      by_cases hpressed : s.sw1Pressed = true
      · rw [if_neg (by simp [hpressed])]
        have hidle : Kept (s.sw1ScheduleOrCancel false) ↔ (s.owes = true → False) :=
          forall_congr' fun _ => iff_false_intro s.bondClearWork.not_pending_cancel
        rw [hidle]
        simp [Undisturbed, hpressed]
      · rw [if_pos (by simpa using hpressed)]
        exact ⟨fun _ => hs, fun _ hcontra => absurd hcontra hpressed⟩
  | command c =>
    obtain rfl := Option.some.inj h
    cases c with
    | unpair =>
      refine ⟨fun hkeeps _ => Item.pending_schedule hkeeps s.now 0, fun hkept => ?_⟩
      refine Bool.eq_false_iff.mpr fun hcancel => hclear hcancel ?_
      have hpending : (s.bondClearWork.schedule s.now 0).Pending := hkept rfl
      rwa [Item.schedule_of_canceling hcancel] at hpending
    | _ => exact ⟨fun _ => hs, fun _ => trivial⟩
  | passes ms =>
    obtain rfl := Option.some.inj h
    exact ⟨fun _ => hs, fun _ => trivial⟩
  | expires =>
    obtain ⟨hdue, rfl⟩ := of_guard h
    exact ⟨fun _ _ => Item.Pending.expire hclear (Item.isSome_of_isDue hdue), fun _ => trivial⟩
  | starts =>
    obtain ⟨-, rfl⟩ := of_guard h
    exact ⟨fun _ => nofun, fun _ => trivial⟩
  | ends eraseErr =>
    obtain ⟨-, rfl⟩ := of_guard h
    refine ⟨fun _ => ?_, fun _ => trivial⟩
    split
    · exact nofun
    · exact hs

/-- Without a press or a command an idle item stays idle. -/
theorem idle_stays {s t : State} {es : List Event} (hidle : ¬ s.bondClearWork.Pending)
    (hkernel : ∀ e ∈ es, e.ofKernel = true) (h : execute step s es = some t) : t.runs = s.runs := by
  induction es generalizing s with
  | nil =>
    obtain rfl := Option.some.inj h
    rfl
  | cons e es ih =>
    obtain ⟨u, hu, hrest⟩ := Option.bind_eq_some_iff.mp h
    obtain ⟨hhead, htail⟩ := List.forall_mem_cons.mp hkernel
    cases e with
    | sw1GpioIsr pressed => cases hhead
    | command c => cases hhead
    | passes ms =>
      obtain rfl := Option.some.inj hu
      exact ih (s := { s with now := s.now + ms }) hidle htail hrest
    | expires =>
      obtain ⟨hdue, -⟩ := of_guard hu
      exact absurd (Or.inr (Item.isSome_of_isDue hdue)) hidle
    | starts =>
      obtain ⟨⟨hqueued, -⟩, -⟩ := of_guard hu
      exact absurd (Or.inl hqueued) hidle
    | ends eraseErr =>
      obtain ⟨-, rfl⟩ := of_guard hu
      by_cases herr : eraseErr = 0
      · rw [if_pos herr] at hrest
        exact ih (s := s.reboot) nofun htail hrest
      · rw [if_neg herr] at hrest
        exact ih (s := { s with bondClearWork := s.bondClearWork.finish }) hidle htail hrest

/-- A promise with nothing pending. -/
theorem not_answered {s : State} (howes : s.owes = true) (hidle : ¬ s.bondClearWork.Pending) :
    ¬ Answered s := by
  intro hanswered
  obtain ⟨es, t, hkernel, hrun, hlt⟩ := hanswered howes
  have := idle_stays hidle hkernel hrun
  omega

/-- A queued item starts once the work queue is free. -/
theorem queued_starts {s : State} (h : s.bondClearWork.queued = true) : ∃ es t,
    (∀ e ∈ es, e.ofKernel = true) ∧ execute step s es = some t ∧ s.runs < t.runs := by
  cases hrunning : s.bondClearWork.running with
  | true =>
    refine ⟨[.ends (-1), .starts], { s with
      bondClearWork := s.bondClearWork.finish.start, owes := false, runs := s.runs + 1 },
      by simp [Event.ofKernel], ?_, Nat.lt_succ_self _⟩
    simp [execute, step, hrunning, h, Item.finish]
  | false =>
    refine ⟨[.starts], { s with
      bondClearWork := s.bondClearWork.start, owes := false, runs := s.runs + 1 },
      by simp [Event.ofKernel], ?_, Nat.lt_succ_self _⟩
    simp [execute, step, hrunning, h]

theorem answered_iff_kept {s : State} (hclear : s.bondClearWork.Clear) : Answered s ↔ Kept s := by
  refine ⟨fun hall howes => not_not.mp fun hidle => not_answered howes hidle hall,
    fun hkept howes => ?_⟩
  obtain hqueued | hdelayed := hkept howes
  · exact queued_starts hqueued
  · obtain ⟨due, hdue⟩ := Option.isSome_iff_exists.mp hdelayed
    have hqueued : s.bondClearWork.expire.queued = true :=
      (Item.Pending.expire hclear hdelayed).resolve_right (by rw [Item.expire_due]; nofun)
    obtain ⟨es, t, hkernel, hrun, hlt⟩ := queued_starts
      (s := { s with now := s.now + due, bondClearWork := s.bondClearWork.expire }) hqueued
    refine ⟨.passes due :: .expires :: es, t, by simpa [Event.ofKernel] using hkernel, ?_, hlt⟩
    rw [execute_cons (t := { s with now := s.now + due }) rfl, execute_cons ?_, hrun]
    simp [step, Item.isDue, hdue]

/-- SW1 has been held since the work item was scheduled, 5 s before it is due. -/
structure Held (s : State) : Prop where
  pressed : s.sw1Pressed = s.pressedAt.isSome
  delayed : ∀ due, s.bondClearWork.due = some due → ∃ p, s.pressedAt = some p ∧ p + 5000 = due
  queued : s.bondClearWork.queued = true → ∃ p, s.pressedAt = some p ∧ p + 5000 ≤ s.now

/-- While SW1 is not held nothing is scheduled. -/
theorem Held.idle {s : State} (h : Held s) (hnone : s.pressedAt = none) :
    s.bondClearWork.due = none ∧ s.bondClearWork.queued = false := by
  constructor
  · refine Option.eq_none_iff_forall_ne_some.mpr fun due hdue => ?_
    obtain ⟨p, hp, -⟩ := h.delayed due hdue
    cases hnone.symm.trans hp
  · refine Bool.eq_false_iff.mpr fun hqueued => ?_
    obtain ⟨p, hp, -⟩ := h.queued hqueued
    cases hnone.symm.trans hp

/-- A press, with nothing pending before it. -/
theorem held_press {s : State} (hdue : s.bondClearWork.due = none)
    (hqueued : s.bondClearWork.queued = false) : Held (s.sw1ScheduleOrCancel true) := by
  obtain hkept | hset := s.bondClearWork.schedule_delayed s.now (show 0 < 5000 by decide)
  · refine ⟨rfl, fun due h => ?_, fun h => ?_⟩
    · simp [State.sw1ScheduleOrCancel, hkept, hdue] at h
    · simp [State.sw1ScheduleOrCancel, hkept, hqueued] at h
  · refine ⟨rfl, fun due h => ⟨s.now, rfl, ?_⟩, fun h => ?_⟩
    · simpa [State.sw1ScheduleOrCancel, hset] using h
    · simp [State.sw1ScheduleOrCancel, hset, hqueued] at h

theorem held_step {s t : State} {e : Event} (hs : Held s) (he : e ≠ .command .unpair)
    (h : step s e = some t) : Held t := by
  cases e with
  | sw1GpioIsr pressed =>
    obtain rfl := Option.some.inj h
    unfold State.sw1GpioIsr
    split
    · exact hs
    · rename_i hedge
      cases pressed with
      | true =>
        have hnone : s.pressedAt = none := by
          have hreleased : s.sw1Pressed = false := by simpa using Ne.symm hedge
          have hpressed := hs.pressed
          rw [hreleased] at hpressed
          exact Option.isNone_iff_eq_none.mp (Option.isSome_eq_false_iff.mp hpressed.symm)
        obtain ⟨hdue, hqueued⟩ := hs.idle hnone
        exact held_press hdue hqueued
      | false => exact ⟨rfl, nofun, nofun⟩
  | command c =>
    obtain rfl := Option.some.inj h
    cases c with
    | unpair => exact absurd rfl he
    | _ => exact hs
  | passes ms =>
    obtain rfl := Option.some.inj h
    refine ⟨hs.pressed, hs.delayed, fun hqueued => ?_⟩
    obtain ⟨p, hp, hle⟩ := hs.queued hqueued
    exact ⟨p, hp, Nat.le_trans hle (Nat.le_add_right ..)⟩
  | expires =>
    obtain ⟨hdue, rfl⟩ := of_guard h
    refine ⟨hs.pressed, fun due hset => by simp at hset, fun _ => ?_⟩
    unfold Item.isDue at hdue
    obtain ⟨due, hset, hle⟩ := Option.any_eq_true .. |>.mp hdue
    obtain ⟨p, hp, rfl⟩ := hs.delayed due hset
    exact ⟨p, hp, of_decide_eq_true hle⟩
  | starts =>
    obtain ⟨-, rfl⟩ := of_guard h
    exact ⟨hs.pressed, hs.delayed, nofun⟩
  | ends eraseErr =>
    obtain ⟨-, rfl⟩ := of_guard h
    split
    · exact ⟨rfl, nofun, nofun⟩
    · exact ⟨hs.pressed, hs.delayed, hs.queued⟩

/-- Everywhere in a run an acknowledged UNPAIR is answered by the handler, exactly if no release of
SW1 is processed in between and no UNPAIR comes while a cancelled handler runs. Without an UNPAIR the
handler starts only with SW1 held for 5 s. -/
theorem unpair_answered_iff {s : State} {es : List Event} (h : execute step {} es = some s) :
    (Along step Undisturbed {} es ↔
      ∀ before after t, es = before ++ after → execute step {} before = some t → Answered t) ∧
    (.command .unpair ∉ es → ∀ t, step s .starts = some t →
      ∃ p, s.pressedAt = some p ∧ p + 5000 ≤ s.now) := by
  have hclear {es : List Event} {t : State} (ht : execute step {} es = some t) :
      t.bondClearWork.Clear :=
    (reachable_of_execute ht).invariant (P := fun s => s.bondClearWork.Clear) nofun
      fun _ _ _ hu _ hstep => clear_step hu hstep
  refine ⟨?_, fun hnone t ht => ?_⟩
  · rw [along_iff_forall_states (P := fun s => s.bondClearWork.Clear ∧ Kept s)
      (fun s e t hs ht => ?_) h ⟨nofun, nofun⟩]
    · refine forall₅_congr fun before after t _ ht => ?_
      rw [answered_iff_kept (hclear ht)]
      exact and_iff_right (hclear ht)
    · rw [undisturbed_iff hs.1 hs.2 ht]
      exact (and_iff_right (clear_step hs.1 ht)).symm
  · have hother : ∀ e ∈ es, e ≠ .command .unpair := by
      rintro e he rfl
      exact hnone he
    have hheld : Held s := (reachableBy_of_execute h (along_of_mem hother _)).invariant
      ⟨rfl, nofun, nofun⟩ fun _ _ _ hu he hstep => held_step hu he hstep
    exact hheld.queued (of_guard ht).1.1

/-- SW1 is held for 5 s, and an UNPAIR comes meanwhile. -/
def heldWhileUnpaired : List Event :=
  [.sw1GpioIsr true, .passes 1000, .command .unpair, .passes 4000, .expires]

theorem unpair_answered_held : ∃ s, execute step {} heldWhileUnpaired = some s ∧
    (Along step Undisturbed {} heldWhileUnpaired ↔
      ∀ before after t, heldWhileUnpaired = before ++ after →
        execute step {} before = some t → Answered t) ∧
    (.command .unpair ∉ heldWhileUnpaired → ∀ t, step s .starts = some t →
      ∃ p, s.pressedAt = some p ∧ p + 5000 ≤ s.now) :=
  ⟨_, rfl, unpair_answered_iff rfl⟩

/-- The UNPAIR comes while SW1 is held, and SW1 is let go within the 5 s. -/
def letGo : List Event := [.sw1GpioIsr true, .passes 1000, .command .unpair, .sw1GpioIsr false]

/-- SW1 is let go while the handler runs, and the UNPAIR comes before it has ended. -/
def letGoLate : List Event :=
  [.sw1GpioIsr true, .passes 5000, .expires, .starts, .sw1GpioIsr false, .command .unpair]

theorem unpair_cancelled : (∃ s, execute step {} letGo = some s ∧ ¬ Answered s) ∧
    ∃ s, execute step {} letGoLate = some s ∧ ¬ Answered s :=
  ⟨⟨_, rfl, not_answered rfl nofun⟩, ⟨_, rfl, not_answered rfl nofun⟩⟩

end PiHub.BondClear

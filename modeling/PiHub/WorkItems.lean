import Mathlib.Tactic.SplitIfs

/-! Delayable work items of a kernel: the timeout and the place on the queue that one item has, the
calls that change them, and by when an item runs if time does not pass what is due. -/
namespace PiHub.WorkItems

/-- An item may wait for its timeout, be on the queue and run, all at once. -/
structure Item where
  /-- When the timeout ends, if one is set. -/
  due : Option Nat := none
  queued : Bool := false
  running : Bool := false
  /-- It has been cancelled while it runs, and cannot be submitted before it ends. -/
  canceling : Bool := false
  deriving DecidableEq

namespace Item

def submit (w : Item) : Item := if w.canceling then w else { w with queued := true }

/-- Set the timeout, or submit at once. -/
def arm (w : Item) (now delay : Nat) : Item :=
  if delay = 0 then w.submit else { w with due := some (now + delay) }

/-- `k_work_schedule`, which leaves a pending item alone. -/
def schedule (w : Item) (now delay : Nat) : Item :=
  if w.due.isSome || w.queued || w.canceling then w else w.arm now delay

/-- `k_work_reschedule` replaces the timeout; a place on the queue is kept. -/
def reschedule (w : Item) (now delay : Nat) : Item := { w with due := none }.arm now delay

/-- `k_work_cancel_delayable`. -/
def cancel (w : Item) : Item := { w with due := none, queued := false, canceling := w.running }

/-- Whether the timeout has run out. -/
def isDue (w : Item) (now : Nat) : Bool := w.due.any fun due => due ≤ now

/-- The end of the timeout. -/
def expire (w : Item) : Item := { w with due := none }.submit

/-- The queue's thread takes the item. -/
def start (w : Item) : Item := { w with queued := false, running := true }

def finish (w : Item) : Item := { w with running := false, canceling := false }

/-- It is on the queue, or will be by that time. -/
def DueBy (w : Item) (bound : Nat) : Prop := w.queued = true ∨ ∃ due, w.due = some due ∧ due ≤ bound

/-- It is not with the queue, and nothing of it is due before that time. -/
def Rests (w : Item) (time : Nat) : Prop :=
  w.queued = false ∧ w.running = false ∧ ∀ due, w.due = some due → time ≤ due

instance (w : Item) (time : Nat) : Decidable (w.Rests time) :=
  have : Decidable (∀ due, w.due = some due → time ≤ due) :=
    decidable_of_iff (∀ due ∈ w.due, time ≤ due) Iff.rfl
  inferInstanceAs (Decidable (_ ∧ _ ∧ _))

/-- Only a running item is being cancelled. -/
def Sound (w : Item) : Prop := w.canceling = true → w.running = true

/-- It waits for its timeout or is on the queue. -/
def Pending (w : Item) : Prop := w.queued = true ∨ w.due.isSome = true

/-- An item that is being cancelled waits for nothing. Only `reschedule` breaks this. -/
def Clear (w : Item) : Prop := w.canceling = true → ¬ w.Pending

@[simp] theorem arm_running (w : Item) (now delay : Nat) : (w.arm now delay).running = w.running := by
  unfold arm submit
  split_ifs <;> rfl

@[simp] theorem arm_canceling (w : Item) (now delay : Nat) :
    (w.arm now delay).canceling = w.canceling := by
  unfold arm submit
  split_ifs <;> rfl

@[simp] theorem schedule_running (w : Item) (now delay : Nat) :
    (w.schedule now delay).running = w.running := by
  unfold schedule
  split_ifs
  · rfl
  · exact arm_running w now delay

@[simp] theorem schedule_canceling (w : Item) (now delay : Nat) :
    (w.schedule now delay).canceling = w.canceling := by
  unfold schedule
  split_ifs
  · rfl
  · exact arm_canceling w now delay

@[simp] theorem reschedule_running (w : Item) (now delay : Nat) :
    (w.reschedule now delay).running = w.running := arm_running _ now delay

@[simp] theorem reschedule_canceling (w : Item) (now delay : Nat) :
    (w.reschedule now delay).canceling = w.canceling := arm_canceling _ now delay

@[simp] theorem expire_running (w : Item) : w.expire.running = w.running := by
  unfold expire submit
  split_ifs <;> rfl

@[simp] theorem expire_canceling (w : Item) : w.expire.canceling = w.canceling := by
  unfold expire submit
  split_ifs <;> rfl

@[simp] theorem expire_due (w : Item) : w.expire.due = none := by
  unfold expire submit
  split_ifs <;> rfl

/-! ### What is kept -/

theorem Sound.reschedule {w : Item} (h : w.Sound) (now delay : Nat) :
    (w.reschedule now delay).Sound := by
  simpa [Sound] using h

theorem Sound.expire {w : Item} (h : w.Sound) : w.expire.Sound := by simpa [Sound] using h

theorem sound_cancel (w : Item) : w.cancel.Sound := id

theorem sound_start (w : Item) : w.start.Sound := fun _ => rfl

theorem sound_finish (w : Item) : w.finish.Sound := nofun

theorem Pending.schedule {w : Item} (h : w.Pending) (now delay : Nat) : w.schedule now delay = w := by
  refine if_pos ?_
  obtain hqueued | hdue := h
  · simp [hqueued]
  · simp [hdue]

theorem schedule_of_canceling {w : Item} (h : w.canceling = true) (now delay : Nat) :
    w.schedule now delay = w := by
  refine if_pos ?_
  simp [h]

/-- Unless it is being cancelled, an item that is scheduled is pending. -/
theorem pending_schedule {w : Item} (h : w.canceling = false) (now delay : Nat) :
    (w.schedule now delay).Pending := by
  by_cases hpending : w.Pending
  · rw [hpending.schedule]
    exact hpending
  · obtain ⟨hqueued, hdue⟩ := not_or.mp hpending
    unfold schedule arm submit
    rw [if_neg (by simp [hqueued, hdue, h])]
    split
    · rw [h]
      exact Or.inl rfl
    · exact Or.inr rfl

/-- Scheduling sets the timeout, or leaves what there is of one. -/
theorem schedule_delayed (w : Item) (now : Nat) {delay : Nat} (hdelay : 0 < delay) :
    w.schedule now delay = w ∨ w.schedule now delay = { w with due := some (now + delay) } := by
  unfold schedule arm
  split
  · exact Or.inl rfl
  · exact Or.inr (if_neg (Nat.pos_iff_ne_zero.mp hdelay))

theorem Pending.expire {w : Item} (hclear : w.Clear) (h : w.due.isSome = true) :
    w.expire.Pending := by
  have hkeeps : w.canceling = false := Bool.eq_false_iff.mpr fun hcancel => hclear hcancel (Or.inr h)
  exact Or.inl (by simp [Item.expire, submit, hkeeps])

theorem isSome_of_isDue {w : Item} {now : Nat} (h : w.isDue now = true) : w.due.isSome = true := by
  unfold isDue at h
  cases hdue : w.due with
  | none => simp [hdue] at h
  | some due => rfl

theorem not_pending_cancel (w : Item) : ¬ w.cancel.Pending := nofun

theorem Clear.schedule {w : Item} (h : w.Clear) (now delay : Nat) : (w.schedule now delay).Clear := by
  intro hcancel
  rw [schedule_canceling] at hcancel
  rw [schedule_of_canceling hcancel]
  exact h hcancel

theorem Clear.expire {w : Item} (h : w.Clear) (hdue : w.due.isSome = true) : w.expire.Clear := by
  intro hcancel
  rw [expire_canceling] at hcancel
  exact absurd (Or.inr hdue) (h hcancel)

/-- A timeout is set even while the item runs. -/
theorem dueBy_reschedule (w : Item) (now : Nat) {delay : Nat} (h : 0 < delay) :
    (w.reschedule now delay).DueBy (now + delay) := by
  refine Or.inr ⟨now + delay, ?_, Nat.le_refl _⟩
  unfold reschedule arm
  rw [if_neg (Nat.pos_iff_ne_zero.mp h)]

/-- A pending item is left alone; any other is set to its timeout. -/
theorem schedule_cases {w : Item} (hkeeps : w.canceling = false) (now : Nat) {delay : Nat}
    (hdelay : 0 < delay) :
    (w.Pending ∧ w.schedule now delay = w) ∨
      w.schedule now delay = { w with due := some (now + delay) } := by
  by_cases hpending : w.Pending
  · exact Or.inl ⟨hpending, hpending.schedule now delay⟩
  · obtain ⟨hqueued, hdue⟩ := not_or.mp hpending
    unfold schedule arm
    rw [if_neg (by simp [hqueued, hdue, hkeeps]), if_neg (Nat.pos_iff_ne_zero.mp hdelay)]
    exact Or.inr rfl

/-- An item that ends its timeout while it is being cancelled is lost, and no other. -/
theorem expire_queued {w : Item} (h : w.canceling = false) : w.expire.queued = true := by
  simp [expire, submit, h]

theorem DueBy.mono {w : Item} {b c : Nat} (h : w.DueBy b) (hle : b ≤ c) : w.DueBy c := by
  obtain hqueued | ⟨due, hdue, hb⟩ := h
  · exact Or.inl hqueued
  · exact Or.inr ⟨due, hdue, Nat.le_trans hb hle⟩

/-- Time that does not pass what is due has not passed the bound. -/
theorem DueBy.le {w : Item} {bound time : Nat} (h : w.DueBy bound) (hrests : w.Rests time) :
    time ≤ bound := by
  obtain ⟨hqueued, -, hdue⟩ := hrests
  obtain hq | ⟨due, hd, hle⟩ := h
  · simp [hqueued] at hq
  · exact Nat.le_trans (hdue due hd) hle

end Item
end PiHub.WorkItems

import PiHub.Fifo

/-! A worker that serves a bounded queue one job at a time, each for a limited time: the order of the
jobs, and how long one takes from being handed in to its end. -/
namespace PiHub.JobQueue

/-- A job and when it was handed in. -/
structure Queued (α : Type*) where
  job : α
  since : Nat
  deriving DecidableEq

/-- A job that is served, and when it is given up. -/
structure Serving (α : Type*) where
  queued : Queued α
  deadline : Nat
  deriving DecidableEq

structure Server (α : Type*) (cap : Nat) where
  now : Nat
  waiting : Fifo (Queued α) cap
  serving : Option (Serving α)
  deriving DecidableEq

namespace Server
variable {α : Type*} {cap limit : Nat}

def start (now : Nat) : Server α cap := ⟨now, .empty, none⟩

/-- The job waits, or is dropped where the queue is full. -/
def submit (s : Server α cap) (x : α) : Server α cap :=
  { s with waiting := (s.waiting.putNowait ⟨x, s.now⟩).getD s.waiting }

/-- What the queue takes of a job that is handed in. -/
def accepts (s : Server α cap) (x : α) : List (Queued α) :=
  if s.waiting.items.length < cap then [⟨x, s.now⟩] else []

/-- An idle worker takes the oldest job. -/
def take (limit : Nat) (s : Server α cap) : Option (Queued α × Server α cap) :=
  if s.serving.isNone then
    s.waiting.getNowait.map fun next =>
      (next.1, { s with waiting := next.2, serving := some ⟨next.1, s.now + limit⟩ })
  else none

def finish (s : Server α cap) : Server α cap := { s with serving := none }

def pass (s : Server α cap) (ms : Nat) : Server α cap := { s with now := s.now + ms }

/-- The job served and those that wait, the oldest first. -/
def pending (s : Server α cap) : List (Queued α) :=
  (s.serving.map Serving.queued).toList ++ s.waiting.items

@[simp] theorem submit_now (s : Server α cap) (x : α) : (s.submit x).now = s.now := rfl
@[simp] theorem submit_serving (s : Server α cap) (x : α) : (s.submit x).serving = s.serving := rfl
@[simp] theorem finish_serving (s : Server α cap) : s.finish.serving = none := rfl
@[simp] theorem finish_waiting (s : Server α cap) : s.finish.waiting = s.waiting := rfl
@[simp] theorem finish_now (s : Server α cap) : s.finish.now = s.now := rfl

theorem submit_waiting (s : Server α cap) (x : α) :
    (s.submit x).waiting.items = s.waiting.items ++ s.accepts x := by
  unfold submit accepts
  cases hput : s.waiting.putNowait ⟨x, s.now⟩ with
  | none =>
    have hfull := Fifo.putNowait_full hput
    rw [if_neg (by omega), List.append_nil]
    rfl
  | some q =>
    obtain ⟨hlt, hitems⟩ := Fifo.putNowait_items hput
    rw [if_pos hlt]
    exact hitems

theorem mem_accepts {s : Server α cap} {x : α} {q : Queued α} (h : q ∈ s.accepts x) :
    s.waiting.items.length < cap ∧ q = ⟨x, s.now⟩ := by
  unfold accepts at h
  split at h
  · next hlt => exact ⟨hlt, List.mem_singleton.mp h⟩
  · cases h

/-- Everything that taking a job does. -/
theorem of_take {s t : Server α cap} {q : Queued α} (h : s.take limit = some (q, t)) :
    s.serving = none ∧ s.waiting.items = q :: t.waiting.items ∧ t.now = s.now ∧
      t.serving = some ⟨q, s.now + limit⟩ := by
  unfold take at h
  split at h
  · next hidle =>
    obtain ⟨⟨next, rest⟩, hget, heq⟩ := Option.map_eq_some_iff.mp h
    obtain ⟨rfl, rfl⟩ := Prod.mk.inj heq
    exact ⟨Option.isNone_iff_eq_none.mp hidle, Fifo.getNowait_items hget, rfl, rfl⟩
  · cases h

theorem submit_pending (s : Server α cap) (x : α) :
    (s.submit x).pending = s.pending ++ s.accepts x := by
  rw [pending, submit_waiting, submit_serving, pending, List.append_assoc]

theorem take_pending {s t : Server α cap} {q : Queued α} (h : s.take limit = some (q, t)) :
    s.pending = t.pending := by
  obtain ⟨hidle, hitems, -, hserving⟩ := of_take h
  simp [pending, hidle, hitems, hserving]

theorem finish_pending {s : Server α cap} {job : Serving α} (h : s.serving = some job) :
    s.pending = job.queued :: s.finish.pending := by
  simp [pending, h]

/-- Until when the worker is taken up. -/
def busyUntil (s : Server α cap) : Nat :=
  match s.serving with
  | none => s.now
  | some job => job.deadline

/-- No job takes longer than those that can be ahead of it and itself are given. -/
structure InTime (limit : Nat) (s : Server α cap) : Prop where
  now_le : s.now ≤ s.busyUntil
  busy_le : s.busyUntil ≤ s.now + limit
  served : ∀ job, s.serving = some job → job.deadline ≤ job.queued.since + (cap + 1) * limit
  waits : ∀ i q, s.waiting.items[i]? = some q →
    s.busyUntil + (i + 1) * limit ≤ q.since + (cap + 1) * limit

theorem inTime_start (now : Nat) : InTime limit (start now : Server α cap) where
  now_le := Nat.le_refl _
  busy_le := Nat.le_add_right _ _
  served := fun job hjob => by cases hjob
  waits := fun i q hq => by cases hq

theorem InTime.submit {s : Server α cap} (h : InTime limit s) (x : α) : InTime limit (s.submit x) := by
  refine { h with waits := fun i q hq => ?_ }
  rw [submit_waiting] at hq
  by_cases hi : i < s.waiting.items.length
  · rw [List.getElem?_append_left hi] at hq
    exact h.waits i q hq
  · rw [List.getElem?_append_right (by omega)] at hq
    obtain ⟨hlt, rfl⟩ := mem_accepts (List.mem_of_getElem? hq)
    have hplace : i < (s.waiting.items ++ s.accepts x).length := by
      have hsome := (List.getElem?_eq_some_iff.mp hq).1
      rw [List.length_append]
      omega
    have hcount : (s.accepts x).length ≤ 1 := by
      unfold accepts
      split <;> simp
    have hcap : i + 1 ≤ cap := by
      rw [List.length_append] at hplace
      omega
    have hmul : (i + 1) * limit ≤ cap * limit := Nat.mul_le_mul_right limit hcap
    have hbusy := h.busy_le
    have hall : (cap + 1) * limit = cap * limit + limit := Nat.succ_mul cap limit
    change s.busyUntil + (i + 1) * limit ≤ s.now + (cap + 1) * limit
    omega

theorem InTime.take {s t : Server α cap} {q : Queued α} (h : InTime limit s)
    (htake : s.take limit = some (q, t)) : InTime limit t := by
  obtain ⟨hidle, hitems, hnow, hserving⟩ := of_take htake
  have hfree : s.busyUntil = s.now := by rw [busyUntil, hidle]
  have hbusy : t.busyUntil = s.now + limit := by rw [busyUntil, hserving]
  have hfirst := h.waits 0 q (by rw [hitems]; rfl)
  rw [hfree] at hfirst
  refine ⟨by omega, by omega, fun job hjob => ?_, fun i q' hq' => ?_⟩
  · obtain rfl := Option.some.inj (hserving.symm.trans hjob)
    simpa using hfirst
  · have hnext := h.waits (i + 1) q' (by rw [hitems]; exact hq')
    have hmul : (i + 1 + 1) * limit = (i + 1) * limit + limit := Nat.succ_mul _ _
    rw [hfree] at hnext
    omega

theorem InTime.finish {s : Server α cap} (h : InTime limit s) : InTime limit s.finish where
  now_le := Nat.le_refl _
  busy_le := Nat.le_add_right _ _
  served := fun job hjob => by cases hjob
  waits := fun i q hq => by
    have hbefore := h.waits i q hq
    have hnow := h.now_le
    change s.now + (i + 1) * limit ≤ q.since + (cap + 1) * limit
    omega

/-- Time passes while a job is served, or nothing is to be done. -/
def Rests (s : Server α cap) (time : Nat) : Prop :=
  match s.serving with
  | none => s.waiting.items = []
  | some job => time ≤ job.deadline

theorem InTime.pass {s : Server α cap} (h : InTime limit s) {ms : Nat} (hrests : s.Rests (s.now + ms)) :
    InTime limit (s.pass ms) := by
  unfold Rests at hrests
  cases hserving : s.serving with
  | none =>
    rw [hserving] at hrests
    refine ⟨?_, ?_, fun job hjob => ?_, fun i q hq => ?_⟩
    · simp [busyUntil, Server.pass, hserving]
    · simp [busyUntil, Server.pass, hserving]
    · exact absurd (hserving.symm.trans hjob) nofun
    · change s.waiting.items[i]? = some q at hq
      rw [hrests] at hq
      cases hq
  | some job =>
    rw [hserving] at hrests
    have hbusy : (s.pass ms).busyUntil = s.busyUntil := by
      simp only [busyUntil, Server.pass, hserving]
    have hdeadline : s.busyUntil = job.deadline := by rw [busyUntil, hserving]
    have hle := h.busy_le
    refine ⟨?_, ?_, h.served, fun i q hq => ?_⟩
    · rw [hbusy, hdeadline]
      exact hrests
    · rw [hbusy]
      change s.busyUntil ≤ s.now + ms + limit
      omega
    · rw [hbusy]
      exact h.waits i q hq

/-- What has not ended yet was handed in no longer ago than the limits allow. -/
theorem InTime.pending {s : Server α cap} (h : InTime limit s) {q : Queued α} (hq : q ∈ s.pending) :
    s.now ≤ q.since + (cap + 1) * limit := by
  have hnow := h.now_le
  obtain hserved | hwaits := List.mem_append.mp hq
  · obtain ⟨job, hjob, rfl⟩ := Option.map_eq_some_iff.mp (Option.mem_toList.mp hserved)
    have hdeadline : s.busyUntil = job.deadline := by rw [busyUntil, hjob]
    have hend := h.served job hjob
    omega
  · obtain ⟨i, hi⟩ := List.mem_iff_getElem?.mp hwaits
    have hend := h.waits i q hi
    omega

instance [DecidableEq α] (s : Server α cap) (time : Nat) : Decidable (s.Rests time) := by
  unfold Rests
  split <;> infer_instance

end Server
end PiHub.JobQueue

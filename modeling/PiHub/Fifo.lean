import Mathlib.Data.List.Basic

/-! Bounded first-in first-out buffers: a put that keeps what fits, and removal of the oldest
items. -/
namespace PiHub

/-- The queued items, oldest first, never more than the capacity. -/
structure Fifo (α : Type*) (cap : Nat) where
  items : List α
  fits : items.length ≤ cap
  deriving DecidableEq

namespace Fifo
variable {α : Type*} {cap : Nat}

def empty : Fifo α cap := ⟨[], Nat.zero_le _⟩

/-- How many more items the buffer can take. -/
def space (q : Fifo α cap) : Nat := cap - q.items.length

/-- Append as many of the items as fit and drop the rest. -/
def put (q : Fifo α cap) (xs : List α) : Fifo α cap where
  items := q.items ++ xs.take q.space
  fits := by
    have h := q.fits
    simp only [space, List.length_append, List.length_take]
    omega

/-- Remove the `n` oldest items, or all of them. -/
def drop (q : Fifo α cap) (n : Nat) : Fifo α cap where
  items := q.items.drop n
  fits := by have h := q.fits; simp only [List.length_drop]; omega

/-- Append the item, or nothing where the buffer is full. -/
def putNowait (q : Fifo α cap) (x : α) : Option (Fifo α cap) :=
  if h : q.items.length < cap then
    some ⟨q.items ++ [x], by simp only [List.length_append, List.length_singleton]; omega⟩
  else none

/-- The oldest item and the buffer without it. -/
def getNowait (q : Fifo α cap) : Option (α × Fifo α cap) := q.items.head?.map fun x => (x, q.drop 1)

/-- Append the item; a full buffer gives up its oldest item for it. -/
def putDropOldest (q : Fifo α cap) (x : α) : Fifo α cap :=
  match q.putNowait x with
  | some q' => q'
  | none => ((q.drop 1).putNowait x).getD (q.drop 1)

@[simp] theorem put_items (q : Fifo α cap) (xs : List α) :
    (q.put xs).items = q.items ++ xs.take q.space := rfl
@[simp] theorem drop_items (q : Fifo α cap) (n : Nat) : (q.drop n).items = q.items.drop n := rfl

/-- Nothing is lost by a put that fits. -/
theorem put_items_of_fits {q : Fifo α cap} {xs : List α} (h : xs.length ≤ q.space) :
    (q.put xs).items = q.items ++ xs := by
  rw [put_items, List.take_of_length_le h]

/-- Dropping first what a put lacks in space makes room for anything up to the capacity. -/
theorem space_drop (q : Fifo α cap) (n : Nat) :
    (q.drop n).space = cap - (q.items.length - n) := by
  simp [space]

@[ext] theorem ext {q r : Fifo α cap} (h : q.items = r.items) : q = r := by
  cases q
  cases r
  cases h
  rfl

theorem putNowait_items {q q' : Fifo α cap} {x : α} (h : q.putNowait x = some q') :
    q.items.length < cap ∧ q'.items = q.items ++ [x] := by
  unfold putNowait at h
  split at h
  · rename_i hlt
    cases h
    exact ⟨hlt, rfl⟩
  · cases h

theorem putNowait_full {q : Fifo α cap} {x : α} (h : q.putNowait x = none) :
    q.items.length = cap := by
  unfold putNowait at h
  split at h
  · cases h
  · have hfits := q.fits
    omega

theorem getNowait_items {q q' : Fifo α cap} {x : α} (h : q.getNowait = some (x, q')) :
    q.items = x :: q'.items := by
  unfold getNowait at h
  obtain ⟨y, hy, heq⟩ := Option.map_eq_some_iff.mp h
  cases heq
  obtain ⟨ys, hys⟩ := List.head?_eq_some_iff.mp hy
  simp [hys]

/-- Putting items one by one, leaving out those that find the buffer full. -/
theorem foldl_putNowait (q : Fifo α cap) (xs : List α) :
    xs.foldl (fun r x => (r.putNowait x).getD r) q = q.put xs := by
  induction xs generalizing q with
  | nil => exact ext (by simp)
  | cons x xs ih =>
    rw [List.foldl_cons, ih]
    apply ext
    cases hput : q.putNowait x with
    | none =>
      have hfull := putNowait_full hput
      simp [space, hfull]
    | some r =>
      obtain ⟨hlt, hr⟩ := putNowait_items hput
      have hspace : q.space = r.space + 1 := by
        simp only [space, hr, List.length_append, List.length_singleton]
        omega
      simp [hr, hspace]

/-- The newest items that fit, the appended one among them. -/
theorem putDropOldest_items (hcap : 0 < cap) (q : Fifo α cap) (x : α) :
    (q.putDropOldest x).items = (q.items ++ [x]).drop (q.items.length + 1 - cap) := by
  unfold putDropOldest
  cases hput : q.putNowait x with
  | some r =>
    obtain ⟨hlt, hr⟩ := putNowait_items hput
    have hnone : q.items.length + 1 - cap = 0 := by omega
    simp [hr, hnone]
  | none =>
    have hfull := putNowait_full hput
    have hone : q.items.length + 1 - cap = 1 := by omega
    cases hnext : (q.drop 1).putNowait x with
    | none =>
      have hagain := putNowait_full hnext
      simp only [drop_items, List.length_drop] at hagain
      omega
    | some r =>
      rw [hone, List.drop_append_of_le_length (by omega), Option.getD_some]
      exact (putNowait_items hnext).2

/-- What is dropped is dropped from what was there, the order kept. -/
theorem putDropOldest_sublist (q : Fifo α cap) (x : α) :
    (q.putDropOldest x).items.Sublist (q.items ++ [x]) := by
  unfold putDropOldest
  cases hput : q.putNowait x with
  | some r =>
    rw [(putNowait_items hput).2]
  | none =>
    cases hnext : (q.drop 1).putNowait x with
    | some r =>
      rw [Option.getD_some, (putNowait_items hnext).2, drop_items]
      exact (List.drop_sublist 1 q.items).append_right [x]
    | none =>
      rw [Option.getD_none, drop_items]
      exact (List.drop_sublist 1 q.items).trans (List.sublist_append_left _ _)

theorem foldl_putDropOldest_sublist (q : Fifo α cap) (xs : List α) :
    (xs.foldl putDropOldest q).items.Sublist (q.items ++ xs) := by
  induction xs generalizing q with
  | nil => simp
  | cons x xs ih =>
    have hrest := ih (q.putDropOldest x)
    have hfirst := (q.putDropOldest_sublist x).append_right xs
    rw [List.append_assoc, List.singleton_append] at hfirst
    exact hrest.trans hfirst

theorem mem_putDropOldest {q : Fifo α cap} {x y : α} (h : y ∈ (q.putDropOldest x).items) :
    y ∈ q.items ∨ y = x := by
  unfold putDropOldest at h
  cases hput : q.putNowait x with
  | some r =>
    rw [hput] at h
    simpa [(putNowait_items hput).2] using h
  | none =>
    rw [hput] at h
    cases hnext : (q.drop 1).putNowait x with
    | some r =>
      rw [hnext, Option.getD_some, (putNowait_items hnext).2, drop_items, List.mem_append,
        List.mem_singleton] at h
      exact h.imp_left List.mem_of_mem_drop
    | none =>
      rw [hnext, Option.getD_none, drop_items] at h
      exact Or.inl (List.mem_of_mem_drop h)

theorem mem_foldl_putDropOldest {q : Fifo α cap} {xs : List α} {y : α}
    (h : y ∈ (xs.foldl putDropOldest q).items) : y ∈ q.items ∨ y ∈ xs := by
  induction xs generalizing q with
  | nil => exact Or.inl h
  | cons x xs ih =>
    rw [List.mem_cons]
    rcases ih h with hq | hxs
    · exact (mem_putDropOldest hq).imp_right Or.inl
    · exact Or.inr (Or.inr hxs)

theorem foldl_putDropOldest_items (hcap : 0 < cap) (q : Fifo α cap) (xs : List α) :
    (xs.foldl putDropOldest q).items =
      (q.items ++ xs).drop (q.items.length + xs.length - cap) := by
  induction xs generalizing q with
  | nil =>
    have hfits := q.fits
    simp [Nat.sub_eq_zero_of_le hfits]
  | cons x xs ih =>
    have hfits := q.fits
    have hle : q.items.length + 1 - cap ≤ (q.items ++ [x]).length := by simp
    have hcount : q.items.length + 1 - cap +
        (q.items.length + 1 - (q.items.length + 1 - cap) + xs.length - cap) =
          q.items.length + (xs.length + 1) - cap := by
      omega
    rw [List.foldl_cons, ih, putDropOldest_items hcap, ← List.drop_append_of_le_length hle,
      List.drop_drop, List.length_drop, List.length_append, List.length_singleton, hcount,
      List.append_assoc, List.singleton_append, List.length_cons]

end Fifo
end PiHub

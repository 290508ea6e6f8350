import Mathlib.Data.List.DropRight
import Mathlib.Data.List.Forall2

/-! A list read item by item: an item may be no entry, or one that cannot be read, and the entries
go into a list or to the end of a bounded queue. -/
namespace PiHub.Reads
variable {α β ε : Type*}

/-- The entries that can be read, in their order. -/
def readable (read : α → Option (Except ε β)) (items : List α) : List β :=
  items.filterMap fun item => (read item).bind Except.toOption

/-- No entry among the items fails to be read. -/
def AllRead (read : α → Option (Except ε β)) (items : List α) : Prop :=
  ∀ item ∈ items, ∀ result ∈ read item, result.isOk = true

/-- The entries, or the failure of the first that cannot be read. -/
def readAll (read : α → Option (Except ε β)) : List α → Except ε (List β)
  | [] => .ok []
  | item :: items =>
    match read item with
    | none => readAll read items
    | some (.error e) => .error e
    | some (.ok entry) => (readAll read items).map (entry :: ·)

/-- `append` on a deque with a `maxlen`. -/
def append (maxlen : Nat) (xs : List β) (x : β) : List β := (xs ++ [x]).rtake maxlen

/-- Each entry is appended as it is read, up to the first that cannot be read. -/
def appendAll (maxlen : Nat) (read : α → Option (Except ε β)) : List α → List β → List β × Except ε Unit
  | [], entries => (entries, .ok ())
  | item :: items, entries =>
    match read item with
    | none => appendAll maxlen read items entries
    | some (.error e) => (entries, .error e)
    | some (.ok entry) => appendAll maxlen read items (append maxlen entries entry)

theorem rtake_append_rtake (n : Nat) (xs ys : List β) :
    (xs.rtake n ++ ys).rtake n = (xs ++ ys).rtake n := by
  simp only [List.rtake_eq_reverse_take_reverse, List.reverse_append, List.reverse_reverse,
    List.take_append, List.take_take]
  congr 3
  omega

theorem rtake_of_le {n : Nat} {xs : List β} (h : xs.length ≤ n) : xs.rtake n = xs := by
  rw [List.rtake, Nat.sub_eq_zero_of_le h, List.drop_zero]

variable {read : α → Option (Except ε β)} {item : α} {items : List α}

theorem allRead_nil : AllRead read [] := nofun

theorem allRead_cons : AllRead read (item :: items) ↔
    (∀ result ∈ read item, result.isOk = true) ∧ AllRead read items := List.forall_mem_cons

theorem not_allRead_cons {e : ε} (h : read item = some (.error e)) : ¬ AllRead read (item :: items) := by
  intro hall
  cases (allRead_cons.mp hall).1 _ h

theorem readable_cons_none (h : read item = none) :
    readable read (item :: items) = readable read items := by
  simp [readable, h]

theorem readable_cons_ok {entry : β} (h : read item = some (.ok entry)) :
    readable read (item :: items) = entry :: readable read items := by
  simp [readable, h, Except.toOption]

theorem readAll_of_allRead (h : AllRead read items) : readAll read items = .ok (readable read items) := by
  induction items with
  | nil => rfl
  | cons item items ih =>
    obtain ⟨hitem, hitems⟩ := allRead_cons.mp h
    rw [readAll]
    cases hread : read item with
    | none => rw [ih hitems, readable_cons_none hread]
    | some result =>
      cases result with
      | error e => exact absurd h (not_allRead_cons hread)
      | ok entry =>
        rw [ih hitems, readable_cons_ok hread]
        rfl

theorem readAll_isOk_iff : (readAll read items).isOk = true ↔ AllRead read items := by
  constructor
  · intro h
    induction items with
    | nil => exact allRead_nil
    | cons item items ih =>
      rw [readAll] at h
      cases hread : read item with
      | none =>
        rw [hread] at h
        exact allRead_cons.mpr ⟨fun r hr => (by rw [hread] at hr; cases hr), ih h⟩
      | some result =>
        rw [hread] at h
        cases result with
        | error e => cases h
        | ok entry =>
          refine allRead_cons.mpr ⟨fun r hr => ?_, ih ?_⟩
          · rw [hread] at hr
            cases hr
            rfl
          · cases hrest : readAll read items with
            | error e =>
              rw [hrest] at h
              cases h
            | ok entries => rfl
  · intro h
    rw [readAll_of_allRead h]
    rfl

/-- When no entry fails the queue has the last of all that was there and is read. -/
theorem appendAll_of_allRead {maxlen : Nat} {entries : List β} (hlen : entries.length ≤ maxlen)
    (h : AllRead read items) : appendAll maxlen read items entries =
      ((entries ++ readable read items).rtake maxlen, .ok ()) := by
  have hrun (entries : List β) : appendAll maxlen read items (entries.rtake maxlen) =
      ((entries ++ readable read items).rtake maxlen, .ok ()) := by
    induction items generalizing entries with
    | nil =>
      rw [show readable read [] = ([] : List β) from rfl, List.append_nil]
      rfl
    | cons item items ih =>
      obtain ⟨hitem, hitems⟩ := allRead_cons.mp h
      rw [appendAll]
      cases hread : read item with
      | none => rw [ih hitems, readable_cons_none hread]
      | some result =>
        cases result with
        | error e => exact absurd h (not_allRead_cons hread)
        | ok entry =>
          dsimp only
          rw [append, rtake_append_rtake, ih hitems, readable_cons_ok hread, List.append_assoc]
          rfl
  have hall := hrun entries
  rwa [rtake_of_le hlen] at hall

theorem appendAll_isOk_iff {maxlen : Nat} {entries : List β} :
    (appendAll maxlen read items entries).2.isOk = true ↔ AllRead read items := by
  induction items generalizing entries with
  | nil => exact ⟨fun _ => allRead_nil, fun _ => rfl⟩
  | cons item items ih =>
    rw [appendAll, allRead_cons]
    cases hread : read item with
    | none => simp [ih]
    | some result =>
      cases result with
      | error e => exact ⟨nofun, fun h => nomatch h.1 _ rfl⟩
      | ok entry => exact ih.trans ⟨fun h => ⟨fun _ hr => Option.some.inj hr ▸ rfl, h⟩, And.right⟩

/-! ### Items written for entries -/

section
variable {γ : Type*} {f : γ → Except ε α} {g : γ → β} {xs : List γ}

theorem readAll_some_eq_ok : readAll (fun x => some (f x)) xs = .ok items ↔
    List.Forall₂ (fun x item => f x = .ok item) xs items := by
  induction xs generalizing items with
  | nil => cases items <;> simp [readAll]
  | cons x xs ih =>
    rw [readAll]
    cases hx : f x with
    | error e => cases items <;> simp [hx]
    | ok item =>
      cases hrest : readAll (fun x => some (f x)) xs with
      | error e =>
        cases items with
        | nil => simp [Except.map]
        | cons item' items =>
          have hfails : ¬ List.Forall₂ (fun x item => f x = .ok item) xs items := by
            rw [← ih, hrest]
            exact nofun
          simp [Except.map, hfails]
      | ok rest =>
        cases items with
        | nil => simp [Except.map]
        | cons item' items => simp [Except.map, hx, ← ih, hrest]

/-- Items of which each is read as the entry it was written for give these entries. -/
theorem readable_of_forall₂ (h : List.Forall₂ (fun x item => read item = some (.ok (g x))) xs items) :
    AllRead read items ∧ readable read items = xs.map g := by
  induction h with
  | nil => exact ⟨allRead_nil, rfl⟩
  | cons hread _ ih =>
    refine ⟨allRead_cons.mpr ⟨fun result hresult => ?_, ih.1⟩, ?_⟩
    · rw [Option.mem_def, hread] at hresult
      cases hresult
      rfl
    · rw [readable_cons_ok hread, ih.2, List.map_cons]

end

/-- Two lists that agree place by place, each with its numbers. -/
theorem forall₂_zipIdx {γ : Type*} {R : γ → α → Prop} {xs : List γ} (h : List.Forall₂ R xs items)
    (n : Nat) : List.Forall₂ (fun x item => R x.1 item.1 ∧ x.2 = item.2) (xs.zipIdx n) (items.zipIdx n) := by
  induction h generalizing n with
  | nil => exact .nil
  | cons hR _ ih => exact .cons ⟨hR, rfl⟩ (ih (n + 1))

end PiHub.Reads

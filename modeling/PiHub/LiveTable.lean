import Mathlib.Data.List.AList

/-! Tables of live items: an insertion-ordered dictionary that has, under its key, every item
of one kind that is alive, as items are created, taken out and ended. -/
namespace PiHub.LiveTable
variable {κ ι τ : Type*} {table : AList fun _ : κ => ι} {keyOf : τ → Option κ}
  {alive : ι → Option τ}

/-- The values, the oldest entry's first. -/
def values (table : AList fun _ : κ => ι) : List ι := table.entries.reverse.map fun e => e.2

theorem eq_empty_of_forall_notMem (h : ∀ key, key ∉ table) : table = ∅ := by
  apply AList.ext
  apply List.eq_nil_iff_forall_not_mem.mpr
  intro e he
  exact h e.1 (AList.mem_keys.mpr (List.mem_map_of_mem he))

variable [DecidableEq κ]

theorem mem_values {t : ι} : t ∈ values table ↔ ∃ key, table.lookup key = some t := by
  simp only [values, List.mem_map, List.mem_reverse]
  constructor
  · intro hmem
    obtain ⟨⟨key, t'⟩, hentry, rfl⟩ := hmem
    exact ⟨key, AList.mem_lookup_iff.mpr hentry⟩
  · intro hmem
    obtain ⟨key, hlookup⟩ := hmem
    exact ⟨⟨key, t⟩, AList.mem_lookup_iff.mp hlookup, rfl⟩

/-- The table has, under its key, each live item of its kind and nothing else. -/
def Agrees (table : AList fun _ : κ => ι) (keyOf : τ → Option κ) (alive : ι → Option τ) : Prop :=
  ∀ key t, table.lookup key = some t ↔ (alive t).bind keyOf = some key

theorem Agrees.kind (h : Agrees table keyOf alive) {key : κ} {t : ι}
    (hlookup : table.lookup key = some t) : ∃ kind, alive t = some kind ∧ keyOf kind = some key :=
  Option.bind_eq_some_iff.mp ((h key t).mp hlookup)

variable [DecidableEq ι]

/-- An item is taken out of the table as it ends. -/
theorem Agrees.erase (h : Agrees table keyOf alive) {key : κ} {t : ι}
    (hlookup : table.lookup key = some t) :
    Agrees (table.erase key) keyOf fun t' => if t' = t then none else alive t' := by
  intro key' t'
  by_cases hsame : key' = key
  · subst hsame
    rw [AList.lookup_erase]
    by_cases ht : t' = t
    · simp [ht]
    · have hother : ¬ (alive t').bind keyOf = some key' := by
        intro halive
        exact ht (Option.some.inj (((h key' t').mpr halive).symm.trans hlookup))
      simpa [ht] using hother
  · rw [AList.lookup_erase_ne hsame, h key' t']
    by_cases ht : t' = t
    · subst ht
      simp [(h key t').mp hlookup, Ne.symm hsame]
    · simp [ht]

/-- An item that is not of the table's kind ends. -/
theorem Agrees.drop (h : Agrees table keyOf alive) {t : ι} (hnone : (alive t).bind keyOf = none) :
    Agrees table keyOf fun t' => if t' = t then none else alive t' := by
  intro key t'
  rw [h key t']
  by_cases ht : t' = t
  · simp [ht, hnone]
  · simp [ht]

/-- A new item is put under a key that is free. -/
theorem Agrees.insert (h : Agrees table keyOf alive) {key : κ} {t : ι} {kind : τ}
    (hfree : table.lookup key = none) (hnew : alive t = none) (hkind : keyOf kind = some key) :
    Agrees (table.insert key t) keyOf fun t' => if t' = t then some kind else alive t' := by
  intro key' t'
  by_cases hsame : key' = key
  · subst hsame
    rw [AList.lookup_insert]
    by_cases ht : t' = t
    · simp [ht, hkind]
    · have hother : ¬ (alive t').bind keyOf = some key' := by
        intro halive
        simp [(h key' t').mpr halive] at hfree
      simp [ht, hother, Ne.symm ht]
  · rw [AList.lookup_insert_ne hsame, h key' t']
    by_cases ht : t' = t
    · simp [ht, hnew, hkind, Ne.symm hsame]
    · simp [ht]

/-- A new item is not of the table's kind. -/
theorem Agrees.skip (h : Agrees table keyOf alive) {t : ι} {kind : τ}
    (hnew : alive t = none) (hkind : keyOf kind = none) :
    Agrees table keyOf fun t' => if t' = t then some kind else alive t' := by
  intro key t'
  rw [h key t']
  by_cases ht : t' = t
  · simp [ht, hnew, hkind]
  · simp [ht]

/-- The table is emptied as all its items end. -/
theorem Agrees.clear (h : Agrees table keyOf alive) :
    Agrees ∅ keyOf fun t => if t ∈ values table then none else alive t := by
  intro key t
  by_cases ht : t ∈ values table
  · simp [ht]
  · have hnone : ¬ (alive t).bind keyOf = some key := by
      intro halive
      exact ht (mem_values.mpr ⟨key, (h key t).mpr halive⟩)
    simpa [ht] using hnone

/-- Items that are not of the table's kind end. -/
theorem Agrees.keep (h : Agrees table keyOf alive) {ts : List ι}
    (hother : ∀ t ∈ ts, (alive t).bind keyOf = none) :
    Agrees table keyOf fun t => if t ∈ ts then none else alive t := by
  intro key t
  rw [h key t]
  by_cases ht : t ∈ ts
  · simp [ht, hother t ht]
  · simp [ht]

end PiHub.LiveTable

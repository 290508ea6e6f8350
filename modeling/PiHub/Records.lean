import Mathlib.Data.List.Nodup

/-! Association lists read as records: under distinct keys the order does not matter, and of the
entries laid over a record a check that looks at each field by itself keeps those that pass alone. -/
namespace PiHub.Records
variable {κ α : Type*} [BEq κ] [LawfulBEq κ]

theorem lookup_eq_some_iff_mem {l : List (κ × α)} (h : (l.map Prod.fst).Nodup) {k : κ} {v : α} :
    l.lookup k = some v ↔ (k, v) ∈ l := by
  induction l with
  | nil => simp
  | cons e l ih =>
    obtain ⟨k', v'⟩ := e
    obtain ⟨hnew, hnodup⟩ := List.nodup_cons.mp h
    rw [List.lookup_cons, List.mem_cons]
    by_cases hkey : k = k'
    · subst hkey
      have hnone : (k, v) ∉ l := by
        intro hmem
        exact hnew (List.mem_map.mpr ⟨_, hmem, rfl⟩)
      simp [hnone, eq_comm]
    · simp [beq_false_of_ne hkey, ih hnodup, hkey]

theorem lookup_cons_ne {l : List (κ × α)} {k k' : κ} (h : k' ≠ k) (v : α) :
    ((k, v) :: l).lookup k' = l.lookup k' := by
  rw [List.lookup_cons, beq_false_of_ne h]

theorem lookup_perm {l l' : List (κ × α)} (h : (l.map Prod.fst).Nodup) (hperm : l.Perm l') (k : κ) :
    l.lookup k = l'.lookup k := by
  ext v
  rw [lookup_eq_some_iff_mem h, lookup_eq_some_iff_mem ((hperm.map _).nodup_iff.mp h), hperm.mem_iff]

/-- The entries are laid over the record one after the other, each unless the record would then not
pass. -/
def keepValid (ok : List (κ × α) → Bool) (good entries : List (κ × α)) : List (κ × α) :=
  entries.foldl (fun good e => if ok (e :: good) then e :: good else good) good

/-- The check of a record looks at each field by itself. -/
def FieldWise (ok : List (κ × α) → Bool) (keys : List κ) (okAt : κ → α → Bool) : Prop :=
  ∀ m : List (κ × α), (∀ k ∈ keys, (m.lookup k).isSome = true) →
    (ok m = true ↔ ∀ k ∈ keys, ∀ v ∈ m.lookup k, okAt k v = true)

/-- Every field of the record is there and passes. -/
def AllPass (keys : List κ) (okAt : κ → α → Bool) (m : List (κ × α)) : Prop :=
  ∀ k ∈ keys, ∃ v ∈ m.lookup k, okAt k v = true

variable {ok : List (κ × α) → Bool} {keys : List κ} {okAt : κ → α → Bool}

omit [LawfulBEq κ] in
theorem FieldWise.ok_iff (h : FieldWise ok keys okAt) {m : List (κ × α)}
    (hthere : ∀ k ∈ keys, (m.lookup k).isSome = true) : ok m = true ↔ AllPass keys okAt m := by
  rw [h m hthere]
  refine forall₂_congr fun k hk => ?_
  obtain ⟨v, hv⟩ := Option.isSome_iff_exists.mp (hthere k hk)
  simp [hv]

/-- One more entry passes exactly if it passes by itself. -/
theorem FieldWise.ok_cons (h : FieldWise ok keys okAt) {good : List (κ × α)}
    (hgood : AllPass keys okAt good) {k : κ} (hk : k ∈ keys) (v : α) :
    (ok ((k, v) :: good) = true ↔ okAt k v = true) := by
  have hthere : ∀ k' ∈ keys, (((k, v) :: good).lookup k').isSome = true := by
    intro k' hk'
    obtain ⟨v', hv', -⟩ := hgood k' hk'
    rw [List.lookup_cons]
    split
    · rfl
    · exact Option.isSome_of_mem hv'
  rw [h.ok_iff hthere]
  constructor
  · intro hall
    obtain ⟨v', hv', hok⟩ := hall k hk
    rw [List.lookup_cons_self] at hv'
    rwa [Option.some.inj hv']
  · intro hv k' hk'
    by_cases hkey : k' = k
    · subst hkey
      exact ⟨v, List.lookup_cons_self, hv⟩
    · rw [lookup_cons_ne hkey]
      exact hgood k' hk'

theorem AllPass.cons {good : List (κ × α)} (hgood : AllPass keys okAt good) {k : κ} {v : α}
    (hv : okAt k v = true) : AllPass keys okAt ((k, v) :: good) := by
  intro k' hk'
  by_cases hkey : k' = k
  · subst hkey
    exact ⟨v, List.lookup_cons_self, hv⟩
  · rw [lookup_cons_ne hkey]
    exact hgood k' hk'

/-- What is kept passes, and each field is its entry if that passes by itself, and else as it was. -/
theorem FieldWise.keepValid (h : FieldWise ok keys okAt) {good entries : List (κ × α)}
    (hgood : AllPass keys okAt good) (hentries : ∀ e ∈ entries, e.1 ∈ keys)
    (hnodup : (entries.map Prod.fst).Nodup) : AllPass keys okAt (keepValid ok good entries) ∧
      ∀ k, (Records.keepValid ok good entries).lookup k =
        ((entries.lookup k).filter (okAt k)).or (good.lookup k) := by
  induction entries generalizing good with
  | nil => exact ⟨hgood, fun k => rfl⟩
  | cons e entries ih =>
    obtain ⟨k, v⟩ := e
    obtain ⟨hk, hrest⟩ := List.forall_mem_cons.mp hentries
    obtain ⟨hnew, hnodup⟩ := List.nodup_cons.mp hnodup
    have hnone : entries.lookup k = none := by
      rw [List.lookup_eq_none_iff]
      intro e he
      refine bne_iff_ne.mpr fun heq => hnew ?_
      change k ∈ _
      rw [heq]
      exact List.mem_map_of_mem he
    rw [Records.keepValid, List.foldl_cons]
    cases hv : okAt k v with
    | true =>
      rw [if_pos ((h.ok_cons hgood hk v).mpr hv)]
      obtain ⟨hall, hlookup⟩ := ih (hgood.cons hv) hrest hnodup
      refine ⟨hall, fun k' => (hlookup k').trans ?_⟩
      by_cases hkey : k' = k
      · subst hkey
        simp [hnone, Option.filter, hv]
      · rw [lookup_cons_ne hkey, lookup_cons_ne hkey]
    | false =>
      rw [if_neg (by rw [h.ok_cons hgood hk v, hv]; exact Bool.false_ne_true)]
      obtain ⟨hall, hlookup⟩ := ih hgood hrest hnodup
      refine ⟨hall, fun k' => (hlookup k').trans ?_⟩
      by_cases hkey : k' = k
      · subst hkey
        simp [hnone, Option.filter, hv]
      · rw [lookup_cons_ne hkey]

/-! ### Dictionaries made of pairs -/

/-- `d[k] = v`: a key that is there keeps its place. -/
def set {κ : Type*} [BEq κ] (k : κ) (v : α) : List (κ × α) → List (κ × α)
  | [] => [(k, v)]
  | (k', v') :: m => if k' == k then (k', v) :: m else (k', v') :: set k v m

/-- `dict(pairs)`. -/
def ofPairs {κ : Type*} [BEq κ] (pairs : List (κ × α)) : List (κ × α) :=
  pairs.foldl (fun m e => set e.1 e.2 m) []

theorem set_of_notMem {m : List (κ × α)} {k : κ} (h : k ∉ m.map Prod.fst) (v : α) :
    set k v m = m ++ [(k, v)] := by
  induction m with
  | nil => rfl
  | cons e m ih =>
    obtain ⟨k', v'⟩ := e
    obtain ⟨hne, hrest⟩ := List.ne_and_not_mem_of_not_mem_cons h
    rw [set, if_neg (by simpa using Ne.symm hne), ih hrest, List.cons_append]

/-- Pairs with distinct keys are a dictionary as they are. -/
theorem ofPairs_eq_self {pairs : List (κ × α)} (h : (pairs.map Prod.fst).Nodup) :
    ofPairs pairs = pairs := by
  have hrun (before : List (κ × α)) (hall : ((before ++ pairs).map Prod.fst).Nodup) :
      pairs.foldl (fun m e => set e.1 e.2 m) before = before ++ pairs := by
    induction pairs generalizing before with
    | nil => simp
    | cons e pairs ih =>
      have hnew : e.1 ∉ before.map Prod.fst := by
        intro hmem
        rw [List.map_append, List.nodup_append] at hall
        exact hall.2.2 _ hmem _ List.mem_cons_self rfl
      have happend : before ++ e :: pairs = (before ++ [e]) ++ pairs := by simp
      rw [List.foldl_cons, set_of_notMem hnew, ih (List.nodup_cons.mp h).2 _ (happend ▸ hall), happend]
  exact hrun [] h

end PiHub.Records

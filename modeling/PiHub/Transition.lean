import Mathlib.Data.List.Induction

/-! Runs of a partial step function: executing a list of events, the states
reached when every step meets a condition, and the invariant rule. -/
namespace PiHub.Transition
variable {σ ε : Type*}

/-- Execute the events in order; `none` as soon as one of them is not enabled. -/
def execute (step : σ → ε → Option σ) : σ → List ε → Option σ
  | s, [] => some s
  | s, e :: es => (step s e).bind fun t => execute step t es

/-- Every event of the run meets the condition in the state it is taken from. -/
def Along (step : σ → ε → Option σ) (ok : σ → ε → Prop) : σ → List ε → Prop
  | _, [] => True
  | s, e :: es => ok s e ∧
    match step s e with
    | none => True
    | some t => Along step ok t es

/-- How many steps of the run go from one state to another as `p` says. -/
def count (step : σ → ε → Option σ) (p : σ → σ → Bool) : σ → List ε → Nat
  | _, [] => 0
  | s, e :: es =>
    match step s e with
    | none => 0
    | some t => (p s t).toNat + count step p t es

/-- The states that runs from `s` reach by steps that all meet `ok`. -/
inductive ReachableBy (step : σ → ε → Option σ) (ok : σ → ε → Prop) (s : σ) : σ → Prop
  | start : ReachableBy step ok s s
  | next {t u : σ} {e : ε} : ReachableBy step ok s t → ok t e → step t e = some u →
      ReachableBy step ok s u

/-- The states that runs from `s` reach by any steps. -/
def Reachable (step : σ → ε → Option σ) : σ → σ → Prop :=
  ReachableBy step fun _ _ => True

variable {step : σ → ε → Option σ} {ok : σ → ε → Prop}

theorem execute_cons {s t : σ} {e : ε} {es : List ε} (h : step s e = some t) :
    execute step s (e :: es) = execute step t es := by
  simp [execute, h]

theorem execute_append (s : σ) (es fs : List ε) :
    execute step s (es ++ fs) = (execute step s es).bind fun t => execute step t fs := by
  induction es generalizing s with
  | nil => rfl
  | cons e es ih =>
    cases h : step s e with
    | none => simp [execute, h]
    | some t => simpa [execute, h] using ih t

/-- A guarded step has its guard. -/
theorem of_guard {p : Prop} [Decidable p] {s t : σ} (h : (if p then some s else none) = some t) :
    p ∧ s = t := by
  obtain ⟨hp, heq⟩ := Option.ite_none_right_eq_some.mp h
  exact ⟨hp, Option.some.inj heq⟩

/-- Split a successful run before its last event. -/
theorem execute_concat {s u : σ} {es : List ε} {e : ε} (h : execute step s (es ++ [e]) = some u) :
    ∃ t, execute step s es = some t ∧ step t e = some u := by
  rw [execute_append, Option.bind_eq_some_iff] at h
  obtain ⟨t, ht, hu⟩ := h
  refine ⟨t, ht, ?_⟩
  cases hs : step t e with
  | none => simp [execute, hs] at hu
  | some v => simpa [execute, hs] using hu

/-- A run conforms exactly if its first part does and its rest does from where that leads. -/
theorem along_append {s : σ} {es fs : List ε} : Along step ok s (es ++ fs) ↔
    Along step ok s es ∧ ∀ t, execute step s es = some t → Along step ok t fs := by
  induction es generalizing s with
  | nil => simp [Along, execute]
  | cons e es ih =>
    cases hs : step s e with
    | none => simp [Along, execute, hs]
    | some u => simp [Along, execute, hs, ih, and_assoc]

theorem along_concat {s : σ} {es : List ε} {e : ε} (h : Along step ok s (es ++ [e])) :
    Along step ok s es ∧ ∀ t, execute step s es = some t → ok t e := by
  obtain ⟨hes, hlast⟩ := along_append.mp h
  exact ⟨hes, fun t ht => (hlast t ht).1⟩

theorem along_concat_iff {s t : σ} {es : List ε} {e : ε} (h : execute step s es = some t) :
    Along step ok s (es ++ [e]) ↔ Along step ok s es ∧ ok t e := by
  refine ⟨fun hall => ⟨(along_concat hall).1, (along_concat hall).2 t h⟩, fun hall => ?_⟩
  refine along_append.mpr ⟨hall.1, fun u hu => ?_⟩
  obtain rfl := Option.some.inj (h.symm.trans hu)
  refine ⟨hall.2, ?_⟩
  cases step t e with
  | none => trivial
  | some v => trivial

theorem ReachableBy.trans {s t u : σ} (h : ReachableBy step ok s t)
    (h' : ReachableBy step ok t u) : ReachableBy step ok s u := by
  induction h' with
  | start => exact h
  | next _ hok hstep ih => exact ih.next hok hstep

/-- What holds at the start and is kept by every conforming step holds wherever they lead. -/
theorem ReachableBy.invariant {P : σ → Prop} {s t : σ} (h : ReachableBy step ok s t) (h0 : P s)
    (hstep : ∀ t e u, P t → ok t e → step t e = some u → P u) : P t := by
  induction h with
  | start => exact h0
  | next _ hok hs ih => exact hstep _ _ _ ih hok hs

theorem ReachableBy.reachable {s t : σ} (h : ReachableBy step ok s t) : Reachable step s t := by
  induction h with
  | start => exact .start
  | next _ _ hstep ih => exact ih.next trivial hstep

theorem reachableBy_of_execute {s t : σ} {es : List ε} (h : execute step s es = some t)
    (hok : Along step ok s es) : ReachableBy step ok s t := by
  induction es generalizing s with
  | nil =>
    obtain rfl : s = t := by simpa [execute] using h
    exact .start
  | cons e es ih =>
    cases hs : step s e with
    | none => simp [execute, hs] at h
    | some u =>
      obtain ⟨hhead, htail⟩ := hok
      rw [hs] at htail
      rw [execute_cons hs] at h
      exact (ReachableBy.start.next hhead hs).trans (ih h htail)

theorem along_of_forall (h : ∀ s e, ok s e) (s : σ) (es : List ε) : Along step ok s es := by
  induction es generalizing s with
  | nil => trivial
  | cons e es ih =>
    refine ⟨h s e, ?_⟩
    cases step s e with
    | none => trivial
    | some t => exact ih t

/-- A condition on the events alone is met by a run of such events. -/
theorem along_of_mem {P : ε → Prop} {es : List ε} (h : ∀ e ∈ es, P e) (s : σ) :
    Along step (fun _ e => P e) s es := by
  induction es generalizing s with
  | nil => trivial
  | cons e es ih =>
    obtain ⟨hhead, htail⟩ := List.forall_mem_cons.mp h
    refine ⟨hhead, ?_⟩
    cases step s e with
    | none => trivial
    | some t => exact ih htail t

theorem reachable_of_execute {s t : σ} {es : List ε} (h : execute step s es = some t) :
    Reachable step s t :=
  reachableBy_of_execute h (along_of_forall (fun _ _ => trivial) s es)

theorem Along.and {ok' : σ → ε → Prop} {s : σ} {es : List ε} (h : Along step ok s es)
    (h' : Along step ok' s es) : Along step (fun s e => ok s e ∧ ok' s e) s es := by
  induction es generalizing s with
  | nil => trivial
  | cons e es ih =>
    refine ⟨⟨h.1, h'.1⟩, ?_⟩
    cases hs : step s e with
    | none => trivial
    | some t =>
      obtain ⟨_, htail⟩ := h
      obtain ⟨_, htail'⟩ := h'
      rw [hs] at htail htail'
      exact ih htail htail'

/-- A run that meets a condition meets every weaker one. -/
theorem Along.mono {ok' : σ → ε → Prop} (himp : ∀ s e, ok s e → ok' s e) {s : σ} {es : List ε}
    (h : Along step ok s es) : Along step ok' s es := by
  induction es generalizing s with
  | nil => trivial
  | cons e es ih =>
    refine ⟨himp s e h.1, ?_⟩
    cases hs : step s e with
    | none => trivial
    | some t =>
      obtain ⟨_, htail⟩ := h
      rw [hs] at htail
      exact ih htail

/-- Two conditions that agree wherever an invariant holds are met by the same runs. -/
theorem along_congr {ok' : σ → ε → Prop} {P : σ → Prop}
    (hstep : ∀ s e t, P s → step s e = some t → P t) (hiff : ∀ s e, P s → (ok s e ↔ ok' s e))
    {s : σ} {es : List ε} (h : P s) : Along step ok s es ↔ Along step ok' s es := by
  induction es generalizing s with
  | nil => exact Iff.rfl
  | cons e es ih =>
    refine and_congr (hiff s e h) ?_
    cases hs : step s e with
    | none => exact Iff.rfl
    | some t => exact ih (hstep s e t h hs)

/-- Where a step that starts from the property meets the condition exactly if it keeps the property,
the runs that conform are those on which the property holds all along. -/
theorem along_iff_forall_states {P : σ → Prop}
    (hstep : ∀ s e t, P s → step s e = some t → (ok s e ↔ P t)) {s t : σ} {es : List ε}
    (h : execute step s es = some t) (hs : P s) : Along step ok s es ↔
      ∀ before after u, es = before ++ after → execute step s before = some u → P u := by
  induction es generalizing s with
  | nil =>
    refine ⟨fun _ before after u heq hu => ?_, fun _ => trivial⟩
    obtain ⟨rfl, -⟩ := List.append_eq_nil_iff.mp heq.symm
    obtain rfl := Option.some.inj hu
    exact hs
  | cons e es ih =>
    obtain ⟨v, hv, hrest⟩ := Option.bind_eq_some_iff.mp h
    refine ⟨fun hall before after u heq hu => ?_, fun hall => ?_⟩
    · obtain ⟨hhead, htail⟩ := hall
      rw [hv] at htail
      have hPv := (hstep s e v hs hv).mp hhead
      cases before with
      | nil =>
        obtain rfl := Option.some.inj hu
        exact hs
      | cons e' before =>
        obtain ⟨rfl, rfl⟩ := List.cons.inj heq
        rw [execute_cons hv] at hu
        exact (ih hrest hPv).mp htail before after u rfl hu
    · have hPv := hall [e] es v rfl (by rw [execute_cons hv]; rfl)
      refine ⟨(hstep s e v hs hv).mpr hPv, ?_⟩
      rw [hv]
      refine (ih hrest hPv).mpr fun before after u heq hu => ?_
      exact hall (e :: before) after u (by rw [heq]; rfl) (by rw [execute_cons hv, hu])

/-- A run that does not conform has a first part that leads to an event which does not. -/
theorem exists_of_not_along {s t : σ} {es : List ε} (h : execute step s es = some t)
    (hnot : ¬ Along step ok s es) : ∃ before e after u, es = before ++ e :: after ∧
      execute step s before = some u ∧ ¬ ok u e := by
  induction es generalizing s with
  | nil => exact absurd trivial hnot
  | cons e es ih =>
    obtain ⟨u, hu, hrest⟩ := Option.bind_eq_some_iff.mp h
    by_cases hok : ok s e
    · have htail : ¬ Along step ok u es := fun htail => hnot ⟨hok, by rw [hu]; exact htail⟩
      obtain ⟨before, e', after, v, rfl, hv, hnotv⟩ := ih hrest htail
      exact ⟨e :: before, e', after, v, rfl, by rw [execute_cons hu, hv], hnotv⟩
    · exact ⟨[], e, es, s, rfl, rfl, hok⟩

/-- A property that does not hold at first and holds at the end came to hold at some step, and
has held since. -/
theorem exists_onset {P : σ → Prop} {s t : σ} {es : List ε} (h : execute step s es = some t)
    (hs : ¬ P s) (ht : P t) : ∃ before e after a b, es = before ++ e :: after ∧
      execute step s before = some a ∧ step a e = some b ∧ ¬ P a ∧ P b ∧
      execute step b after = some t ∧ Along step (fun u _ => P u) b after := by
  induction es using List.reverseRecOn generalizing t with
  | nil =>
    obtain rfl : s = t := by simpa [execute] using h
    exact absurd ht hs
  | append_singleton es e ih =>
    obtain ⟨u, hu, hstep⟩ := execute_concat h
    by_cases hP : P u
    · obtain ⟨before, e', after, a, b, rfl, ha, hab, hPa, hPb, hbu, halong⟩ := ih hu hP
      refine ⟨before, e', after ++ [e], a, b, by simp, ha, hab, hPa, hPb, ?_, ?_⟩
      · rw [execute_append, hbu, Option.bind_some, execute_cons hstep]
        rfl
      · refine along_append.mpr ⟨halong, fun v hv => ?_⟩
        obtain rfl := Option.some.inj (hbu.symm.trans hv)
        exact ⟨hP, by simp [hstep, Along]⟩
    · exact ⟨es, e, [], u, t, rfl, hu, hstep, hP, ht, rfl, trivial⟩

/-- A property that holds at first holds all along or stops holding at some step. -/
theorem along_or_exit {P : σ → Prop} {s t : σ} {es : List ε} (h : execute step s es = some t)
    (hs : P s) : (Along step (fun u _ => P u) s es ∧ P t) ∨
      ∃ before e after a b, es = before ++ e :: after ∧ execute step s before = some a ∧
        step a e = some b ∧ P a ∧ ¬ P b := by
  induction es generalizing s with
  | nil =>
    obtain rfl : s = t := by simpa [execute] using h
    exact Or.inl ⟨trivial, hs⟩
  | cons e es ih =>
    obtain ⟨u, hu, hrest⟩ := Option.bind_eq_some_iff.mp h
    by_cases hP : P u
    · obtain ⟨halong, ht⟩ | ⟨before, e', after, a, b, rfl, ha, hab, hPa, hPb⟩ := ih hrest hP
      · exact Or.inl ⟨⟨hs, by rw [hu]; exact halong⟩, ht⟩
      · exact Or.inr ⟨e :: before, e', after, a, b, rfl, by rw [execute_cons hu, ha], hab, hPa, hPb⟩
    · exact Or.inr ⟨[], e, es, s, u, rfl, rfl, hu, hs, hP⟩

/-- What each step adds one to, where `p` says so, the run has added up. -/
theorem count_of_step {p : σ → σ → Bool} {m : σ → Nat}
    (hstep : ∀ s e t, step s e = some t → m t = m s + (p s t).toNat) {s t : σ} {es : List ε}
    (h : execute step s es = some t) : m t = m s + count step p s es := by
  induction es generalizing s with
  | nil =>
    obtain rfl := Option.some.inj h
    rfl
  | cons e es ih =>
    obtain ⟨u, hu, hrest⟩ := Option.bind_eq_some_iff.mp h
    rw [ih hrest, hstep s e u hu, count, hu, Nat.add_assoc]

/-- Where every step is one of another machine or none to it, a run is a run of that machine. -/
theorem execute_simulates {τ δ : Type*} {step' : τ → δ → Option τ} {f : σ → τ}
    (hstep : ∀ s e t, step s e = some t → f t = f s ∨ ∃ d, step' (f s) d = some (f t)) {s t : σ}
    {es : List ε} (h : execute step s es = some t) :
    ∃ ds, execute step' (f s) ds = some (f t) := by
  induction es generalizing s with
  | nil =>
    obtain rfl := Option.some.inj h
    exact ⟨[], rfl⟩
  | cons e es ih =>
    obtain ⟨u, hu, hrest⟩ := Option.bind_eq_some_iff.mp h
    obtain ⟨ds, hds⟩ := ih hrest
    obtain hsame | ⟨d, hd⟩ := hstep s e u hu
    · exact ⟨ds, by rw [← hsame]; exact hds⟩
    · exact ⟨d :: ds, by rw [execute_cons hd]; exact hds⟩

/-- One of several parties has moved. -/
theorem at_set {α : Type*} {l : List α} {i j : Nat} {a b : α} (h : (l.set i a)[j]? = some b) :
    (j = i ∧ b = a) ∨ (j ≠ i ∧ l[j]? = some b) := by
  by_cases hij : i = j
  · subst hij
    have hlt : i < (l.set i a).length := (List.getElem?_eq_some_iff.mp h).1
    rw [List.length_set] at hlt
    rw [List.getElem?_set_self hlt] at h
    exact Or.inl ⟨rfl, (Option.some.inj h).symm⟩
  · rw [List.getElem?_set_ne hij] at h
    exact Or.inr ⟨fun heq => hij heq.symm, h⟩

/-- A party has joined. -/
theorem at_concat {α : Type*} {l : List α} {j : Nat} {a b : α} (h : (l ++ [a])[j]? = some b) :
    (j = l.length ∧ b = a) ∨ l[j]? = some b := by
  by_cases hj : j < l.length
  · rw [List.getElem?_append_left hj] at h
    exact Or.inr h
  · have hlt : j < (l ++ [a]).length := (List.getElem?_eq_some_iff.mp h).1
    obtain rfl : j = l.length := by
      rw [List.length_append, List.length_singleton] at hlt
      omega
    rw [List.getElem?_concat_length] at h
    exact Or.inl ⟨rfl, (Option.some.inj h).symm⟩

theorem concat_at {α : Type*} {l : List α} {j : Nat} {b : α} (h : l[j]? = some b) (a : α) :
    (l ++ [a])[j]? = some b := by
  rw [List.getElem?_append_left (List.getElem?_eq_some_iff.mp h).1, h]

instance Along.decidable [∀ s e, Decidable (ok s e)] :
    ∀ (s : σ) (es : List ε), Decidable (Along step ok s es)
  | _, [] => .isTrue trivial
  | s, e :: es =>
    have : Decidable (match step s e with | none => True | some t => Along step ok t es) :=
      match step s e with
      | none => .isTrue trivial
      | some t => Along.decidable t es
    inferInstanceAs (Decidable (_ ∧ _))

end PiHub.Transition

import Mathlib.Logic.Basic

/-! Coroutines that raise exceptions and leave a trace, run over the replies they are resumed with,
and rules for what a run leaves behind. -/
namespace PiHub.Coroutines
variable {σ ρ ω ε α β : Type}

/-- A run over the replies so far: `outcome` is `none` while the coroutine waits for the next one. -/
structure Run (σ ρ ω ε α : Type) where
  outcome : Option (Except ε α)
  state : σ
  trace : List ω
  rest : List ρ

/-- The trace of what came before goes in front. -/
def Run.prepend (r : Run σ ρ ω ε α) (before : List ω) : Run σ ρ ω ε α :=
  { r with trace := before ++ r.trace }

/-- From a state and the replies to come. -/
def Coroutine (σ ρ ω ε α : Type) : Type := σ → List ρ → Run σ ρ ω ε α

/-- Go on with the value returned. -/
def Run.bind (f : α → Coroutine σ ρ ω ε β) : Run σ ρ ω ε α → Run σ ρ ω ε β
  | ⟨none, s, tr, rest⟩ => ⟨none, s, tr, rest⟩
  | ⟨some (.error e), s, tr, rest⟩ => ⟨some (.error e), s, tr, rest⟩
  | ⟨some (.ok a), s, tr, rest⟩ => (f a s rest).prepend tr

instance : Monad (Coroutine σ ρ ω ε) where
  pure a := fun s rs => ⟨some (.ok a), s, [], rs⟩
  bind c f := fun s rs => (c s rs).bind f

def raise (e : ε) : Coroutine σ ρ ω ε α := fun s rs => ⟨some (.error e), s, [], rs⟩

def current : Coroutine σ ρ ω ε σ := fun s rs => ⟨some (.ok s), s, [], rs⟩

def update (g : σ → σ) : Coroutine σ ρ ω ε Unit := fun s rs => ⟨some (.ok ()), g s, [], rs⟩

def emit (w : ω) : Coroutine σ ρ ω ε Unit := fun s rs => ⟨some (.ok ()), s, [w], rs⟩

/-- Suspend until the next reply. -/
def await : Coroutine σ ρ ω ε ρ := fun s rs =>
  match rs with
  | [] => ⟨none, s, [], []⟩
  | r :: rest => ⟨some (.ok r), s, [], rest⟩

/-- Run `c` and return what it came to, an exception as well as a value. -/
def attempt (c : Coroutine σ ρ ω ε α) : Coroutine σ ρ ω ε (Except ε α) := fun s rs =>
  let r := c s rs
  ⟨r.outcome.map .ok, r.state, r.trace, r.rest⟩

/-- Every run from `s` after the trace `tr` leaves an outcome, a state and a trace that satisfy `Q`. -/
def Meets (c : Coroutine σ ρ ω ε α) (s : σ) (tr : List ω)
    (Q : Option (Except ε α) → σ → List ω → Prop) : Prop :=
  ∀ rs, Q (c s rs).outcome (c s rs).state (tr ++ (c s rs).trace)

section Meets
variable {c : Coroutine σ ρ ω ε α} {f : α → Coroutine σ ρ ω ε β} {s : σ} {tr : List ω}
  {P : Option (Except ε α) → σ → List ω → Prop} {Q : Option (Except ε β) → σ → List ω → Prop}

theorem Meets.mono {P' : Option (Except ε α) → σ → List ω → Prop} (h : Meets c s tr P)
    (himp : ∀ o t tr', P o t tr' → P' o t tr') : Meets c s tr P' :=
  fun rs => himp _ _ _ (h rs)

theorem meets_pure {a : α} (h : P (some (.ok a)) s tr) :
    Meets (pure a : Coroutine σ ρ ω ε α) s tr P := by
  intro rs
  show P _ _ (tr ++ [])
  rwa [List.append_nil]

theorem meets_raise {e : ε} (h : P (some (.error e)) s tr) :
    Meets (raise e : Coroutine σ ρ ω ε α) s tr P := by
  intro rs
  show P _ _ (tr ++ [])
  rwa [List.append_nil]

/-- What the first part leaves is what the second starts from. -/
theorem Meets.bind (h : Meets c s tr P) (hwaits : ∀ t tr', P none t tr' → Q none t tr')
    (hraises : ∀ e t tr', P (some (.error e)) t tr' → Q (some (.error e)) t tr')
    (hreturns : ∀ a t tr', P (some (.ok a)) t tr' → Meets (f a) t tr' Q) :
    Meets (c >>= f) s tr Q := by
  intro rs
  have hP := h rs
  show Q ((c s rs).bind f).outcome ((c s rs).bind f).state (tr ++ ((c s rs).bind f).trace)
  generalize c s rs = r at hP ⊢
  obtain ⟨outcome, t, tr', rest⟩ := r
  cases outcome with
  | none => exact hwaits t _ hP
  | some result =>
    cases result with
    | error e => exact hraises e t _ hP
    | ok a =>
      have hQ := hreturns a t _ hP rest
      rw [List.append_assoc] at hQ
      exact hQ

theorem meets_current_bind {f : σ → Coroutine σ ρ ω ε β} (h : Meets (f s) s tr Q) :
    Meets (current >>= f) s tr Q :=
  fun rs => h rs

theorem meets_update_bind {g : σ → σ} {f : Unit → Coroutine σ ρ ω ε β}
    (h : Meets (f ()) (g s) tr Q) : Meets (update g >>= f) s tr Q :=
  fun rs => h rs

theorem meets_update {Q : Option (Except ε Unit) → σ → List ω → Prop} {g : σ → σ}
    (h : Q (some (.ok ())) (g s) tr) : Meets (update g : Coroutine σ ρ ω ε Unit) s tr Q := by
  intro rs
  show Q _ _ (tr ++ [])
  rwa [List.append_nil]

theorem meets_emit_bind {w : ω} {f : Unit → Coroutine σ ρ ω ε β}
    (h : Meets (f ()) s (tr ++ [w]) Q) : Meets (emit w >>= f) s tr Q := by
  intro rs
  have hQ := h rs
  rw [List.append_assoc] at hQ
  exact hQ

theorem meets_await_bind {f : ρ → Coroutine σ ρ ω ε β} (hwaits : Q none s tr)
    (hresumed : ∀ r, Meets (f r) s tr Q) : Meets (await >>= f) s tr Q := by
  intro rs
  cases rs with
  | nil =>
    show Q _ _ (tr ++ [])
    rwa [List.append_nil]
  | cons r rest => exact hresumed r rest

theorem Meets.attempt_bind {f : Except ε α → Coroutine σ ρ ω ε β} (h : Meets c s tr P)
    (hwaits : ∀ t tr', P none t tr' → Q none t tr')
    (hends : ∀ x t tr', P (some x) t tr' → Meets (f x) t tr' Q) :
    Meets (attempt c >>= f) s tr Q := by
  have hP : Meets (attempt c) s tr fun o t tr' => ∃ o', o = o'.map .ok ∧ P o' t tr' :=
    fun rs => ⟨_, rfl, h rs⟩
  refine hP.bind ?_ ?_ ?_
  · rintro t tr' ⟨o', hnone, ho'⟩
    rw [Option.map_eq_none_iff.mp hnone.symm] at ho'
    exact hwaits t tr' ho'
  · rintro e t tr' ⟨o', hraised, -⟩
    obtain ⟨x, -, hx⟩ := Option.map_eq_some_iff.mp hraised.symm
    exact nomatch hx
  · rintro x t tr' ⟨o', hsome, ho'⟩
    obtain ⟨x', rfl, hx⟩ := Option.map_eq_some_iff.mp hsome.symm
    obtain rfl := Except.ok.inj hx
    exact hends x' t tr' ho'

end Meets

theorem current_bind (f : σ → Coroutine σ ρ ω ε β) (s : σ) (rs : List ρ) :
    (current >>= f) s rs = f s s rs :=
  rfl

/-- Two ways to go on that agree on what the first part has come to. -/
theorem attempt_bind_congr {c : Coroutine σ ρ ω ε α} {f g : Except ε α → Coroutine σ ρ ω ε β} {s : σ}
    {rs : List ρ} {P : σ → Prop} (hP : P (c s rs).state)
    (h : ∀ x t rest, P t → f x t rest = g x t rest) :
    (attempt c >>= f) s rs = (attempt c >>= g) s rs := by
  show Run.bind f (attempt c s rs) = Run.bind g (attempt c s rs)
  unfold attempt
  generalize c s rs = r at hP
  obtain ⟨outcome, t, tr, rest⟩ := r
  cases outcome with
  | none => rfl
  | some x =>
    show (f x t rest).prepend tr = (g x t rest).prepend tr
    rw [h x t rest hP]

/-- Where an entry stands in a trace that has one more. -/
theorem split_concat {tr before after : List ω} {w x : ω} (h : tr ++ [w] = before ++ x :: after) :
    (tr = before ∧ w = x ∧ after = []) ∨ ∃ rest, tr = before ++ x :: rest ∧ after = rest ++ [w] := by
  rcases List.eq_nil_or_concat after with rfl | ⟨rest, w', rfl⟩
  · obtain ⟨rfl, rfl⟩ := List.append_singleton_inj.mp h
    exact Or.inl ⟨rfl, rfl, rfl⟩
  · rw [List.concat_eq_append, ← List.cons_append, ← List.append_assoc] at h
    obtain ⟨rfl, rfl⟩ := List.append_singleton_inj.mp h
    exact Or.inr ⟨rest, rfl, List.concat_eq_append⟩

/-- Given `n` replies the run from `s` ends, and it takes no more of them. -/
def EndsBy (n : Nat) (c : Coroutine σ ρ ω ε α) (s : σ) : Prop :=
  ∀ rs, n ≤ rs.length → (c s rs).outcome ≠ none ∧ rs.length ≤ (c s rs).rest.length + n

section EndsBy
variable {c : Coroutine σ ρ ω ε α} {f : α → Coroutine σ ρ ω ε β} {s : σ} {m n : Nat}

theorem EndsBy.mono (h : EndsBy m c s) (hle : m ≤ n) : EndsBy n c s := by
  intro rs hlen
  obtain ⟨hends, htakes⟩ := h rs (Nat.le_trans hle hlen)
  exact ⟨hends, by omega⟩

theorem endsBy_pure (a : α) : EndsBy 0 (pure a : Coroutine σ ρ ω ε α) s :=
  fun _ _ => ⟨nofun, Nat.le_refl _⟩

theorem endsBy_raise (e : ε) : EndsBy 0 (raise e : Coroutine σ ρ ω ε α) s :=
  fun _ _ => ⟨nofun, Nat.le_refl _⟩

/-- `P` is what is known of the state where the second part starts. -/
theorem EndsBy.bind {P : α → σ → Prop} (h : EndsBy m c s)
    (hP : Meets c s [] fun o t _ => ∀ a, o = some (.ok a) → P a t)
    (hf : ∀ a t, P a t → EndsBy n (f a) t) : EndsBy (m + n) (c >>= f) s := by
  intro rs hlen
  have hends := h rs (by omega)
  have hafter := hP rs
  show ((c s rs).bind f).outcome ≠ none ∧ rs.length ≤ ((c s rs).bind f).rest.length + (m + n)
  generalize c s rs = r at hends hafter ⊢
  obtain ⟨outcome, t, tr', rest⟩ := r
  obtain ⟨hsome, htakes⟩ := hends
  dsimp only at hsome htakes hafter
  cases outcome with
  | none => exact absurd rfl hsome
  | some result =>
    cases result with
    | error e => exact ⟨nofun, by show rs.length ≤ rest.length + (m + n); omega⟩
    | ok a =>
      obtain ⟨hends', htakes'⟩ := hf a t (hafter a rfl) rest (by omega)
      refine ⟨hends', ?_⟩
      show rs.length ≤ (f a t rest).rest.length + (m + n)
      omega

theorem EndsBy.bind_forall (h : EndsBy m c s) (hf : ∀ a t, EndsBy n (f a) t) :
    EndsBy (m + n) (c >>= f) s :=
  h.bind (P := fun _ _ => True) (fun _ _ _ => trivial) fun a t _ => hf a t

theorem EndsBy.attempt_bind {f : Except ε α → Coroutine σ ρ ω ε β} {P : Except ε α → σ → Prop}
    (h : EndsBy m c s) (hP : Meets c s [] fun o t _ => ∀ x, o = some x → P x t)
    (hf : ∀ x t, P x t → EndsBy n (f x) t) : EndsBy (m + n) (attempt c >>= f) s := by
  have hattempt : EndsBy m (attempt c) s := by
    intro rs hlen
    obtain ⟨hends, htakes⟩ := h rs hlen
    exact ⟨fun hnone => hends (Option.map_eq_none_iff.mp hnone), htakes⟩
  refine hattempt.bind (P := P) ?_ hf
  intro rs x hx
  obtain ⟨x', hx', heq⟩ := Option.map_eq_some_iff.mp hx
  obtain rfl := Except.ok.inj heq
  exact hP rs x' hx'

theorem endsBy_current_bind {f : σ → Coroutine σ ρ ω ε β} (h : EndsBy n (f s) s) :
    EndsBy n (current >>= f) s :=
  fun rs hlen => h rs hlen

theorem endsBy_update_bind {g : σ → σ} {f : Unit → Coroutine σ ρ ω ε β}
    (h : EndsBy n (f ()) (g s)) : EndsBy n (update g >>= f) s :=
  fun rs hlen => h rs hlen

theorem endsBy_update (g : σ → σ) : EndsBy 0 (update g : Coroutine σ ρ ω ε Unit) s :=
  fun _ _ => ⟨nofun, Nat.le_refl _⟩

theorem endsBy_emit_bind {w : ω} {f : Unit → Coroutine σ ρ ω ε β} (h : EndsBy n (f ()) s) :
    EndsBy n (emit w >>= f) s :=
  fun rs hlen => h rs hlen

theorem endsBy_await_bind {f : ρ → Coroutine σ ρ ω ε β} (h : ∀ r, EndsBy n (f r) s) :
    EndsBy (n + 1) (await >>= f) s := by
  intro rs hlen
  cases rs with
  | nil => simp at hlen
  | cons r rest =>
    obtain ⟨hends, htakes⟩ := h r rest (Nat.le_of_succ_le_succ hlen)
    exact ⟨hends, Nat.succ_le_succ htakes⟩

end EndsBy

/-- A run that has ended and raises nothing has returned. -/
theorem exists_returned {o : Option (Except ε α)} (hends : o ≠ none)
    (hraises : ∀ e, o ≠ some (.error e)) : ∃ a, o = some (.ok a) := by
  obtain ⟨x, rfl⟩ := Option.ne_none_iff_exists'.mp hends
  cases x with
  | error e => exact absurd rfl (hraises e)
  | ok a => exact ⟨a, rfl⟩

end PiHub.Coroutines

import Mathlib.Logic.Function.Conjugate
import PiHub.Transition

/-! Actions taken one after another, of which some run on beside those that come after them. Where
such an action commutes with all later ones, every interleaving comes to what the plain order does. -/
namespace PiHub.Interleaving
open Transition
variable {σ : Type*}

/-- What an action does to the state, and whether the next one is taken without waiting for it. -/
structure Act (σ : Type*) where
  run : σ → σ
  background : Bool

def inOrder : List (Act σ) → σ → σ
  | [], s => s
  | a :: as, s => inOrder as (a.run s)

/-- Between two actions: `pending` were started and have not had their effect. -/
structure Run (σ : Type*) where
  state : σ
  todo : List (Act σ)
  pending : List (Act σ)

def Run.start (s : σ) (acts : List (Act σ)) : Run σ := ⟨s, acts, []⟩

/-- `next`: the next action is started, and has its effect if it is waited for. `settles`: a pending
one has its effect. -/
inductive Event where
  | next
  | settles (i : Nat)
  deriving DecidableEq

def step (r : Run σ) : Event → Option (Run σ)
  | .next =>
    match r.todo with
    | [] => none
    | a :: todo =>
      if a.background then some { r with todo := todo, pending := r.pending ++ [a] }
      else some { r with state := a.run r.state, todo := todo }
  | .settles i =>
    r.pending[i]?.map fun a => { r with state := a.run r.state, pending := r.pending.eraseIdx i }

def Run.Ended (r : Run σ) : Prop := r.todo = [] ∧ r.pending = []

/-- Whatever runs in the background commutes with all that comes after it. -/
def Independent (acts : List (Act σ)) : Prop :=
  acts.Pairwise fun a b => a.background = true → Function.Commute a.run b.run

theorem inOrder_append (as bs : List (Act σ)) (s : σ) :
    inOrder (as ++ bs) s = inOrder bs (inOrder as s) := by
  induction as generalizing s with
  | nil => rfl
  | cons a as ih => exact ih (a.run s)

/-- An action that commutes with others can be taken before them. -/
theorem inOrder_commute {f : σ → σ} {as : List (Act σ)} (h : ∀ a ∈ as, Function.Commute a.run f)
    (s : σ) : inOrder as (f s) = f (inOrder as s) := by
  induction as generalizing s with
  | nil => rfl
  | cons a as ih =>
    rw [inOrder, inOrder, h a List.mem_cons_self s]
    exact ih (fun b hb => h b (List.mem_cons_of_mem a hb)) (a.run s)

/-- What is left to be done, in the plain order, leads to the state `goal`. -/
structure Leads (goal : σ) (r : Run σ) : Prop where
  independent : Independent (r.pending ++ r.todo)
  background : ∀ a ∈ r.pending, a.background = true
  ends : inOrder (r.pending ++ r.todo) r.state = goal

theorem Leads.next {goal : σ} {r t : Run σ} (h : Leads goal r) (hstep : step r .next = some t) :
    Leads goal t := by
  obtain ⟨s, todo, pending⟩ := r
  cases todo with
  | nil => cases hstep
  | cons a todo =>
    have hsplit : pending ++ a :: todo = (pending ++ [a]) ++ todo := by simp
    simp only [step] at hstep
    split at hstep
    · next hbg =>
      obtain rfl := Option.some.inj hstep
      refine ⟨hsplit ▸ h.independent, fun b hb => ?_, hsplit ▸ h.ends⟩
      obtain hb | hb := List.mem_append.mp hb
      · exact h.background b hb
      · obtain rfl := List.mem_singleton.mp hb
        exact hbg
    · obtain rfl := Option.some.inj hstep
      have hpast : ∀ b ∈ pending, Function.Commute b.run a.run := fun b hb =>
        (List.pairwise_append.mp h.independent).2.2 b hb a List.mem_cons_self (h.background b hb)
      refine ⟨h.independent.sublist ((List.sublist_cons_self a todo).append_left pending),
        h.background, ?_⟩
      calc inOrder (pending ++ todo) (a.run s)
          = inOrder todo (a.run (inOrder pending s)) := by
            rw [inOrder_append, inOrder_commute hpast]
        _ = inOrder (pending ++ a :: todo) s := by rw [inOrder_append]; rfl
        _ = goal := h.ends

theorem Leads.settles {goal : σ} {r t : Run σ} {i : Nat} (h : Leads goal r)
    (hstep : step r (.settles i) = some t) : Leads goal t := by
  obtain ⟨s, todo, pending⟩ := r
  obtain ⟨a, ha, rfl⟩ := Option.map_eq_some_iff.mp hstep
  obtain ⟨hi, rfl⟩ := List.getElem?_eq_some_iff.mp ha
  have hpending : pending = pending.take i ++ pending[i] :: pending.drop (i + 1) := by
    rw [List.getElem_cons_drop, List.take_append_drop]
  have herase : pending.eraseIdx i = pending.take i ++ pending.drop (i + 1) :=
    List.eraseIdx_eq_take_drop_succ pending i
  have hsub : (pending.eraseIdx i).Sublist pending := List.eraseIdx_sublist pending i
  have hbefore : ∀ b ∈ pending.take i, Function.Commute b.run pending[i].run := by
    intro b hb
    have hpairs := (List.pairwise_append.mp h.independent).1
    rw [hpending] at hpairs
    exact (List.pairwise_append.mp hpairs).2.2 b hb _ List.mem_cons_self
      (h.background b (List.mem_of_mem_take hb))
  refine ⟨h.independent.sublist (hsub.append_right todo), fun b hb => h.background b (hsub.mem hb), ?_⟩
  have hends := h.ends
  dsimp only at hends ⊢
  rw [← hends, herase, inOrder_append, inOrder_append, inOrder_commute hbefore, inOrder_append]
  conv_rhs => rw [hpending, inOrder_append]
  rfl

theorem Leads.step {goal : σ} {r t : Run σ} {e : Event} (h : Leads goal r)
    (hstep : Interleaving.step r e = some t) : Leads goal t := by
  cases e with
  | next => exact h.next hstep
  | settles i => exact h.settles hstep

/-- Every interleaving ends where the plain order does. -/
theorem ends_in_order {acts : List (Act σ)} (h : Independent acts) {s : σ} {es : List Event}
    {r : Run σ} (hrun : execute step (.start s acts) es = some r) (hend : r.Ended) :
    r.state = inOrder acts s := by
  have hleads : Leads (inOrder acts s) r := (reachable_of_execute hrun).invariant
    ⟨h, fun a ha => (List.not_mem_nil ha).elim, rfl⟩ fun _ _ _ ht _ hstep => ht.step hstep
  have hends := hleads.ends
  rw [hend.1, hend.2] at hends
  exact hends

end PiHub.Interleaving

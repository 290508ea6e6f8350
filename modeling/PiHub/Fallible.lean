import Mathlib.Logic.Basic

/-! Computations that may fail: when they succeed, and with what. -/
namespace PiHub.Fallible
variable {ε α β : Type*}

theorem isOk_iff_exists {x : Except ε α} : x.isOk = true ↔ ∃ a, x = .ok a := by
  cases x with
  | error e => exact ⟨nofun, nofun⟩
  | ok a => exact ⟨fun _ => ⟨a, rfl⟩, fun _ => rfl⟩

theorem isOk_map {x : Except ε α} {f : α → β} : (x.map f).isOk = x.isOk := by
  cases x <;> rfl

section
variable {ε α β : Type} {x : Except ε α}

theorem bind_eq_ok {f : α → Except ε β} {b : β} : x >>= f = .ok b ↔ ∃ a, x = .ok a ∧ f a = .ok b := by
  cases x with
  | error e => exact ⟨nofun, nofun⟩
  | ok a => exact ⟨fun h => ⟨a, rfl, h⟩, fun ⟨_, ha, h⟩ => Except.ok.inj ha ▸ h⟩

theorem isOk_bind {f : α → Except ε β} {ok : Bool} (h : ∀ a, x = .ok a → (f a).isOk = ok) :
    (x >>= f).isOk = (x.isOk && ok) := by
  cases x with
  | error e => rfl
  | ok a => exact h a rfl

theorem isOk_bind_pure {f : α → β} : (x >>= fun a => pure (f a)).isOk = x.isOk := by
  cases x <;> rfl

end

end PiHub.Fallible

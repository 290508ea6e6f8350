import PiHub.Transition

/-! The soundbar's Cast connection (samsung_soundbar.py): the watchdog and the commands connect it,
and the watchdog takes it down when a status cannot be read. A command may be cancelled by its
caller; the backend stays started. -/
namespace PiHub.CastLink
open PiHub.Transition

/-- The watchdog's runner, and the calls of `_cast_command` in the order they came. -/
inductive Party where
  | runner
  | command (i : Nat)
  deriving DecidableEq

/-- What a party is suspended at: the wake-up or the send lock, the sleep that keeps commands
apart, `_connect_cast_blocking`, the status read or the command itself, the clean-up of a
connection, nothing any more. -/
inductive Stage where
  | waiting
  | pacing
  | connecting
  | working
  | cleaning (cast : Nat)
  | done
  deriving DecidableEq

/-- Under the send lock. -/
def Stage.holds : Stage → Bool
  | .pacing | .connecting | .working => true
  | _ => false

/-- The backend. `adrift` are the threads still in `_connect_cast_blocking` whose command has been
cancelled. Connections are numbered as they open; `opened`, how many have, and `closed` are ghost. -/
structure Soundbar where
  cast : Option Nat := none
  sendLock : Option Nat := none
  runner : Stage := .waiting
  commands : List Stage := []
  adrift : Nat := 0
  opened : Nat := 0
  closed : List Nat := []
  deriving DecidableEq

namespace Soundbar

def stage (s : Soundbar) : Party → Option Stage
  | .runner => some s.runner
  | .command i => s.commands[i]?

def goto (s : Soundbar) (p : Party) (a : Stage) : Soundbar :=
  match p with
  | .runner => { s with runner := a }
  | .command i => { s with commands := s.commands.set i a }

/-- `_ensure_cast` up to its pause, and what follows if there is none. -/
def ensureCast (s : Soundbar) (p : Party) : Soundbar :=
  s.goto p (if s.cast.isSome then .working else .connecting)

/-- `_connect_cast_blocking` has returned a connection. -/
def opens (s : Soundbar) (p : Party) : Soundbar :=
  { s with cast := some s.opened, opened := s.opened + 1 }.goto p .working

/-- The watchdog waits for its next turn; a command releases the lock. -/
def ends (s : Soundbar) (p : Party) : Soundbar :=
  match p with
  | .runner => s.goto .runner .waiting
  | .command i => { s with sendLock := none }.goto (.command i) .done

/-- A command is cancelled at that stage. The thread it awaits goes on without it. -/
def cancels (s : Soundbar) (i : Nat) : Stage → Option Soundbar
  | .waiting => some (s.goto (.command i) .done)
  | .pacing | .working => some (s.ends (.command i))
  | .connecting => some ({ s with adrift := s.adrift + 1 }.ends (.command i))
  | _ => none

/-- `_disconnect_cast` up to its pause. -/
def disconnectCast (s : Soundbar) : Soundbar :=
  match s.cast with
  | none => s.ends .runner
  | some cast => { s with cast := none }.goto .runner (.cleaning cast)

end Soundbar

/-- `wakes` is the watchdog's turn at the start, after the interval or when it is woken. A command
takes the lock in its order of arrival, and may have to sleep then. `lands`: the attempt of a
cancelled command returns, and nobody takes its connection. -/
inductive Event where
  | wakes
  | issues
  | takesLock (i : Nat) (early : Bool)
  | paces (i : Nat)
  | connects (p : Party) (ok : Bool)
  | reads (ok : Bool)
  | cleans (cast : Nat)
  | runs (i : Nat)
  | cancels (i : Nat)
  | lands (ok : Bool)
  deriving DecidableEq

def step (s : Soundbar) : Event → Option Soundbar
  | .wakes => if s.runner = .waiting then some (s.ensureCast .runner) else none
  | .issues => some { s with commands := s.commands ++ [.waiting] }
  | .takesLock i early =>
    if s.sendLock = none ∧ s.commands[i]? = some .waiting ∧ .waiting ∉ s.commands.take i then
      let s := { s with sendLock := some i }
      some (if early then s.goto (.command i) .pacing else s.ensureCast (.command i))
    else none
  | .paces i =>
    if s.commands[i]? = some .pacing then some (s.ensureCast (.command i)) else none
  | .connects p ok =>
    if s.stage p = some .connecting then some (if ok then s.opens p else s.ends p) else none
  | .reads ok =>
    if s.runner = .working then some (if ok then s.ends .runner else s.disconnectCast) else none
  | .cleans cast =>
    if s.runner = .cleaning cast then some ({ s with closed := s.closed ++ [cast] }.ends .runner)
    else none
  | .runs i => if s.commands[i]? = some .working then some (s.ends (.command i)) else none
  | .cancels i => (s.commands[i]?).bind (s.cancels i)
  | .lands ok =>
    if 0 < s.adrift then
      some { s with adrift := s.adrift - 1, opened := if ok then s.opened + 1 else s.opened }
    else none

/-- Its attempt to connect is in flight. -/
def Soundbar.Connecting (s : Soundbar) (p : Party) : Prop := s.stage p = some .connecting

/-- No attempt is in flight. -/
def Soundbar.Idle (s : Soundbar) : Prop := s.adrift = 0 ∧ ∀ p, ¬ s.Connecting p

/-- It is the current connection, or `_disconnect_cast` has it or had it. -/
def Soundbar.Keeps (s : Soundbar) (cast : Nat) : Prop :=
  s.cast = some cast ∨ s.runner = .cleaning cast ∨ cast ∈ s.closed

instance (s : Soundbar) (cast : Nat) : Decidable (s.Keeps cast) :=
  inferInstanceAs (Decidable (s.cast = some cast ∨ s.runner = .cleaning cast ∨ cast ∈ s.closed))

/-- Every connection that was opened is the current one, or `_disconnect_cast` has it or had it. -/
def Soundbar.Accounted (s : Soundbar) : Prop := ∀ cast < s.opened, s.Keeps cast

/-- What the event leads to: an attempt starts only with none in flight, and no connection is
lost. -/
def Sound (s : Soundbar) (ev : Event) : Prop :=
  ∀ t ∈ step s ev, (∀ p, t.Connecting p → ¬ s.Connecting p → s.Idle) ∧ t.Accounted

/-- The watchdog does not wake while a command connects, no command gets past the lock and its sleep
while the watchdog does, neither comes while a cancelled command's attempt is still in flight, and
such an attempt brings no connection. -/
def Apart (s : Soundbar) : Event → Prop
  | .wakes => s.adrift = 0 ∧ .connecting ∉ s.commands
  | .takesLock _ early => early = false → s.adrift = 0 ∧ s.runner ≠ .connecting
  | .paces _ => s.adrift = 0 ∧ s.runner ≠ .connecting
  | .lands ok => ok = false
  | _ => True

instance (s : Soundbar) (ev : Event) : Decidable (Apart s ev) := by
  unfold Apart
  split <;> infer_instance

/-! ### One attempt at a time -/

theorem stage_goto {s : Soundbar} {p q : Party} {a b : Stage} (h : (s.goto p a).stage q = some b) :
    (q = p ∧ b = a) ∨ (q ≠ p ∧ s.stage q = some b) := by
  cases p with
  | runner =>
    cases q with
    | runner => exact Or.inl ⟨rfl, (Option.some.inj h).symm⟩
    | command j => exact Or.inr ⟨nofun, h⟩
  | command i =>
    cases q with
    | runner => exact Or.inr ⟨nofun, h⟩
    | command j =>
      obtain ⟨rfl, rfl⟩ | ⟨hne, hold⟩ := at_set h
      · exact Or.inl ⟨rfl, rfl⟩
      · exact Or.inr ⟨fun heq => hne (Party.command.inj heq), hold⟩

theorem connecting_goto {s : Soundbar} {p q : Party} {a : Stage} (h : (s.goto p a).Connecting q) :
    (q = p ∧ a = .connecting) ∨ (q ≠ p ∧ s.Connecting q) := by
  obtain ⟨hq, ha⟩ | hold := stage_goto h
  · exact Or.inl ⟨hq, ha.symm⟩
  · exact Or.inr hold

@[simp] theorem goto_cast (s : Soundbar) (p : Party) (a : Stage) : (s.goto p a).cast = s.cast := by
  cases p <;> rfl

@[simp] theorem goto_sendLock (s : Soundbar) (p : Party) (a : Stage) :
    (s.goto p a).sendLock = s.sendLock := by
  cases p <;> rfl

@[simp] theorem goto_adrift (s : Soundbar) (p : Party) (a : Stage) :
    (s.goto p a).adrift = s.adrift := by
  cases p <;> rfl

@[simp] theorem goto_opened (s : Soundbar) (p : Party) (a : Stage) :
    (s.goto p a).opened = s.opened := by
  cases p <;> rfl

/-- The send lock is the command's own in the part that it guards; one attempt is in flight at most,
a cancelled command's or a party's, and only while there is no connection. -/
structure Linked (s : Soundbar) : Prop where
  held : ∀ i a, s.stage (.command i) = some a → a.holds = true → s.sendLock = some i
  single : ∀ p q, s.Connecting p → s.Connecting q → p = q
  alone : s.adrift ≠ 0 → ∀ p, ¬ s.Connecting p
  idle : ∀ cast, s.cast = some cast → s.Idle
  known : ∀ cast, s.Keeps cast ↔ cast < s.opened

theorem Linked.accounted {s : Soundbar} (h : Linked s) : s.Accounted := fun cast => (h.known cast).mpr

theorem Linked.empty {s : Soundbar} (h : Linked s) (hbusy : ¬ s.Idle) : s.cast = none :=
  Option.eq_none_iff_forall_ne_some.mpr fun cast hcast => hbusy (h.idle cast hcast)

theorem Linked.adrift {s : Soundbar} (h : Linked s) {p : Party} (hp : s.Connecting p) : s.adrift = 0 :=
  Decidable.byContradiction fun hne => h.alone hne p hp

theorem not_idle {s : Soundbar} {p : Party} (hp : s.Connecting p) : ¬ s.Idle := fun h => h.2 p hp

/-- A party moves on; no connection is on its hands, unless it is the watchdog's clean-up. -/
theorem keeps_goto {s : Soundbar} {p : Party} {a : Stage} (ha : ∀ cast, a ≠ .cleaning cast)
    (hp : p = .runner → ∀ cast, s.runner ≠ .cleaning cast) (cast : Nat) :
    (s.goto p a).Keeps cast ↔ s.Keeps cast := by
  cases p with
  | runner => exact or_congr Iff.rfl (or_congr (iff_of_false (ha cast) (hp rfl cast)) Iff.rfl)
  | command i => exact Iff.rfl

theorem linked_goto {s : Soundbar} (h : Linked s) {p : Party} {a : Stage} (ha : a ≠ .connecting)
    (hclean : ∀ cast, a ≠ .cleaning cast)
    (hheld : ∀ i, p = .command i → a.holds = true → s.sendLock = some i)
    (hp : p = .runner → ∀ cast, s.runner ≠ .cleaning cast) : Linked (s.goto p a) := by
  have hold : ∀ q, (s.goto p a).Connecting q → s.Connecting q := fun q hq =>
    ((connecting_goto hq).resolve_left fun hnew => ha hnew.2).2
  refine ⟨fun i b hb hholds => ?_, fun q r hq hr => h.single q r (hold q hq) (hold r hr),
    fun hadrift q hq => ?_, fun cast hcast => ?_, fun cast => ?_⟩
  · rw [goto_sendLock]
    obtain ⟨hi, rfl⟩ | ⟨-, hb⟩ := stage_goto hb
    · exact hheld i hi.symm hholds
    · exact h.held i b hb hholds
  · rw [goto_adrift] at hadrift
    exact h.alone hadrift q (hold q hq)
  · rw [goto_cast] at hcast
    obtain ⟨hadrift, hnone⟩ := h.idle cast hcast
    exact ⟨(goto_adrift s p a).trans hadrift, fun q hq => hnone q (hold q hq)⟩
  · rw [keeps_goto hclean hp, goto_opened]
    exact h.known cast

/-- `_ensure_cast` with no attempt in flight. -/
theorem linked_ensureCast {s : Soundbar} (h : Linked s) {p : Party} (hidle : s.Idle)
    (hheld : ∀ i, p = .command i → s.sendLock = some i)
    (hp : p = .runner → ∀ cast, s.runner ≠ .cleaning cast) : Linked (s.ensureCast p) := by
  unfold Soundbar.ensureCast
  cases hcast : s.cast with
  | some cast => exact linked_goto h nofun nofun (fun i hi _ => hheld i hi) hp
  | none =>
    have hnew : ∀ q, (s.goto p .connecting).Connecting q → q = p := fun q hq =>
      ((connecting_goto hq).resolve_right fun hold => hidle.2 q hold.2).1
    rw [Option.isSome_none, if_neg Bool.false_ne_true]
    refine ⟨fun i b hb hholds => ?_, fun q r hq hr => (hnew q hq).trans (hnew r hr).symm,
      fun hadrift => ?_, fun cast hsome => ?_, fun cast => ?_⟩
    · rw [goto_sendLock]
      obtain ⟨hi, -⟩ | ⟨-, hb⟩ := stage_goto hb
      · exact hheld i hi.symm
      · exact h.held i b hb hholds
    · exact absurd ((goto_adrift s p _).trans hidle.1) hadrift
    · rw [goto_cast, hcast] at hsome
      cases hsome
    · rw [keeps_goto (a := .connecting) nofun hp, goto_opened]
      exact h.known cast

/-- The one attempt in flight brings a connection, and there was none. -/
theorem linked_opens {s : Soundbar} (h : Linked s) {p : Party} (hp : s.Connecting p) :
    Linked (s.opens p) := by
  have hempty := h.empty (not_idle hp)
  have hrest : ∀ q, ¬ (s.opens p).Connecting q := by
    intro q hq
    obtain ⟨-, hnew⟩ | ⟨hne, hold⟩ := connecting_goto hq
    · cases hnew
    · exact hne (h.single q p hold hp)
  have hadrift : (s.opens p).adrift = 0 := (goto_adrift _ p _).trans (h.adrift hp)
  have hrunner : p = .runner → ∀ cast, s.runner ≠ .cleaning cast := by
    rintro rfl cast hcleaning
    exact absurd (hcleaning.symm.trans (Option.some.inj hp)) nofun
  refine ⟨fun i b hb hholds => ?_, fun q _ hq => absurd hq (hrest q), fun _ => hrest,
    fun _ _ => ⟨hadrift, hrest⟩, fun cast => ?_⟩
  · have hlock : (s.opens p).sendLock = s.sendLock := goto_sendLock _ p .working
    rw [hlock]
    obtain ⟨rfl, -⟩ | ⟨-, hb⟩ := stage_goto hb
    · exact h.held i _ hp rfl
    · exact h.held i b hb hholds
  · have hkeeps : s.Keeps cast ↔ s.runner = .cleaning cast ∨ cast ∈ s.closed := by
      rw [Soundbar.Keeps, hempty]
      exact or_iff_right nofun
    calc
      (s.opens p).Keeps cast ↔ some s.opened = some cast ∨ s.runner = .cleaning cast ∨ cast ∈ s.closed :=
        keeps_goto (s := { s with cast := some s.opened, opened := s.opened + 1 }) (a := .working) nofun
          hrunner cast
      _ ↔ some s.opened = some cast ∨ cast < s.opened := by rw [← hkeeps, h.known]
      _ ↔ cast < (s.opens p).opened := by
        rw [Soundbar.opens, goto_opened, Option.some_inj, Nat.lt_succ_iff_lt_or_eq, or_comm, eq_comm]

theorem linked_ends {s : Soundbar} (h : Linked s) {p : Party}
    (hheld : ∀ i, p = .command i → s.sendLock = some i)
    (hp : p = .runner → ∀ cast, s.runner ≠ .cleaning cast) : Linked (s.ends p) := by
  cases p with
  | runner =>
    have hwaiting : Linked (s.goto .runner .waiting) := linked_goto h nofun nofun nofun hp
    exact hwaiting
  | command i =>
    have hdone : Linked (s.goto (.command i) .done) :=
      linked_goto h nofun nofun (fun _ _ hholds => absurd hholds nofun) hp
    refine ⟨fun j b hb hholds => ?_, hdone.single, hdone.alone, hdone.idle, hdone.known⟩
    -- another command under the lock would have had it instead
    have hgoto : (s.goto (.command i) .done).stage (.command j) = some b := hb
    obtain ⟨-, rfl⟩ | ⟨hne, hold⟩ := stage_goto hgoto
    · cases hholds
    · have hj := h.held j b hold hholds
      rw [hheld i rfl] at hj
      exact absurd (congrArg Party.command (Option.some.inj hj).symm) hne

theorem linked_disconnectCast {s : Soundbar} (h : Linked s) (hworking : s.runner = .working) :
    Linked s.disconnectCast := by
  have hnot : ∀ cast, s.runner ≠ .cleaning cast := fun cast heq => by
    rw [hworking] at heq
    cases heq
  unfold Soundbar.disconnectCast
  cases hcast : s.cast with
  | none => exact linked_ends h nofun fun _ => hnot
  | some cast =>
    have hnone : ∀ q, ¬ ({ s with cast := none }.goto .runner (.cleaning cast)).Connecting q := by
      intro q hq
      obtain ⟨-, hnew⟩ | ⟨-, hold⟩ := connecting_goto hq
      · cases hnew
      · exact (h.idle cast hcast).2 q hold
    refine ⟨fun i b hb hholds => ?_, fun q _ hq => absurd hq (hnone q), fun _ => hnone, nofun,
      fun c => ?_⟩
    · exact h.held i b hb hholds
    · have hkeeps : s.Keeps c ↔ cast = c ∨ c ∈ s.closed := by
        rw [Soundbar.Keeps, hcast, Option.some_inj, or_iff_right (hnot c)]
      calc
        ({ s with cast := none }.goto .runner (.cleaning cast)).Keeps c ↔
            none = some c ∨ Stage.cleaning cast = .cleaning c ∨ c ∈ s.closed := Iff.rfl
        _ ↔ cast = c ∨ c ∈ s.closed := by rw [or_iff_right nofun, Stage.cleaning.injEq]
        _ ↔ c < s.opened := hkeeps.symm.trans (h.known c)

/-- What a step keeps, and how an attempt starts in it. -/
structure Next (s t : Soundbar) : Prop where
  linked : Linked t
  starts : ∀ p, t.Connecting p → ¬ s.Connecting p → s.Idle

/-- A step in which no attempt starts. -/
theorem Next.quiet {s t : Soundbar} (hlinked : Linked t) (hold : ∀ p, t.Connecting p → s.Connecting p) :
    Next s t :=
  ⟨hlinked, fun p hp hnot => absurd (hold p hp) hnot⟩

theorem Next.ensureCast {s s' : Soundbar} {p : Party} (h : Linked s') (hidle : s.Idle)
    (hidle' : s'.Idle) (hheld : ∀ i, p = .command i → s'.sendLock = some i)
    (hp : p = .runner → ∀ cast, s'.runner ≠ .cleaning cast) : Next s (s'.ensureCast p) :=
  ⟨linked_ensureCast h hidle' hheld hp, fun _ _ _ => hidle⟩

theorem not_cleaning {s : Soundbar} {a : Stage} (h : s.runner = a) (ha : ∀ cast, a ≠ .cleaning cast)
    (cast : Nat) : s.runner ≠ .cleaning cast := h ▸ ha cast

/-- A command under the lock is the only one there. -/
theorem Linked.no_command {s : Soundbar} (h : Linked s) {i : Nat} {a : Stage}
    (hi : s.commands[i]? = some a) (hholds : a.holds = true) (ha : a ≠ .connecting) (j : Nat) :
    ¬ s.Connecting (.command j) := by
  intro hj
  have hlock := h.held i a hi hholds
  rw [h.held j .connecting hj rfl] at hlock
  obtain rfl := Option.some.inj hlock
  exact ha (Option.some.inj (hi.symm.trans hj))

theorem idle_of {s : Soundbar} (hadrift : s.adrift = 0) (hrunner : s.runner ≠ .connecting)
    (hcommands : ∀ i, ¬ s.Connecting (.command i)) : s.Idle := by
  refine ⟨hadrift, fun p => ?_⟩
  cases p with
  | runner => exact fun h => hrunner (Option.some.inj h)
  | command i => exact hcommands i

theorem linked_issues {s : Soundbar} (h : Linked s) :
    Next s { s with commands := s.commands ++ [.waiting] } := by
  have hold : ∀ q a, ({ s with commands := s.commands ++ [.waiting] } : Soundbar).stage q = some a →
      a ≠ .waiting → s.stage q = some a := by
    intro q a hq ha
    cases q with
    | runner => exact hq
    | command j => exact (at_concat hq).resolve_left fun hnew => ha hnew.2
  have hconnecting : ∀ p, ({ s with commands := s.commands ++ [.waiting] } : Soundbar).Connecting p →
      s.Connecting p := fun p hp => hold p _ hp nofun
  refine .quiet ⟨fun i a hi hholds => ?_, fun p q hp hq => ?_, fun hadrift p hp => ?_,
    fun cast hcast => ?_, h.known⟩ hconnecting
  · exact h.held i a (hold _ a hi fun heq => by simp [heq, Stage.holds] at hholds) hholds
  · exact h.single p q (hconnecting p hp) (hconnecting q hq)
  · exact h.alone hadrift p (hconnecting p hp)
  · obtain ⟨hadrift, hnone⟩ := h.idle cast hcast
    exact ⟨hadrift, fun p hp => hnone p (hconnecting p hp)⟩

/-- The lock is taken. -/
theorem linked_locked {s : Soundbar} (h : Linked s) (hfree : s.sendLock = none) (i : Nat) :
    Linked { s with sendLock := some i } := by
  refine ⟨fun j a hj hholds => ?_, h.single, h.alone, h.idle, h.known⟩
  have hlock := h.held j a hj hholds
  rw [hfree] at hlock
  cases hlock

theorem connecting_ends {s : Soundbar} {p q : Party} (h : (s.ends p).Connecting q) :
    q ≠ p ∧ s.Connecting q := by
  cases p with
  | runner =>
    have hgoto : (s.goto .runner .waiting).Connecting q := h
    exact (connecting_goto hgoto).resolve_left nofun
  | command i =>
    have hgoto : ({ s with sendLock := none }.goto (.command i) .done).Connecting q := h
    exact (connecting_goto hgoto).resolve_left nofun

theorem connecting_disconnectCast {s : Soundbar} {q : Party} (h : s.disconnectCast.Connecting q) :
    s.Connecting q := by
  unfold Soundbar.disconnectCast at h
  cases hcast : s.cast with
  | none =>
    rw [hcast] at h
    exact (connecting_ends h).2
  | some cast =>
    rw [hcast] at h
    exact ((connecting_goto h).resolve_left nofun).2

theorem linked_cancels {s t : Soundbar} {i : Nat} {a : Stage} (h : Linked s)
    (hi : s.commands[i]? = some a) (hcancel : s.cancels i a = some t) : Next s t := by
  have hends (hholds : a.holds = true) : Linked (s.ends (.command i)) := by
    refine linked_ends h (fun j hj => ?_) nofun
    rw [h.held i a hi hholds, Party.command.inj hj]
  cases a with
  | waiting =>
    obtain rfl := Option.some.inj hcancel
    refine .quiet (linked_goto h nofun nofun (fun _ _ hholds => absurd hholds nofun) nofun) fun q hq => ?_
    exact ((connecting_goto hq).resolve_left nofun).2
  | pacing =>
    obtain rfl := Option.some.inj hcancel
    exact .quiet (hends rfl) fun q hq => (connecting_ends hq).2
  | working =>
    obtain rfl := Option.some.inj hcancel
    exact .quiet (hends rfl) fun q hq => (connecting_ends hq).2
  | connecting =>
    obtain rfl := Option.some.inj hcancel
    have hlinked := hends rfl
    -- the thread's attempt takes the place of the command's
    have hnone : ∀ q, ¬ (s.ends (.command i)).Connecting q := by
      intro q hq
      obtain ⟨hne, hold⟩ := connecting_ends hq
      exact hne (h.single q _ hold hi)
    refine .quiet ⟨hlinked.held, hlinked.single, fun _ => hnone, fun cast hcast => ?_, hlinked.known⟩
      fun q hq => absurd hq (hnone q)
    exact absurd (h.idle cast hcast) (not_idle (p := .command i) hi)
  | cleaning cast => cases hcancel
  | done => cases hcancel

/-- A command gets the lock, and sleeps first or looks for a connection. -/
theorem linked_takesLock {s : Soundbar} (h : Linked s) (hfree : s.sendLock = none) (i : Nat)
    {early : Bool} (hapart : early = false → s.adrift = 0 ∧ s.runner ≠ .connecting) :
    Next s (if early then { s with sendLock := some i }.goto (.command i) .pacing
      else { s with sendLock := some i }.ensureCast (.command i)) := by
  have hlocked := linked_locked h hfree i
  cases early with
  | true =>
    rw [if_pos rfl]
    refine .quiet (linked_goto hlocked nofun nofun (fun j hj _ => ?_) nofun) fun p hp => ?_
    · exact congrArg some (Party.command.inj hj)
    · exact ((connecting_goto hp).resolve_left nofun).2
  | false =>
    have hidle : s.Idle := by
      refine idle_of (hapart rfl).1 (hapart rfl).2 fun j hj => ?_
      -- whoever connects has the lock, which was free
      have hlock := h.held j .connecting hj rfl
      rw [hfree] at hlock
      cases hlock
    exact .ensureCast hlocked hidle hidle (fun j hj => congrArg some (Party.command.inj hj)) nofun

/-- The clean-up of a connection has ended. -/
theorem linked_cleans {s : Soundbar} {cast : Nat} (h : Linked s) (hcleaning : s.runner = .cleaning cast) :
    Next s ({ s with closed := s.closed ++ [cast] }.ends .runner) := by
  have hold : ∀ q, ({ s with closed := s.closed ++ [cast] }.ends .runner).Connecting q →
      s.Connecting q := fun q hq =>
    (connecting_ends (s := { s with closed := s.closed ++ [cast] }) hq).2
  refine .quiet ⟨fun i a hi hholds => h.held i a hi hholds, fun p q hp hq =>
    h.single p q (hold p hp) (hold q hq), fun hadrift p hp => h.alone hadrift p (hold p hp),
    fun c hc => ?_, fun c => ?_⟩ hold
  · obtain ⟨hadrift, hnone⟩ := h.idle c hc
    exact ⟨hadrift, fun p hp => hnone p (hold p hp)⟩
  · calc
      ({ s with closed := s.closed ++ [cast] }.ends .runner).Keeps c ↔
          s.cast = some c ∨ Stage.waiting = .cleaning c ∨ c ∈ s.closed ++ [cast] := Iff.rfl
      _ ↔ s.cast = some c ∨ Stage.cleaning cast = .cleaning c ∨ c ∈ s.closed := by
        rw [or_iff_right (a := Stage.waiting = .cleaning c) nofun, List.mem_append, List.mem_singleton,
          Stage.cleaning.injEq, or_comm (a := c ∈ s.closed), eq_comm (a := c)]
      _ ↔ c < s.opened := by
        rw [← hcleaning]
        exact h.known c

theorem linked_step {s t : Soundbar} {ev : Event} (h : Linked s) (hapart : Apart s ev)
    (hstep : step s ev = some t) : Next s t := by
  cases ev with
  | wakes =>
    obtain ⟨hwaiting, rfl⟩ := of_guard hstep
    have hidle : s.Idle := by
      refine idle_of hapart.1 (by rw [hwaiting]; nofun) fun i hi => ?_
      exact hapart.2 (List.mem_of_getElem? hi)
    exact .ensureCast h hidle hidle nofun fun _ => not_cleaning hwaiting nofun
  | issues =>
    obtain rfl := Option.some.inj hstep
    exact linked_issues h
  | takesLock i early =>
    obtain ⟨⟨hfree, -, -⟩, rfl⟩ := of_guard hstep
    exact linked_takesLock h hfree i hapart
  | paces i =>
    obtain ⟨hi, rfl⟩ := of_guard hstep
    have hidle : s.Idle := idle_of hapart.1 hapart.2 (h.no_command hi rfl nofun)
    refine .ensureCast h hidle hidle (fun j hj => ?_) nofun
    rw [h.held i .pacing hi rfl, Party.command.inj hj]
  | connects p ok =>
    obtain ⟨hp, rfl⟩ := of_guard hstep
    cases ok with
    | true =>
      refine .quiet (linked_opens h hp) fun q hq => ?_
      have hgoto : ({ s with cast := some s.opened, opened := s.opened + 1 }.goto p .working).Connecting q
        := hq
      exact ((connecting_goto hgoto).resolve_left nofun).2
    | false =>
      refine .quiet (linked_ends h (fun i hi => ?_) fun hrunner => ?_) fun q hq => (connecting_ends hq).2
      · subst hi
        exact h.held i .connecting hp rfl
      · subst hrunner
        exact not_cleaning (Option.some.inj hp) nofun
  | reads ok =>
    obtain ⟨hworking, rfl⟩ := of_guard hstep
    cases ok with
    | true =>
      rw [if_pos rfl]
      exact .quiet (linked_ends h nofun fun _ => not_cleaning hworking nofun) fun q hq =>
        (connecting_ends hq).2
    | false => exact .quiet (linked_disconnectCast h hworking) fun q => connecting_disconnectCast
  | cleans cast =>
    obtain ⟨hcleaning, rfl⟩ := of_guard hstep
    exact linked_cleans h hcleaning
  | runs i =>
    obtain ⟨hi, rfl⟩ := of_guard hstep
    refine .quiet (linked_ends h (fun j hj => ?_) nofun) fun q hq => (connecting_ends hq).2
    rw [h.held i .working hi rfl, Party.command.inj hj]
  | cancels i =>
    obtain ⟨a, hi, hcancel⟩ := Option.bind_eq_some_iff.mp hstep
    exact linked_cancels h hi hcancel
  | lands ok =>
    obtain ⟨hadrift, rfl⟩ := of_guard hstep
    obtain rfl : ok = false := hapart
    have hne := Nat.pos_iff_ne_zero.mp hadrift
    refine .quiet ⟨h.held, h.single, fun _ => h.alone hne, fun cast hcast => ?_, h.known⟩ fun _ => id
    exact absurd (h.idle cast hcast).1 hne

/-- A party gets to `_ensure_cast`, and no attempt starts while one is in flight. -/
theorem idle_of_starts {s s' : Soundbar} {p : Party} {a : Stage} (h : Linked s)
    (hcast : s'.cast = s.cast) (hp : ¬ s.Connecting p) (hstage : s'.stage p = some a)
    (hstarts : ∀ r, (s'.ensureCast p).Connecting r → ¬ s.Connecting r → s.Idle) : s.Idle := by
  by_contra hbusy
  refine hbusy (hstarts p ?_ hp)
  unfold Soundbar.ensureCast Soundbar.Connecting
  rw [hcast, h.empty hbusy, Option.isSome_none, if_neg Bool.false_ne_true]
  cases p with
  | runner => rfl
  | command i => exact List.getElem?_set_self (List.getElem?_eq_some_iff.mp hstage).1

theorem apart_of_sound {s t : Soundbar} {ev : Event} (h : Linked s) (hstep : step s ev = some t)
    (hsound : Sound s ev) : Apart s ev := by
  obtain ⟨hstarts, haccounted⟩ := hsound t hstep
  cases ev with
  | wakes =>
    obtain ⟨hwaiting, rfl⟩ := of_guard hstep
    have hidle := idle_of_starts (p := .runner) h rfl (fun hp => ?_) rfl hstarts
    · refine ⟨hidle.1, fun hmem => ?_⟩
      obtain ⟨i, hi⟩ := List.getElem?_of_mem hmem
      exact hidle.2 (.command i) hi
    · exact absurd (hwaiting.symm.trans (Option.some.inj hp)) nofun
  | takesLock i early =>
    rintro rfl
    obtain ⟨⟨hfree, hi, -⟩, rfl⟩ := of_guard hstep
    have hstage : s.stage (.command i) = some _ := hi
    have hidle := idle_of_starts h rfl (fun hp => ?_) hstage hstarts
    · exact ⟨hidle.1, fun hrunner => hidle.2 .runner (congrArg some hrunner)⟩
    · exact absurd (hi.symm.trans hp) nofun
  | paces i =>
    obtain ⟨hi, rfl⟩ := of_guard hstep
    have hstage : s.stage (.command i) = some _ := hi
    have hidle := idle_of_starts h rfl (fun hp => ?_) hstage hstarts
    · exact ⟨hidle.1, fun hrunner => hidle.2 .runner (congrArg some hrunner)⟩
    · exact absurd (hi.symm.trans hp) nofun
  | lands ok =>
    obtain ⟨-, rfl⟩ := of_guard hstep
    cases ok with
    | false => rfl
    | true =>
      -- the connection that has just been opened is nowhere
      have hkept : s.Keeps s.opened := haccounted s.opened (Nat.lt_succ_self _)
      exact absurd ((h.known s.opened).mp hkept) (Nat.lt_irrefl _)
  | _ => trivial

theorem linked_init : Linked {} := by
  have hnone : ∀ p, ¬ ({} : Soundbar).Connecting p := by
    intro p hp
    cases p with
    | runner => cases hp
    | command i => cases hp
  refine ⟨nofun, fun p _ hp => absurd hp (hnone p), fun _ => hnone, nofun, fun cast => ?_⟩
  refine iff_of_false ?_ (Nat.not_lt_zero cast)
  rintro (hcur | hcleaning | hclosed)
  · cases hcur
  · cases hcleaning
  · cases hclosed

theorem sound_iff_apart {s t : Soundbar} {es : List Event} (h : Linked s)
    (hrun : execute step s es = some t) : Along step Sound s es ↔ Along step Apart s es := by
  induction es generalizing s with
  | nil => exact Iff.rfl
  | cons e es ih =>
    obtain ⟨u, hstep, hrest⟩ := Option.bind_eq_some_iff.mp hrun
    have hiff : Sound s e ↔ Apart s e := by
      refine ⟨apart_of_sound h hstep, fun hapart v hv => ?_⟩
      have hnext := linked_step h hapart hv
      exact ⟨hnext.starts, hnext.linked.accounted⟩
    unfold Along
    rw [hiff, hstep]
    exact and_congr_right fun hapart => ih (linked_step h hapart hstep).linked hrest

/-- In a run attempts start one at a time and no connection is ever lost exactly if the watchdog does
not wake while a command connects, no command's turn comes while the watchdog does, and no command is
cancelled in an attempt that then brings a connection or is still in flight as another would start. -/
theorem one_connection_iff {s : Soundbar} {es : List Event} (h : execute step {} es = some s) :
    Along step Sound {} es ↔ Along step Apart {} es :=
  sound_iff_apart linked_init h

/-- A command uses the watchdog's connection, whose status then cannot be read; the next command
fails to connect, one is cancelled as it connects, and the last connects again. -/
def inTurn : List Event :=
  [.wakes, .connects .runner true, .issues, .takesLock 0 true, .paces 0, .reads false, .runs 0,
    .issues, .takesLock 1 false, .connects (.command 1) false, .issues, .takesLock 2 false,
    .cancels 2, .lands false, .issues, .takesLock 3 false, .connects (.command 3) true, .cleans 0,
    .wakes, .runs 3, .reads true]

theorem one_connection_iff_inTurn : Along step Sound {} inTurn := by
  have hrun : (execute step {} inTurn).isSome := by decide
  obtain ⟨s, hs⟩ := Option.isSome_iff_exists.mp hrun
  exact (one_connection_iff hs).mpr (by decide)

/-- The soundbar is slow to answer the watchdog as a command comes. -/
def atOnce : List Event :=
  [.wakes, .issues, .takesLock 0 false, .connects .runner true, .connects (.command 0) true]

theorem two_connections_atOnce :
    (∃ s, execute step {} (atOnce.take 3) = some s ∧ s.Connecting .runner ∧ s.Connecting (.command 0)) ∧
    (∃ s, execute step {} atOnce = some s ∧ s.opened = 2 ∧ s.cast = some 1 ∧ ¬ s.Accounted) ∧
    ¬ Along step Sound {} atOnce := by
  have hlost (s : Soundbar) (hs : execute step {} atOnce = some s) : ¬ s.Accounted := by
    obtain rfl := Option.some.inj hs
    intro h
    exact absurd (h 0 (by decide)) (by decide)
  refine ⟨⟨_, rfl, rfl, rfl⟩, ⟨_, rfl, rfl, rfl, hlost _ rfl⟩, fun hsound => ?_⟩
  have hapart := (sound_iff_apart linked_init (show execute step {} atOnce = some _ from rfl)).mp hsound
  exact absurd hapart (by decide)

end PiHub.CastLink

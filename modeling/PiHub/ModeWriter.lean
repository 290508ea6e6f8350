import PiHub.Transition

/-! Saves of the mode (runtime.py): the one-thread executor, its shutdown, and the direct
writes from the event loop after that. -/
namespace PiHub.ModeWriter
open PiHub.Transition

/-- What one call of `_remember` saves. -/
structure Save where
  mode : String
  lastFlow : Option String
  deriving DecidableEq

/-- Where a call of `_write_mode` is: before it writes the temporary file, or before the
replace. -/
inductive Stage where
  | begun | written
  deriving DecidableEq

structure Write where
  save : Save
  stage : Stage := .begun
  deriving DecidableEq

/-- Who runs `_write_mode`. -/
inductive Thread where
  | worker | loop
  deriving DecidableEq

/-- The executor's queue and thread, the event loop's own write, and the two files. `saves`
are the calls of `_remember` and `log` what has reached mode.json, both in order. -/
structure Writer where
  queue : List Save := []
  worker : Option Write := none
  loop : Option Write := none
  shutdown : Bool := false
  tmp : Option Save
  file : Option Save
  saves : List Save := []
  log : List Save := []
  deriving DecidableEq

def Writer.running (w : Writer) : Thread → Option Write
  | .worker => w.worker
  | .loop => w.loop

def Writer.setRunning (w : Writer) (write : Option Write) : Thread → Writer
  | .worker => { w with worker := write }
  | .loop => { w with loop := write }

/-- `_remember`. The executor refuses work once its shutdown has begun. -/
def Writer.remember (w : Writer) (save : Save) : Writer :=
  if w.shutdown then { w with loop := some { save := save }, saves := w.saves ++ [save] }
  else { w with queue := w.queue ++ [save], saves := w.saves ++ [save] }

/-- `os.replace`. Without a temporary file it fails, which `_write_mode` only logs. -/
def Writer.replace (w : Writer) : Writer :=
  match w.tmp with
  | none => w
  | some save => { w with tmp := none, file := some save, log := w.log ++ [save] }

/-- `_write_mode` up to the replace. -/
def Writer.writes (w : Writer) (t : Thread) : Option Writer :=
  match w.running t with
  | some ⟨save, .begun⟩ =>
    some ({ w with tmp := some save }.setRunning (some ⟨save, .written⟩) t)
  | _ => none

def Writer.replaces (w : Writer) (t : Thread) : Option Writer :=
  match w.running t with
  | some ⟨_, .written⟩ => some (w.replace.setRunning none t)
  | _ => none

inductive Event where
  | remember (save : Save)
  | shutdown
  | take
  | writes (t : Thread)
  | replaces (t : Thread)
  deriving DecidableEq

def step (w : Writer) : Event → Option Writer
  -- while the loop writes, nothing else runs on it
  | .remember save => if w.loop = none then some (w.remember save) else none
  | .shutdown => some { w with shutdown := true }
  | .take =>
    match w.worker, w.queue with
    | none, save :: rest => some { w with worker := some { save := save }, queue := rest }
    | _, _ => none
  | .writes t => w.writes t
  | .replaces t => w.replaces t

/-- The saves that have yet to reach the file. -/
def Writer.pending (w : Writer) : List Save :=
  (w.worker.map Write.save).toList ++ w.queue ++ (w.loop.map Write.save).toList

/-- Every save has reached the file or will, in the order they were made, and the file holds
the last once all have. -/
structure InOrder (w : Writer) : Prop where
  reaches : w.saves = w.log ++ w.pending
  last : w.pending = [] → ∀ save, w.saves.getLast? = some save → w.file = some save

/-- A save made once the shutdown has begun finds no other pending. -/
def Clear (w : Writer) : Event → Prop
  | .remember _ => w.shutdown = true → w.pending = []
  | _ => True

instance (w : Writer) (ev : Event) : Decidable (Clear w ev) :=
  match ev with
  | .remember _ => inferInstanceAs (Decidable (_ → _))
  | .shutdown | .take | .writes _ | .replaces _ => .isTrue trivial

/-- One write at a time, and the temporary file holds what it has written. -/
structure OneWrite (w : Writer) : Prop where
  order : w.saves = w.log ++ w.pending
  file : ∀ save, w.log.getLast? = some save → w.file = some save
  alone : w.loop ≠ none → w.worker = none ∧ w.queue = []
  tmp : ∀ t save, w.running t = some ⟨save, .written⟩ → w.tmp = some save

theorem OneWrite.inOrder {w : Writer} (h : OneWrite w) : InOrder w := by
  refine ⟨h.order, fun hnone save hlast => h.file save ?_⟩
  rwa [h.order, hnone, List.append_nil] at hlast

theorem pending_nil {w : Writer} (h : w.pending = []) :
    w.worker = none ∧ w.queue = [] ∧ w.loop = none := by
  unfold Writer.pending at h
  simp only [List.append_eq_nil_iff] at h
  obtain ⟨⟨hworker, hqueue⟩, hloop⟩ := h
  exact ⟨by simpa using hworker, hqueue, by simpa using hloop⟩

theorem OneWrite.remember {w : Writer} {save : Save} (h : OneWrite w) (hloop : w.loop = none)
    (hclear : w.shutdown = true → w.pending = []) : OneWrite (w.remember save) := by
  unfold Writer.remember
  by_cases hdown : w.shutdown = true
  · rw [if_pos hdown]
    obtain ⟨hworker, hqueue, _⟩ := pending_nil (hclear hdown)
    refine ⟨?_, h.file, fun _ => ⟨hworker, hqueue⟩, ?_⟩
    · simp [h.order, Writer.pending, hworker, hqueue, hloop]
    · intro t s ht
      cases t with
      | worker => exact h.tmp .worker s ht
      | loop => simp [Writer.running] at ht
  · rw [if_neg hdown]
    refine ⟨?_, h.file, fun hne => absurd hloop hne, h.tmp⟩
    simp [h.order, Writer.pending, hloop]

theorem OneWrite.take {w w' : Writer} (h : OneWrite w) (hstep : step w .take = some w') :
    OneWrite w' := by
  cases hworker : w.worker with
  | some write => simp [step, hworker] at hstep
  | none =>
    cases hqueue : w.queue with
    | nil => simp [step, hworker, hqueue] at hstep
    | cons save rest =>
      obtain rfl : { w with worker := some { save := save }, queue := rest } = w' := by
        simpa [step, hworker, hqueue] using hstep
      have hloop : w.loop = none := by
        by_contra hne
        simpa [hqueue] using (h.alone hne).2
      refine ⟨?_, h.file, fun hne => absurd hloop hne, ?_⟩
      · simp [h.order, Writer.pending, hworker, hqueue]
      · intro t s ht
        cases t with
        | worker => simp [Writer.running] at ht
        | loop => simp [Writer.running, hloop] at ht

theorem OneWrite.loop_none {w : Writer} {write : Write} (h : OneWrite w)
    (hworker : w.worker = some write) : w.loop = none := by
  by_contra hne
  simpa [hworker] using (h.alone hne).1

theorem OneWrite.writes {w w' : Writer} {t : Thread} (h : OneWrite w)
    (hstep : w.writes t = some w') : OneWrite w' := by
  obtain ⟨save, hrun, rfl⟩ : ∃ save, w.running t = some ⟨save, .begun⟩ ∧
      { w with tmp := some save }.setRunning (some ⟨save, .written⟩) t = w' := by
    unfold Writer.writes at hstep
    split at hstep
    · rename_i save hrun
      exact ⟨save, hrun, Option.some.inj hstep⟩
    · simp at hstep
  cases t with
  | worker =>
    have hworker : w.worker = some ⟨save, .begun⟩ := hrun
    have hloop := h.loop_none hworker
    refine ⟨?_, h.file, fun hne => absurd hloop hne, ?_⟩
    · simp [h.order, Writer.pending, Writer.setRunning, hworker]
    · intro u s hu
      cases u with
      | worker => simpa [Writer.running, Writer.setRunning] using hu
      | loop => simp [Writer.running, Writer.setRunning, hloop] at hu
  | loop =>
    have hloop : w.loop = some ⟨save, .begun⟩ := hrun
    refine ⟨?_, h.file, fun _ => h.alone (by simp [hloop]), ?_⟩
    · simp [h.order, Writer.pending, Writer.setRunning, hloop]
    · intro u s hu
      cases u with
      | worker =>
        have hnone := (h.alone (by simp [hloop])).1
        simp [Writer.running, Writer.setRunning, hnone] at hu
      | loop => simpa [Writer.running, Writer.setRunning] using hu

/-- The replace moves the save that is first in line from the temporary file to mode.json. -/
theorem OneWrite.replaces {w w' : Writer} {t : Thread} (h : OneWrite w)
    (hstep : w.replaces t = some w') : OneWrite w' := by
  obtain ⟨save, hrun, rfl⟩ : ∃ save, w.running t = some ⟨save, .written⟩ ∧
      w.replace.setRunning none t = w' := by
    unfold Writer.replaces at hstep
    split at hstep
    · rename_i save hrun
      exact ⟨save, hrun, Option.some.inj hstep⟩
    · simp at hstep
  have htmp := h.tmp t save hrun
  cases t with
  | worker =>
    have hworker : w.worker = some ⟨save, .written⟩ := hrun
    have hloop := h.loop_none hworker
    refine ⟨?_, ?_, fun hne => ?_, ?_⟩
    · simp [h.order, Writer.pending, Writer.setRunning, Writer.replace, htmp, hworker]
    · simp [Writer.setRunning, Writer.replace, htmp]
    · simp [Writer.setRunning, Writer.replace, htmp, hloop] at hne
    · intro u s hu
      cases u with
      | worker => simp [Writer.running, Writer.setRunning] at hu
      | loop => simp [Writer.running, Writer.setRunning, Writer.replace, htmp, hloop] at hu
  | loop =>
    have hloop : w.loop = some ⟨save, .written⟩ := hrun
    obtain ⟨hworker, hqueue⟩ := h.alone (by simp [hloop])
    refine ⟨?_, ?_, fun hne => ?_, ?_⟩
    · simp [h.order, Writer.pending, Writer.setRunning, Writer.replace, htmp, hworker, hqueue, hloop]
    · simp [Writer.setRunning, Writer.replace, htmp]
    · simp [Writer.setRunning] at hne
    · intro u s hu
      cases u with
      | worker => simp [Writer.running, Writer.setRunning, Writer.replace, htmp, hworker] at hu
      | loop => simp [Writer.running, Writer.setRunning] at hu

theorem oneWrite_step {w w' : Writer} {ev : Event} (h : OneWrite w) (hclear : Clear w ev)
    (hstep : step w ev = some w') : OneWrite w' := by
  cases ev with
  | remember save =>
    by_cases hloop : w.loop = none
    · obtain rfl : w.remember save = w' := by simpa [step, hloop] using hstep
      exact h.remember hloop hclear
    · simp [step, hloop] at hstep
  | shutdown =>
    obtain rfl := Option.some.inj hstep
    exact ⟨h.order, h.file, h.alone, h.tmp⟩
  | take => exact h.take hstep
  | writes t => exact h.writes hstep
  | replaces t => exact h.replaces hstep

/-- As long as no save is made after the shutdown with an earlier one pending, the file holds
the last save once all writes are done. -/
theorem saves_in_order (tmp file : Option Save) {w : Writer}
    (h : ReachableBy step Clear { tmp := tmp, file := file } w) : InOrder w := by
  have hone : OneWrite w := by
    apply h.invariant
    · refine ⟨rfl, by simp, by simp, ?_⟩
      intro t save ht
      cases t with
      | worker => simp [Writer.running] at ht
      | loop => simp [Writer.running] at ht
    · intro t ev u ht hclear hstep
      exact oneWrite_step ht hclear hstep
  exact hone.inOrder

/-- Otherwise the late save can reach the file before the pending ones. -/
theorem late_save_overtakes {tmp file : Option Save} {w : Writer} {first save : Save}
    {rest : List Save} (h : ReachableBy step Clear { tmp := tmp, file := file } w)
    (hloop : w.loop = none) (hdown : w.shutdown = true) (hpending : w.pending = first :: rest)
    (hne : first ≠ save) :
    ∃ w', execute step w [.remember save, .writes .loop, .replaces .loop] = some w' ∧
      ¬ InOrder w' := by
  have horder := (saves_in_order tmp file h).reaches
  have hrest : w.pending = (w.worker.map Write.save).toList ++ w.queue := by
    simp [Writer.pending, hloop]
  refine ⟨{ w with tmp := none, file := some save, loop := none, saves := w.saves ++ [save]
                   log := w.log ++ [save] }, ?_, fun hin => hne ?_⟩
  · simp [execute, step, Writer.remember, hloop, hdown, Writer.writes, Writer.replaces,
      Writer.replace, Writer.running, Writer.setRunning]
  · have hreach := hin.reaches
    simp only [Writer.pending, Option.map_none, Option.toList_none, List.append_nil] at hreach
    rw [← hrest, hpending, horder, hpending, List.append_assoc, List.append_assoc] at hreach
    exact (List.cons.inj (List.append_cancel_left hreach)).1

def watching : Save := { mode := "watch", lastFlow := some "watch" }

def off : Save := { mode := "power_off", lastFlow := some "power_off" }

/-- A flow's save, the shutdown once it has been written, and another flow's save. -/
def savedAtShutdown : List Event :=
  [.remember watching, .take, .writes .worker, .replaces .worker, .shutdown, .remember off,
    .writes .loop, .replaces .loop]

theorem saved_at_shutdown_in_order : ∃ w,
    execute step { tmp := none, file := none } savedAtShutdown = some w ∧
      w.saves = [watching, off] ∧ w.file = some off ∧ InOrder w := by
  refine ⟨_, rfl, rfl, rfl, ?_⟩
  have hclear : Along step Clear { tmp := none, file := none } savedAtShutdown := by decide
  exact saves_in_order none none (reachableBy_of_execute rfl hclear)

/-- The shutdown begins with a save in the queue. -/
def lateSave : List Event :=
  [.remember watching, .shutdown, .remember off, .writes .loop, .replaces .loop, .take,
    .writes .worker, .replaces .worker]

theorem late_save_lost : ∃ w, execute step { tmp := none, file := none } lateSave = some w ∧
    w.pending = [] ∧ w.saves = [watching, off] ∧ w.file = some watching ∧ ¬ InOrder w := by
  refine ⟨_, rfl, rfl, rfl, rfl, fun hin => ?_⟩
  have hlast := hin.last rfl off rfl
  exact absurd hlast (by decide)

end PiHub.ModeWriter

import PiHub.Transition

/-! The history store and its writer thread (history.py). The writer never looks into what it
copies, so its loop is over any content; `close` is left out. -/
namespace PiHub.HistoryWriter
open PiHub.Transition

/-- `_writer_loop`: before `wait` returns, after it, in the debounce, after its `wait` returned
true, before `_write_if_dirty`, with its copy, with an exception, after `_dirty` is set again, and
in the retry's sleep. -/
inductive Stage (C : Type*) where
  | waiting | woken | debouncing | hit | checking
  | writing (copy : C)
  | failed | marked | sleeping

/-- The content, the flags, the file and where the threads stand. `requestsDue` counts the
producers between their change and their `_request_flush`. -/
structure State (C : Type*) where
  content : C
  dirty : Bool
  flushEvt : Bool
  file : Option C
  writer : Stage C
  requestsDue : Nat
  changed : Bool

/-- Before the first change, with whatever has been loaded from whatever file. -/
def State.start {C : Type*} (content : C) (file : Option C) : State C :=
  ⟨content, false, false, file, .waiting, 0, false⟩

inductive Event (K : Type*) where
  | changes (k : K)
  | requestsFlush
  | wakes | clears | hits | clearsHit | debounces
  | copies | replaces | fails
  | marks | setsFlush | sleeps

variable {C K : Type*}

def step (change : C → K → C) (s : State C) : Event K → Option (State C)
  | .changes k => some { s with
      content := change s.content k, dirty := true, requestsDue := s.requestsDue + 1, changed := true }
  | .requestsFlush =>
    if s.requestsDue = 0 then none
    else some { s with flushEvt := true, requestsDue := s.requestsDue - 1 }
  | .wakes =>
    match s.writer, s.flushEvt with
    | .waiting, true => some { s with writer := .woken }
    | _, _ => none
  | .clears =>
    match s.writer with
    | .woken => some { s with flushEvt := false, writer := .debouncing }
    | _ => none
  | .hits =>
    match s.writer, s.flushEvt with
    | .debouncing, true => some { s with writer := .hit }
    | _, _ => none
  | .clearsHit =>
    match s.writer with
    | .hit => some { s with flushEvt := false, writer := .debouncing }
    | _ => none
  | .debounces =>
    match s.writer with
    | .debouncing => some { s with writer := .checking }
    | _ => none
  | .copies =>
    match s.writer with
    | .checking =>
      some (if s.dirty then { s with dirty := false, writer := .writing s.content }
        else { s with writer := .waiting })
    | _ => none
  | .replaces =>
    match s.writer with
    | .writing copy => some { s with file := some copy, writer := .waiting }
    | _ => none
  | .fails =>
    match s.writer with
    | .writing _ => some { s with writer := .failed }
    | _ => none
  | .marks =>
    match s.writer with
    | .failed => some { s with dirty := true, writer := .marked }
    | _ => none
  | .setsFlush =>
    match s.writer with
    | .marked => some { s with flushEvt := true, writer := .sleeping }
    | _ => none
  | .sleeps =>
    match s.writer with
    | .sleeping => some { s with writer := .waiting }
    | _ => none

/-- The stages from which the writer looks at `_dirty`, or sets the flush event, before it waits. -/
def Stage.looks : Stage C → Prop
  | .woken | .debouncing | .hit | .checking | .marked => True
  | .waiting | .writing _ | .failed | .sleeping => False

/-- Whether the content is saved, or about to be: the file has it, or the copy being written is
it, or that write has failed and `_dirty` is about to be set again. -/
def Stage.saves (content : C) (file : Option C) : Stage C → Prop
  | .writing copy => copy = content
  | .failed => True
  | _ => file = some content

/-- A change that is not copied yet makes the writer look again, and what is copied is saved. -/
structure Inv (s : State C) : Prop where
  noticed : s.dirty → s.flushEvt ∨ s.requestsDue ≠ 0 ∨ s.writer.looks
  saved : s.changed → s.dirty = false → s.writer.saves s.content s.file

theorem inv_start (content : C) (file : Option C) : Inv (State.start content file) :=
  ⟨nofun, nofun⟩

/-- The writer moves on to where it still looks if it did, and the content is saved if it was. -/
theorem Inv.move {s : State C} (hs : Inv s) (w : Stage C) (hlooks : s.writer.looks → w.looks)
    (hsaves : s.writer.saves s.content s.file → w.saves s.content s.file) :
    Inv { s with writer := w } := by
  refine ⟨fun hdirty => ?_, fun hchanged hdirty => hsaves (hs.saved hchanged hdirty)⟩
  obtain hflush | hdue | hl := hs.noticed hdirty
  · exact .inl hflush
  · exact .inr (.inl hdue)
  · exact .inr (.inr (hlooks hl))

/-- The flush event is cleared on the way to a look at `_dirty`. -/
theorem Inv.clear {s : State C} (hs : Inv s)
    (hsaves : s.writer.saves s.content s.file → s.file = some s.content) :
    Inv { s with flushEvt := false, writer := .debouncing } :=
  ⟨fun _ => .inr (.inr trivial), fun hchanged hdirty => hsaves (hs.saved hchanged hdirty)⟩

theorem inv_step {change : C → K → C} {s t : State C} {e : Event K} (hs : Inv s)
    (h : step change s e = some t) : Inv t := by
  cases e with
  | changes k =>
    cases h
    exact ⟨fun _ => .inr (.inl (Nat.succ_ne_zero _)), fun _ => nofun⟩
  | requestsFlush =>
    simp only [step] at h
    split at h
    · cases h
    · cases h
      exact ⟨fun _ => .inl rfl, hs.saved⟩
  | wakes =>
    simp only [step] at h
    split at h
    · next hw _ =>
      cases h
      exact hs.move .woken (fun _ => trivial) (by rw [hw]; exact id)
    · cases h
  | clears =>
    simp only [step] at h
    split at h
    · next hw =>
      cases h
      exact hs.clear (by rw [hw]; exact id)
    · cases h
  | hits =>
    simp only [step] at h
    split at h
    · next hw _ =>
      cases h
      exact hs.move .hit (fun _ => trivial) (by rw [hw]; exact id)
    · cases h
  | clearsHit =>
    simp only [step] at h
    split at h
    · next hw =>
      cases h
      exact hs.clear (by rw [hw]; exact id)
    · cases h
  | debounces =>
    simp only [step] at h
    split at h
    · next hw =>
      cases h
      exact hs.move .checking (fun _ => trivial) (by rw [hw]; exact id)
    · cases h
  | copies =>
    simp only [step] at h
    split at h
    · next hw =>
      cases h
      by_cases hdirty : s.dirty
      · rw [if_pos hdirty]
        exact ⟨nofun, fun _ _ => rfl⟩
      · rw [if_neg hdirty]
        refine ⟨fun h => absurd h hdirty, ?_⟩
        have hsaved := hs.saved
        rw [hw] at hsaved
        exact hsaved
    · cases h
  | replaces =>
    simp only [step] at h
    split at h
    · next copy hw =>
      cases h
      refine ⟨?_, fun hchanged hdirty => ?_⟩
      · have hnoticed := hs.noticed
        rw [hw] at hnoticed
        exact hnoticed
      · have hcopy := hs.saved hchanged hdirty
        rw [hw] at hcopy
        exact congrArg some hcopy
    · cases h
  | fails =>
    simp only [step] at h
    split at h
    · next copy hw =>
      cases h
      exact hs.move .failed (by rw [hw]; exact id) (fun _ => trivial)
    · cases h
  | marks =>
    simp only [step] at h
    split at h
    · cases h
      exact ⟨fun _ => .inr (.inr trivial), fun _ => nofun⟩
    · cases h
  | setsFlush =>
    simp only [step] at h
    split at h
    · next hw =>
      cases h
      refine ⟨fun _ => .inl rfl, ?_⟩
      have hsaved := hs.saved
      rw [hw] at hsaved
      exact hsaved
    · cases h
  | sleeps =>
    simp only [step] at h
    split at h
    · next hw =>
      cases h
      exact hs.move .waiting (by rw [hw]; exact id) (by rw [hw]; exact id)
    · cases h

/-- Whatever happens, the file is current when the writer waits with nothing left to notice. -/
theorem saved_when_waiting {change : C → K → C} {content : C} {file : Option C} {s : State C}
    (h : Reachable (step change) (State.start content file) s) (hchanged : s.changed)
    (hwaiting : s.writer = .waiting) (hclear : s.flushEvt = false) (hdue : s.requestsDue = 0) :
    s.file = some s.content := by
  have hs : Inv s := h.invariant (inv_start content file) fun _ _ _ ht _ hstep => inv_step ht hstep
  have hclean : s.dirty = false := by
    by_contra hdirty
    obtain hflush | hrequests | hlooks := hs.noticed (Bool.not_eq_false _ ▸ hdirty)
    · rw [hclear] at hflush
      cases hflush
    · exact hrequests hdue
    · rw [hwaiting] at hlooks
      exact hlooks
  have hsaved := hs.saved hchanged hclean
  rw [hwaiting] at hsaved
  exact hsaved

/-- Only a change changes the content. -/
theorem step_content {change : C → K → C} {s t : State C} {e : Event K}
    (h : step change s e = some t) : t.content = s.content ∨
      ∃ k, e = .changes k ∧ t.content = change s.content k := by
  cases e with
  | changes k =>
    cases h
    exact .inr ⟨k, rfl, rfl⟩
  | copies =>
    simp only [step] at h
    split at h
    · cases h
      by_cases hdirty : s.dirty <;> simp [hdirty]
    · cases h
  | _ =>
    simp only [step] at h
    split at h
    all_goals cases h
    all_goals exact .inl rfl

/-! ### The store -/

/-- The two deques, newest first. Events and reports stand for the objects themselves. -/
structure Store (E R : Type*) where
  events : List E
  flowReports : List R

inductive Change (E R : Type*) where
  | addEvent (event : E)
  | addFlowReport (report : R)
  | clear

/-- `appendleft` on a deque with a `maxlen`. -/
def appendleft {α : Type*} (maxlen : Nat) (xs : List α) (x : α) : List α := (x :: xs).take maxlen

def Store.change {E R : Type*} (maxEvents maxFlowReports : Nat) (s : Store E R) :
    Change E R → Store E R
  | .addEvent event => { s with events := appendleft maxEvents s.events event }
  | .addFlowReport report => { s with flowReports := appendleft maxFlowReports s.flowReports report }
  | .clear => ⟨[], []⟩

/-- No history entry misses the disk. -/
theorem file_lists_store {E R : Type*} {maxEvents maxFlowReports : Nat} {loaded : Store E R}
    {file : Option (Store E R)} {s : State (Store E R)}
    (h : Reachable (step (Store.change maxEvents maxFlowReports)) (State.start loaded file) s)
    (hchanged : s.changed) (hwaiting : s.writer = .waiting) (hclear : s.flushEvt = false)
    (hdue : s.requestsDue = 0) :
    ∃ saved, s.file = some saved ∧ saved.events = s.content.events ∧
      saved.flowReports = s.content.flowReports :=
  ⟨s.content, saved_when_waiting h hchanged hwaiting hclear hdue, rfl, rfl⟩

/-- A report comes in while a write of the event before it is failing. -/
def retried : List (Event (Change Nat Nat)) :=
  [.changes (.addEvent 1), .requestsFlush, .wakes, .clears, .debounces, .copies,
    .changes (.addFlowReport 2), .fails, .marks, .setsFlush, .requestsFlush, .sleeps, .wakes, .clears,
    .debounces, .copies, .replaces]

theorem file_lists_store_retried : ∃ s : State (Store Nat Nat),
    execute (step (Store.change 200 50)) (State.start ⟨[], []⟩ none) retried = some s ∧
    s.content = ⟨[1], [2]⟩ ∧ ∃ saved, s.file = some saved ∧ saved.events = s.content.events ∧
      saved.flowReports = s.content.flowReports :=
  ⟨_, rfl, rfl, file_lists_store (reachable_of_execute (show execute (step (Store.change 200 50))
    (State.start ⟨[], []⟩ none) retried = some _ from rfl)) rfl rfl rfl rfl⟩

end PiHub.HistoryWriter

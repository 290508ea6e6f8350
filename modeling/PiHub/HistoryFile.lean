import PiHub.HistoryRecords
import PiHub.HistoryWriter
import PiHub.SettingsFile

/-! The history file (history.py): what start-up makes of it, and what comes back of what has been
written. -/
namespace PiHub.History
open PiHub.Keymap PiHub.StartupMode PiHub.Reads PiHub.Records PiHub.Fallible
open PiHub.HistoryWriter (Store)
open PiHub.Settings (Contents)

structure HistoryStore extends Store HistoryEvent FlowRunReport where
  dirty : Bool := false

section
variable (py : Python) (eventDraws flowDraws : Nat → Draws) (maxEvents maxFlowReports : Nat)

def eventAt (n : Nat) : List (String × Json) → Except PyError HistoryEvent :=
  HistoryEvent.fromDict py (eventDraws n).now

def flowAt (n : Nat) : List (String × Json) → Except PyError FlowRunReport :=
  FlowRunReport.fromDict py (flowDraws n)

/-- A loop of `load`, over a deque that has been cleared. -/
def readInto {β : Type} (maxlen : Nat) (fromDict : Nat → List (String × Json) → Except PyError β)
    (value : Json) : List β × Except PyError Unit :=
  match iterOr value with
  | .error e => ([], .error e)
  | .ok items => appendAll maxlen (entryAt fromDict) items.zipIdx []

def members : Json → List (String × Json)
  | .obj raw => raw
  | _ => []

/-- `load`; `none`: there is no file. -/
def load (file : Option Contents) (s : HistoryStore) : HistoryStore × Except PyError Unit :=
  match file with
  | none => (s, .ok ())
  | some .unreadable => (s, .ok ())
  | some (.document doc) =>
    match readInto maxEvents (eventAt py eventDraws) (get (members doc) "events") with
    | (events, .error e) => ({ s with events, flowReports := [] }, .error e)
    | (events, .ok ()) =>
      match readInto maxFlowReports (flowAt py flowDraws) (get (members doc) "flows") with
      | (flowReports, .error e) => ({ s with events, flowReports }, .error e)
      | (flowReports, .ok ()) => ({ events, flowReports, dirty := false }, .ok ())

end

/-! ### What can be read -/

def iterable : Json → Bool
  | .arr _ => true
  | .str _ => true
  | .obj _ => true
  | value => !truthy value

/-- The items that can be entries: only those of a list can be dictionaries. -/
def entriesOf : Json → List Json
  | .arr items => items
  | _ => []

def entryOk (ok : List (String × Json) → Bool) : Json → Bool
  | .obj raw => ok raw
  | _ => true

def timeOrOk (py : Python) (value : Json) : Bool := !truthy value || (floatOf py value).isOk

def timeOk (py : Python) : Json → Bool
  | .null => true
  | value => (floatOf py value).isOk

def hashable : Json → Bool
  | .arr _ => false
  | .obj _ => false
  | _ => true

/-- An item of a list for `dict`. -/
def pairable : Json → Bool
  | .arr [k, _] => hashable k
  | .obj [_, _] => true
  | .str s => s.toList.length = 2
  | _ => false

def dictable : Json → Bool
  | .obj _ => true
  | .arr items => items.all pairable
  | value => !truthy value

def eventOk (py : Python) (raw : List (String × Json)) : Bool :=
  dictable (get raw "metadata") && timeOrOk py (get raw "ts")

def stepOk (py : Python) (raw : List (String × Json)) : Bool :=
  timeOrOk py (get raw "ts_started") && timeOk py (get raw "ts_finished") &&
    timeOk py (get raw "ts_outcome")

def flowOk (py : Python) (raw : List (String × Json)) : Bool :=
  iterable (get raw "warnings") && timeOrOk py (get raw "ts_started") &&
    timeOk py (get raw "ts_finished") && iterable (get raw "steps") &&
    (entriesOf (get raw "steps")).all (entryOk (stepOk py))

/-- A file whose lists can be iterated, with entries that can all be read, or one that is no file of
this kind. -/
def fileOk (py : Python) : Option Contents → Bool
  | some (.document (.obj raw)) =>
    iterable (get raw "events") && (entriesOf (get raw "events")).all (entryOk (eventOk py)) &&
      iterable (get raw "flows") && (entriesOf (get raw "flows")).all (entryOk (flowOk py))
  | _ => true

/-! ### It is what the readers read -/

theorem hash_isOk (value : Json) : (hash value).isOk = hashable value := by
  cases value <;> rfl

theorem pairOf_isOk (item : Json) : (pairOf item).isOk = pairable item := by
  have hpair (k v : Json) : (do return (← hash k, v) : Except PyError (Key × Json)).isOk = hashable k := by
    rw [← hash_isOk]
    cases hash k <;> rfl
  cases item with
  | arr items =>
    match items with
    | [k, v] => exact hpair k v
    | [] => rfl
    | [k] => rfl
    | _ :: _ :: _ :: _ => rfl
  | obj raw =>
    match raw with
    | [(k, _), (v, _)] => exact hpair (.str k) (.str v)
    | [] => rfl
    | [_] => rfl
    | _ :: _ :: _ :: _ => rfl
  | str s =>
    rw [pairOf, iter, pairable]
    match s.toList with
    | [k, v] => exact hpair (.str k.toString) (.str v.toString)
    | [] => rfl
    | [k] => rfl
    | _ :: _ :: _ :: _ => simp [bind, Except.bind, Except.isOk, Except.toBool]
  | _ => rfl

theorem readAll_some_isOk {α β : Type} (f : α → Except PyError β) (items : List α) :
    (readAll (fun item => some (f item)) items).isOk = items.all fun item => (f item).isOk := by
  rw [Bool.eq_iff_iff, readAll_isOk_iff, List.all_eq_true]
  refine forall₂_congr fun item _ => ?_
  simp

theorem dictOr_isOk (value : Json) : (dictOr value).isOk = dictable value := by
  have hpairs (items : List Json) : (do
      let pairs ← readAll (fun item => some (pairOf item)) items
      return ofPairs pairs : Except PyError (List (Key × Json))).isOk = items.all pairable := by
    rw [isOk_bind_pure, readAll_some_isOk]
    simp only [pairOf_isOk]
  -- a value that cannot be iterated has to be falsy
  have hother {value : Json} (hdict : dict value = .error .typeError) :
      (dictOr value).isOk = !truthy value := by
    rw [dictOr]
    cases truthy value with
    | false => rfl
    | true => rw [if_pos rfl, hdict]; rfl
  cases value with
  | null => exact hother rfl
  | bool b => exact hother rfl
  | int n => exact hother rfl
  | float x => exact hother rfl
  | obj raw => cases raw <;> rfl
  | arr items =>
    cases items with
    | nil => rfl
    | cons item items => exact hpairs (item :: items)
  | str s =>
    by_cases hs : s = ""
    · subst hs
      rfl
    · have hchars : s.toList ≠ [] := by simpa using hs
      obtain ⟨c, cs, hcons⟩ := List.exists_cons_of_ne_nil hchars
      have htruthy : truthy (.str s) = true := by simp [truthy, hs]
      have hdict : dict (.str s) = (do
          let pairs ← readAll (fun item => some (pairOf item)) (s.toList.map fun c => .str c.toString)
          return ofPairs pairs) := rfl
      have hdictable : dictable (.str s) = !truthy (.str s) := rfl
      rw [dictOr, if_pos htruthy, hdictable, htruthy, hdict, hpairs, hcons, List.map_cons, List.all_cons]
      simp [pairable]

theorem iterOr_isOk (value : Json) : (iterOr value).isOk = iterable value := by
  have hother {value : Json} (hiter : iter value = .error .typeError) :
      (iterOr value).isOk = !truthy value := by
    rw [iterOr]
    cases truthy value with
    | false => rfl
    | true => rw [if_pos rfl, hiter]; rfl
  have hok {value : Json} {items : List Json} (hiter : iter value = .ok items) :
      (iterOr value).isOk = true := by
    rw [iterOr, hiter]
    split <;> rfl
  cases value with
  | null => exact hother rfl
  | bool b => exact hother rfl
  | int n => exact hother rfl
  | float x => exact hother rfl
  | arr items => exact hok rfl
  | str s => exact hok rfl
  | obj raw => exact hok rfl

theorem timeOr_isOk (py : Python) (now : PyFloat) (value : Json) :
    (timeOr py now value).isOk = timeOrOk py value := by
  rw [timeOr, timeOrOk]
  cases truthy value <;> rfl

theorem timeOf_isOk (py : Python) (value : Json) : (timeOf py value).isOk = timeOk py value := by
  have hmap (value : Json) : ((floatOf py value).map some).isOk = (floatOf py value).isOk := isOk_map
  cases value with
  | null => rfl
  | bool b => exact hmap (.bool b)
  | int n => exact hmap (.int n)
  | float x => exact hmap (.float x)
  | str s => exact hmap (.str s)
  | arr items => exact hmap (.arr items)
  | obj raw => exact hmap (.obj raw)

/-- The items are those of a list, or none of them is a dictionary. -/
theorem iterOr_items {value : Json} {items : List Json} (h : iterOr value = .ok items) :
    items = entriesOf value ∨ entriesOf value = [] ∧ ∀ item ∈ items, ∃ s, item = .str s := by
  unfold iterOr at h
  split at h
  · cases value with
    | arr items' => exact .inl (Except.ok.inj h).symm
    | str s =>
      refine .inr ⟨rfl, fun item hitem => ?_⟩
      obtain rfl := Except.ok.inj h
      obtain ⟨c, -, rfl⟩ := List.mem_map.mp hitem
      exact ⟨_, rfl⟩
    | obj raw =>
      refine .inr ⟨rfl, fun item hitem => ?_⟩
      obtain rfl := Except.ok.inj h
      obtain ⟨e, -, rfl⟩ := List.mem_map.mp hitem
      exact ⟨_, rfl⟩
    | _ => cases h
  · next hfalsy =>
    obtain rfl := Except.ok.inj h
    cases value with
    | arr items' =>
      cases items' with
      | nil => exact .inl rfl
      | cons item items' => exact absurd rfl hfalsy
    | _ => exact .inl rfl

section
variable {β : Type} {fromDict : Nat → List (String × Json) → Except PyError β}
  {ok : List (String × Json) → Bool}

theorem allRead_zipIdx (h : ∀ n raw, (fromDict n raw).isOk = ok raw) (items : List Json) (n : Nat) :
    AllRead (entryAt fromDict) (items.zipIdx n) ↔ items.all (entryOk ok) = true := by
  induction items generalizing n with
  | nil => exact ⟨fun _ => rfl, fun _ => allRead_nil⟩
  | cons item items ih =>
    rw [List.zipIdx_cons, allRead_cons, ih, List.all_cons, Bool.and_eq_true]
    refine and_congr_left' ?_
    cases item with
    | obj raw => simp [entryAt, entryOk, h]
    | _ => simp [entryAt, entryOk]

theorem readable_strings {items : List Json} (h : ∀ item ∈ items, ∃ s, item = .str s) (n : Nat) :
    readable (entryAt fromDict) (items.zipIdx n) = [] := by
  induction items generalizing n with
  | nil => rfl
  | cons item items ih =>
    obtain ⟨⟨s, rfl⟩, hitems⟩ := List.forall_mem_cons.mp h
    rw [List.zipIdx_cons, readable_cons_none rfl, ih hitems]

theorem iterOr_all {value : Json} {items : List Json} (h : iterOr value = .ok items) :
    items.all (entryOk ok) = (entriesOf value).all (entryOk ok) := by
  obtain rfl | ⟨hnone, hstrings⟩ := iterOr_items h
  · rfl
  · rw [hnone]
    refine List.all_eq_true.mpr fun item hitem => ?_
    obtain ⟨s, rfl⟩ := hstrings item hitem
    rfl

/-- Iterating reads the entries of a list, and none of anything else. -/
theorem iterOr_readable {value : Json} {items : List Json} (h : iterOr value = .ok items) :
    readable (entryAt fromDict) items.zipIdx = readable (entryAt fromDict) (entriesOf value).zipIdx := by
  obtain rfl | ⟨hnone, hstrings⟩ := iterOr_items h
  · rfl
  · rw [hnone, readable_strings hstrings]
    rfl

end

theorem event_isOk (py : Python) (now : PyFloat) (raw : List (String × Json)) :
    (HistoryEvent.fromDict py now raw).isOk = eventOk py raw := by
  rw [HistoryEvent.fromDict, isOk_bind fun _ _ => isOk_bind_pure, dictOr_isOk, timeOr_isOk]
  rfl

theorem step_isOk (py : Python) (now : PyFloat) (raw : List (String × Json)) :
    (FlowStepReport.fromDict py now raw).isOk = stepOk py raw := by
  rw [FlowStepReport.fromDict, isOk_bind fun _ _ => isOk_bind fun _ _ => isOk_bind_pure,
    timeOr_isOk, timeOf_isOk, timeOf_isOk, ← Bool.and_assoc]
  rfl

theorem steps_isOk (py : Python) (draws : Draws) {value : Json} {items : List Json}
    (h : iterOr value = .ok items) :
    (readAll (entryAt fun n => FlowStepReport.fromDict py (draws.stepNow n)) items.zipIdx).isOk =
      (entriesOf value).all (entryOk (stepOk py)) := by
  rw [← iterOr_all h, Bool.eq_iff_iff, readAll_isOk_iff, allRead_zipIdx fun n raw => step_isOk py _ raw]

theorem flow_isOk (py : Python) (draws : Draws) (raw : List (String × Json)) :
    (FlowRunReport.fromDict py draws raw).isOk = flowOk py raw := by
  have hsteps (items : List Json) (h : iterOr (get raw "steps") = .ok items) := steps_isOk py draws h
  rw [FlowRunReport.fromDict, isOk_bind fun _ _ => isOk_bind fun _ _ => isOk_bind fun _ _ =>
    isOk_bind fun items hitems => isOk_bind_pure.trans (hsteps items hitems), iterOr_isOk, iterOr_isOk,
    timeOr_isOk, timeOf_isOk]
  simp only [flowOk, Bool.and_assoc]

section
variable {β : Type} {fromDict : Nat → List (String × Json) → Except PyError β}
  {ok : List (String × Json) → Bool}

theorem readInto_isOk (h : ∀ n raw, (fromDict n raw).isOk = ok raw) (maxlen : Nat) (value : Json) :
    (readInto maxlen fromDict value).2.isOk =
      (iterable value && (entriesOf value).all (entryOk ok)) := by
  rw [← iterOr_isOk, readInto]
  cases hiter : iterOr value with
  | error e => rfl
  | ok items =>
    rw [Bool.eq_iff_iff, appendAll_isOk_iff, allRead_zipIdx h, iterOr_all hiter]
    rfl

/-- A loop that does not raise leaves the entries that can be read, the last of them if the deque is
too small. -/
theorem readInto_ok {maxlen : Nat} {value : Json} (hok : (readInto maxlen fromDict value).2.isOk = true) :
    readInto maxlen fromDict value =
      ((readable (entryAt fromDict) (entriesOf value).zipIdx).rtake maxlen, .ok ()) := by
  rw [readInto] at hok ⊢
  cases hiter : iterOr value with
  | error e =>
    rw [hiter] at hok
    cases hok
  | ok items =>
    rw [hiter] at hok
    dsimp only at hok ⊢
    rw [appendAll_of_allRead (Nat.zero_le _) (appendAll_isOk_iff.mp hok), List.nil_append,
      iterOr_readable hiter]

end

section
variable (py : Python) (eventDraws flowDraws : Nat → Draws) (maxEvents maxFlowReports : Nat)

/-- What there is of a document in the two deques: the entries that can be read, in their order. -/
def readableStore (doc : Json) : Store HistoryEvent FlowRunReport where
  events := (readable (entryAt (eventAt py eventDraws))
    (entriesOf (get (members doc) "events")).zipIdx).rtake maxEvents
  flowReports := (readable (entryAt (flowAt py flowDraws))
    (entriesOf (get (members doc) "flows")).zipIdx).rtake maxFlowReports

/-- Nothing is raised, and the store is as it was, or has what can be read of the file. -/
def Tolerated (file : Option Contents) (before : HistoryStore)
    (after : HistoryStore × Except PyError Unit) : Prop :=
  after.2 = .ok () ∧ (after.1.toStore = before.toStore ∨ ∃ doc, file = some (.document doc) ∧
    after.1.toStore = readableStore py eventDraws flowDraws maxEvents maxFlowReports doc)

end

theorem fileOk_document (py : Python) (doc : Json) : fileOk py (some (.document doc)) =
    (iterable (get (members doc) "events") && (entriesOf (get (members doc) "events")).all (entryOk (eventOk py)) &&
      (iterable (get (members doc) "flows") &&
        (entriesOf (get (members doc) "flows")).all (entryOk (flowOk py)))) := by
  cases doc with
  | obj raw => simp only [fileOk, members, Bool.and_assoc]
  | _ => rfl

section
variable (py : Python) (eventDraws flowDraws : Nat → Draws) (maxEvents maxFlowReports : Nat)

theorem readEvents_isOk (value : Json) : (readInto maxEvents (eventAt py eventDraws) value).2.isOk =
    (iterable value && (entriesOf value).all (entryOk (eventOk py))) :=
  readInto_isOk (fun n raw => event_isOk py (eventDraws n).now raw) maxEvents value

theorem readFlows_isOk (value : Json) : (readInto maxFlowReports (flowAt py flowDraws) value).2.isOk =
    (iterable value && (entriesOf value).all (entryOk (flowOk py))) :=
  readInto_isOk (fun n raw => flow_isOk py (flowDraws n) raw) maxFlowReports value

variable {py eventDraws flowDraws maxEvents maxFlowReports}

theorem load_of_fileOk {doc : Json} (h : fileOk py (some (.document doc)) = true) (s : HistoryStore) :
    load py eventDraws flowDraws maxEvents maxFlowReports (some (.document doc)) s =
      ({ readableStore py eventDraws flowDraws maxEvents maxFlowReports doc with dirty := false },
        .ok ()) := by
  rw [fileOk_document, ← readEvents_isOk py eventDraws maxEvents, ← readFlows_isOk py flowDraws maxFlowReports,
    Bool.and_eq_true] at h
  rw [load, readInto_ok h.1]
  dsimp only
  rw [readInto_ok h.2]
  rfl

theorem fileOk_of_load {doc : Json} {s : HistoryStore} (h : (load py eventDraws flowDraws maxEvents
    maxFlowReports (some (.document doc)) s).2 = .ok ()) : fileOk py (some (.document doc)) = true := by
  rw [fileOk_document, ← readEvents_isOk py eventDraws maxEvents, ← readFlows_isOk py flowDraws maxFlowReports,
    Bool.and_eq_true]
  rw [load] at h
  generalize readInto maxEvents (eventAt py eventDraws) (get (members doc) "events") = read at h ⊢
  generalize readInto maxFlowReports (flowAt py flowDraws) (get (members doc) "flows") = read' at h ⊢
  obtain ⟨events, result⟩ := read
  obtain ⟨flowReports, result'⟩ := read'
  cases result with
  | error e => cases h
  | ok _ =>
    cases result' with
    | error e => cases h
    | ok _ => exact ⟨rfl, rfl⟩

end

/-- The file breaks nothing exactly if its lists can be iterated and every dictionary in them can be
read. -/
theorem load_tolerated_iff (py : Python) (eventDraws flowDraws : Nat → Draws)
    (maxEvents maxFlowReports : Nat) (file : Option Contents) (s : HistoryStore) :
    Tolerated py eventDraws flowDraws maxEvents maxFlowReports file s
      (load py eventDraws flowDraws maxEvents maxFlowReports file s) ↔ fileOk py file = true := by
  match file with
  | none => exact ⟨fun _ => rfl, fun _ => ⟨rfl, .inl rfl⟩⟩
  | some .unreadable => exact ⟨fun _ => rfl, fun _ => ⟨rfl, .inl rfl⟩⟩
  | some (.document doc) =>
    constructor
    · intro h
      exact fileOk_of_load h.1
    · intro h
      rw [load_of_fileOk h]
      exact ⟨rfl, .inr ⟨doc, rfl, rfl⟩⟩

/-- The samples have whole seconds and texts that are no numbers. -/
def samplePy : Python where
  repr := fun _ => ""
  float := fun _ => none
  keyText := fun _ => ""
  isoTs := fun _ => .ok "2026-01-01T00:00:00.000+00:00"
  durationMs := fun _ _ => .ok 0

def sampleDraws : Nat → Draws := fun _ => {
  now := .finite 1767225600
  newId := "00000000000000000000000000000000"
  stepNow := fun _ => .finite 1767225600
  now_ne := rfl
  newId_ne := by decide
  stepNow_ne := fun _ => rfl }

def sampleEvent : HistoryEvent := { kind := "mode", message := "watch", ts := .finite 1767225600 }

/-- One event of two has a time that is no number. -/
def brokenFile : Json :=
  .obj [("events", .arr [.obj [("kind", .str "start"), ("ts", .int 1767225600)],
    .obj [("kind", .str "stop"), ("ts", .str "soon")]]), ("flows", .arr [])]

/-- Start-up breaks on it, with the store half cleared: what was there is gone, and of the file there
is the first event alone. -/
theorem broken_file_raises :
    let after := load samplePy sampleDraws sampleDraws 200 50 (some (.document brokenFile))
      { events := [sampleEvent], flowReports := [] }
    after.2 = .error .valueError ∧ after.1.events.map HistoryEvent.kind = ["start"] ∧
      ¬ Tolerated samplePy sampleDraws sampleDraws 200 50 (some (.document brokenFile))
        { events := [sampleEvent], flowReports := [] } after := by
  dsimp only
  have hraises : (load samplePy sampleDraws sampleDraws 200 50 (some (.document brokenFile))
      { events := [sampleEvent], flowReports := [] }).2 = .error .valueError := rfl
  refine ⟨hraises, rfl, fun h => ?_⟩
  have hok := h.1
  rw [hraises] at hok
  cases hok

end PiHub.History

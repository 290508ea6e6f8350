import PiHub.HistoryFile

/-! What comes back of the history after a restart: the file of `_write_if_dirty`, read by `load`. -/
namespace PiHub.History
open PiHub.PyStr PiHub.Keymap PiHub.StartupMode PiHub.Reads PiHub.Records PiHub.Fallible
open PiHub.HistoryWriter (Store Change State step step_content saved_when_waiting)
open PiHub.Transition (ReachableBy)
open PiHub.Settings (Contents JsonObject)

/-- What `_write_if_dirty` writes of the two deques. -/
def dump (py : Python) (s : Store HistoryEvent FlowRunReport) : Except PyError Json := do
  let events ← readAll (fun e => some (HistoryEvent.toDict py e)) s.events
  let flows ← readAll (fun r => some (FlowRunReport.toDict py r)) s.flowReports
  return .obj [("events", .arr (events.map .obj)), ("flows", .arr (flows.map .obj))]

/-! ### What a store is built from -/

def Positive : PyFloat → Prop
  | .finite q => 0 < q
  | .inf negative => negative = false
  | .nan => False

/-- An event with a positive time and the metadata of a JSON object. -/
structure HistoryEvent.Plain (e : HistoryEvent) : Prop where
  ts : Positive e.ts
  metadata : ∃ o : JsonObject, e.metadata = o.members.map fun m => (.str m.1, m.2)

def PlainChange : Change HistoryEvent FlowRunReport → Prop
  | .addEvent e => e.Plain
  | _ => True

/-- A store that has been filled by `add_event`, `emit` and `add_flow_report`. The reports may have
gone on since they were added: they are taken as they are now. -/
def Built (maxEvents maxFlowReports : Nat) (s : Store HistoryEvent FlowRunReport) : Prop :=
  ∃ changes : List (Change HistoryEvent FlowRunReport), (∀ c ∈ changes, PlainChange c) ∧
    s = changes.foldl (Store.change maxEvents maxFlowReports) ⟨[], []⟩

structure Contained (maxEvents maxFlowReports : Nat) (s : Store HistoryEvent FlowRunReport) : Prop where
  plain : ∀ e ∈ s.events, e.Plain
  events : s.events.length ≤ maxEvents
  flowReports : s.flowReports.length ≤ maxFlowReports

theorem contained_empty (maxEvents maxFlowReports : Nat) : Contained maxEvents maxFlowReports ⟨[], []⟩ :=
  ⟨nofun, Nat.zero_le _, Nat.zero_le _⟩

theorem contained_change {maxEvents maxFlowReports : Nat} {s : Store HistoryEvent FlowRunReport}
    (hs : Contained maxEvents maxFlowReports s) {c : Change HistoryEvent FlowRunReport}
    (hc : PlainChange c) : Contained maxEvents maxFlowReports (s.change maxEvents maxFlowReports c) := by
  cases c with
  | addEvent e =>
    refine ⟨fun e' he' => ?_, List.length_take_le _ _, hs.flowReports⟩
    obtain rfl | hmem := List.mem_cons.mp (List.mem_of_mem_take he')
    · exact hc
    · exact hs.plain e' hmem
  | addFlowReport r => exact ⟨hs.plain, hs.events, List.length_take_le _ _⟩
  | clear => exact contained_empty maxEvents maxFlowReports

theorem Built.contained {maxEvents maxFlowReports : Nat} {s : Store HistoryEvent FlowRunReport}
    (h : Built maxEvents maxFlowReports s) : Contained maxEvents maxFlowReports s := by
  obtain ⟨changes, hplain, rfl⟩ := h
  have hempty := contained_empty maxEvents maxFlowReports
  generalize (⟨[], []⟩ : Store HistoryEvent FlowRunReport) = s at hempty
  induction changes generalizing s with
  | nil => exact hempty
  | cons c changes ih =>
    obtain ⟨hc, hchanges⟩ := List.forall_mem_cons.mp hplain
    exact ih hchanges _ (contained_change hempty hc)

/-! ### A field that is written and read -/

def orText (text default : String) : String := if text = "" then default else text

def orTime (now t : PyFloat) : PyFloat := if truthy (.float t) then t else now

def trimmed (text : Option String) : Option String := text.bind stripped

theorem textOr_str (py : Python) (default text : String) :
    textOr py default (.str text) = orText text default := by
  by_cases h : text = "" <;> simp [textOr, orText, truthy, pyStr, h]

theorem orText_empty (text : String) : orText text "" = text := by
  by_cases h : text = "" <;> simp [orText, h]

theorem orText_of_ne {text default : String} (h : text ≠ "") : orText text default = text := if_neg h

theorem orText_ne {text default : String} (h : default ≠ "") : orText text default ≠ "" := by
  unfold orText
  split
  · exact h
  · assumption

theorem textOf_optText (py : Python) (text : Option String) : textOf py (optText text) = trimmed text := by
  cases text <;> rfl

theorem trimmed_trimmed (text : Option String) : trimmed (trimmed text) = trimmed text := by
  have hself (s : String) : (stripped s).bind stripped = stripped s := by
    unfold stripped
    split
    · rfl
    · next hne =>
      rw [Option.bind_some, strip_strip, if_neg hne]
  cases text with
  | none => rfl
  | some s => exact hself s

theorem timeOr_float (py : Python) (now t : PyFloat) : timeOr py now (.float t) = .ok (orTime now t) := by
  unfold timeOr orTime
  split <;> rfl

theorem timeOf_optTime (py : Python) (t : Option PyFloat) : timeOf py (optTime t) = .ok t := by
  cases t <;> rfl

theorem orTime_of_truthy {now t : PyFloat} (h : truthy (.float t) = true) : orTime now t = t := if_pos h

theorem orTime_truthy {now t : PyFloat} (h : truthy (.float now) = true) :
    truthy (.float (orTime now t)) = true := by
  unfold orTime
  split
  · assumption
  · exact h

theorem truthy_of_positive {t : PyFloat} (h : Positive t) : truthy (.float t) = true := by
  cases t with
  | finite q => simpa [truthy] using h.ne'
  | inf negative => rfl
  | nan => rfl

theorem iterOr_arr (items : List Json) : iterOr (.arr items) = .ok items := by
  cases items <;> rfl

theorem warningTexts_str (py : Python) (warnings : List String) :
    FlowRunReport.warningTexts py (warnings.map .str) = warnings.filter fun text => strip text ≠ "" := by
  rw [FlowRunReport.warningTexts, List.map_map]
  congr 1
  exact List.map_id _

/-- A JSON object is a dictionary whose keys are written as they are. -/
theorem dictOr_dumpDict (py : Python) {d : List (Key × Json)}
    (h : ∃ o : JsonObject, d = o.members.map fun m => (.str m.1, m.2)) :
    dictOr (.obj (dumpDict py d)) = .ok d := by
  obtain ⟨o, rfl⟩ := h
  have hdump : dumpDict py (o.members.map fun m => (.str m.1, m.2)) = o.members := by
    rw [dumpDict, List.map_map]
    exact (congrArg ofPairs (List.map_id _)).trans (ofPairs_eq_self o.distinct)
  rw [hdump]
  cases o.members <;> rfl

/-! ### The records read back -/

/-- The event as it comes back. -/
def HistoryEvent.reread (now : PyFloat) (e : HistoryEvent) : HistoryEvent :=
  { e with
    level := orText e.level "info"
    flowName := trimmed e.flowName
    trigger := trimmed e.trigger
    ts := orTime now e.ts }

def FlowStepReport.reread (now : PyFloat) (s : FlowStepReport) : FlowStepReport :=
  { s with
    status := orText s.status "pending"
    reason := trimmed s.reason
    error := trimmed s.error
    outcomeStatus := trimmed s.outcomeStatus
    outcomeReason := trimmed s.outcomeReason
    outcomeError := trimmed s.outcomeError
    tsStarted := orTime now s.tsStarted }

def FlowRunReport.reread (draws : Draws) (r : FlowRunReport) : FlowRunReport :=
  { r with
    id := orText r.id draws.newId
    result := orText r.result "running"
    warnings := r.warnings.filter fun text => strip text ≠ ""
    error := trimmed r.error
    tsStarted := orTime draws.now r.tsStarted
    steps := r.steps.zipIdx.map fun s => s.1.reread (draws.stepNow s.2) }

theorem HistoryEvent.fromDict_toDict {py : Python} {e : HistoryEvent} (hplain : e.Plain)
    {raw : List (String × Json)} (h : e.toDict py = .ok raw) (now : PyFloat) :
    HistoryEvent.fromDict py now raw = .ok (e.reread now) := by
  obtain ⟨iso, -, h⟩ := bind_eq_ok.mp h
  obtain rfl := Except.ok.inj h
  calc
    HistoryEvent.fromDict py now _ = (do
        let metadata ← dictOr (.obj (dumpDict py e.metadata))
        let ts ← timeOr py now (.float e.ts)
        return {
          kind := textOr py "" (.str e.kind)
          message := textOr py "" (.str e.message)
          level := textOr py "info" (.str e.level)
          flowName := textOf py (optText e.flowName)
          trigger := textOf py (optText e.trigger)
          metadata, ts }) := rfl
    _ = .ok (e.reread now) := by
      rw [dictOr_dumpDict py hplain.metadata, timeOr_float, textOr_str, textOr_str, textOr_str,
        orText_empty, orText_empty, textOf_optText, textOf_optText]
      rfl

theorem FlowStepReport.fromDict_toDict {py : Python} {s : FlowStepReport}
    {raw : List (String × Json)} (h : s.toDict py = .ok raw) (now : PyFloat) :
    FlowStepReport.fromDict py now raw = .ok (s.reread now) := by
  obtain ⟨duration, -, h⟩ := bind_eq_ok.mp h
  obtain ⟨outcomeDuration, -, h⟩ := bind_eq_ok.mp h
  obtain ⟨isoStarted, -, h⟩ := bind_eq_ok.mp h
  obtain ⟨isoFinished, -, h⟩ := bind_eq_ok.mp h
  obtain ⟨isoOutcome, -, h⟩ := bind_eq_ok.mp h
  obtain rfl := Except.ok.inj h
  calc
    FlowStepReport.fromDict py now _ = (do
        let tsStarted ← timeOr py now (.float s.tsStarted)
        let tsFinished ← timeOf py (optTime s.tsFinished)
        let tsOutcome ← timeOf py (optTime s.tsOutcome)
        return {
          stepId := textOr py "" (.str s.stepId)
          domain := textOr py "" (.str s.domain)
          action := textOr py "" (.str s.action)
          mode := textOr py "" (.str s.mode)
          status := textOr py "pending" (.str s.status)
          reason := textOf py (optText s.reason)
          error := textOf py (optText s.error)
          outcomeStatus := textOf py (optText s.outcomeStatus)
          outcomeReason := textOf py (optText s.outcomeReason)
          outcomeError := textOf py (optText s.outcomeError)
          tsStarted, tsFinished, tsOutcome }) := rfl
    _ = .ok (s.reread now) := by
      rw [timeOr_float, timeOf_optTime, timeOf_optTime]
      simp only [textOr_str, orText_empty, textOf_optText]
      rfl

/-- What is written for a list of records is read back record by record. -/
theorem entries_of_dump {α : Type} {toDict : α → Except PyError (List (String × Json))}
    (fromDict : Nat → List (String × Json) → Except PyError α) {reread : Nat → α → α} {xs : List α}
    {raws : List (List (String × Json))} (hdump : readAll (fun x => some (toDict x)) xs = .ok raws)
    (hread : ∀ x ∈ xs, ∀ raw n, toDict x = .ok raw → fromDict n raw = .ok (reread n x)) :
    AllRead (entryAt fromDict) (raws.map Json.obj).zipIdx ∧
      readable (entryAt fromDict) (raws.map Json.obj).zipIdx =
        xs.zipIdx.map fun x => reread x.2 x.1 := by
  have hobj : List.Forall₂ (fun x item => ∃ raw, item = Json.obj raw ∧
      ∀ n, fromDict n raw = .ok (reread n x)) xs (raws.map Json.obj) := by
    rw [List.forall₂_map_right_iff]
    refine ((List.forall₂_and_left ..).mpr ⟨hread, readAll_some_eq_ok.mp hdump⟩).imp ?_
    rintro x raw ⟨hx, htoDict⟩
    exact ⟨raw, rfl, fun n => hx raw n htoDict⟩
  refine readable_of_forall₂ ((forall₂_zipIdx hobj 0).imp ?_)
  rintro ⟨x, n⟩ ⟨item, n'⟩ ⟨⟨raw, rfl, hraw⟩, rfl⟩
  exact congrArg some (hraw n)

theorem FlowRunReport.fromDict_toDict {py : Python} {r : FlowRunReport}
    {raw : List (String × Json)} (h : r.toDict py = .ok raw) (draws : Draws) :
    FlowRunReport.fromDict py draws raw = .ok (r.reread draws) := by
  obtain ⟨duration, -, h⟩ := bind_eq_ok.mp h
  obtain ⟨isoStarted, -, h⟩ := bind_eq_ok.mp h
  obtain ⟨isoFinished, -, h⟩ := bind_eq_ok.mp h
  obtain ⟨steps, hsteps, h⟩ := bind_eq_ok.mp h
  obtain rfl := Except.ok.inj h
  obtain ⟨hall, hreread⟩ := entries_of_dump
    (fun n => FlowStepReport.fromDict py (draws.stepNow n)) hsteps fun s _ raw n hs =>
      FlowStepReport.fromDict_toDict hs (draws.stepNow n)
  calc
    FlowRunReport.fromDict py draws _ = (do
        let warnings ← iterOr (.arr (r.warnings.map .str))
        let tsStarted ← timeOr py draws.now (.float r.tsStarted)
        let tsFinished ← timeOf py (optTime r.tsFinished)
        let items ← iterOr (.arr (steps.map .obj))
        let steps ← readAll (entryAt fun n => FlowStepReport.fromDict py (draws.stepNow n)) items.zipIdx
        return {
          flowName := textOr py "" (.str r.flowName)
          trigger := textOr py "" (.str r.trigger)
          source := textOr py "" (.str r.source)
          id := textOr py draws.newId (.str r.id)
          result := textOr py "running" (.str r.result)
          warnings := warningTexts py warnings
          error := textOf py (optText r.error)
          tsStarted, tsFinished, steps }) := rfl
    _ = .ok (r.reread draws) := by
      have hread := readAll_of_allRead hall
      rw [iterOr_arr, iterOr_arr, timeOr_float, timeOf_optTime]
      simp only [bind, Except.bind]
      rw [hread, hreread]
      simp only [textOr_str, orText_empty, textOf_optText, warningTexts_str]
      rfl

/-! ### The store read back -/

def rereadStore (eventDraws flowDraws : Nat → Draws) (s : Store HistoryEvent FlowRunReport) :
    Store HistoryEvent FlowRunReport where
  events := s.events.zipIdx.map fun e => e.1.reread (eventDraws e.2).now
  flowReports := s.flowReports.zipIdx.map fun r => r.1.reread (flowDraws r.2)

/-- A deque takes all of what it has room for. -/
theorem readInto_arr {β : Type} {fromDict : Nat → List (String × Json) → Except PyError β} {maxlen : Nat}
    {items : List Json} {entries : List β} (hall : AllRead (entryAt fromDict) items.zipIdx)
    (hread : readable (entryAt fromDict) items.zipIdx = entries) (hlen : entries.length ≤ maxlen) :
    readInto maxlen fromDict (.arr items) = (entries, .ok ()) := by
  rw [readInto, iterOr_arr]
  dsimp only
  rw [appendAll_of_allRead (Nat.zero_le _) hall, List.nil_append, hread, rtake_of_le hlen]

theorem load_dump {py : Python} {maxEvents maxFlowReports : Nat} {s : Store HistoryEvent FlowRunReport}
    (hs : Contained maxEvents maxFlowReports s) {doc : Json} (hdump : dump py s = .ok doc)
    (eventDraws flowDraws : Nat → Draws) (before : HistoryStore) :
    load py eventDraws flowDraws maxEvents maxFlowReports (some (.document doc)) before =
      ({ rereadStore eventDraws flowDraws s with dirty := false }, .ok ()) := by
  obtain ⟨events, hevents, hdump⟩ := bind_eq_ok.mp hdump
  obtain ⟨flows, hflows, hdump⟩ := bind_eq_ok.mp hdump
  obtain rfl := Except.ok.inj hdump
  obtain ⟨hallEvents, hreadEvents⟩ := entries_of_dump (eventAt py eventDraws) hevents
    fun e he raw n h => HistoryEvent.fromDict_toDict (hs.plain e he) h (eventDraws n).now
  obtain ⟨hallFlows, hreadFlows⟩ := entries_of_dump (flowAt py flowDraws) hflows
    fun r _ raw n h => FlowRunReport.fromDict_toDict h (flowDraws n)
  have hgetEvents : get (members (.obj [("events", .arr (events.map .obj)),
    ("flows", .arr (flows.map .obj))])) "events" = .arr (events.map .obj) := rfl
  have hgetFlows : get (members (.obj [("events", .arr (events.map .obj)),
    ("flows", .arr (flows.map .obj))])) "flows" = .arr (flows.map .obj) := rfl
  have hlenEvents : (rereadStore eventDraws flowDraws s).events.length ≤ maxEvents := by
    simpa [rereadStore] using hs.events
  have hlenFlows : (rereadStore eventDraws flowDraws s).flowReports.length ≤ maxFlowReports := by
    simpa [rereadStore] using hs.flowReports
  rw [load, hgetEvents, hgetFlows, readInto_arr hallEvents hreadEvents hlenEvents]
  dsimp only
  rw [readInto_arr hallFlows hreadFlows hlenFlows]
  rfl

theorem HistoryEvent.reread_reread {now : PyFloat} (h : truthy (.float now) = true) (now' : PyFloat)
    (e : HistoryEvent) : (e.reread now).reread now' = e.reread now := by
  have hlevel : orText e.level "info" ≠ "" := orText_ne (by decide)
  simp only [reread, orText_of_ne hlevel, trimmed_trimmed, orTime_of_truthy (orTime_truthy h)]

theorem FlowStepReport.reread_reread {now : PyFloat} (h : truthy (.float now) = true) (now' : PyFloat)
    (s : FlowStepReport) : (s.reread now).reread now' = s.reread now := by
  have hstatus : orText s.status "pending" ≠ "" := orText_ne (by decide)
  simp only [reread, orText_of_ne hstatus, trimmed_trimmed, orTime_of_truthy (orTime_truthy h)]

/-- Records that are read back as they are, whatever their place. -/
theorem map_zipIdx_eq_self {α : Type} {f : α × Nat → α} {xs : List α}
    (h : ∀ x ∈ xs, ∀ n, f (x, n) = x) : xs.zipIdx.map f = xs := by
  have hself : xs.zipIdx.map f = xs.zipIdx.map Prod.fst := by
    refine List.map_congr_left fun x hx => h x.1 ?_ x.2
    exact List.fst_mem_of_mem_zipIdx hx
  rw [hself, List.zipIdx_map_fst]

theorem FlowRunReport.reread_reread (draws draws' : Draws) (r : FlowRunReport) :
    (r.reread draws).reread draws' = r.reread draws := by
  have hid : orText r.id draws.newId ≠ "" := orText_ne draws.newId_ne
  have hresult : orText r.result "running" ≠ "" := orText_ne (by decide)
  have hsteps : (r.reread draws).steps.zipIdx.map (fun s => s.1.reread (draws'.stepNow s.2)) =
      (r.reread draws).steps := by
    refine map_zipIdx_eq_self fun s hs n => ?_
    obtain ⟨t, -, rfl⟩ := List.mem_map.mp hs
    exact FlowStepReport.reread_reread (draws.stepNow_ne t.2) _ t.1
  rw [reread, hsteps]
  simp only [reread, orText_of_ne hid, orText_of_ne hresult, trimmed_trimmed, List.filter_filter,
    Bool.and_self, orTime_of_truthy (orTime_truthy draws.now_ne)]

theorem rereadStore_rereadStore (eventDraws flowDraws eventDraws' flowDraws' : Nat → Draws)
    (s : Store HistoryEvent FlowRunReport) :
    rereadStore eventDraws' flowDraws' (rereadStore eventDraws flowDraws s) =
      rereadStore eventDraws flowDraws s := by
  have hevents : (rereadStore eventDraws' flowDraws' (rereadStore eventDraws flowDraws s)).events =
      (rereadStore eventDraws flowDraws s).events := by
    refine map_zipIdx_eq_self fun e he n => ?_
    obtain ⟨e, -, rfl⟩ := List.mem_map.mp he
    exact HistoryEvent.reread_reread (eventDraws e.2).now_ne _ e.1
  have hflows : (rereadStore eventDraws' flowDraws' (rereadStore eventDraws flowDraws s)).flowReports =
      (rereadStore eventDraws flowDraws s).flowReports := by
    refine map_zipIdx_eq_self fun r hr n => ?_
    obtain ⟨r, -, rfl⟩ := List.mem_map.mp hr
    exact FlowRunReport.reread_reread _ _ r.1
  exact congrArg₂ Store.mk hevents hflows

theorem HistoryEvent.Plain.reread {e : HistoryEvent} (h : e.Plain) (now : PyFloat) :
    (e.reread now).Plain := by
  refine ⟨?_, h.metadata⟩
  rw [HistoryEvent.reread, orTime_of_truthy (truthy_of_positive h.ts)]
  exact h.ts

theorem Contained.reread {maxEvents maxFlowReports : Nat} {s : Store HistoryEvent FlowRunReport}
    (hs : Contained maxEvents maxFlowReports s) (eventDraws flowDraws : Nat → Draws) :
    Contained maxEvents maxFlowReports (rereadStore eventDraws flowDraws s) := by
  refine ⟨fun e he => ?_, ?_, ?_⟩
  · obtain ⟨⟨e, n⟩, hmem, rfl⟩ := List.mem_map.mp he
    exact (hs.plain e (List.fst_mem_of_mem_zipIdx hmem)).reread _
  · simpa [rereadStore] using hs.events
  · simpa [rereadStore] using hs.flowReports

/-- An event of the writer's system whose change is plain. -/
def PlainEvent : HistoryWriter.Event (Change HistoryEvent FlowRunReport) → Prop
  | .changes c => PlainChange c
  | _ => True

/-- However the store and its writer have run, once the writer waits with nothing left to notice its
file is loaded as the store read back. -/
theorem load_of_waiting {py : Python} {maxEvents maxFlowReports : Nat}
    {file : Option (Store HistoryEvent FlowRunReport)} {s : State (Store HistoryEvent FlowRunReport)}
    (h : ReachableBy (step (Store.change maxEvents maxFlowReports)) (fun _ e => PlainEvent e)
      (State.start ⟨[], []⟩ file) s)
    (hchanged : s.changed) (hwaiting : s.writer = .waiting) (hclear : s.flushEvt = false)
    (hdue : s.requestsDue = 0) {saved : Store HistoryEvent FlowRunReport} (hfile : s.file = some saved)
    {doc : Json} (hdump : dump py saved = .ok doc) (eventDraws flowDraws : Nat → Draws)
    (before : HistoryStore) :
    load py eventDraws flowDraws maxEvents maxFlowReports (some (.document doc)) before =
      ({ rereadStore eventDraws flowDraws s.content with dirty := false }, .ok ()) := by
  have hs : Contained maxEvents maxFlowReports s.content := by
    refine h.invariant (P := fun t => Contained maxEvents maxFlowReports t.content)
      (contained_empty maxEvents maxFlowReports) ?_
    intro t e u ht he hstep
    obtain hsame | ⟨c, rfl, hchange⟩ := step_content hstep
    · rwa [hsame]
    · rw [hchange]
      exact contained_change ht he
  have hsaved := saved_when_waiting h.reachable hchanged hwaiting hclear hdue
  obtain rfl := Option.some.inj (hfile.symm.trans hsaved)
  exact load_dump hs hdump eventDraws flowDraws before

/-! ### Written once more -/

/-- A report whose times of starting are set. -/
structure FlowRunReport.Timed (r : FlowRunReport) : Prop where
  started : truthy (.float r.tsStarted) = true
  steps : ∀ s ∈ r.steps, truthy (.float s.tsStarted) = true

theorem all_zipIdx_map {α β : Type} {f : α × Nat → β} {p : β → Bool} {q : α → Bool} {xs : List α}
    (h : ∀ x ∈ xs, ∀ n, p (f (x, n)) = q x) : (xs.zipIdx.map f).all p = xs.all q := by
  have hself : xs.all q = (xs.zipIdx.map Prod.fst).all q := by rw [List.zipIdx_map_fst]
  rw [hself, List.all_map, List.all_map, Bool.eq_iff_iff, List.all_eq_true, List.all_eq_true]
  refine forall₂_congr fun x hx => ?_
  exact Eq.congr_left (h x.1 (List.fst_mem_of_mem_zipIdx hx) x.2)

/-- Whether a record can be written depends on its times alone. -/
theorem HistoryEvent.toDict_isOk (py : Python) (e : HistoryEvent) :
    (e.toDict py).isOk = (isoTs py (some e.ts)).isOk :=
  isOk_bind_pure

theorem FlowStepReport.toDict_isOk (py : Python) (s : FlowStepReport) : (s.toDict py).isOk =
    ((durationMs py s.tsStarted s.tsFinished).isOk && ((durationMs py s.tsStarted s.tsOutcome).isOk &&
      ((isoTs py (some s.tsStarted)).isOk && ((isoTs py s.tsFinished).isOk &&
        (isoTs py s.tsOutcome).isOk)))) :=
  isOk_bind fun _ _ => isOk_bind fun _ _ => isOk_bind fun _ _ => isOk_bind fun _ _ => isOk_bind_pure

theorem FlowRunReport.toDict_isOk (py : Python) (r : FlowRunReport) : (r.toDict py).isOk =
    ((durationMs py r.tsStarted r.tsFinished).isOk && ((isoTs py (some r.tsStarted)).isOk &&
      ((isoTs py r.tsFinished).isOk && r.steps.all fun s => (s.toDict py).isOk))) := by
  rw [← readAll_some_isOk]
  exact isOk_bind fun _ _ => isOk_bind fun _ _ => isOk_bind fun _ _ => isOk_bind_pure

theorem dump_isOk (py : Python) (s : Store HistoryEvent FlowRunReport) : (dump py s).isOk =
    ((s.events.all fun e => (e.toDict py).isOk) && s.flowReports.all fun r => (r.toDict py).isOk) := by
  rw [← readAll_some_isOk, ← readAll_some_isOk]
  exact isOk_bind fun _ _ => isOk_bind_pure

theorem FlowRunReport.reread_isOk {py : Python} {r : FlowRunReport} (h : r.Timed) (draws : Draws) :
    ((r.reread draws).toDict py).isOk = (r.toDict py).isOk := by
  have hsteps : ((r.reread draws).steps.all fun s => (s.toDict py).isOk) =
      r.steps.all fun s => (s.toDict py).isOk := by
    refine all_zipIdx_map fun s hs n => ?_
    rw [FlowStepReport.toDict_isOk, FlowStepReport.toDict_isOk, FlowStepReport.reread,
      orTime_of_truthy (h.steps s hs)]
  rw [toDict_isOk, hsteps, toDict_isOk, reread, orTime_of_truthy h.started]

/-- No time is drawn for a store whose times are set, and so it can be written again. -/
theorem dump_reread {py : Python} {maxEvents maxFlowReports : Nat} {s : Store HistoryEvent FlowRunReport}
    (hs : Contained maxEvents maxFlowReports s) (htimed : ∀ r ∈ s.flowReports, r.Timed)
    (eventDraws flowDraws : Nat → Draws) :
    (dump py (rereadStore eventDraws flowDraws s)).isOk = (dump py s).isOk := by
  have hevents : ((rereadStore eventDraws flowDraws s).events.all fun e => (e.toDict py).isOk) =
      s.events.all fun e => (e.toDict py).isOk := by
    refine all_zipIdx_map fun e he n => ?_
    rw [HistoryEvent.toDict_isOk, HistoryEvent.toDict_isOk, HistoryEvent.reread,
      orTime_of_truthy (truthy_of_positive (hs.plain e he).ts)]
  have hflows : ((rereadStore eventDraws flowDraws s).flowReports.all fun r => (r.toDict py).isOk) =
      s.flowReports.all fun r => (r.toDict py).isOk :=
    all_zipIdx_map fun r hr n => FlowRunReport.reread_isOk (htimed r hr) _
  rw [dump_isOk, hevents, hflows, dump_isOk]

/-! ### What is kept -/

/-- An event has come back: an optional text is compared trimmed, and a blank one is none. -/
structure EventKept (e e' : HistoryEvent) : Prop where
  kind : e'.kind = e.kind
  message : e'.message = e.message
  level : e'.level = orText e.level "info"
  flowName : trimmed e'.flowName = trimmed e.flowName
  trigger : trimmed e'.trigger = trimmed e.trigger
  metadata : e'.metadata = e.metadata
  ts : e'.ts = e.ts

/-- A step loaded at that time has come back. -/
structure StepKept (now : PyFloat) (s s' : FlowStepReport) : Prop where
  stepId : s'.stepId = s.stepId
  domain : s'.domain = s.domain
  action : s'.action = s.action
  mode : s'.mode = s.mode
  status : s'.status = orText s.status "pending"
  reason : trimmed s'.reason = trimmed s.reason
  error : trimmed s'.error = trimmed s.error
  tsStarted : s'.tsStarted = orTime now s.tsStarted
  tsFinished : s'.tsFinished = s.tsFinished
  outcomeStatus : trimmed s'.outcomeStatus = trimmed s.outcomeStatus
  outcomeReason : trimmed s'.outcomeReason = trimmed s.outcomeReason
  outcomeError : trimmed s'.outcomeError = trimmed s.outcomeError
  tsOutcome : s'.tsOutcome = s.tsOutcome

/-- A report loaded with these draws has come back. -/
structure ReportKept (draws : Draws) (r r' : FlowRunReport) : Prop where
  flowName : r'.flowName = r.flowName
  trigger : r'.trigger = r.trigger
  source : r'.source = r.source
  id : r'.id = orText r.id draws.newId
  result : r'.result = orText r.result "running"
  warnings : r'.warnings = r.warnings.filter fun text => strip text ≠ ""
  error : trimmed r'.error = trimmed r.error
  tsStarted : r'.tsStarted = orTime draws.now r.tsStarted
  tsFinished : r'.tsFinished = r.tsFinished
  steps : List.Forall₂ (fun s s' => StepKept (draws.stepNow s.2) s.1 s') r.steps.zipIdx r'.steps

theorem forall₂_map_self {α β : Type} {f : α → β} {R : α → β → Prop} {xs : List α}
    (h : ∀ x ∈ xs, R x (f x)) : List.Forall₂ R xs (xs.map f) := by
  rw [List.forall₂_map_right_iff, List.forall₂_same]
  exact h

theorem forall₂_zipIdx_map {α : Type} {f : α × Nat → α} {R : α → α → Prop} {xs : List α}
    (h : ∀ x ∈ xs, ∀ n, R x (f (x, n))) : List.Forall₂ R xs (xs.zipIdx.map f) := by
  have hself : List.Forall₂ R (xs.zipIdx.map Prod.fst) (xs.zipIdx.map f) := by
    rw [List.forall₂_map_left_iff]
    exact forall₂_map_self fun x hx => h x.1 (List.fst_mem_of_mem_zipIdx hx) x.2
  rwa [List.zipIdx_map_fst] at hself

theorem HistoryEvent.Plain.kept {e : HistoryEvent} (h : e.Plain) (now : PyFloat) :
    EventKept e (e.reread now) :=
  ⟨rfl, rfl, rfl, trimmed_trimmed _, trimmed_trimmed _, rfl, orTime_of_truthy (truthy_of_positive h.ts)⟩

theorem FlowStepReport.kept (s : FlowStepReport) (now : PyFloat) : StepKept now s (s.reread now) :=
  ⟨rfl, rfl, rfl, rfl, rfl, trimmed_trimmed _, trimmed_trimmed _, rfl, rfl, trimmed_trimmed _,
    trimmed_trimmed _, trimmed_trimmed _, rfl⟩

theorem FlowRunReport.kept (r : FlowRunReport) (draws : Draws) : ReportKept draws r (r.reread draws) :=
  ⟨rfl, rfl, rfl, rfl, rfl, rfl, trimmed_trimmed _, rfl, rfl, forall₂_map_self fun s _ => s.1.kept _⟩

/-- The history comes back after a restart: the same events and reports with the same steps, in the
same order, each as it was but for the empty texts and times that have a default and the blank
warnings; and writing and reading it once more changes nothing. -/
theorem history_survives {py : Python} {maxEvents maxFlowReports : Nat}
    {s : Store HistoryEvent FlowRunReport} (hbuilt : Built maxEvents maxFlowReports s) {doc : Json}
    (hdump : dump py s = .ok doc) (eventDraws flowDraws : Nat → Draws) (before : HistoryStore) :
    ∃ t : Store HistoryEvent FlowRunReport,
      load py eventDraws flowDraws maxEvents maxFlowReports (some (.document doc)) before =
        ({ t with dirty := false }, .ok ()) ∧
      List.Forall₂ EventKept s.events t.events ∧
      List.Forall₂ (fun r r' => ReportKept (flowDraws r.2) r.1 r') s.flowReports.zipIdx t.flowReports ∧
      (∀ (doc' : Json) (eventDraws' flowDraws' : Nat → Draws) (before' : HistoryStore),
        dump py t = .ok doc' →
        load py eventDraws' flowDraws' maxEvents maxFlowReports (some (.document doc')) before' =
          ({ t with dirty := false }, .ok ())) ∧
      ((∀ r ∈ s.flowReports, r.Timed) → ∃ doc', dump py t = .ok doc') := by
  have hs := hbuilt.contained
  refine ⟨rereadStore eventDraws flowDraws s, load_dump hs hdump eventDraws flowDraws before,
    forall₂_zipIdx_map fun e he _ => (hs.plain e he).kept _,
    forall₂_map_self fun r _ => r.1.kept _, ?_, fun htimed => ?_⟩
  · intro doc' eventDraws' flowDraws' before' hdump'
    rw [load_dump (hs.reread eventDraws flowDraws) hdump', rereadStore_rereadStore]
  · apply isOk_iff_exists.mp
    rw [dump_reread hs htimed, hdump]
    rfl

/-- An event about a report that has a blank warning, and a step with an error. -/
def sampleChanges : List (Change HistoryEvent FlowRunReport) :=
  [.addFlowReport {
      flowName := "watch", trigger := "key", source := "usb", id := "ab12", result := "failed"
      warnings := ["tv is slow", " "], error := some "flow_failed", tsStarted := .finite 1767225600
      tsFinished := some (.finite 1767225600)
      steps := [{
        stepId := "tv.on", domain := "tv", action := "on", mode := "watch", status := "failed"
        error := some " timed out ", tsStarted := .finite 1767225600 }] },
    .addEvent { sampleEvent with
      flowName := some "watch ", trigger := some " ", metadata := [(.str "report_id", .str "ab12")] }]

theorem positive_sample : Positive sampleEvent.ts := by
  change (0 : Rat) < 1767225600
  decide +kernel

theorem sampleChanges_plain : ∀ c ∈ sampleChanges, PlainChange c := by
  have hdistinct : (([("report_id", .str "ab12")] : List (String × Json)).map Prod.fst).Nodup := by decide
  exact List.forall_mem_cons.mpr ⟨trivial,
    List.forall_mem_cons.mpr ⟨⟨positive_sample, ⟨_, hdistinct⟩, rfl⟩, nofun⟩⟩

theorem history_survives_sample : ∃ (doc : Json) (t : Store HistoryEvent FlowRunReport),
    dump samplePy (sampleChanges.foldl (Store.change 200 50) ⟨[], []⟩) = .ok doc ∧
    load samplePy sampleDraws sampleDraws 200 50 (some (.document doc)) { events := [], flowReports := [] } =
      ({ t with dirty := false }, .ok ()) ∧
    t.events.length = 1 ∧ t.flowReports.length = 1 := by
  have hbuilt : Built 200 50 (sampleChanges.foldl (Store.change 200 50) ⟨[], []⟩) :=
    ⟨sampleChanges, sampleChanges_plain, rfl⟩
  obtain ⟨doc, hdump⟩ := isOk_iff_exists.mp (show (dump samplePy
    (sampleChanges.foldl (Store.change 200 50) ⟨[], []⟩)).isOk = true from rfl)
  obtain ⟨t, hload, hevents, hflows, -⟩ := history_survives hbuilt hdump sampleDraws sampleDraws
    { events := [], flowReports := [] }
  exact ⟨doc, t, hdump, hload, hevents.length_eq.symm, hflows.length_eq.symm.trans List.length_zipIdx⟩

/-- A store with one event, whose level is empty. -/
def sampleUnlevelled : Store HistoryEvent FlowRunReport :=
  Store.change 200 50 ⟨[], []⟩ (.addEvent { sampleEvent with level := "" })

/-- The event comes back with a level. -/
theorem level_changed : Built 200 50 sampleUnlevelled ∧
    sampleUnlevelled.events.map HistoryEvent.level = [""] ∧
    ∃ doc : Json, dump samplePy sampleUnlevelled = .ok doc ∧
      (load samplePy sampleDraws sampleDraws 200 50 (some (.document doc))
        { events := [], flowReports := [] }).1.events.map HistoryEvent.level = ["info"] := by
  refine ⟨⟨[.addEvent { sampleEvent with level := "" }], ?_, rfl⟩, rfl, _, rfl, rfl⟩
  exact List.forall_mem_cons.mpr ⟨⟨positive_sample, ⟨[], List.nodup_nil⟩, rfl⟩, nofun⟩

end PiHub.History

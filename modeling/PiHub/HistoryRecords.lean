import Mathlib.Algebra.Order.Ring.Rat
import PiHub.Reads
import PiHub.Records
import PiHub.StartupMode

/-! The records of the history (history.py), what they are written as and how they are read. -/
namespace PiHub.History
open PiHub.PyStr PiHub.Keymap PiHub.StartupMode PiHub.Reads PiHub.Records

/-! ### Python's conversions -/

/-- The keys a dictionary can have, other than in a JSON object. -/
inductive Key where
  | null
  | bool (value : Bool)
  | int (value : Int)
  | float (value : PyFloat)
  | str (value : String)

def Key.number? : Key → Option Rat
  | .bool b => some (if b then 1 else 0)
  | .int n => some n
  | .float (.finite q) => some q
  | _ => none

/-- Equal keys are one key; the nan of `json.load` is always the same object. -/
def Key.same (a b : Key) : Bool :=
  match a.number?, b.number? with
  | some p, some q => p = q
  | none, none =>
    match a, b with
    | .null, .null => true
    | .float (.inf m), .float (.inf n) => m = n
    | .float .nan, .float .nan => true
    | .str s, .str t => s = t
    | _, _ => false
  | _, _ => false

instance : BEq Key := ⟨Key.same⟩

/-- What Python's own functions say: `str` of a value that is no string, `float` of a text, the key
`json.dumps` writes for one that is no string, the text of `_iso_ts`, and the milliseconds from one
time to another; the last two can raise. -/
structure Python where
  repr : Json → String
  float : String → Option PyFloat
  keyText : Key → String
  isoTs : PyFloat → Except PyError String
  durationMs : PyFloat → PyFloat → Except PyError Int

def roundHalfEven (n d : Nat) : Nat :=
  if 2 * (n % d) < d ∨ 2 * (n % d) = d ∧ n / d % 2 = 0 then n / d else n / d + 1

/-- `float(n)`: 53 bits, and less than 2^1024. -/
def floatOfInt (n : Int) : Except PyError PyFloat :=
  let unit := 2 ^ (n.natAbs.log2 - 52)
  let value := roundHalfEven n.natAbs unit * unit
  if value < (2 ^ 64) ^ 16 then .ok (.finite (n.sign * value)) else .error .overflowError

/-- `float(value)`. -/
def floatOf (py : Python) : Json → Except PyError PyFloat
  | .bool b => .ok (.finite (if b then 1 else 0))
  | .int n => floatOfInt n
  | .float x => .ok x
  | .str s => (py.float s).elim (.error .valueError) .ok
  | _ => .error .typeError

/-- `iter(value)`. -/
def iter : Json → Except PyError (List Json)
  | .arr items => .ok items
  | .str s => .ok (s.toList.map fun c => .str c.toString)
  | .obj members => .ok (members.map fun e => .str e.1)
  | _ => .error .typeError

def hash : Json → Except PyError Key
  | .null => .ok .null
  | .bool b => .ok (.bool b)
  | .int n => .ok (.int n)
  | .float x => .ok (.float x)
  | .str s => .ok (.str s)
  | _ => .error .typeError

/-- An item of `dict(items)`: two values, of which the first is the key. -/
def pairOf (item : Json) : Except PyError (Key × Json) := do
  match ← iter item with
  | [k, v] => return (← hash k, v)
  | _ => .error .valueError

/-- `dict(value)`. -/
def dict : Json → Except PyError (List (Key × Json))
  | .obj members => .ok (members.map fun e => (.str e.1, e.2))
  | value => do
    let pairs ← readAll (fun item => some (pairOf item)) (← iter value)
    return ofPairs pairs

/-! ### What the readers make of a field -/

/-- `str(value or default)`. -/
def textOr (py : Python) (default : String) (value : Json) : String :=
  if truthy value then pyStr py.repr value else default

/-- `str(value).strip() or None`, unless there is no value. -/
def textOf (py : Python) : Json → Option String
  | .null => none
  | value => stripped (pyStr py.repr value)

/-- `float(value or _now_ts())`. -/
def timeOr (py : Python) (now : PyFloat) (value : Json) : Except PyError PyFloat :=
  if truthy value then floatOf py value else .ok now

/-- `float(value)`, unless there is no value. -/
def timeOf (py : Python) : Json → Except PyError (Option PyFloat)
  | .null => .ok none
  | value => (floatOf py value).map some

/-- `value or []`, to be iterated. -/
def iterOr (value : Json) : Except PyError (List Json) := if truthy value then iter value else .ok []

/-- `dict(value or {})`. -/
def dictOr (value : Json) : Except PyError (List (Key × Json)) :=
  if truthy value then dict value else .ok []

/-- An item of a list that is no dictionary is passed over. -/
def entryAt {β : Type} (fromDict : Nat → List (String × Json) → Except PyError β) :
    Json × Nat → Option (Except PyError β)
  | (.obj raw, n) => some (fromDict n raw)
  | _ => none

/-- What `_now_ts` and `uuid4` give while an entry is read: a time after 1970 and 32 digits. -/
structure Draws where
  now : PyFloat
  newId : String
  stepNow : Nat → PyFloat
  now_ne : truthy (.float now) = true
  newId_ne : newId ≠ ""
  stepNow_ne : ∀ n : Nat, truthy (.float (stepNow n)) = true

/-! ### What the writers make of a field -/

def optText : Option String → Json
  | none => .null
  | some s => .str s

def optTime : Option PyFloat → Json
  | none => .null
  | some t => .float t

/-- A dictionary as it is in the file: each key is written as a text. -/
def dumpDict (py : Python) (d : List (Key × Json)) : List (String × Json) :=
  ofPairs (d.map fun e => (match e.1 with | .str s => s | k => py.keyText k, e.2))

/-- `_iso_ts`. -/
def isoTs (py : Python) : Option PyFloat → Except PyError Json
  | none => .ok .null
  | some t => (py.isoTs t).map .str

def durationMs (py : Python) (started : PyFloat) : Option PyFloat → Except PyError Json
  | none => .ok .null
  | some t => (py.durationMs started t).map fun n => .int (max 0 n)

/-! ### The records -/

structure HistoryEvent where
  kind : String
  message : String
  level : String := "info"
  flowName : Option String := none
  trigger : Option String := none
  metadata : List (Key × Json) := []
  ts : PyFloat

structure FlowStepReport where
  stepId : String
  domain : String
  action : String
  mode : String
  status : String := "pending"
  reason : Option String := none
  error : Option String := none
  tsStarted : PyFloat
  tsFinished : Option PyFloat := none
  outcomeStatus : Option String := none
  outcomeReason : Option String := none
  outcomeError : Option String := none
  tsOutcome : Option PyFloat := none

structure FlowRunReport where
  flowName : String
  trigger : String
  source : String
  id : String
  result : String := "running"
  warnings : List String := []
  error : Option String := none
  tsStarted : PyFloat
  tsFinished : Option PyFloat := none
  steps : List FlowStepReport := []

namespace HistoryEvent

def toDict (py : Python) (e : HistoryEvent) : Except PyError (List (String × Json)) := do
  let iso ← isoTs py (some e.ts)
  return [("ts", .float e.ts), ("iso_ts", iso), ("kind", .str e.kind), ("level", .str e.level),
    ("message", .str e.message), ("flow_name", optText e.flowName), ("trigger", optText e.trigger),
    ("metadata", .obj (dumpDict py e.metadata))]

def fromDict (py : Python) (now : PyFloat) (raw : List (String × Json)) : Except PyError HistoryEvent := do
  let metadata ← dictOr (get raw "metadata")
  let ts ← timeOr py now (get raw "ts")
  return {
    kind := textOr py "" (get raw "kind")
    message := textOr py "" (get raw "message")
    level := textOr py "info" (get raw "level")
    flowName := textOf py (get raw "flow_name")
    trigger := textOf py (get raw "trigger")
    metadata, ts }

end HistoryEvent

namespace FlowStepReport

def toDict (py : Python) (s : FlowStepReport) : Except PyError (List (String × Json)) := do
  let duration ← durationMs py s.tsStarted s.tsFinished
  let outcomeDuration ← durationMs py s.tsStarted s.tsOutcome
  let isoStarted ← isoTs py (some s.tsStarted)
  let isoFinished ← isoTs py s.tsFinished
  let isoOutcome ← isoTs py s.tsOutcome
  return [("step_id", .str s.stepId), ("domain", .str s.domain), ("action", .str s.action),
    ("mode", .str s.mode), ("status", .str s.status), ("reason", optText s.reason),
    ("error", optText s.error), ("ts_started", .float s.tsStarted), ("iso_ts_started", isoStarted),
    ("ts_finished", optTime s.tsFinished), ("iso_ts_finished", isoFinished), ("duration_ms", duration),
    ("outcome_status", optText s.outcomeStatus), ("outcome_reason", optText s.outcomeReason),
    ("outcome_error", optText s.outcomeError), ("ts_outcome", optTime s.tsOutcome),
    ("iso_ts_outcome", isoOutcome), ("outcome_duration_ms", outcomeDuration)]

def fromDict (py : Python) (now : PyFloat) (raw : List (String × Json)) :
    Except PyError FlowStepReport := do
  let tsStarted ← timeOr py now (get raw "ts_started")
  let tsFinished ← timeOf py (get raw "ts_finished")
  let tsOutcome ← timeOf py (get raw "ts_outcome")
  return {
    stepId := textOr py "" (get raw "step_id")
    domain := textOr py "" (get raw "domain")
    action := textOr py "" (get raw "action")
    mode := textOr py "" (get raw "mode")
    status := textOr py "pending" (get raw "status")
    reason := textOf py (get raw "reason")
    error := textOf py (get raw "error")
    outcomeStatus := textOf py (get raw "outcome_status")
    outcomeReason := textOf py (get raw "outcome_reason")
    outcomeError := textOf py (get raw "outcome_error")
    tsStarted, tsFinished, tsOutcome }

end FlowStepReport

namespace FlowRunReport

def toDict (py : Python) (r : FlowRunReport) : Except PyError (List (String × Json)) := do
  let duration ← durationMs py r.tsStarted r.tsFinished
  let isoStarted ← isoTs py (some r.tsStarted)
  let isoFinished ← isoTs py r.tsFinished
  let steps ← readAll (fun step => some (FlowStepReport.toDict py step)) r.steps
  return [("id", .str r.id), ("flow_name", .str r.flowName), ("trigger", .str r.trigger),
    ("source", .str r.source), ("result", .str r.result), ("warnings", .arr (r.warnings.map .str)),
    ("error", optText r.error), ("ts_started", .float r.tsStarted), ("iso_ts_started", isoStarted),
    ("ts_finished", optTime r.tsFinished), ("iso_ts_finished", isoFinished), ("duration_ms", duration),
    ("steps", .arr (steps.map .obj))]

/-- The texts of the items, other than the blank ones. -/
def warningTexts (py : Python) (items : List Json) : List String :=
  (items.map (pyStr py.repr)).filter fun text => strip text ≠ ""

def fromDict (py : Python) (draws : Draws) (raw : List (String × Json)) : Except PyError FlowRunReport := do
  let warnings ← iterOr (get raw "warnings")
  let tsStarted ← timeOr py draws.now (get raw "ts_started")
  let tsFinished ← timeOf py (get raw "ts_finished")
  let items ← iterOr (get raw "steps")
  let steps ← readAll (entryAt fun n => FlowStepReport.fromDict py (draws.stepNow n)) items.zipIdx
  return {
    flowName := textOr py "" (get raw "flow_name")
    trigger := textOr py "" (get raw "trigger")
    source := textOr py "" (get raw "source")
    id := textOr py draws.newId (get raw "id")
    result := textOr py "running" (get raw "result")
    warnings := warningTexts py warnings
    error := textOf py (get raw "error")
    tsStarted, tsFinished, steps }

end FlowRunReport

end PiHub.History

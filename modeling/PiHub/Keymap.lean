import Mathlib.Data.List.AList
import PiHub.PyStr

/-! keymap.json as the dispatcher checks and reads it (dispatcher.py, validation.py). -/
namespace PiHub.Keymap

/-- A dictionary, the newest entry first. -/
abbrev Dict (κ α : Type) := AList fun _ : κ => α

/-- What `json.loads` makes of a number with a point or an exponent. -/
inductive PyFloat where
  | finite (value : Rat)
  | inf (negative : Bool)
  | nan

/-- A value that `json.loads` returns; the keys of an object are distinct. -/
inductive Json where
  | null
  | bool (value : Bool)
  | int (value : Int)
  | float (value : PyFloat)
  | str (value : String)
  | arr (values : List Json)
  | obj (members : List (String × Json))

/-- `value == s` for a string `s`. -/
def Json.isStr (value : Json) (s : String) : Bool :=
  match value with
  | .str t => t = s
  | _ => false

inductive PyError where
  | typeError | valueError | overflowError
  deriving DecidableEq

/-- `int(value)`. -/
def Json.toInt : Json → Except PyError Int
  | .null => .error .typeError
  | .bool b => .ok (if b then 1 else 0)
  | .int n => .ok n
  | .float (.finite q) => .ok (q.num.tdiv q.den)
  | .float (.inf _) => .error .overflowError
  | .float .nan => .error .valueError
  | .str s => (PyStr.int? s).elim (.error .valueError) .ok
  | .arr _ => .error .typeError
  | .obj _ => .error .typeError

/-- `parse_ms`. OverflowError is not among the exceptions it handles. -/
def parseMs (value : Json) (default min max : Int) : Except PyError Int :=
  match value with
  | .null => .ok default
  | _ =>
    match value.toInt with
    | .ok parsed => .ok (if parsed < min ∨ parsed > max then default else parsed)
    | .error .overflowError => .error .overflowError
    | .error _ => .ok default

/-- An action that has passed the check, with the fields the dispatcher reads: `whenEdge` is
`a.get("when", "down")`. -/
inductive Action where
  | noop
  | ble (usage code : String)
  | speaker (whenEdge action : Json) (kwargs : List (String × Json))
  | flow (name : String) (whenEdge minHoldMs : Json)

/-- What `_validate_keymap` raises, with the place it names. -/
inductive KeymapError where
  | notDict
  | modesNotDict
  | modeNotDict (mode : String)
  | actionsNotList (mode remKey : String)
  | actionNotDict (mode remKey : String) (idx : Nat)
  | unknownDomain (mode remKey : String) (idx : Nat) (domain : Json)
  | flowNotRun (mode remKey : String) (idx : Nat)
  | flowNameMissing (mode remKey : String) (idx : Nat)
  | bleIncomplete (mode remKey : String) (idx : Nat)

/-- `a.get(key)`. -/
def get (a : List (String × Json)) (key : String) : Json := (a.lookup key).getD .null

/-- `_action_kwargs`. -/
def actionKwargs (a : List (String × Json)) : List (String × Json) :=
  a.filter fun kv =>
    kv.1 ∉ ["domain", "action", "when", "min_hold_ms", "_when", "_min_hold_ms", "_extras"]

/-- The body of `_validate_keymap`'s loops, and the action it has checked. -/
def readAction (mode remKey : String) (idx : Nat) (action : Json) : Except KeymapError Action :=
  match action with
  | .obj a =>
    let whenEdge := (a.lookup "when").getD (.str "down")
    match get a "domain" with
    | .str "flow" =>
      if !(get a "action").isStr "run" then .error (.flowNotRun mode remKey idx)
      else
        match get a "name" with
        | .str name => .ok (.flow name whenEdge (get a "min_hold_ms"))
        | _ => .error (.flowNameMissing mode remKey idx)
    | .str "ble" =>
      match get a "usage", get a "code" with
      | .str usage, .str code => .ok (.ble usage code)
      | _, _ => .error (.bleIncomplete mode remKey idx)
    | .str "noop" => .ok .noop
    | .str "speaker" => .ok (.speaker whenEdge (get a "action") (actionKwargs a))
    | domain => .error (.unknownDomain mode remKey idx domain)
  | _ => .error (.actionNotDict mode remKey idx)

/-- `self._bindings`: the actions of each key, by mode. -/
abbrev Bindings := Dict String (Dict String (List Action))

def readActions (mode remKey : String) (actions : Json) : Except KeymapError (List Action) :=
  match actions with
  | .arr as => as.zipIdx.mapM fun a => readAction mode remKey a.2 a.1
  | _ => .error (.actionsNotList mode remKey)

/-- `dict(pairs)`, for pairs with distinct keys. -/
def dictOf {α : Type} (pairs : List (String × α)) : Dict String α :=
  (pairs.reverse.map fun p => (⟨p.1, p.2⟩ : Sigma fun _ : String => α)).toAList

def readMode (mode : String) (mapping : Json) : Except KeymapError (Dict String (List Action)) :=
  match mapping with
  | .obj kvs => do
    let keys ← kvs.mapM fun kv => do return (kv.1, ← readActions mode kv.1 kv.2)
    return dictOf keys
  | _ => .error (.modeNotDict mode)

/-- `_validate_keymap`, and the bindings of a document that passes. -/
def readKeymap (doc : Json) : Except KeymapError Bindings :=
  match doc with
  | .obj d =>
    match get d "modes" with
    | .obj modes => do
      let modes ← modes.mapM fun kv => do return (kv.1, ← readMode kv.1 kv.2)
      return dictOf modes
    | _ => .error .modesNotDict
  | _ => .error .notDict

end PiHub.Keymap

import PiHub.Text
import PiHub.DongleLink

/-! The dongle's lines as text (`snprintk`, main.c) and what the host makes of them
(`_handle_line`, ble_dongle.py). -/
namespace PiHub.DongleHost
open Text HostFrames DongleLink

/-! ### Formatting -/

def bit (on : Bool) : List Char := if on then "1".toList else "0".toList

/-- 1.25 ms units to whole ms. -/
def intervalMs (interval : UInt16) : Nat := interval.toNat * 125 / 100

/-- 10 ms units to ms. -/
def timeoutMs (timeout : UInt16) : Nat := timeout.toNat * 10

/-- A `key=value` word. -/
def field (p : String × List Char) : List Char := p.1.toList ++ '=' :: p.2

def usageWord : Usage → List Char
  | .keyboard => "kb".toList
  | .consumer => "cc".toList

/-- The fields of a STATUS line, in order. -/
def statusPairs (s : Status) : List (String × List Char) :=
  [("adv", bit s.adv), ("conn", bit s.conn), ("sec", dec s.sec.toNat), ("ready", bit s.ready),
    ("proto", dec s.proto.toNat), ("err", bit s.err), ("kb_notify", bit s.kbNotify),
    ("boot_notify", bit s.bootNotify), ("cc_notify", bit s.ccNotify),
    ("batt_notify", bit s.battNotify), ("suspend", bit s.suspend),
    ("interval_ms", dec (if s.haveConnParams then intervalMs s.interval else 0)),
    ("latency", dec s.latency.toNat),
    ("timeout_ms", dec (if s.haveConnParams then timeoutMs s.timeout else 0))]

/-- CONFIG_BT_DEVICE_NAME and FW_VERSION_STR. -/
structure Build where
  deviceName : List Char
  fwVersion : List Char

def infoText (build : Build) (addr : Option (List Char)) : List Char :=
  "INFO name=".toList ++ build.deviceName ++ " fw=".toList ++ build.fwVersion ++ " addr=".toList ++
    addr.getD "?".toList

/-- The text of a line, cut to the buffer it is formatted in. -/
def lineText (build : Build) : Line → List Char
  | .evtAdv on => snprintk 24 (unwords ["EVT".toList, "ADV".toList, bit on])
  | .evtConn on => snprintk 24 (unwords ["EVT".toList, "CONN".toList, bit on])
  | .evtReady on => snprintk 32 (unwords ["EVT".toList, "READY".toList, bit on])
  | .evtProto report => snprintk 24 (unwords ["EVT".toList, "PROTO".toList, bit report])
  | .evtErr on => snprintk 24 (unwords ["EVT".toList, "ERR".toList, bit on])
  | .evtDisc reason =>
    snprintk 32 (unwords ["EVT".toList, "DISC".toList, field ("reason", dec reason.toNat)])
  | .evtConnParams interval latency timeout =>
    snprintk 96 (unwords ["EVT".toList, "CONN_PARAMS".toList,
      field ("interval_ms", dec (intervalMs interval)), field ("latency", dec latency.toNat),
      field ("timeout_ms", dec (timeoutMs timeout))])
  | .evtBinErr usage rc =>
    snprintk 32 (unwords ["EVT".toList, "BINERR".toList, usageWord usage, sdec rc.toInt])
  | .evtBinErrTimeout usage =>
    unwords ["EVT".toList, "BINERR".toList, usageWord usage, "timeout".toList]
  | .status s => snprintk 340 (unwords ("STATUS".toList :: (statusPairs s).map field))
  | .pong => "PONG".toList
  | .info addr => snprintk 220 (infoText build addr)

/-! ### The host -/

structure ConnParams where
  intervalMs : Int := 0
  latency : Int := 0
  timeoutMs : Int := 0
  deriving DecidableEq

structure DongleState where
  ready : Bool := false
  advertising : Bool := false
  connected : Bool := false
  sec : Int := 0
  error : Bool := false
  connParams : Option ConnParams := none
  lastDiscReason : Option (List Char) := none
  deriving DecidableEq

/-- What `_handle_line` changes of a `BleDongleLink`; the logging is left out. -/
structure BleDongleLink where
  state : DongleState := {}
  transportEvt : Bool := false
  lastError : Option (List Char) := none
  firmware : Option (List Char) := none
  initialReceived : Bool := false
  deriving DecidableEq

def startsWith (s pre : List Char) : Bool := pre.isPrefixOf s

/-- `kv.get(name)`. -/
def kvGet (kv : List (List Char × List Char)) (name : String) : Option (List Char) :=
  kv.lookup name.toList

/-- `int(kv.get(name, "0") or 0)`. -/
def connParam (kv : List (List Char × List Char)) (name : String) : Option Int :=
  match kvGet kv name with
  | none | some [] => some 0
  | some v => int? v

namespace BleDongleLink

def handleEvt (h : BleDongleLink) (line : List Char) : BleDongleLink :=
  match split line with
  | _ :: src :: arg :: rest =>
    if src = "ADV".toList then
      { h with state := { h.state with advertising := arg = "1".toList } }
    else if src = "CONN".toList then
      if arg = "1".toList then
        { h with state := { h.state with connected := true, lastDiscReason := none } }
      else
        { h with state := { h.state with connected := false, ready := false, connParams := none } }
    else if src = "READY".toList then
      { h with state := { h.state with
        ready := arg = "1".toList
        connected := h.state.connected || arg = "1".toList } }
    else if src = "ERR".toList then
      match int? arg with
      | none => h
      | some n => { h with
        state := { h.state with error := n = 1 }
        lastError := if n = 1 then some "evt_err".toList else none }
    else if src = "DISC".toList then
      { h with state := { h.state with
        lastDiscReason := (arg :: rest).foldl (fun r tok =>
          if startsWith tok "reason=".toList then (splitOnce '=' tok).map Prod.snd else r)
          h.state.lastDiscReason } }
    else if src = "CONN_PARAMS".toList then
      let kv := keyValues (arg :: rest)
      match connParam kv "interval_ms", connParam kv "latency", connParam kv "timeout_ms" with
      | some i, some l, some t =>
        { h with state := { h.state with connParams := some ⟨i, l, t⟩ } }
      | _, _, _ => h
    else h
  | _ => h

/-- `_i` of `_handle_status`. -/
def statusInt (kv : List (List Char × List Char)) (name : String) : Int :=
  ((kvGet kv name).bind int?).getD 0

def handleStatus (h : BleDongleLink) (line : List Char) : BleDongleLink :=
  let kv := (keyValues ((split line).drop 1)).map fun kv => (strip kv.1, strip kv.2)
  let connected := statusInt kv "conn" = 1
  let params : ConnParams :=
    ⟨statusInt kv "interval_ms", statusInt kv "latency", statusInt kv "timeout_ms"⟩
  { h with
    state := { h.state with
      advertising := statusInt kv "adv" = 1
      connected := connected
      ready := connected && statusInt kv "ready" = 1
      sec := statusInt kv "sec"
      error := statusInt kv "err" = 1
      connParams :=
        if connected ∧ (params.intervalMs ≠ 0 ∨ params.latency ≠ 0 ∨ params.timeoutMs ≠ 0) then
          some params
        else none }
    initialReceived := true }

/-- A character of a word to `\b`. -/
def isWordChar (c : Char) : Bool := c.isAlphanum || c == '_'

/-- The group of `re.search(r"\bfw=(\S+)", line)`, after the character before. -/
def searchFw : Option Char → List Char → Option (List Char)
  | _, [] => none
  | before, c :: cs =>
    if !before.any isWordChar && startsWith (c :: cs) "fw=".toList then
      match ((c :: cs).drop 3).takeWhile fun d => !isSpace d with
      | [] => searchFw (some c) cs
      | v => some v
    else searchFw (some c) cs

def handleLine (h : BleDongleLink) (line : List Char) : BleDongleLink :=
  if line = "PONG".toList then { h with transportEvt := true }
  else if line = "OK".toList then h
  else if startsWith line "BUSY".toList then h
  else if startsWith line "ERR".toList then
    { h with state := { h.state with error := true }, lastError := some line }
  else if startsWith line "EVT ".toList then h.handleEvt line
  else if startsWith line "STATUS ".toList then h.handleStatus line
  else if startsWith line "INFO ".toList then
    { h with firmware := (searchFw none line).orElse fun _ => h.firmware }
  else h

end BleDongleLink

/-! ### What a line does to the host's view -/

/-- The four fields both ends keep. -/
structure View where
  advertising : Bool
  connected : Bool
  ready : Bool
  error : Bool
  deriving DecidableEq

def DongleState.view (s : DongleState) : View := ⟨s.advertising, s.connected, s.ready, s.error⟩

/-- The host's view after a line, whatever its text looks like. -/
def hear (v : View) : Line → View
  | .evtAdv on => { v with advertising := on }
  | .evtConn on => { v with connected := on, ready := v.ready && on }
  | .evtReady on => { v with ready := on, connected := v.connected || on }
  | .evtErr on => { v with error := on }
  | .status s => ⟨s.adv, s.conn, s.conn && s.ready, s.err⟩
  | _ => v

theorem bit_word (on : Bool) : Word (bit on) := by cases on <;> decide

theorem length_bit (on : Bool) : (bit on).length = 1 := by cases on <;> rfl

theorem field_word {p : String × List Char} (hkey : Word p.1.toList) (hvalue : Word p.2) :
    Word (field p) := by
  refine ⟨by simp [field], ?_⟩
  intro c hc
  simp only [field, List.mem_append, List.mem_cons] at hc
  rcases hc with hc | rfl | hc
  · exact hkey.2 c hc
  · decide
  · exact hvalue.2 c hc

theorem field_dec_word {key : String} (n : Nat) (hkey : Word key.toList) :
    Word (field (key, dec n)) :=
  field_word hkey (dec_word n)

theorem sdec_word (i : Int) : Word (sdec i) := by
  unfold sdec
  split
  · refine ⟨by simp, ?_⟩
    intro c hc
    rcases List.mem_cons.mp hc with rfl | hc
    · decide
    · exact (dec_word _).2 c hc
  · exact dec_word _

theorem keyValues_fields {pairs : List (String × List Char)}
    (h : ∀ p ∈ pairs, '=' ∉ p.1.toList) :
    keyValues (pairs.map field) = (pairs.map fun p => (p.1.toList, p.2)).reverse := by
  have hmap : (pairs.map field).filterMap (splitOnce '=') = pairs.map fun p => (p.1.toList, p.2) := by
    induction pairs with
    | nil => rfl
    | cons p pairs ih =>
      have hp := splitOnce_field p.2 (h p (by simp))
      simp only [List.map_cons, List.filterMap_cons, field, hp]
      exact congrArg _ (ih fun q hq => h q (by simp [hq]))
  rw [keyValues, hmap]

theorem handleLine_evt (h : BleDongleLink) (src : List Char) (args : List (List Char)) :
    h.handleLine (unwords ("EVT".toList :: src :: args)) =
      h.handleEvt (unwords ("EVT".toList :: src :: args)) := rfl

/-- An event the host keeps no flag for leaves its view alone. -/
theorem handleEvt_other (h : BleDongleLink) {src : List Char} {args : List (List Char)}
    (hwords : ∀ w ∈ src :: args, Word w)
    (hsrc : src ∉ ["ADV".toList, "CONN".toList, "READY".toList, "ERR".toList]) :
    (h.handleEvt (unwords ("EVT".toList :: src :: args))).state.view = h.state.view := by
  have hall : ∀ w ∈ "EVT".toList :: src :: args, Word w := by
    intro w hw
    rcases List.mem_cons.mp hw with rfl | hw
    · decide
    · exact hwords w hw
  simp only [List.mem_cons, List.not_mem_nil, or_false, not_or] at hsrc
  obtain ⟨hadv, hconn, hready, herr⟩ := hsrc
  rw [BleDongleLink.handleEvt, split_unwords hall]
  cases args with
  | nil => rfl
  | cons arg rest =>
    simp only [if_neg hadv, if_neg hconn, if_neg hready, if_neg herr]
    split
    · rfl
    · split
      · split <;> rfl
      · rfl

theorem intervalMs_lt (interval : UInt16) : intervalMs interval < 10 ^ 5 := by
  have hlt := interval.toNat_lt
  unfold intervalMs
  omega

theorem timeoutMs_lt (timeout : UInt16) : timeoutMs timeout < 10 ^ 6 := by
  have hlt := timeout.toNat_lt
  unfold timeoutMs
  omega

theorem lineText_evtDisc (build : Build) (reason : UInt8) :
    lineText build (.evtDisc reason) =
      unwords ["EVT".toList, "DISC".toList, field ("reason", dec reason.toNat)] := by
  have hreason : (dec reason.toNat).length ≤ 3 :=
    length_dec_le (by decide) (by have := reason.toNat_lt; omega)
  apply snprintk_of_fits
  simp [unwords, field]
  omega

theorem lineText_evtConnParams (build : Build) (interval latency timeout : UInt16) :
    lineText build (.evtConnParams interval latency timeout) =
      unwords ["EVT".toList, "CONN_PARAMS".toList,
        field ("interval_ms", dec (intervalMs interval)), field ("latency", dec latency.toNat),
        field ("timeout_ms", dec (timeoutMs timeout))] := by
  have hinterval : (dec (intervalMs interval)).length ≤ 5 :=
    length_dec_le (by decide) (intervalMs_lt interval)
  have hlatency : (dec latency.toNat).length ≤ 5 :=
    length_dec_le (by decide) (by have := latency.toNat_lt; omega)
  have htimeout : (dec (timeoutMs timeout)).length ≤ 6 :=
    length_dec_le (by decide) (timeoutMs_lt timeout)
  apply snprintk_of_fits
  simp [unwords, field]
  omega

theorem length_sdec_le (rc : Int32) : (sdec rc.toInt).length ≤ 11 := by
  have hlo := rc.le_toInt
  have hhi := rc.toInt_lt
  have hdec : (dec rc.toInt.natAbs).length ≤ 10 := length_dec_le (by decide) (by omega)
  unfold sdec
  split
  · simp only [List.length_cons]; omega
  · omega

theorem lineText_evtBinErr (build : Build) (usage : Usage) (rc : Int32) :
    lineText build (.evtBinErr usage rc) =
      unwords ["EVT".toList, "BINERR".toList, usageWord usage, sdec rc.toInt] := by
  have hrc := length_sdec_le rc
  apply snprintk_of_fits
  cases usage <;> simp [unwords, usageWord] <;> omega

theorem lineText_status (build : Build) (s : Status) :
    lineText build (.status s) = unwords ("STATUS".toList :: (statusPairs s).map field) := by
  have hsec : (dec s.sec.toNat).length ≤ 3 :=
    length_dec_le (by decide) (by have := s.sec.toNat_lt; omega)
  have hproto : (dec s.proto.toNat).length ≤ 3 :=
    length_dec_le (by decide) (by have := s.proto.toNat_lt; omega)
  have hinterval : (dec (if s.haveConnParams then intervalMs s.interval else 0)).length ≤ 5 :=
    length_dec_le (by decide) (by have := intervalMs_lt s.interval; split <;> omega)
  have hlatency : (dec s.latency.toNat).length ≤ 5 :=
    length_dec_le (by decide) (by have := s.latency.toNat_lt; omega)
  have htimeout : (dec (if s.haveConnParams then timeoutMs s.timeout else 0)).length ≤ 6 :=
    length_dec_le (by decide) (by have := timeoutMs_lt s.timeout; split <;> omega)
  apply snprintk_of_fits
  simp only [statusPairs, List.map_cons, List.map_nil, unwords, field, List.length_append,
    List.length_cons, length_bit]
  simp
  omega

theorem statusPairs_words (s : Status) : ∀ p ∈ statusPairs s, Word p.1.toList ∧ Word p.2 := by
  simp only [statusPairs, List.forall_mem_cons, bit_word, dec_word, and_true]
  decide

theorem statusPairs_keys (s : Status) : ∀ p ∈ statusPairs s, '=' ∉ p.1.toList := by
  simp only [statusPairs, List.forall_mem_cons]
  decide

theorem handleStatus_kv (s : Status) :
    (keyValues (((split (unwords ("STATUS".toList :: (statusPairs s).map field))).drop 1))).map
        (fun kv => (strip kv.1, strip kv.2)) =
      ((statusPairs s).map fun p => (p.1.toList, p.2)).reverse := by
  have hall : ∀ w ∈ "STATUS".toList :: (statusPairs s).map field, Word w := by
    intro w hw
    rcases List.mem_cons.mp hw with rfl | hw
    · decide
    · obtain ⟨p, hp, rfl⟩ := List.mem_map.mp hw
      exact field_word (statusPairs_words s p hp).1 (statusPairs_words s p hp).2
  rw [split_unwords hall, List.drop_one, List.tail_cons, keyValues_fields (statusPairs_keys s),
    List.map_reverse, List.map_map]
  congr 1
  apply List.map_congr_left
  intro p hp
  obtain ⟨hkey, hvalue⟩ := statusPairs_words s p hp
  simp [strip_word hkey.2, strip_word hvalue.2]

theorem statusInt_bit {kv : List (List Char × List Char)} {name : String} {on : Bool}
    (h : kvGet kv name = some (bit on)) :
    BleDongleLink.statusInt kv name = if on then 1 else 0 := by
  rw [BleDongleLink.statusInt, h]
  cases on <;> rfl

/-- The host reads off a STATUS line the four flags that were printed into it. -/
theorem handleStatus_view (h : BleDongleLink) (s : Status) :
    (h.handleStatus (unwords ("STATUS".toList :: (statusPairs s).map field))).state.view =
      ⟨s.adv, s.conn, s.conn && s.ready, s.err⟩ := by
  rw [BleDongleLink.handleStatus, handleStatus_kv]
  generalize hkv : ((statusPairs s).map fun p => (p.1.toList, p.2)).reverse = kv
  have hadv : kvGet kv "adv" = some (bit s.adv) := by
    simp [← hkv, kvGet, statusPairs, List.lookup_cons]
  have hconn : kvGet kv "conn" = some (bit s.conn) := by
    simp [← hkv, kvGet, statusPairs, List.lookup_cons]
  have hready : kvGet kv "ready" = some (bit s.ready) := by
    simp [← hkv, kvGet, statusPairs, List.lookup_cons]
  have herr : kvGet kv "err" = some (bit s.err) := by
    simp [← hkv, kvGet, statusPairs, List.lookup_cons]
  simp only [DongleState.view, statusInt_bit hadv, statusInt_bit hconn, statusInt_bit hready,
    statusInt_bit herr]
  cases s.adv <;> cases s.conn <;> cases s.ready <;> cases s.err <;> rfl

/-- The text carries the line: the host's view moves as the line says. -/
theorem handleLine_view (build : Build) (h : BleDongleLink) (l : Line) :
    (h.handleLine (lineText build l)).state.view = hear h.state.view l := by
  cases l with
  | evtAdv on => cases on <;> rfl
  | evtConn on =>
    cases on with
    | false =>
      have hs : (h.handleLine (lineText build (.evtConn false))).state =
          { h.state with connected := false, ready := false, connParams := none } := rfl
      simp [hs, hear, DongleState.view]
    | true =>
      have hs : (h.handleLine (lineText build (.evtConn true))).state =
          { h.state with connected := true, lastDiscReason := none } := rfl
      simp [hs, hear, DongleState.view]
  | evtReady on => cases on <;> rfl
  | evtProto report => cases report <;> rfl
  | evtErr on => cases on <;> rfl
  | evtDisc reason =>
    have hwords : ∀ w ∈ ["DISC".toList, field ("reason", dec reason.toNat)], Word w := by
      simp only [List.forall_mem_cons, List.not_mem_nil, false_imp_iff, implies_true, and_true]
      exact ⟨by decide, field_dec_word _ (by decide)⟩
    rw [lineText_evtDisc, handleLine_evt]
    exact handleEvt_other h hwords (by decide)
  | evtConnParams interval latency timeout =>
    have hwords : ∀ w ∈ ["CONN_PARAMS".toList, field ("interval_ms", dec (intervalMs interval)),
        field ("latency", dec latency.toNat), field ("timeout_ms", dec (timeoutMs timeout))],
        Word w := by
      simp only [List.forall_mem_cons, List.not_mem_nil, false_imp_iff, implies_true, and_true]
      exact ⟨by decide, field_dec_word _ (by decide), field_dec_word _ (by decide),
        field_dec_word _ (by decide)⟩
    rw [lineText_evtConnParams, handleLine_evt]
    exact handleEvt_other h hwords (by decide)
  | evtBinErr usage rc =>
    have hwords : ∀ w ∈ ["BINERR".toList, usageWord usage, sdec rc.toInt], Word w := by
      simp only [List.forall_mem_cons, List.not_mem_nil, false_imp_iff, implies_true, and_true]
      exact ⟨by decide, by cases usage <;> decide, sdec_word _⟩
    rw [lineText_evtBinErr, handleLine_evt]
    exact handleEvt_other h hwords (by decide)
  | evtBinErrTimeout usage => cases usage <;> rfl
  | status s => rw [lineText_status]; exact handleStatus_view h s
  | pong => rfl
  | info addr => rfl

end PiHub.DongleHost

import PiHub.Records
import PiHub.Settings

/-! The settings field by field: what `_validate_payload` makes of one value when it does not know
the backend, and that it looks at each field by itself. -/
namespace PiHub.Settings
open PiHub.PyStr PiHub.Keymap PiHub.StartupMode PiHub.Slots PiHub.Records PiHub.Fallible

inductive Field where
  | watchVolumePct | listenVolumePct
  | listenTargetType | listenTargetPreset | listenTargetStream
  | streamUrl (n : Fin 4)
  | soundbarStreamUrl (n : Fin 10)
  | soundbarRestream (n : Fin 10)
  deriving DecidableEq

namespace Field

def key : Field → String
  | watchVolumePct => "watch_volume_pct"
  | listenVolumePct => "listen_volume_pct"
  | listenTargetType => "listen_target_type"
  | listenTargetPreset => "listen_target_preset"
  | listenTargetStream => "listen_target_stream"
  | streamUrl n => SettingsData.streamUrlKey n
  | soundbarStreamUrl n => SettingsData.soundbarStreamUrlKey n
  | soundbarRestream n => SettingsData.soundbarRestreamKey n

def get (s : SettingsData) : Field → Json
  | watchVolumePct => .int s.watchVolumePct
  | listenVolumePct => .int s.listenVolumePct
  | listenTargetType => .str s.listenTargetType
  | listenTargetPreset => .int s.listenTargetPreset
  | listenTargetStream => .int s.listenTargetStream
  | streamUrl n => .str (s.streamUrl n)
  | soundbarStreamUrl n => .str (s.soundbarStreamUrl n)
  | soundbarRestream n => .bool (s.soundbarRestream n)

end Field

/-- In the order of the dictionary. -/
def fields : List Field :=
  [.watchVolumePct, .listenVolumePct, .listenTargetType, .listenTargetPreset, .listenTargetStream] ++
    (List.finRange 4).map .streamUrl ++ (List.finRange 10).map .soundbarStreamUrl ++
    (List.finRange 10).map .soundbarRestream

theorem mem_fields (f : Field) : f ∈ fields := by
  cases f <;> simp [fields]

theorem keys_nodup : (fields.map Field.key).Nodup := by decide +kernel

theorem asdict_eq (s : SettingsData) : s.asdict = fields.map fun f => (f.key, f.get s) := by
  simp [SettingsData.asdict, fields, Field.key, Field.get, Function.comp_def]

theorem asdict_keys (s : SettingsData) : s.asdict.map Prod.fst = fields.map Field.key := by
  rw [asdict_eq, List.map_map]
  rfl

theorem asdict_nodup (s : SettingsData) : (s.asdict.map Prod.fst).Nodup := by
  rw [asdict_keys]
  exact keys_nodup

theorem lookup_asdict (s : SettingsData) (f : Field) : s.asdict.lookup f.key = some (f.get s) := by
  rw [lookup_eq_some_iff_mem (asdict_nodup s), asdict_eq]
  exact List.mem_map_of_mem (mem_fields f)

theorem key_inj {f g : Field} (h : f.key = g.key) : f = g :=
  List.inj_on_of_nodup_map keys_nodup (mem_fields f) (mem_fields g) h

theorem SettingsData.ext_get {a b : SettingsData} (h : ∀ f : Field, f.get a = f.get b) : a = b := by
  obtain ⟨watch, listen, kind, preset, stream, url, surl, restream⟩ := a
  obtain ⟨watch', listen', kind', preset', stream', url', surl', restream'⟩ := b
  obtain rfl : watch = watch' := Json.int.inj (h .watchVolumePct)
  obtain rfl : listen = listen' := Json.int.inj (h .listenVolumePct)
  obtain rfl : kind = kind' := Json.str.inj (h .listenTargetType)
  obtain rfl : preset = preset' := Json.int.inj (h .listenTargetPreset)
  obtain rfl : stream = stream' := Json.int.inj (h .listenTargetStream)
  obtain rfl : url = url' := funext fun n => Json.str.inj (h (.streamUrl n))
  obtain rfl : surl = surl' := funext fun n => Json.str.inj (h (.soundbarStreamUrl n))
  obtain rfl : restream = restream' := funext fun n => Json.bool.inj (h (.soundbarRestream n))
  rfl

/-! ### What a field makes of a value -/

def readInt (lo hi : Int) (value : Json) : Option Json :=
  match value.toInt with
  | .error _ => none
  | .ok n => if lo ≤ n ∧ n ≤ hi then some (.int n) else none

def strText (py : PyText) (value : Json) : String := strip (if truthy value then pyStr py.repr value else "")

def boolValue : Json → Bool
  | .str s => lower (strip s) ∈ ["1", "true", "yes", "on"]
  | value => truthy value

/-- The listen target's type, the retired one mapped to the one that has replaced it. -/
def targetType (text : String) : String := if lower text = "tunein" then "stream" else lower text

def readUrl (ok : String → Bool) (url : String) : Option Json :=
  if url = "" || ok url then some (.str url) else none

def isStationUrl (py : PyText) (url : String) : Bool := isHttpUrl url || isTuneinSource py.isalnum url

/-- The normalised value of a field while the backend is unknown; `none`: it does not validate. -/
def Field.read (py : PyText) : Field → Json → Option Json
  | .watchVolumePct, value => readInt 0 100 value
  | .listenVolumePct, value => readInt 0 100 value
  | .listenTargetType, value =>
    if targetType (strText py value) ∈ ["preset", "stream"] then
      some (.str (targetType (strText py value)))
    else none
  | .listenTargetPreset, value => readInt 1 6 value
  | .listenTargetStream, value => readInt 1 slotCount value
  | .streamUrl _, value => readUrl isHttpUrl (strText py value)
  | .soundbarStreamUrl _, value => readUrl (isStationUrl py) (strText py value)
  | .soundbarRestream _, value => some (.bool (boolValue value))

/-- The value of the field in the payload, or its default. -/
def valueAt (raw : List (String × Json)) (f : Field) : Json := (raw.lookup f.key).getD (f.get {})

/-! ### The check, field by field -/

theorem forM_require {α : Type} {as : List α} {ok : α → Bool} {text : α → String} :
    (as.forM fun a => require (ok a) (text a)) = .ok () ↔ ∀ a ∈ as, ok a = true := by
  induction as with
  | nil => exact ⟨nofun, fun _ => rfl⟩
  | cons a as ih =>
    have hcons : (a :: as).forM (fun a => require (ok a) (text a)) =
        require (ok a) (text a) >>= fun _ => as.forM fun a => require (ok a) (text a) := rfl
    rw [hcons, bind_eq_ok, List.forall_mem_cons, ← ih]
    constructor
    · rintro ⟨_, hhead, htail⟩
      exact ⟨require_eq_ok.mp hhead, htail⟩
    · rintro ⟨hhead, htail⟩
      exact ⟨(), require_eq_ok.mpr hhead, htail⟩

theorem intInRange_iff {raw : List (String × Json)} {name : String} {lo hi default n : Int} :
    intInRange raw name lo hi default = .ok n ↔
      readInt lo hi ((raw.lookup name).getD (.int default)) = some (.int n) := by
  unfold intInRange readInt
  cases ((raw.lookup name).getD (.int default)).toInt with
  | error e => simp
  | ok value =>
    dsimp only
    by_cases hrange : lo ≤ value ∧ value ≤ hi
    · rw [if_neg (by omega), if_pos hrange]
      simp
    · rw [if_pos (by omega), if_neg hrange]
      simp

/-- What the check of a payload is, for any backend. -/
structure Checks (py : PyText) (raw : List (String × Json)) (backend : String) (out : SettingsData) :
    Prop where
  type : targetType (strField py raw "listen_target_type" "preset") ∈ ["preset", "stream"]
  listenTargetType : out.listenTargetType = if backend = soundbarBackend then "stream"
    else targetType (strField py raw "listen_target_type" "preset")
  watchVolumePct : intInRange raw "watch_volume_pct" 0 100 0 = .ok out.watchVolumePct
  listenVolumePct : intInRange raw "listen_volume_pct" 0 100 0 = .ok out.listenVolumePct
  listenTargetPreset : intInRange raw "listen_target_preset" 1 6 1 = .ok out.listenTargetPreset
  listenTargetStream : intInRange raw "listen_target_stream" 1
    (if backend = soundbarBackend ∨ backend = "" then slotCount else 4) 1 = .ok out.listenTargetStream
  streamUrl : out.streamUrl = fun n : Fin 4 => strField py raw (SettingsData.streamUrlKey n) ""
  soundbarStreamUrl : out.soundbarStreamUrl =
    fun n : Fin 10 => strField py raw (SettingsData.soundbarStreamUrlKey n) ""
  soundbarRestream : out.soundbarRestream =
    fun n : Fin 10 => boolField raw (SettingsData.soundbarRestreamKey n) false
  urlOk : ∀ n, (out.streamUrl n = "" || isHttpUrl (out.streamUrl n)) = true
  stationOk : ∀ n, (out.soundbarStreamUrl n = "" || isStationUrl py (out.soundbarStreamUrl n)) = true
  target : requireTarget backend out = .ok ()

theorem validatePayload_iff {py : PyText} {raw : List (String × Json)} {backend : Option String}
    {out : SettingsData} : validatePayload py raw backend = .ok out ↔
      Checks py raw (lower (strip (backend.getD ""))) out := by
  unfold validatePayload
  dsimp only
  generalize lower (strip (backend.getD "")) = b
  have htype : (if lower (strField py raw "listen_target_type" "preset") = "tunein" then "stream"
      else lower (strField py raw "listen_target_type" "preset")) =
        targetType (strField py raw "listen_target_type" "preset") := rfl
  rw [htype]
  constructor
  · intro h
    obtain ⟨_, hkind, h⟩ := bind_eq_ok.mp h
    obtain ⟨watch, hwatch, h⟩ := bind_eq_ok.mp h
    obtain ⟨listen, hlisten, h⟩ := bind_eq_ok.mp h
    obtain ⟨preset, hpreset, h⟩ := bind_eq_ok.mp h
    obtain ⟨stream, hstream, h⟩ := bind_eq_ok.mp h
    obtain ⟨_, hurl, h⟩ := bind_eq_ok.mp h
    obtain ⟨_, hstation, h⟩ := bind_eq_ok.mp h
    obtain ⟨_, htarget, h⟩ := bind_eq_ok.mp h
    obtain rfl := Except.ok.inj h
    refine ⟨by simpa using require_eq_ok.mp hkind, rfl, hwatch, hlisten, hpreset, hstream, rfl, rfl, rfl,
      fun n => forM_require.mp hurl n (List.mem_finRange n), fun n => ?_, htarget⟩
    simpa [isStationUrl, Bool.or_assoc] using forM_require.mp hstation n (List.mem_finRange n)
  · intro h
    obtain ⟨hkind, hlt, hwatch, hlisten, hpreset, hstream, hu, hsu, hre, hurl, hstation, htarget⟩ := h
    obtain ⟨watch, listen, kind, preset, stream, url, surl, restream⟩ := out
    dsimp only at *
    subst hlt hu hsu hre
    refine bind_eq_ok.mpr ⟨(), require_eq_ok.mpr (by simpa using hkind), ?_⟩
    refine bind_eq_ok.mpr ⟨watch, hwatch, bind_eq_ok.mpr ⟨listen, hlisten, ?_⟩⟩
    refine bind_eq_ok.mpr ⟨preset, hpreset, bind_eq_ok.mpr ⟨stream, hstream, ?_⟩⟩
    refine bind_eq_ok.mpr ⟨(), forM_require.mpr fun n _ => hurl n, ?_⟩
    refine bind_eq_ok.mpr ⟨(), forM_require.mpr fun n _ => ?_, ?_⟩
    · simpa [isStationUrl, Bool.or_assoc] using hstation n
    · exact bind_eq_ok.mpr ⟨(), htarget, rfl⟩

theorem boolField_eq (raw : List (String × Json)) (name : String) (default : Bool) :
    boolField raw name default = boolValue ((raw.lookup name).getD (.bool default)) := by
  unfold boolField boolValue
  cases (raw.lookup name).getD (.bool default) <;> rfl

theorem readUrl_eq_some {ok : String → Bool} {url url' : String} :
    readUrl ok url = some (.str url') ↔ url = url' ∧ (url = "" || ok url) = true := by
  unfold readUrl
  split
  · next h => simp [h]
  · next h => simp [h]

theorem unknown_ne_soundbar : "" ≠ soundbarBackend := by decide

/-- Without a backend the check passes exactly if every field does, and gives what each makes of its
value. -/
theorem validate_none_iff {py : PyText} {raw : List (String × Json)} {out : SettingsData} :
    validatePayload py raw none = .ok out ↔
      ∀ f : Field, f.read py (valueAt raw f) = some (f.get out) := by
  have hbackend : lower (strip ((none : Option String).getD "")) = "" := by decide +kernel
  have hvalue : strText py (valueAt raw .listenTargetType) =
      strField py raw "listen_target_type" "preset" := rfl
  rw [validatePayload_iff, hbackend]
  constructor
  · intro h f
    cases f with
    | watchVolumePct => exact intInRange_iff.mp h.watchVolumePct
    | listenVolumePct => exact intInRange_iff.mp h.listenVolumePct
    | listenTargetPreset => exact intInRange_iff.mp h.listenTargetPreset
    | listenTargetType =>
      have htype := h.listenTargetType
      rw [if_neg unknown_ne_soundbar] at htype
      rw [Field.get, htype, Field.read, hvalue, if_pos h.type]
    | listenTargetStream =>
      have hstream := h.listenTargetStream
      rw [if_pos (Or.inr rfl)] at hstream
      exact intInRange_iff.mp hstream
    | streamUrl n =>
      refine readUrl_eq_some.mpr ⟨(congrFun h.streamUrl n).symm, ?_⟩
      have hok := h.urlOk n
      rwa [h.streamUrl] at hok
    | soundbarStreamUrl n =>
      refine readUrl_eq_some.mpr ⟨(congrFun h.soundbarStreamUrl n).symm, ?_⟩
      have hok := h.stationOk n
      rwa [h.soundbarStreamUrl] at hok
    | soundbarRestream n =>
      rw [Field.get, congrFun h.soundbarRestream n, boolField_eq]
      rfl
  · intro h
    have hlisten := h .listenTargetType
    rw [Field.read, hvalue, Option.ite_none_right_eq_some] at hlisten
    obtain ⟨hkind, htype⟩ := hlisten
    have hurl (n : Fin 4) : strField py raw (SettingsData.streamUrlKey n) "" = out.streamUrl n ∧
        (strField py raw (SettingsData.streamUrlKey n) "" = "" ||
          isHttpUrl (strField py raw (SettingsData.streamUrlKey n) "")) = true := by
      have hread := h (.streamUrl n)
      rw [Field.read, Field.get, readUrl_eq_some] at hread
      exact hread
    have hstation (n : Fin 10) :
        strField py raw (SettingsData.soundbarStreamUrlKey n) "" = out.soundbarStreamUrl n ∧
        (strField py raw (SettingsData.soundbarStreamUrlKey n) "" = "" ||
          isStationUrl py (strField py raw (SettingsData.soundbarStreamUrlKey n) "")) = true := by
      have hread := h (.soundbarStreamUrl n)
      rw [Field.read, Field.get, readUrl_eq_some] at hread
      exact hread
    refine ⟨hkind, ?_, intInRange_iff.mpr (h .watchVolumePct), intInRange_iff.mpr (h .listenVolumePct),
      intInRange_iff.mpr (h .listenTargetPreset), ?_, funext fun n => (hurl n).1.symm,
      funext fun n => (hstation n).1.symm, funext fun n => ?_, fun n => ?_, fun n => ?_, ?_⟩
    · rw [if_neg unknown_ne_soundbar]
      exact (Json.str.inj (Option.some.inj htype)).symm
    · rw [if_pos (Or.inr rfl)]
      exact intInRange_iff.mpr (h .listenTargetStream)
    · rw [boolField_eq]
      exact (Json.bool.inj (Option.some.inj (h (.soundbarRestream n)))).symm
    · rw [← (hurl n).1]
      exact (hurl n).2
    · rw [← (hstation n).1]
      exact (hstation n).2
    · rw [requireTarget, if_neg unknown_ne_soundbar, if_neg fun h => h.1 rfl]

theorem strText_str (py : PyText) {s : String} (h : strip s = s) : strText py (.str s) = s := by
  rw [strText]
  by_cases hempty : s = ""
  · subst hempty
    exact h
  · simp [truthy, hempty, pyStr, h]

theorem kind_normal {kind : String} (h : kind = "preset" ∨ kind = "stream") :
    strip kind = kind ∧ targetType kind = kind := by
  obtain rfl | rfl := h <;> decide +kernel

/-- What has passed is read back as it is, whatever the backend was. -/
theorem read_of_ok {py : PyText} {raw : List (String × Json)} {backend : Option String}
    {out : SettingsData} (h : validatePayload py raw backend = .ok out) (f : Field) :
    f.read py (f.get out) = some (f.get out) := by
  have hchecks := validatePayload_iff.mp h
  generalize lower (strip (backend.getD "")) = b at hchecks
  have hint {name : String} {lo hi default n : Int} (hn : intInRange raw name lo hi default = .ok n) :
      readInt lo hi (.int n) = some (.int n) := by
    have hrange := intInRange_ok hn
    simp [readInt, Json.toInt, hrange]
  cases f with
  | watchVolumePct => exact hint hchecks.watchVolumePct
  | listenVolumePct => exact hint hchecks.listenVolumePct
  | listenTargetPreset => exact hint hchecks.listenTargetPreset
  | listenTargetType =>
    have hkind : out.listenTargetType = "preset" ∨ out.listenTargetType = "stream" := by
      rw [hchecks.listenTargetType]
      split
      · exact Or.inr rfl
      · simpa using hchecks.type
    obtain ⟨hstrip, hsame⟩ := kind_normal hkind
    rw [Field.get, Field.read, strText_str py hstrip, hsame]
    exact if_pos (by simpa using hkind)
  | listenTargetStream =>
    have hrange := intInRange_ok hchecks.listenTargetStream
    have hslots : (if b = soundbarBackend ∨ b = "" then (slotCount : Int) else 4) ≤ slotCount := by
      split
      · exact Int.le_refl _
      · decide
    rw [Field.get, Field.read, readInt, Json.toInt]
    exact if_pos ⟨hrange.1, Int.le_trans hrange.2 hslots⟩
  | streamUrl n =>
    have hstrip : strip (out.streamUrl n) = out.streamUrl n := by
      rw [hchecks.streamUrl]
      exact strip_strField py raw _ ""
    rw [Field.get, Field.read, strText_str py hstrip]
    exact readUrl_eq_some.mpr ⟨rfl, hchecks.urlOk n⟩
  | soundbarStreamUrl n =>
    have hstrip : strip (out.soundbarStreamUrl n) = out.soundbarStreamUrl n := by
      rw [hchecks.soundbarStreamUrl]
      exact strip_strField py raw _ ""
    rw [Field.get, Field.read, strText_str py hstrip]
    exact readUrl_eq_some.mpr ⟨rfl, hchecks.stationOk n⟩
  | soundbarRestream n => rfl

/-! ### Values that do and do not validate -/

theorem read_default (py : PyText) (f : Field) : f.read py (f.get {}) = some (f.get {}) := by
  have hempty : strip "" = "" := by decide +kernel
  cases f with
  | listenTargetType =>
    obtain ⟨hstrip, hsame⟩ := kind_normal (Or.inl rfl)
    rw [Field.get, Field.read, strText_str py hstrip, hsame]
    exact if_pos (by simp)
  | streamUrl n =>
    rw [Field.get, Field.read, strText_str py hempty]
    rfl
  | soundbarStreamUrl n =>
    rw [Field.get, Field.read, strText_str py hempty]
    rfl
  | _ => rfl

/-- The data whose fields are these values. -/
def ofFields (g : Field → Json) : SettingsData where
  watchVolumePct := match g .watchVolumePct with | .int n => n | _ => 0
  listenVolumePct := match g .listenVolumePct with | .int n => n | _ => 0
  listenTargetType := match g .listenTargetType with | .str s => s | _ => ""
  listenTargetPreset := match g .listenTargetPreset with | .int n => n | _ => 0
  listenTargetStream := match g .listenTargetStream with | .int n => n | _ => 0
  streamUrl n := match g (.streamUrl n) with | .str s => s | _ => ""
  soundbarStreamUrl n := match g (.soundbarStreamUrl n) with | .str s => s | _ => ""
  soundbarRestream n := match g (.soundbarRestream n) with | .bool b => b | _ => false

/-- A field's normalised value is of the field's type. -/
theorem get_ofFields {py : PyText} {g : Field → Json} {f : Field} {value : Json}
    (h : f.read py value = some (g f)) : f.get (ofFields g) = g f := by
  have hint {lo hi : Int} (hread : readInt lo hi value = some (g f)) : ∃ n, g f = .int n := by
    unfold readInt at hread
    split at hread
    · cases hread
    · next n _ =>
      obtain ⟨-, heq⟩ := Option.ite_none_right_eq_some.mp hread
      exact ⟨n, (Option.some.inj heq).symm⟩
  have hurl {ok : String → Bool} (hread : readUrl ok (strText py value) = some (g f)) :
      g f = .str (strText py value) := by
    unfold readUrl at hread
    exact (Option.some.inj (Option.ite_none_right_eq_some.mp hread).2).symm
  cases f with
  | watchVolumePct =>
    obtain ⟨n, hn⟩ := hint h
    simp [Field.get, ofFields, hn]
  | listenVolumePct =>
    obtain ⟨n, hn⟩ := hint h
    simp [Field.get, ofFields, hn]
  | listenTargetPreset =>
    obtain ⟨n, hn⟩ := hint h
    simp [Field.get, ofFields, hn]
  | listenTargetStream =>
    obtain ⟨n, hn⟩ := hint h
    simp [Field.get, ofFields, hn]
  | listenTargetType =>
    rw [Field.read, Option.ite_none_right_eq_some] at h
    simp [Field.get, ofFields, ← Option.some.inj h.2]
  | streamUrl n => simp [Field.get, ofFields, hurl h]
  | soundbarStreamUrl n => simp [Field.get, ofFields, hurl h]
  | soundbarRestream n =>
    rw [Field.read] at h
    simp [Field.get, ofFields, ← Option.some.inj h]

/-- Without a backend the check passes exactly if each value does. -/
theorem isOk_iff {py : PyText} {raw : List (String × Json)} :
    (validatePayload py raw none).isOk = true ↔ ∀ f : Field, (f.read py (valueAt raw f)).isSome = true := by
  constructor
  · intro h f
    cases hout : validatePayload py raw none with
    | error text => simp [hout, Except.isOk, Except.toBool] at h
    | ok out => simp [validate_none_iff.mp hout f]
  · intro h
    have hread (f : Field) : f.read py (valueAt raw f) =
        some (((f.read py (valueAt raw f)).get (h f))) := (Option.some_get (h f)).symm
    have hout : validatePayload py raw none =
        .ok (ofFields fun f => (f.read py (valueAt raw f)).get (h f)) := by
      rw [validate_none_iff]
      intro f
      have hget := get_ofFields (g := fun f => (f.read py (valueAt raw f)).get (h f)) (hread f)
      rw [hget]
      exact hread f
    simp [hout, Except.isOk, Except.toBool]

theorem valueAt_asdict (s : SettingsData) (f : Field) : valueAt s.asdict f = f.get s := by
  rw [valueAt, lookup_asdict]
  rfl

theorem valueAt_cons_self (f : Field) (value : Json) (raw : List (String × Json)) :
    valueAt ((f.key, value) :: raw) f = value := by
  rw [valueAt, List.lookup_cons_self]
  rfl

theorem valueAt_cons_ne {f g : Field} (h : g ≠ f) (value : Json) (raw : List (String × Json)) :
    valueAt ((f.key, value) :: raw) g = valueAt raw g := by
  rw [valueAt, lookup_cons_ne fun hkey => h (key_inj hkey)]
  rfl

def passes (py : PyText) (raw : List (String × Json)) : Bool := (validatePayload py raw none).isOk

/-- The value validates with every other field at its default. -/
def passesAlone (py : PyText) (key : String) (value : Json) : Bool :=
  passes py ((key, value) :: ({} : SettingsData).asdict)

theorem passesAlone_iff {py : PyText} {f : Field} {value : Json} :
    passesAlone py f.key value = true ↔ (f.read py value).isSome = true := by
  rw [passesAlone, passes, isOk_iff]
  constructor
  · intro h
    have hself := h f
    rwa [valueAt_cons_self] at hself
  · intro h g
    by_cases hg : g = f
    · rw [hg, valueAt_cons_self]
      exact h
    · rw [valueAt_cons_ne hg, valueAt_asdict, read_default]
      rfl

/-- The check without a backend looks at each field by itself. -/
theorem passes_fieldWise (py : PyText) : FieldWise (passes py) (fields.map Field.key) (passesAlone py) := by
  intro m hthere
  rw [passes, isOk_iff]
  constructor
  · intro h k hk value hvalue
    obtain ⟨f, -, rfl⟩ := List.mem_map.mp hk
    have hat : valueAt m f = value := by rw [valueAt, Option.mem_def.mp hvalue, Option.getD_some]
    exact passesAlone_iff.mpr (hat ▸ h f)
  · intro h f
    obtain ⟨value, hvalue⟩ := Option.isSome_iff_exists.mp
      (hthere f.key (List.mem_map_of_mem (mem_fields f)))
    have hat : valueAt m f = value := by rw [valueAt, hvalue, Option.getD_some]
    rw [hat]
    exact passesAlone_iff.mp (h f.key (List.mem_map_of_mem (mem_fields f)) value hvalue)

theorem default_allPass (py : PyText) :
    AllPass (fields.map Field.key) (passesAlone py) ({} : SettingsData).asdict := by
  intro k hk
  obtain ⟨f, -, rfl⟩ := List.mem_map.mp hk
  refine ⟨f.get {}, lookup_asdict {} f, passesAlone_iff.mpr ?_⟩
  rw [read_default]
  rfl

end PiHub.Settings

import PiHub.Fallible
import PiHub.Slots
import PiHub.StartupMode

/-! The saved settings (settings.py): what a payload must be like, and what the slots make of what
is saved. -/
namespace PiHub.Settings
open PiHub.PyStr PiHub.Keymap PiHub.StartupMode PiHub.Slots PiHub.Fallible

/-- What Python's own text functions say: `str` of a value that is no string, and `str.isalnum`. -/
structure PyText where
  repr : Json → String
  isalnum : Char → Bool

structure SettingsData where
  watchVolumePct : Int := 0
  listenVolumePct : Int := 0
  listenTargetType : String := "preset"
  listenTargetPreset : Int := 1
  listenTargetStream : Int := 1
  streamUrl : Fin 4 → String := fun _ => ""
  soundbarStreamUrl : Fin 10 → String := fun _ => ""
  soundbarRestream : Fin 10 → Bool := fun _ => false

/-- The numbered field that a slot names, if there is one. -/
def numbered {n : Nat} (slot : Int) : Option (Fin n) :=
  if h : 1 ≤ slot ∧ slot ≤ n then some ⟨(slot - 1).toNat, by omega⟩ else none

namespace SettingsData

def getListenTarget (s : SettingsData) : ListenTarget :=
  ⟨s.listenTargetType, s.listenTargetPreset, s.listenTargetStream⟩

def getStreamUrl (s : SettingsData) (slot : Int) : String :=
  strip ((numbered slot).elim "" s.streamUrl)

def getSoundbarStreamUrl (s : SettingsData) (slot : Int) : String :=
  strip ((numbered slot).elim "" s.soundbarStreamUrl)

def getSoundbarRestream (s : SettingsData) (slot : Int) : Bool :=
  (numbered slot).elim false s.soundbarRestream

/-- The store as slots.py sees it. -/
def settings (s : SettingsData) : Settings :=
  ⟨s.getListenTarget, s.getStreamUrl, s.getSoundbarStreamUrl, s.getSoundbarRestream⟩

def streamUrlKey (n : Nat) : String := "stream_url_" ++ toString (n + 1)
def soundbarStreamUrlKey (n : Nat) : String := "soundbar_stream_url_" ++ toString (n + 1)
def soundbarRestreamKey (n : Nat) : String := "soundbar_restream_" ++ toString (n + 1)

def asdict (s : SettingsData) : List (String × Json) :=
  [("watch_volume_pct", .int s.watchVolumePct), ("listen_volume_pct", .int s.listenVolumePct),
    ("listen_target_type", .str s.listenTargetType),
    ("listen_target_preset", .int s.listenTargetPreset),
    ("listen_target_stream", .int s.listenTargetStream)] ++
  (List.finRange 4).map (fun n : Fin 4 => (streamUrlKey n, .str (s.streamUrl n))) ++
  (List.finRange 10).map (fun n : Fin 10 => (soundbarStreamUrlKey n, .str (s.soundbarStreamUrl n))) ++
  (List.finRange 10).map fun n : Fin 10 => (soundbarRestreamKey n, .bool (s.soundbarRestream n))

end SettingsData

/-! ### The check -/

def lower (s : String) : String := String.ofList (s.toList.map Char.toLower)

def startsWith (start s : String) : Bool := start.toList.isPrefixOf s.toList

def isHttpUrl (s : String) : Bool := startsWith "http://" s || startsWith "https://" s

section
variable (py : PyText) (raw : List (String × Json))

def intInRange (name : String) (lo hi default : Int) : Except String Int :=
  match ((raw.lookup name).getD (.int default)).toInt with
  | .error _ => .error (name ++ " must be an integer")
  | .ok value =>
    if value < lo ∨ value > hi then
      .error (name ++ " must be between " ++ toString lo ++ " and " ++ toString hi)
    else .ok value

def strField (name default : String) : String :=
  let value := (raw.lookup name).getD (.str default)
  strip (if truthy value then pyStr py.repr value else "")

def boolField (name : String) (default : Bool) : Bool :=
  match (raw.lookup name).getD (.bool default) with
  | .str s => lower (strip s) ∈ ["1", "true", "yes", "on"]
  | value => truthy value

/-- A check of `_validate_payload`, with the text of its ValueError. -/
def require (ok : Bool) (text : String) : Except String Unit := if ok then .ok () else .error text

/-- The listen target must be an address that is not empty, for the backend that has it. -/
def requireTarget (backend : String) (out : SettingsData) : Except String Unit :=
  if backend = soundbarBackend then
    let slot := out.listenTargetStream
    require ((numbered slot).elim "" out.soundbarStreamUrl ≠ "")
      ("Listen flow plays stream slot " ++ toString slot ++ ", but Key " ++ toString (slot % 10) ++
        " stream URL is empty")
  else if backend ≠ "" ∧ out.listenTargetType = "stream" then
    let streamKey := "stream_url_" ++ toString out.listenTargetStream
    require ((numbered out.listenTargetStream).elim "" out.streamUrl ≠ "")
      ("listen_target_stream points to empty " ++ streamKey ++ "; set a URL or choose preset")
  else .ok ()

/-- `_validate_payload`. The ASCII letters are all that `lower` changes into one of the words it
is compared with. -/
def validatePayload (speakerBackend : Option String) : Except String SettingsData := do
  let backend := lower (strip (speakerBackend.getD ""))
  let listenTargetType := lower (strField py raw "listen_target_type" "preset")
  let listenTargetType := if listenTargetType = "tunein" then "stream" else listenTargetType
  require (listenTargetType ∈ ["preset", "stream"]) "listen_target_type must be 'preset' or 'stream'"
  let isSoundbar := backend = soundbarBackend
  let maxStreamSlot : Int := if isSoundbar ∨ backend = "" then slotCount else 4
  let listenTargetType := if isSoundbar then "stream" else listenTargetType
  let watchVolumePct ← intInRange raw "watch_volume_pct" 0 100 0
  let listenVolumePct ← intInRange raw "listen_volume_pct" 0 100 0
  let listenTargetPreset ← intInRange raw "listen_target_preset" 1 6 1
  let listenTargetStream ← intInRange raw "listen_target_stream" 1 maxStreamSlot 1
  let out : SettingsData := {
    watchVolumePct, listenVolumePct, listenTargetType, listenTargetPreset, listenTargetStream
    streamUrl := fun n => strField py raw (SettingsData.streamUrlKey n) ""
    soundbarStreamUrl := fun n => strField py raw (SettingsData.soundbarStreamUrlKey n) ""
    soundbarRestream := fun n => boolField raw (SettingsData.soundbarRestreamKey n) false }
  (List.finRange 4).forM fun n : Fin 4 =>
    require (out.streamUrl n = "" || isHttpUrl (out.streamUrl n))
      (SettingsData.streamUrlKey n ++ " must start with http:// or https://")
  (List.finRange 10).forM fun n : Fin 10 =>
    require (out.soundbarStreamUrl n = "" || isHttpUrl (out.soundbarStreamUrl n) ||
        isTuneinSource py.isalnum (out.soundbarStreamUrl n))
      ("Key " ++ toString ((n.val + 1) % slotCount) ++ " stream URL must start with http:// or " ++
        "https://, or be a TuneIn station ID or tunein.com URL")
  requireTarget backend out
  return out

end

/-- A save, and what writing the file raises, if anything. -/
structure Save where
  payload : List (String × Json)
  writeError : Option String := none

/-- `save_from_payload`: the data afterwards, and what is returned or raised. -/
def saveFromPayload (py : PyText) (speakerBackend : String) (data : SettingsData) (save : Save) :
    SettingsData × Except String SettingsData :=
  match validatePayload py (save.payload ++ data.asdict) (some speakerBackend) with
  | .error text => (data, .error text)
  | .ok validated => (validated, save.writeError.elim (.ok validated) .error)

def saveAll (py : PyText) (speakerBackend : String) (data : SettingsData) (saves : List Save) :
    SettingsData :=
  saves.foldl (fun data save => (saveFromPayload py speakerBackend data save).1) data

/-! ### What a payload that passes is like -/

/-- The backends that have a listen target. -/
def ListenBackend (backend : String) : Prop := backend = "audiopro" ∨ backend = soundbarBackend

/-- The streams a backend has. -/
def streamSlots (backend : String) : Int := if backend = soundbarBackend then 10 else 4

structure Validated (backend : String) (out : SettingsData) : Prop where
  type : out.listenTargetType = "preset" ∨ out.listenTargetType = "stream"
  preset : 1 ≤ out.listenTargetPreset ∧ out.listenTargetPreset ≤ 6
  stream : 1 ≤ out.listenTargetStream ∧ out.listenTargetStream ≤ streamSlots backend
  streamUrl : ∀ n, strip (out.streamUrl n) = out.streamUrl n
  soundbarStreamUrl : ∀ n, strip (out.soundbarStreamUrl n) = out.soundbarStreamUrl n
  target : requireTarget backend out = .ok ()

theorem require_eq_ok {ok : Bool} {text : String} : require ok text = .ok () ↔ ok = true := by
  cases ok <;> simp [require]

theorem intInRange_ok {raw : List (String × Json)} {name : String} {lo hi default value : Int}
    (h : intInRange raw name lo hi default = .ok value) : lo ≤ value ∧ value ≤ hi := by
  unfold intInRange at h
  split at h
  · cases h
  · split at h
    · cases h
    · next hrange =>
      cases h
      omega

theorem strip_strField (py : PyText) (raw : List (String × Json)) (name default : String) :
    strip (strField py raw name default) = strField py raw name default :=
  strip_strip _

theorem lower_backend {backend : String} (h : ListenBackend backend) :
    lower (strip backend) = backend := by
  obtain rfl | rfl := h <;> decide +kernel

theorem validated_of_ok {py : PyText} {raw : List (String × Json)} {backend : String}
    {out : SettingsData} (hb : ListenBackend backend)
    (h : validatePayload py raw (some backend) = .ok out) : Validated backend out := by
  unfold validatePayload at h
  rw [Option.getD_some, lower_backend hb] at h
  dsimp only at h
  generalize (if lower (strField py raw "listen_target_type" "preset") = "tunein" then "stream"
    else lower (strField py raw "listen_target_type" "preset")) = kind at h
  obtain ⟨_, htype, h⟩ := bind_eq_ok.mp h
  obtain ⟨watch, _, h⟩ := bind_eq_ok.mp h
  obtain ⟨listen, _, h⟩ := bind_eq_ok.mp h
  obtain ⟨preset, hpreset, h⟩ := bind_eq_ok.mp h
  obtain ⟨stream, hstream, h⟩ := bind_eq_ok.mp h
  obtain ⟨_, _, h⟩ := bind_eq_ok.mp h
  obtain ⟨_, _, h⟩ := bind_eq_ok.mp h
  obtain ⟨_, htarget, h⟩ := bind_eq_ok.mp h
  cases h
  refine ⟨?_, intInRange_ok hpreset, ?_, fun n => strip_strField py raw _ "",
    fun n => strip_strField py raw _ "", htarget⟩
  · have hkind : kind = "preset" ∨ kind = "stream" := by simpa using require_eq_ok.mp htype
    by_cases hsoundbar : backend = soundbarBackend
    · exact .inr (if_pos hsoundbar)
    · simpa only [hsoundbar, if_false] using hkind
  · have hslots : (if backend = soundbarBackend ∨ backend = "" then (slotCount : Int) else 4) =
        streamSlots backend := by
      obtain rfl | rfl := hb <;> rfl
    rw [← hslots]
    exact intInRange_ok hstream

/-! ### What the slots make of it -/

/-- The listen flow finds something to play. -/
structure Plays (py : PyText) (backend : String) (s : SettingsData) : Prop where
  slot : 1 ≤ listenSlot s.settings backend ∧ listenSlot s.settings backend ≤ 10
  target : ∃ target, resolveSlot py.isalnum s.settings backend (listenSlot s.settings backend) =
      .ok target ∧ (target.preset.isSome ∨ target.url ≠ "") ∧ (∃ call, playSlot target = .ok call) ∧
    (backend = soundbarBackend → isTuneinSource py.isalnum target.url = true → target.restream = true)

/-- The address that the check has found not to be empty is the one the slot plays. -/
theorem elim_ne_of_require {n : Nat} {urls : Fin n → String} {slot : Int} {text : String}
    (hstripped : ∀ i, strip (urls i) = urls i)
    (h : require ((numbered slot).elim "" urls ≠ "") text = .ok ()) :
    strip ((numbered slot).elim "" urls) ≠ "" := by
  have hne : (numbered slot).elim "" urls ≠ "" := by simpa using require_eq_ok.mp h
  cases hslot : (numbered slot : Option (Fin n)) with
  | none => simp [hslot] at hne
  | some i =>
    rw [hslot] at hne
    rw [Option.elim_some, hstripped]
    exact hne

theorem plays_soundbar (py : PyText) {s : SettingsData} (h : Validated soundbarBackend s) :
    Plays py soundbarBackend s := by
  have hslot : listenSlot s.settings soundbarBackend = s.listenTargetStream := listenSlot_soundbar _
  have hrange : 1 ≤ s.listenTargetStream ∧ s.listenTargetStream ≤ 10 := h.stream
  have hurl : s.getSoundbarStreamUrl s.listenTargetStream ≠ "" := by
    have htarget := h.target
    rw [requireTarget, if_pos rfl] at htarget
    exact elim_ne_of_require h.soundbarStreamUrl htarget
  refine ⟨by rw [hslot]; exact hrange, ?_⟩
  rw [hslot, resolveSlot_soundbar _ _ hrange]
  refine ⟨_, rfl, .inr hurl, ⟨_, playSlot_url rfl hurl⟩, fun _ htunein => ?_⟩
  exact Bool.or_eq_true_iff.mpr (.inr htunein)

theorem plays_audiopro (py : PyText) {s : SettingsData} (h : Validated "audiopro" s) :
    Plays py "audiopro" s := by
  have hb : "audiopro" ≠ soundbarBackend := by decide
  obtain htype | htype := h.type
  · have hslot : listenSlot s.settings "audiopro" = s.listenTargetPreset := listenSlot_preset hb htype
    have hrange := h.preset
    refine ⟨by rw [hslot]; omega, ?_⟩
    rw [hslot, resolveSlot_preset hb _ hrange]
    exact ⟨_, rfl, .inl rfl, ⟨_, rfl⟩, fun heq => absurd heq hb⟩
  · have hkind : s.settings.getListenTarget.type ≠ "preset" := by
      rw [show s.settings.getListenTarget.type = "stream" from htype]
      decide
    have hslot : listenSlot s.settings "audiopro" = 6 + s.listenTargetStream := listenSlot_stream hb hkind
    have hrange : 1 ≤ s.listenTargetStream ∧ s.listenTargetStream ≤ 4 := h.stream
    have hurl : s.getStreamUrl s.listenTargetStream ≠ "" := by
      have htarget := h.target
      rw [requireTarget, if_neg hb, if_pos ⟨by decide, htype⟩] at htarget
      exact elim_ne_of_require h.streamUrl htarget
    refine ⟨by rw [hslot]; omega, ?_⟩
    rw [hslot, resolveSlot_stream hb _ hrange]
    exact ⟨_, rfl, .inr hurl, ⟨_, playSlot_url rfl hurl⟩, fun heq => absurd heq hb⟩

theorem plays_of_validated (py : PyText) {backend : String} (hb : ListenBackend backend)
    {s : SettingsData} (h : Validated backend s) : Plays py backend s := by
  obtain rfl | rfl := hb
  · exact plays_audiopro py h
  · exact plays_soundbar py h

/-- A save is rejected and changes nothing, or leaves settings that have passed the check. -/
theorem save_cases (py : PyText) {backend : String} (hb : ListenBackend backend)
    (data : SettingsData) (save : Save) :
    (∃ text, saveFromPayload py backend data save = (data, .error text)) ∨
      Validated backend (saveFromPayload py backend data save).1 := by
  unfold saveFromPayload
  split
  · next text _ => exact .inl ⟨text, rfl⟩
  · next validated hok => exact .inr (validated_of_ok hb hok)

theorem saveAll_cons (py : PyText) (backend : String) (data : SettingsData) (save : Save)
    (saves : List Save) : saveAll py backend data (save :: saves) =
      saveAll py backend (saveFromPayload py backend data save).1 saves := by
  rw [saveAll, List.foldl_cons, ← saveAll]

theorem saveAll_append (py : PyText) (backend : String) (data : SettingsData) (before after : List Save) :
    saveAll py backend data (before ++ after) =
      saveAll py backend (saveAll py backend data before) after := by
  rw [saveAll, List.foldl_append, ← saveAll, ← saveAll]

theorem saveAll_validated {py : PyText} {backend : String} (hb : ListenBackend backend)
    {data : SettingsData} (h : Validated backend data) (saves : List Save) :
    Validated backend (saveAll py backend data saves) := by
  induction saves generalizing data with
  | nil => exact h
  | cons save saves ih =>
    rw [saveAll_cons]
    obtain ⟨text, hrejected⟩ | hpassed := save_cases py hb data save
    · rw [hrejected]
      exact ih h
    · exact ih hpassed

/-- Once a payload has been accepted the listen flow always finds something to play, whatever is
saved or rejected afterwards. -/
theorem listen_target_plays (py : PyText) {backend : String} (hb : ListenBackend backend)
    (data : SettingsData) (before after : List Save) (save : Save) {saved : SettingsData}
    (haccepted : (saveFromPayload py backend (saveAll py backend data before) save).2 = .ok saved) :
    Plays py backend (saveAll py backend data (before ++ save :: after)) := by
  rw [saveAll_append, saveAll_cons]
  refine plays_of_validated py hb (saveAll_validated hb ?_ after)
  obtain ⟨text, hrejected⟩ | hpassed := save_cases py hb (saveAll py backend data before) save
  · rw [hrejected] at haccepted
    cases haccepted
  · exact hpassed

/-- The samples hold ASCII strings alone. -/
def samplePy : PyText := ⟨fun _ => "", Char.isAlphanum⟩

/-- A slot of the other backend, which is rejected for the Audio Pro. -/
def sampleRejected : Save := { payload := [("listen_target_stream", .str "7")] }

def sampleSave : Save := { payload := [("listen_target_type", .str " Stream "),
  ("listen_target_stream", .str "2"), ("stream_url_2", .str "http://radio.example/live ")] }

theorem listen_target_plays_sample : ∃ saved,
    (saveFromPayload samplePy "audiopro" (saveAll samplePy "audiopro" {} [sampleRejected])
      sampleSave).2 = .ok saved ∧
    Plays samplePy "audiopro"
      (saveAll samplePy "audiopro" {} ([sampleRejected] ++ sampleSave :: [sampleRejected])) := by
  have hok : (saveFromPayload samplePy "audiopro"
      (saveAll samplePy "audiopro" {} [sampleRejected]) sampleSave).2.isOk = true := by
    decide +kernel
  cases hsaved : (saveFromPayload samplePy "audiopro"
      (saveAll samplePy "audiopro" {} [sampleRejected]) sampleSave).2 with
  | error text =>
    rw [hsaved] at hok
    cases hok
  | ok saved => exact ⟨saved, rfl, listen_target_plays _ (.inl rfl) {} [sampleRejected] [sampleRejected]
      sampleSave hsaved⟩

end PiHub.Settings

import PiHub.HostFrames
import PiHub.Keymap

/-! The frames of BLE actions: encoded on demand, or compiled once for each mode
(ble_dongle.py). -/
namespace PiHub.BleFrames
open PiHub.HostFrames PiHub.Keymap

/-- The `kb_` or the `cc_` pair of tables of `CompiledBleFrames`. -/
structure CodeFrames (u : Usage) where
  down : Dict String Frame
  up : Dict String Frame
  down_usage : ∀ code f, down.lookup code = some f → f.usage = u
  up_zero : ∀ code f, up.lookup code = some f → f = zeroFrame u
  released : ∀ code, code ∈ down → code ∈ up

def CodeFrames.empty (u : Usage) : CodeFrames u where
  down := ∅
  up := ∅
  down_usage := by simp
  up_zero := by simp
  released := by simp

/-- `if d: down[code] = d`, for a frame of the table's usage. -/
def put (down : Dict String Frame) (code : String) : Option Frame → Dict String Frame
  | none => down
  | some f => down.insert code f

theorem lookup_put {table : Dict String Frame} {code code' : String} {d : Option Frame} {f : Frame}
    (h : (put table code d).lookup code' = some f) : d = some f ∨ table.lookup code' = some f := by
  cases d with
  | none => exact Or.inr h
  | some g =>
    by_cases hcode : code' = code
    · subst hcode
      exact Or.inl (by simpa [put] using h)
    · exact Or.inr (by simpa [put, AList.lookup_insert_ne hcode] using h)

/-- One action's entries: its encoded down frame, if there is one, and its up frame. -/
def CodeFrames.add {u : Usage} (t : CodeFrames u) (code : String) (d : Option Frame)
    (hd : ∀ f, d = some f → f.usage = u) : CodeFrames u where
  down := put t.down code d
  up := t.up.insert code (zeroFrame u)
  down_usage := by
    intro code' f hf
    cases lookup_put hf with
    | inl hnew => exact hd f hnew
    | inr hold => exact t.down_usage code' f hold
  up_zero := by
    intro code' f hf
    cases lookup_put (d := some (zeroFrame u)) hf with
    | inl hnew => exact (Option.some.inj hnew).symm
    | inr hold => exact t.up_zero code' f hold
  released := by
    intro code' hmem
    cases d with
    | none => exact (AList.mem_insert _).mpr (Or.inr (t.released code' hmem))
    | some f =>
      cases (AList.mem_insert _).mp hmem with
      | inl hcode => exact (AList.mem_insert _).mpr (Or.inl hcode)
      | inr hold => exact (AList.mem_insert _).mpr (Or.inr (t.released code' hold))

structure CompiledBleFrames where
  kb : CodeFrames .keyboard
  cc : CodeFrames .consumer

def CompiledBleFrames.addAction (hid : HidKeymap) (t : CompiledBleFrames) :
    Action → CompiledBleFrames
  | .ble usage code =>
    if usage = "keyboard" then
      { t with kb := t.kb.add code (encodeKeyboardDown hid code) fun _ h => kbReport8_usage hid h }
    else if usage = "consumer" then
      { t with cc := t.cc.add code (encodeConsumerDown hid code) fun _ h => ccReport2_usage hid h }
    else t
  | _ => t

/-- `compile_ble_frames`. The up frame of a code is encoded without looking at the code. -/
def compileBleFrames (hid : HidKeymap) (mapping : Dict String (List Action)) : CompiledBleFrames :=
  (mapping.entries.reverse.flatMap fun e => e.2).foldl (CompiledBleFrames.addAction hid)
    ⟨.empty .keyboard, .empty .consumer⟩

/-- A usage other than "keyboard" is looked up in the consumer tables. -/
def compiledKeyDown (frames : CompiledBleFrames) (usage code : String) : Option Frame :=
  if usage = "keyboard" then frames.kb.down.lookup code else frames.cc.down.lookup code

def compiledKeyUp (frames : CompiledBleFrames) (usage code : String) : Option Frame :=
  if usage = "keyboard" then frames.kb.up.lookup code else frames.cc.up.lookup code

def keyDown (hid : HidKeymap) (usage code : String) : Option Frame :=
  if usage = "keyboard" then encodeKeyboardDown hid code else encodeConsumerDown hid code

def keyUp (usage code : String) : Option Frame :=
  if usage = "keyboard" then encodeKeyboardUp code else encodeConsumerUp code

/-- The reports that `usage` addresses. -/
def usageOf (usage : String) : Usage := if usage = "keyboard" then .keyboard else .consumer

theorem compiledKeyUp_zero {frames : CompiledBleFrames} {usage code : String} {f : Frame}
    (h : compiledKeyUp frames usage code = some f) : f = zeroFrame (usageOf usage) := by
  by_cases hkb : usage = "keyboard"
  · rw [compiledKeyUp, if_pos hkb] at h
    simpa [usageOf, hkb] using frames.kb.up_zero code f h
  · rw [compiledKeyUp, if_neg hkb] at h
    simpa [usageOf, hkb] using frames.cc.up_zero code f h

theorem keyUp_zero {usage code : String} {f : Frame} (h : keyUp usage code = some f) :
    f = zeroFrame (usageOf usage) := by
  by_cases hkb : usage = "keyboard"
  · rw [keyUp, if_pos hkb] at h
    simpa [usageOf, hkb] using (Option.some.inj h).symm
  · rw [keyUp, if_neg hkb] at h
    simpa [usageOf, hkb] using (Option.some.inj h).symm

/-- What a compiled down frame presses, the up frame of the same code releases. -/
theorem compiledKeyUp_of_down {frames : CompiledBleFrames} {usage code : String} {f : Frame}
    (h : compiledKeyDown frames usage code = some f) :
    compiledKeyUp frames usage code = some (zeroFrame f.usage) := by
  by_cases hkb : usage = "keyboard"
  · rw [compiledKeyDown, if_pos hkb] at h
    have husage : f.usage = .keyboard := frames.kb.down_usage code f h
    have hmem : code ∈ frames.kb.down := AList.lookup_isSome.mp (by simp [h])
    obtain ⟨g, hg⟩ := Option.isSome_iff_exists.mp
      (AList.lookup_isSome.mpr (frames.kb.released code hmem))
    simp [compiledKeyUp, hkb, husage, hg, frames.kb.up_zero code g hg]
  · rw [compiledKeyDown, if_neg hkb] at h
    have husage : f.usage = .consumer := frames.cc.down_usage code f h
    have hmem : code ∈ frames.cc.down := AList.lookup_isSome.mp (by simp [h])
    obtain ⟨g, hg⟩ := Option.isSome_iff_exists.mp
      (AList.lookup_isSome.mpr (frames.cc.released code hmem))
    simp [compiledKeyUp, hkb, husage, hg, frames.cc.up_zero code g hg]

theorem keyUp_of_down {hid : HidKeymap} {usage code : String} {f : Frame}
    (h : keyDown hid usage code = some f) : keyUp usage code = some (zeroFrame f.usage) := by
  by_cases hkb : usage = "keyboard"
  · rw [keyDown, if_pos hkb] at h
    rw [keyUp, if_pos hkb, kbReport8_usage hid h]
    rfl
  · rw [keyDown, if_neg hkb] at h
    rw [keyUp, if_neg hkb, ccReport2_usage hid h]
    rfl

/-! ### Both paths -/

variable {hid : HidKeymap}

theorem lookup_put_self (table : Dict String Frame) (code : String) (d : Option Frame) :
    (put table code d).lookup code = d.or (table.lookup code) := by
  cases d with
  | none => rfl
  | some f => exact AList.lookup_insert _

theorem lookup_put_ne (table : Dict String Frame) {code code' : String} (h : code' ≠ code)
    (d : Option Frame) : (put table code d).lookup code' = table.lookup code' := by
  cases d with
  | none => rfl
  | some f => exact AList.lookup_insert_ne h

/-- The tables hold the frames of these codes, and of no others. -/
structure CodeFrames.Holds {u : Usage} (t : CodeFrames u) (encode : String → Option Frame)
    (codes : String → Prop) : Prop where
  down : ∀ code, codes code → t.down.lookup code = encode code
  up : ∀ code, codes code → t.up.lookup code = some (zeroFrame u)
  noDown : ∀ code, ¬ codes code → t.down.lookup code = none
  noUp : ∀ code, ¬ codes code → t.up.lookup code = none

theorem CodeFrames.Holds.congr {u : Usage} {t : CodeFrames u} {encode : String → Option Frame}
    {codes codes' : String → Prop} (h : t.Holds encode codes) (hiff : ∀ c, codes' c ↔ codes c) :
    t.Holds encode codes' :=
  ⟨fun c hc => h.down c ((hiff c).mp hc), fun c hc => h.up c ((hiff c).mp hc),
    fun c hc => h.noDown c fun hold => hc ((hiff c).mpr hold),
    fun c hc => h.noUp c fun hold => hc ((hiff c).mpr hold)⟩

/-- The code of an action joins them. A code that is there already is encoded the same again. -/
theorem CodeFrames.Holds.add {u : Usage} {t : CodeFrames u} {encode : String → Option Frame}
    {codes : String → Prop} (h : t.Holds encode codes) (code : String)
    (hd : ∀ f, encode code = some f → f.usage = u) :
    (t.add code (encode code) hd).Holds encode fun c => c = code ∨ codes c := by
  have hother : ∀ c, c ≠ code → (t.add code (encode code) hd).down.lookup c = t.down.lookup c ∧
      (t.add code (encode code) hd).up.lookup c = t.up.lookup c :=
    fun c hc => ⟨lookup_put_ne t.down hc _, AList.lookup_insert_ne hc⟩
  refine ⟨fun c hc => ?_, fun c hc => ?_, fun c hc => ?_, fun c hc => ?_⟩
  · by_cases hcode : c = code
    · subst hcode
      have hput := lookup_put_self t.down c (encode c)
      refine hput.trans ?_
      cases hf : encode c with
      | some f => rfl
      | none =>
        by_cases hold : codes c
        · exact (h.down c hold).trans hf
        · exact h.noDown c hold
    · exact (hother c hcode).1.trans (h.down c (hc.resolve_left hcode))
  · by_cases hcode : c = code
    · subst hcode
      exact AList.lookup_insert _
    · exact (hother c hcode).2.trans (h.up c (hc.resolve_left hcode))
  · obtain ⟨hcode, hold⟩ := not_or.mp hc
    exact (hother c hcode).1.trans (h.noDown c hold)
  · obtain ⟨hcode, hold⟩ := not_or.mp hc
    exact (hother c hcode).2.trans (h.noUp c hold)

/-- What the tables hold for the actions compiled so far. -/
structure CompiledBleFrames.Holds (hid : HidKeymap) (t : CompiledBleFrames)
    (actions : List Action) : Prop where
  kb : t.kb.Holds (encodeKeyboardDown hid) fun code => .ble "keyboard" code ∈ actions
  cc : t.cc.Holds (encodeConsumerDown hid) fun code => .ble "consumer" code ∈ actions

theorem CompiledBleFrames.Holds.addAction {t : CompiledBleFrames} {actions : List Action}
    (h : t.Holds hid actions) (a : Action) : (t.addAction hid a).Holds hid (a :: actions) := by
  have hsame : (∀ code, a ≠ .ble "keyboard" code) → (∀ code, a ≠ .ble "consumer" code) →
      t.Holds hid (a :: actions) := by
    intro hkb hcc
    exact ⟨h.kb.congr fun c => by simp [(hkb c).symm], h.cc.congr fun c => by simp [(hcc c).symm]⟩
  cases a with
  | ble usage code =>
    dsimp only [CompiledBleFrames.addAction]
    split
    · rename_i hkb
      subst hkb
      exact ⟨(h.kb.add code fun _ hf => kbReport8_usage hid hf).congr fun c => by simp,
        h.cc.congr fun c => by simp⟩
    · rename_i hkb
      split
      · rename_i hcc
        subst hcc
        exact ⟨h.kb.congr fun c => by simp,
          (h.cc.add code fun _ hf => ccReport2_usage hid hf).congr fun c => by simp⟩
      · rename_i hcc
        exact hsame (fun c heq => hkb (Action.ble.inj heq).1) fun c heq => hcc (Action.ble.inj heq).1
  | noop => exact hsame nofun nofun
  | speaker => exact hsame nofun nofun
  | flow => exact hsame nofun nofun

theorem CompiledBleFrames.Holds.foldl {t : CompiledBleFrames} {before actions : List Action}
    (h : t.Holds hid before) : (actions.foldl (CompiledBleFrames.addAction hid) t).Holds hid
      (actions.reverse ++ before) := by
  induction actions generalizing t before with
  | nil => exact h
  | cons a actions ih => simpa using ih (h.addAction a)

/-- Some key of the mode has the action. -/
def Bound (mapping : Dict String (List Action)) (a : Action) : Prop :=
  ∃ remKey actions, mapping.lookup remKey = some actions ∧ a ∈ actions

theorem bound_iff {mapping : Dict String (List Action)} {a : Action} :
    a ∈ mapping.entries.reverse.flatMap (fun e => e.2) ↔ Bound mapping a := by
  rw [List.mem_flatMap]
  constructor
  · rintro ⟨⟨remKey, actions⟩, he, ha⟩
    exact ⟨remKey, actions, AList.mem_lookup_iff.mpr (List.mem_reverse.mp he), ha⟩
  · rintro ⟨remKey, actions, hlookup, ha⟩
    exact ⟨⟨remKey, actions⟩, List.mem_reverse.mpr (AList.mem_lookup_iff.mp hlookup), ha⟩

theorem compileBleFrames_holds (hid : HidKeymap) (mapping : Dict String (List Action)) :
    (compileBleFrames hid mapping).kb.Holds (encodeKeyboardDown hid)
        (fun code => Bound mapping (.ble "keyboard" code)) ∧
      (compileBleFrames hid mapping).cc.Holds (encodeConsumerDown hid)
        (fun code => Bound mapping (.ble "consumer" code)) := by
  have hempty : (⟨.empty .keyboard, .empty .consumer⟩ : CompiledBleFrames).Holds hid [] :=
    ⟨⟨by simp, by simp, fun _ _ => rfl, fun _ _ => rfl⟩,
      ⟨by simp, by simp, fun _ _ => rfl, fun _ _ => rfl⟩⟩
  exact ⟨(hempty.foldl).kb.congr fun c => by rw [← bound_iff]; simp,
    (hempty.foldl).cc.congr fun c => by rw [← bound_iff]; simp⟩

/-- For an action of a mode both paths hand over the same frames, down and up, exactly if its usage
is one of the two, or its code is also bound in the mode for the consumer usage. -/
theorem compiled_eq_encoded_iff (hid : HidKeymap) {doc : Json} {bindings : Bindings}
    (_hdoc : readKeymap doc = .ok bindings) {mode : String} {mapping : Dict String (List Action)}
    (_hmode : bindings.lookup mode = some mapping) {usage code : String}
    (hbound : Bound mapping (.ble usage code)) :
    (compiledKeyDown (compileBleFrames hid mapping) usage code = keyDown hid usage code ∧
      compiledKeyUp (compileBleFrames hid mapping) usage code = keyUp usage code) ↔
    usage = "keyboard" ∨ usage = "consumer" ∨ Bound mapping (.ble "consumer" code) := by
  obtain ⟨hkb, hcc⟩ := compileBleFrames_holds hid mapping
  unfold compiledKeyDown compiledKeyUp keyDown keyUp
  by_cases hkeyboard : usage = "keyboard"
  · subst hkeyboard
    simp only [if_true, true_or, iff_true]
    exact ⟨hkb.down code hbound, hkb.up code hbound⟩
  · simp only [hkeyboard, false_or]
    have hsame : Bound mapping (.ble "consumer" code) →
        (compileBleFrames hid mapping).cc.down.lookup code = encodeConsumerDown hid code ∧
          (compileBleFrames hid mapping).cc.up.lookup code = encodeConsumerUp code :=
      fun h => ⟨hcc.down code h, hcc.up code h⟩
    constructor
    · rintro ⟨-, hup⟩
      refine Or.inr (by_contra fun hnot => ?_)
      rw [hcc.noUp code hnot] at hup
      cases hup
    · rintro (rfl | hconsumer)
      · exact hsame hbound
      · exact hsame hconsumer

/-- A mode whose one key sends a code for the consumer usage, and for one that no report is for. -/
def sharedKeymap : Json :=
  .obj [("modes", .obj [("watch", .obj [("rem_power", .arr [
    .obj [("domain", .str "ble"), ("usage", .str "system"), ("code", .str "power")],
    .obj [("domain", .str "ble"), ("usage", .str "consumer"), ("code", .str "power")]])])])]

theorem compiled_eq_encoded_shared : ∃ bindings mapping, readKeymap sharedKeymap = .ok bindings ∧
    bindings.lookup "watch" = some mapping ∧
      compiledKeyDown (compileBleFrames ⟨[], [("power", 48)]⟩ mapping) "system" "power" =
        keyDown ⟨[], [("power", 48)]⟩ "system" "power" ∧
      compiledKeyUp (compileBleFrames ⟨[], [("power", 48)]⟩ mapping) "system" "power" =
        keyUp "system" "power" :=
  ⟨_, _, rfl, rfl, (@compiled_eq_encoded_iff ⟨[], [("power", 48)]⟩ sharedKeymap _ rfl "watch" _ rfl
    "system" "power" ⟨"rem_power", _, rfl, List.mem_cons_self ..⟩).mpr (Or.inr (Or.inr
      ⟨"rem_power", _, rfl, List.mem_cons_of_mem _ (List.mem_cons_self ..)⟩))⟩

/-- A mode with one key, bound to a usage that no report is for. -/
def systemKeymap : Json :=
  .obj [("modes", .obj [("watch", .obj [("rem_power", .arr [.obj [("domain", .str "ble"),
    ("usage", .str "system"), ("code", .str "power")]])])])]

theorem system_usage_differs : ¬ ∀ (hid : HidKeymap) (doc : Json) (bindings : Bindings),
    readKeymap doc = .ok bindings → ∀ mode mapping, bindings.lookup mode = some mapping →
      ∀ usage code, Bound mapping (.ble usage code) →
        compiledKeyDown (compileBleFrames hid mapping) usage code = keyDown hid usage code ∧
          compiledKeyUp (compileBleFrames hid mapping) usage code = keyUp usage code := by
  intro hall
  obtain ⟨-, hup⟩ := hall ⟨[], [("power", 48)]⟩ systemKeymap _ rfl "watch" _ rfl "system" "power"
    ⟨"rem_power", _, rfl, List.mem_singleton.mpr rfl⟩
  exact absurd hup (by decide)

end PiHub.BleFrames

import Mathlib.Data.List.Sort
import PiHub.SettingsFields

/-! The settings file (settings.py): how it is written, with the failures of each step, and how it is
read. -/
namespace PiHub.Settings
open PiHub.Keymap PiHub.Records PiHub.Fallible

/-! ### Writing -/

/-- What `json.load` makes of a file. -/
inductive Contents where
  | unreadable
  | document (doc : Json)

structure Disk where
  file : Option Contents := none
  tmp : Option Contents := none

/-- `sort_keys`. -/
def sortKeys (members : List (String × Json)) : List (String × Json) :=
  members.mergeSort fun a b => a.1 ≤ b.1

/-- The object written for the settings. -/
def written (s : SettingsData) : List (String × Json) := sortKeys s.asdict

/-- Where the writing fails, with the text of the exception, and for the temporary file what is in
it by then. -/
inductive WriteFault where
  | makedirs (error : String)
  | openTmp (error : String)
  | dump (part : Contents) (error : String)
  | replace (error : String)

/-- `_write_locked`. -/
def writeLocked (data : SettingsData) (disk : Disk) : Option WriteFault → Disk × Except String Unit
  | some (.makedirs error) => (disk, .error error)
  | some (.openTmp error) => (disk, .error error)
  | some (.dump part error) => ({ disk with tmp := some part }, .error error)
  | some (.replace error) => ({ disk with tmp := some (.document (.obj (written data))) }, .error error)
  | none => ({ file := some (.document (.obj (written data))), tmp := none }, .ok ())

/-- A store with its file. -/
structure Store where
  data : SettingsData := {}
  disk : Disk := {}

/-- `save_from_payload`. The new data is there before it is written. -/
def Store.save (py : PyText) (payload : List (String × Json)) (speakerBackend : Option String)
    (fault : Option WriteFault) (store : Store) : Store × Except String (List (String × Json)) :=
  match validatePayload py (payload ++ store.data.asdict) speakerBackend with
  | .error text => (store, .error text)
  | .ok validated =>
    let (disk, result) := writeLocked validated store.disk fault
    ({ data := validated, disk }, result.map fun _ => validated.asdict)

def WriteFault.error : WriteFault → String
  | makedirs error | openTmp error | dump _ error | replace error => error

/-- The file stays as it was unless all of the writing succeeds. -/
theorem writeLocked_some (data : SettingsData) (disk : Disk) (fault : WriteFault) :
    (writeLocked data disk (some fault)).1.file = disk.file ∧
      (writeLocked data disk (some fault)).2 = .error fault.error := by
  cases fault <;> exact ⟨rfl, rfl⟩

/-- The data the store holds in memory is what the saves make of it that leave the file out. -/
theorem Store.save_data (py : PyText) (payload : List (String × Json)) (backend : String)
    (fault : Option WriteFault) (store : Store) :
    (store.save py payload (some backend) fault).1.data =
      (saveFromPayload py backend store.data ⟨payload, fault.map WriteFault.error⟩).1 := by
  unfold Store.save saveFromPayload
  dsimp only
  cases validatePayload py (payload ++ store.data.asdict) (some backend) <;> rfl

/-- A save returns only when the payload has validated and all is written. -/
theorem Store.save_returns {py : PyText} {payload : List (String × Json)} {backend : Option String}
    {fault : Option WriteFault} {store : Store} {saved : List (String × Json)}
    (h : (store.save py payload backend fault).2 = .ok saved) :
    ∃ validated, validatePayload py (payload ++ store.data.asdict) backend = .ok validated ∧
      (store.save py payload backend fault).1 =
        ⟨validated, { file := some (.document (.obj (written validated))) }⟩ := by
  unfold Store.save at h ⊢
  generalize validatePayload py (payload ++ store.data.asdict) backend = checked at h
  cases checked with
  | error text => cases h
  | ok validated =>
    refine ⟨validated, rfl, ?_⟩
    cases fault with
    | none => rfl
    | some fault =>
      dsimp only at h
      rw [(writeLocked_some validated store.disk fault).2] at h
      cases h

/-- A save that raises has changed nothing, and one that returns has put what it returns into the
memory and the file. -/
def AllOrNothing (before : Store) (after : Store × Except String (List (String × Json))) : Prop :=
  match after.2 with
  | .error _ => after.1.data = before.data ∧ after.1.disk.file = before.disk.file
  | .ok saved =>
    after.1.data.asdict = saved ∧ after.1.disk.file = some (.document (.obj (sortKeys saved)))

/-- A save is all or nothing exactly if the file can be written, or the payload does not validate, or
it changes nothing. -/
theorem save_allOrNothing_iff (py : PyText) (payload : List (String × Json)) (backend : Option String)
    (fault : Option WriteFault) (store : Store) :
    AllOrNothing store (store.save py payload backend fault) ↔ fault = none ∨
      ∀ validated, validatePayload py (payload ++ store.data.asdict) backend = .ok validated →
        validated = store.data := by
  unfold Store.save
  cases validatePayload py (payload ++ store.data.asdict) backend with
  | error text => simp [AllOrNothing]
  | ok validated =>
    cases fault with
    | none => simp [AllOrNothing, writeLocked, Except.map, written]
    | some fault =>
      obtain ⟨hfile, herror⟩ := writeLocked_some validated store.disk fault
      simp [AllOrNothing, herror, hfile, Except.map]

/-- A new watch volume, when the finished file cannot be put in place. -/
def sampleFault : Option WriteFault := some (.replace "[Errno 28] No space left on device")

/-- The save fails and the file has no settings, and yet the store has the new volume. -/
theorem failed_save_kept :
    let after := ({} : Store).save samplePy [("watch_volume_pct", .int 30)] (some "audiopro") sampleFault
    after.2.isOk = false ∧ after.1.disk.file.isNone = true ∧ after.1.data.watchVolumePct = 30 ∧
      ¬ AllOrNothing {} after := by
  dsimp only
  have hvolume : (({} : Store).save samplePy [("watch_volume_pct", .int 30)] (some "audiopro")
      sampleFault).1.data.watchVolumePct = 30 := by decide +kernel
  have hfails : (({} : Store).save samplePy [("watch_volume_pct", .int 30)] (some "audiopro")
      sampleFault).2.isOk = false := by decide +kernel
  refine ⟨hfails, by decide +kernel, hvolume, fun h => ?_⟩
  unfold AllOrNothing at h
  split at h
  · rw [h.1] at hvolume
    cases hvolume
  · next saved hsaved =>
    rw [hsaved] at hfails
    cases hfails

/-! ### Reading -/

/-- `_from_dict`. -/
def fromDict (py : PyText) (raw : List (String × Json)) : Except String SettingsData :=
  let base := ({} : SettingsData).asdict
  let known := raw.filter fun e => (base.lookup e.1).isSome
  match validatePayload py (known ++ base) none with
  | .ok out => .ok out
  | .error _ => validatePayload py (keepValid (passes py) base known) none

/-- `load`; `none`: there is no file. -/
def load (py : PyText) : Option Contents → Except String SettingsData
  | none => .ok {}
  | some .unreadable => .ok {}
  | some (.document (.obj raw)) => fromDict py raw
  | some (.document _) => fromDict py []

theorem load_object (py : PyText) (raw : List (String × Json)) :
    load py (some (.document (.obj raw))) = fromDict py raw := rfl

/-- An object as `json.load` gives it: its keys are distinct. -/
structure JsonObject where
  members : List (String × Json)
  distinct : (members.map Prod.fst).Nodup

/-- The settings with this field of the object alone, if its value validates, and else the
defaults. -/
def alone (py : PyText) (raw : List (String × Json)) (f : Field) : SettingsData :=
  match raw.lookup f.key with
  | none => {}
  | some value =>
    match validatePayload py ((f.key, value) :: ({} : SettingsData).asdict) none with
    | .ok out => out
    | .error _ => {}

theorem get_alone (py : PyText) (raw : List (String × Json)) (f : Field) :
    f.get (alone py raw f) = ((raw.lookup f.key).bind (f.read py)).getD (f.get {}) := by
  unfold alone
  cases raw.lookup f.key with
  | none => rfl
  | some value =>
    rw [Option.bind_some]
    cases hout : validatePayload py ((f.key, value) :: ({} : SettingsData).asdict) none with
    | ok out =>
      have hread := validate_none_iff.mp hout f
      rw [valueAt_cons_self] at hread
      dsimp only
      rw [hout, hread, Option.getD_some]
    | error text =>
      have hfails : ¬ (f.read py value).isSome = true := by
        rw [← passesAlone_iff, passesAlone, passes, hout]
        exact Bool.false_ne_true
      dsimp only
      rw [hout, Option.not_isSome_iff_eq_none.mp hfails, Option.getD_none]

theorem lookup_known (raw : List (String × Json)) (f : Field) :
    (raw.filter fun e => (({} : SettingsData).asdict.lookup e.1).isSome).lookup f.key =
      raw.lookup f.key := by
  induction raw with
  | nil => rfl
  | cons e raw ih =>
    obtain ⟨k, value⟩ := e
    by_cases hk : f.key = k
    · subst hk
      rw [List.filter_cons_of_pos (by rw [lookup_asdict]; rfl), List.lookup_cons_self,
        List.lookup_cons_self]
    · rw [lookup_cons_ne hk, List.filter_cons]
      split
      · rw [lookup_cons_ne hk, ih]
      · exact ih

/-- Reading an object succeeds, and each field is read as if it stood there alone. -/
theorem fromDict_fields (py : PyText) (raw : JsonObject) : ∃ s, fromDict py raw.members = .ok s ∧
    ∀ f : Field, f.get s = ((raw.members.lookup f.key).bind (f.read py)).getD (f.get {}) := by
  have hknown (f : Field) := lookup_known raw.members f
  have hentries : ∀ e ∈ raw.members.filter fun e => (({} : SettingsData).asdict.lookup e.1).isSome,
      e.1 ∈ fields.map Field.key := by
    intro e he
    obtain ⟨value, hvalue⟩ := Option.isSome_iff_exists.mp (List.mem_filter.mp he).2
    rw [lookup_eq_some_iff_mem (asdict_nodup {})] at hvalue
    rw [← asdict_keys {}]
    exact List.mem_map.mpr ⟨_, hvalue, rfl⟩
  have hnodup : ((raw.members.filter fun e =>
      (({} : SettingsData).asdict.lookup e.1).isSome).map Prod.fst).Nodup :=
    raw.distinct.sublist (List.filter_sublist.map _)
  unfold fromDict
  dsimp only
  generalize raw.members.filter (fun e => (({} : SettingsData).asdict.lookup e.1).isSome) = known
    at hknown hentries hnodup
  cases hall : validatePayload py (known ++ ({} : SettingsData).asdict) none with
  | ok out =>
    refine ⟨out, rfl, fun f => ?_⟩
    have hread := validate_none_iff.mp hall f
    rw [valueAt, List.lookup_append, hknown f, lookup_asdict] at hread
    cases hvalue : raw.members.lookup f.key with
    | none =>
      rw [hvalue, Option.none_or, Option.getD_some, read_default] at hread
      exact (Option.some.inj hread).symm
    | some value =>
      rw [hvalue, Option.some_or, Option.getD_some] at hread
      rw [Option.bind_some, hread, Option.getD_some]
  | error text =>
    obtain ⟨hpass, hlookup⟩ := (passes_fieldWise py).keepValid (default_allPass py) hentries hnodup
    have hok : passes py (keepValid (passes py) ({} : SettingsData).asdict known) = true := by
      refine ((passes_fieldWise py).ok_iff fun k hk => ?_).mpr hpass
      obtain ⟨value, hvalue, -⟩ := hpass k hk
      exact Option.isSome_of_mem hvalue
    rw [passes] at hok
    obtain ⟨out, hout⟩ := isOk_iff_exists.mp hok
    refine ⟨out, hout, fun f => ?_⟩
    have hread := validate_none_iff.mp hout f
    rw [valueAt, hlookup, hknown f, lookup_asdict] at hread
    cases hvalue : raw.members.lookup f.key with
    | none =>
      rw [hvalue, Option.filter_none, Option.none_or, Option.getD_some, read_default] at hread
      exact (Option.some.inj hread).symm
    | some value =>
      rw [hvalue] at hread
      rw [Option.bind_some]
      by_cases halone : passesAlone py f.key value = true
      · rw [Option.filter_some_pos halone, Option.some_or, Option.getD_some] at hread
        rw [hread, Option.getD_some]
      · rw [Option.filter_some_neg (by simpa using halone), Option.none_or, Option.getD_some,
          read_default] at hread
        rw [passesAlone_iff, Option.not_isSome_iff_eq_none] at halone
        rw [halone, Option.getD_none]
        exact (Option.some.inj hread).symm

/-- One bad field on disk costs only itself: an object is read without an error, each field as it
stands there alone, whatever the others are and wherever it stands. -/
theorem bad_field_costs_itself (py : PyText) (raw : JsonObject) :
    ∃ s, fromDict py raw.members = .ok s ∧
      (∀ f : Field, f.get s = f.get (alone py raw.members f)) ∧
      ∀ (raw' : JsonObject) (s' : SettingsData) (f : Field), fromDict py raw'.members = .ok s' →
        raw'.members.lookup f.key = raw.members.lookup f.key → f.get s' = f.get s := by
  obtain ⟨s, hs, hfields⟩ := fromDict_fields py raw
  refine ⟨s, hs, fun f => (hfields f).trans (get_alone py raw.members f).symm, ?_⟩
  intro raw' s' f hs' hlookup
  obtain ⟨t, ht, hfields'⟩ := fromDict_fields py raw'
  obtain rfl : t = s' := Except.ok.inj (ht.symm.trans hs')
  rw [hfields f, hfields' f, hlookup]

/-- A volume that is no number, beside an address that is fine, and the same in the other order. -/
def sampleObject : JsonObject :=
  ⟨[("watch_volume_pct", .arr []), ("stream_url_2", .str "http://radio.example/live "), ("key", .null)],
    by decide +kernel⟩

def sampleObjectTurned : JsonObject :=
  ⟨[("stream_url_2", .str "http://radio.example/live "), ("watch_volume_pct", .arr [])],
    by decide +kernel⟩

theorem bad_field_costs_itself_sample : ∃ s s', fromDict samplePy sampleObject.members = .ok s ∧
    fromDict samplePy sampleObjectTurned.members = .ok s' ∧ s.watchVolumePct = 0 ∧
    s.streamUrl 1 = "http://radio.example/live" ∧ s'.streamUrl 1 = s.streamUrl 1 := by
  obtain ⟨s, hs, halone, hsame⟩ := bad_field_costs_itself samplePy sampleObject
  obtain ⟨s', hs', -, -⟩ := bad_field_costs_itself samplePy sampleObjectTurned
  have hvolume : (alone samplePy sampleObject.members .watchVolumePct).watchVolumePct = 0 := by
    decide +kernel
  have hurl : (alone samplePy sampleObject.members (.streamUrl 1)).streamUrl 1 =
      "http://radio.example/live" := by decide +kernel
  have hlookup : sampleObjectTurned.members.lookup (Field.streamUrl 1).key =
      sampleObject.members.lookup (Field.streamUrl 1).key := rfl
  refine ⟨s, s', hs, hs', (Json.int.inj (halone .watchVolumePct)).trans hvolume,
    (Json.str.inj (halone (.streamUrl 1))).trans hurl, ?_⟩
  exact Json.str.inj (hsame sampleObjectTurned s' (.streamUrl 1) hs' hlookup)

/-! ### Reading what was written -/

theorem written_perm (s : SettingsData) : s.asdict.Perm (written s) := (List.mergeSort_perm _ _).symm

theorem lookup_written (s : SettingsData) (f : Field) : (written s).lookup f.key = some (f.get s) := by
  rw [← lookup_perm (asdict_nodup s) (written_perm s), lookup_asdict]

theorem written_distinct (s : SettingsData) : ((written s).map Prod.fst).Nodup :=
  ((written_perm s).map _).nodup_iff.mp (asdict_nodup s)

/-- Settings whose fields are each read back as they are are read back from their file. -/
theorem fromDict_written {py : PyText} {s : SettingsData}
    (h : ∀ f : Field, f.read py (f.get s) = some (f.get s)) : fromDict py (written s) = .ok s := by
  obtain ⟨t, ht, hfields⟩ := fromDict_fields py ⟨written s, written_distinct s⟩
  obtain rfl : t = s := SettingsData.ext_get fun f => by
    rw [hfields f, lookup_written, Option.bind_some, h f, Option.getD_some]
  exact ht

/-- What has passed the check, for any backend, passes it again as it is when the backend is unknown,
and is what its file gives back; so the file of a save that returns gives the settings of the
store. -/
theorem saved_loads_back (py : PyText) (backend : Option String) :
    (∀ raw out, validatePayload py raw backend = .ok out →
      validatePayload py out.asdict none = .ok out ∧ fromDict py (written out) = .ok out) ∧
    ∀ store payload fault saved, (Store.save py payload backend fault store).2 = .ok saved →
      load py (store.save py payload backend fault).1.disk.file =
        .ok (store.save py payload backend fault).1.data := by
  have hback {raw : List (String × Json)} {out : SettingsData}
      (hok : validatePayload py raw backend = .ok out) : fromDict py (written out) = .ok out :=
    fromDict_written (read_of_ok hok)
  refine ⟨fun raw out hok => ⟨?_, hback hok⟩, fun store payload fault saved hsaved => ?_⟩
  · rw [validate_none_iff]
    intro f
    rw [valueAt_asdict]
    exact read_of_ok hok f
  · obtain ⟨validated, hok, hafter⟩ := Store.save_returns hsaved
    rw [hafter, load_object]
    exact hback hok

theorem saved_loads_back_sample :
    (∃ out, fromDict samplePy (written out) = .ok out ∧ out.listenTargetStream = 2) ∧
      (Store.save samplePy sampleSave.payload (some "audiopro") none {}).2.isOk = true ∧
      load samplePy (Store.save samplePy sampleSave.payload (some "audiopro") none {}).1.disk.file =
        .ok (Store.save samplePy sampleSave.payload (some "audiopro") none {}).1.data := by
  have hreturns : (Store.save samplePy sampleSave.payload (some "audiopro") none {}).2.isOk = true := by
    decide +kernel
  have hstream : (Store.save samplePy sampleSave.payload (some "audiopro") none
      {}).1.data.listenTargetStream = 2 := by decide +kernel
  obtain ⟨saved, hsaved⟩ := isOk_iff_exists.mp hreturns
  obtain ⟨out, hok, hafter⟩ := Store.save_returns hsaved
  rw [hafter] at hstream
  exact ⟨⟨out, ((saved_loads_back samplePy (some "audiopro")).1 _ _ hok).2, hstream⟩, hreturns,
    (saved_loads_back samplePy (some "audiopro")).2 _ _ _ _ hsaved⟩

end PiHub.Settings

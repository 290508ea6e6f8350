import PiHub.SettingsFile
import PiHub.Transition

/-! The settings over the runs of the program (settings.py): saves of any payloads, which the lock
takes one at a time and each of which may fail or be cut short at any point of its writing, and
restarts at any time. -/
namespace PiHub.Settings
open PiHub.Keymap PiHub.Transition

/-- The store of the process that runs. Recorded are the data of the last save that returned, and
whether the process has changed its data since without one. -/
structure Process where
  store : Store
  saved : Option SettingsData := none
  unsaved : Bool := false

/-- `saves`: with where its writing fails. A process that is killed within a save has come as far as
one whose writing fails there, and restarts. -/
inductive ProcessEvent where
  | saves (payload : List (String × Json)) (speakerBackend : Option String) (fault : Option WriteFault)
  | restarts

def Process.afterSave (s : Process) (fault : Option WriteFault)
    (r : Store × Except String (List (String × Json))) : Process :=
  match r.2 with
  | .ok _ => ⟨r.1, some r.1.data, false⟩
  | .error _ => ⟨r.1, s.saved, s.unsaved || fault.isSome⟩

def Process.afterLoad (s : Process) : Except String SettingsData → Option Process
  | .ok data => some ⟨{ s.store with data := data }, s.saved, false⟩
  | .error _ => none

def Process.step (py : PyText) (s : Process) : ProcessEvent → Option Process
  | .saves payload speakerBackend fault =>
    some (s.afterSave fault (s.store.save py payload speakerBackend fault))
  | .restarts => s.afterLoad (load py s.store.disk.file)

/-- What has been saved last is what the file gives back, and what the process has unless it has
changed it since. -/
structure Durable (py : PyText) (base : SettingsData) (s : Process) : Prop where
  file : load py s.store.disk.file = .ok (s.saved.getD base)
  data : s.unsaved = false → s.store.data = s.saved.getD base

/-- A save that raises leaves the file, and the data unless the writing has failed. -/
theorem Store.save_raises {py : PyText} {payload : List (String × Json)} {backend : Option String}
    {fault : Option WriteFault} {store : Store} {error : String}
    (h : (store.save py payload backend fault).2 = .error error) :
    (store.save py payload backend fault).1.disk.file = store.disk.file ∧
      (fault = none → (store.save py payload backend fault).1.data = store.data) := by
  unfold Store.save at h ⊢
  generalize validatePayload py (payload ++ store.data.asdict) backend = checked at h
  cases checked with
  | error text => exact ⟨rfl, fun _ => rfl⟩
  | ok validated =>
    cases fault with
    | none => cases h
    | some fault => exact ⟨(writeLocked_some validated store.disk fault).1, nofun⟩

theorem afterSave_ok {s : Process} {fault : Option WriteFault}
    {r : Store × Except String (List (String × Json))} {saved : List (String × Json)}
    (h : r.2 = .ok saved) : s.afterSave fault r = ⟨r.1, some r.1.data, false⟩ := by
  rw [Process.afterSave, h]

theorem afterSave_error {s : Process} {fault : Option WriteFault}
    {r : Store × Except String (List (String × Json))} {error : String} (h : r.2 = .error error) :
    s.afterSave fault r = ⟨r.1, s.saved, s.unsaved || fault.isSome⟩ := by
  rw [Process.afterSave, h]

/-- A save that raises. -/
theorem Durable.raised {py : PyText} {base : SettingsData} {s : Process} (h : Durable py base s)
    {store : Store} {fault : Option WriteFault} (hfile : store.disk.file = s.store.disk.file)
    (hdata : fault = none → store.data = s.store.data) :
    Durable py base ⟨store, s.saved, s.unsaved || fault.isSome⟩ where
  file := by
    dsimp only
    rw [hfile]
    exact h.file
  data := fun hclean => by
    obtain ⟨hunsaved, hfault⟩ := Bool.or_eq_false_iff.mp hclean
    have hnone : fault = none := by simpa using hfault
    exact (hdata hnone).trans (h.data hunsaved)

theorem Durable.saves {py : PyText} {base : SettingsData} {s : Process} (h : Durable py base s)
    (payload : List (String × Json)) (backend : Option String) (fault : Option WriteFault) :
    Durable py base (s.afterSave fault (s.store.save py payload backend fault)) := by
  cases hresult : (s.store.save py payload backend fault).2 with
  | ok saved =>
    obtain ⟨validated, hok, hafter⟩ := Store.save_returns hresult
    have hback : load py (some (.document (.obj (written validated)))) = .ok validated :=
      (load_object py _).trans (fromDict_written (read_of_ok hok))
    rw [afterSave_ok hresult, hafter]
    exact ⟨hback, fun _ => rfl⟩
  | error error =>
    obtain ⟨hfile, hdata⟩ := Store.save_raises hresult
    rw [afterSave_error hresult]
    exact h.raised hfile hdata

theorem Durable.restart {py : PyText} {base : SettingsData} {s : Process} (h : Durable py base s) :
    s.step py .restarts = some ⟨{ s.store with data := s.saved.getD base }, s.saved, false⟩ := by
  rw [Process.step, h.file, Process.afterLoad]

theorem Durable.step {py : PyText} {base : SettingsData} {s t : Process} {e : ProcessEvent}
    (h : Durable py base s) (hstep : s.step py e = some t) : Durable py base t := by
  cases e with
  | saves payload backend fault =>
    obtain rfl := Option.some.inj hstep
    exact h.saves payload backend fault
  | restarts =>
    rw [h.restart] at hstep
    obtain rfl := Option.some.inj hstep
    exact ⟨h.file, fun _ => rfl⟩

/-- Settings survive, over every run of saves and restarts: whenever the program is restarted, it starts
and has the data of the last save that returned, whole, or what the file held at the beginning; until
then it has them too, unless the writing of a save has failed since. -/
theorem settings_survive {py : PyText} {disk : Disk} {base : SettingsData}
    (hbase : load py disk.file = .ok base) {s : Process} {es : List ProcessEvent}
    (h : execute (Process.step py) ⟨⟨base, disk⟩, none, false⟩ es = some s) :
    (∃ t, s.step py .restarts = some t ∧ t.store.data = s.saved.getD base) ∧
      (s.unsaved = false → s.store.data = s.saved.getD base) := by
  have hdurable : Durable py base s := (reachable_of_execute h).invariant ⟨hbase, fun _ => rfl⟩
    fun _ _ _ ht _ hstep => ht.step hstep
  exact ⟨⟨_, hdurable.restart, rfl⟩, hdurable.data⟩

/-- A save that returns, and one whose file cannot be put in place. -/
def savedThenFull : List ProcessEvent :=
  [.saves [("watch_volume_pct", .int 30)] (some "audiopro") none,
    .saves [("watch_volume_pct", .int 40)] (some "audiopro") sampleFault]

theorem settings_survive_full : ∃ s t : Process,
    execute (Process.step samplePy) ⟨{}, none, false⟩ savedThenFull = some s ∧
      s.store.data.watchVolumePct = 40 ∧ s.step samplePy .restarts = some t ∧
      t.store.data.watchVolumePct = 30 := by
  have h : (execute (Process.step samplePy) ⟨{}, none, false⟩ savedThenFull).map (fun s => decide
      (s.store.data.watchVolumePct = 40 ∧
        s.saved.map SettingsData.watchVolumePct = some 30)) = some true := by decide +kernel
  obtain ⟨s, hs, hat⟩ := Option.map_eq_some_iff.mp h
  obtain ⟨hnow, hsaved⟩ := of_decide_eq_true hat
  obtain ⟨data, hdata, hvolume⟩ := Option.map_eq_some_iff.mp hsaved
  obtain ⟨⟨t, ht, hback⟩, -⟩ := settings_survive (show load samplePy ({} : Disk).file = .ok {} from rfl) hs
  rw [hdata, Option.getD_some] at hback
  exact ⟨s, t, hs, hnow, ht, by rw [hback, hvolume]⟩

end PiHub.Settings

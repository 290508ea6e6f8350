import PiHub.EdgeTables
import PiHub.HeldKeys

/-! The reader of the remote (unifying_reader.py) against the dispatcher: its event loop, its
edge worker, and `on_usb_disconnect` called when the receiver is lost. -/
namespace PiHub.ReceiverLoss
open PiHub.Transition PiHub.HostFrames PiHub.Keymap PiHub.LiveTable PiHub.Dispatcher
open PiHub.HeldKeys (UpRuns UpFails UpCovered edgeStep_down_sent edgeStep_up_sent sampleSetup)

/-- What the reader is built with; `keyName` gives the names of `ecodes.KEY`. -/
structure Reader where
  dispatcher : Setup
  scancodeMap : Dict String String
  keyName : Nat → Option String

def evKey : Nat := 1
def evMsc : Nat := 4
def mscScan : Nat := 4

/-- An event of the input device. -/
structure InputEvent where
  type : Nat
  code : Nat
  value : Int

/-- A name's entry in the scan code map, unless it is empty. -/
def Reader.mapped (R : Reader) (name : String) : Option String :=
  (R.scancodeMap.lookup name).filter fun logical => logical ≠ ""

def Reader.resolveLogicalKey (R : Reader) (keyCode : Nat) (scan : Option Int) : Option String :=
  (scan.bind fun n => R.mapped (toString n)).or
    (((R.keyName keyCode).filter fun name => name ≠ "").bind R.mapped)

/-- What the event loop keeps between events of one device session. -/
structure Loop where
  lastMscScan : Option Int := none
  pressed : List (String × Nat) := []
  deriving DecidableEq

/-- One round of the event loop, with the edge it emits. -/
def Reader.onEvent (R : Reader) (l : Loop) (ev : InputEvent) : Loop × Option (String × Edge) :=
  if ev.type = evMsc ∧ ev.code = mscScan then ({ l with lastMscScan := some ev.value }, none)
  else if ev.type ≠ evKey then (l, none)
  else
    match R.resolveLogicalKey ev.code l.lastMscScan with
    | none => ({ l with lastMscScan := none }, none)
    | some logical =>
      if ev.value = 2 then ({ l with lastMscScan := none }, none)
      else if ev.value = 1 then
        if (logical, ev.code) ∈ l.pressed then ({ l with lastMscScan := none }, none)
        else ({ lastMscScan := none, pressed := (logical, ev.code) :: l.pressed },
          some (logical, .down))
      else ({ lastMscScan := none, pressed := l.pressed.filter fun k => k ≠ (logical, ev.code) },
        some (logical, .up))

/-- Where `_run` is: without a device, in the event loop, after another error in the sleep
before its `finally` block, in `on_usb_disconnect`, or past it. -/
inductive Session where
  | absent
  | reading (l : Loop)
  | failing
  | notifying (phase : DisconnectPhase)
  | gone
  | clearFailed
  deriving DecidableEq

/-- The dispatcher, the edge queue, the edge whose call the worker awaits, and the reader. -/
structure System where
  dispatcher : State := {}
  queue : Fifo (String × Edge) 512 := Fifo.empty
  worker : Option (String × Edge × EdgePhase) := none
  session : Session := .absent

/-- `lost` is ENODEV or EIO; `fails` is another error of the event loop, and `closes` its
`finally` block. -/
inductive Event where
  | opens
  | input (ev : InputEvent)
  | lost
  | fails
  | closes
  | disconnectResumes
  | workerTakes
  | workerResumes
  | setModeBindings (mode : Option String)
  | task (t : Nat)
  | speakerTakes
  | tick (ms : Nat)

def afterDisconnect : Progress DisconnectPhase → Session
  | .waits phase => .notifying phase
  | .returns => .gone
  | .raises => .clearFailed

def afterEdge (remKey : String) (edge : Edge) :
    Progress EdgePhase → Option (String × Edge × EdgePhase)
  | .waits phase => some (remKey, edge, phase)
  | _ => none

/-- After a step of the worker's call for an edge. -/
def System.handled (s : System) (queue : Fifo (String × Edge) 512) (remKey : String) (edge : Edge)
    (r : State × Progress EdgePhase) : System :=
  { s with dispatcher := r.1, queue := queue, worker := afterEdge remKey edge r.2 }

/-- `_notify_disconnect`, up to the first wait of the callback. -/
def System.notifyDisconnect (s : System) : System :=
  let r := onUsbDisconnect s.dispatcher
  { s with dispatcher := r.1, session := afterDisconnect r.2 }

def step (R : Reader) (s : System) : Event → Option System
  | .opens =>
    match s.session with
    | .absent | .gone | .clearFailed => some { s with session := .reading {} }
    | _ => none
  | .input ev =>
    match s.session with
    | .reading l =>
      let r := R.onEvent l ev
      -- a full queue drops the edge
      some { s with session := .reading r.1, queue := s.queue.put r.2.toList }
    | _ => none
  | .lost =>
    match s.session with
    | .reading _ => some s.notifyDisconnect
    | _ => none
  | .fails =>
    match s.session with
    | .reading _ => some { s with session := .failing }
    | _ => none
  | .closes => if s.session = .failing then some s.notifyDisconnect else none
  | .disconnectResumes =>
    match s.session with
    | .notifying phase =>
      if s.dispatcher.Live phase.task then none
      else
        let r := resumeDisconnect s.dispatcher phase
        some { s with dispatcher := r.1, session := afterDisconnect r.2 }
    | _ => none
  | .workerTakes =>
    match s.worker, s.queue.items with
    | none, (remKey, edge) :: _ =>
      some (s.handled (s.queue.drop 1) remKey edge
        (edgeStep R.dispatcher s.dispatcher remKey edge none))
    | _, _ => none
  | .workerResumes =>
    match s.worker with
    | some (remKey, edge, phase) =>
      if s.dispatcher.Live phase.task then none
      else some (s.handled s.queue remKey edge
        (edgeStep R.dispatcher s.dispatcher remKey edge (some phase)))
    | none => none
  | .setModeBindings mode => some { s with dispatcher := s.dispatcher.setModeBindings mode }
  | .task t => (taskStep R.dispatcher s.dispatcher t).map fun d => { s with dispatcher := d }
  | .speakerTakes => some { s with dispatcher := s.dispatcher.speakerTakes }
  | .tick ms => some { s with dispatcher := { s.dispatcher with now := s.dispatcher.now + ms } }

/-- The step handles a down edge and leaves something that the rest of the clean-up does not
undo. -/
def Leaves (R : Reader) (s : System) (remKey : String) (phase : Option EdgePhase) : Prop :=
  let d := s.dispatcher
  let runs := ¬ d.Blocked (d.keysLeft remKey phase)
  let holds := ∃ a ∈ R.dispatcher.actions d.mode remKey, (R.dispatcher.holdMs a).isSome = true
  match s.session with
  | .gone => phase = none ∨ runs ∧ (remKey ∈ repeatKeys ∨ holds ∨
      R.dispatcher.edgeFrames d.mode .down (R.dispatcher.actions d.mode remKey) ≠ [])
  | .notifying (.holds _ _) => runs ∧ (remKey ∈ repeatKeys ∨ holds)
  | .notifying (.repeats _ _) => runs ∧ remKey ∈ repeatKeys
  | _ => False

/-- A late down edge has an up edge of its key behind it, and starts no hold task over one
that is unwinding; an up edge after the clean-up releases what it has to and does not raise. -/
def EdgeOk (R : Reader) (s : System) (remKey : String) (edge : Edge) (phase : Option EdgePhase) :
    Prop :=
  let d := s.dispatcher
  match edge with
  | .down => (Leaves R s remKey phase → (remKey, .up) ∈ s.queue.items) ∧
      (¬ d.Blocked (d.keysLeft remKey phase) → HoldsFree R.dispatcher d remKey)
  | .up => s.session = .gone → UpCovered R.dispatcher d remKey phase ∧
      (UpRuns d remKey phase →
        ∀ a ∈ R.dispatcher.actions d.mode remKey, R.dispatcher.overflows .up a = false)

def Orderly (R : Reader) (s : System) : Event → Prop
  | .workerTakes => ∀ e ∈ s.queue.items.head?, EdgeOk R s e.1 e.2 none
  | .workerResumes => ∀ w ∈ s.worker, EdgeOk R s w.1 w.2.1 (some w.2.2)
  | .task t => TickOk R.dispatcher s.dispatcher t
  | _ => True

instance (R : Reader) (s : System) (remKey : String) (phase : Option EdgePhase) :
    Decidable (Leaves R s remKey phase) := by
  unfold Leaves
  dsimp only
  split <;> infer_instance

instance (R : Reader) (s : System) (remKey : String) (edge : Edge) (phase : Option EdgePhase) :
    Decidable (EdgeOk R s remKey edge phase) := by
  unfold EdgeOk
  dsimp only
  split <;> infer_instance

instance (R : Reader) (s : System) (e : Event) : Decidable (Orderly R s e) := by
  unfold Orderly
  split <;> infer_instance

/-- An up edge of the key is queued or being handled. -/
def Pending (s : System) (remKey : String) : Prop :=
  (remKey, .up) ∈ s.queue.items ∨ ∃ phase, s.worker = some (remKey, .up, phase)

def RepeatsPending (s : System) : Prop := ∀ k ∈ s.dispatcher.repeatTasks, Pending s k

def HoldsPending (s : System) : Prop := ∀ key ∈ s.dispatcher.holdTasks, Pending s key.1

def PressesPending (s : System) : Prop := ∀ k ∈ s.dispatcher.pressedAt, Pending s k

def FramesPending (s : System) : Prop :=
  ∀ who u, HeldFor s.dispatcher.sent who u → ∃ k, who = some k ∧ Pending s k

/-- Frames of both kinds have been handed over. -/
def Reported (s : System) : Prop := ∀ u, lastFrame u s.dispatcher.sent ≠ none

/-- What the clean-up has been through is there only for keys with an up edge to come. -/
def Residue (s : System) : Prop :=
  match s.session with
  | .gone => RepeatsPending s ∧ HoldsPending s ∧ PressesPending s ∧ FramesPending s ∧ Reported s
  | .notifying (.holds _ _) => RepeatsPending s ∧ HoldsPending s
  | .notifying (.repeats _ _) => RepeatsPending s
  | .clearFailed => False
  | _ => True

def AwaitedByWorker (s : System) (t : Nat) : Prop :=
  ∃ remKey edge phase, s.worker = some (remKey, edge, phase) ∧ phase.task = t

/-- Every unwinding task is awaited by the worker or by `on_usb_disconnect`, the tables agree
with the tasks, and what is left over is waited for. -/
structure Good (s : System) : Prop where
  tracked : Tracked s.dispatcher
  doomed : ∀ t, s.dispatcher.doomedKind t ≠ none →
    AwaitedByWorker s t ∨ ∃ phase, s.session = .notifying phase ∧ t ∈ phase.tasks
  waiting : ∀ remKey phase, s.worker = some (remKey, .up, phase) →
    UpWaiting s.dispatcher remKey (some phase)
  residue : Residue s

/-- A step beside the reader and the worker. -/
theorem Good.beside {s : System} {d : State} (h : Good s) (htracked : Tracked d)
    (hdoomed : ∀ t, d.doomedKind t ≠ none → s.dispatcher.doomedKind t ≠ none)
    (hhold : ∀ key ∈ d.holdTasks, key ∈ s.dispatcher.holdTasks ∨ key.1 ∈ s.dispatcher.repeatTasks)
    (hrepeat : d.repeatTasks = s.dispatcher.repeatTasks)
    (hpressed : d.pressedAt = s.dispatcher.pressedAt) (hsent : d.sent = s.dispatcher.sent) :
    Good { s with dispatcher := d } := by
  have hrepeats : RepeatsPending s → RepeatsPending { s with dispatcher := d } :=
    fun hr k hk => hr k (hrepeat ▸ hk)
  have hholds : RepeatsPending s → HoldsPending s → HoldsPending { s with dispatcher := d } := by
    intro hr hh key hkey
    cases hhold key hkey with
    | inl hold => exact hh key hold
    | inr hnew => exact hr key.1 hnew
  refine ⟨htracked, fun t ht => h.doomed t (hdoomed t ht), ?_, ?_⟩
  · intro remKey phase hworker
    have hwaiting := h.waiting remKey phase hworker
    apply hwaiting.shrink
    · intro k hk
      exact hrepeat ▸ hk
    · intro key hkey hsame
      cases hhold key hkey with
      | inl hold => exact hold
      | inr hnew => exact absurd (hsame ▸ hnew) hwaiting.not_repeated
  · have hres := h.residue
    unfold Residue at hres ⊢
    dsimp only at hres ⊢
    split at hres
    · obtain ⟨hr, hh, hp, hf, hreported⟩ := hres
      refine ⟨hrepeats hr, hholds hr hh, fun k hk => hp k (hpressed ▸ hk),
        fun who u hheld => hf who u (hsent ▸ hheld), ?_⟩
      intro u
      change lastFrame u d.sent ≠ none
      exact hsent ▸ hreported u
    · exact ⟨hrepeats hres.1, hholds hres.1 hres.2⟩
    · exact hrepeats hres
    · exact hres
    · trivial

/-- A session in which nothing is cleaned up. -/
theorem Good.idle {s : System} (h : Good s) (hidle : ∀ phase, s.session ≠ .notifying phase)
    {session : Session} (hsession : session = .failing ∨ ∃ l, session = .reading l)
    (queue : Fifo (String × Edge) 512) : Good { s with session := session, queue := queue } := by
  refine ⟨h.tracked, ?_, h.waiting, ?_⟩
  · intro t ht
    cases h.doomed t ht with
    | inl hworker => exact Or.inl hworker
    | inr hnotifying =>
      obtain ⟨phase, hphase, _⟩ := hnotifying
      exact absurd hphase (hidle phase)
  · cases hsession with
    | inl hfailing => simp [Residue, hfailing]
    | inr hreading =>
      obtain ⟨l, rfl⟩ := hreading
      trivial

/-- A stretch of `on_usb_disconnect` that leaves entries only for keys with an up edge to
come. -/
theorem Good.cleared {s : System} {d : State} {r : State × Progress DisconnectPhase} (h : Good s)
    (hcleared : Cleared (AwaitedByWorker s) d r)
    (hrepeat : ∀ k ∈ d.repeatTasks, k ∈ s.dispatcher.repeatTasks ∧ Pending s k)
    (hhold : ∀ key ∈ d.holdTasks, key ∈ s.dispatcher.holdTasks)
    (hholds : (∃ t rest, r.2 = .waits (.repeats t rest)) ∨ ∀ key ∈ r.1.holdTasks, Pending s key.1) :
    Good { s with dispatcher := r.1, session := afterDisconnect r.2 } := by
  have hrepeats : ∀ k ∈ r.1.repeatTasks, Pending s k := by
    intro k hk
    exact (hrepeat k (hcleared.repeats ▸ hk)).2
  refine ⟨hcleared.tracked, ?_, ?_, ?_⟩
  · intro t ht
    cases hcleared.doomed t ht with
    | inl hworker => exact Or.inl hworker
    | inr hwaits =>
      obtain ⟨phase, hphase, hmem⟩ := hwaits
      exact Or.inr ⟨phase, by rw [hphase]; rfl, hmem⟩
  · intro remKey phase hworker
    apply (h.waiting remKey phase hworker).shrink
    · intro k hk
      exact (hrepeat k (hcleared.repeats ▸ hk)).1
    · intro key hkey _
      exact hhold key (hcleared.hold key hkey)
  · cases hprogress : r.2 with
    | raises => exact absurd hprogress hcleared.raises
    | returns =>
      obtain ⟨hpressed, hreleased⟩ := hcleared.returns hprogress
      refine ⟨hrepeats, ?_, ?_, ?_, ?_⟩
      · cases hholds with
        | inr hpending => exact hpending
        | inl hwaits =>
          obtain ⟨t, rest, hwaits⟩ := hwaits
          simp [hprogress] at hwaits
      · intro k hk
        exact absurd (hpressed ▸ hk) (AList.notMem_empty k)
      · intro who u hheld
        simp [HeldFor, hreleased u] at hheld
      · intro u
        simp [hreleased u]
    | waits phase =>
      cases phase with
      | repeats t rest => exact hrepeats
      | holds t rest =>
        refine ⟨hrepeats, ?_⟩
        cases hholds with
        | inr hpending => exact hpending
        | inl hwaits =>
          obtain ⟨t', rest', hwaits⟩ := hwaits
          simp [hprogress] at hwaits

theorem Good.notifyDisconnect {s : System} (h : Good s)
    (hidle : ∀ phase, s.session ≠ .notifying phase) : Good s.notifyDisconnect := by
  have hacted := cancelAll_acted { s.dispatcher with repeatTasks := ∅ }
    (values s.dispatcher.repeatTasks)
  have hsame := cancelAll_holdTasks { s.dispatcher with repeatTasks := ∅ }
    (values s.dispatcher.repeatTasks)
  have hdoomed : ∀ t, ({ s.dispatcher with repeatTasks := ∅ }.cancelAll
      (values s.dispatcher.repeatTasks)).doomedKind t ≠ none →
        AwaitedByWorker s t ∨ t ∈ values s.dispatcher.repeatTasks := by
    intro t ht
    obtain ⟨kind, hkind⟩ := Option.ne_none_iff_exists'.mp ht
    cases doomedKind_cancelAll hkind with
    | inr hnew => exact Or.inr hnew.1
    | inl hold =>
      have hold' : s.dispatcher.doomedKind t = some kind := hold
      cases h.doomed t (by simp [hold']) with
      | inl hworker => exact Or.inl hworker
      | inr hnotifying =>
        obtain ⟨phase, hphase, _⟩ := hnotifying
        exact absurd hphase (hidle phase)
  obtain ⟨hcleared, hholds⟩ := awaitRepeats_cleared h.tracked.clearRepeats hdoomed
  refine h.cleared hcleared ?_ (fun key hkey => hsame ▸ hkey) ?_
  · intro k hk
    rw [hacted.repeatTasks] at hk
    exact absurd hk (AList.notMem_empty k)
  · cases hholds with
    | inl hwaits => exact Or.inl hwaits
    | inr hnone => exact Or.inr fun key hkey => absurd hkey (hnone key)

theorem Good.disconnectResumes {s : System} {phase : DisconnectPhase} (h : Good s)
    (hsession : s.session = .notifying phase) :
    Good { s with dispatcher := (resumeDisconnect s.dispatcher phase).1,
                  session := afterDisconnect (resumeDisconnect s.dispatcher phase).2 } := by
  have hdoomed : ∀ t, s.dispatcher.doomedKind t ≠ none → AwaitedByWorker s t ∨ t ∈ phase.tasks := by
    intro t ht
    cases h.doomed t ht with
    | inl hworker => exact Or.inl hworker
    | inr hnotifying =>
      obtain ⟨phase', hphase, hmem⟩ := hnotifying
      obtain rfl : phase = phase' := by simpa [hsession] using hphase
      exact Or.inr hmem
  have hres := h.residue
  rw [Residue, hsession] at hres
  cases phase with
  | repeats t rest =>
    obtain ⟨hcleared, hholds⟩ := awaitRepeats_cleared h.tracked hdoomed
    refine h.cleared hcleared (fun k hk => ⟨hk, hres k hk⟩) (fun key hkey => hkey) ?_
    cases hholds with
    | inl hwaits => exact Or.inl hwaits
    | inr hnone => exact Or.inr fun key hkey => absurd hkey (hnone key)
  | holds t rest =>
    obtain ⟨hcleared, hsame, _⟩ := awaitHolds_cleared h.tracked hdoomed
    refine h.cleared hcleared (fun k hk => ⟨hk, hres.1 k hk⟩) (fun key hkey => hkey) (Or.inr ?_)
    intro key hkey
    exact hres.2 key (hsame ▸ hkey)

section Handled
variable {R : Reader} {s : System} {remKey : String} {phase : Option EdgePhase}
  {queue : Fifo (String × Edge) 512} {r : State × Progress EdgePhase}

/-- The worker takes this edge, or goes on with it, and leaves the queue as given. -/
structure AtEdge (s : System) (queue : Fifo (String × Edge) 512) (remKey : String) (edge : Edge) :
    Prop where
  worker : ∀ k edge' phase, s.worker = some (k, edge', phase) → k = remKey ∧ edge' = edge
  done : ∀ t, AwaitedByWorker s t → ¬ s.dispatcher.Live t
  queue : ∀ e ∈ s.queue.items, e ∈ queue.items ∨ e = (remKey, edge)

/-- Handling an edge takes no other edge off the queue. -/
theorem pending_handled {k : String} {edge : Edge} (hat : AtEdge s queue remKey edge)
    (h : Pending s k) (hother : k = remKey → edge ≠ .up) :
    Pending (s.handled queue remKey edge r) k := by
  cases h with
  | inr hphase =>
    obtain ⟨phase, hphase⟩ := hphase
    obtain ⟨hkey, hedge⟩ := hat.worker k .up phase hphase
    exact absurd hedge.symm (hother hkey)
  | inl hmem =>
    cases hat.queue _ hmem with
    | inl hleft => exact Or.inl hleft
    | inr htaken =>
      obtain ⟨hkey, hedge⟩ := Prod.mk.inj htaken
      exact absurd hedge.symm (hother hkey)

theorem doomed_handled {edge : Edge} (hat : AtEdge s queue remKey edge) (h : Good s)
    (hdoomed : ∀ t, r.1.doomedKind t ≠ none → s.dispatcher.doomedKind t ≠ none ∨
      ∃ phase, r.2 = .waits phase ∧ phase.task = t)
    {t : Nat} (ht : r.1.doomedKind t ≠ none) :
    AwaitedByWorker (s.handled queue remKey edge r) t ∨
      ∃ phase, s.session = .notifying phase ∧ t ∈ phase.tasks := by
  cases hdoomed t ht with
  | inl hold =>
    cases h.doomed t hold with
    | inl hawaited => exact absurd (live_of_doomedKind hold) (hat.done t hawaited)
    | inr hnotifying => exact Or.inr hnotifying
  | inr hwaits =>
    obtain ⟨phase', hphase, ht'⟩ := hwaits
    refine Or.inl ⟨remKey, edge, phase', ?_, ht'⟩
    simp [System.handled, hphase, afterEdge]

theorem repeatsPending_down (hstep : DownStep R.dispatcher s.dispatcher remKey phase r)
    (hkeep : ∀ k, Pending s k → Pending (s.handled queue remKey .down r) k)
    (h : RepeatsPending s) (hnew : ¬ s.dispatcher.Blocked (s.dispatcher.keysLeft remKey phase) →
      remKey ∈ repeatKeys → Pending (s.handled queue remKey .down r) remKey) :
    RepeatsPending (s.handled queue remKey .down r) := by
  intro k hk
  cases hstep.repeats k hk with
  | inl hold => exact hkeep k (h k hold)
  | inr hstarts =>
    obtain ⟨hruns, rfl, hkeys⟩ := hstarts
    exact hnew hruns hkeys

theorem holdsPending_down (hstep : DownStep R.dispatcher s.dispatcher remKey phase r)
    (hkeep : ∀ k, Pending s k → Pending (s.handled queue remKey .down r) k)
    (h : HoldsPending s) (hnew : ¬ s.dispatcher.Blocked (s.dispatcher.keysLeft remKey phase) →
      (∃ a ∈ R.dispatcher.actions s.dispatcher.mode remKey,
        (R.dispatcher.holdMs a).isSome = true) → Pending (s.handled queue remKey .down r) remKey) :
    HoldsPending (s.handled queue remKey .down r) := by
  intro key hkey
  cases hstep.hold key hkey with
  | inl hold => exact hkeep key.1 (h key hold)
  | inr hstarts =>
    obtain ⟨hruns, rfl, hms⟩ := hstarts
    exact hnew hruns hms

theorem pressesPending_down (hstep : DownStep R.dispatcher s.dispatcher remKey phase r)
    (hkeep : ∀ k, Pending s k → Pending (s.handled queue remKey .down r) k)
    (h : PressesPending s)
    (hnew : phase = none → Pending (s.handled queue remKey .down r) remKey) :
    PressesPending (s.handled queue remKey .down r) := by
  intro k hk
  cases hstep.pressed k hk with
  | inl hold => exact hkeep k (h k hold)
  | inr hfirst =>
    obtain ⟨hphase, rfl⟩ := hfirst
    exact hnew hphase

theorem framesPending_down {fs : List Frame}
    (hsent : r.1.sent = (fs.map fun f => (f, some remKey)).reverse ++ s.dispatcher.sent)
    (hkeep : ∀ k, Pending s k → Pending (s.handled queue remKey .down r) k)
    (h : FramesPending s)
    (hnew : fs ≠ [] → Pending (s.handled queue remKey .down r) remKey) :
    FramesPending (s.handled queue remKey .down r) := by
  intro who u hheld
  change HeldFor r.1.sent who u at hheld
  rw [hsent] at hheld
  cases heldFor_append hheld with
  | inl hpress =>
    obtain ⟨hwho, f, hf, _⟩ := hpress
    exact ⟨remKey, hwho, hnew (List.ne_nil_of_mem hf)⟩
  | inr hold =>
    obtain ⟨k, hwho, hpending⟩ := h who u hold.1
    exact ⟨k, hwho, hkeep k hpending⟩

/-- A step of a down edge's call. -/
theorem Good.down (h : Good s) (hat : AtEdge s queue remKey .down)
    (hok : EdgeOk R s remKey .down phase) : Good (s.handled queue remKey .down
      (edgeStep R.dispatcher s.dispatcher remKey .down phase)) := by
  have hstep : DownStep R.dispatcher s.dispatcher remKey phase
      (edgeStep R.dispatcher s.dispatcher remKey .down phase) := edgeStep_down h.tracked hok.2
  obtain ⟨fs, hsent, hframes⟩ := edgeStep_down_sent R.dispatcher s.dispatcher remKey phase
  generalize edgeStep R.dispatcher s.dispatcher remKey .down phase = r at hstep hsent
  have hkeep (k : String) (hk : Pending s k) : Pending (s.handled queue remKey .down r) k :=
    pending_handled hat hk (by simp)
  have hleaves (hl : Leaves R s remKey phase) : Pending (s.handled queue remKey .down r) remKey :=
    hkeep remKey (Or.inl (hok.1 hl))
  refine ⟨hstep.tracked, fun t ht => doomed_handled hat h hstep.doomed ht, ?_, ?_⟩
  · intro k phase' hnew
    change afterEdge remKey .down r.2 = _ at hnew
    cases hprogress : r.2 <;> simp [hprogress, afterEdge] at hnew
  · have hres := h.residue
    unfold Leaves at hleaves
    unfold Residue at hres ⊢
    dsimp only [System.handled] at hres hleaves ⊢
    cases hsession : s.session with
    | gone =>
      simp only [hsession] at hres hleaves ⊢
      obtain ⟨hr, hh, hp, hf, hreported⟩ := hres
      refine ⟨repeatsPending_down hstep hkeep hr ?_, holdsPending_down hstep hkeep hh ?_,
        pressesPending_down hstep hkeep hp ?_, framesPending_down hsent hkeep hf ?_, ?_⟩
      · intro hruns hkeys
        exact hleaves (Or.inr ⟨hruns, Or.inl hkeys⟩)
      · intro hruns hms
        exact hleaves (Or.inr ⟨hruns, Or.inr (Or.inl hms)⟩)
      · intro hphase
        exact hleaves (Or.inl hphase)
      · intro hne
        obtain ⟨hruns, hfs⟩ := hframes hne
        exact hleaves (Or.inr ⟨hruns, Or.inr (Or.inr (hfs ▸ hne))⟩)
      · intro u
        change lastFrame u r.1.sent ≠ none
        exact hsent ▸ lastFrame_append (hreported u)
    | notifying progress =>
      cases progress with
      | repeats t rest =>
        simp only [hsession] at hres hleaves ⊢
        exact repeatsPending_down hstep hkeep hres fun hruns hkeys => hleaves ⟨hruns, hkeys⟩
      | holds t rest =>
        simp only [hsession] at hres hleaves ⊢
        exact ⟨repeatsPending_down hstep hkeep hres.1 fun hruns hkeys =>
            hleaves ⟨hruns, Or.inl hkeys⟩,
          holdsPending_down hstep hkeep hres.2 fun hruns hms => hleaves ⟨hruns, Or.inr hms⟩⟩
    | clearFailed =>
      simp only [hsession] at hres
    | absent => trivial
    | reading l => trivial
    | failing => trivial

theorem repeatsPending_up (hat : AtEdge s queue remKey .up)
    (hstep : UpStep R.dispatcher s.dispatcher remKey r) (h : RepeatsPending s) :
    RepeatsPending (s.handled queue remKey .up r) := by
  intro k hk
  obtain ⟨hold, hne⟩ := hstep.repeats k hk
  exact pending_handled hat (h k hold) fun hkey => absurd hkey hne

/-- After a step of the call for the up edge, what was pending is, unless the call has ended
and it was for this key. -/
theorem pending_up {k : String} (hat : AtEdge s queue remKey .up) (h : Pending s k)
    (hends : (∀ phase, r.2 ≠ .waits phase) → k ≠ remKey) :
    Pending (s.handled queue remKey .up r) k := by
  by_cases hkey : k = remKey
  · subst hkey
    cases hprogress : r.2 with
    | waits phase =>
      refine Or.inr ⟨phase, ?_⟩
      simp [System.handled, hprogress, afterEdge]
    | returns => exact absurd rfl (hends (by simp [hprogress]))
    | raises => exact absurd rfl (hends (by simp [hprogress]))
  · exact pending_handled hat h fun hsame => absurd hsame hkey

theorem holdsPending_up (hat : AtEdge s queue remKey .up)
    (hstep : UpStep R.dispatcher s.dispatcher remKey r) (h : HoldsPending s) :
    HoldsPending (s.handled queue remKey .up r) := by
  intro key hkey
  exact pending_up hat (h key (hstep.hold key hkey)) fun hends => (hstep.ends hends).1 key hkey

theorem pressesPending_up (hat : AtEdge s queue remKey .up)
    (hstep : UpStep R.dispatcher s.dispatcher remKey r) (h : PressesPending s)
    (hover : (∀ phase, r.2 ≠ .waits phase) →
      ∀ a ∈ R.dispatcher.actions s.dispatcher.mode remKey, R.dispatcher.overflows .up a = false) :
    PressesPending (s.handled queue remKey .up r) := by
  intro k hk
  apply pending_up hat (h k (hstep.pressed k hk))
  intro hends hkey
  subst hkey
  exact (hstep.ends hends).2 (hover hends) hk

theorem framesPending_up (hat : AtEdge s queue remKey .up) (h : FramesPending s)
    (hheld : ∀ who u, HeldFor r.1.sent who u → HeldFor s.dispatcher.sent who u ∧
      ((∀ phase, r.2 ≠ .waits phase) → who ≠ some remKey)) :
    FramesPending (s.handled queue remKey .up r) := by
  intro who u hnow
  obtain ⟨hold, hother⟩ := hheld who u hnow
  obtain ⟨k, hwho, hpending⟩ := h who u hold
  refine ⟨k, hwho, pending_up hat hpending ?_⟩
  intro hends hkey
  exact hother hends (hkey ▸ hwho)

theorem not_upFails {d : State} (h : Tracked d) : ¬ UpFails d remKey phase := by
  intro hfails
  cases phase with
  | none =>
    obtain ⟨t, _, hfailed⟩ := hfails
    exact h.not_failed t hfailed
  | some phase =>
    cases phase with
    | stopRepeat t => exact h.not_failed t hfails
    | cancelHolds t rest => exact hfails

/-- The frames of a step of an up edge's call that no failed task can stop. -/
theorem upSent_cases (S : Setup) {d : State} (h : Tracked d) (remKey : String)
    (phase : Option EdgePhase) :
    (∃ phase', (edgeStep S d remKey .up phase).2 = .waits phase') ∧
        (edgeStep S d remKey .up phase).1.sent = d.sent ∨
      UpRuns d remKey phase ∧ (edgeStep S d remKey .up phase).1.sent =
        ((S.edgeFrames d.mode .up (S.actions d.mode remKey)).map fun f =>
          (f, some remKey)).reverse ++ d.sent := by
  cases edgeStep_up_sent S d remKey phase with
  | inl hwaits => exact Or.inl hwaits
  | inr hended =>
    cases hended with
    | inl hfails => exact absurd hfails.1 (not_upFails h)
    | inr hruns => exact Or.inr hruns

theorem edgeStep_up_runs {S : Setup} {d : State} (h : Tracked d)
    (hends : ∀ phase', (edgeStep S d remKey .up phase).2 ≠ .waits phase') :
    UpRuns d remKey phase := by
  cases upSent_cases S h remKey phase with
  | inr hruns => exact hruns.1
  | inl hwaits =>
    obtain ⟨⟨phase', hphase⟩, _⟩ := hwaits
    exact absurd hphase (hends phase')

/-- A covered up edge whose call ends leaves nothing held for its key. -/
theorem edgeStep_up_held {S : Setup} {d : State} (h : Tracked d)
    (hcovered : UpCovered S d remKey phase) (who : Option String) (u : Usage)
    (hheld : HeldFor (edgeStep S d remKey .up phase).1.sent who u) : HeldFor d.sent who u ∧
      ((∀ phase', (edgeStep S d remKey .up phase).2 ≠ .waits phase') → who ≠ some remKey) := by
  cases upSent_cases S h remKey phase with
  | inl hwaits =>
    obtain ⟨⟨phase', hphase⟩, hsame⟩ := hwaits
    exact ⟨hsame ▸ hheld, fun hends => absurd hphase (hends phase')⟩
  | inr hruns =>
    obtain ⟨hold, hframes⟩ := heldFor_up (hruns.2 ▸ hheld)
    refine ⟨hold, ?_⟩
    intro _ hwho
    subst hwho
    exact hframes _ ((hcovered u hold).2 hruns.1) rfl

theorem edgeStep_up_reported {S : Setup} {d : State} (h : Tracked d) {u : Usage}
    (hlast : lastFrame u d.sent ≠ none) :
    lastFrame u (edgeStep S d remKey .up phase).1.sent ≠ none := by
  cases upSent_cases S h remKey phase with
  | inl hwaits => exact hwaits.2 ▸ hlast
  | inr hruns => exact hruns.2 ▸ lastFrame_append hlast

/-- A step of an up edge's call. -/
theorem Good.up (h : Good s) (hat : AtEdge s queue remKey .up)
    (hok : EdgeOk R s remKey .up phase) (hwaiting : UpWaiting s.dispatcher remKey phase) :
    Good (s.handled queue remKey .up
      (edgeStep R.dispatcher s.dispatcher remKey .up phase)) := by
  have hstep : UpStep R.dispatcher s.dispatcher remKey
      (edgeStep R.dispatcher s.dispatcher remKey .up phase) := edgeStep_up h.tracked hwaiting
  have hres := h.residue
  refine ⟨hstep.tracked, fun t ht => doomed_handled hat h hstep.doomed ht, ?_, ?_⟩
  · intro k phase' hnew
    change afterEdge remKey .up (edgeStep R.dispatcher s.dispatcher remKey .up phase).2 = _ at hnew
    cases hprogress : (edgeStep R.dispatcher s.dispatcher remKey .up phase).2 with
    | waits phase =>
      obtain ⟨rfl, _, rfl⟩ : remKey = k ∧ Edge.up = .up ∧ phase = phase' := by
        simpa [hprogress, afterEdge] using hnew
      exact hstep.upWaiting hprogress
    | returns => simp [hprogress, afterEdge] at hnew
    | raises => simp [hprogress, afterEdge] at hnew
  · unfold Residue at hres ⊢
    dsimp only [System.handled] at hres ⊢
    cases hsession : s.session with
    | gone =>
      simp only [hsession] at hres ⊢
      obtain ⟨hr, hh, hp, hf, hreported⟩ := hres
      obtain ⟨hcovered, hover⟩ := hok hsession
      have hruns (hends : ∀ phase',
          (edgeStep R.dispatcher s.dispatcher remKey .up phase).2 ≠ .waits phase') :=
        hover (edgeStep_up_runs h.tracked hends)
      exact ⟨repeatsPending_up hat hstep hr, holdsPending_up hat hstep hh,
        pressesPending_up hat hstep hp hruns,
        framesPending_up hat hf (edgeStep_up_held h.tracked hcovered),
        fun u => edgeStep_up_reported h.tracked (hreported u)⟩
    | notifying progress =>
      cases progress with
      | repeats t rest =>
        simp only [hsession] at hres ⊢
        exact repeatsPending_up hat hstep hres
      | holds t rest =>
        simp only [hsession] at hres ⊢
        exact ⟨repeatsPending_up hat hstep hres.1, holdsPending_up hat hstep hres.2⟩
    | clearFailed => simp only [hsession] at hres
    | absent => trivial
    | reading l => trivial
    | failing => trivial

theorem atEdge_takes {edge : Edge} {rest : List (String × Edge)} (hworker : s.worker = none)
    (hitems : s.queue.items = (remKey, edge) :: rest) :
    AtEdge s (s.queue.drop 1) remKey edge := by
  refine ⟨by simp [hworker], ?_, ?_⟩
  · intro t hawaited
    obtain ⟨k, edge', phase', hphase, _⟩ := hawaited
    simp [hworker] at hphase
  · intro e he
    rw [hitems] at he
    cases List.mem_cons.mp he with
    | inl hhead => exact Or.inr hhead
    | inr htail => exact Or.inl (by simpa [hitems] using htail)

theorem atEdge_resumes {edge : Edge} {phase : EdgePhase}
    (hworker : s.worker = some (remKey, edge, phase)) (hdone : ¬ s.dispatcher.Live phase.task) :
    AtEdge s s.queue remKey edge := by
  refine ⟨?_, ?_, fun e he => Or.inl he⟩
  · intro k edge' phase' hphase
    obtain ⟨hkey, hedge, _⟩ : remKey = k ∧ edge = edge' ∧ phase = phase' := by
      simpa [hworker] using hphase
    exact ⟨hkey.symm, hedge.symm⟩
  · intro t hawaited
    obtain ⟨k, edge', phase', hphase, rfl⟩ := hawaited
    obtain ⟨_, _, rfl⟩ : remKey = k ∧ edge = edge' ∧ phase = phase' := by
      simpa [hworker] using hphase
    exact hdone

end Handled

theorem good_step {R : Reader} {s s' : System} {e : Event} (h : Good s) (hok : Orderly R s e)
    (hstep : step R s e = some s') : Good s' := by
  cases e with
  | opens =>
    simp only [step] at hstep
    split at hstep
    case h_4 => simp at hstep
    all_goals
      rename_i hsession
      obtain rfl := Option.some.inj hstep
      exact h.idle (by simp [hsession]) (Or.inr ⟨{}, rfl⟩) s.queue
  | input ev =>
    cases hsession : s.session with
    | reading l =>
      simp only [step, hsession, Option.some.injEq] at hstep
      exact hstep ▸ h.idle (by simp [hsession]) (Or.inr ⟨_, rfl⟩) _
    | _ => simp [step, hsession] at hstep
  | lost =>
    cases hsession : s.session with
    | reading l =>
      simp only [step, hsession, Option.some.injEq] at hstep
      exact hstep ▸ h.notifyDisconnect (by simp [hsession])
    | _ => simp [step, hsession] at hstep
  | fails =>
    cases hsession : s.session with
    | reading l =>
      simp only [step, hsession, Option.some.injEq] at hstep
      exact hstep ▸ h.idle (by simp [hsession]) (Or.inl rfl) s.queue
    | _ => simp [step, hsession] at hstep
  | closes =>
    simp only [step] at hstep
    split at hstep
    case isFalse => simp at hstep
    case isTrue hsession =>
      exact Option.some.inj hstep ▸ h.notifyDisconnect (by simp [hsession])
  | disconnectResumes =>
    cases hsession : s.session with
    | notifying phase =>
      simp only [step, hsession] at hstep
      split at hstep
      case isTrue => simp at hstep
      case isFalse => exact Option.some.inj hstep ▸ h.disconnectResumes hsession
    | _ => simp [step, hsession] at hstep
  | workerTakes =>
    cases hworker : s.worker with
    | some worker => simp [step, hworker] at hstep
    | none =>
      cases hitems : s.queue.items with
      | nil => simp [step, hworker, hitems] at hstep
      | cons e rest =>
        obtain ⟨remKey, edge⟩ := e
        simp only [step, hworker, hitems, Option.some.injEq] at hstep
        have hat := atEdge_takes hworker hitems
        have hedge : EdgeOk R s remKey edge none := hok (remKey, edge) (by simp [hitems])
        cases edge with
        | down => exact hstep ▸ h.down hat hedge
        | up => exact hstep ▸ h.up hat hedge trivial
  | workerResumes =>
    cases hworker : s.worker with
    | none => simp [step, hworker] at hstep
    | some worker =>
      obtain ⟨remKey, edge, phase⟩ := worker
      simp only [step, hworker] at hstep
      split at hstep
      case isTrue => simp at hstep
      case isFalse hdone =>
        have hat := atEdge_resumes hworker hdone
        have hedge : EdgeOk R s remKey edge (some phase) := hok (remKey, edge, phase) hworker
        obtain rfl := Option.some.inj hstep
        cases edge with
        | down => exact h.down hat hedge
        | up => exact h.up hat hedge (h.waiting remKey phase hworker)
  | setModeBindings mode =>
    exact Option.some.inj hstep ▸ h.beside (h.tracked.congr rfl rfl rfl) (fun _ ht => ht)
      (fun _ hkey => Or.inl hkey) rfl rfl rfl
  | task t =>
    obtain ⟨d, hd, rfl⟩ := Option.map_eq_some_iff.mp hstep
    have hstepped : Stepped s.dispatcher d := taskStep_stepped h.tracked hok hd
    exact h.beside hstepped.tracked hstepped.doomed hstepped.hold hstepped.acted.repeatTasks
      hstepped.acted.pressedAt (taskStep_sent hd)
  | speakerTakes =>
    exact Option.some.inj hstep ▸ h.beside (h.tracked.congr rfl rfl rfl) (fun _ ht => ht)
      (fun _ hkey => Or.inl hkey) rfl rfl rfl
  | tick ms =>
    exact Option.some.inj hstep ▸ h.beside (h.tracked.congr rfl rfl rfl) (fun _ ht => ht)
      (fun _ hkey => Or.inl hkey) rfl rfl rfl

theorem good_start : Good {} := by
  refine ⟨⟨?_, ?_, ?_, by simp⟩, ?_, by simp, trivial⟩
  · intro key t
    simp [State.aliveKind]
  · intro key t
    simp [State.aliveKind]
  · intro key t hdoomed
    simp [State.doomedKind] at hdoomed
  · intro t hdoomed
    simp [State.doomedKind] at hdoomed

theorem not_pending {s : System} (hqueue : s.queue.items = []) (hworker : s.worker = none)
    (k : String) : ¬ Pending s k := by
  simp [Pending, hqueue, hworker]

/-- In a run whose late edges are orderly, once the receiver is gone, `on_usb_disconnect` has
returned and the queue is drained, no task is left, no key is pressed, and the last frames of
both kinds are zero reports. -/
theorem receiver_released {R : Reader} {s : System} (h : ReachableBy (step R) (Orderly R) {} s)
    (hgone : s.session = .gone) (hqueue : s.queue.items = []) (hworker : s.worker = none) :
    s.dispatcher.repeatTasks = ∅ ∧ s.dispatcher.holdTasks = ∅ ∧ s.dispatcher.pressedAt = ∅ ∧
      (∀ task ∈ s.dispatcher.tasks, task.Done) ∧
        ∀ u, ∃ who, lastFrame u s.dispatcher.sent = some (zeroFrame u, who) := by
  have hgood : Good s := h.invariant good_start fun _ _ _ hgood hok hstep =>
    good_step hgood hok hstep
  have hidle := not_pending hqueue hworker
  have hres := hgood.residue
  rw [Residue, hgone] at hres
  obtain ⟨hr, hh, hp, hf, hreported⟩ := hres
  have hrepeat : s.dispatcher.repeatTasks = ∅ :=
    eq_empty_of_forall_notMem fun k hk => hidle k (hr k hk)
  have hhold : s.dispatcher.holdTasks = ∅ :=
    eq_empty_of_forall_notMem fun key hkey => hidle key.1 (hh key hkey)
  have hpressed : s.dispatcher.pressedAt = ∅ :=
    eq_empty_of_forall_notMem fun k hk => hidle k (hp k hk)
  have hdoomed (t : Nat) : s.dispatcher.doomedKind t = none := by
    by_contra hne
    cases hgood.doomed t hne with
    | inl hawaited =>
      obtain ⟨k, edge, phase, hphase, _⟩ := hawaited
      simp [hworker] at hphase
    | inr hnotifying =>
      obtain ⟨phase, hphase, _⟩ := hnotifying
      simp [hgone] at hphase
  have hclean (u : Usage) : Clean s.dispatcher.sent u := by
    apply clean_of_not_heldFor
    intro who hheld
    obtain ⟨k, _, hpending⟩ := hf who u hheld
    exact hidle k hpending
  refine ⟨hrepeat, hhold, hpressed, hgood.tracked.all_done hrepeat hhold hdoomed, ?_⟩
  intro u
  obtain ⟨⟨f, who⟩, hlast⟩ := Option.ne_none_iff_exists'.mp (hreported u)
  obtain rfl : f = zeroFrame u := hclean u _ hlast
  exact ⟨who, hlast⟩

def sampleReader : Reader :=
  { dispatcher := sampleSetup
    scancodeMap := [("KEY_VOLUMEUP", "rem_vol_up"), ("KEY_LEFT", "rem_dir_left")].foldl
      (fun d e => d.insert e.1 e.2) ∅
    keyName := fun code =>
      if code = 115 then some "KEY_VOLUMEUP" else if code = 105 then some "KEY_LEFT" else none }

def volumeUp (value : Int) : Event := .input ⟨evKey, 115, value⟩

/-- The same key goes up and down and up again before the receiver is lost, which happens as
the worker waits for the repeat task. -/
def lostInPress : List Event :=
  [.setModeBindings (some "watch"), .opens, volumeUp 1, .workerTakes, .task 0, volumeUp 0,
    volumeUp 1, volumeUp 0, .workerTakes, .lost, .task 0, .workerResumes, .workerTakes,
    .workerTakes, .task 1, .workerResumes]

theorem receiver_released_sample : ∃ s, execute (step sampleReader) {} lostInPress = some s ∧
    s.dispatcher.tasks.length = 2 ∧ (∀ task ∈ s.dispatcher.tasks, task.Done) ∧
      s.dispatcher.repeatTasks = ∅ := by
  have hends : (execute (step sampleReader) {} lostInPress).map (fun s =>
      (s.session, s.queue.items, s.worker, s.dispatcher.tasks.length)) =
        some (.gone, [], none, 2) := rfl
  obtain ⟨s, hs, hstate⟩ := Option.map_eq_some_iff.mp hends
  obtain ⟨hgone, hqueue, hworker, hlength⟩ : s.session = .gone ∧ s.queue.items = [] ∧
      s.worker = none ∧ s.dispatcher.tasks.length = 2 := by
    simpa using hstate
  obtain ⟨hrepeat, _, _, hdone, _⟩ :=
    receiver_released (reachableBy_of_execute hs (by decide)) hgone hqueue hworker
  exact ⟨s, hs, hlength, hdone, hrepeat⟩

/-- The receiver is lost while the worker waits for the repeat task of a key that went up. -/
def lostInWait : List Event :=
  [.setModeBindings (some "watch"), .opens, volumeUp 1, .workerTakes, .task 0, volumeUp 0,
    volumeUp 1, .workerTakes, .lost, .task 0, .workerResumes, .workerTakes]

theorem repeat_outlives_receiver : ∃ s, execute (step sampleReader) {} lostInWait = some s ∧
    s.session = .gone ∧ s.queue.items = [] ∧ s.worker = none ∧
      s.dispatcher.repeatTasks.lookup "rem_vol_up" = some 1 ∧
        s.dispatcher.tasks[1]? = some { kind := .repeats "rem_vol_up" } ∧
          (s.dispatcher.pressedAt.lookup "rem_vol_up").isSome = true := by
  exact ⟨_, rfl, by decide, by decide, by decide, by decide, by decide, by decide⟩

end PiHub.ReceiverLoss

import Mathlib.Data.Nat.Find
import PiHub.ReceiverLoss

/-! One device session of the remote's reader (unifying_reader.py): its event loop against the
bounded edge queue, and the edges that its worker passes to `on_edge`. -/
namespace PiHub.EdgeQueue
open PiHub.Transition PiHub.HostFrames PiHub.Dispatcher PiHub.ReceiverLoss

/-- A queued edge, with the position of the event it was emitted for; an edge of an earlier
session has none. -/
structure Queued where
  remKey : String
  edge : Edge
  read : Option Nat
  deriving DecidableEq

/-- `cap` is `edge_queue_maxsize`. What has been read is kept beside the state. -/
structure State (cap : Nat) where
  loop : Loop
  read : List InputEvent
  queue : Fifo Queued cap
  delivered : List Queued

inductive Event where
  | input (ev : InputEvent)
  | delivers

variable {cap : Nat}

/-- A session opens with what earlier ones have left in the queue. -/
def State.opened (before : Fifo (String × Edge) cap) : State cap where
  loop := {}
  read := []
  queue := ⟨before.items.map fun e => ⟨e.1, e.2, none⟩, by rw [List.length_map]; exact before.fits⟩
  delivered := []

/-- The edge that the next event emits. -/
def State.emitted (R : Reader) (s : State cap) (ev : InputEvent) : List Queued :=
  (R.onEvent s.loop ev).2.toList.map fun e => ⟨e.1, e.2, some s.read.length⟩

def step (R : Reader) (s : State cap) : Event → Option (State cap)
  | .input ev => some { s with
      loop := (R.onEvent s.loop ev).1
      read := s.read ++ [ev]
      -- `put_nowait` on a full queue drops the edge
      queue := s.queue.put (s.emitted R ev) }
  | .delivers =>
    match s.queue.items with
    | [] => none
    | e :: _ => some { s with queue := s.queue.drop 1, delivered := s.delivered ++ [e] }

/-! ### The stream -/

/-- What `last_msc_scan` is after an event. -/
def scanAfter (scan : Option Int) (ev : InputEvent) : Option Int :=
  if ev.type = evMsc ∧ ev.code = mscScan then some ev.value
  else if ev.type ≠ evKey then scan
  else none

/-- The scan code in effect for the event at `i`. -/
def scanAt (stream : List InputEvent) (i : Nat) : Option Int := (stream.take i).foldl scanAfter none

/-- A key of the device: its code and the scan code sent before it. -/
abbrev Key := Nat × Option Int

structure PressAt (stream : List InputEvent) (key : Key) (i : Nat) : Prop where
  press : ∃ ev, stream[i]? = some ev ∧ ev.type = evKey ∧ ev.value = 1 ∧ ev.code = key.1
  scan : scanAt stream i = key.2

structure ReleaseAt (stream : List InputEvent) (key : Key) (i : Nat) : Prop where
  release : ∃ ev, stream[i]? = some ev ∧ ev.type = evKey ∧ ev.value ≠ 1 ∧ ev.value ≠ 2 ∧
    ev.code = key.1
  scan : scanAt stream i = key.2

/-- Each key's press is followed by its release, with the same scan code. -/
def Paired (stream : List InputEvent) : Prop :=
  ∀ key i, PressAt stream key i → ∃ j, i < j ∧ ReleaseAt stream key j

/-- The release that answers a press at `i`: the key's first one after it. -/
structure Answers (stream : List InputEvent) (key : Key) (i j : Nat) : Prop where
  later : i < j
  release : ReleaseAt stream key j
  first : ∀ m, i < m → m < j → ¬ ReleaseAt stream key m

theorem scanAt_append {stream : List InputEvent} {i : Nat} (h : i ≤ stream.length)
    (more : List InputEvent) : scanAt (stream ++ more) i = scanAt stream i := by
  rw [scanAt, List.take_append_of_le_length h, scanAt]

theorem pressAt_append {stream more : List InputEvent} {key : Key} {i : Nat} (h : i < stream.length) :
    PressAt (stream ++ more) key i ↔ PressAt stream key i := by
  constructor
  · rintro ⟨hpress, hscan⟩
    rw [List.getElem?_append_left h] at hpress
    exact ⟨hpress, scanAt_append h.le more ▸ hscan⟩
  · rintro ⟨hpress, hscan⟩
    refine ⟨?_, (scanAt_append h.le more).trans hscan⟩
    rw [List.getElem?_append_left h]
    exact hpress

theorem releaseAt_append {stream more : List InputEvent} {key : Key} {i : Nat}
    (h : i < stream.length) : ReleaseAt (stream ++ more) key i ↔ ReleaseAt stream key i := by
  constructor
  · rintro ⟨hrelease, hscan⟩
    rw [List.getElem?_append_left h] at hrelease
    exact ⟨hrelease, scanAt_append h.le more ▸ hscan⟩
  · rintro ⟨hrelease, hscan⟩
    refine ⟨?_, (scanAt_append h.le more).trans hscan⟩
    rw [List.getElem?_append_left h]
    exact hrelease

theorem ReleaseAt.lt {stream : List InputEvent} {key : Key} {i : Nat} (h : ReleaseAt stream key i) :
    i < stream.length := by
  obtain ⟨ev, hev, _⟩ := h.release
  exact (List.getElem?_eq_some_iff.mp hev).1

theorem PressAt.lt {stream : List InputEvent} {key : Key} {i : Nat} (h : PressAt stream key i) :
    i < stream.length := by
  obtain ⟨ev, hev, _⟩ := h.press
  exact (List.getElem?_eq_some_iff.mp hev).1

theorem answers_append {stream more : List InputEvent} {key : Key} {i j : Nat}
    (h : j < stream.length) : Answers (stream ++ more) key i j ↔ Answers stream key i j := by
  constructor
  · rintro ⟨hlater, hrelease, hfirst⟩
    exact ⟨hlater, (releaseAt_append h).mp hrelease, fun m hi hj hm =>
      hfirst m hi hj ((releaseAt_append (hj.trans h)).mpr hm)⟩
  · rintro ⟨hlater, hrelease, hfirst⟩
    exact ⟨hlater, (releaseAt_append h).mpr hrelease, fun m hi hj hm =>
      hfirst m hi hj ((releaseAt_append (hj.trans h)).mp hm)⟩

theorem Answers.unique {stream : List InputEvent} {key : Key} {i j j' : Nat}
    (h : Answers stream key i j) (h' : Answers stream key i j') : j = j' := by
  obtain hlt | heq | hgt := Nat.lt_trichotomy j j'
  · exact absurd h.release (h'.first j h.later hlt)
  · exact heq
  · exact absurd h'.release (h.first j' h'.later hgt)

theorem Paired.answers {stream : List InputEvent} (h : Paired stream) {key : Key} {i : Nat}
    (hpress : PressAt stream key i) : ∃ j, Answers stream key i j := by
  classical
  have hex := h key i hpress
  refine ⟨Nat.find hex, (Nat.find_spec hex).1, (Nat.find_spec hex).2, fun m hi hj hm => ?_⟩
  exact Nat.find_min hex hj ⟨hi, hm⟩

/-! ### The event loop -/

theorem onEvent_scan (R : Reader) (l : Loop) (ev : InputEvent) :
    (R.onEvent l ev).1.lastMscScan = scanAfter l.lastMscScan ev := by
  unfold Reader.onEvent scanAfter
  by_cases hmsc : ev.type = evMsc ∧ ev.code = mscScan
  · rw [if_pos hmsc, if_pos hmsc]
  · rw [if_neg hmsc, if_neg hmsc]
    by_cases htype : ev.type ≠ evKey
    · rw [if_pos htype, if_pos htype]
    · rw [if_neg htype, if_neg htype]
      cases R.resolveLogicalKey ev.code l.lastMscScan with
      | none => rfl
      | some logical =>
        dsimp only
        split_ifs <;> rfl

/-- An edge is emitted for a press or a release of the key that it names. -/
theorem onEvent_emits {R : Reader} {l : Loop} {ev : InputEvent} {remKey : String} {edge : Edge}
    (h : (R.onEvent l ev).2 = some (remKey, edge)) : ev.type = evKey ∧
      R.resolveLogicalKey ev.code l.lastMscScan = some remKey ∧
      (edge = .down ∧ ev.value = 1 ∨ edge = .up ∧ ev.value ≠ 1 ∧ ev.value ≠ 2) := by
  unfold Reader.onEvent at h
  by_cases hmsc : ev.type = evMsc ∧ ev.code = mscScan
  · rw [if_pos hmsc] at h
    cases h
  · rw [if_neg hmsc] at h
    by_cases htype : ev.type ≠ evKey
    · rw [if_pos htype] at h
      cases h
    · rw [if_neg htype] at h
      cases hkey : R.resolveLogicalKey ev.code l.lastMscScan with
      | none =>
        rw [hkey] at h
        cases h
      | some logical =>
        rw [hkey] at h
        dsimp only at h
        split_ifs at h with hrepeat hdown hpressed
        · cases h
          exact ⟨not_not.mp htype, rfl, .inl ⟨rfl, hdown⟩⟩
        · cases h
          exact ⟨not_not.mp htype, rfl, .inr ⟨rfl, hdown, hrepeat⟩⟩

/-- Every release of a mapped key emits an up edge, whatever is in `pressed`. -/
theorem onEvent_release {R : Reader} {l : Loop} {ev : InputEvent} {remKey : String}
    (htype : ev.type = evKey) (hkey : R.resolveLogicalKey ev.code l.lastMscScan = some remKey)
    (hdown : ev.value ≠ 1) (hrepeat : ev.value ≠ 2) : (R.onEvent l ev).2 = some (remKey, .up) := by
  have hmsc : ¬ (ev.type = evMsc ∧ ev.code = mscScan) := by
    rintro ⟨h, _⟩
    rw [htype] at h
    exact absurd h (by decide)
  unfold Reader.onEvent
  rw [if_neg hmsc, if_neg (not_not.mpr htype), hkey]
  simp only [if_neg hrepeat, if_neg hdown]

/-! ### What has got into the queue -/

/-- The session's queued edges, delivered or not, oldest first. -/
def State.log (s : State cap) : List Queued := s.delivered ++ s.queue.items

/-- The edge of the event at `i`: a press or a release of a key that the map names `remKey`. -/
def EmittedAt (R : Reader) (stream : List InputEvent) (e : Queued) (i : Nat) : Prop :=
  ∃ key : Key, R.resolveLogicalKey key.1 key.2 = some e.remKey ∧
    (e.edge = .down ∧ PressAt stream key i ∨ e.edge = .up ∧ ReleaseAt stream key i)

/-- The log is in reading order and tells what was read. -/
structure Logged (R : Reader) (s : State cap) : Prop where
  scan : s.loop.lastMscScan = s.read.foldl scanAfter none
  emitted : ∀ e ∈ s.log, ∀ i, e.read = some i → EmittedAt R s.read e i
  sorted : s.log.Pairwise fun a b => ∀ i j, a.read = some i → b.read = some j → i < j

theorem EmittedAt.lt {R : Reader} {stream : List InputEvent} {e : Queued} {i : Nat}
    (h : EmittedAt R stream e i) : i < stream.length := by
  obtain ⟨key, _, ⟨_, hpress⟩ | ⟨_, hrelease⟩⟩ := h
  · exact hpress.lt
  · exact hrelease.lt

theorem EmittedAt.append {R : Reader} {stream : List InputEvent} {e : Queued} {i : Nat}
    (h : EmittedAt R stream e i) (more : List InputEvent) : EmittedAt R (stream ++ more) e i := by
  have hlt := h.lt
  obtain ⟨key, hkey, hcase⟩ := h
  refine ⟨key, hkey, ?_⟩
  rw [pressAt_append hlt, releaseAt_append hlt]
  exact hcase

theorem scanAt_length (stream more : List InputEvent) :
    scanAt (stream ++ more) stream.length = stream.foldl scanAfter none := by
  rw [scanAt_append (Nat.le_refl _), scanAt, List.take_length]

/-- What the next event emits is an edge of the key pressed or released. -/
theorem emitted_emittedAt {R : Reader} {s : State cap} (hs : Logged R s) {ev : InputEvent}
    {e : Queued} (h : e ∈ s.emitted R ev) :
    e.read = some s.read.length ∧ EmittedAt R (s.read ++ [ev]) e s.read.length := by
  obtain ⟨⟨remKey, edge⟩, hmem, rfl⟩ := List.mem_map.mp h
  have hemits : (R.onEvent s.loop ev).2 = some (remKey, edge) := Option.mem_toList.mp hmem
  obtain ⟨htype, hkey, hvalue⟩ := onEvent_emits hemits
  refine ⟨rfl, (ev.code, s.loop.lastMscScan), hkey, ?_⟩
  have hscan : scanAt (s.read ++ [ev]) s.read.length = s.loop.lastMscScan := by
    rw [scanAt_length, hs.scan]
  have hev : (s.read ++ [ev])[s.read.length]? = some ev := List.getElem?_concat_length
  obtain ⟨hedge, hdown⟩ | ⟨hedge, hdown, hrepeat⟩ := hvalue
  · exact .inl ⟨hedge, ⟨ev, hev, htype, hdown, rfl⟩, hscan⟩
  · exact .inr ⟨hedge, ⟨ev, hev, htype, hdown, hrepeat, rfl⟩, hscan⟩

/-- A step reads an event and queues what fits of its edge, or moves the oldest edge on. -/
theorem step_cases {R : Reader} {s t : State cap} {e : Event} (h : step R s e = some t) :
    (∃ ev, e = .input ev ∧ t.loop = (R.onEvent s.loop ev).1 ∧ t.read = s.read ++ [ev] ∧
      t.log = s.log ++ (s.emitted R ev).take s.queue.space) ∨
    (e = .delivers ∧ t.loop = s.loop ∧ t.read = s.read ∧ t.log = s.log) := by
  cases e with
  | input ev =>
    cases h
    exact .inl ⟨ev, rfl, rfl, rfl, by simp [State.log]⟩
  | delivers =>
    simp only [step] at h
    split at h
    · cases h
    · next e rest hitems =>
      cases h
      exact .inr ⟨rfl, rfl, rfl, by simp [State.log, hitems]⟩

theorem logged_opened (R : Reader) (before : Fifo (String × Edge) cap) :
    Logged R (State.opened before) := by
  have hold : ∀ e ∈ (State.opened before).log, e.read = none := by
    intro e he
    obtain ⟨p, _, rfl⟩ := List.mem_map.mp (show e ∈ before.items.map _ from he)
    rfl
  refine ⟨rfl, fun e he i hi => ?_, ?_⟩
  · rw [hold e he] at hi
    cases hi
  · refine List.Pairwise.imp_of_mem ?_ (List.pairwise_of_forall (R := fun _ _ => True) fun _ _ => trivial)
    intro a b ha _ _ i j hi
    rw [hold a ha] at hi
    cases hi

theorem logged_step {R : Reader} {s t : State cap} {e : Event} (hs : Logged R s)
    (h : step R s e = some t) : Logged R t := by
  obtain ⟨ev, rfl, hloop, hread, hlog⟩ | ⟨rfl, hloop, hread, hlog⟩ := step_cases h
  · have hnew : ∀ e ∈ (s.emitted R ev).take s.queue.space, e.read = some s.read.length ∧
        EmittedAt R (s.read ++ [ev]) e s.read.length :=
      fun e he => emitted_emittedAt hs (List.mem_of_mem_take he)
    refine ⟨?_, fun e he i hi => ?_, ?_⟩
    · rw [hloop, hread, onEvent_scan, hs.scan, List.foldl_concat]
    · rw [hread]
      rw [hlog] at he
      obtain hold | hlast := List.mem_append.mp he
      · exact (hs.emitted e hold i hi).append [ev]
      · obtain ⟨hlen, hemitted⟩ := hnew e hlast
        obtain rfl := Option.some.inj (hlen.symm.trans hi)
        exact hemitted
    · rw [hlog]
      refine List.pairwise_append.mpr ⟨hs.sorted, ?_, fun a ha b hb i j hi hj => ?_⟩
      · refine List.Pairwise.sublist (List.take_sublist _ _) ?_
        unfold State.emitted
        cases (R.onEvent s.loop ev).2 with
        | none => exact .nil
        | some e => exact List.pairwise_singleton _ _
      · obtain rfl := Option.some.inj ((hnew b hb).1.symm.trans hj)
        exact (hs.emitted a ha i hi).lt
  · exact ⟨by rw [hloop, hread]; exact hs.scan, by rw [hread, hlog]; exact hs.emitted,
      by rw [hlog]; exact hs.sorted⟩

/-! ### Presses and their releases -/

/-- The key's press at `i` has got into the queue, and the key is still held. -/
structure Held (s : State cap) (key : Key) (i : Nat) : Prop where
  press : PressAt s.read key i
  queued : ∃ e ∈ s.log, e.edge = .down ∧ e.read = some i
  held : ∀ m, i < m → ¬ ReleaseAt s.read key m

/-- The queue has room when a key is released whose press has got in. -/
def Room (s : State cap) : Event → Prop
  | .input ev => ∀ key i, Held s key i → ReleaseAt (s.read ++ [ev]) key s.read.length →
      0 < s.queue.space
  | .delivers => True

/-- Every down edge passed to `on_edge` has its up edge, that of the release which answers the
press, passed after it. -/
def Released (s : State cap) : Prop :=
  ∀ before e after i, s.delivered = before ++ e :: after → e.edge = .down → e.read = some i →
    ∃ key j, PressAt s.read key i ∧ Answers s.read key i j ∧
      ∃ e' ∈ after, e'.remKey = e.remKey ∧ e'.edge = .up ∧ e'.read = some j

theorem PressAt.unique {stream : List InputEvent} {key key' : Key} {i : Nat}
    (h : PressAt stream key i) (h' : PressAt stream key' i) : key = key' := by
  obtain ⟨⟨ev, hev, _, _, hcode⟩, hscan⟩ := h
  obtain ⟨⟨ev', hev', _, _, hcode'⟩, hscan'⟩ := h'
  obtain rfl := Option.some.inj (hev.symm.trans hev')
  exact Prod.ext (hcode.symm.trans hcode') (hscan.symm.trans hscan')

/-- The releases read so far whose press got in have got in too. -/
def Answered (s : State cap) : Prop :=
  ∀ e ∈ s.log, ∀ i key j, e.edge = .down → e.read = some i → PressAt s.read key i →
    Answers s.read key i j → ∃ e' ∈ s.log, e'.remKey = e.remKey ∧ e'.edge = .up ∧ e'.read = some j

theorem Logged.press {R : Reader} {s : State cap} (hs : Logged R s) {e : Queued} (he : e ∈ s.log)
    {i : Nat} (hdown : e.edge = .down) (hi : e.read = some i) :
    ∃ key : Key, R.resolveLogicalKey key.1 key.2 = some e.remKey ∧ PressAt s.read key i := by
  obtain ⟨key, hkey, ⟨_, hpress⟩ | ⟨hup, _⟩⟩ := hs.emitted e he i hi
  · exact ⟨key, hkey, hpress⟩
  · rw [hup] at hdown
    cases hdown

/-- A release of a mapped key emits its up edge. -/
theorem release_emitted {R : Reader} {s : State cap} (hs : Logged R s) {ev : InputEvent} {key : Key}
    {remKey : String} (hkey : R.resolveLogicalKey key.1 key.2 = some remKey)
    (h : ReleaseAt (s.read ++ [ev]) key s.read.length) :
    s.emitted R ev = [⟨remKey, .up, some s.read.length⟩] := by
  obtain ⟨⟨ev', hev, htype, hdown, hrepeat, hcode⟩, hscan⟩ := h
  obtain rfl := Option.some.inj (List.getElem?_concat_length.symm.trans hev)
  rw [scanAt_length, ← hs.scan] at hscan
  rw [← hcode, ← hscan] at hkey
  rw [State.emitted, onEvent_release htype hkey hdown hrepeat]
  rfl

theorem answered_step {R : Reader} {s t : State cap} {e : Event} (hs : Logged R s) (ha : Answered s)
    (hroom : Room s e) (h : step R s e = some t) : Answered t := by
  obtain ⟨ev, rfl, _, hread, hlog⟩ | ⟨rfl, _, hread, hlog⟩ := step_cases h
  · intro e he i key j hdown hi hpress hanswers
    rw [hread] at hpress hanswers
    rw [hlog] at he ⊢
    have hj := hanswers.release.lt
    rw [List.length_append, List.length_singleton] at hj
    obtain hold | hnew := List.mem_append.mp he
    · have hlt := (hs.emitted e hold i hi).lt
      have hpress := (pressAt_append hlt).mp hpress
      by_cases hlast : j < s.read.length
      · obtain ⟨e', he', hup⟩ := ha e hold i key j hdown hi hpress ((answers_append hlast).mp hanswers)
        exact ⟨e', List.mem_append_left _ he', hup⟩
      · obtain rfl : j = s.read.length := by omega
        have hheld : Held s key i := ⟨hpress, ⟨e, hold, hdown, hi⟩, fun m hm hrelease =>
          hanswers.first m hm hrelease.lt ((releaseAt_append hrelease.lt).mpr hrelease)⟩
        have hspace := hroom key i hheld hanswers.release
        obtain ⟨key', hkey, hpress'⟩ := hs.press hold hdown hi
        obtain rfl := hpress.unique hpress'
        rw [release_emitted hs hkey hanswers.release, List.take_of_length_le (show 1 ≤ _ from hspace)]
        exact ⟨_, List.mem_append_right _ (List.mem_singleton_self _), rfl, rfl, rfl⟩
    · -- a press just read is not released yet
      have hlen := (emitted_emittedAt hs (List.mem_of_mem_take hnew)).1
      obtain rfl := Option.some.inj (hlen.symm.trans hi)
      exact absurd hanswers.later (by omega)
  · unfold Answered
    rw [hread, hlog]
    exact ha

/-- What a run from `s` adds comes behind what is there. -/
structure Grows (s t : State cap) : Prop where
  read : ∃ more, t.read = s.read ++ more
  log : ∃ more, t.log = s.log ++ more ∧ ∀ e ∈ more, ∀ i, e.read = some i → s.read.length ≤ i

theorem grows_step {R : Reader} {s t u : State cap} {e : Event} (ht : Logged R t) (h : Grows s t)
    (hstep : step R t e = some u) : Grows s u := by
  obtain ⟨more, hmore⟩ := h.read
  obtain ⟨added, hadded, hbehind⟩ := h.log
  obtain ⟨ev, rfl, _, hread, hlog⟩ | ⟨rfl, _, hread, hlog⟩ := step_cases hstep
  · refine ⟨⟨more ++ [ev], by rw [hread, hmore, List.append_assoc]⟩,
      ⟨added ++ (t.emitted R ev).take t.queue.space, by rw [hlog, hadded, List.append_assoc], ?_⟩⟩
    intro e he i hi
    obtain hold | hnew := List.mem_append.mp he
    · exact hbehind e hold i hi
    · have hlen := (emitted_emittedAt ht (List.mem_of_mem_take hnew)).1
      obtain rfl := Option.some.inj (hlen.symm.trans hi)
      rw [hmore, List.length_append]
      omega
  · exact ⟨⟨more, by rw [hread, hmore]⟩, ⟨added, by rw [hlog, hadded], hbehind⟩⟩

theorem grows_execute {R : Reader} {s t : State cap} {es : List Event} (hs : Logged R s)
    (h : execute (step R) s es = some t) : Grows s t := by
  have hboth : Logged R t ∧ Grows s t :=
    (reachable_of_execute h).invariant (P := fun t => Logged R t ∧ Grows s t)
      ⟨hs, ⟨⟨[], by simp⟩, ⟨[], by simp, by simp⟩⟩⟩
      fun t e u ht _ hstep => ⟨logged_step ht.1 hstep, grows_step ht.1 ht.2 hstep⟩
  exact hboth.2

theorem logged_execute {R : Reader} {before : Fifo (String × Edge) cap} {s : State cap}
    {es : List Event} (h : execute (step R) (.opened before) es = some s) : Logged R s :=
  (reachable_of_execute h).invariant (logged_opened R before) fun _ _ _ ht _ hstep =>
    logged_step ht hstep

theorem released_of_room {R : Reader} {before : Fifo (String × Edge) cap} {s : State cap}
    {es : List Event} (h : execute (step R) (.opened before) es = some s)
    (hdrained : s.queue.items = []) (hpaired : Paired s.read)
    (hroom : Along (step R) Room (.opened before) es) : Released s := by
  have hopened : Answered (State.opened before) := by
    intro e _ i key j _ _ hpress
    exact absurd hpress.lt (Nat.not_lt_zero _)
  have hboth : Logged R s ∧ Answered s :=
    (reachableBy_of_execute h hroom).invariant (P := fun s => Logged R s ∧ Answered s)
      ⟨logged_opened R before, hopened⟩ fun t e u ht hok hstep =>
        ⟨logged_step ht.1 hstep, answered_step ht.1 ht.2 hok hstep⟩
  obtain ⟨hs, ha⟩ := hboth
  have hlog : s.log = s.delivered := by rw [State.log, hdrained, List.append_nil]
  intro front e after i hsplit hdown hi
  have he : e ∈ s.log := by simp [hlog, hsplit]
  obtain ⟨key, _, hpress⟩ := hs.press he hdown hi
  obtain ⟨j, hanswers⟩ := hpaired.answers hpress
  obtain ⟨e', he', hkey, hup, hj⟩ := ha e he i key j hdown hi hpress hanswers
  refine ⟨key, j, hpress, hanswers, e', ?_, hkey, hup, hj⟩
  have hsorted := hs.sorted
  rw [hlog, hsplit] at he' hsorted
  obtain hfront | hrest := List.mem_append.mp he'
  · -- an edge in front was read before
    have hlt := (List.pairwise_append.mp hsorted).2.2 e' hfront e List.mem_cons_self j i hj hi
    exact absurd hanswers.later (by omega)
  · obtain rfl | hafter := List.mem_cons.mp hrest
    · rw [hup] at hdown
      cases hdown
    · exact hafter

theorem room_of_released {R : Reader} {before : Fifo (String × Edge) cap} {s : State cap}
    {es : List Event} (h : execute (step R) (.opened before) es = some s)
    (hdrained : s.queue.items = []) (hreleased : Released s) :
    Along (step R) Room (.opened before) es := by
  by_contra hnot
  obtain ⟨es₁, e, es₂, u, rfl, hu, hfull⟩ := exists_of_not_along h hnot
  cases e with
  | delivers => exact hfull trivial
  | input ev =>
    simp only [Room, not_forall, Nat.not_lt, Nat.le_zero] at hfull
    obtain ⟨key, i, hheld, hrelease, hspace⟩ := hfull
    obtain ⟨e, he, hdown, hi⟩ := hheld.queued
    have hlogged := logged_execute hu
    rw [execute_append, hu, Option.bind_some] at h
    obtain ⟨t, ht, hrest⟩ := Option.bind_eq_some_iff.mp h
    obtain ⟨ev', heq, _, hread, hlog⟩ | ⟨heq, _⟩ := step_cases ht
    · cases heq
      -- the release's edge is dropped
      rw [hspace, List.take_zero, List.append_nil] at hlog
      have hgrows := grows_execute (logged_step hlogged ht) hrest
      obtain ⟨more, hmore⟩ := hgrows.read
      obtain ⟨added, hadded, hbehind⟩ := hgrows.log
      have hdelivered : s.delivered = s.log := by rw [State.log, hdrained, List.append_nil]
      have hes : e ∈ s.delivered := by
        rw [hdelivered, hadded, hlog]
        exact List.mem_append_left _ he
      obtain ⟨front, after, hsplit⟩ := List.append_of_mem hes
      obtain ⟨key', j, hpress, hanswers, e', he', _, _, hj⟩ :=
        hreleased front e after i hsplit hdown hi
      have hlt := hheld.press.lt
      have hlast : u.read.length < t.read.length := by simp [hread]
      have hpress' : PressAt s.read key i := by
        rw [hmore, hread, List.append_assoc]
        exact (pressAt_append hlt).mpr hheld.press
      obtain rfl := hpress.unique hpress'
      have hanswer : Answers s.read key' i u.read.length := by
        rw [hmore]
        refine (answers_append hlast).mpr ?_
        rw [hread]
        exact ⟨hlt, hrelease, fun m hm hlt' hm' => hheld.held m hm ((releaseAt_append hlt').mp hm')⟩
      obtain rfl := hanswers.unique hanswer
      have hmem : e' ∈ s.log := by
        rw [← hdelivered, hsplit]
        exact List.mem_append_right _ (List.mem_cons_of_mem _ he')
      rw [hadded, hlog] at hmem
      obtain hold | hnew := List.mem_append.mp hmem
      · exact absurd (hlogged.emitted e' hold _ hj).lt (Nat.lt_irrefl _)
      · exact absurd (hbehind e' hnew _ hj) (by omega)
    · cases heq

/-- Once the stream is read and the queue drained, every reported press has its release reported
exactly if the queue had room at each release of a key whose press had got in. -/
theorem released_iff_room {R : Reader} {before : Fifo (String × Edge) cap} {s : State cap}
    {es : List Event} (h : execute (step R) (.opened before) es = some s)
    (hdrained : s.queue.items = []) (hpaired : Paired s.read) :
    Released s ↔ Along (step R) Room (.opened before) es :=
  ⟨room_of_released h hdrained, released_of_room h hdrained hpaired⟩

/-! ### A slow worker -/

/-- Volume up is pressed and released `n` times. -/
def presses : Nat → List InputEvent
  | 0 => []
  | n + 1 => ⟨evKey, 115, 1⟩ :: ⟨evKey, 115, 0⟩ :: presses n

theorem presses_at (n i : Nat) : (presses n)[i]? =
    if i < 2 * n then some ⟨evKey, 115, if i % 2 = 0 then 1 else 0⟩ else none := by
  induction n generalizing i with
  | zero => rfl
  | succ n ih =>
    match i with
    | 0 => simp [presses]
    | 1 =>
      rw [if_pos (by omega)]
      rfl
    | i + 2 =>
      have hlt : i + 2 < 2 * (n + 1) ↔ i < 2 * n := by omega
      simp [presses, ih, hlt]

theorem scanAt_presses (n i : Nat) : scanAt (presses n) i = none := by
  induction n generalizing i with
  | zero => simp [scanAt, presses]
  | succ n ih =>
    match i with
    | 0 | 1 => rfl
    | i + 2 => exact ih i

theorem paired_presses (n : Nat) : Paired (presses n) := by
  rintro key i ⟨⟨ev, hev, _, hvalue, hcode⟩, hscan⟩
  rw [presses_at] at hev
  split at hev
  · next hlt =>
    cases hev
    by_cases heven : i % 2 = 0
    · refine ⟨i + 1, Nat.lt_succ_self i, ⟨⟨evKey, 115, 0⟩, ?_, rfl, by decide, by decide, hcode⟩, ?_⟩
      · rw [presses_at, if_pos (by omega), if_neg (by omega)]
      · rw [scanAt_presses, ← hscan, scanAt_presses]
    · simp [heven] at hvalue
  · cases hev

theorem presses_append (m n : Nat) : presses m ++ presses n = presses (m + n) := by
  induction m with
  | zero => rw [Nat.zero_add]; rfl
  | succ m ih => rw [Nat.succ_add, presses, presses, List.cons_append, List.cons_append, ih]

def Event.read? : Event → Option InputEvent
  | .input ev => some ev
  | .delivers => none

theorem read_execute {R : Reader} {s t : State cap} {es : List Event}
    (h : execute (step R) s es = some t) : t.read = s.read ++ es.filterMap Event.read? := by
  induction es generalizing s with
  | nil =>
    obtain rfl : s = t := by simpa [execute] using h
    simp
  | cons e es ih =>
    obtain ⟨u, hu, hrest⟩ := Option.bind_eq_some_iff.mp h
    rw [ih hrest]
    obtain ⟨ev, rfl, _, hread, _⟩ | ⟨rfl, _, hread, _⟩ := step_cases hu
    · rw [hread, List.append_assoc]
      rfl
    · rw [hread]
      rfl

/-- The worker keeps up. -/
def promptWorker : List Event := (presses 1).flatMap fun ev => [.input ev, .delivers]

theorem released_iff_room_prompt : ∃ s : State 512,
    execute (step sampleReader) (.opened Fifo.empty) promptWorker = some s ∧
    s.delivered = [⟨"rem_vol_up", .down, some 0⟩, ⟨"rem_vol_up", .up, some 1⟩] ∧ Released s := by
  have hspace : Along (step sampleReader) (fun s _ => 0 < s.queue.space)
      (.opened Fifo.empty : State 512) promptWorker := by
    decide +kernel
  have hroom : Along (step sampleReader) Room (.opened Fifo.empty : State 512) promptWorker :=
    hspace.mono fun s e h => by
      cases e with
      | input ev => exact fun _ _ _ _ => h
      | delivers => trivial
  exact ⟨_, rfl, by decide +kernel, (released_iff_room (show execute (step sampleReader)
    (.opened Fifo.empty : State 512) promptWorker = some _ from rfl) rfl (paired_presses 1)).mpr hroom⟩

/-- The queue drains in order. -/
theorem execute_drain (R : Reader) (s : State cap) : ∃ t,
    execute (step R) s (List.replicate s.queue.items.length .delivers) = some t ∧
    t.queue.items = [] ∧ t.delivered = s.delivered ++ s.queue.items ∧ t.read = s.read := by
  generalize hn : s.queue.items.length = n
  induction n generalizing s with
  | zero =>
    have hempty := List.eq_nil_of_length_eq_zero hn
    exact ⟨s, rfl, hempty, by rw [hempty, List.append_nil], rfl⟩
  | succ n ih =>
    obtain ⟨e, rest, hitems⟩ := List.exists_cons_of_length_eq_add_one hn
    have hstep : step R s .delivers =
        some { s with queue := s.queue.drop 1, delivered := s.delivered ++ [e] } := by
      simp only [step, hitems]
    have hrest : (s.queue.drop 1).items = rest := by rw [Fifo.drop_items, hitems]; rfl
    obtain ⟨t, ht, hqueue, hdelivered, hread⟩ :=
      ih { s with queue := s.queue.drop 1, delivered := s.delivered ++ [e] } (by
        rw [hitems] at hn
        rw [hrest]
        exact Nat.succ.inj hn)
    refine ⟨t, ?_, hqueue, ?_, hread⟩
    · rw [List.replicate_succ, execute_cons hstep, ht]
    · rw [hdelivered, hrest, hitems, List.append_assoc, List.singleton_append]

/-- Volume up alone goes down and up again. -/
theorem onEvent_press : sampleReader.onEvent {} ⟨evKey, 115, 1⟩ =
    ({ pressed := [("rem_vol_up", 115)] }, some ("rem_vol_up", .down)) := by
  decide +kernel

theorem onEvent_unpress : sampleReader.onEvent { pressed := [("rem_vol_up", 115)] } ⟨evKey, 115, 0⟩ =
    ({}, some ("rem_vol_up", .up)) := by
  decide +kernel

/-- A press and its release are read: the edges get in as far as there is room. -/
theorem execute_press {s : State cap} (hloop : s.loop = {}) : ∃ t,
    execute (step sampleReader) s ((presses 1).map .input) = some t ∧ t.loop = {} ∧
    t.queue.items = s.queue.items ++ [⟨"rem_vol_up", .down, some s.read.length⟩,
      ⟨"rem_vol_up", .up, some (s.read.length + 1)⟩].take s.queue.space ∧
    t.delivered = s.delivered := by
  let pressed : State cap := { s with
    loop := { pressed := [("rem_vol_up", 115)] }
    read := s.read ++ [⟨evKey, 115, 1⟩]
    queue := s.queue.put [⟨"rem_vol_up", .down, some s.read.length⟩] }
  have hpress : step sampleReader s (.input ⟨evKey, 115, 1⟩) = some pressed := by
    simp only [step, State.emitted, hloop, onEvent_press]
    rfl
  let released : State cap := { pressed with
    loop := {}
    read := pressed.read ++ [⟨evKey, 115, 0⟩]
    queue := pressed.queue.put [⟨"rem_vol_up", .up, some pressed.read.length⟩] }
  have hrelease : step sampleReader pressed (.input ⟨evKey, 115, 0⟩) = some released := by
    simp only [step, State.emitted, pressed, onEvent_unpress]
    rfl
  refine ⟨released, ?_, rfl, ?_, rfl⟩
  · rw [presses, presses, List.map_cons, List.map_cons, List.map_nil, execute_cons hpress,
      execute_cons hrelease]
    rfl
  · have hlen : pressed.read.length = s.read.length + 1 := by simp [pressed]
    have hspace : pressed.queue.space = s.queue.space - 1 := by
      simp only [pressed, Fifo.space, Fifo.put_items, List.length_append, List.length_take,
        List.length_singleton]
      omega
    simp only [released, Fifo.put_items, hspace, hlen]
    simp only [pressed, Fifo.put_items, List.append_assoc]
    match s.queue.space with
    | 0 | 1 => rfl
    | n + 2 => simp

/-- As long as there is room both edges of every press get in. -/
theorem execute_presses (n : Nat) {s : State cap} (hloop : s.loop = {})
    (hroom : s.queue.items.length + 2 * n ≤ cap) : ∃ t,
    execute (step sampleReader) s ((presses n).map .input) = some t ∧ t.loop = {} ∧
    t.queue.items.length = s.queue.items.length + 2 * n := by
  induction n generalizing s with
  | zero => exact ⟨s, rfl, hloop, rfl⟩
  | succ n ih =>
    obtain ⟨t, ht, htloop, htitems, _⟩ := execute_press hloop
    have hlen : t.queue.items.length = s.queue.items.length + 2 := by
      rw [htitems, List.take_of_length_le (by simp [Fifo.space]; omega), List.length_append]
      rfl
    obtain ⟨u, hu, huloop, hulen⟩ := ih htloop (by rw [hlen]; omega)
    refine ⟨u, ?_, huloop, by rw [hulen, hlen]; omega⟩
    have hsplit : presses (n + 1) = presses 1 ++ presses n := by
      rw [presses_append, Nat.add_comm]
    rw [hsplit, List.map_append, execute_append, ht, Option.bind_some, hu]

/-- The worker hangs in its first call of `on_edge` as volume up is pressed over and over, and takes
one edge more between a press and its release. -/
def slowWorker : List Event :=
  (presses 256).map .input ++ .delivers :: ((presses 1).map .input ++ List.replicate 512 .delivers)

theorem read_slowWorker : slowWorker.filterMap Event.read? = presses 257 := by
  have hinput : Event.read? ∘ Event.input = some := rfl
  rw [slowWorker, List.filterMap_append, List.filterMap_cons_none rfl, List.filterMap_append,
    List.filterMap_map, List.filterMap_map, hinput, List.filterMap_some, List.filterMap_some,
    List.filterMap_replicate_of_none rfl, List.append_nil, presses_append]

theorem length_presses (n : Nat) : (presses n).length = 2 * n := by
  induction n with
  | zero => rfl
  | succ n ih =>
    rw [presses, List.length_cons, List.length_cons, ih]
    omega

theorem not_released_slowWorker : ∃ s : State 512,
    execute (step sampleReader) (.opened Fifo.empty) slowWorker = some s ∧ s.queue.items = [] ∧
    Paired s.read ∧ s.delivered.getLast? = some ⟨"rem_vol_up", .down, some 512⟩ ∧ ¬ Released s := by
  obtain ⟨t, ht, htloop, htlen⟩ :=
    execute_presses 256 (s := (.opened Fifo.empty : State 512)) rfl (Nat.le_refl 512)
  -- the queue is full, and the worker takes one
  obtain ⟨e, rest, hitems⟩ := List.exists_cons_of_length_eq_add_one htlen
  have hrest : rest.length = 511 := by
    rw [hitems] at htlen
    exact Nat.succ.inj htlen
  let u : State 512 := { t with queue := t.queue.drop 1, delivered := t.delivered ++ [e] }
  have hu : step sampleReader t .delivers = some u := by simp only [step, hitems, u]
  have huitems : u.queue.items = rest := by
    show (t.queue.drop 1).items = rest
    rw [Fifo.drop_items, hitems]
    rfl
  have hspace : u.queue.space = 1 := by rw [Fifo.space, huitems, hrest]
  have huread : u.read.length = 512 := by
    show t.read.length = 512
    have hinput : Event.read? ∘ Event.input = some := rfl
    rw [read_execute ht, List.filterMap_map, hinput, List.filterMap_some]
    exact length_presses 256
  -- the next press gets in and its release does not
  obtain ⟨v, hv, _, hvitems, _⟩ := execute_press (s := u) htloop
  rw [hspace, huread, huitems] at hvitems
  have hvlen : v.queue.items.length = 512 := by rw [hvitems, List.length_append, hrest]; rfl
  obtain ⟨s, hs, hqueue, hdelivered, _⟩ := execute_drain sampleReader v
  rw [hvlen] at hs
  have hrun : execute (step sampleReader) (.opened Fifo.empty : State 512) slowWorker = some s := by
    rw [slowWorker, execute_append, ht, Option.bind_some, execute_cons hu, execute_append, hv,
      Option.bind_some, hs]
  have hlast : s.delivered.getLast? = some ⟨"rem_vol_up", .down, some 512⟩ := by
    rw [hdelivered, hvitems]
    simp
  have hread : s.read = presses 257 := by
    rw [read_execute hrun, read_slowWorker]
    rfl
  refine ⟨s, hrun, hqueue, hread ▸ paired_presses 257, hlast, fun hreleased => ?_⟩
  obtain ⟨front, hfront⟩ := List.getLast?_eq_some_iff.mp hlast
  obtain ⟨key, j, _, _, e', he', _⟩ := hreleased front _ [] 512 hfront rfl rfl
  cases he'

end PiHub.EdgeQueue

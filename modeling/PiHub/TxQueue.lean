import PiHub.Transition
import PiHub.Fifo
import PiHub.DongleHost

/-! The transmit queue of the dongle link (ble_dongle.py): what the enqueue functions put into it,
what a full queue gives up, and what `release_all` leaves in it. -/
namespace PiHub.TxQueue
open HostFrames DongleHost Transition

/-- `_is_hid_frame`. -/
def isHidFrame (payload : List UInt8) : Bool :=
  (payload.length == 9 && payload.take 1 == [0x01]) ||
    (payload.length == 3 && payload.take 1 == [0x02])

/-- The reports a frame is for. -/
def frameUsage (payload : List UInt8) : Option Usage :=
  if payload.length = 9 ∧ payload.take 1 = [0x01] then some .keyboard
  else if payload.length = 3 ∧ payload.take 1 = [0x02] then some .consumer
  else none

/-- What `release_all` sends. -/
def releaseFrames : List (List UInt8) := [0x01 :: List.replicate 8 0x00, [0x02, 0x00, 0x00]]

/-- What the enqueue functions look at of a `BleDongleLink`. `ser` is the open serial port; ports
are numbered in the order in which they were opened. -/
structure Link (α : Type) (cap : Nat) where
  ser : Option Nat
  state : DongleState
  txQ : Fifo α cap
  deriving DecidableEq

namespace Link
variable {α : Type} {cap : Nat}

def isOpen (l : Link α cap) : Bool := l.ser.isSome

/-- The gate of the hot path. -/
def sends (l : Link α cap) : Bool := l.isOpen && l.state.connected && l.state.ready

def enqueueNowait (l : Link α cap) (x : α) : Link α cap :=
  if !l.sends then l else { l with txQ := l.txQ.putDropOldest x }

def enqueueStrict (l : Link α cap) (x : α) (action : String) : Except String (Link α cap) :=
  if !l.isOpen then .error (action ++ "_not_sent: transport_not_open")
  else if !l.state.connected then .error (action ++ "_not_sent: not_connected")
  else if !l.state.ready then .error (action ++ "_not_sent: not_ready")
  else match l.txQ.putNowait x with
    | some q => .ok { l with txQ := q }
    | none => .error (action ++ "_not_sent: tx_queue_full")

/-- `_drain_hid_frames`: everything is taken out, and what is no HID frame is put back. -/
def drainHidFrames (payload : α → List UInt8) (q : Fifo α cap) : Fifo α cap :=
  (q.items.filter fun x => !isHidFrame (payload x)).foldl
    (fun r x => (r.putNowait x).getD r) Fifo.empty

def enqueuePriorityFrames (payload : α → List UInt8) (l : Link α cap) (frames : List α) :
    Link α cap :=
  if !l.isOpen then l
  else { l with txQ := frames.foldl Fifo.putDropOldest (drainHidFrames payload l.txQ) }

def releaseAll (l : Link (List UInt8) cap) : Link (List UInt8) cap :=
  l.enqueuePriorityFrames id releaseFrames

theorem drainHidFrames_items (payload : α → List UInt8) (q : Fifo α cap) :
    (drainHidFrames payload q).items = q.items.filter fun x => !isHidFrame (payload x) := by
  have hlen : (q.items.filter fun x => !isHidFrame (payload x)).length ≤ cap :=
    Nat.le_trans (List.length_filter_le _ _) q.fits
  rw [drainHidFrames, Fifo.foldl_putNowait, Fifo.put_items_of_fits]
  · rfl
  · simpa [Fifo.space, Fifo.empty] using hlen

/-- A strict call that returns has put the payload behind the others. -/
theorem enqueueStrict_ok {l l' : Link α cap} {x : α} {action : String}
    (h : l.enqueueStrict x action = .ok l') :
    l.sends = true ∧ ∃ q, l.txQ.putNowait x = some q ∧ l' = { l with txQ := q } := by
  unfold enqueueStrict at h
  split at h
  · cases h
  · rename_i hopen
    split at h
    · cases h
    · rename_i hconnected
      split at h
      · cases h
      · rename_i hready
        split at h
        · rename_i q hq
          cases h
          exact ⟨by simp_all [sends], q, hq, rfl⟩
        · cases h

theorem mem_enqueuePriorityFrames {payload : α → List UInt8} {l : Link α cap} {frames : List α}
    {x : α} (h : x ∈ (l.enqueuePriorityFrames payload frames).txQ.items) :
    x ∈ l.txQ.items ∨ l.isOpen = true ∧ x ∈ frames := by
  unfold enqueuePriorityFrames at h
  split at h
  · exact Or.inl h
  · rename_i hopen
    rcases Fifo.mem_foldl_putDropOldest h with hold | hnew
    · rw [drainHidFrames_items] at hold
      exact Or.inl (List.mem_filter.mp hold).1
    · exact Or.inr ⟨by simpa using hopen, hnew⟩

theorem mem_enqueueNowait {l : Link α cap} {x y : α} (h : y ∈ (l.enqueueNowait x).txQ.items) :
    y ∈ l.txQ.items ∨ l.sends = true ∧ y = x := by
  unfold enqueueNowait at h
  split at h
  · exact Or.inl h
  · rename_i hgate
    exact (Fifo.mem_putDropOldest h).imp_right fun heq => ⟨by simpa using hgate, heq⟩

theorem enqueueNowait_items (hcap : 0 < cap) {l : Link α cap} (h : l.sends = true) (x : α) :
    (l.enqueueNowait x).txQ.items = (l.txQ.items ++ [x]).drop (l.txQ.items.length + 1 - cap) := by
  simp [enqueueNowait, h, Fifo.putDropOldest_items hcap]

theorem enqueueNowait_sends (l : Link α cap) (x : α) : (l.enqueueNowait x).sends = l.sends := by
  unfold enqueueNowait
  split <;> rfl

end Link

theorem isHidFrame_eq (payload : List UInt8) : isHidFrame payload = (frameUsage payload).isSome := by
  unfold isHidFrame frameUsage
  by_cases hkb : payload.length = 9 ∧ payload.take 1 = [0x01]
  · simp [hkb]
  · by_cases hcc : payload.length = 3 ∧ payload.take 1 = [0x02]
    · simp [hcc]
    · simp only [if_neg hkb, if_neg hcc, Option.isSome_none, Bool.or_eq_false_iff,
        Bool.and_eq_false_iff, beq_eq_false_iff_ne]
      exact ⟨not_and_or.mp hkb, not_and_or.mp hcc⟩

theorem frameUsage_bytes (f : Frame) : frameUsage f.bytes = some f.usage := by
  obtain ⟨u, report, hsized⟩ := f
  cases u with
  | keyboard => simp [frameUsage, Frame.bytes, Usage.opcode, hsized, Usage.size]
  | consumer => simp [frameUsage, Frame.bytes, Usage.opcode, hsized, Usage.size]

/-! ### `release_all` -/

/-- What the link queues: a report, or a control line. -/
inductive Payload where
  | frame (f : Frame)
  | line (text : List Char) (printable : ∀ c ∈ text, Printable c)

def Payload.bytes : Payload → List UInt8
  | .frame f => f.bytes
  | .line text _ => writeLine text

def Payload.isLine : Payload → Bool
  | .frame _ => false
  | .line _ _ => true

theorem Payload.first_byte (text : List Char) (printable : ∀ c ∈ text, Printable c) :
    ∃ b rest, writeLine text = b :: rest ∧ b ≠ 0x01 ∧ b ≠ 0x02 := by
  rw [writeLine, rstripNewlines_of_printable printable]
  cases text with
  | nil => exact ⟨10, [], rfl, by decide, by decide⟩
  | cons c cs =>
    have hc := printable c (by simp)
    have hlt : c.toNat < 128 := by have := hc.2; omega
    have hval : (UInt8.ofNat c.toNat).toNat = c.toNat := by
      rw [UInt8.toNat_ofNat']; omega
    have hne (b : UInt8) (hb : b.toNat < 0x20) : UInt8.ofNat c.toNat ≠ b := by
      rintro rfl
      have hlow := hc.1
      omega
    exact ⟨UInt8.ofNat c.toNat, encodeAscii (cs ++ ['\n']), by simp [encodeAscii, hlt],
      hne 0x01 (by decide), hne 0x02 (by decide)⟩

theorem Payload.isHidFrame_bytes (p : Payload) : isHidFrame p.bytes = !p.isLine := by
  cases p with
  | frame f => simp [isHidFrame_eq, Payload.bytes, Payload.isLine, frameUsage_bytes]
  | line text printable =>
    obtain ⟨b, rest, hbytes, hkb, hcc⟩ := Payload.first_byte text printable
    simp [isHidFrame, Payload.bytes, Payload.isLine, hbytes, hkb, hcc]

/-- A control line is a frame of neither usage. -/
theorem frameUsage_writeLine {text : List Char} (h : ∀ c ∈ text, Printable c) :
    frameUsage (writeLine text) = none := by
  have hnot := Payload.isHidFrame_bytes (.line text h)
  rw [isHidFrame_eq] at hnot
  exact Option.not_isSome_iff_eq_none.mp (by simpa [Payload.bytes, Payload.isLine] using hnot)

theorem Payload.filter_bytes (ps : List Payload) :
    ((ps.map Payload.bytes).filter fun p => !isHidFrame p) =
      (ps.filter Payload.isLine).map Payload.bytes := by
  rw [List.filter_map]
  congr 1
  apply List.filter_congr
  intro p _
  simp [Payload.isHidFrame_bytes]

/-- After `release_all` the zero reports are the only reports in the queue, and its last items.
Before them stand the control lines that were queued, less the oldest ones that leave them no room:
two at most. -/
theorem releaseAll_queue {cap : Nat} (hcap : 2 ≤ cap) {l : Link (List UInt8) cap}
    (hopen : l.isOpen = true) {ps : List Payload} (hqueue : l.txQ.items = ps.map Payload.bytes) :
    let lines := ps.filter Payload.isLine
    let lost := lines.length + 2 - cap
    let zeros := [(zeroFrame .keyboard).bytes, (zeroFrame .consumer).bytes]
    l.releaseAll.txQ.items = (lines.drop lost).map Payload.bytes ++ zeros ∧
      l.releaseAll.txQ.items.filter isHidFrame = zeros ∧ lost ≤ 2 ∧
      (lost ≠ 0 → l.releaseAll.txQ.items.length = cap) ∧
      ∀ p : Payload, isHidFrame p.bytes = !p.isLine := by
  intro lines lost zeros
  have hkept : (Link.drainHidFrames id l.txQ).items = lines.map Payload.bytes := by
    rw [Link.drainHidFrames_items, hqueue]
    exact Payload.filter_bytes ps
  have hfits : lines.length ≤ cap := by
    have := (Link.drainHidFrames id l.txQ).fits
    rwa [hkept, List.length_map] at this
  have hitems : l.releaseAll.txQ.items = (lines.drop lost).map Payload.bytes ++ zeros := by
    have hlost : lost ≤ (lines.map Payload.bytes).length := by simp only [lost, List.length_map]; omega
    simp only [Link.releaseAll, Link.enqueuePriorityFrames, hopen, Bool.not_true,
      Bool.false_eq_true, if_false]
    rw [Fifo.foldl_putDropOldest_items (by omega), hkept, List.map_drop,
      ← List.drop_append_of_le_length hlost, List.length_map]
    rfl
  refine ⟨hitems, ?_, by omega, ?_, Payload.isHidFrame_bytes⟩
  · have hnone : ((lines.drop lost).map Payload.bytes).filter isHidFrame = [] := by
      rw [List.filter_eq_nil_iff]
      intro b hb
      obtain ⟨p, hp, rfl⟩ := List.mem_map.mp hb
      have hline : p.isLine = true := (List.mem_filter.mp (List.mem_of_mem_drop hp)).2
      simp [Payload.isHidFrame_bytes, hline]
    rw [hitems, List.filter_append, hnone]
    rfl
  · intro hlost
    rw [hitems]
    simp only [lost, zeros, List.length_append, List.length_map, List.length_drop,
      List.length_cons, List.length_nil] at hlost ⊢
    omega

/-- A full queue of a press and two control lines: the press goes, and the older line for the zero
consumer report. -/
def fullLink : Link (List UInt8) 3 where
  ser := some 0
  state := {}
  txQ := ⟨[[0x01, 0, 0, 0x28, 0, 0, 0, 0, 0], writeLine "STATUS".toList, writeLine "INFO".toList],
    by decide⟩

theorem releaseAll_queue_full : fullLink.releaseAll.txQ.items =
    [writeLine "INFO".toList, (zeroFrame .keyboard).bytes, (zeroFrame .consumer).bytes] :=
  (@releaseAll_queue 3 (by decide) fullLink rfl [.frame ⟨.keyboard, [0, 0, 0x28, 0, 0, 0, 0, 0],
    rfl⟩, .line "STATUS".toList (by decide), .line "INFO".toList (by decide)] rfl).1

/-! ### The writer and the hot path -/

variable {cap : Nat}

/-- The link, with what was given to `_enqueue_nowait` and what the writer has written so far. -/
structure Traffic (cap : Nat) where
  link : Link (List UInt8) cap
  enqueued : List (List UInt8)
  written : List (List UInt8)
  deriving DecidableEq

inductive Event where
  | enqueueNowait (payload : List UInt8)
  | writeLine (text : List Char) (printable : ∀ c ∈ text, Printable c)
  | writer

/-- What is found in the queue counts as enqueued. -/
def start (l : Link (List UInt8) cap) : Traffic cap := ⟨l, l.txQ.items, []⟩

/-- `_write_line` waits while the queue is full, the writer while it is empty. -/
def step (s : Traffic cap) : Event → Option (Traffic cap)
  | .enqueueNowait p =>
    some { s with link := s.link.enqueueNowait p, enqueued := s.enqueued ++ [p] }
  | .writeLine text _ => (s.link.txQ.putNowait (writeLine text)).map fun q =>
    { s with link := { s.link with txQ := q } }
  | .writer => s.link.txQ.getNowait.map fun (p, q) =>
    { s with link := { s.link with txQ := q }, written := s.written ++ [p] }

/-- The newest frame of the usage. -/
def lastFrame (u : Usage) (ps : List (List UInt8)) : Option (List UInt8) :=
  (ps.filter fun p => frameUsage p = some u).getLast?

/-- What the full queue gives up for the payload is no frame, or a newer frame of its usage is
queued or being queued, or the frame written last for that usage was the same one. -/
def Spares (s : Traffic cap) : Event → Prop
  | .enqueueNowait p => ∀ oldest rest u, s.link.txQ.items = oldest :: rest →
    s.link.txQ.items.length = cap → frameUsage oldest = some u →
      (∃ x ∈ rest ++ [p], frameUsage x = some u) ∨ lastFrame u s.written = some oldest
  | _ => True

theorem lastFrame_append (u : Usage) (ps qs : List (List UInt8)) :
    lastFrame u (ps ++ qs) = (lastFrame u qs).or (lastFrame u ps) := by
  unfold lastFrame
  rw [List.filter_append, List.getLast?_append]

theorem lastFrame_singleton (u : Usage) (p : List UInt8) :
    lastFrame u [p] = if frameUsage p = some u then some p else none := by
  unfold lastFrame
  by_cases h : frameUsage p = some u
  · simp [h]
  · simp [h]

theorem lastFrame_isSome {u : Usage} {ps : List (List UInt8)} :
    (lastFrame u ps).isSome ↔ ∃ p ∈ ps, frameUsage p = some u := by
  unfold lastFrame
  rw [Option.isSome_iff_ne_none, ne_eq, List.getLast?_eq_none_iff, List.filter_eq_nil_iff]
  simp

/-- What is written and queued ends, for each usage, with what was enqueued last. -/
def Faithful (s : Traffic cap) : Prop :=
  ∀ u, lastFrame u (s.written ++ s.link.txQ.items) = lastFrame u s.enqueued

theorem step_sends {s t : Traffic cap} {e : Event} (h : step s e = some t) :
    t.link.sends = s.link.sends := by
  cases e with
  | enqueueNowait p =>
    obtain rfl := Option.some.inj h
    exact Link.enqueueNowait_sends ..
  | writeLine text printable =>
    obtain ⟨q, -, rfl⟩ := Option.map_eq_some_iff.mp h
    rfl
  | writer =>
    obtain ⟨pq, -, rfl⟩ := Option.map_eq_some_iff.mp h
    rfl

theorem start_faithful (l : Link (List UInt8) cap) : Faithful (start l) := fun _ => rfl

/-- A payload that finds a full queue keeps the final frames exactly if the oldest item may go. -/
theorem spares_iff_full {s : Traffic cap} (hs : Faithful s) {oldest p : List UInt8}
    {rest : List (List UInt8)} (hitems : s.link.txQ.items = oldest :: rest) (u : Usage) :
    (frameUsage oldest = some u →
      (∃ x ∈ rest ++ [p], frameUsage x = some u) ∨ lastFrame u s.written = some oldest) ↔
    lastFrame u (s.written ++ (rest ++ [p])) = lastFrame u (s.enqueued ++ [p]) := by
  have hbefore := hs u
  rw [hitems, ← List.singleton_append, lastFrame_append, lastFrame_append,
    lastFrame_singleton] at hbefore
  rw [lastFrame_append, lastFrame_append u s.enqueued, ← hbefore, lastFrame_append u rest,
    Option.or_assoc, Option.or_assoc]
  by_cases husage : frameUsage oldest = some u
  · rw [if_pos husage, ← lastFrame_isSome, lastFrame_append]
    cases lastFrame u [p] with
    | some f => simp
    | none =>
      cases lastFrame u rest with
      | some f => simp
      | none => simp [husage]
  · simp [husage]

theorem spares_iff {s t : Traffic cap} {e : Event} (hcap : 0 < cap)
    (hs : s.link.sends = true ∧ Faithful s) (h : step s e = some t) :
    Spares s e ↔ t.link.sends = true ∧ Faithful t := by
  obtain ⟨hsends, hfaithful⟩ := hs
  cases e with
  | enqueueNowait p =>
    obtain rfl := Option.some.inj h
    have hsends' : (s.link.enqueueNowait p).sends = true := by
      rw [Link.enqueueNowait_sends, hsends]
    simp only [Spares, Faithful, hsends', true_and, Link.enqueueNowait_items hcap hsends]
    have hfits := s.link.txQ.fits
    by_cases hfull : s.link.txQ.items.length = cap
    · obtain ⟨oldest, rest, hitems⟩ := List.exists_cons_of_length_pos (by omega : 0 <
        s.link.txQ.items.length)
      have hone : s.link.txQ.items.length + 1 - cap = 1 := by omega
      have hkeeps : (s.link.txQ.items ++ [p]).drop 1 = rest ++ [p] := by simp [hitems]
      rw [hone, hkeeps]
      refine ⟨fun hspares u => ?_, fun hkept oldest' rest' u heq _ => ?_⟩
      · exact (spares_iff_full hfaithful hitems u).mp (hspares oldest rest u hitems hfull)
      · obtain ⟨rfl, rfl⟩ := List.cons.inj (hitems.symm.trans heq)
        exact (spares_iff_full hfaithful hitems u).mpr (hkept u)
    · have hnone : s.link.txQ.items.length + 1 - cap = 0 := by omega
      refine ⟨fun _ u => ?_, fun _ oldest rest u _ hlen => absurd hlen hfull⟩
      rw [hnone, List.drop_zero, ← List.append_assoc, lastFrame_append, hfaithful u,
        lastFrame_append u s.enqueued]
  | writeLine text printable =>
    obtain ⟨q, hq, rfl⟩ := Option.map_eq_some_iff.mp h
    refine ⟨fun _ => ⟨hsends, fun u => ?_⟩, fun _ => trivial⟩
    have hline : frameUsage (writeLine text) ≠ some u := by simp [frameUsage_writeLine printable]
    rw [(Fifo.putNowait_items hq).2, ← List.append_assoc, lastFrame_append, lastFrame_singleton,
      if_neg hline, hfaithful u]
    rfl
  | writer =>
    obtain ⟨⟨p, q⟩, hq, rfl⟩ := Option.map_eq_some_iff.mp h
    refine ⟨fun _ => ⟨hsends, fun u => ?_⟩, fun _ => trivial⟩
    rw [← hfaithful u, Fifo.getNowait_items hq, List.append_assoc, List.singleton_append]

theorem writer_step {s t : Traffic cap} (h : step s .writer = some t) :
    t.written ++ t.link.txQ.items = s.written ++ s.link.txQ.items ∧ t.enqueued = s.enqueued := by
  obtain ⟨⟨p, q⟩, hq, rfl⟩ := Option.map_eq_some_iff.mp h
  exact ⟨by simp [Fifo.getNowait_items hq], rfl⟩

/-- The writer alone moves what is queued to what is written. -/
theorem drained {s t : Traffic cap} {n : Nat}
    (h : execute step s (List.replicate n .writer) = some t) :
    t.written ++ t.link.txQ.items = s.written ++ s.link.txQ.items ∧ t.enqueued = s.enqueued := by
  induction n generalizing s with
  | zero =>
    obtain rfl := Option.some.inj h
    exact ⟨rfl, rfl⟩
  | succ n ih =>
    rw [List.replicate_succ] at h
    obtain ⟨u, hu, hrest⟩ := Option.bind_eq_some_iff.mp h
    obtain ⟨hrun, henq⟩ := ih hrest
    obtain ⟨hstep, henq'⟩ := writer_step hu
    exact ⟨hrun.trans hstep, henq.trans henq'⟩

theorem exists_drained (s : Traffic cap) : ∃ n t,
    execute step s (List.replicate n .writer) = some t ∧ t.link.txQ.items = [] := by
  induction hn : s.link.txQ.items.length generalizing s with
  | zero => exact ⟨0, s, rfl, List.length_eq_zero_iff.mp hn⟩
  | succ k ih =>
    obtain ⟨p, ps, hitems⟩ := List.exists_cons_of_length_eq_add_one hn
    have hstep : step s .writer = some { s with
        link := { s.link with txQ := s.link.txQ.drop 1 }, written := s.written ++ [p] } := by
      simp [step, Fifo.getNowait, hitems]
    obtain ⟨n, t, ht, hempty⟩ := ih { s with
        link := { s.link with txQ := s.link.txQ.drop 1 }, written := s.written ++ [p] }
      (by simp [hn])
    exact ⟨n + 1, t, by rw [List.replicate_succ, execute_cons hstep, ht], hempty⟩

theorem faithful_iff_drained (s : Traffic cap) : Faithful s ↔
    ∀ n t, execute step s (List.replicate n .writer) = some t → t.link.txQ.items = [] →
      ∀ u, lastFrame u t.written = lastFrame u t.enqueued := by
  refine ⟨fun hs n t ht hempty u => ?_, fun hall u => ?_⟩
  · obtain ⟨hrun, henq⟩ := drained ht
    rw [hempty, List.append_nil] at hrun
    rw [hrun, henq, hs u]
  · obtain ⟨n, t, ht, hempty⟩ := exists_drained s
    obtain ⟨hrun, henq⟩ := drained ht
    rw [hempty, List.append_nil] at hrun
    rw [← hrun, ← henq, hall n t ht hempty u]

/-- Wherever the queue drains in a run, the frames written last are the ones enqueued last, exactly
if no step of the run makes a full queue give up the final frame of a usage. -/
theorem final_frames_kept_iff (hcap : 2 ≤ cap) {l : Link (List UInt8) cap} (hsends : l.sends = true)
    {es : List Event} {s : Traffic cap} (h : execute step (start l) es = some s) :
    Along step Spares (start l) es ↔
      ∀ before after n t, es = before ++ after →
        execute step (start l) (before ++ List.replicate n .writer) = some t →
        t.link.txQ.items = [] → ∀ u, lastFrame u t.written = lastFrame u t.enqueued := by
  have hinv : ∀ (a : Traffic cap) e b, (a.link.sends = true ∧ Faithful a) → step a e = some b →
      (Spares a e ↔ b.link.sends = true ∧ Faithful b) :=
    fun a e b ha hab => spares_iff (by omega) ha hab
  rw [along_iff_forall_states hinv h ⟨hsends, start_faithful l⟩]
  refine ⟨fun hall before after n t heq ht => ?_, fun hall before after u heq hu => ⟨?_, ?_⟩⟩
  · obtain ⟨u, hu, hrest⟩ := Option.bind_eq_some_iff.mp ((execute_append ..).symm.trans ht)
    exact (faithful_iff_drained u).mp (hall before after u heq hu).2 n t hrest
  · exact (reachable_of_execute hu).invariant (P := fun a => a.link.sends = true) hsends
      fun a e b ha _ hab => (step_sends hab).trans ha
  · refine (faithful_iff_drained u).mpr fun n t ht => hall before after n t heq ?_
    rw [execute_append, hu, Option.bind_some, ht]

def readyLink : Link (List UInt8) 2 where
  ser := some 0
  state := { connected := true, ready := true }
  txQ := Fifo.empty

/-- A key goes down, up and down before the writer gets a turn. -/
def pressedTwice : List Event :=
  [.enqueueNowait [0x01, 0, 0, 0x28, 0, 0, 0, 0, 0], .enqueueNowait [0x01, 0, 0, 0, 0, 0, 0, 0, 0],
    .enqueueNowait [0x01, 0, 0, 0x28, 0, 0, 0, 0, 0]]

theorem final_frames_kept_pressed : ∃ s, execute step (start readyLink) pressedTwice = some s ∧
    ∀ before after n t, pressedTwice = before ++ after →
      execute step (start readyLink) (before ++ List.replicate n .writer) = some t →
      t.link.txQ.items = [] → ∀ u, lastFrame u t.written = lastFrame u t.enqueued := by
  refine ⟨_, rfl, (final_frames_kept_iff (by decide) rfl rfl).mp ⟨?_, ?_, ?_, trivial⟩⟩
  · intro oldest rest u hitems
    cases hitems
  · intro oldest rest u hitems hfull
    cases hfull
  · intro oldest rest u hitems hfull husage
    cases hitems
    exact Or.inl ⟨_, List.mem_cons_self .., husage⟩

/-- A key is held when it goes up, another is pressed and let go, all before the writer's turn. -/
theorem final_frames_lost : ¬ ∀ (cap : Nat), 2 ≤ cap → ∀ l : Link (List UInt8) cap,
    l.sends = true → ∀ es s, execute step (start l) es = some s → s.link.txQ.items = [] →
      ∀ u, lastFrame u s.written = lastFrame u s.enqueued := by
  intro hall
  have hlast := hall 2 (by decide) readyLink rfl
    [.enqueueNowait [0x01, 0, 0, 0x28, 0, 0, 0, 0, 0], .writer,
      .enqueueNowait [0x01, 0, 0, 0, 0, 0, 0, 0, 0], .enqueueNowait [0x02, 0xE9, 0x00],
      .enqueueNowait [0x02, 0x00, 0x00], .writer, .writer] _ rfl rfl .keyboard
  exact absurd hlast (by decide)

end PiHub.TxQueue

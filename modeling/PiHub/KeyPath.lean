import PiHub.FreshLink
import PiHub.SerialLink
import PiHub.TextCommands

/-! The way of a key from the host to the TV: the transmit queue and the writer (ble_dongle.py), the
serial line, the dongle's receive ring and command thread, and its link to the TV (main.c). -/
namespace PiHub.KeyPath
open Transition HostFrames DongleHost DongleLink CommandReader TxQueue SerialLink FreshLink

/-- What the host puts into the queue. -/
inductive Sent where
  | frame (f : Frame)
  | line (l : Asked)

theorem Asked.printable (l : Asked) : ∀ c ∈ l.text, Printable c := by cases l <;> decide

def Asked.controlLine (l : Asked) : ControlLine where
  text := l.text
  nonempty := by cases l <;> decide
  short := by cases l <;> decide
  printable := Asked.printable l

def Sent.item : Sent → Item
  | .frame f => .frame f
  | .line l => .line (Asked.controlLine l)

def Sent.bytes (x : Sent) : List UInt8 := x.item.bytes

/-- The frame that a notified report came in. -/
def payloadOf (n : Notification) : List UInt8 :=
  match n.attr with
  | .bootVal | .kbVal => Usage.keyboard.opcode :: n.report
  | .ccVal => Usage.consumer.opcode :: n.report

/-- What a report comes from: a frame of the host, or `hid_release_all_best_effort`, which the bond
clear runs. -/
inductive Origin where
  | host
  | releaseAll
  deriving DecidableEq

/-- `traffic.enqueued` records the frames alone, as they are handed in. -/
structure Path (cap : Nat) where
  traffic : Traffic cap
  /-- Written to the port, and not yet handed to the ring. -/
  wire : List UInt8
  port : RxPort
  dongle : Dongle
  /-- The reports the TV has been given. -/
  notified : List (Origin × Notification)

/-- Port `ser` has just been opened, and the dongle has started. -/
def Path.start (cap ser : Nat) : Path cap where
  traffic := TxQueue.start ⟨some ser, {}, .empty⟩
  wire := []
  port := .start
  dongle := .boot
  notified := []

/-- What the TV has been given, as frames. -/
def Path.tv {cap : Nat} (s : Path cap) : List (List UInt8) := s.notified.map fun r => payloadOf r.2

/-- Those of them that came from the host. -/
def Path.relayed {cap : Nat} (s : Path cap) : List (List UInt8) :=
  (s.notified.filter fun r => r.1 = .host).map fun r => payloadOf r.2

/-- The report of the usage that the TV was given last is one of the dongle's own. -/
def Path.cleared {cap : Nat} (s : Path cap) (u : Usage) : Bool :=
  (s.notified.filter fun r => frameUsage (payloadOf r.2) = some u).getLast?.any (·.1 = .releaseAll)

/-- The dongle after a call of its command thread, and what the TV is given. `notify` is what
`bt_gatt_notify` returns. Replies to a line are left out. -/
def answer (d : Dongle) (notify : Int32) : CommandReader.Call → Dongle × List Notification
  | .sendKeyboardReport report8 =>
    (FreshLink.cmdHandleBin d .keyboard report8 notify,
      if notify = 0 then (sent d .keyboard report8).2 else [])
  | .sendConsumerReport report2 =>
    (FreshLink.cmdHandleBin d .consumer report2 notify,
      if notify = 0 then (sent d .consumer report2).2 else [])
  | .cmdHandleLine line =>
    match TextCommands.cmdHandleLine (line ++ [0]) with
    | some (.report u report) =>
      ((sent d u report).1, if notify = 0 then (sent d u report).2 else [])
    | some .statusSnapshot => (cmdEmitStatusSnapshot d, [])
    | _ => (d, [])
  | .frameTimeout u => (d.cmdHandleBinTimeout u, [])
  | .errE2big => (d, [])

def answers (d : Dongle) (notify : Int32) : List CommandReader.Call → Dongle × List Notification
  | [] => (d, [])
  | c :: cs =>
    let first := answer d notify c
    let rest := answers first.1 notify cs
    (rest.1, first.2 ++ rest.2)

/-- The host's calls, and what a line from the dongle makes of its copy of the link state. -/
inductive Call where
  | enqueueNowait (f : Frame)
  | enqueueStrict (f : Frame) (action : String)
  | releaseAll
  | writeLine (l : Asked)
  | heard (state : DongleState)

/-- Besides the host's calls: the writer, the driver's interrupt, the command thread, the callbacks of
the Bluetooth stack, and a zero report of `hid_release_all_best_effort`. -/
inductive Event where
  | host (c : Call)
  | writer
  | isr (n : Nat)
  | read (notify : Int32)
  | timeout
  | callback (cb : Callback)
  | releaseAll (u : Usage) (notify : Int32)

variable {cap : Nat}

/-- The queue and its record when the frames have been handed in. -/
def handIn (t : Traffic cap) (link : Link (List UInt8) cap) (frames : List (List UInt8)) :
    Traffic cap :=
  { t with link := link, enqueued := t.enqueued ++ frames }

def call (t : Traffic cap) : Call → Option (Traffic cap)
  | .enqueueNowait f =>
    some (handIn t (t.link.enqueueNowait f.bytes) (if t.link.sends then [f.bytes] else []))
  | .enqueueStrict f action =>
    match t.link.enqueueStrict f.bytes action with
    | .ok link => some (handIn t link [f.bytes])
    | .error _ => some t
  | .releaseAll => some (handIn t t.link.releaseAll (if t.link.isOpen then releaseFrames else []))
  | .writeLine l => TxQueue.step t (.writeLine l.text (Asked.printable l))
  | .heard state => some { t with link := { t.link with state := state } }

/-- The calls the thread has just made are answered. -/
def Path.become (s : Path cap) (port : RxPort) (notify : Int32) : Path cap :=
  let answered := answers s.dongle notify (port.calls.drop s.port.calls.length)
  { s with
    port := port
    dongle := answered.1
    notified := s.notified ++ answered.2.map (Prod.mk .host) }

/-- One of the zero reports of `hid_release_all_best_effort`. -/
def Path.releaseReport (s : Path cap) (u : Usage) (notify : Int32) : Path cap :=
  let zeros := sent s.dongle u (zeroFrame u).report
  { s with
    dongle := zeros.1
    notified := s.notified ++ (if notify = 0 then zeros.2 else []).map (Prod.mk .releaseAll) }

def step (s : Path cap) : Event → Option (Path cap)
  | .host c => (call s.traffic c).map fun traffic => { s with traffic := traffic }
  | .writer =>
    s.traffic.link.txQ.getNowait.map fun (payload, q) => { s with
      traffic := { s.traffic with
        link := { s.traffic.link with txQ := q }, written := s.traffic.written ++ [payload] }
      wire := s.wire ++ payload }
  | .isr n =>
    if n ≤ s.wire.length then
      (s.port.step (.isr (s.wire.take n))).map fun port =>
        { s with port := port, wire := s.wire.drop n }
    else none
  | .read notify => (s.port.step .read).map fun port => s.become port notify
  | .timeout => (s.port.step .timeout).map fun port => s.become port 0
  | .callback cb => some { s with dongle := s.dongle.callback cb }
  | .releaseAll u notify => some (s.releaseReport u notify)

/-! ### The queue -/

/-- The frames among the payloads. -/
def frames (payloads : List (List UInt8)) : List (List UInt8) := payloads.filter isHidFrame

theorem frames_append (ps qs : List (List UInt8)) : frames (ps ++ qs) = frames ps ++ frames qs :=
  List.filter_append ..

theorem isHidFrame_bytes (f : Frame) : isHidFrame f.bytes = true := by
  rw [isHidFrame_eq, frameUsage_bytes]
  rfl

theorem frames_line (l : Asked) : frames [writeLine l.text] = [] := by
  have hline : isHidFrame (writeLine l.text) = false := by
    rw [isHidFrame_eq, frameUsage_writeLine (Asked.printable l)]
    rfl
  simp [frames, hline]

theorem frames_release : frames releaseFrames = releaseFrames := by decide

/-- The writer has moved the oldest payload of the queue to the port. -/
theorem writer_cases {s t : Path cap} (h : step s .writer = some t) : ∃ p q,
    s.traffic.link.txQ.items = p :: q.items ∧ t = { s with
      traffic := { s.traffic with
        link := { s.traffic.link with txQ := q }, written := s.traffic.written ++ [p] }
      wire := s.wire ++ p } := by
  obtain ⟨⟨p, q⟩, hget, rfl⟩ := Option.map_eq_some_iff.mp h
  exact ⟨p, q, Fifo.getNowait_items hget, rfl⟩

theorem writeLine_cases {t u : Traffic cap} {l : Asked} (h : call t (.writeLine l) = some u) :
    ∃ q : Fifo _ cap, q.items = t.link.txQ.items ++ [writeLine l.text] ∧
      u = { t with link := { t.link with txQ := q } } := by
  obtain ⟨q, hput, rfl⟩ := Option.map_eq_some_iff.mp h
  exact ⟨q, (Fifo.putNowait_items hput).2, rfl⟩

/-- A strict call that does not raise has put its frame behind the others; one that raises has
changed nothing. -/
theorem enqueueStrict_cases {t u : Traffic cap} {f : Frame} {action : String}
    (h : call t (.enqueueStrict f action) = some u) : u = t ∨ ∃ link : Link (List UInt8) cap,
      link.txQ.items = t.link.txQ.items ++ [f.bytes] ∧ u = handIn t link [f.bytes] := by
  simp only [call] at h
  split at h
  · next link hok =>
    obtain rfl := Option.some.inj h
    obtain ⟨-, q, hput, rfl⟩ := Link.enqueueStrict_ok hok
    exact Or.inr ⟨_, (Fifo.putNowait_items hput).2, rfl⟩
  · exact Or.inl (Option.some.inj h).symm

theorem call_written {t u : Traffic cap} {c : Call} (h : call t c = some u) :
    u.written = t.written := by
  cases c with
  | enqueueNowait f =>
    obtain rfl := Option.some.inj h
    rfl
  | enqueueStrict f action =>
    obtain rfl | ⟨link, -, rfl⟩ := enqueueStrict_cases h
    · rfl
    · rfl
  | releaseAll =>
    obtain rfl := Option.some.inj h
    rfl
  | writeLine l =>
    obtain ⟨q, -, rfl⟩ := writeLine_cases h
    rfl
  | heard state =>
    obtain rfl := Option.some.inj h
    rfl

/-- The frames written and queued are among the ones handed in, in their order. -/
def InOrder (t : Traffic cap) : Prop :=
  (frames (t.written ++ t.link.txQ.items)).Sublist t.enqueued

theorem InOrder.handIn {t : Traffic cap} (h : InOrder t) {link : Link (List UInt8) cap}
    {ps : List (List UInt8)} (hsub : link.txQ.items.Sublist (t.link.txQ.items ++ ps)) :
    InOrder (handIn t link ps) := by
  have hall : (frames (t.written ++ link.txQ.items)).Sublist
      (frames (t.written ++ t.link.txQ.items) ++ frames ps) := by
    rw [← frames_append, List.append_assoc]
    exact (hsub.append_left t.written).filter isHidFrame
  exact hall.trans (h.append List.filter_sublist)

theorem InOrder.releaseAll {t : Traffic cap} (h : InOrder t) : InOrder
    (KeyPath.handIn t t.link.releaseAll (if t.link.isOpen then releaseFrames else [])) := by
  unfold Link.releaseAll Link.enqueuePriorityFrames
  cases hopen : t.link.isOpen with
  | false => exact h.handIn (by simp)
  | true =>
    have hqueue := Fifo.foldl_putDropOldest_sublist (Link.drainHidFrames id t.link.txQ) releaseFrames
    rw [Link.drainHidFrames_items] at hqueue
    have hlines : frames (t.link.txQ.items.filter fun x => !isHidFrame (id x)) = [] := by
      rw [frames, List.filter_filter]
      simp
    have hall := (hqueue.append_left t.written).filter isHidFrame
    change (frames _).Sublist (frames _) at hall
    rw [frames_append t.written (_ ++ releaseFrames), frames_append _ releaseFrames, hlines,
      List.nil_append, frames_release] at hall
    have hwritten : (frames t.written).Sublist t.enqueued := by
      refine List.Sublist.trans ?_ h
      rw [frames_append]
      exact List.sublist_append_left _ _
    exact hall.trans (hwritten.append_right releaseFrames)

theorem InOrder.call {t u : Traffic cap} {c : Call} (h : InOrder t) (hcall : call t c = some u) :
    InOrder u := by
  cases c with
  | enqueueNowait f =>
    obtain rfl := Option.some.inj hcall
    unfold Link.enqueueNowait
    cases hsends : t.link.sends with
    | false => exact h.handIn (by simp)
    | true => exact h.handIn (Fifo.putDropOldest_sublist _ _)
  | enqueueStrict f action =>
    obtain rfl | ⟨link, hlink, rfl⟩ := enqueueStrict_cases hcall
    · exact h
    · exact h.handIn (by rw [hlink])
  | releaseAll =>
    obtain rfl := Option.some.inj hcall
    exact h.releaseAll
  | writeLine l =>
    obtain ⟨q, hq, rfl⟩ := writeLine_cases hcall
    change (frames (t.written ++ q.items)).Sublist _
    rw [hq, ← List.append_assoc, frames_append, frames_line, List.append_nil]
    exact h
  | heard state =>
    obtain rfl := Option.some.inj hcall
    exact h

/-- Everything in the queue or written has been put together by the host. -/
def Composed (t : Traffic cap) : Prop :=
  ∀ p ∈ t.written ++ t.link.txQ.items, ∃ x : Sent, x.bytes = p

theorem Composed.handIn {t : Traffic cap} (h : Composed t) {link : Link (List UInt8) cap}
    {ps : List (List UInt8)}
    (hlink : ∀ p ∈ link.txQ.items, p ∈ t.link.txQ.items ∨ ∃ f : Frame, f.bytes = p) :
    Composed (handIn t link ps) := by
  intro p hp
  obtain hwritten | hqueued := List.mem_append.mp hp
  · exact h p (List.mem_append_left _ hwritten)
  · obtain hold | ⟨f, rfl⟩ := hlink p hqueued
    · exact h p (List.mem_append_right _ hold)
    · exact ⟨.frame f, rfl⟩

theorem Composed.call {t u : Traffic cap} {c : Call} (h : Composed t) (hcall : call t c = some u) :
    Composed u := by
  cases c with
  | enqueueNowait f =>
    obtain rfl := Option.some.inj hcall
    exact h.handIn fun p hp => (Link.mem_enqueueNowait hp).imp_right fun hnew => ⟨f, hnew.2.symm⟩
  | enqueueStrict f action =>
    obtain rfl | ⟨link, hlink, rfl⟩ := enqueueStrict_cases hcall
    · exact h
    · refine h.handIn fun p hp => ?_
      rw [hlink, List.mem_append, List.mem_singleton] at hp
      exact hp.imp_right fun hnew => ⟨f, hnew.symm⟩
  | releaseAll =>
    obtain rfl := Option.some.inj hcall
    refine h.handIn fun p hp => (Link.mem_enqueuePriorityFrames hp).imp_right fun hnew => ?_
    obtain rfl | hnew := List.mem_cons.mp hnew.2
    · exact ⟨zeroFrame .keyboard, rfl⟩
    · exact ⟨zeroFrame .consumer, (List.mem_singleton.mp hnew).symm⟩
  | writeLine l =>
    obtain ⟨q, hq, rfl⟩ := writeLine_cases hcall
    intro p hp
    change p ∈ t.written ++ q.items at hp
    rw [hq, ← List.append_assoc, List.mem_append, List.mem_singleton] at hp
    obtain hold | rfl := hp
    · exact h p hold
    · exact ⟨.line l, rfl⟩
  | heard state =>
    obtain rfl := Option.some.inj hcall
    exact h

/-! ### The line -/

/-- The bytes of what has been written. -/
def stream (ws : List Sent) : List UInt8 := encode (ws.map Sent.item)

theorem stream_concat (ws : List Sent) (x : Sent) : stream (ws ++ [x]) = stream ws ++ x.bytes := by
  simp [stream, encode, Sent.bytes]

theorem item_fits (ws : List Sent) : ∀ it ∈ ws.map Sent.item, it.Fits [] := fun _ _ => .inr rfl

/-- Of the bytes written, the thread has taken so many and done what they make it do; the rest is in
the ring or on its way. -/
structure OnWire (s : Path cap) (ws : List Sent) (taken : Nat) : Prop where
  rest : s.port.cmdRxRb.items ++ s.wire = (stream ws).drop taken
  taken_le : taken ≤ (stream ws).length
  thread : s.port.thread = (feed RxPort.start.thread ((stream ws).take taken)).1
  calls : s.port.calls = (feed RxPort.start.thread ((stream ws).take taken)).2

/-- No byte is lost in the ring, and the thread gives up waiting only at the top of its loop. -/
def Lossless (s : Path cap) : Event → Prop
  | .isr n => (s.wire.take n).length ≤ s.port.cmdRxRb.space
  | .timeout => s.port.thread.reading = .loop
  | _ => True

theorem OnWire.writer {s : Path cap} {ws : List Sent} {taken : Nat} (h : OnWire s ws taken)
    (x : Sent) (traffic : Traffic cap) :
    OnWire { s with traffic := traffic, wire := s.wire ++ x.bytes } (ws ++ [x]) taken := by
  have htake : (stream (ws ++ [x])).take taken = (stream ws).take taken := by
    rw [stream_concat, List.take_append_of_le_length h.taken_le]
  refine ⟨?_, ?_, by rw [htake]; exact h.thread, by rw [htake]; exact h.calls⟩
  · rw [stream_concat, List.drop_append_of_le_length h.taken_le, ← h.rest, List.append_assoc]
  · rw [stream_concat, List.length_append]
    exact Nat.le_add_right_of_le h.taken_le

theorem OnWire.isr {s : Path cap} {ws : List Sent} {taken n : Nat} (h : OnWire s ws taken)
    (hroom : (s.wire.take n).length ≤ s.port.cmdRxRb.space) : OnWire { s with
      port := { s.port with cmdRxRb := s.port.cmdRxRb.put (s.wire.take n) }
      wire := s.wire.drop n } ws taken := by
  refine { h with rest := ?_ }
  change (s.port.cmdRxRb.put (s.wire.take n)).items ++ s.wire.drop n = _
  rw [Fifo.put_items_of_fits hroom, List.append_assoc, List.take_append_drop]
  exact h.rest

theorem OnWire.read {s : Path cap} {ws : List Sent} {taken : Nat} {port : RxPort}
    (h : OnWire s ws taken) (hread : s.port.step .read = some port) (notify : Int32) :
    OnWire (s.become port notify) ws (taken + 1) := by
  obtain ⟨hrest, hle, hthread, hcalls⟩ := h
  cases hitems : s.port.cmdRxRb.items with
  | nil => simp [RxPort.step, hitems] at hread
  | cons ch rest =>
    simp only [RxPort.step, hitems, Option.some.injEq] at hread
    subst hread
    rw [hitems, List.cons_append] at hrest
    have hlt : taken < (stream ws).length := by
      by_contra hge
      rw [List.drop_of_length_le (Nat.not_lt.mp hge)] at hrest
      cases hrest
    rw [List.drop_eq_getElem_cons hlt] at hrest
    obtain ⟨hch, hrest⟩ := List.cons.inj hrest
    have htake : (stream ws).take (taken + 1) = (stream ws).take taken ++ [ch] := by
      rw [List.take_add_one, List.getElem?_eq_getElem hlt, hch]
      rfl
    refine ⟨?_, hlt, ?_, ?_⟩
    · change (s.port.cmdRxRb.drop 1).items ++ s.wire = _
      rw [Fifo.drop_items, hitems]
      exact hrest
    · rw [htake, feed_concat, ← hthread]
      rfl
    · rw [htake, feed_concat, ← hthread, ← hcalls]
      rfl

theorem OnWire.timeout {s : Path cap} {ws : List Sent} {taken : Nat} {port : RxPort}
    (h : OnWire s ws taken) (htimeout : s.port.step .timeout = some port)
    (hloop : s.port.thread.reading = .loop) (notify : Int32) :
    OnWire (s.become port notify) ws taken := by
  obtain ⟨hempty, rfl⟩ := of_guard htimeout
  have hsame : s.port.become s.port.thread.onTimeout = s.port := by
    simp [RxPort.become, Thread.onTimeout, hloop]
  rw [hsame]
  exact { h with }

/-! ### The reports the TV is given -/

/-- A report that is sent goes out as the frame it came in. -/
theorem sent_cases (d : Dongle) (u : Usage) (report : List UInt8) : (sent d u report).2 = [] ∨
    ∃ n, (sent d u report).2 = [n] ∧ payloadOf n = u.opcode :: report := by
  unfold sent FreshLink.sendReport
  cases u with
  | keyboard =>
    dsimp only
    unfold Dongle.sendKeyboardReport
    split_ifs
    · exact Or.inl rfl
    · exact Or.inl rfl
    · exact Or.inl rfl
    · exact Or.inr ⟨_, rfl, rfl⟩
    · exact Or.inl rfl
    · exact Or.inr ⟨_, rfl, rfl⟩
  | consumer =>
    dsimp only
    unfold Dongle.sendConsumerReport
    split_ifs
    · exact Or.inl rfl
    · exact Or.inl rfl
    · exact Or.inl rfl
    · exact Or.inr ⟨_, rfl, rfl⟩

theorem sent_through {d : Dongle} (h : d.KeysGoThrough) (u : Usage) (report : List UInt8) :
    ∃ n, (sent d u report).2 = [n] ∧ payloadOf n = u.opcode :: report := by
  refine (sent_cases d u report).resolve_left fun hnone => ?_
  unfold sent FreshLink.sendReport at hnone
  cases u with
  | keyboard =>
    obtain ⟨d', hd⟩ := h.1 report
    dsimp only at hnone
    rw [hd] at hnone
    cases hnone
  | consumer =>
    obtain ⟨d', hd⟩ := h.2 report
    dsimp only at hnone
    rw [hd] at hnone
    cases hnone

theorem answer_report (d : Dongle) (notify : Int32) (u : Usage) (report : List UInt8) :
    (answer d notify (sendReport u report)).2 = if notify = 0 then (sent d u report).2 else [] := by
  cases u <;> rfl

/-- The lines of the host make the dongle send no report. -/
theorem answer_line (d : Dongle) (notify : Int32) (l : Asked) :
    (answer d notify (Sent.line l).item.call).2 = [] := by
  cases l <;> rfl

theorem answer_sublist (d : Dongle) (notify : Int32) (x : Sent) :
    ((answer d notify x.item.call).2.map payloadOf).Sublist (frames [x.bytes]) := by
  cases x with
  | frame f =>
    have hframes : frames [(Sent.frame f).bytes] = [f.bytes] := by
      simp [frames, Sent.bytes, Sent.item, Item.bytes, isHidFrame_bytes]
    rw [hframes]
    change ((answer d notify (sendReport f.usage f.report)).2.map payloadOf).Sublist _
    rw [answer_report]
    split
    · obtain hnone | ⟨n, hn, hpayload⟩ := sent_cases d f.usage f.report
      · simp [hnone]
      · simp [hn, hpayload, Frame.bytes]
    · simp
  | line l =>
    rw [answer_line]
    exact List.nil_sublist _

theorem answers_sublist (d : Dongle) (notify : Int32) (xs : List Sent) :
    ((answers d notify (xs.map fun x => x.item.call)).2.map payloadOf).Sublist
      (frames (xs.map Sent.bytes)) := by
  induction xs generalizing d with
  | nil => exact List.Sublist.slnil
  | cons x xs ih =>
    have hfirst := answer_sublist d notify x
    have hrest := ih (answer d notify x.item.call).1
    have hsplit : frames ((x :: xs).map Sent.bytes) =
        frames [x.bytes] ++ frames (xs.map Sent.bytes) := by
      rw [← frames_append]
      rfl
    rw [hsplit]
    simp only [List.map_cons, answers, List.map_append]
    exact hfirst.append hrest

/-- What the thread's calls make of the host's frames that the TV has been given. -/
theorem relayed_become (s : Path cap) (port : RxPort) (notify : Int32) :
    (s.become port notify).relayed = s.relayed ++
      (answers s.dongle notify (port.calls.drop s.port.calls.length)).2.map payloadOf := by
  have hall (ns : List Notification) : (ns.map (Prod.mk Origin.host)).filter (fun r => r.1 = .host) =
      ns.map (Prod.mk Origin.host) := List.filter_eq_self.mpr fun r hr => by
    obtain ⟨n, -, rfl⟩ := List.mem_map.mp hr
    rfl
  simp only [Path.relayed, Path.become, List.filter_append, List.map_append, hall, List.map_map]
  rfl

/-- The dongle's own reports are none of the host's. -/
theorem relayed_releaseReport (s : Path cap) (u : Usage) (notify : Int32) :
    (s.releaseReport u notify).relayed = s.relayed := by
  have hnone (ns : List Notification) :
      (ns.map (Prod.mk Origin.releaseAll)).filter (fun r => r.1 = .host) = [] :=
    List.filter_eq_nil_iff.mpr fun r hr => by
      obtain ⟨n, -, rfl⟩ := List.mem_map.mp hr
      simp
  simp only [Path.relayed, Path.releaseReport, List.filter_append, hnone, List.append_nil]

/-- The thread has called the handlers of what was written first, and the TV has been given some of
these frames. -/
structure Called (s : Path cap) (ws done : List Sent) : Prop where
  first : done <+: ws
  calls : s.port.calls = done.map fun x => x.item.call
  relayed : s.relayed.Sublist (frames (done.map Sent.bytes))

theorem OnWire.called {s : Path cap} {ws : List Sent} {taken : Nat} (h : OnWire s ws taken) :
    ∃ done, done <+: ws ∧ s.port.calls = done.map fun x => x.item.call := by
  obtain ⟨⟨k, hk⟩, -⟩ := feed_take (item_fits ws) taken
  refine ⟨ws.take k, List.take_prefix _ _, ?_⟩
  rw [h.calls]
  change (feed ⟨.loop, []⟩ ((encode (ws.map Sent.item)).take taken)).2 = _
  rw [hk, ← List.map_take, List.map_map]
  rfl

/-- What the thread has called now, it has called before or calls in this step. -/
theorem Called.more {s : Path cap} {ws done : List Sent} (h : Called s ws done) {port : RxPort}
    {notify : Int32} {taken : Nat} (hwire : OnWire (s.become port notify) ws taken)
    (hcalls : ∃ new, port.calls = s.port.calls ++ new) :
    ∃ more, done ++ more <+: ws ∧ port.calls = (done ++ more).map (fun x => x.item.call) ∧
      port.calls.drop s.port.calls.length = more.map fun x => x.item.call := by
  obtain ⟨done', hfirst', hcalls'⟩ := hwire.called
  obtain ⟨new, hnew⟩ := hcalls
  have hlen : done.length ≤ done'.length := by
    have hnow := congrArg List.length (hcalls'.symm.trans hnew)
    rw [h.calls, List.length_map, List.length_append, List.length_map] at hnow
    omega
  obtain ⟨more, rfl⟩ := List.prefix_of_prefix_length_le h.first hfirst' hlen
  refine ⟨more, hfirst', hcalls', ?_⟩
  change port.calls = _ at hcalls'
  rw [hcalls', h.calls, List.map_append, List.drop_left]

theorem Called.become {s : Path cap} {ws done : List Sent} (h : Called s ws done) {port : RxPort}
    {notify : Int32} {taken : Nat} (hwire : OnWire (s.become port notify) ws taken)
    (hcalls : ∃ new, port.calls = s.port.calls ++ new) :
    ∃ done', Called (s.become port notify) ws done' := by
  obtain ⟨more, hfirst, hnow, hnew⟩ := h.more hwire hcalls
  refine ⟨done ++ more, hfirst, hnow, ?_⟩
  rw [relayed_become, hnew, List.map_append, frames_append]
  exact h.relayed.append (answers_sublist s.dongle notify more)

theorem step_calls {p q : RxPort} {e : RxEvent} (h : p.step e = some q) :
    ∃ new, q.calls = p.calls ++ new := by
  cases e with
  | isr bytes =>
    obtain rfl := Option.some.inj h
    exact ⟨[], (List.append_nil _).symm⟩
  | read =>
    simp only [RxPort.step] at h
    split at h
    · cases h
    · obtain rfl := Option.some.inj h
      exact ⟨_, rfl⟩
  | timeout =>
    obtain ⟨-, rfl⟩ := of_guard h
    exact ⟨_, rfl⟩

/-! ### Whole runs -/

/-- Between the port and the TV nothing has been added or turned around. -/
def Follows (s : Path cap) : Prop :=
  ∃ ws taken done, s.traffic.written = ws.map Sent.bytes ∧ OnWire s ws taken ∧ Called s ws done

theorem Follows.writer {s : Path cap} (h : Follows s) (x : Sent) (link : Link (List UInt8) cap) :
    Follows { s with
      traffic := { s.traffic with link := link, written := s.traffic.written ++ [x.bytes] }
      wire := s.wire ++ x.bytes } := by
  obtain ⟨ws, taken, done, hwritten, hwire, hcalled⟩ := h
  refine ⟨ws ++ [x], taken, done, by simp [hwritten], hwire.writer x _, ?_⟩
  exact ⟨hcalled.first.trans (List.prefix_append _ _), hcalled.calls, hcalled.relayed⟩

theorem Follows.become {s : Path cap} {port : RxPort} {notify : Int32} {e : RxEvent}
    {ws done : List Sent} {taken : Nat} (hwritten : s.traffic.written = ws.map Sent.bytes)
    (hport : s.port.step e = some port) (hwire : OnWire (s.become port notify) ws taken)
    (hcalled : Called s ws done) : Follows (s.become port notify) := by
  obtain ⟨done', hcalled'⟩ := hcalled.become hwire (step_calls hport)
  exact ⟨ws, taken, done', hwritten, hwire, hcalled'⟩

theorem Follows.step {s t : Path cap} {e : Event} (h : Follows s) (hcomposed : Composed s.traffic)
    (hlossless : Lossless s e) (hstep : step s e = some t) : Follows t := by
  cases e with
  | host c =>
    obtain ⟨traffic, hcall, rfl⟩ := Option.map_eq_some_iff.mp hstep
    obtain ⟨ws, taken, done, hwritten, hwire, hcalled⟩ := h
    have hsame : traffic.written = s.traffic.written := call_written hcall
    exact ⟨ws, taken, done, hsame.trans hwritten, { hwire with }, { hcalled with }⟩
  | writer =>
    obtain ⟨p, q, hq, rfl⟩ := writer_cases hstep
    obtain ⟨x, rfl⟩ := hcomposed p (by simp [hq])
    exact h.writer x _
  | isr n =>
    obtain ⟨-, hport⟩ := Option.ite_none_right_eq_some.mp hstep
    obtain ⟨port, hisr, rfl⟩ := Option.map_eq_some_iff.mp hport
    obtain rfl := Option.some.inj hisr
    obtain ⟨ws, taken, done, hwritten, hwire, hcalled⟩ := h
    exact ⟨ws, taken, done, hwritten, hwire.isr hlossless, { hcalled with }⟩
  | read notify =>
    obtain ⟨port, hport, rfl⟩ := Option.map_eq_some_iff.mp hstep
    obtain ⟨ws, taken, done, hwritten, hwire, hcalled⟩ := h
    exact Follows.become hwritten hport (hwire.read hport notify) hcalled
  | timeout =>
    obtain ⟨port, hport, rfl⟩ := Option.map_eq_some_iff.mp hstep
    obtain ⟨ws, taken, done, hwritten, hwire, hcalled⟩ := h
    exact Follows.become hwritten hport (hwire.timeout hport hlossless 0) hcalled
  | callback cb =>
    obtain rfl := Option.some.inj hstep
    obtain ⟨ws, taken, done, hwritten, hwire, hcalled⟩ := h
    exact ⟨ws, taken, done, hwritten, { hwire with }, { hcalled with }⟩
  | releaseAll u notify =>
    obtain rfl := Option.some.inj hstep
    obtain ⟨ws, taken, done, hwritten, hwire, hcalled⟩ := h
    refine ⟨ws, taken, done, hwritten, { hwire with }, hcalled.first, hcalled.calls, ?_⟩
    rw [relayed_releaseReport]
    exact hcalled.relayed

theorem InOrder.writer {t : Traffic cap} {p : List UInt8} {q : Fifo (List UInt8) cap} (h : InOrder t)
    (hq : t.link.txQ.items = p :: q.items) :
    InOrder { t with link := { t.link with txQ := q }, written := t.written ++ [p] } := by
  change (frames (t.written ++ [p] ++ q.items)).Sublist _
  rw [List.append_assoc, List.singleton_append, ← hq]
  exact h

theorem Composed.writer {t : Traffic cap} {p : List UInt8} {q : Fifo (List UInt8) cap}
    (h : Composed t) (hq : t.link.txQ.items = p :: q.items) :
    Composed { t with link := { t.link with txQ := q }, written := t.written ++ [p] } := by
  intro x hx
  change x ∈ t.written ++ [p] ++ q.items at hx
  rw [List.append_assoc, List.singleton_append, ← hq] at hx
  exact h x hx

/-- A property of the queue and its record that the host's calls and the writer keep is kept. -/
theorem traffic_kept {P : Traffic cap → Prop} {s t : Path cap} {e : Event} (h : P s.traffic)
    (hcall : ∀ c u, e = .host c → call s.traffic c = some u → P u)
    (hwriter : ∀ p (q : Fifo (List UInt8) cap), s.traffic.link.txQ.items = p :: q.items →
      P { s.traffic with
        link := { s.traffic.link with txQ := q }, written := s.traffic.written ++ [p] })
    (hstep : step s e = some t) : P t.traffic := by
  cases e with
  | host c =>
    obtain ⟨traffic, hc, rfl⟩ := Option.map_eq_some_iff.mp hstep
    exact hcall c traffic rfl hc
  | writer =>
    obtain ⟨p, q, hq, rfl⟩ := writer_cases hstep
    exact hwriter p q hq
  | isr n =>
    obtain ⟨-, hport⟩ := Option.ite_none_right_eq_some.mp hstep
    obtain ⟨port, -, rfl⟩ := Option.map_eq_some_iff.mp hport
    exact h
  | read notify =>
    obtain ⟨port, -, rfl⟩ := Option.map_eq_some_iff.mp hstep
    exact h
  | timeout =>
    obtain ⟨port, -, rfl⟩ := Option.map_eq_some_iff.mp hstep
    exact h
  | callback cb =>
    obtain rfl := Option.some.inj hstep
    exact h
  | releaseAll u notify =>
    obtain rfl := Option.some.inj hstep
    exact h

/-- The reports that the dongle sends by itself let all keys go. -/
def OwnZeros (s : Path cap) : Prop :=
  ∀ r ∈ s.notified, r.1 = .releaseAll → payloadOf r.2 ∈ releaseFrames

theorem OwnZeros.become {s : Path cap} (h : OwnZeros s) (port : RxPort) (notify : Int32) :
    OwnZeros (s.become port notify) := by
  intro r hr hown
  obtain hold | hnew := List.mem_append.mp hr
  · exact h r hold hown
  · obtain ⟨n, -, rfl⟩ := List.mem_map.mp hnew
    cases hown

theorem zeroFrame_mem (u : Usage) : (zeroFrame u).bytes ∈ releaseFrames := by
  cases u <;> decide

theorem OwnZeros.releaseReport {s : Path cap} (h : OwnZeros s) (u : Usage) (notify : Int32) :
    OwnZeros (s.releaseReport u notify) := by
  intro r hr hown
  obtain hold | hnew := List.mem_append.mp hr
  · exact h r hold hown
  · obtain ⟨n, hn, rfl⟩ := List.mem_map.mp hnew
    split at hn
    · obtain hnone | ⟨m, hm, hpayload⟩ := sent_cases s.dongle u (zeroFrame u).report
      · rw [hnone] at hn
        cases hn
      · rw [hm, List.mem_singleton] at hn
        subst hn
        change payloadOf n ∈ releaseFrames
        rw [hpayload]
        exact zeroFrame_mem u
    · cases hn

theorem OwnZeros.step {s t : Path cap} {e : Event} (h : OwnZeros s) (hstep : step s e = some t) :
    OwnZeros t := by
  cases e with
  | host c =>
    obtain ⟨traffic, -, rfl⟩ := Option.map_eq_some_iff.mp hstep
    exact h
  | writer =>
    obtain ⟨p, q, -, rfl⟩ := writer_cases hstep
    exact h
  | isr n =>
    obtain ⟨-, hport⟩ := Option.ite_none_right_eq_some.mp hstep
    obtain ⟨port, -, rfl⟩ := Option.map_eq_some_iff.mp hport
    exact h
  | read notify =>
    obtain ⟨port, -, rfl⟩ := Option.map_eq_some_iff.mp hstep
    exact h.become port notify
  | timeout =>
    obtain ⟨port, -, rfl⟩ := Option.map_eq_some_iff.mp hstep
    exact h.become port 0
  | callback cb =>
    obtain rfl := Option.some.inj hstep
    exact h
  | releaseAll u notify =>
    obtain rfl := Option.some.inj hstep
    exact h.releaseReport u notify

structure Sound (s : Path cap) : Prop where
  inOrder : InOrder s.traffic
  composed : Composed s.traffic
  follows : Follows s

theorem Sound.step {s t : Path cap} {e : Event} (h : Sound s) (hlossless : Lossless s e)
    (hstep : step s e = some t) : Sound t where
  inOrder := traffic_kept h.inOrder (fun _ _ _ => h.inOrder.call) (fun _ _ => h.inOrder.writer) hstep
  composed :=
    traffic_kept h.composed (fun _ _ _ => h.composed.call) (fun _ _ => h.composed.writer) hstep
  follows := h.follows.step h.composed hlossless hstep

theorem sound_start (ser : Nat) : Sound (Path.start cap ser) where
  inOrder := List.Sublist.slnil
  composed := nofun
  follows := ⟨[], 0, [], rfl, ⟨rfl, Nat.le_refl _, rfl, rfl⟩, ⟨List.prefix_rfl, rfl, List.Sublist.slnil⟩⟩

/-- What reaches the TV are frames that the host handed in, in the order in which it did, none twice
and none that the host did not send, but for the zero reports of a bond clear: whatever the queue has
to give up, whenever the host releases all keys, and whatever becomes of the link, as long as no byte is
lost on the serial line. -/
theorem tv_hears_in_order {ser : Nat} {s : Path cap}
    (h : ReachableBy step Lossless (Path.start cap ser) s) :
    s.relayed.Sublist s.traffic.enqueued ∧
      ∀ r ∈ s.notified, r.1 = .releaseAll → payloadOf r.2 ∈ releaseFrames := by
  refine ⟨?_, h.reachable.invariant (P := OwnZeros) nofun fun _ _ _ ht _ hstep => ht.step hstep⟩
  obtain ⟨hinOrder, -, ws, taken, done, hwritten, -, hcalled⟩ : Sound s :=
    h.invariant (sound_start ser) fun _ _ _ ht he hstep => ht.step he hstep
  obtain ⟨later, rfl⟩ := hcalled.first
  refine hcalled.relayed.trans (List.Sublist.trans ?_ hinOrder)
  rw [hwritten, frames_append, List.map_append, frames_append, List.append_assoc]
  exact List.sublist_append_left _ _

instance (s : Path cap) : ∀ e : Event, Decidable (Lossless s e)
  | .isr n => inferInstanceAs (Decidable ((s.wire.take n).length ≤ s.port.cmdRxRb.space))
  | .timeout => inferInstanceAs (Decidable (s.port.thread.reading = .loop))
  | .host _ | .writer | .read _ | .callback _ | .releaseAll _ _ => .isTrue trivial

def enterDown : Frame := ⟨.keyboard, [0, 0, 0x28, 0, 0, 0, 0, 0], rfl⟩
def playDown : Frame := ⟨.consumer, [0xCD, 0], rfl⟩

/-- A queue that gives up a press, a key that comes before the TV has connected, one for which the
stack has no buffer, and a bond clear that begins. -/
def refused : List Event :=
  [.host (.heard { connected := true, ready := true }),
    .host (.enqueueNowait enterDown),
    .host (.enqueueNowait (zeroFrame .keyboard)), .writer, .isr 9] ++ List.replicate 9 (.read 0) ++
  [.callback (.connected 0 0 none 0), .callback (.securityChanged 2 0), .callback (.ccCccChanged 1),
    .host (.enqueueStrict playDown "key_down"), .writer,
    .host (.enqueueStrict (zeroFrame .consumer) "key_up"), .writer, .isr 6, .read 0, .read 0,
    .read (-enomem), .read 0, .read 0, .read 0, .releaseAll .keyboard 0, .releaseAll .consumer 0]

theorem tv_hears_in_order_refused : ∃ s, execute step (Path.start 1 0) refused = some s ∧
    s.tv = [(zeroFrame .consumer).bytes, (zeroFrame .consumer).bytes] ∧
    s.relayed = [(zeroFrame .consumer).bytes] ∧ s.relayed.Sublist s.traffic.enqueued :=
  ⟨_, rfl, by decide +kernel, by decide +kernel, (tv_hears_in_order (reachableBy_of_execute
    (show execute step (Path.start 1 0) refused = some _ from rfl) (by decide +kernel))).1⟩

/-! ### The last key -/

/-- The frame of a call that sends a report. -/
def framed : CommandReader.Call → Option (List UInt8)
  | .sendKeyboardReport report8 => some (Usage.keyboard.opcode :: report8)
  | .sendConsumerReport report2 => some (Usage.consumer.opcode :: report2)
  | _ => none

/-- A full queue does not give up the last frame of a usage, and a report that the thread has read is
notified. -/
def Delivers (s : Path cap) : Event → Prop
  | .host (.enqueueNowait f) =>
    s.traffic.link.sends = true → Spares s.traffic (.enqueueNowait f.bytes)
  | .read notify => ∀ ch ∈ s.port.cmdRxRb.items.head?,
    (∃ c ∈ (s.port.thread.onByte ch).2, c.isReport = true) →
      notify = 0 ∧ s.dongle.KeysGoThrough
  | _ => True

/-- The TV has been given every report that the thread has called for. -/
def Delivered (s : Path cap) : Prop := s.relayed = s.port.calls.filterMap framed

theorem framed_item (x : Sent) : (framed x.item.call).toList = frames [x.bytes] := by
  cases x with
  | frame f =>
    have hframes : frames [(Sent.frame f).bytes] = [f.bytes] := by
      simp [frames, Sent.bytes, Sent.item, Item.bytes, isHidFrame_bytes]
    rw [hframes]
    obtain ⟨u, report, hsized⟩ := f
    cases u <;> rfl
  | line l => exact (frames_line l).symm

theorem framed_items (xs : List Sent) :
    (xs.map fun x => x.item.call).filterMap framed = frames (xs.map Sent.bytes) := by
  induction xs with
  | nil => rfl
  | cons x xs ih =>
    have hsplit : frames ((x :: xs).map Sent.bytes) =
        frames [x.bytes] ++ frames (xs.map Sent.bytes) := by
      rw [← frames_append]
      rfl
    rw [hsplit, ← ih, ← framed_item, List.map_cons, List.filterMap_cons]
    cases framed x.item.call <;> rfl

/-- A byte makes the thread call one handler at most. -/
theorem onByte_calls (t : Thread) (ch : UInt8) :
    (t.onByte ch).2 = [] ∨ ∃ c, (t.onByte ch).2 = [c] := by
  obtain ⟨reading, line⟩ := t
  cases reading with
  | loop =>
    simp only [Thread.onByte]
    split_ifs <;> simp
  | readExact usage dst =>
    cases usage <;> simp only [Thread.onByte, CommandReader.cmdHandleBinKb,
      CommandReader.cmdHandleBinCc, handleBin] <;> split_ifs <;> simp
  | resyncToNewline =>
    simp only [Thread.onByte]
    split_ifs <;> simp

/-- A call for a report that goes through, or for a line of the host. -/
theorem answer_framed {d : Dongle} {notify : Int32} {x : Sent}
    (h : x.item.call.isReport = true → notify = 0 ∧ d.KeysGoThrough) :
    (answer d notify x.item.call).2.map payloadOf = (framed x.item.call).toList := by
  cases x with
  | frame f =>
    obtain ⟨u, report, hsized⟩ := f
    obtain ⟨rfl, hthrough⟩ := h (by cases u <;> rfl)
    obtain ⟨n, hn, hpayload⟩ := sent_through hthrough u report
    have hanswer := answer_report d 0 u report
    rw [if_pos rfl, hn] at hanswer
    change (answer d 0 (sendReport u report)).2.map payloadOf = (framed (sendReport u report)).toList
    rw [hanswer]
    cases u <;> simp [hpayload, CommandReader.sendReport, framed]
  | line l =>
    rw [answer_line]
    rfl

theorem Delivered.read {s : Path cap} {port : RxPort} {notify : Int32} {ws : List Sent} {taken : Nat}
    (h : Delivered s) (hdelivers : Delivers s (.read notify)) (hport : s.port.step .read = some port)
    (hwire : OnWire (s.become port notify) ws taken) : Delivered (s.become port notify) := by
  cases hitems : s.port.cmdRxRb.items with
  | nil => simp [RxPort.step, hitems] at hport
  | cons ch rest =>
    simp only [RxPort.step, hitems, Option.some.injEq] at hport
    subst hport
    obtain ⟨done, -, hdone⟩ := hwire.called
    have hgate := hdelivers ch (by simp [hitems])
    have hnew : (s.port.calls ++ (s.port.thread.onByte ch).2).drop s.port.calls.length =
        (s.port.thread.onByte ch).2 := List.drop_left
    unfold Delivered at *
    rw [relayed_become]
    simp only [Path.become, RxPort.become, hnew, List.filterMap_append] at hdone ⊢
    rw [h]
    congr 1
    obtain hnone | ⟨c, hc⟩ := onByte_calls s.port.thread ch
    · rw [hnone]
      rfl
    · rw [hc] at hgate hdone ⊢
      have hmem : c ∈ s.port.calls ++ [c] := by simp
      rw [hdone] at hmem
      obtain ⟨x, -, rfl⟩ := List.mem_map.mp hmem
      have hanswer := answer_framed (x := x) fun hreport => hgate ⟨_, by simp, hreport⟩
      simp only [answers, List.append_nil, hanswer, List.filterMap_cons, List.filterMap_nil]
      cases framed x.item.call <;> rfl

theorem Delivered.step {s t : Path cap} {e : Event} (h : Delivered s) (hsound : Sound s)
    (hlossless : Lossless s e) (hdelivers : Delivers s e) (hstep : step s e = some t) :
    Delivered t := by
  obtain ⟨-, -, ws, taken, done, -, hwire, -⟩ := hsound
  cases e with
  | host c =>
    obtain ⟨traffic, -, rfl⟩ := Option.map_eq_some_iff.mp hstep
    exact h
  | writer =>
    obtain ⟨p, q, -, rfl⟩ := writer_cases hstep
    exact h
  | isr n =>
    obtain ⟨-, hport⟩ := Option.ite_none_right_eq_some.mp hstep
    obtain ⟨port, hisr, rfl⟩ := Option.map_eq_some_iff.mp hport
    obtain rfl := Option.some.inj hisr
    exact h
  | read notify =>
    obtain ⟨port, hport, rfl⟩ := Option.map_eq_some_iff.mp hstep
    exact h.read hdelivers hport (hwire.read hport notify)
  | timeout =>
    obtain ⟨port, hport, rfl⟩ := Option.map_eq_some_iff.mp hstep
    obtain ⟨-, rfl⟩ := of_guard hport
    have hloop : s.port.thread.reading = .loop := hlossless
    unfold Delivered
    rw [relayed_become]
    simpa [Delivered, Path.become, RxPort.become, Thread.onTimeout, hloop, answers] using h
  | callback cb =>
    obtain rfl := Option.some.inj hstep
    exact h
  | releaseAll u notify =>
    obtain rfl := Option.some.inj hstep
    unfold Delivered
    rw [relayed_releaseReport]
    exact h

/-- After `release_all` the zero reports are the last of what is queued. -/
theorem lastFrame_releaseAll (hcap : 2 ≤ cap) {t : Traffic cap} (hopen : t.link.isOpen = true)
    (u : Usage) : lastFrame u (t.written ++ t.link.releaseAll.txQ.items) =
      lastFrame u (t.enqueued ++ releaseFrames) := by
  have hfits := (Link.drainHidFrames id t.link.txQ).fits
  have hzeros : lastFrame u releaseFrames = some (zeroFrame u).bytes := by cases u <;> rfl
  have hqueue : t.link.releaseAll.txQ.items = (Link.drainHidFrames id t.link.txQ).items.drop
      ((Link.drainHidFrames id t.link.txQ).items.length + 2 - cap) ++ releaseFrames := by
    simp only [Link.releaseAll, Link.enqueuePriorityFrames, hopen, Bool.not_true,
      Bool.false_eq_true, if_false]
    rw [Fifo.foldl_putDropOldest_items (by omega)]
    exact List.drop_append_of_le_length (by change _ + 2 - cap ≤ _; omega)
  rw [hqueue, ← List.append_assoc, lastFrame_append, lastFrame_append u t.enqueued, hzeros]
  rfl

theorem Faithful.push {t : Traffic cap} (h : Faithful t) {q : Fifo (List UInt8) cap} {p : List UInt8}
    {state : Link (List UInt8) cap} (hq : q.items = t.link.txQ.items ++ [p]) (es : List (List UInt8))
    (hes : ∀ u, lastFrame u es = lastFrame u [p]) :
    Faithful { t with link := { state with txQ := q }, enqueued := t.enqueued ++ es } := by
  intro u
  change lastFrame u (t.written ++ q.items) = lastFrame u (t.enqueued ++ es)
  rw [hq, ← List.append_assoc, lastFrame_append, lastFrame_append u t.enqueued, h u, hes u]

theorem Faithful.call (hcap : 2 ≤ cap) {t u : Traffic cap} {c : Call} (h : Faithful t)
    (hspares : ∀ f, c = .enqueueNowait f → t.link.sends = true → Spares t (.enqueueNowait f.bytes))
    (hcall : call t c = some u) : Faithful u := by
  cases c with
  | enqueueNowait f =>
    obtain rfl := Option.some.inj hcall
    cases hsends : t.link.sends with
    | false =>
      have hsame : t.link.enqueueNowait f.bytes = t.link := by simp [Link.enqueueNowait, hsends]
      rw [hsame]
      simpa [handIn] using h
    | true =>
      exact ((spares_iff (by omega) ⟨hsends, h⟩ (e := .enqueueNowait f.bytes) rfl).mp
        (hspares f rfl hsends)).2
  | enqueueStrict f action =>
    obtain rfl | ⟨link, hlink, rfl⟩ := enqueueStrict_cases hcall
    · exact h
    · exact Faithful.push h hlink [f.bytes] fun _ => rfl
  | releaseAll =>
    obtain rfl := Option.some.inj hcall
    cases hopen : t.link.isOpen with
    | false =>
      have hsame : t.link.releaseAll = t.link := by
        simp [Link.releaseAll, Link.enqueuePriorityFrames, hopen]
      rw [hsame]
      simpa [handIn] using h
    | true => exact fun usage => lastFrame_releaseAll hcap hopen usage
  | writeLine l =>
    obtain ⟨q, hq, rfl⟩ := writeLine_cases hcall
    have hline : ∀ usage, lastFrame usage [] = lastFrame usage [writeLine l.text] := fun usage => by
      rw [lastFrame_singleton, frameUsage_writeLine (Asked.printable l)]
      rfl
    simpa using Faithful.push h hq [] hline
  | heard state =>
    obtain rfl := Option.some.inj hcall
    exact h

theorem Faithful.writer {t : Traffic cap} {p : List UInt8} {q : Fifo (List UInt8) cap}
    (h : Faithful t) (hq : t.link.txQ.items = p :: q.items) :
    Faithful { t with link := { t.link with txQ := q }, written := t.written ++ [p] } := by
  intro u
  change lastFrame u (t.written ++ [p] ++ q.items) = _
  rw [List.append_assoc, List.singleton_append, ← hq]
  exact h u

theorem faithful_step (hcap : 2 ≤ cap) {s t : Path cap} {e : Event} (h : Faithful s.traffic)
    (hdelivers : Delivers s e) (hstep : step s e = some t) : Faithful t.traffic := by
  refine traffic_kept h (fun c u hc hcall => Faithful.call hcap h (fun f hf => ?_) hcall)
    (fun p q hq => Faithful.writer h hq) hstep
  subst hc hf
  exact hdelivers

/-- A frame that has gone all the way. -/
theorem Sound.arrived {s : Path cap} (h : Sound s) (hdelivered : Delivered s)
    (hwire : s.wire = []) (hring : s.port.cmdRxRb.items = []) :
    s.relayed = frames s.traffic.written := by
  obtain ⟨-, -, ws, taken, done, hwritten, hline, -⟩ := h
  have hall : (stream ws).take taken = stream ws := by
    have hrest := hline.rest
    rw [hring, hwire] at hrest
    exact List.take_of_length_le (List.drop_eq_nil_iff.mp hrest.symm)
  have hcalls := hline.calls
  rw [hall] at hcalls
  change s.port.calls = (feed ⟨.loop, []⟩ (encode (ws.map Sent.item))).2 at hcalls
  rw [feed_encode (item_fits ws), List.map_map] at hcalls
  rw [hdelivered, hwritten, hcalls]
  exact framed_items ws

theorem lastFrame_frames (u : Usage) (ps : List (List UInt8)) :
    lastFrame u (frames ps) = lastFrame u ps := by
  unfold lastFrame frames
  rw [List.filter_filter]
  congr 2
  funext p
  by_cases hp : frameUsage p = some u
  · simp [hp, isHidFrame_eq]
  · simp [hp]

theorem releaseFrame_eq {p : List UInt8} {u : Usage} (hp : p ∈ releaseFrames)
    (hu : frameUsage p = some u) : p = (zeroFrame u).bytes := by
  obtain ⟨v, rfl⟩ : ∃ v : Usage, p = (zeroFrame v).bytes := by
    obtain rfl | hcc := List.mem_cons.mp hp
    · exact ⟨.keyboard, rfl⟩
    · exact ⟨.consumer, List.mem_singleton.mp hcc⟩
  rw [frameUsage_bytes] at hu
  rw [← Option.some.inj hu]
  rfl

/-- The last report of a usage is a zero report of the dongle's own, or the last that came from the
host. -/
theorem lastFrame_tv {s : Path cap} (hown : OwnZeros s) (u : Usage) : lastFrame u s.tv =
    if s.cleared u then some (zeroFrame u).bytes else lastFrame u s.relayed := by
  have htv : lastFrame u s.tv = (s.notified.filter fun r =>
      frameUsage (payloadOf r.2) = some u).getLast?.map fun r => payloadOf r.2 := by
    rw [lastFrame, Path.tv, List.filter_map, List.getLast?_map]
    rfl
  have hrelayed : lastFrame u s.relayed = ((s.notified.filter fun r =>
      frameUsage (payloadOf r.2) = some u).filter fun r => r.1 = .host).getLast?.map fun r =>
        payloadOf r.2 := by
    rw [lastFrame, Path.relayed, List.filter_map, List.getLast?_map, List.filter_filter,
      List.filter_filter]
    congr 3
    funext r
    exact Bool.and_comm ..
  rw [htv, hrelayed]
  unfold Path.cleared
  cases hlast : (s.notified.filter fun r => frameUsage (payloadOf r.2) = some u).getLast? with
  | none =>
    rw [List.getLast?_eq_none_iff.mp hlast]
    rfl
  | some r =>
    obtain ⟨earlier, hsplit⟩ := List.getLast?_eq_some_iff.mp hlast
    obtain ⟨origin, n⟩ := r
    cases origin with
    | host =>
      rw [hsplit, List.filter_append]
      simp
    | releaseAll =>
      have hmem : (Origin.releaseAll, n) ∈ s.notified.filter fun r =>
          frameUsage (payloadOf r.2) = some u := by simp [hsplit]
      obtain ⟨hgiven, husage⟩ := List.mem_filter.mp hmem
      have hbytes : payloadOf n = (zeroFrame u).bytes :=
        releaseFrame_eq (hown _ hgiven rfl) (of_decide_eq_true husage)
      simp [hbytes]

/-- Whenever everything has gone through, the report of each usage that the TV was given last is the
one the host handed in last, or one with which a bond clear let all keys go after it: a press that the
host has released, or a `release_all`, leaves no key held. It takes a serial line that loses nothing, a
queue that does not give up a last frame, and a link that is open to a report when it comes. -/
theorem tv_ends_as_handed_in (hcap : 2 ≤ cap) {ser : Nat} {s : Path cap}
    (h : ReachableBy step (fun s e => Lossless s e ∧ Delivers s e) (Path.start cap ser) s)
    (hqueue : s.traffic.link.txQ.items = []) (hwire : s.wire = [])
    (hring : s.port.cmdRxRb.items = []) (u : Usage) : lastFrame u s.tv =
      if s.cleared u then some (zeroFrame u).bytes else lastFrame u s.traffic.enqueued := by
  obtain ⟨hsound, hdelivered, hfaithful⟩ :=
    h.invariant (P := fun t => Sound t ∧ Delivered t ∧ Faithful t.traffic)
      ⟨sound_start ser, rfl, start_faithful _⟩ fun t e v ht he hstep =>
        ⟨ht.1.step he.1 hstep, ht.2.1.step ht.1 he.1 he.2 hstep,
          faithful_step hcap ht.2.2 he.2 hstep⟩
  have hown : OwnZeros s :=
    h.reachable.invariant (P := OwnZeros) nofun fun _ _ _ ht _ hstep => ht.step hstep
  have hlast := hfaithful u
  rw [hqueue, List.append_nil] at hlast
  rw [lastFrame_tv hown, hsound.arrived hdelivered hwire hring, lastFrame_frames, hlast]

instance (t : Traffic cap) (p : List UInt8) : Decidable (Spares t (.enqueueNowait p)) :=
  match hitems : t.link.txQ.items with
  | [] => .isTrue fun oldest rest u h => by rw [hitems] at h; cases h
  | oldest :: rest => decidable_of_iff (t.link.txQ.items.length = cap → ∀ u ∈ frameUsage oldest,
      (∃ x ∈ rest ++ [p], frameUsage x = some u) ∨ lastFrame u t.written = some oldest) <| by
    refine ⟨fun h oldest' rest' u heq hlen hu => ?_, fun h hlen u hu => h oldest rest u hitems hlen hu⟩
    obtain ⟨rfl, rfl⟩ := List.cons.inj (hitems.symm.trans heq)
    exact h hlen u hu

instance (d : Dongle) : Decidable d.KeysGoThrough := decidable_of_iff _ (keysGoThrough_iff d).symm

instance (s : Path cap) : ∀ e : Event, Decidable (Delivers s e)
  | .host (.enqueueNowait _) => inferInstanceAs (Decidable (_ → _))
  | .read _ => inferInstanceAs (Decidable (∀ ch ∈ s.port.cmdRxRb.items.head?, _ → _))
  | .host (.enqueueStrict _ _) | .host .releaseAll | .host (.writeLine _) | .host (.heard _)
  | .writer | .isr _ | .timeout | .callback _ | .releaseAll _ _ => .isTrue trivial

/-- An encrypted link in report mode. A key is pressed on it while the dongle is asked for its status,
and let go by `release_all`; a second one is let go by a bond clear, which gets no buffer for its
keyboard report. -/
def pressed : List Event :=
  [.callback (.connected 0 0 none 0), .callback (.securityChanged 2 0), .callback (.kbCccChanged 1),
    .callback (.ccCccChanged 1), .host (.heard { connected := true, ready := true }),
    .host (.enqueueNowait enterDown), .host (.writeLine .status),
    .writer, .isr 5, .read 0, .read 0, .host .releaseAll, .isr 4] ++ List.replicate 7 (.read 0) ++
  [.timeout, .writer, .writer, .writer, .isr 19] ++ List.replicate 19 (.read 0) ++
  [.host (.enqueueNowait playDown), .writer, .isr 3, .read 0, .read 0, .read 0,
    .releaseAll .keyboard (-enomem), .releaseAll .consumer 0]

theorem tv_ends_as_handed_in_pressed : ∃ s, execute step (Path.start 4 0) pressed = some s ∧
    s.tv = [enterDown.bytes, (zeroFrame .keyboard).bytes, (zeroFrame .consumer).bytes, playDown.bytes,
      (zeroFrame .consumer).bytes] ∧
    s.cleared .keyboard = false ∧ s.cleared .consumer = true ∧ ∀ u, lastFrame u s.tv =
      if s.cleared u then some (zeroFrame u).bytes else lastFrame u s.traffic.enqueued :=
  ⟨_, rfl, by decide +kernel, by decide +kernel, by decide +kernel,
    tv_ends_as_handed_in (by decide) (reachableBy_of_execute
      (show execute step (Path.start 4 0) pressed = some _ from rfl) (by decide +kernel)) rfl rfl rfl⟩

end PiHub.KeyPath

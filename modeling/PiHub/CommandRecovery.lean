import PiHub.CommandReader

/-! The command thread with its clock (main.c): silence ends every read it can be in, and what the
host sends then is decoded. -/
namespace PiHub.CommandRecovery
open PiHub.Transition PiHub.HostFrames PiHub.CommandReader

def cmdBinReadTimeoutMs : Nat := 30

/-- The flush window of `cmd_rx_resync_to_newline`. -/
def resyncMs : Nat := 50

/-- How long a read may take from where it begins. -/
def Reading.window : Reading → Nat
  | .loop => 1000
  | .readExact _ _ => cmdBinReadTimeoutMs
  | .resyncToNewline => resyncMs

/-- The next byte is waited for under the same deadline. -/
def Reading.goesOn : Reading → Reading → Bool
  | .readExact _ _, .readExact _ _ => true
  | .resyncToNewline, .resyncToNewline => true
  | _, _ => false

structure TimedPort where
  port : RxPort
  now : Nat
  deadline : Nat

def TimedPort.start : TimedPort := ⟨.start, 0, Reading.window .loop⟩

inductive TimedEvent where
  | rx (e : RxEvent)
  | tick (ms : Nat)

/-- The thread has taken a step. -/
def TimedPort.become (s : TimedPort) (port : RxPort) : TimedPort :=
  { s with
    port := port
    deadline := if Reading.goesOn s.port.thread.reading port.thread.reading then s.deadline
      else s.now + Reading.window port.thread.reading }

def TimedPort.step (s : TimedPort) : TimedEvent → Option TimedPort
  | .rx (.isr bytes) => (s.port.step (.isr bytes)).map fun port => { s with port := port }
  | .rx .read => (s.port.step .read).map s.become
  | .rx .timeout => if s.deadline ≤ s.now then (s.port.step .timeout).map s.become else none
  | .tick ms =>
    -- a thread that waits is woken at its deadline
    if s.port.cmdRxRb.items = [] → s.now + ms ≤ s.deadline then some { s with now := s.now + ms }
    else none

/-- What the driver and the thread do in a timed run. -/
def untimed : List TimedEvent → List RxEvent
  | [] => []
  | .rx e :: es => e :: untimed es
  | .tick _ :: es => untimed es

def elapsed : List TimedEvent → Nat
  | [] => 0
  | .rx _ :: es => elapsed es
  | .tick ms :: es => ms + elapsed es

def TimedEvent.silent : TimedEvent → Bool
  | .rx (.isr _) => false
  | _ => true

theorem untimed_run {s t : TimedPort} {es : List TimedEvent}
    (h : execute TimedPort.step s es = some t) :
    execute RxPort.step s.port (untimed es) = some t.port := by
  induction es generalizing s with
  | nil =>
    obtain rfl : s = t := by simpa [execute] using h
    rfl
  | cons e es ih =>
    obtain ⟨u, hu, hrest⟩ := Option.bind_eq_some_iff.mp h
    cases e with
    | tick ms =>
      obtain ⟨-, rfl⟩ := of_guard hu
      have hport := ih hrest
      exact hport
    | rx e =>
      have hport : s.port.step e = some u.port := by
        cases e with
        | isr bytes =>
          rw [TimedPort.step] at hu
          obtain ⟨port, hport, rfl⟩ := Option.map_eq_some_iff.mp hu
          exact hport
        | read =>
          rw [TimedPort.step] at hu
          obtain ⟨port, hport, rfl⟩ := Option.map_eq_some_iff.mp hu
          exact hport
        | timeout =>
          rw [TimedPort.step] at hu
          obtain ⟨-, hu⟩ := Option.ite_none_right_eq_some.mp hu
          obtain ⟨port, hport, rfl⟩ := Option.map_eq_some_iff.mp hu
          exact hport
      rw [untimed, execute_cons hport]
      exact ih hrest

/-! ### The line buffer -/

theorem onByte_line {t : Thread} (h : t.line.length ≤ cmdAsciiMaxLen) (ch : UInt8) :
    (t.onByte ch).1.line.length ≤ cmdAsciiMaxLen := by
  obtain ⟨reading, line⟩ := t
  cases reading with
  | loop =>
    unfold Thread.onByte
    dsimp only
    split
    · exact h
    · split
      · exact h
      · split
        · exact h
        · split
          · exact Nat.zero_le _
          · split
            · simpa using Nat.succ_le_of_lt ‹_›
            · exact Nat.zero_le _
  | readExact usage dst =>
    cases usage <;>
      · simp only [Thread.onByte, cmdHandleBinKb, cmdHandleBinCc, handleBin]
        split <;> exact h
  | resyncToNewline =>
    simp only [Thread.onByte]
    split <;> exact h

theorem onTimeout_line {t : Thread} (h : t.line.length ≤ cmdAsciiMaxLen) :
    t.onTimeout.1.line.length ≤ cmdAsciiMaxLen := by
  obtain ⟨reading, line⟩ := t
  cases reading with
  | loop => exact h
  | readExact usage dst => exact Nat.zero_le _
  | resyncToNewline => exact h

/-- In every state the thread reaches its line leaves room for the terminator. -/
theorem line_fits {s : TimedPort} {es : List TimedEvent}
    (h : execute TimedPort.step .start es = some s) :
    s.port.thread.line.length ≤ cmdAsciiMaxLen := by
  have hrun := untimed_run h
  refine (reachable_of_execute hrun).invariant (P := fun p => p.thread.line.length ≤ cmdAsciiMaxLen)
    (Nat.zero_le _) ?_
  intro p e q hp _ hstep
  cases e with
  | isr bytes =>
    obtain rfl := Option.some.inj hstep
    exact hp
  | read =>
    simp only [RxPort.step] at hstep
    split at hstep
    · cases hstep
    · obtain rfl := Option.some.inj hstep
      exact onByte_line hp _
  | timeout =>
    obtain ⟨-, rfl⟩ := of_guard hstep
    exact onTimeout_line hp

/-! ### Silence -/

theorem window_of_goesOn {r r' : Reading} (h : Reading.goesOn r r' = true) :
    Reading.window r' = Reading.window r := by
  cases r <;> cases r' <;> first | rfl | cases h

/-- The read that goes on began no earlier than its window ago. -/
theorem deadline_le {s : TimedPort} {es : List TimedEvent}
    (h : execute TimedPort.step .start es = some s) :
    s.deadline ≤ s.now + Reading.window s.port.thread.reading := by
  have hbecome {s : TimedPort} (hs : s.deadline ≤ s.now + Reading.window s.port.thread.reading)
      (port : RxPort) : (s.become port).deadline ≤ s.now + Reading.window port.thread.reading := by
    unfold TimedPort.become
    dsimp only
    split
    next hgoes =>
      rw [window_of_goesOn hgoes]
      exact hs
    next => exact Nat.le_refl _
  refine (reachable_of_execute h).invariant
    (P := fun s => s.deadline ≤ s.now + Reading.window s.port.thread.reading) (Nat.le_refl _) ?_
  intro s e t hs _ hstep
  cases e with
  | tick ms =>
    obtain ⟨-, rfl⟩ := of_guard hstep
    dsimp only
    omega
  | rx e =>
    cases e with
    | isr bytes =>
      obtain rfl := Option.some.inj hstep
      exact hs
    | read =>
      rw [TimedPort.step] at hstep
      obtain ⟨port, -, rfl⟩ := Option.map_eq_some_iff.mp hstep
      exact hbecome hs port
    | timeout =>
      rw [TimedPort.step] at hstep
      obtain ⟨-, hstep⟩ := Option.ite_none_right_eq_some.mp hstep
      obtain ⟨port, -, rfl⟩ := Option.map_eq_some_iff.mp hstep
      exact hbecome hs port

/-- In silence since `from`, with nothing left to read: the read that goes on ends in time. -/
structure Settling (since : Nat) (s : TimedPort) : Prop where
  empty : s.port.cmdRxRb.items = []
  readExact : ∀ usage dst, s.port.thread.reading = .readExact usage dst →
    s.deadline ≤ since + cmdBinReadTimeoutMs ∧ s.now ≤ since + cmdBinReadTimeoutMs
  resync : s.port.thread.reading = .resyncToNewline →
    s.deadline ≤ since + cmdBinReadTimeoutMs + resyncMs ∧
      s.now ≤ since + cmdBinReadTimeoutMs + resyncMs

theorem Settling.start {s : TimedPort} (hempty : s.port.cmdRxRb.items = [])
    (h : s.deadline ≤ s.now + Reading.window s.port.thread.reading) : Settling s.now s where
  empty := hempty
  readExact := by
    intro usage dst hreading
    rw [hreading] at h
    exact ⟨h, Nat.le_add_right _ _⟩
  resync := by
    intro hreading
    rw [hreading] at h
    simp only [Reading.window, cmdBinReadTimeoutMs] at h ⊢
    omega

theorem Settling.step {since : Nat} {s t : TimedPort} {e : TimedEvent} (h : Settling since s)
    (hsilent : e.silent = true) (hstep : s.step e = some t) : Settling since t := by
  obtain ⟨⟨rb, ⟨reading, line⟩, calls⟩, now, deadline⟩ := s
  obtain ⟨hempty, hexact, hresync⟩ := h
  cases e with
  | tick ms =>
    obtain ⟨hguard, rfl⟩ := of_guard hstep
    have hwoken : now + ms ≤ deadline := hguard hempty
    refine ⟨hempty, ?_, ?_⟩
    · intro usage dst hreading
      have hbound := (hexact usage dst hreading).1
      exact ⟨hbound, Nat.le_trans hwoken hbound⟩
    · intro hreading
      have hbound := (hresync hreading).1
      exact ⟨hbound, Nat.le_trans hwoken hbound⟩
  | rx e =>
    cases e with
    | isr bytes => cases hsilent
    | read =>
      dsimp only at hempty
      simp [TimedPort.step, RxPort.step, hempty] at hstep
    | timeout =>
      rw [TimedPort.step] at hstep
      obtain ⟨-, hstep⟩ := Option.ite_none_right_eq_some.mp hstep
      obtain ⟨port, hport, rfl⟩ := Option.map_eq_some_iff.mp hstep
      obtain ⟨-, rfl⟩ := of_guard hport
      cases reading with
      | loop =>
        refine ⟨hempty, ?_, ?_⟩
        · rintro usage dst ⟨⟩
        · rintro ⟨⟩
      | resyncToNewline =>
        refine ⟨hempty, ?_, ?_⟩
        · rintro usage dst ⟨⟩
        · rintro ⟨⟩
      | readExact usage dst =>
        have hnow : now ≤ since + cmdBinReadTimeoutMs := (hexact usage dst rfl).2
        refine ⟨hempty, ?_, fun _ => ?_⟩
        · rintro usage dst ⟨⟩
        change now + resyncMs ≤ _ ∧ now ≤ _
        omega

theorem Settling.run {since : Nat} {s t : TimedPort} {silent : List TimedEvent}
    (h : Settling since s) (hrun : execute TimedPort.step s silent = some t)
    (hsilent : ∀ e ∈ silent, e.silent = true) :
    Settling since t ∧ t.now = s.now + elapsed silent := by
  induction silent generalizing s with
  | nil =>
    obtain rfl : s = t := by simpa [execute] using hrun
    exact ⟨h, rfl⟩
  | cons e es ih =>
    obtain ⟨u, hu, hrest⟩ := Option.bind_eq_some_iff.mp hrun
    obtain ⟨he, hes⟩ := List.forall_mem_cons.mp hsilent
    obtain ⟨hsettling, hnow⟩ := ih (h.step he hu) hrest hes
    refine ⟨hsettling, hnow.trans ?_⟩
    cases e with
    | tick ms =>
      obtain ⟨-, rfl⟩ := of_guard hu
      exact Nat.add_assoc ..
    | rx e =>
      have hclock : u.now = s.now := by
        cases e with
        | isr bytes => cases he
        | read =>
          rw [TimedPort.step] at hu
          obtain ⟨port, -, rfl⟩ := Option.map_eq_some_iff.mp hu
          rfl
        | timeout =>
          rw [TimedPort.step] at hu
          obtain ⟨-, hu⟩ := Option.ite_none_right_eq_some.mp hu
          obtain ⟨port, -, rfl⟩ := Option.map_eq_some_iff.mp hu
          rfl
      rw [hclock, elapsed]

/-- Silence longer than both windows leads to the top of the loop. -/
theorem loop_after_silence {p s : TimedPort} {before silent : List TimedEvent}
    (hbefore : execute TimedPort.step .start before = some p)
    (hempty : p.port.cmdRxRb.items = []) (hrun : execute TimedPort.step p silent = some s)
    (hsilent : ∀ e ∈ silent, e.silent = true)
    (hlong : cmdBinReadTimeoutMs + resyncMs < elapsed silent) :
    s.port.cmdRxRb.items = [] ∧ s.port.thread.reading = .loop := by
  obtain ⟨⟨hempty', hexact, hresync⟩, hnow⟩ :=
    (Settling.start hempty (deadline_le hbefore)).run hrun hsilent
  refine ⟨hempty', ?_⟩
  cases hreading : s.port.thread.reading with
  | loop => rfl
  | readExact usage dst =>
    have hbound := (hexact usage dst hreading).2
    omega
  | resyncToNewline =>
    have hbound := (hresync hreading).2
    omega

/-! ### What comes after the silence -/

/-- What the host sends: frames up to the next line, the text of that line, which the line buffer
may not be empty for, and from its newline on whole items. -/
structure Resumed where
  frames : List Frame
  text : List UInt8
  plain : ∀ b ∈ text, b ≠ 1 ∧ b ≠ 2 ∧ b ≠ 10
  items : List Item

def Resumed.lead (r : Resumed) : List UInt8 := encode (frameItems r.frames)

def Resumed.bytes (r : Resumed) : List UInt8 := r.lead ++ (r.text ++ 10 :: encode r.items)

/-- Where the first newline ends. -/
def Resumed.newline (r : Resumed) : Nat := r.lead.length + r.text.length + 1

def Resumed.InsideFrame (r : Resumed) (n : Nat) : Prop :=
  CommandReader.InsideFrame (frameItems r.frames) n ∨ CommandReader.InsideFrame r.items (n - r.newline)

instance (r : Resumed) (n : Nat) : Decidable (r.InsideFrame n) := inferInstanceAs (Decidable (_ ∨ _))

/-- No read deadline passes inside a frame: each is received completely within its window. -/
def Resumed.Timely (r : Resumed) (events : List RxEvent) : Prop :=
  ∀ i < events.length, events[i]? = some .timeout → ¬ r.InsideFrame (readCount (events.take i))

instance (r : Resumed) (events : List RxEvent) : Decidable (r.Timely events) :=
  inferInstanceAs (Decidable (∀ i < events.length, _))

/-- The items that end within so many bytes. -/
def whole : List Item → Nat → List Item
  | [], _ => []
  | it :: rest, n => if n < it.bytes.length then [] else it :: whole rest (n - it.bytes.length)

theorem feed_whole {line : List UInt8} {items : List Item} (h : ∀ it ∈ items, it.Fits line) (n : Nat) :
    (feed ⟨.loop, line⟩ ((encode items).take n)).2 = (whole items n).map Item.call := by
  induction items generalizing n with
  | nil => simp [encode, feed, whole]
  | cons it items ih =>
    have hit : it.Fits line := h it (by simp)
    have hcons : encode (it :: items) = it.bytes ++ encode items := rfl
    by_cases hlt : n < it.bytes.length
    · rw [hcons, List.take_append_of_le_length (Nat.le_of_lt hlt), (feed_part hit hlt).1, whole,
        if_pos hlt]
      rfl
    · rw [hcons, List.take_append, List.take_of_length_le (Nat.le_of_not_lt hlt), feed_append,
        feed_item hit, whole, if_neg hlt, List.map_cons, ← ih fun j hj => h j (by simp [hj])]
      rfl

theorem Item.bytes_pos (it : Item) : 0 < it.bytes.length := by
  cases it with
  | frame f => simp [Item.bytes, Frame.bytes]
  | line l => simp [Item.bytes, l.writeLine_text]

theorem whole_zero (items : List Item) : whole items 0 = [] := by
  cases items with
  | nil => rfl
  | cons it rest => exact if_pos (Item.bytes_pos it)

theorem whole_all {items : List Item} {n : Nat} (h : (encode items).length ≤ n) :
    whole items n = items := by
  induction items generalizing n with
  | nil => rfl
  | cons it rest ih =>
    have hlen : it.bytes.length + (encode rest).length ≤ n := by
      simpa [encode, List.flatMap_cons] using h
    rw [whole, if_neg (by omega), ih (by omega)]

/-- The calls for the rest of a line that was begun before. -/
def Noise (calls : List Call) : Prop := ∀ c ∈ calls, c.isReport = false

/-- After `n` bytes: among the first frames, in the line's text, or among the items. -/
inductive Resumed.Decodes (r : Resumed) (line : List UInt8) (calls : List Call) (n : Nat) :
    Thread → List Call → Prop
  | leads : n ≤ r.lead.length →
      r.Decodes line calls n (feed ⟨.loop, line⟩ (r.lead.take n)).1
        (calls ++ (feed ⟨.loop, line⟩ (r.lead.take n)).2)
  | skips (line' : List UInt8) (noise : List Call) : r.lead.length ≤ n → n < r.newline → Noise noise →
      r.Decodes line calls n ⟨.loop, line'⟩
        (calls ++ (frameItems r.frames).map Item.call ++ noise)
  | resyncs (noise : List Call) : r.lead.length ≤ n → n < r.newline → Noise noise →
      r.Decodes line calls n ⟨.resyncToNewline, []⟩
        (calls ++ (frameItems r.frames).map Item.call ++ noise)
  | follows (noise : List Call) : r.newline ≤ n → Noise noise →
      r.Decodes line calls n (feed ⟨.loop, []⟩ ((encode r.items).take (n - r.newline))).1
        (calls ++ (frameItems r.frames).map Item.call ++ noise ++
          (feed ⟨.loop, []⟩ ((encode r.items).take (n - r.newline))).2)

theorem Resumed.text_or_newline {r : Resumed} {n : Nat} {ch : UInt8} (hlead : r.lead.length ≤ n)
    (hline : n < r.newline) (hch : r.bytes[n]? = some ch) :
    (n + 1 < r.newline ∧ ch ∈ r.text) ∨ (n + 1 = r.newline ∧ ch = 10) := by
  rw [Resumed.bytes, List.getElem?_append_right hlead] at hch
  rw [Resumed.newline] at hline ⊢
  by_cases htext : n - r.lead.length < r.text.length
  · rw [List.getElem?_append_left htext] at hch
    exact Or.inl ⟨by omega, List.mem_of_getElem? hch⟩
  · have hat : n - r.lead.length - r.text.length = 0 := by omega
    rw [List.getElem?_append_right (Nat.le_of_not_lt htext), hat] at hch
    exact Or.inr ⟨by omega, (Option.some.inj hch).symm⟩

theorem Noise.append {as bs : List Call} (ha : Noise as) (hb : Noise bs) : Noise (as ++ bs) :=
  fun c hc => (List.mem_append.mp hc).elim (ha c) (hb c)

/-- The state in which the items begin. -/
theorem Resumed.Decodes.begin_items {r : Resumed} {line : List UInt8} {calls noise : List Call}
    {n : Nat} (hn : n + 1 = r.newline) (hnoise : Noise noise) : r.Decodes line calls (n + 1) ⟨.loop, []⟩
      (calls ++ (frameItems r.frames).map Item.call ++ noise) := by
  have h : r.Decodes line calls r.newline _ _ := .follows noise (Nat.le_refl _) hnoise
  simpa [hn, feed] using h

theorem Resumed.Decodes.skip_byte {r : Resumed} {line line' : List UInt8} {calls noise : List Call}
    {n : Nat} {ch : UInt8} (hlead : r.lead.length ≤ n) (hline : n < r.newline) (hnoise : Noise noise)
    (hch : r.bytes[n]? = some ch) :
    r.Decodes line calls (n + 1) ((⟨.loop, line'⟩ : Thread).onByte ch).1
      (calls ++ (frameItems r.frames).map Item.call ++ noise ++ ((⟨.loop, line'⟩ : Thread).onByte ch).2) := by
  obtain ⟨hmore, hmem⟩ | ⟨hend, rfl⟩ := r.text_or_newline hlead hline hch
  · obtain ⟨h1, h2, h10⟩ := r.plain ch hmem
    have hlead' : r.lead.length ≤ n + 1 := Nat.le_succ_of_le hlead
    simp only [Thread.onByte, pihubBinKb, pihubBinCc, h1, h2, h10, if_false]
    split
    · rw [List.append_nil]
      exact .skips line' noise hlead' hmore hnoise
    · split
      · rw [List.append_nil]
        exact .skips (line' ++ [ch]) noise hlead' hmore hnoise
      · rw [List.append_assoc _ noise]
        exact .resyncs (noise ++ [.errE2big]) hlead' hmore (hnoise.append (by simp [Noise, Call.isReport]))
  · have hnew : Noise ((⟨.loop, line'⟩ : Thread).onByte 10).2 := by
      simp only [Thread.onByte, pihubBinKb, pihubBinCc]
      by_cases hempty : line' = []
      · simp [hempty, Noise]
      · simp [hempty, Noise, Call.isReport]
    rw [List.append_assoc _ noise]
    exact begin_items hend (hnoise.append hnew)

theorem Resumed.Decodes.byte {r : Resumed} {line : List UInt8} {calls : List Call} {n : Nat}
    {t : Thread} {cs : List Call} {ch : UInt8} (h : r.Decodes line calls n t cs)
    (hch : r.bytes[n]? = some ch) :
    r.Decodes line calls (n + 1) (t.onByte ch).1 (cs ++ (t.onByte ch).2) := by
  cases h with
  | leads hn =>
    by_cases hlt : n < r.lead.length
    · have hat : r.lead[n]? = some ch := by
        rwa [Resumed.bytes, List.getElem?_append_left hlt] at hch
      have hnext : r.Decodes line calls (n + 1) _ _ := .leads hlt
      rw [List.take_add_one, hat, Option.toList_some, feed_concat] at hnext
      rw [List.append_assoc]
      exact hnext
    · obtain rfl : n = r.lead.length := by omega
      have hlead : feed ⟨.loop, line⟩ r.lead =
          (⟨.loop, line⟩, (frameItems r.frames).map Item.call) :=
        feed_encode (frameItems_fits r.frames line)
      have hskip : r.Decodes line calls (r.lead.length + 1) ((⟨.loop, line⟩ : Thread).onByte ch).1
          (calls ++ (frameItems r.frames).map Item.call ++ [] ++
            ((⟨.loop, line⟩ : Thread).onByte ch).2) :=
        skip_byte (Nat.le_refl _) (by rw [Resumed.newline]; omega) nofun hch
      rw [List.take_length, hlead]
      simpa using hskip
  | skips line' noise hlead hline hnoise => exact skip_byte hlead hline hnoise hch
  | resyncs noise hlead hline hnoise =>
    obtain ⟨hmore, hmem⟩ | ⟨hend, rfl⟩ := r.text_or_newline hlead hline hch
    · simp only [Thread.onByte, (r.plain ch hmem).2.2, if_false, List.append_nil]
      exact .resyncs noise (Nat.le_succ_of_le hlead) hmore hnoise
    · simp only [Thread.onByte, if_true, List.append_nil]
      exact begin_items hend hnoise
  | follows noise hnewline hnoise =>
    have hat : (encode r.items)[n - r.newline]? = some ch := by
      rw [Resumed.bytes, List.getElem?_append_right (by rw [Resumed.newline] at hnewline; omega),
        List.getElem?_append_right (by rw [Resumed.newline] at hnewline; omega)] at hch
      have hsucc : n - r.lead.length - r.text.length = n - r.newline + 1 := by
        rw [Resumed.newline] at hnewline ⊢
        omega
      rwa [hsucc, List.getElem?_cons_succ] at hch
    have hnext : r.Decodes line calls (n + 1) _ _ := .follows noise (Nat.le_succ_of_le hnewline) hnoise
    rw [Nat.succ_sub hnewline, List.take_add_one, hat, Option.toList_some, feed_concat] at hnext
    rw [List.append_assoc]
    exact hnext

theorem Resumed.Decodes.timeout {r : Resumed} {line : List UInt8} {calls : List Call} {n : Nat}
    {t : Thread} {cs : List Call} (h : r.Decodes line calls n t cs) (hout : ¬ r.InsideFrame n) :
    r.Decodes line calls n t.onTimeout.1 (cs ++ t.onTimeout.2) := by
  obtain ⟨hframes, hitems⟩ := not_or.mp hout
  have hidle {t : Thread} (hloop : t.reading = .loop) : t.onTimeout = (t, []) := by
    simp [Thread.onTimeout, hloop]
  cases h with
  | leads hn =>
    have hloop : (feed ⟨.loop, line⟩ (r.lead.take n)).1.reading = .loop :=
      (feed_take (frameItems_fits r.frames line) n).2 hframes
    rw [hidle hloop, List.append_nil]
    exact .leads hn
  | skips line' noise hlead hline hnoise =>
    rw [hidle rfl, List.append_nil]
    exact .skips line' noise hlead hline hnoise
  | resyncs noise hlead hline hnoise =>
    rw [Thread.onTimeout, List.append_nil]
    exact .skips [] noise hlead hline hnoise
  | follows noise hnewline hnoise =>
    rw [hidle ((feed_take (fun it _ => Or.inr rfl) (n - r.newline)).2 hitems), List.append_nil]
    exact .follows noise hnewline hnoise

/-- Frames that have ended, other calls for the line, and items that have ended since its newline. -/
theorem Resumed.Decodes.calls_eq {r : Resumed} {line : List UInt8} {calls : List Call} {n : Nat}
    {t : Thread} {cs : List Call} (h : r.Decodes line calls n t cs) : ∃ noise, Noise noise ∧
      cs = calls ++ (whole (frameItems r.frames) n).map Item.call ++ noise ++
        (whole r.items (n - r.newline)).map Item.call := by
  have hnone (hn : n < r.newline) : whole r.items (n - r.newline) = [] := by
    rw [Nat.sub_eq_zero_of_le (Nat.le_of_lt hn), whole_zero]
  have hall (hn : r.lead.length ≤ n) : whole (frameItems r.frames) n = frameItems r.frames :=
    whole_all hn
  cases h with
  | leads hn =>
    refine ⟨[], nofun, ?_⟩
    rw [Resumed.lead, feed_whole (frameItems_fits r.frames line),
      hnone (Nat.lt_succ_of_le (Nat.le_trans hn (Nat.le_add_right _ _)))]
    simp
  | skips line' noise hlead hline hnoise =>
    refine ⟨noise, hnoise, ?_⟩
    rw [hall hlead, hnone hline, List.map_nil, List.append_nil]
  | resyncs noise hlead hline hnoise =>
    refine ⟨noise, hnoise, ?_⟩
    rw [hall hlead, hnone hline, List.map_nil, List.append_nil]
  | follows noise hnewline hnoise =>
    refine ⟨noise, hnoise, ?_⟩
    have hlead : r.lead.length ≤ n := by
      rw [Resumed.newline] at hnewline
      omega
    rw [hall hlead, feed_whole fun it _ => Or.inr rfl]

/-- The thread recovers from whatever it has received once silence outlasts both windows: frames
that are received completely and, from the first newline on, lines are decoded exactly. -/
theorem input_recovers :
    (∀ es s, execute TimedPort.step .start es = some s → s.port.thread.line.length < 96) ∧
      ∀ before p silent s after q r, execute TimedPort.step .start before = some p →
        p.port.cmdRxRb.items = [] → execute TimedPort.step p silent = some s →
        (∀ e ∈ silent, e.silent = true) → cmdBinReadTimeoutMs + resyncMs < elapsed silent →
        execute TimedPort.step s after = some q →
        Along RxPort.step Kept s.port (untimed after) →
        sentBytes (untimed after) <+: Resumed.bytes r → r.Timely (untimed after) →
        r.bytes.take (readCount (untimed after)) ++ q.port.cmdRxRb.items = sentBytes (untimed after) ∧
          ∃ noise, Noise noise ∧ q.port.calls = s.port.calls ++
            (whole (frameItems r.frames) (readCount (untimed after))).map Item.call ++ noise ++
              (whole r.items (readCount (untimed after) - r.newline)).map Item.call := by
  refine ⟨fun es s h => Nat.lt_succ_of_le (line_fits h), ?_⟩
  intro before p silent s after q r hbefore hempty hrun hsilent hlong hafter hkept hsent htimely
  obtain ⟨hempty', hloop⟩ := loop_after_silence hbefore hempty hrun hsilent hlong
  have hthread : s.port.thread = ⟨.loop, s.port.thread.line⟩ := by rw [← hloop]
  have hstart : r.Decodes s.port.thread.line s.port.calls 0 s.port.thread s.port.calls := by
    have hleads : r.Decodes s.port.thread.line s.port.calls 0 _ _ := .leads (Nat.zero_le _)
    rw [hthread]
    simpa [feed] using hleads
  have hinside : ∀ pre post, untimed after = pre ++ .timeout :: post → ¬ r.InsideFrame (readCount pre) := by
    intro pre post heq
    have hat := htimely pre.length (by simp [heq]) (by simp [heq])
    simpa [heq] using hat
  obtain ⟨hring, hdecodes⟩ := follows hempty' hstart (fun n t cs ch h hch => h.byte hch)
    (fun n t cs h hout => h.timeout hout) (untimed_run hafter) hkept hsent hinside
  exact ⟨hring, hdecodes.calls_eq⟩

/-- A keyboard frame that breaks off after two bytes of its report. -/
def brokenOff : List TimedEvent := [.rx (.isr [1, 0, 0]), .rx .read, .rx .read, .rx .read]

def silence : List TimedEvent := [.tick 30, .rx .timeout, .tick 50, .rx .timeout, .tick 1]

/-- A frame, the end of a line and STATUS. -/
def sampleResumed : Resumed where
  frames := [⟨.consumer, [233, 0], rfl⟩]
  text := [85, 83]
  plain := by simp
  items := [.line ⟨['S', 'T', 'A', 'T', 'U', 'S'], by decide, by decide, by decide⟩]

def resumes : List TimedEvent := .rx (.isr sampleResumed.bytes) :: List.replicate 13 (.rx .read)

theorem input_recovers_sample : ∃ p s q, execute TimedPort.step .start brokenOff = some p ∧
    execute TimedPort.step p silence = some s ∧ execute TimedPort.step s resumes = some q ∧
      ∃ noise, Noise noise ∧ q.port.calls = s.port.calls ++ [.sendConsumerReport [233, 0]] ++ noise ++
        [.cmdHandleLine [83, 84, 65, 84, 85, 83]] := by
  refine ⟨_, _, _, rfl, rfl, rfl, ?_⟩
  exact (input_recovers.2 brokenOff _ silence _ resumes _ sampleResumed rfl rfl rfl (by decide)
    (by decide) rfl (by decide) (by decide) (by decide)).2

end PiHub.CommandRecovery

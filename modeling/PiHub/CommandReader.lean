import Mathlib.Data.List.Induction
import PiHub.Transition
import PiHub.Fifo
import PiHub.HostFrames

/-! The firmware's command thread (`cmd_rx_thread_fn`, main.c) reading host bytes
from the receive ring that `cmd_uart_isr` fills. -/
namespace PiHub.CommandReader
open Transition HostFrames

def pihubBinKb : UInt8 := 0x01
def pihubBinCc : UInt8 := 0x02

/-- `sizeof(line) - 1`. -/
def cmdAsciiMaxLen : Nat := 95

def cmdRxRbSize : Nat := 256

/-- Which read of the ring the thread is in. -/
inductive Reading where
  | loop
  | readExact (usage : Usage) (dst : List UInt8)
  | resyncToNewline
  deriving DecidableEq

structure Thread where
  reading : Reading
  line : List UInt8
  deriving DecidableEq

/-- What the thread calls, in order. The handling of a report's result and of a
timed-out frame is the link's business, not the reader's. -/
inductive Call where
  | sendKeyboardReport (report8 : List UInt8)
  | sendConsumerReport (report2 : List UInt8)
  | cmdHandleLine (line : List UInt8)
  | frameTimeout (usage : Usage)
  | errE2big
  deriving DecidableEq

def sendReport : Usage → List UInt8 → Call
  | .keyboard => .sendKeyboardReport
  | .consumer => .sendConsumerReport

/-- One more byte for `cmd_uart_read_exact`; the frame's handler runs at the last. -/
def handleBin (usage : Usage) (t : Thread) (dst : List UInt8) (ch : UInt8) :
    Thread × List Call :=
  if dst.length + 1 < usage.size then ({ t with reading := .readExact usage (dst ++ [ch]) }, [])
  else ({ t with reading := .loop }, [sendReport usage (dst ++ [ch])])

def cmdHandleBinKb : Thread → List UInt8 → UInt8 → Thread × List Call := handleBin .keyboard
def cmdHandleBinCc : Thread → List UInt8 → UInt8 → Thread × List Call := handleBin .consumer

/-- The thread's step on a byte that `cmd_rx_get_byte` returned. -/
def Thread.onByte (t : Thread) (ch : UInt8) : Thread × List Call :=
  match t.reading with
  | .loop =>
    if ch = pihubBinKb then ({ t with reading := .readExact .keyboard [] }, [])
    else if ch = pihubBinCc then ({ t with reading := .readExact .consumer [] }, [])
    else if ch = 13 then (t, [])
    else if ch = 10 then
      ({ t with line := [] }, if t.line = [] then [] else [.cmdHandleLine t.line])
    else if t.line.length < cmdAsciiMaxLen then ({ t with line := t.line ++ [ch] }, [])
    else ({ reading := .resyncToNewline, line := [] }, [.errE2big])
  | .readExact .keyboard dst => cmdHandleBinKb t dst ch
  | .readExact .consumer dst => cmdHandleBinCc t dst ch
  | .resyncToNewline => if ch = 10 then ({ t with reading := .loop }, []) else (t, [])

/-- The thread's step when `cmd_rx_get_byte` returned false at the deadline. -/
def Thread.onTimeout (t : Thread) : Thread × List Call :=
  match t.reading with
  | .loop => (t, [])
  | .readExact usage _ => ({ reading := .resyncToNewline, line := [] }, [.frameTimeout usage])
  | .resyncToNewline => ({ t with reading := .loop }, [])

/-- The receive ring, the thread that empties it and the calls made so far. -/
structure RxPort where
  cmdRxRb : Fifo UInt8 cmdRxRbSize
  thread : Thread
  calls : List Call
  deriving DecidableEq

def RxPort.start : RxPort := ⟨.empty, ⟨.loop, []⟩, []⟩

/-- `isr`: one `uart_fifo_read` chunk reaches the ring. `read`: the thread takes a
byte. `timeout`: its deadline passes with nothing left in the ring. -/
inductive RxEvent where
  | isr (bytes : List UInt8)
  | read
  | timeout
  deriving DecidableEq

def RxPort.become (p : RxPort) (r : Thread × List Call) : RxPort :=
  { p with thread := r.1, calls := p.calls ++ r.2 }

def RxPort.step (p : RxPort) : RxEvent → Option RxPort
  | .isr bytes => some { p with cmdRxRb := p.cmdRxRb.put bytes }
  | .read =>
    match p.cmdRxRb.items with
    | [] => none
    | ch :: _ => some ({ p with cmdRxRb := p.cmdRxRb.drop 1 }.become (p.thread.onByte ch))
  | .timeout => if p.cmdRxRb.items = [] then some (p.become p.thread.onTimeout) else none

/-- The bytes the driver handed over, in order, whether or not the ring kept them. -/
def sentBytes : List RxEvent → List UInt8
  | [] => []
  | .isr bytes :: es => bytes ++ sentBytes es
  | _ :: es => sentBytes es

/-- How many bytes the thread has taken. -/
def readCount : List RxEvent → Nat
  | [] => 0
  | .read :: es => readCount es + 1
  | _ :: es => readCount es

theorem sentBytes_append (es fs : List RxEvent) :
    sentBytes (es ++ fs) = sentBytes es ++ sentBytes fs := by
  induction es with
  | nil => rfl
  | cons e es ih => cases e <;> simp [sentBytes, ih]

theorem readCount_append (es fs : List RxEvent) :
    readCount (es ++ fs) = readCount es + readCount fs := by
  induction es with
  | nil => simp [readCount]
  | cons e es ih => cases e <;> simp [readCount, ih]; omega

/-- A chunk that fits the ring whole. -/
def Kept (p : RxPort) : RxEvent → Prop
  | .isr bytes => bytes.length ≤ p.cmdRxRb.space
  | _ => True

instance : ∀ p e, Decidable (Kept p e)
  | p, .isr bytes => inferInstanceAs (Decidable (bytes.length ≤ p.cmdRxRb.space))
  | _, .read => .isTrue trivial
  | _, .timeout => .isTrue trivial

/-! ### The thread on a stretch of bytes -/

/-- The thread fed with consecutive bytes, no deadline passing in between. -/
def feed : Thread → List UInt8 → Thread × List Call
  | t, [] => (t, [])
  | t, ch :: bs =>
    let r := t.onByte ch
    let r' := feed r.1 bs
    (r'.1, r.2 ++ r'.2)

theorem feed_append (t : Thread) (as bs : List UInt8) :
    feed t (as ++ bs) = ((feed (feed t as).1 bs).1, (feed t as).2 ++ (feed (feed t as).1 bs).2) := by
  induction as generalizing t with
  | nil => simp [feed]
  | cons a as ih => simp [feed, ih]

theorem feed_concat (t : Thread) (bs : List UInt8) (ch : UInt8) :
    feed t (bs ++ [ch]) =
      (((feed t bs).1.onByte ch).1, (feed t bs).2 ++ ((feed t bs).1.onByte ch).2) := by
  rw [feed_append]
  simp [feed]

/-- Inside a frame the thread collects the report byte by byte, and sends it at the last. -/
theorem feed_report (u : Usage) (line dst bs : List UInt8) (hne : bs ≠ [])
    (h : dst.length + bs.length ≤ u.size) :
    feed ⟨.readExact u dst, line⟩ bs =
      if dst.length + bs.length < u.size then (⟨.readExact u (dst ++ bs), line⟩, [])
      else (⟨.loop, line⟩, [sendReport u (dst ++ bs)]) := by
  induction bs generalizing dst with
  | nil => exact absurd rfl hne
  | cons b bs ih =>
    have hbyte : (⟨.readExact u dst, line⟩ : Thread).onByte b =
        handleBin u ⟨.readExact u dst, line⟩ dst b := by
      cases u <;> rfl
    simp only [List.length_cons] at h
    cases bs with
    | nil => simp only [feed, hbyte, handleBin]; split <;> simp_all
    | cons c cs =>
      simp only [List.length_cons] at h
      have hmore : dst.length + 1 < u.size := by omega
      have hlen : (dst ++ [b]).length + (c :: cs).length ≤ u.size := by
        simp only [List.length_append, List.length_cons, List.length_nil]; omega
      have ih' := ih (dst ++ [b]) (by simp) hlen
      have hcons : feed ⟨.readExact u dst, line⟩ (b :: c :: cs) =
          feed ⟨.readExact u (dst ++ [b]), line⟩ (c :: cs) := by
        rw [feed, hbyte, handleBin, if_pos hmore]
        simp
      rw [hcons, ih']
      simp [Nat.add_assoc, Nat.add_comm 1]

theorem onByte_opcode (u : Usage) (line : List UInt8) :
    (⟨.loop, line⟩ : Thread).onByte u.opcode = (⟨.readExact u [], line⟩, []) := by
  cases u <;> rfl

theorem Usage.size_pos (u : Usage) : 0 < u.size := by
  cases u <;> decide

/-- A whole frame at the top of the loop is sent, whatever stands in the line buffer. -/
theorem feed_frame (f : Frame) (line : List UInt8) :
    feed ⟨.loop, line⟩ f.bytes = (⟨.loop, line⟩, [sendReport f.usage f.report]) := by
  have hne : f.report ≠ [] := by
    intro h
    have := f.sized
    have := Usage.size_pos f.usage
    simp_all
  have hrep := feed_report f.usage line [] f.report hne (by simp [f.sized])
  rw [if_neg (by simp [f.sized])] at hrep
  simp only [Frame.bytes, feed, onByte_opcode, hrep, List.nil_append]

/-- Bytes that are neither opcodes nor line ends pile up in the line buffer. -/
theorem feed_text (line bs : List UInt8) (hfit : line.length + bs.length ≤ cmdAsciiMaxLen)
    (hbs : ∀ b ∈ bs, b ≠ 1 ∧ b ≠ 2 ∧ b ≠ 13 ∧ b ≠ 10) :
    feed ⟨.loop, line⟩ bs = (⟨.loop, line ++ bs⟩, []) := by
  induction bs generalizing line with
  | nil => simp [feed]
  | cons b bs ih =>
    obtain ⟨h1, h2, h13, h10⟩ := hbs b (List.mem_cons_self ..)
    simp only [List.length_cons] at hfit
    have hroom : line.length < cmdAsciiMaxLen := by omega
    have hbyte : (⟨.loop, line⟩ : Thread).onByte b = (⟨.loop, line ++ [b]⟩, []) := by
      simp [Thread.onByte, pihubBinKb, pihubBinCc, h1, h2, h13, h10, hroom]
    have hlen : (line ++ [b]).length + bs.length ≤ cmdAsciiMaxLen := by
      simp only [List.length_append, List.length_cons, List.length_nil]; omega
    have ih' := ih (line ++ [b]) hlen fun c hc => hbs c (List.mem_cons_of_mem b hc)
    simp [feed, hbyte, ih']

theorem feed_controlLine (l : ControlLine) :
    feed ⟨.loop, []⟩ (writeLine l.text) = (⟨.loop, []⟩, [.cmdHandleLine l.payload]) := by
  have hlen : l.payload.length ≤ cmdAsciiMaxLen := by
    simpa [ControlLine.payload, encodeAscii, cmdAsciiMaxLen] using l.short
  have hne : l.payload ≠ [] := by simpa [ControlLine.payload, encodeAscii] using l.nonempty
  have htext := feed_text [] l.payload (by simpa using hlen) fun _ hb => l.payload_byte hb
  rw [l.writeLine_text, feed_concat, htext]
  simp [Thread.onByte, pihubBinKb, pihubBinCc, hne]

/-! ### What the host sends -/

/-- One item of the host's stream: a HID frame or a control line. -/
inductive Item where
  | frame (f : Frame)
  | line (l : ControlLine)

def Item.bytes : Item → List UInt8
  | .frame f => f.bytes
  | .line l => writeLine l.text

def Item.call : Item → Call
  | .frame f => sendReport f.usage f.report
  | .line l => .cmdHandleLine l.payload

def encode (items : List Item) : List UInt8 := items.flatMap Item.bytes

def Item.isFrame : Item → Bool
  | .frame _ => true
  | .line _ => false

/-- The `n`-th byte boundary of the stream falls strictly inside a HID frame. -/
def InsideFrame : List Item → Nat → Prop
  | [], _ => False
  | it :: rest, n =>
    if n < it.bytes.length then it.isFrame ∧ 0 < n else InsideFrame rest (n - it.bytes.length)

instance InsideFrame.decidable : ∀ items n, Decidable (InsideFrame items n)
  | [], _ => .isFalse id
  | it :: rest, n =>
    have := InsideFrame.decidable rest (n - it.bytes.length)
    inferInstanceAs (Decidable (if n < it.bytes.length then it.isFrame = true ∧ 0 < n
      else InsideFrame rest (n - it.bytes.length)))

/-- No read deadline passes while the thread stands inside a frame of the stream. -/
def Timely (items : List Item) (events : List RxEvent) : Prop :=
  ∀ i < events.length, events[i]? = some .timeout → ¬ InsideFrame items (readCount (events.take i))

instance (items : List Item) (events : List RxEvent) : Decidable (Timely items events) :=
  inferInstanceAs (Decidable (∀ i < events.length, _))

theorem Timely.at_timeout {items : List Item} {events pre post : List RxEvent}
    (h : Timely items events) (he : events = pre ++ .timeout :: post) :
    ¬ InsideFrame items (readCount pre) := by
  have hat := h pre.length (by simp [he]) (by simp [he])
  simpa [he] using hat

/-- The line buffer is empty or the item does not use it. -/
def Item.Fits (line : List UInt8) (it : Item) : Prop := it.isFrame ∨ line = []

theorem feed_item {line : List UInt8} {it : Item} (h : it.Fits line) :
    feed ⟨.loop, line⟩ it.bytes = (⟨.loop, line⟩, [it.call]) := by
  cases it with
  | frame f => exact feed_frame f line
  | line l =>
    obtain rfl : line = [] := by simpa [Item.Fits, Item.isFrame] using h
    exact feed_controlLine l

theorem feed_encode {line : List UInt8} {items : List Item} (h : ∀ it ∈ items, it.Fits line) :
    feed ⟨.loop, line⟩ (encode items) = (⟨.loop, line⟩, items.map Item.call) := by
  induction items with
  | nil => rfl
  | cons it items ih =>
    have hcons : encode (it :: items) = it.bytes ++ encode items := rfl
    rw [hcons, feed_append, feed_item (h it (by simp)), ih fun j hj => h j (by simp [hj])]
    rfl

/-- A part of an item calls nothing; at its start, and anywhere in a line, the thread
stays at the top of its loop. -/
theorem feed_part {line : List UInt8} {it : Item} (h : it.Fits line) {n : Nat}
    (hn : n < it.bytes.length) :
    (feed ⟨.loop, line⟩ (it.bytes.take n)).2 = [] ∧
      (¬ (it.isFrame ∧ 0 < n) → (feed ⟨.loop, line⟩ (it.bytes.take n)).1.reading = .loop) := by
  cases it with
  | frame f =>
    cases n with
    | zero => simp [feed]
    | succ n =>
      have hlen : n < f.usage.size := by simpa [Item.bytes, f.length_bytes] using hn
      cases htake : f.report.take n with
      | nil => simp [Item.bytes, Frame.bytes, htake, feed, onByte_opcode, Item.isFrame]
      | cons b bs =>
        have hsize : (b :: bs).length < f.usage.size := by
          rw [← htake, List.length_take]; omega
        have hrep := feed_report f.usage line [] (b :: bs) (by simp)
          (by simpa using Nat.le_of_lt hsize)
        rw [if_pos (by simpa using hsize)] at hrep
        constructor
        · simp only [Item.bytes, Frame.bytes, List.take_succ_cons, htake, feed.eq_2 _ f.usage.opcode,
            onByte_opcode, hrep, List.append_nil]
        · intro hout
          simp [Item.isFrame] at hout
  | line l =>
    obtain rfl : line = [] := by simpa [Item.Fits, Item.isFrame] using h
    have hle : n ≤ l.payload.length := by
      simpa [Item.bytes, l.writeLine_text, Nat.lt_succ_iff] using hn
    have hfit : l.payload.length ≤ cmdAsciiMaxLen := by
      simpa [ControlLine.payload, encodeAscii, cmdAsciiMaxLen] using l.short
    have htake : (Item.line l).bytes.take n = l.payload.take n := by
      simp only [Item.bytes, l.writeLine_text]
      exact List.take_append_of_le_length hle
    have hroom : ([] : List UInt8).length + (l.payload.take n).length ≤ cmdAsciiMaxLen := by
      simp only [List.length_nil, List.length_take]; omega
    rw [htake, feed_text [] _ hroom fun b hb => l.payload_byte (List.mem_of_mem_take hb)]
    simp

/-- After any number of bytes of the stream: whole items have been called, and off a
frame's inside the thread is at the top of its loop. -/
theorem feed_take {line : List UInt8} {items : List Item} (h : ∀ it ∈ items, it.Fits line)
    (n : Nat) :
    (∃ k, (feed ⟨.loop, line⟩ ((encode items).take n)).2 = (items.take k).map Item.call) ∧
      (¬ InsideFrame items n →
        (feed ⟨.loop, line⟩ ((encode items).take n)).1.reading = .loop) := by
  induction items generalizing n with
  | nil => exact ⟨⟨0, by simp [encode, feed]⟩, by simp [encode, feed]⟩
  | cons it items ih =>
    have hit : it.Fits line := h it (by simp)
    have hcons : encode (it :: items) = it.bytes ++ encode items := rfl
    by_cases hlt : n < it.bytes.length
    · obtain ⟨hcalls, hread⟩ := feed_part hit hlt
      rw [hcons, List.take_append_of_le_length (Nat.le_of_lt hlt)]
      exact ⟨⟨0, by simpa using hcalls⟩, fun hout => hread (by simpa [InsideFrame, hlt] using hout)⟩
    · obtain ⟨⟨k, hk⟩, hread⟩ := ih (fun j hj => h j (by simp [hj])) (n - it.bytes.length)
      rw [hcons, List.take_append, List.take_of_length_le (Nat.le_of_not_lt hlt), feed_append,
        feed_item hit]
      exact ⟨⟨k + 1, by simpa using hk⟩, fun hout => hread (by simpa [InsideFrame, hlt] using hout)⟩

/-! ### The ring between the host and the thread -/

/-- While the ring keeps every byte it holds what has been sent and not yet read; and what each byte
of the stream keeps, and each deadline that passes outside of `inside`, holds of the thread. -/
theorem follows {p q : RxPort} {stream : List UInt8} {inside : Nat → Prop}
    {R : Nat → Thread → List Call → Prop} {events : List RxEvent} (hempty : p.cmdRxRb.items = [])
    (hstart : R 0 p.thread p.calls)
    (hbyte : ∀ n t cs ch, R n t cs → stream[n]? = some ch → R (n + 1) (t.onByte ch).1 (cs ++ (t.onByte ch).2))
    (htimeout : ∀ n t cs, R n t cs → ¬ inside n → R n t.onTimeout.1 (cs ++ t.onTimeout.2))
    (hrun : execute RxPort.step p events = some q) (hkept : Along RxPort.step Kept p events)
    (hsent : sentBytes events <+: stream)
    (htimely : ∀ pre post, events = pre ++ .timeout :: post → ¬ inside (readCount pre)) :
    stream.take (readCount events) ++ q.cmdRxRb.items = sentBytes events ∧
      R (readCount events) q.thread q.calls := by
  induction events using List.reverseRecOn generalizing q with
  | nil =>
    obtain rfl : p = q := by simpa [execute] using hrun
    exact ⟨by simp [readCount, sentBytes, hempty], hstart⟩
  | append_singleton events e ih =>
    obtain ⟨t, ht, hstep⟩ := execute_concat hrun
    obtain ⟨hkept', hlast⟩ := along_concat hkept
    have hprefix : sentBytes events <+: stream := by
      rw [sentBytes_append] at hsent
      exact (List.prefix_append _ _).trans hsent
    obtain ⟨hring, hR⟩ := ih ht hkept' hprefix fun pre post he => htimely pre (post ++ [e]) (by simp [he])
    cases e with
    | isr bytes =>
      simp only [RxPort.step, Option.some.injEq] at hstep
      subst hstep
      have hfits := Fifo.put_items_of_fits (hlast t ht)
      simp only [readCount_append, readCount, Nat.add_zero, sentBytes_append, sentBytes,
        List.append_nil, hfits]
      exact ⟨by rw [← hring, List.append_assoc], hR⟩
    | read =>
      cases hitems : t.cmdRxRb.items with
      | nil => simp [RxPort.step, hitems] at hstep
      | cons ch rest =>
        simp only [RxPort.step, hitems, Option.some.injEq] at hstep
        subst hstep
        obtain ⟨later, hlater⟩ := hprefix
        have hstream : stream = stream.take (readCount events) ++ ch :: (rest ++ later) := by
          rw [← List.cons_append, ← hitems, ← List.append_assoc, hring, hlater]
        have hlen : (stream.take (readCount events)).length = readCount events := by
          have := congrArg List.length hstream
          simp only [List.length_append, List.length_cons, List.length_take] at this ⊢
          omega
        have hch : stream[readCount events]? = some ch := by
          have hat := congrArg (·[readCount events]?) hstream
          rw [List.getElem?_append_right (Nat.le_of_eq hlen), hlen, Nat.sub_self] at hat
          exact hat
        simp only [readCount_append, readCount, Nat.zero_add, sentBytes_append, sentBytes,
          List.append_nil, List.take_add_one, hch, RxPort.become, Fifo.drop_items, hitems]
        exact ⟨by rw [← hring, hitems]; simp, hbyte _ _ _ ch hR hch⟩
    | timeout =>
      have hout : ¬ inside (readCount events) := htimely events [] rfl
      simp only [RxPort.step, Option.ite_none_right_eq_some, Option.some.injEq] at hstep
      obtain ⟨-, rfl⟩ := hstep
      simp only [readCount_append, readCount, Nat.add_zero, sentBytes_append, sentBytes,
        List.append_nil, RxPort.become]
      exact ⟨hring, htimeout _ _ _ hR hout⟩

/-- If moreover deadlines pass only where they find the thread at the top of its loop, then it has
done what that prefix makes it do. -/
theorem follows_stream {p q : RxPort} {stream : List UInt8} {inside : Nat → Prop}
    {events : List RxEvent} (hempty : p.cmdRxRb.items = [])
    (hloop : ∀ n, ¬ inside n → (feed p.thread (stream.take n)).1.reading = .loop)
    (hrun : execute RxPort.step p events = some q) (hkept : Along RxPort.step Kept p events)
    (hsent : sentBytes events <+: stream)
    (htimely : ∀ pre post, events = pre ++ .timeout :: post → ¬ inside (readCount pre)) :
    stream.take (readCount events) ++ q.cmdRxRb.items = sentBytes events ∧
      q.thread = (feed p.thread (stream.take (readCount events))).1 ∧
      q.calls = p.calls ++ (feed p.thread (stream.take (readCount events))).2 := by
  refine follows (R := fun n t cs => t = (feed p.thread (stream.take n)).1 ∧
    cs = p.calls ++ (feed p.thread (stream.take n)).2) hempty (by simp [feed]) ?_ ?_ hrun hkept hsent
    htimely
  · rintro n t cs ch ⟨rfl, rfl⟩ hch
    rw [List.take_add_one, hch, Option.toList_some, feed_concat]
    exact ⟨rfl, List.append_assoc ..⟩
  · rintro n t cs ⟨rfl, rfl⟩ hout
    simp [Thread.onTimeout, hloop n hout]

/-- The thread can take everything the ring holds, and is then fed all of it. -/
theorem execute_reads (p : RxPort) :
    ∃ q, execute RxPort.step p (List.replicate p.cmdRxRb.items.length .read) = some q ∧
      q.cmdRxRb.items = [] ∧ q.thread = (feed p.thread p.cmdRxRb.items).1 ∧
      q.calls = p.calls ++ (feed p.thread p.cmdRxRb.items).2 := by
  induction hitems : p.cmdRxRb.items generalizing p with
  | nil => exact ⟨p, rfl, hitems, by simp [feed]⟩
  | cons ch rest ih =>
    have hstep : p.step .read =
        some ({ p with cmdRxRb := p.cmdRxRb.drop 1 }.become (p.thread.onByte ch)) := by
      simp [RxPort.step, hitems]
    rw [List.length_cons, List.replicate_succ, execute_cons hstep]
    obtain ⟨q, hq, hempty, hthread, hcalls⟩ :=
      ih ({ p with cmdRxRb := p.cmdRxRb.drop 1 }.become (p.thread.onByte ch))
        (by rw [RxPort.become, Fifo.drop_items, hitems]; rfl)
    exact ⟨q, hq, hempty, hthread, by rw [hcalls]; simp [RxPort.become, feed]⟩

/-! ### The wire format -/

/-- Whatever the chunks and the idle deadlines, the thread makes exactly the host's calls. -/
theorem wire_round_trip (items : List Item) (events : List RxEvent) (q : RxPort)
    (hrun : execute RxPort.step RxPort.start events = some q)
    (hsent : sentBytes events = encode items) (hkept : Along RxPort.step Kept RxPort.start events)
    (htimely : Timely items events) :
    q.calls <+: items.map Item.call ∧
      ∃ r, execute RxPort.step q (List.replicate q.cmdRxRb.items.length .read) = some r ∧
        r.cmdRxRb.items = [] ∧ r.thread = ⟨.loop, []⟩ ∧ r.calls = items.map Item.call := by
  have hfits : ∀ it ∈ items, it.Fits [] := fun it _ => .inr rfl
  have hloop : ∀ n, ¬ InsideFrame items n →
      (feed RxPort.start.thread ((encode items).take n)).1.reading = .loop := by
    intro n
    exact (feed_take hfits n).2
  obtain ⟨hring, hthread, hcalls⟩ := follows_stream rfl hloop hrun hkept
    (hsent ▸ List.prefix_rfl) fun _ _ he => htimely.at_timeout he
  obtain ⟨r, hr, hempty, hrthread, hrcalls⟩ := execute_reads q
  have hall := feed_encode hfits
  rw [← hsent, ← hring, feed_append] at hall
  simp only [RxPort.start, List.nil_append] at hthread hcalls
  rw [← hthread, ← hcalls] at hall
  have hcallsAll : r.calls = items.map Item.call := by rw [hrcalls]; exact congrArg Prod.snd hall
  exact ⟨⟨_, by rw [← hcallsAll, hrcalls]⟩, r, hr, hempty,
    by rw [hrthread]; exact congrArg Prod.fst hall, hcallsAll⟩

/-- A keyboard frame whose payload is all opcode and newline bytes, then PING. -/
def sampleItems : List Item :=
  [.frame ⟨.keyboard, [1, 2, 10, 13, 1, 2, 10, 13], rfl⟩,
    .line ⟨['P', 'I', 'N', 'G'], by decide, by decide, by decide⟩]

/-- The frame split over two reads of the driver, an idle second, and a line cut in the
middle by another. -/
def sampleEvents : List RxEvent :=
  [.isr [1, 1, 2], .read, .read, .isr [10, 13, 1, 2, 10, 13, 80, 73]] ++
    List.replicate 9 .read ++ [.timeout, .isr [78, 71, 10], .read]

theorem wire_round_trip_sample :
    ∃ q, execute RxPort.step RxPort.start sampleEvents = some q ∧
      q.calls <+: sampleItems.map Item.call :=
  ⟨_, rfl, (wire_round_trip sampleItems sampleEvents _ rfl (by decide) (by decide)
    (by decide)).1⟩

/-! ### A full ring -/

/-- Nothing waits to be read and the thread is not inside a frame. -/
def RxPort.InStep (p : RxPort) : Prop := p.cmdRxRb.items = [] ∧ p.thread.reading = .loop

def Call.isReport : Call → Bool
  | .sendKeyboardReport _ | .sendConsumerReport _ => true
  | _ => false

theorem onTimeout_no_report (t : Thread) : t.onTimeout.2.filter Call.isReport = [] := by
  cases h : t.reading <;> simp [Thread.onTimeout, h, Call.isReport]

/-- The read deadline and then the flush deadline lead back to the top of the loop. -/
theorem onTimeout_twice (t : Thread) : t.onTimeout.1.onTimeout.1.reading = .loop := by
  cases h : t.reading <;> simp [Thread.onTimeout, h]

def frameItems (frames : List Frame) : List Item := frames.map .frame

theorem frameItems_fits (frames : List Frame) (line : List UInt8) :
    ∀ it ∈ frameItems frames, it.Fits line := by
  intro it hit
  obtain ⟨f, -, rfl⟩ := List.mem_map.mp hit
  exact .inl rfl

/-- `cmd_uart_isr` draining the driver's bytes in chunks of its 64-byte buffer. -/
def isrChunks (bytes : List UInt8) : List RxEvent :=
  (List.range ((bytes.length + 63) / 64)).map fun i => .isr ((bytes.drop (64 * i)).take 64)

def overflowFrames : List Frame := List.replicate 87 ⟨.consumer, [68, 0], rfl⟩

/-- The ring takes 85 frames and one opcode byte; the rest of that frame is dropped, and
the thread completes it with the first bytes of the next one. -/
def overflowEvents : List RxEvent :=
  isrChunks ((encode (frameItems overflowFrames)).take 258) ++ List.replicate 256 .read ++
    [.isr [2, 68, 0], .read, .read]

def lateFrames : List Frame := [⟨.keyboard, [0, 0, 2, 80, 79, 0, 0, 0], rfl⟩]

/-- Nothing is lost, but the frame's second half comes after the read deadline and the
flush that follows it. -/
def lateEvents : List RxEvent :=
  [.isr [1, 0, 0], .read, .read, .read, .timeout, .timeout, .isr [2, 80, 79, 0, 0, 0],
    .read, .read, .read]

/-- Reports no frame carries: assembled across a loss, and from the inside of a late frame. -/
theorem overflow_invents_reports :
    (sentBytes overflowEvents = encode (frameItems overflowFrames) ∧
      (∀ f ∈ overflowFrames, f.report ≠ [2, 68]) ∧
      ∃ q, execute RxPort.step RxPort.start overflowEvents = some q ∧
        .sendConsumerReport [2, 68] ∈ q.calls) ∧
    (sentBytes lateEvents = encode (frameItems lateFrames) ∧
      Along RxPort.step Kept RxPort.start lateEvents ∧
      (∀ f ∈ lateFrames, f.report ≠ [80, 79]) ∧
      ∃ q, execute RxPort.step RxPort.start lateEvents = some q ∧
        .sendConsumerReport [80, 79] ∈ q.calls) := by
  refine ⟨⟨by decide +kernel, by decide +kernel, ?_⟩, by decide, by decide, by decide, _, rfl,
    by decide⟩
  have hrun : ((execute RxPort.step RxPort.start overflowEvents).map
      fun q => decide (.sendConsumerReport [2, 68] ∈ q.calls)) = some true := by decide +kernel
  obtain ⟨q, hq, hcall⟩ := Option.map_eq_some_iff.mp hrun
  exact ⟨q, hq, of_decide_eq_true hcall⟩

/-- From a point in step and up to a lost or late byte, the calls are the payloads of an
initial run of the frames sent since; silence brings the thread back in step. -/
theorem reports_between_losses :
    (∀ (p q : RxPort) (frames : List Frame) (events : List RxEvent), p.InStep →
      execute RxPort.step p events = some q →
      sentBytes events <+: encode (frameItems frames) →
      Along RxPort.step Kept p events → Timely (frameItems frames) events →
      ∃ k, q.calls = p.calls ++ (frames.take k).map fun f => sendReport f.usage f.report) ∧
    (∀ p : RxPort, p.cmdRxRb.items = [] →
      ∃ q, execute RxPort.step p [.timeout, .timeout] = some q ∧ q.InStep ∧
        q.calls.filter Call.isReport = p.calls.filter Call.isReport) := by
  constructor
  · intro p q frames events hin hrun hsent hkept htimely
    obtain ⟨hempty, hread⟩ := hin
    have hthread : p.thread = ⟨.loop, p.thread.line⟩ := by rw [← hread]
    have hfits := frameItems_fits frames p.thread.line
    have hloop : ∀ n, ¬ InsideFrame (frameItems frames) n →
        (feed p.thread ((encode (frameItems frames)).take n)).1.reading = .loop := by
      intro n hn
      rw [hthread]
      exact (feed_take hfits n).2 hn
    obtain ⟨-, -, hcalls⟩ := follows_stream hempty hloop hrun hkept hsent
      fun _ _ he => htimely.at_timeout he
    obtain ⟨k, hk⟩ := (feed_take hfits (readCount events)).1
    refine ⟨k, ?_⟩
    rw [hcalls, hthread, hk, frameItems, ← List.map_take, List.map_map]
    rfl
  · intro p hempty
    have hstep (r : RxPort) (h : r.cmdRxRb.items = []) :
        r.step .timeout = some (r.become r.thread.onTimeout) := by
      simp [RxPort.step, h]
    have hrun : execute RxPort.step p [.timeout, .timeout] =
        some ((p.become p.thread.onTimeout).become p.thread.onTimeout.1.onTimeout) := by
      rw [execute_cons (hstep p hempty), execute_cons (hstep (p.become _) hempty)]
      rfl
    refine ⟨_, hrun, ⟨hempty, onTimeout_twice p.thread⟩, ?_⟩
    simp [RxPort.become, onTimeout_no_report]

/-- Two frames in step, the second still on its way. -/
theorem reports_between_losses_sample :
    ∃ q k, execute RxPort.step RxPort.start [.isr [2, 68, 0, 2], .read, .read, .read, .read] = some q ∧
      q.calls = [] ++ (overflowFrames.take k).map fun f => sendReport f.usage f.report := by
  obtain ⟨k, hk⟩ := reports_between_losses.1 RxPort.start _ overflowFrames
    [.isr [2, 68, 0, 2], .read, .read, .read, .read] ⟨rfl, rfl⟩ rfl
    (by decide) (by decide) (by decide)
  exact ⟨_, k, rfl, hk⟩

end PiHub.CommandReader

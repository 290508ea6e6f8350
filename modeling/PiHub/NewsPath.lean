import PiHub.LinkView
import PiHub.LineDrain
import PiHub.RxLines

/-! The way of the dongle's news to the host: the lines its callbacks and commands send, the transmit
ring and the port (main.c), and the host's line buffer and what it makes of the lines
(ble_dongle.py). -/
namespace PiHub.NewsPath
open Transition Text HostFrames DongleLink DongleHost LineOutput LinkView
open LineDrain (Output Party)

/-- What the command thread says to a host that opens the port. -/
inductive Greeting where
  | port | usb | boot
  deriving DecidableEq

def Greeting.words : Greeting → List (List Char)
  | .port => ["PORT".toList, "CMD".toList]
  | .usb => ["USB".toList, "1".toList]
  | .boot => ["BOOT".toList, "pihub-hid".toList]

/-- What goes into one `cmd_uart_send_line`. -/
inductive Report where
  | news (l : Line)
  | greeting (g : Greeting)
  deriving DecidableEq

/-- A line that the host reads the link from. -/
def Telling (l : Line) : Bool := isNews l || isStatus l

def Report.telling : Report → Option Line
  | .news l => if Telling l then some l else none
  | .greeting _ => none

def Report.text (build : Build) : Report → List Char
  | .news l => lineText build l
  | .greeting g => unwords ("EVT".toList :: g.words)

def Report.bytes (build : Build) (r : Report) : List UInt8 := encodeAscii (r.text build)

/-- Text that the host's line buffer holds and decodes as it is. -/
def Sendable (text : List Char) : Prop :=
  (text ≠ [] ∧ text.length < rxLineMax) ∧ ∀ c ∈ text, Printable c

instance (text : List Char) : Decidable (Sendable text) := inferInstanceAs (Decidable (_ ∧ _))

/-- What the command thread is asked for, or has read. -/
inductive Command where
  | ping
  | info (addr : Option (List Char))
  | status
  | frame (f : Frame) (notify : Int32)
  | frameTimeout (usage : Usage)

/-- The dongle when the command has formatted its lines. -/
def commanded (d : Dongle) : Command → Dongle
  | .ping => d.cmdUartSendLine .pong
  | .info addr => d.cmdUartSendLine (.info addr)
  | .status => cmdEmitStatusLine d
  | .frame f notify => cmdHandleFrame d f notify
  | .frameTimeout usage => d.cmdHandleBinTimeout usage

/-- The lines that the dongle has come to send on the way from `d` to `e`. -/
def reports (d e : Dongle) : List Report := (e.out.drop d.out.length).map .news

/-- `toSay`: what the callback under way has yet to send; `formatted`: what the command thread has
formatted and not yet sent. `undisturbed` records what has been sent since a byte was lost, two threads'
lines ran together or the host opened the port anew. -/
structure Path where
  dongle : Dongle
  toSay : List Report
  formatted : List Report
  output : Output
  host : BleDongleLink
  undisturbed : List Report

def Path.start (now : Nat) : Path where
  dongle := .boot
  toSay := []
  formatted := []
  output := .start now
  host := {}
  undisturbed := []

/-- What the thread has yet to send. -/
def Path.pending (s : Path) : Sender → List Report
  | .command => s.formatted
  | .bluetooth _ => s.toSay

def Path.left (s : Path) (t : Sender) (rest : List Report) : Path :=
  match t with
  | .command => { s with formatted := rest }
  | .bluetooth _ => { s with toSay := rest }

/-- `_handle_line`, on the bytes of a line. -/
def handleReceived (host : BleDongleLink) (r : Received) : BleDongleLink :=
  host.handleLine (RxLines.decodeAscii r.line)

/-- One byte of `_ingest_rx_bytes`, and what it has the host handle. -/
def hearByte (h : HostRx × BleDongleLink) (b : UInt8) : HostRx × BleDongleLink :=
  (h.1.ingest b, ((h.1.ingest b).lines.drop h.1.lines.length).foldl handleReceived h.2)

/-- `_rx_buf.clear()`; the rest of a line that was under way is no line. -/
def clearRx (h : HostRx) : HostRx := { h with rxBuf := [], cut := h.cut || h.rxBuf ≠ [] }

/-- Whether the ring takes `n` more bytes without giving up any. -/
def Room (o : Output) (n : Nat) : Prop := o.port.cmdUartReady = true ∧ n ≤ o.port.cmdTxRb.space

instance (o : Output) (n : Nat) : Decidable (Room o n) := inferInstanceAs (Decidable (_ ∧ _))

/-- `callback`: one that begins when the one before it is through, whatever the command thread has
formatted. `command`: the command thread goes on when nothing is under way. `opens`: the host opens the
port for the first time. `puts`, `ends`: the puts of a `cmd_uart_send_line`. `reopens`: the host's
`_try_open_and_handshake`. `output`: the interrupt, the work item and time. -/
inductive Event where
  | callback (cb : Callback)
  | command (c : Command)
  | opens
  | puts (t : Sender)
  | ends (t : Sender)
  | reopens
  | output (e : LineDrain.Event)

theorem encoded_toNat {c : Char} (h : Printable c) : (UInt8.ofNat c.toNat).toNat = c.toNat := by
  have hhigh := h.2
  exact UInt8.toNat_ofNat_of_lt' (by rw [UInt8.size]; omega)

theorem sendable_bytes {text : List Char} (h : Sendable text) :
    ∀ b ∈ encodeAscii text, b ≠ 0 ∧ b ≠ 10 ∧ b ≠ 13 := by
  intro b hb
  obtain ⟨c, hc, rfl⟩ := List.mem_map.mp hb
  have hprintable := h.2 c hc
  have hlow := hprintable.1
  have hhigh := hprintable.2
  rw [if_pos (by omega)]
  refine ⟨fun heq => ?_, fun heq => ?_, fun heq => ?_⟩ <;>
  · have hnat := encoded_toNat hprintable
    rw [heq] at hnat
    simp at hnat
    omega

/-- A text as the machine of the lines has it. -/
def txLine (text : List Char) (h : Sendable text) : TxLine where
  bytes := encodeAscii text
  text := sendable_bytes h
  short := by
    rw [encodeAscii, List.length_map]
    exact h.1.2

/-- A thread has put the text of a report. -/
def Path.put (s : Path) (build : Build) (r : Report) (output : Output) : Path :=
  { s with
    output := output
    undisturbed :=
      if s.output.port.midLine = [] ∧ Room s.output (r.bytes build).length then s.undisturbed ++ [r]
      else [] }

def step (build : Build) (s : Path) : Event → Option Path
  | .callback cb =>
    if s.toSay = [] then
      some { s with
        dongle := s.dongle.callback cb
        toSay := reports s.dongle (s.dongle.callback cb) }
    else none
  | .command c =>
    if s.toSay = [] ∧ s.formatted = [] then
      some { s with
        dongle := commanded s.dongle c
        formatted := reports s.dongle (commanded s.dongle c) }
    else none
  | .opens =>
    if s.output.port.cmdUartReady = false then
      (LineDrain.step s.output .ready).map fun output =>
        { s with
          output := output
          formatted := s.formatted ++ [.greeting .port, .greeting .usb, .greeting .boot] }
    else none
  | .puts t =>
    match s.pending t with
    | [] => none
    | r :: rest =>
      if h : Sendable (r.text build) then
        (LineDrain.step s.output (.text t (txLine _ h))).map fun output =>
          (s.put build r output).left t rest
      else none
  | .ends t =>
    (LineDrain.step s.output (.newline t)).map fun output =>
      { s with
        output := output
        undisturbed := if Room s.output 1 then s.undisturbed else [] }
  | .reopens => some { s with
      output := { s.output with port := { s.output.port with host := clearRx s.output.port.host } }
      host := reopened s.host
      undisturbed := [] }
  | .output e =>
    match e with
    | .ready | .text _ _ | .newline _ => none
    | .fills n =>
      (LineDrain.step s.output (.fills n)).map fun output =>
        { s with
          output := output
          host := ((s.output.ring.take n).foldl hearByte (s.output.port.host, s.host)).2 }
    | e => (LineDrain.step s.output e).map fun output => { s with output := output }

/-! ### Every line can be sent -/

def AllPrintable (text : List Char) : Prop := ∀ c ∈ text, Printable c

instance (text : List Char) : Decidable (AllPrintable text) :=
  inferInstanceAs (Decidable (∀ c ∈ text, Printable c))

theorem AllPrintable.append {s t : List Char} (hs : AllPrintable s) (ht : AllPrintable t) :
    AllPrintable (s ++ t) := by
  intro c hc
  rcases List.mem_append.mp hc with hc | hc
  · exact hs c hc
  · exact ht c hc

theorem allPrintable_unwords {ws : List (List Char)} (h : ∀ w ∈ ws, AllPrintable w) :
    AllPrintable (unwords ws) := by
  induction ws with
  | nil => exact fun c hc => by cases hc
  | cons w ws ih =>
    obtain ⟨hw, hws⟩ := List.forall_mem_cons.mp h
    cases ws with
    | nil => exact hw
    | cons v ws =>
      have hspace : AllPrintable [' '] := by decide
      exact hw.append (hspace.append (ih hws))

theorem allPrintable_dec (n : Nat) : AllPrintable (dec n) := by
  intro c hc
  obtain ⟨hlow, hhigh⟩ := isDigit_range (dec_digits n c hc)
  exact ⟨by omega, by omega⟩

theorem allPrintable_sdec (i : Int) : AllPrintable (sdec i) := by
  have hsign : AllPrintable ['-'] := by decide
  unfold sdec
  split
  · exact hsign.append (allPrintable_dec _)
  · exact allPrintable_dec _

theorem allPrintable_bit (on : Bool) : AllPrintable (bit on) := by cases on <;> decide

theorem allPrintable_field {p : String × List Char} (hkey : AllPrintable p.1.toList)
    (hvalue : AllPrintable p.2) : AllPrintable (field p) := by
  have hsign : AllPrintable ['='] := by decide
  exact hkey.append (hsign.append hvalue)

theorem allPrintable_statusPairs (s : Status) :
    ∀ p ∈ statusPairs s, AllPrintable p.1.toList ∧ AllPrintable p.2 := by
  simp only [statusPairs, List.forall_mem_cons, allPrintable_bit, allPrintable_dec, and_true]
  decide

/-- What is formatted into a buffer of at most 512 bytes. -/
theorem sendable_snprintk {size : Nat} {text : List Char} (hsize : 1 < size) (hmax : size ≤ rxLineMax)
    (hne : text ≠ []) (h : AllPrintable text) : Sendable (snprintk size text) := by
  refine ⟨⟨fun hnil => ?_, ?_⟩, fun c hc => h c (List.mem_of_mem_take hc)⟩
  · rcases List.take_eq_nil_iff.mp hnil with hzero | hnil
    · omega
    · exact hne hnil
  · rw [snprintk, List.length_take]
    omega

theorem sendable_lineText {build : Build} {l : Line}
    (hbuild : AllPrintable (build.deviceName ++ build.fwVersion))
    (haddr : ∀ a, l = .info (some a) → AllPrintable a) : Sendable (lineText build l) := by
  have hone {w : List Char} (hw : AllPrintable w) : ∀ x ∈ [w], AllPrintable x :=
    List.forall_mem_singleton.mpr hw
  have hnumber (key : String) (n : Nat) (hkey : AllPrintable key.toList) :
      AllPrintable (field (key, dec n)) := allPrintable_field hkey (allPrintable_dec n)
  have hwords {a b : List Char} {ws : List (List Char)} {size : Nat} (hsize : 1 < size)
      (hmax : size ≤ rxLineMax) (ha : AllPrintable a) (hb : AllPrintable b) (hne : a ≠ [])
      (h : ∀ w ∈ ws, AllPrintable w) : Sendable (snprintk size (unwords (a :: b :: ws))) := by
    refine sendable_snprintk hsize hmax (List.append_ne_nil_of_left_ne_nil hne _)
      (allPrintable_unwords ?_)
    exact List.forall_mem_cons.mpr ⟨ha, List.forall_mem_cons.mpr ⟨hb, h⟩⟩
  cases l with
  | evtAdv on | evtConn on | evtReady on | evtProto on | evtErr on =>
    exact hwords (by decide) (by decide) (by decide) (by decide) (by decide)
      (hone (allPrintable_bit on))
  | evtDisc reason =>
    exact hwords (by decide) (by decide) (by decide) (by decide) (by decide)
      (hone (hnumber "reason" _ (by decide)))
  | evtConnParams interval latency timeout =>
    refine hwords (by decide) (by decide) (by decide) (by decide) (by decide) ?_
    exact List.forall_mem_cons.mpr ⟨hnumber "interval_ms" _ (by decide), List.forall_mem_cons.mpr
      ⟨hnumber "latency" _ (by decide), hone (hnumber "timeout_ms" _ (by decide))⟩⟩
  | evtBinErr usage rc =>
    refine hwords (by decide) (by decide) (by decide) (by decide) (by decide) ?_
    exact List.forall_mem_cons.mpr ⟨by cases usage <;> decide, hone (allPrintable_sdec _)⟩
  | evtBinErrTimeout usage =>
    have hfixed : ∀ u, Sendable (unwords ["EVT".toList, "BINERR".toList, usageWord u,
        "timeout".toList]) := by
      intro u
      cases u <;> decide
    exact hfixed usage
  | status s =>
    refine sendable_snprintk (by decide) (by decide) ?_ (allPrintable_unwords ?_)
    · simp [statusPairs, unwords]
    · refine List.forall_mem_cons.mpr ⟨by decide, fun w hw => ?_⟩
      obtain ⟨p, hp, rfl⟩ := List.mem_map.mp hw
      obtain ⟨hkey, hvalue⟩ := allPrintable_statusPairs s p hp
      exact allPrintable_field hkey hvalue
  | pong => exact show Sendable "PONG".toList by decide
  | info addr =>
    have hname : AllPrintable build.deviceName := fun c hc =>
      hbuild c (List.mem_append_left _ hc)
    have hversion : AllPrintable build.fwVersion := fun c hc =>
      hbuild c (List.mem_append_right _ hc)
    have hwhere : AllPrintable (addr.getD "?".toList) := by
      cases addr with
      | none => exact show AllPrintable "?".toList by decide
      | some a => exact haddr a rfl
    have hinfo : AllPrintable "INFO name=".toList := by decide
    have hfw : AllPrintable " fw=".toList := by decide
    have hat : AllPrintable " addr=".toList := by decide
    refine sendable_snprintk (by decide) (by decide) ?_
      (((((hinfo.append hname).append hfw).append hversion).append hat).append hwhere)
    unfold infoText
    iterate 5 apply List.append_ne_nil_of_left_ne_nil
    decide

/-- Whatever there is to report, the host's buffer holds it and its text goes through. -/
theorem sendable_text {build : Build} (hbuild : AllPrintable (build.deviceName ++ build.fwVersion))
    (r : Report) (haddr : ∀ a, r = .news (.info (some a)) → AllPrintable a) :
    Sendable (r.text build) := by
  cases r with
  | news l => exact sendable_lineText hbuild fun a ha => haddr a (congrArg Report.news ha)
  | greeting g =>
    have hfixed : ∀ g : Greeting, Sendable (unwords ("EVT".toList :: g.words)) := by
      intro g
      cases g <;> decide
    exact hfixed g

/-! ### The lines on their way -/

theorem decodeAscii_encodeAscii {text : List Char} (h : ∀ c ∈ text, Printable c) :
    RxLines.decodeAscii (encodeAscii text) = text := by
  rw [RxLines.decodeAscii, encodeAscii, List.map_map]
  refine (List.map_congr_left fun c hc => ?_).trans (List.map_id text)
  have hhigh := (h c hc).2
  have hnat := encoded_toNat (h c hc)
  rw [Function.comp_apply, if_pos (by omega : c.toNat < 128), hnat, if_pos (by omega), Char.ofNat_toNat]
  rfl

/-- The host handles a report. -/
def hears (build : Build) (host : BleDongleLink) (r : Report) : BleDongleLink :=
  host.handleLine (r.text build)

/-- Texts, a newline after each. -/
def ended (ts : List (List UInt8)) : List UInt8 := ts.flatMap fun t => t ++ [10]

/-- Neither a NUL byte nor a newline. -/
def Plain (t : List UInt8) : Prop := 0 ∉ t ∧ 10 ∉ t

theorem Sendable.plain {build : Build} {r : Report} (h : Sendable (r.text build)) :
    Plain (r.bytes build) :=
  ⟨fun h0 => (sendable_bytes h 0 h0).1 rfl, fun h10 => (sendable_bytes h 10 h10).2.1 rfl⟩

/-- What is on its way, from the line the host is at: what has gone of that line, lost bytes
included (`begun`), texts that may not arrive as they were sent (`before`), the undisturbed reports
that have been heard, that wait and the one that has no newline yet, and the text since the last
newline. `base` is the host before it heard the first of them. -/
structure Pipeline where
  begun : List UInt8
  before : List (List UInt8)
  heard : List Report
  waiting : List Report
  current : Option Report
  last : List UInt8
  base : BleDongleLink

structure Carries (build : Build) (rx : HostRx) (ring : List UInt8) (mid : List Sender)
    (host : BleDongleLink) (undisturbed : List Report) (p : Pipeline) : Prop where
  begun : 10 ∉ p.begun
  stream : p.begun ++ ring = ended (p.before ++ p.waiting.map (Report.bytes build)) ++ p.last
  plain : ∀ t ∈ p.before, Plain t
  plainLast : Plain p.last
  sendable : ∀ r ∈ undisturbed, Sendable (r.text build)
  current : ∀ r, p.current = some r → p.last = r.bytes build ∧ mid.length = 1
  whole : undisturbed = p.heard ++ p.waiting ++ p.current.toList
  clean : rx.cut = false → rx.rxBuf = p.begun
  cut : rx.cut = true → p.before ≠ [] ∨ mid ≠ [] ∧ undisturbed = []
  fresh : p.before ≠ [] → p.heard = []
  handled : host = p.heard.foldl (hears build) p.base
  overlapped : mid ≠ [] → p.current = none → undisturbed = []
  between : mid = [] → p.last = [] ∧ p.current = none

variable {build : Build} {rx : HostRx} {ring : List UInt8} {mid : List Sender}
  {host : BleDongleLink} {undisturbed : List Report} {p : Pipeline}

theorem ended_cons (t : List UInt8) (ts : List (List UInt8)) :
    ended (t :: ts) = t ++ 10 :: ended ts := by
  simp [ended]

theorem ended_concat (ts : List (List UInt8)) (t : List UInt8) :
    ended (ts ++ [t]) = ended ts ++ t ++ [10] := by
  simp [ended]

/-- Every text on its way is plain. -/
theorem Carries.texts (h : Carries build rx ring mid host undisturbed p) :
    ∀ t ∈ p.before ++ p.waiting.map (Report.bytes build), Plain t := by
  intro t ht
  rcases List.mem_append.mp ht with ht | ht
  · exact h.plain t ht
  · obtain ⟨r, hr, rfl⟩ := List.mem_map.mp ht
    have hmem : r ∈ undisturbed := by
      rw [h.whole]
      exact List.mem_append_left _ (List.mem_append_right _ hr)
    exact (h.sendable r hmem).plain

theorem Carries.nonzero (h : Carries build rx ring mid host undisturbed p) : 0 ∉ ring := by
  intro h0
  have hstream : (0 : UInt8) ∈ ended (p.before ++ p.waiting.map (Report.bytes build)) ++ p.last := by
    rw [← h.stream]
    exact List.mem_append_right _ h0
  rcases List.mem_append.mp hstream with hended | hlast
  · obtain ⟨t, ht, hmem⟩ := List.mem_flatMap.mp hended
    rcases List.mem_append.mp hmem with hmem | hmem
    · exact (h.texts t ht).1 hmem
    · simp at hmem
  · exact h.plainLast.1 hlast

/-- A newline at the front of the ring ends the text the host is at. -/
theorem Carries.first (h : Carries build rx (10 :: ring) mid host undisturbed p) :
    (∃ ts, p.before = p.begun :: ts ∧
      ring = ended (ts ++ p.waiting.map (Report.bytes build)) ++ p.last) ∨
    ∃ r rs, p.before = [] ∧ p.waiting = r :: rs ∧ p.begun = r.bytes build ∧
      ring = ended (rs.map (Report.bytes build)) ++ p.last := by
  have hstream := h.stream
  have htexts := h.texts
  cases hbefore : p.before with
  | cons t ts =>
    rw [hbefore, List.cons_append] at hstream htexts
    rw [ended_cons, List.append_assoc, List.cons_append] at hstream
    have hplain := htexts t (List.mem_cons_self ..)
    obtain ⟨hbegun, hrest⟩ := first_newline h.begun hplain.2 hstream
    exact Or.inl ⟨ts, by rw [hbegun], hrest⟩
  | nil =>
    rw [hbefore, List.nil_append] at hstream htexts
    cases hwaiting : p.waiting with
    | cons r rs =>
      rw [hwaiting, List.map_cons] at hstream htexts
      rw [ended_cons, List.append_assoc, List.cons_append] at hstream
      have hplain := htexts (r.bytes build) (List.mem_cons_self ..)
      obtain ⟨hbegun, hrest⟩ := first_newline h.begun hplain.2 hstream
      exact Or.inr ⟨r, rs, rfl, rfl, hbegun, hrest⟩
    | nil =>
      rw [hwaiting] at hstream
      have hmem : (10 : UInt8) ∈ p.begun ++ 10 :: ring := by simp
      rw [hstream] at hmem
      exact absurd hmem h.plainLast.2

/-- Up to another byte than a newline, a text is longer than what has gone of it. -/
theorem begun_lt {a r t s : List UInt8} {b : UInt8} (ha : 10 ∉ a) (hb : b ≠ 10)
    (h : a ++ b :: r = t ++ 10 :: s) : a.length < t.length := by
  by_contra hle
  have hpos : t.length < (a ++ [b]).length := by simp; omega
  have hget : (a ++ [b])[t.length]? = some 10 := by
    have hfull : ((a ++ [b]) ++ r)[t.length]? = some 10 := by
      rw [List.append_assoc, List.singleton_append, h, List.getElem?_append_right (Nat.le_refl _)]
      simp
    rwa [List.getElem?_append_left hpos] at hfull
  rcases List.mem_append.mp (List.mem_of_getElem? hget) with hmem | hmem
  · exact ha hmem
  · exact hb (List.mem_singleton.mp hmem).symm

theorem ingest_newline (rx : HostRx) : (rx.ingest 10).cut = false ∧ (rx.ingest 10).rxBuf = [] := by
  unfold HostRx.ingest
  rw [if_neg (by decide)]
  split
  · exact ⟨rfl, rfl⟩
  · exact ⟨rfl, rfl⟩

theorem rstrip_sendable {r : Report} (h : Sendable (r.text build)) :
    rstrip (r.bytes build ++ [10]) = r.bytes build := by
  have hline := rstrip_line [txLine _ h]
  rw [joined, List.flatMap_cons, List.flatMap_nil, List.append_nil] at hline
  exact hline

theorem length_bytes {r : Report} (h : Sendable (r.text build)) :
    (r.bytes build).length < rxLineMax := by
  rw [Report.bytes, encodeAscii, List.length_map]
  exact h.1.2

/-- A whole line is handled as the text that was sent. -/
theorem hearByte_whole (host : BleDongleLink) {r : Report} (h : Sendable (r.text build))
    (hbuf : rx.rxBuf = r.bytes build) : (hearByte (rx, host) 10).2 = hears build host r := by
  have hlength := length_bytes h
  have hshort : ¬ rxLineMax < (rx.rxBuf ++ [10]).length := by
    rw [hbuf, List.length_append, List.length_singleton]
    omega
  have hne : r.bytes build ≠ [] := by
    rw [Report.bytes, encodeAscii, Ne, List.map_eq_nil_iff]
    exact h.1.1
  have hlines : (rx.ingest 10).lines = rx.lines ++ [⟨r.bytes build, rx.cut⟩] := by
    rw [HostRx.ingest, if_neg (by decide), if_neg hshort, if_pos rfl]
    rw [hbuf, rstrip_sendable h, if_neg hne]
  rw [hearByte, hlines, List.drop_left]
  exact congrArg host.handleLine (decodeAscii_encodeAscii h.2)

/-- A byte that is no newline hands nothing on. -/
theorem hearByte_other {b : UInt8} (hb : b ≠ 10) : (hearByte (rx, host) b).2 = host := by
  have hlines : (rx.ingest b).lines = rx.lines := by
    unfold HostRx.ingest
    split
    · rfl
    · split
      · rfl
      · rfl
  rw [hearByte, hlines, List.drop_length]
  rfl

/-- A newline: the text before it is heard, whole if it is a report's. -/
theorem Carries.hears_line (h : Carries build rx (10 :: ring) mid host undisturbed p) :
    ∃ q, Carries build (hearByte (rx, host) 10).1 ring mid (hearByte (rx, host) 10).2 undisturbed
      q := by
  obtain ⟨huncut, hempty⟩ := ingest_newline rx
  have hcut : (hearByte (rx, host) 10).1.cut = false := huncut
  obtain ⟨ts, hbefore, hring⟩ | ⟨r, rs, hbefore, hwaiting, hbegun, hring⟩ := h.first
  · have hheard : p.heard = [] := h.fresh (by rw [hbefore]; exact List.cons_ne_nil _ _)
    refine ⟨{ p with begun := [], before := ts, base := (hearByte (rx, host) 10).2 }, ?_⟩
    exact {
      begun := List.not_mem_nil
      stream := hring
      plain := fun t ht => h.plain t (by rw [hbefore]; exact List.mem_cons_of_mem _ ht)
      plainLast := h.plainLast
      sendable := h.sendable
      current := h.current
      whole := h.whole
      clean := fun _ => hempty
      cut := fun htrue => by rw [hcut] at htrue; cases htrue
      fresh := fun _ => hheard
      handled := by rw [hheard]; rfl
      overlapped := h.overlapped
      between := h.between }
  · have hwhole := h.whole
    rw [hwaiting] at hwhole
    have hmem : r ∈ undisturbed := by
      rw [hwhole]
      simp
    have hclean : rx.cut = false := by
      cases hrx : rx.cut with
      | false => rfl
      | true =>
        obtain hne | ⟨-, hnone⟩ := h.cut hrx
        · exact absurd hbefore hne
        · rw [hnone] at hmem
          cases hmem
    have hhears := hearByte_whole host (h.sendable r hmem)
      ((h.clean hclean).trans hbegun)
    refine ⟨{ p with begun := [], heard := p.heard ++ [r], waiting := rs }, ?_⟩
    exact {
      begun := List.not_mem_nil
      stream := by rw [hbefore]; exact hring
      plain := h.plain
      plainLast := h.plainLast
      sendable := h.sendable
      current := h.current
      whole := by rw [hwhole]; simp
      clean := fun _ => hempty
      cut := fun htrue => by rw [hcut] at htrue; cases htrue
      fresh := fun hne => absurd hbefore hne
      handled := by rw [hhears, List.foldl_append, ← h.handled]; rfl
      overlapped := h.overlapped
      between := h.between }

/-- A report fits the host's buffer. -/
theorem Carries.begun_short {b : UInt8}
    (h : Carries build rx (b :: ring) mid host undisturbed p) (hb : b ≠ 10)
    (hbefore : p.before = []) (hreport : ¬ (mid ≠ [] ∧ undisturbed = [])) :
    p.begun.length + 1 ≤ rxLineMax := by
  have hstream := h.stream
  have hwhole := h.whole
  rw [hbefore, List.nil_append] at hstream
  cases hwaiting : p.waiting with
  | cons r rs =>
    rw [hwaiting] at hstream hwhole
    rw [List.map_cons, ended_cons, List.append_assoc, List.cons_append] at hstream
    have hlt := begun_lt h.begun hb hstream
    have hlength := length_bytes (h.sendable r (by rw [hwhole]; simp))
    omega
  | nil =>
    rw [hwaiting, List.map_nil, ended, List.flatMap_nil, List.nil_append] at hstream
    cases hcurrent : p.current with
    | some r =>
      have hlength := length_bytes (h.sendable r (by rw [hwhole, hcurrent]; simp))
      rw [(h.current r hcurrent).1] at hstream
      have hle := congrArg List.length hstream
      rw [List.length_append, List.length_cons] at hle
      omega
    | none =>
      by_cases hmid : mid = []
      · rw [(h.between hmid).1] at hstream
        simp at hstream
      · exact absurd ⟨hmid, h.overlapped hmid hcurrent⟩ hreport

/-- A byte of a line: a buffer that overflows holds no report. -/
theorem Carries.hears_byte {b : UInt8} (h : Carries build rx (b :: ring) mid host undisturbed p)
    (hb : b ≠ 10) : ∃ q, Carries build (hearByte (rx, host) b).1 ring mid (hearByte (rx, host) b).2
      undisturbed q := by
  have hb0 : b ≠ 0 := by
    rintro rfl
    exact h.nonzero (List.mem_cons_self ..)
  have hstream : (p.begun ++ [b]) ++ ring =
      ended (p.before ++ p.waiting.map (Report.bytes build)) ++ p.last := by
    rw [List.append_assoc, List.singleton_append, h.stream]
  have hbegun : 10 ∉ p.begun ++ [b] := by
    rw [List.mem_append, List.mem_singleton, not_or]
    exact ⟨h.begun, hb.symm⟩
  refine ⟨{ p with begun := p.begun ++ [b] }, ?_⟩
  rw [hearByte_other hb]
  by_cases hlong : rxLineMax < (rx.rxBuf ++ [b]).length
  · have hrx : (hearByte (rx, host) b).1 = { rx with rxBuf := [], cut := true } := by
      rw [hearByte, HostRx.ingest, if_neg hb0, if_pos hlong]
      simp [hb]
    have hgarbage : p.before ≠ [] ∨ mid ≠ [] ∧ undisturbed = [] := by
      cases hcut : rx.cut with
      | true => exact h.cut hcut
      | false =>
        by_contra hreport
        rw [not_or, not_not] at hreport
        have hshort := h.begun_short hb hreport.1 hreport.2
        rw [h.clean hcut, List.length_append, List.length_singleton] at hlong
        omega
    rw [hrx]
    exact { h with
      begun := hbegun
      stream := hstream
      clean := fun hfalse => by cases hfalse
      cut := fun _ => hgarbage }
  · have hrx : (hearByte (rx, host) b).1 = { rx with rxBuf := rx.rxBuf ++ [b] } := by
      rw [hearByte, HostRx.ingest, if_neg hb0, if_neg hlong, if_neg hb]
    rw [hrx]
    exact { h with
      begun := hbegun
      stream := hstream
      clean := fun hfalse => congrArg (· ++ [b]) (h.clean hfalse) }

theorem Carries.hears_all {bs : List UInt8}
    (h : Carries build rx (bs ++ ring) mid host undisturbed p) : ∃ q,
      Carries build (bs.foldl hearByte (rx, host)).1 ring mid (bs.foldl hearByte (rx, host)).2
        undisturbed q := by
  induction bs generalizing rx host p with
  | nil => exact ⟨p, h⟩
  | cons b bs ih =>
    by_cases hb : b = 10
    · subst hb
      obtain ⟨q, hq⟩ := h.hears_line
      exact ih hq
    · obtain ⟨q, hq⟩ := h.hears_byte hb
      exact ih hq

theorem foldl_hearByte_fst (bs : List UInt8) (h : HostRx × BleDongleLink) :
    (bs.foldl hearByte h).1 = bs.foldl HostRx.ingest h.1 := by
  induction bs generalizing h with
  | nil => rfl
  | cons b bs ih => exact ih (hearByte h b)

/-! ### What is sent and what is lost -/

/-- Every report on its way may be disturbed. -/
theorem Carries.forget (h : Carries build rx ring mid host undisturbed p) :
    ∃ q, Carries build rx ring mid host [] q := by
  refine ⟨⟨p.begun, p.before ++ p.waiting.map (Report.bytes build), [], [], none, p.last, host⟩, ?_⟩
  exact {
    begun := h.begun
    stream := by rw [List.map_nil, List.append_nil]; exact h.stream
    plain := h.texts
    plainLast := h.plainLast
    sendable := fun r hr => by cases hr
    current := fun r hr => by cases hr
    whole := rfl
    clean := h.clean
    cut := fun hcut => (h.cut hcut).imp (fun hne hnil => hne (List.append_eq_nil_iff.mp hnil).1)
      fun hmid => ⟨hmid.1, rfl⟩
    fresh := fun _ => rfl
    handled := rfl
    overlapped := fun _ _ => rfl
    between := fun hmid => ⟨(h.between hmid).1, rfl⟩ }

theorem Carries.nothing (h : Carries build rx ring mid host [] p) :
    p.heard = [] ∧ p.waiting = [] ∧ p.current = none := by
  have hwhole := h.whole
  obtain ⟨hfirst, hcurrent⟩ := List.append_eq_nil_iff.mp hwhole.symm
  obtain ⟨hheard, hwaiting⟩ := List.append_eq_nil_iff.mp hfirst
  refine ⟨hheard, hwaiting, ?_⟩
  cases hp : p.current with
  | none => rfl
  | some r =>
    rw [hp] at hcurrent
    cases hcurrent

/-- The host throws away what it has of the line it is at. -/
theorem Carries.clear (h : Carries build rx ring mid host [] p) (fresh : BleDongleLink) :
    ∃ q, Carries build (clearRx rx) ring mid fresh [] q := by
  obtain ⟨hheard, hwaiting, hcurrent⟩ := h.nothing
  refine ⟨{ p with base := fresh }, ?_⟩
  refine { h with clean := fun hfalse => ?_, cut := fun htrue => ?_, handled := by rw [hheard]; rfl }
  · obtain ⟨hcut, hbuf⟩ := Bool.or_eq_false_iff.mp hfalse
    rw [← h.clean hcut]
    exact (not_not.mp (of_decide_eq_false hbuf)).symm
  · cases hcut : rx.cut with
    | true => exact h.cut hcut
    | false =>
      by_cases hmid : mid = []
      · refine Or.inl fun hbefore => ?_
        have hstream := h.stream
        rw [hbefore, hwaiting, (h.between hmid).1] at hstream
        have hnil : rx.rxBuf = [] :=
          (h.clean hcut).trans (List.append_eq_nil_iff.mp hstream).1
        simp [clearRx, hcut, hnil] at htrue
      · exact Or.inr ⟨hmid, rfl⟩

/-- A thread begins a line. -/
theorem Carries.enter (h : Carries build rx ring mid host [] p) (t : Sender) :
    Carries build rx ring (t :: mid) host [] p := by
  obtain ⟨-, -, hcurrent⟩ := h.nothing
  exact { h with
    current := fun r hr => by rw [hcurrent] at hr; cases hr
    cut := fun hcut => (h.cut hcut).imp_right fun _ => ⟨List.cons_ne_nil _ _, rfl⟩
    overlapped := fun _ _ => rfl
    between := fun hnil => by cases hnil }

/-- A byte that the ring gives up. -/
theorem Carries.lose {b : UInt8} (h : Carries build rx (b :: ring) mid host [] p) (hmid : mid ≠ []) :
    ∃ q, Carries build (rx.lose b) ring mid host [] q := by
  obtain ⟨hheard, hwaiting, hcurrent⟩ := h.nothing
  by_cases hb : b = 10
  · subst hb
    obtain ⟨ts, hbefore, hring⟩ | ⟨r, rs, -, hsome, -, -⟩ := h.first
    · refine ⟨{ p with begun := [], before := ts }, ?_⟩
      exact { h with
        begun := List.not_mem_nil
        stream := hring
        plain := fun t ht => h.plain t (by rw [hbefore]; exact List.mem_cons_of_mem _ ht)
        clean := fun hfalse => by simpa [HostRx.lose] using hfalse
        cut := fun _ => Or.inr ⟨hmid, rfl⟩
        fresh := fun _ => hheard }
    · rw [hwaiting] at hsome
      cases hsome
  · refine ⟨{ p with begun := p.begun ++ [b] }, ?_⟩
    exact { h with
      begun := by
        rw [List.mem_append, List.mem_singleton, not_or]
        exact ⟨h.begun, fun heq => hb heq.symm⟩
      stream := by rw [List.append_assoc, List.singleton_append, h.stream]
      clean := fun hfalse => by simp [HostRx.lose, hb] at hfalse
      cut := fun _ => Or.inr ⟨hmid, rfl⟩ }

theorem Carries.lose_all {bs : List UInt8} (h : Carries build rx (bs ++ ring) mid host [] p)
    (hmid : mid ≠ []) : ∃ q, Carries build (bs.foldl HostRx.lose rx) ring mid host [] q := by
  induction bs generalizing rx p with
  | nil => exact ⟨p, h⟩
  | cons b bs ih =>
    obtain ⟨q, hq⟩ := h.lose hmid
    exact ih hq

/-- Text behind what is on its way. -/
theorem Carries.append {s : List UInt8} (h : Carries build rx ring mid host [] p) (hmid : mid ≠ [])
    (hs : Plain s) : ∃ q, Carries build rx (ring ++ s) mid host [] q := by
  obtain ⟨-, -, hcurrent⟩ := h.nothing
  refine ⟨{ p with last := p.last ++ s }, ?_⟩
  exact { h with
    stream := by rw [← List.append_assoc, h.stream, List.append_assoc]
    plainLast := by
      rw [Plain, List.mem_append, List.mem_append, not_or, not_or]
      exact ⟨⟨h.plainLast.1, hs.1⟩, h.plainLast.2, hs.2⟩
    current := fun r hr => by rw [hcurrent] at hr; cases hr
    between := fun hnil => absurd hnil hmid }

/-- A report behind whole lines. -/
theorem Carries.puts {r : Report} (h : Carries build rx ring [] host undisturbed p)
    (hr : Sendable (r.text build)) (t : Sender) : ∃ q,
      Carries build rx (ring ++ r.bytes build) [t] host (undisturbed ++ [r]) q := by
  obtain ⟨hlast, hcurrent⟩ := h.between rfl
  refine ⟨{ p with current := some r, last := r.bytes build }, ?_⟩
  exact { h with
    stream := by rw [← List.append_assoc, h.stream, hlast, List.append_nil]
    plainLast := hr.plain
    sendable := fun x hx => by
      rcases List.mem_append.mp hx with hx | hx
      · exact h.sendable x hx
      · rw [List.mem_singleton.mp hx]
        exact hr
    current := fun x hx => by
      obtain rfl := Option.some.inj hx
      exact ⟨rfl, rfl⟩
    whole := by rw [h.whole, hcurrent]; simp
    cut := fun hcut => (h.cut hcut).imp_right fun hmid => absurd rfl hmid.1
    overlapped := fun _ hnone => by cases hnone
    between := fun hnil => by cases hnil }

/-- A newline ends the text before it. -/
theorem Carries.ends {t : Sender} (h : Carries build rx ring mid host undisturbed p) (ht : t ∈ mid) :
    ∃ q, Carries build rx (ring ++ [10]) (mid.erase t) host undisturbed q := by
  have hmid : mid ≠ [] := List.ne_nil_of_mem ht
  have hstream := h.stream
  cases hcurrent : p.current with
  | some r =>
    obtain ⟨hlast, hone⟩ := h.current r hcurrent
    have herase : mid.erase t = [] := by
      rw [← List.length_eq_zero_iff, List.length_erase_of_mem ht, hone]
    rw [herase]
    refine ⟨{ p with waiting := p.waiting ++ [r], current := none, last := [] }, ?_⟩
    have hsome : undisturbed ≠ [] := by
      rw [h.whole, hcurrent]
      simp
    exact { h with
      stream := by
        rw [← List.append_assoc, hstream, hlast, List.map_append, List.map_singleton,
          ← List.append_assoc, ended_concat, List.append_nil]
      plainLast := ⟨List.not_mem_nil, List.not_mem_nil⟩
      current := fun x hx => by cases hx
      whole := by rw [h.whole, hcurrent]; simp
      cut := fun hcut => (h.cut hcut).imp_right fun hnone => absurd hnone.2 hsome
      overlapped := fun hne => absurd rfl hne
      between := fun _ => ⟨rfl, rfl⟩ }
  | none =>
    obtain rfl := h.overlapped hmid hcurrent
    obtain ⟨hheard, hwaiting, -⟩ := h.nothing
    refine ⟨{ p with before := p.before ++ [p.last], last := [] }, ?_⟩
    exact { h with
      stream := by
        rw [hwaiting, List.map_nil, List.append_nil] at hstream ⊢
        rw [← List.append_assoc, hstream, List.append_nil]
        exact (ended_concat p.before p.last).symm
      plain := fun x hx => by
        rcases List.mem_append.mp hx with hx | hx
        · exact h.plain x hx
        · rw [List.mem_singleton.mp hx]
          exact h.plainLast
      plainLast := ⟨List.not_mem_nil, List.not_mem_nil⟩
      current := fun x hx => by rw [hcurrent] at hx; cases hx
      cut := fun _ => Or.inl (List.append_ne_nil_of_right_ne_nil _ (List.cons_ne_nil _ _))
      fresh := fun _ => hheard
      overlapped := fun _ _ => rfl
      between := fun _ => ⟨rfl, hcurrent⟩ }

/-! ### Every step -/

/-- The ring and the host's buffer carry what is on its way; a port that is still closed carries
nothing. -/
structure Carried (build : Build) (s : Path) : Prop where
  opened : s.output.port.cmdUartReady = true → ∃ p, Carries build s.output.port.host s.output.ring
    s.output.port.midLine s.host s.undisturbed p
  closed : s.output.port.cmdUartReady = false →
    s.output.ring = [] ∧ s.output.port.host.rxBuf = [] ∧ s.output.port.host.cut = false ∧
      s.undisturbed = []

theorem carried_start (now : Nat) : Carried build (.start now) where
  opened := fun hready => by cases hready
  closed := fun _ => ⟨rfl, rfl, rfl, rfl⟩

/-- Nothing is on its way when the port is opened. -/
theorem carries_nothing (hbuf : rx.rxBuf = []) (hcut : rx.cut = false) (mid : List Sender)
    (host : BleDongleLink) : Carries build rx [] mid host [] ⟨[], [], [], [], none, [], host⟩ where
  begun := List.not_mem_nil
  stream := rfl
  plain := fun t ht => by cases ht
  plainLast := ⟨List.not_mem_nil, List.not_mem_nil⟩
  sendable := fun r hr => by cases hr
  current := fun r hr => by cases hr
  whole := rfl
  clean := fun _ => hbuf
  cut := fun htrue => by rw [hcut] at htrue; cases htrue
  fresh := fun _ => rfl
  handled := rfl
  overlapped := fun _ _ => rfl
  between := fun _ => ⟨rfl, rfl⟩

theorem text_port {s u : Output} {t : Sender} {l : TxLine}
    (h : LineDrain.step s (.text t l) = some u) :
    u.port.midLine = t :: s.port.midLine ∧ u.port.cmdUartReady = s.port.cmdUartReady ∧
      u.port.host = (s.port.cmdUartSendStr l.bytes).host ∧
      u.port.cmdTxRb = (s.port.cmdUartSendStr l.bytes).cmdTxRb := by
  simp only [LineDrain.step] at h
  split at h
  · obtain ⟨port, hport, rfl⟩ := Option.map_eq_some_iff.mp h
    simp only [LinePort.step] at hport
    split at hport
    · cases hport
    · obtain rfl := Option.some.inj hport
      rw [Output.put_port]
      exact ⟨rfl, s.port.cmdUartSendStr_cmdUartReady l.bytes, rfl, rfl⟩
  · cases h

theorem newline_port {s u : Output} {t : Sender} (h : LineDrain.step s (.newline t) = some u) :
    t ∈ s.port.midLine ∧ u.port.midLine = s.port.midLine.erase t ∧
      u.port.cmdUartReady = s.port.cmdUartReady ∧
      u.port.host = (s.port.cmdUartSendStr [10]).host ∧
      u.port.cmdTxRb = (s.port.cmdUartSendStr [10]).cmdTxRb := by
  simp only [LineDrain.step] at h
  split at h
  · obtain ⟨port, hport, rfl⟩ := Option.map_eq_some_iff.mp h
    simp only [LinePort.step] at hport
    split at hport
    · next ht =>
      obtain rfl := Option.some.inj hport
      rw [Output.put_port]
      exact ⟨ht, rfl, s.port.cmdUartSendStr_cmdUartReady [10], rfl, rfl⟩
    · cases hport
  · cases h

/-- What a put takes from the ring, and what it leaves there. -/
theorem sendStr_ready {port : LinePort} {s : List UInt8} (hready : port.cmdUartReady = true)
    (hne : s ≠ []) (hfit : s.length ≤ cmdTxRbSize) :
    (port.cmdUartSendStr s).host =
        (port.cmdTxRb.items.take (s.length - port.cmdTxRb.space)).foldl HostRx.lose port.host ∧
      (port.cmdUartSendStr s).cmdTxRb.items =
        port.cmdTxRb.items.drop (s.length - port.cmdTxRb.space) ++ s := by
  unfold LinePort.cmdUartSendStr
  rw [if_neg (by simp [hready]), if_neg hne]
  refine ⟨rfl, Fifo.put_items_of_fits ?_⟩
  have hcap := port.cmdTxRb.fits
  rw [cmdTxDropOldestUntilSpace, Fifo.space_drop, Fifo.space]
  omega

theorem sendStr_room {o : Output} {s : List UInt8} (hroom : Room o s.length) (hne : s ≠ [])
    (hfit : s.length ≤ cmdTxRbSize) :
    (o.port.cmdUartSendStr s).host = o.port.host ∧
      (o.port.cmdUartSendStr s).cmdTxRb.items = o.ring ++ s := by
  obtain ⟨hhost, hitems⟩ := sendStr_ready hroom.1 hne hfit
  rw [Nat.sub_eq_zero_of_le hroom.2] at hhost hitems
  exact ⟨hhost, hitems⟩

/-- A thread's put: without room the oldest bytes go first. -/
theorem Carries.put {o : Output} {s : List UInt8} {p : Pipeline}
    (h : Carries build o.port.host o.ring mid host [] p) (hready : o.port.cmdUartReady = true)
    (hmid : mid ≠ []) (hne : s ≠ []) (hfit : s.length ≤ cmdTxRbSize) : ∃ n q,
      Carries build (o.port.cmdUartSendStr s).host (o.ring.drop n) mid host [] q ∧
        (o.port.cmdUartSendStr s).cmdTxRb.items = o.ring.drop n ++ s := by
  obtain ⟨hhost, hitems⟩ := sendStr_ready hready hne hfit
  rw [← List.take_append_drop (s.length - o.port.cmdTxRb.space) o.ring] at h
  obtain ⟨q, hq⟩ := h.lose_all hmid
  rw [hhost]
  exact ⟨_, q, hq, hitems⟩

theorem Carried.puts {s : Path} {u : Output} {t : Sender} {r : Report} (h : Carried build s)
    (hr : Sendable (r.text build))
    (hstep : LineDrain.step s.output (.text t (txLine _ hr)) = some u) :
    Carried build (s.put build r u) := by
  unfold Path.put
  obtain ⟨hmid, hready, hhost, hring⟩ := text_port hstep
  have hitems : u.ring = (s.output.port.cmdUartSendStr (r.bytes build)).cmdTxRb.items :=
    congrArg Fifo.items hring
  have hne : r.bytes build ≠ [] := by
    rw [Report.bytes, encodeAscii, Ne, List.map_eq_nil_iff]
    exact hr.1.1
  have hfit : (r.bytes build).length ≤ cmdTxRbSize := Nat.le_of_lt (length_bytes hr)
  refine ⟨fun hopen => ?_, fun hclosed => ?_⟩
  · rw [hready] at hopen
    obtain ⟨p, hp⟩ := h.opened hopen
    dsimp only
    rw [hmid, hhost, hitems]
    split
    · next hkeeps =>
      obtain ⟨hsame, hall⟩ := sendStr_room hkeeps.2 hne hfit
      rw [hkeeps.1] at hp ⊢
      obtain ⟨q, hq⟩ := hp.puts hr t
      exact ⟨q, by rw [hall]; exact hsame ▸ hq⟩
    · obtain ⟨q, hq⟩ := hp.forget
      obtain ⟨n, q', hq', hall⟩ := (hq.enter t).put hopen (List.cons_ne_nil _ _) hne hfit
      rw [hall]
      exact hq'.append (List.cons_ne_nil _ _) hr.plain
  · rw [hready] at hclosed
    obtain ⟨hnil, hbuf, hcut, -⟩ := h.closed hclosed
    have hsame : s.output.port.cmdUartSendStr (r.bytes build) = s.output.port :=
      LineDrain.sendStr_nothing (Or.inl hclosed)
    dsimp only
    rw [hitems, hhost, show (txLine _ hr).bytes = r.bytes build from rfl, hsame]
    refine ⟨hnil, hbuf, hcut, if_neg fun hroom => ?_⟩
    rw [hroom.2.1] at hclosed
    cases hclosed

theorem Carried.ends {s : Path} {u : Output} {t : Sender} (h : Carried build s)
    (hstep : LineDrain.step s.output (.newline t) = some u) :
    Carried build { s with
      output := u
      undisturbed := if Room s.output 1 then s.undisturbed else [] } := by
  obtain ⟨ht, hmid, hready, hhost, hring⟩ := newline_port hstep
  have hitems : u.ring = (s.output.port.cmdUartSendStr [10]).cmdTxRb.items :=
    congrArg Fifo.items hring
  have hne : ([10] : List UInt8) ≠ [] := List.cons_ne_nil _ _
  have hfit : ([10] : List UInt8).length ≤ cmdTxRbSize := by decide
  refine ⟨fun hopen => ?_, fun hclosed => ?_⟩
  · rw [hready] at hopen
    obtain ⟨p, hp⟩ := h.opened hopen
    dsimp only
    rw [hmid, hhost, hitems]
    split
    · next hroom =>
      obtain ⟨hsame, hall⟩ := sendStr_room (s := [10]) hroom hne hfit
      rw [hsame, hall]
      exact hp.ends ht
    · obtain ⟨q, hq⟩ := hp.forget
      obtain ⟨n, q', hq', hall⟩ := hq.put hopen (List.ne_nil_of_mem ht) hne hfit
      rw [hall]
      exact hq'.ends ht
  · rw [hready] at hclosed
    obtain ⟨hnil, hbuf, hcut, hnone⟩ := h.closed hclosed
    have hsame : s.output.port.cmdUartSendStr [10] = s.output.port :=
      LineDrain.sendStr_nothing (Or.inl hclosed)
    dsimp only
    rw [hitems, hhost, hsame, hnone, ite_self]
    exact ⟨hnil, hbuf, hcut, rfl⟩

theorem fills_port {s u : Output} {n : Nat} (h : LineDrain.step s (.fills n) = some u) :
    u.port.midLine = s.port.midLine ∧ u.port.cmdUartReady = s.port.cmdUartReady ∧
      u.port.host = (s.ring.take n).foldl HostRx.ingest s.port.host ∧ u.ring = s.ring.drop n := by
  simp only [LineDrain.step] at h
  split at h
  · obtain ⟨port, hport, rfl⟩ := Option.map_eq_some_iff.mp h
    obtain rfl := Option.some.inj hport
    unfold Output.fill
    split
    · next hzero =>
      subst hzero
      exact ⟨rfl, rfl, rfl, rfl⟩
    · exact ⟨rfl, rfl, rfl, rfl⟩
  · cases h

theorem Carried.fills {s : Path} {u : Output} {n : Nat} (h : Carried build s)
    (hstep : LineDrain.step s.output (.fills n) = some u) :
    Carried build { s with
      output := u
      host := ((s.output.ring.take n).foldl hearByte (s.output.port.host, s.host)).2 } := by
  obtain ⟨hmid, hready, hhost, hring⟩ := fills_port hstep
  refine ⟨fun hopen => ?_, fun hclosed => ?_⟩
  · rw [hready] at hopen
    obtain ⟨p, hp⟩ := h.opened hopen
    rw [← List.take_append_drop n s.output.ring] at hp
    obtain ⟨q, hq⟩ := hp.hears_all
    rw [foldl_hearByte_fst] at hq
    dsimp only
    rw [hmid, hhost, hring]
    exact ⟨q, hq⟩
  · rw [hready] at hclosed
    obtain ⟨hnil, hbuf, hcut, hnone⟩ := h.closed hclosed
    dsimp only
    rw [hring, hhost, hnil, List.drop_nil, List.take_nil]
    exact ⟨rfl, hbuf, hcut, hnone⟩

/-- Steps of the interrupt, the work item and time that leave the port as it is. -/
theorem other_port {s u : Output} {e : LineDrain.Event} (h : LineDrain.step s e = some u)
    (hother : match e with
      | .ready | .text _ _ | .newline _ | .fills _ => False
      | _ => True) : u.port = s.port := by
  cases e with
  | ready => exact hother.elim
  | text t l => exact hother.elim
  | newline t => exact hother.elim
  | fills n => exact hother.elim
  | passes ms =>
    obtain rfl := Option.some.inj h
    rfl
  | looks p =>
    obtain ⟨-, rfl⟩ := of_guard h
    split
    · exact s.done_port p
    · rfl
  | enables p =>
    obtain ⟨-, rfl⟩ := of_guard h
    exact s.done_port p
  | disables =>
    obtain ⟨-, rfl⟩ := of_guard h
    rfl
  | expires =>
    obtain ⟨-, rfl⟩ := of_guard h
    rfl
  | starts =>
    obtain ⟨-, rfl⟩ := of_guard h
    rfl
  | accepts on =>
    obtain rfl := Option.some.inj h
    rfl

theorem Carried.congr {s t : Path} (h : Carried build s) (hport : t.output.port = s.output.port)
    (hhost : t.host = s.host) (hundisturbed : t.undisturbed = s.undisturbed) : Carried build t := by
  refine ⟨fun hopen => ?_, fun hclosed => ?_⟩
  · rw [Output.ring, hport, hhost, hundisturbed]
    exact h.opened (hport ▸ hopen)
  · rw [Output.ring, hport, hundisturbed]
    exact h.closed (hport ▸ hclosed)

@[simp] theorem left_dongle (s : Path) (t : Sender) (rest : List Report) :
    (s.left t rest).dongle = s.dongle := by
  cases t <;> rfl

@[simp] theorem left_output (s : Path) (t : Sender) (rest : List Report) :
    (s.left t rest).output = s.output := by
  cases t <;> rfl

@[simp] theorem left_host (s : Path) (t : Sender) (rest : List Report) :
    (s.left t rest).host = s.host := by
  cases t <;> rfl

@[simp] theorem left_undisturbed (s : Path) (t : Sender) (rest : List Report) :
    (s.left t rest).undisturbed = s.undisturbed := by
  cases t <;> rfl

/-- A thread that puts a report had it first of what it has to send. -/
theorem puts_cases {s t : Path} {sender : Sender}
    (h : NewsPath.step build s (.puts sender) = some t) : ∃ r rest u, s.pending sender = r :: rest ∧
      ∃ hr : Sendable (r.text build), LineDrain.step s.output (.text sender (txLine _ hr)) = some u ∧
        t = (s.put build r u).left sender rest := by
  simp only [NewsPath.step] at h
  split at h
  · cases h
  · next r rest hpending =>
    split at h
    · next hr =>
      obtain ⟨u, hu, rfl⟩ := Option.map_eq_some_iff.mp h
      exact ⟨r, rest, u, hpending, hr, hu, rfl⟩
    · cases h

theorem Carried.step {s t : Path} {e : Event} (h : Carried build s)
    (hstep : NewsPath.step build s e = some t) : Carried build t := by
  cases e with
  | callback cb =>
    obtain ⟨-, rfl⟩ := of_guard hstep
    exact h.congr rfl rfl rfl
  | command c =>
    obtain ⟨-, rfl⟩ := of_guard hstep
    exact h.congr rfl rfl rfl
  | opens =>
    simp only [NewsPath.step] at hstep
    split at hstep
    · next hclosed =>
      obtain ⟨u, hu, rfl⟩ := Option.map_eq_some_iff.mp hstep
      obtain rfl := Option.some.inj hu
      obtain ⟨hnil, hbuf, hcut, hnone⟩ := h.closed hclosed
      refine ⟨fun _ => ⟨⟨[], [], [], [], none, [], s.host⟩, ?_⟩, fun hfalse => by cases hfalse⟩
      have hring : ({ s.output with port := { s.output.port with cmdUartReady := true } } :
          Output).ring = [] := hnil
      dsimp only
      rw [hnone, hring]
      exact carries_nothing hbuf hcut _ _
    · cases hstep
  | puts t =>
    obtain ⟨r, rest, u, -, hr, hu, rfl⟩ := puts_cases hstep
    exact (h.puts hr hu).congr (by simp) (by simp) (by simp)
  | ends t =>
    obtain ⟨u, hu, rfl⟩ := Option.map_eq_some_iff.mp hstep
    exact h.ends hu
  | reopens =>
    obtain rfl := Option.some.inj hstep
    refine ⟨fun hopen => ?_, fun hclosed => ?_⟩
    · obtain ⟨p, hp⟩ := h.opened hopen
      obtain ⟨q, hq⟩ := hp.forget
      exact hq.clear _
    · obtain ⟨hnil, hbuf, hcut, -⟩ := h.closed hclosed
      exact ⟨hnil, rfl, by simp [clearRx, hbuf, hcut], rfl⟩
  | output e =>
    simp only [NewsPath.step] at hstep
    split at hstep
    · cases hstep
    · cases hstep
    · cases hstep
    · obtain ⟨u, hu, rfl⟩ := Option.map_eq_some_iff.mp hstep
      exact h.fills hu
    · next hnot1 hnot2 hnot3 hnot4 =>
      obtain ⟨u, hu, rfl⟩ := Option.map_eq_some_iff.mp hstep
      refine h.congr (other_port hu ?_) rfl rfl
      split
      · exact hnot1 rfl
      · exact hnot2 _ _ rfl
      · exact hnot3 _ rfl
      · exact hnot4 _ rfl
      · trivial

/-! ### What the lines tell -/

def tellings (rs : List Report) : List Line := rs.filterMap Report.telling

theorem tellings_append (rs rs' : List Report) :
    tellings (rs ++ rs') = tellings rs ++ tellings rs' := List.filterMap_append ..

theorem tellings_news (ls : List Line) : tellings (ls.map .news) = ls.filter Telling := by
  induction ls with
  | nil => rfl
  | cons l ls ih =>
    rw [List.map_cons, ← List.singleton_append, tellings_append, ih, List.filter_cons]
    cases hl : Telling l with
    | true => simp [tellings, Report.telling, hl]
    | false => simp [tellings, Report.telling, hl]

theorem hear_other (v : View) {l : Line} (h : Telling l = false) : hear v l = v := by
  obtain ⟨hnews, hstatus⟩ := Bool.or_eq_false_iff.mp h
  exact hear_quiet v hnews hstatus

/-- The other lines may as well not have been sent. -/
theorem foldl_tellings (ls : List Line) (v : View) :
    (ls.filter Telling).foldl hear v = ls.foldl hear v := by
  induction ls generalizing v with
  | nil => rfl
  | cons l ls ih =>
    cases hl : Telling l with
    | true => rw [List.filter_cons_of_pos hl, List.foldl_cons, List.foldl_cons, ih]
    | false => rw [List.filter_cons_of_neg (by simp [hl]), List.foldl_cons, hear_other v hl, ih]

/-- From any STATUS on, the lines lead to the dongle's view. -/
def Told (d : Dongle) (ls : List Line) : Prop :=
  ∀ before st after, ls = before ++ .status st :: after → ∀ v,
    after.foldl hear (hear v (.status st)) = dongleView d

theorem Told.suffix {d : Dongle} {xs ls : List Line} (h : Told d (xs ++ ls)) : Told d ls := by
  intro before st after heq v
  exact h (xs ++ before) st after (by rw [heq, List.append_assoc]) v

theorem reports_announced {d e : Dongle} {ls : List Line} (hout : e.out = d.out ++ ls) :
    tellings (reports d e) = ls.filter Telling := by
  rw [reports, hout, List.drop_left, tellings_news]

/-- What is announced carries the host on from the dongle's view before it. -/
theorem Told.announced {d e : Dongle} {told : List Line} (h : Told d told) (ha : Announces d e) :
    Told e (told ++ tellings (reports d e)) := by
  obtain ⟨ls, hout, hview, hstatus⟩ := ha
  intro before st after heq v
  rw [reports_announced hout] at heq
  have hnone : .status st ∉ ls.filter Telling := fun hmem => by
    simpa [isStatus] using hstatus _ (List.mem_of_mem_filter hmem)
  obtain ⟨cs, -, hls⟩ | ⟨cs, hold, hrest⟩ := List.append_eq_append_iff.mp heq
  · exact absurd (by rw [hls]; simp) hnone
  · cases cs with
    | nil =>
      exact absurd (by rw [← List.nil_append (ls.filter _), ← hrest]; exact List.mem_cons_self ..) hnone
    | cons c cs =>
      obtain ⟨rfl, hafter⟩ := List.cons.inj hrest
      rw [hafter]
      refine (List.foldl_append ..).trans ?_
      rw [h before st cs hold v, foldl_tellings, hview]

/-- A STATUS line tells all there is to tell. -/
theorem told_status {d : Dongle} (hsettled : d.Settled) (told : List Line) :
    Told d (told ++ [.status d.statusFields]) := by
  intro before st after heq v
  obtain rfl | ⟨front, l, rfl⟩ := List.eq_nil_or_concat after
  · obtain ⟨-, hst⟩ := List.append_inj' heq rfl
    obtain rfl := Line.status.inj (List.singleton_inj.mp hst)
    exact hear_status hsettled v
  · rw [List.concat_eq_append, ← List.cons_append, ← List.append_assoc] at heq
    obtain ⟨-, hl⟩ := List.append_inj' heq rfl
    obtain rfl := List.singleton_inj.mp hl
    rw [List.concat_eq_append, List.foldl_append]
    exact hear_status hsettled (front.foldl hear (hear v (.status st)))

theorem told_commanded {d : Dongle} {told : List Line} (h : Told d told) (hsettled : d.Settled)
    (c : Command) : Told (commanded d c) (told ++ tellings (reports d (commanded d c))) ∧
      (commanded d c).Settled := by
  have hline (l : Line) (hnews : isNews l = false) (hstatus : isStatus l = false) :
      Told (d.cmdUartSendLine l) (told ++ tellings (reports d (d.cmdUartSendLine l))) ∧
        (d.cmdUartSendLine l).Settled :=
    ⟨h.announced (.line l rfl (hear_quiet _ hnews hstatus) hstatus), hsettled.congr rfl rfl⟩
  cases c with
  | ping => exact hline .pong rfl rfl
  | info addr => exact hline (.info addr) rfl rfl
  | status =>
    refine ⟨?_, hsettled.congr rfl rfl⟩
    have hout : (cmdEmitStatusLine d).out = d.out ++ [.status d.statusFields] := rfl
    rw [commanded, reports_announced hout]
    exact told_status hsettled told
  | frame f notify =>
    obtain ⟨ha, hafter⟩ := announces_frame hsettled f notify
    exact ⟨h.announced ha, hafter⟩
  | frameTimeout usage =>
    exact ⟨h.announced (announces_frameTimeout d usage), settled_frameTimeout hsettled usage⟩

/-- No callback has news while a STATUS, or news, that the command thread has formatted is still to be
sent. -/
def InTurn (s : Path) : Event → Prop
  | .callback cb =>
    tellings s.formatted ≠ [] → tellings (reports s.dongle (s.dongle.callback cb)) = []
  | _ => True

instance (s : Path) : ∀ e : Event, Decidable (InTurn s e)
  | .callback _ => inferInstanceAs (Decidable (_ → _))
  | .command _ | .opens | .puts _ | .ends _ | .reopens | .output _ => .isTrue trivial

/-- What is undisturbed and what is still to be sent lead to the dongle's view, the command thread's
lines and those of a callback in either order. -/
structure Reported (s : Path) : Prop where
  settled : s.dongle.Settled
  told : Told s.dongle (tellings s.undisturbed ++ tellings s.formatted ++ tellings s.toSay)
  apart : tellings s.formatted = [] ∨ tellings s.toSay = []

theorem reported_start (now : Nat) : Reported (.start now) where
  settled := rfl
  told := fun before st after heq => by cases before <;> cases heq
  apart := Or.inl rfl

/-- The lines are cut at the front. -/
theorem Reported.suffix {s t : Path} (h : Reported s) (xs : List Line) (hdongle : t.dongle = s.dongle)
    (hcut : tellings s.undisturbed ++ tellings s.formatted ++ tellings s.toSay =
      xs ++ (tellings t.undisturbed ++ tellings t.formatted ++ tellings t.toSay))
    (hapart : tellings t.formatted = [] ∨ tellings t.toSay = []) : Reported t := by
  refine ⟨hdongle ▸ h.settled, ?_, hapart⟩
  rw [hdongle]
  exact Told.suffix (hcut ▸ h.told)

theorem tellings_cons (r : Report) (rs : List Report) :
    tellings (r :: rs) = tellings [r] ++ tellings rs := tellings_append [r] rs

/-- Whichever thread has put the report, it is behind what was put before, or forgotten with it. -/
theorem Reported.puts {s : Path} {sender : Sender} {r : Report} {rest : List Report}
    (h : Reported s) (hpending : s.pending sender = r :: rest) (u : Output) :
    Reported ((s.put build r u).left sender rest) := by
  have hkept : ∃ xs, tellings s.undisturbed ++ tellings [r] =
      xs ++ tellings (s.put build r u).undisturbed := by
    unfold Path.put
    dsimp only
    split
    · exact ⟨[], (tellings_append s.undisturbed [r]).symm⟩
    · exact ⟨_, (List.append_nil _).symm⟩
  obtain ⟨xs, hxs⟩ := hkept
  cases sender with
  | command =>
    change s.formatted = r :: rest at hpending
    have hcons := tellings_cons r rest
    refine h.suffix xs rfl ?_ (h.apart.imp_left fun hnone => ?_)
    · change _ = xs ++ (tellings (s.put build r u).undisturbed ++ tellings rest ++ tellings s.toSay)
      rw [hpending, hcons, ← List.append_assoc, hxs]
      simp only [List.append_assoc]
    · rw [hpending, hcons] at hnone
      exact (List.append_eq_nil_iff.mp hnone).2
  | bluetooth n =>
    change s.toSay = r :: rest at hpending
    have hcons := tellings_cons r rest
    refine h.suffix xs rfl ?_ (h.apart.imp_right fun hnone => ?_)
    · change _ = xs ++ (tellings (s.put build r u).undisturbed ++ tellings s.formatted ++
        tellings rest)
      obtain hnone | hnone := h.apart
      · rw [hpending, hcons, hnone, List.append_nil, List.append_nil, ← List.append_assoc, hxs,
          List.append_assoc]
      · rw [hpending, hcons] at hnone
        obtain ⟨hr, hrest⟩ := List.append_eq_nil_iff.mp hnone
        rw [hr, List.append_nil] at hxs
        rw [hpending, hcons, hr, hrest, hxs, List.nil_append, List.append_nil, List.append_nil,
          List.append_assoc]
    · rw [hpending, hcons] at hnone
      exact (List.append_eq_nil_iff.mp hnone).2

theorem Reported.step {s t : Path} {e : Event} (h : Reported s) (hok : InTurn s e)
    (hstep : NewsPath.step build s e = some t) : Reported t := by
  have htold := h.told
  cases e with
  | callback cb =>
    obtain ⟨hnone, rfl⟩ := of_guard hstep
    rw [hnone] at htold
    refine ⟨settled_callback h.settled cb, ?_, ?_⟩
    · have hbefore : Told s.dongle (tellings s.undisturbed ++ tellings s.formatted) := by
        simpa [tellings] using htold
      exact hbefore.announced (announces_callback s.dongle cb)
    · by_cases hformatted : tellings s.formatted = []
      · exact Or.inl hformatted
      · exact Or.inr (hok hformatted)
  | command c =>
    obtain ⟨⟨hnone, hidle⟩, rfl⟩ := of_guard hstep
    rw [hnone, hidle] at htold
    have hbefore : Told s.dongle (tellings s.undisturbed) := by simpa [tellings] using htold
    obtain ⟨hafter, hsettled⟩ := told_commanded hbefore h.settled c
    refine ⟨hsettled, ?_, Or.inr (by rw [hnone]; rfl)⟩
    dsimp only
    rw [hnone]
    simpa [tellings] using hafter
  | opens =>
    simp only [NewsPath.step] at hstep
    split at hstep
    · obtain ⟨u, hu, rfl⟩ := Option.map_eq_some_iff.mp hstep
      have hsame : tellings (s.formatted ++ [.greeting .port, .greeting .usb, .greeting .boot]) =
          tellings s.formatted := (tellings_append ..).trans (List.append_nil _)
      refine h.suffix [] rfl ?_ (h.apart.imp_left hsame.trans)
      rw [hsame, List.nil_append]
    · cases hstep
  | puts t =>
    obtain ⟨r, rest, u, hpending, -, -, rfl⟩ := puts_cases hstep
    exact h.puts hpending u
  | ends t =>
    obtain ⟨u, hu, rfl⟩ := Option.map_eq_some_iff.mp hstep
    split
    · exact h.suffix [] rfl rfl h.apart
    · refine h.suffix (tellings s.undisturbed) rfl ?_ h.apart
      exact List.append_assoc ..
  | reopens =>
    obtain rfl := Option.some.inj hstep
    refine h.suffix (tellings s.undisturbed) rfl ?_ h.apart
    exact List.append_assoc ..
  | output e =>
    simp only [NewsPath.step] at hstep
    split at hstep
    · cases hstep
    · cases hstep
    · cases hstep
    · obtain ⟨u, hu, rfl⟩ := Option.map_eq_some_iff.mp hstep
      exact h.suffix [] rfl rfl h.apart
    · obtain ⟨u, hu, rfl⟩ := Option.map_eq_some_iff.mp hstep
      exact h.suffix [] rfl rfl h.apart

/-! ### Both ends -/

/-- Every step of the way is one of the lines' machine, or none to its output. -/
theorem step_kept {s t : Path} {e : Event} (h : LineDrain.Kept s.output)
    (hstep : NewsPath.step build s e = some t) : LineDrain.Kept t.output := by
  cases e with
  | callback cb =>
    obtain ⟨-, rfl⟩ := of_guard hstep
    exact h
  | command c =>
    obtain ⟨-, rfl⟩ := of_guard hstep
    exact h
  | opens =>
    simp only [NewsPath.step] at hstep
    split at hstep
    · obtain ⟨u, hu, rfl⟩ := Option.map_eq_some_iff.mp hstep
      exact h.step hu
    · cases hstep
  | puts t =>
    obtain ⟨r, rest, u, -, hr, hu, rfl⟩ := puts_cases hstep
    rw [left_output]
    exact h.step hu
  | ends t =>
    obtain ⟨u, hu, rfl⟩ := Option.map_eq_some_iff.mp hstep
    exact h.step hu
  | reopens =>
    obtain rfl := Option.some.inj hstep
    exact { h with }
  | output e =>
    simp only [NewsPath.step] at hstep
    split at hstep
    · cases hstep
    · cases hstep
    · cases hstep
    · obtain ⟨u, hu, rfl⟩ := Option.map_eq_some_iff.mp hstep
      exact h.step hu
    · obtain ⟨u, hu, rfl⟩ := Option.map_eq_some_iff.mp hstep
      exact h.step hu

theorem hears_view (host : BleDongleLink) (r : Report) :
    (hears build host r).state.view = (tellings [r]).foldl hear host.state.view := by
  cases r with
  | news l =>
    refine (handleLine_view build host l).trans ?_
    rw [show tellings [.news l] = [l].filter Telling from tellings_news [l], foldl_tellings]
    rfl
  | greeting g => cases g <;> rfl

/-- What reports do to the view, their lines do. -/
theorem foldl_hears_view (rs : List Report) (host : BleDongleLink) :
    (rs.foldl (hears build) host).state.view = (tellings rs).foldl hear host.state.view := by
  induction rs generalizing host with
  | nil => rfl
  | cons r rs ih => rw [List.foldl_cons, ih, hears_view, tellings_cons r rs, List.foldl_append]

/-- Whatever a host thought before it heard what is undisturbed, a STATUS sets it right. -/
theorem Reported.view_of_status {s : Path} (h : Reported s) (hsaid : s.toSay = [])
    (hidle : s.formatted = []) {st : Status} (hst : .news (.status st) ∈ s.undisturbed)
    (base : BleDongleLink) : (s.undisturbed.foldl (hears build) base).state.view =
      ⟨s.dongle.advIsOn, s.dongle.currentConn.isSome, s.dongle.computeLinkReady,
        s.dongle.errorState⟩ := by
  obtain ⟨xs, ys, hsplit⟩ := List.mem_iff_append.mp hst
  have hlines : tellings s.undisturbed = tellings xs ++ .status st :: tellings ys := by
    rw [hsplit, tellings_append, tellings_cons]
    rfl
  have htold := h.told
  rw [hsaid, hidle, hlines] at htold
  have hview := htold (tellings xs) st (tellings ys) (by simp [tellings])
    ((tellings xs).foldl hear base.state.view)
  rw [foldl_hears_view, hlines, List.foldl_append, List.foldl_cons, hview, dongleView, h.settled]

/-- What every run keeps of the lines on their way. -/
structure Good (build : Build) (s : Path) : Prop where
  carried : Carried build s
  kept : LineDrain.Kept s.output

theorem good_of_execute {start : Nat} {s : Path} {es : List Event}
    (h : execute (step build) (.start start) es = some s) : Good build s :=
  (reachable_of_execute h).invariant ⟨carried_start start, LineDrain.kept_start start⟩
    fun _ _ _ ht _ hstep => ⟨ht.carried.step hstep, step_kept ht.kept hstep⟩

/-- With an empty ring and no line half sent, all that is undisturbed has been heard. -/
theorem Carries.heard_all (h : Carries build rx [] [] host undisturbed p) :
    host = undisturbed.foldl (hears build) p.base := by
  obtain ⟨hlast, hcurrent⟩ := h.between rfl
  have hstream := h.stream
  rw [List.append_nil, hlast, List.append_nil] at hstream
  have hnone : p.before ++ p.waiting.map (Report.bytes build) = [] := by
    cases htexts : p.before ++ p.waiting.map (Report.bytes build) with
    | nil => rfl
    | cons t ts =>
      rw [htexts, ended_cons] at hstream
      exact absurd (by rw [hstream]; simp) h.begun
  have hwaiting : p.waiting = [] := List.map_eq_nil_iff.mp (List.append_eq_nil_iff.mp hnone).2
  rw [h.whole, hwaiting, hcurrent, Option.toList_none, List.append_nil, List.append_nil]
  exact h.handled

/-- End to end, from the callbacks and commands that send lines to what the host makes of them,
whatever has been lost, run together or thrown away on the way. Once the port has taken what it was
given for 10 ms and nothing is under way, the ring is empty. With the ring empty and no line half sent,
the host has handled every line sent since the last disturbance, whole, once and in order; and if a
STATUS was among them, and no callback had news between the formatting and the put of one, it knows the
link as the dongle does. -/
theorem news_reaches_host (build : Build) {start : Nat} {s : Path} {es : List Event}
    (h : execute (step build) (.start start) es = some s) :
    (∀ T time, s.output.accepting = some T → s.output.Rests time → T + 10 < time →
        s.output.ring = []) ∧
      (s.output.port.midLine = [] → s.output.ring = [] →
        (∃ base, s.host = s.undisturbed.foldl (hears build) base) ∧
          (Along (step build) InTurn (.start start) es → s.toSay = [] → s.formatted = [] →
            (∃ st, .news (.status st) ∈ s.undisturbed) → s.host.state.view =
              ⟨s.dongle.advIsOn, s.dongle.currentConn.isSome, s.dongle.computeLinkReady,
                s.dongle.errorState⟩)) := by
  obtain ⟨hcarried, hkept⟩ := good_of_execute h
  refine ⟨fun T time hT hrests hlate => ?_, fun hmid hempty => ?_⟩
  · by_contra hne
    have hle := hkept.empties hT hrests hne
    omega
  · cases hready : s.output.port.cmdUartReady with
    | false =>
      obtain ⟨-, -, -, hnone⟩ := hcarried.closed hready
      rw [hnone]
      exact ⟨⟨s.host, rfl⟩, fun _ _ _ hstatus => by obtain ⟨st, hst⟩ := hstatus; cases hst⟩
    | true =>
      obtain ⟨p, hp⟩ := hcarried.opened hready
      rw [hempty, hmid] at hp
      have hheard := hp.heard_all
      refine ⟨⟨p.base, hheard⟩, fun hturn hsaid hidle hstatus => ?_⟩
      have hreported : Reported s := (reachableBy_of_execute h hturn).invariant
        (reported_start start) fun _ _ _ ht hok hstep => ht.step hok hstep
      obtain ⟨st, hst⟩ := hstatus
      rw [hheard]
      exact hreported.view_of_status hsaid hidle hst p.base

def sentLine (t : Sender) : List Event :=
  [.puts t, .output (.looks (.thread t)), .output (.enables (.thread t)),
    .ends t, .output (.looks (.thread t)), .output (.enables (.thread t))]

/-- The host opens the port anew in the middle of a line; a phone connects, and subscribes to the
battery level while the STATUS that the host asks for is formatted. -/
def reopenedRun : List Event :=
  .opens :: sentLine .command ++ sentLine .command ++ sentLine .command ++
    [.output (.fills 20), .reopens, .callback phoneConnects] ++
    sentLine (.bluetooth 0) ++ sentLine (.bluetooth 0) ++ sentLine (.bluetooth 0) ++
    [.command .status, .callback (.battCccChanged 1)] ++ sentLine .command ++
    [.output (.fills 64), .output (.fills 64), .output (.fills 64), .output (.fills 59)]

theorem news_reaches_host_reopened : ∃ s,
    execute (step sampleBuild) (.start 0) reopenedRun = some s ∧
      s.host.state.view = ⟨false, true, false, false⟩ := by
  have hend : ((execute (step sampleBuild) (.start 0) reopenedRun).map fun s =>
      decide ((s.toSay = [] ∧ s.formatted = [] ∧ s.output.port.midLine = [] ∧ s.output.ring = []) ∧
        (∃ r ∈ s.undisturbed, r =
          .news (.status { s.dongle.statusFields with battNotify := false })) ∧
        s.dongle.advIsOn = false ∧ s.dongle.currentConn.isSome = true ∧
        s.dongle.computeLinkReady = false ∧ s.dongle.errorState = false)) = some true := by
    decide +kernel
  have hturn : Along (step sampleBuild) InTurn (.start 0) reopenedRun := by decide +kernel
  obtain ⟨s, hs, hs'⟩ := Option.map_eq_some_iff.mp hend
  obtain ⟨⟨hsaid, hidle, hmid, hempty⟩, ⟨r, hr, rfl⟩, hadv, hconn, hready, herr⟩ :=
    of_decide_eq_true hs'
  have hview := ((news_reaches_host sampleBuild hs).2 hmid hempty).2 hturn hsaid hidle ⟨_, hr⟩
  rw [hadv, hconn, hready, herr] at hview
  exact ⟨s, hs, hview⟩

end PiHub.NewsPath

import Mathlib.Data.List.Basic
import PiHub.Transition
import PiHub.Fifo
import PiHub.HostFrames

/-! Lines from the firmware's threads to the host: the transmit ring that drops its
oldest bytes on overflow (main.c) and the host's line buffer (ble_dongle.py). -/
namespace PiHub.LineOutput
open Transition HostFrames

def cmdTxRbSize : Nat := 512

/-- `_rx_line_max`. -/
def rxLineMax : Nat := 512

/-- The text of one `cmd_uart_send_line` call. -/
structure TxLine where
  bytes : List UInt8
  text : ∀ b ∈ bytes, b ≠ 0 ∧ b ≠ 10 ∧ b ≠ 13
  short : bytes.length < rxLineMax
  deriving DecidableEq

instance decidableText (bytes : List UInt8) :
    Decidable (∀ b ∈ bytes, b ≠ 0 ∧ b ≠ 10 ∧ b ≠ 13) :=
  List.decidableBAll _ bytes

/-- The threads that send lines. -/
inductive Sender where
  | command
  | bluetooth (n : Nat)
  deriving DecidableEq

/-- A line `_ingest_rx_bytes` handed on. `cut`: bytes between its first and its
newline, or before its first up to the newline before, never arrived. -/
structure Received where
  line : List UInt8
  cut : Bool
  deriving DecidableEq

/-- The host's `_rx_buf` and the lines it has passed to `_handle_line`. `cut` is no
variable of the host: it records what the line in progress has lost. -/
structure HostRx where
  rxBuf : List UInt8
  cut : Bool
  lines : List Received
  deriving DecidableEq

/-- Python's `rstrip("\r\n")`, on the bytes before they are decoded one by one. -/
def rstrip (line : List UInt8) : List UInt8 :=
  (line.reverse.dropWhile fun b => b == 13 || b == 10).reverse

/-- One byte of `_ingest_rx_bytes`. -/
def HostRx.ingest (h : HostRx) (b : UInt8) : HostRx :=
  if b = 0 then h
  else if rxLineMax < (h.rxBuf ++ [b]).length then { h with rxBuf := [], cut := b ≠ 10 }
  else if b = 10 then
    { rxBuf := []
      cut := false
      lines :=
        if rstrip (h.rxBuf ++ [b]) = [] then h.lines
        else h.lines ++ [⟨rstrip (h.rxBuf ++ [b]), h.cut⟩] }
  else { h with rxBuf := h.rxBuf ++ [b] }

/-- A byte dropped from the ring harms the line in progress, unless it only ends a line
of which nothing had arrived. -/
def HostRx.lose (h : HostRx) (b : UInt8) : HostRx :=
  { h with cut := b ≠ 10 || h.rxBuf ≠ [] }

/-- The port's ring and host end. `midLine` holds the threads between the two puts of
their `cmd_uart_send_line`; `sent`, `groups` (the texts put between one newline and the
next) and `current` (those since the last) record the run. -/
structure LinePort where
  cmdUartReady : Bool
  cmdTxRb : Fifo UInt8 cmdTxRbSize
  midLine : List Sender
  host : HostRx
  sent : List TxLine
  groups : List (List TxLine)
  current : List TxLine
  deriving DecidableEq

def LinePort.start : LinePort := ⟨false, .empty, [], ⟨[], false, []⟩, [], [], []⟩

/-- What `cmd_tx_drop_oldest_until_space` takes out of the ring, 32 bytes at a time. -/
def cmdTxDropOldestUntilSpace (rb : Fifo UInt8 cmdTxRbSize) (need : Nat) : Nat := need - rb.space

/-- `cmd_uart_send_str`: the drop and the put, as one step. -/
def LinePort.cmdUartSendStr (p : LinePort) (s : List UInt8) : LinePort :=
  if !p.cmdUartReady then p
  else if s = [] then p
  else
    let n := cmdTxDropOldestUntilSpace p.cmdTxRb s.length
    { p with
      cmdTxRb := (p.cmdTxRb.drop n).put s
      host := (p.cmdTxRb.items.take n).foldl HostRx.lose p.host }

/-- A put touches the ring and what the host has lost, nothing else. -/
theorem LinePort.cmdUartSendStr_frame (p : LinePort) (s : List UInt8) :
    p.cmdUartSendStr s = { p with
      cmdTxRb := (p.cmdUartSendStr s).cmdTxRb
      host := (p.cmdUartSendStr s).host } := by
  unfold LinePort.cmdUartSendStr
  split
  · rfl
  · split <;> rfl

@[simp] theorem LinePort.cmdUartSendStr_groups (p : LinePort) (s : List UInt8) :
    (p.cmdUartSendStr s).groups = p.groups := by
  rw [p.cmdUartSendStr_frame]

@[simp] theorem LinePort.cmdUartSendStr_sent (p : LinePort) (s : List UInt8) :
    (p.cmdUartSendStr s).sent = p.sent := by
  rw [p.cmdUartSendStr_frame]

@[simp] theorem LinePort.cmdUartSendStr_cmdUartReady (p : LinePort) (s : List UInt8) :
    (p.cmdUartSendStr s).cmdUartReady = p.cmdUartReady := by
  rw [p.cmdUartSendStr_frame]

/-- `ready`: the host has opened the port. `text`, `newline`: the two puts of a thread's
`cmd_uart_send_line`. `drain`: `cmd_uart_isr` moves bytes out, and the host reads them. -/
inductive PortEvent where
  | ready
  | text (t : Sender) (l : TxLine)
  | newline (t : Sender)
  | drain (n : Nat)
  deriving DecidableEq

def LinePort.step (p : LinePort) : PortEvent → Option LinePort
  | .ready => some { p with cmdUartReady := true }
  | .text t l =>
    if t ∈ p.midLine then none
    else some { p.cmdUartSendStr l.bytes with
      midLine := t :: p.midLine
      sent := p.sent ++ [l]
      current := if p.cmdUartReady then p.current ++ [l] else p.current }
  | .newline t =>
    if t ∈ p.midLine then some { p.cmdUartSendStr [10] with
      midLine := p.midLine.erase t
      groups := if p.cmdUartReady then p.groups ++ [p.current] else p.groups
      current := if p.cmdUartReady then [] else p.current }
    else none
  | .drain n => some { p with
      cmdTxRb := p.cmdTxRb.drop n
      host := (p.cmdTxRb.items.take n).foldl HostRx.ingest p.host }

/-- Texts run together on one line. -/
def joined (g : List TxLine) : List UInt8 := g.flatMap TxLine.bytes

/-- Whole lines, each the texts of a group, then the texts still without a newline. -/
def Framed (groups : List (List TxLine)) (current : List TxLine) (s : List UInt8) : Prop :=
  ∃ gs : List (List TxLine), (∀ g ∈ gs, g ∈ groups) ∧
    s = gs.flatMap (fun g => joined g ++ [10]) ++ joined current

theorem joined_text {g : List TxLine} {b : UInt8} (hb : b ∈ joined g) :
    b ≠ 0 ∧ b ≠ 10 ∧ b ≠ 13 := by
  obtain ⟨l, -, hl⟩ := List.mem_flatMap.mp hb
  exact l.text b hl

theorem newline_notMem_joined (g : List TxLine) : 10 ∉ joined g :=
  fun h => (joined_text h).2.1 rfl

variable {groups : List (List TxLine)} {current : List TxLine}

theorem Framed.nonzero {s : List UInt8} (h : Framed groups current s) : 0 ∉ s := by
  obtain ⟨gs, -, rfl⟩ := h
  intro h0
  rcases List.mem_append.mp h0 with h0 | h0
  · obtain ⟨g, -, hg⟩ := List.mem_flatMap.mp h0
    rcases List.mem_append.mp hg with hg | hg
    · exact (joined_text hg).1 rfl
    · simp at hg
  · exact (joined_text h0).1 rfl

/-- Where the first newline stands is settled by the bytes alone. -/
theorem first_newline {a b r s : List UInt8} (ha : 10 ∉ a) (hb : 10 ∉ b)
    (h : a ++ 10 :: r = b ++ 10 :: s) : a = b ∧ r = s := by
  induction a generalizing b with
  | nil =>
    cases b with
    | nil => exact ⟨rfl, (List.cons.inj h).2⟩
    | cons c b => exact absurd (List.cons.inj h).1 fun hc => hb (by simp [hc])
  | cons x a ih =>
    cases b with
    | nil => exact absurd (List.cons.inj h).1 fun hx => ha (by simp [hx])
    | cons c b =>
      obtain ⟨rfl, htail⟩ := List.cons.inj h
      obtain ⟨rfl, hr⟩ := ih (List.not_mem_of_not_mem_cons ha) (List.not_mem_of_not_mem_cons hb) htail
      exact ⟨rfl, hr⟩

/-- Up to its first newline a framed stream is one group's line, and framed after it. -/
theorem Framed.tail {a r : List UInt8} (h : Framed groups current (a ++ 10 :: r)) (ha : 10 ∉ a) :
    (∃ g ∈ groups, a = joined g) ∧ Framed groups current r := by
  obtain ⟨gs, hgs, hs⟩ := h
  cases gs with
  | nil =>
    have hmem : (10 : UInt8) ∈ a ++ 10 :: r := by simp
    rw [hs] at hmem
    exact absurd hmem (newline_notMem_joined current)
  | cons g gs =>
    have hcons : a ++ 10 :: r =
        joined g ++ 10 :: (gs.flatMap (fun g => joined g ++ [10]) ++ joined current) := by
      simpa using hs
    obtain ⟨rfl, rfl⟩ := first_newline ha (newline_notMem_joined g) hcons
    exact ⟨⟨g, hgs g (by simp), rfl⟩, gs, fun g' hg' => hgs g' (by simp [hg']), rfl⟩

theorem Framed.text {s : List UInt8} (h : Framed groups current s) (l : TxLine) :
    Framed groups (current ++ [l]) (s ++ l.bytes) := by
  obtain ⟨gs, hgs, rfl⟩ := h
  exact ⟨gs, hgs, by simp [joined]⟩

theorem Framed.newline {s : List UInt8} (h : Framed groups current s) :
    Framed (groups ++ [current]) [] (s ++ [10]) := by
  obtain ⟨gs, hgs, rfl⟩ := h
  refine ⟨gs ++ [current], fun g hg => ?_, by simp [joined]⟩
  rcases List.mem_append.mp hg with hg | hg
  · exact List.mem_append_left _ (hgs g hg)
  · exact List.mem_append_right _ hg

/-- What the host holds of a line, followed by what is still in the ring, is framed, but
for bytes that were lost; and what it has handed on uncut is a group's line. -/
structure Follows (groups : List (List TxLine)) (current : List TxLine) (h : HostRx)
    (ring : List UInt8) : Prop where
  stream : ∃ a, 10 ∉ a ∧ Framed groups current (a ++ ring) ∧ (h.cut = false → h.rxBuf = a)
  whole : ∀ r ∈ h.lines, r.line ≠ [] ∧ (r.cut = false → ∃ g ∈ groups, r.line = joined g)

theorem rstrip_line (g : List TxLine) : rstrip (joined g ++ [10]) = joined g := by
  have hkeep : (joined g).reverse.dropWhile (fun b => b == 13 || b == 10) = (joined g).reverse := by
    cases hr : (joined g).reverse with
    | nil => rfl
    | cons b bs =>
      have hb : b ∈ (joined g).reverse := by rw [hr]; exact List.mem_cons_self ..
      obtain ⟨-, h10, h13⟩ := joined_text (List.mem_reverse.mp hb)
      rw [List.dropWhile_cons_of_neg (by simp [h10, h13])]
  simp [rstrip, hkeep]

/-- A newline ends the line: uncut, it is the text of a group. -/
theorem Follows.ingest_newline {h : HostRx} {ring : List UInt8}
    (hf : Follows groups current h (10 :: ring)) : Follows groups current (h.ingest 10) ring := by
  obtain ⟨⟨a, ha, hframed, hcut⟩, hwhole⟩ := hf
  obtain ⟨⟨g, hg, hline⟩, htail⟩ := hframed.tail ha
  by_cases hlong : rxLineMax < (h.rxBuf ++ [10]).length
  · rw [HostRx.ingest, if_neg (by decide), if_pos hlong]
    exact ⟨⟨[], by simp, htail, fun _ => rfl⟩, hwhole⟩
  · rw [HostRx.ingest, if_neg (by decide), if_neg hlong, if_pos rfl]
    refine ⟨⟨[], by simp, htail, fun _ => rfl⟩, fun r hr => ?_⟩
    by_cases hne : rstrip (h.rxBuf ++ [10]) = []
    · exact hwhole r (by simpa [hne] using hr)
    · rw [if_neg hne] at hr
      rcases List.mem_append.mp hr with hr | hr
      · exact hwhole r hr
      · obtain rfl := List.mem_singleton.mp hr
        refine ⟨hne, fun huncut => ⟨g, hg, ?_⟩⟩
        simp only [hcut huncut, hline, rstrip_line]

theorem Follows.ingest {h : HostRx} {ring : List UInt8} {b : UInt8}
    (hf : Follows groups current h (b :: ring)) : Follows groups current (h.ingest b) ring := by
  by_cases hb : b = 10
  · subst hb
    exact hf.ingest_newline
  · obtain ⟨⟨a, ha, hframed, hcut⟩, hwhole⟩ := hf
    have hb0 : b ≠ 0 := by rintro rfl; exact hframed.nonzero (by simp)
    have hstream : Framed groups current ((a ++ [b]) ++ ring) := by simpa using hframed
    have hnl : (10 : UInt8) ∉ a ++ [b] := by simp [ha, Ne.symm hb]
    by_cases hlong : rxLineMax < (h.rxBuf ++ [b]).length
    · rw [HostRx.ingest, if_neg hb0, if_pos hlong]
      exact ⟨⟨a ++ [b], hnl, hstream, fun huncut => by simp [hb] at huncut⟩, hwhole⟩
    · rw [HostRx.ingest, if_neg hb0, if_neg hlong, if_neg hb]
      exact ⟨⟨a ++ [b], hnl, hstream, fun huncut => by rw [hcut huncut]⟩, hwhole⟩

theorem Follows.lose {h : HostRx} {ring : List UInt8} {b : UInt8}
    (hf : Follows groups current h (b :: ring)) : Follows groups current (h.lose b) ring := by
  obtain ⟨⟨a, ha, hframed, hcut⟩, hwhole⟩ := hf
  by_cases hb : b = 10
  · subst hb
    exact ⟨⟨[], by simp, (hframed.tail ha).2, fun huncut => by simpa [HostRx.lose] using huncut⟩,
      hwhole⟩
  · refine ⟨⟨a ++ [b], by simp [ha, Ne.symm hb], by simpa using hframed, fun huncut => ?_⟩, hwhole⟩
    simp [HostRx.lose, hb] at huncut

theorem Follows.ingest_all {h : HostRx} {bs ring : List UInt8}
    (hf : Follows groups current h (bs ++ ring)) :
    Follows groups current (bs.foldl HostRx.ingest h) ring := by
  induction bs generalizing h with
  | nil => exact hf
  | cons b bs ih => exact ih hf.ingest

theorem Follows.lose_all {h : HostRx} {bs ring : List UInt8}
    (hf : Follows groups current h (bs ++ ring)) :
    Follows groups current (bs.foldl HostRx.lose h) ring := by
  induction bs generalizing h with
  | nil => exact hf
  | cons b bs ih => exact ih hf.lose

theorem Follows.append {groups' : List (List TxLine)} {current' : List TxLine} {h : HostRx}
    {ring s : List UInt8} (hf : Follows groups current h ring) (hle : ∀ g ∈ groups, g ∈ groups')
    (hs : ∀ r, Framed groups current r → Framed groups' current' (r ++ s)) :
    Follows groups' current' h (ring ++ s) := by
  obtain ⟨⟨a, ha, hframed, hcut⟩, hwhole⟩ := hf
  refine ⟨⟨a, ha, by simpa using hs _ hframed, hcut⟩, fun r hr => ⟨(hwhole r hr).1, fun huncut => ?_⟩⟩
  obtain ⟨g, hg, hline⟩ := (hwhole r hr).2 huncut
  exact ⟨g, hle g hg, hline⟩

def LinePort.Good (p : LinePort) : Prop := Follows p.groups p.current p.host p.cmdTxRb.items

/-- A put of at most a ringful: the oldest bytes are lost, the new ones all stored. -/
theorem Follows.sendStr {p : LinePort} {s : List UInt8}
    {groups' : List (List TxLine)} {current' : List TxLine} (hf : p.Good)
    (hready : p.cmdUartReady = true) (hfit : s.length ≤ cmdTxRbSize)
    (hle : ∀ g ∈ p.groups, g ∈ groups')
    (hs : ∀ r, Framed p.groups p.current r → Framed groups' current' (r ++ s)) :
    Follows groups' current' (p.cmdUartSendStr s).host (p.cmdUartSendStr s).cmdTxRb.items := by
  by_cases hnil : s = []
  · subst hnil
    simpa [LinePort.cmdUartSendStr] using hf.append hle hs
  · have hp : p.cmdUartSendStr s = { p with
        cmdTxRb := (p.cmdTxRb.drop (s.length - p.cmdTxRb.space)).put s
        host := (p.cmdTxRb.items.take (s.length - p.cmdTxRb.space)).foldl HostRx.lose p.host } := by
      simp [LinePort.cmdUartSendStr, hready, hnil, cmdTxDropOldestUntilSpace]
    have hroom : s.length ≤ (p.cmdTxRb.drop (s.length - p.cmdTxRb.space)).space := by
      have hcap := p.cmdTxRb.fits
      rw [Fifo.space_drop, Fifo.space]
      omega
    have hsplit : Follows p.groups p.current p.host
        (p.cmdTxRb.items.take (s.length - p.cmdTxRb.space) ++
          p.cmdTxRb.items.drop (s.length - p.cmdTxRb.space)) := by
      simpa [LinePort.Good] using hf
    have hlost := hsplit.lose_all
    rw [hp, Fifo.put_items_of_fits hroom]
    exact hlost.append hle hs

theorem good_step {p q : LinePort} {e : PortEvent} (hp : p.Good) (h : p.step e = some q) :
    q.Good := by
  cases e with
  | ready => obtain rfl := Option.some.inj h; exact hp
  | text t l =>
    simp only [LinePort.step, Option.ite_none_left_eq_some, Option.some.injEq] at h
    obtain ⟨-, rfl⟩ := h
    cases hready : p.cmdUartReady with
    | false => simpa [LinePort.Good, LinePort.cmdUartSendStr, hready] using hp
    | true =>
      have hsend := Follows.sendStr hp hready (Nat.le_of_lt l.short) (fun _ hg => hg)
        fun r hr => hr.text l
      simpa [LinePort.Good, hready] using hsend
  | newline t =>
    simp only [LinePort.step, Option.ite_none_right_eq_some, Option.some.injEq] at h
    obtain ⟨-, rfl⟩ := h
    cases hready : p.cmdUartReady with
    | false => simpa [LinePort.Good, LinePort.cmdUartSendStr, hready] using hp
    | true =>
      have hfit : [(10 : UInt8)].length ≤ cmdTxRbSize := by decide
      have hsend := Follows.sendStr hp hready hfit (fun _ hg => List.mem_append_left _ hg)
        fun r hr => hr.newline
      simpa [LinePort.Good, hready] using hsend
  | drain n =>
    obtain rfl := Option.some.inj h
    exact Follows.ingest_all (by simpa [LinePort.Good] using hp)

theorem good_of_reachable {p : LinePort} (h : Reachable LinePort.step .start p) : p.Good :=
  h.invariant ⟨⟨[], by simp, ⟨[], by simp, rfl⟩, fun _ => rfl⟩, by simp [LinePort.start]⟩
    fun _ _ _ hp _ hstep => good_step hp hstep

/-- No thread's text is put between another's text and newline. -/
def Alone (p : LinePort) : PortEvent → Prop
  | .text _ _ => p.midLine = []
  | _ => True

instance : ∀ p e, Decidable (Alone p e)
  | p, .text _ _ => inferInstanceAs (Decidable (p.midLine = []))
  | _, .ready | _, .newline _ | _, .drain _ => .isTrue trivial

/-- Sends that do not overlap: every group is one line's text, or empty while the port is
closed. -/
structure LinePort.Apart (p : LinePort) : Prop where
  groups : ∀ g ∈ p.groups, g = [] ∨ ∃ l ∈ p.sent, g = [l]
  current : p.current = [] ∨ p.midLine.length = 1 ∧ ∃ l ∈ p.sent, p.current = [l]
  midLine : p.midLine.length ≤ 1
  closed : p.cmdUartReady = false → p.current = []

theorem apart_step {p q : LinePort} {e : PortEvent} (hp : p.Apart) (hok : Alone p e)
    (h : p.step e = some q) : q.Apart := by
  obtain ⟨hgroups, hcurrent, hmid, hclosed⟩ := hp
  cases e with
  | ready => obtain rfl := Option.some.inj h; exact ⟨hgroups, hcurrent, hmid, nofun⟩
  | text t l =>
    simp only [LinePort.step, Option.ite_none_left_eq_some, Option.some.injEq] at h
    obtain ⟨-, rfl⟩ := h
    have hnone : p.midLine = [] := hok
    have hempty : p.current = [] := hcurrent.resolve_right fun hc => by simp [hnone] at hc
    refine ⟨fun g hg => ?_, ?_, by simp [hnone], fun hready => ?_⟩
    · rcases hgroups g (by simpa using hg) with hg | ⟨l', hl', hg⟩
      · exact .inl hg
      · exact .inr ⟨l', List.mem_append_left _ hl', hg⟩
    · cases hready : p.cmdUartReady with
      | false => exact .inl (by simpa using hempty)
      | true => exact .inr ⟨by simp [hnone], l, by simp, by simp [hempty]⟩
    · simpa [show p.cmdUartReady = false by simpa using hready] using hempty
  | newline t =>
    simp only [LinePort.step, Option.ite_none_right_eq_some, Option.some.injEq] at h
    obtain ⟨ht, rfl⟩ := h
    have hdone : (p.midLine.erase t).length = 0 := by
      rw [List.length_erase_of_mem ht]; omega
    cases hready : p.cmdUartReady with
    | false =>
      have hempty := hclosed hready
      exact ⟨by simpa using hgroups, .inl (by simpa using hempty), by simp [hdone],
        fun _ => by simpa using hempty⟩
    | true =>
      refine ⟨fun g hg => ?_, .inl rfl, by simp [hdone], fun _ => rfl⟩
      rcases List.mem_append.mp (show g ∈ p.groups ++ [p.current] from hg) with hg | hg
      · simpa using hgroups g hg
      · obtain rfl := List.mem_singleton.mp hg
        simpa using hcurrent.imp_right And.right
  | drain n =>
    obtain rfl := Option.some.inj h
    exact ⟨hgroups, hcurrent, hmid, hclosed⟩

/-- A line that lost no byte is one of the lines sent. -/
theorem line_sent {p : LinePort} (hgood : p.Good) (hapart : p.Apart) :
    ∀ r ∈ p.host.lines, r.cut = false → ∃ l ∈ p.sent, r.line = l.bytes := by
  intro r hr huncut
  obtain ⟨hne, hline⟩ := hgood.whole r hr
  obtain ⟨g, hg, hrg⟩ := hline huncut
  rcases hapart.groups g hg with rfl | ⟨l, hl, rfl⟩
  · exact absurd hrg hne
  · exact ⟨l, hl, by simpa [joined] using hrg⟩

/-- A put finds room in the ring, which gives up no byte then. -/
def NoDrop (p : LinePort) : PortEvent → Prop
  | .text _ l => p.cmdUartReady = true → l.bytes.length ≤ p.cmdTxRb.space
  | .newline _ => p.cmdUartReady = true → 1 ≤ p.cmdTxRb.space
  | _ => True

instance : ∀ p e, Decidable (NoDrop p e)
  | _, .text _ _ | _, .newline _ => inferInstanceAs (Decidable (_ → _))
  | _, .ready | _, .drain _ => .isTrue trivial

/-- Nothing of the line in progress has been lost, nor of the lines before it. -/
def HostRx.Uncut (h : HostRx) : Prop := h.cut = false ∧ ∀ r ∈ h.lines, r.cut = false

/-- Up to a newline there is no more than the text of one group. -/
theorem Framed.short {a s : List UInt8} (h : Framed groups current (a ++ s)) (ha : 10 ∉ a)
    (hshort : ∀ g, g ∈ groups ∨ g = current → (joined g).length < rxLineMax) :
    a.length < rxLineMax := by
  obtain ⟨gs, hgs, hs⟩ := h
  cases gs with
  | nil =>
    have hlength := congrArg List.length hs
    have hcurrent := hshort current (.inr rfl)
    simp at hlength
    omega
  | cons g gs =>
    have hg := hshort g (.inl (hgs g (by simp)))
    have hcons : a ++ s =
        joined g ++ 10 :: (gs.flatMap (fun g => joined g ++ [10]) ++ joined current) := by
      simpa using hs
    obtain ⟨c, hc, -⟩ | ⟨c, rfl, hc⟩ := List.append_eq_append_iff.mp hcons
    · rw [hc, List.length_append] at hg
      omega
    · cases c with
      | nil => simpa using hg
      | cons x c =>
        obtain rfl := (List.cons.inj hc).1
        exact absurd (by simp) ha

theorem HostRx.Uncut.ingest {h : HostRx} {ring : List UInt8} {b : UInt8} (hu : h.Uncut)
    (hf : Follows groups current h (b :: ring))
    (hshort : ∀ g, g ∈ groups ∨ g = current → (joined g).length < rxLineMax) :
    (h.ingest b).Uncut := by
  obtain ⟨hcut, hlines⟩ := hu
  obtain ⟨⟨a, ha, hframed, hbuf⟩, -⟩ := hf
  have hfits : ¬ rxLineMax < (h.rxBuf ++ [b]).length := by
    have hlength := hframed.short ha hshort
    rw [hbuf hcut, List.length_append, List.length_singleton]
    omega
  by_cases hb : b = 0
  · rw [HostRx.ingest, if_pos hb]
    exact ⟨hcut, hlines⟩
  · rw [HostRx.ingest, if_neg hb, if_neg hfits]
    split
    · refine ⟨rfl, fun r hr => ?_⟩
      dsimp only at hr
      split at hr
      · exact hlines r hr
      · rcases List.mem_append.mp hr with hr | hr
        · exact hlines r hr
        · rw [List.mem_singleton.mp hr]
          exact hcut
    · exact ⟨hcut, hlines⟩

theorem HostRx.Uncut.ingest_all {h : HostRx} {bs ring : List UInt8} (hu : h.Uncut)
    (hf : Follows groups current h (bs ++ ring))
    (hshort : ∀ g, g ∈ groups ∨ g = current → (joined g).length < rxLineMax) :
    (bs.foldl HostRx.ingest h).Uncut := by
  induction bs generalizing h with
  | nil => exact hu
  | cons b bs ih => exact ih (hu.ingest hf hshort) hf.ingest

/-- A put that finds room takes nothing from the host. -/
theorem sendStr_host {p : LinePort} {s : List UInt8}
    (hroom : p.cmdUartReady = true → s.length ≤ p.cmdTxRb.space) :
    (p.cmdUartSendStr s).host = p.host := by
  unfold LinePort.cmdUartSendStr
  cases hready : p.cmdUartReady with
  | false => rfl
  | true =>
    rw [if_neg (by decide)]
    split
    · rfl
    · simp [cmdTxDropOldestUntilSpace, Nat.sub_eq_zero_of_le (hroom hready)]

theorem LinePort.Apart.short {p : LinePort} (h : p.Apart) (g : List TxLine)
    (hg : g ∈ p.groups ∨ g = p.current) : (joined g).length < rxLineMax := by
  have hone : g = [] ∨ ∃ l ∈ p.sent, g = [l] := by
    obtain hg | rfl := hg
    · exact h.groups g hg
    · exact h.current.imp_right And.right
  obtain rfl | ⟨l, -, rfl⟩ := hone
  · decide
  · simpa [joined] using l.short

theorem uncut_step {p q : LinePort} {e : PortEvent} (hgood : p.Good) (hapart : p.Apart)
    (hu : p.host.Uncut) (hok : NoDrop p e) (h : p.step e = some q) : q.host.Uncut := by
  cases e with
  | ready =>
    obtain rfl := Option.some.inj h
    exact hu
  | text t l =>
    simp only [LinePort.step, Option.ite_none_left_eq_some, Option.some.injEq] at h
    obtain ⟨-, rfl⟩ := h
    change (p.cmdUartSendStr l.bytes).host.Uncut
    rw [sendStr_host hok]
    exact hu
  | newline t =>
    simp only [LinePort.step, Option.ite_none_right_eq_some, Option.some.injEq] at h
    obtain ⟨-, rfl⟩ := h
    have hroom : p.cmdUartReady = true → ([10] : List UInt8).length ≤ p.cmdTxRb.space := hok
    change (p.cmdUartSendStr [10]).host.Uncut
    rw [sendStr_host hroom]
    exact hu
  | drain n =>
    obtain rfl := Option.some.inj h
    have hsplit : Follows p.groups p.current p.host
        (p.cmdTxRb.items.take n ++ p.cmdTxRb.items.drop n) := by
      rw [List.take_append_drop]
      exact hgood
    exact hu.ingest_all hsplit hapart.short

theorem apart_start : LinePort.start.Apart :=
  ⟨by simp [LinePort.start], .inl rfl, by simp [LinePort.start], fun _ => rfl⟩

/-- Whatever the threads and the ring do, a line that lost no byte is the texts put between
two newlines; it is one of the lines sent as long as no thread sends inside another's line; and
every line is, as long as no put finds the ring full either. -/
theorem lines_whole (p : LinePort) (h : Reachable LinePort.step .start p) :
    (∀ r ∈ p.host.lines, r.cut = false → ∃ g ∈ p.groups, r.line = joined g) ∧
      (ReachableBy LinePort.step Alone .start p →
        ∀ r ∈ p.host.lines, r.cut = false → ∃ l ∈ p.sent, r.line = l.bytes) ∧
      (ReachableBy LinePort.step (fun p e => Alone p e ∧ NoDrop p e) .start p →
        ∀ r ∈ p.host.lines, ∃ l ∈ p.sent, r.line = l.bytes) := by
  have hgood := good_of_reachable h
  refine ⟨fun r hr => (hgood.whole r hr).2, fun halone => ?_, fun hroom r hr => ?_⟩
  · have hapart : p.Apart := halone.invariant apart_start
      fun _ _ _ hp hok hstep => apart_step hp hok hstep
    exact line_sent hgood hapart
  · obtain ⟨-, hapart, huncut⟩ : p.Good ∧ p.Apart ∧ p.host.Uncut := hroom.invariant
      (P := fun p => p.Good ∧ p.Apart ∧ p.host.Uncut)
      ⟨good_of_reachable .start, apart_start, rfl, by simp [LinePort.start]⟩
      fun _ _ _ hp hok hstep => ⟨good_step hp.1 hstep, apart_step hp.2.1 hok.1 hstep,
        uncut_step hp.1 hp.2.1 hp.2.2 hok.2 hstep⟩
    exact line_sent hgood hapart r hr (huncut.2 r hr)

def pong : TxLine := ⟨encodeAscii "PONG".toList, by decide, by decide⟩
def evtReady0 : TxLine := ⟨encodeAscii "EVT READY 0".toList, by decide, by decide⟩
def evtAdv1 : TxLine := ⟨encodeAscii "EVT ADV 1".toList, by decide, by decide⟩

def sendLine (t : Sender) (l : TxLine) : List PortEvent := [.text t l, .newline t]

theorem lines_whole_sample :
    ∃ p, execute LinePort.step .start (.ready :: sendLine .command pong ++ [.drain 512]) = some p ∧
      ∃ l ∈ p.sent, encodeAscii "PONG".toList = l.bytes := by
  have hrun : execute LinePort.step .start (.ready :: sendLine .command pong ++ [.drain 512]) =
      some ⟨true, .empty, [], ⟨[], false, [⟨pong.bytes, false⟩]⟩, [pong], [[pong]], []⟩ := by
    decide +kernel
  have hroom : Along LinePort.step (fun p e => Alone p e ∧ NoDrop p e) .start
      (.ready :: sendLine .command pong ++ [.drain 512]) := by
    decide +kernel
  exact ⟨_, hrun, (lines_whole _ (reachable_of_execute hrun)).2.2
    (reachableBy_of_execute hrun hroom) ⟨pong.bytes, false⟩ (by simp)⟩

/-- A callback announces READY between the two puts of the command thread's PONG. -/
def preemptedEvents : List PortEvent :=
  [.ready, .text .command pong] ++ sendLine (.bluetooth 0) evtReady0 ++
    [.newline .command, .drain 512]

/-- READY is announced lost and half of the line goes out; then the host reads nothing
while 52 more lines push the other half and most of the first of them out of the ring. -/
def overflowEvents : List PortEvent :=
  .ready :: sendLine (.bluetooth 0) evtReady0 ++ [.drain 10] ++
    (List.replicate 52 (sendLine (.bluetooth 0) evtAdv1)).flatten ++ [.drain 2]

/-- Two lines on one, and an announcement that nobody made. -/
theorem lines_spliced :
    (∃ p, execute LinePort.step .start preemptedEvents = some p ∧
      p.sent = [pong, evtReady0] ∧
      ∃ r ∈ p.host.lines, r.line = encodeAscii "PONGEVT READY 0".toList) ∧
    ∃ p, execute LinePort.step .start overflowEvents = some p ∧
      (∀ l ∈ p.sent, l = evtReady0 ∨ l = evtAdv1) ∧
      ∃ r ∈ p.host.lines, r.line = encodeAscii "EVT READY 1".toList := by
  constructor
  · refine ⟨⟨true, .empty, [], ⟨[], false, [⟨encodeAscii "PONGEVT READY 0".toList, false⟩]⟩,
      [pong, evtReady0], [[pong, evtReady0], []], []⟩, by decide +kernel, rfl, _,
      List.mem_singleton.mpr rfl, rfl⟩
  · have hrun : ((execute LinePort.step .start overflowEvents).map fun p =>
        decide ((∀ l ∈ p.sent, l = evtReady0 ∨ l = evtAdv1) ∧
          ⟨encodeAscii "EVT READY 1".toList, true⟩ ∈ p.host.lines)) = some true := by
      decide +kernel
    obtain ⟨p, hp, hlines⟩ := Option.map_eq_some_iff.mp hrun
    obtain ⟨hsent, hline⟩ := of_decide_eq_true hlines
    exact ⟨p, hp, hsent, _, hline, rfl⟩

end PiHub.LineOutput

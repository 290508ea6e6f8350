import PiHub.CommandReader

/-! The dongle's hardware watchdog (main.c): what its main loop asks of the command thread and of the
system work queue before it feeds it, and the command thread's signs of life. A pass of the loop is one
step that takes no time. -/
namespace PiHub.DongleWatchdog
open Transition CommandReader

def wdtTimeoutMs : Nat := 8000
def wdtStaleMs : UInt32 := 4000
def cmdBinReadTimeoutMs : Nat := 30
def resyncMs : Nat := 50
def wakeMs : Nat := 1000
def dtrPollMs : Nat := 50

/-- `cmd_rx_thread_fn`: not created, asleep before it looks for DTR, or in a read of the ring that
gives up at the deadline. -/
inductive Reader where
  | off
  | waitsForDtr (wakes : Nat)
  | reads (port : RxPort) (deadline : Nat)
  deriving DecidableEq

/-- Times are in ms since the hardware booted. The fields from `startedAt` on are records. -/
structure State where
  now : Nat
  wdtRxAlive : UInt32
  wdtWorkqAlive : UInt32
  /-- `wdt_channel >= 0`. -/
  wdtChannel : Bool
  /-- Whether `cmd_uart` is set. -/
  cmdUart : Bool
  wdtWorkqPing : Bool
  rx : Reader
  /-- Whether `main` is in its last loop, and until when it sleeps there. -/
  looping : Bool
  mainWakes : Nat
  /-- When the hardware was set up or last fed. -/
  fedAt : Nat
  /-- The hardware has reset the dongle. -/
  reset : Bool
  startedAt : Nat
  rxAt : Nat
  workqAt : Nat
  mainAt : Nat
  deriving DecidableEq

namespace State

def uptime32 (s : State) : UInt32 := UInt32.ofNat s.now

def noteRx (s : State) : State := { s with wdtRxAlive := s.uptime32, rxAt := s.now }

def noteWorkq (s : State) : State := { s with wdtWorkqAlive := s.uptime32, workqAt := s.now }

/-- After `wdt_start`, at any uptime. `installed` says whether the hardware took the timeout. -/
def wdtStart (now : Nat) (installed : Bool) : State where
  now := now
  wdtRxAlive := UInt32.ofNat now
  wdtWorkqAlive := UInt32.ofNat now
  wdtChannel := installed
  cmdUart := false
  wdtWorkqPing := false
  rx := .off
  looping := false
  mainWakes := now
  fedAt := now
  reset := false
  startedAt := now
  rxAt := now
  workqAt := now
  mainAt := now

def wdtSeenRecently (s : State) (stamp : UInt32) : Bool := s.uptime32 - stamp < wdtStaleMs

/-- The condition on which `wdt_feed_if_healthy` feeds. -/
def healthy (s : State) : Bool :=
  s.wdtChannel && (!s.cmdUart || s.wdtSeenRecently s.wdtRxAlive) &&
    s.wdtSeenRecently s.wdtWorkqAlive

/-- The ping is submitted first, and need not have been handled when the stamps are read. -/
def wdtFeedIfHealthy (s : State) : State :=
  let s := { s with wdtWorkqPing := true }
  if s.healthy then { s with fedAt := s.now } else s

/-- The top of the command thread's loop. -/
def loopTop (s : State) (port : RxPort) : State :=
  { s.noteRx with rx := .reads port (s.now + wakeMs) }

/-- The command thread after a step: a deadline is set at the top of the loop and where a read of a
frame or a flush begins. -/
def resume (s : State) (before : Reading) (port : RxPort) (deadline : Nat) : State :=
  match before, port.thread.reading with
  | _, .loop => s.loopTop port
  | .loop, .readExact _ _ => { s with rx := .reads port (s.now + cmdBinReadTimeoutMs) }
  | .readExact _ _, .readExact _ _ | .resyncToNewline, _ => { s with rx := .reads port deadline }
  | _, .resyncToNewline => { s with rx := .reads port (s.now + resyncMs) }

end State

/-- `uartInit`: `cmd_uart_init`, with whether the device is ready. `mainFeeds`: a pass of `main`'s
last loop. `dtrPolled`: the command thread looks for DTR. `rx`: the ring's interrupt, a byte the
thread takes from it, or a read that gives up. -/
inductive Event where
  | passes (ms : Nat)
  | uartInit (ready : Bool)
  | mainFeeds
  | workqRuns
  | dtrPolled (dtr : Bool)
  | rx (e : RxEvent)
  deriving DecidableEq

/-- A step of the thread, or of the interrupt that fills its ring. -/
def State.rxStep (s : State) (e : RxEvent) : Option State :=
  match s.rx with
  | .off | .waitsForDtr _ => none
  | .reads port deadline =>
    match e with
    | .isr bytes => (port.step (.isr bytes)).map fun port => { s with rx := .reads port deadline }
    | .read => (port.step .read).map fun next => s.resume port.thread.reading next deadline
    | .timeout =>
      if deadline ≤ s.now then
        (port.step .timeout).map fun next => s.resume port.thread.reading next deadline
      else none

/-- The hardware counts on its own. -/
def State.pass (s : State) (ms : Nat) : State :=
  if s.wdtChannel ∧ s.fedAt + wdtTimeoutMs ≤ s.now + ms then
    { s with now := s.fedAt + wdtTimeoutMs, reset := true }
  else { s with now := s.now + ms }

def State.act (s : State) : Event → Option State
  | .passes ms => some (s.pass ms)
  | .uartInit ready =>
    if s.looping = false ∧ s.cmdUart = false then
      some (if ready then { s with cmdUart := true, rx := .waitsForDtr s.now } else s)
    else none
  | .mainFeeds =>
    if s.looping = false ∨ s.mainWakes ≤ s.now then
      some { s with looping := true, mainWakes := s.now + wakeMs, mainAt := s.now }.wdtFeedIfHealthy
    else none
  | .workqRuns =>
    if s.wdtWorkqPing then some { s.noteWorkq with wdtWorkqPing := false } else none
  | .dtrPolled dtr =>
    match s.rx with
    | .waitsForDtr wakes =>
      if wakes ≤ s.now then
        some (if dtr then s.loopTop .start
          else { s.noteRx with rx := .waitsForDtr (s.now + dtrPollMs) })
      else none
    | .off | .reads _ _ => none
  | .rx e => s.rxStep e

def step (s : State) (e : Event) : Option State := if s.reset then none else s.act e

/-! ### Stamps -/

/-- A stamp that is not 2^32 ms old tells its age, also when the counter has wrapped in between. -/
theorem age_of_lt {at' now : Nat} (hle : at' ≤ now) (hlt : now - at' < 4294967296) :
    (UInt32.ofNat now - UInt32.ofNat at').toNat = now - at' := by
  rw [UInt32.toNat_sub, UInt32.toNat_ofNat', UInt32.toNat_ofNat']
  omega

theorem seenRecently_iff {s : State} {seen : Nat} (hle : seen ≤ s.now)
    (hlt : s.now - seen < 4294967296) :
    s.wdtSeenRecently (UInt32.ofNat seen) = true ↔ s.now < seen + 4000 := by
  have hage : (UInt32.ofNat s.now - UInt32.ofNat seen).toNat = s.now - seen := age_of_lt hle hlt
  have hstale : wdtStaleMs.toNat = 4000 := rfl
  rw [State.wdtSeenRecently, decide_eq_true_iff, State.uptime32, UInt32.lt_iff_toNat_lt, hage, hstale]
  omega

/-- What the stamps and the hardware's counter say about each other. -/
structure Counting (s : State) : Prop where
  rxStamp : s.wdtRxAlive = UInt32.ofNat s.rxAt
  workqStamp : s.wdtWorkqAlive = UInt32.ofNat s.workqAt
  rx_le : s.rxAt ≤ s.now
  workq_le : s.workqAt ≤ s.now
  main_le : s.mainAt ≤ s.now
  fed_le : s.fedAt ≤ s.mainAt
  fedWorkq : s.fedAt < s.workqAt + 4000
  fedRx : s.cmdUart = true → s.fedAt < s.rxAt + 4000
  fedBefore : s.looping = false → s.fedAt ≤ s.rxAt
  inTime : s.wdtChannel = true → s.now ≤ s.fedAt + wdtTimeoutMs

theorem Counting.fed_le_now {s : State} (h : Counting s) : s.fedAt ≤ s.now :=
  Nat.le_trans h.fed_le h.main_le

theorem Counting.noteRx {s : State} (h : Counting s) : Counting s.noteRx := by
  have hfed := h.fed_le_now
  refine { h with
    rxStamp := rfl, rx_le := Nat.le_refl _, fedRx := fun _ => ?_, fedBefore := fun _ => hfed }
  change s.fedAt < s.now + 4000
  omega

theorem Counting.noteWorkq {s : State} (h : Counting s) : Counting s.noteWorkq := by
  refine { h with workqStamp := rfl, workq_le := Nat.le_refl _, fedWorkq := ?_ }
  have hfed := h.fed_le_now
  change s.fedAt < s.now + 4000
  omega

theorem Counting.pass {s : State} (h : Counting s) (ms : Nat) : Counting (s.pass ms) := by
  unfold State.pass
  have hrx := h.rx_le
  have hworkq := h.workq_le
  have hmain := h.main_le
  split
  · next hends =>
    have hin := h.inTime hends.1
    have hreset : s.now ≤ s.fedAt + wdtTimeoutMs := hin
    exact { h with
      rx_le := Nat.le_trans hrx hreset
      workq_le := Nat.le_trans hworkq hreset
      main_le := Nat.le_trans hmain hreset
      inTime := fun _ => Nat.le_refl _ }
  · next hnot =>
    refine { h with
      rx_le := Nat.le_add_right_of_le hrx
      workq_le := Nat.le_add_right_of_le hworkq
      main_le := Nat.le_add_right_of_le hmain
      inTime := fun hchannel => ?_ }
    have hlate : ¬ s.fedAt + wdtTimeoutMs ≤ s.now + ms := fun hle => hnot ⟨hchannel, hle⟩
    exact Nat.le_of_lt (Nat.not_le.mp hlate)

/-- The stamps are read before they can be mistaken for younger ones. -/
theorem Counting.healthy {s : State} (h : Counting s) (hhealthy : s.healthy = true) :
    s.now < s.workqAt + 4000 ∧ (s.cmdUart = true → s.now < s.rxAt + 4000) := by
  simp only [State.healthy, Bool.and_eq_true, Bool.or_eq_true, Bool.not_eq_true'] at hhealthy
  obtain ⟨⟨hchannel, hrx⟩, hworkq⟩ := hhealthy
  have hin : s.now ≤ s.fedAt + 8000 := h.inTime hchannel
  have hfedWorkq := h.fedWorkq
  refine ⟨(seenRecently_iff h.workq_le (by omega)).mp (h.workqStamp ▸ hworkq), fun huart => ?_⟩
  obtain hnone | hseen := hrx
  · rw [hnone] at huart
    cases huart
  · have hfedRx := h.fedRx huart
    exact (seenRecently_iff h.rx_le (by omega)).mp (h.rxStamp ▸ hseen)

theorem Counting.mainFeeds {s : State} (h : Counting s) : Counting
    { s with looping := true, mainWakes := s.now + wakeMs, mainAt := s.now }.wdtFeedIfHealthy := by
  have hnoted : Counting { s with
      wdtWorkqPing := true, looping := true, mainWakes := s.now + wakeMs, mainAt := s.now } :=
    { h with main_le := Nat.le_refl _, fed_le := h.fed_le_now, fedBefore := nofun }
  unfold State.wdtFeedIfHealthy
  dsimp only
  split
  · next hhealthy =>
    obtain ⟨hworkq, hrx⟩ := hnoted.healthy hhealthy
    exact { hnoted with
      fed_le := Nat.le_refl _
      fedWorkq := hworkq
      fedRx := hrx
      fedBefore := nofun
      inTime := fun _ => Nat.le_add_right _ _ }
  · exact hnoted

/-- The command thread, however it goes on, only notes that it is alive. -/
theorem resume_cases (s : State) (before : Reading) (port : RxPort) (deadline : Nat) :
    (∃ d, s.resume before port deadline = { s with rx := .reads port d }) ∨
      s.resume before port deadline = s.loopTop port := by
  unfold State.resume
  split
  · exact Or.inr rfl
  · exact Or.inl ⟨_, rfl⟩
  · exact Or.inl ⟨_, rfl⟩
  · exact Or.inl ⟨_, rfl⟩
  · exact Or.inl ⟨_, rfl⟩

theorem Counting.withRx {s : State} (h : Counting s) (rx : Reader) : Counting { s with rx := rx } :=
  { h with }

theorem Counting.loopTop {s : State} (h : Counting s) (port : RxPort) : Counting (s.loopTop port) :=
  h.noteRx.withRx _

theorem Counting.rxStep {s t : State} {e : RxEvent} (h : Counting s) (hstep : s.rxStep e = some t) :
    Counting t := by
  have hresume : ∀ before port deadline, Counting (s.resume before port deadline) := by
    intro before port deadline
    obtain ⟨d, hd⟩ | hd := resume_cases s before port deadline
    · rw [hd]
      exact h.withRx _
    · rw [hd]
      exact h.loopTop port
  unfold State.rxStep at hstep
  split at hstep
  · cases hstep
  · cases hstep
  · cases e with
    | isr bytes =>
      obtain ⟨next, -, rfl⟩ := Option.map_eq_some_iff.mp hstep
      exact h.withRx _
    | read =>
      obtain ⟨next, -, rfl⟩ := Option.map_eq_some_iff.mp hstep
      exact hresume _ _ _
    | timeout =>
      dsimp only at hstep
      split at hstep
      · obtain ⟨next, -, rfl⟩ := Option.map_eq_some_iff.mp hstep
        exact hresume _ _ _
      · cases hstep

theorem Counting.act {s t : State} {e : Event} (h : Counting s) (hact : s.act e = some t) :
    Counting t := by
  cases e with
  | passes ms =>
    obtain rfl := Option.some.inj hact
    exact h.pass ms
  | uartInit ready =>
    obtain ⟨⟨hearly, -⟩, rfl⟩ := of_guard hact
    split
    · have hfed := h.fedBefore hearly
      exact { h with fedRx := fun _ => by change s.fedAt < s.rxAt + 4000; omega }
    · exact h
  | mainFeeds =>
    obtain ⟨-, rfl⟩ := of_guard hact
    exact h.mainFeeds
  | workqRuns =>
    obtain ⟨-, rfl⟩ := of_guard hact
    exact { h.noteWorkq with }
  | dtrPolled dtr =>
    unfold State.act at hact
    dsimp only at hact
    split at hact
    · obtain ⟨-, rfl⟩ := of_guard hact
      split
      · exact h.loopTop _
      · exact h.noteRx.withRx _
    · cases hact
    · cases hact
  | rx e => exact h.rxStep hact

theorem step_act {s t : State} {e : Event} (h : step s e = some t) :
    s.reset = false ∧ s.act e = some t := by
  unfold step at h
  split at h
  · cases h
  · next hreset => exact ⟨Bool.not_eq_true _ ▸ hreset, h⟩

theorem counting_start (now : Nat) (installed : Bool) : Counting (.wdtStart now installed) where
  rxStamp := rfl
  workqStamp := rfl
  rx_le := Nat.le_refl _
  workq_le := Nat.le_refl _
  main_le := Nat.le_refl _
  fed_le := Nat.le_refl _
  fedWorkq := Nat.lt_add_of_pos_right (by decide)
  fedRx := nofun
  fedBefore := fun _ => Nat.le_refl _
  inTime := fun _ => Nat.le_add_right _ _

/-- With the hardware watchdog set up, whatever the uptime, the dongle does not run on without a
reset for 12 s after the last sign of life of its work queue or of its command thread, nor for more
than 8 s after `main`'s. -/
theorem reset_when_stuck {start : Nat} {installed : Bool} {s : State}
    (h : Reachable step (.wdtStart start installed) s) (hchannel : s.wdtChannel = true) :
    s.now < s.workqAt + 12000 ∧ (s.cmdUart = true → s.now < s.rxAt + 12000) ∧
      s.now ≤ s.mainAt + 8000 := by
  have hcounting : Counting s := h.invariant (counting_start start installed)
    fun _ _ _ ht _ hstep => ht.act (step_act hstep).2
  have hin : s.now ≤ s.fedAt + 8000 := hcounting.inTime hchannel
  have hworkq := hcounting.fedWorkq
  have hmain := hcounting.fed_le
  refine ⟨by omega, fun huart => ?_, by omega⟩
  have hrx := hcounting.fedRx huart
  omega

/-- The command thread is stuck from just before the uptime wraps. -/
def stuck : List Event :=
  [.uartInit true, .dtrPolled false, .mainFeeds, .workqRuns, .passes 3999, .mainFeeds, .workqRuns,
    .passes 3000, .mainFeeds, .workqRuns, .passes 6000]

theorem reset_when_stuck_wraps : ∃ s,
    execute step (.wdtStart (4294966296) true) stuck = some s ∧ s.reset = true ∧
      s.now < s.workqAt + 12000 ∧ (s.cmdUart = true → s.now < s.rxAt + 12000) ∧
      s.now ≤ s.mainAt + 8000 :=
  ⟨_, rfl, rfl, reset_when_stuck (reachable_of_execute
    (show execute step (.wdtStart (4294966296) true) stuck = some _ from rfl)) rfl⟩

/-! ### Prompt threads -/

/-- The thread has nothing to do before that time. -/
def Reader.Rests : Reader → Nat → Prop
  | .off, _ => True
  | .waitsForDtr wakes, time => time ≤ wakes
  | .reads port deadline, time => port.cmdRxRb.items = [] ∧ time ≤ deadline

/-- Time passes only while all threads have nothing to do. What `main` does before its last loop
takes less than WDT_STALE_MS. -/
def Prompt (s : State) : Event → Prop
  | .passes ms => s.rx.Rests (s.now + ms) ∧ s.wdtWorkqPing = false ∧
      (s.looping = true → s.now + ms ≤ s.mainWakes) ∧
      (s.looping = false → s.now + ms < s.startedAt + 4000)
  | _ => True

instance : ∀ (r : Reader) (time : Nat), Decidable (r.Rests time)
  | .off, _ => .isTrue trivial
  | .waitsForDtr wakes, time => inferInstanceAs (Decidable (time ≤ wakes))
  | .reads _ _, _ => inferInstanceAs (Decidable (_ ∧ _))

instance (s : State) : ∀ e : Event, Decidable (Prompt s e)
  | .passes _ => inferInstanceAs (Decidable (_ ∧ _ ∧ _ ∧ _))
  | .uartInit _ | .mainFeeds | .workqRuns | .dtrPolled _ | .rx _ => .isTrue trivial

/-- How long after a sign of life a read gives up at the latest. -/
def limitMs : Reading → Nat
  | .loop => wakeMs
  | .readExact _ _ => wakeMs + cmdBinReadTimeoutMs
  | .resyncToNewline => wakeMs + cmdBinReadTimeoutMs + resyncMs

/-- The command thread sleeps, and not for too long. -/
def RxLively (s : State) : Prop :=
  match s.rx with
  | .off => s.cmdUart = false
  | .waitsForDtr wakes => s.now ≤ wakes ∧ wakes < s.rxAt + 4000
  | .reads port deadline => s.now ≤ deadline ∧ deadline ≤ s.rxAt + limitMs port.thread.reading

theorem RxLively.young {s : State} (h : RxLively s) (huart : s.cmdUart = true) :
    s.now < s.rxAt + 4000 := by
  unfold RxLively at h
  split at h
  · rw [h] at huart
    cases huart
  · omega
  · next port deadline hrx =>
    have hlimit : limitMs port.thread.reading < 4000 := by
      cases port.thread.reading <;> exact of_decide_eq_true rfl
    omega

/-- A flush ends in the loop. -/
theorem flush_next {p q : RxPort} {e : RxEvent} (h : p.step e = some q)
    (hflush : p.thread.reading = .resyncToNewline) :
    q.thread.reading = .loop ∨ q.thread.reading = .resyncToNewline := by
  cases e with
  | isr bytes =>
    obtain rfl := Option.some.inj h
    exact Or.inr hflush
  | read =>
    simp only [RxPort.step] at h
    split at h
    · cases h
    · obtain rfl := Option.some.inj h
      simp only [RxPort.become, Thread.onByte, hflush]
      split_ifs
      · exact Or.inl rfl
      · exact Or.inr hflush
  | timeout =>
    obtain ⟨-, rfl⟩ := of_guard h
    refine Or.inl ?_
    simp only [RxPort.become, Thread.onTimeout, hflush]

/-- The thread reads on in time, from whichever read it was in. -/
theorem rxLively_resume {s : State} {port next : RxPort} {deadline : Nat} {e : RxEvent}
    (hnow : s.now ≤ deadline) (hlimit : deadline ≤ s.rxAt + limitMs port.thread.reading)
    (hstep : port.step e = some next) :
    RxLively (s.resume port.thread.reading next deadline) := by
  unfold State.resume
  split
  · next hloop => exact ⟨Nat.le_add_right _ _, by rw [hloop]; exact Nat.le_refl _⟩
  · next hbefore hafter =>
    rw [hbefore] at hlimit
    exact ⟨Nat.le_add_right _ _, by
      rw [hafter]
      exact Nat.add_le_add_right (Nat.le_trans hnow hlimit) cmdBinReadTimeoutMs⟩
  · next hbefore hafter =>
    rw [hbefore] at hlimit
    exact ⟨hnow, by rw [hafter]; exact hlimit⟩
  · next hbefore hnot =>
    obtain hloop | hafter := flush_next hstep hbefore
    · exact absurd hloop hnot
    · rw [hbefore] at hlimit
      exact ⟨hnow, by rw [hafter]; exact hlimit⟩
  · next hafter hnot =>
    have hread : limitMs port.thread.reading ≤ wakeMs + cmdBinReadTimeoutMs := by
      cases hbefore : port.thread.reading with
      | loop => exact Nat.le_add_right _ _
      | readExact usage dst => exact Nat.le_refl _
      | resyncToNewline => exact absurd hbefore hnot
    refine ⟨Nat.le_add_right _ _, ?_⟩
    rw [hafter]
    change s.now + resyncMs ≤ s.rxAt + (wakeMs + cmdBinReadTimeoutMs + resyncMs)
    omega

/-- What keeps the hardware fed: each thread's last sign of life, and the main loop. -/
structure Lively (s : State) : Prop where
  running : s.reset = false
  rx : RxLively s
  workq : s.now < s.workqAt + 4000
  rxStarted : s.startedAt ≤ s.rxAt
  workqStarted : s.startedAt ≤ s.workqAt
  early : s.looping = false →
    s.now < s.startedAt + 4000 ∧ s.fedAt = s.startedAt ∧ s.wdtWorkqPing = false
  main : s.looping = true → s.now ≤ s.mainWakes ∧ s.mainWakes = s.mainAt + wakeMs
  pinged : s.looping = true → s.wdtWorkqPing = false → s.mainAt ≤ s.workqAt
  fed : s.looping = true → s.wdtChannel = true → s.fedAt = s.mainAt

theorem Lively.pass {s : State} (h : Lively s) {ms : Nat} (hprompt : Prompt s (.passes ms)) :
    Lively (s.pass ms) := by
  obtain ⟨hrests, hping, hmain, hearly⟩ := hprompt
  have hwake : wakeMs = 1000 := rfl
  have hworkq : s.now + ms < s.workqAt + 4000 := by
    cases hlooping : s.looping with
    | false =>
      have hstarted := h.workqStarted
      have hlt := hearly hlooping
      omega
    | true =>
      have hpinged := h.pinged hlooping hping
      have hwakes := (h.main hlooping).2
      have hle := hmain hlooping
      omega
  have hfed : ¬ (s.wdtChannel = true ∧ s.fedAt + wdtTimeoutMs ≤ s.now + ms) := by
    rintro ⟨hchannel, hle⟩
    change s.fedAt + 8000 ≤ s.now + ms at hle
    cases hlooping : s.looping with
    | false =>
      have hstart := (h.early hlooping).2.1
      have hlt := hearly hlooping
      omega
    | true =>
      have hfedAt := h.fed hlooping hchannel
      have hwakes := (h.main hlooping).2
      have hlate := hmain hlooping
      omega
  have hrx : RxLively { s with now := s.now + ms } := by
    have hbefore := h.rx
    unfold RxLively at hbefore ⊢
    unfold Reader.Rests at hrests
    cases hreader : s.rx with
    | off =>
      rw [hreader] at hbefore
      exact hbefore
    | waitsForDtr wakes =>
      rw [hreader] at hbefore hrests
      exact ⟨hrests, hbefore.2⟩
    | reads port deadline =>
      rw [hreader] at hbefore hrests
      exact ⟨hrests.2, hbefore.2⟩
  rw [State.pass, if_neg hfed]
  exact { h with
    rx := hrx
    workq := hworkq
    early := fun hlooping => ⟨hearly hlooping, (h.early hlooping).2⟩
    main := fun hlooping => ⟨hmain hlooping, (h.main hlooping).2⟩ }

theorem Lively.loopTop {s : State} (h : Lively s) (hcounting : Counting s) (port : RxPort)
    (hrx : RxLively (s.loopTop port)) : Lively (s.loopTop port) :=
  { h with rx := hrx, rxStarted := Nat.le_trans h.rxStarted hcounting.rx_le }

theorem Lively.resume {s : State} (h : Lively s) (hcounting : Counting s) {before : Reading}
    {port : RxPort} {deadline : Nat} (hrx : RxLively (s.resume before port deadline)) :
    Lively (s.resume before port deadline) := by
  obtain ⟨d, hd⟩ | hd := resume_cases s before port deadline
  · rw [hd] at hrx ⊢
    exact { h with rx := hrx }
  · rw [hd] at hrx ⊢
    exact h.loopTop hcounting port hrx

theorem Lively.rxStep {s t : State} {e : RxEvent} (h : Lively s) (hcounting : Counting s)
    (hstep : s.rxStep e = some t) : Lively t := by
  have hrx := h.rx
  unfold State.rxStep at hstep
  split at hstep
  · cases hstep
  · cases hstep
  · next port deadline hreads =>
    rw [RxLively, hreads] at hrx
    obtain ⟨hnow, hlimit⟩ := hrx
    cases e with
    | isr bytes =>
      obtain ⟨next, hnext, rfl⟩ := Option.map_eq_some_iff.mp hstep
      obtain rfl := Option.some.inj hnext
      exact { h with rx := ⟨hnow, hlimit⟩ }
    | read =>
      obtain ⟨next, hnext, rfl⟩ := Option.map_eq_some_iff.mp hstep
      exact h.resume hcounting (rxLively_resume hnow hlimit hnext)
    | timeout =>
      dsimp only at hstep
      split at hstep
      · obtain ⟨next, hnext, rfl⟩ := Option.map_eq_some_iff.mp hstep
        exact h.resume hcounting (rxLively_resume hnow hlimit hnext)
      · cases hstep

/-- Where the threads are lively, a pass of the main loop feeds the hardware. -/
theorem Lively.healthy {s : State} (h : Lively s) (hcounting : Counting s)
    (hchannel : s.wdtChannel = true) : s.healthy = true := by
  have hworkq : s.wdtSeenRecently s.wdtWorkqAlive = true := by
    rw [hcounting.workqStamp]
    exact (seenRecently_iff hcounting.workq_le (by have := h.workq; omega)).mpr h.workq
  cases huart : s.cmdUart with
  | false => simp [State.healthy, hchannel, hworkq, huart]
  | true =>
    have hyoung := h.rx.young huart
    have hrx : s.wdtSeenRecently s.wdtRxAlive = true := by
      rw [hcounting.rxStamp]
      exact (seenRecently_iff hcounting.rx_le (by omega)).mpr hyoung
    simp [State.healthy, hchannel, hworkq, hrx]

theorem Lively.mainFeeds {s : State} (h : Lively s) (hcounting : Counting s) : Lively
    { s with looping := true, mainWakes := s.now + wakeMs, mainAt := s.now }.wdtFeedIfHealthy := by
  have hsame : ({ s with
      wdtWorkqPing := true, looping := true, mainWakes := s.now + wakeMs, mainAt := s.now } :
      State).healthy = s.healthy := rfl
  unfold State.wdtFeedIfHealthy
  dsimp only
  split
  · exact { h with
      early := nofun
      main := fun _ => ⟨Nat.le_add_right _ _, rfl⟩
      pinged := nofun
      fed := fun _ _ => rfl }
  · next hnot =>
    exact { h with
      early := nofun
      main := fun _ => ⟨Nat.le_add_right _ _, rfl⟩
      pinged := nofun
      fed := fun _ hchannel => absurd (hsame.trans (h.healthy hcounting hchannel)) hnot }

theorem Lively.act {s t : State} {e : Event} (h : Lively s) (hcounting : Counting s)
    (hprompt : Prompt s e) (hact : s.act e = some t) : Lively t := by
  cases e with
  | passes ms =>
    obtain rfl := Option.some.inj hact
    exact h.pass hprompt
  | uartInit ready =>
    obtain ⟨⟨hearly, -⟩, rfl⟩ := of_guard hact
    split
    · have hbringUp := (h.early hearly).1
      have hstarted := h.rxStarted
      exact { h with rx := ⟨Nat.le_refl _, by change s.now < s.rxAt + 4000; omega⟩ }
    · exact h
  | mainFeeds =>
    obtain ⟨-, rfl⟩ := of_guard hact
    exact h.mainFeeds hcounting
  | workqRuns =>
    obtain ⟨hping, rfl⟩ := of_guard hact
    refine { h with
      workq := ?_
      workqStarted := Nat.le_trans h.workqStarted hcounting.workq_le
      early := fun hearly => ?_
      pinged := fun _ _ => hcounting.main_le }
    · change s.now < s.now + 4000
      omega
    · rw [(h.early hearly).2.2] at hping
      cases hping
  | dtrPolled dtr =>
    unfold State.act at hact
    dsimp only at hact
    split at hact
    · obtain ⟨-, rfl⟩ := of_guard hact
      split
      · exact h.loopTop hcounting _ ⟨Nat.le_add_right _ _, Nat.le_refl _⟩
      · refine { h with
          rx := ⟨Nat.le_add_right _ _, ?_⟩
          rxStarted := Nat.le_trans h.rxStarted hcounting.rx_le }
        change s.now + 50 < s.now + 4000
        omega
    · cases hact
    · cases hact
  | rx e => exact h.rxStep hcounting hact

theorem lively_start (start : Nat) (installed : Bool) : Lively (.wdtStart start installed) where
  running := rfl
  rx := rfl
  workq := Nat.lt_add_of_pos_right (by decide)
  rxStarted := Nat.le_refl _
  workqStarted := Nat.le_refl _
  early := fun _ => ⟨Nat.lt_add_of_pos_right (by decide), rfl, rfl⟩
  main := nofun
  pinged := nofun
  fed := nofun

/-- While the threads are prompt, the hardware never resets the dongle, at whatever uptime: whatever
bytes the host sends, the command thread shows within 1080 ms of any read of its ring that it is
alive. -/
theorem prompt_never_reset {start : Nat} {installed : Bool} {s : State}
    (h : ReachableBy step Prompt (.wdtStart start installed) s) : s.reset = false ∧
      ∀ port deadline, s.rx = .reads port deadline → s.now ≤ s.rxAt + 1080 := by
  obtain ⟨-, hlively⟩ := h.invariant (P := fun t => Counting t ∧ Lively t)
    ⟨counting_start start installed, lively_start start installed⟩ fun _ _ _ ht he hstep =>
      ⟨ht.1.act (step_act hstep).2, ht.2.act ht.1 he (step_act hstep).2⟩
  refine ⟨hlively.running, fun port deadline hreads => ?_⟩
  have hrx := hlively.rx
  rw [RxLively, hreads] at hrx
  have hlimit : limitMs port.thread.reading ≤ 1080 := by
    cases port.thread.reading <;> exact of_decide_eq_true rfl
  omega

/-- A host that opens the port and sends the start of a frame and no more, just before the uptime
wraps. -/
def halfFrame : List Event :=
  [.uartInit true, .dtrPolled false, .passes 50, .dtrPolled true, .rx (.isr [1, 0]), .rx .read,
    .rx .read, .mainFeeds, .workqRuns, .passes 30, .rx .timeout, .passes 50, .rx .timeout,
    .passes 920, .mainFeeds, .workqRuns]

theorem prompt_never_reset_halfFrame : ∃ s,
    execute step (.wdtStart (4294967236) true) halfFrame = some s ∧ s.reset = false ∧
      ∀ port deadline, s.rx = .reads port deadline → s.now ≤ s.rxAt + 1080 :=
  ⟨_, rfl, prompt_never_reset (reachableBy_of_execute
    (show execute step (.wdtStart (4294967236) true) halfFrame = some _ from rfl) (by decide))⟩

end PiHub.DongleWatchdog

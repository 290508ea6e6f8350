import Mathlib.Algebra.Order.Ring.Rat
import Mathlib.Data.List.Chain
import Mathlib.Tactic.Linarith

/-! The loop watchdog (watchdog.py): when `_ticker` arms faulthandler's timer again, and when that
timer restarts the process. Times are the loop's, in seconds; the report files and the thread that logs
hold-ups are left out. -/
namespace PiHub.Watchdog

def tickS : ℚ := 1 / 2
def rearmEveryS : ℚ := 5
def restartAfterS : ℚ := 20

/-- `armedAt` is a variable of `_ticker`; at `exitsAt` faulthandler's thread exits the process. -/
structure LoopWatchdog where
  armedAt : ℚ
  exitsAt : ℚ
  deriving DecidableEq

/-- `_arm`, which replaces the timer there is. -/
def LoopWatchdog.arm (w : LoopWatchdog) (now : ℚ) : LoopWatchdog :=
  { w with exitsAt := now + restartAfterS }

/-- `start` arms it, and the first pass of `_ticker` finds it fresh. -/
def LoopWatchdog.start (now : ℚ) : LoopWatchdog := { armedAt := now, exitsAt := now + restartAfterS }

/-- A later pass of `_ticker`, after its `sleep(TICK_S)`. -/
def LoopWatchdog.tick (w : LoopWatchdog) (now : ℚ) : LoopWatchdog :=
  if rearmEveryS ≤ now - w.armedAt then { w.arm now with armedAt := now } else w

/-- When the process is restarted, if the loop lets `_ticker` run at these times. A restart that no
tick precedes any more shows at the last time, which need not be one of a tick. -/
def restartedAt (w : LoopWatchdog) : List ℚ → Option ℚ
  | [] => none
  | now :: times => if w.exitsAt ≤ now then some w.exitsAt else restartedAt (w.tick now) times

/-- Right after a tick: faulthandler was armed less than REARM_EVERY_S ago. -/
structure Fresh (w : LoopWatchdog) (now : ℚ) : Prop where
  armed : w.armedAt ≤ now
  exits : w.exitsAt = w.armedAt + restartAfterS
  young : now - w.armedAt < rearmEveryS

theorem fresh_start (now : ℚ) : Fresh (.start now) now :=
  ⟨le_rfl, rfl, by norm_num [LoopWatchdog.start, rearmEveryS]⟩

theorem Fresh.tick {w : LoopWatchdog} {now next : ℚ} (h : Fresh w now) (hnext : now ≤ next) :
    Fresh (w.tick next) next := by
  unfold LoopWatchdog.tick
  split
  · exact ⟨le_rfl, rfl, by norm_num [rearmEveryS]⟩
  · next hyoung => exact ⟨h.armed.trans hnext, h.exits, not_le.mp hyoung⟩

/-- What is left of RESTART_AFTER_S at a tick is more than a short gap takes. -/
theorem Fresh.outlasts {w : LoopWatchdog} {now next : ℚ} (h : Fresh w now)
    (hgap : next - now < restartAfterS - rearmEveryS) : next < w.exitsAt := by
  have hyoung := h.young
  rw [h.exits]
  linarith

/-- The timer runs out within a gap that is longer than RESTART_AFTER_S. -/
theorem Fresh.exits_le {w : LoopWatchdog} {now : ℚ} (h : Fresh w now) :
    w.exitsAt ≤ now + restartAfterS := by
  have harmed := h.armed
  rw [h.exits]
  linarith

/-- The times of ticks, with the sleep between them. -/
def Ticks (times : List ℚ) : Prop := times.IsChain fun now next => now + tickS ≤ next

theorem Ticks.le {times : List ℚ} (h : Ticks times) : times.IsChain (· ≤ ·) := by
  refine h.imp fun now next hnext => ?_
  have hpos : 0 < tickS := by norm_num [tickS]
  linarith

theorem not_restarted {w : LoopWatchdog} {now : ℚ} {times : List ℚ} (h : Fresh w now)
    (hticks : Ticks (now :: times))
    (hgaps : (now :: times).IsChain fun now next => next - now < restartAfterS - rearmEveryS) :
    restartedAt w times = none := by
  induction times generalizing w now with
  | nil => rfl
  | cons next times ih =>
    obtain ⟨hgap, hgaps⟩ := List.isChain_cons_cons.mp hgaps
    have hle := (List.isChain_cons_cons.mp hticks.le).1
    rw [restartedAt, if_neg (not_le.mpr (h.outlasts hgap))]
    exact ih (h.tick hle) hticks.tail hgaps

theorem restarted {w : LoopWatchdog} {now : ℚ} {times : List ℚ} (h : Fresh w now)
    (hticks : Ticks (now :: times)) {before after : List ℚ} {a b : ℚ}
    (hsplit : now :: times = before ++ a :: b :: after) (hstuck : restartAfterS < b - a) :
    ∃ r, restartedAt w times = some r ∧ r ≤ a + restartAfterS := by
  induction times generalizing w now before with
  | nil =>
    have hlength := congrArg List.length hsplit
    simp only [List.length_append, List.length_cons, List.length_nil] at hlength
    omega
  | cons next times ih =>
    have hle := (List.isChain_cons_cons.mp hticks.le).1
    have hexits := h.exits_le
    rw [restartedAt]
    cases before with
    | nil =>
      obtain ⟨rfl, htail⟩ := List.cons.inj hsplit
      obtain ⟨rfl, -⟩ := List.cons.inj htail
      rw [if_pos (by linarith)]
      exact ⟨_, rfl, hexits⟩
    | cons c before =>
      obtain ⟨rfl, htail⟩ := List.cons.inj hsplit
      split
      · -- an earlier gap was too long already
        have hmem : a ∈ next :: times := by rw [htail]; simp
        have hbefore : now ≤ a := hticks.le.rel_cons hmem
        exact ⟨_, rfl, by linarith⟩
      · exact ih (h.tick hle) hticks.tail htail

/-- Whatever the times of the ticks, the process is not restarted while the gaps between them stay
below RESTART_AFTER_S - REARM_EVERY_S, and it is restarted within the first gap that is longer than
RESTART_AFTER_S, if not before. -/
theorem restarted_when_stuck {start : ℚ} {times : List ℚ} (h : Ticks (start :: times)) :
    ((start :: times).IsChain (fun now next => next - now < restartAfterS - rearmEveryS) →
      restartedAt (.start start) times = none) ∧
    ∀ before a b after, start :: times = before ++ a :: b :: after → restartAfterS < b - a →
      ∃ r, restartedAt (.start start) times = some r ∧ r ≤ a + restartAfterS ∧ r < b := by
  refine ⟨not_restarted (fresh_start start) h, fun before a b after hsplit hstuck => ?_⟩
  obtain ⟨r, hr, hle⟩ := restarted (fresh_start start) h hsplit hstuck
  exact ⟨r, hr, hle, by linarith⟩

/-- Ticks 14 s apart, and then a loop that is stuck for 21 s. -/
theorem restarted_when_stuck_sample : restartedAt (.start 0) [14, 28] = none ∧
    ∃ r, restartedAt (.start 0) [14, 28, 49] = some r ∧ r ≤ 28 + restartAfterS ∧ r < 49 := by
  have hticks : Ticks [0, 14, 28, 49] := by norm_num [Ticks, tickS]
  have hshort : Ticks [0, 14, 28] := by norm_num [Ticks, tickS]
  refine ⟨(restarted_when_stuck hshort).1 ?_, (restarted_when_stuck hticks).2 [0, 14] 28 49 [] rfl ?_⟩
  · norm_num [restartAfterS, rearmEveryS]
  · norm_num [restartAfterS]

end PiHub.Watchdog

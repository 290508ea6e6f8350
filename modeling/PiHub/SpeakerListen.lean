import PiHub.SpeakerLink

/-! The Audio Pro's listen signals (audiopro_speaker.py, initial_status.py) over whole runs of its link:
one for each start of listening after the first reading has settled. -/
namespace PiHub.SpeakerListen
open PiHub.Transition PiHub.PacketStream PiHub.SpeakerLink
open PiHub.SoftMute (Speaker PyJson statusOf)

/-- What happens to the link tells nobody anything. -/
theorem Change.quiet {b c : Speaker} {fails : Bool} (h : Change b fails c) :
    c.signals = b.signals ∧ c.state.listening = b.state.listening := by
  cases h <;> exact ⟨rfl, rfl⟩

theorem Change.settled {b c : Speaker} {fails : Bool} (h : Change b fails c)
    (hsettled : c.initial.settled = true) : b.initial.settled = true ∨ fails = true := by
  cases h with
  | fails => exact Or.inr rfl
  | same | lastError | begins | connected | disconnects | failsLink => exact Or.inl hsettled

/-- A step tells of a start of listening, and of nothing else. -/
theorem signals_step {py : PyJson} {s t : AudioProSpeaker} {e : Event} (h : step py s e = some t) :
    t.speaker.signals = s.speaker.signals ++ if starts s.speaker t.speaker then
      [{ source := t.speaker.state.source, playbackStatus := t.speaker.state.playbackStatus }]
    else [] := by
  obtain ⟨payload, _, hhandles⟩ | ⟨_, hmoves⟩ := step_cases h
  · rw [hhandles.speaker]
    exact (heard_onPayload py s.speaker payload).signals
  · obtain ⟨fails, hchange, _⟩ := hmoves.changes
    obtain ⟨hsignals, hlistening⟩ := Change.quiet hchange
    rw [hsignals, starts_same hlistening, if_neg Bool.false_ne_true, List.append_nil]

theorem signals_length_step {py : PyJson} (s : AudioProSpeaker) (e : Event) (t : AudioProSpeaker)
    (h : step py s e = some t) :
    t.speaker.signals.length = s.speaker.signals.length + (starts s.speaker t.speaker).toNat := by
  rw [signals_step h, List.length_append]
  cases starts s.speaker t.speaker <;> rfl

/-- Nothing settles the first reading but a full status or a failure of the runner. -/
def Settled (s : AudioProSpeaker) : Prop :=
  s.speaker.initial.settled = true → s.hasRead = true ∨ s.hasFailed = true

theorem settled_step {py : PyJson} {s t : AudioProSpeaker} {e : Event} (h : Settled s)
    (hstep : step py s e = some t) : Settled t := by
  intro hsettled
  obtain ⟨payload, _, hhandles⟩ | ⟨_, hmoves⟩ := step_cases hstep
  · have hheard := heard_onPayload py s.speaker payload
    rw [hhandles.hasRead, hhandles.hasFailed]
    rw [hhandles.speaker, hheard.initial] at hsettled
    cases hstatus : (statusOf py payload).isSome with
    | true => exact Or.inl (Bool.or_true _)
    | false =>
      rw [hstatus] at hsettled
      exact (h hsettled).imp_left fun hread => by rw [hread, Bool.true_or]
  · obtain ⟨fails, hchange, hfailed⟩ := hmoves.changes
    rw [hmoves.hasRead, hfailed]
    obtain hbefore | hfails := Change.settled hchange hsettled
    · exact (h hbefore).imp_right fun hfailed => by rw [hfailed, Bool.true_or]
    · exact Or.inr (by rw [hfails, Bool.or_true])

/-- The number of listen signals is that of the starts of listening after the first reading has
settled; the first full status of a start-up that has not failed yet sends none, and neither does a
message that changes neither source nor playback. -/
theorem one_signal_per_start {py : PyJson} {s : AudioProSpeaker} {es : List Event}
    (h : execute (step py) {} es = some s) :
    s.speaker.signals.length =
      count (step py) (fun a b => !a.speaker.state.listening && b.speaker.state.listening &&
        a.speaker.initial.settled) {} es ∧
    ∀ e payload t, handled s e = some payload → step py s e = some t →
      ((statusOf py payload).isSome = true → s.hasRead = false → s.hasFailed = false →
        t.speaker.signals = s.speaker.signals) ∧
      (t.speaker.state.source = s.speaker.state.source →
        t.speaker.state.playbackStatus = s.speaker.state.playbackStatus →
        t.speaker.signals = s.speaker.signals) := by
  have hcount := count_of_step (m := fun s => s.speaker.signals.length)
    (p := fun a b => starts a.speaker b.speaker) signals_length_step h
  rw [show ({} : AudioProSpeaker).speaker.signals.length = 0 from rfl, Nat.zero_add] at hcount
  have hsettled : Settled s := (reachable_of_execute h).invariant (fun hfalse => by cases hfalse)
    fun _ _ _ ht _ hstep => settled_step ht hstep
  refine ⟨hcount, fun e payload t _ hstep => ⟨fun _ hread hfailed => ?_, fun hsource hstatus => ?_⟩⟩
  · have hunsettled : s.speaker.initial.settled = false := by
      by_contra hnot
      obtain hyes | hyes := hsettled (by simpa using hnot)
      · exact Bool.false_ne_true (hread.symm.trans hyes)
      · exact Bool.false_ne_true (hfailed.symm.trans hyes)
    rw [signals_step hstep, starts, hunsettled, Bool.and_false, if_neg Bool.false_ne_true,
      List.append_nil]
  · have hlistening : t.speaker.state.listening = s.speaker.state.listening := by
      unfold SoftMute.SpeakerState.listening
      rw [hsource, hstatus]
    rw [signals_step hstep, starts_same hlistening, if_neg Bool.false_ne_true, List.append_nil]

def playingJson : String := "\x7b\"mode\":\"10\",\"status\":\"play\"\x7d"

def playingPy : PyJson where
  loads raw := if raw = playingJson then some [("mode", .str "10"), ("status", .str "play")] else none
  repr _ := ""

def playingPayload : Payload :=
  ⟨"AXX+PLY+INF" ++ playingJson ++ "&", by decide +kernel, by decide +kernel, by decide +kernel⟩

/-- The speaker is there at the second attempt, and plays from the network. -/
def connectsLate : List Event :=
  [.starts, .connectFails "connect timeout after 3.0s", .closed, .pauseEnds, .opens, .wakes, .goesOn,
    .receives (mkPacket playingPayload.text)]

theorem one_signal_per_start_late : ∃ s,
    execute (step playingPy) {} (connectsLate ++ [.wakes, .goesOn, .goesOn]) = some s ∧
      s.speaker.signals = [{ source := "wifi", playbackStatus := "play" }] ∧
      count (step playingPy) (fun a b => !a.speaker.state.listening && b.speaker.state.listening &&
        a.speaker.initial.settled) {} (connectsLate ++ [.wakes, .goesOn, .goesOn]) = 1 := by
  have hconnects : execute (step playingPy) {} connectsLate = some _ := rfl
  obtain ⟨s, hs, hspeaker⟩ := reads_packet playingPy (p := playingPayload)
    (s := (execute (step playingPy) {} connectsLate).get rfl) rfl rfl (by decide +kernel)
  have hruns : execute (step playingPy) {} (connectsLate ++ [.wakes, .goesOn, .goesOn]) = some s := by
    rw [execute_append, hconnects, Option.bind_some]
    exact hs
  have hsignals : s.speaker.signals = [{ source := "wifi", playbackStatus := "play" }] := by
    rw [hspeaker]
    decide +kernel
  refine ⟨s, hruns, hsignals, ?_⟩
  rw [← (one_signal_per_start hruns).1, hsignals]
  rfl

end PiHub.SpeakerListen

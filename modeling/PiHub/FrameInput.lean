import PiHub.FrameCommands

/-! `set_input_hdmi1` of the Frame TV: it switches the input only after it has read another one. -/
namespace PiHub.FrameInput
open PiHub.Coroutines PiHub.Keymap PiHub.FrameCommands

/-- It sets the input source. -/
def switchCommand : Entry → Bool
  | .sent (.inputSourceControl (some _)) _ => true
  | _ => false

def sourceOf : Entry → Option (Option String)
  | .sourceRead value => some value
  | _ => none

/-- The last successful read, `start` where there is none. -/
def lastSource (start : Option String) (tr : List Entry) : Option String :=
  (tr.filterMap sourceOf).getLast?.getD start

/-- Immediately before each command its attempt has read a source that is not HDMI1. -/
def OnlyNeeded (tr : List Entry) : Prop :=
  ∀ before command after, tr = before ++ command :: after → switchCommand command = true →
    ∃ earlier n started value, before = earlier ++
      [.attempt n, .sent (.inputSourceControl none) started, .sourceRead value] ∧
      value ≠ some "HDMI1"

def EndsOnHdmi1 (tr : List Entry) : Prop := ∃ earlier, tr = earlier ++ [.sourceRead (some "HDMI1")]

/-- `set_input_hdmi1` as it should be, where `_input_source` was `start`. -/
structure Switched (start : Option String) (o : Option (Except Exc Bool)) (t : Backend)
    (tr : List Entry) : Prop where
  inputSource : t.inputSource = lastSource start tr
  onlyNeeded : OnlyNeeded tr
  commands : tr.countP switchCommand ≤ commandRetries
  returned : ∀ ok, o = some (.ok ok) → (ok = true ↔ EndsOnHdmi1 tr)
  noException : ∀ e, o ≠ some (.error e)

section
variable {start : Option String} {left : Nat} {b t : Backend} {tr : List Entry} {entry : Entry}

theorem lastSource_concat : lastSource start (tr ++ [entry]) =
    (sourceOf entry).getD (lastSource start tr) := by
  unfold lastSource
  rw [List.filterMap_append]
  cases h : sourceOf entry with
  | none => simp [h]
  | some value => simp [h]

theorem OnlyNeeded.concat (h : OnlyNeeded tr) (hentry : switchCommand entry = true →
    ∃ earlier n started value, tr = earlier ++
      [.attempt n, .sent (.inputSourceControl none) started, .sourceRead value] ∧
      value ≠ some "HDMI1") : OnlyNeeded (tr ++ [entry]) := by
  intro before command after hsplit hcommand
  obtain ⟨rfl, rfl, -⟩ | ⟨rest, rfl, -⟩ := split_concat hsplit
  · exact hentry hcommand
  · exact h before command rest rfl hcommand

theorem endsOnHdmi1_concat : EndsOnHdmi1 (tr ++ [entry]) ↔ entry = .sourceRead (some "HDMI1") := by
  constructor
  · rintro ⟨earlier, heq⟩
    exact (List.append_singleton_inj.mp heq).2
  · rintro rfl
    exact ⟨tr, rfl⟩

/-- Between its commands the call holds the last source it has read, which is not HDMI1, and has
`left` commands left. -/
structure Looking (start : Option String) (left : Nat) (b : Backend) (tr : List Entry) : Prop where
  inputSource : b.inputSource = lastSource start tr
  onlyNeeded : OnlyNeeded tr
  commands : tr.countP switchCommand + left ≤ commandRetries
  looking : ¬ EndsOnHdmi1 tr

theorem Looking.skip (h : Looking start (left + 1) b tr) : Looking start left b tr :=
  ⟨h.inputSource, h.onlyNeeded, by have := h.commands; omega, h.looking⟩

theorem Looking.same (h : Looking start left b tr) (hsame : t.inputSource = b.inputSource) :
    Looking start left t tr :=
  ⟨hsame.trans h.inputSource, h.onlyNeeded, h.commands, h.looking⟩

/-- An entry that is no command and no read. -/
theorem Looking.concat (h : Looking start left b tr) (hsame : t.inputSource = b.inputSource)
    (hcommand : switchCommand entry = false) (hread : sourceOf entry = none) :
    Looking start left t (tr ++ [entry]) := by
  refine ⟨?_, h.onlyNeeded.concat ?_, ?_, ?_⟩
  · rw [hsame, h.inputSource, lastSource_concat, hread, Option.getD_none]
  · simp [hcommand]
  · simpa [List.countP_append, hcommand] using h.commands
  · rw [endsOnHdmi1_concat]
    rintro rfl
    exact nomatch hread

/-- A read of another source, which is kept. -/
theorem Looking.read {value : Option String} (h : Looking start left b tr)
    (hvalue : value ≠ some "HDMI1") :
    Looking start left { t with inputSource := value } (tr ++ [.sourceRead value]) := by
  refine ⟨?_, h.onlyNeeded.concat nofun, ?_, ?_⟩
  · rw [lastSource_concat]
    rfl
  · simpa [List.countP_append, switchCommand] using h.commands
  · rw [endsOnHdmi1_concat]
    exact fun heq => hvalue (Entry.sourceRead.inj heq)

theorem Looking.switched {o : Option (Except Exc Bool)} (h : Looking start left b tr)
    (ho : o = none ∨ o = some (.ok false)) : Switched start o b tr := by
  refine ⟨h.inputSource, h.onlyNeeded, by have := h.commands; omega, ?_, ?_⟩
  · rintro ok rfl
    have hfalse : ok = false := by simpa using ho
    rw [hfalse]
    exact iff_of_false Bool.false_ne_true h.looking
  · rintro e rfl
    simp at ho

/-- A read of HDMI1 ends the call. -/
theorem Looking.found (h : Looking start left b tr) :
    Switched start (some (.ok true)) { t with inputSource := some "HDMI1" }
      (tr ++ [.sourceRead (some "HDMI1")]) := by
  refine ⟨?_, h.onlyNeeded.concat nofun, ?_, ?_, nofun⟩
  · rw [lastSource_concat]
    rfl
  · have hcommands := h.commands
    rw [List.countP_append]
    show _ + 0 ≤ _
    omega
  · intro ok hok
    exact iff_of_true (by simpa using hok.symm) ⟨tr, rfl⟩

/-- A command right after the read that shows it is needed takes one of those that are left. -/
theorem Looking.command {n started time : Nat} {value : Option String} {request : String}
    {earlier : List Entry} (h : Looking start (left + 1) b tr)
    (htr : tr = earlier ++
      [.attempt n, .sent (.inputSourceControl none) started, .sourceRead value])
    (hvalue : value ≠ some "HDMI1") (hsame : t.inputSource = b.inputSource) :
    Looking start left t (tr ++ [.sent (.inputSourceControl (some request)) time]) := by
  refine ⟨?_, h.onlyNeeded.concat fun _ => ⟨earlier, n, started, value, htr, hvalue⟩, ?_, ?_⟩
  · rw [hsame, h.inputSource, lastSource_concat]
    rfl
  · have hcommands := h.commands
    rw [List.countP_append]
    show _ + 1 + left ≤ _
    omega
  · rw [endsOnHdmi1_concat]
    exact nofun

/-- What a read of the source leaves: the call goes on looking, or it has found HDMI1. -/
structure Found (start : Option String) (left : Nat) (b : Backend) (tr : List Entry)
    (o : Option (Except Exc (Option String))) (t : Backend) (tr' : List Entry) : Prop where
  unread : (∀ value, o ≠ some (.ok value)) → Looking start left t tr'
  other : ∀ value, o = some (.ok value) → value ≠ some "HDMI1" → Looking start left t tr' ∧
    tr' = tr ++ [.sent (.inputSourceControl none) b.now, .sourceRead value]
  found : o = some (.ok (some "HDMI1")) → Switched start (some (.ok true)) t tr'

theorem meets_readInputSource (h : Looking start left b tr) :
    Meets readInputSource b tr (Found start left b tr) := by
  have hunread (o : Option (Except Exc (Option String))) (t : Backend) (tr' : List Entry)
      (hread : Reads (.inputSourceControl none) .sourceRead b tr o t tr')
      (ho : ∀ value, o ≠ some (.ok value)) : Looking start left t tr' := by
    rcases hread.unread ho with rfl | rfl
    · exact h.same hread.inputSource
    · exact h.concat hread.inputSource rfl rfl
  refine (meets_readString (.inputSourceControl none) "inputSource" .sourceRead b tr).bind ?_ ?_ ?_
  · exact fun t tr' hread => ⟨fun _ => hunread _ t tr' hread nofun, nofun, nofun⟩
  · exact fun e t tr' hread => ⟨fun _ => hunread _ t tr' hread nofun, nofun, nofun⟩
  · intro value t tr' hread
    have hsent : Looking start left t (tr ++ [.sent (.inputSourceControl none) b.now]) :=
      h.concat hread.inputSource rfl rfl
    have htr : tr' = tr ++ [.sent (.inputSourceControl none) b.now] ++ [.sourceRead value] := by
      rw [hread.read value rfl, List.append_assoc]
      rfl
    refine meets_update_bind (meets_pure ⟨fun hne => absurd rfl (hne value), ?_, ?_⟩)
    · intro v hv hother
      obtain rfl := Except.ok.inj (Option.some.inj hv)
      exact ⟨htr ▸ hsent.read hother, hread.read value rfl⟩
    · intro hv
      obtain rfl := Except.ok.inj (Option.some.inj hv)
      exact htr ▸ hsent.found

/-- One attempt: it finds HDMI1, or has sent at most one command, after it read another source. -/
theorem meets_inputAttempt {n : Nat} (h : Looking start (left + 1) b tr) :
    Meets inputAttempt b (tr ++ [.attempt n]) (Attempted (Switched start) (Looking start left)) := by
  refine (meets_readInputSource (h.concat rfl rfl rfl)).bind ?_ ?_ ?_
  · exact fun t tr' hread => (hread.unread nofun).switched (Or.inl rfl)
  · exact fun e t tr' hread => (hread.unread nofun).skip
  intro value t tr' hread
  by_cases hvalue : value = some "HDMI1"
  · subst hvalue
    exact meets_pure (hread.found rfl)
  rw [if_neg hvalue]
  obtain ⟨hlooking, htr⟩ := hread.other value rfl hvalue
  have hsent (u : Backend) (hsame : u.inputSource = t.inputSource) : Looking start left u
      (tr' ++ [.sent (.inputSourceControl (some "HDMI1")) t.now]) := by
    rw [List.append_assoc] at htr
    exact hlooking.command htr hvalue hsame
  refine (meets_rpcField (.inputSourceControl (some "HDMI1")) "inputSource" t tr').bind ?_ ?_ ?_
  · intro u tr'' hcalled
    rw [hcalled.sent nofun]
    exact (hsent u hcalled.inputSource).switched (Or.inl rfl)
  · rintro e u tr'' ⟨hsame, -, rfl | ⟨rfl, -⟩⟩
    · exact hsent u hsame
    · exact hlooking.skip.same hsame
  · intro ack u tr'' hcalled
    rw [hcalled.sent nofun]
    refine meets_emit_bind ?_
    have hacked : Looking start left u (_ ++ [.acked ack]) :=
      (hsent u hcalled.inputSource).concat rfl rfl rfl
    split
    · refine meets_sleep_bind (hacked.switched (Or.inl rfl)) fun r => ?_
      have hslept : Looking start left (u.resumed (verifyDelay + r.took) r) (_ ++ [.acked ack]) :=
        hacked.same rfl
      refine (meets_readInputSource hslept).bind ?_ ?_ ?_
      · exact fun v tr hread => (hread.unread nofun).switched (Or.inl rfl)
      · exact fun e v tr hread => hread.unread nofun
      · intro actual v tr hread
        by_cases hactual : actual = some "HDMI1"
        · subst hactual
          exact meets_pure (hread.found rfl)
        · rw [if_neg hactual]
          exact meets_raise (hread.other actual rfl hactual).1
    · exact meets_raise hacked

theorem meets_setInputHdmi1 (b : Backend) :
    Meets setInputHdmi1 b [] (Switched b.inputSource) := by
  have hnil (t : Backend) (h : t.inputSource = b.inputSource) :
      Looking b.inputSource commandRetries t [] := by
    refine ⟨h, ?_, Nat.le_refl _, ?_⟩
    · intro before command after heq
      simp at heq
    · rintro ⟨earlier, heq⟩
      simp at heq
  have htoken (t : Backend) (tr : List Entry) (h : t.inputSource = b.inputSource)
      (htr : tr = [] ∨ tr = [] ++ [.sent .createAccessToken b.now]) :
      Looking b.inputSource commandRetries t tr := by
    rcases htr with rfl | rfl
    · exact hnil t h
    · exact (hnil t h).concat rfl rfl rfl
  refine (meets_ensureToken b []).bind ?_ ?_ ?_
  · exact fun t tr h => (htoken t tr h.1 h.2.1).switched (Or.inl rfl)
  · exact fun e t tr h => absurd rfl (h.2.2 e)
  · intro held t tr h
    cases held with
    | false => exact meets_pure ((htoken t tr h.1 h.2.1).switched (Or.inr rfl))
    | true =>
      refine meets_retry (I := Looking b.inputSource) ?_ ?_ ?_ ?_ attempts none t tr ?_
      · exact fun left b tr h => h.switched (Or.inl rfl)
      · exact fun left b tr error h => (h.same (t := b.setLastError error) rfl).switched (Or.inr rfl)
      · exact fun left b tr ms r h => h.same rfl
      · exact fun n left b tr h => meets_inputAttempt h
      · exact htoken t tr h.1 h.2.1

/-- An attempt makes two reads, one command and a sleep. -/
theorem endsBy_inputAttempt (b : Backend) : EndsBy 4 inputAttempt b := by
  have hread (b : Backend) : EndsBy 1 readInputSource b :=
    (endsBy_readString _ _ _).bind_forall (n := 0) fun _ _ => endsBy_update_bind (endsBy_pure _)
  refine (hread b).bind_forall (n := 3) fun source t => ?_
  split
  · exact (endsBy_pure true).mono (Nat.zero_le _)
  · refine (endsBy_rpcField _ _).bind_forall (n := 2) fun ack t => endsBy_emit_bind ?_
    split
    · refine endsBy_sleep_bind fun r => (hread _).bind_forall (n := 0) fun actual t => ?_
      split
      · exact endsBy_pure true
      · exact endsBy_raise _
    · exact (endsBy_raise _).mono (Nat.zero_le _)

theorem endsBy_setInputHdmi1 (b : Backend) : EndsBy 16 setInputHdmi1 b := by
  refine endsBy_ensureToken.bind_forall (n := 15) fun held t => ?_
  cases held with
  | false => exact (endsBy_pure false).mono (Nat.zero_le _)
  | true =>
    exact endsBy_retry (P := fun _ => True) (fun _ _ _ _ => trivial) (fun _ _ _ _ _ => trivial)
      (fun b _ => endsBy_inputAttempt b) attempts none trivial

end

/-- Wherever the call is, `_input_source` is the last source read, and the switch has been sent at
most three times, each time right after another source was read; the result is whether the last read
was HDMI1 and ended the call. Given enough replies the call returns. -/
theorem input_switched (b : Backend) (rs : List Reply) :
    Switched b.inputSource (setInputHdmi1 b rs).outcome (setInputHdmi1 b rs).state
        (setInputHdmi1 b rs).trace ∧
      (16 ≤ rs.length → ∃ ok, (setInputHdmi1 b rs).outcome = some (.ok ok)) := by
  have hswitched : Switched b.inputSource (setInputHdmi1 b rs).outcome (setInputHdmi1 b rs).state
      (setInputHdmi1 b rs).trace := meets_setInputHdmi1 b rs
  exact ⟨hswitched, fun hlen =>
    exists_returned (endsBy_setInputHdmi1 b rs hlen).1 hswitched.noException⟩

/-- Another source is read, the switch is acknowledged, and HDMI1 is read back. -/
def switched : List Reply :=
  [{ answer := .json (.obj [("result", .obj [("inputSource", .str "HDMI2")])]) },
    { answer := .json (.obj [("result", .obj [("inputSource", .str "HDMI1")])]) }, {},
    { answer := .json (.obj [("result", .obj [("inputSource", .str "HDMI1")])]) }]

theorem input_switched_once : (setInputHdmi1 {} switched).outcome = some (.ok true) ∧
    (setInputHdmi1 {} switched).trace.countP switchCommand = 1 ∧
    EndsOnHdmi1 (setInputHdmi1 {} switched).trace ∧
    (setInputHdmi1 {} switched).state.inputSource = some "HDMI1" := by
  have hswitched := (input_switched {} switched).1
  exact ⟨rfl, rfl, (hswitched.returned true rfl).mp rfl, hswitched.inputSource.trans rfl⟩

end PiHub.FrameInput

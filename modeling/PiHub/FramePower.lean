import PiHub.FrameCommands

/-! `power_on` and `power_off` of the Frame TV: the command is acknowledged at most once, and the
result is what has been read back since. -/
namespace PiHub.FramePower
open PiHub.Coroutines PiHub.Keymap PiHub.PyStr PiHub.FrameCommands
open PiHub.FrameTv (SamsungFrameTv)

/-- It sets the power. -/
def powerCommand : Entry → Bool
  | .sent (.powerControl (some _)) _ => true
  | _ => false

/-- No command follows an acknowledgement of the target. -/
def NotResent (target : String) (tr : List Entry) : Prop :=
  ∀ before after, tr = before ++ .acked (.str target) :: after →
    ∀ entry ∈ after, powerCommand entry = false

/-- A read-back that started after an acknowledgement of the target and before the deadline has
found it. -/
def ReadBack (target : String) (tr : List Entry) : Prop :=
  ∃ deadline before between started after,
    tr = before ++ .acked (.str target) :: between ++
      .sent (.powerControl none) started :: .powerRead (some target) :: after ∧
    .deadline deadline ∈ before ∧ started < deadline

/-- `power_on` and `power_off` as they should be, for their target and the presence it stands for. -/
structure Verified (target : String) (on : Bool) (o : Option (Except Exc Bool)) (t : Backend)
    (tr : List Entry) : Prop where
  commands : tr.countP powerCommand ≤ commandRetries
  notResent : NotResent target tr
  returned : ∀ ok, o = some (.ok ok) → (ok = true ↔ ReadBack target tr)
  presence : o = some (.ok true) → t.tv.presenceCached = some on
  noException : ∀ e, o ≠ some (.error e)

/-- To commit the target is to commit the presence. -/
def Means (target : String) (on : Bool) : Prop :=
  ∀ (tv : SamsungFrameTv) (source : String),
    (tv.commitPower (some target) source).presenceCached = some on

theorem commitPower_presence (tv : SamsungFrameTv) (power : Option String) (source : String) :
    (tv.commitPower power source).presenceCached = tv.nextOn (power.bind stripped) := by
  unfold SamsungFrameTv.commitPower
  dsimp only
  split
  · assumption
  · rfl

theorem means_powerOn : Means "powerOn" true := by
  intro tv source
  have hstripped : stripped "powerOn" = some "powerOn" := by decide
  rw [commitPower_presence, Option.bind_some, hstripped]
  rfl

theorem means_powerOff : Means "powerOff" false := by
  intro tv source
  have hstripped : stripped "powerOff" = some "powerOff" := by decide
  rw [commitPower_presence, Option.bind_some, hstripped]
  rfl

theorem NotResent.concat {target : String} {tr : List Entry} {entry : Entry}
    (h : NotResent target tr) (hentry : powerCommand entry = true → .acked (.str target) ∉ tr) :
    NotResent target (tr ++ [entry]) := by
  intro before after hsplit x hx
  obtain ⟨-, -, rfl⟩ | ⟨rest, rfl, rfl⟩ := split_concat hsplit
  · exact absurd hx List.not_mem_nil
  · rcases List.mem_append.mp hx with hrest | hlast
    · exact h before rest rfl x hrest
    · obtain rfl := List.mem_singleton.mp hlast
      by_contra hcommand
      exact hentry (by simpa using hcommand) (by simp)

/-- Entries of the polling, in which the target has not been read. -/
def Quiet (target : String) (polls : List Entry) : Prop :=
  ∀ entry ∈ polls, powerCommand entry = false ∧ entry ≠ .powerRead (some target)

theorem NotResent.append {target : String} {tr polls : List Entry} (h : NotResent target tr)
    (hpolls : ∀ entry ∈ polls, powerCommand entry = false) : NotResent target (tr ++ polls) := by
  induction polls generalizing tr with
  | nil => rwa [List.append_nil]
  | cons entry polls ih =>
    rw [List.append_cons]
    refine ih (h.concat fun hcommand => ?_) fun x hx => hpolls x (List.mem_cons_of_mem _ hx)
    rw [hpolls entry List.mem_cons_self] at hcommand
    exact absurd hcommand Bool.false_ne_true

/-- What one turn leaves: the power it has returned is the one it has read and committed. -/
structure Polled (source : String) (b : Backend) (tr : List Entry)
    (o : Option (Except Exc (Option String))) (t : Backend) (tr' : List Entry) : Prop where
  now : b.now ≤ t.now
  read : ∀ power, o = some (.ok power) → (∃ tv, t.tv = SamsungFrameTv.commitPower tv power source) ∧
    tr' = tr ++ [.sent (.powerControl none) b.now, .powerRead power]
  unread : (∀ power, o ≠ some (.ok power)) → tr' = tr ∨ tr' = tr ++ [.sent (.powerControl none) b.now]

theorem meets_pollPower (source : String) (b : Backend) (tr : List Entry) :
    Meets (pollPower source) b tr (Polled source b tr) := by
  refine (meets_readString (.powerControl none) "power" .powerRead b tr).bind ?_ ?_ ?_
  · exact fun t tr' h => ⟨h.now, nofun, h.unread⟩
  · exact fun e t tr' h => ⟨h.now, nofun, fun _ => h.unread nofun⟩
  · intro power t tr' h
    refine meets_update_bind (meets_pure ⟨h.now, ?_, fun hne => absurd rfl (hne _)⟩)
    intro p hp
    obtain rfl := Except.ok.inj (Option.some.inj hp)
    exact ⟨⟨t.tv, rfl⟩, h.read power rfl⟩

/-- What the polling leaves: a read-back of the target before the deadline, the last entry, or none. -/
structure Waited (target : String) (on : Bool) (deadline start : Nat) (tr : List Entry)
    (o : Option (Except Exc Bool)) (t : Backend) (tr' : List Entry) : Prop where
  now : start ≤ t.now
  verified : o = some (.ok true) → t.tv.presenceCached = some on ∧
    ∃ polls started, started < deadline ∧ Quiet target polls ∧
      tr' = tr ++ polls ++ [.sent (.powerControl none) started, .powerRead (some target)]
  unverified : o ≠ some (.ok true) → ∃ polls, Quiet target polls ∧ tr' = tr ++ polls
  noException : ∀ e, o ≠ some (.error e)

section
variable {target source : String} {on : Bool} {deadline start : Nat}

theorem Quiet.append {polls more : List Entry} (h : Quiet target polls) (hmore : Quiet target more) :
    Quiet target (polls ++ more) :=
  fun entry hentry => (List.mem_append.mp hentry).elim (h entry) (hmore entry)

theorem quiet_sent (time : Nat) : Quiet target [.sent (.powerControl none) time] := by
  intro entry hentry
  obtain rfl := List.mem_singleton.mp hentry
  exact ⟨rfl, nofun⟩

theorem quiet_read {power : Option String} (h : power ≠ some target) (time : Nat) :
    Quiet target [.sent (.powerControl none) time, .powerRead power] := by
  have hread : Quiet target [.powerRead power] := by
    intro entry hentry
    obtain rfl := List.mem_singleton.mp hentry
    exact ⟨rfl, fun heq => h (Entry.powerRead.inj heq)⟩
  exact (quiet_sent time).append hread

/-- While it polls, and when it gives up, the target has not been read. -/
theorem Waited.of_quiet {tr polls : List Entry} {o : Option (Except Exc Bool)} {t : Backend}
    (ho : o = none ∨ o = some (.ok false)) (hnow : start ≤ t.now) (hpolls : Quiet target polls) :
    Waited target on deadline start tr o t (tr ++ polls) := by
  have htrue : o ≠ some (.ok true) := by
    rcases ho with rfl | rfl
    · exact nofun
    · simp
  refine ⟨hnow, fun heq => absurd heq htrue, fun _ => ⟨polls, hpolls, rfl⟩, fun e he => ?_⟩
  rcases ho with rfl | rfl
  · exact nomatch he
  · exact nomatch Option.some.inj he

theorem meets_waitLoop {b : Backend} (hon : Means target on) (turns : Nat)
    (lastPower : Option String) (lastError : Option Exc) (tr polls : List Entry) (hstart : start ≤ b.now)
    (hpolls : Quiet target polls) :
    Meets (waitLoop target source deadline turns lastPower lastError) b (tr ++ polls)
      (Waited target on deadline start tr) := by
  induction turns generalizing lastPower lastError b polls with
  | zero => exact meets_update_bind (meets_pure (.of_quiet (Or.inr rfl) hstart hpolls))
  | succ turns ih =>
    -- after a turn that has not read the target the loop sleeps and goes on
    have hnext (b : Backend) (hstart : start ≤ b.now) (lastPower : Option String)
        (lastError : Option Exc) (more : List Entry) (hmore : Quiet target more) :
        Meets (do sleep verifyPollInterval; waitLoop target source deadline turns lastPower lastError)
          b (tr ++ polls ++ more) (Waited target on deadline start tr) := by
      rw [List.append_assoc]
      have hquiet := hpolls.append hmore
      refine meets_sleep_bind (.of_quiet (Or.inl rfl) hstart hquiet) fun r => ?_
      exact ih _ _ _ (hstart.trans (Nat.le_add_right _ _)) hquiet
    refine meets_current_bind ?_
    by_cases htime : b.now < deadline
    · rw [if_pos htime]
      refine (meets_pollPower source b (tr ++ polls)).attempt_bind ?_ ?_
      · intro t tr' h
        have hlater := hstart.trans h.now
        rcases h.unread nofun with rfl | rfl
        · exact .of_quiet (Or.inl rfl) hlater hpolls
        · rw [List.append_assoc]
          exact .of_quiet (Or.inl rfl) hlater (hpolls.append (quiet_sent _))
      · intro x t tr' h
        have hlater := hstart.trans h.now
        cases x with
        | error e =>
          rcases h.unread nofun with rfl | rfl
          · simpa using hnext t hlater lastPower (some e) [] nofun
          · exact hnext t hlater lastPower (some e) _ (quiet_sent _)
        | ok power =>
          obtain ⟨⟨tv, htv⟩, rfl⟩ := h.read power rfl
          show Meets (if power = some target then _ else _) t _ _
          by_cases hpower : power = some target
          · subst hpower
            rw [if_pos rfl]
            refine meets_update_bind (meets_pure ⟨hlater, fun _ => ⟨?_, ?_⟩, by simp, nofun⟩)
            · show t.tv.presenceCached = some on
              rw [htv, hon]
            · exact ⟨polls, b.now, htime, hpolls, rfl⟩
          · rw [if_neg hpower]
            exact hnext t hlater power lastError _ (quiet_read hpower _)
    · rw [if_neg htime]
      exact meets_update_bind (meets_pure (.of_quiet (Or.inr rfl) hstart hpolls))

/-- The turns do not run out: more of them than are left to the deadline change nothing. -/
theorem waitLoop_turns {b : Backend} (turns : Nat) (lastPower : Option String)
    (lastError : Option Exc) (rs : List Reply) (hturns : deadline ≤ b.now + turns) :
    waitLoop target source deadline turns lastPower lastError b rs =
      waitLoop target source deadline (turns + 1) lastPower lastError b rs := by
  induction turns generalizing lastPower lastError b rs with
  | zero =>
    have hexpired : ¬ b.now < deadline := Nat.not_lt.mpr hturns
    conv_rhs => rw [waitLoop, current_bind, if_neg hexpired]
    rfl
  | succ turns ih =>
    conv_lhs => rw [waitLoop, current_bind]
    conv_rhs => rw [waitLoop, current_bind]
    split
    · refine attempt_bind_congr (P := fun t => b.now ≤ t.now) ?_ fun x t rest ht => ?_
      · exact (meets_pollPower source b [] rs).now
      have hleft (r : Reply) : deadline ≤ (t.resumed (verifyPollInterval + r.took) r).now + turns := by
        show deadline ≤ t.now + (500 + r.took) + turns
        omega
      cases x with
      | error e => exact sleep_bind_congr fun r rest => ih lastPower (some e) rest (hleft r)
      | ok power =>
        by_cases hpower : power = some target
        · simp only [hpower, if_true]
        · simp only [hpower, if_false]
          exact sleep_bind_congr fun r rest => ih power lastError rest (hleft r)
    · rfl

theorem meets_waitForPowerState (hon : Means target on) (b : Backend) (tr : List Entry) :
    Meets (waitForPowerState target source deadline) b tr (Waited target on deadline b.now tr) := by
  have hnil : Quiet target [] := nofun
  refine meets_sleep_bind ?_ fun r => meets_current_bind ?_
  · have hwaits : Waited target on deadline b.now tr none b (tr ++ []) :=
      .of_quiet (Or.inl rfl) (Nat.le_refl b.now) hnil
    rwa [List.append_nil] at hwaits
  · let t := b.resumed (verifyDelay + r.took) r
    have hloop : Meets (waitLoop target source deadline (deadline - t.now) none none) t (tr ++ [])
        (Waited target on deadline b.now tr) :=
      meets_waitLoop hon _ none none tr [] (Nat.le_add_right _ _) hnil
    rwa [List.append_nil] at hloop

/-- Before an acknowledgement of the target: `left` attempts are left. -/
structure Unacked (target : String) (left : Nat) (tr : List Entry) : Prop where
  commands : tr.countP powerCommand + left ≤ commandRetries
  unacked : .acked (.str target) ∉ tr
  unread : ∀ value, .powerRead value ∉ tr

theorem Unacked.notResent {left : Nat} {tr : List Entry} (h : Unacked target left tr) :
    NotResent target tr := by
  rintro before after rfl
  exact absurd (by simp) h.unacked

/-- An entry that neither sends a command, nor acknowledges the target, nor reads the power. -/
theorem Unacked.concat {left : Nat} {tr : List Entry} {entry : Entry} (h : Unacked target left tr)
    (hcommand : powerCommand entry = false) (hacked : entry ≠ .acked (.str target))
    (hread : ∀ value, entry ≠ .powerRead value) : Unacked target left (tr ++ [entry]) := by
  refine ⟨?_, by simp [h.unacked, hacked.symm], fun value => ?_⟩
  · simpa [List.countP_append, hcommand] using h.commands
  · simp [h.unread value, (hread value).symm]

/-- A command takes one of the attempts that are left. -/
theorem Unacked.command {left : Nat} {tr : List Entry} {entry : Entry}
    (h : Unacked target (left + 1) tr) (hacked : entry ≠ .acked (.str target))
    (hread : ∀ value, entry ≠ .powerRead value) : Unacked target left (tr ++ [entry]) := by
  refine ⟨?_, by simp [h.unacked, hacked.symm], fun value => ?_⟩
  · have hcommands := h.commands
    have hone : [entry].countP powerCommand ≤ 1 := List.countP_le_length
    rw [List.countP_append]
    omega
  · simp [h.unread value, (hread value).symm]

theorem Unacked.skip {left : Nat} {tr : List Entry} (h : Unacked target (left + 1) tr) :
    Unacked target left tr :=
  ⟨by have := h.commands; omega, h.unacked, h.unread⟩

theorem not_readBack_of_unread {tr : List Entry} (h : .powerRead (some target) ∉ tr) :
    ¬ ReadBack target tr := by
  rintro ⟨_, before, between, started, after, rfl, -, -⟩
  exact h (by simp)

/-- Nothing has been returned, or False, and no acknowledgement has come. -/
theorem Unacked.verified {left : Nat} {t : Backend} {tr : List Entry}
    {o : Option (Except Exc Bool)} (h : Unacked target left tr)
    (ho : o = none ∨ o = some (.ok false)) : Verified target on o t tr := by
  refine ⟨by have := h.commands; omega, h.notResent, ?_, ?_, ?_⟩
  · rintro ok rfl
    have hfalse : ok = false := by simpa using ho
    rw [hfalse]
    exact iff_of_false Bool.false_ne_true (not_readBack_of_unread (h.unread _))
  · rintro rfl
    simp at ho
  · rintro e rfl
    simp at ho

theorem countP_quiet {polls : List Entry} (h : Quiet target polls) : polls.countP powerCommand = 0 :=
  List.countP_eq_zero.mpr fun entry hentry => by simp [(h entry hentry).1]

/-- After the acknowledgement no command is sent, and the polling decides. -/
theorem Waited.result {left : Nat} {t : Backend} {tr tr' : List Entry}
    {o : Option (Except Exc Bool)} (h : Unacked target left tr) (hdeadline : .deadline deadline ∈ tr)
    (hwaited : Waited target on deadline start (tr ++ [.acked (.str target)]) o t tr') :
    Verified target on o t tr' := by
  have hacked : NotResent target (tr ++ [Entry.acked (.str target)]) := h.notResent.concat nofun
  have hcommands : tr.countP powerCommand ≤ commandRetries := by
    have := h.commands
    omega
  by_cases htrue : o = some (.ok true)
  · obtain ⟨hpresence, polls, started, htime, hpolls, rfl⟩ := hwaited.verified htrue
    refine ⟨?_, ?_, ?_, fun _ => hpresence, hwaited.noException⟩
    · simpa [List.countP_append, countP_quiet hpolls, powerCommand] using hcommands
    · refine (hacked.append fun entry hentry => (hpolls entry hentry).1).append ?_
      simp [powerCommand]
    · rintro ok rfl
      refine iff_of_true (by simpa using htrue) ⟨deadline, tr, polls, started, [], ?_, hdeadline, htime⟩
      simp
  · obtain ⟨polls, hpolls, rfl⟩ := hwaited.unverified htrue
    refine ⟨?_, hacked.append fun entry hentry => (hpolls entry hentry).1, ?_, ?_, hwaited.noException⟩
    · simpa [List.countP_append, countP_quiet hpolls, powerCommand] using hcommands
    · rintro ok rfl
      refine iff_of_false (fun hok => htrue (by rw [hok])) (not_readBack_of_unread ?_)
      intro hmem
      simp only [List.mem_append, List.mem_singleton, h.unread, reduceCtorEq, or_self,
        false_or] at hmem
      exact (hpolls _ hmem).2 rfl
    · exact fun heq => absurd heq htrue

theorem eq_of_isStr {value : Json} {s : String} (h : value.isStr s = true) : value = .str s := by
  cases value with
  | str t => rw [of_decide_eq_true h]
  | null => exact absurd h Bool.false_ne_true
  | bool b => exact absurd h Bool.false_ne_true
  | int n => exact absurd h Bool.false_ne_true
  | float x => exact absurd h Bool.false_ne_true
  | arr values => exact absurd h Bool.false_ne_true
  | obj members => exact absurd h Bool.false_ne_true

/-- One attempt: it ends the call, or has spent at most one command and no acknowledgement came. -/
theorem meets_powerAttempt (hon : Means target on) {left : Nat} {b : Backend} {tr : List Entry}
    (h : Unacked target (left + 1) tr) (hdeadline : .deadline deadline ∈ tr) :
    Meets (powerAttempt target source deadline) b tr (Attempted (Verified target on)
      fun _ tr' => .deadline deadline ∈ tr' ∧ Unacked target left tr') := by
  have hsent : Unacked target left (tr ++ [.sent (.powerControl (some target)) b.now]) :=
    h.command nofun nofun
  have hstill (entry : Entry) : .deadline deadline ∈ tr ++ [entry] := List.mem_append_left _ hdeadline
  refine (meets_rpcField (.powerControl (some target)) "power" b tr).bind ?_ ?_ ?_
  · intro t tr' hcalled
    rw [hcalled.sent nofun]
    exact hsent.verified (Or.inl rfl)
  · rintro e t tr' ⟨-, -, rfl | ⟨rfl, -⟩⟩
    · exact ⟨hstill _, hsent⟩
    · exact ⟨hdeadline, h.skip⟩
  · intro ack t tr' hcalled
    rw [hcalled.sent nofun]
    refine meets_emit_bind ?_
    by_cases hack : ack.isStr target = true
    · obtain rfl := eq_of_isStr hack
      rw [if_pos hack]
      refine (meets_waitForPowerState hon t _).mono fun o u tr' hwaited => ?_
      have hresult := hwaited.result hsent (hstill _)
      rcases o with _ | x
      · exact hresult
      · cases x with
        | ok done => exact hresult
        | error e => exact absurd rfl (hwaited.noException e)
    · rw [if_neg hack]
      refine meets_raise ⟨?_, hsent.concat rfl ?_ nofun⟩
      · exact List.mem_append_left _ (hstill _)
      · intro heq
        exact hack (by rw [Entry.acked.inj heq]; simp [Json.isStr])

theorem meets_verifiedPowerControl (hon : Means target on) (timeout : Nat) (b : Backend)
    (tr : List Entry) (h : Unacked target commandRetries tr) :
    Meets (verifiedPowerControl target source timeout) b tr (Verified target on) := by
  refine meets_current_bind (meets_emit_bind ?_)
  refine meets_retry (I := fun left _ tr => .deadline (b.now + max 1000 timeout) ∈ tr ∧
    Unacked target left tr) ?_ ?_ ?_ ?_ _ _ _ _ ?_
  · exact fun left b tr h => h.2.verified (Or.inl rfl)
  · exact fun left b tr error h => h.2.verified (Or.inr rfl)
  · exact fun left b tr ms r h => h
  · intro n left b tr h
    exact meets_powerAttempt hon (h.2.concat rfl nofun nofun) (List.mem_append_left _ h.1)
  · exact ⟨by simp, h.concat rfl nofun nofun⟩

theorem meets_setPower (hon : Means target on) (timeout : Nat) (b : Backend) :
    Meets (setPower target source timeout) b [] (Verified target on) := by
  have hnil : Unacked target commandRetries [] := ⟨Nat.le_refl _, nofun, nofun⟩
  -- asking for a token leaves nothing in the trace that is about the power
  have htoken (tr : List Entry) (htr : tr = [] ∨ tr = [] ++ [.sent .createAccessToken b.now]) :
      Unacked target commandRetries tr := by
    rcases htr with rfl | rfl
    · exact hnil
    · exact hnil.concat rfl nofun nofun
  refine (meets_ensureToken b []).bind ?_ ?_ ?_
  · exact fun t tr h => (htoken tr h.2.1).verified (Or.inl rfl)
  · exact fun e t tr h => absurd rfl (h.2.2 e)
  · intro held t tr h
    cases held with
    | false => exact meets_pure ((htoken tr h.2.1).verified (Or.inr rfl))
    | true => exact meets_verifiedPowerControl hon timeout t tr (htoken tr h.2.1)

theorem endsBy_pollPower (b : Backend) : EndsBy 1 (pollPower source) b :=
  (endsBy_readString _ _ _).bind_forall (n := 0) fun _ _ => endsBy_update_bind (endsBy_pure _)

theorem endsBy_waitLoop (turns : Nat) (lastPower : Option String) (lastError : Option Exc)
    (b : Backend) :
    EndsBy (2 * turns) (waitLoop target source deadline turns lastPower lastError) b := by
  induction turns generalizing lastPower lastError b with
  | zero => exact endsBy_update_bind (endsBy_pure false)
  | succ turns ih =>
    refine endsBy_current_bind ?_
    split
    · refine EndsBy.mono (m := 1 + (2 * turns + 1)) ?_ (by omega)
      refine (endsBy_pollPower b).attempt_bind (P := fun _ _ => True) (fun _ _ _ => trivial) ?_
      intro x t _
      cases x with
      | error e => exact endsBy_sleep_bind fun r => ih lastPower (some e) _
      | ok power =>
        show EndsBy _ (if power = some target then _ else _) t
        split
        · exact (endsBy_update_bind (endsBy_pure true)).mono (Nat.zero_le _)
        · exact endsBy_sleep_bind fun r => ih power lastError _
    · exact (endsBy_update_bind (endsBy_pure false)).mono (Nat.zero_le _)

/-- `window` bounds what is left to the deadline. -/
theorem endsBy_powerAttempt {window : Nat} (b : Backend) (hnow : deadline ≤ b.now + window) :
    EndsBy (2 * window + 2) (powerAttempt target source deadline) b := by
  refine EndsBy.mono (m := 1 + (2 * window + 1)) ?_ (by omega)
  refine (endsBy_rpcField _ _).bind (P := fun _ t => b.now ≤ t.now) ?_ fun ack t ht => ?_
  · exact fun rs _ _ => (meets_rpcField (.powerControl (some target)) "power" b [] rs).now
  refine endsBy_emit_bind ?_
  split
  · refine endsBy_sleep_bind fun r => endsBy_current_bind ?_
    refine (endsBy_waitLoop _ none none _).mono ?_
    show 2 * (deadline - (t.now + (verifyDelay + r.took))) ≤ 2 * window
    omega
  · exact (endsBy_raise _).mono (Nat.zero_le _)

theorem meets_powerAttempt_now (hon : Means target on) (b : Backend) :
    Meets (powerAttempt target source deadline) b [] fun _ t _ => b.now ≤ t.now := by
  refine (meets_rpcField (.powerControl (some target)) "power" b []).bind ?_ ?_ ?_
  · exact fun t tr h => h.now
  · exact fun e t tr h => h.now
  · intro ack t tr h
    refine meets_emit_bind ?_
    split
    · exact (meets_waitForPowerState hon t _).mono fun o u tr' hwaited => h.now.trans hwaited.now
    · exact meets_raise h.now

/-- The replies that are enough for the token, the attempts and the polling. -/
def repliesNeeded (timeout : Nat) : Nat := 1 + commandRetries * (2 * max 1000 timeout + 3)

theorem endsBy_setPower (hon : Means target on) (timeout : Nat) (b : Backend) :
    EndsBy (repliesNeeded timeout) (setPower target source timeout) b := by
  refine endsBy_ensureToken.bind_forall fun held t => ?_
  cases held with
  | false => exact (endsBy_pure false).mono (Nat.zero_le _)
  | true =>
    refine endsBy_current_bind (endsBy_emit_bind ?_)
    have hkept : ∀ b, t.now + max 1000 timeout ≤ b.now + max 1000 timeout →
        Meets (powerAttempt target source (t.now + max 1000 timeout)) b [] fun o u _ =>
          ∀ x, o = some x → t.now + max 1000 timeout ≤ u.now + max 1000 timeout :=
      fun b hb => (meets_powerAttempt_now hon b).mono fun o u tr hu _ _ => by omega
    refine endsBy_retry (P := fun b => t.now + max 1000 timeout ≤ b.now + max 1000 timeout)
      ?_ hkept endsBy_powerAttempt attempts none (Nat.le_refl _)
    exact fun b ms r hb => hb.trans (Nat.add_le_add_right (Nat.le_add_right _ _) _)

end

/-- The command is sent at most three times and never again once it is acknowledged with the target;
the result is whether the target has been read back since, in time, and if it has the presence is
that of the target. Given enough replies the call returns. -/
theorem power_verified (timeout : Nat) (b : Backend) (rs : List Reply) :
    (Verified "powerOn" true (powerOn timeout b rs).outcome (powerOn timeout b rs).state
        (powerOn timeout b rs).trace ∧
      Verified "powerOff" false (powerOff timeout b rs).outcome (powerOff timeout b rs).state
        (powerOff timeout b rs).trace) ∧
    (repliesNeeded timeout ≤ rs.length →
      (∃ ok, (powerOn timeout b rs).outcome = some (.ok ok)) ∧
        ∃ ok, (powerOff timeout b rs).outcome = some (.ok ok)) := by
  have hon : Verified "powerOn" true (powerOn timeout b rs).outcome (powerOn timeout b rs).state
      (powerOn timeout b rs).trace := meets_setPower means_powerOn timeout b rs
  have hoff : Verified "powerOff" false (powerOff timeout b rs).outcome (powerOff timeout b rs).state
      (powerOff timeout b rs).trace := meets_setPower means_powerOff timeout b rs
  refine ⟨⟨hon, hoff⟩, fun hlen => ⟨?_, ?_⟩⟩
  · exact exists_returned (endsBy_setPower means_powerOn timeout b rs hlen).1 hon.noException
  · exact exists_returned (endsBy_setPower means_powerOff timeout b rs hlen).1 hoff.noException

/-- The first command fails, the second is acknowledged, and the second read-back finds the target. -/
def retried : List Reply :=
  [{ answer := .raised "TimeoutError()", took := 3000 }, {},
    { answer := .json (.obj [("result", .obj [("power", .str "powerOn")])]) }, {},
    { answer := .json (.obj [("result", .obj [("power", .str "powerOff")])]) }, {},
    { answer := .json (.obj [("result", .obj [("power", .str "powerOn")])]) }]

theorem power_verified_retried : (powerOn 8000 {} retried).outcome = some (.ok true) ∧
    (powerOn 8000 {} retried).trace.countP powerCommand = 2 ∧
    ReadBack "powerOn" (powerOn 8000 {} retried).trace ∧
    (powerOn 8000 {} retried).state.tv.presenceCached = some true := by
  have hon := (power_verified 8000 {} retried).1.1
  exact ⟨rfl, rfl, (hon.returned true rfl).mp rfl, hon.presence rfl⟩

end PiHub.FramePower

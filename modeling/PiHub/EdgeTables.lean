import PiHub.TaskTables

/-! What `on_usb_edge` and `on_usb_disconnect` do to the dispatcher's tables, from one wait to
the next. -/
namespace PiHub.Dispatcher
open PiHub.HostFrames PiHub.Keymap PiHub.LiveTable

theorem live_of_not_done {s : State} {t : Nat} {task : Task} (htask : s.tasks[t]? = some task)
    (hdone : ¬ task.Done) : s.Live t := by
  simpa [State.Live, State.taskState, htask, Task.Done] using hdone

theorem live_of_aliveKind {s : State} {t : Nat} (h : s.aliveKind t ≠ none) : s.Live t := by
  rw [State.aliveKind] at h
  cases htask : s.tasks[t]? with
  | none => simp [htask] at h
  | some task =>
    apply live_of_not_done htask
    intro hdone
    simp [htask, Task.alive, hdone] at h

theorem live_of_doomedKind {s : State} {t : Nat} (h : s.doomedKind t ≠ none) : s.Live t := by
  rw [State.doomedKind] at h
  cases htask : s.tasks[t]? with
  | none => simp [htask] at h
  | some task =>
    apply live_of_not_done htask
    intro hdone
    simp [htask, Task.doomed, hdone] at h

theorem Tracked.not_failed {s : State} (h : Tracked s) (t : Nat) : s.taskState t ≠ .failed := by
  rw [State.taskState]
  cases htask : s.tasks[t]? with
  | none => simp
  | some task => simpa using h.sound task (List.mem_of_getElem? htask)

theorem Tracked.hold_live {s : State} (h : Tracked s) {key : HoldKey} {t : Nat}
    (hlookup : s.holdTasks.lookup key = some t) : s.Live t := by
  obtain ⟨kind, halive, _⟩ := h.hold.kind hlookup
  exact live_of_aliveKind (by simp [halive])

theorem Tracked.repeat_live {s : State} (h : Tracked s) {remKey : String} {t : Nat}
    (hlookup : s.repeatTasks.lookup remKey = some t) : s.Live t := by
  obtain ⟨kind, halive, _⟩ := h.repeats.kind hlookup
  exact live_of_aliveKind (by simp [halive])

/-- Cancelling the task that a call then awaits adds it to those that are unwinding. -/
theorem doomedKind_awaited {s s' : State} {t t' : Nat} {phase : EdgePhase}
    (hs' : s'.tasks = (s.cancel t).tasks) (hphase : phase.task = t) (h : s'.doomedKind t' ≠ none) :
    s.doomedKind t' ≠ none ∨
      ∃ phase', Progress.waits phase = .waits phase' ∧ phase'.task = t' := by
  by_cases ht : t' = t
  · exact Or.inr ⟨phase, rfl, hphase.trans ht.symm⟩
  · rw [doomedKind_congr hs', doomedKind_cancel, if_neg ht] at h
    exact Or.inl h

/-- The loop of `_cancel_hold_tasks` stops at the first key that is in the table. -/
theorem cancelHoldTasks_cases {s : State} (h : Tracked s) (keys : List HoldKey) :
    s.cancelHoldTasks keys = (s, none) ∧ (∀ key ∈ keys, key ∉ s.holdTasks) ∨
      ∃ key t rest before, keys = before ++ key :: rest ∧ (∀ k ∈ before, k ∉ s.holdTasks) ∧
        s.holdTasks.lookup key = some t ∧
          s.cancelHoldTasks keys = ((s.popHold key).cancel t, some (t, rest)) := by
  induction keys with
  | nil => exact Or.inl ⟨rfl, by simp⟩
  | cons key keys ih =>
    cases hlookup : s.holdTasks.lookup key with
    | some t =>
      refine Or.inr ⟨key, t, keys, [], rfl, by simp, hlookup, ?_⟩
      have hlive : ((s.popHold key).cancel t).Live t := (live_popHold s key t t).mpr (h.hold_live hlookup)
      simp only [State.cancelHoldTasks, hlookup, if_pos hlive]
    | none =>
      have hskip : s.cancelHoldTasks (key :: keys) = s.cancelHoldTasks keys := by
        simp only [State.cancelHoldTasks, hlookup]
      have hfree : key ∉ s.holdTasks := AList.lookup_eq_none.mp hlookup
      rw [hskip]
      cases ih with
      | inl hnone =>
        refine Or.inl ⟨hnone.1, ?_⟩
        intro k hk
        cases List.mem_cons.mp hk with
        | inl heq => exact heq ▸ hfree
        | inr hmem => exact hnone.2 k hmem
      | inr hfound =>
        obtain ⟨key', t, rest, before, hkeys, hbefore, hlookup', hcancel⟩ := hfound
        refine Or.inr ⟨key', t, rest, key :: before, by simp [hkeys], ?_, hlookup', hcancel⟩
        intro k hk
        cases List.mem_cons.mp hk with
        | inl heq => exact heq ▸ hfree
        | inr hmem => exact hbefore k hmem

theorem mem_holdKeys {s : State} {remKey : String} {key : HoldKey} :
    key ∈ s.holdKeys remKey ↔ key ∈ s.holdTasks ∧ key.1 = remKey := by
  simp [State.holdKeys, AList.mem_keys]

/-- What a step of a down edge's call does to the tables. -/
structure DownStep (S : Setup) (s : State) (remKey : String) (phase : Option EdgePhase)
    (r : State × Progress EdgePhase) : Prop where
  tracked : Tracked r.1
  mode : r.1.mode = s.mode
  doomed : ∀ t, r.1.doomedKind t ≠ none → s.doomedKind t ≠ none ∨
    ∃ phase, r.2 = .waits phase ∧ phase.task = t
  repeats : ∀ k ∈ r.1.repeatTasks, k ∈ s.repeatTasks ∨
    ¬ s.Blocked (s.keysLeft remKey phase) ∧ k = remKey ∧ remKey ∈ repeatKeys
  hold : ∀ key ∈ r.1.holdTasks, key ∈ s.holdTasks ∨
    ¬ s.Blocked (s.keysLeft remKey phase) ∧ key.1 = remKey ∧
      ∃ a ∈ S.actions s.mode remKey, (S.holdMs a).isSome = true
  pressed : ∀ k ∈ r.1.pressedAt, k ∈ s.pressedAt ∨ phase = none ∧ k = remKey

theorem startRepeat_acted (s : State) (remKey : String) :
    (s.startRepeat remKey).mode = s.mode ∧ (s.startRepeat remKey).holdTasks = s.holdTasks ∧
      (s.startRepeat remKey).pressedAt = s.pressedAt ∧
        (s.startRepeat remKey).doomedKind = s.doomedKind := by
  unfold State.startRepeat
  split
  · exact ⟨rfl, rfl, rfl, rfl⟩
  · exact ⟨rfl, rfl, rfl, funext (doomedKind_create s _)⟩

theorem mem_startRepeat {s : State} {remKey k : String}
    (h : k ∈ (s.startRepeat remKey).repeatTasks) : k ∈ s.repeatTasks ∨ k = remKey := by
  unfold State.startRepeat at h
  split at h
  · exact Or.inl h
  · exact ((AList.mem_insert _).mp h).symm

theorem runEdge_down {S : Setup} {s : State} {remKey : String} {phase : Option EdgePhase}
    (h : Tracked s) (hruns : ¬ s.Blocked (s.keysLeft remKey phase)) (hfree : HoldsFree S s remKey) :
    DownStep S s remKey phase (runEdge S s remKey .down) := by
  have hran : Scheduled S remKey .down (S.actions s.mode remKey).zipIdx s
      (runActions S remKey .down s (S.actions s.mode remKey).zipIdx).1 :=
    runActions_scheduled h fun _ => hfree
  have hacted := runActions_acted S remKey .down s (S.actions s.mode remKey).zipIdx
  have hhold : ∀ key ∈ (runActions S remKey .down s (S.actions s.mode remKey).zipIdx).1.holdTasks,
      key ∈ s.holdTasks ∨ ¬ s.Blocked (s.keysLeft remKey phase) ∧ key.1 = remKey ∧
        ∃ a ∈ S.actions s.mode remKey, (S.holdMs a).isSome = true := by
    intro key hkey
    cases hran.hold key hkey with
    | inl hold => exact Or.inl hold
    | inr hnew =>
      obtain ⟨hsame, _, a, hmem, hms⟩ := hnew
      exact Or.inr ⟨hruns, hsame, a, List.fst_mem_of_mem_zipIdx hmem, hms⟩
  have hplain (progress : Progress EdgePhase) : DownStep S s remKey phase
      ((runActions S remKey .down s (S.actions s.mode remKey).zipIdx).1, progress) :=
    ⟨hran.tracked, hacted.mode, fun t ht => Or.inl (hran.doomed ▸ ht),
      fun k hk => Or.inl (hacted.repeatTasks ▸ hk), hhold,
      fun k hk => Or.inl (hacted.pressedAt ▸ hk)⟩
  unfold runEdge
  dsimp only
  split
  case isFalse => exact hplain .raises
  case isTrue =>
    split
    case isFalse => exact hplain .returns
    case isTrue hrepeats =>
      obtain ⟨hmode, hholds, hpressed, hdoomed⟩ := startRepeat_acted
        (runActions S remKey .down s (S.actions s.mode remKey).zipIdx).1 remKey
      refine ⟨hran.tracked.startRepeat remKey, hmode.trans hacted.mode, ?_, ?_, ?_, ?_⟩
      · intro t ht
        rw [hdoomed, hran.doomed] at ht
        exact Or.inl ht
      · intro k hk
        cases mem_startRepeat hk with
        | inl hold => exact Or.inl (hacted.repeatTasks ▸ hold)
        | inr hnew => exact Or.inr ⟨hruns, hnew, hrepeats⟩
      · intro key hkey
        exact hhold key (hholds ▸ hkey)
      · intro k hk
        exact Or.inl (hacted.pressedAt ▸ hpressed ▸ hk)

theorem cancelThenRun_down {S : Setup} {s : State} {remKey : String} (phase : Option EdgePhase)
    (h : Tracked s) (hfree : ¬ s.Blocked (s.keysLeft remKey phase) → HoldsFree S s remKey) :
    DownStep S s remKey phase (cancelThenRun S s remKey .down (s.keysLeft remKey phase)) := by
  cases cancelHoldTasks_cases h (s.keysLeft remKey phase) with
  | inl hnone =>
    have hruns : ¬ s.Blocked (s.keysLeft remKey phase) :=
      not_blocked_of_cancelled (by rw [hnone.1])
    simpa [cancelThenRun, hnone.1] using runEdge_down h hruns (hfree hruns)
  | inr hfound =>
    obtain ⟨key, t, rest, before, _, _, hlookup, hcancel⟩ := hfound
    have hrun : cancelThenRun S s remKey .down (s.keysLeft remKey phase) =
        ((s.popHold key).cancel t, .waits (.cancelHolds t rest)) := by
      simp [cancelThenRun, hcancel]
    rw [hrun]
    refine ⟨h.popHold_cancel hlookup, rfl, fun t' ht' => doomedKind_awaited rfl rfl ht',
      fun k hk => Or.inl hk, ?_, fun k hk => Or.inl hk⟩
    · intro key' hkey'
      exact Or.inl (AList.mem_erase.mp hkey').2

theorem edgeStep_down {S : Setup} {s : State} {remKey : String} {phase : Option EdgePhase}
    (h : Tracked s) (hfree : ¬ s.Blocked (s.keysLeft remKey phase) → HoldsFree S s remKey) :
    DownStep S s remKey phase (edgeStep S s remKey .down phase) := by
  cases phase with
  | none =>
    have hpressed : Tracked { s with pressedAt := s.pressedAt.insert remKey s.now } :=
      h.congr rfl rfl rfl
    have hrun : DownStep S { s with pressedAt := s.pressedAt.insert remKey s.now } remKey none
        (edgeStep S s remKey .down none) := cancelThenRun_down none hpressed hfree
    refine ⟨hrun.tracked, hrun.mode, hrun.doomed, hrun.repeats, hrun.hold, ?_⟩
    intro k hk
    cases hrun.pressed k hk with
    | inr hnew => exact Or.inr hnew
    | inl hold =>
      cases (AList.mem_insert _).mp hold with
      | inl hnew => exact Or.inr ⟨rfl, hnew⟩
      | inr hmem => exact Or.inl hmem
  | some phase =>
    cases phase with
    | cancelHolds t rest => exact cancelThenRun_down (some (.cancelHolds t rest)) h hfree
    | stopRepeat t =>
      rw [edgeStep, resumeEdge, if_neg (h.not_failed t)]
      exact cancelThenRun_down (some (.stopRepeat t)) h hfree

/-- What a step of an up edge's call does to the tables. -/
structure UpStep (S : Setup) (s : State) (remKey : String) (r : State × Progress EdgePhase) :
    Prop where
  tracked : Tracked r.1
  mode : r.1.mode = s.mode
  doomed : ∀ t, r.1.doomedKind t ≠ none → s.doomedKind t ≠ none ∨
    ∃ phase, r.2 = .waits phase ∧ phase.task = t
  repeats : ∀ k ∈ r.1.repeatTasks, k ∈ s.repeatTasks ∧ k ≠ remKey
  hold : ∀ key ∈ r.1.holdTasks, key ∈ s.holdTasks
  pressed : ∀ k ∈ r.1.pressedAt, k ∈ s.pressedAt
  waits : ∀ t rest, r.2 = .waits (.cancelHolds t rest) →
    ∀ key ∈ r.1.holdTasks, key.1 = remKey → key ∈ rest
  ends : (∀ phase, r.2 ≠ .waits phase) → (∀ key ∈ r.1.holdTasks, key.1 ≠ remKey) ∧
    ((∀ a ∈ S.actions s.mode remKey, S.overflows .up a = false) → remKey ∉ r.1.pressedAt)

theorem runEdge_up {S : Setup} {s : State} {remKey : String} (h : Tracked s)
    (hrepeat : remKey ∉ s.repeatTasks) (hhold : ∀ key ∈ s.holdTasks, key.1 ≠ remKey) :
    UpStep S s remKey (runEdge S s remKey .up) := by
  have hran : Scheduled S remKey .up (S.actions s.mode remKey).zipIdx s
      (runActions S remKey .up s (S.actions s.mode remKey).zipIdx).1 :=
    runActions_scheduled h (by simp)
  have hacted := runActions_acted S remKey .up s (S.actions s.mode remKey).zipIdx
  have hcompletes := runActions_completes S remKey .up s (S.actions s.mode remKey).zipIdx
  have hsub : ∀ key ∈ (runActions S remKey .up s (S.actions s.mode remKey).zipIdx).1.holdTasks,
      key ∈ s.holdTasks := by
    intro key hkey
    cases hran.hold key hkey with
    | inl hold => exact hold
    | inr hnew => simp at hnew
  have hrepeats : ∀ k ∈ (runActions S remKey .up s (S.actions s.mode remKey).zipIdx).1.repeatTasks,
      k ∈ s.repeatTasks ∧ k ≠ remKey := by
    intro k hk
    rw [hacted.repeatTasks] at hk
    exact ⟨hk, fun hsame => hrepeat (hsame ▸ hk)⟩
  unfold runEdge
  dsimp only
  split
  case isTrue =>
    refine ⟨hran.tracked.congr rfl rfl rfl, hacted.mode, fun t ht => Or.inl (hran.doomed ▸ ht),
      hrepeats, hsub, ?_, by simp, fun _ => ⟨fun key hkey => hhold key (hsub key hkey), ?_⟩⟩
    · intro k hk
      exact hacted.pressedAt ▸ (AList.mem_erase.mp hk).2
    · intro _ hk
      exact (AList.mem_erase.mp hk).1 rfl
  case isFalse hraises =>
    refine ⟨hran.tracked, hacted.mode, fun t ht => Or.inl (hran.doomed ▸ ht), hrepeats, hsub,
      fun k hk => hacted.pressedAt ▸ hk, by simp,
      fun _ => ⟨fun key hkey => hhold key (hsub key hkey), ?_⟩⟩
    intro hover
    have hall : ((S.actions s.mode remKey).zipIdx.all fun a => !S.overflows .up a.1) = true := by
      rw [List.all_eq_true]
      intro p hp
      simp [hover p.1 (List.fst_mem_of_mem_zipIdx hp)]
    exact absurd (hcompletes.trans hall) hraises

theorem cancelThenRun_up {S : Setup} {s : State} {remKey : String} {keys : List HoldKey}
    (h : Tracked s) (hrepeat : remKey ∉ s.repeatTasks)
    (hkeys : ∀ key ∈ s.holdTasks, key.1 = remKey → key ∈ keys) :
    UpStep S s remKey (cancelThenRun S s remKey .up keys) := by
  cases cancelHoldTasks_cases h keys with
  | inl hnone =>
    have hhold : ∀ key ∈ s.holdTasks, key.1 ≠ remKey := by
      intro key hkey hsame
      exact hnone.2 key (hkeys key hkey hsame) hkey
    simpa [cancelThenRun, hnone.1] using runEdge_up h hrepeat hhold
  | inr hfound =>
    obtain ⟨key, t, rest, before, hsplit, hbefore, hlookup, hcancel⟩ := hfound
    have hrun : cancelThenRun S s remKey .up keys =
        ((s.popHold key).cancel t, .waits (.cancelHolds t rest)) := by
      simp [cancelThenRun, hcancel]
    rw [hrun]
    refine ⟨h.popHold_cancel hlookup, rfl, fun t' ht' => doomedKind_awaited rfl rfl ht', ?_, ?_,
      fun k hk => hk, ?_, ?_⟩
    · intro k hk
      exact ⟨hk, fun hsame => hrepeat (hsame ▸ hk)⟩
    · intro key' hkey'
      exact (AList.mem_erase.mp hkey').2
    · intro t' rest' hwaits key' hkey' hsame
      obtain ⟨hne, hmem⟩ := AList.mem_erase.mp hkey'
      have hin := hkeys key' hmem hsame
      rw [hsplit] at hin
      obtain ⟨_, hrest⟩ : t' = t ∧ rest' = rest := by simpa using (Progress.waits.inj hwaits).symm
      cases List.mem_append.mp hin with
      | inl hmem' => exact absurd hmem (hbefore key' hmem')
      | inr hcons =>
        cases List.mem_cons.mp hcons with
        | inl heq => exact absurd heq hne
        | inr hmem' => exact hrest ▸ hmem'
    · intro hends
      exact absurd rfl (hends _)

/-- What holds while the call of an up edge waits. -/
def UpWaiting (s : State) (remKey : String) : Option EdgePhase → Prop
  | none => True
  | some (.stopRepeat _) => remKey ∉ s.repeatTasks
  | some (.cancelHolds _ rest) => remKey ∉ s.repeatTasks ∧
      ∀ key ∈ s.holdTasks, key.1 = remKey → key ∈ rest

theorem edgeStep_up {S : Setup} {s : State} {remKey : String} {phase : Option EdgePhase}
    (h : Tracked s) (hwaiting : UpWaiting s remKey phase) :
    UpStep S s remKey (edgeStep S s remKey .up phase) := by
  have hkeys : ∀ key ∈ s.holdTasks, key.1 = remKey → key ∈ s.holdKeys remKey :=
    fun key hkey hsame => mem_holdKeys.mpr ⟨hkey, hsame⟩
  cases phase with
  | some phase =>
    cases phase with
    | cancelHolds t rest => exact cancelThenRun_up h hwaiting.1 hwaiting.2
    | stopRepeat t =>
      rw [edgeStep, resumeEdge, if_neg (h.not_failed t)]
      exact cancelThenRun_up h hwaiting hkeys
  | none =>
    cases hlookup : s.repeatTasks.lookup remKey with
    | none =>
      rw [edgeStep, onUsbEdge_up_none S hlookup]
      exact cancelThenRun_up h (AList.lookup_eq_none.mp hlookup) hkeys
    | some t =>
      rw [edgeStep, onUsbEdge_up_repeat S hlookup, if_pos (h.repeat_live hlookup)]
      refine ⟨h.popRepeat_cancel hlookup, rfl, fun t' ht' => doomedKind_awaited rfl rfl ht', ?_,
        fun key hkey => hkey, fun k hk => hk, by simp, ?_⟩
      · intro k hk
        obtain ⟨hne, hmem⟩ := AList.mem_erase.mp hk
        exact ⟨hmem, hne⟩
      · intro hends
        exact absurd rfl (hends _)

theorem UpStep.upWaiting {S : Setup} {s : State} {remKey : String} {r : State × Progress EdgePhase}
    (h : UpStep S s remKey r) {phase : EdgePhase} (hwaits : r.2 = .waits phase) :
    UpWaiting r.1 remKey (some phase) := by
  have hrepeat : remKey ∉ r.1.repeatTasks := fun hk => (h.repeats remKey hk).2 rfl
  cases phase with
  | stopRepeat t => exact hrepeat
  | cancelHolds t rest => exact ⟨hrepeat, h.waits t rest hwaits⟩

theorem UpWaiting.not_repeated {s : State} {remKey : String} {phase : EdgePhase}
    (h : UpWaiting s remKey (some phase)) : remKey ∉ s.repeatTasks := by
  cases phase with
  | stopRepeat t => exact h
  | cancelHolds t rest => exact h.1

/-- An up edge goes on waiting as the tables lose entries. -/
theorem UpWaiting.shrink {s s' : State} {remKey : String} {phase : EdgePhase}
    (h : UpWaiting s remKey (some phase)) (hrepeat : ∀ k ∈ s'.repeatTasks, k ∈ s.repeatTasks)
    (hhold : ∀ key ∈ s'.holdTasks, key.1 = remKey → key ∈ s.holdTasks) :
    UpWaiting s' remKey (some phase) := by
  have hgone : remKey ∉ s'.repeatTasks := fun hk => h.not_repeated (hrepeat remKey hk)
  cases phase with
  | stopRepeat t => exact hgone
  | cancelHolds t rest =>
    refine ⟨hgone, ?_⟩
    intro key hkey hsame
    exact h.2 key (hhold key hkey hsame) hsame

theorem cancelAll_acted (s : State) (ts : List Nat) : Acted s (s.cancelAll ts) := by
  induction ts generalizing s with
  | nil => exact ⟨rfl, rfl, rfl, rfl⟩
  | cons t ts ih =>
    have hcancel : Acted s (s.cancel t) := ⟨rfl, rfl, rfl, rfl⟩
    exact hcancel.trans (ih (s.cancel t))

theorem cancelAll_holdTasks (s : State) (ts : List Nat) :
    (s.cancelAll ts).holdTasks = s.holdTasks := by
  induction ts generalizing s with
  | nil => rfl
  | cons t ts ih => exact ih (s.cancel t)

theorem cancelAll_sound {s : State} (h : ∀ task ∈ s.tasks, task.state ≠ .failed) (ts : List Nat) :
    ∀ task ∈ (s.cancelAll ts).tasks, task.state ≠ .failed := by
  induction ts generalizing s with
  | nil => exact h
  | cons t ts ih => exact ih (cancel_sound h t)

theorem aliveKind_cancelAll (s : State) (ts : List Nat) : (s.cancelAll ts).aliveKind =
    fun t => if t ∈ ts then none else s.aliveKind t := by
  induction ts generalizing s with
  | nil => simp [State.cancelAll]
  | cons t ts ih =>
    funext t'
    have hrest := congrFun (ih (s.cancel t)) t'
    rw [aliveKind_cancel] at hrest
    refine hrest.trans ?_
    by_cases hmem : t' ∈ ts
    · simp [hmem]
    · simp [hmem]

/-- A task that is unwinding after the cancellations did so before, or was cancelled while
alive. -/
theorem doomedKind_cancelAll {s : State} {ts : List Nat} {t : Nat} {kind : TaskKind}
    (h : (s.cancelAll ts).doomedKind t = some kind) :
    s.doomedKind t = some kind ∨ t ∈ ts ∧ s.aliveKind t = some kind := by
  induction ts generalizing s with
  | nil => exact Or.inl h
  | cons t' ts ih =>
    have hrest := ih (s := s.cancel t') h
    rw [doomedKind_cancel, aliveKind_cancel] at hrest
    by_cases ht : t = t'
    · subst ht
      cases halive : s.aliveKind t with
      | none => exact Or.inl (by simpa [halive] using hrest)
      | some kind' =>
        obtain rfl : kind' = kind := by simpa [halive] using hrest
        exact Or.inr ⟨List.mem_cons_self, rfl⟩
    · rw [if_neg ht, if_neg ht] at hrest
      cases hrest with
      | inl hold => exact Or.inl hold
      | inr hnew => exact Or.inr ⟨List.mem_cons_of_mem _ hnew.1, hnew.2⟩

theorem Tracked.clearRepeats {s : State} (h : Tracked s) :
    Tracked ({ s with repeatTasks := ∅ }.cancelAll (values s.repeatTasks)) := by
  have halive := aliveKind_cancelAll { s with repeatTasks := ∅ } (values s.repeatTasks)
  have hacted := cancelAll_acted { s with repeatTasks := ∅ } (values s.repeatTasks)
  have hholds := cancelAll_holdTasks { s with repeatTasks := ∅ } (values s.repeatTasks)
  have hkind : ∀ t ∈ values s.repeatTasks, (s.aliveKind t).bind TaskKind.holdKey? = none := by
    intro t ht
    obtain ⟨remKey, hlookup⟩ := mem_values.mp ht
    obtain ⟨kind, hkind, hkey⟩ := h.repeats.kind hlookup
    simp [hkind, holdKey?_of_repeatKey? hkey]
  have hsound := cancelAll_sound (s := { s with repeatTasks := ∅ }) h.sound (values s.repeatTasks)
  refine ⟨?_, ?_, ?_, hsound⟩
  · rw [hholds, halive]
    exact h.hold.keep hkind
  · rw [hacted.repeatTasks, halive]
    exact h.repeats.clear
  · intro key t hdoomed
    rw [hholds]
    obtain ⟨kind, hkind', hkey⟩ := Option.bind_eq_some_iff.mp hdoomed
    cases doomedKind_cancelAll hkind' with
    | inl hold => exact h.unwinding key t (Option.bind_eq_some_iff.mpr ⟨kind, hold, hkey⟩)
    | inr hnew =>
      have halive' : s.aliveKind t = some kind := hnew.2
      exact absurd (hkind t hnew.1) (by simp [halive', hkey])

theorem Tracked.clearHolds {s : State} (h : Tracked s) :
    Tracked ({ s with holdTasks := ∅ }.cancelAll (values s.holdTasks)) := by
  have halive := aliveKind_cancelAll { s with holdTasks := ∅ } (values s.holdTasks)
  have hacted := cancelAll_acted { s with holdTasks := ∅ } (values s.holdTasks)
  have hholds := cancelAll_holdTasks { s with holdTasks := ∅ } (values s.holdTasks)
  have hkind : ∀ t ∈ values s.holdTasks, (s.aliveKind t).bind TaskKind.repeatKey? = none := by
    intro t ht
    obtain ⟨key, hlookup⟩ := mem_values.mp ht
    obtain ⟨kind, hkind, hkey⟩ := h.hold.kind hlookup
    simp [hkind, repeatKey?_of_holdKey? hkey]
  have hsound := cancelAll_sound (s := { s with holdTasks := ∅ }) h.sound (values s.holdTasks)
  refine ⟨?_, ?_, ?_, hsound⟩
  · rw [hholds, halive]
    exact h.hold.clear
  · rw [hacted.repeatTasks, halive]
    exact h.repeats.keep hkind
  · intro key t _
    rw [hholds]
    exact AList.lookup_empty key

theorem awaitAll_cases {s : State} (h : Tracked s) (ts : List Nat) :
    s.awaitAll ts = .returns ∧ (∀ t ∈ ts, ¬ s.Live t) ∨
      ∃ before t rest, ts = before ++ t :: rest ∧ (∀ t' ∈ before, ¬ s.Live t') ∧
        s.awaitAll ts = .waits (t, rest) := by
  induction ts with
  | nil => exact Or.inl ⟨rfl, by simp⟩
  | cons t ts ih =>
    by_cases hlive : s.Live t
    · exact Or.inr ⟨[], t, ts, rfl, by simp, by rw [State.awaitAll, if_pos hlive]⟩
    · have hskip : s.awaitAll (t :: ts) = s.awaitAll ts := by
        rw [State.awaitAll, if_neg hlive, if_neg (h.not_failed t)]
      rw [hskip]
      cases ih with
      | inl hnone =>
        refine Or.inl ⟨hnone.1, ?_⟩
        intro t' ht'
        cases List.mem_cons.mp ht' with
        | inl heq => exact heq ▸ hlive
        | inr hmem => exact hnone.2 t' hmem
      | inr hfound =>
        obtain ⟨before, t', rest, hsplit, hbefore, hawait⟩ := hfound
        refine Or.inr ⟨t :: before, t', rest, by simp [hsplit], ?_, hawait⟩
        intro x hx
        cases List.mem_cons.mp hx with
        | inl heq => exact heq ▸ hlive
        | inr hmem => exact hbefore x hmem

/-- The tasks that a wait of `on_usb_disconnect` still has to see end. -/
def DisconnectPhase.tasks : DisconnectPhase → List Nat
  | .repeats t rest => t :: rest
  | .holds t rest => t :: rest

theorem releaseAll_last (s : State) (u : Usage) :
    lastFrame u s.releaseAll.sent = some (zeroFrame u, none) := by
  cases u with
  | keyboard => simp [lastFrame, State.releaseAll, zeroFrame]
  | consumer => simp [lastFrame, State.releaseAll, zeroFrame]

/-- How a stretch of `on_usb_disconnect` leaves the dispatcher. `others` are the unwinding
tasks that are not its own to await. -/
structure Cleared (others : Nat → Prop) (s : State) (r : State × Progress DisconnectPhase) :
    Prop where
  tracked : Tracked r.1
  mode : r.1.mode = s.mode
  doomed : ∀ t, r.1.doomedKind t ≠ none →
    others t ∨ ∃ phase, r.2 = .waits phase ∧ t ∈ phase.tasks
  repeats : r.1.repeatTasks = s.repeatTasks
  hold : ∀ key ∈ r.1.holdTasks, key ∈ s.holdTasks
  returns : r.2 = .returns → r.1.pressedAt = ∅ ∧
    ∀ u, lastFrame u r.1.sent = some (zeroFrame u, none)
  raises : r.2 ≠ .raises

/-- What is unwinding and has not been seen to end is still to be awaited. -/
theorem left_to_await {others : Nat → Prop} {s : State} {ts before left : List Nat}
    (hdoomed : ∀ t, s.doomedKind t ≠ none → others t ∨ t ∈ ts) (hsplit : ts = before ++ left)
    (hbefore : ∀ t ∈ before, ¬ s.Live t) {t : Nat} (ht : s.doomedKind t ≠ none) :
    others t ∨ t ∈ left := by
  cases hdoomed t ht with
  | inl hother => exact Or.inl hother
  | inr hmem =>
    rw [hsplit] at hmem
    cases List.mem_append.mp hmem with
    | inl hdone => exact absurd (live_of_doomedKind ht) (hbefore t hdone)
    | inr hleft => exact Or.inr hleft

theorem awaitHolds_cleared {others : Nat → Prop} {s : State} {ts : List Nat} (h : Tracked s)
    (hdoomed : ∀ t, s.doomedKind t ≠ none → others t ∨ t ∈ ts) :
    Cleared others s (awaitHolds s ts) ∧ (awaitHolds s ts).1.holdTasks = s.holdTasks ∧
      ∀ t rest, (awaitHolds s ts).2 ≠ .waits (.repeats t rest) := by
  cases awaitAll_cases h ts with
  | inl hreturns =>
    have hrun : awaitHolds s ts = ({ s with pressedAt := ∅ }.releaseAll, .returns) := by
      simp [awaitHolds, hreturns.1]
    rw [hrun]
    refine ⟨⟨h.congr rfl rfl rfl, rfl, ?_, rfl, fun key hkey => hkey,
      fun _ => ⟨rfl, releaseAll_last _⟩, by simp⟩, rfl, by simp⟩
    intro t ht
    cases hdoomed t ht with
    | inl hother => exact Or.inl hother
    | inr hmem => exact absurd (live_of_doomedKind (s := s) ht) (hreturns.2 t hmem)
  | inr hwaits =>
    obtain ⟨before, t, rest, hsplit, hbefore, hawait⟩ := hwaits
    have hrun : awaitHolds s ts = (s, .waits (.holds t rest)) := by simp [awaitHolds, hawait]
    rw [hrun]
    refine ⟨⟨h, rfl, ?_, rfl, fun key hkey => hkey, by simp, by simp⟩, rfl, by simp⟩
    intro t' ht'
    exact (left_to_await hdoomed hsplit hbefore ht').imp_right fun hleft => ⟨_, rfl, hleft⟩

theorem awaitRepeats_cleared {others : Nat → Prop} {s : State} {ts : List Nat} (h : Tracked s)
    (hdoomed : ∀ t, s.doomedKind t ≠ none → others t ∨ t ∈ ts) :
    Cleared others s (awaitRepeats s ts) ∧
      ((∃ t rest, (awaitRepeats s ts).2 = .waits (.repeats t rest)) ∨
        ∀ key, key ∉ (awaitRepeats s ts).1.holdTasks) := by
  cases awaitAll_cases h ts with
  | inr hwaits =>
    obtain ⟨before, t, rest, hsplit, hbefore, hawait⟩ := hwaits
    have hrun : awaitRepeats s ts = (s, .waits (.repeats t rest)) := by
      simp [awaitRepeats, hawait]
    rw [hrun]
    refine ⟨⟨h, rfl, ?_, rfl, fun key hkey => hkey, by simp, by simp⟩, Or.inl ⟨t, rest, rfl⟩⟩
    intro t' ht'
    exact (left_to_await hdoomed hsplit hbefore ht').imp_right fun hleft => ⟨_, rfl, hleft⟩
  | inl hreturns =>
    have hrun : awaitRepeats s ts = awaitHolds
        ({ s with holdTasks := ∅ }.cancelAll (values s.holdTasks)) (values s.holdTasks) := by
      simp [awaitRepeats, hreturns.1]
    have hacted := cancelAll_acted { s with holdTasks := ∅ } (values s.holdTasks)
    have hholds := cancelAll_holdTasks { s with holdTasks := ∅ } (values s.holdTasks)
    have hdoomed' : ∀ t,
        ({ s with holdTasks := ∅ }.cancelAll (values s.holdTasks)).doomedKind t ≠ none →
          others t ∨ t ∈ values s.holdTasks := by
      intro t ht
      obtain ⟨kind, hkind⟩ := Option.ne_none_iff_exists'.mp ht
      cases doomedKind_cancelAll hkind with
      | inr hnew => exact Or.inr hnew.1
      | inl hold =>
        have hsame : s.doomedKind t = some kind := hold
        have hold' : s.doomedKind t ≠ none := by simp [hsame]
        cases hdoomed t hold' with
        | inl hother => exact Or.inl hother
        | inr hmem => exact absurd (live_of_doomedKind hold') (hreturns.2 t hmem)
    obtain ⟨hcleared, hsame, _⟩ := awaitHolds_cleared h.clearHolds hdoomed'
    have hnone : ∀ key, key ∉ (awaitRepeats s ts).1.holdTasks := by
      intro key
      rw [hrun, hsame, hholds]
      exact AList.notMem_empty key
    refine ⟨?_, Or.inr hnone⟩
    rw [hrun] at hnone ⊢
    exact ⟨hcleared.tracked, hcleared.mode.trans hacted.mode, hcleared.doomed,
      hcleared.repeats.trans hacted.repeatTasks, fun key hkey => absurd hkey (hnone key),
      hcleared.returns, hcleared.raises⟩

end PiHub.Dispatcher

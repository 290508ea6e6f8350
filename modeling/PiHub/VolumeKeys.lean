import PiHub.SoftMute

/-! The volume keys of the Audio Pro (audiopro_speaker.py): what they send against the volume last
reported, and what the speaker makes of it while its echoes are under way. -/
namespace PiHub.VolumeKeys
open PiHub.Transition PiHub.PyStr PiHub.Settings PiHub.SoftMute

/-- A step from either volume comes to the same: they are equal, or it takes both to one end. -/
def SameStep (a b change : Int) : Prop :=
  a = b ∨ (100 ≤ a + change ∧ 100 ≤ b + change) ∨ (a + change ≤ 0 ∧ b + change ≤ 0)

instance (a b change : Int) : Decidable (SameStep a b change) := inferInstanceAs (Decidable (_ ∨ _))

theorem clampPct_eq_iff {a b change : Int} :
    clampPct (a + change) = clampPct (b + change) ↔ SameStep a b change := by
  unfold clampPct SameStep
  omega

/-- The volume a packet asks for. -/
def volumeOf (payload : String) : Option Int :=
  if startsWith "MCU+VOL+" payload then int? (lastField payload) else none

/-- The three digits of a percentage. -/
def pctChars (v : Int) : List Char :=
  [v.toNat / 100, v.toNat / 10 % 10, v.toNat % 10].map fun d => Char.ofNat (48 + d)

theorem zfill_pct {v : Int} (hrange : 0 ≤ v ∧ v ≤ 100) : (zfill 3 (toString v)).toList = pctChars v := by
  have hall : ∀ n : Fin 101, (zfill 3 (toString (n.val : Int))).toList = pctChars (n.val : Int) := by
    decide +kernel
  have hv := hall ⟨v.toNat, by omega⟩
  rwa [Int.toNat_of_nonneg hrange.1] at hv

theorem digit_pct {d : Nat} (hd : d < 10) : digit? (Char.ofNat (48 + d)) = some d ∧
    isSpace (Char.ofNat (48 + d)) = false ∧ Char.ofNat (48 + d) ∉ ['+', '-', '_', '&'] := by
  have hall : ∀ d : Fin 10, digit? (Char.ofNat (48 + d.val)) = some d.val ∧
      isSpace (Char.ofNat (48 + d.val)) = false ∧
      Char.ofNat (48 + d.val) ∉ ['+', '-', '_', '&'] := by decide +kernel
  exact hall ⟨d, hd⟩

theorem int_pctChars {v : Int} (hrange : 0 ≤ v ∧ v ≤ 100) :
    int? (String.ofList (pctChars v)) = some v := by
  obtain ⟨h1, hspace1, hplain1⟩ := digit_pct (d := v.toNat / 100) (by omega)
  obtain ⟨h2, hspace2, hplain2⟩ := digit_pct (d := v.toNat / 10 % 10) (by omega)
  obtain ⟨h3, hspace3, hplain3⟩ := digit_pct (d := v.toNat % 10) (by omega)
  simp only [List.mem_cons, not_or] at hplain1 hplain2 hplain3
  have hvalue : digits? (pctChars v) = some v.toNat := by
    simp only [pctChars, List.map_cons, List.map_nil, digits?, h1, Option.bind_some]
    rw [digitsFrom_cons _ hplain2.2.2.1, h2, Option.bind_some, digitsFrom_cons _ hplain3.2.2.1, h3,
      Option.bind_some, digitsFrom]
    congr 1
    omega
  rw [int?, strip_eq_self (by simp [pctChars, hspace1, hspace2, hspace3]), String.toList_ofList]
  split
  · next ds heq => exact absurd (List.head_eq_of_cons_eq heq) hplain1.2.1
  · next ds heq => exact absurd (List.head_eq_of_cons_eq heq) hplain1.1
  · rw [hvalue]
    exact congrArg some (Int.toNat_of_nonneg hrange.1)

theorem pctChars_plain {v : Int} (hrange : 0 ≤ v ∧ v ≤ 100) :
    ∀ c ∈ pctChars v, isSpace c = false ∧ c ∉ ['+', '-', '_', '&'] := by
  unfold pctChars
  rw [List.forall_mem_map]
  intro d hd
  have hlt : d < 10 := by
    simp only [List.mem_cons, List.not_mem_nil, or_false] at hd
    omega
  exact (digit_pct hlt).2

/-- The number at the end of a packet. -/
theorem int_lastField (pre : List Char) {s : String} {v : Int} (hrange : 0 ≤ v ∧ v ≤ 100)
    (hs : s.toList = pre ++ '+' :: pctChars v) : int? (lastField s) = some v := by
  have hfield : s.toList.reverse.takeWhile (fun c => decide (c ≠ '+')) = (pctChars v).reverse := by
    have hplain : ∀ c ∈ (pctChars v).reverse, decide (c ≠ '+') = true := by
      intro c hc
      have hc' := (pctChars_plain hrange c (List.mem_reverse.mp hc)).2
      simp only [List.mem_cons, not_or] at hc'
      exact decide_eq_true hc'.1
    rw [hs, List.reverse_append, List.reverse_cons, List.append_assoc,
      List.takeWhile_append_of_pos hplain]
    simp
  rw [lastField, hfield, List.reverse_reverse, int_pctChars hrange]

theorem clampPct_range (v : Int) : 0 ≤ clampPct v ∧ clampPct v ≤ 100 := by
  unfold clampPct
  omega

theorem volumeOf_volPayload (v : Int) : volumeOf (volPayload (clampPct v)) = some (clampPct v) := by
  have hchars : (volPayload (clampPct v)).toList = "MCU+VOL+".toList ++ pctChars (clampPct v) := by
    rw [volPayload, String.toList_append, zfill_pct (clampPct_range v)]
  have hstart : startsWith "MCU+VOL+" (volPayload (clampPct v)) = true := by
    rw [startsWith, hchars]
    exact List.isPrefixOf_iff_prefix.mpr (List.prefix_append _ _)
  rw [volumeOf, if_pos hstart]
  exact int_lastField "MCU+VOL".toList (clampPct_range v) hchars

/-- The payload tells the volume. -/
theorem volPayload_eq_iff {v w : Int} :
    volPayload (clampPct v) = volPayload (clampPct w) ↔ clampPct v = clampPct w := by
  refine ⟨fun heq => ?_, fun heq => by rw [heq]⟩
  have hvolume := congrArg volumeOf heq
  rw [volumeOf_volPayload, volumeOf_volPayload] at hvolume
  exact Option.some.inj hvolume

/-! ### The controls -/

inductive Control where
  | setVolume (pct : Int)
  | setMuted (target : Bool)
  | muteToggle
  | volumeUp
  | volumeDown
  deriving DecidableEq

def Control.run (b : Speaker) (transport : Transport) : Control → Speaker
  | .setVolume pct => (b.setVolume pct transport).1
  | .setMuted target => (b.setMuted target transport).1
  | .muteToggle => (b.muteToggle transport).1
  | .volumeUp => (b.volumeUp transport).1
  | .volumeDown => (b.volumeDown transport).1

/-- The step of a volume key. -/
def Control.change : Control → Option Int
  | .volumeUp => some volumeStepPct
  | .volumeDown => some (-volumeStepPct)
  | _ => none

/-- The control begins the soft mute. -/
def Control.softMutes (b : Speaker) : Control → Bool
  | .setMuted target => b.onHdmi && target
  | .muteToggle => b.onHdmi && !b.state.muted.getD false
  | _ => false

/-- What a volume key hands over. -/
def keyPct (b : Speaker) (change : Int) : Int :=
  if b.onHdmi && b.physicalMuted then clampPct (b.restorePct + change)
  else clampPct (b.state.volume.getD 0 + change)

theorem tcpCommand_fst (b : Speaker) (payload action : String) (transport : Transport) :
    (b.tcpCommand payload action transport).1 = (b.sendControl payload transport).1 := rfl

theorem stepVolume_commands (b : Speaker) (change : Int) (action : String) (transport : Transport) :
    (b.stepVolume change action transport).1.commands =
      b.commands ++ [⟨volPayload (keyPct b change), b.takes transport⟩] := by
  unfold Speaker.stepVolume keyPct
  split
  · rw [tcpCommand_fst, sendControl_commands]
    rfl
  · rw [tcpCommand_fst, sendControl_commands]

theorem run_key_commands {key : Control} {change : Int} (hkey : key.change = some change)
    (b : Speaker) (transport : Transport) : (key.run b transport).commands =
      b.commands ++ [⟨volPayload (keyPct b change), b.takes transport⟩] := by
  cases key with
  | volumeUp =>
    have hchange : volumeStepPct = change := Option.some.inj hkey
    rw [Control.run, Speaker.volumeUp, stepVolume_commands, hchange]
  | volumeDown =>
    have hchange : -volumeStepPct = change := Option.some.inj hkey
    rw [Control.run, Speaker.volumeDown, stepVolume_commands, hchange]
  | setVolume pct => cases hkey
  | setMuted target => cases hkey
  | muteToggle => cases hkey

theorem setMuted_volume (b : Speaker) (target : Bool) (transport : Transport) :
    (b.setMuted target transport).1.state.volume = b.state.volume := by
  unfold Speaker.setMuted
  split
  · cases target with
    | true => exact (muted_then_volume
        { b with physicalMuteRestorePct := b.keepRestore, physicalMuted := true } true 0
        transport).1.volume
    | false => exact (muted_then_volume
        { b with physicalMuted := false } false b.restorePct transport).1.volume
  · split
    · rfl
    · have hsent := (taken_sendControl b ("MCU+MUT+" ++ if target then "001" else "000")
        transport).volume
      unfold Speaker.tcpCommand
      dsimp only
      generalize b.sendControl ("MCU+MUT+" ++ if target then "001" else "000") transport = sent
        at hsent
      split
      · exact ((taken_applyUpdates (r := { muted := some target }) sent.1 { muted := some target }
          rfl rfl rfl).volume.trans rfl).trans hsent
      · exact hsent

/-- Only messages change the volume that is kept. -/
theorem run_volume (b : Speaker) (transport : Transport) (c : Control) :
    (c.run b transport).state.volume = b.state.volume := by
  have hstep (change : Int) (action : String) :
      (b.stepVolume change action transport).1.state.volume = b.state.volume := by
    unfold Speaker.stepVolume
    split
    · rw [tcpCommand_fst, (taken_sendControl _ _ transport).volume]
      rfl
    · rw [tcpCommand_fst, (taken_sendControl _ _ transport).volume]
      rfl
  cases c with
  | setVolume pct =>
    rw [Control.run, Speaker.setVolume, tcpCommand_fst, (taken_sendControl _ _ transport).volume]
    rfl
  | setMuted target => rw [Control.run, setMuted_volume]
  | muteToggle => rw [Control.run, Speaker.muteToggle, setMuted_volume]
  | volumeUp => rw [Control.run, Speaker.volumeUp, hstep]
  | volumeDown => rw [Control.run, Speaker.volumeDown, hstep]

/-! ### The keys against the last report -/

/-- A command with what becomes of its packet, or a message. -/
inductive Move where
  | command (c : Control) (transport : Transport)
  | message (e : Event)

/-- The speaker beside what the run has shown: the volume last reported, the volume sent whose echo
is awaited, and whether the soft mute is what has the speaker at 0: one has gone out, and since its
echo nothing above 0 was reported. -/
structure Session where
  speaker : Speaker := {}
  reported : Option Int := none
  awaited : Option Int := none
  zeroed : Bool := false
  deriving DecidableEq

/-- The volume that went out between two states. -/
def sentVolume (before after : Speaker) : Option Int :=
  (after.commands.drop before.commands.length).findSome? fun c =>
    if c.sent then volumeOf c.payload else none

def Session.command (s : Session) (c : Control) (transport : Transport) : Session :=
  { s with
    speaker := c.run s.speaker transport
    awaited := sentVolume s.speaker (c.run s.speaker transport)
    zeroed := s.zeroed || (c.softMutes s.speaker && s.speaker.takes transport) }

def Session.message (py : PyJson) (s : Session) (e : Event) : Session :=
  let volume := (e.reading py s.speaker.state.source).volume
  { speaker := s.speaker.handle py e
    reported := volume.or s.reported
    awaited := if volume = s.awaited then none else s.awaited
    zeroed := s.zeroed && !(volume.any (0 < ·) && s.awaited ≠ some 0) }

/-- A command comes once the volume sent before it has been echoed. -/
def step (py : PyJson) (s : Session) : Move → Option Session
  | .command c transport => if s.awaited = none then some (s.command c transport) else none
  | .message e => some (s.message py e)

/-- The one packet of the key asks for `v`. -/
def Session.Sends (s : Session) (key : Control) (transport : Transport) (v : Int) : Prop :=
  (key.run s.speaker transport).commands =
    s.speaker.commands ++ [⟨volPayload v, s.speaker.takes transport⟩]

/-- A key steps from the volume last reported; from 0, where the soft mute has it, it may step from
the volume remembered. -/
def Steps (s : Session) : Move → Prop
  | .command key transport => ∀ change ∈ key.change,
    let c := s.reported.getD 0
    if 0 < c then s.Sends key transport (clampPct (c + change))
    else s.Sends key transport (clampPct change) ∨
      (s.zeroed = true ∧ s.Sends key transport (clampPct (s.speaker.restorePct + change)))
  | .message _ => True

/-- A key that finds the soft mute flagged on HDMI finds the speaker where it put it, or at a volume
from which the step is the same. -/
def NotStale (s : Session) : Move → Prop
  | .command key _ => ∀ change ∈ key.change,
    s.speaker.onHdmi = true → s.speaker.physicalMuted = true →
      (s.reported.getD 0 = 0 ∧ s.zeroed = true) ∨
        SameStep s.speaker.restorePct (s.reported.getD 0) change
  | .message _ => True

/-- The volume kept is the one last reported. -/
structure Inv (s : Session) : Prop where
  volume : s.speaker.state.volume = s.reported
  range : 0 ≤ s.reported.getD 0

theorem reading_volume_nonneg (py : PyJson) (current : Option String) (e : Event) :
    ∀ v ∈ (e.reading py current).volume, 0 ≤ v := by
  have hmap (o : Option Int) : ∀ v ∈ o.map clampPct, 0 ≤ v := by
    intro v hv
    obtain ⟨w, -, rfl⟩ := Option.map_eq_some_iff.mp hv
    exact le_max_left 0 _
  have hnone : ∀ v ∈ (none : Option Int), 0 ≤ v := by simp
  cases e with
  | payload text =>
    unfold Event.reading reading
    dsimp only
    generalize dropAmp (strip text) = p
    generalize int? (lastField (strip p)) = vol
    generalize parsePlyInfJson py p = parsed
    split_ifs
    · exact hmap vol
    · exact hnone
    · exact hnone
    · cases parsed with
      | none => exact hnone
      | some info =>
        rw [Option.elim_some, Info.reading]
        generalize int? info.vol = vol
        exact hmap vol
    · exact hnone
  | connects => exact hnone
  | drops error => exact hnone

theorem inv_step {py : PyJson} {s t : Session} {m : Move} (h : Inv s) (hstep : step py s m = some t) :
    Inv t := by
  cases m with
  | command c transport =>
    obtain ⟨-, rfl⟩ := of_guard hstep
    exact ⟨(run_volume s.speaker transport c).trans h.volume, h.range⟩
  | message e =>
    obtain rfl := Option.some.inj hstep
    refine ⟨?_, ?_⟩
    · exact (taken_handle py s.speaker e).volume.trans (by rw [h.volume]; rfl)
    · have hvolume := reading_volume_nonneg py s.speaker.state.source e
      rw [Session.message]
      dsimp only
      cases hv : (e.reading py s.speaker.state.source).volume with
      | none => exact h.range
      | some v => exact hvolume v hv

theorem sends_iff {key : Control} {change : Int} (hkey : key.change = some change) (s : Session)
    (transport : Transport) (v : Int) : s.Sends key transport (clampPct v) ↔
      keyPct s.speaker change = clampPct v := by
  obtain ⟨w, hw⟩ : ∃ w, keyPct s.speaker change = clampPct w := by
    unfold keyPct
    split
    · exact ⟨_, rfl⟩
    · exact ⟨_, rfl⟩
  rw [Session.Sends, run_key_commands hkey, hw, List.append_cancel_left_eq]
  simp only [List.cons.injEq, Command.mk.injEq, and_true, volPayload_eq_iff]

theorem steps_iff {s : Session} (h : Inv s) (m : Move) : Steps s m ↔ NotStale s m := by
  cases m with
  | message e => exact Iff.rfl
  | command key transport =>
    refine forall₂_congr fun change hkey => ?_
    have hsends := sends_iff hkey s transport
    have hrange := h.range
    dsimp only
    by_cases hflag : s.speaker.onHdmi = true ∧ s.speaker.physicalMuted = true
    · have hpct : keyPct s.speaker change = clampPct (s.speaker.restorePct + change) := by
        rw [keyPct, hflag.1, hflag.2]
        rfl
      have hzero : clampPct change = clampPct (0 + change) := by rw [Int.zero_add]
      rw [hzero, hsends, hsends, hsends, hpct, clampPct_eq_iff, clampPct_eq_iff]
      split
      · next hpos =>
        refine ⟨fun hsame _ _ => .inr hsame, fun hall => ?_⟩
        obtain ⟨heq, -⟩ | hsame := hall hflag.1 hflag.2
        · omega
        · exact hsame
      · next hpos =>
        obtain hc : s.reported.getD 0 = 0 := by omega
        rw [hc]
        refine ⟨fun hor _ _ => ?_, fun hall => ?_⟩
        · obtain hsame | ⟨hzeroed, -⟩ := hor
          · exact .inr hsame
          · exact .inl ⟨rfl, hzeroed⟩
        · obtain ⟨-, hzeroed⟩ | hsame := hall hflag.1 hflag.2
          · exact .inr ⟨hzeroed, rfl⟩
          · exact .inl hsame
    · have hpct : keyPct s.speaker change = clampPct (s.reported.getD 0 + change) := by
        rw [keyPct, if_neg (by simpa using hflag), h.volume]
      refine iff_of_true ?_ fun hhdmi hmuted => absurd ⟨hhdmi, hmuted⟩ hflag
      split
      · exact (hsends _).mpr hpct
      · next hpos =>
        obtain hc : s.reported.getD 0 = 0 := by omega
        rw [hc, Int.zero_add] at hpct
        exact .inl ((hsends _).mpr hpct)

/-- In a run from the start, every volume key steps from the volume last reported exactly if none
comes upon a soft mute that is flagged and no longer in force. -/
theorem keys_step_iff (py : PyJson) (moves : List Move) :
    Along (step py) Steps {} moves ↔ Along (step py) NotStale {} moves :=
  along_congr (fun _ _ _ h hstep => inv_step h hstep) (fun _ m h => steps_iff h m)
    (⟨rfl, le_refl 0⟩ : Inv {})

/-- A full status on HDMI at volume 40. -/
def statusJson : String := "\x7b\"mode\":\"49\",\"vol\":\"40\"\x7d"

def statusPy : PyJson where
  loads raw := if raw = statusJson then some [("mode", .str "49"), ("vol", .str "40")] else none
  repr _ := ""

/-- Soft mute, and then a flow sets the volume. -/
def jumpMoves : List Move :=
  [.message .connects, .message (.payload ("AXX+PLY+INF" ++ statusJson ++ "&")),
    .command (.setMuted true) .ok, .message (.payload "AXX+VOL+000"),
    .command (.setVolume 10) .ok, .message (.payload "AXX+VOL+010")]

/-- The key after it takes the room from 10 to 42. -/
theorem key_jumps : ∃ s, execute (step statusPy) {} jumpMoves = some s ∧ s.reported = some 10 ∧
    (Control.volumeUp.run s.speaker .ok).commands =
      [⟨"MCU+VOL+000", true⟩, ⟨"MCU+VOL+010", true⟩, ⟨"MCU+VOL+042", true⟩] ∧
    ¬ Along (step statusPy) Steps {} (jumpMoves ++ [.command .volumeUp .ok]) := by
  have hrun : (execute (step statusPy) {} jumpMoves).map (fun s => (s.reported,
      (Control.volumeUp.run s.speaker .ok).commands, keyPct s.speaker volumeStepPct)) =
      some (some 10, [⟨"MCU+VOL+000", true⟩, ⟨"MCU+VOL+010", true⟩, ⟨"MCU+VOL+042", true⟩], 42) := by
    decide +kernel
  obtain ⟨s, hs, hend⟩ := Option.map_eq_some_iff.mp hrun
  obtain ⟨hreported, hend⟩ := Prod.mk.inj hend
  obtain ⟨hcommands, hpct⟩ := Prod.mk.inj hend
  refine ⟨s, hs, hreported, hcommands, fun halong => ?_⟩
  have hkey := (along_concat halong).2 s hs volumeStepPct rfl
  dsimp only at hkey
  rw [hreported, Option.getD_some, if_pos (by decide), sends_iff rfl, hpct] at hkey
  exact absurd hkey (by decide)

/-! ### The keys against echoes under way -/

/-- A key, or the arrival of the next echo. -/
inductive Round where
  | key (up : Bool)
  | echo
  deriving DecidableEq

def keyOf (up : Bool) : Control := if up then .volumeUp else .volumeDown

def keyChange (up : Bool) : Int := if up then volumeStepPct else -volumeStepPct

/-- What the speaker answers to MCU+VOL. -/
def echoText (v : Int) : String := "AXX+VOL+" ++ zfill 3 (toString v)

/-- The object and the speaker itself, which takes every packet at once and echoes it some time
later, the first first. -/
structure Line where
  speaker : Speaker
  volume : Int
  echoes : List Int := []

def Line.key (l : Line) (up : Bool) : Line :=
  let b := (keyOf up).run l.speaker .ok
  let sent := sentVolume l.speaker b
  { speaker := b, volume := sent.getD l.volume, echoes := l.echoes ++ sent.toList }

def exchange (py : PyJson) (l : Line) : Round → Option Line
  | .key up => some (l.key up)
  | .echo =>
    match l.echoes with
    | [] => none
    | v :: rest => some { l with speaker := l.speaker.onPayload py (echoText v), echoes := rest }

/-- Where the steps of the keys lead, one after the other. -/
def allSteps (v : Int) : List Round → Int
  | [] => v
  | .key up :: rounds => allSteps (clampPct (v + keyChange up)) rounds
  | .echo :: rounds => allSteps v rounds

/-- The key finds the volume last echoed to be the speaker's, or one from which the step is the
same. -/
def Caught (l : Line) : Round → Prop
  | .key up => SameStep (l.speaker.state.volume.getD 0) l.volume (keyChange up)
  | .echo => True

instance : ∀ l r, Decidable (Caught l r)
  | l, .key up => inferInstanceAs
    (Decidable (SameStep (l.speaker.state.volume.getD 0) l.volume (keyChange up)))
  | _, .echo => .isTrue trivial

/-- A key that is executed, on a link that takes its packet and with no soft mute. -/
theorem run_key {b : Speaker} (hready : b.state.ready = true) (hwriter : b.writer = true)
    (hplain : b.physicalMuted = false) (up : Bool) : (keyOf up).run b .ok =
      { b with
        state := { b.state with lastError := none }
        commands := b.commands ++
          [⟨volPayload (clampPct (b.state.volume.getD 0 + keyChange up)), true⟩] } := by
  have hstep (change : Int) (action : String) : (b.stepVolume change action .ok).1 =
      { b with
        state := { b.state with lastError := none }
        commands := b.commands ++
          [⟨volPayload (clampPct (b.state.volume.getD 0 + change)), true⟩] } := by
    unfold Speaker.stepVolume
    rw [if_neg (by simp [hplain]), tcpCommand_fst]
    unfold Speaker.sendControl Speaker.send
    rw [if_neg (by simp [hready]), if_neg (by simp [hwriter])]
    rfl
  cases up with
  | true => rw [keyOf, if_pos rfl, Control.run, Speaker.volumeUp, hstep, keyChange, if_pos rfl]
  | false => rw [keyOf, if_neg Bool.false_ne_true, Control.run, Speaker.volumeDown, hstep, keyChange,
      if_neg Bool.false_ne_true]

/-- An echo as `_on_payload` takes it apart. -/
theorem echoText_parts {v : Int} (hrange : 0 ≤ v ∧ v ≤ 100) :
    strip (echoText v) = echoText v ∧ dropAmp (echoText v) = echoText v ∧
      startsWith "AXX+VOL+" (echoText v) = true ∧ int? (lastField (echoText v)) = some v := by
  have hchars : (echoText v).toList = "AXX+VOL+".toList ++ pctChars v := by
    rw [echoText, String.toList_append, zfill_pct hrange]
  have hplain := pctChars_plain hrange
  refine ⟨strip_eq_self fun c hc => ?_, ?_, ?_, int_lastField "AXX+VOL".toList hrange hchars⟩
  · rw [hchars] at hc
    obtain hpre | hpct := List.mem_append.mp hc
    · have hall : ("AXX+VOL+".toList.all fun c => !isSpace c) = true := by decide
      simpa using List.all_eq_true.mp hall c hpre
    · exact (hplain c hpct).1
  · have hlast : endsWith '&' (echoText v) = false := by
      have hmem : Char.ofNat (48 + v.toNat % 10) ∈ pctChars v := by simp [pctChars]
      have hne := (hplain _ hmem).2
      rw [endsWith, hchars, pctChars]
      simp only [List.mem_cons, not_or] at hne
      simpa using hne.2.2.2.1
    rw [dropAmp, hlast, if_neg Bool.false_ne_true]
  · rw [startsWith, hchars]
    exact List.isPrefixOf_iff_prefix.mpr (List.prefix_append _ _)

/-- An echo changes the volume that is kept. -/
theorem onPayload_echo (py : PyJson) (b : Speaker) {v : Int} (hrange : 0 ≤ v ∧ v ≤ 100) :
    ∃ signals, b.onPayload py (echoText v) =
      { b with state := { b.state with volume := some v }, signals := signals } := by
  obtain ⟨hstrip, hamp, hstart, hvol⟩ := echoText_parts hrange
  have hclamp : clampPct v = v := by
    unfold clampPct
    omega
  unfold Speaker.onPayload
  dsimp only
  rw [hstrip, hamp, if_pos hstart]
  unfold Speaker.handleVol
  rw [hstrip, hvol]
  dsimp only
  obtain ⟨signals, heq⟩ := applyUpdates_eq b { volumePct := some v }
  rw [Option.map_some, hclamp] at heq
  exact ⟨signals, heq⟩

/-- The link is up, there is no soft mute, and the last echo to come tells the speaker's volume. -/
structure Linked (l : Line) : Prop where
  ready : l.speaker.state.ready = true
  writer : l.speaker.writer = true
  plain : l.speaker.physicalMuted = false
  range : ∀ v ∈ l.echoes, 0 ≤ v ∧ v ≤ 100
  agrees : l.echoes.getLast?.getD (l.speaker.state.volume.getD 0) = l.volume

theorem key_eq {l : Line} (h : Linked l) (up : Bool) :
    ∃ b, l.key up = ⟨b, clampPct (l.speaker.state.volume.getD 0 + keyChange up),
        l.echoes ++ [clampPct (l.speaker.state.volume.getD 0 + keyChange up)]⟩ ∧
      b.state.ready = true ∧ b.writer = true ∧ b.physicalMuted = false := by
  have hrun := run_key h.ready h.writer h.plain up
  have hsent : sentVolume l.speaker ((keyOf up).run l.speaker .ok) =
      some (clampPct (l.speaker.state.volume.getD 0 + keyChange up)) := by
    rw [hrun, sentVolume, List.drop_left, List.findSome?_cons, if_pos rfl, volumeOf_volPayload]
  refine ⟨(keyOf up).run l.speaker .ok, ?_, ?_⟩
  · rw [Line.key, hsent]
    rfl
  · rw [hrun]
    exact ⟨h.ready, h.writer, h.plain⟩

/-- What an echo does to the line. -/
theorem exchange_echo {py : PyJson} {l m : Line} (h : exchange py l .echo = some m) :
    ∃ v rest, l.echoes = v :: rest ∧
      m = { l with speaker := l.speaker.onPayload py (echoText v), echoes := rest } := by
  rw [exchange] at h
  cases hechoes : l.echoes with
  | nil => simp [hechoes] at h
  | cons v rest =>
    rw [hechoes] at h
    exact ⟨v, rest, rfl, (Option.some.inj h).symm⟩

theorem linked_exchange {py : PyJson} {l m : Line} {r : Round} (h : Linked l)
    (hstep : exchange py l r = some m) : Linked m := by
  cases r with
  | key up =>
    obtain rfl := Option.some.inj hstep
    obtain ⟨b, heq, hready, hwriter, hplain⟩ := key_eq h up
    rw [heq]
    refine ⟨hready, hwriter, hplain, fun v hv => ?_, by simp⟩
    obtain hold | hnew := List.mem_append.mp hv
    · exact h.range v hold
    · rw [List.mem_singleton.mp hnew]
      unfold clampPct
      omega
  | echo =>
    obtain ⟨v, rest, hechoes, rfl⟩ := exchange_echo hstep
    have hrange := h.range
    have hagrees := h.agrees
    rw [hechoes] at hrange hagrees
    obtain ⟨hv, hrest⟩ := List.forall_mem_cons.mp hrange
    obtain ⟨signals, heq⟩ := onPayload_echo py l.speaker hv
    rw [heq]
    refine ⟨h.ready, h.writer, h.plain, hrest, ?_⟩
    rw [List.getLast?_cons, Option.getD_some] at hagrees
    exact hagrees

/-- Once every echo has come, the next key takes the speaker where it should. -/
theorem caught_of_echoed {l : Line} (h : Linked l) (hechoes : l.echoes = []) (r : Round) :
    Caught l r := by
  cases r with
  | echo => trivial
  | key up =>
    have hagrees := h.agrees
    rw [hechoes] at hagrees
    exact .inl hagrees

/-- The next key does what its step should exactly if it is caught up with. -/
theorem exchange_volume_iff {py : PyJson} {l m : Line} (h : Linked l) {r : Round}
    (hstep : exchange py l r = some m) : m.volume = allSteps l.volume [r] ↔ Caught l r := by
  cases r with
  | key up =>
    obtain rfl := Option.some.inj hstep
    obtain ⟨b, heq, -⟩ := key_eq h up
    rw [heq, Caught, ← clampPct_eq_iff]
    exact Iff.rfl
  | echo =>
    obtain ⟨v, rest, -, rfl⟩ := exchange_echo hstep
    exact iff_of_true rfl trivial

theorem allSteps_cons (v : Int) (r : Round) (rounds : List Round) :
    allSteps v (r :: rounds) = allSteps (allSteps v [r]) rounds := by
  cases r <;> rfl

/-- After every part of the run, the speaker is where the steps of that part lead. -/
def Kept (py : PyJson) (l : Line) (rounds : List Round) : Prop :=
  ∀ before after m, rounds = before ++ after → execute (exchange py) l before = some m →
    m.volume = allSteps l.volume before

theorem kept_iff {py : PyJson} {rounds : List Round} {l q : Line} (h : Linked l)
    (hrun : execute (exchange py) l rounds = some q) :
    Kept py l rounds ↔ Along (exchange py) Caught l rounds := by
  induction rounds generalizing l with
  | nil =>
    refine iff_of_true (fun before after m heq hm => ?_) trivial
    obtain ⟨rfl, -⟩ := List.append_eq_nil_iff.mp heq.symm
    obtain rfl := Option.some.inj hm
    rfl
  | cons r rounds ih =>
    obtain ⟨t, ht, hrest⟩ := Option.bind_eq_some_iff.mp hrun
    have hvolume := exchange_volume_iff h ht
    rw [Along, ht]
    dsimp only
    rw [← ih (linked_exchange h ht) hrest]
    constructor
    · intro hkept
      have hfirst : t.volume = allSteps l.volume [r] :=
        hkept [r] rounds t rfl (by rw [execute_cons ht]; rfl)
      refine ⟨hvolume.mp hfirst, fun before after m heq hm => ?_⟩
      have hm' := hkept (r :: before) after m (by rw [heq]; rfl) (by rw [execute_cons ht, hm])
      rw [hm', allSteps_cons, hfirst]
    · intro hall before after m heq hm
      obtain ⟨hcaught, hkept⟩ := hall
      cases before with
      | nil =>
        obtain rfl := Option.some.inj hm
        rfl
      | cons r' before =>
        obtain ⟨rfl, htail⟩ := List.cons.inj heq
        rw [execute_cons ht] at hm
        rw [hkept before after m htail hm, allSteps_cons, hvolume.mpr hcaught]

/-- From an agreed volume, the speaker is all along where the steps executed so far lead exactly if
each key finds the last echo to have come, or a volume from which the step is the same. -/
theorem steps_kept_iff (py : PyJson) {b : Speaker} {v : Int} (hready : b.state.ready = true)
    (hwriter : b.writer = true) (hplain : b.physicalMuted = false)
    (hvolume : b.state.volume = some v) {rounds : List Round} {q : Line}
    (hrun : execute (exchange py) ⟨b, v, []⟩ rounds = some q) :
    Kept py ⟨b, v, []⟩ rounds ↔ Along (exchange py) Caught ⟨b, v, []⟩ rounds :=
  kept_iff ⟨hready, hwriter, hplain, nofun, by rw [hvolume]; rfl⟩ hrun

/-- Two presses, each echoed before the next key, and a third on top of the second's echo. -/
def echoedRounds : List Round := [.key true, .echo, .key true, .echo, .key false]

theorem steps_kept_iff_echoed : ∃ q, execute (exchange samplePy) ⟨sampleSpeaker, 40, []⟩ echoedRounds =
    some q ∧ Kept samplePy ⟨sampleSpeaker, 40, []⟩ echoedRounds := by
  have hsome : (execute (exchange samplePy) ⟨sampleSpeaker, 40, []⟩ echoedRounds).isSome = true := by
    decide +kernel
  obtain ⟨q, hq⟩ := Option.isSome_iff_exists.mp hsome
  exact ⟨q, hq, (steps_kept_iff samplePy rfl rfl rfl rfl hq).mpr (by decide +kernel)⟩

/-- Two presses within one echo, which come to one step. -/
def lateRounds : List Round := [.key true, .key true, .echo, .echo]

theorem step_lost : sampleSpeaker.state.ready = true ∧ sampleSpeaker.writer = true ∧
    sampleSpeaker.physicalMuted = false ∧ sampleSpeaker.state.volume = some 40 ∧
    ∃ q, execute (exchange samplePy) ⟨sampleSpeaker, 40, []⟩ lateRounds = some q ∧ q.echoes = [] ∧
      q.volume = 42 ∧ allSteps 40 lateRounds = 44 := by
  have hrun : (execute (exchange samplePy) ⟨sampleSpeaker, 40, []⟩ lateRounds).map
      (fun q => (q.echoes, q.volume)) = some ([], 42) := by decide +kernel
  obtain ⟨q, hq, hend⟩ := Option.map_eq_some_iff.mp hrun
  obtain ⟨hechoes, hvolume⟩ := Prod.mk.inj hend
  exact ⟨rfl, rfl, rfl, rfl, q, hq, hechoes, hvolume, by decide⟩

end PiHub.VolumeKeys

import PiHub.SoftMute

/-! The Audio Pro's native multiroom group (audiopro_speaker.py): what the speaker's messages say of it,
the lookups of the host's address, and `leave_native_multiroom_if_needed`, each of which awaits answers
of other speakers. Times, and the status requests that follow, are left out. -/
namespace PiHub.Multiroom
open PiHub.Transition PiHub.PyStr PiHub.Keymap
open PiHub.Settings (startsWith)
open PiHub.SoftMute

/-- What stays the same: the addresses, and what Python makes of JSON. -/
structure Site where
  py : PyJson
  speakerIp : String
  knownSpeakerIps : List String

/-- `_run_scheduled_multiroom_guest_host_refresh`; `request_refresh`;
`leave_native_multiroom_if_needed`, with the addresses it goes by and whether this is its second
discovery pass. -/
inductive Kind where
  | scheduled
  | refresh
  | leave (speakerIps : List String) (retry : Bool)
  deriving DecidableEq

/-- Where a call is: in its sleep or its questions to the speaker, in `get_multiroom_slave_list` of the
first of these candidates, in `multiroom:SlaveKickout` to the host, in `multiroom:Ungroup`. -/
inductive Stage where
  | waiting
  | probing (candidates : List String)
  | kicking (hostIp : String)
  | ungrouping
  | done
  deriving DecidableEq

structure Call where
  kind : Kind
  stage : Stage := .waiting
  cancelled : Bool := false
  deriving DecidableEq

/-- `task.cancel()` if it is not done. -/
def Call.cancel (c : Call) : Call := if c.stage = .done then c else { c with cancelled := true }

/-- Calls are known by their numbers. -/
structure AudioProSpeaker where
  speaker : Speaker := {}
  multiroomHostIp : Option String := none
  enabled : Bool := false
  pendingMultiroomHostIpTask : Option Nat := none
  calls : List Call := []
  deriving DecidableEq

/-- The addresses that a getSlaveList answer lists. -/
def slaveIps (py : PyJson) (data : List (String × Json)) : List String :=
  match data.lookup "slave_list" with
  | some (.arr items) => items.filterMap fun item =>
    match item with
    | .obj fields => some (infoField py fields "ip")
    | _ => none
  | _ => []

namespace AudioProSpeaker

def guestActive (s : AudioProSpeaker) : Bool := s.speaker.state.multiroomGuestActive

def setGuestActive (s : AudioProSpeaker) (active : Bool) : AudioProSpeaker :=
  { s with speaker := { s.speaker with state :=
    { s.speaker.state with multiroomGuestActive := active } } }

def goto (s : AudioProSpeaker) (i : Nat) (c : Call) (stage : Stage) : AudioProSpeaker :=
  { s with calls := s.calls.set i { c with stage := stage } }

def cancelPending (s : AudioProSpeaker) : AudioProSpeaker :=
  { s with
    calls := s.pendingMultiroomHostIpTask.elim s.calls fun i => s.calls.modify i Call.cancel
    pendingMultiroomHostIpTask := none }

/-- `task is not None and not task.done()`. -/
def pendingRuns (s : AudioProSpeaker) : Bool :=
  s.pendingMultiroomHostIpTask.any fun i => s.calls[i]?.any fun c => c.stage ≠ .done

end AudioProSpeaker

section
variable (site : Site)

/-- The candidates of `_find_multiroom_host_ip`, each of them once. -/
def Site.candidates (speakerIps : List String) : List String :=
  ((speakerIps.map strip).filter fun ip => ip ≠ "" && ip ≠ strip site.speakerIp).eraseDups

/-- An answer that lists this speaker; `none` is a request that fails. -/
def Site.listed (answer : Option (List (String × Json))) : Bool :=
  answer.any fun data => strip site.speakerIp ∈ slaveIps site.py data

def Kind.speakerIps : Kind → List String
  | .leave speakerIps _ => speakerIps
  | _ => site.knownSpeakerIps

namespace AudioProSpeaker

/-! ### Lookups and leaving -/

/-- `resolve_multiroom_host_ip` after the search, and on in its caller. -/
def resolved (s : AudioProSpeaker) (i : Nat) (c : Call) (hostIp : Option String) : AudioProSpeaker :=
  let s := { s with multiroomHostIp := hostIp }
  match c.kind, hostIp with
  | .leave _ _, some hostIp => s.goto i c (.kicking hostIp)
  | _, _ => s.goto i c .done

/-- The loop of `_find_multiroom_host_ip`. -/
def probe (s : AudioProSpeaker) (i : Nat) (c : Call) : List String → AudioProSpeaker
  | [] => s.resolved i c none
  | candidates => s.goto i c (.probing candidates)

def resolve (s : AudioProSpeaker) (i : Nat) (c : Call) : AudioProSpeaker :=
  s.probe i c (site.candidates (c.kind.speakerIps site))

def answered (s : AudioProSpeaker) (i : Nat) (c : Call) (candidate : String) (rest : List String)
    (answer : Option (List (String × Json))) : AudioProSpeaker :=
  if site.listed answer then s.resolved i c (some candidate) else s.probe i c rest

/-- `refresh_multiroom_guest_host_ip`. -/
def refreshGuestHostIp (s : AudioProSpeaker) (i : Nat) (c : Call) : AudioProSpeaker :=
  if !s.guestActive then { s with multiroomHostIp := none }.goto i c .done else s.resolve site i c

/-- After the sleep, or after the questions. -/
def looksUp (s : AudioProSpeaker) (i : Nat) (c : Call) : AudioProSpeaker :=
  if (c.kind = .scheduled && !s.enabled) || !s.guestActive || site.knownSpeakerIps = [] then
    s.goto i c .done
  else s.refreshGuestHostIp site i c

/-- `_request_multiroom_guest_host_refresh`. -/
def requestHostRefresh (s : AudioProSpeaker) : AudioProSpeaker :=
  if !s.enabled || site.knownSpeakerIps = [] || !s.guestActive || s.pendingRuns then s
  else
    { s with
      pendingMultiroomHostIpTask := some s.calls.length
      calls := s.calls ++ [{ kind := .scheduled }] }

/-- `leave_native_multiroom_if_needed` up to its first `await`. -/
def leave (s : AudioProSpeaker) (speakerIps : Option (List String)) : AudioProSpeaker :=
  let c : Call := { kind := .leave (speakerIps.getD site.knownSpeakerIps) false }
  let i := s.calls.length
  let t := { s with calls := s.calls ++ [c] }
  if s.guestActive then
    match s.multiroomHostIp.filter (· ≠ "") with
    | some hostIp => t.goto i c (.kicking hostIp)
    | none => t.resolve site i c
  else if s.speaker.state.multiroomHostActive then t.goto i c .ungrouping
  else t.goto i c .done

/-- The body of a SlaveKickout's answer. Where it is not OK the address may be stale: it is looked up
again, once. -/
def kicked (s : AudioProSpeaker) (i : Nat) (c : Call) (body : Option String) : AudioProSpeaker :=
  match c.kind, body with
  | .leave speakerIps retry, some body =>
    if body = "OK" then { s.setGuestActive false with multiroomHostIp := none }.goto i c .done
    else if retry then s.goto i c .done
    else { s with multiroomHostIp := none }.resolve site i { c with kind := .leave speakerIps true }
  | _, _ => s.goto i c .done

def ungrouped (s : AudioProSpeaker) (i : Nat) (c : Call) (body : Option String) : AudioProSpeaker :=
  if body = some "OK" then
    { s with speaker := { s.speaker with state :=
      { s.speaker.state with multiroomHostActive := false, multiroomSlaveCount := 0 } } }.goto i c .done
  else s.goto i c .done

/-! ### Messages -/

/-- `_handle_slv`; AXX+SLV+NOT makes it forget the host. -/
def handleSlv (s : AudioProSpeaker) (payload : String) : AudioProSpeaker :=
  { s with
    speaker := s.speaker.handleSlv payload
    multiroomHostIp :=
      if strip (lastField (strip payload)) = "NOT" then none else s.multiroomHostIp }

/-- `_handle_ply_inf` from `_apply_updates` on, with what a change of the guest state brings. -/
def takeInfo (s : AudioProSpeaker) (info : Info) : AudioProSpeaker :=
  let active := info.multiroomGuestActive s.speaker.state.source
  let t := { s with speaker := s.speaker.takeInfo info }
  if s.guestActive = active then t
  else if active then t.requestHostRefresh site
  else { t with multiroomHostIp := none }.cancelPending

def onPayload (s : AudioProSpeaker) (payload : String) : AudioProSpeaker :=
  let p := dropAmp (strip payload)
  if startsWith "AXX+VOL+" p then { s with speaker := s.speaker.handleVol p }
  else if startsWith "AXX+MUT+" p then s
  else if startsWith "AXX+PLM+" p then { s with speaker := s.speaker.handlePlm p }
  else if startsWith "AXX+PLY+INF" p then (parsePlyInfJson site.py p).elim s (s.takeInfo site)
  else if startsWith "AXX+PMS+" p then { s with speaker := s.speaker.handlePms p }
  else if startsWith "AXX+POW+" p then { s with speaker := s.speaker.handlePow p }
  else if startsWith "AXX+PST+" p then { s with speaker := s.speaker.handlePst p }
  else if startsWith "AXX+SLV+" p then s.handleSlv p
  else s

end AudioProSpeaker

/-- `start` and `stop`; the link opens, or is taken down; a message; `request_refresh` and
`leave_native_multiroom_if_needed` are called; a call goes on to its lookup, gets the answer of the
candidate it asks, of the host, or of this speaker, or is cancelled; a scheduled one's done-callback. -/
inductive Event where
  | starts
  | stops
  | connects
  | disconnects
  | payload (text : String)
  | refreshes
  | leaves (speakerIps : Option (List String))
  | looksUp (i : Nat)
  | answers (i : Nat) (answer : Option (List (String × Json)))
  | kickoutAnswers (i : Nat) (body : Option String)
  | ungroupAnswers (i : Nat) (body : Option String)
  | cancelled (i : Nat)
  | callback (i : Nat)

namespace AudioProSpeaker

/-- Call `i`, if it has not been cancelled. -/
def callAt (s : AudioProSpeaker) (i : Nat) : Option Call := s.calls[i]?.filter fun c => !c.cancelled

/-- `_disconnect`, as far as the group is concerned. -/
def disconnect (s : AudioProSpeaker) : AudioProSpeaker :=
  { s with speaker := s.speaker.disconnect }.cancelPending

end AudioProSpeaker

def step (s : AudioProSpeaker) : Event → Option AudioProSpeaker
  | .starts => some { s with enabled := true }
  | .stops => some { s with enabled := false }.cancelPending
  | .connects => some { s with speaker := s.speaker.handle site.py .connects }
  | .disconnects => some s.disconnect
  | .payload text => some (s.onPayload site text)
  | .refreshes =>
    some (if s.enabled then { s with calls := s.calls ++ [{ kind := .refresh }] } else s)
  | .leaves speakerIps => some (s.leave site speakerIps)
  | .looksUp i =>
    ((s.callAt i).filter fun c => c.stage = .waiting).map fun c => s.looksUp site i c
  | .answers i answer =>
    (s.callAt i).bind fun c =>
      match c.stage with
      | .probing (candidate :: rest) => some (s.answered site i c candidate rest answer)
      | _ => none
  | .kickoutAnswers i body =>
    (s.callAt i).bind fun c =>
      match c.stage with
      | .kicking _ => some (s.kicked site i c body)
      | _ => none
  | .ungroupAnswers i body =>
    ((s.callAt i).filter fun c => c.stage = .ungrouping).map fun c => s.ungrouped i c body
  | .cancelled i =>
    (s.calls[i]?.filter fun c => c.stage ≠ .done ∧ (c.cancelled ∨ c.kind ≠ .scheduled)).map fun c =>
      s.goto i c .done
  | .callback i =>
    if s.pendingMultiroomHostIpTask = some i ∧ !s.pendingRuns then
      some { s with pendingMultiroomHostIpTask := none }
    else none

end

/-! ### The group -/

/-- What the speaker's state says of the group. -/
structure Group where
  guestActive : Bool
  hostActive : Bool
  slaveCount : Nat
  hostIp : Option String
  deriving DecidableEq

def AudioProSpeaker.group (s : AudioProSpeaker) : Group :=
  ⟨s.speaker.state.multiroomGuestActive, s.speaker.state.multiroomHostActive,
    s.speaker.state.multiroomSlaveCount, s.multiroomHostIp⟩

/-- Hosting means having guests, and there is a host only for a guest. -/
structure Group.Coherent (g : Group) : Prop where
  hosting : g.hostActive = true ↔ 0 < g.slaveCount
  host : g.hostIp ≠ none → g.guestActive = true

/-- How the group can change; the flag is for a host that has been found. -/
inductive Change (g : Group) : Bool → Group → Prop
  | same : Change g false g
  | forgets : Change g false { g with hostIp := none }
  | joins : Change g false { g with guestActive := true }
  | leaves : Change g false { g with guestActive := false, hostIp := none }
  | counts (slaveCount : Nat) :
      Change g false { g with slaveCount := slaveCount, hostActive := slaveCount > 0 }
  | finds (hostIp : String) : Change g true { g with hostIp := some hostIp }

theorem Change.hosting {g g' : Group} {found : Bool} (h : Change g found g')
    (hg : g.hostActive = true ↔ 0 < g.slaveCount) : g'.hostActive = true ↔ 0 < g'.slaveCount := by
  cases h with
  | same | forgets | joins | leaves | finds => exact hg
  | counts slaveCount => exact decide_eq_true_iff

/-- A host that is found is one too many unless the speaker is a guest; nothing else spoils it. -/
theorem Change.coherent_iff {g g' : Group} {found : Bool} (h : Change g found g') (hg : g.Coherent) :
    (found = true → g.guestActive = true) ↔ g'.Coherent := by
  have hhosting := h.hosting hg.hosting
  cases h with
  | same => exact iff_of_true nofun hg
  | forgets => exact iff_of_true nofun ⟨hhosting, fun hne => absurd rfl hne⟩
  | joins => exact iff_of_true nofun ⟨hhosting, fun _ => rfl⟩
  | leaves => exact iff_of_true nofun ⟨hhosting, fun hne => absurd rfl hne⟩
  | counts => exact iff_of_true nofun ⟨hhosting, hg.host⟩
  | finds => exact ⟨fun hguest => ⟨hhosting, fun _ => hguest rfl⟩, fun hg' _ => hg'.host nofun⟩

variable {site : Site}

theorem group_resolved (s : AudioProSpeaker) (i : Nat) (c : Call) (hostIp : Option String) :
    (s.resolved i c hostIp).group = { s.group with hostIp := hostIp } := by
  unfold AudioProSpeaker.resolved
  split <;> rfl

/-- A search that goes on changes nothing yet; one that ends in vain forgets the host. -/
theorem group_probe (s : AudioProSpeaker) (i : Nat) (c : Call) (candidates : List String) :
    (s.probe i c candidates).group =
      if candidates = [] then { s.group with hostIp := none } else s.group := by
  cases candidates with
  | nil => exact group_resolved s i c none
  | cons => rfl

theorem change_probe (s : AudioProSpeaker) (i : Nat) (c : Call) (candidates : List String) :
    Change s.group false (s.probe i c candidates).group := by
  rw [group_probe]
  split_ifs
  · exact .forgets
  · exact .same

theorem change_resolve (s : AudioProSpeaker) (i : Nat) (c : Call) :
    Change s.group false (s.resolve site i c).group :=
  change_probe s i c _

theorem change_refreshGuestHostIp (s : AudioProSpeaker) (i : Nat) (c : Call) :
    Change s.group false (s.refreshGuestHostIp site i c).group := by
  unfold AudioProSpeaker.refreshGuestHostIp
  split
  · exact .forgets
  · exact change_resolve s i c

theorem change_looksUp (s : AudioProSpeaker) (i : Nat) (c : Call) :
    Change s.group false (s.looksUp site i c).group := by
  unfold AudioProSpeaker.looksUp
  split
  · exact .same
  · exact change_refreshGuestHostIp s i c

theorem change_answered (s : AudioProSpeaker) (i : Nat) (c : Call) (candidate : String)
    (rest : List String) (answer : Option (List (String × Json))) :
    Change s.group (site.listed answer) (s.answered site i c candidate rest answer).group := by
  unfold AudioProSpeaker.answered
  cases site.listed answer with
  | true =>
    rw [if_pos rfl, group_resolved]
    exact .finds candidate
  | false =>
    rw [if_neg Bool.false_ne_true]
    exact change_probe s i c rest

theorem change_leave (s : AudioProSpeaker) (speakerIps : Option (List String)) :
    Change s.group false (s.leave site speakerIps).group := by
  unfold AudioProSpeaker.leave
  dsimp only
  split_ifs
  · split
    · exact .same
    · exact @change_resolve site { s with calls := s.calls ++ [_] } _ _
  · exact .same
  · exact .same

theorem change_kicked (s : AudioProSpeaker) (i : Nat) (c : Call) (body : Option String) :
    Change s.group false (s.kicked site i c body).group := by
  unfold AudioProSpeaker.kicked
  split
  · split_ifs
    · exact .leaves
    · exact .same
    · -- the stale address is forgotten, whether or not the second search has begun
      rw [AudioProSpeaker.resolve, group_probe]
      split_ifs <;> exact .forgets
  · exact .same

theorem change_ungrouped (s : AudioProSpeaker) (i : Nat) (c : Call) (body : Option String) :
    Change s.group false (s.ungrouped i c body).group := by
  unfold AudioProSpeaker.ungrouped
  split_ifs
  · exact .counts 0
  · exact .same

/-! ### Messages to the group -/

/-- A message that is no full status changes at most the count of the slaves. -/
theorem change_of_effect {s : AudioProSpeaker} {b : Speaker} {r : Reading}
    (h : Effect s.speaker r none b) : Change s.group false { s with speaker := b }.group := by
  cases h with
  | same | powered => exact .same
  | updates u =>
    obtain ⟨signals, heq⟩ := applyUpdates_eq s.speaker u
    rw [heq]
    exact .same
  | slaves slaveCount => exact .counts slaveCount

theorem change_handleSlv (s : AudioProSpeaker) (payload : String) :
    Change s.group false (s.handleSlv payload).group := by
  unfold AudioProSpeaker.handleSlv
  by_cases hcode : strip (lastField (strip payload)) = "NOT"
  · have hsame : s.speaker.handleSlv payload = s.speaker := by
      unfold Speaker.handleSlv
      rw [hcode]
      exact if_neg (by decide)
    rw [if_pos hcode, hsame]
    exact .forgets
  · rw [if_neg hcode]
    exact change_of_effect (effect_handleSlv s.speaker payload)

theorem group_takeInfo (s : AudioProSpeaker) (info : Info) :
    { s with speaker := s.speaker.takeInfo info }.group =
      { s.group with guestActive := info.multiroomGuestActive s.speaker.state.source } := by
  obtain ⟨signals, heq⟩ := applyUpdates_eq s.speaker (info.updates s.speaker.state.source)
  unfold AudioProSpeaker.group Speaker.takeInfo
  rw [heq]

theorem group_requestHostRefresh (s : AudioProSpeaker) :
    (s.requestHostRefresh site).group = s.group := by
  unfold AudioProSpeaker.requestHostRefresh
  split_ifs <;> rfl

theorem change_takeInfo (s : AudioProSpeaker) (info : Info) :
    Change s.group false (s.takeInfo site info).group := by
  have hgroup := group_takeInfo s info
  unfold AudioProSpeaker.takeInfo
  dsimp only
  split_ifs with hsame hactive
  · rw [hgroup, ← hsame]
    exact .same
  · rw [group_requestHostRefresh, hgroup, hactive]
    exact .joins
  · have hleaves : ({ { s with speaker := s.speaker.takeInfo info } with
        multiroomHostIp := none } : AudioProSpeaker).cancelPending.group =
        { s.group with guestActive := false, hostIp := none } := by
      rw [← Bool.eq_false_iff.mpr hactive]
      exact congrArg (fun g : Group => { g with hostIp := none }) hgroup
    rw [hleaves]
    exact .leaves

theorem change_onPayload (s : AudioProSpeaker) (payload : String) :
    Change s.group false (s.onPayload site payload).group := by
  unfold AudioProSpeaker.onPayload
  dsimp only
  split_ifs
  · exact change_of_effect (effect_handleVol s.speaker _)
  · exact .same
  · exact change_of_effect (effect_handlePlm s.speaker _)
  · cases parsePlyInfJson site.py (dropAmp (strip payload)) with
    | none => exact .same
    | some info => exact change_takeInfo s info
  · exact change_of_effect (effect_handlePms s.speaker _)
  · exact change_of_effect (effect_handlePow s.speaker _)
  · exact change_of_effect (effect_handlePst s.speaker _)
  · exact change_handleSlv s _
  · exact .same

theorem requestHostRefresh_speaker (s : AudioProSpeaker) :
    (s.requestHostRefresh site).speaker = s.speaker := by
  unfold AudioProSpeaker.requestHostRefresh
  split_ifs <;> rfl

theorem takeInfo_speaker (s : AudioProSpeaker) (info : Info) :
    (s.takeInfo site info).speaker = s.speaker.takeInfo info := by
  unfold AudioProSpeaker.takeInfo
  dsimp only
  split_ifs
  · rfl
  · exact requestHostRefresh_speaker _
  · rfl

theorem handlePlyInf_speaker (s : AudioProSpeaker) (p : String) :
    ((parsePlyInfJson site.py p).elim s (s.takeInfo site)).speaker =
      s.speaker.handlePlyInf site.py p := by
  unfold Speaker.handlePlyInf
  cases parsePlyInfJson site.py p with
  | none => rfl
  | some info => exact takeInfo_speaker s info

theorem handleSlv_speaker (s : AudioProSpeaker) (p : String) :
    (s.handleSlv p).speaker = s.speaker.handleSlv p := by
  unfold AudioProSpeaker.handleSlv
  dsimp only

/-- To the rest of the state a message is what it is without the lookups. -/
theorem onPayload_speaker (s : AudioProSpeaker) (payload : String) :
    (s.onPayload site payload).speaker = s.speaker.onPayload site.py payload := by
  unfold AudioProSpeaker.onPayload Speaker.onPayload
  simp only [apply_ite AudioProSpeaker.speaker, handlePlyInf_speaker, handleSlv_speaker]

/-! ### Runs -/

/-- The event is an answer by which a lookup finds the host. -/
def finds (site : Site) (s : AudioProSpeaker) : Event → Bool
  | .answers i answer =>
    (s.callAt i).any fun c =>
      match c.stage with
      | .probing (_ :: _) => site.listed answer
      | _ => false
  | _ => false

theorem change_step {s t : AudioProSpeaker} {e : Event} (h : step site s e = some t) :
    Change s.group (finds site s e) t.group := by
  cases e with
  | starts | stops | connects | disconnects =>
    obtain rfl := Option.some.inj h
    exact .same
  | payload text =>
    obtain rfl := Option.some.inj h
    exact change_onPayload s text
  | refreshes =>
    obtain rfl := Option.some.inj h
    split_ifs <;> exact .same
  | leaves speakerIps =>
    obtain rfl := Option.some.inj h
    exact change_leave s speakerIps
  | looksUp i =>
    obtain ⟨c, _, rfl⟩ := Option.map_eq_some_iff.mp h
    exact change_looksUp s i c
  | answers i answer =>
    obtain ⟨c, hc, h⟩ := Option.bind_eq_some_iff.mp h
    simp only [finds, hc, Option.any_some]
    split at h
    · next hstage =>
      obtain rfl := Option.some.inj h
      exact change_answered s i c _ _ answer
    · cases h
  | kickoutAnswers i body =>
    obtain ⟨c, _, h⟩ := Option.bind_eq_some_iff.mp h
    split at h
    · obtain rfl := Option.some.inj h
      exact change_kicked s i c body
    · cases h
  | ungroupAnswers i body =>
    obtain ⟨c, _, rfl⟩ := Option.map_eq_some_iff.mp h
    exact change_ungrouped s i c body
  | cancelled i =>
    obtain ⟨c, _, rfl⟩ := Option.map_eq_some_iff.mp h
    exact .same
  | callback i =>
    obtain ⟨_, rfl⟩ := of_guard h
    exact .same

/-- A lookup finds the host while the speaker is still a guest. -/
def StillGuest (site : Site) (s : AudioProSpeaker) (e : Event) : Prop :=
  finds site s e = true → s.guestActive = true

instance (s : AudioProSpeaker) (e : Event) : Decidable (StillGuest site s e) := by
  unfold StillGuest
  infer_instance

/-- Whatever comes in between, the speaker hosts exactly when it counts slaves; and there is a host's
address only for a guest, in every state of a run, exactly if each lookup of the run that finds the
host finds it while the speaker is still a guest. -/
theorem multiroom_coherent_iff {s : AudioProSpeaker} {es : List Event}
    (h : execute (step site) {} es = some s) :
    (s.speaker.state.multiroomHostActive = true ↔ 0 < s.speaker.state.multiroomSlaveCount) ∧
    (Along (step site) (StillGuest site) {} es ↔
      ∀ before after u, es = before ++ after → execute (step site) {} before = some u →
        u.group.Coherent) := by
  have hosting : s.group.hostActive = true ↔ 0 < s.group.slaveCount :=
    (reachable_of_execute h).invariant (P := fun s => s.group.hostActive = true ↔ 0 < s.group.slaveCount)
      (by decide) fun _ _ _ ht _ hstep => (change_step hstep).hosting ht
  refine ⟨hosting, along_iff_forall_states (P := fun s => s.group.Coherent) ?_ h ⟨by decide, by decide⟩⟩
  exact fun s e t hs hstep => (change_step hstep).coherent_iff hs

/-! The speaker is a guest, and then plays on its own. -/

def guestJson : String :=
  "\x7b\"type\":\"1\",\"mode\":\"99\"\x7d"

def aloneJson : String := "\x7b\"type\":\"0\",\"mode\":\"10\"\x7d"

def sampleSite : Site where
  py := {
    loads := fun raw =>
      if raw = guestJson then some [("type", .str "1"), ("mode", .str "99")]
      else if raw = aloneJson then some [("type", .str "0"), ("mode", .str "10")]
      else none
    repr := fun _ => "" }
  speakerIp := "10.0.0.5"
  knownSpeakerIps := ["10.0.0.5", "10.0.0.6"]

/-- The host's answer, from when it still had the guest. -/
def slaveList : List (String × Json) :=
  [("slaves", .int 1), ("slave_list", .arr [.obj [("ip", .str "10.0.0.5")]])]

/-- The scheduled lookup finds the host. -/
def joinsGroup : List Event :=
  [.starts, .connects, .payload ("AXX+PLY+INF" ++ guestJson), .looksUp 0, .answers 0 (some slaveList),
    .callback 0]

theorem multiroom_coherent_iff_joins : ∃ s, execute (step sampleSite) {} joinsGroup = some s ∧
    s.multiroomHostIp = some "10.0.0.6" ∧
    (s.speaker.state.multiroomHostActive = true ↔ 0 < s.speaker.state.multiroomSlaveCount) ∧
    ∀ before after u, joinsGroup = before ++ after →
      execute (step sampleSite) {} before = some u → u.group.Coherent := by
  have hruns : (execute (step sampleSite) {} joinsGroup).map (fun s => s.multiroomHostIp) =
      some (some "10.0.0.6") := by decide +kernel
  obtain ⟨s, hs, hip⟩ := Option.map_eq_some_iff.mp hruns
  have ⟨hosting, hcoherent⟩ := multiroom_coherent_iff hs
  exact ⟨s, hs, hip, hosting, hcoherent.mp (by decide +kernel)⟩

/-- `request_refresh` looks the host up, and the answer comes after the speaker has left the group. -/
def leavesGroup : List Event :=
  [.starts, .connects, .payload ("AXX+PLY+INF" ++ guestJson), .refreshes, .looksUp 1,
    .payload ("AXX+PLY+INF" ++ aloneJson), .answers 1 (some slaveList)]

theorem host_without_guest : ∃ s, execute (step sampleSite) {} leavesGroup = some s ∧
    s.multiroomHostIp = some "10.0.0.6" ∧ s.guestActive = false := by
  have hruns : (execute (step sampleSite) {} leavesGroup).map
      (fun s => (s.multiroomHostIp, s.guestActive)) = some (some "10.0.0.6", false) := by
    decide +kernel
  obtain ⟨s, hs, hends⟩ := Option.map_eq_some_iff.mp hruns
  exact ⟨s, hs, congrArg Prod.fst hends, congrArg Prod.snd hends⟩

end PiHub.Multiroom

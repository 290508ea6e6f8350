import PiHub.Text
import PiHub.TvPresence

/-! `reconcile_presence` of the Samsung TV (samsung_tv.py): the M-SEARCH burst and its replies, the
/dmr probe, and what the call returns, among the SSDP notifications and the probes of other
coroutines. It has a session: `start` makes one without a pause. -/
namespace PiHub.TvReconcile
open PiHub.Transition PiHub.PyStr PiHub.TvPresence

def msearchSt : String := "urn:schemas-upnp-org:device:MediaRenderer:1"
def msearchBurstCount : Nat := 3

/-- `str.upper`, and `urlparse(url).hostname` or the ValueError that it raises. -/
structure PyText where
  upper : String → String
  hostname : String → Except String (Option String)

/-- `s.split("\r\n")`. -/
def lines : List Char → List (List Char)
  | [] => [[]]
  | '\r' :: '\n' :: cs => [] :: lines cs
  | c :: cs =>
    match lines cs with
    | [] => [[c]]
    | l :: ls => (c :: l) :: ls

/-- `_parse_headers`, the last line first. -/
def parseHeaders (py : PyText) (packet : String) : List (String × String) :=
  ((lines packet.toList).filterMap (Text.splitOnce ':')).reverse.map fun kv =>
    (py.upper (strip (String.ofList kv.1)), strip (String.ofList kv.2))

/-- `datagram_received`. -/
def datagramEvidence (py : PyText) (tvIp text ip : String) : Option Evidence :=
  if ip ≠ tvIp then none
  else if !contains text "NOTIFY * HTTP/1.1" then none
  else
    let hdr := parseHeaders py text
    ssdpEvidence ((hdr.lookup "NTS").getD "") ((hdr.lookup "NT").getD "") (hdr.lookup "LOCATION")

/-- What `msearch_bootstrap` does with a reply: go on, raise, or return, with `notify_msearch`
taking it or not. -/
inductive Verdict where
  | ignored
  | raises (error : String)
  | rejected
  | accepted
  deriving DecidableEq

/-- `urlparse(location).hostname if location else None`. -/
def locationIp (py : PyText) (location : Option String) : Except String (Option String) :=
  match location.filter (· ≠ "") with
  | none => .ok none
  | some url => py.hostname url

/-- The first test of `notify_msearch`. -/
def dmrLocation (location : Option String) : Bool := location.all fun l => l = "" || contains l "/dmr"

def judge (py : PyText) (tvIp text ip : String) : Verdict :=
  if !contains text "HTTP/1.1 200 OK" then .ignored
  else
    let hdr := parseHeaders py text
    match locationIp py (hdr.lookup "LOCATION") with
    | .error error => .raises error
    | .ok host =>
      if hdr.lookup "ST" ≠ some msearchSt then .ignored
      else if ip ≠ tvIp ∧ host ≠ some tvIp then .ignored
      else if dmrLocation (hdr.lookup "LOCATION") then .accepted
      else .rejected

/-- What `recvfrom` comes to. -/
inductive Received where
  | reply (text ip : String)
  | timeout
  | error
  deriving DecidableEq

/-- What the call is suspended at: its sends and the gaps between them, `recvfrom`, the websocket
after an accepted reply, then the websocket or the probe, and the websocket after the probe. -/
inductive Await where
  | sending (sent : Nat)
  | receiving
  | searchWs
  | ws
  | probe
  | probeWs
  | returned
  deriving DecidableEq

/-- In `msearch_bootstrap`. -/
def Await.searching : Await → Bool
  | .sending _ | .receiving | .searchWs => true
  | _ => false

inductive Outcome where
  | presentTrue
  | presentFalse
  deriving DecidableEq

structure Result where
  outcome : Outcome
  presenceOn : Option Bool
  presenceSource : String
  changed : Bool
  errors : List String
  deriving DecidableEq

/-- The controller and the call; `evidence`, which is ghost, is what has been committed since it
began. -/
structure Reconcile where
  tv : TvController
  beforePresence : Option Bool
  beforeSource : String
  errors : List String := []
  await : Await
  evidence : List Evidence := []
  result : Option Result := none
  deriving DecidableEq

namespace Reconcile

def learn (r : Reconcile) (e : Evidence) : Reconcile :=
  { r with tv := r.tv.learn e, evidence := r.evidence ++ [e] }

def learned (r : Reconcile) : Option Evidence → Reconcile
  | none => r
  | some e => r.learn e

def goto (r : Reconcile) (a : Await) : Reconcile := { r with await := a }

def failed (r : Reconcile) (what error : String) : Reconcile :=
  { r with errors := r.errors ++ [what ++ "_failed:" ++ error] }

def returns (r : Reconcile) (outcome : Outcome) : Reconcile :=
  { r with
    await := .returned
    result := some
      { outcome := outcome
        presenceOn := r.tv.presenceCached
        presenceSource := r.tv.presenceSource
        changed := r.tv.presenceCached ≠ r.beforePresence || r.tv.presenceSource ≠ r.beforeSource
        errors := r.errors } }

/-- After `msearch_bootstrap`. -/
def afterSearch (r : Reconcile) : Reconcile :=
  r.goto (if r.tv.presenceCached = some true then .ws else .probe)

/-- The head of the loop over replies. -/
def loopHead (r : Reconcile) (expired : Bool) : Reconcile :=
  if expired then r.afterSearch else r.goto .receiving

/-- `notify_msearch` has committed presence. -/
def accept (r : Reconcile) : Reconcile :=
  if r.tv.presenceCached = some true then (r.learn .msearch).afterSearch
  else (r.learn .msearch).goto .searchWs

def heed (r : Reconcile) (expired : Bool) : Verdict → Reconcile
  | .ignored => r.loopHead expired
  | .raises error => (r.failed "msearch_bootstrap" error).afterSearch
  | .rejected => r.afterSearch
  | .accepted => r.accept

/-- `ensure_ws_connected` has returned or raised, and the TV was found on. -/
def connected (r : Reconcile) (error : Option String) : Reconcile :=
  (error.elim r (r.failed "ws_connect")).returns .presentTrue

/-- Neither the search nor the probe has found the TV. -/
def down (r : Reconcile) : Reconcile := (r.learn (.probeHttp false)).returns .presentFalse

def probed (r : Reconcile) : Except String Bool → Reconcile
  | .ok true => (r.learn (.probeHttp true)).goto .probeWs
  | .ok false => r.down
  | .error error => (r.failed "http_probe" error).down

end Reconcile

/-- The call up to its first pause; `error` is what the socket's set-up raises. -/
def begin (tv : TvController) (error : Option String) : Reconcile :=
  let r : Reconcile :=
    { tv := tv, beforePresence := tv.presenceCached, beforeSource := tv.presenceSource
      await := .sending 0 }
  error.elim r fun e => (r.failed "msearch_bootstrap" e).afterSearch

/-- A datagram at the SSDP listener, what another coroutine's probe is committed as, and what the
call's own awaits come to; `expired` says that the deadline for replies has passed. -/
inductive Event where
  | datagram (text ip : String)
  | otherProbe (up : Bool)
  | sent (ok expired : Bool)
  | received (what : Received) (expired : Bool)
  | wsConnects (error : Option String)
  | probeEnds (result : Except String Bool)

section
variable (py : PyText) (tvIp : String)

/-- What comes of `recvfrom` while the replies are awaited. -/
def Received.verdict : Received → Verdict
  | .reply text ip => judge py tvIp text ip
  | .timeout => .ignored
  | .error => .rejected

def step (r : Reconcile) : Event → Option Reconcile
  | .datagram text ip =>
    if r.await = .returned then none else some (r.learned (datagramEvidence py tvIp text ip))
  | .otherProbe up => if r.await = .returned then none else some (r.learn (.probeHttp up))
  | .sent ok expired =>
    match r.await with
    | .sending sent =>
      some (if ok ∧ sent + 1 < msearchBurstCount then r.goto (.sending (sent + 1))
        else r.loopHead expired)
    | _ => none
  | .received what expired =>
    match r.await with
    | .receiving => some (r.heed expired (what.verdict py tvIp))
    | _ => none
  | .wsConnects error =>
    match r.await with
    | .searchWs => some r.afterSearch
    | .ws | .probeWs => some (r.connected error)
    | _ => none
  | .probeEnds result =>
    match r.await with
    | .probe => some (r.probed result)
    | _ => none

/-! ### What a call rests on -/

/-- What an event is evidence of. -/
def Event.brings : Event → Option Evidence
  | .datagram text ip => datagramEvidence py tvIp text ip
  | .otherProbe up => some (.probeHttp up)
  | .received what _ => if what.verdict py tvIp = .accepted then some .msearch else none
  | .probeEnds (.ok true) => some (.probeHttp true)
  | _ => none

/-- The event brings nothing while the call searches, and nothing good later. -/
def Silent (r : Reconcile) (ev : Event) : Prop :=
  ∀ e ∈ ev.brings py tvIp, r.await.searching = false ∧ e.on = false

instance (r : Reconcile) (ev : Event) : Decidable (Silent py tvIp r ev) := by
  unfold Silent
  cases ev.brings py tvIp with
  | none => exact .isTrue nofun
  | some e => exact decidable_of_iff (r.await.searching = false ∧ e.on = false) (by simp)

end

def Reconcile.Found (r : Reconcile) : Prop := ∃ e ∈ r.evidence, e.on = true

/-- The TV is reported on and has been found since the call began, or it is reported off, which
the call has just committed. -/
def Reconcile.Fresh (r : Reconcile) (result : Result) : Prop :=
  (result.outcome = .presentTrue ∧ r.Found) ∨ (result.outcome = .presentFalse ∧
    r.evidence.getLast? = some (.probeHttp false) ∧ result.presenceOn = some false)

/-- Where a call stands that began with the presence `before`; `stale` says that nothing but it
speaks for the TV. -/
inductive Stage (stale : Prop) (before : Option Bool) (r : Reconcile) : Prop
  | searching : r.await.searching = true → (stale ↔ before = some true ∧ r.evidence = []) →
      r.tv.presenceCached = (r.evidence.getLast?.map Evidence.on).or before → Stage stale before r
  | ws : r.await = .ws → (stale ↔ ¬ r.Found) → Stage stale before r
  | probe : r.await = .probe → ¬ stale → Stage stale before r
  | probeWs : r.await = .probeWs → ¬ stale → r.Found → Stage stale before r
  | returned (result : Result) : r.await = .returned → r.result = some result →
      (r.Fresh result ↔ ¬ stale) → Stage stale before r

theorem found_learn (r : Reconcile) (e : Evidence) : (r.learn e).Found ↔ r.Found ∨ e.on = true := by
  simp [Reconcile.Found, Reconcile.learn, or_and_right, exists_or]

theorem presence_reconcile_learn (r : Reconcile) (e : Evidence) :
    (r.learn e).tv.presenceCached = some e.on := presence_learn r.tv e

theorem Stage.congr {stale stale' : Prop} {before : Option Bool} {r : Reconcile}
    (h : Stage stale before r) (hiff : stale' ↔ stale) : Stage stale' before r :=
  propext hiff ▸ h

/-- The search is over. -/
theorem stage_afterSearch {stale : Prop} {before : Option Bool} {r : Reconcile}
    (hstale : stale ↔ before = some true ∧ r.evidence = [])
    (hcached : r.tv.presenceCached = (r.evidence.getLast?.map Evidence.on).or before) :
    Stage stale before r.afterSearch := by
  unfold Reconcile.afterSearch
  split
  case isTrue hon =>
    refine .ws rfl ⟨fun h => ?_, fun hnone => hstale.mpr ?_⟩
    · rintro ⟨e, he, -⟩
      have hmem : e ∈ r.evidence := he
      rw [(hstale.mp h).2] at hmem
      cases hmem
    · cases hlast : r.evidence.getLast? with
      | none =>
        rw [hcached, hlast] at hon
        exact ⟨hon, List.getLast?_eq_none_iff.mp hlast⟩
      | some e =>
        -- the last evidence is what made presence True
        rw [hcached, hlast] at hon
        exact absurd ⟨e, List.mem_of_getLast? hlast, Option.some.inj hon⟩ hnone
  case isFalse hoff =>
    refine .probe rfl fun h => hoff ?_
    obtain ⟨hbefore, hnone⟩ := hstale.mp h
    rw [hcached, hnone, hbefore]
    rfl

theorem stage_loopHead {stale : Prop} {before : Option Bool} {r : Reconcile} (expired : Bool)
    (hstale : stale ↔ before = some true ∧ r.evidence = [])
    (hcached : r.tv.presenceCached = (r.evidence.getLast?.map Evidence.on).or before) :
    Stage stale before (r.loopHead expired) := by
  unfold Reconcile.loopHead
  split
  · exact stage_afterSearch hstale hcached
  · exact .searching rfl hstale hcached

theorem cached_learn (r : Reconcile) (e : Evidence) (before : Option Bool) :
    (r.learn e).tv.presenceCached = ((r.learn e).evidence.getLast?.map Evidence.on).or before := by
  rw [presence_reconcile_learn]
  simp [Reconcile.learn]

/-- Evidence comes in. -/
theorem stage_learn {stale : Prop} {before : Option Bool} {r : Reconcile} (h : Stage stale before r)
    (hrunning : r.await ≠ .returned) (e : Evidence) :
    Stage (stale ∧ r.await.searching = false ∧ e.on = false) before (r.learn e) := by
  have hevidence : (r.learn e).evidence ≠ [] := List.concat_ne_nil e r.evidence
  cases h with
  | searching hat hstale hcached =>
    refine .searching hat ⟨fun h => ?_, fun h => absurd h.2 hevidence⟩ (cached_learn r e before)
    exact absurd (hat.symm.trans h.2.1) (by decide)
  | ws hat hstale =>
    refine .ws hat ?_
    rw [hstale, found_learn, hat]
    simp [Await.searching]
  | probe hat hnot => exact .probe hat fun h => hnot h.1
  | probeWs hat hnot hfound => exact .probeWs hat (fun h => hnot h.1) ((found_learn r e).mpr (.inl hfound))
  | returned result hat => exact absurd hat hrunning

theorem stage_connected {stale : Prop} {before : Option Bool} {r : Reconcile}
    (hfound : r.Found ↔ ¬ stale) (error : Option String) : Stage stale before (r.connected error) := by
  refine .returned _ rfl rfl ?_
  have hsame : (r.connected error).Found ↔ r.Found := by
    cases error with
    | none => rfl
    | some e => rfl
  rw [← hfound, ← hsame]
  unfold Reconcile.Fresh
  simp

theorem stage_down {stale : Prop} {before : Option Bool} {r : Reconcile} (hnot : ¬ stale) :
    Stage stale before r.down := by
  refine .returned _ rfl rfl (iff_of_true (Or.inr ⟨rfl, ?_, ?_⟩) hnot)
  · exact List.getLast?_concat
  · exact presence_reconcile_learn r (.probeHttp false)

section
variable {py : PyText} {tvIp : String}

/-- An event that brings nothing leaves what the call rests on. -/
theorem stale_of_quiet {stale : Prop} {r : Reconcile} {ev : Event} (h : ev.brings py tvIp = none) :
    stale ∧ Silent py tvIp r ev ↔ stale := by
  simp [Silent, h]

theorem stale_of_brings {stale : Prop} {r : Reconcile} {ev : Event} {e : Evidence}
    (h : ev.brings py tvIp = some e) :
    stale ∧ Silent py tvIp r ev ↔ stale ∧ r.await.searching = false ∧ e.on = false := by
  simp [Silent, h]

/-- A datagram, or another coroutine's probe. -/
theorem stage_learned {stale : Prop} {before : Option Bool} {r : Reconcile} {ev : Event}
    (h : Stage stale before r) (hrunning : r.await ≠ .returned) :
    Stage (stale ∧ Silent py tvIp r ev) before (r.learned (ev.brings py tvIp)) := by
  cases hbrings : ev.brings py tvIp with
  | none => exact h.congr (stale_of_quiet hbrings)
  | some e => exact (stage_learn h hrunning e).congr (stale_of_brings hbrings)

theorem stage_heed {stale : Prop} {before : Option Bool} {r : Reconcile} {what : Received}
    {expired : Bool}
    (hstale : stale ↔ before = some true ∧ r.evidence = [])
    (hcached : r.tv.presenceCached = (r.evidence.getLast?.map Evidence.on).or before) :
    Stage (stale ∧ Silent py tvIp r (.received what expired)) before
      (r.heed expired (what.verdict py tvIp)) := by
  cases hverdict : what.verdict py tvIp with
  | ignored =>
    exact (stage_loopHead expired hstale hcached).congr
      (stale_of_quiet (by simp [Event.brings, hverdict]))
  | raises error =>
    have hfailed : Stage stale before (r.failed "msearch_bootstrap" error).afterSearch :=
      stage_afterSearch hstale hcached
    exact hfailed.congr (stale_of_quiet (by simp [Event.brings, hverdict]))
  | rejected =>
    exact (stage_afterSearch hstale hcached).congr
      (stale_of_quiet (by simp [Event.brings, hverdict]))
  | accepted =>
    -- a reply has been accepted, so the call no longer rests on the old presence
    have hbrings : (Event.received what expired).brings py tvIp = some .msearch := by
      simp [Event.brings, hverdict]
    have hgone : stale ∧ Silent py tvIp r (.received what expired) ↔
        before = some true ∧ (r.learn .msearch).evidence = [] := by
      rw [stale_of_brings hbrings]
      exact iff_of_false (fun h => absurd h.2.2 (by decide))
        fun h => List.concat_ne_nil Evidence.msearch r.evidence h.2
    unfold Reconcile.heed Reconcile.accept
    dsimp only
    split
    · exact stage_afterSearch hgone (cached_learn r .msearch before)
    · exact .searching rfl hgone (cached_learn r .msearch before)

/-- What an event finds the call at, and what is left of what it rests on. -/
theorem Stage.of_searching {stale : Prop} {before : Option Bool} {r : Reconcile}
    (h : Stage stale before r) (hat : r.await.searching = true) :
    (stale ↔ before = some true ∧ r.evidence = []) ∧
      r.tv.presenceCached = (r.evidence.getLast?.map Evidence.on).or before := by
  cases h with
  | searching _ hstale hcached => exact ⟨hstale, hcached⟩
  | ws heq | probe heq | probeWs heq | returned _ heq =>
    rw [heq] at hat
    cases hat

theorem stage_step {stale : Prop} {before : Option Bool} {r r' : Reconcile} {ev : Event}
    (h : Stage stale before r) (hstep : step py tvIp r ev = some r') :
    Stage (stale ∧ Silent py tvIp r ev) before r' := by
  cases ev with
  | datagram text ip =>
    obtain ⟨hrunning, heq⟩ := Option.ite_none_left_eq_some.mp hstep
    obtain rfl := Option.some.inj heq
    exact stage_learned h hrunning
  | otherProbe up =>
    obtain ⟨hrunning, heq⟩ := Option.ite_none_left_eq_some.mp hstep
    obtain rfl := Option.some.inj heq
    exact stage_learned h hrunning
  | sent ok expired =>
    cases hat : r.await with
    | sending sent =>
      simp only [step, hat, Option.some.injEq] at hstep
      obtain ⟨hstale, hcached⟩ := h.of_searching (by rw [hat]; rfl)
      refine Stage.congr ?_ (stale_of_quiet rfl)
      subst hstep
      split
      · exact .searching rfl hstale hcached
      · exact stage_loopHead expired hstale hcached
    | _ => simp [step, hat] at hstep
  | received what expired =>
    cases hat : r.await with
    | receiving =>
      simp only [step, hat, Option.some.injEq] at hstep
      obtain ⟨hstale, hcached⟩ := h.of_searching (by rw [hat]; rfl)
      exact hstep ▸ stage_heed hstale hcached
    | _ => simp [step, hat] at hstep
  | wsConnects error =>
    refine Stage.congr ?_ (stale_of_quiet rfl)
    cases hat : r.await with
    | searchWs =>
      simp only [step, hat, Option.some.injEq] at hstep
      obtain ⟨hstale, hcached⟩ := h.of_searching (by rw [hat]; rfl)
      exact hstep ▸ stage_afterSearch hstale hcached
    | ws =>
      simp only [step, hat, Option.some.injEq] at hstep
      refine hstep ▸ stage_connected ?_ error
      cases h with
      | ws _ hstale => rw [hstale, not_not]
      | searching heq => simp [hat, Await.searching] at heq
      | probe heq | probeWs heq | returned _ heq => simp [hat] at heq
    | probeWs =>
      simp only [step, hat, Option.some.injEq] at hstep
      refine hstep ▸ stage_connected ?_ error
      cases h with
      | probeWs _ hnot hfound => exact iff_of_true hfound hnot
      | searching heq => simp [hat, Await.searching] at heq
      | ws heq | probe heq | returned _ heq => simp [hat] at heq
    | _ => simp [step, hat] at hstep
  | probeEnds result =>
    cases hat : r.await with
    | probe =>
      simp only [step, hat, Option.some.injEq] at hstep
      have hnot : ¬ stale := by
        cases h with
        | probe _ hnot => exact hnot
        | searching heq => simp [hat, Await.searching] at heq
        | ws heq | probeWs heq | returned _ heq => simp [hat] at heq
      have hnot' : ¬ (stale ∧ Silent py tvIp r (.probeEnds result)) := fun h => hnot h.1
      subst hstep
      cases result with
      | error error => exact stage_down hnot'
      | ok up =>
        cases up with
        | false => exact stage_down hnot'
        | true => exact .probeWs rfl hnot' ((found_learn r (.probeHttp true)).mpr (.inr rfl))
    | _ => simp [step, hat] at hstep

theorem stage_begin (tv : TvController) (error : Option String) :
    Stage (tv.presenceCached = some true) tv.presenceCached (begin tv error) := by
  cases error with
  | none => exact .searching rfl (by simp [begin]) rfl
  | some e => exact stage_afterSearch (by simp [Reconcile.failed]) rfl

theorem stage_run {tv : TvController} {error : Option String} {r : Reconcile} {es : List Event}
    (h : execute (step py tvIp) (begin tv error) es = some r) :
    Stage (tv.presenceCached = some true ∧
      Along (step py tvIp) (Silent py tvIp) (begin tv error) es) tv.presenceCached r := by
  induction es using List.reverseRecOn generalizing r with
  | nil =>
    obtain rfl : begin tv error = r := by simpa [execute] using h
    exact (stage_begin tv error).congr (and_iff_left trivial)
  | append_singleton es e ih =>
    obtain ⟨u, hu, hstep⟩ := execute_concat h
    refine (stage_step (ih hu) hstep).congr ?_
    rw [along_concat_iff hu, and_assoc]

end

/-- What a call returns rests on what it found, except that presence may have been True as it
began, with nothing accepted while it searched and nothing for the TV while it connected. -/
theorem fresh_iff (py : PyText) (tvIp : String) {tv : TvController} {error : Option String}
    {r : Reconcile} {es : List Event} (hrun : execute (step py tvIp) (begin tv error) es = some r)
    (hreturned : r.await = .returned) : ∃ result, r.result = some result ∧
      (r.Fresh result ↔ ¬ (tv.presenceCached = some true ∧
        Along (step py tvIp) (Silent py tvIp) (begin tv error) es)) := by
  cases stage_run hrun with
  | returned result _ hresult hfresh => exact ⟨result, hresult, hfresh⟩
  | searching heq => simp [hreturned, Await.searching] at heq
  | ws heq | probe heq | probeWs heq => simp [hreturned] at heq

def samplePy : PyText := ⟨fun s => String.ofList (s.toList.map Char.toUpper), fun _ => .ok none⟩

def cachedOn : TvController := { presenceCached := some true, presenceSource := "ssdp_alive" }

def byebye : Event :=
  .datagram "NOTIFY * HTTP/1.1\r\nNT: urn:schemas-upnp-org:device:MediaRenderer:1\r\nNTS: ssdp:byebye\r\n"
    "192.168.1.7"

/-- The TV says byebye while it is searched for, and answers the probe. -/
def probedUp : List Event :=
  [.sent true false, .sent true false, .sent true false, byebye, .received .timeout true,
    .probeEnds (.ok true), .wsConnects (some "TimeoutError()")]

theorem fresh_iff_probedUp : ∃ r result, execute (step samplePy "192.168.1.7") (begin cachedOn none)
    probedUp = some r ∧ r.result = some result ∧ result.outcome = .presentTrue ∧ r.Fresh result := by
  have hrun : (execute (step samplePy "192.168.1.7") (begin cachedOn none) probedUp).map
      (fun r => (r.await, r.result.map (·.outcome))) = some (.returned, some .presentTrue) := by
    decide +kernel
  obtain ⟨r, hr, hseen⟩ := Option.map_eq_some_iff.mp hrun
  obtain ⟨hreturned, houtcome⟩ := Prod.mk.inj hseen
  obtain ⟨result, hresult, hiff⟩ := fresh_iff samplePy "192.168.1.7" hr hreturned
  rw [hresult] at houtcome
  exact ⟨r, result, hr, hresult, Option.some.inj houtcome,
    hiff.mpr fun h => absurd h.2 (by decide +kernel)⟩

/-- No answer, and the presence from before. -/
def unanswered : List Event :=
  [.sent true false, .sent true false, .sent true false, .received .timeout false,
    .received .timeout true, .wsConnects none]

theorem not_fresh_unanswered : ∃ r result, execute (step samplePy "192.168.1.7")
    (begin cachedOn none) unanswered = some r ∧ r.result = some result ∧
    result.outcome = .presentTrue ∧ r.evidence = [] ∧ ¬ r.Fresh result := by
  have hrun : (execute (step samplePy "192.168.1.7") (begin cachedOn none) unanswered).map
      (fun r => (r.evidence, r.result.map (·.outcome))) = some ([], some .presentTrue) := by decide
  obtain ⟨r, hr, hseen⟩ := Option.map_eq_some_iff.mp hrun
  obtain ⟨hevidence, houtcome⟩ := Prod.mk.inj hseen
  obtain ⟨result, hresult, hon⟩ := Option.map_eq_some_iff.mp houtcome
  refine ⟨r, result, hr, hresult, hon, hevidence, ?_⟩
  unfold Reconcile.Fresh Reconcile.Found
  simp [hevidence, hon]

end PiHub.TvReconcile

import PiHub.Coroutines
import PiHub.FrameTv
import PiHub.StartupMode

/-! `power_on`, `power_off` and `set_input_hdmi1` of the Frame TV (samsung_tv_frame.py), from where
they have the lock, which keeps out every other call to the TV. There is a session: `start` makes
one without a pause. Times are in ms. -/
namespace PiHub.FrameCommands
open PiHub.Coroutines PiHub.Keymap PiHub.PyStr PiHub.StartupMode
open PiHub.FrameTv (SamsungFrameTv)

def commandRetries : Nat := 3
def verifyDelay : Nat := 350
def verifyPollInterval : Nat := 500

/-- A method with its parameter, the token apart. -/
inductive Request where
  | createAccessToken
  | powerControl (power : Option String)
  | inputSourceControl (inputSource : Option String)
  deriving DecidableEq

/-- The exceptions; `raised` has the `repr` of one of the request, `unwritable` is the token file's. -/
inductive Exc where
  | raised (error : String)
  | unwritable
  | tokenMissing
  | invalidResponse
  | rpcError (error : Json)
  | resultNotObject
  | accessTokenMissing
  | powerAckMismatch (ack : Json) (target : String)
  | sourceAckMismatch (ack : Json)
  | sourceVerifyMismatch (source : Option String)

/-- `_last_error`; `exc` is the `repr` of an exception. -/
inductive LastError where
  | empty
  | exc (e : Exc)
  | invalidResponse
  | rpcError (error : Json)
  | powerVerifyTimeout (lastPower : Option String) (target : String) (lastError : Option Exc)
  | powerCommandFailed
  | sourceCommandFailed

/-- What posting a request comes to. -/
inductive Answer where
  | raised (error : String)
  | json (data : Json)

/-- What the coroutine is resumed with: how long the request took or by how much the sleep was
late, the answer if it is a request, and the token file as it is then. -/
structure Reply where
  took : Nat := 0
  answer : Answer := .json .null
  token : Bool := true
  writable : Bool := true

/-- What the calls read and write; `writable` is the token file's. -/
structure Backend where
  tv : SamsungFrameTv := {}
  inputSource : Option String := none
  lastError : LastError := .empty
  writable : Bool := true
  now : Nat := 0

/-- Ghost: the deadline of a call, its attempts, what is sent and when, and what is read. -/
inductive Entry where
  | deadline (time : Nat)
  | attempt (n : Nat)
  | sent (request : Request) (time : Nat)
  | acked (ack : Json)
  | powerRead (value : Option String)
  | sourceRead (value : Option String)

abbrev FrameCoroutine := Coroutine Backend Reply Entry Exc

def Backend.setLastError (b : Backend) (error : LastError) : Backend := { b with lastError := error }

/-- The coroutine goes on `ms` later. -/
def Backend.resumed (b : Backend) (ms : Nat) (r : Reply) : Backend :=
  { b with now := b.now + ms, writable := r.writable, tv := { b.tv with token := r.token } }

/-- `asyncio.sleep`. -/
def sleep (ms : Nat) : FrameCoroutine Unit := do
  let r ← await
  update (·.resumed (ms + r.took) r)

/-- Set `_last_error` and raise. -/
def fail (error : LastError) (e : Exc) : FrameCoroutine (List (String × Json)) := do
  update (·.setLastError error)
  raise e

/-- `_rpc` from the answer on. -/
def rpcAnswered : Answer → FrameCoroutine (List (String × Json))
  | .raised error => fail (.exc (.raised error)) (.raised error)
  | .json (.obj data) =>
    match data.lookup "error" with
    | some error => fail (.rpcError error) (.rpcError error)
    | none => do
      update (·.setLastError .empty)
      return data
  | .json _ => fail .invalidResponse .invalidResponse

/-- `_rpc`; the timeout of the request is in the answer. -/
def rpc (request : Request) : FrameCoroutine (List (String × Json)) := do
  let b ← current
  if request ≠ .createAccessToken ∧ b.tv.token = false then raise .tokenMissing
  else
    emit (.sent request b.now)
    let r ← await
    update (·.resumed r.took r)
    rpcAnswered r.answer

/-- `_result`. -/
def result (data : List (String × Json)) : Except Exc (List (String × Json)) :=
  if truthy (get data "result") then
    match get data "result" with
    | .obj members => .ok members
    | _ => .error .resultNotObject
  else .ok []

/-- `self._result(await self._rpc(..)).get(key)`. -/
def rpcField (request : Request) (key : String) : FrameCoroutine Json := do
  let data ← rpc request
  match result data with
  | .ok members => return get members key
  | .error e => raise e

/-- The value if it is a string. -/
def strOnly : Json → Option String
  | .str s => some s
  | _ => none

/-- `_get_power` and `_get_input_source` with their request, the field they read and its entry. -/
def readString (request : Request) (key : String) (entry : Option String → Entry) :
    FrameCoroutine (Option String) := do
  let value ← rpcField request key
  emit (entry (strOnly value))
  return strOnly value

def getPower : FrameCoroutine (Option String) :=
  readString (.powerControl none) "power" .powerRead

def getInputSource : FrameCoroutine (Option String) :=
  readString (.inputSourceControl none) "inputSource" .sourceRead

/-- `_request_access_token_unlocked`. -/
def requestAccessToken : FrameCoroutine Unit := do
  let token ← rpcField .createAccessToken "AccessToken"
  match (strOnly token).bind stripped with
  | none => raise .accessTokenMissing
  | some _ =>
    let b ← current
    if b.writable then
      update fun b => { b with tv := { b.tv with token := true }, lastError := .empty }
    else raise .unwritable

/-- `_ensure_token`. -/
def ensureToken : FrameCoroutine Bool := do
  let b ← current
  if b.tv.token then return true
  else
    match ← attempt requestAccessToken with
    | .ok _ => return true
    | .error e =>
      update (·.setLastError (.exc e))
      return false

/-- One turn of `_wait_for_power_state`: it reads the power and commits it. -/
def pollPower (source : String) : FrameCoroutine (Option String) := do
  let power ← getPower
  update fun b => { b with tv := b.tv.commitPower power source }
  return power

/-- The loop of `_wait_for_power_state`. Every turn sleeps, so that `turns`, which is what is left
to the deadline, does not run out before it. -/
def waitLoop (target source : String) (deadline : Nat) :
    (turns : Nat) → Option String → Option Exc → FrameCoroutine Bool
  | 0, lastPower, lastError => do
    update (·.setLastError (.powerVerifyTimeout lastPower target lastError))
    return false
  | turns + 1, lastPower, lastError => do
    let b ← current
    if b.now < deadline then
      match ← attempt (pollPower source) with
      | .ok power =>
        if power = some target then
          update (·.setLastError .empty)
          return true
        else
          sleep verifyPollInterval
          waitLoop target source deadline turns power lastError
      | .error e =>
        sleep verifyPollInterval
        waitLoop target source deadline turns lastPower (some e)
    else
      update (·.setLastError (.powerVerifyTimeout lastPower target lastError))
      return false

/-- `_wait_for_power_state`. -/
def waitForPowerState (target source : String) (deadline : Nat) : FrameCoroutine Bool := do
  sleep verifyDelay
  let b ← current
  waitLoop target source deadline (deadline - b.now) none none

/-- What `_verified_power_control` tries. -/
def powerAttempt (target source : String) (deadline : Nat) : FrameCoroutine Bool := do
  let ack ← rpcField (.powerControl (some target)) "power"
  emit (.acked ack)
  if ack.isStr target then waitForPowerState target source deadline
  else raise (.powerAckMismatch ack target)

/-- `self._input_source = await self._get_input_source()`. -/
def readInputSource : FrameCoroutine (Option String) := do
  let source ← getInputSource
  update ({ · with inputSource := source })
  return source

/-- What `set_input_hdmi1` tries. -/
def inputAttempt : FrameCoroutine Bool := do
  let source ← readInputSource
  if source = some "HDMI1" then return true
  else
    let ack ← rpcField (.inputSourceControl (some "HDMI1")) "inputSource"
    emit (.acked ack)
    if ack.isStr "HDMI1" then
      sleep verifyDelay
      let actual ← readInputSource
      if actual = some "HDMI1" then return true
      else raise (.sourceVerifyMismatch actual)
    else raise (.sourceAckMismatch ack)

/-- The loop over the attempts, `failed` if none of them has raised. -/
def retry (body : FrameCoroutine Bool) (failed : LastError) :
    List Nat → Option Exc → FrameCoroutine Bool
  | [], lastError => do
    update (·.setLastError (lastError.elim failed .exc))
    return false
  | n :: ns, _ => do
    emit (.attempt n)
    match ← attempt body with
    | .ok done => return done
    | .error e =>
      if n < commandRetries then
        sleep (250 * n)
        retry body failed ns (some e)
      else retry body failed ns (some e)

/-- `range(1, _COMMAND_RETRIES + 1)`. -/
def attempts : List Nat := List.range' 1 commandRetries

/-- `_verified_power_control`. -/
def verifiedPowerControl (target source : String) (timeout : Nat) : FrameCoroutine Bool := do
  let b ← current
  let deadline := b.now + max 1000 timeout
  emit (.deadline deadline)
  retry (powerAttempt target source deadline) .powerCommandFailed attempts none

/-- `power_on` and `power_off` with their target and source. -/
def setPower (target source : String) (timeout : Nat) : FrameCoroutine Bool := do
  if ← ensureToken then verifiedPowerControl target source timeout
  else return false

def powerOn (timeout : Nat) : FrameCoroutine Bool :=
  setPower "powerOn" "ip_control_power_on" timeout

def powerOff (timeout : Nat) : FrameCoroutine Bool :=
  setPower "powerOff" "ip_control_power_off" timeout

def setInputHdmi1 : FrameCoroutine Bool := do
  if ← ensureToken then retry inputAttempt .sourceCommandFailed attempts none
  else return false

theorem meets_sleep_bind {f : Unit → FrameCoroutine α} {ms : Nat} {b : Backend} {tr : List Entry}
    {Q : Option (Except Exc α) → Backend → List Entry → Prop} (hwaits : Q none b tr)
    (hresumed : ∀ r, Meets (f ()) (b.resumed (ms + r.took) r) tr Q) :
    Meets (sleep ms >>= f) b tr Q := by
  intro rs
  cases rs with
  | nil =>
    show Q _ _ (tr ++ [])
    rwa [List.append_nil]
  | cons r rest => exact hresumed r rest

theorem sleep_bind_congr {f g : Unit → FrameCoroutine α} {ms : Nat} {b : Backend} {rs : List Reply}
    (h : ∀ r rest, f () (b.resumed (ms + r.took) r) rest = g () (b.resumed (ms + r.took) r) rest) :
    (sleep ms >>= f) b rs = (sleep ms >>= g) b rs := by
  cases rs with
  | nil => rfl
  | cons r rest =>
    show (f () (b.resumed (ms + r.took) r) rest).prepend [] = _
    rw [h r rest]
    rfl

/-- What a request leaves: `_input_source` as it was, a later time, and its entry in the trace, unless
it has raised before it is sent. -/
structure Called (request : Request) (b : Backend) (tr : List Entry) (o : Option (Except Exc α))
    (t : Backend) (tr' : List Entry) : Prop where
  inputSource : t.inputSource = b.inputSource
  now : b.now ≤ t.now
  trace : tr' = tr ++ [.sent request b.now] ∨ tr' = tr ∧ ∃ e, o = some (.error e)

section
variable {request : Request} {b t : Backend} {tr tr' : List Entry}

/-- A request that raises nothing has been sent. -/
theorem Called.sent {o : Option (Except Exc α)} (h : Called request b tr o t tr')
    (ho : ∀ e, o ≠ some (.error e)) : tr' = tr ++ [.sent request b.now] :=
  h.trace.resolve_right fun ⟨_, e, he⟩ => ho e he

theorem Called.maybe_sent {o : Option (Except Exc α)} (h : Called request b tr o t tr') :
    tr' = tr ∨ tr' = tr ++ [.sent request b.now] :=
  h.trace.symm.imp_left And.left

/-- What is made of the data leaves it so. -/
theorem Called.go_on {o : Option (Except Exc α)} {o' : Option (Except Exc β)}
    (h : Called request b tr o t tr') (ho : ∀ e, o = some (.error e) → ∃ e', o' = some (.error e')) :
    Called request b tr o' t tr' :=
  ⟨h.inputSource, h.now, h.trace.imp_right fun ⟨hsame, e, he⟩ => ⟨hsame, ho e he⟩⟩

end

/-- From the answer on a request changes nothing but `_last_error`. -/
theorem meets_rpcAnswered (answer : Answer) (b : Backend) (tr : List Entry) :
    Meets (rpcAnswered answer) b tr fun _ t tr' => (∃ error, t = b.setLastError error) ∧ tr' = tr := by
  have hfail (error : LastError) (e : Exc) : Meets (fail error e) b tr
      fun _ t tr' => (∃ error, t = b.setLastError error) ∧ tr' = tr :=
    meets_update_bind (meets_raise ⟨⟨error, rfl⟩, rfl⟩)
  cases answer with
  | raised error => exact hfail _ _
  | json data =>
    cases data with
    | obj data =>
      rw [rpcAnswered]
      cases data.lookup "error" with
      | some error => exact hfail _ _
      | none => exact meets_update_bind (meets_pure ⟨⟨.empty, rfl⟩, rfl⟩)
    | null => exact hfail _ _
    | bool b => exact hfail _ _
    | int n => exact hfail _ _
    | float x => exact hfail _ _
    | str s => exact hfail _ _
    | arr values => exact hfail _ _

theorem meets_rpc (request : Request) (b : Backend) (tr : List Entry) :
    Meets (rpc request) b tr (Called request b tr) := by
  refine meets_current_bind ?_
  split
  · exact meets_raise ⟨rfl, Nat.le_refl _, Or.inr ⟨rfl, _, rfl⟩⟩
  · refine meets_emit_bind (meets_await_bind ⟨rfl, Nat.le_refl _, Or.inl rfl⟩ fun r => ?_)
    refine meets_update_bind ((meets_rpcAnswered r.answer _ _).mono ?_)
    rintro o t tr' ⟨⟨error, rfl⟩, rfl⟩
    exact ⟨rfl, Nat.le_add_right _ _, Or.inl rfl⟩

theorem meets_rpcField (request : Request) (key : String) (b : Backend) (tr : List Entry) :
    Meets (rpcField request key) b tr (Called request b tr) := by
  refine (meets_rpc request b tr).bind ?_ ?_ ?_
  · exact fun t tr' h => h.go_on nofun
  · exact fun e t tr' h => h.go_on fun _ _ => ⟨e, rfl⟩
  · intro data t tr' h
    cases result data with
    | ok members => exact meets_pure (h.go_on nofun)
    | error e => exact meets_raise (h.go_on nofun)

/-- What reading a string leaves: both its entries, if it has returned. -/
structure Reads (request : Request) (entry : Option String → Entry) (b : Backend) (tr : List Entry)
    (o : Option (Except Exc (Option String))) (t : Backend) (tr' : List Entry) : Prop where
  inputSource : t.inputSource = b.inputSource
  now : b.now ≤ t.now
  read : ∀ value, o = some (.ok value) → tr' = tr ++ [.sent request b.now, entry value]
  unread : (∀ value, o ≠ some (.ok value)) → tr' = tr ∨ tr' = tr ++ [.sent request b.now]

theorem meets_readString (request : Request) (key : String) (entry : Option String → Entry)
    (b : Backend) (tr : List Entry) :
    Meets (readString request key entry) b tr (Reads request entry b tr) := by
  refine (meets_rpcField request key b tr).bind ?_ ?_ ?_
  · exact fun t tr' h => ⟨h.inputSource, h.now, nofun, fun _ => h.maybe_sent⟩
  · exact fun e t tr' h => ⟨h.inputSource, h.now, nofun, fun _ => h.maybe_sent⟩
  · intro value t tr' h
    refine meets_emit_bind (meets_pure ⟨h.inputSource, h.now, ?_, fun hne => absurd rfl (hne _)⟩)
    rintro v hv
    obtain rfl := Except.ok.inj (Option.some.inj hv)
    rw [h.sent nofun, List.append_assoc]
    rfl

/-- `_ensure_token` asks at most for a token, and raises nothing. -/
theorem meets_ensureToken (b : Backend) (tr : List Entry) : Meets ensureToken b tr fun o t tr' =>
    t.inputSource = b.inputSource ∧ (tr' = tr ∨ tr' = tr ++ [.sent .createAccessToken b.now]) ∧
      ∀ e, o ≠ some (.error e) := by
  refine meets_current_bind ?_
  split
  · exact meets_pure ⟨rfl, Or.inl rfl, nofun⟩
  · have hrequest : Meets requestAccessToken b tr fun _ t tr' => t.inputSource = b.inputSource ∧
        (tr' = tr ∨ tr' = tr ++ [.sent .createAccessToken b.now]) := by
      refine (meets_rpcField .createAccessToken "AccessToken" b tr).bind ?_ ?_ ?_
      · exact fun t tr' h => ⟨h.inputSource, h.maybe_sent⟩
      · exact fun e t tr' h => ⟨h.inputSource, h.maybe_sent⟩
      · intro token t tr' h
        have hpost := And.intro h.inputSource h.maybe_sent
        cases (strOnly token).bind stripped with
        | none => exact meets_raise hpost
        | some token =>
          refine meets_current_bind ?_
          split
          · exact meets_update hpost
          · exact meets_raise hpost
    refine hrequest.attempt_bind ?_ ?_
    · exact fun t tr' h => ⟨h.1, h.2, nofun⟩
    · intro x t tr' h
      cases x with
      | ok _ => exact meets_pure ⟨h.1, h.2, nofun⟩
      | error e => exact meets_update_bind (meets_pure ⟨h.1, h.2, nofun⟩)

/-- What is asked of an attempt: `Q` if it ends the call or waits, `I` if it raises. -/
def Attempted (Q : Option (Except Exc Bool) → Backend → List Entry → Prop)
    (I : Backend → List Entry → Prop) (o : Option (Except Exc Bool)) (t : Backend)
    (tr : List Entry) : Prop :=
  match o with
  | none => Q none t tr
  | some (.ok done) => Q (some (.ok done)) t tr
  | some (.error _) => I t tr

/-- What the attempts keep, `I`, is kept to the end: `left` counts those that are left. -/
theorem meets_retry {body : FrameCoroutine Bool} {failed : LastError}
    {I : Nat → Backend → List Entry → Prop}
    {Q : Option (Except Exc Bool) → Backend → List Entry → Prop}
    (hwaits : ∀ left b tr, I left b tr → Q none b tr)
    (hfailed : ∀ left b tr error, I left b tr → Q (some (.ok false)) (b.setLastError error) tr)
    (hresumed : ∀ left b tr ms r, I left b tr → I left (b.resumed ms r) tr)
    (hbody : ∀ n left b tr, I (left + 1) b tr →
      Meets body b (tr ++ [.attempt n]) (Attempted Q (I left)))
    (ns : List Nat) (lastError : Option Exc) (b : Backend) (tr : List Entry)
    (hinv : I ns.length b tr) : Meets (retry body failed ns lastError) b tr Q := by
  induction ns generalizing lastError b tr with
  | nil => exact meets_update_bind (meets_pure (hfailed _ _ _ _ hinv))
  | cons n ns ih =>
    refine meets_emit_bind ((hbody n ns.length b tr hinv).attempt_bind ?_ ?_)
    · exact fun t tr' h => h
    · intro x t tr' h
      cases x with
      | ok done => exact meets_pure h
      | error e =>
        show Meets (if n < commandRetries then _ else _) t tr' Q
        split
        · exact meets_sleep_bind (hwaits _ _ _ h) fun r => ih _ _ _ (hresumed _ _ _ _ r h)
        · exact ih _ _ _ h

section EndsBy
variable {α : Type} {b : Backend} {n : Nat}

theorem endsBy_sleep_bind {f : Unit → FrameCoroutine α} {ms : Nat}
    (h : ∀ r, EndsBy n (f ()) (b.resumed (ms + r.took) r)) : EndsBy (n + 1) (sleep ms >>= f) b := by
  intro rs hlen
  cases rs with
  | nil => simp at hlen
  | cons r rest =>
    obtain ⟨hends, htakes⟩ := h r rest (Nat.le_of_succ_le_succ hlen)
    exact ⟨hends, Nat.succ_le_succ htakes⟩

theorem endsBy_rpcAnswered (answer : Answer) : EndsBy 0 (rpcAnswered answer) b := by
  have hfail (error : LastError) (e : Exc) : EndsBy 0 (fail error e) b :=
    endsBy_update_bind (endsBy_raise e)
  cases answer with
  | raised error => exact hfail _ _
  | json data =>
    cases data with
    | obj data =>
      rw [rpcAnswered]
      cases data.lookup "error" with
      | some error => exact hfail _ _
      | none => exact endsBy_update_bind (endsBy_pure data)
    | null => exact hfail _ _
    | bool b => exact hfail _ _
    | int n => exact hfail _ _
    | float x => exact hfail _ _
    | str s => exact hfail _ _
    | arr values => exact hfail _ _

theorem endsBy_rpc (request : Request) : EndsBy 1 (rpc request) b := by
  refine endsBy_current_bind ?_
  split
  · exact (endsBy_raise _).mono (Nat.zero_le _)
  · exact endsBy_emit_bind (endsBy_await_bind fun r => endsBy_update_bind (endsBy_rpcAnswered _))

theorem endsBy_rpcField (request : Request) (key : String) : EndsBy 1 (rpcField request key) b := by
  refine (endsBy_rpc request).bind_forall (n := 0) fun data t => ?_
  cases result data with
  | ok members => exact endsBy_pure _
  | error e => exact endsBy_raise e

theorem endsBy_readString (request : Request) (key : String) (entry : Option String → Entry) :
    EndsBy 1 (readString request key entry) b :=
  (endsBy_rpcField request key).bind_forall (n := 0) fun _ _ => endsBy_emit_bind (endsBy_pure _)

theorem endsBy_ensureToken : EndsBy 1 ensureToken b := by
  refine endsBy_current_bind ?_
  split
  · exact (endsBy_pure true).mono (Nat.zero_le _)
  · have hrequest : EndsBy 1 requestAccessToken b := by
      refine (endsBy_rpcField .createAccessToken "AccessToken").bind_forall (n := 0) fun token t => ?_
      cases (strOnly token).bind stripped with
      | none => exact endsBy_raise _
      | some _ =>
        refine endsBy_current_bind ?_
        split
        · exact endsBy_update _
        · exact endsBy_raise _
    refine hrequest.attempt_bind (n := 0) (P := fun _ _ => True) (fun _ _ _ => trivial) fun x t _ => ?_
    cases x with
    | ok _ => exact endsBy_pure true
    | error e => exact endsBy_update_bind (endsBy_pure false)

/-- Each attempt takes what its body takes and a sleep; `P` is what the body relies on. -/
theorem endsBy_retry {body : FrameCoroutine Bool} {failed : LastError} {m : Nat}
    {P : Backend → Prop} (hresumed : ∀ b ms r, P b → P (b.resumed ms r))
    (hkeeps : ∀ b, P b → Meets body b [] fun o t _ => ∀ x, o = some x → P t)
    (hbody : ∀ b, P b → EndsBy m body b) (ns : List Nat) (lastError : Option Exc) (hP : P b) :
    EndsBy (ns.length * (m + 1)) (retry body failed ns lastError) b := by
  induction ns generalizing lastError b with
  | nil => exact (endsBy_update_bind (endsBy_pure false)).mono (Nat.zero_le _)
  | cons n ns ih =>
    have hnext : EndsBy (m + (ns.length * (m + 1) + 1)) (retry body failed (n :: ns) lastError) b := by
      refine endsBy_emit_bind ((hbody b hP).attempt_bind (P := fun _ t => P t) (hkeeps b hP) ?_)
      intro x t ht
      cases x with
      | ok done => exact (endsBy_pure done).mono (Nat.zero_le _)
      | error e =>
        show EndsBy _ (if n < commandRetries then _ else _) t
        split
        · exact endsBy_sleep_bind fun r => ih (some e) (hresumed t _ r ht)
        · exact (ih (some e) ht).mono (Nat.le_succ _)
    refine hnext.mono ?_
    rw [List.length_cons, Nat.succ_mul]
    omega

end EndsBy

end PiHub.FrameCommands

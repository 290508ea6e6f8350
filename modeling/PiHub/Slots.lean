import PiHub.PyStr

/-! What the number keys and the listen flow play (slots.py). -/
namespace PiHub.Slots
open PiHub.PyStr

def slotCount : Nat := 10
def audioproPresetSlots : Int := 6
def soundbarBackend : String := "samsung_soundbar"

/-! ### TuneIn sources -/

/-- Whether a character of the text matches a small letter or another character of a pattern under
`re.IGNORECASE`, which has three letters beside the ASCII ones for the patterns here. -/
def ignoreCase (p c : Char) : Bool :=
  c.toLower = p || (p = 'i' && (c = 'İ' || c = 'ı')) || (p = 's' && c = 'ſ')

/-- `[sgpt]`. -/
def tuneinKind (c : Char) : Bool := ['s', 'g', 'p', 't'].any fun p => ignoreCase p c

/-- `\d`. -/
def isDigit (c : Char) : Bool := (digit? c).isSome

/-- `_TUNEIN_ID_RE.fullmatch`. -/
def tuneinId : List Char → Bool
  | c :: d :: ds => tuneinKind c && (d :: ds).all isDigit
  | _ => false

/-- What is left of the text after a pattern of single characters. -/
def dropPattern : List Char → List Char → Option (List Char)
  | [], cs => some cs
  | _ :: _, [] => none
  | p :: ps, c :: cs => if ignoreCase p c then dropPattern ps cs else none

section
variable (isalnum : Char → Bool)

/-- `\w`, by `str.isalnum`. -/
def isWord (c : Char) : Bool := c = '_' || isDigit c || isalnum c

/-- `\b[sgpt]\d+\b` after the character `prev`. The digits of a match are all there are, since a
digit is no boundary to the next. -/
def tuneinToken (prev : Char) : List Char → Bool
  | [] => false
  | c :: cs =>
    let rest := cs.dropWhile isDigit
    isWord isalnum prev ≠ isWord isalnum c && tuneinKind c && rest.length < cs.length &&
      rest.head?.all fun next => !isWord isalnum next

/-- `.*?\b[sgpt]\d+\b` after the character `prev`. -/
def tuneinTail (prev : Char) : List Char → Bool
  | [] => false
  | c :: cs => tuneinToken isalnum prev (c :: cs) || (c ≠ '\n' && tuneinTail c cs)

/-- `_TUNEIN_URL_RE.search`. -/
def tuneinUrl : List Char → Bool
  | [] => false
  | c :: cs =>
    (dropPattern "tunein.com/".toList (c :: cs)).any (tuneinTail isalnum '/') || tuneinUrl cs

def isTuneinSource (value : String) : Bool :=
  let raw := strip value
  -- no other character is lowered to one of these letters
  let raw := if (raw.toList.take 7).map Char.toLower = "tunein:".toList then
    strip (String.ofList (raw.toList.drop 7)) else raw
  tuneinId raw.toList || tuneinUrl isalnum raw.toList

end

example : isTuneinSource Char.isAlphanum "tunein:s345724" = true := by decide +kernel
example : isTuneinSource Char.isAlphanum "https://tunein.com/radio/BBC-Radio-4-s25419/" = true := by
  decide +kernel
example : isTuneinSource Char.isAlphanum "https://tunein.com/radio/s25419x" = false := by decide +kernel

/-! ### Slots -/

/-- `get_listen_target`. -/
structure ListenTarget where
  type : String
  preset : Int
  stream : Int

/-- What slots.py asks of the settings it is given. -/
structure Settings where
  getListenTarget : ListenTarget
  getStreamUrl : Int → String
  getSoundbarStreamUrl : Int → String
  getSoundbarRestream : Int → Bool

structure SlotTarget where
  slot : Int
  preset : Option Int := none
  url : String := ""
  restream : Bool := false
  deriving DecidableEq

inductive SlotError where
  | valueError (text : String)
  | slotEmptyError (text : String)
  deriving DecidableEq

def resolveSlot (isalnum : Char → Bool) (settings : Settings) (backend : String) (slot : Int) :
    Except SlotError SlotTarget :=
  if ¬ (1 ≤ slot ∧ slot ≤ slotCount) then .error (.valueError "slot must be between 1 and 10")
  else if backend = soundbarBackend then
    let url := settings.getSoundbarStreamUrl slot
    let restream := settings.getSoundbarRestream slot || isTuneinSource isalnum url
    .ok { slot := slot, url := url, restream := restream }
  else if slot ≤ audioproPresetSlots then .ok { slot := slot, preset := some slot }
  else .ok { slot := slot, url := settings.getStreamUrl (slot - audioproPresetSlots) }

def listenSlot (settings : Settings) (backend : String) : Int :=
  let target := settings.getListenTarget
  if backend = soundbarBackend then target.stream
  else if target.type = "preset" then target.preset
  else audioproPresetSlots + target.stream

/-- What `play_slot` asks of the speaker. -/
inductive SpeakerCall where
  | preset (n : Int)
  | playUrl (url : String) (restream : Bool)
  deriving DecidableEq

def playSlot (target : SlotTarget) : Except SlotError SpeakerCall :=
  match target.preset with
  | some n => .ok (.preset n)
  | none =>
    if target.url = "" then
      .error (.slotEmptyError ("slot " ++ toString target.slot ++ " has no stream URL"))
    else .ok (.playUrl target.url target.restream)

/-! ### By backend -/

theorem listenSlot_soundbar (settings : Settings) :
    listenSlot settings soundbarBackend = settings.getListenTarget.stream := by
  unfold listenSlot
  exact if_pos rfl

section
variable {settings : Settings} {backend : String} (hb : backend ≠ soundbarBackend)
include hb

theorem listenSlot_preset (htype : settings.getListenTarget.type = "preset") :
    listenSlot settings backend = settings.getListenTarget.preset := by
  unfold listenSlot
  rw [if_neg hb]
  exact if_pos htype

theorem listenSlot_stream (htype : settings.getListenTarget.type ≠ "preset") :
    listenSlot settings backend = 6 + settings.getListenTarget.stream := by
  unfold listenSlot
  rw [if_neg hb]
  exact if_neg htype

theorem resolveSlot_preset (isalnum : Char → Bool) {slot : Int} (h : 1 ≤ slot ∧ slot ≤ 6) :
    resolveSlot isalnum settings backend slot = .ok { slot := slot, preset := some slot } := by
  have hrange : 1 ≤ slot ∧ slot ≤ (slotCount : Int) := by
    unfold slotCount
    omega
  unfold resolveSlot
  rw [if_neg (not_not.mpr hrange), if_neg hb]
  exact if_pos h.2

theorem resolveSlot_stream (isalnum : Char → Bool) {n : Int} (h : 1 ≤ n ∧ n ≤ 4) :
    resolveSlot isalnum settings backend (6 + n) =
      .ok { slot := 6 + n, url := settings.getStreamUrl n } := by
  have hrange : 1 ≤ 6 + n ∧ 6 + n ≤ (slotCount : Int) := by
    unfold slotCount
    omega
  have hbeyond : ¬ 6 + n ≤ (6 : Int) := by omega
  have hback : 6 + n - audioproPresetSlots = n := by
    unfold audioproPresetSlots
    omega
  unfold resolveSlot
  rw [if_neg (not_not.mpr hrange), if_neg hb, hback]
  exact if_neg hbeyond

end

theorem resolveSlot_soundbar (isalnum : Char → Bool) (settings : Settings) {slot : Int}
    (h : 1 ≤ slot ∧ slot ≤ 10) : resolveSlot isalnum settings soundbarBackend slot =
      .ok { slot := slot, url := settings.getSoundbarStreamUrl slot
            restream := settings.getSoundbarRestream slot ||
              isTuneinSource isalnum (settings.getSoundbarStreamUrl slot) } := by
  have hrange : 1 ≤ slot ∧ slot ≤ (slotCount : Int) := h
  unfold resolveSlot
  rw [if_neg (not_not.mpr hrange)]
  exact if_pos rfl

theorem playSlot_url {target : SlotTarget} (hpreset : target.preset = none) (hurl : target.url ≠ "") :
    playSlot target = .ok (.playUrl target.url target.restream) := by
  unfold playSlot
  rw [hpreset]
  exact if_neg hurl

end PiHub.Slots

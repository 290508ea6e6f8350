import Mathlib.Data.List.Basic

/-! The payloads the host puts on the dongle's serial port (ble_dongle.py): binary
HID frames, their encoders, and ASCII control lines. -/
namespace PiHub.HostFrames

inductive Usage where
  | keyboard | consumer
  deriving DecidableEq, Repr

/-- The byte that opens a frame of the usage. -/
def Usage.opcode : Usage → UInt8
  | .keyboard => 0x01
  | .consumer => 0x02

def Usage.size : Usage → Nat
  | .keyboard => 8
  | .consumer => 2

/-- One hot-path payload: the opcode byte and a report of the usage's length. -/
structure Frame where
  usage : Usage
  report : List UInt8
  sized : report.length = usage.size
  deriving DecidableEq

def Frame.bytes (f : Frame) : List UInt8 := f.usage.opcode :: f.report

theorem Frame.length_bytes (f : Frame) : f.bytes.length = f.usage.size + 1 := by
  simp [Frame.bytes, f.sized]

/-- The report with every key released. -/
def zeroFrame (u : Usage) : Frame := ⟨u, List.replicate u.size 0, List.length_replicate ..⟩

/-- assets/hid_keymap.json as `_load_hid_keymap` keeps it. -/
structure HidKeymap where
  hidKb : List (String × Int)
  hidCc : List (String × Int)

variable (hid : HidKeymap)

/-- `_kb_report8`, with the opcode already in front of it. -/
def kbReport8 (code : String) : Option Frame :=
  match hid.hidKb.lookup code with
  | none => none
  | some usage =>
    if 0 ≤ usage ∧ usage ≤ 255 then
      some ⟨.keyboard, [0, 0, UInt8.ofNat usage.toNat, 0, 0, 0, 0, 0], rfl⟩
    else none

/-- `_cc_report2`: the low 16 bits of the usage, little-endian. -/
def ccReport2 (code : String) : Option Frame :=
  match hid.hidCc.lookup code with
  | none => none
  | some usage =>
    let u := (usage % 65536).toNat
    some ⟨.consumer, [UInt8.ofNat (u % 256), UInt8.ofNat (u / 256)], rfl⟩

def encodeKeyboardDown (code : String) : Option Frame := kbReport8 hid code
def encodeKeyboardUp (_code : String) : Option Frame := some (zeroFrame .keyboard)
def encodeConsumerDown (code : String) : Option Frame := ccReport2 hid code
def encodeConsumerUp (_code : String) : Option Frame := some (zeroFrame .consumer)

theorem kbReport8_usage {code : String} {f : Frame} (h : kbReport8 hid code = some f) :
    f.usage = .keyboard := by
  unfold kbReport8 at h
  split at h
  · cases h
  · split at h
    · cases h; rfl
    · cases h

theorem ccReport2_usage {code : String} {f : Frame} (h : ccReport2 hid code = some f) :
    f.usage = .consumer := by
  unfold ccReport2 at h
  split at h
  · cases h
  · cases h; rfl

/-- Python's `line.rstrip("\r\n")`. -/
def rstripNewlines (line : List Char) : List Char :=
  (line.reverse.dropWhile fun c => c == '\r' || c == '\n').reverse

/-- Python's `encode("ascii", errors="replace")`. -/
def encodeAscii (text : List Char) : List UInt8 :=
  text.map fun c => if c.toNat < 128 then UInt8.ofNat c.toNat else 0x3F

/-- The bytes `_write_line` queues. -/
def writeLine (line : List Char) : List UInt8 := encodeAscii (rstripNewlines line ++ ['\n'])

def Printable (c : Char) : Prop := 32 ≤ c.toNat ∧ c.toNat ≤ 126

instance (c : Char) : Decidable (Printable c) := inferInstanceAs (Decidable (_ ∧ _))

instance (text : List Char) : Decidable (∀ c ∈ text, Printable c) := List.decidableBAll _ text

/-- A control line that fits the firmware's line buffer. -/
structure ControlLine where
  text : List Char
  nonempty : text ≠ []
  short : text.length ≤ 95
  printable : ∀ c ∈ text, Printable c

def ControlLine.payload (l : ControlLine) : List UInt8 := encodeAscii l.text

theorem rstripNewlines_of_printable {text : List Char} (h : ∀ c ∈ text, Printable c) :
    rstripNewlines text = text := by
  have hkeep : text.reverse.dropWhile (fun c => c == '\r' || c == '\n') = text.reverse := by
    cases hr : text.reverse with
    | nil => rfl
    | cons c cs =>
      have hc : Printable c := h c (List.mem_reverse.mp (by simp [hr]))
      have hne : (c == '\r' || c == '\n') = false := by
        have h32 := hc.1
        have hcr : c ≠ '\r' := by rintro rfl; revert h32; decide
        have hnl : c ≠ '\n' := by rintro rfl; revert h32; decide
        simp [hcr, hnl]
      rw [List.dropWhile_cons_of_neg (by simp [hne])]
  rw [rstripNewlines, hkeep, List.reverse_reverse]

theorem ControlLine.writeLine_text (l : ControlLine) : writeLine l.text = l.payload ++ [10] := by
  rw [writeLine, rstripNewlines_of_printable l.printable, encodeAscii, List.map_append]
  rfl

/-- A printable character is one ASCII byte, none of those the firmware treats specially. -/
theorem ControlLine.payload_byte (l : ControlLine) {b : UInt8} (hb : b ∈ l.payload) :
    b ≠ 1 ∧ b ≠ 2 ∧ b ≠ 13 ∧ b ≠ 10 := by
  obtain ⟨c, hc, rfl⟩ := List.mem_map.mp hb
  obtain ⟨hlo, hhi⟩ := l.printable c hc
  rw [if_pos (by omega)]
  have hval : (UInt8.ofNat c.toNat).toNat = c.toNat := by
    rw [UInt8.toNat_ofNat']; omega
  refine ⟨?_, ?_, ?_, ?_⟩ <;>
    · intro he
      have := congrArg UInt8.toNat he
      rw [hval] at this
      revert this
      simp only [UInt8.reduceToNat]
      omega

end PiHub.HostFrames

import Mathlib.Data.List.Induction
import PiHub.CommandReader

/-! The dongle's text commands (`cmd_handle_line`, main.c). A pointer is what it points to up to the
end of the string, and a read past the end has no result. -/
namespace PiHub.TextCommands
open HostFrames CommandReader

/-- What a line makes the firmware do. A report is sent and its result answered with OK or ERR;
`einval` answers ERR -EINVAL. -/
inductive Command where
  | nothing
  | ping
  | status
  | statusSnapshot
  | info
  | unpair
  | report (u : Usage) (bytes : List UInt8)
  | einval
  deriving DecidableEq

/-- The calls that send a report. -/
def Command.reports : Command → List Call
  | .report u bytes => [sendReport u bytes]
  | _ => []

def isBlank (c : UInt8) : Bool := c == 0x20 || c == 0x09

/-- What is trimmed at the end of a line. -/
def isTrailing (c : UInt8) : Bool := c == 0x0D || c == 0x0A || c == 0x20 || c == 0x09

def toUpper (c : UInt8) : UInt8 :=
  if 0x61 ≤ c.toNat ∧ c.toNat ≤ 0x7A then c - 0x61 + 0x41 else c

def tolower (c : UInt8) : UInt8 :=
  if 0x41 ≤ c.toNat ∧ c.toNat ≤ 0x5A then c + 0x20 else c

def hexNibble (c : UInt8) : Option UInt8 :=
  if 0x30 ≤ c.toNat ∧ c.toNat ≤ 0x39 then some (c - 0x30)
  else if 0x61 ≤ (tolower c).toNat ∧ (tolower c).toNat ≤ 0x66 then some (10 + (tolower c - 0x61))
  else none

/-- `hex_to_bytes`: the bytes, or false at the first character that is no digit. -/
def hexToBytes : List UInt8 → Nat → Option (Option (List UInt8))
  | _, 0 => some (some [])
  | [], _ + 1 => none
  | h :: hex, outLen + 1 =>
    match hexNibble h with
    | none => some none
    | some hi =>
      match hex with
      | [] => none
      | l :: hex =>
        match hexNibble l with
        | none => some none
        | some lo => (hexToBytes hex outLen).map fun out => out.map ((hi <<< 4 ||| lo) :: ·)

/-- `while (*p == ' ' || *p == '\t') p++`. -/
def skipBlanks : List UInt8 → Option (List UInt8)
  | [] => none
  | c :: mem => if isBlank c then skipBlanks mem else some (c :: mem)

def strlen : List UInt8 → Option Nat
  | [] => none
  | c :: mem => if c = 0 then some 0 else (strlen mem).map (· + 1)

/-- The line and its length when the NULs have been written over its trailing characters. -/
def trimTrailing (mem : List UInt8) : Nat → Option (Nat × List UInt8)
  | 0 => some (0, mem)
  | n + 1 => mem[n]?.bind fun c =>
    if isTrailing c then trimTrailing (mem.set n 0) n else some (n + 1, mem)

/-- The command, and where the text after the blank that ends it begins. -/
def splitCommand : List UInt8 → Option (List UInt8 × Option (List UInt8))
  | [] => none
  | c :: line =>
    if c = 0 then some ([], none)
    else if isBlank c then some ([], some line)
    else (splitCommand line).map fun (command, args) => (c :: command, args)

def findArgs : Option (List UInt8) → Option (Option (List UInt8))
  | none => some none
  | some args => (skipBlanks args).bind fun args =>
    args.head?.map fun c => if c = 0 then none else some args

/-- The KB and the CC command. -/
def reportCommand (u : Usage) : Option (List UInt8) → Option Command
  | none => some .einval
  | some args => (hexToBytes args u.size).map fun
    | none => .einval
    | some report => .report u report

def commandWord : Usage → List UInt8
  | .keyboard => encodeAscii "KB".toList
  | .consumer => encodeAscii "CC".toList

def runCommand (command : List UInt8) (args : Option (List UInt8)) : Option Command :=
  if command = encodeAscii "PING".toList then some .ping
  else if command = encodeAscii "STATUS".toList ∨ command = encodeAscii "SNAP".toList then
    some .status
  else if command = encodeAscii "SNAPEVT".toList ∨ command = encodeAscii "STATUS_EVT".toList then
    some .statusSnapshot
  else if command = encodeAscii "INFO".toList then some .info
  else if command = encodeAscii "UNPAIR".toList then some .unpair
  else if command = commandWord .keyboard then reportCommand .keyboard args
  else if command = commandWord .consumer then reportCommand .consumer args
  else some .einval

def cmdHandleLine (line : List UInt8) : Option Command := do
  let line ← skipBlanks line
  let (n, line) ← trimTrailing line (← strlen line)
  if n = 0 then return .nothing
  let (command, args) ← splitCommand line
  runCommand (command.map toUpper) (← findArgs args)

/-! ### The text of a line -/

def trim (s : List UInt8) : List UInt8 :=
  ((s.dropWhile isBlank).reverse.dropWhile isTrailing).reverse

def commandToken (s : List UInt8) : List UInt8 := (trim s).takeWhile (!isBlank ·)

/-- What follows the command, without the blanks around it. -/
def argument (s : List UInt8) : List UInt8 :=
  ((trim s).dropWhile (!isBlank ·)).dropWhile isBlank

/-- The bytes that hexadecimal digits spell, two for each. -/
def decodeHex : List UInt8 → Option (List UInt8)
  | [] => some []
  | [_] => none
  | h :: l :: hex =>
    (hexNibble h).bind fun hi => (hexNibble l).bind fun lo =>
      (decodeHex hex).map ((hi <<< 4 ||| lo) :: ·)

def IsHexDigit (c : UInt8) : Prop :=
  0x30 ≤ c.toNat ∧ c.toNat ≤ 0x39 ∨ 0x41 ≤ c.toNat ∧ c.toNat ≤ 0x46 ∨
    0x61 ≤ c.toNat ∧ c.toNat ≤ 0x66

instance (c : UInt8) : Decidable (IsHexDigit c) := inferInstanceAs (Decidable (_ ∨ _))

theorem hexNibble_nul : hexNibble 0 = none := by decide

theorem hexNibble_isSome (c : UInt8) : (hexNibble c).isSome = true ↔ IsHexDigit c := by
  have hall : ∀ n : Fin 256, (hexNibble (UInt8.ofNat n)).isSome = true ↔
      IsHexDigit (UInt8.ofNat n) := by decide +kernel
  simpa using hall ⟨c.toNat, c.toNat_lt⟩

theorem decodeHex_isSome (hex : List UInt8) :
    (decodeHex hex).isSome = true ↔ hex.length % 2 = 0 ∧ ∀ c ∈ hex, IsHexDigit c := by
  induction hex using decodeHex.induct with
  | case1 => simp [decodeHex]
  | case2 c => simp [decodeHex]
  | case3 h l hex ih =>
    simp only [List.forall_mem_cons, ← hexNibble_isSome h, ← hexNibble_isSome l,
      List.length_cons, Nat.add_assoc, Nat.reduceAdd, Nat.add_mod_right]
    cases hh : hexNibble h with
    | none => simp [decodeHex, hh]
    | some hi =>
      cases hl : hexNibble l with
      | none => simp [decodeHex, hh, hl]
      | some lo => simpa [decodeHex, hh, hl] using ih

theorem decodeHex_length {hex out : List UInt8} (h : decodeHex hex = some out) :
    hex.length = 2 * out.length := by
  induction hex using decodeHex.induct generalizing out with
  | case1 =>
    obtain rfl := Option.some.inj h
    rfl
  | case2 => cases h
  | case3 c l hex ih =>
    obtain ⟨hi, -, hlo⟩ := Option.bind_eq_some_iff.mp h
    obtain ⟨lo, -, hrest⟩ := Option.bind_eq_some_iff.mp hlo
    obtain ⟨rest, hdec, rfl⟩ := Option.map_eq_some_iff.mp hrest
    simp only [List.length_cons, ih hdec]
    omega

/-- The digits are looked at one by one, so the reading ends at the NUL at the latest. -/
theorem hexToBytes_text (hex rest : List UInt8) (n : Nat) : hexToBytes (hex ++ 0 :: rest) n =
    some (if 2 * n ≤ hex.length then decodeHex (hex.take (2 * n)) else none) := by
  induction n generalizing hex with
  | zero => simp [hexToBytes, decodeHex]
  | succ n ih =>
    match hex with
    | [] => simp [hexToBytes, hexNibble_nul]
    | [h] =>
      have hshort : ¬ 2 * (n + 1) ≤ 1 := by omega
      cases hh : hexNibble h with
      | none => simp [hexToBytes, hh, hshort]
      | some hi => simp [hexToBytes, hh, hexNibble_nul, hshort]
    | h :: l :: hex =>
      have htake : (h :: l :: hex).take (2 * (n + 1)) = h :: l :: hex.take (2 * n) := by
        rw [Nat.mul_add]
        rfl
      have hle : 2 * (n + 1) ≤ (h :: l :: hex).length ↔ 2 * n ≤ hex.length := by
        simp only [List.length_cons]
        omega
      rw [htake]
      simp only [hle]
      cases hh : hexNibble h with
      | none => simp [hexToBytes, decodeHex, hh]
      | some hi =>
        cases hl : hexNibble l with
        | none => simp [hexToBytes, decodeHex, hh, hl]
        | some lo =>
          simp only [List.cons_append, hexToBytes, hh, hl, ih, decodeHex, Option.map_some,
            Option.bind_some]
          split <;> rfl

/-- The blanks end at the NUL at the latest. -/
theorem skipBlanks_text (s rest : List UInt8) :
    skipBlanks (s ++ 0 :: rest) = some (s.dropWhile isBlank ++ 0 :: rest) := by
  induction s with
  | nil => rfl
  | cons c s ih =>
    by_cases hc : isBlank c = true
    · simp [skipBlanks, hc, ih]
    · simp [skipBlanks, hc]

theorem strlen_text {s : List UInt8} (h : 0 ∉ s) (rest : List UInt8) :
    strlen (s ++ 0 :: rest) = some s.length := by
  induction s with
  | nil => rfl
  | cons c s ih =>
    have hc := List.ne_of_not_mem_cons h
    have hs := List.not_mem_of_not_mem_cons h
    simp [strlen, Ne.symm hc, ih hs]

/-- What is trimmed is overwritten with NULs. -/
theorem trimTrailing_text (s rest : List UInt8) :
    ∃ k, trimTrailing (s ++ 0 :: rest) s.length =
      some ((s.reverse.dropWhile isTrailing).length,
        (s.reverse.dropWhile isTrailing).reverse ++ 0 :: (List.replicate k 0 ++ rest)) := by
  induction s using List.reverseRecOn generalizing rest with
  | nil => exact ⟨0, rfl⟩
  | append_singleton s c ih =>
    have hread : (s ++ [c] ++ 0 :: rest)[s.length]? = some c := by simp
    rw [List.length_append, List.length_singleton, trimTrailing, hread, Option.bind_some,
      List.reverse_append, List.reverse_singleton, List.singleton_append]
    by_cases hc : isTrailing c = true
    · have hset : (s ++ [c] ++ 0 :: rest).set s.length 0 = s ++ 0 :: 0 :: rest := by simp
      obtain ⟨k, hk⟩ := ih (0 :: rest)
      refine ⟨k + 1, ?_⟩
      rw [if_pos hc, hset, hk, List.dropWhile_cons_of_pos hc, List.replicate_succ']
      simp
    · refine ⟨0, ?_⟩
      rw [if_neg hc, List.dropWhile_cons_of_neg hc]
      simp

/-- The pointer behind the blank that ends the command. -/
def pastBlank (rest : List UInt8) : List UInt8 → Option (List UInt8)
  | [] => none
  | _ :: args => some (args ++ 0 :: rest)

/-- The pointer to an argument, if there is one. -/
def argPointer (rest arg : List UInt8) : Option (List UInt8) :=
  if arg = [] then none else some (arg ++ 0 :: rest)

theorem splitCommand_text {s : List UInt8} (h : 0 ∉ s) (rest : List UInt8) :
    splitCommand (s ++ 0 :: rest) =
      some (s.takeWhile (!isBlank ·), pastBlank rest (s.dropWhile (!isBlank ·))) := by
  induction s with
  | nil => rfl
  | cons c s ih =>
    have hc := List.ne_of_not_mem_cons h
    have hs := List.not_mem_of_not_mem_cons h
    by_cases hblank : isBlank c = true
    · simp [splitCommand, Ne.symm hc, hblank, pastBlank]
    · simp [splitCommand, Ne.symm hc, hblank, ih hs]

/-- The argument pointer, from what follows the command. -/
theorem findArgs_text {s : List UInt8} (h : 0 ∉ s) (rest : List UInt8) :
    findArgs (pastBlank rest s) = some (argPointer rest ((s.drop 1).dropWhile isBlank)) := by
  cases s with
  | nil => rfl
  | cons c args =>
    have hargs : 0 ∉ args.dropWhile isBlank := fun hmem =>
      h (List.mem_cons_of_mem _ ((List.dropWhile_sublist _).mem hmem))
    simp only [pastBlank, findArgs, skipBlanks_text, Option.bind_some, List.drop_succ_cons,
      List.drop_zero]
    cases harg : args.dropWhile isBlank with
    | nil => rfl
    | cons d arg =>
      rw [harg] at hargs
      have hd : d ≠ 0 := fun heq => hargs (by simp [heq])
      simp [argPointer, hd]

theorem argument_eq (s : List UInt8) :
    argument s = (((trim s).dropWhile (!isBlank ·)).drop 1).dropWhile isBlank := by
  unfold argument
  cases hrest : (trim s).dropWhile (!isBlank ·) with
  | nil => rfl
  | cons c rest =>
    have hc : isBlank c = true := by
      have hhead := List.head?_dropWhile_not (!isBlank ·) (trim s)
      rw [hrest] at hhead
      simpa using hhead
    rw [List.dropWhile_cons_of_pos hc]
    rfl

theorem nul_notMem_trim {s : List UInt8} (h : 0 ∉ s) : 0 ∉ trim s := by
  intro hmem
  have hrev := (List.dropWhile_sublist _).mem (List.mem_reverse.mp hmem)
  exact h ((List.dropWhile_sublist _).mem (List.mem_reverse.mp hrev))

/-- The command is run with the words of the line. `rest` is what the trimming has left behind
them. -/
theorem cmdHandleLine_text {s : List UInt8} (h : 0 ∉ s) : ∃ rest, cmdHandleLine (s ++ [0]) =
    if trim s = [] then some .nothing
    else runCommand ((commandToken s).map toUpper) (argPointer rest (argument s)) := by
  have hblanks : 0 ∉ s.dropWhile isBlank := fun hmem => h ((List.dropWhile_sublist _).mem hmem)
  obtain ⟨k, hk⟩ := trimTrailing_text (s.dropWhile isBlank) []
  refine ⟨List.replicate k 0 ++ [], ?_⟩
  have htrim : ((s.dropWhile isBlank).reverse.dropWhile isTrailing).reverse = trim s := rfl
  have hlen : ((s.dropWhile isBlank).reverse.dropWhile isTrailing).length = (trim s).length := by
    rw [← htrim, List.length_reverse]
  have hnul := nul_notMem_trim h
  have hrest : 0 ∉ (trim s).dropWhile (!isBlank ·) := fun hmem =>
    hnul ((List.dropWhile_sublist _).mem hmem)
  rw [hlen, htrim] at hk
  simp only [cmdHandleLine, skipBlanks_text, strlen_text hblanks, hk, Option.bind_eq_bind,
    Option.bind_some, List.length_eq_zero_iff]
  by_cases hempty : trim s = []
  · rw [if_pos hempty, if_pos hempty]
    rfl
  · rw [if_neg hempty, if_neg hempty, splitCommand_text hnul, Option.bind_some]
    dsimp only
    rw [findArgs_text hrest, Option.bind_some, argument_eq]
    rfl

theorem reportCommand_text (u : Usage) (arg rest : List UInt8) :
    reportCommand u (argPointer rest arg) = some (if 2 * u.size ≤ arg.length then
        (decodeHex (arg.take (2 * u.size))).elim .einval (Command.report u)
      else .einval) := by
  unfold argPointer
  by_cases hempty : arg = []
  · subst hempty
    cases u <;> rfl
  · rw [if_neg hempty, reportCommand, hexToBytes_text, Option.map_some]
    by_cases hle : 2 * u.size ≤ arg.length
    · rw [if_pos hle, if_pos hle]
      cases decodeHex (arg.take (2 * u.size)) with
      | none => rfl
      | some out => rfl
    · rw [if_neg hle, if_neg hle]

theorem runCommand_report (u : Usage) (args : Option (List UInt8)) :
    runCommand (commandWord u) args = reportCommand u args := by
  cases u <;> rfl

theorem runCommand_isSome {command : List UInt8} {args : Option (List UInt8)}
    (h : ∀ u, (reportCommand u args).isSome) : (runCommand command args).isSome := by
  unfold runCommand
  split_ifs
  all_goals first | rfl | exact h _

/-- Every line is handled without a read past its NUL. -/
theorem cmdHandleLine_isSome {s : List UInt8} (h : 0 ∉ s) : (cmdHandleLine (s ++ [0])).isSome := by
  obtain ⟨rest, hline⟩ := cmdHandleLine_text h
  rw [hline]
  split
  · rfl
  · exact runCommand_isSome fun u => by rw [reportCommand_text]; rfl

/-- As many digits as the report needs, and nothing else. -/
def Spells (u : Usage) (arg : List UInt8) : Prop :=
  arg.length = 2 * u.size ∧ ∀ c ∈ arg, IsHexDigit c

/-- The digits of a report send what its binary frame sends, and anything else sends nothing. -/
def FollowsGrammar (u : Usage) (arg : List UInt8) (c : Command) : Prop :=
  (Spells u arg → ∃ f : Frame, f.usage = u ∧ decodeHex arg = some f.report ∧
    c.reports = (feed ⟨.loop, []⟩ f.bytes).2) ∧
  (¬ Spells u arg → c = .einval)

theorem decodeHex_take {u : Usage} {arg : List UInt8} (h : 2 * u.size ≤ arg.length) :
    (decodeHex (arg.take (2 * u.size))).isSome = true ↔
      ∀ c ∈ arg.take (2 * u.size), IsHexDigit c := by
  rw [decodeHex_isSome, List.length_take, Nat.min_eq_left h, Nat.mul_mod_right]
  simp

theorem reportCommand_follows {u : Usage} {arg rest : List UInt8} :
    ∃ c, reportCommand u (argPointer rest arg) = some c ∧ (FollowsGrammar u arg c ↔
      ¬ (2 * u.size < arg.length ∧ ∀ x ∈ arg.take (2 * u.size), IsHexDigit x)) := by
  refine ⟨_, reportCommand_text u arg rest, ?_⟩
  by_cases hlong : 2 * u.size < arg.length
  · have hnot : ¬ Spells u arg := fun hspells => absurd hspells.1 (by omega)
    simp only [FollowsGrammar, hnot, false_implies, true_and, not_false_eq_true, true_implies,
      hlong, if_pos (Nat.le_of_lt hlong)]
    rw [← decodeHex_take (Nat.le_of_lt hlong)]
    cases decodeHex (arg.take (2 * u.size)) with
    | none => simp
    | some out => simp
  · simp only [hlong, false_and, not_false_eq_true, iff_true]
    refine ⟨fun hspells => ?_, fun hnot => ?_⟩
    · have htake : arg.take (2 * u.size) = arg := List.take_of_length_le (Nat.le_of_eq hspells.1)
      have hsome : (decodeHex arg).isSome = true :=
        (decodeHex_isSome arg).mpr ⟨by rw [hspells.1, Nat.mul_mod_right], hspells.2⟩
      obtain ⟨out, hout⟩ := Option.isSome_iff_exists.mp hsome
      have hsized : out.length = u.size := by
        have := decodeHex_length hout
        have := hspells.1
        omega
      refine ⟨⟨u, out, hsized⟩, rfl, hout, ?_⟩
      rw [if_pos (Nat.le_of_eq hspells.1.symm), htake, hout, feed_frame]
      rfl
    · by_cases hle : 2 * u.size ≤ arg.length
      · have hlen : arg.length = 2 * u.size := by omega
        have hdigits : ¬ ∀ x ∈ arg.take (2 * u.size), IsHexDigit x := fun hall =>
          hnot ⟨hlen, by rwa [List.take_of_length_le (Nat.le_of_eq hlen)] at hall⟩
        rw [← decodeHex_take hle, Bool.not_eq_true, Option.isSome_eq_false_iff,
          Option.isNone_iff_eq_none] at hdigits
        rw [if_pos hle, hdigits]
        rfl
      · rw [if_neg hle]

/-- A KB or CC line is read up to its NUL at most, and follows the grammar exactly if its argument
does not go on after the digits of a report. -/
theorem report_line_iff {s : List UInt8} (h : 0 ∉ s) {u : Usage}
    (hcommand : (commandToken s).map toUpper = commandWord u) :
    ∃ c, cmdHandleLine (s ++ [0]) = some c ∧ (FollowsGrammar u (argument s) c ↔
      ¬ (2 * u.size < (argument s).length ∧
        ∀ x ∈ (argument s).take (2 * u.size), IsHexDigit x)) := by
  obtain ⟨rest, hline⟩ := cmdHandleLine_text h
  have hword : trim s ≠ [] := by
    intro hempty
    rw [commandToken, hempty] at hcommand
    cases u <;> cases hcommand
  rw [if_neg hword, hcommand, runCommand_report] at hline
  rw [hline]
  exact reportCommand_follows

theorem report_line_lower_case : ∃ c, cmdHandleLine (encodeAscii "cc E900 ".toList ++ [0]) = some c ∧
    (FollowsGrammar .consumer (argument (encodeAscii "cc E900 ".toList)) c ↔
      ¬ (2 * Usage.consumer.size < (argument (encodeAscii "cc E900 ".toList)).length ∧
        ∀ x ∈ (argument (encodeAscii "cc E900 ".toList)).take (2 * Usage.consumer.size),
          IsHexDigit x)) :=
  report_line_iff (by decide) (by decide)

/-- Four digits and a word after them are a report too. -/
theorem trailing_text_sent : ¬ ∀ s : List UInt8, 0 ∉ s → ∀ u,
    (commandToken s).map toUpper = commandWord u →
      ∃ c, cmdHandleLine (s ++ [0]) = some c ∧ FollowsGrammar u (argument s) c := by
  intro hall
  obtain ⟨c, hc, -, heinval⟩ := hall (encodeAscii "CC E900 now".toList) (by decide) .consumer
    (by decide)
  have hnot : ¬ Spells .consumer (argument (encodeAscii "CC E900 now".toList)) := fun hspells =>
    absurd hspells.1 (by decide)
  rw [heinval hnot] at hc
  revert hc
  decide

end PiHub.TextCommands

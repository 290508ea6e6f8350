import Mathlib.Data.List.Induction
import PiHub.HostFrames
import PiHub.LineOutput

/-! How `_ingest_rx_bytes` (ble_dongle.py) cuts what the serial port delivers into lines. -/
namespace PiHub.RxLines
open HostFrames LineOutput

/-- Python's `decode("ascii", errors="replace")`. -/
def decodeAscii (bs : List UInt8) : List Char :=
  bs.map fun b => if b.toNat < 128 then Char.ofNat b.toNat else '\uFFFD'

/-- The text of a line without its CR and LF, if any is left. -/
def lineText (line : List UInt8) : Option (List Char) :=
  let text := rstripNewlines (decodeAscii line)
  if text = [] then none else some text

/-- One byte: the `_rx_buf` after it, and the line that goes to `_handle_line`. -/
def ingestByte (rxBuf : List UInt8) (b : UInt8) : List UInt8 × Option (List Char) :=
  if b = 0 then (rxBuf, none)
  else if rxLineMax < (rxBuf ++ [b]).length then ([], none)
  else if b = 0x0A then ([], lineText (rxBuf ++ [b]))
  else (rxBuf ++ [b], none)

def ingestRxBytes (rxBuf : List UInt8) : List UInt8 → List UInt8 × List (List Char)
  | [] => (rxBuf, [])
  | b :: chunk =>
    let now := ingestByte rxBuf b
    let rest := ingestRxBytes now.1 chunk
    (rest.1, now.2.toList ++ rest.2)

/-- The lines handed on over several calls. -/
def ingestChunks (rxBuf : List UInt8) : List (List UInt8) → List (List Char)
  | [] => []
  | chunk :: chunks =>
    let now := ingestRxBytes rxBuf chunk
    now.2 ++ ingestChunks now.1 chunks

/-- The lines of a stream that a newline ends, with the newline; `line` has come before. -/
def terminatedLines (line : List UInt8) : List UInt8 → List (List UInt8)
  | [] => []
  | b :: bs =>
    if b = 0x0A then (line ++ [b]) :: terminatedLines [] bs else terminatedLines (line ++ [b]) bs

/-- The lines of a stream without its NUL bytes. -/
def streamLines (stream : List UInt8) : List (List UInt8) :=
  terminatedLines [] (stream.filter (· ≠ 0))

/-- What remains of a line when every full buffer of it has been cleared. -/
def remainder (line : List UInt8) : List UInt8 :=
  line.drop ((rxLineMax + 1) * (line.length / (rxLineMax + 1)))

theorem length_remainder (line : List UInt8) :
    (remainder line).length = line.length % (rxLineMax + 1) := by
  have hdiv := Nat.div_add_mod line.length (rxLineMax + 1)
  simp only [remainder, List.length_drop]
  omega

theorem remainder_short {line : List UInt8} (h : line.length ≤ rxLineMax) :
    remainder line = line := by
  have hzero : line.length / (rxLineMax + 1) = 0 := Nat.div_eq_of_lt (by omega)
  simp [remainder, hzero]

theorem remainder_concat (line : List UInt8) (b : UInt8) : remainder (line ++ [b]) =
    if rxLineMax < (remainder line ++ [b]).length then [] else remainder line ++ [b] := by
  have hpos : 0 < rxLineMax + 1 := Nat.succ_pos _
  have hmod := Nat.mod_lt line.length hpos
  have hdiv := Nat.div_add_mod line.length (rxLineMax + 1)
  have hlen := length_remainder line
  by_cases hfull : line.length % (rxLineMax + 1) = rxLineMax
  · rw [if_pos (by simp [hlen, hfull])]
    apply List.length_eq_zero_iff.mp
    rw [length_remainder, List.length_append, List.length_singleton, Nat.add_mod, hfull]
    rfl
  · have hsame : (line.length + 1) / (rxLineMax + 1) = line.length / (rxLineMax + 1) := by
      rw [Nat.div_eq_iff hpos]
      have hcomm := Nat.mul_comm (rxLineMax + 1) (line.length / (rxLineMax + 1))
      omega
    have hle : (rxLineMax + 1) * (line.length / (rxLineMax + 1)) ≤ line.length := by omega
    rw [if_neg (by simp only [List.length_append, List.length_singleton, hlen]; omega)]
    rw [remainder, List.length_append, List.length_singleton, hsame,
      List.drop_append_of_le_length hle]
    rfl

theorem ingestRxBytes_append (rxBuf bs cs : List UInt8) : (ingestRxBytes rxBuf (bs ++ cs)).2 =
    (ingestRxBytes rxBuf bs).2 ++ (ingestRxBytes (ingestRxBytes rxBuf bs).1 cs).2 := by
  induction bs generalizing rxBuf with
  | nil => rfl
  | cons b bs ih => simp [ingestRxBytes, ih]

theorem ingestChunks_eq (rxBuf : List UInt8) (chunks : List (List UInt8)) :
    ingestChunks rxBuf chunks = (ingestRxBytes rxBuf chunks.flatten).2 := by
  induction chunks generalizing rxBuf with
  | nil => rfl
  | cons chunk chunks ih => rw [ingestChunks, ih, List.flatten_cons, ingestRxBytes_append]

/-- The lines handed on are the texts of what remains of each line of the stream. -/
theorem ingestRxBytes_lines (line : List UInt8) (stream : List UInt8) :
    (ingestRxBytes (remainder line) stream).2 =
      (terminatedLines line (stream.filter (· ≠ 0))).filterMap fun l => lineText (remainder l) := by
  induction stream generalizing line with
  | nil => rfl
  | cons b bs ih =>
    rw [ingestRxBytes]
    by_cases hnul : b = 0
    · simp [ingestByte, hnul, ih]
    · rw [List.filter_cons_of_pos (by simpa using hnul), terminatedLines]
      have hnext := remainder_concat line b
      by_cases hlong : rxLineMax < (remainder line ++ [b]).length
      · rw [if_pos hlong] at hnext
        have hbyte : ingestByte (remainder line) b = ([], none) := by
          rw [ingestByte, if_neg hnul, if_pos hlong]
        by_cases hnl : b = 0x0A
        · rw [if_pos hnl, List.filterMap_cons, hnext, hbyte]
          exact ih []
        · rw [if_neg hnl, ← ih (line ++ [b]), hnext, hbyte]
          rfl
      · rw [if_neg hlong] at hnext
        by_cases hnl : b = 0x0A
        · have hbyte : ingestByte (remainder line) b = ([], lineText (remainder line ++ [b])) := by
            rw [ingestByte, if_neg hnul, if_neg hlong, if_pos hnl]
          rw [if_pos hnl, List.filterMap_cons, hnext, hbyte, ← ih []]
          cases lineText (remainder line ++ [b]) with
          | none => rfl
          | some text => rfl
        · have hbyte : ingestByte (remainder line) b = (remainder line ++ [b], none) := by
            rw [ingestByte, if_neg hnul, if_neg hlong, if_neg hnl]
          rw [if_neg hnl, ← ih (line ++ [b]), hnext, hbyte]
          rfl

/-- Where `g` gives something `f` gives the same. -/
theorem filterMap_sublist {α β : Type*} {f g : α → Option β} {l : List α}
    (h : ∀ x ∈ l, g x = none ∨ g x = f x) : (l.filterMap g).Sublist (l.filterMap f) := by
  induction l with
  | nil => exact List.Sublist.slnil
  | cons x xs ih =>
    have hrest := ih fun y hy => h y (List.mem_cons_of_mem _ hy)
    rw [List.filterMap_cons, List.filterMap_cons]
    rcases h x List.mem_cons_self with hnone | hsame
    · rw [hnone]
      cases f x with
      | none => exact hrest
      | some y => exact hrest.cons y
    · rw [hsame]
      cases f x with
      | none => exact hrest
      | some y => exact hrest.cons_cons y

theorem filterMap_eq_iff {α β : Type*} {f g : α → Option β} {l : List α}
    (h : ∀ x ∈ l, g x = none ∨ g x = f x) :
    l.filterMap f = l.filterMap g ↔ ∀ x ∈ l, f x = g x := by
  refine ⟨fun heq => ?_, fun hall => List.filterMap_congr hall⟩
  induction l with
  | nil => simp
  | cons x xs ih =>
    have hxs : ∀ y ∈ xs, g y = none ∨ g y = f y := fun y hy => h y (List.mem_cons_of_mem _ hy)
    rw [List.forall_mem_cons]
    rw [List.filterMap_cons, List.filterMap_cons] at heq
    rcases h x (List.mem_cons_self ..) with hnone | hsame
    · rw [hnone] at heq
      cases hf : f x with
      | none =>
        rw [hf] at heq
        exact ⟨hnone.symm, ih hxs heq⟩
      | some y =>
        rw [hf] at heq
        have hlen := congrArg List.length heq
        have hle := (filterMap_sublist hxs).length_le
        simp only [List.length_cons] at hlen
        omega
    · rw [hsame] at heq
      refine ⟨hsame.symm, ih hxs ?_⟩
      cases hf : f x with
      | none => simpa [hf] using heq
      | some y => simpa [hf] using heq

/-- The lines of a stream in the host's reading of it, when over-long ones are dropped whole. -/
def wholeLines (stream : List UInt8) : List (List Char) :=
  ((streamLines stream).filter fun l => l.length ≤ rxLineMax).filterMap lineText

/-- Exactly the lines of at most 512 bytes are handed on, if and only if nothing but CR and LF
remains of each longer line when every 513 bytes of it have been cleared. -/
theorem ingest_wholeLines_iff (chunks : List (List UInt8)) :
    ingestChunks [] chunks = wholeLines chunks.flatten ↔
      ∀ l ∈ streamLines chunks.flatten, rxLineMax < l.length →
        rstripNewlines (decodeAscii (remainder l)) = [] := by
  have hread : ingestChunks [] chunks =
      (streamLines chunks.flatten).filterMap fun l => lineText (remainder l) := by
    rw [ingestChunks_eq]
    exact ingestRxBytes_lines [] chunks.flatten
  have hspec : wholeLines chunks.flatten = (streamLines chunks.flatten).filterMap fun l =>
      if l.length ≤ rxLineMax then lineText l else none := by
    rw [wholeLines, List.filterMap_filter]
    simp
  rw [hread, hspec, filterMap_eq_iff]
  · refine forall₂_congr fun l _ => ?_
    by_cases hshort : l.length ≤ rxLineMax
    · have hnot : ¬ rxLineMax < l.length := Nat.not_lt_of_le hshort
      simp [hshort, hnot, remainder_short hshort]
    · simp only [if_neg hshort, lineText, Nat.lt_of_not_le hshort, true_implies]
      simp
  · intro l _
    by_cases hshort : l.length ≤ rxLineMax
    · exact Or.inr (by simp [hshort, remainder_short hshort])
    · exact Or.inl (if_neg hshort)

/-- A line of 517 bytes that ends like a PONG. -/
theorem long_line_tail : ¬ ∀ chunks : List (List UInt8),
    ingestChunks [] chunks = wholeLines chunks.flatten := by
  intro hall
  have hline := hall [List.replicate 513 0x41, [0x50, 0x4F, 0x4E, 0x47, 0x0A]]
  exact absurd hline (by decide +kernel)

end PiHub.RxLines

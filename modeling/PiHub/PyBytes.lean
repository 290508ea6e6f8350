import Mathlib.Data.List.Basic
import Mathlib.Data.List.Infix

/-! Python's bytes: `find`, `struct`'s little-endian integers, and UTF-8 with
`errors="replace"`. -/
namespace PiHub.PyBytes

/-- `data.find(sub)`. -/
def find (sub : List UInt8) : List UInt8 → Option Nat
  | [] => if sub = [] then some 0 else none
  | b :: bs => if sub <+: b :: bs then some 0 else (find sub bs).map (· + 1)

/-- `struct.pack("<I", n)`. -/
def packLe32 (n : Nat) : List UInt8 :=
  [.ofNat n, .ofNat (n / 256), .ofNat (n / 65536), .ofNat (n / 16777216)]

/-- A little-endian integer. -/
def unpackLe (bs : List UInt8) : Nat := bs.foldr (fun b n => b.toNat + 256 * n) 0

/-- `s.encode("utf-8")`. -/
def encode (s : String) : List UInt8 := s.toList.flatMap String.utf8EncodeChar

/-- A character in progress: its value so far, the bytes still due, the range of the next. -/
structure Partial where
  value : Nat
  due : Nat
  low : Nat
  high : Nat

/-- What the first byte of a character of several bytes begins. -/
def leads (b : Nat) : Option Partial :=
  if 0xC2 ≤ b ∧ b ≤ 0xDF then some ⟨b - 0xC0, 1, 0x80, 0xBF⟩
  else if 0xE0 ≤ b ∧ b ≤ 0xEF then
    some ⟨b - 0xE0, 2, if b = 0xE0 then 0xA0 else 0x80, if b = 0xED then 0x9F else 0xBF⟩
  else if 0xF0 ≤ b ∧ b ≤ 0xF4 then
    some ⟨b - 0xF0, 3, if b = 0xF0 then 0x90 else 0x80, if b = 0xF4 then 0x8F else 0xBF⟩
  else none

def replacement : Char := Char.ofNat 0xFFFD

/-- A byte where a character begins: what it decodes to at once, and what it begins. -/
def first (b : Nat) : List Char × Option Partial :=
  if b < 0x80 then ([Char.ofNat b], none)
  else match leads b with
    | none => ([replacement], none)
    | some p => ([], some p)

/-- Decode with a character in progress. A byte that does not continue it turns what there is of
it into one replacement character and begins anew. -/
def decodeFrom : Option Partial → List UInt8 → List Char
  | none, [] => []
  | some _, [] => [replacement]
  | none, b :: bs => (first b.toNat).1 ++ decodeFrom (first b.toNat).2 bs
  | some p, b :: bs =>
    if p.low ≤ b.toNat ∧ b.toNat ≤ p.high then
      let value := p.value * 64 + (b.toNat - 0x80)
      if p.due = 1 then Char.ofNat value :: decodeFrom none bs
      else decodeFrom (some ⟨value, p.due - 1, 0x80, 0xBF⟩) bs
    else replacement :: (first b.toNat).1 ++ decodeFrom (first b.toNat).2 bs

/-- `data.decode("utf-8", errors="replace")`. -/
def decode (bs : List UInt8) : String := String.ofList (decodeFrom none bs)

theorem toNat_byte {n : Nat} (h : n < 256) : (UInt8.ofNat n).toNat = n := by
  simp [Nat.mod_eq_of_lt h]

theorem unpackLe_packLe32 {n : Nat} (h : n < 0x100000000) : unpackLe (packLe32 n) = n := by
  simp [unpackLe, packLe32]
  omega

theorem prefix_append_of_le {sub l : List UInt8} (h : sub.length ≤ l.length) (m : List UInt8) :
    sub <+: l ++ m ↔ sub <+: l :=
  ⟨fun hpre => List.prefix_of_prefix_length_le hpre (List.prefix_append l m) h,
    fun hpre => hpre.trans (List.prefix_append l m)⟩

theorem find_cons {sub bs : List UInt8} {b : UInt8} (h : ¬ sub <+: b :: bs) :
    find sub (b :: bs) = (find sub bs).map (· + 1) := by
  simp [find, h]

/-- What is found lies in the data. -/
theorem find_length {sub bs : List UInt8} {i : Nat} (h : find sub bs = some i) :
    i + sub.length ≤ bs.length := by
  induction bs generalizing i with
  | nil =>
    obtain ⟨rfl, rfl⟩ : sub = [] ∧ 0 = i := by simpa [find] using h
    simp
  | cons b bs ih =>
    by_cases hpre : sub <+: b :: bs
    · obtain rfl : 0 = i := by simpa [find, hpre] using h
      simpa using hpre.length_le
    · rw [find_cons hpre] at h
      obtain ⟨j, hj, rfl⟩ := Option.map_eq_some_iff.mp h
      have hlength := ih hj
      rw [List.length_cons]
      omega

theorem find_zero {sub bs : List UInt8} (h : sub <+: bs) : find sub bs = some 0 := by
  cases bs with
  | nil =>
    obtain rfl := List.prefix_nil.mp h
    rfl
  | cons b bs => simp [find, h]

theorem find_drop {sub bs : List UInt8} {i : Nat} (h : find sub bs = some i) :
    sub <+: bs.drop i := by
  induction bs generalizing i with
  | nil =>
    obtain ⟨rfl, rfl⟩ : sub = [] ∧ 0 = i := by simpa [find] using h
    exact List.nil_prefix
  | cons b bs ih =>
    by_cases hpre : sub <+: b :: bs
    · obtain rfl : 0 = i := by simpa [find, hpre] using h
      exact hpre
    · rw [find_cons hpre] at h
      obtain ⟨j, hj, rfl⟩ := Option.map_eq_some_iff.mp h
      exact ih hj

/-- It is the first place where `sub` begins. -/
theorem find_eq {sub bs : List UInt8} {n : Nat} (hn : sub <+: bs.drop n)
    (hlt : ∀ i, i < n → ¬ sub <+: bs.drop i) : find sub bs = some n := by
  induction n generalizing bs with
  | zero => exact find_zero hn
  | succ n ih =>
    have h0 : ¬ sub <+: bs := hlt 0 (Nat.zero_lt_succ n)
    cases bs with
    | nil => exact absurd (by simpa using hn) h0
    | cons b bs =>
      rw [find_cons h0, ih hn fun i hi => hlt (i + 1) (Nat.succ_lt_succ hi)]
      rfl

theorem find_none {sub bs : List UInt8} (hsub : sub ≠ [])
    (h : ∀ i, i < bs.length → ¬ sub <+: bs.drop i) : find sub bs = none := by
  induction bs with
  | nil => simp [find, hsub]
  | cons b bs ih =>
    rw [find_cons (h 0 (by simp)), ih fun i hi => h (i + 1) (by simpa using hi)]
    rfl

/-- More data does not change what has been found. -/
theorem find_append {sub bs : List UInt8} {i : Nat} (h : find sub bs = some i) (cs : List UInt8) :
    find sub (bs ++ cs) = some i := by
  induction bs generalizing i with
  | nil =>
    obtain ⟨rfl, rfl⟩ : sub = [] ∧ 0 = i := by simpa [find] using h
    exact find_zero List.nil_prefix
  | cons b bs ih =>
    by_cases hpre : sub <+: b :: bs
    · obtain rfl : 0 = i := by simpa [find, hpre] using h
      exact find_zero (hpre.trans (List.prefix_append _ cs))
    · have hlength := find_length h
      have hpre' : ¬ sub <+: b :: (bs ++ cs) := (prefix_append_of_le (by omega) cs).not.mpr hpre
      rw [find_cons hpre] at h
      obtain ⟨j, hj, rfl⟩ := Option.map_eq_some_iff.mp h
      rw [List.cons_append, find_cons hpre', ih hj]
      rfl

/-- When nothing has been found, all but the last `sub.length - 1` bytes can be forgotten: a
`sub` that more data completes begins in those. -/
theorem find_tail {sub bs : List UInt8} (h : find sub bs = none) (cs : List UInt8) :
    find sub (bs ++ cs) = (find sub (bs.drop (bs.length - (sub.length - 1)) ++ cs)).map
      (· + (bs.length - (sub.length - 1))) := by
  induction bs with
  | nil => simp
  | cons b bs ih =>
    by_cases hshort : bs.length + 1 ≤ sub.length - 1
    · simp [Nat.sub_eq_zero_of_le hshort]
    · have hpre : ¬ sub <+: b :: bs := fun hpre => by simp [find_zero hpre] at h
      have hlength : sub.length ≤ (b :: bs).length := by
        rw [List.length_cons]
        omega
      have hpre' : ¬ sub <+: b :: (bs ++ cs) := (prefix_append_of_le hlength cs).not.mpr hpre
      have hsucc : bs.length + 1 - (sub.length - 1) = bs.length - (sub.length - 1) + 1 := by omega
      rw [find_cons hpre, Option.map_eq_none_iff] at h
      rw [List.cons_append, find_cons hpre', ih h, List.length_cons, hsucc, List.drop_succ_cons,
        Option.map_map]
      rfl

theorem decodeFrom_ascii {n : Nat} (h : n < 0x80) (bs : List UInt8) :
    decodeFrom none (.ofNat n :: bs) = Char.ofNat n :: decodeFrom none bs := by
  simp [decodeFrom, first, toNat_byte (show n < 256 by omega), h]

theorem decodeFrom_leads {n : Nat} (h80 : 0x80 ≤ n) (h : n < 256) {p : Partial}
    (hp : leads n = some p) (bs : List UInt8) :
    decodeFrom none (.ofNat n :: bs) = decodeFrom (some p) bs := by
  simp [decodeFrom, first, toNat_byte h, Nat.not_lt.mpr h80, hp]

theorem decodeFrom_next {p : Partial} {n : Nat} (hlow : p.low ≤ n) (hhigh : n ≤ p.high)
    (h : n < 256) (hdue : p.due ≠ 1) (bs : List UInt8) : decodeFrom (some p) (.ofNat n :: bs) =
      decodeFrom (some ⟨p.value * 64 + (n - 0x80), p.due - 1, 0x80, 0xBF⟩) bs := by
  simp [decodeFrom, toNat_byte h, hlow, hhigh, hdue]

theorem decodeFrom_last {p : Partial} {n : Nat} (hlow : p.low ≤ n) (hhigh : n ≤ p.high)
    (h : n < 256) (hdue : p.due = 1) (bs : List UInt8) : decodeFrom (some p) (.ofNat n :: bs) =
      Char.ofNat (p.value * 64 + (n - 0x80)) :: decodeFrom none bs := by
  simp [decodeFrom, toNat_byte h, hlow, hhigh, hdue]

theorem leads_two {n : Nat} (hlow : 0xC2 ≤ n) (hhigh : n ≤ 0xDF) :
    leads n = some ⟨n - 0xC0, 1, 0x80, 0xBF⟩ := by
  simp [leads, hlow, hhigh]

theorem leads_three {n : Nat} (hlow : 0xE0 ≤ n) (hhigh : n ≤ 0xEF) : leads n =
    some ⟨n - 0xE0, 2, if n = 0xE0 then 0xA0 else 0x80, if n = 0xED then 0x9F else 0xBF⟩ := by
  simp [leads, hlow, hhigh, show ¬ n ≤ 0xDF by omega]

theorem leads_four {n : Nat} (hlow : 0xF0 ≤ n) (hhigh : n ≤ 0xF4) : leads n =
    some ⟨n - 0xF0, 3, if n = 0xF0 then 0x90 else 0x80, if n = 0xF4 then 0x8F else 0xBF⟩ := by
  simp [leads, hlow, hhigh, show ¬ n ≤ 0xDF by omega, show ¬ n ≤ 0xEF by omega]

/-- Decoding a character's bytes gives it back. The four lengths; surrogates and what is above
0x10FFFF are no characters, which is what the ranges after 0xED and 0xF4 ask for. -/
theorem decodeFrom_char (c : Char) (bs : List UInt8) :
    decodeFrom none (String.utf8EncodeChar c ++ bs) = c :: decodeFrom none bs := by
  have hvalid : c.toNat < 0xD800 ∨ 0xDFFF < c.toNat ∧ c.toNat < 0x110000 := c.valid
  have hback {n : Nat} (hn : n = c.toNat) : Char.ofNat n = c := by rw [hn, Char.ofNat_toNat]
  have hval : c.val.toNat = c.toNat := rfl
  simp only [String.utf8EncodeChar, hval]
  generalize c.toNat = v at hvalid hback
  by_cases h1 : v ≤ 0x7f
  · rw [if_pos h1, List.singleton_append, decodeFrom_ascii (by omega), hback rfl]
  rw [if_neg h1]
  by_cases h2 : v ≤ 0x7ff
  · rw [if_pos h2, List.cons_append, List.singleton_append,
      decodeFrom_leads (by omega) (by omega) (leads_two (by omega) (by omega)),
      decodeFrom_last (by dsimp only; omega) (by dsimp only; omega) (by omega) rfl]
    dsimp only
    rw [hback (by omega)]
  rw [if_neg h2]
  by_cases h3 : v ≤ 0xffff
  · rw [if_pos h3, List.cons_append, List.cons_append, List.singleton_append,
      decodeFrom_leads (by omega) (by omega) (leads_three (by omega) (by omega)),
      decodeFrom_next (by dsimp only; split <;> omega) (by dsimp only; split <;> omega) (by omega)
        (by simp),
      decodeFrom_last (by dsimp only; omega) (by dsimp only; omega) (by omega) rfl]
    dsimp only
    rw [hback (by omega)]
  · rw [if_neg h3, List.cons_append, List.cons_append, List.cons_append, List.singleton_append,
      decodeFrom_leads (by omega) (by omega) (leads_four (by omega) (by omega)),
      decodeFrom_next (by dsimp only; split <;> omega) (by dsimp only; split <;> omega) (by omega)
        (by simp),
      decodeFrom_next (by dsimp only; omega) (by dsimp only; omega) (by omega) (by simp),
      decodeFrom_last (by dsimp only; omega) (by dsimp only; omega) (by omega) rfl]
    dsimp only
    rw [hback (by omega)]

theorem decodeFrom_chars (cs : List Char) :
    decodeFrom none (cs.flatMap String.utf8EncodeChar) = cs := by
  induction cs with
  | nil => rfl
  | cons c cs ih => rw [List.flatMap_cons, decodeFrom_char, ih]

theorem decode_encode (s : String) : decode (encode s) = s := by
  rw [decode, encode, decodeFrom_chars, String.ofList_toList]

end PiHub.PyBytes

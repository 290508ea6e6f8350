import Mathlib.Algebra.Group.Nat.Defs
import Mathlib.Data.List.Basic

/-! ASCII text as the two programs write and read it: words joined by spaces, decimal
numbers, `key=value` fields. -/
namespace PiHub.Text

/-- White space to Python's `split()`, `strip()` and `int()`, below 128. -/
def isSpace (c : Char) : Bool :=
  c == ' ' || (9 ≤ c.toNat && c.toNat ≤ 13) || (28 ≤ c.toNat && c.toNat ≤ 31)

/-- `str.split()` after the characters of a word in progress. -/
def splitFrom (word : List Char) : List Char → List (List Char)
  | [] => if word = [] then [] else [word]
  | c :: cs =>
    if isSpace c then
      if word = [] then splitFrom [] cs else word :: splitFrom [] cs
    else splitFrom (word ++ [c]) cs

/-- `str.split()`. -/
def split (s : List Char) : List (List Char) := splitFrom [] s

/-- `s.split(sep, 1)` when `sep` occurs. -/
def splitOnce (sep : Char) : List Char → Option (List Char × List Char)
  | [] => none
  | c :: cs =>
    if c = sep then some ([], cs) else (splitOnce sep cs).map fun r => (c :: r.1, r.2)

/-- `str.strip()`. -/
def strip (s : List Char) : List Char :=
  ((s.dropWhile isSpace).reverse.dropWhile isSpace).reverse

/-- More digits after the value so far, an underscore allowed before each. -/
def digitsFrom : Nat → List Char → Option Nat
  | n, [] => some n
  | n, '_' :: c :: cs => if c.isDigit then digitsFrom (10 * n + (c.toNat - 48)) cs else none
  | n, c :: cs => if c.isDigit then digitsFrom (10 * n + (c.toNat - 48)) cs else none

def digits? : List Char → Option Nat
  | [] => none
  | c :: cs => if c.isDigit then digitsFrom (c.toNat - 48) cs else none

/-- `int(s)`; `none` is ValueError. -/
def int? (s : List Char) : Option Int :=
  match strip s with
  | '-' :: ds => (digits? ds).map fun n => -(n : Int)
  | '+' :: ds => (digits? ds).map fun n => (n : Int)
  | ds => (digits? ds).map fun n => (n : Int)

/-- The fields of a line as `kv[k] = v` collects them, the newest first. -/
def keyValues (words : List (List Char)) : List (List Char × List Char) :=
  (words.filterMap (splitOnce '=')).reverse

/-- `%u`. -/
def dec (n : Nat) : List Char := Nat.toDigits 10 n

/-- `%d`. -/
def sdec (i : Int) : List Char := if i < 0 then '-' :: dec i.natAbs else dec i.natAbs

/-- What `snprintk` leaves in a buffer of the given size. -/
def snprintk (size : Nat) (s : List Char) : List Char := s.take (size - 1)

def unwords : List (List Char) → List Char
  | [] => []
  | [w] => w
  | w :: v :: ws => w ++ ' ' :: unwords (v :: ws)

/-- Not empty and without white space. -/
def Word (w : List Char) : Prop := w ≠ [] ∧ ∀ c ∈ w, isSpace c = false

instance (w : List Char) : Decidable (Word w) :=
  have : Decidable (∀ c ∈ w, isSpace c = false) := List.decidableBAll _ w
  inferInstanceAs (Decidable (_ ∧ _))

theorem splitFrom_append (word w rest : List Char) (h : ∀ c ∈ w, isSpace c = false) :
    splitFrom word (w ++ rest) = splitFrom (word ++ w) rest := by
  induction w generalizing word with
  | nil => simp
  | cons c w ih =>
    have hc : isSpace c = false := h c (by simp)
    have hrest := ih (word ++ [c]) fun d hd => h d (by simp [hd])
    rw [List.cons_append, splitFrom, if_neg (by simp [hc]), hrest, List.append_assoc,
      List.singleton_append]

theorem split_unwords {ws : List (List Char)} (h : ∀ w ∈ ws, Word w) : split (unwords ws) = ws := by
  induction ws with
  | nil => rfl
  | cons w ws ih =>
    obtain ⟨hne, hw⟩ := h w (by simp)
    have htail := ih fun v hv => h v (by simp [hv])
    cases ws with
    | nil =>
      have hone := splitFrom_append [] w [] hw
      simpa [split, unwords, splitFrom, hne] using hone
    | cons v ws =>
      have hspace : isSpace ' ' = true := by decide
      rw [split, unwords, splitFrom_append [] w _ hw, List.nil_append, splitFrom, if_pos hspace,
        if_neg hne]
      exact congrArg (w :: ·) htail

theorem splitOnce_field {sep : Char} {k : List Char} (v : List Char) (h : sep ∉ k) :
    splitOnce sep (k ++ sep :: v) = some (k, v) := by
  induction k with
  | nil => simp [splitOnce]
  | cons c k ih =>
    have hc : c ≠ sep := fun hc => h (by simp [hc])
    rw [List.cons_append, splitOnce, if_neg hc, ih (fun hk => h (by simp [hk]))]
    rfl

theorem strip_word {w : List Char} (h : ∀ c ∈ w, isSpace c = false) : strip w = w := by
  have hkeep (l : List Char) (hl : ∀ c ∈ l, isSpace c = false) : l.dropWhile isSpace = l := by
    cases l with
    | nil => rfl
    | cons c l => rw [List.dropWhile_cons_of_neg (by simp [hl c])]
  rw [strip, hkeep w h, hkeep w.reverse fun c hc => h c (List.mem_reverse.mp hc),
    List.reverse_reverse]

theorem isDigit_range {c : Char} (h : c.isDigit = true) : 48 ≤ c.toNat ∧ c.toNat ≤ 57 := by
  simp only [Char.isDigit, Bool.and_eq_true, decide_eq_true_eq, ge_iff_le,
    UInt32.le_iff_toNat_le] at h
  exact h

theorem isSpace_of_isDigit {c : Char} (h : c.isDigit = true) : isSpace c = false := by
  obtain ⟨hlo, hhi⟩ := isDigit_range h
  have hblank : c ≠ ' ' := by rintro rfl; revert hlo; decide
  have hlow : decide (c.toNat ≤ 13) = false := decide_eq_false (by omega)
  have hhigh : decide (c.toNat ≤ 31) = false := decide_eq_false (by omega)
  simp [isSpace, hblank, hlow, hhigh]

theorem dec_digits (n : Nat) : ∀ c ∈ dec n, c.isDigit = true :=
  fun _ hc => Nat.isDigit_of_mem_toDigits (by decide) (by decide) hc

theorem dec_word (n : Nat) : Word (dec n) :=
  ⟨Nat.toDigits_ne_nil, fun c hc => isSpace_of_isDigit (dec_digits n c hc)⟩

theorem length_dec_le {n k : Nat} (hk : 0 < k) (h : n < 10 ^ k) : (dec n).length ≤ k :=
  (Nat.length_toDigits_le_iff (by decide) hk).mpr h

theorem snprintk_of_fits {size : Nat} {s : List Char} (h : s.length < size) : snprintk size s = s :=
  List.take_of_length_le (by omega)

end PiHub.Text

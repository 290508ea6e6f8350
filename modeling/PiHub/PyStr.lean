import Mathlib.Data.List.DropRight
import Mathlib.Data.List.TakeWhile

/-! Python's `str.strip` and `int` on Unicode text. -/
namespace PiHub.PyStr

/-- White space to `str.strip` and `int`. -/
def isSpace (c : Char) : Bool :=
  let n := c.toNat
  (9 ≤ n && n ≤ 13) || (28 ≤ n && n ≤ 32) || n == 0x85 || n == 0xA0 || n == 0x1680 ||
    (0x2000 ≤ n && n ≤ 0x200A) || n == 0x2028 || n == 0x2029 || n == 0x202F || n == 0x205F ||
    n == 0x3000

def strip (s : String) : String :=
  String.ofList ((s.toList.dropWhile isSpace).reverse.dropWhile isSpace).reverse

theorem strip_strip (s : String) : strip (strip s) = strip s := by
  have hlist (t : String) : (strip t).toList = (t.toList.dropWhile isSpace).rdropWhile isSpace :=
    String.toList_ofList
  -- cutting spaces off the end leaves the head, which is none
  have hhead : ((s.toList.dropWhile isSpace).rdropWhile isSpace).dropWhile isSpace =
      (s.toList.dropWhile isSpace).rdropWhile isSpace := by
    refine List.dropWhile_eq_self_iff.mpr fun hl => ?_
    have hcut := List.rdropWhile_prefix isSpace (s.toList.dropWhile isSpace)
    rw [hcut.getElem hl]
    exact List.dropWhile_get_zero_not isSpace s.toList (hl.trans_le hcut.length_le)
  apply String.toList_inj.mp
  rw [hlist, hlist, hhead, List.rdropWhile_idempotent]

theorem strip_eq_self {s : String} (h : ∀ c ∈ s.toList, isSpace c = false) : strip s = s := by
  have hself {cs : List Char} (hcs : ∀ c ∈ cs, isSpace c = false) : cs.dropWhile isSpace = cs := by
    refine List.dropWhile_eq_self_iff.mpr fun hl => ?_
    rw [hcs _ (List.getElem_mem hl)]
    exact Bool.false_ne_true
  rw [strip, hself h, hself (fun c hc => h c (List.mem_reverse.mp hc)), List.reverse_reverse,
    String.ofList_toList]

/-- `s.strip() or None`. -/
def stripped (s : String) : Option String := if strip s = "" then none else some (strip s)

def containsChars (sub : List Char) : List Char → Bool
  | [] => sub.isEmpty
  | c :: cs => sub.isPrefixOf (c :: cs) || containsChars sub cs

/-- `sub in s`. -/
def contains (s sub : String) : Bool := containsChars sub.toList s.toList

/-- The zeros of the scripts that have decimal digits. -/
def digitZeros : List Nat :=
  [0x30, 0x660, 0x6F0, 0x7C0, 0x966, 0x9E6, 0xA66, 0xAE6, 0xB66, 0xBE6, 0xC66, 0xCE6, 0xD66, 0xDE6,
    0xE50, 0xED0, 0xF20, 0x1040, 0x1090, 0x17E0, 0x1810, 0x1946, 0x19D0, 0x1A80, 0x1A90, 0x1B50,
    0x1BB0, 0x1C40, 0x1C50, 0xA620, 0xA8D0, 0xA900, 0xA9D0, 0xA9F0, 0xAA50, 0xABF0, 0xFF10,
    0x104A0, 0x10D30, 0x11066, 0x110F0, 0x11136, 0x111D0, 0x112F0, 0x11450, 0x114D0, 0x11650,
    0x116C0, 0x11730, 0x118E0, 0x11950, 0x11C50, 0x11D50, 0x11DA0, 0x11F50, 0x16A60, 0x16AC0,
    0x16B50, 0x1D7CE, 0x1D7D8, 0x1D7E2, 0x1D7EC, 0x1D7F6, 0x1E140, 0x1E2F0, 0x1E4F0, 0x1E950,
    0x1FBF0]

def digit? (c : Char) : Option Nat :=
  (digitZeros.find? fun z => z ≤ c.toNat && c.toNat < z + 10).map fun z =>
    c.toNat - z

/-- More digits after the value so far, an underscore allowed before each. -/
def digitsFrom : Nat → List Char → Option Nat
  | n, [] => some n
  | n, '_' :: c :: cs => (digit? c).bind fun d => digitsFrom (10 * n + d) cs
  | n, c :: cs => (digit? c).bind fun d => digitsFrom (10 * n + d) cs

theorem digitsFrom_cons (n : Nat) {c : Char} (hc : c ≠ '_') (cs : List Char) :
    digitsFrom n (c :: cs) = (digit? c).bind fun d => digitsFrom (10 * n + d) cs := by
  rw [digitsFrom]
  rintro _ _ rfl _
  exact hc rfl

def digits? : List Char → Option Nat
  | [] => none
  | c :: cs => (digit? c).bind fun d => digitsFrom d cs

/-- `int(s)`; `none` is ValueError. -/
def int? (s : String) : Option Int :=
  match (strip s).toList with
  | '-' :: ds => (digits? ds).map fun n => -(n : Int)
  | '+' :: ds => (digits? ds).map fun n => (n : Int)
  | ds => (digits? ds).map fun n => (n : Int)

end PiHub.PyStr

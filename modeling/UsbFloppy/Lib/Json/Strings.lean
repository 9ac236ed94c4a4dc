import Mathlib.Data.List.Basic
import Mathlib.Tactic.SplitIfs
import UsbFloppy.Lib.Json.Number

/-! Strings of JSON documents. Everything but printable ASCII is written as escapes of UTF-16
code units. Characters are Unicode scalar values: half a pair of surrogates is read as
U+FFFD. -/

namespace Json

def hexDigit (n : ℕ) : Char := Nat.digitChar n

def hexValue (c : Char) : Option ℕ :=
  if '0' ≤ c ∧ c ≤ '9' then some (c.toNat - '0'.toNat)
  else if 'a' ≤ c ∧ c ≤ 'f' then some (c.toNat - 'a'.toNat + 10)
  else if 'A' ≤ c ∧ c ≤ 'F' then some (c.toNat - 'A'.toNat + 10)
  else none

/-- `\uXXXX`. -/
def escapeUnit (u : ℕ) : Str :=
  ['\\', 'u', hexDigit (u / 4096 % 16), hexDigit (u / 256 % 16), hexDigit (u / 16 % 16),
    hexDigit (u % 16)]

/-- The UTF-16 code units of a character. -/
def units (c : Char) : List ℕ :=
  if c.toNat < 0x10000 then [c.toNat]
  else [0xD800 + (c.toNat - 0x10000) / 0x400, 0xDC00 + (c.toNat - 0x10000) % 0x400]

/-- The characters that have an escape of their own. -/
def shortEscapes : List (Char × Char) :=
  [('"', '"'), ('\\', '\\'), ('/', '/'), ('\x08', 'b'), ('\x0c', 'f'), ('\n', 'n'), ('\r', 'r'),
    ('\t', 't')]

def escapeChar (c : Char) : Str :=
  if ' ' ≤ c ∧ c ≤ '~' ∧ c ≠ '"' ∧ c ≠ '\\' then [c]
  else
    match shortEscapes.find? fun p => p.1 = c with
    | some p => ['\\', p.2]
    | none => (units c).flatMap escapeUnit

def quote (s : Str) : Str := '"' :: (s.flatMap escapeChar ++ ['"'])

def unescape (c : Char) : Option Char := (shortEscapes.find? fun p => p.2 = c).map Prod.fst

def hexUnit (a b c d : Char) : Option ℕ := do
  return 4096 * (← hexValue a) + 256 * (← hexValue b) + 16 * (← hexValue c) + (← hexValue d)

/-- The code units up to the closing quote, and what follows it. -/
def scanString : Str → Option (List ℕ × Str)
  | [] => none
  | '"' :: t => some ([], t)
  | '\\' :: 'u' :: a :: b :: c :: d :: t => do
    let u ← hexUnit a b c d
    let (us, rest) ← scanString t
    return (u :: us, rest)
  | '\\' :: e :: t => do
    let c ← unescape e
    let (us, rest) ← scanString t
    return (c.toNat :: us, rest)
  | c :: t => do
    if c < ' ' then none
    let (us, rest) ← scanString t
    return (c.toNat :: us, rest)

def isHigh (u : ℕ) : Bool := 0xD800 ≤ u ∧ u < 0xDC00

def isLow (u : ℕ) : Bool := 0xDC00 ≤ u ∧ u < 0xE000

def ofUnit (u : ℕ) : Char := if u.isValidChar then Char.ofNat u else '\uFFFD'

/-- Pairs of surrogates are one character. -/
def ofUnits : List ℕ → Str
  | [] => []
  | [u] => [ofUnit u]
  | u :: u' :: us =>
    if isHigh u ∧ isLow u' then
      Char.ofNat (0x10000 + 0x400 * (u - 0xD800) + (u' - 0xDC00)) :: ofUnits us
    else ofUnit u :: ofUnits (u' :: us)

/-! ### A written string is read back -/

theorem hexValue_hexDigit : ∀ n < 16, hexValue (hexDigit n) = some n := by decide

theorem hexUnit_escape {u : ℕ} (hu : u < 0x10000) :
    hexUnit (hexDigit (u / 4096 % 16)) (hexDigit (u / 256 % 16)) (hexDigit (u / 16 % 16))
      (hexDigit (u % 16)) = some u := by
  have hmod : ∀ n, hexValue (hexDigit (n % 16)) = some (n % 16) := fun n =>
    hexValue_hexDigit _ (Nat.mod_lt n (by decide))
  simp only [hexUnit, hmod, Option.pure_def, Option.bind_eq_bind, Option.bind_some, Option.some_inj]
  omega

theorem scanString_escapeUnit {u : ℕ} (hu : u < 0x10000) (t : Str) :
    scanString (escapeUnit u ++ t) = (scanString t).map fun p => (u :: p.1, p.2) := by
  simp only [escapeUnit, List.cons_append, List.nil_append, scanString, hexUnit_escape hu]
  cases scanString t <;> rfl

theorem scanString_plain {c : Char} (hquote : c ≠ '"') (hslash : c ≠ '\\') (hprint : ¬ c < ' ')
    (t : Str) : scanString (c :: t) = (scanString t).map fun p => (c.toNat :: p.1, p.2) := by
  rw [scanString]
  · rw [if_neg hprint]
    cases scanString t <;> rfl
  · exact hquote
  · rintro a b c d t rfl
    exact absurd rfl hslash
  · rintro e t rfl
    exact absurd rfl hslash

theorem scanString_short {e c : Char} (hu : e ≠ 'u') (hc : unescape e = some c) (t : Str) :
    scanString ('\\' :: e :: t) = (scanString t).map fun p => (c.toNat :: p.1, p.2) := by
  rw [scanString]
  · rw [hc]
    cases scanString t <;> rfl
  · rintro a b c d t' rfl
    exact absurd rfl hu

theorem toNat_valid (c : Char) : c.toNat < 0xD800 ∨ 0xDFFF < c.toNat ∧ c.toNat < 0x110000 := c.valid

theorem scanString_escapeChar (c : Char) (t : Str) :
    scanString (escapeChar c ++ t) = (scanString t).map fun p => (units c ++ p.1, p.2) := by
  unfold escapeChar
  split_ifs with hplain
  · obtain ⟨hspace, htilde, hquote, hslash⟩ := hplain
    have hunits : units c = [c.toNat] := if_pos (Nat.lt_of_le_of_lt htilde (by decide))
    rw [hunits]
    exact scanString_plain hquote hslash (Char.not_lt.mpr hspace) t
  · split
    · rename_i p hp
      have htable : ∀ p ∈ shortEscapes,
          p.2 ≠ 'u' ∧ unescape p.2 = some p.1 ∧ units p.1 = [p.1.toNat] := by
        decide
      obtain ⟨hu, hc, hunits⟩ := htable p (List.mem_of_find?_eq_some hp)
      have hpc : p.1 = c := by simpa using List.find?_some hp
      rw [← hpc, hunits]
      exact scanString_short hu hc t
    · have hvalid := toNat_valid c
      unfold units
      split_ifs with hbmp
      · rw [List.flatMap_singleton, scanString_escapeUnit hbmp]
        rfl
      · rw [List.flatMap_cons, List.flatMap_singleton, List.append_assoc,
          scanString_escapeUnit (by omega), scanString_escapeUnit (by omega), Option.map_map]
        rfl

theorem ofUnits_single {u : ℕ} (hu : isHigh u = false) (us : List ℕ) :
    ofUnits (u :: us) = ofUnit u :: ofUnits us := by
  cases us with
  | nil => rfl
  | cons u' us =>
    rw [ofUnits, if_neg]
    rw [hu]
    rintro ⟨⟨⟩, -⟩

theorem ofUnits_units (c : Char) (us : List ℕ) : ofUnits (units c ++ us) = c :: ofUnits us := by
  have hvalid := toNat_valid c
  unfold units
  split_ifs with hbmp
  · have hhigh : isHigh c.toNat = false := by
      rw [isHigh, decide_eq_false_iff_not]
      omega
    rw [List.cons_append, List.nil_append, ofUnits_single hhigh, ofUnit, if_pos hvalid,
      Char.ofNat_toNat]
  · have hhigh : isHigh (0xD800 + (c.toNat - 0x10000) / 0x400) = true := by
      rw [isHigh, decide_eq_true_eq]
      omega
    have hlow : isLow (0xDC00 + (c.toNat - 0x10000) % 0x400) = true := by
      rw [isLow, decide_eq_true_eq]
      omega
    have hsum : 0x10000 + 0x400 * (0xD800 + (c.toNat - 0x10000) / 0x400 - 0xD800) +
        (0xDC00 + (c.toNat - 0x10000) % 0x400 - 0xDC00) = c.toNat := by omega
    rw [List.cons_append, List.cons_append, List.nil_append, ofUnits, if_pos ⟨hhigh, hlow⟩, hsum,
      Char.ofNat_toNat]

/-- A quoted string is scanned up to its end. -/
theorem scanString_flatMap (s t : Str) :
    scanString (s.flatMap escapeChar ++ '"' :: t) = some (s.flatMap units, t) := by
  induction s with
  | nil => rfl
  | cons c s ih =>
    rw [List.flatMap_cons, List.append_assoc, scanString_escapeChar, ih, List.flatMap_cons]
    rfl

theorem ofUnits_flatMap (s : Str) : ofUnits (s.flatMap units) = s := by
  induction s with
  | nil => rfl
  | cons c s ih => rw [List.flatMap_cons, ofUnits_units, ih]

end Json

import Mathlib.Data.Int.Notation
import Mathlib.Data.List.TakeWhile
import Mathlib.Tactic.SplitIfs

/-! Number tokens of JSON documents: the scanner of Python's json module takes the longest
token, and leaves what cannot belong to one. -/

namespace Json

abbrev Str := List Char

scoped instance : LawfulBEq Str := inferInstance

def isSign (c : Char) : Bool := c = '+' ∨ c = '-'

def isExponentMark (c : Char) : Bool := c = 'e' ∨ c = 'E'

structure NumberToken where
  whole : Str
  fraction : Str
  exponent : Str
  deriving DecidableEq

def NumberToken.text (n : NumberToken) : Str := n.whole ++ (n.fraction ++ n.exponent)

def NumberToken.isFloat (n : NumberToken) : Bool := n.fraction ≠ [] ∨ n.exponent ≠ []

/-! ### The grammar -/

def IsDigits (t : Str) : Prop := t ≠ [] ∧ ∀ c ∈ t, c.isDigit = true

def IsNat (t : Str) : Prop := t = ['0'] ∨ IsDigits t ∧ t.head? ≠ some '0'

def IsWhole (t : Str) : Prop := IsNat t ∨ ∃ n, IsNat n ∧ t = '-' :: n

def IsFraction (t : Str) : Prop := t = [] ∨ ∃ d, IsDigits d ∧ t = '.' :: d

def IsExponent (t : Str) : Prop :=
  t = [] ∨ ∃ e s d, isExponentMark e = true ∧ (s = [] ∨ ∃ g, isSign g = true ∧ s = [g]) ∧
    IsDigits d ∧ t = e :: (s ++ d)

structure NumberToken.Valid (n : NumberToken) : Prop where
  whole : IsWhole n.whole
  fraction : IsFraction n.fraction
  exponent : IsExponent n.exponent

/-! ### The scanner -/

def scanDigits (t : Str) : Str × Str := (t.takeWhile Char.isDigit, t.dropWhile Char.isDigit)

/-- Without a number the first part is empty. A leading zero ends the number. -/
def scanNat : Str → Str × Str
  | '0' :: t => (['0'], t)
  | t => scanDigits t

def scanWhole : Str → Str × Str
  | '-' :: t =>
    let (n, rest) := scanNat t
    if n = [] then ([], '-' :: t) else ('-' :: n, rest)
  | t => scanNat t

/-- The text, unless no digit follows the mark. -/
def scanAfter (mark : Str) (t : Str) : Str × Str :=
  let (digits, rest) := scanDigits t
  if digits = [] then ([], mark ++ t) else (mark ++ digits, rest)

def scanFraction : Str → Str × Str
  | '.' :: t => scanAfter ['.'] t
  | t => ([], t)

def scanPower (e : Char) : Str → Str × Str
  | s :: t => if isSign s then scanAfter [e, s] t else scanAfter [e] (s :: t)
  | [] => ([], [e])

def scanExponent : Str → Str × Str
  | e :: t => if isExponentMark e then scanPower e t else ([], e :: t)
  | [] => ([], [])

def scanNumber (t : Str) : Option (NumberToken × Str) :=
  let (whole, t) := scanWhole t
  if whole = [] then none
  else
    let (fraction, t) := scanFraction t
    let (exponent, t) := scanExponent t
    some (⟨whole, fraction, exponent⟩, t)

/-- What cannot go on a number. -/
def Stops (t : Str) : Prop :=
  ∀ c ∈ t.head?, c.isDigit = false ∧ c ≠ '.' ∧ isExponentMark c = false

/-! ### What is scanned is a number -/

theorem scanDigits_isDigits {t : Str} (h : (scanDigits t).1 ≠ []) : IsDigits (scanDigits t).1 :=
  ⟨h, fun _ hc => List.mem_takeWhile_imp hc⟩

theorem scanNat_of_head {t : Str} (h : t.head? ≠ some '0') : scanNat t = scanDigits t := by
  unfold scanNat
  split
  · exact absurd rfl h
  · rfl

theorem scanNat_isNat {t : Str} (h : (scanNat t).1 ≠ []) : IsNat (scanNat t).1 := by
  by_cases hzero : t.head? = some '0'
  · cases t with
    | nil => cases hzero
    | cons c t =>
      cases hzero
      exact Or.inl rfl
  · rw [scanNat_of_head hzero] at h ⊢
    refine Or.inr ⟨scanDigits_isDigits h, ?_⟩
    cases t with
    | nil => exact hzero
    | cons c t =>
      intro hhead
      rw [scanDigits, List.takeWhile_cons] at hhead
      split_ifs at hhead
      · exact hzero hhead
      · cases hhead

theorem scanWhole_isWhole {t : Str} (h : (scanWhole t).1 ≠ []) : IsWhole (scanWhole t).1 := by
  unfold scanWhole at h ⊢
  split at h
  · rename_i t
    dsimp only at h ⊢
    split_ifs at h ⊢ with hnil
    · exact absurd rfl h
    · exact Or.inr ⟨_, scanNat_isNat hnil, rfl⟩
  · exact Or.inl (scanNat_isNat h)

theorem scanAfter_cases (mark t : Str) :
    (scanAfter mark t).1 = [] ∨ ∃ d, IsDigits d ∧ (scanAfter mark t).1 = mark ++ d := by
  unfold scanAfter
  dsimp only
  split_ifs with hnil
  · exact Or.inl rfl
  · exact Or.inr ⟨_, scanDigits_isDigits hnil, rfl⟩

theorem scanFraction_isFraction (t : Str) : IsFraction (scanFraction t).1 := by
  unfold scanFraction
  split
  · exact scanAfter_cases _ _
  · exact Or.inl rfl

theorem scanPower_isExponent {e : Char} (he : isExponentMark e = true) (t : Str) :
    IsExponent (scanPower e t).1 := by
  unfold scanPower
  split
  · rename_i s t
    split_ifs with hs
    · obtain hnil | ⟨d, hd, heq⟩ := scanAfter_cases [e, s] t
      · exact Or.inl hnil
      · exact Or.inr ⟨e, [s], d, he, Or.inr ⟨s, hs, rfl⟩, hd, heq⟩
    · obtain hnil | ⟨d, hd, heq⟩ := scanAfter_cases [e] (s :: t)
      · exact Or.inl hnil
      · exact Or.inr ⟨e, [], d, he, Or.inl rfl, hd, heq⟩
  · exact Or.inl rfl

theorem scanExponent_isExponent (t : Str) : IsExponent (scanExponent t).1 := by
  unfold scanExponent
  split
  · split_ifs with he
    · exact scanPower_isExponent he _
    · exact Or.inl rfl
  · exact Or.inl rfl

theorem scanNumber_valid {t rest : Str} {n : NumberToken} (h : scanNumber t = some (n, rest)) :
    n.Valid := by
  unfold scanNumber at h
  dsimp only at h
  split_ifs at h with hnil
  cases h
  exact ⟨scanWhole_isWhole hnil, scanFraction_isFraction _, scanExponent_isExponent _⟩

/-! ### A number is scanned whole -/

theorem scanDigits_append {d t : Str} (hd : ∀ c ∈ d, c.isDigit = true)
    (ht : ∀ c ∈ t.head?, c.isDigit = false) : scanDigits (d ++ t) = (d, t) := by
  have hstop : t.takeWhile Char.isDigit = [] ∧ t.dropWhile Char.isDigit = t := by
    cases t with
    | nil => exact ⟨rfl, rfl⟩
    | cons c t =>
      have hc := ht c rfl
      rw [List.takeWhile_cons, List.dropWhile_cons, hc]
      exact ⟨rfl, rfl⟩
  rw [scanDigits, List.takeWhile_append_of_pos hd, List.dropWhile_append_of_pos hd, hstop.1,
    hstop.2, List.append_nil]

theorem scanAfter_append (mark : Str) {d t : Str} (hd : IsDigits d)
    (ht : ∀ c ∈ t.head?, c.isDigit = false) : scanAfter mark (d ++ t) = (mark ++ d, t) := by
  rw [scanAfter, scanDigits_append hd.2 ht]
  dsimp only
  rw [if_neg hd.1]

theorem scanNat_append {n t : Str} (hn : IsNat n) (ht : ∀ c ∈ t.head?, c.isDigit = false) :
    scanNat (n ++ t) = (n, t) := by
  obtain rfl | ⟨hdigits, hzero⟩ := hn
  · rfl
  · have hhead : (n ++ t).head? ≠ some '0' := by
      cases n with
      | nil => exact absurd rfl hdigits.1
      | cons c n => exact hzero
    rw [scanNat_of_head hhead, scanDigits_append hdigits.2 ht]

theorem IsNat.ne_nil {n : Str} (hn : IsNat n) : n ≠ [] := by
  obtain rfl | ⟨hdigits, -⟩ := hn
  · exact List.cons_ne_nil _ _
  · exact hdigits.1

theorem IsNat.head_isDigit {n : Str} (hn : IsNat n) : ∀ c ∈ n.head?, c.isDigit = true := by
  obtain rfl | ⟨hdigits, -⟩ := hn
  · rintro c ⟨⟩
    rfl
  · exact fun c hc => hdigits.2 c (List.mem_of_mem_head? hc)

theorem scanWhole_append {w t : Str} (hw : IsWhole w) (ht : ∀ c ∈ t.head?, c.isDigit = false) :
    scanWhole (w ++ t) = (w, t) := by
  obtain hn | ⟨n, hn, rfl⟩ := hw
  · rw [← scanNat_append hn ht]
    cases w with
    | nil => exact absurd rfl hn.ne_nil
    | cons c w =>
      have hc : c ≠ '-' := by
        rintro rfl
        exact absurd (hn.head_isDigit '-' rfl) (by decide)
      unfold scanWhole
      split
      · rename_i t' heq
        exact absurd (List.cons.inj heq).1 hc
      · rfl
  · rw [List.cons_append, scanWhole, scanNat_append hn ht]
    dsimp only
    rw [if_neg hn.ne_nil]

theorem scanFraction_append {f t : Str} (hf : IsFraction f)
    (ht : ∀ c ∈ t.head?, c.isDigit = false ∧ c ≠ '.') : scanFraction (f ++ t) = (f, t) := by
  obtain rfl | ⟨d, hd, rfl⟩ := hf
  · rw [List.nil_append]
    unfold scanFraction
    split
    · exact absurd rfl (ht '.' rfl).2
    · rfl
  · exact scanAfter_append ['.'] hd fun c hc => (ht c hc).1

theorem isDigit_not_isSign {c : Char} (hc : c.isDigit = true) : isSign c = false := by
  unfold isSign
  rw [decide_eq_false_iff_not]
  rintro (rfl | rfl) <;> cases hc

theorem scanExponent_append {e t : Str} (he : IsExponent e)
    (ht : ∀ c ∈ t.head?, c.isDigit = false ∧ isExponentMark c = false) :
    scanExponent (e ++ t) = (e, t) := by
  have hdigit : ∀ c ∈ t.head?, c.isDigit = false := fun c hc => (ht c hc).1
  obtain rfl | ⟨e, s, d, he, hs, hd, rfl⟩ := he
  · cases t with
    | nil => rfl
    | cons c t =>
      rw [List.nil_append, scanExponent, (ht c rfl).2]
      rfl
  · rw [List.cons_append, scanExponent, if_pos he]
    obtain rfl | ⟨g, hg, rfl⟩ := hs
    · cases d with
      | nil => exact absurd rfl hd.1
      | cons c d =>
        have hc := isDigit_not_isSign (hd.2 c List.mem_cons_self)
        rw [List.nil_append, List.cons_append, scanPower, hc]
        exact scanAfter_append [e] hd hdigit
    · rw [List.append_assoc, List.cons_append, List.nil_append, scanPower, if_pos hg]
      exact scanAfter_append [e, g] hd hdigit

/-- A number in front of what cannot go on it is scanned to its end. -/
theorem scanNumber_append {n : NumberToken} (hn : n.Valid) {t : Str} (ht : Stops t) :
    scanNumber (n.text ++ t) = some (n, t) := by
  have hexp : ∀ c ∈ (n.exponent ++ t).head?, c.isDigit = false ∧ c ≠ '.' := by
    intro c hc
    obtain hnil | ⟨e, s, d, he, -, -, heq⟩ := hn.exponent
    · rw [hnil] at hc
      exact ⟨(ht c hc).1, (ht c hc).2.1⟩
    · rw [heq] at hc
      cases hc
      unfold isExponentMark at he
      rw [decide_eq_true_eq] at he
      obtain rfl | rfl := he <;> exact ⟨rfl, by decide⟩
  have hfraction : ∀ c ∈ (n.fraction ++ (n.exponent ++ t)).head?, c.isDigit = false := by
    intro c hc
    obtain hnil | ⟨d, hd, heq⟩ := hn.fraction
    · rw [hnil] at hc
      exact (hexp c hc).1
    · rw [heq] at hc
      cases hc
      rfl
  have hwhole : n.whole ≠ [] := by
    obtain hnat | ⟨m, -, heq⟩ := hn.whole
    · exact hnat.ne_nil
    · rw [heq]
      exact List.cons_ne_nil _ _
  rw [NumberToken.text, List.append_assoc, List.append_assoc, scanNumber,
    scanWhole_append hn.whole hfraction]
  dsimp only
  rw [if_neg hwhole, scanFraction_append hn.fraction hexp]
  dsimp only
  rw [scanExponent_append hn.exponent fun c hc => ⟨(ht c hc).1, (ht c hc).2.2⟩]

/-! ### Integers -/

def natValue (digits : Str) : ℤ := (Nat.ofDigitChars 10 digits 0 : ℕ)

def intValue : Str → ℤ
  | '-' :: digits => -natValue digits
  | digits => natValue digits

def intText (n : ℤ) : Str :=
  if n < 0 then '-' :: Nat.toDigits 10 n.natAbs else Nat.toDigits 10 n.natAbs

theorem toDigits_head (n : ℕ) (hn : n ≠ 0) : (Nat.toDigits 10 n).head? ≠ some '0' := by
  induction n using Nat.strongRecOn with
  | ind n ih =>
    by_cases hsmall : n < 10
    · have hdigit : ∀ n < 10, n ≠ 0 → n.digitChar ≠ '0' := by decide
      rw [Nat.toDigits_of_lt_base hsmall]
      exact fun h => hdigit n hsmall hn (Option.some.inj h)
    · have hdiv := ih (n / 10) (by omega) (by omega)
      obtain ⟨c, t, hct⟩ := List.exists_cons_of_ne_nil (Nat.toDigits_ne_nil (n := n / 10) (b := 10))
      rw [hct] at hdiv
      rw [Nat.toDigits_of_base_le (by decide) (by omega), hct]
      exact hdiv

theorem isNat_toDigits (n : ℕ) : IsNat (Nat.toDigits 10 n) := by
  by_cases hzero : n = 0
  · rw [hzero, Nat.toDigits_zero]
    exact Or.inl rfl
  · exact Or.inr ⟨⟨Nat.toDigits_ne_nil, fun _ hc =>
      Nat.isDigit_of_mem_toDigits (by decide) (by decide) hc⟩, toDigits_head n hzero⟩

theorem intText_isWhole (n : ℤ) : IsWhole (intText n) := by
  unfold intText
  split_ifs
  · exact Or.inr ⟨_, isNat_toDigits _, rfl⟩
  · exact Or.inl (isNat_toDigits _)

theorem intValue_of_isNat {t : Str} (ht : IsNat t) : intValue t = natValue t := by
  unfold intValue
  split
  · exact absurd (ht.head_isDigit '-' rfl) (by decide)
  · rfl

theorem intValue_intText (n : ℤ) : intValue (intText n) = n := by
  unfold intText
  split_ifs with hneg
  · rw [intValue, natValue, Nat.ofDigitChars_ten_toDigits]
    omega
  · rw [intValue_of_isNat (isNat_toDigits _), natValue, Nat.ofDigitChars_ten_toDigits]
    omega

/-- An integer is scanned back, and is no float. -/
theorem scanNumber_intText (n : ℤ) {t : Str} (ht : Stops t) :
    scanNumber (intText n ++ t) = some (⟨intText n, [], []⟩, t) := by
  have hvalid : NumberToken.Valid ⟨intText n, [], []⟩ :=
    ⟨intText_isWhole n, Or.inl rfl, Or.inl rfl⟩
  have hscan := scanNumber_append hvalid ht
  rwa [NumberToken.text, List.append_nil, List.append_nil] at hscan

end Json

import Mathlib.Algebra.GroupWithZero.Nat
import UsbFloppy.Lib.Json.Strings

/-! Documents as Python's json.dumps writes them with an indent of 2 and as json.loads reads
them. Floats are kept as the text of their literal. -/

namespace Json

structure Literal where
  token : NumberToken
  isFloat : token.isFloat = true
  valid : token.Valid

inductive Value
  | null
  | bool (b : Bool)
  | int (n : ℤ)
  | float (x : Literal)
  | nan
  | infinity (negative : Bool)
  | str (s : Str)
  | arr (items : List Value)
  | obj (members : List (Str × Value))

/-! ### Writing -/

def newline (indent : ℕ) : Str := '\n' :: List.replicate indent ' '

/-- The texts after the first. -/
def following (indent : ℕ) (texts : List Str) : Str :=
  texts.flatMap fun t => ',' :: (newline indent ++ t)

/-- The texts on lines of their own. -/
def bracket (opening closing : Char) (indent : ℕ) : List Str → Str
  | [] => [opening, closing]
  | t :: texts =>
    opening :: (newline (indent + 2) ++ (t ++ (following (indent + 2) texts ++
      (newline indent ++ [closing]))))

mutual

/-- The value, on lines with `indent` blanks in front. -/
def dumpsAt (indent : ℕ) : Value → Str
  | .null => "null".toList
  | .bool b => if b then "true".toList else "false".toList
  | .int n => intText n
  | .float x => x.token.text
  | .nan => "NaN".toList
  | .infinity negative => if negative then "-Infinity".toList else "Infinity".toList
  | .str s => quote s
  | .arr xs => bracket '[' ']' indent (dumpsItems (indent + 2) xs)
  | .obj ms => bracket '{' '}' indent (dumpsMembers (indent + 2) ms)

def dumpsItems (indent : ℕ) : List Value → List Str
  | [] => []
  | x :: xs => dumpsAt indent x :: dumpsItems indent xs

def dumpsMembers (indent : ℕ) : List (Str × Value) → List Str
  | [] => []
  | (k, v) :: ms => (quote k ++ (": ".toList ++ dumpsAt indent v)) :: dumpsMembers indent ms

end

def dumps (v : Value) : Str := dumpsAt 0 v

/-! ### Reading -/

def isSpace (c : Char) : Bool := c = ' ' ∨ c = '\t' ∨ c = '\n' ∨ c = '\r'

def skipSpaces (t : Str) : Str := t.dropWhile isSpace

def constants : List (Str × Value) :=
  [("null".toList, .null), ("true".toList, .bool true), ("false".toList, .bool false),
    ("NaN".toList, .nan), ("Infinity".toList, .infinity false), ("-Infinity".toList, .infinity true)]

def parseConstant (t : Str) : Option (Value × Str) :=
  (constants.find? fun p => p.1.isPrefixOf t).map fun p => (p.2, t.drop p.1.length)

def parseNumber (t : Str) : Option (Value × Str) :=
  match hscan : scanNumber t with
  | none => none
  | some (token, rest) =>
    if hfloat : token.isFloat = true then some (.float ⟨token, hfloat, scanNumber_valid hscan⟩, rest)
    else some (.int (intValue token.whole), rest)

/-- One more member of a dict: a name that is there keeps its place. -/
def setMember (d : List (Str × Value)) (m : Str × Value) : List (Str × Value) :=
  if m.1 ∈ d.map Prod.fst then d.map fun p => if p.1 = m.1 then m else p else d ++ [m]

def dict (members : List (Str × Value)) : List (Str × Value) := members.foldl setMember []

mutual

def parseValue : ℕ → Str → Option (Value × Str)
  | 0, _ => none
  | fuel + 1, t =>
    match t with
    | '"' :: t => (scanString t).map fun p => (.str (ofUnits p.1), p.2)
    | '[' :: t =>
      match skipSpaces t with
      | ']' :: t => some (.arr [], t)
      | t => (parseItems fuel t).map fun p => (.arr p.1, p.2)
    | '{' :: t =>
      match skipSpaces t with
      | '}' :: t => some (.obj [], t)
      | t => (parseMembers fuel t).map fun p => (.obj (dict p.1), p.2)
    | t => parseConstant t <|> parseNumber t

/-- The items of an array, up to its end. -/
def parseItems : ℕ → Str → Option (List Value × Str)
  | 0, _ => none
  | fuel + 1, t => do
    let (x, t) ← parseValue fuel t
    match skipSpaces t with
    | ']' :: t => return ([x], t)
    | ',' :: t =>
      let (xs, t) ← parseItems fuel (skipSpaces t)
      return (x :: xs, t)
    | _ => none

def parseMembers : ℕ → Str → Option (List (Str × Value) × Str)
  | 0, _ => none
  | fuel + 1, t =>
    match t with
    | '"' :: t => do
      let (k, t) ← scanString t
      match skipSpaces t with
      | ':' :: t =>
        let (v, t) ← parseValue fuel (skipSpaces t)
        match skipSpaces t with
        | '}' :: t => return ([(ofUnits k, v)], t)
        | ',' :: t =>
          let (ms, t) ← parseMembers fuel (skipSpaces t)
          return ((ofUnits k, v) :: ms, t)
        | _ => none
      | _ => none
    | _ => none

end

/-- None for a text that is no document. Nothing nests deeper than the text is long. -/
def loads (t : Str) : Option Value := do
  let (v, rest) ← parseValue (t.length + 1) (skipSpaces t)
  if skipSpaces rest = [] then return v else none

/-! ### What is written is read back -/

mutual

/-- The dicts in it have each name once. -/
def Value.Ok : Value → Prop
  | .arr xs => OkItems xs
  | .obj ms => (ms.map Prod.fst).Nodup ∧ OkMembers ms
  | _ => True

def OkItems : List Value → Prop
  | [] => True
  | x :: xs => x.Ok ∧ OkItems xs

def OkMembers : List (Str × Value) → Prop
  | [] => True
  | (_, v) :: ms => v.Ok ∧ OkMembers ms

end

mutual

/-- How deep the parser recurses on it. -/
def Value.depth : Value → ℕ
  | .arr xs => depthItems xs + 1
  | .obj ms => depthMembers ms + 1
  | _ => 1

def depthItems : List Value → ℕ
  | [] => 0
  | x :: xs => max x.depth (depthItems xs) + 1

def depthMembers : List (Str × Value) → ℕ
  | [] => 0
  | (_, v) :: ms => max v.depth (depthMembers ms) + 1

end

theorem dict_of_nodup {ms : List (Str × Value)} (h : (ms.map Prod.fst).Nodup) : dict ms = ms := by
  suffices hfold : ∀ d : List (Str × Value), ((d ++ ms).map Prod.fst).Nodup →
      ms.foldl setMember d = d ++ ms from hfold [] h
  clear h
  induction ms with
  | nil => exact fun d _ => (List.append_nil d).symm
  | cons m ms ih =>
    intro d hd
    have hnew : m.1 ∉ d.map Prod.fst := by
      intro hmem
      rw [List.map_append] at hd
      exact (List.nodup_append.mp hd).2.2 m.1 hmem m.1 List.mem_cons_self rfl
    rw [List.foldl_cons, setMember, if_neg hnew, ih, List.append_assoc]
    · rfl
    · rwa [List.append_assoc]

theorem skipSpaces_newline (indent : ℕ) {c : Char} (hc : isSpace c = false) (t : Str) :
    skipSpaces (newline indent ++ c :: t) = c :: t := by
  have hall : ∀ x ∈ newline indent, isSpace x = true := by
    intro x hx
    obtain rfl | hx := List.mem_cons.mp hx
    · rfl
    · rw [List.eq_of_mem_replicate hx]
      rfl
  rw [skipSpaces, List.dropWhile_append_of_pos hall, List.dropWhile_cons, hc]
  rfl

theorem skipSpaces_blank {c : Char} (hc : isSpace c = false) (t : Str) :
    skipSpaces (' ' :: c :: t) = c :: t := by
  change skipSpaces (c :: t) = c :: t
  rw [skipSpaces, List.dropWhile_cons, hc]
  rfl

theorem IsWhole.head {w : Str} (hw : IsWhole w) :
    ∃ c t, w = c :: t ∧ (c.isDigit = true ∨ c = '-' ∧ ∃ d t', t = d :: t' ∧ d.isDigit = true) := by
  obtain hn | ⟨n, hn, rfl⟩ := hw
  · obtain ⟨c, t, rfl⟩ := List.exists_cons_of_ne_nil hn.ne_nil
    exact ⟨c, t, rfl, Or.inl (hn.head_isDigit c rfl)⟩
  · obtain ⟨d, t, rfl⟩ := List.exists_cons_of_ne_nil hn.ne_nil
    exact ⟨'-', d :: t, rfl, Or.inr ⟨rfl, d, t, rfl, hn.head_isDigit d rfl⟩⟩

/-- A character a value can start with. -/
def Opens (c : Char) : Prop := isSpace c = false ∧ c ≠ ']' ∧ c ≠ '}'

instance : DecidablePred Opens := fun c =>
  inferInstanceAs (Decidable (isSpace c = false ∧ c ≠ ']' ∧ c ≠ '}'))

theorem opens_of_isDigit {c : Char} (hc : c.isDigit = true) : Opens c := by
  refine ⟨?_, ?_, ?_⟩
  · rw [isSpace, decide_eq_false_iff_not]
    rintro (rfl | rfl | rfl | rfl) <;> cases hc
  · rintro rfl
    cases hc
  · rintro rfl
    cases hc

theorem IsWhole.opens {w : Str} (hw : IsWhole w) : ∃ c t, w = c :: t ∧ Opens c := by
  obtain ⟨c, t, rfl, hc | ⟨rfl, -⟩⟩ := hw.head
  · exact ⟨c, t, rfl, opens_of_isDigit hc⟩
  · exact ⟨'-', t, rfl, rfl, by decide, by decide⟩

theorem bracket_cons (opening closing : Char) (indent : ℕ) (texts : List Str) :
    ∃ t, bracket opening closing indent texts = opening :: t := by
  cases texts with
  | nil => exact ⟨_, rfl⟩
  | cons t texts => exact ⟨_, rfl⟩

theorem dumpsAt_opens (indent : ℕ) (v : Value) : ∃ c t, dumpsAt indent v = c :: t ∧ Opens c := by
  have hrest : ∀ c ∈ ['n', 't', 'f', 'N', 'I', '-', '"', '[', '{'], Opens c := by
    simp only [List.forall_mem_cons, List.not_mem_nil, false_imp_iff, implies_true, and_true]
    decide
  cases v with
  | null => exact ⟨_, _, rfl, hrest _ (by decide)⟩
  | bool b => cases b <;> exact ⟨_, _, rfl, hrest _ (by decide)⟩
  | int n => exact (intText_isWhole n).opens
  | float x =>
    obtain ⟨c, t, heq, hc⟩ := x.valid.whole.opens
    exact ⟨c, t ++ (x.token.fraction ++ x.token.exponent),
      by rw [dumpsAt, NumberToken.text, heq]; rfl, hc⟩
  | nan => exact ⟨_, _, rfl, hrest _ (by decide)⟩
  | infinity negative => cases negative <;> exact ⟨_, _, rfl, hrest _ (by decide)⟩
  | str s => exact ⟨_, _, rfl, hrest _ (by decide)⟩
  | arr xs =>
    obtain ⟨t, ht⟩ := bracket_cons '[' ']' indent (dumpsItems (indent + 2) xs)
    exact ⟨_, t, ht, hrest _ (by decide)⟩
  | obj ms =>
    obtain ⟨t, ht⟩ := bracket_cons '{' '}' indent (dumpsMembers (indent + 2) ms)
    exact ⟨_, t, ht, hrest _ (by decide)⟩

theorem skipSpaces_dumpsAt (indent blanks : ℕ) (v : Value) (t : Str) :
    skipSpaces (newline blanks ++ (dumpsAt indent v ++ t)) = dumpsAt indent v ++ t := by
  obtain ⟨c, t', heq, hc⟩ := dumpsAt_opens indent v
  rw [heq]
  exact skipSpaces_newline blanks hc.1 _

theorem stops_comma (t : Str) : Stops (',' :: t) := by
  rintro c ⟨⟩
  exact ⟨rfl, by decide, rfl⟩

theorem stops_newline (indent : ℕ) (t : Str) : Stops (newline indent ++ t) := by
  rintro c ⟨⟩
  exact ⟨rfl, by decide, rfl⟩

theorem stops_following (indent blanks : ℕ) (texts : List Str) (t : Str) :
    Stops (following indent texts ++ (newline blanks ++ t)) := by
  cases texts with
  | nil => exact stops_newline blanks t
  | cons t' texts =>
    rw [following, List.flatMap_cons]
    exact stops_comma _

theorem following_cons (indent : ℕ) (t : Str) (texts : List Str) :
    following indent (t :: texts) = ',' :: (newline indent ++ (t ++ following indent texts)) := by
  rw [following, List.flatMap_cons, List.cons_append, List.append_assoc]
  rfl

/-! #### Values without parts -/

/-- Text that no string, array or object starts. -/
theorem parseValue_scalar (fuel : ℕ) {t : Str}
    (ht : ∀ c ∈ t.head?, c ≠ '"' ∧ c ≠ '[' ∧ c ≠ '{') :
    parseValue (fuel + 1) t = (parseConstant t <|> parseNumber t) := by
  rw [parseValue]
  · rintro t' rfl
    exact (ht '"' rfl).1 rfl
  · rintro t' rfl
    exact (ht '[' rfl).2.1 rfl
  · rintro t' rfl
    exact (ht '{' rfl).2.2 rfl

theorem beq_of_isDigit {x c : Char} (hx : x.isDigit = false) (hc : c.isDigit = true) :
    (x == c) = false := by
  rw [beq_eq_false_iff_ne]
  rintro rfl
  rw [hc] at hx
  cases hx

/-- No constant starts like a number. -/
theorem parseConstant_whole {w : Str} (hw : IsWhole w) (t : Str) : parseConstant (w ++ t) = none := by
  have hmiss : ∀ p ∈ constants, p.1.isPrefixOf (w ++ t) = false := by
    obtain ⟨c, w, rfl, hc | ⟨rfl, d, w, rfl, hd⟩⟩ := hw.head
    · simp [constants, List.isPrefixOf, beq_of_isDigit _ hc, Char.isDigit]
    · simp [constants, List.isPrefixOf, beq_of_isDigit _ hd, Char.isDigit]
  rw [parseConstant, List.find?_eq_none.mpr]
  · rfl
  · intro p hp
    rw [hmiss p hp]
    exact Bool.false_ne_true

theorem IsWhole.scalar {w : Str} (hw : IsWhole w) (t : Str) :
    ∀ c ∈ (w ++ t).head?, c ≠ '"' ∧ c ≠ '[' ∧ c ≠ '{' := by
  obtain ⟨c, w, rfl, hc | ⟨rfl, -⟩⟩ := hw.head
  · rintro c' ⟨⟩
    refine ⟨?_, ?_, ?_⟩ <;> rintro rfl <;> cases hc
  · rintro c ⟨⟩
    decide

theorem parseNumber_of_scan {t rest : Str} {n : NumberToken} (h : scanNumber t = some (n, rest))
    (hn : n.Valid) :
    parseNumber t = some (if hfloat : n.isFloat = true then (.float ⟨n, hfloat, hn⟩)
      else (.int (intValue n.whole)), rest) := by
  unfold parseNumber
  split
  · rename_i hnone
    rw [h] at hnone
    cases hnone
  · rename_i token rest' hsome
    rw [h] at hsome
    cases hsome
    split_ifs <;> rfl

theorem parseValue_int (fuel : ℕ) (n : ℤ) {t : Str} (ht : Stops t) :
    parseValue (fuel + 1) (intText n ++ t) = some (.int n, t) := by
  have hscan := scanNumber_intText n ht
  have hnumber := parseNumber_of_scan hscan (scanNumber_valid hscan)
  rw [parseValue_scalar fuel ((intText_isWhole n).scalar t),
    parseConstant_whole (intText_isWhole n), hnumber]
  simp only [NumberToken.isFloat, ne_eq, not_true_eq_false, or_self, decide_false,
    Bool.false_eq_true, dite_false, intValue_intText]
  rfl

theorem parseValue_float (fuel : ℕ) (x : Literal) {t : Str} (ht : Stops t) :
    parseValue (fuel + 1) (x.token.text ++ t) = some (.float x, t) := by
  have hnumber := parseNumber_of_scan (scanNumber_append x.valid ht) x.valid
  rw [NumberToken.text, List.append_assoc, parseValue_scalar fuel (x.valid.whole.scalar _),
    parseConstant_whole x.valid.whole, ← List.append_assoc, ← NumberToken.text, hnumber,
    dif_pos x.isFloat]
  rfl

/-! #### All values -/

/-- With this much fuel every value that is not too deep is read back. -/
structure ReadsBack (fuel : ℕ) : Prop where
  value : ∀ (indent : ℕ) (v : Value) (t : Str), v.Ok → v.depth ≤ fuel → Stops t →
    parseValue fuel (dumpsAt indent v ++ t) = some (v, t)
  items : ∀ (indent blanks : ℕ) (x : Value) (xs : List Value) (t : Str), OkItems (x :: xs) →
    depthItems (x :: xs) ≤ fuel →
    parseItems fuel (dumpsAt indent x ++ (following indent (dumpsItems indent xs) ++
      (newline blanks ++ ']' :: t))) = some (x :: xs, t)
  members : ∀ (indent blanks : ℕ) (k : Str) (v : Value) (ms : List (Str × Value)) (t : Str),
    OkMembers ((k, v) :: ms) → depthMembers ((k, v) :: ms) ≤ fuel →
    parseMembers fuel (quote k ++ (": ".toList ++ (dumpsAt indent v ++
      (following indent (dumpsMembers indent ms) ++ (newline blanks ++ '}' :: t))))) =
        some ((k, v) :: ms, t)

theorem skipSpaces_comma (t : Str) : skipSpaces (',' :: t) = ',' :: t := rfl

theorem skipSpaces_quote (indent : ℕ) (k t : Str) :
    skipSpaces (newline indent ++ (quote k ++ t)) = quote k ++ t := skipSpaces_newline indent rfl _

theorem readsBack_items {fuel : ℕ} (ih : ReadsBack fuel) (indent blanks : ℕ) (x : Value)
    (xs : List Value) (t : Str) (hok : OkItems (x :: xs)) (hdepth : depthItems (x :: xs) ≤ fuel + 1) :
    parseItems (fuel + 1) (dumpsAt indent x ++ (following indent (dumpsItems indent xs) ++
      (newline blanks ++ ']' :: t))) = some (x :: xs, t) := by
  rw [depthItems] at hdepth
  rw [parseItems, ih.value indent x _ hok.1 (by omega) (stops_following indent blanks _ _)]
  cases xs with
  | nil =>
    simp only [dumpsItems, following, List.flatMap_nil, List.nil_append, Option.bind_eq_bind,
      Option.bind_some, skipSpaces_newline blanks (c := ']') rfl]
    rfl
  | cons y ys =>
    have hrest := ih.items indent blanks y ys t hok.2 (by omega)
    simp only [dumpsItems, following_cons, List.cons_append, List.append_assoc, Option.bind_eq_bind,
      Option.bind_some, skipSpaces_comma, skipSpaces_dumpsAt, hrest]
    rfl

theorem readsBack_members {fuel : ℕ} (ih : ReadsBack fuel) (indent blanks : ℕ) (k : Str) (v : Value)
    (ms : List (Str × Value)) (t : Str) (hok : OkMembers ((k, v) :: ms))
    (hdepth : depthMembers ((k, v) :: ms) ≤ fuel + 1) :
    parseMembers (fuel + 1) (quote k ++ (": ".toList ++ (dumpsAt indent v ++
      (following indent (dumpsMembers indent ms) ++ (newline blanks ++ '}' :: t))))) =
        some ((k, v) :: ms, t) := by
  rw [depthMembers] at hdepth
  have hvalue := ih.value indent v
    (following indent (dumpsMembers indent ms) ++ (newline blanks ++ '}' :: t)) hok.1
    (by omega) (stops_following indent blanks _ _)
  have hcolon : ∀ t, skipSpaces (": ".toList ++ t) = ':' :: ' ' :: t := fun t => rfl
  have hblank : ∀ t, skipSpaces (' ' :: (dumpsAt indent v ++ t)) = dumpsAt indent v ++ t := by
    intro t
    obtain ⟨c, t', heq, hc⟩ := dumpsAt_opens indent v
    rw [heq]
    exact skipSpaces_blank hc.1 _
  rw [quote, List.cons_append, List.append_assoc, List.singleton_append, parseMembers,
    scanString_flatMap]
  simp only [Option.bind_eq_bind, Option.bind_some, hcolon, hblank, hvalue, ofUnits_flatMap]
  cases ms with
  | nil =>
    simp only [dumpsMembers, following, List.flatMap_nil, List.nil_append,
      skipSpaces_newline blanks (c := '}') rfl]
    rfl
  | cons m ms =>
    obtain ⟨k', v'⟩ := m
    have hrest := ih.members indent blanks k' v' ms t hok.2 (by omega)
    simp only [dumpsMembers, following_cons, List.cons_append, List.append_assoc, skipSpaces_comma,
      skipSpaces_quote, hrest, Option.bind_some]
    rfl

theorem parseValue_array (fuel : ℕ) {t : Str} (h : (skipSpaces t).head? ≠ some ']') :
    parseValue (fuel + 1) ('[' :: t) =
      (parseItems fuel (skipSpaces t)).map fun p => (.arr p.1, p.2) := by
  rw [parseValue]
  split
  · rename_i heq
    rw [heq] at h
    exact absurd rfl h
  · rfl

theorem parseValue_object (fuel : ℕ) {t : Str} (h : (skipSpaces t).head? ≠ some '}') :
    parseValue (fuel + 1) ('{' :: t) =
      (parseMembers fuel (skipSpaces t)).map fun p => (.obj (dict p.1), p.2) := by
  rw [parseValue]
  split
  · rename_i heq
    rw [heq] at h
    exact absurd rfl h
  · rfl

theorem readsBack_value {fuel : ℕ} (ih : ReadsBack fuel) (indent : ℕ) (v : Value) (t : Str)
    (hok : v.Ok) (hdepth : v.depth ≤ fuel + 1) (ht : Stops t) :
    parseValue (fuel + 1) (dumpsAt indent v ++ t) = some (v, t) := by
  cases v with
  | null => rfl
  | bool b => cases b <;> rfl
  | int n => exact parseValue_int fuel n ht
  | float x => exact parseValue_float fuel x ht
  | nan => rfl
  | infinity negative => cases negative <;> rfl
  | str s =>
    rw [dumpsAt, quote, List.cons_append, List.append_assoc, List.singleton_append, parseValue,
      scanString_flatMap, Option.map_some, ofUnits_flatMap]
  | arr xs =>
    cases xs with
    | nil => rfl
    | cons x xs =>
      have hitems := ih.items (indent + 2) indent x xs t hok (Nat.le_of_succ_le_succ hdepth)
      have hskip := skipSpaces_dumpsAt (indent + 2) (indent + 2) x
        (following (indent + 2) (dumpsItems (indent + 2) xs) ++ (newline indent ++ ']' :: t))
      have hopen : (dumpsAt (indent + 2) x ++ (following (indent + 2) (dumpsItems (indent + 2) xs) ++
          (newline indent ++ ']' :: t))).head? ≠ some ']' := by
        obtain ⟨c, t', heq, hc⟩ := dumpsAt_opens (indent + 2) x
        rw [heq]
        exact fun h => hc.2.1 (Option.some.inj h)
      simp only [dumpsAt, dumpsItems, bracket, List.cons_append, List.append_assoc, List.nil_append]
      rw [parseValue_array fuel (by rwa [hskip]), hskip, hitems]
      rfl
  | obj ms =>
    cases ms with
    | nil => rfl
    | cons m ms =>
      obtain ⟨k, v⟩ := m
      have hmembers := ih.members (indent + 2) indent k v ms t hok.2 (Nat.le_of_succ_le_succ hdepth)
      simp only [dumpsAt, dumpsMembers, bracket, List.cons_append, List.append_assoc,
        List.nil_append]
      rw [parseValue_object fuel (by rw [skipSpaces_quote]; exact fun h => by cases h),
        skipSpaces_quote, hmembers, Option.map_some, dict_of_nodup hok.1]

theorem readsBack (fuel : ℕ) : ReadsBack fuel := by
  induction fuel with
  | zero =>
    refine ⟨fun _ v _ _ hdepth => ?_, fun _ _ x xs _ _ hdepth => ?_,
      fun _ _ k v ms _ _ hdepth => ?_⟩
    · cases v <;> exact absurd hdepth (Nat.not_succ_le_zero _)
    · exact absurd hdepth (Nat.not_succ_le_zero _)
    · exact absurd hdepth (Nat.not_succ_le_zero _)
  | succ fuel ih => exact ⟨readsBack_value ih, readsBack_items ih, readsBack_members ih⟩

/-! #### Enough fuel -/

theorem dumpsAt_length_pos (indent : ℕ) (v : Value) : 0 < (dumpsAt indent v).length := by
  obtain ⟨c, t, heq, -⟩ := dumpsAt_opens indent v
  rw [heq]
  exact Nat.succ_pos _

/-- The texts and a character for each. -/
def extent (texts : List Str) : ℕ := (texts.map fun t => t.length + 1).sum

theorem extent_cons (t : Str) (texts : List Str) :
    extent (t :: texts) = t.length + 1 + extent texts := by
  rw [extent, List.map_cons, List.sum_cons]
  rfl

theorem extent_following (indent : ℕ) (texts : List Str) :
    extent texts ≤ (following indent texts).length := by
  induction texts with
  | nil => exact le_rfl
  | cons t texts ih =>
    simp only [extent_cons, following_cons, newline, List.length_cons, List.length_append]
    omega

theorem extent_bracket (opening closing : Char) (indent : ℕ) (texts : List Str) :
    extent texts + 1 ≤ (bracket opening closing indent texts).length := by
  cases texts with
  | nil => exact Nat.le_succ 1
  | cons t texts =>
    have hrest := extent_following (indent + 2) texts
    simp only [extent_cons, bracket, newline, List.length_cons, List.length_append]
    omega

mutual

theorem depth_le (indent : ℕ) : ∀ v : Value, v.depth ≤ (dumpsAt indent v).length
  | .arr xs => by
    have hxs := depthItems_le (indent + 2) xs
    rw [Value.depth, dumpsAt]
    exact (Nat.succ_le_succ hxs).trans (extent_bracket _ _ _ _)
  | .obj ms => by
    have hms := depthMembers_le (indent + 2) ms
    rw [Value.depth, dumpsAt]
    exact (Nat.succ_le_succ hms).trans (extent_bracket _ _ _ _)
  | .null => dumpsAt_length_pos indent _
  | .bool _ => dumpsAt_length_pos indent _
  | .int _ => dumpsAt_length_pos indent _
  | .float _ => dumpsAt_length_pos indent _
  | .nan => dumpsAt_length_pos indent _
  | .infinity _ => dumpsAt_length_pos indent _
  | .str _ => dumpsAt_length_pos indent _

theorem depthItems_le (indent : ℕ) : ∀ xs : List Value,
    depthItems xs ≤ extent (dumpsItems indent xs)
  | [] => Nat.zero_le _
  | x :: xs => by
    have hx := depth_le indent x
    have hxs := depthItems_le indent xs
    rw [depthItems, dumpsItems, extent_cons]
    omega

theorem depthMembers_le (indent : ℕ) : ∀ ms : List (Str × Value),
    depthMembers ms ≤ extent (dumpsMembers indent ms)
  | [] => Nat.zero_le _
  | (k, v) :: ms => by
    have hv := depth_le indent v
    have hms := depthMembers_le indent ms
    rw [depthMembers, dumpsMembers, extent_cons, List.length_append, List.length_append]
    omega

end

/-- What is written is read back. -/
theorem loads_dumps {v : Value} (hv : v.Ok) : loads (dumps v) = some v := by
  have hdepth := depth_le 0 v
  have hread := (readsBack ((dumps v).length + 1)).value 0 v [] hv (Nat.le_succ_of_le hdepth)
    (fun c hc => by cases hc)
  obtain ⟨c, t, heq, hc⟩ := dumpsAt_opens 0 v
  have hskip : skipSpaces (dumps v) = dumps v := by
    rw [dumps, heq, skipSpaces, List.dropWhile_cons, hc.1]
    rfl
  rw [List.append_nil] at hread
  rw [loads, hskip]
  unfold dumps at hread ⊢
  rw [hread]
  rfl

/-! ### What is read has each name once -/

theorem okMembers_iff {ms : List (Str × Value)} : OkMembers ms ↔ ∀ m ∈ ms, m.2.Ok := by
  induction ms with
  | nil => exact iff_of_true trivial fun _ h => by cases h
  | cons m ms ih => rw [OkMembers, ih, List.forall_mem_cons]

theorem setMember_keys (d : List (Str × Value)) (m : Str × Value)
    (h : (d.map Prod.fst).Nodup) : ((setMember d m).map Prod.fst).Nodup := by
  unfold setMember
  split_ifs with hmem
  · have hkeys : (d.map fun p => if p.1 = m.1 then m else p).map Prod.fst = d.map Prod.fst := by
      rw [List.map_map]
      apply List.map_congr_left
      intro p _
      by_cases hp : p.1 = m.1
      · rw [Function.comp_apply, if_pos hp, hp]
      · rw [Function.comp_apply, if_neg hp]
    rwa [hkeys]
  · rw [List.map_append, List.nodup_append]
    refine ⟨h, List.nodup_cons.mpr ⟨List.not_mem_nil, List.nodup_nil⟩, ?_⟩
    rintro k hk k' hk' rfl
    rw [List.map_singleton, List.mem_singleton] at hk'
    exact hmem (hk' ▸ hk)

theorem setMember_ok {d : List (Str × Value)} {m : Str × Value} (hd : OkMembers d)
    (hm : m.2.Ok) : OkMembers (setMember d m) := by
  rw [okMembers_iff] at hd ⊢
  intro p hp
  unfold setMember at hp
  split_ifs at hp
  · obtain ⟨q, hq, rfl⟩ := List.mem_map.mp hp
    split_ifs
    · exact hm
    · exact hd q hq
  · obtain hp | hp := List.mem_append.mp hp
    · exact hd p hp
    · rwa [List.mem_singleton.mp hp]

theorem dict_ok {ms : List (Str × Value)} (h : OkMembers ms) : (Value.obj (dict ms)).Ok := by
  suffices hfold : ∀ d : List (Str × Value), (Value.obj d).Ok →
      (Value.obj (ms.foldl setMember d)).Ok from hfold [] ⟨List.nodup_nil, trivial⟩
  induction ms with
  | nil => exact fun d hd => hd
  | cons m ms ih =>
    intro d hd
    exact ih h.2 _ ⟨setMember_keys d m hd.1, setMember_ok hd.2 h.1⟩

theorem parseConstant_ok {t rest : Str} {v : Value} (h : parseConstant t = some (v, rest)) :
    v.Ok := by
  obtain ⟨p, hp, heq⟩ := Option.map_eq_some_iff.mp h
  have hmem := List.mem_of_find?_eq_some hp
  cases heq
  simp only [constants, List.mem_cons, List.not_mem_nil, or_false] at hmem
  obtain rfl | rfl | rfl | rfl | rfl | rfl := hmem <;> trivial

theorem parseNumber_ok {t rest : Str} {v : Value} (h : parseNumber t = some (v, rest)) : v.Ok := by
  unfold parseNumber at h
  split at h
  · cases h
  · split_ifs at h <;> cases h <;> trivial

structure Accepts (fuel : ℕ) : Prop where
  value : ∀ t v rest, parseValue fuel t = some (v, rest) → v.Ok
  items : ∀ t xs rest, parseItems fuel t = some (xs, rest) → OkItems xs
  members : ∀ t ms rest, parseMembers fuel t = some (ms, rest) → OkMembers ms

theorem accepts (fuel : ℕ) : Accepts fuel := by
  induction fuel with
  | zero =>
    refine ⟨?_, ?_, ?_⟩
    · rintro t v rest ⟨⟩
    · rintro t xs rest ⟨⟩
    · rintro t ms rest ⟨⟩
  | succ fuel ih =>
    refine ⟨?_, ?_, ?_⟩
    · intro t v rest h
      rw [parseValue.eq_def] at h
      dsimp only at h
      split at h
      · obtain ⟨p, -, heq⟩ := Option.map_eq_some_iff.mp h
        cases heq
        trivial
      · split at h
        · cases h
          trivial
        · obtain ⟨p, hp, heq⟩ := Option.map_eq_some_iff.mp h
          cases heq
          exact ih.items _ _ _ hp
      · split at h
        · cases h
          exact ⟨List.nodup_nil, trivial⟩
        · obtain ⟨p, hp, heq⟩ := Option.map_eq_some_iff.mp h
          cases heq
          exact dict_ok (ih.members _ _ _ hp)
      · cases hconstant : parseConstant t with
        | none =>
          rw [hconstant] at h
          exact parseNumber_ok h
        | some p =>
          rw [hconstant] at h
          cases h
          exact parseConstant_ok hconstant
    · intro t xs rest h
      rw [parseItems] at h
      obtain ⟨⟨x, t'⟩, hx, h⟩ := Option.bind_eq_some_iff.mp h
      dsimp only at h
      split at h
      · cases h
        exact ⟨ih.value _ _ _ hx, trivial⟩
      · obtain ⟨⟨ys, t''⟩, hys, h⟩ := Option.bind_eq_some_iff.mp h
        cases h
        exact ⟨ih.value _ _ _ hx, ih.items _ _ _ hys⟩
      · cases h
    · intro t ms rest h
      rw [parseMembers.eq_def] at h
      dsimp only at h
      split at h
      · obtain ⟨⟨k, t'⟩, -, h⟩ := Option.bind_eq_some_iff.mp h
        dsimp only at h
        split at h
        · obtain ⟨⟨v, t''⟩, hv, h⟩ := Option.bind_eq_some_iff.mp h
          dsimp only at h
          split at h
          · cases h
            exact ⟨ih.value _ _ _ hv, trivial⟩
          · obtain ⟨⟨ns, t3⟩, hns, h⟩ := Option.bind_eq_some_iff.mp h
            cases h
            exact ⟨ih.value _ _ _ hv, ih.members _ _ _ hns⟩
          · cases h
        · cases h
      · cases h

theorem loads_ok {t : Str} {v : Value} (h : loads t = some v) : v.Ok := by
  obtain ⟨⟨w, rest⟩, hw, h⟩ := Option.bind_eq_some_iff.mp h
  dsimp only at h
  split_ifs at h
  cases h
  exact (accepts _).value _ _ _ hw

end Json

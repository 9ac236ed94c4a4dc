import UsbFloppy.Lib.Text
import UsbFloppy.Gadget.ConfigFs

/-! create_gadget called twice, over the handlers that keep the inquiry string in an array of 29
bytes. An exception is none. -/

namespace UsbFloppy.Gadget
open Utf8 Trim

abbrev Bytes := List UInt8

/-! ### The handlers -/

def INQUIRY_STRING_LEN : ℕ := 8 + 16 + 4 + 1

/-- The string at the start of an array. -/
def cString (buf : Bytes) : Bytes := buf.takeWhile fun b => b ≠ 0

/-- `snprintf` with the format `"%-28s"`. -/
def formatted (buf : Bytes) : Bytes :=
  ((cString buf).rightpad 28 32).take (INQUIRY_STRING_LEN - 1)

/-- The string in `curlun->inquiry_string` after the call. -/
def fsgStoreInquiryString (buf : Bytes) : Bytes :=
  let len := min buf.length INQUIRY_STRING_LEN
  if len = 0 ∨ buf.head? = some 10 then []
  else
    let s := formatted buf
    if s[len - 1]? = some 10 then s.set (len - 1) 32 else s

def fsgShowInquiryString (stored : Bytes) : Bytes := stored ++ [10]

/-! ### Reading and writing the attribute -/

def universalNewlines : Text → Text
  | '\r' :: '\n' :: t => '\n' :: universalNewlines t
  | '\r' :: t => '\n' :: universalNewlines t
  | c :: t => c :: universalNewlines t
  | [] => []

/-- `read_text`. -/
def readInquiry (stored : Bytes) : Option Text :=
  (decode (fsgShowInquiryString stored)).map universalNewlines

/-- How the bytes of one `write_text` reach the store handler. Without bytes it is not called. -/
structure Delivery where
  pieces : Bytes → List Bytes
  whole : ∀ bytes, (pieces bytes).flatten = bytes
  nonempty : ∀ bytes, ∀ piece ∈ pieces bytes, piece ≠ []

def Delivery.write (d : Delivery) (stored : Bytes) (text : Text) : Bytes :=
  (d.pieces (encode text)).foldl (fun _ piece => fsgStoreInquiryString piece) stored

/-! ### The backends -/

/-- What is stored reads as the string, blanks aside. -/
def ReadsAs (stored : Bytes) (p : Text) : Prop :=
  ∃ cur, readInquiry stored = some cur ∧ strip cur = strip p

/-- `create_gadget` over the kernel module: what is stored, and what was written. -/
def sysfsCreateGadget (d : Delivery) (stored : Bytes) (p : GadgetParams) :
    Option (Bytes × List Text) :=
  (readInquiry stored).map fun cur =>
    if strip cur ≠ strip p.inquiryString then
      (d.write stored p.inquiryString, [p.inquiryString])
    else (stored, [])

/-- The tree in configfs, with what the handler keeps. -/
structure LiveTree where
  fs : ConfigFs
  inquiry : Bytes

namespace LiveTree

def apply (d : Delivery) (t : LiveTree) (s : CreateStep) : Option LiveTree :=
  (s.apply t.fs).map fun fs => ⟨fs,
    match s with
    | .write path value => if path = inquiryPath then d.write t.inquiry value else t.inquiry
    -- a LUN whose directory is new has no string yet
    | .mkdir path _ => if path <+: inquiryPath ∧ t.fs.isDir path = false then [] else t.inquiry
    | .link _ _ => t.inquiry⟩

def isWellFormed (t : LiveTree) (p : GadgetParams) : Option Bool :=
  match t.fs.readText inquiryPath with
  | none => some false
  | some _ => (readInquiry t.inquiry).map fun cur => strip (strip cur) = strip p.inquiryString

/-- `create_gadget` over configfs: the tree, and the steps that were made. -/
def createGadget (d : Delivery) (t : LiveTree) (p : GadgetParams) :
    Option (LiveTree × List CreateStep) :=
  let build (t : LiveTree) := ((createSteps p).foldlM (apply d) t).map fun t => (t, createSteps p)
  if t.fs.exists_ gadgetDir then
    (t.isWellFormed p).bind fun ok =>
      if ok then some (t, [])
      else (destroyGadget t.fs).bind fun fs => build ⟨fs, t.inquiry⟩
  else build t

/-- The tree passes for the gadget that is asked for. -/
def Recognised (t : LiveTree) (p : GadgetParams) : Prop :=
  t.fs.exists_ gadgetDir ∧ t.isWellFormed p = some true

end LiveTree

/-! ### The strings that survive -/

/-- The string comes back from the handler, blanks aside. `q` is what the last call is given, and
`kept` what there is of it in 28 bytes. -/
def Delivery.Survives (d : Delivery) (p : Text) : Prop :=
  ∃ q, (d.pieces (encode p)).getLast? = some (encode q) ∧
    (q.head? = some '\n' ∧ strip p = [] ∨
      q.head? ≠ some '\n' ∧ '\x00' ∉ strip p ∧ '\r' ∉ strip p ∧ ∃ kept, kept <+: q ∧
        (encode kept).length = min 28 (encode q).length ∧ strip kept = strip p)

variable {d : Delivery} {stored : Bytes} {b : UInt8} {bs : Bytes} {p q : Text}

/-! ### Newlines -/

theorem mem_universalNewlines {c : Char} : ∀ {t : Text}, c ∈ universalNewlines t →
    c = '\n' ∨ c ∈ t ∧ c ≠ '\r' := by
  intro t
  induction t using universalNewlines.induct with
  | case1 t ih =>
    intro h
    rw [universalNewlines, List.mem_cons] at h
    rcases h with rfl | h
    · exact .inl rfl
    · exact (ih h).imp_right fun ⟨hmem, hne⟩ => ⟨.tail _ (.tail _ hmem), hne⟩
  | case2 t hnext ih =>
    intro h
    rw [universalNewlines, List.mem_cons] at h
    · rcases h with rfl | h
      · exact .inl rfl
      · exact (ih h).imp_right fun ⟨hmem, hne⟩ => ⟨.tail _ hmem, hne⟩
    · exact hnext
  | case3 c' t hcrlf hcr ih =>
    intro h
    rw [universalNewlines, List.mem_cons] at h
    · rcases h with rfl | h
      · exact .inr ⟨List.mem_cons_self, hcr⟩
      · exact (ih h).imp_right fun ⟨hmem, hne⟩ => ⟨.tail _ hmem, hne⟩
    · exact hcrlf
    · exact hcr
  | case4 =>
    intro h
    cases h

theorem universalNewlines_append {s : Text} (h : '\r' ∉ s) (t : Text) :
    universalNewlines (s ++ t) = s ++ universalNewlines t := by
  induction s with
  | nil => rfl
  | cons c s ih =>
    obtain ⟨hc, hs⟩ := not_or.mp fun hmem => h (List.mem_cons.mpr hmem)
    have hcr : c = '\r' → False := fun heq => hc heq.symm
    rw [List.cons_append, universalNewlines, ih hs, List.cons_append]
    · exact fun _ heq _ => hcr heq
    · exact hcr

theorem dropWhile_universalNewlines (t : Text) :
    (universalNewlines t).dropWhile isSpace = universalNewlines (t.dropWhile isSpace) := by
  induction t using universalNewlines.induct with
  | case1 t ih =>
    rw [universalNewlines, List.dropWhile_cons_of_pos (by decide), ih,
      List.dropWhile_cons_of_pos (by decide), List.dropWhile_cons_of_pos (by decide)]
  | case2 t hnext ih =>
    rw [universalNewlines, List.dropWhile_cons_of_pos (by decide), ih,
      List.dropWhile_cons_of_pos (by decide)]
    exact hnext
  | case3 c t hcrlf hcr ih =>
    rw [universalNewlines]
    · by_cases hc : isSpace c = true
      · rw [List.dropWhile_cons_of_pos hc, ih, List.dropWhile_cons_of_pos hc]
      · rw [List.dropWhile_cons_of_neg hc, List.dropWhile_cons_of_neg hc, universalNewlines]
        · exact hcrlf
        · exact hcr
    · exact hcrlf
    · exact hcr
  | case4 => rfl

theorem strip_universalNewlines {t : Text} (h : '\r' ∉ strip t) :
    strip (universalNewlines t) = strip t := by
  have hblank : ∀ c ∈ universalNewlines ((t.dropWhile isSpace).rtakeWhile isSpace),
      isSpace c = true := by
    intro c hc
    rcases mem_universalNewlines hc with rfl | ⟨hmem, -⟩
    · decide
    · exact List.mem_rtakeWhile_imp hmem
  calc strip (universalNewlines t)
      = (universalNewlines (t.dropWhile isSpace)).rdropWhile isSpace := by
        rw [strip, dropWhile_universalNewlines]
    _ = (universalNewlines (strip t ++ (t.dropWhile isSpace).rtakeWhile isSpace)).rdropWhile
          isSpace := by rw [strip, List.rdropWhile_append_rtakeWhile]
    _ = (strip t).rdropWhile isSpace := by
        rw [universalNewlines_append h, rdropWhile_append hblank]
    _ = strip t := List.rdropWhile_idempotent _ _

/-! ### What is read -/

theorem encode_newline : encode ['\n'] = [10] := by decide

theorem readsAs_iff : ReadsAs stored p ↔
    ∃ u, stored = encode u ∧ strip (universalNewlines (u ++ ['\n'])) = strip p := by
  constructor
  · rintro ⟨cur, hread, hstrip⟩
    obtain ⟨x, hx, rfl⟩ := Option.map_eq_some_iff.mp hread
    have hbytes : stored ++ encode ['\n'] = encode x := encode_newline ▸ encode_of_decode hx
    obtain ⟨u, rfl⟩ := suffix_of_encode (List.cons_ne_nil _ _) (hbytes ▸ List.suffix_append _ _)
    rw [encode_append] at hbytes
    exact ⟨u, List.append_cancel_right hbytes, hstrip⟩
  · rintro ⟨u, rfl, hstrip⟩
    refine ⟨universalNewlines (u ++ ['\n']), ?_, hstrip⟩
    unfold readInquiry fsgShowInquiryString
    rw [← encode_newline, ← encode_append, decode_encode]
    rfl

/-- A part of the string, followed by blanks. -/
theorem readsAs_blanks_iff {body blanks : Text} (hbody : body <:+: p)
    (hblanks : ∀ c ∈ blanks, isSpace c = true) :
    ReadsAs (encode (body ++ blanks)) p ↔ '\r' ∉ strip p ∧ strip body = strip p := by
  have htail : ∀ c ∈ blanks ++ ['\n'], isSpace c = true := by
    intro c hc
    rcases List.mem_append.mp hc with hc | hc
    · exact hblanks c hc
    · rw [List.mem_singleton.mp hc]
      decide
  have hsame : strip (body ++ blanks ++ ['\n']) = strip body := by
    rw [List.append_assoc]
    exact trim_append htail body
  have hpart : strip body <:+: strip p := trim_within hbody
  rw [readsAs_iff]
  constructor
  · rintro ⟨u, hu, hstrip⟩
    rw [← encode_injective hu] at hstrip
    have hcr : '\r' ∉ strip p := by
      intro hmem
      rw [← hstrip] at hmem
      rcases mem_universalNewlines ((trim_sublist _).subset hmem) with heq | ⟨-, hne⟩
      · exact absurd heq (by decide)
      · exact hne rfl
    have hcr' : '\r' ∉ strip (body ++ blanks ++ ['\n']) := hsame ▸ fun h => hcr (hpart.subset h)
    rw [strip_universalNewlines hcr', hsame] at hstrip
    exact ⟨hcr, hstrip⟩
  · rintro ⟨hcr, hstrip⟩
    refine ⟨_, rfl, ?_⟩
    rw [strip_universalNewlines (by rwa [hsame, hstrip]), hsame, hstrip]

/-! ### What is stored -/

theorem fsgStore_newline (bs : Bytes) : fsgStoreInquiryString (10 :: bs) = [] :=
  if_pos (.inr rfl)

theorem fsgStore_eq (hb : b ≠ 10) (bs : Bytes) : fsgStoreInquiryString (b :: bs) =
    let len := min (b :: bs).length INQUIRY_STRING_LEN
    if (formatted (b :: bs))[len - 1]? = some 10 then (formatted (b :: bs)).set (len - 1) 32
    else formatted (b :: bs) := by
  unfold fsgStoreInquiryString
  rw [if_neg]
  rintro (hzero | hhead)
  · simp [INQUIRY_STRING_LEN] at hzero
  · exact hb (Option.some.inj hhead)

theorem zero_notMem_formatted (buf : Bytes) : 0 ∉ formatted buf := by
  intro h
  rcases List.mem_append.mp (List.mem_of_mem_take h) with h | h
  · exact absurd (List.mem_takeWhile_imp h) (by decide)
  · exact absurd (List.eq_of_mem_replicate h) (by decide)

theorem zero_notMem_fsgStore (hb : b ≠ 10) (bs : Bytes) : 0 ∉ fsgStoreInquiryString (b :: bs) := by
  rw [fsgStore_eq hb]
  dsimp only
  split
  · intro h
    rcases List.mem_or_eq_of_mem_set h with h | h
    · exact zero_notMem_formatted _ h
    · exact absurd h (by decide)
  · exact zero_notMem_formatted _

theorem head?_fsgStore (hb : b ≠ 10) (hzero : b ≠ 0) (bs : Bytes) :
    (fsgStoreInquiryString (b :: bs)).head? = some b := by
  have hhead : (formatted (b :: bs)).head? = some b := by
    simp [formatted, cString, hzero, List.rightpad, INQUIRY_STRING_LEN]
  rw [fsgStore_eq hb]
  dsimp only
  split
  · rename_i hlast
    rw [List.head?_eq_getElem?] at hhead ⊢
    rw [List.getElem?_set_ne, hhead]
    intro heq
    rw [heq, hhead] at hlast
    exact hb (Option.some.inj hlast)
  · exact hhead

theorem head?_of_encode (h : encode q = 10 :: bs) : q.head? = some '\n' := by
  have hstart : encode ['\n'] <+: encode q := by
    rw [h, encode_newline]
    exact ⟨bs, rfl⟩
  obtain ⟨rest, rfl⟩ := isPrefix_of_encode hstart
  rfl

theorem exists_encode (hq : q ≠ []) (hhead : q.head? ≠ some '\n') :
    ∃ b bs, encode q = b :: bs ∧ b ≠ 10 := by
  have hne : encode q ≠ [] := fun hnil => hq (encode_injective (hnil.trans rfl))
  obtain ⟨b, bs, hcode⟩ := List.exists_cons_of_ne_nil hne
  refine ⟨b, bs, hcode, ?_⟩
  rintro rfl
  exact hhead (head?_of_encode hcode)

theorem formatted_encode (hzero : '\x00' ∉ q) :
    formatted (encode q) = ((encode q).rightpad 28 32).take 28 := by
  have hstring : cString (encode q) = encode q := by
    unfold cString
    rw [List.takeWhile_eq_self_iff]
    intro b hb
    rw [decide_eq_true_eq]
    rintro rfl
    exact hzero (mem_of_mem_encode (by decide) hb)
  unfold formatted
  rw [hstring]
  rfl

theorem fsgStore_long (hzero : '\x00' ∉ q) (hq : q ≠ []) (hhead : q.head? ≠ some '\n')
    (hlen : 28 < (encode q).length) : fsgStoreInquiryString (encode q) = (encode q).take 28 := by
  have hformatted : formatted (encode q) = (encode q).take 28 := by
    rw [formatted_encode hzero, List.rightpad, Nat.sub_eq_zero_of_le hlen.le, List.replicate_zero,
      List.append_nil]
  obtain ⟨b, bs, hcode, hb⟩ := exists_encode hq hhead
  have hmin : min (encode q).length INQUIRY_STRING_LEN - 1 = 28 := by
    rw [min_eq_right (show INQUIRY_STRING_LEN ≤ (encode q).length from hlen)]
    rfl
  rw [hcode] at hmin hformatted ⊢
  rw [fsgStore_eq hb]
  simp only [hmin, hformatted]
  rw [if_neg]
  rw [List.getElem?_eq_none (List.length_take_le 28 _)]
  simp

theorem encode_spaces (n : ℕ) : encode (List.replicate n ' ') = List.replicate n 32 := by
  induction n with
  | zero => rfl
  | succ n ih =>
    rw [List.replicate_succ, encode_cons, ih]
    rfl

theorem isSpace_of_mem_spaces {n : ℕ} : ∀ c ∈ List.replicate n ' ', isSpace c = true := by
  intro c hc
  rw [List.eq_of_mem_replicate hc]
  decide

theorem formatted_short (hzero : '\x00' ∉ q) (hlen : (encode q).length ≤ 28) :
    formatted (encode q) = encode q ++ List.replicate (28 - (encode q).length) 32 := by
  rw [formatted_encode hzero, List.rightpad, List.take_of_length_le]
  simp
  omega

theorem eq_newline_of_getLast? {body : Text} {last : Char}
    (h : (encode (body ++ [last])).getLast? = some 10) : last = '\n' := by
  obtain ⟨before, hbefore⟩ := List.getLast?_eq_some_iff.mp h
  have hsuffix : encode ['\n'] <:+ encode (body ++ [last]) := by
    rw [hbefore, encode_newline]
    exact List.suffix_append _ _
  obtain ⟨text, htext⟩ := suffix_of_encode (List.cons_ne_nil _ _) hsuffix
  exact (List.singleton_inj.mp (List.append_inj' htext rfl).2).symm

/-- A short string is followed by blanks; its last character turns into one if it is a newline. -/
theorem fsgStore_short (hzero : '\x00' ∉ q) (hq : q ≠ []) (hhead : q.head? ≠ some '\n')
    (hlen : (encode q).length ≤ 28) :
    ∃ body tail blanks, q = body ++ tail ∧ (∀ c ∈ tail, isSpace c = true) ∧
      (∀ c ∈ blanks, isSpace c = true) ∧
        fsgStoreInquiryString (encode q) = encode (body ++ blanks) := by
  obtain ⟨b, bs, hcode, hb⟩ := exists_encode hq hhead
  have hmin : min (encode q).length INQUIRY_STRING_LEN - 1 = (encode q).length - 1 := by
    rw [min_eq_left (hlen.trans (by decide))]
  have hstore := fsgStore_eq hb bs
  rw [← hcode] at hstore
  simp only [hmin, formatted_short hzero hlen] at hstore
  obtain ⟨body, last, rfl⟩ := (List.eq_nil_or_concat' q).resolve_left hq
  by_cases hlast : last = '\n'
  · rw [hlast, encode_append, encode_newline] at hstore
    have hindex : (encode body ++ [10]).length - 1 = (encode body).length := by simp
    rw [hindex, if_pos (by simp), List.append_assoc, List.set_append_right _ _ le_rfl,
      Nat.sub_self, List.singleton_append, List.set_cons_zero] at hstore
    let spaces := List.replicate (28 - (encode body ++ [10]).length + 1) ' '
    refine ⟨body, ['\n'], spaces, by rw [hlast], ?_, isSpace_of_mem_spaces, ?_⟩
    · intro c hc
      rw [List.mem_singleton.mp hc]
      decide
    · rw [hlast, encode_append body, encode_newline, hstore, encode_append, encode_spaces]
      rfl
  · have hkeep : ¬ (encode (body ++ [last]) ++ List.replicate
        (28 - (encode (body ++ [last])).length) 32)[(encode (body ++ [last])).length - 1]? =
          some 10 := by
      intro h
      rw [List.getElem?_append_left (by rw [hcode]; simp), ← List.getLast?_eq_getElem?] at h
      exact hlast (eq_newline_of_getLast? h)
    rw [if_neg hkeep] at hstore
    exact ⟨body ++ [last], [], List.replicate (28 - (encode (body ++ [last])).length) ' ',
      (List.append_nil _).symm, fun c hc => absurd hc List.not_mem_nil, isSpace_of_mem_spaces,
      by rw [encode_append (body ++ [last]), encode_spaces, hstore]⟩

/-! ### What comes back -/

theorem zero_notMem_of_readsAs (h : ReadsAs stored p) (hzero : 0 ∉ stored) : '\x00' ∉ strip p := by
  obtain ⟨u, rfl, hstrip⟩ := readsAs_iff.mp h
  intro hmem
  rw [← hstrip] at hmem
  rcases mem_universalNewlines ((trim_sublist _).subset hmem) with heq | ⟨hu, -⟩
  · exact absurd heq (by decide)
  · rcases List.mem_append.mp hu with hu | hu
    · exact hzero (List.mem_flatMap.mpr ⟨_, hu, by decide⟩)
    · exact absurd (List.mem_singleton.mp hu) (by decide)

/-- A string within 28 bytes is kept as a whole. -/
theorem readsAs_short_iff (hp : q <:+ p) (hzero : '\x00' ∉ q) (hq : q ≠ [])
    (hhead : q.head? ≠ some '\n') (hlen : (encode q).length ≤ 28) :
    ReadsAs (fsgStoreInquiryString (encode q)) p ↔ '\r' ∉ strip p ∧ ∃ kept, kept <+: q ∧
      (encode kept).length = min 28 (encode q).length ∧ strip kept = strip p := by
  obtain ⟨body, tail, blanks, hsplit, htail, hblanks, hstore⟩ := fsgStore_short hzero hq hhead hlen
  have hbody : body <:+: p := by
    refine List.IsInfix.trans ?_ hp.isInfix
    rw [hsplit]
    exact List.infix_append_left
  have hstrip : strip q = strip body := by
    rw [hsplit]
    exact trim_append htail body
  rw [hstore, readsAs_blanks_iff hbody hblanks, min_eq_right hlen]
  apply and_congr_right'
  constructor
  · intro h
    exact ⟨q, List.prefix_rfl, rfl, hstrip.trans h⟩
  · rintro ⟨kept, ⟨rest, rfl⟩, hkept, h⟩
    have hrest : rest = [] := by
      apply encode_injective
      rw [encode_append, List.length_append] at hkept
      exact List.eq_nil_of_length_eq_zero (by omega)
    rw [hrest, List.append_nil] at hstrip
    exact hstrip.symm.trans h

theorem readsAs_encode_iff {kept : Text} (h : kept <:+: p) :
    ReadsAs (encode kept) p ↔ '\r' ∉ strip p ∧ strip kept = strip p := by
  have hiff : ReadsAs (encode (kept ++ [])) p ↔ '\r' ∉ strip p ∧ strip kept = strip p :=
    readsAs_blanks_iff h fun c hc => absurd hc List.not_mem_nil
  rwa [List.append_nil] at hiff

theorem readsAs_long_iff (hp : q <:+ p) (hzero : '\x00' ∉ q) (hq : q ≠ [])
    (hhead : q.head? ≠ some '\n') (hlen : 28 < (encode q).length) :
    ReadsAs (fsgStoreInquiryString (encode q)) p ↔ '\r' ∉ strip p ∧ ∃ kept, kept <+: q ∧
      (encode kept).length = min 28 (encode q).length ∧ strip kept = strip p := by
  rw [fsgStore_long hzero hq hhead hlen, min_eq_left hlen.le]
  constructor
  · intro h
    -- the cut falls between two characters, or nothing could be read
    obtain ⟨kept, hkept, -⟩ := readsAs_iff.mp h
    have hstart : kept <+: q := isPrefix_of_encode (hkept ▸ List.take_prefix 28 _)
    rw [hkept, readsAs_encode_iff (hstart.isInfix.trans hp.isInfix)] at h
    refine ⟨h.1, kept, hstart, ?_, h.2⟩
    rw [← hkept, List.length_take, min_eq_left hlen.le]
  · rintro ⟨hcr, kept, hkept, hlength, hstrip⟩
    have hcode : encode kept <+: encode q := by
      obtain ⟨rest, rfl⟩ := hkept
      rw [encode_append]
      exact List.prefix_append _ _
    rw [← hlength, ← List.prefix_iff_eq_take.mp hcode,
      readsAs_encode_iff (hkept.isInfix.trans hp.isInfix)]
    exact ⟨hcr, hstrip⟩

theorem fsgStore_readsAs_iff (hp : q <:+ p) (hq : q ≠ []) (hhead : q.head? ≠ some '\n') :
    ReadsAs (fsgStoreInquiryString (encode q)) p ↔
      '\x00' ∉ strip p ∧ '\r' ∉ strip p ∧ ∃ kept, kept <+: q ∧
        (encode kept).length = min 28 (encode q).length ∧ strip kept = strip p := by
  have hstored : 0 ∉ fsgStoreInquiryString (encode q) := by
    obtain ⟨b, bs, hcode, hb⟩ := exists_encode hq hhead
    rw [hcode]
    exact zero_notMem_fsgStore hb bs
  by_cases hzero : '\x00' ∈ q
  · have hmem : '\x00' ∈ strip p := mem_trim (hp.subset hzero) (by decide)
    exact iff_of_false (fun h => zero_notMem_of_readsAs h hstored hmem) fun h => h.1 hmem
  rw [← and_iff_right_of_imp fun h => zero_notMem_of_readsAs h hstored]
  apply and_congr_right'
  rcases le_or_gt (encode q).length 28 with hlen | hlen
  · exact readsAs_short_iff hp hzero hq hhead hlen
  · exact readsAs_long_iff hp hzero hq hhead hlen

theorem readsAs_nil_iff : ReadsAs [] p ↔ strip p = [] := by
  rw [readsAs_iff]
  constructor
  · rintro ⟨u, hu, hstrip⟩
    have hnil : u = [] := encode_injective hu.symm
    rw [hnil] at hstrip
    exact hstrip.symm.trans (by decide)
  · intro h
    exact ⟨[], rfl, (show strip (universalNewlines ['\n']) = [] by decide).trans h.symm⟩

theorem readsAs_text_iff (hp : q <:+ p) (hq : q ≠ []) :
    ReadsAs (fsgStoreInquiryString (encode q)) p ↔
      q.head? = some '\n' ∧ strip p = [] ∨
        q.head? ≠ some '\n' ∧ '\x00' ∉ strip p ∧ '\r' ∉ strip p ∧ ∃ kept, kept <+: q ∧
          (encode kept).length = min 28 (encode q).length ∧ strip kept = strip p := by
  by_cases hhead : q.head? = some '\n'
  · obtain ⟨rest, rfl⟩ := List.head?_eq_some_iff.mp hhead
    have hstore : fsgStoreInquiryString (encode ('\n' :: rest)) = [] := fsgStore_newline (encode rest)
    rw [hstore, readsAs_nil_iff, and_iff_right hhead, or_iff_left fun h => h.1 hhead]
  · rw [fsgStore_readsAs_iff hp hq hhead, or_iff_right fun h => hhead h.1, and_iff_right hhead]

theorem foldl_last {α β : Type*} (f : β → α) (a : α) (l : List β) :
    l.foldl (fun _ x => f x) a = (l.getLast?.map f).getD a := by
  rcases List.eq_nil_or_concat' l with rfl | ⟨l, x, rfl⟩
  · rfl
  · rw [List.foldl_concat, List.getLast?_concat]
    rfl

theorem pieces_eq_nil_iff : d.pieces (encode p) = [] ↔ p = [] := by
  constructor
  · intro h
    have hwhole := d.whole (encode p)
    rw [h] at hwhole
    exact encode_injective hwhole.symm
  · rintro rfl
    by_contra hne
    obtain ⟨piece, pieces, hpieces⟩ := List.exists_cons_of_ne_nil hne
    have hwhole := d.whole (encode [])
    rw [hpieces, List.flatten_cons] at hwhole
    have hpiece : piece ∈ d.pieces (encode []) := hpieces ▸ List.mem_cons_self
    exact d.nonempty _ piece hpiece (List.append_eq_nil_iff.mp hwhole).1

theorem last_suffix {piece : Bytes} (h : (d.pieces (encode p)).getLast? = some piece) :
    piece <:+ encode p ∧ piece ≠ [] := by
  obtain ⟨pieces, hpieces⟩ := List.getLast?_eq_some_iff.mp h
  have hwhole := d.whole (encode p)
  rw [hpieces, List.flatten_append, List.flatten_singleton] at hwhole
  refine ⟨⟨_, hwhole⟩, d.nonempty (encode p) piece ?_⟩
  rw [hpieces]
  exact List.mem_append_right _ (List.mem_singleton_self piece)

/-- A write whose bytes start within a character is not read back. -/
theorem isFirst_of_readsAs (h : ReadsAs (fsgStoreInquiryString (b :: bs)) p) :
    b.IsUTF8FirstByte := by
  by_cases hb : b = 10
  · rw [hb]
    decide
  by_cases hzero : b = 0
  · rw [hzero]
    decide
  obtain ⟨u, hu, -⟩ := readsAs_iff.mp h
  obtain ⟨rest, hrest⟩ := List.head?_eq_some_iff.mp (head?_fsgStore hb hzero bs)
  have hdecode : decode (b :: rest) = some u := by rw [← hrest, hu, decode_encode]
  exact isFirst_of_decode hdecode

theorem readsAs_write_iff :
    ReadsAs (d.write stored p) p ↔ d.Survives p ∨ p = [] ∧ ReadsAs stored p := by
  unfold Delivery.write
  rw [foldl_last]
  rcases hlast : (d.pieces (encode p)).getLast? with _ | piece
  · have hp : p = [] := pieces_eq_nil_iff.mp (List.getLast?_eq_none_iff.mp hlast)
    have hno : ¬ d.Survives p := by
      rintro ⟨q, hq, -⟩
      rw [hlast] at hq
      cases hq
    rw [or_iff_right hno, and_iff_right hp]
    rfl
  · have hp : ¬ (p = [] ∧ ReadsAs stored p) := by
      intro h
      rw [pieces_eq_nil_iff.mpr h.1] at hlast
      cases hlast
    rw [or_iff_left hp, Option.map_some, Option.getD_some]
    obtain ⟨hsuffix, hne⟩ := last_suffix hlast
    constructor
    · intro h
      obtain ⟨b, bs, rfl⟩ := List.exists_cons_of_ne_nil hne
      obtain ⟨q, hq, hcode⟩ := suffix_of_encode_suffix hsuffix (isFirst_of_readsAs h)
      have hne' : q ≠ [] := by
        rintro rfl
        exact hne hcode
      rw [hcode] at h
      exact ⟨q, hlast.trans (congrArg some hcode), (readsAs_text_iff hq hne').mp h⟩
    · rintro ⟨q, hq, hsurvives⟩
      obtain rfl : piece = encode q := Option.some.inj (hlast.symm.trans hq)
      have hne' : q ≠ [] := by
        rintro rfl
        exact hne rfl
      exact (readsAs_text_iff (suffix_of_encode hne' hsuffix) hne').mpr hsurvives

/-! ### Over the kernel module -/

theorem sysfs_idle_iff {p : GadgetParams} :
    sysfsCreateGadget d stored p = some (stored, []) ↔ ReadsAs stored p.inquiryString := by
  unfold sysfsCreateGadget ReadsAs
  rw [Option.map_eq_some_iff]
  apply exists_congr
  intro cur
  apply and_congr_right'
  split
  · rename_i hne
    exact iff_of_false (fun h => List.cons_ne_nil _ _ (Prod.mk.inj h).2) hne
  · rename_i heq
    exact iff_of_true rfl (not_not.mp heq)

theorem sysfs_second_idle_iff {p : GadgetParams} {stored' : Bytes} {writes : List Text}
    (h : sysfsCreateGadget d stored p = some (stored', writes)) :
    sysfsCreateGadget d stored' p = some (stored', []) ↔
      ReadsAs stored p.inquiryString ∨ d.Survives p.inquiryString := by
  rw [sysfs_idle_iff]
  obtain ⟨cur, hcur, hresult⟩ := Option.map_eq_some_iff.mp h
  split at hresult
  · rename_i hne
    cases hresult
    have hno : ¬ ReadsAs stored p.inquiryString := by
      rintro ⟨cur', hcur', hstrip⟩
      rw [Option.some.inj (hcur'.symm.trans hcur)] at hstrip
      exact hne hstrip
    rw [readsAs_write_iff, or_iff_right hno, or_iff_left fun h => hno h.2]
  · rename_i heq
    cases hresult
    have hreads : ReadsAs stored p.inquiryString := ⟨cur, hcur, not_not.mp heq⟩
    exact iff_of_true hreads (.inl hreads)

/-! ### Over configfs -/

/-- The step calls the store handler. -/
def CreateStep.sets : CreateStep → Bool
  | .write path _ => path = inquiryPath
  | _ => false

/-- The step makes a directory that the LUN is in. -/
def CreateStep.above : CreateStep → Bool
  | .mkdir path _ => path <+: inquiryPath
  | _ => false

theorem CreateStep.blank_sets (s : CreateStep) : s.blank.sets = s.sets := by
  cases s <;> rfl

namespace LiveTree

variable {t t' : LiveTree} {s : CreateStep} {steps : List CreateStep} {p : GadgetParams}

theorem apply_fs (h : t.apply d s = some t') : s.apply t.fs = some t'.fs := by
  obtain ⟨fs, hfs, rfl⟩ := Option.map_eq_some_iff.mp h
  exact hfs

theorem apply_fresh (h : t.apply d s = some t') (hs : s.sets = false) (ht : t.inquiry = []) :
    t'.inquiry = [] := by
  obtain ⟨fs, -, rfl⟩ := Option.map_eq_some_iff.mp h
  cases s with
  | mkdir path existOk =>
    dsimp only
    split
    · rfl
    · exact ht
  | write path value =>
    have hpath : path ≠ inquiryPath := of_decide_eq_false hs
    exact (if_neg hpath).trans ht
  | link path target => exact ht

theorem apply_inquiry (h : t.apply d s = some t') (hs : s.sets = false) (habove : s.above = false) :
    t'.inquiry = t.inquiry := by
  obtain ⟨fs, -, rfl⟩ := Option.map_eq_some_iff.mp h
  cases s with
  | mkdir path existOk =>
    have hpath : ¬ path <+: inquiryPath := of_decide_eq_false habove
    exact if_neg fun h => hpath h.1
  | write path value =>
    have hpath : path ≠ inquiryPath := of_decide_eq_false hs
    exact if_neg hpath
  | link path target => rfl

theorem apply_write {value : Text} (h : t.apply d (.write inquiryPath value) = some t') :
    t'.inquiry = d.write t.inquiry value := by
  obtain ⟨fs, -, rfl⟩ := Option.map_eq_some_iff.mp h
  dsimp only
  rw [if_pos rfl]

theorem foldlM_cons (h : (s :: steps).foldlM (apply d) t = some t') :
    ∃ t₁, t.apply d s = some t₁ ∧ steps.foldlM (apply d) t₁ = some t' :=
  Option.bind_eq_some_iff.mp h

theorem foldlM_fs (h : steps.foldlM (apply d) t = some t') : runSteps t.fs steps = some t'.fs := by
  induction steps generalizing t with
  | nil =>
    cases h
    rfl
  | cons s steps ih =>
    obtain ⟨t₁, hs, hrest⟩ := foldlM_cons h
    rw [runSteps_cons, apply_fs hs]
    exact ih hrest

theorem foldlM_fresh (h : steps.foldlM (apply d) t = some t')
    (hsteps : ∀ s ∈ steps, s.sets = false) (ht : t.inquiry = []) : t'.inquiry = [] := by
  induction steps generalizing t with
  | nil =>
    cases h
    exact ht
  | cons s steps ih =>
    obtain ⟨t₁, hs, hrest⟩ := foldlM_cons h
    have ht₁ := apply_fresh hs (hsteps s List.mem_cons_self) ht
    exact ih hrest (fun s' hs' => hsteps s' (.tail _ hs')) ht₁

theorem foldlM_inquiry (h : steps.foldlM (apply d) t = some t')
    (hsteps : ∀ s ∈ steps, s.sets = false ∧ s.above = false) : t'.inquiry = t.inquiry := by
  induction steps generalizing t with
  | nil =>
    cases h
    rfl
  | cons s steps ih =>
    obtain ⟨t₁, hs, hrest⟩ := foldlM_cons h
    obtain ⟨hsets, habove⟩ := hsteps s List.mem_cons_self
    rw [ih hrest fun s' hs' => hsteps s' (.tail _ hs'), apply_inquiry hs hsets habove]

theorem earlySteps_sets (p : GadgetParams) : ∀ s ∈ earlySteps p, s.sets = false := by
  intro s hs
  have hblank : ∀ s ∈ (earlySteps blankParams).map CreateStep.blank, s.sets = false := by
    decide +kernel
  rw [← s.blank_sets]
  exact hblank s.blank (List.mem_map_of_mem (l := earlySteps p) hs)

theorem lateSteps_sets : ∀ s ∈ lateSteps ++ [.link cfgLink funcDir],
    s.sets = false ∧ s.above = false := by
  decide +kernel

theorem foldlM_append {steps' : List CreateStep}
    (h : (steps ++ steps').foldlM (apply d) t = some t') :
    ∃ t₁, steps.foldlM (apply d) t = some t₁ ∧ steps'.foldlM (apply d) t₁ = some t' := by
  rw [List.foldlM_append] at h
  exact Option.bind_eq_some_iff.mp h

theorem mkdir_gadgetDir (h : t.apply d (.mkdir gadgetDir false) = some t') : t'.inquiry = [] := by
  have hmkdir : t.fs.mkdir gadgetDir = some t'.fs := apply_fs h
  obtain ⟨fs, -, rfl⟩ := Option.map_eq_some_iff.mp h
  have hdir : t.fs.isDir gadgetDir = false := by
    by_contra hdir
    have hexists : t.fs.exists_ gadgetDir := exists_gadgetDir (by simpa using hdir)
    unfold ConfigFs.mkdir at hmkdir
    rw [if_pos (.inl hexists)] at hmkdir
    cases hmkdir
  exact if_pos ⟨by decide, hdir⟩

theorem build_spec (h : (createSteps p).foldlM (apply d) t = some t') :
    t'.fs.exists_ gadgetDir ∧ (t'.fs.readText inquiryPath).isSome ∧
      t'.inquiry = d.write [] p.inquiryString := by
  have hsplit : createSteps p = earlySteps p ++ ([.write inquiryPath p.inquiryString] ++
      (lateSteps ++ [.link cfgLink funcDir])) := by
    unfold createSteps buildSteps
    rw [List.append_assoc, List.cons_append]
    rfl
  have hearlySets : ∀ s ∈ (earlySteps p).tail, s.sets = false := fun s hs =>
    earlySteps_sets p s (List.mem_of_mem_tail hs)
  have hdone := build_done (foldlM_fs h)
  refine ⟨exists_gadgetDir (hdone (.mkdir gadgetDir false) List.mem_cons_self), ?_, ?_⟩
  · have hwrite : t'.fs.lookup inquiryPath = some (.attr p.inquiryString) := by
      apply hdone (.write inquiryPath p.inquiryString)
      exact List.mem_append_right _ List.mem_cons_self
    unfold ConfigFs.readText
    rw [hwrite]
    rfl
  · rw [hsplit] at h
    obtain ⟨t₂, hearly, hrest⟩ := foldlM_append h
    obtain ⟨t₃, hinquiry, hlate⟩ := foldlM_append hrest
    obtain ⟨t₁, hmkdir, hearly⟩ := foldlM_cons hearly
    have hfresh : t₂.inquiry = [] := foldlM_fresh hearly hearlySets (mkdir_gadgetDir hmkdir)
    obtain ⟨t₄, hwrite, heq⟩ := foldlM_cons hinquiry
    cases heq
    rw [foldlM_inquiry hlate lateSteps_sets, apply_write hwrite, hfresh]

theorem recognised_iff (hg : t.fs.exists_ gadgetDir)
    (hinquiry : (t.fs.readText inquiryPath).isSome) :
    t.Recognised p ↔ ReadsAs t.inquiry p.inquiryString := by
  obtain ⟨text, htext⟩ := Option.isSome_iff_exists.mp hinquiry
  unfold Recognised isWellFormed ReadsAs
  rw [htext, and_iff_right hg, Option.map_eq_some_iff]
  apply exists_congr
  intro cur
  rw [decide_eq_true_eq, strip_strip]

theorem idle_iff : t.createGadget d p = some (t, []) ↔ t.Recognised p := by
  have hbuild : ∀ t₀ : LiveTree, ((createSteps p).foldlM (apply d) t₀).map
      (fun t => (t, createSteps p)) ≠ some (t, []) := by
    intro t₀ h
    obtain ⟨t₁, -, heq⟩ := Option.map_eq_some_iff.mp h
    exact List.cons_ne_nil _ _ (Prod.mk.inj heq).2
  unfold createGadget Recognised
  by_cases hg : t.fs.exists_ gadgetDir
  · rw [if_pos hg, and_iff_right hg]
    rcases t.isWellFormed p with _ | _ | _
    · exact iff_of_false (fun h => by cases h) fun h => by cases h
    · refine iff_of_false (fun h => ?_) fun h => by cases h
      obtain ⟨ok, hok, hrest⟩ := Option.bind_eq_some_iff.mp h
      cases hok
      obtain ⟨fs, -, hfs⟩ := Option.bind_eq_some_iff.mp hrest
      exact hbuild _ hfs
    · exact iff_of_true rfl rfl
  · rw [if_neg hg]
    exact iff_of_false (hbuild t) fun h => hg h.1

/-- The tree is taken as it is, or a new one is built where it was. -/
theorem createGadget_cases {made : List CreateStep} (h : t.createGadget d p = some (t', made)) :
    t.Recognised p ∧ t' = t ∨ ¬ t.Recognised p ∧ ∃ t₀ : LiveTree,
      (createSteps p).foldlM (apply d) t₀ = some t' ∧
        (t.fs.exists_ gadgetDir → destroyGadget t.fs = some t₀.fs) := by
  unfold createGadget at h
  unfold Recognised
  by_cases hg : t.fs.exists_ gadgetDir
  · rw [if_pos hg] at h
    obtain ⟨ok, hok, hrest⟩ := Option.bind_eq_some_iff.mp h
    rw [hok]
    cases ok with
    | true =>
      cases hrest
      exact .inl ⟨⟨hg, rfl⟩, rfl⟩
    | false =>
      obtain ⟨fs, hdestroy, hbuild⟩ := Option.bind_eq_some_iff.mp hrest
      obtain ⟨t₁, hbuild', heq⟩ := Option.map_eq_some_iff.mp hbuild
      cases heq
      exact .inr ⟨fun h => absurd h.2 (by decide), _, hbuild', fun _ => hdestroy⟩
  · rw [if_neg hg] at h
    obtain ⟨t₁, hbuild, heq⟩ := Option.map_eq_some_iff.mp h
    cases heq
    exact .inr ⟨fun h => hg h.1, t, hbuild, fun hexists => absurd hexists hg⟩

theorem recognised_build_iff (h : (createSteps p).foldlM (apply d) t = some t') :
    t'.Recognised p ↔ p.inquiryString = [] ∨ d.Survives p.inquiryString := by
  obtain ⟨hg, hattr, hinquiry⟩ := build_spec h
  have hempty : p.inquiryString = [] ∧ ReadsAs [] p.inquiryString ↔ p.inquiryString = [] :=
    and_iff_left_of_imp fun hnil => readsAs_nil_iff.mpr (by rw [hnil]; decide)
  rw [recognised_iff hg hattr, hinquiry, readsAs_write_iff, hempty, or_comm]

theorem second_idle_iff {made : List CreateStep} (h : t.createGadget d p = some (t', made)) :
    t'.createGadget d p = some (t', []) ↔
      t.Recognised p ∨ p.inquiryString = [] ∨ d.Survives p.inquiryString := by
  rw [idle_iff]
  rcases createGadget_cases h with ⟨hreuse, rfl⟩ | ⟨hrebuild, t₀, hbuild, -⟩
  · exact iff_of_true hreuse (.inl hreuse)
  · rw [or_iff_right hrebuild, recognised_build_iff hbuild]

theorem exists_foldlM (d : Delivery) (h : (runSteps t.fs steps).isSome) :
    ∃ t', steps.foldlM (apply d) t = some t' := by
  induction steps generalizing t with
  | nil => exact ⟨t, rfl⟩
  | cons s steps ih =>
    rw [runSteps_cons] at h
    obtain ⟨fs, hs⟩ := Option.isSome_iff_exists.mp (Option.isSome_of_isSome_bind h)
    obtain ⟨t₁, ht₁⟩ : ∃ t₁, t.apply d s = some t₁ := ⟨_, Option.map_eq_some_iff.mpr ⟨fs, hs, rfl⟩⟩
    rw [apply_fs ht₁, Option.bind_some] at h
    obtain ⟨t', hrest⟩ := ih h
    exact ⟨t', Option.bind_eq_some_iff.mpr ⟨t₁, ht₁, hrest⟩⟩

theorem foldlM_map_fs (d : Delivery) (t : LiveTree) (steps : List CreateStep) :
    (steps.foldlM (apply d) t).map fs = runSteps t.fs steps := by
  rcases h : runSteps t.fs steps with _ | fs
  · rcases ht : steps.foldlM (apply d) t with _ | t'
    · rfl
    · cases h.symm.trans (foldlM_fs ht)
  · obtain ⟨t', ht'⟩ := exists_foldlM d (show (runSteps t.fs steps).isSome by rw [h]; rfl)
    rw [ht', Option.map_some, ← h, foldlM_fs ht']

/-- Where the string reads as it was written, the tree is what it is without the handlers. -/
theorem createGadget_map_fs (d : Delivery)
    (h : t.isWellFormed p = some (Gadget.isWellFormed t.fs p)) :
    (t.createGadget d p).map (fun made => made.1.fs) = Gadget.createGadget t.fs p := by
  have hbuild : ∀ t₀ : LiveTree, (((createSteps p).foldlM (apply d) t₀).map
      fun t => (t, createSteps p)).map (fun made => made.1.fs) = runSteps t₀.fs (createSteps p) := by
    intro t₀
    rw [Option.map_map]
    exact foldlM_map_fs d t₀ _
  unfold createGadget Gadget.createGadget
  by_cases hg : t.fs.exists_ gadgetDir
  · rw [if_pos hg, if_pos hg, h, Option.bind_some]
    split_ifs
    · rfl
    · rcases destroyGadget t.fs with _ | fs
      · rfl
      · exact hbuild ⟨fs, t.inquiry⟩
  · rw [if_neg hg, if_neg hg]
    exact hbuild t

theorem exists_built (d : Delivery) (p : GadgetParams) :
    ∃ t', (createSteps p).foldlM (apply d) ⟨∅, []⟩ = some t' :=
  exists_foldlM (t := ⟨∅, []⟩) d (build_isSome p)

theorem createGadget_empty (h : (createSteps p).foldlM (apply d) ⟨∅, []⟩ = some t') :
    createGadget d ⟨∅, []⟩ p = some (t', createSteps p) := by
  have hg : ¬ ConfigFs.exists_ ∅ gadgetDir := AList.notMem_empty _
  unfold createGadget
  rw [if_neg hg]
  exact Option.map_eq_some_iff.mpr ⟨t', h, rfl⟩

theorem complete_built (h : (createSteps p).foldlM (apply d) ⟨∅, []⟩ = some t') :
    Complete p t'.fs := by
  have hfs := foldlM_fs h
  dsimp only at hfs
  exact build_complete hfs

end LiveTree

/-- Over the kernel module and over configfs, the second `create_gadget` writes nothing exactly
if the first one had nothing to write, or the string survives. A new LUN has the empty string. -/
theorem second_create_idle_iff (d : Delivery) (p : GadgetParams) :
    (∀ stored stored' writes, sysfsCreateGadget d stored p = some (stored', writes) →
      (sysfsCreateGadget d stored' p = some (stored', []) ↔
        ReadsAs stored p.inquiryString ∨ d.Survives p.inquiryString)) ∧
      ∀ (t t' : LiveTree) made, t.createGadget d p = some (t', made) →
        (t'.createGadget d p = some (t', []) ↔
          t.Recognised p ∨ p.inquiryString = [] ∨ d.Survives p.inquiryString) :=
  ⟨fun _ _ _ h => sysfs_second_idle_iff h, fun _ _ _ h => LiveTree.second_idle_iff h⟩

/-- Within a page. -/
def Delivery.single : Delivery where
  pieces bytes := if bytes = [] then [] else [bytes]
  whole bytes := by
    split_ifs with h
    · exact h.symm
    · exact List.flatten_singleton
  nonempty bytes piece hpiece := by
    split_ifs at hpiece with h
    · cases hpiece
    · exact List.mem_singleton.mp hpiece ▸ h

/-- A string of 28 characters. -/
def fittingParams : GadgetParams := { teacParams with
  inquiryString := "TEAC    FD-05PUW        3000".toList }

theorem readInquiry_nil : readInquiry [] = some ['\n'] := by
  unfold readInquiry fsgShowInquiryString
  rw [List.nil_append, ← encode_newline, decode_encode]
  rfl

theorem sysfsCreateGadget_nil (d : Delivery) {p : GadgetParams} (hp : strip p.inquiryString ≠ []) :
    sysfsCreateGadget d [] p = some (d.write [] p.inquiryString, [p.inquiryString]) := by
  unfold sysfsCreateGadget
  rw [readInquiry_nil, Option.map_some, if_pos]
  rw [show strip ['\n'] = [] by decide]
  exact hp.symm

theorem fitting_survives : Delivery.single.Survives fittingParams.inquiryString := by
  refine ⟨fittingParams.inquiryString, by decide +kernel, .inr ⟨by decide +kernel, by decide +kernel,
    by decide +kernel, fittingParams.inquiryString, List.prefix_rfl, by decide +kernel, rfl⟩⟩

theorem second_create_idle_iff_example :
    sysfsCreateGadget .single (Delivery.single.write [] fittingParams.inquiryString) fittingParams =
        some (Delivery.single.write [] fittingParams.inquiryString, []) ∧
      ∃ t' : LiveTree, t'.createGadget .single fittingParams = some (t', []) := by
  obtain ⟨hsysfs, hconfigfs⟩ := second_create_idle_iff .single fittingParams
  obtain ⟨t', hbuilt⟩ := LiveTree.exists_built .single fittingParams
  have ht' := LiveTree.createGadget_empty hbuilt
  have hwrite := sysfsCreateGadget_nil .single (p := fittingParams) (by decide +kernel)
  exact ⟨(hsysfs _ _ _ hwrite).mpr (.inr fitting_survives),
    t', (hconfigfs _ _ _ ht').mpr (.inr (.inr fitting_survives))⟩

theorem teac_not_survives : ¬ Delivery.single.Survives teacParams.inquiryString := by
  rintro ⟨q, hq, hsurvives⟩
  have hpieces : Delivery.single.pieces (encode teacParams.inquiryString) =
      [encode teacParams.inquiryString] := by decide +kernel
  rw [hpieces] at hq
  obtain rfl : teacParams.inquiryString = q := encode_injective (Option.some.inj hq)
  rcases hsurvives with ⟨hhead, -⟩ | ⟨-, -, -, kept, hkept, hlength, hstrip⟩
  · exact absurd hhead (by decide +kernel)
  · have hlong : (strip kept).length = 29 := by
      rw [hstrip]
      decide +kernel
    have hwhole : teacParams.inquiryString.length ≤ kept.length := by
      have hle : (strip kept).length ≤ kept.length := (trim_sublist kept).length_le
      exact (show teacParams.inquiryString.length = 29 by decide +kernel).le.trans (hlong ▸ hle)
    rw [hkept.eq_of_length_le hwhole] at hlength
    exact absurd hlength (by decide +kernel)

/-- The string of the service has 29 characters. Its last one is cut off, so it is written again,
and a tree that is complete is taken apart. -/
theorem default_string_rewritten :
    (∃ stored' writes, sysfsCreateGadget .single [] teacParams = some (stored', writes) ∧
      sysfsCreateGadget .single stored' teacParams ≠ some (stored', [])) ∧
    ∃ t' made, LiveTree.createGadget .single ⟨∅, []⟩ teacParams = some (t', made) ∧
      t'.createGadget .single teacParams ≠ some (t', []) := by
  constructor
  · have hwrite := sysfsCreateGadget_nil .single (p := teacParams) (by decide +kernel)
    refine ⟨_, _, hwrite, ?_⟩
    rw [ne_eq, sysfs_second_idle_iff hwrite, readsAs_nil_iff]
    rintro (hnil | hsurvives)
    · exact absurd hnil (by decide +kernel)
    · exact teac_not_survives hsurvives
  · obtain ⟨t', hbuilt⟩ := LiveTree.exists_built .single teacParams
    have ht' := LiveTree.createGadget_empty hbuilt
    refine ⟨t', _, ht', ?_⟩
    rw [ne_eq, LiveTree.second_idle_iff ht']
    rintro (hrecognised | hnil | hsurvives)
    · exact absurd hrecognised.1 (AList.notMem_empty _)
    · exact absurd hnil (by decide +kernel)
    · exact teac_not_survives hsurvives

end UsbFloppy.Gadget

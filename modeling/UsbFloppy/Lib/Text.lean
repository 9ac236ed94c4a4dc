import Mathlib.Data.List.DropRight
import Mathlib.Data.List.Infix

/-! Texts as bytes of UTF-8, and texts without the characters at their ends that a predicate
trims. -/

/-! ### UTF-8 -/

namespace Utf8

def encode (t : List Char) : List UInt8 := t.flatMap String.utf8EncodeChar

/-- None where the bytes are not UTF-8. -/
def decode (bytes : List UInt8) : Option (List Char) :=
  bytes.toByteArray.utf8Decode?.map Array.toList

variable {s t : List Char} {c : Char} {b : UInt8} {bs : List UInt8}

theorem toByteArray_encode (t : List Char) : (encode t).toByteArray = t.utf8Encode := rfl

@[simp] theorem encode_append (s t : List Char) : encode (s ++ t) = encode s ++ encode t :=
  List.flatMap_append

theorem encode_cons (c : Char) (t : List Char) :
    encode (c :: t) = String.utf8EncodeChar c ++ encode t := rfl

@[simp] theorem decode_encode (t : List Char) : decode (encode t) = some t := by
  unfold decode
  rw [toByteArray_encode, List.utf8Decode?_utf8Encode]
  rfl

theorem encode_injective : Function.Injective encode := by
  intro s t h
  have hdecode := congrArg decode h
  simpa using hdecode

theorem encode_of_decode (h : decode bs = some t) : bs = encode t := by
  unfold decode at h
  obtain ⟨chars, hchars, rfl⟩ := Option.map_eq_some_iff.mp h
  have hsome : bs.toByteArray.utf8Decode?.isSome = true := by rw [hchars]; rfl
  have hbytes := ByteArray.utf8Encode_get_utf8Decode? (h := hsome)
  simp only [hchars, Option.get_some, ← toByteArray_encode] at hbytes
  have hlist := congrArg (fun bytes : ByteArray => bytes.data.toList) hbytes
  simpa [List.data_toByteArray] using hlist.symm

theorem isPrefix_of_encode (h : encode s <+: encode t) : s <+: t := by
  obtain ⟨rest, hrest⟩ := h
  apply List.isPrefix_of_utf8Encode_append_eq_utf8Encode rest.toByteArray
  rw [← toByteArray_encode, ← toByteArray_encode, ← hrest, List.toByteArray_append]

theorem isFirst_of_decode (h : decode (b :: bs) = some t) : b.IsUTF8FirstByte := by
  have hbytes : (b :: bs).toByteArray.IsValidUTF8 := by
    rw [encode_of_decode h]
    exact ⟨t, rfl⟩
  have hfirst := hbytes.isUTF8FirstByte_getElem_zero (by simp)
  simpa using hfirst

/-- A first byte is nowhere but at the start of a character. -/
theorem isFirst_of_suffix (h : b :: bs <:+ String.utf8EncodeChar c) (hb : b.IsUTF8FirstByte) :
    b :: bs = String.utf8EncodeChar c := by
  obtain ⟨before, hbefore⟩ := h
  have hindex : before.length < (String.utf8EncodeChar c).length := by
    rw [← hbefore]
    simp
  have hget : (String.utf8EncodeChar c)[before.length] = b := by
    simp [← hbefore]
  have hzero := UInt8.isUTF8FirstByte_getElem_utf8EncodeChar.mp (hget ▸ hb)
  rw [List.length_eq_zero_iff] at hzero
  rw [← hbefore, hzero, List.nil_append]

theorem isFirst_of_head (h : String.utf8EncodeChar c = b :: bs) : b.IsUTF8FirstByte := by
  have hfirst := UInt8.isUTF8FirstByte_getElem_zero_utf8EncodeChar (c := c)
  simpa [h] using hfirst

/-- What a text ends in is itself a text, if it starts with a first byte. -/
theorem suffix_of_encode_suffix (h : b :: bs <:+ encode t) (hb : b.IsUTF8FirstByte) :
    ∃ s, s <:+ t ∧ b :: bs = encode s := by
  induction t with
  | nil => exact absurd (List.suffix_nil.mp h) (List.cons_ne_nil b bs)
  | cons c t ih =>
    rw [encode_cons] at h
    rcases List.suffix_or_suffix_of_suffix h (List.suffix_append _ (encode t)) with hin | ⟨part, hpart⟩
    · obtain ⟨s, hs, heq⟩ := ih hin
      exact ⟨s, hs.trans (List.suffix_cons c t), heq⟩
    · cases part with
      | nil => exact ⟨t, List.suffix_cons c t, hpart.symm⟩
      | cons b' part =>
        have hhead : b' = b := by simpa using congrArg List.head? hpart
        rw [← hpart, List.suffix_append_self_iff] at h
        have hwhole := isFirst_of_suffix h (hhead ▸ hb)
        exact ⟨c :: t, List.suffix_rfl, by rw [encode_cons, ← hwhole, hpart]⟩

theorem suffix_of_encode (hs : s ≠ []) (h : encode s <:+ encode t) : s <:+ t := by
  obtain ⟨c, s', rfl⟩ := List.exists_cons_of_ne_nil hs
  obtain ⟨b, bs, hc⟩ := List.exists_cons_of_ne_nil (String.utf8EncodeChar_ne_nil (c := c))
  have hcode : encode (c :: s') = b :: (bs ++ encode s') := by
    rw [encode_cons, hc, List.cons_append]
  rw [hcode] at h
  obtain ⟨s'', hs'', heq⟩ := suffix_of_encode_suffix h (isFirst_of_head hc)
  have hsame : c :: s' = s'' := encode_injective (hcode.trans heq)
  rw [hsame]
  exact hs''

theorem mem_of_mem_encode (hc : String.utf8EncodeChar c = [b]) (h : b ∈ encode t) : c ∈ t := by
  obtain ⟨before, after, hsplit⟩ := List.append_of_mem h
  have hsuffix : b :: after <:+ encode t := ⟨before, hsplit.symm⟩
  obtain ⟨s, hs, hcode⟩ := suffix_of_encode_suffix hsuffix (isFirst_of_head hc)
  have hstart : encode [c] <+: encode s := by
    rw [← hcode, encode_cons, hc]
    exact ⟨after, rfl⟩
  have hmem : c ∈ s := (isPrefix_of_encode hstart).subset (List.mem_singleton_self c)
  exact hs.subset hmem

end Utf8

/-! ### Trimming -/

namespace Trim

variable {α : Type*} (p : α → Bool)

def trim (l : List α) : List α := (l.dropWhile p).rdropWhile p

variable {p} {l l' : List α} {a : α}

theorem dropWhile_within (h : l <:+: l') : l.dropWhile p <:+: l'.dropWhile p := by
  obtain ⟨before, after, rfl⟩ := h
  have hstart : l.dropWhile p <+: (l ++ after).dropWhile p := by
    rw [List.dropWhile_append]
    split
    · rename_i hempty
      rw [List.isEmpty_iff.mp hempty]
      exact List.nil_prefix
    · exact List.prefix_append _ _
  have hsuffix : (l ++ after).dropWhile p <:+ (before ++ (l ++ after)).dropWhile p := by
    generalize l ++ after = rest
    rw [List.dropWhile_append]
    split
    · exact List.suffix_rfl
    · exact (List.dropWhile_suffix p).trans (List.suffix_append _ _)
  rw [List.append_assoc]
  exact hstart.isInfix.trans hsuffix.isInfix

theorem rdropWhile_within (h : l <:+: l') : l.rdropWhile p <:+: l'.rdropWhile p := by
  unfold List.rdropWhile
  rw [ List.reverse_infix]
  exact dropWhile_within (List.reverse_infix.mpr h)

theorem trim_within (h : l <:+: l') : trim p l <:+: trim p l' := rdropWhile_within (dropWhile_within h)

theorem trim_sublist (l : List α) : List.Sublist (trim p l) l :=
  (List.rdropWhile_prefix p _).sublist.trans (List.dropWhile_suffix p).sublist

theorem mem_trim (h : a ∈ l) (ha : p a = false) : a ∈ trim p l := by
  have hself : trim p [a] = [a] := by simp [trim, List.rdropWhile, ha]
  have hpart : [a] <:+: l := by
    obtain ⟨before, after, rfl⟩ := List.append_of_mem h
    exact ⟨before, after, by simp⟩
  have hsub := trim_within (p := p) hpart
  rw [hself] at hsub
  exact hsub.subset (List.mem_singleton_self a)

theorem rdropWhile_append (h : ∀ a ∈ l', p a = true) (l : List α) :
    (l ++ l').rdropWhile p = l.rdropWhile p := by
  unfold List.rdropWhile
  rw [List.reverse_append, List.dropWhile_append_of_pos]
  intro a ha
  exact h a (List.mem_reverse.mp ha)

theorem trim_append (h : ∀ a ∈ l', p a = true) (l : List α) : trim p (l ++ l') = trim p l := by
  unfold trim
  rw [List.dropWhile_append]
  split
  · rename_i hempty
    have hnil : l'.dropWhile p = [] := List.dropWhile_eq_nil_iff.mpr h
    rw [List.isEmpty_iff.mp hempty, hnil]
  · exact rdropWhile_append h _

end Trim

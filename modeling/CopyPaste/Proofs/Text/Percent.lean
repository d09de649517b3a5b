import CopyPaste.Text.Hex
import CopyPaste.Text.Pieces

/-!
# Percent-encoded bytes

What a text stands for when it is percent-decoded: a percent sign with two hexadecimal digits behind
it stands for the byte that they write, and any other character for its bytes. An escape takes three
bytes and stands for one, so a text stands for itself exactly if it has no escape.

* `percentDecode`, `HasEscape` — the bytes that a text stands for, and what makes them others;
* **`percentDecode_eq_utf8_iff`** — a text stands for itself exactly if it has no escape;
* **`percentDecode_append_slash`** — no escape reaches across a slash.
-/

namespace CopyPaste.Text

/-! ## Bytes -/

/-- The bytes of a text. -/
def utf8 (cs : List Char) : List UInt8 := cs.flatMap String.utf8EncodeChar

@[simp] theorem utf8_nil : utf8 [] = [] := rfl

@[simp] theorem utf8_cons (c : Char) (cs : List Char) :
    utf8 (c :: cs) = String.utf8EncodeChar c ++ utf8 cs := rfl

@[simp] theorem utf8_append (cs ds : List Char) : utf8 (cs ++ ds) = utf8 cs ++ utf8 ds :=
  List.flatMap_append

theorem utf8EncodeChar_slash : String.utf8EncodeChar '/' = [0x2F] := rfl

/-- **Other texts have other bytes.** -/
theorem utf8_injective : Function.Injective utf8 := by
  intro cs ds h
  have hbytes : (String.ofList cs).toByteArray = (String.ofList ds).toByteArray := by
    rw [String.toByteArray_ofList, String.toByteArray_ofList]
    exact congrArg List.toByteArray h
  exact String.ofList_injective (String.toByteArray_inj.mp hbytes)

/-- Beyond ASCII every byte has its highest bit set. -/
theorem le_of_mem_utf8EncodeChar {c : Char} (hc : 0x7f < c.val.toNat) {byte : UInt8}
    (h : byte ∈ String.utf8EncodeChar c) : 0x80 ≤ byte.toNat := by
  unfold String.utf8EncodeChar at h
  dsimp only at h
  rw [if_neg (by omega)] at h
  split at h
  all_goals try split at h
  all_goals
    simp only [List.mem_cons, List.not_mem_nil, or_false] at h
    rcases h with rfl | rfl | rfl | rfl
    all_goals
      rw [UInt8.toNat_ofNat']
      omega

/-- **The byte of a slash belongs to no other character.** -/
theorem slash_mem_utf8EncodeChar_iff {c : Char} :
    0x2F ∈ String.utf8EncodeChar c ↔ c = '/' := by
  constructor
  · intro h
    by_cases hc : 0x7f < c.val.toNat
    · exact absurd (le_of_mem_utf8EncodeChar hc h) (by decide)
    · rw [String.utf8EncodeChar, if_pos (by omega), List.mem_singleton] at h
      have hbyte : 0x2F = c.val.toNat % 2 ^ 8 := congrArg UInt8.toNat h
      exact Char.ext (UInt32.toNat_inj.mp (show c.val.toNat = 0x2F by omega))
  · rintro rfl
    exact List.mem_cons_self

theorem slash_mem_utf8_iff {cs : List Char} : 0x2F ∈ utf8 cs ↔ '/' ∈ cs := by
  simp [utf8, List.mem_flatMap, slash_mem_utf8EncodeChar_iff]

theorem head_utf8_eq_slash {cs : List Char} (h : (utf8 cs).head? = some 0x2F) :
    cs.head? = some '/' := by
  cases cs with
  | nil => exact absurd h (Option.some_ne_none _ ∘ Eq.symm)
  | cons c cs =>
      obtain ⟨byte, rest, hbytes⟩ :=
        List.exists_cons_of_ne_nil (String.utf8EncodeChar_ne_nil (c := c))
      have hbyte : byte = 0x2F := by simpa [hbytes] using h
      have hmem : 0x2F ∈ String.utf8EncodeChar c := by simp [hbytes, hbyte]
      rw [slash_mem_utf8EncodeChar_iff.mp hmem]
      rfl

theorem utf8_eq_nil_iff {cs : List Char} : utf8 cs = [] ↔ cs = [] := utf8_injective.eq_iff' rfl

/-- A reading of texts in which a slash is a byte of its own reads joined texts piece by piece. -/
theorem map_joinWith_slash {f : List Char → List UInt8} (hnil : f [] = [])
    (hslash : ∀ cs ds, f (cs ++ '/' :: ds) = f cs ++ 0x2F :: f ds) (ss : List (List Char)) :
    f (joinWith ['/'] ss) = [0x2F].intercalate (ss.map f) := by
  induction ss with
  | nil => exact hnil
  | cons s rest ih =>
      cases rest with
      | nil => simp [joinWith]
      | cons next rest =>
          rw [joinWith_cons_cons, List.append_assoc, List.singleton_append, hslash, ih,
            List.map_cons, List.map_cons, List.map_cons, List.intercalate_cons_cons,
            List.append_assoc, List.singleton_append]

theorem utf8_joinWith (ss : List (List Char)) :
    utf8 (joinWith ['/'] ss) = [0x2F].intercalate (ss.map utf8) :=
  map_joinWith_slash rfl (fun cs ds => by rw [utf8_append, utf8_cons]; rfl) ss

/-! ## Escapes -/

/-- The byte that two hexadecimal digits at the start of a text write. -/
def hexByte? : List Char → Option UInt8
  | a :: b :: _ => (hexValue? a).bind fun x => (hexValue? b).map fun y => UInt8.ofNat (16 * x + y)
  | _ => none

/-- The bytes that a text stands for. A percent sign with two hexadecimal digits behind it stands
for the byte that they write, everything else for itself. -/
def percentDecode : List Char → List UInt8
  | [] => []
  | '%' :: a :: b :: cs =>
    match hexByte? [a, b] with
    | some byte => byte :: percentDecode cs
    | none => String.utf8EncodeChar '%' ++ percentDecode (a :: b :: cs)
  | c :: cs => String.utf8EncodeChar c ++ percentDecode cs

/-- Somewhere in the text two hexadecimal digits stand behind a percent sign. -/
def HasEscape (cs : List Char) : Prop :=
  ∃ before after, cs = before ++ '%' :: after ∧ (hexByte? after).isSome

theorem percentDecode_escape {a b : Char} {cs : List Char} {byte : UInt8}
    (h : hexByte? (a :: b :: cs) = some byte) :
    percentDecode ('%' :: a :: b :: cs) = byte :: percentDecode cs := by
  have hdigits : hexByte? [a, b] = some byte := h
  rw [percentDecode, hdigits]

theorem percentDecode_cons {c : Char} {cs : List Char} (h : c = '%' → hexByte? cs = none) :
    percentDecode (c :: cs) = String.utf8EncodeChar c ++ percentDecode cs := by
  by_cases hc : c = '%'
  · subst hc
    match cs with
    | [] => rfl
    | [_] => rfl
    | a :: b :: cs =>
        have hdigits : hexByte? [a, b] = none := h rfl
        rw [percentDecode, hdigits]
  · exact percentDecode.eq_3 c cs fun a b rest hhead _ => hc hhead

/-- A text is read escape by escape, and character by character between them. -/
@[elab_as_elim]
theorem escapeInduction {motive : List Char → Prop} (nil : motive [])
    (escape : ∀ a b cs byte, hexByte? (a :: b :: cs) = some byte → motive cs →
      motive ('%' :: a :: b :: cs))
    (other : ∀ c cs, (c = '%' → hexByte? cs = none) → motive cs → motive (c :: cs))
    (cs : List Char) : motive cs := by
  fun_induction percentDecode cs with
  | case1 => exact nil
  | case2 a b cs byte hbyte ih => exact escape a b cs byte hbyte ih
  | case3 a b cs hnone ih => exact other '%' (a :: b :: cs) (fun _ => hnone) ih
  | case4 c cs hother ih =>
      refine other c cs ?_ ih
      rintro rfl
      match cs, hother with
      | [], _ => rfl
      | [_], _ => rfl
      | a :: b :: rest, hother => exact (hother a b rest rfl rfl).elim

theorem hasEscape_cons_iff {c : Char} {cs : List Char} :
    HasEscape (c :: cs) ↔ (c = '%' ∧ (hexByte? cs).isSome) ∨ HasEscape cs := by
  constructor
  · rintro ⟨before, after, heq, hafter⟩
    cases before with
    | nil =>
        obtain ⟨rfl, rfl⟩ := List.cons.inj heq
        exact .inl ⟨rfl, hafter⟩
    | cons d before =>
        obtain ⟨rfl, rfl⟩ := List.cons.inj heq
        exact .inr ⟨before, after, rfl, hafter⟩
  · rintro (⟨rfl, hcs⟩ | ⟨before, after, rfl, hafter⟩)
    · exact ⟨[], cs, rfl, hcs⟩
    · exact ⟨c :: before, after, rfl, hafter⟩

/-! ## What a text stands for -/

/-- Without an escape a text stands for itself. -/
theorem percentDecode_of_not_hasEscape {cs : List Char} (h : ¬ HasEscape cs) :
    percentDecode cs = utf8 cs := by
  induction cs with
  | nil => rfl
  | cons c cs ih =>
      rw [hasEscape_cons_iff, not_or, not_and] at h
      have hfirst : c = '%' → hexByte? cs = none := fun hc => by simpa using h.1 hc
      rw [percentDecode_cons hfirst, ih h.2, utf8_cons]

theorem length_percentDecode_le (cs : List Char) :
    (percentDecode cs).length ≤ (utf8 cs).length := by
  induction cs using escapeInduction with
  | nil => exact Nat.le_refl _
  | escape a b cs byte hbyte ih =>
      rw [percentDecode_escape hbyte]
      simp only [utf8_cons, List.length_append, List.length_cons, String.length_utf8EncodeChar]
      have hsign := Char.utf8Size_pos '%'
      omega
  | other c cs hother ih =>
      rw [percentDecode_cons hother, utf8_cons, List.length_append, List.length_append]
      omega

/-- An escape makes a text stand for less than itself. -/
theorem length_percentDecode_lt {cs : List Char} (h : HasEscape cs) :
    (percentDecode cs).length < (utf8 cs).length := by
  induction cs using escapeInduction with
  | nil =>
      obtain ⟨before, after, heq, -⟩ := h
      exact absurd heq.symm (by simp)
  | escape a b cs byte hbyte ih =>
      have hrest := length_percentDecode_le cs
      have hsign := Char.utf8Size_pos '%'
      have hfirst := Char.utf8Size_pos a
      rw [percentDecode_escape hbyte]
      simp only [utf8_cons, List.length_append, List.length_cons, String.length_utf8EncodeChar]
      omega
  | other c cs hother ih =>
      have hfirst : ¬ (c = '%' ∧ (hexByte? cs).isSome) := fun ⟨hc, hdigits⟩ => by
        simp [hother hc] at hdigits
      have hrest := ih ((hasEscape_cons_iff.mp h).resolve_left hfirst)
      rw [percentDecode_cons hother, utf8_cons, List.length_append, List.length_append]
      omega

/-- **A text stands for itself exactly if it has no escape.** -/
theorem percentDecode_eq_utf8_iff {cs : List Char} :
    percentDecode cs = utf8 cs ↔ ¬ HasEscape cs := by
  constructor
  · intro heq hescape
    exact absurd (congrArg List.length heq) (Nat.ne_of_lt (length_percentDecode_lt hescape))
  · exact percentDecode_of_not_hasEscape

instance (cs : List Char) : Decidable (HasEscape cs) :=
  decidable_of_iff (¬ percentDecode cs = utf8 cs)
    (by rw [percentDecode_eq_utf8_iff, Classical.not_not])

theorem hexByte?_append_slash (cs ds : List Char) :
    hexByte? (cs ++ '/' :: ds) = hexByte? cs := by
  have hslash : hexValue? '/' = none := by decide
  match cs with
  | [] => cases ds <;> simp [hexByte?, hslash]
  | [a] => cases hexValue? a <;> simp [hexByte?, hslash]
  | a :: b :: cs => rfl

/-- **No escape reaches across a slash.** -/
theorem percentDecode_append_slash (cs ds : List Char) :
    percentDecode (cs ++ '/' :: ds) = percentDecode cs ++ 0x2F :: percentDecode ds := by
  induction cs using escapeInduction with
  | nil =>
      rw [List.nil_append, percentDecode_cons (fun h => absurd h (by decide)),
        utf8EncodeChar_slash]
      rfl
  | escape a b cs byte hbyte ih =>
      have hdigits : hexByte? (a :: b :: (cs ++ '/' :: ds)) = some byte := hbyte
      rw [percentDecode_escape hbyte, List.cons_append, List.cons_append, List.cons_append,
        percentDecode_escape hdigits, ih, List.cons_append]
  | other c cs hother ih =>
      have hdigits : c = '%' → hexByte? (cs ++ '/' :: ds) = none := fun hc => by
        rw [hexByte?_append_slash, hother hc]
      rw [percentDecode_cons hother, List.cons_append, percentDecode_cons hdigits, ih,
        List.append_assoc]

theorem percentDecode_joinWith (ss : List (List Char)) :
    percentDecode (joinWith ['/'] ss) = [0x2F].intercalate (ss.map percentDecode) :=
  map_joinWith_slash rfl percentDecode_append_slash ss

end CopyPaste.Text

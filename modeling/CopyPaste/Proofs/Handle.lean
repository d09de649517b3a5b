import CopyPaste.Handle
import CopyPaste.Proofs.Text.Hex

/-!
# The spellings of a handle

A handle is written in four ways, all of them made of its 32 hexadecimal digits. A text spells a
handle if in lower case it is one of the four. This is said here from the bits of the handle,
without a reader, and the reader is shown to accept these texts and no others.

* `spell` — a handle in one of the four ways;
* **`read?_eq_some_iff`** — which texts are read in one of the four ways;
* **`spell_inj`** — no text spells two handles, or one handle in two ways;
* **`parse?_eq_some_iff`** — which texts are read, and as which handle;
* **`parse?_text`** — a handle is read back from its text.
-/

namespace CopyPaste.Handle

/-- A way to write a handle. -/
inductive Spelling
  | plain
  | hyphenated
  | braced
  | urn
deriving DecidableEq, Repr

/-- The hexadecimal digit at a place, counted from the left: four of the bits. -/
def digit (h : Handle) (place : Nat) : Char :=
  Nat.digitChar (h.bits.extractLsb' (4 * (31 - place)) 4).toNat

/-- A run of digits from a place on. -/
def digits (h : Handle) (start count : Nat) : List Char := (List.range' start count).map h.digit

/-- The digits in groups of 8, 4, 4, 4 and 12. -/
def grouped (h : Handle) : List Char :=
  h.digits 0 8 ++ '-' :: (h.digits 8 4 ++ '-' :: (h.digits 12 4 ++ '-' :: (h.digits 16 4 ++
    '-' :: h.digits 20 12)))

/-- A handle in one of the four ways, with lower-case letters. -/
def spell (h : Handle) : Spelling → List Char
  | .plain => h.digits 0 32
  | .hyphenated => h.grouped
  | .braced => '\x7b' :: (h.grouped ++ ['\x7d'])
  | .urn => ['u', 'r', 'n', ':', 'u', 'u', 'i', 'd', ':'] ++ h.grouped

/-- The count of characters, by which the four ways are told apart. -/
def Spelling.length : Spelling → Nat
  | .plain => 32
  | .hyphenated => 36
  | .braced => 38
  | .urn => 45

theorem Spelling.length_inj {s s' : Spelling} (h : s.length = s'.length) : s = s' := by
  cases s <;> cases s' <;> simp [Spelling.length] at h ⊢

/-! ## The digits that are written -/

@[simp] theorem length_digits (h : Handle) (start count : Nat) :
    (h.digits start count).length = count := by
  simp [digits]

@[simp] theorem length_grouped (h : Handle) : h.grouped.length = 36 := by
  simp [grouped]

@[simp] theorem length_spell (h : Handle) (s : Spelling) : (h.spell s).length = s.length := by
  cases s <;> simp [spell, Spelling.length]

theorem digit_eq (h : Handle) (place : Nat) :
    h.digit place = Nat.digitChar (h.bits.toNat / 16 ^ (31 - place) % 16) := by
  have hpower : 2 ^ (4 * (31 - place)) = 16 ^ (31 - place) := by rw [Nat.pow_mul]
  rw [digit, BitVec.extractLsb'_toNat, Nat.shiftRight_eq_div_pow, hpower]

theorem plain_eq (h : Handle) : h.plain = h.spell .plain := by
  rw [plain, Text.hexDigits_eq_map, spell, digits, List.range_eq_range']
  exact List.map_congr_left fun place _ => (h.digit_eq place).symm

theorem hyphenated_eq (h : Handle) : h.hyphenated = h.spell .hyphenated := by
  rw [hyphenated, plain_eq]
  rfl

theorem not_mem_digits {h : Handle} {start count : Nat} {c : Char}
    (hc : Text.isHexDigit c = false) : c ∉ h.digits start count := by
  intro hmem
  obtain ⟨place, -, rfl⟩ := List.mem_map.mp hmem
  rw [Text.isHexDigit, digit, Text.hexValue?_digitChar (BitVec.isLt _)] at hc
  cases hc

theorem not_mem_grouped {h : Handle} {c : Char} (hhyphen : c ≠ '-')
    (hdigit : Text.isHexDigit c = false) : c ∉ h.grouped := by
  simp [grouped, hhyphen, not_mem_digits hdigit]

/-- Spellings are in lower case. -/
theorem map_toLower_spell (h : Handle) (s : Spelling) :
    (h.spell s).map Char.toLower = h.spell s := by
  have hdigits : ∀ start count,
      (h.digits start count).map Char.toLower = h.digits start count := by
    intro start count
    rw [digits, List.map_map]
    exact List.map_congr_left fun place _ => Text.toLower_digitChar (BitVec.isLt _)
  cases s <;> simp [spell, grouped, hdigits]

/-! ## Groups of digits -/

theorem flatten_groups {sizes : List Nat} {cs : List Char} (h : cs.length = sizes.sum) :
    (groups sizes cs).flatten = cs := by
  induction sizes generalizing cs with
  | nil =>
      obtain rfl : cs = [] := List.length_eq_zero_iff.mp (by simpa using h)
      rfl
  | cons n sizes ih =>
      rw [List.sum_cons] at h
      rw [groups, List.flatten_cons, ih (by rw [List.length_drop]; omega), List.take_append_drop]

theorem map_length_groups {sizes : List Nat} {cs : List Char} (h : cs.length = sizes.sum) :
    (groups sizes cs).map List.length = sizes := by
  induction sizes generalizing cs with
  | nil => rfl
  | cons n sizes ih =>
      rw [List.sum_cons] at h
      rw [groups, List.map_cons, ih (by rw [List.length_drop]; omega), List.length_take]
      have hmin : min n cs.length = n := by omega
      rw [hmin]

theorem mem_of_mem_groups {sizes : List Nat} {cs piece : List Char} {c : Char}
    (hpiece : piece ∈ groups sizes cs) (hc : c ∈ piece) : c ∈ cs := by
  induction sizes generalizing cs with
  | nil => simp [groups] at hpiece
  | cons n sizes ih =>
      rw [groups, List.mem_cons] at hpiece
      obtain rfl | hpiece := hpiece
      · exact List.mem_of_mem_take hc
      · exact List.mem_of_mem_drop (ih hpiece)

/-- The hyphens cut the text into the groups that it was written in. -/
theorem pieces_hyphenated (h : Handle) :
    Text.pieces (· == '-') h.hyphenated = groups groupSizes h.plain := by
  refine Text.pieces_joinWith (by simp [groups, groupSizes]) fun piece hpiece hhyphen => ?_
  have hdigit := Text.isHexDigit_of_mem_hexDigits (mem_of_mem_groups hpiece hhyphen)
  exact absurd hdigit (by decide)

theorem groups_flatten (parts : List (List Char)) :
    groups (parts.map List.length) parts.flatten = parts := by
  induction parts with
  | nil => rfl
  | cons part parts ih =>
      rw [List.map_cons, List.flatten_cons, groups, List.take_left', List.drop_left', ih] <;> rfl

/-- Groups are told by their sizes and by what they hold together. -/
theorem eq_groups_iff {sizes : List Nat} {cs : List Char} (hsum : cs.length = sizes.sum)
    {parts : List (List Char)} :
    parts = groups sizes cs ↔ parts.map List.length = sizes ∧ parts.flatten = cs := by
  constructor
  · rintro rfl
    exact ⟨map_length_groups hsum, flatten_groups hsum⟩
  · rintro ⟨rfl, rfl⟩
    exact (groups_flatten parts).symm

/-! ## Reading in one of the four ways -/

/-- Thirty-two digits are the digits of the handle they are read as. -/
theorem ofPlain?_eq_some_iff {h : Handle} {cs : List Char} :
    ofPlain? cs = some h ↔ cs.map Char.toLower = h.plain := by
  have hbound : h.bits.toNat < 16 ^ 32 := h.bits.isLt
  rw [ofPlain?, Option.ite_none_right_eq_some, Option.map_eq_some_iff]
  constructor
  · rintro ⟨hlength, n, hn, rfl⟩
    obtain ⟨hlt, hdigits⟩ := Text.readHex?_eq_some_iff.mp hn
    rw [hlength] at hlt hdigits
    have hnat : (BitVec.ofNat 128 n).toNat = n := Nat.mod_eq_of_lt hlt
    rw [hdigits, plain, hnat]
  · intro hcs
    have hlength : cs.length = 32 := by
      have hlength := congrArg List.length hcs
      rwa [List.length_map, plain, Text.length_hexDigits] at hlength
    refine ⟨hlength, h.bits.toNat, Text.readHex?_eq_some_iff.mpr ⟨?_, ?_⟩, by simp⟩
    · rwa [hlength]
    · rw [hcs, hlength, plain]

theorem toLower_beq_hyphen (c : Char) : (c.toLower == '-') = (c == '-') := by
  rw [Bool.eq_iff_iff, beq_iff_eq, beq_iff_eq, Text.toLower_eq_iff (by decide) (by decide)]

/-- Hyphenated digits are those of the handle they are read as, with the same hyphens. -/
theorem ofHyphenated?_eq_some_iff {h : Handle} {cs : List Char} :
    ofHyphenated? cs = some h ↔ cs.map Char.toLower = h.hyphenated := by
  have hsum : h.plain.length = groupSizes.sum := Text.length_hexDigits 32 _
  -- no letter becomes a hyphen in lower case, so the groups can be put into lower case one by one
  have hlengths : ∀ parts : List (List Char),
      (parts.map (List.map Char.toLower)).map List.length = parts.map List.length := by
    intro parts
    simp [Function.comp_def]
  calc ofHyphenated? cs = some h
    _ ↔ (Text.pieces (· == '-') cs).map List.length = groupSizes ∧
          (Text.pieces (· == '-') cs).flatten.map Char.toLower = h.plain := by
        rw [ofHyphenated?, Option.ite_none_right_eq_some, ofPlain?_eq_some_iff]
    _ ↔ (Text.pieces (· == '-') cs).map (List.map Char.toLower) = groups groupSizes h.plain := by
        rw [eq_groups_iff hsum, hlengths, List.map_flatten]
    _ ↔ Text.pieces (· == '-') (cs.map Char.toLower) = Text.pieces (· == '-') h.hyphenated := by
        rw [Text.pieces_map toLower_beq_hyphen, pieces_hyphenated]
    _ ↔ cs.map Char.toLower = h.hyphenated := Text.pieces_inj

theorem unbrace?_eq_some_iff {cs inner : List Char} :
    unbrace? cs = some inner ↔ cs = '\x7b' :: (inner ++ ['\x7d']) := by
  constructor
  · intro h
    unfold unbrace? at h
    split at h
    next rest =>
      rw [Option.ite_none_right_eq_some] at h
      obtain ⟨hlast, hinner⟩ := h
      obtain ⟨front, rfl⟩ := List.getLast?_eq_some_iff.mp hlast
      rw [List.dropLast_concat] at hinner
      rw [Option.some_inj.mp hinner]
    next => cases h
  · rintro rfl
    simp [unbrace?]

theorem urnStart_eq : urnStart = ['u', 'r', 'n', ':', 'u', 'u', 'i', 'd', ':'] := by
  decide

theorem unurn?_eq_some_iff {cs rest : List Char} :
    unurn? cs = some rest ↔ ∃ start, cs = start ++ rest ∧ start.map Char.toLower = urnStart := by
  rw [unurn?, Option.ite_none_right_eq_some]
  constructor
  · rintro ⟨hstart, hrest⟩
    rw [← Option.some_inj.mp hrest]
    exact ⟨_, (List.take_append_drop _ _).symm, hstart⟩
  · rintro ⟨start, rfl, hstart⟩
    have hlength : start.length = urnStart.length := by
      rw [← hstart, List.length_map]
    rw [List.take_left' hlength, List.drop_left' hlength]
    exact ⟨hstart, rfl⟩

/-- What a text spells in one of the four ways. -/
def Spelling.read? (cs : List Char) : Spelling → Option Handle
  | .plain => ofPlain? cs
  | .hyphenated => ofHyphenated? cs
  | .braced => (unbrace? cs).bind ofHyphenated?
  | .urn => (unurn? cs).bind ofHyphenated?

theorem read?_braced_eq_some_iff {h : Handle} {cs : List Char} :
    Spelling.braced.read? cs = some h ↔ cs.map Char.toLower = h.spell .braced := by
  simp only [Spelling.read?, spell, Option.bind_eq_some_iff, unbrace?_eq_some_iff,
    ofHyphenated?_eq_some_iff, hyphenated_eq]
  constructor
  · rintro ⟨inner, rfl, hinner⟩
    rw [List.map_cons, List.map_append, hinner]
    rfl
  · intro hcs
    obtain ⟨c, rest, rfl, hc, hrest⟩ := List.map_eq_cons_iff.mp hcs
    obtain ⟨inner, last, rfl, hinner, hlast⟩ := List.map_eq_append_iff.mp hrest
    obtain ⟨d, rfl, hd⟩ := List.map_eq_singleton_iff.mp hlast
    rw [Text.toLower_eq_iff (by decide) (by decide)] at hc hd
    rw [hc, hd]
    exact ⟨inner, rfl, hinner⟩

theorem read?_urn_eq_some_iff {h : Handle} {cs : List Char} :
    Spelling.urn.read? cs = some h ↔ cs.map Char.toLower = h.spell .urn := by
  simp only [Spelling.read?, spell, Option.bind_eq_some_iff, unurn?_eq_some_iff,
    ofHyphenated?_eq_some_iff, hyphenated_eq, urnStart_eq]
  constructor
  · rintro ⟨rest, ⟨start, rfl, hstart⟩, hrest⟩
    rw [List.map_append, hstart, hrest]
  · intro hcs
    obtain ⟨start, rest, rfl, hstart, hrest⟩ := List.map_eq_append_iff.mp hcs
    exact ⟨rest, ⟨start, rfl, hstart⟩, hrest⟩

/-- **A text is read in one of the four ways** as the handle that it spells in that way, in either
case. -/
theorem read?_eq_some_iff {h : Handle} {cs : List Char} (s : Spelling) :
    s.read? cs = some h ↔ cs.map Char.toLower = h.spell s := by
  cases s with
  | plain => rw [← plain_eq]; exact ofPlain?_eq_some_iff
  | hyphenated => rw [← hyphenated_eq]; exact ofHyphenated?_eq_some_iff
  | braced => exact read?_braced_eq_some_iff
  | urn => exact read?_urn_eq_some_iff

theorem length_of_read? {h : Handle} {cs : List Char} {s : Spelling} (hs : s.read? cs = some h) :
    cs.length = s.length := by
  rw [← length_spell h, ← (read?_eq_some_iff s).mp hs, List.length_map]

/-- A text that is read in one way is read in no other. -/
theorem read?_eq_none {h : Handle} {cs : List Char} {s s' : Spelling} (hs : s.read? cs = some h)
    (hne : s' ≠ s) : s'.read? cs = none := by
  rw [Option.eq_none_iff_forall_ne_some]
  intro h' hs'
  exact hne (Spelling.length_inj ((length_of_read? hs').symm.trans (length_of_read? hs)))

/-- **Which texts are read,** and as which handle. -/
theorem parseChars?_eq_some_iff {h : Handle} {cs : List Char} :
    parseChars? cs = some h ↔ ∃ s, cs.map Char.toLower = h.spell s := by
  have hways : parseChars? cs = (Spelling.plain.read? cs <|> Spelling.hyphenated.read? cs <|>
      Spelling.braced.read? cs <|> Spelling.urn.read? cs) := rfl
  simp only [← read?_eq_some_iff, hways, Option.orElse_eq_some]
  constructor
  · rintro (hs | ⟨-, hs | ⟨-, hs | ⟨-, hs⟩⟩⟩)
    · exact ⟨_, hs⟩
    · exact ⟨_, hs⟩
    · exact ⟨_, hs⟩
    · exact ⟨_, hs⟩
  · rintro ⟨s, hs⟩
    -- an earlier way could hide this one by another handle, but it fails for want of length
    have hother : ∀ s' ≠ s, s'.read? cs = none := fun s' hne => read?_eq_none hs hne
    cases s with
    | plain => exact .inl hs
    | hyphenated => exact .inr ⟨hother _ (by decide), .inl hs⟩
    | braced => exact .inr ⟨hother _ (by decide), .inr ⟨hother _ (by decide), .inl hs⟩⟩
    | urn =>
        exact .inr ⟨hother _ (by decide), .inr ⟨hother _ (by decide),
          .inr ⟨hother _ (by decide), hs⟩⟩⟩

/-- No text spells two handles, or one handle in two ways. -/
theorem spell_inj {h h' : Handle} {s s' : Spelling} (heq : h.spell s = h'.spell s') :
    h = h' ∧ s = s' := by
  have hs : s = s' := Spelling.length_inj (by rw [← length_spell h, heq, length_spell])
  subst hs
  have hread : s.read? (h.spell s) = some h := (read?_eq_some_iff s).mpr (map_toLower_spell h s)
  have hread' : s.read? (h.spell s) = some h' := by
    rw [heq]
    exact (read?_eq_some_iff s).mpr (map_toLower_spell h' s)
  exact ⟨Option.some_inj.mp (hread.symm.trans hread'), rfl⟩

/-! ## Texts -/

/-- A text spells a handle, whatever the case of its letters. Those are the letters of ASCII: no
other character has a lower case here. -/
def SpelledAs (h : Handle) (s : Spelling) (raw : String) : Prop :=
  raw.toLower.toList = h.spell s

instance (h : Handle) (s : Spelling) (raw : String) : Decidable (h.SpelledAs s raw) :=
  inferInstanceAs (Decidable (raw.toLower.toList = h.spell s))

theorem toList_toLower (raw : String) : raw.toLower.toList = raw.toList.map Char.toLower :=
  String.toList_map

theorem spelledAs_iff {h : Handle} {s : Spelling} {raw : String} :
    h.SpelledAs s raw ↔ raw.toList.map Char.toLower = h.spell s := by
  rw [SpelledAs, toList_toLower]

/-- **Which texts are read,** and as which handle. -/
theorem parse?_eq_some_iff {h : Handle} {raw : String} :
    parse? raw = some h ↔ ∃ s, h.SpelledAs s raw := by
  simp only [parse?, parseChars?_eq_some_iff, spelledAs_iff]

example : SpelledAs ⟨0x67e5504410b1426f9247bb680e5fe0c8⟩ .braced
    "\x7b67E55044-10b1-426F-9247-bb680e5fe0C8\x7d" := by decide +kernel

theorem parse?_eq_none_iff {raw : String} :
    parse? raw = none ↔ ∀ (h : Handle) (s : Spelling), ¬ h.SpelledAs s raw := by
  simp only [Option.eq_none_iff_forall_ne_some, ne_eq, parse?_eq_some_iff, not_exists]

/-- The text of a handle is its hyphenated spelling. -/
theorem toList_text (h : Handle) : h.text.toList = h.spell .hyphenated := by
  rw [text, String.toList_ofList, hyphenated_eq]

theorem toLower_text (h : Handle) : h.text.toLower = h.text := by
  rw [← String.toList_inj, toList_toLower, toList_text, map_toLower_spell]

theorem text_injective : Function.Injective text := by
  intro h h' heq
  have hspell : h.spell .hyphenated = h'.spell .hyphenated := by
    rw [← toList_text, heq, toList_text]
  exact (spell_inj hspell).1

/-- **A handle is read back from its text.** -/
theorem parse?_text (h : Handle) : parse? h.text = some h :=
  parse?_eq_some_iff.mpr ⟨.hyphenated, by rw [SpelledAs, toLower_text, toList_text]⟩

end CopyPaste.Handle

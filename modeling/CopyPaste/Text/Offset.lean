/-!
# Byte offsets into text

Editors address text by byte offsets into its UTF-8 form. An offset is usable only where a
character begins or the text ends; everything here returns `none` for any other offset.

* `splitAt?` — the two parts of a text around an offset;
* `slice?` — the text between two offsets;
* `replace?` — the text with the part between two offsets exchanged.

Main statement: **`splitAt?_eq_some_iff`** says that splitting at `n` finds exactly the
decomposition whose first part is `n` bytes wide, so offsets and decompositions are the same
thing.
-/

namespace CopyPaste.Text

/-! ## Widths -/

/-- How many bytes the characters take in UTF-8. -/
def width : List Char → Nat
  | [] => 0
  | c :: cs => c.utf8Size + width cs

@[simp] theorem width_nil : width [] = 0 := rfl

@[simp] theorem width_cons (c : Char) (cs : List Char) :
    width (c :: cs) = c.utf8Size + width cs := rfl

@[simp] theorem width_append (l r : List Char) : width (l ++ r) = width l + width r := by
  induction l with
  | nil => simp
  | cons c l ih => simp [ih, Nat.add_assoc]

/-! ## Splitting -/

/-- The characters before and after byte offset `n`. -/
def splitAt? : List Char → Nat → Option (List Char × List Char)
  | cs, 0 => some ([], cs)
  | [], _ + 1 => none
  | c :: cs, n + 1 =>
    if c.utf8Size ≤ n + 1 then
      (splitAt? cs (n + 1 - c.utf8Size)).map fun parts => (c :: parts.1, parts.2)
    else none

theorem splitAt?_width_append (l r : List Char) : splitAt? (l ++ r) (width l) = some (l, r) := by
  induction l with
  | nil => cases r <;> rfl
  | cons c l ih =>
    have hc : 0 < c.utf8Size := Char.utf8Size_pos c
    obtain ⟨n, hn⟩ : ∃ n, width (c :: l) = n + 1 := ⟨width (c :: l) - 1, by simp; omega⟩
    have hle : c.utf8Size ≤ n + 1 := by rw [← hn]; simp
    have hsub : n + 1 - c.utf8Size = width l := by rw [← hn]; simp
    rw [hn, List.cons_append, splitAt?, if_pos hle, hsub, ih]
    rfl

theorem append_of_splitAt? {cs l r : List Char} {n : Nat} (h : splitAt? cs n = some (l, r)) :
    cs = l ++ r ∧ n = width l := by
  fun_induction splitAt? cs n generalizing l r with
  | case1 cs => simp_all
  | case2 => simp at h
  | case3 c cs n hle ih =>
    obtain ⟨⟨l', r'⟩, hs, he⟩ := Option.map_eq_some_iff.1 h
    obtain ⟨rfl, rfl⟩ := Prod.mk.inj he
    obtain ⟨rfl, hw⟩ := ih hs
    exact ⟨rfl, by simp; omega⟩
  | case4 => simp at h

/-- **Offsets are decompositions.** Splitting at `n` finds the one way to cut the text whose
first part is `n` bytes wide. -/
theorem splitAt?_eq_some_iff {cs l r : List Char} {n : Nat} :
    splitAt? cs n = some (l, r) ↔ cs = l ++ r ∧ n = width l :=
  ⟨append_of_splitAt?, fun ⟨hc, hn⟩ => hc ▸ hn ▸ splitAt?_width_append l r⟩

/-! ## Cutting out a range -/

/-- The characters before, inside and after the range from byte `start` to byte `stop`. -/
def cut? (cs : List Char) (start stop : Nat) : Option (List Char × List Char × List Char) :=
  if start ≤ stop then
    (splitAt? cs start).bind fun outer =>
      (splitAt? outer.2 (stop - start)).map fun inner => (outer.1, inner.1, inner.2)
  else none

/-- The text between two byte offsets. -/
def slice? (text : String) (start stop : Nat) : Option String :=
  (cut? text.toList start stop).map fun parts => String.ofList parts.2.1

/-- The text with the part between two byte offsets exchanged for `new`. -/
def replace? (text : String) (start stop : Nat) (new : String) : Option String :=
  (cut? text.toList start stop).map fun parts =>
    String.ofList (parts.1 ++ new.toList ++ parts.2.2)

theorem cut?_eq_some_iff {cs before mid after : List Char} {start stop : Nat} :
    cut? cs start stop = some (before, mid, after) ↔
      cs = before ++ mid ++ after ∧ start = width before ∧ stop = width before + width mid := by
  unfold cut?
  constructor
  · intro h
    split at h
    · obtain ⟨⟨l, r⟩, hs, hm⟩ := Option.bind_eq_some_iff.1 h
      obtain ⟨⟨m, a⟩, ht, he⟩ := Option.map_eq_some_iff.1 hm
      obtain ⟨rfl, hn⟩ := append_of_splitAt? hs
      obtain ⟨hr, hd⟩ := append_of_splitAt? ht
      simp only [Prod.mk.injEq] at he
      obtain ⟨rfl, rfl, rfl⟩ := he
      simp only at hr
      subst hr
      exact ⟨by simp, hn, by omega⟩
    · simp at h
  · rintro ⟨rfl, rfl, rfl⟩
    have hmid : width before + width mid - width before = width mid := by omega
    rw [if_pos (by omega), List.append_assoc, splitAt?_width_append]
    simp [hmid, splitAt?_width_append]

end CopyPaste.Text

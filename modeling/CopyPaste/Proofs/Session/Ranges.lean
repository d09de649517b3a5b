import CopyPaste.Proofs.Text.Numeral
import CopyPaste.Session.Transplant

/-!
# Which texts are ranges

A range is written as two numerals around two dots, each numeral with blanks around it if need be.
No numeral holds a dot, so the dots of a range are found where they stand, and a text writes one
range at most.

* `WritesRange` — a text writes a range, of whatever size and in whatever order;
* `RangeFault` — what keeps a text from being a range of offsets;
* **`writesRange_iff`** — the two numerals are the trimmed parts before and after the first dots;
* **`parseRange_accepts_ranges`** — the texts that are parsed, and the ranges they are parsed to.
-/

namespace CopyPaste

open Text (PaddedNumeral Numeral IsBlanks wordLimit)

/-- A text writes a range: two padded numerals around two dots. -/
def WritesRange (cs : List Char) (start stop : Nat) : Prop :=
  ∃ first second, cs = first ++ ['.', '.'] ++ second ∧ PaddedNumeral first start ∧
    PaddedNumeral second stop

/-- What keeps a text from being a range of offsets. -/
inductive RangeFault (cs : List Char) : Prop
  /-- A dot is missing, or there is one too many. -/
  | dots (h : cs.count '.' ≠ 2)
  /-- A character has no place in a range: a minus sign, say. -/
  | stranger (c : Char) (hc : c ∈ cs) (hblank : Text.isBlank c = false) (hdigit : c.isDigit = false)
      (hother : c ∉ ['+', '.'])
  | emptyStart (first second : List Char) (hcs : cs = first ++ ['.', '.'] ++ second)
      (h : IsBlanks first)
  | emptyStop (first second : List Char) (hcs : cs = first ++ ['.', '.'] ++ second)
      (h : IsBlanks second)
  | tooLarge (start stop : Nat) (hcs : WritesRange cs start stop)
      (h : wordLimit ≤ start ∨ wordLimit ≤ stop)
  | reversed (start stop : Nat) (hcs : WritesRange cs start stop) (h : stop < start)

/-! ## The parts of a range -/

theorem Text.PaddedNumeral.not_mem_dot {cs : List Char} {n : Nat} (h : PaddedNumeral cs n) :
    '.' ∉ cs := by
  intro hdot
  rcases h.mem hdot with hblank | hdigit | hplus
  · exact absurd hblank (by decide)
  · exact absurd hdigit (by decide)
  · exact absurd hplus (by decide)

/-- **The dots of a range are the first dots in a row,** and the numerals are what is left of the
two sides when they are trimmed. -/
theorem writesRange_iff {cs : List Char} {start stop : Nat} :
    WritesRange cs start stop ↔ ∃ first second,
      Text.splitOnce? ['.', '.'] cs = some (first, second) ∧ Numeral (Text.trim first) start ∧
        Numeral (Text.trim second) stop := by
  constructor
  · rintro ⟨first, second, rfl, hfirst, hsecond⟩
    exact ⟨first, second, Text.splitOnce?_append hfirst.not_mem_dot ['.'] second,
      Text.paddedNumeral_iff.mp hfirst, Text.paddedNumeral_iff.mp hsecond⟩
  · rintro ⟨first, second, hsplit, hfirst, hsecond⟩
    exact ⟨first, second, Text.append_of_splitOnce? hsplit, Text.paddedNumeral_iff.mpr hfirst,
      Text.paddedNumeral_iff.mpr hsecond⟩

/-- A text writes at most one range. -/
theorem WritesRange.unique {cs : List Char} {start stop start' stop' : Nat}
    (h : WritesRange cs start stop) (h' : WritesRange cs start' stop') :
    start = start' ∧ stop = stop' := by
  obtain ⟨first, second, hsplit, hfirst, hsecond⟩ := writesRange_iff.mp h
  obtain ⟨first', second', hsplit', hfirst', hsecond'⟩ := writesRange_iff.mp h'
  obtain ⟨rfl, rfl⟩ := Prod.mk.inj (Option.some.inj (hsplit.symm.trans hsplit'))
  exact ⟨hfirst.unique hfirst', hsecond.unique hsecond'⟩

/-- A range holds two dots. -/
theorem WritesRange.count_dot {cs : List Char} {start stop : Nat}
    (h : WritesRange cs start stop) : cs.count '.' = 2 := by
  obtain ⟨first, second, rfl, hfirst, hsecond⟩ := h
  rw [List.count_append, List.count_append, List.count_eq_zero.mpr hfirst.not_mem_dot,
    List.count_eq_zero.mpr hsecond.not_mem_dot]
  rfl

theorem WritesRange.mem {cs : List Char} {start stop : Nat} (h : WritesRange cs start stop)
    {c : Char} (hc : c ∈ cs) : Text.isBlank c = true ∨ c.isDigit = true ∨ c ∈ ['+', '.'] := by
  obtain ⟨first, second, rfl, hfirst, hsecond⟩ := h
  have hside {side : List Char} {n : Nat} (hside : PaddedNumeral side n) (hc : c ∈ side) :
      Text.isBlank c = true ∨ c.isDigit = true ∨ c ∈ ['+', '.'] := by
    refine (hside.mem hc).imp_right (Or.imp_right fun hplus => ?_)
    exact hplus ▸ List.mem_cons_self
  rcases List.mem_append.mp hc with hc | hc
  · rcases List.mem_append.mp hc with hc | hc
    · exact hside hfirst hc
    · have hdot : c = '.' := by simpa using hc
      exact .inr (.inr (by simp [hdot]))
  · exact hside hsecond hc

/-- The dots of a range cannot be taken for others. -/
theorem WritesRange.sides {first second : List Char} {start stop : Nat}
    (h : WritesRange (first ++ ['.', '.'] ++ second) start stop) :
    PaddedNumeral first start ∧ PaddedNumeral second stop := by
  -- there are but two dots, so none is left for the two sides
  have hcount := h.count_dot
  rw [List.count_append, List.count_append] at hcount
  have hdots : ['.', '.'].count '.' = 2 := rfl
  have hfirst : '.' ∉ first := List.count_eq_zero.mp (by omega)
  obtain ⟨first', second', hsplit, hstart, hstop⟩ := writesRange_iff.mp h
  rw [Text.splitOnce?_append hfirst] at hsplit
  obtain ⟨rfl, rfl⟩ := Prod.mk.inj (Option.some.inj hsplit)
  exact ⟨Text.paddedNumeral_iff.mpr hstart, Text.paddedNumeral_iff.mpr hstop⟩

/-! ## Parsing -/

theorem parseRange_eq_ok_iff {text : String} {start stop : Nat} :
    parseRange text = .ok (start, stop) ↔
      WritesRange text.toList start stop ∧ start < wordLimit ∧ stop < wordLimit ∧
        start ≤ stop := by
  have hread {cs : List Char} {n : Nat} : Text.readNumeral wordLimit cs = .ok n ↔
      Numeral cs n ∧ n < wordLimit := Text.readNumeral_eq_ok_iff (by decide)
  rw [writesRange_iff]
  unfold parseRange
  constructor
  · intro h
    split at h
    · simp at h
    next first second hsplit =>
      split at h
      · simp at h
      next start' hstart =>
        split at h
        · simp at h
        next stop' hstop =>
          split at h
          · simp at h
          next horder =>
            obtain ⟨rfl, rfl⟩ := Prod.mk.inj (Except.ok.inj h)
            obtain ⟨hfirst, hstart⟩ := hread.mp hstart
            obtain ⟨hsecond, hstop⟩ := hread.mp hstop
            exact ⟨⟨first, second, hsplit, hfirst, hsecond⟩, hstart, hstop, by omega⟩
  · rintro ⟨⟨first, second, hsplit, hfirst, hsecond⟩, hstart, hstop, horder⟩
    simp only [hsplit, hread.mpr ⟨hfirst, hstart⟩, hread.mpr ⟨hsecond, hstop⟩]
    rw [if_neg (by omega)]

/-- A text with a fault is no range of offsets. -/
theorem RangeFault.not_range {cs : List Char} (h : RangeFault cs) {start stop : Nat}
    (hrange : WritesRange cs start stop) (hstart : start < wordLimit) (hstop : stop < wordLimit)
    (horder : start ≤ stop) : False := by
  cases h with
  | dots h => exact h hrange.count_dot
  | stranger c hc hblank hdigit hother =>
      rcases hrange.mem hc with h | h | h
      · exact Bool.false_ne_true (hblank.symm.trans h)
      · exact Bool.false_ne_true (hdigit.symm.trans h)
      · exact hother h
  | emptyStart first second hcs h =>
      subst hcs
      exact hrange.sides.1.not_isBlanks h
  | emptyStop first second hcs h =>
      subst hcs
      exact hrange.sides.2.not_isBlanks h
  | tooLarge start' stop' hcs h =>
      obtain ⟨rfl, rfl⟩ := hrange.unique hcs
      omega
  | reversed start' stop' hcs h =>
      obtain ⟨rfl, rfl⟩ := hrange.unique hcs
      omega

/-- **Exactly the ranges of offsets are parsed,** to the offsets that they write. So a range that is
written with two numbers is parsed to them, and a text with a fault is not parsed. -/
theorem parseRange_accepts_ranges :
    (∀ text start stop, parseRange text = .ok (start, stop) ↔
      WritesRange text.toList start stop ∧ start < wordLimit ∧ stop < wordLimit ∧ start ≤ stop) ∧
    (∀ start stop : Nat, start ≤ stop → stop < wordLimit →
      parseRange (toString start ++ ".." ++ toString stop) = .ok (start, stop)) ∧
    (∀ text, RangeFault text.toList → ∃ error, parseRange text = .error error) := by
  refine ⟨fun text start stop => parseRange_eq_ok_iff, fun start stop horder hstop => ?_,
    fun text hfault => ?_⟩
  · have hpadded (n : Nat) : PaddedNumeral (toString n).toList n :=
      ⟨[], _, [], by simp, by simp [IsBlanks], by simp [IsBlanks], Text.numeral_repr n⟩
    have hwrites : WritesRange (toString start ++ ".." ++ toString stop).toList start stop :=
      ⟨_, _, by rw [String.toList_append, String.toList_append]; rfl, hpadded start, hpadded stop⟩
    exact parseRange_eq_ok_iff.mpr ⟨hwrites, by omega, hstop, horder⟩
  · cases hparse : parseRange text with
    | error error => exact ⟨error, rfl⟩
    | ok range =>
        obtain ⟨hrange, hstart, hstop, horder⟩ := parseRange_eq_ok_iff.mp hparse
        exact (hfault.not_range hrange hstart hstop horder).elim

/-- Two numbers around two dots are parsed, and around three dots they are not. -/
theorem two_dots_parsed_three_not :
    parseRange (toString 7 ++ ".." ++ toString 10) = .ok (7, 10) ∧
      ∃ error, parseRange "7...10" = .error error :=
  ⟨parseRange_accepts_ranges.2.1 7 10 (by decide) (by decide),
    parseRange_accepts_ranges.2.2 "7...10" (.dots (by decide +kernel))⟩

-- A plus sign, leading zeros and blanks change nothing.
example : (parseRange " +007 .. 10\t").toOption = some (7, 10) := by decide +kernel

end CopyPaste

import CopyPaste.Text.Blank
import CopyPaste.Text.Numeral

/-!
# Which texts are numerals

A numeral is one or more decimal digits, with or without a plus sign before them. What is read has
to lie below a limit, and may have blanks on both sides when it is trimmed first.

* `Numeral`, `PaddedNumeral` — a text writes a number, alone and between blanks;
* **`readNumeral_eq_ok_iff`** — what is read is what a numeral writes, below the limit;
* **`trim_append`** — trimming removes the blanks on both sides and nothing else;
* **`paddedNumeral_iff`** — a numeral between blanks is one when it is trimmed;
* **`numeral_repr`** — the digits that a number is shown with write it.
-/

namespace CopyPaste.Text

/-! ## Digits -/

/-- One or more decimal digits. -/
def IsDigits (cs : List Char) : Prop := cs ≠ [] ∧ ∀ c ∈ cs, c.isDigit = true

/-- **Reading goes through if every character is a digit and the number lies below the limit.** A
number that is too large never becomes smaller by another digit. -/
theorem readDigits_eq_ok_iff {limit value n : Nat} {cs : List Char} (hvalue : value < limit) :
    readDigits limit value cs = .ok n ↔
      (∀ c ∈ cs, c.isDigit = true) ∧ n < limit ∧ n = Nat.ofDigitChars 10 cs value := by
  induction cs generalizing value with
  | nil =>
      rw [readDigits, Nat.ofDigitChars_nil]
      constructor
      · intro h
        obtain rfl := Except.ok.inj h
        exact ⟨fun c hc => absurd hc List.not_mem_nil, hvalue, rfl⟩
      · rintro ⟨-, -, rfl⟩
        rfl
  | cons c cs ih =>
      have hnext : value * 10 + digitValue c = 10 * value + (c.toNat - '0'.toNat) := by
        rw [digitValue, Nat.mul_comm]
      rw [readDigits, List.forall_mem_cons, Nat.ofDigitChars_cons, ← hnext]
      by_cases hc : c.isDigit = true
      · by_cases hlimit : value * 10 + digitValue c < limit
        · rw [if_pos hc, if_pos hlimit, ih hlimit]
          simp only [hc, true_and]
        · have hgrows : Nat.ofDigitChars 10 cs (value * 10 + digitValue c) =
              10 ^ cs.length * (value * 10 + digitValue c) + Nat.ofDigitChars 10 cs 0 :=
            Nat.ofDigitChars_eq_ofDigitChars_zero
          have hpower : 0 < 10 ^ cs.length := Nat.pow_pos (by decide)
          have hle := Nat.le_mul_of_pos_left (value * 10 + digitValue c) hpower
          rw [if_pos hc, if_neg hlimit]
          simp only [reduceCtorEq, false_iff]
          rintro ⟨-, hn, rfl⟩
          omega
      · simp [hc]

/-! ## Numerals -/

/-- A text writes a number. -/
inductive Numeral : List Char → Nat → Prop
  | plain {digits : List Char} (h : IsDigits digits) :
      Numeral digits (Nat.ofDigitChars 10 digits 0)
  | signed {digits : List Char} (h : IsDigits digits) :
      Numeral ('+' :: digits) (Nat.ofDigitChars 10 digits 0)

theorem not_isDigits_plus (cs : List Char) : ¬ IsDigits ('+' :: cs) := fun h =>
  absurd (h.2 '+' List.mem_cons_self) (by decide)

theorem numeral_plus_iff {cs : List Char} {n : Nat} :
    Numeral ('+' :: cs) n ↔ IsDigits cs ∧ n = Nat.ofDigitChars 10 cs 0 := by
  constructor
  · intro h
    cases h with
    | plain h => exact absurd h (not_isDigits_plus cs)
    | signed h => exact ⟨h, rfl⟩
  · rintro ⟨h, rfl⟩
    exact .signed h

theorem numeral_iff_of_ne {cs : List Char} (hplus : cs.head? ≠ some '+') {n : Nat} :
    Numeral cs n ↔ IsDigits cs ∧ n = Nat.ofDigitChars 10 cs 0 := by
  constructor
  · intro h
    cases h with
    | plain h => exact ⟨h, rfl⟩
    | signed h => exact absurd rfl hplus
  · rintro ⟨h, rfl⟩
    exact .plain h

theorem Numeral.ne_nil {cs : List Char} {n : Nat} (h : Numeral cs n) : cs ≠ [] := by
  cases h with
  | plain h => exact h.1
  | signed h => exact List.cons_ne_nil _ _

/-- A numeral holds digits and perhaps a plus sign. -/
theorem Numeral.mem {cs : List Char} {n : Nat} (h : Numeral cs n) {c : Char} (hc : c ∈ cs) :
    c.isDigit = true ∨ c = '+' := by
  cases h with
  | plain h => exact .inl (h.2 c hc)
  | signed h =>
      rcases List.mem_cons.mp hc with rfl | hc
      · exact .inr rfl
      · exact .inl (h.2 c hc)

/-- A text writes at most one number. -/
theorem Numeral.unique {cs : List Char} {n k : Nat} (hn : Numeral cs n) (hk : Numeral cs k) :
    n = k := by
  cases hn with
  | plain h =>
      cases hk with
      | plain => rfl
      | signed => exact absurd h (not_isDigits_plus _)
  | signed h => exact (numeral_plus_iff.mp hk).2.symm

/-- **What is read is what the text writes.** -/
theorem readNumeral_eq_ok_iff {limit n : Nat} (hlimit : 0 < limit) {cs : List Char} :
    readNumeral limit cs = .ok n ↔ Numeral cs n ∧ n < limit := by
  have hdigits {cs : List Char} (hne : cs ≠ []) : readDigits limit 0 cs = .ok n ↔
      (IsDigits cs ∧ n = Nat.ofDigitChars 10 cs 0) ∧ n < limit := by
    rw [readDigits_eq_ok_iff hlimit]
    exact ⟨fun ⟨hcs, hn, hvalue⟩ => ⟨⟨⟨hne, hcs⟩, hvalue⟩, hn⟩,
      fun ⟨⟨hcs, hvalue⟩, hn⟩ => ⟨hcs.2, hn, hvalue⟩⟩
  unfold readNumeral
  split
  next =>
    simp only [reduceCtorEq, false_iff]
    exact fun h => h.1.ne_nil rfl
  next =>
    simp only [reduceCtorEq, false_iff, numeral_plus_iff]
    exact fun h => h.1.1.1 rfl
  next digits hne =>
    rw [hdigits (fun h => hne (by rw [h])), numeral_plus_iff]
  next hnil hplus hsigned =>
    have hhead : cs.head? ≠ some '+' := by
      intro hhead
      obtain ⟨digits, rfl⟩ := List.head?_eq_some_iff.mp hhead
      exact hsigned digits rfl
    rw [hdigits hnil, numeral_iff_of_ne hhead]

/-- **The digits that a number is shown with write it.** -/
theorem numeral_repr (n : Nat) : Numeral (toString n).toList n := by
  have hdigits : IsDigits (Nat.toDigits 10 n) :=
    ⟨Nat.toDigits_ne_nil, fun c hc => Nat.isDigit_of_mem_toDigits (by decide) (by decide) hc⟩
  have hvalue : Nat.ofDigitChars 10 (Nat.toDigits 10 n) 0 = n :=
    Nat.ofDigitChars_toDigits (by decide) (by decide)
  have htext : (toString n).toList = Nat.toDigits 10 n := by
    rw [Nat.toString_eq_repr, Nat.toList_repr]
  have h := Numeral.plain hdigits
  rwa [hvalue, ← htext] at h

/-! ## Trimming -/

/-- A text of blanks. -/
def IsBlanks (cs : List Char) : Prop := ∀ c ∈ cs, isBlank c = true

theorem not_isBlank_of_isDigit {c : Char} (h : c.isDigit = true) : isBlank c = false := by
  have hc : 48 ≤ c.toNat ∧ c.toNat ≤ 57 := Char.isDigit_iff_toNat.mp h
  have hapart : ∀ r ∈ blankRanges, r.2 < 48 ∨ 57 < r.1 := by decide
  rw [← Bool.not_eq_true, isBlank, inRanges_eq_true_iff]
  rintro ⟨r, hr, hfirst, hlast⟩
  have hr := hapart r hr
  omega

/-- Blanks are all that trimming removes. -/
theorem exists_of_trim (cs : List Char) :
    ∃ before after, IsBlanks before ∧ IsBlanks after ∧ cs = before ++ trim cs ++ after := by
  refine ⟨cs.takeWhile isBlank, ((trimStart cs).reverse.takeWhile isBlank).reverse, ?_, ?_, ?_⟩
  · exact List.all_eq_true.mp List.all_takeWhile
  · intro c hc
    exact List.all_eq_true.mp List.all_takeWhile c (List.mem_reverse.mp hc)
  · rw [List.append_assoc, trim, dropEndWhile, ← List.reverse_append,
      List.takeWhile_append_dropWhile, List.reverse_reverse, trimStart,
      List.takeWhile_append_dropWhile]

/-- Trimming stops at a character that is no blank. -/
theorem trim_append {before cs after : List Char} (hbefore : IsBlanks before)
    (hafter : IsBlanks after) (hcs : ∀ c ∈ cs, isBlank c = false) :
    trim (before ++ cs ++ after) = cs := by
  have hstop {cs rest : List Char} (hne : cs ≠ []) (hcs : ∀ c ∈ cs, isBlank c = false) :
      (cs ++ rest).dropWhile isBlank = cs ++ rest := by
    obtain ⟨c, cs, rfl⟩ := List.exists_cons_of_ne_nil hne
    simp [hcs c List.mem_cons_self]
  have hreverse : ∀ c ∈ after.reverse, isBlank c = true :=
    fun c hc => hafter c (List.mem_reverse.mp hc)
  by_cases hne : cs = []
  · have hall : ∀ c ∈ before ++ after, isBlank c = true :=
      fun c hc => (List.mem_append.mp hc).elim (hbefore c) (hafter c)
    have hnone : (before ++ after ++ []).dropWhile isBlank = [].dropWhile isBlank :=
      List.dropWhile_append_of_pos hall
    rw [List.append_nil] at hnone
    simp [hne, trim, trimStart, hnone, dropEndWhile]
  · have hends : ∀ c ∈ cs.reverse, isBlank c = false :=
      fun c hc => hcs c (List.mem_reverse.mp hc)
    rw [List.append_assoc, trim, trimStart, List.dropWhile_append_of_pos hbefore, hstop hne hcs,
      dropEndWhile, List.reverse_append, List.dropWhile_append_of_pos hreverse]
    have hlast : (cs.reverse ++ []).dropWhile isBlank = cs.reverse ++ [] :=
      hstop (mt List.reverse_eq_nil_iff.mp hne) hends
    rw [List.append_nil] at hlast
    rw [hlast, List.reverse_reverse]

/-- A text writes a number between blanks. -/
def PaddedNumeral (cs : List Char) (n : Nat) : Prop :=
  ∃ before numeral after, cs = before ++ numeral ++ after ∧ IsBlanks before ∧ IsBlanks after ∧
    Numeral numeral n

theorem Numeral.not_isBlank {cs : List Char} {n : Nat} (h : Numeral cs n) :
    ∀ c ∈ cs, isBlank c = false := by
  intro c hc
  rcases h.mem hc with hdigit | rfl
  · exact not_isBlank_of_isDigit hdigit
  · decide

theorem paddedNumeral_iff {cs : List Char} {n : Nat} :
    PaddedNumeral cs n ↔ Numeral (trim cs) n := by
  constructor
  · rintro ⟨before, numeral, after, rfl, hbefore, hafter, hnumeral⟩
    rwa [trim_append hbefore hafter hnumeral.not_isBlank]
  · intro h
    obtain ⟨before, after, hbefore, hafter, hcs⟩ := exists_of_trim cs
    exact ⟨before, trim cs, after, hcs, hbefore, hafter, h⟩

/-- A padded numeral holds blanks, digits and perhaps a plus sign. -/
theorem PaddedNumeral.mem {cs : List Char} {n : Nat} (h : PaddedNumeral cs n) {c : Char}
    (hc : c ∈ cs) : isBlank c = true ∨ c.isDigit = true ∨ c = '+' := by
  obtain ⟨before, numeral, after, rfl, hbefore, hafter, hnumeral⟩ := h
  rcases List.mem_append.mp hc with hc | hc
  · rcases List.mem_append.mp hc with hc | hc
    · exact .inl (hbefore c hc)
    · exact .inr (hnumeral.mem hc)
  · exact .inl (hafter c hc)

/-- Blanks alone are no numeral. -/
theorem PaddedNumeral.not_isBlanks {cs : List Char} {n : Nat} (h : PaddedNumeral cs n) :
    ¬ IsBlanks cs := by
  obtain ⟨before, numeral, after, rfl, -, -, hnumeral⟩ := h
  intro hblanks
  obtain ⟨c, hc⟩ := List.exists_mem_of_ne_nil numeral hnumeral.ne_nil
  have hblank := hblanks c (List.mem_append_left after (List.mem_append_right before hc))
  exact Bool.false_ne_true ((hnumeral.not_isBlank c hc).symm.trans hblank)

end CopyPaste.Text

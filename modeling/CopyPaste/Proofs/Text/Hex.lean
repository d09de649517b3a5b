import CopyPaste.Text.Hex
import Mathlib.Data.List.Induction
import Mathlib.Tactic.IntervalCases

/-!
# Reading hexadecimal digits back

What is written with a fixed count of digits is read back as the number it was written from, and
what is read as a number is that number written, but for the case of its letters.

* **`readHex?_hexDigits`** — writing and reading back;
* **`isHexDigit_of_mem_hexDigits`** — nothing but digits is written;
* **`readHex?_eq_some_iff`** — which texts are read as a number;
* **`hexDigits_eq_map`** — the written digits by their places.
-/

namespace CopyPaste.Text

@[simp] theorem hexValue?_digitChar {n : Nat} (h : n < 16) :
    hexValue? (Nat.digitChar n) = some n := by
  interval_cases n <;> decide

@[simp] theorem length_hexDigits (k n : Nat) : (hexDigits k n).length = k := by
  induction k generalizing n with
  | zero => rfl
  | succ k ih => simp [hexDigits, ih]

theorem readHex?_append (value : Nat) (cs ds : List Char) :
    readHex? value (cs ++ ds) = (readHex? value cs).bind fun value => readHex? value ds := by
  induction cs generalizing value with
  | nil => rfl
  | cons c cs ih =>
      rw [List.cons_append, readHex?, readHex?, Option.bind_assoc]
      exact congrArg _ (funext fun d => ih _)

/-- **What is written is read back,** after whatever was read so far. -/
theorem readHex?_hexDigits (value : Nat) {k n : Nat} (h : n < 16 ^ k) :
    readHex? value (hexDigits k n) = some (value * 16 ^ k + n) := by
  induction k generalizing n with
  | zero =>
      obtain rfl : n = 0 := by simpa using h
      simp [hexDigits, readHex?]
  | succ k ih =>
      have hquotient : n / 16 < 16 ^ k := by
        rw [Nat.div_lt_iff_lt_mul (by omega)]
        rwa [Nat.pow_succ] at h
      have hsum : (value * 16 ^ k + n / 16) * 16 + n % 16 = value * 16 ^ (k + 1) + n := by
        rw [Nat.pow_succ, Nat.add_mul, Nat.mul_assoc, Nat.add_assoc, Nat.div_add_mod']
      rw [hexDigits, readHex?_append, ih hquotient]
      simp [readHex?, hexValue?_digitChar (Nat.mod_lt n (by omega)), hsum]

/-- Whether a character is a hexadecimal digit. -/
def isHexDigit (c : Char) : Bool := (hexValue? c).isSome

/-- Nothing but digits is written. -/
theorem isHexDigit_of_mem_hexDigits {k n : Nat} {c : Char} (h : c ∈ hexDigits k n) :
    isHexDigit c = true := by
  induction k generalizing n with
  | zero => simp [hexDigits] at h
  | succ k ih =>
      rw [hexDigits, List.mem_append, List.mem_singleton] at h
      obtain h | rfl := h
      · exact ih h
      · rw [isHexDigit, hexValue?_digitChar (Nat.mod_lt n (by omega))]
        rfl

/-! ## Lower case -/

theorem toNat_toLower (c : Char) :
    c.toLower.toNat = if 65 ≤ c.toNat ∧ c.toNat ≤ 90 then c.toNat + 32 else c.toNat := by
  have hupper : c.val ≥ 'A'.val ∧ c.val ≤ 'Z'.val ↔ 65 ≤ c.toNat ∧ c.toNat ≤ 90 := Iff.rfl
  delta Char.toLower
  split
  next h =>
    have hle : c.toNat ≤ 90 := h.2
    rw [if_pos (hupper.mp h)]
    calc (c.val + 32).toNat
      _ = (c.toNat + 32) % 2 ^ 32 := UInt32.toNat_add c.val 32
      _ = c.toNat + 32 := Nat.mod_eq_of_lt (by omega)
  next h => rw [if_neg fun hle => h (hupper.mpr hle)]

/-- Only letters are the lower case of other characters. -/
theorem toLower_eq_iff {c d : Char} (hupper : ¬ ('A' ≤ d ∧ d ≤ 'Z'))
    (hlower : ¬ ('a' ≤ d ∧ d ≤ 'z')) : c.toLower = d ↔ c = d := by
  have hupper : ¬ (65 ≤ d.toNat ∧ d.toNat ≤ 90) := hupper
  have hlower : ¬ (97 ≤ d.toNat ∧ d.toNat ≤ 122) := hlower
  rw [← Char.toNat_inj, ← Char.toNat_inj, toNat_toLower]
  split <;> omega

/-! ## Reading in either case -/

theorem toNat_digitChar {d : Nat} (h : d < 16) :
    (Nat.digitChar d).toNat = if d < 10 then 48 + d else 87 + d := by
  interval_cases d <;> rfl

theorem le_iff_toNat_le {c d : Char} : c ≤ d ↔ c.toNat ≤ d.toNat := Iff.rfl

/-- A character has the value of a digit if its lower case is the digit. -/
theorem hexValue?_eq_some_iff {c : Char} {d : Nat} :
    hexValue? c = some d ↔ d < 16 ∧ c.toLower = Nat.digitChar d := by
  have hvalue : hexValue? c = some d ↔
      d < 16 ∧ c.toLower.toNat = if d < 10 then 48 + d else 87 + d := by
    simp only [toNat_toLower, hexValue?, le_iff_toNat_le, Char.reduceToNat]
    split_ifs <;> simp <;> omega
  rw [hvalue]
  refine and_congr_right fun hd => ?_
  rw [← toNat_digitChar hd, Char.toNat_inj]

/-- Digits are written in lower case. -/
theorem toLower_digitChar {d : Nat} (h : d < 16) : (Nat.digitChar d).toLower = Nat.digitChar d :=
  (hexValue?_eq_some_iff.mp (hexValue?_digitChar h)).2

/-- The last digit of what is read is the last digit of the number. -/
theorem readHex?_concat_eq_some_iff {cs : List Char} {c : Char} {n : Nat} :
    readHex? 0 (cs ++ [c]) = some n ↔
      readHex? 0 cs = some (n / 16) ∧ hexValue? c = some (n % 16) := by
  rw [readHex?_append]
  simp only [readHex?, Option.bind_eq_some_iff, Option.some_inj]
  constructor
  · rintro ⟨v, hv, d, hd, rfl⟩
    have hlt := (hexValue?_eq_some_iff.mp hd).1
    have hdiv : (v * 16 + d) / 16 = v := by omega
    have hmod : (v * 16 + d) % 16 = d := by omega
    rw [hdiv, hmod]
    exact ⟨hv, hd⟩
  · rintro ⟨hv, hd⟩
    exact ⟨n / 16, hv, n % 16, hd, Nat.div_add_mod' n 16⟩

/-- **What is read as a number** is the number written with as many digits, in either case. -/
theorem readHex?_eq_some_iff {cs : List Char} {n : Nat} :
    readHex? 0 cs = some n ↔
      n < 16 ^ cs.length ∧ cs.map Char.toLower = hexDigits cs.length n := by
  -- a number loses its last digit first, so the induction takes the text from its end
  induction cs using List.reverseRecOn generalizing n with
  | nil => simp [readHex?, hexDigits, eq_comm]
  | append_singleton cs c ih =>
      have hbound : n / 16 < 16 ^ cs.length ↔ n < 16 ^ (cs.length + 1) := by
        rw [Nat.div_lt_iff_lt_mul (by omega), Nat.pow_succ]
      have hdigit : n % 16 < 16 := Nat.mod_lt n (by omega)
      rw [readHex?_concat_eq_some_iff, ih, hexValue?_eq_some_iff, List.length_append,
        List.length_singleton, hexDigits, List.map_append, List.map_singleton, hbound,
        List.append_singleton_inj]
      tauto

/-- The digits by their places. -/
theorem hexDigits_eq_map (k n : Nat) :
    hexDigits k n = (List.range k).map fun i => Nat.digitChar (n / 16 ^ (k - 1 - i) % 16) := by
  induction k generalizing n with
  | zero => rfl
  | succ k ih =>
      rw [hexDigits, ih, List.range_succ, List.map_append, List.map_singleton]
      congr 1
      · refine List.map_congr_left fun i hi => ?_
        have hi : i < k := List.mem_range.mp hi
        have hplace : (k - 1 - i).succ = k + 1 - 1 - i := by omega
        rw [Nat.div_div_eq_div_mul, ← Nat.pow_succ', hplace]
      · simp

end CopyPaste.Text

import CopyPaste.Json.Value
import CopyPaste.Proofs.Text.Hex

/-!
# Reading JSON strings back

A string that was written is read back as it was, whatever stands after its closing quote. One
character is written as one piece, and no character is half of a surrogate pair.

* **`nextPiece?_escapeChar`** — one character;
* **`readString?_writeString`** — a whole string.
-/

namespace CopyPaste.Json

theorem hexDigits_four (n : Nat) : ∃ a b c d, Text.hexDigits 4 n = [a, b, c, d] := by
  simp [Text.hexDigits]

/-- **A character is written as one piece.** -/
theorem nextPiece?_escapeChar (c : Char) (rest : List Char) :
    nextPiece? (escapeChar c ++ rest) = some (.point c.toNat, rest) := by
  unfold escapeChar
  -- the seven characters with an escape of their own
  iterate 7
    split
    · rename_i h
      subst h
      rfl
  split
  · rename_i hcontrol
    have hread := Text.readHex?_hexDigits 0 (k := 4) (n := c.toNat) (by omega)
    obtain ⟨d₁, d₂, d₃, d₄, hdigits⟩ := hexDigits_four c.toNat
    rw [hdigits] at hread ⊢
    show (Text.readHex? 0 [d₁, d₂, d₃, d₄]).map _ = _
    rw [hread, Nat.zero_mul, Nat.zero_add]
    rfl
  · rename_i hquote hbackslash _ _ _ _ _ hprintable
    show nextPiece? (c :: rest) = _
    unfold nextPiece?
    split
    · rename_i h; simp at h
    · rename_i h; exact absurd (List.cons.inj h).1 hquote
    · rename_i h; exact absurd (List.cons.inj h).1 hbackslash
    · rename_i h; exact absurd (List.cons.inj h).1 hbackslash
    · rename_i h
      obtain ⟨rfl, rfl⟩ := List.cons.inj h
      rw [if_neg (by simp [hprintable, hbackslash])]

/-- The pieces of a string are its characters. -/
theorem readPoints?_escaped (cs rest : List Char) {fuel : Nat} (hfuel : cs.length < fuel) :
    readPoints? fuel (cs.flatMap escapeChar ++ '"' :: rest) =
      some (cs.map Char.toNat, rest) := by
  induction cs generalizing fuel with
  | nil =>
      cases fuel with
      | zero => simp at hfuel
      | succ fuel => rfl
  | cons c cs ih =>
      cases fuel with
      | zero => simp at hfuel
      | succ fuel =>
          rw [List.flatMap_cons, List.append_assoc, readPoints?, nextPiece?_escapeChar]
          dsimp only
          rw [ih (by simpa using hfuel)]
          rfl

/-- No character is half of a surrogate pair. -/
theorem not_surrogate (c : Char) :
    isHighSurrogate c.toNat = false ∧ isLowSurrogate c.toNat = false := by
  have hvalid : c.toNat < 0xD800 ∨ 0xDFFF < c.toNat ∧ c.toNat < 0x110000 := c.valid
  unfold isHighSurrogate isLowSurrogate
  simp only [Bool.and_eq_false_iff, decide_eq_false_iff_not]
  omega

theorem charsOfPoints?_toNat (cs : List Char) :
    charsOfPoints? (cs.map Char.toNat) = some cs := by
  induction cs with
  | nil => rfl
  | cons c cs ih =>
      obtain ⟨hhigh, hlow⟩ := not_surrogate c
      cases cs with
      | nil => simp [charsOfPoints?, hhigh, hlow]
      | cons d cs =>
          rw [List.map_cons, List.map_cons, charsOfPoints?, hhigh, hlow]
          rw [List.map_cons] at ih
          simp [ih]

theorem length_le_length_escaped (cs : List Char) :
    cs.length ≤ (cs.flatMap escapeChar).length := by
  induction cs with
  | nil => exact Nat.le_refl 0
  | cons c cs ih =>
      have hone : 1 ≤ (escapeChar c).length := by
        unfold escapeChar
        repeat' split
        all_goals simp
      rw [List.flatMap_cons, List.length_append, List.length_cons]
      omega

/-- **A string is read back as it was written.** -/
theorem readString?_writeString (cs rest : List Char) :
    readString? (writeString cs ++ rest) = some (some (String.ofList cs), rest) := by
  have hlength := length_le_length_escaped cs
  have hbody : readBody? (cs.flatMap escapeChar ++ '"' :: rest) = some (some cs, rest) := by
    unfold readBody?
    rw [readPoints?_escaped cs rest (by rw [List.length_append]; omega), Option.map_some,
      charsOfPoints?_toNat]
  have hwritten : writeString cs ++ rest = '"' :: (cs.flatMap escapeChar ++ '"' :: rest) := by
    simp [writeString]
  rw [hwritten, readString?, hbody]
  rfl

/-- A value that is a string is read back as it was written. -/
theorem readValue?_writeString (fuel : Nat) (cs rest : List Char) :
    readValue? (fuel + 1) (writeString cs ++ rest) =
      some (.string (some (String.ofList cs)), rest) := by
  have hread := readString?_writeString cs rest
  obtain ⟨body, hbody⟩ : ∃ body, writeString cs ++ rest = '"' :: body := ⟨_, rfl⟩
  rw [hbody] at hread ⊢
  have hspace : skipSpace ('"' :: body) = '"' :: body := rfl
  rw [readValue?, hspace]
  exact congrArg (Option.map fun result => (Json.string result.1, result.2)) hread

end CopyPaste.Json

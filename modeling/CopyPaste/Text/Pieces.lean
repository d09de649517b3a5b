/-!
# Cutting text into pieces

`pieces` cuts a text at every character of a class and keeps the empty pieces, so a text with
`n` separators has `n + 1` pieces. Lines, path segments and runs of one character are all read
off it.

Main statements:

* **`joinWith_pieces`** — joining the pieces at one separator gives the text back;
* **`not_sep_of_mem_pieces`** — no piece holds a separator;
* **`pieces_joinWith`** — pieces that were joined are cut at the same places;
* **`pieces_inj`** — a text is told by its pieces.
-/

namespace CopyPaste.Text

/-- The pieces between the separators. -/
def pieces (isSep : Char → Bool) : List Char → List (List Char)
  | [] => [[]]
  | c :: cs =>
    if isSep c then [] :: pieces isSep cs
    else
      match pieces isSep cs with
      | [] => [[c]]
      | piece :: rest => (c :: piece) :: rest

/-- The pieces joined with a separator between any two. -/
def joinWith (sep : List Char) : List (List Char) → List Char
  | [] => []
  | [piece] => piece
  | piece :: rest => piece ++ sep ++ joinWith sep rest

theorem pieces_ne_nil (isSep : Char → Bool) (cs : List Char) : pieces isSep cs ≠ [] := by
  cases cs with
  | nil => simp [pieces]
  | cons c cs =>
    rw [pieces]
    split
    · simp
    · split <;> simp

theorem not_sep_of_mem_pieces {isSep : Char → Bool} {cs piece : List Char} {c : Char}
    (hp : piece ∈ pieces isSep cs) (hc : c ∈ piece) : isSep c = false := by
  induction cs generalizing piece with
  | nil => simp [pieces] at hp; subst hp; simp at hc
  | cons d cs ih =>
    rw [pieces] at hp
    split at hp
    · rcases List.mem_cons.1 hp with rfl | hp
      · simp at hc
      · exact ih hp hc
    next hd =>
      have hd : isSep d = false := by simpa using hd
      split at hp
      · simp at hp; subst hp; simp at hc; exact hc ▸ hd
      next first rest he =>
        rw [he] at ih
        rcases List.mem_cons.1 hp with rfl | hp
        · rcases List.mem_cons.1 hc with rfl | hc
          · exact hd
          · exact ih (List.mem_cons_self ..) hc
        · exact ih (List.mem_cons_of_mem _ hp) hc

theorem joinWith_cons_cons (sep piece next : List Char) (rest : List (List Char)) :
    joinWith sep (piece :: next :: rest) = piece ++ sep ++ joinWith sep (next :: rest) := rfl

/-- **Nothing is lost.** The pieces joined at the separator are the text. -/
theorem joinWith_pieces (sep : Char) (cs : List Char) :
    joinWith [sep] (pieces (· == sep) cs) = cs := by
  induction cs with
  | nil => rfl
  | cons c cs ih =>
    rw [pieces]
    obtain ⟨first, rest, he⟩ := List.exists_cons_of_ne_nil (pieces_ne_nil (· == sep) cs)
    split
    next h =>
      have h : c = sep := by simpa using h
      rw [he, joinWith_cons_cons, ← he, ih, h]
      rfl
    next h =>
      rw [he] at ih ⊢
      cases rest with
      | nil => simp [joinWith] at ih ⊢; exact ih
      | cons next rest => simp [joinWith] at ih ⊢; exact ih

theorem pieces_of_not_sep {isSep : Char → Bool} {cs : List Char}
    (h : ∀ c ∈ cs, isSep c = false) : pieces isSep cs = [cs] := by
  induction cs with
  | nil => rfl
  | cons c cs ih =>
    rw [pieces, h c List.mem_cons_self, ih fun d hd => h d (List.mem_cons_of_mem c hd)]
    rfl

theorem pieces_append_sep {isSep : Char → Bool} {piece : List Char} {sep : Char}
    (hpiece : ∀ c ∈ piece, isSep c = false) (hsep : isSep sep = true) (cs : List Char) :
    pieces isSep (piece ++ sep :: cs) = piece :: pieces isSep cs := by
  induction piece with
  | nil => rw [List.nil_append, pieces, if_pos hsep]
  | cons c piece ih =>
    rw [List.cons_append, pieces, hpiece c List.mem_cons_self,
      ih fun d hd => hpiece d (List.mem_cons_of_mem c hd)]
    rfl

/-- **Nothing is added.** Pieces without a separator, joined at one, are cut at the same places. -/
theorem pieces_joinWith {sep : Char} {ps : List (List Char)} (hne : ps ≠ [])
    (h : ∀ piece ∈ ps, sep ∉ piece) : pieces (· == sep) (joinWith [sep] ps) = ps := by
  have hpiece : ∀ piece ∈ ps, ∀ c ∈ piece, (c == sep) = false := fun piece hp c hc => by
    have hne : c ≠ sep := fun he => h piece hp (he ▸ hc)
    simpa using hne
  induction ps with
  | nil => exact absurd rfl hne
  | cons piece rest ih =>
    cases rest with
    | nil => exact pieces_of_not_sep (hpiece piece List.mem_cons_self)
    | cons next rest =>
      rw [joinWith_cons_cons, List.append_assoc, List.singleton_append,
        pieces_append_sep (hpiece piece List.mem_cons_self) (by simp),
        ih (by simp) (fun p hp => h p (List.mem_cons_of_mem piece hp))
          (fun p hp => hpiece p (List.mem_cons_of_mem piece hp))]

/-- A text is told by its pieces. -/
theorem pieces_inj {sep : Char} {cs ds : List Char} :
    pieces (· == sep) cs = pieces (· == sep) ds ↔ cs = ds := by
  constructor
  · intro h
    rw [← joinWith_pieces sep cs, h, joinWith_pieces]
  · rintro rfl
    rfl

/-- What leaves the separators where they are changes the pieces one by one. -/
theorem pieces_map {isSep : Char → Bool} {f : Char → Char} (hf : ∀ c, isSep (f c) = isSep c)
    (cs : List Char) : pieces isSep (cs.map f) = (pieces isSep cs).map (List.map f) := by
  induction cs with
  | nil => rfl
  | cons c cs ih =>
    rw [List.map_cons, pieces, pieces, hf, ih]
    split
    · rfl
    · cases pieces isSep cs <;> rfl

/-! ## Lines -/

/-- A line without the carriage return that stands before its line feed. -/
def dropReturn (line : List Char) : List Char :=
  if line.getLast? = some '\r' then line.dropLast else line

/-- Lines from the pieces between line feeds. A text need not end with a line feed, and the
last line keeps its carriage return when none follows. -/
def closeLines : List (List Char) → List (List Char)
  | [] => []
  | [last] => if last.isEmpty then [] else [last]
  | line :: rest => dropReturn line :: closeLines rest

/-- The lines of a text, ended by LF or CRLF. -/
def lines (cs : List Char) : List (List Char) :=
  closeLines (pieces (· == '\n') cs)

end CopyPaste.Text

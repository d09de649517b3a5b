import CopyPaste.Proofs.Markdown.Segments

/-!
# Destinations

A destination is a text of which five characters are percent-encoded: those that would end or split
it. Encoding goes character by character, so it leaves alone every cut at a character that it
neither encodes nor writes, and encoding twice is encoding once.

* `target` — what a link leads to, before it is encoded;
* **`destination_eq`** — the destination of a link is its target, encoded;
* **`encodeDestination_encodeDestination`** — encoding twice is encoding once;
* **`segments_encodeDestination`** — the segments of an encoded path.
-/

namespace CopyPaste.Markdown

/-! ## Encoding -/

/-- The characters that would end or split a destination. -/
def delimiters : List Char := [' ', '(', ')', '<', '>']

/-- The characters that are written in place of these. -/
def encodings : List Char := ['%', '2', '0', '8', '9', '3', 'C', 'E']

theorem encodeChar_of_not_mem {c : Char} (h : c ∉ delimiters) : encodeChar c = [c] := by
  simp only [delimiters, List.mem_cons, List.not_mem_nil, or_false, not_or] at h
  obtain ⟨hspace, hopen, hclose, hless, hgreater⟩ := h
  simp [encodeChar, hspace, hopen, hclose, hless, hgreater]

theorem encodeChar_of_mem {c : Char} (h : c ∈ delimiters) :
    encodeChar c ≠ [] ∧ ∀ d ∈ encodeChar c, d ∈ encodings := by
  simp only [delimiters, List.mem_cons, List.not_mem_nil, or_false] at h
  rcases h with rfl | rfl | rfl | rfl | rfl <;> simp [encodeChar, encodings]

@[simp] theorem encodeDestination_nil : encodeDestination [] = [] := rfl

@[simp] theorem encodeDestination_cons (c : Char) (cs : List Char) :
    encodeDestination (c :: cs) = encodeChar c ++ encodeDestination cs := rfl

theorem encodeDestination_append (l r : List Char) :
    encodeDestination (l ++ r) = encodeDestination l ++ encodeDestination r :=
  List.flatMap_append

theorem encodeDestination_eq_nil_iff {cs : List Char} : encodeDestination cs = [] ↔ cs = [] := by
  cases cs with
  | nil => simp
  | cons c cs =>
      by_cases hc : c ∈ delimiters
      · simp [(encodeChar_of_mem hc).1]
      · simp [encodeChar_of_not_mem hc]

/-- What is written is a character of the text that does not end a destination, or stands in place
of one that does. -/
theorem mem_encodeDestination {cs : List Char} {d : Char} (h : d ∈ encodeDestination cs) :
    (d ∈ cs ∧ d ∉ delimiters) ∨ d ∈ encodings := by
  obtain ⟨c, hc, hd⟩ := List.mem_flatMap.mp h
  by_cases hdelimiter : c ∈ delimiters
  · exact .inr ((encodeChar_of_mem hdelimiter).2 d hd)
  · rw [encodeChar_of_not_mem hdelimiter] at hd
    obtain rfl := List.mem_singleton.mp hd
    exact .inl ⟨hc, hdelimiter⟩

/-- No character is left that would end or split a destination. -/
theorem not_delimiter_of_mem {cs : List Char} {d : Char} (h : d ∈ encodeDestination cs) :
    d ∉ delimiters := by
  have hencodings : ∀ d ∈ encodings, d ∉ delimiters := by simp [encodings, delimiters]
  exact (mem_encodeDestination h).elim And.right (hencodings d)

/-- A character that encoding neither encodes nor writes stays where it is. -/
theorem mem_encodeDestination_iff {c : Char} (h : c ∉ delimiters ++ encodings) {cs : List Char} :
    c ∈ encodeDestination cs ↔ c ∈ cs := by
  obtain ⟨hdelimiter, hencoding⟩ := not_or.mp (mt List.mem_append.mpr h)
  constructor
  · intro hmem
    exact ((mem_encodeDestination hmem).resolve_right hencoding).1
  · intro hmem
    exact List.mem_flatMap.mpr ⟨c, hmem, by simp [encodeChar_of_not_mem hdelimiter]⟩

theorem encodeDestination_of_not_mem {cs : List Char} (h : ∀ c ∈ cs, c ∉ delimiters) :
    encodeDestination cs = cs := by
  induction cs with
  | nil => rfl
  | cons c cs ih =>
      obtain ⟨hc, hcs⟩ := List.forall_mem_cons.mp h
      rw [encodeDestination_cons, encodeChar_of_not_mem hc, ih hcs, List.singleton_append]

/-- **Encoding twice is encoding once.** -/
theorem encodeDestination_encodeDestination (cs : List Char) :
    encodeDestination (encodeDestination cs) = encodeDestination cs :=
  encodeDestination_of_not_mem fun _ h => not_delimiter_of_mem h

/-! ## Cuts -/

/-- A slash is neither encoded nor written, so it cuts before encoding what it cuts after. -/
theorem pieces_encodeDestination (cs : List Char) :
    Text.pieces (· == '/') (encodeDestination cs) =
      (Text.pieces (· == '/') cs).map encodeDestination := by
  induction cs with
  | nil => rfl
  | cons c cs ih =>
      obtain ⟨first, rest, hfirst⟩ :=
        List.exists_cons_of_ne_nil (Text.pieces_ne_nil (· == '/') cs)
      rw [hfirst] at ih
      by_cases hc : c = '/'
      · subst hc
        have hchar : encodeChar '/' = ['/'] := rfl
        rw [encodeDestination_cons, hchar, List.singleton_append, Text.pieces, Text.pieces, ih,
          hfirst]
        rfl
      · -- what is written for another character is no slash, and goes to the first piece
        have hslash : '/' ∉ encodeChar c := fun hmem => by
          have hencoded : '/' ∈ encodeDestination [c] := by simpa using hmem
          have heq := (mem_encodeDestination_iff (by decide)).mp hencoded
          exact hc (List.mem_singleton.mp heq).symm
        have hpush : ∀ written : List Char, '/' ∉ written →
            Text.pieces (· == '/') (written ++ encodeDestination cs) =
              (written ++ encodeDestination first) :: rest.map encodeDestination := by
          intro written hwritten
          induction written with
          | nil => exact ih
          | cons d written ihw =>
              obtain ⟨hd, hrest⟩ := not_or.mp (mt List.mem_cons.mpr hwritten)
              rw [List.cons_append, Text.pieces, ihw hrest]
              simp [Ne.symm hd]
        rw [encodeDestination_cons, hpush _ hslash, Text.pieces, hfirst]
        simp [hc]

/-- **The segments of an encoded path are the encoded segments of the path.** -/
theorem segments_encodeDestination (path : List Char) :
    segments (encodeDestination path) = (segments path).map encodeDestination := by
  unfold segments
  rw [pieces_encodeDestination, List.filter_map]
  congr 2
  funext s
  have hempty : (encodeDestination s).isEmpty = s.isEmpty := by
    rw [Bool.eq_iff_iff, List.isEmpty_iff, List.isEmpty_iff, encodeDestination_eq_nil_iff]
  show (!(encodeDestination s).isEmpty) = !s.isEmpty
  rw [hempty]

/-! ## Targets -/

/-- What a link to a URI leads to as written in a document, before it is encoded. -/
def target (documentUri uri : List Char) : List Char :=
  match splitUri? documentUri, splitUri? uri with
  | some (documentScheme, documentPath), some (scheme, path) =>
    if documentScheme = scheme then
      match relativePath (directory documentPath) path with
      | [] => ['.']
      | relative => relative
    else uri
  | _, _ => uri

theorem mem_of_splitUri? {uri : List Char} {parts : List Char × List Char}
    (h : splitUri? uri = some parts) {c : Char} (hc : c ∈ parts.2) : c ∈ uri := by
  obtain ⟨⟨before, after⟩, hsplit, rfl⟩ := Option.map_eq_some_iff.mp h
  rw [Text.append_of_splitOnce? hsplit]
  have hdrop := (List.takeWhile_prefix _).subset hc
  exact List.mem_append_right _ ((List.dropWhile_suffix _).subset hdrop)

theorem mem_relativePath {source goal : List Char} {c : Char} (h : c ∈ relativePath source goal) :
    c ∈ goal ∨ c = '.' ∨ c = '/' := by
  rcases Text.mem_joinWith h with hslash | ⟨s, hs, hc⟩
  · exact .inr (.inr (List.mem_singleton.mp hslash))
  · rcases mem_steps hs with rfl | hs
    · exact .inr (.inl (by simpa using hc))
    · exact .inl (mem_of_mem_segments hs hc)

/-- A link leads to nothing that is not in the URI, but for the steps up. -/
theorem mem_target {documentUri uri : List Char} {c : Char} (h : c ∈ target documentUri uri) :
    c ∈ uri ∨ c = '.' ∨ c = '/' := by
  unfold target at h
  split at h
  next hdocument huri =>
    split at h
    · split at h
      · exact .inr (.inl (by simpa using h))
      · exact (mem_relativePath h).imp_left (mem_of_splitUri? huri)
    · exact .inl h
  next => exact .inl h

/-- **The destination of a link is its target, encoded.** -/
theorem destination_eq (documentUri uri : List Char) :
    destination documentUri uri = encodeDestination (target documentUri uri) := by
  unfold destination target
  cases splitUri? documentUri with
  | none => rfl
  | some document =>
      cases splitUri? uri with
      | none => rfl
      | some resource =>
          by_cases hscheme : document.1 = resource.1
          · simp only [if_pos hscheme]
            cases relativePath (directory document.2) resource.2 <;> rfl
          · simp only [if_neg hscheme]

end CopyPaste.Markdown

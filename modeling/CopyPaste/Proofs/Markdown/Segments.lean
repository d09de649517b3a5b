import CopyPaste.Markdown.Link

/-!
# Segments of paths

A path is read by its segments. Cutting it at a slash cuts its segments in two, so the last
segment, the directory and the way between two paths can be told from the list of segments.

* **`segments_append`** — the segments on both sides of a slash;
* **`lastSegment_eq`** — the last segment of a path is the last of its segments;
* **`directory_append`** — what stands before the last slash;
* `mem_steps`, **`take_commonCount`** — the way between two paths.
-/

namespace CopyPaste

namespace Text

/-- Cutting at a separator cuts the pieces in two. -/
theorem pieces_append {isSep : Char → Bool} {sep : Char} (hsep : isSep sep = true)
    (before after : List Char) :
    pieces isSep (before ++ sep :: after) = pieces isSep before ++ pieces isSep after := by
  induction before with
  | nil => simp [pieces, hsep]
  | cons c before ih =>
      rw [List.cons_append, pieces, pieces, ih]
      obtain ⟨first, rest, hfirst⟩ := List.exists_cons_of_ne_nil (pieces_ne_nil isSep before)
      rw [hfirst]
      split <;> rfl

/-- A text begins with its first piece, and goes on with the separator. -/
theorem exists_of_pieces_eq_cons {sep : Char} {cs first : List Char} {rest : List (List Char)}
    (h : pieces (· == sep) cs = first :: rest) :
    ∃ behind, cs = first ++ behind ∧ ∀ c ∈ behind.head?, c = sep := by
  rw [← joinWith_pieces sep cs, h]
  cases rest with
  | nil => exact ⟨[], (List.append_nil first).symm, fun c hc => absurd hc (Option.not_mem_none c)⟩
  | cons next rest =>
      refine ⟨[sep] ++ joinWith [sep] (next :: rest), ?_, fun c hc => ?_⟩
      · rw [joinWith_cons_cons, List.append_assoc]
      · exact (Option.mem_some_iff.mp hc).symm

theorem mem_of_mem_pieces {isSep : Char → Bool} {cs piece : List Char} {c : Char}
    (hpiece : piece ∈ pieces isSep cs) (hc : c ∈ piece) : c ∈ cs := by
  induction cs generalizing piece with
  | nil =>
      obtain rfl := List.mem_singleton.mp hpiece
      exact hc
  | cons d cs ih =>
      obtain ⟨first, rest, hfirst⟩ := List.exists_cons_of_ne_nil (pieces_ne_nil isSep cs)
      have hin : ∀ p ∈ first :: rest, c ∈ p → c ∈ cs := fun p hp hcp => ih (hfirst ▸ hp) hcp
      rw [pieces, hfirst] at hpiece
      split at hpiece
      · rcases List.mem_cons.mp hpiece with rfl | hpiece
        · exact absurd hc List.not_mem_nil
        · exact List.mem_cons_of_mem d (hin piece hpiece hc)
      · rcases List.mem_cons.mp hpiece with rfl | hpiece
        · rcases List.mem_cons.mp hc with rfl | hc
          · exact List.mem_cons_self
          · exact List.mem_cons_of_mem d (hin first List.mem_cons_self hc)
        · exact List.mem_cons_of_mem d (hin piece (List.mem_cons_of_mem first hpiece) hc)

theorem mem_joinWith {sep : List Char} {ps : List (List Char)} {c : Char}
    (h : c ∈ joinWith sep ps) : c ∈ sep ∨ ∃ p ∈ ps, c ∈ p := by
  induction ps with
  | nil => exact absurd h List.not_mem_nil
  | cons p rest ih =>
      cases rest with
      | nil => exact .inr ⟨p, List.mem_cons_self, h⟩
      | cons next rest =>
          rw [joinWith_cons_cons, List.append_assoc, List.mem_append, List.mem_append] at h
          rcases h with hp | hsep | hrest
          · exact .inr ⟨p, List.mem_cons_self, hp⟩
          · exact .inl hsep
          · refine (ih hrest).imp_right fun ⟨q, hq, hc⟩ => ⟨q, List.mem_cons_of_mem p hq, hc⟩

end Text

namespace Markdown

/-! ## Segments -/

theorem bne_slash {s : List Char} (h : '/' ∉ s) {c : Char} (hc : c ∈ s) : (c != '/') = true := by
  have hslash : c ≠ '/' := fun heq => h (heq ▸ hc)
  simpa using hslash

@[simp] theorem segments_nil : segments [] = [] := rfl

/-- **A slash parts the segments before it from those behind it.** -/
theorem segments_append (before after : List Char) :
    segments (before ++ '/' :: after) = segments before ++ segments after := by
  unfold segments
  rw [Text.pieces_append rfl, List.filter_append]

theorem segments_cons (path : List Char) : segments ('/' :: path) = segments path :=
  segments_append [] path

/-- A text without slashes is one segment, or none. -/
theorem segments_of_not_mem {s : List Char} (h : '/' ∉ s) (hne : s ≠ []) : segments s = [s] := by
  have hsep : ∀ c ∈ s, (c == '/') = false := fun c hc => by simpa using bne_slash h hc
  unfold segments
  rw [Text.pieces_of_not_sep hsep]
  simp [hne]

theorem ne_nil_of_mem_segments {path s : List Char} (h : s ∈ segments path) : s ≠ [] := by
  simpa using (List.mem_filter.mp h).2

theorem not_slash_of_mem_segments {path s : List Char} (h : s ∈ segments path) : '/' ∉ s := by
  intro hslash
  have hfalse := Text.not_sep_of_mem_pieces (List.mem_filter.mp h).1 hslash
  exact absurd hfalse (by decide)

theorem mem_of_mem_segments {path s : List Char} {c : Char} (h : s ∈ segments path) (hc : c ∈ s) :
    c ∈ path :=
  Text.mem_of_mem_pieces (List.mem_filter.mp h).1 hc

/-- Segments that are joined by slashes are cut at the same places. -/
theorem segments_joinWith {ss : List (List Char)} (hslash : ∀ s ∈ ss, '/' ∉ s) :
    segments (Text.joinWith ['/'] ss) = ss.filter fun s => !s.isEmpty := by
  cases ss with
  | nil => rfl
  | cons s ss => rw [segments, Text.pieces_joinWith (List.cons_ne_nil s ss) hslash]

/-! ## The last segment -/

theorem lastSegment_concat_slash (path : List Char) :
    lastSegment (path ++ ['/']) = lastSegment path := by
  simp [lastSegment, Text.dropEndWhile]

theorem lastSegment_of_not_mem {s : List Char} (h : '/' ∉ s) (before : List Char) (hne : s ≠ []) :
    lastSegment (before ++ '/' :: s) = s ∧ lastSegment s = s := by
  obtain ⟨init, c, rfl⟩ := (List.eq_nil_or_concat s).resolve_left hne
  rw [List.concat_eq_append] at h ⊢
  have hc : c ≠ '/' := fun heq => h (by simp [heq])
  have hinit : ∀ d ∈ init.reverse, (d != '/') = true := fun d hd =>
    bne_slash h (List.mem_append_left [c] (List.mem_reverse.mp hd))
  constructor
  · simp [lastSegment, Text.dropEndWhile, hc, List.takeWhile_append_of_pos hinit]
  · have hwhole : (init.reverse ++ []).takeWhile (· != '/') = init.reverse ++ [] :=
      List.takeWhile_append_of_pos hinit
    rw [List.append_nil] at hwhole
    simp [lastSegment, Text.dropEndWhile, hc, hwhole]

/-- A path has no slash, or a last one. -/
theorem exists_last_slash (path : List Char) :
    '/' ∉ path ∨ ∃ before after, path = before ++ '/' :: after ∧ '/' ∉ after := by
  induction path with
  | nil => exact .inl List.not_mem_nil
  | cons c path ih =>
      obtain hnone | ⟨before, after, rfl, hafter⟩ := ih
      · by_cases hc : c = '/'
        · exact .inr ⟨[], path, by simp [hc], hnone⟩
        · exact .inl (by simp [Ne.symm hc, hnone])
      · exact .inr ⟨c :: before, after, rfl, hafter⟩

/-- **The last segment of a path is the last of its segments,** slashes at its end aside. -/
theorem lastSegment_eq (path : List Char) :
    lastSegment path = ((segments path).getLast?).getD [] := by
  induction hn : path.length using Nat.strongRecOn generalizing path with
  | ind n ih =>
      obtain hnone | ⟨before, after, rfl, hafter⟩ := exists_last_slash path
      · cases path with
        | nil => rfl
        | cons c cs =>
            rw [segments_of_not_mem hnone (by simp),
              (lastSegment_of_not_mem hnone [] (by simp)).2]
            rfl
      · cases after with
        | nil =>
            -- the path ends with a slash, and is shorter without it
            have hlt : before.length < n := by
              rw [← hn, List.length_append, List.length_singleton]
              omega
            rw [lastSegment_concat_slash, ih before.length hlt before rfl, segments_append]
            simp
        | cons c cs =>
            rw [(lastSegment_of_not_mem hafter before (by simp)).1, segments_append,
              segments_of_not_mem hafter (by simp), List.getLast?_concat]
            rfl

/-! ## Directories -/

/-- **The directory of a path is what stands before its last slash.** -/
theorem directory_append {after : List Char} (h : '/' ∉ after) (before : List Char) :
    directory (before ++ '/' :: after) = before := by
  have hafter : ∀ c ∈ after.reverse, (c != '/') = true := fun c hc =>
    bne_slash h (List.mem_reverse.mp hc)
  simp [directory, List.dropWhile_append_of_pos hafter]

/-! ## The way between two paths -/

theorem take_commonCount (source goal : List (List Char)) :
    source.take (commonCount source goal) = goal.take (commonCount source goal) := by
  induction source generalizing goal with
  | nil => rfl
  | cons a as ih =>
      cases goal with
      | nil => rfl
      | cons b bs =>
          by_cases h : a = b
          · simp [commonCount, h, ih bs]
          · simp [commonCount, h]

theorem commonCount_le (source goal : List (List Char)) :
    commonCount source goal ≤ source.length ∧ commonCount source goal ≤ goal.length := by
  induction source generalizing goal with
  | nil => simp [commonCount]
  | cons a as ih =>
      cases goal with
      | nil => simp [commonCount]
      | cons b bs =>
          by_cases h : a = b
          · simpa [commonCount, h] using ih bs
          · simp [commonCount, h]

/-- A step goes up, or down to a segment of the goal. -/
theorem mem_steps {source goal : List (List Char)} {s : List Char} (h : s ∈ steps source goal) :
    s = ['.', '.'] ∨ s ∈ goal := by
  rcases List.mem_append.mp h with h | h
  · exact .inl (List.eq_of_mem_replicate h)
  · exact .inr (List.mem_of_mem_drop h)

end Markdown

end CopyPaste

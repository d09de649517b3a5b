import CopyPaste.Proofs.Text.Percent
import Mathlib.Data.List.Induction

/-!
# Walking paths of bytes

A file system reads a path as bytes, segment by segment: nothing and one dot stay, two dots remove
the last segment, anything else goes down. What is reached begins with some of the segments that
the walk started from, and holds nothing beyond those but segments of the path, so a path cannot
reach what takes more bytes than are there.

* `goOn`, `rootedPath`, `fileFrom` — a step, a path from the root, and the file a path leads to;
* `weight` — the bytes that segments take, with a slash before each;
* **`foldl_goOn_spec`** — what a walk keeps and what it adds, and what that weighs;
* **`foldl_goOn_up`**, **`foldl_goOn_down`** — going up only, and going down only.
-/

namespace CopyPaste.Path

open Text (utf8)

/-- One segment further on a path. -/
def goOn (here : List (List UInt8)) (s : List UInt8) : List (List UInt8) :=
  if s = [] ∨ s = utf8 ['.'] then here
  else if s = utf8 ['.', '.'] then here.dropLast
  else here ++ [s]

/-- The path from the root along segments. -/
def rootedPath (ss : List (List UInt8)) : List UInt8 := 0x2F :: [0x2F].intercalate ss

/-- The segments to which a path leads from a directory, or from the root if it begins there. -/
def walkFrom (directory : List (List UInt8)) (path : List UInt8) : List (List UInt8) :=
  (path.splitOn 0x2F).foldl goOn (if path.head? = some 0x2F then [] else directory)

/-- The file to which a path leads from a directory. -/
def fileFrom (directory : List (List UInt8)) (path : List UInt8) : List UInt8 :=
  rootedPath (walkFrom directory path)

/-! ## Weights -/

/-- The bytes that segments take, with a slash before each. -/
def weight : List (List UInt8) → Nat
  | [] => 0
  | s :: ss => s.length + 1 + weight ss

@[simp] theorem weight_nil : weight [] = 0 := rfl

@[simp] theorem weight_cons (s : List UInt8) (ss : List (List UInt8)) :
    weight (s :: ss) = s.length + 1 + weight ss := rfl

@[simp] theorem weight_append (ss ts : List (List UInt8)) :
    weight (ss ++ ts) = weight ss + weight ts := by
  induction ss with
  | nil => simp
  | cons s ss ih =>
      rw [List.cons_append, weight_cons, weight_cons, ih]
      omega

theorem weight_le_of_sublist {ss ts : List (List UInt8)} (h : ss.Sublist ts) :
    weight ss ≤ weight ts := by
  induction h with
  | slnil => exact Nat.le_refl _
  | cons s _ ih =>
      rw [weight_cons]
      omega
  | cons_cons s _ ih =>
      rw [weight_cons, weight_cons]
      omega

theorem weight_flatMap_le {α : Type} {f g : α → List (List UInt8)} {l : List α}
    (h : ∀ a ∈ l, weight (f a) ≤ weight (g a)) : weight (l.flatMap f) ≤ weight (l.flatMap g) := by
  induction l with
  | nil => exact Nat.le_refl _
  | cons a l ih =>
      obtain ⟨ha, hl⟩ := List.forall_mem_cons.mp h
      have hrest := ih hl
      rw [List.flatMap_cons, List.flatMap_cons, weight_append, weight_append]
      omega

theorem weight_flatMap_lt {α : Type} {f g : α → List (List UInt8)} {l : List α}
    (h : ∀ a ∈ l, weight (f a) ≤ weight (g a)) {a : α} (ha : a ∈ l)
    (hlt : weight (f a) < weight (g a)) : weight (l.flatMap f) < weight (l.flatMap g) := by
  obtain ⟨before, after, rfl⟩ := List.append_of_mem ha
  have hbefore := weight_flatMap_le fun b hb => h b (List.mem_append_left _ hb)
  have hafter := weight_flatMap_le fun b hb =>
    h b (List.mem_append_right _ (List.mem_cons_of_mem a hb))
  simp only [List.flatMap_append, List.flatMap_cons, weight_append]
  omega

theorem length_intercalate {ss : List (List UInt8)} (h : ss ≠ []) :
    ([0x2F].intercalate ss).length + 1 = weight ss := by
  induction ss with
  | nil => exact absurd rfl h
  | cons s rest ih =>
      cases rest with
      | nil => simp
      | cons next rest =>
          have hrest := ih (List.cons_ne_nil next rest)
          rw [List.intercalate_cons_cons, weight_cons, ← hrest]
          simp only [List.length_append, List.length_singleton]
          omega

theorem weight_splitOn (bytes : List UInt8) : weight (bytes.splitOn 0x2F) = bytes.length + 1 := by
  rw [← length_intercalate (List.splitOn_ne_nil 0x2F bytes), List.intercalate_splitOn]

/-! ## Slashes -/

/-- Joined texts are cut where they are joined, and wherever else a slash stands in them. -/
theorem splitOn_intercalate_eq_flatMap {ss : List (List UInt8)} (h : ss ≠ []) :
    ([0x2F].intercalate ss).splitOn 0x2F = ss.flatMap fun s => s.splitOn 0x2F := by
  induction ss with
  | nil => exact absurd rfl h
  | cons s rest ih =>
      cases rest with
      | nil => simp
      | cons next rest =>
          rw [List.intercalate_cons_cons, List.append_assoc, List.singleton_append,
            List.splitOn_append_cons_self, ih (List.cons_ne_nil next rest), ← List.flatMap_cons]

theorem not_slash_of_mem_splitOn {bytes s : List UInt8} (h : s ∈ bytes.splitOn 0x2F) :
    (0x2F : UInt8) ∉ s := by
  induction bytes generalizing s with
  | nil =>
      rw [List.splitOn_nil, List.mem_singleton] at h
      exact h ▸ List.not_mem_nil
  | cons byte bytes ih =>
      obtain ⟨first, rest, hfirst⟩ :=
        List.exists_cons_of_ne_nil (List.splitOn_ne_nil 0x2F bytes)
      rw [hfirst] at ih
      rw [List.splitOn_cons_eq_if_modifyHead, hfirst] at h
      split at h
      · rcases List.mem_cons.mp h with rfl | h
        · exact List.not_mem_nil
        · exact ih h
      next hbyte =>
        rcases List.mem_cons.mp h with rfl | h
        · have hne : byte ≠ 0x2F := by simpa using hbyte
          exact fun hslash => (List.mem_cons.mp hslash).elim (fun heq => hne heq.symm)
            (ih List.mem_cons_self)
        · exact ih (List.mem_cons_of_mem first h)

/-- **A path from the root tells its segments.** -/
theorem rootedPath_inj {ss ts : List (List UInt8)} (hss : ∀ s ∈ ss, s ≠ [] ∧ (0x2F : UInt8) ∉ s)
    (hts : ∀ t ∈ ts, t ≠ [] ∧ (0x2F : UInt8) ∉ t) : rootedPath ss = rootedPath ts ↔ ss = ts := by
  have hnil {us : List (List UInt8)} (hus : ∀ u ∈ us, u ≠ [] ∧ (0x2F : UInt8) ∉ u)
      (h : [0x2F].intercalate us = []) : us = [] := by
    cases us with
    | nil => rfl
    | cons u rest =>
        have hlength := length_intercalate (List.cons_ne_nil u rest)
        have hu := List.length_pos_iff.mpr (hus u List.mem_cons_self).1
        rw [h, weight_cons] at hlength
        simp only [List.length_nil] at hlength
        omega
  refine ⟨fun h => ?_, congrArg rootedPath⟩
  have hjoined : [0x2F].intercalate ss = [0x2F].intercalate ts := (List.cons.inj h).2
  by_cases hne : ss = [] ∨ ts = []
  · rcases hne with rfl | rfl
    · exact (hnil hts hjoined.symm).symm
    · exact hnil hss hjoined
  · obtain ⟨hs, ht⟩ := not_or.mp hne
    rw [← List.splitOn_intercalate 0x2F (fun s h => (hss s h).2) hs, hjoined,
      List.splitOn_intercalate 0x2F (fun t h => (hts t h).2) ht]

/-! ## Walks -/

/-- **What a walk comes to.** It keeps some of the segments it started from and adds segments of the
path; for every segment that it leaves the path holds at least a byte that is not added. -/
theorem foldl_goOn_spec (here path : List (List UInt8)) :
    ∃ kept added, path.foldl goOn here = here.take kept ++ added ∧ kept ≤ here.length ∧
      weight added + (here.length - kept) ≤ weight path ∧ ∀ s ∈ added, s ∈ path ∧ s ≠ [] := by
  induction path using List.reverseRecOn with
  | nil =>
      refine ⟨here.length, [], ?_, Nat.le_refl _, ?_, fun s hs => absurd hs List.not_mem_nil⟩
      · rw [List.take_length, List.append_nil, List.foldl_nil]
      · simp
  | append_singleton path s ih =>
      obtain ⟨kept, added, heq, hkept, hweight, hmem⟩ := ih
      have hmem' : ∀ t ∈ added, t ∈ path ++ [s] ∧ t ≠ [] := fun t ht =>
        ⟨List.mem_append_left _ (hmem t ht).1, (hmem t ht).2⟩
      have htotal : weight (path ++ [s]) = weight path + (s.length + 1) := by simp
      rw [List.foldl_append, heq, List.foldl_cons, List.foldl_nil, goOn, htotal]
      split
      · exact ⟨kept, added, rfl, hkept, by omega, hmem'⟩
      next hstay =>
        split
        · -- going up: from what was added if there is any, else from what was kept
          by_cases hadded : added = []
          · subst hadded
            refine ⟨kept - 1, [], ?_, by omega, ?_, fun t ht => absurd ht List.not_mem_nil⟩
            · rw [List.append_nil, List.append_nil, List.dropLast_eq_take, List.take_take,
                List.length_take_of_le hkept, Nat.min_eq_left (Nat.sub_le kept 1)]
            · rw [weight_nil] at hweight ⊢
              omega
          · have hlight := weight_le_of_sublist (List.dropLast_sublist added)
            refine ⟨kept, added.dropLast, ?_, hkept, by omega, fun t ht =>
              hmem' t ((List.dropLast_sublist added).subset ht)⟩
            exact List.dropLast_append_of_ne_nil hadded
        · refine ⟨kept, added ++ [s], List.append_assoc _ _ _, hkept, ?_, fun t ht => ?_⟩
          · simp only [weight_append, weight_cons, weight_nil]
            omega
          · rcases List.mem_append.mp ht with ht | ht
            · exact hmem' t ht
            · obtain rfl := List.mem_singleton.mp ht
              exact ⟨List.mem_append_right path ht, fun hempty => hstay (.inl hempty)⟩

/-- **Going up only** leaves the segments before as many of the last ones. -/
theorem foldl_goOn_up (here : List (List UInt8)) (k : Nat) :
    (List.replicate k (utf8 ['.', '.'])).foldl goOn here = here.take (here.length - k) := by
  have hstep (here : List (List UInt8)) : goOn here (utf8 ['.', '.']) = here.dropLast := by
    rw [goOn, if_neg (by decide), if_pos rfl]
  induction k generalizing here with
  | zero => simp
  | succ k ih =>
      rw [List.replicate_succ, List.foldl_cons, hstep, ih, List.length_dropLast,
        List.dropLast_eq_take, List.take_take]
      congr 1
      omega

/-- **Going down only** adds all the segments. -/
theorem foldl_goOn_down {path : List (List UInt8)}
    (h : ∀ s ∈ path, s ≠ [] ∧ s ≠ utf8 ['.'] ∧ s ≠ utf8 ['.', '.']) (here : List (List UInt8)) :
    path.foldl goOn here = here ++ path := by
  induction path generalizing here with
  | nil => rw [List.foldl_nil, List.append_nil]
  | cons s path ih =>
      obtain ⟨⟨hne, hdot, hup⟩, hpath⟩ := List.forall_mem_cons.mp h
      rw [List.foldl_cons, goOn, if_neg (not_or.mpr ⟨hne, hdot⟩), if_neg hup, ih hpath,
        List.append_assoc, List.singleton_append]

end CopyPaste.Path

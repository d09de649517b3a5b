import CopyPaste.Editor

/-!
# The order of replacements

The replacements of an edit are made from the last range to the first. Sorting keeps those that
start at the same offset as they are listed, so in the text they come to stand the other way round.
Only neighbours are compared when an edit is checked for overlaps; since no range ends before it
starts, that is enough for all pairs.

* `InOrder` — replacements as they stand in the text;
* `TextEdit.Apart`, `InsertionsLast` — what keeps replacements from overlapping;
* **`filter_mergeSort`** — sorting is stable;
* **`overlaps_mergeSort_iff`** — when an edit has no overlap, said without sorting.
-/

namespace CopyPaste

/-- Two ranges have no text in common. -/
def TextEdit.Apart (a b : TextEdit) : Prop := a.stop ≤ b.start ∨ b.stop ≤ a.start

theorem TextEdit.Apart.symm {a b : TextEdit} (h : a.Apart b) : b.Apart a := Or.symm h

namespace Editor

/-- The list has the replacements of an edit by where they start, and those that start at the same
offset in reverse listing order. -/
structure InOrder (edit : Edit) (sorted : List TextEdit) : Prop where
  ascending : sorted.Pairwise fun a b => a.start ≤ b.start
  reversed : ∀ n, sorted.filter (·.start == n) = (edit.filter (·.start == n)).reverse

/-- No insertion is listed before a replacement of more than nothing that starts where it does. -/
def InsertionsLast (edit : Edit) : Prop :=
  edit.Pairwise fun a b => a.start = b.start → a.start = a.stop → b.start = b.stop

instance (edit : Edit) : Decidable (InsertionsLast edit) :=
  inferInstanceAs (Decidable (edit.Pairwise _))

/-! ## Sorting -/

theorem laterFirst_trans (a b c : TextEdit) (hab : laterFirst a b = true)
    (hbc : laterFirst b c = true) : laterFirst a c = true := by
  simp only [laterFirst, decide_eq_true_eq] at hab hbc ⊢
  omega

theorem laterFirst_total (a b : TextEdit) : (laterFirst a b || laterFirst b a) = true := by
  simp only [laterFirst, Bool.or_eq_true, decide_eq_true_eq]
  omega

theorem mergeSort_descending (edit : Edit) :
    (edit.mergeSort laterFirst).Pairwise fun a b => b.start ≤ a.start := by
  have h := List.pairwise_mergeSort laterFirst_trans laterFirst_total edit
  refine h.imp fun {a b} hab => ?_
  simpa only [laterFirst, decide_eq_true_eq] using hab

/-- **Sorting is stable:** replacements that start at the same offset stay as they are listed. -/
theorem filter_mergeSort (edit : Edit) (n : Nat) :
    (edit.mergeSort laterFirst).filter (·.start == n) = edit.filter (·.start == n) := by
  have hlevel : (edit.filter (·.start == n)).Pairwise fun a b => laterFirst a b = true := by
    refine List.pairwise_of_forall_mem_list fun a ha b hb => ?_
    simp only [List.mem_filter, beq_iff_eq] at ha hb
    simp only [laterFirst, decide_eq_true_eq]
    omega
  have hsub := (List.sublist_mergeSort laterFirst_trans laterFirst_total hlevel
    List.filter_sublist).filter (·.start == n)
  simp only [List.filter_filter, Bool.and_self] at hsub
  have hlength := ((List.mergeSort_perm edit laterFirst).filter (·.start == n)).length_eq
  exact (hsub.eq_of_length hlength.symm).symm

/-- The order in which replacements are made is the order in which they stand, from its end. -/
theorem inOrder_mergeSort (edit : Edit) : InOrder edit (edit.mergeSort laterFirst).reverse where
  ascending := List.pairwise_reverse.mpr (mergeSort_descending edit)
  reversed n := by rw [List.filter_reverse, filter_mergeSort]

/-! ## Overlaps -/

/-- Neighbours that do not overlap are enough. -/
theorem overlaps_eq_false_iff {made : List TextEdit} (hproper : ∀ r ∈ made, r.start ≤ r.stop) :
    overlaps made = false ↔ made.Pairwise fun a b => b.stop ≤ a.start := by
  induction made with
  | nil => simp [overlaps]
  | cons a rest ih =>
      cases rest with
      | nil => simp [overlaps]
      | cons b rest =>
          have hrest := ih fun r hr => hproper r (List.mem_cons_of_mem a hr)
          have hb : b.start ≤ b.stop := hproper b (by simp)
          rw [overlaps, Bool.or_eq_false_iff, decide_eq_false_iff_not, hrest]
          constructor
          · rintro ⟨hab, hpairs⟩
            refine List.pairwise_cons.mpr ⟨?_, hpairs⟩
            intro c hc
            rcases List.mem_cons.mp hc with rfl | hc
            · omega
            · -- the range of `b` lies between the two
              have hcb : c.stop ≤ b.start := (List.pairwise_cons.mp hpairs).1 c hc
              omega
          · intro h
            obtain ⟨hhead, hpairs⟩ := List.pairwise_cons.mp h
            have hba : b.stop ≤ a.start := hhead b List.mem_cons_self
            exact ⟨by omega, hpairs⟩

/-- **When an edit has no overlap:** no two of its ranges have text in common, and its insertions
are listed behind the replacements that start where they do. -/
theorem overlaps_mergeSort_iff {edit : Edit} (hproper : ∀ r ∈ edit, r.start ≤ r.stop) :
    overlaps (edit.mergeSort laterFirst) = false ↔
      edit.Pairwise TextEdit.Apart ∧ InsertionsLast edit := by
  have hperm := List.mergeSort_perm edit laterFirst
  have hmade : ∀ r ∈ edit.mergeSort laterFirst, r.start ≤ r.stop := by
    intro r hr
    exact hproper r (hperm.mem_iff.mp hr)
  have hapart : (edit.mergeSort laterFirst).Pairwise TextEdit.Apart ↔
      edit.Pairwise TextEdit.Apart := hperm.pairwise_iff TextEdit.Apart.symm
  rw [overlaps_eq_false_iff hmade, ← hapart]
  constructor
  · intro h
    refine ⟨h.imp Or.inr, List.pairwise_iff_forall_sublist.mpr ?_⟩
    intro a b hlisted hstart hinsertion
    have hmem : b ∈ edit := hlisted.subset (by simp)
    have hlater : laterFirst a b = true := by
      simp only [laterFirst, decide_eq_true_eq]
      omega
    have hsub := List.pair_sublist_mergeSort laterFirst_trans laterFirst_total hlater hlisted
    have hclear : b.stop ≤ a.start := List.pairwise_iff_forall_sublist.mp h hsub
    have hb : b.start ≤ b.stop := hproper b hmem
    omega
  · rintro ⟨hpairs, hlast⟩
    refine List.pairwise_iff_forall_sublist.mpr ?_
    intro a b hsub
    have hsorted : b.start ≤ a.start :=
      List.pairwise_iff_forall_sublist.mp (mergeSort_descending edit) hsub
    have ha : a.start ≤ a.stop := hmade a (hsub.subset (by simp))
    rcases List.pairwise_iff_forall_sublist.mp hpairs hsub with hab | hba
    · -- `a` can only be an insertion where `b` starts, and then `b` is listed behind it
      have hstart : a.start = b.start := by omega
      have hlisted : List.Sublist [a, b] edit := by
        have h := hsub.filter (·.start == b.start)
        rw [filter_mergeSort] at h
        have hpair : [a, b].filter (·.start == b.start) = [a, b] := by simp [hstart]
        rw [hpair] at h
        exact h.trans List.filter_sublist
      have hb : b.start = b.stop :=
        List.pairwise_iff_forall_sublist.mp hlast hlisted hstart (by omega)
      omega
    · exact hba

end Editor

end CopyPaste

import CopyPaste.Proofs.Editor.Splicing

/-!
# The listing order of replacements

Whether an edit is accepted hangs on its replacements and not on their order, with one exception:
an insertion that is listed before a longer replacement of the same start is taken to reach into
it. Insertions at one offset come to stand in reverse listing order; nothing else that is accepted
shows in which order it was listed.

* **`accepts_iff`** — which edits are accepted, said without sorting;
* **`mergeSort_eq_of_perm`** — replacements listed in two ways are made in one;
* **`apply_perm`** — what comes of listing the replacements of an edit in another order.
-/

namespace CopyPaste.Editor

theorem Suits.perm {d : Document} {first second : Edit} (h : Suits d first)
    (hperm : first.Perm second) : Suits d second :=
  fun r hr => h r (hperm.mem_iff.mpr hr)

/-- **Which edits are accepted.** -/
theorem accepts_iff (e : Editor) (edit : Edit) (target : Nat) :
    (∃ e', e.apply edit target = .ok e') ↔
      target = e.id ∧ ∃ d, e.document = some d ∧ Suits d edit ∧
        edit.Pairwise TextEdit.Apart ∧ InsertionsLast edit := by
  have happlied := e.applied_apply edit target
  have hadmitted (d : Document) : refusal? d edit = none ↔
      Suits d edit ∧ edit.Pairwise TextEdit.Apart ∧ InsertionsLast edit := by
    rw [refusal?_eq_none_iff]
    exact and_congr_right fun hsuits => overlaps_mergeSort_iff hsuits.proper
  generalize e.apply edit target = result at happlied
  cases happlied with
  | otherEditor htarget => simp [htarget]
  | nothingShown htarget hshown => simp [hshown]
  | nothingAsked d htarget hshown hedit =>
      simp [htarget, hshown, hedit, Suits, InsertionsLast]
  | refused d error htarget hshown hedit hrefusal =>
      have hnot := mt (hadmitted d).mpr (by simp [hrefusal])
      simp [hshown, hnot]
  | made d text htarget hshown hedit hrefusal hmade =>
      simp [htarget, hshown, (hadmitted d).mp hrefusal]

/-- **Replacements listed in two ways are made in one,** unless two of them are insertions at one
offset. -/
theorem mergeSort_eq_of_perm {first second : Edit} (hperm : first.Perm second)
    (hproper : ∀ r ∈ first, r.start ≤ r.stop)
    (hfirst : overlaps (first.mergeSort laterFirst) = false)
    (hsecond : overlaps (second.mergeSort laterFirst) = false)
    (hinsertions : first.Pairwise fun a b =>
      a.start = a.stop → b.start = b.stop → a.start ≠ b.start) :
    first.mergeSort laterFirst = second.mergeSort laterFirst := by
  have hpf := List.mergeSort_perm first laterFirst
  have hps := (List.mergeSort_perm second laterFirst).trans hperm.symm
  have hproperf : ∀ r ∈ first.mergeSort laterFirst, r.start ≤ r.stop :=
    fun r hr => hproper r (hpf.mem_iff.mp hr)
  have hpropers : ∀ r ∈ second.mergeSort laterFirst, r.start ≤ r.stop :=
    fun r hr => hproper r (hps.mem_iff.mp hr)
  have hsymm : ∀ {a b : TextEdit},
      (a.start = a.stop → b.start = b.stop → a.start ≠ b.start) →
      b.start = b.stop → a.start = a.stop → b.start ≠ a.start :=
    fun h hb ha => (h ha hb).symm
  have hclearf := ((overlaps_eq_false_iff hproperf).mp hfirst).and
    ((hpf.pairwise_iff hsymm).mpr hinsertions)
  have hclears := ((overlaps_eq_false_iff hpropers).mp hsecond).and
    ((hps.pairwise_iff hsymm).mpr hinsertions)
  refine List.Perm.eq_of_pairwise ?_ hclearf hclears (hpf.trans hps.symm)
  -- two ranges that end before each other begins are empty and at one offset
  rintro a b ha hb ⟨hba, hdistinct⟩ ⟨hab, -⟩
  have haproper : a.start ≤ a.stop := hproperf a ha
  have hbproper : b.start ≤ b.stop := hpropers b hb
  exact absurd (by omega) (hdistinct (by omega) (by omega))

/-- **What comes of listing the replacements of an edit in another order.** When the edit is
accepted, it still is unless an insertion comes to be listed before a longer replacement of the
same start; and when it is, it comes to the same unless two replacements are insertions at one
offset. -/
theorem apply_perm (e : Editor) (target : Nat) {first second : Edit} (h : first.Perm second) :
    ((∃ e', e.apply first target = .ok e') →
      ((∃ e', e.apply second target = .ok e') ↔ InsertionsLast second)) ∧
    ∀ e₁ e₂, e.apply first target = .ok e₁ → e.apply second target = .ok e₂ →
      (first.Pairwise fun a b => a.start = a.stop → b.start = b.stop → a.start ≠ b.start) →
      e₁ = e₂ := by
  constructor
  · intro hfirst
    obtain ⟨htarget, d, hshown, hsuits, hapart, -⟩ := (accepts_iff e first target).mp hfirst
    rw [accepts_iff]
    constructor
    · rintro ⟨-, d', -, -, -, hlast⟩
      exact hlast
    · intro hlast
      exact ⟨htarget, d, hshown, hsuits.perm h,
        (h.pairwise_iff TextEdit.Apart.symm).mp hapart, hlast⟩
  · intro e₁ e₂ hfirst hsecond hinsertions
    have happlied₁ := e.applied_apply first target
    have happlied₂ := e.applied_apply second target
    rw [hfirst] at happlied₁
    rw [hsecond] at happlied₂
    cases happlied₁ with
    | nothingAsked d htarget hshown hedit =>
        subst hedit
        obtain rfl : second = [] := h.symm.eq_nil
        exact Except.ok.inj (hfirst.symm.trans hsecond)
    | made d text htarget hshown hedit hrefusal hmade =>
        cases happlied₂ with
        | nothingAsked d' htarget' hshown' hedit' =>
            subst hedit'
            exact absurd h.eq_nil hedit
        | made d' text' htarget' hshown' hedit' hrefusal' hmade' =>
            obtain rfl : d = d' := Option.some.inj (hshown.symm.trans hshown')
            obtain ⟨hsuits, hoverlaps⟩ := (refusal?_eq_none_iff d first).mp hrefusal
            obtain ⟨-, hoverlaps'⟩ := (refusal?_eq_none_iff d second).mp hrefusal'
            have hmerge := mergeSort_eq_of_perm h hsuits.proper hoverlaps hoverlaps' hinsertions
            rw [hmerge] at hmade
            obtain rfl : text = text' := Option.some.inj (hmade.symm.trans hmade')
            rw [hmerge]

/-- An editor that shows five letters. -/
def fiveLetters : Editor := { document := some ⟨"a", "l", "hello", 1⟩ }

/-- The second letter in upper case. -/
def raisedSecond : TextEdit := ⟨"a", 1, 2, "E"⟩

/-- A letter more in front of the second one. -/
def insertedSecond : TextEdit := ⟨"a", 1, 1, "x"⟩

/-- The last letter in upper case. -/
def raisedLast : TextEdit := ⟨"a", 4, 5, "O"⟩

/-- With the insertion behind the replacement of the same start, the order of the rest is free. -/
theorem raised_and_inserted_in_two_orders :
    [raisedLast, raisedSecond, insertedSecond].Perm [raisedSecond, insertedSecond, raisedLast] ∧
      ∃ e', fiveLetters.apply [raisedLast, raisedSecond, insertedSecond] 0 = .ok e' ∧
        fiveLetters.apply [raisedSecond, insertedSecond, raisedLast] 0 = .ok e' := by
  have hperm : [raisedLast, raisedSecond, insertedSecond].Perm
      [raisedSecond, insertedSecond, raisedLast] := by decide
  obtain ⟨haccepts, hsame⟩ := apply_perm fiveLetters 0 hperm
  have hsort : [raisedLast, raisedSecond, insertedSecond].mergeSort laterFirst =
      [raisedLast, raisedSecond, insertedSecond] := List.mergeSort_of_pairwise (by decide)
  have hfirst : fiveLetters.apply [raisedLast, raisedSecond, insertedSecond] 0 =
      .ok { document := some ⟨"a", "l", "hxEllO", 2⟩, selection := some (.caret 2) } := by
    unfold apply refusal?
    rw [hsort]
    rfl
  obtain ⟨e', hsecond⟩ := (haccepts ⟨_, hfirst⟩).mpr (by decide)
  obtain rfl := hsame _ e' hfirst hsecond (by decide)
  exact ⟨hperm, _, hfirst, hsecond⟩

/-- Listed the other way round, the insertion is taken to reach into the replacement. -/
theorem insertion_listed_first_overlaps :
    [raisedSecond, insertedSecond].Perm [insertedSecond, raisedSecond] ∧
      fiveLetters.apply [raisedSecond, insertedSecond] 0 =
        .ok { document := some ⟨"a", "l", "hxEllo", 2⟩, selection := some (.caret 2) } ∧
      fiveLetters.apply [insertedSecond, raisedSecond] 0 = .error .overlapping := by
  have hsort : [raisedSecond, insertedSecond].mergeSort laterFirst =
      [raisedSecond, insertedSecond] := List.mergeSort_of_pairwise (by decide)
  have hsort' : [insertedSecond, raisedSecond].mergeSort laterFirst =
      [insertedSecond, raisedSecond] := List.mergeSort_of_pairwise (by decide)
  unfold apply refusal?
  rw [hsort, hsort']
  exact ⟨by decide, rfl, rfl⟩

end CopyPaste.Editor

import CopyPaste.Coordinator.Event
import CopyPaste.Proofs.Editor
import CopyPaste.Proofs.Editor.Order

/-!
# Several replacements at once

An accepted edit comes to what one reading of the old text would give: what stands between the
ranges is kept and each range is exchanged for its new text. The replacements are made one after
the other from the end, and since no range reaches into one made before it, the text up to it is
still the old one when its turn comes. The version is counted by one; the last one of its width has
no number after it, and that alone can stop the program.

* `Suits` — replacements that a document can take, overlaps aside;
* `splice?` — the text with all ranges exchanged, read from the old text;
* **`replaceAll?_reverse`** — replacing from the end is splicing;
* `applyWith?_cases` — what can stop the program on the way;
* **`apply_transactional`** — an edit is made as a whole or not at all.
-/

namespace CopyPaste

namespace Text

theorem start_le_stop_of_cut? {cs : List Char} {start stop : Nat}
    (h : (cut? cs start stop).isSome = true) : start ≤ stop := by
  unfold cut? at h
  split at h
  next hle => exact hle
  · simp at h

theorem slice?_eq_some_iff {text piece : String} {start stop : Nat} :
    slice? text start stop = some piece ↔ ∃ before after,
      text.toList = before ++ piece.toList ++ after ∧ start = width before ∧
        stop = width before + width piece.toList := by
  unfold slice?
  rw [Option.map_eq_some_iff]
  constructor
  · rintro ⟨⟨before, mid, after⟩, hcut, rfl⟩
    rw [String.toList_ofList]
    exact ⟨before, after, cut?_eq_some_iff.mp hcut⟩
  · rintro ⟨before, after, h⟩
    exact ⟨(before, piece.toList, after), cut?_eq_some_iff.mpr h, String.ofList_toList⟩

end Text

namespace Editor

/-! ## Which edits are refused -/

/-- Every replacement names the document and has a range that is usable in it. -/
def Suits (d : Document) (edit : Edit) : Prop :=
  ∀ r ∈ edit, r.uri = d.uri ∧ (Text.cut? d.text.toList r.start r.stop).isSome = true

theorem Suits.proper {d : Document} {edit : Edit} (h : Suits d edit) :
    ∀ r ∈ edit, r.start ≤ r.stop :=
  fun r hr => Text.start_le_stop_of_cut? (h r hr).2

theorem refusal?_eq_none_iff (d : Document) (edit : Edit) :
    refusal? d edit = none ↔
      Suits d edit ∧ overlaps (edit.mergeSort laterFirst) = false := by
  have hnamed : (edit.find? fun r => r.uri != d.uri) = none ↔ ∀ r ∈ edit, r.uri = d.uri := by
    simp
  have husable : (edit.find? fun r => (Text.slice? d.text r.start r.stop).isNone) = none ↔
      ∀ r ∈ edit, (Text.cut? d.text.toList r.start r.stop).isSome = true := by
    simp [slice?_isNone, Option.isSome_iff_ne_none]
  have hsuits : Suits d edit ↔ (edit.find? fun r => r.uri != d.uri) = none ∧
      (edit.find? fun r => (Text.slice? d.text r.start r.stop).isNone) = none := by
    rw [hnamed, husable]
    exact ⟨fun h => ⟨fun r hr => (h r hr).1, fun r hr => (h r hr).2⟩,
      fun h r hr => ⟨h.1 r hr, h.2 r hr⟩⟩
  unfold refusal?
  rw [hsuits]
  cases edit.find? fun r => r.uri != d.uri with
  | some r => simp
  | none =>
      cases edit.find? fun r => (Text.slice? d.text r.start r.stop).isNone with
      | some r => simp
      | none => cases overlaps (edit.mergeSort laterFirst) <;> simp

/-! ## Replacing from the end -/

theorem replaceAll?_append (text : String) (first second : List TextEdit) :
    replaceAll? text (first ++ second) =
      (replaceAll? text first).bind fun between => replaceAll? between second := by
  induction first generalizing text with
  | nil => rfl
  | cons r rest ih =>
      rw [List.cons_append, replaceAll?, replaceAll?, Option.bind_assoc]
      exact congrArg _ (funext fun between => ih between)

/-- No replacement is made whose range is unusable in the text at that point. -/
theorem usable_of_replaceAll? {text final : String} {first second : List TextEdit} {r : TextEdit}
    (h : replaceAll? text (first ++ r :: second) = some final) : ∃ between,
      replaceAll? text first = some between ∧
        (Text.cut? between.toList r.start r.stop).isSome = true := by
  rw [replaceAll?_append] at h
  obtain ⟨between, hfirst, hrest⟩ := Option.bind_eq_some_iff.mp h
  refine ⟨between, hfirst, ?_⟩
  rw [replaceAll?] at hrest
  obtain ⟨after, hreplace, -⟩ := Option.bind_eq_some_iff.mp hrest
  obtain ⟨parts, hcut, -⟩ := Option.map_eq_some_iff.mp hreplace
  rw [hcut]
  rfl

/-- The text from an offset on with ranges exchanged for new texts. The ranges come in the order
in which they stand, and what lies between them is kept. -/
def splice? (text : String) : Nat → List TextEdit → Option String
  | start, [] => Text.slice? text start text.utf8ByteSize
  | start, r :: rest =>
    (Text.slice? text start r.start).bind fun kept =>
      (splice? text r.stop rest).map fun spliced => kept ++ r.text ++ spliced

/-- **Replacing from the end is splicing.** `left` is what stands before all ranges; it is not
touched, so the induction can go from the first range to the last. -/
theorem replaceAll?_reverse {text : String} {sorted : List TextEdit} {left right : List Char}
    (htext : text.toList = left ++ right) (hleft : ∀ r ∈ sorted, Text.width left ≤ r.start)
    (hclear : sorted.Pairwise fun a b => a.stop ≤ b.start)
    (husable : ∀ r ∈ sorted, (Text.cut? text.toList r.start r.stop).isSome = true) :
    ∃ spliced, splice? text (Text.width left) sorted = some spliced ∧
      replaceAll? text sorted.reverse = some (String.ofList left ++ spliced) := by
  induction sorted generalizing left right with
  | nil =>
      have hwhole : Text.slice? text (Text.width left) text.utf8ByteSize =
          some (String.ofList right) := by
        refine Text.slice?_eq_some_iff.mpr ⟨left, [], ?_, rfl, ?_⟩
        · simpa using htext
        · have hwidth := width_eq text.toList
          rw [String.ofList_toList, htext, Text.width_append] at hwidth
          simpa using hwidth.symm
      refine ⟨String.ofList right, hwhole, ?_⟩
      rw [← String.ofList_append, ← htext, String.ofList_toList]
      rfl
  | cons r rest ih =>
      obtain ⟨⟨before, mid, after⟩, hcut⟩ := Option.isSome_iff_exists.mp
        (husable r List.mem_cons_self)
      obtain ⟨hsplit, hstart, hstop⟩ := Text.cut?_eq_some_iff.mp hcut
      obtain ⟨hnext, hclear⟩ := List.pairwise_cons.mp hclear
      -- the ranges behind this one leave everything up to its end alone
      have hmid : Text.width (before ++ mid) = r.stop := by
        rw [Text.width_append]
        omega
      obtain ⟨spliced, hspliced, hmade⟩ := ih hsplit
        (fun q hq => by rw [hmid]; exact hnext q hq) hclear
        fun q hq => husable q (List.mem_cons_of_mem r hq)
      obtain ⟨kept, hkept⟩ : ∃ kept, before = left ++ kept := by
        have hwidth : Text.width left ≤ Text.width before := by
          rw [← hstart]
          exact hleft r List.mem_cons_self
        rw [htext, List.append_assoc] at hsplit
        rcases List.append_eq_append_iff.mp hsplit with ⟨kept, hkept, -⟩ | ⟨more, hmore, -⟩
        · exact ⟨kept, hkept⟩
        · -- the offset lies at the end of `before` after all
          cases more with
          | nil => exact ⟨[], by rw [hmore]; simp⟩
          | cons c more =>
              have hc := Char.utf8Size_pos c
              rw [hmore, Text.width_append, Text.width_cons] at hwidth
              omega
      have hslice : Text.slice? text (Text.width left) r.start = some (String.ofList kept) := by
        refine Text.slice?_eq_some_iff.mpr ⟨left, mid ++ after, ?_, rfl, ?_⟩
        · rw [hsplit, hkept, String.toList_ofList]
          simp
        · rw [hstart, hkept, Text.width_append, String.toList_ofList]
      have hreplace : Text.replace? (String.ofList (before ++ mid) ++ spliced) r.start r.stop
          r.text = some (String.ofList (before ++ r.text.toList ++ spliced.toList)) := by
        have hcut' : Text.cut? (String.ofList (before ++ mid) ++ spliced).toList r.start r.stop =
            some (before, mid, spliced.toList) :=
          Text.cut?_eq_some_iff.mpr ⟨by simp, hstart, hstop⟩
        unfold Text.replace?
        rw [hcut']
        rfl
      refine ⟨String.ofList kept ++ r.text ++ spliced, ?_, ?_⟩
      · rw [splice?, hslice, Option.bind_some, ← hmid, hspliced]
        rfl
      · rw [List.reverse_cons, replaceAll?_append, hmade, Option.bind_some, replaceAll?, hreplace]
        simp [replaceAll?, hkept, String.ofList_append, String.append_assoc]

/-- The replacements of an edit that is not refused are all made, and come to splicing. -/
theorem splices_of_admitted {d : Document} {edit : Edit} (h : refusal? d edit = none) :
    ∃ text, replaceAll? d.text (edit.mergeSort laterFirst) = some text ∧
      splice? d.text 0 (edit.mergeSort laterFirst).reverse = some text := by
  obtain ⟨hsuits, hoverlaps⟩ := (refusal?_eq_none_iff d edit).mp h
  have hmem : ∀ r ∈ edit.mergeSort laterFirst, r ∈ edit :=
    fun r hr => (List.mergeSort_perm edit laterFirst).mem_iff.mp hr
  have hclear := (overlaps_eq_false_iff fun r hr => hsuits.proper r (hmem r hr)).mp hoverlaps
  have htext : d.text.toList = [] ++ d.text.toList := rfl
  obtain ⟨text, hspliced, hmade⟩ := replaceAll?_reverse htext (fun r _ => Nat.zero_le r.start)
    (List.pairwise_reverse.mpr hclear)
    (fun r hr => (hsuits r (hmem r (List.mem_reverse.mp hr))).2)
  rw [List.reverse_reverse, String.ofList_nil, String.empty_append] at hmade
  exact ⟨text, hmade, hspliced⟩

/-! ## Whole edits -/

/-- What becomes of an edit. The reasons to refuse it are looked at in this order, and an edit
that is not refused is made. -/
inductive Applied (e : Editor) (edit : Edit) (target : Nat) : Except EditError Editor → Prop
  | otherEditor (htarget : target ≠ e.id) : Applied e edit target (.error .unknownEditor)
  | nothingShown (htarget : target = e.id) (hshown : e.document = none) :
      Applied e edit target (.error .noDocument)
  | nothingAsked (d : Document) (htarget : target = e.id) (hshown : e.document = some d)
      (hedit : edit = []) : Applied e edit target (.ok e)
  | refused (d : Document) (error : EditError) (htarget : target = e.id)
      (hshown : e.document = some d) (hedit : edit ≠ [])
      (hrefusal : refusal? d edit = some error) : Applied e edit target (.error error)
  | made (d : Document) (text : String) (htarget : target = e.id)
      (hshown : e.document = some d) (hedit : edit ≠ []) (hrefusal : refusal? d edit = none)
      (hmade : replaceAll? d.text (edit.mergeSort laterFirst) = some text) :
      Applied e edit target (.ok { e with
        document := some (d.withText text)
        selection := some (.caret (caretAfter (edit.mergeSort laterFirst))) })

theorem applied_apply (e : Editor) (edit : Edit) (target : Nat) :
    Applied e edit target (e.apply edit target) := by
  unfold apply
  by_cases htarget : target = e.id
  · rw [if_neg (not_not_intro htarget)]
    split
    next hshown => exact .nothingShown htarget hshown
    next d hshown =>
      by_cases hedit : edit = []
      · rw [if_pos (List.isEmpty_iff.mpr hedit)]
        exact .nothingAsked d htarget hshown hedit
      · rw [if_neg (fun h => hedit (List.isEmpty_iff.mp h))]
        split
        next error hrefusal => exact .refused d error htarget hshown hedit hrefusal
        next hrefusal =>
          obtain ⟨text, hmade, -⟩ := splices_of_admitted hrefusal
          dsimp only
          rw [hmade]
          exact .made d text htarget hshown hedit hrefusal hmade
  · rw [if_pos htarget]
    exact .otherEditor htarget

/-- What an edit with replacements makes of an editor. The replacements come in the order in which
they stand, each behind the one before it, and `first` is the first of them. The version grows by
one as long as it can. -/
def Rewrites (e e' : Editor) (edit : Edit) : Prop :=
  ∃ d first rest text version, e.document = some d ∧ Suits d edit ∧ InOrder edit (first :: rest) ∧
    (first :: rest).Pairwise (fun a b => a.stop ≤ b.start) ∧
    splice? d.text 0 (first :: rest) = some text ∧
    (Text.splitAt? text.toList (first.start + first.text.utf8ByteSize)).isSome = true ∧
    (d.version ≠ Document.lastVersion → version.toNat = d.version.toNat + 1) ∧
    (d.version = Document.lastVersion → version = 0) ∧
    e' = { e with
      document := some { d with text, version }
      selection := some (.caret (first.start + first.text.utf8ByteSize)) }

/-- The text spliced begins with what stands before the first range and with its new text. -/
theorem isSome_splitAt?_of_splice? {old text : String} {first : TextEdit} {rest : List TextEdit}
    (h : splice? old 0 (first :: rest) = some text) :
    (Text.splitAt? text.toList (first.start + first.text.utf8ByteSize)).isSome = true := by
  rw [splice?] at h
  obtain ⟨kept, hkept, hspliced⟩ := Option.bind_eq_some_iff.mp h
  obtain ⟨spliced, -, rfl⟩ := Option.map_eq_some_iff.mp hspliced
  obtain ⟨before, after, -, hbefore, hstart⟩ := Text.slice?_eq_some_iff.mp hkept
  have hwidth : first.start + first.text.utf8ByteSize =
      Text.width (kept.toList ++ first.text.toList) := by
    rw [Text.width_append, width_eq first.text.toList, String.ofList_toList]
    omega
  rw [hwidth, String.toList_append, String.toList_append, Text.splitAt?_width_append]
  rfl

/-- The replacements that are made come to the old text with all ranges exchanged, and the caret
stands behind the new text of the first of them. -/
theorem rewrites_of_admitted {e : Editor} {d : Document} {edit : Edit} {text : String}
    (hshown : e.document = some d) (hedit : edit ≠ []) (hrefusal : refusal? d edit = none)
    (hmade : replaceAll? d.text (edit.mergeSort laterFirst) = some text) :
    e.Rewrites { e with
      document := some (d.withText text)
      selection := some (.caret (caretAfter (edit.mergeSort laterFirst))) } edit := by
  have hperm := List.mergeSort_perm edit laterFirst
  obtain ⟨hsuits, hoverlaps⟩ := (refusal?_eq_none_iff d edit).mp hrefusal
  have hclear := (overlaps_eq_false_iff fun r hr =>
    hsuits.proper r (hperm.mem_iff.mp hr)).mp hoverlaps
  obtain ⟨text', hmade', hspliced⟩ := splices_of_admitted hrefusal
  obtain rfl : text' = text := Option.some.inj (hmade'.symm.trans hmade)
  obtain ⟨first, rest, hsorted⟩ :
      ∃ first rest, (edit.mergeSort laterFirst).reverse = first :: rest := by
    refine List.exists_cons_of_ne_nil ?_
    intro hnil
    rw [List.reverse_eq_nil_iff] at hnil
    rw [hnil] at hperm
    exact hedit hperm.nil_eq.symm
  have hcaret : caretAfter (edit.mergeSort laterFirst) =
      first.start + first.text.utf8ByteSize := by
    unfold caretAfter
    rw [← List.head?_reverse, hsorted, List.head?_cons]
  have horder := inOrder_mergeSort edit
  have hreversed := List.pairwise_reverse.mpr hclear
  rw [hsorted] at hspliced horder hreversed
  have hversion := d.toNat_version_withText text'
  rw [hcaret]
  refine ⟨d, first, rest, text', (d.withText text').version, hshown, hsuits, horder, hreversed,
    hspliced, isSome_splitAt?_of_splice? hspliced, fun hlast => ?_, fun hlast => ?_, rfl⟩
  · rwa [if_neg hlast] at hversion
  · rw [if_pos hlast] at hversion
    exact UInt32.toNat_inj.mp hversion

/-- An accepted edit finds the last version already reached, in a build that checks for that. -/
def Overflows (overflow : Overflow) (e : Editor) (edit : Edit) (target : Nat) : Prop :=
  overflow = .stops ∧ edit ≠ [] ∧
    (∃ d, e.document = some d ∧ d.version = Document.lastVersion) ∧
    ∃ e', e.apply edit target = .ok e'

/-- Nothing but the version can stop the program: no range is ever unusable when its turn comes. -/
theorem applyWith?_cases (overflow : Overflow) (e : Editor) (edit : Edit) (target : Nat) :
    Overflows overflow e edit target ∧ e.applyWith? overflow edit target = none ∨
      ¬ Overflows overflow e edit target ∧
        e.applyWith? overflow edit target = some (e.apply edit target) := by
  have happlied := e.applied_apply edit target
  unfold Overflows
  generalize e.apply edit target = result at happlied
  cases happlied with
  | otherEditor htarget => exact .inr ⟨by simp, by simp [applyWith?, htarget]⟩
  | nothingShown htarget hshown => exact .inr ⟨by simp, by simp [applyWith?, htarget, hshown]⟩
  | nothingAsked d htarget hshown hedit =>
      exact .inr ⟨by simp [hedit], by simp [applyWith?, htarget, hshown, hedit]⟩
  | refused d error htarget hshown hedit hrefusal =>
      exact .inr ⟨by simp, by simp [applyWith?, htarget, hshown, hedit, hrefusal]⟩
  | made d text htarget hshown hedit hrefusal hmade =>
      have hnext : e.applyWith? overflow edit target =
          (d.next? text overflow).map fun next => .ok { e with
            document := some next
            selection := some (.caret (caretAfter (edit.mergeSort laterFirst))) } := by
        simp [applyWith?, htarget, hshown, hedit, hrefusal, hmade]
      rw [hnext]
      cases hcounted : d.next? text overflow with
      | none =>
          obtain ⟨hstops, hlast⟩ := Document.next?_eq_none_iff.mp hcounted
          exact .inl ⟨⟨hstops, hedit, ⟨d, hshown, hlast⟩, _, rfl⟩, rfl⟩
      | some next =>
          obtain rfl := Document.eq_withText_of_next? hcounted
          refine .inr ⟨?_, rfl⟩
          rintro ⟨hstops, -, ⟨d', hshown', hlast⟩, -⟩
          obtain rfl := Option.some.inj (hshown.symm.trans hshown')
          rw [Document.next?_eq_none_iff.mpr ⟨hstops, hlast⟩] at hcounted
          cases hcounted

/-- Insertions at one offset come to stand in reverse listing order, and the caret behind what
replaced the first range. -/
example :
    (({ document := some ⟨"a", "l", "aöb c", 1⟩ } : Editor).apply
      [⟨"a", 5, 6, "Z"⟩, ⟨"a", 3, 3, "x"⟩, ⟨"a", 1, 3, "oe"⟩, ⟨"a", 3, 3, "y"⟩] 0).toOption =
    some { document := some ⟨"a", "l", "aoeyxb Z", 2⟩, selection := some (.caret 3) } := by
  cbv

/-- The last version is followed by version 0, unless the build checks for overflow. -/
example : let e : Editor := { document := some ⟨"u", "l", "ab", Document.lastVersion⟩ }
    e.applyWith? .stops [⟨"u", 1, 2, "c"⟩] 0 = none ∧
      e.applyWith? .wraps [⟨"u", 1, 2, "c"⟩] 0 =
        some (.ok { document := some ⟨"u", "l", "ac", 0⟩, selection := some (.caret 2) }) := by
  cbv

end Editor

end CopyPaste

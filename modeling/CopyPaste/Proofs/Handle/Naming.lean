import CopyPaste.Coordinator.Basic
import CopyPaste.Proofs.Handle

/-!
# Which texts name a copy

A text on the clipboard names the pending copy if it spells the handle of that copy, in one of the
four ways and in any mix of cases. One spelling stands within another one in two places only: the
hyphenated digits between braces, and behind the start of the urn spelling. So nothing else can be
added to a text that names a copy, or cut from it.

* `Spelling.Frame` — what stands around one spelling where another one is;
* **`frame_of_within`** — nothing else stands around a spelling within another one;
* **`parse?_within_iff`** — when a text is read with and without what stands around it;
* **`spelling_spec`** — writing, reading and recognising handles;
* `SpelledByDigits` — what would be read if only the digits could be in either case.
-/

namespace CopyPaste.Handle

/-! ## What stands around a spelling -/

/-- What stands around one spelling of a handle where another one is. -/
inductive Spelling.Frame : Spelling → Spelling → List Char → List Char → Prop
  | same (s : Spelling) : Frame s s [] []
  | braces : Frame .hyphenated .braced ['\x7b'] ['\x7d']
  | urn : Frame .hyphenated .urn ['u', 'r', 'n', ':', 'u', 'u', 'i', 'd', ':'] []

/-- A framed handle is the same handle. -/
theorem spell_of_frame {s s' : Spelling} {before behind : List Char}
    (hframe : s.Frame s' before behind) (h : Handle) :
    before ++ (h.spell s ++ behind) = h.spell s' := by
  cases hframe with
  | same => simp
  | braces => rfl
  | urn => simp [spell]

section Within

variable {h h' : Handle} {s s' : Spelling} {before behind : List Char}
  (heq : before ++ (h.spell s ++ behind) = h'.spell s')
include heq

theorem length_within : before.length + (s.length + behind.length) = s'.length := by
  rw [← length_spell h s, ← length_spell h' s', ← heq, List.length_append, List.length_append]

/-- A character of the outer spelling that is none of the inner one stands on either side of it. -/
theorem outside_of_within {k : Nat} {c : Char} (hc : (h'.spell s')[k]? = some c)
    (hnot : c ∉ h.spell s) : k < before.length ∨ before.length + s.length ≤ k := by
  by_contra hinside
  have hfrom : before.length ≤ k := by omega
  have hto : k - before.length < (h.spell s).length := by
    rw [length_spell]
    omega
  rw [← heq, List.getElem?_append_right hfrom, List.getElem?_append_left hto] at hc
  exact hnot (List.mem_of_getElem? hc)

theorem frame_same (hlength : s.length = s'.length) : s.Frame s' before behind := by
  have hall := length_within heq
  obtain rfl := Spelling.length_inj hlength
  obtain rfl : before = [] := List.length_eq_zero_iff.mp (by omega)
  obtain rfl : behind = [] := List.length_eq_zero_iff.mp (by omega)
  exact .same s

end Within

/-- The digits alone stand in no other spelling, where the first hyphen would be one of them. -/
theorem plain_of_within {h h' : Handle} {s' : Spelling} {before behind : List Char}
    (heq : before ++ (h.spell .plain ++ behind) = h'.spell s') : s' = .plain := by
  have hall := length_within heq
  have hhyphen : ∀ k, (h'.spell s')[k]? = some '-' → k < before.length ∨ before.length + 32 ≤ k :=
    fun k hk => outside_of_within heq hk (not_mem_digits (by decide))
  cases s' with
  | plain => rfl
  | hyphenated =>
      have hall : before.length + (32 + behind.length) = 36 := hall
      have hfirst := hhyphen 8 rfl
      omega
  | braced =>
      have hall : before.length + (32 + behind.length) = 38 := hall
      have hfirst := hhyphen 9 rfl
      omega
  | urn =>
      have hall : before.length + (32 + behind.length) = 45 := hall
      have hfirst := hhyphen 17 rfl
      omega

/-- The groups stand between braces only with a brace on either side. -/
theorem frame_braces {h h' : Handle} {before behind : List Char}
    (heq : before ++ (h.spell .hyphenated ++ behind) = h'.spell .braced) :
    Spelling.Frame .hyphenated .braced before behind := by
  have hall : before.length + (36 + behind.length) = 38 := length_within heq
  have hopen : 0 < before.length ∨ before.length + 36 ≤ 0 :=
    outside_of_within heq rfl (not_mem_grouped (by decide) (by decide))
  have hclose : 37 < before.length ∨ before.length + 36 ≤ 37 :=
    outside_of_within heq rfl (not_mem_grouped (by decide) (by decide))
  have hbefore : before.length = 1 := by omega
  obtain rfl : before = ['\x7b'] := by
    rw [← List.take_left' hbefore, heq]
    rfl
  have hgroups : (h.spell .hyphenated).length = 36 := length_spell h .hyphenated
  obtain rfl : behind = ['\x7d'] :=
    calc behind
      _ = (h.spell .hyphenated ++ behind).drop 36 := (List.drop_left' hgroups).symm
      _ = (h'.spell .braced).drop 37 := congrArg (List.drop 37) heq
      _ = ['\x7d'] := rfl
  exact .braces

/-- The groups stand at the end of the urn spelling only behind all of its start. -/
theorem frame_urn {h h' : Handle} {before behind : List Char}
    (heq : before ++ (h.spell .hyphenated ++ behind) = h'.spell .urn) :
    Spelling.Frame .hyphenated .urn before behind := by
  have hall : before.length + (36 + behind.length) = 45 := length_within heq
  have hcolon : 8 < before.length ∨ before.length + 36 ≤ 8 :=
    outside_of_within heq rfl (not_mem_grouped (by decide) (by decide))
  have hbefore : before.length = 9 := by omega
  obtain rfl : before = ['u', 'r', 'n', ':', 'u', 'u', 'i', 'd', ':'] := by
    rw [← List.take_left' hbefore, heq]
    rfl
  obtain rfl : behind = [] := List.length_eq_zero_iff.mp (by omega)
  exact .urn

theorem brace_not_mem_urn (h : Handle) : '\x7b' ∉ h.spell .urn := by
  rw [spell, List.mem_append, not_or]
  exact ⟨by decide, not_mem_grouped (by decide) (by decide)⟩

/-- **What stands around a spelling within another one.** Between braces or behind the start of
the urn spelling the groups are a spelling again, and nothing else is. -/
theorem frame_of_within {h h' : Handle} {s s' : Spelling} {before behind : List Char}
    (heq : before ++ (h.spell s ++ behind) = h'.spell s') : s.Frame s' before behind := by
  by_cases hlength : s.length = s'.length
  · exact frame_same heq hlength
  have hlt : s.length < s'.length := by
    have hall := length_within heq
    omega
  cases s with
  | plain => exact absurd (congrArg Spelling.length (plain_of_within heq).symm) hlength
  | hyphenated =>
      cases s' with
      | plain => exact absurd hlt (by decide)
      | hyphenated => exact absurd hlt (by decide)
      | braced => exact frame_braces heq
      | urn => exact frame_urn heq
  | braced =>
      cases s' with
      | plain => exact absurd hlt (by decide)
      | hyphenated => exact absurd hlt (by decide)
      | braced => exact absurd hlt (by decide)
      | urn =>
          refine absurd ?_ (brace_not_mem_urn h')
          rw [← heq]
          simp [spell]
  | urn => cases s' <;> exact absurd hlt (by decide)

/-- **When a text is read with and without what stands around it:** it spells the same handle both
times, and what stands around it is a frame. -/
theorem parse?_within_iff {h h' : Handle} {before raw behind : String} :
    parse? raw = some h ∧ parse? (before ++ raw ++ behind) = some h' ↔
      h = h' ∧ ∃ s s', h.SpelledAs s raw ∧
        s.Frame s' before.toLower.toList behind.toLower.toList := by
  simp only [parse?_eq_some_iff, SpelledAs, toList_toLower, String.toList_append, List.map_append,
    List.append_assoc]
  constructor
  · rintro ⟨⟨s, hs⟩, s', hs'⟩
    rw [hs] at hs'
    have hframe := frame_of_within hs'
    rw [spell_of_frame hframe] at hs'
    exact ⟨(spell_inj hs').1, s, s', hs, hframe⟩
  · rintro ⟨rfl, s, s', hs, hframe⟩
    exact ⟨⟨s, hs⟩, s', by rw [hs, spell_of_frame hframe]⟩

/-! ## Handles on the clipboard -/

/-- **Handles on the clipboard.** A handle is written hyphenated and in lower case, and no two
handles have one text. A text is read as a handle if it spells that handle in one of the four ways,
in any mix of cases, and no other text is read. Only a frame can be added to a text that is read, or
cut from it. A text is taken for the handle of the pending copy if it spells that very handle. -/
theorem spelling_spec (h h' : Handle) (before raw behind : String) (m : Coordinator) (i : Nat) :
    (parse? h.text = some h ∧ h.text.toList = h.spell .hyphenated ∧ h.text.toLower = h.text ∧
      Function.Injective text) ∧
    (parse? raw = some h ↔ ∃ s, h.SpelledAs s raw) ∧
    (parse? raw = none ↔ ∀ (g : Handle) (s : Spelling), ¬ g.SpelledAs s raw) ∧
    (parse? raw = some h ∧ parse? (before ++ raw ++ behind) = some h' ↔
      h = h' ∧ ∃ s s', h.SpelledAs s raw ∧
        s.Frame s' before.toLower.toList behind.toLower.toList) ∧
    (m.correlate? raw = some i ↔
      m.pending = some i ∧ ∃ c s, m.copies[i]? = some c ∧ c.handle.SpelledAs s raw) := by
  refine ⟨⟨parse?_text h, toList_text h, toLower_text h, text_injective⟩, parse?_eq_some_iff,
    parse?_eq_none_iff, parse?_within_iff, ?_⟩
  rw [Coordinator.correlate?_eq_some_iff]
  simp only [parse?_eq_some_iff, exists_and_left]

/-! ## The start of the urn spelling -/

/-- A text that spells a handle with nothing but its digits in either case: the start of the urn
spelling, which has the only other letters, is in lower case. -/
def SpelledByDigits (h : Handle) (s : Spelling) (raw : String) : Prop :=
  h.SpelledAs s raw ∧ (s = .urn → urnStart <+: raw.toList)

/-- The start of the urn spelling is recognised in capitals as well. -/
theorem parse?_of_capital_start :
    parse? "URN:UUID:67e55044-10b1-426f-9247-bb680e5fe0c8" =
        some ⟨0x67e5504410b1426f9247bb680e5fe0c8⟩ ∧
      ∀ (h : Handle) (s : Spelling),
        ¬ h.SpelledByDigits s "URN:UUID:67e55044-10b1-426f-9247-bb680e5fe0c8" := by
  have hurn : SpelledAs ⟨0x67e5504410b1426f9247bb680e5fe0c8⟩ .urn
      "URN:UUID:67e55044-10b1-426f-9247-bb680e5fe0c8" := by decide +kernel
  refine ⟨parse?_eq_some_iff.mpr ⟨.urn, hurn⟩, ?_⟩
  rintro h s ⟨hspelled, hstart⟩
  obtain ⟨-, rfl⟩ := spell_inj (hspelled.symm.trans hurn)
  have hcapital : ¬ urnStart <+: "URN:UUID:67e55044-10b1-426f-9247-bb680e5fe0c8".toList := by
    decide
  exact hcapital (hstart rfl)

end CopyPaste.Handle

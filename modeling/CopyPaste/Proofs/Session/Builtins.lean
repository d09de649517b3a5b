import CopyPaste.Registry

/-!
# The built-in providers

What a session registers at its start, and in which order the built-in providers come for a
document.

* **`copiers_defaults`**, **`pasters_defaults`** — the providers for a document.
-/

namespace CopyPaste

namespace Selector

theorem score_any (d : Document) : any.score d = if d.language = "*" then 10 else 5 := by
  by_cases h : d.language = "*"
  · simp [score, any, addWord?, addPattern?, wordScore, h]
  · simp [score, any, addWord?, addPattern?, wordScore, h, Ne.symm h]

theorem score_ofLanguage {language : String} (hany : language ≠ "*") (d : Document) :
    (ofLanguage language).score d = if d.language = language then 10 else 0 := by
  by_cases h : d.language = language
  · simp [score, ofLanguage, addWord?, addPattern?, wordScore, h]
  · simp [score, ofLanguage, addWord?, addPattern?, wordScore, h, Ne.symm h, hany]

end Selector

namespace Registry

/-- Two registrations of which the second comes first. -/
theorem mergeSort_pair {d : Document} {a b : Registration} (h : precedes d a b = false) :
    [a, b].mergeSort (precedes d) = [b, a] := by
  simp [List.mergeSort, List.MergeSort.Internal.splitInTwo, h]

theorem ordered_defaults (d : Document) : (registerDefaults {}).ordered d =
    if d.language = markdownLanguage then [.uriListLinks, .sourceSnippet]
    else [.sourceSnippet] := by
  have hmarkdown : markdownLanguage ≠ "*" := by decide
  unfold ordered matching registerDefaults register
  by_cases h : d.language = markdownLanguage
  · have hany : Selector.any.score d = 5 := by
      rw [Selector.score_any, if_neg (by rw [h]; exact hmarkdown)]
    have hlinks : (Selector.ofLanguage markdownLanguage).score d = 10 := by
      rw [Selector.score_ofLanguage hmarkdown, if_pos h]
    have hprecedes : precedes d ⟨0, .any, .sourceSnippet⟩
        ⟨1, .ofLanguage markdownLanguage, .uriListLinks⟩ = false := by
      simp [precedes, hany, hlinks]
    rw [if_pos h]
    simp [hany, hlinks, mergeSort_pair hprecedes]
  · have hany : Selector.any.score d ≠ 0 := by
      rw [Selector.score_any]
      split <;> decide
    have hlinks : (Selector.ofLanguage markdownLanguage).score d = 0 := by
      rw [Selector.score_ofLanguage hmarkdown, if_neg h]
    rw [if_neg h]
    simp [hany, hlinks]

/-- **One built-in provider takes part in copying,** for every document. -/
theorem copiers_defaults (d : Document) :
    (registerDefaults {}).copiers d = [("source-snippet", [.setSnippet])] := by
  unfold copiers orderedWith
  rw [ordered_defaults]
  split <;> rfl

/-- **Links come before snippets,** and only markdown documents take links. -/
theorem pasters_defaults (d : Document) : (registerDefaults {}).pasters d =
    if d.language = markdownLanguage then
      [("markdown-uri-list", [.insertLinks]), ("source-snippet", [.insertSnippet])]
    else [("source-snippet", [.insertSnippet])] := by
  unfold pasters orderedWith
  rw [ordered_defaults]
  split <;> rfl

end Registry

end CopyPaste

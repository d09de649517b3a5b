import CopyPaste.UriList
import Mathlib.Data.List.Basic

/-!
# Reading back a list of URIs

A list is written with CRLF between its texts and read line by line. As long as no text has a line
feed of its own, the lines are the texts again, but for an empty one at the end. What blanks and
carriage returns a text has around it is trimmed away, so the entries of the list are exactly the
texts that are something else than a comment once trimmed.

* `listed` — the URIs among texts;
* **`Text.lines_joinWith`** — the lines of texts that were joined with CRLF;
* **`parse_intercalate`** — the URIs of a list are the URIs among its texts.
-/

namespace CopyPaste

namespace Text

theorem joinWith_eq_intercalate (sep : List Char) (ps : List (List Char)) :
    joinWith sep ps = sep.intercalate ps := by
  induction ps with
  | nil => rfl
  | cons piece rest ih =>
      cases rest with
      | nil => simp [joinWith]
      | cons next rest => rw [joinWith_cons_cons, ih, List.intercalate_cons_cons]

/-- The carriage return that stands before a line feed is no part of the line. -/
theorem dropReturn_append (line : List Char) : dropReturn (line ++ ['\r']) = line := by
  unfold dropReturn
  rw [if_pos List.getLast?_concat, List.dropLast_concat]

/-- **The lines of texts that were joined with CRLF** are these texts, but for an empty one at the
end. Texts may have carriage returns of their own, only one is taken from each line. -/
theorem lines_joinWith {texts : List (List Char)} (h : ∀ text ∈ texts, '\n' ∉ text) :
    lines (joinWith ['\r', '\n'] texts) =
      if texts.getLast? = some [] then texts.dropLast else texts := by
  have hsep : ∀ text ∈ texts, ∀ c ∈ text, (c == '\n') = false := by
    intro text htext c hc
    have hne : c ≠ '\n' := fun he => h text htext (he ▸ hc)
    simpa using hne
  unfold lines
  induction texts with
  | nil => rfl
  | cons text rest ih =>
      cases rest with
      | nil =>
          rw [joinWith, pieces_of_not_sep (hsep text List.mem_cons_self)]
          cases text <;> rfl
      | cons next rest =>
          have hline : ∀ c ∈ text ++ ['\r'], (c == '\n') = false := by
            intro c hc
            rcases List.mem_append.mp hc with hc | hc
            · exact hsep text List.mem_cons_self c hc
            · obtain rfl := List.mem_singleton.mp hc
              rfl
          have hrest := ih (fun t ht => h t (List.mem_cons_of_mem text ht))
            fun t ht => hsep t (List.mem_cons_of_mem text ht)
          have hjoin : joinWith ['\r', '\n'] (text :: next :: rest) =
              (text ++ ['\r']) ++ '\n' :: joinWith ['\r', '\n'] (next :: rest) := by
            rw [joinWith_cons_cons]
            simp
          rw [hjoin, pieces_append_sep hline rfl]
          obtain ⟨piece, pieces, hpieces⟩ := List.exists_cons_of_ne_nil
            (pieces_ne_nil (· == '\n') (joinWith ['\r', '\n'] (next :: rest)))
          rw [hpieces] at hrest ⊢
          show dropReturn (text ++ ['\r']) :: closeLines (piece :: pieces) = _
          rw [dropReturn_append, hrest, List.getLast?_cons_cons, List.dropLast_cons_cons]
          split <;> rfl

end Text

namespace UriList

/-- The URIs among texts: every text without the blanks around it, unless nothing is left of it or
what is left is a comment. -/
def listed (texts : List String) : List String :=
  ((texts.map fun text => Text.trim text.toList).filter fun uri =>
    uri ≠ [] ∧ uri.head? ≠ some '#').map String.ofList

theorem isEntry_eq (uri : List Char) : isEntry uri = decide (uri ≠ [] ∧ uri.head? ≠ some '#') := by
  cases uri with
  | nil => rfl
  | cons c cs => by_cases hc : c = '#' <;> simp [isEntry, hc]

theorem entries_joinWith {texts : List (List Char)} (h : ∀ text ∈ texts, '\n' ∉ text) :
    entries (Text.joinWith ['\r', '\n'] texts) = (texts.map Text.trim).filter isEntry := by
  unfold entries
  rw [Text.lines_joinWith h]
  split
  next hlast =>
    -- an empty text is no entry
    obtain ⟨init, rfl⟩ := List.getLast?_eq_some_iff.mp hlast
    rw [List.dropLast_concat, List.map_append, List.filter_append]
    have hempty : (List.map Text.trim [[]]).filter isEntry = [] := rfl
    rw [hempty, List.append_nil]
  · rfl

/-- **The URIs of a list are the URIs among its texts,** in their order. -/
theorem parse_intercalate {texts : List String} (h : ∀ text ∈ texts, '\n' ∉ text.toList) :
    parse (String.intercalate "\r\n" texts) = listed texts := by
  have hchars : ∀ cs ∈ texts.map String.toList, '\n' ∉ cs := by
    intro cs hcs
    obtain ⟨text, htext, rfl⟩ := List.mem_map.mp hcs
    exact h text htext
  have hjoined : (String.intercalate "\r\n" texts).toList =
      Text.joinWith ['\r', '\n'] (texts.map String.toList) := by
    rw [String.toList_intercalate, Text.joinWith_eq_intercalate]
    rfl
  unfold parse listed
  rw [hjoined, entries_joinWith hchars, List.map_map, funext isEntry_eq]
  rfl

/-- The links to a list of URIs, if there are any. -/
theorem links?_intercalate {texts : List String} (h : ∀ text ∈ texts, '\n' ∉ text.toList)
    (documentUri : String) : links? documentUri (String.intercalate "\r\n" texts) =
      if listed texts = [] then none
      else some (String.intercalate " " ((listed texts).map (Markdown.link documentUri))) := by
  unfold links?
  rw [parse_intercalate h]
  cases listed texts with
  | nil => rfl
  | cons uri rest => simp

/-- Carriage returns and blanks around a text do not count, and no comment is listed. -/
example : listed ["a\r", " # b", "", " \t", "c d\r\r"] = ["a", "c d"] := by cbv

end UriList

end CopyPaste

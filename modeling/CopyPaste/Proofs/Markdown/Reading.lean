import CopyPaste.Proofs.Markdown.Destination
import CopyPaste.Text.Ranges
import Mathlib.Data.List.Induction

/-!
# Reading links

A reader of markdown takes the text of a link from the opening bracket to the first closing one that
no backslash makes literal, and drops the backslashes that do so. Writing puts a backslash before
each bracket and none before a backslash, so a backslash of the name counts when the link is read;
and what percent-encoding leaves alone stands in the destination as it is, control characters and a
backslash at the end too.

* `readText?` — the reader, and `ReadsBack` — a link is read as it was meant;
* **`readText?_escapeText_iff`** — which names are read back;
* **`links_read_back`** — which links are.
-/

namespace CopyPaste.Markdown

/-! ## A reader -/

/-- Reads the text of a link up to the first bracket that no backslash makes literal, without the
backslashes that do so, and what follows that bracket. A text with an opening bracket that is not
made literal is none. -/
def readText? (escapable : Char → Bool) : List Char → Option (List Char × List Char)
  | [] => none
  | '\\' :: c :: cs =>
    if escapable c then (readText? escapable cs).map fun r => (c :: r.1, r.2)
    else (readText? escapable (c :: cs)).map fun r => ('\\' :: r.1, r.2)
  | c :: cs =>
    if c = ']' then some ([], cs)
    else if c = '[' then none
    else (readText? escapable cs).map fun r => (c :: r.1, r.2)

/-- The punctuation of ASCII: what a backslash makes literal in markdown. -/
def isPunctuation (c : Char) : Bool :=
  Text.inRanges [(0x21, 0x2F), (0x3A, 0x40), (0x5B, 0x60), (0x7B, 0x7E)] c.toNat

/-- The control characters of ASCII, tabs and line ends among them. -/
def isControl (c : Char) : Bool := Text.inRanges [(0x00, 0x1F), (0x7F, 0x7F)] c.toNat

/-- A text ends with a backslash that makes what follows literal: one that is not made literal
itself by the backslash before it. -/
def endsEscaping (cs : List Char) : Bool := (cs.reverse.takeWhile (· == '\\')).length % 2 == 1

/-- The path of a URI; all of it if it does not begin with a scheme. -/
def pathOf (uri : List Char) : List Char := ((splitUri? uri).map Prod.snd).getD uri

/-- The name of what a URI leads to: the last segment of its path, or all of it if there is none. -/
def resourceName (uri : List Char) : List Char := ((segments (pathOf uri)).getLast?).getD uri

/-- A link is read as one link to its destination, with the name of the resource as its text. -/
structure ReadsBack (escapable : Char → Bool) (documentUri uri : List Char) : Prop where
  /-- Behind the brackets around the text, nothing is left but the destination in parentheses. -/
  text : ∃ mark rest, (mark = [] ∨ mark = ['!']) ∧
    linkChars documentUri uri = mark ++ '[' :: rest ∧
    readText? escapable rest =
      some (resourceName uri, '(' :: (destination documentUri uri ++ [')']))
  /-- Nothing in the destination ends or splits it. -/
  plain : ∀ c ∈ destination documentUri uri, isControl c = false ∧ c ∉ delimiters
  /-- The parenthesis behind it closes the link. -/
  closed : endsEscaping (destination documentUri uri) = false

/-- Every backslash of a text stands before a character that it does not make literal. -/
def Literal (escapable : Char → Bool) (cs : List Char) : Prop :=
  ∀ before after, cs = before ++ '\\' :: after →
    ∃ c rest, after = c :: rest ∧ escapable c = false

/-! ## Texts -/

variable {escapable : Char → Bool}

theorem readText?_escaped {c : Char} (h : escapable c = true) (cs : List Char) :
    readText? escapable ('\\' :: c :: cs) =
      (readText? escapable cs).map fun r => (c :: r.1, r.2) := by
  rw [readText?, if_pos h]

theorem readText?_backslash {c : Char} (h : escapable c = false) (cs : List Char) :
    readText? escapable ('\\' :: c :: cs) =
      (readText? escapable (c :: cs)).map fun r => ('\\' :: r.1, r.2) := by
  rw [readText?, if_neg (by simp [h])]

theorem readText?_close (cs : List Char) : readText? escapable (']' :: cs) = some ([], cs) := by
  simp [readText?]

theorem readText?_open (cs : List Char) : readText? escapable ('[' :: cs) = none := by
  simp [readText?]

theorem readText?_other {c : Char} (hbackslash : c ≠ '\\') (hbracket : ¬ (c = '[' ∨ c = ']'))
    (cs : List Char) : readText? escapable (c :: cs) =
      (readText? escapable cs).map fun r => (c :: r.1, r.2) := by
  obtain ⟨hopen, hclose⟩ := not_or.mp hbracket
  simp [readText?, hbackslash, hopen, hclose]

theorem escapeText_bracket {c : Char} (h : c = '[' ∨ c = ']') (cs : List Char) :
    escapeText (c :: cs) = '\\' :: c :: escapeText cs := by
  simp [escapeText, h]

theorem escapeText_other {c : Char} (h : ¬ (c = '[' ∨ c = ']')) (cs : List Char) :
    escapeText (c :: cs) = c :: escapeText cs := by
  simp [escapeText, h]

/-- What is read was written with a backslash before each of its brackets at least. -/
theorem length_escapeText_of_readText? {cs text rest : List Char}
    (h : readText? escapable cs = some (text, rest)) :
    (escapeText text).length + 1 + rest.length ≤ cs.length := by
  have hle (c : Char) (text : List Char) :
      (escapeText (c :: text)).length ≤ 2 + (escapeText text).length := by
    by_cases hc : c = '[' ∨ c = ']'
    · rw [escapeText_bracket hc, List.length_cons, List.length_cons]
      omega
    · rw [escapeText_other hc, List.length_cons]
      omega
  fun_induction readText? escapable cs generalizing text rest with
  | case1 => simp at h
  | case2 c cs hc ih =>
      obtain ⟨r, hr, he⟩ := Option.map_eq_some_iff.mp h
      obtain ⟨rfl, rfl⟩ := Prod.mk.inj he
      have hrest := ih hr
      have hchar := hle c r.1
      simp only [List.length_cons]
      omega
  | case3 c cs hc ih =>
      obtain ⟨r, hr, he⟩ := Option.map_eq_some_iff.mp h
      obtain ⟨rfl, rfl⟩ := Prod.mk.inj he
      have hrest := ih hr
      rw [escapeText_other (by decide)]
      simp only [List.length_cons] at hrest ⊢
      omega
  | case4 cs hc =>
      simp only [Option.some.injEq, Prod.mk.injEq] at h
      obtain ⟨rfl, rfl⟩ := h
      simp only [escapeText, List.flatMap_nil, List.length_nil, List.length_cons]
      omega
  | case5 => simp at h
  | case6 c cs hother hclose hopen ih =>
      obtain ⟨r, hr, he⟩ := Option.map_eq_some_iff.mp h
      obtain ⟨rfl, rfl⟩ := Prod.mk.inj he
      have hrest := ih hr
      rw [escapeText_other (by simp [hclose, hopen])]
      simp only [List.length_cons]
      omega

theorem literal_nil : Literal escapable [] := by
  intro before after h
  simp at h

theorem literal_cons_iff {c : Char} {cs : List Char} : Literal escapable (c :: cs) ↔
    (c = '\\' → ∃ d rest, cs = d :: rest ∧ escapable d = false) ∧ Literal escapable cs := by
  constructor
  · intro h
    refine ⟨fun hc => h [] cs (by simp [hc]), fun before after hcs => ?_⟩
    exact h (c :: before) after (by simp [hcs])
  · rintro ⟨hhead, htail⟩ before after hcs
    cases before with
    | nil =>
        obtain ⟨hc, rfl⟩ := List.cons.inj hcs
        exact hhead hc
    | cons d before => exact htail before after (List.cons.inj hcs).2

theorem map_cons_eq_some_iff {found : Option (List Char × List Char)} {c d : Char}
    {cs rest : List Char} : (found.map fun r => (d :: r.1, r.2)) = some (c :: cs, rest) ↔
      d = c ∧ found = some (cs, rest) := by
  rcases found with - | ⟨text, rest'⟩ <;> simp [and_assoc]

/-- **Which names are read back:** those without a backslash that would make the next character
literal, the closing bracket behind the name included. -/
theorem readText?_escapeText_iff (h : ∀ c ∈ ['[', ']', '\\'], escapable c = true)
    (name rest : List Char) :
    readText? escapable (escapeText name ++ ']' :: rest) = some (name, rest) ↔
      Literal escapable name := by
  have hopen : escapable '[' = true := h _ (by simp)
  have hclose : escapable ']' = true := h _ (by simp)
  have hbackslash : escapable '\\' = true := h _ (by simp)
  induction name with
  | nil => simp [escapeText, readText?_close, literal_nil]
  | cons c name ih =>
      rw [literal_cons_iff]
      by_cases hc : c = '[' ∨ c = ']'
      · -- a bracket comes with its own backslash
        have hescapable : escapable c = true := by rcases hc with rfl | rfl <;> assumption
        have hne : c ≠ '\\' := by rcases hc with rfl | rfl <;> decide
        rw [escapeText_bracket hc, List.cons_append, List.cons_append, readText?_escaped hescapable,
          map_cons_eq_some_iff]
        simpa [hne] using ih
      · rw [escapeText_other hc, List.cons_append]
        by_cases hslash : c = '\\'
        · subst hslash
          cases name with
          | nil =>
              -- the backslash is read with the closing bracket
              have hread := readText?_escaped hclose rest
              simp [escapeText, hread]
          | cons d name =>
              by_cases hd : d = '[' ∨ d = ']'
              · -- it is read with the backslash of the bracket, which is then bare
                rw [escapeText_bracket hd, List.cons_append, List.cons_append,
                  readText?_escaped hbackslash, map_cons_eq_some_iff]
                rcases hd with rfl | rfl
                · simp [readText?_open, hopen]
                · simp [readText?_close, hclose]
              · rw [escapeText_other hd, List.cons_append] at ih ⊢
                by_cases hescapable : escapable d = true
                · rw [readText?_escaped hescapable, map_cons_eq_some_iff]
                  refine iff_of_false ?_ (by simp [hescapable])
                  rintro ⟨rfl, hrest⟩
                  -- two backslashes are read as one, and too little is left for the rest
                  have hlength := length_escapeText_of_readText? hrest
                  rw [escapeText_other (by decide)] at hlength
                  simp only [List.length_cons, List.length_append] at hlength
                  omega
                · rw [readText?_backslash (by simpa using hescapable), map_cons_eq_some_iff]
                  simpa [hescapable] using ih
        · rw [readText?_other hslash hc, map_cons_eq_some_iff]
          simpa [hslash] using ih

/-! ## Names and destinations -/

theorem linkName_eq (uri : List Char) : linkName uri = resourceName uri := by
  have hname : linkName uri =
      if lastSegment (pathOf uri) = [] then uri else lastSegment (pathOf uri) := by
    unfold linkName pathOf
    cases splitUri? uri with
    | none => cases hlast : lastSegment uri <;> simp [hlast]
    | some parts => cases hlast : lastSegment parts.2 <;> simp [hlast]
  unfold resourceName
  rw [hname, lastSegment_eq]
  cases hlast : (segments (pathOf uri)).getLast? with
  | none => rfl
  | some name =>
      have hne := ne_nil_of_mem_segments (List.mem_of_getLast? hlast)
      exact if_neg hne

theorem mem_of_mem_resourceName {uri : List Char} {c : Char} (h : c ∈ resourceName uri) :
    c ∈ uri := by
  unfold resourceName at h
  cases hlast : (segments (pathOf uri)).getLast? with
  | none => simpa [hlast] using h
  | some name =>
      rw [hlast] at h
      have hpath := mem_of_mem_segments (List.mem_of_getLast? hlast) h
      unfold pathOf at hpath
      cases hsplit : splitUri? uri with
      | none => simpa [hsplit] using hpath
      | some parts =>
          rw [hsplit] at hpath
          exact mem_of_splitUri? hsplit hpath

/-- Encoding leaves the backslashes at the end of a text as they are. -/
theorem endsEscaping_encodeDestination (cs : List Char) :
    endsEscaping (encodeDestination cs) = endsEscaping cs := by
  suffices hrun : ((encodeDestination cs).reverse.takeWhile (· == '\\')).length =
      (cs.reverse.takeWhile (· == '\\')).length by
    unfold endsEscaping
    rw [hrun]
  induction cs using List.reverseRecOn with
  | nil => rfl
  | append_singleton cs c ih =>
      rw [encodeDestination_append]
      by_cases hc : c = '\\'
      · subst hc
        have hchar : encodeDestination ['\\'] = ['\\'] := rfl
        simp [hchar, ih]
      · obtain ⟨init, d, hd⟩ := (List.eq_nil_or_concat (encodeDestination [c])).resolve_left
          (mt encodeDestination_eq_nil_iff.mp (List.cons_ne_nil c []))
        have hne : d ≠ '\\' := fun heq => by
          have hmem : '\\' ∈ encodeDestination [c] := by simp [hd, heq]
          have hmem' := (mem_encodeDestination_iff (by decide)).mp hmem
          exact hc (List.mem_singleton.mp hmem').symm
        rw [hd]
        simp [hc, hne]

theorem plain_encodeDestination_iff {cs : List Char} :
    (∀ c ∈ encodeDestination cs, isControl c = false ∧ c ∉ delimiters) ↔
      ∀ c ∈ cs, isControl c = false := by
  have hall : ∀ c ∈ delimiters ++ encodings, isControl c = false := by
    simp [delimiters, encodings, isControl, Text.inRanges]
  constructor
  · intro h c hc
    by_cases hmem : c ∈ delimiters ++ encodings
    · exact hall c hmem
    · exact (h c ((mem_encodeDestination_iff hmem).mpr hc)).1
  · intro h c hc
    refine ⟨?_, not_delimiter_of_mem hc⟩
    rcases mem_encodeDestination hc with ⟨hmem, -⟩ | hmem
    · exact h c hmem
    · exact hall c (List.mem_append_right delimiters hmem)

/-! ## Links -/

/-- The text of a link is read back exactly when its name is. -/
theorem reads_text_iff (documentUri uri : List Char) (found : Option (List Char × List Char)) :
    (∃ mark rest, (mark = [] ∨ mark = ['!']) ∧ linkChars documentUri uri = mark ++ '[' :: rest ∧
      readText? escapable rest = found) ↔
    readText? escapable (escapeText (resourceName uri) ++
      ']' :: '(' :: (destination documentUri uri ++ [')'])) = found := by
  have hlink : linkChars documentUri uri =
      (if isImage (resourceName uri) then ['!'] else []) ++ '[' :: (escapeText (resourceName uri) ++
        ']' :: '(' :: (destination documentUri uri ++ [')'])) := by
    unfold linkChars
    simp [linkName_eq]
  rw [hlink]
  constructor
  · rintro ⟨mark, rest, hmark, heq, hread⟩
    rw [← hread]
    rcases hmark with rfl | rfl <;> split at heq <;> simp_all
  · intro hread
    refine ⟨_, _, ?_, rfl, hread⟩
    split <;> simp

theorem readsBack_iff (h : ∀ c ∈ ['[', ']', '\\'], escapable c = true)
    (documentUri uri : List Char) :
    ReadsBack escapable documentUri uri ↔
      Literal escapable (resourceName uri) ∧
        (∀ c ∈ target documentUri uri, isControl c = false) ∧
        endsEscaping (target documentUri uri) = false := by
  rw [← readText?_escapeText_iff h _ ('(' :: (destination documentUri uri ++ [')'])),
    ← reads_text_iff, ← plain_encodeDestination_iff, ← endsEscaping_encodeDestination,
    ← destination_eq]
  exact ⟨fun hreads => ⟨hreads.text, hreads.plain, hreads.closed⟩,
    fun ⟨htext, hplain, hclosed⟩ => ⟨htext, hplain, hclosed⟩⟩

theorem endsEscaping_of_not_mem {cs : List Char} (h : '\\' ∉ cs) : endsEscaping cs = false := by
  unfold endsEscaping
  cases hreverse : cs.reverse with
  | nil => rfl
  | cons c rest =>
      have hc : c ≠ '\\' := by
        rintro rfl
        exact h (List.mem_reverse.mp (by rw [hreverse]; exact List.mem_cons_self))
      simp [hc]

/-- **Which links are read as they were meant.** The name may have no backslash that would make what
follows it literal; what the link leads to may have no control character and may not end with a
backslash that makes the closing parenthesis literal. Whatever a reader takes a backslash to make
literal besides brackets and backslashes, all links to URIs without backslashes and control
characters are read as they were meant. -/
theorem links_read_back (h : ∀ c ∈ ['[', ']', '\\'], escapable c = true)
    (documentUri uri : List Char) :
    (ReadsBack escapable documentUri uri ↔
      Literal escapable (resourceName uri) ∧
        (∀ c ∈ target documentUri uri, isControl c = false) ∧
        endsEscaping (target documentUri uri) = false) ∧
    ((∀ c ∈ uri, c ≠ '\\' ∧ isControl c = false) → ReadsBack escapable documentUri uri) := by
  refine ⟨readsBack_iff h documentUri uri, fun hclean => ?_⟩
  have htarget {c : Char} (hc : c ∈ target documentUri uri) : c ≠ '\\' ∧ isControl c = false := by
    rcases mem_target hc with hmem | rfl | rfl
    · exact hclean c hmem
    · decide
    · decide
  refine (readsBack_iff h documentUri uri).mpr ⟨?_, fun c hc => (htarget hc).2, ?_⟩
  · intro before after hname
    have hmem : '\\' ∈ resourceName uri := by simp [hname]
    exact absurd rfl (hclean _ (mem_of_mem_resourceName hmem)).1
  · exact endsEscaping_of_not_mem fun hmem => (htarget hmem).1 rfl

/-- In markdown brackets and backslashes are among what a backslash makes literal. -/
theorem isPunctuation_of_mem : ∀ c ∈ ['[', ']', '\\'], isPunctuation c = true := by
  simp [isPunctuation, Text.inRanges]

/-- In markdown a backslash in front of a letter stands for itself, and brackets are read as part of
the name. -/
theorem backslash_before_letter_reads_back :
    (∀ c ∈ ['[', ']', '\\'], isPunctuation c = true) ∧
      ReadsBack isPunctuation "file:///notes/a.md".toList
        "file:///notes/b\\c [d](e).png".toList := by
  have hname : resourceName "file:///notes/b\\c [d](e).png".toList =
      "b\\c [d](e).png".toList := by decide
  have htarget : target "file:///notes/a.md".toList "file:///notes/b\\c [d](e).png".toList =
      "b\\c [d](e).png".toList := by decide
  refine ⟨isPunctuation_of_mem, (links_read_back isPunctuation_of_mem _ _).1.mpr ?_⟩
  rw [hname, htarget]
  refine ⟨?_, ?_, by decide⟩
  · simp [literal_cons_iff, literal_nil, isPunctuation, Text.inRanges]
  · simp [isControl, Text.inRanges]

/-- A name that ends with a backslash: neither the bracket nor the parenthesis behind it closes
anything. -/
theorem backslash_at_end_is_no_link :
    linkChars "file:///notes/a.md".toList "file:///notes/b\\".toList = "[b\\](b\\)".toList ∧
      ¬ ReadsBack isPunctuation "file:///notes/a.md".toList "file:///notes/b\\".toList := by
  refine ⟨by decide, fun hreads => ?_⟩
  obtain ⟨-, -, hclosed⟩ := (readsBack_iff isPunctuation_of_mem _ _).mp hreads
  exact absurd hclosed (by decide)

end CopyPaste.Markdown

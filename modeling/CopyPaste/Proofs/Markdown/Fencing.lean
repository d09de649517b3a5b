import CopyPaste.Snippet
import Mathlib.Data.List.DropRight

/-!
# Fenced blocks are read back

A reader of markdown takes a first line that begins with backticks for the opening of a block, and
the first later line of at least as many backticks for its end. The fence around a text is longer
than every run of backticks in it, so no line of the text ends the block, wherever lines end, and
what the reader finds between the two fences is the text.

* `Text.cutLines` — the lines of a text, ended by LF, CRLF or a CR that stands alone;
* `readBlock?` — the reader;
* **`length_le_longestRun`** — no run of backticks is longer than the longest piece;
* **`closes_eq_false`** — no line of the text ends the block;
* **`fenced_reads_back`** — the block of every snippet.
-/

namespace CopyPaste

/-! ## Lines -/

namespace Text

/-- A line, and the characters that end it. -/
structure Line where
  text : List Char
  ending : List Char
deriving DecidableEq, Repr

/-- The characters of a line. -/
def Line.chars (line : Line) : List Char := line.text ++ line.ending

/-- The lines of a text. What follows the last line end is a line too, even if it is empty, and it
is the only one without an ending. -/
def cutLines : List Char → List Line
  | [] => [⟨[], []⟩]
  | '\r' :: '\n' :: rest => ⟨[], ['\r', '\n']⟩ :: cutLines rest
  | c :: rest =>
    if c = '\r' ∨ c = '\n' then ⟨[], [c]⟩ :: cutLines rest
    else
      match cutLines rest with
      | [] => [⟨[c], []⟩]
      | line :: lines => ⟨c :: line.text, line.ending⟩ :: lines

theorem cutLines_ne_nil (cs : List Char) : cutLines cs ≠ [] := by
  fun_cases cutLines cs <;> simp

/-- **Nothing is lost.** The lines with their endings are the text. -/
theorem flatMap_chars_cutLines (cs : List Char) : (cutLines cs).flatMap Line.chars = cs := by
  fun_induction cutLines cs with
  | case1 => rfl
  | case2 rest ih => simp [Line.chars, ih]
  | case3 c rest hcrlf hc ih => simp [Line.chars, ih]
  | case4 c rest hcrlf hc hnil ih => exact absurd hnil (cutLines_ne_nil rest)
  | case5 c rest hcrlf hc line lines hlines ih =>
      rw [hlines] at ih
      simpa [Line.chars] using ih

/-- Every line is a part of the text. -/
theorem text_infix_of_mem_cutLines {cs : List Char} {line : Line} (h : line ∈ cutLines cs) :
    line.text <:+: cs := by
  have hchars : line.chars <:+: cs := by
    rw [← flatMap_chars_cutLines cs]
    exact List.infix_of_mem_flatten (List.mem_map_of_mem h)
  exact (List.prefix_append line.text line.ending).isInfix.trans hchars

/-- **A line feed ends the line before it,** as long as it is no half of a CRLF. -/
theorem cutLines_append_newline {before : List Char} (h : before.getLast? ≠ some '\r')
    (after : List Char) :
    ∃ lines last, cutLines before = lines ++ [⟨last, []⟩] ∧
      cutLines (before ++ '\n' :: after) = lines ++ ⟨last, ['\n']⟩ :: cutLines after := by
  fun_induction cutLines before with
  | case1 => exact ⟨[], [], rfl, by simp [cutLines]⟩
  | case2 rest ih =>
      obtain ⟨lines, last, hrest, hafter⟩ := ih fun hlast => h (by simp [List.getLast?_cons, hlast])
      refine ⟨⟨[], ['\r', '\n']⟩ :: lines, last, by rw [hrest]; rfl, ?_⟩
      rw [List.cons_append, List.cons_append, cutLines, hafter]
      rfl
  | case3 c rest hcrlf hc ih =>
      have hlast : rest.getLast? ≠ some '\r' := fun hlast => h (by simp [List.getLast?_cons, hlast])
      obtain ⟨lines, last, hrest, hafter⟩ := ih hlast
      refine ⟨⟨[], [c]⟩ :: lines, last, by rw [hrest]; rfl, ?_⟩
      rw [List.cons_append, List.cons_append, cutLines, if_pos hc, hafter]
      -- the line feed that is added stands behind a CR only if nothing else does
      rintro behind rfl hbehind
      cases rest with
      | nil => exact h rfl
      | cons d rest => exact hcrlf rest rfl (by rw [(List.cons.inj hbehind).1])
  | case4 c rest hcrlf hc hnil ih => exact absurd hnil (cutLines_ne_nil rest)
  | case5 c rest hcrlf hc line lines hlines ih =>
      have hlast : rest.getLast? ≠ some '\r' := fun hlast => h (by simp [List.getLast?_cons, hlast])
      obtain ⟨front, last, hrest, hafter⟩ := ih hlast
      rw [List.cons_append, cutLines, if_neg hc, hafter]
      · rw [hlines] at hrest
        cases front with
        | nil =>
            obtain ⟨rfl, rfl⟩ := List.cons.inj hrest
            exact ⟨[], c :: last, rfl, rfl⟩
        | cons first front =>
            obtain ⟨rfl, rfl⟩ := List.cons.inj hrest
            exact ⟨⟨c :: line.text, line.ending⟩ :: front, last, rfl, rfl⟩
      · exact fun _ hr => absurd (.inl hr) hc

/-- A text without line ends is one line. -/
theorem cutLines_of_not_ending {cs : List Char} (h : ∀ c ∈ cs, c ≠ '\r' ∧ c ≠ '\n') :
    cutLines cs = [⟨cs, []⟩] := by
  induction cs with
  | nil => rfl
  | cons c cs ih =>
      obtain ⟨hreturn, hfeed⟩ := h c List.mem_cons_self
      rw [cutLines, if_neg (by simp [hreturn, hfeed]),
        ih fun d hd => h d (List.mem_cons_of_mem c hd)]
      exact fun _ hr => absurd hr hreturn

/-- A line that a line feed ends. -/
theorem cutLines_line_append {line : List Char} (h : ∀ c ∈ line, c ≠ '\r' ∧ c ≠ '\n')
    (after : List Char) :
    cutLines (line ++ '\n' :: after) = ⟨line, ['\n']⟩ :: cutLines after := by
  have hlast : line.getLast? ≠ some '\r' := fun hlast => (h _ (List.mem_of_getLast? hlast)).1 rfl
  obtain ⟨lines, last, hline, hafter⟩ := cutLines_append_newline hlast after
  rw [cutLines_of_not_ending h] at hline
  have hsplit : [] ++ [⟨line, []⟩] = lines ++ [⟨last, []⟩] := hline
  obtain ⟨rfl, hline⟩ := List.append_inj' hsplit rfl
  obtain rfl : line = last := by simpa using hline
  exact hafter

end Text

namespace Markdown

/-! ## Runs of backticks -/

theorem longestRun_le_iff {cs : List Char} {n : Nat} :
    longestRun cs ≤ n ↔ ∀ piece ∈ Text.pieces (· != '\x60') cs, piece.length ≤ n := by
  have hfold : ∀ (lengths : List Nat) (a : Nat),
      lengths.foldl max a ≤ n ↔ a ≤ n ∧ ∀ k ∈ lengths, k ≤ n := by
    intro lengths
    induction lengths with
    | nil => simp
    | cons k lengths ih =>
        intro a
        rw [List.foldl_cons, ih, Nat.max_le, List.forall_mem_cons, and_assoc]
  unfold longestRun
  rw [hfold]
  simp

/-- A run of backticks stands in one piece. -/
theorem exists_piece_of_run (before after : List Char) (k : Nat) :
    ∃ piece ∈ Text.pieces (· != '\x60') (before ++ List.replicate k '\x60' ++ after),
      k ≤ piece.length := by
  induction before with
  | nil =>
      -- at the front the run is in the first piece
      have hfirst : ∃ first rest,
          Text.pieces (· != '\x60') (List.replicate k '\x60' ++ after) = first :: rest ∧
            k ≤ first.length := by
        induction k with
        | zero =>
            obtain ⟨first, rest, h⟩ := List.exists_cons_of_ne_nil
              (Text.pieces_ne_nil (· != '\x60') after)
            exact ⟨first, rest, h, Nat.zero_le _⟩
        | succ k ih =>
            obtain ⟨first, rest, h, hk⟩ := ih
            refine ⟨'\x60' :: first, rest, ?_, Nat.succ_le_succ hk⟩
            rw [List.replicate_succ, List.cons_append, Text.pieces, h]
            rfl
      obtain ⟨first, rest, h, hk⟩ := hfirst
      exact ⟨first, by rw [List.nil_append, h]; exact List.mem_cons_self, hk⟩
  | cons c before ih =>
      obtain ⟨piece, hpiece, hk⟩ := ih
      rw [List.cons_append, List.cons_append, Text.pieces]
      split
      · exact ⟨piece, List.mem_cons_of_mem [] hpiece, hk⟩
      · split
        · rename_i h
          exact absurd h (Text.pieces_ne_nil _ _)
        · rename_i first rest h
          rw [h] at hpiece
          rcases List.mem_cons.mp hpiece with rfl | hpiece
          · exact ⟨c :: piece, List.mem_cons_self, Nat.le_succ_of_le hk⟩
          · exact ⟨piece, List.mem_cons_of_mem _ hpiece, hk⟩

/-- **No run of backticks is longer than the longest run.** -/
theorem length_le_longestRun {cs : List Char} {k : Nat}
    (h : List.replicate k '\x60' <:+: cs) : k ≤ longestRun cs := by
  obtain ⟨before, after, rfl⟩ := h
  obtain ⟨piece, hpiece, hk⟩ := exists_piece_of_run before after k
  exact hk.trans (longestRun_le_iff.mp (Nat.le_refl _) piece hpiece)

/-! ## The reader -/

/-- How many backticks a text begins with. -/
def ticks (cs : List Char) : Nat := (cs.takeWhile (· == '\x60')).length

/-- Whether a line ends a block whose fence has `n` backticks: at most three spaces, at least as
many backticks, and nothing but blanks behind them. -/
def closes (n : Nat) (line : List Char) : Bool :=
  let unindented := line.dropWhile (· == ' ')
  (line.takeWhile (· == ' ')).length ≤ 3 && n ≤ ticks unindented &&
    (unindented.dropWhile (· == '\x60')).all fun c => c == ' ' || c == '\t'

/-- A block that was read. -/
structure Block where
  /-- The backticks of the fence that opens it. -/
  fence : Nat
  /-- What follows them on their line. -/
  info : List Char
  /-- The lines between the fences, without the last line end. -/
  content : List Char
  /-- The lines behind the fence that closes it. -/
  behind : List Text.Line
deriving DecidableEq, Repr

/-- The text of lines without the last line end. -/
def contentOf (lines : List Text.Line) : List Char :=
  lines.dropLast.flatMap Text.Line.chars ++ (lines.getLast?.map Text.Line.text).getD []

/-- The block that begins on the first line of a text and ends at the first later line that closes
it. -/
def readBlock? (cs : List Char) : Option Block :=
  match Text.cutLines cs with
  | [] => none
  | first :: lines =>
    let n := ticks first.text
    let info := first.text.dropWhile (· == '\x60')
    let isInside := fun line : Text.Line => !closes n line.text
    if n < 3 ∨ '\x60' ∈ info then none
    else
      match lines.dropWhile isInside with
      | [] => none
      | _ :: behind => some ⟨n, info, contentOf (lines.takeWhile isInside), behind⟩

/-- A line that ends a block has the backticks of its fence in a row. -/
theorem replicate_infix_of_closes {n : Nat} {line : List Char} (h : closes n line = true) :
    List.replicate n '\x60' <:+: line := by
  unfold closes ticks at h
  simp only [Bool.and_eq_true, decide_eq_true_eq] at h
  obtain ⟨⟨-, hticks⟩, -⟩ := h
  generalize hrest : line.dropWhile (· == ' ') = rest at hticks
  have hrun : rest.takeWhile (· == '\x60') =
      List.replicate (rest.takeWhile (· == '\x60')).length '\x60' := by
    refine List.eq_replicate_of_mem fun c hc => ?_
    simpa using List.mem_takeWhile_imp hc
  have hprefix : List.replicate n '\x60' <+: rest := by
    refine List.IsPrefix.trans ?_ (List.takeWhile_prefix (· == '\x60'))
    rw [hrun, List.prefix_replicate_iff]
    simpa using hticks
  have hsuffix : rest <:+ line := hrest ▸ List.dropWhile_suffix _
  exact hprefix.isInfix.trans hsuffix.isInfix

/-- **No line of a text ends the block around it.** -/
theorem closes_eq_false {cs line : List Char} (h : line <:+: cs) :
    closes (fence cs).length line = false := by
  rw [Bool.eq_false_iff]
  intro hcloses
  have hrun := length_le_longestRun ((replicate_infix_of_closes hcloses).trans h)
  rw [fence, List.length_replicate] at hrun
  omega

/-! ## Fenced texts -/

theorem fence_eq (cs : List Char) : fence cs = List.replicate (fence cs).length '\x60' := by
  simp [fence]

theorem three_le_length_fence (cs : List Char) : 3 ≤ (fence cs).length := by
  rw [fence, List.length_replicate]
  omega

/-- What stands in the block is the text without the line ends behind it. -/
theorem fenceBody_spec (cs : List Char) :
    (∃ trailing, cs = fenceBody cs ++ trailing ∧ ∀ c ∈ trailing, c = '\r' ∨ c = '\n') ∧
      ∀ c ∈ (fenceBody cs).getLast?, c ≠ '\r' ∧ c ≠ '\n' := by
  have hbody : fenceBody cs = cs.rdropWhile fun c => c == '\r' || c == '\n' := rfl
  rw [hbody]
  constructor
  · refine ⟨_, (List.rdropWhile_append_rtakeWhile ..).symm, fun c hc => ?_⟩
    simpa using List.mem_rtakeWhile_imp hc
  · intro c hc
    have hne : cs.rdropWhile (fun c => c == '\r' || c == '\n') ≠ [] := by
      rintro hnil
      simp [hnil] at hc
    have hlast := List.rdropWhile_last_not (fun c => c == '\r' || c == '\n') cs hne
    rw [List.getLast?_eq_getLast_of_ne_nil hne, Option.mem_some_iff] at hc
    rw [hc] at hlast
    simpa using hlast

/-- A row of backticks closes a block that was opened with as many. -/
theorem closes_fence (cs : List Char) : closes (fence cs).length (fence cs) = true := by
  unfold closes ticks
  rw [fence_eq cs]
  simp

/-- What the reader makes of lines of which the first opens a block. -/
theorem readBlock?_of_cutLines {cs info ending : List Char} {n : Nat}
    {inside behind : List Text.Line} {closing : Text.Line}
    (hlines : Text.cutLines cs =
      ⟨List.replicate n '\x60' ++ info, ending⟩ :: (inside ++ closing :: behind))
    (hn : 3 ≤ n) (hinfo : '\x60' ∉ info)
    (hinside : ∀ line ∈ inside, closes n line.text = false)
    (hclosing : closes n closing.text = true) :
    readBlock? cs = some ⟨n, info, contentOf inside, behind⟩ := by
  have hhead : info.takeWhile (· == '\x60') = [] ∧ info.dropWhile (· == '\x60') = info := by
    cases info with
    | nil => exact ⟨rfl, rfl⟩
    | cons c info =>
        have hc : c ≠ '\x60' := fun h => hinfo (h ▸ List.mem_cons_self)
        simp [hc]
  have hticks : ticks (List.replicate n '\x60' ++ info) = n := by
    unfold ticks
    rw [List.takeWhile_append_of_pos (by simp), hhead.1]
    simp
  have hrest : (List.replicate n '\x60' ++ info).dropWhile (· == '\x60') = info := by
    rw [List.dropWhile_append_of_pos (by simp), hhead.2]
  have hpos : ∀ line ∈ inside, (!closes n line.text) = true := by
    intro line hline
    rw [hinside line hline]
    rfl
  unfold readBlock?
  rw [hlines]
  dsimp only
  rw [hticks, hrest, if_neg (by simp [hinfo]; omega), List.takeWhile_append_of_pos hpos,
    List.dropWhile_append_of_pos hpos]
  simp [hclosing]

/-- **The lines of a fenced block.** The text has lines of its own between the two fences. -/
theorem cutLines_fencedBlock {language : String}
    (hlanguage : ∀ c ∈ language.toList, c ≠ '\r' ∧ c ≠ '\n') (text : String) :
    ∃ inside, Text.cutLines (fencedBlock language text).toList =
        ⟨fence text.toList ++ language.toList, ['\n']⟩ ::
          (inside ++ [⟨fence text.toList, []⟩]) ∧
      contentOf inside = fenceBody text.toList ∧
      ∀ line ∈ inside, line.text <:+: text.toList := by
  have hbackticks : ∀ c ∈ fence text.toList, c ≠ '\r' ∧ c ≠ '\n' := by
    intro c hc
    obtain rfl := List.eq_of_mem_replicate hc
    decide
  have hopening : ∀ c ∈ fence text.toList ++ language.toList, c ≠ '\r' ∧ c ≠ '\n' := by
    intro c hc
    rcases List.mem_append.mp hc with hc | hc
    · exact hbackticks c hc
    · exact hlanguage c hc
  obtain ⟨⟨trailing, htext, -⟩, hend⟩ := fenceBody_spec text.toList
  have hbody : (fenceBody text.toList).getLast? ≠ some '\r' := fun h => (hend _ h).1 rfl
  obtain ⟨lines, last, hinside, hlines⟩ :=
    Text.cutLines_append_newline hbody (fence text.toList)
  have hchars : lines.flatMap Text.Line.chars ++ last = fenceBody text.toList := by
    rw [← Text.flatMap_chars_cutLines (fenceBody text.toList), hinside]
    simp [Text.Line.chars]
  refine ⟨lines ++ [⟨last, ['\n']⟩], ?_, ?_, ?_⟩
  · rw [Text.cutLines_of_not_ending hbackticks] at hlines
    have hblock : (fencedBlock language text).toList =
        (fence text.toList ++ language.toList) ++ '\n' ::
          (fenceBody text.toList ++ '\n' :: fence text.toList) := by
      simp [fencedBlock]
    rw [hblock, Text.cutLines_line_append hopening, hlines]
    simp
  · simpa [contentOf] using hchars
  · intro line hline
    have hmem : ∃ l ∈ Text.cutLines (fenceBody text.toList), l.text = line.text := by
      rw [hinside]
      rcases List.mem_append.mp hline with hline | hline
      · exact ⟨line, List.mem_append_left _ hline, rfl⟩
      · obtain rfl := List.mem_singleton.mp hline
        exact ⟨⟨last, []⟩, List.mem_append_right _ List.mem_cons_self, rfl⟩
    obtain ⟨l, hl, heq⟩ := hmem
    rw [← heq]
    refine (Text.text_infix_of_mem_cutLines hl).trans ?_
    exact ⟨[], trailing, htext.symm⟩

end Markdown

/-- **A fenced block is read back as it was written.** The reader finds the fence, the language and
the text without the line ends behind it, and nothing behind the block; for no line before the last
closes it. -/
theorem Snippet.fenced_reads_back (s : Snippet)
    (hlanguage : ∀ c ∈ s.language.toList, c ≠ '\x60' ∧ c ≠ '\r' ∧ c ≠ '\n') :
    ∃ n content trailing inside, s.text.toList = content ++ trailing ∧
      (∀ c ∈ trailing, c = '\r' ∨ c = '\n') ∧
      (∀ c ∈ content.getLast?, c ≠ '\r' ∧ c ≠ '\n') ∧
      s.fenced.toList = List.replicate n '\x60' ++ s.language.toList ++ ['\n'] ++ content ++
        ['\n'] ++ List.replicate n '\x60' ∧
      Text.cutLines s.fenced.toList = ⟨List.replicate n '\x60' ++ s.language.toList, ['\n']⟩ ::
        (inside ++ [⟨List.replicate n '\x60', []⟩]) ∧
      (∀ line ∈ inside, Markdown.closes n line.text = false) ∧
      Markdown.readBlock? s.fenced.toList = some ⟨n, s.language.toList, content, []⟩ := by
  obtain ⟨inside, hlines, hcontent, hparts⟩ := Markdown.cutLines_fencedBlock
    (fun c hc => (hlanguage c hc).2) s.text
  obtain ⟨⟨trailing, htext, htrailing⟩, hend⟩ := Markdown.fenceBody_spec s.text.toList
  have hfence := Markdown.fence_eq s.text.toList
  have hopen : ∀ line ∈ inside,
      Markdown.closes (Markdown.fence s.text.toList).length line.text = false :=
    fun line hline => Markdown.closes_eq_false (hparts line hline)
  have hclosing := Markdown.closes_fence s.text.toList
  have hthree := Markdown.three_le_length_fence s.text.toList
  have hinfo : '\x60' ∉ s.language.toList := fun h => (hlanguage _ h).1 rfl
  have hwritten : s.fenced.toList = Markdown.fence s.text.toList ++ s.language.toList ++ ['\n'] ++
      Markdown.fenceBody s.text.toList ++ ['\n'] ++ Markdown.fence s.text.toList := by
    simp [fenced, Markdown.fencedBlock]
  have hcut : Text.cutLines s.fenced.toList = _ := hlines
  generalize (Markdown.fence s.text.toList).length = n at hfence hopen hclosing hthree
  rw [hfence] at hwritten hcut hclosing
  refine ⟨n, _, trailing, inside, htext, htrailing, hend, hwritten, hcut, hopen, ?_⟩
  rw [Markdown.readBlock?_of_cutLines hcut hthree hinfo hopen hclosing, hcontent]

/-- A text with a fence of its own behind a CR that stands alone: the block goes on to its end. -/
theorem Snippet.fence_after_return_stays_inside :
    let s : Snippet := ⟨"u", "rust", "a\r\x60\x60\x60\x60\nb\r\n"⟩
    (∀ c ∈ s.language.toList, c ≠ '\x60' ∧ c ≠ '\r' ∧ c ≠ '\n') ∧
      ∃ n content, content <+: s.text.toList ∧
        Markdown.readBlock? s.fenced.toList = some ⟨n, s.language.toList, content, []⟩ := by
  intro s
  have hlanguage : ∀ c ∈ s.language.toList, c ≠ '\x60' ∧ c ≠ '\r' ∧ c ≠ '\n' := by
    simp [s]
  obtain ⟨n, content, trailing, inside, htext, -, -, -, -, -, hread⟩ :=
    s.fenced_reads_back hlanguage
  exact ⟨hlanguage, n, content, ⟨trailing, htext.symm⟩, hread⟩

end CopyPaste

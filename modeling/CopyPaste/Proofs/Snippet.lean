import CopyPaste.Proofs.Editor.Splicing
import CopyPaste.Proofs.Json.Snippet
import CopyPaste.Proofs.Session.Insertion

/-!
# Snippets from one document to another

A snippet is written where it is copied and read where it is pasted, and the two places share
nothing but one type of a transfer. Whatever a document consists of, what a selection covers in it
comes back out as a fenced block; whatever else stands under the type, the reader answers with
nothing rather than fail.

* `Document.Covers`, `Document.Misses` — the text that a selection covers, and offsets at which
  none can begin or end;
* `Snippet.DescribedBy`, `Snippet.WrittenIn` — the members of an object that describes a snippet,
  and the texts that are read as one;
* **`Snippet.decode?_eq_some_iff`** — the decoder reads nothing else;
* `Call.Receives` — what the reader answers, and what it waits for;
* **`snippet_round_trip`** — the writer, the reader, and the way from one to the other.
-/

namespace CopyPaste

/-! ## What is copied -/

namespace Text

/-- Splitting behind a part that is known. -/
theorem splitAt?_width_add (left right : List Char) (n : Nat) :
    splitAt? (left ++ right) (width left + n) =
      (splitAt? right n).map fun parts => (left ++ parts.1, parts.2) := by
  induction left with
  | nil => simp
  | cons c left ih =>
      have hc : 0 < c.utf8Size := c.utf8Size_pos
      obtain ⟨k, hk⟩ : ∃ k, width (c :: left) + n = k + 1 :=
        ⟨width (c :: left) + n - 1, by simp only [width_cons]; omega⟩
      have hle : c.utf8Size ≤ k + 1 := by
        rw [← hk, width_cons]
        omega
      have hsub : k + 1 - c.utf8Size = width left + n := by
        rw [← hk, width_cons]
        omega
      rw [hk, List.cons_append, splitAt?, if_pos hle, hsub, ih, Option.map_map]
      rfl

/-- An offset is unusable where the text is over, and inside a character. -/
theorem splitAt?_eq_none_iff {cs : List Char} {n : Nat} :
    splitAt? cs n = none ↔ width cs < n ∨ ∃ before c after, cs = before ++ c :: after ∧
      width before < n ∧ n < width before + c.utf8Size := by
  constructor
  · intro h
    fun_induction splitAt? cs n with
    | case1 cs => simp at h
    | case2 n => exact .inl (Nat.succ_pos n)
    | case3 c cs n hle ih =>
        rcases ih (Option.map_eq_none_iff.mp h) with hover | ⟨before, d, after, rfl, hlow, hhigh⟩
        · left
          rw [width_cons]
          omega
        · right
          refine ⟨c :: before, d, after, rfl, ?_, ?_⟩ <;> rw [width_cons] <;> omega
    | case4 c cs n hlt =>
        exact .inr ⟨[], c, cs, rfl, Nat.succ_pos n, by rw [width_nil]; omega⟩
  · intro h
    cases hsplit : splitAt? cs n with
    | none => rfl
    | some parts =>
        obtain ⟨hwhole, rfl⟩ := append_of_splitAt? hsplit
        rcases h with hover | ⟨before, c, after, hparts, hlow, hhigh⟩
        · rw [hwhole, width_append] at hover
          omega
        · -- the two ways to cut the text would leave a part of the character
          rw [hwhole] at hparts
          rcases List.append_eq_append_iff.mp hparts with ⟨more, hmore, -⟩ | ⟨more, hmore, hrest⟩
          · rw [hmore, width_append] at hlow
            omega
          · cases more with
            | nil =>
                rw [hmore, List.append_nil] at hlow
                omega
            | cons d more =>
                obtain ⟨rfl, -⟩ := List.cons.inj hrest
                rw [hmore, width_append, width_cons] at hhigh
                omega

end Text

namespace Document

/-- A selection covers a text of a document: it stands there between two characters or at an end. -/
def Covers (d : Document) (s : Selection) (text : String) : Prop :=
  ∃ left right, d.text = left ++ text ++ right ∧ s.start = left.utf8ByteSize ∧
    s.stop = (left ++ text).utf8ByteSize

/-- An offset that lies behind the end of a document or splits one of its characters. -/
def Misses (d : Document) (offset : Nat) : Prop :=
  d.text.utf8ByteSize < offset ∨ ∃ before c after, d.text.toList = before ++ c :: after ∧
    Text.width before < offset ∧ offset < Text.width before + c.utf8Size

theorem slice?_eq_some_iff {d : Document} {s : Selection} {text : String} :
    d.slice? s = some text ↔ d.Covers s text := by
  unfold slice?
  rw [Text.slice?_eq_some_iff]
  constructor
  · rintro ⟨before, after, htext, hstart, hstop⟩
    refine ⟨String.ofList before, String.ofList after, ?_, ?_, ?_⟩
    · rw [← String.ofList_toList (s := d.text), htext]
      simp [String.append_assoc]
    · rw [hstart, Editor.width_eq]
    · rw [hstop, Editor.width_eq, Editor.width_eq, String.ofList_toList, String.utf8ByteSize_append]
  · rintro ⟨left, right, htext, hstart, hstop⟩
    refine ⟨left.toList, right.toList, by rw [htext]; simp, ?_, ?_⟩
    · rw [hstart, Editor.width_eq, String.ofList_toList]
    · rw [hstop, Editor.width_eq, Editor.width_eq, String.ofList_toList, String.ofList_toList,
        String.utf8ByteSize_append]

theorem misses_iff {d : Document} {offset : Nat} :
    d.Misses offset ↔ Text.splitAt? d.text.toList offset = none := by
  unfold Misses
  rw [Text.splitAt?_eq_none_iff, Editor.width_eq, String.ofList_toList]

/-- A selection covers nothing at all exactly when one of its ends is unusable. -/
theorem slice?_eq_none_iff {d : Document} {s : Selection} :
    d.slice? s = none ↔ d.Misses s.start ∨ d.Misses s.stop := by
  have hle := s.start_le_stop
  rw [misses_iff, misses_iff]
  unfold slice? Text.slice? Text.cut?
  rw [if_pos hle, Option.map_eq_none_iff]
  cases hsplit : Text.splitAt? d.text.toList s.start with
  | none => simp
  | some parts =>
      obtain ⟨hwhole, hstart⟩ := Text.append_of_splitAt? hsplit
      have hstop : s.stop = Text.width parts.1 + (s.stop - s.start) := by omega
      rw [hwhole, hstop, Text.splitAt?_width_add, Option.map_eq_none_iff]
      simp [hstart]

end Document

/-! ## What is read -/

namespace Snippet

/-- The members of an object that describes a snippet: their names are texts, and each of the three
names occurs once, with a string. -/
structure DescribedBy (s : Snippet) (members : List (Option String × Json)) : Prop where
  named : ∀ m ∈ members, m.1 ≠ none
  uri : members.filter (fun m => m.1 = some "uri") = [(some "uri", .string (some s.uri))]
  language : members.filter (fun m => m.1 = some "language") =
    [(some "language", .string (some s.language))]
  text : members.filter (fun m => m.1 = some "text") = [(some "text", .string (some s.text))]

theorem member?_eq_some_iff {members : List (Option String × Json)} {name value : String} :
    member? members name = some value ↔
      members.filter (fun m => m.1 = some name) = [(some name, .string (some value))] := by
  unfold member?
  constructor
  · intro h
    split at h
    · rename_i key found hfilter
      have hkey : key = some name := by
        have hmem := List.mem_filter.mp (hfilter ▸ List.mem_cons_self)
        simpa using hmem.2
      rw [hfilter, hkey, Option.some.inj h]
    · simp at h
  · intro h
    rw [h]

theorem ofJson?_object_eq_some_iff {members : List (Option String × Json)} {s : Snippet} :
    ofJson? (.object members) = some s ↔ s.DescribedBy members := by
  have hnamed : (members.all fun m => m.1.isSome) = true ↔ ∀ m ∈ members, m.1 ≠ none := by
    simp [Option.isSome_iff_ne_none]
  rw [ofJson?]
  constructor
  · intro h
    split at h
    · rename_i hall
      obtain ⟨uri, huri, h⟩ := Option.bind_eq_some_iff.mp h
      obtain ⟨language, hlanguage, h⟩ := Option.bind_eq_some_iff.mp h
      obtain ⟨text, htext, rfl⟩ := Option.map_eq_some_iff.mp h
      exact ⟨hnamed.mp hall, member?_eq_some_iff.mp huri, member?_eq_some_iff.mp hlanguage,
        member?_eq_some_iff.mp htext⟩
    · simp at h
  · intro h
    rw [if_pos (hnamed.mpr h.named), member?_eq_some_iff.mpr h.uri,
      member?_eq_some_iff.mpr h.language, member?_eq_some_iff.mpr h.text]
    rfl

theorem ofJson?_eq_some_iff {j : Json} {s : Snippet} :
    ofJson? j = some s ↔ (∃ members, j = .object members ∧ s.DescribedBy members) ∨
      j = .array [.string (some s.uri), .string (some s.language), .string (some s.text)] := by
  constructor
  · intro h
    unfold ofJson? at h
    split at h
    · rename_i members
      exact .inl ⟨members, rfl, ofJson?_object_eq_some_iff.mp h⟩
    · rename_i uri language text
      obtain rfl := Option.some.inj h
      exact .inr rfl
    · simp at h
  · rintro (⟨members, rfl, h⟩ | rfl)
    · exact ofJson?_object_eq_some_iff.mpr h
    · rfl

/-- A text that is read as a snippet: it writes an object that describes it, or an array of its
three strings. -/
def WrittenIn (s : Snippet) (raw : String) : Prop :=
  (∃ members, Json.parse? raw = some (.object members) ∧ s.DescribedBy members) ∨
    Json.parse? raw =
      some (.array [.string (some s.uri), .string (some s.language), .string (some s.text)])

/-- **The decoder reads what writes a snippet,** and nothing else. -/
theorem decode?_eq_some_iff {raw : String} {s : Snippet} :
    decode? raw = some s ↔ s.WrittenIn raw := by
  unfold decode? WrittenIn
  cases Json.parse? raw with
  | none => simp
  | some j =>
      rw [Option.bind_some, ofJson?_eq_some_iff]
      simp only [Option.some.injEq]

end Snippet

/-! ## What is answered -/

/-- How the reader of snippets replies to a call when there is the given item: it waits as long as
the text of the item is held back, and then answers with a text in place of the selection, or with
nothing. -/
def Call.Receives (call : Call) (t : Transfer) (item : Item) (text : Option String) : Prop :=
  t.get? snippetMime = some item → ∀ begun cancelled desk,
    (PasteScript.run call t [.insertSnippet] begun cancelled desk).1 =
      if (desk.text? call.task item).1 = none then
        .waiting [.insertSnippet] (begun.getD desk.now)
      else .answered (.ok (text.map fun text => [.replacing call.document.uri call.selection text]))

theorem Call.receives_fencedFrom? {call : Call}
    (hlanguage : call.document.language = markdownLanguage) (t : Transfer) (item : Item) :
    call.Receives t item (fencedFrom? call.document item.asString) := by
  intro hitem begun cancelled desk
  obtain ⟨⟨text, after⟩, hasked⟩ : ∃ asked, desk.text? call.task item = asked := ⟨_, rfl⟩
  have hperform : PasteAction.insertSnippet.perform call t begun cancelled desk =
      (text.elim .wait (snippetAnswer call), cancelled, after) := by
    unfold PasteAction.perform withText
    dsimp only
    rw [if_pos hlanguage, hitem]
    dsimp only
    rw [hasked]
    cases text <;> rfl
  have hnow : after.now = desk.now := by
    have hscripted := (Desk.scripted_text? desk call.task item).now
    rwa [hasked] at hscripted
  rw [PasteScript.run, hperform, hasked]
  cases text with
  | none => simp [hnow]
  | some text =>
      obtain rfl := Desk.text_of_text? (congrArg Prod.fst hasked)
      rw [Option.elim_some, snippetAnswer_eq_offer, if_neg (Option.some_ne_none _)]
      cases fencedFrom? call.document item.asString <;> rfl

/-- The reader answers a snippet with a fenced block, unless it is in markdown already. -/
theorem Call.receives_of_writtenIn {call : Call} {item : Item} {s : Snippet}
    (hlanguage : call.document.language = markdownLanguage) (h : s.WrittenIn item.asString)
    (t : Transfer) :
    call.Receives t item (if s.language = markdownLanguage then none else some s.fenced) := by
  have hreceives := call.receives_fencedFrom? hlanguage t item
  unfold fencedFrom? at hreceives
  rwa [Snippet.decode?_eq_some_iff.mpr h, Option.bind_some, hlanguage] at hreceives

/-- The reader takes no notice of anything else. -/
theorem Call.receives_none {call : Call} {item : Item}
    (hlanguage : call.document.language = markdownLanguage)
    (h : ∀ s : Snippet, ¬ s.WrittenIn item.asString) (t : Transfer) :
    call.Receives t item none := by
  have hreceives := call.receives_fencedFrom? hlanguage t item
  have hdecode : Snippet.decode? item.asString = none :=
    Option.eq_none_iff_forall_ne_some.mpr fun s hs => h s (Snippet.decode?_eq_some_iff.mp hs)
  unfold fencedFrom? at hreceives
  rwa [hdecode, Option.bind_none] at hreceives

/-! ## From one document to another -/

/-- The writer of snippets on a fork, when the selection covers a text. -/
theorem runScript_setSnippet_of_covers {call : Call} {text : String}
    (h : call.document.Covers call.selection text) (cancelled : Bool) (begun : Option Nat)
    (t : Transfer) (desk : Desk) :
    ∃ id, Lane.runScript call cancelled [.setSnippet] begun t desk =
      ({ provider := call.provider, script := [], status := .ended (.ok ())
         fork := t.set snippetMime (.text ⟨id,
          Snippet.encode ⟨call.document.uri, call.document.language, text⟩, false, none⟩) },
        { desk with reads := { desk.reads with next := desk.reads.next + 1 } }) := by
  refine ⟨desk.reads.next, ?_⟩
  rw [Lane.runScript, CopyAction.perform, Snippet.ofSelection?,
    Document.slice?_eq_some_iff.mpr h]
  rfl

/-- The writer of snippets, when the selection covers no text. -/
theorem runScript_setSnippet_of_misses {call : Call}
    (h : call.document.Misses call.selection.start ∨ call.document.Misses call.selection.stop)
    (cancelled : Bool) (begun : Option Nat) (t : Transfer) (desk : Desk) :
    Lane.runScript call cancelled [.setSnippet] begun t desk =
      ({ provider := call.provider, script := [], fork := t
         status := .ended (.error (.failed ("selection " ++ toString call.selection.start ++ ".."
          ++ toString call.selection.stop ++ " is outside " ++ call.document.uri))) }, desk) := by
  rw [Lane.runScript, CopyAction.perform, Snippet.ofSelection?,
    Document.slice?_eq_none_iff.mpr h]
  rfl

/-- **From one document to another.** The writer fails and leaves the transfer alone when an end of
the selection is unusable. Otherwise it writes one item that is never held back, and whoever reads
that text in markdown gets a fenced block of exactly what was selected, unless it was selected in
markdown. The reader answers likewise for every text that is read as a snippet, with nothing for
every other text, and never with a failure. -/
theorem snippet_round_trip :
    (∀ (call : Call) (cancelled : Bool) (begun : Option Nat) (t : Transfer) (desk : Desk),
      let out := (Lane.runScript call cancelled [.setSnippet] begun t desk).1
      (call.document.Misses call.selection.start ∨ call.document.Misses call.selection.stop →
        out.fork = t ∧
        out.status = .ended (.error (.failed ("selection " ++ toString call.selection.start ++ ".."
          ++ toString call.selection.stop ++ " is outside " ++ call.document.uri)))) ∧
      (¬ call.document.Misses call.selection.start ∧ ¬ call.document.Misses call.selection.stop →
        ∃ text item raw, call.document.Covers call.selection text ∧ out.status = .ended (.ok ()) ∧
          out.fork = t.set snippetMime item ∧
          (∀ desk task, (Desk.text? desk task item).1 = some raw) ∧
          Snippet.decode? raw = some ⟨call.document.uri, call.document.language, text⟩ ∧
          ∀ (paste : Call) (received : Transfer) (item' : Item), item'.asString = raw →
            paste.document.language = markdownLanguage →
            paste.Receives received item' (if call.document.language = markdownLanguage then none
              else some (Markdown.fencedBlock call.document.language text)))) ∧
    ∀ (paste : Call) (received : Transfer) (item : Item),
      paste.document.language = markdownLanguage →
      (∀ s : Snippet, s.WrittenIn item.asString → paste.Receives received item
        (if s.language = markdownLanguage then none
          else some (Markdown.fencedBlock s.language s.text))) ∧
      ((∀ s : Snippet, ¬ s.WrittenIn item.asString) → paste.Receives received item none) := by
  refine ⟨fun call cancelled begun t desk => ⟨fun hmisses => ?_, fun hmeets => ?_⟩,
    fun paste received item hlanguage => ⟨fun s hs => ?_, fun hnone => ?_⟩⟩
  · rw [runScript_setSnippet_of_misses hmisses]
    exact ⟨rfl, rfl⟩
  · obtain ⟨text, hslice⟩ : ∃ text, call.document.slice? call.selection = some text :=
      Option.ne_none_iff_exists'.mp fun hnone =>
        (Document.slice?_eq_none_iff.mp hnone).elim hmeets.1 hmeets.2
    have hcovers := Document.slice?_eq_some_iff.mp hslice
    obtain ⟨id, hrun⟩ := runScript_setSnippet_of_covers hcovers cancelled begun t desk
    have hwritten := Snippet.decode?_eq_some_iff.mp
      (Snippet.decode?_encode ⟨call.document.uri, call.document.language, text⟩)
    rw [hrun]
    refine ⟨text, _, Snippet.encode ⟨call.document.uri, call.document.language, text⟩, hcovers, rfl,
      rfl, fun _ _ => rfl, Snippet.decode?_encode _, ?_⟩
    intro paste received item' htext hlanguage
    rw [← htext] at hwritten
    exact Call.receives_of_writtenIn hlanguage hwritten received
  · exact Call.receives_of_writtenIn hlanguage hs received
  · exact Call.receives_none hlanguage hnone received

/-- Whether a value is an object. -/
def Json.isObject : Json → Bool
  | .object _ => true
  | _ => false

/-- An array of three strings is no object, and the reader answers it with a fenced block. -/
theorem array_answered :
    let raw := "[\"file:///u\",\"rust\",\"arr\"]"
    let call : Call :=
      ⟨"source-snippet", .paste 0, ⟨"file:///notes/a.md", "markdown", "intro ", 1⟩, .caret 0⟩
    let received : Transfer := ⟨[(snippetMime, .text ⟨0, raw, false, none⟩)], []⟩
    let block := Markdown.fencedBlock "rust" "arr"
    (∀ members, Json.parse? raw ≠ some (.object members)) ∧
      (PasteScript.run call received [.insertSnippet] none false {}).1 =
        .answered (.ok (some [⟨"file:///notes/a.md", 0, 0, block⟩])) := by
  intro raw call received block
  have hobject : (Json.parse? raw).any Json.isObject = false := by decide +kernel
  refine ⟨fun members hmembers => by simp [hmembers, Json.isObject] at hobject, ?_⟩
  have hwritten : Snippet.WrittenIn ⟨"file:///u", "rust", "arr"⟩ raw :=
    Snippet.decode?_eq_some_iff.mp (by decide +kernel)
  have hforeign : ¬ "rust" = markdownLanguage := by decide
  have hreceives := @Call.receives_of_writtenIn call (.text ⟨0, raw, false, none⟩) _ rfl hwritten
    received rfl none false {}
  rw [if_neg (by simp [Desk.text?, Desk.await?]), if_neg hforeign] at hreceives
  exact hreceives

end CopyPaste

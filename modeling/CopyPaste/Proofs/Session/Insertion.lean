import CopyPaste.Proofs.Pasting.Answers
import CopyPaste.Proofs.Session.Builtins
import CopyPaste.Proofs.Transfer.Normalized

/-!
# What the built-in providers insert

When everything that a paste is supplied with is text at hand, nothing is waited for. The paste
then inserts one text in place of the selection, or nothing, and which text that is depends on the
document and on three types only.

* `Transfer.Holds` — a transfer of texts at hand;
* `insertion?` — the text that is inserted, and how the paste ends;
* **`offers_insertLinks`**, **`offers_insertSnippet`** — what a built-in provider answers;
* **`inserts_builtins`** — all of them in turn, and the plain text after them.
-/

namespace CopyPaste

/-! ## Texts at hand -/

/-- A text that was never held back, its identity left out. -/
def Item.atHand (text : String) : Item := .text ⟨0, text, false, none⟩

/-- The transfer holds the given texts under their types and nothing else, and all of them are at
hand. -/
def Transfer.Holds (t : Transfer) (texts : String → Option String) : Prop :=
  ∀ mime, (t.get? mime).map Item.anonymous = (texts mime).map Item.atHand

theorem Transfer.Holds.cases {t : Transfer} {texts : String → Option String} (h : t.Holds texts)
    (mime : String) :
    (t.get? mime = none ∧ texts mime = none) ∨
      ∃ id text, t.get? mime = some (.text ⟨id, text, false, none⟩) ∧ texts mime = some text := by
  have hmime := h mime
  cases htext : texts mime with
  | none =>
      rw [htext, Option.map_none, Option.map_eq_none_iff] at hmime
      exact .inl ⟨hmime, rfl⟩
  | some text =>
      rw [htext, Option.map_some, Option.map_eq_some_iff] at hmime
      obtain ⟨item, hitem, hanonymous⟩ := hmime
      cases item with
      | file file => simp [Item.anonymous, Item.atHand] at hanonymous
      | text value =>
          obtain ⟨id, known, fromPlatform, gate⟩ := value
          simp only [Item.anonymous, Item.atHand, Item.text.injEq, Deferred.mk.injEq,
            true_and] at hanonymous
          obtain ⟨rfl, rfl, rfl⟩ := hanonymous
          exact .inr ⟨id, known, hitem, rfl⟩

/-! ## Offers -/

/-- What comes of a provider that answers with a text in place of the selection, or not at all. -/
def Call.offer (call : Call) : Option String → Turn PasteAnswer
  | some text => .done (.ok (some (call.replacing text)))
  | none => .next

/-- The fenced block for a document of a snippet from a text in another language. -/
def fencedFrom? (d : Document) (text : String) : Option String :=
  (Snippet.decode? text).bind fun snippet =>
    if snippet.language = d.language then none else some snippet.fenced

theorem snippetAnswer_eq_offer (call : Call) (text : String) :
    snippetAnswer call text = call.offer (fencedFrom? call.document text) := by
  unfold snippetAnswer fencedFrom?
  cases Snippet.decode? text with
  | none => rfl
  | some snippet =>
      by_cases h : snippet.language = call.document.language <;> simp [h, Call.offer]

theorem linkAnswer_eq_offer (call : Call) (list : String) :
    linkAnswer call false list = call.offer (UriList.links? call.document.uri list) := by
  unfold linkAnswer
  cases UriList.links? call.document.uri list <;> rfl

namespace PasteAction

/-- The action answers at once, with the given text in place of the selection or not at all. -/
def Offers (a : PasteAction) (call : Call) (t : Transfer) (text : Option String) : Prop :=
  ∀ desk, ∃ after, Desk.Scripted desk after ∧
    a.perform call t none false desk = (call.offer text, false, after)

variable {call : Call} {t : Transfer} {texts : String → Option String}

/-- Nobody waits for a text at hand. -/
theorem withText_atHand (call : Call) (id : Nat) (text : String) (desk : Desk)
    (answer : String → Turn PasteAnswer) :
    ∃ after, Desk.Scripted desk after ∧
      call.withText (.text ⟨id, text, false, none⟩) false desk answer =
        (answer text, false, after) :=
  ⟨_, Desk.scripted_text? desk call.task (.text ⟨id, text, false, none⟩), rfl⟩

/-- **Links are offered for a URI list.** -/
theorem offers_insertLinks (h : t.Holds texts) (call : Call) :
    insertLinks.Offers call t
      ((texts UriList.mime).bind (UriList.links? call.document.uri)) := by
  intro desk
  dsimp only [perform]
  obtain ⟨hitem, htext⟩ | ⟨id, list, hitem, htext⟩ := h.cases UriList.mime <;>
    rw [hitem, htext]
  · exact ⟨desk, .refl desk, rfl⟩
  · obtain ⟨after, hafter, hanswer⟩ := withText_atHand call id list desk (linkAnswer call false)
    exact ⟨after, hafter, hanswer.trans (by rw [linkAnswer_eq_offer]; rfl)⟩

/-- **A fenced block is offered for a snippet,** and only to markdown. -/
theorem offers_insertSnippet (h : t.Holds texts) (call : Call) :
    insertSnippet.Offers call t
      (if call.document.language = markdownLanguage then
        (texts snippetMime).bind (fencedFrom? call.document) else none) := by
  intro desk
  dsimp only [perform]
  split
  · obtain ⟨hitem, htext⟩ | ⟨id, snippet, hitem, htext⟩ := h.cases snippetMime <;>
      rw [hitem, htext]
    · exact ⟨desk, .refl desk, rfl⟩
    · obtain ⟨after, hafter, hanswer⟩ := withText_atHand call id snippet desk (snippetAnswer call)
      exact ⟨after, hafter, hanswer.trans (by rw [snippetAnswer_eq_offer]; rfl)⟩
  · exact ⟨desk, .refl desk, rfl⟩

end PasteAction

/-! ## Pastes that wait for nothing -/

namespace PasteRun

/-- How the paste stands once it has inserted a text in place of its selection, or nothing, and
the editor then. -/
def insert (p : PasteRun) (editor : Editor) : Option (String × PasteOutcome) → PasteStage × Editor
  | some (text, outcome) =>
    editor.attempt [.replacing p.document.uri p.selection text] p.editor outcome
  | none => (.ended (.ok .noEdit), editor)

/-- Asking the providers in `left` inserts the given text, whatever the desk is like. -/
def Inserts (p : PasteRun) (task : Task) (left : List (String × PasteScript))
    (result : Option (String × PasteOutcome)) : Prop :=
  ∀ desk, ((p.scan task left false desk).1, (p.scan task left false desk).2.2.editor) =
    p.insert desk.editor result

theorem insert_of_applyEdit (p : PasteRun) (task : Task) (text : String) (outcome : PasteOutcome)
    (desk : Desk) :
    ((p.applyEdit task [.replacing p.document.uri p.selection text] outcome desk).1,
        (p.applyEdit task [.replacing p.document.uri p.selection text] outcome desk).2.editor) =
      p.insert desk.editor (some (text, outcome)) := by
  obtain ⟨hstage, heditor⟩ := p.applyEdit_eq_attempt task
    [.replacing p.document.uri p.selection text] outcome desk
  rw [hstage, heditor]
  rfl

variable {p : PasteRun} {task : Task}

/-- A provider that offers a text comes before those after it. -/
theorem inserts_cons {name : String} {a : PasteAction} {text : Option String}
    {rest : List (String × PasteScript)} {next : Option (String × PasteOutcome)}
    (h : a.Offers (p.call task name) p.transfer text) (hrest : p.Inserts task rest next) :
    p.Inserts task ((name, [a]) :: rest) ((text.map (·, .applied name)).or next) := by
  intro desk
  obtain ⟨after, hafter, hperform⟩ :=
    h (desk.note task name (.asked p.document p.selection p.transfer))
  have heditor : after.editor = desk.editor := hafter.editor
  rw [scan, if_neg (by simp), PasteScript.run, hperform, ← heditor]
  cases text with
  | none => exact hrest _
  | some text => exact p.insert_of_applyEdit task text (.applied name) _

/-- With nobody left to ask the plain text is inserted, if the paste may fall back. -/
theorem inserts_nil (task : Task) {texts : String → Option String} (h : p.transfer.Holds texts) :
    p.Inserts task [] (if p.plainTextFallback then (texts plainMime).map (·, .plainText)
      else none) := by
  intro desk
  show ((p.fallBack task desk).1, (p.fallBack task desk).2.editor) = _
  unfold fallBack
  split
  · obtain ⟨hitem, htext⟩ | ⟨id, text, hitem, htext⟩ := h.cases plainMime <;> rw [hitem, htext]
    · rfl
    · exact p.insert_of_applyEdit task text .plainText _
  · rfl

end PasteRun

/-! ## The built-in providers -/

/-- What a paste into a document inserts with the built-in providers and how it ends: links or a
fenced block in markdown, otherwise the plain text if the paste may fall back on it. -/
def insertion? (d : Document) (fallback : Bool) (texts : String → Option String) :
    Option (String × PasteOutcome) :=
  let plain := if fallback then (texts plainMime).map (·, .plainText) else none
  if d.language = markdownLanguage then
    let links := (texts UriList.mime).bind (UriList.links? d.uri)
    let snippet := (texts snippetMime).bind (fencedFrom? d)
    (links.map (·, .applied "markdown-uri-list")).or
      ((snippet.map (·, .applied "source-snippet")).or plain)
  else plain

/-- The text that is inserted, empty if there is none. -/
def insertedText (d : Document) (fallback : Bool) (texts : String → Option String) : String :=
  ((insertion? d fallback texts).map Prod.fst).getD ""

/-- **With the built-in providers a paste waits for nothing,** and this is what it inserts. -/
theorem PasteRun.inserts_builtins {p : PasteRun} {texts : String → Option String} (task : Task)
    (h : p.transfer.Holds texts) :
    p.Inserts task ((Registry.registerDefaults {}).pasters p.document)
      (insertion? p.document p.plainTextFallback texts) := by
  have hplain := PasteRun.inserts_nil task h
  have hsnippet := PasteRun.inserts_cons
    (PasteAction.offers_insertSnippet h (p.call task "source-snippet")) hplain
  rw [Registry.pasters_defaults]
  unfold insertion?
  by_cases hmarkdown : p.document.language = markdownLanguage
  · have hlinks := PasteRun.inserts_cons
      (PasteAction.offers_insertLinks h (p.call task "markdown-uri-list")) hsnippet
    simpa [hmarkdown, call] using hlinks
  · simpa [hmarkdown, call] using hsnippet

end CopyPaste

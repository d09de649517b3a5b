import CopyPaste.Proofs.Session.Transplant
import CopyPaste.Proofs.UriList

/-!
# Dragged URIs from end to end

What comes of pasting URIs that were dragged in from another editor. The clipboard brings them
twice, as plain text and as a list, under a handle that belongs to no copy of this session. In
markdown the list becomes links if there is a URI in it; everywhere else, and if there is none, the
plain text goes in as it is, if it may.

* `Session.draggedTexts` — what is dragged, by type;
* **`Session.pastable_dragged`** — the paste is supplied with exactly that;
* **`Session.pasteUris_spec`** — every target, every offset and every list of URIs.
-/

namespace CopyPaste.Session

/-- What dragged URIs bring with them, by type. -/
def draggedTexts (uris : List String) (mime : String) : Option String :=
  if mime = UriList.mime then some (String.intercalate "\r\n" uris)
  else if mime = plainMime then some (String.intercalate "\n" uris)
  else none

theorem lastItem?_draggedPayload (uris : List String) (foreign : Handle) {mime : String}
    (hmime : mime ≠ handleMime) :
    (draggedPayload uris foreign).lastItem? mime = (draggedTexts uris mime).map Item.atHand := by
  have hhandle : (handleMime == mime) = false := by simpa using Ne.symm hmime
  have hitems : (draggedPayload uris foreign).items =
      [.string plainMime (.inline (String.intercalate "\n" uris)),
        .string UriList.mime (.inline (String.intercalate "\r\n" uris)),
        .string handleMime (.inline foreign.text)] := rfl
  unfold Payload.lastItem? draggedTexts
  rw [hitems]
  by_cases hlist : mime = UriList.mime
  · subst hlist
    rfl
  · have hlist' : (UriList.mime == mime) = false := by simpa using Ne.symm hlist
    rw [if_neg hlist]
    by_cases hplain : mime = plainMime
    · subst hplain
      rfl
    · have hplain' : (plainMime == mime) = false := by simpa using Ne.symm hplain
      rw [if_neg hplain]
      simp [PayloadItem.item?, hhandle, hlist', hplain']

/-- **A new session is supplied with what is dragged into it.** No copy is pending there, so the
handle of another editor belongs to none. -/
theorem pastable_dragged (config : Config) (d : Document) (uris : List String)
    (foreign : Handle) :
    ((new config).mapEditor (·.openDocument d)).Pastable d (draggedPayload uris foreign)
      foreign.text (fun _ => False) (· = draggedTexts uris) where
  unpasted := (unpasted_new config).mapEditor _
  document := rfl
  carries := rfl
  brings := by
    intro k hk
    have hpending := (Coordinator.correlate?_eq_some_iff.mp hk).1
    cases hpending
  nodup := fun _ hnone => hnone.elim
  atHand := by
    intro offset copied hallowed
    cases copied with
    | some t => exact hallowed.elim
    | none =>
        exact ⟨_, rfl, rfl, fun mime hmime => lastItem?_draggedPayload uris foreign hmime⟩

/-- What dragging URIs into a document inserts: links in markdown, if there is a URI among them,
otherwise all of it line by line if plain text may be inserted at all. -/
def dragged (config : Config) (target documentUri : String) (uris : List String) : String :=
  if Path.languageOf target = markdownLanguage ∧ UriList.listed uris ≠ [] then
    String.intercalate " " ((UriList.listed uris).map (Markdown.link documentUri))
  else if config.plainTextFallback then String.intercalate "\n" uris
  else ""

theorem insertedText_draggedTexts (config : Config) {d : Document} {path : String}
    (hd : d.language = Path.languageOf path) {uris : List String}
    (hlines : ∀ uri ∈ uris, '\n' ∉ uri.toList) :
    insertedText d config.plainTextFallback (draggedTexts uris) =
      dragged config path d.uri uris := by
  have hlinks : (draggedTexts uris UriList.mime).bind (UriList.links? d.uri) =
      if UriList.listed uris = [] then none
      else some (String.intercalate " " ((UriList.listed uris).map (Markdown.link d.uri))) :=
    UriList.links?_intercalate hlines d.uri
  have hsnippet : draggedTexts uris snippetMime = none := rfl
  have hplain : draggedTexts uris plainMime = some (String.intercalate "\n" uris) := rfl
  unfold insertedText insertion? dragged
  rw [hlinks, hsnippet, hplain, ← hd]
  by_cases hmarkdown : d.language = markdownLanguage
  · by_cases hnone : UriList.listed uris = []
    · cases config.plainTextFallback <;> simp [hmarkdown, hnone]
    · simp [hmarkdown, hnone]
  · cases config.plainTextFallback <;> simp [hmarkdown]

/-- **What comes of dragging URIs into a file,** for every file that can be read and every list of
URIs without line feeds. -/
theorem pasteUris_spec (files : Files) (config : Config) {target T : String}
    (htarget : files.read target = .ok T) (offset : Nat) {uris : List String}
    (hlines : ∀ uri ∈ uris, '\n' ∉ uri.toList) (foreign : Handle) :
    pasteUris files config target offset uris foreign =
      match Text.splitAt? T.toList offset with
      | none => .error (.range offset offset (uriOf files target))
      | some (before, after) =>
        .ok (String.ofList (before ++
          (dragged config target (uriOf files target) uris).toList ++ after)) := by
  obtain ⟨d, hd⟩ : ∃ d : Document, d =
    { uri := uriOf files target, language := Path.languageOf target, text := T } := ⟨_, rfl⟩
  have hload : load files target = .ok d := by
    simp [load, htarget, hd, uriOf]
  have hrun : pasteUris files config target offset uris foreign =
      (((new config).mapEditor (·.openDocument d)).paste offset
        (draggedPayload uris foreign)).1.bind fun _ =>
          (((new config).mapEditor (·.openDocument d)).paste offset
            (draggedPayload uris foreign)).2.text := by
    unfold pasteUris openFile
    rw [hload]
    rfl
  have hpaste := paste_inserts (pastable_dragged config d uris foreign) offset []
  have hinserted : insertedText d config.plainTextFallback (draggedTexts uris) =
      dragged config target d.uri uris := insertedText_draggedTexts config (by rw [hd]) hlines
  have htext : d.text = T := by rw [hd]
  have huri : d.uri = uriOf files target := by rw [hd]
  have hconfig : ((new config).mapEditor (·.openDocument d)).coordinator.config = config := rfl
  rw [hconfig, htext, huri] at hpaste
  rw [hrun]
  cases hsplit : Text.splitAt? T.toList offset with
  | none =>
      rw [hsplit] at hpaste
      rw [hpaste]
      rfl
  | some parts =>
      rw [hsplit] at hpaste
      obtain ⟨texts, rfl, hpaste⟩ := hpaste
      rw [hinserted, huri] at hpaste
      exact hpaste

/-- A comment, a blank argument and a stray carriage return around what becomes two links. -/
theorem dragged_into_markdown :
    someFiles.read "b.md" = .ok "ü:\n" ∧
      (∀ uri ∈ ["# c", " file:///w/c d.png\r", "", "http://x/y"], '\n' ∉ uri.toList) ∧
      pasteUris someFiles {} "b.md" 3 ["# c", " file:///w/c d.png\r", "", "http://x/y"] ⟨0⟩ =
        .ok "ü:![c d.png](c%20d.png) [y](http://x/y)\n" := by
  have hlines : ∀ uri ∈ ["# c", " file:///w/c d.png\r", "", "http://x/y"],
      '\n' ∉ uri.toList := by decide
  have hlinks : dragged {} "b.md" (uriOf someFiles "b.md")
      ["# c", " file:///w/c d.png\r", "", "http://x/y"] =
        "![c d.png](c%20d.png) [y](http://x/y)" := by decide +kernel
  refine ⟨by rfl, hlines, (pasteUris_spec someFiles {} rfl 3 hlines ⟨0⟩).trans ?_⟩
  rw [hlinks]
  rfl

end CopyPaste.Session

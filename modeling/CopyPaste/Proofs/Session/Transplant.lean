import CopyPaste.Proofs.Json.Snippet
import CopyPaste.Proofs.Session.Copying
import CopyPaste.Session.Transplant

/-!
# A transplant from end to end

What comes of copying a range of one file and pasting it into another. The text goes in as a fenced
block where markdown is pasted into from another language and as it is elsewhere, if it may. The
runtime has no say in it, unless the paste may wait for a limited time only: if the copy gets no turn
in that time, the text goes in as it is.

* `Session.transplanted` — what is inserted;
* `Session.transplant_cases` — every configuration;
* **`Session.transplant_spec`** — every pair of files, every range, every offset and every schedule,
  for a paste that may wait as long as it takes.
-/

namespace CopyPaste.Session

/-- What a transplant inserts: a fenced block when the text comes to markdown from another
language, otherwise the text itself if plain text may be inserted at all. -/
def transplanted (config : Config) (source target selected : String) : String :=
  if Path.languageOf target = markdownLanguage ∧ Path.languageOf source ≠ markdownLanguage then
    Markdown.fencedBlock (Path.languageOf source) selected
  else if config.plainTextFallback then selected
  else ""

theorem insertedText_plainTexts (config : Config) (d : Document) (text : String) :
    insertedText d config.plainTextFallback (plainTexts text) =
      if config.plainTextFallback then text else "" := by
  have hlinks : plainTexts text UriList.mime = none := rfl
  have hsnippet : plainTexts text snippetMime = none := rfl
  have hplain : plainTexts text plainMime = some text := rfl
  unfold insertedText insertion?
  rw [hlinks, hsnippet, hplain]
  cases config.plainTextFallback <;> simp

theorem insertedText_copiedTexts (config : Config) {d target : Document} {source path : String}
    (hd : d.language = Path.languageOf source) (htarget : target.language = Path.languageOf path)
    (text : String) :
    insertedText target config.plainTextFallback (copiedTexts d text) =
      transplanted config source path text := by
  have hlinks : copiedTexts d text UriList.mime = none := rfl
  have hsnippet : (copiedTexts d text snippetMime).bind (fencedFrom? target) =
      if d.language = target.language then none
      else some (Markdown.fencedBlock d.language text) := by
    simp [copiedTexts, fencedFrom?, Snippet.decode?_encode, Snippet.fenced]
  have hplain : copiedTexts d text plainMime = some text := rfl
  unfold insertedText insertion? transplanted
  rw [hlinks, hsnippet, hplain, ← hd, ← htarget]
  by_cases hmarkdown : target.language = markdownLanguage
  · by_cases hsame : d.language = markdownLanguage
    · cases config.plainTextFallback <;> simp [hmarkdown, hsame]
    · simp [hmarkdown, hsame]
  · cases config.plainTextFallback <;> simp [hmarkdown]

/-- The name under which a session opens a file. -/
def uriOf (files : Files) (path : String) : String :=
  fileUri (Path.absolute files.directory path)

/-- What a transplant may insert: with a limit on the waiting, the text may go in as it is because
its copy had no turn in time. -/
def MayInsert (config : Config) (source target selected inserted : String) : Prop :=
  inserted = transplanted config source target selected ∨
    config.copyWaitTimeout.isSome = true ∧
      inserted = if config.plainTextFallback then selected else ""

/-- What comes of pasting a text that was copied from a document into another one. -/
theorem Bears.inserts {s : Session} {config : Config} {d e : Document} {source target text : String}
    {fresh : Handle}
    (h : s.Bears config fresh.text (AddsSnippet (Payload.set {} plainMime text) d text))
    (hd : d.language = Path.languageOf source) (he : e.language = Path.languageOf target)
    (offset : Nat) (schedule : List Beat) : ∃ inserted,
      MayInsert config source target text inserted ∧
      (((s.mapEditor (·.openDocument e)).paste offset (copiedPayload text fresh) schedule).1.bind
        fun _ => ((s.mapEditor (·.openDocument e)).paste offset (copiedPayload text fresh)
          schedule).2.text) =
        match Text.splitAt? e.text.toList offset with
        | none => .error (.range offset offset e.uri)
        | some (before, after) => .ok (String.ofList (before ++ inserted.toList ++ after)) := by
  have hpaste := paste_inserts (h.pastable e) offset schedule
  have hconfig : (s.mapEditor (·.openDocument e)).coordinator.config = config := h.config
  rw [hconfig] at hpaste
  cases hsplit : Text.splitAt? e.text.toList offset with
  | none =>
      rw [hsplit] at hpaste
      refine ⟨_, .inl rfl, ?_⟩
      rw [hpaste]
      rfl
  | some parts =>
      rw [hsplit] at hpaste
      obtain ⟨texts, hmay, hpaste⟩ := hpaste
      refine ⟨insertedText e config.plainTextFallback texts, ?_, hpaste⟩
      obtain rfl | ⟨hlimit, rfl⟩ := hmay
      · exact .inl (insertedText_copiedTexts config hd he text)
      · exact .inr ⟨hlimit, insertedText_plainTexts config e text⟩

/-- What a transplant comes to under every configuration and every schedule. -/
theorem transplant_cases (files : Files) (config : Config) {source target S T : String}
    (hsource : files.read source = .ok S) (htarget : files.read target = .ok T)
    (start stop offset : Nat) (fresh : Handle) (reading pasting : List Beat) : ∃ inserted,
      (∀ selected, Text.slice? S (min start stop) (max start stop) = some selected →
        MayInsert config source target selected inserted) ∧
      transplant files config source start stop target offset fresh reading pasting =
        match Text.slice? S (min start stop) (max start stop) with
        | none => .error (.range start stop (uriOf files source))
        | some _ =>
          if start = stop then .error (.copyDeclined .emptySelection)
          else
            match Text.splitAt? T.toList offset with
            | none => .error (.range offset offset (uriOf files target))
            | some (before, after) =>
              .ok (String.ofList (before ++ inserted.toList ++ after)) := by
  obtain ⟨d, hd⟩ : ∃ d : Document, d =
    { uri := uriOf files source, language := Path.languageOf source, text := S } := ⟨_, rfl⟩
  obtain ⟨e, he⟩ : ∃ e : Document, e =
    { uri := uriOf files target, language := Path.languageOf target, text := T } := ⟨_, rfl⟩
  have hload : load files source = .ok d := by
    simp [load, hsource, hd, uriOf]
  have hload' : load files target = .ok e := by
    simp [load, htarget, he, uriOf]
  have hunpasted : ((new config).mapEditor (·.openDocument d)).Unpasted :=
    (unpasted_new config).mapEditor _
  have hdocument : ((new config).mapEditor (·.openDocument d)).document? = some d := rfl
  have htext : d.text = S := by rw [hd]
  obtain ⟨copied, hcopied⟩ : ∃ copied, copied =
    ((new config).mapEditor (·.openDocument d)).copy start stop fresh := ⟨_, rfl⟩
  have hrun : transplant files config source start stop target offset fresh reading pasting =
      copied.1.bind fun payload =>
        (((copied.2.pass reading).mapEditor (·.openDocument e)).paste offset payload pasting).1.bind
          fun _ => (((copied.2.pass reading).mapEditor (·.openDocument e)).paste offset payload
            pasting).2.text := by
    unfold transplant openFile
    rw [hload, hload', hcopied]
    rfl
  rw [hrun, ← htext]
  cases hslice : Text.slice? d.text (min start stop) (max start stop) with
  | none =>
      refine ⟨"", fun _ hsome => absurd hsome.symm (Option.some_ne_none _), ?_⟩
      rw [hcopied, copy_of_unusable hdocument hslice]
      simp [Except.bind, hd]
  | some selected =>
      by_cases hempty : start = stop
      · subst hempty
        refine ⟨transplanted config source target selected, fun other hother => ?_, ?_⟩
        · exact .inl (by rw [Option.some.inj hother])
        · simp [hcopied, copy_of_empty hunpasted hdocument hslice, Except.bind]
      · obtain ⟨s, hcopy, hbears⟩ := copy_bears hunpasted hdocument hempty hslice fresh
        have hlanguage : d.language = Path.languageOf source := by rw [hd]
        have hlanguage' : e.language = Path.languageOf target := by rw [he]
        obtain ⟨inserted, hmay, hpaste⟩ :=
          (hbears.pass reading).inserts hlanguage hlanguage' offset pasting
        refine ⟨inserted, fun other hother => Option.some.inj hother ▸ hmay, ?_⟩
        have htext' : e.text = T := by rw [he]
        have huri : e.uri = uriOf files target := by rw [he]
        rw [htext', huri] at hpaste
        rw [hcopied, hcopy]
        dsimp only
        rw [if_neg hempty]
        exact hpaste

/-- **What a transplant comes to,** for every pair of files that can be read and every schedule, if
the paste may wait for its copy as long as it takes. The range may be given in either direction; it
is looked at before the target, and an unusable range before an empty one. -/
theorem transplant_spec (files : Files) (config : Config)
    (hlimit : config.copyWaitTimeout = none) {source target S T : String}
    (hsource : files.read source = .ok S) (htarget : files.read target = .ok T)
    (start stop offset : Nat) (fresh : Handle) (reading pasting : List Beat) :
    transplant files config source start stop target offset fresh reading pasting =
      match Text.slice? S (min start stop) (max start stop) with
      | none => .error (.range start stop (uriOf files source))
      | some selected =>
        if start = stop then .error (.copyDeclined .emptySelection)
        else
          match Text.splitAt? T.toList offset with
          | none => .error (.range offset offset (uriOf files target))
          | some (before, after) =>
            .ok (String.ofList (before ++
              (transplanted config source target selected).toList ++ after)) := by
  obtain ⟨inserted, hinserted, htransplant⟩ := transplant_cases files config hsource htarget start
    stop offset fresh reading pasting
  rw [htransplant]
  cases hslice : Text.slice? S (min start stop) (max start stop) with
  | none => rfl
  | some selected =>
      obtain rfl | ⟨hsome, -⟩ := hinserted selected hslice
      · rfl
      · rw [hlimit] at hsome
        cases hsome

/-- A source file in Rust, a markdown file and two plain ones. -/
def someFiles : Files :=
  Files.ofReads "/w" [("lib.rs", .ok "let é = 1;\n"), ("b.md", .ok "ü:\n"), ("a.txt", .ok "hello"),
    ("b.txt", .ok "x")]

/-- From behind the end of a statement back to its start, between the lines of a markdown text. The
paste has its turn before the copy and waits for it. -/
theorem rust_comes_fenced :
    ({} : Config).copyWaitTimeout = none ∧ someFiles.read "lib.rs" = .ok "let é = 1;\n" ∧
      someFiles.read "b.md" = .ok "ü:\n" ∧
      transplant someFiles {} "lib.rs" 11 4 "b.md" 4 ⟨0⟩ [.tick] [.turn (.paste 0), .tick] =
        .ok "ü:\n```rust\né = 1;\n```" :=
  ⟨by rfl, by rfl, by rfl, (transplant_spec someFiles {} rfl rfl rfl 11 4 4 ⟨0⟩ [.tick]
    [.turn (.paste 0), .tick]).trans (by rfl)⟩

/-- No range ends before it starts, and yet a transplant of what lies between its ends goes
through. -/
theorem transplant_of_reversed_range : Text.slice? "hello" 5 2 = none ∧
    someFiles.read "a.txt" = .ok "hello" ∧ someFiles.read "b.txt" = .ok "x" ∧
      transplant someFiles {} "a.txt" 5 2 "b.txt" 0 ⟨0⟩ = .ok "llox" := by
  refine ⟨by decide, rfl, rfl, ?_⟩
  decide +kernel

end CopyPaste.Session

import CopyPaste.Proofs.Editor
import CopyPaste.Proofs.Pasting.Supply
import CopyPaste.Proofs.Session.Insertion
import CopyPaste.Proofs.Session.Schedule

/-!
# Pasting in a session

In a session with the built-in providers in which nothing was pasted yet, a paste ends well under
every schedule. Its providers wait for nothing, so what it makes of the document depends on what it
is supplied with only: the payload, and what its copy comes to unless its time is up before.

* `Session.Pastable` — a payload that can be pasted, and the texts that it may be pasted with;
* **`endsWell_ofPayload`** — whatever the copy brings, the paste ends well;
* **`paste_inserts`** — what the paste makes of the document.
-/

namespace CopyPaste

namespace PasteRun

/-! ## Supplies of texts -/

/-- A paste sees texts at hand if that is all that the copy and the payload hold. -/
theorem holds_supply {p : PasteRun} {payload : Payload} {reads : Reads}
    (hp : p.transfer = (Transfer.ofPayload payload reads).1) {copied : Option Transfer}
    (hcopied : ∀ t, copied = some t → t.keys.Nodup) {texts : String → Option String}
    (hreserved : texts handleMime = none)
    (htexts : ∀ mime, mime ≠ handleMime →
      ((copied.bind (·.get? mime)).map Item.anonymous).or (payload.lastItem? mime) =
        (texts mime).map Item.atHand) :
    (p.supply copied).transfer.Holds texts := by
  have hnodup : p.transfer.keys.Nodup := by
    rw [hp]
    exact Transfer.nodup_keys_ofPayload payload reads
  intro mime
  rw [get?_supply hnodup hcopied]
  by_cases hmime : handleMime = mime
  · rw [if_pos hmime, ← hmime, hreserved]
    rfl
  · rw [if_neg hmime, Option.map_or, hp, Transfer.get?_ofPayload, htexts mime (Ne.symm hmime)]

/-! ## The built-in providers -/

/-- What a paste comes to that asks the built-in providers. -/
theorem askAll_builtins {p : PasteRun} {copied : Option Transfer} {texts : String → Option String}
    (hproviders : p.providers = (Registry.registerDefaults {}).pasters p.document)
    (hcancelled : p.cancelled = false) (h : (p.supply copied).transfer.Holds texts) (task : Task)
    (desk : Desk) :
    ((p.askAll task copied desk).1.stage, (p.askAll task copied desk).2.editor) =
      p.insert desk.editor (insertion? p.document p.plainTextFallback texts) := by
  have hinserts := inserts_builtins task h desk
  show (((p.supply copied).scan task p.providers p.cancelled desk).1,
    ((p.supply copied).scan task p.providers p.cancelled desk).2.2.editor) = _
  rw [hproviders, hcancelled]
  exact hinserts

/-- A text goes in at the caret of the document that the paste was issued on. -/
theorem insert_caret {p : PasteRun} {e : Editor} (hdocument : e.document = some p.document)
    (hid : p.editor = e.id) {offset : Nat} (hselection : p.selection = .caret offset)
    {before after : List Char}
    (hsplit : Text.splitAt? p.document.text.toList offset = some (before, after))
    (result : Option (String × PasteOutcome)) : ∃ outcome e',
      p.insert e result = (.ended (.ok outcome), e') ∧
        e'.text? =
          some (String.ofList (before ++ ((result.map Prod.fst).getD "").toList ++ after)) := by
  cases result with
  | none =>
      refine ⟨.noEdit, e, rfl, ?_⟩
      obtain ⟨hwhole, -⟩ := Text.append_of_splitAt? hsplit
      simp [Editor.text?, hdocument, ← hwhole]
  | some inserted =>
      obtain ⟨text, outcome⟩ := inserted
      have hcut : Text.cut? p.document.text.toList offset offset = some (before, [], after) := by
        obtain ⟨hwhole, hwidth⟩ := Text.append_of_splitAt? hsplit
        rw [Text.cut?_eq_some_iff]
        exact ⟨by simpa using hwhole, hwidth, by simpa using hwidth⟩
      have happly := e.apply_singleton (.replacing p.document.uri (.caret offset) text)
      simp only [hdocument, TextEdit.replacing, Selection.start_caret, Selection.stop_caret, hcut,
        ne_eq, not_true_eq_false, if_false] at happly
      refine ⟨outcome, { e with
        document := some (p.document.withText (String.ofList (before ++ text.toList ++ after)))
        selection := some (.caret (offset + text.utf8ByteSize)) }, ?_, rfl⟩
      simp only [insert, Editor.attempt, hid, hselection, TextEdit.replacing,
        Selection.start_caret, Selection.stop_caret, happly]

end PasteRun

namespace Session

/-- A session with the built-in providers in which nothing was pasted yet, so nobody sits waiting
for a copy. -/
structure Unpasted (s : Session) : Prop where
  registry : s.coordinator.registry = Registry.registerDefaults {}
  pastes : s.coordinator.pastes = []
  vacant : ∀ c ∈ s.coordinator.copies, c.seats = {}

theorem unpasted_new (config : Config) : (new config).Unpasted :=
  ⟨rfl, rfl, fun _ hc => absurd hc List.not_mem_nil⟩

theorem Unpasted.mapEditor {s : Session} (h : s.Unpasted) (f : Editor → Editor) :
    (s.mapEditor f).Unpasted :=
  ⟨h.registry, h.pastes, h.vacant⟩

/-! ## Pasting -/

theorem slice?_caret (d : Document) (offset : Nat) :
    d.slice? (.caret offset) = (Text.splitAt? d.text.toList offset).map fun _ => "" := by
  unfold Document.slice? Text.slice? Text.cut?
  rw [Selection.start_caret, Selection.stop_caret, if_pos (Nat.le_refl offset), Nat.sub_self]
  cases Text.splitAt? d.text.toList offset with
  | none => rfl
  | some parts =>
      obtain ⟨before, after⟩ := parts
      cases after <;> rfl

/-- The paste that is taken over with the caret at an offset. -/
def pasteAt (s : Session) (d : Document) (payload : Payload) (handle : String) (offset : Nat) :
    PasteRun :=
  s.coordinator.newPaste handle d (.caret offset)
    (Transfer.ofPayload payload s.coordinator.desk.reads).1
    ((Registry.registerDefaults {}).pasters d) false

/-- A paste goes without a result if it has no copy or may run out of time. -/
theorem allows_none_iff {s : Session} {d : Document} {payload : Payload} {handle : String}
    {offset : Nat} {kind : Transfer → Prop} :
    (s.pasteAt d payload handle offset).Allows kind none ↔
      s.coordinator.correlate? handle = none ∨
        s.coordinator.config.copyWaitTimeout.isSome = true :=
  Iff.rfl

/-- A payload can be pasted into the document of a session. The copy that its handle belongs to, if
any, brings a transfer of a kind, and whatever the paste is supplied with, it amounts to texts at
hand that it `may` be pasted with. -/
structure Pastable (s : Session) (d : Document) (payload : Payload) (handle : String)
    (kind : Transfer → Prop) (may : (String → Option String) → Prop) : Prop where
  unpasted : s.Unpasted
  document : s.document? = some d
  carries : payload.get? handleMime = some handle
  brings : ∀ k, s.coordinator.correlate? handle = some k → s.coordinator.Brings k kind
  nodup : ∀ t, kind t → t.keys.Nodup
  /-- What the copy holds wins. -/
  atHand : ∀ offset copied, (s.pasteAt d payload handle offset).Allows kind copied →
    ∃ texts, may texts ∧ texts handleMime = none ∧ ∀ mime, mime ≠ handleMime →
      ((copied.bind (·.get? mime)).map Item.anonymous).or (payload.lastItem? mime) =
        (texts mime).map Item.atHand

/-- The text of a document once one of the texts that may come of a paste stands in it. -/
def Inserted (d : Document) (fallback : Bool) (may : (String → Option String) → Prop)
    (before after : List Char) (text : Option String) : Prop :=
  ∃ texts, may texts ∧
    text = some (String.ofList (before ++ (insertedText d fallback texts).toList ++ after))

section Pastable

variable {s : Session} {d : Document} {payload : Payload} {handle : String}
  {kind : Transfer → Prop} {may : (String → Option String) → Prop}

theorem Pastable.admitPaste (h : s.Pastable d payload handle kind may) (selection : Selection) :
    (s.mapEditor (·.select selection)).coordinator.admitPaste (some payload) =
      .ok (payload, d, selection, (Registry.registerDefaults {}).pasters d, handle) := by
  have hproviders : ((Registry.registerDefaults {}).pasters d).isEmpty = false := by
    rw [Registry.pasters_defaults]
    split <;> rfl
  have hdocument : (s.mapEditor (·.select selection)).coordinator.editor.document = some d :=
    h.document
  have hselection : (s.mapEditor (·.select selection)).coordinator.editor.selection =
      some selection := rfl
  have hregistry : (s.mapEditor (·.select selection)).coordinator.registry = _ :=
    h.unpasted.registry
  unfold Coordinator.admitPaste
  rw [hdocument, hselection, hregistry]
  simp [hproviders, h.carries]

/-- **Whatever its copy brings, the paste ends well.** -/
theorem Pastable.endsWell (h : s.Pastable d payload handle kind may) {offset : Nat}
    {before after : List Char}
    (hsplit : Text.splitAt? d.text.toList offset = some (before, after)) :
    (s.pasteAt d payload handle offset).EndsWell
      (s.mapEditor (·.select (.caret offset))).coordinator.editor kind
      fun e => Inserted d s.coordinator.config.plainTextFallback may before after e.text? := by
  intro stage copied desk hallowed heditor
  obtain ⟨p, hp⟩ : ∃ p, p = { s.pasteAt d payload handle offset with stage } := ⟨_, rfl⟩
  obtain ⟨texts, hmay, hreserved, htexts⟩ := h.atHand offset copied hallowed
  have hnodup : ∀ t, copied = some t → t.keys.Nodup := by
    rintro t rfl
    exact h.nodup t hallowed
  have hholds : (p.supply copied).transfer.Holds texts :=
    PasteRun.holds_supply (by rw [hp]; rfl) hnodup hreserved htexts
  have hask := PasteRun.askAll_builtins (by rw [hp]; rfl) (by rw [hp]; rfl) hholds (.paste 0) desk
  obtain ⟨outcome, e, hinsert, htext⟩ := PasteRun.insert_caret (p := p) (e := desk.editor)
    (by rw [heditor, hp]; exact h.document) (by rw [heditor, hp]; rfl) (by rw [hp]; rfl)
    (by rw [hp]; exact hsplit) (insertion? p.document p.plainTextFallback texts)
  obtain ⟨hstage, hafter⟩ := Prod.mk.inj (hask.trans hinsert)
  rw [← hp]
  refine ⟨outcome, hstage, texts, hmay, ?_⟩
  rw [hafter, htext, hp]
  rfl

/-- The paste is taken over, and over in the end whatever the runtime does meanwhile. -/
theorem Pastable.ended (h : s.Pastable d payload handle kind may) {offset : Nat}
    {before after : List Char}
    (hsplit : Text.splitAt? d.text.toList offset = some (before, after)) (schedule : List Beat) :
    ∃ taken, (s.mapEditor (·.select (.caret offset))).coordinator.paste (some payload) false =
        (.taken 0, taken) ∧
      (((taken.run 0).pass schedule).settle).Ended
        fun e => Inserted d s.coordinator.config.plainTextFallback may before after e.text? := by
  obtain ⟨q, hq⟩ : ∃ q, q = s.pasteAt d payload handle offset := ⟨_, rfl⟩
  obtain ⟨m, hm⟩ : ∃ m, m = (s.mapEditor (·.select (.caret offset))).coordinator := ⟨_, rfl⟩
  obtain ⟨taken, htaken⟩ : ∃ taken, taken = { m with
    desk := { m.desk with reads := (Transfer.ofPayload payload m.desk.reads).2 }
    pastes := [q] } := ⟨_, rfl⟩
  have hpaste : m.paste (some payload) false = (.taken 0, taken) := by
    have hpastes : m.pastes = [] := by
      rw [hm]
      exact h.unpasted.pastes
    have hnew : q = m.newPaste handle d (.caret offset)
        (Transfer.ofPayload payload m.desk.reads).1 ((Registry.registerDefaults {}).pasters d)
        false := by
      rw [hq, hm]
      rfl
    unfold Coordinator.paste
    rw [hm, h.admitPaste (.caret offset), ← hm]
    simp [hpastes, htaken, hnew]
  have hunderway : (taken.run 0).Underway q taken.editor kind :=
    Coordinator.underway_run (by rw [htaken]) (by rw [hq]; rfl) (by rw [hq]; rfl)
      (by rw [htaken, hm]; exact h.unpasted.vacant)
      (by rw [htaken, hm, hq]; exact h.brings)
  have hends := h.endsWell hsplit
  rw [← hq, ← hm] at hends
  have heditor : taken.editor = m.editor := by rw [htaken]; rfl
  rw [heditor] at hunderway
  refine ⟨taken, by rw [← hm, hpaste], Coordinator.ended_settle hunderway hends schedule⟩

/-- **What a paste makes of the open document,** whatever the runtime does meanwhile. One of the
texts that may come of it stands at the caret and everything else is kept, unless the offset is
unusable. -/
theorem paste_inserts (h : s.Pastable d payload handle kind may) (offset : Nat)
    (schedule : List Beat) :
    match Text.splitAt? d.text.toList offset with
    | none => (s.paste offset payload schedule).1 = .error (.range offset offset d.uri)
    | some (before, after) => ∃ texts, may texts ∧
        ((s.paste offset payload schedule).1.bind fun _ =>
            (s.paste offset payload schedule).2.text) =
          .ok (String.ofList (before ++
            (insertedText d s.coordinator.config.plainTextFallback texts).toList ++ after)) := by
  unfold paste
  rw [h.document]
  dsimp only
  rw [slice?_caret]
  cases hsplit : Text.splitAt? d.text.toList offset with
  | none => rfl
  | some parts =>
      obtain ⟨before, after⟩ := parts
      obtain ⟨taken, hpaste, p, outcome, hpastes, hstage, texts, hmay, htext⟩ :=
        h.ended hsplit schedule
      have hover : (((taken.run 0).pass schedule).settle).stage? 0 =
          some (.ended (.ok outcome)) := by
        rw [Coordinator.stage?, hpastes]
        exact congrArg some hstage
      refine ⟨texts, hmay, ?_⟩
      dsimp only [Option.map_some]
      rw [hpaste]
      dsimp only
      rw [hover]
      dsimp only [Except.bind, text]
      rw [htext]

end Pastable

end Session

end CopyPaste

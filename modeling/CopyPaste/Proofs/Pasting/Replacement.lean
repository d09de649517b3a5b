import CopyPaste.Proofs.Pasting.Ending

/-!
# What a paste replaces

A paste captures a document and a selection when it is taken over, and makes its edit after waits
of any length, in which anything can happen. The edit goes by the name of the document and by the
bytes of the selection. So it touches no document of another name and nothing outside of those
bytes; but what stands there by then is replaced, even if it is not what was selected.

* `Coordinator.MakesEdit` — the only turn in which a paste changes the editor;
* **`paste_replaces_what_is_shown`** — what is removed is what the selection covers by then;
* **`reopened_text_is_replaced`** — which need not be what it covered before;
* **`paste_stays_in_selection`** — the paste of a built-in provider or of the plain text changes
  nothing else.
-/

namespace CopyPaste

theorem Decides.plainText {document : Document} {selection : Selection}
    {left : List (String × PasteScript)} {n : Nat} {edit : Edit}
    (h : Decides document selection left n edit .plainText) :
    ∃ text, edit = [.replacing document.uri selection text] := by
  unfold Decides at h
  split at h
  · simp at h
  · exact h.2

/-- An edit replaces the selection, unless a provider decides that can bring an edit of its own. -/
theorem Decides.replaces {document : Document} {selection : Selection}
    {left : List (String × PasteScript)} {n : Nat} {edit : Edit} {outcome : PasteOutcome}
    (h : Decides document selection left n edit outcome)
    (hleft : ∀ name script, left[n]? = some (name, script) → script.Replaces) :
    ∃ text, edit = [.replacing document.uri selection text] := by
  unfold Decides at h
  split at h
  · rename_i name script hn
    exact h.2 (hleft name script hn)
  · exact h.2

/-- How a paste ended, if it ended well. -/
def PasteStage.outcome? : PasteStage → Option PasteOutcome
  | .ended (.ok outcome) => some outcome
  | _ => none

theorem PasteStage.outcome?_eq_some {stage : PasteStage} {outcome : PasteOutcome} :
    stage.outcome? = some outcome ↔ stage = .ended (.ok outcome) := by
  unfold outcome?
  split <;> simp_all

namespace Coordinator

/-! ## The only turn that changes the editor -/

/-- In the turn after `early` a paste exchanges the text that a selection covers in the document of
a name, and in no other turn it changes the editor. -/
structure MakesEdit (m : Coordinator) (i : Nat) (early late : List Event) (uri : String)
    (selection : Selection) (removed text : String) : Prop where
  next : (m.after early).ready.head? = some (.paste i)
  exchanges : (m.after early).editor.Exchanges (m.after (early ++ [.turn])).editor uri selection
    removed text
  keptBefore : EditorKept m i early
  keptAfter : EditorKept (m.after (early ++ [.turn])) i late

variable {m taken : Coordinator} {i : Nat} {early late : List Event}

/-- A turn that leaves the editor as it is, between others that do. -/
theorem EditorKept.join (hearly : EditorKept m i early)
    (hturn : (m.after (early ++ [.turn])).editor = (m.after early).editor)
    (hlate : EditorKept (m.after (early ++ [.turn])) i late) :
    EditorKept m i (early ++ .turn :: late) := by
  rintro before after hsplit hhead
  rcases List.append_eq_append_iff.mp hsplit with ⟨mid, rfl, hmid⟩ | ⟨mid, rfl, hmid⟩
  · cases mid with
    | nil =>
        rw [List.append_nil]
        exact hturn
    | cons e mid =>
        -- the turn stands in the late part
        obtain ⟨rfl, rfl⟩ := List.cons.inj hmid
        have hsplit := m.after_split early .turn mid
        rw [hsplit] at hhead
        rw [m.after_append (early ++ .turn :: mid), hsplit, ← after_append]
        exact hlate mid after rfl hhead
  · cases mid with
    | nil =>
        rw [List.append_nil] at hturn
        exact hturn
    | cons e mid =>
        obtain ⟨rfl, rfl⟩ := List.cons.inj hmid
        exact hearly before mid rfl hhead

/-- **An edit in place of the selection is made or refused.** -/
theorem Attempts.cases {p₀ p : PasteRun} {text : String} {outcome : PasteOutcome}
    (h : Attempts m i early late p [.replacing p.document.uri p.selection text] outcome)
    (hp₀ : m.pastes[i]? = some p₀) (hid : p.editor = m.editor.id) :
    (∃ removed, p.stage = .ended (.ok outcome) ∧
        MakesEdit m i early late p.document.uri p.selection removed text) ∨
      ∃ error, p.stage = .ended (.error (.apply error)) ∧
        (m.after early).editor.Refuses p.document.uri p.selection error ∧
        EditorKept m i (early ++ .turn :: late) := by
  have hearly := editorKept_of_requests hp₀ h.fresh
  have hattempt := h.attempt
  rw [hid, ← m.id_after early] at hattempt
  unfold Editor.attempt at hattempt
  obtain ⟨e', removed, happly, hexchanges⟩ | ⟨error, happly, hrefuses⟩ :=
    (m.after early).editor.apply_replacing p.document.uri p.selection text
  · rw [happly] at hattempt
    obtain ⟨hstage, heditor⟩ := Prod.mk.inj hattempt
    exact .inl ⟨removed, hstage, h.next, heditor ▸ hexchanges, hearly, h.keptAfter⟩
  · rw [happly] at hattempt
    obtain ⟨hstage, heditor⟩ := Prod.mk.inj hattempt
    exact .inr ⟨error, hstage, hrefuses, hearly.join heditor h.keptAfter⟩

/-- A paste since it was taken over, with what was captured then. -/
theorem taken_quiet_or_attempts (hm : m.Reachable) {given : Option Payload} {cancelled : Bool}
    (htaken : m.paste given cancelled = (.taken i, taken)) (later : List Event) :
    ∃ document selection p₀ p, m.editor.document = some document ∧
      m.editor.selection = some selection ∧ taken.pastes[i]? = some p₀ ∧
      (taken.after later).pastes[i]? = some p ∧ p.editor = taken.editor.id ∧
      p.document = document ∧ p.selection = selection ∧
      p.providers = m.registry.pasters document ∧
      (((taken.after later).desk.requests (.paste i) = [] ∧ p.stage.isQuiet = true) ∨
        ∃ early late edit outcome, later = early ++ .turn :: late ∧
          Attempts taken i early late p edit outcome) := by
  obtain ⟨p₀, document, selection, hp₀, hdocument, hselection, hheld, heditor, hpdocument,
    hpselection, hproviders, -⟩ := taken_origin htaken
  obtain ⟨p, hp, horigin⟩ := origin_after hp₀ later
  obtain ⟨heditor', hdocument', hselection', hproviders', -⟩ := fixed_of_origin horigin
  obtain rfl : m.handle (.paste given cancelled) = taken := congrArg Prod.snd htaken
  refine ⟨document, selection, p₀, p, hdocument, hselection, hp₀, hp, ?_,
    hdocument'.trans hpdocument, hselection'.trans hpselection, hproviders'.trans hproviders, ?_⟩
  · rw [heditor', heditor, id_handle]
  · exact quiet_or_attempts (hm.sound_taken htaken) hp₀ (by simp [hheld, PasteStage.Within])
      (by rw [hheld]; rfl) hp

/-! ## What is removed -/

/-- **A paste removes what its selection covers in the document shown by then.** That document has
the name of the one that was captured, and what is removed is what was selected exactly if the two
agree on the bytes of the selection. The premise is that the paste ended with the plain text, or
with an edit of a provider that replaces the selection. -/
theorem paste_replaces_what_is_shown (hm : m.Reachable) {given : Option Payload} {cancelled : Bool}
    (htaken : m.paste given cancelled = (.taken i, taken)) (later : List Event) {p : PasteRun}
    (hp : (taken.after later).pastes[i]? = some p)
    (hended : p.stage = .ended (.ok .plainText) ∨
      ∃ name text, p.stage = .ended (.ok (.applied name)) ∧
        (taken.after later).desk.requests (.paste i) =
          [([.replacing p.document.uri p.selection text], p.editor)]) :
    ∃ document selection early late shown removed text,
      m.editor.document = some document ∧ m.editor.selection = some selection ∧
      later = early ++ .turn :: late ∧
      MakesEdit taken i early late document.uri selection removed text ∧
      (taken.after early).editor.document = some shown ∧ shown.uri = document.uri ∧
      shown.slice? selection = some removed ∧
      (document.slice? selection = some removed ↔
        document.slice? selection = shown.slice? selection) := by
  obtain ⟨document, selection, p₀, p', hdocument, hselection, hp₀, hp', hid, rfl, rfl, -, hcases⟩ :=
    taken_quiet_or_attempts hm htaken later
  obtain rfl : p = p' := Option.some.inj (hp.symm.trans hp')
  obtain ⟨-, hquiet⟩ | ⟨early, late, edit, outcome, rfl, hattempts⟩ := hcases
  · rcases hended with hstage | ⟨name, text, hstage, -⟩ <;>
      simp [hstage, PasteStage.isQuiet] at hquiet
  · obtain ⟨text, rfl⟩ : ∃ text, edit = [.replacing p.document.uri p.selection text] := by
      rcases hended with hstage | ⟨name, text, -, hrequests⟩
      · have hdecides := hattempts.decides
        have hattempt := hattempts.attempt
        unfold Editor.attempt at hattempt
        split at hattempt
        · obtain ⟨hstage', -⟩ := Prod.mk.inj hattempt
          obtain rfl : PasteOutcome.plainText = outcome := by simpa [hstage] using hstage'
          exact hdecides.plainText
        · simp [hstage] at hattempt
      · rw [hattempts.requests] at hrequests
        exact ⟨text, by simpa using hrequests⟩
    obtain ⟨removed, -, hedit⟩ | ⟨error, hstage, -⟩ := hattempts.cases hp₀ hid
    · obtain ⟨shown, left, right, hshown, huri, -⟩ := hedit.exchanges
      have hslice := hedit.exchanges.slice? hshown
      exact ⟨p.document, p.selection, early, late, shown, removed, text, hdocument, hselection, rfl,
        hedit, hshown, huri, hslice, by rw [hslice]⟩
    · rcases hended with hstage' | ⟨name, text, hstage', -⟩ <;> simp [hstage] at hstage'

/-- The plain text goes where the selection was when the paste was taken over, although somebody
selected something else meanwhile. -/
theorem plainText_replaces_shown :
    let taken := ((withPaster []).paste (some someText) false).2
    let later := [.select ⟨1, 2⟩, .run 0, .turn]
    ((taken.after later).stage? 0).bind PasteStage.outcome? = some .plainText ∧
      ∃ early late removed text, later = early ++ .turn :: late ∧
        MakesEdit taken 0 early late "a" ⟨0, 1⟩ removed text ∧
        (taken.after early).editor.document.bind (·.slice? ⟨0, 1⟩) = some removed := by
  intro taken later
  obtain ⟨hopened, hselected⟩ := editor_withPaster []
  have htaken : (withPaster []).paste (some someText) false = (.taken 0, taken) :=
    Prod.ext (by decide +kernel) rfl
  have hended : ((taken.after later).stage? 0).bind PasteStage.outcome? = some .plainText := by
    decide +kernel
  obtain ⟨stage, hstage, hplain⟩ := Option.bind_eq_some_iff.mp hended
  obtain ⟨p, hp, rfl⟩ := Option.map_eq_some_iff.mp hstage
  obtain ⟨document, selection, early, late, shown, removed, text, hdocument, hselection, hsplit,
    hedit, hshown, -, hslice, -⟩ := paste_replaces_what_is_shown (reachable_withPaster []) htaken
      later hp (.inl (PasteStage.outcome?_eq_some.mp hplain))
  obtain rfl := Option.some.inj (hdocument.symm.trans hopened)
  obtain rfl := Option.some.inj (hselection.symm.trans hselected)
  exact ⟨hended, early, late, removed, text, hsplit, hedit, by rw [hshown]; exact hslice⟩

/-- The document is opened again with another text before the paste runs. What was selected was
`a`, and what is removed is `x`. -/
theorem reopened_text_is_replaced :
    let taken := ((withPaster []).paste (some someText) false).2
    let early := [.openDocument { uri := "a", language := "l", text := "xy" }, .run 0]
    (withPaster []).Reachable ∧ (withPaster []).paste (some someText) false = (.taken 0, taken) ∧
      (withPaster []).editor.selection = some ⟨0, 1⟩ ∧
      (withPaster []).editor.document.bind (·.slice? ⟨0, 1⟩) = some "a" ∧
      ((taken.after (early ++ [.turn])).stage? 0).bind PasteStage.outcome? = some .plainText ∧
      (taken.after early).editor.Exchanges (taken.after (early ++ [.turn])).editor "a" ⟨0, 1⟩ "x"
        "new" := by
  intro taken early
  refine ⟨reachable_withPaster [], Prod.ext (by decide +kernel) rfl, (editor_withPaster []).2,
    by decide +kernel, by decide +kernel, { uri := "a", language := "l", text := "xy" }, "", "y", ?_⟩
  decide +kernel

/-! ## What stays -/

/-- **A paste stays in its selection.** The premise is that the edit, if the paste makes one, comes
from a built-in provider or is the plain text: the provider after those that answered without an
edit is built in, or there is none. Then the paste leaves the editor alone, without an edit or
because the edit was refused for what was shown by then; or it makes its edit in one turn, in the
document of the name that was captured and in the bytes of the selection that was captured. -/
theorem paste_stays_in_selection (hm : m.Reachable) {given : Option Payload} {cancelled : Bool}
    (htaken : m.paste given cancelled = (.taken i, taken)) (later : List Event)
    (hsource : (taken.after later).desk.requests (.paste i) ≠ [] →
      ∀ document name script, m.editor.document = some document →
        (m.registry.pasters document)[(taken.after later).desk.silences (.paste i)]? =
          some (name, script) → script.IsBuiltIn) :
    ∃ document selection p, m.editor.document = some document ∧
      m.editor.selection = some selection ∧ (taken.after later).pastes[i]? = some p ∧
      ((EditorKept taken i later ∧
          (p.stage.isQuiet = true ∨ ∃ early late error, later = early ++ .turn :: late ∧
            p.stage = .ended (.error (.apply error)) ∧
            (taken.after early).editor.Refuses document.uri selection error)) ∨
        ∃ early late removed text outcome, later = early ++ .turn :: late ∧
          p.stage = .ended (.ok outcome) ∧
          MakesEdit taken i early late document.uri selection removed text) := by
  obtain ⟨document, selection, p₀, p, hdocument, hselection, hp₀, hp, hid, rfl, rfl, hproviders,
    hcases⟩ := taken_quiet_or_attempts hm htaken later
  refine ⟨p.document, p.selection, p, hdocument, hselection, hp, ?_⟩
  obtain ⟨hnone, hquiet⟩ | ⟨early, late, edit, outcome, rfl, hattempts⟩ := hcases
  · exact .inl ⟨editorKept_of_requests hp₀ hnone, .inl hquiet⟩
  · have hsome := hsource (by rw [hattempts.requests]; simp)
    obtain ⟨text, rfl⟩ := hattempts.decides.replaces fun name script hn =>
      (hsome p.document name script hdocument (hproviders ▸ hn)).replaces
    obtain ⟨removed, hstage, hedit⟩ | ⟨error, hstage, hrefuses, hkept⟩ := hattempts.cases hp₀ hid
    · exact .inr ⟨early, late, removed, text, outcome, rfl, hstage, hedit⟩
    · exact .inl ⟨hkept, .inr ⟨early, late, error, rfl, hstage, hrefuses⟩⟩

/-- A payload with a URI list, and with something that is no handle. -/
def someLinks : Payload :=
  ⟨[.string UriList.mime (.inline "http://x"), .string handleMime (.inline "none")]⟩

/-- The provider of links answers after another document of the same name was opened: the links go
into that document, in place of the bytes that were selected in the first one. -/
theorem links_stay_in_selection :
    let taken := ((withPaster [.insertLinks]).paste (some someLinks) false).2
    let later := [.openDocument { uri := "a", language := "m", text := "xyz" }, .run 0, .turn]
    (taken.after later).desk.requests (.paste 0) ≠ [] ∧
      ∃ early late removed text, later = early ++ .turn :: late ∧
        MakesEdit taken 0 early late "a" ⟨0, 1⟩ removed text := by
  intro taken later
  obtain ⟨hopened, hselected⟩ := editor_withPaster [.insertLinks]
  have htaken : (withPaster [.insertLinks]).paste (some someLinks) false = (.taken 0, taken) :=
    Prod.ext (by decide +kernel) rfl
  have hended : ((taken.after later).stage? 0).bind PasteStage.outcome? = some (.applied "p") := by
    decide +kernel
  have hdecides : ((withPaster [.insertLinks]).registry.pasters
        { uri := "a", language := "l", text := "ab" })[(taken.after later).desk.silences (.paste 0)]? =
      some ("p", [.insertLinks]) := by
    decide +kernel
  obtain ⟨document, selection, p, hdocument, hselection, hp, hcases⟩ :=
    paste_stays_in_selection (reachable_withPaster _) htaken later
      fun _ document name script hdocument hn => by
        obtain rfl := Option.some.inj (hdocument.symm.trans hopened)
        obtain ⟨-, rfl⟩ := Prod.mk.inj (Option.some.inj (hn.symm.trans hdecides))
        exact .inr rfl
  obtain rfl := Option.some.inj (hdocument.symm.trans hopened)
  obtain rfl := Option.some.inj (hselection.symm.trans hselected)
  have hstage : p.stage = .ended (.ok (.applied "p")) := by
    rw [stage?, hp] at hended
    exact PasteStage.outcome?_eq_some.mp hended
  refine ⟨by decide +kernel, ?_⟩
  obtain ⟨-, hquiet | ⟨early, late, error, -, hrefused, -⟩⟩ |
    ⟨early, late, removed, text, outcome, hsplit, -, hedit⟩ := hcases
  · simp [hstage, PasteStage.isQuiet] at hquiet
  · simp [hstage] at hrefused
  · exact ⟨early, late, removed, text, hsplit, hedit⟩

end Coordinator

end CopyPaste

import CopyPaste.Proofs.Editor
import CopyPaste.Proofs.Pasting.Answers

/-!
# How a paste ends

Cancelled or not, and whatever happens meanwhile, a paste asks its editor for at most one edit, in
the turn in which it ends. Unless a provider brings an edit of its own, the edit puts a text in
place of the selection that was captured when the paste was taken over. In all other turns the
paste leaves the editor alone.

* `PasteScript.Replaces` — no edit but in place of the selection;
* `Concluded` — how a paste stands with what it asked of the editor;
* **`ends_scan`**, **`Polled.concluded`** — one scan and one turn;
* **`quiet_or_attempts`** — a paste through all its turns;
* **`id_after`** — the editor is the same throughout.
-/

namespace CopyPaste

/-! ## Edits in place of the selection -/

theorem Desk.pause_ne_done {α : Type} (desk : Desk) (task : Task) (cancelled : Bool)
    (begun : Option Nat) (p : Pause) (answer : α) :
    (desk.pause task cancelled begun p).1 ≠ .done answer := by
  unfold pause
  split
  · simp
  · split <;> simp

theorem Desk.report_ne_done {α : Type} (desk : Desk) (call : Call) (t : Transfer) (r : Report)
    (answer : α) : (desk.report call t r).1 ≠ .done answer := by
  cases r with
  | items =>
      unfold report
      dsimp only
      split <;> simp
  | _ => simp [report]

/-- What is answered with the text of an item is answered with some text. -/
theorem Call.answer_of_withText {call : Call} {item : Item} {cancelled : Bool} {desk : Desk}
    {answer : String → Turn PasteAnswer} {a : PasteAnswer}
    (h : (call.withText item cancelled desk answer).1 = .done a) :
    ∃ text, answer text = .done a := by
  unfold withText at h
  split at h
  · exact ⟨_, h⟩
  · simp at h

/-- **Whatever an action answers with replaces the selection,** unless it is an edit of its own. -/
theorem PasteAction.replaces_perform {a : PasteAction} (ha : ∀ edit, a ≠ .answer edit) {call : Call}
    {t : Transfer} {begun : Option Nat} {cancelled : Bool} {desk : Desk} {edit : Edit}
    (h : (a.perform call t begun cancelled desk).1 = .done (.ok (some edit))) :
    ∃ text, edit = call.replacing text := by
  have hinserts : ∀ {text : String},
      (Turn.done (.ok (some (call.replacing text))) : Turn PasteAnswer) = .done (.ok (some edit)) →
      ∃ text, edit = call.replacing text := fun {text} h =>
    ⟨text, by simpa [eq_comm] using h⟩
  cases a with
  | pause p => exact absurd h (desk.pause_ne_done call.task cancelled begun p _)
  | report r => exact absurd h (desk.report_ne_done call t r _)
  | insert text => exact hinserts h
  | answer own => exact absurd rfl (ha own)
  | cancel => simp [perform] at h
  | fail error => simp [perform] at h
  | crash => simp [perform] at h
  | echo mime =>
      simp only [perform] at h
      split at h
      · obtain ⟨text, htext⟩ := Call.answer_of_withText h
        exact hinserts htext
      · simp at h
  | echoFile mime =>
      simp only [perform] at h
      split at h
      · split at h
        · exact hinserts h
        · simp at h
        · simp at h
      · simp at h
  | insertSnippet =>
      simp only [perform] at h
      split at h
      · split at h
        · obtain ⟨text, htext⟩ := Call.answer_of_withText h
          unfold snippetAnswer at htext
          split at htext
          · split at htext
            · simp at htext
            · exact hinserts htext
          · simp at htext
        · simp at h
      · simp at h
  | insertLinks =>
      simp only [perform] at h
      split at h
      · obtain ⟨text, htext⟩ := Call.answer_of_withText h
        unfold linkAnswer at htext
        split at htext
        · simp at htext
        · split at htext
          · exact hinserts htext
          · simp at htext
      · simp at h

namespace PasteScript

/-- No action answers with an edit of its own, so that every edit replaces the selection. -/
def Replaces (script : PasteScript) : Prop := ∀ edit, .answer edit ∉ script

/-- The script of a provider that is built in. -/
def IsBuiltIn (script : PasteScript) : Prop :=
  Provider.sourceSnippet.paste = some script ∨ Provider.uriListLinks.paste = some script

theorem IsBuiltIn.replaces {script : PasteScript} (h : script.IsBuiltIn) : script.Replaces := by
  rcases h with h | h
  all_goals
    obtain rfl := Option.some.inj h
    intro edit hmem
    simp at hmem

theorem Replaces.suffix {script full : PasteScript} (h : full.Replaces)
    (hsuffix : script <:+ full) : script.Replaces :=
  fun edit hmem => h edit (hsuffix.subset hmem)

variable {script : PasteScript} {call : Call} {t : Transfer} {begun : Option Nat} {cancelled : Bool}
  {desk : Desk}

theorem Replaces.run (hscript : script.Replaces) {edit : Edit}
    (h : (script.run call t begun cancelled desk).1 = .answered (.ok (some edit))) :
    ∃ text, edit = call.replacing text := by
  induction script generalizing begun cancelled desk with
  | nil => simp [PasteScript.run] at h
  | cons a rest ih =>
      have ha : ∀ edit, a ≠ .answer edit := fun edit heq => hscript edit (by simp [heq])
      unfold PasteScript.run at h
      split at h <;> rename_i hperform
      · exact ih (hscript.suffix (List.suffix_cons a rest)) h
      · simp at h
      · obtain rfl := Reply.answered.inj h
        exact a.replaces_perform ha (congrArg Prod.fst hperform)
      · simp at h

/-- What waits is the end of a script. -/
theorem suffix_of_waiting {left : PasteScript} {since : Nat}
    (h : (script.run call t begun cancelled desk).1 = .waiting left since) : left <:+ script := by
  induction script generalizing begun cancelled desk with
  | nil => simp [PasteScript.run] at h
  | cons a rest ih =>
      unfold PasteScript.run at h
      split at h
      · exact (ih h).trans (List.suffix_cons a rest)
      · obtain ⟨rfl, -⟩ := Reply.waiting.inj h
        exact List.suffix_rfl
      · simp at h
      · simp at h

end PasteScript

/-! ## Ends -/

/-- Whether a paste ended without an edit, or has not ended. -/
def PasteStage.isQuiet : PasteStage → Bool
  | .ended (.ok (.applied _)) | .ended (.ok .plainText) | .ended (.error (.apply _)) => false
  | _ => true

theorem PasteStage.quiet_of_going {stage : PasteStage} (h : stage.isOver = false) :
    stage.isQuiet = true := by
  cases stage <;> first | rfl | simp [isOver] at h

/-- A paste that asks a provider asks one of those in a list, and has those behind it left. -/
def PasteStage.Within (left : List (String × PasteScript)) (stage : PasteStage) : Prop :=
  ∀ name script since rest, stage = .asking name script since rest →
    ∃ full, (name, full) :: rest <:+ left ∧ script <:+ full

theorem PasteStage.within_of_over {stage : PasteStage} (h : stage.isOver = true)
    (left : List (String × PasteScript)) : stage.Within left := by
  rintro name script since rest rfl
  simp [isOver] at h

theorem PasteStage.Within.append {left : List (String × PasteScript)} {stage : PasteStage}
    (h : stage.Within left) (front : List (String × PasteScript)) :
    stage.Within (front ++ left) := by
  intro name script since rest hstage
  obtain ⟨full, hrest, hscript⟩ := h name script since rest hstage
  exact ⟨full, hrest.trans (List.suffix_append front left), hscript⟩

/-- Where an edit comes from when `n` of the providers in a list have answered without one: from the
provider after them or, if there is none, from the plain text. -/
def Decides (document : Document) (selection : Selection) (left : List (String × PasteScript))
    (n : Nat) (edit : Edit) (outcome : PasteOutcome) : Prop :=
  match left[n]? with
  | some (name, script) => outcome = .applied name ∧
      (script.Replaces → ∃ text, edit = [.replacing document.uri selection text])
  | none => outcome = .plainText ∧ ∃ text, edit = [.replacing document.uri selection text]

theorem decides_plainText (document : Document) (selection : Selection) (text : String) :
    Decides document selection [] 0 [.replacing document.uri selection text] .plainText :=
  ⟨rfl, text, rfl⟩

theorem decides_provider {document : Document} {selection : Selection} {script : PasteScript}
    {edit : Edit}
    (h : script.Replaces → ∃ text, edit = [.replacing document.uri selection text])
    (name : String) (left : List (String × PasteScript)) :
    Decides document selection ((name, script) :: left) 0 edit (.applied name) :=
  ⟨rfl, h⟩

theorem Decides.append {document : Document} {selection : Selection}
    {left : List (String × PasteScript)} {n : Nat} {edit : Edit} {outcome : PasteOutcome}
    (h : Decides document selection left n edit outcome) (front : List (String × PasteScript)) :
    Decides document selection (front ++ left) (front.length + n) edit outcome := by
  unfold Decides at h ⊢
  rw [List.getElem?_append_right (Nat.le_add_right _ _), Nat.add_sub_cancel_left]
  exact h

/-- How a paste stands after its deeds, with the editor before and after them: it asked nothing of
the editor, or it ended with what came of its only edit. -/
inductive Concluded (document : Document) (selection : Selection) (target : Nat)
    (left : List (String × PasteScript)) (before : Editor) (deeds : List Deed) :
    PasteStage → Editor → Prop
  | quiet (stage : PasteStage) (hrequests : deeds.filterMap Deed.request? = [])
      (hstage : stage.isQuiet = true) :
      Concluded document selection target left before deeds stage before
  | attempts (edit : Edit) (outcome : PasteOutcome)
      (hrequests : deeds.filterMap Deed.request? = [(edit, target)])
      (hdecides : Decides document selection left (deeds.countP Deed.isSilence) edit outcome) :
      Concluded document selection target left before deeds
        (before.attempt edit target outcome).1 (before.attempt edit target outcome).2

namespace Concluded

variable {document : Document} {selection : Selection} {target : Nat}
  {left : List (String × PasteScript)} {before after : Editor} {deeds : List Deed}
  {stage : PasteStage}

/-- Providers that answered without an edit before. -/
theorem append (h : Concluded document selection target left before deeds stage after)
    (front : List (String × PasteScript)) {early : List Deed}
    (hrequests : early.filterMap Deed.request? = [])
    (hsilent : early.countP Deed.isSilence = front.length) :
    Concluded document selection target (front ++ left) before (early ++ deeds) stage after := by
  have happend : (early ++ deeds).filterMap Deed.request? = deeds.filterMap Deed.request? := by
    rw [List.filterMap_append, hrequests, List.nil_append]
  cases h with
  | quiet stage hnone hstage => exact .quiet _ (happend.trans hnone) hstage
  | attempts edit outcome hone hdecides =>
      refine .attempts edit outcome (happend.trans hone) ?_
      rw [List.countP_append, hsilent]
      exact hdecides.append front

theorem quiet_or_attempts (h : Concluded document selection target left before deeds stage after) :
    (deeds.filterMap Deed.request? = [] ∧ stage.isQuiet = true) ∨
      ∃ edit outcome, deeds.filterMap Deed.request? = [(edit, target)] ∧
        Decides document selection left (deeds.countP Deed.isSilence) edit outcome ∧
        (stage, after) = before.attempt edit target outcome := by
  cases h with
  | quiet stage hrequests hstage => exact .inl ⟨hrequests, hstage⟩
  | attempts edit outcome hrequests hdecides =>
      exact .inr ⟨edit, outcome, hrequests, hdecides, rfl⟩

theorem id_eq (h : Concluded document selection target left before deeds stage after) :
    after.id = before.id := by
  cases h with
  | quiet stage hrequests hstage => rfl
  | attempts edit outcome hrequests hdecides =>
      unfold Editor.attempt
      cases happly : before.apply edit target with
      | error error => rfl
      | ok after => exact Editor.id_of_apply happly

end Concluded

namespace PasteRun

/-! ## One scan -/

/-- What a scan of the providers in `left` came to, with the deeds that it left. -/
structure Ends (p : PasteRun) (task : Task) (left : List (String × PasteScript)) (desk : Desk)
    (out : PasteStage × Bool × Desk) (deeds : List Deed) : Prop where
  deedsOf : out.2.2.deedsOf task = desk.deedsOf task ++ deeds
  within : out.1.Within left
  concluded : Concluded p.document p.selection p.editor left desk.editor deeds out.1
    out.2.2.editor

section Scans

variable {p : PasteRun} {task : Task} {left : List (String × PasteScript)} {desk desk' : Desk}
  {out : PasteStage × Bool × Desk} {deeds : List Deed} {name : String}

/-- Only the deeds of the task and the editor matter. -/
theorem Ends.of_desk (h : Ends p task left desk' out deeds)
    (hdeeds : desk'.deedsOf task = desk.deedsOf task) (heditor : desk'.editor = desk.editor) :
    Ends p task left desk out deeds :=
  ⟨h.deedsOf.trans (by rw [hdeeds]), h.within, heditor ▸ h.concluded⟩

/-- Nothing was done. -/
theorem ends_still {stage : PasteStage} (hwithin : stage.Within left)
    (hstage : stage.isQuiet = true) (cancelled : Bool) (desk : Desk) :
    Ends p task left desk (stage, cancelled, desk) [] :=
  ⟨(List.append_nil _).symm, hwithin, .quiet stage rfl hstage⟩

/-- An answer without an edit, before everything else. -/
theorem Ends.silence {answer : PasteAnswer} {cancelled : Bool} (hempty : answer.isEmpty = true)
    (h : Ends p task left (desk.record task (.answered name answer cancelled)) out deeds)
    (full : PasteScript) :
    Ends p task ((name, full) :: left) desk out (.answered name answer cancelled :: deeds) where
  deedsOf := by
    rw [h.deedsOf, Desk.deedsOf_record, if_pos rfl, List.append_assoc]
    rfl
  within := h.within.append [(name, full)]
  concluded := by
    have hone : [Deed.answered name answer cancelled].countP Deed.isSilence = 1 :=
      List.countP_cons_of_pos hempty
    exact h.concluded.append [(name, full)] rfl hone

/-- An edit that the editor is asked for, after other deeds. -/
theorem ends_applyEdit {edit : Edit} {outcome : PasteOutcome} {early : List Deed}
    (hdeeds : desk'.deedsOf task = desk.deedsOf task ++ early)
    (heditor : desk'.editor = desk.editor)
    (hrequests : early.filterMap Deed.request? = [])
    (hdecides : Decides p.document p.selection left (early.countP Deed.isSilence) edit outcome)
    (cancelled : Bool) :
    Ends p task left desk ((p.applyEdit task edit outcome desk').1, cancelled,
      (p.applyEdit task edit outcome desk').2) (early ++ [.requested edit p.editor]) := by
  obtain ⟨hstage, hafter⟩ := p.applyEdit_eq_attempt task edit outcome desk'
  refine ⟨?_, ?_, ?_⟩
  · rw [deedsOf_applyEdit, if_pos rfl, hdeeds, List.append_assoc]
  · exact PasteStage.within_of_over (by rw [hstage]; exact Editor.isOver_attempt ..) left
  · dsimp only
    rw [hstage, hafter, heditor]
    refine .attempts edit outcome ?_ ?_
    · rw [List.filterMap_append, hrequests]
      rfl
    · rw [List.countP_append]
      exact hdecides

/-- **Falling back on the plain text.** -/
theorem ends_fallBack (p : PasteRun) (task : Task) (cancelled : Bool) (desk : Desk) :
    ∃ deeds, Ends p task [] desk (p.scan task [] cancelled desk) deeds := by
  show ∃ deeds, Ends p task [] desk
    ((p.fallBack task desk).1, cancelled, (p.fallBack task desk).2) deeds
  obtain ⟨after, hscripted, ⟨edit, -, h⟩ | ⟨-, h⟩ | ⟨edit, hplain, h⟩⟩ := p.fallBack_cases task desk
  · rw [h]
    exact ⟨[], (ends_still (by simp [PasteStage.Within]) rfl cancelled after).of_desk
      (hscripted.deedsOf task) hscripted.editor⟩
  · rw [h]
    exact ⟨[], (ends_still (by simp [PasteStage.Within]) rfl cancelled after).of_desk
      (hscripted.deedsOf task) hscripted.editor⟩
  · obtain ⟨text, rfl⟩ : ∃ text, edit = [.replacing p.document.uri p.selection text] := by
      unfold plainEdit? at hplain
      split at hplain
      · obtain ⟨item, -, rfl⟩ := Option.map_eq_some_iff.mp hplain
        exact ⟨_, rfl⟩
      · simp at hplain
    have hdeeds : after.deedsOf task = desk.deedsOf task ++ [] := by
      rw [hscripted.deedsOf, List.append_nil]
    rw [h]
    exact ⟨_, ends_applyEdit hdeeds hscripted.editor rfl (decides_plainText _ _ text) cancelled⟩

/-- **The reply of a provider and what follows it.** `full` is its whole script. -/
theorem ends_follow (p : PasteRun) (task : Task) (name : String) (full : PasteScript)
    (left : List (String × PasteScript)) {reply : Reply × Bool × Desk}
    (hanswer : ∀ edit, full.Replaces → reply.1 = .answered (.ok (some edit)) →
      ∃ text, edit = [.replacing p.document.uri p.selection text])
    (hwaiting : ∀ script since, reply.1 = .waiting script since → script <:+ full)
    (hscan : ∀ cancelled desk, ∃ deeds,
      Ends p task left desk (p.scan task left cancelled desk) deeds) :
    ∃ deeds, Ends p task ((name, full) :: left) reply.2.2
      (p.follow task name left (p.scan task left) reply) deeds := by
  obtain ⟨answer | ⟨script, since⟩ | _, cancelled, desk⟩ := reply
  · -- no answer and an answer without replacements go the same way
    have hsilent : answer.isEmpty = true → ∃ deeds, Ends p task ((name, full) :: left) desk
        (p.scan task left cancelled (desk.record task (.answered name answer cancelled)))
        deeds := by
      intro hempty
      obtain ⟨deeds, h⟩ := hscan cancelled (desk.record task (.answered name answer cancelled))
      exact ⟨_, h.silence hempty full⟩
    have hrecord : (desk.record task (.answered name answer cancelled)).deedsOf task =
        desk.deedsOf task ++ [.answered name answer cancelled] := by
      rw [Desk.deedsOf_record, if_pos rfl]
    rcases answer with error | _ | edit
    · have hfails : ∀ {stage : PasteStage}, stage.isOver = true → stage.isQuiet = true →
          Ends p task ((name, full) :: left) desk (stage, cancelled,
            desk.record task (.answered name (.error error) cancelled))
            [.answered name (.error error) cancelled] := fun hover hstage =>
        ⟨hrecord, PasteStage.within_of_over hover _, .quiet _ rfl hstage⟩
      refine ⟨[.answered name (.error error) cancelled], ?_⟩
      show Ends p task _ desk (p.heed task name (p.scan task left) cancelled _ (.error error)) _
      unfold heed
      dsimp only
      split
      · exact hfails rfl rfl
      · exact hfails rfl rfl
    · exact hsilent rfl
    · cases edit with
      | nil => exact hsilent rfl
      | cons r edit =>
          have hdecides := decides_provider (fun h => hanswer (r :: edit) h rfl) name left
          exact ⟨_, ends_applyEdit hrecord rfl rfl hdecides cancelled⟩
  · refine ⟨[], ends_still ?_ rfl cancelled desk⟩
    intro name' script' since' rest hstage
    obtain ⟨rfl, rfl, -, rfl⟩ := PasteStage.asking.inj hstage
    exact ⟨full, List.suffix_rfl, hwaiting script since rfl⟩
  · exact ⟨[], ends_still (PasteStage.within_of_over rfl _) rfl cancelled desk⟩

/-- A provider runs on from where its script stands. -/
theorem ends_run (p : PasteRun) (task : Task) (name : String) {script full : PasteScript}
    (hsuffix : script <:+ full) (left : List (String × PasteScript)) (begun : Option Nat)
    (cancelled : Bool) (desk : Desk)
    (hscan : ∀ cancelled desk, ∃ deeds,
      Ends p task left desk (p.scan task left cancelled desk) deeds) :
    ∃ deeds, Ends p task ((name, full) :: left) desk
      (p.follow task name left (p.scan task left)
        (script.run (p.call task name) p.transfer begun cancelled desk)) deeds := by
  have hscripted :=
    PasteScript.scripted_run (p.call task name) p.transfer script begun cancelled desk
  obtain ⟨deeds, h⟩ := p.ends_follow task name full left
    (fun edit hreplaces hedit => by
      have hrun : ∃ text, edit = (p.call task name).replacing text :=
        (hreplaces.suffix hsuffix).run hedit
      exact hrun)
    (fun waiting since hwaits => (PasteScript.suffix_of_waiting hwaits).trans hsuffix) hscan
  exact ⟨deeds, h.of_desk (hscripted.deedsOf task) hscripted.editor⟩

/-- **All providers that are left.** -/
theorem ends_scan (p : PasteRun) (task : Task) (left : List (String × PasteScript))
    (cancelled : Bool) (desk : Desk) :
    ∃ deeds, Ends p task left desk (p.scan task left cancelled desk) deeds := by
  induction left generalizing cancelled desk with
  | nil => exact p.ends_fallBack task cancelled desk
  | cons q left ih =>
      obtain ⟨name, script⟩ := q
      cases cancelled with
      | true => exact ⟨[], ends_still (PasteStage.within_of_over rfl _) rfl true desk⟩
      | false =>
          obtain ⟨deeds, h⟩ := p.ends_run task name List.suffix_rfl left none false
            (desk.note task name (.asked p.document p.selection p.transfer)) ih
          exact ⟨deeds, h.of_desk rfl rfl⟩

end Scans

/-! ## One turn -/

/-- Whatever the turn of a paste does, the editor keeps its number. -/
theorem Polled.id_eq {p : PasteRun} {task : Task} {result : Option (Option Transfer)} {desk : Desk}
    {out : PasteRun × Desk} (h : Polled p task result desk out) :
    out.2.editor.id = desk.editor.id := by
  cases h with
  | idle hstage => rfl
  | waits since hsince hc hresult hlimit => rfl
  | stops since hsince hc => rfl
  | asks since copied hsince hsupplied =>
      obtain ⟨deeds, h⟩ := (p.supply copied).ends_scan task p.providers p.cancelled desk
      exact h.concluded.id_eq
  | resumes provider script since rest hstage =>
      obtain ⟨deeds, h⟩ := p.ends_run task provider List.suffix_rfl rest (some since) p.cancelled
        desk (p.ends_scan task rest)
      exact h.concluded.id_eq
  | fallsBack hstage =>
      obtain ⟨deeds, h⟩ := p.ends_scan task [] p.cancelled desk
      exact h.concluded.id_eq

/-- **How a paste stands after a turn,** with everything that it did so far. -/
theorem Polled.concluded {p : PasteRun} {i : Nat} {result : Option (Option Transfer)} {desk : Desk}
    {out : PasteRun × Desk} (h : Polled p (.paste i) result desk out) (hsound : p.Sound i desk)
    (hwithin : p.stage.Within p.providers) (hgoing : p.stage.isOver = false) :
    out.1.stage.Within p.providers ∧
      Concluded p.document p.selection p.editor p.providers desk.editor
        (out.2.deedsOf (.paste i)) out.1.stage out.2.editor := by
  obtain ⟨hrequests, -⟩ := hsound.going hgoing
  cases h with
  | idle hstage => exact ⟨hwithin, .quiet _ hrequests (PasteStage.quiet_of_going hgoing)⟩
  | waits since hsince hc hresult hlimit =>
      exact ⟨by simp [PasteStage.Within], .quiet _ hrequests rfl⟩
  | stops since hsince hc => exact ⟨by simp [PasteStage.Within], .quiet _ hrequests rfl⟩
  | asks since copied hsince hsupplied =>
      obtain ⟨-, hfresh⟩ := hsound.fresh (isUndecided_of_waitsSince? hsince)
      obtain ⟨deeds, h⟩ := (p.supply copied).ends_scan (.paste i) p.providers p.cancelled desk
      refine ⟨h.within, ?_⟩
      have hdeeds : (p.askAll (.paste i) copied desk).2.deedsOf (.paste i) = deeds := by
        rw [← List.nil_append deeds, ← hfresh]
        exact h.deedsOf
      rw [hdeeds]
      exact h.concluded
  | resumes provider script since rest hstage =>
      obtain ⟨full, ⟨front, hfront⟩, hsuffix⟩ := hwithin provider script since rest hstage
      obtain ⟨deeds, h⟩ := p.ends_run (.paste i) provider hsuffix rest (some since) p.cancelled
        desk (p.ends_scan (.paste i) rest)
      have hsilent : desk.silences (.paste i) = front.length := by
        have hoccupied := hsound.outstanding (rest.length + 1) (by rw [hstage]; rfl)
        rw [← hfront, List.length_append, List.length_cons] at hoccupied
        omega
      rw [← hfront]
      refine ⟨h.within.append front, ?_⟩
      show Concluded _ _ _ _ _ (Desk.deedsOf _ _) _ _
      rw [show (p.settleAt _).2.deedsOf (.paste i) = _ from h.deedsOf]
      exact h.concluded.append front hrequests hsilent
  | fallsBack hstage =>
      obtain ⟨deeds, h⟩ := p.ends_scan (.paste i) [] p.cancelled desk
      have hsilent : desk.silences (.paste i) = p.providers.length :=
        hsound.outstanding 0 (by rw [hstage]; rfl)
      have hwithin' := h.within.append p.providers
      have hconcluded := h.concluded.append p.providers hrequests hsilent
      rw [List.append_nil, ← h.deedsOf] at *
      exact ⟨hwithin', hconcluded⟩

end PasteRun

/-! ## Whole histories -/

namespace Coordinator

theorem editor_wake (m : Coordinator) (task : Task) : (m.wake task).editor = m.editor := by
  obtain ⟨ready, hwake⟩ := m.exists_wake task
  rw [hwake]
  rfl

theorem editor_wakeAll (m : Coordinator) (tasks : List Task) :
    (m.wakeAll tasks).editor = m.editor := by
  obtain ⟨ready, hwake⟩ := m.exists_wakeAll tasks
  rw [hwake]
  rfl

theorem editor_dispose (m : Coordinator) : m.dispose.editor = m.editor := by
  obtain ⟨-, h⟩ | ⟨i, c, ready, -, -, h⟩ := m.dispose_cases <;> rw [h] <;> rfl

theorem id_turn (m : Coordinator) : (m.handle .turn).editor.id = m.editor.id := by
  have hstep := m.step_handle .turn
  generalize m.handle .turn = m' at hstep ⊢
  cases hstep with
  | aside desk registry ready hlog hdeeds hturn hmark =>
      obtain rfl := hturn rfl
      rfl
  | copies j c ready he hhead hc => exact congrArg Editor.id (c.scripted_poll j m.desk).editor
  | pastes j p copies ready he hhead hp hcopies =>
      exact (p.polled_poll j (m.result? p.copy) m.desk).id_eq
  | _ => rfl

/-- The editor keeps its number through every event. -/
theorem id_handle (m : Coordinator) (e : Event) : (m.handle e).editor.id = m.editor.id := by
  cases e with
  | edit change =>
      show (m.edit change).editor.id = _
      unfold Coordinator.edit
      split
      · rename_i editor happly
        exact Editor.id_of_apply happly
      · rfl
  | copy given fresh =>
      show (m.copy given fresh).2.2.editor.id = _
      unfold Coordinator.copy
      split
      · rfl
      · exact congrArg Editor.id (editor_wake ..)
  | paste given cancelled =>
      show (m.paste given cancelled).2.editor.id = _
      unfold Coordinator.paste
      split <;> rfl
  | run i =>
      show (m.run i).editor.id = _
      unfold Coordinator.run
      split
      · split
        · exact congrArg Editor.id (editor_wake ..)
        · rfl
      · rfl
  | cancel i =>
      show (m.cancel i).editor.id = _
      unfold Coordinator.cancel
      split
      · dsimp only
        split
        · exact congrArg Editor.id (editor_wake ..)
        · rfl
      · rfl
  | dispose => exact congrArg Editor.id m.editor_dispose
  | replace config => exact congrArg Editor.id m.editor_dispose
  | release gate => exact congrArg Editor.id (editor_wakeAll ..)
  | tick => exact congrArg Editor.id (editor_wakeAll ..)
  | turn => exact m.id_turn
  | openDocument | closeDocument | select | clearSelection | register | registerDefaults
  | deregister => rfl

theorem id_after (m : Coordinator) (history : List Event) :
    (m.after history).editor.id = m.editor.id := by
  induction history generalizing m with
  | nil => rfl
  | cons e history ih => exact (ih (m.handle e)).trans (m.id_handle e)

/-! ## The turn of the edit -/

/-- In the turn after `early` a paste asks its editor for its only edit, with which it ends, and in
no other turn it changes the editor. `p` is the paste at the end. -/
structure Attempts (m : Coordinator) (i : Nat) (early late : List Event) (p : PasteRun)
    (edit : Edit) (outcome : PasteOutcome) : Prop where
  next : (m.after early).ready.head? = some (.paste i)
  fresh : (m.after early).desk.requests (.paste i) = []
  requests : (m.after (early ++ .turn :: late)).desk.requests (.paste i) = [(edit, p.editor)]
  decides : Decides p.document p.selection p.providers
    ((m.after (early ++ .turn :: late)).desk.silences (.paste i)) edit outcome
  attempt : (p.stage, (m.after (early ++ [.turn])).editor) =
    (m.after early).editor.attempt edit p.editor outcome
  keptAfter : EditorKept (m.after (early ++ [.turn])) i late

section Steps

variable {m : Coordinator} {e : Event} {i : Nat} {p p' : PasteRun} {desk : Desk}

theorem PasteStep.within (h : PasteStep m e i p p' desk) (hsound : p.Sound i m.desk)
    (hwithin : p.stage.Within p.providers) (hgoing : p.stage.isOver = false) :
    p'.stage.Within p'.providers := by
  have hproviders : p'.providers = p.providers := (congrArg PasteRun.providers h.origin :)
  rw [hproviders]
  cases h with
  | still desk hrecords => exact hwithin
  | queues desk hstage hrecords => simp [PasteStage.Within]
  | cancels desk he hrecords => exact hwithin
  | polls he hhead =>
      exact ((p.polled_poll i (m.result? p.copy) m.desk).concluded hsound hwithin hgoing).1

/-- A paste comes to its end in a turn of its own. -/
theorem PasteStep.ends (h : PasteStep m e i p p' desk) (hsound : p.Sound i m.desk)
    (hwithin : p.stage.Within p.providers) (hgoing : p.stage.isOver = false)
    (hover : p'.stage.isOver = true) :
    e = .turn ∧ m.ready.head? = some (.paste i) ∧
      Concluded p.document p.selection p.editor p.providers m.desk.editor
        (desk.deedsOf (.paste i)) p'.stage desk.editor := by
  cases h with
  | still desk hrecords => exact absurd (hgoing.symm.trans hover) Bool.false_ne_true
  | queues desk hstage hrecords => simp [PasteStage.isOver] at hover
  | cancels desk he hrecords => exact absurd (hgoing.symm.trans hover) Bool.false_ne_true
  | polls he hhead =>
      exact ⟨he, hhead,
        ((p.polled_poll i (m.result? p.copy) m.desk).concluded hsound hwithin hgoing).2⟩

/-- A paste that is over leaves the editor alone. -/
theorem editorKept_of_over (hp : m.pastes[i]? = some p) (hover : p.stage.isOver = true)
    (history : List Event) : EditorKept m i history := by
  rintro before after rfl hhead
  obtain ⟨p', hp', hstage, -⟩ := over_after hp hover before
  have hturn : m.after (before ++ [.turn]) = (m.after before).handle .turn := after_append ..
  rw [hturn]
  unfold editor
  obtain hdesk | hdesk := desk_turn hp' hhead
  · rw [hdesk]
  · rw [hdesk, PasteRun.poll_of_isOver (by rw [hstage]; exact hover)]

end Steps

/-- **A paste through all its turns.** It asks nothing of the editor and ends without an edit, or it
ends with what comes of its only edit. -/
theorem quiet_or_attempts {m : Coordinator} (hm : m.Sound) {i : Nat} {p p' : PasteRun}
    (hp : m.pastes[i]? = some p) (hwithin : p.stage.Within p.providers)
    (hgoing : p.stage.isOver = false) {later : List Event}
    (hp' : (m.after later).pastes[i]? = some p') :
    ((m.after later).desk.requests (.paste i) = [] ∧ p'.stage.isQuiet = true) ∨
      ∃ early late edit outcome, later = early ++ .turn :: late ∧
        Attempts m i early late p' edit outcome := by
  induction later generalizing m p with
  | nil =>
      obtain rfl : p = p' := Option.some.inj (hp.symm.trans hp')
      exact .inl ⟨((hm.pastes i p hp).going hgoing).1, PasteStage.quiet_of_going hgoing⟩
  | cons e later ih =>
      have hsound := hm.pastes i p hp
      obtain ⟨q, hq, hstep⟩ := pasteStep_handle hp e
      cases hover : q.stage.isOver with
      | false =>
          obtain hquiet | ⟨early, late, edit, outcome, rfl, h⟩ :=
            ih (sound_handle hm e) hq (hstep.within hsound hwithin hgoing) hover hp'
          · exact .inl hquiet
          · exact .inr ⟨e :: early, late, edit, outcome, rfl,
              ⟨h.next, h.fresh, h.requests, h.decides, h.attempt, h.keptAfter⟩⟩
      | true =>
          -- this event ends the paste, and nothing that follows changes what it came to
          obtain ⟨rfl, hhead, hconcluded⟩ := hstep.ends hsound hwithin hgoing hover
          obtain ⟨r, hr, hstage, -, hdeeds⟩ := over_after hq hover later
          obtain rfl : p' = r := Option.some.inj (hp'.symm.trans hr)
          obtain ⟨r, hr, horigin⟩ := origin_after hp (.turn :: later)
          obtain rfl : p' = r := Option.some.inj (hp'.symm.trans hr)
          obtain ⟨heditor, hdocument, hselection, hproviders, -⟩ := fixed_of_origin horigin
          have hafter : (m.after (.turn :: later)).desk.deedsOf (.paste i) =
              (m.handle .turn).desk.deedsOf (.paste i) := hdeeds
          rw [← hstage, ← hafter, ← heditor, ← hdocument, ← hselection, ← hproviders] at hconcluded
          obtain hquiet | ⟨edit, outcome, hrequests, hdecides, hattempt⟩ :=
            hconcluded.quiet_or_attempts
          · exact .inl hquiet
          · exact .inr ⟨[], later, edit, outcome, rfl, hhead, (hsound.going hgoing).1, hrequests,
              hdecides, hattempt, editorKept_of_over hq hover later⟩

end Coordinator

end CopyPaste

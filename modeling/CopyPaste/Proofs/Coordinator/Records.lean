import CopyPaste.Coordinator.Copying
import CopyPaste.Coordinator.Pasting

/-!
# What the desk records of a task

The questions that a paste put to its providers and the deeds that followed, and the frame of
everything that scripts do: a script reports, reads and waits, but it asks no provider, it makes
no edit and it does not move the clock.

* `Desk.questions`, `Desk.deedsOf` — what is recorded of one task;
* `Desk.requests`, `Desk.silences`, `Desk.lateEdits` — what the deeds amount to;
* `Desk.Scripted` — a desk that only scripts have worked on;
* **`scripted_poll`** — the turn of a copy is nothing but scripts.
-/

namespace CopyPaste

/-! ## Views -/

/-- What a provider was asked. -/
structure Question where
  provider : String
  document : Document
  selection : Selection
  transfer : Transfer

/-- The question that an entry of the log records, if it was put in the given task. -/
def LogEntry.question? (task : Task) (e : LogEntry) : Option Question :=
  match e.observation with
  | .asked document selection transfer =>
    if e.task = task then some ⟨e.provider, document, selection, transfer⟩ else none
  | _ => none

/-- The edit that a deed asks an editor to make, with the number of the editor. -/
def Deed.request? : Deed → Option (Edit × Nat)
  | .answered _ _ _ => none
  | .requested edit editor => some (edit, editor)

/-- An answer without an edit to make. -/
def PasteAnswer.isEmpty : PasteAnswer → Bool
  | .ok none | .ok (some []) => true
  | _ => false

/-- Whether a deed is an answer without an edit. -/
def Deed.isSilence : Deed → Bool
  | .answered _ answer _ => answer.isEmpty
  | .requested _ _ => false

/-- The edit that a provider answered with, if the paste was cancelled by then. -/
def Deed.lateEdit? : Deed → Option Edit
  | .answered _ (.ok (some (r :: edit))) true => some (r :: edit)
  | _ => none

namespace Desk

/-- The questions put in a task, the earliest first. -/
def questions (desk : Desk) (task : Task) : List Question :=
  desk.log.filterMap (LogEntry.question? task)

/-- The deeds of a task, the earliest first. -/
def deedsOf (desk : Desk) (task : Task) : List Deed :=
  desk.deeds.filterMap fun d => if d.1 = task then some d.2 else none

/-- The edits that editors were asked to make in a task. -/
def requests (desk : Desk) (task : Task) : List (Edit × Nat) :=
  (desk.deedsOf task).filterMap Deed.request?

/-- How many answers without an edit were given in a task. -/
def silences (desk : Desk) (task : Task) : Nat := (desk.deedsOf task).countP Deed.isSilence

/-- The edits that providers answered with in a task once it was cancelled. -/
def lateEdits (desk : Desk) (task : Task) : List Edit :=
  (desk.deedsOf task).filterMap Deed.lateEdit?

theorem questions_note_asked (desk : Desk) (task other : Task) (provider : String)
    (document : Document) (selection : Selection) (transfer : Transfer) :
    (desk.note task provider (.asked document selection transfer)).questions other =
      desk.questions other ++
        if task = other then [⟨provider, document, selection, transfer⟩] else [] := by
  by_cases h : task = other <;> simp [note, questions, LogEntry.question?, h]

theorem deedsOf_record (desk : Desk) (task other : Task) (deed : Deed) :
    (desk.record task deed).deedsOf other =
      desk.deedsOf other ++ if task = other then [deed] else [] := by
  by_cases h : task = other <;> simp [record, deedsOf, h]

/-! ## The frame of scripts -/

/-- `after` is `desk` once scripts have worked on it. -/
structure Scripted (desk after : Desk) : Prop where
  editor : after.editor = desk.editor
  now : after.now = desk.now
  openGates : after.openGates = desk.openGates
  deeds : after.deeds = desk.deeds
  questions : ∀ task, after.questions task = desk.questions task

theorem Scripted.refl (desk : Desk) : Scripted desk desk :=
  ⟨rfl, rfl, rfl, rfl, fun _ => rfl⟩

theorem Scripted.trans {first second third : Desk} (h : Scripted first second)
    (h' : Scripted second third) : Scripted first third :=
  ⟨h'.editor.trans h.editor, h'.now.trans h.now, h'.openGates.trans h.openGates,
    h'.deeds.trans h.deeds, fun task => (h'.questions task).trans (h.questions task)⟩

theorem Scripted.deedsOf {desk after : Desk} (h : Scripted desk after) (task : Task) :
    after.deedsOf task = desk.deedsOf task := by
  unfold Desk.deedsOf
  rw [h.deeds]

/-- The ledger of reads is no concern of the frame. -/
theorem scripted_reads (desk : Desk) (reads : Reads) : Scripted desk { desk with reads } :=
  ⟨rfl, rfl, rfl, rfl, fun _ => rfl⟩

theorem scripted_standAt (desk : Desk) (gate : String) (task : Task) :
    Scripted desk (desk.standAt gate task) := by
  unfold standAt
  split
  · exact .refl desk
  · exact ⟨rfl, rfl, rfl, rfl, fun _ => rfl⟩

theorem scripted_await? {α : Type} (desk : Desk) (task : Task) (d : Deferred α) :
    Scripted desk (desk.await? task d).2 := by
  unfold await?
  split
  · exact (scripted_reads desk _).trans (scripted_standAt _ _ _)
  · exact scripted_reads desk _

theorem scripted_text? (desk : Desk) (task : Task) (item : Item) :
    Scripted desk (desk.text? task item).2 := by
  cases item with
  | text value => exact scripted_await? desk task value
  | file file => exact .refl desk

/-- The value that is there is the value of what was asked for. -/
theorem value_of_await? {α : Type} {desk : Desk} {task : Task} {d : Deferred α} {value : α}
    (h : (desk.await? task d).1 = some value) : value = d.value := by
  unfold await? at h
  split at h
  · simp at h
  · exact (Option.some.inj h).symm

theorem text_of_text? {desk : Desk} {task : Task} {item : Item} {text : String}
    (h : (desk.text? task item).1 = some text) : text = item.asString := by
  cases item with
  | text value => exact value_of_await? h
  | file file => exact (Option.some.inj h).symm

theorem scripted_awaitAll (desk : Desk) (task : Task) (items : List Item) :
    Scripted desk (desk.awaitAll task items).2 := by
  induction items generalizing desk with
  | nil => exact .refl desk
  | cons item rest ih =>
      cases item with
      | text value =>
          have hvalue := scripted_await? desk task value
          unfold awaitAll
          split <;> rename_i h <;> rw [h] at hvalue
          · exact hvalue.trans (ih _)
          · exact hvalue
      | file file =>
          have hdata := scripted_await? desk task file.data
          unfold awaitAll
          split <;> rename_i h <;> rw [h] at hdata
          · exact hdata.trans (ih _)
          · exact hdata

/-- What providers report is no question. -/
theorem scripted_note (desk : Desk) (task : Task) (provider : String) {observation : Observation}
    (h : ∀ document selection transfer, observation ≠ .asked document selection transfer) :
    Scripted desk (desk.note task provider observation) := by
  refine ⟨rfl, rfl, rfl, rfl, fun other => ?_⟩
  cases observation with
  | asked document selection transfer => exact absurd rfl (h document selection transfer)
  | _ => simp [note, questions, LogEntry.question?]

theorem scripted_report (α : Type) (desk : Desk) (call : Call) (t : Transfer) (r : Report) :
    Scripted desk (desk.report (α := α) call t r).2 := by
  cases r with
  | items =>
      have hall := scripted_awaitAll desk call.task (t.entries.map Prod.snd)
      unfold report
      dsimp only
      split <;> rename_i h <;> rw [h] at hall
      · exact hall.trans (scripted_note _ _ _ (by simp))
      · exact hall
  | _ => exact scripted_note _ _ _ (by simp)

theorem scripted_pause (α : Type) (desk : Desk) (task : Task) (cancelled : Bool)
    (begun : Option Nat) (p : Pause) :
    Scripted desk (desk.pause (α := α) task cancelled begun p).2 := by
  unfold pause
  split
  · exact .refl desk
  · split
    · exact .refl desk
    · cases p <;> exact ⟨rfl, rfl, rfl, rfl, fun _ => rfl⟩

end Desk

open Desk (Scripted scripted_reads scripted_report scripted_pause scripted_await? scripted_text?)

/-! ## Copy scripts -/

theorem CopyAction.scripted_perform (a : CopyAction) (call : Call) (cancelled : Bool)
    (begun : Option Nat) (fork : Transfer) (desk : Desk) :
    Scripted desk (a.perform call cancelled begun fork desk).2.2 := by
  cases a with
  | pause p => exact scripted_pause _ desk call.task cancelled begun p
  | report r => exact scripted_report _ desk call fork r
  | setSnippet =>
      unfold perform
      cases Snippet.ofSelection? call.document call.selection with
      | none => exact .refl desk
      | some snippet => exact scripted_reads desk _
  | set mime text => exact scripted_reads desk _
  | setFile mime name uri content => exact scripted_reads desk _
  | setSlice mime => exact scripted_reads desk _
  | delete mime => exact .refl desk
  | fail error => exact .refl desk
  | crash => exact .refl desk

theorem Lane.scripted_runScript (call : Call) (cancelled : Bool) (script : CopyScript)
    (begun : Option Nat) (fork : Transfer) (desk : Desk) :
    Scripted desk (runScript call cancelled script begun fork desk).2 := by
  induction script generalizing begun fork desk with
  | nil => exact .refl desk
  | cons a rest ih =>
      have hperform := a.scripted_perform call cancelled begun fork desk
      unfold runScript
      split <;> rename_i hp <;> rw [hp] at hperform
      · exact hperform.trans (ih _ _ _)
      · exact hperform
      · exact hperform
      · exact hperform

theorem CopyRun.scripted_runLanes (task : Task) (document : Document) (selection : Selection)
    (cancelled : Bool) (lanes : List Lane) (desk : Desk) :
    Scripted desk (runLanes task document selection cancelled lanes desk).2 := by
  induction lanes generalizing desk with
  | nil => exact .refl desk
  | cons lane rest ih =>
      have hlane : Scripted desk (lane.run task document selection cancelled desk).2 :=
        Lane.scripted_runScript _ _ _ _ _ _
      unfold runLanes
      split
      · simp only
        split
        · exact hlane
        · exact hlane.trans (ih _)
      · exact ih desk

/-- **The turn of a copy is nothing but scripts.** -/
theorem CopyRun.scripted_poll (c : CopyRun) (index : Nat) (desk : Desk) :
    Scripted desk (c.poll index desk).2 := by
  unfold poll
  split
  · exact .refl desk
  · exact scripted_runLanes _ _ _ _ _ _

/-! ## Paste scripts -/

theorem Call.scripted_withText (call : Call) (item : Item) (cancelled : Bool) (desk : Desk)
    (answer : String → Turn PasteAnswer) :
    Scripted desk (call.withText item cancelled desk answer).2.2 := by
  have htext := scripted_text? desk call.task item
  unfold withText
  split <;> rename_i h <;> rw [h] at htext <;> exact htext

theorem PasteAction.scripted_perform (a : PasteAction) (call : Call) (t : Transfer)
    (begun : Option Nat) (cancelled : Bool) (desk : Desk) :
    Scripted desk (a.perform call t begun cancelled desk).2.2 := by
  cases a with
  | pause p => exact scripted_pause _ desk call.task cancelled begun p
  | report r => exact scripted_report _ desk call t r
  | echo mime =>
      simp only [perform]
      cases t.get? mime with
      | none => exact .refl desk
      | some item => exact call.scripted_withText item cancelled desk _
  | echoFile mime =>
      simp only [perform]
      cases (t.get? mime).bind Item.asFile? with
      | none => exact .refl desk
      | some file =>
          have hdata := scripted_await? desk call.task file.data
          dsimp only
          split <;> rename_i h <;> rw [h] at hdata <;> exact hdata
  | insertSnippet =>
      simp only [perform]
      split
      · cases t.get? snippetMime with
        | none => exact .refl desk
        | some item => exact call.scripted_withText item cancelled desk _
      · exact .refl desk
  | insertLinks =>
      simp only [perform]
      cases t.get? UriList.mime with
      | none => exact .refl desk
      | some item => exact call.scripted_withText item cancelled desk _
  | cancel => exact .refl desk
  | insert text => exact .refl desk
  | answer edit => exact .refl desk
  | fail error => exact .refl desk
  | crash => exact .refl desk

theorem PasteScript.scripted_run (call : Call) (t : Transfer) (script : PasteScript)
    (begun : Option Nat) (cancelled : Bool) (desk : Desk) :
    Scripted desk (script.run call t begun cancelled desk).2.2 := by
  induction script generalizing begun cancelled desk with
  | nil => exact .refl desk
  | cons a rest ih =>
      have hperform := a.scripted_perform call t begun cancelled desk
      unfold PasteScript.run
      split <;> rename_i hp <;> rw [hp] at hperform
      · exact hperform.trans (ih _ _ _)
      · exact hperform
      · exact hperform
      · exact hperform

/-! ## Cancellation inside a script -/

theorem Call.cancelled_withText (call : Call) (item : Item) (cancelled : Bool) (desk : Desk)
    (answer : String → Turn PasteAnswer) :
    (call.withText item cancelled desk answer).2.1 = cancelled := by
  unfold withText
  split <;> rfl

theorem PasteAction.cancelled_perform (a : PasteAction) (call : Call) (t : Transfer)
    (begun : Option Nat) (desk : Desk) : (a.perform call t begun true desk).2.1 = true := by
  cases a with
  | echo mime =>
      simp only [perform]
      cases t.get? mime with
      | none => rfl
      | some item => exact call.cancelled_withText item true desk _
  | echoFile mime =>
      simp only [perform]
      cases (t.get? mime).bind Item.asFile? with
      | none => rfl
      | some file =>
          dsimp only
          split <;> rfl
  | insertSnippet =>
      simp only [perform]
      split
      · cases t.get? snippetMime with
        | none => rfl
        | some item => exact call.cancelled_withText item true desk _
      · rfl
  | insertLinks =>
      simp only [perform]
      cases t.get? UriList.mime with
      | none => rfl
      | some item => exact call.cancelled_withText item true desk _
  | _ => rfl

/-- A paste that is cancelled stays cancelled while a script runs. -/
theorem PasteScript.cancelled_run (call : Call) (t : Transfer) (script : PasteScript)
    (begun : Option Nat) (desk : Desk) : (script.run call t begun true desk).2.1 = true := by
  induction script generalizing begun desk with
  | nil => rfl
  | cons a rest ih =>
      have hperform := a.cancelled_perform call t begun desk
      unfold PasteScript.run
      split <;> rename_i hp <;> rw [hp] at hperform
      · subst hperform
        exact ih _ _
      · exact hperform
      · exact hperform
      · exact hperform

end CopyPaste

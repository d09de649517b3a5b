import CopyPaste.Proofs.Pasting.Cancellation

/-!
# Which answer decides

A paste asks its providers in the order that was fixed at the paste event, each once, and the
first answer that is a failure or an edit decides: nobody is asked after it. If there is none, the
plain text decides. Either way an editor is asked for at most one edit, and it is the editor at
which the paste was taken over.

* `Editor.attempt` — how a paste ends that asks an editor for an edit;
* `Scanned` — what a paste that nobody cancels asks, records and comes to, answer by answer;
* **`course_scan`** — what one scan does;
* **`stands_after`** — a paste through all its turns;
* **`first_answer_decides`** — every paste, after every history.
-/

namespace CopyPaste

/-! ## Asking an editor -/

/-- How a paste ends that asks an editor for an edit, and the editor after it. An edit that is
refused changes nothing. -/
def Editor.attempt (e : Editor) (edit : Edit) (target : Nat) (outcome : PasteOutcome) :
    PasteStage × Editor :=
  match e.apply edit target with
  | .ok editor => (.ended (.ok outcome), editor)
  | .error error => (.ended (.error (.apply error)), e)

theorem Editor.isOver_attempt (e : Editor) (edit : Edit) (target : Nat) (outcome : PasteOutcome) :
    (e.attempt edit target outcome).1.isOver = true := by
  unfold attempt
  split <;> rfl

theorem Editor.attempt_ne {stage : PasteStage} (hgoing : stage.isOver = false) (e : Editor)
    (edit : Edit) (target : Nat) (outcome : PasteOutcome) :
    (e.attempt edit target outcome).1 ≠ stage := by
  rintro rfl
  rw [e.isOver_attempt] at hgoing
  exact Bool.false_ne_true hgoing.symm

/-! ## Scans -/

/-- What a paste that nobody cancels does with the providers of the given names, from the editor
as it is before its last turn: the providers that it asks, the deeds on record, how it stands, and
the editor after its last turn. `target` is the number of the editor that it asks for edits, and
`plain` the edit that it falls back on. -/
inductive Scanned (target : Nat) (plain : Option Edit) (editor : Editor) :
    List String → List String → List Deed → PasteStage → Editor → Prop
  /-- The provider has not answered yet. -/
  | asks (name : String) (script : PasteScript) (since : Nat)
      (rest : List (String × PasteScript)) :
      Scanned target plain editor (name :: rest.map Prod.fst) [name] []
        (.asking name script since rest) editor
  | crashes (name : String) (rest : List String) :
      Scanned target plain editor (name :: rest) [name] [] .crashed editor
  | fails (name : String) (rest : List String) (error : ProviderError) :
      Scanned target plain editor (name :: rest) [name] [.answered name (.error error) false]
        (.ended (.error (.provider name error))) editor
  | edits (name : String) (rest : List String) (edit : Edit) (hedit : edit ≠ []) :
      Scanned target plain editor (name :: rest) [name]
        [.answered name (.ok (some edit)) false, .requested edit target]
        (editor.attempt edit target (.applied name)).1
        (editor.attempt edit target (.applied name)).2
  /-- After no answer, or an edit without replacements, the next provider is asked. -/
  | passes (name : String) (answer : PasteAnswer) (hempty : answer.isEmpty = true)
      {rest asked : List String} {deeds : List Deed} {stage : PasteStage} {after : Editor}
      (h : Scanned target plain editor rest asked deeds stage after) :
      Scanned target plain editor (name :: rest) (name :: asked)
        (.answered name answer false :: deeds) stage after
  /-- The plain text is not there yet. -/
  | waits (edit : Edit) (hplain : plain = some edit) :
      Scanned target plain editor [] [] [] .fallingBack editor
  | inserts (edit : Edit) (hplain : plain = some edit) :
      Scanned target plain editor [] [] [.requested edit target]
        (editor.attempt edit target .plainText).1 (editor.attempt edit target .plainText).2
  | leaves (hplain : plain = none) :
      Scanned target plain editor [] [] [] (.ended (.ok .noEdit)) editor

namespace Scanned

variable {target : Nat} {plain : Option Edit} {editor after editor' after' : Editor}
  {names asked asked' : List String} {deeds deeds' : List Deed} {stage stage' : PasteStage}

/-- Providers are asked in order, and none is passed over. -/
theorem asked_prefix (h : Scanned target plain editor names asked deeds stage after) :
    asked <+: names := by
  induction h with
  | passes name answer hempty h ih => exact List.cons_prefix_cons.mpr ⟨rfl, ih⟩
  | asks name script since rest => exact ⟨rest.map Prod.fst, rfl⟩
  | crashes name rest => exact ⟨rest, rfl⟩
  | fails name rest error => exact ⟨rest, rfl⟩
  | edits name rest edit hedit => exact ⟨rest, rfl⟩
  | waits edit hplain => exact List.prefix_rfl
  | inserts edit hplain => exact List.prefix_rfl
  | leaves hplain => exact List.prefix_rfl

/-- The provider that a paste waits for answers, and the paste goes on from there. -/
theorem resume (h : Scanned target plain editor names asked deeds stage after) {name : String}
    {script : PasteScript} {since : Nat} {rest : List (String × PasteScript)}
    (hstage : stage = .asking name script since rest)
    (h' : Scanned target plain editor' (name :: rest.map Prod.fst) (name :: asked') deeds' stage'
      after') :
    Scanned target plain editor' names (asked ++ asked') (deeds ++ deeds') stage' after' := by
  induction h with
  | asks name' script' since' rest' =>
      obtain ⟨rfl, rfl, rfl, rfl⟩ := PasteStage.asking.inj hstage
      exact h'
  | passes name' answer hempty h ih => exact .passes name' answer hempty (ih hstage)
  | edits name' rest' edit hedit => exact absurd hstage (editor.attempt_ne rfl edit target _)
  | inserts edit hplain => exact absurd hstage (editor.attempt_ne rfl edit target _)
  | _ => simp at hstage

/-- The plain text that a paste waits for is asked for again. -/
theorem resume_fallingBack (h : Scanned target plain editor names asked deeds stage after)
    (hstage : stage = .fallingBack)
    (h' : Scanned target plain editor' [] asked' deeds' stage' after') :
    Scanned target plain editor' names (asked ++ asked') (deeds ++ deeds') stage' after' := by
  induction h with
  | passes name' answer hempty h ih => exact .passes name' answer hempty (ih hstage)
  | waits edit hplain => exact h'
  | edits name' rest' edit hedit => exact absurd hstage (editor.attempt_ne rfl edit target _)
  | inserts edit hplain => exact absurd hstage (editor.attempt_ne rfl edit target _)
  | _ => simp at hstage

end Scanned

namespace PasteRun

/-- What a paste asks a provider. -/
def question (p : PasteRun) (name : String) : Question :=
  ⟨name, p.document, p.selection, p.transfer⟩

/-- What one scan of the providers of the given names did, when the first of them in `past` had
been asked before: it asked those in `asked`, and left the deeds. -/
structure Course (p : PasteRun) (task : Task) (names past asked : List String)
    (deeds : List Deed) (desk : Desk) (out : PasteStage × Bool × Desk) : Prop where
  scanned : Scanned p.editor p.plainEdit? desk.editor names (past ++ asked) deeds out.1
    out.2.2.editor
  questions : out.2.2.questions task = desk.questions task ++ asked.map p.question
  deedsOf : out.2.2.deedsOf task = desk.deedsOf task ++ deeds

/-! ## One scan -/

section Scans

variable {p : PasteRun} {task : Task} {names past asked : List String} {deeds : List Deed}
  {desk desk' : Desk} {out : PasteStage × Bool × Desk} {name : String}

theorem applyEdit_eq_attempt (p : PasteRun) (task : Task) (edit : Edit) (outcome : PasteOutcome)
    (desk : Desk) :
    (p.applyEdit task edit outcome desk).1 = (desk.editor.attempt edit p.editor outcome).1 ∧
      (p.applyEdit task edit outcome desk).2.editor =
        (desk.editor.attempt edit p.editor outcome).2 := by
  have hrecord : (desk.record task (.requested edit p.editor)).editor = desk.editor := rfl
  unfold applyEdit Editor.attempt
  dsimp only
  rw [hrecord]
  cases desk.editor.apply edit p.editor <;> exact ⟨rfl, rfl⟩

theorem Course.scripted (h : Course p task names past asked deeds desk' out)
    (hscripted : Desk.Scripted desk desk') : Course p task names past asked deeds desk out where
  scanned := by
    rw [← hscripted.editor]
    exact h.scanned
  questions := by rw [h.questions, hscripted.questions]
  deedsOf := by rw [h.deedsOf, hscripted.deedsOf]

/-- A question put first. -/
theorem Course.ask (h : Course p task names [name] asked deeds
      (desk.note task name (.asked p.document p.selection p.transfer)) out) :
    Course p task names [] (name :: asked) deeds desk out where
  scanned := h.scanned
  questions := by
    rw [h.questions, Desk.questions_note_asked, if_pos rfl, List.append_assoc]
    rfl
  deedsOf := h.deedsOf

/-- An answer without an edit, before everything else. -/
theorem Course.passes {answer : PasteAnswer} (hempty : answer.isEmpty = true)
    (h : Course p task names [] asked deeds
      (desk.record task (.answered name answer false)) out) :
    Course p task (name :: names) [name] asked (.answered name answer false :: deeds) desk out where
  scanned := .passes name answer hempty h.scanned
  questions := h.questions
  deedsOf := by
    rw [h.deedsOf, Desk.deedsOf_record, if_pos rfl, List.append_assoc]
    rfl

/-- **Falling back on the plain text.** -/
theorem course_fallBack (p : PasteRun) (task : Task) (desk : Desk) :
    ∃ deeds, Course p task [] [] [] deeds desk (p.scan task [] false desk) := by
  show ∃ deeds, Course p task [] [] [] deeds desk
    ((p.fallBack task desk).1, false, (p.fallBack task desk).2)
  obtain ⟨after, hscripted, ⟨edit, hplain, h⟩ | ⟨hplain, h⟩ | ⟨edit, hplain, h⟩⟩ :=
    p.fallBack_cases task desk
  · rw [h]
    exact ⟨[], Course.scripted
      ⟨.waits edit hplain, (List.append_nil _).symm, (List.append_nil _).symm⟩ hscripted⟩
  · rw [h]
    exact ⟨[], Course.scripted
      ⟨.leaves hplain, (List.append_nil _).symm, (List.append_nil _).symm⟩ hscripted⟩
  · obtain ⟨hstage, heditor⟩ := p.applyEdit_eq_attempt task edit .plainText after
    rw [h]
    refine ⟨[.requested edit p.editor], Course.scripted ⟨?_, ?_, ?_⟩ hscripted⟩
    · show Scanned _ _ _ _ _ _ (p.applyEdit task edit .plainText after).1
        (p.applyEdit task edit .plainText after).2.editor
      rw [hstage, heditor]
      exact .inserts edit hplain
    · exact (p.questions_applyEdit task task edit _ after).trans (List.append_nil _).symm
    · show (p.applyEdit task edit .plainText after).2.deedsOf task = _
      rw [deedsOf_applyEdit, if_pos rfl]

/-- An edit that a provider answered with. -/
theorem course_edit (p : PasteRun) (task : Task) (name : String) (rest : List String)
    {edit : Edit} (hedit : edit ≠ []) (desk : Desk) {noted : Desk}
    (hnoted : noted = desk.record task (.answered name (.ok (some edit)) false)) :
    Course p task (name :: rest) [name] []
      [.answered name (.ok (some edit)) false, .requested edit p.editor] desk
      ((p.applyEdit task edit (.applied name) noted).1, false,
        (p.applyEdit task edit (.applied name) noted).2) := by
  subst hnoted
  obtain ⟨hstage, heditor⟩ := p.applyEdit_eq_attempt task edit (.applied name)
    (desk.record task (.answered name (.ok (some edit)) false))
  refine ⟨?_, ?_, ?_⟩
  · dsimp only
    rw [hstage, heditor]
    exact .edits name rest edit hedit
  · exact (p.questions_applyEdit task task edit _ _).trans (List.append_nil _).symm
  · dsimp only
    rw [deedsOf_applyEdit, if_pos rfl, Desk.deedsOf_record, if_pos rfl, List.append_assoc]
    rfl

/-- **The reply of a provider and what follows it,** as long as nobody cancels the paste. -/
theorem course_follow (p : PasteRun) (task : Task) (name : String)
    (left : List (String × PasteScript)) {reply : Reply × Bool × Desk}
    (hreply : reply.2.1 = false)
    (hcancelled : (p.follow task name left (p.scan task left) reply).2.1 = false)
    (hscan : ∀ desk, (p.scan task left false desk).2.1 = false → ∃ asked deeds,
      Course p task (left.map Prod.fst) [] asked deeds desk (p.scan task left false desk)) :
    ∃ asked deeds, Course p task (name :: left.map Prod.fst) [name] asked deeds reply.2.2
      (p.follow task name left (p.scan task left) reply) := by
  obtain ⟨answer | ⟨script, since⟩ | _, cancelled, desk⟩ := reply
  · obtain rfl : cancelled = false := hreply
    -- no answer and an answer without replacements go the same way
    have hpasses : answer.isEmpty = true →
        (p.scan task left false (desk.record task (.answered name answer false))).2.1 = false →
        ∃ asked deeds, Course p task (name :: left.map Prod.fst) [name] asked deeds desk
          (p.scan task left false (desk.record task (.answered name answer false))) := by
      intro hempty hc
      obtain ⟨asked, deeds, h⟩ := hscan _ hc
      exact ⟨asked, _, h.passes hempty⟩
    rcases answer with error | _ | edit
    · refine ⟨[], [.answered name (.error error) false], ?_⟩
      have hfollow : p.follow task name left (p.scan task left)
          (.answered (.error error), false, desk) =
            (.ended (.error (.provider name error)), false,
              desk.record task (.answered name (.error error) false)) := by
        simp [follow, heed]
      rw [hfollow]
      refine ⟨.fails name _ error, (List.append_nil _).symm, ?_⟩
      show (desk.record task _).deedsOf task = _
      rw [Desk.deedsOf_record, if_pos rfl]
    · exact hpasses rfl hcancelled
    · cases edit with
      | nil => exact hpasses rfl hcancelled
      | cons r edit =>
          exact ⟨[], _, p.course_edit task name _ (List.cons_ne_nil r edit) desk rfl⟩
  · exact ⟨[], [], .asks name script since left, (List.append_nil _).symm,
      (List.append_nil _).symm⟩
  · exact ⟨[], [], .crashes name _, (List.append_nil _).symm, (List.append_nil _).symm⟩

theorem going_of_follow {left : List (String × PasteScript)} {reply : Reply × Bool × Desk}
    (h : (p.follow task name left (p.scan task left) reply).2.1 = false) : reply.2.1 = false := by
  cases hreply : reply.2.1 with
  | false => rfl
  | true =>
      rw [p.cancelled_follow task left name hreply] at h
      exact h

/-- **All providers that are left,** as long as nobody cancels the paste. -/
theorem course_scan (p : PasteRun) (task : Task) (left : List (String × PasteScript))
    (desk : Desk) (hcancelled : (p.scan task left false desk).2.1 = false) :
    ∃ asked deeds, Course p task (left.map Prod.fst) [] asked deeds desk
      (p.scan task left false desk) := by
  induction left generalizing desk with
  | nil =>
      obtain ⟨deeds, h⟩ := p.course_fallBack task desk
      exact ⟨[], deeds, h⟩
  | cons q left ih =>
      obtain ⟨name, script⟩ := q
      obtain ⟨asked, deeds, h⟩ :=
        p.course_follow task name left (going_of_follow hcancelled) hcancelled ih
      exact ⟨_, deeds, (h.scripted (PasteScript.scripted_run _ _ _ _ _ _)).ask⟩

end Scans

/-! ## Turns -/

/-- What is on record of a paste fits how it stands, with the editor as it was before the last turn
of the paste and after it. -/
def Stands (p : PasteRun) (i : Nat) (desk : Desk) (before after : Editor) : Prop :=
  ∃ asked, Scanned p.editor p.plainEdit? before (p.providers.map Prod.fst) asked
      (desk.deedsOf (.paste i)) p.stage after ∧
    desk.questions (.paste i) = asked.map p.question

theorem stands_settleAt {p : PasteRun} {i : Nat} {out : PasteStage × Bool × Desk}
    {before : Editor} (asked : List String)
    (hscanned : Scanned p.editor p.plainEdit? before (p.providers.map Prod.fst) asked
      (out.2.2.deedsOf (.paste i)) out.1 out.2.2.editor)
    (hquestions : out.2.2.questions (.paste i) = asked.map p.question) :
    (p.settleAt out).1.Stands i (p.settleAt out).2 before (p.settleAt out).2.editor :=
  ⟨asked, hscanned, hquestions⟩

/-- A turn in which a paste asks goes on from where the paste stood. -/
theorem Polled.stands {p : PasteRun} {i : Nat} {result : Option (Option Transfer)} {desk : Desk}
    {out : PasteRun × Desk} (h : Polled p (.paste i) result desk out) (hsound : p.Sound i desk)
    (hgoing : p.stage.isOver = false)
    (hstands : p.stage.isUndecided = false → ∃ before after, p.Stands i desk before after)
    (hcancelled : out.1.cancelled = false) (hdecided : out.1.stage.isUndecided = false) :
    out.1.Stands i out.2 desk.editor out.2.editor := by
  have hnot : p.cancelled = false := by
    cases hflag : p.cancelled with
    | false => rfl
    | true =>
        rw [h.cancelled hflag] at hcancelled
        exact hcancelled
  cases h with
  | idle hstage =>
      rcases hstage with hheld | hover
      · rw [hheld] at hdecided
        simp [PasteStage.isUndecided] at hdecided
      · rw [hgoing] at hover
        exact absurd hover Bool.false_ne_true
  | waits since hsince hc hresult hlimit => simp [PasteStage.isUndecided] at hdecided
  | stops since hsince hc =>
      rw [hnot] at hc
      exact absurd hc Bool.false_ne_true
  | asks since copied hsince hsupplied =>
      obtain ⟨hquestions, hdeeds⟩ := hsound.fresh (isUndecided_of_waitsSince? hsince)
      have hask : p.askAll (.paste i) copied desk =
          (p.supply copied).settleAt
            ((p.supply copied).scan (.paste i) p.providers false desk) := by
        rw [← hnot]
        rfl
      rw [hask] at hcancelled ⊢
      obtain ⟨asked, deeds, hcourse⟩ :=
        (p.supply copied).course_scan (.paste i) p.providers desk hcancelled
      refine stands_settleAt asked ?_ ?_
      · rw [hcourse.deedsOf, hdeeds]
        exact hcourse.scanned
      · rw [hcourse.questions, hquestions]
        rfl
  | resumes provider script since rest hstage =>
      obtain ⟨before, after, asked, hscanned, hquestions⟩ := hstands (by rw [hstage]; rfl)
      have hfollow : (p.follow (.paste i) provider rest (p.scan (.paste i) rest)
          (script.run (p.call (.paste i) provider) p.transfer (some since) p.cancelled
            desk)).2.1 = false := hcancelled
      obtain ⟨asked', deeds', hcourse⟩ := p.course_follow (.paste i) provider rest
        (going_of_follow hfollow) hfollow (fun desk => p.course_scan (.paste i) rest desk)
      have hcourse := hcourse.scripted (PasteScript.scripted_run _ _ script _ _ desk)
      refine stands_settleAt (asked ++ asked') ?_ ?_
      · rw [hcourse.deedsOf]
        exact hscanned.resume hstage hcourse.scanned
      · rw [hcourse.questions, hquestions, List.map_append]
  | fallsBack hstage =>
      obtain ⟨before, after, asked, hscanned, hquestions⟩ := hstands (by rw [hstage]; rfl)
      obtain ⟨deeds', hcourse⟩ := p.course_fallBack (.paste i) desk
      rw [hnot]
      refine stands_settleAt (asked ++ []) ?_ ?_
      · rw [hcourse.deedsOf]
        exact hscanned.resume_fallingBack hstage hcourse.scanned
      · rw [hcourse.questions, hquestions, List.map_append]

end PasteRun

/-! ## Whole histories -/

namespace Coordinator

section Steps

variable {m : Coordinator} {e : Event} {i : Nat} {p p' : PasteRun} {desk : Desk}

theorem fixed_of_origin (h : p'.origin = p.origin) :
    p'.editor = p.editor ∧ p'.document = p.document ∧ p'.selection = p.selection ∧
      p'.providers = p.providers ∧ p'.plainTextFallback = p.plainTextFallback :=
  ⟨(congrArg PasteRun.editor h :), (congrArg PasteRun.document h :),
    (congrArg PasteRun.selection h :), (congrArg PasteRun.providers h :),
    (congrArg PasteRun.plainTextFallback h :)⟩

/-- What is on record stays, and so does how a paste stands. -/
theorem stands_of_sameRecords {desk' : Desk} {before after : Editor}
    (h : p.Stands i desk before after) (hrecords : SameRecords (.paste i) desk desk')
    (horigin : p'.origin = p.origin) (htransfer : p'.transfer = p.transfer)
    (hstage : p'.stage = p.stage) : p'.Stands i desk' before after := by
  obtain ⟨heditor, hdocument, hselection, hproviders, hfallback⟩ := fixed_of_origin horigin
  have hquestion : p'.question = p.question := by
    unfold PasteRun.question
    rw [hdocument, hselection, htransfer]
  have hplain : p'.plainEdit? = p.plainEdit? := by
    unfold PasteRun.plainEdit?
    rw [hdocument, hselection, htransfer, hfallback]
  obtain ⟨asked, hscanned, hquestions⟩ := h
  refine ⟨asked, ?_, ?_⟩
  · rw [hplain, hstage, hrecords.2, heditor, hproviders]
    exact hscanned
  · rw [hquestion, hrecords.1, hquestions]

/-- An event that ends a paste is a turn, and the paste goes on from where it stood. -/
theorem PasteStep.stands (h : PasteStep m e i p p' desk) (hsound : p.Sound i m.desk)
    (hgoing : p.stage.isOver = false)
    (hstands : p.stage.isUndecided = false → ∃ before after, p.Stands i m.desk before after)
    (hcancelled : p'.cancelled = false) (hdecided : p'.stage.isUndecided = false) :
    ∃ before after, p'.Stands i desk before after ∧
      (p'.stage.isOver = true → e = .turn ∧ before = m.desk.editor ∧ after = desk.editor) := by
  cases h with
  | still desk hrecords =>
      obtain ⟨before, after, h⟩ := hstands hdecided
      refine ⟨before, after, stands_of_sameRecords h hrecords rfl rfl rfl, fun hover => ?_⟩
      rw [hgoing] at hover
      exact absurd hover Bool.false_ne_true
  | queues desk hstage hrecords => simp [PasteStage.isUndecided] at hdecided
  | cancels desk he hrecords => simp at hcancelled
  | polls he hhead =>
      exact ⟨_, _, (p.polled_poll i (m.result? p.copy) m.desk).stands hsound hgoing hstands
        hcancelled hdecided, fun _ => ⟨he, rfl, rfl⟩⟩

end Steps

theorem cancelled_after {m : Coordinator} {i : Nat} {p p' : PasteRun}
    (hp : m.pastes[i]? = some p) (hcancelled : p.cancelled = true) {history : List Event}
    (hp' : (m.after history).pastes[i]? = some p') : p'.cancelled = true := by
  obtain ⟨q, hq, hc⟩ := paste_after (P := fun q _ => q.cancelled = true)
    (fun hstep h => hstep.cancelled h) hp hcancelled history
  obtain rfl : p' = q := Option.some.inj (hp'.symm.trans hq)
  exact hc

/-- **A paste through all its turns.** If nobody cancels it, what is on record of it fits how it
stands; and when it is over there is a turn in which it came to its end. -/
theorem stands_after {m : Coordinator} (hm : m.Sound) {i : Nat} {p p' : PasteRun}
    (hp : m.pastes[i]? = some p) (hgoing : p.stage.isOver = false)
    (hstands : p.stage.isUndecided = false → ∃ before after, p.Stands i m.desk before after)
    {history : List Event} (hp' : (m.after history).pastes[i]? = some p')
    (hcancelled : p'.cancelled = false) (hdecided : p'.stage.isUndecided = false) :
    ∃ before after, p'.Stands i (m.after history).desk before after ∧
      (p'.stage.isOver = true → ∃ early late, history = early ++ .turn :: late ∧
        before = (m.after early).editor ∧ after = (m.after (early ++ [.turn])).editor) := by
  induction history generalizing m p with
  | nil =>
      obtain rfl : p = p' := Option.some.inj (hp.symm.trans hp')
      obtain ⟨before, after, h⟩ := hstands hdecided
      refine ⟨before, after, h, fun hover => ?_⟩
      rw [hgoing] at hover
      exact absurd hover Bool.false_ne_true
  | cons e history ih =>
      obtain ⟨q, hq, hstep⟩ := pasteStep_handle hp e
      have hqcancelled : q.cancelled = false := by
        cases hc : q.cancelled with
        | false => rfl
        | true =>
            rw [cancelled_after hq hc hp'] at hcancelled
            exact hcancelled
      have hqstands := hstep.stands (hm.pastes i p hp) hgoing hstands hqcancelled
      cases hover : q.stage.isOver with
      | false =>
          obtain ⟨before, after, h, hend⟩ := ih (sound_handle hm e) hq hover
            (fun hd => by
              obtain ⟨before, after, h, -⟩ := hqstands hd
              exact ⟨before, after, h⟩) hp'
          refine ⟨before, after, h, fun hover' => ?_⟩
          obtain ⟨early, late, rfl, rfl, rfl⟩ := hend hover'
          exact ⟨e :: early, late, rfl, rfl, rfl⟩
      | true =>
          -- this event ends the paste, and nothing that follows changes what it came to
          have hqdecided := PasteStage.decided_of_isOver hover
          obtain ⟨before, after, h, hend⟩ := hqstands hqdecided
          obtain ⟨rfl, rfl, rfl⟩ := hend hover
          obtain ⟨r, hr, hstage, hrecords⟩ := over_after hq hover history
          obtain rfl : p' = r := Option.some.inj (hp'.symm.trans hr)
          obtain ⟨r, hr, horigin⟩ := origin_after hq history
          obtain rfl : p' = r := Option.some.inj (hp'.symm.trans hr)
          obtain ⟨r, hr, -, htransfer⟩ := decided_after hq hqdecided history
          obtain rfl : p' = r := Option.some.inj (hp'.symm.trans hr)
          exact ⟨_, _, stands_of_sameRecords h hrecords horigin htransfer hstage,
            fun _ => ⟨[], history, rfl, rfl, rfl⟩⟩

/-- What is fixed when a paste is taken over. -/
theorem taken_origin {m taken : Coordinator} {given : Option Payload} {cancelled : Bool} {i : Nat}
    (h : m.paste given cancelled = (.taken i, taken)) : ∃ p document selection,
      taken.pastes[i]? = some p ∧ m.editor.document = some document ∧
      m.editor.selection = some selection ∧ p.stage = .held ∧ p.editor = m.editor.id ∧
      p.document = document ∧ p.selection = selection ∧
      p.providers = m.registry.pasters document ∧
      p.plainTextFallback = m.config.plainTextFallback := by
  obtain ⟨rfl, payload, document, selection, providers, handle, hworks, hafter⟩ :=
    paste_taken (congrArg Prod.fst h)
  obtain ⟨-, hdocument, hselection, hproviders, -, -⟩ := admitPaste_ok hworks
  obtain rfl : (m.paste given cancelled).2 = taken := congrArg Prod.snd h
  rw [hafter]
  exact ⟨_, document, selection, List.getElem?_concat_length, hdocument, hselection, rfl, rfl, rfl,
    rfl, hproviders, rfl⟩

/-- **The first answer that is a failure or an edit decides,** and the plain text if there is none.
`later` leads from the paste event to any moment after it. Whatever happens meanwhile, the
providers are those that were registered at the paste event, in the order of that moment, and they
are asked about what the editor showed then. -/
theorem first_answer_decides {m taken : Coordinator} (hm : m.Reachable) {given : Option Payload}
    {cancelled : Bool} {i : Nat} (htaken : m.paste given cancelled = (.taken i, taken))
    (later : List Event) :
    ∃ document selection p, m.editor.document = some document ∧
      m.editor.selection = some selection ∧ (taken.after later).pastes[i]? = some p ∧
      (p.cancelled = false → ∃ asked,
        asked <+: (m.registry.pasters document).map Prod.fst ∧
        (taken.after later).desk.questions (.paste i) =
          asked.map (fun name => ⟨name, document, selection, p.transfer⟩) ∧
        (p.stage.isOver = false → (taken.after later).desk.requests (.paste i) = []) ∧
        (p.stage.isOver = true →
          (∃ early late, later = early ++ .turn :: late ∧
            Scanned m.editor.id
              (if m.config.plainTextFallback then
                (p.transfer.get? plainMime).map fun item =>
                  [.replacing document.uri selection item.asString]
              else none)
              (taken.after early).editor ((m.registry.pasters document).map Prod.fst) asked
              ((taken.after later).desk.deedsOf (.paste i)) p.stage
              (taken.after (early ++ [.turn])).editor) ∧
          ∀ more, ((taken.after (later ++ more)).pastes[i]?).map (·.stage) = some p.stage ∧
            SameRecords (.paste i) (taken.after later).desk
              (taken.after (later ++ more)).desk)) := by
  have hsound := hm.sound_taken htaken
  obtain ⟨p₀, document, selection, hp₀, hdocument, hselection, hheld, heditor, hpdocument,
    hpselection, hproviders, hfallback⟩ := taken_origin htaken
  obtain ⟨p, hp, horigin⟩ := origin_after hp₀ later
  obtain ⟨heditor', hdocument', hselection', hproviders', hfallback'⟩ := fixed_of_origin horigin
  refine ⟨document, selection, p, hdocument, hselection, hp, fun hcancelled => ?_⟩
  have hsoundp := (hsound.after later).pastes i p hp
  have hquiet : p.stage.isOver = false → (taken.after later).desk.requests (.paste i) = [] :=
    fun hgoing => (hsoundp.going hgoing).1
  cases hdecided : p.stage.isUndecided with
  | true =>
      refine ⟨[], List.nil_prefix, (hsoundp.fresh hdecided).1, hquiet, fun hover => ?_⟩
      rw [PasteStage.going_of_isUndecided hdecided] at hover
      exact absurd hover Bool.false_ne_true
  | false =>
      obtain ⟨before, after, ⟨asked, hscanned, hquestions⟩, hend⟩ :=
        stands_after hsound hp₀ (by rw [hheld]; rfl)
          (fun hd => by rw [hheld] at hd; simp [PasteStage.isUndecided] at hd) hp hcancelled
          hdecided
      unfold PasteRun.plainEdit? at hscanned
      unfold PasteRun.question at hquestions
      rw [hdocument', hselection', hpdocument, hpselection] at hscanned hquestions
      rw [heditor', hproviders', hfallback', heditor, hproviders, hfallback] at hscanned
      refine ⟨asked, hscanned.asked_prefix, hquestions, hquiet, fun hover => ⟨?_, fun more => ?_⟩⟩
      · obtain ⟨early, late, hsplit, rfl, rfl⟩ := hend hover
        exact ⟨early, late, hsplit, hscanned⟩
      · obtain ⟨p', hp', hstage, hrecords⟩ := over_after hp hover more
        rw [after_append, hp', Option.map_some, hstage]
        exact ⟨rfl, hrecords⟩

/-- The only provider answers with nothing. The plain text replaces what was selected at the paste
event, and that stays so whatever follows. -/
theorem plainText_decides_after_silence :
    let taken := ((withPaster []).paste (some someText) false).2
    let later := [.select ⟨1, 2⟩, .run 0, .turn]
    (taken.after later).editor.text? = some "newb" ∧
      (∃ asked, asked <+: ["p"] ∧
        ((taken.after later).desk.questions (.paste 0)).map (·.provider) = asked) ∧
      ∀ more, (taken.after (later ++ more)).desk.requests (.paste 0) =
        [([.replacing "a" ⟨0, 1⟩ "new"], 0)] := by
  intro taken later
  have hreachable : (withPaster []).Reachable := ⟨{}, _, rfl⟩
  have htaken : (withPaster []).paste (some someText) false = (.taken 0, taken) :=
    Prod.ext (by decide +kernel) rfl
  obtain ⟨document, selection, p, hdocument, -, hp, hcourse⟩ :=
    first_answer_decides hreachable htaken later
  have hstage : ((taken.after later).pastes[0]?).map (fun p => (p.cancelled, p.stage.isOver)) =
      some (false, true) := by
    decide +kernel
  have hnames : (withPaster []).editor.document.map (fun document =>
      ((withPaster []).registry.pasters document).map Prod.fst) = some ["p"] := by
    decide +kernel
  rw [hp, Option.map_some, Option.some.injEq, Prod.mk.injEq] at hstage
  rw [hdocument, Option.map_some, Option.some.injEq] at hnames
  obtain ⟨asked, hprefix, hquestions, -, hover⟩ := hcourse hstage.1
  obtain ⟨-, hstays⟩ := hover hstage.2
  refine ⟨by decide +kernel, ⟨asked, hnames ▸ hprefix, ?_⟩, fun more => ?_⟩
  · rw [hquestions, List.map_map]
    exact List.map_id' asked
  · have hrequests : (taken.after later).desk.requests (.paste 0) =
        [([.replacing "a" ⟨0, 1⟩ "new"], 0)] := by
      decide +kernel
    have hdeeds : (taken.after (later ++ more)).desk.deedsOf (.paste 0) =
        (taken.after later).desk.deedsOf (.paste 0) := (hstays more).2.2
    unfold Desk.requests at hrequests ⊢
    rw [hdeeds, hrequests]

end Coordinator

end CopyPaste

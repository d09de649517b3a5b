import CopyPaste.Proofs.Coordinator.Records

/-!
# Asking providers in order

What comes of asking the providers that are left, said once for everything that is proved about
pastes: which questions are put, which deeds follow, and how the paste stands when the scan
ends or has to wait.

* `PasteRun.Progress` — what a scan did between two desks;
* **`progress_fallBack`** — falling back on the plain text;
* **`progress_heed`** — an answer and what follows it;
* **`progress_scan`** — all providers that are left.
-/

namespace CopyPaste

/-! ## Stages -/

namespace PasteStage

/-- Whether the paste has not begun to ask its providers. -/
def isUndecided : PasteStage → Bool
  | .held | .queued | .waiting _ => true
  | _ => false

/-- Whether nothing more comes of the paste. -/
def isOver : PasteStage → Bool
  | .ended _ | .crashed => true
  | _ => false

/-- How many answers without an edit it takes from here until a paste falls back. -/
def outstanding? : PasteStage → Option Nat
  | .asking _ _ _ rest => some (rest.length + 1)
  | .fallingBack => some 0
  | _ => none

/-- Whether a paste that was cancelled stands as it should: if it ended, then as cancelled or
with the failure of a provider that did not fail for being cancelled. -/
def respectsCancellation : PasteStage → Bool
  | .ended (.ok .cancelled) => true
  | .ended (.error (.provider _ error)) => error != .cancelled
  | .ended _ => false
  | _ => true

theorem decided_of_isOver {stage : PasteStage} (h : stage.isOver = true) :
    stage.isUndecided = false := by
  cases stage <;> first | rfl | simp [isOver] at h

theorem going_of_isUndecided {stage : PasteStage} (h : stage.isUndecided = true) :
    stage.isOver = false := by
  cases stage <;> first | rfl | simp [isUndecided] at h

theorem outstanding?_of_isOver {stage : PasteStage} (h : stage.isOver = true) :
    stage.outstanding? = none := by
  cases stage <;> first | rfl | simp [isOver] at h

theorem respectsCancellation_of_going {stage : PasteStage} (h : stage.isOver = false) :
    stage.respectsCancellation = true := by
  cases stage <;> first | rfl | simp [isOver] at h

end PasteStage

/-- An answer without an edit is no late edit. -/
theorem Deed.lateEdit?_of_isEmpty {answer : PasteAnswer} (h : answer.isEmpty = true)
    (provider : String) (cancelled : Bool) :
    (Deed.answered provider answer cancelled).lateEdit? = none := by
  rcases answer with error | _ | edit
  · rfl
  · rfl
  · cases edit with
    | nil => rfl
    | cons r edit => simp [PasteAnswer.isEmpty] at h

namespace PasteRun

/-! ## Making an edit -/

theorem deedsOf_applyEdit (p : PasteRun) (task other : Task) (edit : Edit)
    (outcome : PasteOutcome) (desk : Desk) :
    (p.applyEdit task edit outcome desk).2.deedsOf other =
      desk.deedsOf other ++ if task = other then [.requested edit p.editor] else [] := by
  rw [← Desk.deedsOf_record]
  unfold applyEdit
  dsimp only
  split <;> rfl

theorem questions_applyEdit (p : PasteRun) (task other : Task) (edit : Edit)
    (outcome : PasteOutcome) (desk : Desk) :
    (p.applyEdit task edit outcome desk).2.questions other = desk.questions other := by
  unfold applyEdit
  dsimp only
  split <;> rfl

/-- Making an edit ends the paste, and never as cancelled. -/
theorem over_applyEdit (p : PasteRun) (task : Task) (edit : Edit) {outcome : PasteOutcome}
    (houtcome : outcome ≠ .cancelled) (desk : Desk) :
    (p.applyEdit task edit outcome desk).1.isOver = true ∧
      (p.applyEdit task edit outcome desk).1.respectsCancellation = false := by
  unfold applyEdit
  dsimp only
  split
  · refine ⟨rfl, ?_⟩
    cases outcome with
    | cancelled => exact absurd rfl houtcome
    | _ => rfl
  · exact ⟨rfl, rfl⟩

/-- The edit that inserts the plain text, if the paste may fall back and there is some. -/
def plainEdit? (p : PasteRun) : Option Edit :=
  if p.plainTextFallback then
    (p.transfer.get? plainMime).map fun item =>
      [.replacing p.document.uri p.selection item.asString]
  else none

/-- Falling back waits for the plain text, ends the paste without an edit, or inserts the text. -/
theorem fallBack_cases (p : PasteRun) (task : Task) (desk : Desk) :
    ∃ asked, Desk.Scripted desk asked ∧
      ((∃ edit, p.plainEdit? = some edit ∧ p.fallBack task desk = (.fallingBack, asked)) ∨
        (p.plainEdit? = none ∧ p.fallBack task desk = (.ended (.ok .noEdit), asked)) ∨
        ∃ edit, p.plainEdit? = some edit ∧
          p.fallBack task desk = p.applyEdit task edit .plainText asked) := by
  unfold fallBack plainEdit?
  split
  · cases p.transfer.get? plainMime with
    | none => exact ⟨desk, .refl desk, .inr (.inl ⟨rfl, rfl⟩)⟩
    | some item =>
        have htext := Desk.scripted_text? desk task item
        dsimp only
        split <;> rename_i h <;> rw [h] at htext
        · rw [Desk.text_of_text? (congrArg Prod.fst h)]
          exact ⟨_, htext, .inr (.inr ⟨_, rfl, rfl⟩)⟩
        · exact ⟨_, htext, .inl ⟨_, rfl, rfl⟩⟩
  · exact ⟨desk, .refl desk, .inr (.inl ⟨rfl, rfl⟩)⟩

/-! ## Progress -/

/-- What a paste did from a desk on, with the providers in `left` still to be asked and `owed`
answers to come before that, until it waits or is over: the questions it put, the deeds that
followed, and how it stands. -/
structure Progress (p : PasteRun) (task : Task) (owed : Nat) (left : List (String × PasteScript))
    (desk : Desk) (out : PasteStage × Bool × Desk) (asked : List Question) (deeds : List Deed) :
    Prop where
  decided : out.1.isUndecided = false
  others : ∀ other, task ≠ other →
    out.2.2.questions other = desk.questions other ∧ out.2.2.deedsOf other = desk.deedsOf other
  questions : out.2.2.questions task = desk.questions task ++ asked
  deedsOf : out.2.2.deedsOf task = desk.deedsOf task ++ deeds
  /-- Every provider is asked about the same. -/
  subject : ∀ q ∈ asked,
    q.document = p.document ∧ q.selection = p.selection ∧ q.transfer = p.transfer
  /-- The answers that a paste under way has behind it were no edits. -/
  outstanding : ∀ n, out.1.outstanding? = some n →
    deeds.countP Deed.isSilence + n = owed + left.length
  /-- The editor changes by request only. -/
  editor : deeds.filterMap Deed.request? = [] → out.2.2.editor = desk.editor
  /-- A request or a late edit is the end of the paste. -/
  going : out.1.isOver = false →
    deeds.filterMap Deed.request? = [] ∧ deeds.filterMap Deed.lateEdit? = []
  /-- A paste that is over and was cancelled by then made no edit and ended as it should, unless
  there was a late edit or no provider answered with an edit. -/
  ending : out.1.isOver = true → out.2.1 = true →
    ((deeds.filterMap Deed.request? = [] ∧ out.1.respectsCancellation = true) ↔
      ¬(deeds.filterMap Deed.lateEdit? ≠ [] ∨ deeds.countP Deed.isSilence = owed + left.length))

section Steps

variable {p : PasteRun} {task : Task} {owed : Nat} {left : List (String × PasteScript)}
  {desk : Desk} {out : PasteStage × Bool × Desk} {asked : List Question} {deeds : List Deed}
  {provider : String}

/-- Nothing asked and nothing done. A paste that is over has somebody still to answer. -/
theorem progress_still {stage : PasteStage} (hdecided : stage.isUndecided = false)
    (hrespects : stage.respectsCancellation = true)
    (houtstanding : ∀ n, stage.outstanding? = some n → n = owed + left.length)
    (howed : stage.isOver = true → owed + left.length ≠ 0) (cancelled : Bool) (desk : Desk) :
    Progress p task owed left desk (stage, cancelled, desk) [] [] where
  decided := hdecided
  others := fun _ _ => ⟨rfl, rfl⟩
  questions := (List.append_nil _).symm
  deedsOf := (List.append_nil _).symm
  subject := fun _ hq => absurd hq List.not_mem_nil
  outstanding := fun n hn => by
    rw [List.countP_nil, Nat.zero_add]
    exact houtstanding n hn
  editor := fun _ => rfl
  going := fun _ => ⟨rfl, rfl⟩
  ending := fun hover _ => by
    refine ⟨fun _ haround => ?_, fun _ => ⟨rfl, hrespects⟩⟩
    rcases haround with hlate | hsilent
    · exact hlate rfl
    · exact howed hover hsilent.symm

/-- What scripts do to the desk beforehand makes no difference. -/
theorem Progress.scripted {desk' : Desk} (h : Progress p task owed left desk' out asked deeds)
    (hscripted : Desk.Scripted desk desk') : Progress p task owed left desk out asked deeds where
  decided := h.decided
  others := fun other hne => by
    obtain ⟨hq, hd⟩ := h.others other hne
    exact ⟨hq.trans (hscripted.questions other), hd.trans (hscripted.deedsOf other)⟩
  questions := by rw [h.questions, hscripted.questions]
  deedsOf := by rw [h.deedsOf, hscripted.deedsOf]
  subject := h.subject
  outstanding := h.outstanding
  editor := fun hnone => (h.editor hnone).trans hscripted.editor
  going := h.going
  ending := h.ending

/-- A question put first. -/
theorem Progress.ask
    (h : Progress p task 1 left
      (desk.note task provider (.asked p.document p.selection p.transfer)) out asked deeds)
    (script : PasteScript) :
    Progress p task 0 ((provider, script) :: left) desk out
      (⟨provider, p.document, p.selection, p.transfer⟩ :: asked) deeds := by
  have hleft : 0 + ((provider, script) :: left).length = 1 + left.length := by
    rw [List.length_cons]
    omega
  exact
    { decided := h.decided
      others := fun other hne => by
        obtain ⟨hq, hd⟩ := h.others other hne
        rw [Desk.questions_note_asked, if_neg hne, List.append_nil] at hq
        exact ⟨hq, hd⟩
      questions := by
        rw [h.questions, Desk.questions_note_asked, if_pos rfl, List.append_assoc]
        rfl
      deedsOf := h.deedsOf
      subject := fun q hq => by
        rcases List.mem_cons.mp hq with rfl | hq
        · exact ⟨rfl, rfl, rfl⟩
        · exact h.subject q hq
      outstanding := by
        rw [hleft]
        exact h.outstanding
      editor := h.editor
      going := h.going
      ending := by
        rw [hleft]
        exact h.ending }

section Recorded

variable {deed : Deed} (h : Progress p task owed left (desk.record task deed) out asked deeds)
include h

theorem Progress.others_of_record (other : Task) (hne : task ≠ other) :
    out.2.2.questions other = desk.questions other ∧
      out.2.2.deedsOf other = desk.deedsOf other := by
  obtain ⟨hquestions, hdeeds⟩ := h.others other hne
  rw [Desk.deedsOf_record, if_neg hne, List.append_nil] at hdeeds
  exact ⟨hquestions, hdeeds⟩

theorem Progress.deedsOf_of_record :
    out.2.2.deedsOf task = desk.deedsOf task ++ deed :: deeds := by
  rw [h.deedsOf, Desk.deedsOf_record, if_pos rfl, List.append_assoc]
  rfl

end Recorded

/-- An answer without an edit, before everything else. -/
theorem Progress.silence {answer : PasteAnswer} {cancelled : Bool}
    (hempty : answer.isEmpty = true)
    (h : Progress p task 0 left (desk.record task (.answered provider answer cancelled)) out asked
      deeds) :
    Progress p task 1 left desk out asked (.answered provider answer cancelled :: deeds) := by
  have hlate : (Deed.answered provider answer cancelled :: deeds).filterMap Deed.lateEdit? =
      deeds.filterMap Deed.lateEdit? :=
    List.filterMap_cons_none (Deed.lateEdit?_of_isEmpty hempty provider cancelled)
  have hcount : (Deed.answered provider answer cancelled :: deeds).countP Deed.isSilence =
      deeds.countP Deed.isSilence + 1 := List.countP_cons_of_pos hempty
  exact
    { decided := h.decided
      others := h.others_of_record
      questions := h.questions
      deedsOf := h.deedsOf_of_record
      subject := h.subject
      outstanding := fun n hn => by
        have hsilent := h.outstanding n hn
        rw [hcount]
        omega
      editor := h.editor
      going := fun hgoing => by
        rw [hlate]
        exact h.going hgoing
      ending := fun hover hcancelled => by
        have hsilent : deeds.countP Deed.isSilence + 1 = 1 + left.length ↔
            deeds.countP Deed.isSilence = 0 + left.length := by omega
        rw [hlate, hcount, hsilent]
        exact h.ending hover hcancelled }

end Steps

/-! ## Ends -/

/-- An edit with which a paste ends, nobody being asked any more. -/
theorem progress_applyEdit (p : PasteRun) (task : Task) (edit : Edit) {outcome : PasteOutcome}
    (houtcome : outcome ≠ .cancelled) (cancelled : Bool) (desk : Desk) :
    Progress p task 0 [] desk ((p.applyEdit task edit outcome desk).1, cancelled,
      (p.applyEdit task edit outcome desk).2) [] [.requested edit p.editor] := by
  obtain ⟨hover, hrespects⟩ := p.over_applyEdit task edit houtcome desk
  have hdeeds := (p.deedsOf_applyEdit task · edit outcome desk)
  exact
    { decided := PasteStage.decided_of_isOver hover
      others := fun other hne => ⟨p.questions_applyEdit task other edit outcome desk, by
        show (p.applyEdit task edit outcome desk).2.deedsOf other = _
        rw [hdeeds, if_neg hne, List.append_nil]⟩
      questions := (p.questions_applyEdit task task edit outcome desk).trans
        (List.append_nil _).symm
      deedsOf := by
        show (p.applyEdit task edit outcome desk).2.deedsOf task = _
        rw [hdeeds, if_pos rfl]
      subject := fun _ hq => absurd hq List.not_mem_nil
      outstanding := fun n hn => by
        rw [PasteStage.outstanding?_of_isOver hover] at hn
        simp at hn
      editor := fun hnone => by simp [Deed.request?] at hnone
      going := fun hgoing => by
        rw [show (p.applyEdit task edit outcome desk).1.isOver = false from hgoing] at hover
        exact absurd hover Bool.false_ne_true
      ending := fun _ _ => by simp [Deed.request?, Deed.isSilence] }

/-- **Falling back on the plain text.** Nothing on the way looks whether the paste is cancelled. -/
theorem progress_fallBack (p : PasteRun) (task : Task) (cancelled : Bool) (desk : Desk) :
    ∃ deeds, Progress p task 0 [] desk (p.scan task [] cancelled desk) [] deeds := by
  show ∃ deeds, Progress p task 0 [] desk
    ((p.fallBack task desk).1, cancelled, (p.fallBack task desk).2) [] deeds
  obtain ⟨asked, hscripted, ⟨edit, -, h⟩ | ⟨-, h⟩ | ⟨edit, -, h⟩⟩ := p.fallBack_cases task desk
  · rw [h]
    refine ⟨[], (progress_still rfl rfl (fun n hn => ?_) (fun hover => ?_) cancelled
      asked).scripted hscripted⟩
    · exact (Option.some.inj hn).symm
    · simp [PasteStage.isOver] at hover
  · rw [h]
    exact ⟨[], Progress.scripted
      { decided := rfl
        others := fun _ _ => ⟨rfl, rfl⟩
        questions := (List.append_nil _).symm
        deedsOf := (List.append_nil _).symm
        subject := fun _ hq => absurd hq List.not_mem_nil
        outstanding := fun n hn => by simp [PasteStage.outstanding?] at hn
        editor := fun _ => rfl
        going := fun hgoing => by simp [PasteStage.isOver] at hgoing
        ending := fun _ _ => by simp [PasteStage.respectsCancellation] } hscripted⟩
  · rw [h]
    exact ⟨_, (p.progress_applyEdit task _ (by simp) cancelled asked).scripted hscripted⟩

theorem progress_failure (p : PasteRun) (task : Task) (left : List (String × PasteScript))
    (provider : String) (error : ProviderError) {stage : PasteStage} {cancelled : Bool}
    (hover : stage.isOver = true)
    (hrespects : cancelled = true → stage.respectsCancellation = true) (desk : Desk) :
    Progress p task 1 left desk
      (stage, cancelled, desk.record task (.answered provider (.error error) cancelled)) []
      [.answered provider (.error error) cancelled] where
  decided := PasteStage.decided_of_isOver hover
  others := fun other hne => ⟨rfl, by
    rw [Desk.deedsOf_record, if_neg hne, List.append_nil]⟩
  questions := (List.append_nil _).symm
  deedsOf := by
    show (desk.record task _).deedsOf task = _
    rw [Desk.deedsOf_record, if_pos rfl]
  subject := fun _ hq => absurd hq List.not_mem_nil
  outstanding := fun n hn => by
    rw [PasteStage.outstanding?_of_isOver hover] at hn
    simp at hn
  editor := fun _ => rfl
  going := fun hgoing => by
    rw [hover] at hgoing
    simp at hgoing
  ending := fun _ hcancelled => by
    have hstands : stage.respectsCancellation = true := hrespects hcancelled
    have howed : ¬0 = 1 + left.length := by omega
    simp [Deed.request?, Deed.lateEdit?, Deed.isSilence, PasteAnswer.isEmpty, hstands, howed]

theorem progress_edit (p : PasteRun) (task : Task) (left : List (String × PasteScript))
    (provider : String) {edit : Edit} (hedit : edit.isEmpty = false) (cancelled : Bool)
    (desk : Desk) {noted : Desk}
    (hnoted : noted = desk.record task (.answered provider (.ok (some edit)) cancelled)) :
    Progress p task 1 left desk ((p.applyEdit task edit (.applied provider) noted).1, cancelled,
      (p.applyEdit task edit (.applied provider) noted).2) []
      [.answered provider (.ok (some edit)) cancelled, .requested edit p.editor] := by
  subst hnoted
  have happlied : PasteOutcome.applied provider ≠ .cancelled := by simp
  have h := p.progress_applyEdit task edit happlied cancelled
    (desk.record task (.answered provider (.ok (some edit)) cancelled))
  obtain ⟨hover, -⟩ := p.over_applyEdit task edit happlied
    (desk.record task (.answered provider (.ok (some edit)) cancelled))
  obtain ⟨r, rest, rfl⟩ : ∃ r rest, edit = r :: rest := by
    cases edit with
    | nil => simp at hedit
    | cons r rest => exact ⟨r, rest, rfl⟩
  exact
    { decided := h.decided
      others := h.others_of_record
      questions := h.questions
      deedsOf := h.deedsOf_of_record
      subject := h.subject
      outstanding := fun n hn => by
        rw [PasteStage.outstanding?_of_isOver hover] at hn
        simp at hn
      editor := fun hnone => by simp [Deed.request?] at hnone
      going := fun hgoing => by
        rw [hgoing] at hover
        exact absurd hover Bool.false_ne_true
      ending := fun _ hcancelled => by
        obtain rfl : cancelled = true := hcancelled
        simp [Deed.request?, Deed.lateEdit?] }

/-! ## Answers, replies and scans -/

theorem scan_of_cancelled (p : PasteRun) (task : Task) (desk : Desk)
    {left : List (String × PasteScript)} (hleft : left ≠ []) :
    p.scan task left true desk = (.ended (.ok .cancelled), true, desk) := by
  cases left with
  | nil => exact absurd rfl hleft
  | cons q left => rfl

/-- **An answer and what follows it.** -/
theorem progress_heed (p : PasteRun) (task : Task) (left : List (String × PasteScript))
    (provider : String) (answer : PasteAnswer) (cancelled : Bool) (desk : Desk)
    (hscan : ∀ desk, ∃ asked deeds,
      Progress p task 0 left desk (p.scan task left cancelled desk) asked deeds) :
    ∃ asked deeds, Progress p task 1 left desk
      (p.heed task provider (p.scan task left) cancelled
        (desk.record task (.answered provider answer cancelled)) answer) asked deeds := by
  -- no answer and an answer without replacements go the same way
  have hsilent : answer.isEmpty = true → ∃ asked deeds, Progress p task 1 left desk
      (p.scan task left cancelled (desk.record task (.answered provider answer cancelled)))
      asked deeds := by
    intro hempty
    obtain ⟨asked, deeds, h⟩ := hscan (desk.record task (.answered provider answer cancelled))
    exact ⟨asked, _, h.silence hempty⟩
  rcases answer with error | _ | edit
  · unfold heed
    dsimp only
    split
    · exact ⟨[], _, p.progress_failure task left provider error rfl (fun _ => rfl) desk⟩
    · rename_i hcancelled
      refine ⟨[], _, p.progress_failure task left provider error rfl (fun hc => ?_) desk⟩
      have hne : error ≠ .cancelled := fun h => hcancelled ⟨h, hc⟩
      simpa [PasteStage.respectsCancellation] using hne
  · exact hsilent rfl
  · cases edit with
    | nil => exact hsilent rfl
    | cons r edit => exact ⟨[], _, p.progress_edit task left provider rfl cancelled desk rfl⟩

theorem progress_follow (p : PasteRun) (task : Task) (left : List (String × PasteScript))
    (provider : String) (reply : Reply × Bool × Desk)
    (hscan : ∀ cancelled desk, ∃ asked deeds,
      Progress p task 0 left desk (p.scan task left cancelled desk) asked deeds) :
    ∃ asked deeds, Progress p task 1 left reply.2.2
      (p.follow task provider left (p.scan task left) reply) asked deeds := by
  have howed : 1 + left.length ≠ 0 := by omega
  obtain ⟨answer | ⟨script, since⟩ | _, cancelled, desk⟩ := reply
  · exact p.progress_heed task left provider answer cancelled desk (hscan cancelled)
  · refine ⟨[], [], progress_still rfl rfl (fun n hn => ?_) (fun _ => howed) cancelled desk⟩
    rw [Nat.add_comm]
    exact (Option.some.inj hn).symm
  · exact ⟨[], [], progress_still rfl rfl (fun n hn => by simp [PasteStage.outstanding?] at hn)
      (fun _ => howed) cancelled desk⟩

/-- **All providers that are left.** -/
theorem progress_scan (p : PasteRun) (task : Task) (left : List (String × PasteScript))
    (cancelled : Bool) (desk : Desk) : ∃ asked deeds,
      Progress p task 0 left desk (p.scan task left cancelled desk) asked deeds := by
  -- the flag varies with the desk, because a script may cancel the paste it runs for
  induction left generalizing cancelled desk with
  | nil =>
      obtain ⟨deeds, h⟩ := p.progress_fallBack task cancelled desk
      exact ⟨[], deeds, h⟩
  | cons q left ih =>
      obtain ⟨provider, script⟩ := q
      cases cancelled with
      | true =>
          have howed : 0 + ((provider, script) :: left).length ≠ 0 := by simp
          exact ⟨[], [], progress_still rfl rfl
            (fun n hn => by simp [PasteStage.outstanding?] at hn) (fun _ => howed) true desk⟩
      | false =>
          obtain ⟨asked, deeds, h⟩ := progress_follow p task left provider
            (script.run (p.call task provider) p.transfer none false
              (desk.note task provider (.asked p.document p.selection p.transfer))) ih
          exact ⟨_, deeds, (h.scripted (PasteScript.scripted_run _ _ _ _ _ _)).ask script⟩

/-! ## Scans of cancelled pastes -/

theorem questions_scan_of_cancelled (p : PasteRun) (task : Task)
    (left : List (String × PasteScript)) (desk : Desk) :
    (p.scan task left true desk).2.2.questions task = desk.questions task := by
  cases left with
  | nil =>
      obtain ⟨deeds, h⟩ := p.progress_fallBack task true desk
      exact h.questions.trans (List.append_nil _)
  | cons q left => rfl

/-- **Once a paste is cancelled nobody is asked any more.** -/
theorem questions_follow_of_cancelled (p : PasteRun) (task : Task)
    (left : List (String × PasteScript)) (provider : String) {reply : Reply × Bool × Desk}
    (hcancelled : reply.2.1 = true) :
    (p.follow task provider left (p.scan task left) reply).2.2.questions task =
      reply.2.2.questions task := by
  obtain ⟨answer | ⟨script, since⟩ | _, cancelled, desk⟩ := reply
  · obtain rfl : cancelled = true := hcancelled
    rcases answer with error | _ | edit
    · show (p.heed _ _ _ _ _ _).2.2.questions task = _
      unfold heed
      dsimp only
      split <;> rfl
    · exact p.questions_scan_of_cancelled task left _
    · cases edit with
      | nil => exact p.questions_scan_of_cancelled task left _
      | cons r edit => exact p.questions_applyEdit task task (r :: edit) _ _
  · rfl
  · rfl

end PasteRun

end CopyPaste

import CopyPaste.Proofs.Coordinator.Course

/-!
# Cancelled pastes

A paste that is cancelled should make no edit and end as cancelled, unless a provider failed for
another reason. The flag is looked at while the paste waits for its copy and before each provider
is asked, and at no other time; so there are two ways around the rule. A provider may answer with
an edit when the paste is cancelled already; and once all providers have answered without an edit
nothing stops the paste from falling back on the plain text, even if it waits for that text.

* `Coordinator.KeepsRule` — the rule, for a paste and the history since it was taken over;
* `Overtaken` — the ways around it;
* **`cancelled_keepsRule_iff`** — a paste that is cancelled in time keeps the rule unless it is
  overtaken;
* **`nobody_asked_after_cancellation`** — and either way nobody else is asked.
-/

namespace CopyPaste

/-! ## One turn -/

namespace PasteRun

/-- Deeds are only ever added, and without a request among them the editor stays as it is. -/
theorem Polled.deeds {p : PasteRun} {task : Task} {result : Option (Option Transfer)}
    {desk : Desk} {out : PasteRun × Desk} (h : Polled p task result desk out) :
    ∃ deeds, out.2.deedsOf task = desk.deedsOf task ++ deeds ∧
      (deeds.filterMap Deed.request? = [] → out.2.editor = desk.editor) := by
  cases h with
  | idle hstage => exact ⟨[], (List.append_nil _).symm, fun _ => rfl⟩
  | waits since hsince hc hresult hlimit => exact ⟨[], (List.append_nil _).symm, fun _ => rfl⟩
  | stops since hsince hc => exact ⟨[], (List.append_nil _).symm, fun _ => rfl⟩
  | asks since copied hsince hsupplied =>
      obtain ⟨out, asked, deeds, hout, hprogress⟩ := p.progress_asks task copied desk
      rw [hout]
      exact ⟨deeds, hprogress.deedsOf, hprogress.editor⟩
  | resumes provider script since rest hstage =>
      obtain ⟨asked, deeds, hprogress⟩ :=
        p.progress_resumes task provider script since rest desk
      exact ⟨deeds, hprogress.deedsOf, hprogress.editor⟩
  | fallsBack hstage =>
      obtain ⟨deeds, hprogress⟩ := p.progress_fallBack task p.cancelled desk
      exact ⟨deeds, hprogress.deedsOf, hprogress.editor⟩

/-- The ways around the rule: an edit that a provider answered with when the paste was cancelled
already, and an end to which all providers had answered without an edit. -/
def Overtaken (p : PasteRun) (i : Nat) (desk : Desk) : Prop :=
  desk.lateEdits (.paste i) ≠ [] ∨
    p.stage.isOver = true ∧ desk.silences (.paste i) = p.providers.length

instance (p : PasteRun) (i : Nat) (desk : Desk) : Decidable (p.Overtaken i desk) :=
  inferInstanceAs (Decidable (desk.lateEdits (.paste i) ≠ [] ∨
    p.stage.isOver = true ∧ desk.silences (.paste i) = p.providers.length))

/-- A paste makes no edit and ends as it should, unless it is overtaken. -/
def Obeys (p : PasteRun) (i : Nat) (desk : Desk) : Prop :=
  (desk.requests (.paste i) = [] ∧ p.stage.respectsCancellation = true) ↔ ¬p.Overtaken i desk

/-- A paste that is not over has nothing to answer for. -/
theorem Sound.obeys {p : PasteRun} {i : Nat} {desk : Desk} (h : p.Sound i desk)
    (hgoing : p.stage.isOver = false) : p.Obeys i desk := by
  obtain ⟨hrequests, hlate⟩ := h.going hgoing
  refine ⟨fun _ haround => ?_,
    fun _ => ⟨hrequests, PasteStage.respectsCancellation_of_going hgoing⟩⟩
  rcases haround with hedits | ⟨hover, -⟩
  · exact hedits hlate
  · rw [hgoing] at hover
    exact Bool.false_ne_true hover

/-- A paste that ends as cancelled before it asked anybody obeys. -/
theorem Sound.obeys_of_stopped {p q : PasteRun} {i : Nat} {desk : Desk} (h : p.Sound i desk)
    (hundecided : p.stage.isUndecided = true) (hproviders : q.providers = p.providers)
    (hstage : q.stage = .ended (.ok .cancelled)) : q.Obeys i desk := by
  obtain ⟨-, hdeeds⟩ := h.fresh hundecided
  obtain ⟨hrequests, hlate⟩ := h.going (PasteStage.going_of_isUndecided hundecided)
  refine ⟨fun _ haround => ?_, fun _ => ⟨hrequests, by rw [hstage]; rfl⟩⟩
  rcases haround with hedits | ⟨-, hsilent⟩
  · exact hedits hlate
  · unfold Desk.silences at hsilent
    rw [hdeeds, List.countP_nil, hproviders] at hsilent
    exact h.providers (List.length_eq_zero_iff.mp hsilent.symm)

/-- **A scan after which the paste is cancelled obeys.** -/
theorem obeys_of_progress {p : PasteRun} {i owed : Nat} {left : List (String × PasteScript)}
    {desk : Desk} {out : PasteStage × Bool × Desk} {asked : List Question} {deeds : List Deed}
    (h : Progress p (.paste i) owed left desk out asked deeds) (hcancelled : out.2.1 = true)
    (howed : desk.silences (.paste i) + (owed + left.length) = p.providers.length)
    (hgoing : desk.requests (.paste i) = [] ∧ desk.lateEdits (.paste i) = []) :
    (p.settleAt out).1.Obeys i (p.settleAt out).2 := by
  have hrequests : out.2.2.requests (.paste i) = deeds.filterMap Deed.request? := by
    have hbefore := hgoing.1
    unfold Desk.requests at hbefore ⊢
    rw [h.deedsOf, List.filterMap_append, hbefore, List.nil_append]
  have hlate : out.2.2.lateEdits (.paste i) = deeds.filterMap Deed.lateEdit? := by
    have hbefore := hgoing.2
    unfold Desk.lateEdits at hbefore ⊢
    rw [h.deedsOf, List.filterMap_append, hbefore, List.nil_append]
  have hsilent : out.2.2.silences (.paste i) = p.providers.length ↔
      deeds.countP Deed.isSilence = owed + left.length := by
    unfold Desk.silences at howed ⊢
    rw [h.deedsOf, List.countP_append]
    omega
  show (out.2.2.requests (.paste i) = [] ∧ out.1.respectsCancellation = true) ↔
    ¬(out.2.2.lateEdits (.paste i) ≠ [] ∨
      out.1.isOver = true ∧ out.2.2.silences (.paste i) = p.providers.length)
  -- what stood on record before the scan cancels out on both sides
  rw [hrequests, hlate, hsilent]
  cases hover : out.1.isOver with
  | true => simpa using h.ending hover hcancelled
  | false =>
      obtain ⟨hnone, hnolate⟩ := h.going hover
      simp [hnone, hnolate, PasteStage.respectsCancellation_of_going hover]

/-- **A turn after which a paste is cancelled obeys,** if the paste was not over before. -/
theorem Polled.obeys {p : PasteRun} {i : Nat} {result : Option (Option Transfer)} {desk : Desk}
    {out : PasteRun × Desk} (hpolled : Polled p (.paste i) result desk out)
    (hsound : p.Sound i desk) (hgoing : p.stage.isOver = false)
    (hcancelled : out.1.cancelled = true) : out.1.Obeys i out.2 := by
  have hquiet := hsound.going hgoing
  cases hpolled with
  | idle hstage => exact hsound.obeys hgoing
  | waits since hsince hc hresult hlimit =>
      rw [hc] at hcancelled
      exact absurd hcancelled Bool.false_ne_true
  | stops since hsince hc =>
      exact hsound.obeys_of_stopped (isUndecided_of_waitsSince? hsince) rfl rfl
  | asks since copied hsince hsupplied =>
      obtain ⟨out, asked, deeds, hout, hprogress⟩ := p.progress_asks (.paste i) copied desk
      rw [hout] at hcancelled ⊢
      refine obeys_of_progress hprogress hcancelled ?_ hquiet
      obtain ⟨-, hdeeds⟩ := hsound.fresh (isUndecided_of_waitsSince? hsince)
      unfold Desk.silences
      rw [hdeeds, List.countP_nil, Nat.zero_add]
      exact Nat.zero_add _
  | resumes provider script since rest hstage =>
      obtain ⟨asked, deeds, hprogress⟩ :=
        p.progress_resumes (.paste i) provider script since rest desk
      have howed := hsound.outstanding (rest.length + 1) (by rw [hstage]; rfl)
      rw [Nat.add_comm rest.length] at howed
      exact obeys_of_progress hprogress hcancelled howed hquiet
  | fallsBack hstage =>
      obtain ⟨deeds, hprogress⟩ := p.progress_fallBack (.paste i) p.cancelled desk
      have howed := hsound.outstanding 0 (by rw [hstage]; rfl)
      exact obeys_of_progress hprogress hcancelled howed hquiet

end PasteRun

/-! ## Whole histories -/

namespace Coordinator

section Steps

variable {m : Coordinator} {e : Event} {i : Nat} {p p' : PasteRun} {desk : Desk}

theorem PasteStep.deeds (h : PasteStep m e i p p' desk) :
    m.desk.deedsOf (.paste i) <+: desk.deedsOf (.paste i) := by
  cases h with
  | still desk hrecords => exact hrecords.2 ▸ List.prefix_rfl
  | queues desk hstage hrecords => exact hrecords.2 ▸ List.prefix_rfl
  | cancels desk he hrecords => exact hrecords.2 ▸ List.prefix_rfl
  | polls he hhead =>
      obtain ⟨deeds, hdeeds, -⟩ := (p.polled_poll i (m.result? p.copy) m.desk).deeds
      exact ⟨deeds, hdeeds.symm⟩

theorem PasteStep.questions (h : PasteStep m e i p p' desk) (hcancelled : p.cancelled = true) :
    desk.questions (.paste i) = m.desk.questions (.paste i) := by
  cases h with
  | still desk hrecords => exact hrecords.1
  | queues desk hstage hrecords => exact hrecords.1
  | cancels desk he hrecords => exact hrecords.1
  | polls he hhead =>
      exact (p.polled_poll i (m.result? p.copy) m.desk).questions_of_cancelled hcancelled

/-- A paste that was not over before the event obeys if it is cancelled after it. -/
theorem PasteStep.obeys (h : PasteStep m e i p p' desk) (hsound : p.Sound i m.desk)
    (hgoing : p.stage.isOver = false) (hcancelled : p'.cancelled = true) : p'.Obeys i desk := by
  have hsound' := h.sound hsound
  cases h with
  | still desk hrecords => exact hsound'.obeys hgoing
  | queues desk hstage hrecords => exact hsound'.obeys rfl
  | cancels desk he hrecords => exact hsound'.obeys hgoing
  | polls he hhead =>
      exact (p.polled_poll i (m.result? p.copy) m.desk).obeys hsound hgoing hcancelled

/-- What a paste that is over did stays as it is. -/
theorem PasteStep.obeys_of_over (h : PasteStep m e i p p' desk) (hover : p.stage.isOver = true)
    (hobeys : p.Obeys i m.desk) : p'.Obeys i desk := by
  obtain ⟨hstage, -, hdeeds⟩ := h.over hover
  have hproviders : p'.providers = p.providers := (congrArg PasteRun.providers h.origin :)
  unfold PasteRun.Obeys PasteRun.Overtaken Desk.requests Desk.lateEdits Desk.silences at hobeys ⊢
  rw [hstage, hdeeds, hproviders]
  exact hobeys

/-- What the turn of a paste does to the desk. -/
theorem desk_turn (hp : m.pastes[i]? = some p) (hhead : m.ready.head? = some (.paste i)) :
    (m.handle .turn).desk = m.desk ∨
      (m.handle .turn).desk = (p.poll i (m.result? p.copy) m.desk).2 := by
  have hstep := m.step_handle .turn
  generalize m.handle .turn = m' at hstep ⊢
  cases hstep with
  | aside desk registry ready hlog hdeeds hturn hmark => exact .inl (hturn rfl)
  | starts given fresh payload document selection providers ready he hdecision hworks =>
      simp at he
  | takes given cancelled payload document selection providers handle he hdecision hworks =>
      simp at he
  | queues j q ready he hq hstage => simp at he
  | cancels j q ready he hq => simp at he
  | disposes j d config ready hmark hpending hd => simp [mark?] at hmark
  | clears config hmark hpending => simp [mark?] at hmark
  | copies j d ready he hhead' hd =>
      rw [hhead] at hhead'
      simp at hhead'
  | pastes j q copies ready he hhead' hq hcopies =>
      obtain rfl : i = j := by
        rw [hhead] at hhead'
        simpa using hhead'
      obtain rfl : p = q := Option.some.inj (hp.symm.trans hq)
      exact .inr rfl

end Steps

/-- No turn of a paste in a history changes the editor. -/
def EditorKept (m : Coordinator) (i : Nat) (history : List Event) : Prop :=
  ∀ before after, history = before ++ .turn :: after →
    (m.after before).ready.head? = some (.paste i) →
    (m.after (before ++ [.turn])).editor = (m.after before).editor

/-- The rule for a paste that was cancelled: nothing is asked of an editor, the paste ends as
cancelled or with the failure of a provider that has another reason, and the editor stays as it
is whenever the paste has its turn. -/
def KeepsRule (m : Coordinator) (i : Nat) (history : List Event) (p : PasteRun) : Prop :=
  (m.after history).desk.requests (.paste i) = [] ∧ p.stage.respectsCancellation = true ∧
    EditorKept m i history

variable {m taken : Coordinator} {i : Nat} {p q : PasteRun}

/-- What a paste did stays on record. -/
theorem deedsOf_after (hp : m.pastes[i]? = some p) (history : List Event) :
    m.desk.deedsOf (.paste i) <+: (m.after history).desk.deedsOf (.paste i) := by
  obtain ⟨p', -, hdeeds⟩ := paste_after
    (P := fun _ desk => m.desk.deedsOf (.paste i) <+: desk.deedsOf (.paste i))
    (fun hstep h => h.trans hstep.deeds) hp List.prefix_rfl history
  exact hdeeds

/-- A paste that asks nothing of an editor leaves it alone. -/
theorem editorKept_of_requests (hp : m.pastes[i]? = some p) {history : List Event}
    (hnone : (m.after history).desk.requests (.paste i) = []) : EditorKept m i history := by
  rintro before after rfl hhead
  obtain ⟨p', hp', -⟩ := origin_after hp before
  have hturn : m.after (before ++ [.turn]) = (m.after before).handle .turn := after_append ..
  have hsplit : m.after (before ++ .turn :: after) = ((m.after before).handle .turn).after after :=
    after_append ..
  unfold editor
  rw [hturn]
  obtain hdesk | hdesk := desk_turn hp' hhead
  · rw [hdesk]
  · obtain ⟨p'', hp'', -⟩ := pasteStep_handle hp' .turn
    obtain ⟨deeds, hdeeds, heditor⟩ := (p'.polled_poll i ((m.after before).result? p'.copy)
      (m.after before).desk).deeds
    obtain ⟨more, hmore⟩ := deedsOf_after hp'' after
    rw [hdesk]
    apply heditor
    -- what the turn asked for would still be on record at the end
    unfold Desk.requests at hnone
    rw [hsplit, ← hmore, hdesk, hdeeds, List.filterMap_append, List.filterMap_append] at hnone
    exact (List.append_eq_nil_iff.mp (List.append_eq_nil_iff.mp hnone).1).2

/-- A paste that was cancelled before it was over obeys from then on. -/
theorem obeys_after (hm : m.Sound) (hp : m.pastes[i]? = some p) (hcancelled : p.cancelled = true)
    (hobeys : p.Obeys i m.desk) (history : List Event) :
    ∃ p', (m.after history).pastes[i]? = some p' ∧ p'.Obeys i (m.after history).desk := by
  obtain ⟨p', hp', -, -, hobeys'⟩ := paste_after
    (P := fun q desk => q.Sound i desk ∧ q.cancelled = true ∧ q.Obeys i desk)
    (fun {m' e q q' desk} hstep h => by
      obtain ⟨hsound, hc, ho⟩ := h
      refine ⟨hstep.sound hsound, hstep.cancelled hc, ?_⟩
      cases hover : q.stage.isOver with
      | true => exact hstep.obeys_of_over hover ho
      | false => exact hstep.obeys hsound hover (hstep.cancelled hc))
    hp ⟨hm.pastes i p hp, hcancelled, hobeys⟩ history
  exact ⟨p', hp', hobeys'⟩

/-- A paste that was cancelled before it was over asks nobody from then on. -/
theorem nobody_asked_after_cancellation (hp : m.pastes[i]? = some p)
    (hcancelled : p.cancelled = true) (history : List Event) :
    (m.after history).desk.questions (.paste i) = m.desk.questions (.paste i) := by
  obtain ⟨p', -, -, hquestions⟩ := paste_after
    (P := fun q desk => q.cancelled = true ∧
      desk.questions (.paste i) = m.desk.questions (.paste i))
    (fun hstep h => ⟨hstep.cancelled h.1, (hstep.questions h.1).trans h.2⟩)
    hp ⟨hcancelled, rfl⟩ history
  exact hquestions

/-- **A paste that is cancelled before it is over keeps the rule unless it is overtaken.** The
event `e` is the one by which the paste comes to be cancelled. -/
theorem cancelled_keepsRule_iff (hm : m.Reachable) {given : Option Payload} {cancelled : Bool}
    (htaken : m.paste given cancelled = (.taken i, taken)) {early : List Event} {e : Event}
    (hp : (taken.after early).pastes[i]? = some p) (hgoing : p.stage.isOver = false)
    (hq : (taken.after (early ++ [e])).pastes[i]? = some q) (hcancelled : q.cancelled = true)
    (late : List Event) :
    ∃ r, (taken.after (early ++ e :: late)).pastes[i]? = some r ∧
      (KeepsRule taken i (early ++ e :: late) r ↔
        ¬r.Overtaken i (taken.after (early ++ e :: late)).desk) := by
  have hsound := hm.sound_taken htaken
  obtain ⟨payload, rfl⟩ := exists_payload_of_taken htaken
  obtain ⟨p₀, hp₀, -⟩ := taken_paste htaken
  have hsplit := taken.after_split early e late
  have hturn : taken.after (early ++ [e]) = (taken.after early).handle e := after_append ..
  have hobeys : q.Obeys i (taken.after (early ++ [e])).desk := by
    obtain ⟨q', hq', hstep⟩ := pasteStep_handle hp e
    rw [hturn] at hq ⊢
    obtain rfl : q = q' := Option.some.inj (hq.symm.trans hq')
    exact hstep.obeys ((hsound.after early).pastes i p hp) hgoing hcancelled
  obtain ⟨r, hr, hrobeys⟩ := obeys_after (hsound.after (early ++ [e])) hq hcancelled hobeys late
  rw [← hsplit] at hr hrobeys
  refine ⟨r, hr, fun hrule => hrobeys.mp ⟨hrule.1, hrule.2.1⟩, fun hnot => ?_⟩
  obtain ⟨hrequests, hrespects⟩ := hrobeys.mpr hnot
  exact ⟨hrequests, hrespects, editorKept_of_requests hp₀ hrequests⟩

/-- A coordinator with a document open and one paste provider. -/
def withPaster (script : PasteScript) : Coordinator :=
  ({} : Coordinator).after
    [.openDocument { uri := "a", language := "l", text := "ab" }, .select ⟨0, 1⟩,
      .register .any { name := "p", paste := some script }]

theorem reachable_withPaster (script : PasteScript) : (withPaster script).Reachable :=
  ⟨{}, _, rfl⟩

theorem editor_withPaster (script : PasteScript) :
    (withPaster script).editor.document = some { uri := "a", language := "l", text := "ab" } ∧
      (withPaster script).editor.selection = some ⟨0, 1⟩ :=
  ⟨rfl, rfl⟩

/-- A payload with some text, and with something that is no handle. -/
def someText : Payload :=
  ⟨[.string plainMime (.inline "new"), .string handleMime (.inline "none")]⟩

/-- A provider that gives up when the paste is cancelled: the paste keeps the rule. -/
theorem cancelled_keepsRule_of_giving_up :
    let taken := ((withPaster [.pause .cancellation, .fail .cancelled]).paste (some someText)
      false).2
    ∃ r, (taken.after [.run 0, .turn, .cancel 0, .turn]).pastes[0]? = some r ∧
      KeepsRule taken 0 [.run 0, .turn, .cancel 0, .turn] r := by
  intro taken
  have hreachable : (withPaster [.pause .cancellation, .fail .cancelled]).Reachable :=
    ⟨{}, _, rfl⟩
  have htaken : (withPaster [.pause .cancellation, .fail .cancelled]).paste (some someText)
      false = (.taken 0, taken) := Prod.ext (by decide +kernel) rfl
  obtain ⟨p, hp⟩ : ∃ p, (taken.after [.run 0, .turn]).pastes[0]? = some p :=
    Option.isSome_iff_exists.mp (by decide +kernel)
  obtain ⟨q, hq⟩ : ∃ q, (taken.after ([.run 0, .turn] ++ [.cancel 0])).pastes[0]? = some q :=
    Option.isSome_iff_exists.mp (by decide +kernel)
  have hgoing : p.stage.isOver = false := by
    have h : ((taken.after [.run 0, .turn]).pastes[0]?).map (·.stage.isOver) = some false := by
      decide +kernel
    rw [hp] at h
    exact Option.some.inj h
  have hcancelled : q.cancelled = true := by
    have h : ((taken.after ([.run 0, .turn] ++ [.cancel 0])).pastes[0]?).map (·.cancelled) =
        some true := by
      decide +kernel
    rw [hq] at h
    exact Option.some.inj h
  obtain ⟨r, hr, hrule⟩ :=
    cancelled_keepsRule_iff hreachable htaken hp hgoing hq hcancelled [.turn]
  refine ⟨r, hr, hrule.mpr ?_⟩
  have hnot : ((taken.after [.run 0, .turn, .cancel 0, .turn]).pastes[0]?).map (fun r =>
      decide (r.Overtaken 0 (taken.after [.run 0, .turn, .cancel 0, .turn]).desk)) =
        some false := by
    decide +kernel
  have hr' : (taken.after [.run 0, .turn, .cancel 0, .turn]).pastes[0]? = some r := hr
  rw [hr'] at hnot
  exact of_decide_eq_false (Option.some.inj hnot)

/-- A provider that answers with nothing when the paste is cancelled: the paste was asking it,
then it was cancelled, and then the plain text was inserted. -/
theorem cancelled_paste_inserts :
    let taken := ((withPaster [.pause .cancellation]).paste (some someText) false).2
    ((taken.after [.run 0, .turn]).stage? 0).map PasteStage.isOver = some false ∧
      ((taken.after [.run 0, .turn, .cancel 0]).pastes[0]?).map (·.cancelled) = some true ∧
      (taken.after [.run 0, .turn, .cancel 0]).editor.text? = some "ab" ∧
      ((taken.after [.run 0, .turn, .cancel 0, .turn]).stage? 0).map
        PasteStage.respectsCancellation = some false ∧
      ((taken.after [.run 0, .turn, .cancel 0, .turn]).desk.requests (.paste 0)).length = 1 ∧
      (taken.after [.run 0, .turn, .cancel 0, .turn]).editor.text? = some "newb" := by
  decide +kernel

/-- A payload with a text that the platform holds back, and with something that is no handle. -/
def heldText : Payload :=
  ⟨[.string plainMime (.deferred { value := "new", gate := some "g" }),
    .string handleMime (.inline "none")]⟩

-- Cancelling does not stop a paste that waits for the plain text, either.
example :
    let taken := ((withPaster []).paste (some heldText) false).2
    let waits := taken.after [.run 0, .turn]
    (waits.stage? 0).bind PasteStage.outstanding? = some 0 ∧ waits.editor.text? = some "ab" ∧
      (waits.after [.cancel 0, .release "g", .turn]).editor.text? = some "newb" := by
  decide +kernel

end Coordinator

end CopyPaste

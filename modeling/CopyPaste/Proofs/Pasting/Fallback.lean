import CopyPaste.Proofs.Pasting.Replacement
import CopyPaste.Proofs.Pasting.Supply

/-!
# Falling back on the plain text

When all providers have answered without an edit a paste inserts what its transfer holds as plain
text. It asks for the text of the item and not whether the item is a text, and a file answers with
no text at all: so a file in that place removes what was selected.

* `Landed` — how a paste stands once nobody is left to ask;
* **`falls_scan`**, **`Polled.fallenBack`** — one scan and one turn;
* `Fallen` — all that falling back can come to, by the item of plain text;
* **`fallback_insertsOnlyText_iff`** — only a text is inserted exactly if there is no file.
-/

namespace CopyPaste

/-- How a paste stands once nobody is left to ask, with what it asked of the editor. `item` is what
it holds as plain text, and `edit?` the edit made of it. -/
inductive Landed (item : Option Item) (edit? : Option Edit) (target : Nat) :
    PasteStage → List (Edit × Nat) → Prop
  | without (hedit : edit? = none) : Landed item edit? target (.ended (.ok .noEdit)) []
  | waits (value : Deferred String) (gate : String) (hitem : item = some (.text value))
      (hgate : value.gate = some gate) (hedit : edit?.isSome) :
      Landed item edit? target .fallingBack []
  | asks (edit : Edit) (stage : PasteStage) (hedit : edit? = some edit) :
      Landed item edit? target stage [(edit, target)]

namespace PasteRun

/-- What a paste comes to once nobody is left to ask. -/
def LandsIn (p : PasteRun) (stage : PasteStage) (requests : List (Edit × Nat)) : Prop :=
  Landed (p.transfer.get? plainMime) p.plainEdit? p.editor stage requests

/-! ## One scan -/

/-- What a scan did when `n` providers were still to answer: not all of them answered without an
edit, or the paste fell back. -/
structure Falls (p : PasteRun) (task : Task) (n : Nat) (desk : Desk)
    (out : PasteStage × Bool × Desk) (deeds : List Deed) : Prop where
  deedsOf : out.2.2.deedsOf task = desk.deedsOf task ++ deeds
  bound : deeds.countP Deed.isSilence ≤ n
  landed : deeds.countP Deed.isSilence = n → p.LandsIn out.1 (deeds.filterMap Deed.request?)

section Scans

variable {p : PasteRun} {task : Task} {n : Nat} {desk desk' : Desk}
  {out : PasteStage × Bool × Desk} {deeds : List Deed} {name : String}

theorem Falls.of_desk (h : Falls p task n desk' out deeds)
    (hdeeds : desk'.deedsOf task = desk.deedsOf task) : Falls p task n desk out deeds :=
  ⟨h.deedsOf.trans (by rw [hdeeds]), h.bound, h.landed⟩

/-- Somebody is still to answer, or has answered otherwise. -/
theorem falls_short (hdeeds : out.2.2.deedsOf task = desk.deedsOf task ++ deeds)
    (hnone : deeds.countP Deed.isSilence = 0) (n : Nat) : Falls p task (n + 1) desk out deeds where
  deedsOf := hdeeds
  bound := hnone ▸ Nat.zero_le _
  landed := fun hall => by
    rw [hnone] at hall
    exact absurd hall (Nat.succ_ne_zero n).symm

theorem falls_undone (hdeeds : out.2.2.deedsOf task = desk.deedsOf task) (n : Nat) :
    Falls p task (n + 1) desk out [] :=
  falls_short (by rw [hdeeds, List.append_nil]) rfl n

/-- An answer without an edit, before everything else. -/
theorem Falls.silence {answer : PasteAnswer} {cancelled : Bool} (hempty : answer.isEmpty = true)
    (h : Falls p task n (desk.record task (.answered name answer cancelled)) out deeds) :
    Falls p task (n + 1) desk out (.answered name answer cancelled :: deeds) := by
  have hcount : (Deed.answered name answer cancelled :: deeds).countP Deed.isSilence =
      deeds.countP Deed.isSilence + 1 := List.countP_cons_of_pos hempty
  exact
    { deedsOf := by
        rw [h.deedsOf, Desk.deedsOf_record, if_pos rfl, List.append_assoc]
        rfl
      bound := by
        rw [hcount]
        exact Nat.succ_le_succ h.bound
      landed := fun hall => h.landed (by omega) }

/-- A paste waits for the plain text only if it is a text that is held back. -/
theorem gate_of_fallBack (h : (p.fallBack task desk).1 = .fallingBack) :
    ∃ value gate, p.transfer.get? plainMime = some (.text value) ∧ value.gate = some gate := by
  have hover (edit : Edit) (desk : Desk) :
      (p.applyEdit task edit .plainText desk).1 ≠ .fallingBack := fun heq => by
    have hplain : PasteOutcome.plainText ≠ .cancelled := by simp
    have hover := (p.over_applyEdit task edit hplain desk).1
    rw [heq] at hover
    simp [PasteStage.isOver] at hover
  unfold fallBack at h
  split at h
  · split at h
    next item hitem =>
      split at h
      · exact absurd h (hover _ _)
      next hnone =>
        cases item with
        | text value =>
            have hvalue : (desk.await? task value).1 = none := congrArg Prod.fst hnone
            unfold Desk.await? at hvalue
            split at hvalue
            next gate hgate => exact ⟨value, gate, hitem, (Option.filter_eq_some_iff.mp hgate).1⟩
            next => simp at hvalue
        | file file => simp [Desk.text?] at hnone
    next => simp at h
  · simp at h

/-- **Falling back on the plain text.** -/
theorem falls_fallBack (p : PasteRun) (task : Task) (cancelled : Bool) (desk : Desk) :
    ∃ deeds, Falls p task 0 desk (p.scan task [] cancelled desk) deeds := by
  show ∃ deeds, Falls p task 0 desk
    ((p.fallBack task desk).1, cancelled, (p.fallBack task desk).2) deeds
  obtain ⟨after, hscripted, ⟨edit, hplain, h⟩ | ⟨hplain, h⟩ | ⟨edit, hplain, h⟩⟩ :=
    p.fallBack_cases task desk
  · obtain ⟨value, gate, hitem, hgate⟩ := gate_of_fallBack (congrArg Prod.fst h)
    rw [h]
    exact ⟨[], by rw [List.append_nil]; exact hscripted.deedsOf task, Nat.le_refl _, fun _ =>
      .waits value gate hitem hgate (by rw [hplain]; rfl)⟩
  · rw [h]
    exact ⟨[], by rw [List.append_nil]; exact hscripted.deedsOf task, Nat.le_refl _, fun _ =>
      .without hplain⟩
  · rw [h]
    refine ⟨[.requested edit p.editor], ?_, Nat.le_refl _, fun _ => .asks edit _ hplain⟩
    show (p.applyEdit task edit .plainText after).2.deedsOf task = _
    rw [deedsOf_applyEdit, if_pos rfl, hscripted.deedsOf]

/-- **The reply of a provider and what follows it.** -/
theorem falls_follow (p : PasteRun) (task : Task) (name : String)
    (left : List (String × PasteScript)) (reply : Reply × Bool × Desk)
    (hscan : ∀ cancelled desk, ∃ deeds,
      Falls p task left.length desk (p.scan task left cancelled desk) deeds) :
    ∃ deeds, Falls p task (left.length + 1) reply.2.2
      (p.follow task name left (p.scan task left) reply) deeds := by
  obtain ⟨answer | ⟨script, since⟩ | _, cancelled, desk⟩ := reply
  · -- no answer and an answer without replacements go the same way
    have hsilent : answer.isEmpty = true → ∃ deeds, Falls p task (left.length + 1) desk
        (p.scan task left cancelled (desk.record task (.answered name answer cancelled)))
        deeds := by
      intro hempty
      obtain ⟨deeds, h⟩ := hscan cancelled (desk.record task (.answered name answer cancelled))
      exact ⟨_, h.silence hempty⟩
    have hrecord : (desk.record task (.answered name answer cancelled)).deedsOf task =
        desk.deedsOf task ++ [.answered name answer cancelled] := by
      rw [Desk.deedsOf_record, if_pos rfl]
    rcases answer with error | _ | edit
    · refine ⟨[.answered name (.error error) cancelled], falls_short ?_ rfl _⟩
      show (p.heed task name (p.scan task left) cancelled _ (.error error)).2.2.deedsOf task = _
      unfold heed
      dsimp only
      split <;> exact hrecord
    · exact hsilent rfl
    · cases edit with
      | nil => exact hsilent rfl
      | cons r edit =>
          refine ⟨[.answered name (.ok (some (r :: edit))) cancelled,
            .requested (r :: edit) p.editor], falls_short ?_ rfl _⟩
          show (p.applyEdit task (r :: edit) (.applied name) _).2.deedsOf task = _
          rw [deedsOf_applyEdit, if_pos rfl, hrecord, List.append_assoc]
          rfl
  · refine ⟨[], falls_undone ?_ _⟩
    rfl
  · refine ⟨[], falls_undone ?_ _⟩
    rfl

/-- **All providers that are left.** -/
theorem falls_scan (p : PasteRun) (task : Task) (left : List (String × PasteScript))
    (cancelled : Bool) (desk : Desk) :
    ∃ deeds, Falls p task left.length desk (p.scan task left cancelled desk) deeds := by
  induction left generalizing cancelled desk with
  | nil => exact p.falls_fallBack task cancelled desk
  | cons q left ih =>
      obtain ⟨name, script⟩ := q
      cases cancelled with
      | true =>
          refine ⟨[], falls_undone ?_ _⟩
          rfl
      | false =>
          obtain ⟨deeds, h⟩ := p.falls_follow task name left
            (script.run (p.call task name) p.transfer none false
              (desk.note task name (.asked p.document p.selection p.transfer))) ih
          exact ⟨deeds, h.of_desk ((PasteScript.scripted_run _ _ script _ _ _).deedsOf task)⟩

end Scans

/-! ## One turn -/

/-- Not all providers of a paste answered without an edit, or it fell back. -/
structure FallenBack (p : PasteRun) (i : Nat) (desk : Desk) : Prop where
  bound : desk.silences (.paste i) ≤ p.providers.length
  landed : desk.silences (.paste i) = p.providers.length →
    p.LandsIn p.stage (desk.requests (.paste i))

theorem fallenBack_of_fresh {p : PasteRun} {i : Nat} {desk : Desk} (hproviders : p.providers ≠ [])
    (h : desk.deedsOf (.paste i) = []) : p.FallenBack i desk := by
  have hsilent : desk.silences (.paste i) = 0 := by
    rw [Desk.silences, h]
    rfl
  have hpositive := List.length_pos_iff.mpr hproviders
  exact ⟨by omega, fun hall => by omega⟩

/-- A scan goes on from where the paste stands. -/
theorem Falls.fallenBack {p : PasteRun} {i n : Nat} {desk : Desk} {out : PasteStage × Bool × Desk}
    {deeds : List Deed} (h : Falls p (.paste i) n desk out deeds)
    (hrequests : desk.requests (.paste i) = [])
    (howed : desk.silences (.paste i) + n = p.providers.length) :
    (p.settleAt out).1.FallenBack i (p.settleAt out).2 := by
  have hsilent : (p.settleAt out).2.silences (.paste i) =
      desk.silences (.paste i) + deeds.countP Deed.isSilence := by
    show out.2.2.silences (.paste i) = _
    unfold Desk.silences
    rw [h.deedsOf, List.countP_append]
  have hasked : (p.settleAt out).2.requests (.paste i) = deeds.filterMap Deed.request? := by
    show out.2.2.requests (.paste i) = _
    unfold Desk.requests at hrequests ⊢
    rw [h.deedsOf, List.filterMap_append, hrequests, List.nil_append]
  have hbound := h.bound
  refine ⟨?_, fun hall => ?_⟩
  · show _ ≤ p.providers.length
    omega
  · rw [hasked]
    exact h.landed (by
      rw [show (p.settleAt out).1.providers = p.providers from rfl] at hall
      omega)

/-- **Every turn keeps it.** -/
theorem Polled.fallenBack {p : PasteRun} {i : Nat} {result : Option (Option Transfer)} {desk : Desk}
    {out : PasteRun × Desk} (h : Polled p (.paste i) result desk out) (hsound : p.Sound i desk)
    (hfalls : p.FallenBack i desk) : out.1.FallenBack i out.2 := by
  cases h with
  | idle hstage => exact hfalls
  | waits since hsince hc hresult hlimit =>
      exact fallenBack_of_fresh hsound.providers
        (hsound.fresh (isUndecided_of_waitsSince? hsince)).2
  | stops since hsince hc =>
      exact fallenBack_of_fresh hsound.providers
        (hsound.fresh (isUndecided_of_waitsSince? hsince)).2
  | asks since copied hsince hsupplied =>
      obtain ⟨-, hfresh⟩ := hsound.fresh (isUndecided_of_waitsSince? hsince)
      obtain ⟨deeds, h⟩ := (p.supply copied).falls_scan (.paste i) p.providers p.cancelled desk
      refine h.fallenBack ?_ ?_
      · rw [Desk.requests, hfresh]
        rfl
      · rw [Desk.silences, hfresh]
        exact Nat.zero_add _
  | resumes provider script since rest hstage =>
      obtain ⟨deeds, h⟩ := p.falls_follow (.paste i) provider rest
        (script.run (p.call (.paste i) provider) p.transfer (some since) p.cancelled desk)
        (p.falls_scan (.paste i) rest)
      have hscripted := PasteScript.scripted_run (p.call (.paste i) provider) p.transfer script
        (some since) p.cancelled desk
      exact (h.of_desk (hscripted.deedsOf _)).fallenBack (hsound.going (by rw [hstage]; rfl)).1
        (hsound.outstanding (rest.length + 1) (by rw [hstage]; rfl))
  | fallsBack hstage =>
      obtain ⟨deeds, h⟩ := p.falls_fallBack (.paste i) p.cancelled desk
      exact h.fallenBack (hsound.going (by rw [hstage]; rfl)).1
        (hsound.outstanding 0 (by rw [hstage]; rfl))

end PasteRun

/-! ## Whole histories -/

namespace Coordinator

theorem PasteStep.fallenBack {m : Coordinator} {e : Event} {i : Nat} {p p' : PasteRun} {desk : Desk}
    (h : PasteStep m e i p p' desk) (hsound : p.Sound i m.desk) (hfallen : p.FallenBack i m.desk) :
    p'.FallenBack i desk := by
  have hsame {q : PasteRun} (hrecords : SameRecords (.paste i) m.desk desk)
      (hproviders : q.providers = p.providers)
      (hlands : p.LandsIn p.stage (m.desk.requests (.paste i)) →
        q.LandsIn q.stage (m.desk.requests (.paste i))) : q.FallenBack i desk := by
    refine ⟨?_, ?_⟩
    · rw [hproviders, Desk.silences, hrecords.2]
      exact hfallen.bound
    · rw [hproviders, Desk.silences, Desk.requests, hrecords.2]
      exact fun hall => hlands (hfallen.landed hall)
  cases h with
  | still desk hrecords => exact hsame hrecords rfl id
  | queues desk hstage hrecords =>
      have hfresh := (hsound.fresh (by rw [hstage]; rfl)).2
      exact PasteRun.fallenBack_of_fresh hsound.providers (hrecords.2.trans hfresh)
  | cancels desk he hrecords => exact hsame hrecords rfl id
  | polls he hhead =>
      exact (p.polled_poll i (m.result? p.copy) m.desk).fallenBack hsound hfallen

/-- **A paste falls back when all its providers have answered without an edit,** whatever happens
meanwhile. -/
theorem fallenBack_after {m : Coordinator} {i : Nat} {p p' : PasteRun}
    (hp : m.pastes[i]? = some p) (hsound : p.Sound i m.desk) (hfallen : p.FallenBack i m.desk)
    {history : List Event} (hp' : (m.after history).pastes[i]? = some p') :
    p'.FallenBack i (m.after history).desk := by
  obtain ⟨q, hq, -, h⟩ := paste_after
    (P := fun q desk => q.Sound i desk ∧ q.FallenBack i desk)
    (fun hstep h => ⟨hstep.sound h.1, hstep.fallenBack h.1 h.2⟩) hp ⟨hsound, hfallen⟩ history
  obtain rfl : p' = q := Option.some.inj (hp'.symm.trans hq)
  exact h

/-- A paste that is cancelled when it would begin to ask does nothing. -/
theorem Begins.deedsOf_of_cancelled {m : Coordinator} (hm : m.Sound) {i : Nat}
    {early : List Event} {p : PasteRun} (h : Begins m i early p) (hcancelled : p.cancelled = true)
    (late : List Event) : (m.after (early ++ .turn :: late)).desk.deedsOf (.paste i) = [] := by
  have hsound := (hm.after early).pastes i p h.paste
  have hpoll : p.poll i ((m.after early).result? p.copy) (m.after early).desk =
        ({ p with stage := .ended (.ok .cancelled) }, (m.after early).desk) ∨
      p.poll i ((m.after early).result? p.copy) (m.after early).desk =
        ({ p.supply ((m.after early).result? p.copy).join with stage := .ended (.ok .cancelled) },
          (m.after early).desk) := by
    obtain ⟨-, hpoll⟩ | ⟨since, -, -, hpoll⟩ := h.cases
    · exact .inl hpoll
    · exact .inr (hpoll.trans (PasteRun.askAll_of_cancelled hcancelled hsound.providers _ _ _))
  have hfresh := (hsound.fresh h.undecided).2
  obtain ⟨p', -, -, -, hdeeds⟩ := over_after h.after (by rcases hpoll with h | h <;> rw [h] <;> rfl)
    late
  rw [after_split, hdeeds, h.desk]
  rcases hpoll with h | h <;> rw [h] <;> exact hfresh

/-! ## What falling back comes to -/

/-- How a paste stands whose providers all answered without an edit. -/
inductive Fallen (m : Coordinator) (i : Nat) (later : List Event) (p : PasteRun) :
    Option Item → PasteStage → Prop
  | missing (hkept : EditorKept m i later) : Fallen m i later p none (.ended (.ok .noEdit))
  | waits (value : Deferred String) (gate : String) (hgate : value.gate = some gate)
      (hkept : EditorKept m i later) : Fallen m i later p (some (.text value)) .fallingBack
  /-- The string of the item is inserted, which for a file is empty. -/
  | inserts (item : Item) (early late : List Event) (removed : String)
      (hlater : later = early ++ .turn :: late)
      (hedit : MakesEdit m i early late p.document.uri p.selection removed item.asString) :
      Fallen m i later p (some item) (.ended (.ok .plainText))
  | refused (item : Item) (early late : List Event) (error : EditError)
      (hlater : later = early ++ .turn :: late)
      (hrefuses : (m.after early).editor.Refuses p.document.uri p.selection error)
      (hkept : EditorKept m i later) :
      Fallen m i later p (some item) (.ended (.error (.apply error)))

/-- Falling back inserts the text of a text item and nothing else. -/
structure InsertsOnlyText (m : Coordinator) (i : Nat) (later : List Event) (p : PasteRun) :
    Prop where
  text : p.stage = .ended (.ok .plainText) → ∃ value early late removed,
    p.transfer.get? plainMime = some (.text value) ∧ later = early ++ .turn :: late ∧
      MakesEdit m i early late p.document.uri p.selection removed value.value
  otherwise : (∀ value, p.transfer.get? plainMime ≠ some (.text value)) →
    p.stage = .ended (.ok .noEdit) ∧ EditorKept m i later

/-- **Only text is inserted exactly if there is no file in its place.** -/
theorem Fallen.insertsOnlyText_iff {m : Coordinator} {i : Nat} {later : List Event} {p : PasteRun}
    (h : Fallen m i later p (p.transfer.get? plainMime) p.stage) :
    InsertsOnlyText m i later p ↔ ∀ file, p.transfer.get? plainMime ≠ some (.file file) := by
  constructor
  · intro honly file hfile
    obtain ⟨hended, -⟩ := honly.otherwise fun value htext => by simp [hfile] at htext
    rw [hfile, hended] at h
    nomatch h
  · intro hfile
    generalize hitem : p.transfer.get? plainMime = item at h hfile
    generalize hstage : p.stage = stage at h
    cases h with
    | missing hkept =>
        exact ⟨fun hplain => by simp [hstage] at hplain, fun _ => ⟨hstage, hkept⟩⟩
    | waits value gate hgate hkept =>
        exact ⟨fun hplain => by simp [hstage] at hplain, fun hnone => absurd hitem (hnone value)⟩
    | inserts item early late removed hlater hedit =>
        cases item with
        | text value =>
            exact ⟨fun _ => ⟨value, early, late, removed, hitem, hlater, hedit⟩,
              fun hnone => absurd hitem (hnone value)⟩
        | file file => exact absurd rfl (hfile file)
    | refused item early late error hlater hrefuses hkept =>
        cases item with
        | text value =>
            exact ⟨fun hplain => by simp [hstage] at hplain,
              fun hnone => absurd hitem (hnone value)⟩
        | file file => exact absurd rfl (hfile file)

section Taken

variable {m taken : Coordinator} {i : Nat}

/-- What a paste holds once it asks, which is what all its providers were shown. -/
theorem supply_of_silences (hm : m.Reachable) {payload : Payload} {cancelled : Bool}
    (htaken : m.paste (some payload) cancelled = (.taken i, taken)) {later : List Event}
    {p : PasteRun} (hp : (taken.after later).pastes[i]? = some p)
    (hasked : (taken.after later).desk.deedsOf (.paste i) ≠ []) :
    ∃ early late q, later = early ++ .turn :: late ∧ Begins taken i early q ∧
      Supply payload (Transfer.ofPayload payload m.desk.reads).1
        ((taken.after early).result? q.copy).join p.transfer := by
  have hsound := hm.sound_taken htaken
  obtain ⟨p₀, hp₀, hheld, -, -, -, htransfer⟩ := taken_paste htaken
  obtain ⟨p', hp', hu⟩ | ⟨early, late, q, rfl, hbegins, -, hq⟩ :=
    undecided_or_begins hp₀ (by rw [hheld]; rfl) later
  · exact absurd (((hsound.after later).pastes i p' hp').fresh hu).2 hasked
  · have hgoing : q.cancelled = false := by
      cases hcancelled : q.cancelled with
      | false => rfl
      | true => exact absurd (hbegins.deedsOf_of_cancelled hsound hcancelled late) hasked
    obtain ⟨-, p', hp', -, hp'transfer⟩ := hbegins.asks hgoing late
    obtain rfl : p = p' := Option.some.inj (hp.symm.trans hp')
    rw [hp'transfer]
    exact ⟨early, late, q, rfl, hbegins, PasteRun.supply_spec (hq.trans htransfer) fun t ht =>
      (hsound.after early).result (Option.join_eq_some_iff.mp ht)⟩

/-- A paste that ended with the plain text asked its editor for it when nobody was left. -/
theorem Attempts.all_silent {early late : List Event} {p : PasteRun} {edit : Edit}
    {outcome : PasteOutcome} (h : Attempts m i early late p edit outcome)
    (hstage : p.stage = .ended (.ok .plainText)) :
    p.providers.length ≤ (m.after (early ++ .turn :: late)).desk.silences (.paste i) := by
  have hattempt := h.attempt
  unfold Editor.attempt at hattempt
  split at hattempt
  · obtain ⟨hended, -⟩ := Prod.mk.inj hattempt
    obtain rfl : PasteOutcome.plainText = outcome := by simpa [hstage] using hended
    have hdecides := h.decides
    unfold Decides at hdecides
    split at hdecides
    · simp at hdecides
    next hnone => exact List.getElem?_eq_none_iff.mp hnone
  · simp [hstage] at hattempt

/-- The edit of a paste that fell back is the one made of its item. -/
theorem fallen_of_landed {p₀ p : PasteRun} {later : List Event}
    (hp₀ : m.pastes[i]? = some p₀) (hid : p.editor = m.editor.id)
    (hfallback : p.plainTextFallback = true)
    (hcases : ((m.after later).desk.requests (.paste i) = [] ∧ p.stage.isQuiet = true) ∨
      ∃ early late edit outcome, later = early ++ .turn :: late ∧
        Attempts m i early late p edit outcome)
    (hsilent : (m.after later).desk.silences (.paste i) = p.providers.length)
    (hlanded : p.LandsIn p.stage ((m.after later).desk.requests (.paste i))) :
    Fallen m i later p (p.transfer.get? plainMime) p.stage := by
  have hplain : p.plainEdit? = (p.transfer.get? plainMime).map fun item =>
      [.replacing p.document.uri p.selection item.asString] := by
    rw [PasteRun.plainEdit?, if_pos hfallback]
  unfold PasteRun.LandsIn at hlanded
  generalize hstage : p.stage = stage at hlanded ⊢
  generalize hrequests : (m.after later).desk.requests (.paste i) = requests at hlanded
  cases hlanded with
  | without hedit =>
      rw [hplain, Option.map_eq_none_iff] at hedit
      rw [hedit]
      exact .missing (editorKept_of_requests hp₀ hrequests)
  | waits value gate hitem hgate hedit =>
      rw [hitem]
      exact .waits value gate hgate (editorKept_of_requests hp₀ hrequests)
  | asks edit stage hedit =>
      rw [hplain] at hedit
      obtain ⟨item, hitem, rfl⟩ := Option.map_eq_some_iff.mp hedit
      obtain ⟨hnone, -⟩ | ⟨early, late, edit, outcome, rfl, hattempts⟩ := hcases
      · simp [hrequests] at hnone
      · obtain rfl : edit = [.replacing p.document.uri p.selection item.asString] := by
          have hsame := hattempts.requests.symm.trans hrequests
          simpa using hsame
        -- nobody is left who could have brought the edit
        obtain rfl : outcome = .plainText := by
          have hdecides := hattempts.decides
          unfold Decides at hdecides
          rw [hsilent, List.getElem?_eq_none (Nat.le_refl _)] at hdecides
          exact hdecides.1
        rw [hitem, ← hstage]
        obtain ⟨removed, hended, hedit⟩ | ⟨error, hended, hrefuses, hkept⟩ :=
          hattempts.cases hp₀ hid
        · rw [hended]
          exact .inserts item early late removed rfl hedit
        · rw [hended]
          exact .refused item early late error rfl hrefuses hkept

/-- **What falling back comes to.** A paste that may fall back ends with the plain text only when
all its providers have answered without an edit. When they have, it has no item and leaves the
editor alone, or it waits for a text, or it replaces the selection by the string of the item; and
nothing but text is inserted exactly if the item is no file. The transfer that the item is taken
from is the one of the payload with the result of the copy in it. -/
theorem fallback_insertsOnlyText_iff (hm : m.Reachable) {payload : Payload} {cancelled : Bool}
    (htaken : m.paste (some payload) cancelled = (.taken i, taken))
    (hfallback : m.config.plainTextFallback = true) (later : List Event) :
    ∃ document selection p, m.editor.document = some document ∧
      m.editor.selection = some selection ∧ (taken.after later).pastes[i]? = some p ∧
      p.document = document ∧ p.selection = selection ∧
      (p.stage = .ended (.ok .plainText) →
        (taken.after later).desk.silences (.paste i) = (m.registry.pasters document).length) ∧
      ((taken.after later).desk.silences (.paste i) = (m.registry.pasters document).length →
        (∃ early late q, later = early ++ .turn :: late ∧ Begins taken i early q ∧
          Supply payload (Transfer.ofPayload payload m.desk.reads).1
            ((taken.after early).result? q.copy).join p.transfer) ∧
        Fallen taken i later p (p.transfer.get? plainMime) p.stage ∧
        (InsertsOnlyText taken i later p ↔
          ∀ file, p.transfer.get? plainMime ≠ some (.file file))) := by
  have hsound := hm.sound_taken htaken
  obtain ⟨document, selection, p₀, p, hdocument, hselection, hp₀, hp, hid, hpdocument,
    hpselection, hproviders, hcases⟩ := taken_quiet_or_attempts hm htaken later
  obtain ⟨q, -, -, hq, -, -, hheld, -, -, -, -, hqfallback⟩ := taken_origin htaken
  obtain rfl : p₀ = q := Option.some.inj (hp₀.symm.trans hq)
  obtain ⟨r, hr, horigin⟩ := origin_after hp₀ later
  obtain rfl : p = r := Option.some.inj (hp.symm.trans hr)
  obtain ⟨-, -, -, -, hpfallback⟩ := fixed_of_origin horigin
  have hsound₀ := hsound.pastes i p₀ hp₀
  have hfallen := fallenBack_after hp₀ hsound₀ (PasteRun.fallenBack_of_fresh hsound₀.providers
    (hsound₀.fresh (by rw [hheld]; rfl)).2) hp
  refine ⟨document, selection, p, hdocument, hselection, hp, hpdocument, hpselection,
    fun hstage => ?_, fun hsilent => ?_⟩
  · rw [← hproviders]
    refine Nat.le_antisymm hfallen.bound ?_
    obtain ⟨-, hquiet⟩ | ⟨early, late, edit, outcome, rfl, hattempts⟩ := hcases
    · simp [hstage, PasteStage.isQuiet] at hquiet
    · exact hattempts.all_silent hstage
  · rw [← hproviders] at hsilent
    have hasked : (taken.after later).desk.deedsOf (.paste i) ≠ [] := fun hnone => by
      have hpositive := List.length_pos_iff.mpr ((hsound.after later).pastes i p hp).providers
      rw [Desk.silences, hnone, List.countP_nil] at hsilent
      omega
    have hfallen := fallen_of_landed hp₀ hid (hpfallback.trans (hqfallback.trans hfallback)) hcases
      hsilent (hfallen.landed hsilent)
    exact ⟨supply_of_silences hm htaken hp hasked, hfallen, hfallen.insertsOnlyText_iff⟩

end Taken

/-- A provider that answers with nothing, and a text: the text is all that is inserted. -/
theorem text_is_all_that_is_inserted :
    let taken := ((withPaster []).paste (some someText) false).2
    let later := [.run 0, .turn]
    ((taken.after later).stage? 0).bind PasteStage.outcome? = some .plainText ∧
      (taken.after later).editor.text? = some "newb" ∧
      ∃ p, (taken.after later).pastes[0]? = some p ∧ InsertsOnlyText taken 0 later p := by
  intro taken later
  have htaken : (withPaster []).paste (some someText) false = (.taken 0, taken) :=
    Prod.ext (by decide +kernel) rfl
  obtain ⟨document, selection, p, hdocument, -, hp, -, -, -, hfallen⟩ :=
    fallback_insertsOnlyText_iff (reachable_withPaster []) htaken (by decide +kernel) later
  have hsilent : (withPaster []).editor.document.map (fun document =>
      ((withPaster []).registry.pasters document).length) =
        some ((taken.after later).desk.silences (.paste 0)) := by
    decide +kernel
  rw [hdocument, Option.map_some, Option.some.injEq] at hsilent
  have hitem : ((taken.after later).pastes[0]?).map (fun p =>
      ((p.transfer.get? plainMime).bind Item.asFile?).isSome) = some false := by
    decide +kernel
  rw [hp, Option.map_some, Option.some.injEq] at hitem
  obtain ⟨-, -, hiff⟩ := hfallen hsilent.symm
  exact ⟨by decide +kernel, by decide +kernel, p, hp,
    hiff.mpr fun file hfile => by simp [hfile, Item.asFile?] at hitem⟩

/-- A payload with a text file in the place of the text, as when such a file is dropped. -/
def someTextFile : Payload :=
  ⟨[.file plainMime (some { name := "n.txt", path := none, content := .ok [97] }),
    .string handleMime (.inline "none")]⟩

/-- The only provider has answered with nothing and no text is there: what was selected is gone,
and the paste calls that plain text. -/
theorem text_file_removes_selection :
    let taken := ((withPaster []).paste (some someTextFile) false).2
    let pasted := taken.after [.run 0, .turn]
    ((withPaster []).paste (some someTextFile) false).1 = .taken 0 ∧
      (withPaster []).config.plainTextFallback = true ∧
      (withPaster []).editor.document.map (fun document =>
        ((withPaster []).registry.pasters document).length) =
          some (pasted.desk.silences (.paste 0)) ∧
      (pasted.pastes[0]?).map (fun p =>
        ((p.transfer.get? plainMime).bind Item.asFile?).isSome) = some true ∧
      taken.editor.text? = some "ab" ∧
      (pasted.stage? 0).bind PasteStage.outcome? = some .plainText ∧
      pasted.editor.text? = some "b" := by
  decide +kernel

end Coordinator

end CopyPaste

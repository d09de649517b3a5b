import CopyPaste.Coordinator.Clipboard
import CopyPaste.Proofs.Coordinator.Steps
import CopyPaste.Proofs.Payload
import CopyPaste.Proofs.Transfer.Asking

/-!
# Which events are declined

A copy and a paste look at what they need one thing after the other, each in an order of its own,
and are declined for the first that is missing. A declined event has changed nothing at all. A copy
that starts has written one item and a paste that is taken over has set one flag; in neither case
has a provider been called by then, or a source been read.

* `Need.AllMet`, `Need.FirstUnmet` — needs and the first of them that is missing;
* `copyNeeds`, `pasteNeeds` — what the two events need, in the order in which it is looked at;
* **`verdict_admitCopy`**, **`verdict_admitPaste`** — admission is decided by the needs alone;
* `CopyStarts`, `PasteTaken` — what has happened by the time an event is answered;
* **`clipboard_events_spec`** — every answer to a clipboard event.
-/

namespace CopyPaste

/-! ## Needs -/

/-- Something that an event needs, and the reason to decline it when that is missing. -/
structure Need where
  reason : DeclineReason
  holds : Prop

namespace Need

/-- All needs are met. -/
def AllMet (needs : List Need) : Prop := ∀ need ∈ needs, need.holds

/-- The first need that is not met gives this reason. -/
def FirstUnmet (needs : List Need) (reason : DeclineReason) : Prop :=
  ∃ before holds after, needs = before ++ ⟨reason, holds⟩ :: after ∧ AllMet before ∧ ¬holds

/-- What comes of looking at one need after the other. -/
inductive Verdict {α : Type} : List Need → Except DeclineReason α → Prop
  | granted (works : α) : Verdict [] (.ok works)
  | refused {need : Need} {rest : List Need} (hunmet : ¬need.holds) :
      Verdict (need :: rest) (.error need.reason)
  | goesOn {need : Need} {rest : List Need} {verdict : Except DeclineReason α}
      (hmet : need.holds) (hrest : Verdict rest verdict) : Verdict (need :: rest) verdict

theorem allMet_cons {need : Need} {rest : List Need} :
    AllMet (need :: rest) ↔ need.holds ∧ AllMet rest := List.forall_mem_cons

theorem not_firstUnmet_nil (reason : DeclineReason) : ¬FirstUnmet [] reason := by
  rintro ⟨before, holds, after, hnil, -, -⟩
  exact absurd hnil (by simp)

theorem firstUnmet_cons {need : Need} {rest : List Need} {reason : DeclineReason} :
    FirstUnmet (need :: rest) reason ↔
      ¬need.holds ∧ need.reason = reason ∨ need.holds ∧ FirstUnmet rest reason := by
  constructor
  · rintro ⟨before, holds, after, hneeds, hbefore, hunmet⟩
    cases before with
    | nil =>
        obtain ⟨rfl, -⟩ := List.cons.inj hneeds
        exact .inl ⟨hunmet, rfl⟩
    | cons first before =>
        obtain ⟨rfl, hrest⟩ := List.cons.inj hneeds
        obtain ⟨hfirst, hbefore⟩ := allMet_cons.mp hbefore
        exact .inr ⟨hfirst, before, holds, after, hrest, hbefore, hunmet⟩
  · rintro (⟨hunmet, rfl⟩ | ⟨hmet, before, holds, after, rfl, hbefore, hunmet⟩)
    · exact ⟨[], need.holds, rest, rfl, by simp [AllMet], hunmet⟩
    · exact ⟨need :: before, holds, after, rfl, allMet_cons.mpr ⟨hmet, hbefore⟩, hunmet⟩

namespace Verdict

variable {α : Type} {needs : List Need} {verdict : Except DeclineReason α}

/-- Refusing on a test is looking at a need that is met when the test fails. -/
theorem ofTest {need : Need} {rest : List Need} {test : Bool}
    (htest : test = false ↔ need.holds) (hrest : need.holds → Verdict rest verdict) :
    Verdict (need :: rest) (if test = true then .error need.reason else verdict) := by
  cases test with
  | false =>
      have hmet := htest.mp rfl
      exact .goesOn hmet (hrest hmet)
  | true =>
      have hunmet : ¬need.holds := fun hmet => absurd (htest.mpr hmet) (by simp)
      exact .refused hunmet

theorem ok_iff (h : Verdict needs verdict) : (∃ works, verdict = .ok works) ↔ AllMet needs := by
  induction h with
  | granted works => simp [AllMet]
  | refused hunmet => simp [allMet_cons, hunmet]
  | goesOn hmet _ ih => rw [ih, allMet_cons, and_iff_right hmet]

theorem error_iff (h : Verdict needs verdict) (reason : DeclineReason) :
    verdict = .error reason ↔ FirstUnmet needs reason := by
  induction h with
  | granted works => simp [not_firstUnmet_nil]
  | refused hunmet => simp [firstUnmet_cons, hunmet]
  | goesOn hmet _ ih => simp [firstUnmet_cons, hmet, ih]

end Verdict

end Need

/-! ## Providers -/

namespace Registry

/-- A registration in force that matches the document has the capability. -/
def Serves (r : Registry) (d : Document) (c : Capability) : Prop :=
  ∃ entry ∈ r.entries, entry.selector.score d ≠ 0 ∧ entry.provider.supports c = true

theorem mem_orderedWith {r : Registry} {d : Document} {c : Capability} {p : Provider} :
    p ∈ r.orderedWith d c ↔
      ∃ entry ∈ r.entries, entry.selector.score d ≠ 0 ∧ entry.provider = p ∧
        p.supports c = true := by
  unfold orderedWith ordered matching
  simp only [List.mem_filter, List.mem_map, List.mem_mergeSort, bne_iff_ne]
  constructor
  · rintro ⟨⟨entry, ⟨hentry, hscore⟩, rfl⟩, hsupports⟩
    exact ⟨entry, hentry, hscore, rfl, hsupports⟩
  · rintro ⟨entry, hentry, hscore, rfl, hsupports⟩
    exact ⟨⟨entry, ⟨hentry, hscore⟩, rfl⟩, hsupports⟩

/-- Whichever part of the providers with a capability is taken, there is none exactly when nobody
serves the document. -/
theorem filterMap_orderedWith_eq_nil_iff {α : Type} (r : Registry) (d : Document) (c : Capability)
    {part? : Provider → Option α} (hpart : ∀ p, (part? p).isSome = p.supports c) :
    (r.orderedWith d c).filterMap part? = [] ↔ ¬r.Serves d c := by
  rw [List.filterMap_eq_nil_iff]
  constructor
  · rintro hnone ⟨entry, hentry, hscore, hsupports⟩
    have hmem := mem_orderedWith.mpr ⟨entry, hentry, hscore, rfl, hsupports⟩
    have hsome := hpart entry.provider
    rw [hnone _ hmem, hsupports] at hsome
    exact absurd hsome (by simp)
  · intro hserves p hp
    obtain ⟨entry, hentry, hscore, rfl, hsupports⟩ := mem_orderedWith.mp hp
    exact absurd ⟨entry, hentry, hscore, hsupports⟩ hserves

theorem copiers_eq_nil_iff (r : Registry) (d : Document) :
    r.copiers d = [] ↔ ¬r.Serves d .copyData :=
  r.filterMap_orderedWith_eq_nil_iff d .copyData fun p => by
    cases h : p.copy <;> simp [Provider.copier?, Provider.supports, h]

theorem pasters_eq_nil_iff (r : Registry) (d : Document) :
    r.pasters d = [] ↔ ¬r.Serves d .pasteEdits :=
  r.filterMap_orderedWith_eq_nil_iff d .pasteEdits fun p => by
    cases h : p.paste <;> simp [Provider.paster?, Provider.supports, h]

end Registry

/-! ## Normalizing -/

/-- Normalizing gives out identities for what is still to be read, and reads nothing. -/
theorem Transfer.reads_ofPayload (payload : Payload) (reads : Reads) :
    ∃ next, (ofPayload payload reads).2 = { reads with next } := by
  have hfold : ∀ (items : List PayloadItem) (state : Transfer × Reads),
      ∃ next, (items.foldl accept state).2 = { state.2 with next } := by
    intro items
    induction items with
    | nil => exact fun state => ⟨state.2.next, rfl⟩
    | cons x rest ih =>
        intro state
        obtain ⟨next, hrest⟩ := ih (accept state x)
        refine ⟨next, ?_⟩
        rw [List.foldl_cons, hrest]
        obtain ⟨-, haccept⟩ | ⟨mime, shown, item, -, -, haccept⟩ := accept_cases state x
        · rw [haccept]
        · rw [haccept]
  exact hfold payload.items ({}, reads)

namespace Coordinator

open Need

/-! ## Admission -/

/-- What a copy needs, in the order in which it is looked at. -/
def copyNeeds (m : Coordinator) (given : Option Payload) : List Need :=
  [⟨.noClipboardData, ∃ payload, given = some payload⟩,
    ⟨.noDocument, ∃ d, m.editor.document = some d⟩,
    ⟨.noSelection, ∃ s, m.editor.selection = some s⟩,
    ⟨.emptySelection, ∃ s, m.editor.selection = some s ∧ s.isEmpty = false⟩,
    ⟨.noProviders, ∃ d, m.editor.document = some d ∧ m.registry.Serves d .copyData⟩]

/-- What a paste needs, in the order in which it is looked at. A handle that is still to be read
does not count. -/
def pasteNeeds (m : Coordinator) (given : Option Payload) : List Need :=
  [⟨.noDocument, ∃ d, m.editor.document = some d⟩,
    ⟨.noSelection, ∃ s, m.editor.selection = some s⟩,
    ⟨.noClipboardData, ∃ payload, given = some payload⟩,
    ⟨.noProviders, ∃ d, m.editor.document = some d ∧ m.registry.Serves d .pasteEdits⟩,
    ⟨.noCopyId, ∃ payload value, given = some payload ∧
      .string handleMime (.inline value) ∈ payload.items⟩]

/-- **The needs of a copy decide on it,** in their order. -/
theorem verdict_admitCopy (m : Coordinator) (given : Option Payload) :
    Verdict (m.copyNeeds given) (m.admitCopy given) := by
  unfold copyNeeds admitCopy
  cases given with
  | none => exact .refused (by simp)
  | some payload =>
      refine .goesOn ⟨payload, rfl⟩ ?_
      cases m.editor.document with
      | none => exact .refused (by simp)
      | some d =>
          refine .goesOn ⟨d, rfl⟩ ?_
          cases m.editor.selection with
          | none => exact .refused (by simp)
          | some s =>
              refine .goesOn ⟨s, rfl⟩ ?_
              refine .ofTest (by simp) fun _ => ?_
              exact .ofTest (by simp [m.registry.copiers_eq_nil_iff d]) fun _ => .granted _

/-- **The needs of a paste decide on it,** in their order. -/
theorem verdict_admitPaste (m : Coordinator) (given : Option Payload) :
    Verdict (m.pasteNeeds given) (m.admitPaste given) := by
  unfold pasteNeeds admitPaste
  cases m.editor.document with
  | none => exact .refused (by simp)
  | some d =>
      refine .goesOn ⟨d, rfl⟩ ?_
      cases m.editor.selection with
      | none => exact .refused (by simp)
      | some s =>
          refine .goesOn ⟨s, rfl⟩ ?_
          cases given with
          | none => exact .refused (by simp)
          | some payload =>
              refine .goesOn ⟨payload, rfl⟩ ?_
              refine .ofTest (by simp [m.registry.pasters_eq_nil_iff d]) fun _ => ?_
              have hread : (payload.get? handleMime).isSome = true ↔
                  ∃ value, .string handleMime (.inline value) ∈ payload.items :=
                Payload.isSome_get?_iff
              cases hhandle : payload.get? handleMime with
              | none => exact .refused (by simpa [hhandle] using hread)
              | some handle =>
                  obtain ⟨value, hvalue⟩ := hread.mp (by rw [hhandle]; rfl)
                  exact .goesOn ⟨payload, value, rfl, hvalue⟩ (.granted _)

/-! ## What an answer has changed -/

/-- Between the two states no provider has reported anything, no edit was asked for and nothing was
read; the editor and the registry are as they were. -/
structure Undisturbed (m m' : Coordinator) : Prop where
  editor : m'.editor = m.editor
  registry : m'.registry = m.registry
  config : m'.config = m.config
  log : m'.desk.log = m.desk.log
  deeds : m'.desk.deeds = m.desk.deeds
  reads : ∃ next, m'.desk.reads = { m.desk.reads with next }

/-- A copy has been started: its handle can be read from the payload, and nothing has come of its
providers yet. -/
structure CopyStarts (m m' : Coordinator) (event event' : ClipboardEvent) (fresh : Handle) :
    Prop where
  /-- One item was written, and the platform goes on with its own copy if it did before. -/
  written : ∃ payload payload', event.payload = some payload ∧
    payload.Wrote handleMime fresh.text payload' ∧
    event' = { event with payload := some payload' }
  reads : ∃ payload', event'.payload = some payload' ∧
    payload'.get? handleMime = some fresh.text
  others : event'.payload.map (·.others handleMime) = event.payload.map (·.others handleMime)
  pendingHandle : m'.pendingHandle? = some fresh
  /-- Every provider has all of its script before it. -/
  copies : ∃ d c, m.editor.document = some d ∧ m'.copies = m.copies ++ [c] ∧ c.handle = fresh ∧
    c.lanes.map (fun lane => (lane.provider, lane.script)) = m.registry.copiers d ∧
    ∀ lane ∈ c.lanes, lane.isRunning = true ∧ lane.begun = none
  pastes : m'.pastes = m.pastes
  undisturbed : Undisturbed m m'

/-- A paste has been taken over; it is held until it is run. -/
structure PasteTaken (m m' : Coordinator) (event event' : ClipboardEvent) (index : Nat) :
    Prop where
  prevented : event' = event.preventDefault
  held : ∃ p, m'.pastes = m.pastes ++ [p] ∧ p.stage = .held
  index : index = m.pastes.length
  pending : m'.pending = m.pending
  copies : m'.copies = m.copies
  ready : m'.ready = m.ready
  undisturbed : Undisturbed m m'

theorem handleCopy_of_error {m : Coordinator} {event : ClipboardEvent} {reason : DeclineReason}
    (h : m.admitCopy event.payload = .error reason) (fresh : Handle) :
    m.handleCopy event fresh = (.declined reason, event, m) := by
  unfold handleCopy copy
  rw [h]

theorem handlePaste_of_error {m : Coordinator} {event : ClipboardEvent} {reason : DeclineReason}
    (h : m.admitPaste event.payload = .error reason) :
    m.handlePaste event = (.declined reason, event, m) := by
  unfold handlePaste paste
  rw [h]

/-- A copy that is admitted starts. -/
theorem copyStarts_of_ok {m : Coordinator} {event : ClipboardEvent}
    {works : Payload × Document × Selection × List (String × CopyScript)}
    (h : m.admitCopy event.payload = .ok works) (fresh : Handle) :
    ∃ event' m', m.handleCopy event fresh = (.started fresh, event', m') ∧
      CopyStarts m m' event event' fresh := by
  obtain ⟨payload, d, s, providers⟩ := works
  obtain ⟨hgiven, hdocument, -, -, rfl, -⟩ := admitCopy_ok h
  obtain ⟨transfer, htransfer⟩ : ∃ t, t = Transfer.ofPayload payload m.desk.reads := ⟨_, rfl⟩
  obtain ⟨next, hreads⟩ := Transfer.reads_ofPayload payload m.desk.reads
  have hwrote := payload.wrote_set handleMime fresh.text
  obtain ⟨c, hc⟩ : ∃ c, c = m.newCopy fresh d s (transfer.1.delete handleMime)
    (m.registry.copiers d) := ⟨_, rfl⟩
  have hidle : ∀ lane ∈ c.lanes, lane.isRunning = true ∧ lane.begun = none := by
    intro lane hlane
    rw [hc] at hlane
    obtain ⟨provider, -, rfl⟩ := List.mem_map.mp hlane
    exact ⟨rfl, rfl⟩
  obtain ⟨ready, hwake⟩ := exists_wake
    { m with
      desk := { m.desk with reads := transfer.2 }
      copies := m.copies ++ [c]
      pending := some m.copies.length } (.copy m.copies.length)
  have hanswer : m.handleCopy event fresh = (.started fresh,
      { event with payload := some (payload.set handleMime fresh.text) },
      { m with
        desk := { m.desk with reads := transfer.2 }
        copies := m.copies ++ [c]
        pending := some m.copies.length
        ready }) := by
    unfold handleCopy copy
    rw [h]
    subst hc htransfer
    exact congrArg (fun m' => (_, _, m')) hwake
  refine ⟨_, _, hanswer,
    { written := ⟨payload, _, hgiven, hwrote, rfl⟩
      reads := ⟨_, rfl, hwrote.get?⟩
      others := by rw [hgiven, Option.map_some, Option.map_some, hwrote.others]
      pendingHandle := ?_
      copies := ⟨d, c, hdocument, rfl, by rw [hc]; rfl, ?_, hidle⟩
      pastes := rfl
      undisturbed := ⟨rfl, rfl, rfl, rfl, rfl, next, htransfer ▸ hreads⟩ }⟩
  · simp [pendingHandle?, pendingCopy?, hc, newCopy]
  · simp [hc, newCopy, Function.comp_def]

/-- A paste that is admitted is taken over. -/
theorem pasteTaken_of_ok {m : Coordinator} {event : ClipboardEvent}
    {works : Payload × Document × Selection × List (String × PasteScript) × String}
    (h : m.admitPaste event.payload = .ok works) :
    ∃ event' m', m.handlePaste event = (.taken m.pastes.length, event', m') ∧
      PasteTaken m m' event event' m.pastes.length := by
  obtain ⟨payload, d, s, providers, handle⟩ := works
  obtain ⟨next, hreads⟩ := Transfer.reads_ofPayload payload m.desk.reads
  have hanswer : m.handlePaste event = (.taken m.pastes.length, event.preventDefault,
      { m with
        desk := { m.desk with reads := (Transfer.ofPayload payload m.desk.reads).2 }
        pastes := m.pastes ++ [m.newPaste handle d s
          (Transfer.ofPayload payload m.desk.reads).1 providers event.cancelled] }) := by
    unfold handlePaste paste
    rw [h]
  exact ⟨_, _, hanswer,
    { prevented := rfl
      held := ⟨_, rfl, rfl⟩
      index := rfl
      pending := rfl
      copies := rfl
      ready := rfl
      undisturbed := ⟨rfl, rfl, rfl, rfl, rfl, next, hreads⟩ }⟩

/-! ## Answers -/

/-- The answer to a copy event is right. -/
structure CopyAnswered (m : Coordinator) (event : ClipboardEvent) (fresh : Handle)
    (answer : CopyOutcome × ClipboardEvent × Coordinator) : Prop where
  starts : (∃ handle, answer.1 = .started handle) ↔ AllMet (m.copyNeeds event.payload)
  declines : ∀ reason, answer.1 = .declined reason ↔
    FirstUnmet (m.copyNeeds event.payload) reason
  ofDeclined : ∀ reason, answer.1 = .declined reason → answer.2 = (event, m)
  ofStarted : ∀ handle, answer.1 = .started handle →
    handle = fresh ∧ CopyStarts m answer.2.2 event answer.2.1 fresh

/-- The answer to a paste event is right. -/
structure PasteAnswered (m : Coordinator) (event : ClipboardEvent)
    (answer : PasteDecision × ClipboardEvent × Coordinator) : Prop where
  takes : (∃ index, answer.1 = .taken index) ↔ AllMet (m.pasteNeeds event.payload)
  declines : ∀ reason, answer.1 = .declined reason ↔
    FirstUnmet (m.pasteNeeds event.payload) reason
  ofDeclined : ∀ reason, answer.1 = .declined reason → answer.2 = (event, m)
  ofTaken : ∀ index, answer.1 = .taken index → PasteTaken m answer.2.2 event answer.2.1 index

theorem copyAnswered_handleCopy (m : Coordinator) (event : ClipboardEvent) (fresh : Handle) :
    CopyAnswered m event fresh (m.handleCopy event fresh) := by
  have hverdict := m.verdict_admitCopy event.payload
  cases hadmission : m.admitCopy event.payload with
  | error reason =>
      rw [hadmission] at hverdict
      rw [handleCopy_of_error hadmission fresh]
      exact
        { starts := by simpa using hverdict.ok_iff
          declines := fun r => by simpa using hverdict.error_iff r
          ofDeclined := fun _ _ => rfl
          ofStarted := fun _ hstarted => absurd hstarted (by simp) }
  | ok works =>
      rw [hadmission] at hverdict
      obtain ⟨event', m', hanswer, hstarts⟩ := copyStarts_of_ok hadmission fresh
      rw [hanswer]
      exact
        { starts := by simpa using hverdict.ok_iff
          declines := fun r => by simpa using hverdict.error_iff r
          ofDeclined := fun _ hdeclined => absurd hdeclined (by simp)
          ofStarted := fun _ hstarted => ⟨(CopyOutcome.started.inj hstarted).symm, hstarts⟩ }

theorem pasteAnswered_handlePaste (m : Coordinator) (event : ClipboardEvent) :
    PasteAnswered m event (m.handlePaste event) := by
  have hverdict := m.verdict_admitPaste event.payload
  cases hadmission : m.admitPaste event.payload with
  | error reason =>
      rw [hadmission] at hverdict
      rw [handlePaste_of_error hadmission]
      exact
        { takes := by simpa using hverdict.ok_iff
          declines := fun r => by simpa using hverdict.error_iff r
          ofDeclined := fun _ _ => rfl
          ofTaken := fun _ htaken => absurd htaken (by simp) }
  | ok works =>
      rw [hadmission] at hverdict
      obtain ⟨event', m', hanswer, htaken⟩ := pasteTaken_of_ok hadmission
      rw [hanswer]
      exact
        { takes := by simpa using hverdict.ok_iff
          declines := fun r => by simpa using hverdict.error_iff r
          ofDeclined := fun _ hdeclined => absurd hdeclined (by simp)
          ofTaken := fun _ hindex => PasteDecision.taken.inj hindex ▸ htaken }

/-- **Every answer to a clipboard event,** in whatever state it comes: the event is declined for
the first of its needs that is missing, and then nothing has changed; otherwise the copy has
written its handle and started, or the paste is taken over, and no provider has been called. -/
theorem clipboard_events_spec (m : Coordinator) (event : ClipboardEvent) (fresh : Handle) :
    CopyAnswered m event fresh (m.handleCopy event fresh) ∧
      PasteAnswered m event (m.handlePaste event) :=
  ⟨m.copyAnswered_handleCopy event fresh, m.pasteAnswered_handlePaste event⟩

/-- Where everything is missing, a copy misses the payload and a paste the document. -/
example : (({} : Coordinator).handleCopy {} ⟨0⟩).1 = .declined .noClipboardData ∧
    (({} : Coordinator).handlePaste {}).1 = .declined .noDocument := by
  decide

end Coordinator

end CopyPaste

import CopyPaste.Proofs.Coordinator.Soundness

/-!
# The course of a copy and of a paste

What single steps keep, whole histories keep. A copy never changes what it was started with, and
once it has a result it keeps it. A paste runs through three phases: until it begins to ask its
transfer is what the payload held, while it asks its transfer stays the same, and when it is
over nothing more comes of it.

* **`copy_after`**, **`paste_after`** — what every step keeps of one of them;
* **`result_after`** — results are final;
* **`undecided_or_begins`** — the one turn in which a paste begins to ask.
-/

namespace CopyPaste

/-! ## Copies -/

namespace CopyRun

/-- What is fixed when a copy starts. -/
def origin (c : CopyRun) : CopyRun :=
  { c with lanes := [], cancelled := false, result := none, seats := {} }

theorem origin_poll (c : CopyRun) (index : Nat) (desk : Desk) :
    (c.poll index desk).1.origin = c.origin := by
  unfold poll
  split <;> rfl

theorem cancelled_poll (c : CopyRun) (index : Nat) (desk : Desk) :
    (c.poll index desk).1.cancelled = c.cancelled := by
  unfold poll
  split <;> rfl

theorem poll_of_result {c : CopyRun} (h : c.result.isSome = true) (index : Nat) (desk : Desk) :
    c.poll index desk = (c, desk) := by
  unfold poll
  rw [if_pos h]

end CopyRun

namespace Coordinator

theorem CopyStep.origin {m : Coordinator} {e : Event} {i : Nat} {c c' : CopyRun}
    (h : CopyStep m e i c c') : c'.origin = c.origin := by
  cases h with
  | polls he hhead => exact c.origin_poll i m.desk
  | _ => rfl

/-- A result is final. -/
theorem CopyStep.result {m : Coordinator} {e : Event} {i : Nat} {c c' : CopyRun}
    (h : CopyStep m e i c c') {r : Option Transfer} (hr : c.result = some r) :
    c'.result = some r := by
  cases h with
  | polls he hhead =>
      rw [CopyRun.poll_of_result (by rw [hr]; rfl)]
      exact hr
  | _ => exact hr

/-- **What every step keeps of a copy is kept by every history.** -/
theorem copy_after {P : CopyRun → Prop} {i : Nat}
    (hstep : ∀ {m : Coordinator} {e : Event} {c c' : CopyRun}, CopyStep m e i c c' → P c → P c')
    {m : Coordinator} {c : CopyRun} (hc : m.copies[i]? = some c) (h : P c)
    (history : List Event) : ∃ c', (m.after history).copies[i]? = some c' ∧ P c' := by
  induction history generalizing m c with
  | nil => exact ⟨c, hc, h⟩
  | cons e history ih =>
      obtain ⟨d, hd, hcd⟩ := copyStep_handle hc e
      exact ih hd (hstep hcd h)

/-- **Results are final.** -/
theorem result_after {m : Coordinator} {copy : Option Nat} {r : Option Transfer}
    (h : m.result? copy = some r) (history : List Event) :
    (m.after history).result? copy = some r := by
  obtain ⟨i, rfl, hi⟩ := Option.bind_eq_some_iff.mp h
  obtain ⟨c, hc, hr⟩ := Option.bind_eq_some_iff.mp hi
  obtain ⟨c', hc', hr'⟩ := copy_after (P := fun c => c.result = some r)
    (fun hstep hr => hstep.result hr) hc hr history
  unfold result?
  rw [Option.bind_some, hc', Option.bind_some, hr']

/-! ## Pastes -/

/-- **What every step keeps of a paste and its records is kept by every history.** -/
theorem paste_after {P : PasteRun → Desk → Prop} {i : Nat}
    (hstep : ∀ {m : Coordinator} {e : Event} {p p' : PasteRun} {desk : Desk},
      PasteStep m e i p p' desk → P p m.desk → P p' desk)
    {m : Coordinator} {p : PasteRun} (hp : m.pastes[i]? = some p) (h : P p m.desk)
    (history : List Event) :
    ∃ p', (m.after history).pastes[i]? = some p' ∧ P p' (m.after history).desk := by
  induction history generalizing m p with
  | nil => exact ⟨p, hp, h⟩
  | cons e history ih =>
      obtain ⟨q, hq, hpq⟩ := pasteStep_handle hp e
      exact ih hq (hstep hpq h)

variable {m : Coordinator} {e : Event} {i : Nat} {p p' : PasteRun} {desk : Desk}

theorem PasteStep.origin (h : PasteStep m e i p p' desk) : p'.origin = p.origin := by
  cases h with
  | polls he hhead => exact (p.polled_poll i (m.result? p.copy) m.desk).origin
  | _ => rfl

theorem PasteStep.cancelled (h : PasteStep m e i p p' desk) (hc : p.cancelled = true) :
    p'.cancelled = true := by
  cases h with
  | still desk hrecords => exact hc
  | queues desk hstage hrecords => exact hc
  | cancels desk he hrecords => rfl
  | polls he hhead => exact (p.polled_poll i (m.result? p.copy) m.desk).cancelled hc

/-- Nothing more comes of a paste that is over. -/
theorem PasteStep.over (h : PasteStep m e i p p' desk) (hover : p.stage.isOver = true) :
    p'.stage = p.stage ∧ SameRecords (.paste i) m.desk desk := by
  cases h with
  | still desk hrecords => exact ⟨rfl, hrecords⟩
  | queues desk hstage hrecords =>
      rw [hstage] at hover
      simp [PasteStage.isOver] at hover
  | cancels desk he hrecords => exact ⟨rfl, hrecords⟩
  | polls he hhead =>
      rw [PasteRun.poll_of_isOver hover]
      exact ⟨rfl, rfl, rfl⟩

/-- A paste that has begun to ask works on the same transfer to its end. -/
theorem PasteStep.decided (h : PasteStep m e i p p' desk) (hd : p.stage.isUndecided = false) :
    p'.stage.isUndecided = false ∧ p'.transfer = p.transfer := by
  cases h with
  | still desk hrecords => exact ⟨hd, rfl⟩
  | queues desk hstage hrecords =>
      rw [hstage] at hd
      simp [PasteStage.isUndecided] at hd
  | cancels desk he hrecords => exact ⟨hd, rfl⟩
  | polls he hhead =>
      have hpolled := p.polled_poll i (m.result? p.copy) m.desk
      generalize p.poll i (m.result? p.copy) m.desk = out at hpolled ⊢
      cases hpolled with
      | idle hstage => exact ⟨hd, rfl⟩
      | waits since hsince hc hresult hlimit =>
          simp [PasteRun.isUndecided_of_waitsSince? hsince] at hd
      | stops since hsince hc => simp [PasteRun.isUndecided_of_waitsSince? hsince] at hd
      | asks since copied hsince hsupplied =>
          simp [PasteRun.isUndecided_of_waitsSince? hsince] at hd
      | resumes provider script since rest hstage =>
          obtain ⟨asked, deeds, hprogress⟩ :=
            p.progress_resumes (.paste i) provider script since rest m.desk
          exact ⟨hprogress.decided, rfl⟩
      | fallsBack hstage =>
          obtain ⟨deeds, hprogress⟩ := p.progress_fallBack (.paste i) p.cancelled m.desk
          exact ⟨hprogress.decided, rfl⟩

/-- A paste that has not begun to ask holds what it was taken over with, until a turn in which
it begins to ask or stops. -/
theorem PasteStep.undecided (h : PasteStep m e i p p' desk) (hu : p.stage.isUndecided = true) :
    p'.stage.isUndecided = true ∧ p'.transfer = p.transfer ∨
      e = .turn ∧ m.ready.head? = some (.paste i) ∧ p'.stage.isUndecided = false ∧
        (p', desk) = p.poll i (m.result? p.copy) m.desk := by
  cases h with
  | still desk hrecords => exact .inl ⟨hu, rfl⟩
  | queues desk hstage hrecords => exact .inl ⟨rfl, rfl⟩
  | cancels desk he hrecords => exact .inl ⟨hu, rfl⟩
  | polls he hhead =>
      have hpolled := p.polled_poll i (m.result? p.copy) m.desk
      generalize p.poll i (m.result? p.copy) m.desk = out at hpolled ⊢
      cases hpolled with
      | idle hstage => exact .inl ⟨hu, rfl⟩
      | waits since hsince hc hresult hlimit => exact .inl ⟨rfl, rfl⟩
      | stops since hsince hc => exact .inr ⟨he, hhead, rfl, rfl⟩
      | asks since copied hsince hsupplied =>
          exact .inr ⟨he, hhead, p.decided_askAll _ copied m.desk, rfl⟩
      | resumes provider script since rest hstage =>
          rw [hstage] at hu
          simp [PasteStage.isUndecided] at hu
      | fallsBack hstage =>
          rw [hstage] at hu
          simp [PasteStage.isUndecided] at hu

/-! ## Whole courses -/

theorem exists_payload_of_taken {m taken : Coordinator} {given : Option Payload}
    {cancelled : Bool} {i : Nat} (h : m.paste given cancelled = (.taken i, taken)) :
    ∃ payload, given = some payload := by
  obtain ⟨-, payload, document, selection, providers, handle, hworks, -⟩ :=
    paste_taken (congrArg Prod.fst h)
  exact ⟨payload, (admitPaste_ok hworks).1⟩

theorem taken_paste {m taken : Coordinator} {payload : Payload} {cancelled : Bool} {i : Nat}
    (h : m.paste (some payload) cancelled = (.taken i, taken)) : ∃ p,
      taken.pastes[i]? = some p ∧ p.stage = .held ∧ p.cancelled = cancelled ∧
      p.copy = (payload.get? handleMime).bind m.correlate? ∧
      p.limit = m.config.copyWaitTimeout ∧
      p.transfer = (Transfer.ofPayload payload m.desk.reads).1 := by
  obtain ⟨rfl, given, document, selection, providers, handle, hworks, hafter⟩ :=
    paste_taken (congrArg Prod.fst h)
  obtain ⟨hpayload, -, -, -, -, hhandle⟩ := admitPaste_ok hworks
  obtain rfl := Option.some.inj hpayload
  obtain rfl : (m.paste (some payload) cancelled).2 = taken := congrArg Prod.snd h
  rw [hafter, hhandle]
  exact ⟨_, List.getElem?_concat_length, rfl, rfl, rfl, rfl, rfl⟩

theorem after_split (m : Coordinator) (early : List Event) (e : Event) (late : List Event) :
    m.after (early ++ e :: late) = (m.after (early ++ [e])).after late := by
  rw [← after_append, List.append_assoc]
  rfl

/-- The turn that follows the history `early` is the one in which a paste begins to ask or stops;
`p` is the paste just before that turn. -/
structure Begins (m : Coordinator) (i : Nat) (early : List Event) (p : PasteRun) : Prop where
  paste : (m.after early).pastes[i]? = some p
  undecided : p.stage.isUndecided = true
  next : (m.after early).ready.head? = some (.paste i)
  begun : (p.poll i ((m.after early).result? p.copy) (m.after early).desk).1.stage.isUndecided =
    false
  after : (m.after (early ++ [.turn])).pastes[i]? =
    some (p.poll i ((m.after early).result? p.copy) (m.after early).desk).1
  desk : (m.after (early ++ [.turn])).desk =
    (p.poll i ((m.after early).result? p.copy) (m.after early).desk).2

theorem Begins.cons {m : Coordinator} {e : Event} {i : Nat} {early : List Event} {p : PasteRun}
    (h : Begins (m.handle e) i early p) : Begins m i (e :: early) p :=
  ⟨h.paste, h.undecided, h.next, h.begun, h.after, h.desk⟩

/-- **A paste begins to ask in one turn,** with what it was taken over with. -/
theorem undecided_or_begins {m : Coordinator} {i : Nat} {p : PasteRun}
    (hp : m.pastes[i]? = some p) (hu : p.stage.isUndecided = true) (later : List Event) :
    (∃ p', (m.after later).pastes[i]? = some p' ∧ p'.stage.isUndecided = true) ∨
      ∃ early late q, later = early ++ .turn :: late ∧ Begins m i early q ∧
        q.origin = p.origin ∧ q.transfer = p.transfer := by
  -- the first turn that decides about the paste splits the history
  induction later generalizing m p with
  | nil => exact .inl ⟨p, hp, hu⟩
  | cons e later ih =>
      obtain ⟨p', hp', hstep⟩ := pasteStep_handle hp e
      obtain ⟨hu', htransfer⟩ | ⟨rfl, hhead, hd, hpoll⟩ := hstep.undecided hu
      · obtain h | ⟨early, late, q, rfl, hbegins, horigin, hq⟩ := ih hp' hu'
        · exact .inl h
        · exact .inr ⟨e :: early, late, q, rfl, hbegins.cons, horigin.trans hstep.origin,
            hq.trans htransfer⟩
      · obtain ⟨rfl, hdesk⟩ := Prod.mk.inj hpoll
        exact .inr ⟨[], later, p, rfl, ⟨hp, hu, hhead, hd, hp', hdesk⟩, rfl, rfl⟩

theorem over_after {m : Coordinator} {i : Nat} {p : PasteRun} (hp : m.pastes[i]? = some p)
    (hover : p.stage.isOver = true) (history : List Event) :
    ∃ p', (m.after history).pastes[i]? = some p' ∧ p'.stage = p.stage ∧
      SameRecords (.paste i) m.desk (m.after history).desk := by
  refine paste_after (P := fun q desk => q.stage = p.stage ∧ SameRecords (.paste i) m.desk desk)
    ?_ hp ⟨rfl, rfl, rfl⟩ history
  rintro m' e q q' desk hstep ⟨hstage, hquestions, hdeeds⟩
  obtain ⟨hstage', hquestions', hdeeds'⟩ := hstep.over (by rw [hstage]; exact hover)
  exact ⟨hstage'.trans hstage, hquestions'.trans hquestions, hdeeds'.trans hdeeds⟩

theorem decided_after {m : Coordinator} {i : Nat} {p : PasteRun} (hp : m.pastes[i]? = some p)
    (hd : p.stage.isUndecided = false) (history : List Event) :
    ∃ p', (m.after history).pastes[i]? = some p' ∧ p'.stage.isUndecided = false ∧
      p'.transfer = p.transfer := by
  refine paste_after (P := fun q _ => q.stage.isUndecided = false ∧ q.transfer = p.transfer)
    ?_ hp ⟨hd, rfl⟩ history
  rintro m' e q q' desk hstep ⟨hstage, htransfer⟩
  obtain ⟨hd', htransfer'⟩ := hstep.decided hstage
  exact ⟨hd', htransfer'.trans htransfer⟩

theorem origin_after {m : Coordinator} {i : Nat} {p : PasteRun} (hp : m.pastes[i]? = some p)
    (history : List Event) :
    ∃ p', (m.after history).pastes[i]? = some p' ∧ p'.origin = p.origin :=
  paste_after (P := fun q _ => q.origin = p.origin)
    (fun hstep horigin => hstep.origin.trans horigin) hp rfl history

/-- A paste that has not begun to ask holds what it held before. -/
theorem transfer_of_undecided {m : Coordinator} {i : Nat} {p q : PasteRun}
    (hp : m.pastes[i]? = some p) (history : List Event)
    (hq : (m.after history).pastes[i]? = some q) (hu : q.stage.isUndecided = true) :
    q.transfer = p.transfer := by
  obtain ⟨q', hq', htransfer⟩ := paste_after
    (P := fun q _ => q.stage.isUndecided = true → q.transfer = p.transfer)
    (fun {m' e q q' desk} hstep h hu' => by
      cases hd : q.stage.isUndecided with
      | false =>
          rw [(hstep.decided hd).1] at hu'
          exact absurd hu' Bool.false_ne_true
      | true =>
          obtain ⟨-, ht⟩ | ⟨-, -, hd', -⟩ := hstep.undecided hd
          · exact ht.trans (h hd)
          · rw [hd'] at hu'
            exact absurd hu' Bool.false_ne_true)
    hp (fun _ => rfl) history
  obtain rfl : q = q' := Option.some.inj (hq.symm.trans hq')
  exact htransfer hu

/-- What a paste is supplied with is what its copy has come to. -/
theorem copied_of_supplied {m : Coordinator} {p : PasteRun} {since now : Nat}
    {copied : Option Transfer} (h : p.Supplied (m.result? p.copy) since now copied) :
    copied = (m.result? p.copy).join := by
  rcases h with ⟨hcopy, rfl⟩ | ⟨-, hresult | ⟨hresult, rfl, -⟩⟩
  · rw [hcopy]
    rfl
  · rw [hresult]
    rfl
  · rw [hresult]
    rfl

/-- The turn in which a paste begins to ask or stops: it stops if it is cancelled, or it asks
with what its copy has come to. -/
theorem Begins.cases {m : Coordinator} {i : Nat} {early : List Event} {p : PasteRun}
    (h : Begins m i early p) :
    p.cancelled = true ∧
        p.poll i ((m.after early).result? p.copy) (m.after early).desk =
          ({ p with stage := .ended (.ok .cancelled) }, (m.after early).desk) ∨
      ∃ since, p.waitsSince? (m.after early).desk.now = some since ∧
        p.Supplied ((m.after early).result? p.copy) since (m.after early).desk.now
          ((m.after early).result? p.copy).join ∧
        p.poll i ((m.after early).result? p.copy) (m.after early).desk =
          p.askAll (.paste i) ((m.after early).result? p.copy).join (m.after early).desk := by
  have hbegun := h.begun
  have hpolled := p.polled_poll i ((m.after early).result? p.copy) (m.after early).desk
  generalize p.poll i ((m.after early).result? p.copy) (m.after early).desk = out at *
  cases hpolled with
  | idle hstage =>
      rw [h.undecided] at hbegun
      exact absurd hbegun.symm Bool.false_ne_true
  | waits since hsince hc hresult hlimit => simp [PasteStage.isUndecided] at hbegun
  | stops since hsince hc => exact .inl ⟨hc, rfl⟩
  | asks since copied hsince hsupplied =>
      obtain rfl := copied_of_supplied hsupplied
      exact .inr ⟨since, hsince, hsupplied, rfl⟩
  | resumes provider script since rest hstage =>
      have hu := h.undecided
      rw [hstage] at hu
      simp [PasteStage.isUndecided] at hu
  | fallsBack hstage =>
      have hu := h.undecided
      rw [hstage] at hu
      simp [PasteStage.isUndecided] at hu

/-- **A paste that begins to ask is supplied with what its copy has come to by then,** and works
on the transfer made of it to its end. -/
theorem Begins.asks {m : Coordinator} {i : Nat} {early : List Event} {p : PasteRun}
    (h : Begins m i early p) (hcancelled : p.cancelled = false) (late : List Event) :
    (∃ since, p.waitsSince? (m.after early).desk.now = some since ∧
      p.Supplied ((m.after early).result? p.copy) since (m.after early).desk.now
        ((m.after early).result? p.copy).join) ∧
    ∃ p', (m.after (early ++ .turn :: late)).pastes[i]? = some p' ∧
      p'.stage.isUndecided = false ∧
      p'.transfer = (p.supply ((m.after early).result? p.copy).join).transfer := by
  obtain ⟨hc, -⟩ | ⟨since, hsince, hsupplied, hpoll⟩ := h.cases
  · rw [hcancelled] at hc
    exact absurd hc Bool.false_ne_true
  · obtain ⟨p', hp', hd, htransfer⟩ := decided_after h.after h.begun late
    rw [hpoll] at htransfer
    rw [after_split]
    exact ⟨⟨since, hsince, hsupplied⟩, p', hp', hd, htransfer⟩

/-- A paste that is cancelled when it would begin to ask never asks anybody. -/
theorem Begins.stops {m : Coordinator} (hm : m.Sound) {i : Nat} {early : List Event}
    {p : PasteRun} (h : Begins m i early p) (hcancelled : p.cancelled = true)
    (late : List Event) : (m.after (early ++ .turn :: late)).desk.questions (.paste i) = [] := by
  have hsound := (hm.after early).pastes i p h.paste
  have hover : (p.poll i ((m.after early).result? p.copy)
      (m.after early).desk).1.stage.isOver = true := by
    obtain ⟨-, hpoll⟩ | ⟨since, -, -, hpoll⟩ := h.cases
    · rw [hpoll]
      rfl
    · rw [hpoll, PasteRun.askAll_of_cancelled hcancelled hsound.providers]
      rfl
  obtain ⟨p', -, -, hquestions, -⟩ := over_after h.after hover late
  rw [after_split, hquestions, h.desk, (p.polled_poll i _ _).questions_of_cancelled hcancelled]
  exact (hsound.fresh h.undecided).1

end Coordinator

end CopyPaste

import CopyPaste.Proofs.Coordinator.Course
import CopyPaste.Proofs.Coordinator.Wakeups

/-!
# The race for the end of a wait

A paste that belongs to a copy looks at three things whenever it has a turn: whether it was
cancelled, whether the copy has come to a result, and whether its time is up. The first look at
which there is any of the three decides, and the order in which they are named here decides between
those that are there at once.

* `Look` — what there is to see at one turn;
* `WaitEnd.race?` — how a wait ends that looks once after the other;
* **`race?_eq_some_iff`** — the first look at which there is anything decides;
* `Coordinator.looks` — the looks of a paste in a history;
* **`raced_after`** — the paste does what the race comes to;
* **`fair_race`** — every correlated paste, after every history.
-/

namespace CopyPaste

/-! ## Looks -/

/-- What a paste that waits for its copy finds at one of its turns. -/
structure Look where
  cancelled : Bool
  /-- What the copy has come to, if it has. -/
  result : Option (Option Transfer)
  now : Nat

namespace Look

/-- How waiting since some time ends at a look, if it does. -/
def end? (l : Look) (limit : Option Nat) (since : Nat) : Option WaitEnd :=
  WaitEnd.now? l.cancelled l.result (hasExpired limit since l.now)

/-- There is nothing to see yet. -/
structure Idle (l : Look) (limit : Option Nat) (since : Nat) : Prop where
  going : l.cancelled = false
  outstanding : l.result = none
  inTime : ∀ ms, limit = some ms → l.now < since + ms

variable {l : Look} {limit : Option Nat} {since : Nat}

theorem hasExpired_eq_false_iff {now : Nat} :
    hasExpired limit since now = false ↔ ∀ ms, limit = some ms → now < since + ms := by
  cases limit <;> simp [hasExpired]

theorem end?_eq_cancelled_iff : l.end? limit since = some .cancelled ↔ l.cancelled = true := by
  unfold end? WaitEnd.now?
  cases l.cancelled <;> cases l.result <;> cases hasExpired limit since l.now <;> simp

theorem end?_eq_ready_iff {result : Option Transfer} :
    l.end? limit since = some (.ready result) ↔ l.cancelled = false ∧ l.result = some result := by
  unfold end? WaitEnd.now?
  cases l.cancelled <;> cases l.result <;> cases hasExpired limit since l.now <;> simp

theorem end?_eq_timedOut_iff : l.end? limit since = some .timedOut ↔
    l.cancelled = false ∧ l.result = none ∧ hasExpired limit since l.now = true := by
  unfold end? WaitEnd.now?
  cases l.cancelled <;> cases l.result <;> cases hasExpired limit since l.now <;> simp

theorem end?_eq_none_iff : l.end? limit since = none ↔ l.Idle limit since := by
  have hnone : l.end? limit since = none ↔
      l.cancelled = false ∧ l.result = none ∧ hasExpired limit since l.now = false := by
    unfold end? WaitEnd.now?
    cases l.cancelled <;> cases l.result <;> cases hasExpired limit since l.now <;> simp
  rw [hnone, hasExpired_eq_false_iff]
  exact ⟨fun ⟨hc, hr, ht⟩ => ⟨hc, hr, ht⟩, fun ⟨hc, hr, ht⟩ => ⟨hc, hr, ht⟩⟩

end Look

/-! ## Schedules -/

/-- How a wait ends that looks once after the other, if it does. Its time counts from `began`, or
from its first look if it has not begun. -/
def WaitEnd.race? (limit : Option Nat) : Option Nat → List Look → Option WaitEnd
  | _, [] => none
  | began, l :: rest =>
    (l.end? limit (began.getD l.now)).or (race? limit (some (began.getD l.now)) rest)

/-- The first look of a wait at which there is anything to see. -/
structure Look.First (limit : Option Nat) (looks : List Look) (since : Nat) (l : Look) : Prop where
  began : looks.head?.map (·.now) = some since
  first : ∃ early late, looks = early ++ l :: late ∧ ∀ x ∈ early, x.Idle limit since
  busy : ¬ l.Idle limit since

namespace WaitEnd

open Look (First)

variable {limit : Option Nat} {looks : List Look} {e : WaitEnd}

theorem race?_some (limit : Option Nat) (since : Nat) (looks : List Look) :
    race? limit (some since) looks = looks.findSome? (·.end? limit since) := by
  induction looks with
  | nil => rfl
  | cons l rest ih =>
      rw [race?, Option.getD_some, ih, List.findSome?_cons]
      cases l.end? limit since <;> rfl

/-- The time of a wait counts from its first look. -/
theorem race?_none (limit : Option Nat) (first : Look) (rest : List Look) :
    race? limit none (first :: rest) = (first :: rest).findSome? (·.end? limit first.now) := by
  rw [race?, Option.getD_none, race?_some, List.findSome?_cons]
  cases first.end? limit first.now <;> rfl

/-- **The first look at which there is anything decides.** -/
theorem race?_eq_some_iff : race? limit none looks = some e ↔
    ∃ since l, First limit looks since l ∧ l.end? limit since = some e := by
  cases looks with
  | nil =>
      refine ⟨fun h => by simp [race?] at h, ?_⟩
      rintro ⟨since, l, ⟨hbegan, -, -⟩, -⟩
      simp at hbegan
  | cons first rest =>
      rw [race?_none, List.findSome?_eq_some_iff]
      constructor
      · rintro ⟨early, l, late, hsplit, hl, hearly⟩
        refine ⟨first.now, l, ⟨rfl, ⟨early, late, hsplit, ?_⟩, fun hidle => ?_⟩, hl⟩
        · exact fun x hx => Look.end?_eq_none_iff.mp (hearly x hx)
        · rw [Look.end?_eq_none_iff.mpr hidle] at hl
          simp at hl
      · rintro ⟨since, l, ⟨hbegan, ⟨early, late, hsplit, hearly⟩, -⟩, hl⟩
        obtain rfl : first.now = since := by simpa using hbegan
        exact ⟨early, l, late, hsplit, hl,
          fun x hx => Look.end?_eq_none_iff.mpr (hearly x hx)⟩

theorem race?_eq_none_iff : race? limit none looks = none ↔
    ∀ first ∈ looks.head?, ∀ l ∈ looks, l.Idle limit first.now := by
  cases looks with
  | nil => simp [race?]
  | cons first rest =>
      rw [race?_none, List.findSome?_eq_none_iff]
      simp only [Look.end?_eq_none_iff, List.head?_cons, Option.mem_some_iff, forall_eq']

/-- A look after the decision changes nothing. -/
theorem race?_append (h : race? limit none looks = some e) (more : List Look) :
    race? limit none (looks ++ more) = some e := by
  cases looks with
  | nil => simp [race?] at h
  | cons first rest =>
      rw [race?_none] at h
      rw [List.cons_append, race?_none, ← List.cons_append, List.findSome?_append, h]
      rfl

/-- The first look at which there is anything decides: cancellation comes first there, then the
result, then the end of the time. -/
structure Fair (limit : Option Nat) (looks : List Look) : Prop where
  goesOn : race? limit none looks = none ↔
    ∀ first ∈ looks.head?, ∀ l ∈ looks, l.Idle limit first.now
  cancelled : race? limit none looks = some .cancelled ↔
    ∃ since l, First limit looks since l ∧ l.cancelled = true
  ready : ∀ result, race? limit none looks = some (.ready result) ↔
    ∃ since l, First limit looks since l ∧ l.cancelled = false ∧ l.result = some result
  timedOut : race? limit none looks = some .timedOut ↔
    ∃ since l, First limit looks since l ∧ l.cancelled = false ∧ l.result = none
  /-- Without a limit there is no end of the time. -/
  unlimited : limit = none → race? limit none looks ≠ some .timedOut
  /-- What comes after the decision changes nothing. -/
  final : ∀ e more, race? limit none looks = some e → race? limit none (looks ++ more) = some e

/-- **How a wait ends on every schedule and with every limit.** -/
theorem race?_fair (limit : Option Nat) (looks : List Look) : Fair limit looks := by
  have htimedOut : race? limit none looks = some .timedOut ↔
      ∃ since l, First limit looks since l ∧ l.cancelled = false ∧ l.result = none := by
    simp only [race?_eq_some_iff, Look.end?_eq_timedOut_iff]
    constructor
    · rintro ⟨since, l, hfirst, hc, hr, -⟩
      exact ⟨since, l, hfirst, hc, hr⟩
    · rintro ⟨since, l, hfirst, hc, hr⟩
      -- there is something to see, and it can only be the end of the time
      refine ⟨since, l, hfirst, hc, hr, ?_⟩
      cases hexpired : hasExpired limit since l.now with
      | true => rfl
      | false =>
          exact absurd ⟨hc, hr, Look.hasExpired_eq_false_iff.mp hexpired⟩ hfirst.busy
  refine ⟨race?_eq_none_iff, ?_, fun result => ?_, htimedOut, ?_,
    fun e more h => race?_append h more⟩
  · simp only [race?_eq_some_iff, Look.end?_eq_cancelled_iff]
  · simp only [race?_eq_some_iff, Look.end?_eq_ready_iff]
  · rintro rfl h
    obtain ⟨since, l, hfirst, hc, hr⟩ := htimedOut.mp h
    exact hfirst.busy ⟨hc, hr, fun ms hms => by simp at hms⟩

end WaitEnd

/-! ## The turns of a paste -/

namespace PasteRun

/-- Since when a paste has been waiting for its copy. -/
def began? (p : PasteRun) : Option Nat :=
  match p.stage with
  | .waiting since => some since
  | _ => none

/-- What a paste does when it no longer waits for its copy. -/
def conclude (p : PasteRun) (task : Task) (desk : Desk) : WaitEnd → PasteRun × Desk
  | .cancelled => ({ p with stage := .ended (.ok .cancelled) }, desk)
  | .ready copied => p.askAll task copied desk
  | .timedOut => p.askAll task none desk

/-- **One look of a correlated paste.** -/
theorem poll_eq_look {p : PasteRun} (hcopy : p.copy.isSome = true)
    (hundecided : p.stage.isUndecided = true) (hrun : p.stage ≠ .held) (i : Nat)
    (result : Option (Option Transfer)) (desk : Desk) :
    p.poll i result desk =
      match (Look.mk p.cancelled result desk.now).end? p.limit (p.began?.getD desk.now) with
      | none => ({ p with stage := .waiting (p.began?.getD desk.now) }, desk)
      | some e => p.conclude (.paste i) desk e := by
  have hawait : ∀ since, p.await (.paste i) result since desk =
      match (Look.mk p.cancelled result desk.now).end? p.limit since with
      | none => ({ p with stage := .waiting since }, desk)
      | some e => p.conclude (.paste i) desk e := fun since => by
    unfold await Look.end?
    cases WaitEnd.now? p.cancelled result (hasExpired p.limit since desk.now) with
    | none => rfl
    | some e => cases e <;> rfl
  unfold poll began?
  cases hstage : p.stage with
  | held => exact absurd hstage hrun
  | queued =>
      refine Eq.trans ?_ (hawait desk.now)
      dsimp only
      cases hk : p.copy with
      | none => simp [hk] at hcopy
      | some k => rfl
  | waiting since => exact hawait since
  | _ => simp [hstage, PasteStage.isUndecided] at hundecided

end PasteRun

namespace Coordinator

/-- What a paste that was run finds if an event gives it a turn. -/
def look? (m : Coordinator) (i : Nat) : Event → Option Look
  | .turn =>
    if m.ready.head? = some (.paste i) then
      (m.pastes[i]?).bind fun p =>
        match p.stage with
        | .held => none
        | _ => some ⟨p.cancelled, m.result? p.copy, m.desk.now⟩
    else none
  | _ => none

/-- What a paste finds at its turns in a history. -/
def looks (i : Nat) : Coordinator → List Event → List Look
  | _, [] => []
  | m, e :: history => (m.look? i e).toList ++ looks i (m.handle e) history

/-- What a race that a paste takes part in comes to. `p` is the paste at the start. -/
inductive Raced (m : Coordinator) (i : Nat) (p : PasteRun) (later : List Event) :
    Option WaitEnd → Prop
  /-- The paste has not stopped waiting. -/
  | waits (q : PasteRun) (hq : (m.after later).pastes[i]? = some q)
      (hundecided : q.stage.isUndecided = true) (horigin : q.origin = p.origin)
      (htransfer : q.transfer = p.transfer)
      (hbegan : q.began? = p.began?.or ((m.looks i later).head?.map (·.now))) :
      Raced m i p later none
  /-- The paste stopped in the turn after `early`. -/
  | ends (early late : List Event) (q : PasteRun) (e : WaitEnd)
      (hlater : later = early ++ .turn :: late) (hbegins : Begins m i early q)
      (horigin : q.origin = p.origin) (htransfer : q.transfer = p.transfer)
      (hpoll : q.poll i ((m.after early).result? q.copy) (m.after early).desk =
        q.conclude (.paste i) (m.after early).desk e) :
      Raced m i p later (some e)

section Steps

variable {m : Coordinator} {e : Event} {i : Nat} {p p' : PasteRun} {desk : Desk}

/-- What a paste finds at its turn. -/
theorem look?_turn (hp : m.pastes[i]? = some p) (hhead : m.ready.head? = some (.paste i))
    (hrun : p.stage ≠ .held) :
    m.look? i .turn = some ⟨p.cancelled, m.result? p.copy, m.desk.now⟩ := by
  unfold look?
  rw [if_pos hhead, hp, Option.bind_some]
  cases hstage : p.stage with
  | held => exact absurd hstage hrun
  | _ => rfl

/-- Without a look nothing is decided, and since when the paste waits stays the same. -/
theorem PasteStep.undecided_of_look? (h : PasteStep m e i p p' desk)
    (hp : m.pastes[i]? = some p) (hundecided : p.stage.isUndecided = true)
    (hlook : m.look? i e = none) :
    p'.stage.isUndecided = true ∧ p'.transfer = p.transfer ∧ p'.began? = p.began? := by
  cases h with
  | still desk hrecords => exact ⟨hundecided, rfl, rfl⟩
  | queues desk hstage hrecords =>
      refine ⟨rfl, rfl, ?_⟩
      unfold PasteRun.began?
      rw [hstage]
  | cancels desk he hrecords => exact ⟨hundecided, rfl, rfl⟩
  | polls he hhead =>
      subst he
      by_cases hheld : p.stage = .held
      · have hpoll : p.poll i (m.result? p.copy) m.desk = (p, m.desk) := by
          unfold PasteRun.poll
          rw [hheld]
        rw [hpoll]
        exact ⟨hundecided, rfl, rfl⟩
      · rw [look?_turn hp hhead hheld] at hlook
        simp at hlook

/-- The turn of a paste, as the paste has it. -/
theorem paste_turn (hp : m.pastes[i]? = some p) (hhead : m.ready.head? = some (.paste i)) :
    (m.handle .turn).pastes[i]? = some (p.poll i (m.result? p.copy) m.desk).1 ∧
      (m.handle .turn).desk = (p.poll i (m.result? p.copy) m.desk).2 := by
  obtain ⟨rest, hready⟩ := List.head?_eq_some_iff.mp hhead
  obtain ⟨hlt, -⟩ := List.getElem?_eq_some_iff.mp hp
  have hresult : result? { m with ready := rest } p.copy = m.result? p.copy := rfl
  have hself := List.getElem?_set_self (a := (p.poll i (m.result? p.copy) m.desk).1) hlt
  have hmapped : ∀ f : Seats → Seats, ∀ m' : Coordinator,
      m'.pastes = m.pastes.set i (p.poll i (m.result? p.copy) m.desk).1 →
      m'.desk = (p.poll i (m.result? p.copy) m.desk).2 →
      (m'.mapSeats p.copy f).pastes[i]? = some (p.poll i (m.result? p.copy) m.desk).1 ∧
        (m'.mapSeats p.copy f).desk = (p.poll i (m.result? p.copy) m.desk).2 := by
    intro f m' hpastes hdesk
    obtain ⟨copies, hmap, -⟩ := m'.mapSeats_cases p.copy f
    rw [hmap]
    exact ⟨hpastes ▸ hself, hdesk⟩
  show m.pollNext.pastes[i]? = _ ∧ m.pollNext.desk = _
  unfold pollNext
  rw [hready]
  show (pollPaste { m with ready := rest } i).pastes[i]? = _ ∧
    (pollPaste { m with ready := rest } i).desk = _
  unfold pollPaste
  dsimp only
  rw [hp]
  dsimp only
  rw [hresult]
  split
  · exact hmapped _ _ rfl rfl
  · split
    · exact hmapped _ _ rfl rfl
    · exact ⟨hself, rfl⟩

/-- A look is taken in a turn of a paste that was run. -/
theorem turn_of_look? (hp : m.pastes[i]? = some p) {l : Look} (hlook : m.look? i e = some l) :
    e = .turn ∧ m.ready.head? = some (.paste i) ∧ p.stage ≠ .held ∧
      l = ⟨p.cancelled, m.result? p.copy, m.desk.now⟩ := by
  cases e with
  | turn =>
      unfold look? at hlook
      dsimp only at hlook
      split at hlook
      · rename_i hhead
        rw [hp, Option.bind_some] at hlook
        split at hlook
        · simp at hlook
        · rename_i hstage
          exact ⟨rfl, hhead, hstage, (Option.some.inj hlook).symm⟩
      · simp at hlook
  | _ => simp [look?] at hlook

end Steps

theorem Raced.cons {m : Coordinator} {e : Event} {i : Nat} {p p' : PasteRun} {later : List Event}
    {outcome : Option WaitEnd} (h : Raced (m.handle e) i p' later outcome)
    (horigin : p'.origin = p.origin) (htransfer : p'.transfer = p.transfer)
    (hbegan : p'.began?.or (((m.handle e).looks i later).head?.map (·.now)) =
      p.began?.or ((m.looks i (e :: later)).head?.map (·.now))) :
    Raced m i p (e :: later) outcome := by
  cases h with
  | waits q hq hundecided hqorigin hqtransfer hqbegan =>
      exact .waits q hq hundecided (hqorigin.trans horigin) (hqtransfer.trans htransfer)
        (hqbegan.trans hbegan)
  | ends early late q e' hlater hbegins hqorigin hqtransfer hpoll =>
      exact .ends (e :: early) late q e' (congrArg (e :: ·) hlater) hbegins.cons
        (hqorigin.trans horigin) (hqtransfer.trans htransfer) hpoll

/-- **A correlated paste does what the race comes to.** The induction is on the history; every look
that finds nothing leaves a paste that waits on. -/
theorem raced_after {m : Coordinator} {i : Nat} {p : PasteRun} (hp : m.pastes[i]? = some p)
    (hundecided : p.stage.isUndecided = true) (hcopy : p.copy.isSome = true)
    (later : List Event) :
    Raced m i p later (WaitEnd.race? p.limit p.began? (m.looks i later)) := by
  induction later generalizing m p with
  | nil => exact .waits p hp hundecided rfl rfl (by simp [looks])
  | cons e later ih =>
      obtain ⟨p', hp', hstep⟩ := pasteStep_handle hp e
      have horigin := hstep.origin
      have hcopy' : p'.copy = p.copy := (congrArg PasteRun.copy horigin :)
      have hlimit' : p'.limit = p.limit := (congrArg PasteRun.limit horigin :)
      cases hlook : m.look? i e with
      | none =>
          obtain ⟨hundecided', htransfer', hbegan'⟩ :=
            hstep.undecided_of_look? hp hundecided hlook
          have hlooks : m.looks i (e :: later) = (m.handle e).looks i later := by
            rw [looks, hlook]
            rfl
          have hraced := ih hp' hundecided' (by rw [hcopy']; exact hcopy)
          rw [hlimit', hbegan', ← hlooks] at hraced
          exact hraced.cons horigin htransfer' (by rw [hbegan', hlooks])
      | some l =>
          obtain ⟨rfl, hhead, hrun, hl⟩ := turn_of_look? hp hlook
          obtain ⟨hturn, hdesk⟩ := paste_turn hp hhead
          have hpoll := p.poll_eq_look hcopy hundecided hrun i (m.result? p.copy) m.desk
          have hnow : m.desk.now = l.now := by rw [hl]
          rw [← hl, hnow] at hpoll
          have hlooks : m.looks i (.turn :: later) = l :: (m.handle .turn).looks i later := by
            rw [looks, hlook]
            rfl
          rw [hlooks, WaitEnd.race?]
          cases hend : l.end? p.limit (p.began?.getD l.now) with
          | none =>
              rw [hend] at hpoll
              rw [hpoll] at hturn
              have hraced := ih hturn rfl hcopy
              refine hraced.cons rfl rfl ?_
              rw [hlooks]
              cases p.began? <;> rfl
          | some outcome =>
              rw [hend] at hpoll
              have hdecided : (p.conclude (.paste i) m.desk outcome).1.stage.isUndecided =
                  false := by
                cases outcome with
                | cancelled => rfl
                | ready copied => exact p.decided_askAll _ copied m.desk
                | timedOut => exact p.decided_askAll _ none m.desk
              exact .ends [] later p outcome rfl
                ⟨hp, hundecided, hhead, by rw [after_nil, hpoll]; exact hdecided, hturn, hdesk⟩
                rfl rfl hpoll

/-! ## Correlated pastes -/

/-- What a paste that has not stopped waiting has before it: a turn, unless there is nothing for it
to see. -/
theorem queued_or_idle {m : Coordinator} (hm : m.Reachable) {i : Nat} {q : PasteRun}
    (hq : m.pastes[i]? = some q) (hundecided : q.stage.isUndecided = true) {looks : List Look}
    (hbegan : q.began? = looks.head?.map (·.now)) :
    q.stage = .held ∨ .paste i ∈ m.ready ∨
      ∃ first ∈ looks.head?, q.stage = .waiting first.now ∧
        (Look.mk q.cancelled (m.result? q.copy) m.desk.now).Idle q.limit first.now := by
  have hawake := hm.attends.awake i q hq
  unfold PasteRun.isCalled at hawake
  unfold PasteRun.began? at hbegan
  cases hstage : q.stage with
  | held => exact .inl rfl
  | queued =>
      rw [hstage] at hawake
      exact .inr (.inl (hawake rfl))
  | waiting since =>
      rw [hstage] at hawake hbegan
      obtain ⟨first, hfirst, hnow⟩ := Option.map_eq_some_iff.mp hbegan.symm
      cases hend : (Look.mk q.cancelled (m.result? q.copy) m.desk.now).end? q.limit since with
      | none =>
          refine .inr (.inr ⟨first, hfirst, by rw [hnow], ?_⟩)
          rw [hnow]
          exact Look.end?_eq_none_iff.mp hend
      | some e => exact .inr (.inl (hawake (Option.isSome_of_eq_some hend)))
  | _ => simp [hstage, PasteStage.isUndecided] at hundecided

/-- **What a paste that stopped waiting works on,** whatever follows. -/
theorem Begins.works {m : Coordinator} (hm : m.Sound) {i : Nat} {early : List Event}
    {q : PasteRun} (h : Begins m i early q) {copied : Option Transfer}
    (hpoll : q.poll i ((m.after early).result? q.copy) (m.after early).desk =
      q.askAll (.paste i) copied (m.after early).desk) (late : List Event) :
    ∃ p, (m.after (early ++ .turn :: late)).pastes[i]? = some p ∧ p.origin = q.origin ∧
      p.stage.isUndecided = false ∧ p.transfer = (q.supply copied).transfer ∧
      ∀ question ∈ (m.after (early ++ .turn :: late)).desk.questions (.paste i),
        question.transfer = p.transfer := by
  obtain ⟨p, hp, hdecided, htransfer⟩ := decided_after h.after h.begun late
  obtain ⟨p', hp', horigin⟩ := origin_after h.after late
  obtain rfl : p = p' := Option.some.inj (hp.symm.trans hp')
  rw [hpoll] at htransfer
  rw [(q.polled_poll i _ _).origin] at horigin
  rw [after_split]
  refine ⟨p, hp, horigin, hdecided, htransfer, fun question hquestion => ?_⟩
  have hsound := ((hm.after (early ++ [.turn])).after late).pastes i p hp
  exact (hsound.subject hdecided question hquestion).2.2

/-- **A paste that was cancelled while it waited is over,** and nothing ever comes of it. -/
theorem Begins.stopped {m : Coordinator} (hm : m.Sound) {i : Nat} {early : List Event}
    {q : PasteRun} (h : Begins m i early q)
    (hpoll : q.poll i ((m.after early).result? q.copy) (m.after early).desk =
      ({ q with stage := .ended (.ok .cancelled) }, (m.after early).desk)) (late : List Event) :
    ∃ p, (m.after (early ++ .turn :: late)).pastes[i]? = some p ∧ p.origin = q.origin ∧
      p.stage = .ended (.ok .cancelled) ∧
      (m.after (early ++ .turn :: late)).desk.questions (.paste i) = [] ∧
      (m.after (early ++ .turn :: late)).desk.deedsOf (.paste i) = [] := by
  have hafter := h.after
  have hdesk := h.desk
  rw [hpoll] at hafter hdesk
  obtain ⟨p, hp, hstage, hquestions, hdeeds⟩ := over_after hafter rfl late
  obtain ⟨p', hp', horigin⟩ := origin_after hafter late
  obtain rfl : p = p' := Option.some.inj (hp.symm.trans hp')
  obtain ⟨hfresh, hfresh'⟩ := ((hm.after early).pastes i q h.paste).fresh h.undecided
  rw [after_split]
  rw [hdesk] at hquestions hdeeds
  exact ⟨p, hp, horigin, hstage, hquestions.trans hfresh, hdeeds.trans hfresh'⟩

/-- **The wait for a copy is a fair race.** On every schedule the first look at which there is
anything decides, and what comes later changes nothing. A correlated paste takes part in the race
at its turns, from the first on, and does what the race comes to: it goes on waiting, with a turn
in the queue whenever there is anything to see; it ends as cancelled before anybody is asked; or it
works on the payload, with the result of its copy merged in exactly if that is what ended the wait.
`later` leads from the paste event to any moment after it. -/
theorem fair_race {m taken : Coordinator} (hm : m.Reachable) {payload : Payload}
    {cancelled : Bool} {i : Nat} (htaken : m.paste (some payload) cancelled = (.taken i, taken))
    (hcorrelated : ((payload.get? handleMime).bind m.correlate?).isSome = true)
    (later : List Event) :
    (∀ limit looks, WaitEnd.Fair limit looks) ∧
    ∃ p, (taken.after later).pastes[i]? = some p ∧
      p.copy = (payload.get? handleMime).bind m.correlate? ∧
      let raw := (Transfer.ofPayload payload m.desk.reads).1
      let desk := (taken.after later).desk
      match WaitEnd.race? m.config.copyWaitTimeout none (taken.looks i later) with
      | none => p.stage.isUndecided = true ∧
        desk.questions (.paste i) = [] ∧ desk.deedsOf (.paste i) = [] ∧
        (p.stage = .held ∨ .paste i ∈ (taken.after later).ready ∨
          ∃ first ∈ (taken.looks i later).head?, p.stage = .waiting first.now ∧
            (Look.mk p.cancelled ((taken.after later).result? p.copy) desk.now).Idle
              m.config.copyWaitTimeout first.now)
      | some .cancelled => p.stage = .ended (.ok .cancelled) ∧
        desk.questions (.paste i) = [] ∧ desk.deedsOf (.paste i) = []
      | some (.ready copied) => p.stage.isUndecided = false ∧
        p.transfer = (copied.elim raw raw.merge).delete handleMime ∧
        ∀ question ∈ desk.questions (.paste i), question.transfer = p.transfer
      | some .timedOut => p.stage.isUndecided = false ∧
        p.transfer = raw.delete handleMime ∧
        ∀ question ∈ desk.questions (.paste i), question.transfer = p.transfer := by
  refine ⟨WaitEnd.race?_fair, ?_⟩
  have hsound := hm.sound_taken htaken
  have hreachable : taken.Reachable := by
    obtain rfl : m.handle (.paste (some payload) cancelled) = taken := congrArg Prod.snd htaken
    exact hm.after [.paste (some payload) cancelled]
  obtain ⟨p₀, hp₀, hheld, -, hcopy, hlimit, htransfer⟩ := taken_paste htaken
  have hbegan : p₀.began? = none := by
    unfold PasteRun.began?
    rw [hheld]
  have hraced := raced_after hp₀ (by rw [hheld]; rfl) (by rw [hcopy]; exact hcorrelated) later
  rw [hlimit, hbegan] at hraced
  generalize WaitEnd.race? m.config.copyWaitTimeout none (taken.looks i later) = outcome
    at hraced ⊢
  -- what was fixed when the paste was taken over
  have hfixed : ∀ q : PasteRun, q.origin = p₀.origin →
      q.copy = (payload.get? handleMime).bind m.correlate? ∧
        q.limit = m.config.copyWaitTimeout := fun q horigin =>
    ⟨(congrArg PasteRun.copy horigin :).trans hcopy,
      (congrArg PasteRun.limit horigin :).trans hlimit⟩
  cases hraced with
  | waits q hq hundecided horigin hqtransfer hqbegan =>
      obtain ⟨hqcopy, hqlimit⟩ := hfixed q horigin
      obtain ⟨hquestions, hdeeds⟩ := ((hsound.after later).pastes i q hq).fresh hundecided
      rw [hbegan, Option.none_or] at hqbegan
      have hqueued := queued_or_idle (hreachable.after later) hq hundecided hqbegan
      rw [hqlimit] at hqueued
      exact ⟨q, hq, hqcopy, hundecided, hquestions, hdeeds, hqueued⟩
  | ends early late q e hlater hbegins horigin hqtransfer hpoll =>
      obtain ⟨hqcopy, -⟩ := hfixed q horigin
      subst hlater
      cases e with
      | cancelled =>
          obtain ⟨p, hp, hporigin, hstage, hquestions, hdeeds⟩ :=
            hbegins.stopped hsound hpoll late
          exact ⟨p, hp, (congrArg PasteRun.copy hporigin :).trans hqcopy, hstage, hquestions,
            hdeeds⟩
      | ready copied =>
          obtain ⟨p, hp, hporigin, hdecided, hptransfer, hquestions⟩ :=
            hbegins.works hsound hpoll late
          refine ⟨p, hp, (congrArg PasteRun.copy hporigin :).trans hqcopy, hdecided, ?_,
            hquestions⟩
          rw [hptransfer, ← htransfer, ← hqtransfer]
          cases copied <;> rfl
      | timedOut =>
          obtain ⟨p, hp, hporigin, hdecided, hptransfer, hquestions⟩ :=
            hbegins.works hsound hpoll late
          refine ⟨p, hp, (congrArg PasteRun.copy hporigin :).trans hqcopy, hdecided, ?_,
            hquestions⟩
          rw [hptransfer, ← htransfer, ← hqtransfer]
          rfl

/-- A coordinator whose pastes wait for no time at all, with a copy done that replaced the plain
text. -/
def impatient : Coordinator :=
  ({ config := { copyWaitTimeout := some 0 } } : Coordinator).after
    [.openDocument { uri := "a", language := "l", text := "ab" }, .select ⟨0, 1⟩,
      .register .any { name := "p", copy := some [.set plainMime "new"], paste := some [] },
      .copy (some ⟨[.string plainMime (.inline "old")]⟩) ⟨0⟩, .turn]

/-- What the clipboard holds after the copy. -/
def handed : Payload :=
  ⟨[.string plainMime (.inline "old"), .string handleMime (.inline (Handle.mk 0).text)]⟩

/-- The result of the copy is there when the paste looks first, and so is the end of its time. The
result is what the paste works on. -/
theorem result_beats_expired_limit :
    let taken := (impatient.paste (some handed) false).2
    hasExpired impatient.config.copyWaitTimeout taken.desk.now taken.desk.now = true ∧
      ∃ copied p, WaitEnd.race? impatient.config.copyWaitTimeout none
          (taken.looks 0 [.run 0, .turn]) = some (.ready copied) ∧
        (taken.after [.run 0, .turn]).pastes[0]? = some p ∧
        p.transfer = (copied.elim (Transfer.ofPayload handed impatient.desk.reads).1
          (Transfer.ofPayload handed impatient.desk.reads).1.merge).delete handleMime := by
  intro taken
  have hreachable : impatient.Reachable := ⟨{ copyWaitTimeout := some 0 }, _, rfl⟩
  have htaken : impatient.paste (some handed) false = (.taken 0, taken) :=
    Prod.ext (by decide +kernel) rfl
  have hcorrelated : ((handed.get? handleMime).bind impatient.correlate?).isSome = true := by
    decide +kernel
  have hready : ((WaitEnd.race? impatient.config.copyWaitTimeout none
      (taken.looks 0 [.run 0, .turn])).any fun e => match e with
        | .ready _ => true
        | _ => false) = true := by
    decide +kernel
  obtain ⟨-, p, hp, -, hraced⟩ :=
    fair_race hreachable htaken hcorrelated [.run 0, .turn]
  obtain ⟨e, he, hready⟩ := (Option.any_eq_true _ _).mp hready
  dsimp only at hraced
  rw [he] at hraced ⊢
  cases e with
  | ready copied => exact ⟨by decide +kernel, copied, p, rfl, hp, hraced.2.1⟩
  | cancelled => simp at hready
  | timedOut => simp at hready

end Coordinator

end CopyPaste

import CopyPaste.Proofs.Coordinator.Course
import Mathlib.Data.List.ReduceOption

/-!
# Which copy a paste belongs to

Of everything that happens to a coordinator, copies that start and disposals alone decide which
copy is pending: it is the copy of the last of these events, if that was a copy. A paste belongs
to the pending copy if the payload spells its handle, and to no copy otherwise; and it stays with
that copy whatever happens later.

* `marks` — the copies started and the disposals in a history;
* **`pendingHandle?_after`** — the last of them tells the pending handle;
* `Obtains` — a paste obtains the result of its copy;
* **`result_unique`** — pastes of one copy obtain one result;
* **`correlation_spec`** — when a paste belongs to a copy, and what follows.
-/

namespace CopyPaste

/-- The handle that a payload spells: the first inline string under the reserved type, read as a
handle. -/
def Payload.handle? (p : Payload) : Option Handle := (p.get? handleMime).bind Handle.parse?

namespace Coordinator

/-! ## The pending copy -/

/-- What a history means for the pending copy: the handle for every copy that starts, and `none`
for every disposal. -/
def marks (m : Coordinator) : List Event → List (Option Handle)
  | [] => []
  | e :: history => (m.mark? e).toList ++ marks (m.handle e) history

theorem handle_of_origin {c c' : CopyRun} (h : c'.origin = c.origin) : c'.handle = c.handle :=
  (congrArg CopyRun.handle h :)

/-- One event: a mark decides, and everything else leaves the pending handle alone. -/
theorem pendingHandle?_handle {m : Coordinator} (hm : m.Sound) (e : Event) :
    (m.handle e).pendingHandle? = (m.mark? e).getD m.pendingHandle? := by
  unfold pendingHandle? pendingCopy?
  obtain ⟨-, hnohandle, hpending⟩ | ⟨document, selection, base, providers, fresh, hcopies, -,
    hmark, hpending⟩ := m.copies_born e
  · rw [hpending]
    cases hmark : m.mark? e with
    | some mark =>
        cases mark with
        | some handle => exact absurd hmark (hnohandle handle)
        | none => rfl
    | none =>
        cases hi : m.pending with
        | none => rfl
        | some i =>
            have hlt := hm.pending i hi
            obtain ⟨c', hc', hstep⟩ := copyStep_handle (List.getElem?_eq_getElem hlt) e
            simp [hc', List.getElem?_eq_getElem hlt, handle_of_origin hstep.origin]
  · rw [hpending, hcopies, hmark]
    simp [newCopy]

/-- **The last mark tells the pending handle.** -/
theorem pendingHandle?_after {m : Coordinator} (hm : m.Sound) (history : List Event) :
    (m.after history).pendingHandle? =
      (marks m history).getLast?.getD m.pendingHandle? := by
  induction history generalizing m with
  | nil => rfl
  | cons e history ih =>
      rw [after_cons, ih (sound_handle hm e), pendingHandle?_handle hm e]
      show _ = ((m.mark? e).toList ++ marks (m.handle e) history).getLast?.getD _
      rw [List.getLast?_append]
      cases (marks (m.handle e) history).getLast? with
      | some mark => rfl
      | none => cases m.mark? e <;> rfl

/-- A handle that is not the last mark is not pending, as long as no handle is issued twice. -/
theorem not_pending_of_dropLast {marks : List (Option Handle)} (hfresh : marks.reduceOption.Nodup)
    {h : Handle} (hmem : some h ∈ marks.dropLast ∨ some h ∉ marks) :
    marks.getLast?.join ≠ some h := by
  intro hlast
  have hlast : marks.getLast? = some (some h) := Option.join_eq_some_iff.mp hlast
  rcases hmem with hdrop | hnot
  · have hsplit : marks = marks.dropLast ++ [some h] := by
      obtain ⟨rest, hrest⟩ := List.getLast?_eq_some_iff.mp hlast
      rw [hrest, List.dropLast_concat]
    rw [hsplit, List.reduceOption_append] at hfresh
    have hleft : h ∈ marks.dropLast.reduceOption := List.reduceOption_mem_iff.mpr hdrop
    have hright : h ∈ [some h].reduceOption := by simp
    exact (List.nodup_append.mp hfresh).2.2 h hleft h hright rfl
  · exact hnot (List.mem_of_getLast? hlast)

/-! ## Pastes of one copy -/

/-- The handle that a payload spells belongs to a copy if it is the pending one. -/
theorem correlate?_isSome (m : Coordinator) (text : String) :
    (m.correlate? text).isSome = true ↔
      ∃ h, Handle.parse? text = some h ∧ m.pendingHandle? = some h := by
  simp only [Option.isSome_iff_exists, correlate?_eq_some_iff, pendingHandle?_eq_some_iff]
  constructor
  · rintro ⟨i, hpending, c, hc, hparse⟩
    exact ⟨c.handle, hparse, i, c, hpending, hc, rfl⟩
  · rintro ⟨h, hparse, i, c, hpending, hc, rfl⟩
    exact ⟨i, hpending, c, hc, hparse⟩

theorem correlate?_eq {m : Coordinator} {text : String} (h : (m.correlate? text).isSome = true) :
    m.correlate? text = m.pending := by
  obtain ⟨i, hi⟩ := Option.isSome_iff_exists.mp h
  rw [hi, (correlate?_eq_some_iff.mp hi).1]

section Correlated

variable {m : Coordinator} {payload : Payload} {p : PasteRun}
  (hcopy : p.copy = (payload.get? handleMime).bind m.correlate?)
include hcopy

/-- A paste belongs to a copy if its payload spells the pending handle. -/
theorem isCorrelated_iff :
    p.isCorrelated = true ↔ ∃ h, payload.handle? = some h ∧ m.pendingHandle? = some h := by
  unfold PasteRun.isCorrelated Payload.handle?
  rw [hcopy]
  cases payload.get? handleMime with
  | none => simp
  | some text => exact m.correlate?_isSome text

theorem copy_eq_pending (hcorrelated : p.isCorrelated = true) : p.copy = m.pending := by
  unfold PasteRun.isCorrelated at hcorrelated
  rw [hcopy] at hcorrelated ⊢
  cases htext : payload.get? handleMime with
  | none => simp [htext] at hcorrelated
  | some text =>
      rw [htext] at hcorrelated
      exact correlate?_eq hcorrelated

end Correlated

/-- Taking a paste over and everything after it leaves the copies what they were started as. -/
theorem copies_origin_taken {m taken : Coordinator} {given : Option Payload} {cancelled : Bool}
    {i : Nat} (htaken : m.paste given cancelled = (.taken i, taken)) {k : Nat} {c : CopyRun}
    (hc : m.copies[k]? = some c) (later : List Event) :
    ∃ c', (taken.after later).copies[k]? = some c' ∧ c'.origin = c.origin := by
  have hafter : taken.after later = m.after (.paste given cancelled :: later) := by
    obtain rfl : (m.paste given cancelled).2 = taken := congrArg Prod.snd htaken
    rfl
  rw [hafter]
  exact copy_after (P := fun d => d.origin = c.origin) (fun hstep h => hstep.origin.trans h) hc
    rfl _

/-- The result of a copy at one moment is its result at every later one. -/
theorem result?_of_early {m : Coordinator} {early history : List Event} (h : early <+: history)
    {copy : Option Nat} {r : Option Transfer} (hr : (m.after early).result? copy = some r) :
    (m.after history).result? copy = some r := by
  obtain ⟨rest, rfl⟩ := h
  rw [after_append]
  exact result_after hr rest

/-- **Pastes of one copy obtain one result,** at whatever moments of a history they do. -/
theorem result_unique {m : Coordinator} {first second history : List Event}
    (hfirst : first <+: history) (hsecond : second <+: history) {copy : Option Nat}
    {r r' : Option Transfer} (hr : (m.after first).result? copy = some r)
    (hr' : (m.after second).result? copy = some r') : r = r' :=
  Option.some.inj ((result?_of_early hfirst hr).symm.trans (result?_of_early hsecond hr'))

/-- In the turn after `early` a paste begins to ask and obtains the result of its copy. -/
def Obtains (m : Coordinator) (i : Nat) (early : List Event) (copy : Option Nat)
    (r : Option Transfer) : Prop :=
  ∃ p, Begins m i early p ∧ p.cancelled = false ∧ p.copy = copy ∧
    (m.after early).result? copy = some r

/-- What a paste works on once it has obtained the result of its copy. -/
theorem Obtains.transfer {m : Coordinator} {i : Nat} {p p' : PasteRun}
    (hp : m.pastes[i]? = some p) {early : List Event} {r : Option Transfer}
    (h : Obtains m i early p.copy r) (late : List Event)
    (hp' : (m.after (early ++ .turn :: late)).pastes[i]? = some p') :
    p'.transfer = (p.supply r).transfer := by
  obtain ⟨q, hbegins, hcancelled, hcopy, hr⟩ := h
  have htransfer : q.transfer = p.transfer :=
    transfer_of_undecided hp early hbegins.paste hbegins.undecided
  obtain ⟨-, p'', hp'', -, hsupply⟩ := hbegins.asks hcancelled late
  obtain rfl : p' = p'' := Option.some.inj (hp'.symm.trans hp'')
  rw [hsupply, hcopy, hr]
  unfold PasteRun.supply
  rw [htransfer]
  rfl

/-- **When a paste belongs to a copy, and what follows from it.** `past` leads to the moment of
the paste event, `later` to any moment after it. -/
theorem correlation_spec (config : Config) (past : List Event)
    (hfresh : (marks { config } past).reduceOption.Nodup) :
    let start : Coordinator := { config }
    let m := start.after past
    m.pendingHandle? = (marks start past).getLast?.join ∧
    (∀ (payload : Payload) (cancelled : Bool) (i : Nat) (taken : Coordinator),
      m.paste (some payload) cancelled = (.taken i, taken) →
      ∃ p, taken.pastes[i]? = some p ∧
        (p.isCorrelated = true ↔ ∃ h, payload.handle? = some h ∧ m.pendingHandle? = some h) ∧
        (∀ h, payload.handle? = some h →
          some h ∈ (marks start past).dropLast ∨ some h ∉ marks start past →
          p.isCorrelated = false) ∧
        (p.isCorrelated = true → p.copy = m.pending) ∧
        ∀ later, ∃ p', (taken.after later).pastes[i]? = some p' ∧ p'.copy = p.copy ∧
          (∀ (k : Nat) (c : CopyRun), m.copies[k]? = some c →
            ∃ c', (taken.after later).copies[k]? = some c' ∧ c'.origin = c.origin) ∧
          ∀ early late r, later = early ++ .turn :: late → Obtains taken i early p.copy r →
            p'.transfer = (p.supply r).transfer ∧
            (taken.after later).result? p.copy = some r) ∧
    ∀ history first second i j k r r', first <+: history → second <+: history →
      Obtains start i first (some k) r → Obtains start j second (some k) r' → r = r' := by
  intro start m
  have hpending : m.pendingHandle? = (marks start past).getLast?.join := by
    have hlast := pendingHandle?_after (sound_start config) past
    have hnone : start.pendingHandle? = none := rfl
    rw [hnone] at hlast
    rw [hlast]
    cases (marks start past).getLast? <;> rfl
  refine ⟨hpending, ?_, ?_⟩
  · intro payload cancelled i taken htaken
    obtain ⟨p, hp, -, -, hcopy, -, -⟩ := taken_paste htaken
    refine ⟨p, hp, isCorrelated_iff hcopy, fun h hh hold => ?_, copy_eq_pending hcopy,
      fun later => ?_⟩
    · -- an old handle is not the last mark, and only the last mark is pending
      rw [Bool.eq_false_iff]
      intro hc
      obtain ⟨h', hh', hp'⟩ := (isCorrelated_iff hcopy).mp hc
      obtain rfl : h = h' := Option.some.inj (hh.symm.trans hh')
      rw [hpending] at hp'
      exact not_pending_of_dropLast hfresh hold hp'
    · obtain ⟨p', hp', horigin⟩ := origin_after hp later
      refine ⟨p', hp', (congrArg PasteRun.copy horigin :),
        fun k c hc => copies_origin_taken htaken hc later, ?_⟩
      rintro early late r rfl hobtains
      refine ⟨hobtains.transfer hp late hp', ?_⟩
      obtain ⟨q, -, -, -, hr⟩ := hobtains
      exact result?_of_early (List.prefix_append early _) hr
  · rintro history first second i j k r r' hfirst hsecond ⟨-, -, -, -, hr⟩ ⟨-, -, -, -, hr'⟩
    exact result_unique hfirst hsecond hr hr'

/-- Two copies, the second of which supersedes the first. -/
def twoCopies : List Event :=
  [.openDocument { uri := "a", language := "l", text := "ab" }, .select ⟨0, 1⟩,
    .register .any { name := "p", copy := some [], paste := some [] },
    .copy (some {}) ⟨1⟩, .copy (some {}) ⟨2⟩]

/-- A payload that spells a handle. -/
def spelling (handle : Handle) : Payload :=
  ⟨[.string handleMime (.inline handle.text)]⟩

/-- After two copies a paste belongs to the second one and not to the first one. -/
theorem twoCopies_correlation :
    (marks {} twoCopies).reduceOption.Nodup ∧
    (({} : Coordinator).after twoCopies).pendingHandle? = some ⟨2⟩ ∧
    (∃ p, ((({} : Coordinator).after twoCopies).paste (some (spelling ⟨1⟩)) false).2.pastes[0]? =
      some p ∧ p.isCorrelated = false) ∧
    ∃ p, ((({} : Coordinator).after twoCopies).paste (some (spelling ⟨2⟩)) false).2.pastes[0]? =
      some p ∧ p.isCorrelated = true := by
  have hfresh : (marks {} twoCopies).reduceOption.Nodup := by decide +kernel
  obtain ⟨hpending, hpastes, -⟩ := correlation_spec {} twoCopies hfresh
  have hsecond : (({} : Coordinator).after twoCopies).pendingHandle? = some ⟨2⟩ :=
    hpending.trans (by decide +kernel)
  refine ⟨hfresh, hsecond, ?_, ?_⟩
  · obtain ⟨p, hp, -, hstale, -⟩ :=
      hpastes (spelling ⟨1⟩) false 0 _ (Prod.ext (by decide +kernel) rfl)
    exact ⟨p, hp, hstale ⟨1⟩ (by decide +kernel) (.inl (by decide +kernel))⟩
  · obtain ⟨p, hp, hcorrelated, -⟩ :=
      hpastes (spelling ⟨2⟩) false 0 _ (Prod.ext (by decide +kernel) rfl)
    exact ⟨p, hp, hcorrelated.mpr ⟨⟨2⟩, by decide +kernel, hsecond⟩⟩

end Coordinator

end CopyPaste

import CopyPaste.Proofs.Coordinator.Course

/-!
# What paste providers see

Every provider that a paste asks is given the same transfer. It is what the payload held, with
the result of the copy merged in if the paste belongs to a copy and the result was there when
the paste began to ask, and without the reserved type.

* `Supply` — a transfer made of a payload and of what the copy supplied, type by type;
* **`supply_spec`** — what a paste makes of the two;
* **`providers_see_supply`** — every question of every paste, after every history.
-/

namespace CopyPaste

/-- What providers see of a payload and of what the copy supplied. `raw` is the transfer of the
payload. -/
structure Supply (payload : Payload) (raw : Transfer) (supplied : Option Transfer)
    (t : Transfer) : Prop where
  reserved : t.get? handleMime = none
  /-- What the copy holds wins. -/
  copied : ∀ mime item, mime ≠ handleMime → supplied.bind (·.get? mime) = some item →
    t.get? mime = some item
  /-- Where the copy holds nothing the payload decides. -/
  given : ∀ mime, mime ≠ handleMime → supplied.bind (·.get? mime) = none →
    (t.get? mime).map Item.anonymous = payload.lastItem? mime
  /-- Without a copy only the reserved type is missing. -/
  alone : supplied = none → t = raw.delete handleMime
  /-- Nothing that the copy holds under another type is lost. -/
  visible : ∀ copied, supplied = some copied → ∀ e ∈ copied.entries, e.1 ≠ handleMime →
    t.get? e.1 = some e.2

namespace PasteRun

theorem get?_supply {p : PasteRun} (hp : p.transfer.keys.Nodup) {copied : Option Transfer}
    (hcopied : ∀ t, copied = some t → t.keys.Nodup) (mime : String) :
    (p.supply copied).transfer.get? mime =
      if handleMime = mime then none
      else (copied.bind (·.get? mime)).or (p.transfer.get? mime) := by
  cases copied with
  | none => exact Transfer.get?_delete hp mime handleMime
  | some t =>
      have hmerged := Transfer.nodup_keys_merge hp t
      show ((p.transfer.merge t).delete handleMime).get? mime = _
      rw [Transfer.get?_delete hmerged, Transfer.get?_merge p.transfer (hcopied t rfl)]
      rfl

/-- **What a paste makes of its payload and of what the copy supplied.** -/
theorem supply_spec {p : PasteRun} {payload : Payload} {reads : Reads}
    (hp : p.transfer = (Transfer.ofPayload payload reads).1) {copied : Option Transfer}
    (hcopied : ∀ t, copied = some t → t.keys.Nodup) :
    Supply payload (Transfer.ofPayload payload reads).1 copied (p.supply copied).transfer := by
  have hn : p.transfer.keys.Nodup := by
    rw [hp]
    exact Transfer.nodup_keys_ofPayload payload reads
  have hget := get?_supply hn hcopied
  refine ⟨?_, ?_, ?_, ?_, ?_⟩
  · rw [hget, if_pos rfl]
  · intro mime item hne hitem
    rw [hget, if_neg (Ne.symm hne), hitem]
    rfl
  · intro mime hne hnone
    rw [hget, if_neg (Ne.symm hne), hnone, Option.none_or, hp]
    exact Transfer.get?_ofPayload payload reads mime
  · rintro rfl
    rw [← hp]
    rfl
  · rintro t rfl e he hne
    have hentry : t.get? e.1 = some e.2 := Entries.get?_of_mem (hcopied t rfl) he
    rw [hget, if_neg (Ne.symm hne), Option.bind_some, hentry]
    rfl

end PasteRun

namespace Coordinator

/-- What is available as the result of a copy holds no type twice. -/
theorem Sound.result {m : Coordinator} (h : m.Sound) {copy : Option Nat} {t : Transfer}
    (hr : m.result? copy = some (some t)) : t.keys.Nodup := by
  obtain ⟨i, -, hi⟩ := Option.bind_eq_some_iff.mp hr
  obtain ⟨c, hc, hresult⟩ := Option.bind_eq_some_iff.mp hi
  exact (h.copies i c hc).result t hresult

/-- **Every provider that a paste asks sees the same,** and what it sees is decided type by type
by the payload and by what the copy had come to when the paste began to ask. -/
theorem providers_see_supply {m taken : Coordinator} (hm : m.Reachable) {payload : Payload}
    {cancelled : Bool} {i : Nat} (htaken : m.paste (some payload) cancelled = (.taken i, taken))
    (later : List Event) (hasked : (taken.after later).desk.questions (.paste i) ≠ []) :
    ∃ early late p t, later = early ++ .turn :: late ∧ Begins taken i early p ∧
      p.cancelled = false ∧
      p.copy = (payload.get? handleMime).bind m.correlate? ∧
      ((taken.after early).result? p.copy = none →
        p.copy = none ∨ ∃ since, p.waitsSince? (taken.after early).desk.now = some since ∧
          hasExpired m.config.copyWaitTimeout since (taken.after early).desk.now = true) ∧
      Supply payload (Transfer.ofPayload payload m.desk.reads).1
        ((taken.after early).result? p.copy).join t ∧
      ∀ q ∈ (taken.after later).desk.questions (.paste i), q.transfer = t := by
  have hsound := hm.sound_taken htaken
  obtain ⟨p₀, hp₀, hheld, -, hcopy, hlimit, htransfer⟩ := taken_paste htaken
  have hu : p₀.stage.isUndecided = true := by
    rw [hheld]
    rfl
  obtain ⟨p', hp', hu'⟩ | ⟨early, late, p, rfl, hbegins, horigin, hp⟩ :=
    undecided_or_begins hp₀ hu later
  · exact absurd (((hsound.after later).pastes i p' hp').fresh hu').1 hasked
  · have hc : p.cancelled = false := by
      cases hcancelled : p.cancelled with
      | false => rfl
      | true => exact absurd (hbegins.stops hsound hcancelled late) hasked
    obtain ⟨⟨since, hsince, hsupplied⟩, p', hp', hd, hp'transfer⟩ := hbegins.asks hc late
    have hquestions : ∀ q ∈ (taken.after (early ++ .turn :: late)).desk.questions (.paste i),
        q.transfer = (p.supply ((taken.after early).result? p.copy).join).transfer := by
      intro q hq
      obtain ⟨-, -, hsubject⟩ := ((hsound.after _).pastes i p' hp').subject hd q hq
      exact hsubject.trans hp'transfer
    have hpcopy : p.copy = p₀.copy := (congrArg PasteRun.copy horigin :)
    have hplimit : p.limit = p₀.limit := (congrArg PasteRun.limit horigin :)
    refine ⟨early, late, p, _, rfl, hbegins, hc, hpcopy.trans hcopy, fun hnone => ?_,
      PasteRun.supply_spec (hp.trans htransfer) fun t ht => ?_, hquestions⟩
    · rcases hsupplied with ⟨hnocopy, -⟩ | ⟨-, hresult | ⟨-, -, hexpired⟩⟩
      · exact .inl hnocopy
      · rw [hnone] at hresult
        simp at hresult
      · rw [hplimit, hlimit] at hexpired
        exact .inr ⟨since, hsince, hexpired⟩
    · exact (hsound.after early).result (Option.join_eq_some_iff.mp ht)

/-- A coordinator with a document open and a copy done, whose provider replaces the plain text
and writes the reserved type. -/
def afterCopy : Coordinator :=
  ({} : Coordinator).after
    [.openDocument { uri := "a", language := "l", text := "ab" }, .select ⟨0, 1⟩,
      .register .any
        { name := "p"
          copy := some [.set plainMime "new", .set handleMime "written"]
          paste := some [.report .keys] },
      .copy (some ⟨[.string plainMime (.inline "old")]⟩) ⟨0⟩, .turn]

/-- What the clipboard holds when the copy is pasted: a type twice, and the handle. -/
def clipboard : Payload :=
  ⟨[.string plainMime (.inline "old"), .string plainMime (.inline "newer"),
    .string handleMime (.inline (Handle.mk 0).text)]⟩

/-- What the providers of the first paste were asked after the clipboard was pasted. -/
def askedAfterCopy : List Question :=
  ((afterCopy.paste (some clipboard) false).2.after [.run 0, .turn]).desk.questions (.paste 0)

/-- The provider is asked, it sees the text that the copy provider wrote, and it does not see
the reserved type that the copy provider wrote as well. -/
theorem provider_sees_copied_text :
    askedAfterCopy ≠ [] ∧ ∃ t, t.get? handleMime = none ∧
      (t.get? plainMime).map Item.asString = some "new" ∧
      ∀ q ∈ askedAfterCopy, q.transfer = t := by
  have hreachable : afterCopy.Reachable := ⟨{}, _, rfl⟩
  have htaken : afterCopy.paste (some clipboard) false =
      (.taken 0, (afterCopy.paste (some clipboard) false).2) :=
    Prod.ext (by decide +kernel) rfl
  have hasked : askedAfterCopy ≠ [] := List.ne_nil_of_length_pos (by decide +kernel)
  have hnew : ∀ q ∈ askedAfterCopy,
      (q.transfer.get? plainMime).map Item.asString = some "new" := by decide +kernel
  obtain ⟨early, late, p, t, -, -, -, -, -, hsupply, hsame⟩ :=
    providers_see_supply hreachable htaken [.run 0, .turn] hasked
  obtain ⟨q, hq⟩ := List.exists_mem_of_ne_nil _ hasked
  refine ⟨hasked, t, hsupply.reserved, ?_, hsame⟩
  rw [← hsame q hq]
  exact hnew q hq

end Coordinator

end CopyPaste

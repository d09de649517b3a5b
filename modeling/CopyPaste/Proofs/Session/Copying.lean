import CopyPaste.Proofs.Coordinator.Correlation
import CopyPaste.Proofs.Handle
import CopyPaste.Proofs.Session.Pasting

/-!
# Copying in a session

A copy with the built-in provider needs one turn, whenever it gets it, and leaves the text and a
snippet of it. Its handle is read back from the clipboard, so a paste finds it whatever the runtime
did in between. Only a limit on the waiting can make a difference: the time of the paste may be up
before the copy had its turn, and then the text alone is there to be pasted.

* **`CopyRun.owes_builtin`** — what the copy comes to in its turn;
* **`Session.copy_bears`** — what a copy leaves behind before it;
* **`Session.Bears.pass`** — what the runtime may do until the paste;
* **`Session.Bears.pastable`** — what is left to be pasted.
-/

namespace CopyPaste

/-! ## The copy provider -/

/-- The copy provider writes the snippet and nothing else, and waits for nothing. -/
theorem CopyRun.poll_builtin {c : CopyRun} (hresult : c.result = none)
    (hcancelled : c.cancelled = false)
    (hlanes : c.lanes =
      [{ provider := "source-snippet", script := [.setSnippet], fork := c.base.fork }])
    (hbase : c.base.keys.Nodup) {text : String}
    (hslice : c.document.slice? c.selection = some text) (index : Nat) (desk : Desk) : ∃ t,
      (c.poll index desk).1.result = some (some t) ∧ t.keys.Nodup ∧
      ∀ mime, (t.get? mime).map Item.anonymous =
        if mime = snippetMime then
          some (.atHand (Snippet.encode ⟨c.document.uri, c.document.language, text⟩))
        else (c.base.get? mime).map Item.anonymous := by
  obtain ⟨item, hitem⟩ : ∃ item, item = (desk.newText (Snippet.encode
    ⟨c.document.uri, c.document.language, text⟩)).1 := ⟨_, rfl⟩
  obtain ⟨fork, hfork⟩ : ∃ fork, fork = c.base.fork.set snippetMime item := ⟨_, rfl⟩
  obtain ⟨lane, hlane⟩ : ∃ lane : Lane, lane =
    { provider := "source-snippet", script := [], fork, status := .ended (.ok ()) } := ⟨_, rfl⟩
  have hend : (runLanes (.copy index) c.document c.selection c.cancelled c.lanes desk).1 =
      [lane] := by
    rw [hlanes, hlane, hfork, hitem]
    simp [runLanes, Lane.isRunning, Lane.hasCrashed, Lane.run, Lane.runScript, Lane.call,
      CopyAction.perform, Snippet.ofSelection?, hslice]
  have houtcome : outcome? c.base c.policy c.cancelled [lane] =
      some (some (c.base.absorb fork)) := by
    rw [hcancelled, hlane]
    simp [outcome?, collect, absorbAll, Lane.hasCrashed, Lane.isRunning, Lane.failed,
      Lane.succeeded]
  have hpoll : (c.poll index desk).1.result = some (some (c.base.absorb fork)) := by
    unfold poll
    rw [hresult, Option.isSome_none, if_neg (by simp)]
    dsimp only
    rw [hend, houtcome]
  have hnodup : fork.keys.Nodup := by
    rw [hfork]
    exact Transfer.nodup_keys_set (t := c.base.fork) hbase snippetMime item
  have htouched : fork.touched = [snippetMime] := by
    rw [hfork]
    rfl
  refine ⟨_, hpoll, Transfer.nodup_keys_absorb hbase fork, fun mime => ?_⟩
  rw [Transfer.get?_absorb hbase hnodup, htouched, hfork, Transfer.get?_set, Transfer.get?_fork]
  by_cases hmime : mime = snippetMime
  · simp [hmime, hitem, Desk.newText, Reads.defer, Item.anonymous, Item.atHand]
  · simp [hmime]

/-- What a copy with the built-in provider comes to: the snippet of the text, beside what the
payload held. -/
structure AddsSnippet (payload : Payload) (d : Document) (text : String) (t : Transfer) : Prop where
  nodup : t.keys.Nodup
  get? : ∀ mime, (t.get? mime).map Item.anonymous =
    if mime = snippetMime then some (.atHand (Snippet.encode ⟨d.uri, d.language, text⟩))
    else if mime = handleMime then none
    else payload.lastItem? mime

/-- **A copy with the built-in provider needs one turn,** whenever it gets it. -/
theorem CopyRun.owes_builtin (m : Coordinator) (fresh : Handle) {d : Document} {s : Selection}
    {text : String} (hslice : d.slice? s = some text) (payload : Payload) (reads : Reads)
    (k : Nat) :
    (m.newCopy fresh d s ((Transfer.ofPayload payload reads).1.delete handleMime)
      [("source-snippet", [.setSnippet])]).Owes k (AddsSnippet payload d text) := by
  have hraw : (Transfer.ofPayload payload reads).1.keys.Nodup :=
    Transfer.nodup_keys_ofPayload payload reads
  refine ⟨rfl, fun seats desk => ?_⟩
  obtain ⟨t, hresult, hnodup, hget⟩ := CopyRun.poll_builtin
    (c := { m.newCopy fresh d s ((Transfer.ofPayload payload reads).1.delete handleMime)
      [("source-snippet", [.setSnippet])] with seats }) rfl rfl rfl
    (Transfer.nodup_keys_delete hraw handleMime) hslice k desk
  refine ⟨t, hresult, hnodup, fun mime => ?_⟩
  rw [hget]
  show (if _ then _ else Option.map _ (Transfer.get? (Transfer.delete _ _) mime)) = _
  rw [Transfer.get?_delete hraw]
  by_cases hmime : mime = handleMime
  · simp [hmime, Coordinator.newCopy]
  · rw [if_neg (Ne.symm hmime), if_neg hmime, Transfer.get?_ofPayload]
    rfl

/-- A copy with the built-in provider becomes the pending one, and it brings the snippet. -/
theorem Coordinator.copy_brings {m : Coordinator} {payload : Payload} {d : Document}
    {s : Selection}
    (hadmitted : m.admitCopy (some payload) =
      .ok (payload, d, s, [("source-snippet", [.setSnippet])]))
    {text : String} (hslice : d.slice? s = some text) (fresh : Handle) : ∃ c desk ready,
      m.copy (some payload) fresh =
        (.started fresh, some (payload.set handleMime fresh.text),
          { m with desk, copies := m.copies ++ [c], pending := some m.copies.length, ready }) ∧
      c.handle = fresh ∧ c.seats = {} ∧
      c.Owes m.copies.length (AddsSnippet payload d text) ∧ .copy m.copies.length ∈ ready := by
  obtain ⟨reads, hreads⟩ : ∃ reads, reads = m.desk.reads := ⟨_, rfl⟩
  obtain ⟨c, hc⟩ : ∃ c, c = m.newCopy fresh d s
    ((Transfer.ofPayload payload reads).1.delete handleMime)
    [("source-snippet", [.setSnippet])] := ⟨_, rfl⟩
  have howes : c.Owes m.copies.length (AddsSnippet payload d text) := by
    rw [hc]
    exact CopyRun.owes_builtin m fresh hslice payload reads _
  obtain ⟨queued, hqueued⟩ : ∃ queued : Coordinator, queued = { m with
    desk := { m.desk with reads := (Transfer.ofPayload payload reads).2 }
    copies := m.copies ++ [c]
    pending := some m.copies.length } := ⟨_, rfl⟩
  have hcopy : m.copy (some payload) fresh =
      (.started fresh, some (payload.set handleMime fresh.text),
        queued.wake (.copy m.copies.length)) := by
    unfold copy
    rw [hadmitted]
    simp [hqueued, hc, hreads]
  have hturn : .copy m.copies.length ∈ (queued.wake (.copy m.copies.length)).ready :=
    mem_ready_wake.mpr (.inr rfl)
  obtain ⟨ready, hwake⟩ := queued.exists_wakeAll [.copy m.copies.length]
  have hwake : queued.wake (.copy m.copies.length) = { queued with ready } := hwake
  rw [hwake] at hcopy hturn
  rw [hqueued] at hcopy
  exact ⟨c, _, ready, hcopy, by rw [hc]; rfl, by rw [hc]; rfl, howes, hturn⟩

namespace Session

/-! ## What the runtime does before the paste -/

/-- Nothing was pasted into a session, and the copy that a handle belongs to brings a transfer of a
kind. -/
structure Bears (s : Session) (config : Config) (handle : String) (kind : Transfer → Prop) :
    Prop where
  unpasted : s.Unpasted
  config : s.coordinator.config = config
  brings : ∃ k, s.coordinator.correlate? handle = some k ∧ s.coordinator.Brings k kind

section Bears

variable {s : Session} {config : Config} {handle : String} {kind : Transfer → Prop}

theorem Bears.beat (h : s.Bears config handle kind) (b : Beat) :
    (⟨s.coordinator.beat b⟩ : Session).Bears config handle kind := by
  obtain ⟨k, hcorrelate, hbrings⟩ := h.brings
  have hbrings := hbrings.beat b
  obtain ⟨desk, copies, ready, hbeat, hcopies⟩ := Coordinator.beat_cases h.unpasted.pastes b
  rw [hbeat] at hbrings ⊢
  obtain ⟨hpending, c, hc, hparse⟩ := Coordinator.correlate?_eq_some_iff.mp hcorrelate
  have hkept : (∀ c' ∈ copies, c'.seats = {}) ∧ ∃ c', copies[k]? = some c' ∧
      c'.handle = c.handle := by
    obtain rfl | ⟨j, d, hd, rfl⟩ := hcopies
    · exact ⟨h.unpasted.vacant, c, hc, rfl⟩
    · refine ⟨fun c' hc' => ?_, ?_⟩
      · obtain hc' | rfl := List.mem_or_eq_of_mem_set hc'
        · exact h.unpasted.vacant c' hc'
        · rw [(Coordinator.poll_copy_cases d j _).1]
          exact h.unpasted.vacant d (List.mem_of_getElem? hd)
      · by_cases hj : j = k
        · subst hj
          obtain rfl := Option.some.inj (hd.symm.trans hc)
          exact ⟨_, List.getElem?_set_self (List.getElem?_eq_some_iff.mp hd).1,
            Coordinator.handle_of_origin (d.origin_poll j _)⟩
        · exact ⟨c, (List.getElem?_set_ne hj).trans hc, rfl⟩
  obtain ⟨hvacant, c', hc', hhandle⟩ := hkept
  exact ⟨⟨h.unpasted.registry, h.unpasted.pastes, hvacant⟩, h.config, k,
    Coordinator.correlate?_eq_some_iff.mpr ⟨hpending, c', hc', by rw [hparse, hhandle]⟩, hbrings⟩

/-- **The paste finds the copy,** whatever the runtime does before. -/
theorem Bears.pass (h : s.Bears config handle kind) (schedule : List Beat) :
    (s.pass schedule).Bears config handle kind := by
  induction schedule generalizing s with
  | nil => exact h
  | cons b schedule ih => exact ih (h.beat b)

end Bears

/-! ## Copying -/

/-- With the built-in providers only a selection that covers nothing is left to the platform. -/
theorem Unpasted.admitCopy {s : Session} (hs : s.Unpasted) {d : Document}
    (hd : s.document? = some d) (payload : Payload) (selection : Selection) :
    (s.mapEditor (·.select selection)).coordinator.admitCopy (some payload) =
      if selection.isEmpty then .error .emptySelection
      else .ok (payload, d, selection, [("source-snippet", [.setSnippet])]) := by
  have hdocument : (s.mapEditor (·.select selection)).coordinator.editor.document = some d := hd
  have hselection : (s.mapEditor (·.select selection)).coordinator.editor.selection =
      some selection := rfl
  have hregistry : (s.mapEditor (·.select selection)).coordinator.registry = _ := hs.registry
  unfold Coordinator.admitCopy
  rw [hdocument, hselection, hregistry]
  cases hempty : selection.isEmpty with
  | true => simp [hempty]; rfl
  | false => simp [hempty, Registry.copiers_defaults]

/-- An unusable range is found before anything is copied. -/
theorem copy_of_unusable {s : Session} {d : Document} (hd : s.document? = some d) {start stop : Nat}
    (hslice : Text.slice? d.text (min start stop) (max start stop) = none) (fresh : Handle) :
    s.copy start stop fresh = (.error (.range start stop d.uri), s) := by
  have hnone : d.slice? ⟨start, stop⟩ = none := hslice
  unfold copy
  rw [hd]
  dsimp only
  rw [hnone]

theorem copy_of_empty {s : Session} (hs : s.Unpasted) {d : Document} (hd : s.document? = some d)
    {offset : Nat} {text : String}
    (hslice : Text.slice? d.text (min offset offset) (max offset offset) = some text)
    (fresh : Handle) :
    (s.copy offset offset fresh).1 = .error (.copyDeclined .emptySelection) := by
  have hsome : d.slice? ⟨offset, offset⟩ = some text := hslice
  have hadmitted := hs.admitCopy hd (Payload.set {} plainMime text) ⟨offset, offset⟩
  rw [if_pos (by simp [Selection.isEmpty])] at hadmitted
  unfold copy
  rw [hd]
  dsimp only
  rw [hsome]
  dsimp only [Coordinator.copy]
  rw [hadmitted]

/-- What the clipboard holds of a text that was copied, by type. -/
def plainTexts (text mime : String) : Option String :=
  if mime = plainMime then some text else none

/-- What a copy of the given text holds, by type. -/
def copiedTexts (d : Document) (text : String) (mime : String) : Option String :=
  if mime = snippetMime then some (Snippet.encode ⟨d.uri, d.language, text⟩)
  else plainTexts text mime

/-- What is on the clipboard once the given text was copied. -/
def copiedPayload (text : String) (handle : Handle) : Payload :=
  (Payload.set {} plainMime text).set handleMime handle.text

theorem lastItem?_plain (text mime : String) : (Payload.set {} plainMime text).lastItem? mime =
    (plainTexts text mime).map Item.atHand := by
  unfold plainTexts
  by_cases hmime : mime = plainMime
  · subst hmime
    rfl
  · have hne : (plainMime == mime) = false := by simpa using Ne.symm hmime
    simp [Payload.lastItem?, Payload.set, Payload.putFirst, PayloadItem.item?, hne, hmime]

theorem lastItem?_copiedPayload (text : String) (handle : Handle) {mime : String}
    (hmime : mime ≠ handleMime) :
    (copiedPayload text handle).lastItem? mime = (plainTexts text mime).map Item.atHand := by
  have hne : (handleMime == mime) = false := by simpa using Ne.symm hmime
  have hplain : plainMime ≠ handleMime := by decide
  rw [← lastItem?_plain]
  simp [copiedPayload, Payload.lastItem?, Payload.set, Payload.putFirst, PayloadItem.mime,
    PayloadItem.item?, hne, hplain]

/-- **What a copy leaves behind** before its provider has had a turn: the text is on the clipboard,
under the handle of the copy. -/
theorem copy_bears {s : Session} (hs : s.Unpasted) {d : Document} (hd : s.document? = some d)
    {start stop : Nat} (hne : start ≠ stop) {text : String}
    (hslice : Text.slice? d.text (min start stop) (max start stop) = some text)
    (fresh : Handle) : ∃ s',
      s.copy start stop fresh = (.ok (copiedPayload text fresh), s') ∧
      s'.Bears s.coordinator.config fresh.text
        (AddsSnippet (Payload.set {} plainMime text) d text) := by
  have hsome : d.slice? ⟨start, stop⟩ = some text := hslice
  obtain ⟨m, hm⟩ : ∃ m, m = (s.mapEditor (·.select ⟨start, stop⟩)).coordinator := ⟨_, rfl⟩
  have hadmitted := hs.admitCopy hd (Payload.set {} plainMime text) ⟨start, stop⟩
  rw [if_neg (by simp [Selection.isEmpty, hne]), ← hm] at hadmitted
  have hunpasted : (⟨m⟩ : Session).Unpasted := by
    rw [hm]
    exact hs.mapEditor (·.select ⟨start, stop⟩)
  have hconfig : m.config = s.coordinator.config := by
    rw [hm]
    rfl
  obtain ⟨c, desk, ready, hcopy, hhandle, hseats, howes, hturn⟩ :=
    Coordinator.copy_brings hadmitted hsome fresh
  have hlast : (m.copies ++ [c])[m.copies.length]? = some c := by simp
  refine ⟨⟨{ m with desk, copies := m.copies ++ [c], pending := some m.copies.length, ready }⟩, ?_,
    ⟨hunpasted.registry, hunpasted.pastes, ?_⟩, hconfig, m.copies.length, ?_, c, hlast,
    .inl ⟨howes, hturn⟩⟩
  · unfold copy
    rw [hd]
    dsimp only
    rw [hsome]
    dsimp only
    rw [← hm, hcopy]
    rfl
  · intro c' hc'
    obtain hc' | hc' := List.mem_append.mp hc'
    · exact hunpasted.vacant c' hc'
    · rw [List.mem_singleton.mp hc', hseats]
  · exact Coordinator.correlate?_eq_some_iff.mpr
      ⟨rfl, c, hlast, by rw [hhandle]; exact Handle.parse?_text fresh⟩

/-- The texts that may come of a copy: all that it holds, or what is on the clipboard already if the
time of the paste was up first. -/
def MayBring (config : Config) (d : Document) (text : String) (texts : String → Option String) :
    Prop :=
  texts = copiedTexts d text ∨ config.copyWaitTimeout.isSome = true ∧ texts = plainTexts text

/-- **What a copy leaves to be pasted,** whatever document is opened next. -/
theorem Bears.pastable {s : Session} {config : Config} {d : Document} {text : String}
    {fresh : Handle}
    (h : s.Bears config fresh.text (AddsSnippet (Payload.set {} plainMime text) d text))
    (target : Document) :
    (s.mapEditor (·.openDocument target)).Pastable target (copiedPayload text fresh) fresh.text
      (AddsSnippet (Payload.set {} plainMime text) d text) (MayBring config d text) := by
  obtain ⟨k, hcorrelate, hbrings⟩ := h.brings
  refine
    { unpasted := h.unpasted.mapEditor _
      document := rfl
      carries := rfl
      brings := fun j hj => ?_
      nodup := fun t ht => ht.nodup
      atHand := fun offset copied hallowed => ?_ }
  · obtain rfl : k = j := Option.some.inj (hcorrelate.symm.trans hj)
    exact hbrings
  · cases copied with
    | some t =>
        refine ⟨copiedTexts d text, .inl rfl, rfl, fun mime hmime => ?_⟩
        rw [Option.bind_some, AddsSnippet.get? hallowed, lastItem?_plain,
          lastItem?_copiedPayload text fresh hmime, if_neg hmime]
        unfold copiedTexts
        split
        · rfl
        · cases plainTexts text mime <;> rfl
    | none =>
        have hlimit : config.copyWaitTimeout.isSome = true := by
          obtain hnone | hlimit := allows_none_iff.mp hallowed
          · have hnone : s.coordinator.correlate? fresh.text = none := hnone
            exact absurd (hcorrelate.symm.trans hnone) (Option.some_ne_none k)
          · rw [← h.config]
            exact hlimit
        exact ⟨plainTexts text, .inr ⟨hlimit, rfl⟩, rfl,
          fun mime hmime => lastItem?_copiedPayload text fresh hmime⟩

end Session

end CopyPaste

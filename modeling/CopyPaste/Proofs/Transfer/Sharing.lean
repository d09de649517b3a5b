import CopyPaste.Proofs.Coordinator.Records
import CopyPaste.Proofs.Text.Hex
import CopyPaste.Proofs.Transfer.Asking
import CopyPaste.Shelf

/-!
# Shared cells

However many transfers come of one payload, and whatever their holders do with them, the items in
them share the cells that were made of the payload. No operation makes a second cell for what is
behind an item, so the platform is asked at most once for each of its strings and files, only when
some holder wants the text of that very item or its content, and everybody is told the same.

* `Shelf.Fits` — a chart of all cells behind the items on a shelf;
* **`Fits.steps`** — what one operation does to the chart;
* **`Fits.runs`** — and what a sequence of operations does;
* `Shelf.Tells`, **`Fits.tells`** — what a holder is told, and what its providers are;
* **`sources_asked_once`** — every payload and every sequence of operations.
-/

namespace CopyPaste

/-! ## Operations -/

/-- Whether an origin is a new source of the platform. -/
def Origin.fromPlatform : Origin → Bool
  | .text _ fromPlatform | .file _ _ _ fromPlatform _ => fromPlatform
  | .shared _ _ => false

/-- The entries of a holder that are displayed, those under one type or all of them. -/
def Shelf.displayed (s : Shelf) (holder : String) (mime : Option String) : Entries :=
  (s.get holder).entries.filter fun e => mime.all fun mime => e.1 = mime

namespace ShelfOp

/-- Where the new items of an operation come from. -/
def origins : ShelfOp → List Origin
  | .set _ _ origin => [origin]
  | .collect _ items => items.map Prod.snd
  | _ => []

/-- The cells that an operation wants to know. -/
def wants (s : Shelf) : ShelfOp → List Cell
  | .readText _ holder mime => (s.get holder).textCells mime
  | .readFile _ holder mime => (s.get holder).contentCells mime
  | .display _ holder mime => (s.displayed holder mime).map fun e => e.2.cell
  | .copyStep holder _ _ _ action => action.wants (s.get holder)
  | .pasteStep holder call _ _ action => action.wants call (s.get holder)
  | _ => []

end ShelfOp

namespace Shelf

/-- A chart of all cells behind the items on a shelf, and of no others that anybody asked for. -/
structure Fits (s : Shelf) (chart : List Cell) : Prop where
  ledger : Ledger chart s.desk.reads
  charted : ∀ e ∈ s.transfers, e.2.On chart

namespace Fits

variable {s : Shelf} {chart made : List Cell}

theorem get (h : s.Fits chart) (holder : String) : (s.get holder).On chart := by
  unfold Shelf.get
  cases hlookup : s.transfers.lookup holder with
  | none => exact Transfer.all_empty
  | some t =>
      obtain ⟨before, after, hentry, -⟩ := List.lookup_eq_some_iff.mp hlookup
      exact h.charted (holder, t) (hentry ▸ List.mem_append_right _ List.mem_cons_self)

theorem put (h : s.Fits chart) (holder : String) {t : Transfer} (ht : t.On chart) :
    (s.put holder t).Fits chart where
  ledger := h.ledger
  charted := List.forall_mem_cons.mpr
    ⟨ht, fun e he => h.charted e (List.mem_filter.mp he).1⟩

/-- Another desk, with what happened to the ledger. -/
theorem withDesk (h : s.Fits chart) {desk : Desk} (hledger : Ledger (chart ++ made) desk.reads) :
    ({ s with desk } : Shelf).Fits (chart ++ made) where
  ledger := hledger
  charted := fun e he => (h.charted e he).mono made

/-- Everything that an operation wants to know is on the chart. -/
theorem wants (h : s.Fits chart) (op : ShelfOp) : ∀ c ∈ op.wants s, Charted chart c := by
  intro c hc
  cases op with
  | readText reader holder mime =>
      exact (h.get holder).cells c ((s.get holder).textCells_subset mime hc)
  | readFile reader holder mime =>
      exact (h.get holder).cells c ((s.get holder).contentCells_subset mime hc)
  | display reader holder mime =>
      obtain ⟨e, he, rfl⟩ := List.mem_map.mp hc
      exact h.get holder e (List.mem_filter.mp he).1
  | copyStep holder call cancelled begun action =>
      exact (h.get holder).cells c (action.wants_subset _ hc)
  | pasteStep holder call cancelled begun action =>
      exact (h.get holder).cells c (action.wants_subset call _ hc)
  | _ => exact absurd hc List.not_mem_nil

/-- What an origin makes: at most one cell, of the platform if the origin is. -/
theorem make (h : s.Fits chart) (origin : Origin) : ∃ made,
    (s.make origin).2.Fits (chart ++ made) ∧
      made.countP Cell.fromPlatform = [origin].countP Origin.fromPlatform ∧
      (s.make origin).2.desk.reads.asked = s.desk.reads.asked ∧
      ∀ item, (s.make origin).1 = some item → Charted (chart ++ made) item.cell := by
  have hnew : ∀ c : Cell, c.id = s.desk.reads.next →
      ({ s with desk := { s.desk with reads := { s.desk.reads with
        next := s.desk.reads.next + 1 } } } : Shelf).Fits (chart ++ [c]) ∧
      Charted (chart ++ [c]) c := fun c hid =>
    have hledger := h.ledger.defer hid
    ⟨h.withDesk hledger,
      hledger.charted_of_mem (List.mem_append_right _ (List.mem_singleton_self c))⟩
  cases origin with
  | text source fromPlatform =>
      obtain ⟨hfits, hc⟩ :=
        hnew (.text ⟨s.desk.reads.next, source.value, fromPlatform, source.gate⟩) rfl
      refine ⟨_, hfits, ?_, rfl, fun item hitem => ?_⟩
      · cases fromPlatform <;> rfl
      · obtain rfl := Option.some.inj hitem
        exact hc
  | file name uri content fromPlatform gate =>
      obtain ⟨hfits, hc⟩ := hnew (.content ⟨s.desk.reads.next, content, fromPlatform, gate⟩) rfl
      refine ⟨_, hfits, ?_, rfl, fun item hitem => ?_⟩
      · cases fromPlatform <;> rfl
      · obtain rfl := Option.some.inj hitem
        exact hc
  | shared holder mime =>
      refine ⟨[], by rwa [List.append_nil], rfl, rfl, fun item hitem => ?_⟩
      rw [List.append_nil]
      exact (h.get holder).get? hitem

theorem makeAll (h : s.Fits chart) (items : List (String × Origin)) : ∃ made,
    (s.makeAll items).2.Fits (chart ++ made) ∧
      made.countP Cell.fromPlatform = (items.map Prod.snd).countP Origin.fromPlatform ∧
      (s.makeAll items).2.desk.reads.asked = s.desk.reads.asked ∧
      ∀ e ∈ (s.makeAll items).1, Charted (chart ++ made) e.2.cell := by
  induction items generalizing s chart with
  | nil =>
      exact ⟨[], by rwa [List.append_nil], rfl, rfl, fun _ he => absurd he List.not_mem_nil⟩
  | cons entry rest ih =>
      obtain ⟨mime, origin⟩ := entry
      obtain ⟨made, hfits, hsources, hasked, hitem⟩ := h.make origin
      obtain ⟨made', hfits', hsources', hasked', hentries⟩ := ih hfits
      refine ⟨made ++ made', ?_, ?_, hasked'.trans hasked, fun e he => ?_⟩
      · rw [← List.append_assoc]
        exact hfits'
      · rw [List.countP_append, hsources, hsources', ← List.countP_append]
        rfl
      · rw [← List.append_assoc]
        have he : e ∈ ((s.make origin).1.map fun item => (mime, item)).toList ++
            ((s.make origin).2.makeAll rest).1 := he
        obtain he | he := List.mem_append.mp he
        · obtain ⟨item, hsome, rfl⟩ := Option.map_eq_some_iff.mp (Option.mem_toList.mp he)
          exact (hitem item hsome).mono made'
        · exact hentries e he

end Fits

/-- What an operation does to the chart of a shelf. -/
structure Steps (s : Shelf) (op : ShelfOp) (chart made : List Cell) : Prop where
  fits : (s.perform op).2.Fits (chart ++ made)
  sources : made.countP Cell.fromPlatform = op.origins.countP Origin.fromPlatform
  asked : ∀ i ∈ (s.perform op).2.desk.reads.asked,
    i ∈ s.desk.reads.asked ∨ i ∈ (op.wants s).map Cell.id
  grows : s.desk.reads.asked ⊆ (s.perform op).2.desk.reads.asked

/-- **What one operation does to the chart:** it adds the cells that the operation made, which are
the platform's only where the operation brings a source of its own, and nothing is asked for that
the operation does not want to know. -/
theorem Fits.steps {s : Shelf} {chart : List Cell} (h : s.Fits chart) (op : ShelfOp) :
    ∃ made, s.Steps op chart made := by
  -- an operation that asks for nothing
  have hunread : ∀ (made : List Cell) (s' : Shelf), (s.perform op).2 = s' →
      s'.Fits (chart ++ made) → s'.desk.reads.asked = s.desk.reads.asked →
      made.countP Cell.fromPlatform = op.origins.countP Origin.fromPlatform →
      ∃ made, s.Steps op chart made := by
    rintro made s' rfl hfits hasked hsources
    exact ⟨made, hfits, hsources, fun i hi => .inl (hasked ▸ hi), fun i hi => hasked ▸ hi⟩
  -- and makes no cell either
  have hstill : ∀ s' : Shelf, (s.perform op).2 = s' → s'.Fits chart →
      s'.desk.reads.asked = s.desk.reads.asked → op.origins = [] →
      ∃ made, s.Steps op chart made := fun s' hperform hfits hasked horigins =>
    hunread [] s' hperform (by rwa [List.append_nil]) hasked (by rw [horigins]; rfl)
  -- an operation that does nothing but ask
  have hreads : ∀ desk : Desk, (s.perform op).2 = { s with desk } →
      Reads.Moves s.desk.reads desk.reads [] (op.wants s) → op.origins = [] →
      ∃ made, s.Steps op chart made := by
    intro desk hperform hmoves hsources
    refine ⟨[], ?_, by rw [hsources]; rfl, ?_, ?_⟩ <;> rw [hperform]
    · exact h.withDesk (hmoves.ledger (h.wants op) h.ledger)
    · exact hmoves.asked
    · exact hmoves.grows
  cases op with
  | set holder mime origin =>
      obtain ⟨made, hfits, hsources, hasked, hitem⟩ := h.make origin
      rcases hmake : s.make origin with ⟨item, s'⟩
      rw [hmake] at hfits hasked hitem
      cases item with
      | none =>
          have hperform : (s.perform (.set holder mime origin)).2 = s' := by simp [perform, hmake]
          exact hunread made s' hperform hfits hasked hsources
      | some item =>
          have hperform : (s.perform (.set holder mime origin)).2 =
              s'.put holder ((s'.get holder).set mime item) := by simp [perform, hmake]
          have hset := (hfits.get holder).set mime (hitem item rfl)
          exact hunread made _ hperform (hfits.put holder hset) hasked hsources
  | delete holder mime =>
      exact hstill _ rfl (h.put holder ((h.get holder).delete mime)) rfl rfl
  | contains holder mime => exact hstill s rfl h rfl rfl
  | keys holder => exact hstill s rfl h rfl rfl
  | describe holder mime => exact hstill s rfl h rfl rfl
  | merge holder source =>
      exact hstill _ rfl (h.put holder ((h.get holder).merge (h.get source))) rfl rfl
  | fork holder source => exact hstill _ rfl (h.put holder (h.get source).fork) rfl rfl
  | clone holder source => exact hstill _ rfl (h.put holder (h.get source)) rfl rfl
  | absorb holder source =>
      have hsource := h.put source Transfer.all_empty
      exact hstill _ rfl (hsource.put holder ((hsource.get holder).absorb (h.get source))) rfl rfl
  | collect holder items =>
      obtain ⟨made, hfits, hsources, hasked, hentries⟩ := h.makeAll items
      exact hunread made _ rfl (hfits.put holder (Transfer.all_empty.setAll hentries)) hasked
        hsources
  | readText reader holder mime =>
      cases hitem : (s.get holder).get? mime with
      | none => exact hstill s (by simp [perform, hitem]) h rfl rfl
      | some item =>
          refine hreads (s.desk.text? reader item).2 (by simp [perform, hitem]) ?_ rfl
          have htext := s.desk.moves_text? reader item
          simpa [ShelfOp.wants, Transfer.textCells, hitem] using htext
  | readFile reader holder mime =>
      cases hfile : ((s.get holder).get? mime).bind Item.asFile? with
      | none => exact hstill s (by simp [perform, hfile]) h rfl rfl
      | some f =>
          refine hreads (s.desk.await? reader f.data).2 (by simp [perform, hfile]) ?_ rfl
          have hdata := s.desk.moves_await? reader (c := .content f.data) rfl rfl
          simpa [ShelfOp.wants, Transfer.contentCells_eq, hfile] using hdata
  | display reader holder mime =>
      have hall := s.desk.moves_awaitAll reader ((s.displayed holder mime).map Prod.snd)
      rw [List.map_map] at hall
      exact hreads _ rfl hall rfl
  | copyStep holder call cancelled begun action =>
      obtain ⟨made, hknown, hmoves⟩ :=
        action.moves_perform call cancelled begun (s.get holder) s.desk
      have hwants := h.wants (.copyStep holder call cancelled begun action)
      have hfits := h.withDesk (hmoves.reads.ledger hwants h.ledger)
      refine ⟨made, hfits.put holder (hmoves.charted hwants h.ledger (h.get holder)), ?_,
        hmoves.reads.asked, hmoves.reads.grows⟩
      exact List.countP_eq_zero.mpr fun c hc => by simp [hknown c hc]
  | pasteStep holder call cancelled begun action =>
      exact hreads _ rfl (action.moves_perform call (s.get holder) begun cancelled s.desk) rfl
  | openGate gate => exact hstill _ rfl ⟨h.ledger, h.charted⟩ rfl rfl
  | tick => exact hstill _ rfl ⟨h.ledger, h.charted⟩ rfl rfl

/-! ## Sequences of operations -/

/-- What a sequence of operations does to the chart of a shelf. -/
structure Runs (s : Shelf) (ops : List ShelfOp) (chart made : List Cell) : Prop where
  fits : (s.after ops).Fits (chart ++ made)
  /-- At every moment on the way a part of the chart fits the shelf. -/
  part : ∀ early, early <+: ops → ∃ more, more <+: made ∧ (s.after early).Fits (chart ++ more)
  sources : made.countP Cell.fromPlatform =
    (ops.flatMap ShelfOp.origins).countP Origin.fromPlatform
  asked : ∀ i ∈ (s.after ops).desk.reads.asked, i ∈ s.desk.reads.asked ∨
    ∃ early op late, ops = early ++ op :: late ∧ i ∈ (op.wants (s.after early)).map Cell.id
  grows : s.desk.reads.asked ⊆ (s.after ops).desk.reads.asked

/-- **A sequence of operations adds to the chart what each of them adds.** -/
theorem Fits.runs {s : Shelf} {chart : List Cell} (h : s.Fits chart) (ops : List ShelfOp) :
    ∃ made, s.Runs ops chart made := by
  induction ops generalizing s chart with
  | nil =>
      refine ⟨[], by rwa [List.append_nil], fun early hearly => ?_, rfl, fun i hi => .inl hi,
        List.Subset.refl _⟩
      obtain rfl := List.prefix_nil.mp hearly
      exact ⟨[], List.prefix_rfl, by rwa [List.append_nil]⟩
  | cons op rest ih =>
      obtain ⟨first, hstep⟩ := h.steps op
      obtain ⟨made, hrun⟩ := ih hstep.fits
      refine ⟨first ++ made, ?_, fun early hearly => ?_, ?_, fun i hi => ?_,
        List.Subset.trans hstep.grows hrun.grows⟩
      · rw [← List.append_assoc]
        exact hrun.fits
      · cases early with
        | nil => exact ⟨[], List.nil_prefix, by rwa [List.append_nil]⟩
        | cons op' early =>
            obtain ⟨rfl, hrest⟩ := List.cons_prefix_cons.mp hearly
            obtain ⟨more, hmore, hfits⟩ := hrun.part early hrest
            refine ⟨first ++ more, (List.prefix_append_right_inj first).mpr hmore, ?_⟩
            rw [← List.append_assoc]
            exact hfits
      · rw [List.countP_append, hstep.sources, hrun.sources, ← List.countP_append]
        rfl
      · obtain hi | ⟨early, op', late, rfl, hwanted⟩ := hrun.asked i hi
        · obtain hi | hwanted := hstep.asked i hi
          · exact .inl hi
          · exact .inr ⟨[], op, rest, rfl, hwanted⟩
        · exact .inr ⟨op :: early, op', late, rfl, hwanted⟩

end Shelf

/-! ## What providers are told -/

/-- The type of the text that a built-in action of a paste provider reads. -/
def PasteAction.reads? (call : Call) : PasteAction → Option String
  | .insertSnippet => if call.document.language = markdownLanguage then some snippetMime else none
  | .insertLinks => some UriList.mime
  | _ => none

/-- What a built-in action answers comes of the text that it reads. -/
theorem PasteAction.perform_of_reads? {action : PasteAction} {call : Call} {mime : String}
    (hreads : action.reads? call = some mime) {t : Transfer} {item : Item}
    (hitem : t.get? mime = some item) (begun : Option Nat) (cancelled : Bool) (desk : Desk) :
    ∃ answer, action.perform call t begun cancelled desk =
      call.withText item cancelled desk answer := by
  cases action with
  | insertSnippet =>
      rw [reads?, Option.ite_none_right_eq_some] at hreads
      obtain ⟨hmarkdown, hmime⟩ := hreads
      obtain rfl := Option.some.inj hmime
      exact ⟨snippetAnswer call, by simp [perform, hmarkdown, hitem]⟩
  | insertLinks =>
      obtain rfl := Option.some.inj hreads
      exact ⟨linkAnswer call cancelled, by simp [perform, hitem]⟩
  | _ => cases hreads

/-- Who reports the items of a transfer, and the name of its holder. -/
def ShelfOp.reporter? : ShelfOp → Option (String × Call)
  | .copyStep holder call _ _ (.report .items) => some (holder, call)
  | .pasteStep holder call _ _ (.report .items) => some (holder, call)
  | _ => none

/-- No two contents have the same digits. -/
theorem hexOfBytes_injective : Function.Injective hexOfBytes := by
  intro bytes bytes' h
  have hdigits : bytes.flatMap (fun b => Text.hexDigits 2 b.toNat) =
      bytes'.flatMap fun b => Text.hexDigits 2 b.toNat := String.ofList_injective h
  clear h
  induction bytes generalizing bytes' with
  | nil =>
      cases bytes' with
      | nil => rfl
      | cons b' rest' => simp [Text.hexDigits] at hdigits
  | cons b rest ih =>
      cases bytes' with
      | nil => simp [Text.hexDigits] at hdigits
      | cons b' rest' =>
          rw [List.flatMap_cons, List.flatMap_cons] at hdigits
          obtain ⟨hbyte, hrest⟩ := List.append_inj hdigits (by simp)
          have hread := Text.readHex?_hexDigits 0 (k := 2) b.toNat_lt
          rw [hbyte, Text.readHex?_hexDigits 0 (k := 2) b'.toNat_lt] at hread
          have hvalue : b'.toNat = b.toNat := by simpa using hread
          rw [UInt8.toNat_inj.mp hvalue, ih hrest]

namespace Desk

theorem log_await? {α : Type} (desk : Desk) (task : Task) (d : Deferred α) :
    (desk.await? task d).2.log = desk.log := by
  unfold await?
  split
  · unfold standAt
    split <;> rfl
  · rfl

theorem log_awaitAll (desk : Desk) (task : Task) (items : List Item) :
    (desk.awaitAll task items).2.log = desk.log := by
  induction items generalizing desk with
  | nil => rfl
  | cons item rest ih =>
      cases item with
      | text value =>
          have hvalue := desk.log_await? task value
          unfold awaitAll
          split <;> rename_i h <;> rw [h] at hvalue
          · exact (ih _).trans hvalue
          · exact hvalue
      | file f =>
          have hdata := desk.log_await? task f.data
          unfold awaitAll
          split <;> rename_i h <;> rw [h] at hdata
          · exact (ih _).trans hdata
          · exact hdata

/-- What a report puts on the log is put there once everything is known. -/
theorem reported_cases {α : Type} {desk : Desk} {call : Call} {t : Transfer}
    {items : List ShownItem}
    (h : (desk.report (α := α) call t .items).2.log =
      desk.log ++ [⟨call.task, call.provider, .items items⟩]) :
    (desk.awaitAll call.task (t.entries.map Prod.snd)).1 = true ∧ items = t.shown ∧
      (desk.report (α := α) call t .items).2.reads =
        (desk.awaitAll call.task (t.entries.map Prod.snd)).2.reads := by
  have hlog := desk.log_awaitAll call.task (t.entries.map Prod.snd)
  unfold report at h ⊢
  rcases hall : desk.awaitAll call.task (t.entries.map Prod.snd) with ⟨known, desk'⟩
  rw [hall] at hlog h
  cases known with
  | false =>
      have hsame : desk.log = desk.log ++ [_] := hlog.symm.trans h
      simp at hsame
  | true =>
      have hnoted : desk'.log ++ [⟨call.task, call.provider, .items t.shown⟩] =
          desk.log ++ [⟨call.task, call.provider, .items items⟩] := h
      rw [hlog] at hnoted
      have hitems : t.shown = items := by simpa using hnoted
      exact ⟨rfl, hitems.symm, rfl⟩

end Desk

namespace Shelf

/-! ## What holders are told -/

/-- An operation on a shelf tells a holder what comes of the cell with an identity. -/
inductive Tells (s : Shelf) : ShelfOp → Nat → Value → Prop
  | text (reader : Task) (holder mime : String) (d : Deferred String) (text : String)
      (hitem : (s.get holder).get? mime = some (.text d))
      (htext : (s.perform (.readText reader holder mime)).1 = .text (some text)) :
      Tells s (.readText reader holder mime) d.id (.text text)
  | content (reader : Task) (holder mime : String) (f : TransferFile)
      (content : Except ReadFailure Bytes)
      (hitem : (s.get holder).get? mime = some (.file f))
      (hcontent : (s.perform (.readFile reader holder mime)).1 = .content (some content)) :
      Tells s (.readFile reader holder mime) f.data.id (.content content)
  | shownText (reader : Task) (holder : String) (mime : Option String) (k : Nat) (key : String)
      (d : Deferred String) (items : List ShownItem) (x : ShownItem)
      (hitem : (s.displayed holder mime)[k]? = some (key, .text d))
      (hshown : (s.perform (.display reader holder mime)).1 = .shown (some items))
      (hx : items[k]? = some x) :
      Tells s (.display reader holder mime) d.id (.text x.text)
  | shownContent (reader : Task) (holder : String) (mime : Option String) (k : Nat) (key : String)
      (f : TransferFile) (items : List ShownItem) (x : ShownItem) (file : ShownFile)
      (hitem : (s.displayed holder mime)[k]? = some (key, .file f))
      (hshown : (s.perform (.display reader holder mime)).1 = .shown (some items))
      (hx : items[k]? = some x) (hfile : x.file = some file) :
      Tells s (.display reader holder mime) f.data.id (.content file.data)
  /-- A paste provider passes on the text of an item. -/
  | echoed (holder : String) (call : Call) (cancelled : Bool) (begun : Option Nat) (mime : String)
      (d : Deferred String) (text : String)
      (hitem : (s.get holder).get? mime = some (.text d))
      (hanswer : (s.perform (.pasteStep holder call cancelled begun (.echo mime))).1 =
        .pasted (.done (.ok (some (call.replacing text)))) cancelled) :
      Tells s (.pasteStep holder call cancelled begun (.echo mime)) d.id (.text text)
  /-- A paste provider fails because a file could not be read. -/
  | failed (holder : String) (call : Call) (cancelled : Bool) (begun : Option Nat) (mime : String)
      (f : TransferFile) (failure : ReadFailure)
      (hitem : (s.get holder).get? mime = some (.file f))
      (hanswer : (s.perform (.pasteStep holder call cancelled begun (.echoFile mime))).1 =
        .pasted (.done (.error (.transfer failure))) cancelled) :
      Tells s (.pasteStep holder call cancelled begun (.echoFile mime)) f.data.id
        (.content (.error failure))
  /-- A paste provider passes on the content of a file. -/
  | echoedFile (holder : String) (call : Call) (cancelled : Bool) (begun : Option Nat)
      (mime : String) (f : TransferFile) (bytes : Bytes)
      (hitem : (s.get holder).get? mime = some (.file f))
      (hanswer : (s.perform (.pasteStep holder call cancelled begun (.echoFile mime))).1 =
        .pasted (.done (.ok (some (call.replacing
          (f.name ++ "|" ++ f.uri.getD "-" ++ "|" ++ hexOfBytes bytes))))) cancelled) :
      Tells s (.pasteStep holder call cancelled begun (.echoFile mime)) f.data.id
        (.content (.ok bytes))
  /-- A built-in paste provider reads a snippet or a list of links. -/
  | read (holder : String) (call : Call) (cancelled : Bool) (begun : Option Nat)
      (action : PasteAction) (mime : String) (d : Deferred String) (text : String)
      (hreads : action.reads? call = some mime)
      (hitem : (s.get holder).get? mime = some (.text d))
      (htold : (s.desk.text? call.task (.text d)).1 = some text) :
      Tells s (.pasteStep holder call cancelled begun action) d.id (.text text)
  /-- A provider reports what its transfer shows, a text among it. -/
  | reportedText (op : ShelfOp) (holder : String) (call : Call) (k : Nat) (key : String)
      (d : Deferred String) (items : List ShownItem) (x : ShownItem)
      (hreporter : op.reporter? = some (holder, call))
      (hitem : (s.get holder).entries[k]? = some (key, .text d))
      (hlog : (s.perform op).2.desk.log =
        s.desk.log ++ [⟨call.task, call.provider, .items items⟩])
      (hx : items[k]? = some x) :
      Tells s op d.id (.text x.text)
  /-- And a file among it. -/
  | reportedContent (op : ShelfOp) (holder : String) (call : Call) (k : Nat) (key : String)
      (f : TransferFile) (items : List ShownItem) (x : ShownItem) (file : ShownFile)
      (hreporter : op.reporter? = some (holder, call))
      (hitem : (s.get holder).entries[k]? = some (key, .file f))
      (hlog : (s.perform op).2.desk.log =
        s.desk.log ++ [⟨call.task, call.provider, .items items⟩])
      (hx : items[k]? = some x) (hfile : x.file = some file) :
      Tells s op f.data.id (.content file.data)

/-- What is shown is shown once everything is there. -/
theorem shown_cases {s : Shelf} {reader : Task} {holder : String} {mime : Option String}
    {items : List ShownItem}
    (h : (s.perform (.display reader holder mime)).1 = .shown (some items)) :
    (s.desk.awaitAll reader ((s.displayed holder mime).map Prod.snd)).1 = true ∧
      items = (s.displayed holder mime).map fun e => e.2.shown e.1 := by
  have hsome : (if (s.desk.awaitAll reader ((s.displayed holder mime).map Prod.snd)).1 then
      some ((s.displayed holder mime).map fun e => e.2.shown e.1) else none) = some items :=
    ShelfAnswer.shown.inj h
  split at hsome
  next hall => exact ⟨hall, (Option.some.inj hsome).symm⟩
  · simp at hsome

/-- A provider that reports its items has asked for all of them. -/
theorem Fits.reported {s : Shelf} {chart : List Cell} (h : s.Fits chart) {op : ShelfOp}
    {holder : String} {call : Call} (hreporter : op.reporter? = some (holder, call))
    {items : List ShownItem} (hlog : (s.perform op).2.desk.log =
      s.desk.log ++ [⟨call.task, call.provider, .items items⟩])
    {k : Nat} {e : String × Item} (hitem : (s.get holder).entries[k]? = some e) :
    Charted chart e.2.cell ∧ items[k]? = some (e.2.shown e.1) ∧
      e.2.cell.id ∈ (s.perform op).2.desk.reads.asked := by
  have hcharted : ∀ item ∈ (s.get holder).entries.map Prod.snd, Charted chart item.cell := by
    intro item hmem
    obtain ⟨e, he, rfl⟩ := List.mem_map.mp hmem
    exact h.get holder e he
  have hmem := List.mem_map_of_mem (f := Prod.snd) (List.mem_of_getElem? hitem)
  -- copy and paste providers report in one way
  have hreport : ∀ {α : Type}, (s.perform op).2.desk =
      (s.desk.report (α := α) call (s.get holder) .items).2 →
      items[k]? = some (e.2.shown e.1) ∧
        e.2.cell.id ∈ (s.perform op).2.desk.reads.asked := by
    intro α hdesk
    rw [hdesk] at hlog ⊢
    obtain ⟨hall, rfl, hreads⟩ := Desk.reported_cases hlog
    rw [hreads]
    exact ⟨by rw [Transfer.shown, List.getElem?_map, hitem]; rfl,
      Desk.mem_asked_awaitAll h.ledger call.task hcharted hall _ hmem⟩
  refine ⟨hcharted _ hmem, ?_⟩
  unfold ShelfOp.reporter? at hreporter
  split at hreporter
  next =>
    obtain ⟨rfl, rfl⟩ := Prod.mk.inj (Option.some.inj hreporter)
    exact hreport rfl
  next =>
    obtain ⟨rfl, rfl⟩ := Prod.mk.inj (Option.some.inj hreporter)
    exact hreport rfl
  · cases hreporter

/-- **A holder is told what stands on the chart,** and the ledger has it that somebody asked. -/
theorem Fits.tells {s : Shelf} {chart : List Cell} (h : s.Fits chart) {op : ShelfOp} {i : Nat}
    {value : Value} (htells : s.Tells op i value) :
    (∃ c, chart[i]? = some c ∧ c.value = value) ∧ i ∈ (s.perform op).2.desk.reads.asked := by
  have hdisplayed : ∀ {reader : Task} {holder : String} {mime : Option String} {k : Nat}
      {e : String × Item} {items : List ShownItem}, (s.displayed holder mime)[k]? = some e →
      (s.perform (.display reader holder mime)).1 = .shown (some items) →
      Charted chart e.2.cell ∧ items[k]? = some (e.2.shown e.1) ∧
        e.2.cell.id ∈ (s.perform (.display reader holder mime)).2.desk.reads.asked := by
    intro reader holder mime k e items hitem hshown
    obtain ⟨hall, rfl⟩ := shown_cases hshown
    have hcharted : ∀ item ∈ (s.displayed holder mime).map Prod.snd, Charted chart item.cell := by
      intro item hmem
      obtain ⟨e, he, rfl⟩ := List.mem_map.mp hmem
      exact h.get holder e (List.mem_filter.mp he).1
    have hmem := List.mem_map_of_mem (f := Prod.snd) (List.mem_of_getElem? hitem)
    exact ⟨hcharted _ hmem, by rw [List.getElem?_map, hitem]; rfl,
      Desk.mem_asked_awaitAll h.ledger reader hcharted hall _ hmem⟩
  cases htells with
  | text reader holder mime d text hitem htext =>
      have hanswer : (s.desk.await? reader d).1 = some text := by
        simpa [perform, hitem, Desk.text?] using htext
      have hdesk : (s.perform (.readText reader holder mime)).2.desk =
          (s.desk.await? reader d).2 := by
        simp [perform, hitem, Desk.text?]
      obtain rfl := Desk.value_of_await? hanswer
      exact ⟨⟨.text d, (h.get holder).get? hitem, rfl⟩,
        hdesk ▸ Desk.mem_asked_await? h.ledger reader d⟩
  | content reader holder mime f content hitem hcontent =>
      have hanswer : (s.desk.await? reader f.data).1 = some content := by
        simpa [perform, hitem, Item.asFile?] using hcontent
      have hdesk : (s.perform (.readFile reader holder mime)).2.desk =
          (s.desk.await? reader f.data).2 := by
        simp [perform, hitem, Item.asFile?]
      obtain rfl := Desk.value_of_await? hanswer
      exact ⟨⟨.content f.data, (h.get holder).get? hitem, rfl⟩,
        hdesk ▸ Desk.mem_asked_await? h.ledger reader f.data⟩
  | shownText reader holder mime k key d items x hitem hshown hx =>
      obtain ⟨hcharted, hk, hasked⟩ := hdisplayed hitem hshown
      obtain rfl := Option.some.inj (hx.symm.trans hk)
      exact ⟨⟨.text d, hcharted, rfl⟩, hasked⟩
  | shownContent reader holder mime k key f items x file hitem hshown hx hfile =>
      obtain ⟨hcharted, hk, hasked⟩ := hdisplayed hitem hshown
      obtain rfl := Option.some.inj (hx.symm.trans hk)
      obtain rfl := Option.some.inj hfile
      exact ⟨⟨.content f.data, hcharted, rfl⟩, hasked⟩
  | echoed holder call cancelled begun mime d text hitem hanswer =>
      have hperform : PasteAction.perform call (s.get holder) begun cancelled s.desk (.echo mime) =
          call.withText (.text d) cancelled s.desk
            fun text => .done (.ok (some (call.replacing text))) := by
        simp only [PasteAction.perform, hitem]
      have hasked := Desk.mem_asked_await? h.ledger call.task d
      simp only [perform, hperform, Call.withText, Desk.text?] at hanswer ⊢
      rcases hawait : s.desk.await? call.task d with ⟨known, desk⟩
      rw [hawait] at hanswer hasked
      cases known with
      | none => cases hanswer
      | some told =>
          obtain rfl := Desk.value_of_await? (congrArg Prod.fst hawait)
          obtain rfl : d.value = text := by
            simpa [Call.replacing, TextEdit.replacing] using hanswer
          exact ⟨⟨.text d, (h.get holder).get? hitem, rfl⟩, hasked⟩
  | failed holder call cancelled begun mime f failure hitem hanswer =>
      have hasked := Desk.mem_asked_await? h.ledger call.task f.data
      simp only [perform, PasteAction.perform, hitem, Option.bind_some, Item.asFile?] at hanswer ⊢
      rcases hawait : s.desk.await? call.task f.data with ⟨known, desk⟩
      rw [hawait] at hanswer hasked
      obtain _ | told | bytes := known
      · cases hanswer
      · have hvalue := Desk.value_of_await? (congrArg Prod.fst hawait)
        obtain rfl : told = failure := by simpa using hanswer
        exact ⟨⟨.content f.data, (h.get holder).get? hitem, congrArg Value.content hvalue.symm⟩,
          hasked⟩
      · cases hanswer
  | echoedFile holder call cancelled begun mime f bytes hitem hanswer =>
      have hasked := Desk.mem_asked_await? h.ledger call.task f.data
      simp only [perform, PasteAction.perform, hitem, Option.bind_some, Item.asFile?] at hanswer ⊢
      rcases hawait : s.desk.await? call.task f.data with ⟨known, desk⟩
      rw [hawait] at hanswer hasked
      obtain _ | told | told := known
      · cases hanswer
      · cases hanswer
      · have hvalue := Desk.value_of_await? (congrArg Prod.fst hawait)
        have hdigits : hexOfBytes told = hexOfBytes bytes := by
          simpa [Call.replacing, TextEdit.replacing] using hanswer
        obtain rfl := hexOfBytes_injective hdigits
        exact ⟨⟨.content f.data, (h.get holder).get? hitem, congrArg Value.content hvalue.symm⟩,
          hasked⟩
  | read holder call cancelled begun action mime d text hreads hitem htold =>
      obtain ⟨answer, hperform⟩ :=
        PasteAction.perform_of_reads? hreads hitem begun cancelled s.desk
      have hasked := Desk.mem_asked_await? h.ledger call.task d
      have hknown : (s.desk.await? call.task d).1 = some text := htold
      obtain rfl := Desk.value_of_await? hknown
      refine ⟨⟨.text d, (h.get holder).get? hitem, rfl⟩, ?_⟩
      simp only [perform, hperform, Call.withText, Desk.text?]
      rcases hawait : s.desk.await? call.task d with ⟨known, desk⟩
      rw [hawait] at hasked
      cases known <;> exact hasked
  | reportedText op holder call k key d items x hreporter hitem hlog hx =>
      obtain ⟨hcharted, hk, hasked⟩ := h.reported hreporter hlog hitem
      obtain rfl := Option.some.inj (hx.symm.trans hk)
      exact ⟨⟨.text d, hcharted, rfl⟩, hasked⟩
  | reportedContent op holder call k key f items x file hreporter hitem hlog hx hfile =>
      obtain ⟨hcharted, hk, hasked⟩ := h.reported hreporter hlog hitem
      obtain rfl := Option.some.inj (hx.symm.trans hk)
      obtain rfl := Option.some.inj hfile
      exact ⟨⟨.content f.data, hcharted, rfl⟩, hasked⟩

theorem fits_ofPayload (holder : String) (payload : Payload) :
    (ofPayload holder payload).Fits payload.cells := by
  obtain ⟨hledger, hon⟩ := Transfer.ledger_ofPayload payload Ledger.empty
  exact ⟨hledger, fun e he => List.mem_singleton.mp he ▸ hon⟩

/-- Reading is lazy and shared on a shelf throughout a sequence of operations, as a chart of all
cells shows. -/
structure ReadsLazily (start : Shelf) (ops : List ShelfOp) (chart : List Cell) : Prop where
  /-- Every cell has an identity of its own, which is its position on the chart. -/
  ids : chart.map Cell.id = List.range chart.length
  /-- Nobody asks for a cell that was asked for before. -/
  once : (start.after ops).desk.reads.asked.Nodup
  /-- The platform was asked once for each of its cells that somebody asked for. -/
  count : (start.after ops).desk.reads.count = chart.countP fun c : Cell =>
    c.fromPlatform && (start.after ops).desk.reads.asked.contains c.id
  /-- A cell is asked for only by an operation that wants to know it. -/
  wanted : ∀ i ∈ (start.after ops).desk.reads.asked, ∃ early op late,
    ops = early ++ op :: late ∧ i ∈ (op.wants (start.after early)).map Cell.id
  /-- Every item that anybody holds at any moment has its cell on the chart. -/
  held : ∀ early, early <+: ops → ∀ holder mime item,
    ((start.after early).get holder).get? mime = some item → Charted chart item.cell
  /-- Whoever is told anything is told what stands on the chart, and not before it was asked for. -/
  told : ∀ early op late i value, ops = early ++ op :: late →
    (start.after early).Tells op i value →
      (∃ c, chart[i]? = some c ∧ c.value = value) ∧
        i ∈ (start.after (early ++ [op])).desk.reads.asked ∧
        i ∈ (start.after ops).desk.reads.asked

/-- **Whatever is done with the transfers of one payload, reading is lazy and shared.** The chart
begins with the cells of the payload, and no operation adds one of the platform but with a source
of its own. -/
theorem sources_asked_once (payload : Payload) (holder : String) (ops : List ShelfOp) :
    ∃ made, made.countP Cell.fromPlatform =
        (ops.flatMap ShelfOp.origins).countP Origin.fromPlatform ∧
      (ofPayload holder payload).ReadsLazily ops (payload.cells ++ made) := by
  obtain ⟨made, hrun⟩ := (fits_ofPayload holder payload).runs ops
  have hunread : (ofPayload holder payload).desk.reads.asked = [] :=
    List.eq_nil_iff_forall_not_mem.mpr fun i hi =>
      List.not_mem_nil (Transfer.asked_ofPayload payload {} i hi)
  have hcharted : ∀ early, early <+: ops → ∃ part, part <+: payload.cells ++ made ∧
      ((ofPayload holder payload).after early).Fits part := fun early hearly => by
    obtain ⟨more, hmore, hfits⟩ := hrun.part early hearly
    exact ⟨_, (List.prefix_append_right_inj payload.cells).mpr hmore, hfits⟩
  refine ⟨made, hrun.sources, hrun.fits.ledger.ids, hrun.fits.ledger.once, hrun.fits.ledger.count,
    fun i hi => ?_, fun early hearly name mime item hitem => ?_,
    fun early op late i value hops htells => ?_⟩
  · obtain hi | hwanted := hrun.asked i hi
    · rw [hunread] at hi
      exact absurd hi List.not_mem_nil
    · exact hwanted
  · obtain ⟨part, ⟨rest, hrest⟩, hfits⟩ := hcharted early hearly
    rw [← hrest]
    exact ((hfits.get name).get? hitem).mono rest
  · obtain ⟨part, ⟨rest, hrest⟩, hfits⟩ := hcharted early ⟨op :: late, hops.symm⟩
    obtain ⟨⟨c, hc, hvalue⟩, hasked⟩ := hfits.tells htells
    obtain ⟨first, hstep⟩ := hfits.steps op
    obtain ⟨more, hlater⟩ := hstep.fits.runs late
    refine ⟨⟨c, ?_, hvalue⟩, ?_, ?_⟩
    · rw [← hrest, List.getElem?_append_left (List.getElem?_eq_some_iff.mp hc).1, hc]
    · rw [after_append]
      exact hasked
    · rw [hops, after_append]
      exact hlater.grows hasked

end Shelf

end CopyPaste

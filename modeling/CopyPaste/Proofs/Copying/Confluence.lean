import CopyPaste.Proofs.Coordinator.Course

/-!
# The result of a copy

Whatever order the providers of a copy go on in, the copy comes to the same result, and the
result is what the providers would have recorded one by one: each type is decided by the
provider of highest priority that succeeded and changed it, and providers that failed have no
part in it.

* `Decided` — a result, type by type;
* **`fanOut_confluent`** — every interleaving in which all providers end gives that result;
* **`lanes_interleaved`** — the copies of a running coordinator are interleavings.
-/

namespace CopyPaste

namespace CopyRun

/-! ## Results of lanes that have ended -/

theorem outcome?_of_ended {lanes : List Lane} (hended : ∀ l ∈ lanes, l.hasEnded = true)
    (base : Transfer) (policy : FailurePolicy) :
    outcome? base policy false lanes = some (collect base policy false lanes) := by
  have hcrashed : lanes.any Lane.hasCrashed = false := by
    rw [List.any_eq_false]
    intro l hl
    rw [Lane.not_hasCrashed_of_hasEnded (hended l hl)]
    exact Bool.false_ne_true
  have hrunning : lanes.any Lane.isRunning = false := by
    rw [List.any_eq_false]
    intro l hl
    rw [Lane.not_isRunning_of_hasEnded (hended l hl)]
    exact Bool.false_ne_true
  unfold outcome?
  rw [hcrashed, hrunning]
  rfl

/-- Under `isolate` there always is a result. -/
theorem outcome?_isolate {lanes : List Lane} (hended : ∀ l ∈ lanes, l.hasEnded = true)
    (base : Transfer) :
    outcome? base .isolate false lanes = some (some (absorbAll base lanes)) := by
  rw [outcome?_of_ended hended]
  rfl

/-- Under `abortAll` there is one if nobody failed, and it is the same. -/
theorem outcome?_abortAll {lanes : List Lane} (hended : ∀ l ∈ lanes, l.hasEnded = true)
    (base : Transfer) :
    outcome? base .abortAll false lanes =
      some (if lanes.any Lane.failed then none else some (absorbAll base lanes)) := by
  rw [outcome?_of_ended hended]
  unfold collect
  by_cases hfailed : lanes.any Lane.failed = true
  · simp [hfailed]
  · simp [hfailed]

/-! ## Confluence -/

/-- A result of a copy, type by type. `soloists` are the providers, each by itself on a fork of
the base and in order of priority. -/
structure Decided (base : Transfer) (soloists : List Lane) (result : Transfer) : Prop where
  /-- The provider of highest priority that succeeded and changed the type decides it. -/
  changed : ∀ mime l, decider? mime soloists = some l →
    (result.get? mime).map Item.anonymous = (l.fork.get? mime).map Item.anonymous
  /-- A type that no provider changed in success is as it was. -/
  unchanged : ∀ mime, decider? mime soloists = none → result.get? mime = base.get? mime
  /-- Providers that failed have no part in the result. -/
  failures : result.anonymous = (absorbAll base (soloists.filter Lane.succeeded)).anonymous

theorem decided_absorbAll {base : Transfer} (hb : base.keys.Nodup) {lanes soloists : List Lane}
    (hn : ∀ l ∈ lanes, l.fork.keys.Nodup)
    (h : lanes.map Lane.verdict = soloists.map Lane.verdict) :
    Decided base soloists (absorbAll base lanes) where
  changed := fun mime s hs => by
    have hdecider := decider?_congr mime h
    rw [hs] at hdecider
    obtain ⟨l, hl, hverdict⟩ := Option.map_eq_some_iff.mp hdecider
    have hfork : l.fork.anonymous = s.fork.anonymous := congrArg Prod.snd hverdict
    rw [get?_absorbAll hb hn, hl, ← Transfer.get?_anonymous, hfork, Transfer.get?_anonymous]
  unchanged := fun mime hnone => by
    have hdecider := decider?_congr mime h
    rw [hnone] at hdecider
    rw [get?_absorbAll hb hn, Option.map_eq_none_iff.mp hdecider]
  failures := by
    rw [absorbAll_filter_succeeded]
    exact anonymous_absorbAll_congr base h

end CopyRun

open CopyRun

/-- Two providers that write the same type; the first one waits in between. -/
def contenders : List (String × CopyScript) :=
  [("first", [.set "k" "1", .pause (.sleep 5), .delete "j"]),
    ("second", [.set "k" "2", .set "j" "3"])]

/-- A copy in which the two take part. -/
def contest : CopyRun :=
  ({} : Coordinator).newCopy ⟨0⟩ { uri := "a", language := "l", text := "ab" } ⟨0, 1⟩ {} contenders

/-- The lanes of a copy are those it started with after some moves, and a result it has is what
they come to. -/
def Interleaved (i : Nat) (c : CopyRun) : Prop :=
  ∃ (m : Coordinator) (base : Transfer) (providers : List (String × CopyScript))
    (moves : List (Nat × Desk)),
    base.keys.Nodup ∧
    c.origin = (m.newCopy c.handle c.document c.selection base providers).origin ∧
    c.lanes = (m.newCopy c.handle c.document c.selection base providers).interleave (.copy i)
      moves ∧
    (c.result.isSome = true → c.result = outcome? base c.policy false c.lanes)

theorem interleaved_newCopy (m : Coordinator) (i : Nat) (handle : Handle) (document : Document)
    (selection : Selection) {base : Transfer} (hb : base.keys.Nodup)
    (providers : List (String × CopyScript)) :
    Interleaved i (m.newCopy handle document selection base providers) :=
  ⟨m, base, providers, [], hb, rfl, rfl, fun h => by simp [Coordinator.newCopy] at h⟩

theorem Interleaved.poll {i : Nat} {c : CopyRun} (h : Interleaved i c)
    (hcancelled : c.cancelled = false) (desk : Desk) : Interleaved i (c.poll i desk).1 := by
  obtain ⟨m, base, providers, moves, hb, horigin, hlanes, hresult⟩ := h
  unfold CopyRun.poll
  split
  · exact ⟨m, base, providers, moves, hb, horigin, hlanes, hresult⟩
  · obtain ⟨more, hmore⟩ := c.exists_moves_runLanes (.copy i) c.lanes desk
    refine ⟨m, base, providers, moves ++ more, hb, horigin, ?_, fun _ => ?_⟩
    · show (runLanes (.copy i) c.document c.selection c.cancelled c.lanes desk).1 = _
      rw [hcancelled, hmore]
      unfold interleave
      rw [moveAll_append]
      show _ = moveAll _ _ (interleave _ _ moves) more
      rw [← hlanes]
      -- a move needs the document and the selection of the copy only
      rfl
    · have hbase : c.base = base := congrArg CopyRun.base horigin
      show outcome? c.base c.policy c.cancelled _ = outcome? base c.policy false _
      rw [hcancelled, hbase]

theorem interleaved_handle {m : Coordinator}
    (h : ∀ (i : Nat) (c : CopyRun), m.copies[i]? = some c → c.cancelled = false →
      Interleaved i c) (e : Event) :
    ∀ (i : Nat) (c : CopyRun), (m.handle e).copies[i]? = some c → c.cancelled = false →
      Interleaved i c := by
  intro i c' hc' hcancelled
  obtain ⟨c, hc, hstep⟩ | ⟨-, document, selection, base, providers, fresh, rfl, hb, -⟩ :=
    Coordinator.copyStep_cases hc'
  · cases hstep with
    | still => exact h i c' hc hcancelled
    | seats seats => exact h i c hc hcancelled
    | cancels hmark hpending => simp at hcancelled
    | polls he hhead =>
        have hc₀ : c.cancelled = false := by
          rw [← hcancelled, c.cancelled_poll]
        exact (h i c hc hc₀).poll hc₀ m.desk
  · exact interleaved_newCopy m i fresh document selection hb providers

/-- **The copies of a running coordinator are interleavings,** as long as nobody cancels them. -/
theorem lanes_interleaved {m : Coordinator} (hm : m.Reachable) {i : Nat} {c : CopyRun}
    (hc : m.copies[i]? = some c) (hcancelled : c.cancelled = false) : Interleaved i c := by
  obtain ⟨config, history, rfl⟩ := hm
  have hstart : ∀ (i : Nat) (c : CopyRun), ({ config } : Coordinator).copies[i]? = some c →
      c.cancelled = false → Interleaved i c := by
    intro i c hc
    simp at hc
  generalize ({ config } : Coordinator) = start at hstart hc
  induction history generalizing start with
  | nil => exact hstart i c hc hcancelled
  | cons e history ih => exact ih (start.handle e) (interleaved_handle hstart e) hc

/-- **What the copies of a running coordinator come to is decided type by type** by their
providers, each run by itself. -/
theorem result_decided {m : Coordinator} (hm : m.Reachable) {i : Nat} {c : CopyRun}
    (hc : m.copies[i]? = some c) (hcancelled : c.cancelled = false) {result : Transfer}
    (hresult : c.result = some (some result)) : ∃ (m₀ : Coordinator)
      (providers : List (String × CopyScript)),
      c.origin = (m₀.newCopy c.handle c.document c.selection c.base providers).origin ∧
      Decided c.base
        ((m₀.newCopy c.handle c.document c.selection c.base providers).soloists (.copy i))
        result := by
  obtain ⟨m₀, base, providers, moves, hb, horigin, hlanes, houtcome⟩ :=
    lanes_interleaved hm hc hcancelled
  obtain rfl : c.base = base := congrArg CopyRun.base horigin
  have houtcome := (houtcome (by rw [hresult]; rfl)).symm.trans hresult
  have hstart := m₀.running_newCopy c.handle c.document c.selection c.base providers
  have hforks := (m₀.sound_newCopy hb c.handle c.document c.selection providers).lanes
  have hended := ended_of_outcome? houtcome
  rw [hlanes] at houtcome hended
  rw [← absorbAll_of_outcome? houtcome]
  exact ⟨m₀, providers, horigin, decided_absorbAll hb
    (nodup_keys_interleave hforks _ moves) (verdict_interleave hstart _ hended)⟩

end CopyPaste

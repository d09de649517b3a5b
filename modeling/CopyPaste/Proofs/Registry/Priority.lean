import CopyPaste.Proofs.Registry.InForce
import Mathlib.Data.List.Sort
import Mathlib.Data.Prod.Lex

/-!
# Priority

For a document the registrations in force are ranked by how well their selectors match it and,
among equals, by how late they were made. The rank is a pair that no two of them share, so that a
run of calls leaves only one list that is in order, whichever way it was sorted.

* **`Selector.score_cases`** — a selector fails, or its score tells which of its fields are set;
* `Registry.Ranks` — the list of what a run of calls leaves for a document;
* **`ranks_matching`**, **`Ranks.unique`** — that is what is listed, and nothing else could be;
* **`priority_over_runs`** — what is listed, what removing answers, and that the order between two
  registrations never changes.
-/

namespace CopyPaste

/-! ## Scores -/

namespace Selector

/-- A wanted word is set, and is neither the actual one nor `*`. -/
def WordFails (wanted : Option String) (actual : String) : Prop :=
  ∃ word, wanted = some word ∧ word ≠ actual ∧ word ≠ "*"

/-- A pattern is set, and nothing in a text matches it. -/
def PatternFails (pattern : Option Pattern) (text : String) : Prop :=
  ∃ p, pattern = some p ∧ p.found text.toList = false

/-- Some field that is set does not match a document. -/
def Fails (s : Selector) (d : Document) : Prop :=
  WordFails s.language d.language ∨ WordFails s.scheme d.scheme ∨ PatternFails s.pattern d.uri

/-- Some field is set. -/
def IsSet (s : Selector) : Prop := s.language ≠ none ∨ s.scheme ≠ none ∨ s.pattern ≠ none

/-- A pattern is set, or a word that is the very one of a document. -/
def IsExact (s : Selector) (d : Document) : Prop :=
  s.language = some d.language ∨ s.scheme = some d.scheme ∨ s.pattern ≠ none

/-- What a score says of the fields that have been looked at: 0 when none of them is set, 10 when
one matches exactly, and 5 when all that are set take anything. -/
structure Grades (isSet isExact : Prop) (score : Nat) : Prop where
  zero : score = 0 ↔ ¬isSet
  ten : score = 10 ↔ isExact
  five : score = 5 ↔ isSet ∧ ¬isExact

theorem grades_zero : Grades False False 0 := ⟨by simp, by simp, by simp⟩

theorem wordScore_eq_zero {wanted actual : String} :
    wordScore wanted actual = 0 ↔ wanted ≠ actual ∧ wanted ≠ "*" := by
  unfold wordScore
  split_ifs <;> simp [*]

theorem addWord?_eq_none (score : Nat) {wanted : Option String} {actual : String} :
    addWord? score wanted actual = none ↔ WordFails wanted actual := by
  cases wanted <;> simp [addWord?, wordScore_eq_zero, WordFails]

theorem addPattern?_eq_none (score : Nat) {pattern : Option Pattern} {uri : String} :
    addPattern? score pattern uri = none ↔ PatternFails pattern uri := by
  cases pattern <;> simp [addPattern?, PatternFails]

/-- The three scores there are. -/
theorem Grades.cases {isSet isExact : Prop} {score : Nat} (h : Grades isSet isExact score) :
    (score = 0 ∧ ¬isSet ∧ ¬isExact) ∨ (score = 10 ∧ isSet ∧ isExact) ∨
      (score = 5 ∧ isSet ∧ ¬isExact) := by
  by_cases hset : isSet
  · by_cases hexact : isExact
    · exact .inr (.inl ⟨h.ten.mpr hexact, hset, hexact⟩)
    · exact .inr (.inr ⟨h.five.mpr ⟨hset, hexact⟩, hset, hexact⟩)
  · have hzero := h.zero.mpr hset
    refine .inl ⟨hzero, hset, fun hexact => ?_⟩
    have hten := h.ten.mpr hexact
    omega

/-- One more word: the score grows to that of the word, if it is not that high already. -/
theorem Grades.addWord {isSet isExact : Prop} {score score' : Nat} (h : Grades isSet isExact score)
    {wanted : Option String} {actual : String}
    (hword : addWord? score wanted actual = some score') :
    Grades (isSet ∨ wanted ≠ none) (isExact ∨ wanted = some actual) score' := by
  cases wanted with
  | none =>
      obtain rfl : score = score' := by simpa [addWord?] using hword
      exact ⟨by simp [h.zero], by simp [h.ten], by simp [h.five]⟩
  | some word =>
      obtain ⟨hfits, rfl⟩ :
          wordScore word actual ≠ 0 ∧ max score (wordScore word actual) = score' := by
        simpa [addWord?] using hword
      by_cases hactual : word = actual
      · -- nothing exceeds an exact match
        have hscore : wordScore word actual = 10 := if_pos hactual
        have hle : score ≤ 10 := by
          rcases h.cases with ⟨rfl, -⟩ | ⟨rfl, -⟩ | ⟨rfl, -⟩ <;> decide
        rw [hscore, Nat.max_eq_right hle]
        exact ⟨by simp, by simp [hactual], by simp [hactual]⟩
      · have hany : word = "*" := by
          by_contra hother
          exact hfits (wordScore_eq_zero.mpr ⟨hactual, hother⟩)
        have hscore : wordScore word actual = 5 := by
          rw [wordScore, if_neg hactual, if_pos hany]
        rw [hscore]
        rcases h.cases with ⟨rfl, hset, hexact⟩ | ⟨rfl, hset, hexact⟩ | ⟨rfl, hset, hexact⟩ <;>
          exact ⟨by simp, by simp [hexact, hactual], by simp [hexact, hactual]⟩

/-- A pattern that matches is an exact match. -/
theorem Grades.addPattern {isSet isExact : Prop} {score score' : Nat}
    (h : Grades isSet isExact score) {pattern : Option Pattern} {uri : String}
    (hpattern : addPattern? score pattern uri = some score') :
    Grades (isSet ∨ pattern ≠ none) (isExact ∨ pattern ≠ none) score' := by
  cases pattern with
  | none =>
      obtain rfl : score = score' := by simpa [addPattern?] using hpattern
      exact ⟨by simp [h.zero], by simp [h.ten], by simp [h.five]⟩
  | some p =>
      obtain ⟨-, rfl⟩ : p.found uri.toList = true ∧ 10 = score' := by
        simpa [addPattern?] using hpattern
      exact ⟨by simp, by simp, by simp⟩

/-- **What a score says.** It is 0 when a field fails, and else tells which fields are set. -/
theorem score_cases (s : Selector) (d : Document) :
    (s.Fails d ∧ s.score d = 0) ∨ (¬s.Fails d ∧ Grades s.IsSet (s.IsExact d) (s.score d)) := by
  unfold score Fails
  cases hlanguage : addWord? 0 s.language d.language with
  | none => exact .inl ⟨.inl ((addWord?_eq_none 0).mp hlanguage), rfl⟩
  | some first =>
      cases hscheme : addWord? first s.scheme d.scheme with
      | none => exact .inl ⟨.inr (.inl ((addWord?_eq_none first).mp hscheme)), by simp [hscheme]⟩
      | some second =>
          cases hpattern : addPattern? second s.pattern d.uri with
          | none =>
              exact .inl ⟨.inr (.inr ((addPattern?_eq_none second).mp hpattern)),
                by simp [hscheme, hpattern]⟩
          | some third =>
              have hfits : ¬(WordFails s.language d.language ∨ WordFails s.scheme d.scheme ∨
                  PatternFails s.pattern d.uri) := by
                rw [← addWord?_eq_none 0, ← addWord?_eq_none first, ← addPattern?_eq_none second,
                  hlanguage, hscheme, hpattern]
                simp
              have hgrades := ((grades_zero.addWord hlanguage).addWord hscheme).addPattern hpattern
              simp only [false_or, or_assoc] at hgrades
              refine .inr ⟨hfits, ?_⟩
              simp only [hscheme, hpattern, Option.bind_some, Option.getD_some]
              exact hgrades

end Selector

/-! ## Ranks -/

/-- Where a registration stands for a document: the pair of its score and its number, of which the
score counts more. -/
def Registration.rank (d : Document) (e : Registration) : ℕ ×ₗ ℕ :=
  toLex (e.selector.score d, e.id)

namespace Registry

theorem precedes_iff {d : Document} {a b : Registration} :
    precedes d a b = true ↔ b.rank d ≤ a.rank d := by
  simp only [precedes, Registration.rank, Prod.Lex.toLex_le_toLex, Bool.or_eq_true,
    Bool.and_eq_true, decide_eq_true_eq, beq_iff_eq]
  rw [@eq_comm _ (a.selector.score d)]

theorem id_eq_of_rank_eq {d : Document} {a b : Registration} (h : a.rank d = b.rank d) :
    a.id = b.id :=
  (Prod.mk.inj (toLex.injective h)).2

/-- What a run of calls leaves for a document: every registration in force that matches, once,
from the highest rank down. -/
structure Ranks (calls : List RegistryCall) (d : Document) (ranked : List Registration) :
    Prop where
  mem : ∀ e, e ∈ ranked ↔ InForce calls e ∧ e.selector.score d ≠ 0
  nodup : ranked.Nodup
  descending : ranked.Pairwise fun a b => b.rank d < a.rank d

/-- In a list that descends, one entry stands before another exactly when its rank is higher. -/
theorem pair_sublist_iff {d : Document} {ranked : List Registration}
    (h : ranked.Pairwise fun a b => b.rank d < a.rank d) {a b : Registration} :
    [a, b].Sublist ranked ↔ a ∈ ranked ∧ b ∈ ranked ∧ b.rank d < a.rank d := by
  constructor
  · intro hsub
    exact ⟨hsub.subset (by simp), hsub.subset (by simp), by simpa using h.sublist hsub⟩
  · rintro ⟨ha, hb, hlt⟩
    obtain ⟨front, back, rfl⟩ := List.append_of_mem ha
    obtain ⟨-, hback, hfront⟩ := List.pairwise_append.mp h
    rcases List.mem_append.mp hb with hb | hb
    · exact absurd hlt (hfront b hb a List.mem_cons_self).asymm
    rcases List.mem_cons.mp hb with rfl | hb
    · exact absurd hlt (lt_irrefl _)
    · exact ((List.singleton_sublist.mpr hb).cons_cons a).trans (List.sublist_append_right _ _)

/-- **There is only one such list.** -/
theorem Ranks.unique {calls : List RegistryCall} {d : Document} {ranked ranked' : List Registration}
    (h : Ranks calls d ranked) (h' : Ranks calls d ranked') : ranked = ranked' := by
  have hperm : ranked.Perm ranked' :=
    (List.perm_ext_iff_of_nodup h.nodup h'.nodup).mpr fun e => (h.mem e).trans (h'.mem e).symm
  refine hperm.eq_of_pairwise (fun a b _ _ hab hba => ?_) h.descending h'.descending
  exact absurd hab hba.asymm

/-- Sorting by rank orders entries of ascending numbers strictly. -/
theorem descending_matching {r : Registry} (h : r.entries.Pairwise fun a b => a.id < b.id)
    (d : Document) : (r.matching d).Pairwise fun a b => b.rank d < a.rank d := by
  have hperm : (r.matching d).Perm (r.entries.filter fun e => e.selector.score d != 0) :=
    List.mergeSort_perm _ _
  have hdistinct : (r.matching d).Pairwise fun a b => a.id ≠ b.id :=
    (hperm.pairwise_iff fun h => h.symm).mpr ((h.imp Nat.ne_of_lt).filter _)
  have hsorted : (r.matching d).Pairwise fun a b => precedes d a b = true := by
    refine List.pairwise_mergeSort (fun a b c hab hbc => ?_) (fun a b => ?_) _
    · rw [precedes_iff] at hab hbc ⊢
      exact hbc.trans hab
    · rw [Bool.or_eq_true, precedes_iff, precedes_iff]
      exact le_total _ _
  refine (hsorted.and hdistinct).imp fun ⟨hprecedes, hne⟩ => ?_
  exact lt_of_le_of_ne (precedes_iff.mp hprecedes) fun heq => hne (id_eq_of_rank_eq heq).symm

/-- **What a registry lists for a document** after a run of calls. -/
theorem ranks_matching {calls : List RegistryCall} (hlength : calls.length < UInt64.size)
    (d : Document) : Ranks calls d ((({} : Registry).after calls).matching d) where
  mem := fun e => by
    rw [matching, List.mem_mergeSort, List.mem_filter, (records_after hlength).mem, bne_iff_ne]
  nodup := (descending_matching (records_after hlength).ascending d).imp
    fun h heq => absurd (heq ▸ h) (lt_irrefl _)
  descending := descending_matching (records_after hlength).ascending d

/-- A registration is answered with its number. -/
theorem registered_answer {before : List RegistryCall} (selector : Selector) (provider : Provider)
    (hlength : before.length < UInt64.size) :
    ((({} : Registry).after before).perform (.register selector provider)).1 =
      .registered (registrations before) :=
  congrArg RegistryAnswer.registered (records_after hlength).next

/-- **Priorities over whole runs.** After fewer calls than there are numbers, in any order, a
document's providers are those in force that match it, once each, by descending pairs of score and
number; those with a capability are some of them in the same order. A registration can be removed
once, which removes nothing else. Whatever calls follow, two registrations that stay in force keep
their order. And the score is 0, 10 or 5 by which fields of the selector are set and match. -/
theorem priority_over_runs (calls : List RegistryCall) (hlength : calls.length < UInt64.size)
    (d : Document) :
    Ranks calls d ((({} : Registry).after calls).matching d) ∧
      (({} : Registry).after calls).ordered d =
        ((({} : Registry).after calls).matching d).map (·.provider) ∧
      (∀ c, (({} : Registry).after calls).orderedWith d c =
        (((({} : Registry).after calls).matching d).filter (·.provider.supports c)).map
          (·.provider)) ∧
      (∀ before selector provider between,
        calls = before ++ .register selector provider :: between →
        ((({} : Registry).after before).perform (.register selector provider)).1 =
            .registered (registrations before) ∧
          ((({} : Registry).after calls).perform (.deregister (registrations before))).1 =
            .deregistered (decide (.deregister (registrations before) ∉ between))) ∧
      (∀ id e, e ∈ ((({} : Registry).after calls).perform (.deregister id)).2.entries ↔
        e ∈ (({} : Registry).after calls).entries ∧ e.id ≠ id) ∧
      (∀ more, (calls ++ more).length < UInt64.size → ∀ a b,
        [a, b].Sublist ((({} : Registry).after calls).matching d) →
        InForce (calls ++ more) a → InForce (calls ++ more) b →
        [a, b].Sublist ((({} : Registry).after (calls ++ more)).matching d)) ∧
      ∀ s : Selector,
        (s.score d = 0 ↔ ¬s.IsSet ∨ s.Fails d) ∧
        (s.score d = 10 ↔ ¬s.Fails d ∧ s.IsExact d) ∧
        (s.score d = 5 ↔ ¬s.Fails d ∧ s.IsSet ∧ ¬s.IsExact d) := by
  have hranks := ranks_matching hlength d
  refine ⟨hranks, rfl, fun c => ?_, ?_, fun id e => ?_, ?_, fun s => ?_⟩
  · rw [orderedWith, ordered, List.filter_map]
    rfl
  · rintro before selector provider between rfl
    have hbefore : before.length < UInt64.size := by
      rw [List.length_append] at hlength
      omega
    exact ⟨registered_answer selector provider hbefore, deregister_answer hlength⟩
  · show e ∈ List.filter _ _ ↔ _
    rw [List.mem_filter, bne_iff_ne]
  · intro more hmore a b hsub ha hb
    obtain ⟨hmema, hmemb, hlt⟩ := (pair_sublist_iff hranks.descending).mp hsub
    have hlater := ranks_matching hmore d
    exact (pair_sublist_iff hlater.descending).mpr
      ⟨(hlater.mem a).mpr ⟨ha, ((hranks.mem a).mp hmema).2⟩,
        (hlater.mem b).mpr ⟨hb, ((hranks.mem b).mp hmemb).2⟩, hlt⟩
  · rcases s.score_cases d with ⟨hfails, hzero⟩ | ⟨hfits, hgrades⟩
    · simp [hzero, hfails]
    · simp [hgrades.zero, hgrades.ten, hgrades.five, hfits]

/-- A run in which one registration is removed twice. -/
def removedTwice : List RegistryCall :=
  [.register .any ⟨"early", none, some []⟩, .register (.ofLanguage "l") ⟨"exact", none, some []⟩,
    .register .any ⟨"late", some [], none⟩, .deregister 1, .deregister 1]

/-- The two that are left can be removed, the one that was removed twice cannot, and when a third
one is registered the two stay in order. -/
theorem priority_after_two_removals :
    removedTwice.length < UInt64.size ∧
      ((({} : Registry).after removedTwice).perform (.deregister 0)).1 = .deregistered true ∧
      ((({} : Registry).after removedTwice).perform (.deregister 1)).1 = .deregistered false ∧
      [⟨2, .any, ⟨"late", some [], none⟩⟩, ⟨0, .any, ⟨"early", none, some []⟩⟩].Sublist
        ((({} : Registry).after
          (removedTwice ++ [.register (.ofLanguage "l") ⟨"third", none, some []⟩])).matching
            ⟨"a", "l", "ab", 1⟩) := by
  have hlength : removedTwice.length < UInt64.size := by decide
  obtain ⟨hranks, -, -, hanswers, -, horder, -⟩ :=
    priority_over_runs removedTwice hlength ⟨"a", "l", "ab", 1⟩
  have hlate : InForce removedTwice ⟨2, .any, ⟨"late", some [], none⟩⟩ :=
    ⟨removedTwice.take 2, _, rfl, rfl, by decide⟩
  have hearly : InForce removedTwice ⟨0, .any, ⟨"early", none, some []⟩⟩ :=
    ⟨[], _, rfl, rfl, by decide⟩
  have hlisted := (pair_sublist_iff hranks.descending).mpr
    ⟨(hranks.mem _).mpr ⟨hlate, by decide⟩, (hranks.mem _).mpr ⟨hearly, by decide⟩,
      Prod.Lex.toLex_lt_toLex.mpr (by decide)⟩
  exact ⟨hlength, (hanswers [] _ _ _ rfl).2, (hanswers (removedTwice.take 1) _ _ _ rfl).2,
    horder _ (by decide) _ _ hlisted (hlate.concat (by decide)) (hearly.concat (by decide))⟩

end Registry

end CopyPaste

import CopyPaste.Proofs.Markdown.Segments

/-!
# The way between two paths

A relative path is followed from a directory step by step: two dots remove the last segment, any
other step goes down to one. The way that is written climbs to what the two paths share and goes
down from there, and no other way climbs less.

* `follow?` — where steps lead from a list of segments;
* `LongestPrefix` — what two lists share at their start;
* **`follow?_steps`** — the steps lead to the goal;
* **`le_count_up_of_follow?`** — whatever leads there climbs out of all that is not shared;
* `Way`, **`relativePath_way`** — what a relative path is, from the two paths alone.
-/

namespace CopyPaste.Markdown

/-! ## Following steps -/

/-- Where steps lead from a list of segments. A step up removes the last segment, and leads nowhere
if there is none. -/
def follow? : List (List Char) → List (List Char) → Option (List (List Char))
  | here, [] => some here
  | here, step :: way =>
    if step = ['.', '.'] then
      if here = [] then none else follow? here.dropLast way
    else follow? (here ++ [step]) way

/-- The steps in which a relative path is written. The empty path has none. -/
def writtenSteps (path : List Char) : List (List Char) :=
  if path = [] then [] else Text.pieces (· == '/') path

theorem follow?_append (here first second : List (List Char)) :
    follow? here (first ++ second) = (follow? here first).bind fun there =>
      follow? there second := by
  induction first generalizing here with
  | nil => rfl
  | cons step first ih =>
      rw [List.cons_append, follow?, follow?]
      by_cases hup : step = ['.', '.']
      · by_cases hhere : here = []
        · simp [hup, hhere]
        · simp [hup, hhere, ih]
      · simp [hup, ih]

/-- Steps up lead to the segments before as many of the last ones. -/
theorem follow?_up {here : List (List Char)} {k : Nat} (hk : k ≤ here.length) :
    follow? here (List.replicate k ['.', '.']) = some (here.take (here.length - k)) := by
  induction k generalizing here with
  | zero => simp [follow?]
  | succ k ih =>
      have hne : here ≠ [] := List.ne_nil_of_length_pos (by omega)
      have hinit : k ≤ here.dropLast.length := by
        rw [List.length_dropLast]
        omega
      rw [List.replicate_succ, follow?, if_pos rfl, if_neg hne, ih hinit, List.length_dropLast,
        List.dropLast_eq_take, List.take_take]
      congr 2
      omega

/-- Steps down lead to all the segments they name. -/
theorem follow?_down {way : List (List Char)} (h : ['.', '.'] ∉ way) (here : List (List Char)) :
    follow? here way = some (here ++ way) := by
  induction way generalizing here with
  | nil => rw [follow?, List.append_nil]
  | cons step way ih =>
      obtain ⟨hstep, hway⟩ := not_or.mp (mt List.mem_cons.mpr h)
      rw [follow?, if_neg (Ne.symm hstep), ih hway, List.append_assoc, List.singleton_append]

/-- **The steps lead to the goal.** They climb to what is shared, where the rest of the goal
follows. -/
theorem follow?_steps {source goal : List (List Char)} (h : ['.', '.'] ∉ goal) :
    follow? source (steps source goal) = some goal := by
  have hsource := (commonCount_le source goal).1
  have hdown : ['.', '.'] ∉ goal.drop (commonCount source goal) := fun hup =>
    h (List.mem_of_mem_drop hup)
  have hshared : source.length - (source.length - commonCount source goal) =
      commonCount source goal := by omega
  rw [steps, follow?_append, follow?_up (Nat.sub_le ..), hshared, Option.bind_some,
    follow?_down hdown, take_commonCount, List.take_append_drop]

/-- Segments that are not climbed out of are still there at the end. -/
theorem take_prefix_of_follow? {here way there : List (List Char)}
    (h : follow? here way = some there) :
    here.take (here.length - way.count ['.', '.']) <+: there := by
  induction way generalizing here with
  | nil =>
      obtain rfl := Option.some.inj h
      exact List.take_prefix _ _
  | cons step way ih =>
      rw [follow?] at h
      by_cases hup : step = ['.', '.']
      · rw [if_pos hup] at h
        by_cases hhere : here = []
        · rw [hhere, List.take_nil]
          exact List.nil_prefix
        · rw [if_neg hhere] at h
          have hrest := ih h
          rw [List.length_dropLast, List.dropLast_eq_take, List.take_take] at hrest
          rw [hup, List.count_cons_self]
          have hleft : min (here.length - 1 - way.count ['.', '.']) (here.length - 1) =
              here.length - (way.count ['.', '.'] + 1) := by omega
          rwa [hleft] at hrest
      · rw [if_neg hup] at h
        have hrest := ih h
        rw [List.length_append, List.length_singleton] at hrest
        have hkept : here.take (here.length - way.count ['.', '.']) =
            (here ++ [step]).take (here.length - way.count ['.', '.']) :=
          (List.take_append_of_le_length (Nat.sub_le ..)).symm
        rw [List.count_cons_of_ne hup, hkept]
        exact (List.take_prefix_take_left (by omega)).trans hrest

/-! ## What two lists share -/

/-- The longest list with which two lists begin. -/
structure LongestPrefix (shared source goal : List (List Char)) : Prop where
  of_source : shared <+: source
  of_goal : shared <+: goal
  longest : ∀ other, other <+: source → other <+: goal → other.length ≤ shared.length

theorem length_le_commonCount {other source goal : List (List Char)} (hsource : other <+: source)
    (hgoal : other <+: goal) : other.length ≤ commonCount source goal := by
  induction other generalizing source goal with
  | nil => exact Nat.zero_le _
  | cons s other ih =>
      obtain ⟨restSource, rfl⟩ := hsource
      obtain ⟨restGoal, rfl⟩ := hgoal
      have hrest := ih (List.prefix_append other restSource) (List.prefix_append other restGoal)
      rw [List.cons_append, List.cons_append, commonCount, if_pos rfl, List.length_cons]
      omega

theorem longestPrefix_take (source goal : List (List Char)) :
    LongestPrefix (source.take (commonCount source goal)) source goal where
  of_source := List.take_prefix _ _
  of_goal := take_commonCount source goal ▸ List.take_prefix _ _
  longest other hsource hgoal := by
    rw [List.length_take_of_le (commonCount_le source goal).1]
    exact length_le_commonCount hsource hgoal

/-- **Every way to the goal climbs out of all that is not shared.** What it does not climb out of
is a prefix of both lists. -/
theorem le_count_up_of_follow? {shared source goal way : List (List Char)}
    (hshared : LongestPrefix shared source goal) (h : follow? source way = some goal) :
    source.length - shared.length ≤ way.count ['.', '.'] := by
  have hkept := hshared.longest _ (List.take_prefix _ _) (take_prefix_of_follow? h)
  rw [List.length_take] at hkept
  omega

/-! ## Relative paths -/

/-- The steps are the goal's segments, so none is empty or holds a slash. -/
theorem proper_of_mem_steps {source goal : List Char} {s : List Char}
    (h : s ∈ steps (segments source) (segments goal)) : s ≠ [] ∧ '/' ∉ s := by
  rcases mem_steps h with rfl | h
  · exact ⟨List.cons_ne_nil _ _, by decide⟩
  · exact ⟨ne_nil_of_mem_segments h, not_slash_of_mem_segments h⟩

/-- **A relative path is written in its steps.** -/
theorem writtenSteps_relativePath (source goal : List Char) :
    writtenSteps (relativePath source goal) = steps (segments source) (segments goal) := by
  have hproper : ∀ s ∈ steps (segments source) (segments goal), s ≠ [] ∧ '/' ∉ s :=
    fun _ => proper_of_mem_steps
  unfold relativePath
  cases hsteps : steps (segments source) (segments goal) with
  | nil => rfl
  | cons s rest =>
      rw [hsteps] at hproper
      have hpieces : Text.pieces (· == '/') (Text.joinWith ['/'] (s :: rest)) = s :: rest :=
        Text.pieces_joinWith (List.cons_ne_nil s rest) fun s hs => (hproper s hs).2
      rw [writtenSteps, if_neg, hpieces]
      -- the empty text has one piece, which is empty
      intro hempty
      rw [hempty] at hpieces
      have hfirst : s = [] := (List.cons.inj hpieces).1.symm
      exact (hproper s List.mem_cons_self).1 hfirst

theorem relativePath_eq_nil_iff {source goal : List Char} :
    relativePath source goal = [] ↔ steps (segments source) (segments goal) = [] := by
  rw [← writtenSteps_relativePath, writtenSteps]
  split
  next h => simp [h]
  next h => simp [h, Text.pieces_ne_nil]

/-- What is joined of proper segments does not begin with a slash. -/
theorem head_joinWith {ss : List (List Char)} (h : ∀ s ∈ ss, s ≠ [] ∧ '/' ∉ s) :
    (Text.joinWith ['/'] ss).head? ≠ some '/' := by
  cases ss with
  | nil => exact Option.some_ne_none '/' ∘ Eq.symm
  | cons s rest =>
      obtain ⟨hne, hslash⟩ := h s List.mem_cons_self
      obtain ⟨c, s, rfl⟩ := List.exists_cons_of_ne_nil hne
      have hc : c ≠ '/' := fun heq => hslash (heq ▸ List.mem_cons_self)
      cases rest with
      | nil => simpa [Text.joinWith] using hc
      | cons next rest => simpa [Text.joinWith] using hc

theorem head_relativePath (source goal : List Char) :
    (relativePath source goal).head? ≠ some '/' :=
  head_joinWith fun _ hs => proper_of_mem_steps hs

theorem steps_eq_nil_iff {source goal : List (List Char)} :
    steps source goal = [] ↔ source = goal := by
  obtain ⟨hsource, hgoal⟩ := commonCount_le source goal
  have htake := take_commonCount source goal
  rw [steps, List.append_eq_nil_iff, List.replicate_eq_nil_iff, List.drop_eq_nil_iff]
  constructor
  · rintro ⟨hups, hdown⟩
    rwa [List.take_of_length_le (by omega), List.take_of_length_le hdown] at htake
  · rintro rfl
    have hall := length_le_commonCount (List.prefix_refl source) (List.prefix_refl source)
    exact ⟨by omega, hall⟩

/-- What a path is that is written relative to a directory. `shared` is what the two paths have in
common. -/
structure Way (shared source goal : List (List Char)) (path : List Char) : Prop where
  longest : LongestPrefix shared source goal
  /-- The count that is taken from the one list and skipped in the other lies within both. -/
  in_range : commonCount source goal = shared.length ∧ shared.length ≤ source.length ∧
    shared.length ≤ goal.length
  /-- Followed from the directory it leads to the goal, and never climbs out of nothing. -/
  arrives : follow? source (writtenSteps path) = some goal
  empty_iff : path = [] ↔ source = goal
  no_empty_step : [] ∉ writtenSteps path
  relative : path.head? ≠ some '/'
  /-- First it climbs to what is shared, then it only goes down. -/
  climbs_first : ∃ down, ['.', '.'] ∉ down ∧
    writtenSteps path = List.replicate (source.length - shared.length) ['.', '.'] ++ down
  /-- No other way to the goal climbs less. -/
  fewest : ∀ way, follow? source way = some goal →
    source.length - shared.length ≤ way.count ['.', '.']

/-- **A relative path leads from the directory to the goal,** if the goal has no step up in it. It
climbs to the longest prefix that the two share, and no further. -/
theorem relativePath_way (source goal : List Char) (hgoal : ['.', '.'] ∉ segments goal) :
    ∃ shared, Way shared (segments source) (segments goal) (relativePath source goal) := by
  have hlongest := longestPrefix_take (segments source) (segments goal)
  have hlength := List.length_take_of_le (commonCount_le (segments source) (segments goal)).1
  have hsteps := writtenSteps_relativePath source goal
  exact ⟨_, {
    longest := hlongest
    in_range := ⟨hlength.symm, hlongest.of_source.length_le, hlongest.of_goal.length_le⟩
    arrives := hsteps ▸ follow?_steps hgoal
    empty_iff := relativePath_eq_nil_iff.trans steps_eq_nil_iff
    no_empty_step := fun h => (proper_of_mem_steps (hsteps ▸ h)).1 rfl
    relative := head_relativePath source goal
    climbs_first := ⟨(segments goal).drop (commonCount (segments source) (segments goal)),
      fun h => hgoal (List.mem_of_mem_drop h), by rw [hsteps, hlength]; rfl⟩
    fewest := fun way h => le_count_up_of_follow? hlongest h }⟩

/-- From the directory of a note to a file in the folder above. -/
theorem way_to_folder_above :
    ['.', '.'] ∉ segments "//notes/b.md".toList ∧
      ∃ shared, Way shared (segments "/notes/day/".toList) (segments "//notes/b.md".toList)
        "../b.md".toList := by
  have hgoal : ['.', '.'] ∉ segments "//notes/b.md".toList := by decide
  have hpath : relativePath "/notes/day/".toList "//notes/b.md".toList = "../b.md".toList := by
    decide
  exact ⟨hgoal, hpath ▸ relativePath_way "/notes/day/".toList "//notes/b.md".toList hgoal⟩

end CopyPaste.Markdown

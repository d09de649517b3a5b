import CopyPaste.Proofs.Markdown.Destination
import CopyPaste.Proofs.Markdown.Reference

/-!
# Where links lead

A link to a URI of another scheme is the URI, so it denotes what the URI denotes. One of the same
scheme is a path, which has no authority, query or fragment, goes up by one step for each segment of
the document's directory that is not empty, and can begin with a segment that is read as a scheme.
`links_denote_iff` says for which documents and URIs this is right all the same.

* `Uri.encoded` — encoding a URI encodes its parts;
* `Denotes` — being the same resource, encoding and empty segments aside;
* `Reaches` — what a path can tell, from the directory of the document;
* **`denotes_foreign`**, **`links_denote_iff`** — the links that lead to the resource they are made
  for.
-/

namespace CopyPaste.Markdown

/-! ## Encoded URIs -/

theorem encodeDestination_eq_iff {s t : List Char} (h : ∀ c ∈ t, c ∉ delimiters ++ encodings) :
    encodeDestination s = t ↔ s = t := by
  constructor
  · rintro rfl
    have hs : ∀ c ∈ s, c ∉ delimiters := by
      intro c hc hdelimiter
      obtain ⟨hne, hwritten⟩ := encodeChar_of_mem hdelimiter
      obtain ⟨d, hd⟩ := List.exists_mem_of_ne_nil _ hne
      exact h d (List.mem_flatMap.mpr ⟨c, hc, hd⟩) (List.mem_append_right _ (hwritten d hd))
    exact (encodeDestination_of_not_mem hs).symm
  · rintro rfl
    exact encodeDestination_of_not_mem fun c hc =>
      fun hdelimiter => h c hc (List.mem_append_left _ hdelimiter)

/-- No dot segment comes from encoding, and none is lost. -/
theorem undotted_encodeDestination {s : List Char} (h : s ≠ ['.'] ∧ s ≠ ['.', '.']) :
    encodeDestination s ≠ ['.'] ∧ encodeDestination s ≠ ['.', '.'] :=
  ⟨mt (encodeDestination_eq_iff (by simp [delimiters, encodings])).mp h.1,
    mt (encodeDestination_eq_iff (by simp [delimiters, encodings])).mp h.2⟩

theorem head_encodeDestination_iff {c : Char} (h : c ∉ delimiters ++ encodings) (cs : List Char) :
    (encodeDestination cs).head? = some c ↔ cs.head? = some c := by
  cases cs with
  | nil => rfl
  | cons d cs =>
      by_cases hd : d ∈ delimiters
      · obtain ⟨hne, hwritten⟩ := encodeChar_of_mem hd
        obtain ⟨e, rest, he⟩ := List.exists_cons_of_ne_nil hne
        have hdc : d ≠ c := fun heq => h (heq ▸ List.mem_append_left _ hd)
        have hec : e ≠ c := fun heq =>
          h (heq ▸ List.mem_append_right _ (hwritten e (by rw [he]; exact List.mem_cons_self)))
        simp [he, hdc, hec]
      · simp [encodeChar_of_not_mem hd]

namespace Uri

variable {u : Uri}

/-- A URI with its parts encoded. -/
def encoded (u : Uri) : Uri where
  scheme := encodeDestination u.scheme
  authority := encodeDestination u.authority
  path := encodeDestination u.path
  query := u.query.map encodeDestination
  fragment := u.fragment.map encodeDestination

theorem encodeDestination_marked {c : Char} (h : c ∉ delimiters) (part : Option (List Char)) :
    encodeDestination (marked c part) = marked c (part.map encodeDestination) := by
  cases part with
  | none => rfl
  | some text => simp [marked, encodeChar_of_not_mem h]

/-- **Encoding a URI encodes its parts.** -/
theorem encodeDestination_text (u : Uri) : encodeDestination u.text = u.encoded.text := by
  have hcolon : encodeDestination "://".toList = "://".toList := rfl
  simp only [text, encoded, encodeDestination_append, hcolon,
    encodeDestination_marked (c := '?') (by decide),
    encodeDestination_marked (c := '#') (by decide)]

/-- A part holds, encoded, none of the characters that would end it. -/
theorem not_mem_encoded {stops : List Char} (hstops : ∀ c ∈ stops, c ∉ delimiters ++ encodings)
    {part : List Char} (h : ∀ c ∈ part, c ∉ stops) : ∀ c ∈ encodeDestination part, c ∉ stops :=
  fun c hc hstop => h c ((mem_encodeDestination_iff (hstops c hstop)).mp hc) hstop

theorem proper_encoded (hu : u.Proper) : u.encoded.Proper where
  hasScheme := mt encodeDestination_eq_nil_iff.mp hu.hasScheme
  scheme := not_mem_encoded (by simp [delimiters, encodings]) hu.scheme
  authority := not_mem_encoded (by simp [delimiters, encodings]) hu.authority
  rooted := by
    cases hpath : u.path with
    | nil => simp [encoded, hpath]
    | cons c path =>
        have hc : c = '/' := hu.rooted c (by rw [hpath]; rfl)
        have hhead := (head_encodeDestination_iff (c := '/') (by decide) u.path).mpr
          (by rw [hpath, hc]; rfl)
        intro d hd
        exact Option.some.inj ((Option.mem_def.mp hd).symm.trans hhead)
  path := not_mem_encoded (by simp [delimiters, encodings]) hu.path
  undotted := by
    intro s hs
    obtain ⟨t, ht, rfl⟩ := List.mem_map.mp (segments_encodeDestination u.path ▸ hs)
    exact undotted_encodeDestination (hu.undotted t ht)
  query := by
    rintro q hq
    obtain ⟨p, hp, rfl⟩ := Option.map_eq_some_iff.mp hq
    exact fun hmem => hu.query p hp ((mem_encodeDestination_iff (by decide)).mp hmem)

end Uri

/-! ## Resources -/

/-- A reference denotes the resource of a URI: all parts are the same, but for encoding and for
empty segments of the path. -/
structure Denotes (r : Reference) (u : Uri) : Prop where
  scheme : r.scheme.map encodeDestination = some (encodeDestination u.scheme)
  authority : r.authority.map encodeDestination = some (encodeDestination u.authority)
  path : (segments r.path).map encodeDestination = (segments u.path).map encodeDestination
  query : r.query.map encodeDestination = u.query.map encodeDestination
  fragment : r.fragment.map encodeDestination = u.fragment.map encodeDestination

/-- What the destination of a link stands for in a document. -/
def Uri.follow (d : Uri) (cs : List Char) : Reference :=
  Reference.resolve (Reference.parse d.text) (Reference.parse cs)

theorem map_encodeDestination_twice (ss : List (List Char)) :
    (ss.map encodeDestination).map encodeDestination = ss.map encodeDestination := by
  simp [encodeDestination_encodeDestination]

/-- **A whole URI denotes itself,** in any document. -/
theorem denotes_foreign {u : Uri} (hu : u.Proper) (d : Uri) :
    Denotes (d.follow (encodeDestination u.text)) u := by
  have hproper := Uri.proper_encoded hu
  have hfollow : d.follow (encodeDestination u.text) = u.encoded.toReference := by
    rw [Uri.follow, Uri.encodeDestination_text, Uri.parse_text hproper]
    show { u.encoded.toReference with path := Reference.removeDots u.encoded.path } = _
    rw [Reference.removeDots_of_undotted hproper.rooted hproper.undotted]
    rfl
  have htwice (part : Option (List Char)) :
      (part.map encodeDestination).map encodeDestination = part.map encodeDestination := by
    cases part <;> simp [encodeDestination_encodeDestination]
  rw [hfollow]
  exact {
    scheme := congrArg some (encodeDestination_encodeDestination u.scheme)
    authority := congrArg some (encodeDestination_encodeDestination u.authority)
    path := by
      show (segments (encodeDestination u.path)).map encodeDestination = _
      rw [segments_encodeDestination, map_encodeDestination_twice]
    query := htwice u.query
    fragment := htwice u.fragment }

/-! ## Relative links -/

section Relative

variable {d u : Uri}

/-- How many segments of the document's directory the path of a URI begins with. -/
def shared (d u : Uri) : Nat :=
  commonCount (segments (directory d.cutPath)) (segments u.cutPath)

/-- How many steps a link goes up. -/
def ups (d u : Uri) : Nat := (segments (directory d.cutPath)).length - shared d u

/-- The steps of a link. -/
def way (d u : Uri) : List (List Char) :=
  steps (segments (directory d.cutPath)) (segments u.cutPath)

theorem way_eq (d u : Uri) :
    way d u = List.replicate (ups d u) ['.', '.'] ++ (segments u.cutPath).drop (shared d u) := rfl

/-- The folders of the document that the steps up leave. -/
def climbed (d u : Uri) : List (List Char) := d.folders.drop (d.folders.length - ups d u)

/-- The folders of the document that the steps up do not leave. -/
def kept (d u : Uri) : List (List Char) := d.folders.take (d.folders.length - ups d u)

/-- The resource can be told by a path from the directory of the document. -/
structure Reaches (d u : Uri) : Prop where
  authority : encodeDestination d.authority = encodeDestination u.authority
  query : u.query = none
  fragment : u.fragment = none
  /-- The path does not begin like a URI. -/
  first : ∀ s ∈ (way d u).head?, ¬ Reference.LooksLikeScheme s
  /-- What is taken for the directory of a document without a path does not matter. -/
  pathless : d.path = [] → shared d u = 0
  /-- Each step up leaves a segment that is counted. -/
  filled : ∀ s ∈ climbed d u, s ≠ []

theorem mem_way {s : List Char} (h : s ∈ way d u) : s ≠ [] ∧ '/' ∉ s := by
  rcases mem_steps h with rfl | hs
  · decide
  · exact ⟨ne_nil_of_mem_segments hs, not_slash_of_mem_segments hs⟩

/-- The segments of a target are the steps of the link, or one dot if there are none. -/
def legs (d u : Uri) : List (List Char) := if way d u = [] then [['.']] else way d u

theorem pieces_target (hd : d.Proper) (hu : u.Proper) (h : d.scheme = u.scheme) :
    Text.pieces (· == '/') (target d.text u.text) = legs d u := by
  have hrelative : relativePath (directory d.cutPath) u.cutPath = Text.joinWith ['/'] (way d u) :=
    rfl
  simp only [target, Uri.splitUri?_text hd, Uri.splitUri?_text hu, if_pos h, hrelative, legs]
  by_cases hway : way d u = []
  · rw [hway]
    rfl
  · have hpieces := Text.pieces_joinWith hway fun s hs => (mem_way hs).2
    rw [if_neg hway]
    split
    next hnil =>
      rw [hnil] at hpieces
      have hmem : [] ∈ way d u := hpieces ▸ List.mem_cons_self
      exact absurd rfl (mem_way hmem).1
    next => exact hpieces

theorem legs_ne_nil (d u : Uri) : legs d u ≠ [] := by
  unfold legs
  split
  · exact List.cons_ne_nil _ _
  · assumption

theorem ne_nil_of_mem_legs {s : List Char} (h : s ∈ legs d u) : s ≠ [] := by
  unfold legs at h
  split at h
  · obtain rfl := List.mem_singleton.mp h
    exact List.cons_ne_nil _ _
  · exact (mem_way h).1

theorem not_mem_cutPath {c : Char} (hc : c ∈ ['?', '#']) : c ∉ u.cutPath := by
  intro hmem
  have hin := List.all_eq_true.mp List.all_takeWhile c hmem
  have hall : ∀ c ∈ ['?', '#'], (!(c == '?' || c == '#')) = false := by simp
  exact absurd (hin.symm.trans (hall c hc)) (by decide)

/-- Nothing in a target begins a query or a fragment. -/
theorem not_mem_target (hd : d.Proper) (hu : u.Proper) (h : d.scheme = u.scheme) {c : Char}
    (hc : c ∈ ['?', '#']) : c ∉ target d.text u.text := by
  intro hmem
  simp only [target, Uri.splitUri?_text hd, Uri.splitUri?_text hu, if_pos h] at hmem
  have hsteps : c ≠ '.' ∧ c ≠ '/' := by
    have hall : ∀ c ∈ ['?', '#'], c ≠ '.' ∧ c ≠ '/' := by simp
    exact hall c hc
  split at hmem
  · exact hsteps.1 (List.mem_singleton.mp hmem)
  · rcases mem_relativePath hmem with hmem | hmem | hmem
    · exact not_mem_cutPath hc hmem
    · exact hsteps.1 hmem
    · exact hsteps.2 hmem

theorem looksLikeScheme_encodeDestination (s : List Char) :
    Reference.LooksLikeScheme (encodeDestination s) ↔ Reference.LooksLikeScheme s := by
  unfold Reference.LooksLikeScheme
  rw [mem_encodeDestination_iff (by decide), ne_eq, head_encodeDestination_iff (by decide)]

/-- The parts of a link to a URI of the scheme of the document. -/
theorem parse_target (hd : d.Proper) (hu : u.Proper) (h : d.scheme = u.scheme) :
    Text.pieces (· == '/') (encodeDestination (target d.text u.text)) =
        (legs d u).map encodeDestination ∧
      '?' ∉ encodeDestination (target d.text u.text) ∧
      '#' ∉ encodeDestination (target d.text u.text) ∧
      [] ∉ Text.pieces (· == '/') (encodeDestination (target d.text u.text)) := by
  have hpieces : Text.pieces (· == '/') (encodeDestination (target d.text u.text)) =
      (legs d u).map encodeDestination := by
    rw [pieces_encodeDestination, pieces_target hd hu h]
  refine ⟨hpieces, ?_, ?_, ?_⟩
  · rw [mem_encodeDestination_iff (by decide)]
    exact not_mem_target hd hu h (by decide)
  · rw [mem_encodeDestination_iff (by decide)]
    exact not_mem_target hd hu h (by decide)
  · rw [hpieces]
    intro hmem
    obtain ⟨s, hs, hempty⟩ := List.mem_map.mp hmem
    exact ne_nil_of_mem_legs hs (encodeDestination_eq_nil_iff.mp hempty)

/-- A link has a scheme exactly when its first step looks like one. -/
theorem scheme_target_iff (hd : d.Proper) (hu : u.Proper) (h : d.scheme = u.scheme) :
    (Reference.splitScheme (encodeDestination (target d.text u.text))).1.isSome ↔
      ∃ s ∈ (way d u).head?, Reference.LooksLikeScheme s := by
  obtain ⟨hpieces, -, -, -⟩ := parse_target hd hu h
  obtain ⟨first, rest, hlegs⟩ := List.exists_cons_of_ne_nil (legs_ne_nil d u)
  rw [hlegs, List.map_cons] at hpieces
  obtain ⟨behind, hcut, hbehind⟩ := Text.exists_of_pieces_eq_cons hpieces
  have hfirst : '/' ∉ encodeDestination first := fun hmem => by
    have hnot := Text.not_sep_of_mem_pieces (hpieces ▸ List.mem_cons_self) hmem
    exact absurd hnot (by decide)
  rw [hcut, Reference.splitScheme_isSome_iff hfirst hbehind, looksLikeScheme_encodeDestination]
  by_cases hway : way d u = []
  · have hdot : first = ['.'] := by
      rw [legs, if_pos hway] at hlegs
      exact (List.cons.inj hlegs).1.symm
    rw [hway, hdot]
    simp [Reference.LooksLikeScheme]
  · rw [legs, if_neg hway] at hlegs
    simp [hlegs]

/-- What is read as a URI has no authority. -/
theorem follow_scheme (hd : d.Proper) (hu : u.Proper) (h : d.scheme = u.scheme)
    (hscheme : ∃ s ∈ (way d u).head?, Reference.LooksLikeScheme s) :
    (d.follow (encodeDestination (target d.text u.text))).authority = none := by
  obtain ⟨-, hquery, hfragment, hempty⟩ := parse_target hd hu h
  have hsome := (scheme_target_iff hd hu h).mpr hscheme
  rw [Uri.follow, Reference.parse_relative hquery hfragment hempty, Reference.resolve, if_pos hsome]

/-- What is read as a path goes on from the folders of the document. -/
theorem follow_path (hd : d.Proper) (hu : u.Proper) (h : d.scheme = u.scheme)
    (hscheme : ¬ ∃ s ∈ (way d u).head?, Reference.LooksLikeScheme s) :
    ∃ path, d.follow (encodeDestination (target d.text u.text)) =
        { scheme := some d.scheme, authority := some d.authority, path } ∧
      segments path = ((d.folders ++ (legs d u).map encodeDestination).foldl
        Reference.walk []).reverse.filter fun s => !s.isEmpty := by
  obtain ⟨hpieces, hquery, hfragment, hempty⟩ := parse_target hd hu h
  have hnone := Option.not_isSome_iff_eq_none.mp (mt (scheme_target_iff hd hu h).mp hscheme)
  obtain ⟨path, hmerge, hpath⟩ :=
    Uri.merge_toReference hd (encodeDestination (target d.text u.text))
  refine ⟨Reference.removeDots ('/' :: path), ?_, ?_⟩
  · rw [Uri.follow, Reference.resolve_relative hquery hfragment hempty hnone, Uri.parse_text hd,
      hmerge]
    rfl
  · rw [Reference.segments_removeDots, hpath, hpieces]

/-- The steps up leave the last folders, and the steps down follow those that are left. -/
theorem foldl_walk_legs (hu : ∀ s ∈ segments u.cutPath, s ≠ ['.'] ∧ s ≠ ['.', '.'])
    (folders : List (List Char)) :
    ((legs d u).map encodeDestination).foldl Reference.walk folders =
      (((segments u.cutPath).drop (shared d u)).map encodeDestination).reverse ++
        folders.drop (ups d u) := by
  have hdown : ∀ s ∈ ((segments u.cutPath).drop (shared d u)).map encodeDestination,
      s ≠ ['.'] ∧ s ≠ ['.', '.'] := by
    intro s hs
    obtain ⟨t, ht, rfl⟩ := List.mem_map.mp hs
    exact undotted_encodeDestination (hu t (List.mem_of_mem_drop ht))
  have hup : encodeDestination ['.', '.'] = ['.', '.'] := rfl
  unfold legs
  by_cases hway : way d u = []
  · obtain ⟨hups, hdrop⟩ := List.append_eq_nil_iff.mp (way_eq d u ▸ hway)
    have hzero : ups d u = 0 := List.replicate_eq_nil_iff _ |>.mp hups
    rw [if_pos hway, hdrop, hzero]
    rfl
  · rw [if_neg hway, way_eq, List.map_append, List.map_replicate, hup, List.foldl_append,
      Reference.foldl_walk_up, Reference.foldl_walk_of_undotted hdown]

/-- Leaving as many entries at the end of a list as are too many in the filtered list is right
exactly when all entries that are left pass the filter. -/
theorem length_filter_take_iff {α : Type} {p : α → Bool} {l : List α} {k : Nat}
    (hk : k ≤ (l.filter p).length) :
    ((l.take (l.length - k)).filter p).length = (l.filter p).length - k ↔
      ∀ a ∈ l.drop (l.length - k), p a = true := by
  have hsum : (l.filter p).length = ((l.take (l.length - k)).filter p).length +
      ((l.drop (l.length - k)).filter p).length := by
    rw [← List.length_append, ← List.filter_append, List.take_append_drop]
  have hleft : (l.drop (l.length - k)).length = k := by
    have hle := List.length_filter_le p l
    rw [List.length_drop]
    omega
  rw [← List.length_filter_eq_length_iff, hleft]
  omega

/-- The segments of the path that a link stands for. -/
theorem segments_followed (hd : d.Proper)
    (hu : ∀ s ∈ segments u.cutPath, s ≠ ['.'] ∧ s ≠ ['.', '.']) :
    ((((d.folders ++ (legs d u).map encodeDestination).foldl Reference.walk []).reverse.filter
      fun s => !s.isEmpty)).map encodeDestination =
      (((kept d u).filter fun s => !s.isEmpty) ++
        (segments u.cutPath).drop (shared d u)).map encodeDestination := by
  have hdown : ((((segments u.cutPath).drop (shared d u)).map encodeDestination).filter
      fun s => !s.isEmpty) = ((segments u.cutPath).drop (shared d u)).map encodeDestination := by
    rw [List.filter_eq_self]
    intro s hs
    obtain ⟨t, ht, rfl⟩ := List.mem_map.mp hs
    have hne := ne_nil_of_mem_segments (List.mem_of_mem_drop ht)
    simpa [encodeDestination_eq_nil_iff] using hne
  have hkept : (d.folders.reverse.drop (ups d u)).reverse = kept d u := by
    rw [List.drop_reverse, List.reverse_reverse]
    rfl
  rw [List.foldl_append, Reference.foldl_walk_of_undotted (Uri.undotted_folders hd),
    List.append_nil, foldl_walk_legs hu, List.reverse_append, List.reverse_reverse, hkept,
    List.filter_append, hdown, List.map_append, map_encodeDestination_twice, List.map_append]

/-- **The path is right exactly when all folders that are climbed out of are counted,** and nothing
else is taken for a folder. -/
theorem same_path_iff (hd : d.Proper) (hcut : u.cutPath = u.path) :
    (((kept d u).filter fun s => !s.isEmpty) ++
        (segments u.cutPath).drop (shared d u)).map encodeDestination =
      (segments u.path).map encodeDestination ↔
    (d.path = [] → shared d u = 0) ∧ ∀ s ∈ climbed d u, s ≠ [] := by
  have hcommon := take_commonCount (segments (directory d.cutPath)) (segments u.cutPath)
  obtain ⟨hsource, hgoal⟩ := commonCount_le (segments (directory d.cutPath)) (segments u.cutPath)
  change shared d u ≤ _ at hsource hgoal
  change List.take (shared d u) _ = List.take (shared d u) _ at hcommon
  have hsplit : (segments u.path).map encodeDestination =
      ((segments u.cutPath).take (shared d u)).map encodeDestination ++
        ((segments u.cutPath).drop (shared d u)).map encodeDestination := by
    rw [← List.map_append, List.take_append_drop, hcut]
  rw [hsplit, List.map_append, List.append_left_inj]
  by_cases hpath : d.path = []
  · -- no folder is there to be kept, so no segment may be missing
    have hfolders : d.folders = [] := by
      rw [Uri.folders, hpath]
      rfl
    have hempty : ((segments u.cutPath).take (shared d u)).map encodeDestination = [] ↔
        shared d u = 0 := by
      rw [List.map_eq_nil_iff, ← List.length_eq_zero_iff, List.length_take_of_le hgoal]
    have hkept : kept d u = [] := by simp [kept, hfolders]
    have hclimbed : climbed d u = [] := by simp [climbed, hfolders]
    rw [hkept, hclimbed]
    constructor
    · intro heq
      exact ⟨fun _ => hempty.mp heq.symm, fun s hs => absurd hs List.not_mem_nil⟩
    · intro h
      exact (hempty.mpr (h.1 hpath)).symm
  · have hdocument : d.cutPath = d.path := Uri.cutPath_eq hd (.inl hpath)
    have hdirectory : segments (directory d.cutPath) = d.folders.filter fun s => !s.isEmpty := by
      rw [hdocument, Uri.segments_directory hd]
    rw [hdirectory] at hcommon hsource
    have hups : ups d u = (d.folders.filter fun s => !s.isEmpty).length - shared d u := by
      rw [ups, hdirectory]
    have hiff := length_filter_take_iff (p := fun s : List Char => !s.isEmpty) (l := d.folders)
      (k := ups d u) (by omega)
    have hcount : (d.folders.filter fun s => !s.isEmpty).length - ups d u = shared d u := by omega
    rw [hcount] at hiff
    have hprefix : ((kept d u).filter fun s => !s.isEmpty) <+:
        d.folders.filter fun s => !s.isEmpty := (List.take_prefix _ _).filter _
    have hfilled : (∀ s ∈ climbed d u, s ≠ []) ↔ ∀ s ∈ climbed d u, (!s.isEmpty) = true := by simp
    rw [hfilled, ← hcommon]
    refine ⟨fun heq => ⟨fun h => absurd h hpath, hiff.mp ?_⟩, fun h => ?_⟩
    · have hlength := congrArg List.length heq
      rwa [List.length_map, List.length_map, List.length_take_of_le hsource] at hlength
    · have hkept : ((kept d u).filter fun s => !s.isEmpty).length = shared d u := hiff.mpr h.2
      rw [List.prefix_iff_eq_take.mp hprefix, hkept]

end Relative

/-! ## All links -/

/-- **A link denotes the resource it is made for** unless the two URIs share their scheme and the
resource cannot be told by a path from the directory of the document. -/
theorem links_denote_iff {d u : Uri} (hd : d.Proper) (hu : u.Proper) :
    Denotes (d.follow (destination d.text u.text)) u ↔ (d.scheme = u.scheme → Reaches d u) := by
  rw [destination_eq]
  by_cases h : d.scheme = u.scheme
  · by_cases hscheme : ∃ s ∈ (way d u).head?, Reference.LooksLikeScheme s
    · constructor
      · intro hdenotes
        have hauthority := hdenotes.authority
        rw [follow_scheme hd hu h hscheme] at hauthority
        exact absurd hauthority (Option.some_ne_none _).symm
      · intro hreaches
        obtain ⟨s, hs, hlooks⟩ := hscheme
        exact absurd hlooks ((hreaches h).first s hs)
    · obtain ⟨path, hfollow, hpath⟩ := follow_path hd hu h hscheme
      rw [hfollow]
      constructor
      · intro hdenotes _
        have hquery : u.query = none := Option.map_eq_none_iff.mp hdenotes.query.symm
        have hfragment : u.fragment = none := Option.map_eq_none_iff.mp hdenotes.fragment.symm
        have hcut := Uri.cutPath_eq hu (.inr ⟨hquery, hfragment⟩)
        have hsegments := hdenotes.path
        rw [hpath, segments_followed hd (hcut ▸ hu.undotted), same_path_iff hd hcut] at hsegments
        exact {
          authority := Option.some.inj hdenotes.authority
          query := hquery
          fragment := hfragment
          first := fun s hs hlooks => hscheme ⟨s, hs, hlooks⟩
          pathless := hsegments.1
          filled := hsegments.2 }
      · intro hreaches
        obtain ⟨hauthority, hquery, hfragment, -, hpathless, hfilled⟩ := hreaches h
        have hcut := Uri.cutPath_eq hu (.inr ⟨hquery, hfragment⟩)
        exact {
          scheme := congrArg (fun scheme => some (encodeDestination scheme)) h
          authority := congrArg some hauthority
          path := by
            rw [hpath, segments_followed hd (hcut ▸ hu.undotted), same_path_iff hd hcut]
            exact ⟨hpathless, hfilled⟩
          query := by rw [hquery]
          fragment := by rw [hfragment] }
  · have htarget : target d.text u.text = u.text := by
      simp only [target, Uri.splitUri?_text hd, Uri.splitUri?_text hu, if_neg h]
    rw [htarget]
    exact ⟨fun _ heq => absurd heq h, fun _ => denotes_foreign hu d⟩

/-- A link goes up to the folder that the document shares with the resource, and down from there. -/
theorem draft_in_folder_above_is_denoted :
    let d : Uri :=
      { scheme := "file".toList, authority := [], path := "/notes/day/a.md".toList }
    let u : Uri :=
      { scheme := "file".toList, authority := [], path := "/notes/b (draft).md".toList }
    d.Proper ∧ u.Proper ∧ destination d.text u.text = "../b%20%28draft%29.md".toList ∧
      Denotes (d.follow (destination d.text u.text)) u := by
  intro d u
  have hd : d.Proper := by decide
  have hu : u.Proper := by decide
  refine ⟨hd, hu, by decide, (links_denote_iff hd hu).mpr fun _ => ?_⟩
  exact {
    authority := rfl
    query := rfl
    fragment := rfl
    first := by decide
    pathless := by decide
    filled := by decide }

/-- A path keeps no fragment: the link leads to the whole note, not to the part of it. -/
theorem part_of_note_is_not_denoted :
    let d : Uri :=
      { scheme := "file".toList, authority := [], path := "/notes/a.md".toList }
    let u : Uri :=
      { scheme := "file".toList, authority := [], path := "/notes/b.md".toList
        fragment := some "part".toList }
    d.Proper ∧ u.Proper ∧ destination d.text u.text = "b.md".toList ∧
      ¬ Denotes (d.follow (destination d.text u.text)) u := by
  intro d u
  refine ⟨by decide, by decide, by decide, ?_⟩
  intro hdenotes
  exact absurd hdenotes.fragment (by decide)

end CopyPaste.Markdown

import CopyPaste.Proofs.Markdown.Segments

/-!
# References

How a destination is read: as a URI, or as a reference that is resolved against the URI of the
document. A reference that begins with a scheme stands for itself, one that begins with an authority
takes over the scheme, and a path goes from the directory of the document, where one dot stays and
two dots go up by one segment, be it empty or not.

* `Reference.parse`, `Reference.resolve` — the parts of a reference, and what it stands for;
* `Uri` — a URI by its parts, and `Uri.Proper` — no part holds what would end it;
* **`Uri.parse_text`**, **`Uri.splitUri?_text`** — the parts of a URI from its text;
* **`Reference.resolve_relative`** — what a path stands for that has no empty segment;
* **`Reference.segments_removeDots`** — the segments that are left when dot segments are followed.
-/

namespace CopyPaste

namespace Text

/-- A text whose first piece is empty begins with the separator. -/
theorem exists_of_pieces_eq_nil_cons {sep : Char} {cs : List Char} {rest : List (List Char)}
    (h : pieces (· == sep) cs = [] :: rest) (hne : rest ≠ []) :
    ∃ behind, cs = sep :: behind ∧ pieces (· == sep) behind = rest := by
  cases cs with
  | nil => exact absurd (List.cons.inj h).2.symm hne
  | cons c cs =>
      rw [pieces] at h
      split at h
      next hc =>
        obtain rfl := eq_of_beq hc
        exact ⟨cs, rfl, (List.cons.inj h).2⟩
      next => split at h <;> exact absurd (List.cons.inj h).1 (List.cons_ne_nil _ _)

theorem span_append {p : Char → Bool} {before : List Char} (h : ∀ c ∈ before, p c = true)
    (after : List Char) (hafter : ∀ c ∈ after.head?, p c = false) :
    (before ++ after).takeWhile p = before ∧ (before ++ after).dropWhile p = after := by
  rw [List.takeWhile_append_of_pos h, List.dropWhile_append_of_pos h]
  cases after with
  | nil => simp
  | cons c after =>
      have hc : p c = false := hafter c rfl
      simp [hc]

end Text

namespace Markdown

/-! ## References -/

/-- The parts of a URI, or of a reference to one. -/
structure Reference where
  scheme : Option (List Char) := none
  authority : Option (List Char) := none
  path : List Char := []
  query : Option (List Char) := none
  fragment : Option (List Char) := none
deriving DecidableEq, Repr

/-- What stands behind the first occurrence of a character, if there is one. -/
def behind? (c : Char) (cs : List Char) : Option (List Char) := (cs.dropWhile (· != c)).tail?

namespace Reference

/-- A character that does not end the name of a scheme. -/
def inScheme (c : Char) : Bool := c != ':' && c != '/'

/-- The scheme at the start of a reference, ended by a colon before any slash, and the rest. -/
def splitScheme (cs : List Char) : Option (List Char) × List Char :=
  match cs.takeWhile inScheme, cs.dropWhile inScheme with
  | c :: name, ':' :: rest => (some (c :: name), rest)
  | _, _ => (none, cs)

/-- The authority behind two slashes, and the path. -/
def splitAuthority : List Char → Option (List Char) × List Char
  | '/' :: '/' :: rest => (some (rest.takeWhile (· != '/')), rest.dropWhile (· != '/'))
  | cs => (none, cs)

/-- The parts of a reference. -/
def parse (cs : List Char) : Reference :=
  let hierarchical := cs.takeWhile (· != '#')
  let (scheme, rest) := splitScheme (hierarchical.takeWhile (· != '?'))
  let (authority, path) := splitAuthority rest
  { scheme, authority, path, query := behind? '?' hierarchical, fragment := behind? '#' cs }

/-! ## Resolving -/

/-- One segment further on a way, the last segment first: a dot stays, two dots go back. -/
def walk (way : List (List Char)) (s : List Char) : List (List Char) :=
  if s = ['.'] then way else if s = ['.', '.'] then way.drop 1 else s :: way

/-- A path without its dot segments. One at the end stands for a directory, so a slash is left
there. A path that does not begin with a slash is left as it is. -/
def removeDots : List Char → List Char
  | '/' :: path =>
    let ss := Text.pieces (· == '/') path
    let open_ := ss.getLast? = some ['.'] ∨ ss.getLast? = some ['.', '.']
    '/' :: Text.joinWith ['/'] ((ss.foldl walk []).reverse ++ if open_ then [[]] else [])
  | path => path

/-- A path as seen from the directory of another one. -/
def merge (base : Reference) (path : List Char) : List Char :=
  if base.authority.isSome ∧ base.path = [] then '/' :: path
  else (base.path.reverse.dropWhile (· != '/')).reverse ++ path

/-- What a reference in a document stands for. -/
def resolve (base r : Reference) : Reference :=
  if r.scheme.isSome then { r with path := removeDots r.path }
  else if r.authority.isSome then { r with scheme := base.scheme, path := removeDots r.path }
  else if r.path = [] then
    { base with query := r.query.or base.query, fragment := r.fragment }
  else
    let path := if r.path.head? = some '/' then r.path else merge base r.path
    { r with scheme := base.scheme, authority := base.authority, path := removeDots path }

end Reference

/-! ## URIs -/

/-- A URI of the form `scheme://authority/path?query#fragment`. -/
structure Uri where
  scheme : List Char
  authority : List Char
  path : List Char
  query : Option (List Char) := none
  fragment : Option (List Char) := none
deriving DecidableEq, Repr

/-- A part that need not be there, behind the character that begins it. -/
def marked (c : Char) (part : Option (List Char)) : List Char := (part.map (c :: ·)).getD []

namespace Uri

def text (u : Uri) : List Char :=
  u.scheme ++ "://".toList ++ (u.authority ++ u.path) ++ marked '?' u.query ++
    marked '#' u.fragment

def toReference (u : Uri) : Reference :=
  { scheme := some u.scheme, authority := some u.authority, path := u.path, query := u.query
    fragment := u.fragment }

/-- No part of a URI holds what would end it, and its path, which may be missing, has no dot
segments. -/
structure Proper (u : Uri) : Prop where
  hasScheme : u.scheme ≠ []
  scheme : ∀ c ∈ u.scheme, c ∉ [':', '/', '?', '#']
  authority : ∀ c ∈ u.authority, c ∉ ['/', '?', '#']
  rooted : ∀ c ∈ u.path.head?, c = '/'
  path : ∀ c ∈ u.path, c ∉ ['?', '#']
  undotted : ∀ s ∈ segments u.path, s ≠ ['.'] ∧ s ≠ ['.', '.']
  query : ∀ q ∈ u.query, '#' ∉ q

/-- The parts of a URI, checked character by character. -/
def isProper (u : Uri) : Bool :=
  let isFree (stops part : List Char) : Bool := part.all fun c => !(stops.contains c)
  !u.scheme.isEmpty && isFree [':', '/', '?', '#'] u.scheme &&
    isFree ['/', '?', '#'] u.authority && u.path.head?.toList.all (· == '/') &&
    isFree ['?', '#'] u.path &&
    (segments u.path).all (fun s => s != ['.'] && s != ['.', '.']) &&
    u.query.toList.all fun q => !(q.contains '#')

theorem isProper_iff (u : Uri) : u.isProper = true ↔ u.Proper := by
  constructor
  · intro h
    simp only [isProper, Bool.and_eq_true, and_assoc] at h
    obtain ⟨hne, hscheme, hauthority, hrooted, hpath, hundotted, hquery⟩ := h
    exact ⟨by simpa using hne, by simpa using hscheme, by simpa using hauthority,
      by simpa using hrooted, by simpa using hpath, by simpa using hundotted, by simpa using hquery⟩
  · rintro ⟨hne, hscheme, hauthority, hrooted, hpath, hundotted, hquery⟩
    simp only [isProper, Bool.and_eq_true, and_assoc]
    exact ⟨by simpa using hne, by simpa using hscheme, by simpa using hauthority,
      by simpa using hrooted, by simpa using hpath, by simpa using hundotted, by simpa using hquery⟩

instance (u : Uri) : Decidable u.Proper := decidable_of_iff _ u.isProper_iff

/-- The path of a URI as it is cut out of the text: from the first slash behind the scheme. -/
def cutPath (u : Uri) : List Char :=
  upTo (fun c => c == '?' || c == '#') ((u.authority ++ u.path ++ marked '?' u.query ++
    marked '#' u.fragment).dropWhile (· != '/'))

end Uri

/-! ## The parts of a text -/

namespace Reference

theorem splitScheme_append {name : List Char} (hne : name ≠ [])
    (hname : ∀ c ∈ name, c ≠ ':' ∧ c ≠ '/') (rest : List Char) :
    splitScheme (name ++ ':' :: rest) = (some name, rest) := by
  have hin : ∀ c ∈ name, inScheme c = true := fun c hc => by simp [inScheme, hname c hc]
  obtain ⟨htake, hdrop⟩ := Text.span_append hin (':' :: rest) (by simp [inScheme])
  obtain ⟨c, tail, rfl⟩ := List.exists_cons_of_ne_nil hne
  simp only [splitScheme, htake, hdrop]

theorem splitScheme_of_none {cs : List Char} (h : (splitScheme cs).1 = none) :
    (splitScheme cs).2 = cs := by
  unfold splitScheme at h ⊢
  split at h
  · exact absurd h (Option.some_ne_none _)
  · rfl

theorem splitScheme_suffix (cs : List Char) : (splitScheme cs).2 <:+ cs := by
  unfold splitScheme
  split
  next c name rest _ hdrop =>
    exact (List.suffix_cons ':' rest).trans (hdrop ▸ List.dropWhile_suffix _)
  next => exact List.suffix_rfl

/-- A segment that, at the start of a reference, is read as a scheme. -/
def LooksLikeScheme (s : List Char) : Prop := ':' ∈ s ∧ s.head? ≠ some ':'

instance (s : List Char) : Decidable (LooksLikeScheme s) := inferInstanceAs (Decidable (_ ∧ _))

/-- **A reference has a scheme exactly when its first segment looks like one.** -/
theorem splitScheme_isSome_iff {first rest : List Char} (hfirst : '/' ∉ first)
    (hrest : ∀ c ∈ rest.head?, c = '/') :
    (splitScheme (first ++ rest)).1.isSome ↔ LooksLikeScheme first := by
  by_cases hcolon : ':' ∈ first
  · obtain ⟨name, behind, rfl, hname⟩ := List.eq_append_cons_of_mem hcolon
    cases name with
    | nil => simp [splitScheme, inScheme, LooksLikeScheme]
    | cons c name =>
        have hin : ∀ d ∈ c :: name, d ≠ ':' ∧ d ≠ '/' := fun d hd =>
          ⟨fun heq => hname (heq ▸ hd), fun heq => hfirst (List.mem_append_left _ (heq ▸ hd))⟩
        have hc : c ≠ ':' := (hin c List.mem_cons_self).1
        have hcut : c :: name ++ ':' :: behind ++ rest = c :: name ++ ':' :: (behind ++ rest) :=
          List.append_assoc (c :: name) (':' :: behind) rest
        rw [hcut, splitScheme_append (List.cons_ne_nil c name) hin]
        simp [LooksLikeScheme, hc]
  · have hin : ∀ c ∈ first, inScheme c = true := fun c hc => by
      have hne : c ≠ ':' ∧ c ≠ '/' :=
        ⟨fun heq => hcolon (heq ▸ hc), fun heq => hfirst (heq ▸ hc)⟩
      simp [inScheme, hne]
    obtain ⟨htake, hdrop⟩ := Text.span_append hin rest fun c hc => by
      simp [inScheme, hrest c hc]
    have hnone : (splitScheme (first ++ rest)).1 = none := by
      unfold splitScheme
      simp only [htake, hdrop]
      split
      next => exact absurd (hrest ':' rfl) (by decide)
      next => rfl
    simp [hnone, LooksLikeScheme, hcolon]

/-- Two slashes in a row are an authority or an empty segment. -/
theorem splitAuthority_of_suffix {cs rest : List Char} (hsuffix : rest <:+ cs)
    (h : [] ∉ Text.pieces (· == '/') cs) : splitAuthority rest = (none, rest) := by
  unfold splitAuthority
  split
  next behind =>
    obtain ⟨before, rfl⟩ := hsuffix
    refine absurd ?_ h
    rw [Text.pieces_append rfl]
    exact List.mem_append_right _ List.mem_cons_self
  next => rfl

/-- **A path without empty segments has no authority, and a scheme only in its first segment.** -/
theorem parse_relative {cs : List Char} (hquery : '?' ∉ cs) (hfragment : '#' ∉ cs)
    (h : [] ∉ Text.pieces (· == '/') cs) :
    parse cs = { scheme := (splitScheme cs).1, path := (splitScheme cs).2 } := by
  have hwhole : ∀ c : Char, c ∉ cs →
      cs.takeWhile (· != c) = cs ∧ cs.dropWhile (· != c) = [] := fun c hc => by
    have hne : ∀ d ∈ cs, (d != c) = true := fun d hd =>
      bne_iff_ne.mpr fun heq => hc (heq ▸ hd)
    simpa using Text.span_append hne [] (by simp)
  unfold parse behind?
  simp only [(hwhole '#' hfragment).1, (hwhole '#' hfragment).2, (hwhole '?' hquery).1,
    (hwhole '?' hquery).2, splitAuthority_of_suffix (splitScheme_suffix cs) h]
  rfl

/-- **A path without empty segments goes from the directory of the base,** unless its first segment
is read as a scheme. -/
theorem resolve_relative {base : Reference} {cs : List Char} (hquery : '?' ∉ cs)
    (hfragment : '#' ∉ cs) (h : [] ∉ Text.pieces (· == '/') cs)
    (hscheme : (splitScheme cs).1 = none) :
    resolve base (parse cs) =
      { scheme := base.scheme, authority := base.authority
        path := removeDots (merge base cs) } := by
  have hne : cs ≠ [] := by
    rintro rfl
    exact h List.mem_cons_self
  have hrooted : cs.head? ≠ some '/' := fun hhead => by
    obtain ⟨behind, rfl⟩ := List.head?_eq_some_iff.mp hhead
    exact h List.mem_cons_self
  rw [parse_relative hquery hfragment h, hscheme, splitScheme_of_none hscheme]
  simp [resolve, hne, hrooted]

example : resolve (parse "http://one/notes/day/a.md?x=/y".toList) (parse "../b.md".toList) =
    { scheme := some "http".toList, authority := some "one".toList
      path := "/notes/b.md".toList } := by
  decide

end Reference

theorem head_marked {c d : Char} {part : Option (List Char)}
    (h : d ∈ (marked c part).head?) : d = c := by
  cases part with
  | none => exact absurd h (Option.not_mem_none d)
  | some text => exact (Option.mem_some_iff.mp h).symm

theorem head_of_marked {c : Char} {query fragment : Option (List Char)}
    (h : c ∈ (marked '?' query ++ marked '#' fragment).head?) : c = '?' ∨ c = '#' := by
  cases query with
  | none => exact .inr (head_marked h)
  | some text => exact .inl (Option.mem_some_iff.mp h).symm

@[simp] theorem tail?_marked (c : Char) (part : Option (List Char)) :
    (marked c part).tail? = part := by
  cases part <;> rfl

namespace Uri

variable {u : Uri}

/-- What stands before the query of a URI. -/
def front (u : Uri) : List Char := u.scheme ++ "://".toList ++ (u.authority ++ u.path)

theorem text_eq (u : Uri) : u.text = u.front ++ marked '?' u.query ++ marked '#' u.fragment := rfl

theorem not_mem_front (hu : u.Proper) {c : Char} (hc : c ∈ ['?', '#']) : c ∉ u.front := by
  have hcolon : c ∉ "://".toList := by
    have hall : ∀ c ∈ ['?', '#'], c ∉ "://".toList := by simp
    exact hall c hc
  intro hmem
  rcases List.mem_append.mp hmem with hmem | hmem
  · rcases List.mem_append.mp hmem with hmem | hmem
    · exact hu.scheme c hmem (List.mem_cons_of_mem _ (List.mem_cons_of_mem _ hc))
    · exact hcolon hmem
  · rcases List.mem_append.mp hmem with hmem | hmem
    · exact hu.authority c hmem (List.mem_cons_of_mem _ hc)
    · exact hu.path c hmem hc

theorem not_mem_hierarchical (hu : u.Proper) : '#' ∉ u.front ++ marked '?' u.query := by
  intro hmem
  rcases List.mem_append.mp hmem with hmem | hmem
  · exact not_mem_front hu (by decide) hmem
  · cases hquery : u.query with
    | none => simp [hquery, marked] at hmem
    | some q =>
        have hq : '#' ∈ '?' :: q := by simpa [hquery, marked] using hmem
        exact hu.query q hquery (by simpa using hq)

/-- The scheme is read up to its colon. -/
theorem splitScheme_front (hu : u.Proper) :
    Reference.splitScheme u.front = (some u.scheme, '/' :: '/' :: (u.authority ++ u.path)) := by
  have hscheme : ∀ c ∈ u.scheme, c ≠ ':' ∧ c ≠ '/' := fun c hc => by
    have hnot := hu.scheme c hc
    simp only [List.mem_cons, not_or] at hnot
    exact ⟨hnot.1, hnot.2.1⟩
  have hsplit := Reference.splitScheme_append hu.hasScheme hscheme
    ('/' :: '/' :: (u.authority ++ u.path))
  rw [← hsplit, front, List.append_assoc]
  rfl

theorem bne_of_mem_authority (hu : u.Proper) : ∀ c ∈ u.authority, (c != '/') = true := by
  intro c hc
  exact bne_slash (fun hmem => hu.authority '/' hmem (by decide)) hc

/-- The authority is read up to the path. -/
theorem splitAuthority_eq (hu : u.Proper) :
    Reference.splitAuthority ('/' :: '/' :: (u.authority ++ u.path)) =
      (some u.authority, u.path) := by
  have hpath : ∀ c ∈ u.path.head?, (c != '/') = false := fun c hc => by
    simp [hu.rooted c hc]
  obtain ⟨htake, hdrop⟩ := Text.span_append (bne_of_mem_authority hu) u.path hpath
  simp only [Reference.splitAuthority, htake, hdrop]

/-- **The parts of a URI are read as they were written.** -/
theorem parse_text (hu : u.Proper) : Reference.parse u.text = u.toReference := by
  have hmark : ∀ (c : Char) (cs : List Char), c ∉ cs → ∀ d ∈ cs, (d != c) = true :=
    fun c cs hc d hd => bne_iff_ne.mpr fun heq => hc (heq ▸ hd)
  have hstop : ∀ (c : Char) (part : Option (List Char)),
      ∀ d ∈ (marked c part).head?, (d != c) = false :=
    fun c part d hd => by simp [head_marked hd]
  obtain ⟨hhierarchical, hfragment⟩ := Text.span_append
    (hmark '#' _ (not_mem_hierarchical hu)) _ (hstop '#' u.fragment)
  obtain ⟨hfront, hquery⟩ := Text.span_append
    (hmark '?' _ (not_mem_front hu (by decide))) _ (hstop '?' u.query)
  unfold Reference.parse behind?
  rw [text_eq]
  simp only [hhierarchical, hfragment, hfront, hquery, splitScheme_front hu, splitAuthority_eq hu,
    tail?_marked]
  rfl

/-- **A URI is divided into its scheme and its path.** -/
theorem splitUri?_text (hu : u.Proper) : splitUri? u.text = some (u.scheme, u.cutPath) := by
  have hcolon : ':' ∉ u.scheme := fun hmem => hu.scheme ':' hmem (by decide)
  have hsplit := Text.splitOnce?_append hcolon "//".toList
    (u.authority ++ u.path ++ marked '?' u.query ++ marked '#' u.fragment)
  have htext : u.text = u.scheme ++ "://".toList ++
      (u.authority ++ u.path ++ marked '?' u.query ++ marked '#' u.fragment) := by
    simp only [text, List.append_assoc]
  rw [splitUri?, htext]
  exact congrArg _ hsplit

/-- A path that is there is cut out as a whole, and a missing one is missed unless a slash comes
later. -/
theorem cutPath_eq (hu : u.Proper) (h : u.path ≠ [] ∨ u.query = none ∧ u.fragment = none) :
    u.cutPath = u.path := by
  have hdrop : (u.authority ++ u.path ++ marked '?' u.query ++ marked '#' u.fragment).dropWhile
      (· != '/') = u.path ++ (marked '?' u.query ++ marked '#' u.fragment) := by
    simp only [List.append_assoc]
    refine (Text.span_append (bne_of_mem_authority hu) _ fun c hc => ?_).2
    cases hpath : u.path with
    | cons d path =>
        rw [hpath] at hc
        simp [hu.rooted c (by rw [hpath]; exact hc)]
    | nil =>
        obtain ⟨hquery, hfragment⟩ := h.resolve_left (· hpath)
        simp [hpath, hquery, hfragment, marked] at hc
  have hpath : ∀ c ∈ u.path, (!(c == '?' || c == '#')) = true := fun c hc => by
    have hnot := hu.path c hc
    simp only [List.mem_cons, not_or] at hnot
    simp [hnot.1, hnot.2.1]
  rw [cutPath, hdrop]
  refine (Text.span_append hpath _ fun c hc => ?_).1
  rcases head_of_marked hc with rfl | rfl <;> rfl

end Uri

/-! ## Following a path -/

namespace Reference

theorem foldl_walk_of_undotted {ss : List (List Char)} (h : ∀ s ∈ ss, s ≠ ['.'] ∧ s ≠ ['.', '.'])
    (way : List (List Char)) : ss.foldl walk way = ss.reverse ++ way := by
  induction ss generalizing way with
  | nil => rfl
  | cons s ss ih =>
      obtain ⟨hs, hss⟩ := List.forall_mem_cons.mp h
      rw [List.foldl_cons, walk, if_neg hs.1, if_neg hs.2, ih hss]
      simp

theorem foldl_walk_up (k : Nat) (way : List (List Char)) :
    (List.replicate k ['.', '.']).foldl walk way = way.drop k := by
  induction k generalizing way with
  | zero => rfl
  | succ k ih =>
      rw [List.replicate_succ, List.foldl_cons, ih, walk, if_neg (by decide), if_pos rfl,
        List.drop_drop, Nat.add_comm]

theorem mem_foldl_walk {ss way : List (List Char)} {s : List Char} (h : s ∈ ss.foldl walk way) :
    s ∈ ss ∨ s ∈ way := by
  induction ss generalizing way with
  | nil => exact .inr h
  | cons next ss ih =>
      rcases ih h with hs | hs
      · exact .inl (List.mem_cons_of_mem next hs)
      · unfold walk at hs
        split at hs
        · exact .inr hs
        split at hs
        · exact .inr (List.mem_of_mem_drop hs)
        · rcases List.mem_cons.mp hs with rfl | hs
          · exact .inl List.mem_cons_self
          · exact .inr hs

/-- **What is left of a path are the segments of the way that its segments go.** -/
theorem segments_removeDots (path : List Char) :
    segments (removeDots ('/' :: path)) =
      ((Text.pieces (· == '/') path).foldl walk []).reverse.filter fun s => !s.isEmpty := by
  have hslash : ∀ s ∈ (Text.pieces (· == '/') path).foldl walk [], '/' ∉ s := by
    intro s hs hmem
    have hpiece := (mem_foldl_walk hs).resolve_right List.not_mem_nil
    exact absurd (Text.not_sep_of_mem_pieces hpiece hmem) (by decide)
  simp only [removeDots, segments_cons]
  rw [segments_joinWith]
  · rw [List.filter_append]
    split <;> simp
  · intro s hs
    rcases List.mem_append.mp hs with hs | hs
    · exact hslash s (List.mem_reverse.mp hs)
    · split at hs <;> simp_all

theorem removeDots_of_undotted {path : List Char} (hrooted : ∀ c ∈ path.head?, c = '/')
    (h : ∀ s ∈ segments path, s ≠ ['.'] ∧ s ≠ ['.', '.']) : removeDots path = path := by
  cases path with
  | nil => rfl
  | cons c path =>
      obtain rfl := hrooted c rfl
      have hpieces : ∀ s ∈ Text.pieces (· == '/') path, s ≠ ['.'] ∧ s ≠ ['.', '.'] := by
        intro s hs
        cases s with
        | nil => decide
        | cons d s =>
            refine h _ ?_
            rw [segments_cons]
            exact List.mem_filter.mpr ⟨hs, rfl⟩
      have hlast : ¬ ((Text.pieces (· == '/') path).getLast? = some ['.'] ∨
          (Text.pieces (· == '/') path).getLast? = some ['.', '.']) := by
        rintro (hlast | hlast)
        · exact (hpieces _ (List.mem_of_getLast? hlast)).1 rfl
        · exact (hpieces _ (List.mem_of_getLast? hlast)).2 rfl
      simp only [removeDots, if_neg hlast, foldl_walk_of_undotted hpieces, List.append_nil,
        List.reverse_reverse, Text.joinWith_pieces]

end Reference

/-! ## The directory of a document -/

namespace Uri

variable {u : Uri}

/-- The segments of the directory of a URI, the empty ones included. -/
def folders (u : Uri) : List (List Char) := (Text.pieces (· == '/') (directory u.path)).tail

theorem path_eq_directory (hu : u.Proper) (h : u.path ≠ []) :
    ∃ file, '/' ∉ file ∧ u.path = directory u.path ++ '/' :: file := by
  obtain ⟨c, path, hpath⟩ := List.exists_cons_of_ne_nil h
  have hslash : '/' ∈ u.path := by
    have hc := hu.rooted c (by rw [hpath]; rfl)
    rw [hpath, hc]
    exact List.mem_cons_self
  obtain ⟨before, file, hcut, hfile⟩ := (exists_last_slash u.path).resolve_left (· hslash)
  refine ⟨file, hfile, ?_⟩
  rw [hcut, directory_append hfile]

theorem pieces_directory (hu : u.Proper) :
    Text.pieces (· == '/') (directory u.path) = [] :: u.folders := by
  unfold folders
  by_cases h : u.path = []
  · rw [h]
    rfl
  · obtain ⟨file, -, hcut⟩ := path_eq_directory hu h
    cases hdirectory : directory u.path with
    | nil => rfl
    | cons c before =>
        obtain rfl := hu.rooted c (by rw [hcut, hdirectory]; rfl)
        rfl

/-- **A path goes on where the directory of the document ends.** -/
theorem merge_toReference (hu : u.Proper) (cs : List Char) :
    ∃ path, Reference.merge u.toReference cs = '/' :: path ∧
      Text.pieces (· == '/') path = u.folders ++ Text.pieces (· == '/') cs := by
  have hmerge : Reference.merge u.toReference cs = directory u.path ++ '/' :: cs := by
    by_cases h : u.path = []
    · simp [Reference.merge, toReference, h, directory]
    · obtain ⟨file, hfile, hcut⟩ := path_eq_directory hu h
      have hin : ∀ c ∈ file.reverse, (c != '/') = true := fun c hc =>
        bne_slash hfile (List.mem_reverse.mp hc)
      have hdrop : (u.path.reverse.dropWhile (· != '/')).reverse = directory u.path ++ ['/'] := by
        rw [hcut, directory_append hfile]
        simp [List.dropWhile_append_of_pos hin]
      simp [Reference.merge, toReference, h, hdrop]
  have hpieces : Text.pieces (· == '/') (Reference.merge u.toReference cs) =
      [] :: (u.folders ++ Text.pieces (· == '/') cs) := by
    rw [hmerge, Text.pieces_append rfl, pieces_directory hu, List.cons_append]
  exact Text.exists_of_pieces_eq_nil_cons hpieces
    (List.append_ne_nil_of_right_ne_nil _ (Text.pieces_ne_nil _ cs))

/-- The folders of a document are its directory's segments, and some empty ones. -/
theorem segments_directory (hu : u.Proper) :
    segments (directory u.path) = u.folders.filter fun s => !s.isEmpty := by
  rw [segments, pieces_directory hu]
  rfl

theorem undotted_folders (hu : u.Proper) : ∀ s ∈ u.folders, s ≠ ['.'] ∧ s ≠ ['.', '.'] := by
  intro s hs
  cases s with
  | nil => decide
  | cons c s =>
      have hsegment : c :: s ∈ segments (directory u.path) := by
        rw [segments_directory hu]
        exact List.mem_filter.mpr ⟨hs, rfl⟩
      have hne : u.path ≠ [] := fun h => by simp [h, directory] at hsegment
      obtain ⟨file, -, hcut⟩ := path_eq_directory hu hne
      refine hu.undotted _ ?_
      rw [hcut, segments_append]
      exact List.mem_append_left _ hsegment

end Uri

end Markdown

end CopyPaste

import CopyPaste.Proofs.Files.Walking
import CopyPaste.Proofs.Markdown.Destination
import CopyPaste.Proofs.Markdown.Way
import CopyPaste.Transfer.OfPayload
import Mathlib.Data.List.Basic

/-!
# Files behind links

The path of a file becomes a URI by putting a scheme before it, and a link is written from the paths
that are cut out of two such URIs. Nothing in the path is encoded, so a question mark or a number
sign ends it early, and what looks like an escape is read as one. `fileLinks_lead_to_files` says for
which paths none of this happens.

* `FilePath`, `PlainFilePath` — the paths in question;
* `linkedFile` — the file to which a link leads from the directory of the document;
* **`percentDecode_encodeDestination`** — encoding a destination does not change what it stands for;
* **`linkedFile_iff_of_unmarked`**, **`linkedFile_ne_of_marked`** — when a link leads to its file;
* **`fileLinks_lead_to_files`** — both for all paths.
-/

namespace CopyPaste.Markdown

open Text (utf8 percentDecode HasEscape hexByte? hexValue?)
open CopyPaste.Path (weight goOn walkFrom fileFrom rootedPath)

/-! ## Decoding a destination -/

theorem hexByte?_of_none {a : Char} (h : hexValue? a = none) (cs : List Char) :
    hexByte? (a :: cs) = none := by
  cases cs with
  | nil => rfl
  | cons b cs => rw [hexByte?, h, Option.bind_none]

theorem hexByte?_of_second_none {a b : Char} (h : hexValue? b = none) (cs : List Char) :
    hexByte? (a :: b :: cs) = none := by
  rw [hexByte?, h]
  cases hexValue? a <;> rfl

theorem hexValue?_of_mem_delimiters {c : Char} (h : c ∈ delimiters) : hexValue? c = none := by
  simp only [delimiters, List.mem_cons, List.not_mem_nil, or_false] at h
  rcases h with rfl | rfl | rfl | rfl | rfl <;> rfl

/-- What stands for a delimiter begins with a percent sign, and stands for it. -/
theorem encodeChar_delimiter {c : Char} (h : c ∈ delimiters) :
    ∃ a b byte, encodeChar c = ['%', a, b] ∧ String.utf8EncodeChar c = [byte] ∧
      ∀ cs, hexByte? (a :: b :: cs) = some byte := by
  simp only [delimiters, List.mem_cons, List.not_mem_nil, or_false] at h
  rcases h with rfl | rfl | rfl | rfl | rfl
  · exact ⟨'2', '0', 0x20, rfl, rfl, fun _ => rfl⟩
  · exact ⟨'2', '8', 0x28, rfl, rfl, fun _ => rfl⟩
  · exact ⟨'2', '9', 0x29, rfl, rfl, fun _ => rfl⟩
  · exact ⟨'3', 'C', 0x3C, rfl, rfl, fun _ => rfl⟩
  · exact ⟨'3', 'E', 0x3E, rfl, rfl, fun _ => rfl⟩

/-- No two digits come from encoding. -/
theorem hexByte?_encodeDestination (cs : List Char) :
    hexByte? (encodeDestination cs) = hexByte? cs := by
  have hsign : hexValue? '%' = none := by decide
  cases cs with
  | nil => rfl
  | cons a cs =>
      by_cases ha : a ∈ delimiters
      · obtain ⟨_, _, _, hchar, -, -⟩ := encodeChar_delimiter ha
        rw [encodeDestination_cons, hchar, hexByte?_of_none (hexValue?_of_mem_delimiters ha)]
        exact hexByte?_of_none hsign _
      · cases cs with
        | nil => simp [encodeChar_of_not_mem ha]
        | cons b cs =>
            rw [encodeDestination_cons, encodeDestination_cons, encodeChar_of_not_mem ha]
            by_cases hb : b ∈ delimiters
            · obtain ⟨_, _, _, hchar, -, -⟩ := encodeChar_delimiter hb
              rw [hchar, hexByte?_of_second_none (hexValue?_of_mem_delimiters hb)]
              exact hexByte?_of_second_none hsign _
            · rw [encodeChar_of_not_mem hb]
              rfl

/-- **Encoding a destination does not change what it stands for.** -/
theorem percentDecode_encodeDestination (cs : List Char) :
    percentDecode (encodeDestination cs) = percentDecode cs := by
  induction cs using Text.escapeInduction with
  | nil => rfl
  | escape a b cs byte hbyte ih =>
      have ha : a ∉ delimiters := fun ha => by
        simp [hexByte?_of_none (hexValue?_of_mem_delimiters ha)] at hbyte
      have hb : b ∉ delimiters := fun hb => by
        simp [hexByte?_of_second_none (hexValue?_of_mem_delimiters hb)] at hbyte
      have hencoded : encodeDestination ('%' :: a :: b :: cs) =
          '%' :: a :: b :: encodeDestination cs := by
        simp [encodeChar_of_not_mem ha, encodeChar_of_not_mem hb,
          encodeChar_of_not_mem (c := '%') (by decide)]
      have hdigits : hexByte? (a :: b :: encodeDestination cs) = some byte := hbyte
      rw [hencoded, Text.percentDecode_escape hdigits, Text.percentDecode_escape hbyte, ih]
  | other c cs hother ih =>
      rw [encodeDestination_cons, Text.percentDecode_cons hother, ← ih]
      by_cases hc : c ∈ delimiters
      · obtain ⟨a, b, byte, hchar, hbytes, hdigits⟩ := encodeChar_delimiter hc
        rw [hchar, hbytes, List.cons_append, List.cons_append, List.cons_append, List.nil_append,
          Text.percentDecode_escape (hdigits _), List.singleton_append]
      · rw [encodeChar_of_not_mem hc, List.singleton_append, Text.percentDecode_cons]
        intro hsign
        rw [hexByte?_encodeDestination, hother hsign]

/-! ## Paths of files -/

/-- A path from the root that is not taken for a URI. -/
structure FilePath (p : String) : Prop where
  rooted : p.toList.head? = some '/'
  unschemed : Text.occurs "://".toList p.toList = false

/-- A path of a file in which every segment names something. -/
structure PlainFilePath (p : String) : Prop extends FilePath p where
  filled : p.toList = '/' :: Text.joinWith ['/'] (segments p.toList)
  undotted : ∀ s ∈ segments p.toList, s ≠ ['.'] ∧ s ≠ ['.', '.']

/-- Nothing in a text is taken for the start of a query or a fragment. -/
def Unmarked (cs : List Char) : Prop := '?' ∉ cs ∧ '#' ∉ cs

instance (cs : List Char) : Decidable (Unmarked cs) := inferInstanceAs (Decidable (_ ∧ _))

/-- A path as it is cut out of its URI. -/
def cutMarks (cs : List Char) : List Char := upTo (fun c => c == '?' || c == '#') cs

/-- The folders in which a document lies. -/
def foldersOf (document : String) : List (List Char) := segments (directory document.toList)

/-- What the destination of a link from one file to another stands for. -/
def linkedPath (document file : String) : List UInt8 :=
  percentDecode (destination (fileUri document).toList (fileUri file).toList)

/-- The file to which a link leads from the directory of its document. -/
def linkedFile (document file : String) : List UInt8 :=
  fileFrom ((foldersOf document).map utf8) (linkedPath document file)

/-- The segments of a file that its document's folders do not share. -/
def below (document file : String) : List (List Char) :=
  (segments file.toList).drop (commonCount (foldersOf document) (segments file.toList))

theorem splitUri?_fileUri {p : String} (hp : FilePath p) :
    splitUri? (fileUri p).toList = some ("file".toList, cutMarks p.toList) := by
  obtain ⟨rest, hrest⟩ := List.head?_eq_some_iff.mp hp.rooted
  have htext : (fileUri p).toList = "file".toList ++ "://".toList ++ p.toList := by
    rw [fileUri, hp.unschemed, if_neg Bool.false_ne_true, hrest]
    simp only [String.toList_append, hrest]
    rfl
  have hsplit : Text.splitOnce? "://".toList ("file".toList ++ "://".toList ++ p.toList) =
      some ("file".toList, p.toList) :=
    Text.splitOnce?_append (w := ':') (by decide) ['/', '/'] p.toList
  rw [splitUri?, htext, hsplit, Option.map_some, hrest]
  rfl

/-! ## Cutting -/

theorem cutMarks_append {cs : List Char} (h : Unmarked cs) (ds : List Char) :
    cutMarks (cs ++ ds) = cs ++ cutMarks ds := by
  refine List.takeWhile_append_of_pos fun c hc => ?_
  have hquery : c ≠ '?' := fun heq => h.1 (heq ▸ hc)
  have hfragment : c ≠ '#' := fun heq => h.2 (heq ▸ hc)
  simp [hquery, hfragment]

theorem cutMarks_of_unmarked {cs : List Char} (h : Unmarked cs) : cutMarks cs = cs := by
  have happend := cutMarks_append h []
  have hnil : cutMarks [] = [] := rfl
  rwa [hnil, List.append_nil] at happend

theorem unmarked_cutMarks (cs : List Char) : Unmarked (cutMarks cs) := by
  have hall : ∀ c ∈ cutMarks cs, (!(c == '?' || c == '#')) = true :=
    List.all_eq_true.mp List.all_takeWhile
  exact ⟨fun h => absurd (hall '?' h) (by decide), fun h => absurd (hall '#' h) (by decide)⟩

/-- A mark stands where a text is cut. -/
theorem exists_of_marked {cs : List Char} (h : ¬ Unmarked cs) :
    ∃ mark rest, cs = cutMarks cs ++ mark :: rest ∧ (mark = '?' ∨ mark = '#') := by
  induction cs with
  | nil => exact absurd ⟨List.not_mem_nil, List.not_mem_nil⟩ h
  | cons c cs ih =>
      by_cases hc : c = '?' ∨ c = '#'
      · refine ⟨c, cs, ?_, hc⟩
        rcases hc with rfl | rfl <;> rfl
      · obtain ⟨hquery, hfragment⟩ := not_or.mp hc
        have hfirst : Unmarked [c] :=
          ⟨by simpa using Ne.symm hquery, by simpa using Ne.symm hfragment⟩
        have hcut : cutMarks (c :: cs) = c :: cutMarks cs := cutMarks_append hfirst cs
        have hrest : ¬ Unmarked cs := fun hcs => h
          ⟨by simp [Ne.symm hquery, hcs.1], by simp [Ne.symm hfragment, hcs.2]⟩
        obtain ⟨mark, rest, heq, hmark⟩ := ih hrest
        exact ⟨mark, rest, by rw [hcut, List.cons_append, ← heq], hmark⟩

theorem length_utf8_cutMarks_lt {cs : List Char} (h : ¬ Unmarked cs) :
    (utf8 (cutMarks cs)).length < (utf8 cs).length := by
  obtain ⟨mark, rest, heq, -⟩ := exists_of_marked h
  have hmark := Char.utf8Size_pos mark
  have hlength := congrArg (fun cs => (utf8 cs).length) heq
  simp only [Text.utf8_append, Text.utf8_cons, List.length_append, String.length_utf8EncodeChar]
    at hlength
  omega

/-- **A path is what is cut out of its URI** exactly if it has neither mark nor escape. -/
theorem percentDecode_cutMarks_iff {cs : List Char} :
    percentDecode (cutMarks cs) = utf8 cs ↔ Unmarked cs ∧ ¬ HasEscape cs := by
  by_cases h : Unmarked cs
  · rw [cutMarks_of_unmarked h, Text.percentDecode_eq_utf8_iff, and_iff_right h]
  · have hlt := length_utf8_cutMarks_lt h
    have hle := Text.length_percentDecode_le (cutMarks cs)
    refine iff_of_false (fun heq => ?_) (fun hboth => h hboth.1)
    rw [heq] at hle
    omega

/-! ## Directories -/

/-- What stands at the start of a text without a slash begins its first segment. -/
theorem exists_of_segments_append {begun : List Char} (hne : begun ≠ []) (hslash : '/' ∉ begun)
    (rest : List Char) : ∃ s ss, segments (begun ++ rest) = s :: ss ∧ begun <+: s := by
  induction rest generalizing begun with
  | nil =>
      refine ⟨begun, [], ?_, List.prefix_refl begun⟩
      rw [List.append_nil, segments_of_not_mem hslash hne]
  | cons c rest ih =>
      by_cases hc : c = '/'
      · subst hc
        refine ⟨begun, segments rest, ?_, List.prefix_refl begun⟩
        rw [segments_append, segments_of_not_mem hslash hne, List.singleton_append]
      · have hnext : '/' ∉ begun ++ [c] := by simp [hslash, Ne.symm hc]
        obtain ⟨s, ss, heq, hprefix⟩ := ih (by simp) hnext
        refine ⟨s, ss, ?_, (List.prefix_append begun [c]).trans hprefix⟩
        rw [← heq, List.append_assoc, List.singleton_append]

theorem exists_last_slash_of_rooted {path : List Char} (h : path.head? = some '/') :
    ∃ before name, path = before ++ '/' :: name ∧ '/' ∉ name := by
  refine (exists_last_slash path).resolve_left fun hnone => ?_
  obtain ⟨rest, rfl⟩ := List.head?_eq_some_iff.mp h
  exact hnone List.mem_cons_self

theorem directory_cutMarks_of_unmarked {d : List Char} (hd : d.head? = some '/')
    (h : Unmarked (directory d)) : directory (cutMarks d) = directory d := by
  obtain ⟨before, name, rfl, hname⟩ := exists_last_slash_of_rooted hd
  rw [directory_append hname] at h ⊢
  have hslash : cutMarks ('/' :: name) = '/' :: cutMarks name := rfl
  have hcut : '/' ∉ cutMarks name := fun hmem => hname ((List.takeWhile_prefix _).subset hmem)
  rw [cutMarks_append h, hslash, directory_append hcut]

/-- A mark in the directory cuts it within the segment that holds the mark. -/
theorem segments_directory_of_marked {d : List Char} (hd : d.head? = some '/')
    (h : ¬ Unmarked (directory d)) :
    ∃ s ss, segments (directory d) = segments (directory (cutMarks d)) ++ s :: ss ∧
      ¬ Unmarked s := by
  obtain ⟨before, name, rfl, hname⟩ := exists_last_slash_of_rooted hd
  rw [directory_append hname] at h ⊢
  obtain ⟨mark, rest, hbefore, hmark⟩ := exists_of_marked h
  have hcut : cutMarks (before ++ '/' :: name) = cutMarks before := by
    have hstop : cutMarks (mark :: (rest ++ '/' :: name)) = [] := by
      rcases hmark with rfl | rfl <;> rfl
    conv_lhs => rw [hbefore, List.append_assoc, List.cons_append,
      cutMarks_append (unmarked_cutMarks before), hstop, List.append_nil]
  have hrooted : (cutMarks before).head? = some '/' := by
    obtain ⟨behind, hbehind⟩ := List.head?_eq_some_iff.mp hd
    cases before with
    | nil => exact absurd ⟨List.not_mem_nil, List.not_mem_nil⟩ h
    | cons c before =>
        obtain rfl := (List.cons.inj hbehind).1
        rfl
  obtain ⟨kept, begun, heq, hbegun⟩ := exists_last_slash_of_rooted hrooted
  have hslash : '/' ∉ begun ++ [mark] := by
    rcases hmark with rfl | rfl <;> simp [hbegun]
  obtain ⟨s, ss, hsegments, hprefix⟩ :=
    exists_of_segments_append (by simp) hslash rest
  refine ⟨s, ss, ?_, fun hs => ?_⟩
  · rw [hcut, heq, directory_append hbegun, ← hsegments, ← segments_append]
    conv_lhs => rw [hbefore, heq]
    simp only [List.append_assoc, List.cons_append, List.nil_append]
  · have hmem : mark ∈ s := hprefix.subset (List.mem_append_right begun List.mem_cons_self)
    rcases hmark with rfl | rfl
    · exact hs.1 hmem
    · exact hs.2 hmem

/-- A segment that the goal does not have ends what is shared. -/
theorem commonCount_append_of_not_mem {s : List Char} {goal : List (List Char)} (h : s ∉ goal)
    (source rest : List (List Char)) :
    commonCount (source ++ s :: rest) goal = commonCount source goal := by
  induction source generalizing goal with
  | nil =>
      cases goal with
      | nil => rfl
      | cons b goal =>
          have hne : s ≠ b := fun heq => h (heq ▸ List.mem_cons_self)
          simp [commonCount, hne]
  | cons a source ih =>
      cases goal with
      | nil => rfl
      | cons b goal =>
          rw [List.cons_append, commonCount, commonCount,
            ih (fun hs => h (List.mem_cons_of_mem b hs))]

/-! ## Walking a link -/

section Links

variable {d t : String}

/-- The folders of a document as its link builder sees them. -/
def seenFolders (d : String) : List (List Char) := segments (directory (cutMarks d.toList))

/-- The segments of a file as the link builder sees them. -/
def seenSegments (t : String) : List (List Char) := segments (cutMarks t.toList)

/-- How many of the segments that are seen are shared. -/
def seenShared (d t : String) : Nat := commonCount (seenFolders d) (seenSegments t)

/-- How many folders of the document a link does not leave. -/
def stayed (d t : String) : Nat :=
  (foldersOf d).length - ((seenFolders d).length - seenShared d t)

/-- The segments that a link goes down to. -/
def descent (d t : String) : List (List Char) := (seenSegments t).drop (seenShared d t)

/-- The segments of bytes that these stand for. -/
def descentBytes (d t : String) : List (List UInt8) :=
  (descent d t).flatMap fun s => (percentDecode s).splitOn 0x2F

/-- The segments of bytes that a link leads to. -/
def linkedSegments (d t : String) : List (List UInt8) :=
  walkFrom ((foldersOf d).map utf8) (linkedPath d t)

/-- The steps of a link, or one dot if there are none. -/
def linkSteps (d t : String) : List (List Char) :=
  if steps (seenFolders d) (seenSegments t) = [] then [['.']]
  else steps (seenFolders d) (seenSegments t)

theorem seenFolders_of_unmarked (hd : FilePath d) (h : Unmarked (directory d.toList)) :
    seenFolders d = foldersOf d := by
  rw [seenFolders, directory_cutMarks_of_unmarked hd.rooted h]
  rfl

/-- Folders that are seen are left up to what is shared. -/
theorem stayed_of_unmarked (hd : FilePath d) (h : Unmarked (directory d.toList)) :
    stayed d t = seenShared d t := by
  have hle : seenShared d t ≤ (seenFolders d).length := (commonCount_le _ _).1
  rw [stayed, ← seenFolders_of_unmarked hd h]
  omega

theorem linkSteps_ne_nil (d t : String) : linkSteps d t ≠ [] := by
  unfold linkSteps
  split
  next => exact List.cons_ne_nil _ _
  next h => exact h

theorem target_fileUri (hd : FilePath d) (ht : FilePath t) :
    target (fileUri d).toList (fileUri t).toList = Text.joinWith ['/'] (linkSteps d t) := by
  have hnil : relativePath (directory (cutMarks d.toList)) (cutMarks t.toList) = [] ↔
      steps (seenFolders d) (seenSegments t) = [] := relativePath_eq_nil_iff
  rw [target, splitUri?_fileUri hd, splitUri?_fileUri ht]
  dsimp only
  rw [if_pos rfl]
  unfold linkSteps
  split
  next hempty => rw [if_pos (hnil.mp hempty)]; rfl
  next relative hne =>
    rw [if_neg fun h => hne (hnil.mpr h)]
    rfl

/-- **A link climbs to what is seen to be shared and goes down from there.** -/
theorem foldl_linkSteps (hd : FilePath d) (ht : FilePath t) (start : List (List UInt8)) :
    ((linkedPath d t).splitOn 0x2F).foldl goOn start =
      (descentBytes d t).foldl goOn
        (start.take (start.length - ((seenFolders d).length - seenShared d t))) := by
  have hpieces : (linkedPath d t).splitOn 0x2F =
      (linkSteps d t).flatMap fun s => (percentDecode s).splitOn 0x2F := by
    rw [linkedPath, destination_eq, percentDecode_encodeDestination, target_fileUri hd ht,
      Text.percentDecode_joinWith, Path.splitOn_intercalate_eq_flatMap
        (mt List.map_eq_nil_iff.mp (linkSteps_ne_nil d t)), List.flatMap_map]
  have hdot : (percentDecode ['.']).splitOn 0x2F = [utf8 ['.']] := by decide
  have hup : (percentDecode ['.', '.']).splitOn 0x2F = [utf8 ['.', '.']] := by decide
  rw [hpieces, linkSteps]
  split
  next hempty =>
    obtain ⟨hups, hdown⟩ := List.append_eq_nil_iff.mp hempty
    have hzero : (seenFolders d).length - seenShared d t = 0 :=
      List.replicate_eq_nil_iff _ |>.mp hups
    have hdescent : descent d t = [] := hdown
    have hstay : goOn start (utf8 ['.']) = start := by rw [goOn, if_pos (.inr rfl)]
    rw [descentBytes, hdescent, hzero, List.flatMap_singleton, hdot, List.foldl_cons,
      List.foldl_nil, hstay, Nat.sub_zero, List.take_length, List.flatMap_nil, List.foldl_nil]
  next =>
    have hsteps : steps (seenFolders d) (seenSegments t) =
        List.replicate ((seenFolders d).length - seenShared d t) ['.', '.'] ++ descent d t := rfl
    rw [hsteps, List.flatMap_append, List.flatMap_replicate, hup,
      List.flatten_replicate_singleton, List.foldl_append, Path.foldl_goOn_up]
    rfl

theorem map_utf8_eq_flatMap (ss : List (List Char)) :
    ss.map utf8 = ss.flatMap fun s => [utf8 s] := List.map_eq_flatMap

theorem weight_splitOn_percentDecode_le (s : List Char) :
    weight ((percentDecode s).splitOn 0x2F) ≤ weight [utf8 s] := by
  have hle := Text.length_percentDecode_le s
  rw [Path.weight_splitOn, Path.weight_cons, Path.weight_nil]
  omega

theorem weight_descentBytes_le (d t : String) :
    weight (descentBytes d t) ≤ weight ((descent d t).map utf8) := by
  rw [map_utf8_eq_flatMap]
  exact Path.weight_flatMap_le fun s _ => weight_splitOn_percentDecode_le s

/-- An escape makes the way down lighter. -/
theorem weight_descentBytes_lt {s : List Char} (hs : s ∈ descent d t) (h : HasEscape s) :
    weight (descentBytes d t) < weight ((descent d t).map utf8) := by
  rw [map_utf8_eq_flatMap]
  refine Path.weight_flatMap_lt (fun s _ => weight_splitOn_percentDecode_le s) hs ?_
  have hlt := Text.length_percentDecode_lt h
  rw [Path.weight_splitOn, Path.weight_cons, Path.weight_nil]
  omega

/-- Without an escape a link does not begin at the root. -/
theorem head_linkedPath (hd : FilePath d) (ht : FilePath t)
    (h : ∀ s ∈ descent d t, ¬ HasEscape s) : (linkedPath d t).head? ≠ some 0x2F := by
  have hdots : ∀ s ∈ [['.'], ['.', '.']], percentDecode s = utf8 s ∧ s ≠ [] ∧ '/' ∉ s := by
    decide
  have hsteps : ∀ s ∈ linkSteps d t, percentDecode s = utf8 s ∧ s ≠ [] ∧ '/' ∉ s := by
    intro s hs
    unfold linkSteps at hs
    split at hs
    · exact hdots s (by simp [List.mem_singleton.mp hs])
    · rcases List.mem_append.mp hs with hs | hs
      · exact hdots s (by simp [List.eq_of_mem_replicate hs])
      · have hmem := List.mem_of_mem_drop hs
        exact ⟨Text.percentDecode_of_not_hasEscape (h s hs), ne_nil_of_mem_segments hmem,
          not_slash_of_mem_segments hmem⟩
  rw [linkedPath, destination_eq, percentDecode_encodeDestination, target_fileUri hd ht,
    Text.percentDecode_joinWith, List.map_congr_left fun s hs => (hsteps s hs).1,
    ← Text.utf8_joinWith]
  exact mt Text.head_utf8_eq_slash (head_joinWith fun s hs => (hsteps s hs).2)

/-- **What a link leads to:** some of the folders of the document, and what it adds to them. It
leaves no more of them than it climbs out of, unless what it adds is lighter for that or there is an
escape in it. -/
theorem linkedSegments_spec (hd : FilePath d) (ht : FilePath t) :
    ∃ kept added, linkedSegments d t = ((foldersOf d).take kept).map utf8 ++ added ∧
      kept ≤ stayed d t ∧ weight added ≤ weight (descentBytes d t) ∧
      (kept < stayed d t →
        weight added < weight (descentBytes d t) ∨ ∃ s ∈ descent d t, HasEscape s) ∧
      ∀ s ∈ added, s ≠ [] ∧ (0x2F : UInt8) ∉ s := by
  have hproper : ∀ s ∈ descentBytes d t, (0x2F : UInt8) ∉ s := fun s hs => by
    obtain ⟨piece, -, hpiece⟩ := List.mem_flatMap.mp hs
    exact Path.not_slash_of_mem_splitOn hpiece
  unfold linkedSegments walkFrom
  split
  next hroot =>
    obtain ⟨kept, added, heq, -, hweight, hadded⟩ := Path.foldl_goOn_spec [] (descentBytes d t)
    refine ⟨0, added, ?_, Nat.zero_le _, Nat.le_of_add_right_le hweight, fun _ => .inr ?_,
      fun s hs => ⟨(hadded s hs).2, hproper s (hadded s hs).1⟩⟩
    · rw [foldl_linkSteps hd ht, List.take_nil, heq, List.take_nil, List.take_zero]
      rfl
    · by_contra hnone
      exact head_linkedPath hd ht
        (fun s hs hescape => hnone ⟨s, hs, hescape⟩) hroot
  next =>
    have hlength : (((foldersOf d).map utf8).take (stayed d t)).length = stayed d t := by
      rw [List.length_take, List.length_map]
      exact Nat.min_eq_left (Nat.sub_le _ _)
    obtain ⟨kept, added, heq, hkept, hweight, hadded⟩ :=
      Path.foldl_goOn_spec (((foldersOf d).map utf8).take (stayed d t)) (descentBytes d t)
    rw [hlength] at hkept hweight
    refine ⟨kept, added, ?_, hkept, by omega, fun hlt => .inl (by omega),
      fun s hs => ⟨(hadded s hs).2, hproper s (hadded s hs).1⟩⟩
    rw [foldl_linkSteps hd ht, List.length_map, List.map_take]
    rw [List.take_take, Nat.min_eq_left hkept] at heq
    exact heq

/-- Without an escape a link adds what it goes down to. -/
theorem linkedSegments_of_not_escaped (hd : FilePath d) (ht : FilePath t)
    (h : ∀ s ∈ descent d t, ¬ HasEscape s)
    (hundotted : ∀ s ∈ descent d t, s ≠ ['.'] ∧ s ≠ ['.', '.']) :
    linkedSegments d t =
      ((foldersOf d).take (stayed d t)).map utf8 ++ (descent d t).map utf8 := by
  have hbytes : descentBytes d t = (descent d t).map utf8 := by
    rw [map_utf8_eq_flatMap, descentBytes]
    refine List.flatMap_congr fun s hs => ?_
    have hslash : (0x2F : UInt8) ∉ utf8 s :=
      mt Text.slash_mem_utf8_iff.mp (not_slash_of_mem_segments (List.mem_of_mem_drop hs))
    rw [Text.percentDecode_of_not_hasEscape (h s hs), List.splitOn_eq_singleton hslash]
  unfold linkedSegments walkFrom
  rw [if_neg (head_linkedPath hd ht h), foldl_linkSteps hd ht, hbytes,
    Path.foldl_goOn_down, List.length_map, List.map_take]
  · rfl
  · intro bytes hmem
    obtain ⟨s, hs, rfl⟩ := List.mem_map.mp hmem
    have hne := ne_nil_of_mem_segments (List.mem_of_mem_drop hs)
    exact ⟨mt Text.utf8_eq_nil_iff.mp hne, fun heq => (hundotted s hs).1 (Text.utf8_injective heq),
      fun heq => (hundotted s hs).2 (Text.utf8_injective heq)⟩

/-! ## Arriving at a file -/

/-- The bytes of a plain path are those of its segments, from the root. -/
theorem utf8_eq_rootedPath (ht : PlainFilePath t) :
    utf8 t.toList = rootedPath ((segments t.toList).map utf8) := by
  have hbytes := congrArg utf8 ht.filled
  rwa [Text.utf8_cons, Text.utf8_joinWith, Text.utf8EncodeChar_slash] at hbytes

theorem proper_utf8_segments {p : List Char} {s : List UInt8}
    (h : s ∈ (segments p).map utf8) : s ≠ [] ∧ (0x2F : UInt8) ∉ s := by
  obtain ⟨s, hs, rfl⟩ := List.mem_map.mp h
  exact ⟨mt Text.utf8_eq_nil_iff.mp (ne_nil_of_mem_segments hs),
    mt Text.slash_mem_utf8_iff.mp (not_slash_of_mem_segments hs)⟩

/-- A link leads to a file exactly if it leads to its segments. -/
theorem linkedFile_eq_iff (hd : FilePath d) (ht : PlainFilePath t) :
    linkedFile d t = utf8 t.toList ↔ linkedSegments d t = (segments t.toList).map utf8 := by
  obtain ⟨kept, added, heq, -, -, -, hadded⟩ := linkedSegments_spec hd ht.toFilePath
  have hlinked : ∀ s ∈ linkedSegments d t, s ≠ [] ∧ (0x2F : UInt8) ∉ s := fun s hs => by
    rcases List.mem_append.mp (heq ▸ hs) with hs | hs
    · rw [List.map_take] at hs
      exact proper_utf8_segments (List.mem_of_mem_take hs)
    · exact hadded s hs
  rw [utf8_eq_rootedPath ht]
  exact Path.rootedPath_inj hlinked fun s hs => proper_utf8_segments hs

theorem weight_segments_le {p : List Char} (hp : p.head? = some '/') :
    weight ((segments p).map utf8) ≤ (utf8 p).length := by
  obtain ⟨p, rfl⟩ := List.head?_eq_some_iff.mp hp
  have hpieces : ([0x2F].intercalate ((Text.pieces (· == '/') p).map utf8)).length =
      (utf8 p).length := by
    rw [← Text.utf8_joinWith, Text.joinWith_pieces]
  have hne : (Text.pieces (· == '/') p).map utf8 ≠ [] :=
    mt List.map_eq_nil_iff.mp (Text.pieces_ne_nil (· == '/') p)
  have htotal := Path.length_intercalate hne
  have hle := Path.weight_le_of_sublist
    ((List.filter_sublist (p := fun s => !s.isEmpty) (l := Text.pieces (· == '/') p)).map utf8)
  rw [segments_cons, Text.utf8_cons, List.length_append, Text.utf8EncodeChar_slash]
  simp only [List.length_singleton]
  unfold segments
  omega

/-- The segments of a plain path weigh what the path does, unless it is the root. -/
theorem weight_segments_plain (ht : PlainFilePath t) (hne : segments t.toList ≠ []) :
    weight ((segments t.toList).map utf8) = (utf8 t.toList).length := by
  rw [utf8_eq_rootedPath ht, rootedPath, List.length_cons,
    Path.length_intercalate (mt List.map_eq_nil_iff.mp hne)]

/-- **A link weighs no more than what is seen of the file** if all it keeps of the folders is shared,
and less than that by what it loses on the way down. -/
theorem weight_linkedSegments_le {kept : Nat} {added : List (List UInt8)}
    (heq : linkedSegments d t = ((foldersOf d).take kept).map utf8 ++ added)
    (hkept : kept ≤ seenShared d t)
    (hshared : (foldersOf d).take (seenShared d t) = (seenSegments t).take (seenShared d t)) :
    weight (linkedSegments d t) + weight ((descent d t).map utf8) ≤
      weight ((seenSegments t).map utf8) + weight added := by
  have hkeptWeight : weight (((foldersOf d).take kept).map utf8) ≤
      weight (((seenSegments t).take (seenShared d t)).map utf8) := by
    rw [← hshared]
    exact Path.weight_le_of_sublist ((List.take_prefix_take_left hkept).sublist.map utf8)
  have hwhole : weight ((seenSegments t).map utf8) =
      weight (((seenSegments t).take (seenShared d t)).map utf8) +
        weight ((descent d t).map utf8) := by
    rw [← Path.weight_append, ← List.map_append, descent, List.take_append_drop]
  rw [heq, Path.weight_append]
  omega

/-- **A file whose path is cut is not reached** from a folder whose path is not cut. -/
theorem linkedFile_ne_of_marked (hd : FilePath d) (hfolders : Unmarked (directory d.toList))
    (ht : PlainFilePath t) (hmarked : ¬ Unmarked t.toList) :
    linkedFile d t ≠ utf8 t.toList := by
  rw [Ne, linkedFile_eq_iff hd ht]
  intro harrived
  obtain ⟨kept, added, heq, hkept, hadded, -, -⟩ := linkedSegments_spec hd ht.toFilePath
  rw [stayed_of_unmarked hd hfolders] at hkept
  have hshared : (foldersOf d).take (seenShared d t) = (seenSegments t).take (seenShared d t) :=
    seenFolders_of_unmarked hd hfolders ▸ take_commonCount (seenFolders d) (seenSegments t)
  -- what is reached weighs no more than what is seen of the file, and that is only a part of it
  have hlinked := weight_linkedSegments_le heq hkept hshared
  have hdown := weight_descentBytes_le d t
  have hrooted : (cutMarks t.toList).head? = some '/' := by
    obtain ⟨rest, hrest⟩ := List.head?_eq_some_iff.mp ht.rooted
    rw [hrest]
    rfl
  have hcut : weight ((seenSegments t).map utf8) ≤ _ := weight_segments_le hrooted
  have hlt := length_utf8_cutMarks_lt hmarked
  have hne : segments t.toList ≠ [] := fun hnil => hmarked (by
    rw [ht.filled, hnil]
    exact ⟨by decide, by decide⟩)
  have hwhole := weight_segments_plain ht hne
  rw [← harrived] at hwhole
  omega

/-- What is seen of a document's folders shares as much with an unmarked file as the folders do. -/
theorem seenShared_of_unmarked (hd : FilePath d) (ht : Unmarked t.toList) :
    seenShared d t = commonCount (foldersOf d) (segments t.toList) := by
  rw [seenShared, seenSegments, cutMarks_of_unmarked ht]
  by_cases hfolders : Unmarked (directory d.toList)
  · rw [seenFolders_of_unmarked hd hfolders]
  · obtain ⟨s, ss, heq, hs⟩ := segments_directory_of_marked hd.rooted hfolders
    have hnot : s ∉ segments t.toList := fun hmem =>
      hs ⟨fun h => ht.1 (mem_of_mem_segments hmem h), fun h => ht.2 (mem_of_mem_segments hmem h)⟩
    rw [foldersOf, heq, commonCount_append_of_not_mem hnot]
    rfl

/-- **A file whose path is not cut is reached** exactly if the path of the folder is not cut either
and nothing on the way down is taken for an escape. -/
theorem linkedFile_iff_of_unmarked (hd : FilePath d) (ht : PlainFilePath t)
    (hunmarked : Unmarked t.toList) :
    linkedFile d t = utf8 t.toList ↔
      Unmarked (directory d.toList) ∧ ∀ s ∈ below d t, ¬ HasEscape s := by
  have hseen : seenSegments t = segments t.toList := by
    rw [seenSegments, cutMarks_of_unmarked hunmarked]
  have hshared := seenShared_of_unmarked hd hunmarked
  have hbelow : descent d t = below d t := by
    rw [descent, hseen, hshared]
    rfl
  have htake := take_commonCount (foldersOf d) (segments t.toList)
  rw [← hshared] at htake
  rw [linkedFile_eq_iff hd ht, ← hbelow]
  constructor
  · intro harrived
    obtain ⟨kept, added, heq, hkept, hadded, hlighter, -⟩ := linkedSegments_spec hd ht.toFilePath
    -- what is kept of the folders is shared with the file
    have hprefix : (foldersOf d).take kept <+: segments t.toList := by
      rw [← List.prefix_map_iff_of_injective Text.utf8_injective, ← harrived, heq]
      exact List.prefix_append _ _
    have hkeptShared : kept ≤ seenShared d t := by
      have hlongest := length_le_commonCount (List.take_prefix kept (foldersOf d)) hprefix
      rw [← hshared, List.length_take] at hlongest
      have hall : stayed d t ≤ (foldersOf d).length := Nat.sub_le _ _
      omega
    have hlinked := weight_linkedSegments_le heq hkeptShared (by rw [htake, hseen])
    rw [harrived, hseen] at hlinked
    have hdown := weight_descentBytes_le d t
    have hescapes : ∀ s ∈ descent d t, ¬ HasEscape s := fun s hs hescape => by
      have hlt := weight_descentBytes_lt hs hescape
      omega
    refine ⟨?_, hescapes⟩
    by_contra hfolders
    -- the folders that are not seen are not left, so more is kept than is shared
    obtain ⟨s, ss, hsegments, -⟩ := segments_directory_of_marked hd.rooted hfolders
    have hmore : (foldersOf d).length = (seenFolders d).length + (ss.length + 1) := by
      rw [foldersOf, hsegments, List.length_append, List.length_cons]
      rfl
    have hsharedLe : seenShared d t ≤ (seenFolders d).length := (commonCount_le _ _).1
    have hleft : kept < stayed d t := by
      rw [stayed]
      omega
    rcases hlighter hleft with hlt | ⟨s, hs, hescape⟩
    · omega
    · exact hescapes s hs hescape
  · rintro ⟨hfolders, hescapes⟩
    rw [linkedSegments_of_not_escaped hd ht.toFilePath hescapes, stayed_of_unmarked hd hfolders,
      htake, ← List.map_append, descent, hseen, List.take_append_drop]
    intro s hs
    rw [descent, hseen] at hs
    exact ht.undotted s (List.mem_of_mem_drop hs)

end Links

/-- **Which paths survive as URIs.** The path of a file is cut out of its URI, percent-decoded, as
it is exactly if it has no mark and no escape. A link to a file from a document, both with plain
paths, percent-decoded and resolved in the document's directory, leads to the file exactly if
neither that directory nor the file's path has a mark and nothing on the way down to the file has an
escape; where both have a mark nothing is said. -/
theorem fileLinks_lead_to_files (t : String) (ht : FilePath t) :
    (∃ path, splitUri? (fileUri t).toList = some ("file".toList, path) ∧
      (percentDecode path = utf8 t.toList ↔ Unmarked t.toList ∧ ¬ HasEscape t.toList)) ∧
    (PlainFilePath t → ∀ d, PlainFilePath d →
      Unmarked (directory d.toList) ∨ Unmarked t.toList →
      (linkedFile d t = utf8 t.toList ↔
        Unmarked (directory d.toList) ∧ Unmarked t.toList ∧ ∀ s ∈ below d t, ¬ HasEscape s)) := by
  refine ⟨⟨cutMarks t.toList, splitUri?_fileUri ht, percentDecode_cutMarks_iff⟩,
    fun hplain d hd honce => ?_⟩
  by_cases hunmarked : Unmarked t.toList
  · rw [linkedFile_iff_of_unmarked hd.toFilePath hplain hunmarked, and_iff_right hunmarked]
  · have hfolders := honce.resolve_right hunmarked
    exact iff_of_false (linkedFile_ne_of_marked hd.toFilePath hfolders hplain hunmarked)
      fun h => hunmarked h.2.1

/-- Spaces, brackets and percent signs alone do no harm. -/
theorem spaced_path_is_linked :
    PlainFilePath "/my notes/100%.md" ∧ PlainFilePath "/my files/b (5%).md" ∧
      (∃ path, splitUri? (fileUri "/my files/b (5%).md").toList = some ("file".toList, path) ∧
        percentDecode path = utf8 "/my files/b (5%).md".toList) ∧
      linkedFile "/my notes/100%.md" "/my files/b (5%).md" =
        utf8 "/my files/b (5%).md".toList := by
  have hd : PlainFilePath "/my notes/100%.md" := ⟨⟨by decide, by decide⟩, by decide, by decide⟩
  have ht : PlainFilePath "/my files/b (5%).md" :=
    ⟨⟨by decide, by decide⟩, by decide, by decide⟩
  obtain ⟨⟨path, hpath, hdecoded⟩, hlinked⟩ :=
    fileLinks_lead_to_files "/my files/b (5%).md" ht.toFilePath
  exact ⟨hd, ht, ⟨path, hpath, hdecoded.mpr ⟨by decide, by decide⟩⟩,
    (hlinked ht "/my notes/100%.md" hd (.inl (by decide))).mpr
      ⟨by decide, by decide, by decide⟩⟩

/-- A link from a folder with a question mark in its name stays in that folder. -/
theorem marked_folder_is_not_left :
    PlainFilePath "/why?/n.md" ∧ PlainFilePath "/t.md" ∧
      linkedFile "/why?/n.md" "/t.md" = utf8 "/why?/t.md".toList ∧
      linkedFile "/why?/n.md" "/t.md" ≠ utf8 "/t.md".toList := by
  have hd : PlainFilePath "/why?/n.md" := ⟨⟨by decide, by decide⟩, by decide, by decide⟩
  have ht : PlainFilePath "/t.md" := ⟨⟨by decide, by decide⟩, by decide, by decide⟩
  have hlinked : linkedFile "/why?/n.md" "/t.md" = utf8 "/why?/t.md".toList := by decide
  exact ⟨hd, ht, hlinked, by rw [hlinked]; decide⟩

end CopyPaste.Markdown

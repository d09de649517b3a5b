import CopyPaste.Proofs.Json.Strings
import CopyPaste.Snippet

/-!
# Reading snippets back

A snippet that was written is read back as it was, whatever its name, its language and its text
consist of.

* **`readMembers?_writeMember`** — one member of the object, and what follows it;
* **`decode?_encode`** — the whole snippet.
-/

namespace CopyPaste

namespace Json

/-- An object that has a member. -/
theorem readValue?_brace (fuel : Nat) (body : List Char) :
    readValue? (fuel + 1) ('\x7b' :: '"' :: body) =
      (readMembers? fuel ('"' :: body)).map fun result => (.object result.1, result.2) := rfl

theorem skipSpace_writeString (cs rest : List Char) :
    skipSpace (writeString cs ++ rest) = writeString cs ++ rest := rfl

/-- A member that was written, and what follows it. -/
theorem readMembers?_writeMember (name value : String) (rest : List Char) (fuel : Nat) :
    readMembers? (fuel + 2) (Snippet.writeMember name value ++ rest) =
      match skipSpace rest with
      | '\x7d' :: rest => some ([(some name, .string (some value))], rest)
      | ',' :: rest =>
        (readMembers? (fuel + 1) rest).map fun others =>
          ((some name, .string (some value)) :: others.1, others.2)
      | _ => none := by
  have hname := readString?_writeString name.toList (':' :: (writeString value.toList ++ rest))
  have hvalue := readValue?_writeString fuel value.toList rest
  rw [String.ofList_toList] at hname hvalue
  unfold Snippet.writeMember
  rw [List.append_assoc, List.append_assoc, List.singleton_append, readMembers?,
    skipSpace_writeString, hname]
  show (readValue? (fuel + 1) (writeString value.toList ++ rest)).bind _ = _
  rw [hvalue]
  rfl

end Json

namespace Snippet

/-- The members of the object that a snippet is written as. -/
theorem parse?_encode (s : Snippet) : Json.parse? s.encode =
    some (.object [(some "uri", .string (some s.uri)),
      (some "language", .string (some s.language)), (some "text", .string (some s.text))]) := by
  have hwritten : s.encode.toList = '\x7b' :: (writeMember "uri" s.uri ++ ',' ::
      (writeMember "language" s.language ++ ',' :: (writeMember "text" s.text ++ ['\x7d']))) := by
    simp [encode]
  obtain ⟨body, hbody⟩ : ∃ body, writeMember "uri" s.uri ++ ',' ::
      (writeMember "language" s.language ++ ',' :: (writeMember "text" s.text ++ ['\x7d'])) =
        '"' :: body := ⟨_, rfl⟩
  have hmembers : ∀ fuel, Json.readMembers? (fuel + 4) ('"' :: body) =
      some ([(some "uri", .string (some s.uri)), (some "language", .string (some s.language)),
        (some "text", .string (some s.text))], []) := by
    intro fuel
    rw [← hbody, Json.readMembers?_writeMember]
    show (Json.readMembers? (fuel + 3) _).map _ = _
    rw [Json.readMembers?_writeMember]
    show ((Json.readMembers? (fuel + 2) _).map _).map _ = _
    rw [Json.readMembers?_writeMember]
    rfl
  have hvalue : ∀ fuel, Json.readValue? (fuel + 5) ('\x7b' :: '"' :: body) =
      some (.object [(some "uri", .string (some s.uri)),
        (some "language", .string (some s.language)), (some "text", .string (some s.text))], []) :=
    fun fuel => (Json.readValue?_brace (fuel + 4) body).trans (by rw [hmembers]; rfl)
  -- the length of the text gives fuel to spare
  have hfuel : 2 * ('\x7b' :: '"' :: body).length + 2 = 2 * body.length + 1 + 5 := by
    simp only [List.length_cons]
    omega
  unfold Json.parse?
  dsimp only
  rw [hwritten, hbody, hfuel, hvalue]
  rfl

/-- **A snippet is read back as it was written.** -/
theorem decode?_encode (s : Snippet) : decode? s.encode = some s := by
  unfold decode?
  rw [parse?_encode]
  simp [ofJson?, member?]

end Snippet

end CopyPaste

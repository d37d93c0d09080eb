import TestDelegation.Proofs.Text.Trim
import TestDelegation.Response

/-!
What becomes of a response. Main statement: `intoBody_explains`, the body of a success as it is, and
for a failure a message that is never empty and never long. A long message is cut at a byte, which
is always the first one of a character.
-/

namespace TestDelegation

namespace Text

def charOffsets (offset : Nat) : List Char → List Nat
  | [] => []
  | char :: rest => offset :: charOffsets (offset + char.utf8Size) rest

/--
The bytes before the character of this index with an ellipsis, or the whole text if it has no such
character. There is no result if the bytes before the cut are not those of a text.
-/
def shortenAt? (index : Nat) (text : String) : Option String :=
  match (charOffsets 0 text.toList)[index]? with
  | none => some text
  | some offset => (String.fromUTF8? (text.toUTF8.extract 0 offset)).map fun kept => kept ++ "…"

theorem length_charOffsets (offset : Nat) (chars : List Char) :
    (charOffsets offset chars).length = chars.length := by
  induction chars generalizing offset with
  | nil => rfl
  | cons char rest ih => rw [charOffsets, List.length_cons, List.length_cons, ih]

theorem charOffsets_append (offset : Nat) (first rest : List Char) :
    charOffsets offset (first ++ rest) =
      charOffsets offset first ++
        charOffsets (offset + (String.ofList first).utf8ByteSize) rest := by
  induction first generalizing offset with
  | nil => rfl
  | cons char later ih =>
      have size : (String.ofList (char :: later)).utf8ByteSize =
          char.utf8Size + (String.ofList later).utf8ByteSize := by
        rw [String.ofList_cons, String.utf8ByteSize_append, String.utf8ByteSize_singleton]
      rw [List.cons_append, charOffsets, ih, charOffsets, List.cons_append, size, Nat.add_assoc]

theorem fromUTF8?_extract (first rest : String) :
    String.fromUTF8? ((first ++ rest).toUTF8.extract 0 first.utf8ByteSize) = some first := by
  rw [String.toUTF8_eq_toByteArray, String.toByteArray_append,
    ByteArray.extract_append_eq_left String.size_toByteArray.symm]
  exact dif_pos first.isValidUTF8

theorem shortenAt?_of_length_le {index : Nat} {text : String} (short : text.length ≤ index) :
    shortenAt? index text = some text := by
  have none : (charOffsets 0 text.toList)[index]? = none := by
    rw [List.getElem?_eq_none_iff, length_charOffsets, String.length_toList]
    exact short
  rw [shortenAt?, none]

theorem shortenAt?_append (first : String) {rest : String} (cut : rest ≠ "") :
    shortenAt? first.length (first ++ rest) = some (first ++ "…") := by
  obtain ⟨next, later, written⟩ :=
    List.exists_cons_of_ne_nil (String.toList_eq_nil_iff.not.mpr cut)
  have offset : (charOffsets 0 (first ++ rest).toList)[first.length]? =
      some first.utf8ByteSize := by
    rw [String.toList_append, charOffsets_append, ← String.length_toList,
      ← length_charOffsets 0 first.toList, List.getElem?_append_right (Nat.le_refl _),
      Nat.sub_self, written, charOffsets, String.ofList_toList, Nat.zero_add]
    rfl
  rw [shortenAt?, offset]
  simp only [fromUTF8?_extract, Option.map_some]

theorem length_le_or_exists_append (text : String) (limit : Nat) : text.length ≤ limit ∨
    ∃ first rest, text = first ++ rest ∧ first.length = limit ∧ rest ≠ "" := by
  rcases Nat.lt_or_ge limit text.length with long | short
  · refine .inr ⟨.ofList (text.toList.take limit), .ofList (text.toList.drop limit), ?_, ?_, ?_⟩
    · rw [← String.ofList_append, List.take_append_drop, String.ofList_toList]
    · rw [String.length_ofList, List.length_take, String.length_toList]
      omega
    · have left : text.toList.drop limit ≠ [] := by
        rw [ne_eq, List.drop_eq_nil_iff, String.length_toList]
        omega
      exact fun nothing => left (String.ofList_eq_empty_iff.mp nothing)
  · exact .inl short

end Text

theorem truncateMessage_of_length_le {text : String} (short : text.length ≤ messageLimit) :
    truncateMessage text = text := by
  rw [← String.length_toList] at short
  exact if_pos short

theorem truncateMessage_append {first rest : String} (full : first.length = messageLimit)
    (cut : rest ≠ "") : truncateMessage (first ++ rest) = first ++ "…" := by
  have more : 0 < rest.toList.length :=
    List.length_pos_iff.mpr (String.toList_eq_nil_iff.not.mpr cut)
  rw [← String.length_toList] at full
  have long : ¬(first ++ rest).toList.length ≤ messageLimit := by
    rw [String.toList_append, List.length_append]
    omega
  rw [truncateMessage, if_neg long, String.toList_append, List.take_left' full,
    String.ofList_append, String.ofList_toList]

theorem shortenAt?_messageLimit (text : String) :
    Text.shortenAt? messageLimit text = some (truncateMessage text) := by
  obtain short | ⟨first, rest, rfl, full, cut⟩ := Text.length_le_or_exists_append text messageLimit
  · rw [Text.shortenAt?_of_length_le short, truncateMessage_of_length_le short]
  · rw [truncateMessage_append full cut, ← full, Text.shortenAt?_append first cut]

theorem length_truncateMessage_le (text : String) :
    (truncateMessage text).length ≤ messageLimit + 1 := by
  obtain short | ⟨first, rest, rfl, full, cut⟩ := Text.length_le_or_exists_append text messageLimit
  · rw [truncateMessage_of_length_le short]
    omega
  · rw [truncateMessage_append full cut, String.length_append, full]
    exact Nat.le_refl _

theorem truncateMessage_ne_empty {text : String} (filled : text ≠ "") :
    truncateMessage text ≠ "" := by
  obtain short | ⟨first, rest, rfl, full, cut⟩ := Text.length_le_or_exists_append text messageLimit
  · rwa [truncateMessage_of_length_le short]
  · rw [truncateMessage_append full cut]
    simp

theorem truncateMessage_truncateMessage (text : String) :
    truncateMessage (truncateMessage text) = truncateMessage text := by
  obtain short | ⟨first, rest, rfl, full, cut⟩ := Text.length_le_or_exists_append text messageLimit
  · rw [truncateMessage_of_length_le short, truncateMessage_of_length_le short]
  · rw [truncateMessage_append full cut, truncateMessage_append full (by decide)]

theorem canonicalReason?_bounded {status : Nat} {reason : String}
    (found : canonicalReason? status = some reason) :
    reason ≠ "" ∧ reason.length ≤ messageLimit + 1 := by
  have each : ∀ entry ∈ canonicalReasons, entry.2 ≠ "" ∧ entry.2.length ≤ messageLimit + 1 := by
    decide +kernel
  obtain ⟨before, after, split, _⟩ := List.lookup_eq_some_iff.mp found
  have listed : (status, reason) ∈ canonicalReasons := by
    rw [split]
    exact List.mem_append_right _ List.mem_cons_self
  exact each _ listed

namespace Response

/-- The message is the content, its beginning, or for lack of content the reason of the status. -/
structure Explains (response : Response) (content message : String) : Prop where
  filled : message ≠ ""
  bounded : message.length ≤ 1025
  whole : content ≠ "" → content.length ≤ 1024 → message = content
  cut : 1024 < content.length →
    ∃ first rest, content = first ++ rest ∧ first.length = 1024 ∧ message = first ++ "…"
  reason : content = "" → message = (canonicalReason? response.status).getD "unknown status"

variable (response : Response)

theorem statusMessage_of_empty (empty : Text.trim response.body = "") :
    response.statusMessage = (canonicalReason? response.status).getD "unknown status" :=
  if_pos (String.isEmpty_iff.mpr empty)

theorem statusMessage_of_filled (filled : Text.trim response.body ≠ "") :
    response.statusMessage = truncateMessage (Text.trim response.body) :=
  if_neg (String.isEmpty_iff.not.mpr filled)

theorem explains_of_empty (empty : Text.trim response.body = "") :
    response.Explains "" response.statusMessage := by
  rw [response.statusMessage_of_empty empty]
  have sound : (canonicalReason? response.status).getD "unknown status" ≠ "" ∧
      ((canonicalReason? response.status).getD "unknown status").length ≤ 1025 := by
    cases found : canonicalReason? response.status with
    | none => decide
    | some reason => exact canonicalReason?_bounded found
  exact ⟨sound.1, sound.2, fun filled => absurd rfl filled, fun long => absurd long (by decide),
    fun _ => rfl⟩

theorem explains_of_filled (filled : Text.trim response.body ≠ "") :
    response.Explains (Text.trim response.body) response.statusMessage := by
  rw [response.statusMessage_of_filled filled]
  refine ⟨truncateMessage_ne_empty filled, length_truncateMessage_le _,
    fun _ short => truncateMessage_of_length_le short, fun long => ?_,
    fun empty => absurd empty filled⟩
  obtain short | ⟨first, rest, split, full, cut⟩ :=
    Text.length_le_or_exists_append (Text.trim response.body) messageLimit
  · exact absurd short (Nat.not_le_of_lt long)
  · exact ⟨first, rest, split, full, by rw [split, truncateMessage_append full cut]⟩

theorem explains_statusMessage :
    response.Explains (Text.trim response.body) response.statusMessage := by
  by_cases empty : Text.trim response.body = ""
  · rw [empty]
    exact response.explains_of_empty empty
  · exact response.explains_of_filled empty

theorem intoBody_of_success (url : String) (success : response.status < 300) :
    response.intoBody url = .ok response.body := if_pos success

theorem intoBody_of_failure (url : String) (failure : 300 ≤ response.status) :
    response.intoBody url = .error (.status url response.status response.statusMessage) :=
  if_neg (Nat.not_lt_of_le failure)

/--
A success gives its body as it is; a failure gives a message made of what its body has between
blanks. The cut at a byte and the cut after characters are the same, and a second cut changes
nothing.
-/
theorem intoBody_explains (response : Response) (url : String) :
    (response.intoBody url = .ok response.body ↔ response.status < 300) ∧
    (∀ body, response.intoBody url = .ok body → body = response.body) ∧
    (300 ≤ response.status → ∃ content message, Text.TrimsTo response.body content ∧
      response.Explains content message ∧
      response.intoBody url = .error (.status url response.status message)) ∧
    (∀ text, Text.shortenAt? 1024 text = some (truncateMessage text)) ∧
    ∀ text, truncateMessage (truncateMessage text) = truncateMessage text := by
  refine ⟨⟨?_, response.intoBody_of_success url⟩, ?_, ?_, shortenAt?_messageLimit,
    truncateMessage_truncateMessage⟩
  · intro accepted
    refine Nat.lt_of_not_le fun failure => ?_
    rw [response.intoBody_of_failure url failure] at accepted
    cases accepted
  · intro body accepted
    rcases Nat.lt_or_ge response.status 300 with success | failure
    · rw [response.intoBody_of_success url success] at accepted
      exact (Except.ok.inj accepted).symm
    · rw [response.intoBody_of_failure url failure] at accepted
      cases accepted
  · intro failure
    exact ⟨Text.trim response.body, response.statusMessage, Text.trimsTo_trim response.body,
      response.explains_statusMessage, response.intoBody_of_failure url failure⟩

def wideText (count : Nat) : String := String.ofList (List.replicate count '試')

def wideResponse : Response := ⟨404, "\u3000" ++ wideText 1030 ++ "\u3000"⟩

theorem trimsTo_wideText (count : Nat) :
    Text.TrimsTo ("\u3000" ++ wideText count ++ "\u3000") (wideText count) := by
  have shown : ∀ char ∈ (wideText count).toList, Text.isBlank char = false := by
    intro char listed
    rw [wideText, String.toList_ofList] at listed
    rw [List.eq_of_mem_replicate listed]
    decide
  exact ⟨['\u3000'], ['\u3000'], by simp, by decide, by decide, Text.trimmed_of_shown shown⟩

theorem intoBody_explains_wideResponse :
    300 ≤ wideResponse.status ∧ Text.TrimsTo wideResponse.body (wideText 1030) ∧
      1024 < (wideText 1030).length ∧
      wideResponse.intoBody "u" = .error (.status "u" 404 (wideText 1024 ++ "…")) ∧
      (⟨404, "\n"⟩ : Response).intoBody "u" = .error (.status "u" 404 "Not Found") ∧
      (⟨599, ""⟩ : Response).intoBody "u" = .error (.status "u" 599 "unknown status") := by
  have failure : 300 ≤ wideResponse.status := by decide
  have long : 1024 < (wideText 1030).length := by
    rw [wideText, String.length_ofList, List.length_replicate]
    decide
  obtain ⟨_, _, fails, _⟩ := intoBody_explains wideResponse "u"
  obtain ⟨content, message, trims, explains, failed⟩ := fails failure
  have same : content = wideText 1030 :=
    (Text.trim_eq_iff.mpr trims).symm.trans (Text.trim_eq_iff.mpr (trimsTo_wideText 1030))
  rw [same] at explains
  obtain ⟨first, rest, split, full, shortened⟩ := explains.cut long
  have kept : first = wideText 1024 := by
    have front := congrArg (fun text => text.toList.take 1024) split
    rw [← String.length_toList] at full
    simp only [String.toList_append, List.take_left' full] at front
    rw [← String.toList_inj, ← front, wideText, wideText, String.toList_ofList,
      String.toList_ofList, List.take_replicate, Nat.min_eq_left (by decide)]
  refine ⟨failure, trimsTo_wideText 1030, long, ?_, rfl, rfl⟩
  rw [failed, shortened, kept]
  rfl

end Response

end TestDelegation

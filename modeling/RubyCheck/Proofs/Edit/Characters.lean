import RubyCheck.Proofs.Edit.Boundaries
import RubyCheck.Proofs.Text.Utf8

/-!
# Edits at character boundaries are edits of characters

**Between character boundaries, octet offsets and character indices describe the same pieces of
a text: splicing a batch of edits into the octets and cutting a span out of a buffer give what
the same splice and the same cut give on the characters.**

A character boundary of a text is an offset where the encoding of some prefix of its characters
ends; `charIndex` reads the number of those characters back from the offset. The octets between
two boundaries are then the encoding of the characters between the two indices
(`extract_eq_utf8Encode`), and because encoding maps joined lists to joined octets, splicing
replacements between such pieces encodes the splice of the characters (`spliceFrom_eq_utf8Encode`).

* `decodeLossy_utf8Encode`: lossy decoding reads an encoding back like strict decoding does;
* `resolve_splices_characters`: a batch `resolve` accepts whose edits all start and stop at
  character boundaries gives the text spliced at the corresponding character indices, and a
  buffer's slice between two boundaries is the text between the two indices.
-/

namespace RubyCheck.Text

namespace Utf8

/-- **Lossy decoding of an encoding reads the text.** From any position where the rest of the
octets encode `cs`, decoding appends `cs` to what it has read, with no replacement character. -/
theorem decodeLossyFrom_of_encode {bytes : ByteArray} (cs : List Char) {pos : Nat} (acc : String)
    (rest : bytes.extract pos bytes.size = cs.utf8Encode) :
    decodeLossyFrom bytes pos acc = acc ++ String.ofList cs := by
  induction cs generalizing pos acc with
  | nil =>
    rw [List.utf8Encode_nil, ByteArray.extract_eq_empty_iff, Nat.min_self] at rest
    rw [decodeLossyFrom, dif_neg (by omega), String.ofList_nil, String.append_empty]
  | cons c cs ih =>
    rw [List.utf8Encode_cons, List.utf8Encode_singleton] at rest
    have sizes := congrArg ByteArray.size rest
    simp only [ByteArray.size_extract, ByteArray.size_append, List.size_toByteArray,
      String.length_utf8EncodeChar, Nat.min_self] at sizes
    have := c.utf8Size_pos
    have fits : pos + c.utf8Size ≤ bytes.size := by omega
    have inside : pos < bytes.size := by omega
    have window : bytes.extract pos (pos + c.utf8Size) = (String.utf8EncodeChar c).toByteArray := by
      rw [extract_window fits, rest]
      exact ByteArray.extract_append_eq_left (by simp)
    have after : bytes.extract (pos + c.utf8Size) bytes.size = cs.utf8Encode := by
      rw [extract_after, rest]
      exact ByteArray.extract_append_eq_right (by simp) (by simp)
    obtain ⟨content, width⟩ := readAt_of_window inside fits window
    rw [decodeLossyFrom, dif_pos inside]
    simp only [content, width]
    rw [ih (acc.push c) after, push_append_ofList]

theorem decodeLossy_utf8Encode (cs : List Char) : decodeLossy cs.utf8Encode = String.ofList cs := by
  rw [decodeLossy, decodeLossyFrom_of_encode cs "" ByteArray.extract_zero_size,
    String.empty_append]

end Utf8

/-! ### Character indices of boundaries -/

/-- How many characters of `cs` have their encodings within the first `p` octets: at a character
boundary, the index of the character that starts there. -/
def charIndex : List Char → Nat → Nat
  | [], _ => 0
  | c :: rest, p => if c.utf8Size ≤ p then charIndex rest (p - c.utf8Size) + 1 else 0

theorem size_utf8Encode_cons (c : Char) (cs : List Char) :
    (c :: cs).utf8Encode.size = c.utf8Size + cs.utf8Encode.size := by
  rw [List.utf8Encode_cons, ByteArray.size_append, List.utf8Encode_singleton,
    List.size_toByteArray, String.length_utf8EncodeChar]

/-- The index read back from the end of the encoding of the first `i` characters is `i`. -/
theorem charIndex_size_take (cs : List Char) (i : Nat) :
    charIndex cs (cs.take i).utf8Encode.size = min i cs.length := by
  induction cs generalizing i with
  | nil => simp [charIndex]
  | cons c rest ih =>
    cases i with
    | zero =>
      have := c.utf8Size_pos
      simp only [List.take_zero, List.utf8Encode_nil, ByteArray.size_empty, charIndex]
      rw [if_neg (by omega)]
      simp
    | succ i =>
      rw [List.take_succ_cons, size_utf8Encode_cons, charIndex, if_pos (by omega),
        Nat.add_sub_cancel_left, ih, List.length_cons, Nat.succ_min_succ]

@[simp] theorem charIndex_zero (cs : List Char) : charIndex cs 0 = 0 := by
  cases cs with
  | nil => rfl
  | cons c rest =>
    have := c.utf8Size_pos
    rw [charIndex, if_neg (by omega)]

theorem charIndex_mono (cs : List Char) {p q : Nat} (le : p ≤ q) :
    charIndex cs p ≤ charIndex cs q := by
  induction cs generalizing p q with
  | nil => simp [charIndex]
  | cons c rest ih =>
    simp only [charIndex]
    split_ifs with first second second
    · exact Nat.succ_le_succ (ih (by omega))
    · omega
    · omega
    · omega

/-- A character boundary of a text ends the encoding of the characters before its index. -/
theorem eq_size_take_of_isValid {text : String} {p : Nat}
    (boundary : String.Pos.Raw.IsValid text ⟨p⟩) :
    p = (text.toList.take (charIndex text.toList p)).utf8Encode.size ∧
      charIndex text.toList p ≤ text.toList.length := by
  obtain ⟨i, sized⟩ := String.Pos.Raw.isValid_iff_exists_take_toList.1 boundary
  have encoded : p = (text.toList.take i).utf8Encode.size := by
    simpa [← String.size_toByteArray] using sized
  have index := charIndex_size_take text.toList i
  rw [← encoded] at index
  rw [index, ← List.take_eq_take_min]
  exact ⟨encoded, Nat.min_le_right _ _⟩

/-- The octets between the ends of the first `i` and the first `j` characters encode the
characters between the two indices. -/
theorem extract_take_size (cs : List Char) {i j : Nat} (le : i ≤ j) :
    cs.utf8Encode.extract (cs.take i).utf8Encode.size (cs.take j).utf8Encode.size =
      ((cs.drop i).take (j - i)).utf8Encode := by
  have front : cs.take j = cs.take i ++ (cs.drop i).take (j - i) := by
    rw [← List.take_add, Nat.add_sub_cancel' le]
  have whole : cs.utf8Encode = (cs.take i).utf8Encode ++
      (((cs.drop i).take (j - i)).utf8Encode ++ (cs.drop j).utf8Encode) := by
    rw [← List.utf8Encode_append, ← List.utf8Encode_append, ← List.append_assoc, ← front,
      List.take_append_drop]
  have shifted := ByteArray.extract_append_size_add (a := (cs.take i).utf8Encode)
    (b := ((cs.drop i).take (j - i)).utf8Encode ++ (cs.drop j).utf8Encode) (i := 0)
    (j := ((cs.drop i).take (j - i)).utf8Encode.size)
  rw [Nat.add_zero] at shifted
  rw [whole, front, List.utf8Encode_append, ByteArray.size_append, shifted,
    ByteArray.extract_append_eq_left rfl]

/-- **The octets between two character boundaries encode the characters between their
indices.** -/
theorem extract_eq_utf8Encode {text : String} {p q : Nat}
    (first : String.Pos.Raw.IsValid text ⟨p⟩) (second : String.Pos.Raw.IsValid text ⟨q⟩)
    (le : p ≤ q) :
    text.toByteArray.extract p q =
      ((text.toList.drop (charIndex text.toList p)).take
        (charIndex text.toList q - charIndex text.toList p)).utf8Encode := by
  obtain ⟨atP, -⟩ := eq_size_take_of_isValid first
  obtain ⟨atQ, -⟩ := eq_size_take_of_isValid second
  have whole : text.toByteArray = text.toList.utf8Encode := by
    rw [← String.toByteArray_ofList, String.ofList_toList]
  conv_lhs => rw [whole, atP, atQ]
  exact extract_take_size text.toList (charIndex_mono text.toList le)

end RubyCheck.Text

namespace RubyCheck.Lint

open RubyCheck.Source RubyCheck.Text

/-! ### Splicing characters -/

/-- A text with replacements spliced in at character indices, each given by its start, stop and
replacement, in order: the characters from `last` to the first start, its replacement, and so on
from its stop. -/
def spliceChars (cs : List Char) (last : Nat) : List (Nat × Nat × String) → List Char
  | [] => cs.drop last
  | (start, stop, r) :: rest =>
    (cs.drop last).take (start - last) ++ r.toList ++ spliceChars cs stop rest

/-- An edit at the character indices of its offsets. -/
def Edit.atChars (cs : List Char) (e : Edit) : Nat × Nat × String :=
  (charIndex cs e.span.start, charIndex cs e.span.stop, e.replacement)

/-- The end of a text is a character boundary, at the index past its last character. -/
theorem isValid_size (text : String) : String.Pos.Raw.IsValid text ⟨text.toByteArray.size⟩ := by
  simpa [String.rawEndPos] using (String.Pos.Raw.isValid_rawEndPos (s := text))

theorem charIndex_size (text : String) :
    charIndex text.toList text.toByteArray.size = text.toList.length := by
  have whole : text.toByteArray.size = (text.toList.take text.toList.length).utf8Encode.size := by
    rw [List.take_length, ← String.toByteArray_ofList, String.ofList_toList]
  rw [whole, charIndex_size_take, Nat.min_self]

/-- **Splicing at character boundaries encodes the splice of the characters.** From a boundary
`last`, edits in order, each starting no earlier than the one before stops, at boundaries of the
text: the octets spliced in are the encoding of the characters spliced at the same indices. -/
theorem spliceFrom_eq_utf8Encode {text : String} :
    ∀ (o : List Edit) (last : Nat), String.Pos.Raw.IsValid text ⟨last⟩ →
      (∀ e ∈ o, last ≤ e.span.start) → o.Pairwise (fun a b => a.span.stop ≤ b.span.start) →
      (∀ e ∈ o, String.Pos.Raw.IsValid text ⟨e.span.start⟩ ∧
        String.Pos.Raw.IsValid text ⟨e.span.stop⟩) →
      spliceFrom text.toByteArray last o =
        (spliceChars text.toList (charIndex text.toList last)
          (o.map (Edit.atChars text.toList))).utf8Encode
  | [], last, resume, _, _, _ => by
    -- the rest of the text, up to its end
    have within : last ≤ text.toByteArray.size := by
      simpa [String.Pos.Raw.le_iff] using resume.le_rawEndPos
    rw [spliceFrom, extract_eq_utf8Encode resume (isValid_size text) within, charIndex_size,
      List.take_of_length_le (by simp)]
    rfl
  | e :: rest, last, resume, before, ordered, bounded => by
    obtain ⟨start, stop⟩ := bounded e List.mem_cons_self
    have later := spliceFrom_eq_utf8Encode rest e.span.stop stop
      (fun x member => List.rel_of_pairwise_cons ordered member)
      ordered.of_cons (fun x member => bounded x (List.mem_cons_of_mem e member))
    rw [spliceFrom, later, extract_eq_utf8Encode resume start (before e List.mem_cons_self)]
    have replaced : e.replacement.toList.utf8Encode = e.replacement.toUTF8 := by
      rw [← String.toByteArray_ofList, String.ofList_toList]
      rfl
    simp only [List.map_cons, Edit.atChars, spliceChars, List.utf8Encode_append, replaced]

/-- The text of a span whose ends are character boundaries is the text between their indices. -/
theorem Buffer.slice_ofText {text : String} (name : String) {r : Span}
    (first : String.Pos.Raw.IsValid text ⟨r.start⟩)
    (second : String.Pos.Raw.IsValid text ⟨r.stop⟩) :
    (Buffer.ofText text name).slice r =
      String.ofList ((text.toList.drop (charIndex text.toList r.start)).take
        (charIndex text.toList r.stop - charIndex text.toList r.start)) := by
  rw [Buffer.slice, Buffer.octets]
  simp only [Buffer.ofText, String.toUTF8_eq_toByteArray]
  rw [extract_eq_utf8Encode first second r.ordered, Text.Utf8.decodeLossy_utf8Encode]

/-- **Edits at character boundaries are edits of characters.** A batch within a text, no two of
whose edits overlap and each of which starts and stops at a character boundary, resolves without
a decoding error to the text spliced at the corresponding character indices, the edits taken in
their stable order `o`; and the text a buffer gives for a span between two boundaries is the text
between their character indices. -/
theorem resolve_splices_characters {text : String} {edits o : List Edit}
    (inside : ∀ e ∈ edits, e.span.stop ≤ text.toByteArray.size)
    (apart : edits.Pairwise Edit.Apart)
    (bounded : ∀ e ∈ edits, String.Pos.Raw.IsValid text ⟨e.span.start⟩ ∧
      String.Pos.Raw.IsValid text ⟨e.span.stop⟩)
    (order : StableOrder edits o) :
    resolve text.toByteArray edits =
      .ok (String.ofList (spliceChars text.toList 0 (o.map (Edit.atChars text.toList)))) ∧
    ∀ (name : String) (r : Span), String.Pos.Raw.IsValid text ⟨r.start⟩ →
      String.Pos.Raw.IsValid text ⟨r.stop⟩ →
      (Buffer.ofText text name).slice r =
        String.ofList ((text.toList.drop (charIndex text.toList r.start)).take
          (charIndex text.toList r.stop - charIndex text.toList r.start)) := by
  refine ⟨?_, fun name _ first second => Buffer.slice_ofText name first second⟩
  have laid := order.laid inside apart
  -- the octets spliced in stable order encode the characters spliced at the same indices
  have spliced : splice text.toByteArray o =
      (spliceChars text.toList 0 (o.map (Edit.atChars text.toList))).utf8Encode := by
    rw [splice_eq_spliceFrom, spliceFrom_eq_utf8Encode o 0 String.Pos.Raw.isValid_zero
      (fun _ _ => Nat.zero_le _) laid.ordered
      (fun e member => bounded e (order.perm.mem_iff.1 member)), charIndex_zero]
  rw [resolve_eq_of_apart inside apart order, applyFromEnd_eq_splice laid, spliced,
    (Text.Utf8.decode?_eq_ok_iff).2 String.toByteArray_ofList]
  rfl

/-- An edit that replaces the two-octet `é` of `aé`, at character index 1. -/
theorem resolve_splices_characters_accent :
    let e : Edit := ⟨⟨1, 3, Nat.le_add_right 1 2⟩, "e"⟩
    (∀ x ∈ [e], x.span.stop ≤ "aé".toByteArray.size) ∧ [e].Pairwise Edit.Apart ∧
    (∀ x ∈ [e], String.Pos.Raw.IsValid "aé" ⟨x.span.start⟩ ∧
      String.Pos.Raw.IsValid "aé" ⟨x.span.stop⟩) ∧ StableOrder [e] [e] ∧
    resolve "aé".toByteArray [e] =
      .ok (String.ofList (spliceChars "aé".toList 0 ([e].map (Edit.atChars "aé".toList)))) ∧
    ∀ (name : String) (r : Span), String.Pos.Raw.IsValid "aé" ⟨r.start⟩ →
      String.Pos.Raw.IsValid "aé" ⟨r.stop⟩ →
      (Buffer.ofText "aé" name).slice r =
        String.ofList (("aé".toList.drop (charIndex "aé".toList r.start)).take
          (charIndex "aé".toList r.stop - charIndex "aé".toList r.start)) := by
  intro e
  have inside : ∀ x ∈ [e], x.span.stop ≤ "aé".toByteArray.size := by decide
  have apart : [e].Pairwise Edit.Apart := by simp
  have bounded : ∀ x ∈ [e], String.Pos.Raw.IsValid "aé" ⟨x.span.start⟩ ∧
      String.Pos.Raw.IsValid "aé" ⟨x.span.stop⟩ := by decide
  have order : StableOrder [e] [e] := by
    have sorted := stableOrder_mergeSort [e]
    rwa [show List.mergeSort [e] Edit.before = [e] by cbv] at sorted
  exact ⟨inside, apart, bounded, order, resolve_splices_characters inside apart bounded order⟩

end RubyCheck.Lint

import RubyCheck.Proofs.Edit.Resolve
import Mathlib

/-!
# Edits at character boundaries

**A batch of edits within a text, no two of which overlap and each of which starts and stops
where a character starts or the text ends, resolves to a text.**

The octets between two character boundaries of a text encode characters of their own, and so do
the replacements, so splicing the replacements between such pieces gives valid UTF-8
(`spliceFrom_isValidUTF8`). Of the three ways `resolve` can refuse a batch, reaching past the
text and overlapping are excluded by hypothesis and the third, undecodable octets, cannot happen
(`resolve_ok_of_boundaries`).
-/

namespace RubyCheck.Lint

open RubyCheck.Source

/-- The octets of a text between two of its character boundaries are valid UTF-8. -/
theorem isValidUTF8_extract_of_isValid {text : String} {p q : Nat}
    (first : String.Pos.Raw.IsValid text ⟨p⟩) (second : String.Pos.Raw.IsValid text ⟨q⟩) :
    (text.toByteArray.extract p q).IsValidUTF8 := by
  have piece := (String.extract (⟨⟨p⟩, first⟩ : text.Pos) ⟨⟨q⟩, second⟩).isValidUTF8
  rwa [String.toByteArray_extract] at piece

section Splice

variable {text : String}

/-- Splicing replacements into a text at character boundaries gives valid UTF-8. -/
theorem spliceFrom_isValidUTF8 :
    ∀ (o : List Edit) (last : Nat), String.Pos.Raw.IsValid text ⟨last⟩ →
      (∀ e ∈ o, String.Pos.Raw.IsValid text ⟨e.span.start⟩ ∧
        String.Pos.Raw.IsValid text ⟨e.span.stop⟩) →
      (spliceFrom text.toByteArray last o).IsValidUTF8
  | [], last, resume, _ => by
    -- the rest of the text, up to its end
    have whole : String.Pos.Raw.IsValid text ⟨text.toByteArray.size⟩ := by
      simpa [String.rawEndPos] using (String.Pos.Raw.isValid_rawEndPos (s := text))
    exact isValidUTF8_extract_of_isValid resume whole
  | e :: rest, last, resume, bounded => by
    obtain ⟨start, stop⟩ := bounded e List.mem_cons_self
    have later := spliceFrom_isValidUTF8 rest e.span.stop stop
      fun x member => bounded x (List.mem_cons_of_mem e member)
    exact ((isValidUTF8_extract_of_isValid resume start).append e.replacement.isValidUTF8).append
      later

end Splice

/-- **A batch within a text whose edits are apart and at character boundaries resolves.** -/
theorem resolve_ok_of_boundaries {text : String} {edits : List Edit}
    (inside : ∀ e ∈ edits, e.span.stop ≤ text.toByteArray.size)
    (apart : edits.Pairwise Edit.Apart)
    (bounded : ∀ e ∈ edits, String.Pos.Raw.IsValid text ⟨e.span.start⟩ ∧
      String.Pos.Raw.IsValid text ⟨e.span.stop⟩) :
    ∃ fixed, resolve text.toByteArray edits = .ok fixed := by
  have found : firstConflict (edits.mergeSort Edit.before) = none :=
    (pairwise_apart_iff_firstConflict_eq_none edits).1 apart
  have sorted : ∀ e ∈ edits.mergeSort Edit.before, String.Pos.Raw.IsValid text ⟨e.span.start⟩ ∧
      String.Pos.Raw.IsValid text ⟨e.span.stop⟩ :=
    fun e member => bounded e ((List.mergeSort_perm edits _).mem_iff.1 member)
  -- the spliced octets encode some characters, and decode to them
  obtain ⟨cs, encoded⟩ := spliceFrom_isValidUTF8 _ 0 String.Pos.Raw.isValid_zero sorted
  refine ⟨String.ofList cs, ?_⟩
  rw [resolve_of_firstConflict_eq_none inside found, splice_eq_spliceFrom, encoded,
    (Text.Utf8.decode?_eq_ok_iff).2 String.toByteArray_ofList]
  rfl

end RubyCheck.Lint

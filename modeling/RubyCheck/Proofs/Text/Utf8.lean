import RubyCheck.Text.Utf8
import Mathlib

/-!
# Strict decoding inverts UTF-8

**`decode?` accepts exactly the UTF-8 encodings of texts, and gives back the text.**

Lean writes a character as one to four octets (`String.utf8EncodeChar`), and a text as the
octets of its characters in order; octets are valid UTF-8 when some text is written so.

* `readAt_of_window`, `window_of_readAt`: the decoder reads a character `c` at a position
  exactly when the octets there are the encoding of `c`. The lead octet fixes how many
  continuation octets follow and the range of the first (`owed`); the ranges are those that
  leave out overlong forms, surrogates and values past U+10FFFF, so every value read back is a
  scalar whose encoding is the octets read.
* `decode?_eq_ok_iff`: strict decoding gives the text `t` exactly when the octets are `t`'s
  UTF-8 encoding; `decode?_isError_iff`: it fails exactly on octets that are not valid UTF-8.
-/

namespace RubyCheck.Text.Utf8

/-! ### Windows of octets -/

/-- Octets read one at a time from `pos` make the window of `bytes` at `pos`. -/
theorem extract_eq_of_getElem? {bytes : ByteArray} {pos : Nat} {l : List UInt8}
    (octets : ∀ k, k < l.length → bytes[pos + k]? = l[k]?) :
    bytes.extract pos (pos + l.length) = l.toByteArray := by
  cases l with
  | nil => simp
  | cons x rest => ?_
  have fits : pos + (x :: rest).length ≤ bytes.size := by
    have last := octets rest.length (by simp)
    rw [List.getElem?_eq_getElem (by simp)] at last
    have := of_getElem?_eq_some last
    simp only [List.length_cons]
    omega
  apply ByteArray.ext_getElem
  · simp only [ByteArray.size_extract, List.size_toByteArray]
    omega
  · intro i inside inside'
    rw [ByteArray.getElem_extract, List.getElem_toByteArray]
    have read := octets i (by simpa using inside')
    rw [getElem?_pos bytes (pos + i) (ByteArray.getElem_extract_aux inside),
      List.getElem?_eq_getElem (by simpa using inside')] at read
    exact Option.some.inj read

/-- The window of `bytes` at `pos`, read one octet at a time. -/
theorem getElem?_of_extract_eq {bytes : ByteArray} {pos : Nat} {l : List UInt8}
    (fits : pos + l.length ≤ bytes.size)
    (window : bytes.extract pos (pos + l.length) = l.toByteArray) (k : Nat)
    (inside : k < l.length) : bytes[pos + k]? = l[k]? := by
  have left : (bytes.extract pos (pos + l.length))[k]? = some bytes[pos + k] := by
    rw [getElem?_pos _ k (by simp; omega), ByteArray.getElem_extract]
  have right : l.toByteArray[k]? = some l[k] := by
    rw [getElem?_pos _ k (by simpa using inside), List.getElem_toByteArray]
  rw [window] at left
  rw [getElem?_pos bytes (pos + k) (by omega), List.getElem?_eq_getElem inside]
  exact left.symm.trans right

/-! ### The encoding of one character -/

theorem toNat_ofNat_of_isValidChar {n : Nat} (valid : n.isValidChar) :
    (Char.ofNat n).toNat = n := by
  simp [Char.ofNat, valid, Char.ofNatAux, Char.toNat]

/-- A scalar value below U+0080 is one octet, itself. -/
theorem encode_one {c : Char} (small : c.toNat ≤ 0x7F) :
    c.utf8Size = 1 ∧ String.utf8EncodeChar c = [UInt8.ofNat c.toNat] := by
  simp only [Char.utf8Size, String.utf8EncodeChar, UInt32.le_iff_toNat_le, UInt32.toNat_ofNatLT,
    Char.toNat_val]
  exact ⟨if_pos small, if_pos small⟩

/-- A scalar value from U+0080 to U+07FF is two octets: five bits after `110`, six after `10`. -/
theorem encode_two {c : Char} (lo : 0x7F < c.toNat) (hi : c.toNat ≤ 0x7FF) :
    c.utf8Size = 2 ∧ String.utf8EncodeChar c =
      [UInt8.ofNat (c.toNat / 64 % 32 + 0xC0), UInt8.ofNat (c.toNat % 64 + 0x80)] := by
  simp only [Char.utf8Size, String.utf8EncodeChar, UInt32.le_iff_toNat_le, UInt32.toNat_ofNatLT,
    Char.toNat_val]
  exact ⟨by rw [if_neg (by omega), if_pos hi], by rw [if_neg (by omega), if_pos hi]⟩

/-- A scalar value from U+0800 to U+FFFF is three octets. -/
theorem encode_three {c : Char} (lo : 0x7FF < c.toNat) (hi : c.toNat ≤ 0xFFFF) :
    c.utf8Size = 3 ∧ String.utf8EncodeChar c =
      [UInt8.ofNat (c.toNat / 4096 % 16 + 0xE0), UInt8.ofNat (c.toNat / 64 % 64 + 0x80),
        UInt8.ofNat (c.toNat % 64 + 0x80)] := by
  simp only [Char.utf8Size, String.utf8EncodeChar, UInt32.le_iff_toNat_le, UInt32.toNat_ofNatLT,
    Char.toNat_val]
  exact ⟨by rw [if_neg (by omega), if_neg (by omega), if_pos hi],
    by rw [if_neg (by omega), if_neg (by omega), if_pos hi]⟩

/-- A scalar value from U+10000 on is four octets. -/
theorem encode_four {c : Char} (lo : 0xFFFF < c.toNat) :
    c.utf8Size = 4 ∧ String.utf8EncodeChar c =
      [UInt8.ofNat (c.toNat / 262144 % 8 + 0xF0), UInt8.ofNat (c.toNat / 4096 % 64 + 0x80),
        UInt8.ofNat (c.toNat / 64 % 64 + 0x80), UInt8.ofNat (c.toNat % 64 + 0x80)] := by
  simp only [Char.utf8Size, String.utf8EncodeChar, UInt32.le_iff_toNat_le, UInt32.toNat_ofNatLT,
    Char.toNat_val]
  exact ⟨by rw [if_neg (by omega), if_neg (by omega), if_neg (by omega)],
    by rw [if_neg (by omega), if_neg (by omega), if_neg (by omega)]⟩

/-! ### What a lead octet owes -/

theorem owed_none {x : UInt8} (outside : x.toNat < 0xC2 ∨ 0xF4 < x.toNat) : owed x = none := by
  simp only [owed, UInt8.lt_iff_toNat_lt, UInt8.le_iff_toNat_le, ← UInt8.toNat_inj,
    UInt8.reduceToNat]
  simp (disch := omega) only [if_neg, ite_self]

theorem owed_two {x : UInt8} (lo : 0xC2 ≤ x.toNat) (hi : x.toNat ≤ 0xDF) :
    owed x = some (1, 0x80, 0xBF) := by
  simp only [owed, UInt8.lt_iff_toNat_lt, UInt8.le_iff_toNat_le, ← UInt8.toNat_inj,
    UInt8.reduceToNat]
  rw [if_neg (by omega), if_pos hi]

/-- After `E0` the next octet is at least `A0` (no overlong form); after `ED` at most `9F` (no
surrogate). -/
theorem owed_three {x : UInt8} (lo : 0xE0 ≤ x.toNat) (hi : x.toNat ≤ 0xEF) :
    owed x = some (2, if x.toNat = 0xE0 then 0xA0 else 0x80,
      if x.toNat = 0xED then 0x9F else 0xBF) := by
  simp only [owed, UInt8.lt_iff_toNat_lt, UInt8.le_iff_toNat_le, ← UInt8.toNat_inj,
    UInt8.reduceToNat]
  rcases (by omega : x.toNat = 0xE0 ∨ x.toNat ≤ 0xEC ∧ x.toNat ≠ 0xE0 ∨ x.toNat = 0xED ∨
    0xEE ≤ x.toNat) with lead | lead | lead | lead <;>
    simp (disch := omega) only [if_pos, if_neg]

/-- After `F0` the next octet is at least `90` (no overlong form); after `F4` at most `8F`
(nothing past U+10FFFF). -/
theorem owed_four {x : UInt8} (lo : 0xF0 ≤ x.toNat) (hi : x.toNat ≤ 0xF4) :
    owed x = some (3, if x.toNat = 0xF0 then 0x90 else 0x80,
      if x.toNat = 0xF4 then 0x8F else 0xBF) := by
  simp only [owed, UInt8.lt_iff_toNat_lt, UInt8.le_iff_toNat_le, ← UInt8.toNat_inj,
    UInt8.reduceToNat]
  rcases (by omega : x.toNat = 0xF0 ∨ x.toNat ≤ 0xF3 ∧ x.toNat ≠ 0xF0 ∨ x.toNat = 0xF4) with
    lead | lead | lead <;>
    simp (disch := omega) only [if_pos, if_neg]

/-- A lead octet that owes continuation octets owes one, two or three of them, in these ranges. -/
theorem owed_cases {x : UInt8} {count : Nat} {low high : UInt8}
    (owes : owed x = some (count, low, high)) :
    0xC2 ≤ x.toNat ∧ x.toNat ≤ 0xDF ∧ count = 1 ∧ low = 0x80 ∧ high = 0xBF ∨
    0xE0 ≤ x.toNat ∧ x.toNat ≤ 0xEF ∧ count = 2 ∧
      low = (if x.toNat = 0xE0 then 0xA0 else 0x80) ∧ high = (if x.toNat = 0xED then 0x9F else 0xBF) ∨
    0xF0 ≤ x.toNat ∧ x.toNat ≤ 0xF4 ∧ count = 3 ∧
      low = (if x.toNat = 0xF0 then 0x90 else 0x80) ∧ high = (if x.toNat = 0xF4 then 0x8F else 0xBF) := by
  have := x.toNat_lt
  by_cases two : 0xC2 ≤ x.toNat ∧ x.toNat ≤ 0xDF
  · rw [owed_two two.1 two.2] at owes
    cases owes
    exact Or.inl ⟨two.1, two.2, rfl, rfl, rfl⟩
  by_cases three : 0xE0 ≤ x.toNat ∧ x.toNat ≤ 0xEF
  · rw [owed_three three.1 three.2] at owes
    cases owes
    exact Or.inr (Or.inl ⟨three.1, three.2, rfl, rfl, rfl⟩)
  by_cases four : 0xF0 ≤ x.toNat ∧ x.toNat ≤ 0xF4
  · rw [owed_four four.1 four.2] at owes
    cases owes
    exact Or.inr (Or.inr ⟨four.1, four.2, rfl, rfl, rfl⟩)
  rw [owed_none (by omega)] at owes
  cases owes

/-! ### Reading continuation octets -/

theorem readTails_succ_of {bytes : ByteArray} {p : Nat} {low high y : UInt8} {count : Nat}
    (at_ : bytes[p]? = some y) (inRange : low ≤ y ∧ y ≤ high) :
    readTails bytes p low high (count + 1) =
      ((readTails bytes (p + 1) 0x80 0xBF count).1 + 1,
        (readTails bytes (p + 1) 0x80 0xBF count).2) := by
  simp only [readTails, at_, if_pos inRange]

/-- Reading `count + 1` continuation octets to the end reads the first in range, then the rest. -/
theorem readTails_succ_eq {bytes : ByteArray} {p : Nat} {low high : UInt8} {count : Nat}
    (done : (readTails bytes p low high (count + 1)).2 = none) :
    ∃ y, bytes[p]? = some y ∧ (low ≤ y ∧ y ≤ high) ∧
      (readTails bytes (p + 1) 0x80 0xBF count).2 = none := by
  unfold readTails at done
  split at done
  · cases done
  · rename_i y at_
    split at done
    · rename_i inRange
      exact ⟨y, at_, inRange, done⟩
    · cases done

/-! ### Reading one character -/

/-- **What one step of decoding can read**: an ASCII octet as itself, or a lead octet, the
continuation octets it owes, all in range, as the value they assemble. -/
theorem readAt_content_char {bytes : ByteArray} {pos : Nat} {h : pos < bytes.size} {c : Char}
    (reads : (readAt bytes pos h).content = .char c) :
    bytes[pos].toNat < 0x80 ∧ c = Char.ofNat bytes[pos].toNat ∧ (readAt bytes pos h).width = 1 ∨
    ∃ count low high, 0x80 ≤ bytes[pos].toNat ∧ owed bytes[pos] = some (count, low, high) ∧
      (readTails bytes (pos + 1) low high count).2 = none ∧
      c = Char.ofNat (codePoint bytes pos (count + 1)) ∧ (readAt bytes pos h).width = count + 1 := by
  by_cases ascii : bytes[pos] < 0x80
  · simp only [readAt, if_pos ascii, Content.char.injEq] at reads ⊢
    exact Or.inl ⟨UInt8.lt_iff_toNat_lt.1 ascii, reads.symm, trivial⟩
  have lead : 0x80 ≤ bytes[pos].toNat := by
    rw [UInt8.lt_iff_toNat_lt] at ascii
    simp only [UInt8.reduceToNat] at ascii
    omega
  cases owes : owed bytes[pos] with
  | none => simp only [readAt, if_neg ascii, owes, reduceCtorEq] at reads
  | some owing =>
    obtain ⟨count, low, high⟩ := owing
    cases tails : readTails bytes (pos + 1) low high count with
    | mk read stop =>
      cases stop with
      | some reason => simp only [readAt, if_neg ascii, owes, tails, reduceCtorEq] at reads
      | none =>
        simp only [readAt, if_neg ascii, owes, tails, Content.char.injEq] at reads ⊢
        exact Or.inr ⟨count, low, high, lead, rfl, by rw [tails], reads.symm, rfl⟩

theorem readAt_of_tails {bytes : ByteArray} {pos : Nat} {h : pos < bytes.size} {count : Nat}
    {low high : UInt8} (lead : 0x80 ≤ bytes[pos].toNat)
    (owes : owed bytes[pos] = some (count, low, high))
    (tails : (readTails bytes (pos + 1) low high count).2 = none) :
    (readAt bytes pos h).content = .char (Char.ofNat (codePoint bytes pos (count + 1))) ∧
      (readAt bytes pos h).width = count + 1 := by
  have notAscii : ¬ bytes[pos] < 0x80 := by
    rw [UInt8.lt_iff_toNat_lt]
    simp only [UInt8.reduceToNat]
    omega
  unfold readAt
  simp only [if_neg notAscii, owes]
  split
  · exact ⟨rfl, rfl⟩
  · rename_i read reason stopped
    rw [stopped] at tails
    cases tails

/-! ### Continuation octets in range -/

/-- A continuation octet: `80` to `BF`. -/
def Tail (y : UInt8) : Prop := 0x80 ≤ y.toNat ∧ y.toNat ≤ 0xBF

/-- The first continuation octet after the lead `x`: a continuation octet, at least `A0` after
`E0` and `90` after `F0` (no overlong form), at most `9F` after `ED` (no surrogate) and `8F`
after `F4` (nothing past U+10FFFF). -/
def FirstTail (x y : UInt8) : Prop :=
  Tail y ∧ (x.toNat = 0xE0 → 0xA0 ≤ y.toNat) ∧ (x.toNat = 0xED → y.toNat ≤ 0x9F) ∧
    (x.toNat = 0xF0 → 0x90 ≤ y.toNat) ∧ (x.toNat = 0xF4 → y.toNat ≤ 0x8F)

theorem tail_iff {y : UInt8} : (0x80 ≤ y ∧ y ≤ 0xBF) ↔ Tail y := by
  simp only [Tail, UInt8.le_iff_toNat_le, UInt8.reduceToNat]

/-- The range `owed` gives the first continuation octet is `FirstTail`. -/
theorem inRange_iff_of_owed {x y low high : UInt8} {count : Nat}
    (owes : owed x = some (count, low, high)) : (low ≤ y ∧ y ≤ high) ↔ FirstTail x y := by
  simp only [FirstTail, Tail, UInt8.le_iff_toNat_le]
  rcases owed_cases owes with ⟨lo, hi, -, rfl, rfl⟩ | ⟨lo, hi, -, rfl, rfl⟩ |
    ⟨lo, hi, -, rfl, rfl⟩
  · simp only [UInt8.reduceToNat]
    omega
  · by_cases e0 : x.toNat = 0xE0
    · rw [if_pos e0, if_neg (by omega)]
      simp only [UInt8.reduceToNat]
      omega
    · by_cases ed : x.toNat = 0xED
      · rw [if_neg e0, if_pos ed]
        simp only [UInt8.reduceToNat]
        omega
      · rw [if_neg e0, if_neg ed]
        simp only [UInt8.reduceToNat]
        omega
  · by_cases f0 : x.toNat = 0xF0
    · rw [if_pos f0, if_neg (by omega)]
      simp only [UInt8.reduceToNat]
      omega
    · by_cases f4 : x.toNat = 0xF4
      · rw [if_neg f0, if_pos f4]
        simp only [UInt8.reduceToNat]
        omega
      · rw [if_neg f0, if_neg f4]
        simp only [UInt8.reduceToNat]
        omega

theorem codePoint_two {bytes : ByteArray} {pos : Nat} {y0 y1 : UInt8}
    (at0 : bytes[pos]? = some y0) (at1 : bytes[pos + 1]? = some y1) :
    codePoint bytes pos 2 = y0.toNat % 32 * 64 + y1.toNat % 64 := by
  simp [codePoint, at0, at1]

theorem codePoint_three {bytes : ByteArray} {pos : Nat} {y0 y1 y2 : UInt8}
    (at0 : bytes[pos]? = some y0) (at1 : bytes[pos + 1]? = some y1)
    (at2 : bytes[pos + 2]? = some y2) :
    codePoint bytes pos 3 = y0.toNat % 16 * 4096 + y1.toNat % 64 * 64 + y2.toNat % 64 := by
  simp [codePoint, at0, at1, at2]

theorem codePoint_four {bytes : ByteArray} {pos : Nat} {y0 y1 y2 y3 : UInt8}
    (at0 : bytes[pos]? = some y0) (at1 : bytes[pos + 1]? = some y1)
    (at2 : bytes[pos + 2]? = some y2) (at3 : bytes[pos + 3]? = some y3) :
    codePoint bytes pos 4 =
      y0.toNat % 8 * 262144 + y1.toNat % 64 * 4096 + y2.toNat % 64 * 64 + y3.toNat % 64 := by
  simp [codePoint, at0, at1, at2, at3]

/-! ### Assembled values are scalars, encoded by the octets they came from -/

/-- An ASCII octet is the encoding of itself. -/
theorem encode_of_one {c : Char} {y0 : UInt8} (ascii : y0.toNat < 0x80)
    (code : c = Char.ofNat y0.toNat) : c.utf8Size = 1 ∧ String.utf8EncodeChar c = [y0] := by
  have value : c.toNat = y0.toNat := by
    rw [code, toNat_ofNat_of_isValidChar (Or.inl (by omega))]
  obtain ⟨size, encode⟩ := encode_one (c := c) (by omega)
  refine ⟨size, ?_⟩
  rw [encode, value, UInt8.ofNat_toNat]

/-- A lead octet from `C2` to `DF` and a continuation octet assemble a value from U+0080 to
U+07FF, which they encode. -/
theorem encode_of_two {c : Char} {y0 y1 : UInt8} (lead : 0xC2 ≤ y0.toNat ∧ y0.toNat ≤ 0xDF)
    (tail : Tail y1) (code : c = Char.ofNat (y0.toNat % 32 * 64 + y1.toNat % 64)) :
    c.utf8Size = 2 ∧ String.utf8EncodeChar c = [y0, y1] := by
  unfold Tail at tail
  have value : c.toNat = y0.toNat % 32 * 64 + y1.toNat % 64 := by
    rw [code, toNat_ofNat_of_isValidChar (Or.inl (by omega))]
  obtain ⟨size, encode⟩ := encode_two (c := c) (by omega) (by omega)
  refine ⟨size, ?_⟩
  simp only [encode, List.cons.injEq, and_true, ← UInt8.toNat_inj, UInt8.toNat_ofNat']
  omega

/-- A lead octet from `E0` to `EF` and two continuation octets in range assemble a scalar
value from U+0800 to U+FFFF, which they encode. -/
theorem encode_of_three {c : Char} {y0 y1 y2 : UInt8} (lead : 0xE0 ≤ y0.toNat ∧ y0.toNat ≤ 0xEF)
    (first : FirstTail y0 y1) (tail : Tail y2)
    (code : c = Char.ofNat (y0.toNat % 16 * 4096 + y1.toNat % 64 * 64 + y2.toNat % 64)) :
    c.utf8Size = 3 ∧ String.utf8EncodeChar c = [y0, y1, y2] := by
  unfold FirstTail Tail at first
  unfold Tail at tail
  -- `E0` rules out the overlong forms below U+0800, `ED` the surrogates
  have value : c.toNat = y0.toNat % 16 * 4096 + y1.toNat % 64 * 64 + y2.toNat % 64 := by
    rw [code, toNat_ofNat_of_isValidChar (by simp only [Nat.isValidChar]; omega)]
  obtain ⟨size, encode⟩ := encode_three (c := c) (by omega) (by omega)
  refine ⟨size, ?_⟩
  simp only [encode, List.cons.injEq, and_true, ← UInt8.toNat_inj, UInt8.toNat_ofNat']
  omega

/-- A lead octet from `F0` to `F4` and three continuation octets in range assemble a scalar
value from U+10000 to U+10FFFF, which they encode. -/
theorem encode_of_four {c : Char} {y0 y1 y2 y3 : UInt8}
    (lead : 0xF0 ≤ y0.toNat ∧ y0.toNat ≤ 0xF4) (first : FirstTail y0 y1) (second : Tail y2)
    (third : Tail y3)
    (code : c = Char.ofNat (y0.toNat % 8 * 262144 + y1.toNat % 64 * 4096 + y2.toNat % 64 * 64 +
      y3.toNat % 64)) :
    c.utf8Size = 4 ∧ String.utf8EncodeChar c = [y0, y1, y2, y3] := by
  unfold FirstTail Tail at first
  unfold Tail at second third
  -- `F0` rules out the overlong forms below U+10000, `F4` the values past U+10FFFF
  have value : c.toNat =
      y0.toNat % 8 * 262144 + y1.toNat % 64 * 4096 + y2.toNat % 64 * 64 + y3.toNat % 64 := by
    rw [code, toNat_ofNat_of_isValidChar (by simp only [Nat.isValidChar]; omega)]
  obtain ⟨size, encode⟩ := encode_four (c := c) (by omega)
  refine ⟨size, ?_⟩
  simp only [encode, List.cons.injEq, and_true, ← UInt8.toNat_inj, UInt8.toNat_ofNat']
  omega

/-! ### One character -/

/-- **The decoder reads back the characters it finds.** A character read at `pos` is one whose
encoding stands at `pos`, and the step is as wide as that encoding. -/
theorem window_of_readAt {bytes : ByteArray} {pos : Nat} {h : pos < bytes.size} {c : Char}
    (reads : (readAt bytes pos h).content = .char c) :
    (readAt bytes pos h).width = c.utf8Size ∧ pos + c.utf8Size ≤ bytes.size ∧
      bytes.extract pos (pos + c.utf8Size) = (String.utf8EncodeChar c).toByteArray := by
  have at0 : bytes[pos]? = some bytes[pos] := getElem?_pos bytes pos h
  -- the octets read, and the encoding they are; the window follows from both
  suffices octets : ∃ ys : List UInt8, (∀ k, k < ys.length → bytes[pos + k]? = ys[k]?) ∧
      (readAt bytes pos h).width = ys.length ∧ c.utf8Size = ys.length ∧
      String.utf8EncodeChar c = ys by
    obtain ⟨ys, read, width, size, encode⟩ := octets
    have window := extract_eq_of_getElem? read
    have fits : pos + ys.length ≤ bytes.size := by
      have := congrArg ByteArray.size window
      simp only [ByteArray.size_extract, List.size_toByteArray] at this
      omega
    rw [width, size, encode]
    exact ⟨rfl, fits, window⟩
  rcases readAt_content_char reads with ⟨ascii, code, width⟩ |
    ⟨count, low, high, lead, owes, tails, code, width⟩
  · obtain ⟨size, encode⟩ := encode_of_one ascii code
    refine ⟨[bytes[pos]], fun k inside => ?_, width, size, encode⟩
    simp only [List.length_singleton, Nat.lt_one_iff] at inside
    subst inside
    exact at0
  rcases owed_cases owes with ⟨lo, hi, rfl, -, -⟩ | ⟨lo, hi, rfl, -, -⟩ | ⟨lo, hi, rfl, -, -⟩
  · obtain ⟨y1, at1, r1, -⟩ := readTails_succ_eq tails
    rw [codePoint_two at0 at1] at code
    obtain ⟨size, encode⟩ := encode_of_two ⟨lo, hi⟩ ((inRange_iff_of_owed owes).1 r1).1 code
    refine ⟨[bytes[pos], y1], fun k inside => ?_, width, size, encode⟩
    match k, inside with
    | 0, _ => exact at0
    | 1, _ => exact at1
  · obtain ⟨y1, at1, r1, more⟩ := readTails_succ_eq tails
    obtain ⟨y2, at2, r2, -⟩ := readTails_succ_eq more
    rw [codePoint_three at0 at1 at2] at code
    obtain ⟨size, encode⟩ := encode_of_three ⟨lo, hi⟩ ((inRange_iff_of_owed owes).1 r1)
      (tail_iff.1 r2) code
    refine ⟨[bytes[pos], y1, y2], fun k inside => ?_, width, size, encode⟩
    match k, inside with
    | 0, _ => exact at0
    | 1, _ => exact at1
    | 2, _ => exact at2
  · obtain ⟨y1, at1, r1, more⟩ := readTails_succ_eq tails
    obtain ⟨y2, at2, r2, more⟩ := readTails_succ_eq more
    obtain ⟨y3, at3, r3, -⟩ := readTails_succ_eq more
    rw [codePoint_four at0 at1 at2 at3] at code
    obtain ⟨size, encode⟩ := encode_of_four ⟨lo, hi⟩ ((inRange_iff_of_owed owes).1 r1)
      (tail_iff.1 r2) (tail_iff.1 r3) code
    refine ⟨[bytes[pos], y1, y2, y3], fun k inside => ?_, width, size, encode⟩
    match k, inside with
    | 0, _ => exact at0
    | 1, _ => exact at1
    | 2, _ => exact at2
    | 3, _ => exact at3

/-- The scalar value of a character is below U+D800, or above U+DFFF and below U+110000. -/
theorem toNat_valid (c : Char) : c.toNat < 0xD800 ∨ 0xDFFF < c.toNat ∧ c.toNat < 0x110000 :=
  c.valid

section Widths

/-! Reading the encoding of a character of each width. `octet` says the octets at `pos` are
that encoding, octet by octet. -/

variable {bytes : ByteArray} {pos : Nat} {c : Char}

theorem readAt_of_encoding_one (h : pos < bytes.size) (one : c.toNat ≤ 0x7F)
    (octet : ∀ k, k < (String.utf8EncodeChar c).length →
      bytes[pos + k]? = (String.utf8EncodeChar c)[k]?) :
    (readAt bytes pos h).content = .char c ∧ (readAt bytes pos h).width = c.utf8Size := by
  have at0 : bytes[pos]? = some bytes[pos] := getElem?_pos bytes pos h
  obtain ⟨size, encode⟩ := encode_one one
  have first := octet 0 (by simp [encode])
  simp only [encode, Nat.add_zero, List.getElem?_cons_zero, at0, Option.some.injEq] at first
  have ascii : bytes[pos] < 0x80 := by
    rw [first, UInt8.lt_iff_toNat_lt, UInt8.toNat_ofNat']
    simp only [UInt8.reduceToNat]
    omega
  simp only [readAt, if_pos ascii, size]
  rw [first, UInt8.toNat_ofNat', Nat.mod_eq_of_lt (by omega), Char.ofNat_toNat]
  exact ⟨rfl, trivial⟩

theorem readAt_of_encoding_two (h : pos < bytes.size) (lo : 0x7F < c.toNat) (hi : c.toNat ≤ 0x7FF)
    (octet : ∀ k, k < (String.utf8EncodeChar c).length →
      bytes[pos + k]? = (String.utf8EncodeChar c)[k]?) :
    (readAt bytes pos h).content = .char c ∧ (readAt bytes pos h).width = c.utf8Size := by
  have at0 : bytes[pos]? = some bytes[pos] := getElem?_pos bytes pos h
  obtain ⟨size, encode⟩ := encode_two lo hi
  have first := octet 0 (by simp [encode])
  have second := octet 1 (by simp [encode])
  simp only [encode, Nat.add_zero, List.getElem?_cons_zero, List.getElem?_cons_succ, at0,
    Option.some.injEq] at first second
  have lead : bytes[pos].toNat = c.toNat / 64 % 32 + 0xC0 := by
    rw [first, UInt8.toNat_ofNat']
    omega
  have owes := owed_two (x := bytes[pos]) (by omega) (by omega)
  have tails : (readTails bytes (pos + 1) 0x80 0xBF 1).2 = none := by
    rw [readTails_succ_of second ((inRange_iff_of_owed owes).2 ⟨?_, ?_⟩)]
    · rfl
    all_goals simp only [Tail, UInt8.toNat_ofNat']; omega
  have code : codePoint bytes pos 2 = c.toNat := by
    rw [codePoint_two at0 second, lead, UInt8.toNat_ofNat']
    omega
  obtain ⟨content, width⟩ := readAt_of_tails (h := h) (by omega) owes tails
  rw [content, width, size, code, Char.ofNat_toNat]
  exact ⟨rfl, rfl⟩

theorem readAt_of_encoding_three (h : pos < bytes.size) (lo : 0x7FF < c.toNat)
    (hi : c.toNat ≤ 0xFFFF)
    (octet : ∀ k, k < (String.utf8EncodeChar c).length →
      bytes[pos + k]? = (String.utf8EncodeChar c)[k]?) :
    (readAt bytes pos h).content = .char c ∧ (readAt bytes pos h).width = c.utf8Size := by
  have at0 : bytes[pos]? = some bytes[pos] := getElem?_pos bytes pos h
  -- the second octet's range excludes the surrogates, which no character is
  have valid := toNat_valid c
  obtain ⟨size, encode⟩ := encode_three lo hi
  have first := octet 0 (by simp [encode])
  have second := octet 1 (by simp [encode])
  have third := octet 2 (by simp [encode])
  simp only [encode, Nat.add_zero, List.getElem?_cons_zero, List.getElem?_cons_succ, at0,
    Option.some.injEq] at first second third
  have lead : bytes[pos].toNat = c.toNat / 4096 % 16 + 0xE0 := by
    rw [first, UInt8.toNat_ofNat']
    omega
  have owes := owed_three (x := bytes[pos]) (by omega) (by omega)
  have code : codePoint bytes pos 3 = c.toNat := by
    rw [codePoint_three at0 second third, lead, UInt8.toNat_ofNat', UInt8.toNat_ofNat']
    omega
  obtain ⟨content, width⟩ := readAt_of_tails (h := h) (by omega) owes (by
    rw [readTails_succ_of second ((inRange_iff_of_owed owes).2 ?_),
      readTails_succ_of third (tail_iff.2 ?_)]
    · rfl
    all_goals simp only [FirstTail, Tail, UInt8.toNat_ofNat', lead]; omega)
  rw [content, width, size, code, Char.ofNat_toNat]
  exact ⟨rfl, rfl⟩

theorem readAt_of_encoding_four (h : pos < bytes.size) (lo : 0xFFFF < c.toNat)
    (octet : ∀ k, k < (String.utf8EncodeChar c).length →
      bytes[pos + k]? = (String.utf8EncodeChar c)[k]?) :
    (readAt bytes pos h).content = .char c ∧ (readAt bytes pos h).width = c.utf8Size := by
  have at0 : bytes[pos]? = some bytes[pos] := getElem?_pos bytes pos h
  have valid := toNat_valid c
  obtain ⟨size, encode⟩ := encode_four lo
  have first := octet 0 (by simp [encode])
  have second := octet 1 (by simp [encode])
  have third := octet 2 (by simp [encode])
  have fourth := octet 3 (by simp [encode])
  simp only [encode, Nat.add_zero, List.getElem?_cons_zero, List.getElem?_cons_succ, at0,
    Option.some.injEq] at first second third fourth
  have lead : bytes[pos].toNat = c.toNat / 262144 % 8 + 0xF0 := by
    rw [first, UInt8.toNat_ofNat']
    omega
  have owes := owed_four (x := bytes[pos]) (by omega) (by omega)
  have code : codePoint bytes pos 4 = c.toNat := by
    rw [codePoint_four at0 second third fourth, lead, UInt8.toNat_ofNat', UInt8.toNat_ofNat',
      UInt8.toNat_ofNat']
    omega
  obtain ⟨content, width⟩ := readAt_of_tails (h := h) (by omega) owes (by
    rw [readTails_succ_of second ((inRange_iff_of_owed owes).2 ?_),
      readTails_succ_of third (tail_iff.2 ?_), readTails_succ_of fourth (tail_iff.2 ?_)]
    · rfl
    all_goals simp only [FirstTail, Tail, UInt8.toNat_ofNat', lead]; omega)
  rw [content, width, size, code, Char.ofNat_toNat]
  exact ⟨rfl, rfl⟩

end Widths

/-- **The decoder reads a character where its encoding stands**, in one step as wide as the
encoding. -/
theorem readAt_of_window {bytes : ByteArray} {pos : Nat} (h : pos < bytes.size) {c : Char}
    (fits : pos + c.utf8Size ≤ bytes.size)
    (window : bytes.extract pos (pos + c.utf8Size) = (String.utf8EncodeChar c).toByteArray) :
    (readAt bytes pos h).content = .char c ∧ (readAt bytes pos h).width = c.utf8Size := by
  rw [← String.length_utf8EncodeChar] at fits window
  have octet := getElem?_of_extract_eq fits window
  rcases (by omega : c.toNat ≤ 0x7F ∨ 0x7F < c.toNat ∧ c.toNat ≤ 0x7FF ∨
      0x7FF < c.toNat ∧ c.toNat ≤ 0xFFFF ∨ 0xFFFF < c.toNat) with one | two | three | four
  · exact readAt_of_encoding_one h one octet
  · exact readAt_of_encoding_two h two.1 two.2 octet
  · exact readAt_of_encoding_three h three.1 three.2 octet
  · exact readAt_of_encoding_four h four octet

/-! ### Whole texts -/

/-- The window of `w` octets at `pos` is the front of the octets from `pos` on. -/
theorem extract_window {bytes : ByteArray} {pos w : Nat} (fits : pos + w ≤ bytes.size) :
    bytes.extract pos (pos + w) = (bytes.extract pos bytes.size).extract 0 w := by
  rw [ByteArray.extract_extract, Nat.add_zero, Nat.min_eq_left fits]

/-- The octets from `pos + w` on are what follows the window of `w` octets at `pos`. -/
theorem extract_after (bytes : ByteArray) (pos w : Nat) :
    bytes.extract (pos + w) bytes.size =
      (bytes.extract pos bytes.size).extract w (bytes.extract pos bytes.size).size := by
  rw [ByteArray.extract_extract, ByteArray.size_extract, Nat.min_self]
  congr 1
  omega

theorem push_append_ofList (acc : String) (c : Char) (cs : List Char) :
    acc.push c ++ String.ofList cs = acc ++ String.ofList (c :: cs) := by
  rw [String.push_eq_append, String.append_assoc, String.singleton_eq_ofList,
    ← String.ofList_append, List.singleton_append]

/-- **Decoding the encoding of a text reads the text.** From any position where the rest of the
octets encode `cs`, decoding appends `cs` to what it has read. -/
theorem decodeFrom_of_encode {bytes : ByteArray} (cs : List Char) {pos : Nat} (acc : String)
    (rest : bytes.extract pos bytes.size = cs.utf8Encode) :
    decodeFrom bytes pos acc = .ok (acc ++ String.ofList cs) := by
  induction cs generalizing pos acc with
  | nil =>
    rw [List.utf8Encode_nil, ByteArray.extract_eq_empty_iff, Nat.min_self] at rest
    rw [decodeFrom, dif_neg (by omega), String.ofList_nil, String.append_empty]
  | cons c cs ih =>
    rw [List.utf8Encode_cons, List.utf8Encode_singleton] at rest
    have sizes := congrArg ByteArray.size rest
    simp only [ByteArray.size_extract, ByteArray.size_append, List.size_toByteArray,
      String.length_utf8EncodeChar, Nat.min_self] at sizes
    have := c.utf8Size_pos
    have fits : pos + c.utf8Size ≤ bytes.size := by omega
    have inside : pos < bytes.size := by omega
    have window : bytes.extract pos (pos + c.utf8Size) = (String.utf8EncodeChar c).toByteArray := by
      rw [extract_window fits, rest]
      exact ByteArray.extract_append_eq_left (by simp)
    have after : bytes.extract (pos + c.utf8Size) bytes.size = cs.utf8Encode := by
      rw [extract_after, rest]
      exact ByteArray.extract_append_eq_right (by simp) (by simp)
    obtain ⟨content, width⟩ := readAt_of_window inside fits window
    rw [decodeFrom, dif_pos inside]
    simp only [content, width]
    rw [ih (acc.push c) after, push_append_ofList]

/-- **What decoding reads is a text whose encoding the octets are.** -/
theorem encode_of_decodeFrom {bytes : ByteArray} {pos : Nat} {acc t : String}
    (decoded : decodeFrom bytes pos acc = .ok t) :
    ∃ cs : List Char, bytes.extract pos bytes.size = cs.utf8Encode ∧ t = acc ++ String.ofList cs := by
  fun_induction decodeFrom bytes pos acc with
  | case1 pos acc inside piece c reads ih =>
    -- the character read at `pos` is encoded in the window the decoder steps over
    obtain ⟨cs, after, text⟩ := ih decoded
    obtain ⟨width, fits, window⟩ := window_of_readAt reads
    rw [width] at after
    refine ⟨c :: cs, ?_, by rw [text, push_append_ofList]⟩
    calc bytes.extract pos bytes.size
        = bytes.extract pos (pos + c.utf8Size) ++ bytes.extract (pos + c.utf8Size) bytes.size := by
          rw [ByteArray.extract_append_extract, Nat.min_eq_left (by omega),
            Nat.max_eq_right fits]
      _ = (c :: cs).utf8Encode := by
          rw [window, after, List.utf8Encode_cons, List.utf8Encode_singleton]
  | case2 => nomatch decoded
  | case3 pos acc outside =>
    cases decoded
    refine ⟨[], ?_, by rw [String.ofList_nil, String.append_empty]⟩
    rw [List.utf8Encode_nil, ByteArray.extract_eq_empty_iff]
    omega

/-- **Strict decoding gives a text exactly when the octets are its UTF-8 encoding.** -/
theorem decode?_eq_ok_iff {bytes : ByteArray} {t : String} :
    decode? bytes = .ok t ↔ t.toByteArray = bytes := by
  constructor
  · intro decoded
    obtain ⟨cs, whole, text⟩ := encode_of_decodeFrom decoded
    rw [ByteArray.extract_zero_size] at whole
    rw [text, String.empty_append, String.toByteArray_ofList, whole]
  · rintro rfl
    have whole : t.toByteArray.extract 0 t.toByteArray.size = t.toList.utf8Encode := by
      rw [ByteArray.extract_zero_size, ← String.toByteArray_ofList, String.ofList_toList]
    rw [decode?, decodeFrom_of_encode t.toList "" whole, String.empty_append,
      String.ofList_toList]

/-- **Strict decoding fails exactly on octets that are not valid UTF-8.** -/
theorem decode?_isError_iff {bytes : ByteArray} :
    (∃ m, decode? bytes = .error m) ↔ ¬ bytes.IsValidUTF8 := by
  constructor
  · rintro ⟨m, failed⟩ ⟨cs, rfl⟩
    have decoded := decode?_eq_ok_iff.2 (String.toByteArray_ofList (l := cs))
    rw [failed] at decoded
    nomatch decoded
  · intro invalid
    cases decoded : decode? bytes with
    | error m => exact ⟨m, rfl⟩
    | ok t => exact absurd (decode?_eq_ok_iff.1 decoded ▸ t.isValidUTF8) invalid

end RubyCheck.Text.Utf8

import RubyCheck.Lint.Rule
import Mathlib

/-!
# Lines and columns

**An offset's line is one more than the newline octets before it, and its column is the number
of octets since the last of them.**

A buffer keeps the offsets where its lines start: 0, and one past each newline octet (0x0A).
`lineAndColumn` counts the line starts at or before an offset; that count is the line, and the
last of those starts is where the column is counted from. Only the newline octet starts a line,
so a carriage return is an ordinary octet of its line, and a multi-octet character counts as
many columns as it has octets.

The rule is stated over the octets as a list, without line starts:

* `breaksAfter`: the offsets just after each newline octet;
* `lineStart`: one past the last newline octet, or 0 when there is none.

Main statements:

* `Buffer.lineStarts_ofText`: the line starts are 0 and the offsets after each newline octet;
* `getLast?_breaksAfter`: the last of them is `lineStart`;
* `Buffer.lineAndColumn_counts_newlines`: an offset at or after 0 is on the line one more than
  the newline octets before it, at the column counted from the last of them (offsets past the
  end count from the last line start); an offset before 0 gets line 0 and is counted from the
  last line start; there is one line more than there are newline octets; and a diagnostic's
  location is that of its start.
-/

namespace RubyCheck.Source

/-! ### Newline octets in a list -/

/-- The offsets just after each newline octet of `l`, in order. -/
def breaksAfter : List UInt8 → List Nat
  | [] => []
  | x :: rest => (if x = 10 then [1] else []) ++ (breaksAfter rest).map (· + 1)

/-- One past the last newline octet of `l`, or 0 when `l` has none: where the line that `l`
ends in starts. -/
def lineStart (l : List UInt8) : Nat := l.length - (l.reverse.takeWhile (· != 10)).length

@[simp] theorem breaksAfter_nil : breaksAfter [] = [] := rfl

theorem breaksAfter_append (l r : List UInt8) :
    breaksAfter (l ++ r) = breaksAfter l ++ (breaksAfter r).map (· + l.length) := by
  induction l with
  | nil => simp
  | cons x rest ih =>
    simp only [List.cons_append, breaksAfter, ih, List.map_append, List.map_map,
      List.append_assoc, List.length_cons]
    congr 3

theorem breaksAfter_singleton (x : UInt8) : breaksAfter [x] = if x = 10 then [1] else [] := by
  simp [breaksAfter]

theorem length_breaksAfter (l : List UInt8) : (breaksAfter l).length = l.count 10 := by
  induction l with
  | nil => rfl
  | cons x rest ih =>
    by_cases newline : x = 10
    · simp [breaksAfter, newline, ih]
    · simp [breaksAfter, newline, ih]

/-- Every offset after a newline octet lies in `1..l.length`. -/
theorem bounds_of_mem_breaksAfter {l : List UInt8} {s : Nat} (member : s ∈ breaksAfter l) :
    1 ≤ s ∧ s ≤ l.length := by
  induction l generalizing s with
  | nil => cases member
  | cons x rest ih =>
    simp only [breaksAfter, List.mem_append, List.mem_map] at member
    rcases member with first | ⟨t, later, rfl⟩
    · split at first
      · simp only [List.mem_singleton] at first
        simp [first]
      · cases first
    · have := ih later
      simp only [List.length_cons]
      omega

theorem lineStart_append_singleton (l : List UInt8) (x : UInt8) :
    lineStart (l ++ [x]) = if x = 10 then l.length + 1 else lineStart l := by
  have trailing : (l.reverse.takeWhile (· != 10)).length ≤ l.length := by
    simpa using (List.takeWhile_prefix (· != 10) (l := l.reverse)).length_le
  by_cases newline : x = 10
  · simp [lineStart, newline]
  · have kept : (x != 10) = true := by simpa using newline
    simp only [lineStart, List.reverse_append, List.reverse_cons, List.reverse_nil,
      List.nil_append, List.cons_append, List.takeWhile_cons, kept, if_true, List.length_cons,
      List.length_append, List.length_nil, newline, if_false]
    omega

/-- **The last line start of some octets is one past their last newline octet.** -/
theorem getLast?_breaksAfter (l : List UInt8) :
    (0 :: breaksAfter l).getLast?.getD 0 = lineStart l := by
  induction l using List.reverseRecOn with
  | nil => rfl
  | append_singleton l x ih =>
    rw [breaksAfter_append, breaksAfter_singleton, lineStart_append_singleton]
    by_cases newline : x = 10
    · simp only [newline, if_true, List.map_cons, List.map_nil, ← List.cons_append,
        List.getLast?_append, List.getLast?_singleton]
      simp
      omega
    · simp [newline, ih]

/-- Cutting some octets at `n` keeps the offsets after newlines up to `n`. -/
theorem filter_breaksAfter_take (l : List UInt8) (n : Nat) :
    (breaksAfter l).filter (· ≤ n) = breaksAfter (l.take n) := by
  conv_lhs => rw [← List.take_append_drop n l, breaksAfter_append]
  rw [List.filter_append]
  -- the offsets of the front are all within `n`, those of the back all past it
  have front : (breaksAfter (l.take n)).filter (· ≤ n) = breaksAfter (l.take n) := by
    rw [List.filter_eq_self]
    intro s member
    have := bounds_of_mem_breaksAfter member
    simp only [List.length_take] at this
    simpa using (by omega : s ≤ n)
  have back : ((breaksAfter (l.drop n)).map (· + (l.take n).length)).filter (· ≤ n) = [] := by
    rw [List.filter_eq_nil_iff]
    intro s member
    obtain ⟨t, later, rfl⟩ := List.mem_map.1 member
    have bounded := bounds_of_mem_breaksAfter later
    have short : (l.drop n).length = 0 ∨ (l.take n).length = n := by
      simp only [List.length_drop, List.length_take]
      omega
    rcases short with empty | full
    · rw [List.length_eq_zero_iff.1 empty] at later
      cases later
    · simp only [full, decide_eq_true_eq]
      omega
  rw [front, back, List.append_nil]

/-! ### The line starts of a buffer -/

/-- The scan for newlines appends, to what it has gathered, the offsets after each newline octet
from `pos` on. -/
theorem newlineEnds_toList (bytes : ByteArray) (pos : Nat) (acc : Array Nat) :
    (newlineEnds bytes pos acc).toList =
      acc.toList ++ (breaksAfter (bytes.data.toList.drop pos)).map (· + pos) := by
  fun_induction newlineEnds bytes pos acc with
  | case1 pos acc inside ih =>
    have split : bytes.data.toList.drop pos = bytes[pos] :: bytes.data.toList.drop (pos + 1) := by
      rw [List.drop_eq_getElem_cons (by simpa using inside)]
      rfl
    simp only [dite_eq_ite] at ih
    rw [ih, split, breaksAfter]
    by_cases newline : bytes[pos] = 10
    · simp [newline, List.map_map, Function.comp_def, Nat.add_assoc, Nat.add_comm 1 pos]
    · simp [newline, List.map_map, Function.comp_def, Nat.add_assoc, Nat.add_comm 1 pos]
  | case2 pos acc outside =>
    have empty : bytes.data.toList.drop pos = [] := by
      simp only [List.drop_eq_nil_iff, Array.length_toList, ByteArray.size_data]
      omega
    simp [empty]

namespace Buffer

/-- **The line starts of a text are 0 and the offsets after each newline octet.** -/
theorem lineStarts_ofText (text name : String) :
    (ofText text name).lineStarts.toList = 0 :: breaksAfter text.toByteArray.data.toList := by
  simp [ofText, newlineEnds_toList]

theorem startsUpTo_of_neg (text name : String) {offset : Int} (before : offset < 0) :
    (ofText text name).startsUpTo offset = 0 := by
  simp only [startsUpTo, List.length_eq_zero_iff, List.filter_eq_nil_iff, decide_eq_true_eq]
  intro s _
  omega

/-- The line starts at or before an offset at or after 0 are those of the octets before it. -/
theorem filter_lineStarts (text name : String) (n : Nat) :
    (ofText text name).lineStarts.toList.filter (fun s : Nat => decide ((s : Int) ≤ n)) =
      0 :: breaksAfter (text.toByteArray.data.toList.take n) := by
  have cast : (fun s : Nat => decide ((s : Int) ≤ n)) = (· ≤ n) := by
    funext s
    simp
  rw [cast, lineStarts_ofText, List.filter_cons_of_pos (by simp), filter_breaksAfter_take]

/-- The line starts are those of the octets before `n`, then those of the octets from `n` on. -/
theorem lineStarts_ofText_split (text name : String) (n : Nat) :
    (ofText text name).lineStarts.toList =
      (0 :: breaksAfter (text.toByteArray.data.toList.take n)) ++
        (breaksAfter (text.toByteArray.data.toList.drop n)).map
          (· + (text.toByteArray.data.toList.take n).length) := by
  rw [lineStarts_ofText]
  conv_lhs => rw [← List.take_append_drop n text.toByteArray.data.toList]
  rw [breaksAfter_append, List.cons_append]

/-- From 0 on, an offset's line is one more than the newline octets before it, and its column
is counted from the last of them. -/
theorem lineAndColumn_ofText_natCast (text name : String) (n : Nat) :
    (ofText text name).lineAndColumn n =
      ((1 + (text.toByteArray.data.toList.take n).count 10,
        n - lineStart (text.toByteArray.data.toList.take n)) : Int × Int) := by
  have count : (ofText text name).startsUpTo n =
      1 + (text.toByteArray.data.toList.take n).count 10 := by
    rw [startsUpTo, filter_lineStarts, List.length_cons, length_breaksAfter]
    omega
  -- the last start counted is the last start of the octets before the offset
  have last : (ofText text name).lineStarts[(text.toByteArray.data.toList.take n).count 10]?.getD
      0 = lineStart (text.toByteArray.data.toList.take n) := by
    rw [← Array.getElem?_toList, lineStarts_ofText_split text name n,
      List.getElem?_append_left (by simp [length_breaksAfter]), ← getLast?_breaksAfter,
      List.getLast?_eq_getElem?]
    simp [length_breaksAfter]
  simp only [lineAndColumn, count]
  simp [last]

/-- Before 0, an offset gets line 0 and is counted from the last line start. -/
theorem lineAndColumn_ofText_neg (text name : String) {offset : Int} (before : offset < 0) :
    (ofText text name).lineAndColumn offset =
      ((0, offset - lineStart text.toByteArray.data.toList) : Int × Int) := by
  have last : (ofText text name).lineStarts.back?.getD 0 =
      lineStart text.toByteArray.data.toList := by
    rw [Array.back?_eq_getElem?, ← Array.getElem?_toList, ← Array.length_toList,
      lineStarts_ofText, ← getLast?_breaksAfter, List.getLast?_eq_getElem?]
  simp only [lineAndColumn, startsUpTo_of_neg text name before, last]
  simp

theorem lineCount_ofText (text name : String) :
    (ofText text name).lineCount = 1 + text.toByteArray.data.toList.count 10 := by
  rw [lineCount, ← Array.length_toList, lineStarts_ofText, List.length_cons, length_breaksAfter]
  omega

/-- **Lines and columns count newline octets.** With `bytes` the UTF-8 octets of the text: an
offset from 0 on is on the line one more than the newline octets before it, at the column
counted from one past the last of them (offsets past the end count from the last line start);
an offset before 0 gets line 0 and is counted from the last line start; there is one line more
than there are newline octets; and a diagnostic is located where its span starts. -/
theorem lineAndColumn_counts_newlines (text name : String) :
    let bytes := text.toByteArray.data.toList
    (∀ n : Nat, (ofText text name).lineAndColumn n =
      ((1 + (bytes.take n).count 10, n - lineStart (bytes.take n)) : Int × Int)) ∧
    (∀ offset : Int, offset < 0 →
      (ofText text name).lineAndColumn offset = ((0, offset - lineStart bytes) : Int × Int)) ∧
    (ofText text name).lineCount = 1 + bytes.count 10 ∧
    ∀ d : Lint.Diagnostic, d.location (ofText text name) =
      ((1 + (bytes.take d.span.start).count 10,
        d.span.start - lineStart (bytes.take d.span.start)) : Int × Int) :=
  ⟨lineAndColumn_ofText_natCast text name,
    fun _ before => lineAndColumn_ofText_neg text name before, lineCount_ofText text name,
    fun d => lineAndColumn_ofText_natCast text name d.span.start⟩

end Buffer

end RubyCheck.Source

import RubyCheck.Proofs.Edit.Order

/-!
# Splicing edits into octets

**Splicing a sorted batch from the left is applying its edits one at a time from the end.**

`splice` copies the octets up to each edit's start, then its replacement, and resumes at its
stop, all at offsets of the unedited octets. Applying one edit rewrites its span of whatever
octets it is given, so applying the edits of a batch one at a time, each at its original
offsets, gives the same octets only when later edits go first.

* `splice_eq_spliceFrom`: the left fold of `splice` is `spliceFrom`, a plain recursion over the
  edits.
* `applyFromEnd_eq_splice`: when each edit stops before the next starts and within the octets,
  the two agree. The invariant: applying the edits that start after an offset leaves the octets
  before it as they were.
* `size_applyFromEnd`: the spliced octets are as long as the unedited ones, plus every
  replacement, less every span.
-/

namespace RubyCheck.Lint

open RubyCheck.Source

/-- One edit, applied to octets at its own offsets. -/
def Edit.applyTo (e : Edit) (bytes : ByteArray) : ByteArray :=
  bytes.extract 0 e.span.start ++ e.replacement.toUTF8 ++ bytes.extract e.span.stop bytes.size

/-- The edits applied one at a time, each at its own offsets, the last first. -/
def applyFromEnd (bytes : ByteArray) (o : List Edit) : ByteArray :=
  o.foldr Edit.applyTo bytes

/-- The octets from offset `last` on, with the edits of `o` spliced in. -/
def spliceFrom (bytes : ByteArray) (last : Nat) : List Edit → ByteArray
  | [] => bytes.extract last bytes.size
  | e :: rest =>
    bytes.extract last e.span.start ++ e.replacement.toUTF8 ++ spliceFrom bytes e.span.stop rest

/-- The edits of `o` lie in order inside `bytes`: each stops before any later one starts, and
within the octets. -/
structure Laid (bytes : ByteArray) (o : List Edit) : Prop where
  ordered : o.Pairwise fun a b => a.span.stop ≤ b.span.start
  inside : ∀ e ∈ o, e.span.stop ≤ bytes.size

theorem Laid.of_cons {bytes : ByteArray} {e : Edit} {rest : List Edit}
    (laid : Laid bytes (e :: rest)) : Laid bytes rest :=
  ⟨laid.ordered.of_cons, fun x member => laid.inside x (List.mem_cons_of_mem e member)⟩

/-- The left fold of `splice`, from any accumulator and resume offset. -/
theorem splice_foldl (bytes : ByteArray) (o : List Edit) (acc : ByteArray) (last : Nat) :
    (fun (acc, last) => acc ++ bytes.extract last bytes.size)
      (o.foldl (fun (acc, last) e =>
        (acc ++ bytes.extract last e.span.start ++ e.replacement.toUTF8, e.span.stop))
        (acc, last)) = acc ++ spliceFrom bytes last o := by
  induction o generalizing acc last with
  | nil => rfl
  | cons e rest ih =>
    rw [List.foldl_cons, ih, spliceFrom]
    simp only [ByteArray.append_assoc]

theorem splice_eq_spliceFrom (bytes : ByteArray) (o : List Edit) :
    splice bytes o = spliceFrom bytes 0 o := by
  have folded := splice_foldl bytes o ByteArray.empty 0
  rw [ByteArray.empty_append] at folded
  exact folded

/-- **Applying the edits from the end keeps the octets before them.** For octets `bytes` and a
batch laid in order inside them, applying every edit from the last one back gives the octets up
to any offset `m` before all the edits, followed by the splice from `m` on. -/
theorem applyFromEnd_eq_extract_append {bytes : ByteArray} {o : List Edit} (laid : Laid bytes o)
    {m : Nat} (below : ∀ e ∈ o, m ≤ e.span.start) (within : m ≤ bytes.size) :
    applyFromEnd bytes o = bytes.extract 0 m ++ spliceFrom bytes m o := by
  induction o generalizing m with
  | nil =>
    rw [applyFromEnd, List.foldr_nil, spliceFrom, ByteArray.extract_append_extract]
    simp [Nat.max_eq_right within]
  | cons e rest ih =>
    have startStop := e.span.ordered
    have stopInside := laid.inside e List.mem_cons_self
    have mStart := below e List.mem_cons_self
    -- the edits after `e` start at its stop or later, so the octets before its stop are kept
    have later : applyFromEnd bytes rest =
        bytes.extract 0 e.span.stop ++ spliceFrom bytes e.span.stop rest :=
      ih laid.of_cons (List.pairwise_cons.1 laid.ordered).1 stopInside
    have frontSize : (bytes.extract 0 e.span.stop).size = e.span.stop := by
      simp only [ByteArray.size_extract]
      omega
    have front :
        (applyFromEnd bytes rest).extract 0 e.span.start = bytes.extract 0 e.span.start := by
      rw [later, ByteArray.extract_append, frontSize, ByteArray.extract_extract,
        Nat.sub_eq_zero_of_le startStop]
      simp [Nat.min_eq_left startStop]
    have back : (applyFromEnd bytes rest).extract e.span.stop (applyFromEnd bytes rest).size =
        spliceFrom bytes e.span.stop rest := by
      rw [later]
      exact ByteArray.extract_append_eq_right frontSize.symm
        (by rw [ByteArray.size_append, frontSize])
    calc applyFromEnd bytes (e :: rest)
        = e.applyTo (applyFromEnd bytes rest) := rfl
      _ = bytes.extract 0 e.span.start ++ e.replacement.toUTF8 ++
            spliceFrom bytes e.span.stop rest := by
          rw [Edit.applyTo, front, back]
      _ = bytes.extract 0 m ++ spliceFrom bytes m (e :: rest) := by
          rw [spliceFrom, ← ByteArray.append_assoc, ← ByteArray.append_assoc,
            ByteArray.extract_append_extract]
          simp [Nat.max_eq_right mStart]

/-- **Splicing from the left is applying the edits from the end.** -/
theorem applyFromEnd_eq_splice {bytes : ByteArray} {o : List Edit} (laid : Laid bytes o) :
    applyFromEnd bytes o = splice bytes o := by
  rw [splice_eq_spliceFrom, applyFromEnd_eq_extract_append laid (fun _ _ => Nat.zero_le _)
    (Nat.zero_le _)]
  simp

/-- The splice from `m` on is as long as the octets after `m`, plus every replacement, less
every span. -/
theorem size_spliceFrom {bytes : ByteArray} {o : List Edit} (laid : Laid bytes o) {m : Nat}
    (below : ∀ e ∈ o, m ≤ e.span.start) :
    (spliceFrom bytes m o).size + (o.map (·.span.length)).sum =
      bytes.size - m + (o.map (·.replacement.utf8ByteSize)).sum := by
  induction o generalizing m with
  | nil => simp [spliceFrom]
  | cons e rest ih =>
    have := e.span.ordered
    have := laid.inside e List.mem_cons_self
    have := below e List.mem_cons_self
    have tail := ih laid.of_cons (List.pairwise_cons.1 laid.ordered).1
    simp only [spliceFrom, ByteArray.size_append, ByteArray.size_extract,
      String.toUTF8_eq_toByteArray, String.size_toByteArray, List.map_cons, List.sum_cons,
      Span.length] at tail ⊢
    omega

theorem size_applyFromEnd {bytes : ByteArray} {o : List Edit} (laid : Laid bytes o) :
    (applyFromEnd bytes o).size + (o.map (·.span.length)).sum =
      bytes.size + (o.map (·.replacement.utf8ByteSize)).sum := by
  rw [applyFromEnd_eq_splice laid, splice_eq_spliceFrom,
    size_spliceFrom laid (fun _ _ => Nat.zero_le _), Nat.sub_zero]

end RubyCheck.Lint

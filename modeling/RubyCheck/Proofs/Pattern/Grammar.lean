import RubyCheck.Pattern.Compile
import Mathlib

/-!
# The grammar of pattern text

**`compile` accepts exactly the texts whose tokens make one sentence of the pattern grammar, and
returns that sentence's tree.**

```
P ::= '(' KIND P* [ '...' ] ')' | '{' P P* '}' | SYMBOL | INT | '_' | '_' NAME | 'nil'
```

`Sentence ts p` says that the token list `ts` is one `P` and that `p` is its tree; `Sentences`
strings sentences together and `Children` adds the optional `...` of a node pattern. The readers
`readOne`, `readNode`, `readChildren` and `readUnion` run on fuel; with fuel twice the number of
tokens they never run out, and then:

* `ReadsSound`: what a reader returns is a derivation, followed by the tokens it leaves;
* `ReadsComplete`: a reader given a derivation followed by any tokens reads that derivation and
  leaves the tokens;
* `ReadsMalformed`: a reader fails only on text outside the grammar, unless a whole number has
  too many digits.

Every tree of a derivation is `WellFormed`: `rest` stands only as the last child of a node
pattern, no union is empty, and every literal is a text, a whole number or nothing.
-/

namespace RubyCheck.Pattern

open RubyCheck.Tree

/-! ### The grammar -/

/-- `Leaf t p`: the token `t` alone is a sentence, and `p` is its tree. A symbol stands for the
text after its colon, a whole number for its value, `_` for the wildcard, `_name` for a capture
of `name`, and `nil` for nothing. -/
inductive Leaf : Token → Pattern → Prop
  | symbol {t : Token} :
      t.cls = .symbol → Leaf t (.literal (.text (String.ofList (t.text.toList.drop 1))))
  | int {t : Token} {v : Int} : t.cls = .int → intValue t.text = .ok v → Leaf t (.literal (.int v))
  | wildcard {t : Token} : t.cls = .word → t.text = "_" → Leaf t .wildcard
  | capture {t : Token} {name : String} :
      t.cls = .word → t.text = "_" ++ name → name ≠ "" → Leaf t (.capture name)
  | nil {t : Token} : t.cls = .word → t.text = "nil" → Leaf t (.literal .none)

mutual

/-- `Sentence ts p`: the tokens `ts` are one sentence of the grammar, and `p` is its tree. -/
inductive Sentence : List Token → Pattern → Prop
  | leaf {t : Token} {p : Pattern} : Leaf t p → Sentence [t] p
  | node {opening word closing : Token} {k : Kind} {body : List Token} {ps : List Pattern} :
      opening.isPunct "(" = true → word.cls = .word → Kind.ofValue? word.text = some k →
      Children body ps → closing.isPunct ")" = true →
      Sentence (opening :: word :: (body ++ [closing])) (.kind k ps)
  | union {opening closing : Token} {body : List Token} {ps : List Pattern} :
      opening.isPunct "\x7b" = true → Sentences body ps → ps ≠ [] →
      closing.isPunct "\x7d" = true → Sentence (opening :: (body ++ [closing])) (.anyOf ps)

/-- `Sentences ts ps`: the tokens `ts` are the sentences of `ps`, one after another. -/
inductive Sentences : List Token → List Pattern → Prop
  | nil : Sentences [] []
  | cons {ts more : List Token} {p : Pattern} {ps : List Pattern} :
      Sentence ts p → Sentences more ps → Sentences (ts ++ more) (p :: ps)

/-- `Children ts ps`: the children of a node pattern, sentences with an optional `...` after
them that stands for `rest`. -/
inductive Children : List Token → List Pattern → Prop
  | plain {ts : List Token} {ps : List Pattern} : Sentences ts ps → Children ts ps
  | rest {ts : List Token} {ps : List Pattern} {dots : Token} :
      Sentences ts ps → dots.cls = .rest → Children (ts ++ [dots]) (ps ++ [.rest])

end

theorem Children.cons {ts body : List Token} {p : Pattern} {ps : List Pattern}
    (first : Sentence ts p) : Children body ps → Children (ts ++ body) (p :: ps)
  | .plain later => .plain (.cons first later)
  | .rest later dots => by
    rw [← List.append_assoc, ← List.cons_append]
    exact .rest (.cons first later) dots

/-- A sentence starts with `(`, `{` or a leaf token: never with `)`, `}` or `...`. -/
theorem Sentence.first {ts : List Token} {p : Pattern} (sentence : Sentence ts p) :
    ∃ t more, ts = t :: more ∧ t.isPunct ")" = false ∧ t.isPunct "\x7d" = false ∧
      t.cls ≠ .rest := by
  cases sentence with
  | leaf leaf =>
    refine ⟨_, [], rfl, ?_⟩
    cases leaf <;> simp_all [Token.isPunct]
  | node opening => exact ⟨_, _, rfl, by simp_all [Token.isPunct]⟩
  | union opening => exact ⟨_, _, rfl, by simp_all [Token.isPunct]⟩

theorem Sentence.length_pos {ts : List Token} {p : Pattern} (sentence : Sentence ts p) :
    0 < ts.length := by
  obtain ⟨t, more, rfl, -⟩ := sentence.first
  simp

/-- A sentence read from the front of `t :: more` leaves fewer tokens than `more`, or as many. -/
theorem Sentence.length_after {t : Token} {more pre after : List Token} {p : Pattern}
    (split : t :: more = pre ++ after) (sentence : Sentence pre p) :
    after.length ≤ more.length := by
  have lengths := congrArg List.length split
  have := sentence.length_pos
  simp only [List.length_cons, List.length_append] at lengths
  omega

/-! ### Well-formed trees -/

/-- The trees of the grammar: `rest` stands only as the last child of a node pattern, no union is
empty, and every literal is a text, a whole number or nothing. -/
inductive WellFormed : Pattern → Prop
  | wildcard : WellFormed .wildcard
  | capture (name : String) : WellFormed (.capture name)
  | text (s : String) : WellFormed (.literal (.text s))
  | int (i : Int) : WellFormed (.literal (.int i))
  | none : WellFormed (.literal .none)
  | anyOf {ps : List Pattern} : ps ≠ [] → (∀ q ∈ ps, WellFormed q) → WellFormed (.anyOf ps)
  | kind {k : Kind} {ps : List Pattern} : (∀ q ∈ ps, WellFormed q) → WellFormed (.kind k ps)
  | kindRest {k : Kind} {ps : List Pattern} :
      (∀ q ∈ ps, WellFormed q) → WellFormed (.kind k (ps ++ [.rest]))

theorem Leaf.wellFormed {t : Token} {p : Pattern} : Leaf t p → WellFormed p
  | .symbol _ => .text _
  | .int _ _ => .int _
  | .wildcard _ _ => .wildcard
  | .capture _ _ _ => .capture _
  | .nil _ _ => .none

mutual

theorem Sentence.wellFormed {ts : List Token} {p : Pattern} : Sentence ts p → WellFormed p
  | .leaf leaf => leaf.wellFormed
  | .node _ _ _ kids _ => kids.wellFormed _
  | .union _ sentences nonempty _ => .anyOf nonempty sentences.wellFormed

theorem Sentences.wellFormed {ts : List Token} {ps : List Pattern} :
    Sentences ts ps → ∀ q ∈ ps, WellFormed q
  | .nil => fun _ member => nomatch member
  | .cons sentence later => fun q member =>
    (List.mem_cons.1 member).elim (fun same => same ▸ sentence.wellFormed)
      (fun member => later.wellFormed q member)

theorem Children.wellFormed {ts : List Token} {ps : List Pattern} (k : Kind) :
    Children ts ps → WellFormed (.kind k ps)
  | .plain sentences => .kind sentences.wellFormed
  | .rest sentences _ => .kindRest sentences.wellFormed

end

/-! ### Leaves -/

theorem underscore_append_ne {name : String} (named : name ≠ "") : "_" ++ name ≠ "_" := by
  intro same
  have lengths := congrArg String.length same
  simp only [String.length_append] at lengths
  exact named (String.length_eq_zero_iff.1 (by simpa using lengths))

theorem leaf_of_Leaf {t : Token} {p : Pattern} : Leaf t p → leaf t = .ok (some p)
  | .symbol symbol => by simp [leaf, symbol]
  | .int int value => by simp [leaf, int, value]
  | .wildcard word underscore => by simp [leaf, word, underscore]
  | .capture word text named => by
    simp [leaf, word, text, underscore_append_ne named, String.startsWith_string_iff]
  | .nil word text => by simp [leaf, word, text]

theorem Leaf.of_leaf {t : Token} {p : Pattern} (reads : leaf t = .ok (some p)) : Leaf t p := by
  unfold leaf at reads
  cases cls : t.cls <;> simp only [cls] at reads
  case rest | punct => cases reads
  case symbol =>
    cases reads
    exact .symbol cls
  case int =>
    cases value : intValue t.text with
    | error e => simp [value] at reads
    | ok v =>
      simp only [value] at reads
      cases reads
      exact .int cls value
  case word =>
    by_cases underscore : t.text = "_"
    · rw [if_pos (beq_iff_eq.2 underscore)] at reads
      cases reads
      exact .wildcard cls underscore
    rw [if_neg (by simpa using underscore)] at reads
    by_cases starts : t.text.startsWith "_" = true
    · rw [if_pos starts] at reads
      cases reads
      -- the name is what follows the underscore, and it is not empty
      obtain ⟨r, front⟩ := String.startsWith_string_iff.1 starts
      have spelled : t.text.toList = '_' :: r := by simpa using front.symm
      refine .capture cls (String.toList_inj.1 ?_) ?_
      · simp [spelled]
      · intro empty
        apply underscore
        apply String.toList_inj.1
        simp_all
    rw [if_neg starts] at reads
    by_cases nil : t.text = "nil"
    · rw [if_pos (beq_iff_eq.2 nil)] at reads
      cases reads
      exact .nil cls nil
    rw [if_neg (by simpa using nil)] at reads
    cases reads

/-! ### Reading gives derivations -/

/-- With fuel for twice their tokens, what the readers return is a derivation followed by the
tokens they leave. -/
structure ReadsSound (text : String) (fuel : Nat) : Prop where
  one {ts : List Token} {p : Pattern} {rest : List Token} :
    2 * ts.length + 1 ≤ fuel → readOne text fuel ts = .ok (p, rest) →
      ∃ pre, ts = pre ++ rest ∧ Sentence pre p
  node {opening : Nat} {ts : List Token} {p : Pattern} {rest : List Token} :
    2 * ts.length + 1 ≤ fuel → readNode text fuel opening ts = .ok (p, rest) →
      ∃ pre, ts = pre ++ rest ∧ ∀ o : Token, o.isPunct "(" = true → Sentence (o :: pre) p
  children {opening : Nat} {acc : List Pattern} {ts : List Token} {ps : List Pattern}
      {rest : List Token} :
    2 * ts.length + 2 ≤ fuel → readChildren text fuel opening acc ts = .ok (ps, rest) →
      ∃ body closing qs, ts = body ++ closing :: rest ∧ closing.isPunct ")" = true ∧
        ps = acc.reverse ++ qs ∧ Children body qs
  union {opening : Nat} {acc : List Pattern} {ts : List Token} {p : Pattern} {rest : List Token} :
    2 * ts.length + 2 ≤ fuel → readUnion text fuel opening acc ts = .ok (p, rest) →
      ∃ body closing qs, ts = body ++ closing :: rest ∧ closing.isPunct "\x7d" = true ∧
        p = .anyOf (acc.reverse ++ qs) ∧ acc.reverse ++ qs ≠ [] ∧ Sentences body qs

section Sound

variable {text : String} {fuel : Nat}

theorem ReadsSound.one_succ (ih : ReadsSound text fuel) {ts : List Token} {p : Pattern}
    {rest : List Token} (bound : 2 * ts.length + 1 ≤ fuel + 1)
    (reads : readOne text (fuel + 1) ts = .ok (p, rest)) :
    ∃ pre, ts = pre ++ rest ∧ Sentence pre p := by
  cases ts with
  | nil => simp [readOne] at reads
  | cons t more =>
    simp only [List.length_cons] at bound
    rw [readOne] at reads
    by_cases opening : t.isPunct "(" = true
    · rw [if_pos opening] at reads
      obtain ⟨pre, rfl, sentence⟩ := ih.node (by omega) reads
      exact ⟨t :: pre, rfl, sentence t opening⟩
    rw [if_neg opening] at reads
    by_cases brace : t.isPunct "\x7b" = true
    · rw [if_pos brace] at reads
      obtain ⟨body, closing, qs, rfl, closes, rfl, nonempty, sentences⟩ := ih.union (by omega) reads
      refine ⟨t :: (body ++ [closing]), by simp, ?_⟩
      simpa using Sentence.union brace sentences nonempty closes
    rw [if_neg brace] at reads
    cases leafIs : leaf t with
    | error e =>
      simp only [leafIs] at reads
      cases reads
    | ok found =>
      cases found with
      | none =>
        simp only [leafIs] at reads
        cases reads
      | some q =>
        simp only [leafIs] at reads
        cases reads
        exact ⟨[t], rfl, .leaf (Leaf.of_leaf leafIs)⟩

theorem ReadsSound.node_succ (ih : ReadsSound text fuel) {opening : Nat} {ts : List Token}
    {p : Pattern} {rest : List Token} (bound : 2 * ts.length + 1 ≤ fuel + 1)
    (reads : readNode text (fuel + 1) opening ts = .ok (p, rest)) :
    ∃ pre, ts = pre ++ rest ∧ ∀ o : Token, o.isPunct "(" = true → Sentence (o :: pre) p := by
  cases ts with
  | nil => simp [readNode] at reads
  | cons t more =>
    simp only [List.length_cons] at bound
    rw [readNode] at reads
    cases kindIs : (if t.cls == .word then Kind.ofValue? t.text else none) with
    | none =>
      simp only [kindIs] at reads
      cases reads
    | some k =>
      have word : t.cls = .word ∧ Kind.ofValue? t.text = some k := by
        split at kindIs <;> simp_all
      simp only [kindIs] at reads
      cases children : readChildren text fuel opening [] more with
      | error e =>
        simp only [children] at reads
        cases reads
      | ok read =>
        obtain ⟨qs, after⟩ := read
        simp only [children] at reads
        cases reads
        obtain ⟨body, closing, qs', rfl, closes, same, kids⟩ := ih.children (by omega) children
        simp only [List.reverse_nil, List.nil_append] at same
        subst same
        refine ⟨t :: (body ++ [closing]), by simp, fun o opens => ?_⟩
        exact .node opens word.1 word.2 kids closes

theorem ReadsSound.children_succ (ih : ReadsSound text fuel) {opening : Nat} {acc : List Pattern}
    {ts : List Token} {ps : List Pattern} {rest : List Token} (bound : 2 * ts.length + 2 ≤ fuel + 1)
    (reads : readChildren text (fuel + 1) opening acc ts = .ok (ps, rest)) :
    ∃ body closing qs, ts = body ++ closing :: rest ∧ closing.isPunct ")" = true ∧
      ps = acc.reverse ++ qs ∧ Children body qs := by
  cases ts with
  | nil => simp [readChildren] at reads
  | cons t more =>
    simp only [List.length_cons] at bound
    rw [readChildren.eq_def] at reads
    dsimp only at reads
    by_cases closes : t.isPunct ")" = true
    · rw [if_pos closes] at reads
      cases reads
      exact ⟨[], t, [], rfl, closes, by simp, .plain .nil⟩
    rw [if_neg closes] at reads
    by_cases dots : t.cls = .rest
    · rw [if_pos (beq_iff_eq.2 dots)] at reads
      -- `...` must stand right before the `)`, which then closes the children at once
      cases more with
      | nil => cases reads
      | cons c after =>
        simp only at reads
        by_cases closing : c.isPunct ")" = true
        · rw [if_pos closing] at reads
          obtain ⟨fuel, rfl⟩ : ∃ f, fuel = f + 1 := ⟨fuel - 1, by omega⟩
          rw [readChildren.eq_def] at reads
          dsimp only at reads
          rw [if_pos closing] at reads
          cases reads
          refine ⟨[t], c, [.rest], rfl, closing, by simp, ?_⟩
          simpa using Children.rest .nil dots
        · rw [if_neg closing] at reads
          cases reads
    rw [if_neg (by simpa using dots)] at reads
    cases one : readOne text fuel (t :: more) with
    | error e =>
      simp only [one] at reads
      cases reads
    | ok read =>
      obtain ⟨p, after⟩ := read
      have later : readChildren text fuel opening (p :: acc) after = .ok (ps, rest) := by
        rw [one] at reads
        exact reads
      obtain ⟨pre, split, sentence⟩ := ih.one (by simp only [List.length_cons]; omega) one
      have shorter := sentence.length_after split
      obtain ⟨body, closing, qs, rfl, closes', rfl, kids⟩ := ih.children (by omega) later
      exact ⟨pre ++ body, closing, p :: qs, by simp [split], closes', by simp, kids.cons sentence⟩

theorem ReadsSound.union_succ (ih : ReadsSound text fuel) {opening : Nat} {acc : List Pattern}
    {ts : List Token} {p : Pattern} {rest : List Token} (bound : 2 * ts.length + 2 ≤ fuel + 1)
    (reads : readUnion text (fuel + 1) opening acc ts = .ok (p, rest)) :
    ∃ body closing qs, ts = body ++ closing :: rest ∧ closing.isPunct "\x7d" = true ∧
      p = .anyOf (acc.reverse ++ qs) ∧ acc.reverse ++ qs ≠ [] ∧ Sentences body qs := by
  cases ts with
  | nil => simp [readUnion] at reads
  | cons t more =>
    simp only [List.length_cons] at bound
    rw [readUnion] at reads
    by_cases closes : t.isPunct "\x7d" = true
    · rw [if_pos closes] at reads
      by_cases empty : acc.isEmpty = true
      · rw [if_pos empty] at reads
        cases reads
      · rw [if_neg empty] at reads
        cases reads
        exact ⟨[], t, [], rfl, closes, by simp, by simpa using empty, .nil⟩
    rw [if_neg closes] at reads
    cases one : readOne text fuel (t :: more) with
    | error e =>
      simp only [one] at reads
      cases reads
    | ok read =>
      obtain ⟨q, after⟩ := read
      have later : readUnion text fuel opening (q :: acc) after = .ok (p, rest) := by
        rw [one] at reads
        exact reads
      obtain ⟨pre, split, sentence⟩ := ih.one (by simp only [List.length_cons]; omega) one
      have shorter := sentence.length_after split
      obtain ⟨body, closing, qs, rfl, closes', rfl, nonempty, sentences⟩ :=
        ih.union (by omega) later
      exact ⟨pre ++ body, closing, q :: qs, by simp [split], closes', by simp, by simp,
        .cons sentence sentences⟩

theorem ReadsSound.succ (ih : ReadsSound text fuel) : ReadsSound text (fuel + 1) :=
  ⟨ih.one_succ, ih.node_succ, ih.children_succ, ih.union_succ⟩

/-- **Whatever the readers return, with fuel for twice their tokens, is a derivation.** -/
theorem readsSound (text : String) : ∀ fuel, ReadsSound text fuel
  | 0 => ⟨fun bound => by omega, fun bound => by omega, fun bound => by omega,
      fun bound => by omega⟩
  | fuel + 1 => (readsSound text fuel).succ

end Sound

/-! ### Derivations are read -/

theorem Leaf.not_punct {t : Token} {p : Pattern} (leaf : Leaf t p) (c : String) :
    t.isPunct c = false := by
  cases leaf <;> simp_all [Token.isPunct]

section Steps

variable {text : String} {fuel opening : Nat} {acc : List Pattern}

theorem readChildren_closing {closing : Token} {rest : List Token}
    (closes : closing.isPunct ")" = true) :
    readChildren text (fuel + 1) opening acc (closing :: rest) = .ok (acc.reverse, rest) := by
  rw [readChildren.eq_def]
  dsimp only
  rw [if_pos closes]

theorem readChildren_dots {dots closing : Token} {rest : List Token} (dotted : dots.cls = .rest)
    (closes : closing.isPunct ")" = true) :
    readChildren text (fuel + 2) opening acc (dots :: closing :: rest) =
      .ok ((Pattern.rest :: acc).reverse, rest) := by
  rw [readChildren.eq_def]
  dsimp only
  rw [if_neg (by simp [Token.isPunct, dotted]), if_pos (beq_iff_eq.2 dotted), if_pos closes,
    readChildren_closing closes]

theorem readChildren_child {t : Token} {more : List Token}
    (notClosing : t.isPunct ")" = false) (notDots : t.cls ≠ .rest) :
    readChildren text (fuel + 1) opening acc (t :: more) =
      (readOne text fuel (t :: more)).bind fun read =>
        readChildren text fuel opening (read.1 :: acc) read.2 := by
  rw [readChildren.eq_def]
  dsimp only
  rw [if_neg (by simp [notClosing]), if_neg (by simpa using notDots)]
  rfl

theorem readUnion_closing {closing : Token} {rest : List Token}
    (closes : closing.isPunct "\x7d" = true) (nonempty : acc ≠ []) :
    readUnion text (fuel + 1) opening acc (closing :: rest) = .ok (.anyOf acc.reverse, rest) := by
  rw [readUnion, if_pos closes, if_neg (by simpa using nonempty)]

theorem readUnion_child {t : Token} {more : List Token} (notClosing : t.isPunct "\x7d" = false) :
    readUnion text (fuel + 1) opening acc (t :: more) =
      (readOne text fuel (t :: more)).bind fun read =>
        readUnion text fuel opening (read.1 :: acc) read.2 := by
  rw [readUnion, if_neg (by simp [notClosing])]
  rfl

end Steps

/-- With fuel for twice their tokens, the readers read a derivation followed by any tokens, and
leave those tokens. -/
structure ReadsComplete (text : String) (fuel : Nat) : Prop where
  one {pre rest : List Token} {p : Pattern} :
    Sentence pre p → 2 * (pre ++ rest).length + 1 ≤ fuel →
      readOne text fuel (pre ++ rest) = .ok (p, rest)
  node {opening : Nat} {word closing : Token} {k : Kind} {body rest : List Token}
      {ps : List Pattern} :
    word.cls = .word → Kind.ofValue? word.text = some k → Children body ps →
    closing.isPunct ")" = true → 2 * (word :: (body ++ closing :: rest)).length + 1 ≤ fuel →
      readNode text fuel opening (word :: (body ++ closing :: rest)) = .ok (.kind k ps, rest)
  children {opening : Nat} {acc : List Pattern} {closing : Token} {body rest : List Token}
      {ps : List Pattern} :
    Children body ps → closing.isPunct ")" = true →
    2 * (body ++ closing :: rest).length + 2 ≤ fuel →
      readChildren text fuel opening acc (body ++ closing :: rest) = .ok (acc.reverse ++ ps, rest)
  union {opening : Nat} {acc : List Pattern} {closing : Token} {body rest : List Token}
      {ps : List Pattern} :
    Sentences body ps → acc.reverse ++ ps ≠ [] → closing.isPunct "\x7d" = true →
    2 * (body ++ closing :: rest).length + 2 ≤ fuel →
      readUnion text fuel opening acc (body ++ closing :: rest) =
        .ok (.anyOf (acc.reverse ++ ps), rest)

section Complete

variable {text : String} {fuel : Nat}

theorem ReadsComplete.one_succ (ih : ReadsComplete text fuel) {pre rest : List Token}
    {p : Pattern} (sentence : Sentence pre p) (bound : 2 * (pre ++ rest).length + 1 ≤ fuel + 1) :
    readOne text (fuel + 1) (pre ++ rest) = .ok (p, rest) := by
  cases sentence with
  | leaf leaf =>
    rw [List.singleton_append, readOne, if_neg (by simp [leaf.not_punct]),
      if_neg (by simp [leaf.not_punct]), leaf_of_Leaf leaf]
    rfl
  | node opens word kind kids closes =>
    simp only [List.cons_append, List.append_assoc, List.nil_append, List.length_cons] at bound ⊢
    rw [readOne, if_pos opens]
    exact ih.node word kind kids closes (by simp only [List.length_cons]; omega)
  | union opens sentences nonempty closes =>
    simp only [List.cons_append, List.append_assoc, List.nil_append, List.length_cons] at bound ⊢
    rw [readOne, if_neg (by simp_all [Token.isPunct]), if_pos opens]
    exact ih.union sentences (by simpa using nonempty) closes (by omega)

theorem ReadsComplete.node_succ (ih : ReadsComplete text fuel) {opening : Nat}
    {word closing : Token} {k : Kind} {body rest : List Token} {ps : List Pattern}
    (isWord : word.cls = .word) (kind : Kind.ofValue? word.text = some k) (kids : Children body ps)
    (closes : closing.isPunct ")" = true)
    (bound : 2 * (word :: (body ++ closing :: rest)).length + 1 ≤ fuel + 1) :
    readNode text (fuel + 1) opening (word :: (body ++ closing :: rest)) =
      .ok (.kind k ps, rest) := by
  simp only [List.length_cons] at bound
  have kindIs : (if word.cls == .word then Kind.ofValue? word.text else none) = some k := by
    simp [isWord, kind]
  rw [readNode]
  simp only [kindIs]
  rw [ih.children kids closes (by omega)]
  rfl

/-- A child sentence, then the rest of the children. -/
theorem ReadsComplete.children_child (ih : ReadsComplete text fuel) {opening : Nat}
    {acc : List Pattern} {ts more rest : List Token} {closing : Token} {p : Pattern}
    {ps : List Pattern} (sentence : Sentence ts p) (kids : Children more ps)
    (closes : closing.isPunct ")" = true)
    (bound : 2 * (ts ++ (more ++ closing :: rest)).length + 2 ≤ fuel + 1) :
    readChildren text (fuel + 1) opening acc (ts ++ (more ++ closing :: rest)) =
      .ok (acc.reverse ++ p :: ps, rest) := by
  obtain ⟨t, tsMore, rfl, notClosing, -, notDots⟩ := sentence.first
  simp only [List.cons_append, List.length_append, List.length_cons] at bound
  rw [List.cons_append, readChildren_child notClosing notDots, ← List.cons_append,
    ih.one sentence (by simp only [List.cons_append, List.length_append, List.length_cons]; omega)]
  show readChildren text fuel opening (p :: acc) (more ++ closing :: rest) = _
  rw [ih.children kids closes (by simp only [List.length_append, List.length_cons]; omega)]
  simp

theorem ReadsComplete.children_succ (ih : ReadsComplete text fuel) {opening : Nat}
    {acc : List Pattern} {closing : Token} {body rest : List Token} {ps : List Pattern}
    (kids : Children body ps) (closes : closing.isPunct ")" = true)
    (bound : 2 * (body ++ closing :: rest).length + 2 ≤ fuel + 1) :
    readChildren text (fuel + 1) opening acc (body ++ closing :: rest) =
      .ok (acc.reverse ++ ps, rest) := by
  cases kids with
  | plain sentences =>
    cases sentences with
    | nil => simpa using readChildren_closing closes
    | cons sentence later =>
      rw [List.append_assoc]
      exact ih.children_child sentence (.plain later) closes (by simpa using bound)
  | rest sentences dotted =>
    cases sentences with
    | nil =>
      simp only [List.nil_append, List.singleton_append, List.length_cons] at bound ⊢
      obtain ⟨fuel, rfl⟩ : ∃ f, fuel = f + 1 := ⟨fuel - 1, by omega⟩
      simpa using readChildren_dots dotted closes
    | cons sentence later =>
      simpa using ih.children_child sentence (.rest later dotted) closes (by simpa using bound)

theorem ReadsComplete.union_succ (ih : ReadsComplete text fuel) {opening : Nat}
    {acc : List Pattern} {closing : Token} {body rest : List Token} {ps : List Pattern}
    (sentences : Sentences body ps) (nonempty : acc.reverse ++ ps ≠ [])
    (closes : closing.isPunct "\x7d" = true)
    (bound : 2 * (body ++ closing :: rest).length + 2 ≤ fuel + 1) :
    readUnion text (fuel + 1) opening acc (body ++ closing :: rest) =
      .ok (.anyOf (acc.reverse ++ ps), rest) := by
  cases sentences with
  | nil =>
    simp only [List.append_nil, List.nil_append] at nonempty ⊢
    exact readUnion_closing closes (by simpa using nonempty)
  | cons sentence later =>
    obtain ⟨t, tsMore, rfl, -, notClosing, -⟩ := sentence.first
    simp only [List.cons_append, List.length_append, List.length_cons] at bound
    rw [List.append_assoc, List.cons_append, readUnion_child notClosing, ← List.cons_append,
      ih.one sentence (by simp only [List.cons_append, List.length_append, List.length_cons]; omega)]
    show readUnion text fuel opening (_ :: acc) (_ ++ closing :: rest) = _
    rw [ih.union later (by simp) closes (by simp only [List.length_append, List.length_cons]; omega)]
    simp

theorem ReadsComplete.succ (ih : ReadsComplete text fuel) : ReadsComplete text (fuel + 1) :=
  ⟨ih.one_succ, ih.node_succ, ih.children_succ, ih.union_succ⟩

/-- **With fuel for twice their tokens, the readers read every derivation.** -/
theorem readsComplete (text : String) : ∀ fuel, ReadsComplete text fuel
  | 0 => ⟨fun _ bound => by omega, fun _ _ _ _ bound => by omega, fun _ _ bound => by omega,
      fun _ _ _ bound => by omega⟩
  | fuel + 1 => (readsComplete text fuel).succ

end Complete

/-! ### Failures -/

/-- The whole-number tokens of `ts` have values, none with too many digits. -/
def IntsFit (ts : List Token) : Prop := ∀ t ∈ ts, t.cls = .int → ∃ v, intValue t.text = .ok v

/-- A failure of text outside the grammar: a message, a character offset and the text. -/
def CompileError.IsMalformed (e : CompileError) : Prop :=
  ∃ message offset quoted, e = .malformed message offset quoted

theorem IntsFit.of_cons {t : Token} {ts : List Token} (fit : IntsFit (t :: ts)) : IntsFit ts :=
  fun u member => fit u (List.mem_cons_of_mem t member)

theorem IntsFit.of_append {pre ts : List Token} (fit : IntsFit (pre ++ ts)) : IntsFit ts :=
  fun u member => fit u (List.mem_append_right pre member)

/-- A leaf fails only on a whole number with too many digits. -/
theorem leaf_ne_error {t : Token} (fit : t.cls = .int → ∃ v, intValue t.text = .ok v)
    (e : CompileError) : leaf t ≠ .error e := by
  intro fails
  unfold leaf at fails
  cases cls : t.cls <;> simp only [cls] at fails
  case rest | punct | symbol => cases fails
  case int =>
    obtain ⟨v, value⟩ := fit cls
    rw [value] at fails
    cases fails
  case word =>
    split at fails
    · cases fails
    split at fails
    · cases fails
    split at fails <;> cases fails

/-- With fuel for twice their tokens and every whole number fitting, the readers fail only on
text outside the grammar. -/
structure ReadsMalformed (text : String) (fuel : Nat) : Prop where
  one {ts : List Token} {e : CompileError} :
    IntsFit ts → 2 * ts.length + 1 ≤ fuel → readOne text fuel ts = .error e → e.IsMalformed
  node {opening : Nat} {ts : List Token} {e : CompileError} :
    IntsFit ts → 2 * ts.length + 1 ≤ fuel → readNode text fuel opening ts = .error e →
      e.IsMalformed
  children {opening : Nat} {acc : List Pattern} {ts : List Token} {e : CompileError} :
    IntsFit ts → 2 * ts.length + 2 ≤ fuel → readChildren text fuel opening acc ts = .error e →
      e.IsMalformed
  union {opening : Nat} {acc : List Pattern} {ts : List Token} {e : CompileError} :
    IntsFit ts → 2 * ts.length + 2 ≤ fuel → readUnion text fuel opening acc ts = .error e →
      e.IsMalformed

section Malformed

variable {text : String} {fuel : Nat}

theorem ReadsMalformed.one_succ (ih : ReadsMalformed text fuel) {ts : List Token}
    {e : CompileError} (fit : IntsFit ts) (bound : 2 * ts.length + 1 ≤ fuel + 1)
    (fails : readOne text (fuel + 1) ts = .error e) : e.IsMalformed := by
  cases ts with
  | nil =>
    cases fails
    exact ⟨_, _, _, rfl⟩
  | cons t more =>
    simp only [List.length_cons] at bound
    rw [readOne] at fails
    by_cases opening : t.isPunct "(" = true
    · rw [if_pos opening] at fails
      exact ih.node fit.of_cons (by omega) fails
    rw [if_neg opening] at fails
    by_cases brace : t.isPunct "\x7b" = true
    · rw [if_pos brace] at fails
      exact ih.union fit.of_cons (by omega) fails
    rw [if_neg brace] at fails
    cases leafIs : leaf t with
    | error e' => exact absurd leafIs (leaf_ne_error (fit t List.mem_cons_self) e')
    | ok found =>
      cases found with
      | none =>
        simp only [leafIs] at fails
        cases fails
        exact ⟨_, _, _, rfl⟩
      | some q =>
        simp only [leafIs] at fails
        cases fails

theorem ReadsMalformed.node_succ (ih : ReadsMalformed text fuel) {opening : Nat}
    {ts : List Token} {e : CompileError} (fit : IntsFit ts) (bound : 2 * ts.length + 1 ≤ fuel + 1)
    (fails : readNode text (fuel + 1) opening ts = .error e) : e.IsMalformed := by
  cases ts with
  | nil =>
    cases fails
    exact ⟨_, _, _, rfl⟩
  | cons t more =>
    simp only [List.length_cons] at bound
    rw [readNode] at fails
    cases kindIs : (if t.cls == .word then Kind.ofValue? t.text else none) with
    | none =>
      simp only [kindIs] at fails
      cases fails
      exact ⟨_, _, _, rfl⟩
    | some k =>
      simp only [kindIs] at fails
      cases children : readChildren text fuel opening [] more with
      | error e' =>
        rw [children] at fails
        cases fails
        exact ih.children fit.of_cons (by omega) children
      | ok read =>
        rw [children] at fails
        cases fails

/-- After a child sentence, the rest of the tokens still fit and are fewer. -/
theorem ReadsMalformed.after_child {t : Token} {more after : List Token} {p : Pattern}
    (fit : IntsFit (t :: more)) (bound : 2 * (t :: more).length + 1 ≤ fuel)
    (one : readOne text fuel (t :: more) = .ok (p, after)) :
    IntsFit after ∧ after.length ≤ more.length := by
  obtain ⟨pre, split, sentence⟩ := (readsSound text fuel).one bound one
  exact ⟨by rw [split] at fit; exact fit.of_append, sentence.length_after split⟩

theorem ReadsMalformed.children_succ (ih : ReadsMalformed text fuel) {opening : Nat}
    {acc : List Pattern} {ts : List Token} {e : CompileError} (fit : IntsFit ts)
    (bound : 2 * ts.length + 2 ≤ fuel + 1)
    (fails : readChildren text (fuel + 1) opening acc ts = .error e) : e.IsMalformed := by
  cases ts with
  | nil =>
    cases fails
    exact ⟨_, _, _, rfl⟩
  | cons t more =>
    simp only [List.length_cons] at bound
    rw [readChildren.eq_def] at fails
    dsimp only at fails
    by_cases closes : t.isPunct ")" = true
    · rw [if_pos closes] at fails
      cases fails
    rw [if_neg closes] at fails
    by_cases dots : t.cls = .rest
    · rw [if_pos (beq_iff_eq.2 dots)] at fails
      cases more with
      | nil =>
        cases fails
        exact ⟨_, _, _, rfl⟩
      | cons c after =>
        simp only at fails
        by_cases closing : c.isPunct ")" = true
        · rw [if_pos closing] at fails
          exact ih.children fit.of_cons (by simp only [List.length_cons] at bound ⊢; omega) fails
        · rw [if_neg closing] at fails
          cases fails
          exact ⟨_, _, _, rfl⟩
    rw [if_neg (by simpa using dots)] at fails
    cases one : readOne text fuel (t :: more) with
    | error e' =>
      rw [one] at fails
      cases fails
      exact ih.one fit (by simp only [List.length_cons]; omega) one
    | ok read =>
      obtain ⟨p, after⟩ := read
      have later : readChildren text fuel opening (p :: acc) after = .error e := by
        rw [one] at fails
        exact fails
      obtain ⟨fitAfter, shorter⟩ :=
        ReadsMalformed.after_child fit (by simp only [List.length_cons]; omega) one
      exact ih.children fitAfter (by omega) later

theorem ReadsMalformed.union_succ (ih : ReadsMalformed text fuel) {opening : Nat}
    {acc : List Pattern} {ts : List Token} {e : CompileError} (fit : IntsFit ts)
    (bound : 2 * ts.length + 2 ≤ fuel + 1)
    (fails : readUnion text (fuel + 1) opening acc ts = .error e) : e.IsMalformed := by
  cases ts with
  | nil =>
    cases fails
    exact ⟨_, _, _, rfl⟩
  | cons t more =>
    simp only [List.length_cons] at bound
    rw [readUnion] at fails
    by_cases closes : t.isPunct "\x7d" = true
    · rw [if_pos closes] at fails
      by_cases empty : acc.isEmpty = true
      · rw [if_pos empty] at fails
        cases fails
        exact ⟨_, _, _, rfl⟩
      · rw [if_neg empty] at fails
        cases fails
    rw [if_neg closes] at fails
    cases one : readOne text fuel (t :: more) with
    | error e' =>
      rw [one] at fails
      cases fails
      exact ih.one fit (by simp only [List.length_cons]; omega) one
    | ok read =>
      obtain ⟨q, after⟩ := read
      have later : readUnion text fuel opening (q :: acc) after = .error e := by
        rw [one] at fails
        exact fails
      obtain ⟨fitAfter, shorter⟩ :=
        ReadsMalformed.after_child fit (by simp only [List.length_cons]; omega) one
      exact ih.union fitAfter (by omega) later

theorem ReadsMalformed.succ (ih : ReadsMalformed text fuel) : ReadsMalformed text (fuel + 1) :=
  ⟨ih.one_succ, ih.node_succ, ih.children_succ, ih.union_succ⟩

/-- **With fuel for twice their tokens, the readers fail only on text outside the grammar,
unless a whole number has too many digits.** -/
theorem readsMalformed (text : String) : ∀ fuel, ReadsMalformed text fuel
  | 0 => ⟨fun _ bound => by omega, fun _ bound => by omega, fun _ bound => by omega,
      fun _ bound => by omega⟩
  | fuel + 1 => (readsMalformed text fuel).succ

end Malformed

end RubyCheck.Pattern

import RubyCheck.Proofs.Pattern.Grammar

/-!
# Compiling pattern text

**`compile` returns a pattern exactly when the tokens of the text make one sentence of the
grammar, and then returns that sentence's tree; it fails only with a syntax error, unless a whole
number has more digits than `Text.maxDigits`.**

The whole-number tokens are an optional `-` and decimal digits of any script (`IntText`); their
digits are counted by `Text.isDigit`.
-/

namespace RubyCheck.Pattern

open RubyCheck.Tree

/-! ### Whole-number tokens -/

/-- A whole number as the tokenizer reads it: an optional `-`, then decimal digits. -/
def IntText (cs : List Char) : Prop :=
  ∃ sign digits, cs = sign ++ digits ∧ (sign = [] ∨ sign = ['-']) ∧
    ∀ c ∈ digits, Text.isDigit c = true

theorem intText_takeWhile (sign : List Char) (signed : sign = [] ∨ sign = ['-'])
    (body : List Char) : IntText (sign ++ body.takeWhile Text.isDigit) :=
  ⟨sign, _, rfl, signed, fun _ member => List.mem_takeWhile_imp member⟩

theorem take_length_takeWhile (p : Char → Bool) :
    ∀ l : List Char, l.take (l.takeWhile p).length = l.takeWhile p
  | [] => rfl
  | c :: more => by
    by_cases keep : p c = true
    · rw [List.takeWhile_cons_of_pos keep, List.length_cons, List.take_succ_cons,
        take_length_takeWhile p more]
    · rw [List.takeWhile_cons_of_neg keep]
      rfl

/-- The characters the whole-number rule takes are a whole number. -/
theorem intLength_intText {cs : List Char} {n : Nat} (length : intLength cs = some n) :
    IntText (cs.take n) := by
  simp only [intLength] at length
  split at length
  · rename_i rest
    split at length
    · cases length
    · cases length
      dsimp only
      rw [Nat.add_comm, List.take_succ_cons, take_length_takeWhile]
      exact intText_takeWhile ['-'] (Or.inr rfl) rest
  · split at length
    · cases length
    · cases length
      dsimp only
      rw [Nat.zero_add, take_length_takeWhile]
      exact intText_takeWhile [] (Or.inl rfl) cs

theorem intLength_of_lexeme {cs : List Char} {n : Nat} (lexes : lexeme cs = .token .int n) :
    intLength cs = some n := by
  unfold lexeme at lexes
  split at lexes
  · cases lexes
  rename_i c more
  -- blanks, a comment, `...` and punctuation come first
  split at lexes
  · cases lexes
  split at lexes
  · cases lexes
  split at lexes
  · cases lexes
  split at lexes
  · cases lexes
  -- then a symbol, and only then a whole number
  cases symbol : (if c == ':' then (symbolBody more).map (· + 1) else none) with
  | some m =>
    simp only [symbol] at lexes
    cases lexes
  | none =>
    simp only [symbol] at lexes
    cases length : intLength (c :: more) with
    | some m =>
      simp only [length] at lexes
      cases lexes
      rfl
    | none =>
      simp only [length] at lexes
      split at lexes <;> cases lexes

/-- **Every whole-number token is an optional `-` and decimal digits.** -/
theorem tokensFrom_intText : ∀ (fuel : Nat) (cs : List Char) (offset : Nat) {ts : List Token},
    tokensFrom fuel cs offset = .ok ts → ∀ t ∈ ts, t.cls = .int → IntText t.text.toList
  | 0, _, _, _, tokens => by
    rw [tokensFrom] at tokens
    cases tokens
    simp
  | fuel + 1, [], _, _, tokens => by
    simp only [tokensFrom, Except.ok.injEq] at tokens
    subst tokens
    simp
  | fuel + 1, c :: more, offset, ts, tokens => by
    rw [tokensFrom.eq_3 _ _ _ (by simp)] at tokens
    split at tokens
    · exact tokensFrom_intText fuel _ _ tokens
    · rename_i cls n lexes
      split at tokens
      · rename_i later_ts later
        cases tokens
        intro t member isInt
        rcases List.mem_cons.1 member with rfl | member
        · dsimp only at isInt
          subst isInt
          simpa using intLength_intText (intLength_of_lexeme lexes)
        · exact tokensFrom_intText fuel _ _ later t member isInt
      · cases tokens
    · cases tokens

/-- A whole number of at most `Text.maxDigits` digits has a value. -/
theorem intValue_of_intText {text : String} (shape : IntText text.toList)
    (fits : (text.toList.filter Text.isDigit).length ≤ Text.maxDigits) :
    ∃ v, intValue text = .ok v := by
  obtain ⟨sign, digits, spelled, signed, allDigits⟩ := shape
  have minus : Text.isDigit '-' = false := by decide
  rcases signed with rfl | rfl
  · -- no sign: the digits cannot start with one
    rw [List.nil_append] at spelled
    rw [spelled, List.filter_eq_self.2 allDigits] at fits
    simp only [intValue, spelled]
    split
    · rename_i more
      exact absurd (allDigits '-' List.mem_cons_self) (by simp [minus])
    · exact ⟨_, if_neg (by dsimp only; omega)⟩
  · have counted : (text.toList.filter Text.isDigit).length = digits.length := by
      rw [spelled, List.filter_append, List.filter_eq_self.2 allDigits]
      simp [minus]
    simp only [intValue, spelled, List.singleton_append]
    exact ⟨_, if_neg (by omega)⟩

/-! ### What `compile` returns -/

theorem compile_eq_ok_iff {text : String} {P : Pattern} :
    compile text = .ok P ↔ ∃ ts, tokenize text = .ok ts ∧ Sentence ts P := by
  unfold compile
  cases tokens : tokenize text with
  | error offset => simp
  | ok ts =>
    cases ts with
    | nil =>
      simp only [Except.ok.injEq, exists_eq_left', reduceCtorEq, false_iff]
      intro sentence
      exact absurd sentence.length_pos (by simp)
    | cons t more =>
      simp only [Except.ok.injEq, exists_eq_left']
      constructor
      · intro compiled
        cases reads : readOne text (2 * (t :: more).length + 2) (t :: more) with
        | error e =>
          rw [reads] at compiled
          cases compiled
        | ok read =>
          obtain ⟨p, after⟩ := read
          rw [reads] at compiled
          cases after with
          | cons u _ => cases compiled
          | nil =>
            cases compiled
            obtain ⟨pre, split, sentence⟩ := (readsSound text _).one (by omega) reads
            rw [List.append_nil] at split
            exact split ▸ sentence
      · intro sentence
        have reads : readOne text (2 * (t :: more).length + 2) ((t :: more) ++ []) = .ok (P, []) :=
          (readsComplete text _).one sentence (by simp only [List.append_nil]; omega)
        rw [List.append_nil] at reads
        rw [reads]
        rfl

theorem compile_error_isMalformed {text : String} {e : CompileError}
    (fit : ∀ ts, tokenize text = .ok ts → IntsFit ts) (fails : compile text = .error e) :
    e.IsMalformed := by
  unfold compile at fails
  cases tokens : tokenize text with
  | error offset =>
    rw [tokens] at fails
    cases fails
    exact ⟨_, _, _, rfl⟩
  | ok ts =>
    rw [tokens] at fails
    cases ts with
    | nil =>
      cases fails
      exact ⟨_, _, _, rfl⟩
    | cons t more =>
      dsimp only at fails
      cases reads : readOne text (2 * (t :: more).length + 2) (t :: more) with
      | error e' =>
        rw [reads] at fails
        cases fails
        exact (readsMalformed text _).one (fit _ tokens) (by omega) reads
      | ok read =>
        obtain ⟨p, after⟩ := read
        rw [reads] at fails
        cases after with
        | nil => cases fails
        | cons u _ =>
          cases fails
          exact ⟨_, _, _, rfl⟩

theorem wellFormed_of_compile {text : String} {P : Pattern} (compiled : compile text = .ok P) :
    WellFormed P := by
  obtain ⟨ts, -, sentence⟩ := compile_eq_ok_iff.1 compiled
  exact sentence.wellFormed

/-- **Compiling pattern text.** For a text whose whole-number tokens have at most
`Text.maxDigits` digits, `compile` returns a pattern exactly when the tokens of the text are one
sentence of the grammar, and then it returns that sentence's tree; otherwise it fails with a
syntax error, and with nothing else. Every pattern it returns is well formed. -/
theorem compile_reads_one_sentence (text : String)
    (digits : ∀ ts, tokenize text = .ok ts → ∀ t ∈ ts, t.cls = .int →
      (t.text.toList.filter Text.isDigit).length ≤ Text.maxDigits) :
    (∀ P, compile text = .ok P ↔ ∃ ts, tokenize text = .ok ts ∧ Sentence ts P) ∧
    (∀ e, compile text = .error e →
      ∃ message offset quoted, e = .malformed message offset quoted) ∧
    (∀ P, compile text = .ok P → WellFormed P) := by
  have fit : ∀ ts, tokenize text = .ok ts → IntsFit ts := fun ts tokens t member isInt =>
    intValue_of_intText (tokensFrom_intText _ _ _ tokens t member isInt)
      (digits ts tokens t member isInt)
  exact ⟨fun _ => compile_eq_ok_iff, fun _ fails => compile_error_isMalformed fit fails,
    fun _ compiled => wellFormed_of_compile compiled⟩

theorem compile_send_with_rest :
    (∀ ts, tokenize "(send _x :map ...)" = .ok ts → ∀ t ∈ ts, t.cls = .int →
      (t.text.toList.filter Text.isDigit).length ≤ Text.maxDigits) ∧
    ∃ ts, tokenize "(send _x :map ...)" = .ok ts ∧
      Sentence ts (.kind .send [.capture "x", .literal (.text "map"), .rest]) := by
  have digits : ∀ ts, tokenize "(send _x :map ...)" = .ok ts → ∀ t ∈ ts, t.cls = .int →
      (t.text.toList.filter Text.isDigit).length ≤ Text.maxDigits := by
    intro ts tokens
    cbv at tokens
    cases tokens
    decide
  exact ⟨digits, ((compile_reads_one_sentence _ digits).1 _).1 (by cbv)⟩

end RubyCheck.Pattern

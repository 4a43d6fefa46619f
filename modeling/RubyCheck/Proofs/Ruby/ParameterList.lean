import RubyCheck.Proofs.Ruby.Parameters
import Mathlib

/-!
# What a parameter list lowers to

**The argument nodes of a block's parameter list are its modelled parameters before the first
`;`, in order, wrapped into one `mlhs` exactly when some were kept and the last `,` before the
`;` follows them all, then the modelled parameters after the `;`, lowered as block locals.**

The walk over the list (`ParameterScan.step`) reads every child, named or not, and keeps two
flags: whether a `;` was seen, and the comma still *pending*, a `,` before the `;` that no kept
parameter followed. Comments, anonymous tokens and kinds the tree does not model are passed
over without touching the pending comma. Said without flags:

* `ordinaryParameters`: the children before the first `;` that lower to a parameter, in order;
* `localParameters`: those after it, lowered as block locals (an identifier becomes
  `shadowarg`, every other kind lowers as it would before the `;`);
* `pendingComma`: scanning the children before the `;` from the end, the first that is a `,`
  or a kept parameter, when it is a `,` (`pendingComma_eq_some_iff`).

* `step_ordinary`, `step_semicolon`, `step_local`: one step of the walk, before the `;`, at it,
  and after it;
* `foldl_ordinary`, `foldl_local`: the walk over the children before the `;` and after it;
* `blockParameters_of_pending`, `blockParameters_of_not_pending`: the argument nodes, with and
  without the wrapping;
* `mlhs_reaches_comma`: in a well-formed list the wrapping spans from the first kept parameter
  to the comma, never the point span a reversed pair would give;
* `blockParameters_spec`: the whole statement; so `|x,|` never lowers to one `arg`.
-/

namespace RubyCheck.Ruby.Lower

open RubyCheck.Source RubyCheck.Tree

section Spec

variable (b : Buffer)

/-- The argument node a child of a parameter list gives, if it is a named child other than a
comment and of a kind the tree models. -/
def listedParameter (blockLocal : Bool) (k : Cst) : Option Node :=
  if k.named && !k.isComment then parameter b k blockLocal else none

/-- The children of a parameter list before its first `;`. -/
def ordinaryChildren (params : Cst) : List Cst := params.children.takeWhile (·.type != ";")

/-- The children of a parameter list after its first `;`. -/
def localChildren (params : Cst) : List Cst := (params.children.dropWhile (·.type != ";")).drop 1

/-- The parameters a list keeps before its first `;`, in order. -/
def ordinaryParameters (params : Cst) : List Node :=
  (ordinaryChildren params).filterMap (listedParameter b false)

/-- The parameters a list keeps after its first `;`, lowered as block locals, in order. -/
def localParameters (params : Cst) : List Node :=
  (localChildren params).filterMap (listedParameter b true)

/-- The last `,` among children when no kept parameter follows it. -/
def pendingComma (cs : List Cst) : Option Cst :=
  (cs.reverse.find? fun k => k.type == "," || (listedParameter b false k).isSome).filter
    (·.type == ",")

end Spec

variable {b : Buffer}

/-! ### Children that are no parameter -/

/-- A punctuation token lowers to no parameter. -/
theorem parameter_of_punctuation {k : Cst} (blockLocal : Bool)
    (punct : k.type = "," ∨ k.type = ";") : parameter b k blockLocal = none := by
  rw [parameter.eq_1]
  rcases punct with punct | punct <;> simp [punct]

/-- Lowering as a block local makes a difference for identifiers only. -/
theorem listedParameter_local_of_not_identifier {k : Cst} (other : k.type ≠ "identifier") :
    listedParameter b true k = listedParameter b false k := by
  simp only [listedParameter]
  rw [parameter.eq_1, parameter.eq_1 b k false]
  simp [other]

/-- An identifier lowered as a block local is a `shadowarg`. -/
theorem listedParameter_local_identifier {k : Cst} {n : Node} (identifier : k.type = "identifier")
    (listed : listedParameter b true k = some n) : n.kind = .shadowarg := by
  simp only [listedParameter] at listed
  rw [parameter.eq_1] at listed
  split at listed
  · simp [identifier] at listed
    rw [← listed]
    rfl
  · cases listed

/-! ### The pending comma -/

theorem pendingComma_append_singleton (cs : List Cst) (k : Cst) :
    pendingComma b (cs ++ [k]) =
      if k.type = "," then some k
      else if (listedParameter b false k).isSome then none
      else pendingComma b cs := by
  by_cases comma : k.type = ","
  · simp [pendingComma, comma]
  · by_cases kept : (listedParameter b false k).isSome
    · simp [pendingComma, comma, kept]
    · simp [pendingComma, comma, kept]

/-- **The pending comma is the last `,` that no kept parameter follows.** -/
theorem pendingComma_eq_some_iff (cs : List Cst) (comma : Cst) :
    pendingComma b cs = some comma ↔
      ∃ pre post, cs = pre ++ comma :: post ∧ comma.type = "," ∧
        ∀ k ∈ post, k.type ≠ "," ∧ listedParameter b false k = none := by
  -- scanning from the end, the comma is the first child that is a comma or a kept parameter
  simp only [pendingComma, Option.filter_eq_some_iff, List.find?_eq_some_iff_append,
    List.reverse_eq_append_iff]
  constructor
  · rintro ⟨⟨-, after, before, reversed, passed⟩, isComma⟩
    refine ⟨before.reverse, after.reverse, by simpa using reversed, by simpa using isComma,
      fun k member => ?_⟩
    simpa using passed k (List.mem_reverse.1 member)
  · rintro ⟨pre, post, rfl, isComma, passed⟩
    refine ⟨⟨by simp [isComma], post.reverse, pre.reverse, by simp, fun k member => ?_⟩,
      by simpa using isComma⟩
    simpa using passed k (List.mem_reverse.1 member)

/-! ### One step of the walk -/

/-- Before the `;`: a `,` becomes the pending comma, and a kept parameter is added and clears it. -/
theorem step_ordinary (s : ParameterScan) (ordinary : s.blockLocals = false) (k : Cst)
    (notSemicolon : k.type ≠ ";") :
    ParameterScan.step b s k =
      { s with params := s.params ++ (listedParameter b false k).toList,
               trailingComma :=
                 if k.type = "," then some k
                 else if (listedParameter b false k).isSome then none
                 else s.trailingComma } := by
  obtain ⟨params, shadow, blockLocals, pending⟩ := s
  dsimp only at ordinary
  subst ordinary
  unfold ParameterScan.step listedParameter
  by_cases comma : k.type = ","
  · have none := parameter_of_punctuation (b := b) false (.inl comma)
    cases named : k.named <;> cases comment : k.isComment <;> simp [comma, none]
  · rcases lowered : parameter b k false with _ | p <;>
      cases named : k.named <;> cases comment : k.isComment <;> simp [comma, notSemicolon, lowered]

/-- The first `;` begins the block locals and keeps everything else. -/
theorem step_semicolon (s : ParameterScan) (k : Cst) (semicolon : k.type = ";") :
    ParameterScan.step b s k = { s with blockLocals := true } := by
  have none := parameter_of_punctuation (b := b) true (.inr semicolon)
  unfold ParameterScan.step
  simp [semicolon, none]

/-- After the `;`: a kept parameter is a block local, and nothing else changes. -/
theorem step_local (s : ParameterScan) (locals : s.blockLocals = true) (k : Cst) :
    ParameterScan.step b s k =
      { s with shadow := s.shadow ++ (listedParameter b true k).toList } := by
  obtain ⟨params, shadow, blockLocals, pending⟩ := s
  dsimp only at locals
  subst locals
  unfold ParameterScan.step listedParameter
  by_cases semicolon : k.type = ";"
  · have none := parameter_of_punctuation (b := b) true (.inr semicolon)
    cases named : k.named <;> cases comment : k.isComment <;> simp [semicolon, none]
  · rcases lowered : parameter b k true with _ | p <;>
      cases named : k.named <;> cases comment : k.isComment <;> simp [semicolon, lowered]

/-! ### The whole walk -/

/-- The walk over children with no `;`, from the start: the kept parameters and the pending
comma. -/
theorem foldl_ordinary (cs : List Cst) (plain : ∀ k ∈ cs, k.type ≠ ";") :
    cs.foldl (ParameterScan.step b) {} =
      { params := cs.filterMap (listedParameter b false), trailingComma := pendingComma b cs } := by
  induction cs using List.reverseRecOn with
  | nil => rfl
  | append_singleton cs k ih =>
    rw [List.foldl_append, ih fun j member => plain j (by simp [member]), List.foldl_cons,
      List.foldl_nil, step_ordinary _ rfl k (plain k (by simp)), pendingComma_append_singleton,
      List.filterMap_append]
    cases listed : listedParameter b false k <;> simp [listed]

/-- The walk once the `;` was seen: the kept parameters are block locals. -/
theorem foldl_local : ∀ (cs : List Cst) (s : ParameterScan), s.blockLocals = true →
    cs.foldl (ParameterScan.step b) s =
      { s with shadow := s.shadow ++ cs.filterMap (listedParameter b true) }
  | [], s, _ => by simp
  | k :: rest, s, locals => by
    rw [List.foldl_cons, step_local s locals k,
      foldl_local rest { s with shadow := s.shadow ++ (listedParameter b true k).toList } locals]
    cases listed : listedParameter b true k <;> simp [listed]

/-- The walk over a whole parameter list. -/
theorem foldl_parameters (params : Cst) :
    (params.children.foldl (ParameterScan.step b) {}).params = ordinaryParameters b params ∧
    (params.children.foldl (ParameterScan.step b) {}).shadow = localParameters b params ∧
    (params.children.foldl (ParameterScan.step b) {}).trailingComma =
      pendingComma b (ordinaryChildren params) := by
  have plain : ∀ k ∈ ordinaryChildren params, k.type ≠ ";" := by
    intro k member
    simpa using List.mem_takeWhile_imp member
  have split : params.children =
      ordinaryChildren params ++ params.children.dropWhile (·.type != ";") :=
    (List.takeWhile_append_dropWhile).symm
  rcases rest : params.children.dropWhile (fun k => k.type != ";") with _ | ⟨semicolon, after⟩
  · -- no `;`: every child is ordinary
    have locals : localChildren params = [] := by simp [localChildren, rest]
    rw [split, rest, List.append_nil, foldl_ordinary _ plain]
    simp [ordinaryParameters, localParameters, locals]
  · -- the first `;` starts the block locals
    have isSemicolon : semicolon.type = ";" := by
      have first := List.head_dropWhile_not (fun k : Cst => k.type != ";") (l := params.children)
        (by simp [rest])
      simpa [rest] using first
    have locals : localChildren params = after := by simp [localChildren, rest]
    rw [split, rest, List.foldl_append, foldl_ordinary _ plain, List.foldl_cons,
      step_semicolon _ _ isSemicolon, foldl_local _ _ rfl]
    simp [ordinaryParameters, localParameters, locals]

/-- With a comma pending and a parameter kept, the kept parameters are wrapped into one `mlhs`
reaching from the first of them to the comma. -/
theorem blockParameters_of_pending {params comma : Cst} {first : Node} {rest : List Node}
    (pending : pendingComma b (ordinaryChildren params) = some comma)
    (kept : ordinaryParameters b params = first :: rest) :
    blockParameters b params =
      .mk .mlhs ((first :: rest).map .node) (spanBetween first.span.start comma.stop) [] ::
        localParameters b params := by
  obtain ⟨params_eq, shadow_eq, comma_eq⟩ := foldl_parameters (b := b) params
  unfold blockParameters
  dsimp only
  rw [comma_eq, params_eq, shadow_eq, pending, kept]
  rfl

/-- With no comma pending or no parameter kept, the kept parameters stand as they are. -/
theorem blockParameters_of_not_pending {params : Cst}
    (plain : pendingComma b (ordinaryChildren params) = none ∨ ordinaryParameters b params = []) :
    blockParameters b params = ordinaryParameters b params ++ localParameters b params := by
  obtain ⟨params_eq, shadow_eq, comma_eq⟩ := foldl_parameters (b := b) params
  unfold blockParameters
  dsimp only
  rw [comma_eq, params_eq, shadow_eq]
  rcases plain with none | empty
  · rw [none]
  · rw [empty]
    cases pendingComma b (ordinaryChildren params) <;> rfl

/-- In a well-formed list, the pending comma ends after the first kept parameter starts, so the
`mlhs` wrapping the kept parameters spans from the one to the other. -/
theorem mlhs_reaches_comma {params comma : Cst} {first : Node} {rest : List Node}
    (formed : params.Formed) (pending : pendingComma b (ordinaryChildren params) = some comma)
    (kept : ordinaryParameters b params = first :: rest) :
    ∃ reach : first.span.start ≤ comma.stop,
      spanBetween first.span.start comma.stop = ⟨first.span.start, comma.stop, reach⟩ := by
  obtain ⟨params_eq, -, comma_eq⟩ := foldl_parameters (b := b) params
  obtain ⟨ordered, after⟩ := trailingComma_follows_params formed (comma_eq.trans pending)
  have reach : first.span.start ≤ comma.stop := by
    have := after first (by rw [params_eq, kept]; exact List.mem_cons_self)
    have := first.span.ordered
    omega
  exact ⟨reach, dif_pos reach⟩

/-- **The argument nodes of a parameter list.** The modelled parameters before the first `;`,
in order, wrapped into one `mlhs` from the first of them to the comma when the last `,` before
the `;` follows every kept parameter (in a well-formed list the comma ends after that first
parameter starts, so the two bound the span), left as they are otherwise; then the modelled parameters
after the `;`, lowered as block locals, so that identifiers become `shadowarg` and every other
kind lowers as before the `;`. A single parameter with a trailing comma, `|x,|`, never lowers to
one `arg`. -/
theorem blockParameters_spec (b : Buffer) (params : Cst) :
    (∀ comma, pendingComma b (ordinaryChildren params) = some comma ↔
      ∃ pre post, ordinaryChildren params = pre ++ comma :: post ∧ comma.type = "," ∧
        ∀ k ∈ post, k.type ≠ "," ∧ listedParameter b false k = none) ∧
    (∀ comma first rest, pendingComma b (ordinaryChildren params) = some comma →
      ordinaryParameters b params = first :: rest →
      blockParameters b params =
        .mk .mlhs ((first :: rest).map .node) (spanBetween first.span.start comma.stop) [] ::
          localParameters b params) ∧
    (params.Formed → ∀ comma first rest, pendingComma b (ordinaryChildren params) = some comma →
      ordinaryParameters b params = first :: rest →
      ∃ reach : first.span.start ≤ comma.stop,
        spanBetween first.span.start comma.stop = ⟨first.span.start, comma.stop, reach⟩) ∧
    (pendingComma b (ordinaryChildren params) = none ∨ ordinaryParameters b params = [] →
      blockParameters b params = ordinaryParameters b params ++ localParameters b params) ∧
    (∀ k ∈ localChildren params, ∀ n, k.type = "identifier" →
      listedParameter b true k = some n → n.kind = .shadowarg) ∧
    (∀ k ∈ localChildren params, k.type ≠ "identifier" →
      listedParameter b true k = listedParameter b false k) ∧
    (∀ x, ordinaryParameters b params = [x] →
      (pendingComma b (ordinaryChildren params)).isSome →
      ¬ ∃ n, blockParameters b params = [n] ∧ n.kind = .arg) := by
  refine ⟨pendingComma_eq_some_iff _, fun _ _ _ => blockParameters_of_pending,
    fun formed _ _ _ pending kept => mlhs_reaches_comma formed pending kept,
    blockParameters_of_not_pending,
    fun k _ n identifier listed => listedParameter_local_identifier identifier listed,
    fun k _ other => listedParameter_local_of_not_identifier other, fun x single pending => ?_⟩
  -- a single kept parameter under a pending comma is wrapped into an `mlhs`
  obtain ⟨comma, found⟩ := Option.isSome_iff_exists.1 pending
  rintro ⟨n, only, isArg⟩
  rw [blockParameters_of_pending found single, List.cons.injEq] at only
  rw [← only.1] at isArg
  cases isArg

end RubyCheck.Ruby.Lower

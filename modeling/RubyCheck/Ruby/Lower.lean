import RubyCheck.Ruby.Cst
import RubyCheck.Tree.Node
import RubyCheck.Source.Buffer
import RubyCheck.Text.Quoted

/-!
# Lowering concrete trees to syntax nodes

**From the grammar's tree to the tree the rules read.**

- A `call` becomes `send`, or `csend` when its operator is `&.`; its children are the receiver (or
  nothing), the method name (`call` when there is none) and the arguments. The send ends where
  its arguments end, else where its method name ends, else where its operator ends.
- A call with a block becomes `block`, holding the send, an `args` node and the body. A block
  without parameters whose body uses `_1` to `_9`, or `it` while no local `it` is declared before
  the block ends, becomes `numblock` with the highest number used; nested blocks and lambdas are
  not searched (`numberedArity`).
- Block parameters become the argument kinds; `|x,|` puts all of them into one `mlhs`; those
  after `;` are `shadowarg` (`blockParameters`).
- Literals keep their text; a construct with no node kind of its own becomes `opaque`, its first
  child naming the grammar type.
- Each `ERROR` node and each missing node adds `line N: syntax error near 'text'` when it is
  lowered (`report`); a tree with an error and no such message reports `Syntax error`.
-/

namespace RubyCheck.Ruby

open RubyCheck.Tree RubyCheck.Source

/-- The span from `a` to `b`. A reversed pair is no range; the offsets of a well-formed concrete
tree never give one, and here it reads as the empty span at `a`. -/
def spanBetween (a b : Nat) : Span :=
  if h : a ≤ b then { start := a, stop := b, ordered := h } else Span.point a

namespace Cst

/-- The span a node covers. -/
def span (c : Cst) : Span := spanBetween c.start c.stop

theorem sizeOf_lt_of_mem_children {type : String} {named : Bool} {field : Option String}
    {missing : Bool} {start stop : Nat} {cs : List Cst} {k : Cst} (member : k ∈ cs) :
    sizeOf k < sizeOf (Cst.mk type named field missing start stop cs) := by
  have := List.sizeOf_lt_of_mem member
  simp only [Cst.mk.sizeOf_spec]
  omega

/-- The children, each with the bound that makes recursion on it well founded. -/
def subs (c : Cst) : List { k : Cst // sizeOf k < sizeOf c } :=
  match c with
  | .mk _ _ _ _ _ _ cs => cs.attach.map fun k => ⟨k.1, sizeOf_lt_of_mem_children k.2⟩

/-- The named children other than comments, with their bounds. -/
def namedSubs (c : Cst) : List { k : Cst // sizeOf k < sizeOf c } :=
  c.subs.filter fun k => k.1.named && !k.1.isComment

/-- The first child under field `f`, with its bound. -/
def fieldSub (c : Cst) (f : String) : Option { k : Cst // sizeOf k < sizeOf c } :=
  c.subs.find? fun k => k.1.field == some f

end Cst

/-- Bounds below a child are bounds below its parent. -/
def liftSubs {a c : Cst} (h : sizeOf a < sizeOf c) (ks : List { k : Cst // sizeOf k < sizeOf a }) :
    List { k : Cst // sizeOf k < sizeOf c } :=
  ks.map fun k => ⟨k.1, Nat.lt_trans k.2 h⟩

namespace Lower

/-- Grammar types that open a fresh table of local variables. -/
def scopeTypes : List String :=
  ["program", "method", "singleton_method", "class", "module", "singleton_class"]

/-- Grammar types under which an identifier declares a local variable. -/
def declaringTypes : List String :=
  ["block_parameters", "method_parameters", "lambda_parameters", "parameters",
    "destructured_parameter", "splat_parameter", "hash_splat_parameter", "block_parameter",
    "left_assignment_list", "destructured_left_assignment", "rest_assignment",
    "exception_variable"]

/-- Grammar types under which only the identifier in one field declares a local variable. -/
def declaringField : String → Option String
  | "assignment" => some "left"
  | "operator_assignment" => some "left"
  | "optional_parameter" => some "name"
  | "keyword_parameter" => some "name"
  | "for" => some "pattern"
  | _ => none

/-- Grammar types whose bodies the search for numbered parameters does not enter. -/
def blockTypes : List String := ["block", "do_block", "lambda"]

/-- Grammar types that hold a block's statements. -/
def bodyTypes : List String := ["block_body", "body_statement"]

/-- The text of a node, each malformed octet sequence written as U+FFFD. -/
def text (b : Buffer) (c : Cst) : String := b.slice c.span

/-- The number `k` of a numbered parameter `_k`, for `k` from 1 to 9. -/
def numberedParameter (name : String) : Option Nat :=
  match name.toList with
  | ['_', d] => if '1' ≤ d && d ≤ '9' then some (d.toNat - '0'.toNat) else none
  | _ => none

/-- Whether the child `k` of `parent` declares a local variable, when it is an identifier. -/
def declares (parent k : Cst) : Bool :=
  declaringTypes.contains parent.type ||
    match declaringField parent.type with
    | some f =>
      match parent.childByField f with
      | some j => j.start == k.start && j.stop == k.stop && j.type == k.type && k.field == some f
      | none => false
    | none => false

/-- Whether some node below `c` (its named children and further down), starting before `limit`
and not inside a fresh scope, is an identifier spelled `name` that declares a local. -/
def declaredBelow (b : Buffer) (name : String) (limit : Nat) (c : Cst) : Bool :=
  c.subs.any fun k =>
    k.1.named &&
      !(limit ≤ k.1.start || scopeTypes.contains k.1.type) &&
      ((k.1.type == "identifier" && text b k.1 == name && declares c k.1) ||
        declaredBelow b name limit k.1)
termination_by sizeOf c
decreasing_by exact k.2

/-- Whether `name` is declared as a local variable visible inside a block: the search runs
through the block's nearest enclosing scope up to the end of the block, nested blocks
included. `ancestors` are the block's parent, its parent, and so on. -/
def declaresLocal (b : Buffer) (name : String) (blockStop : Nat) (ancestors : List Cst) : Bool :=
  match ancestors.find? fun a => scopeTypes.contains a.type with
  | some scope => declaredBelow b name blockStop scope
  | none => false

/-- The highest numbered parameter used in `c` outside nested blocks and lambdas, and whether
`it` is used there. -/
def numberedUses (b : Buffer) (c : Cst) : Nat × Bool :=
  if blockTypes.contains c.type then (0, false)
  else
    let own : Nat × Bool :=
      if c.type == "identifier" then
        let name := text b c
        match numberedParameter name with
        | some k => (k, false)
        | none => (0, name == "it")
      else (0, false)
    c.subs.foldl (fun acc k =>
      if k.1.named then
        let inner := numberedUses b k.1
        (max acc.1 inner.1, acc.2 || inner.2)
      else acc) own
termination_by sizeOf c
decreasing_by exact k.2

/-- The arity of a block without parameters: the highest numbered parameter its statements use,
and 1 for `it` when no local `it` is visible. -/
def numberedArity (b : Buffer) (statements : List Cst) (blockStop : Nat)
    (ancestors : List Cst) : Nat :=
  let uses := statements.map (numberedUses b)
  let numbered := uses.foldl (fun m u => max m u.1) 0
  let usesIt := uses.any (·.2)
  if usesIt && !declaresLocal b "it" blockStop ancestors then max numbered 1 else numbered

/-- The argument node of one block or method parameter, if it is a kind the tree models. -/
def parameter (b : Buffer) (c : Cst) (blockLocal : Bool) : Option Node :=
  if c.type == "identifier" then
    some (.mk (if blockLocal then .shadowarg else .arg) [.atom (.text (text b c))] c.span [])
  else if c.type == "destructured_parameter" then
    let inner := c.subs.filterMap fun k =>
      if k.1.named then parameter b k.1 false else none
    some (.mk .mlhs (inner.map .node) c.span [])
  else
    let name := match c.childByField "name" with
      | some n => text b n
      | none => ""
    let kind : Option Kind :=
      match c.type with
      | "optional_parameter" => some .optarg
      | "splat_parameter" => some .restarg
      | "hash_splat_parameter" => some .kwrestarg
      | "block_parameter" => some .blockarg
      | "keyword_parameter" =>
        some (if (c.childByField "value").isSome then .kwoptarg else .kwarg)
      | _ => none
    kind.map fun k => .mk k [.atom (.text name)] c.span []
termination_by sizeOf c
decreasing_by exact k.2

/-- What the walk over a parameter list has gathered. -/
structure ParameterScan where
  params : List Node := []
  shadow : List Node := []
  blockLocals : Bool := false
  trailingComma : Option Cst := none

/-- One child of a parameter list: `;` starts the block locals, a `,` before them may be a
trailing comma, and a modelled parameter is kept (which cancels the trailing comma). -/
def ParameterScan.step (b : Buffer) (s : ParameterScan) (child : Cst) : ParameterScan :=
  let s :=
    if child.type == ";" then { s with blockLocals := true }
    else if child.type == "," && !s.blockLocals then { s with trailingComma := some child }
    else s
  if !child.named || child.isComment then s
  else
    match parameter b child s.blockLocals with
    | none => s
    | some p =>
      if s.blockLocals then { s with shadow := s.shadow ++ [p] }
      else { s with params := s.params ++ [p], trailingComma := none }

/-- The argument nodes of a block's parameter list. A trailing comma after the last parameter
before any `;` wraps those parameters into one `mlhs` reaching to the comma. -/
def blockParameters (b : Buffer) (params : Cst) : List Node :=
  let s := params.children.foldl (ParameterScan.step b) {}
  let ordinary :=
    match s.trailingComma, s.params with
    | some comma, first :: _ =>
      [Node.mk .mlhs (s.params.map .node) (spanBetween first.span.start comma.stop) []]
    | _, _ => s.params
  ordinary ++ s.shadow

/-- Messages gathered while lowering. -/
abbrev Lowering := StateM (Array String)

/-- Adds the message for a recovery node or a missing node. -/
def report (b : Buffer) (c : Cst) : Lowering Unit := do
  let line := (b.lineAndColumn c.start).1
  let shown := String.ofList ((text b c).toList.take 40)
  modify (·.push s!"line {line}: syntax error near {Text.quoted shown}")

/-- The operator token of a call: its first child spelled `.`, `&.` or `::`. -/
def callOperator (c : Cst) : Option Cst :=
  c.children.find? fun k => k.type == "." || k.type == "&." || k.type == "::"

/-- The node for statements `nodes`, lowered from the concrete nodes `raw`: nothing, the one
statement, or a `begin` over all of them from the first concrete node's start to the last one's
end. -/
def sequence (raw : List Cst) (nodes : List Node) : Option Node :=
  match nodes with
  | [] => none
  | [n] => some n
  | _ :: _ :: _ =>
    let first := raw.head?.getD default
    let last := raw.getLast?.getD first
    some (.mk .begin (nodes.map .node) (spanBetween first.start last.stop) [])

/-- A node for each value of an optional child. -/
def slotOf : Option Node → Slot Node
  | some n => .node n
  | none => .atom .none

/-- The block node a call with a block lowers to, given the send. -/
def blockNode (b : Buffer) (call blk : Cst) (send : Node) (ancestors : List Cst)
    (statements : List Node) (rawStatements : List Cst) : Node :=
  let opening := blk.children.head?.getD blk
  let closing := blk.children.getLast?.getD blk
  let loc := [("begin", opening.span), ("end", closing.span)]
  match blk.childByField "parameters" with
  | none =>
    let arity := numberedArity b rawStatements blk.stop (call :: ancestors)
    if arity > 0 then
      .mk .numblock [.node send, .atom (.int arity), slotOf (sequence rawStatements statements)]
        call.span loc
    else
      .mk .block [.node send, .node (.mk .args [] (Span.point opening.stop) []),
        slotOf (sequence rawStatements statements)] call.span loc
  | some params =>
    .mk .block [.node send, .node (.mk .args ((blockParameters b params).map .node) params.span []),
      slotOf (sequence rawStatements statements)] call.span loc

/-- The statements of a block: the body's named children, or the body itself, or without a body
the block's named children other than its parameters. -/
def blockStatements (blk : Cst) : List { k : Cst // sizeOf k < sizeOf blk } :=
  match blk.fieldSub "body" with
  | none =>
    let named := blk.namedSubs
    if (blk.childByField "parameters").isSome then
      named.eraseP fun k => k.1.field == some "parameters"
    else named
  | some body =>
    if bodyTypes.contains body.1.type then liftSubs body.2 body.1.namedSubs else [body]

mutual

/-- Lowers one node; `ancestors` are its parent, its parent's parent, and so on. -/
def convert (b : Buffer) (ancestors : List Cst) (c : Cst) : Lowering Node := do
  if c.isError || c.missing then report b c
  let inner := c :: ancestors
  match c.type with
  | "call" => convertCall b ancestors c
  | "array" =>
    let items ← c.namedSubs.mapM fun k => convert b inner k.1
    return .mk .array (items.map .node) c.span []
  | "hash" =>
    let items ← c.namedSubs.mapM fun k => convert b inner k.1
    return .mk .hash (items.map .node) c.span []
  | "parenthesized_statements" =>
    let items ← c.namedSubs.mapM fun k => convert b inner k.1
    return .mk .begin (items.map .node) c.span []
  | "string" => return .mk .str [.atom (.text (text b c))] c.span []
  | "simple_symbol" => return .mk .sym [.atom (.text ((text b c).drop 1).toString)] c.span []
  | "constant" => return .mk .const [.atom .none, .atom (.text (text b c))] c.span []
  | "scope_resolution" =>
    let scope ← match c.fieldSub "scope" with
      | some k => some <$> convert b inner k.1
      | none => pure none
    let name := match c.childByField "name" with
      | some n => text b n
      | none => ""
    return .mk .const [slotOf scope, .atom (.text name)] c.span []
  | "integer" => return .mk .int [.atom (.text (text b c))] c.span []
  | "float" => return .mk .float [.atom (.text (text b c))] c.span []
  | "instance_variable" => return .mk .ivar [.atom (.text (text b c))] c.span []
  | "identifier" => return .mk .lvar [.atom (.text (text b c))] c.span []
  | "nil" => return .mk .nil [] c.span []
  | "true" => return .mk .true [] c.span []
  | "false" => return .mk .false [] c.span []
  | "self" => return .mk .self [] c.span []
  | _ =>
    let items ← c.namedSubs.mapM fun k => convert b inner k.1
    return .mk .other (.atom (.text c.type) :: items.map .node) c.span []
termination_by (sizeOf c, 1)
decreasing_by all_goals first
  | exact Prod.Lex.left _ _ k.2
  | exact Prod.Lex.right _ (by decide)

/-- Lowers a call to a send, and a call with a block to a block around that send. -/
def convertCall (b : Buffer) (ancestors : List Cst) (c : Cst) : Lowering Node := do
  let inner := c :: ancestors
  let receiver ← match c.fieldSub "receiver" with
    | some k => some <$> convert b inner k.1
    | none => pure none
  let method := c.childByField "method"
  let name := match method with
    | some m => text b m
    | none => "call"
  let arguments := c.fieldSub "arguments"
  let args ← match arguments with
    | some a => (liftSubs a.2 a.1.namedSubs).mapM fun k => convert b (a.1 :: inner) k.1
    | none => pure []
  let operator := callOperator c
  let loc :=
    (match method with
      | some m => [("selector", m.span)]
      | none => []) ++
    (match operator with
      | some o => [("dot", o.span)]
      | none => [])
  let sendStop :=
    match arguments, method, operator with
    | some a, _, _ => a.1.stop
    | none, some m, _ => m.stop
    | none, none, some o => o.stop
    | none, none, none => c.start
  let kind : Kind := if (operator.map (·.type)) == some "&." then .csend else .send
  let send : Node :=
    .mk kind ([slotOf receiver, .atom (.text name)] ++ args.map .node)
      (spanBetween c.start sendStop) loc
  match c.fieldSub "block" with
  | none => return send
  | some blk =>
    let raw := liftSubs blk.2 (blockStatements blk.1)
    let statements ← raw.mapM fun k => convert b (blk.1 :: inner) k.1
    return blockNode b c blk.1 send ancestors statements (raw.map (·.1))
termination_by (sizeOf c, 0)
decreasing_by all_goals exact Prod.Lex.left _ _ k.2

end

/-- The root of a program: a `begin` over the program's statements, covering the whole text. -/
def program (b : Buffer) (root : Cst) : Lowering Node := do
  let items ← root.namedSubs.mapM fun k => convert b [root] k.1
  return .mk .begin (items.map .node) (spanBetween 0 b.size) []

end Lower

/-- What reading a Ruby text gives: the tree, the buffer it was read from, and the messages for
malformed text. -/
structure ParseResult where
  tree : Tree.Node
  buffer : Source.Buffer
  errors : List String

/-- Lowers a program's concrete tree read from `b`. -/
def ParseResult.ofCst (b : Buffer) (root : Cst) : ParseResult :=
  let (tree, messages) := (Lower.program b root).run #[]
  let errors :=
    if root.hasError && messages.isEmpty then ["Syntax error"] else messages.toList
  { tree, buffer := b, errors }

end RubyCheck.Ruby

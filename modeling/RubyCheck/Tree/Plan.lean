import RubyCheck.Tree.Store

/-!
# Building trees from a plan

A plan describes a tree to build into a store: a node (its kind written as a word, children,
span, named sub-spans, and an optional label), a reference to a labelled node built earlier, a
node wrapped a number of times in one-child nodes of a kind, or an atom.

Building is depth first and left to right. For a node, the kind word is read first, then the
children are built, then the named sub-spans and the span are read, then the node is constructed.
The first failure ends the whole build.
-/

namespace RubyCheck.Tree

open RubyCheck.Source

/-- A description of a tree to build. -/
inductive Plan where
  | node (kind : String) (children : List Plan) (span : Option (Int × Int))
      (loc : List (String × (Int × Int))) (label : Option String)
  | ref (label : String)
  | wrap (kind : String) (times : Nat) (inner : Plan) (span : Int × Int)
  | atom (a : Atom)

instance : Inhabited Plan := ⟨.atom .none⟩

/-- Why a plan cannot be built. -/
inductive PlanError where
  | unknownKind (word : String)
  | invalidSpan (e : InvalidSpan)
  | malformed (m : Malformed)
  | unknownLabel (label : String)

/-- The message of each failure. -/
def PlanError.message : PlanError → String
  | .unknownKind w => s!"{Text.quoted w} is not a valid NodeKind"
  | .invalidSpan e => e.message
  | .malformed m => m.message
  | .unknownLabel l => Text.quoted l

/-- A store being filled, with the labels given so far. -/
structure Workshop where
  store : Store := {}
  labels : List (String × Nat) := []

/-- The kind a word writes, or the failure. -/
def kindOf (word : String) : Except PlanError Kind :=
  match Kind.ofValue? word with
  | some k => .ok k
  | none => .error (.unknownKind word)

/-- The span of two offsets, or the failure. -/
def spanOf (offsets : Int × Int) : Except PlanError Span :=
  (Span.make? offsets.1 offsets.2).mapError .invalidSpan

/-- Constructs a node in the workshop's store. -/
def Workshop.construct (w : Workshop) (kind : Kind) (children : List (Slot Nat))
    (span : Option Span) (loc : List (String × Span)) : Except PlanError (Workshop × Nat) :=
  match w.store.construct kind children span loc with
  | (store, .ok id) => .ok ({ w with store }, id)
  | (_, .error m) => .error (.malformed m)

/-- Wraps a child in `times` one-child nodes of `kind`. -/
def Workshop.wrapIn (kind : Kind) (span : Span) :
    Nat → Workshop → Slot Nat → Except PlanError (Workshop × Slot Nat)
  | 0, w, slot => .ok (w, slot)
  | times + 1, w, slot => do
    let (w, outer) ← w.construct kind [slot] (some span) []
    Workshop.wrapIn kind span times w (.node outer)

mutual

/-- Builds one planned child into the workshop. -/
def Workshop.build (w : Workshop) : Plan → Except PlanError (Workshop × Slot Nat)
  | .atom a => .ok (w, .atom a)
  | .ref label =>
    match w.labels.find? (·.1 == label) with
    | some (_, id) => .ok (w, .node id)
    | none => .error (.unknownLabel label)
  | .node word children span loc label => do
    let kind ← kindOf word
    let (w, slots) ← w.buildAll children
    let loc ← loc.mapM fun (name, offsets) => do return (name, ← spanOf offsets)
    let span ← match span with
      | some offsets => some <$> spanOf offsets
      | none => pure none
    let (w, id) ← w.construct kind slots span loc
    let w := match label with
      | some l => { w with labels := (l, id) :: w.labels }
      | none => w
    return (w, .node id)
  | .wrap word times inner offsets => do
    let (w, slot) ← w.build inner
    if times = 0 then return (w, slot)
    let kind ← kindOf word
    let span ← spanOf offsets
    Workshop.wrapIn kind span times w slot

/-- Builds planned children, left to right. -/
def Workshop.buildAll (w : Workshop) : List Plan → Except PlanError (Workshop × List (Slot Nat))
  | [] => .ok (w, [])
  | p :: ps => do
    let (w, slot) ← w.build p
    let (w, slots) ← w.buildAll ps
    return (w, slot :: slots)

end

/-- Builds a plan into an empty store, giving the value of its root. -/
def Plan.build (p : Plan) : Except PlanError (Slot Node) := do
  let (w, slot) ← ({} : Workshop).build p
  match slot with
  | .node id => return .node (w.store.tree id)
  | .atom a => return .atom a

end RubyCheck.Tree

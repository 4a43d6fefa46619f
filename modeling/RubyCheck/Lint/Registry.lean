import RubyCheck.Lint.UseZip

/-!
# The rule registry

**The known rules, looked up by id or name, and chosen by select and ignore lists.**

The registry starts with the built-in rule. A rule whose id is taken is refused. An entry of a
select or ignore list chooses a rule when it is the rule's id, its name, or its department. A
rule is enabled when some select entry chooses it (every rule, without a select list) and no
ignore entry does.
-/

namespace RubyCheck.Lint

/-- The rules known, in order of registration. -/
structure Registry where
  rules : List Rule

namespace Registry

/-- The registry of the built-in rules. -/
def builtin : Registry := ⟨[useZip]⟩

/-- Why a rule cannot be registered. -/
structure Taken where
  id : String

/-- The message of a taken id. -/
def Taken.message (t : Taken) : String := s!"Rule {t.id} is already registered"

/-- Adds a rule, unless its id is taken. -/
def register (reg : Registry) (r : Rule) : Except Taken Registry :=
  if reg.rules.any (·.id == r.id) then .error ⟨r.id⟩ else .ok ⟨reg.rules ++ [r]⟩

/-- The first rule with this id or name. -/
def get? (reg : Registry) (key : String) : Option Rule :=
  reg.rules.find? fun r => r.id == key || r.name == key

/-- Whether an entry of a select or ignore list chooses a rule. -/
def chooses (entry : String) (r : RuleInfo) : Bool :=
  entry == r.id || entry == r.name || entry == r.department

/-- The rules some select entry chooses (all, without a list) and no ignore entry does. -/
def enabled (reg : Registry) (select : Option (List String)) (ignore : List String) : List Rule :=
  reg.rules.filter fun r =>
    (select.map fun es => es.any (chooses · r.toRuleInfo)).getD true &&
      !ignore.any (chooses · r.toRuleInfo)

end Registry

end RubyCheck.Lint

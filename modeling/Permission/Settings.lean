import Permission.Policy
import Permission.Conditions.Document

namespace Permission

/-!
# Settings

Settings are a policy in JSON: how the rule in effect is picked, where conditions
are evaluated, and the rules in the order of their definition.
-/

/-- A policy as it is written down. -/
structure Settings where
  precedence : Precedence
  enforcement : Enforcement
  rules : List Rule

namespace Settings

def equals
    (left right : Settings) :
    Bool :=
  left.precedence == right.precedence &&
    left.enforcement == right.enforcement && left.rules == right.rules

instance : BEq Settings :=
  ⟨equals⟩

/-- The policy that settings describe. -/
def toPolicy
    (settings : Settings) :
    Policy :=
  ⟨⟨settings.rules, settings.precedence⟩, settings.enforcement⟩

end Settings

def Rule.toJson
    (rule : Rule) :
    Json :=
  .object
    [("action", .string rule.action.name),
      ("subject", .string rule.subject.name),
      ("conditions", rule.conditions.toJson),
      ("grants", .boolean rule.grants)]

def Precedence.toJson
    (precedence : Precedence) :
    Json :=
  .string precedence.name

namespace Enforcement

/-- The two ways to enforce a query, without their options. -/
inductive Mode where
  | inMemory
  | pushdown
  deriving DecidableEq, Repr

def Mode.name : Mode → String
  | inMemory =>
      "in_memory"
  | pushdown =>
      "pushdown"

def toJson : Enforcement → Json
  | inMemory =>
      .object [("mode", .string Mode.inMemory.name)]
  | pushdown fallback =>
      .object
        [("mode", .string Mode.pushdown.name), ("fallback", .boolean fallback)]

end Enforcement

def Settings.toJson
    (settings : Settings) :
    Json :=
  .object
    [("precedence", settings.precedence.toJson),
      ("evaluation", settings.enforcement.toJson),
      ("rules", .array (settings.rules.map Rule.toJson))]

def Capabilities.toJson
    (capabilities : Capabilities) :
    Json :=
  .object
    [("ranges", .boolean capabilities.ranges),
      ("embedded", .boolean capabilities.embedded)]

end Permission

/-
  This file defines scripts: rules that answer texts. The first
  rule that matches a text answers it; a rule may be limited to
  a number of answers.

  Key definitions include:
    * `Bench.Rule`
    * `Bench.Rule.Matches`
    * `Bench.Script.answer?`
-/

namespace Fota

namespace Bench

------------------------------------------------------------
-- Rules
------------------------------------------------------------

/-
  A rule answers the texts that equal its pattern or, if it is
  open, begin with it. `left` is the number of answers that it
  still gives, if there is a limit.
-/
structure Rule
    (α : Type) where
  pattern : List UInt8
  isOpen : Bool
  left : Option Nat
  answer : α
deriving Repr

namespace Rule

variable {α : Type}

/- A rule matches a text, and still answers. -/
def Matches
    (text : List UInt8)
    (rule : Rule α) : Prop :=
  (text = rule.pattern ∨
    rule.isOpen ∧ rule.pattern.isPrefixOf text) ∧
    rule.left ≠ some 0

instance
    (text : List UInt8)
    (rule : Rule α) :
    Decidable (rule.Matches text) := by
  unfold Matches
  infer_instance

/- A rule after one answer. -/
def spend
    (rule : Rule α) : Rule α :=
  { rule with left := rule.left.map (· - 1) }

end Rule

------------------------------------------------------------
-- Scripts
------------------------------------------------------------

/- A script is a list of rules, tried in order. -/
abbrev Script
    (α : Type) :=
  List (Rule α)

namespace Script

variable {α : Type}

/- The answer to a text, if a rule matches, and the script left. -/
def answer?
    (text : List UInt8) :
    Script α → Option α × Script α
| [] => (none, [])
| rule :: rules =>
    if rule.Matches text then
      (some rule.answer, rule.spend :: rules)
    else
      let answered := answer? text rules
      (answered.1, rule :: answered.2)

end Script

end Bench

end Fota

import VmControl.Error

/-!
# Rules

A rule names what is wrong when it is broken.  Rules are enforced in order, and the first broken
one turns the line down.

## Main statements

* `Rule.enforce_eq_ok`: a line passes exactly if it breaks no rule.
-/

namespace VmControl

/-- A rule between several parts of a line, as it turns out for the line. -/
structure Rule where
  /-- What is wrong when the rule is broken. -/
  violation : Violation
  /-- Whether it is broken. -/
  broken : Bool
  deriving DecidableEq, Repr

namespace Rule

/-- Passes if no rule is broken, and fails for the first that is. -/
def enforce : List Rule → Except CommandError Unit
  | [] => .ok ()
  | r :: rules => if r.broken then .error r.violation.error else enforce rules

/-- **A line passes exactly if it breaks no rule.** -/
theorem enforce_eq_ok {rules : List Rule} :
    enforce rules = .ok () ↔ ∀ r ∈ rules, r.broken = false := by
  induction rules with
  | nil => simp [enforce]
  | cons r rules ih => cases h : r.broken <;> simp [enforce, h, ih]

end Rule

end VmControl

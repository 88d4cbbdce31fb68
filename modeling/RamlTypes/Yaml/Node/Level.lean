import RamlTypes.Yaml.Token

/-!
# Failures by levels

A document is read level by level, and the first failure counts: of several ones the one on the
highest level, and on one level the one that comes first.
-/

namespace RamlTypes.Yaml

/-- A result, or a failure and how many levels further down it is. -/
abbrev Levelled (α : Type) := Except (Nat × Failure) α

namespace Levelled

variable {α β γ : Type}

/-- A failure on this level. -/
def fail (failure : Failure) : Levelled α := .error (0, failure)

/-- A result from one level further down. -/
def below (x : Levelled α) : Levelled α := x.mapError fun (level, failure) => (level + 1, failure)

/-- Two results, the second of which comes later in the text. -/
def both (combine : α → β → γ) (x : Levelled α) (y : Levelled β) : Levelled γ :=
  match x, y with
  | .ok a, .ok b => .ok (combine a b)
  | .error first, .ok _ => .error first
  | .ok _, .error second => .error second
  | .error first, .error second => .error (if first.1 ≤ second.1 then first else second)

end Levelled

end RamlTypes.Yaml

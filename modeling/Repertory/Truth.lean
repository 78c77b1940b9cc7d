/-!
# Three truth values

A condition on a row with nulls may be neither true nor false. Undecided is `none`; the connectives
are Kleene's, so that a part decides the whole exactly when every completion of the other parts
would give the same answer.
-/

namespace Repertory

/-- True, false or undecided. -/
abbrev Truth := Option Bool

namespace Truth

def not : Truth → Truth
  | some b => some !b
  | none => none

def and : Truth → Truth → Truth
  | some false, _ => some false
  | _, some false => some false
  | some true, some true => some true
  | _, _ => none

def or : Truth → Truth → Truth
  | some true, _ => some true
  | _, some true => some true
  | some false, some false => some false
  | _, _ => none

def any : List Truth → Truth
  | [] => some false
  | t :: ts => or t (any ts)

end Truth
end Repertory

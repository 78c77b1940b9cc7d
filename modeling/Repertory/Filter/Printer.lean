import Repertory.Filter.Basic

/-!
# The written form of a filter

Conjunctions and disjunctions stand in parentheses, so the nesting is visible; text stands in
double quotes as it is.
-/

namespace Repertory
namespace Filter

variable {α ι : Type} [Identity ι]

def display : Filter α ι → String
  | and a b => "(" ++ a.display ++ " and " ++ b.display ++ ")"
  | or a b => "(" ++ a.display ++ " or " ++ b.display ++ ")"
  | not a => "not " ++ a.display
  | cmp op field value => field.name ++ " " ++ op.keyword ++ " " ++ value.display
  | has field value => field.name ++ " has " ++ value.display
  | oneOf field values => field.name ++ " in " ++ (Value.list values).display
  | contains fields needle =>
    "search(" ++ "|".intercalate (fields.map Field.name) ++ ", \"" ++ needle ++ "\")"
  | random seed op pivot =>
    "random(" ++ Number.unsignedText seed ++ ") " ++ op.keyword ++ " " ++ Identity.text pivot
  | satisfies _ => "<predicate>"

end Filter
end Repertory

import Repertory.Order.Basic

/-!
# The rows behind a row

`keysetAfter order reference` is the filter for the rows strictly behind `reference`: those that
come later by the first key, or tie on it and come later by the second, and so on. It does not
depend on how many rows come before, so a page can go on where the last one ended even when rows
have come and gone in between.
-/

namespace Repertory
namespace OrderKey

variable {α ι : Type} [Identity ι] [Resource α ι]

def later (key : OrderKey α) : CmpOp :=
  if key.descending then .lt else .gt

/-- The rows that come later than `reference` by this key, if there can be any. Behind a null come
all other values where nulls stand first, and nothing where they stand last. -/
def after (key : OrderKey α) (reference : α) : Option (Filter α ι) :=
  match key.target with
  | .random seed => some (.random seed key.later (Resource.id reference))
  | .field field =>
    let value := field.get reference
    if value.isNull then
      if key.nullsFirst then some (.cmp .ne field .null) else none
    else if field.nullable && !key.nullsFirst then
      some (.or (.cmp key.later field value) (.cmp .eq field .null))
    else some (.cmp key.later field value)

def tie (key : OrderKey α) (reference : α) : Filter α ι :=
  match key.target with
  | .random seed => .random seed .eq (Resource.id reference)
  | .field field => .cmp .eq field (field.get reference)

end OrderKey

namespace OrderBy

variable {α ι : Type} [Identity ι] [Resource α ι]

/-- One filter for each key by which a row can be the first to come later, given the filters that
tie the keys before. -/
def afterClauses (reference : α) :
    List (Filter α ι) → OrderBy α → List (Option (Filter α ι))
  | _, [] => []
  | ties, key :: rest =>
    (key.after reference).bind (fun later => Filter.all (ties.map some ++ [some later])) ::
      afterClauses reference (ties ++ [key.tie reference]) rest

def keysetAfter (keys : OrderBy α) (reference : α) : Option (Filter α ι) :=
  Filter.any (afterClauses reference [] keys)

end OrderBy
end Repertory

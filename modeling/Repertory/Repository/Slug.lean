import Repertory.Repository.Error
import Repertory.Text.Blank

/-!
# Rules for slugs and for edits

A slug has to lead back to its row, so it cannot be blank, cannot be the word that picks a row at
random, and cannot read as an id.
-/

namespace Repertory

def randomSlug : String := "random"

variable {α ι : Type} [Identity ι] [Resource α ι]

def validateSlug (item : α) : Except RepositoryError Unit :=
  let slug := Resource.slug item
  let refuse (message entityId : String) : Except RepositoryError Unit :=
    .error ((RepositoryError.validationFailed message).withEntity (Resource.kind α) entityId)
  if Text.isBlankText slug then
    refuse "Resource can not have an empty slug" (Identity.text (Resource.id item))
  else if slug = randomSlug then refuse "Resources can not have 'random' as a slug" slug
  else if (Identity.read (ι := ι) slug).isSome then
    refuse "Resource slugs can not be valid ids" slug
  else .ok ()

/-- The parts of `changes` that point to other rows, for an edit of `current`. A part that the
changes do not mention stays as it is, unless the caller wants it reset. -/
def keepRelations (current : α) (resetOld : Bool) (changes : α) : α :=
  if resetOld then changes
  else
    (Resource.schema (α := α)).relations.foldl
      (fun row slot => if slot.isSet row then row else slot.carry current row) changes

end Repertory

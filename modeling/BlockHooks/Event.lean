/-
BlockHooks/Event.lean

Events that message handlers emit: a kind and attributes in the order they
were given.  A key may be given more than once; its first value counts.
-/

namespace BlockHooks

/-- What a handler tells of a message that it has carried out. -/
structure Event where
  kind : String
  attributes : List (String × String)
  deriving DecidableEq, Repr

/-- The first value under `key`. -/
def Event.attribute? (e : Event) (key : String) : Option String := e.attributes.lookup key

end BlockHooks

/-!
# Operations

The five operations of the service, as messages and observers name them.
-/

namespace CacheAside

inductive Operation where
  | list
  | get
  | create
  | update
  | delete
  deriving DecidableEq, Repr

namespace Operation

/-- All operations in the order in which messages list them. -/
def all : List Operation := [.list, .get, .create, .update, .delete]

def name : Operation → String
  | .list => "list"
  | .get => "get"
  | .create => "create"
  | .update => "update"
  | .delete => "delete"

/-- The operation of a name. -/
def ofName? (name : String) : Option Operation :=
  all.find? fun op => op.name == name

end Operation

end CacheAside

import Permission.Conditions.Compile

namespace Permission

/-!
# Stores

A store holds records of one kind and executes filters over them: it selects the
records that pass, and says whether it holds a given record that does.  Either
may fail.  Fetching a compiled result is selecting with its lowered filter.
-/

structure StoreFailure where
  reason : String
  deriving DecidableEq, Repr

/-- A store of records of type `ρ`. -/
structure Store (ρ : Type) where
  kind : String
  capabilities : Capabilities
  /-- The records that pass a filter. -/
  select : Filter → Except StoreFailure (List ρ)
  /-- The store holds the record, and it passes the filter. -/
  includes : Filter → ρ → Except StoreFailure Bool

namespace Store

variable {ρ : Type}

def fetch
    (store : Store ρ)
    (compiled : Compiled) :
    Except StoreFailure (List ρ) :=
  store.select compiled.lower

/-- A store that fails whatever it is asked. -/
def failing
    (kind : String)
    (failure : StoreFailure) :
    Store ρ where
  kind := kind
  capabilities := .full
  select := fun _ => .error failure
  includes := fun _ _ => .error failure

end Store

end Permission

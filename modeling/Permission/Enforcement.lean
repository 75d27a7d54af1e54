import Permission.Query
import Permission.Store

namespace Permission

/-!
# Enforcement

A query is answered either in memory, by checking records that were fetched, or
by pushing it down: the conditions are compiled and the store executes the
filter.  When the store cannot express the conditions, pushing down refuses or,
if a fallback is allowed, is answered in memory.
-/

/-- Why a policy could not be enforced. -/
inductive PolicyError where
  /-- A resource failed to produce an attribute that a condition names. -/
  | attributeRead (error : AttributeError)
  | compile (error : CompileError)
  | store (failure : StoreFailure)
  deriving DecidableEq

namespace PolicyError

def message : PolicyError → String
  | attributeRead error =>
      error.message
  | compile error =>
      error.message
  | store failure =>
      "Store error: " ++ failure.reason

end PolicyError

/-- Where conditions are evaluated. -/
inductive Enforcement where
  /-- Records are fetched and checked. -/
  | inMemory
  /-- The store executes a filter; `fallback` allows for checking instead. -/
  | pushdown (fallback : Bool)
  deriving DecidableEq, Repr

namespace Query

variable {ρ : Type}

def permitsInMemory
    [Resource ρ]
    (query : Query)
    (record : ρ) :
    Except PolicyError Bool :=
  (query.permitsResource record).mapError .attributeRead

/-- The permitted records among some; a failing check leaves no list at all. -/
def permittedAmong
    [Resource ρ]
    (query : Query) :
    List ρ → Except PolicyError (List ρ)
  | [] =>
      .ok []
  | record :: rest => do
      let permitted ← query.permitsInMemory record
      let later ← permittedAmong query rest
      return if permitted then record :: later else later

/-- Fetches all records and keeps the permitted ones; nothing is fetched in vain. -/
def accessibleInMemory
    [Resource ρ]
    (query : Query)
    (store : Store ρ) :
    Except PolicyError (List ρ) :=
  match query.conditions with
  | none =>
      .ok []
  | some _ => do
      let records ← (store.fetch .everything).mapError .store
      query.permittedAmong records

/-- Answers in memory if a fallback is allowed, and refuses otherwise. -/
def fallBack
    {α : Type}
    (fallback : Bool)
    (error : CompileError)
    (inMemory : Except PolicyError α) :
    Except PolicyError α :=
  if fallback then inMemory else .error (.compile error)

/-- Asks the store about a record, unless the rule settles the answer. -/
def permitsPushedDown
    [Resource ρ]
    (query : Query)
    (fallback : Bool)
    (store : Store ρ)
    (record : ρ) :
    Except PolicyError Bool :=
  match query.compile store.capabilities with
  | .ok .everything =>
      .ok true
  | .ok .nothing =>
      .ok false
  | .ok (.native filter) =>
      (store.includes filter record).mapError .store
  | .error error =>
      fallBack fallback error (query.permitsInMemory record)

/-- Lets the store select the permitted records. -/
def accessiblePushedDown
    [Resource ρ]
    (query : Query)
    (fallback : Bool)
    (store : Store ρ) :
    Except PolicyError (List ρ) :=
  match query.compile store.capabilities with
  | .ok compiled =>
      (store.fetch compiled).mapError .store
  | .error error =>
      fallBack fallback error (query.accessibleInMemory store)

end Query

namespace Enforcement

variable {ρ : Type}

/-- A record that the store holds is permitted. -/
def permits
    [Resource ρ]
    (enforcement : Enforcement)
    (query : Query)
    (store : Store ρ)
    (record : ρ) :
    Except PolicyError Bool :=
  match enforcement with
  | inMemory =>
      query.permitsInMemory record
  | pushdown fallback =>
      query.permitsPushedDown fallback store record

def accessible
    [Resource ρ]
    (enforcement : Enforcement)
    (query : Query)
    (store : Store ρ) :
    Except PolicyError (List ρ) :=
  match enforcement with
  | inMemory =>
      query.accessibleInMemory store
  | pushdown fallback =>
      query.accessiblePushedDown fallback store

end Enforcement

end Permission

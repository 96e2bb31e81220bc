/-
This file holds the scopes of a session. A scope binds names to values and may
lie in an outer scope, which was created before it. Scopes are shared: a closure
keeps the scope it was made in, and what is bound there later is seen by it.

A name is looked up in a scope and then outward, and the innermost binding is
the one found. Lists of names are in increasing order and name each name once.
-/

import Monkey.Text.Stem
import Monkey.Value

namespace Monkey

/-- The bindings of one scope, each name at most once, and the scope around it. -/
structure Scope where
  bindings : List (String × Value)
  outer : Option ScopeId
deriving Inhabited

namespace Scope

/-- What a name is bound to in this scope alone. -/
def find? (scope : Scope) (name : String) : Option Value :=
  scope.bindings.lookup name

/-- Binds a name, in place of what it was bound to. -/
def bind (scope : Scope) (name : String) (value : Value) : Scope :=
  { scope with bindings := (name, value) :: scope.bindings.filter fun binding => binding.1 != name }

/-- The names bound in this scope alone. -/
def names (scope : Scope) : List String :=
  scope.bindings.map Prod.fst

end Scope

/-- All scopes created so far, and how many closures were made. -/
structure Store where
  scopes : Array Scope
  closures : Nat
deriving Inhabited

namespace Store

/-- No scope yet. -/
def empty : Store := ⟨#[], 0⟩

/-! ### Creating -/

/-- Adds a scope without bindings. -/
def add (store : Store) (outer : Option ScopeId) : ScopeId × Store :=
  (store.scopes.size, { store with scopes := store.scopes.push ⟨[], outer⟩ })

/-- Adds a scope that lies in no other. -/
def create (store : Store) : ScopeId × Store :=
  store.add none

/-- Adds a scope that lies in `outer`. -/
def enclose (store : Store) (outer : ScopeId) : ScopeId × Store :=
  store.add (some outer)

/-- Numbers one more closure. -/
def countClosure (store : Store) : Nat × Store :=
  (store.closures, { store with closures := store.closures + 1 })

/-! ### Looking up and binding -/

/-- At most `limit` scopes, from a scope outward. -/
def chainWithin (store : Store) : Nat → ScopeId → List Scope
  | 0, _ => []
  | limit + 1, scope =>
    match store.scopes[scope]? with
    | none => []
    | some found =>
      match found.outer with
      | none => [found]
      | some outer => found :: store.chainWithin limit outer

/-- The scopes that are seen from a scope, the innermost first. An outer scope is older than the
scopes in it, so there are at most as many as were created up to this one. -/
def chain (store : Store) (scope : ScopeId) : List Scope :=
  store.chainWithin (scope + 1) scope

/-- What a name is bound to as seen from a scope. -/
def get? (store : Store) (scope : ScopeId) (name : String) : Option Value :=
  (store.chain scope).findSome? fun found => found.find? name

/-- Binds a name in a scope. -/
def set (store : Store) (scope : ScopeId) (name : String) (value : Value) : Store :=
  { store with scopes := store.scopes.modify scope fun found => found.bind name value }

/-! ### Names in order -/

/-- Puts a name in its place in an increasing list that may hold it already. -/
def insertName (name : String) : List String → List String
  | [] => [name]
  | first :: rest =>
    if name < first then name :: first :: rest
    else if name = first then first :: rest
    else first :: insertName name rest

/-- Names in increasing order of their code points, each once. -/
def sortNames (names : List String) : List String :=
  names.foldr insertName []

/-- The names with a given stem that are bound in at most `limit` scopes, from a scope outward. The
names of a scope are put in order together with those from further out. -/
def namesWithin (store : Store) (stem : String) : Nat → ScopeId → List String
  | 0, _ => []
  | limit + 1, scope =>
    match store.scopes[scope]? with
    | none => []
    | some found =>
      let own := found.names.filter (Text.hasStem stem)
      match found.outer with
      | none => sortNames own
      | some outer => sortNames (own ++ store.namesWithin stem limit outer)

/-- The names with a given stem that are bound as seen from a scope. -/
def namesWithStem (store : Store) (scope : ScopeId) (stem : String) : List String :=
  store.namesWithin stem (scope + 1) scope

end Store

end Monkey

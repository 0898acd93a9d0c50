import Tremolo.Symbol.Basic
import Tremolo.Table

/-! # Scopes

The live scopes form a stack.  A scope knows the scope that encloses it, which stands below it in the
stack but need not be the next one: the scope of a call is enclosed by the scope in which the function
was declared, not by the caller's.  One scope is current.

* `Environment.openGlobal`, `openScope`, `closeScope` — entering and leaving scopes;
* `Environment.walk` — the walk outward along the enclosing scopes, and `search` for what it finds, on
  which `lookup`, `resolve` and `inFunction` are built;
* `Environment.insert`, `assign` — changing the current scope, or the nearest binding of a name, which
  `access?` reads and `update` replaces.

A closed scope's place is given to the next scope that is opened. -/

namespace Tremolo

inductive ScopeKind where
  | global
  /-- Braces, and the bodies of conditions and loops. -/
  | block
  | function
deriving DecidableEq

structure Scope where
  name : String
  level : Nat
  kind : ScopeKind
  parent : Option ScopeId
  symbols : Table Symbol

def Scope.fresh (name : String) (level : Nat) (kind : ScopeKind) (parent : Option ScopeId) : Scope :=
  ⟨name, level, kind, parent, .empty⟩

def Scope.insert (s : Scope) (symbol : Symbol) : Scope :=
  { s with symbols := s.symbols.insert symbol.name symbol }

def Scope.get? (s : Scope) (name : String) : Option Symbol :=
  s.symbols.get? name

/-- The stack of live scopes, and which of them is current. -/
structure Environment where
  scopes : Array Scope
  current : Option ScopeId

namespace Environment

def empty : Environment :=
  ⟨#[], none⟩

def depth (env : Environment) : Nat :=
  env.scopes.size

/-- The scope at a place, if it is live. -/
def scope? (env : Environment) (id : ScopeId) : Option Scope :=
  env.scopes[id]?

/-! ## Opening and closing -/

/-- Puts a scope on top and makes it current. -/
def push (env : Environment) (scope : Scope) : Environment :=
  ⟨env.scopes.push scope, some env.scopes.size⟩

def modifyScope (env : Environment) (id : ScopeId) (f : Scope → Scope) : Environment :=
  { env with scopes := env.scopes.modify id f }

/-- Binds a symbol in the current scope; without one nothing happens. -/
def insert (env : Environment) (symbol : Symbol) : Environment :=
  match env.current with
  | some id => env.modifyScope id (·.insert symbol)
  | none => env

def builtinTypes : List ValueType :=
  [.number, .string, .var]

/-- Opens a global scope, which holds the builtin types. -/
def openGlobal (env : Environment) : Environment :=
  builtinTypes.foldl (fun env type => env.insert (.type type.name))
    (env.push (.fresh "global" 1 .global none))

/-- Opens a scope inside `parent`.  There is none if the parent is not live. -/
def openScope? (env : Environment) (name : String) (kind : ScopeKind) (parent : ScopeId) :
    Option Environment :=
  (env.scope? parent).map fun outer => env.push (.fresh name (outer.level + 1) kind (some parent))

/-- Drops the topmost scope and makes `restore` current, if that is live. -/
def closeScope (env : Environment) (restore : Option ScopeId) : Environment :=
  let scopes := env.scopes.pop
  ⟨scopes, restore.filter (· < scopes.size)⟩

/-! ## Looking outward -/

/-- How a walk outward ends. -/
inductive Walk (β : Type) where
  | found (result : β)
  /-- The outermost scope has been passed. -/
  | nothing
  /-- There is no scope at a place that was to be passed. -/
  | dead (id : ScopeId)
  /-- There were more scopes to pass than the walk was allowed. -/
  | cut

def Walk.result? {β : Type} : Walk β → Option β
  | found b => some b
  | nothing | dead _ | cut => none

/-- Walks outward from the scope at `id`, over at most `limit` scopes, to the first one of which `f`
    says something. -/
def walkUpTo {β : Type} (env : Environment) (f : ScopeId → Scope → Option β) :
    (limit : Nat) → (id : ScopeId) → Walk β
  | 0, _ => .cut
  | limit + 1, id =>
    match env.scope? id with
    | none => .dead id
    | some scope =>
      match f id scope with
      | some b => .found b
      | none =>
        match scope.parent with
        | some parent => env.walkUpTo f limit parent
        | none => .nothing

/-- Walks outward from the current scope to the first scope of which `f` says something. -/
def walk {β : Type} (env : Environment) (f : ScopeId → Scope → Option β) : Walk β :=
  match env.current with
  -- Enclosing scopes stand lower and lower in the stack, so there are no more than places up to this one.
  | some id => env.walkUpTo f (id + 1) id
  | none => .nothing

/-- The first thing that `f` says of a scope on the way outward. -/
def search {β : Type} (env : Environment) (f : ScopeId → Scope → Option β) : Option β :=
  (env.walk f).result?

def lookupHere (env : Environment) (name : String) : Option Symbol :=
  match env.current with
  | some id => (env.scope? id).bind (·.get? name)
  | none => none

/-- The symbol of the nearest binding of a name. -/
def lookup (env : Environment) (name : String) : Option Symbol :=
  env.search fun _ scope => scope.get? name

/-- The scope that holds the nearest binding of a name. -/
def resolve (env : Environment) (name : String) : Option ScopeId :=
  env.search fun id scope => if scope.symbols.contains name then some id else none

def inFunction (env : Environment) : Bool :=
  (env.search fun _ scope => if scope.kind = .function then some () else none).isSome

/-- The variables of the current scope with their values, in order of declaration. -/
def variablesHere (env : Environment) : List (String × Option TypedValue) :=
  match env.current.bind env.scope? with
  | some scope => scope.symbols.values.filterMap fun
    | .variable v => some (v.name, v.value)
    | _ => none
  | none => []

/-! ## Assigning -/

/-- The symbol of the nearest binding of a name, taken from where `update` puts another one. -/
def access? (env : Environment) (name : String) : Option Symbol :=
  (env.resolve name).bind fun id => (env.scope? id).bind (·.get? name)

def update (env : Environment) (name : String) (symbol : Symbol) : Environment :=
  match env.resolve name with
  | some id =>
    env.modifyScope id fun scope => { scope with symbols := scope.symbols.insert name symbol }
  | none => env

end Environment

inductive Assignment (σ : Type) where
  | unbound
  /-- The name is bound to something that holds no value. -/
  | notVariable (kind : SymbolKind)
  | rejected (error : Error)
  | stored (after : σ)

def Environment.assign (env : Environment) (name : String) (value : TypedValue) :
    Assignment Environment :=
  match env.access? name with
  | some (.variable v) =>
    match v.assign value with
    | .ok v => .stored (env.update name (.variable v))
    | .error e => .rejected e
  | some symbol => .notVariable symbol.kind
  | none => .unbound

end Tremolo

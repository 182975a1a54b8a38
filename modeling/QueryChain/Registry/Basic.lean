import QueryChain.Registry.Operation
import QueryChain.Shape

/-!
# The registry of operations

A registry says what each call is recognised as, by the exact shape of the call or by its owner and
name alone. An entry never shadows another one unless it replaces a shape on purpose.

## Main definitions

* `Registry`, `Registry.lookup`: the two tables, and the operation of a call
* `Registry.register`, `Registry.registerName`, `Registry.replace`: new entries
* `OperationSet`, `Registry.merge`: entries that belong together, and their registration
-/

namespace QueryChain

/-- Two entries for one call. -/
inductive RegistryError where
  | ambiguousShape (shape : CallShape) (existing incoming : Operation)
  | ambiguousName (owner : Owner) (name : String) (existing incoming : Operation)

/-- The wording of an error. -/
def RegistryError.message : RegistryError → String
  | ambiguousShape shape existing incoming =>
    "call shape " ++ shape.render ++ " is already registered as " ++ existing.label
      ++ "; refusing " ++ incoming.label
  | ambiguousName owner name existing incoming =>
    "operation " ++ owner.label ++ "::" ++ name ++ " is already registered as "
      ++ existing.label ++ "; refusing " ++ incoming.label

/-- The operations of exact shapes, and of all calls of an owner and a name. -/
structure Registry where
  shapes : List (CallShape × Operation)
  names : List ((Owner × String) × Operation)

/-- An entry of a registry. -/
inductive Entry where
  /-- Calls of one shape. -/
  | shape (shape : CallShape) (operation : Operation)
  /-- Calls of one owner and name, whatever their arguments. -/
  | name (owner : Owner) (name : String) (operation : Operation)

/-- Entries that belong together. -/
structure OperationSet where
  name : String
  shapes : List (CallShape × Operation)
  names : List ((Owner × String) × Operation)

namespace OperationSet

/-- The number of entries. -/
def size (s : OperationSet) : Nat :=
  s.shapes.length + s.names.length

/-- Whether there is no entry. -/
def isEmpty (s : OperationSet) : Bool :=
  s.size == 0

/-- The entries, shapes first. -/
def entries (s : OperationSet) : List Entry :=
  s.shapes.map (fun e => .shape e.1 e.2) ++ s.names.map (fun e => .name e.1.1 e.1.2 e.2)

end OperationSet

namespace Registry

/-- The registry without entries. -/
def empty : Registry :=
  ⟨[], []⟩

/-- The number of entries. -/
def size (r : Registry) : Nat :=
  r.shapes.length + r.names.length

/-- Whether there is no entry. -/
def isEmpty (r : Registry) : Bool :=
  r.size == 0

/-- The operation of calls of a shape: the exact entry first, then the entry of the name. -/
def resolve (r : Registry) (shape : CallShape) : Option Operation :=
  (r.shapes.lookup shape).or (r.names.lookup (shape.owner, shape.name))

/-- The operation that a call is recognised as. -/
def lookup (r : Registry) (c : Call) : Option Operation :=
  r.resolve (.of c)

/-- Adds an exact shape. It is refused if the shape has an entry, or its owner and name do. -/
def register (r : Registry) (shape : CallShape) (op : Operation) : Except RegistryError Registry :=
  match r.shapes.lookup shape with
  | some existing => .error (.ambiguousShape shape existing op)
  | none =>
    match r.names.lookup (shape.owner, shape.name) with
    | some existing => .error (.ambiguousName shape.owner shape.name existing op)
    | none => .ok { r with shapes := r.shapes ++ [(shape, op)] }

/-- The operation of some entry for the owner and name, by name or by shape. -/
def anyNamed? (r : Registry) (owner : Owner) (name : String) : Option Operation :=
  (r.names.lookup (owner, name)).or
    ((r.shapes.find? fun e => e.1.owner == owner && e.1.name == name).map (·.2))

/-- Adds an owner and name. It is refused if a call of that owner and name has an entry. -/
def registerName (r : Registry) (owner : Owner) (name : String) (op : Operation) :
    Except RegistryError Registry :=
  match r.anyNamed? owner name with
  | some existing => .error (.ambiguousName owner name existing op)
  | none => .ok { r with names := r.names ++ [((owner, name), op)] }

/-- Puts an exact shape in place, over an entry of the shape or of its name. -/
def replace (r : Registry) (shape : CallShape) (op : Operation) : Registry :=
  { r with shapes := r.shapes.filter (·.1 ≠ shape) ++ [(shape, op)] }

/-- Adds an entry. -/
def add (r : Registry) : Entry → Except RegistryError Registry
  | .shape shape op => r.register shape op
  | .name owner name op => r.registerName owner name op

/-- Adds entries up to the first that is refused; those before it stay. -/
def addAll (r : Registry) : List Entry → Registry × Option RegistryError
  | [] => (r, none)
  | e :: es =>
    match r.add e with
    | .ok next => next.addAll es
    | .error err => (r, some err)

/-- Adds the entries of a set up to the first that is refused. -/
def merge (r : Registry) (set : OperationSet) : Registry × Option RegistryError :=
  r.addAll set.entries

/-- Adds all sets, or fails with the first refusal. -/
def mergeAll (r : Registry) : List OperationSet → Except RegistryError Registry
  | [] => .ok r
  | set :: sets =>
    match r.merge set with
    | (next, none) => next.mergeAll sets
    | (_, some err) => .error err

end Registry

end QueryChain

import RamlTypes.Resolution

/-!
# Remembered computations

What is computed for one question about a type graph is remembered for the next ones: every chain
that comes to an end, and, from the first time on that they are asked for, the children of all
types, the names in use and the members of the unions. A chain that runs in a circle is not
remembered, and a computation that fails keeps what it has remembered until then.
-/

namespace RamlTypes

structure Memory where
  chains : Table String (List String)
  /-- The sorted children of every type that has some. -/
  children : Option (Table String (List String))
  used : Option (List String)
  unions : Option (List (List String))

def Memory.empty : Memory := ⟨.empty, none, none, none⟩

/-- Enters a type below its parent, if it has one. -/
def TypeGraph.enterChild (index : Table String (List String)) (entry : String × TypeNode) :
    Table String (List String) :=
  match entry.2.parent with
  | none => index
  | some parent => index.insert parent ((index.find? parent).getD [] ++ [entry.1])

/-- The children of all types, collected in one pass over the graph. -/
def TypeGraph.childrenIndex (g : TypeGraph) : Table String (List String) :=
  (g.nodes.entries.foldl enterChild .empty).map fun _ names => sortNames names

/-- A computation that reads from a memory and adds to it. -/
def Recalling (α : Type) : Type := Memory → Logged α × Memory

namespace Recalling

variable {α β : Type}

/-- A computation that needs no memory. -/
def ofLogged (x : Logged α) : Recalling α := fun m => (x, m)

def ofExcept (x : Except Fault α) : Recalling α := ofLogged (.ofExcept x)

def bind (x : Recalling α) (f : α → Recalling β) : Recalling β := fun m =>
  let (first, m) := x m
  match first.outcome with
  | .error fault => (⟨first.log, .error fault⟩, m)
  | .ok a =>
      let (second, m) := f a m
      (⟨first.log ++ second.log, second.outcome⟩, m)

instance : Monad Recalling where
  pure a := ofLogged (pure a)
  bind := bind

/-- A value that is computed when it is first asked for. -/
def once (known? : Memory → Option α) (remember : α → Memory → Memory) (value : α) :
    Recalling α := fun m =>
  match known? m with
  | some remembered => (pure remembered, m)
  | none => (pure value, remember value m)

variable (g : TypeGraph)

/-! ### Hierarchy -/

/-- The chain of a name, which is walked unless it is remembered. -/
def chain (name : String) : Recalling (List String) := fun m =>
  match m.chains.find? name with
  | some chain => (pure chain, m)
  | none =>
      match g.chain name with
      | .ok chain => (pure chain, { m with chains := m.chains.insert name chain })
      | .error fault => (.ofExcept (.error fault), m)

def children (name : String) : Recalling (List String) := do
  let index ← once (·.children) (fun index m => { m with children := some index }) g.childrenIndex
  return (index.find? name).getD []

def ancestors (name : String) : Recalling (List String) := (·.tail) <$> chain g name

def effectiveProperties (name : String) : Recalling (Table String Property) := do
  ofExcept (g.flatten (← chain g name))

/-- Whether a property belongs to the type itself. Only the chain of the parent is looked at, and
only for a property without literals. -/
def isMember (name : String) (property : Property) : Recalling Bool :=
  match g.parent? name with
  | none => return true
  | some parent =>
      if property.isEnum then return true
      else do
        match (← effectiveProperties g parent).find? property.name with
        | none => return true
        | some inherited => return inherited.type.raw ≠ property.type.raw

def memberAncestors (member : String) : Recalling (List String) :=
  if g.isDeclared member then ancestors g member else return []

/-- The chains of the members are walked one after the other, up to one that runs in a circle. -/
def commonAncestor (universal : Value) (members : List String) : Recalling Value := do
  let members := members.eraseDups
  let chains ← members.mapM (memberAncestors g)
  match Hierarchy.nearestShared chains with
  | some ancestor => return .text ancestor
  | none => do
      if !members.isEmpty then
        ofLogged (.emit (.noCommonAncestor members universal.display))
      return universal

/-! ### Mapping -/

section Mapping

variable (primitive? : String → Option String) (universal : Value)

mutual

/-- The target type of an expression. The chains for a union are walked when all of its members are
mapped. -/
def mapType : TypeExpr → Recalling TargetType
  | .named raw name _ =>
      match primitive? raw with
      | some primitive => return .primitive primitive
      | none =>
          if name = "" then ofExcept (.error (.mapping (.unnamed raw)))
          else return .objectRef name
  | .array raw dimensions element =>
      match primitive? raw with
      | some primitive => return .primitive primitive
      | none =>
          if 1 < dimensions then
            ofExcept (.error (.mapping (.unsupported .nestedArray raw)))
          else do
            return .listOf (← mapType element)
  | .map raw _ =>
      match primitive? raw with
      | some primitive => return .primitive primitive
      | none => ofExcept (.error (.mapping (.unsupported .map raw)))
  | .union raw members =>
      match primitive? raw with
      | some primitive => return .primitive primitive
      | none => do
          let targets ← mapTypes members
          let ancestor ← commonAncestor g universal (members.map (·.memberName))
          return .unionOf ancestor targets

def mapTypes : List TypeExpr → Recalling (List TargetType)
  | [] => return []
  | expr :: rest => do
      let target ← mapType expr
      return target :: (← mapTypes rest)

end

def mapProperty (owner : String) (property : Property) : Recalling TargetType :=
  if property.isEnum then return .enumRef (EnumDef.nameFor owner property.name)
  else mapType g primitive? universal property.type

end Mapping

/-! ### Dispatch -/

def used : Recalling (List String) :=
  once (·.used) (fun names m => { m with used := some names }) g.usedNames

def unions : Recalling (List (List String)) :=
  once (·.unions) (fun sets m => { m with unions := some sets }) g.unionMembers

def isUsed (name : String) : Recalling Bool := return (← used g).contains name

/-- Whether a type is abstract. The usage is looked at only for a type with children. -/
def isAbstract (name : String) : Recalling Bool := do
  if (← children g name).isEmpty then return false
  else if ← isUsed g name then return false
  else return (g.parent? name).isNone

/-- Whether references to a type are read by a deserializer of its own. The unions are looked at
only for an abstract type, and nothing is without an annotation style. -/
def needsDeserializer (annotations name : String) : Recalling Bool := do
  if annotations = "" then return false
  else if ← isAbstract g name then
    let children ← children g name
    return (← unions g).any fun members => children.all members.contains
  else return false

def deserializerTarget (annotations name : String) : Recalling String := do
  if ← needsDeserializer g annotations name then return Dispatch.deserializerName name
  else
    match g.parent? name with
    | some parent => return if ← needsDeserializer g annotations parent then name else ""
    | none => return ""

end Recalling

end RamlTypes

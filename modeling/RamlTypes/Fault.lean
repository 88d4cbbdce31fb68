import RamlTypes.Schema.Basic
import RamlTypes.Text.Quoted

/-!
# Faults

Everything that can go wrong with a declaration or a question about one. A mapping failure concerns
a single field, which is dropped; the other faults end a resolution. Defects of the schema and
cycles are what it is meant to end with. A number that cannot be written and an option of the wrong
kind are not noticed before they are used.
-/

namespace RamlTypes

/-- Type constructs that no target supports. -/
inductive Construct where
  | map
  | nestedArray
deriving DecidableEq, Repr

def Construct.text : Construct → String
  | map => "map"
  | nestedArray => "bidimensional array"

/-- Why a type expression has no target type. -/
inductive MappingFailure where
  | unsupported (construct : Construct) (expression : String)
  | unnamed (expression : String)
deriving DecidableEq, Repr

def MappingFailure.message : MappingFailure → String
  | unsupported construct expression =>
      "No support for " ++ construct.text ++ " '" ++ expression ++ "', field ignored"
  | unnamed expression => "Unsupported type: '" ++ expression ++ "'"

/-- A value of a kind that it cannot be used as. -/
inductive Misfit where
  /-- The members of a value are gone through that has none. -/
  | notIterable (kind : String)
  /-- A name is looked for in a value that has no members. -/
  | noContainer (kind : String)
  /-- A name is looked for in binary data. -/
  | noBytes
  /-- A collection is looked up as a key. -/
  | noKey (kind : String)
  /-- A value is asked for what its kind does not have. -/
  | noMember (kind name : String)
  /-- All options are set at once to what is no mapping. -/
  | noDictionary (kind : String)
  /-- Something else than a kind is set as the kind of the options. -/
  | noClass (kind : String)
  | readOnly (name : String)
deriving DecidableEq, Repr

def Misfit.message : Misfit → String
  | notIterable kind => "'" ++ kind ++ "' object is not iterable"
  | noContainer kind => "argument of type '" ++ kind ++ "' is not iterable"
  | noBytes => "a bytes-like object is required, not 'str'"
  | noKey kind => "unhashable type: '" ++ kind ++ "'"
  | noMember kind name => "'" ++ kind ++ "' object has no attribute '" ++ name ++ "'"
  | noDictionary kind => "__dict__ must be set to a dictionary, not a '" ++ kind ++ "'"
  | noClass kind => "__class__ must be set to a class, not '" ++ kind ++ "' object"
  | readOnly name =>
      "attribute '" ++ name ++ "' of 'ResolverConfig' objects is not writable"

inductive Fault where
  | schema (error : SchemaError)
  /-- Following parents revisits the last name of the chain. -/
  | cycle (chain : List String)
  /-- A chain holds a name that is not declared. -/
  | undeclared (name : String)
  | mapping (failure : MappingFailure)
  | longNumber
  | misfit (problem : Misfit)

def Fault.message : Fault → String
  | schema error => error.message
  | cycle chain => "Inheritance cycle detected: " ++ " -> ".intercalate chain
  | undeclared name => Text.quoted name
  | mapping failure => failure.message
  | longNumber => longNumberMessage
  | misfit problem => problem.message

def Fault.ofRead : ReadFault → Fault
  | .defect error => schema error
  | .longNumber => longNumber

end RamlTypes

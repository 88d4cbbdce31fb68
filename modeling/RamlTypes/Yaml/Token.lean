import RamlTypes.Document.BadScalar

/-!
# Tokens of YAML text

What a text is made of once its indentation is read: block collections have a token where they
start and where they end, and every key has one in front of it.
-/

namespace RamlTypes.Yaml

inductive Token where
  | versionDirective (major : Nat)
  | tagDirective (handle expansion : String)
  | otherDirective
  | documentStart
  | documentEnd
  | blockSequenceStart
  | blockMappingStart
  | blockEnd
  | flowSequenceStart
  | flowSequenceEnd
  | flowMappingStart
  | flowMappingEnd
  | blockEntry
  | flowEntry
  | key
  | value
  | anchor (name : String)
  /-- Stands for the node with that anchor. -/
  | reference (name : String)
  /-- A tag without a handle is written out in full. -/
  | tag (handle : Option String) (suffix : String)
  | scalar (plain : Bool) (text : String)
  /-- Stands where the text cannot be read on. -/
  | unreadable (problem : BadScalar)
deriving DecidableEq, Repr

/-- Why a text has no value: it is no YAML, it has a tag or a structure that is not supported, or a
scalar cannot be read. -/
inductive Failure where
  | malformed
  | badScalar (problem : BadScalar)
deriving DecidableEq, Repr

end RamlTypes.Yaml

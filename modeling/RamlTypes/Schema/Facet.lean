import RamlTypes.Schema.Basic

/-!
# Facets

Readers for the facets that declarations share. A facet that may be left out may also be vacant
(`properties`) or null (the others). Texts are made from any values, as long as they can be written.
-/

namespace RamlTypes.Schema

def reject {α : Type} (defect : Defect) (path : Path) : Except ReadFault α :=
  .error (.defect ⟨defect, path⟩)

/-- The text of a key. -/
def readKey (key : Scalar) : Except ReadFault String :=
  if key.isPrintable then .ok key.display else .error .longNumber

/-- The text of a facet, empty where it is missing or vacant. -/
def readText (facet : Option Value) : Except ReadFault String :=
  if facet.all (·.isPrintable) then .ok (facetText facet) else .error .longNumber

/-- A section of entries, empty where it is missing or vacant. -/
def readSection (path : Path) (part : String) : Option Value → Except ReadFault Entries
  | none => .ok []
  | some (.map entries) => .ok entries
  | some value => if value.isVacant then .ok [] else reject (.notMapping part) path

def readEnum (path : Path) : Option Value → Except ReadFault (Option (List Value))
  | none => .ok none
  | some (.scalar .null) => .ok none
  | some (.list literals) => .ok (some literals)
  | some _ => reject .enumNotList path

def readTypeText (path : Path) : Value → Except ReadFault String
  | .scalar (.text s) => .ok s
  | value => reject (.typeNotText value.kindName) path

/-- The facet `type`: a text, or a list with just one. The defect of a longer list shows it. -/
def readType (path : Path) : Option Value → Except ReadFault (Option String)
  | none => .ok none
  | some (.scalar .null) => .ok none
  | some (.list [value]) => some <$> readTypeText path value
  | some (.list values) =>
      if Value.arePrintable values then reject (.severalParents values) path
      else .error .longNumber
  | some value => some <$> readTypeText path value

/-- The facet `items`: like `type`, or a mapping with a `type`. -/
def readItems (path : Path) : Option Value → Except ReadFault (Option String)
  | some (.map entries) => readType (path ++ ["items"]) (Entries.facet? "type" entries)
  | facet => readType (path ++ ["items"]) facet

end RamlTypes.Schema

import RamlTypes.Config

/-!
# Target profiles

What a target language brings along: the spelling of the built-in types, the annotation styles that
it supports and the types that it has natively.
-/

namespace RamlTypes

structure Profile where
  language : String
  /-- The built-in types by the keyword they are declared with. -/
  primitives : List (String × String)
  styles : List String
  nativeTypes : List String

namespace Profile

/-- Numbers are not told apart from integers. -/
def java : Profile where
  language := "java"
  primitives := [
    ("string", "String"), ("integer", "Integer"), ("number", "Integer"), ("boolean", "Boolean"),
    ("datetime", "Instant"), ("object", "Map<String, Object>"), ("UUID", "UUID")]
  styles := ["jackson", "gson"]
  nativeTypes := ["UUID"]

def python : Profile where
  language := "python"
  primitives := [
    ("string", "str"), ("integer", "int"), ("number", "float"), ("boolean", "bool"),
    ("datetime", "datetime"), ("date-only", "date"), ("time-only", "time"),
    ("datetime-only", "datetime"), ("file", "bytes"), ("object", "dict"), ("any", "Any"),
    ("nil", "None")]
  styles := []
  nativeTypes := []

def all : List Profile := [java, python]

def forLanguage? (language : String) : Option Profile := all.find? (·.language = language)

/-- What is said about a language without a profile. -/
def unsupportedMessage (language : String) : String :=
  "Language '" ++ language ++ "' is not supported"

/-- The built-in type that a type text stands for as a whole. -/
def primitive? (profile : Profile) (typeText : String) : Option String :=
  profile.primitives.lookup typeText

/-- An annotation style as far as the language supports it. -/
def supported (profile : Profile) (style : String) : String :=
  if style ∈ profile.styles then style else ""

/-- The annotation style that a request selects. -/
def annotations (profile : Profile) (requested : String) : String :=
  profile.supported (normalizeAnnotations requested)

/-- The annotation style of a run: the configured one, or else the requested one, as far as it is
supported. -/
def styleFor (profile : Profile) (requested configured : String) : String :=
  profile.supported (if configured = "" then profile.annotations requested else configured)

/-- The types that are ignored, with the native ones among them. -/
def withNativeTypes (profile : Profile) (ignored : List String) : List String :=
  ignored ++ profile.nativeTypes.filter (!ignored.contains ·)

/-- A configuration for this language. -/
def configure (profile : Profile) (requested : String) (config : Config) : Config :=
  { config with
    annotations := profile.styleFor requested (normalizeAnnotations config.annotations)
    ignoreClasses := profile.withNativeTypes config.ignoreClasses }

end Profile

end RamlTypes

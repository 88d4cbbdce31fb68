import RamlTypes.Text.Search

/-!
# File names

A file name is a row of parts between slashes. Empty parts and single dots stand for nothing. A
resolved name has no double dots either, as far as there are parts that they can take back; the
empty one is the current directory.
-/

namespace RamlTypes.FileName

/-- The parts of a name that stand for something. -/
def parts (name : String) : List (List Char) :=
  (Text.splitAt '/' name.toList).filter fun part => part != [] && part != ['.']

/-- The slashes that a name starts with if it does not depend on the current directory. Two slashes
are kept, more of them count as one. -/
def root (name : String) : List Char :=
  let slashes := name.toList.takeWhile (· == '/')
  if slashes.length ≤ 2 then slashes else ['/']

def join (parts : List (List Char)) : List Char := ['/'].intercalate parts

/-- A name without the parts that stand for nothing; a single dot if no part is left. -/
def plain (name : String) : String :=
  let text := root name ++ join (parts name)
  if text.isEmpty then "." else String.ofList text

/-- Adds a part behind others, of which the last one comes first. Double dots take back the part
before them. -/
def enter (passed : List (List Char)) (part : List Char) : List (List Char) :=
  if part = ['.', '.'] then
    match passed with
    | [] => [part]
    | last :: rest => if last = ['.', '.'] then part :: passed else rest
  else part :: passed

/-- The name of the file that a name leads to from the current directory. -/
def resolve (name : String) : String :=
  let passed := ((parts name).foldl enter []).reverse
  if name.toList.head? = some '/' then String.ofList ('/' :: join (passed.filter (· != ['.', '.'])))
  else String.ofList (join passed)

/-- The last part of a name, behind all slashes. -/
def base (name : String) : List Char := (name.toList.reverse.takeWhile (· != '/')).reverse

/-- The names of the directories around a file, the outermost first; the current directory is left
out. -/
def directories (name : String) : List String :=
  let parents := (parts name).dropLast
  (List.range' 1 parents.length).map fun count =>
    String.ofList ((root name).take 1 ++ join (parents.take count))

end RamlTypes.FileName

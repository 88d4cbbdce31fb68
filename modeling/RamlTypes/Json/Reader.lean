import RamlTypes.Json.Token
import RamlTypes.Table

/-!
# Reading JSON

Tokens are read one after the other, with the lists and mappings that are still open on a stack. A
key that comes again replaces the value and keeps its place. Besides finite numbers, the words for
infinities and for what is not a number are accepted.
-/

namespace RamlTypes.Json

/-- A list or mapping that waits for a value, with what it holds so far; the last item of a list
comes first. -/
inductive Open where
  | list (items : List Value)
  | map (entries : Entries) (key : String)

/-- What must follow, and the containers around it, innermost first. -/
inductive State where
  | value (stack : List Open)
  | firstItem (stack : List Open)
  | firstKey (stack : List Open)
  | nextKey (entries : Entries) (stack : List Open)
  | colon (entries : Entries) (key : String) (stack : List Open)
  | afterItem (items : List Value) (stack : List Open)
  | afterEntry (entries : Entries) (stack : List Open)
  | finished (value : Value)

/-- The problem if something else follows. -/
def State.problem : State → Problem
  | value _ => .expectedValue
  | firstItem _ => .expectedValue
  | firstKey _ => .expectedKey
  | nextKey _ _ => .expectedKey
  | colon _ _ _ => .expectedColon
  | afterItem _ _ => .expectedComma
  | afterEntry _ _ => .expectedComma
  | finished _ => .extraData

/-- Puts a value that was read where it belongs. -/
def place (value : Value) : List Open → State
  | [] => .finished value
  | .list items :: stack => .afterItem (value :: items) stack
  | .map entries key :: stack => .afterEntry (Table.insertIn (.text key) value entries) stack

def readValue (state : State) (stack : List Open) (offset : Nat) :
    Token → Except Failure State
  | .scalar value => .ok (place (.scalar value) stack)
  | .string value => .ok (place (.text value) stack)
  | .beginList => .ok (.firstItem stack)
  | .beginMap => .ok (.firstKey stack)
  | .badString error => .error (.notJson error)
  | .longInteger digits => .error (.badScalar (.longInteger digits))
  | _ => .error (.notJson ⟨state.problem, offset⟩)

def readKey (state : State) (entries : Entries) (stack : List Open) (offset : Nat) :
    Token → Except Failure State
  | .string key => .ok (.colon entries key stack)
  | .badString error => .error (.notJson error)
  | _ => .error (.notJson ⟨state.problem, offset⟩)

def step (state : State) (offset : Nat) (token : Token) : Except Failure State :=
  match state, token with
  | .value stack, token => readValue state stack offset token
  | .firstItem stack, .endList => .ok (place (.list []) stack)
  | .firstItem stack, token => readValue state (.list [] :: stack) offset token
  | .firstKey stack, .endMap => .ok (place (.map []) stack)
  | .firstKey stack, token => readKey state [] stack offset token
  | .nextKey entries stack, token => readKey state entries stack offset token
  | .colon entries key stack, .colon => .ok (.value (.map entries key :: stack))
  | .afterItem items stack, .endList => .ok (place (.list items.reverse) stack)
  | .afterItem items stack, .comma => .ok (.value (.list items :: stack))
  | .afterEntry entries stack, .endMap => .ok (place (.map entries) stack)
  | .afterEntry entries stack, .comma => .ok (.nextKey entries stack)
  | state, _ => .error (.notJson ⟨state.problem, offset⟩)

/-- Reads tokens up to the end of the text, which is at `length`. -/
def run (length : Nat) (state : State) : List (Nat × Token) → Except Failure Value
  | [] =>
      match state with
      | .finished value => .ok value
      | _ => .error (.notJson ⟨state.problem, length⟩)
  | (offset, token) :: rest => do run length (← step state offset token) rest

/-- The value that a text stands for. -/
def parse (text : String) : Except Failure Value :=
  let cs := text.toList
  if cs.head? = some '\ufeff' then .error (.notJson ⟨.byteOrderMark, 0⟩)
  else run cs.length (.value []) (tokens 0 cs)

end RamlTypes.Json

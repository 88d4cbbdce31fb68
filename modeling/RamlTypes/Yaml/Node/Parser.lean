import RamlTypes.Yaml.Node
import RamlTypes.Yaml.Token

/-!
# From tokens to nodes

Anchors and tags come in front of the node that they belong to, and a node may be left out where an
item, a key or a value is expected. A reference to a node around it stands for an empty node of the
same kind. A text holds one document at most. Of two problems in a text the first one counts, and
what stands behind it is not looked at.
-/

namespace RamlTypes.Yaml

/-- Tokens that are not read yet, and the nodes that have an anchor. -/
structure Row where
  tokens : List Token
  anchors : List (String × Node)

/-- Gives an anchor to a node. A later node takes the place of an earlier one. -/
def Row.addAnchor (anchor : Option String) (node : Node) (r : Row) : Row :=
  match anchor with
  | some name => { r with anchors := (name, node) :: r.anchors }
  | none => r

/-- Where a node stands. -/
inductive Place where
  /-- In a flow collection, which has no block collections inside of it. -/
  | flow
  /-- At the top or as an item of a block sequence. -/
  | item
  /-- In an entry of a block mapping: the items of a sequence need not be indented there. -/
  | entry
deriving DecidableEq, Repr

/-- Whether a token shows that a node is left out. -/
def Place.isLeftOut (place : Place) (token : Token) : Bool :=
  match place with
  | flow => token ∈ [.value, .flowEntry, .flowSequenceEnd, .flowMappingEnd]
  | item => token ∈ [.blockEntry, .key, .value, .blockEnd]
  | entry => token ∈ [.key, .value, .blockEnd]

/-- What handles of tags stand for. -/
abbrev Handles := List (String × String)

def standardHandles : Handles := [("!", "!"), ("!!", Tag.standard)]

/-- Fails where the next token is not an expected one. -/
def refuse {α : Type} : List Token → Except Failure α
  | .unreadable problem :: _ => .error (.badScalar problem)
  | _ => .error .malformed

/-- A tag in full. If its handle is unknown, the tokens behind what is read are refused. -/
def fullTag (handles : Handles) (handle : Option String) (suffix : String) (behind : List Token) :
    Except Failure String :=
  match handle with
  | none => .ok suffix
  | some handle =>
      match handles.lookup handle with
      | some expansion => .ok (expansion ++ suffix)
      | none => refuse behind

/-- The anchor and the tag of a node, in either order. Behind a tag alone it is looked for an anchor
before the handle is. -/
def readProperties (handles : Handles) :
    List Token → Except Failure (Option String × Option String × List Token)
  | .anchor name :: .tag handle suffix :: rest => do
      return (some name, some (← fullTag handles handle suffix []), rest)
  | .tag handle suffix :: .anchor name :: rest => do
      return (some name, some (← fullTag handles handle suffix []), rest)
  | .tag handle suffix :: rest => do
      return (none, some (← fullTag handles handle suffix rest), rest)
  | .anchor name :: rest => .ok (some name, none, rest)
  | rest => .ok (none, none, rest)

/-- The kind of a node with a tag; the tag of a single exclamation mark counts for nothing. -/
def tagOr (default : Tag) (tag : Option String) : Tag :=
  match tag with
  | none => default
  | some "!" => default
  | some text => .ofText text

/-- The kind of a scalar. The tag of a single exclamation mark makes it count as plain. -/
def scalarTag (tag : Option String) (plain : Bool) (text : String) : Tag :=
  if plain || tag.isSome then tagOr (.ofPlain text) tag else .text

mutual

/-- Reads a node. Every call takes one of `steps`. -/
def readNode (handles : Handles) (place : Place) (steps : Nat) (r : Row) :
    Except Failure (Node × Row) :=
  match steps with
  | 0 => throw .malformed
  | steps + 1 =>
      match r.tokens with
      | .reference name :: rest =>
          match r.anchors.lookup name with
          | some node => .ok (node, { r with tokens := rest })
          | none => throw .malformed
      | tokens => do
          let (anchor, tag, tokens) ← readProperties handles tokens
          if let .unreadable problem :: _ := tokens then throw (.badScalar problem)
          if anchor.any fun name => (r.anchors.lookup name).isSome then throw .malformed
          let finish (node : Node) (r : Row) := .ok (node, r.addAnchor anchor node)
          let openSequence (rest : List Token) : Row :=
            { r with tokens := rest }.addAnchor anchor (.sequence .list [])
          let openMapping (rest : List Token) : Row :=
            { r with tokens := rest }.addAnchor anchor (.mapping .mapping [])
          match tokens with
          | .scalar plain text :: rest =>
              finish (.scalar (scalarTag tag plain text) text) { r with tokens := rest }
          | .flowSequenceStart :: rest =>
              let (items, r) ← readFlowItems handles true steps (openSequence rest)
              finish (.sequence (tagOr .list tag) items) r
          | .flowMappingStart :: rest =>
              let (pairs, r) ← readFlowPairs handles true steps (openMapping rest)
              finish (.mapping (tagOr .mapping tag) pairs) r
          | .blockSequenceStart :: rest =>
              if place = .flow then throw .malformed
              else
                let (items, r) ← readBlockItems handles true steps (openSequence rest)
                finish (.sequence (tagOr .list tag) items) r
          | .blockMappingStart :: rest =>
              if place = .flow then throw .malformed
              else
                let (pairs, r) ← readBlockPairs handles steps (openMapping rest)
                finish (.mapping (tagOr .mapping tag) pairs) r
          | .blockEntry :: rest =>
              if place = .entry then
                let (items, r) ←
                  readBlockItems handles false steps (openSequence (.blockEntry :: rest))
                finish (.sequence (tagOr .list tag) items) r
              else if anchor.isSome || tag.isSome then
                finish (.scalar (scalarTag tag true "") "") { r with tokens }
              else throw .malformed
          | _ =>
              if anchor.isSome || tag.isSome then
                finish (.scalar (scalarTag tag true "") "") { r with tokens }
              else throw .malformed

/-- Reads a node that may be left out. -/
def readPart (handles : Handles) (place : Place) (steps : Nat) (r : Row) :
    Except Failure (Node × Row) :=
  match steps with
  | 0 => throw .malformed
  | steps + 1 =>
      if r.tokens.head?.any place.isLeftOut then .ok (.empty, r)
      else readNode handles place steps r

/-- Reads a key behind its mark, and the value if there is one. -/
def readPair (handles : Handles) (place : Place) (steps : Nat) (r : Row) :
    Except Failure ((Node × Node) × Row) :=
  match steps with
  | 0 => throw .malformed
  | steps + 1 => do
      let (key, r) ← readPart handles place steps r
      match r.tokens with
      | .value :: rest =>
          let (value, r) ← readPart handles place steps { r with tokens := rest }
          return ((key, value), r)
      | _ => return ((key, .empty), r)

/-- Reads the items of a block sequence, which ends with a token of its own or not. -/
def readBlockItems (handles : Handles) (closed : Bool) (steps : Nat) (r : Row) :
    Except Failure (List Node × Row) :=
  match steps with
  | 0 => throw .malformed
  | steps + 1 =>
      match r.tokens with
      | .blockEntry :: rest => do
          let (item, r) ← readPart handles .item steps { r with tokens := rest }
          let (items, r) ← readBlockItems handles closed steps r
          return (item :: items, r)
      | .blockEnd :: rest => .ok ([], if closed then { r with tokens := rest } else r)
      | tokens => if closed then refuse tokens else .ok ([], r)

def readBlockPairs (handles : Handles) (steps : Nat) (r : Row) :
    Except Failure (List (Node × Node) × Row) :=
  match steps with
  | 0 => throw .malformed
  | steps + 1 =>
      match r.tokens with
      | .key :: rest => do
          let (pair, r) ← readPair handles .entry steps { r with tokens := rest }
          let (pairs, r) ← readBlockPairs handles steps r
          return (pair :: pairs, r)
      | .blockEnd :: rest => .ok ([], { r with tokens := rest })
      | tokens => refuse tokens

/-- Reads the items of a flow sequence, with a separator in front of each but the first and perhaps
one behind the last. A key stands for a mapping with one entry. -/
def readFlowItems (handles : Handles) (first : Bool) (steps : Nat) (r : Row) :
    Except Failure (List Node × Row) :=
  match steps with
  | 0 => throw .malformed
  | steps + 1 =>
      match r.tokens, first with
      | .flowSequenceEnd :: rest, _ => .ok ([], { r with tokens := rest })
      | .flowEntry :: rest, false => readFlowItems handles true steps { r with tokens := rest }
      | .key :: rest, true => do
          let (pair, r) ← readPair handles .flow steps { r with tokens := rest }
          let (items, r) ← readFlowItems handles false steps r
          return (.mapping .mapping [pair] :: items, r)
      | _, true => do
          let (item, r) ← readNode handles .flow steps r
          let (items, r) ← readFlowItems handles false steps r
          return (item :: items, r)
      | tokens, false => refuse tokens

/-- Reads the entries of a flow mapping, with a separator in front of each but the first and perhaps
one behind the last. A node without the mark of a key is a key without a value. -/
def readFlowPairs (handles : Handles) (first : Bool) (steps : Nat) (r : Row) :
    Except Failure (List (Node × Node) × Row) :=
  match steps with
  | 0 => throw .malformed
  | steps + 1 =>
      match r.tokens, first with
      | .flowMappingEnd :: rest, _ => .ok ([], { r with tokens := rest })
      | .flowEntry :: rest, false => readFlowPairs handles true steps { r with tokens := rest }
      | .key :: rest, true => do
          let (pair, r) ← readPair handles .flow steps { r with tokens := rest }
          let (pairs, r) ← readFlowPairs handles false steps r
          return (pair :: pairs, r)
      | _, true => do
          let (key, r) ← readNode handles .flow steps r
          let (pairs, r) ← readFlowPairs handles false steps r
          return ((key, .empty) :: pairs, r)
      | tokens, false => refuse tokens

end

/-- Reads the directives in front of a document. Each of them comes once, and the major version is
one. -/
def readDirectives (versionSeen : Bool) (handles : Handles) :
    List Token → Except Failure (Handles × List Token)
  | .versionDirective major :: rest =>
      if versionSeen || major ≠ 1 then throw .malformed else readDirectives true handles rest
  | .tagDirective handle expansion :: rest =>
      if (handles.lookup handle).isSome then throw .malformed
      else readDirectives versionSeen ((handle, expansion) :: handles) rest
  | .otherDirective :: rest => readDirectives versionSeen handles rest
  | tokens => .ok (handles ++ standardHandles, tokens)

/-- Looks at the tokens behind a document, which are ends of documents. The directives of a second
document are read before it is refused. -/
def finishDocument (tokens : List Token) : Except Failure Unit := do
  match tokens.dropWhile (· = .documentEnd) with
  | [] => return
  | behind => refuse (← readDirectives false [] behind).2

/-- Reads the only node of a document. -/
def Node.ofContent (handles : Handles) (tokens : List Token) : Except Failure Node := do
  let (node, r) ← readNode handles .item (4 * tokens.length + 4) ⟨tokens, []⟩
  finishDocument r.tokens
  return node

/-- The node that the tokens of a text stand for. A document behind its mark may be empty. -/
def Node.ofTokens : List Token → Except Failure Node
  | [] => .ok .empty
  | tokens => do
      let (handles, behind) ← readDirectives false [] tokens
      match behind with
      | .documentStart :: rest =>
          match rest with
          | [] | .documentEnd :: _ | .documentStart :: _ | .versionDirective _ :: _
          | .tagDirective _ _ :: _ | .otherDirective :: _ =>
              finishDocument rest
              return .empty
          | _ => Node.ofContent handles rest
      | _ => if behind.length = tokens.length then Node.ofContent handles tokens else refuse behind

end RamlTypes.Yaml

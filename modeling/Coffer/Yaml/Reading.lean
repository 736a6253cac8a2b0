import Coffer.Yaml.Layout
import Coffer.Yaml.Node

namespace Coffer.Yaml

/-! # Reading documents

The tokens of a text are read as documents of one node each. A node is a scalar, a reference
to an earlier node, or a collection in brackets or in a block.
-/

/-- What is left to be read, and the anchors so far. -/
structure Stream where
  tokens : List Token
  /-- The anchor that a name stands for, as a number, the latest one first. -/
  names : List (String × Nat)
  /-- The nodes of the anchors that are complete. -/
  nodes : List (Nat × Node)
  /-- The number of anchors. -/
  count : Nat

abbrev Read := StateT Stream Option

namespace Read

/-- The next token, which stays. -/
def peek : Read (Option Token) := do
  return (← get).tokens.head?

/-- Passes over the next token. -/
def skip : Read Unit :=
  modify fun stream => { stream with tokens := stream.tokens.drop 1 }

/-- Whether the next token is one of the given ones. -/
def sees (tokens : List Token) : Read Bool := do
  return (← peek).any tokens.contains

/-- Passes over the next token if it is the given one. -/
def skips (token : Token) : Read Bool := do
  if ← sees [token] then
    skip
    return true
  else return false

def newAnchor (name : String) : Read Nat := do
  let stream ← get
  set { stream with names := (name, stream.count) :: stream.names, count := stream.count + 1 }
  return stream.count

/-- What may stand before a node: an anchor and a tag. -/
structure Properties where
  anchor : Option Nat
  tag : Option (String × String)

/-- Reads an anchor and a tag in either order. -/
def properties : Read Properties := do
  match ← peek with
  | some (.anchor name) =>
    skip
    let anchor ← newAnchor name
    match ← peek with
    | some (.tag handle suffix) =>
      skip
      return { anchor := some anchor, tag := some (handle, suffix) }
    | _ => return { anchor := some anchor, tag := none }
  | some (.tag handle suffix) =>
    skip
    match ← peek with
    | some (.anchor name) =>
      skip
      let anchor ← newAnchor name
      return { anchor := some anchor, tag := some (handle, suffix) }
    | _ => return { anchor := none, tag := some (handle, suffix) }
  | _ => return { anchor := none, tag := none }

/-- The node that an anchor's name stands for. One that is not complete is of no use. -/
def referred (name : String) : Read Node := do
  let stream ← get
  match stream.names.lookup name with
  | none => failure
  | some anchor => return (stream.nodes.lookup anchor).getD .invalid

def anchored (anchor : Option Nat) (node : Node) : Read Node := do
  match anchor with
  | none => return node
  | some anchor =>
    modify fun stream => { stream with nodes := (anchor, node) :: stream.nodes }
    return node

mutual

/-- Reads a node, which may be a block only where that is allowed. The items of a sequence
may stand right under their name. -/
def node : (fuel : Nat) → (block items : Bool) → Read Node
  | 0, _, _ => failure
  | fuel + 1, block, items => do
    if let some (.reference name) ← peek then
      skip
      return ← referred name
    let given ← properties
    match ← peek with
    | some (.scalar plain text) =>
      skip
      anchored given.anchor (.ofScalar plain given.tag text)
    | some .bracketStart =>
      skip
      anchored given.anchor (.sequence (← bracketItems fuel true))
    | some .braceStart =>
      skip
      anchored given.anchor (.ofTurns (← braceTurns fuel true))
    | some .item =>
      if items then anchored given.anchor (.sequence (← nameItems fuel))
      else empty given
    | some .sequenceStart =>
      if block then
        skip
        anchored given.anchor (.sequence (← blockItems fuel))
      else empty given
    | some .mappingStart =>
      if block then
        skip
        anchored given.anchor (.ofTurns (← blockTurns fuel))
      else empty given
    | _ => empty given
where
  /-- A node of which there is an anchor or a tag at most. -/
  empty (given : Properties) : Read Node :=
    if given.anchor.isSome || given.tag.isSome then
      anchored given.anchor (.ofScalar true given.tag "")
    else failure

/-- Reads a node, or a null where one of the given tokens is next. -/
def nodeUnless : (fuel : Nat) → (ends : List Token) → (block items : Bool) → Read Node
  | 0, _, _, _ => failure
  | fuel + 1, ends, block, items => do
    if ← sees ends then return .null else node fuel block items

def blockItems : (fuel : Nat) → Read (List Node)
  | 0 => failure
  | fuel + 1 => do
    if ← skips .blockEnd then return []
    if ← skips .item then
      let first ← nodeUnless fuel [.item, .blockEnd] true false
      return first :: (← blockItems fuel)
    failure

/-- Reads items that stand right under their name. -/
def nameItems : (fuel : Nat) → Read (List Node)
  | 0 => failure
  | fuel + 1 => do
    if ← skips .item then
      let first ← nodeUnless fuel [.item, .name, .value, .blockEnd] true false
      return first :: (← nameItems fuel)
    return []

/-- Reads the names and values of a mapping in a block. -/
def blockTurns : (fuel : Nat) → Read (List Node)
  | 0 => failure
  | fuel + 1 => do
    if ← skips .blockEnd then return []
    let name ←
      if ← skips .name then nodeUnless fuel [.name, .value, .blockEnd] true true
      else if ← sees [.value] then pure .null
      else failure
    let value ←
      if ← skips .value then nodeUnless fuel [.name, .value, .blockEnd] true true
      else pure .null
    return name :: value :: (← blockTurns fuel)

/-- Reads the rest of a sequence in brackets, of which items may have been read. -/
def bracketItems : (fuel : Nat) → (first : Bool) → Read (List Node)
  | 0, _ => failure
  | fuel + 1, first => do
    if ← skips .bracketEnd then return []
    if !first then
      if !(← skips .comma) then failure
      if ← skips .bracketEnd then return []
    let item ← if ← skips .name then pairItem fuel else node fuel false false
    return item :: (← bracketItems fuel false)

/-- Reads an item that is a name with its value. -/
def pairItem : (fuel : Nat) → Read Node
  | 0 => failure
  | fuel + 1 => do
    let name ←
      if ← sees [.value, .comma, .bracketEnd] then
        skip
        pure .null
      else node fuel false false
    let value ←
      if ← skips .value then nodeUnless fuel [.comma, .bracketEnd] false false
      else pure .null
    return .ofTurns [name, value]

/-- Reads the rest of the names and values of a mapping in braces. -/
def braceTurns : (fuel : Nat) → (first : Bool) → Read (List Node)
  | 0, _ => failure
  | fuel + 1, first => do
    if ← skips .braceEnd then return []
    if !first then
      if !(← skips .comma) then failure
      if ← skips .braceEnd then return []
    if ← skips .name then
      let name ← nodeUnless fuel [.value, .comma, .braceEnd] false false
      let value ← braceValue fuel
      return name :: value :: (← braceTurns fuel false)
    else if ← sees [.value] then
      let value ← braceValue fuel
      return .null :: value :: (← braceTurns fuel false)
    else
      let name ← node fuel false false
      return name :: .null :: (← braceTurns fuel false)

def braceValue : (fuel : Nat) → Read Node
  | 0 => failure
  | fuel + 1 => do
    if ← skips .value then nodeUnless fuel [.comma, .braceEnd] false false
    else return .null

end

def directives : (fuel : Nat) → Read Unit
  | 0 => failure
  | fuel + 1 => do
    if ← skips .directive then directives fuel else return

/-- Reads the node of a document. One that begins with a mark may be empty. -/
def content (fuel : Nat) : Read Node := do
  if ← sees [.directive, .documentStart] then
    directives fuel
    if !(← skips .documentStart) then failure
    if (← peek).isNone then return .null
    nodeUnless fuel [.directive, .documentStart, .documentEnd] true false
  else node fuel true false

def document (fuel : Nat) : Read (Option Node) := do
  if (← peek).isNone then return none
  let node ← content fuel
  if (← get).tokens.all (· == .documentEnd) then return some node else failure

end Read

/-- The node of the document in a text, if there is one. A text of several documents is not
read. -/
def document? (text : String) : Option (Option Node) := do
  let tokens ← tokens? text
  let stream : Stream := { tokens, names := [], nodes := [], count := 0 }
  (Read.document (3 * tokens.length + 4)).run' stream

end Coffer.Yaml

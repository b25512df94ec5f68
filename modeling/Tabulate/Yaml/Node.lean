import Tabulate.Yaml.Lexer

/-! The tree of a YAML document, in which aliases are replaced by what they stand for. -/
namespace Tabulate.Yaml

inductive Node
  | scalar (isPlain : Bool) (tag : Option Tag) (text : List Char)
  | sequence (items : List Node)
  | mapping (pairs : List (Node × Node))

def Node.empty : Node := .scalar true none ['~']

/-- A node with what it costs: the parts that it is written in, the aliases that are followed
in it, and the depth to which it is nested. -/
structure Read where
  node : Node
  parts : Nat
  aliases : Nat
  depth : Nat

namespace Read

def ofScalar (n : Node) : Read := ⟨n, 1, 0, 0⟩

def empty : Read := ofScalar .empty

private def around (n : Node) (inner : List Read) : Read :=
  ⟨n, inner.foldl (· + ·.parts) 2, inner.foldl (· + ·.aliases) 0,
    1 + inner.foldl (fun depth r => max depth r.depth) 0⟩

def ofItems (items : List Read) : Read := around (.sequence (items.map (·.node))) items

def ofPairs (pairs : List (Read × Read)) : Read :=
  around (.mapping (pairs.map fun (k, v) => (k.node, v.node))) (pairs.flatMap fun (k, v) => [k, v])

def followed (r : Read) : Read := { r with parts := 1, aliases := r.aliases + 1 }

end Read

/-- An anchor and its node, which is absent while it is being read. -/
structure Anchor where
  name : List Char
  id : Nat
  node : Option Read

structure Reading where
  tokens : List Token
  anchors : List Anchor

abbrev Reader := StateT Reading (Except Fault)

namespace Reader

private def peek : Reader (Option Token) := do return (← get).tokens.head?

private def skip : Reader Unit := modify fun s => { s with tokens := s.tokens.tail }

private def eat (t : Token) : Reader Bool := do
  if (← peek) = some t then
    skip
    return true
  else return false

private def follow (name : List Char) : Reader Read := do
  match (← get).anchors.find? (·.name = name) with
  | none => throw .unknownAnchor
  | some ⟨_, _, none⟩ => throw .tooDeep
  | some ⟨_, _, some r⟩ => return r.followed

private def declare (name : List Char) : Reader Nat := do
  let id := (← get).anchors.length
  modify fun s => { s with anchors := ⟨name, id, none⟩ :: s.anchors }
  return id

private def define (id : Option Nat) (r : Read) : Reader Read := do
  modify fun s => { s with
    anchors := s.anchors.map fun a => if some a.id = id then { a with node := some r } else a }
  return r

private def readProperties : Reader (Option Nat × Option Tag) := do
  match ← peek with
  | some (.anchor name) =>
    skip
    let id ← declare name
    match ← peek with
    | some (.tag tag) => skip; return (some id, some tag)
    | _ => return (some id, none)
  | some (.tag tag) =>
    skip
    match ← peek with
    | some (.anchor name) => skip; return (some (← declare name), some tag)
    | _ => return (none, some tag)
  | _ => return (none, none)

mutual

/-- Reads a node; blocks may be forbidden, and sequences without indentation allowed. -/
private def readNode : Nat → Bool → Bool → Reader Read
  | 0, _, _ => throw .noContent
  | fuel + 1, block, indentless => do
    match ← peek with
    | some (.reference name) => skip; follow name
    | _ => do
      let (id, tag) ← readProperties
      match ← peek with
      | some (.scalar isPlain text) => skip; define id (.ofScalar (.scalar isPlain tag text))
      | some .flowSequence => skip; define id (.ofItems (← readFlowItems fuel true))
      | some .flowMapping => skip; define id (.ofPairs (← readFlowPairs fuel true))
      | next => do
        if next = some .entry ∧ indentless then
          define id (.ofItems (← readIndentlessItems fuel))
        else if next = some .blockSequence ∧ block then
          skip
          define id (.ofItems (← readBlockItems fuel))
        else if next = some .blockMapping ∧ block then
          skip
          define id (.ofPairs (← readBlockPairs fuel))
        else if id.isSome ∨ tag.isSome then
          define id (.ofScalar (.scalar true tag []))
        else throw .noContent

private def readUnless : Nat → List Token → Bool → Bool → Reader Read
  | 0, _, _, _ => throw .noContent
  | fuel + 1, followers, block, indentless => do
    if (← peek).any followers.contains then return .empty else readNode fuel block indentless

private def readValue : Nat → List Token → Bool → Reader Read
  | 0, _, _ => throw .noContent
  | fuel + 1, followers, block => do
    if ← eat .value then readUnless fuel followers block block else return .empty

private def readBlockItems : Nat → Reader (List Read)
  | 0 => throw .noContent
  | fuel + 1 => do
    if ← eat .blockEnd then return []
    else if ← eat .entry then do
      let item ← readUnless fuel [.entry, .blockEnd] true false
      return item :: (← readBlockItems fuel)
    else throw .noContent

private def readIndentlessItems : Nat → Reader (List Read)
  | 0 => throw .noContent
  | fuel + 1 => do
    if ← eat .entry then do
      let item ← readUnless fuel [.entry, .key, .value, .blockEnd] true false
      return item :: (← readIndentlessItems fuel)
    else return []

private def readBlockPairs : Nat → Reader (List (Read × Read))
  | 0 => throw .noContent
  | fuel + 1 => do
    let followers := [Token.key, .value, .blockEnd]
    if ← eat .blockEnd then return []
    else if ← eat .key then do
      let key ← readUnless fuel followers true true
      let value ← readValue fuel followers true
      return (key, value) :: (← readBlockPairs fuel)
    else if (← peek) = some .value then do
      let value ← readValue fuel followers true
      return (.empty, value) :: (← readBlockPairs fuel)
    else throw .noContent

private def readFlowItems : Nat → Bool → Reader (List Read)
  | 0, _ => throw .noContent
  | fuel + 1, isFirst => do
    if ← eat .flowSequenceEnd then return []
    else do
      if !isFirst then
        if !(← eat .flowEntry) then throw .noContent
      if ← eat .flowSequenceEnd then return []
      else if ← eat .key then do
        let pair ← readFlowPair fuel
        return .ofPairs [pair] :: (← readFlowItems fuel false)
      else do
        let item ← readNode fuel false false
        return item :: (← readFlowItems fuel false)

/-- Reads a sole pair within a sequence. A mark that stands in place of its key is passed over. -/
private def readFlowPair : Nat → Reader (Read × Read)
  | 0 => throw .noContent
  | fuel + 1 => do
    let followers := [Token.flowEntry, .flowSequenceEnd]
    if (← peek).any (Token.value :: followers).contains then
      skip
      return (.empty, ← readValue fuel followers false)
    else do
      let key ← readNode fuel false false
      return (key, ← readValue fuel followers false)

private def readFlowPairs : Nat → Bool → Reader (List (Read × Read))
  | 0, _ => throw .noContent
  | fuel + 1, isFirst => do
    let followers := [Token.flowEntry, .flowMappingEnd]
    if ← eat .flowMappingEnd then return []
    else do
      if !isFirst then
        if !(← eat .flowEntry) then throw .noContent
      if ← eat .flowMappingEnd then return []
      else if ← eat .key then do
        let key ← readUnless fuel (.value :: followers) false false
        let value ← readValue fuel followers false
        return (key, value) :: (← readFlowPairs fuel false)
      else if (← peek) = some .value then do
        let value ← readValue fuel followers false
        return (.empty, value) :: (← readFlowPairs fuel false)
      else do
        let key ← readNode fuel false false
        return (key, .empty) :: (← readFlowPairs fuel false)

end

private def readDocument (fuel : Nat) : Reader Read := do
  let explicit := (← peek) = some .directive || (← peek) = some .documentStart
  if (← peek) = some .streamEnd then throw .noDocument
  modify fun s => { s with tokens := s.tokens.dropWhile (· = .directive) }
  if explicit then
    if !(← eat .documentStart) then throw .noContent
  let followers := [Token.directive, .documentStart, .documentEnd, .streamEnd]
  let r ← if explicit then readUnless fuel followers true false else readNode fuel true false
  modify fun s => { s with tokens := s.tokens.dropWhile (· = .documentEnd) }
  if (← peek) = some .streamEnd then return r else throw .severalDocuments

end Reader

def maxDepth : Nat := 128

/-- The document of a text. Its aliases are followed at most a hundred times for each of its
parts. -/
def Node.read (text : String) : Except Fault Node := do
  let tokens ← lex text.toList
  let (r, _) ← (Reader.readDocument (4 * tokens.length + 8)).run ⟨tokens, []⟩
  if maxDepth < r.depth then throw .tooDeep
  if 100 * r.parts < r.aliases then throw .tooManyAliases
  return r.node

end Tabulate.Yaml

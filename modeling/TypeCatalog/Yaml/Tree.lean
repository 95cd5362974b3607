import TypeCatalog.Yaml.Token

/-! YAML text as a tree of nodes. A scalar that is referred to stands in place of the alias; collections are referred to
by their numbers. What an alias refers to comes before it or is around it. -/

namespace TypeCatalog.Yaml

/-- A node with its number and its tag, if it has one. -/
inductive Tree where
  | scalar (number : Nat) (tag : Option (List Char)) (isPlain : Bool) (text : List Char)
  | sequence (number : Nat) (tag : Option (List Char)) (items : List Tree)
  | mapping (number : Nat) (tag : Option (List Char)) (fields : List (Tree × Tree))
  /-- The collection with a number. -/
  | alias (number : Nat)
  deriving Repr

namespace Tree

/-- A node that is not written at all. -/
def absent : Tree := .scalar 0 none true []

/-- The nodes with anchors so far; collections are given by their numbers. -/
abbrev Anchors := List (List Char × Tree)

/-- What is left to read: tokens, and what came in front of them. -/
structure Rest where
  tokens : List Token
  anchors : Anchors := []
  /-- The addresses of the handles of tags. -/
  handles : List (List Char × List Char) := knownHandles
  /-- How many nodes there are so far. -/
  count : Nat := 0

/-- A reader of nodes. -/
abbrev Reader := StateT Rest Option

def peek : Reader (Option Token) := do return (← get).tokens.head?

def advance : Reader Unit := modify fun rest => { rest with tokens := rest.tokens.drop 1 }

def fail {α : Type} : Reader α := fun _ => none

/-- Goes over a token that must come next. -/
def expect (token : Token) : Reader Unit := do
  if (← peek) == some token then advance else fail

/-- Goes over a token if it comes next. -/
def accept (token : Token) : Reader Bool := do
  if (← peek) == some token then
    advance
    return true
  return false

/-- The number of a new node. -/
def fresh : Reader Nat := do
  modify fun rest => { rest with count := rest.count + 1 }
  return (← get).count

/-- The full tag that a handle and a suffix stand for. -/
def fullTag (handle suffix : List Char) : Reader (List Char) := do
  if handle.isEmpty then return suffix
  match (← get).handles.lookup handle with
  | some address => return address ++ suffix
  | none => fail

/-- The anchor and the tag in front of a node, in either order. -/
def properties : Reader (Option (List Char) × Option (List Char)) := do
  match ← peek with
  | some (.anchor anchor) =>
    advance
    match ← peek with
    | some (.tag handle suffix) =>
      advance
      return (some anchor, some (← fullTag handle suffix))
    | _ => return (some anchor, none)
  | some (.tag handle suffix) =>
    advance
    match ← peek with
    | some (.anchor anchor) =>
      advance
      return (some anchor, some (← fullTag handle suffix))
    | _ => return (none, some (← fullTag handle suffix))
  | _ => return (none, none)

/-- Notes the node of an anchor. An anchor names one node only. -/
def register (anchor : Option (List Char)) (tree : Tree) : Reader Tree := do
  match anchor with
  | none => return tree
  | some name =>
    if ((← get).anchors.lookup name).isSome then fail
    modify fun rest => { rest with anchors := (name, tree) :: rest.anchors }
    return tree

/-- Reads a collection, whose parts may refer to it. -/
def collection {α : Type} (anchor : Option (List Char)) (make : Nat → α → Tree) (parts : Reader α) : Reader Tree := do
  let number ← fresh
  let _ ← register anchor (.alias number)
  return make number (← parts)

/-- Whether one of the tokens comes next, or nothing does. -/
def endsAt (tokens : List Token) : Reader Bool := do
  return match ← peek with
    | none => true
    | some token => tokens.contains token

mutual

/-- A node. Block collections are allowed outside of brackets only; the value of a key may be a sequence that is not
indented further. -/
def node (inBlock unindented : Bool) : Nat → Reader Tree
  | 0 => fail
  | steps + 1 => do
    match ← peek with
    | some (.alias name) =>
      advance
      match (← get).anchors.lookup name with
      | some tree => return tree
      | none => fail
    | _ =>
      let (anchor, tag) ← properties
      match ← peek with
      | some .entry =>
        if unindented then collection anchor (.sequence · tag ·) (unindentedItems steps)
        else bare anchor tag
      | some (.scalar isPlain text) =>
        advance
        register anchor (.scalar (← fresh) tag isPlain text)
      | some .flowSequence =>
        advance
        collection anchor (.sequence · tag ·) (flowItems true steps)
      | some .flowMapping =>
        advance
        collection anchor (.mapping · tag ·) (flowFields true steps)
      | some .blockSequence =>
        if inBlock then
          advance
          collection anchor (.sequence · tag ·) (blockItems steps)
        else bare anchor tag
      | some .blockMapping =>
        if inBlock then
          advance
          collection anchor (.mapping · tag ·) (blockFields steps)
        else bare anchor tag
      | _ => bare anchor tag

/-- A node with properties and nothing else. -/
def bare (anchor tag : Option (List Char)) : Reader Tree := do
  if anchor.isSome || tag.isSome then register anchor (.scalar (← fresh) tag true []) else fail

/-- A node, unless one of the tokens comes next: then it is absent. -/
def nodeUnless (tokens : List Token) (inBlock unindented : Bool) : Nat → Reader Tree
  | 0 => fail
  | steps + 1 => do
    if ← endsAt tokens then return absent else node inBlock unindented steps

def blockItems : Nat → Reader (List Tree)
  | 0 => fail
  | steps + 1 => do
    if ← accept .blockEnd then return []
    expect .entry
    let item ← nodeUnless [.entry, .blockEnd] true false steps
    return item :: (← blockItems steps)

def unindentedItems : Nat → Reader (List Tree)
  | 0 => fail
  | steps + 1 => do
    if !(← accept .entry) then return []
    let item ← nodeUnless [.entry, .key, .value, .blockEnd] true false steps
    return item :: (← unindentedItems steps)

def blockFields : Nat → Reader (List (Tree × Tree))
  | 0 => fail
  | steps + 1 => do
    if ← accept .blockEnd then return []
    let ends := [Token.key, .value, .blockEnd]
    expect .key
    let key ← nodeUnless ends true true steps
    let value ← if ← accept .value then nodeUnless ends true true steps else pure absent
    return (key, value) :: (← blockFields steps)

def flowItems (isFirst : Bool) : Nat → Reader (List Tree)
  | 0 => fail
  | steps + 1 => do
    if ← accept .flowSequenceEnd then return []
    if !isFirst then expect .flowEntry
    if ← accept .flowSequenceEnd then return []
    let item ← if ← accept .key then pair steps else node false false steps
    return item :: (← flowItems false steps)

/-- A single pair inside a sequence, which is a mapping of its own. An absent key uses up the token after it. -/
def pair : Nat → Reader Tree
  | 0 => fail
  | steps + 1 => do
    let ends := [Token.value, .flowEntry, .flowSequenceEnd]
    let isAbsent ← endsAt ends
    let key ← nodeUnless ends false false steps
    if isAbsent then advance
    let value ← if ← accept .value then nodeUnless [.flowEntry, .flowSequenceEnd] false false steps else pure absent
    return .mapping (← fresh) none [(key, value)]

def flowFields (isFirst : Bool) : Nat → Reader (List (Tree × Tree))
  | 0 => fail
  | steps + 1 => do
    if ← accept .flowMappingEnd then return []
    if !isFirst then expect .flowEntry
    if ← accept .flowMappingEnd then return []
    let field ← if ← accept .key then do
        let key ← nodeUnless [.value, .flowEntry, .flowMappingEnd] false false steps
        let value ← if ← accept .value then nodeUnless [.flowEntry, .flowMappingEnd] false false steps else pure absent
        pure (key, value)
      else do pure (← node false false steps, absent)
    return field :: (← flowFields false steps)

end

/-- The directives that come next. -/
def directives : Nat → Reader (List Directive)
  | 0 => fail
  | steps + 1 => do
    match ← peek with
    | some (.directive directive) =>
      advance
      return directive :: (← directives steps)
    | _ => return []

/-- Checks the versions among directives: one that can be read, if there is one. -/
def checkVersion (directives : List Directive) : Reader Unit := do
  let versions := directives.filterMap fun
    | .version major minor => some (major, minor)
    | .handle .. => none
  if 1 < versions.length || !versions.all fun version => isKnownVersion version.1 version.2 then fail

/-- Notes the handles among directives. A handle has one address. -/
def useHandles (directives : List Directive) : Reader Unit := do
  let handles := directives.filterMap fun
    | .version .. => none
    | .handle name address => some (name, address)
  if (handles.map (·.1)).eraseDups.length != handles.length then fail
  modify fun rest => { rest with handles := handles ++ rest.handles }

/-- The end of the text, with nothing but end marks in front. -/
def ending : Nat → Reader Unit
  | 0 => fail
  | steps + 1 => do
    if ← accept .documentEnd then ending steps
    else if (← peek).isSome then fail

/-- The one document of a text, if there is one. Directives only stand in front of a document with a start mark. -/
def document (steps : Nat) : Reader (Option Tree) := do
  if (← peek).isNone then return none
  let directives ← directives steps
  checkVersion directives
  useHandles directives
  let isExplicit ← accept .documentStart
  if !directives.isEmpty && !isExplicit then fail
  let tree ← if isExplicit then content else node true false steps
  ending steps
  return some tree
where
  /-- What follows a start mark, which may be nothing. -/
  content : Reader Tree := do
    match ← peek with
    | some (.directive _) => return absent
    | _ => nodeUnless [.documentStart, .documentEnd] true false steps

/-- The tree of a text; a text without a document has none. -/
def ofText (text : List Char) : Option (Option Tree) := do
  let tokens ← tokensOf text
  let (tree, _) ← document (3 * tokens.length + 3) { tokens }
  return tree

end Tree

end TypeCatalog.Yaml

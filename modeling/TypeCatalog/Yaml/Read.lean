import TypeCatalog.Data.Convert
import TypeCatalog.Data.Reference
import TypeCatalog.Yaml.Tree

/-! The data that a YAML text spells. Collections are marked with the numbers of their nodes, so that a node that is
referred to is known again. A tree is looked at level by level, and what is met first counts. -/

namespace TypeCatalog.Yaml

namespace Tree

/-- What a node stands for, as its tag states. -/
inductive Meaning where
  | scalar (tag : Tag)
  | sequence
  | mapping
  deriving DecidableEq, Repr

/-- The meaning of a tag. Tags that have none are not understood. -/
def meaningOf? (tag : List Char) : Option Meaning :=
  match (coreAddress.isPrefixOf? tag).map String.ofList with
  | some "str" => some (.scalar .text)
  | some "null" => some (.scalar .null)
  | some "bool" => some (.scalar .bool)
  | some "int" => some (.scalar .int)
  | some "float" => some (.scalar .real)
  | some "seq" => some .sequence
  | some "map" => some .mapping
  | _ => none

/-- The tag of a node, unless it is the mark that says nothing. -/
def stated (tag : Option (List Char)) : Option (List Char) := tag.filter (· != ['!'])

/-- The meaning of a scalar. Without a tag that of a plain scalar depends on its text. -/
def scalarMeaning? (tag : Option (List Char)) (isPlain : Bool) (text : List Char) : Option Meaning :=
  match stated tag with
  | some tag => meaningOf? tag
  | none => some (.scalar (if isPlain || tag.isSome then resolve text else .text))

/-- The meaning of a collection, whose own is given. -/
def collectionMeaning? (own : Meaning) (tag : Option (List Char)) : Option Meaning :=
  match stated tag with
  | some tag => meaningOf? tag
  | none => some own

/-- Whether a node stands for a collection. -/
def isCollection : Option Meaning → Bool
  | some .sequence | some .mapping => true
  | _ => false

/-- The value of a scalar. -/
def scalarKey (tag : Option (List Char)) (isPlain : Bool) (text : List Char) : Except Failure Key :=
  match scalarMeaning? tag isPlain text with
  | some (.scalar tag) => scalarValue tag text
  | _ => .error .yamlMalformed

/-- What matters of a node where it is met. -/
inductive Finding where
  | rejected (failure : Failure)
  /-- The mark of the default value, which stands for itself if it has been a key. -/
  | default (number : Nat)
  /-- The mark of the default value as a key. -/
  | defaultKey (number : Nat)
  deriving Repr

/-- What is found at a node. The parts of a collection are looked at later; as a key it will not do. -/
def findings (isKey : Bool) : Tree → List Finding
  | .scalar number tag isPlain text => match scalarMeaning? tag isPlain text with
    | some (.scalar .default) => if isKey then [] else [.default number]
    | some (.scalar tag) => match scalarValue tag text with
      | .ok _ => []
      | .error failure => [.rejected failure]
    | some _ => if isKey then [.rejected .yamlMalformed] else []
    | none => [.rejected .yamlMalformed]
  | .sequence _ tag _ =>
    if isKey || !isCollection (collectionMeaning? .sequence tag) then [.rejected .yamlMalformed] else []
  | .mapping _ tag _ =>
    if isKey || !isCollection (collectionMeaning? .mapping tag) then [.rejected .yamlMalformed] else []
  | .alias _ => if isKey then [.rejected .yamlMalformed] else []

/-- The mark of the default value, if a key is one. -/
def defaultKey : Tree → List Finding
  | .scalar number tag isPlain text =>
    if scalarMeaning? tag isPlain text == some (.scalar .default) then [.defaultKey number] else []
  | _ => []

/-- What is found at the parts of a node. The keys of a mapping are known before its parts are met. -/
def partFindings : Tree → List Finding
  | .scalar _ tag isPlain text => match scalarMeaning? tag isPlain text with
    | some (.scalar _) | none => []
    | some _ => [.rejected .yamlMalformed]
  | .sequence _ tag items =>
    if collectionMeaning? .sequence tag == some .sequence then items.flatMap (findings false)
    else [.rejected .yamlMalformed]
  | .mapping _ tag fields =>
    if collectionMeaning? .mapping tag == some .mapping then
      fields.flatMap (defaultKey ·.1) ++ fields.flatMap fun (key, value) => findings true key ++ findings false value
    else [.rejected .yamlMalformed]
  | .alias _ => []

/-- The parts of a node that have to be looked into. -/
def parts : Tree → List Tree
  | .sequence _ _ items => items
  | .mapping _ _ fields => fields.map (·.2)
  | _ => []

mutual

/-- The numbers that aliases refer to. -/
def aliases : Tree → List Nat
  | .scalar .. => []
  | .sequence _ _ items => listAliases items
  | .mapping _ _ fields => fieldAliases fields
  | .alias number => [number]

def listAliases : List Tree → List Nat
  | [] => []
  | item :: rest => aliases item ++ listAliases rest

def fieldAliases : List (Tree × Tree) → List Nat
  | [] => []
  | (key, value) :: rest => aliases key ++ aliases value ++ fieldAliases rest

end

mutual

/-- The collections by their numbers. -/
def collections : Tree → List (Nat × Tree)
  | .scalar .. | .alias _ => []
  | .sequence number tag items => (number, .sequence number tag items) :: listCollections items
  | .mapping number tag fields => (number, .mapping number tag fields) :: fieldCollections fields

def listCollections : List Tree → List (Nat × Tree)
  | [] => []
  | item :: rest => collections item ++ listCollections rest

def fieldCollections : List (Tree × Tree) → List (Nat × Tree)
  | [] => []
  | (key, value) :: rest => collections key ++ collections value ++ fieldCollections rest

end

/-- The nodes of a level, without those that were met before. Only collections that aliases refer to are met again; they
are given by their numbers, and the numbers of those that were not met yet are told. -/
def newNodes (targets : List (Nat × Tree)) : List Nat → List Tree → List Tree × List Nat
  | unmet, [] => ([], unmet)
  | unmet, node :: rest =>
    let number := match node with
      | .scalar .. => none
      | .sequence number .. | .mapping number .. | .alias number => some number
    match number.bind fun number => (targets.lookup number).map (number, ·) with
    | none =>
      let (others, unmet) := newNodes targets unmet rest
      (node :: others, unmet)
    | some (number, target) =>
      if unmet.contains number then
        let (others, unmet) := newNodes targets (unmet.erase number) rest
        (target :: others, unmet)
      else newNodes targets unmet rest

/-- What is found at the parts of nodes, level by level, in at most so many levels. -/
def findingsBelow (targets : List (Nat × Tree)) : Nat → List Nat → List Tree → List Finding
  | 0, _, _ => []
  | _, _, [] => []
  | levels + 1, unmet, nodes =>
    let (next, unmet) := newNodes targets unmet (nodes.flatMap parts)
    nodes.flatMap partFindings ++ findingsBelow targets levels unmet next

/-- The first reason to reject what was found, given the marks of the default value that have been keys. -/
def firstFailure (keys : List Nat) : List Finding → Option Failure
  | [] => none
  | .rejected failure :: _ => some failure
  | .defaultKey number :: rest => firstFailure (number :: keys) rest
  | .default number :: rest => if keys.contains number then firstFailure keys rest else some .yamlMalformed

/-- The first reason to reject a tree: what is nearer to the top comes first. Every level has a collection of its own. -/
def rejected? (tree : Tree) : Option Failure :=
  let collections := tree.collections
  let aliases := tree.aliases.eraseDups
  let targets := collections.filter (aliases.contains ·.1)
  let (nodes, unmet) := newNodes targets (targets.map (·.1)) [tree]
  firstFailure [] (findings false tree ++ findingsBelow targets (collections.length + 1) unmet nodes)

/-- Puts a value under a key. A key that is there keeps its place. In a document every NaN is the same key. -/
def putField (key : Key) (value : Marked Nat) : List (Key × Marked Nat) → List (Key × Marked Nat)
  | [] => [(key, value)]
  | (other, old) :: rest =>
    if other == key || other.same key then (other, value) :: rest else (other, old) :: putField key value rest

mutual

/-- The data of a tree. Of several fields with one key the last one counts. -/
def data : Tree → Except Failure (Marked Nat)
  | .scalar _ tag isPlain text => return .scalar (← scalarKey tag isPlain text)
  | .sequence number _ items => return .array (some number) (← listData items)
  | .mapping number _ fields => do
    return .object (some number) ((← fieldsData fields).foldl (fun fields (key, value) => putField key value fields) [])
  | .alias number => .ok (.reference number)

def listData : List Tree → Except Failure (List (Marked Nat))
  | [] => .ok []
  | item :: rest => do
    let first ← data item
    return first :: (← listData rest)

def fieldsData : List (Tree × Tree) → Except Failure (List (Key × Marked Nat))
  | [] => .ok []
  | (key, value) :: rest => do
    let name ← match key with
      | .scalar _ tag isPlain text => scalarKey tag isPlain text
      | _ => .error .yamlMalformed
    let first ← data value
    return (name, first) :: (← fieldsData rest)

end

end Tree

/-- The data that a YAML text spells, with its collections marked; an empty text is null. -/
def decodeMarked (text : String) : Except Failure (Marked Nat) :=
  match Tree.ofText text.toList with
  | none => .error .yamlMalformed
  | some none => .ok (.scalar .null)
  | some (some tree) => match tree.rejected? with
    | some failure => .error failure
    | none => tree.data

/-- The data that a YAML text spells. -/
def decode (text : String) : Except Failure Data := do (← decodeMarked text).toData

end TypeCatalog.Yaml

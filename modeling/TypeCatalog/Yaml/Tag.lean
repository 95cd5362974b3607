import TypeCatalog.Text.Escape
import TypeCatalog.Yaml.Point

/-! Tags, which state what a node stands for, and the directives in front of a document. A tag is written as a handle and
a suffix. The handle stands for the beginning of an address, and a directive can tell for which. -/

namespace TypeCatalog.Yaml
open Text

/-- A directive: the version that a document is written in, or the address that a handle of tags stands for. -/
inductive Directive where
  | version (major minor : Nat)
  | handle (name address : List Char)
  deriving DecidableEq, Repr

/-- A character of names of anchors, handles and directives. -/
def isNameChar (c : Char) : Bool := c.isAlphanum || c == '_' || c == '-'

/-- A character of addresses. Brackets and commas belong to those only that stand apart from the text around them. -/
def isAddressChar (standsApart : Bool) (c : Char) : Bool :=
  isNameChar c || ";/?:@&=+$.!~*\x27()".toList.contains c || (standsApart && ",[]".toList.contains c)

/-- The octets of an address at the front of a text, and the text after it. Other octets than those of address characters
are written with a percent sign. -/
def takeOctets (standsApart : Bool) : List Char → Option (List UInt8 × List Char)
  | '%' :: high :: low :: rest => do
    let (octet, _) ← takeHex 0 2 [high, low]
    let (octets, rest) ← takeOctets standsApart rest
    return (octet.toUInt8 :: octets, rest)
  | c :: rest =>
    if c == '%' then none
    else if !isAddressChar standsApart c then some ([], c :: rest)
    else do
      let (octets, rest) ← takeOctets standsApart rest
      return (c.toNat.toUInt8 :: octets, rest)
  | [] => some ([], [])

def takeAddress (standsApart : Bool) (text : List Char) : Option (List Char × List Char) := do
  let (octets, rest) ← takeOctets standsApart text
  let address ← String.fromUTF8? ⟨octets.toArray⟩
  return (address.toList, rest)

/-- A handle at the front of a text: an exclamation mark, or a name between two. The second one may be missing if the name
turns out to be the start of a suffix. -/
def takeHandle : List Char → Option (List Char × List Char)
  | '!' :: text =>
    let name := text.takeWhile isNameChar
    match text.drop name.length with
    | '!' :: rest => some ('!' :: name ++ ['!'], rest)
    | rest => some ('!' :: name, rest)
  | _ => none

/-- Whether a handle is more than a single mark, and closed. -/
def isClosedHandle (handle : List Char) : Bool := 1 < handle.length && handle.getLast? == some '!'

/-- A tag at the front of a text: its handle, its suffix, and the text after it. A tag between angles is a full address
and has no handle, and neither has the mark that stands alone. -/
def takeTag : List Char → Option (List Char × List Char × List Char)
  | '!' :: '<' :: text => do
    let (address, rest) ← takeAddress true text
    match rest with
    | '>' :: rest => if address.isEmpty then none else return ([], address, rest)
    | _ => none
  | text => do
    let (handle, rest) ← takeHandle text
    let (suffix, rest) ← takeAddress false rest
    if isClosedHandle handle then
      if suffix.isEmpty then none else return (handle, suffix, rest)
    else match handle.drop 1 ++ suffix with
      | [] => return ([], ['!'], rest)
      | suffix => return (['!'], suffix, rest)

/-- A part of a version, of at most nine digits. -/
def takeVersionPart (text : List Char) : Option (Nat × List Char) :=
  let digits := text.takeWhile Char.isDigit
  if digits.isEmpty || 9 < digits.length then none
  else some (digitsValue digits, text.drop digits.length)

def takeVersion (text : List Char) : Option (Directive × List Char) := do
  let (major, rest) ← takeVersionPart text
  match rest with
  | '.' :: rest =>
    let (minor, rest) ← takeVersionPart rest
    return (.version major minor, rest)
  | _ => none

def takeHandleAddress (text : List Char) : Option (Directive × List Char) := do
  let (handle, rest) ← takeHandle text
  if handle != ['!'] && !isClosedHandle handle then none
  if !rest.head?.any isInlineBlank then none
  let (address, rest) ← takeAddress true (rest.dropWhile isInlineBlank)
  if address.isEmpty || !isBlankOrEnd rest.head? then none
  return (.handle handle address, rest)

/-- A directive at the front of a text, without the percent sign, and the text after it. -/
def takeDirective (text : List Char) : Option (Directive × List Char) :=
  let name := text.takeWhile isNameChar
  let rest := text.drop name.length
  if !isBlankOrEnd rest.head? then none
  else match String.ofList name with
    | "YAML" => takeVersion (rest.dropWhile isInlineBlank)
    | "TAG" => takeHandleAddress (rest.dropWhile isInlineBlank)
    | _ => none

/-- Whether documents of a version can be read. -/
def isKnownVersion (major minor : Nat) : Bool := major == 1 && (minor == 1 || minor == 2)

/-- The address of the tags that every document knows. -/
def coreAddress : List Char := "tag:yaml.org,2002:".toList

/-- The addresses of handles that no directive changes. -/
def knownHandles : List (List Char × List Char) := [(['!'], ['!']), (['!', '!'], coreAddress)]

end TypeCatalog.Yaml

import TypeCatalog.Data.Marked
import TypeCatalog.Failure

/-! What references stand for. A document has every collection that it refers to written in full once. References are
replaced round by round: what a reference stands for after a round is the collection with its own references replaced as
of the round before. Where no collection is inside of itself, as many rounds as there are collections that are referred to
replace all references. -/

namespace TypeCatalog.Marked

variable {μ : Type}

mutual

/-- The marks that are referred to. -/
def references : Marked μ → List μ
  | .scalar _ => []
  | .array _ items => listReferences items
  | .object _ fields => fieldReferences fields
  | .reference mark => [mark]

def listReferences : List (Marked μ) → List μ
  | [] => []
  | item :: rest => references item ++ listReferences rest

def fieldReferences : List (Key × Marked μ) → List μ
  | [] => []
  | (_, value) :: rest => references value ++ fieldReferences rest

end

mutual

/-- The collections that have marks. -/
def collections : Marked μ → List (μ × Marked μ)
  | .scalar _ | .reference _ => []
  | .array mark items => mark.toList.map (·, .array mark items) ++ listCollections items
  | .object mark fields => mark.toList.map (·, .object mark fields) ++ fieldCollections fields

def listCollections : List (Marked μ) → List (μ × Marked μ)
  | [] => []
  | item :: rest => collections item ++ listCollections rest

def fieldCollections : List (Key × Marked μ) → List (μ × Marked μ)
  | [] => []
  | (_, value) :: rest => collections value ++ fieldCollections rest

end

variable [BEq μ]

/-- The collections that are referred to. -/
def targets (document : Marked μ) : List (μ × Marked μ) :=
  let marks := document.references.eraseDups
  document.collections.filter (marks.contains ·.1)

mutual

/-- The data in which references are replaced by known data, and by null if they are not known. -/
def dataWith (known : List (μ × Data)) : Marked μ → Data
  | .scalar value => value.data
  | .array _ items => .array (listDataWith known items)
  | .object _ fields => .object (fieldDataWith known fields)
  | .reference mark => (known.lookup mark).getD .null

def listDataWith (known : List (μ × Data)) : List (Marked μ) → List Data
  | [] => []
  | item :: rest => dataWith known item :: listDataWith known rest

def fieldDataWith (known : List (μ × Data)) : List (Key × Marked μ) → Fields
  | [] => []
  | (key, value) :: rest => (key, dataWith known value) :: fieldDataWith known rest

end

/-- The data without its marks and references. -/
def data (document : Marked μ) : Data := document.dataWith []

mutual

/-- Replaces references by known collections. -/
def replace (known : List (μ × Marked μ)) : Marked μ → Marked μ
  | .scalar value => .scalar value
  | .array mark items => .array mark (replaceList known items)
  | .object mark fields => .object mark (replaceFields known fields)
  | .reference mark => (known.lookup mark).getD (.reference mark)

def replaceList (known : List (μ × Marked μ)) : List (Marked μ) → List (Marked μ)
  | [] => []
  | item :: rest => replace known item :: replaceList known rest

def replaceFields (known : List (μ × Marked μ)) : List (Key × Marked μ) → List (Key × Marked μ)
  | [] => []
  | (key, value) :: rest => (key, replace known value) :: replaceFields known rest

end

/-- What collections that are referred to are after some rounds. -/
def after {α : Type} (targets : List (μ × Marked μ)) (replaced : List (μ × α) → Marked μ → α) (rounds : Nat) :
    List (μ × α) :=
  Nat.repeat (fun known => targets.map fun (mark, target) => (mark, replaced known target)) rounds []

/-- The data with references replaced in some rounds. -/
def unfold (rounds : Nat) (document : Marked μ) : Data :=
  document.dataWith (after document.targets dataWith rounds)

/-- Whether a collection is inside of itself, so that going through the data does not end. In every round the collections
are settled that refer to settled ones only. -/
def isEndless (document : Marked μ) : Bool :=
  let needs := document.targets.map fun (mark, target) => (mark, target.references)
  let settled := Nat.repeat (fun settled => (needs.filter (·.2.all settled.contains)).map (·.1)) needs.length []
  settled.length < needs.length

/-- The data, if going through it ends. -/
def toData (document : Marked μ) : Except Failure Data :=
  if document.isEndless then .error .endless else .ok (document.unfold document.targets.length)

/-- How deep records and configurations are looked into. -/
def viewDepth : Nat := 5

/-- The rounds after which nothing that is looked at is a reference. -/
def viewRounds (document : Marked μ) : Nat := document.targets.length + viewDepth

/-- The data of a record or a configuration, as far as it is looked into. -/
def view (document : Marked μ) : Data := document.unfold document.viewRounds

/-- A record or a configuration without references, as far as it is looked into. What still has references after that is
inside of itself. -/
def expanded (document : Marked μ) : Marked μ :=
  document.replace (after document.targets replace document.viewRounds)

/-- The value under a key of an object. -/
def find? : Marked μ → String → Option (Marked μ)
  | .object _ fields, name => (fields.find? fun field => field.1.same (.text name)).map (·.2)
  | _, _ => none

/-- An object with the same fields that is not the same object. -/
def copy : Marked μ → Marked μ
  | .object _ fields => .object none fields
  | other => other

end TypeCatalog.Marked

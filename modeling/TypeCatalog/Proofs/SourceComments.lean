import TypeCatalog.Proofs.SourceGrammar

/-! Comments are no part of the grammar. Lexemes that spell definitions spell the same definitions with other comments if
other comments are put in front of them. -/

namespace TypeCatalog.Proofs
open Source Text

mutual

def bareItem : Item → Item
  | .mk name number optional type series size range items extensible _ =>
    .mk name number optional type series size range (bareItems items) extensible none

def bareItems : Option (List Item) → Option (List Item)
  | none => none
  | some items => some (bareList items)

def bareList : List Item → List Item
  | [] => []
  | item :: rest => bareItem item :: bareList rest

end

def bareShape (shape : Shape) : Shape := { shape with items := bareItems shape.items, comment := none }

/-- A definition without its comment and those of its items. -/
def bareDefinition (definition : Definition) : Definition :=
  { definition with items := bareItems definition.items, comment := none }

/-- The same lexemes in the same order, with any comments. -/
def SameLexemes (placed layout : List Placed) : Prop := layout.map (·.lexeme) = placed.map (·.lexeme)

section
variable {placed layout first second more : List Placed} {comment : Option String} {lexeme : Lexeme}

private theorem SameLexemes.nil (same : SameLexemes [] layout) : layout = [] := List.map_eq_nil_iff.mp same

private theorem SameLexemes.cons (same : SameLexemes (⟨comment, lexeme⟩ :: more) layout) :
    ∃ other rest, layout = ⟨other, lexeme⟩ :: rest ∧ SameLexemes more rest := by
  obtain ⟨⟨other, _⟩, rest, rfl, rfl, tail⟩ := List.map_eq_cons_iff.mp same
  exact ⟨other, rest, rfl, tail⟩

private theorem SameLexemes.one (same : SameLexemes [⟨comment, lexeme⟩] layout) : ∃ other, layout = [⟨other, lexeme⟩] := by
  obtain ⟨other, rest, rfl, tail⟩ := same.cons
  exact ⟨other, by rw [tail.nil]⟩

private theorem SameLexemes.append (same : SameLexemes (first ++ second) layout) :
    ∃ front back, layout = front ++ back ∧ SameLexemes first front ∧ SameLexemes second back := by
  rw [SameLexemes, List.map_append] at same
  exact List.map_eq_append_iff.mp same

private theorem series_again {series : Option Series} (spelled : SeriesSpelled series placed)
    (same : SameLexemes placed layout) : SeriesSpelled series layout := by
  cases spelled with
  | absent => exact same.nil ▸ .absent
  | unbounded =>
    obtain ⟨other, rfl⟩ := same.one
    exact .unbounded other
  | counted _ numeral =>
    obtain ⟨other, rfl⟩ := same.one
    exact .counted other numeral

private theorem size_again {size : Option Range} (spelled : SizeSpelled size placed) (same : SameLexemes placed layout) :
    SizeSpelled size layout := by
  cases spelled with
  | absent => exact same.nil ▸ .absent
  | bare _ _ spelled =>
    obtain ⟨word, rest, rfl, tail⟩ := same.cons
    obtain ⟨constraint, rfl⟩ := tail.one
    exact .bare word constraint spelled
  | enclosed _ _ _ spelled =>
    obtain ⟨word, rest, rfl, tail⟩ := same.cons
    obtain ⟨constraint, rest, rfl, last⟩ := tail.cons
    obtain ⟨close, rfl⟩ := last.one
    exact .enclosed word constraint close spelled

private theorem limit_again {range : Option Range} (spelled : LimitSpelled range placed)
    (same : SameLexemes placed layout) : LimitSpelled range layout := by
  cases spelled with
  | absent => exact same.nil ▸ .absent
  | present _ spelled =>
    obtain ⟨other, rfl⟩ := same.one
    exact .present other spelled

private theorem number_again {lexeme : List Char → Lexeme} {number : Option Int}
    (spelled : NumberSpelled lexeme number placed) (same : SameLexemes placed layout) :
    NumberSpelled lexeme number layout := by
  cases spelled with
  | absent => exact same.nil ▸ .absent
  | present _ numeral =>
    obtain ⟨other, rfl⟩ := same.one
    exact .present other numeral

private theorem optional_again {isOptional : Bool} (spelled : OptionalSpelled isOptional placed)
    (same : SameLexemes placed layout) : OptionalSpelled isOptional layout := by
  cases spelled with
  | absent => exact same.nil ▸ .absent
  | present =>
    obtain ⟨other, rfl⟩ := same.one
    exact .present other

end

mutual

private theorem shape_again {shape : Shape} {placed layout : List Placed} (spelled : ShapeSpelled shape placed)
    (same : SameLexemes placed layout) : ∃ other, ShapeSpelled other layout ∧ bareShape other = bareShape shape := by
  match spelled with
  | .mk comment repeated base sized limited listed =>
    obtain ⟨front, way, rfl, before, onward⟩ := same.append
    obtain ⟨other, after, rfl, further⟩ := onward.cons
    obtain ⟨sizes, way, rfl, middle, beyond⟩ := further.append
    obtain ⟨limits, rest, rfl, behind, last⟩ := beyond.append
    obtain ⟨list, spelled, items, extensible⟩ := list_again listed last
    refine ⟨_, .mk other (series_again repeated before) base (size_again sized middle) (limit_again limited behind)
      spelled, ?_⟩
    simp only [bareShape, items, extensible]
termination_by structural spelled

private theorem list_again {type : String} {list : Option Read.ItemList} {placed layout : List Placed}
    (spelled : ListSpelled type list placed) (same : SameLexemes placed layout) :
    ∃ other : Option Read.ItemList, ListSpelled type other layout ∧
      bareItems (other.map (·.items)) = bareItems (list.map (·.items)) ∧
      other.any (·.extensible) = list.any (·.extensible) := by
  match spelled with
  | .absent type => exact ⟨none, same.nil ▸ .absent type, rfl, rfl⟩
  | .present opening closing known structured spelled =>
    obtain ⟨first, rest, rfl, onward⟩ := same.cons
    obtain ⟨inner, tail, rfl, middle, ending⟩ := onward.append
    obtain ⟨last, rfl⟩ := ending.one
    obtain ⟨others, spelled, bare⟩ := items_again spelled middle
    exact ⟨_, .present first last known structured spelled, congrArg some bare, rfl⟩
termination_by structural spelled

private theorem items_again {kind : Kind} {items : List Item} {extensible : Bool} {placed layout : List Placed}
    (spelled : ItemsSpelled kind items extensible placed) (same : SameLexemes placed layout) :
    ∃ others, ItemsSpelled kind others extensible layout ∧ bareList others = bareList items := by
  match spelled with
  | .last first =>
    obtain ⟨other, spelled, bare⟩ := item_again first same
    exact ⟨[other], .last spelled, by simp only [bareList, bare]⟩
  | .ellipsis comma dots first extensible =>
    obtain ⟨front, rest, rfl, before, onward⟩ := same.append
    obtain ⟨separator, rest, rfl, ending⟩ := onward.cons
    obtain ⟨mark, rfl⟩ := ending.one
    obtain ⟨other, spelled, bare⟩ := item_again first before
    exact ⟨[other], .ellipsis separator mark spelled extensible, by simp only [bareList, bare]⟩
  | .more comma first others =>
    obtain ⟨front, rest, rfl, before, onward⟩ := same.append
    obtain ⟨separator, rest, rfl, ending⟩ := onward.cons
    obtain ⟨other, spelled, bare⟩ := item_again first before
    obtain ⟨further, tail, equal⟩ := items_again others ending
    exact ⟨other :: further, .more separator spelled tail, by simp only [bareList, bare, equal]⟩
termination_by structural spelled

private theorem item_again {kind : Kind} {item : Item} {placed layout : List Placed}
    (spelled : ItemSpelled kind item placed) (same : SameLexemes placed layout) :
    ∃ other, ItemSpelled kind other layout ∧ bareItem other = bareItem item := by
  match spelled with
  | .value comment between proper simple numeral =>
    obtain ⟨first, rest, rfl, onward⟩ := same.cons
    obtain ⟨second, rfl⟩ := onward.one
    exact ⟨_, .value first second proper simple numeral, by rw [bareItem, bareItem]⟩
  | .typed comment proper complex tagged shaped ended =>
    obtain ⟨first, rest, rfl, onward⟩ := same.cons
    obtain ⟨tags, way, rfl, before, further⟩ := onward.append
    obtain ⟨inner, after, rfl, middle, ending⟩ := further.append
    obtain ⟨other, spelled, bare⟩ := shape_again shaped middle
    refine ⟨_, .typed first proper complex (number_again tagged before) spelled (optional_again ended ending), ?_⟩
    simp only [bareShape, Shape.mk.injEq] at bare
    simp only [bareItem, bare]
termination_by structural spelled

end

private theorem definition_again {definition : Definition} {placed layout : List Placed}
    (spelled : DefinitionSpelled definition placed) (same : SameLexemes placed layout) :
    ∃ other, DefinitionSpelled other layout ∧ bareDefinition other = bareDefinition definition := by
  obtain ⟨comment, proper, numbered, shaped⟩ := spelled
  obtain ⟨first, rest, rfl, onward⟩ := same.cons
  obtain ⟨numbers, inner, rfl, before, ending⟩ := onward.append
  obtain ⟨other, spelled, bare⟩ := shape_again shaped ending
  refine ⟨_, .mk first proper (number_again numbered before) spelled, ?_⟩
  simp only [bareShape, Shape.mk.injEq] at bare
  simp only [bareDefinition, bare]

/-- Other comments in front of the lexemes of definitions make other comments of the same definitions. -/
theorem Spelled.again {definitions : List Definition} {placed layout : List Placed}
    (spelled : Spelled definitions placed) (same : SameLexemes placed layout) :
    ∃ others, Spelled others layout ∧ others.map bareDefinition = definitions.map bareDefinition := by
  induction spelled generalizing layout with
  | nil => exact ⟨[], same.nil ▸ .nil, rfl⟩
  | cons first _ ih =>
    obtain ⟨front, rest, rfl, before, onward⟩ := same.append
    obtain ⟨other, spelled, bare⟩ := definition_again first before
    obtain ⟨others, tail, equal⟩ := ih onward
    exact ⟨other :: others, .cons spelled tail, by rw [List.map_cons, bare, equal, List.map_cons]⟩

end TypeCatalog.Proofs

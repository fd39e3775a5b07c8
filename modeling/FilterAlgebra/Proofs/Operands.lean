import FilterAlgebra.Proofs.Depth
import FilterAlgebra.Proofs.Level
import FilterAlgebra.Proofs.TreeText

namespace FilterAlgebra

theorem Value.expressible_marked (v : Value) (inverse : Bool) :
    (v.markNull.negateIf inverse).expressible = v.expressible := by
  cases v <;> rfl

namespace Form

mutual

def values : Form → List Value
  | value v => [v]
  | token _ => []
  | list items => valuesOf items

def valuesOf : List Form → List Value
  | [] => []
  | x :: xs => values x ++ valuesOf xs

end

mutual

/-- The form with every value replaced in place. -/
def mapValues (f : Value → Value) : Form → Form
  | value v => value (f v)
  | token t => token t
  | list items => list (mapValuesOf f items)

def mapValuesOf (f : Value → Value) : List Form → List Form
  | [] => []
  | x :: xs => mapValues f x :: mapValuesOf f xs

end

/-- A replacement that does not mind whether nulls are marked and sentinels exchanged before it. -/
def KeepsNulls (f : Value → Value) : Prop :=
  ∀ v inverse, (f v).markNull.negateIf inverse = f (v.markNull.negateIf inverse)

@[simp] theorem valuesOf_nil : valuesOf [] = [] := by rw [valuesOf]

@[simp] theorem valuesOf_token (t : Token) (xs : List Form) :
    valuesOf (token t :: xs) = valuesOf xs := by
  rw [valuesOf, values, List.nil_append]

@[simp] theorem valuesOf_value (v : Value) (xs : List Form) :
    valuesOf (value v :: xs) = v :: valuesOf xs := by
  rw [valuesOf, values, List.singleton_append]

@[simp] theorem valuesOf_list (ys xs : List Form) :
    valuesOf (list ys :: xs) = valuesOf ys ++ valuesOf xs := by
  rw [valuesOf, values]

@[simp] theorem mapValuesOf_nil (f : Value → Value) : mapValuesOf f [] = [] := by rw [mapValuesOf]

@[simp] theorem mapValuesOf_token (f : Value → Value) (t : Token) (xs : List Form) :
    mapValuesOf f (token t :: xs) = token t :: mapValuesOf f xs := by
  rw [mapValuesOf, mapValues]

@[simp] theorem mapValuesOf_value (f : Value → Value) (v : Value) (xs : List Form) :
    mapValuesOf f (value v :: xs) = value (f v) :: mapValuesOf f xs := by
  rw [mapValuesOf, mapValues]

@[simp] theorem mapValuesOf_list (f : Value → Value) (ys xs : List Form) :
    mapValuesOf f (list ys :: xs) = list (mapValuesOf f ys) :: mapValuesOf f xs := by
  rw [mapValuesOf, mapValues]

/-- The normal form holds the values of the form and no others. -/
theorem exists_of_mem_normalItems {v : Value} (inverse : Bool) (items : List Form) :
    v ∈ valuesOf (normalItems inverse items) →
      ∃ w ∈ valuesOf items, ∃ inverse, v = w.markNull.negateIf inverse := by
  induction inverse, items using level_induct with
  | nil inverse => simp
  | mark inverse xs ih => rwa [normalItems_not, valuesOf_token]
  | token inverse t xs ht ih => rwa [normalItems_token inverse ht, valuesOf_token, valuesOf_token]
  | value inverse w xs ih =>
    rw [normalItems_value, valuesOf_value, valuesOf_value, List.mem_cons]
    rintro (rfl | hv)
    · exact ⟨w, List.mem_cons_self, inverse, rfl⟩
    · obtain ⟨w', hw', h⟩ := ih hv
      exact ⟨w', List.mem_cons_of_mem _ hw', h⟩
  | list inverse ys xs ihys ihxs =>
    rw [normalItems_list, valuesOf_list, valuesOf_list, List.mem_append]
    rintro (hv | hv)
    · obtain ⟨w, hw, h⟩ := ihys hv
      exact ⟨w, List.mem_append_left _ hw, h⟩
    · obtain ⟨w, hw, h⟩ := ihxs hv
      exact ⟨w, List.mem_append_right _ hw, h⟩

/-- Replacing values and pushing marks down may change places. -/
theorem normalItems_mapValuesOf {f : Value → Value} (hf : KeepsNulls f) (inverse : Bool)
    (items : List Form) :
    normalItems inverse (mapValuesOf f items) = mapValuesOf f (normalItems inverse items) := by
  induction inverse, items using level_induct with
  | nil inverse => simp
  | mark inverse xs ih => simp [ih]
  | token inverse t xs ht ih => simp [normalItems_token inverse ht, ih]
  | value inverse v xs ih => simp [ih, hf v inverse]
  | list inverse ys xs ihys ihxs => simp [ihys, ihxs]

theorem tripleOf?_mapValuesOf (f : Value → Value) (items : List Form) :
    tripleOf? (mapValuesOf f items) = (tripleOf? items).map fun t => (f t.1, t.2.1, f t.2.2) := by
  rcases items with _ | ⟨_ | _ | _, _ | ⟨_ | (_ | _ | _) | _, _ | ⟨_ | _ | _, _ | _⟩⟩⟩ <;> rfl

theorem join_mem_mapValuesOf (f : Value → Value) (c : Connective) (items : List Form) :
    token (.join c) ∈ mapValuesOf f items ↔ token (.join c) ∈ items := by
  induction items with
  | nil => simp
  | cons x xs ih => cases x <;> simp [ih]

mutual

theorem expressible_iff : (x : Form) → (x.expressible ↔ ∀ v ∈ x.values, v.expressible)
  | value v => by simp [expressible, values]
  | token t => by simp [expressible, values]
  | list items => by
    rw [expressible, values]
    exact expressibleItems_iff items

theorem expressibleItems_iff :
    (items : List Form) → (expressibleItems items ↔ ∀ v ∈ valuesOf items, v.expressible)
  | [] => by simp [expressibleItems]
  | x :: xs => by
    rw [expressibleItems, valuesOf, Bool.and_eq_true, expressible_iff x, expressibleItems_iff xs,
      List.forall_mem_append]

end

mutual

/-- A field is named by a value, so where every value has a text every field has a name. -/
theorem fieldsExpressible_of_values :
    (x : Form) → (∀ v ∈ x.values, v.expressible) → x.fieldsExpressible
  | value v, _ => by simp [fieldsExpressible]
  | token t, _ => by simp [fieldsExpressible]
  | list items, h => by
    rw [values] at h
    rw [fieldsExpressible]
    cases htriple : tripleOf? items with
    | none => exact fieldsExpressibleIn_of_values items h
    | some t =>
      obtain ⟨o, c, v⟩ := t
      obtain rfl := eq_of_tripleOf? htriple
      exact h o (by simp)

theorem fieldsExpressibleIn_of_values :
    (items : List Form) → (∀ v ∈ valuesOf items, v.expressible) → fieldsExpressibleIn items
  | [], _ => by simp [fieldsExpressibleIn]
  | x :: xs, h => by
    rw [valuesOf, List.forall_mem_append] at h
    rw [fieldsExpressibleIn, fieldsExpressible_of_values x h.1,
      fieldsExpressibleIn_of_values xs h.2]
    rfl

end

theorem exists_of_mem_normalize {x : Form} {v : Value} (hv : v ∈ x.normalize.values) :
    ∃ w ∈ x.values, ∃ inverse, v = w.markNull.negateIf inverse := by
  cases x with
  | value w =>
    obtain rfl : v = w.markNull := by
      simpa [normalize, markNulls, pushDown, values] using hv
    exact ⟨w, by simp [values], false, (Value.negateIf_false _).symm⟩
  | token t => cases t <;> simp [normalize, markNulls, pushDown, values] at hv
  | list items =>
    rw [normalize_list, values] at hv
    exact exists_of_mem_normalItems false items hv

theorem parsed_of_expressible {x : Form} (hx : x.expressible) : x.parsed = .ok x.parse := by
  rw [expressible_iff] at hx
  rw [parsed_eq, whenExpressible_eq_ok]
  refine ⟨fieldsExpressible_of_values _ ?_, rfl⟩
  intro v hv
  obtain ⟨w, hw, inverse, rfl⟩ := exists_of_mem_normalize hv
  rw [Value.expressible_marked]
  exact hx w hw

theorem expressibleItems_normalItems (inverse : Bool) (items : List Form) :
    expressibleItems (normalItems inverse items) = expressibleItems items := by
  induction inverse, items using level_induct with
  | nil inverse => rw [normalItems_nil]
  | mark inverse xs ih => simp [expressibleItems, expressible, ih]
  | token inverse t xs ht ih =>
    simp [normalItems_token inverse ht, expressibleItems, expressible, ih]
  | value inverse v xs ih => simp [expressibleItems, expressible, Value.expressible_marked, ih]
  | list inverse ys xs ihys ihxs => simp [expressibleItems, expressible, ihys, ihxs]

/-- No value of a form goes missing on the way to its normal form. -/
theorem expressible_normalize (x : Form) : x.normalize.expressible = x.expressible := by
  cases x with
  | value v => cases v <;> rfl
  | token t => cases t <;> rfl
  | list items => exact expressibleItems_normalItems false items

mutual

theorem mapValues_eq_self {f : Value → Value} :
    (x : Form) → (∀ v ∈ x.values, f v = v) → x.mapValues f = x
  | value v, h => by rw [mapValues, h v (by simp [values])]
  | token t, _ => by rw [mapValues]
  | list items, h => by
    rw [values] at h
    rw [mapValues, mapValuesOf_eq_self items h]

theorem mapValuesOf_eq_self {f : Value → Value} :
    (items : List Form) → (∀ v ∈ valuesOf items, f v = v) → mapValuesOf f items = items
  | [], _ => by rw [mapValuesOf]
  | x :: xs, h => by
    rw [valuesOf, List.forall_mem_append] at h
    rw [mapValuesOf, mapValues_eq_self x h.1, mapValuesOf_eq_self xs h.2]

end

mutual

theorem nesting_mapValues (f : Value → Value) : (x : Form) → (x.mapValues f).nesting = x.nesting
  | value v => rfl
  | token t => rfl
  | list items => by rw [mapValues, nesting, nesting, nestingOfItems_mapValuesOf f items]

theorem nestingOfItems_mapValuesOf (f : Value → Value) :
    (items : List Form) → nestingOfItems (mapValuesOf f items) = nestingOfItems items
  | [] => rfl
  | x :: xs => by
    rw [mapValuesOf, nestingOfItems_cons, nestingOfItems_cons, nesting_mapValues f x,
      nestingOfItems_mapValuesOf f xs]

end
end Form

namespace Tree

theorem value_mem_of_mem_node {items : List Form} {q : Predicate}
    (hnodes : q ∈ leavesOf (nodes items) → q.value ∈ Form.valuesOf items)
    (hq : q ∈ (node items).leaves) : q.value ∈ Form.valuesOf items := by
  rw [node] at hq
  cases htriple : Form.tripleOf? items with
  | none =>
    rw [htriple, leaves] at hq
    exact hnodes hq
  | some t =>
    obtain ⟨o, c, v⟩ := t
    obtain rfl := Form.eq_of_tripleOf? htriple
    obtain rfl : q = ⟨o.fieldName, c, v⟩ := by simpa [htriple, leaves, Outline.ofTriple] using hq
    simp

theorem value_mem_of_mem_nodes {q : Predicate} :
    (items : List Form) → q ∈ leavesOf (nodes items) → q.value ∈ Form.valuesOf items
  | [], hq => by simp [leavesOf] at hq
  | .value v :: xs, hq => by
    rw [nodes_value] at hq
    rw [Form.valuesOf_value]
    exact List.mem_cons_of_mem _ (value_mem_of_mem_nodes xs hq)
  | .token t :: xs, hq => by
    rw [nodes_token] at hq
    rw [Form.valuesOf_token]
    exact value_mem_of_mem_nodes xs hq
  | .list ys :: xs, hq => by
    rw [nodes_list, leavesOf, List.mem_append] at hq
    rw [Form.valuesOf_list, List.mem_append]
    exact hq.imp (value_mem_of_mem_node (value_mem_of_mem_nodes ys)) (value_mem_of_mem_nodes xs)

theorem leaves_parse_list (items : List Form) :
    (Form.parse (.list items)).leaves = (node (Form.normalItems false items)).leaves := by
  rw [parse_list]
  split <;> simp [leaves, leavesOf]

theorem exists_of_mem_leaves_parse {x : Form} {q : Predicate} (hq : q ∈ x.parse.leaves) :
    ∃ v ∈ x.values, ∃ inverse, q.value = v.markNull.negateIf inverse := by
  cases x with
  | value v => simp [leaves, leavesOf] at hq
  | token t => simp [leaves, leavesOf] at hq
  | list items =>
    rw [leaves_parse_list] at hq
    exact Form.exists_of_mem_normalItems false items
      (value_mem_of_mem_node (value_mem_of_mem_nodes _) hq)

mutual

theorem expressible_iff : (t : Tree) → (t.expressible ↔ ∀ q ∈ t.leaves, q.value.expressible)
  | leaf p => by simp [expressible, leaves, Predicate.expressible]
  | junction c ts => by
    rw [expressible, leaves]
    exact expressibleAll_iff ts

theorem expressibleAll_iff :
    (ts : List Tree) → (expressibleAll ts ↔ ∀ q ∈ leavesOf ts, q.value.expressible)
  | [] => by simp [expressibleAll, leavesOf]
  | t :: ts => by
    rw [expressibleAll, leavesOf, Bool.and_eq_true, expressible_iff t, expressibleAll_iff ts,
      List.forall_mem_append]

end

theorem expressible_parse {x : Form} (hx : x.expressible) : x.parse.expressible := by
  rw [Form.expressible_iff] at hx
  rw [expressible_iff]
  intro q hq
  obtain ⟨v, hv, inverse, h⟩ := exists_of_mem_leaves_parse hq
  rw [h, Value.expressible_marked]
  exact hx v hv

mutual

theorem toJson_mapValues {f : Value → Value} (hf : ∀ v, (f v).toJson = v.toJson) :
    (t : Tree) → (t.mapValues f).toJson = t.toJson
  | leaf p => by rw [mapValues, toJson, toJson, Predicate.toJson, Predicate.toJson, hf]
  | junction c ts => by rw [mapValues, toJson, toJson, listToJson_mapValuesOf hf ts]

theorem listToJson_mapValuesOf {f : Value → Value} (hf : ∀ v, (f v).toJson = v.toJson) :
    (ts : List Tree) → listToJson (mapValuesOf f ts) = listToJson ts
  | [] => rfl
  | t :: ts => by
    rw [mapValuesOf, listToJson, listToJson, toJson_mapValues hf t, listToJson_mapValuesOf hf ts]

end

section Replacement

variable {f : Value → Value} (hname : ∀ v, (f v).fieldName = v.fieldName)
include hname

theorem node_mapValuesOf {items : List Form}
    (hnodes : nodes (Form.mapValuesOf f items) = mapValuesOf f (nodes items)) :
    node (Form.mapValuesOf f items) = (node items).mapValues f := by
  rw [node, node, Form.tripleOf?_mapValuesOf]
  cases Form.tripleOf? items with
  | none =>
    have hc : connectiveOf (Form.mapValuesOf f items) = connectiveOf items :=
      connectiveOf_congr (Form.join_mem_mapValuesOf f .and items)
    rw [Option.map_none]
    dsimp only
    rw [mapValues, hc, hnodes]
  | some t =>
    obtain ⟨o, c, v⟩ := t
    rw [Option.map_some]
    dsimp only [Outline.ofTriple]
    rw [mapValues, hname]

theorem nodes_mapValuesOf : (items : List Form) →
    nodes (Form.mapValuesOf f items) = mapValuesOf f (nodes items)
  | [] => by simp [mapValuesOf]
  | .value v :: xs => by simp [nodes_mapValuesOf xs]
  | .token t :: xs => by simp [nodes_mapValuesOf xs]
  | .list ys :: xs => by
    simp [mapValuesOf, node_mapValuesOf hname (nodes_mapValuesOf ys), nodes_mapValuesOf xs]

/-- Values may be replaced in the form or in its tree. -/
theorem parse_mapValues (hf : Form.KeepsNulls f) (x : Form) :
    (x.mapValues f).parse = x.parse.mapValues f := by
  cases x with
  | value v => simp [Form.mapValues, mapValues, mapValuesOf]
  | token t => simp [Form.mapValues, mapValues, mapValuesOf]
  | list items =>
    rw [Form.mapValues, parse_list, parse_list, Form.normalItems_mapValuesOf hf,
      Form.tripleOf?_mapValuesOf, Option.isSome_map,
      node_mapValuesOf hname (nodes_mapValuesOf hname _)]
    split <;> simp [mapValues, mapValuesOf]

end Replacement

end Tree
end FilterAlgebra

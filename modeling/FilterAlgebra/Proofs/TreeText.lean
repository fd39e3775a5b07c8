import FilterAlgebra.Proofs.Typed
import FilterAlgebra.Proofs.ValueText

namespace FilterAlgebra

namespace Tree

mutual

/-- How many brackets stand inside one another in the text of a tree. -/
def nest : Tree → ℕ
  | leaf _ => 1
  | junction _ ts => 2 + nestOf ts

def nestOf : List Tree → ℕ
  | [] => 0
  | t :: ts => max (nest t) (nestOf ts)

end

mutual

def mapValues (f : Value → Value) : Tree → Tree
  | leaf p => leaf { p with value := f p.value }
  | junction c ts => junction c (mapValuesOf f ts)

def mapValuesOf (f : Value → Value) : List Tree → List Tree
  | [] => []
  | t :: ts => mapValues f t :: mapValuesOf f ts

end

mutual

theorem mapValues_eq_self {f : Value → Value} :
    (t : Tree) → (∀ q ∈ t.leaves, f q.value = q.value) → t.mapValues f = t
  | leaf p, h => by rw [mapValues, h p (by simp [leaves])]
  | junction c ts, h => by rw [mapValues, mapValuesOf_eq_self ts h]

theorem mapValuesOf_eq_self {f : Value → Value} :
    (ts : List Tree) → (∀ q ∈ leavesOf ts, f q.value = q.value) → mapValuesOf f ts = ts
  | [], _ => rfl
  | t :: ts, h => by
    rw [leavesOf, List.forall_mem_append] at h
    rw [mapValuesOf, mapValues_eq_self t h.1, mapValuesOf_eq_self ts h.2]

end

/-- The tree with every number in it as its numeral is read. -/
def reread (t : Tree) : Tree := t.mapValues Value.reread

theorem reread_eq_self {t : Tree} (ht : ∀ q ∈ t.leaves, q.value.ReadsBack) : t.reread = t :=
  mapValues_eq_self t fun q hq => (ht q hq).reread_eq

mutual

theorem nesting_toJson : (t : Tree) → t.toJson.nesting = t.nest
  | leaf p => by
    simp [toJson, Predicate.toJson, Json.nesting, Json.nestingOfMembers, Value.nesting_toJson, nest]
  | junction c ts => by
    simp only [toJson, Json.nesting, Json.nestingOfMembers, nesting_listToJson ts, nest]
    omega

theorem nesting_listToJson : (ts : List Tree) → Json.nestingOfItems (listToJson ts) = nestOf ts
  | [] => rfl
  | t :: ts => by
    rw [listToJson, Json.nestingOfItems, nesting_toJson t, nesting_listToJson ts, nestOf]

end
end Tree

namespace RawNode

/-- A value as a node holds it. Null is as good as none. -/
def operand (v : Value) : Option Value := if v = .null then none else some v

theorem getD_operand (v : Value) : (operand v).getD .null = v := by
  rw [operand]
  split
  · next h => rw [h]; rfl
  · rfl

mutual

/-- The node that the text of a tree is read as. -/
def ofTree : Tree → RawNode
  | .leaf p => mk p.operator.spelling (some p.field) (operand p.value.canon) []
  | .junction c ts => mk c.spelling none none (ofTrees ts)

def ofTrees : List Tree → List RawNode
  | [] => []
  | t :: ts => ofTree t :: ofTrees ts

end

theorem connective_of_comparison (c : Comparison) : Connective.ofSpelling? c.spelling = none := by
  cases c <;> decide

mutual

theorem toTree_ofTree : (t : Tree) → (ofTree t).toTree = .ok (t.mapValues Value.canon)
  | .leaf p => by
    rw [ofTree, toTree, connective_of_comparison, Comparison.ofSpelling?_spelling]
    dsimp only
    rw [getD_operand, Tree.mapValues]
  | .junction c ts => by
    rw [ofTree, toTree, Connective.ofSpelling?_spelling]
    dsimp only
    rw [toTrees_ofTrees, Tree.mapValues]
    rfl

theorem toTrees_ofTrees :
    (ts : List Tree) → toTrees (ofTrees ts) = .ok (Tree.mapValuesOf Value.canon ts)
  | [] => rfl
  | t :: ts => by
    rw [ofTrees, toTrees, toTree_ofTree, toTrees_ofTrees, Tree.mapValuesOf]
    rfl

end

variable {l : Json.Layout} {room : ℕ} {nodes : Json.Reader (List RawNode)}

theorem reads_operand (hl : l.Blank) (v : Value) (room : ℕ) :
    Json.Reads l (.optional (Value.reader room)) v.toJson (.ok (operand v.reread.canon)) := by
  have hnull : v.toJson.settled = .null ↔ v.reread.canon = .null := by
    rw [v.canon_reread_eq_null, ← v.toJson_canon]
    cases v.canon <;> simp [Value.toJson]
  rw [operand]
  split
  · next h => exact Json.reads_optional_null _ (hnull.2 h)
  · next h => exact Json.reads_optional (v.reads_reader hl room) fun h' => h (hnull.1 h')

theorem listToJson_eq_map (ts : List Tree) : Tree.listToJson ts = ts.map Tree.toJson := by
  induction ts with
  | nil => rfl
  | cons t ts ih => rw [Tree.listToJson, ih, List.map_cons]

/-- What comes of a tree that is read where `room` more brackets may open. -/
abbrev kept (room : ℕ) : Tree → Except Json.Fault RawNode :=
  Json.within room Tree.nest fun t => ofTree t.reread

theorem member_fields (room : ℕ) (nodes : Json.Reader (List RawNode)) :
    (record room nodes).fields.find? (·.name == "type") =
        some (.of "type" (.text .text) fun kind p => { p with kind := some kind }) ∧
      (record room nodes).fields.find? (·.name == "dataField") =
        some (.of "dataField" (.optional (.text .text)) fun field p => { p with field }) ∧
      (record room nodes).fields.find? (·.name == "value") =
        some (.of "value" (.optional (Value.reader room)) fun value p => { p with value }) ∧
      (record room nodes).fields.find? (·.name == "predicates") =
        some (.of "predicates" nodes fun inner p => { p with inner }) := by
  simp [record, Json.Field.of]

theorem readsMembers_leaf (hl : l.Blank) (p : Predicate) (kind : String) :
    Json.ReadsMembers l (Json.Record.member (record room nodes).fields)
      (["type"], ⟨some kind, none, none, []⟩)
      [("dataField", .text p.field), ("value", p.value.toJson)]
      (.ok (["value", "dataField", "type"],
        ⟨some kind, some p.field, operand p.value.reread.canon, []⟩)) := by
  obtain ⟨-, hfield, hvalue, -⟩ := member_fields room nodes
  have hname : (Json.text p.field).settled ≠ .null := by simp [Json.settled]
  have hread := Json.reads_optional (Json.reads_text (l := l) .text p.field) hname
  refine Json.Record.readsMembers_cons hl hfield (by simp) hread ?_
  exact Json.Record.readsMembers_last hl hvalue (by simp) (reads_operand hl p.value room)

theorem reads_leaf (hl : l.Blank) (p : Predicate) (room : ℕ) :
    Json.Reads l (reader room) (Tree.leaf p).toJson (kept room (.leaf p)) := by
  cases room with
  | zero => exact Json.reads_record_no_room _ _
  | succ room =>
    obtain ⟨hkind, -⟩ := member_fields room (listReader room)
    have hkept : kept (room + 1) (.leaf p) = .ok (ofTree (Tree.leaf p).reread) :=
      Json.within_of_le (by simp [Tree.nest])
    rw [hkept]
    exact Json.reads_record hl (record room (listReader room)) room
      (Json.Record.readsMembers_cons hl hkind (by simp) (Json.reads_text _ _)
        (readsMembers_leaf hl p p.operator.spelling))

theorem reads_junction (hl : l.Blank) (c : Connective) {ts : List Tree} {room : ℕ}
    {inner : Except Json.Fault (List RawNode)}
    (hts : Json.Reads l (listReader room) (.array (Tree.listToJson ts)) inner) :
    Json.Reads l (reader (room + 1)) (Tree.junction c ts).toJson
      (inner.map fun inner => mk c.spelling none none inner) := by
  obtain ⟨hkind, -, -, hinner⟩ := member_fields room (listReader room)
  have h := Json.reads_record hl (record room (listReader room)) room
    (Json.Record.readsMembers_cons hl hkind (by simp) (Json.reads_text .text c.spelling)
      (Json.Record.readsMembers_last hl hinner (by simp) hts))
  cases inner <;> exact h

/-- Trees are read one after the other when there is room for the deepest of them. -/
theorem mapM_kept (room : ℕ) (ts : List Tree) :
    ts.mapM (kept room) =
      Json.within room Tree.nestOf (fun ts => ofTrees (Tree.mapValuesOf Value.reread ts)) ts :=
  Json.mapM_within rfl (fun _ _ => rfl) rfl (fun _ _ => rfl) ts

theorem kept_junction (c : Connective) (ts : List Tree) (room : ℕ) :
    kept (room + 2) (.junction c ts) =
      (ts.mapM (kept room)).map fun inner => mk c.spelling none none inner := by
  rw [mapM_kept, Json.within_map]
  refine Json.within_congr ?_ rfl
  rw [Tree.nest]
  omega

theorem kept_junction_no_room (c : Connective) (ts : List Tree) {room : ℕ} (hroom : room < 2) :
    kept room (.junction c ts) = .error .malformed := by
  apply Json.within_of_lt
  rw [Tree.nest]
  omega

mutual

theorem reads_tree (hl : l.Blank) : (t : Tree) → (room : ℕ) →
    Json.Reads l (reader room) t.toJson (kept room t)
  | .leaf p, room => reads_leaf hl p room
  | .junction c ts, 0 => by
    rw [kept_junction_no_room c ts (by decide)]
    exact Json.reads_record_no_room _ _
  | .junction c ts, 1 => by
    rw [kept_junction_no_room c ts (by decide)]
    have hread : Json.Reads l (listReader 0) (.array (Tree.listToJson ts)) (.error .malformed) :=
      Json.reads_sequence_no_room .refuse _
    exact reads_junction hl c hread
  | .junction c ts, room + 2 => by
    rw [kept_junction]
    -- The first bracket holds the members, the second one the inner nodes.
    have hread := Json.reads_sequence hl room Tree.toJson (reads_trees hl ts room)
    rw [← listToJson_eq_map] at hread
    exact reads_junction hl c hread

theorem reads_trees (hl : l.Blank) : (ts : List Tree) → (room : ℕ) →
    ∀ t ∈ ts, Json.Reads l (reader room) t.toJson (kept room t)
  | [], _ => List.forall_mem_nil _
  | t :: ts, room => List.forall_mem_cons.2 ⟨reads_tree hl t room, reads_trees hl ts room⟩

end
end RawNode

namespace Tree

theorem reads_reader {l : Json.Layout} (hl : l.Blank) (t : Tree) (room : ℕ) :
    Json.Reads l (reader room) t.toJson
      (Json.within room nest (fun t => t.reread.mapValues Value.canon) t) := by
  rw [reader]
  refine (RawNode.reads_tree hl t room).check ?_
  apply Json.within_bind
  simp only [RawNode.toTree_ofTree]

theorem read_text (t : Tree) :
    read t.text = Json.within 127 nest (fun t => t.reread.mapValues Value.canon) t :=
  (reads_reader Json.blank_compact t Json.nestingLimit).readAll 0

/-- White space makes no difference. -/
theorem read_indented (t : Tree) :
    read t.toJson.indented = Json.within 127 nest (fun t => t.reread.mapValues Value.canon) t :=
  (reads_reader Json.blank_indented t Json.nestingLimit).readAll 0

/-- A tree with a text is read back with all but its values unchanged, as long as its numbers are
read back from their numerals, or is nested too deeply. -/
theorem tree_read_back {t : Tree} (ht : t.expressible) :
    t.written = .ok t.text ∧
      (t.nest ≤ 127 → (∀ q ∈ t.leaves, q.value.ReadsBack) →
        read t.text = .ok (t.mapValues Value.canon)) ∧
      (127 < t.nest → read t.text = .error .malformed) := by
  refine ⟨?_, ?_, ?_⟩
  · rw [written, whenExpressible, if_pos ht]
  · intro hnest hnumbers
    rw [read_text, Json.within_of_le hnest, reread_eq_self hnumbers]
  · intro hnest
    rw [read_text, Json.within_of_lt hnest]

/-- An empty conjunction beside a comparison with a string that spells a sentinel and one with a
number. -/
def spelledSentinel : Tree :=
  junction .or [junction .and [], leaf ⟨"price", .atMost, .text "@now"⟩,
    leaf ⟨"price", .less, .float ⟨0x3ff8000000000000⟩⟩]

theorem tree_read_back_spelledSentinel :
    spelledSentinel.expressible ∧ spelledSentinel.nest ≤ 127 ∧
      (∀ q ∈ spelledSentinel.leaves, q.value.ReadsBack) ∧
      read spelledSentinel.text =
        .ok (junction .or [junction .and [], leaf ⟨"price", .atMost, .sentinel .now⟩,
          leaf ⟨"price", .less, .float ⟨0x3ff8000000000000⟩⟩]) := by
  have hx : spelledSentinel.expressible := by decide
  have hnest : spelledSentinel.nest ≤ 127 := by decide
  have hnumbers : ∀ q ∈ spelledSentinel.leaves, q.value.ReadsBack := by decide +kernel
  have hvalues : spelledSentinel.mapValues Value.canon =
      junction .or [junction .and [], leaf ⟨"price", .atMost, .sentinel .now⟩,
        leaf ⟨"price", .less, .float ⟨0x3ff8000000000000⟩⟩] := by decide
  refine ⟨hx, hnest, hnumbers, ?_⟩
  rw [← hvalues]
  exact (tree_read_back hx).2.1 hnest hnumbers

end Tree
end FilterAlgebra

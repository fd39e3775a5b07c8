import FilterAlgebra.Proofs.Operands
import FilterAlgebra.Proofs.SameText

namespace FilterAlgebra.Form

mutual

/-- The form that is read back. -/
def canon : Form → Form
  | value (.text s) =>
    match Token.ofSpelling? s with
    | some t => token t
    | none => value (Value.canon (.text s))
  | value v => value v.canon
  | token t => token t
  | list items => list (canonItems items)

def canonItems : List Form → List Form
  | [] => []
  | x :: xs => canon x :: canonItems xs

end

mutual

theorem toJson_canon : (x : Form) → x.canon.toJson = x.toJson.settled
  | value (.text s) => by
    rw [canon]
    split
    · next hs =>
      simp only [toJson, Value.toJson, Json.settled]
      rw [Token.spelling_of_ofSpelling? hs]
    · exact (Value.text s).toJson_canon
  | value .null | value (.bool _) | value (.int _) | value (.date _) | value (.sentinel _) => rfl
  | value (.float x) => (Value.float x).toJson_canon
  | token _ => rfl
  | list items => by rw [canon, toJson, toJson, Json.settled, itemsToJson_canonItems]

theorem itemsToJson_canonItems :
    (xs : List Form) → itemsToJson (canonItems xs) = Json.settledItems (itemsToJson xs)
  | [] => rfl
  | x :: xs => by
    rw [canonItems, itemsToJson, itemsToJson, Json.settledItems, toJson_canon,
      itemsToJson_canonItems]

end

mutual

theorem expressible_canon : (x : Form) → x.canon.expressible
  | value (.text s) => by
    rw [canon]
    split
    · rfl
    · exact (Value.text s).expressible_canon
  | value .null | value (.bool _) | value (.int _) | value (.date _) | value (.sentinel _) => rfl
  | value (.float x) => (Value.float x).expressible_canon
  | token _ => rfl
  | list items => expressibleItems_canonItems items

theorem expressibleItems_canonItems : (xs : List Form) → expressibleItems (canonItems xs)
  | [] => rfl
  | x :: xs => by
    rw [canonItems, expressibleItems, expressible_canon, expressibleItems_canonItems]
    rfl

end

mutual

theorem nesting_toJson : (x : Form) → x.toJson.nesting = x.nesting
  | value v => v.nesting_toJson
  | token _ => rfl
  | list items => by rw [toJson, Json.nesting, nestingOfItems_itemsToJson, nesting]

theorem nestingOfItems_itemsToJson :
    (xs : List Form) → Json.nestingOfItems (itemsToJson xs) = nestingOfItems xs
  | [] => rfl
  | x :: xs => by
    rw [itemsToJson, Json.nestingOfItems, nesting_toJson, nestingOfItems_itemsToJson,
      nestingOfItems_cons]

end

mutual

theorem writable_toJson : (x : Form) → x.toJson.Writable
  | value v => v.writable_toJson
  | token _ => trivial
  | list items => writableItems_itemsToJson items

theorem writableItems_itemsToJson : (xs : List Form) → Json.WritableItems (itemsToJson xs)
  | [] => trivial
  | x :: xs => ⟨writable_toJson x, writableItems_itemsToJson xs⟩

end

mutual

theorem ofJson?_settled : (x : Form) → ofJson? x.toJson.settled = some x.canon
  | value (.text s) => by
    simp only [toJson, Value.toJson, Json.settled, ofJson?, ofText, canon]
    cases Token.ofSpelling? s <;> rfl
  | value .null | value (.bool _) => rfl
  | value (.int n) => by
    simp only [toJson, Value.toJson, Json.settled, ofJson?, Value.ofJson?, Value.ofInteger_toInt]
    rfl
  | value (.float x) => by
    simp only [toJson, Value.toJson, Json.settled, canon, Value.canon]
    split <;> rfl
  -- A moment is written as a string, but as one that spells nothing.
  | value (.date m) => by
    simp only [toJson, Value.toJson, Json.settled, ofJson?, ofText, Token.ofSpelling?_moment,
      Value.ofText, Sentinel.ofSpelling?_moment, canon, Value.canon]
  | value (.sentinel x) => by cases x <;> decide
  | token t => by
    simp only [toJson, Json.settled, ofJson?, ofText, Token.ofSpelling?_spelling, canon]
  | list items => by
    rw [toJson, Json.settled, ofJson?, ofItems?_settledItems, canon, Option.map_some]

theorem ofItems?_settledItems :
    (xs : List Form) → ofItems? (Json.settledItems (itemsToJson xs)) = some (canonItems xs)
  | [] => rfl
  | x :: xs => by
    rw [itemsToJson, Json.settledItems, ofItems?, ofJson?_settled, ofItems?_settledItems,
      canonItems]

end

/-- The form with every number in it as its numeral is read. -/
def reread (x : Form) : Form := x.mapValues Value.reread

theorem reread_eq_self {x : Form} (hx : ∀ v ∈ x.values, v.ReadsBack) : x.reread = x :=
  mapValues_eq_self x fun v hv => (hx v hv).reread_eq

mutual

theorem toJson_mapValues_reread :
    (x : Form) → (x.mapValues Value.reread).toJson = x.toJson.reread
  | value v => v.toJson_reread
  | token _ => rfl
  | list items => by
    rw [mapValues, toJson, toJson, Json.reread, itemsToJson_mapValuesOf_reread items]

theorem itemsToJson_mapValuesOf_reread :
    (xs : List Form) → itemsToJson (mapValuesOf Value.reread xs) = Json.rereadItems (itemsToJson xs)
  | [] => rfl
  | x :: xs => by
    rw [mapValuesOf, itemsToJson, itemsToJson, Json.rereadItems, toJson_mapValues_reread x,
      itemsToJson_mapValuesOf_reread xs]

end

theorem reads_reader {l : Json.Layout} (hl : l.Blank) (x : Form) (room : ℕ) :
    Json.Reads l (reader room) x.toJson (Json.within room nesting (fun x => x.reread.canon) x) := by
  have hkept : Json.kept room x.toJson =
      Json.within room nesting (fun x => x.reread.toJson.settled) x :=
    Json.within_congr (by rw [nesting_toJson]) (by rw [reread, toJson_mapValues_reread])
  rw [reader]
  refine (Json.reads_document hl x.toJson x.writable_toJson room).check ?_
  rw [hkept]
  apply Json.within_bind
  simp only [ofJson?_settled]

theorem read_text (x : Form) : read x.text = Json.within 127 depth (fun x => x.reread.canon) x := by
  have hread := (reads_reader Json.blank_compact x Json.nestingLimit).readAll 0
  refine hread.trans (Json.within_congr ?_ rfl)
  rw [depth_eq_nesting]
  rfl

theorem read_text_of_readsBack {x : Form} (hx : ∀ v ∈ x.values, v.ReadsBack)
    (hdepth : x.depth ≤ 127) : read x.text = .ok x.canon := by
  rw [read_text, Json.within_of_le hdepth, reread_eq_self hx]

theorem text_canon (x : Form) : x.canon.text = x.text := by
  rw [text, text, toJson_canon, Json.compact, Json.compact, Json.write_settled]

theorem text_eq_iff {x y : Form} : x.text = y.text ↔ x.canon = y.canon := by
  constructor
  · intro h
    have hsettled := (Json.compact_eq_iff x.writable_toJson y.writable_toJson).1 h
    have hcanon := x.ofJson?_settled
    rw [hsettled, y.ofJson?_settled] at hcanon
    exact (Option.some.inj hcanon).symm
  · intro h
    rw [← x.text_canon, ← y.text_canon, h]

/-- What a form with a text comes back as, if its numbers are read back from their numerals, and
when two forms are told apart by their texts. -/
theorem form_read_back {x : Form} (hx : x.expressible) :
    x.written = .ok x.text ∧ x.canon.written = .ok x.text ∧
      (x.depth ≤ 127 → (∀ v ∈ x.values, v.ReadsBack) →
        read x.text = .ok x.canon ∧ (read x.text = .ok x ↔ x.canon = x)) ∧
      (∀ y : Form, y.expressible → (x.written = y.written ↔ x.canon = y.canon)) ∧
      (127 < x.depth → read x.text = .error .malformed) := by
  have hwritten {y : Form} (hy : y.expressible) : y.written = .ok y.text := by
    rw [written, whenExpressible, if_pos hy]
  refine ⟨hwritten hx, ?_, ?_, ?_, ?_⟩
  · rw [hwritten x.expressible_canon, text_canon]
  · intro hdepth hnumbers
    have hread := read_text_of_readsBack hnumbers hdepth
    refine ⟨hread, ?_⟩
    rw [hread, Except.ok.injEq]
  · intro y hy
    rw [hwritten hx, hwritten hy, Except.ok.injEq, text_eq_iff]
  · intro hdepth
    rw [read_text, Json.within_of_lt hdepth]

/-- A triple of strings that spell its parts, and one with a number. -/
def spelledTriple : Form :=
  list [list [value (.text "price"), value (.text "<="), value (.text "@now")],
    list [value (.text "price"), value (.text ">"), value (.float ⟨0x3ff8000000000000⟩)]]

theorem form_read_back_spelledTriple :
    spelledTriple.expressible ∧ spelledTriple.depth ≤ 127 ∧
      (∀ v ∈ spelledTriple.values, v.ReadsBack) ∧
      read spelledTriple.text =
        .ok (list [list [value (.text "price"), token (.compare .atMost), value (.sentinel .now)],
          list [value (.text "price"), token (.compare .greater),
            value (.float ⟨0x3ff8000000000000⟩)]]) := by
  have hdepth : spelledTriple.depth ≤ 127 := by
    rw [depth_eq_nesting]
    decide
  have hx : spelledTriple.expressible := by decide
  have hnumbers : ∀ v ∈ spelledTriple.values, v.ReadsBack := by decide +kernel
  have hcanon : spelledTriple.canon =
      list [list [value (.text "price"), token (.compare .atMost), value (.sentinel .now)],
        list [value (.text "price"), token (.compare .greater),
          value (.float ⟨0x3ff8000000000000⟩)]] := by decide
  refine ⟨hx, hdepth, hnumbers, ?_⟩
  rw [← hcanon]
  exact ((form_read_back hx).2.2.1 hdepth hnumbers).1

end FilterAlgebra.Form

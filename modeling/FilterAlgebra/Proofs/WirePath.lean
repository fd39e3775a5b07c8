import FilterAlgebra.Proofs.FormText
import FilterAlgebra.Proofs.Passage

namespace FilterAlgebra

namespace Value

/-- Whether the text of a value is read back as the value, or, for a moment, as that text. -/
def Unmistakable : Value → Prop
  | text s => Token.ofSpelling? s = none ∧ Sentinel.ofSpelling? s = none
  | float x => x.isFinite
  | date m => m.expressible
  | _ => True

instance : DecidablePred Unmistakable
  | text s =>
    inferInstanceAs (Decidable (Token.ofSpelling? s = none ∧ Sentinel.ofSpelling? s = none))
  | float x => inferInstanceAs (Decidable (x.isFinite = true))
  | date m => inferInstanceAs (Decidable (m.expressible = true))
  | null | bool _ | int _ | sentinel _ => isTrue trivial

def isMoment : Value → Bool
  | date _ => true
  | _ => false

def spellMoment : Value → Value
  | date m => text m.text
  | v => v

theorem keepsNulls_spellMoment : Form.KeepsNulls spellMoment := by
  intro v inverse
  cases v <;> rfl

theorem fieldName_spellMoment (v : Value) : v.spellMoment.fieldName = v.fieldName := by
  cases v <;> rfl

theorem toJson_spellMoment (v : Value) : v.spellMoment.toJson = v.toJson := by
  cases v <;> rfl

theorem spellMoment_of_not_isMoment {v : Value} (h : ¬ v.isMoment) : v.spellMoment = v := by
  cases v with
  | date m => exact absurd rfl h
  | _ => rfl

theorem Unmistakable.canon_eq {v : Value} (h : v.Unmistakable) : v.canon = v.spellMoment := by
  cases v with
  | text s =>
    rw [canon, h.2]
    rfl
  | float x => exact if_pos h
  | _ => rfl

theorem Unmistakable.expressible {v : Value} (h : v.Unmistakable) : v.expressible := by
  cases v with
  | date m => exact h
  | _ => rfl

end Value

namespace Form

theorem canon_value {v : Value} (hv : v.Unmistakable) :
    canon (value v) = value v.spellMoment := by
  rw [← hv.canon_eq]
  cases v with
  | text s =>
    rw [canon, hv.1]
  | _ => rfl

mutual

theorem canon_eq_mapValues : (x : Form) → (∀ v ∈ x.values, v.Unmistakable) →
    x.canon = x.mapValues Value.spellMoment
  | value v, h => by rw [mapValues, canon_value (h v (by simp [values]))]
  | token t, _ => by rw [canon, mapValues]
  | list items, h => by
    rw [values] at h
    rw [canon, mapValues, canonItems_eq_mapValuesOf items h]

theorem canonItems_eq_mapValuesOf : (items : List Form) → (∀ v ∈ valuesOf items, v.Unmistakable) →
    canonItems items = mapValuesOf Value.spellMoment items
  | [], _ => by rw [canonItems, mapValuesOf]
  | x :: xs, h => by
    rw [valuesOf, List.forall_mem_append] at h
    rw [canonItems, mapValuesOf, canon_eq_mapValues x h.1, canonItems_eq_mapValuesOf xs h.2]

end

/-- A form that is written, read and parsed has a tree that is written like the tree of the form
itself, and is that tree where the form holds no moment. -/
theorem parseText_text {x : Form} (hx : ∀ v ∈ x.values, v.Unmistakable)
    (hnumbers : ∀ v ∈ x.values, v.ReadsBack) (hdepth : x.depth ≤ 127) {c : Config}
    (hlimit : x.depth ≤ c.maxDepth) (htrace : c.traceStages = false) :
    x.written = .ok x.text ∧ x.parsed = .ok x.parse ∧ ∃ t w,
      (c.parseText x.text).result = .ok t ∧ t.written = .ok w ∧ x.parse.written = .ok w ∧
        ((∀ v ∈ x.values, ¬ v.isMoment) → t = x.parse) := by
  have hexpressible : x.expressible := x.expressible_iff.2 fun v hv => (hx v hv).expressible
  have hread : read x.text = .ok x.canon := read_text_of_readsBack hnumbers hdepth
  have hcanon : x.canon = x.mapValues Value.spellMoment := canon_eq_mapValues x hx
  have htree : x.canon.parse = x.parse.mapValues Value.spellMoment := by
    rw [hcanon, Tree.parse_mapValues Value.fieldName_spellMoment Value.keepsNulls_spellMoment]
  have hlimit' : x.canon.depth ≤ c.maxDepth := by
    rwa [hcanon, depth_eq_nesting, nesting_mapValues, ← depth_eq_nesting]
  have htext : x.canon.parse.text = x.parse.text := by
    rw [Tree.text, Tree.text, htree, Tree.toJson_mapValues Value.toJson_spellMoment]
  refine ⟨if_pos hexpressible, parsed_of_expressible hexpressible, x.canon.parse, x.parse.text,
    ?_, ?_, if_pos (Tree.expressible_parse hexpressible), ?_⟩
  · exact (Config.result_parseText_eq_ok htrace).2
      ⟨x.canon, hread, hlimit', parsed_of_expressible x.expressible_canon⟩
  · rw [← htext]
    exact if_pos (Tree.expressible_parse x.expressible_canon)
  · intro hmoment
    have hsame : x.mapValues Value.spellMoment = x :=
      mapValues_eq_self x fun v hv => Value.spellMoment_of_not_isMoment (hmoment v hv)
    rw [hcanon, hsame]

/-- A mark before two triples, one of a null and one of a number that has a moment for a field. -/
def datedField : Form :=
  list [token .not, list [value (.text "price"), token (.compare .less), value .null],
    token (.join .or), list [value (.date ⟨0, 3600⟩), token (.compare .equal),
      value (.float ⟨0x3ff8000000000000⟩)]]

theorem parseText_text_datedField :
    (∀ v ∈ datedField.values, v.Unmistakable) ∧ (∀ v ∈ datedField.values, v.ReadsBack) ∧
      datedField.depth ≤ 2 ∧ ∃ t, ((⟨2, false⟩ : Config).parseText datedField.text).result = .ok t ∧
        t.written = datedField.parse.written := by
  have hx : ∀ v ∈ datedField.values, v.Unmistakable := by decide
  have hnumbers : ∀ v ∈ datedField.values, v.ReadsBack := by decide +kernel
  have hdepth : datedField.depth ≤ 2 := by
    rw [depth_eq_nesting]
    decide
  obtain ⟨-, -, t, w, ht, hw, hw', -⟩ :=
    parseText_text hx hnumbers (hdepth.trans (by decide)) (c := ⟨2, false⟩) hdepth rfl
  exact ⟨hx, hnumbers, hdepth, t, ht, hw.trans hw'.symm⟩

end Form
end FilterAlgebra

import FilterAlgebra.Proofs.WirePath
import FilterAlgebra.Proofs.Yields

namespace FilterAlgebra

namespace Value

/-- A value that is read back from its text as it is. -/
structure Plain (v : Value) : Prop where
  unmistakable : v.Unmistakable
  not_isMoment : ¬ v.isMoment

theorem Plain.canon_eq {v : Value} (hv : v.Plain) : v.canon = v :=
  hv.unmistakable.canon_eq.trans (spellMoment_of_not_isMoment hv.not_isMoment)

theorem Plain.marked {v : Value} (hv : v.Plain) (inverse : Bool) :
    (v.markNull.negateIf inverse).Plain := by
  cases v with
  | null => exact ⟨trivial, Bool.false_ne_true⟩
  | sentinel x => exact ⟨trivial, Bool.false_ne_true⟩
  | _ => exact hv

/-- An integer that needs its sign bit is read as a number that is far from infinity. -/
theorem plain_ofInteger {n : ℤ} (hn : Json.Fits n) : (ofInteger n).Plain := by
  obtain ⟨hlow, hhigh⟩ := hn
  rw [ofInteger]
  split
  · exact ⟨trivial, Bool.false_ne_true⟩
  · have hfinite : (Binary64.ofInt n).isFinite := Binary64.isFinite_ofInt (by omega)
    exact ⟨hfinite, Bool.false_ne_true⟩

theorem Plain.spelling_ne {s : String} (hs : (text s).Plain) :
    (∀ t : Token, t.spelling ≠ s) ∧ ∀ x : Sentinel, x.spelling ≠ s := by
  obtain ⟨htoken, hsentinel⟩ : Token.ofSpelling? s = none ∧ Sentinel.ofSpelling? s = none :=
    hs.unmistakable
  constructor
  · rintro t rfl
    rw [Token.ofSpelling?_spelling] at htoken
    cases htoken
  · rintro x rfl
    rw [Sentinel.ofSpelling?_spelling] at hsentinel
    cases hsentinel

theorem plain_ofText {s : String} (hs : Token.ofSpelling? s = none) : (ofText s).Plain := by
  rw [ofText]
  split
  · exact ⟨trivial, Bool.false_ne_true⟩
  · next hsentinel => exact ⟨⟨hs, hsentinel⟩, Bool.false_ne_true⟩

end Value

namespace Form

theorem plain_of_ofText {s : String} : ∀ v ∈ (ofText s).values, v.Plain := by
  intro v hv
  rw [ofText] at hv
  split at hv
  · simp [values] at hv
  · next hs =>
    obtain rfl : v = Value.ofText s := by simpa [values] using hv
    exact Value.plain_ofText hs

mutual

/-- A form that is read keeps the nesting of its document. -/
theorem nesting_of_ofJson? : (j : Json) → {x : Form} → ofJson? j = some x →
    x.nesting = j.nesting
  | .null, _, h | .bool _, _, h | .int _, _, h | .float _, _, h => by
    cases h
    rfl
  | .text s, _, h => by
    cases h
    rw [ofText]
    split <;> rfl
  | .array js, _, h => by
    obtain ⟨xs, hxs, rfl⟩ := Option.map_eq_some_iff.1 h
    rw [nesting, Json.nesting, nestingOfItems_of_ofItems? js hxs]
  | .object ms, _, h => by cases h

theorem nestingOfItems_of_ofItems? : (js : List Json) → {xs : List Form} → ofItems? js = some xs →
    nestingOfItems xs = Json.nestingOfItems js
  | [], _, h => by
    cases h
    rfl
  | j :: js, _, h => by
    rw [ofItems?] at h
    split at h
    · next x xs hx hxs =>
      cases h
      rw [nestingOfItems_cons, Json.nestingOfItems, nesting_of_ofJson? j hx,
        nestingOfItems_of_ofItems? js hxs]
    · cases h

end

mutual

theorem plain_of_ofJson? : (j : Json) → {x : Form} → j.Writable → j.settled = j →
    ofJson? j = some x → ∀ v ∈ x.values, v.Plain
  | .null, _, _, _, h | .bool _, _, _, _, h => by
    cases h
    simp only [values, List.forall_mem_singleton]
    exact ⟨trivial, Bool.false_ne_true⟩
  | .int n, _, hn, _, h => by
    cases h
    simp only [values, List.forall_mem_singleton]
    exact Value.plain_ofInteger hn
  | .float x, _, _, hx, h => by
    cases h
    simp only [values, List.forall_mem_singleton]
    refine ⟨?_, Bool.false_ne_true⟩
    -- A number that is not finite would have been settled as null.
    by_contra hfinite
    have hfinite : ¬ x.isFinite := hfinite
    rw [Json.settled, if_neg hfinite] at hx
    cases hx
  | .text s, _, _, _, h => by
    cases h
    exact plain_of_ofText
  | .array js, _, hj, hsettled, h => by
    obtain ⟨xs, hxs, rfl⟩ := Option.map_eq_some_iff.1 h
    rw [Json.settled, Json.array.injEq] at hsettled
    exact plain_of_ofItems? js hj hsettled hxs
  | .object ms, _, _, _, h => by cases h

theorem plain_of_ofItems? : (js : List Json) → {xs : List Form} → Json.WritableItems js →
    Json.settledItems js = js → ofItems? js = some xs → ∀ v ∈ valuesOf xs, v.Plain
  | [], _, _, _, h => by
    cases h
    simp
  | j :: js, _, hj, hsettled, h => by
    rw [Json.settledItems, List.cons.injEq] at hsettled
    rw [ofItems?] at h
    split at h
    · next x xs hx hxs =>
      cases h
      rw [valuesOf, List.forall_mem_append]
      exact ⟨plain_of_ofJson? j hj.1 hsettled.1 hx, plain_of_ofItems? js hj.2 hsettled.2 hxs⟩
    · cases h

end

theorem yields_reader (room : ℕ) :
    (reader room).Yields fun x => (∀ v ∈ x.values, v.Plain) ∧ x.nesting ≤ room := by
  rw [reader]
  refine (Json.yields_document room).check ?_
  intro j x hj h
  split at h
  · next hx =>
    cases h
    refine ⟨plain_of_ofJson? j hj.writable hj.settled_eq hx, ?_⟩
    rw [nesting_of_ofJson? j hx]
    exact hj.nesting_le
  · cases h

/-- A text is read as a form of plain values, or as no form at all. -/
theorem plain_of_read {s : String} {x : Form} (h : read s = .ok x) :
    (∀ v ∈ x.values, v.Plain) ∧ x.depth ≤ 127 := by
  rw [depth_eq_nesting]
  exact (yields_reader Json.nestingLimit).readAll h

theorem canon_eq_self {x : Form} (hx : ∀ v ∈ x.values, v.Plain) : x.canon = x := by
  rw [canon_eq_mapValues x fun v hv => (hx v hv).unmistakable]
  exact mapValues_eq_self x fun v hv => Value.spellMoment_of_not_isMoment (hx v hv).not_isMoment

theorem read_text_of_plain {x : Form} (hx : ∀ v ∈ x.values, v.Plain)
    (hnumbers : ∀ v ∈ x.values, v.ReadsBack) (hdepth : x.depth ≤ 127) : read x.text = .ok x := by
  rw [read_text_of_readsBack hnumbers hdepth, canon_eq_self hx]

theorem expressible_of_read {s : String} {x : Form} (h : read s = .ok x) : x.expressible :=
  x.expressible_iff.2 fun v hv => ((plain_of_read h).1 v hv).unmistakable.expressible

theorem mapValues_canon_parse {x : Form} (hx : ∀ v ∈ x.values, v.Plain) :
    x.parse.mapValues Value.canon = x.parse := by
  apply Tree.mapValues_eq_self
  intro q hq
  obtain ⟨v, hv, inverse, hvalue⟩ := Tree.exists_of_mem_leaves_parse hq
  rw [hvalue]
  exact ((hx v hv).marked inverse).canon_eq

theorem readsBack_parse {x : Form} (hx : ∀ v ∈ x.values, v.ReadsBack) :
    ∀ q ∈ x.parse.leaves, q.value.ReadsBack := by
  intro q hq
  obtain ⟨v, hv, inverse, hvalue⟩ := Tree.exists_of_mem_leaves_parse hq
  rw [hvalue]
  exact (hx v hv).marked inverse

/-- Whatever the spelling of a text, nothing of what is read from it would be read otherwise from
its own text: it holds no moment, no string that spells a word, no number that is not finite, and
no more than 127 lists inside one another. So it comes back if its numbers are read back from their
numerals. -/
theorem read_text_of_read {s : String} {x : Form} (h : read s = .ok x) :
    (∀ m, .date m ∉ x.values) ∧
      (∀ w, .text w ∈ x.values →
        (∀ t : Token, t.spelling ≠ w) ∧ ∀ a : Sentinel, a.spelling ≠ w) ∧
      (∀ f, .float f ∈ x.values → f.isFinite) ∧ x.depth ≤ 127 ∧
      x.written = .ok x.text ∧ ((∀ v ∈ x.values, v.ReadsBack) → read x.text = .ok x) := by
  obtain ⟨hplain, hdepth⟩ := plain_of_read h
  refine ⟨?_, ?_, ?_, hdepth, if_pos (expressible_of_read h), ?_⟩
  · intro m hm
    exact (hplain _ hm).not_isMoment rfl
  · intro w hw
    exact (hplain _ hw).spelling_ne
  · intro f hf
    exact (hplain _ hf).unmistakable
  · intro hnumbers
    exact read_text_of_plain hplain hnumbers hdepth

/-- A mark and an operator in escapes, an integer that has no 64 bits, and a zero with a sign. -/
def oddlySpelled : String :=
  " [ \"\\u0021\" , [\"f\", \"\\u003d\", 1e2],\n18446744073709551616, -0 ] "

theorem read_text_of_read_oddlySpelled :
    ∃ x, read oddlySpelled = .ok x ∧ x = list [token .not,
        list [value (.text "f"), token (.compare .equal), value (.float ⟨0x4059000000000000⟩)],
        value (.float ⟨0x43f0000000000000⟩), value (.float ⟨0x8000000000000000⟩)] ∧
      x.depth ≤ 127 ∧ (∀ v ∈ x.values, v.ReadsBack) ∧ read x.text = .ok x := by
  generalize hx : list [token .not,
      list [value (.text "f"), token (.compare .equal), value (.float ⟨0x4059000000000000⟩)],
      value (.float ⟨0x43f0000000000000⟩), value (.float ⟨0x8000000000000000⟩)] = x
  have h : read oddlySpelled = .ok x := by
    rw [← hx]
    decide +kernel
  have hnumbers : ∀ v ∈ x.values, v.ReadsBack := by
    rw [← hx]
    decide +kernel
  obtain ⟨-, -, -, hdepth, -, hread⟩ := read_text_of_read h
  exact ⟨x, h, rfl, hdepth, hnumbers, hread hnumbers⟩

end Form
end FilterAlgebra

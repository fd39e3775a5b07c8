import FilterAlgebra.Proofs.Depth
import FilterAlgebra.Proofs.Level

namespace FilterAlgebra

theorem Value.isNull_marked (v : Value) (inverse : Bool) :
    (v.markNull.negateIf inverse).isNull = false := by
  cases v <;> rfl

theorem Value.markNull_eq_self {v : Value} (h : v.isNull = false) : v.markNull = v := by
  cases v with
  | null => cases h
  | _ => rfl

theorem Token.negateIf_ne_not {t : Token} (ht : t ≠ not) (inverse : Bool) :
    t.negateIf inverse ≠ not := by
  cases t with
  | not => exact absurd rfl ht
  | compare c => exact nofun
  | join c => exact nofun

theorem Token.negateIf_false (t : Token) : t.negateIf false = t := by
  cases t <;> rfl

namespace Form

mutual

/-- Whether a form holds neither a negation mark nor a plain null. -/
def isNormal : Form → Bool
  | value v => !v.isNull
  | token t => t != .not
  | list items => allNormal items

def allNormal : List Form → Bool
  | [] => true
  | x :: xs => isNormal x && allNormal xs

end

/-- A form occurs in itself and in every list that holds an item it occurs in. -/
inductive Occurs (e : Form) : Form → Prop where
  | here : Occurs e e
  | inside {items : List Form} {x : Form} (hx : x ∈ items) (h : Occurs e x) :
    Occurs e (list items)

theorem occurs_value {e : Form} {v : Value} : Occurs e (value v) ↔ e = value v := by
  constructor
  · intro h
    cases h with
    | here => rfl
  · rintro rfl
    exact .here

theorem occurs_token {e : Form} {t : Token} : Occurs e (token t) ↔ e = token t := by
  constructor
  · intro h
    cases h with
    | here => rfl
  · rintro rfl
    exact .here

theorem occurs_list {e : Form} {items : List Form} :
    Occurs e (list items) ↔ e = list items ∨ ∃ x ∈ items, Occurs e x := by
  constructor
  · intro h
    cases h with
    | here => exact .inl rfl
    | inside hx h => exact .inr ⟨_, hx, h⟩
  · rintro (rfl | ⟨x, hx, h⟩)
    · exact .here
    · exact .inside hx h

mutual

theorem isNormal_iff :
    (x : Form) → (x.isNormal ↔ ¬ Occurs (token .not) x ∧ ¬ Occurs (value .null) x)
  | value v => by cases v <;> simp [isNormal, Value.isNull, occurs_value]
  | token t => by cases t <;> simp [isNormal, occurs_token]
  | list items => by
    rw [isNormal, allNormal_iff items, occurs_list, occurs_list]
    simp [forall_and]

theorem allNormal_iff : (items : List Form) →
    (allNormal items ↔ ∀ x ∈ items, ¬ Occurs (token .not) x ∧ ¬ Occurs (value .null) x)
  | [] => by simp [allNormal]
  | x :: xs => by
    rw [allNormal, Bool.and_eq_true, isNormal_iff x, allNormal_iff xs, List.forall_mem_cons]

end

theorem allNormal_normalItems (inverse : Bool) (items : List Form) :
    allNormal (normalItems inverse items) := by
  induction inverse, items using level_induct with
  | nil inverse => simp [allNormal]
  | mark inverse xs ih => rwa [normalItems_not]
  | token inverse t xs ht ih =>
    have hkept : t.negateIf inverse ≠ .not := Token.negateIf_ne_not ht inverse
    simp [normalItems_token inverse ht, allNormal, isNormal, hkept, ih]
  | value inverse v xs ih => simp [allNormal, isNormal, Value.isNull_marked, ih]
  | list inverse ys xs ihys ihxs => simp [allNormal, isNormal, ihys, ihxs]

theorem isNormal_normalize (x : Form) : x.normalize.isNormal := by
  cases x with
  | value v => cases v <;> rfl
  | token t => cases t <;> rfl
  | list items =>
    rw [normalize_list, isNormal]
    exact allNormal_normalItems false items

theorem normalItems_eq_self : (items : List Form) → allNormal items →
    normalItems false items = items
  | [], _ => normalItems_nil false
  | token t :: xs, h => by
    have h : t ≠ .not ∧ allNormal xs := by simpa [allNormal, isNormal] using h
    rw [normalItems_token false h.1, normalItems_eq_self xs h.2, Token.negateIf_false]
  | value v :: xs, h => by
    have h : v.isNull = false ∧ allNormal xs := by simpa [allNormal, isNormal] using h
    rw [normalItems_value, normalItems_eq_self xs h.2, Value.markNull_eq_self h.1,
      Value.negateIf_false]
  | list ys :: xs, h => by
    rw [allNormal, isNormal, Bool.and_eq_true] at h
    rw [normalItems_list, normalItems_eq_self ys h.1, normalItems_eq_self xs h.2]

theorem normalize_eq_self {x : Form} (hx : x.isNormal) : x.normalize = x := by
  cases x with
  | value v =>
    cases v with
    | null => cases hx
    | _ => rfl
  | token t =>
    cases t with
    | not => cases hx
    | _ => rfl
  | list items => rw [normalize_list, normalItems_eq_self items hx]

theorem normalize_normalize (x : Form) : x.normalize.normalize = x.normalize :=
  normalize_eq_self x.isNormal_normalize

theorem parse_normalize (x : Form) : x.normalize.parse = x.parse := by
  rw [parse, parse, normalize_normalize]

theorem parsed_normalize (x : Form) : x.normalize.parsed = x.parsed := by
  rw [parsed, parsed, normalize_normalize]

theorem nestingOfItems_normalItems (inverse : Bool) (items : List Form) :
    nestingOfItems (normalItems inverse items) = nestingOfItems items := by
  induction inverse, items using level_induct with
  | nil inverse => rw [normalItems_nil]
  | mark inverse xs ih => simp [nestingOfItems_cons, nesting, ih]
  | token inverse t xs ht ih =>
    simp [normalItems_token inverse ht, nestingOfItems_cons, nesting, ih]
  | value inverse v xs ih => simp [nestingOfItems_cons, nesting, ih]
  | list inverse ys xs ihys ihxs => simp [nestingOfItems_cons, nesting, ihys, ihxs]

/-- A mark by itself becomes an empty list. -/
theorem depth_normalize (x : Form) :
    x.normalize.depth = if x = token .not then 1 else x.depth := by
  rw [depth_eq_nesting, depth_eq_nesting]
  cases x with
  | value v => rfl
  | token t => cases t <;> rfl
  | list items =>
    have hlist : list items ≠ token .not := by simp
    rw [normalize_list, nesting, nestingOfItems_normalItems, if_neg hlist, nesting]

theorem depth_normalize_le (x : Form) : x.normalize.depth ≤ max x.depth 1 := by
  rw [depth_normalize]
  split <;> omega

/-- Neither a mark nor a plain null occurs in a normal form, and the forms in which neither occurs
are the ones that normalizing leaves as they are. So it may be done twice, and before a tree is
made, and nothing comes of it. -/
theorem normal_form_stays (x : Form) :
    (¬ Occurs (token .not) x.normalize ∧ ¬ Occurs (value .null) x.normalize) ∧
      (x.normalize = x ↔ ¬ Occurs (token .not) x ∧ ¬ Occurs (value .null) x) ∧
      x.normalize.normalize = x.normalize ∧ x.normalize.parse = x.parse ∧
      x.normalize.parsed = x.parsed := by
  have hnormal := (isNormal_iff x.normalize).1 x.isNormal_normalize
  refine ⟨hnormal, ⟨?_, ?_⟩, x.normalize_normalize, x.parse_normalize, x.parsed_normalize⟩
  · intro h
    rwa [h] at hnormal
  · intro h
    exact normalize_eq_self ((isNormal_iff x).2 h)

end Form
end FilterAlgebra

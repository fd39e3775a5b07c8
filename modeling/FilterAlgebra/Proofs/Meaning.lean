import FilterAlgebra.Proofs.Building
import FilterAlgebra.Proofs.Level

namespace FilterAlgebra

def Predicate.negate (p : Predicate) : Predicate :=
  ⟨p.field, p.operator.negate, p.value.negateIf true⟩

/-- Each predicate is true exactly when its opposite is not. -/
def Complementary (holds : Predicate → Bool) : Prop := ∀ p, holds p.negate = !holds p

/-- The member of each pair of partners that claims something. -/
def Comparison.isPositive : Comparison → Bool
  | equal | greater | less | contains | blank => true
  | notEqual | atMost | atLeast | notContains | notBlank => false

theorem complementary_isPositive : Complementary fun p => p.operator.isPositive := by
  rintro ⟨_, c, _⟩
  cases c <;> rfl

theorem Connective.fold_negateIf (inverse : Bool) (c : Connective) (bs : List Bool) :
    (c.negateIf inverse).fold (bs.map (inverse ^^ ·)) = (inverse ^^ c.fold bs) := by
  cases inverse with
  | false => cases c <;> simp [negateIf, fold]
  | true =>
    cases c with
    | and => simp [negateIf, negate, fold, List.not_all_eq_any_not]
    | or => simp [negateIf, negate, fold, List.not_any_eq_all_not]

namespace Form

@[simp] theorem separated_cons_cons (c : Connective) (x y : Form) (xs : List Form) :
    separated c (x :: y :: xs) = x :: token (.join c) :: separated c (y :: xs) := rfl

theorem normalItems_separated (inverse : Bool) (c : Connective) (ls : List (List Form)) :
    normalItems inverse (separated c (ls.map list)) =
      separated (c.negateIf inverse) ((ls.map (normalItems inverse)).map list) := by
  induction ls with
  | nil => simp [separated]
  | cons l ls ih =>
    cases ls with
    | nil => simp [separated]
    | cons l' ls => simpa using ih

theorem tripleOf?_separated (c : Connective) (ls : List (List Form)) :
    tripleOf? (separated c (ls.map list)) = none := by
  rcases ls with _ | ⟨l, _ | ⟨l', ls⟩⟩ <;> rfl

theorem join_mem_separated (c d : Connective) (ls : List (List Form)) :
    token (.join d) ∈ separated c (ls.map list) ↔ d = c ∧ 2 ≤ ls.length := by
  induction ls with
  | nil => simp [separated]
  | cons l ls ih =>
    cases ls with
    | nil => simp [separated]
    | cons l' ls =>
      simp only [List.map_cons, separated_cons_cons, List.mem_cons, reduceCtorEq, false_or,
        token.injEq, Token.join.injEq] at ih ⊢
      rw [ih]
      simp only [List.length_cons]
      constructor
      · rintro (h | ⟨h, -⟩)
        · exact ⟨h, by omega⟩
        · exact ⟨h, by omega⟩
      · intro h
        exact .inl h.1

theorem fieldsExpressible_separated (c : Connective) (ls : List (List Form)) :
    fieldsExpressible (list (separated c (ls.map list))) =
      ls.all fun l => fieldsExpressible (list l) := by
  have hin : fieldsExpressibleIn (separated c (ls.map list)) =
      ls.all fun l => fieldsExpressible (list l) := by
    induction ls with
    | nil => simp [separated, fieldsExpressibleIn]
    | cons l ls ih =>
      cases ls with
      | nil => simp [separated, fieldsExpressibleIn]
      | cons l' ls =>
        have hc : fieldsExpressible (token (.join c)) := by simp [fieldsExpressible]
        simp only [List.map_cons, separated_cons_cons, fieldsExpressibleIn, List.all_cons] at ih ⊢
        rw [hc, Bool.true_and, ih]
  rw [fieldsExpressible, tripleOf?_separated]
  exact hin

end Form

namespace Tree

theorem nodes_separated (c : Connective) (ls : List (List Form)) :
    nodes (Form.separated c (ls.map .list)) = ls.map node := by
  induction ls with
  | nil => simp [Form.separated]
  | cons l ls ih =>
    cases ls with
    | nil => simp [Form.separated]
    | cons l' ls => simpa using ih

theorem eval_junction (holds : Predicate → Bool) (c : Connective) (ts : List Tree) :
    eval holds (junction c ts) = c.fold (ts.map (eval holds)) := by
  cases c with
  | and => simp [eval, evalAll_eq_all, Connective.fold]
  | or => simp [eval, evalAny_eq_any, Connective.fold]

theorem connectiveOf_separated (c : Connective) {ls : List (List Form)} (hlen : 2 ≤ ls.length) :
    connectiveOf (Form.separated c (ls.map .list)) = c := by
  have hand := Form.join_mem_separated c .and ls
  rw [← connectiveOf_eq_and] at hand
  cases c with
  | and => exact hand.2 ⟨rfl, hlen⟩
  | or =>
    cases h : connectiveOf (Form.separated .or (ls.map .list)) with
    | and => exact absurd (hand.1 h).1 (by decide)
    | or => rfl

theorem node_separated (c : Connective) (ls : List (List Form)) :
    node (Form.separated c (ls.map .list)) =
      junction (connectiveOf (Form.separated c (ls.map .list))) (ls.map node) := by
  rw [node, Form.tripleOf?_separated]
  dsimp only
  rw [nodes_separated]

/-- One list by itself has no connective beside it, but then either connective is right. -/
theorem eval_node_separated (holds : Predicate → Bool) (c : Connective) (ls : List (List Form))
    (hne : ls ≠ []) :
    (node (Form.separated c (ls.map .list))).eval holds =
      c.fold (ls.map fun l => (node l).eval holds) := by
  rw [node_separated, eval_junction, List.map_map]
  rcases ls with _ | ⟨l, _ | ⟨l', ls⟩⟩
  · exact absurd rfl hne
  · cases connectiveOf (Form.separated c ([l].map Form.list)) <;> cases c <;>
      simp [Connective.fold]
  · rw [connectiveOf_separated c (by simp)]
    rfl

theorem eval_node_singleton (holds : Predicate → Bool) (items : List Form) :
    (node [.list items]).eval holds = (node items).eval holds := by
  have h := eval_node_separated holds .or [items] (by simp)
  simpa [Form.separated, Connective.fold] using h

end Tree

namespace Form

def Named (items : List Form) : Prop :=
  ∀ inverse, fieldsExpressible (list (normalItems inverse items))

theorem named_triple (p : Predicate) :
    Named [value (.text p.field), token (.compare p.operator), value p.value] := by
  intro inverse
  simp [fieldsExpressible, tripleOf?, Value.markNull, Value.negateIf, Value.expressible]

theorem named_not {items : List Form} (h : Named items) : Named [token .not, list items] := by
  intro inverse
  have hn := h (!inverse)
  simpa [fieldsExpressible, fieldsExpressibleIn, tripleOf?] using hn

theorem named_separated (c : Connective) {ls : List (List Form)} (h : ∀ l ∈ ls, Named l) :
    Named (separated c (ls.map list)) := by
  intro inverse
  rw [normalItems_separated, fieldsExpressible_separated, List.all_map, List.all_eq_true]
  exact fun l hl => h l hl inverse

/-- What a list means: its truth inside a level, turned round where an odd number of marks reaches
it. All its fields have names, so it never lacks a tree. -/
structure ListMeans (holds : Predicate → Bool) (items : List Form) (b : Bool) : Prop where
  truth : ∀ inverse, (Tree.node (normalItems inverse items)).eval holds = (inverse ^^ b)
  named : ∀ inverse, fieldsExpressible (list (normalItems inverse items))

/-- Only lists keep their meaning wherever they stand. -/
inductive Means (holds : Predicate → Bool) : Form → Bool → Prop where
  | list {items : List Form} {b : Bool} (h : ListMeans holds items b) : Means holds (list items) b

variable {holds : Predicate → Bool}

theorem listMeans_separated (c : Connective) {ls : List (List Form)} {bs : List Bool}
    (h : List.Forall₂ (ListMeans holds) ls bs) (hne : ls ≠ []) :
    ListMeans holds (separated c (ls.map .list)) (c.fold bs) where
  truth inverse := by
    have ht : (ls.map (normalItems inverse)).map (fun l => (Tree.node l).eval holds) =
        bs.map (inverse ^^ ·) := by
      clear hne
      induction h with
      | nil => rfl
      | cons hl _ ih =>
        simp only [List.map_cons, hl.truth inverse]
        rw [ih]
    rw [normalItems_separated, Tree.eval_node_separated _ _ _ (by simpa using hne), ht,
      Connective.fold_negateIf]
  named := by
    apply named_separated
    clear hne
    induction h with
    | nil => simp
    | cons hl _ ih => exact List.forall_mem_cons.2 ⟨hl.named, ih⟩

theorem listMeans_not {items : List Form} {b : Bool} (h : ListMeans holds items b) :
    ListMeans holds [token .not, list items] (!b) where
  truth inverse := by
    -- The mark is erased, and the list behind it is reached by one mark more.
    have ht := h.truth (!inverse)
    simp only [normalItems_not, normalItems_list, normalItems_nil]
    rw [Tree.eval_node_singleton, ht]
    simp
  named := named_not h.named

theorem listMeans_triple (hc : Complementary holds) (f : String) (c : Comparison) (v : Value) :
    ListMeans holds [value (.text f), token (.compare c), value v] (holds ⟨f, c, v.markNull⟩) where
  truth inverse := by
    rw [normalItems_value, normalItems_compare, normalItems_value, normalItems_nil]
    change holds ⟨f, c.negateIf inverse, v.markNull.negateIf inverse⟩ = _
    cases inverse with
    | false => rw [Value.negateIf_false, Bool.false_xor]; rfl
    | true => rw [Bool.true_xor]; exact hc ⟨f, c, v.markNull⟩
  named := named_triple ⟨f, c, v⟩

theorem means_separated (c : Connective) {xs : List Form} {bs : List Bool}
    (h : List.Forall₂ (Means holds) xs bs) (hne : xs ≠ []) :
    Means holds (list (separated c xs)) (c.fold bs) := by
  have hls : ∃ ls : List (List Form), xs = ls.map list ∧ List.Forall₂ (ListMeans holds) ls bs := by
    clear hne
    induction h with
    | nil => exact ⟨[], rfl, .nil⟩
    | cons hx _ ih =>
      obtain ⟨ls, rfl, hls⟩ := ih
      cases hx with
      | list hl => exact ⟨_ :: ls, rfl, .cons hl hls⟩
  obtain ⟨ls, rfl, hls⟩ := hls
  exact .list (listMeans_separated c hls (by simpa using hne))

theorem means_product (hc : Complementary holds) {fields : List String} (hf : fields ≠ [])
    (c : Comparison) (values : List Value) (hv : values ≠ []) :
    Means holds (product fields c values)
      (fields.any fun f => values.any fun v => holds ⟨f, c, v.markNull⟩) := by
  have h : List.Forall₂ (Means holds) (triples fields c values)
      (fields.flatMap fun f => values.map fun v => holds ⟨f, c, v.markNull⟩) := by
    apply List.rel_flatMap (R := (· = ·)) (List.forall₂_refl fields)
    rintro f _ rfl
    rw [List.forall₂_map_left_iff, List.forall₂_map_right_iff, List.forall₂_same]
    intro v _
    exact .list (listMeans_triple hc f c v)
  have hne : triples fields c values ≠ [] := by
    obtain ⟨f, fs, rfl⟩ := List.exists_cons_of_ne_nil hf
    obtain ⟨v, vs, rfl⟩ := List.exists_cons_of_ne_nil hv
    simp [triples]
  have hm := means_separated .or h hne
  rwa [Connective.fold, List.any_flatMap, funext fun f => List.any_map] at hm

/-- A builder yields a form that means what it spells, or neither form nor meaning. -/
abbrev MeansIfAny (holds : Predicate → Bool) : Option Form → Option Bool → Prop :=
  Option.Rel (Means holds)

theorem keptByBuilders_means (hc : Complementary holds) : KeptByBuilders holds (Means holds) where
  product _ c values hf hv := means_product hc hf c values hv
  not hx := by
    cases hx with
    | list hl => exact .list (listMeans_not hl)
  joined hxs hlen := means_separated _ hxs (List.ne_nil_of_length_pos (by omega))

end Form

namespace Program

variable {holds : Predicate → Bool}

/-- Every builder keeps to the meaning of its parts, so a program does. -/
theorem means_run (hc : Complementary holds) (p : Program) {x : Option Form} (hp : p.isBuilt)
    (hx : p.run.result = .ok x) : Form.MeansIfAny holds x (p.eval holds) :=
  rel_run (Form.keptByBuilders_means hc) p hp hx

/-- The form that a program over the builders yields has a tree, and the truth of that tree is
the one that the program spells out. -/
theorem eval_parse_of_run (hc : Complementary holds) (p : Program) (hp : p.isBuilt) {x : Form}
    (hx : p.run.result = .ok (some x)) :
    x.parsed = .ok x.parse ∧ p.eval holds = some (x.parse.eval holds) := by
  have hm := means_run hc p hp hx
  cases he : p.eval holds with
  | none => rw [he] at hm; cases hm
  | some b =>
    rw [he] at hm
    cases hm with
    | some hm =>
      cases hm with
      | list hl =>
        -- No mark stands around the whole form.
        have hn := hl.named false
        have ht := hl.truth false
        rw [Bool.false_xor] at ht
        rw [Form.parsed_eq, Form.normalize_list, whenExpressible_eq_ok, Tree.eval_parse_list, ht]
        exact ⟨⟨hn, rfl⟩, rfl⟩

/-- Neither `a` nor `b` differs from null or from 3, or `c` is not blank or `d` is not below. -/
def negatedJoin : Program :=
  negate (join .and [compare ["a", "b"] .notEqual [.null, .int 3], absent,
    extend .or (compareSpelled ["c"] "isnotblank" []) (negate (compare ["d"] .less [.bool true]))])

theorem eval_parse_of_negatedJoin :
    Complementary (fun p => p.operator.isPositive) ∧ negatedJoin.isBuilt ∧
      ∃ x, negatedJoin.run.result = .ok (some x) ∧ x.parsed = .ok x.parse ∧
        negatedJoin.eval (fun p => p.operator.isPositive) =
          some (x.parse.eval fun p => p.operator.isPositive) :=
  ⟨complementary_isPositive, rfl, _, rfl,
    eval_parse_of_run complementary_isPositive negatedJoin rfl rfl⟩

end Program
end FilterAlgebra

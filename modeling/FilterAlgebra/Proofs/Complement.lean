import FilterAlgebra.Proofs.Meaning
import FilterAlgebra.Proofs.Opposite

namespace FilterAlgebra

/-- The reading that finds a predicate true where its opposite is false. -/
def dual (holds : Predicate → Bool) (p : Predicate) : Bool := !holds p.negate

/-- Null read in the ordinary way: operators that are partners are complements on one and the same
value, and no field is both null and not null, nor neither. -/
structure Ordinary (holds : Predicate → Bool) : Prop where
  operators : ∀ f c v, holds ⟨f, c.negate, v⟩ = !holds ⟨f, c, v⟩
  nulls : ∀ f, holds ⟨f, .equal, .sentinel .notNull⟩ = !holds ⟨f, .equal, .sentinel .null⟩

def Predicate.exchangeNulls (p : Predicate) : Predicate := { p with value := p.value.negateIf true }

theorem dual_of_ordinary {holds : Predicate → Bool} (ho : Ordinary holds) :
    dual holds = fun p => holds p.exchangeNulls := by
  funext p
  rw [dual, Predicate.negate, ho.operators, Bool.not_not]
  rfl

/-- Both operators of the null checks tell null and its partner apart. -/
theorem Ordinary.exchanged {holds : Predicate → Bool} (ho : Ordinary holds) (f : String) :
    holds ⟨f, .equal, .sentinel .notNull⟩ = (!holds ⟨f, .equal, .sentinel .null⟩) ∧
      holds ⟨f, .notEqual, .sentinel .notNull⟩ = !holds ⟨f, .notEqual, .sentinel .null⟩ := by
  refine ⟨ho.nulls f, ?_⟩
  have hnull := ho.operators f .equal (.sentinel .null)
  have hnotNull := ho.operators f .equal (.sentinel .notNull)
  rw [Comparison.negate] at hnull hnotNull
  rw [hnull, hnotNull, ho.nulls f]

namespace Form

def ofPredicate (p : Predicate) : Form := triple p.field p.operator p.value

/-- The forms that builders make: comparisons beside each other, a mark before one form, or at
least two forms with one and the same connective between them. -/
inductive WellFormed : Form → Prop where
  | comparisons {ps : List Predicate} (hne : ps ≠ []) :
    WellFormed (list (separated .or (ps.map ofPredicate)))
  | not {x : Form} (hx : WellFormed x) : WellFormed (list [token .not, x])
  | joined {c : Connective} {xs : List Form} (hxs : ∀ x ∈ xs, WellFormed x)
    (hlen : 2 ≤ xs.length) : WellFormed (list (separated c xs))

theorem triples_eq_map (fields : List String) (c : Comparison) (values : List Value) :
    triples fields c values =
      (fields.flatMap fun f => values.map fun v => (⟨f, c, v⟩ : Predicate)).map ofPredicate := by
  rw [triples, List.map_flatMap]
  simp only [List.map_map]
  rfl

theorem wellFormed_product {fields : List String} (hf : fields ≠ []) (c : Comparison)
    {values : List Value} (hv : values ≠ []) : WellFormed (product fields c values) := by
  rw [product, triples_eq_map]
  apply WellFormed.comparisons
  obtain ⟨f, fs, rfl⟩ := List.exists_cons_of_ne_nil hf
  obtain ⟨v, vs, rfl⟩ := List.exists_cons_of_ne_nil hv
  simp

theorem keptByBuilders_wellFormed (holds : Predicate → Bool) :
    KeptByBuilders holds fun x _ => WellFormed x where
  product _ c _ hf hv := wellFormed_product hf c hv
  not hx := .not hx
  joined hxs hlen := by
    refine .joined ?_ hlen
    clear hlen
    induction hxs with
    | nil => simp
    | cons hx _ ih => exact List.forall_mem_cons.2 ⟨hx, ih⟩

theorem exists_eq_map_list {P : List Form → Prop} {xs : List Form}
    (h : ∀ x ∈ xs, ∃ items, x = list items ∧ P items) :
    ∃ ls : List (List Form), xs = ls.map list ∧ ∀ l ∈ ls, P l := by
  induction xs with
  | nil => exact ⟨[], rfl, by simp⟩
  | cons x xs ih =>
    obtain ⟨⟨items, rfl, hitems⟩, hrest⟩ := List.forall_mem_cons.1 h
    obtain ⟨ls, rfl, hls⟩ := ih hrest
    exact ⟨items :: ls, rfl, List.forall_mem_cons.2 ⟨hitems, hls⟩⟩

/-- A well-formed form is a list, and what holds of a triple and passes through marks and through
joining holds of its items. -/
theorem WellFormed.exists_items {P : List Form → Prop}
    (triple : ∀ p : Predicate,
      P [value (.text p.field), token (.compare p.operator), value p.value])
    (mark : ∀ {items}, P items → P [token .not, list items])
    (joined : ∀ c {ls}, (∀ l ∈ ls, P l) → ls ≠ [] → P (separated c (ls.map list)))
    {x : Form} (hx : WellFormed x) : ∃ items, x = list items ∧ P items := by
  induction hx with
  | @comparisons ps hne =>
    have hps : ∀ x ∈ ps.map ofPredicate, ∃ items, x = list items ∧ P items := by
      simp only [List.forall_mem_map]
      intro p _
      exact ⟨_, rfl, triple p⟩
    obtain ⟨ls, hls, h⟩ := exists_eq_map_list hps
    refine ⟨_, rfl, ?_⟩
    rw [hls]
    apply joined .or h
    rintro rfl
    exact hne (by simpa using hls)
  | not _ ih =>
    obtain ⟨items, rfl, hitems⟩ := ih
    exact ⟨_, rfl, mark hitems⟩
  | @joined c xs _ hlen ih =>
    obtain ⟨ls, rfl, hls⟩ := exists_eq_map_list ih
    refine ⟨_, rfl, joined c hls ?_⟩
    rintro rfl
    simp at hlen

theorem parsed_of_wellFormed {x : Form} (hx : WellFormed x) : x.parsed = .ok x.parse := by
  obtain ⟨items, rfl, hnamed⟩ :=
    hx.exists_items named_triple named_not fun c _ h _ => named_separated c h
  rw [parsed_eq, normalize_list, whenExpressible_eq_ok]
  exact ⟨hnamed false, rfl⟩

/-- One mark more around a list turns its truth round and every predicate in it. -/
def TurnsTruth (items : List Form) : Prop :=
  ∀ holds inverse, (Tree.node (normalItems (!inverse) items)).eval holds =
    !(Tree.node (normalItems inverse items)).eval (dual holds)

theorem turnsTruth_triple (p : Predicate) :
    TurnsTruth [value (.text p.field), token (.compare p.operator), value p.value] := by
  intro holds inverse
  simp only [normalItems_value, normalItems_compare, normalItems_nil]
  change holds ⟨p.field, p.operator.negateIf (!inverse), p.value.markNull.negateIf (!inverse)⟩ =
    !!holds ⟨p.field, (p.operator.negateIf inverse).negate,
      (p.value.markNull.negateIf inverse).negateIf true⟩
  rw [Bool.not_not, Comparison.negateIf_not, Value.negateIf_not]

theorem turnsTruth_not {items : List Form} (h : TurnsTruth items) :
    TurnsTruth [token .not, list items] := by
  intro holds inverse
  simp only [normalItems_not, normalItems_list, normalItems_nil, Tree.eval_node_singleton]
  exact h holds (!inverse)

theorem turnsTruth_separated (c : Connective) {ls : List (List Form)}
    (h : ∀ l ∈ ls, TurnsTruth l) (hne : ls ≠ []) : TurnsTruth (separated c (ls.map list)) := by
  intro holds inverse
  have hls {inverse : Bool} : ls.map (normalItems inverse) ≠ [] := by simpa using hne
  have hitems : (ls.map (normalItems (!inverse))).map (fun l => (Tree.node l).eval holds) =
      ((ls.map (normalItems inverse)).map fun l => (Tree.node l).eval (dual holds)).map
        (true ^^ ·) := by
    simp only [List.map_map]
    apply List.map_congr_left
    intro l hl
    simpa using h l hl holds inverse
  rw [normalItems_separated, normalItems_separated, Tree.eval_node_separated _ _ _ hls,
    Tree.eval_node_separated _ _ _ hls, hitems, Connective.negateIf_not]
  have hfold := Connective.fold_negateIf true (c.negateIf inverse)
    ((ls.map (normalItems inverse)).map fun l => (Tree.node l).eval (dual holds))
  rwa [Bool.true_xor] at hfold

theorem turnsTruth_of_wellFormed {x : Form} (hx : WellFormed x) :
    ∃ items, x = list items ∧ TurnsTruth items :=
  hx.exists_items turnsTruth_triple turnsTruth_not turnsTruth_separated

theorem eval_parse_nullCheck (f : String) (c : Comparison) (holds : Predicate → Bool) :
    (product [f] c [.sentinel .null]).parse.eval holds = holds ⟨f, c, .sentinel .null⟩ := by
  have hitems : product [f] c [.sentinel .null] = list [ofPredicate ⟨f, c, .sentinel .null⟩] := rfl
  rw [hitems, Tree.eval_parse_list, ofPredicate, triple, normalItems_list,
    normalItems_nil, Tree.eval_node_singleton]
  simp only [normalItems_value, normalItems_compare, normalItems_nil]
  rfl

/-- A negated form is true where the form is false of the opposite of everything. -/
theorem eval_parse_not {x : Form} (hx : WellFormed x) (holds : Predicate → Bool) :
    (parse (list [token .not, x])).eval holds = !x.parse.eval (dual holds) := by
  obtain ⟨items, rfl, hitems⟩ := turnsTruth_of_wellFormed hx
  rw [Tree.eval_parse_list, Tree.eval_parse_list]
  simp only [normalItems_not, normalItems_list, normalItems_nil, Tree.eval_node_singleton]
  exact hitems holds false

theorem eval_parse_not_of_ordinary {holds : Predicate → Bool} (ho : Ordinary holds) {x : Form}
    (hx : WellFormed x) :
    (parse (list [token .not, x])).eval holds =
      !x.parse.eval fun q => holds q.exchangeNulls := by
  rw [eval_parse_not hx, dual_of_ordinary ho]

/-- The operator and the null are both exchanged, and each exchange turns the answer round. -/
theorem eval_parse_not_nullCheck {holds : Predicate → Bool} (ho : Ordinary holds) {f : String}
    {c : Comparison}
    (hc : holds ⟨f, c, .sentinel .notNull⟩ = !holds ⟨f, c, .sentinel .null⟩) :
    (parse (list [token .not, product [f] c [.sentinel .null]])).eval holds =
      (product [f] c [.sentinel .null]).parse.eval holds := by
  rw [eval_parse_not_of_ordinary ho (wellFormed_product (by simp) c (by simp)),
    eval_parse_nullCheck, eval_parse_nullCheck]
  exact (congrArg (! ·) hc).trans (Bool.not_not _)

end Form

namespace Tree

mutual

theorem eval_congr {holds holds' : Predicate → Bool} : (t : Tree) →
    (∀ p ∈ t.leaves, holds p = holds' p) → t.eval holds = t.eval holds'
  | leaf p, h => by
    rw [eval, eval]
    exact h p (by simp [leaves])
  | junction c ts, h => by
    rw [eval_junction, eval_junction, map_eval_congr ts h]

theorem map_eval_congr {holds holds' : Predicate → Bool} : (ts : List Tree) →
    (∀ p ∈ leavesOf ts, holds p = holds' p) → ts.map (eval holds) = ts.map (eval holds')
  | [], _ => rfl
  | t :: ts, h => by
    rw [leavesOf, List.forall_mem_append] at h
    rw [List.map_cons, List.map_cons, eval_congr t h.1, map_eval_congr ts h.2]

end

end Tree

def Predicate.asksNull (p : Predicate) : Prop :=
  p.value = .sentinel .null ∨ p.value = .sentinel .notNull

theorem Predicate.exchangeNulls_of_not_asksNull {p : Predicate} (h : ¬ p.asksNull) :
    p.exchangeNulls = p := by
  obtain ⟨f, c, v⟩ := p
  have hv : v.negateIf true = v := by
    cases v with
    | sentinel s =>
      cases s with
      | now => rfl
      | null => exact absurd (.inl rfl) h
      | notNull => exact absurd (.inr rfl) h
    | _ => rfl
  rw [exchangeNulls, hv]

namespace Program

theorem wellFormed_of_run {p : Program} (hp : p.isBuilt) {x : Form}
    (hx : p.run.result = .ok (some x)) : Form.WellFormed x := by
  have h := rel_run (Form.keptByBuilders_wellFormed fun _ => true) p hp hx
  exact ifAny_iff_rel.2 ⟨_, h⟩ x rfl

theorem parsed_of_run {p : Program} (hp : p.isBuilt) {x : Form}
    (hx : p.run.result = .ok (some x)) : x.parsed = .ok x.parse :=
  Form.parsed_of_wellFormed (wellFormed_of_run hp hx)

/-- What a negated program asks where null is read in the ordinary way. It is the complement of
what the program would ask with `null` and `notNull` exchanged: the complement of the program
itself where it compares with neither. A negated null check asks the same as the check. -/
theorem negation_exchanges_nulls {holds : Predicate → Bool} (ho : Ordinary holds) :
    (∀ (p : Program) (x : Form), p.isBuilt → p.run.result = .ok (some x) → ∃ y,
      Form.negate (some x) = some y ∧ x.parsed = .ok x.parse ∧ y.parsed = .ok y.parse ∧
        (y.parse.eval holds = !x.parse.eval fun q => holds q.exchangeNulls) ∧
        ((∀ q ∈ x.parse.leaves, ¬ q.asksNull) → y.parse.eval holds = !x.parse.eval holds)) ∧
    ∀ (f : String) (c : Comparison) (values : List Value), c.isNullCheck → ∃ x y,
      Form.compare [f] c values = some x ∧ Form.negate (some x) = some y ∧
        y.parse.eval holds = x.parse.eval holds := by
  constructor
  · intro p x hp hx
    have hwell := wellFormed_of_run hp hx
    have hy : (negate p).run.result = .ok (some (.list [.token .not, x])) := by
      rw [run]
      exact Run.result_bind_eq_ok.2 ⟨some x, hx, rfl⟩
    refine ⟨_, rfl, parsed_of_run hp hx, parsed_of_run (p := negate p) hp hy,
      Form.eval_parse_not_of_ordinary ho hwell, ?_⟩
    intro hnull
    rw [Form.eval_parse_not_of_ordinary ho hwell]
    congr 1
    apply Tree.eval_congr
    intro q hq
    rw [Predicate.exchangeNulls_of_not_asksNull (hnull q hq)]
  · intro f c values hc
    cases c with
    | blank => exact ⟨_, _, rfl, rfl, Form.eval_parse_not_nullCheck ho (ho.exchanged f).1⟩
    | notBlank => exact ⟨_, _, rfl, rfl, Form.eval_parse_not_nullCheck ho (ho.exchanged f).2⟩
    | _ => cases hc

def allNull (q : Predicate) : Bool := q.operator.isPositive ^^ q.value == .sentinel .notNull

theorem ordinary_allNull : Ordinary allNull where
  operators f c v := by cases c <;> simp [allNull, Comparison.negate, Comparison.isPositive]
  nulls f := rfl

/-- Not at least two, or `b` is null or a word. -/
def nullOrBelow : Program :=
  join .or [negate (compare ["a"] .atLeast [.int 2]),
    compare ["b"] .equal [.sentinel .null, .text "x"]]

theorem negation_exchanges_nulls_nullOrBelow :
    Ordinary allNull ∧ nullOrBelow.isBuilt ∧ Comparison.blank.isNullCheck ∧
      (∃ x y, nullOrBelow.run.result = .ok (some x) ∧ Form.negate (some x) = some y ∧
        y.parse.eval allNull = !x.parse.eval fun q => allNull q.exchangeNulls) ∧
      ∃ x y, Form.compare ["f"] .blank [] = some x ∧ Form.negate (some x) = some y ∧
        y.parse.eval allNull = x.parse.eval allNull := by
  obtain ⟨hprogram, hcheck⟩ := negation_exchanges_nulls ordinary_allNull
  obtain ⟨y, hy, -, -, htruth, -⟩ := hprogram nullOrBelow _ rfl rfl
  exact ⟨ordinary_allNull, rfl, rfl, ⟨_, y, rfl, hy, htruth⟩, hcheck "f" .blank [] rfl⟩

/-- Where every field is null, a null check and its negation are both true. -/
theorem not_complement_of_nullCheck :
    ¬ ∀ (holds : Predicate → Bool), Ordinary holds → ∀ (p : Program) (x y : Form), p.isBuilt →
      p.run.result = .ok (some x) → Form.negate (some x) = some y →
        y.parse.eval holds = !x.parse.eval holds := by
  intro h
  have hcomplement := h allNull ordinary_allNull (compare ["f"] .blank []) _ _ rfl rfl rfl
  have hsame := Form.eval_parse_not_nullCheck ordinary_allNull (ordinary_allNull.nulls "f")
  exact absurd (hcomplement.symm.trans hsame) (by simp)

end Program
end FilterAlgebra

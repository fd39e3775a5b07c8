import FilterAlgebra.Proofs.Alternation
import FilterAlgebra.Proofs.TreeText

namespace FilterAlgebra

namespace RawNode

/-- The nodes that are looked at right below a node. -/
def reached : RawNode → List RawNode
  | mk kind _ _ inner => if (Connective.ofSpelling? kind).isSome then inner else []

def at? (n : RawNode) : (path : List ℕ) → Option RawNode
  | [] => some n
  | i :: path => n.reached[i]?.bind (at? · path)

/-- A node of a known kind that has what its kind needs. -/
inductive Sound : RawNode → Prop where
  | junction {kind field value inner} {c : Connective} (hc : c.spelling = kind) :
    Sound (mk kind field value inner)
  | leaf {kind f value inner} {o : Comparison} (ho : o.spelling = kind) :
    Sound (mk kind (some f) value inner)

/-- What is wrong with a node by itself. -/
inductive Offends : RawNode → Json.Mismatch → Prop where
  | unknownKind {kind field value inner} (hc : ∀ c : Connective, c.spelling ≠ kind)
    (ho : ∀ o : Comparison, o.spelling ≠ kind) :
    Offends (mk kind field value inner) (.unknownKind kind)
  | missingOperand {kind value inner} {o : Comparison} (ho : o.spelling = kind) :
    Offends (mk kind none value inner) (.missingOperand kind)

/-- What a node becomes in the tree, the nodes below it apart. -/
inductive Becomes : RawNode → Tree → Prop where
  | junction {kind field value inner ts} {c : Connective} (hc : c.spelling = kind)
    (hlen : inner.length = ts.length) : Becomes (mk kind field value inner) (.junction c ts)
  | leaf {kind f value inner} {o : Comparison} (ho : o.spelling = kind) :
    Becomes (mk kind (some f) value inner) (.leaf ⟨f, o, value.getD .null⟩)

/-- The path leads to a bad node, and no path before it does. Paths stand in reading order: a node
before the nodes below it, and these from left to right. -/
def FirstOffence (n : RawNode) (path : List ℕ) (e : Json.Mismatch) : Prop :=
  (∃ m, n.at? path = some m ∧ Offends m e) ∧
    ∀ path' m' e', n.at? path' = some m' → Offends m' e' →
      path = path' ∨ List.Lex (· < ·) path path'

mutual

/-- The node without what its kind has no use for. -/
def relevant : RawNode → RawNode
  | mk kind field value inner =>
    if (Connective.ofSpelling? kind).isSome then mk kind none none (relevantAll inner)
    else mk kind field value []

def relevantAll : List RawNode → List RawNode
  | [] => []
  | n :: ns => relevant n :: relevantAll ns

end

theorem kind_cases (kind : String) : (∃ c : Connective, c.spelling = kind) ∨
    (∃ o : Comparison, o.spelling = kind) ∨
      (∀ c : Connective, c.spelling ≠ kind) ∧ ∀ o : Comparison, o.spelling ≠ kind := by
  by_cases hc : ∃ c : Connective, c.spelling = kind
  · exact .inl hc
  · by_cases ho : ∃ o : Comparison, o.spelling = kind
    · exact .inr (.inl ho)
    · exact .inr (.inr ⟨not_exists.1 hc, not_exists.1 ho⟩)

section Kinds

variable (field : Option String) (value : Option Value) (inner : List RawNode)

theorem toTree_junction (c : Connective) :
    (mk c.spelling field value inner).toTree = (toTrees inner).map (.junction c) := by
  rw [toTree, Connective.ofSpelling?_spelling]
  dsimp only
  cases toTrees inner <;> rfl

theorem toTree_leaf (o : Comparison) (f : String) :
    (mk o.spelling (some f) value inner).toTree = .ok (.leaf ⟨f, o, value.getD .null⟩) := by
  rw [toTree, connective_of_comparison, Comparison.ofSpelling?_spelling]

theorem toTree_of_offends {n : RawNode} {e : Json.Mismatch} (h : Offends n e) :
    n.toTree = .error e := by
  cases h with
  | unknownKind hc ho =>
    rw [toTree, Connective.ofSpelling?_eq_none hc, Comparison.ofSpelling?_eq_none ho]
  | missingOperand ho =>
    subst ho
    rw [toTree, connective_of_comparison, Comparison.ofSpelling?_spelling]

theorem reached_junction (c : Connective) : (mk c.spelling field value inner).reached = inner := by
  simp [reached, Connective.ofSpelling?_spelling]

theorem reached_comparison (o : Comparison) : (mk o.spelling field value inner).reached = [] := by
  simp [reached, connective_of_comparison]

theorem reached_of_offends {n : RawNode} {e : Json.Mismatch} (h : Offends n e) :
    n.reached = [] := by
  cases h with
  | unknownKind hc ho => simp [reached, Connective.ofSpelling?_eq_none hc]
  | missingOperand ho => rw [← ho, reached_comparison]

end Kinds

theorem sound_of_becomes {n : RawNode} {t : Tree} (h : Becomes n t) : Sound n := by
  cases h with
  | junction hc => exact .junction hc
  | leaf ho => exact .leaf ho

theorem not_offends_junction {c : Connective} {field : Option String} {value : Option Value}
    {inner : List RawNode} {e : Json.Mismatch} : ¬ Offends (mk c.spelling field value inner) e := by
  intro h
  have hnone : Connective.ofSpelling? c.spelling = none := by
    cases h with
    | unknownKind hc => exact Connective.ofSpelling?_eq_none hc
    | missingOperand ho => rw [← ho, connective_of_comparison]
  rw [Connective.ofSpelling?_spelling] at hnone
  cases hnone

theorem sound_iff {n : RawNode} : Sound n ↔ ∀ e, ¬ Offends n e := by
  obtain ⟨kind, field, value, inner⟩ := n
  constructor
  · intro hs e he
    cases hs with
    | junction hc =>
      subst hc
      exact not_offends_junction he
    | leaf ho =>
      cases he with
      | unknownKind _ ho' => exact ho' _ ho
  · intro h
    rcases kind_cases kind with ⟨c, hc⟩ | ⟨o, ho⟩ | ⟨hc, ho⟩
    · exact .junction hc
    · cases field with
      | none => exact absurd (.missingOperand ho) (h _)
      | some f => exact .leaf ho
    · exact absurd (.unknownKind hc ho) (h _)

/-- Inner nodes become trees one after the other, up to the first one that does not. -/
theorem toTrees_cases (ns : List RawNode) :
    (∃ ts, toTrees ns = .ok ts ∧ List.Forall₂ (fun n t => n.toTree = .ok t) ns ts) ∨
      ∃ (i : ℕ) (n : RawNode) (e : Json.Mismatch), toTrees ns = .error e ∧ ns[i]? = some n ∧
        n.toTree = .error e ∧
        ∀ (j : ℕ) (m : RawNode), j < i → ns[j]? = some m → ∃ t, m.toTree = .ok t := by
  induction ns with
  | nil => exact .inl ⟨[], rfl, .nil⟩
  | cons n ns ih =>
    rw [toTrees]
    cases hn : n.toTree with
    | error e => exact .inr ⟨0, n, e, rfl, rfl, hn, by simp⟩
    | ok t =>
      rcases ih with ⟨ts, hts, h⟩ | ⟨i, m, e, hts, hm, he, hbefore⟩
      · rw [hts]
        exact .inl ⟨t :: ts, rfl, .cons hn h⟩
      · rw [hts]
        refine .inr ⟨i + 1, m, e, rfl, by simpa using hm, he, ?_⟩
        intro j m' hj hm'
        -- Before the first bad node stands the new one, which is good, and the good ones.
        cases j with
        | zero =>
          obtain rfl : n = m' := by simpa using hm'
          exact ⟨t, hn⟩
        | succ j => exact hbefore j m' (by omega) (by simpa using hm')

theorem getElem?_forall₂ {α β : Type} {R : α → β → Prop} {xs : List α} {ys : List β}
    (h : List.Forall₂ R xs ys) (i : ℕ) : Option.Rel R xs[i]? ys[i]? := by
  induction h generalizing i with
  | nil => exact .none
  | cons hxy _ ih =>
    cases i with
    | zero => exact .some hxy
    | succ i => simpa using ih i

/-- What comes of a node: a tree with one node for each that is reached, or what is wrong with the
first bad one. -/
def Outcome (n : RawNode) : Except Json.Mismatch Tree → Prop
  | .ok t => ∀ path, Option.Rel Becomes (n.at? path) (t.at? path)
  | .error e => ∃ path, n.FirstOffence path e

theorem Outcome.sound {n m : RawNode} {t : Tree} (h : n.Outcome (.ok t)) {path : List ℕ}
    (hm : n.at? path = some m) : Sound m := by
  have hpath : Option.Rel Becomes (n.at? path) (t.at? path) := h path
  rw [hm] at hpath
  cases hu : t.at? path with
  | none =>
    rw [hu] at hpath
    cases hpath
  | some u =>
    rw [hu] at hpath
    exact sound_of_becomes (Option.rel_some_some.1 hpath)

theorem outcome_junction {kind : String} {c : Connective} (hc : c.spelling = kind)
    (field : Option String) (value : Option Value) {inner : List RawNode}
    (h : ∀ n ∈ inner, Outcome n n.toTree) :
    Outcome (mk kind field value inner) (mk kind field value inner).toTree := by
  subst hc
  rw [toTree_junction]
  rcases toTrees_cases inner with ⟨ts, hts, hall⟩ | ⟨i, n, e, hts, hn, he, hbefore⟩
  · rw [hts]
    intro path
    cases path with
    | nil => exact .some (.junction rfl hall.length_eq)
    | cons i path =>
      have hi := getElem?_forall₂ hall i
      rw [at?, reached_junction, Tree.at?, Tree.children]
      generalize hx : inner[i]? = x at hi
      generalize ts[i]? = y at hi
      cases hi with
      | none => exact .none
      | @some n t hn =>
        have hout := h n (List.mem_of_getElem? hx)
        rw [hn] at hout
        exact hout path
  · rw [hts]
    have hout := h n (List.mem_of_getElem? hn)
    rw [he] at hout
    obtain ⟨path, ⟨m, hm, hoff⟩, hfirst⟩ := hout
    refine ⟨i :: path, ⟨m, ?_, hoff⟩, ?_⟩
    · rw [at?, reached_junction, hn]
      exact hm
    · intro path' m' e' hm' hoff'
      cases path' with
      | nil =>
        -- The connective itself is never bad.
        obtain rfl := Option.some.inj hm'
        exact absurd hoff' not_offends_junction
      | cons j path' =>
        rw [at?, reached_junction] at hm'
        obtain ⟨n', hn', hm'⟩ := Option.bind_eq_some_iff.1 hm'
        rcases Nat.lt_trichotomy i j with hij | rfl | hij
        · exact .inr (.rel hij)
        · obtain rfl : n = n' := Option.some.inj (hn.symm.trans hn')
          exact (hfirst path' m' e' hm' hoff').imp (congrArg (i :: ·)) .cons
        · -- A node before the first one that fails has become a tree, so nothing below it is bad.
          obtain ⟨t, ht⟩ := hbefore j n' hij hn'
          have hout' := h n' (List.mem_of_getElem? hn')
          rw [ht] at hout'
          exact absurd hoff' (sound_iff.1 (hout'.sound hm') e')

theorem outcome_offends {n : RawNode} {e : Json.Mismatch} (h : Offends n e) :
    Outcome n n.toTree := by
  rw [toTree_of_offends h]
  refine ⟨[], ⟨n, rfl, h⟩, ?_⟩
  intro path m e' hm _
  cases path with
  | nil => exact .inl rfl
  | cons i path =>
    rw [at?, reached_of_offends h] at hm
    simp at hm

theorem outcome_leaf {kind : String} {o : Comparison} (ho : o.spelling = kind) (f : String)
    (value : Option Value) (inner : List RawNode) :
    Outcome (mk kind (some f) value inner) (mk kind (some f) value inner).toTree := by
  subst ho
  rw [toTree_leaf]
  intro path
  cases path with
  | nil => exact .some (.leaf rfl)
  | cons i path =>
    rw [at?, reached_comparison, Tree.at?, Tree.children]
    simp [Option.rel_none_none]

mutual

/-- By induction on the node, one case for each kind. -/
theorem outcome_toTree : (n : RawNode) → Outcome n n.toTree
  | mk kind field value inner => by
    rcases kind_cases kind with ⟨c, hc⟩ | ⟨o, ho⟩ | ⟨hc, ho⟩
    · exact outcome_junction hc field value (outcome_all inner)
    · cases field with
      | none => exact outcome_offends (.missingOperand ho)
      | some f => exact outcome_leaf ho f value inner
    · exact outcome_offends (.unknownKind hc ho)

theorem outcome_all : (ns : List RawNode) → ∀ n ∈ ns, Outcome n n.toTree
  | [] => List.forall_mem_nil _
  | n :: ns => List.forall_mem_cons.2 ⟨outcome_toTree n, outcome_all ns⟩

end

theorem offends_unique {n : RawNode} {e e' : Json.Mismatch} (h : Offends n e) (h' : Offends n e') :
    e = e' :=
  Except.error.inj ((toTree_of_offends h).symm.trans (toTree_of_offends h'))

theorem firstOffence_unique {n : RawNode} {path path' : List ℕ} {e e' : Json.Mismatch}
    (h : n.FirstOffence path e) (h' : n.FirstOffence path' e') : e = e' := by
  obtain ⟨⟨m, hm, hoff⟩, hfirst⟩ := h
  obtain ⟨⟨m', hm', hoff'⟩, hfirst'⟩ := h'
  have hpath : path = path' := by
    rcases hfirst path' m' e' hm' hoff' with heq | hlt
    · exact heq
    · rcases hfirst' path m e hm hoff with heq | hlt'
      · exact heq.symm
      · exact absurd hlt' (List.lt_asymm hlt)
  subst hpath
  obtain rfl : m = m' := Option.some.inj (hm.symm.trans hm')
  exact offends_unique hoff hoff'

mutual

theorem toTree_relevant : (n : RawNode) → n.relevant.toTree = n.toTree
  | mk kind field value inner => by
    rw [relevant]
    rcases kind_cases kind with ⟨c, rfl⟩ | ⟨o, rfl⟩ | ⟨hc, ho⟩
    · rw [Connective.ofSpelling?_spelling, Option.isSome_some, if_pos rfl, toTree_junction,
        toTree_junction, toTrees_relevantAll inner]
    · rw [connective_of_comparison, Option.isSome_none, if_neg (by simp)]
      cases field with
      | none =>
        rw [toTree_of_offends (.missingOperand rfl), toTree_of_offends (.missingOperand rfl)]
      | some f => rw [toTree_leaf, toTree_leaf]
    · rw [Connective.ofSpelling?_eq_none hc, Option.isSome_none, if_neg (by simp),
        toTree_of_offends (.unknownKind hc ho), toTree_of_offends (.unknownKind hc ho)]

theorem toTrees_relevantAll : (ns : List RawNode) → toTrees (relevantAll ns) = toTrees ns
  | [] => rfl
  | n :: ns => by rw [relevantAll, toTrees, toTrees, toTree_relevant n, toTrees_relevantAll ns]

end

theorem outcome_of_toTree {n : RawNode} {r : Except Json.Mismatch Tree} (h : n.toTree = r) :
    n.Outcome r := h ▸ n.outcome_toTree

theorem exists_toTree_iff {n : RawNode} :
    (∃ t, n.toTree = .ok t) ↔ ∀ path m, n.at? path = some m → Sound m := by
  constructor
  · rintro ⟨t, ht⟩ path m hm
    exact (outcome_of_toTree ht).sound hm
  · intro h
    cases hn : n.toTree with
    | ok t => exact ⟨t, rfl⟩
    | error e =>
      obtain ⟨path, ⟨m, hm, hoff⟩, -⟩ := outcome_of_toTree hn
      exact absurd hoff (sound_iff.1 (h path m hm) e)

theorem toTree_eq_error_iff {n : RawNode} {e : Json.Mismatch} :
    n.toTree = .error e ↔ ∃ path, n.FirstOffence path e := by
  constructor
  · exact outcome_of_toTree
  · rintro ⟨path, hfirst⟩
    cases hn : n.toTree with
    | ok t =>
      obtain ⟨m, hm, hoff⟩ := hfirst.1
      have hsound := (outcome_of_toTree hn).sound hm
      exact absurd hoff (sound_iff.1 hsound e)
    | error e' =>
      obtain ⟨path', hfirst'⟩ := outcome_of_toTree hn
      rw [firstOffence_unique hfirst hfirst']

/-- A tree is made of a node exactly if every node on the way down is sound, and has one node for
each of them in the same place. Otherwise the first bad node on the way is reported. What stands
off the way, and what a node on it has no use for, never matters. -/
theorem tree_of_nodes (n : RawNode) :
    ((∃ t, n.toTree = .ok t) ↔ ∀ path m, n.at? path = some m → Sound m) ∧
      (∀ t, n.toTree = .ok t → ∀ path, Option.Rel Becomes (n.at? path) (t.at? path)) ∧
      (∀ e, n.toTree = .error e ↔ ∃ path, n.FirstOffence path e) ∧
      ∀ n' : RawNode, n'.relevant = n.relevant → n'.toTree = n.toTree := by
  refine ⟨exists_toTree_iff, fun t => outcome_of_toTree, fun e => toTree_eq_error_iff, ?_⟩
  intro n' h
  rw [← toTree_relevant n', h, toTree_relevant n]

/-- A bad node below a comparison is not seen, and of two others the first is reported. -/
example : (mk "and" none none [mk "<" (some "a") none [mk "xor" none none []],
    mk "or" (some "b") (some (.int 1)) [mk "=" none (some (.text "x")) []],
    mk "xor" none none []]).toTree = .error (.missingOperand "=") := by rfl

end RawNode
end FilterAlgebra

import FilterAlgebra.Proofs.Complement
import FilterAlgebra.Proofs.Logging
import FilterAlgebra.Proofs.Parity

namespace FilterAlgebra

namespace Form

mutual

def comparisons : Form → List (Value × Comparison × Value)
  | list items =>
    match tripleOf? items with
    | some t => [t]
    | none => comparisonsOf items
  | _ => []

def comparisonsOf : List Form → List (Value × Comparison × Value)
  | [] => []
  | x :: xs => comparisons x ++ comparisonsOf xs

end

/-- A list that is a triple once its marks are erased, but not as it stands. -/
def hidesTriple (items : List Form) : Bool :=
  items.any isMark && (tripleOf? (items.filter (!isMark ·))).isSome

mutual

def hiddenTriples : Form → ℕ
  | list items => (if hidesTriple items then 1 else 0) + hiddenTriplesIn items
  | _ => 0

def hiddenTriplesIn : List Form → ℕ
  | [] => 0
  | x :: xs => hiddenTriples x + hiddenTriplesIn xs

end

/-- What builders make of what builders have made, whatever the fields and values. -/
inductive BuilderMade : Form → Prop where
  | compare {fields : List String} {c : Comparison} {values : List Value} {x : Form}
    (h : Form.compare fields c values = some x) : BuilderMade x
  | negate {x y : Form} (hx : BuilderMade x) (h : Form.negate (some x) = some y) : BuilderMade y
  | join {c : Connective} {xs : List (Option Form)} {y : Form}
    (hxs : ∀ x, some x ∈ xs → BuilderMade x) (h : Form.join c xs = some y) : BuilderMade y
  | combine {c : Connective} {f : Filter} {incoming : Option Form} {y : Form}
    (hf : ∀ x, f.form = some x → BuilderMade x) (hx : ∀ x, incoming = some x → BuilderMade x)
    (h : (f.combine c incoming).form = some y) : BuilderMade y

end Form

namespace Outline

mutual

theorem predicateCount_ofItem : (x : Form) → (ofItem x).predicateCount = x.tripleCount
  | .value v => by simp [ofItem, predicateCount, Form.tripleCount]
  | .token t => by simp [ofItem, predicateCount, Form.tripleCount]
  | .list items => by
    rw [ofItem, Form.tripleCount]
    cases Form.tripleOf? items with
    | some t => simp [predicateCount]
    | none => simp [predicateCount, predicateCounts_ofItems items]

theorem predicateCounts_ofItems :
    (items : List Form) → predicateCounts (ofItems items) = Form.tripleCounts items
  | [] => by simp [ofItems, predicateCounts, Form.tripleCounts]
  | x :: xs => by
    rw [ofItems, predicateCounts, Form.tripleCounts, predicateCount_ofItem x,
      predicateCounts_ofItems xs]

end

theorem predicateCount_ofForm (x : Form) : (ofForm x).predicateCount = x.tripleCount := by
  cases x with
  | value v => exact predicateCount_ofItem _
  | token t => exact predicateCount_ofItem _
  | list items =>
    rw [ofForm, Form.triple?]
    cases h : Form.tripleOf? items with
    | some t => simp [predicateCount, predicateCounts, Form.tripleCount, h]
    | none => exact predicateCount_ofItem _

end Outline

namespace Tree

theorem leafCounts_ofItems :
    (items : List Outline) → leafCounts (ofItems items) = Outline.predicateCounts items
  | [] => by simp [ofItems, leafCounts, Outline.predicateCounts]
  | .level items :: xs => by
    rw [ofItems, leafCounts, leafCount, leafCounts_ofItems items, leafCounts_ofItems xs,
      Outline.predicateCounts, Outline.predicateCount]
  | .predicate p :: xs => by
    rw [ofItems, leafCounts, leafCount, leafCounts_ofItems xs, Outline.predicateCounts,
      Outline.predicateCount]
  | .token t :: xs => by
    simp [ofItems, leafCounts_ofItems xs, Outline.predicateCounts, Outline.predicateCount]
  | .value v :: xs => by
    simp [ofItems, leafCounts_ofItems xs, Outline.predicateCounts, Outline.predicateCount]

theorem leafCount_ofOutline (x : Outline) : (ofOutline x).leafCount = x.predicateCount := by
  cases x with
  | level items => rw [ofOutline, leafCount, leafCounts_ofItems, Outline.predicateCount]
  | predicate p => simp [ofOutline, leafCount, leafCounts, Outline.predicateCount]
  | token t => simp [ofOutline, leafCount, leafCounts, Outline.predicateCount]
  | value v => simp [ofOutline, leafCount, leafCounts, Outline.predicateCount]

theorem leaves_node {items : List Form}
    (hnodes : leavesOf (nodes items) = (Form.comparisonsOf items).map Outline.ofTriple) :
    (node items).leaves = (Form.comparisons (.list items)).map Outline.ofTriple := by
  rw [node, Form.comparisons]
  cases Form.tripleOf? items with
  | some t => simp [leaves]
  | none =>
    dsimp only
    rw [leaves, hnodes]

theorem leavesOf_nodes : (items : List Form) →
    leavesOf (nodes items) = (Form.comparisonsOf items).map Outline.ofTriple
  | [] => by simp [leavesOf, Form.comparisonsOf]
  | .value v :: xs => by simp [leavesOf_nodes xs, Form.comparisonsOf, Form.comparisons]
  | .token t :: xs => by simp [leavesOf_nodes xs, Form.comparisonsOf, Form.comparisons]
  | .list ys :: xs => by
    rw [nodes_list, leavesOf, leaves_node (leavesOf_nodes ys), leavesOf_nodes xs,
      Form.comparisonsOf, List.map_append]

theorem leaves_parse (x : Form) :
    x.parse.leaves = x.normalize.comparisons.map fun t => ⟨t.1.fieldName, t.2.1, t.2.2⟩ := by
  cases x with
  | value v =>
    simp [leaves, leavesOf, Form.normalize, Form.markNulls, Form.pushDown, Form.comparisons]
  | token t =>
    cases t <;> simp [leaves, leavesOf, Form.normalize, Form.markNulls, Form.pushDown,
      Form.comparisons, Form.tripleOf?, Form.comparisonsOf]
  | list items =>
    rw [leaves_parse_list, leaves_node (leavesOf_nodes _), Form.normalize_list]
    rfl

end Tree

namespace Form

/-- What kind of item a form is, without what it says. -/
def bare : Form → Form
  | value _ => value .null
  | token (.compare _) => token (.compare .equal)
  | token (.join _) => token (.join .and)
  | token .not => token .not
  | list _ => list []

theorem isSome_tripleOf?_map_bare (items : List Form) :
    (tripleOf? (items.map bare)).isSome = (tripleOf? items).isSome := by
  rcases items with _ | ⟨_ | (_ | _ | _) | _,
    _ | ⟨_ | (_ | _ | _) | _, _ | ⟨_ | (_ | _ | _) | _, _ | _⟩⟩⟩ <;> rfl

theorem bare_token_negateIf {t : Token} (ht : t ≠ .not) (inverse : Bool) :
    (token (t.negateIf inverse)).bare = (token t).bare := by
  cases t with
  | not => exact absurd rfl ht
  | compare c => rfl
  | join c => rfl

theorem map_bare_normalItems (inverse : Bool) (items : List Form) :
    (normalItems inverse items).map bare = (items.filter (!isMark ·)).map bare := by
  induction inverse, items using level_induct with
  | nil inverse => simp
  | mark inverse xs ih => rw [normalItems_not, ih]; rfl
  | token inverse t xs ht ih =>
    have hkept : (token t).isMark = false := by simpa [isMark] using ht
    rw [normalItems_token inverse ht, List.map_cons, ih, bare_token_negateIf ht,
      List.filter_cons_of_pos (by simp [hkept]), List.map_cons]
  | value inverse v xs ih => rw [normalItems_value, List.map_cons, ih]; rfl
  | list inverse ys xs ihys ihxs => rw [normalItems_list, List.map_cons, ihxs]; rfl

theorem isSome_tripleOf?_normalItems (inverse : Bool) (items : List Form) :
    (tripleOf? (normalItems inverse items)).isSome =
      (tripleOf? (items.filter (!isMark ·))).isSome := by
  rw [← isSome_tripleOf?_map_bare, map_bare_normalItems, isSome_tripleOf?_map_bare]

/-- A triple is a list without marks that is one once its marks are erased. -/
theorem isSome_tripleOf?_eq (items : List Form) :
    (tripleOf? items).isSome =
      (!items.any isMark && (tripleOf? (items.filter (!isMark ·))).isSome) := by
  cases hmarks : items.any isMark with
  | false =>
    have hkept : items.filter (!isMark ·) = items := by
      rw [List.filter_eq_self]
      simpa using hmarks
    simp [hkept]
  | true =>
    cases htriple : tripleOf? items with
    | none => rfl
    | some t =>
      obtain ⟨o, c, v⟩ := t
      rw [eq_of_tripleOf? htriple] at hmarks
      cases hmarks

theorem tripleCounts_of_triple {items : List Form} (h : (tripleOf? items).isSome) :
    tripleCounts items = 0 := by
  obtain ⟨⟨o, c, v⟩, h⟩ := Option.isSome_iff_exists.1 h
  rw [eq_of_tripleOf? h]
  rfl

/-- The normal form of a list is a triple if the list is one or hides one. -/
theorem tripleCount_normal_list {inverse : Bool} {items : List Form}
    (h : tripleCounts (normalItems inverse items) = tripleCounts items + hiddenTriplesIn items) :
    tripleCount (list (normalItems inverse items)) =
      tripleCount (list items) + hiddenTriples (list items) := by
  rw [tripleCount, tripleCount, hiddenTriples, hidesTriple, isSome_tripleOf?_eq items,
    isSome_tripleOf?_normalItems]
  cases htriple : (tripleOf? (items.filter (!isMark ·))).isSome with
  | false => simp [h]
  | true =>
    -- There is nothing to count inside a triple, so there was nothing inside the list either.
    have hnone := tripleCounts_of_triple
      ((isSome_tripleOf?_normalItems inverse items).trans htriple)
    rw [h] at hnone
    cases items.any isMark <;> simp <;> omega

/-- Every triple stays a triple, and a hidden one becomes one. -/
theorem tripleCounts_normalItems (inverse : Bool) (items : List Form) :
    tripleCounts (normalItems inverse items) = tripleCounts items + hiddenTriplesIn items := by
  induction inverse, items using level_induct with
  | nil inverse => simp [tripleCounts, hiddenTriplesIn]
  | mark inverse xs ih => simp [tripleCounts, tripleCount, hiddenTriplesIn, hiddenTriples, ih]
  | token inverse t xs ht ih =>
    simp [normalItems_token inverse ht, tripleCounts, tripleCount, hiddenTriplesIn, hiddenTriples,
      ih]
  | value inverse v xs ih =>
    simp [tripleCounts, tripleCount, hiddenTriplesIn, hiddenTriples, ih]
  | list inverse ys xs ihys ihxs =>
    rw [normalItems_list, tripleCounts, tripleCounts, hiddenTriplesIn, ihxs,
      tripleCount_normal_list ihys]
    omega

theorem tripleCount_normalize (x : Form) :
    x.normalize.tripleCount = x.tripleCount + x.hiddenTriples := by
  cases x with
  | value v => simp [normalize, markNulls, pushDown, tripleCount, hiddenTriples]
  | token t =>
    cases t <;> simp [normalize, markNulls, pushDown, tripleCount, tripleCounts, tripleOf?,
      hiddenTriples]
  | list items =>
    rw [normalize_list]
    exact tripleCount_normal_list (tripleCounts_normalItems false items)

theorem leafCount_parse (x : Form) : x.parse.leafCount = x.tripleCount + x.hiddenTriples := by
  rw [parse, Tree.leafCount_ofOutline, Outline.predicateCount_ofForm, tripleCount_normalize]

theorem hiddenTriples_token (t : Token) : hiddenTriples (token t) = 0 := by simp [hiddenTriples]

def HidesNothing (x : Form) : Prop := ∃ items, x = list items ∧ hiddenTriples (list items) = 0

theorem isMark_separated (c : Connective) (ls : List (List Form)) :
    (separated c (ls.map list)).any isMark = false := by
  induction ls with
  | nil => rfl
  | cons l ls ih =>
    cases ls with
    | nil => rfl
    | cons l' ls => exact ih

theorem hiddenTriplesIn_separated (c : Connective) {ls : List (List Form)}
    (h : ∀ l ∈ ls, hiddenTriples (list l) = 0) :
    hiddenTriplesIn (separated c (ls.map list)) = 0 := by
  induction ls with
  | nil => rfl
  | cons l ls ih =>
    obtain ⟨hl, hls⟩ := List.forall_mem_cons.1 h
    cases ls with
    | nil => simp [separated, hiddenTriplesIn, hl]
    | cons l' ls =>
      have hrest := ih hls
      simp only [List.map_cons, separated_cons_cons] at hrest ⊢
      rw [hiddenTriplesIn, hl, hiddenTriplesIn, hrest, hiddenTriples_token]

theorem hidesNothing_separated (c : Connective) {xs : List Form} (h : ∀ x ∈ xs, HidesNothing x) :
    HidesNothing (list (separated c xs)) := by
  obtain ⟨ls, rfl, hls⟩ := exists_eq_map_list h
  refine ⟨_, rfl, ?_⟩
  rw [hiddenTriples, hidesTriple, isMark_separated, hiddenTriplesIn_separated c hls]
  rfl

theorem hidesNothing_product (fields : List String) (c : Comparison) (values : List Value) :
    HidesNothing (product fields c values) := by
  apply hidesNothing_separated
  simp only [triples, List.forall_mem_flatMap, List.forall_mem_map]
  intro f _ v _
  exact ⟨_, rfl, by simp [hiddenTriples, hiddenTriplesIn, hidesTriple, isMark]⟩

theorem hidesNothing_join {c : Connective} {xs : List (Option Form)} {y : Form}
    (hxs : ∀ x, some x ∈ xs → HidesNothing x) (h : join c xs = some y) : HidesNothing y := by
  have hpresent : ∀ x ∈ xs.filterMap id, HidesNothing x := by simpa using hxs
  rw [join] at h
  split at h
  · cases h
  · next x hone =>
    cases h
    exact hpresent _ (by rw [hone]; exact List.mem_singleton_self _)
  · cases h
    exact hidesNothing_separated c hpresent

theorem eq_product_of_compare {fields : List String} {c : Comparison} {values : List Value}
    {x : Form} (h : Form.compare fields c values = some x) : ∃ d vs, x = product fields d vs := by
  unfold Form.compare at h
  split at h
  · cases h
    exact ⟨_, _, rfl⟩
  · cases h
    exact ⟨_, _, rfl⟩
  · split at h
    · cases h
    · cases h
      exact ⟨_, _, rfl⟩

/-- Builders set a mark before a list only, and a triple begins with a value. -/
theorem hidesNothing_of_builderMade {x : Form} (hx : BuilderMade x) : HidesNothing x := by
  induction hx with
  | compare h =>
    obtain ⟨d, vs, rfl⟩ := eq_product_of_compare h
    exact hidesNothing_product _ d vs
  | negate _ h ih =>
    obtain ⟨items, rfl, hitems⟩ := ih
    cases h
    have hvisible : hidesTriple [token .not, list items] = false := rfl
    refine ⟨_, rfl, ?_⟩
    rw [hiddenTriples, hvisible, hiddenTriplesIn, hiddenTriples_token, hiddenTriplesIn, hitems]
    rfl
  | join _ h ih => exact hidesNothing_join ih h
  | @combine c f incoming y _ _ h ihf ihx =>
    rw [Filter.form_combine] at h
    refine hidesNothing_join ?_ h
    intro x hx
    rcases List.mem_pair.1 hx with hx | hx
    · exact ihx x hx.symm
    · exact ihf x hx.symm

theorem hiddenTriples_of_builderMade {x : Form} (hx : BuilderMade x) : x.hiddenTriples = 0 := by
  obtain ⟨items, rfl, h⟩ := hidesNothing_of_builderMade hx
  exact h

end Form

namespace Config

variable {c : Config}

/-- What the passage logs between its first event and its last one. -/
def stages (c : Config) (x : Form) : List Event :=
  if c.traceStages then
    [.normalized x.normalize.text, .outlined (Outline.ofForm x.normalize).predicateCount,
      .assembled x.parse.text]
  else []

/-- A passage that ends well counts the triples first and the leaves last. -/
theorem log_parse {x : Form} {t : Tree} (h : (c.parse x).result = .ok t) :
    t = x.parse ∧ (c.parse x).log =
      .parsing x.depth x.tripleCount :: (c.stages x ++ [.parsed t.leafCount t.depth]) := by
  obtain ⟨hdepth, hparsed, hlogged⟩ := parsed_of_result_parse h
  rw [Form.parsed_eq, whenExpressible_eq_ok] at hparsed
  obtain ⟨hnamed, rfl⟩ := hparsed
  refine ⟨rfl, ?_⟩
  have hmeasure : c.measure x = pure x.depth := if_pos hdepth
  have houtline : x.normalize.outlined = .ok (.ofForm x.normalize) := if_pos hnamed
  rw [parse, hmeasure]
  simp only [trace, stages, houtline, Run.ofExcept_ok_bind]
  cases htrace : c.traceStages with
  | false => rfl
  | true =>
    -- The stages are logged as texts, and a passage that ends well has written them.
    have hx := hlogged htrace
    have hnormal : x.normalize.written = .ok x.normalize.text :=
      if_pos (x.expressible_normalize.trans hx)
    have htree : (Tree.ofOutline (.ofForm x.normalize)).written = .ok x.parse.text :=
      if_pos (Tree.expressible_parse hx)
    rw [hnormal, htree]
    rfl

end Config

namespace Form

/-- Every stage keeps the predicates that the stage before it has, as many and in order. Only
normalizing makes new ones, of the lists that hide a triple, so the leaves that are logged in the
end are as many as the triples that are logged in the beginning where nothing is hidden, and
nothing is hidden in what builders make. -/
theorem no_predicate_lost :
    (∀ x : Form, (Outline.ofForm x).predicateCount = x.tripleCount) ∧
      (∀ m : Outline, (Tree.ofOutline m).leafCount = m.predicateCount) ∧
      ∀ x : Form,
        x.parse.leaves = (x.normalize.comparisons.map fun t => ⟨t.1.fieldName, t.2.1, t.2.2⟩) ∧
        x.parse.leafCount = x.tripleCount + x.hiddenTriples ∧
        (∀ (c : Config) (t : Tree), (c.parse x).result = .ok t → t = x.parse ∧
          (c.parse x).log =
            .parsing x.depth x.tripleCount :: (c.stages x ++ [.parsed t.leafCount t.depth]) ∧
          (t.leafCount = x.tripleCount ↔ x.hiddenTriples = 0)) ∧
        (BuilderMade x → x.hiddenTriples = 0) := by
  refine ⟨Outline.predicateCount_ofForm, Tree.leafCount_ofOutline, fun x =>
    ⟨Tree.leaves_parse x, leafCount_parse x, ?_, hiddenTriples_of_builderMade⟩⟩
  intro c t h
  obtain ⟨rfl, hlog⟩ := Config.log_parse h
  refine ⟨rfl, hlog, ?_⟩
  rw [leafCount_parse]
  omega

/-- Beside a triple, a list that is one but for the mark in it. -/
def besideHidden : Form :=
  list [list [value (.text "a"), token .not, token (.compare .equal), value (.int 1)],
    token (.join .and), triple "b" .less (.int 2)]

theorem no_predicate_lost_besideHidden :
    (({} : Config).parse besideHidden).result = .ok besideHidden.parse ∧
      (({} : Config).parse besideHidden).log = [.parsing 2 1, .parsed 2 2] ∧
      besideHidden.parse.leaves = [⟨"a", .notEqual, .int 1⟩, ⟨"b", .less, .int 2⟩] ∧
      besideHidden.hiddenTriples = 1 ∧ ¬ BuilderMade besideHidden := by
  have hdepth : besideHidden.depth = 2 := by
    rw [depth_eq_nesting]
    rfl
  have hexpressible : besideHidden.expressible := by decide
  have hresult := Config.result_parse_of_expressible {} hexpressible
  rw [hdepth, if_pos (by decide)] at hresult
  obtain ⟨-, -, hform⟩ := no_predicate_lost
  obtain ⟨hleaves, hcount, hrun, hbuilt⟩ := hform besideHidden
  have hhidden : besideHidden.hiddenTriples = 1 := by decide
  have htriples : besideHidden.tripleCount = 1 := by decide
  have hlevels : besideHidden.parse.depth = 2 := by cbv
  have hnormal : besideHidden.normalize =
      list [triple "a" .notEqual (.int 1), token (.join .and), triple "b" .less (.int 2)] := by cbv
  have hlog := (hrun _ _ hresult).2.1
  rw [hcount, hhidden, htriples, hdepth, hlevels] at hlog
  refine ⟨hresult, hlog, by rw [hleaves, hnormal]; rfl, hhidden, fun h => ?_⟩
  rw [hbuilt h] at hhidden
  cases hhidden

end Form
end FilterAlgebra

import FilterAlgebra.Proofs.Complement

namespace FilterAlgebra

/-- A list of results is there if each of them is. -/
theorem mapM_whenExpressible {α β : Type} (b : α → Bool) (f : α → β) (xs : List α) :
    xs.mapM (fun x => whenExpressible (b x) (f x)) = whenExpressible (xs.all b) (xs.map f) := by
  induction xs with
  | nil => rfl
  | cons x xs ih =>
    rw [List.mapM_cons, ih]
    cases hx : b x <;> cases hxs : xs.all b <;> simp [whenExpressible, hx, hxs] <;> rfl

namespace Form

/-- The tree of a form among others, where a predicate needs no level of its own. -/
def branch (x : Form) : Tree :=
  match x.normalize.triple? with
  | some t => .leaf (Outline.ofTriple t)
  | none => x.parse

def branched (x : Form) : Except Failure Tree := x.parsed.map fun _ => x.branch

theorem branched_eq (x : Form) :
    x.branched = whenExpressible x.normalize.fieldsExpressible x.branch := by
  rw [branched, parsed_eq]
  cases x.normalize.fieldsExpressible <;> rfl

theorem branch_list (items : List Form) :
    branch (list items) = Tree.node (normalItems false items) := by
  rw [branch, normalize_list, triple?, Tree.parse_list, Tree.node]
  cases tripleOf? (normalItems false items) <;> rfl

/-- What joining some forms, each of which may be absent, makes of their trees. -/
structure Joins (c : Connective) (xs : List (Option Form)) (y : Option Form) : Prop where
  absent : xs.filterMap id = [] → y = none
  alone : ∀ x, xs.filterMap id = [x] → y = some x
  together : 2 ≤ (xs.filterMap id).length → ∃ z, y = some z ∧
    z.parse = .junction c ((xs.filterMap id).map branch) ∧
    z.parsed = ((xs.filterMap id).mapM branched).map (.junction c)

variable (c : Connective) {ls : List (List Form)}

theorem parse_separated (hlen : 2 ≤ ls.length) :
    parse (list (separated c (ls.map list))) = .junction c ((ls.map list).map branch) := by
  have hbranches : (ls.map list).map branch = (ls.map (normalItems false)).map Tree.node := by
    rw [List.map_map, List.map_map]
    exact List.map_congr_left fun l _ => branch_list l
  have hlevel : 2 ≤ (ls.map (normalItems false)).length := by rwa [List.length_map]
  -- No mark stands around the lists, so the connective between them is kept.
  have hkept : c.negateIf false = c := rfl
  rw [Tree.parse_list, normalItems_separated, tripleOf?_separated, Tree.node_separated, hkept,
    Tree.connectiveOf_separated c hlevel, hbranches]
  rfl

theorem parsed_separated (hlen : 2 ≤ ls.length) :
    parsed (list (separated c (ls.map list))) =
      ((ls.map list).mapM branched).map (.junction c) := by
  have hnamed : fieldsExpressible (list (normalItems false (separated c (ls.map list)))) =
      (ls.map list).all fun x => x.normalize.fieldsExpressible := by
    rw [normalItems_separated, fieldsExpressible_separated, List.all_map, List.all_map]
    rfl
  rw [parsed_eq, parse_separated c hlen, normalize_list, hnamed, funext branched_eq,
    mapM_whenExpressible]
  cases (ls.map list).all fun x => x.normalize.fieldsExpressible <;> rfl

theorem join_of_two_le {xs : List (Option Form)} (hlen : 2 ≤ (xs.filterMap id).length) :
    join c xs = some (list (separated c (xs.filterMap id))) := by
  rw [join]
  generalize xs.filterMap id = present at hlen ⊢
  rcases present with _ | ⟨x, _ | ⟨y, ys⟩⟩
  · simp at hlen
  · simp at hlen
  · rfl

theorem join_filter_isSome (xs : List (Option Form)) :
    join c (xs.filter (·.isSome)) = join c xs := by
  have hpresent : (xs.filter (·.isSome)).filterMap id = xs.filterMap id := by
    rw [List.filterMap_filter]
    congr 1
    funext x
    cases x <;> rfl
  rw [join, join, hpresent]

theorem joins_join {xs : List (Option Form)} (h : ∀ x, some x ∈ xs → ∃ items, x = list items) :
    Joins c xs (join c xs) where
  absent hnone := by rw [join, hnone]
  alone x hone := by rw [join, hone]
  together hlen := by
    have hlists : ∀ x ∈ xs.filterMap id, ∃ items, x = list items ∧ True := by simpa using h
    obtain ⟨ls, hls, -⟩ := exists_eq_map_list hlists
    refine ⟨_, join_of_two_le c hlen, ?_⟩
    rw [hls, List.length_map] at hlen
    rw [hls]
    exact ⟨parse_separated c hlen, parsed_separated c hlen⟩

/-- Lists that are joined become the children of one level, each as the tree that it is by itself.
One list is left as it is, and what is absent is not seen. -/
theorem trees_of_joined {xs : List (Option Form)}
    (h : ∀ x, some x ∈ xs → ∃ items, x = list items) :
    Joins .and xs (conjoin xs) ∧ Joins .or xs (disjoin xs) ∧
      conjoin (xs.filter (·.isSome)) = conjoin xs ∧ disjoin (xs.filter (·.isSome)) = disjoin xs :=
  ⟨joins_join .and h, joins_join .or h, join_filter_isSome .and xs, join_filter_isSome .or xs⟩

/-- A negated triple, a list that is a triple but for the mark in it, and a list of both connectives
that ends in a mark. -/
def unlikeLists : List Form :=
  [list [token .not, triple "a" .equal .null],
    list [value (.text "b"), token .not, token (.compare .contains), value (.text "x")],
    list [triple "c" .less (.int 2), token (.join .or), triple "d" .notBlank .null,
      token (.join .and), token .not]]

/-- Nothing stands between each two of the lists. -/
theorem trees_of_joined_unlikeLists : ∃ xs, xs = (unlikeLists.map some).intersperse none ∧
    (∀ x, some x ∈ xs → ∃ items, x = list items) ∧ ∃ y z,
      conjoin xs = some y ∧ disjoin xs = some z ∧ y.parse.children = z.parse.children ∧
      y.parse = .junction .and [.junction .or [.leaf ⟨"a", .notEqual, .sentinel .notNull⟩],
        .leaf ⟨"b", .notContains, .text "x"⟩,
        .junction .and [.leaf ⟨"c", .less, .int 2⟩, .leaf ⟨"d", .notBlank, .sentinel .null⟩]] := by
  have hpresent : ((unlikeLists.map some).intersperse none).filterMap id = unlikeLists := rfl
  have hlists : ∀ x, some x ∈ (unlikeLists.map some).intersperse none →
      ∃ items, x = list items := by
    have hall : ∀ x ∈ unlikeLists, ∃ items, x = list items := by simp [unlikeLists]
    rw [← hpresent] at hall
    simpa using hall
  obtain ⟨hand, hor, -⟩ := trees_of_joined hlists
  obtain ⟨y, hy, hytree, -⟩ := hand.together (by decide)
  obtain ⟨z, hz, hztree, -⟩ := hor.together (by decide)
  rw [hpresent] at hytree hztree
  refine ⟨_, rfl, hlists, y, z, hy, hz, by rw [hytree, hztree]; rfl, ?_⟩
  rw [hytree]
  cbv

end Form
end FilterAlgebra

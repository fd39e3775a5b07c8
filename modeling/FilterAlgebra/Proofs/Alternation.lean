import FilterAlgebra.Proofs.Complement
import FilterAlgebra.Proofs.Parity

namespace FilterAlgebra

namespace Tree

/-- The node at the end of a path. A step of a path is the index of a child. -/
def at? (t : Tree) : (path : List ℕ) → Option Tree
  | [] => some t
  | i :: path => t.children[i]?.bind (at? · path)

/-- What a list becomes where nothing of it is lost. A triple becomes a leaf. Any other list is not
empty and has one connective between each two of its items, which are lists themselves; it becomes
a junction with a child for each of them, and with that connective where there are two or more. -/
inductive Mirrors : List Form → Tree → Prop where
  | comparison (p : Predicate) :
    Mirrors [.value (.text p.field), .token (.compare p.operator), .value p.value] (leaf p)
  | level {c d : Connective} {ls : List (List Form)} {ts : List Tree} (hne : ls ≠ [])
    (hchildren : List.Forall₂ Mirrors ls ts) (hconnective : 2 ≤ ls.length → d = c) :
    Mirrors (Form.separated c (ls.map .list)) (junction d ts)

/-- Negation leaves the connectives of a level equal, and the fields of its triples as they are. -/
def Mirrored (items : List Form) : Prop :=
  ∀ inverse, Mirrors (Form.normalItems inverse items) (node (Form.normalItems inverse items))

theorem mirrors_separated (c : Connective) {ls : List (List Form)}
    (h : ∀ l ∈ ls, Mirrors l (node l)) (hne : ls ≠ []) :
    Mirrors (Form.separated c (ls.map .list)) (node (Form.separated c (ls.map .list))) := by
  rw [node_separated]
  refine .level hne ?_ (connectiveOf_separated c)
  rw [List.forall₂_map_right_iff, List.forall₂_same]
  exact h

theorem mirrored_triple (p : Predicate) :
    Mirrored [.value (.text p.field), .token (.compare p.operator), .value p.value] := by
  intro inverse
  simp only [Form.normalItems_value, Form.normalItems_compare, Form.normalItems_nil]
  exact .comparison ⟨p.field, p.operator.negateIf inverse, p.value.markNull.negateIf inverse⟩

theorem mirrored_not {items : List Form} (h : Mirrored items) :
    Mirrored [.token .not, .list items] := by
  intro inverse
  simp only [Form.normalItems_not, Form.normalItems_list, Form.normalItems_nil]
  -- A list by itself is joined by nothing, so by any connective.
  have hlevel := mirrors_separated .or (List.forall_mem_singleton.2 (h (!inverse)))
    (List.cons_ne_nil _ _)
  exact hlevel

theorem mirrored_separated (c : Connective) {ls : List (List Form)} (h : ∀ l ∈ ls, Mirrored l)
    (hne : ls ≠ []) : Mirrored (Form.separated c (ls.map .list)) := by
  intro inverse
  rw [Form.normalItems_separated]
  refine mirrors_separated _ ?_ (by simpa using hne)
  simp only [List.forall_mem_map]
  exact fun l hl => h l hl inverse

end Tree

namespace Form

theorem mirrored_of_wellFormed {x : Form} (hx : x.WellFormed) :
    ∃ items, x = list items ∧ Tree.Mirrored items :=
  hx.exists_items Tree.mirrored_triple Tree.mirrored_not Tree.mirrored_separated

/-- Every item of a well-formed form that is no token is a list, so it is not a triple itself. -/
theorem tripleOf?_normalItems_of_wellFormed {items : List Form} (h : WellFormed (list items)) :
    tripleOf? (normalItems false items) = none := by
  cases h with
  | @comparisons ps hne =>
    have hlists : ps.map ofPredicate = (ps.map fun p =>
        [value (.text p.field), token (.compare p.operator), value p.value]).map list := by
      rw [List.map_map]
      rfl
    rw [hlists, normalItems_separated, tripleOf?_separated]
  | not hx =>
    obtain ⟨l, rfl, -⟩ := mirrored_of_wellFormed hx
    simp [tripleOf?]
  | @joined c xs hxs hlen =>
    obtain ⟨ls, rfl, -⟩ := exists_eq_map_list fun x hx => mirrored_of_wellFormed (hxs x hx)
    rw [normalItems_separated, tripleOf?_separated]

theorem mirrors_parse {x : Form} (hx : x.WellFormed) :
    ∃ items, x.normalize = list items ∧ Tree.Mirrors items x.parse := by
  obtain ⟨items, rfl, h⟩ := mirrored_of_wellFormed hx
  refine ⟨_, normalize_list items, ?_⟩
  rw [Tree.parse_list, tripleOf?_normalItems_of_wellFormed hx]
  exact h false

theorem getElem?_of_separated {c : Connective} {ls : List (List Form)} {i : ℕ} {l : List Form}
    (h : (separated c (ls.map list))[i]? = some (list l)) : ls[i / 2]? = some l := by
  rw [separated] at h
  obtain ⟨k, rfl | rfl⟩ : ∃ k, i = 2 * k ∨ i = 2 * k + 1 := ⟨i / 2, by omega⟩
  · rw [List.getElem?_intersperse_two_mul, List.getElem?_map] at h
    obtain ⟨l', hl', heq⟩ := Option.map_eq_some_iff.1 h
    cases heq
    rwa [Nat.mul_div_cancel_left k (by decide)]
  · by_cases hk : k + 1 < (ls.map list).length
    · rw [List.getElem?_intersperse_two_mul_add_one hk] at h
      cases h
    · have hlen := (List.getElem?_eq_some_iff.1 h).1
      rw [List.length_intersperse] at hlen
      omega

theorem exists_eq_list_of_at? {x : Form} {path : List ℕ} {items : List Form}
    (h : x.at? path = some (list items)) : ∃ l, x = list l := by
  cases path with
  | nil => exact ⟨items, Option.some.inj h⟩
  | cons i path =>
    obtain ⟨l, -, hl, -⟩ := at?_cons_eq_some.1 h
    exact ⟨l, hl⟩

end Form

namespace Tree

/-- By induction on the path. A list stands at twice the index of its node. -/
theorem Mirrors.exists_at? {items : List Form} {t : Tree} (h : Mirrors items t) {path : List ℕ}
    {inner : List Form} (hpath : Form.at? (.list items) path = some (.list inner)) :
    ∃ u, t.at? (path.map (· / 2)) = some u ∧ Mirrors inner u := by
  induction path generalizing items t with
  | nil =>
    cases hpath
    exact ⟨t, rfl, h⟩
  | cons i path ih =>
    obtain ⟨_, x, hlist, hx, hbelow⟩ := Form.at?_cons_eq_some.1 hpath
    cases hlist
    obtain ⟨l, rfl⟩ := Form.exists_eq_list_of_at? hbelow
    cases h with
    | comparison p =>
      -- No item of a triple is a list.
      have hmem := List.mem_of_getElem? hx
      simp at hmem
    | @level c d ls ts hne hchildren hconnective =>
      have hl := Form.getElem?_of_separated hx
      obtain ⟨hk, rfl⟩ := List.getElem?_eq_some_iff.1 hl
      have hk' : i / 2 < ts.length := hchildren.length_eq ▸ hk
      obtain ⟨u, hu, hinner⟩ := ih (hchildren.get hk hk') hbelow
      refine ⟨u, ?_, hinner⟩
      simpa [at?, children, hk'] using hu

end Tree

namespace Form

/-- The builders keep to one connective in each list, and normalizing and assembling lose nothing
of what they make. -/
theorem wellFormed_mirrored :
    ClosedUnderBuilders WellFormed ∧
      (∀ (p : Program) (x : Form), p.isBuilt → p.run.result = .ok (some x) → x.WellFormed) ∧
      ∀ x : Form, x.WellFormed → x.parsed = .ok x.parse ∧ (∃ items, x.normalize = list items) ∧
        ∀ path items, x.normalize.at? path = some (list items) →
          ∃ t, x.parse.at? (path.map (· / 2)) = some t ∧ Tree.Mirrors items t := by
  refine ⟨(keptByBuilders_wellFormed fun _ => true).closedUnderBuilders,
    fun p x hp hx => Program.wellFormed_of_run hp hx, ?_⟩
  intro x hx
  obtain ⟨items, hnormal, hmirrors⟩ := mirrors_parse hx
  refine ⟨parsed_of_wellFormed hx, ⟨items, hnormal⟩, ?_⟩
  rw [hnormal]
  exact fun path inner hpath => hmirrors.exists_at? hpath

/-- One of the lists that the mark before a joined filter reaches. The `or` in it has become an
`and`, and it holds two lists. -/
theorem wellFormed_mirrored_negatedJoin : ∃ x, Program.negatedJoin.run.result = .ok (some x) ∧
    x.WellFormed ∧ x.parsed = .ok x.parse ∧ ∃ items t,
      x.normalize.at? [0, 2] = some (list items) ∧
        items = [list [list [triple "d" .less (.bool true)]], token (.join .and),
          list [triple "c" .equal (.sentinel .notNull)]] ∧
        x.parse.at? [0, 1] = some t ∧ Tree.Mirrors items t := by
  obtain ⟨-, hbuilt, hassembled⟩ := wellFormed_mirrored
  generalize hx : list [token .not, list [product ["a", "b"] .notEqual [.null, .int 3],
    token (.join .and), list [list [token .not, product ["d"] .less [.bool true]],
      token (.join .or), product ["c"] .notEqual [.sentinel .null]]]] = x
  have hrun : Program.negatedJoin.run.result = .ok (some x) := by
    rw [← hx]
    rfl
  have hwell := hbuilt _ _ rfl hrun
  obtain ⟨hparsed, -, hnodes⟩ := hassembled x hwell
  have hpath : x.normalize.at? [0, 2] = some (list [list [list [triple "d" .less (.bool true)]],
      token (.join .and), list [triple "c" .equal (.sentinel .notNull)]]) := by
    rw [← hx]
    cbv
  obtain ⟨t, ht, hmirrors⟩ := hnodes _ _ hpath
  exact ⟨x, hrun, hwell, hparsed, _, t, hpath, rfl, ht, hmirrors⟩

end Form
end FilterAlgebra

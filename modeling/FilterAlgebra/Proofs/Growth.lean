import FilterAlgebra.Proofs.Joined
import FilterAlgebra.Proofs.DeMorgan

namespace FilterAlgebra

namespace Filter

/-- A step of a growing filter. What comes in may be absent. -/
structure Step where
  connective : Connective
  incoming : Option Form

namespace Step

def apply (f : Filter) (s : Step) : Filter :=
  match s.connective with
  | .and => f.and s.incoming
  | .or => f.or s.incoming

/-- The tree that a step makes of the tree that is there. -/
def above (t : Tree) (s : Step) : Tree :=
  match s.incoming with
  | some x => .junction s.connective [x.branch, t]
  | none => t

/-- The truth that a step makes of the truth that is there, if any is. Truth that comes in first
is taken as it is, whatever the connective. -/
def accumulate (holds : Predicate → Bool) (b : Option Bool) (s : Step) : Option Bool :=
  match s.incoming, b with
  | some x, some b => some (s.connective.fold [x.parse.eval holds, b])
  | some x, none => some (x.parse.eval holds)
  | none, b => b

end Step

def grow (f : Filter) (steps : List Step) : Filter := steps.foldl Step.apply f

/-- What a run is made of, as it stands in the filter: the last that came in is the first. -/
def parts (f : Filter) (steps : List Step) : List Form :=
  steps.reverse.filterMap (·.incoming) ++ f.form.toList

/-- What comes of a run of steps from a filter that may be empty. -/
structure Grows (f : Filter) (steps : List Step) : Prop where
  absent : f.grow (steps.filter (·.incoming.isSome)) = f.grow steps
  empty : ((f.grow steps).isEmpty ↔ f.isEmpty ∧ ∀ s ∈ steps, s.incoming = none) ∧
    (f.grow steps).parse.isNone = (f.grow steps).isEmpty
  leaves : ∀ t, (f.grow steps).parse = some t →
    t.leaves = (f.parts steps).flatMap fun x => x.parse.leaves
  truth : ∀ holds, (f.grow steps).parse.map (·.eval holds) =
    steps.foldl (Step.accumulate holds) (f.parse.map (·.eval holds))
  /-- A filter that is empty takes what comes in first as it is. -/
  first : f.form = none → ∀ c x rest, steps.filter (·.incoming.isSome) = ⟨c, some x⟩ :: rest →
    f.grow steps = (⟨some x⟩ : Filter).grow rest
  grouped : ∀ x, f.form = some x → (∃ s ∈ steps, s.incoming.isSome) →
    (f.grow steps).parse = some (steps.foldl Step.above x.branch)
  /-- Its tree is missed for the want of a name exactly where a part misses its own. -/
  parsed : (f.grow steps).parsed = ((f.parts steps).mapM Form.parsed).map fun _ =>
    (f.grow steps).parse

end Filter

namespace Form

theorem leaves_branch (items : List Form) :
    (branch (list items)).leaves = (parse (list items)).leaves := by
  rw [branch_list, Tree.leaves_parse_list]

theorem eval_branch (holds : Predicate → Bool) (items : List Form) :
    (branch (list items)).eval holds = (parse (list items)).eval holds := by
  rw [branch_list, Tree.eval_parse_list]

variable (c : Connective) (xs ys : List Form)

theorem parse_pair : parse (list [list xs, token (.join c), list ys]) =
    .junction c [branch (list xs), branch (list ys)] :=
  parse_separated c (show 2 ≤ [xs, ys].length by simp)

theorem branch_pair : branch (list [list xs, token (.join c), list ys]) =
    .junction c [branch (list xs), branch (list ys)] := by
  have hpair : branch (list [list xs, token (.join c), list ys]) =
      parse (list [list xs, token (.join c), list ys]) := by
    simp [branch, normalize_list, triple?, tripleOf?]
  rw [hpair, parse_pair]

theorem leaves_parse_pair : (parse (list [list xs, token (.join c), list ys])).leaves =
    (parse (list xs)).leaves ++ (parse (list ys)).leaves := by
  simp [parse_pair, Tree.leaves, Tree.leavesOf, leaves_branch]

theorem eval_parse_pair (holds : Predicate → Bool) :
    (parse (list [list xs, token (.join c), list ys])).eval holds =
      c.fold [(parse (list xs)).eval holds, (parse (list ys)).eval holds] := by
  rw [parse_pair, Tree.eval_junction]
  simp only [List.map_cons, List.map_nil, eval_branch]

theorem fieldsExpressible_pair :
    (normalize (list [list xs, token (.join c), list ys])).fieldsExpressible =
      ((normalize (list xs)).fieldsExpressible && (normalize (list ys)).fieldsExpressible) := by
  have h := fieldsExpressible_separated (c.negateIf false)
    [normalItems false xs, normalItems false ys]
  simpa [normalize_list, separated] using h

end Form

namespace Filter

def HoldsList (f : Filter) : Prop := ∀ x, f.form = some x → ∃ items, x = .list items

namespace Step

def BringsList (s : Step) : Prop := ∀ x, s.incoming = some x → ∃ items, x = .list items

theorem apply_eq_combine (f : Filter) (s : Step) :
    s.apply f = f.combine s.connective s.incoming := by
  unfold apply
  cases s.connective <;> rfl

theorem apply_absent (f : Filter) {s : Step} (hs : s.incoming = none) : s.apply f = f := by
  rw [apply_eq_combine, hs]
  rfl

theorem apply_empty (c : Connective) (x : Option Form) : (⟨c, x⟩ : Step).apply ⟨none⟩ = ⟨x⟩ := by
  rw [apply_eq_combine]
  cases x <;> rfl

theorem apply_pair (c : Connective) (x y : Form) :
    (⟨c, some x⟩ : Step).apply ⟨some y⟩ = ⟨some (.list [x, .token (.join c), y])⟩ := by
  rw [apply_eq_combine]
  rfl

/-- A step does nothing, fills an empty filter, or sets a list before the list that is there. -/
theorem apply_cases {f : Filter} {s : Step} (hf : f.HoldsList) (hs : s.BringsList)
    {motive : Filter → Step → Filter → Prop}
    (absent : ∀ c, motive f ⟨c, none⟩ f)
    (first : ∀ c xs, motive ⟨none⟩ ⟨c, some (.list xs)⟩ ⟨some (.list xs)⟩)
    (pair : ∀ c xs ys, motive ⟨some (.list ys)⟩ ⟨c, some (.list xs)⟩
      ⟨some (.list [.list xs, .token (.join c), .list ys])⟩) : motive f s (s.apply f) := by
  obtain ⟨c, x⟩ := s
  obtain ⟨y⟩ := f
  cases x with
  | none =>
    rw [apply_absent _ rfl]
    exact absent c
  | some x =>
    obtain ⟨xs, rfl⟩ := hs x rfl
    cases y with
    | none =>
      rw [apply_empty]
      exact first c xs
    | some y =>
      obtain ⟨ys, rfl⟩ := hf y rfl
      rw [apply_pair]
      exact pair c xs ys

theorem holdsList_apply {f : Filter} {s : Step} (hf : f.HoldsList) (hs : s.BringsList) :
    (s.apply f).HoldsList := by
  refine apply_cases hf hs (motive := fun f _ g => f.HoldsList → g.HoldsList) ?_ ?_ ?_ hf
  · exact fun _ h => h
  · intro c xs _ x hx
    cases hx
    exact ⟨xs, rfl⟩
  · intro c xs ys _ x hx
    cases hx
    exact ⟨_, rfl⟩

end Step

theorem grow_snoc (f : Filter) (steps : List Step) (s : Step) :
    f.grow (steps ++ [s]) = s.apply (f.grow steps) := by
  simp [grow]

theorem parts_snoc (f : Filter) (steps : List Step) (s : Step) :
    f.parts (steps ++ [s]) = s.incoming.toList ++ f.parts steps := by
  cases h : s.incoming <;> simp [parts, h]

/-- What a filter says of the parts that it is made of. -/
structure MadeOf (f : Filter) (ps : List Form) : Prop where
  empty : f.isEmpty = ps.isEmpty
  leaves : (f.form.toList.flatMap fun x => x.parse.leaves) = ps.flatMap fun x => x.parse.leaves
  named : (f.form.toList.all fun x => x.normalize.fieldsExpressible) =
    ps.all fun x => x.normalize.fieldsExpressible

theorem madeOf_self (f : Filter) : f.MadeOf f.form.toList where
  empty := by cases h : f.form <;> simp [isEmpty, h]
  leaves := rfl
  named := rfl

/-- What comes in is one part more, and stands before the others. -/
theorem MadeOf.apply {f : Filter} {ps : List Form} {s : Step} (h : f.MadeOf ps) (hf : f.HoldsList)
    (hs : s.BringsList) : (s.apply f).MadeOf (s.incoming.toList ++ ps) := by
  refine Step.apply_cases hf hs
    (motive := fun f s g => f.MadeOf ps → g.MadeOf (s.incoming.toList ++ ps)) ?_ ?_ ?_ h
  · intro c h
    exact h
  · intro c xs h
    obtain rfl : ps = [] := by simpa [isEmpty] using h.empty
    exact madeOf_self ⟨some (.list xs)⟩
  · intro c xs ys h
    have hleaves := h.leaves
    have hnamed := h.named
    simp only [Option.toList_some, List.flatMap_cons, List.flatMap_nil, List.append_nil,
      List.all_cons, List.all_nil, Bool.and_true] at hleaves hnamed
    constructor
    · rfl
    · simp [Form.leaves_parse_pair, hleaves]
    · simp [Form.fieldsExpressible_pair, hnamed]

theorem accumulate_apply (holds : Predicate → Bool) {f : Filter} {s : Step} (hf : f.HoldsList)
    (hs : s.BringsList) : (s.apply f).parse.map (·.eval holds) =
      s.accumulate holds (f.parse.map (·.eval holds)) := by
  refine Step.apply_cases hf hs (motive := fun f s g =>
    g.parse.map (·.eval holds) = s.accumulate holds (f.parse.map (·.eval holds))) ?_ ?_ ?_
  · exact fun c => rfl
  · exact fun c xs => rfl
  · intro c xs ys
    simp [parse, Step.accumulate, Form.eval_parse_pair]

/-- A step from a filter that is not empty. A part that comes in makes a level, so the tree of the
filter stays as it is when it becomes a branch. -/
theorem above_apply {f : Filter} {s : Step} (hf : f.HoldsList) (hs : s.BringsList) {t : Tree}
    (ht : f.form.map Form.branch = some t) :
    (s.apply f).form.map Form.branch = some (s.above t) ∧
      (s.incoming.isSome → (s.apply f).parse = some (s.above t)) := by
  refine Step.apply_cases hf hs (motive := fun f s g => f.form.map Form.branch = some t →
    g.form.map Form.branch = some (s.above t) ∧
      (s.incoming.isSome → g.parse = some (s.above t))) ?_ ?_ ?_ ht
  · intro c ht
    exact ⟨ht, nofun⟩
  · intro c xs ht
    cases ht
  · intro c xs ys ht
    obtain rfl : Form.branch (.list ys) = t := Option.some.inj ht
    constructor
    · simp [Step.above, Form.branch_pair]
    · simp [Step.above, parse, Form.parse_pair]

theorem grow_filter (f : Filter) (steps : List Step) :
    f.grow (steps.filter (·.incoming.isSome)) = f.grow steps := by
  induction steps generalizing f with
  | nil => rfl
  | cons s steps ih =>
    cases hs : s.incoming with
    | none =>
      have happly : s.apply f = f := s.apply_absent f hs
      rw [List.filter_cons_of_neg (by simp [hs]), ih]
      simp only [grow, List.foldl_cons, happly]
    | some x =>
      rw [List.filter_cons_of_pos (by simp [hs])]
      exact ih (s.apply f)

section Run

variable {f : Filter} (hf : f.HoldsList) {steps : List Step} (hsteps : ∀ s ∈ steps, s.BringsList)
include hf hsteps

/-- What holds of the filter that a run starts from, and what every step keeps, holds in the end. -/
theorem grow_induct {motive : List Step → Filter → Prop} (nil : motive [] f)
    (snoc : ∀ {steps s g}, g.HoldsList → s.BringsList → motive steps g →
      motive (steps ++ [s]) (s.apply g)) : motive steps (f.grow steps) := by
  have h : (f.grow steps).HoldsList ∧ motive steps (f.grow steps) := by
    induction steps using List.reverseRecOn with
    | nil => exact ⟨hf, nil⟩
    | append_singleton steps s ih =>
      rw [List.forall_mem_append, List.forall_mem_singleton] at hsteps
      obtain ⟨hlist, hmotive⟩ := ih hsteps.1
      rw [grow_snoc]
      exact ⟨Step.holdsList_apply hlist hsteps.2, snoc hlist hsteps.2 hmotive⟩
  exact h.2

theorem madeOf_grow : (f.grow steps).MadeOf (f.parts steps) := by
  apply grow_induct hf hsteps (motive := fun steps g => g.MadeOf (f.parts steps))
  · exact f.madeOf_self
  · intro steps s g hg hs h
    rw [parts_snoc]
    exact h.apply hg hs

theorem accumulate_grow (holds : Predicate → Bool) : (f.grow steps).parse.map (·.eval holds) =
    steps.foldl (Step.accumulate holds) (f.parse.map (·.eval holds)) := by
  apply grow_induct hf hsteps (motive := fun steps g => g.parse.map (·.eval holds) =
    steps.foldl (Step.accumulate holds) (f.parse.map (·.eval holds)))
  · rfl
  · intro steps s g hg hs h
    rw [accumulate_apply holds hg hs, h, List.foldl_concat]

theorem above_grow {t : Tree} (ht : f.form.map Form.branch = some t) :
    (f.grow steps).form.map Form.branch = some (steps.foldl Step.above t) ∧
      ((∃ s ∈ steps, s.incoming.isSome) →
        (f.grow steps).parse = some (steps.foldl Step.above t)) := by
  apply grow_induct hf hsteps (motive := fun steps g =>
    g.form.map Form.branch = some (steps.foldl Step.above t) ∧
      ((∃ s ∈ steps, s.incoming.isSome) → g.parse = some (steps.foldl Step.above t)))
  · exact ⟨ht, by simp⟩
  · intro steps s g hg hs ⟨hbranch, hparse⟩
    obtain ⟨hbranch', hparse'⟩ := above_apply hg hs hbranch
    rw [List.foldl_concat]
    refine ⟨hbranch', fun hsome => ?_⟩
    cases hs' : s.incoming with
    | some x => exact hparse' (by rw [hs']; rfl)
    | none =>
      -- The step brings nothing, so one before it brought something.
      have hbefore : ∃ s ∈ steps, s.incoming.isSome := by simpa [hs'] using hsome
      rw [s.apply_absent g hs', hparse hbefore, Step.above, hs']

theorem parsed_grow : (f.grow steps).parsed =
    ((f.parts steps).mapM Form.parsed).map fun _ => (f.grow steps).parse := by
  have hnamed := (madeOf_grow hf hsteps).named
  rw [funext Form.parsed_eq, mapM_whenExpressible, ← hnamed, parsed, parse]
  cases (f.grow steps).form with
  | none => rfl
  | some x =>
    rw [Option.mapM_some, Form.parsed_eq]
    cases h : x.normalize.fieldsExpressible <;> simp [whenExpressible, h] <;> rfl

/-- A filter that grows by whole lists keeps every part in one piece. -/
theorem grows_by_lists : f.Grows steps where
  absent := f.grow_filter steps
  empty := by
    refine ⟨?_, by cases h : (f.grow steps).form <;> simp [parse, isEmpty, h]⟩
    rw [(madeOf_grow hf hsteps).empty]
    simp [parts, isEmpty, and_comm]
  leaves := by
    intro t ht
    obtain ⟨x, hx, rfl⟩ := Option.map_eq_some_iff.1 ht
    have h := (madeOf_grow hf hsteps).leaves
    simpa [hx] using h
  truth := accumulate_grow hf hsteps
  first := by
    intro hempty c x rest hrest
    have happly : (⟨c, some x⟩ : Step).apply f = ⟨some x⟩ := by
      obtain rfl : f = ⟨none⟩ := by cases f; simpa using hempty
      exact Step.apply_empty c (some x)
    rw [← grow_filter, hrest, grow, List.foldl_cons, happly]
    rfl
  grouped := fun x hx => (above_grow hf hsteps (t := x.branch) (by rw [hx]; rfl)).2
  parsed := parsed_grow hf hsteps

end Run

/-- After a step that brings nothing an `and` brings a negated comparison, and an `or` a triple that
is in no list. -/
def mixedSteps : List Step :=
  [⟨.and, none⟩, ⟨.and, some (.list [.token .not, .triple "b" .less (.int 2)])⟩,
    ⟨.or, some (.triple "c" .equal .null)⟩]

def comparedFirst : Filter := ⟨Form.compare ["a"] .equal [.int 1]⟩

/-- The `or` came last, so it stands around the `and`. -/
theorem grows_by_lists_mixedSteps : comparedFirst.HoldsList ∧
    (∀ s ∈ mixedSteps, s.BringsList) ∧ comparedFirst.Grows mixedSteps ∧
      (comparedFirst.grow mixedSteps).parse =
        some (.junction .or [.leaf ⟨"c", .equal, .sentinel .null⟩,
          .junction .and [.junction .or [.leaf ⟨"b", .atLeast, .int 2⟩],
            .junction .or [.leaf ⟨"a", .equal, .int 1⟩]]]) := by
  have hlist : comparedFirst.HoldsList := by
    intro x hx
    cases hx
    exact ⟨_, rfl⟩
  have hsteps : ∀ s ∈ mixedSteps, s.BringsList := by
    simp [mixedSteps, Step.BringsList, Form.triple]
  have hgrows := grows_by_lists hlist hsteps
  refine ⟨hlist, hsteps, hgrows, ?_⟩
  rw [hgrows.grouped _ rfl (by decide)]
  cbv

end Filter
end FilterAlgebra

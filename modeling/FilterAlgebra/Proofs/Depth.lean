import FilterAlgebra.Form.Depth

namespace FilterAlgebra.Form

/-- The deepest level that a pending part opens. Only lists open any. -/
def Pending.reach : Pending → Nat
  | ⟨list items, around⟩ => around + nesting (list items)
  | _ => 0

def Pending.level : Pending → Nat
  | ⟨list _, around⟩ => around + 1
  | _ => 0

/-- The parts that a visit puts in the place of a part. -/
def Pending.inner : Pending → List Pending
  | ⟨list items, around⟩ => pendingItems items (around + 1)
  | _ => []

def deepestOf : List Pending → Nat
  | [] => 0
  | p :: stack => max p.reach (deepestOf stack)

theorem deepestOf_append (s t : List Pending) :
    deepestOf (s ++ t) = max (deepestOf s) (deepestOf t) := by
  induction s with
  | nil => simp [deepestOf]
  | cons p s ih => rw [List.cons_append, deepestOf, deepestOf, ih, Nat.max_assoc]

theorem deepestOf_perm {s t : List Pending} (h : s.Perm t) : deepestOf s = deepestOf t := by
  induction h with
  | nil => rfl
  | cons p _ ih => rw [deepestOf, deepestOf, ih]
  | swap p q s =>
    rw [deepestOf, deepestOf, deepestOf, deepestOf]
    omega
  | trans _ _ ih ih' => exact ih.trans ih'

theorem pendingSize_perm {s t : List Pending} (h : s.Perm t) : pendingSize s = pendingSize t := by
  induction h with
  | nil => rfl
  | cons p _ ih => rw [pendingSize, pendingSize, ih]
  | swap p q s =>
    rw [pendingSize, pendingSize, pendingSize, pendingSize]
    omega
  | trans _ _ ih ih' => exact ih.trans ih'

theorem max_reach (x : Form) (around : Nat) :
    max around (Pending.reach ⟨x, around⟩) = around + x.nesting := by
  cases x with
  | value v => simp [Pending.reach, nesting]
  | token t => simp [Pending.reach, nesting]
  | list items => exact Nat.max_eq_right (Nat.le_add_right _ _)

theorem nestingOfItems_cons (x : Form) (xs : List Form) :
    nestingOfItems (x :: xs) = max x.nesting (nestingOfItems xs) := rfl

theorem nestingOfItems_eq_foldr (items : List Form) :
    nestingOfItems items = (items.map nesting).foldr max 0 := by
  induction items with
  | nil => rfl
  | cons x xs ih => rw [nestingOfItems_cons, ih, List.map_cons, List.foldr_cons]

theorem max_deepestOf_pendingItems (items : List Form) (around : Nat) :
    max around (deepestOf (pendingItems items around)) = around + nestingOfItems items := by
  induction items with
  | nil => simp [pendingItems, deepestOf, nestingOfItems]
  | cons x xs ih =>
    have hx := max_reach x around
    have hcons : pendingItems (x :: xs) around = ⟨x, around⟩ :: pendingItems xs around := rfl
    rw [hcons, deepestOf, nestingOfItems_cons]
    omega

/-- Nothing that a part reaches is lost when it is exchanged for what is in it. -/
theorem Pending.reach_eq (p : Pending) : p.reach = max p.level (deepestOf p.inner) := by
  obtain ⟨x, around⟩ := p
  cases x with
  | value v => rfl
  | token t => rfl
  | list items =>
    have hitems := max_deepestOf_pendingItems items (around + 1)
    rw [reach, level, inner, nesting]
    omega

theorem Pending.size_eq (p : Pending) : p.form.size = pendingSize p.inner + 1 := by
  obtain ⟨x, around⟩ := p
  cases x with
  | value v => rfl
  | token t => rfl
  | list items => rw [inner, pendingSize_pendingItems, size]

/-- Where a measurement stands: the parts still to be visited and the deepest level found. -/
structure Survey where
  pending : List Pending
  deepest : Nat

namespace Survey

/-- A visit to any pending part. What is in it joins the others in any order. -/
inductive Visit : Survey → Survey → Prop
  | mk {p : Pending} {rest before after : List Pending} {deepest : Nat}
    (hb : before.Perm (p :: rest)) (ha : after.Perm (p.inner ++ rest)) :
    Visit ⟨before, deepest⟩ ⟨after, max deepest p.level⟩

/-- A run of visits, counted. -/
inductive Visits : Nat → Survey → Survey → Prop
  | none (s : Survey) : Visits 0 s s
  | next {n : Nat} {s t u : Survey} (first : Visit s t) (rest : Visits n t u) : Visits (n + 1) s u

def answer (s : Survey) : Nat := max s.deepest (deepestOf s.pending)

variable {n : Nat} {s t : Survey}

theorem Visit.answer_eq (h : Visit s t) : t.answer = s.answer := by
  cases h with
  | @mk p rest before after deepest hb ha =>
    have hreach := p.reach_eq
    simp only [answer, deepestOf_perm hb, deepestOf_perm ha, deepestOf_append, deepestOf]
    omega

theorem Visit.size_eq (h : Visit s t) : pendingSize t.pending + 1 = pendingSize s.pending := by
  cases h with
  | @mk p rest before after deepest hb ha =>
    have hsize := p.size_eq
    rw [pendingSize_perm hb, pendingSize_perm ha, pendingSize_append, pendingSize]
    omega

theorem Visits.answer_eq (h : Visits n s t) : t.answer = s.answer := by
  induction h with
  | none s => rfl
  | next first _ ih => exact ih.trans first.answer_eq

theorem Visits.size_eq (h : Visits n s t) :
    n + pendingSize t.pending = pendingSize s.pending := by
  induction h with
  | none s => exact Nat.zero_add _
  | next first _ ih =>
    have hfirst := first.size_eq
    omega

theorem exists_visit (h : s.pending ≠ []) : ∃ t, Visit s t := by
  obtain ⟨pending, deepest⟩ := s
  cases pending with
  | nil => exact absurd rfl h
  | cons p rest => exact ⟨_, .mk (.refl _) (.refl _)⟩

def start (x : Form) : Survey := ⟨[⟨x, 0⟩], 0⟩

theorem answer_start (x : Form) : (start x).answer = x.nesting := by
  have hreach := max_reach x 0
  simp only [answer, start, deepestOf]
  omega

theorem size_start (x : Form) : pendingSize (start x).pending = x.size := Nat.add_zero _

end Survey

open Survey

/-- The loop is one run of visits, to the part on top of the stack each time. -/
theorem visits_depthFrom (stack : List Pending) (deepest : Nat) :
    Visits (pendingSize stack) ⟨stack, deepest⟩ ⟨[], depthFrom stack deepest⟩ := by
  fun_induction depthFrom stack deepest with
  | case1 deepest => exact .none _
  | case2 deepest items around rest ih =>
    -- The items go on the stack in reverse.
    have hitems : ((pendingItems items (around + 1)).reverse ++ rest).Perm
        (Pending.inner ⟨list items, around⟩ ++ rest) :=
      (List.reverse_perm _).append_right rest
    have hfirst : Visit ⟨⟨list items, around⟩ :: rest, deepest⟩ ⟨_, max deepest (around + 1)⟩ :=
      .mk (.refl _) hitems
    rw [← hfirst.size_eq]
    exact .next hfirst ih
  | case3 deepest p rest hp ih =>
    have hflat : p.inner = [] ∧ p.level = 0 := by
      obtain ⟨x, around⟩ := p
      cases x with
      | value v => exact ⟨rfl, rfl⟩
      | token t => exact ⟨rfl, rfl⟩
      | list items => exact absurd rfl (hp items around)
    have hfirst : Visit ⟨p :: rest, deepest⟩ ⟨rest, deepest⟩ := by
      have h : Visit ⟨p :: rest, deepest⟩ ⟨p.inner ++ rest, max deepest p.level⟩ :=
        .mk (.refl _) (.refl _)
      rwa [hflat.1, hflat.2, List.nil_append, Nat.max_zero] at h
    rw [← hfirst.size_eq]
    exact .next hfirst ih

theorem depthFrom_eq (stack : List Pending) (deepest : Nat) :
    depthFrom stack deepest = max deepest (deepestOf stack) := by
  have h := (visits_depthFrom stack deepest).answer_eq
  simpa only [answer, deepestOf, Nat.max_zero] using h

theorem depth_eq_nesting (x : Form) : x.depth = x.nesting := by
  rw [depth, depthFrom_eq]
  exact answer_start x

theorem depth_list (items : List Form) :
    (list items).depth = 1 + (items.map depth).foldr max 0 := by
  have hdepth : depth = nesting := funext depth_eq_nesting
  rw [hdepth, nesting, nestingOfItems_eq_foldr, Nat.add_comm]

/-- The depth of a form is one more than that of its deepest item. In whatever order its parts are
visited, a visit is possible as long as one is pending, there is one for each part, and when none
is left the depth has been found. -/
theorem depth_in_any_order :
    (∀ v, (value v).depth = 0) ∧ (∀ t, (token t).depth = 0) ∧
      (∀ items, (list items).depth = 1 + (items.map depth).foldr max 0) ∧
      ∀ x : Form, x.depth = x.nesting ∧ Visits x.size (start x) ⟨[], x.depth⟩ ∧
        ∀ n s, Visits n (start x) s → n ≤ x.size ∧ (s.pending ≠ [] → ∃ t, Visit s t) ∧
          (s.pending = [] → n = x.size ∧ s.deepest = x.depth) := by
  refine ⟨fun v => depth_eq_nesting _, fun t => depth_eq_nesting _, depth_list, fun x => ?_⟩
  refine ⟨x.depth_eq_nesting, ?_, fun n s h => ?_⟩
  · rw [← size_start x]
    exact visits_depthFrom _ 0
  · have hsize := h.size_eq
    rw [size_start] at hsize
    refine ⟨by omega, exists_visit, fun hdone => ?_⟩
    have hanswer := h.answer_eq
    rw [hdone, pendingSize] at hsize
    rw [answer, hdone, deepestOf, Nat.max_zero, answer_start, ← depth_eq_nesting] at hanswer
    exact ⟨hsize, hanswer⟩

/-- Two lists in a list, the second of them with an empty one in it. -/
def unevenLists : Form := list [list [value .null], list [list []]]

/-- The parts first in are the first ones out, unlike on a stack. -/
theorem depth_in_any_order_unevenLists :
    Visits 5 (start unevenLists) ⟨[], 3⟩ ∧ unevenLists.depth = 3 := by
  have hvisits : Visits 5 (start unevenLists) ⟨[], 3⟩ :=
    .next (.mk (.refl _) List.perm_append_comm) <|
      .next (.mk (.refl _) List.perm_append_comm) <|
      .next (.mk (.refl _) List.perm_append_comm) <|
      .next (.mk (.refl _) List.perm_append_comm) <|
      .next (.mk (.refl _) List.perm_append_comm) (.none _)
  -- The run above is any run, and it has nothing left to visit.
  obtain ⟨-, -, -, h⟩ := depth_in_any_order
  obtain ⟨-, -, hdone⟩ := (h unevenLists).2.2 5 _ hvisits
  exact ⟨hvisits, (hdone rfl).2.symm⟩

end FilterAlgebra.Form

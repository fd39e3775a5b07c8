import Mathlib.Data.List.Forall2
import FilterAlgebra.Program

namespace FilterAlgebra

def Connective.fold : Connective → List Bool → Bool
  | and, bs => bs.all id
  | or, bs => bs.any id

/-- A relation between a form and a truth that no builder breaks. -/
structure KeptByBuilders (holds : Predicate → Bool) (R : Form → Bool → Prop) : Prop where
  product : ∀ (fields : List String) (c : Comparison) (values : List Value),
    fields ≠ [] → values ≠ [] → R (Form.product fields c values)
      (fields.any fun f => values.any fun v => holds ⟨f, c, v.markNull⟩)
  not : ∀ {x : Form} {b : Bool}, R x b → R (.list [.token .not, x]) (!b)
  joined : ∀ {c : Connective} {xs : List Form} {bs : List Bool},
    List.Forall₂ R xs bs → 2 ≤ xs.length → R (.list (Form.separated c xs)) (c.fold bs)

namespace KeptByBuilders

variable {holds : Predicate → Bool} {R : Form → Bool → Prop}

theorem rel_compare (hR : KeptByBuilders holds R) {fields : List String} (hf : fields ≠ [])
    (c : Comparison) (values : List Value) :
    Option.Rel R (Form.compare fields c values) (Program.evalCompare holds fields c values) := by
  have hnull (d : Comparison) : R (Form.product fields d [.sentinel .null])
      (fields.any fun f => holds ⟨f, d, .sentinel .null⟩) := by
    simpa [Value.markNull] using hR.product fields d [.sentinel .null] hf (by simp)
  cases c with
  | blank => exact .some (hnull .equal)
  | notBlank => exact .some (hnull .notEqual)
  | _ =>
    simp only [Form.compare, Program.evalCompare]
    split
    · exact .none
    · next hv => exact .some (hR.product fields _ values hf (by simpa using hv))

theorem rel_negate (hR : KeptByBuilders holds R) {x : Option Form} {b : Option Bool}
    (h : Option.Rel R x b) : Option.Rel R (Form.negate x) (b.map (! ·)) := by
  cases h with
  | none => exact .none
  | some hx => exact .some (hR.not hx)

theorem rel_join (hR : KeptByBuilders holds R) (c : Connective) {xs : List (Option Form)}
    {bs : List (Option Bool)} (h : List.Forall₂ (Option.Rel R) xs bs) :
    Option.Rel R (Form.join c xs) (Program.evalJoin c bs) := by
  have hp : List.Forall₂ R (xs.filterMap id) (bs.filterMap id) :=
    List.rel_filterMap (fun _ _ h => h) h
  have hb : Program.evalJoin c bs =
      if (bs.filterMap id).isEmpty then none else some (c.fold (bs.filterMap id)) := by
    cases c <;> rfl
  rw [Form.join, hb]
  generalize xs.filterMap id = ps at hp
  generalize bs.filterMap id = qs at hp
  cases hp with
  | nil => exact .none
  | cons hx hrest =>
    cases hrest with
    | nil => cases c <;> simpa [Connective.fold] using Option.Rel.some hx
    | cons hy hrest => exact .some (hR.joined (.cons hx (.cons hy hrest)) (by simp))

end KeptByBuilders

theorem Filter.form_combine (c : Connective) (f : Filter) (x : Option Form) :
    (f.combine c x).form = Form.join c [x, f.form] := by
  obtain ⟨y⟩ := f
  cases x <;> cases y <;> rfl

/-- What may be absent, and has the property if it is not. -/
def IfAny (P : Form → Prop) (x : Option Form) : Prop := ∀ y ∈ x, P y

/-- A property of forms that no builder breaks. The parts may be absent, and so may the result. -/
structure ClosedUnderBuilders (P : Form → Prop) : Prop where
  compare : ∀ {fields : List String} (c : Comparison) (values : List Value), fields ≠ [] →
    IfAny P (Form.compare fields c values)
  negate : ∀ {x : Option Form}, IfAny P x → IfAny P (Form.negate x)
  join : ∀ (c : Connective) {xs : List (Option Form)}, (∀ x ∈ xs, IfAny P x) →
    IfAny P (Form.join c xs)
  combine : ∀ (c : Connective) {f : Filter} {x : Option Form}, IfAny P f.form → IfAny P x →
    IfAny P (f.combine c x).form

theorem ifAny_iff_rel {P : Form → Prop} {x : Option Form} :
    IfAny P x ↔ ∃ b : Option Bool, Option.Rel (fun y _ => P y) x b := by
  constructor
  · intro h
    cases x with
    | none => exact ⟨none, .none⟩
    | some y => exact ⟨some true, .some (h y rfl)⟩
  · rintro ⟨b, h⟩ y hy
    cases hy
    cases h with
    | some hy => exact hy

theorem exists_rel_of_ifAny {P : Form → Prop} {xs : List (Option Form)}
    (h : ∀ x ∈ xs, IfAny P x) :
    ∃ bs : List (Option Bool), List.Forall₂ (Option.Rel fun y _ => P y) xs bs := by
  induction xs with
  | nil => exact ⟨[], .nil⟩
  | cons x xs ih =>
    obtain ⟨hx, hxs⟩ := List.forall_mem_cons.1 h
    obtain ⟨b, hb⟩ := ifAny_iff_rel.1 hx
    obtain ⟨bs, hbs⟩ := ih hxs
    exact ⟨b :: bs, .cons hb hbs⟩

theorem KeptByBuilders.closedUnderBuilders {holds : Predicate → Bool} {P : Form → Prop}
    (hP : KeptByBuilders holds fun x _ => P x) : ClosedUnderBuilders P where
  compare c values hf := ifAny_iff_rel.2 ⟨_, hP.rel_compare hf c values⟩
  negate hx := by
    obtain ⟨b, hb⟩ := ifAny_iff_rel.1 hx
    exact ifAny_iff_rel.2 ⟨_, hP.rel_negate hb⟩
  join c xs hxs := by
    obtain ⟨bs, hbs⟩ := exists_rel_of_ifAny hxs
    exact ifAny_iff_rel.2 ⟨_, hP.rel_join c hbs⟩
  combine c f x hf hx := by
    obtain ⟨b, hb⟩ := ifAny_iff_rel.1 hf
    obtain ⟨d, hd⟩ := ifAny_iff_rel.1 hx
    rw [Filter.form_combine]
    exact ifAny_iff_rel.2 ⟨_, hP.rel_join c (.cons hd (.cons hb .nil))⟩

namespace Program

mutual

/-- Whether a program uses the builders alone, and every comparison names a field. -/
def isBuilt : Program → Bool
  | absent => true
  | form _ | text _ | wrap _ => false
  | compare fields _ _ | compareSpelled fields _ _ => !fields.isEmpty
  | negate p => isBuilt p
  | join _ ps => allBuilt ps
  | extend _ existing incoming => isBuilt existing && isBuilt incoming
  | instead dropped p => isBuilt dropped && isBuilt p

def allBuilt : List Program → Bool
  | [] => true
  | p :: ps => isBuilt p && allBuilt ps

end

variable {holds : Predicate → Bool} {R : Form → Bool → Prop}

theorem result_runCompare (fields : List String) (c : Comparison) (values : List Value) :
    (runCompare fields c values).result = .ok (Form.compare fields c values) := by
  simp only [runCompare]
  split <;> rfl

theorem rel_runCompare (hR : KeptByBuilders holds R) {fields : List String} (hf : fields ≠ [])
    (c : Comparison) (values : List Value) {x : Option Form}
    (h : (runCompare fields c values).result = .ok x) :
    Option.Rel R x (evalCompare holds fields c values) := by
  rw [result_runCompare] at h
  cases h
  exact hR.rel_compare hf c values

mutual

/-- By induction on the program, one case a builder. -/
theorem rel_run (hR : KeptByBuilders holds R) : ∀ (p : Program) {x : Option Form}, p.isBuilt →
    p.run.result = .ok x → Option.Rel R x (p.eval holds)
  | absent, _, _, h => by
    cases h
    exact .none
  | form _, _, hp, _ | text _, _, hp, _ | wrap _, _, hp, _ => by cases hp
  | compare fields c values, x, hp, h => by
    rw [isBuilt] at hp
    exact rel_runCompare hR (by simpa using hp) c values h
  | compareSpelled fields operator values, x, hp, h => by
    rw [isBuilt] at hp
    rw [run] at h
    rw [eval]
    cases ho : Comparison.ofSpelling? operator with
    | none => rw [ho] at h; cases h
    | some c =>
      rw [ho] at h
      exact rel_runCompare hR (by simpa using hp) c values h
  | negate p, x, hp, h => by
    obtain ⟨y, hy, h⟩ := Run.result_bind_eq_ok.1 h
    cases h
    exact hR.rel_negate (rel_run hR p hp hy)
  | join c ps, x, hp, h => by
    obtain ⟨ys, hys, h⟩ := Run.result_bind_eq_ok.1 h
    cases h
    exact hR.rel_join c (rel_runAll hR ps hp hys)
  | extend c existing incoming, x, hp, h => by
    rw [isBuilt, Bool.and_eq_true] at hp
    obtain ⟨y, hy, h⟩ := Run.result_bind_eq_ok.1 h
    obtain ⟨z, hz, h⟩ := Run.result_bind_eq_ok.1 h
    cases h
    rw [Filter.form_combine]
    -- What comes in stands before what is there.
    exact hR.rel_join c
      (.cons (rel_run hR incoming hp.2 hz) (.cons (rel_run hR existing hp.1 hy) .nil))
  | instead dropped p, x, hp, h => by
    rw [isBuilt, Bool.and_eq_true] at hp
    obtain ⟨_, _, h⟩ := Run.result_bind_eq_ok.1 h
    exact rel_run hR p hp.2 h

theorem rel_runAll (hR : KeptByBuilders holds R) : ∀ (ps : List Program) {xs : List (Option Form)},
    allBuilt ps → (runAll ps).result = .ok xs →
      List.Forall₂ (Option.Rel R) xs (evalAll holds ps)
  | [], xs, _, h => by
    cases h
    exact .nil
  | p :: ps, xs, hp, h => by
    rw [allBuilt, Bool.and_eq_true] at hp
    obtain ⟨y, hy, h⟩ := Run.result_bind_eq_ok.1 h
    obtain ⟨ys, hys, h⟩ := Run.result_bind_eq_ok.1 h
    cases h
    exact .cons (rel_run hR p hp.1 hy) (rel_runAll hR ps hp.2 hys)

end
end Program
end FilterAlgebra

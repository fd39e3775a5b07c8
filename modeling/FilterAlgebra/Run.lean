import FilterAlgebra.Failure
import FilterAlgebra.Operator

namespace FilterAlgebra

inductive Event where
  | noValues (c : Comparison)
  | tooDeep (depth limit : Nat)
  | parsing (depth triples : Nat)
  | normalized (form : String)
  | outlined (predicates : Nat)
  | assembled (tree : String)
  | parsed (leaves depth : Nat)
deriving DecidableEq, Repr

namespace Event

inductive Level where
  | trace | debug | warn
deriving DecidableEq, Repr

def level : Event → Level
  | noValues _ => .trace
  | tooDeep _ _ => .warn
  | _ => .debug

def fields : Event → List (String × String)
  | noValues c =>
    [("message", "no values; comparison contributes nothing"), ("operator", c.spelling)]
  | tooDeep depth limit =>
    [("message", "filter rejected: nesting too deep"), ("depth", toString depth),
      ("limit", toString limit)]
  | parsing depth triples =>
    [("message", "parsing filter"), ("depth", toString depth), ("triples", toString triples)]
  | normalized form => [("stage", "normalize"), ("ir", form)]
  | outlined predicates => [("stage", "materialize"), ("predicates", toString predicates)]
  | assembled tree => [("stage", "assemble"), ("tree", tree)]
  | parsed leaves depth =>
    [("message", "filter parsed"), ("leaves", toString leaves), ("depth", toString depth)]

end Event

/-- What a run has logged, and how it ended. -/
structure Run (α : Type) where
  log : List Event
  result : Except Failure α

namespace Run

def fail (f : Failure) : Run α := ⟨[], .error f⟩

def emit (e : Event) : Run Unit := ⟨[e], .ok ()⟩

def andThen (r : Run α) (f : α → Run β) : Run β :=
  match r.result with
  | .error e => ⟨r.log, .error e⟩
  | .ok a => ⟨r.log ++ (f a).log, (f a).result⟩

instance : Monad Run where
  pure a := ⟨[], .ok a⟩
  bind := andThen

/-- A step that logs nothing. -/
def ofExcept (x : Except Failure α) : Run α := ⟨[], x⟩

theorem ofExcept_ok_bind (a : α) (f : α → Run β) : ofExcept (.ok a) >>= f = f a := rfl

theorem result_bind (r : Run α) (f : α → Run β) :
    (r >>= f).result = r.result >>= fun a => (f a).result := by
  change (r.andThen f).result = _
  rw [andThen]
  cases r.result <;> rfl

theorem result_bind_eq_ok {r : Run α} {f : α → Run β} {b : β} :
    (r >>= f).result = .ok b ↔ ∃ a, r.result = .ok a ∧ (f a).result = .ok b := by
  rw [result_bind]
  cases r.result <;> simp [bind, Except.bind]

end Run
end FilterAlgebra

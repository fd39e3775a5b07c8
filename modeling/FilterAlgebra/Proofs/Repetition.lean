import Mathlib.Algebra.Group.Nat.Even
import Mathlib.Data.Nat.Bits
import Mathlib.Logic.Function.Iterate
import FilterAlgebra.Proofs.DeMorgan

namespace FilterAlgebra.Form

def inList (x : Form) : Form := list [x]

/-- The items of a list that holds one list and nothing else. -/
def enclosed (items : List Form) : List Form := [list items]

theorem iterate_inList (n : ℕ) (items : List Form) :
    inList^[n] (list items) = list (enclosed^[n] items) := by
  have h : Function.Semiconj list enclosed inList := fun _ => rfl
  exact ((h.iterate_right n).eq items).symm

theorem iterate_negate (n : ℕ) (items : List Form) :
    negate^[n] (some (list items)) = some (list (marked^[n] items)) := by
  have h : Function.Semiconj (fun items => some (list items)) marked negate := fun _ => rfl
  exact ((h.iterate_right n).eq items).symm

theorem normalItems_iterate_marked (inverse : Bool) (n : ℕ) (items : List Form) :
    normalItems inverse (marked^[n] items) =
      enclosed^[n] (normalItems (inverse ^^ n.bodd) items) := by
  induction n generalizing inverse with
  | zero => simp
  | succ n ih =>
    rw [Function.iterate_succ_apply', normalItems_marked, ih, Function.iterate_succ_apply',
      enclosed, Nat.bodd_succ, Bool.not_xor, Bool.xor_not]

/-- What does not see one list around another does not see any number of them. -/
theorem eq_of_iterate_enclosed {α : Type} {f : List Form → α}
    (hf : ∀ items, f [list items] = f items) (n : ℕ) (items : List Form) :
    f (enclosed^[n] items) = f items := by
  induction n with
  | zero => rfl
  | succ n ih => rw [Function.iterate_succ_apply', enclosed, hf, ih]

/-- Lists with the same normal form inside any number of lists ask the same. -/
theorem asksSame_of_enclosed {xs ys items : List Form} {m n : ℕ}
    (hx : normalItems false xs = enclosed^[m] items)
    (hy : normalItems false ys = enclosed^[n] items) : AsksSame (list xs) (list ys) := by
  have hleaves (k : ℕ) : (Tree.node (enclosed^[k] items)).leaves = (Tree.node items).leaves :=
    eq_of_iterate_enclosed (f := fun l => (Tree.node l).leaves) Tree.leaves_node_singleton k items
  have htruth (holds : Predicate → Bool) (k : ℕ) :
      (Tree.node (enclosed^[k] items)).eval holds = (Tree.node items).eval holds :=
    eq_of_iterate_enclosed (f := fun l => (Tree.node l).eval holds)
      (Tree.eval_node_singleton holds) k items
  have hnamed (k : ℕ) :
      fieldsExpressible (list (enclosed^[k] items)) = fieldsExpressible (list items) :=
    eq_of_iterate_enclosed (f := fun l => fieldsExpressible (list l)) fieldsExpressible_singleton k
      items
  apply asksSame_of_node
  · rw [hx, hy, hleaves, hleaves]
  · intro holds
    rw [hx, hy, htruth, htruth]
  · rw [hx, hy, hnamed, hnamed]

theorem normalItems_marked_twice (k r : ℕ) (items : List Form) :
    normalItems false (marked^[2 * k + r] items) =
      enclosed^[2 * k] (normalItems false (marked^[r] items)) := by
  rw [normalItems_iterate_marked, normalItems_iterate_marked, ← Function.iterate_add_apply]
  simp

theorem normalize_marked_twice (k r : ℕ) (items : List Form) :
    normalize (list (marked^[2 * k + r] items)) =
      inList^[2 * k] (normalize (list (marked^[r] items))) := by
  rw [normalize_list, normalize_list, normalItems_marked_twice, iterate_inList]

theorem asksSame_marked_twice (k r : ℕ) (items : List Form) :
    AsksSame (list (marked^[2 * k + r] items)) (list (marked^[r] items)) :=
  asksSame_of_enclosed (n := 0) (normalItems_marked_twice k r items) rfl

/-- Whatever stands in a list, an even number of negations leaves its normal form and an odd number
that of its negation, in one list for each of the others, and what is asked is the same. -/
theorem negation_repeated (items : List Form) (n : ℕ) : ∃ y z,
    negate^[n] (some (list items)) = some y ∧ negate (some (list items)) = some z ∧
      y.normalize =
        (if Even n then inList^[n] (normalize (list items)) else inList^[n - 1] z.normalize) ∧
      AsksSame y (if Even n then list items else z) := by
  refine ⟨_, _, iterate_negate n items, rfl, ?_⟩
  obtain ⟨k, rfl | rfl⟩ := Nat.even_or_odd' n
  · rw [if_pos (even_two_mul k), if_pos (even_two_mul k)]
    exact ⟨normalize_marked_twice k 0 items, asksSame_marked_twice k 0 items⟩
  · have hodd : ¬ Even (2 * k + 1) := Nat.not_even_two_mul_add_one k
    rw [if_neg hodd, if_neg hodd]
    exact ⟨normalize_marked_twice k 1 items, asksSame_marked_twice k 1 items⟩

/-- The third mark is the one that is seen. -/
example : negate^[3] (some (triple "a" .less (.int 1))) = some (list [token .not,
      list [token .not, list [token .not, triple "a" .less (.int 1)]]]) ∧
    normalize (list [token .not, list [token .not, list [token .not,
      triple "a" .less (.int 1)]]]) = inList^[3] (triple "a" .atLeast (.int 1)) :=
  ⟨rfl, by cbv⟩

end FilterAlgebra.Form

import FilterAlgebra.Proofs.Brackets
import FilterAlgebra.Proofs.Settled

namespace FilterAlgebra.Json

variable {α β ι σ : Type} {l : Layout} {depth : Nat} {g rest : List Char}

theorem allBlank_nil : AllBlank [] := by simp [AllBlank]

theorem stops_cons {c : Char} (hc : carriesOn c = false) (t : List Char) : Stops (c :: t) := by
  simpa [Stops] using hc

theorem carriesOn_of_isBlank {c : Char} (hc : isBlank c) : carriesOn c = false := by
  simp only [isBlank, Bool.or_eq_true, beq_iff_eq] at hc
  rcases hc with ((rfl | rfl) | rfl) | rfl <;> decide

theorem stops_append {c : Char} (hg : AllBlank g) (hc : carriesOn c = false) (t : List Char) :
    Stops (g ++ c :: t) := by
  cases g with
  | nil => exact stops_cons hc t
  | cons b g => exact stops_cons (carriesOn_of_isBlank (hg b (by simp))) _

theorem stops_writeItems (hl : l.Blank) {d : Nat} (xs : List Json) (r : List Char) :
    Stops (writeItems l depth xs (l.gap d ++ ']' :: r)) := by
  cases xs with
  | nil => exact stops_append (hl.gap d) (by decide) r
  | cons x xs => exact stops_cons (by decide) _

theorem stops_writeMembers (hl : l.Blank) {d : Nat} (ms : List (String × Json)) (r : List Char) :
    Stops (writeMembers l depth ms (l.gap d ++ '}' :: r)) := by
  cases ms with
  | nil => exact stops_append (hl.gap d) (by decide) r
  | cons m ms => exact stops_cons (by decide) _

theorem opensItem_of_startsNumeral {c : Char} (hc : startsNumeral c) : opensItem c := by
  simp only [opensItem, isBlank, Bool.and_eq_true, Bool.not_eq_true', Bool.or_eq_false_iff,
    beq_eq_false_iff_ne, bne_iff_ne]
  refine ⟨⟨⟨⟨⟨⟨⟨?_, ?_⟩, ?_⟩, ?_⟩, ?_⟩, ?_⟩, ?_⟩, ?_⟩ <;> rintro rfl <;> exact absurd hc (by decide)

theorem spell_append_eq_cons {n : Numeral} (hn : n.WellFormed) (rest : List Char) :
    ∃ c t, n.spell ++ rest = c :: t ∧ opensItem c ∧ c ≠ 'n' := by
  obtain ⟨c, t, h, hc⟩ := spell_eq_cons hn
  refine ⟨c, t ++ rest, by rw [h]; rfl, opensItem_of_startsNumeral hc, ?_⟩
  rintro rfl
  exact absurd hc (by decide)

/-- Only what is read as null begins the way null does. -/
theorem write_eq_cons (l : Layout) (depth : Nat) (j : Json) (rest : List Char) :
    ∃ c t, write l depth j rest = c :: t ∧ opensItem c ∧ (j.settled ≠ null → c ≠ 'n') := by
  cases j with
  | null => exact ⟨'n', _, rfl, by decide, fun h => absurd rfl h⟩
  | bool b => cases b <;> exact ⟨_, _, rfl, by decide, fun _ => by decide⟩
  | int n =>
    obtain ⟨c, t, h, hc, hn⟩ := spell_append_eq_cons (wellFormed_ofInt n) rest
    rw [spell_ofInt] at h
    exact ⟨c, t, h, hc, fun _ => hn⟩
  | float x =>
    by_cases hx : x.isFinite
    · obtain ⟨n, hn, hspell, -⟩ := Binary64.exists_numeral hx
      obtain ⟨c, t, h, hc, hn⟩ := spell_append_eq_cons hn rest
      exact ⟨c, t, by rw [write, if_pos hx, ← hspell, h], hc, fun _ => hn⟩
    · rw [write, settled, if_neg hx, if_neg hx]
      exact ⟨'n', _, rfl, by decide, fun h => absurd rfl h⟩
  | text s => exact ⟨'"', _, rfl, by decide, fun _ => by decide⟩
  | array xs => cases xs <;> exact ⟨'[', _, rfl, by decide, fun _ => by decide⟩
  | object ms => cases ms <;> exact ⟨'{', _, rfl, by decide, fun _ => by decide⟩

theorem startsItem_write (j : Json) : StartsItem (write l depth j rest) := by
  obtain ⟨c, t, h, hc, -⟩ := write_eq_cons l depth j rest
  exact ⟨c, t, h, hc⟩

theorem skipBlanks_write (hg : AllBlank g) (j : Json) :
    skipBlanks (g ++ write l depth j rest) = write l depth j rest :=
  skipBlanks_of_startsItem hg (startsItem_write j)

/-- The reader ends with `a` on the text of `j`, blanks before it or not, and stops behind it. -/
def Reads (l : Layout) (p : Reader α) (j : Json) (a : Except Fault α) : Prop :=
  ∀ g depth rest, AllBlank g → Stops rest →
    p.run (g ++ write l depth j rest) = a.map fun a => (a, rest)

namespace Reads

theorem run {p : Reader α} {j : Json} {a : Except Fault α} (h : Reads l p j a) (depth : Nat)
    (hrest : Stops rest) : p.run (write l depth j rest) = a.map fun a => (a, rest) :=
  h [] depth rest allBlank_nil hrest

theorem check {p : Reader α} {j : Json} {a : Except Fault α} {b : Except Fault β}
    (h : Reads l p j a) {f : α → Except Fault β} (hf : a >>= f = b) : Reads l (p.check f) j b := by
  intro g depth rest hg hrest
  rw [← hf, Reader.check]
  dsimp only
  rw [h g depth rest hg hrest]
  cases a with
  | error e => rfl
  | ok a => cases hfa : f a <;> simp [Except.map, bind, Except.bind, hfa, pure, Except.pure]

theorem map {p : Reader α} {j : Json} {a : Except Fault α} (h : Reads l p j a) (f : α → β) :
    Reads l (p.map f) j (a.map f) :=
  h.check (by cases a <;> rfl)

theorem readAll {p : Reader α} {j : Json} {a : Except Fault α} (h : Reads l p j a)
    (depth : Nat) : p.readAll (.ofList (write l depth j [])) = a := by
  rw [Reader.readAll, String.toList_ofList, h.run depth stops_nil]
  cases a <;> rfl

end Reads

/-- What comes of something that needs room for `depth x` brackets and finds `room`. -/
def within (room : Nat) (depth : ι → Nat) (f : ι → α) (x : ι) : Except Fault α :=
  if depth x ≤ room then .ok (f x) else .error .malformed

section Within

variable {room : Nat} {n : ι → Nat} {f : ι → α} {x : ι}

theorem within_of_le (h : n x ≤ room) : within room n f x = .ok (f x) := if_pos h

theorem within_of_lt (h : room < n x) : within room n f x = .error .malformed :=
  if_neg (Nat.not_le_of_lt h)

theorem within_congr {κ : Type} {room' : Nat} {n' : κ → Nat} {f' : κ → α} {y : κ}
    (hn : n x ≤ room ↔ n' y ≤ room') (hf : f x = f' y) :
    within room n f x = within room' n' f' y := by
  rw [within, within, hf]
  exact if_congr hn rfl rfl

theorem within_bind {g : α → Except Fault β} {f' : ι → β} (hg : g (f x) = .ok (f' x)) :
    within room n f x >>= g = within room n f' x := by
  by_cases h : n x ≤ room
  · rw [within_of_le h, within_of_le h]
    exact hg
  · rw [within_of_lt (Nat.lt_of_not_le h), within_of_lt (Nat.lt_of_not_le h)]
    rfl

theorem within_map (g : α → β) : (within room n f x).map g = within room n (g ∘ f) x :=
  within_bind rfl

/-- Items find room together when each of them does. -/
theorem mapM_within {N : List ι → Nat} {G : List ι → List α} (hN : N [] = 0)
    (hNs : ∀ x xs, N (x :: xs) = max (n x) (N xs)) (hG : G [] = [])
    (hGs : ∀ x xs, G (x :: xs) = f x :: G xs) (xs : List ι) :
    xs.mapM (within room n f) = within room N G xs := by
  induction xs with
  | nil =>
    rw [within_of_le (by omega), hG]
    rfl
  | cons x xs ih =>
    -- The head comes first: if it does not find room, the rest is not looked at.
    have hcons := hNs x xs
    rw [List.mapM_cons, ih]
    by_cases hx : n x ≤ room
    · rw [within_of_le hx]
      by_cases hxs : N xs ≤ room
      · rw [within_of_le hxs, within_of_le (by omega), hGs]
        rfl
      · rw [within_of_lt (Nat.lt_of_not_le hxs), within_of_lt (by omega)]
        rfl
    · have hover : room < N (x :: xs) := by omega
      rw [within_of_lt (Nat.lt_of_not_le hx), within_of_lt hover]
      rfl

end Within

theorem itemsFrom_write (hl : l.Blank) {item : Reader α} {x : Json} {a : Except Fault α}
    (hx : Reads l item x a) {d : Nat} (xs : List Json) (r : List Char) :
    itemsFrom item (write l depth x (writeItems l depth xs (l.gap d ++ ']' :: r))) = do
      let a ← a
      let (as, u) ← items item false (writeItems l depth xs (l.gap d ++ ']' :: r))
      return (a :: as, u) := by
  rw [itemsFrom, hx.run depth (stops_writeItems hl xs r)]
  cases a <;> rfl

theorem items_writeItems (hl : l.Blank) {item : Reader α} {f : ι → Except Fault α} {d : Nat}
    (toJson : ι → Json) {xs : List ι} (hxs : ∀ x ∈ xs, Reads l item (toJson x) (f x))
    (r : List Char) :
    items item false (writeItems l depth (xs.map toJson) (l.gap d ++ ']' :: r)) =
      (xs.mapM f).map fun as => (as, r) := by
  induction xs with
  | nil =>
    rw [List.map_nil, writeItems, items_done (hl.gap d)]
    rfl
  | cons x xs ih =>
    rw [List.map_cons, writeItems, List.cons_append,
      items_of_nextItem (nextItem_next (hl.gap depth) (startsItem_write (toJson x))),
      itemsFrom_write hl (hxs x (by simp)), ih fun y hy => hxs y (by simp [hy]), List.mapM_cons]
    cases f x <;> cases xs.mapM f <;> rfl

/-- The items of an array are read one by one, and the first that fails decides. -/
theorem items_array (hl : l.Blank) {item : Reader α} {f : ι → Except Fault α}
    (toJson : ι → Json) {xs : List ι} (hxs : ∀ x ∈ xs, Reads l item (toJson x) (f x))
    (depth : Nat) (rest : List Char) :
    ∃ t, write l depth (array (xs.map toJson)) rest = '[' :: t ∧
      items item true t = (xs.mapM f).map fun as => (as, rest) := by
  cases xs with
  | nil => exact ⟨']' :: rest, rfl, items_done allBlank_nil⟩
  | cons x xs =>
    refine ⟨_, rfl, ?_⟩
    rw [List.append_eq, items_of_nextItem (nextItem_first (hl.gap _) (startsItem_write (toJson x))),
      itemsFrom_write hl (hxs x (by simp)),
      items_writeItems hl toJson fun y hy => hxs y (by simp [hy]), List.mapM_cons]
    cases f x <;> cases xs.mapM f <;> rfl

theorem membersFrom_write (hl : l.Blank) {value : String → σ → Except Fault (Reader σ)}
    {k : String} {x : Json} {acc : σ} {p : Reader σ} {a : Except Fault σ}
    (hp : value k acc = .ok p) (hx : Reads l p x a) {d : Nat} (ms : List (String × Json))
    (r : List Char) :
    membersFrom .keep value k acc
      (l.afterColon ++ write l depth x (writeMembers l depth ms (l.gap d ++ '}' :: r))) =
      a >>= fun acc' =>
        members .keep value false acc' (writeMembers l depth ms (l.gap d ++ '}' :: r)) := by
  rw [membersFrom, hp]
  dsimp only [bind, Except.bind]
  rw [hx _ depth _ hl.afterColon (stops_writeMembers hl ms r)]
  cases a <;> rfl

theorem members_cons (hl : l.Blank) {value : String → σ → Except Fault (Reader σ)}
    {k : String} {x : Json} {acc : σ} {p : Reader σ} {a : Except Fault σ}
    (hp : value k acc = .ok p) (hx : Reads l p x a) {d : Nat} (ms : List (String × Json))
    (r : List Char) :
    members .keep value false acc
      (writeMembers l depth ((k, x) :: ms) (l.gap d ++ '}' :: r)) =
      a >>= fun acc' =>
        members .keep value false acc' (writeMembers l depth ms (l.gap d ++ '}' :: r)) := by
  rw [← membersFrom_write hl hp hx, writeMembers]
  simp only [List.append_assoc, List.cons_append, quote_append]
  exact members_of_nextKey (nextKey_next (hl.gap depth))

theorem members_end (hl : l.Blank) {value : String → σ → Except Fault (Reader σ)} {acc : σ}
    {d : Nat} (r : List Char) :
    members .keep value false acc (writeMembers l depth [] (l.gap d ++ '}' :: r)) = .ok (acc, r) :=
  members_done (hl.gap d)

/-- The members of an object are read one by one as well, and the first one like a later one, but
for the comma. -/
theorem members_front (hl : l.Blank) (value : String → σ → Except Fault (Reader σ)) (acc : σ)
    (ms : List (String × Json)) (depth : Nat) (rest : List Char) :
    ∃ t, write l depth (object ms) rest = '{' :: t ∧
      members .keep value true acc t =
        members .keep value false acc
          (writeMembers l (depth + 1) ms (l.gap depth ++ '}' :: rest)) := by
  cases ms with
  | nil => exact ⟨'}' :: rest, rfl, (members_done allBlank_nil).trans (members_end hl rest).symm⟩
  | cons m ms =>
    refine ⟨_, rfl, ?_⟩
    rw [writeMembers]
    simp only [List.append_eq, List.append_assoc, List.cons_append, quote_append]
    rw [members_of_nextKey (nextKey_first (hl.gap _)), members_of_nextKey (nextKey_next (hl.gap _))]

end FilterAlgebra.Json

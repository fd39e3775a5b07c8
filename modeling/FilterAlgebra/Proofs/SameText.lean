import FilterAlgebra.Proofs.Document

namespace FilterAlgebra.Json

variable {l : Layout} {depth : Nat} {rest : List Char} {j k : Json}

/-- Documents with one text are read alike, and reading stops in the same place. -/
theorem eq_of_write_eq (hl : l.Blank) (hj : j.Writable) (hk : k.Writable) {rest' : List Char}
    (hrest : Stops rest) (hrest' : Stops rest')
    (h : write l depth j rest = write l depth k rest') :
    j.reread.settled = k.reread.settled ∧ rest = rest' := by
  have hread := (reads_document hl j hj (max j.nesting k.nesting)).run depth hrest
  have hread' := (reads_document hl k hk (max j.nesting k.nesting)).run depth hrest'
  rw [kept, within_of_le (le_max_left _ _)] at hread
  rw [kept, within_of_le (le_max_right _ _), ← h, hread] at hread'
  simpa [Except.map] using hread'

/-- Apart from numbers, a document without brackets is all that has its text. -/
theorem settled_eq_of_flat (hfloat : ∀ x, j ≠ float x) (harray : ∀ xs, j ≠ array xs)
    (hobject : ∀ ms, j ≠ object ms) (h : j = k.reread.settled) : j = k.settled := by
  cases k with
  | float y =>
    rw [settled_reread_float] at h
    rw [settled]
    split at h
    · exact absurd h (hfloat _)
    · next hy => rw [if_neg hy, h]
  | array ys => exact absurd h (harray _)
  | object ns => exact absurd h (hobject _)
  | _ => exact h

theorem settled_float_eq {x : Binary64}
    (hread : (float x).reread.settled = k.reread.settled)
    (h : write l depth (float x) rest = write l depth k rest) : (float x).settled = k.settled := by
  rw [settled_reread_float] at hread
  by_cases hx : x.isFinite
  · rw [if_pos hx] at hread
    cases k with
    | float y =>
      have hy : y.isFinite := by
        by_contra hy
        rw [settled_reread_float, if_neg hy] at hread
        cases hread
      rw [write, write, if_pos hx, if_pos hy, List.append_cancel_right_eq] at h
      rw [Binary64.numeral_inj hx hy h]
    | _ => cases hread
  · rw [if_neg hx] at hread
    rw [settled, if_neg hx]
    exact settled_eq_of_flat nofun nofun nofun hread

theorem exists_array {xs : List Json} (h : (array xs).reread.settled = k.reread.settled) :
    ∃ ys, k = array ys := by
  cases k with
  | array ys => exact ⟨ys, rfl⟩
  | float y =>
    rw [settled_reread_float] at h
    split at h <;> cases h
  | _ => cases h

theorem exists_object {ms : List (String × Json)}
    (h : (object ms).reread.settled = k.reread.settled) : ∃ ns, k = object ns := by
  cases k with
  | object ns => exact ⟨ns, rfl⟩
  | float y =>
    rw [settled_reread_float] at h
    split at h <;> cases h
  | _ => cases h

mutual

/-- Reading finds the parts of a text but may take one number for another, which then have numerals
of their own. -/
theorem settled_eq_of_reread (hl : l.Blank) {depth : Nat} {rest : List Char} :
    (j k : Json) → j.Writable → k.Writable → j.reread.settled = k.reread.settled →
      write l depth j rest = write l depth k rest → j.settled = k.settled
  | null, _, _, _, hread, _ | bool _, _, _, _, hread, _ | int _, _, _, _, hread, _
  | text _, _, _, _, hread, _ => settled_eq_of_flat nofun nofun nofun hread
  | float _, _, _, _, hread, h => settled_float_eq hread h
  | array xs, k, hj, hk, hread, h => by
    obtain ⟨ys, rfl⟩ := exists_array hread
    rw [reread, reread, settled, settled, array.injEq] at hread
    rw [settled, settled]
    match xs, ys with
    | [], [] => rfl
    | [], y :: ys => cases hread
    | x :: xs, [] => cases hread
    | x :: xs, y :: ys =>
      -- The items behind the bracket are written like items behind a comma.
      have hitems := congrArg (',' :: ·) (List.cons.inj h).2
      rw [settledItems_eq_of_reread hl (x :: xs) (y :: ys) hj hk hread hitems]
  | object ms, k, hj, hk, hread, h => by
    obtain ⟨ns, rfl⟩ := exists_object hread
    rw [reread, reread, settled, settled, object.injEq] at hread
    rw [settled, settled]
    match ms, ns with
    | [], [] => rfl
    | [], n :: ns => cases hread
    | m :: ms, [] => cases hread
    | m :: ms, n :: ns =>
      have hmembers := congrArg (',' :: ·) (List.cons.inj h).2
      rw [settledMembers_eq_of_reread hl (m :: ms) (n :: ns) hj hk hread hmembers]

theorem settledItems_eq_of_reread (hl : l.Blank) {depth d : Nat} {rest : List Char} :
    (xs ys : List Json) → WritableItems xs → WritableItems ys →
      settledItems (rereadItems xs) = settledItems (rereadItems ys) →
      writeItems l depth xs (l.gap d ++ ']' :: rest) =
        writeItems l depth ys (l.gap d ++ ']' :: rest) → settledItems xs = settledItems ys
  | [], [], _, _, _, _ => rfl
  | [], _ :: _, _, _, hread, _ | _ :: _, [], _, _, hread, _ => nomatch hread
  | x :: xs, y :: ys, hxs, hys, hread, h => by
    rw [rereadItems, rereadItems, settledItems, settledItems, List.cons.injEq] at hread
    rw [writeItems, writeItems, List.cons_append, List.cons_append, List.cons.injEq,
      List.append_cancel_left_eq] at h
    obtain ⟨-, hrest⟩ := eq_of_write_eq hl hxs.1 hys.1 (stops_writeItems hl xs rest)
      (stops_writeItems hl ys rest) h.2
    have hitem := h.2
    rw [hrest] at hitem
    rw [settledItems, settledItems, settled_eq_of_reread hl x y hxs.1 hys.1 hread.1 hitem,
      settledItems_eq_of_reread hl xs ys hxs.2 hys.2 hread.2 hrest]

theorem settledMembers_eq_of_reread (hl : l.Blank) {depth d : Nat} {rest : List Char} :
    (ms ns : List (String × Json)) → WritableMembers ms → WritableMembers ns →
      settledMembers (rereadMembers ms) = settledMembers (rereadMembers ns) →
      writeMembers l depth ms (l.gap d ++ '}' :: rest) =
        writeMembers l depth ns (l.gap d ++ '}' :: rest) → settledMembers ms = settledMembers ns
  | [], [], _, _, _, _ => rfl
  | [], _ :: _, _, _, hread, _ | _ :: _, [], _, _, hread, _ => nomatch hread
  | (k, x) :: ms, (k', y) :: ns, hms, hns, hread, h => by
    rw [rereadMembers, rereadMembers, settledMembers, settledMembers, List.cons.injEq,
      Prod.mk.injEq] at hread
    obtain ⟨⟨rfl, hvalue⟩, htail⟩ := hread
    have hitem : write l depth x (writeMembers l depth ms (l.gap d ++ '}' :: rest)) =
        write l depth y (writeMembers l depth ns (l.gap d ++ '}' :: rest)) := by
      simpa [writeMembers] using h
    obtain ⟨-, hrest⟩ := eq_of_write_eq hl hms.1 hns.1 (stops_writeMembers hl ms rest)
      (stops_writeMembers hl ns rest) hitem
    rw [hrest] at hitem
    rw [settledMembers, settledMembers, settled_eq_of_reread hl x y hms.1 hns.1 hvalue hitem,
      settledMembers_eq_of_reread hl ms ns hms.2 hns.2 htail hrest]

end

/-- A text is the text of one settled document only. -/
theorem compact_eq_iff (hj : j.Writable) (hk : k.Writable) :
    j.compact = k.compact ↔ j.settled = k.settled := by
  rw [compact, compact, String.ofList_inj]
  constructor
  · intro h
    obtain ⟨hread, -⟩ := eq_of_write_eq blank_compact hj hk stops_nil stops_nil h
    exact settled_eq_of_reread blank_compact j k hj hk hread h
  · intro h
    rw [← write_settled, h, write_settled]

end FilterAlgebra.Json

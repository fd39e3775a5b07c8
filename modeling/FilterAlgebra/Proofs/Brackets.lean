import FilterAlgebra.Proofs.Quoting

namespace FilterAlgebra.Json

variable {α σ : Type} {first : Bool} {g w r : List Char}

/-- What a written item starts with: neither a blank nor a character that belongs to brackets. -/
def opensItem (c : Char) : Bool :=
  !isBlank c && c != ']' && c != '}' && c != ',' && c != ':'

def StartsItem (w : List Char) : Prop := ∃ c t, w = c :: t ∧ opensItem c

theorem skipBlanks_of_startsItem (hg : AllBlank g) (hw : StartsItem w) :
    skipBlanks (g ++ w) = w := by
  obtain ⟨c, t, rfl, hc⟩ := hw
  simp only [opensItem, Bool.and_eq_true, Bool.not_eq_true'] at hc
  rw [skipBlanks_append hg, skipBlanks_cons hc.1.1.1.1]

theorem nextItem_first (hg : AllBlank g) (hw : StartsItem w) :
    nextItem true (g ++ w) = .ok (.item w) := by
  rw [nextItem, skipBlanks_of_startsItem hg hw]
  obtain ⟨c, t, rfl, hc⟩ := hw
  split
  · next h => cases h
  · next h => rw [(List.cons.inj h).1] at hc; exact absurd hc (by decide)
  · next h => rw [if_pos rfl, ← h]

/-- Behind a comma there must be an item. -/
theorem nextItem_comma (s : List Char) : nextItem false (',' :: s) =
    match skipBlanks s with
    | [] => .error .truncated
    | ']' :: _ => .error .malformed
    | t => .ok (.item t) := by
  rw [nextItem, skipBlanks_cons (by decide)]
  rfl

theorem nextItem_next (hg : AllBlank g) (hw : StartsItem w) :
    nextItem false (',' :: (g ++ w)) = .ok (.item w) := by
  rw [nextItem_comma, skipBlanks_of_startsItem hg hw]
  obtain ⟨c, t, rfl, hc⟩ := hw
  split
  · next h => cases h
  · next h => rw [(List.cons.inj h).1] at hc; exact absurd hc (by decide)
  · rfl

theorem nextItem_done (hg : AllBlank g) : nextItem first (g ++ ']' :: r) = .ok (.done r) := by
  rw [nextItem, skipBlanks_append hg, skipBlanks_cons (by decide)]
  rfl

def itemsFrom (item : Reader α) (w : List Char) : Except Fault (List α × List Char) := do
  let (a, u) ← item.run w
  let (as, r) ← items item false u
  return (a :: as, r)

theorem items_of_nextItem {item : Reader α} {s : List Char}
    (h : nextItem first s = .ok (.item w)) : items item first s = itemsFrom item w := by
  -- The loop asks for the next item itself, so the answers that `h` excludes go first.
  rw [items.eq_def, itemsFrom]
  split
  · next hn => rw [h] at hn; cases hn
  · next hn => rw [h] at hn; cases hn
  · next hn =>
    rw [h] at hn
    cases hn
    split
    · next ha => rw [ha]; rfl
    · next ha => dsimp only; rw [ha]; rfl

theorem items_done {item : Reader α} (hg : AllBlank g) :
    items item first (g ++ ']' :: r) = .ok ([], r) := by
  have h : nextItem first (g ++ ']' :: r) = .ok (.done r) := nextItem_done hg
  rw [items.eq_def]
  split
  · next hn => rw [h] at hn; cases hn
  · next hn => rw [h] at hn; cases hn; rfl
  · next hn => rw [h] at hn; cases hn

theorem nextKey_first (hg : AllBlank g) : nextKey true (g ++ '"' :: w) = .ok (.item w) := by
  rw [nextKey, skipBlanks_append hg, skipBlanks_cons (by decide)]
  rfl

theorem nextKey_comma (s : List Char) : nextKey false (',' :: s) =
    match skipBlanks s with
    | [] => .error .truncated
    | '"' :: t => .ok (.item t)
    | _ => .error .malformed := by
  rw [nextKey, skipBlanks_cons (by decide)]
  rfl

theorem nextKey_next (hg : AllBlank g) :
    nextKey false (',' :: (g ++ '"' :: w)) = .ok (.item w) := by
  rw [nextKey_comma, skipBlanks_append hg, skipBlanks_cons (by decide)]
  rfl

theorem nextKey_done (hg : AllBlank g) : nextKey first (g ++ '}' :: r) = .ok (.done r) := by
  rw [nextKey, skipBlanks_append hg, skipBlanks_cons (by decide)]
  rfl

theorem colon_cons (w : List Char) : colon (':' :: w) = .ok w := by
  rw [colon, skipBlanks_cons (by decide)]
  rfl

def membersFrom (scan : Scan) (value : String → σ → Except Fault (Reader σ)) (key : String)
    (acc : σ) (w : List Char) : Except Fault (σ × List Char) := do
  let p ← value key acc
  let (acc', r) ← p.run w
  members scan value false acc' r

theorem members_of_nextKey {value : String → σ → Except Fault (Reader σ)} {key : String} {acc : σ}
    {s : List Char}
    (h : nextKey first s = .ok (.item (key.toList.flatMap escape ++ '"' :: ':' :: w))) :
    members .keep value first acc s = membersFrom .keep value key acc w := by
  -- `members` matches on equations it needs to recurse, so each match is split and compared with
  -- what is known of it.
  rw [members.eq_def, membersFrom]
  split
  · next hn => rw [h] at hn; cases hn
  · next hn => rw [h] at hn; cases hn
  · next hn =>
    rw [h] at hn
    cases hn
    have hk := unquote_flatMap_escape key.toList (':' :: w)
    split
    · next hk' => rw [hk] at hk'; cases hk'
    · next hk' =>
      rw [hk] at hk'
      cases hk'
      rw [String.ofList_toList]
      cases value key acc with
      | error f => rfl
      | ok p =>
        dsimp only
        split
        · next hc => rw [colon_cons] at hc; cases hc
        · next hc =>
          rw [colon_cons] at hc
          cases hc
          dsimp only [bind, Except.bind]
          split
          · next ha => rw [ha]
          · next ha => rw [ha]

theorem members_done {scan : Scan} {value : String → σ → Except Fault (Reader σ)} {acc : σ}
    (hg : AllBlank g) : members scan value first acc (g ++ '}' :: r) = .ok (acc, r) := by
  have h : nextKey first (g ++ '}' :: r) = .ok (.done r) := nextKey_done hg
  rw [members.eq_def]
  split
  · next hn => rw [h] at hn; cases hn
  · next hn => rw [h] at hn; cases hn; rfl
  · next hn => rw [h] at hn; cases hn

end FilterAlgebra.Json

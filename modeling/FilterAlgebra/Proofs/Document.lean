import FilterAlgebra.Proofs.Reads

namespace FilterAlgebra.Json

variable {l : Layout} {room depth : Nat} {g rest : List Char}

/-- What comes of a document that is read where `room` more brackets may open. -/
abbrev kept (room : Nat) : Json → Except Fault Json := within room nesting fun j => j.reread.settled

theorem readValue_append (scan : Scan) (inner : Reader Json) (hg : AllBlank g) (s : List Char) :
    readValue scan room inner (g ++ s) = readValue scan room inner s := by
  rw [readValue, readValue, skipBlanks_append hg]

theorem readValue_startsNumeral (scan : Scan) (inner : Reader Json) {c : Char}
    (hc : startsNumeral c) (t : List Char) :
    readValue scan room inner (c :: t) = number scan (c :: t) := by
  have hblank : isBlank c = false := by
    have := opensItem_of_startsNumeral hc
    simp only [opensItem, Bool.and_eq_true, Bool.not_eq_true'] at this
    exact this.1.1.1.1
  rw [readValue, skipBlanks_cons hblank]
  -- The head of a numeral is none of the letters, quotes and brackets that are looked for first.
  split
  case h_1 hs => cases hs
  case h_8 hs => rw [← hs, if_pos (by rw [← (List.cons.inj hs).1]; exact hc)]
  all_goals
    next hs =>
      rw [(List.cons.inj hs).1] at hc
      exact absurd hc (by decide)

theorem readValue_numeral {n : Numeral} (hn : n.WellFormed) {j : Json} (hj : n.toJson = .ok j)
    (inner : Reader Json) (hrest : Stops rest) :
    readValue .keep room inner (n.spell ++ rest) = .ok (j, rest) := by
  have hnum := number_spell hn hj hrest
  obtain ⟨c, t, h, hc⟩ := spell_eq_cons hn
  rw [h, List.cons_append] at hnum ⊢
  rw [readValue_startsNumeral .keep inner hc, hnum]

theorem readValue_quote (scan : Scan) (inner : Reader Json) (t : List Char) :
    readValue scan room inner ('"' :: t) =
      (unquote scan t).map fun p => (text (.ofList p.1), p.2) := by
  rw [readValue, skipBlanks_cons (by decide)]
  cases h : unquote scan t <;> simp [h, Except.map, bind, Except.bind, pure, Except.pure]

theorem readValue_text (s : String) (inner : Reader Json) :
    readValue .keep room inner (quote s ++ rest) = .ok (text s, rest) := by
  rw [quote_append, readValue_quote, unquote_flatMap_escape, Except.map, String.ofList_toList]

theorem readValue_array (scan : Scan) (inner : Reader Json) (t : List Char) :
    readValue scan room inner ('[' :: t) =
      if room = 0 then .error .malformed
      else (items inner true t).map fun p => (array p.1, p.2) := by
  rw [readValue, skipBlanks_cons (by decide)]
  cases h : items inner true t <;> simp [h, Except.map, bind, Except.bind, pure, Except.pure]

theorem readValue_object (scan : Scan) (inner : Reader Json) (t : List Char) :
    readValue scan room inner ('{' :: t) =
      if room = 0 then .error .malformed
      else (members scan (fun k acc => .ok (inner.map fun x => (k, x) :: acc)) true [] t).map
        fun p => (object p.1.reverse, p.2) := by
  rw [readValue, skipBlanks_cons (by decide)]
  cases h : members scan (fun k acc => .ok (inner.map fun x => (k, x) :: acc)) true [] t <;>
    simp [h, Except.map, bind, Except.bind, pure, Except.pure]

theorem reads_flat {j : Json} (hj : j.nesting = 0)
    (h : ∀ inner depth rest, Stops rest →
      readValue .keep room inner (write l depth j rest) = .ok (j.reread.settled, rest)) :
    Reads l (document .keep room) j (kept room j) := by
  intro g depth rest hg hrest
  rw [kept, within_of_le (by omega)]
  cases room with
  | zero => exact (readValue_append .keep .refuse hg _).trans (h _ depth rest hrest)
  | succ room =>
    exact (readValue_append .keep (document .keep room) hg _).trans (h _ depth rest hrest)

theorem reads_number {n : Numeral} (hn : n.WellFormed) {j : Json} (hj : j.nesting = 0)
    (htext : ∀ depth rest, write l depth j rest = n.spell ++ rest)
    (hread : n.toJson = .ok j.reread.settled) : Reads l (document .keep room) j (kept room j) := by
  apply reads_flat hj
  intro inner depth rest hrest
  rw [htext, readValue_numeral hn hread inner hrest]

theorem reads_no_room {j : Json} (hj : 0 < j.nesting) :
    Reads l (document .keep 0) j (kept 0 j) := by
  intro g depth rest hg _
  rw [kept, within_of_lt (by omega)]
  refine (readValue_append .keep .refuse hg _).trans ?_
  cases j with
  | array xs => cases xs <;> rfl
  | object ms => cases ms <;> rfl
  | _ => cases hj

theorem kept_array (xs : List Json) (room : Nat) :
    kept (room + 1) (array xs) = (xs.mapM (kept room)).map array := by
  rw [mapM_within (N := nestingOfItems) (G := settledItems ∘ rereadItems) rfl (fun _ _ => rfl) rfl
    fun _ _ => rfl, within_map]
  exact within_congr Nat.add_le_add_iff_right rfl

/-- What comes of a member, the value of which `f` decides. -/
def withKey (f : Json → Except Fault Json) (m : String × Json) : Except Fault (String × Json) :=
  (f m.2).map (Prod.mk m.1)

theorem kept_object (ms : List (String × Json)) (room : Nat) :
    kept (room + 1) (object ms) = (ms.mapM (withKey (kept room))).map object := by
  have hmember : withKey (kept room) =
      within room (·.2.nesting) fun m => (m.1, m.2.reread.settled) := by
    funext m
    exact within_map (Prod.mk m.1)
  rw [hmember, mapM_within (N := nestingOfMembers) (G := settledMembers ∘ rereadMembers) rfl
    (fun _ _ => rfl) rfl fun _ _ => rfl, within_map]
  exact within_congr Nat.add_le_add_iff_right rfl

/-- How the members of any document are collected, the last one first. -/
def collect (inner : Reader Json) (k : String) (acc : List (String × Json)) :
    Except Fault (Reader (List (String × Json))) :=
  .ok (inner.map fun x => (k, x) :: acc)

theorem members_collect (hl : l.Blank) {inner : Reader Json} {f : Json → Except Fault Json}
    {d : Nat} {ms : List (String × Json)} (hms : ∀ m ∈ ms, Reads l inner m.2 (f m.2))
    (acc : List (String × Json)) (r : List Char) :
    members .keep (collect inner) false acc (writeMembers l depth ms (l.gap d ++ '}' :: r)) =
      (ms.mapM (withKey f)).map fun ms' => (ms'.reverse ++ acc, r) := by
  induction ms generalizing acc with
  | nil =>
    rw [members_end hl]
    rfl
  | cons m ms ih =>
    obtain ⟨k, x⟩ := m
    have hx := (hms (k, x) (by simp)).map fun x => (k, x) :: acc
    rw [members_cons hl rfl hx, List.mapM_cons, withKey]
    cases f x with
    | error e => rfl
    | ok y =>
      have hrest := ih (fun m hm => hms m (by simp [hm])) ((k, y) :: acc)
      simp only [Except.map, bind, Except.bind] at hrest ⊢
      rw [hrest]
      cases ms.mapM (withKey f) <;> simp [pure, Except.pure]

theorem readValue_writeObject (hl : l.Blank) {inner : Reader Json} {f : Json → Except Fault Json}
    {ms : List (String × Json)} (hms : ∀ m ∈ ms, Reads l inner m.2 (f m.2)) (room depth : Nat)
    (rest : List Char) :
    readValue .keep (room + 1) inner (write l depth (object ms) rest) =
      (ms.mapM (withKey f)).map fun ms' => (object ms', rest) := by
  obtain ⟨t, ht, hread⟩ := members_front hl (collect inner) [] ms depth rest
  rw [ht, readValue_object, if_neg (Nat.succ_ne_zero room)]
  change (members .keep (collect inner) true [] t).map _ = _
  rw [hread, members_collect hl hms]
  cases ms.mapM (withKey f) <;> simp [Except.map]

theorem readValue_writeArray (hl : l.Blank) {inner : Reader Json} {f : Json → Except Fault Json}
    {xs : List Json} (hxs : ∀ x ∈ xs, Reads l inner x (f x)) (room depth : Nat)
    (rest : List Char) :
    readValue .keep (room + 1) inner (write l depth (array xs) rest) =
      (xs.mapM f).map fun xs' => (array xs', rest) := by
  obtain ⟨t, ht, hread⟩ := items_array hl id hxs depth rest
  rw [List.map_id] at ht
  rw [ht, readValue_array, if_neg (Nat.succ_ne_zero room), hread]
  cases xs.mapM f <;> rfl

mutual

theorem reads_document (hl : l.Blank) : (j : Json) → j.Writable → (room : Nat) →
    Reads l (document .keep room) j (kept room j)
  | null, _, _ => reads_flat rfl fun _ _ _ _ => rfl
  | bool true, _, _ => reads_flat rfl fun _ _ _ _ => rfl
  | bool false, _, _ => reads_flat rfl fun _ _ _ _ => rfl
  | int n, hn, _ =>
    reads_number (wellFormed_ofInt n) rfl (fun _ _ => by rw [spell_ofInt]; rfl) (toJson_ofInt hn)
  | float x, _, room => by
    by_cases hx : x.isFinite
    · obtain ⟨n, hn, hspell, hread, -⟩ := Binary64.exists_numeral hx
      refine reads_number hn rfl (fun _ _ => ?_) ?_
      · rw [write, if_pos hx, hspell]
      · rw [settled_reread_float, if_pos hx, hread]
    · apply reads_flat rfl
      intro inner depth rest _
      rw [write, settled_reread_float, if_neg hx, if_neg hx]
      rfl
  | text s, _, _ => reads_flat rfl fun inner _ _ _ => readValue_text s inner
  | array xs, _, 0 => reads_no_room (Nat.succ_pos _)
  | array xs, hxs, room + 1 => by
    intro g depth rest hg _
    -- One bracket is open now, so the items find one less.
    have hread := readValue_writeArray hl (reads_items hl xs hxs room) room depth rest
    rw [kept_array]
    refine (readValue_append .keep (document .keep room) hg _).trans (hread.trans ?_)
    cases xs.mapM (kept room) <;> rfl
  | object ms, _, 0 => reads_no_room (Nat.succ_pos _)
  | object ms, hms, room + 1 => by
    intro g depth rest hg _
    have hread := readValue_writeObject hl (reads_members hl ms hms room) room depth rest
    rw [kept_object]
    refine (readValue_append .keep (document .keep room) hg _).trans (hread.trans ?_)
    cases ms.mapM (withKey (kept room)) <;> rfl

theorem reads_items (hl : l.Blank) : (xs : List Json) → WritableItems xs → (room : Nat) →
    ∀ x ∈ xs, Reads l (document .keep room) x (kept room x)
  | [], _, _ => List.forall_mem_nil _
  | x :: xs, h, room =>
    List.forall_mem_cons.2 ⟨reads_document hl x h.1 room, reads_items hl xs h.2 room⟩

theorem reads_members (hl : l.Blank) : (ms : List (String × Json)) → WritableMembers ms →
    (room : Nat) → ∀ m ∈ ms, Reads l (document .keep room) m.2 (kept room m.2)
  | [], _, _ => List.forall_mem_nil _
  | (_, x) :: ms, h, room =>
    List.forall_mem_cons.2 ⟨reads_document hl x h.1 room, reads_members hl ms h.2 room⟩

end

end FilterAlgebra.Json

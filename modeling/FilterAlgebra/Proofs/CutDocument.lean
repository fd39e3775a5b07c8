import FilterAlgebra.Proofs.CutNumeral
import FilterAlgebra.Proofs.Document

namespace FilterAlgebra.Json

variable {α σ : Type} {l : Layout} {depth room : Nat} {first : Bool} {g s t w : List Char}

theorem word_cutOff (h : CutOff s w) : word w s = .error .truncated := by
  induction w generalizing s with
  | nil => exact absurd h not_cutOff_nil
  | cons c w ih =>
    rcases cutOff_cons.1 h with rfl | ⟨t, rfl, ht⟩
    · rfl
    · rw [word, if_pos rfl, ih ht]

theorem unquote_nil (scan : Scan) : unquote scan [] = .error .truncated := by
  rw [unquote.eq_def]

theorem unquote_escaped_error {scan : Scan} {f : Fault} (h : escaped scan t = .error f) :
    unquote scan ('\\' :: t) = .error f := by
  rw [unquote.eq_def]
  split
  · next hs => cases hs
  · next hs => exact absurd (List.cons.inj hs).1 (by decide)
  · next hs =>
    obtain rfl := (List.cons.inj hs).2
    split
    · next hf => rw [h] at hf; cases hf; rfl
    · next hu => rw [h] at hu; cases hu
  · next hb hs => exact absurd (List.cons.inj hs).1.symm hb

theorem unquote_cutOff_pair {c : Char} (h : CutOff s ['\\', c]) :
    unquote .keep s = .error .truncated := by
  rcases cutOff_cons.1 h with rfl | ⟨t, rfl, ht⟩
  · exact unquote_nil .keep
  rcases cutOff_cons.1 ht with rfl | ⟨u, -, hu⟩
  · exact unquote_escaped_error rfl
  · exact absurd hu not_cutOff_nil

/-- Fewer than four digits are too few, whatever they are. -/
theorem hexUnit_control_cutOff {n : Nat} (hn : n < 32)
    (h : CutOff s ['0', '0', Nat.digitChar (n / 16), Nat.digitChar (n % 16)]) :
    hexUnit s = .error .truncated := by
  rcases cutOff_cons.1 h with rfl | ⟨t, rfl, ht⟩
  · rfl
  rcases cutOff_cons.1 ht with rfl | ⟨u, rfl, hu⟩
  · rfl
  rcases cutOff_cons.1 hu with rfl | ⟨v, rfl, hv⟩
  · rfl
  rcases cutOff_cons.1 hv with rfl | ⟨w, -, hw⟩
  · have hthird : ∀ n < 32, hexUnit ['0', '0', Nat.digitChar (n / 16)] = .error .truncated := by
      decide
    exact hthird n hn
  · exact absurd hw not_cutOff_nil

theorem unquote_cutOff_escape {c : Char} (h : CutOff s (escape c)) :
    unquote .keep s = .error .truncated := by
  have hspelled := spelledInString_escape c
  generalize escape c = w at hspelled h
  cases hspelled with
  | letter hd hletter => exact unquote_cutOff_pair h
  | control hc =>
    rcases cutOff_cons.1 h with rfl | ⟨t, rfl, ht⟩
    · exact unquote_nil .keep
    rcases cutOff_cons.1 ht with rfl | ⟨u, rfl, hu⟩
    · exact unquote_escaped_error rfl
    · apply unquote_escaped_error
      rw [escaped, codeEscape, hexUnit_control_cutOff hc hu]
      rfl
  | plain hq hb hc =>
    rcases cutOff_cons.1 h with rfl | ⟨t, -, ht⟩
    · exact unquote_nil .keep
    · exact absurd ht not_cutOff_nil

theorem unquote_cutOff {cs : List Char} (h : CutOff s (cs.flatMap escape ++ ['"'])) :
    unquote .keep s = .error .truncated := by
  induction cs generalizing s with
  | nil =>
    rcases cutOff_cons.1 h with rfl | ⟨t, -, ht⟩
    · exact unquote_nil .keep
    · exact absurd ht not_cutOff_nil
  | cons c cs ih =>
    rw [List.flatMap_cons, List.append_assoc] at h
    rcases cutOff_append.1 h with hc | ⟨t, rfl, ht⟩
    · exact unquote_cutOff_escape hc
    · rw [unquote_escape, ih ht]
      rfl

theorem skipBlanks_of_allBlank (hg : AllBlank g) : skipBlanks g = [] := by
  have h := skipBlanks_append hg []
  rwa [List.append_nil] at h

/-- A cut leaves blanks and a part of what stands behind them. -/
theorem exists_of_cutOff_blanks (hg : AllBlank g) (hw : w ≠ []) (h : CutOff s (g ++ w)) :
    ∃ g' t, AllBlank g' ∧ s = g' ++ t ∧ CutOff t w := by
  rcases cutOff_append.1 h with hs | ⟨t, rfl, ht⟩
  · exact ⟨s, [], fun c hc => hg c (hs.1.subset hc), (List.append_nil s).symm, List.nil_prefix,
      hw.symm⟩
  · exact ⟨g, t, hg, rfl, ht⟩

theorem StartsItem.ne_nil (h : StartsItem w) : w ≠ [] := by
  obtain ⟨c, t, rfl, -⟩ := h
  exact List.cons_ne_nil c t

theorem CutOff.startsItem (h : CutOff t w) (hw : StartsItem w) (ht : t ≠ []) : StartsItem t := by
  obtain ⟨c, u, rfl, hc⟩ := hw
  rcases cutOff_cons.1 h with rfl | ⟨v, rfl, -⟩
  · exact absurd rfl ht
  · exact ⟨c, v, rfl, hc⟩

theorem Stops.of_cutOff (hw : Stops w) (h : CutOff t w) : Stops t := by
  cases w with
  | nil => exact absurd h not_cutOff_nil
  | cons c w =>
    rcases cutOff_cons.1 h with rfl | ⟨u, rfl, -⟩
    · exact stops_nil
    · exact stops_cons (hw c rfl) u

theorem skipBlanks_cutOff_close {c : Char} (hg : AllBlank g) (h : CutOff s (g ++ [c])) :
    skipBlanks s = [] := by
  obtain ⟨g', t, hg', rfl, ht⟩ := exists_of_cutOff_blanks hg (List.cons_ne_nil c []) h
  rcases cutOff_cons.1 ht with rfl | ⟨u, -, hu⟩
  · rw [List.append_nil, skipBlanks_of_allBlank hg']
  · exact absurd hu not_cutOff_nil

mutual

theorem write_append (l : Layout) (depth : Nat) :
    (j : Json) → (rest : List Char) → write l depth j rest = write l depth j [] ++ rest
  | null, _ | bool _, _ | int _, _ | text _, _ | float _, _ => by
    rw [write, write, List.append_nil]
  | array [], _ | object [], _ => rfl
  | array (x :: xs), rest => by
    rw [write, write, write_append l (depth + 1) x, writeItems_append l (depth + 1) xs,
      write_append l (depth + 1) x (writeItems _ _ _ _),
      writeItems_append l (depth + 1) xs (_ ++ [']'])]
    simp
  | object ((k, x) :: ms), rest => by
    rw [write, write, write_append l (depth + 1) x, writeMembers_append l (depth + 1) ms,
      write_append l (depth + 1) x (writeMembers _ _ _ _),
      writeMembers_append l (depth + 1) ms (_ ++ ['}'])]
    simp

theorem writeItems_append (l : Layout) (depth : Nat) : (xs : List Json) → (rest : List Char) →
    writeItems l depth xs rest = writeItems l depth xs [] ++ rest
  | [], _ => rfl
  | x :: xs, rest => by
    rw [writeItems, writeItems, write_append l depth x, writeItems_append l depth xs rest,
      write_append l depth x (writeItems _ _ _ _)]
    simp

theorem writeMembers_append (l : Layout) (depth : Nat) :
    (ms : List (String × Json)) → (rest : List Char) →
      writeMembers l depth ms rest = writeMembers l depth ms [] ++ rest
  | [], _ => rfl
  | (k, x) :: ms, rest => by
    rw [writeMembers, writeMembers, write_append l depth x, writeMembers_append l depth ms rest,
      write_append l depth x (writeMembers _ _ _ _)]
    simp

end

/-- However the text of `j` is cut, the reader meets the end, and misses something or takes what is
left for a value with the property. -/
def MayMiss (l : Layout) (p : Reader α) (P : α → Prop) (j : Json) : Prop :=
  ∀ g depth s, AllBlank g → CutOff s (g ++ write l depth j []) → MeetsEnd P (p.run s)

/-- However the text of `j` is cut, the reader misses something. -/
def Misses (l : Layout) (p : Reader α) (j : Json) : Prop :=
  ∀ g depth s, AllBlank g → CutOff s (g ++ write l depth j []) → p.run s = .error .truncated

section Readers

variable {β : Type} {P : α → Prop} {Q : β → Prop} {p : Reader α} {j : Json} {a : α}

theorem Misses.mayMiss (h : Misses l p j) (P : α → Prop) : MayMiss l p P j :=
  fun g depth s hg hs => .inl (h g depth s hg hs)

theorem MayMiss.check (h : MayMiss l p P j) {f : α → Except Fault β}
    (hf : ∀ a, P a → ∃ b, f a = .ok b ∧ Q b) : MayMiss l (p.check f) Q j := by
  intro g depth s hg hs
  rw [Reader.check]
  dsimp only
  rcases h g depth s hg hs with h | ⟨a, ha, h⟩
  · exact .inl (by rw [h]; rfl)
  · obtain ⟨b, hb, hQ⟩ := hf a ha
    refine .inr ⟨b, hQ, ?_⟩
    rw [h]
    dsimp only [bind, Except.bind]
    rw [hb]
    rfl

theorem MayMiss.map (h : MayMiss l p P j) {f : α → β} (hf : ∀ a, P a → Q (f a)) :
    MayMiss l (p.map f) Q j :=
  h.check fun a ha => ⟨f a, rfl, hf a ha⟩

theorem Misses.check (h : Misses l p j) (f : α → Except Fault β) : Misses l (p.check f) j := by
  intro g depth s hg hs
  rw [Reader.check]
  dsimp only
  rw [h g depth s hg hs]
  rfl

theorem Misses.readAll (h : Misses l p j) {s : String} (depth : Nat)
    (hs : CutOff s.toList (write l depth j [])) : p.readAll s = .error .truncated := by
  rw [Reader.readAll, h [] depth s.toList allBlank_nil hs]
  rfl

/-- The cut is in the document in front, or the document is read and the cut is behind it. -/
theorem MayMiss.front (h : MayMiss l p P j) (hread : Reads l p j (.ok a)) (hg : AllBlank g)
    (hw : Stops w) (hs : CutOff s (g ++ write l depth j w)) :
    MeetsEnd P (p.run s) ∨ ∃ t, CutOff t w ∧ p.run s = .ok (a, t) := by
  rw [write_append, ← List.append_assoc] at hs
  rcases cutOff_append.1 hs with hs | ⟨t, rfl, ht⟩
  · exact .inl (h g depth s hg hs)
  · rw [List.append_assoc, ← write_append]
    exact .inr ⟨t, ht, hread g depth t hg (hw.of_cutOff ht)⟩

end Readers

theorem nextItem_of_blank (h : skipBlanks s = []) : nextItem first s = .error .truncated := by
  rw [nextItem, h]

theorem items_of_nextItem_error {item : Reader α} {f : Fault} (h : nextItem first s = .error f) :
    items item first s = .error f := by
  rw [items.eq_def]
  split
  · next hn => rw [h] at hn; cases hn; rfl
  · next hn => rw [h] at hn; cases hn
  · next hn => rw [h] at hn; cases hn

theorem items_of_blank {item : Reader α} (h : skipBlanks s = []) :
    items item first s = .error .truncated :=
  items_of_nextItem_error (nextItem_of_blank h)

/-- An item that is read whole, and may be missed when it is cut. -/
structure Survives (l : Layout) (item : Reader α) (P : α → Prop) (x : Json) (a : α) : Prop where
  reads : Reads l item x (.ok a)
  mayMiss : MayMiss l item P x

/-- Either the item ends the text, or it is read and the cut is behind it. In both cases the bracket
is never closed. -/
theorem itemsFrom_cutOff {item : Reader α} {P : α → Prop} {x : Json} {a : α}
    (hx : Survives l item P x a) {tail : List Char} (hstops : Stops tail)
    (htail : ∀ t, CutOff t tail → items item false t = .error .truncated)
    (hs : CutOff s (write l depth x tail)) : itemsFrom item s = .error .truncated := by
  rw [itemsFrom]
  rcases hx.mayMiss.front hx.reads allBlank_nil hstops hs with (h | ⟨b, -, h⟩) | ⟨t, ht, h⟩
  · rw [h]
    rfl
  · have hend : items item false [] = .error .truncated := items_of_blank rfl
    simp only [h, hend, bind, Except.bind]
  · simp only [h, htail t ht, bind, Except.bind]

theorem items_cutOff (hl : l.Blank) {item : Reader α} {P : α → Prop} {d : Nat} {xs : List Json}
    (hxs : ∀ x ∈ xs, ∃ a, Survives l item P x a)
    (hs : CutOff s (writeItems l depth xs (l.gap d ++ [']']))) :
    items item false s = .error .truncated := by
  induction xs generalizing s with
  | nil => exact items_of_blank (skipBlanks_cutOff_close (hl.gap d) hs)
  | cons x xs ih =>
    obtain ⟨⟨a, hx⟩, hrest⟩ := List.forall_mem_cons.1 hxs
    rcases cutOff_cons.1 hs with rfl | ⟨u, rfl, hu⟩
    · exact items_of_blank rfl
    have hstarts : StartsItem (write l depth x (writeItems l depth xs (l.gap d ++ [']']))) :=
      startsItem_write x
    obtain ⟨g, v, hg, rfl, hv⟩ := exists_of_cutOff_blanks (hl.gap depth) hstarts.ne_nil hu
    -- If nothing is left of the item, the comma before it has nothing behind it.
    by_cases hne : v = []
    · apply items_of_nextItem_error
      rw [nextItem_comma, hne, List.append_nil, skipBlanks_of_allBlank hg]
    · rw [items_of_nextItem (nextItem_next hg (hv.startsItem hstarts hne))]
      exact itemsFrom_cutOff hx (stops_writeItems hl xs []) (fun t ht => ih hrest ht) hv

/-- The closing bracket is part of the text, so no cut leaves an array. -/
theorem items_array_cutOff (hl : l.Blank) {item : Reader α} {P : α → Prop} {xs : List Json}
    (hxs : ∀ x ∈ xs, ∃ a, Survives l item P x a)
    (hs : CutOff s (write l depth (array xs) [])) :
    s = [] ∨ ∃ t, s = '[' :: t ∧ items item true t = .error .truncated := by
  cases xs with
  | nil =>
    rcases cutOff_cons.1 hs with rfl | ⟨t, rfl, ht⟩
    · exact .inl rfl
    · refine .inr ⟨t, rfl, items_of_blank (skipBlanks_cutOff_close allBlank_nil ht)⟩
  | cons x xs =>
    obtain ⟨⟨a, hx⟩, hrest⟩ := List.forall_mem_cons.1 hxs
    rcases cutOff_cons.1 hs with rfl | ⟨t, rfl, ht⟩
    · exact .inl rfl
    refine .inr ⟨t, rfl, ?_⟩
    have hstarts : StartsItem (write l (depth + 1) x
        (writeItems l (depth + 1) xs (l.gap depth ++ [']']))) := startsItem_write x
    obtain ⟨g, v, hg, rfl, hv⟩ := exists_of_cutOff_blanks (hl.gap (depth + 1)) hstarts.ne_nil ht
    -- A cut before the first item leaves an open bracket with blanks behind it.
    by_cases hne : v = []
    · apply items_of_blank
      rw [hne, List.append_nil, skipBlanks_of_allBlank hg]
    · rw [items_of_nextItem (nextItem_first hg (hv.startsItem hstarts hne))]
      exact itemsFrom_cutOff hx (stops_writeItems hl xs [])
        (fun t ht => items_cutOff hl hrest ht) hv

section Members

variable {value : String → σ → Except Fault (Reader σ)} {key : String} {acc : σ} {p : Reader σ}
  {P : σ → Prop}

theorem nextKey_of_blank (h : skipBlanks s = []) : nextKey first s = .error .truncated := by
  rw [nextKey, h]

theorem members_of_nextKey_error {f : Fault} (h : nextKey first s = .error f) :
    members .keep value first acc s = .error f := by
  rw [members.eq_def]
  split
  · next hn => rw [h] at hn; cases hn; rfl
  · next hn => rw [h] at hn; cases hn
  · next hn => rw [h] at hn; cases hn

theorem members_of_blank (h : skipBlanks s = []) :
    members .keep value first acc s = .error .truncated :=
  members_of_nextKey_error (nextKey_of_blank h)

theorem members_of_openKey (hn : nextKey first s = .ok (.item t))
    (hk : unquote .keep t = .error .truncated) :
    members .keep value first acc s = .error .truncated := by
  rw [members.eq_def]
  split
  · next hn' => rw [hn] at hn'; cases hn'
  · next hn' => rw [hn] at hn'; cases hn'
  · next hn' =>
    rw [hn] at hn'
    cases hn'
    split
    · next hk' => rw [hk] at hk'; cases hk'; rfl
    · next hk' => rw [hk] at hk'; cases hk'

theorem members_of_bareKey (hn : nextKey first s = .ok (.item t))
    (hk : unquote .keep t = .ok (key.toList, [])) (hp : value key acc = .ok p) :
    members .keep value first acc s = .error .truncated := by
  rw [members.eq_def]
  split
  · next hn' => rw [hn] at hn'; cases hn'
  · next hn' => rw [hn] at hn'; cases hn'
  · next hn' =>
    rw [hn] at hn'
    cases hn'
    split
    · next hk' => rw [hk] at hk'; cases hk'
    · next hk' =>
      rw [hk] at hk'
      cases hk'
      rw [String.ofList_toList, hp]
      rfl

/-- The cut is in the key, before its colon, or behind it. -/
theorem members_of_cutKey (hn : nextKey first s = .ok (.item t)) (hp : value key acc = .ok p)
    (ht : CutOff t (key.toList.flatMap escape ++ '"' :: ':' :: w))
    (hw : ∀ u, CutOff u w → membersFrom .keep value key acc u = .error .truncated) :
    members .keep value first acc s = .error .truncated := by
  rw [← List.singleton_append, ← List.append_assoc] at ht
  rcases cutOff_append.1 ht with hkey | ⟨u, rfl, hu⟩
  · exact members_of_openKey hn (unquote_cutOff hkey)
  rw [List.append_assoc, List.singleton_append] at hn
  rcases cutOff_cons.1 hu with rfl | ⟨v, rfl, hv⟩
  · exact members_of_bareKey hn (unquote_flatMap_escape key.toList []) hp
  · rw [members_of_nextKey hn, hw v hv]

/-- Members that follow others in an object which is never closed. -/
def MissesMembers (l : Layout) (value : String → σ → Except Fault (Reader σ)) (acc : σ)
    (ms : List (String × Json)) : Prop :=
  ∀ depth d s, CutOff s (writeMembers l depth ms (l.gap d ++ ['}'])) →
    members .keep value false acc s = .error .truncated

variable {x : Json} {a : σ} {ms : List (String × Json)}

theorem membersFrom_cutOff (hl : l.Blank) (hp : value key acc = .ok p) (hx : Survives l p P x a)
    (hms : MissesMembers l value a ms) {d : Nat}
    (hs : CutOff s (l.afterColon ++ write l depth x (writeMembers l depth ms (l.gap d ++ ['}'])))) :
    membersFrom .keep value key acc s = .error .truncated := by
  rw [membersFrom, hp]
  dsimp only [bind, Except.bind]
  rcases hx.mayMiss.front hx.reads hl.afterColon (stops_writeMembers hl ms []) hs with
    (h | ⟨b, -, h⟩) | ⟨t, ht, h⟩
  · rw [h]
  · rw [h]
    exact members_of_blank rfl
  · rw [h]
    exact hms depth d t ht

theorem missesMembers_nil (hl : l.Blank) : MissesMembers l value acc [] :=
  fun _ d _ hs => members_of_blank (skipBlanks_cutOff_close (hl.gap d) hs)

theorem missesMembers_cons (hl : l.Blank) (hp : value key acc = .ok p) (hx : Survives l p P x a)
    (hms : MissesMembers l value a ms) : MissesMembers l value acc ((key, x) :: ms) := by
  intro depth d s hs
  rw [writeMembers] at hs
  simp only [List.append_assoc, List.cons_append, quote_append] at hs
  rcases cutOff_cons.1 hs with rfl | ⟨u, rfl, hu⟩
  · exact members_of_blank rfl
  obtain ⟨g, v, hg, rfl, hv⟩ := exists_of_cutOff_blanks (hl.gap depth) (List.cons_ne_nil _ _) hu
  rcases cutOff_cons.1 hv with rfl | ⟨t, rfl, ht⟩
  · apply members_of_nextKey_error
    rw [nextKey_comma, List.append_nil, skipBlanks_of_allBlank hg]
  · exact members_of_cutKey (nextKey_next hg) hp ht fun u hu => membersFrom_cutOff hl hp hx hms hu

/-- The closing brace is part of the text, so no cut leaves an object. -/
theorem members_object_cutOff (hl : l.Blank) (hp : value key acc = .ok p) (hx : Survives l p P x a)
    (hms : MissesMembers l value a ms)
    (hs : CutOff s (write l depth (object ((key, x) :: ms)) [])) :
    s = [] ∨ ∃ t, s = '{' :: t ∧ members .keep value true acc t = .error .truncated := by
  rw [write] at hs
  simp only [List.append_assoc, List.cons_append, quote_append] at hs
  rcases cutOff_cons.1 hs with rfl | ⟨t, rfl, ht⟩
  · exact .inl rfl
  refine .inr ⟨t, rfl, ?_⟩
  obtain ⟨g, v, hg, rfl, hv⟩ :=
    exists_of_cutOff_blanks (hl.gap (depth + 1)) (List.cons_ne_nil _ _) ht
  rcases cutOff_cons.1 hv with rfl | ⟨u, rfl, hu⟩
  · exact members_of_blank (by rw [List.append_nil, skipBlanks_of_allBlank hg])
  · exact members_of_cutKey (nextKey_first hg) hp hu fun v hv => membersFrom_cutOff hl hp hx hms hv

end Members

theorem Survives.map {β : Type} {p : Reader α} {P : α → Prop} {Q : β → Prop} {x : Json} {a : α}
    (h : Survives l p P x a) {f : α → β} (hf : ∀ a, P a → Q (f a)) :
    Survives l (p.map f) Q x (f a) where
  reads := h.reads.map f
  mayMiss := h.mayMiss.map hf

/-- The words of a document begin with letters of their own. -/
theorem readValue_cutOff_word (inner : Reader Json) {b : Option Bool}
    (hs : CutOff s (b.elim nothing keyword)) :
    readValue .keep room inner s = .error .truncated := by
  rcases b with _ | _ | _
  all_goals
    rcases cutOff_cons.1 hs with rfl | ⟨t, rfl, ht⟩
    · rfl
    · simp [readValue, skipBlanks_cons, isBlank, word_cutOff ht, bind, Except.bind]

theorem readValue_cutOff_quote (inner : Reader Json) {k : String} (hs : CutOff s (quote k)) :
    readValue .keep room inner s = .error .truncated := by
  rcases cutOff_cons.1 hs with rfl | ⟨t, rfl, ht⟩
  · rfl
  · rw [readValue_quote, unquote_cutOff ht]
    rfl

theorem readValue_cutOff_numeral (inner : Reader Json) {n : Numeral} (hn : n.WellFormed)
    (hb : n.Bounded 3) (hs : CutOff s n.spell) :
    MeetsEnd IsFlat (readValue .keep room inner s) := by
  have hnumber := number_cutOff hn hb hs
  obtain ⟨c, t, h, hc⟩ := spell_eq_cons hn
  rw [h] at hs
  rcases cutOff_cons.1 hs with rfl | ⟨u, rfl, -⟩
  · exact .inl rfl
  · rwa [readValue_startsNumeral .keep inner hc]

theorem mayMiss_flat {j : Json} (h : ∀ inner depth s, CutOff s (write l depth j []) →
    MeetsEnd IsFlat (readValue .keep room inner s)) :
    MayMiss l (document .keep room) IsFlat j := by
  intro g depth s hg hs
  obtain ⟨g', t, hg', rfl, ht⟩ := exists_of_cutOff_blanks hg (startsItem_write j).ne_nil hs
  -- The room decides which reader stands ready for items, and none is asked.
  cases room with
  | zero =>
    have hread := h .refuse depth t ht
    rwa [← readValue_append .keep .refuse hg' t] at hread
  | succ room =>
    have hread := h (document .keep room) depth t ht
    rwa [← readValue_append .keep (document .keep room) hg' t] at hread

theorem misses_array (hl : l.Blank) {xs : List Json}
    (hxs : ∀ x ∈ xs, ∃ a, Survives l (document .keep room) IsFlat x a) :
    Misses l (document .keep (room + 1)) (array xs) := by
  intro g depth s hg hs
  obtain ⟨g', t, hg', rfl, ht⟩ := exists_of_cutOff_blanks hg (startsItem_write _).ne_nil hs
  refine (readValue_append .keep (document .keep room) hg' t).trans ?_
  rcases items_array_cutOff hl hxs ht with rfl | ⟨u, rfl, hu⟩
  · rfl
  · rw [readValue_array, if_neg (Nat.succ_ne_zero room), hu]
    rfl

theorem missesMembers_collect (hl : l.Blank) {inner : Reader Json} {P : Json → Prop}
    {ms : List (String × Json)} (hms : ∀ m ∈ ms, ∃ a, Survives l inner P m.2 a)
    (acc : List (String × Json)) : MissesMembers l (collect inner) acc ms := by
  induction ms generalizing acc with
  | nil => exact missesMembers_nil hl
  | cons m ms ih =>
    obtain ⟨⟨a, hm⟩, hrest⟩ := List.forall_mem_cons.1 hms
    exact missesMembers_cons hl rfl (hm.map (Q := fun _ => True) fun _ _ => trivial) (ih hrest _)

theorem misses_object (hl : l.Blank) {ms : List (String × Json)}
    (hms : ∀ m ∈ ms, ∃ a, Survives l (document .keep room) IsFlat m.2 a) :
    Misses l (document .keep (room + 1)) (object ms) := by
  intro g depth s hg hs
  obtain ⟨g', t, hg', rfl, ht⟩ := exists_of_cutOff_blanks hg (startsItem_write _).ne_nil hs
  refine (readValue_append .keep (document .keep room) hg' t).trans ?_
  have hcut : t = [] ∨ ∃ u, t = '{' :: u ∧
      members .keep (collect (document .keep room)) true [] u = .error .truncated := by
    cases ms with
    | nil =>
      rcases cutOff_cons.1 ht with rfl | ⟨u, rfl, hu⟩
      · exact .inl rfl
      · exact .inr ⟨u, rfl, members_of_blank (skipBlanks_cutOff_close allBlank_nil hu)⟩
    | cons m ms =>
      obtain ⟨⟨a, hm⟩, hrest⟩ := List.forall_mem_cons.1 hms
      exact members_object_cutOff hl rfl (hm.map (Q := fun _ => True) fun _ _ => trivial)
        (missesMembers_collect hl hrest _) ht
  rcases hcut with rfl | ⟨u, rfl, hu⟩
  · rfl
  · rw [readValue_object, if_neg (Nat.succ_ne_zero room)]
    change Except.map _ (members .keep (collect (document .keep room)) true [] u) = _
    rw [hu]
    rfl

theorem reads_settled (hl : l.Blank) {j : Json} (hj : j.Writable) (hroom : j.nesting ≤ room) :
    Reads l (document .keep room) j (.ok j.reread.settled) := by
  have h := reads_document hl j hj room
  rwa [kept, within_of_le hroom] at h

mutual

theorem mayMiss_document (hl : l.Blank) : (j : Json) → j.Writable → (room : Nat) →
    j.nesting ≤ room → MayMiss l (document .keep room) IsFlat j
  | null, _, _, _ =>
    mayMiss_flat fun inner _ s hs => .inl (readValue_cutOff_word inner (b := none) hs)
  | bool b, _, _, _ => by
    apply mayMiss_flat
    intro inner depth s hs
    rw [write, List.append_nil] at hs
    exact .inl (readValue_cutOff_word inner (b := some b) hs)
  | int n, hn, _, _ => by
    apply mayMiss_flat
    intro inner depth s hs
    rw [write, List.append_nil, ← spell_ofInt] at hs
    exact readValue_cutOff_numeral inner (wellFormed_ofInt n) (bounded_ofInt hn 3) hs
  | float x, _, _, _ => by
    apply mayMiss_flat
    intro inner depth s hs
    rw [write, List.append_nil] at hs
    by_cases hx : x.isFinite
    · obtain ⟨n, hn, hspell, -, -, hb⟩ := Binary64.exists_numeral hx
      rw [if_pos hx, ← hspell] at hs
      exact readValue_cutOff_numeral inner hn hb hs
    · -- A number that is not finite is written as `null`.
      rw [if_neg hx] at hs
      exact .inl (readValue_cutOff_word inner (b := none) hs)
  | text k, _, _, _ => by
    apply mayMiss_flat
    intro inner depth s hs
    rw [write, List.append_nil] at hs
    exact .inl (readValue_cutOff_quote inner hs)
  | array xs, hxs, room + 1, hroom => by
    have hitems := survives_items hl xs hxs room (Nat.le_of_succ_le_succ hroom)
    exact (misses_array hl hitems).mayMiss _
  | object ms, hms, room + 1, hroom => by
    have hmembers := survives_members hl ms hms room (Nat.le_of_succ_le_succ hroom)
    exact (misses_object hl hmembers).mayMiss _

theorem survives_items (hl : l.Blank) : (xs : List Json) → WritableItems xs → (room : Nat) →
    nestingOfItems xs ≤ room → ∀ x ∈ xs, ∃ a, Survives l (document .keep room) IsFlat x a
  | [], _, _, _ => List.forall_mem_nil _
  | x :: xs, h, room, hroom => by
    rw [nestingOfItems, max_le_iff] at hroom
    have hx : Survives l (document .keep room) IsFlat x x.reread.settled :=
      ⟨reads_settled hl h.1 hroom.1, mayMiss_document hl x h.1 room hroom.1⟩
    exact List.forall_mem_cons.2 ⟨⟨_, hx⟩, survives_items hl xs h.2 room hroom.2⟩

theorem survives_members (hl : l.Blank) : (ms : List (String × Json)) → WritableMembers ms →
    (room : Nat) → nestingOfMembers ms ≤ room →
      ∀ m ∈ ms, ∃ a, Survives l (document .keep room) IsFlat m.2 a
  | [], _, _, _ => List.forall_mem_nil _
  | (_, x) :: ms, h, room, hroom => by
    rw [nestingOfMembers, max_le_iff] at hroom
    have hx : Survives l (document .keep room) IsFlat x x.reread.settled :=
      ⟨reads_settled hl h.1 hroom.1, mayMiss_document hl x h.1 room hroom.1⟩
    exact List.forall_mem_cons.2 ⟨⟨_, hx⟩, survives_members hl ms h.2 room hroom.2⟩

end

end FilterAlgebra.Json

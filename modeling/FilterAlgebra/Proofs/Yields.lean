import FilterAlgebra.Json.Reader
import FilterAlgebra.Proofs.Settled

namespace FilterAlgebra.Json

variable {α β σ : Type} {room : Nat} {s r : List Char}

/-- Whatever the reader takes off the front of a text has the property. -/
def Reader.Yields (p : Reader α) (P : α → Prop) : Prop := ∀ ⦃s a r⦄, p.run s = .ok (a, r) → P a

namespace Reader

variable {P : α → Prop} {Q : β → Prop} {p : Reader α}

theorem yields_refuse (P : α → Prop) : (refuse : Reader α).Yields P := nofun

theorem Yields.check (hp : p.Yields P) {f : α → Except Fault β}
    (hf : ∀ {a b}, P a → f a = .ok b → Q b) : (p.check f).Yields Q := by
  intro s b r h
  obtain ⟨⟨a, t⟩, ha, h⟩ := bind_eq_ok.1 h
  obtain ⟨b, hb, h⟩ := bind_eq_ok.1 h
  cases h
  exact hf (hp ha) hb

theorem Yields.map (hp : p.Yields P) {f : α → β} (hf : ∀ {a}, P a → Q (f a)) :
    (p.map f).Yields Q :=
  Yields.check (f := fun a => .ok (f a)) hp fun ha hb => Except.ok.inj hb ▸ hf ha

theorem Yields.readAll (hp : p.Yields P) {s : String} {a : α} (h : p.readAll s = .ok a) : P a := by
  obtain ⟨⟨a, r⟩, ha, h⟩ := bind_eq_ok.1 h
  dsimp only at h
  split at h
  · cases h
    exact hp ha
  · cases h

end Reader

theorem forall_of_items {item : Reader α} {P : α → Prop} (hitem : item.Yields P) {first : Bool}
    {as : List α} (h : items item first s = .ok (as, r)) : ∀ a ∈ as, P a := by
  -- An item that has been taken leaves a shorter text, so the induction is on its length.
  induction hn : s.length using Nat.strongRecOn generalizing s first as with
  | ind n ih =>
    subst hn
    rw [items.eq_def] at h
    split at h
    · cases h
    · cases h
      exact List.forall_mem_nil P
    · next t hn =>
      split at h
      · cases h
      · next a u ha =>
        obtain ⟨⟨bs, v⟩, hb, h⟩ := bind_eq_ok.1 h
        cases h
        have := item.shorter ha
        have := length_of_nextItem hn
        simp only [Next.text] at this
        exact List.forall_mem_cons.2 ⟨hitem ha, ih _ (by omega) hb rfl⟩

/-- What every member keeps of what was read before it, all of them keep. -/
theorem of_members {scan : Scan} {value : String → σ → Except Fault (Reader σ)} {Q : σ → Prop}
    (hvalue : ∀ {k acc p}, Q acc → value k acc = .ok p → p.Yields Q) {first : Bool} {acc acc' : σ}
    (hacc : Q acc) (h : members scan value first acc s = .ok (acc', r)) : Q acc' := by
  induction hn : s.length using Nat.strongRecOn generalizing s first acc with
  | ind n ih =>
    subst hn
    rw [members.eq_def] at h
    split at h
    · cases h
    · cases h
      exact hacc
    · next t hn =>
      split at h
      · cases h
      · next k u hk =>
        split at h
        · cases h
        · next p hp =>
          split at h
          · cases h
          · next v hc =>
            split at h
            · cases h
            · next b w ha =>
              -- What is left is shorter by the key, the colon and the value.
              have := length_of_nextKey hn
              have := length_of_unquote hk
              have := length_of_colon hc
              have := p.shorter ha
              simp only [Next.text] at *
              exact ih _ (by omega) (hvalue hacc hp ha) h rfl

/-- A document that its text keeps whole, with at most `room` brackets inside one another. -/
structure Sound (room : Nat) (j : Json) : Prop where
  writable : j.Writable
  settled_eq : j.settled = j
  nesting_le : j.nesting ≤ room

theorem sound_array {xs : List Json} (hxs : ∀ x ∈ xs, Sound room x) :
    Sound (room + 1) (array xs) := by
  induction xs with
  | nil => exact ⟨trivial, rfl, Nat.succ_le_succ (Nat.zero_le room)⟩
  | cons x xs ih =>
    rw [List.forall_mem_cons] at hxs
    obtain ⟨hx, hrest⟩ := And.imp_right ih hxs
    have hsettled : settledItems xs = xs := by
      simpa only [settled, array.injEq] using hrest.settled_eq
    have hnesting : nestingOfItems xs ≤ room := Nat.le_of_succ_le_succ hrest.nesting_le
    refine ⟨⟨hx.writable, hrest.writable⟩, ?_, ?_⟩
    · rw [settled, settledItems, hx.settled_eq, hsettled]
    · rw [nesting, nestingOfItems]
      exact Nat.succ_le_succ (Nat.max_le.2 ⟨hx.nesting_le, hnesting⟩)

theorem sound_object {ms : List (String × Json)} (hms : ∀ m ∈ ms, Sound room m.2) :
    Sound (room + 1) (object ms) := by
  induction ms with
  | nil => exact ⟨trivial, rfl, Nat.succ_le_succ (Nat.zero_le room)⟩
  | cons m ms ih =>
    obtain ⟨k, x⟩ := m
    rw [List.forall_mem_cons] at hms
    obtain ⟨hx, hrest⟩ := And.imp_right ih hms
    have hsettled : settledMembers ms = ms := by
      simpa only [settled, object.injEq] using hrest.settled_eq
    have hnesting : nestingOfMembers ms ≤ room := Nat.le_of_succ_le_succ hrest.nesting_le
    refine ⟨⟨hx.writable, hrest.writable⟩, ?_, ?_⟩
    · rw [settled, settledMembers, hx.settled_eq, hsettled]
    · rw [nesting, nestingOfMembers]
      exact Nat.succ_le_succ (Nat.max_le.2 ⟨hx.nesting_le, hnesting⟩)

theorem fits_of_integer? {n : Numeral} {i : ℤ} (h : n.integer? = some i) : Fits i := by
  simp only [Numeral.integer?] at h
  split at h
  · cases h
  · split at h
    · split at h
      · cases h
        constructor <;> omega
      · cases h
    · split at h
      · cases h
        constructor <;> omega
      · cases h

/-- A number that is not finite is refused where it is read. -/
theorem sound_of_toJson {n : Numeral} {j : Json} (h : n.toJson = .ok j) : Sound room j := by
  rw [Numeral.toJson] at h
  split at h
  · next i hi =>
    cases h
    exact ⟨fits_of_integer? hi, rfl, Nat.zero_le room⟩
  · dsimp only at h
    split at h
    · next hx =>
      cases h
      have hfinite := Binary64.isFinite_ofMagnitude n.negative (of_decide_eq_true hx)
      exact ⟨trivial, by rw [settled, if_pos hfinite], Nat.zero_le room⟩
    · cases h

theorem sound_of_number {j : Json} (h : number .keep s = .ok (j, r)) : Sound room j := by
  obtain ⟨⟨n, t⟩, -, h⟩ := bind_eq_ok.1 h
  obtain ⟨i, hi, h⟩ := bind_eq_ok.1 h
  cases h
  exact sound_of_toJson hi

theorem sound_of_readValue {inner : Reader Json} (hinner : inner.Yields (Sound (room - 1)))
    {j : Json} (h : readValue .keep room inner s = .ok (j, r)) : Sound room j := by
  unfold readValue at h
  split at h
  · cases h
  · obtain ⟨t, -, h⟩ := bind_eq_ok.1 h
    cases h
    exact ⟨trivial, rfl, Nat.zero_le room⟩
  · obtain ⟨t, -, h⟩ := bind_eq_ok.1 h
    cases h
    exact ⟨trivial, rfl, Nat.zero_le room⟩
  · obtain ⟨t, -, h⟩ := bind_eq_ok.1 h
    cases h
    exact ⟨trivial, rfl, Nat.zero_le room⟩
  · obtain ⟨⟨cs, t⟩, -, h⟩ := bind_eq_ok.1 h
    cases h
    exact ⟨trivial, rfl, Nat.zero_le room⟩
  · split at h
    · cases h
    · next hroom =>
      obtain ⟨⟨xs, t⟩, ht, h⟩ := bind_eq_ok.1 h
      cases h
      have hxs := sound_array (forall_of_items hinner ht)
      rwa [Nat.sub_add_cancel (Nat.pos_of_ne_zero hroom)] at hxs
  · split at h
    · cases h
    · next hroom =>
      obtain ⟨⟨ms, t⟩, ht, h⟩ := bind_eq_ok.1 h
      cases h
      -- The members that have been read so far are kept last first.
      have hms : ∀ m ∈ ms, Sound (room - 1) m.2 := by
        refine of_members (Q := fun ms => ∀ m ∈ ms, Sound (room - 1) m.2) ?_ (by simp) ht
        intro k acc p hacc hp
        cases hp
        exact hinner.map fun hx => List.forall_mem_cons.2 ⟨hx, hacc⟩
      have hobject := sound_object fun m hm => hms m (List.mem_reverse.1 hm)
      rwa [Nat.sub_add_cancel (Nat.pos_of_ne_zero hroom)] at hobject
  · split at h
    · exact sound_of_number h
    · cases h

theorem yields_document (room : Nat) : (document .keep room).Yields (Sound room) := by
  induction room with
  | zero => exact fun _ _ _ h => sound_of_readValue (Reader.yields_refuse _) h
  | succ room ih => exact fun _ _ _ h => sound_of_readValue ih h

end FilterAlgebra.Json

import FilterAlgebra.Json.Scanner

namespace FilterAlgebra.Json

/-- A step of reading that takes at least one character. -/
structure Reader (α : Type) where
  run : List Char → Except Fault (α × List Char)
  shorter : ∀ {s a r}, run s = .ok (a, r) → r.length < s.length

namespace Reader

def refuse : Reader α := ⟨fun _ => .error .malformed, fun h => by cases h⟩

/-- The value read, checked further at once. -/
def check (f : α → Except Fault β) (p : Reader α) : Reader β where
  run s := do
    let (a, r) ← p.run s
    return (← f a, r)
  shorter {s b r} h := by
    obtain ⟨⟨a, t⟩, ha, h⟩ := bind_eq_ok.1 h
    obtain ⟨b, hb, h⟩ := bind_eq_ok.1 h
    cases h
    exact p.shorter ha

def map (f : α → β) (p : Reader α) : Reader β := p.check fun a => .ok (f a)

/-- A whole text holds one value; only blanks may follow it. -/
def readAll (p : Reader α) (s : String) : Except Fault α := do
  let (a, r) ← p.run s.toList
  if (skipBlanks r).isEmpty then .ok a else .error .malformed

end Reader

def colon (s : List Char) : Except Fault (List Char) :=
  match skipBlanks s with
  | [] => .error .truncated
  | ':' :: r => .ok r
  | _ => .error .malformed

/-- Where the next item of a bracket stands, or what follows the bracket. -/
inductive Next where
  | item (s : List Char)
  | done (rest : List Char)

def Next.text : Next → List Char
  | item s => s
  | done s => s

/-- The next item of an array. A comma stands before every item but the first. -/
def nextItem (first : Bool) (s : List Char) : Except Fault Next :=
  match skipBlanks s with
  | [] => .error .truncated
  | ']' :: r => .ok (.done r)
  | c :: r =>
    if first then .ok (.item (c :: r))
    else if c = ',' then
      match skipBlanks r with
      | [] => .error .truncated
      | ']' :: _ => .error .malformed
      | t => .ok (.item t)
    else .error .malformed

def nextKey (first : Bool) (s : List Char) : Except Fault Next :=
  match skipBlanks s with
  | [] => .error .truncated
  | '}' :: r => .ok (.done r)
  | c :: r =>
    if first then if c = '"' then .ok (.item r) else .error .malformed
    else if c = ',' then
      match skipBlanks r with
      | [] => .error .truncated
      | '"' :: t => .ok (.item t)
      | _ => .error .malformed
    else .error .malformed

theorem length_of_colon {s r : List Char} (h : colon s = .ok r) : r.length < s.length := by
  unfold colon at h
  split at h
  · cases h
  · next hs => cases h; exact length_lt_of_skipBlanks hs (Nat.le_refl _)
  · cases h

theorem length_of_nextItem {b : Bool} {s : List Char} {n : Next} (h : nextItem b s = .ok n) :
    n.text.length ≤ s.length := by
  unfold nextItem at h
  split at h
  · cases h
  · next hs => cases h; exact Nat.le_of_lt (length_lt_of_skipBlanks hs (Nat.le_refl _))
  · next c r _ hs =>
    split at h
    · cases h; exact hs ▸ length_skipBlanks_le s
    · split at h
      · split at h
        · cases h
        · cases h
        · cases h; exact Nat.le_of_lt (length_lt_of_skipBlanks hs (length_skipBlanks_le r))
      · cases h

theorem length_of_nextItem_done {b : Bool} {s r : List Char} (h : nextItem b s = .ok (.done r)) :
    r.length < s.length := by
  unfold nextItem at h
  split at h
  · cases h
  · next hs => cases h; exact length_lt_of_skipBlanks hs (Nat.le_refl _)
  · split at h
    · cases h
    · split at h
      · split at h <;> cases h
      · cases h

theorem length_of_nextKey {b : Bool} {s : List Char} {n : Next} (h : nextKey b s = .ok n) :
    n.text.length < s.length := by
  unfold nextKey at h
  split at h
  · cases h
  · next hs => cases h; exact length_lt_of_skipBlanks hs (Nat.le_refl _)
  · next c r _ hs =>
    split at h
    · split at h
      · cases h; exact length_lt_of_skipBlanks hs (Nat.le_refl _)
      · cases h
    · split at h
      · split at h
        · cases h
        · next hr =>
          cases h
          exact length_lt_of_skipBlanks hs
            (Nat.le_of_lt (length_lt_of_skipBlanks hr (Nat.le_refl _)))
        · cases h
      · cases h

def items (item : Reader α) (first : Bool) (s : List Char) : Except Fault (List α × List Char) :=
  match hn : nextItem first s with
  | .error f => .error f
  | .ok (.done r) => .ok ([], r)
  | .ok (.item t) =>
    match ha : item.run t with
    | .error f => .error f
    | .ok (a, u) => do
      have := Nat.lt_of_lt_of_le (item.shorter ha) (length_of_nextItem hn)
      let (as, r) ← items item false u
      return (a :: as, r)
termination_by s.length

/-- The members of an object, read from behind its opening brace. The key of a member, and what
was read before it, decide how its value is read. -/
def members (scan : Scan) (value : String → σ → Except Fault (Reader σ)) (first : Bool) (acc : σ)
    (s : List Char) : Except Fault (σ × List Char) :=
  match hn : nextKey first s with
  | .error f => .error f
  | .ok (.done r) => .ok (acc, r)
  | .ok (.item t) =>
    match hk : unquote scan t with
    | .error f => .error f
    | .ok (k, u) =>
      match value (.ofList k) acc with
      | .error f => .error f
      | .ok p =>
        match hc : colon u with
        | .error f => .error f
        | .ok v =>
          match ha : p.run v with
          | .error f => .error f
          | .ok (acc', w) =>
            have := Nat.lt_trans (p.shorter ha) (Nat.lt_trans (length_of_colon hc)
              (Nat.lt_trans (length_of_unquote hk) (length_of_nextKey hn)))
            members scan value false acc' w
termination_by s.length

theorem length_of_items {item : Reader α} {first : Bool} {s r : List Char} {as : List α}
    (h : items item first s = .ok (as, r)) : r.length < s.length := by
  induction hn : s.length using Nat.strongRecOn generalizing s first as with
  | ind n ih =>
    subst hn
    rw [items.eq_def] at h
    split at h
    · cases h
    · next hn => cases h; exact length_of_nextItem_done hn
    · next t hn =>
      split at h
      · cases h
      · next a u ha =>
        obtain ⟨⟨bs, v⟩, hb, h⟩ := bind_eq_ok.1 h
        cases h
        have := item.shorter ha
        have := length_of_nextItem hn
        simp only [Next.text] at this
        have := ih _ (by omega) hb rfl
        omega

theorem length_of_members {scan : Scan} {value : String → σ → Except Fault (Reader σ)}
    {first : Bool} {acc acc' : σ} {s r : List Char}
    (h : members scan value first acc s = .ok (acc', r)) : r.length < s.length := by
  induction hn : s.length using Nat.strongRecOn generalizing s first acc with
  | ind n ih =>
    subst hn
    rw [members.eq_def] at h
    split at h
    · cases h
    · next hn => cases h; exact length_of_nextKey hn
    · next t hn =>
      split at h
      · cases h
      · next k u hk =>
        split at h
        · cases h
        · next p _ =>
          split at h
          · cases h
          · next v hc =>
            split at h
            · cases h
            · next b w ha =>
              have := length_of_nextKey hn
              have := length_of_unquote hk
              have := length_of_colon hc
              have := p.shorter ha
              simp only [Next.text] at *
              have := ih _ (by omega) h rfl
              omega

/-- A document inside brackets that may hold `room` more; `inner` reads what stands in them. -/
def readValue (scan : Scan) (room : Nat) (inner : Reader Json) (s : List Char) :
    Except Fault (Json × List Char) :=
  match skipBlanks s with
  | [] => .error .truncated
  | 'n' :: t => do return (.null, ← word ['u', 'l', 'l'] t)
  | 't' :: t => do return (.bool true, ← word ['r', 'u', 'e'] t)
  | 'f' :: t => do return (.bool false, ← word ['a', 'l', 's', 'e'] t)
  | '"' :: t => do
    let (cs, r) ← unquote scan t
    return (.text (.ofList cs), r)
  | '[' :: t =>
    if room = 0 then .error .malformed else do
    let (xs, r) ← items inner true t
    return (.array xs, r)
  | '{' :: t =>
    if room = 0 then .error .malformed else do
    let (ms, r) ← members scan (fun k acc => .ok (inner.map fun x => (k, x) :: acc)) true [] t
    return (.object ms.reverse, r)
  | c :: t => if startsNumeral c then number scan (c :: t) else .error .malformed

theorem length_of_readValue {scan : Scan} {room : Nat} {inner : Reader Json} {s r : List Char}
    {j : Json} (h : readValue scan room inner s = .ok (j, r)) : r.length < s.length := by
  unfold readValue at h
  split at h
  · cases h
  · next hs =>
    obtain ⟨t, ht, h⟩ := bind_eq_ok.1 h
    cases h; exact length_lt_of_skipBlanks hs (length_of_word ht)
  · next hs =>
    obtain ⟨t, ht, h⟩ := bind_eq_ok.1 h
    cases h; exact length_lt_of_skipBlanks hs (length_of_word ht)
  · next hs =>
    obtain ⟨t, ht, h⟩ := bind_eq_ok.1 h
    cases h; exact length_lt_of_skipBlanks hs (length_of_word ht)
  · next hs =>
    obtain ⟨⟨cs, t⟩, ht, h⟩ := bind_eq_ok.1 h
    cases h; exact length_lt_of_skipBlanks hs (Nat.le_of_lt (length_of_unquote ht))
  · next hs =>
    split at h
    · cases h
    · obtain ⟨⟨xs, t⟩, ht, h⟩ := bind_eq_ok.1 h
      cases h; exact length_lt_of_skipBlanks hs (Nat.le_of_lt (length_of_items ht))
  · next hs =>
    split at h
    · cases h
    · obtain ⟨⟨ms, t⟩, ht, h⟩ := bind_eq_ok.1 h
      cases h; exact length_lt_of_skipBlanks hs (Nat.le_of_lt (length_of_members ht))
  · next c t _ _ _ _ _ _ hs =>
    split at h
    · exact length_lt_of_skipBlanks hs (Nat.le_of_lt_succ (length_of_number h))
    · cases h

/-- Any document with at most `room` brackets inside one another. -/
def document (scan : Scan) : (room : Nat) → Reader Json
  | 0 => ⟨readValue scan 0 .refuse, length_of_readValue⟩
  | room + 1 => ⟨readValue scan (room + 1) (document scan room), length_of_readValue⟩

/-- A value that is passed over may nest as deep as its text is long. -/
def skipped : Reader Unit where
  run s := do
    let (_, r) ← (document .skip s.length).run s
    return ((), r)
  shorter {s _ r} h := by
    obtain ⟨⟨j, t⟩, ht, h⟩ := bind_eq_ok.1 h
    cases h
    exact (document .skip s.length).shorter ht

def nestingLimit : Nat := 127

end FilterAlgebra.Json

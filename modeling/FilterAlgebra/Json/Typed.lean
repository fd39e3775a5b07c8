import FilterAlgebra.Json.Reader

namespace FilterAlgebra.Json

/-- The fault of a value, blanks before it skipped, that is not of the expected kind. -/
def misplaced (expected : Expected) (s : List Char) : Fault :=
  let found (x : Except Fault Found) : Fault :=
    match x with
    | .ok what => .mismatch (.wrongType what expected)
    | .error f => f
  match s with
  | [] => .truncated
  | 'n' :: t => found do let _ ← word ['u', 'l', 'l'] t; return .null
  | 't' :: t => found do let _ ← word ['r', 'u', 'e'] t; return .bool true
  | 'f' :: t => found do let _ ← word ['a', 'l', 's', 'e'] t; return .bool false
  | '"' :: t => found do let (cs, _) ← unquote .keep t; return .text (.ofList cs)
  | '[' :: _ => found (.ok .sequence)
  | '{' :: _ => found (.ok .map)
  | c :: t =>
    if startsNumeral c then
      found do
        let (n, _) ← number .keep (c :: t)
        match n with
        | .int i => return .int i
        | .float x => return .float x
        | _ => throw .malformed
    else .malformed

namespace Reader

/-- A string; `expected` names what it is for. -/
def text (expected : Expected) : Reader String where
  run s :=
    match skipBlanks s with
    | '"' :: t => do
      let (cs, r) ← unquote .keep t
      return (.ofList cs, r)
    | t => .error (misplaced expected t)
  shorter {s a r} h := by
    split at h
    · next t hs =>
      obtain ⟨⟨cs, u⟩, hu, h⟩ := bind_eq_ok.1 h
      cases h
      exact length_lt_of_skipBlanks hs (Nat.le_of_lt (length_of_unquote hu))
    · cases h

/-- A number of either kind. -/
def float : Reader Binary64 where
  run s :=
    match skipBlanks s with
    | c :: t =>
      if startsNumeral c then do
        let (n, r) ← number .keep (c :: t)
        match n with
        | .int i => return (.ofInt i, r)
        | .float x => return (x, r)
        | _ => throw .malformed
      else .error (misplaced .float (c :: t))
    | [] => .error .truncated
  shorter {s a r} h := by
    split at h
    · next c t hs =>
      split at h
      · obtain ⟨⟨n, u⟩, hu, h⟩ := bind_eq_ok.1 h
        have hr : r = u := by
          cases n with
          | int i => exact ((Prod.mk.inj (Except.ok.inj h)).2).symm
          | float x => exact ((Prod.mk.inj (Except.ok.inj h)).2).symm
          | _ => cases h
        have := length_of_number hu
        simp only [List.length_cons] at this
        exact length_lt_of_skipBlanks hs (by rw [hr]; omega)
      · cases h
    · cases h

def optional (p : Reader α) : Reader (Option α) where
  run s :=
    match skipBlanks s with
    | 'n' :: t => do return (none, ← word ['u', 'l', 'l'] t)
    | _ => (p.map some).run s
  shorter {s a r} h := by
    split at h
    · next t hs =>
      obtain ⟨u, hu, h⟩ := bind_eq_ok.1 h
      cases h
      exact length_lt_of_skipBlanks hs (length_of_word hu)
    · exact (p.map some).shorter h

/-- An array of values of one shape, inside brackets that may hold `room` more. -/
def sequence (room : Nat) (p : Reader α) : Reader (List α) where
  run s :=
    match skipBlanks s with
    | '[' :: t => if room = 0 then .error .malformed else items p true t
    | t => .error (misplaced .sequence t)
  shorter {s a r} h := by
    split at h
    · next t hs =>
      split at h
      · cases h
      · exact length_lt_of_skipBlanks hs (Nat.le_of_lt (length_of_items h))
    · cases h

end Reader

/-- A field of a record: what is read for it changes the record under construction. -/
structure Field (σ : Type) where
  name : String
  reader : Reader (σ → σ)

def Field.of (name : String) (p : Reader α) (put : α → σ → σ) : Field σ := ⟨name, p.map put⟩

/-- A record that is read field by field. At the end it is complete, or a field is missing. -/
structure Record (σ α : Type) where
  name : String
  fields : List (Field σ)
  blank : σ
  finish : σ → Except String α

namespace Record

/-- How the value of a key is read, once the keys `seen` have been. Unknown keys are skipped. -/
def member (fields : List (Field σ)) (key : String) (acc : List String × σ) :
    Except Fault (Reader (List String × σ)) :=
  match fields.find? (·.name == key) with
  | none => .ok (skipped.map fun _ => acc)
  | some f =>
    if acc.1.contains key then .error (.mismatch (.duplicateField key))
    else .ok (f.reader.map fun put => (key :: acc.1, put acc.2))

def close (s : List Char) : Except Fault (List Char) :=
  match skipBlanks s with
  | [] => .error .truncated
  | ']' :: r => .ok r
  | _ => .error .malformed

/-- The fields in their order, from behind the opening bracket. Also tells how many there were. -/
def inOrder : List (Field σ) → (first : Bool) → (count : Nat) → σ → List Char →
    Except Fault ((Nat × σ) × List Char)
  | [], _, n, acc, s => do return ((n, acc), ← close s)
  | f :: fs, first, n, acc, s => do
    match ← nextItem first s with
    | .done r => return ((n, acc), r)
    | .item t =>
      let (put, r) ← f.reader.run t
      inOrder fs false (n + 1) (put acc) r

theorem length_of_close {s r : List Char} (h : close s = .ok r) : r.length < s.length := by
  unfold close at h
  split at h
  · cases h
  · next hs => cases h; exact length_lt_of_skipBlanks hs (Nat.le_refl _)
  · cases h

theorem length_of_inOrder {fs : List (Field σ)} {first : Bool} {n m : Nat} {acc acc' : σ}
    {s r : List Char} (h : inOrder fs first n acc s = .ok ((m, acc'), r)) :
    r.length < s.length := by
  induction fs generalizing first n acc s with
  | nil =>
    obtain ⟨t, ht, h⟩ := bind_eq_ok.1 h
    cases h
    exact length_of_close ht
  | cons f fs ih =>
    obtain ⟨next, hn, h⟩ := bind_eq_ok.1 h
    cases next with
    | done t => cases h; exact length_of_nextItem_done hn
    | item t =>
      obtain ⟨⟨put, u⟩, hu, h⟩ := bind_eq_ok.1 h
      have := length_of_nextItem hn
      have := f.reader.shorter hu
      have := ih h
      simp only [Next.text] at *
      omega

/-- A record is an object with its fields by name or an array with its fields in order. -/
def reader (room : Nat) (rec : Record σ α) : Reader α where
  run s :=
    match skipBlanks s with
    | '{' :: t =>
      if room = 0 then .error .malformed else do
      let ((_, acc), r) ← members .keep (member rec.fields) true ([], rec.blank) t
      match rec.finish acc with
      | .ok a => .ok (a, r)
      | .error name => .error (.mismatch (.missingField name))
    | '[' :: t =>
      if room = 0 then .error .malformed else do
      let ((n, acc), r) ← inOrder rec.fields true 0 rec.blank t
      match rec.finish acc with
      | .ok a => .ok (a, r)
      | .error _ => .error (.mismatch (.wrongLength n rec.name rec.fields.length))
    | t => .error (misplaced (.record rec.name) t)
  shorter {s a r} h := by
    split at h
    · next t hs =>
      split at h
      · cases h
      · obtain ⟨⟨⟨_, acc⟩, u⟩, hu, h⟩ := bind_eq_ok.1 h
        dsimp only at h
        split at h
        · cases h; exact length_lt_of_skipBlanks hs (Nat.le_of_lt (length_of_members hu))
        · cases h
    · next t hs =>
      split at h
      · cases h
      · obtain ⟨⟨⟨n, acc⟩, u⟩, hu, h⟩ := bind_eq_ok.1 h
        dsimp only at h
        split at h
        · cases h; exact length_lt_of_skipBlanks hs (Nat.le_of_lt (length_of_inOrder hu))
        · cases h
    · cases h

end Record

/-- One of several named alternatives: a bare name, or a name that wraps a value. -/
inductive Variant (α : Type) where
  | bare (a : α)
  | wrapping (p : Reader α)

/-- A choice between alternatives, in the order in which messages list them. -/
abbrev Choice (α : Type) := List (String × Variant α)

namespace Choice

def select (alternatives : Choice α) (name : String) : Except Fault (Variant α) :=
  match alternatives.find? (·.1 == name) with
  | some (_, v) => .ok v
  | none => .error (.mismatch (.unknownVariant name (alternatives.map (·.1))))

def plain : Variant α → Except Fault α
  | .bare a => .ok a
  | .wrapping _ => .error (.mismatch (.wrongType .bareVariant .wrappingVariant))

/-- What stands behind the name and colon of an alternative; a bare name wraps null. -/
def wrapped (v : Variant α) (s : List Char) : Except Fault (α × List Char) :=
  match v with
  | .wrapping p => p.run s
  | .bare a =>
    match skipBlanks s with
    | 'n' :: t => do return (a, ← word ['u', 'l', 'l'] t)
    | t => .error (misplaced .unit t)

/-- The name in an object that wraps a value. Only a string can be a name. -/
def key (s : List Char) : Except Fault (String × List Char) :=
  match skipBlanks s with
  | [] => .error .truncated
  | '"' :: t => do
    let (cs, r) ← unquote .keep t
    return (.ofList cs, r)
  | _ => .error .malformed

def closeBrace (s : List Char) : Except Fault (List Char) :=
  match skipBlanks s with
  | [] => .error .truncated
  | '}' :: r => .ok r
  | _ => .error .malformed

/-- A choice is a string, or an object whose one member wraps a value. -/
def run (room : Nat) (alternatives : Choice α) (s : List Char) : Except Fault (α × List Char) :=
  match skipBlanks s with
  | [] => .error .truncated
  | '"' :: t => do
    let (cs, r) ← unquote .keep t
    return (← plain (← select alternatives (.ofList cs)), r)
  | '{' :: t =>
    if room = 0 then .error .malformed else do
    let (name, r) ← key t
    let v ← select alternatives name
    let (a, r) ← wrapped v (← colon r)
    return (a, ← closeBrace r)
  | _ => .error .malformed

theorem length_of_wrapped {v : Variant α} {a : α} {s r : List Char}
    (h : wrapped v s = .ok (a, r)) : r.length < s.length := by
  cases v with
  | wrapping p => exact p.shorter h
  | bare a =>
    simp only [wrapped] at h
    split at h
    · next t hs =>
      obtain ⟨u, hu, h⟩ := bind_eq_ok.1 h
      cases h
      exact length_lt_of_skipBlanks hs (length_of_word hu)
    · cases h

theorem length_of_key {name : String} {s r : List Char} (h : key s = .ok (name, r)) :
    r.length < s.length := by
  unfold key at h
  split at h
  · cases h
  · next t hs =>
    obtain ⟨⟨cs, u⟩, hu, h⟩ := bind_eq_ok.1 h
    cases h
    exact length_lt_of_skipBlanks hs (Nat.le_of_lt (length_of_unquote hu))
  · cases h

theorem length_of_closeBrace {s r : List Char} (h : closeBrace s = .ok r) :
    r.length < s.length := by
  unfold closeBrace at h
  split at h
  · cases h
  · next hs => cases h; exact length_lt_of_skipBlanks hs (Nat.le_refl _)
  · cases h

def reader (room : Nat) (alternatives : Choice α) : Reader α where
  run := run room alternatives
  shorter {s a r} h := by
    unfold run at h
    split at h
    · cases h
    · next t hs =>
      obtain ⟨⟨cs, u⟩, hu, h⟩ := bind_eq_ok.1 h
      obtain ⟨v, _, h⟩ := bind_eq_ok.1 h
      obtain ⟨b, _, h⟩ := bind_eq_ok.1 h
      cases h
      exact length_lt_of_skipBlanks hs (Nat.le_of_lt (length_of_unquote hu))
    · next t hs =>
      split at h
      · cases h
      · obtain ⟨⟨name, u⟩, hu, h⟩ := bind_eq_ok.1 h
        obtain ⟨v, _, h⟩ := bind_eq_ok.1 h
        obtain ⟨w, hw, h⟩ := bind_eq_ok.1 h
        obtain ⟨⟨b, x⟩, hx, h⟩ := bind_eq_ok.1 h
        obtain ⟨y, hy, h⟩ := bind_eq_ok.1 h
        cases h
        have := length_of_key hu
        have := length_of_colon hw
        have := length_of_wrapped hx
        have := length_of_closeBrace hy
        exact length_lt_of_skipBlanks hs (by omega)
    · cases h

end Choice
end FilterAlgebra.Json

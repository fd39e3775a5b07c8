import FilterAlgebra.Json.Typed
import FilterAlgebra.Proofs.Document

namespace FilterAlgebra.Json

variable {α ι σ : Type} {l : Layout} {room : Nat} {p : Reader α} {j : Json} {a : Except Fault α}

theorem reads_text (expected : Expected) (s : String) :
    Reads l (.text expected) (text s) (.ok s) := by
  intro g depth rest hg _
  have hwrite : write l depth (text s) rest = '"' :: (s.toList.flatMap escape ++ '"' :: rest) :=
    quote_append s rest
  rw [Reader.text]
  dsimp only
  rw [skipBlanks_write hg, hwrite]
  simp only [unquote_flatMap_escape, bind, Except.bind, pure, Except.pure, String.ofList_toList]
  rfl

theorem run_float {c : Char} (hc : startsNumeral c) {s t u : List Char} {x : Binary64}
    (hs : skipBlanks s = c :: t) (hx : number .keep (c :: t) = .ok (float x, u)) :
    Reader.float.run s = .ok (x, u) := by
  rw [Reader.float]
  dsimp only
  rw [hs]
  dsimp only
  rw [if_pos hc, hx]
  rfl

/-- A number that is not finite has left no number in its text. -/
theorem reads_float (x : Binary64) :
    Reads l .float (float x)
      (if x.isFinite then .ok x.reread else .error (.mismatch (.wrongType .null .float))) := by
  intro g depth rest hg hrest
  have hskip : skipBlanks (g ++ write l depth (float x) rest) = write l depth (float x) rest :=
    skipBlanks_write hg (float x)
  rw [write] at hskip ⊢
  by_cases hx : x.isFinite
  · -- The first character decides that a number is read, the numeral which number it is.
    obtain ⟨n, hn, hspell, hread, -⟩ := Binary64.exists_numeral hx
    have hnumber := number_spell hn hread hrest
    obtain ⟨c, t, hc, hstart⟩ := spell_eq_cons hn
    rw [if_pos hx, ← hspell, hc] at hskip
    rw [hc] at hnumber
    rw [if_pos hx, if_pos hx, ← hspell, hc]
    exact run_float hstart hskip hnumber
  · rw [if_neg hx] at hskip
    rw [if_neg hx, if_neg hx, Reader.float]
    dsimp only
    rw [hskip]
    rfl

theorem reads_optional (h : Reads l p j a) (hj : j.settled ≠ null) :
    Reads l p.optional j (a.map some) := by
  intro g depth rest hg hrest
  obtain ⟨c, t, hc, -, hn⟩ := write_eq_cons l depth j rest
  rw [← h.map some g depth rest hg hrest, Reader.optional]
  dsimp only
  rw [skipBlanks_write hg, hc]
  split
  · next hs => exact absurd (List.cons.inj hs).1 (hn hj)
  · rfl

theorem reads_optional_null (p : Reader α) (hj : j.settled = null) :
    Reads l p.optional j (.ok none) := by
  intro g depth rest hg _
  have hwrite : write l depth j rest = nothing ++ rest := by
    rw [← write_settled, hj]
    rfl
  rw [Reader.optional]
  dsimp only
  rw [skipBlanks_write hg, hwrite]
  rfl

theorem reads_sequence (hl : l.Blank) (room : Nat) {f : ι → Except Fault α} (toJson : ι → Json)
    {xs : List ι} (hxs : ∀ x ∈ xs, Reads l p (toJson x) (f x)) :
    Reads l (.sequence (room + 1) p) (array (xs.map toJson)) (xs.mapM f) := by
  intro g depth rest hg _
  obtain ⟨t, ht, hread⟩ := items_array hl toJson hxs depth rest
  rw [Reader.sequence]
  dsimp only
  rw [skipBlanks_write hg, ht, ← hread]
  rfl

theorem reads_sequence_no_room (p : Reader α) (xs : List Json) :
    Reads l (.sequence 0 p) (array xs) (.error .malformed) := by
  intro g depth rest hg _
  rw [Reader.sequence]
  dsimp only
  rw [skipBlanks_write hg]
  cases xs <;> rfl

/-- The members that follow others in an object take what was read before them to `b`. -/
def ReadsMembers (l : Layout) (value : String → σ → Except Fault (Reader σ)) (acc : σ)
    (ms : List (String × Json)) (b : Except Fault σ) : Prop :=
  ∀ depth d rest, members .keep value false acc (writeMembers l depth ms (l.gap d ++ '}' :: rest)) =
    b.map fun acc => (acc, rest)

namespace Record

variable {fields : List (Field σ)} {name : String} {put : α → σ → σ} {seen : List String} {acc : σ}
  {ms : List (String × Json)} {b : Except Fault (List String × σ)}

theorem member_of (hf : fields.find? (·.name == name) = some (.of name p put))
    (hseen : name ∉ seen) :
    member fields name (seen, acc) =
      .ok ((p.map put).map fun put => (name :: seen, put acc)) := by
  simp [member, hf, hseen, Field.of]

theorem readsMembers_nil (hl : l.Blank) : ReadsMembers l (member fields) (seen, acc) []
    (.ok (seen, acc)) :=
  fun _ _ rest => members_end hl rest

theorem readsMembers_cons (hl : l.Blank)
    (hf : fields.find? (·.name == name) = some (.of name p put)) (hseen : name ∉ seen) {x : α}
    (hj : Reads l p j (.ok x))
    (hms : ReadsMembers l (member fields) (name :: seen, put x acc) ms b) :
    ReadsMembers l (member fields) (seen, acc) ((name, j) :: ms) b := by
  intro depth d rest
  rw [members_cons hl (member_of hf hseen) ((hj.map put).map _)]
  exact hms depth d rest

theorem readsMembers_last (hl : l.Blank)
    (hf : fields.find? (·.name == name) = some (.of name p put)) (hseen : name ∉ seen)
    (hj : Reads l p j a) :
    ReadsMembers l (member fields) (seen, acc) [(name, j)]
      (a.map fun x => (name :: seen, put x acc)) := by
  intro depth d rest
  rw [members_cons hl (member_of hf hseen) ((hj.map put).map _)]
  cases a with
  | error e => rfl
  | ok x => exact readsMembers_nil hl depth d rest

theorem readsMembers_error (hl : l.Blank)
    (hf : fields.find? (·.name == name) = some (.of name p put)) (hseen : name ∉ seen) {e : Fault}
    (hj : Reads l p j (.error e)) :
    ReadsMembers l (member fields) (seen, acc) ((name, j) :: ms) (.error e) := by
  intro depth d rest
  rw [members_cons hl (member_of hf hseen) ((hj.map put).map _)]
  rfl

end Record

/-- What a record ends with when all of its members have been read. -/
def Record.finished (rec : Record σ α) (acc : List String × σ) : Except Fault α :=
  match rec.finish acc.2 with
  | .ok a => .ok a
  | .error name => .error (.mismatch (.missingField name))

theorem Record.run_object (rec : Record σ α) (room : Nat) {s t : List Char}
    (hs : skipBlanks s = '{' :: t) :
    (rec.reader (room + 1)).run s =
      members .keep (member rec.fields) true ([], rec.blank) t >>= fun p =>
        (rec.finished p.1).map fun a => (a, p.2) := by
  rw [Record.reader]
  dsimp only
  rw [hs]
  change (if room + 1 = 0 then _ else members .keep (member rec.fields) true _ t >>= _) = _
  rw [if_neg (Nat.succ_ne_zero room)]
  refine congrArg (members .keep (member rec.fields) true ([], rec.blank) t >>= ·) ?_
  funext p
  rw [Record.finished]
  cases rec.finish p.1.2 <;> rfl

theorem reads_record (hl : l.Blank) (rec : Record σ α) (room : Nat) {ms : List (String × Json)}
    {b : Except Fault (List String × σ)}
    (hms : ReadsMembers l (Record.member rec.fields) ([], rec.blank) ms b) :
    Reads l (rec.reader (room + 1)) (object ms) (b >>= rec.finished) := by
  intro g depth rest hg _
  obtain ⟨t, ht, hread⟩ := members_front hl (Record.member rec.fields) ([], rec.blank) ms depth rest
  rw [rec.run_object room ((skipBlanks_write hg _).trans ht), hread, hms (depth + 1) depth rest]
  cases b <;> rfl

theorem reads_record_no_room (rec : Record σ α) (ms : List (String × Json)) :
    Reads l (rec.reader 0) (object ms) (.error .malformed) := by
  intro g depth rest hg _
  rw [Record.reader]
  dsimp only
  rw [skipBlanks_write hg]
  cases ms <;> rfl

namespace Choice

variable {alternatives : Choice α} {name : String} {v : Variant α}

theorem select_eq (h : alternatives.find? (·.1 == name) = some (name, v)) :
    select alternatives name = .ok v := by
  rw [select, h]

/-- A bare alternative is written as its name. -/
theorem reads_bare (room : Nat) {a : α}
    (h : alternatives.find? (·.1 == name) = some (name, .bare a)) :
    Reads l (alternatives.reader room) (.text name) (.ok a) := by
  intro g depth rest hg _
  have hwrite : write l depth (.text name) rest =
      '"' :: (name.toList.flatMap escape ++ '"' :: rest) := quote_append name rest
  rw [reader]
  dsimp only
  rw [run, skipBlanks_write hg, hwrite]
  simp only [unquote_flatMap_escape, bind, Except.bind, String.ofList_toList, select_eq h]
  rfl

theorem key_append (hg : AllBlank g) : key (g ++ (quote name ++ rest)) = .ok (name, rest) := by
  rw [key, skipBlanks_append hg, quote_append, skipBlanks_cons (by decide)]
  simp only [unquote_flatMap_escape, bind, Except.bind, String.ofList_toList]
  rfl

theorem closeBrace_append (hg : AllBlank g) : closeBrace (g ++ '}' :: rest) = .ok rest := by
  rw [closeBrace, skipBlanks_append hg, skipBlanks_cons (by decide)]
  rfl

theorem run_object (room : Nat) {a : α} {s t r u w z : List Char} (hs : skipBlanks s = '{' :: t)
    (hname : key t = .ok (name, r)) (hv : select alternatives name = .ok v)
    (hcolon : colon r = .ok u) (hvalue : wrapped v u = .ok (a, w)) (hclose : closeBrace w = .ok z) :
    run (room + 1) alternatives s = .ok (a, z) := by
  rw [run, hs]
  change (if room + 1 = 0 then _ else key t >>= _) = _
  rw [if_neg (Nat.succ_ne_zero room)]
  simp only [hname, hv, hcolon, hvalue, hclose, bind, Except.bind]
  rfl

/-- Any other alternative is written as an object with one member, its name the key. -/
theorem reads_wrapping (hl : l.Blank) (room : Nat) {a : α}
    (h : alternatives.find? (·.1 == name) = some (name, .wrapping p)) (hj : Reads l p j (.ok a)) :
    Reads l (alternatives.reader (room + 1)) (object [(name, j)]) (.ok a) := by
  intro g depth rest hg _
  have hwrite : write l depth (object [(name, j)]) rest =
      '{' :: (l.gap (depth + 1) ++ (quote name ++ ':' ::
        (l.afterColon ++ write l (depth + 1) j (l.gap depth ++ '}' :: rest)))) := by
    simp [write, writeMembers]
  have hvalue := hj l.afterColon (depth + 1) (l.gap depth ++ '}' :: rest) hl.afterColon
    (stops_append (hl.gap depth) (by decide) rest)
  exact run_object room ((skipBlanks_write hg _).trans hwrite) (key_append (hl.gap _))
    (select_eq h) (colon_cons _) hvalue (closeBrace_append (hl.gap depth))

end Choice

end FilterAlgebra.Json

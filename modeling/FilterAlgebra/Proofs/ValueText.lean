import FilterAlgebra.Writing
import FilterAlgebra.Proofs.Document

namespace FilterAlgebra

def opensMoment (c : Char) : Bool := c.isDigit || c == '-'

theorem isDigit_of_mem_padded {w n : ℕ} {c : Char} (hc : c ∈ padded w n) : c.isDigit := by
  rw [padded, List.mem_append, List.mem_replicate] at hc
  rcases hc with ⟨-, rfl⟩ | hc
  · decide
  · exact (Json.allDigits_toDigits n).2 c hc

theorem padded_ne_nil (w n : ℕ) : padded w n ≠ [] := by
  simp [padded, (Json.allDigits_toDigits n).1]

namespace Moment

theorem yearText_eq_cons (y : ℤ) : ∃ c t, yearText y = c :: t ∧ opensMoment c := by
  rw [yearText]
  split
  · exact ⟨'-', _, rfl, by decide⟩
  · obtain ⟨c, t, h⟩ := List.exists_cons_of_ne_nil (padded_ne_nil 4 y.natAbs)
    have hc : c.isDigit := isDigit_of_mem_padded (h ▸ List.mem_cons_self)
    exact ⟨c, t, h, by simp [opensMoment, hc]⟩

theorem text_eq_cons (m : Moment) : ∃ c t, m.text.toList = c :: t ∧ opensMoment c := by
  obtain ⟨c, t, h, hc⟩ := yearText_eq_cons m.utcDate.year
  exact ⟨c, _, by simp [text, dateText, h]; rfl, hc⟩

end Moment

theorem Moment.head_text (m : Moment) : m.text.toList.head?.any opensMoment := by
  obtain ⟨c, t, h, hc⟩ := m.text_eq_cons
  rw [h]
  exact hc

theorem Sentinel.head_spelling (x : Sentinel) :
    x.spelling.toList.head?.any opensMoment = false := by
  cases x <;> decide

theorem Token.head_spelling (t : Token) : t.spelling.toList.head?.any opensMoment = false := by
  rcases t with _ | c | c
  · decide
  · cases c <;> decide
  · cases c <;> decide

theorem Sentinel.ofSpelling?_moment (m : Moment) : ofSpelling? m.text = none := by
  -- A sentinel would have to begin like a moment.
  by_contra h
  obtain ⟨x, hx⟩ := Option.ne_none_iff_exists'.1 h
  have hhead := m.head_text
  rw [← spelling_of_ofSpelling? hx, x.head_spelling] at hhead
  cases hhead

theorem Token.ofSpelling?_moment (m : Moment) : ofSpelling? m.text = none := by
  by_contra h
  obtain ⟨t, ht⟩ := Option.ne_none_iff_exists'.1 h
  have hhead := m.head_text
  rw [← spelling_of_ofSpelling? ht, t.head_spelling] at hhead
  cases hhead

namespace Value

/-- The value that is read back. -/
def canon : Value → Value
  | text s =>
    match Sentinel.ofSpelling? s with
    | some x => sentinel x
    | none => text s
  | date m => text m.text
  | float x => if x.isFinite then float x else null
  | v => v

/-- The value with a number as its numeral is read. -/
def reread : Value → Value
  | float x => float x.reread
  | v => v

/-- Whether the value, if it is a number, is read back from its numeral. -/
def ReadsBack : Value → Prop
  | float x => x.ReadsBack
  | _ => True

instance : DecidablePred ReadsBack
  | float x => inferInstanceAs (Decidable x.ReadsBack)
  | null | bool _ | int _ | text _ | date _ | sentinel _ => isTrue trivial

theorem ReadsBack.reread_eq {v : Value} (hv : v.ReadsBack) : v.reread = v := by
  cases v with
  | float x => rw [reread, Binary64.readsBack_iff_reread.1 hv]
  | _ => rfl

theorem ReadsBack.marked {v : Value} (hv : v.ReadsBack) (inverse : Bool) :
    (v.markNull.negateIf inverse).ReadsBack := by
  cases v with
  | float x => exact hv
  | _ => trivial

theorem toJson_reread (v : Value) : v.reread.toJson = v.toJson.reread := by cases v <;> rfl

theorem toJson_canon (v : Value) : v.canon.toJson = v.toJson.settled := by
  cases v with
  | text s =>
    rw [canon]
    split
    · next hs =>
      simp only [toJson, Json.settled]
      rw [Sentinel.spelling_of_ofSpelling? hs]
    · rfl
  | float x =>
    rw [canon, toJson, Json.settled]
    split <;> rfl
  | _ => rfl

theorem canon_reread_eq_null (v : Value) : v.reread.canon = null ↔ v.canon = null := by
  cases v with
  | float x =>
    rw [reread, canon, canon, x.isFinite_reread]
    split <;> simp
  | _ => rfl

theorem expressible_canon (v : Value) : v.canon.expressible := by
  cases v with
  | text s =>
    rw [canon]
    split <;> rfl
  | float x =>
    rw [canon]
    split <;> rfl
  | _ => rfl

theorem nesting_toJson (v : Value) : v.toJson.nesting = 0 := by cases v <;> rfl

theorem fits_toInt (n : Int64) : Json.Fits n.toInt :=
  ⟨n.le_toInt, Int.lt_trans n.toInt_lt (by decide)⟩

theorem writable_toJson (v : Value) : v.toJson.Writable := by
  cases v with
  | int n => exact fits_toInt n
  | _ => trivial

theorem ofInteger_toInt (n : Int64) : ofInteger n.toInt = int n := by
  have hlow := n.le_toInt
  have hhigh := n.toInt_lt
  rw [ofInteger, if_pos (by omega), Int64.ofInt_toInt]

theorem ofJson?_settled (v : Value) : ofJson? v.toJson.settled = some v.canon := by
  cases v with
  | int n => simp only [toJson, Json.settled, ofJson?, ofInteger_toInt, canon]
  | float x =>
    rw [canon, toJson, Json.settled]
    split <;> rfl
  | date m =>
    simp only [toJson, Json.settled, ofJson?, ofText, Sentinel.ofSpelling?_moment, canon]
  | sentinel x =>
    simp only [toJson, Json.settled, ofJson?, ofText, Sentinel.ofSpelling?_spelling, canon]
  | _ => rfl

theorem reads_reader {l : Json.Layout} (hl : l.Blank) (v : Value) (room : ℕ) :
    Json.Reads l (reader room) v.toJson (.ok v.reread.canon) := by
  rw [reader]
  refine (Json.reads_document hl v.toJson v.writable_toJson room).check ?_
  rw [Json.kept, Json.within_of_le (v.nesting_toJson ▸ Nat.zero_le room), ← toJson_reread]
  simp only [bind, Except.bind, ofJson?_settled]

end Value
end FilterAlgebra

import FilterAlgebra.Pipeline
import FilterAlgebra.Proofs.Calendar
import FilterAlgebra.Proofs.Columns
import FilterAlgebra.Proofs.Meaning

namespace FilterAlgebra
namespace Moment

/-- The columns of a text: year, month, day, hours, minutes, seconds, milliseconds. -/
def layout : List (ℕ × Char) :=
  [(4, '-'), (2, '-'), (2, 'T'), (2, ':'), (2, ':'), (2, '.'), (3, 'Z')]

def clock (ms : ℕ) : List ℕ := [ms / 3600000, ms / 60000 % 60, ms / 1000 % 60, ms % 1000]

def millisecondOfDay (m : Moment) : ℕ := (m.millisecond % millisPerDay).toNat

def numbers (m : Moment) : List ℕ :=
  m.utcDate.year.natAbs :: m.utcDate.month :: m.utcDate.day :: clock m.millisecondOfDay

def InYears (m : Moment) (first last : ℤ) : Prop :=
  first ≤ m.utcDate.year ∧ m.utcDate.year ≤ last

theorem InYears.wide {m : Moment} (h : m.InYears 0 9999) : m.InYears (-9999) 9999 :=
  ⟨(by decide : (-9999 : ℤ) ≤ 0).trans h.1, h.2⟩

instance (m : Moment) (first last : ℤ) : Decidable (m.InYears first last) :=
  inferInstanceAs (Decidable (_ ∧ _))

variable {m m' : Moment}

theorem toList_text (m : Moment) : m.text.toList =
    (if m.utcDate.year < 0 then ['-'] else []) ++ columns layout m.numbers := by
  rw [text, String.toList_ofList, dateText, yearText, timeText]
  split <;> simp [layout, numbers, clock, columns, millisecondOfDay]

theorem expressible_iff (m : Moment) : m.expressible ↔ m.InYears (-9999) 9999 := by
  simp [expressible, InYears]

theorem utcDate_eq_iff {d : Date} :
    m.utcDate = d ↔ d.Valid ∧ d.toDayNumber = m.instant / nanosPerDay := by
  have hday : m.millisecond / millisPerDay = m.instant / nanosPerDay := by
    unfold millisecond millisPerDay nanosPerDay
    omega
  rw [utcDate, Date.ofDayNumber_eq_iff, hday]

theorem valid_utcDate (m : Moment) : m.utcDate.Valid := (utcDate_eq_iff.1 rfl).1

theorem millisecondOfDay_lt (m : Moment) : m.millisecondOfDay < 86400000 := by
  unfold millisecondOfDay millisPerDay
  omega

theorem fit_numbers (h : m.InYears (-9999) 9999) : Fit layout m.numbers := by
  have hdate := m.valid_utcDate
  have hmonth := hdate.month_le
  have hday := hdate.day_le_31
  have htime := m.millisecondOfDay_lt
  unfold InYears at h
  simp only [Fit, layout, numbers, clock, List.forall₂_cons, List.Forall₂.nil, and_true,
    Nat.reducePow]
  omega

theorem clock_lt {ms ms' : ℕ} (h : ms < ms') : List.Lex (· < ·) (clock ms) (clock ms') := by
  simp only [clock, List.cons_lex_cons_iff]
  omega

theorem numbers_lt (hyear : 0 ≤ m.utcDate.year) (hyear' : 0 ≤ m'.utcDate.year)
    (h : m.millisecond < m'.millisecond) : List.Lex (· < ·) m.numbers m'.numbers := by
  unfold numbers
  have hle : m.millisecond / millisPerDay ≤ m'.millisecond / millisPerDay := by
    unfold millisPerDay
    omega
  rcases Int.lt_or_eq_of_le hle with hlt | heq
  · have hbefore : m.utcDate.Before m'.utcDate := Date.before_ofDayNumber hlt
    unfold Date.Before at hbefore
    simp only [List.cons_lex_cons_iff]
    omega
  · have hdate : m.utcDate = m'.utcDate := by rw [utcDate, utcDate, heq]
    have htime : m.millisecondOfDay < m'.millisecondOfDay := by
      unfold millisecondOfDay millisPerDay at *
      omega
    rw [hdate]
    exact .cons (.cons (.cons (clock_lt htime)))

theorem length_text (h : m.InYears 0 9999) : m.text.length = 24 := by
  rw [← String.length_toList, toList_text, if_neg (Int.not_lt.2 h.1), List.nil_append,
    length_columns (fit_numbers h.wide)]
  rfl

/-- The columns begin with a digit, so a sign is no part of them. -/
theorem minus_cons_ne_columns (s : List Char) (m : Moment) :
    '-' :: s ≠ columns layout m.numbers := by
  intro h
  obtain ⟨c, t, hyear⟩ := List.exists_cons_of_ne_nil (padded_ne_nil 4 m.utcDate.year.natAbs)
  have hdigit : c.isDigit := isDigit_of_mem_padded (hyear ▸ List.mem_cons_self)
  rw [layout, numbers, columns, hyear] at h
  obtain rfl := (List.cons.inj h).1
  cases hdigit

/-- Equal texts have the sign in common, and the numbers. -/
theorem utcDate_and_clock_eq (hm : m.InYears (-9999) 9999) (hm' : m'.InYears (-9999) 9999)
    (h : m.text = m'.text) :
    m.utcDate = m'.utcDate ∧ clock m.millisecondOfDay = clock m'.millisecondOfDay := by
  have hlist : m.text.toList = m'.text.toList := by rw [h]
  rw [toList_text, toList_text] at hlist
  have hsign : (m.utcDate.year < 0 ↔ m'.utcDate.year < 0) ∧
      columns layout m.numbers = columns layout m'.numbers := by
    split at hlist <;> split at hlist
    · next hneg hneg' => exact ⟨iff_of_true hneg hneg', List.append_cancel_left hlist⟩
    · exact absurd hlist (minus_cons_ne_columns _ m')
    · exact absurd hlist.symm (minus_cons_ne_columns _ m)
    · next hpos hpos' => exact ⟨iff_of_false hpos hpos', hlist⟩
  have hnumbers := columns_inj (fit_numbers hm) (fit_numbers hm') hsign.2
  unfold numbers at hnumbers
  obtain ⟨hyear, hrest⟩ := List.cons.inj hnumbers
  obtain ⟨hmonth, hrest⟩ := List.cons.inj hrest
  obtain ⟨hday, hclock⟩ := List.cons.inj hrest
  exact ⟨Date.ext (by omega) hmonth hday, hclock⟩

theorem text_eq_iff (hm : m.InYears (-9999) 9999) (hm' : m'.InYears (-9999) 9999) :
    m.text = m'.text ↔ m.millisecond = m'.millisecond := by
  constructor
  · intro h
    obtain ⟨hdate, hclock⟩ := utcDate_and_clock_eq hm hm' h
    have hday : m.millisecond / millisPerDay = m'.millisecond / millisPerDay := by
      have := congrArg Date.toDayNumber hdate
      rwa [utcDate, utcDate, Date.toDayNumber_ofDayNumber, Date.toDayNumber_ofDayNumber] at this
    have htime : m.millisecondOfDay = m'.millisecondOfDay := by
      simp only [clock, List.cons.injEq] at hclock
      omega
    unfold millisecondOfDay millisPerDay at htime
    unfold millisPerDay at hday
    omega
  · intro h
    rw [text, text, utcDate, utcDate, h]

theorem text_before_of_lt (hm : m.InYears 0 9999) (hm' : m'.InYears 0 9999)
    (h : m.millisecond < m'.millisecond) : TextBefore m.text.toList m'.text.toList := by
  rw [toList_text, toList_text, if_neg (Int.not_lt.2 hm.1), if_neg (Int.not_lt.2 hm'.1)]
  exact columns_lt (fit_numbers hm.wide) (fit_numbers hm'.wide) (numbers_lt hm.1 hm'.1 h)

theorem text_before_iff (hm : m.InYears 0 9999) (hm' : m'.InYears 0 9999) :
    TextBefore m.text.toList m'.text.toList ↔ m.millisecond < m'.millisecond := by
  constructor
  · intro h
    rcases Int.lt_trichotomy m.millisecond m'.millisecond with h' | h' | h'
    · exact h'
    · rw [(text_eq_iff hm.wide hm'.wide).2 h'] at h
      exact absurd h (TextBefore.irrefl _)
    · exact absurd h (TextBefore.asymm (text_before_of_lt hm' hm h'))
  · exact text_before_of_lt hm hm'

/-- The text of a moment, or the failure to have one, wherever it is wanted: for people, in a
document, and for the name of a field. -/
structure SpelledAs (m : Moment) (r : Except Failure String) : Prop where
  shown : (Value.date m).shown = r
  written : (Value.date m).written = r.map fun s => "\"" ++ s ++ "\""
  named : ∀ c v, Form.parsed (.list [.value (.date m), .token (.compare c), .value v]) =
    r.map fun s => .junction .or [.leaf ⟨s, c, v.markNull⟩]

theorem escape_of_mem_text {m : Moment} {c : Char} (hc : c ∈ m.text.toList) :
    Json.escape c = [c] := by
  have hmarks : ∀ d ∈ '-' :: layout.map Prod.snd, Json.escape d = [d] := by
    intro d hd
    fin_cases hd <;> rfl
  rw [toList_text, List.mem_append] at hc
  rcases hc with hc | hc
  · split at hc
    · exact hmarks c (List.mem_cons.2 (.inl (List.mem_singleton.1 hc)))
    · cases hc
  · rcases isDigit_or_mem_of_mem_columns hc with hdigit | hmark
    · exact Json.escape_of_isDigit hdigit
    · exact hmarks c (List.mem_cons_of_mem _ hmark)

theorem compact_date (m : Moment) : (Value.date m).toJson.compact = "\"" ++ m.text ++ "\"" := by
  have hplain : m.text.toList.flatMap Json.escape = m.text.toList := by
    rw [List.flatMap_congr fun c hc => escape_of_mem_text hc, List.flatMap_singleton']
  apply String.toList_injective
  simp [Value.toJson, Json.compact, Json.write, Json.quote, hplain]

theorem parsed_named (m : Moment) (c : Comparison) (v : Value) :
    Form.parsed (.list [.value (.date m), .token (.compare c), .value v]) =
      whenExpressible m.expressible (.junction .or [.leaf ⟨m.text, c, v.markNull⟩]) := by
  have hnormal : Form.normalItems false [.value (.date m), .token (.compare c), .value v] =
      [.value (.date m), .token (.compare c), .value v.markNull] := by
    rw [Form.normalItems_value, Form.normalItems_compare, Form.normalItems_value,
      Form.normalItems_nil, Value.negateIf_false, Value.negateIf_false]
    rfl
  rw [Form.parsed_eq, Form.normalize_list, Tree.parse_list, hnormal, Form.fieldsExpressible]
  rfl

theorem spelledAs_whenExpressible (m : Moment) :
    m.SpelledAs (whenExpressible m.expressible m.text) where
  shown := rfl
  written := by
    rw [Value.written, compact_date, map_whenExpressible]
    rfl
  named c v := by rw [parsed_named, map_whenExpressible]

/-- What the texts of two moments have to do with their instants. A moment has a text in the
writable years alone, and then one text for every use. -/
structure TextFaithful (m m' : Moment) : Prop where
  utc : ∀ d, m.utcDate = d ↔ d.Valid ∧ d.toDayNumber = m.instant / nanosPerDay
  shown_fails : (Value.date m).shown = .error .inexpressible ↔ ¬ m.InYears (-9999) 9999
  written_fails : (Value.date m).written = .error .inexpressible ↔ ¬ m.InYears (-9999) 9999
  spelled : m.InYears (-9999) 9999 → m.SpelledAs (.ok m.text)
  same : m.InYears (-9999) 9999 → m'.InYears (-9999) 9999 →
    (m.text = m'.text ↔ m.millisecond = m'.millisecond)
  length : m.InYears 0 9999 → m.text.length = 24
  ordered : m.InYears 0 9999 → m'.InYears 0 9999 →
    (TextBefore m.text.toList m'.text.toList ↔ m.millisecond < m'.millisecond)

/-- The text of a moment is its instant, rounded down to a millisecond, and nothing else. -/
theorem text_faithful (m m' : Moment) : m.TextFaithful m' where
  utc _ := utcDate_eq_iff
  shown_fails := by rw [← expressible_iff, Value.shown, whenExpressible_eq_error]; rfl
  written_fails := by rw [← expressible_iff, Value.written, whenExpressible_eq_error]; rfl
  spelled h := by
    have hspelled := m.spelledAs_whenExpressible
    rwa [whenExpressible, if_pos ((expressible_iff m).2 h)] at hspelled
  same := text_eq_iff
  length := length_text
  ordered := text_before_iff

/-- Half past midnight on the first of March, an hour ahead of UTC. -/
def beforeLeapDayEnds : Moment := ofWall ⟨2000, 3, 1⟩ 1800000000000 3600

/-- Eight in the evening of the last of February, four hours behind UTC. -/
def afterLeapDay : Moment := ofWall ⟨2000, 2, 29⟩ 72000000000000 (-14400)

theorem text_faithful_leapDay :
    beforeLeapDayEnds.SpelledAs (.ok "2000-02-29T23:30:00.000Z") ∧
      beforeLeapDayEnds.text ≠ afterLeapDay.text ∧ beforeLeapDayEnds.text.length = 24 ∧
      TextBefore beforeLeapDayEnds.text.toList afterLeapDay.text.toList := by
  have hyears : beforeLeapDayEnds.InYears 0 9999 := by decide
  have hyears' : afterLeapDay.InYears 0 9999 := by decide
  have hbefore : beforeLeapDayEnds.millisecond < afterLeapDay.millisecond := by decide
  have hfaithful := text_faithful beforeLeapDayEnds afterLeapDay
  refine ⟨hfaithful.spelled hyears.wide, ?_, hfaithful.length hyears, ?_⟩
  · exact mt (hfaithful.same hyears.wide hyears'.wide).1 hbefore.ne
  · exact (hfaithful.ordered hyears hyears').2 hbefore

end Moment
end FilterAlgebra

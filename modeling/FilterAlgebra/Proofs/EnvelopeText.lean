import FilterAlgebra.Envelope
import FilterAlgebra.Proofs.Operands
import FilterAlgebra.Proofs.TreeText

namespace FilterAlgebra

open Json (Reads ReadsMembers)

variable {l : Json.Layout}

/-- Whether a value is read back from the text of a tree as it is. -/
def Value.Stable : Value → Prop
  | text s => ∀ x : Sentinel, x.spelling ≠ s
  | float x => x.isFinite
  | date _ => False
  | _ => True

theorem Value.Stable.canon_eq {v : Value} (hv : v.Stable) : v.canon = v := by
  cases v with
  | text s =>
    rw [canon]
    split
    · next x hx => exact absurd (Sentinel.spelling_of_ofSpelling? hx) (hv x)
    · rfl
  | float x => exact if_pos hv
  | date m => exact hv.elim
  | _ => rfl

theorem Value.Stable.expressible {v : Value} (hv : v.Stable) : v.expressible := by
  cases v with
  | date m => exact hv.elim
  | _ => rfl

theorem AggregateOperation.reads_choice (o : AggregateOperation) (room : ℕ) :
    Reads l (choice.reader room) (.text o.name) (.ok o) :=
  Json.Choice.reads_bare room (by cases o <;> rfl)

namespace Aggregable

theorem member_fields (room : ℕ) :
    (record room).fields.find? (·.name == "dataField") =
        some (.of "dataField" (.text .text) fun field p => { p with field := some field }) ∧
      (record room).fields.find? (·.name == "operation") =
        some (.of "operation" (AggregateOperation.choice.reader room) fun operation p =>
          { p with operation := some operation }) := by
  simp [record, Json.Field.of]

theorem reads_reader (hl : l.Blank) (a : Aggregable) (room : ℕ) :
    Reads l (reader (room + 1)) a.toJson (.ok a) := by
  obtain ⟨hfield, hoperation⟩ := member_fields room
  exact Json.reads_record hl (record room) room
    (Json.Record.readsMembers_cons hl hfield (by simp) (Json.reads_text .text a.field)
      (Json.Record.readsMembers_last hl hoperation (by simp) (a.operation.reads_choice room)))

theorem read_text (a : Aggregable) : read a.text = .ok a :=
  (reads_reader Json.blank_compact a 126).readAll 0

end Aggregable

namespace Aggregation

theorem member_fields (room : ℕ) :
    (record room).fields.find? (·.name == "dataField") =
        some (.of "dataField" (.text .text) fun field p => { p with field := some field }) ∧
      (record room).fields.find? (·.name == "operation") =
        some (.of "operation" (AggregateOperation.choice.reader room) fun operation p =>
          { p with operation := some operation }) ∧
      (record room).fields.find? (·.name == "result") =
        some (.of "result" .float fun result p => { p with result := some result }) := by
  simp [record, Json.Field.of]

/-- A result that is not finite has become null, which is no number. -/
theorem reads_reader (hl : l.Blank) (a : Aggregation) (room : ℕ) :
    Reads l (reader (room + 1)) a.toJson
      (if a.result.isFinite then .ok { a with result := a.result.reread }
        else .error (.mismatch (.wrongType .null .float))) := by
  obtain ⟨hfield, hoperation, hresult⟩ := member_fields room
  have h := Json.reads_record hl (record room) room
    (Json.Record.readsMembers_cons hl hfield (by simp) (Json.reads_text .text a.field)
      (Json.Record.readsMembers_cons hl hoperation (by simp) (a.operation.reads_choice room)
        (Json.Record.readsMembers_last hl hresult (by simp) (Json.reads_float a.result))))
  by_cases hfinite : a.result.isFinite
  · rw [if_pos hfinite] at h ⊢
    exact h
  · rw [if_neg hfinite] at h ⊢
    exact h

theorem read_text (a : Aggregation) :
    read a.text =
      if a.result.isFinite then .ok { a with result := a.result.reread }
      else .error (.mismatch (.wrongType .null .float)) :=
  (reads_reader Json.blank_compact a 126).readAll 0

end Aggregation

theorem FilterKind.reads_choice (k : FilterKind) (room : ℕ) :
    Reads l (choice.reader room) (.text k.name) (.ok k) :=
  Json.Choice.reads_bare room (by cases k <;> rfl)

theorem Kind.reads_reader (hl : l.Blank) (k : Kind) (room : ℕ) :
    Reads l (reader (room + 1)) k.toJson (.ok k) := by
  cases k with
  | filter k => exact Json.Choice.reads_wrapping hl room rfl ((k.reads_choice room).map filter)
  | config => exact Json.Choice.reads_bare (room + 1) rfl

namespace Report

theorem member_fields (room : ℕ) :
    (record room).fields.find? (·.name == "kind") =
        some (.of "kind" (Kind.reader room) fun kind p => { p with kind := some kind }) ∧
      (record room).fields.find? (·.name == "message") =
        some (.of "message" (.text .text) fun message p => { p with message := some message }) := by
  simp [record, Json.Field.of]

theorem reads_reader (hl : l.Blank) (r : Report) (room : ℕ) :
    Reads l (reader (room + 2)) r.toJson (.ok r) := by
  obtain ⟨hkind, hmessage⟩ := member_fields (room + 1)
  exact Json.reads_record hl (record (room + 1)) (room + 1)
    (Json.Record.readsMembers_cons hl hkind (by simp) (r.kind.reads_reader hl room)
      (Json.Record.readsMembers_last hl hmessage (by simp) (Json.reads_text .text r.message)))

theorem read_text (r : Report) : read r.text = .ok r :=
  (reads_reader Json.blank_compact r 125).readAll 0

end Report

namespace Payload

theorem member_fields (room : ℕ) :
    (record room).fields.find? (·.name == "filterable") =
        some (.of "filterable" (.optional (Tree.reader room)) fun filterable p =>
          { p with filterable }) ∧
      (record room).fields.find? (·.name == "aggregables") =
        some (.of "aggregables" (.optional (.sequence room (Aggregable.reader (room - 1))))
          fun aggregables p => { p with aggregables }) := by
  simp [record, Json.Field.of]

def nest (p : Payload) : ℕ := p.filterable.elim 0 Tree.nest

def canon (p : Payload) : Payload :=
  { p with filterable := p.filterable.map fun t => t.reread.mapValues Value.canon }

theorem reads_aggregables (hl : l.Blank) (as : List Aggregable) (room : ℕ) :
    Reads l (.optional (.sequence (room + 2) (Aggregable.reader (room + 1))))
      (.array (as.map Aggregable.toJson)) (.ok (some as)) := by
  -- Every item is read as itself, so that the list is read as the monad's unit runs along it.
  have hall : as.mapM (fun a => (.ok a : Except Json.Fault Aggregable)) = .ok as := by
    have h := List.mapM_pure (m := Except Json.Fault) (l := as) (f := id)
    rwa [List.map_id] at h
  have hitems := Json.reads_sequence hl (room + 1) Aggregable.toJson
    fun a (_ : a ∈ as) => a.reads_reader hl room
  rw [hall] at hitems
  exact Json.reads_optional hitems (by simp [Json.settled])

theorem readsMembers_aggregables (hl : l.Blank) (seen : List String)
    (hseen : "aggregables" ∉ seen) (t : Option Tree) (as : Option (List Aggregable)) (room : ℕ) :
    ∃ seen', ReadsMembers l (Json.Record.member (record (room + 2)).fields) (seen, ⟨t, none⟩)
      (as.map fun as => ("aggregables", .array (as.map (·.toJson)))).toList
      (.ok (seen', ⟨t, as⟩)) := by
  cases as with
  | none => exact ⟨seen, Json.Record.readsMembers_nil hl⟩
  | some as =>
    obtain ⟨-, haggregables⟩ := member_fields (room + 2)
    exact ⟨_, Json.Record.readsMembers_last hl haggregables hseen (reads_aggregables hl as room)⟩

theorem reads_filterable (hl : l.Blank) (t : Tree) (room : ℕ) :
    Reads l (.optional (Tree.reader room)) t.toJson
      ((Json.within room Tree.nest (fun t => t.reread.mapValues Value.canon) t).map some) := by
  have hobject : t.toJson.settled ≠ .null := by
    cases t <;> simp [Tree.toJson, Predicate.toJson, Json.settled]
  exact Json.reads_optional (t.reads_reader hl room) hobject

theorem reads_reader (hl : l.Blank) (p : Payload) (room : ℕ) :
    Reads l (reader (room + 3)) p.toJson (Json.within (room + 2) nest canon p) := by
  obtain ⟨t, as⟩ := p
  obtain ⟨htree, -⟩ := member_fields (room + 2)
  cases t with
  | none =>
    have hroom : nest ⟨none, as⟩ ≤ room + 2 := Nat.zero_le _
    obtain ⟨seen, hrest⟩ := readsMembers_aggregables hl [] List.not_mem_nil none as room
    rw [Json.within_of_le hroom]
    exact Json.reads_record hl (record (room + 2)) (room + 2) hrest
  | some t =>
    have ht := reads_filterable hl t (room + 2)
    by_cases hroom : nest ⟨some t, as⟩ ≤ room + 2
    · obtain ⟨seen, hrest⟩ := readsMembers_aggregables hl ["filterable"] (by simp)
        (some (t.reread.mapValues Value.canon)) as room
      rw [Json.within_of_le (show t.nest ≤ room + 2 from hroom)] at ht
      rw [Json.within_of_le hroom]
      exact Json.reads_record hl (record (room + 2)) (room + 2)
        (Json.Record.readsMembers_cons hl htree List.not_mem_nil ht hrest)
    · -- The tree ends the record, whatever stands behind it.
      have hover : room + 2 < nest ⟨some t, as⟩ := Nat.lt_of_not_le hroom
      rw [Json.within_of_lt (show room + 2 < t.nest from hover)] at ht
      rw [Json.within_of_lt hover]
      exact Json.reads_record hl (record (room + 2)) (room + 2)
        (Json.Record.readsMembers_error hl htree List.not_mem_nil ht)

theorem read_text (p : Payload) : read p.text = Json.within 126 nest canon p :=
  (reads_reader Json.blank_compact p 124).readAll 0

/-- Whether the tree of a request has room in its text and holds nothing that the text changes. -/
def Stable (p : Payload) : Prop :=
  ∀ t ∈ p.filterable, t.nest ≤ 126 ∧ ∀ q ∈ t.leaves, q.value.Stable

/-- Whether all numbers in the tree of a request are read back from their numerals. -/
def ReadsBack (p : Payload) : Prop := ∀ t ∈ p.filterable, ∀ q ∈ t.leaves, q.value.ReadsBack

namespace Stable

variable {p : Payload}

theorem nest_le (hp : p.Stable) : p.nest ≤ 126 := by
  obtain ⟨t, as⟩ := p
  cases t with
  | none => exact Nat.zero_le _
  | some t => exact (hp t rfl).1

theorem canon_eq (hp : p.Stable) (hnumbers : p.ReadsBack) : p.canon = p := by
  obtain ⟨t, as⟩ := p
  cases t with
  | none => rfl
  | some t =>
    have hvalues := (hp t rfl).2
    have ht : t.mapValues Value.canon = t :=
      Tree.mapValues_eq_self t fun q hq => (hvalues q hq).canon_eq
    rw [canon, Option.map_some, Tree.reread_eq_self (hnumbers t rfl), ht]

theorem read_text (hp : p.Stable) (hnumbers : p.ReadsBack) : read p.text = .ok p := by
  rw [Payload.read_text, Json.within_of_le hp.nest_le, hp.canon_eq hnumbers]

theorem written (hp : p.Stable) : p.written = .ok p.text := by
  obtain ⟨t, as⟩ := p
  cases t with
  | none => rfl
  | some t =>
    have hvalues := (hp t rfl).2
    exact if_pos (t.expressible_iff.2 fun q hq => (hvalues q hq).expressible)

end Stable

/-- Aggregates are asked for in the order of the calls, after those that are there. -/
theorem foldl_withAggregable (p : Payload) (a : Aggregable) (as : List Aggregable) :
    (a :: as).foldl withAggregable p = ⟨p.filterable, some (p.aggregables.getD [] ++ a :: as)⟩ := by
  induction as generalizing p a with
  | nil => rfl
  | cons b as ih =>
    rw [List.foldl_cons, ih, withAggregable, Option.getD_some, List.append_assoc]
    rfl

end Payload

/-- Requests, aggregates, results and reports come back from their texts as they were written, as
long as their numbers are read back from their numerals and the result is finite. A request must
have a stable tree, if it has one; one with a tree of more than 126 brackets cannot be read. No two
such requests share a text, so an absent list of aggregates is none of the lists that are there,
and the aggregates keep the order in which they were asked for. -/
theorem envelopes_read_back :
    (∀ p : Payload, p.Stable →
      p.written = .ok p.text ∧ (p.ReadsBack → Payload.read p.text = .ok p)) ∧
      (∀ p : Payload, 126 < p.nest → Payload.read p.text = .error .malformed) ∧
      (∀ p q : Payload, p.Stable → q.Stable → p.ReadsBack → q.ReadsBack →
        (p.written = q.written ↔ p = q)) ∧
      (∀ (p : Payload) (a : Aggregable) (as : List Aggregable), p.Stable → p.ReadsBack →
        Payload.read ((a :: as).foldl Payload.withAggregable p).text =
          .ok ⟨p.filterable, some (p.aggregables.getD [] ++ a :: as)⟩) ∧
      (∀ a : Aggregable, Aggregable.read a.text = .ok a) ∧
      (∀ a : Aggregation, a.result.ReadsBack →
        (Aggregation.read a.text = .ok a ↔ a.result.isFinite)) ∧
      ∀ r : Report, Report.read r.text = .ok r := by
  refine ⟨fun p hp => ⟨hp.written, hp.read_text⟩, fun p hp => ?_,
    fun p q hp hq hnumbers hnumbers' => ?_, fun p a as hp hnumbers => ?_, Aggregable.read_text,
    fun a hnumbers => ?_, Report.read_text⟩
  · rw [Payload.read_text, Json.within_of_lt hp]
  · -- Equal texts are read as one request.
    refine ⟨fun h => ?_, fun h => h ▸ rfl⟩
    rw [hp.written, hq.written, Except.ok.injEq] at h
    have hread := hp.read_text hnumbers
    rw [h, hq.read_text hnumbers'] at hread
    exact (Except.ok.inj hread).symm
  · rw [Payload.foldl_withAggregable]
    exact Payload.Stable.read_text hp hnumbers
  · rw [Aggregation.read_text, Binary64.readsBack_iff_reread.1 hnumbers]
    split
    · next hfinite => simp [hfinite]
    · next hfinite => simp [hfinite]

/-- An empty conjunction beside comparisons with a sentinel and a number, and no aggregate yet. -/
def unaggregated : Payload :=
  ⟨some (.junction .or [.junction .and [], .leaf ⟨"price", .atMost, .sentinel .now⟩,
    .leaf ⟨"price", .less, .float ⟨0x3ff8000000000000⟩⟩]), some []⟩

theorem envelopes_read_back_unaggregated :
    unaggregated.Stable ∧ unaggregated.ReadsBack ∧
      unaggregated.written ≠ (Payload.ofTree unaggregated.filterable).written ∧
      Payload.read ([⟨"a\"\n", .sum⟩, ⟨"", .count⟩].foldl .withAggregable unaggregated).text =
        .ok ⟨unaggregated.filterable, some [⟨"a\"\n", .sum⟩, ⟨"", .count⟩]⟩ ∧
      Aggregation.read (Aggregation.text ⟨"price", .avg, ⟨0x3ff8000000000000⟩⟩) =
        .ok ⟨"price", .avg, ⟨0x3ff8000000000000⟩⟩ := by
  obtain ⟨-, -, hinjective, hcalls, -, haggregation, -⟩ := envelopes_read_back
  have hnumber : (⟨0x3ff8000000000000⟩ : Binary64).ReadsBack := by decide +kernel
  have hstable : unaggregated.Stable := by
    intro t ht
    obtain rfl := Option.some.inj ht
    have hfinite : (⟨0x3ff8000000000000⟩ : Binary64).isFinite := by decide
    exact ⟨by decide, by simpa [Tree.leaves, Tree.leavesOf, Value.Stable] using hfinite⟩
  have hnumbers : unaggregated.ReadsBack := by
    intro t ht
    obtain rfl := Option.some.inj ht
    simpa [Tree.leaves, Tree.leavesOf, Value.ReadsBack] using hnumber
  have hbare : (Payload.ofTree unaggregated.filterable).Stable := hstable
  refine ⟨hstable, hnumbers, ?_, hcalls _ _ _ hstable hnumbers,
    (haggregation _ hnumber).2 (by decide)⟩
  rw [ne_eq, hinjective _ _ hstable hbare hnumbers hnumbers]
  decide

end FilterAlgebra

import FilterAlgebra.Proofs.Limit
import FilterAlgebra.Proofs.Logging

namespace FilterAlgebra

namespace Config

theorem result_parseText (c : Config) (s : String) :
    (c.parseText s).result =
      match Form.read s with
      | .error f => .error (.unreadable f)
      | .ok x =>
        if x.depth ≤ c.maxDepth then .ok x.parse else .error (.tooDeep x.depth c.maxDepth) := by
  rw [parseText]
  cases hread : Form.read s with
  | error f => rfl
  | ok x => exact result_parse_of_expressible c (Form.expressible_of_read hread)

theorem result_parseText_eq_unreadable {c : Config} {s : String} {f : Json.Fault} :
    (c.parseText s).result = .error (.unreadable f) ↔ Form.read s = .error f := by
  rw [result_parseText]
  cases Form.read s with
  | error g => simp
  | ok x => by_cases hdepth : x.depth ≤ c.maxDepth <;> simp [hdepth]

theorem result_parseText_eq_tooDeep {c : Config} {s : String} {d l : ℕ} :
    (c.parseText s).result = .error (.tooDeep d l) ↔
      ∃ x, Form.read s = .ok x ∧ c.maxDepth < x.depth ∧ d = x.depth ∧ l = c.maxDepth := by
  rw [result_parseText]
  cases Form.read s with
  | error g => simp
  | ok x =>
    by_cases hdepth : x.depth ≤ c.maxDepth
    · simp [hdepth]
    · have hdeeper : c.maxDepth < x.depth := Nat.lt_of_not_le hdepth
      simp [hdepth, hdeeper, eq_comm]

/-- The limit of the reader is the one that texts meet first. -/
theorem exists_tooDeep_iff (c : Config) :
    (∃ s d l, (c.parseText s).result = .error (.tooDeep d l)) ↔ c.maxDepth < 127 := by
  constructor
  · rintro ⟨s, d, l, h⟩
    obtain ⟨x, hread, hdeeper, -⟩ := result_parseText_eq_tooDeep.1 h
    have hroom := (Form.plain_of_read hread).2
    omega
  · -- Brackets alone, one more than the limit allows, are too deep for it but not for the reader.
    intro hlimit
    have hdepth := Form.depth_list_tower c.maxDepth
    have hread := Form.read_text_tower hlimit
    exact ⟨_, _, _, result_parseText_eq_tooDeep.2 ⟨_, hread, by omega, rfl, rfl⟩⟩

theorem result_normalize_eq_error {c : Config} {s : String} {x : Form} (hread : Form.read s = .ok x)
    {e : Failure} :
    (c.normalize x).result = .error e ↔ (c.parseText s).result = .error e := by
  rw [result_normalize, result_parseText, hread]
  by_cases hdepth : x.depth ≤ c.maxDepth <;> simp [hdepth]

/-- The reader decides first, then the depth of what it has read, and nothing else does. No text is
read as a form of more than 127 lists inside one another, so a limit of 127 or more, which the one
that holds by default is, refuses no text, and every lower one refuses some. -/
theorem refusals_of_text (c : Config) :
    (∀ s f, (c.parseText s).result = .error (.unreadable f) ↔ Form.read s = .error f) ∧
      (∀ s x, Form.read s = .ok x → x.depth ≤ 127 ∧
        (∀ d l, (c.parseText s).result = .error (.tooDeep d l) ↔
          c.maxDepth < x.depth ∧ d = x.depth ∧ l = c.maxDepth) ∧
        (∀ t, (c.parseText s).result = .ok t ↔ x.depth ≤ c.maxDepth ∧ t = x.parse) ∧
        (∀ e, (c.normalize x).result = .error e ↔ (c.parseText s).result = .error e) ∧
        ∀ y, (c.normalize x).result = .ok y ↔ x.depth ≤ c.maxDepth ∧ y = x.normalize) ∧
      ((∃ s d l, (c.parseText s).result = .error (.tooDeep d l)) ↔ c.maxDepth < 127) ∧
      127 ≤ ({} : Config).maxDepth := by
  refine ⟨fun s f => result_parseText_eq_unreadable, ?_, exists_tooDeep_iff c, by decide⟩
  intro s x hread
  refine ⟨(Form.plain_of_read hread).2, ?_, ?_, fun e => result_normalize_eq_error hread, ?_⟩
  · intro d l
    simp [result_parseText_eq_tooDeep, hread]
  · intro t
    rw [result_parseText, hread]
    by_cases hdepth : x.depth ≤ c.maxDepth <;> simp [hdepth, eq_comm]
  · intro y
    rw [result_normalize]
    by_cases hdepth : x.depth ≤ c.maxDepth <;> simp [hdepth, eq_comm]

/-- Two lists where one is allowed, and a list that is not closed. -/
theorem refusals_of_text_nested :
    ((⟨1, false⟩ : Config).parseText "[ [ ] ]").result = .error (.tooDeep 2 1) ∧
      ((⟨1, false⟩ : Config).normalize (.list [.list []])).result = .error (.tooDeep 2 1) ∧
      ((⟨2, false⟩ : Config).parseText "[ [ ] ]").result = .ok (.junction .or [.junction .or []]) ∧
      ((⟨1, false⟩ : Config).parseText "[").result = .error (.unreadable .truncated) := by
  have hread : Form.read "[ [ ] ]" = .ok (.list [.list []]) := by decide +kernel
  have hdepth : (Form.list [.list []]).depth = 2 := by
    rw [Form.depth_eq_nesting]
    rfl
  have htree : Form.parse (.list [.list []]) = .junction .or [.junction .or []] := by cbv
  obtain ⟨hunreadable, hone, -⟩ := refusals_of_text ⟨1, false⟩
  obtain ⟨-, htwo, -⟩ := refusals_of_text ⟨2, false⟩
  obtain ⟨-, htooDeep, -, hnormalize, -⟩ := hone _ _ hread
  obtain ⟨-, -, hok, -⟩ := htwo _ _ hread
  have hrefused := (htooDeep 2 1).2 ⟨by rw [hdepth]; decide, hdepth.symm, rfl⟩
  refine ⟨hrefused, (hnormalize _).2 hrefused, ?_, ?_⟩
  · exact (hok _).2 ⟨hdepth.le, htree.symm⟩
  · exact (hunreadable _ _).2 (by decide +kernel)

end Config
end FilterAlgebra

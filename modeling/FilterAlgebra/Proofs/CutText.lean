import FilterAlgebra.Proofs.CutDocument
import FilterAlgebra.Proofs.FormText
import FilterAlgebra.Proofs.TreeText

namespace FilterAlgebra

namespace Json

variable {α β σ : Type} {l : Layout} {p : Reader α} {P : α → Prop} {j : Json} {a : α}

/-- A reader that may take anything for what is missing. -/
abbrev Anything (_ : α) : Prop := True

theorem survives_text (expected : Expected) (k : String) :
    Survives l (.text expected) Anything (text k) k where
  reads := reads_text expected k
  mayMiss := by
    intro g depth s hg hs
    obtain ⟨g', t, hg', rfl, ht⟩ := exists_of_cutOff_blanks hg (startsItem_write _).ne_nil hs
    rw [Reader.text]
    dsimp only
    rw [skipBlanks_append hg']
    rw [write, List.append_nil] at ht
    rcases cutOff_cons.1 ht with rfl | ⟨u, rfl, hu⟩
    · exact .inl rfl
    · rw [skipBlanks_cons (by decide)]
      refine .inl ?_
      simp only [unquote_cutOff hu, bind, Except.bind]

/-- What is left of null begins the way null does, and nothing else does. -/
theorem mayMiss_optional (h : MayMiss l p P j) : MayMiss l p.optional Anything j := by
  intro g depth s hg hs
  have hsome : MeetsEnd Anything ((p.map some).run s) :=
    h.map (Q := Anything) (fun _ _ => trivial) g depth s hg hs
  rw [Reader.optional]
  dsimp only
  split
  · next t hn =>
    obtain ⟨g', u, hg', rfl, hu⟩ := exists_of_cutOff_blanks hg (startsItem_write j).ne_nil hs
    rw [skipBlanks_append hg'] at hn
    obtain ⟨c, v, hc, hopens, hnull⟩ := write_eq_cons l depth j []
    rw [hc] at hu
    rcases cutOff_cons.1 hu with rfl | ⟨w, rfl, hw⟩
    · cases hn
    -- What is left begins with an n, and only the text of null does.
    have hhead : skipBlanks (c :: w) = c :: w :=
      skipBlanks_of_startsItem allBlank_nil ⟨c, w, rfl, hopens⟩
    rw [hhead] at hn
    obtain ⟨rfl, rfl⟩ := List.cons.inj hn
    have hj : j.settled = null := by
      by_contra h
      exact hnull h rfl
    rw [← write_settled, hj] at hc
    obtain rfl : v = ['u', 'l', 'l'] := (List.cons.inj hc).2.symm
    rw [word_cutOff hw]
    exact .inl rfl
  · exact hsome

theorem misses_sequence (hl : l.Blank) (room : ℕ) {xs : List Json}
    (hxs : ∀ x ∈ xs, ∃ a, Survives l p P x a) : Misses l (.sequence (room + 1) p) (array xs) := by
  intro g depth s hg hs
  obtain ⟨g', t, hg', rfl, ht⟩ := exists_of_cutOff_blanks hg (startsItem_write _).ne_nil hs
  rw [Reader.sequence]
  dsimp only
  rw [skipBlanks_append hg']
  rcases items_array_cutOff hl hxs ht with rfl | ⟨u, rfl, hu⟩
  · rfl
  · rw [skipBlanks_cons (by decide)]
    exact hu

namespace Record

variable {name : String} {put : α → σ → σ} {seen : List String} {acc : σ}
  {ms : List (String × Json)}

theorem survives_field (hx : Survives l p P j a) (seen : List String) (acc : σ) :
    Survives l ((p.map put).map fun put => (name :: seen, put acc)) Anything j
      (name :: seen, put a acc) :=
  (hx.map (Q := Anything) (f := put) fun _ _ => trivial).map fun _ _ => trivial

theorem missesMembers_cons (hl : l.Blank) {fields : List (Field σ)}
    (hf : fields.find? (·.name == name) = some (.of name p put)) (hseen : name ∉ seen)
    (hx : Survives l p P j a)
    (hms : MissesMembers l (member fields) (name :: seen, put a acc) ms) :
    MissesMembers l (member fields) (seen, acc) ((name, j) :: ms) :=
  Json.missesMembers_cons hl (member_of hf hseen) (survives_field hx seen acc) hms

end Record

theorem misses_record (hl : l.Blank) (rec : Record σ β) (room : ℕ) {name : String}
    {put : α → σ → σ} {ms : List (String × Json)}
    (hf : rec.fields.find? (·.name == name) = some (.of name p put)) (hx : Survives l p P j a)
    (hms : MissesMembers l (Record.member rec.fields) ([name], put a rec.blank) ms) :
    Misses l (rec.reader (room + 1)) (object ((name, j) :: ms)) := by
  intro g depth s hg hs
  obtain ⟨g', t, hg', rfl, ht⟩ := exists_of_cutOff_blanks hg (startsItem_write _).ne_nil hs
  have hmember : Record.member rec.fields name ([], rec.blank) = .ok _ :=
    Record.member_of hf List.not_mem_nil
  rcases members_object_cutOff hl hmember (Record.survives_field hx [] rec.blank) hms ht with
    rfl | ⟨u, rfl, hu⟩
  · rw [Record.reader]
    dsimp only
    rw [skipBlanks_append hg']
    rfl
  · rw [rec.run_object room ((skipBlanks_append hg' _).trans (skipBlanks_cons (by decide) u)), hu]
    rfl

end Json

namespace Value

variable {l : Json.Layout}

theorem survives_reader (hl : l.Blank) (v : Value) (room : ℕ) :
    Json.Survives l (reader room) Json.Anything v.toJson v.reread.canon where
  reads := v.reads_reader hl room
  mayMiss := by
    rw [reader]
    refine (Json.mayMiss_document hl v.toJson v.writable_toJson room ?_).check ?_
    · rw [v.nesting_toJson]
      exact Nat.zero_le room
    · intro j hj
      cases j with
      | array xs => cases hj
      | object ms => cases hj
      | _ => exact ⟨_, rfl, trivial⟩

end Value

namespace Form

variable {l : Json.Layout}

theorem misses_list (hl : l.Blank) {items : List Form} {room : ℕ}
    (hroom : (list items).nesting ≤ room) : Json.Misses l (reader room) (list items).toJson := by
  rw [← nesting_toJson, toJson] at hroom
  cases room with
  | zero => cases hroom
  | succ room =>
    have hitems := Json.survives_items hl (itemsToJson items) (writableItems_itemsToJson items) room
      (Nat.le_of_succ_le_succ hroom)
    exact (Json.misses_array hl hitems).check _

end Form

namespace RawNode

variable {l : Json.Layout} {room : ℕ} {nodes : Json.Reader (List RawNode)}

theorem missesMembers_leaf (hl : l.Blank) (p : Predicate) (kind : String) :
    Json.MissesMembers l (Json.Record.member (record room nodes).fields)
      (["type"], ⟨some kind, none, none, []⟩)
      [("dataField", .text p.field), ("value", p.value.toJson)] := by
  obtain ⟨-, hfield, hvalue, -⟩ := member_fields room nodes
  have hname : (Json.text p.field).settled ≠ .null := by simp [Json.settled]
  have hread := Json.survives_text (l := l) .text p.field
  have hfieldSurvives : Json.Survives l (.optional (.text .text)) Json.Anything (.text p.field)
      (some p.field) :=
    ⟨Json.reads_optional hread.reads hname, Json.mayMiss_optional hread.mayMiss⟩
  have hvalueSurvives : Json.Survives l (.optional (Value.reader room)) Json.Anything p.value.toJson
      (operand p.value.reread.canon) :=
    ⟨reads_operand hl p.value room, Json.mayMiss_optional (p.value.survives_reader hl room).mayMiss⟩
  refine Json.Record.missesMembers_cons hl hfield (by simp) hfieldSurvives ?_
  refine Json.Record.missesMembers_cons hl hvalue (by simp) hvalueSurvives ?_
  exact Json.missesMembers_nil hl

theorem reads_listReader (hl : l.Blank) {ts : List Tree} (hroom : Tree.nestOf ts ≤ room) :
    Json.Reads l (listReader (room + 1)) (.array (Tree.listToJson ts))
      (.ok (ofTrees (Tree.mapValuesOf Value.reread ts))) := by
  have h := Json.reads_sequence hl room Tree.toJson (reads_trees hl ts room)
  rwa [mapM_kept, Json.within_of_le hroom, ← listToJson_eq_map] at h

mutual

theorem misses_tree (hl : l.Blank) : (t : Tree) → (room : ℕ) → t.nest ≤ room →
    Json.Misses l (reader room) t.toJson
  | .leaf p, room + 1, _ => by
    obtain ⟨hkind, -⟩ := member_fields room (listReader room)
    exact Json.misses_record hl (record room (listReader room)) room hkind
      (Json.survives_text _ _) (missesMembers_leaf hl p p.operator.spelling)
  | .junction c ts, 0, hroom | .junction c ts, 1, hroom => by
    rw [Tree.nest] at hroom
    omega
  | .junction c ts, room + 2, hroom => by
    rw [Tree.nest] at hroom
    obtain ⟨hkind, -, -, hinner⟩ := member_fields (room + 1) (listReader (room + 1))
    -- The brace of a node takes one level of the room, and the bracket of its nodes another.
    have hinside : Tree.nestOf ts ≤ room := by omega
    have hts : Json.Survives l (listReader (room + 1)) Json.Anything (.array (Tree.listToJson ts))
        (ofTrees (Tree.mapValuesOf Value.reread ts)) :=
      ⟨reads_listReader hl hinside,
        (Json.misses_sequence hl room (survives_trees hl ts room hinside)).mayMiss _⟩
    refine Json.misses_record hl (record (room + 1) (listReader (room + 1))) (room + 1) hkind
      (Json.survives_text _ _) ?_
    exact Json.Record.missesMembers_cons hl hinner (by simp) hts (Json.missesMembers_nil hl)

theorem survives_trees (hl : l.Blank) : (ts : List Tree) → (room : ℕ) → Tree.nestOf ts ≤ room →
    ∀ j ∈ Tree.listToJson ts, ∃ n, Json.Survives l (reader room) Json.Anything j n
  | [], _, _ => List.forall_mem_nil _
  | t :: ts, room, hroom => by
    rw [Tree.nestOf, max_le_iff] at hroom
    have hread : Json.Reads l (reader room) t.toJson (.ok (ofTree t.reread)) := by
      have h := reads_tree hl t room
      rwa [kept, Json.within_of_le hroom.1] at h
    rw [Tree.listToJson]
    exact List.forall_mem_cons.2 ⟨⟨_, hread, (misses_tree hl t room hroom.1).mayMiss _⟩,
      survives_trees hl ts room hroom.2⟩

end
end RawNode

theorem Form.read_cutOff {items : List Form} (hdepth : (list items).depth ≤ 127) {s : String}
    (hs : Json.CutOff s.toList (list items).text.toList) : read s = .error .truncated := by
  rw [depth_eq_nesting] at hdepth
  rw [text, Json.compact, String.toList_ofList] at hs
  have hmisses : Json.Misses .compact (reader 127) (list items).toJson :=
    misses_list Json.blank_compact hdepth
  exact hmisses.readAll 0 hs

theorem Tree.read_cutOff {t : Tree} (hnest : t.toJson.nesting ≤ 127) {s : String}
    (hs : Json.CutOff s.toList t.text.toList) : read s = .error .truncated := by
  rw [nesting_toJson] at hnest
  rw [text, Json.compact, String.toList_ofList] at hs
  exact ((RawNode.misses_tree Json.blank_compact t 127 hnest).check _).readAll 0 hs

/-- A text that is not too deep and has lost something at its end is refused for what it has lost,
wherever it was cut. -/
theorem truncated_of_cutOff :
    (∀ items : List Form, (Form.list items).expressible → (Form.list items).depth ≤ 127 →
      (Form.list items).written = .ok (Form.list items).text ∧
        ∀ s : String, Json.CutOff s.toList (Form.list items).text.toList →
          Form.read s = .error .truncated) ∧
    ∀ t : Tree, t.expressible → t.toJson.nesting ≤ 127 →
      t.written = .ok t.text ∧
        ∀ s : String, Json.CutOff s.toList t.text.toList → Tree.read s = .error .truncated := by
  refine ⟨fun items hx hdepth => ⟨if_pos hx, fun s hs => Form.read_cutOff hdepth hs⟩,
    fun t hx hnest => ⟨if_pos hx, fun s hs => Tree.read_cutOff hnest hs⟩⟩

theorem truncated_of_cutOff_inside :
    (Form.list [.value (.text "a"), .token (.compare .equal), .value (.int 12)]).expressible ∧
      (Form.list [.value (.text "a"), .token (.compare .equal), .value (.int 12)]).depth ≤ 127 ∧
      Form.read "[\"a\",\"=\",1" = .error .truncated ∧
      (Tree.leaf ⟨"6\"", .equal, .null⟩).expressible ∧
      (Tree.leaf ⟨"6\"", .equal, .null⟩).toJson.nesting ≤ 127 ∧
      Tree.read "\x7b\"type\":\"=\",\"dataField\":\"6\\" = .error .truncated := by
  have hx :
      (Form.list [.value (.text "a"), .token (.compare .equal), .value (.int 12)]).expressible := by
    decide
  have hdepth :
      (Form.list [.value (.text "a"), .token (.compare .equal), .value (.int 12)]).depth ≤ 127 := by
    rw [Form.depth_eq_nesting]
    decide
  have ht : (Tree.leaf ⟨"6\"", .equal, .null⟩).expressible := by decide
  have hnest : (Tree.leaf ⟨"6\"", .equal, .null⟩).toJson.nesting ≤ 127 := by decide
  refine ⟨hx, hdepth, (truncated_of_cutOff.1 _ hx hdepth).2 _ ⟨?_, ?_⟩, ht, hnest,
    (truncated_of_cutOff.2 _ ht hnest).2 _ ⟨?_, ?_⟩⟩
  all_goals decide +kernel

end FilterAlgebra

import BridgeAudit.Proofs.Record.Parsing
import BridgeAudit.Proofs.Text.Key

/-!
The shape of a record in either spelling of its keys.

* `Key.IsPlain`: a key that is in snake case or in camel case.
* `Key.IsPlain.snake_eq_iff`: such a key has a name for its snake case spelling if and only if it is
  one of the two spellings of the name.
* `hasField_snakeKeys`: a field is there before and after the keys are put in snake case, or neither
  before nor after.
* `classify_snakeKeys`: a record with plain keys has the shape that it is parsed by.
-/

namespace BridgeAudit

variable {name key : String} {ms : List (String × Json)}

namespace Key

/-- A key in snake case or in camel case. -/
def IsPlain (key : String) : Prop := NoCapital key ∨ IsCamel key

instance (key : String) : Decidable (IsPlain key) :=
  inferInstanceAs (Decidable (NoCapital key ∨ IsCamel key))

/-- Both spellings of a name are put in snake case as the name. -/
lemma Returns.snake_eq (hname : Returns name) (hkey : key = name ∨ key = camel name) :
    snake key = name := by
  rcases hkey with rfl | rfl
  · exact hname.1
  · exact hname.2

/-- A plain key has a name for its snake case spelling just if it is a spelling of that name. -/
lemma IsPlain.snake_eq_iff (hkey : IsPlain key) (hname : Returns name) :
    snake key = name ↔ key = name ∨ key = camel name := by
  refine ⟨?_, hname.snake_eq⟩
  rintro rfl
  rcases hkey with hkey | hkey
  · exact .inl (snake_eq_self hkey).symm
  · exact .inr (camel_snake hkey).symm

/-- The camel case spelling of a name is in snake case only if it is the name itself. -/
lemma Returns.eq_of_noCapital_camel (hname : Returns name) (h : NoCapital (camel name)) :
    camel name = name := (snake_eq_self h).symm.trans hname.2

end Key

/-! ### Fields -/

lemma hasField_iff : hasField ms name ↔ ∃ m ∈ ms, m.1 = name ∨ m.1 = Key.camel name := by
  simp only [hasField, Bool.or_eq_true, Members.has_iff, List.mem_map]
  constructor
  · rintro (⟨m, hm, rfl⟩ | ⟨m, hm, hkey⟩)
    · exact ⟨m, hm, .inl rfl⟩
    · exact ⟨m, hm, .inr hkey⟩
  · rintro ⟨m, hm, rfl | hkey⟩
    · exact .inl ⟨m, hm, rfl⟩
    · exact .inr ⟨m, hm, hkey⟩

lemma has_snakeKeys :
    Members.has (Json.object ms).snakeKeys.members name ↔ ∃ m ∈ ms, Key.snake m.1 = name := by
  rw [Json.snakeKeys, Json.members, Members.has_iff, Members.mem_keys_ofList,
    Json.snakeKeysMembers_eq_map, List.map_map, List.mem_map]
  rfl

/-- Once all keys are in snake case, a field is there if some key has its name for that spelling. -/
lemma hasField_snakeKeys_iff (hname : Key.Returns name) :
    hasField (Json.object ms).snakeKeys.members name ↔ ∃ m ∈ ms, Key.snake m.1 = name := by
  rw [hasField, Bool.or_eq_true, has_snakeKeys, has_snakeKeys, or_iff_left_iff_imp]
  rintro ⟨m, hm, hcamel⟩
  -- a camel case spelling without a capital is the name
  have hself := hname.eq_of_noCapital_camel (hcamel ▸ Key.noCapital_snake m.1)
  exact ⟨m, hm, hcamel.trans hself⟩

/-- A field is there before and after the keys are put in snake case, or neither time. -/
lemma hasField_snakeKeys (hkeys : ∀ m ∈ ms, Key.IsPlain m.1) (hname : Key.Returns name) :
    hasField (Json.object ms).snakeKeys.members name = hasField ms name := by
  rw [Bool.eq_iff_iff, hasField_snakeKeys_iff hname, hasField_iff]
  exact exists_congr fun m => and_congr_right fun hm => (hkeys m hm).snake_eq_iff hname

/-- The names of the telling fields come back from both of their spellings. -/
lemma returns_of_telling : ∀ name ∈ tellingFields, Key.Returns name := by
  decide

lemma classifyMembers_snakeKeys (hkeys : ∀ m ∈ ms, Key.IsPlain m.1) :
    classifyMembers (Json.object ms).snakeKeys.members = classifyMembers ms :=
  classifyMembers_congr fun name hname => hasField_snakeKeys hkeys (returns_of_telling name hname)

/-! ### Shapes -/

namespace Record

variable {v w : Json} {c : Category}

/-- What is parsed, or fails to decode, has the shape of the value with its keys in snake case. -/
lemma classify_snakeKeys_eq_some_iff : classify? v.snakeKeys = some c ↔
    (∃ r, parse v = .ok r ∧ r.category = c) ∨ ∃ fault, parse v = .error (.malformed c fault) := by
  simp only [parse]
  cases hclass : classify? v.snakeKeys with
  | none => simp
  | some d =>
      cases hdecode : decode d v.snakeKeys with
      | ok r => simp [category_of_decode hdecode, hdecode]
      | error fault => simp [hdecode]

/-- What has no shape with its keys in snake case is not classified, and the error shows it so. -/
lemma classify_snakeKeys_eq_none_iff : classify? v.snakeKeys = none ↔
    parse v = .error (.unclassifiable v.snakeKeys) := by
  simp only [parse]
  cases hclass : classify? v.snakeKeys with
  | none => simp
  | some d => cases hdecode : decode d v.snakeKeys <;> simp [hdecode]

end Record

/-- **Both spellings are classified alike.** A value whose own keys are all in snake case or in
camel case has the same shape before and after its keys are put in snake case, or neither time any.
So its shape is that of the record it is parsed as, or the one it is malformed as, and without a
shape it is not classified when it is parsed either. -/
theorem classify_snakeKeys (v : Json) (hkeys : ∀ m ∈ v.members, Key.IsPlain m.1) :
    classify? v.snakeKeys = classify? v ∧
    (∀ c, classify? v = some c ↔ (∃ r, Record.parse v = .ok r ∧ r.category = c) ∨
      ∃ fault, Record.parse v = .error (.malformed c fault)) ∧
    (classify? v = none ↔ Record.parse v = .error (.unclassifiable v.snakeKeys)) := by
  have hshape : classify? v.snakeKeys = classify? v := by
    cases v with
    | object ms => exact classifyMembers_snakeKeys hkeys
    | _ => rfl
  rw [← hshape]
  exact ⟨rfl, fun c => Record.classify_snakeKeys_eq_some_iff, Record.classify_snakeKeys_eq_none_iff⟩

/-- A withdrawal with keys in both spellings, of which the date tells the shape. -/
theorem classify_mixedSpellings :
    let v : Json := .object [("eth_tx_hash", .string "a"), ("executionDate", .null)]
    (∀ m ∈ v.members, Key.IsPlain m.1) ∧ classify? v = some .unauditedWithdrawal ∧
      classify? v.snakeKeys = some .unauditedWithdrawal := by
  intro v
  have hkeys : ∀ m ∈ v.members, Key.IsPlain m.1 := by decide
  have hshape : classify? v = some .unauditedWithdrawal := by decide
  exact ⟨hkeys, hshape, (classify_snakeKeys v hkeys).1.trans hshape⟩

-- a key of neither spelling may become one of the keys that tell a shape
example : classify? (.object [("Burn", .null)]) = none ∧
    classify? (Json.object [("Burn", .null)]).snakeKeys = some .unauditedBurn := by decide

end BridgeAudit

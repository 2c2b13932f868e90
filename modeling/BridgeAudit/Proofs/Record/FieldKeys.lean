import BridgeAudit.Proofs.Record.Classification

/-!
Well-formed keys in their two spellings.

* `Key.IsSnake.returns`: a name in proper snake case comes back from both of its spellings.
* `eq_of_hasField`: no member of an object is there for two names.
* `Json.perm_snakeKeys`: no two members with their keys in camel case fall together in snake case.
* `spellings_inverse`: each spelling undoes the other on its own class of keys, and on no other key.
-/

namespace BridgeAudit

variable {name other : String} {m : String × Json} {ms : List (String × Json)}

/-- A name in proper snake case comes back from both of its spellings. -/
lemma Key.IsSnake.returns (h : Key.IsSnake name) : Key.Returns name :=
  ⟨Key.snake_eq_self h.noCapital, Key.snake_camel h⟩

lemma Key.Returns.snake_eq_of_hasField (hname : Key.Returns name) (h : hasField [m] name) :
    Key.snake m.1 = name := by
  obtain ⟨_, hmem, hkey⟩ := hasField_iff.mp h
  obtain rfl := List.mem_singleton.mp hmem
  exact hname.snake_eq hkey

/-- No member of an object is there for two names. -/
lemma eq_of_hasField (hname : Key.IsSnake name) (hother : Key.IsSnake other)
    (h : hasField [m] name) (h' : hasField [m] other) : name = other :=
  (hname.returns.snake_eq_of_hasField h).symm.trans (hother.returns.snake_eq_of_hasField h')

/-- Members with different keys in camel case are all kept once the keys are in snake case. -/
lemma Json.perm_snakeKeys (hdistinct : (ms.map (·.1)).Nodup) (hkeys : ∀ m ∈ ms, Key.IsCamel m.1) :
    (Json.object ms).snakeKeys.members.Perm
      (ms.map fun m => (Key.snake m.1, m.2.snakeKeys)) := by
  rw [Json.snakeKeys, Json.members, Json.snakeKeysMembers_eq_map]
  refine Members.ofList_perm ?_
  have hsnake : ((ms.map (·.1)).map Key.snake).Nodup := by
    refine hdistinct.map_on fun key hkey key' hkey' heq => ?_
    obtain ⟨m, hm, rfl⟩ := List.mem_map.mp hkey
    obtain ⟨m', hm', rfl⟩ := List.mem_map.mp hkey'
    exact Key.bijOn_snake.injOn (hkeys m hm) (hkeys m' hm') heq
  rwa [List.map_map] at hsnake ⊢

/-- **The two spellings are inverse to each other.** A key comes back from its spelling in snake
case just if it is in camel case, and from its spelling in camel case just if it is in proper snake
case. Each of the spellings maps its class of keys onto the other one to one, so that different keys
of a class never fall together: no member of an object is there for two names, and none is lost when
keys in camel case are put in snake case. -/
theorem spellings_inverse :
    (∀ key, Key.camel (Key.snake key) = key ↔ Key.IsCamel key) ∧
    (∀ key, Key.snake (Key.camel key) = key ↔ Key.IsSnake key) ∧
    Set.BijOn Key.snake {key | Key.IsCamel key} {key | Key.IsSnake key} ∧
    Set.BijOn Key.camel {key | Key.IsSnake key} {key | Key.IsCamel key} ∧
    (∀ m name other, Key.IsSnake name → Key.IsSnake other →
      hasField [m] name → hasField [m] other → name = other) ∧
    ∀ ms, (ms.map (·.1)).Nodup → (∀ m ∈ ms, Key.IsCamel m.1) →
      (Json.object ms).snakeKeys.members.Perm
        (ms.map fun m => (Key.snake m.1, m.2.snakeKeys)) :=
  ⟨fun _ => Key.camel_snake_eq_iff, fun _ => Key.snake_camel_eq_iff, Key.bijOn_snake,
    Key.bijOn_camel, fun _ _ _ => eq_of_hasField, fun _ => Json.perm_snakeKeys⟩

/-- A key with digits, and with a capital that is none in ASCII, beside the key of another field. -/
theorem spellings_of_mixedKey :
    let key := "2ndÜbertragB58Addr"
    let name := "2ndÜbertrag_b58_addr"
    Key.IsCamel key ∧ Key.IsSnake name ∧ Key.snake key = name ∧ Key.camel name = key ∧
      (∀ other, Key.IsCamel other → Key.snake other = name → other = key) ∧
      (∀ other, Key.IsSnake other → hasField [(key, .null)] other → other = name) ∧
      (Json.object [(key, .null), ("mintTxId", .null)]).snakeKeys.members.Perm
        [(name, .null), ("mint_tx_id", .null)] := by
  intro key name
  obtain ⟨hcamel, -, honto, -, hone, hkept⟩ := spellings_inverse
  have hkey : Key.IsCamel key := by decide
  have hname : Key.IsSnake name := by decide
  have hsnake : Key.snake key = name := by decide
  have hback : Key.camel name = key := hsnake ▸ (hcamel key).mpr hkey
  refine ⟨hkey, hname, hsnake, hback, fun other hother heq => ?_, fun other hother hfield => ?_, ?_⟩
  · exact honto.injOn hother hkey (heq.trans hsnake.symm)
  · exact hone _ other name hother hname hfield (by decide)
  · have hlinked : Key.snake "mintTxId" = "mint_tx_id" := by decide
    have hperm := hkept [(key, .null), ("mintTxId", .null)] (by decide) (by decide)
    rwa [List.map_cons, List.map_cons, List.map_nil, hsnake, hlinked, Json.snakeKeys] at hperm

-- just outside: a digit behind an underscore, two underscores, and a capital in front
example : Key.snake (Key.camel "b_58") = "b58" ∧
    Key.snake (Key.camel "block__index") = "block_index" ∧
    Key.camel (Key.snake "Burn") = "burn" := by decide

end BridgeAudit

import Mathlib
import BridgeAudit.Text.Key

/-!
Keys and their two spellings.

* `Key.noCapital_snake`, `Key.snake_eq_self`: a key in snake case has no capital, and a key without
  a capital is in snake case.
* `Key.IsCamel`, `Key.camel_snake`: a key in camel case comes back from snake case.
* `Key.IsSnake`, `Key.snake_camel`: a key in proper snake case comes back from camel case.
* `Key.camel_snake_eq_iff`, `Key.snake_camel_eq_iff`: no other key comes back.
* `Key.bijOn_snake`, `Key.bijOn_camel`: the two classes of keys are mapped onto each other, one to
  one.
* `Key.lt_snake`: every other spelling of a key stands in front of its snake case spelling.
-/

namespace BridgeAudit

namespace Key

variable {c : Char} {cs ds : List Char} {key : String}

/-! ### Characters -/

lemma isUpper_iff_toNat : c.isUpper ↔ 65 ≤ c.toNat ∧ c.toNat ≤ 90 := by
  simp [Char.isUpper, UInt32.le_iff_toNat_le, ← Char.toNat_val]

lemma toNat_toLower (h : c.isUpper) : c.toLower.toNat = c.toNat + 32 := by
  obtain ⟨-, hle⟩ := isUpper_iff_toNat.mp h
  rw [Char.toLower_eq_of_isUpper h, Char.toNat_ofNat, if_pos (.inl (by omega))]

/-- A capital stands in front of its small letter. -/
lemma lt_toLower (h : c.isUpper) : c < c.toLower := by
  rw [Char.lt_def, UInt32.lt_iff_toNat_lt, Char.toNat_val, Char.toNat_val, toNat_toLower h]
  omega

/-- A capital stands in front of the underscore. -/
lemma lt_underscore (h : c.isUpper) : c < '_' := by
  have hle := (isUpper_iff_toNat.mp h).2
  rw [Char.lt_def, UInt32.lt_iff_toNat_lt, Char.toNat_val]
  exact Nat.lt_of_le_of_lt hle (by decide)

lemma toLower_ne_underscore (h : c.isUpper) : c.toLower ≠ '_' := by
  intro heq
  have hnat := toNat_toLower h
  rw [heq] at hnat
  have hge := (isUpper_iff_toNat.mp h).1
  have hunderscore : '_'.toNat = 95 := rfl
  omega

lemma isLower_toLower (h : c.isUpper) : c.toLower.isLower := by
  rw [Char.isLower_toLower_eq_isAlpha, Char.isAlpha, h, Bool.true_or]

lemma isUpper_toUpper (h : c.isLower) : c.toUpper.isUpper := by
  rw [Char.isUpper_toUpper_eq_isAlpha, Char.isAlpha, h, Bool.or_true]

lemma toUpper_toLower (h : c.isUpper) : c.toLower.toUpper = c := by
  rw [Char.toUpper_toLower_eq_toUpper]
  exact Char.toUpper_eq_of_not_isLower (Char.not_isLower_of_isUpper h)

lemma toLower_eq_underscore_iff : c.toLower = '_' ↔ c = '_' := by
  constructor
  · intro h
    have hc : c.isUpper = false := by simpa using fun hc => toLower_ne_underscore hc h
    rwa [toLower_of_not_isUpper hc] at h
  · rintro rfl
    rfl

lemma toUpper_ne_underscore (h : c ≠ '_') : c.toUpper ≠ '_' := by
  intro heq
  have hlower : c.toUpper.toLower = '_' := by rw [heq]; rfl
  rw [Char.toLower_toUpper_eq_toLower] at hlower
  exact h (toLower_eq_underscore_iff.mp hlower)

/-! ### Keys in snake case -/

instance (key : String) : Decidable (NoCapital key) := List.decidableBAll _ key.toList

@[simp] lemma toList_snake : (snake key).toList = snakeChars key.toList := String.toList_ofList

lemma isUpper_snakeTail : ∀ x ∈ snakeTail cs, x.isUpper = false := by
  induction cs with
  | nil => simp [snakeTail]
  | cons c cs ih =>
      rw [snakeTail]
      split
      next hc => simpa using ih
      next hc => simpa [hc] using ih

/-- There is no capital in a key in snake case. -/
lemma noCapital_snake (key : String) : NoCapital (snake key) := by
  rw [NoCapital, toList_snake]
  cases key.toList with
  | nil => simp [snakeChars]
  | cons c cs => simpa [snakeChars] using isUpper_snakeTail

lemma snakeTail_eq_self (h : ∀ x ∈ cs, x.isUpper = false) : snakeTail cs = cs := by
  induction cs with
  | nil => rfl
  | cons c cs ih =>
      rw [List.forall_mem_cons] at h
      rw [snakeTail, if_neg (by simp [h.1]), ih h.2]

/-- A key without a capital is in snake case. -/
lemma snake_eq_self (h : NoCapital key) : snake key = key := by
  rw [← String.toList_inj, toList_snake]
  rw [NoCapital] at h
  cases hcs : key.toList with
  | nil => rfl
  | cons c cs =>
      rw [hcs, List.forall_mem_cons] at h
      rw [snakeChars, toLower_of_not_isUpper h.1, snakeTail_eq_self h.2]

/-! ### Keys in camel case -/

/-- A key in camel case: it has no underscore and does not begin with a capital. -/
def IsCamel (key : String) : Prop :=
  '_' ∉ key.toList ∧ key.toList.head?.any Char.isUpper = false

instance (key : String) : Decidable (IsCamel key) :=
  inferInstanceAs (Decidable ('_' ∉ key.toList ∧ key.toList.head?.any Char.isUpper = false))

@[simp] lemma toList_camel : (camel key).toList = camelChars false key.toList :=
  String.toList_ofList

lemma camelChars_cons_of_ne (h : c ≠ '_') :
    camelChars false (c :: cs) = c :: camelChars false cs := by
  rw [camelChars, if_neg h, if_neg Bool.false_ne_true]

lemma camelChars_cons_of_isLower (h : c.isLower) :
    camelChars true (c :: cs) = c.toUpper :: camelChars false cs := by
  have hc : c ≠ '_' := by
    rintro rfl
    exact absurd h (by decide)
  rw [camelChars, if_neg hc, if_pos rfl]

/-- What has been raised by an underscore in front is found again. -/
lemma camelChars_snakeTail (h : '_' ∉ cs) : camelChars false (snakeTail cs) = cs := by
  induction cs with
  | nil => rfl
  | cons c cs ih =>
      rw [List.mem_cons, not_or] at h
      rw [snakeTail]
      split
      next hc =>
        rw [camelChars, if_pos rfl, camelChars_cons_of_isLower (isLower_toLower hc),
          toUpper_toLower hc, ih h.2]
      next hc => rw [camelChars_cons_of_ne (Ne.symm h.1), ih h.2]

/-- A key in camel case comes back from snake case. -/
lemma camel_snake (h : IsCamel key) : camel (snake key) = key := by
  obtain ⟨hunderscore, hfirst⟩ := h
  rw [← String.toList_inj, toList_camel, toList_snake]
  cases hcs : key.toList with
  | nil => rfl
  | cons c cs =>
      rw [hcs, List.mem_cons, not_or] at hunderscore
      rw [hcs] at hfirst
      rw [snakeChars, toLower_of_not_isUpper hfirst,
        camelChars_cons_of_ne (Ne.symm hunderscore.1), camelChars_snakeTail hunderscore.2]

/-! ### Keys in proper snake case -/

/-- Behind each underscore there is a small letter. -/
def Joins (cs : List Char) : Prop := ∀ rest, '_' :: rest <:+ cs → rest.head?.any Char.isLower

lemma joins_nil : Joins [] := fun _ h => absurd (List.suffix_nil.mp h) (List.cons_ne_nil _ _)

lemma joins_cons : Joins (c :: cs) ↔ (c = '_' → cs.head?.any Char.isLower) ∧ Joins cs := by
  simp only [Joins, List.suffix_cons_iff, List.cons.injEq]
  constructor
  · exact fun h => ⟨fun hc => h cs (.inl ⟨hc.symm, rfl⟩), fun rest hrest => h rest (.inr hrest)⟩
  · rintro ⟨hfirst, hlater⟩ rest (⟨hc, rfl⟩ | hrest)
    · exact hfirst hc.symm
    · exact hlater rest hrest

lemma Joins.of_suffix (h : Joins ds) (hsuffix : cs <:+ ds) : Joins cs :=
  fun rest hrest => h rest (hrest.trans hsuffix)

instance decidableJoins : DecidablePred Joins
  | [] => isTrue joins_nil
  | _ :: cs =>
      have := decidableJoins cs
      decidable_of_iff' _ joins_cons

/-- A key in proper snake case: it has no capital, it does not begin with an underscore, and behind
each underscore there is a small letter. -/
structure IsSnake (key : String) : Prop where
  noCapital : NoCapital key
  head : key.toList.head? ≠ some '_'
  joins : Joins key.toList

instance (key : String) : Decidable (IsSnake key) :=
  decidable_of_iff (NoCapital key ∧ key.toList.head? ≠ some '_' ∧ Joins key.toList)
    ⟨fun h => ⟨h.1, h.2.1, h.2.2⟩, fun h => ⟨h.noCapital, h.head, h.joins⟩⟩

/-- The underscore that has just been dropped, if there was one. -/
def dropped (raise : Bool) : List Char := if raise then ['_'] else []

/-- The underscores that have been dropped are put in again. The induction carries the one that is
still owed to the next character. -/
lemma snakeTail_camelChars (raise : Bool) (hcapital : ∀ x ∈ cs, x.isUpper = false)
    (hjoins : Joins (dropped raise ++ cs)) :
    snakeTail (camelChars raise cs) = dropped raise ++ cs := by
  induction cs generalizing raise with
  | nil =>
      cases raise with
      | false => rfl
      | true => exact absurd hjoins (by decide)
  | cons c cs ih =>
      rw [List.forall_mem_cons] at hcapital
      have hbehind : Joins cs :=
        hjoins.of_suffix ((List.suffix_cons c cs).trans (List.suffix_append _ _))
      have hrest : snakeTail (camelChars false cs) = cs := ih false hcapital.2 hbehind
      cases raise with
      | false =>
          by_cases hc : c = '_'
          · subst hc
            exact ih true hcapital.2 hjoins
          · rw [camelChars_cons_of_ne hc, snakeTail, if_neg (by simp [hcapital.1]), hrest]
            rfl
      | true =>
          have hlower : c.isLower := by simpa using (joins_cons.mp hjoins).1 rfl
          rw [camelChars_cons_of_isLower hlower, snakeTail, if_pos (isUpper_toUpper hlower),
            Char.toLower_toUpper_eq_toLower, toLower_of_not_isUpper hcapital.1, hrest]
          rfl

/-- A key in proper snake case comes back from camel case. -/
lemma snake_camel (h : IsSnake key) : snake (camel key) = key := by
  obtain ⟨hcapital, hhead, hjoins⟩ := h
  rw [← String.toList_inj, toList_snake, toList_camel]
  rw [NoCapital] at hcapital
  cases hcs : key.toList with
  | nil => rfl
  | cons c cs =>
      rw [hcs] at hcapital hhead hjoins
      rw [List.forall_mem_cons] at hcapital
      have hrest : snakeTail (camelChars false cs) = cs :=
        snakeTail_camelChars false hcapital.2 (joins_cons.mp hjoins).2
      rw [camelChars_cons_of_ne (by simpa using hhead), snakeChars,
        toLower_of_not_isUpper hcapital.1, hrest]

/-! ### Which keys come back -/

lemma underscore_notMem_camelChars (raise : Bool) : '_' ∉ camelChars raise cs := by
  induction cs generalizing raise with
  | nil => exact List.not_mem_nil
  | cons c cs ih =>
      rw [camelChars]
      split
      next hc => exact ih true
      next hc =>
        rw [List.mem_cons, not_or]
        refine ⟨?_, ih false⟩
        split
        · exact (toUpper_ne_underscore hc).symm
        · exact Ne.symm hc

lemma underscore_notMem_camel (key : String) : '_' ∉ (camel key).toList :=
  toList_camel ▸ underscore_notMem_camelChars false

/-- A key that begins with neither a capital nor an underscore has a spelling in camel case. -/
lemma isCamel_camel (hcapital : NoCapital key) (hhead : key.toList.head? ≠ some '_') :
    IsCamel (camel key) := by
  refine ⟨underscore_notMem_camel key, ?_⟩
  rw [toList_camel]
  rw [NoCapital] at hcapital
  cases hcs : key.toList with
  | nil => rfl
  | cons c cs =>
      rw [hcs] at hcapital hhead
      rw [camelChars_cons_of_ne (by simpa using hhead)]
      exact hcapital c List.mem_cons_self

lemma joins_snakeTail (h : '_' ∉ cs) : Joins (snakeTail cs) := by
  induction cs with
  | nil => exact joins_nil
  | cons c cs ih =>
      rw [List.mem_cons, not_or] at h
      rw [snakeTail]
      split
      next hc =>
        rw [joins_cons, joins_cons]
        exact ⟨fun _ => isLower_toLower hc,
          fun heq => absurd heq (toLower_ne_underscore hc), ih h.2⟩
      next hc => exact joins_cons.mpr ⟨fun heq => absurd heq.symm h.1, ih h.2⟩

/-- A key without an underscore has a spelling in proper snake case. -/
lemma isSnake_snake (h : '_' ∉ key.toList) : IsSnake (snake key) := by
  cases hcs : key.toList with
  | nil =>
      have hsnake : (snake key).toList = [] := by rw [toList_snake, hcs]; rfl
      exact ⟨noCapital_snake key, by simp [hsnake], hsnake ▸ joins_nil⟩
  | cons c cs =>
      have hsnake : (snake key).toList = c.toLower :: snakeTail cs := by
        rw [toList_snake, hcs]
        rfl
      rw [hcs, List.mem_cons, not_or] at h
      have hc : c.toLower ≠ '_' := fun heq => h.1 (toLower_eq_underscore_iff.mp heq).symm
      refine ⟨noCapital_snake key, by simpa [hsnake] using hc, ?_⟩
      rw [hsnake, joins_cons]
      exact ⟨fun heq => absurd heq hc, joins_snakeTail h.2⟩

/-- A key comes back from snake case just if it is in camel case. -/
lemma camel_snake_eq_iff : camel (snake key) = key ↔ IsCamel key := by
  refine ⟨fun h => ?_, camel_snake⟩
  have hsnake : IsSnake (snake key) := isSnake_snake (h ▸ underscore_notMem_camel (snake key))
  rw [← h]
  exact isCamel_camel hsnake.noCapital hsnake.head

/-- A key comes back from camel case just if it is in proper snake case. -/
lemma snake_camel_eq_iff : snake (camel key) = key ↔ IsSnake key := by
  refine ⟨fun h => ?_, snake_camel⟩
  rw [← h]
  exact isSnake_snake (underscore_notMem_camel key)

/-- The spelling in snake case maps the one class of keys onto the other, one to one. -/
lemma bijOn_snake : Set.BijOn snake {key | IsCamel key} {key | IsSnake key} :=
  Set.InvOn.bijOn ⟨fun _ => camel_snake, fun _ => snake_camel⟩ (fun _ h => isSnake_snake h.1)
    fun _ h => isCamel_camel h.noCapital h.head

/-- The spelling in camel case maps the other class back onto the first, one to one. -/
lemma bijOn_camel : Set.BijOn camel {key | IsSnake key} {key | IsCamel key} :=
  Set.InvOn.bijOn ⟨fun _ => snake_camel, fun _ => camel_snake⟩
    (fun _ h => isCamel_camel h.noCapital h.head) fun _ h => isSnake_snake h.1

/-! ### The order of the spellings -/

lemma lt_snakeTail (h : snakeTail cs ≠ cs) : cs < snakeTail cs := by
  induction cs with
  | nil => exact absurd rfl h
  | cons c cs ih =>
      rw [snakeTail] at h ⊢
      split
      next hc => exact List.cons_lt_cons_iff.mpr (.inl (lt_underscore hc))
      next hc =>
        rw [if_neg hc] at h
        exact List.cons_lt_cons_iff.mpr (.inr ⟨rfl, ih fun heq => h (by rw [heq])⟩)

/-- Every key stands in front of its snake case spelling, unless it is that spelling: at the first
capital there is an underscore or a small letter. -/
lemma lt_snake (h : snake key ≠ key) : key < snake key := by
  rw [String.lt_iff_toList_lt, toList_snake]
  rw [Ne, ← String.toList_inj, toList_snake] at h
  cases hcs : key.toList with
  | nil => exact absurd (by rw [hcs]; rfl) h
  | cons c cs =>
      rw [hcs, snakeChars] at h
      rw [snakeChars]
      by_cases hc : c.isUpper
      · exact List.cons_lt_cons_iff.mpr (.inl (lt_toLower hc))
      · have hlower : c.toLower = c := toLower_of_not_isUpper (by simpa using hc)
        rw [hlower] at h ⊢
        exact List.cons_lt_cons_iff.mpr (.inr ⟨rfl, lt_snakeTail fun heq => h (by rw [heq])⟩)

end Key

end BridgeAudit

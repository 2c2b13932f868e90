import Mathlib.Tactic
import BridgeAudit.Json.Printer
import BridgeAudit.Text.Quoted

/-!
Texts that do not break a line.

* `IsBreak`, `Unbroken`: a line feed or a carriage return, and a text without them.
* `lines`: a text cut at every one of them.
* `lines_flatMap`: unbroken texts, each ended by a line feed, are the lines of what they make up.
* `Quoted.unbroken_write`, `Json.unbroken_compact`: whatever is in a text, it is unbroken once it is
  quoted, and so is every value on one line.
-/

namespace BridgeAudit

variable {cs ds : List Char} {c : Char}

/-- A line feed or a carriage return. -/
def IsBreak (c : Char) : Bool := c = '\n' || c = '\r'

/-- No line feed and no carriage return is in a text. -/
def Unbroken (cs : List Char) : Prop := '\n' ∉ cs ∧ '\r' ∉ cs

instance : DecidablePred Unbroken := fun cs =>
  inferInstanceAs (Decidable ('\n' ∉ cs ∧ '\r' ∉ cs))

/-- The lines of a text, cut at every line feed and at every carriage return. -/
def lines (cs : List Char) : List (List Char) := cs.splitOnP IsBreak

@[simp] lemma isBreak_eq_false_iff : IsBreak c = false ↔ c ≠ '\n' ∧ c ≠ '\r' := by
  rw [IsBreak, Bool.or_eq_false_iff, decide_eq_false_iff_not, decide_eq_false_iff_not]

lemma unbroken_iff : Unbroken cs ↔ ∀ c ∈ cs, IsBreak c = false := by
  simp only [isBreak_eq_false_iff, ne_eq, forall_and, List.forall_mem_ne', Unbroken]

@[simp] lemma unbroken_nil : Unbroken [] := ⟨List.not_mem_nil, List.not_mem_nil⟩

@[simp] lemma unbroken_cons : Unbroken (c :: cs) ↔ IsBreak c = false ∧ Unbroken cs := by
  rw [unbroken_iff, unbroken_iff, List.forall_mem_cons]

@[simp] lemma unbroken_append : Unbroken (cs ++ ds) ↔ Unbroken cs ∧ Unbroken ds := by
  rw [unbroken_iff, unbroken_iff, unbroken_iff, List.forall_mem_append]

@[simp] lemma unbroken_flatMap {α : Type} {items : List α} {f : α → List Char} :
    Unbroken (items.flatMap f) ↔ ∀ a ∈ items, Unbroken (f a) := by
  simp only [unbroken_iff, List.forall_mem_flatMap]

@[simp] lemma unbroken_toList_append {s t : String} :
    Unbroken (s ++ t).toList ↔ Unbroken s.toList ∧ Unbroken t.toList := by
  rw [String.toList_append, unbroken_append]

/-- Texts put together with a separator in between. -/
lemma unbroken_intercalate {s : String} {ts : List String} (hs : Unbroken s.toList)
    (h : ∀ t ∈ ts, Unbroken t.toList) : Unbroken (s.intercalate ts).toList := by
  match ts with
  | [] => exact unbroken_nil
  | [t] =>
      rw [String.intercalate_singleton]
      exact h t List.mem_cons_self
  | t :: u :: ts =>
      rw [List.forall_mem_cons] at h
      rw [String.intercalate_cons_cons, unbroken_toList_append, unbroken_toList_append]
      exact ⟨⟨h.1, hs⟩, unbroken_intercalate hs h.2⟩

lemma Unbroken.subset (h : Unbroken ds) (hsub : cs ⊆ ds) : Unbroken cs :=
  ⟨fun hc => h.1 (hsub hc), fun hc => h.2 (hsub hc)⟩

lemma Unbroken.replicate (hc : IsBreak c = false) (n : Nat) : Unbroken (List.replicate n c) :=
  unbroken_iff.2 fun _ hd => List.eq_of_mem_replicate hd ▸ hc

/-! ### Lines -/

lemma lines_of_unbroken (h : Unbroken cs) : lines cs = [cs] :=
  List.splitOnP_eq_singleton (unbroken_iff.1 h)

/-- **Unbroken texts are lines.** Of unbroken texts, each with a line feed behind it, each one is a
line, and there are no others but the empty one at the end. -/
theorem lines_flatMap {texts : List (List Char)} (h : ∀ cs ∈ texts, Unbroken cs) :
    lines (texts.flatMap (· ++ ['\n'])) = texts ++ [[]] := by
  induction texts with
  | nil => rfl
  | cons cs texts ih =>
      rw [List.forall_mem_cons] at h
      have hcut : lines (cs ++ '\n' :: texts.flatMap (· ++ ['\n'])) =
          lines cs ++ lines (texts.flatMap (· ++ ['\n'])) :=
        List.splitOnP_append_cons _ _ rfl
      rw [List.flatMap_cons, List.append_assoc, List.singleton_append, hcut,
        lines_of_unbroken h.1, ih h.2]
      rfl

/-! ### Digits -/

lemma isBreak_digitChar (n : Nat) : IsBreak n.digitChar = false :=
  isBreak_eq_false_iff.2 ⟨Nat.digitChar_ne _ rfl, Nat.digitChar_ne _ rfl⟩

/-- The digits of a number, in whatever base. -/
lemma unbroken_toDigits {base : Nat} (hbase : 1 < base) (n : Nat) :
    Unbroken (Nat.toDigits base n) := by
  induction n using Nat.strong_induction_on with
  | _ n ih =>
      rw [Nat.toDigits_eq_if hbase]
      split_ifs with hn
      · simp [isBreak_digitChar]
      · have hlt : n / base < n := Nat.div_lt_self (by omega) hbase
        simp [ih _ hlt, isBreak_digitChar]

namespace Digits

lemma unbroken_write (n : Nat) : Unbroken (write n) := unbroken_toDigits (by decide) n

lemma unbroken_writeInt (i : Int) : Unbroken (writeInt i) := by
  cases i with
  | ofNat n => exact unbroken_write n
  | negSucc n => exact unbroken_cons.2 ⟨rfl, unbroken_write (n + 1)⟩

@[simp] lemma unbroken_numeral (n : Nat) : Unbroken (numeral n).toList := by
  rw [numeral, String.toList_ofList]
  exact unbroken_write n

end Digits

namespace Shortest

lemma unbroken_spelled (found : Option (Nat × Nat)) : Unbroken (spelled found).1 := by
  cases found with
  | none => decide
  | some decimal => exact unbroken_toDigits (by decide) decimal.1

lemma unbroken_pointed (h : Unbroken ds) : Unbroken (pointed ds) := by
  match ds, h with
  | [], h | [_], h => exact h
  | d :: d' :: ds, h =>
      rw [unbroken_cons] at h
      exact unbroken_cons.2 ⟨h.1, unbroken_cons.2 ⟨rfl, h.2⟩⟩

lemma unbroken_layout (h : Unbroken ds) (last : Int) : Unbroken (layout ds last) := by
  have hzeros (n : Nat) : Unbroken (List.replicate n '0') := .replicate rfl n
  have hexponent (sign : Char) (hsign : IsBreak sign = false) (n : Nat) :
      Unbroken (pointed ds ++ 'e' :: sign :: Nat.toDigits 10 n) :=
    unbroken_append.2 ⟨unbroken_pointed h, unbroken_cons.2 ⟨rfl, unbroken_cons.2 ⟨hsign,
      unbroken_toDigits (by decide) n⟩⟩⟩
  rw [layout]
  split_ifs
  · exact hexponent '+' rfl _
  · exact hexponent '-' rfl _
  · exact unbroken_append.2 ⟨unbroken_append.2 ⟨by decide, hzeros _⟩, h⟩
  · exact unbroken_append.2 ⟨unbroken_append.2 ⟨h, hzeros _⟩, by decide⟩
  · exact unbroken_append.2 ⟨h.subset (List.take_subset _ _),
      unbroken_cons.2 ⟨rfl, h.subset (List.drop_subset _ _)⟩⟩

lemma unbroken_write (x : Binary) : Unbroken (write x) := by
  have hsign : Unbroken (if x.negative then ['-'] else []) := by split_ifs <;> decide
  have hdigits : Unbroken (digits x.units).1 := unbroken_spelled _
  unfold write
  refine unbroken_append.2 ⟨hsign, ?_⟩
  split_ifs
  · decide
  · exact unbroken_layout hdigits _

end Shortest

/-! ### Quoted texts -/

namespace Quoted

lemma unbroken_escape (c : Char) : Unbroken (escape c) := by
  unfold escape
  split_ifs with hquote hback hfeed hreturn
  any_goals decide
  · simp [hfeed, hreturn]
  · exact unbroken_append.2 ⟨unbroken_append.2 ⟨by decide, unbroken_toDigits (by decide) _⟩,
      by decide⟩

/-- A quoted text is unbroken. -/
lemma unbroken_write (s : String) : Unbroken (write s).toList := by
  rw [write, String.toList_ofList, chars, List.cons_append, unbroken_cons, unbroken_append,
    unbroken_flatMap]
  exact ⟨rfl, fun c _ => unbroken_escape c, by decide⟩

end Quoted

/-! ### JSON on one line -/

namespace Json

lemma unbroken_escape (c : Char) : Unbroken (escape c) := by
  unfold escape
  split_ifs with hquote hback hbell htab hfeed hpage hreturn
  any_goals decide
  · simp [hexDigit, isBreak_digitChar]
  · simp [hfeed, hreturn]

lemma unbroken_quote (s : String) : Unbroken (quote s) := by
  rw [quote, List.cons_append, unbroken_cons, unbroken_append, unbroken_flatMap]
  exact ⟨rfl, fun c _ => unbroken_escape c, by decide⟩

lemma unbroken_scalarChars (v : Json) : Unbroken v.scalarChars := by
  match v with
  | .null | .boolean true | .boolean false => decide
  | .array _ | .object _ => exact unbroken_nil
  | .number (.integer i) => exact Digits.unbroken_writeInt i
  | .number (.float x) => exact Shortest.unbroken_write x
  | .string s => exact unbroken_quote s

mutual

/-- A value on one line is unbroken, at every level. -/
lemma unbroken_chars : ∀ v : Json, Unbroken v.chars
  | .array [] | .object [] => by
      rw [chars]
      decide
  | .array (v :: vs) => by
      rw [chars, List.cons_append, unbroken_cons, unbroken_append]
      exact ⟨rfl, unbroken_chars v, unbroken_charsItems vs⟩
  | .object ((k, v) :: ms) => by
      simp only [chars, List.cons_append, List.append_assoc, unbroken_cons, unbroken_append]
      exact ⟨rfl, unbroken_quote k, rfl, unbroken_chars v, unbroken_charsMembers ms⟩
  | .null | .boolean _ | .number _ | .string _ => by
      rw [chars]
      · exact unbroken_scalarChars _
      all_goals simp

/-- `unbroken_chars` for the items of an array behind the first one. -/
lemma unbroken_charsItems : ∀ vs : List Json, Unbroken (charsItems vs)
  | [] => by
      rw [charsItems]
      decide
  | v :: vs => by
      rw [charsItems, List.cons_append, unbroken_cons, unbroken_append]
      exact ⟨rfl, unbroken_chars v, unbroken_charsItems vs⟩

/-- `unbroken_chars` for the members of an object behind the first one. -/
lemma unbroken_charsMembers : ∀ ms : List (String × Json), Unbroken (charsMembers ms)
  | [] => by
      rw [charsMembers]
      decide
  | (k, v) :: ms => by
      simp only [charsMembers, List.cons_append, List.append_assoc, unbroken_cons, unbroken_append]
      exact ⟨rfl, unbroken_quote k, rfl, unbroken_chars v, unbroken_charsMembers ms⟩

end

/-- **A value on one line is unbroken**, whatever strings and keys are in it. -/
theorem unbroken_compact (v : Json) : Unbroken v.compact.toList := by
  rw [compact, String.toList_ofList]
  exact unbroken_chars v

end Json

end BridgeAudit

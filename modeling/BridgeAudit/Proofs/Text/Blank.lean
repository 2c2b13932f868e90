import Mathlib.Tactic
import Mathlib.Data.List.TakeWhile
import BridgeAudit.Text.Blank
import BridgeAudit.Proofs.Text.Digits

/-!
White space at the ends of a text.

* `Blank.trim_around`: blanks in front of a text and behind it make no difference.
* `Blank.Starts`, `Blank.Ends`, `Blank.trim_eq_self`: a text that neither starts nor ends with a
  blank stays as it is.
-/

namespace BridgeAudit

namespace Blank

variable {c : Char} {cs ds blanks : List Char}

/-- A decimal digit is no blank. -/
lemma is_of_isDigit (h : c.isDigit) : is c = false := by
  rw [Digits.isDigit_iff] at h
  simp only [is, ranges, List.any_cons, List.any_nil, Bool.or_false, Bool.or_eq_false_iff,
    Bool.and_eq_false_iff, decide_eq_false_iff_not]
  omega

lemma skip_cons_of_not (h : is c = false) (cs : List Char) : skip (c :: cs) = c :: cs :=
  List.dropWhile_cons_of_neg (by simp [h])

lemma skip_append_of_blank (h : ∀ c ∈ blanks, is c) : skip (blanks ++ cs) = skip cs :=
  List.dropWhile_append_of_pos h

lemma skip_eq_nil_iff : skip cs = [] ↔ ∀ c ∈ cs, is c := List.dropWhile_eq_nil_iff

/-- What is left of a text starts with no blank, so that what stands behind it stays too. -/
lemma skip_append_of_ne_nil (h : skip cs ≠ []) : skip (cs ++ ds) = skip cs ++ ds := by
  rw [skip, List.dropWhile_append, if_neg]
  · rfl
  · simpa [skip] using h

/-- Blanks in front of a text and behind it make no difference. -/
lemma trim_around {front back : List Char} (hfront : ∀ c ∈ front, is c) (hback : ∀ c ∈ back, is c)
    (cs : List Char) : trim (front ++ (cs ++ back)) = trim cs := by
  have hback' : ∀ c ∈ back.reverse, is c := fun c hc => hback c (List.mem_reverse.1 hc)
  rw [trim, trim, skip_append_of_blank hfront]
  by_cases hcs : skip cs = []
  · -- nothing but blanks
    have hall : skip (cs ++ back) = [] := by
      rw [skip_append_of_blank (skip_eq_nil_iff.1 hcs), skip_eq_nil_iff]
      exact hback
    rw [hcs, hall]
  · rw [skip_append_of_ne_nil hcs, List.reverse_append, skip_append_of_blank hback']

/-- A text starts with something that is no blank. -/
def Starts (cs : List Char) : Prop := ∃ c rest, cs = c :: rest ∧ is c = false

/-- A text ends with something that is no blank. -/
def Ends (cs : List Char) : Prop := ∃ front c, cs = front ++ [c] ∧ is c = false

lemma Starts.append (h : Starts cs) (ds : List Char) : Starts (cs ++ ds) := by
  obtain ⟨c, rest, rfl, hc⟩ := h
  exact ⟨c, rest ++ ds, rfl, hc⟩

lemma Ends.append (h : Ends ds) (cs : List Char) : Ends (cs ++ ds) := by
  obtain ⟨front, c, rfl, hc⟩ := h
  exact ⟨cs ++ front, c, (List.append_assoc _ _ _).symm, hc⟩

lemma Ends.cons (h : Ends ds) (c : Char) : Ends (c :: ds) := h.append [c]

/-- A text without blanks at its ends stays as it is. -/
lemma trim_eq_self (h : Starts cs) (h' : Ends cs) : trim cs = cs := by
  obtain ⟨c, rest, hcs, hc⟩ := h
  obtain ⟨front, d, hcs', hd⟩ := h'
  have hskip : skip cs = cs := by rw [hcs, skip_cons_of_not hc]
  rw [trim, hskip, hcs', List.reverse_append, List.reverse_singleton, List.singleton_append,
    skip_cons_of_not hd, List.reverse_cons, List.reverse_reverse]

end Blank

end BridgeAudit

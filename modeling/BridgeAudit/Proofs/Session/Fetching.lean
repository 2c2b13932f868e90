import Mathlib.Tactic
import BridgeAudit.Session.Source

/-!
What comes of asking the six collections, one look after another.

* `Source.answer`: what a collection answers in the end at looks that find the given sources.
* `Source.FailsFirst`: a collection that has failed, while none of those before it has.
* `Gathered`: a load has got what has been answered at the looks at it, and nothing has failed.
* `Gathered.round_ok`, `Gathered.round_error`: what one more look makes of that, and
  `Gathered.of_round`, `Gathered.of_round_error` what such a look says of the answers.
* `Gathered.complete`, `Gathered.of_complete`: once all collections have answered, and not before,
  everything is there, whichever way the answers have come in.
-/

namespace BridgeAudit

/-! ### Answers -/

/-- The records of an answer. -/
def Delivery.records? : Delivery → Option (List Json)
  | records items => some items
  | _ => none

/-- The answer is a failure. -/
def Delivery.IsFailed (d : Delivery) : Prop := ∃ e, d = .failed e

namespace Source

/-- What a collection answers at looks that find the given sources: it is asked until it does not
keep back its answer any more. -/
def answer : List Source → Collection → Delivery
  | [], _ => .pending
  | src :: looks, c =>
      match src.deliver c with
      | .pending => answer looks c
      | d => d

variable {looks : List Source} {src : Source} {c : Collection} {items : List Json}
variable {e : AuditorError}

/-- An answer stays what it is. -/
lemma answer_append_of_ne (h : answer looks c ≠ .pending) (more : List Source) :
    answer (looks ++ more) c = answer looks c := by
  induction looks with
  | nil => exact absurd rfl h
  | cons src looks ih =>
      rw [List.cons_append, answer, answer]
      rw [answer] at h
      cases hd : src.deliver c with
      | pending =>
          rw [hd] at h
          exact ih h
      | failed e => rfl
      | records items => rfl

/-- A collection that has not answered so far is asked once more. -/
lemma answer_append_of_pending (h : answer looks c = .pending) (more : List Source) :
    answer (looks ++ more) c = answer more c := by
  induction looks with
  | nil => rfl
  | cons src looks ih =>
      rw [answer] at h
      rw [List.cons_append, answer]
      cases hd : src.deliver c with
      | pending =>
          rw [hd] at h
          exact ih h
      | failed e => simp [hd] at h
      | records items => simp [hd] at h

@[simp] lemma answer_singleton : answer [src] c = src.deliver c := by
  rw [answer]
  cases src.deliver c <;> rfl

/-- A collection fails, and none of those in front of it does. -/
def FailsFirst (looks : List Source) (c : Collection) (e : AuditorError) : Prop :=
  answer looks c = .failed e ∧
    ∃ before after, Collection.all = before ++ c :: after ∧
      ∀ b ∈ before, ¬(answer looks b).IsFailed

/-- Where something fails, something fails first. -/
lemma exists_failsFirst (h : ∃ c, (answer looks c).IsFailed) : ∃ c e, FailsFirst looks c e := by
  classical
  obtain ⟨c, hc⟩ := h
  have hsome : (Collection.all.find? fun c => (answer looks c).IsFailed).isSome := by
    rw [List.find?_isSome]
    exact ⟨c, c.mem_all, decide_eq_true hc⟩
  obtain ⟨d, hd⟩ := Option.isSome_iff_exists.mp hsome
  obtain ⟨hfailed, before, after, hall, hbefore⟩ := List.find?_eq_some_iff_append.mp hd
  obtain ⟨e, he⟩ := of_decide_eq_true hfailed
  exact ⟨d, e, he, before, after, hall, fun b hb => by simpa using hbefore b hb⟩

/-- What fails first is the first that `find?` comes upon. -/
lemma FailsFirst.find? [DecidablePred fun c => (answer looks c).IsFailed]
    (h : FailsFirst looks c e) :
    (Collection.all.find? fun c => (answer looks c).IsFailed) = some c := by
  obtain ⟨hfailed, before, after, hall, hbefore⟩ := h
  rw [List.find?_eq_some_iff_append]
  exact ⟨decide_eq_true ⟨e, hfailed⟩, before, after, hall, fun b hb => by simpa using hbefore b hb⟩

/-- Only one thing fails first. -/
lemma FailsFirst.unique {c' : Collection} {e' : AuditorError} (h : FailsFirst looks c e)
    (h' : FailsFirst looks c' e') : c = c' ∧ e = e' := by
  classical
  obtain rfl : c = c' := Option.some.inj (h.find?.symm.trans h'.find?)
  exact ⟨rfl, by simpa using h.1.symm.trans h'.1⟩

/-! ### One look -/

/-- A look at which nothing fails brings in all answers that are to be had. -/
lemma round_eq_ok (cs : List Collection) : ∀ {got : Arrived},
    (∀ c ∈ cs, got c = none → ¬(src.deliver c).IsFailed) →
    src.round cs got =
      .ok fun c => (got c).or (if c ∈ cs then (src.deliver c).records? else none) := by
  induction cs with
  | nil =>
      intro got _
      simp [round]
  | cons b cs ih =>
      intro got h
      have hrest : ∀ c ∈ cs, got c = none → ¬(src.deliver c).IsFailed :=
        fun c hc => h c (List.mem_cons_of_mem _ hc)
      rw [round]
      cases hb : got b with
      | some items =>
          rw [if_pos (by simp), ih hrest]
          refine congrArg Except.ok (funext fun c => ?_)
          by_cases hc : c = b
          · simp [hc, hb]
          · simp [hc]
      | none =>
          rw [if_neg (by simp)]
          cases hd : src.deliver b with
          | failed e => exact absurd ⟨e, hd⟩ (h b List.mem_cons_self hb)
          | pending =>
              simp only
              rw [ih hrest]
              refine congrArg Except.ok (funext fun c => ?_)
              by_cases hc : c = b
              · simp [hc, hb, hd, Delivery.records?]
              · simp [hc]
          | records items =>
              have hput : ∀ c ∈ cs, got.put b items c = none → ¬(src.deliver c).IsFailed := by
                intro c hc hnone
                refine hrest c hc ?_
                by_cases hcb : c = b
                · exact hcb ▸ hb
                · simpa [Arrived.put, hcb] using hnone
              simp only
              rw [ih hput]
              refine congrArg Except.ok (funext fun c => ?_)
              by_cases hc : c = b
              · simp [hc, hb, hd, Arrived.put, Delivery.records?]
              · simp [hc, Arrived.put]

/-- A look ends at the first collection that fails. -/
lemma round_eq_error (after : List Collection) (hd : src.deliver c = .failed e) :
    ∀ (before : List Collection) {got : Arrived}, got c = none →
      (∀ b ∈ before, got b = none → ¬(src.deliver b).IsFailed) →
      src.round (before ++ c :: after) got = .error (.fetch c e) := by
  intro before
  induction before with
  | nil =>
      intro got hc _
      rw [List.nil_append, round, if_neg (by simp [hc]), hd]
  | cons b before ih =>
      intro got hc h
      have hrest : ∀ b ∈ before, got b = none → ¬(src.deliver b).IsFailed :=
        fun b hb => h b (List.mem_cons_of_mem _ hb)
      rw [List.cons_append, round]
      split
      · exact ih hc hrest
      next hb =>
        have hb : got b = none := by simpa using hb
        cases hdb : src.deliver b with
        | failed e' => exact absurd ⟨e', hdb⟩ (h b List.mem_cons_self hb)
        | pending => exact ih hc hrest
        | records items =>
            have hne : c ≠ b := by
              rintro rfl
              rw [hd] at hdb
              cases hdb
            refine ih (by simpa [Arrived.put, hne] using hc) fun b' hb' hnone => ?_
            refine hrest b' hb' ?_
            by_cases hbb : b' = b
            · exact hbb ▸ hb
            · simpa [Arrived.put, hbb] using hnone

/-- A look fails with a collection only. -/
lemma round_ne_cancelled (n : Nat) : ∀ (cs : List Collection) (got : Arrived),
    src.round cs got ≠ .error (.cancelled n) := by
  intro cs
  induction cs with
  | nil => exact fun got => nofun
  | cons c cs ih =>
      intro got
      rw [round]
      split
      · exact ih got
      · split
        · exact ih got
        · simp
        · exact ih _

end Source

/-! ### What a load has got -/

/-- What has been got is what has been answered at the looks so far, and nothing has failed. -/
def Gathered (looks : List Source) (got : Arrived) : Prop :=
  ∀ c, ¬(Source.answer looks c).IsFailed ∧ got c = (Source.answer looks c).records?

/-- Before the first look there is nothing. -/
lemma gathered_nil : Gathered [] .none := by
  intro c
  refine ⟨?_, rfl⟩
  rintro ⟨e, h⟩
  cases h

namespace Gathered

open Source

variable {looks : List Source} {got : Arrived} {src : Source} {c : Collection} {e : AuditorError}

/-- What has not been got has been kept back at all looks. -/
lemma pending (h : Gathered looks got) (hc : got c = none) : answer looks c = .pending := by
  obtain ⟨hfree, hgot⟩ := h c
  rw [hc] at hgot
  cases ha : answer looks c with
  | pending => rfl
  | failed e => exact absurd ⟨e, ha⟩ hfree
  | records items => simp [ha, Delivery.records?] at hgot

/-- What a collection answers if there is one more look. -/
lemma answer_concat (h : Gathered looks got) (src : Source) (c : Collection) :
    answer (looks ++ [src]) c =
      match got c with
      | some items => .records items
      | none => src.deliver c := by
  cases hc : got c with
  | none => rw [answer_append_of_pending (h.pending hc), answer_singleton]
  | some items =>
      obtain ⟨hfree, hgot⟩ := h c
      have hitems : answer looks c = .records items := by
        cases ha : answer looks c with
        | records items' =>
            rw [hc, ha] at hgot
            rw [Option.some.inj hgot]
        | pending => simp [ha, hc, Delivery.records?] at hgot
        | failed e => exact absurd ⟨e, ha⟩ hfree
      rw [answer_append_of_ne (by simp [hitems]), hitems]

/-- As long as nothing fails, the answers are gathered. -/
lemma round_ok (h : Gathered looks got) (hfree : ∀ c, ¬(answer (looks ++ [src]) c).IsFailed) :
    ∃ got', src.round Collection.all got = .ok got' ∧ Gathered (looks ++ [src]) got' := by
  have hnew : ∀ c ∈ Collection.all, got c = none → ¬(src.deliver c).IsFailed := by
    intro c _ hc
    have hc' := hfree c
    rwa [h.answer_concat, hc] at hc'
  refine ⟨_, round_eq_ok _ hnew, fun c => ⟨hfree c, ?_⟩⟩
  rw [h.answer_concat, if_pos c.mem_all]
  cases got c <;> rfl

/-- The first collection that fails decides. -/
lemma round_error (h : Gathered looks got) (hc : FailsFirst (looks ++ [src]) c e) :
    src.round Collection.all got = .error (.fetch c e) := by
  obtain ⟨hfailed, before, after, hall, hbefore⟩ := hc
  rw [h.answer_concat] at hfailed
  cases hgot : got c with
  | some items => simp [hgot] at hfailed
  | none =>
      rw [hgot] at hfailed
      rw [hall]
      refine round_eq_error after hfailed before hgot fun b hb hnone => ?_
      have hb' := hbefore b hb
      rwa [h.answer_concat, hnone] at hb'

/-- What a look brings in is what has been answered by then. -/
lemma of_round (h : Gathered looks got) {got' : Arrived}
    (hround : src.round Collection.all got = .ok got') : Gathered (looks ++ [src]) got' := by
  have hfree : ∀ c, ¬(answer (looks ++ [src]) c).IsFailed := by
    intro c hc
    obtain ⟨d, e, hd⟩ := exists_failsFirst ⟨c, hc⟩
    rw [h.round_error hd] at hround
    cases hround
  obtain ⟨got'', hround'', hgot⟩ := h.round_ok hfree
  rw [hround] at hround''
  exact Except.ok.inj hround'' ▸ hgot

/-- A look fails with what fails first by then. -/
lemma of_round_error (h : Gathered looks got) {x : CycleError}
    (hround : src.round Collection.all got = .error x) :
    ∃ c e, x = .fetch c e ∧ FailsFirst (looks ++ [src]) c e := by
  obtain ⟨c, e, hf⟩ : ∃ c e, FailsFirst (looks ++ [src]) c e := by
    refine exists_failsFirst ?_
    by_contra hfree
    obtain ⟨got', hround', -⟩ := h.round_ok fun c hc => hfree ⟨c, hc⟩
    rw [hround] at hround'
    cases hround'
  rw [h.round_error hf] at hround
  exact ⟨c, e, (Except.error.inj hround).symm, hf⟩

/-- Once all collections have answered, everything is there. -/
lemma complete (h : Gathered looks got) {d : Collection → List Json}
    (hd : ∀ c, answer looks c = .records (d c)) : got.complete? = some (Collections.ofFn d) := by
  have hgot : ∀ c, got c = some (d c) := by
    intro c
    rw [(h c).2, hd c]
    rfl
  simp [Arrived.complete?, hgot]

/-- Everything is there only once all collections have answered. -/
lemma of_complete (h : Gathered looks got) {raw : Collections Json}
    (hraw : got.complete? = some raw) :
    ∃ d, raw = Collections.ofFn d ∧ ∀ c, answer looks c = .records (d c) := by
  rw [Arrived.complete?] at hraw
  split at hraw
  next hall =>
    refine ⟨fun c => (got c).getD [], (Option.some.inj hraw).symm, fun c => ?_⟩
    obtain ⟨items, hitems⟩ := Option.isSome_iff_exists.mp (List.all_eq_true.mp hall c c.mem_all)
    have hgot := (h c).2
    cases ha : answer looks c with
    | records items' => simp [hgot, ha, Delivery.records?]
    | _ => simp [hitems, ha, Delivery.records?] at hgot
  next => cases hraw

end Gathered

end BridgeAudit

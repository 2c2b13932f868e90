import BridgeAudit.Proofs.Session.Hearing
import BridgeAudit.Proofs.Session.Publication

/-!
What a load tells, and what it returns.

* `Tells`: all that a load tells from its start to its end, by what it returns. `Earned.tells`
  proves it for a load that ends, and `Session.Settled` keeps it.
* `Settled.cases`: between two steps each load has run to its end, or it has told its start alone.
* `outcomes_told`: every cycle is heard of in its order, it has a last event just if the load has
  run to its end, and that event says what the load returned.
-/

namespace BridgeAudit

/-! ### The last event of a cycle -/

/-- An event that ends its cycle. -/
def Event.isLast (e : Event) : Bool := e.kind ≠ .started && e.kind ≠ .rejected

namespace Course

variable {c : Nat} {es rs : List Event} {e : Event}

/-- Rejections end nothing. -/
lemma countP_isLast_rejected (hrs : ∀ e ∈ rs, e.kind = .rejected) : rs.countP Event.isLast = 0 := by
  rw [List.countP_eq_zero]
  intro e he
  simp [Event.isLast, hrs e he]

/-- Of an event that ends its cycle, only the end can be an instance. -/
lemma mem_iff_of_isLast {x : Event} (hrs : ∀ e ∈ rs, e.kind = .rejected) (he : e.isLast = true) :
    e ∈ .started c :: rs ++ [x] ↔ e = x := by
  have hstart : e ≠ .started c := by
    rintro rfl
    simp [Event.isLast, Event.kind] at he
  have hmid : e ∉ rs := by
    intro hm
    simp [Event.isLast, hrs e hm] at he
  simp [hstart, hmid]

/-- A cycle has one end at most. -/
lemma countP_isLast_le (h : Course c es) : es.countP Event.isLast ≤ 1 := by
  cases h with
  | silent => exact Nat.zero_le 1
  | reading hrs =>
      rw [List.countP_cons, countP_isLast_rejected hrs]
      exact Nat.zero_le 1
  | completed hrs stats =>
      rw [List.cons_append, List.countP_cons, List.countP_append, countP_isLast_rejected hrs]
      exact le_rfl
  | failed text => exact le_rfl
  | cancelled => exact le_rfl

end Course

/-! ### What is told by the end -/

/-- All that a load tells from its start to its end, by what it returns. -/
inductive Tells (c : Nat) : Purpose → Result → List Event → Prop
  | view {p : Purpose} {v : View} {rs : List Event} (hv : v.cycle = c)
      (hrs : ∀ e ∈ rs, e.kind = .rejected) :
      Tells c p (.ok v) (.started c :: rs ++ [.completed c v.stats])
  | superseded {ticket : Nat} {rs : List Event} (hrs : ∀ e ∈ rs, e.kind = .rejected)
      (stats : Stats) :
      Tells c (.reload ticket) (.error (.superseded c)) (.started c :: rs ++ [.completed c stats])
  | fetch {p : Purpose} (k : Collection) (e : AuditorError) :
      Tells c p (.error (.fetch k e)) [.started c, .failed c (CycleError.fetch k e).message]
  | cancelled {p : Purpose} : Tells c p (.error (.cancelled c)) [.started c, .cancelled c]

/-- A load that has run to its end has told one last event. -/
lemma Tells.countP_isLast {c : Nat} {p : Purpose} {r : Result} {es : List Event}
    (h : Tells c p r es) : es.countP Event.isLast = 1 := by
  cases h with
  | view hv hrs | superseded hrs stats =>
      rw [List.cons_append, List.countP_cons, List.countP_append, Course.countP_isLast_rejected hrs]
      rfl
  | fetch k e => rfl
  | cancelled => rfl

namespace Tells

variable {c : Nat} {p : Purpose} {r : Result} {es : List Event}

/-- Just those loads have told of a completion that return a view, or return none because a newer
reload has started. -/
lemma completed_iff (h : Tells c p r es) : (∃ stats, .completed c stats ∈ es) ↔
    (∃ v, r = .ok v) ∨ ∃ ticket, p = .reload ticket ∧ r = .error (.superseded c) := by
  cases h with
  | @view p v rs hv hrs => exact iff_of_true ⟨v.stats, by simp⟩ (.inl ⟨v, rfl⟩)
  | @superseded ticket rs hrs stats => exact iff_of_true ⟨stats, by simp⟩ (.inr ⟨ticket, rfl, rfl⟩)
  | fetch k e => simp
  | cancelled => simp

/-- Just those loads have told of a failure that return it, and they tell what they return. -/
lemma failed_iff (h : Tells c p r es) (text : String) : .failed c text ∈ es ↔
    ∃ k e, r = .error (.fetch k e) ∧ text = (CycleError.fetch k e).message := by
  cases h with
  | view hv hrs | superseded hrs stats =>
      rw [Course.mem_iff_of_isLast hrs rfl]
      simp
  | fetch k e =>
      constructor
      · intro hm
        exact ⟨k, e, rfl, by simpa using hm⟩
      · rintro ⟨k', e', hr, rfl⟩
        rw [Except.error.inj hr]
        simp
  | cancelled => simp

/-- Just those loads have told that they were cancelled that return it. -/
lemma cancelled_iff (h : Tells c p r es) : .cancelled c ∈ es ↔ r = .error (.cancelled c) := by
  cases h with
  | view hv hrs | superseded hrs stats =>
      rw [Course.mem_iff_of_isLast hrs rfl]
      simp
  | fetch k e => simp
  | cancelled => simp

end Tells

namespace Session

variable {s t : Session} {l : Load} {r : Result}

/-- The events of rejections are rejections. -/
lemma kind_of_mem_map_event {xs : List Rejection} {c : Nat} {e : Event}
    (he : e ∈ xs.map (Rejection.event c)) : e.kind = .rejected := by
  obtain ⟨x, -, rfl⟩ := List.mem_map.mp he
  rfl

/-- A load that ends has told what it has come to. -/
lemma Earned.tells (h : s.Earned l r) :
    Tells l.cycle l.purpose r (s.journal.told l.cycle) := by
  cases h with
  | view hd htold =>
      rw [htold]
      exact .view rfl fun e he => kind_of_mem_map_event he
  | @fetch c e hf htold =>
      rw [htold]
      exact .fetch c e
  | cancelled htold =>
      rw [htold]
      exact .cancelled

/-- What a load returns, also if a newer reload has come in between, fits what it has told. -/
lemma Earned.tells_close (h : s.Earned l r) :
    ∃ (k : Journal) (r' : Result), k.IsLog ∧
      (s.close l r).1.journal = s.journal ++ (k ++ [.ended l.cycle l.purpose r']) ∧
      Tells l.cycle l.purpose r' (s.journal.told l.cycle) := by
  obtain ⟨v, -, rfl, hclose⟩ | ⟨ticket, v, hp, rfl, -, hclose⟩ | ⟨-, hclose⟩ := s.close_cases l r
  · exact ⟨[], .ok v, Journal.isLog_nil, by simp [hclose], h.tells⟩
  · refine ⟨_, .error (.superseded v.cycle), Journal.isLog_singleton (discardLine v.cycle),
      by simp [hclose, log], ?_⟩
    cases h with
    | view hd htold =>
        rw [htold, hp]
        exact .superseded (fun e he => kind_of_mem_map_event he) _
  · exact ⟨[], r, Journal.isLog_nil, by simp [hclose], h.tells⟩

/-! ### Loads that are over -/

/-- Whoever has ended has told what it returned, and whoever has been dropped only its start. -/
structure Settled (s : Session) : Prop where
  ended : ∀ c p r, .ended c p r ∈ s.journal → Tells c p r (s.journal.told c)
  dropped : ∀ c p, .dropped c p ∈ s.journal → s.journal.told c = [.started c]

end Session

namespace Journal

variable {j k : Journal} {c : Nat}

lemma mem_gone : c ∈ j.gone ↔ (∃ p r, .ended c p r ∈ j) ∨ ∃ p, .dropped c p ∈ j := by
  rw [gone, List.mem_filterMap]
  constructor
  · rintro ⟨h, hm, hc⟩
    cases h with
    | ended d p r =>
        obtain rfl := Option.some.inj hc
        exact .inl ⟨p, r, hm⟩
    | dropped d p =>
        obtain rfl := Option.some.inj hc
        exact .inr ⟨p, hm⟩
    | _ => cases hc
  · rintro (⟨p, r, hm⟩ | ⟨p, hm⟩)
    · exact ⟨_, hm, rfl⟩
    · exact ⟨_, hm, rfl⟩

end Journal

namespace Session

variable {s t : Session} {l : Load} {r : Result} {k : Journal}

/-- The journal grows: nothing is told of a load that is over, and the new ends are settled. -/
lemma Settled.append (hs : s.Settled) (hm : Moment s t) (hj : t.journal = s.journal ++ k)
    (hended : ∀ c p r, .ended c p r ∈ k → Tells c p r (t.journal.told c))
    (hdropped : ∀ c p, .dropped c p ∈ k → t.journal.told c = [.started c]) : t.Settled where
  ended := by
    intro c p r h
    rw [hj, List.mem_append] at h
    rcases h with h | h
    · rw [(hm.told_of_gone (Journal.mem_gone.mpr (.inl ⟨p, r, h⟩))).1]
      exact hs.ended c p r h
    · exact hended c p r h
  dropped := by
    intro c p h
    rw [hj, List.mem_append] at h
    rcases h with h | h
    · rw [(hm.told_of_gone (Journal.mem_gone.mpr (.inr ⟨p, h⟩))).1]
      exact hs.dropped c p h
    · exact hdropped c p h

lemma Moment.settled (hm : Moment s t) (hs : s.Settled) : t.Settled := by
  cases hm with
  | @record h hh =>
      refine hs.append (.record hh) (k := [h]) rfl (fun c p r hmem => ?_) fun c p hmem => ?_
      · obtain rfl := List.mem_singleton.mp hmem
        cases hh
      · obtain rfl := List.mem_singleton.mp hmem
        cases hh with
        | dropped hl hi hw => simpa [Happening.event?] using hw
  | start kind =>
      obtain ⟨k, hk, hj⟩ := s.journal_launch kind
      exact hs.append (.start kind) hj (by simp [hk.notMem]) (by simp [hk.notMem])
  | cancel =>
      exact hs.append .cancel (k := [.cancel]) (by simp [Session.cancel]) (by simp) (by simp)
  | signal d m =>
      obtain ⟨k, signals, hk, h⟩ := s.moveSignal_eq d m
      refine hs.append (.signal d m) (k := k) (by rw [h]) (fun c p r hmem => ?_) fun c p hmem => ?_
      · cases hk _ hmem
      · cases hk _ hmem
  | @finish l r hl hi hr =>
      obtain ⟨k, r', hk, hj, htells⟩ := hr.tells_close
      refine hs.append (.finish hl hi hr) hj (fun c p r hmem => ?_) (by simp [hk.notMem])
      rw [List.mem_append, List.mem_singleton] at hmem
      obtain ⟨rfl, rfl, rfl⟩ := Happening.ended.inj (hmem.resolve_left (hk.notMem (by simp)))
      rwa [Journal.told_congr (about_close ..)]
  | arrange source loads subscribers hooks => exact ⟨hs.ended, hs.dropped⟩

lemma settled_of_fresh {policy : Policy} {clock : Instant} {source : Source}
    {handlers : List Handler} (h : Passes (fresh policy clock source handlers) s) : s.Settled :=
  h.invariant ⟨by simp [fresh], by simp [fresh]⟩ fun _ hm hs => hm.settled hs

end Session

namespace Session

variable {s t : Session} {l : Load} {r : Result} {c : Nat} {id : String}

/-! ### The main result -/

lemma Numbered.cycles_eq_length (hs : s.Numbered) : s.cycles = s.journal.begun.length := by
  have h := congrArg List.length hs.cycles
  simpa using h.symm

/-- Between two steps each load has run to its end, or it has told nothing but its start. -/
lemma Settled.cases (hs : s.Settled) (htidy : s.Tidy) (hhand : s.inHand = ∅)
    (hc : c ∈ s.journal.begun.map Prod.fst) :
    (∃ p r, .ended c p r ∈ s.journal ∧ Tells c p r (s.journal.told c)) ∨
      s.journal.told c = [.started c] ∧
        (c ∉ s.journal.gone ∨ ∃ p, .dropped c p ∈ s.journal) := by
  by_cases hgone : c ∈ s.journal.gone
  · obtain ⟨p, r, hm⟩ | ⟨p, hm⟩ := Journal.mem_gone.mp hgone
    · exact .inl ⟨p, r, hm, hs.ended c p r hm⟩
    · exact .inr ⟨hs.dropped c p hm, .inr ⟨p, hm⟩⟩
  · obtain ⟨id, l, hlook, rfl⟩ := htidy.exists_lookup hhand hc hgone
    exact .inr ⟨(htidy.waiting _ (mem_of_lookup hlook)).told, .inl hgone⟩

/-- Only a load that is not over, or has been dropped, has told nothing but its start. -/
lemma Settled.waits_iff (hs : s.Settled) (htidy : s.Tidy) (hhand : s.inHand = ∅)
    (hc : c ∈ s.journal.begun.map Prod.fst) : s.journal.told c = [.started c] ↔
      c ∉ s.journal.gone ∨ ∃ p, .dropped c p ∈ s.journal := by
  obtain ⟨p, r, hm, htells⟩ | ⟨htold, hopen⟩ := hs.cases htidy hhand hc
  · have hno : s.journal.told c ≠ [.started c] := by
      intro heq
      have hone := htells.countP_isLast
      rw [heq] at hone
      simp [Event.isLast, Event.kind] at hone
    refine iff_of_false hno ?_
    rintro (hgone | ⟨p', hdropped⟩)
    · exact hgone (Journal.mem_gone.mpr (.inl ⟨p, r, hm⟩))
    · exact hno (hs.dropped c p' hdropped)
  · exact iff_of_true htold hopen

/-- What results of some kind, and no others, make a load tell is told if and only if the load has
run to its end with such a result. -/
lemma Settled.told_iff (hs : s.Settled) (htidy : s.Tidy) (hhand : s.inHand = ∅)
    (hc : c ∈ s.journal.begun.map Prod.fst) (P : List Event → Prop) {Q : Purpose → Result → Prop}
    (hstart : ¬P [.started c]) (hend : ∀ p r es, Tells c p r es → (P es ↔ Q p r)) :
    P (s.journal.told c) ↔ ∃ p r, .ended c p r ∈ s.journal ∧ Q p r := by
  constructor
  · intro hP
    obtain ⟨p, r, hm, h⟩ | ⟨htold, -⟩ := hs.cases htidy hhand hc
    · exact ⟨p, r, hm, (hend p r _ h).mp hP⟩
    · rw [htold] at hP
      exact absurd hP hstart
  · rintro ⟨p, r, hm, hQ⟩
    exact (hend p r _ (hs.ended c p r hm)).mpr hQ

/-- A look that ends a load returns what the load has told. -/
lemma Settled.poll (ht : t.Settled) (h : s.poll id = some (t, some r)) :
    ∃ l, s.loads.lookup id = some l ∧ Tells l.cycle l.purpose r (t.journal.told l.cycle) := by
  obtain ⟨l, hlook, hlast⟩ := poll_returns h
  exact ⟨l, hlook, ht.ended _ _ _ (List.mem_of_getLast? hlast)⟩

lemma Settled.start (ht : t.Settled) {kind : Start} (h : s.start id kind = (t, some r)) :
    Tells (s.cycles + 1) ((s.drop id).launch kind).2.purpose r (t.journal.told (s.cycles + 1)) := by
  have hlast := start_returns h
  rw [cycles_drop] at hlast
  exact ht.ended _ _ _ (List.mem_of_getLast? hlast)

/-- The load that a step starts gets the next number. -/
lemma Tidy.begun_start (hs : s.Tidy) (hn : s.Numbered) (id : String) (kind : Start) :
    ∃ rest, (s.start id kind).1.journal.begun = s.journal.begun ++
      (s.cycles + 1, ((s.drop id).launch kind).2.purpose) :: rest := by
  have hd := hs.drop id
  obtain ⟨h, hx⟩ := beginWith_comes tell_sound hd.tidy (hd.passes.numbered hn) kind
  have hlater := hx.settle (h.inHand ▸ Set.mem_insert _ _) id
  obtain ⟨k, hk⟩ := hlater.passes.journal
  refine ⟨k.begun, ?_⟩
  show (settle id (beginWith tell (s.drop id) kind)).1.journal.begun = _
  rw [hk, Journal.begun_append, begun_launch, begun_drop, cycles_drop, List.append_assoc]
  rfl

/-- **Every cycle is told in its order, and its last event says what its load returns.** At every
state that a session passes through, the loads that have begun are numbered from one on, and
whoever has ended has told just what fits its result. Each handler makes of the events that it has
heard what is its way, it has heard of a cycle what is told of it up to its last event at most, and
all of it once the load is over. Between the steps of a run each handler has heard just what is
told. Then a cycle has one last event if and only if its load has run to its end: a completion if
that returned a view or was superseded, a failure with the text of the error that it returned, or a
cancellation if it returned that. What is pending or has been dropped has told its start and nothing
else. A step goes on where the steps before have ended, and the loads that begin in it get the next
numbers, the one that the step starts itself first. -/
theorem outcomes_told (policy : Policy) (clock : Instant) (source : Source)
    (handlers : List Handler) :
    let origin := fresh policy clock source handlers
    (∀ s, Passes origin s →
      s.journal.begun.map Prod.fst = List.range' 1 s.journal.begun.length ∧ s.Settled ∧
      ∀ place handler, handlers[place]? = some handler →
        s.journal.madeBy place = (s.journal.heard place).map handler.handle ∧
        ∀ c, Course c (s.journal.heardOf place c) ∧
          (∃ due, s.journal.heardOf place c ++ due = s.journal.told c ∧ due.length ≤ 1) ∧
          (c ∈ s.journal.gone → s.journal.heardOf place c = s.journal.told c)) ∧
    ∀ steps,
      let s := origin.run steps
      (∀ a,
        let t := s.step a
        Passes s t ∧ ∃ k, t.journal = s.journal ++ k ∧
          k.begun.map Prod.fst = List.range' (s.journal.begun.length + 1) k.begun.length) ∧
      (∀ place < handlers.length, ∀ c, s.journal.heardOf place c = s.journal.told c) ∧
      (∀ c ∈ s.journal.begun.map Prod.fst,
        let told := s.journal.told c
        told.countP Event.isLast ≤ 1 ∧
        (told.countP Event.isLast = 1 ↔ ∃ p r, .ended c p r ∈ s.journal) ∧
        ((∃ stats, .completed c stats ∈ told) ↔ ∃ p r, .ended c p r ∈ s.journal ∧
          ((∃ v, r = .ok v) ∨ ∃ ticket, p = .reload ticket ∧ r = .error (.superseded c))) ∧
        (∀ text, .failed c text ∈ told ↔ ∃ p r, .ended c p r ∈ s.journal ∧
          ∃ k e, r = .error (.fetch k e) ∧ text = (CycleError.fetch k e).message) ∧
        (.cancelled c ∈ told ↔ ∃ p r, .ended c p r ∈ s.journal ∧ r = .error (.cancelled c)) ∧
        (told = [.started c] ↔ c ∉ s.journal.gone ∨ ∃ p, .dropped c p ∈ s.journal)) ∧
      (∀ id t r, s.poll id = some (t, some r) → s.step (.poll id) = t ∧
        ∃ l, s.loads.lookup id = some l ∧
          Tells l.cycle l.purpose r (t.journal.told l.cycle)) ∧
      ∀ id kind,
        let t := s.step (.start id kind)
        let p := ((s.drop id).launch kind).2.purpose
        (∃ rest, t.journal.begun = s.journal.begun ++ (s.journal.begun.length + 1, p) :: rest) ∧
        ∀ r, (s.start id kind).2 = some r →
          Tells (s.journal.begun.length + 1) p r (t.journal.told (s.journal.begun.length + 1)) := by
  intro origin
  refine ⟨fun s hs => ?_, fun steps => ?_⟩
  · have hn : s.Numbered := numbered_of_fresh hs
    have hattended : s.Attended := attended_of_fresh hs
    have hhandlers : s.handlers = handlers := (Passes.sameSetting hs).handlers
    refine ⟨hn.cycles_eq_length ▸ hn.cycles, settled_of_fresh hs, fun place handler hplace => ?_⟩
    rw [← hhandlers] at hplace
    have hlt : place < s.handlers.length := (List.getElem?_eq_some_iff.mp hplace).1
    exact ⟨hattended.dealt.madeBy_eq hplace, fun c => ⟨hattended.course hlt (course_of_fresh hs c),
      hattended.upTo place hlt c, fun hc => hattended.gone c hc place hlt⟩⟩
  · intro s
    have hs : Leads origin ∅ s := run_leads policy clock source handlers steps
    have hn : s.Numbered := numbered_of_fresh hs.passes
    have hsettled : s.Settled := settled_of_fresh hs.passes
    have hstep : ∀ a, Passes s (s.step a) := step_passes policy clock source handlers steps
    refine ⟨fun a => ?_, fun place hplace c => ?_, fun c hc => ?_, fun id t r h => ?_,
      fun id kind => ?_⟩
    · obtain ⟨k, hk⟩ := (hstep a).journal
      have ht : (s.step a).Numbered := (hstep a).numbered hn
      exact ⟨hstep a, k, hk, hn.cycles_eq_length ▸ (hn.begun_range ht hk).1⟩
    · have hinformed := hs.tidy.informed c (by rw [hs.inHand]; exact Set.notMem_empty c)
      exact hinformed place (hs.passes.sameSetting.handlers ▸ hplace)
    · have hcount : (s.journal.told c).countP Event.isLast = 1 ↔
          ∃ p r, .ended c p r ∈ s.journal ∧ True :=
        hsettled.told_iff hs.tidy hs.inHand hc (fun es => es.countP Event.isLast = 1)
          (by simp [Event.isLast, Event.kind])
          fun p r es h => iff_of_true h.countP_isLast trivial
      have hcompleted := hsettled.told_iff hs.tidy hs.inHand hc
        (fun es => ∃ stats, .completed c stats ∈ es) (by simp)
        fun p r es h => h.completed_iff
      have hfailed : ∀ text, _ := fun text => hsettled.told_iff hs.tidy hs.inHand hc
        (fun es => .failed c text ∈ es) (by simp) fun p r es h => h.failed_iff text
      have hcancelled := hsettled.told_iff hs.tidy hs.inHand hc
        (fun es => .cancelled c ∈ es) (by simp) fun p r es h => h.cancelled_iff
      refine ⟨(course_of_fresh hs.passes c).countP_isLast_le, by simpa using hcount, hcompleted,
        hfailed, hcancelled, hsettled.waits_iff hs.tidy hs.inHand hc⟩
    · have ht : t = s.step (.poll id) := (step_poll h).symm
      refine ⟨ht.symm, (settled_of_fresh (hs.passes.trans ?_)).poll h⟩
      exact ht ▸ hstep (.poll id)
    · rw [← hn.cycles_eq_length]
      refine ⟨hs.tidy.begun_start hn id kind, fun r hr => ?_⟩
      have ht := settled_of_fresh (hs.passes.trans (hstep (.start id kind)))
      exact ht.start (Prod.ext rfl hr)

end Session

end BridgeAudit

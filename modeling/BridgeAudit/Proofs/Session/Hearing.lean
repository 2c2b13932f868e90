import BridgeAudit.Proofs.Session.Course

/-!
What the handlers hear of a session.

The handlers hear of an event one after another. A handler may make calls while it deals with an
event, and the events of these calls are told in between: whoever comes later hears of them first.

* `Journal.madeBy`: what the handler at a place has made of the events it has heard.
* `Session.Attended`: of each cycle a handler has heard what is told, in the same order, up to the
  last event at most; of what is over it has heard everything.
* `Moment.attended`, `attended_of_fresh`: every moment keeps to that, and so does a session.
* `Attended.course`: what a handler hears of a cycle is on its course.
-/

namespace BridgeAudit

/-- A cycle without its last event is on its course as well. -/
lemma Course.dropLast {c : Nat} {es : List Event} (h : Course c es) : Course c es.dropLast := by
  cases h with
  | silent => exact .silent
  | @reading rs hrs =>
      rcases List.eq_nil_or_concat rs with rfl | ⟨front, e, rfl⟩
      · exact .silent
      · rw [List.concat_eq_append, ← List.cons_append, List.dropLast_concat]
        exact .reading fun x hx => hrs x (by simp [hx])
  | completed hrs stats =>
      rw [List.dropLast_concat]
      exact .reading hrs
  | failed text => exact .reading (by simp)
  | cancelled => exact .reading (by simp)

namespace Journal

/-- What the handler at a place makes of an event here. -/
def made? (place : Nat) : Happening → Option Note
  | .heard p _ m => if p = place then some m else none
  | _ => none

/-- What the handler at a place has made of the events it has heard, in order. -/
def madeBy (j : Journal) (place : Nat) : List Note := j.filterMap (made? place)

/-- Each handler deals with events in its own way. -/
def DealtBy (handlers : List Handler) (j : Journal) : Prop :=
  ∀ place e m, .heard place e m ∈ j → ∃ handler, handlers[place]? = some handler ∧
    m = handler.handle e

/-- The transcript of a handler is what it makes of the events that it has heard. -/
lemma DealtBy.madeBy_eq {handlers : List Handler} {j : Journal} (h : DealtBy handlers j)
    {place : Nat} {handler : Handler} (hplace : handlers[place]? = some handler) :
    j.madeBy place = (j.heard place).map handler.handle := by
  rw [madeBy, heard, List.map_filterMap]
  refine List.filterMap_congr fun line hline => ?_
  cases line with
  | heard p e m =>
      obtain ⟨handler', hp, rfl⟩ := h p e m hline
      by_cases hpp : p = place
      · subst hpp
        obtain rfl : handler' = handler := Option.some.inj (hp.symm.trans hplace)
        simp [made?, Happening.heard?]
      · simp [made?, Happening.heard?, hpp]
  | _ => rfl

end Journal

namespace Session

variable {s t : Session} {h : Happening} {e : Event} {c place : Nat}

/-- Of each cycle a handler has heard what is told of it, in the same order; at most the last event
is still due. Of loads that are over everyone has heard everything. -/
structure Attended (s : Session) : Prop where
  upTo : ∀ place < s.handlers.length, ∀ c, ∃ due,
    s.journal.heardOf place c ++ due = s.journal.told c ∧ due.length ≤ 1
  gone : ∀ c ∈ s.journal.gone, s.Informed c
  dealt : s.journal.DealtBy s.handlers

/-- An event is told: all handlers are behind with it. -/
lemma Attended.tell (hs : s.Attended) (ha : s.Admits (.note (.event e))) :
    (s.record (.note (.event e))).Attended := by
  obtain ⟨l, he, hl, hi⟩ := ha.of_event
  refine ⟨fun place hplace c => ?_, fun c hc => ?_, fun place e' m hm => ?_⟩
  · by_cases hc : e.cycle = c
    · subst hc
      refine ⟨[e], ?_, le_rfl⟩
      have hheard := hi place hplace
      rw [← he] at hheard
      simpa [Happening.event?, Happening.heard?] using hheard
    · obtain ⟨due, hdue, hlength⟩ := hs.upTo place hplace c
      exact ⟨due, by simpa [Happening.event?, Happening.heard?, hc] using hdue, hlength⟩
  · have hc' : c ∈ s.journal.gone := by simpa [Happening.gone?] using hc
    have hne : e.cycle ≠ c := fun heq => hl.notGone (he ▸ heq ▸ hc')
    exact Informed.congr (hs.gone c hc') rfl (by simp [Happening.about?, hne])
  · exact hs.dealt place e' m (by simpa using hm)

/-- A handler hears of the event that it is behind with. -/
lemma Attended.hear (hs : s.Attended) {handler : Handler}
    (hplace : s.handlers[place]? = some handler)
    (hdue : s.journal.heardOf place e.cycle ++ [e] = s.journal.told e.cycle) :
    (s.record (.heard place e (handler.handle e))).Attended := by
  refine ⟨fun place' hplace' c => ?_, fun c hc => ?_, fun place' e' m hm => ?_⟩
  · by_cases hc : place = place' ∧ e.cycle = c
    · obtain ⟨rfl, rfl⟩ := hc
      exact ⟨[], by simpa [Happening.event?, Happening.heard?] using hdue, Nat.zero_le 1⟩
    · obtain ⟨due, hdue', hlength⟩ := hs.upTo place' hplace' c
      refine ⟨due, ?_, hlength⟩
      by_cases hp : place = place'
      · have hne : e.cycle ≠ c := fun heq => hc ⟨hp, heq⟩
        simpa [Happening.event?, Happening.heard?, hp, hne] using hdue'
      · simpa [Happening.event?, Happening.heard?, hp] using hdue'
  · have hc' : c ∈ s.journal.gone := by simpa [Happening.gone?] using hc
    -- of what is over nobody is behind with anything
    have hne : e.cycle ≠ c := by
      rintro rfl
      have hlt : place < s.handlers.length := (List.getElem?_eq_some_iff.mp hplace).1
      rw [hs.gone _ hc' place hlt] at hdue
      simp at hdue
    exact Informed.congr (hs.gone c hc') rfl (by simp [Happening.about?, hne])
  · rw [journal_record, List.mem_append, List.mem_singleton] at hm
    rcases hm with hm | hm
    · exact hs.dealt place' e' m hm
    · obtain ⟨rfl, rfl, rfl⟩ := Happening.heard.inj hm
      exact ⟨handler, hplace, rfl⟩

/-- The journal grows by something that is neither told nor heard; whoever is over then was so
before, or everyone has heard everything of it. -/
lemma Attended.append (hs : s.Attended) {k : Journal} (hj : t.journal = s.journal ++ k)
    (hh : t.handlers = s.handlers) (htold : ∀ c, t.journal.told c = s.journal.told c)
    (hheard : ∀ place c, t.journal.heardOf place c = s.journal.heardOf place c)
    (hk : ∀ place e m, .heard place e m ∉ k) (hgone : ∀ c ∈ k.gone, s.Informed c) :
    t.Attended := by
  refine ⟨fun place hplace c => ?_, fun c hc place hplace => ?_, fun place e m hm => ?_⟩
  · rw [htold, hheard]
    exact hs.upTo place (hh ▸ hplace) c
  · rw [htold, hheard]
    rw [hj, Journal.gone_append, List.mem_append] at hc
    exact hc.elim (hs.gone c · place (hh ▸ hplace)) (hgone c · place (hh ▸ hplace))
  · rw [hj, List.mem_append] at hm
    rw [hh]
    exact hs.dealt place e m (hm.resolve_right (hk place e m))

lemma Attended.record (hs : s.Attended) (ha : s.Admits h) : (s.record h).Attended := by
  cases ha with
  | heard hplace hdue => exact hs.hear hplace hdue
  | started hl hi hw => exact hs.tell (.started hl hi hw)
  | rejected hl hi hr collection reason raw =>
      exact hs.tell (.rejected hl hi hr collection reason raw)
  | completed hl hi hr stats => exact hs.tell (.completed hl hi hr stats)
  | failed hl hi hw hc text => exact hs.tell (.failed hl hi hw hc text)
  | cancelled hl hi hw hc => exact hs.tell (.cancelled hl hi hw hc)
  | dropped hl hi hw =>
      refine hs.append (k := [_]) rfl rfl (by simp [Happening.event?]) (by simp [Happening.heard?])
        (by simp) fun c hc => ?_
      obtain rfl : c = _ := by simpa [Happening.gone?] using hc
      exact hi
  | log | hook | looked =>
      exact hs.append (k := [_]) rfl rfl (by simp [Happening.event?]) (by simp [Happening.heard?])
        (by simp) (by simp [Happening.gone?])

lemma Moment.attended (hm : Moment s t) (hs : s.Attended) : t.Attended := by
  cases hm with
  | record ha => exact hs.record ha
  | start kind =>
      obtain ⟨k, hk, hj⟩ := s.journal_launch kind
      exact hs.append hj (by simp) (fun c => Journal.told_congr (by simp))
        (fun place c => Journal.heardOf_congr (by simp) place) (by simp [hk.notMem])
        (by simp [hk.gone, Happening.gone?])
  | cancel =>
      exact hs.append (k := [.cancel]) (by simp [Session.cancel]) (by simp [Session.cancel])
        (by simp [Session.cancel, Happening.event?]) (by simp [Session.cancel, Happening.heard?])
        (by simp) (by simp [Happening.gone?])
  | signal d m =>
      obtain ⟨k, signals, hk, h⟩ := s.moveSignal_eq d m
      refine hs.append (k := k) (by rw [h]) (by simp) (fun c => Journal.told_congr (by simp))
        (fun place c => Journal.heardOf_congr (by simp) place) ?_ fun c hc => ?_
      · intro place e made hm
        cases hk _ hm
      · obtain ⟨line, hline, hc⟩ := List.mem_filterMap.mp hc
        rw [hk line hline] at hc
        cases hc
  | @finish l r hl hi hr =>
      obtain ⟨k, r', hk, -, hj⟩ := s.journal_close l r
      refine hs.append hj (by simp) (fun c => Journal.told_congr (by simp))
        (fun place c => Journal.heardOf_congr (by simp) place) (by simp [hk.notMem]) fun c hc => ?_
      obtain rfl : c = l.cycle := by simpa [hk.gone, Happening.gone?] using hc
      exact hi
  | arrange source loads subscribers hooks => exact ⟨hs.upTo, hs.gone, hs.dealt⟩

/-- **Nobody misses an event.** At every state that a session passes through, each handler has
heard of every cycle what is told of it, the last event perhaps apart. -/
theorem attended_of_fresh {policy : Policy} {clock : Instant} {source : Source}
    {handlers : List Handler} (hp : Passes (fresh policy clock source handlers) s) :
    s.Attended := by
  refine hp.invariant ⟨fun place _ c => ⟨[], rfl, Nat.zero_le 1⟩, ?_, ?_⟩
    fun _ hm hs => hm.attended hs
  · simp [fresh]
  · simp [fresh, Journal.DealtBy]

/-- What a handler has heard of a cycle is on its course. -/
lemma Attended.course (hs : s.Attended) (hplace : place < s.handlers.length)
    (hc : Course c (s.journal.told c)) : Course c (s.journal.heardOf place c) := by
  obtain ⟨due, hdue, hlength⟩ := hs.upTo place hplace c
  rw [← hdue] at hc
  match due, hlength with
  | [], _ => simpa using hc
  | [e], _ => simpa using hc.dropLast

end Session

end BridgeAudit

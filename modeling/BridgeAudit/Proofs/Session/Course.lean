import BridgeAudit.Proofs.Session.Numbered

/-!
The events of one cycle.

* `Course`: the course that the events of a cycle take. `course_of_fresh` says that no cycle leaves
  it.
* `Journal.HasRead`: a load has told of its records. `Earned.isOk_iff` says that just those loads
  come to a view.
* `Journal.ReturnsIfRead`, `returnsIfRead_of_fresh`: a reload returns a view if it has told of its
  records and is the newest one at its end, and never otherwise.
-/

namespace BridgeAudit

/-! ### The course of a cycle -/

/-- The course of the events of a cycle: a start, and then rejections and a completion, or a
failure, or a cancellation. A cycle may be anywhere on its course. -/
inductive Course (c : Nat) : List Event → Prop
  | silent : Course c []
  | reading {rs : List Event} (hrs : ∀ e ∈ rs, e.kind = .rejected) : Course c (.started c :: rs)
  | completed {rs : List Event} (hrs : ∀ e ∈ rs, e.kind = .rejected) (stats : Stats) :
      Course c (.started c :: rs ++ [.completed c stats])
  | failed (text : String) : Course c [.started c, .failed c text]
  | cancelled : Course c [.started c, .cancelled c]

/-- An event that tells of records. -/
def Event.IsRead (e : Event) : Prop := e.kind = .rejected ∨ e.kind = .completed

namespace Session

variable {s t : Session} {l : Load} {h : Happening}

/-- An event matters to its own cycle alone. -/
lemma course_event {e : Event} (hs : ∀ c, Course c (s.journal.told c))
    (he : Course e.cycle (s.journal.told e.cycle ++ [e])) (c : Nat) :
    Course c ((s.record (.note (.event e))).journal.told c) := by
  rw [told_event]
  by_cases hc : e.cycle = c
  · subst hc
    simpa using he
  · simpa [hc] using hs c

/-- The next event of a cycle is one that its course allows. -/
lemma Admits.course (hh : s.Admits h) (hs : ∀ c, Course c (s.journal.told c)) (c : Nat) :
    Course c ((s.record h).journal.told c) := by
  cases hh with
  | log | hook | heard | looked | dropped => simpa [Happening.event?] using hs c
  | started hl hi hw =>
      refine course_event hs ?_ c
      rw [Event.cycle, hw]
      exact .reading (by simp)
  | @rejected l hl hi hr collection reason raw =>
      obtain ⟨rs, hrs, hkind, -⟩ := hr
      refine course_event hs ?_ c
      rw [Event.cycle, hrs, List.cons_append]
      refine .reading fun e he => ?_
      rcases List.mem_append.mp he with he | he
      · exact hkind e he
      · rw [List.mem_singleton.mp he]
        rfl
  | completed hl hi hr stats =>
      obtain ⟨rs, hrs, hkind, -⟩ := hr
      refine course_event hs ?_ c
      rw [Event.cycle, hrs]
      exact .completed hkind stats
  | failed hl hi hw hc text =>
      refine course_event hs ?_ c
      rw [Event.cycle, hw]
      exact .failed text
  | cancelled hl hi hw hc =>
      refine course_event hs ?_ c
      rw [Event.cycle, hw]
      exact .cancelled

lemma Moment.course (h : Moment s t) (hs : ∀ c, Course c (s.journal.told c)) (c : Nat) :
    Course c (t.journal.told c) := by
  cases h with
  | record hh => exact hh.course hs c
  | start kind => exact Journal.told_congr (about_launch s kind c) ▸ hs c
  | cancel => simpa [Session.cancel, Happening.event?] using hs c
  | signal d m => exact Journal.told_congr (about_moveSignal s d m c) ▸ hs c
  | @finish l r hl hi hr => exact Journal.told_congr (about_close s l r c) ▸ hs c
  | arrange source loads subscribers hooks => exact hs c

/-- **Every cycle keeps to its course.** -/
theorem course_of_fresh {policy : Policy} {clock : Instant} {source : Source}
    {handlers : List Handler} (h : Passes (fresh policy clock source handlers) s) (c : Nat) :
    Course c (s.journal.told c) :=
  h.invariant (P := fun s => ∀ c, Course c (s.journal.told c)) (fun _ => .silent)
    (fun _ hm hs => hm.course hs) c

end Session

/-! ### Loads that have told of their records -/

/-- A load has told of its records: of one that it rejects, or of all of them. -/
def Journal.HasRead (j : Journal) (c : Nat) : Prop := ∃ e ∈ j.told c, e.IsRead

lemma Journal.HasRead.append {j : Journal} {c : Nat} (h : j.HasRead c) (k : Journal) :
    (j ++ k).HasRead c := by
  obtain ⟨e, he, hr⟩ := h
  exact ⟨e, by simp [he], hr⟩

lemma Journal.HasRead.congr {j k : Journal} {c : Nat} (h : j.HasRead c)
    (ha : j.about c = k.about c) : k.HasRead c := by
  rwa [HasRead, ← Journal.told_congr ha]

/-- A reload that ends here returns a view if it has told of its records and no newer reload has
begun, and never otherwise. -/
def Journal.ReturnsIfRead (before : Journal) (h : Happening) : Prop :=
  ∀ c ticket r, h = .ended c (.reload ticket) r →
    ((∃ v, r = .ok v) ↔ before.HasRead c ∧ before.newest? = some (c, ticket))

namespace Session

variable {s t : Session} {l : Load} {r : Result}

/-- A load comes to a view if and only if it has told of its records. -/
lemma Earned.isOk_iff (h : s.Earned l r) : (∃ v, r = .ok v) ↔ s.journal.HasRead l.cycle := by
  cases h with
  | @view d hd htold =>
      let made := reconcile s.policy l.cycle (Collections.ofFn d) s.clock
      have hlast : .completed l.cycle made.view.stats ∈ s.journal.told l.cycle := by
        rw [htold]
        exact List.mem_concat_self
      exact iff_of_true ⟨_, rfl⟩ ⟨_, hlast, .inr rfl⟩
  | fetch hf htold => simp [Journal.HasRead, htold, Event.IsRead, Event.kind]
  | cancelled htold => simp [Journal.HasRead, htold, Event.IsRead, Event.kind]

/-- A reload that has told of its records returns a view at its end, unless a newer one has
begun. -/
lemma Earned.returnsIfRead (hr : s.Earned l r) (hn : s.Numbered) (hl : s.journal.IsOpen l)
    (hs : s.journal.Each Journal.ReturnsIfRead) :
    (s.close l r).1.journal.Each Journal.ReturnsIfRead := by
  obtain ⟨v, hp, rfl, h⟩ | ⟨ticket, v, hp, rfl, ht, h⟩ | ⟨hno, h⟩ := s.close_cases l r
  · -- the newest reload
    simp only [h, journal_record]
    refine Journal.each_concat.mpr ⟨hs, fun c ticket r heq => ?_⟩
    rw [hp] at heq
    obtain ⟨rfl, ⟨⟩, rfl⟩ := Happening.ended.inj heq
    have hmem : (l.cycle, s.tickets) ∈ s.journal.reloads := hl.mem_reloads hp
    exact iff_of_true ⟨v, rfl⟩ ⟨hr.isOk_iff.mp ⟨v, rfl⟩, (hn.newest hmem).1⟩
  · -- a reload with a view that is discarded
    simp only [h, journal_record, log]
    refine Journal.each_concat.mpr ⟨?_, fun c ticket' r heq => ?_⟩
    · exact Journal.each_concat.mpr ⟨hs, fun c ticket r heq => by cases heq⟩
    · rw [hp] at heq
      obtain ⟨rfl, ⟨⟩, rfl⟩ := Happening.ended.inj heq
      refine iff_of_false (by simp) fun hread => ht ?_
      have hnew : s.journal.newest? = some (l.cycle, ticket) := by
        simpa [Journal.newest?, Happening.begun?] using hread.2
      exact (hn.eq_of_newest hnew).symm
  · simp only [h, journal_record]
    refine Journal.each_concat.mpr ⟨hs, fun c ticket r' heq => ?_⟩
    obtain ⟨rfl, hp, rfl⟩ := Happening.ended.inj heq
    have hbad : ¬ ∃ v, r = .ok v := by
      rintro ⟨v, hv⟩
      exact hno ticket v hp hv
    exact iff_of_false hbad fun hread => hbad (hr.isOk_iff.mpr hread.1)

lemma Moment.returnsIfRead (hm : Moment s t) (hn : s.Numbered)
    (hs : s.journal.Each Journal.ReturnsIfRead) : t.journal.Each Journal.ReturnsIfRead := by
  obtain ⟨l, r, hl, -, hr, rfl⟩ | ⟨k, hj, hk⟩ := hm.ends_or
  · exact hr.returnsIfRead hn hl hs
  · rw [hj]
    exact hs.append fun h hmem before c ticket r heq => absurd (heq ▸ hmem) (hk _ _ _)

lemma returnsIfRead_of_fresh {policy : Policy} {clock : Instant} {source : Source}
    {handlers : List Handler} (h : Passes (fresh policy clock source handlers) s) :
    s.journal.Each Journal.ReturnsIfRead :=
  h.invariant (P := fun s => s.journal.Each Journal.ReturnsIfRead) (Journal.each_nil _)
    fun hp hm hs => hm.returnsIfRead (numbered_of_fresh hp) hs

end Session

end BridgeAudit

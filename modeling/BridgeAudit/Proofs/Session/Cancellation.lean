import BridgeAudit.Proofs.Session.Course
import BridgeAudit.Proofs.Session.Publication
import BridgeAudit.Proofs.Session.Slot

/-!
What a cancellation does to the reloads that have begun before it.

A cancelled reload ends at the next look at it. But a reload that is in the middle of telling of
its records has been looked at for the last time, and whoever cancels it then comes too late.

* `Session.Stopped`, `stopped_of_fresh`: whoever has begun before a cancellation is cancelled, and
  does not begin to tell of its records afterwards.
* `Journal.HeedsCancels`: no reload that has begun before a cancellation returns a view after it.
* `Journal.CancelledLate`: a cancellation that comes too late.
* `returns_after_cancel_iff`: a reload that has begun before a cancellation returns a view if and
  only if the cancellation came too late for it. A cancellation between two steps never does.
-/

namespace BridgeAudit

namespace Session

variable {s t : Session} {l : Load} {h : Happening}

/-! ### Who begins to tell of records -/

lemma mem_told_record {e : Event} {c : Nat} : e ∈ (s.record h).journal.told c ↔
    e ∈ s.journal.told c ∨ h.event? = some e ∧ e.cycle = c := by
  simp

/-- A load that may tell of records does so already, or it has not been cancelled. -/
lemma MayRead.hasRead_or (hr : s.MayRead l) :
    s.journal.HasRead l.cycle ∨ s.isCancelled l = false := by
  obtain ⟨rs, hrs, hkind, hc⟩ := hr
  cases rs with
  | nil => exact .inr (hc rfl)
  | cons e rs => exact .inl ⟨e, by simp [hrs], .inl (hkind e List.mem_cons_self)⟩

/-- A load that begins to tell of its records has not been cancelled. -/
lemma Admits.hasRead_or (hh : s.Admits h) {c : Nat} (hread : (s.record h).journal.HasRead c) :
    s.journal.HasRead c ∨ ∃ l, l.cycle = c ∧ s.journal.IsOpen l ∧ s.isCancelled l = false := by
  obtain ⟨e, he, hr⟩ := hread
  obtain he | ⟨hev, rfl⟩ := mem_told_record.mp he
  · exact .inl ⟨e, he, hr⟩
  · cases hh with
    | @rejected l hl hi hmay | @completed l hl hi hmay =>
        obtain rfl := Option.some.inj hev
        exact hmay.hasRead_or.imp_right fun hc => ⟨l, rfl, hl, hc⟩
    | started | failed | cancelled =>
        obtain rfl := Option.some.inj hev
        simp [Event.IsRead, Event.kind] at hr
    | _ => cases hev

/-- A cancelled reload does not begin to tell of its records. -/
lemma Moment.hasRead_of_cancelled (h : Moment s t) (hn : s.Numbered) {r : Nat × Nat}
    (hr : r ∈ s.journal.reloads) (hc : r.2 ∈ s.cancelled) (hread : t.journal.HasRead r.1) :
    s.journal.HasRead r.1 := by
  cases h with
  | record hh =>
      refine (hh.hasRead_or hread).resolve_right ?_
      rintro ⟨l, hlr, hl, hno⟩
      have hp : l.purpose = .reload r.2 := hn.purpose_of_mem hl (hlr ▸ hr)
      simp [isCancelled, hp, hc] at hno
  | start kind => exact hread.congr (about_launch s kind r.1)
  | cancel => simpa [Session.cancel, Journal.HasRead, Happening.event?] using hread
  | signal d m => exact hread.congr (about_moveSignal s d m r.1)
  | @finish l result hl hi hr => exact hread.congr (about_close s l result r.1)
  | arrange source loads subscribers hooks => exact hread

/-! ### What a cancellation stops -/

/-- Whoever has begun before a cancellation is cancelled, and has told of its records before the
cancellation or not at all. -/
def Stopped (s : Session) : Prop :=
  s.journal.Each fun before h => h = .cancel → ∀ r ∈ before.reloads,
    r.2 ∈ s.cancelled ∧ (s.journal.HasRead r.1 → before.HasRead r.1)

/-- No moment lets a cancelled reload go. -/
lemma Stopped.each (hs : s.Stopped) (hn : s.Numbered) (hm : Moment s t) :
    s.journal.Each fun before h => h = .cancel → ∀ r ∈ before.reloads,
      r.2 ∈ t.cancelled ∧ (t.journal.HasRead r.1 → before.HasRead r.1) := by
  intro before h after heq hcancel r hr
  obtain ⟨hc, hread⟩ := hs before h after heq hcancel r hr
  have hr' : r ∈ s.journal.reloads := by simp [heq, hr]
  exact ⟨hm.cancelled_subset hc, fun ht => hread (hm.hasRead_of_cancelled hn hr' hc ht)⟩

/-- Nobody cancels. -/
lemma Stopped.append (hs : s.Stopped) (hn : s.Numbered) (hm : Moment s t) {k : Journal}
    (hj : t.journal = s.journal ++ k) (hk : .cancel ∉ k) : t.Stopped := by
  have h := (hs.each hn hm).append (k := k) fun h hmem _ hcancel => absurd (hcancel ▸ hmem) hk
  rwa [← hj] at h

lemma Moment.stopped (hm : Moment s t) (hn : s.Numbered) (hslot : s.Slotted) (hs : s.Stopped) :
    t.Stopped := by
  cases hm with
  | @record h hh => exact hs.append hn (.record hh) rfl (by cases hh <;> simp)
  | start kind =>
      obtain ⟨k, hk, hj⟩ := s.journal_launch kind
      exact hs.append hn (.start kind) hj (by simp [hk.notMem])
  | cancel =>
      -- all reloads so far are cancelled now, and none of them has told of its records since
      have hnew : ∀ r ∈ s.journal.reloads, r.2 ∈ s.cancel.cancelled ∧
          (s.cancel.journal.HasRead r.1 → s.journal.HasRead r.1) := by
        refine fun r hr => ⟨?_, fun hread => ?_⟩
        · simpa [Session.cancel] using (hslot.cancelled r hr).symm
        · simpa [Session.cancel, Journal.HasRead, Happening.event?] using hread
      have h := Journal.each_concat (h := .cancel).mpr ⟨hs.each hn .cancel, fun _ => hnew⟩
      rwa [show s.journal ++ [.cancel] = s.cancel.journal by simp [Session.cancel]] at h
  | signal d m =>
      obtain ⟨k, signals, hk, h⟩ := s.moveSignal_eq d m
      refine hs.append hn (.signal d m) (k := k) (by rw [h]) fun hc => ?_
      cases hk _ hc
  | @finish l r hl hi hr =>
      obtain ⟨k, r', hk, -, hj⟩ := s.journal_close l r
      exact hs.append hn (.finish hl hi hr) hj (by simp [hk.notMem])
  | arrange source loads subscribers hooks =>
      exact hs.append hn (.arrange source loads subscribers hooks) (k := []) (by simp) (by simp)

lemma stopped_of_fresh {policy : Policy} {clock : Instant} {source : Source}
    {handlers : List Handler} (h : Passes (fresh policy clock source handlers) s) : s.Stopped :=
  h.invariant (Journal.each_nil _)
    fun hp hm hs => hm.stopped (numbered_of_fresh hp) (slotted_of_fresh hp) hs

end Session

/-! ### Views that are returned after a cancellation -/

namespace Journal

variable {j : Journal} {v : View}

/-- No reload that has begun before a cancellation returns a view after it. -/
def HeedsCancels (j : Journal) : Prop :=
  ∀ before after : Journal, j = before ++ .cancel :: after →
    ∀ r ∈ before.reloads, ∀ v, .ended r.1 (.reload r.2) (.ok v) ∉ after

/-- A cancellation comes too late for a reload: the reload has told of its records before, and no
newer reload begins until it ends. -/
def CancelledLate (before mid : Journal) (r : Nat × Nat) : Prop :=
  before.HasRead r.1 ∧ (before ++ .cancel :: mid).newest? = some r

lemma mem_publications :
    v ∈ j.publications ↔ ∃ c ticket, .ended c (.reload ticket) (.ok v) ∈ j := by
  rw [publications, List.mem_filterMap]
  constructor
  · rintro ⟨h, hm, hv⟩
    cases h with
    | ended c p r =>
        cases p with
        | reload ticket =>
            cases r with
            | ok w =>
                obtain rfl := Option.some.inj hv
                exact ⟨c, ticket, hm⟩
            | error e => cases hv
        | direct signal => cases hv
    | _ => cases hv
  · rintro ⟨c, ticket, hm⟩
    exact ⟨_, hm, rfl⟩

end Journal

namespace Session

variable {s t : Session} {before after mid rest : Journal}
variable {r : Nat × Nat} {result : Result} {v : View}

/-- Of the reloads that have begun before a cancellation, just those return a view for which it
comes too late. -/
lemma Stopped.returns_iff (hs : s.Stopped) (hret : s.journal.Each Journal.ReturnsIfRead)
    (hj : s.journal = before ++ .cancel :: mid ++ .ended r.1 (.reload r.2) result :: rest)
    (hr : r ∈ before.reloads) : (∃ v, result = .ok v) ↔ before.CancelledLate mid r := by
  rw [hret (before ++ .cancel :: mid) _ rest hj r.1 r.2 result rfl]
  refine and_congr_left fun _ => ⟨fun hread => ?_, fun hread => hread.append _⟩
  refine (hs before .cancel _ (by rw [hj, List.append_assoc, List.cons_append]) rfl r hr).2 ?_
  rw [hj]
  exact hread.append _

/-- A view that is returned after a cancellation comes from a reload that has begun after it, or
from one that had told of its records and was not over. -/
lemma Stopped.returned_after (hs : s.Stopped) (hn : s.Numbered) (hshown : s.Shown)
    (hret : s.journal.Each Journal.ReturnsIfRead) (hj : s.journal = before ++ .cancel :: after)
    (hv : v ∈ after.publications) : v.cycle ∈ after.reloads.map Prod.fst ∨
      v.cycle ∈ before.reloads.map Prod.fst ∧ v.cycle ∉ before.gone ∧ before.HasRead v.cycle := by
  obtain ⟨c, ticket, hm⟩ := Journal.mem_publications.mp hv
  obtain ⟨mid, rest, rfl⟩ := List.append_of_mem hm
  have hj' : s.journal = before ++ .cancel :: mid ++ .ended c (.reload ticket) (.ok v) :: rest := by
    simpa using hj
  obtain ⟨rfl, hnew, -⟩ := hshown.newest _ _ _ hj' c ticket v rfl
  have hmem : (v.cycle, ticket) ∈ before.reloads ++ Journal.reloads mid := by
    simpa [Happening.begun?] using List.mem_of_getLast? hnew
  rcases List.mem_append.mp hmem with hmem | hmem
  · refine .inr ⟨List.mem_map_of_mem hmem, fun hg => ?_, ?_⟩
    · -- no load is over twice
      have hnodup := hn.nodup
      rw [hj', Journal.gone_append, Journal.gone_append, List.nodup_append] at hnodup
      exact hnodup.2.2 _ (List.mem_append_left _ hg) _ (by simp [Happening.gone?]) rfl
    · exact ((hs.returns_iff (r := (v.cycle, ticket)) hret hj' hmem).mp ⟨v, rfl⟩).1
  · have hafter : (v.cycle, ticket) ∈
        Journal.reloads (mid ++ .ended v.cycle (.reload ticket) (.ok v) :: rest) := by
      rw [Journal.reloads_append]
      exact List.mem_append_left _ hmem
    exact .inl (List.mem_map_of_mem hafter)

/-- What is published before and after a cancellation. -/
lemma Shown.published_append (hs : s.Shown) (hj : s.journal = before ++ .cancel :: after) :
    s.published = after.publications.reverse ++ before.publications.reverse := by
  rw [← List.reverse_inj, hs.published, hj]
  simp [Happening.view?]

/-! ### Cancellations between two steps -/

/-- Between two steps no load that is not over has told of its records. -/
lemma Tidy.not_hasRead (hs : s.Tidy) (hhand : s.inHand = ∅) {c : Nat}
    (hr : c ∈ s.journal.reloads.map Prod.fst) (hg : c ∉ s.journal.gone) :
    ¬ s.journal.HasRead c := by
  obtain ⟨⟨c, ticket⟩, hm, rfl⟩ := List.mem_map.mp hr
  obtain ⟨id, l, hlook, rfl⟩ :=
    hs.exists_lookup hhand (List.mem_map_of_mem (Journal.mem_reloads.mp hm)) hg
  rw [Journal.HasRead, (hs.waiting _ (mem_of_lookup hlook)).told]
  simp [Event.IsRead, Event.kind]

/-- What is returned after a cancellation between two steps has begun after it. -/
lemma Tidy.lt_of_returned (hs : s.Tidy) (hhand : s.inHand = ∅) (hn : s.Numbered)
    (ht : t.Stopped) (htn : t.Numbered) (hshown : t.Shown)
    (hret : t.journal.Each Journal.ReturnsIfRead) (hj : t.journal = s.journal ++ .cancel :: after)
    (hv : v ∈ after.publications) : s.cycles < v.cycle := by
  rcases ht.returned_after htn hshown hret hj hv with hm | ⟨hr, hg, hread⟩
  · obtain ⟨⟨c, ticket⟩, hm, hc⟩ := List.mem_map.mp hm
    refine hn.lt_of_begun htn hj ?_
    rw [← hc, Journal.begun_cons, List.map_append]
    exact List.mem_append_right _ (List.mem_map_of_mem (Journal.mem_reloads.mp hm))
  · exact absurd hread (hs.not_hasRead hhand hr hg)

/-- A run goes on behind the cancellation it begins with. -/
lemma Tidy.journal_run_cancel (hs : s.Tidy) (hn : s.Numbered) (more : List Step) :
    ∃ after : Journal, (s.run (.cancel :: more)).journal = s.journal ++ .cancel :: after := by
  obtain ⟨k, hk⟩ := Passes.journal (hs.cancel.tidy.run hn.cancel more).passes
  exact ⟨k, hk.trans (by simp [Session.cancel])⟩

/-! ### The main result -/

/-- **Which cancellations are lost.** At every state that a session passes through: a reload that
has begun before a cancellation returns a view afterwards if and only if it had told of its
records before, and no newer reload has begun by its end. So a session heeds its cancellations
exactly if none of them comes too late for a reload in this way, and what is published after a
cancellation comes from reloads that have begun after it, or for which it came too late. A
cancellation between two steps of a run is never lost. -/
theorem returns_after_cancel_iff (policy : Policy) (clock : Instant) (source : Source)
    (handlers : List Handler) :
    (∀ s, Passes (fresh policy clock source handlers) s →
      (∀ (before mid : Journal) (r : Nat × Nat) (result : Result) (rest : Journal),
        s.journal = before ++ .cancel :: mid ++ .ended r.1 (.reload r.2) result :: rest →
        r ∈ before.reloads → ((∃ v, result = .ok v) ↔ before.CancelledLate mid r)) ∧
      (s.journal.HeedsCancels ↔
        ∀ (before mid : Journal) (r : Nat × Nat) (result : Result) (rest : Journal),
          s.journal = before ++ .cancel :: mid ++ .ended r.1 (.reload r.2) result :: rest →
          r ∈ before.reloads → ¬ before.CancelledLate mid r) ∧
      ∀ before after : Journal, s.journal = before ++ .cancel :: after →
        s.published = after.publications.reverse ++ before.publications.reverse ∧
        ∀ v ∈ after.publications, v.cycle ∈ after.reloads.map Prod.fst ∨
          v.cycle ∈ before.reloads.map Prod.fst ∧ v.cycle ∉ before.gone ∧
            before.HasRead v.cycle) ∧
    ∀ steps more,
      let s := (fresh policy clock source handlers).run steps
      let t := s.run (.cancel :: more)
      ∃ after : Journal, t.journal = s.journal ++ .cancel :: after ∧
        (∀ r ∈ s.journal.reloads, ∀ v, .ended r.1 (.reload r.2) (.ok v) ∉ after) ∧
        t.published = after.publications.reverse ++ s.published ∧
        ∀ v ∈ after.publications, s.cycles < v.cycle := by
  refine ⟨fun s hs => ?_, fun steps more => ?_⟩
  · have hreturns : ∀ (before mid : Journal) (r : Nat × Nat) (result : Result) (rest : Journal),
        s.journal = before ++ .cancel :: mid ++ .ended r.1 (.reload r.2) result :: rest →
        r ∈ before.reloads → ((∃ v, result = .ok v) ↔ before.CancelledLate mid r) :=
      fun before mid r result rest hj hr =>
        (stopped_of_fresh hs).returns_iff (returnsIfRead_of_fresh hs) hj hr
    refine ⟨hreturns, ⟨?_, ?_⟩, ?_⟩
    · intro hheeds before mid r result rest hj hr hlate
      obtain ⟨v, rfl⟩ := (hreturns before mid r result rest hj hr).mpr hlate
      refine hheeds before (mid ++ .ended r.1 (.reload r.2) (.ok v) :: rest) ?_ r hr v (by simp)
      simpa using hj
    · intro hno before after hj r hr v hm
      obtain ⟨mid, rest, rfl⟩ := List.append_of_mem hm
      have hj' : s.journal =
          before ++ .cancel :: mid ++ .ended r.1 (.reload r.2) (.ok v) :: rest := by
        simpa using hj
      exact hno before mid r _ rest hj' hr ((hreturns before mid r _ rest hj' hr).mp ⟨v, rfl⟩)
    · intro before after hj
      refine ⟨(shown_of_fresh hs).published_append hj, fun v hv => ?_⟩
      exact (stopped_of_fresh hs).returned_after (numbered_of_fresh hs) (shown_of_fresh hs)
        (returnsIfRead_of_fresh hs) hj hv
  · intro s t
    have hs : Leads (fresh policy clock source handlers) ∅ s :=
      run_leads policy clock source handlers steps
    have hn : s.Numbered := numbered_of_fresh hs.passes
    have ht : Passes (fresh policy clock source handlers) t :=
      hs.passes.trans (hs.tidy.run hn (.cancel :: more)).passes
    have hshown : t.Shown := shown_of_fresh ht
    obtain ⟨after, hj⟩ := hs.tidy.journal_run_cancel hn more
    have hnew : ∀ v ∈ after.publications, s.cycles < v.cycle := fun v hv =>
      hs.tidy.lt_of_returned hs.inHand hn (stopped_of_fresh ht) (numbered_of_fresh ht) hshown
        (returnsIfRead_of_fresh ht) hj hv
    refine ⟨after, hj, fun r hr v hm => ?_, ?_, hnew⟩
    · -- it would have a number that had been given out before
      obtain ⟨mid, rest, rfl⟩ := List.append_of_mem hm
      have hv : v ∈ Journal.publications (mid ++ .ended r.1 (.reload r.2) (.ok v) :: rest) :=
        Journal.mem_publications.mpr ⟨_, _, hm⟩
      have hc : v.cycle = r.1 :=
        (hshown.newest (s.journal ++ .cancel :: mid) _ rest (by simpa using hj) _ _ _ rfl).1
      have hlt := hnew v hv
      have hle : r.1 ∈ s.journal.begun.map Prod.fst :=
        List.mem_map_of_mem (Journal.mem_reloads.mp hr)
      rw [hn.cycles, List.mem_range'_1] at hle
      omega
    · rw [hshown.published_append hj, ← (shown_of_fresh hs.passes).published,
        List.reverse_reverse]

/-- A cancellation is lost that comes while a handler hears that the first reload is complete. -/
theorem late_cancel_is_lost :
    ¬ ((fresh {} ⟨0, 0⟩ ⟨"", {}, [], [], []⟩ [⟨"", .recorder⟩]).run
      [.arm [⟨0, .completed, .cancel⟩], .start "a" .reload]).journal.HeedsCancels := by
  intro hheeds
  let v := (reconcile {} 1 {} ⟨0, 0⟩).view
  let source : Source := ⟨"", {}, [], [], Collection.all⟩
  have hj : ((fresh {} ⟨0, 0⟩ ⟨"", {}, [], [], []⟩ [⟨"", .recorder⟩]).run
      [.arm [⟨0, .completed, .cancel⟩], .start "a" .reload]).journal =
      [.began 1 (.reload 1), .note (.event (.started 1)),
        .heard 0 (.started 1) (.event (.started 1)), .note (.log (fetchingLine "")),
        .looked 1 source, .note (.event (.completed 1 v.stats)),
        .heard 0 (.completed 1 v.stats) (.event (.completed 1 v.stats))] ++ .cancel ::
      [.hook .cancelled, .ended 1 (.reload 1) (.ok v)] := rfl
  exact hheeds _ _ hj (1, 1) (by simp [Happening.begun?, Purpose.reload?]) v (by simp)

end Session

end BridgeAudit

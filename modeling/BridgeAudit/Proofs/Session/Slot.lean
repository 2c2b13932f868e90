import BridgeAudit.Proofs.Session.Trail

/-!
The slot and the reloads that have not been cancelled.

* `Session.Slotted`, `slotted_of_fresh`: the slot holds the latest ticket or nothing, and every
  other reload has been cancelled.
* `Session.IsLive`: a reload that is open and has not been cancelled. `IsLive.newest` says that it
  is the newest one, and that the slot holds it.
* `at_most_one_live`: at most one reload is live, and the next look at any other one cancels it.
-/

namespace BridgeAudit

namespace Session

variable {s t : Session} {l l' : Load} {id : String} {ticket : Nat}

/-! ### The slot -/

/-- The slot holds the latest ticket, if any, and all other reloads have been cancelled. Nothing
has been cancelled that has not begun. -/
structure Slotted (s : Session) : Prop where
  latest : ∀ ticket, s.slot = some ticket → ticket = s.tickets
  issued : ∀ ticket ∈ s.cancelled, ticket ≤ s.tickets
  cancelled : ∀ r ∈ s.journal.reloads, r.2 ∈ s.cancelled ∨ s.slot = some r.2

/-- What is cancelled together with the slot has been issued. -/
lemma Slotted.issued_slot (hs : s.Slotted) {ticket : Nat}
    (h : ticket ∈ s.slot.toList ++ s.cancelled) : ticket ≤ s.tickets := by
  rcases List.mem_append.mp h with h | h
  · exact (hs.latest ticket (Option.mem_toList.mp h)).le
  · exact hs.issued ticket h

/-- A new reload takes the slot, and the one that was there is cancelled. -/
lemma Slotted.launch (hs : s.Slotted) (kind : Start) : (s.launch kind).1.Slotted := by
  obtain ⟨hp, ht, hslot, hc⟩ | ⟨hp, ht, hslot, hc⟩ := s.tickets_launch kind
  · refine ⟨by simp [ht, hslot], fun ticket hm => ?_, fun r hr => ?_⟩
    · rw [hc] at hm
      have := hs.issued_slot hm
      omega
    simp only [reloads_launch, hp, Purpose.reload?, Option.toList_some, List.mem_append,
      List.mem_singleton] at hr
    rw [hc, hslot, List.mem_append, Option.mem_toList]
    obtain hr | rfl := hr
    · exact .inl ((hs.cancelled r hr).symm)
    · exact .inr rfl
  · refine ⟨by simpa [ht, hslot] using hs.latest, by simpa [ht, hc] using hs.issued,
      fun r hr => ?_⟩
    rw [hc, hslot]
    cases hq : (s.launch kind).2.purpose with
    | reload ticket => simp [hq, Purpose.ticket?] at hp
    | direct signal => exact hs.cancelled r (by simpa [hq, Purpose.reload?] using hr)

/-- Whoever cancels empties the slot; nothing escapes. -/
lemma Slotted.cancel (hs : s.Slotted) : s.cancel.Slotted := by
  refine ⟨by simp [Session.cancel], fun ticket hm => ?_, fun r hr => .inl ?_⟩
  · simpa [Session.cancel] using hs.issued_slot (by simpa [Session.cancel] using hm)
  have hr' : r ∈ s.journal.reloads := by
    simpa [Session.cancel, Happening.begun?] using hr
  simpa [Session.cancel] using (hs.cancelled r hr').symm

lemma Moment.slotted (h : Moment s t) (hs : s.Slotted) : t.Slotted := by
  cases h with
  | record hh => exact ⟨hs.latest, hs.issued, by simpa [hh.begun_eq] using hs.cancelled⟩
  | start kind => exact hs.launch kind
  | cancel => exact hs.cancel
  | signal c m =>
      exact ⟨by simpa using hs.latest, by simpa using hs.issued, by simpa using hs.cancelled⟩
  | finish hl hi hr =>
      exact ⟨by simpa using hs.latest, by simpa using hs.issued,
        by simpa [Journal.reloads] using hs.cancelled⟩
  | arrange source loads subscribers hooks => exact ⟨hs.latest, hs.issued, hs.cancelled⟩

lemma slotted_of_fresh {policy : Policy} {clock : Instant} {source : Source}
    {handlers : List Handler} (h : Passes (fresh policy clock source handlers) s) : s.Slotted :=
  h.invariant ⟨by simp [fresh], by simp [fresh], by simp [fresh]⟩ fun _ hm hs => hm.slotted hs

/-! ### Live reloads -/

/-- A reload that has begun, is not over, and has not been cancelled. -/
structure IsLive (s : Session) (l : Load) : Prop where
  isOpen : s.journal.IsOpen l
  notCancelled : ∃ ticket, l.purpose = .reload ticket ∧ ticket ∉ s.cancelled

/-- A live reload holds the latest ticket, it is in the slot, and it has begun last. -/
lemma IsLive.newest (h : s.IsLive l) (hs : s.Slotted) (hn : s.Numbered) :
    l.purpose = .reload s.tickets ∧ s.slot = some s.tickets ∧
      s.journal.newest? = some (l.cycle, s.tickets) := by
  obtain ⟨ticket, hp, hc⟩ := h.notCancelled
  have hm : (l.cycle, ticket) ∈ s.journal.reloads := h.isOpen.mem_reloads hp
  have hslot : s.slot = some ticket := (hs.cancelled _ hm).resolve_left hc
  obtain rfl := hs.latest ticket hslot
  exact ⟨hp, hslot, (hn.newest hm).1⟩

/-! ### The other reloads -/

/-- An open reload that is not live has been cancelled. -/
lemma cancelled_of_not_isLive (hl : s.journal.IsOpen l) (hp : l.purpose = .reload ticket)
    (hlive : ¬ s.IsLive l) : ticket ∈ s.cancelled := by
  by_contra hno
  exact hlive ⟨hl, ticket, hp, hno⟩

/-- A look at a cancelled reload tells that it is cancelled and ends it, and does nothing else:
no collection is looked at. -/
lemma pollWith_cancelled (telling : Telling) (h : s.loads.lookup id = some l)
    (hp : l.purpose = .reload ticket) (hc : ticket ∈ s.cancelled) :
    pollWith telling s id = some (((telling (s.without id) (.cancelled l.cycle)).close l
      (.error (.cancelled l.cycle))).1, some (.error (.cancelled l.cycle))) := by
  have hcancelled : (s.without id).isCancelled l = true := by
    simpa [isCancelled, hp, without] using hc
  have hend : ∀ u : Session, u.close l (.error (.cancelled l.cycle)) =
      ((u.close l (.error (.cancelled l.cycle))).1, .ended (.error (.cancelled l.cycle))) :=
    fun u => by simp [close]
  rw [pollWith, h, Option.map_some, resumeWith, if_pos hcancelled, hend]
  rfl

/-- **At most one live reload.** At every state that a session passes through, a reload that is
open and not cancelled is the newest one and in the slot, so there is at most one. A look at any
other one, from outside or by a hook, returns that its own cycle was cancelled, and looks at no
collection. Between the steps of a run every open load has a name, and a reload that is not live
stays so, whatever is done in the meantime. -/
theorem at_most_one_live (policy : Policy) (clock : Instant) (source : Source)
    (handlers : List Handler) :
    (∀ s, Passes (fresh policy clock source handlers) s →
      (∀ l, s.IsLive l → l.purpose = .reload s.tickets ∧ s.slot = some s.tickets ∧
        s.journal.newest? = some (l.cycle, s.tickets)) ∧
      (∀ l l', s.IsLive l → s.IsLive l' → l.cycle = l'.cycle ∧ l.purpose = l'.purpose) ∧
      ∀ telling id l ticket, s.loads.lookup id = some l → s.journal.IsOpen l →
        l.purpose = .reload ticket → ¬ s.IsLive l →
          pollWith telling s id = some (((telling (s.without id) (.cancelled l.cycle)).close l
            (.error (.cancelled l.cycle))).1, some (.error (.cancelled l.cycle)))) ∧
    ∀ steps more,
      let s := (fresh policy clock source handlers).run steps
      let t := s.run more
      (∀ l, t.journal.IsOpen l →
        ∃ id l', t.loads.lookup id = some l' ∧ l'.cycle = l.cycle ∧ t.journal.IsOpen l') ∧
      ∀ l ticket, s.journal.IsOpen l → l.purpose = .reload ticket → ¬ s.IsLive l →
        ∀ id l', t.loads.lookup id = some l' → l'.cycle = l.cycle →
          t.poll id = some (((tell (t.without id) (.cancelled l.cycle)).close l'
            (.error (.cancelled l.cycle))).1, some (.error (.cancelled l.cycle))) := by
  refine ⟨fun s hs => ?_, fun steps more => ?_⟩
  · have hslot : s.Slotted := slotted_of_fresh hs
    have hn : s.Numbered := numbered_of_fresh hs
    refine ⟨fun l hl => hl.newest hslot hn, fun l l' hl hl' => ?_,
      fun telling id l ticket hlook hl hp hlive =>
        pollWith_cancelled telling hlook hp (cancelled_of_not_isLive hl hp hlive)⟩
    obtain ⟨hp, -, hnew⟩ := hl.newest hslot hn
    obtain ⟨hp', -, hnew'⟩ := hl'.newest hslot hn
    exact ⟨by simpa using hnew.symm.trans hnew', hp.trans hp'.symm⟩
  · intro s t
    have hs : Leads (fresh policy clock source handlers) ∅ s :=
      run_leads policy clock source handlers steps
    have hst : Leads s s.inHand t := hs.tidy.run (numbered_of_fresh hs.passes) more
    have hn : t.Numbered := numbered_of_fresh (hs.passes.trans hst.passes)
    refine ⟨fun l hl => ?_, fun l ticket hl hp hlive id l' hlook hc => ?_⟩
    · obtain ⟨id, l', hlook, hc⟩ := hst.tidy.exists_lookup (hst.inHand.trans hs.inHand)
        (List.mem_map_of_mem hl.begun) hl.notGone
      exact ⟨id, l', hlook, hc, (hst.tidy.waiting _ (mem_of_lookup hlook)).isOpen⟩
    · -- the reload has been cancelled by now, and stays so
      have hcancelled : ticket ∈ s.cancelled := cancelled_of_not_isLive hl hp hlive
      have hl' : t.journal.IsOpen l' := (hst.tidy.waiting _ (mem_of_lookup hlook)).isOpen
      have hr : (l.cycle, ticket) ∈ s.journal.reloads := hl.mem_reloads hp
      have hp' : l'.purpose = .reload ticket :=
        hn.purpose_of_mem hl' (hc ▸ hst.passes.reloads_subset hr)
      rw [← hc]
      exact pollWith_cancelled tell hlook hp' (hst.passes.cancelled_subset hcancelled)

end Session

end BridgeAudit

import BridgeAudit.Proofs.Session.Moment

/-!
The numbers of loads.

* `Session.Numbered`: cycles and tickets are counted up, no load is over twice, and whatever is
  about a cycle is about one that has begun. `Passes.numbered` says that this holds throughout.
* `Passes.invariant`: what every moment keeps holds throughout.
* `Numbered.begun_range`: the loads of a later part of the journal get the next numbers.
* `Numbered.newest`: the reload with the latest ticket is the one that has begun last.
* `Numbered.purpose_of_mem`: the cycle of a reload determines its ticket.
-/

namespace BridgeAudit

namespace Session

variable {s t : Session} {l : Load}

/-! ### The numbers of loads -/

/-- Cycles and tickets are counted up from one, no load is over twice, and what is told of a cycle,
heard of it or looked at in it belongs to one that has begun. -/
structure Numbered (s : Session) : Prop where
  cycles : s.journal.begun.map Prod.fst = List.range' 1 s.cycles
  tickets : s.journal.reloads.map Prod.snd = List.range' 1 s.tickets
  nodup : s.journal.gone.Nodup
  gone_le : ∀ c ∈ s.journal.gone, c ≤ s.cycles
  about_new : ∀ c, s.cycles < c → s.journal.about c = []

/-- A load that has begun has one of the numbers given out. -/
lemma Numbered.cycle_le (hs : s.Numbered) (hl : s.journal.IsOpen l) : l.cycle ≤ s.cycles := by
  have hm : l.cycle ∈ s.journal.begun.map Prod.fst := List.mem_map_of_mem hl.begun
  rw [hs.cycles, List.mem_range'_1] at hm
  omega

lemma Admits.gone_eq {h : Happening} (hh : s.Admits h) :
    h.gone? = none ∨ ∃ l, h.gone? = some l.cycle ∧ s.journal.IsOpen l := by
  cases hh with
  | dropped hl _ _ => exact .inr ⟨_, rfl, hl⟩
  | _ => exact .inl rfl

/-- A line about a cycle belongs to an open load, or to one that something has been told of. -/
lemma Admits.about_eq {h : Happening} (hh : s.Admits h) {c : Nat} (hc : h.about? = some c) :
    (∃ l, l.cycle = c ∧ s.journal.IsOpen l) ∨ ∃ e, e ∈ s.journal.told c := by
  cases hh with
  | log | hook | dropped => cases hc
  | @heard place handler hplace e hdue =>
      obtain rfl : e.cycle = c := Option.some.inj hc
      exact .inr ⟨e, by simp [← hdue]⟩
  | looked hl | started hl | rejected hl | completed hl | failed hl | cancelled hl =>
      exact .inl ⟨_, Option.some.inj hc, hl⟩

lemma Numbered.record (hs : s.Numbered) {h : Happening} (hh : s.Admits h) :
    (s.record h).Numbered where
  cycles := by simp [hh.begun_eq, hs.cycles]
  tickets := by simp [hh.begun_eq, hs.tickets]
  nodup := by
    obtain hg | ⟨l, hg, hl⟩ := hh.gone_eq
    · simpa [hg] using hs.nodup
    · simpa [hg, List.nodup_append] using ⟨hs.nodup, fun c hc he => hl.notGone (he ▸ hc)⟩
  gone_le := by
    obtain hg | ⟨l, hg, hl⟩ := hh.gone_eq
    · simpa [hg] using hs.gone_le
    · simp only [journal_record, Journal.gone_append, Journal.gone_cons, Journal.gone_nil, hg,
        cycles_record, List.mem_append]
      rintro c (hc | hc)
      · exact hs.gone_le c hc
      · obtain rfl : c = l.cycle := by simpa using hc
        exact hs.cycle_le hl
  about_new := by
    intro c hc
    have hne : h.about? ≠ some c := by
      intro ha
      obtain ⟨l, rfl, hl⟩ | ⟨e, he⟩ := hh.about_eq ha
      · exact absurd (hs.cycle_le hl) (Nat.not_le.mpr hc)
      · rw [← Journal.told_about, hs.about_new c hc] at he
        cases he
    simp [hne, hs.about_new c hc]

lemma Numbered.launch (hs : s.Numbered) (kind : Start) : (s.launch kind).1.Numbered where
  cycles := by simp [hs.cycles, List.range'_1_concat, Nat.add_comm]
  tickets := by
    obtain ⟨hp, ht, -⟩ | ⟨hp, ht, -⟩ := s.tickets_launch kind
    · simp [hp, ht, Purpose.reload?, hs.tickets, List.range'_1_concat, Nat.add_comm]
    · cases hq : (s.launch kind).2.purpose with
      | reload ticket => simp [hq, Purpose.ticket?] at hp
      | direct signal => simp [hq, ht, Purpose.reload?, hs.tickets]
  nodup := by simpa using hs.nodup
  gone_le := by
    intro c hc
    have := hs.gone_le c (by simpa using hc)
    simp only [cycles_launch]
    omega
  about_new := by
    intro c hc
    rw [about_launch]
    exact hs.about_new c (by simp at hc; omega)

lemma Numbered.close (hs : s.Numbered) (hl : s.journal.IsOpen l) (r : Result) :
    (s.close l r).1.Numbered where
  cycles := by simpa using hs.cycles
  tickets := by simpa [Journal.reloads] using hs.tickets
  nodup := by
    simpa [List.nodup_append] using ⟨hs.nodup, fun c hc he => hl.notGone (he ▸ hc)⟩
  gone_le := by
    simp only [gone_close, cycles_close, List.mem_append, List.mem_singleton]
    rintro c (hc | rfl)
    · exact hs.gone_le c hc
    · exact hs.cycle_le hl
  about_new := by simpa using hs.about_new

lemma Numbered.cancel (hs : s.Numbered) : s.cancel.Numbered where
  cycles := by simpa [Session.cancel, Happening.begun?] using hs.cycles
  tickets := by simpa [Session.cancel, Journal.reloads, Happening.begun?] using hs.tickets
  nodup := by simpa [Session.cancel, Happening.gone?] using hs.nodup
  gone_le := by simpa [Session.cancel, Happening.gone?] using hs.gone_le
  about_new := by simpa [Session.cancel, Happening.about?] using hs.about_new

lemma Numbered.moveSignal (hs : s.Numbered) (c : Nat) (m : Signal.Move) :
    (s.moveSignal c m).Numbered where
  cycles := by simpa using hs.cycles
  tickets := by simpa using hs.tickets
  nodup := by simpa using hs.nodup
  gone_le := by simpa using hs.gone_le
  about_new := by simpa using hs.about_new

lemma Moment.numbered (h : Moment s t) (hs : s.Numbered) : t.Numbered := by
  cases h with
  | record hh => exact hs.record hh
  | start kind => exact hs.launch kind
  | cancel => exact hs.cancel
  | signal c m => exact hs.moveSignal c m
  | finish hl hi hr => exact hs.close hl _
  | arrange source loads subscribers hooks =>
      exact ⟨hs.cycles, hs.tickets, hs.nodup, hs.gone_le, hs.about_new⟩

/-- The numbers are kept throughout. -/
lemma Passes.numbered (h : Passes s t) (hs : s.Numbered) : t.Numbered := by
  induction h with
  | refl => exact hs
  | tail _ hm ih => exact hm.numbered ih

lemma fresh_numbered (policy : Policy) (clock : Instant) (source : Source)
    (handlers : List Handler) : (fresh policy clock source handlers).Numbered :=
  ⟨rfl, rfl, List.nodup_nil, by simp [fresh], by simp [fresh]⟩

lemma numbered_of_fresh {policy : Policy} {clock : Instant} {source : Source}
    {handlers : List Handler} (h : Passes (fresh policy clock source handlers) s) : s.Numbered :=
  h.numbered (fresh_numbered policy clock source handlers)

/-- **Invariants.** What holds before anything has happened, and is kept by every moment that comes
next, holds at all states that a session passes through. -/
theorem Passes.invariant {policy : Policy} {clock : Instant} {source : Source}
    {handlers : List Handler} {P : Session → Prop}
    (h : Passes (fresh policy clock source handlers) s)
    (start : P (fresh policy clock source handlers))
    (step : ∀ {t u : Session}, Passes (fresh policy clock source handlers) t → Moment t u →
      P t → P u) : P s := by
  induction h with
  | refl => exact start
  | tail h hm ih => exact step h hm ih

/-- What has begun later has a greater number. -/
lemma Numbered.lt_of_begun (hs : s.Numbered) (ht : t.Numbered) {k : Journal}
    (hj : t.journal = s.journal ++ k) {c : Nat} (hc : c ∈ k.begun.map Prod.fst) :
    s.cycles < c := by
  have hall := ht.cycles
  rw [hj, Journal.begun_append, List.map_append, hs.cycles] at hall
  have hnodup : (List.range' 1 s.cycles ++ k.begun.map Prod.fst).Nodup :=
    hall ▸ List.nodup_range'
  have hpos : c ∈ List.range' 1 t.cycles := hall ▸ List.mem_append_right _ hc
  have hnew : c ∉ List.range' 1 s.cycles := fun h =>
    (List.nodup_append.mp hnodup).2.2 c h c hc rfl
  rw [List.mem_range'_1] at hpos hnew
  omega

/-- The loads that begin later get the next numbers, in their order. -/
lemma Numbered.begun_range (hs : s.Numbered) (ht : t.Numbered) {k : Journal}
    (hj : t.journal = s.journal ++ k) :
    k.begun.map Prod.fst = List.range' (s.cycles + 1) k.begun.length ∧
      t.cycles = s.cycles + k.begun.length := by
  have hall := ht.cycles
  rw [hj, Journal.begun_append, List.map_append, hs.cycles] at hall
  have hlength := congrArg List.length hall
  simp only [List.length_append, List.length_range', List.length_map] at hlength
  rw [← hlength, ← List.range'_append_1, List.append_cancel_left_eq, Nat.add_comm] at hall
  exact ⟨hall, hlength.symm⟩

/-! ### The newest reload -/

/-- Later reloads have later cycles and later tickets. -/
lemma Numbered.reloads_sorted (hs : s.Numbered) :
    s.journal.reloads.Pairwise fun a b => a.1 < b.1 ∧ a.2 < b.2 := by
  have hcycles : s.journal.begun.Pairwise fun a b => a.1 < b.1 := by
    rw [← List.pairwise_map, hs.cycles]
    exact List.pairwise_lt_range'
  have htickets : s.journal.reloads.Pairwise fun a b => a.2 < b.2 := by
    rw [← List.pairwise_map, hs.tickets]
    exact List.pairwise_lt_range'
  refine List.Pairwise.and ?_ htickets
  refine hcycles.filterMap _ fun a b hab a' ha b' hb => ?_
  obtain ⟨c, _ | _⟩ := a <;> obtain ⟨d, _ | _⟩ := b <;> simp_all [Purpose.reload?]
  obtain rfl := ha
  obtain rfl := hb
  exact hab

/-- The reload with the latest ticket has begun last. -/
lemma Numbered.newest (hs : s.Numbered) {c : Nat} (h : (c, s.tickets) ∈ s.journal.reloads) :
    s.journal.newest? = some (c, s.tickets) ∧
      ∀ r ∈ s.journal.reloads, r.1 ≤ c ∧ r.2 ≤ s.tickets := by
  have hle : ∀ r ∈ s.journal.reloads, r.2 ≤ s.tickets := fun r hr => by
    have hm : r.2 ∈ s.journal.reloads.map Prod.snd := List.mem_map_of_mem hr
    rw [hs.tickets, List.mem_range'_1] at hm
    omega
  obtain ⟨front, ⟨c', ticket⟩, heq⟩ :=
    (List.eq_nil_or_concat s.journal.reloads).resolve_left (List.ne_nil_of_mem h)
  rw [List.concat_eq_append] at heq
  have hsorted := hs.reloads_sorted
  rw [heq, List.pairwise_append] at hsorted
  have hlast : (c, s.tickets) = (c', ticket) := by
    rw [heq, List.mem_append, List.mem_singleton] at h
    refine h.resolve_left fun hfront => ?_
    -- a ticket in front of another one would not be the latest
    have hlt := (hsorted.2.2 _ hfront _ List.mem_cons_self).2
    have := hle (c', ticket) (by simp [heq])
    omega
  refine ⟨by rw [Journal.newest?, heq, List.getLast?_concat, hlast], fun r hr => ⟨?_, hle r hr⟩⟩
  rw [heq, List.mem_append, List.mem_singleton] at hr
  obtain ⟨rfl, -⟩ := Prod.mk.inj hlast
  obtain hr | rfl := hr
  · exact (hsorted.2.2 _ hr _ List.mem_cons_self).1.le
  · exact le_rfl

/-- The reload that has begun last holds the latest ticket. -/
lemma Numbered.eq_of_newest (hs : s.Numbered) {c ticket : Nat}
    (h : s.journal.newest? = some (c, ticket)) : ticket = s.tickets := by
  have hlast : (s.journal.reloads.map Prod.snd).getLast? = some ticket := by
    rw [List.getLast?_map, ← Journal.newest?, h]
    rfl
  rw [hs.tickets, List.getLast?_range'] at hlast
  split at hlast <;> simp_all

/-- The cycle of a load determines its purpose. -/
lemma Numbered.purpose_unique (hs : s.Numbered) {c : Nat} {p q : Purpose}
    (hp : (c, p) ∈ s.journal.begun) (hq : (c, q) ∈ s.journal.begun) : p = q := by
  have hnodup : (s.journal.begun.map Prod.fst).Nodup := by
    rw [hs.cycles]
    exact List.nodup_range'
  simpa using List.inj_on_of_nodup_map hnodup hp hq rfl

/-- The cycle of an open load determines its ticket. -/
lemma Numbered.purpose_of_mem (hs : s.Numbered) (hl : s.journal.IsOpen l) {ticket : Nat}
    (hr : (l.cycle, ticket) ∈ s.journal.reloads) : l.purpose = .reload ticket :=
  hs.purpose_unique hl.begun (Journal.mem_reloads.mp hr)

end Session

end BridgeAudit

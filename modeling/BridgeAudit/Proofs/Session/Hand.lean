import BridgeAudit.Proofs.Session.Fetching
import BridgeAudit.Proofs.Session.Numbered

/-!
Loads by name and loads in hand.

A load that is open is either among the loads by name, or it is in hand: someone further up is in
the middle of a look at it, and what hooks do in the meantime must not touch it.

* `Journal.Waits`: a load that can be looked at again: it has told nothing but its start, and it has
  got what has been answered at the looks at it.
* `Session.inHand`: the cycles of the loads in hand.
* `Session.Tidy`: the loads by name have names and cycles of their own, and each of them waits; all
  handlers have heard everything, loads in hand apart.
* `Session.Leads`: moments that end tidily with given loads in hand, and that leave alone the loads
  that were in hand before and still are.
* `Session.Spares`: moments that leave alone all loads in hand but one.
* `Tidy.drop`, `Tidy.keep`, `Tidy.launch`, `Tidy.close`, …: where the operations on loads lead.
-/

namespace BridgeAudit

/-- A load that can be looked at again. -/
structure Journal.Waits (j : Journal) (l : Load) : Prop where
  isOpen : j.IsOpen l
  told : j.told l.cycle = [.started l.cycle]
  gathered : Gathered (j.looks l.cycle) l.arrived

/-- A load waits as long as nothing becomes of it. -/
lemma Journal.Waits.mono {j k : Journal} {l : Load} (h : j.Waits l) (hb : j.begun ⊆ k.begun)
    (hg : l.cycle ∉ k.gone) (ha : k.about l.cycle = j.about l.cycle) : k.Waits l where
  isOpen := ⟨hb h.isOpen.begun, hg⟩
  told := (Journal.told_congr ha).trans h.told
  gathered := Journal.looks_congr ha ▸ h.gathered

namespace Session

variable {s t u : Session} {l : Load} {id : String} {hand hand' : Set ℕ} {c : ℕ}

/-! ### The invariant -/

/-- The cycles of the loads in hand: they have begun and are not over, and no name leads to
them. -/
def inHand (s : Session) : Set ℕ :=
  {c | c ∈ s.journal.begun.map Prod.fst ∧ c ∉ s.journal.gone ∧ c ∉ s.loads.map fun p => p.2.cycle}

/-- The loads by name are in order, and no handler is behind with anything but loads in hand. -/
structure Tidy (s : Session) : Prop where
  keys : (s.loads.map Prod.fst).Nodup
  cycles : (s.loads.map fun p => p.2.cycle).Nodup
  waiting : ∀ p ∈ s.loads, s.journal.Waits p.2
  informed : ∀ c ∉ s.inHand, s.Informed c

/-- Moments that lead to a tidy session with the given loads in hand. A load that is in hand all
the time is left alone. -/
structure Leads (s : Session) (hand : Set ℕ) (t : Session) : Prop where
  passes : Passes s t
  tidy : t.Tidy
  inHand : t.inHand = hand
  about : ∀ c ∈ hand, c ∈ s.inHand → t.journal.about c = s.journal.about c

lemma Tidy.leads (hs : s.Tidy) : Leads s s.inHand s :=
  ⟨.refl, hs, rfl, fun _ _ _ => rfl⟩

/-- Two courses behind each other; what is in hand at both ends is in hand in between. -/
lemma Leads.trans (h : Leads s hand t) (h' : Leads t hand' u)
    (hmid : ∀ c ∈ hand', c ∈ s.inHand → c ∈ hand) : Leads s hand' u where
  passes := h.passes.trans h'.passes
  tidy := h'.tidy
  inHand := h'.inHand
  about c hc hs := by
    have hm := hmid c hc hs
    rw [h'.about c hc (h.inHand ▸ hm), h.about c hm hs]

lemma Leads.trans_same (h : Leads s s.inHand t) (h' : Leads t t.inHand u) :
    Leads s s.inHand u :=
  h.trans (h.inHand ▸ h') fun _ hc _ => hc

/-- Moments that keep the same loads in hand, and leave those alone but perhaps one. -/
structure Spares (s : Session) (c : ℕ) (t : Session) : Prop where
  passes : Passes s t
  tidy : t.Tidy
  inHand : t.inHand = s.inHand
  about : ∀ d ∈ s.inHand, d ≠ c → t.journal.about d = s.journal.about d

lemma Leads.spares (h : Leads s s.inHand t) (c : ℕ) : Spares s c t :=
  ⟨h.passes, h.tidy, h.inHand, fun d hd _ => h.about d hd hd⟩

lemma Spares.trans (h : Spares s c t) (h' : Spares t c u) : Spares s c u where
  passes := h.passes.trans h'.passes
  tidy := h'.tidy
  inHand := h'.inHand.trans h.inHand
  about d hd hne := (h'.about d (h.inHand ▸ hd) hne).trans (h.about d hd hne)

/-- Once the load itself is out of hand, the others have been left alone. -/
lemma Spares.leads (h : Spares s c t) (h' : Leads t (t.inHand \ {c}) u) :
    Leads s (s.inHand \ {c}) u where
  passes := h.passes.trans h'.passes
  tidy := h'.tidy
  inHand := h.inHand ▸ h'.inHand
  about d hd hs := by
    have hd' : d ∈ t.inHand \ {c} := h.inHand ▸ hd
    rw [h'.about d hd' hd'.1, h.about d hs hd.2]

/-! ### Open loads -/

/-- A load that is in hand after some moments is still open. -/
lemma Passes.isOpen (h : Passes s t) (hl : s.journal.IsOpen l) (hh : l.cycle ∈ t.inHand) :
    t.journal.IsOpen l := by
  obtain ⟨k, hk⟩ := h.journal
  exact ⟨by simp [hk, hl.begun], hh.2.1⟩

/-- The cycle of a load by name is not in hand. -/
lemma notMem_inHand {p : String × Load} (hp : p ∈ s.loads) : p.2.cycle ∉ s.inHand :=
  fun h => h.2.2 (List.mem_map_of_mem hp)

/-- A moment that neither begins, ends nor names a load, and takes down something about one load in
hand at most. -/
lemma Moment.spares (hm : Moment s t) (hs : s.Tidy) (hl : t.loads = s.loads)
    (hb : t.journal.begun = s.journal.begun) (hg : t.journal.gone = s.journal.gone)
    (hc : c ∈ s.inHand) (ha : ∀ d, d ≠ c → t.journal.about d = s.journal.about d) :
    Spares s c t := by
  have hhand : t.inHand = s.inHand := by simp only [Session.inHand, hl, hb, hg]
  exact
    { passes := .single hm
      tidy :=
        { keys := hl ▸ hs.keys
          cycles := hl ▸ hs.cycles
          waiting := fun p hp => by
            have hp' : p ∈ s.loads := hl ▸ hp
            have hw := hs.waiting p hp'
            have hne : p.2.cycle ≠ c := fun h => notMem_inHand hp' (h ▸ hc)
            exact hw.mono (hb ▸ List.Subset.refl _) (hg ▸ hw.isOpen.notGone) (ha _ hne)
          informed := fun d hd => by
            rw [hhand] at hd
            have hne : d ≠ c := fun h => hd (h ▸ hc)
            exact (hs.informed d hd).congr hm.sameSetting.handlers (ha d hne) }
      inHand := hhand
      about := fun d _ hne => ha d hne }

/-- A moment that neither begins, ends nor names a load, and takes down nothing about any. -/
lemma Moment.leads (hm : Moment s t) (hs : s.Tidy) (hl : t.loads = s.loads)
    (hb : t.journal.begun = s.journal.begun) (hg : t.journal.gone = s.journal.gone)
    (ha : ∀ c, t.journal.about c = s.journal.about c) : Leads s s.inHand t := by
  have hhand : t.inHand = s.inHand := by simp only [Session.inHand, hl, hb, hg]
  exact
    { passes := .single hm
      tidy :=
        { keys := hl ▸ hs.keys
          cycles := hl ▸ hs.cycles
          waiting := fun p hp => by
            have hw := hs.waiting p (hl ▸ hp)
            exact hw.mono (hb ▸ List.Subset.refl _) (hg ▸ hw.isOpen.notGone) (ha _)
          informed := fun d hd =>
            (hs.informed d (hhand ▸ hd)).congr hm.sameSetting.handlers (ha d) }
      inHand := hhand
      about := fun c _ _ => ha c }

/-! ### Notes, hooks and the source -/

/-- A line that neither begins nor ends a load, and is about none. -/
lemma Tidy.record (hs : s.Tidy) {h : Happening} (hh : s.Admits h) (hg : h.gone? = none)
    (ha : h.about? = none) : Leads s s.inHand (s.record h) :=
  (Moment.record hh).leads hs rfl (by simp [hh.begun_eq]) (by simp [hg]) (by simp [ha])

lemma Tidy.log (hs : s.Tidy) (line : LogLine) : Leads s s.inHand (s.log line) :=
  hs.record (.log line) rfl rfl

lemma Tidy.hook (hs : s.Tidy) (outcome : HookOutcome) :
    Leads s s.inHand (s.record (.hook outcome)) :=
  hs.record (.hook outcome) rfl rfl

/-- A line about a load in hand. -/
lemma Tidy.record_about (hs : s.Tidy) {h : Happening} (hh : s.Admits h) (hg : h.gone? = none)
    (hc : c ∈ s.inHand) (ha : h.about? = some c) : Spares s c (s.record h) :=
  (Moment.record hh).spares hs rfl (by simp [hh.begun_eq]) (by simp [hg]) hc
    fun d hd => by simp [ha, hd.symm]

lemma Tidy.cancel (hs : s.Tidy) : Leads s s.inHand s.cancel :=
  Moment.cancel.leads hs (by simp [Session.cancel]) (by simp [Session.cancel, Happening.begun?])
    (by simp [Session.cancel, Happening.gone?]) (by simp [Session.cancel, Happening.about?])

lemma Tidy.moveSignal (hs : s.Tidy) (c : ℕ) (m : Signal.Move) :
    Leads s s.inHand (s.moveSignal c m) :=
  (Moment.signal c m).leads hs (by simp) (by simp) (by simp) (by simp)

lemma Tidy.arrange (hs : s.Tidy) (source : Source) (subscribers : List (String × Nat))
    (hooks : List Hook) :
    Leads s s.inHand { s with source := source, subscribers := subscribers, hooks := hooks } :=
  (Moment.arrange source s.loads subscribers hooks).leads hs rfl rfl rfl fun _ => rfl

/-! ### Loads by name -/

lemma mem_of_lookup (h : s.loads.lookup id = some l) : (id, l) ∈ s.loads := by
  obtain ⟨l₁, l₂, h, -⟩ := List.lookup_eq_some_iff.mp h
  simp [h]

/-- The name of a load determines it. -/
lemma Tidy.eq_of_mem (hs : s.Tidy) {l' : Load} (h : (id, l) ∈ s.loads) (h' : (id, l') ∈ s.loads) :
    l = l' := by
  have := List.inj_on_of_nodup_map hs.keys h h' rfl
  simpa using this

lemma Tidy.lookup_of_mem (hs : s.Tidy) (h : (id, l) ∈ s.loads) : s.loads.lookup id = some l := by
  cases hl : s.loads.lookup id with
  | none => simpa using List.lookup_eq_none_iff.mp hl _ h
  | some l' => rw [hs.eq_of_mem h (mem_of_lookup hl)]

/-- While nothing is in hand, a name leads to every load that is not over. -/
lemma Tidy.exists_lookup (hs : s.Tidy) (hhand : s.inHand = ∅) {c : ℕ}
    (hb : c ∈ s.journal.begun.map Prod.fst) (hg : c ∉ s.journal.gone) :
    ∃ id l, s.loads.lookup id = some l ∧ l.cycle = c := by
  have hname : c ∈ s.loads.map fun p => p.2.cycle := by
    by_contra hno
    exact (hhand ▸ Set.notMem_empty c : c ∉ s.inHand) ⟨hb, hg, hno⟩
  obtain ⟨⟨id, l⟩, hm, hc⟩ := List.mem_map.mp hname
  exact ⟨id, l, hs.lookup_of_mem hm, hc⟩

lemma Tidy.inHand_without (hs : s.Tidy) (h : s.loads.lookup id = some l) :
    (s.without id).inHand = insert l.cycle s.inHand := by
  have hm := mem_of_lookup h
  have hbegun : l.cycle ∈ s.journal.begun.map Prod.fst :=
    List.mem_map_of_mem (hs.waiting _ hm).isOpen.begun
  ext c
  simp only [Session.inHand, Session.without, Set.mem_ofPred_eq, Set.mem_insert_iff,
    List.mem_map, List.mem_filter, not_exists, not_and]
  constructor
  · rintro ⟨hb, hg, hn⟩
    by_cases hc : ∃ q ∈ s.loads, q.2.cycle = c
    · obtain ⟨⟨id', l'⟩, hq, hqc⟩ := hc
      have hid : id' = id := by
        by_contra hne
        exact hn _ ⟨hq, by simpa using hne⟩ hqc
      subst hid
      exact .inl (by rw [← hqc, hs.eq_of_mem hm hq])
    · exact .inr ⟨hb, hg, fun q hq hqc => hc ⟨q, hq, hqc⟩⟩
  · rintro (rfl | ⟨hb, hg, hn⟩)
    · refine ⟨by simpa using hbegun, (hs.waiting _ hm).isOpen.notGone, ?_⟩
      rintro q ⟨hq, hne⟩ hqc
      have heq := List.inj_on_of_nodup_map hs.cycles hq hm hqc
      simp [heq] at hne
    · exact ⟨hb, hg, fun q hq => hn q hq.1⟩

/-- A load that is taken from its name is in hand. -/
lemma Tidy.without (hs : s.Tidy) (h : s.loads.lookup id = some l) :
    Leads s (insert l.cycle s.inHand) (s.without id) := by
  have hhand := hs.inHand_without h
  exact
    { passes := .single (.arrange s.source _ s.subscribers s.hooks)
      tidy :=
        { keys := (hs.keys.sublist (List.filter_sublist.map _))
          cycles := (hs.cycles.sublist (List.filter_sublist.map _))
          waiting := fun p hp => hs.waiting p (List.mem_of_mem_filter hp)
          informed := fun c hc =>
            hs.informed c fun hin => hc (hhand ▸ Set.mem_insert_of_mem _ hin) }
      inHand := hhand
      about := fun _ _ _ => rfl }

lemma inHand_dropped (s : Session) (l : Load) :
    (s.record (.dropped l.cycle l.purpose)).inHand = s.inHand \ {l.cycle} := by
  ext c
  simp only [Session.inHand, journal_record, Journal.begun_append, Journal.begun_cons,
    Journal.begun_nil, Journal.gone_append, Journal.gone_cons, Journal.gone_nil, loads_record,
    Happening.begun?, Happening.gone?, Option.toList_none, Option.toList_some, List.append_nil,
    List.mem_append, List.mem_singleton, Set.mem_ofPred_eq, Set.mem_sdiff, Set.mem_singleton_iff]
  tauto

/-- A load in hand that has told nothing but its start can be given up. -/
lemma Tidy.release (hs : s.Tidy) (hl : s.journal.IsOpen l) (hh : l.cycle ∈ s.inHand)
    (hi : s.Informed l.cycle) (hw : s.journal.told l.cycle = [.started l.cycle]) :
    Leads s (s.inHand \ {l.cycle}) (s.record (.dropped l.cycle l.purpose)) := by
  have habout : ∀ c, (s.record (.dropped l.cycle l.purpose)).journal.about c =
      s.journal.about c := fun c => by simp [Happening.about?]
  have hhand := inHand_dropped s l
  exact
    { passes := .single (.record (.dropped hl hi hw))
      tidy :=
        { keys := hs.keys
          cycles := hs.cycles
          waiting := fun p hp => by
            have hw := hs.waiting p hp
            have hne : p.2.cycle ≠ l.cycle := fun h => notMem_inHand (s := s) hp (h ▸ hh)
            refine hw.mono (by simp) ?_ (habout _)
            simpa [Happening.gone?, hne] using hw.isOpen.notGone
          informed := fun c hc => by
            rw [hhand] at hc
            refine Informed.congr (s := s) ?_ rfl (habout c)
            by_cases hcl : c = l.cycle
            · exact hcl ▸ hi
            · exact hs.informed c fun hin => hc ⟨hin, hcl⟩ }
      inHand := hhand
      about := fun c _ _ => habout c }

section Drop

variable (s : Session) (id : String)

@[simp] lemma cycles_drop : (s.drop id).cycles = s.cycles := by
  rw [drop]; split <;> rfl

@[simp] lemma tickets_drop : (s.drop id).tickets = s.tickets := by
  rw [drop]; split <;> rfl

@[simp] lemma cancelled_drop : (s.drop id).cancelled = s.cancelled := by
  rw [drop]; split <;> rfl

@[simp] lemma signals_drop : (s.drop id).signals = s.signals := by
  rw [drop]; split <;> rfl

@[simp] lemma published_drop : (s.drop id).published = s.published := by
  rw [drop]; split <;> rfl

@[simp] lemma hooks_drop : (s.drop id).hooks = s.hooks := by
  rw [drop]; split <;> rfl

@[simp] lemma begun_drop : (s.drop id).journal.begun = s.journal.begun := by
  rw [drop]
  split
  · rfl
  · simp [Happening.begun?]

@[simp] lemma about_drop (c : ℕ) : (s.drop id).journal.about c = s.journal.about c := by
  rw [drop]
  split
  · rfl
  · simp [Happening.about?]

end Drop

lemma notMem_keys_drop : id ∉ (s.drop id).loads.map Prod.fst := by
  cases h : s.loads.lookup id with
  | none =>
      simp only [drop, h, List.mem_map, not_exists, not_and]
      rintro p hp rfl
      simpa using List.lookup_eq_none_iff.mp h p hp
  | some l => simp [drop, h]

/-- Dropping a load by its name changes nothing in hand. -/
lemma Tidy.drop (hs : s.Tidy) (id : String) : Leads s s.inHand (s.drop id) := by
  cases h : s.loads.lookup id with
  | none =>
      rw [show s.drop id = s by simp [Session.drop, h]]
      exact hs.leads
  | some l =>
      have hm := mem_of_lookup h
      have hw := hs.waiting _ hm
      have htake := hs.without h
      have hin : l.cycle ∈ (s.without id).inHand := htake.inHand ▸ Set.mem_insert _ _
      have hdrop : s.drop id = (s.without id).record (.dropped l.cycle l.purpose) := by
        simp [Session.drop, h, Session.without]
      have hrest : insert l.cycle s.inHand \ {l.cycle} = s.inHand :=
        Set.insert_sdiff_self_of_notMem (notMem_inHand hm)
      have hrel := htake.tidy.release hw.isOpen hin (hs.informed _ (notMem_inHand hm)) hw.told
      rw [htake.inHand, hrest, ← hdrop] at hrel
      exact htake.trans hrel fun c hc _ => Set.mem_insert_of_mem _ hc

/-- A load in hand that waits can be kept under a name. -/
lemma Tidy.keep (hs : s.Tidy) (hw : s.journal.Waits l) (hh : l.cycle ∈ s.inHand)
    (hi : s.Informed l.cycle) (id : String) : Leads s (s.inHand \ {l.cycle}) (s.keep id l) := by
  have hd := hs.drop id
  have hin : l.cycle ∈ (s.drop id).inHand := hd.inHand ▸ hh
  have habout := hd.about _ hh hh
  have hhand : (s.keep id l).inHand = s.inHand \ {l.cycle} := by
    rw [← hd.inHand]
    ext c
    simp only [Session.inHand, Session.keep, List.map_cons, List.mem_cons,
      Set.mem_ofPred_eq, Set.mem_sdiff, Set.mem_singleton_iff]
    tauto
  have hname : Leads (s.drop id) (s.inHand \ {l.cycle}) (s.keep id l) :=
    { passes := .single (.arrange _ _ _ _)
      tidy :=
        { keys := List.nodup_cons.mpr ⟨notMem_keys_drop, hd.tidy.keys⟩
          cycles := List.nodup_cons.mpr ⟨hin.2.2, hd.tidy.cycles⟩
          waiting := fun p hp => by
            rcases List.mem_cons.mp hp with rfl | hp
            · obtain ⟨k, hk⟩ := hd.passes.journal
              exact hw.mono (by simp [Session.keep, hk]) hin.2.1 habout
            · exact hd.tidy.waiting p hp
          informed := fun c hc => by
            rw [hhand, ← hd.inHand] at hc
            by_cases hcl : c = l.cycle
            · exact hcl ▸ hi.congr hd.passes.sameSetting.handlers habout
            · exact hd.tidy.informed c fun hin => hc ⟨hin, hcl⟩ }
      inHand := hhand
      about := fun _ _ _ => rfl }
  exact hd.trans hname fun c _ hc => hc

/-! ### The beginning and the end of a load -/

lemma Tidy.inHand_launch (hs : s.Tidy) (hn : s.Numbered) (kind : Start) :
    (s.launch kind).1.inHand = insert (s.cycles + 1) s.inHand := by
  have hgone : s.cycles + 1 ∉ s.journal.gone := fun h => by
    have := hn.gone_le _ h
    omega
  have hname : s.cycles + 1 ∉ s.loads.map fun p => p.2.cycle := fun h => by
    obtain ⟨p, hp, hpc⟩ := List.mem_map.mp h
    have := hn.cycle_le (hs.waiting p hp).isOpen
    omega
  ext c
  simp only [Session.inHand, begun_launch, gone_launch, loads_launch, List.map_append,
    List.map_cons, List.map_nil, List.mem_append, List.mem_singleton, Set.mem_ofPred_eq,
    Set.mem_insert_iff]
  constructor
  · rintro ⟨hb | rfl, hg, hl⟩
    · exact .inr ⟨hb, hg, hl⟩
    · exact .inl rfl
  · rintro (rfl | ⟨hb, hg, hl⟩)
    · exact ⟨.inr rfl, hgone, hname⟩
    · exact ⟨.inl hb, hg, hl⟩

/-- A new load is in hand. -/
lemma Tidy.launch (hs : s.Tidy) (hn : s.Numbered) (kind : Start) :
    Leads s (insert (s.cycles + 1) s.inHand) (s.launch kind).1 := by
  have hhand := hs.inHand_launch hn kind
  exact
    { passes := .single (.start kind)
      tidy :=
        { keys := by simpa using hs.keys
          cycles := by simpa using hs.cycles
          waiting := fun p hp => by
            have hw := hs.waiting p (by simpa using hp)
            exact hw.mono (by simp) (by simpa using hw.isOpen.notGone) (by simp)
          informed := fun c hc => by
            rw [hhand] at hc
            have hi := hs.informed c fun hin => hc (Set.mem_insert_of_mem _ hin)
            exact hi.congr (by simp) (by simp) }
      inHand := hhand
      about := fun c _ _ => by simp }

lemma isOpen_launch (hn : s.Numbered) (kind : Start) :
    (s.launch kind).1.journal.IsOpen (s.launch kind).2 where
  begun := by simp
  notGone := fun h => by
    have := hn.gone_le _ (by simpa using h)
    omega

lemma inHand_close (s : Session) (l : Load) (r : Result) :
    (s.close l r).1.inHand = s.inHand \ {l.cycle} := by
  ext c
  simp only [Session.inHand, begun_close, gone_close, loads_close, List.mem_append,
    List.mem_singleton, Set.mem_ofPred_eq, Set.mem_sdiff, Set.mem_singleton_iff]
  tauto

/-- A load in hand can end with what it has earned. -/
lemma Tidy.close (hs : s.Tidy) (hl : s.journal.IsOpen l) (hh : l.cycle ∈ s.inHand)
    (hi : s.Informed l.cycle) {r : Result} (hr : s.Earned l r) :
    Leads s (s.inHand \ {l.cycle}) (s.close l r).1 := by
  have hhand := inHand_close s l r
  exact
    { passes := .single (.finish hl hi hr)
      tidy :=
        { keys := by simpa using hs.keys
          cycles := by simpa using hs.cycles
          waiting := fun p hp => by
            have hp' : p ∈ s.loads := by simpa using hp
            have hw := hs.waiting p hp'
            have hne : p.2.cycle ≠ l.cycle := fun h => notMem_inHand hp' (h ▸ hh)
            exact hw.mono (by simp) (by simpa [hne] using hw.isOpen.notGone) (by simp)
          informed := fun c hc => by
            rw [hhand] at hc
            refine Informed.congr (s := s) ?_ (by simp) (by simp)
            by_cases hcl : c = l.cycle
            · exact hcl ▸ hi
            · exact hs.informed c fun hin => hc ⟨hin, hcl⟩ }
      inHand := hhand
      about := fun c _ _ => by simp }

end Session

end BridgeAudit

import BridgeAudit.Proofs.Session.Hand

/-!
Every run of a session is a sequence of moments.

* `Session.Holds`: a load in hand of which the handlers have heard everything.
* `Session.Gains`: what is told of a load in hand, and which sources the looks at it find.
* `Session.Sound`: what the development asks of the way in which events are told: an event is the
  next one of its load, all handlers have heard it by the end, and the other loads in hand are left
  alone. `tellWithin_sound` proves it for hooks of any depth.
* `Holds.reconcileWith_eq`: all that a load tells on the way to its view.
* `resumeWith_cases`: the three things that can come of a look at a load that waits.
* `Session.Comes`: where a look at a load leads; `resumeWith_comes` proves it for a load in hand
  and `beginWith_comes` for a new one.
* `Session.Spreads`: how far the telling of an event has got, handler by handler.
* `Session.run_leads`: a run of steps from a fresh session leads to a session with no load in hand.
* `Session.run_passes`: hence each run passes through moments.
-/

namespace BridgeAudit

namespace Session

variable {telling : Telling} {s t u : Session} {l : Load} {e : Event} {c : Nat}

/-! ### Work on a load in hand -/

/-- A load that is open and in hand, and of which all handlers have heard what is told. -/
structure Holds (s : Session) (l : Load) : Prop where
  numbered : s.Numbered
  tidy : s.Tidy
  isOpen : s.journal.IsOpen l
  mem : l.cycle ∈ s.inHand
  informed : s.Informed l.cycle

lemma Holds.of_leads (hs : s.Holds l) (h : Leads s s.inHand t) : t.Holds l where
  numbered := h.passes.numbered hs.numbered
  tidy := h.tidy
  isOpen := h.passes.isOpen hs.isOpen (h.inHand ▸ hs.mem)
  mem := h.inHand ▸ hs.mem
  informed := hs.informed.congr h.passes.sameSetting.handlers (h.about _ hs.mem hs.mem)

/-! ### Telling events -/

/-- Events of a load in hand have been told, everyone has heard of them, and the looks at its
collections have found the given sources. The load is still in hand, and the other loads in hand
have been left alone. -/
structure Gains (s : Session) (l : Load) (es : List Event) (looks : List Source) (t : Session) :
    Prop where
  holds : t.Holds l
  spares : Spares s l.cycle t
  told : t.journal.told l.cycle = s.journal.told l.cycle ++ es
  looks : t.journal.looks l.cycle = s.journal.looks l.cycle ++ looks

/-- Where a load is left alone, nothing is told of it. -/
lemma Holds.gains_nil (hs : s.Holds l) (h : Leads s s.inHand t) : Gains s l [] [] t where
  holds := hs.of_leads h
  spares := h.spares _
  told := by rw [List.append_nil, Journal.told_congr (h.about _ hs.mem hs.mem)]
  looks := by rw [List.append_nil, Journal.looks_congr (h.about _ hs.mem hs.mem)]

lemma Gains.trans {es es' : List Event} {looks looks' : List Source} (h : Gains s l es looks t)
    (h' : Gains t l es' looks' u) : Gains s l (es ++ es') (looks ++ looks') u where
  holds := h'.holds
  spares := h.spares.trans h'.spares
  told := by rw [h'.told, h.told, List.append_assoc]
  looks := by rw [h'.looks, h.looks, List.append_assoc]

/-- A look at the collections is taken down, and nobody has to hear of it. -/
lemma Holds.looked (hs : s.Holds l) (hw : s.journal.told l.cycle = [.started l.cycle])
    (hc : s.isCancelled l = false) :
    Gains s l [] [s.source] (s.record (.looked l.cycle s.source)) := by
  have hh : s.Admits (.looked l.cycle s.source) := .looked hs.isOpen hw hc
  have hsp := hs.tidy.record_about hh rfl hs.mem rfl
  have hmem := hsp.inHand ▸ hs.mem
  have hopen := hsp.passes.isOpen hs.isOpen hmem
  refine ⟨⟨hs.numbered.record hh, hsp.tidy, hopen, hmem, ?_⟩, hsp, ?_, ?_⟩
  · intro place hplace
    simpa [Happening.event?, Happening.heard?] using hs.informed place hplace
  · simp [Happening.event?]
  · simp [Happening.look?]

/-- A way to tell events that tells each of them to everyone and leaves the loads in hand alone,
whatever else it does. -/
def Sound (telling : Telling) : Prop :=
  ∀ (s : Session) (l : Load) (e : Event), s.Holds l → s.Admits (.note (.event e)) →
    e.cycle = l.cycle → Gains s l [e] [] (telling s e)

/-! ### A look at a load -/

end Session

/-- The result of a load that has ended. -/
def Progress.result? : Progress → Option Result
  | .pending _ => none
  | .ended r => some r

namespace Session

variable {telling : Telling} {s t u : Session} {l : Load} {e : Event} {c : Nat}

@[simp] lemma snd_settle (id : String) (x : Session × Progress) :
    (settle id x).2 = x.2.result? := by
  obtain ⟨t, l | r⟩ := x <;> rfl

/-- What a look at a load comes to: it is out of hand, or it waits. -/
def Comes (s : Session) (c : Nat) : Session × Progress → Prop
  | (t, .ended _) => Leads s (s.inHand \ {c}) t
  | (t, .pending l) => Spares s c t ∧ l.cycle = c ∧ t.Holds l ∧ t.journal.Waits l

lemma Spares.comes (h : Spares s c t) {x : Session × Progress} (hx : Comes t c x) :
    Comes s c x := by
  obtain ⟨u, l | r⟩ := x
  · exact ⟨h.trans hx.1, hx.2⟩
  · exact h.leads hx

/-- A load in hand ends with what it has earned. -/
lemma Holds.close (hs : s.Holds l) {r : Result} (hr : s.Earned l r) :
    Comes s l.cycle (s.close l r) := by
  have h := hs.tidy.close hs.isOpen hs.mem hs.informed hr
  obtain ⟨v, -, -, hc⟩ | ⟨_, v, -, -, -, hc⟩ | ⟨-, hc⟩ := s.close_cases l r <;>
    rw [hc] at h ⊢ <;> exact h

/-- All rejections are told in their order, and the load may still tell of more. -/
lemma Holds.rejections (ht : Sound telling) (xs : List Rejection) :
    ∀ {s : Session}, s.Holds l → s.MayRead l →
      let t := (xs.map fun x => Note.event (x.event l.cycle)).foldl (takeNote telling) s
      Gains s l (xs.map (Rejection.event l.cycle)) [] t ∧ t.MayRead l := by
  induction xs with
  | nil => exact fun hs hr => ⟨hs.gains_nil hs.tidy.leads, hr⟩
  | cons x xs ih =>
      intro s hs hr
      have h := ht s l (x.event l.cycle) hs
        (.rejected hs.isOpen hs.informed hr x.collection x.error.message x.raw) rfl
      obtain ⟨rs, hrs, hkind, -⟩ := hr
      have hr' : (telling s (x.event l.cycle)).MayRead l := by
        refine ⟨rs ++ [x.event l.cycle], ?_, ?_, by simp⟩
        · exact h.told.trans (by rw [hrs]; rfl)
        · intro e he
          rcases List.mem_append.mp he with he | he
          · exact hkind e he
          · rw [List.mem_singleton.mp he]
            rfl
      obtain ⟨h', hmay⟩ := ih h.holds hr'
      exact ⟨h.trans h', hmay⟩

lemma Holds.log (hs : s.Holds l) (hr : s.MayRead l) (line : LogLine) :
    Gains s l [] [] (s.log line) ∧ (s.log line).MayRead l := by
  have h := hs.gains_nil (hs.tidy.log line)
  obtain ⟨rs, hrs, hrest⟩ := hr
  exact ⟨h, rs, h.told.trans (by rw [hrs, List.append_nil]), hrest⟩

/-- A load that may tell of its records tells of all rejections first, then of the completion, and
ends with the view. -/
lemma Holds.reconcileWith_eq (ht : Sound telling) (hs : s.Holds l) (hr : s.MayRead l)
    (raw : Collections Json) :
    let made := BridgeAudit.reconcile s.policy l.cycle raw s.clock
    ∃ t, reconcileWith telling s l raw = t.close l (.ok made.view) ∧
      Gains s l (made.rejected.map (Rejection.event l.cycle) ++
        [.completed l.cycle made.view.stats]) [] t := by
  intro made
  obtain ⟨h₁, hr₁⟩ := Holds.rejections ht made.rejected hs hr
  obtain ⟨t, hfold, h₂, hr₂⟩ : ∃ t, List.foldl (takeNote telling) s
      (made.rejected.map (fun x => Note.event (x.event l.cycle)) ++
        if made.view.stats.filteredOut = 0 then []
        else [.log (droppedLine made.view.stats.filteredOut s.policy.token)]) = t ∧
      Gains s l (made.rejected.map (Rejection.event l.cycle)) [] t ∧ t.MayRead l := by
    rw [List.foldl_append]
    split
    · exact ⟨_, rfl, h₁, hr₁⟩
    · obtain ⟨h, hr⟩ :=
        h₁.holds.log hr₁ (droppedLine made.view.stats.filteredOut s.policy.token)
      have h' := h₁.trans h
      rw [List.append_nil] at h'
      exact ⟨_, rfl, h', hr⟩
  refine ⟨_, ?_, h₂.trans (ht t l (.completed l.cycle made.view.stats) h₂.holds
    (.completed h₂.holds.isOpen h₂.holds.informed hr₂ _) rfl)⟩
  rw [reconcileWith, Reconciled.notes, List.foldl_append]
  exact congrArg (fun t => (telling t _).close l _) hfold

/-- What comes of a look at a load that waits. If the load is to stop, it ends without a look at
its collections. Otherwise they are looked at, and the load waits on with what it has got, or it
ends with what it has earned. -/
lemma resumeWith_cases (ht : Sound telling) (hs : s.Holds l) (hw : s.journal.Waits l) :
    (s.isCancelled l = true ∧ ∃ t,
      resumeWith telling s l = t.close l (.error (.cancelled l.cycle)) ∧
      Gains s l [.cancelled l.cycle] [] t) ∨
    (s.isCancelled l = false ∧ ∃ t got,
      resumeWith telling s l = (t, .pending { l with arrived := got }) ∧
      Gains s l [] [s.source] t ∧ Gathered (t.journal.looks l.cycle) got ∧
      got.complete? = none) ∨
    (s.isCancelled l = false ∧ ∃ t r es, resumeWith telling s l = t.close l r ∧
      Gains s l es [s.source] t ∧ t.Earned l r ∧ ∀ c, r ≠ .error (.cancelled c)) := by
  rw [resumeWith]
  split
  next hc => exact .inl ⟨hc, _, rfl, ht _ _ _ hs (.cancelled hs.isOpen hs.informed hw.told hc) rfl⟩
  next hc =>
    have hc : s.isCancelled l = false := by simpa using hc
    have h := hs.looked hw.told hc
    have hh := h.holds
    have htold := h.told.trans ((List.append_nil _).trans hw.told)
    simp only [source_record]
    split
    next x hround =>
      obtain ⟨c, e, rfl, hf⟩ := hw.gathered.of_round_error hround
      have h' := h.trans (ht _ _ _ hh
        (.failed hh.isOpen hh.informed htold hc (CycleError.fetch c e).message) rfl)
      refine .inr (.inr ⟨hc, _, _, _, rfl, h', .fetch (h'.looks ▸ hf) ?_, by simp⟩)
      rw [h'.told, hw.told]
      rfl
    next got hround =>
      have hg : Gathered (s.journal.looks l.cycle ++ [s.source]) got :=
        hw.gathered.of_round hround
      split
      next hgot => exact .inr (.inl ⟨hc, _, got, rfl, h, h.looks ▸ hg, hgot⟩)
      next raw hraw =>
        obtain ⟨d, rfl, hd⟩ := hg.of_complete hraw
        obtain ⟨t, heq, hrec⟩ :=
          hh.reconcileWith_eq ht ⟨[], htold, by simp, fun _ => hc⟩ (Collections.ofFn d)
        have h' := h.trans hrec
        have hsame := h'.spares.passes.sameSetting
        refine .inr (.inr ⟨hc, t, _, _, heq, h', ?_, by simp⟩)
        simp only [policy_record, clock_record]
        rw [← hsame.policy, ← hsame.clock]
        refine .view (h'.looks ▸ hd) ?_
        rw [hsame.policy, hsame.clock, h'.told, hw.told]
        rfl

/-- A look at a load that waits: the load ends, or it still waits. -/
lemma resumeWith_comes (ht : Sound telling) (hs : s.Holds l) (hw : s.journal.Waits l) :
    Comes s l.cycle (resumeWith telling s l) := by
  obtain ⟨-, t, heq, h⟩ | ⟨-, t, got, heq, h, hg, -⟩ | ⟨-, t, r, es, heq, h, hr, -⟩ :=
    resumeWith_cases ht hs hw
  · rw [heq]
    exact h.spares.comes (h.holds.close (.cancelled (h.told.trans (by rw [hw.told]; rfl))))
  · have hh := h.holds
    have ho : t.journal.IsOpen { l with arrived := got } := ⟨hh.isOpen.begun, hh.isOpen.notGone⟩
    rw [heq]
    exact ⟨h.spares, rfl, ⟨hh.numbered, hh.tidy, ho, hh.mem, hh.informed⟩,
      ⟨ho, h.told.trans ((List.append_nil _).trans hw.told), hg⟩⟩
  · rw [heq]
    exact h.spares.comes (h.holds.close hr)

/-- All collections are asked while the load is in hand. -/
lemma Tidy.ask (hs : s.Tidy) (l : Load) : Leads s s.inHand (s.ask l) := by
  rw [Session.ask]
  split
  · exact hs.leads
  · have h := hs.log (fetchingLine s.source.name)
    exact h.trans_same (h.tidy.arrange s.source.countRound s.subscribers s.hooks)

/-- A new load in the session that the first look at it finds. -/
def opened (telling : Telling) (s : Session) (kind : Start) : Session × Load :=
  let launched := s.launch kind
  ((telling launched.1 (.started launched.2.cycle)).ask launched.2, launched.2)

lemma arrived_launch (s : Session) (kind : Start) : (s.launch kind).2.arrived = .none := by
  cases kind <;> rfl

/-- A new load is in hand, and it waits by the first look at it. -/
lemma opened_holds (ht : Sound telling) (hs : s.Tidy) (hn : s.Numbered) (kind : Start) :
    Leads s (insert (s.cycles + 1) s.inHand) (s.launch kind).1 ∧
      Spares (s.launch kind).1 (s.cycles + 1) (s.opened telling kind).1 ∧
      (s.opened telling kind).1.Holds (s.opened telling kind).2 ∧
      (s.opened telling kind).1.journal.Waits (s.opened telling kind).2 ∧
      (s.opened telling kind).1.journal.looks (s.cycles + 1) = [] := by
  have h := hs.launch hn kind
  have hcycle : (s.launch kind).2.cycle = s.cycles + 1 := cycle_launch s kind
  have habout : (s.launch kind).1.journal.about (s.launch kind).2.cycle = [] := by
    rw [about_launch, hcycle]
    exact hn.about_new _ (Nat.lt_succ_self _)
  have htold : (s.launch kind).1.journal.told (s.launch kind).2.cycle = [] :=
    Journal.told_congr (k := []) habout
  have hlooks : (s.launch kind).1.journal.looks (s.launch kind).2.cycle = [] :=
    Journal.looks_congr (k := []) habout
  have hh : (s.launch kind).1.Holds (s.launch kind).2 :=
    { numbered := h.passes.numbered hn
      tidy := h.tidy
      isOpen := isOpen_launch hn kind
      mem := by rw [h.inHand, hcycle]; exact Set.mem_insert _ _
      informed := fun place _ => by
        rw [htold]
        exact Journal.heardOf_congr (k := []) habout place }
  have h₁ := ht _ _ (.started (s.launch kind).2.cycle) hh (.started hh.isOpen hh.informed htold) rfl
  have hask := h₁.holds.tidy.ask (s.launch kind).2
  have h₂ : (s.opened telling kind).1.Holds (s.opened telling kind).2 := h₁.holds.of_leads hask
  have hsame := hask.about _ h₁.holds.mem h₁.holds.mem
  have hlooks₂ : (s.opened telling kind).1.journal.looks (s.launch kind).2.cycle = [] :=
    (Journal.looks_congr hsame).trans (h₁.looks.trans (by rw [hlooks]; rfl))
  refine ⟨h, hcycle ▸ h₁.spares.trans (hask.spares _), h₂, ⟨h₂.isOpen, ?_, ?_⟩, hcycle ▸ hlooks₂⟩
  · exact (Journal.told_congr hsame).trans (h₁.told.trans (by rw [htold]; rfl))
  · show Gathered ((s.opened telling kind).1.journal.looks (s.launch kind).2.cycle)
      (s.launch kind).2.arrived
    rw [hlooks₂, arrived_launch]
    exact gathered_nil

/-- A new load ends at the first look, or it waits. -/
lemma beginWith_comes (ht : Sound telling) (hs : s.Tidy) (hn : s.Numbered) (kind : Start) :
    Leads s (insert (s.cycles + 1) s.inHand) (s.launch kind).1 ∧
      Comes (s.launch kind).1 (s.cycles + 1) (beginWith telling s kind) := by
  obtain ⟨h, hsp, hh, hw, -⟩ := opened_holds ht hs hn kind
  refine ⟨h, hsp.comes ?_⟩
  rw [← cycle_launch s kind]
  exact resumeWith_comes ht hh hw

/-! ### Loads by name -/

/-- After a look at a load in hand the load is over or kept under a name. -/
lemma Comes.settle (hc : c ∈ s.inHand) {x : Session × Progress} (hx : Comes s c x) (id : String) :
    Leads s (s.inHand \ {c}) (settle id x).1 := by
  obtain ⟨t, l | r⟩ := x
  · obtain ⟨hsp, rfl, hh, hw⟩ := hx
    exact hsp.leads (hh.tidy.keep hw hh.mem hh.informed id)
  · exact hx

lemma Comes.settleHook (hc : c ∈ s.inHand) {x : Session × Progress} (hx : Comes s c x)
    (keep : Option String) : Leads s (s.inHand \ {c}) (settleHook keep x) := by
  obtain ⟨t, l | r⟩ := x
  · obtain ⟨hsp, rfl, hh, hw⟩ := hx
    cases keep with
    | none =>
        have h := hh.tidy.release hh.isOpen hh.mem hh.informed hw.told
        have h' := h.tidy.hook .dropped
        rw [h.inHand] at h'
        exact hsp.leads (h.trans h' fun _ hd _ => hd)
    | some id =>
        have h := hh.tidy.keep hw hh.mem hh.informed id
        have h' := h.tidy.hook .kept
        rw [h.inHand] at h'
        exact hsp.leads (h.trans h' fun _ hd _ => hd)
  · have hx' : Leads s (s.inHand \ {c}) t := hx
    have h := hx'.tidy.hook (.ended r)
    rw [hx'.inHand] at h
    exact hx'.trans h fun _ hd _ => hd

/-- What begins and is settled leaves the loads in hand as they were. -/
lemma Leads.insert_sdiff (hc : c ∉ s.inHand) (h : Leads s (insert c s.inHand) t)
    (h' : Leads t (t.inHand \ {c}) u) : Leads s s.inHand u := by
  rw [h.inHand, Set.insert_sdiff_self_of_notMem hc] at h'
  exact h.trans h' fun _ hd _ => Set.mem_insert_of_mem _ hd

lemma Numbered.notMem_inHand (hn : s.Numbered) : s.cycles + 1 ∉ s.inHand := by
  intro h
  have hb := h.1
  rw [hn.cycles, List.mem_range'_1] at hb
  omega

lemma startWith_leads (ht : Sound telling) (hs : s.Tidy) (hn : s.Numbered) (id : String)
    (kind : Start) : Leads s s.inHand (startWith telling s id kind).1 := by
  have hd := hs.drop id
  have hn' := hd.passes.numbered hn
  obtain ⟨h, hx⟩ := beginWith_comes ht hd.tidy hn' kind
  have hmem : (s.drop id).cycles + 1 ∈ ((s.drop id).launch kind).1.inHand :=
    h.inHand ▸ Set.mem_insert _ _
  have hb := h.insert_sdiff hn'.notMem_inHand (hx.settle hmem id)
  rw [hd.inHand] at hb
  exact hd.trans hb fun _ hd _ => hd

/-- A load that is taken from its name for a look is in hand, and it waits. -/
lemma Tidy.without_holds (hs : s.Tidy) (hn : s.Numbered) {id : String}
    (hl : s.loads.lookup id = some l) :
    Leads s (insert l.cycle s.inHand) (s.without id) ∧ (s.without id).Holds l ∧
      (s.without id).journal.Waits l := by
  have hm := mem_of_lookup hl
  have hw := hs.waiting _ hm
  have h := hs.without hl
  have hmem : l.cycle ∈ (s.without id).inHand := h.inHand ▸ Set.mem_insert _ _
  exact ⟨h, ⟨h.passes.numbered hn, h.tidy, hw.isOpen, hmem, hs.informed _ (notMem_inHand hm)⟩, hw⟩

lemma pollWith_leads (ht : Sound telling) (hs : s.Tidy) (hn : s.Numbered) {id : String}
    {x : Session × Option Result} (hx : pollWith telling s id = some x) :
    Leads s s.inHand x.1 := by
  obtain ⟨l, hl, rfl⟩ := Option.map_eq_some_iff.mp hx
  obtain ⟨h, hh, hw⟩ := hs.without_holds hn hl
  exact h.insert_sdiff (notMem_inHand (mem_of_lookup hl))
    ((resumeWith_comes ht hh hw).settle hh.mem id)

/-- An act leaves the loads in hand alone. -/
lemma actWith_leads {α : Type} (ht : Sound telling) {arming : Session → α → Session}
    (harm : ∀ {s : Session} (a : α), s.Tidy → Leads s s.inHand (arming s a)) (hs : s.Tidy)
    (hn : s.Numbered) (a : Act α) : Leads s s.inHand (actWith telling arming s a) := by
  cases a with
  | start id kind => exact startWith_leads ht hs hn id kind
  | poll id =>
      rw [actWith]
      cases h : pollWith telling s id with
      | none => exact hs.leads
      | some x => exact pollWith_leads ht hs hn h
  | drop id => exact hs.drop id
  | signal c m => exact hs.moveSignal c m
  | cancel => exact hs.cancel
  | arm hooks => exact harm hooks hs
  | look id =>
      rw [actWith, Session.look]
      split
      · exact hs.leads
      · exact hs.arrange _ _ _
  | _ => exact hs.arrange _ _ _

/-! ### Hooks -/

lemma foldl_leads {α : Type} {f : Session → α → Session}
    (hf : ∀ {s : Session} (a : α), s.Tidy → s.Numbered → Leads s s.inHand (f s a)) (as : List α) :
    ∀ {s : Session}, s.Tidy → s.Numbered → Leads s s.inHand (as.foldl f s) := by
  induction as with
  | nil => exact fun hs _ => hs.leads
  | cons a as ih =>
      intro s hs hn
      have h := hf a hs hn
      exact h.trans_same (ih h.tidy (h.passes.numbered hn))

lemma runHook_leads (ht : Sound telling) (hs : s.Tidy) (hn : s.Numbered) (a : HookAction) :
    Leads s s.inHand (runHook telling s a) := by
  cases a with
  | cancel => exact hs.cancel.trans_same (hs.cancel.tidy.hook .cancelled)
  | reload keep =>
      obtain ⟨h, hx⟩ := beginWith_comes ht hs hn .reload
      exact h.insert_sdiff hn.notMem_inHand
        (hx.settleHook (h.inHand ▸ Set.mem_insert _ _) keep)
  | calls calls =>
      exact foldl_leads (fun c hs hn => actWith_leads ht (fun a _ => a.elim) hs hn c) calls hs hn

/-! ### From handler to handler -/

/-- An event of a load in hand has been told, and the handlers in front of a place have heard of
it. -/
structure Spreads (s : Session) (l : Load) (e : Event) (n : Nat) (t : Session) : Prop where
  numbered : t.Numbered
  spares : Spares s l.cycle t
  told : t.journal.told l.cycle = s.journal.told l.cycle ++ [e]
  looks : t.journal.looks l.cycle = s.journal.looks l.cycle
  heard : ∀ place < t.handlers.length, t.journal.heardOf place l.cycle =
    if place < n then t.journal.told l.cycle else s.journal.told l.cycle

/-- First the event is taken down. -/
lemma Holds.spreads (hs : s.Holds l) (ha : s.Admits (.note (.event e)))
    (he : e.cycle = l.cycle) : Spreads s l e 0 (s.record (.note (.event e))) where
  numbered := hs.numbered.record ha
  spares := hs.tidy.record_about ha rfl hs.mem (congrArg some he)
  told := by simp [Happening.event?, he]
  looks := by simp [Happening.look?]
  heard place hplace := by simpa [Happening.heard?] using hs.informed place hplace

namespace Spreads

variable {n : Nat}

/-- The next handler hears of it. -/
lemma hear (h : Spreads s l e n t) (he : e.cycle = l.cycle) {handler : Handler}
    (hn : t.handlers[n]? = some handler) (hmem : l.cycle ∈ s.inHand) :
    Spreads s l e (n + 1) (t.record (.heard n e (handler.handle e))) := by
  have hlt : n < t.handlers.length := (List.getElem?_eq_some_iff.mp hn).1
  have hbehind : t.journal.heardOf n l.cycle = s.journal.told l.cycle := by
    rw [h.heard n hlt, if_neg (Nat.lt_irrefl n)]
  have ha : t.Admits (.heard n e (handler.handle e)) := .heard hn (by rw [he, hbehind, h.told])
  have htold : (t.record (.heard n e (handler.handle e))).journal.told l.cycle =
      t.journal.told l.cycle := by simp [Happening.event?]
  refine ⟨h.numbered.record ha, h.spares.trans ?_, htold.trans h.told, ?_, fun place hplace => ?_⟩
  · exact h.spares.tidy.record_about ha rfl (h.spares.inHand ▸ hmem) (congrArg some he)
  · simpa [Happening.look?] using h.looks
  · have hsame := h.heard place hplace
    rw [htold, journal_record, Journal.heardOf_append]
    by_cases hp : n = place
    · subst hp
      rw [hbehind, if_pos (Nat.lt_succ_self n), h.told]
      simp [Happening.heard?, he]
    · have hiff : place < n + 1 ↔ place < n := by omega
      simp only [hiff]
      rw [hsame]
      simp [Happening.heard?, hp]

/-- What a hook does in between leaves the load alone. -/
lemma trans (h : Spreads s l e n t) (h' : Leads t t.inHand u) (hmem : l.cycle ∈ s.inHand) :
    Spreads s l e n u := by
  have hsame := h'.about _ (h.spares.inHand ▸ hmem) (h.spares.inHand ▸ hmem)
  refine ⟨h'.passes.numbered h.numbered, h.spares.trans (h'.spares _),
    (Journal.told_congr hsame).trans h.told, (Journal.looks_congr hsame).trans h.looks,
    fun place hplace => ?_⟩
  rw [Journal.heardOf_congr hsame, Journal.told_congr hsame]
  exact h.heard place (h'.passes.sameSetting.handlers ▸ hplace)

/-- The next handler hears of it, and runs its hook if there is one. -/
lemma next {run : Session → HookAction → Session}
    (hrun : ∀ {s : Session} (a : HookAction), s.Tidy → s.Numbered → Leads s s.inHand (run s a))
    (h : Spreads s l e n t) (he : e.cycle = l.cycle) {handler : Handler}
    (hn : t.handlers[n]? = some handler) (hmem : l.cycle ∈ s.inHand) :
    Spreads s l e (n + 1) (hearWith run e t ((handler, handler.handle e), n)) := by
  have hheard := h.hear he hn hmem
  rw [hearWith]
  split
  · exact hheard
  next k hk =>
    have harrange := hheard.spares.tidy.arrange
      (t.record (.heard n e (handler.handle e))).source
      (t.record (.heard n e (handler.handle e))).subscribers
      (t.hooks.eraseP (·.isDue n e))
    exact hheard.trans (harrange.trans_same (hrun k.action harrange.tidy
      (harrange.passes.numbered hheard.numbered))) hmem

/-- In the end everyone has heard of it. -/
lemma gains (h : Spreads s l e n t) (hs : s.Holds l) (hn : t.handlers.length ≤ n) :
    Gains s l [e] [] t where
  holds :=
    { numbered := h.numbered
      tidy := h.spares.tidy
      isOpen := h.spares.passes.isOpen hs.isOpen (h.spares.inHand ▸ hs.mem)
      mem := h.spares.inHand ▸ hs.mem
      informed := fun place hplace => by rw [h.heard place hplace, if_pos (hplace.trans_le hn)] }
  spares := h.spares
  told := h.told
  looks := h.looks.trans (List.append_nil _).symm

end Spreads

/-- Where hooks leave the loads in hand alone, so does the telling of an event. The induction is on
the handlers that have not heard of it yet. -/
lemma tellWith_sound {run : Session → HookAction → Session}
    (hrun : ∀ {s : Session} (a : HookAction), s.Tidy → s.Numbered → Leads s s.inHand (run s a)) :
    Sound (tellWith run) := by
  intro s l e hs ha he
  have key : ∀ (rest front : List (Handler × Note)) (t : Session),
      front ++ rest = deliver s.handlers e → Spreads s l e front.length t →
      Gains s l [e] [] ((rest.zipIdx front.length).foldl (hearWith run e) t) := by
    intro rest
    induction rest with
    | nil =>
        intro front t hall h
        refine h.gains hs ?_
        rw [h.spares.passes.sameSetting.handlers, ← List.append_nil front, hall, deliver,
          List.length_map]
    | cons x rest ih =>
        intro front t hall h
        obtain ⟨handler, hplace, rfl⟩ : ∃ handler, t.handlers[front.length]? = some handler ∧
            x = (handler, handler.handle e) := by
          have hx : (deliver s.handlers e)[front.length]? = some x := by simp [← hall]
          rw [deliver, List.getElem?_map, Option.map_eq_some_iff] at hx
          obtain ⟨handler, hh, rfl⟩ := hx
          exact ⟨handler, h.spares.passes.sameSetting.handlers ▸ hh, rfl⟩
        have hnext := ih (front ++ [(handler, handler.handle e)])
          (hearWith run e t ((handler, handler.handle e), front.length)) (by simpa using hall)
        rw [List.length_append, List.length_singleton] at hnext
        rw [List.zipIdx_cons, List.foldl_cons]
        exact hnext (h.next hrun he hplace hs.mem)
  exact key (deliver s.handlers e) [] _ rfl (hs.spreads ha he)

/-- Hooks of any depth leave the loads in hand alone. The induction is on the depth: a hook is run
with the way of telling of one level below. -/
theorem tellWithin_sound (depth : Nat) : Sound (tellWithin depth) := by
  induction depth with
  | zero => exact tellWith_sound fun _ hs _ => hs.leads
  | succ depth ih => exact tellWith_sound fun a hs hn => runHook_leads ih hs hn a

lemma tell_sound : Sound tell := fun s => tellWithin_sound s.hooks.length s

/-! ### Runs -/

lemma step_poll {id : String} {o : Option Result} (h : s.poll id = some (t, o)) :
    s.step (.poll id) = t := by
  show ((s.poll id).map (·.1)).getD s = t
  rw [h]
  rfl

lemma step_start {id : String} {kind : Start} {o : Option Result} (h : s.start id kind = (t, o)) :
    s.step (.start id kind) = t := by
  show (s.start id kind).1 = t
  rw [h]

lemma step_leads (hs : s.Tidy) (hn : s.Numbered) (a : Step) : Leads s s.inHand (s.step a) :=
  actWith_leads tell_sound (fun hooks hs => hs.arrange _ _ hooks) hs hn a

lemma Tidy.run (hs : s.Tidy) (hn : s.Numbered) (steps : List Step) :
    Leads s s.inHand (s.run steps) :=
  foldl_leads (fun a hs hn => step_leads hs hn a) steps hs hn

section

variable (policy : Policy) (clock : Instant) (source : Source) (handlers : List Handler)
variable (steps : List Step)

lemma fresh_tidy : (fresh policy clock source handlers).Tidy where
  keys := List.nodup_nil
  cycles := List.nodup_nil
  waiting := fun _ hp => absurd hp List.not_mem_nil
  informed := fun _ _ _ _ => rfl

/-- A run of steps is tidy at its end, and no load is in hand then. -/
theorem run_leads : Leads (fresh policy clock source handlers) ∅
    ((fresh policy clock source handlers).run steps) := by
  have h := (fresh_tidy policy clock source handlers).run
    (fresh_numbered policy clock source handlers) steps
  rwa [show (fresh policy clock source handlers).inHand = ∅ by simp [inHand, fresh]] at h

/-- **A run is a sequence of moments.** -/
theorem run_passes : Passes (fresh policy clock source handlers)
    ((fresh policy clock source handlers).run steps) :=
  (run_leads policy clock source handlers steps).passes

/-- **A step goes on where a run has ended.** -/
theorem step_passes (a : Step) : Passes ((fresh policy clock source handlers).run steps)
    (((fresh policy clock source handlers).run steps).step a) :=
  (step_leads (run_leads policy clock source handlers steps).tidy
    (numbered_of_fresh (run_passes policy clock source handlers steps)) a).passes

end

end Session

end BridgeAudit

import BridgeAudit.Proofs.Session.Trail

/-!
A load under any schedule of looks and answers.

* `GoesBy`: what a look leads to is determined by the answers alone.
* `Earned.goesBy`: a load that ends without having been cancelled goes by the answers.
* `Session.Explained`: so does every load that has ended, at any state of a session.
* `pollWith_goesBy`, `startWith_goesBy`: so does every look, whoever takes it.
* `fetching_order_irrelevant`: this is so in every run, and loads that have been answered the same
  come to the same.
-/

namespace BridgeAudit

namespace Source

variable {looks looks' : List Source}

/-- A collection has answered, has failed or keeps back its answer. -/
lemma answers_cases (looks : List Source) :
    (∃ c e, FailsFirst looks c e) ∨
      (∀ c, ¬(answer looks c).IsFailed) ∧
        ((∃ c, answer looks c = .pending) ∨
          ∃ d : Collection → List Json, ∀ c, answer looks c = .records (d c)) := by
  by_cases hfail : ∃ c, (answer looks c).IsFailed
  · exact .inl (exists_failsFirst hfail)
  · have hfree : ∀ c, ¬(answer looks c).IsFailed := fun c hc => hfail ⟨c, hc⟩
    refine .inr ⟨hfree, ?_⟩
    by_cases hpend : ∃ c, answer looks c = .pending
    · exact .inl hpend
    · have hall : ∀ c, ∃ items, answer looks c = .records items := by
        intro c
        cases ha : answer looks c with
        | pending => exact absurd ⟨c, ha⟩ hpend
        | failed e => exact absurd ⟨e, ha⟩ (hfree c)
        | records items => exact ⟨items, rfl⟩
      choose d hd using hall
      exact .inr ⟨d, hd⟩

/-- What has been answered is determined by what a load has got. -/
lemma answer_concat_congr {got : Arrived} (h : Gathered looks got) (h' : Gathered looks' got)
    (src : Source) : answer (looks ++ [src]) = answer (looks' ++ [src]) :=
  funext fun c => by rw [h.answer_concat, h'.answer_concat]

end Source

/-- What a look at a load leads to is determined by the answers alone: `looks` are the sources that
this look and those before it have found, `t` is the session after it, and `o` is the result if the
load has ended. Once all collections have answered, the load makes the view of the answers, and
returns it unless a newer reload has begun while it was telling of its records. Once a collection
has failed, the load returns the failure of the first that has, and tells of no record. -/
structure GoesBy (policy : Policy) (clock : Instant) (looks : List Source) (l : Load) (t : Session)
    (o : Option Result) : Prop where
  answered : ∀ d : Collection → List Json, (∀ c, Source.answer looks c = .records (d c)) →
    let made := reconcile policy l.cycle (Collections.ofFn d) clock
    (o = some (.ok made.view) ∨ ∃ ticket, l.purpose = .reload ticket ∧ ticket < t.tickets ∧
      o = some (.error (.superseded l.cycle))) ∧
    t.journal.told l.cycle = .started l.cycle ::
      made.rejected.map (Rejection.event l.cycle) ++ [.completed l.cycle made.view.stats]
  failed : (∃ c, (Source.answer looks c).IsFailed) → ∃ c e, Source.FailsFirst looks c e ∧
    o = some (.error (.fetch c e)) ∧
    t.journal.told l.cycle = [.started l.cycle, .failed l.cycle (CycleError.fetch c e).message]
  waiting : (∀ c, ¬(Source.answer looks c).IsFailed) →
    (∃ c, Source.answer looks c = .pending) → o = none ∧ t.journal.told l.cycle = [.started l.cycle]

namespace GoesBy

variable {policy : Policy} {clock : Instant} {looks looks' : List Source} {l : Load}
variable {s t : Session} {o : Option Result}

/-! ### The three cases -/

lemma of_answered {d : Collection → List Json}
    (hd : ∀ c, Source.answer looks c = .records (d c))
    (h : let made := reconcile policy l.cycle (Collections.ofFn d) clock
      (o = some (.ok made.view) ∨ ∃ ticket, l.purpose = .reload ticket ∧ ticket < t.tickets ∧
        o = some (.error (.superseded l.cycle))) ∧
      t.journal.told l.cycle = .started l.cycle ::
        made.rejected.map (Rejection.event l.cycle) ++ [.completed l.cycle made.view.stats]) :
    GoesBy policy clock looks l t o where
  answered d' hd' := by
    obtain rfl : d' = d := funext fun c => Delivery.records.inj ((hd' c).symm.trans (hd c))
    exact h
  failed := by
    rintro ⟨c, e, hc⟩
    rw [hd c] at hc
    cases hc
  waiting := by
    rintro - ⟨c, hc⟩
    rw [hd c] at hc
    cases hc

lemma of_failed {c : Collection} {e : AuditorError} (hf : Source.FailsFirst looks c e)
    (ho : o = some (.error (.fetch c e)))
    (htold : t.journal.told l.cycle =
      [.started l.cycle, .failed l.cycle (CycleError.fetch c e).message]) :
    GoesBy policy clock looks l t o where
  answered d hd := by
    have hc := hf.1
    rw [hd c] at hc
    cases hc
  failed _ := ⟨c, e, hf, ho, htold⟩
  waiting hfree := absurd ⟨e, hf.1⟩ (hfree c)

lemma of_waiting {got : Arrived} (hg : Gathered looks got) (hgot : got.complete? = none)
    (ho : o = none) (htold : t.journal.told l.cycle = [.started l.cycle]) :
    GoesBy policy clock looks l t o where
  answered d hd := by
    rw [hg.complete hd] at hgot
    cases hgot
  failed := by
    rintro ⟨c, hc⟩
    exact absurd hc (hg c).1
  waiting _ _ := ⟨ho, htold⟩

/-! ### What it depends on -/

/-- Only the answers matter, not the looks at which they have been given. -/
lemma congr_looks (h : GoesBy policy clock looks l t o)
    (hsame : Source.answer looks = Source.answer looks') : GoesBy policy clock looks' l t o := by
  refine ⟨?_, ?_, ?_⟩
  · rw [← hsame]
    exact h.answered
  · simp only [Source.FailsFirst, ← hsame]
    exact h.failed
  · rw [← hsame]
    exact h.waiting

/-- What a load has come to stays so as long as nothing more is told of it. -/
lemma later (h : GoesBy policy clock looks l s o)
    (htold : t.journal.told l.cycle = s.journal.told l.cycle) (htickets : s.tickets ≤ t.tickets) :
    GoesBy policy clock looks l t o := by
  refine ⟨fun d hd => ?_, fun hfail => ?_, fun hfree hp => ?_⟩
  · rw [htold]
    obtain ⟨ho | ⟨ticket, hp, hlt, ho⟩, hrest⟩ := h.answered d hd
    · exact ⟨.inl ho, hrest⟩
    · exact ⟨.inr ⟨ticket, hp, hlt.trans_le htickets, ho⟩, hrest⟩
  · rw [htold]
    exact h.failed hfail
  · rw [htold]
    exact h.waiting hfree hp

end GoesBy

namespace Session

variable {telling : Telling} {s t : Session} {l : Load} {id : String} {looks : List Source}
variable {r : Result} {o : Option Result}

/-! ### Loads that end -/

@[simp] lemma told_close (s : Session) (l : Load) (r : Result) (c : Nat) :
    (s.close l r).1.journal.told c = s.journal.told c :=
  Journal.told_congr (about_close s l r c)

@[simp] lemma looks_close (s : Session) (l : Load) (r : Result) (c : Nat) :
    (s.close l r).1.journal.looks c = s.journal.looks c :=
  Journal.looks_congr (about_close s l r c)

lemma result_close_error (s : Session) (l : Load) (x : CycleError) :
    (s.close l (.error x)).2.result? = some (.error x) := by
  obtain ⟨w, -, hw, -⟩ | ⟨_, w, -, hw, -⟩ | ⟨-, hclose⟩ := s.close_cases l (.error x)
  · cases hw
  · cases hw
  · rw [hclose]
    rfl

/-- A load that has made its view returns it, unless a newer reload has begun. -/
lemma result_close_ok (hn : s.Numbered) (hl : s.journal.IsOpen l) {v : View}
    (hv : v.cycle = l.cycle) :
    (s.close l (.ok v)).2.result? = some (.ok v) ∨
      ∃ ticket, l.purpose = .reload ticket ∧ ticket < (s.close l (.ok v)).1.tickets ∧
        (s.close l (.ok v)).2.result? = some (.error (.superseded l.cycle)) := by
  obtain ⟨w, -, hw, hclose⟩ | ⟨ticket, w, hp, hw, hne, hclose⟩ | ⟨-, hclose⟩ :=
    s.close_cases l (.ok v)
  · obtain rfl := Except.ok.inj hw
    exact .inl (by rw [hclose]; rfl)
  · obtain rfl := Except.ok.inj hw
    have hissued : ticket ∈ s.journal.reloads.map Prod.snd :=
      List.mem_map_of_mem (hl.mem_reloads hp)
    rw [hn.tickets, List.mem_range'_1] at hissued
    refine .inr ⟨ticket, hp, by rw [tickets_close]; omega, ?_⟩
    rw [hclose, hv]
    rfl
  · exact .inl (by rw [hclose]; rfl)

/-- A load that ends without having been cancelled goes by the answers. -/
lemma Earned.goesBy (h : s.Earned l r) (hn : s.Numbered) (hl : s.journal.IsOpen l)
    (hr : ∀ c, r ≠ .error (.cancelled c)) :
    GoesBy s.policy s.clock (s.journal.looks l.cycle) l (s.close l r).1
      (s.close l r).2.result? := by
  cases h with
  | view hd htold =>
      exact .of_answered hd ⟨result_close_ok hn hl rfl, (told_close ..).trans htold⟩
  | fetch hf htold =>
      exact .of_failed hf (result_close_error ..) ((told_close ..).trans htold)
  | cancelled htold => exact absurd rfl (hr _)

/-- Whoever has ended was cancelled, or goes by the answers at the looks at it. -/
def Explained (s : Session) : Prop :=
  ∀ (l : Load) (r : Result), .ended l.cycle l.purpose r ∈ s.journal →
    r = .error (.cancelled l.cycle) ∨
      GoesBy s.policy s.clock (s.journal.looks l.cycle) l s (some r)

/-- No moment changes anything for those that are over. -/
lemma Explained.later (hs : s.Explained) (hm : Moment s t)
    (h : .ended l.cycle l.purpose r ∈ s.journal) : r = .error (.cancelled l.cycle) ∨
      GoesBy t.policy t.clock (t.journal.looks l.cycle) l t (some r) := by
  obtain ⟨htold, hlooks⟩ := hm.told_of_gone (List.mem_filterMap.mpr ⟨_, h, rfl⟩)
  rw [hm.sameSetting.policy, hm.sameSetting.clock, hlooks]
  exact (hs l r h).imp_right fun hgoes => hgoes.later htold hm.tickets_le

lemma Explained.append (hs : s.Explained) (hm : Moment s t) {k : Journal}
    (hj : t.journal = s.journal ++ k) (hk : ∀ c p r, .ended c p r ∉ k) : t.Explained := by
  intro l r h
  rw [hj, List.mem_append] at h
  exact hs.later hm (h.resolve_right (hk _ _ _))

lemma Explained.close (hs : s.Explained) (hn : s.Numbered) (hl : s.journal.IsOpen l)
    (hi : s.Informed l.cycle) (hr : s.Earned l r) : (s.close l r).1.Explained := by
  have hm : Moment s (s.close l r).1 := .finish hl hi hr
  intro l' r' h
  obtain ⟨k, r'', hk, hresult, hj⟩ := s.journal_close l r
  rw [hj, List.mem_append, List.mem_append, List.mem_singleton] at h
  obtain h | h | h := h
  · exact hs.later hm h
  · exact absurd h (hk.notMem (by simp))
  · -- the load that ends here
    obtain ⟨hc, hp, rfl⟩ := Happening.ended.inj h
    obtain ⟨c, p, got⟩ := l'
    obtain rfl : c = l.cycle := hc
    obtain rfl : p = l.purpose := hp
    by_cases hcancel : ∃ c, r = .error (.cancelled c)
    · obtain ⟨c, rfl⟩ := hcancel
      have hsame := result_close_error s l (.cancelled c)
      rw [hresult] at hsame
      cases hr
      exact .inl (Option.some.inj hsame)
    · have hgoes := hr.goesBy hn hl fun c hc => hcancel ⟨c, hc⟩
      rw [hresult] at hgoes
      rw [hm.sameSetting.policy, hm.sameSetting.clock, looks_close]
      exact .inr ⟨hgoes.answered, hgoes.failed, hgoes.waiting⟩

lemma Moment.explained (hm : Moment s t) (hn : s.Numbered) (hs : s.Explained) : t.Explained := by
  obtain ⟨l, r, hl, hi, hr, rfl⟩ | ⟨k, hj, hk⟩ := hm.ends_or
  · exact hs.close hn hl hi hr
  · exact hs.append hm hj hk

lemma explained_of_fresh {policy : Policy} {clock : Instant} {source : Source}
    {handlers : List Handler} (h : Passes (fresh policy clock source handlers) s) : s.Explained :=
  h.invariant (by simp [Explained, fresh]) fun hp hm hs => hm.explained (numbered_of_fresh hp) hs

/-! ### Looks -/

/-- A look at a load that waits goes by the answers. It takes down the source it finds, and if the
load still waits, the load has got what was to be had. -/
lemma Holds.goesBy (ht : Sound telling) (hs : s.Holds l) (hw : s.journal.Waits l)
    (hc : s.isCancelled l = false) :
    let x := resumeWith telling s l
    GoesBy s.policy s.clock (s.journal.looks l.cycle ++ [s.source]) l x.1 x.2.result? ∧
      x.1.journal.looks l.cycle = s.journal.looks l.cycle ++ [s.source] ∧
      ∀ l', x.2 = .pending l' → l'.cycle = l.cycle ∧
        Gathered (s.journal.looks l.cycle ++ [s.source]) l'.arrived := by
  intro x
  obtain ⟨hcancel, -⟩ | ⟨-, t, got, heq, h, hg, hgot⟩ | ⟨-, t, r, es, heq, h, hr, hno⟩ :=
    resumeWith_cases ht hs hw
  · rw [hc] at hcancel
    cases hcancel
  · have hx : x = (t, .pending { l with arrived := got }) := heq
    rw [hx, ← h.looks]
    refine ⟨.of_waiting hg hgot rfl ?_, rfl, fun l' hl' => ?_⟩
    · exact h.told.trans ((List.append_nil _).trans hw.told)
    · obtain rfl := Progress.pending.inj hl'
      exact ⟨rfl, hg⟩
  · have hx : x = t.close l r := heq
    have hsame := h.spares.passes.sameSetting
    rw [hx, ← h.looks, ← hsame.policy, ← hsame.clock]
    refine ⟨hr.goesBy h.holds.numbered h.holds.isOpen hno, looks_close .., fun l' hl' => ?_⟩
    obtain ⟨k, r', -, hend, -⟩ := t.journal_close l r
    rw [hend] at hl'
    cases hl'

/-! ### Loads by name -/

@[simp] lemma about_settle (id : String) (x : Session × Progress) (c : Nat) :
    (settle id x).1.journal.about c = x.1.journal.about c := by
  obtain ⟨t, l | r⟩ := x
  · exact about_drop t id c
  · rfl

@[simp] lemma tickets_settle (id : String) (x : Session × Progress) :
    (settle id x).1.tickets = x.1.tickets := by
  obtain ⟨t, l | r⟩ := x
  · exact tickets_drop t id
  · rfl

/-- Keeping a load under a name changes nothing of what a look has led to. -/
lemma goesBy_settle {policy : Policy} {clock : Instant} {x : Session × Progress}
    (h : GoesBy policy clock looks l x.1 x.2.result?) (id : String) :
    GoesBy policy clock looks l (settle id x).1 (settle id x).2 := by
  rw [snd_settle]
  exact h.later (Journal.told_congr (about_settle id x l.cycle)) (tickets_settle id x).ge

/-- After a look that has not ended it, a load is kept under its name. -/
lemma lookup_settle {x : Session × Progress} (h : (settle id x).2 = none) :
    ∃ l, x.2 = .pending l ∧ (settle id x).1.loads.lookup id = some l := by
  obtain ⟨t, l | r⟩ := x
  · exact ⟨l, rfl, List.lookup_cons_self⟩
  · cases h

/-- A look at the load of a name goes by the answers, whoever takes it. If the load still waits
afterwards, it has got what was to be had. -/
lemma pollWith_goesBy (ht : Sound telling) (hs : s.Tidy) (hn : s.Numbered)
    (hl : s.loads.lookup id = some l) (hc : s.isCancelled l = false)
    (hg : Gathered looks l.arrived) :
    ∃ t o, pollWith telling s id = some (t, o) ∧
      GoesBy s.policy s.clock (looks ++ [s.source]) l t o ∧
      t.journal.looks l.cycle = s.journal.looks l.cycle ++ [s.source] ∧
      (o = none → ∃ l', t.loads.lookup id = some l' ∧ l'.cycle = l.cycle ∧
        Gathered (looks ++ [s.source]) l'.arrived) := by
  obtain ⟨-, hh, hw⟩ := hs.without_holds hn hl
  obtain ⟨hgoes, hlooks, hwaits⟩ := hh.goesBy ht hw hc
  have hsame := Source.answer_concat_congr hw.gathered hg s.source
  refine ⟨_, _, by rw [pollWith, hl]; rfl, goesBy_settle (hgoes.congr_looks hsame) id, ?_,
    fun hnone => ?_⟩
  · exact (Journal.looks_congr (about_settle ..)).trans hlooks
  · obtain ⟨l', hx, hlook⟩ := lookup_settle hnone
    obtain ⟨hcycle, hg'⟩ := hwaits l' hx
    refine ⟨l', hlook, hcycle, ?_⟩
    rw [Gathered, ← hsame]
    exact hg'

/-- The first look at a new load goes by the answers. -/
lemma startWith_goesBy (ht : Sound telling) (hs : s.Tidy) (hn : s.Numbered) (id : String)
    (kind : Start) :
    let first := (s.drop id).opened telling kind
    first.1.isCancelled first.2 = false →
      GoesBy s.policy s.clock [first.1.source] first.2 (startWith telling s id kind).1
        (startWith telling s id kind).2 := by
  intro first hc
  have hd := hs.drop id
  obtain ⟨hlaunch, hsp, hh, hw, hlooks⟩ :=
    opened_holds ht hd.tidy (hd.passes.numbered hn) kind
  have hsame := Passes.sameSetting (hd.passes.trans (hlaunch.passes.trans hsp.passes))
  obtain ⟨hgoes, -⟩ := hh.goesBy ht hw hc
  have hcycle : first.2.cycle = (s.drop id).cycles + 1 := cycle_launch _ _
  rw [hcycle, hlooks, hsame.policy, hsame.clock] at hgoes
  exact goesBy_settle hgoes id

/-! ### The main result -/

/-- **The order of the answers does not matter.** At every state that a session passes through,
each load that has ended has been cancelled, or it has come to what its collections had answered by
then, whichever way these answers have come in. While a handler makes calls, and between the steps
of a run, a load that has a name has got what has been answered at the looks at it, and a look at
it goes by the answers as long as the load is not to stop; so does the first look at a new load. Two
loads that have been answered the same in two sessions of one policy return views with the same
timeline, totals and counts, the overdue burns apart, and tell of the same rejections. -/
theorem fetching_order_irrelevant (policy : Policy) (clock : Instant) (source : Source)
    (handlers : List Handler) :
    let origin := fresh policy clock source handlers
    (∀ s, Passes origin s → ∀ l r, .ended l.cycle l.purpose r ∈ s.journal →
      r = .error (.cancelled l.cycle) ∨
        GoesBy policy clock (s.journal.looks l.cycle) l s (some r)) ∧
    (∀ s, Passes origin s → s.Tidy → ∀ telling, Sound telling →
      (∀ id l looks, s.loads.lookup id = some l → s.isCancelled l = false →
        Gathered looks l.arrived → ∃ t o, pollWith telling s id = some (t, o) ∧
          GoesBy policy clock (looks ++ [s.source]) l t o ∧
          t.journal.looks l.cycle = s.journal.looks l.cycle ++ [s.source] ∧
          (o = none → ∃ l', t.loads.lookup id = some l' ∧ l'.cycle = l.cycle ∧
            Gathered (looks ++ [s.source]) l'.arrived)) ∧
      (∀ id l, s.loads.lookup id = some l → Gathered (s.journal.looks l.cycle) l.arrived) ∧
      ∀ id kind,
        let first := (s.drop id).opened telling kind
        first.1.isCancelled first.2 = false →
          GoesBy policy clock [first.1.source] first.2 (startWith telling s id kind).1
            (startWith telling s id kind).2) ∧
    (∀ steps,
      let s := origin.run steps
      (∀ id kind,
        let first := (s.drop id).opened tell kind
        first.1.isCancelled first.2 = false →
          GoesBy policy clock [first.1.source] first.2 (s.start id kind).1 (s.start id kind).2) ∧
      ∀ id l, s.loads.lookup id = some l → Gathered (s.journal.looks l.cycle) l.arrived ∧
        (s.isCancelled l = false → ∃ t o, s.poll id = some (t, o) ∧ s.step (.poll id) = t ∧
          GoesBy policy clock (s.journal.looks l.cycle ++ [s.source]) l t o ∧
          t.journal.looks l.cycle = s.journal.looks l.cycle ++ [s.source])) ∧
    ∀ (clock' : Instant) (looks looks' : List Source) (l l' : Load) (t t' : Session) (v v' : View),
      GoesBy policy clock looks l t (some (.ok v)) →
      GoesBy policy clock' looks' l' t' (some (.ok v')) →
      ∀ d : Collection → List Json, (∀ c, Source.answer looks c = .records (d c)) →
        (∀ c, Source.answer looks' c = .records (d c)) →
        v.timeline = v'.timeline ∧ v.totals = v'.totals ∧
          { v.stats with overdueBurns := 0 } = { v'.stats with overdueBurns := 0 } ∧
          (clock = clock' → v.stats = v'.stats) ∧
          ∃ rejected : List Rejection,
            t.journal.told l.cycle = .started l.cycle ::
              rejected.map (Rejection.event l.cycle) ++ [.completed l.cycle v.stats] ∧
            t'.journal.told l'.cycle = .started l'.cycle ::
              rejected.map (Rejection.event l'.cycle) ++ [.completed l'.cycle v'.stats] := by
  intro origin
  refine ⟨fun s hs l r h => ?_, fun s hs htidy telling ht => ⟨?_, ?_, ?_⟩,
    fun steps => ⟨fun id kind => ?_, fun id l hl => ?_⟩, ?_⟩
  · have hsame := hs.sameSetting
    have hends := explained_of_fresh hs l r h
    rwa [hsame.policy, hsame.clock] at hends
  · intro id l looks hl hc hg
    have hsame := hs.sameSetting
    have hgoes := pollWith_goesBy ht htidy (numbered_of_fresh hs) hl hc hg
    rwa [hsame.policy, hsame.clock] at hgoes
  · exact fun id l hl => (htidy.waiting _ (mem_of_lookup hl)).gathered
  · intro id kind
    have hsame := hs.sameSetting
    have hgoes := startWith_goesBy ht htidy (numbered_of_fresh hs) id kind
    rwa [hsame.policy, hsame.clock] at hgoes
  · have hs := run_leads policy clock source handlers steps
    have hsame := hs.passes.sameSetting
    have hgoes := startWith_goesBy tell_sound hs.tidy (numbered_of_fresh hs.passes) id kind
    rwa [hsame.policy, hsame.clock] at hgoes
  · have hs := run_leads policy clock source handlers steps
    have hsame := hs.passes.sameSetting
    have hg := (hs.tidy.waiting _ (mem_of_lookup hl)).gathered
    refine ⟨hg, fun hc => ?_⟩
    obtain ⟨t, o, hpoll, hgoes, hlooks, -⟩ :=
      pollWith_goesBy tell_sound hs.tidy (numbered_of_fresh hs.passes) hl hc hg
    rw [hsame.policy, hsame.clock] at hgoes
    exact ⟨t, o, hpoll, step_poll hpoll, hgoes, hlooks⟩
  · intro clock' looks looks' l l' t t' v v' h h' d hd hd'
    obtain ⟨hv | ⟨_, -, -, hv⟩, htold⟩ := h.answered d hd
    swap
    · cases hv
    obtain ⟨hv' | ⟨_, -, -, hv'⟩, htold'⟩ := h'.answered d hd'
    swap
    · cases hv'
    obtain rfl : v = _ := by simpa using hv
    obtain rfl : v' = _ := by simpa using hv'
    refine ⟨rfl, rfl, rfl, ?_, _, htold, htold'⟩
    rintro rfl
    rfl

end Session

end BridgeAudit

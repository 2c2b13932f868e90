import BridgeAudit.Proofs.Session.Trail

/-!
Which reloads are published.

* `Moment.publishes`: a moment that publishes a view is the end of the newest reload with that
  view; every other moment leaves the published views as they are.
* `Session.Shown`, `shown_of_fresh`: the published views are the ones that reloads have returned,
  their cycles rise, and whoever returned one was the newest reload then.
* `Load.shown`, `published_poll`: what a look publishes by itself, while no hook is armed.
* `last_started_wins`: all this for the runs of a session, from step to step.
-/

namespace BridgeAudit

/-- A reload that returns a view here returns its own, has begun last, and no reload before it has
a later number. -/
def Journal.ReturnedByNewest (before : Journal) (h : Happening) : Prop :=
  ∀ c ticket v, h = .ended c (.reload ticket) (.ok v) →
    v.cycle = c ∧ before.newest? = some (c, ticket) ∧
      ∀ r ∈ before.reloads, r.1 ≤ c ∧ r.2 ≤ ticket

namespace Session

variable {s t : Session} {l : Load}

/-! ### Moments that publish -/

/-- A view is published when the newest reload ends with it, and at no other moment. -/
lemma Moment.publishes (h : Moment s t) :
    (∃ l v, s.journal.IsOpen l ∧ l.purpose = .reload s.tickets ∧ v.cycle = l.cycle ∧
      t.published = v :: s.published ∧
      t.journal = s.journal ++ [.ended l.cycle l.purpose (.ok v)]) ∨
    (t.published = s.published ∧
      ∃ k, t.journal = s.journal ++ k ∧ ∀ h ∈ k, h.view? = none) := by
  cases h with
  | @record h hh => exact .inr ⟨rfl, [h], rfl, by simpa using hh.view_eq⟩
  | start kind =>
      obtain ⟨k, hk, hj⟩ := s.journal_launch kind
      exact .inr ⟨by simp, _, hj, hk.forall_concat (fun _ => rfl) rfl⟩
  | cancel =>
      exact .inr ⟨by simp [Session.cancel], [.cancel], by simp [Session.cancel],
        by simp [Happening.view?]⟩
  | signal c m =>
      obtain ⟨k, signals, hk, h⟩ := s.moveSignal_eq c m
      exact .inr ⟨by simp, k, by rw [h], fun g hg => by rw [hk g hg]; rfl⟩
  | @finish l r hl hi hr =>
      obtain ⟨v, hp, rfl, h⟩ | ⟨_, v, -, -, -, h⟩ | ⟨hno, h⟩ := s.close_cases l r
      · have hv : v.cycle = l.cycle := by
          cases hr
          rfl
        exact .inl ⟨l, v, hl, hp, hv, by simp [h], by simp [h]⟩
      · exact .inr ⟨by simp [h, log],
          [.note (.log (discardLine v.cycle)),
            .ended l.cycle l.purpose (.error (.superseded v.cycle))],
          by simp [h, log], by simp [Happening.view?]⟩
      · refine .inr ⟨by simp [h], [.ended l.cycle l.purpose r], by simp [h], fun h hh => ?_⟩
        rw [List.mem_singleton.mp hh]
        cases hp : l.purpose with
        | direct signal => rfl
        | reload ticket =>
            cases r with
            | error e => rfl
            | ok v => exact absurd rfl (hno ticket v hp)
  | arrange source loads subscribers hooks => exact .inr ⟨rfl, [], by simp, by simp⟩

/-! ### What is published throughout -/

/-- The published views are the ones that reloads have returned, with rising cycles, and only the
newest reload has ever returned one. -/
structure Shown (s : Session) : Prop where
  published : s.published.reverse = s.journal.publications
  rising : (s.published.map View.cycle).Pairwise (· > ·)
  /-- What is published comes from a reload that is over. -/
  settled : ∀ v ∈ s.published,
    v.cycle ∈ s.journal.gone ∧ v.cycle ∈ s.journal.reloads.map Prod.fst
  newest : s.journal.Each Journal.ReturnedByNewest

/-- Nothing is published, and the journal grows. -/
lemma Shown.of_quiet (hs : s.Shown) (hp : t.published = s.published) {k : Journal}
    (hj : t.journal = s.journal ++ k) (hk : ∀ h ∈ k, h.view? = none) : t.Shown where
  published := by
    have hnone : Journal.publications k = [] := List.filterMap_eq_nil_iff.mpr hk
    rw [hp, hj, hs.published, Journal.publications_append, hnone, List.append_nil]
  rising := hp ▸ hs.rising
  settled v hv := by
    obtain ⟨hg, hr⟩ := hs.settled v (hp ▸ hv)
    rw [hj, Journal.gone_append, Journal.reloads_append, List.map_append]
    exact ⟨List.mem_append_left _ hg, List.mem_append_left _ hr⟩
  newest := hj ▸ hs.newest.append fun h hh before c ticket v heq => by
    simpa [heq, Happening.view?] using hk h hh

/-- The newest reload returns a view. -/
lemma Shown.of_return (hs : s.Shown) (hn : s.Numbered) (hl : s.journal.IsOpen l)
    (hp : l.purpose = .reload s.tickets) {v : View} (hv : v.cycle = l.cycle)
    (hpub : t.published = v :: s.published)
    (hj : t.journal = s.journal ++ [.ended l.cycle l.purpose (.ok v)]) : t.Shown := by
  have hmem : (l.cycle, s.tickets) ∈ s.journal.reloads := hl.mem_reloads hp
  obtain ⟨hnewest, hle⟩ := hn.newest hmem
  have hreload : l.cycle ∈ s.journal.reloads.map Prod.fst := List.mem_map_of_mem hmem
  refine ⟨?_, ?_, fun w hw => ?_, ?_⟩
  · simp [hpub, hj, hp, hs.published, Happening.view?]
  · rw [hpub, List.map_cons, List.pairwise_cons]
    refine ⟨fun c hc => ?_, hs.rising⟩
    -- what is published already comes from another reload, and that one is older
    obtain ⟨w, hw, rfl⟩ := List.mem_map.mp hc
    obtain ⟨hgone, hre⟩ := hs.settled w hw
    obtain ⟨r, hr, hrc⟩ := List.mem_map.mp hre
    have hcle : w.cycle ≤ l.cycle := hrc ▸ (hle r hr).1
    have hne : w.cycle ≠ l.cycle := fun h => hl.notGone (h ▸ hgone)
    omega
  · rw [hj, Journal.gone_append, Journal.reloads_append, List.map_append]
    rw [hpub, List.mem_cons] at hw
    obtain rfl | hw := hw
    · exact ⟨by simp [Happening.gone?, hv], List.mem_append_left _ (hv ▸ hreload)⟩
    · obtain ⟨hg, hr⟩ := hs.settled w hw
      exact ⟨List.mem_append_left _ hg, List.mem_append_left _ hr⟩
  · rw [hj, Journal.each_concat]
    refine ⟨hs.newest, fun c ticket w h => ?_⟩
    rw [hp] at h
    obtain ⟨rfl, ⟨⟩, ⟨⟩⟩ := Happening.ended.inj h
    exact ⟨hv, hnewest, hle⟩

lemma Moment.shown (h : Moment s t) (hn : s.Numbered) (hs : s.Shown) : t.Shown := by
  obtain ⟨l, v, hl, hp, hv, hpub, hj⟩ | ⟨hpub, k, hj, hk⟩ := h.publishes
  · exact hs.of_return hn hl hp hv hpub hj
  · exact hs.of_quiet hpub hj hk

lemma shown_of_fresh {policy : Policy} {clock : Instant} {source : Source}
    {handlers : List Handler} (h : Passes (fresh policy clock source handlers) s) : s.Shown :=
  h.invariant ⟨rfl, List.Pairwise.nil, by simp [fresh], Journal.each_nil _⟩
    fun hp hm hs => hm.shown (numbered_of_fresh hp) hs

/-- From one state to a later one, the views are published that reloads return in between. -/
lemma Shown.published_later (hs : s.Shown) (ht : t.Shown) {k : Journal}
    (hj : t.journal = s.journal ++ k) : t.published = k.publications.reverse ++ s.published := by
  rw [← List.reverse_inj, ht.published, hj, Journal.publications_append, ← hs.published]
  simp

/-! ### What is returned -/

lemma close_returns {r r' : Result} (h : s.close l r = (t, .ended r')) :
    t.journal.getLast? = some (.ended l.cycle l.purpose r') := by
  obtain ⟨v, -, -, hc⟩ | ⟨_, v, -, -, -, hc⟩ | ⟨-, hc⟩ := s.close_cases l r <;>
    · rw [hc] at h
      obtain ⟨rfl, ⟨⟩⟩ := Prod.mk.inj h
      simp

/-- A look that ends a load takes down last what the load returns. -/
lemma resumeWith_returns {telling : Telling} {r : Result}
    (h : resumeWith telling s l = (t, .ended r)) :
    t.journal.getLast? = some (.ended l.cycle l.purpose r) := by
  rw [resumeWith] at h
  split at h
  · exact close_returns h
  · simp only [source_record] at h
    split at h
    · exact close_returns h
    · split at h
      · simp at h
      · exact close_returns h

lemma poll_returns {id : String} {r : Result} (h : s.poll id = some (t, some r)) :
    ∃ l, s.loads.lookup id = some l ∧
      t.journal.getLast? = some (.ended l.cycle l.purpose r) := by
  obtain ⟨l, hl, hx⟩ := Option.map_eq_some_iff.mp h
  refine ⟨l, hl, ?_⟩
  cases hr : resumeWith tell (s.without id) l with
  | mk u p =>
      cases p with
      | pending l' => simp [hr, settle] at hx
      | ended r' =>
          obtain ⟨rfl, rfl⟩ : u = t ∧ r' = r := by simpa [hr, settle] using hx
          exact resumeWith_returns hr

lemma start_returns {id : String} {kind : Start} {r : Result} (h : s.start id kind = (t, some r)) :
    t.journal.getLast? =
      some (.ended ((s.drop id).cycles + 1) ((s.drop id).launch kind).2.purpose r) := by
  rw [start, startWith] at h
  cases hr : beginWith tell (s.drop id) kind with
  | mk u p =>
      cases p with
      | pending l' => simp [hr, settle] at h
      | ended r' =>
          obtain ⟨rfl, rfl⟩ : u = t ∧ r' = r := by simpa [hr, settle] using h
          have hlast : u.journal.getLast? = some (.ended ((s.drop id).launch kind).2.cycle
              ((s.drop id).launch kind).2.purpose r') := resumeWith_returns hr
          rwa [cycle_launch] at hlast

/-! ### Steps that publish -/

end Session

/-- What is published when a load comes to something: the view that a reload returns. -/
def Load.shown (l : Load) (o : Option Result) : List View :=
  match l.purpose, o with
  | .reload _, some (.ok v) => [v]
  | _, _ => []

/-- Something is done that may end a load. -/
def Act.IsLook {α : Type} : Act α → Prop
  | .start _ _ => True
  | .poll _ => True
  | _ => False

namespace Session

variable {s t : Session} {l : Load} {id : String}

@[simp] lemma hooks_launch (s : Session) (kind : Start) :
    (s.launch kind).1.hooks = s.hooks := by
  have hclear : s.clearSlot.hooks = s.hooks := by rw [clearSlot]; split <;> rfl
  obtain ⟨k, -, h⟩ := s.takeSlot_eq
  cases kind <;> simp [launch, giveSignal, record, h, hclear]

@[simp] lemma published_ask (s : Session) (l : Load) : (s.ask l).published = s.published := by
  rw [ask]
  split <;> rfl

@[simp] lemma hooks_ask (s : Session) (l : Load) : (s.ask l).hooks = s.hooks := by
  rw [ask]
  split <;> rfl

/-- Whatever is neither a start nor a look publishes nothing. -/
lemma published_step_of_not_isLook {a : Step} (ha : ¬a.IsLook) :
    (s.step a).published = s.published := by
  cases a with
  | start id kind => exact absurd trivial ha
  | poll id => exact absurd trivial ha
  | drop id => exact published_drop s id
  | signal c m => exact published_moveSignal s c m
  | cancel => exact published_clearSlot s
  | look id =>
      show (s.look id).published = s.published
      rw [look]
      split <;> rfl
  | _ => rfl

/-- As long as no hook is armed, nothing comes of telling an event but lines in the journal. -/
lemma tell_of_quiet (hs : s.hooks = []) (e : Event) :
    (tell s e).hooks = [] ∧ (tell s e).published = s.published := by
  have key : ∀ (xs : List ((Handler × Note) × Nat)) (t : Session), t.hooks = [] →
      (xs.foldl (hearWith (fun s _ => s) e) t).hooks = [] ∧
        (xs.foldl (hearWith (fun s _ => s) e) t).published = t.published := by
    intro xs
    induction xs with
    | nil => exact fun t ht => ⟨ht, rfl⟩
    | cons x xs ih =>
        intro t ht
        have hheard : hearWith (fun s _ => s) e t x = t.record (.heard x.2 e x.1.2) := by
          simp [hearWith, record, ht]
        rw [List.foldl_cons, hheard]
        exact ih _ ht
  rw [tell, hs]
  exact key _ _ hs

lemma foldl_takeNote_of_quiet (notes : List Note) (hs : s.hooks = []) :
    (notes.foldl (takeNote tell) s).hooks = [] ∧
      (notes.foldl (takeNote tell) s).published = s.published := by
  induction notes generalizing s with
  | nil => exact ⟨hs, rfl⟩
  | cons n notes ih =>
      cases n with
      | event e =>
          obtain ⟨hhooks, hpub⟩ := tell_of_quiet hs e
          exact ⟨(ih hhooks).1, (ih hhooks).2.trans hpub⟩
      | log line => exact ih (s := s.log line) hs

/-- A load that ends publishes what it returns, if it is a reload and returns a view. -/
lemma published_close (s : Session) (l : Load) (r : Result) :
    (s.close l r).1.published = l.shown (s.close l r).2.result? ++ s.published := by
  obtain ⟨v, hp, -, h⟩ | ⟨ticket, v, hp, -, -, h⟩ | ⟨hno, h⟩ := s.close_cases l r
  · rw [h]
    simp [Load.shown, Progress.result?, hp]
  · rw [h]
    simp [Load.shown, Progress.result?, hp, log]
  · rw [h]
    cases hp : l.purpose with
    | direct signal => simp [Load.shown, Progress.result?, hp]
    | reload ticket =>
        cases r with
        | error e => simp [Load.shown, Progress.result?, hp]
        | ok v => exact absurd rfl (hno ticket v hp)

lemma published_resume (hs : s.hooks = []) (l : Load) : (resumeWith tell s l).1.published =
    l.shown (resumeWith tell s l).2.result? ++ s.published := by
  rw [resumeWith]
  split
  · rw [published_close, (tell_of_quiet hs _).2]
  · have hs' : (s.record (.looked l.cycle s.source)).hooks = [] := hs
    simp only [source_record]
    split
    · rw [published_close, (tell_of_quiet hs' _).2]
      rfl
    · split
      · simp [Load.shown, Progress.result?]
      next raw _ =>
        rw [reconcileWith, published_close, (foldl_takeNote_of_quiet _ hs').2]
        rfl

lemma published_settle (id : String) (x : Session × Progress) :
    (settle id x).1.published = x.1.published := by
  obtain ⟨t, l | r⟩ := x
  · exact published_drop t id
  · rfl

/-- A look publishes what it returns, if it ends a reload with a view, as long as no hook is
armed. -/
lemma published_poll (hs : s.hooks = []) {o : Option Result} (h : s.poll id = some (t, o)) :
    ∃ l, s.loads.lookup id = some l ∧ t.published = l.shown o ++ s.published := by
  obtain ⟨l, hl, hx⟩ := Option.map_eq_some_iff.mp h
  have hpub := published_settle id (resumeWith tell (s.without id) l)
  have hresult := snd_settle id (resumeWith tell (s.without id) l)
  rw [hx] at hpub hresult
  refine ⟨l, hl, hpub.trans ?_⟩
  rw [show o = _ from hresult]
  exact published_resume (s := s.without id) hs l

lemma published_start (hs : s.hooks = []) {kind : Start} {o : Option Result}
    (h : s.start id kind = (t, o)) :
    t.published = ((s.drop id).launch kind).2.shown o ++ s.published := by
  have hlaunch : ((s.drop id).launch kind).1.hooks = [] := by simpa using hs
  obtain ⟨hhooks, htell⟩ := tell_of_quiet hlaunch
    (.started ((s.drop id).launch kind).2.cycle)
  have hpub := published_settle id (beginWith tell (s.drop id) kind)
  have hresult := snd_settle id (beginWith tell (s.drop id) kind)
  have hstart : settle id (beginWith tell (s.drop id) kind) = (t, o) := h
  rw [hstart] at hpub hresult
  rw [hpub, show o = _ from hresult, beginWith, published_resume (by simpa using hhooks),
    published_ask, htell, published_launch, published_drop]

/-! ### The main result -/

/-- **Last started wins.** Every run of a session passes through moments, each step of it goes on
where the steps before have ended, and it publishes just the views that reloads return in its
course. At every state on the way the next moment leaves the published views as they are, or it is
the end of the newest reload, which returns a view and publishes just that. So the published views
are those that reloads have returned, their cycles rise, no reload returns one once a newer one has
begun, and no load is over twice: what has failed, has been cancelled or has been dropped shows
nothing. What a look returns is what the journal says last, and then it is the view that is shown if
it is the view of a reload. Steps that neither start a load nor look at one publish nothing, and as
long as no hook is armed a look publishes nothing but the view that it returns. -/
theorem last_started_wins (policy : Policy) (clock : Instant) (source : Source)
    (handlers : List Handler) :
    let origin := fresh policy clock source handlers
    (∀ steps, Passes origin (origin.run steps) ∧
      ∀ a,
        let s := origin.run steps
        let t := s.step a
        Passes s t ∧ (¬a.IsLook → t.published = s.published) ∧
        ∃ k, t.journal = s.journal ++ k ∧ t.published = k.publications.reverse ++ s.published) ∧
    (∀ s, Passes origin s →
      (∀ t, Moment s t → t.published = s.published ∨
        ∃ l v, s.journal.IsOpen l ∧ l.purpose = .reload s.tickets ∧
          s.journal.newest? = some (l.cycle, s.tickets) ∧
          t.journal = s.journal ++ [.ended l.cycle l.purpose (.ok v)] ∧
          t.published = v :: s.published ∧ t.current = some v) ∧
      s.published.reverse = s.journal.publications ∧
      (s.published.map View.cycle).Pairwise (· > ·) ∧
      s.journal.Each Journal.ReturnedByNewest ∧ s.journal.gone.Nodup) ∧
    (∀ (s t : Session) (id : String) (o : Option Result), s.poll id = some (t, o) →
      ∃ l, s.loads.lookup id = some l ∧ s.step (.poll id) = t ∧
        (∀ r, o = some r → t.journal.getLast? = some (.ended l.cycle l.purpose r)) ∧
        (s.hooks = [] → t.published = l.shown o ++ s.published)) ∧
    (∀ (s t : Session) (id : String) (kind : Start) (o : Option Result),
      s.start id kind = (t, o) →
      let l := ((s.drop id).launch kind).2
      s.step (.start id kind) = t ∧ l.cycle = s.cycles + 1 ∧
        (∀ r, o = some r → t.journal.getLast? = some (.ended l.cycle l.purpose r)) ∧
        (s.hooks = [] → t.published = l.shown o ++ s.published)) ∧
    ∀ (s : Session) (c ticket : Nat) (v : View), Passes origin s →
      s.journal.getLast? = some (.ended c (.reload ticket) (.ok v)) → s.current = some v := by
  intro origin
  refine ⟨fun steps => ⟨run_passes policy clock source handlers steps, fun a => ?_⟩,
    fun s hs => ?_, fun s t id o h => ?_, fun s t id kind o h => ?_,
    fun s c ticket v hs hlast => ?_⟩
  · have hs := run_passes policy clock source handlers steps
    have hst := step_passes policy clock source handlers steps a
    obtain ⟨k, hk⟩ := Passes.journal hst
    exact ⟨hst, published_step_of_not_isLook, k, hk,
      (shown_of_fresh hs).published_later (shown_of_fresh (hs.trans hst)) hk⟩
  · have hn : s.Numbered := numbered_of_fresh hs
    have hshown : s.Shown := shown_of_fresh hs
    refine ⟨fun t hm => ?_, hshown.published, hshown.rising, hshown.newest, hn.nodup⟩
    obtain ⟨l, v, hl, hp, -, hpub, hj⟩ | ⟨hpub, -⟩ := hm.publishes
    · have hmem : (l.cycle, s.tickets) ∈ s.journal.reloads := hl.mem_reloads hp
      exact .inr ⟨l, v, hl, hp, (hn.newest hmem).1, hj, hpub, by simp [current, hpub]⟩
    · exact .inl hpub
  · obtain ⟨l, hl, hx⟩ := Option.map_eq_some_iff.mp h
    refine ⟨l, hl, step_poll h, ?_, fun hquiet => ?_⟩
    · rintro r rfl
      obtain ⟨l', hl', hlast⟩ := poll_returns h
      exact Option.some.inj (hl'.symm.trans hl) ▸ hlast
    · obtain ⟨l', hl', hpub⟩ := published_poll hquiet h
      exact Option.some.inj (hl'.symm.trans hl) ▸ hpub
  · intro l
    have hcycle : l.cycle = (s.drop id).cycles + 1 := cycle_launch _ _
    refine ⟨step_start h, hcycle.trans (by rw [cycles_drop]), ?_, fun hquiet => ?_⟩
    · rintro r rfl
      rw [hcycle]
      exact start_returns h
    · exact published_start hquiet h
  · have hshown := (shown_of_fresh hs).published
    obtain ⟨front, hfront⟩ := List.getLast?_eq_some_iff.mp hlast
    rw [hfront, Journal.publications_append] at hshown
    have hrev := congrArg List.reverse hshown
    rw [List.reverse_reverse] at hrev
    simp [current, hrev, Happening.view?]

end Session

end BridgeAudit

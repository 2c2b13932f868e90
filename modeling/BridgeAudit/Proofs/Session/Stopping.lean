import BridgeAudit.Proofs.Session.Schedule
import BridgeAudit.Proofs.Session.Signals

/-!
Which looks cancel a load.

* `result_resumeWith_iff`: a look cancels a load if and only if it finds the signal raised.
* `Obeys`: what a look at a load leads to, by the signal and by the answers. `pollWith_obeys` and
  `startWith_obeys` prove it for all looks, whoever takes them.
* `GoesBy.result_eq`: loads that have been answered the same come to the same.
* `cancelled_iff_raised`: a load is cancelled exactly at the first look that finds its signal
  raised, which is where a wait behind a channel is over.
-/

namespace BridgeAudit

namespace Session

variable {telling : Telling} {s t : Session} {l l' : Load} {id : String} {looks : List Source}

/-! ### One look -/

/-- A look at a load whose signal is raised tells that it is cancelled and ends it, whatever the
collections would answer. -/
lemma resumeWith_of_raised (telling : Telling) (h : (s.signalOf l).raised) :
    resumeWith telling s l =
      (telling s (.cancelled l.cycle)).close l (.error (.cancelled l.cycle)) := by
  rw [raised_signalOf] at h
  rw [resumeWith, if_pos h]

/-- Whatever ends with a view returns no cancellation. -/
lemma result_close_ok_ne (s : Session) (l : Load) (v : View) (c : Nat) :
    (s.close l (.ok v)).2.result? ≠ some (.error (.cancelled c)) := by
  obtain ⟨w, -, -, h⟩ | ⟨_, w, -, -, -, h⟩ | ⟨-, h⟩ := s.close_cases l (.ok v) <;>
    simp [h, Progress.result?]

/-- A look cancels a load if and only if it finds the signal raised. -/
lemma result_resumeWith_iff (telling : Telling) (s : Session) (l : Load) (c : Nat) :
    (resumeWith telling s l).2.result? = some (.error (.cancelled c)) ↔
      (s.signalOf l).raised ∧ c = l.cycle := by
  by_cases hr : (s.signalOf l).raised
  · rw [resumeWith_of_raised telling hr, result_close_error]
    simp [hr, eq_comm]
  · refine iff_of_false ?_ fun h => hr h.1
    rw [raised_signalOf] at hr
    rw [resumeWith, if_neg hr]
    simp only [source_record]
    split
    next x hround =>
      rw [result_close_error]
      intro hx
      obtain rfl := Except.error.inj (Option.some.inj hx)
      exact Source.round_ne_cancelled c _ _ hround
    next got hround =>
      split
      · simp [Progress.result?]
      · exact result_close_ok_ne _ _ _ _

end Session

/-! ### What a look leads to -/

/-- What a look at a load leads to, where `looks` are the sources that earlier looks have found, and
`src` is the one that is there now: if the signal is raised, the load is cancelled and nobody looks
at its collections, and otherwise everything goes by the answers so far. -/
structure Obeys (policy : Policy) (clock : Instant) (signal : Signal) (looks : List Source)
    (src : Source) (l : Load) (t : Session) (o : Option Result) : Prop where
  cancelled : ∀ c, o = some (.error (.cancelled c)) ↔ signal.raised ∧ c = l.cycle
  stopped : signal.raised → t.journal.told l.cycle = [.started l.cycle, .cancelled l.cycle] ∧
    t.journal.looks l.cycle = looks
  goesBy : signal.raised = false → GoesBy policy clock (looks ++ [src]) l t o ∧
    t.journal.looks l.cycle = looks ++ [src]

/-- Keeping a load under a name changes nothing of what a look has led to. -/
lemma Obeys.settle {policy : Policy} {clock : Instant} {signal : Signal} {looks : List Source}
    {src : Source} {l : Load} {x : Session × Progress}
    (h : Obeys policy clock signal looks src l x.1 x.2.result?) (id : String) :
    Obeys policy clock signal looks src l (Session.settle id x).1 (Session.settle id x).2 := by
  have habout := Session.about_settle id x l.cycle
  refine ⟨by simpa using h.cancelled, fun hr => ?_, fun hr => ?_⟩
  · rw [Journal.told_congr habout, Journal.looks_congr habout]
    exact h.stopped hr
  · rw [Journal.looks_congr habout]
    exact ⟨Session.goesBy_settle (h.goesBy hr).1 id, (h.goesBy hr).2⟩

namespace Session

variable {telling : Telling} {s t : Session} {l l' : Load} {id : String} {looks : List Source}

/-- A look at a load that waits obeys its signal. -/
lemma Holds.obeys (ht : Sound telling) (hs : s.Holds l) (hw : s.journal.Waits l) :
    Obeys s.policy s.clock (s.signalOf l) (s.journal.looks l.cycle) s.source l
      (resumeWith telling s l).1 (resumeWith telling s l).2.result? where
  cancelled := result_resumeWith_iff telling s l
  stopped := by
    intro hr
    rw [raised_signalOf] at hr
    obtain ⟨-, t, heq, h⟩ | ⟨hc, -⟩ | ⟨hc, -⟩ := resumeWith_cases ht hs hw
    · rw [heq, told_close, looks_close, h.told, h.looks, hw.told]
      exact ⟨rfl, List.append_nil _⟩
    · rw [hr] at hc
      cases hc
    · rw [hr] at hc
      cases hc
  goesBy := by
    intro hr
    rw [raised_signalOf] at hr
    obtain ⟨hgoes, hlooks, -⟩ := hs.goesBy ht hw hr
    exact ⟨hgoes, hlooks⟩

/-- A look at the load of a name obeys its signal, whoever takes it. -/
lemma pollWith_obeys (ht : Sound telling) (hs : s.Tidy) (hn : s.Numbered)
    (hl : s.loads.lookup id = some l) : ∃ t o, pollWith telling s id = some (t, o) ∧
      Obeys s.policy s.clock (s.signalOf l) (s.journal.looks l.cycle) s.source l t o := by
  obtain ⟨-, hh, hw⟩ := hs.without_holds hn hl
  exact ⟨_, _, by rw [pollWith, hl]; rfl, (hh.obeys ht hw).settle id⟩

/-- So does the first look at a new load. -/
lemma startWith_obeys (ht : Sound telling) (hs : s.Tidy) (hn : s.Numbered) (id : String)
    (kind : Start) :
    let first := (s.drop id).opened telling kind
    Passes s first.1 ∧ Obeys s.policy s.clock (first.1.signalOf first.2) [] first.1.source first.2
      (startWith telling s id kind).1 (startWith telling s id kind).2 := by
  intro first
  have hd := hs.drop id
  obtain ⟨hlaunch, hsp, hh, hw, hlooks⟩ :=
    opened_holds ht hd.tidy (hd.passes.numbered hn) kind
  have hp : Passes s first.1 := hd.passes.trans (hlaunch.passes.trans hsp.passes)
  have hobeys := hh.obeys ht hw
  have hcycle : first.2.cycle = (s.drop id).cycles + 1 := cycle_launch _ _
  rw [hcycle, hlooks, hp.sameSetting.policy, hp.sameSetting.clock] at hobeys
  exact ⟨hp, hobeys.settle id⟩

end Session

/-! ### The same answers -/

/-- The same view, as that of another cycle. -/
def View.asCycle (v : View) (c : Nat) : View := { v with cycle := c }

/-- Two loads whose views are not published, and whose collections have answered the same, come to
the same. -/
lemma GoesBy.result_eq {policy : Policy} {clock : Instant} {looks looks' : List Source}
    {l l' : Load} {t t' : Session} {o o' : Option Result} (h : GoesBy policy clock looks l t o)
    (h' : GoesBy policy clock looks' l' t' o') (hp : l.purpose.ticket? = none)
    (hp' : l'.purpose.ticket? = none)
    (hsame : ∀ c, Source.answer looks c = Source.answer looks' c) :
    o' = o.map fun r => r.map (View.asCycle · l'.cycle) := by
  replace h' := h'.congr_looks (funext fun c => (hsame c).symm)
  obtain ⟨c, e, hf⟩ | ⟨hfree, hpend | ⟨d, hd⟩⟩ := Source.answers_cases looks
  · obtain ⟨c₁, e₁, hf₁, ho, -⟩ := h.failed ⟨c, e, hf.1⟩
    obtain ⟨c₂, e₂, hf₂, ho', -⟩ := h'.failed ⟨c, e, hf.1⟩
    obtain ⟨rfl, rfl⟩ := hf₁.unique hf₂
    rw [ho, ho']
    rfl
  · rw [(h.waiting hfree hpend).1, (h'.waiting hfree hpend).1]
    rfl
  · obtain ⟨ho | ⟨ticket, hticket, -⟩, -⟩ := h.answered d hd
    · obtain ⟨ho' | ⟨ticket, hticket, -⟩, -⟩ := h'.answered d hd
      · rw [ho, ho']
        rfl
      · simp [hticket, Purpose.ticket?] at hp'
    · simp [hticket, Purpose.ticket?] at hp

namespace Session

/-! ### The main result -/

/-- **Exact cancellation.** A look cancels a load if and only if it finds the signal of the load
raised. It then looks at no collection, so nothing that these would answer matters.

At every state that a session passes through, the signal of a load is what has become of it since
the load began, whoever has moved it: from outside, or by a handler that hears of the start of the
load. Of the looks at the load just those have cancelled it that found the signal raised. Somebody
who waits for the signal behind a channel that only tells of changes, and who is looked at together
with the load, is through if and only if the load has been cancelled. A signal that nobody can
change any more stays as it is; a load whose signal is let go of before it is raised is therefore
never cancelled.

Whoever looks at a load that waits, from outside or while a handler makes calls, gets what the
signal and the answers so far say. Between the steps of a run all this is so, each step goes on
where the steps before have ended, and those that start a load or look at one do it in that way. A
load that has not been cancelled comes to the same as every other load that has been answered the
same. -/
theorem cancelled_iff_raised {γ : Type} (w : Watch γ) (policy : Policy) (clock : Instant)
    (source : Source) (handlers : List Handler) :
    let origin := fresh policy clock source handlers
    (∀ (telling : Telling) (s : Session) (l : Load),
      (∀ c, (resumeWith telling s l).2.result? = some (.error (.cancelled c)) ↔
        (s.signalOf l).raised ∧ c = l.cycle) ∧
      ((s.signalOf l).raised → s.ask l = s ∧ ∀ src : Source,
        let u := s.withSource fun _ => src
        resumeWith telling u l =
          (telling u (.cancelled l.cycle)).close l (.error (.cancelled l.cycle)))) ∧
    (∀ s, Passes origin s → ∀ l, (l.cycle, l.purpose) ∈ s.journal.begun →
      let since := s.journal.since l.cycle
      s.signalOf l = l.signalAlong since ∧
      (∀ before h after, since = before ++ h :: after → h.isLookAt l.cycle →
        ((l.signalAlong before).raised ↔ h = .note (.event (.cancelled l.cycle)))) ∧
      (∀ c, w.signal c = l.purpose.signal →
        let x := w.alongside l since c
        w.signal x.2 = s.signalOf l ∧
          (x.1 = none ↔ .cancelled l.cycle ∈ s.journal.told l.cycle)) ∧
      (∀ c m, (s.moveSignal c m).signalOf l = if c = l.cycle ∧ l.purpose.ticket? = none
        then (s.signalOf l).move m else s.signalOf l) ∧
      ((s.signalOf l).attached = false → ∀ t, Passes s t → t.signalOf l = s.signalOf l ∧
        ((s.signalOf l).raised = false → (.cancelled l.cycle ∈ t.journal.told l.cycle ↔
          .cancelled l.cycle ∈ s.journal.told l.cycle)))) ∧
    (∀ s, Passes origin s → s.Tidy → ∀ telling, Sound telling →
      (∀ id l, s.loads.lookup id = some l → ∃ t o, pollWith telling s id = some (t, o) ∧
        Obeys policy clock (s.signalOf l) (s.journal.looks l.cycle) s.source l t o) ∧
      ∀ id kind,
        let first := (s.drop id).opened telling kind
        Passes s first.1 ∧ (first.2.cycle, first.2.purpose) ∈ first.1.journal.begun ∧
        (kind = .plain → first.2.purpose = .direct ⟨false, false⟩) ∧
        (∀ signal, kind = .signalled signal → first.2.purpose = .direct signal) ∧
        Obeys policy clock (first.1.signalOf first.2) [] first.1.source first.2
          (startWith telling s id kind).1 (startWith telling s id kind).2) ∧
    (Sound tell ∧ ∀ steps,
      let s := origin.run steps
      Passes origin s ∧ s.Tidy ∧ (∀ a, Passes s (s.step a)) ∧
      (∀ id t o, pollWith tell s id = some (t, o) → s.poll id = some (t, o) ∧
        s.step (.poll id) = t) ∧
      (∀ id kind, s.start id kind = startWith tell s id kind ∧
        s.step (.start id kind) = (startWith tell s id kind).1) ∧
      ∀ telling c m, s.step (.signal c m) = s.moveSignal c m ∧
        callWith telling s (.signal c m) = s.moveSignal c m) ∧
    ∀ looks looks' l l' t t' o o', GoesBy policy clock looks l t o →
      GoesBy policy clock looks' l' t' o' → l.purpose.ticket? = none → l'.purpose.ticket? = none →
        (∀ c, Source.answer looks c = Source.answer looks' c) →
          o' = o.map fun r => r.map (View.asCycle · l'.cycle) := by
  intro origin
  refine ⟨fun telling s l => ⟨result_resumeWith_iff telling s l, fun hr => ⟨?_, fun src => ?_⟩⟩,
    fun s hs l hb => ?_, fun s hs htidy telling ht => ⟨fun id l hl => ?_, fun id kind => ?_⟩,
    ⟨tell_sound, fun steps => ?_⟩,
    fun looks looks' l l' t t' o o' h h' hp hp' hsame => h.result_eq h' hp hp' hsame⟩
  · rw [raised_signalOf] at hr
    rw [ask, if_pos hr]
  · exact resumeWith_of_raised telling hr
  · have htuned := tuned_of_fresh hs hb
    refine ⟨htuned.signal, htuned.heeded, fun c hc => htuned.alongside_iff hc,
      htuned.signalOf_moveSignal, fun hd t ht => ?_⟩
    refine htuned.of_detached (tuned_of_fresh (hs.trans ht) ?_) ht hb hd
    obtain ⟨k, hk⟩ := Passes.journal ht
    rw [hk, Journal.begun_append]
    exact List.mem_append_left _ hb
  · have hobeys := pollWith_obeys ht htidy (numbered_of_fresh hs) hl
    rwa [hs.sameSetting.policy, hs.sameSetting.clock] at hobeys
  · intro first
    obtain ⟨hp, hobeys⟩ := startWith_obeys ht htidy (numbered_of_fresh hs) id kind
    rw [hs.sameSetting.policy, hs.sameSetting.clock] at hobeys
    have hopened := opened_holds ht (htidy.drop id).tidy
      ((htidy.drop id).passes.numbered (numbered_of_fresh hs)) kind
    refine ⟨hp, hopened.2.2.1.isOpen.begun, ?_, ?_, hobeys⟩
    · rintro rfl
      rfl
    · rintro signal rfl
      rfl
  · have hs := run_leads policy clock source handlers steps
    exact ⟨hs.passes, hs.tidy, step_passes policy clock source handlers steps,
      fun id t o h => ⟨h, step_poll h⟩, fun id kind => ⟨rfl, rfl⟩, fun telling c m => ⟨rfl, rfl⟩⟩

/-- A signal that is raised and taken back between two looks cancels nothing. Once it is raised
again, the next look cancels the load, although the last collection would answer by then, and the
wait behind the channel is over. -/
theorem cancelled_when_raised_again :
    let s := (fresh {} ⟨0, 0⟩ ⟨"", {}, [.auditedMints], [], []⟩ [⟨"", .recorder⟩]).run
      [.start "a" (.signalled ⟨false, true⟩), .signal 1 (.set true), .signal 1 (.set false),
        .poll "a", .signal 1 (.set true), .release .auditedMints]
    let wait (s : Session) := (Watch.counted.alongside ⟨1, .direct ⟨false, true⟩, .none⟩
      (s.journal.since 1) ⟨⟨false, true⟩, 0, 0, le_rfl⟩).1
    (s.journal.looks 1).length = 2 ∧ s.source.held = [] ∧ wait s ≠ none ∧
      ∃ t, s.poll "a" = some (t, some (.error (.cancelled 1))) ∧ wait t = none := by
  intro s wait
  obtain ⟨-, hsignals, hlooks, ⟨htell, hruns⟩, -⟩ := cancelled_iff_raised Watch.counted {} ⟨0, 0⟩
    ⟨"", {}, [.auditedMints], [], []⟩ [⟨"", .recorder⟩]
  obtain ⟨hs, htidy, -⟩ : Passes _ s ∧ s.Tidy ∧ _ := hruns _
  have hlooked : (s.journal.looks 1).length = 2 := rfl
  have hheld : s.source.held = [] := rfl
  have htold : s.journal.told 1 = [.started 1] := rfl
  have hb : (1, .direct ⟨false, true⟩) ∈ s.journal.begun := List.mem_singleton_self _
  obtain ⟨l, hl, hcycle, hraised⟩ : ∃ l, s.loads.lookup "a" = some l ∧ l.cycle = 1 ∧
      (s.signalOf l).raised := ⟨_, rfl, rfl, rfl⟩
  clear_value s
  obtain ⟨t, o, hpoll, hobeys⟩ := (hlooks s hs htidy tell htell).1 "a" l hl
  obtain rfl := (hobeys.cancelled 1).mpr ⟨hraised, hcycle.symm⟩
  have hst := (pollWith_leads tell_sound htidy (numbered_of_fresh hs) hpoll).passes
  have hbt : (1, .direct ⟨false, true⟩) ∈ t.journal.begun := by
    obtain ⟨k, hk⟩ := hst.journal
    rw [hk, Journal.begun_append]
    exact List.mem_append_left _ hb
  have hover : ∀ u, Passes _ u → (1, .direct ⟨false, true⟩) ∈ u.journal.begun →
      (wait u = none ↔ .cancelled 1 ∈ u.journal.told 1) := fun u hu hbu =>
    ((hsignals u hu ⟨1, .direct ⟨false, true⟩, .none⟩ hbu).2.2.1 _ rfl).2
  refine ⟨hlooked, hheld, fun h => ?_, t, hpoll, (hover t (hs.trans hst) hbt).mpr ?_⟩
  · have hmem := (hover s hs hb).mp h
    simp [htold] at hmem
  · rw [← hcycle, (hobeys.stopped hraised).1]
    simp

/-- A signal that a handler raises while it hears of the start cancels the load at its first
look. -/
example :
    let s := (fresh {} ⟨0, 0⟩ ⟨"", {}, [], [], []⟩ [⟨"", .recorder⟩]).run
      [.arm [⟨0, .started, .calls [.signal 1 (.set true)]⟩]]
    (s.start "a" (.signalled ⟨false, true⟩)).2 = some (.error (.cancelled 1)) := rfl

end Session

end BridgeAudit

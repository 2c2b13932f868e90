import Mathlib.Logic.Relation
import BridgeAudit.Proofs.Session.Fetching
import BridgeAudit.Proofs.Session.Journal

/-!
A session as a sequence of moments.

A step of a session is long: one look at a load tells many events, and at each of them a hook may
begin, poll or drop other loads. Here a session is cut into moments, at each of which one thing
happens and nothing else can come in between.

* `Session.Informed`: every handler has heard all that is told of a cycle.
* `Session.Admits`, `Session.Earned`: what may be taken down next, and what a load may end with.
* `Session.Moment`, `Session.Passes`: one moment, and any number of them.
* `close_cases`, `journal_launch`, `journal_close`: what the beginning and the end of a load do.
* `Passes.journal`, `Passes.cancelled_subset`: what only grows.
* `Passes.sameSetting`: what stays as it is.
-/

namespace BridgeAudit

namespace Session

variable {s t : Session} {l : Load}

/-! ### What may happen next -/

/-- All handlers have heard what is told of a cycle. -/
def Informed (s : Session) (c : Nat) : Prop :=
  ∀ place < s.handlers.length, s.journal.heardOf place c = s.journal.told c

/-- Who has heard everything of a cycle has done so as long as nothing more is told of it. -/
lemma Informed.congr {c : Nat} (h : s.Informed c) (hh : t.handlers = s.handlers)
    (ha : t.journal.about c = s.journal.about c) : t.Informed c := by
  intro place hplace
  rw [Journal.heardOf_congr ha, Journal.told_congr ha]
  exact h place (hh ▸ hplace)

/-- A load may tell of its records: nothing but rejections has come since its start, and it was
not cancelled when the first of them came. -/
def MayRead (s : Session) (l : Load) : Prop :=
  ∃ rs, s.journal.told l.cycle = .started l.cycle :: rs ∧
    (∀ e ∈ rs, e.kind = .rejected) ∧ (rs = [] → s.isCancelled l = false)

/-- What may be taken down next, the beginning and the end of a load and the changes of signals
apart. Nothing is told of a load before all handlers have heard the last event of it, and a handler
hears of an event as long as that is the last of its cycle. -/
inductive Admits (s : Session) : Happening → Prop
  | log (line : LogLine) : Admits s (.note (.log line))
  | hook (outcome : HookOutcome) : Admits s (.hook outcome)
  | heard {place : Nat} {handler : Handler} (hplace : s.handlers[place]? = some handler)
      {e : Event}
      (hdue : s.journal.heardOf place e.cycle ++ [e] = s.journal.told e.cycle) :
      Admits s (.heard place e (handler.handle e))
  | looked {l : Load} (hl : s.journal.IsOpen l)
      (hw : s.journal.told l.cycle = [.started l.cycle]) (hc : s.isCancelled l = false) :
      Admits s (.looked l.cycle s.source)
  | dropped {l : Load} (hl : s.journal.IsOpen l) (hi : s.Informed l.cycle)
      (hw : s.journal.told l.cycle = [.started l.cycle]) : Admits s (.dropped l.cycle l.purpose)
  | started {l : Load} (hl : s.journal.IsOpen l) (hi : s.Informed l.cycle)
      (hw : s.journal.told l.cycle = []) : Admits s (.note (.event (.started l.cycle)))
  | rejected {l : Load} (hl : s.journal.IsOpen l) (hi : s.Informed l.cycle) (hr : s.MayRead l)
      (collection : Collection) (reason : String) (raw : Json) :
      Admits s (.note (.event (.rejected l.cycle collection reason raw)))
  | completed {l : Load} (hl : s.journal.IsOpen l) (hi : s.Informed l.cycle) (hr : s.MayRead l)
      (stats : Stats) : Admits s (.note (.event (.completed l.cycle stats)))
  | failed {l : Load} (hl : s.journal.IsOpen l) (hi : s.Informed l.cycle)
      (hw : s.journal.told l.cycle = [.started l.cycle]) (hc : s.isCancelled l = false)
      (text : String) : Admits s (.note (.event (.failed l.cycle text)))
  | cancelled {l : Load} (hl : s.journal.IsOpen l) (hi : s.Informed l.cycle)
      (hw : s.journal.told l.cycle = [.started l.cycle]) (hc : s.isCancelled l = true) :
      Admits s (.note (.event (.cancelled l.cycle)))

/-- What a load may end with, by what has been answered at the looks at it: the view of all the
answers, the first failure, or its cancellation. By then it has told all that belongs to that. -/
inductive Earned (s : Session) (l : Load) : Result → Prop
  | view {d : Collection → List Json}
      (hd : ∀ c, Source.answer (s.journal.looks l.cycle) c = .records (d c))
      (htold : let made := reconcile s.policy l.cycle (Collections.ofFn d) s.clock
        s.journal.told l.cycle = .started l.cycle ::
          made.rejected.map (Rejection.event l.cycle) ++ [.completed l.cycle made.view.stats]) :
      Earned s l (.ok (reconcile s.policy l.cycle (Collections.ofFn d) s.clock).view)
  | fetch {c : Collection} {e : AuditorError}
      (hf : Source.FailsFirst (s.journal.looks l.cycle) c e)
      (htold : s.journal.told l.cycle =
        [.started l.cycle, .failed l.cycle (CycleError.fetch c e).message]) :
      Earned s l (.error (.fetch c e))
  | cancelled (htold : s.journal.told l.cycle = [.started l.cycle, .cancelled l.cycle]) :
      Earned s l (.error (.cancelled l.cycle))

/-- One moment of a session. -/
inductive Moment (s : Session) : Session → Prop
  | record {h : Happening} (hh : s.Admits h) : Moment s (s.record h)
  | start (kind : Start) : Moment s (s.launch kind).1
  | cancel : Moment s s.cancel
  | signal (cycle : Nat) (m : Signal.Move) : Moment s (s.moveSignal cycle m)
  | finish {l : Load} {r : Result} (hl : s.journal.IsOpen l) (hi : s.Informed l.cycle)
      (hr : s.Earned l r) : Moment s (s.close l r).1
  /-- The source, the names of the loads, the subscribers and the hooks change. -/
  | arrange (source : Source) (loads : List (String × Load)) (subscribers : List (String × Nat))
      (hooks : List Hook) :
      Moment s
        { s with source := source, loads := loads, subscribers := subscribers, hooks := hooks }

/-- Moments one after another. -/
abbrev Passes : Session → Session → Prop := Relation.ReflTransGen Moment

/-! ### The parts of a moment -/

section Parts

variable (s : Session) (h : Happening)

@[simp] lemma policy_record : (s.record h).policy = s.policy := rfl
@[simp] lemma clock_record : (s.record h).clock = s.clock := rfl
@[simp] lemma source_record : (s.record h).source = s.source := rfl
@[simp] lemma handlers_record : (s.record h).handlers = s.handlers := rfl
@[simp] lemma journal_record : (s.record h).journal = s.journal ++ [h] := rfl
@[simp] lemma loads_record : (s.record h).loads = s.loads := rfl
@[simp] lemma cycles_record : (s.record h).cycles = s.cycles := rfl
@[simp] lemma tickets_record : (s.record h).tickets = s.tickets := rfl
@[simp] lemma slot_record : (s.record h).slot = s.slot := rfl
@[simp] lemma cancelled_record : (s.record h).cancelled = s.cancelled := rfl
@[simp] lemma signals_record : (s.record h).signals = s.signals := rfl
@[simp] lemma published_record : (s.record h).published = s.published := rfl
@[simp] lemma isCancelled_record : (s.record h).isCancelled l = s.isCancelled l := rfl

lemma told_event (e : Event) (c : Nat) : (s.record (.note (.event e))).journal.told c =
    s.journal.told c ++ [e].filter fun e => e.cycle = c := by
  simp [Journal.told, Happening.event?]

@[simp] lemma policy_clearSlot : s.clearSlot.policy = s.policy := by
  rw [clearSlot]; split <;> rfl

@[simp] lemma clock_clearSlot : s.clearSlot.clock = s.clock := by
  rw [clearSlot]; split <;> rfl

@[simp] lemma handlers_clearSlot : s.clearSlot.handlers = s.handlers := by
  rw [clearSlot]; split <;> rfl

@[simp] lemma journal_clearSlot : s.clearSlot.journal = s.journal := by
  rw [clearSlot]; split <;> rfl

@[simp] lemma loads_clearSlot : s.clearSlot.loads = s.loads := by
  rw [clearSlot]; split <;> rfl

@[simp] lemma cycles_clearSlot : s.clearSlot.cycles = s.cycles := by
  rw [clearSlot]; split <;> rfl

@[simp] lemma tickets_clearSlot : s.clearSlot.tickets = s.tickets := by
  rw [clearSlot]; split <;> rfl

@[simp] lemma signals_clearSlot : s.clearSlot.signals = s.signals := by
  rw [clearSlot]; split <;> rfl

@[simp] lemma published_clearSlot : s.clearSlot.published = s.published := by
  rw [clearSlot]; split <;> rfl

@[simp] lemma slot_clearSlot : s.clearSlot.slot = none := by
  rw [clearSlot]; split <;> simp_all

@[simp] lemma cancelled_clearSlot : s.clearSlot.cancelled = s.slot.toList ++ s.cancelled := by
  rw [clearSlot]; split <;> simp_all

variable (kind : Start)

lemma takeSlot_eq : ∃ k : Journal, k.IsLog ∧ s.takeSlot =
    { s.clearSlot with
      tickets := s.tickets + 1, slot := some (s.tickets + 1), journal := s.journal ++ k } := by
  cases hs : s.slot with
  | none => exact ⟨[], Journal.isLog_nil, by simp [takeSlot, clearSlot, hs]⟩
  | some ticket =>
      exact ⟨_, Journal.isLog_singleton (takeoverLine (s.tickets + 1)), by
        simp [takeSlot, hs, log, record]⟩

/-- A load that begins is taken down at the end of the journal, behind a log line at most. -/
lemma journal_launch : ∃ k : Journal, k.IsLog ∧ (s.launch kind).1.journal =
    s.journal ++ (k ++ [.began (s.cycles + 1) (s.launch kind).2.purpose]) := by
  cases kind with
  | reload =>
      obtain ⟨k, hk, h⟩ := s.takeSlot_eq
      exact ⟨k, hk, by simp [launch, h]⟩
  | plain => exact ⟨[], Journal.isLog_nil, by simp [launch, giveSignal]⟩
  | signalled signal => exact ⟨[], Journal.isLog_nil, by simp [launch, giveSignal]⟩

@[simp] lemma cycle_launch : (s.launch kind).2.cycle = s.cycles + 1 := by
  obtain ⟨k, -, h⟩ := s.takeSlot_eq
  cases kind <;> simp [launch, giveSignal, h]

@[simp] lemma cycles_launch : (s.launch kind).1.cycles = s.cycles + 1 := by
  obtain ⟨k, -, h⟩ := s.takeSlot_eq
  cases kind <;> simp [launch, giveSignal, h]

@[simp] lemma loads_launch : (s.launch kind).1.loads = s.loads := by
  obtain ⟨k, -, h⟩ := s.takeSlot_eq
  cases kind <;> simp [launch, giveSignal, h]

@[simp] lemma handlers_launch : (s.launch kind).1.handlers = s.handlers := by
  obtain ⟨k, -, h⟩ := s.takeSlot_eq
  cases kind <;> simp [launch, giveSignal, h]

@[simp] lemma published_launch : (s.launch kind).1.published = s.published := by
  obtain ⟨k, -, h⟩ := s.takeSlot_eq
  cases kind <;> simp [launch, giveSignal, h]

@[simp] lemma begun_launch : (s.launch kind).1.journal.begun =
    s.journal.begun ++ [(s.cycles + 1, (s.launch kind).2.purpose)] := by
  obtain ⟨k, hk, h⟩ := s.journal_launch kind
  simp [h, hk.begun, Happening.begun?]

@[simp] lemma reloads_launch : (s.launch kind).1.journal.reloads =
    s.journal.reloads ++
      (Purpose.reload? (s.cycles + 1, (s.launch kind).2.purpose)).toList := by
  simp [Journal.reloads, List.filterMap_eq_flatMap_toList]

@[simp] lemma gone_launch : (s.launch kind).1.journal.gone = s.journal.gone := by
  obtain ⟨k, hk, h⟩ := s.journal_launch kind
  simp [h, hk.gone, Happening.gone?]

@[simp] lemma about_launch (c : Nat) :
    (s.launch kind).1.journal.about c = s.journal.about c := by
  obtain ⟨k, hk, h⟩ := s.journal_launch kind
  simp [h, hk.about, Happening.about?]

/-- A new load holds a new ticket if it is a reload, and no ticket is given out otherwise. -/
lemma tickets_launch :
    ((s.launch kind).2.purpose = .reload (s.tickets + 1) ∧
      (s.launch kind).1.tickets = s.tickets + 1 ∧
      (s.launch kind).1.slot = some (s.tickets + 1) ∧
      (s.launch kind).1.cancelled = s.slot.toList ++ s.cancelled) ∨
    ((s.launch kind).2.purpose.ticket? = none ∧ (s.launch kind).1.tickets = s.tickets ∧
      (s.launch kind).1.slot = s.slot ∧ (s.launch kind).1.cancelled = s.cancelled) := by
  cases kind with
  | reload =>
      obtain ⟨k, -, h⟩ := s.takeSlot_eq
      exact .inl (by simp [launch, h])
  | plain => exact .inr ⟨rfl, rfl, rfl, rfl⟩
  | signalled signal => exact .inr ⟨rfl, rfl, rfl, rfl⟩

end Parts

/-! ### Signals -/

section Signals

variable (s : Session) (c : Nat) (m : Signal.Move)

/-- What is done to the signal of a load is taken down, and changes nothing else. -/
lemma moveSignal_cases :
    (s.signals.lookup c = none ∧ s.moveSignal c m = s) ∨
    ∃ signal, s.signals.lookup c = some signal ∧ s.moveSignal c m =
      { s with signals := (c, signal.move m) :: s.signals }.record (.signal c m) := by
  rw [moveSignal]
  cases s.signals.lookup c with
  | none => exact .inl ⟨rfl, rfl⟩
  | some signal => exact .inr ⟨signal, rfl, rfl⟩

/-- All fields but the signals and the journal stay as they are. -/
lemma moveSignal_eq : ∃ (k : Journal) (signals : List (Nat × Signal)),
    (∀ h ∈ k, h = .signal c m) ∧
      s.moveSignal c m = { s with signals := signals, journal := s.journal ++ k } := by
  obtain ⟨-, h⟩ | ⟨signal, -, h⟩ := s.moveSignal_cases c m
  · exact ⟨[], s.signals, by simp, by simp [h]⟩
  · exact ⟨[.signal c m], _, by simp, h⟩

@[simp] lemma handlers_moveSignal : (s.moveSignal c m).handlers = s.handlers := by
  obtain ⟨k, signals, -, h⟩ := s.moveSignal_eq c m
  rw [h]

@[simp] lemma loads_moveSignal : (s.moveSignal c m).loads = s.loads := by
  obtain ⟨k, signals, -, h⟩ := s.moveSignal_eq c m
  rw [h]

@[simp] lemma cycles_moveSignal : (s.moveSignal c m).cycles = s.cycles := by
  obtain ⟨k, signals, -, h⟩ := s.moveSignal_eq c m
  rw [h]

@[simp] lemma tickets_moveSignal : (s.moveSignal c m).tickets = s.tickets := by
  obtain ⟨k, signals, -, h⟩ := s.moveSignal_eq c m
  rw [h]

@[simp] lemma slot_moveSignal : (s.moveSignal c m).slot = s.slot := by
  obtain ⟨k, signals, -, h⟩ := s.moveSignal_eq c m
  rw [h]

@[simp] lemma cancelled_moveSignal : (s.moveSignal c m).cancelled = s.cancelled := by
  obtain ⟨k, signals, -, h⟩ := s.moveSignal_eq c m
  rw [h]

@[simp] lemma published_moveSignal : (s.moveSignal c m).published = s.published := by
  obtain ⟨k, signals, -, h⟩ := s.moveSignal_eq c m
  rw [h]

@[simp] lemma about_moveSignal (d : Nat) :
    (s.moveSignal c m).journal.about d = s.journal.about d := by
  obtain ⟨k, signals, hk, h⟩ := s.moveSignal_eq c m
  have hnone : Journal.about k d = [] :=
    List.filter_eq_nil_iff.mpr fun h hm => by simp [hk h hm, Happening.about?]
  simp [h, hnone]

/-- What does not look at signals finds the same as before. -/
lemma filterMap_moveSignal {α : Type} {f : Happening → Option α} (hf : f (.signal c m) = none) :
    List.filterMap f (s.moveSignal c m).journal = List.filterMap f s.journal := by
  obtain ⟨k, signals, hk, h⟩ := s.moveSignal_eq c m
  have hnone : List.filterMap f k = [] :=
    List.filterMap_eq_nil_iff.mpr fun h hm => hk h hm ▸ hf
  simp [h, hnone]

@[simp] lemma begun_moveSignal : (s.moveSignal c m).journal.begun = s.journal.begun :=
  s.filterMap_moveSignal c m rfl

@[simp] lemma gone_moveSignal : (s.moveSignal c m).journal.gone = s.journal.gone :=
  s.filterMap_moveSignal c m rfl

@[simp] lemma reloads_moveSignal : (s.moveSignal c m).journal.reloads = s.journal.reloads := by
  simp [Journal.reloads]

end Signals

/-- How a load can end: the newest reload is published, an older one is discarded, and all else
ends with what it has come to. -/
lemma close_cases (s : Session) (l : Load) (r : Result) :
    (∃ v, l.purpose = .reload s.tickets ∧ r = .ok v ∧
      s.close l r = ({ s with published := v :: s.published }.record
        (.ended l.cycle l.purpose (.ok v)), .ended (.ok v))) ∨
    (∃ ticket v, l.purpose = .reload ticket ∧ r = .ok v ∧ s.tickets ≠ ticket ∧
      s.close l r = ((s.log (discardLine v.cycle)).record
        (.ended l.cycle l.purpose (.error (.superseded v.cycle))),
        .ended (.error (.superseded v.cycle)))) ∨
    ((∀ ticket v, l.purpose = .reload ticket → r ≠ .ok v) ∧
      s.close l r = (s.record (.ended l.cycle l.purpose r), .ended r)) := by
  cases hp : l.purpose with
  | direct signal => exact .inr (.inr ⟨by simp, by simp [close, hp]⟩)
  | reload ticket =>
      cases r with
      | error e => exact .inr (.inr ⟨by simp, by simp [close, hp]⟩)
      | ok v =>
          by_cases ht : s.tickets = ticket
          · exact .inl ⟨v, by rw [ht], rfl, by simp [close, publish, hp, ht]⟩
          · exact .inr (.inl ⟨ticket, v, rfl, rfl, ht, by simp [close, publish, hp, ht]⟩)

section Close

variable (s : Session) (l : Load) (r : Result)

@[simp] lemma loads_close : (s.close l r).1.loads = s.loads := by
  obtain ⟨v, -, -, h⟩ | ⟨_, v, -, -, -, h⟩ | ⟨-, h⟩ := s.close_cases l r <;> simp [h, log]

@[simp] lemma cycles_close : (s.close l r).1.cycles = s.cycles := by
  obtain ⟨v, -, -, h⟩ | ⟨_, v, -, -, -, h⟩ | ⟨-, h⟩ := s.close_cases l r <;> simp [h, log]

@[simp] lemma tickets_close : (s.close l r).1.tickets = s.tickets := by
  obtain ⟨v, -, -, h⟩ | ⟨_, v, -, -, -, h⟩ | ⟨-, h⟩ := s.close_cases l r <;> simp [h, log]

@[simp] lemma slot_close : (s.close l r).1.slot = s.slot := by
  obtain ⟨v, -, -, h⟩ | ⟨_, v, -, -, -, h⟩ | ⟨-, h⟩ := s.close_cases l r <;> simp [h, log]

@[simp] lemma cancelled_close : (s.close l r).1.cancelled = s.cancelled := by
  obtain ⟨v, -, -, h⟩ | ⟨_, v, -, -, -, h⟩ | ⟨-, h⟩ := s.close_cases l r <;> simp [h, log]

@[simp] lemma signals_close : (s.close l r).1.signals = s.signals := by
  obtain ⟨v, -, -, h⟩ | ⟨_, v, -, -, -, h⟩ | ⟨-, h⟩ := s.close_cases l r <;> simp [h, log]

@[simp] lemma handlers_close : (s.close l r).1.handlers = s.handlers := by
  obtain ⟨v, -, -, h⟩ | ⟨_, v, -, -, -, h⟩ | ⟨-, h⟩ := s.close_cases l r <;> simp [h, log]

/-- A load that ends is taken down at the end of the journal, behind a log line at most. -/
lemma journal_close : ∃ (k : Journal) (r' : Result), k.IsLog ∧ (s.close l r).2 = .ended r' ∧
    (s.close l r).1.journal = s.journal ++ (k ++ [.ended l.cycle l.purpose r']) := by
  obtain ⟨v, -, -, h⟩ | ⟨_, v, -, -, -, h⟩ | ⟨-, h⟩ := s.close_cases l r
  · exact ⟨[], .ok v, Journal.isLog_nil, by simp [h]⟩
  · exact ⟨_, .error (.superseded v.cycle), Journal.isLog_singleton (discardLine v.cycle),
      by simp [h, log]⟩
  · exact ⟨[], r, Journal.isLog_nil, by simp [h]⟩

@[simp] lemma begun_close : (s.close l r).1.journal.begun = s.journal.begun := by
  obtain ⟨k, r', hk, -, h⟩ := s.journal_close l r
  simp [h, hk.begun, Happening.begun?]

@[simp] lemma gone_close : (s.close l r).1.journal.gone = s.journal.gone ++ [l.cycle] := by
  obtain ⟨k, r', hk, -, h⟩ := s.journal_close l r
  simp [h, hk.gone, Happening.gone?]

@[simp] lemma about_close (c : Nat) :
    (s.close l r).1.journal.about c = s.journal.about c := by
  obtain ⟨k, r', hk, -, h⟩ := s.journal_close l r
  simp [h, hk.about, Happening.about?]

end Close

/-! ### What only grows -/

/-- The line that a moment takes down is neither the beginning nor the end of a load that
returns something. -/
lemma Admits.begun_eq {h : Happening} (hh : s.Admits h) : h.begun? = none := by
  cases hh <;> rfl

lemma Admits.view_eq {h : Happening} (hh : s.Admits h) : h.view? = none := by
  cases hh <;> rfl

/-- What is told belongs to an open load, and everyone has heard all that was told of it before. -/
lemma Admits.of_event {e : Event} (ha : s.Admits (.note (.event e))) :
    ∃ l, e.cycle = l.cycle ∧ s.journal.IsOpen l ∧ s.Informed l.cycle := by
  cases ha with
  | started hl hi | rejected hl hi | completed hl hi | failed hl hi | cancelled hl hi =>
      exact ⟨_, rfl, hl, hi⟩

lemma Moment.journal (h : Moment s t) : ∃ k, t.journal = s.journal ++ k := by
  cases h with
  | @record h hh => exact ⟨[h], rfl⟩
  | start kind =>
      obtain ⟨k, -, h⟩ := s.journal_launch kind
      exact ⟨_, h⟩
  | cancel => exact ⟨[.cancel], by simp [Session.cancel]⟩
  | signal c m =>
      obtain ⟨k, signals, -, h⟩ := s.moveSignal_eq c m
      exact ⟨k, by rw [h]⟩
  | @finish l r hl hi hr =>
      obtain ⟨k, r', -, -, h⟩ := s.journal_close l r
      exact ⟨_, h⟩
  | arrange source loads subscribers hooks => exact ⟨[], by simp⟩

/-- A moment is the end of a load, or it ends none. -/
lemma Moment.ends_or (h : Moment s t) :
    (∃ l r, s.journal.IsOpen l ∧ s.Informed l.cycle ∧ s.Earned l r ∧ t = (s.close l r).1) ∨
      ∃ k, t.journal = s.journal ++ k ∧ ∀ c p r, .ended c p r ∉ k := by
  cases h with
  | @record h hh =>
      refine .inr ⟨[h], rfl, fun c p r hm => ?_⟩
      obtain rfl := List.mem_singleton.mp hm
      cases hh
  | start kind =>
      obtain ⟨k, hk, hj⟩ := s.journal_launch kind
      exact .inr ⟨_, hj, by simp [hk.notMem]⟩
  | cancel => exact .inr ⟨[.cancel], by simp [Session.cancel], by simp⟩
  | signal d m =>
      obtain ⟨k, signals, hk, h⟩ := s.moveSignal_eq d m
      refine .inr ⟨k, by rw [h], fun c p r hm => ?_⟩
      cases hk _ hm
  | finish hl hi hr => exact .inl ⟨_, _, hl, hi, hr, rfl⟩
  | arrange source loads subscribers hooks => exact .inr ⟨[], by simp, by simp⟩

lemma Passes.journal (h : Passes s t) : ∃ k, t.journal = s.journal ++ k := by
  induction h with
  | refl => exact ⟨[], by simp⟩
  | tail _ hm ih =>
      obtain ⟨k, hk⟩ := ih
      obtain ⟨k', hk'⟩ := hm.journal
      exact ⟨k ++ k', by rw [hk', hk, List.append_assoc]⟩

lemma Passes.reloads_subset (h : Passes s t) : s.journal.reloads ⊆ t.journal.reloads := by
  obtain ⟨k, hk⟩ := Passes.journal h
  simp [hk]

lemma Moment.cancelled_subset (h : Moment s t) : s.cancelled ⊆ t.cancelled := by
  cases h with
  | start kind =>
      obtain ⟨-, -, -, h⟩ | ⟨-, -, -, h⟩ := s.tickets_launch kind <;> simp [h]
  | cancel => simp [Session.cancel]
  | signal c m => simp
  | finish => simp
  | _ => exact fun _ h => h

lemma Moment.tickets_le (h : Moment s t) : s.tickets ≤ t.tickets := by
  cases h with
  | start kind =>
      obtain ⟨-, h, -⟩ | ⟨-, h, -⟩ := s.tickets_launch kind <;> simp [h]
  | cancel => simp [Session.cancel]
  | signal c m => simp
  | finish => simp
  | _ => exact le_rfl

/-- A reload that has been cancelled stays so. -/
lemma Passes.cancelled_subset (h : Passes s t) : s.cancelled ⊆ t.cancelled := by
  induction h with
  | refl => exact fun _ h => h
  | tail _ hm ih => exact fun c hc => hm.cancelled_subset (ih hc)

/-! ### What stays -/

lemma Admits.told_of_gone {h : Happening} (hh : s.Admits h) {c : Nat}
    (hc : c ∈ s.journal.gone) : (s.record h).journal.told c = s.journal.told c := by
  cases he : h.event? with
  | none => simp [he]
  | some e =>
      -- the event belongs to a load that is not over
      obtain rfl := Happening.event?_eq_some.mp he
      obtain ⟨l, hcycle, hl, -⟩ := hh.of_event
      have hne : e.cycle ≠ c := fun heq => hl.notGone (hcycle ▸ heq ▸ hc)
      simp [he, hne]

lemma Admits.looks_of_gone {h : Happening} (hh : s.Admits h) {c : Nat}
    (hc : c ∈ s.journal.gone) : (s.record h).journal.looks c = s.journal.looks c := by
  cases hh with
  | @looked l hl hw hcancel =>
      have hne : l.cycle ≠ c := fun heq => hl.notGone (heq ▸ hc)
      simp [Happening.look?, hne]
  | _ => simp [Happening.look?]

/-- Nothing is told of a load that is over, and nobody looks at its collections. -/
lemma Moment.told_of_gone (h : Moment s t) {c : Nat} (hc : c ∈ s.journal.gone) :
    t.journal.told c = s.journal.told c ∧ t.journal.looks c = s.journal.looks c := by
  cases h with
  | record hh => exact ⟨hh.told_of_gone hc, hh.looks_of_gone hc⟩
  | start kind =>
      have ha := about_launch s kind c
      exact ⟨Journal.told_congr ha, Journal.looks_congr ha⟩
  | cancel => simp [Session.cancel, Happening.event?, Happening.look?]
  | signal d m =>
      have ha := about_moveSignal s d m c
      exact ⟨Journal.told_congr ha, Journal.looks_congr ha⟩
  | @finish l r hl hi hr =>
      have ha := about_close s l r c
      exact ⟨Journal.told_congr ha, Journal.looks_congr ha⟩
  | arrange source loads subscribers hooks => exact ⟨rfl, rfl⟩

/-- No moment changes the policy, the clock or the handlers. -/
structure SameSetting (s t : Session) : Prop where
  policy : t.policy = s.policy
  clock : t.clock = s.clock
  handlers : t.handlers = s.handlers

lemma Moment.sameSetting (h : Moment s t) : SameSetting s t := by
  cases h with
  | start kind =>
      obtain ⟨k, -, h⟩ := s.takeSlot_eq
      cases kind <;> exact ⟨by simp [launch, giveSignal, h], by simp [launch, giveSignal, h],
        by simp [launch, giveSignal, h]⟩
  | cancel => exact ⟨by simp [Session.cancel], by simp [Session.cancel], by simp [Session.cancel]⟩
  | signal c m =>
      obtain ⟨k, signals, -, h⟩ := s.moveSignal_eq c m
      exact ⟨by rw [h], by rw [h], by rw [h]⟩
  | @finish l r hl hi hr =>
      obtain ⟨v, -, -, h⟩ | ⟨_, v, -, -, -, h⟩ | ⟨-, h⟩ := s.close_cases l r <;>
        exact ⟨by simp [h, log], by simp [h, log], by simp [h, log]⟩
  | _ => exact ⟨rfl, rfl, rfl⟩

lemma Passes.sameSetting (h : Passes s t) : SameSetting s t := by
  induction h with
  | refl => exact ⟨rfl, rfl, rfl⟩
  | tail _ hm ih =>
      have hm := hm.sameSetting
      exact ⟨hm.policy.trans ih.policy, hm.clock.trans ih.clock, hm.handlers.trans ih.handlers⟩

end Session

end BridgeAudit

import BridgeAudit.Proofs.Session.Slot
import BridgeAudit.Proofs.Session.Watch

/-!
The signals of loads in the course of a session.

* `Session.signalOf`: the signal that a load goes by.
* `Journal.since`: what has happened since a load began. `Load.signalAlong` is the signal that comes
  of it.
* `Session.Tuned`, `tuned_of_fresh`: this is the signal of the load at any time, and those looks
  find it raised that cancel the load.
* `Tuned.of_detached`: a signal that nobody can change stays as it is.
* `Watch.alongside`: somebody who waits for the signal behind a channel, side by side with the load.
  `Tuned.alongside_iff` says that the wait is over if and only if the load has been cancelled.
-/

namespace BridgeAudit

/-! ### What is done to a signal -/

/-- The signal that a load begins with. That of a reload can still be raised. -/
def Purpose.signal : Purpose → Signal
  | reload _ => ⟨false, true⟩
  | direct signal => signal

/-- What a line does to the signal of a load. A reload is cancelled once and for all, by whoever
cancels or starts another one. -/
def Happening.moves (l : Load) (h : Happening) : List Signal.Move :=
  match l.purpose, h with
  | .direct _, .signal c m => if c = l.cycle then [m] else []
  | .reload _, .cancel => [.set true, .detach]
  | .reload _, .began _ (.reload _) => [.set true, .detach]
  | _, _ => []

/-- The load of a cycle is looked at here. -/
def Happening.isLookAt (c : Nat) : Happening → Bool
  | looked d _ => d = c
  | note (.event (.cancelled d)) => d = c
  | _ => false

/-- What the signal of a load has become after some lines. -/
def Load.signalAlong (l : Load) (j : Journal) : Signal :=
  (j.flatMap (Happening.moves l)).foldl Signal.move l.purpose.signal

section Moves

variable {l : Load} {j k : Journal} {h : Happening}

lemma Load.signalAlong_append (l : Load) (j k : Journal) :
    l.signalAlong (j ++ k) =
      (k.flatMap (Happening.moves l)).foldl Signal.move (l.signalAlong j) := by
  simp [signalAlong]

@[simp] lemma Happening.moves_note (l : Load) (n : Note) : moves l (.note n) = [] := by
  cases hp : l.purpose <;> simp [moves, hp]

@[simp] lemma Happening.moves_ended (l : Load) (c : Nat) (p : Purpose) (r : Result) :
    moves l (.ended c p r) = [] := by
  cases hp : l.purpose <;> simp [moves, hp]

/-- A look changes nothing of a signal. -/
lemma Happening.moves_of_isLookAt (h : Happening) {c : Nat} (hlook : h.isLookAt c) :
    h.moves l = [] := by
  cases h with
  | note n => exact moves_note l n
  | looked d src => cases hp : l.purpose <;> simp [moves, hp]
  | _ => cases hlook

lemma Journal.IsLog.moves (hk : k.IsLog) (l : Load) : k.flatMap (Happening.moves l) = [] := by
  refine List.flatMap_eq_nil_iff.mpr fun h hm => ?_
  obtain ⟨line, rfl⟩ := hk h hm
  exact Happening.moves_note l _

lemma Signal.foldl_move_of_detached {signal : Signal} (h : signal.attached = false)
    (moves : List Move) : moves.foldl move signal = signal := by
  induction moves with
  | nil => rfl
  | cons m moves ih =>
      have hsame : signal.move m = signal := by cases m <;> simp [move, h]
      rw [List.foldl_cons, hsame, ih]

end Moves

/-! ### Since a load began -/

namespace Journal

variable {j k : Journal} {c : Nat} {p : Purpose}

/-- The lines behind the beginning of a load. -/
def since (j : Journal) (c : Nat) : Journal :=
  (j.dropWhile fun h => !h.begun?.any fun b => b.1 = c).tail

lemma since_append (hc : c ∈ j.begun.map Prod.fst) (k : Journal) :
    (j ++ k).since c = j.since c ++ k := by
  induction j with
  | nil => cases hc
  | cons h j ih =>
      cases hb : h.begun? with
      | none =>
          have hc' : c ∈ (begun j).map Prod.fst := by simpa [hb] using hc
          simpa [since, hb] using ih hc'
      | some b =>
          by_cases hbc : b.1 = c
          · simp [since, hb, hbc]
          · have hc' : c ∈ (begun j).map Prod.fst := by simpa [hb, Ne.symm hbc] using hc
            simpa [since, hb, hbc] using ih hc'

/-- A load that has just begun has nothing behind it. -/
lemma since_concat (hc : c ∉ j.begun.map Prod.fst) :
    since (j ++ [Happening.began c p]) c = [] := by
  have hall : ∀ h ∈ j, (!h.begun?.any fun b => b.1 = c) = true := by
    intro h hm
    cases hb : h.begun? with
    | none => rfl
    | some b =>
        have hne : b.1 ≠ c := fun heq =>
          hc (List.mem_map.mpr ⟨b, List.mem_filterMap.mpr ⟨h, hm, hb⟩, heq⟩)
        simp [hne]
  rw [since, List.dropWhile_append_of_pos hall]
  simp [Happening.begun?]

end Journal

namespace Session

variable {s t : Session} {l l' : Load} {j k : Journal}

/-! ### The signal of a load -/

/-- The signal that a load goes by. -/
def signalOf (s : Session) (l : Load) : Signal :=
  match l.purpose with
  | .reload ticket => ⟨s.cancelled.contains ticket, !s.cancelled.contains ticket⟩
  | .direct _ => (s.signals.lookup l.cycle).getD ⟨false, false⟩

lemma raised_signalOf (s : Session) (l : Load) : (s.signalOf l).raised = s.isCancelled l := by
  rw [signalOf, isCancelled]
  cases l.purpose with
  | reload ticket => rfl
  | direct signal => cases s.signals.lookup l.cycle <;> rfl

lemma isCancelled_congr (s : Session) (hc : l'.cycle = l.cycle) (hp : l'.purpose = l.purpose) :
    s.isCancelled l' = s.isCancelled l := by
  rw [isCancelled, isCancelled, hc, hp]

/-- At any time the signal of a load is what has become of it since the load began, and of the
looks at the load just those find it raised that cancel the load. -/
structure Tuned (s : Session) (l : Load) : Prop where
  given : ∀ signal, l.purpose = .direct signal → (s.signals.lookup l.cycle).isSome
  signal : s.signalOf l = l.signalAlong (s.journal.since l.cycle)
  told : (s.journal.since l.cycle).told l.cycle = s.journal.told l.cycle
  heeded : (s.journal.since l.cycle).Each fun before h => h.isLookAt l.cycle →
    ((l.signalAlong before).raised ↔ h = .note (.event (.cancelled l.cycle)))

/-- The journal grows by something that is no look. -/
lemma Tuned.append (h : s.Tuned l) (hb : (l.cycle, l.purpose) ∈ s.journal.begun)
    (hj : t.journal = s.journal ++ k)
    (hgiven : (s.signals.lookup l.cycle).isSome → (t.signals.lookup l.cycle).isSome)
    (hsignal : t.signalOf l = (k.flatMap (Happening.moves l)).foldl Signal.move (s.signalOf l))
    (hk : ∀ h ∈ k, h.isLookAt l.cycle = false) : t.Tuned l := by
  have hsince : t.journal.since l.cycle = s.journal.since l.cycle ++ k := by
    rw [hj, Journal.since_append (List.mem_map_of_mem hb)]
  refine ⟨fun signal hp => hgiven (h.given signal hp), ?_, ?_, ?_⟩
  · rw [hsignal, hsince, Load.signalAlong_append, h.signal]
  · rw [hsince, hj, Journal.told_append, Journal.told_append, h.told]
  · rw [hsince]
    refine h.heeded.append fun g hg before hlook => ?_
    rw [hk g hg] at hlook
    cases hlook

/-- One more line that changes no signal. If it is a look, it cancels the load just if it finds its
signal raised. -/
lemma Tuned.record (h : s.Tuned l) (hn : s.Numbered)
    (hb : (l.cycle, l.purpose) ∈ s.journal.begun) {line : Happening} (hh : s.Admits line) :
    (s.record line).Tuned l := by
  have hsince : (s.record line).journal.since l.cycle = s.journal.since l.cycle ++ [line] :=
    Journal.since_append (List.mem_map_of_mem hb) _
  have hmoves : line.moves l = [] := by
    cases hp : l.purpose <;> cases hh <;> simp [Happening.moves, hp]
  refine ⟨h.given, ?_, ?_, ?_⟩
  · rw [hsince, Load.signalAlong_append, List.flatMap_singleton, hmoves, ← h.signal]
    rfl
  · rw [hsince, Journal.told_append, h.told, journal_record, Journal.told_append]
  · rw [hsince]
    refine Journal.each_concat.mpr ⟨h.heeded, fun hlook => ?_⟩
    rw [← h.signal, raised_signalOf]
    cases hh with
    | @looked l' hl hw hc =>
        have hcycle : l'.cycle = l.cycle := of_decide_eq_true hlook
        have hp : l'.purpose = l.purpose := hn.purpose_unique (hcycle ▸ hl.begun) hb
        rw [← s.isCancelled_congr hcycle hp, hc]
        simp
    | @cancelled l' hl hi hw hc =>
        have hcycle : l'.cycle = l.cycle := of_decide_eq_true hlook
        have hp : l'.purpose = l.purpose := hn.purpose_unique (hcycle ▸ hl.begun) hb
        rw [← s.isCancelled_congr hcycle hp, hc, hcycle]
        simp
    | _ => cases hlook

/-! ### Cancelling and starting reloads -/

/-- A reload that is cancelled has its signal raised for good. -/
lemma signalOf_of_cancelled {ticket : Nat} (hp : l.purpose = .reload ticket)
    (hc : ticket ∈ t.cancelled) :
    t.signalOf l = [Signal.Move.set true, .detach].foldl Signal.move (s.signalOf l) := by
  have hs : s.signalOf l = ⟨s.cancelled.contains ticket, !s.cancelled.contains ticket⟩ := by
    rw [signalOf, hp]
  rw [hs, signalOf, hp]
  cases s.cancelled.contains ticket <;> simp [hc, Signal.move]

/-- Whoever empties the slot cancels every reload so far. -/
lemma Slotted.mem_cancelled (hs : s.Slotted) {ticket : Nat} (hp : l.purpose = .reload ticket)
    (hb : (l.cycle, l.purpose) ∈ s.journal.begun)
    (hc : t.cancelled = s.slot.toList ++ s.cancelled) : ticket ∈ t.cancelled := by
  rw [hp] at hb
  rw [hc, List.mem_append, Option.mem_toList]
  exact (hs.cancelled _ (Journal.mem_reloads.mpr hb)).symm

lemma Tuned.cancel (h : s.Tuned l) (hs : s.Slotted)
    (hb : (l.cycle, l.purpose) ∈ s.journal.begun) : s.cancel.Tuned l := by
  refine h.append hb (k := [.cancel]) (by simp [Session.cancel]) (by simp [Session.cancel]) ?_
    (by simp [Happening.isLookAt])
  cases hp : l.purpose with
  | reload ticket =>
      have hc := hs.mem_cancelled (t := s.cancel) hp hb (by simp [Session.cancel])
      simpa [Happening.moves, hp] using signalOf_of_cancelled hp hc
  | direct signal => simp [signalOf, Happening.moves, hp, Session.cancel]

/-- A load that begins leaves the signals of the others alone. -/
lemma lookup_signals_launch (s : Session) (kind : Start) {c : Nat} (hc : c ≤ s.cycles) :
    (s.launch kind).1.signals.lookup c = s.signals.lookup c := by
  have hne : (c == s.cycles + 1) = false := by simpa using (by omega : c ≠ s.cycles + 1)
  obtain ⟨k, -, h⟩ := s.takeSlot_eq
  cases kind <;> simp [launch, giveSignal, h, List.lookup_cons, hne]

lemma Tuned.launch (h : s.Tuned l) (hn : s.Numbered) (hs : s.Slotted)
    (hb : (l.cycle, l.purpose) ∈ s.journal.begun) (kind : Start) :
    (s.launch kind).1.Tuned l := by
  have hle : l.cycle ≤ s.cycles := by
    have hm : l.cycle ∈ s.journal.begun.map Prod.fst := List.mem_map_of_mem hb
    rw [hn.cycles, List.mem_range'_1] at hm
    omega
  obtain ⟨k, hk, hj⟩ := s.journal_launch kind
  have hlookup := s.lookup_signals_launch kind hle
  refine h.append hb hj (by rw [hlookup]; exact id) ?_ (hk.forall_concat (fun _ => rfl) rfl)
  · rw [List.flatMap_append, hk.moves, List.nil_append, List.flatMap_singleton]
    cases hp : l.purpose with
    | direct signal =>
        have hsame : (s.launch kind).1.signalOf l = s.signalOf l := by
          simp [signalOf, hp, hlookup]
        simpa [Happening.moves, hp] using hsame
    | reload ticket =>
        obtain ⟨hpl, -, -, hc⟩ | ⟨hpl, -, -, hc⟩ := s.tickets_launch kind
        · rw [hpl]
          have hmem := hs.mem_cancelled hp hb hc
          simpa [Happening.moves, hp] using signalOf_of_cancelled (s := s) hp hmem
        · have hsame : (s.launch kind).1.signalOf l = s.signalOf l := by simp [signalOf, hp, hc]
          cases hq : (s.launch kind).2.purpose with
          | reload ticket' => simp [hq, Purpose.ticket?] at hpl
          | direct signal => simpa [Happening.moves, hp] using hsame

/-- A load that has just begun has its first signal. -/
lemma tuned_launch (hn : s.Numbered) (hs : s.Slotted) (kind : Start)
    (hc : l.cycle = s.cycles + 1) (hp : l.purpose = (s.launch kind).2.purpose) :
    (s.launch kind).1.Tuned l := by
  obtain ⟨k, hk, hj⟩ := s.journal_launch kind
  have hnew : s.cycles + 1 ∉ (s.journal ++ k).begun.map Prod.fst := by
    rw [Journal.begun_append, hk.begun, List.append_nil, hn.cycles, List.mem_range'_1]
    omega
  have hsince : (s.launch kind).1.journal.since l.cycle = [] := by
    rw [hj, ← List.append_assoc, hc, Journal.since_concat hnew]
  have htold : (s.launch kind).1.journal.told l.cycle = [] := by
    refine Journal.told_congr (k := []) ?_
    rw [about_launch, hc, hn.about_new _ (Nat.lt_succ_self _)]
    rfl
  have hsignals : ∀ signal, (s.launch kind).2.purpose = .direct signal →
      (s.launch kind).1.signals.lookup (s.cycles + 1) = some signal := by
    intro signal hq
    cases kind <;> simp_all [Session.launch, giveSignal]
  refine ⟨fun signal hd => ?_, ?_, by rw [hsince, htold]; rfl, hsince ▸ Journal.each_nil _⟩
  · rw [hc, hsignals signal (hp ▸ hd)]
    rfl
  · rw [hsince, signalOf]
    cases hd : l.purpose with
    | reload ticket =>
        obtain ⟨hq, -, -, hcancelled⟩ | ⟨hq, -⟩ := s.tickets_launch kind
        · have hno : s.tickets + 1 ∉ (s.launch kind).1.cancelled := fun h => by
            have := hs.issued_slot (hcancelled ▸ h)
            omega
          obtain rfl : ticket = s.tickets + 1 := by simpa [← hp, hd] using hq
          simp [Load.signalAlong, Purpose.signal, hd, hno]
        · simp [← hp, hd, Purpose.ticket?] at hq
    | direct signal =>
        rw [hc, hsignals signal (hp ▸ hd)]
        simp [Load.signalAlong, Purpose.signal, hd]

/-! ### Moves from outside -/

/-- Whoever does something to the signal of a load makes just that move, and changes no other. -/
lemma Tuned.signalOf_moveSignal (h : s.Tuned l) (c : Nat) (m : Signal.Move) :
    (s.moveSignal c m).signalOf l = if c = l.cycle ∧ l.purpose.ticket? = none
      then (s.signalOf l).move m else s.signalOf l := by
  cases hp : l.purpose with
  | reload ticket => simp [signalOf, hp, Purpose.ticket?]
  | direct signal =>
      obtain ⟨hno, hsame⟩ | ⟨signal', hsome, hsame⟩ := s.moveSignal_cases c m
      · have hne : c ≠ l.cycle := by
          rintro rfl
          have hgiven := h.given signal hp
          rw [hno] at hgiven
          cases hgiven
        simp [hsame, hne]
      · by_cases hc : c = l.cycle
        · subst hc
          simp [hsame, signalOf, hp, hsome, Purpose.ticket?]
        · have hne : (l.cycle == c) = false := by simpa using Ne.symm hc
          simp [hsame, signalOf, hp, hc, List.lookup_cons, hne]

lemma Tuned.moveSignal (h : s.Tuned l) (hb : (l.cycle, l.purpose) ∈ s.journal.begun) (c : Nat)
    (m : Signal.Move) : (s.moveSignal c m).Tuned l := by
  have hmoved := h.signalOf_moveSignal c m
  obtain ⟨hno, hsame⟩ | ⟨signal, hsome, hsame⟩ := s.moveSignal_cases c m
  · rwa [hsame]
  · refine h.append hb (k := [.signal c m]) (by simp [hsame]) ?_ ?_ (by simp [Happening.isLookAt])
    · rw [hsame]
      by_cases hc : l.cycle = c
      · simp [hc]
      · have hne : (l.cycle == c) = false := by simpa using hc
        simp [List.lookup_cons, hne]
    · rw [hmoved, List.flatMap_singleton]
      cases hp : l.purpose with
      | reload ticket => simp [Happening.moves, hp, Purpose.ticket?]
      | direct signal =>
          by_cases hc : c = l.cycle <;> simp [Happening.moves, hp, hc, Purpose.ticket?]

/-! ### Throughout a session -/

lemma Moment.tuned (hm : Moment s t) (hn : s.Numbered) (hs : s.Slotted)
    (h : ∀ l, (l.cycle, l.purpose) ∈ s.journal.begun → s.Tuned l) :
    ∀ l, (l.cycle, l.purpose) ∈ t.journal.begun → t.Tuned l := by
  intro l hb
  cases hm with
  | record hh =>
      have hb' : (l.cycle, l.purpose) ∈ s.journal.begun := by simpa [hh.begun_eq] using hb
      exact (h l hb').record hn hb' hh
  | start kind =>
      rw [begun_launch, List.mem_append, List.mem_singleton] at hb
      rcases hb with hb | hb
      · exact (h l hb).launch hn hs hb kind
      · obtain ⟨hc, hp⟩ := Prod.mk.inj hb
        exact tuned_launch hn hs kind hc hp
  | cancel =>
      have hb' : (l.cycle, l.purpose) ∈ s.journal.begun := by
        simpa [Session.cancel, Happening.begun?] using hb
      exact (h l hb').cancel hs hb'
  | signal c m =>
      have hb' : (l.cycle, l.purpose) ∈ s.journal.begun := by simpa using hb
      exact (h l hb').moveSignal hb' c m
  | @finish l' r hl hi hr =>
      have hb' : (l.cycle, l.purpose) ∈ s.journal.begun := by simpa using hb
      obtain ⟨k, r', hk, -, hj⟩ := s.journal_close l' r
      have hsame : (s.close l' r).1.signalOf l = s.signalOf l := by
        simp only [signalOf, cancelled_close, signals_close]
      exact (h l hb').append hb' hj (by rw [signals_close]; exact id)
        (by simpa [hk.moves] using hsame) (hk.forall_concat (fun _ => rfl) rfl)
  | arrange source loads subscribers hooks =>
      exact ⟨(h l hb).given, (h l hb).signal, (h l hb).told, (h l hb).heeded⟩

lemma tuned_of_fresh {policy : Policy} {clock : Instant} {source : Source}
    {handlers : List Handler} (h : Passes (fresh policy clock source handlers) s)
    (hb : (l.cycle, l.purpose) ∈ s.journal.begun) : s.Tuned l :=
  h.invariant (P := fun s => ∀ l : Load, (l.cycle, l.purpose) ∈ s.journal.begun → s.Tuned l)
    (fun _ hb => absurd hb List.not_mem_nil)
    (fun hp hm hs => hm.tuned (numbered_of_fresh hp) (slotted_of_fresh hp) hs) l hb

/-! ### Signals that nobody can change -/

/-- A signal that nobody can change stays as it is, and if it is not raised, the load is not
cancelled any more. -/
lemma Tuned.of_detached (hs : s.Tuned l) (ht : t.Tuned l) (hp : Passes s t)
    (hb : (l.cycle, l.purpose) ∈ s.journal.begun) (hd : (s.signalOf l).attached = false) :
    t.signalOf l = s.signalOf l ∧ ((s.signalOf l).raised = false →
      (.cancelled l.cycle ∈ t.journal.told l.cycle ↔
        .cancelled l.cycle ∈ s.journal.told l.cycle)) := by
  obtain ⟨k, hk⟩ := hp.journal
  have hsince : t.journal.since l.cycle = s.journal.since l.cycle ++ k := by
    rw [hk, Journal.since_append (List.mem_map_of_mem hb)]
  have halong : ∀ k' : Journal, l.signalAlong (s.journal.since l.cycle ++ k') = s.signalOf l := by
    intro k'
    rw [Load.signalAlong_append, ← hs.signal, Signal.foldl_move_of_detached hd]
  refine ⟨by rw [ht.signal, hsince, halong], fun hlow => ?_⟩
  rw [hk, Journal.told_append, List.mem_append, or_iff_left]
  intro hm
  -- the look that cancels the load would find its signal raised
  obtain ⟨before, after, rfl⟩ := List.append_of_mem (Journal.mem_told.mp hm).1
  have hraised := (ht.heeded (s.journal.since l.cycle ++ before) _ after (by simp [hsince])
    (by simp [Happening.isLookAt])).mpr rfl
  rw [halong, hlow] at hraised
  cases hraised

end Session

/-! ### Side by side with a channel -/

namespace Watch

variable {γ : Type} (w : Watch γ) (l : Load) {x : Option Wait × γ} {j : Journal} {c : γ}

/-- What is done to the signal of a load is done to a channel, and whoever waits behind the channel
is looked at together with the load. Once the wait is over, it is `none`. -/
def follow (x : Option Wait × γ) (h : Happening) : Option Wait × γ :=
  let c := (h.moves l).foldl w.move x.2
  match x.1 with
  | some a => if h.isLookAt l.cycle then w.look a c else (some a, c)
  | none => (none, c)

/-- A wait that goes on beside a load. -/
def alongside (j : Journal) (c : γ) : Option Wait × γ := j.foldl (w.follow l) (some .reading, c)

/-- The channel shows the signal of the load, and the wait goes on until a look finds it raised. -/
structure Keeps (j : Journal) (x : Option Wait × γ) : Prop where
  signal : w.signal x.2 = l.signalAlong j
  heeds : ∀ a, x.1 = some a → w.Heeds a x.2
  goesOn : x.1.isSome ↔
    j.Each fun before h => h.isLookAt l.cycle → (l.signalAlong before).raised = false

variable {w l}

/-- One more line. Only a look at the load can end the wait. -/
lemma Keeps.follow (h : w.Keeps l j x) (line : Happening) :
    w.Keeps l (j ++ [line]) (w.follow l x line) := by
  obtain ⟨a, c⟩ := x
  have hmoved : w.signal ((line.moves l).foldl w.move c) = l.signalAlong (j ++ [line]) := by
    rw [signal_foldl_move, Load.signalAlong_append, List.flatMap_singleton, ← h.signal]
  cases a with
  | none =>
      refine ⟨hmoved, nofun, iff_of_false Bool.false_ne_true fun hE => ?_⟩
      exact absurd (h.goesOn.mpr (Journal.each_concat.mp hE).1) Bool.false_ne_true
  | some a =>
      have hE := h.goesOn.mp rfl
      by_cases hlook : line.isLookAt l.cycle
      · have hmoves := line.moves_of_isLookAt (l := l) hlook
        obtain ⟨hover, hsame, hheeds⟩ := (h.heeds a rfl).look
        rw [hmoves] at hmoved
        rw [Watch.follow, hmoves]
        simp only [hlook, if_true, List.foldl_nil]
        refine ⟨hsame.trans hmoved, hheeds, ?_⟩
        rw [Journal.each_concat, ← h.signal, ← not_iff_not]
        simpa [hE, hlook] using hover
      · rw [Watch.follow]
        simp only [hlook]
        refine ⟨hmoved, fun a' ha' => ?_, iff_of_true rfl ?_⟩
        · exact Option.some.inj ha' ▸ (h.heeds a rfl).foldl_move _
        · exact Journal.each_concat.mpr ⟨hE, fun h => absurd h hlook⟩

/-- By induction on the lines. -/
lemma alongside_keeps (hc : w.signal c = l.purpose.signal) (j : Journal) :
    w.Keeps l j (w.alongside l j c) := by
  induction j using List.reverseRecOn with
  | nil =>
      exact ⟨hc, fun a ha => Option.some.inj ha ▸ trivial, iff_of_true rfl (Journal.each_nil _)⟩
  | append_singleton j line ih =>
      rw [alongside, List.foldl_append]
      exact ih.follow line

end Watch

/-- A channel beside a load shows its signal at any time, and whoever waits behind the channel is
through if and only if the load has been cancelled. -/
lemma Session.Tuned.alongside_iff {s : Session} {l : Load} (h : s.Tuned l) {γ : Type}
    {w : Watch γ} {c : γ} (hc : w.signal c = l.purpose.signal) :
    let x := w.alongside l (s.journal.since l.cycle) c
    w.signal x.2 = s.signalOf l ∧
      (x.1 = none ↔ .cancelled l.cycle ∈ s.journal.told l.cycle) := by
  intro x
  have hx := Watch.alongside_keeps hc (s.journal.since l.cycle)
  refine ⟨hx.signal.trans h.signal.symm, ?_⟩
  have hmem : .cancelled l.cycle ∈ (s.journal.since l.cycle).told l.cycle ↔
      .note (.event (.cancelled l.cycle)) ∈ s.journal.since l.cycle :=
    Journal.mem_told.trans (and_iff_left rfl)
  rw [← h.told, hmem, ← not_iff_not, ← ne_eq, ← Option.isSome_iff_ne_none, hx.goesOn]
  constructor
  · intro hE hm
    obtain ⟨before, after, hj⟩ := List.append_of_mem hm
    have hlow := hE before _ after hj (by simp [Happening.isLookAt])
    rw [(h.heeded before _ after hj (by simp [Happening.isLookAt])).mpr rfl] at hlow
    cases hlow
  · intro hm before line after hj hlook
    by_contra hraised
    have hline := (h.heeded before line after hj hlook).mp (by simpa using hraised)
    exact hm (by rw [hj, hline]; simp)

end BridgeAudit

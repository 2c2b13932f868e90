import Mathlib.Tactic
import BridgeAudit.Session.Basic

/-!
Waiting for a flag to be raised, at the other end of a channel that only tells of changes.

* `Watch`: a flag at the far end of a channel, and what may be relied on when listening for a
  change of it. `Watch.counted` is such a channel.
* `Watch.look`: a look at the wait for a raised flag: the flag is read, and as long as it is not
  raised, a change is listened for, after which the flag is read again.
* `Watch.Heeds`: where a wait has got to goes with the state of the channel.
* `Watch.Heeds.look`: a wait is over at a look if and only if the flag is raised then.
-/

namespace BridgeAudit

/-! ### Channels -/

/-- What comes of listening for a change. -/
inductive Heard
  /-- The flag has been set since the last time. -/
  | change
  | nothing
  /-- The flag has not been set since the last time, and will never be again. -/
  | closed

/-- A flag at the far end of a channel, where the states of the channel are in `γ`. Whoever listens
at this end hears that the flag has been set since the last time, but not how often, nor to what. -/
structure Watch (γ : Type) where
  /-- The flag is raised, and whether someone can still set it. -/
  signal : γ → Signal
  /-- The flag has been set since somebody listened the last time. -/
  unseen : γ → Bool
  set : γ → Bool → γ
  detach : γ → γ
  /-- Listens for a change. -/
  listen : γ → Heard × γ
  -- while someone is attached, the flag is what it was last set to
  signal_set : ∀ c raised, (signal c).attached → signal (set c raised) = ⟨raised, true⟩
  unseen_set : ∀ c raised, (signal c).attached → unseen (set c raised)
  signal_detach : ∀ c, signal (detach c) = ⟨(signal c).raised, false⟩
  unseen_detach : ∀ c, unseen (detach c) = unseen c
  -- a change is heard of once, and before that nobody hears that the channel is closed
  signal_listen : ∀ c, signal (listen c).2 = signal c
  unseen_listen : ∀ c, unseen (listen c).2 = false
  listen_unseen : ∀ c, unseen c → (listen c).1 = .change
  listen_seen : ∀ c, unseen c = false →
    (listen c).1 = if (signal c).attached then .nothing else .closed

/-- A channel on which the settings of the flag are counted. -/
structure Counted where
  signal : Signal
  /-- How often the flag has been set. -/
  count : Nat
  /-- How many of these have been heard of. -/
  heard : Nat
  heard_le : heard ≤ count

/-- Whoever compares the counts does not miss that the flag has been set. -/
def Watch.counted : Watch Counted where
  signal := Counted.signal
  unseen c := c.heard ≠ c.count
  set c raised := ⟨⟨raised, true⟩, c.count + 1, c.heard, c.heard_le.trans (Nat.le_succ _)⟩
  detach c := ⟨⟨c.signal.raised, false⟩, c.count, c.heard, c.heard_le⟩
  listen c :=
    (if c.heard ≠ c.count then .change else if c.signal.attached then .nothing else .closed,
      ⟨c.signal, c.count, c.count, le_rfl⟩)
  signal_set _ _ _ := rfl
  unseen_set c _ _ := decide_eq_true (Nat.ne_of_lt (Nat.lt_succ_of_le c.heard_le))
  signal_detach _ := rfl
  unseen_detach _ := rfl
  signal_listen _ := rfl
  unseen_listen _ := by simp
  listen_unseen c h := if_pos (by simpa using h)
  listen_seen c h := if_neg (by simpa using h)

/-- Where the wait for a raised flag has got to. -/
inductive Wait
  /-- The flag is read next. -/
  | reading
  /-- A change is listened for. -/
  | listening
  /-- There will be no change any more. -/
  | idle

namespace Watch

variable {γ : Type} (w : Watch γ) {a a' : Wait} {c c' : γ}

/-- What is done at the other end, as long as someone is there. -/
def move (c : γ) : Signal.Move → γ
  | .set raised => if (w.signal c).attached then w.set c raised else c
  | .detach => if (w.signal c).attached then w.detach c else c

/-- Once a change has been heard of, there is nothing new. -/
lemma unseen_of_change (h : w.listen c = (.change, c')) :
    w.unseen c = true ∧ w.unseen c' = false := by
  constructor
  · by_contra hno
    have hheard := w.listen_seen c (by simpa using hno)
    rw [h] at hheard
    split at hheard <;> cases hheard
  · have hseen := w.unseen_listen c
    rwa [h] at hseen

/-- A look at a wait: where it has got to then, or `none` if it is over, and the channel. Behind a
change the flag is read again, which happens once at most, as the change has been heard of by
then. -/
def look : Wait → γ → Option Wait × γ
  | .reading, c => if (w.signal c).raised then (none, c) else look .listening c
  | .listening, c =>
      match _ : w.listen c with
      | (.change, c') => look .reading c'
      | (.nothing, c') => (some .listening, c')
      | (.closed, c') => (some .idle, c')
  | .idle, c => (some .idle, c)
termination_by a c => ((w.unseen c).toNat, match a with | .reading => 1 | _ => 0)
decreasing_by
  · exact Prod.Lex.right _ Nat.zero_lt_one
  · obtain ⟨hunseen, hseen⟩ := w.unseen_of_change ‹_›
    rw [hunseen, hseen]
    exact Prod.Lex.left _ _ Nat.zero_lt_one

/-- Where a wait has got to goes with the state of the channel: whoever listens will hear of a flag
that has been raised, and whoever does not listen any more misses nothing. -/
def Heeds : Wait → γ → Prop
  | .reading, _ => True
  | .listening, c => (w.signal c).raised → w.unseen c
  | .idle, c => w.signal c = ⟨false, false⟩

variable {w}

/-- The flag that is read at this end is the one that has been set at the other. -/
lemma signal_move (c : γ) (m : Signal.Move) : w.signal (w.move c m) = (w.signal c).move m := by
  cases m with
  | set raised =>
      rw [move, Signal.move]
      split
      · exact w.signal_set c raised ‹_›
      · rfl
  | detach =>
      rw [move, Signal.move]
      split
      · exact w.signal_detach c
      · rfl

lemma signal_foldl_move (moves : List Signal.Move) (c : γ) :
    w.signal (moves.foldl w.move c) = moves.foldl Signal.move (w.signal c) := by
  induction moves generalizing c with
  | nil => rfl
  | cons m moves ih => rw [List.foldl_cons, List.foldl_cons, ih, signal_move]

/-- Whoever waits misses nothing of what is done at the other end. -/
lemma Heeds.move (h : w.Heeds a c) (m : Signal.Move) : w.Heeds a (w.move c m) := by
  by_cases hatt : (w.signal c).attached
  · cases a with
    | reading => trivial
    | listening =>
        intro hr
        cases m with
        | set raised =>
            rw [Watch.move, if_pos hatt]
            exact w.unseen_set c raised hatt
        | detach =>
            rw [Watch.move, if_pos hatt] at hr ⊢
            rw [w.signal_detach] at hr
            rw [w.unseen_detach]
            exact h hr
    | idle =>
        have hidle : w.signal c = ⟨false, false⟩ := h
        simp [hidle] at hatt
  · have hsame : w.move c m = c := by cases m <;> exact if_neg hatt
    rwa [hsame]

lemma Heeds.foldl_move (moves : List Signal.Move) (h : w.Heeds a c) :
    w.Heeds a (moves.foldl w.move c) := by
  induction moves generalizing c with
  | nil => exact h
  | cons m moves ih => exact ih (h.move m)

lemma signal_of_listen {x : Heard} (h : w.listen c = (x, c')) : w.signal c' = w.signal c := by
  have hsame := w.signal_listen c
  rwa [h] at hsame

lemma seen_of_ne_change {x : Heard} (h : w.listen c = (x, c')) (hx : x ≠ .change) :
    w.unseen c = false := by
  by_contra hno
  have hchange := w.listen_unseen c (by simpa using hno)
  rw [h] at hchange
  exact hx hchange

lemma detached_of_closed (h : w.listen c = (.closed, c')) : (w.signal c).attached = false := by
  have hclosed := w.listen_seen c (seen_of_ne_change h (by simp))
  rw [h] at hclosed
  split at hclosed
  next => cases hclosed
  next hdetached => simpa using hdetached

/-- Whoever listens and hears of no change is not waiting for a flag that has been raised. -/
lemma Heeds.lowered (h : w.Heeds .listening c) (hseen : w.unseen c = false) :
    (w.signal c).raised = false := by
  by_contra hr
  have hunseen := h (by simpa using hr)
  simp [hseen] at hunseen

/-- **A wait is over at a look if and only if the flag is raised then.** A look changes nothing of
the flag, and afterwards the wait still goes with the channel. -/
lemma Heeds.look (h : w.Heeds a c) :
    ((w.look a c).1 = none ↔ (w.signal c).raised) ∧ w.signal (w.look a c).2 = w.signal c ∧
      ∀ a', (w.look a c).1 = some a' → w.Heeds a' (w.look a c).2 := by
  -- along the course of the look
  fun_induction Watch.look w a c with
  | case1 c hraised => exact ⟨iff_of_true rfl hraised, rfl, fun _ hnone => by cases hnone⟩
  | case2 c hraised ih => exact ih fun hr => absurd hr hraised
  | case3 c c' hheard ih =>
      rw [← signal_of_listen hheard]
      exact ih trivial
  | case4 c c' hheard =>
      have hlow := h.lowered (seen_of_ne_change hheard (by simp))
      have hsame := signal_of_listen hheard
      refine ⟨by simp [hlow], hsame, fun a' ha => ?_⟩
      obtain rfl := Option.some.inj ha
      intro hr
      simp [hsame, hlow] at hr
  | case5 c c' hheard =>
      have hlow := h.lowered (seen_of_ne_change hheard (by simp))
      have hsame := signal_of_listen hheard
      refine ⟨by simp [hlow], hsame, fun a' ha => ?_⟩
      obtain rfl := Option.some.inj ha
      exact hsame.trans (congrArg₂ Signal.mk hlow (detached_of_closed hheard))
  | case6 c =>
      have hidle : w.signal c = ⟨false, false⟩ := h
      refine ⟨by simp [hidle], rfl, fun a' ha => ?_⟩
      obtain rfl := Option.some.inj ha
      exact hidle

end Watch

end BridgeAudit

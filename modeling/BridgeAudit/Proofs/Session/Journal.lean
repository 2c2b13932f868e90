import Mathlib.Tactic
import BridgeAudit.Session.Step

/-!
What the journal of a session says.

* `Journal.begun`, `Journal.gone`: the loads that have begun, and those that have ended or have
  been dropped; `Journal.IsOpen` are the others.
* `Journal.reloads`, `Journal.newest?`: the reloads that have begun, and the last of them.
* `Journal.told`: the events of one cycle; `Journal.heardOf`: what a handler has heard of them.
* `Journal.looks`: the sources that the looks at a load have found.
* `Journal.about`: all lines of these three kinds that concern one cycle.
* `Journal.publications`: the views that reloads have returned.
* `Journal.Each`: a property of each line and of the journal in front of it; `each_concat` is the
  way to prove it while the journal grows.
-/

namespace BridgeAudit

/-! ### One line -/

namespace Happening

/-- The load that begins here. -/
def begun? : Happening → Option (Nat × Purpose)
  | began c p => some (c, p)
  | _ => none

/-- The cycle of the load that is over from here on. -/
def gone? : Happening → Option Nat
  | ended c _ _ => some c
  | dropped c _ => some c
  | _ => none

/-- The event that is told here. -/
def event? : Happening → Option Event
  | note (.event e) => some e
  | _ => none

/-- The event that the handler at a place hears of here. -/
def heard? (place : Nat) : Happening → Option Event
  | heard p e _ => if p = place then some e else none
  | _ => none

/-- The source that a look at a load finds here. -/
def look? (c : Nat) : Happening → Option Source
  | looked d src => if d = c then some src else none
  | _ => none

/-- The cycle that a line tells of, is heard of in, or is looked at in. -/
def about? : Happening → Option Nat
  | note (.event e) => some e.cycle
  | heard _ e _ => some e.cycle
  | looked c _ => some c
  | _ => none

/-- The view that a reload returns here. -/
def view? : Happening → Option View
  | ended _ (.reload _) (.ok v) => some v
  | _ => none

lemma event?_eq_some {h : Happening} {e : Event} :
    h.event? = some e ↔ h = .note (.event e) := by
  constructor
  · intro he
    cases h with
    | note n =>
        cases n with
        | event e' => rw [Option.some.inj he]
        | log line => cases he
    | _ => cases he
  · rintro rfl
    rfl

end Happening

/-- The cycle of a reload with its ticket. -/
def Purpose.reload? : Nat × Purpose → Option (Nat × Nat)
  | (c, .reload t) => some (c, t)
  | _ => none

/-! ### The whole journal -/

namespace Journal

variable {j k : Journal} {h : Happening} {c t : Nat}

/-- The loads that have begun, in order. -/
def begun (j : Journal) : List (Nat × Purpose) := j.filterMap Happening.begun?

/-- The cycles of the loads that have ended or have been dropped, in order. -/
def gone (j : Journal) : List Nat := j.filterMap Happening.gone?

/-- All events, in order. -/
def events (j : Journal) : List Event := j.filterMap Happening.event?

/-- The events of one cycle. -/
def told (j : Journal) (c : Nat) : List Event := j.events.filter fun e => e.cycle = c

/-- What the handler at a place has heard, in order. -/
def heard (j : Journal) (place : Nat) : List Event := j.filterMap (Happening.heard? place)

/-- What the handler at a place has heard of one cycle. -/
def heardOf (j : Journal) (place c : Nat) : List Event :=
  (j.heard place).filter fun e => e.cycle = c

/-- The sources that the looks at the load of one cycle have found, in order. -/
def looks (j : Journal) (c : Nat) : List Source := j.filterMap (Happening.look? c)

/-- All that is told of one cycle, is heard of it, and is found at looks at its load. -/
def about (j : Journal) (c : Nat) : Journal := j.filter fun h => h.about? = some c

/-- The views that reloads have returned, in order. -/
def publications (j : Journal) : List View := j.filterMap Happening.view?

/-- The reloads that have begun, in order: cycles with tickets. -/
def reloads (j : Journal) : List (Nat × Nat) := j.begun.filterMap Purpose.reload?

/-- The reload that has begun last. -/
def newest? (j : Journal) : Option (Nat × Nat) := j.reloads.getLast?

@[simp] lemma begun_nil : begun [] = [] := rfl

@[simp] lemma begun_cons : begun (h :: j) = h.begun?.toList ++ j.begun := by
  simp [begun, List.filterMap_eq_flatMap_toList]

@[simp] lemma begun_append : begun (j ++ k) = j.begun ++ k.begun := by
  simp [begun]

@[simp] lemma gone_nil : gone [] = [] := rfl

@[simp] lemma gone_cons : gone (h :: j) = h.gone?.toList ++ j.gone := by
  simp [gone, List.filterMap_eq_flatMap_toList]

@[simp] lemma gone_append : gone (j ++ k) = j.gone ++ k.gone := by
  simp [gone]

@[simp] lemma events_nil : events [] = [] := rfl

@[simp] lemma events_cons : events (h :: j) = h.event?.toList ++ j.events := by
  simp [events, List.filterMap_eq_flatMap_toList]

@[simp] lemma events_append : events (j ++ k) = j.events ++ k.events := by
  simp [events]

@[simp] lemma publications_nil : publications [] = [] := rfl

@[simp] lemma publications_cons : publications (h :: j) = h.view?.toList ++ j.publications := by
  simp [publications, List.filterMap_eq_flatMap_toList]

@[simp] lemma publications_append : publications (j ++ k) = j.publications ++ k.publications := by
  simp [publications]

@[simp] lemma told_nil : told [] c = [] := rfl

@[simp] lemma told_cons :
    told (h :: j) c = (h.event?.toList.filter fun e => e.cycle = c) ++ j.told c := by
  simp [told]

@[simp] lemma told_append : told (j ++ k) c = j.told c ++ k.told c := by
  simp [told]

@[simp] lemma heardOf_nil {place : Nat} : heardOf [] place c = [] := rfl

@[simp] lemma heardOf_cons {place : Nat} : heardOf (h :: j) place c =
    ((h.heard? place).toList.filter fun e => e.cycle = c) ++ j.heardOf place c := by
  simp [heardOf, heard, List.filterMap_eq_flatMap_toList]

@[simp] lemma heardOf_append {place : Nat} :
    heardOf (j ++ k) place c = j.heardOf place c ++ k.heardOf place c := by
  simp [heardOf, heard]

@[simp] lemma looks_nil : looks [] c = [] := rfl

@[simp] lemma looks_cons : looks (h :: j) c = (h.look? c).toList ++ j.looks c := by
  simp [looks, List.filterMap_eq_flatMap_toList]

@[simp] lemma looks_append : looks (j ++ k) c = j.looks c ++ k.looks c := by
  simp [looks]

@[simp] lemma about_append : about (j ++ k) c = j.about c ++ k.about c := by
  simp [about]

@[simp] lemma about_nil : about [] c = [] := rfl

@[simp] lemma about_cons :
    about (h :: j) c = (if h.about? = some c then [h] else []) ++ j.about c := by
  by_cases hc : h.about? = some c <;> simp [about, hc]

@[simp] lemma reloads_nil : reloads [] = [] := rfl

@[simp] lemma reloads_cons :
    reloads (h :: j) = (h.begun?.bind Purpose.reload?).toList ++ j.reloads := by
  cases hb : h.begun? <;> simp [reloads, hb, List.filterMap_eq_flatMap_toList]

@[simp] lemma reloads_append : reloads (j ++ k) = j.reloads ++ k.reloads := by
  simp [reloads]

lemma mem_told {e : Event} : e ∈ j.told c ↔ .note (.event e) ∈ j ∧ e.cycle = c := by
  simp only [told, events, List.mem_filter, List.mem_filterMap, decide_eq_true_eq,
    Happening.event?_eq_some, exists_eq_right]

/-- The reloads are among the loads. -/
lemma mem_reloads : (c, t) ∈ j.reloads ↔ (c, Purpose.reload t) ∈ j.begun := by
  simp only [reloads, List.mem_filterMap, Prod.exists]
  constructor
  · rintro ⟨c', p, hp, h⟩
    cases p <;> simp_all [Purpose.reload?]
  · intro h
    exact ⟨c, .reload t, h, rfl⟩

/-! ### What concerns one cycle -/

/-- What only looks at lines about a cycle finds the same among these. -/
lemma filterMap_about {α : Type} {f : Happening → Option α}
    (hf : ∀ h x, f h = some x → h.about? = some c) (j : Journal) :
    List.filterMap f (j.about c) = List.filterMap f j := by
  rw [about, List.filterMap_filter]
  refine List.filterMap_congr fun h _ => ?_
  cases hx : f h with
  | none => simp
  | some x => simp [hf h x hx]

lemma told_about (j : Journal) (c : Nat) : (j.about c).told c = j.told c := by
  simp only [told, events, List.filter_filterMap]
  refine filterMap_about (fun h e he => ?_) j
  obtain ⟨hev, hc⟩ := Option.filter_eq_some_iff.mp he
  cases h with
  | note n => cases n <;> simp_all [Happening.event?, Happening.about?]
  | _ => cases hev

lemma heardOf_about (j : Journal) (place c : Nat) :
    (j.about c).heardOf place c = j.heardOf place c := by
  simp only [heardOf, heard, List.filter_filterMap]
  refine filterMap_about (fun h e he => ?_) j
  obtain ⟨hev, hc⟩ := Option.filter_eq_some_iff.mp he
  cases h with
  | heard p e' made =>
      have := Option.ite_none_right_eq_some.mp hev
      simp_all [Happening.about?]
  | _ => cases hev

lemma looks_about (j : Journal) (c : Nat) : (j.about c).looks c = j.looks c := by
  refine filterMap_about (fun h src hsrc => ?_) j
  cases h with
  | looked d src' => exact congrArg some (Option.ite_none_right_eq_some.mp hsrc).1
  | _ => cases hsrc

/-- Journals that agree on a cycle tell the same of it. -/
lemma told_congr (h : j.about c = k.about c) : j.told c = k.told c := by
  rw [← told_about, h, told_about]

lemma heardOf_congr (h : j.about c = k.about c) (place : Nat) :
    j.heardOf place c = k.heardOf place c := by
  rw [← heardOf_about, h, heardOf_about]

lemma looks_congr (h : j.about c = k.about c) : j.looks c = k.looks c := by
  rw [← looks_about, h, looks_about]

/-! ### Log lines -/

/-- Nothing but log lines. -/
def IsLog (j : Journal) : Prop := ∀ h ∈ j, ∃ line, h = .note (.log line)

lemma isLog_nil : IsLog [] := by simp [IsLog]

lemma isLog_singleton (line : LogLine) : IsLog [.note (.log line)] := by simp [IsLog]

/-- What does not look at log lines finds nothing. -/
lemma IsLog.filterMap_eq_nil {α : Type} {f : Happening → Option α} (hj : j.IsLog)
    (hf : ∀ line, f (.note (.log line)) = none) : List.filterMap f j = [] := by
  refine List.filterMap_eq_nil_iff.mpr fun h hh => ?_
  obtain ⟨line, rfl⟩ := hj h hh
  exact hf line

/-- What holds of log lines and of the line behind them holds of all of them. -/
lemma IsLog.forall_concat {p : Happening → Prop} (hj : j.IsLog)
    (hlog : ∀ line, p (.note (.log line))) (hh : p h) : ∀ g ∈ j ++ [h], p g := by
  intro g hg
  rcases List.mem_append.mp hg with hg | hg
  · obtain ⟨line, rfl⟩ := hj g hg
    exact hlog line
  · exact List.mem_singleton.mp hg ▸ hh

lemma IsLog.begun (hj : j.IsLog) : j.begun = [] := hj.filterMap_eq_nil fun _ => rfl

lemma IsLog.gone (hj : j.IsLog) : j.gone = [] := hj.filterMap_eq_nil fun _ => rfl

lemma IsLog.about (hj : j.IsLog) (c : Nat) : j.about c = [] := by
  refine List.filter_eq_nil_iff.mpr fun h hh => ?_
  obtain ⟨line, rfl⟩ := hj h hh
  simp [Happening.about?]

/-- Whatever is not a log line is not among log lines. -/
lemma IsLog.notMem (hj : j.IsLog) (hh : ∀ line, h ≠ .note (.log line)) : h ∉ j := by
  intro hm
  obtain ⟨line, rfl⟩ := hj h hm
  exact hh line rfl

/-! ### Loads that are open -/

/-- A load that has begun, and has neither ended nor been dropped. -/
structure IsOpen (j : Journal) (l : Load) : Prop where
  begun : (l.cycle, l.purpose) ∈ j.begun
  notGone : l.cycle ∉ j.gone

/-- An open reload is one of the reloads. -/
lemma IsOpen.mem_reloads {l : Load} (h : j.IsOpen l) (hp : l.purpose = .reload t) :
    (l.cycle, t) ∈ j.reloads :=
  Journal.mem_reloads.mpr (hp ▸ h.begun)

/-! ### Each line -/

/-- A property of each line, together with the journal in front of it. -/
def Each (P : Journal → Happening → Prop) (j : Journal) : Prop :=
  ∀ before h after, j = before ++ h :: after → P before h

lemma each_nil (P : Journal → Happening → Prop) : Each P [] := by
  intro before h after heq
  simp at heq

/-- One more line: the lines so far keep the property, and the new one has it. -/
lemma each_concat {P : Journal → Happening → Prop} :
    Each P (j ++ [h]) ↔ Each P j ∧ P j h := by
  constructor
  · intro hE
    refine ⟨fun before g after heq => hE before g (after ++ [h]) (by simp [heq]), hE j h [] rfl⟩
  · rintro ⟨hE, hP⟩ before g after heq
    rcases List.eq_nil_or_concat after with rfl | ⟨after', g', rfl⟩
    · obtain ⟨rfl, rfl⟩ := by simpa using List.append_inj' heq rfl
      exact hP
    · have heq' : j ++ [h] = (before ++ g :: after') ++ [g'] := by simpa using heq
      exact hE before g after' (List.append_inj' heq' rfl).1

/-- Lines of which the property is true behind any journal. -/
lemma Each.append {P : Journal → Happening → Prop} (hj : Each P j)
    (hk : ∀ h ∈ k, ∀ before, P before h) : Each P (j ++ k) := by
  induction k using List.reverseRecOn with
  | nil => simpa using hj
  | append_singleton k h ih =>
      rw [← List.append_assoc, each_concat]
      exact ⟨ih fun g hg => hk g (List.mem_append_left _ hg),
        hk h (List.mem_append_right _ List.mem_cons_self) _⟩

end Journal

end BridgeAudit

import BridgeAudit.Proofs.Auditor.Interview
import BridgeAudit.Session.Source

/-!
All lists of a client.

A client asks for the six lists one after another and stops at the first that fails, where a look
of a session asks all collections at once. What comes of it is the same: a look brings in all
answers as well, and it fails with the first collection in their order.

* `Server.Steady`: a server that does not care what has been asked before.
* `Source.serving`: a source that serves what has come of each list.
* `Client.fetchAll_eq_round`: all lists together are what one look at that source brings in.
* `Client.load_eq_round`: hence so is the view that is made of them.
-/

namespace BridgeAudit

/-! ### Steady servers -/

/-- A server that answers a request in the same way at any time. -/
def Server.Steady (server : Server) : Prop :=
  ∀ asked asked' r, server asked r = server asked' r

namespace Exchange

variable {α : Type} {server : Server}

/-- What an exchange with a steady server comes to does not depend on what has been asked before. -/
lemma interview_fst_of_steady (h : server.Steady) (x : Exchange α) (asked asked' : List Request) :
    (x.interview server asked).1 = (x.interview server asked').1 := by
  induction x generalizing asked asked' with
  | done a => rfl
  | log l next ih => exact ih asked asked'
  | ask r next ih =>
      rw [interview_ask, interview_ask, h asked asked' r]
      exact ih _ _ _

lemma interview_tell_bind (server : Server) (asked : List Request) (notes : List Note)
    (f : Unit → Exchange α) :
    (tell notes >>= f).interview server asked = (f ()).interview server asked := by
  induction notes with
  | nil => rfl
  | cons n notes ih => exact ih

end Exchange

/-! ### What has come of each list -/

/-- A list that has been fetched, or what is wrong, as something to be had from a collection. -/
def Delivery.ofResult : Except AuditorError (List Json) → Delivery
  | .error e => .failed e
  | .ok items => .records items

namespace Source

/-- A source that serves what has come of each list. -/
def serving (name : String) (results : Collection → Except AuditorError (List Json)) : Source where
  name := name
  content := Collections.ofFn fun k => (results k).toOption.getD []
  failing := Collection.all.filterMap fun k =>
    match results k with
    | .error e => some (k, e)
    | .ok _ => none

/-- A collection fails just if its list has. -/
lemma lookup_failing (results : Collection → Except AuditorError (List Json)) (k : Collection)
    (ks : List Collection) :
    (ks.filterMap fun k => match results k with
      | .error e => some (k, e)
      | .ok _ => none).lookup k =
      if k ∈ ks then (match results k with | .error e => some e | .ok _ => none) else none := by
  induction ks with
  | nil => rfl
  | cons k' ks ih =>
      by_cases hk : k = k'
      · subst hk
        cases hr : results k <;> simp [hr, ih]
      · have hne : (k == k') = false := by simpa using hk
        cases hr : results k' <;> simp [hr, ih, hk, List.lookup_cons, hne]

lemma deliver_serving (name : String) (results : Collection → Except AuditorError (List Json))
    (k : Collection) : (serving name results).deliver k = .ofResult (results k) := by
  rw [deliver, if_neg (by simp [serving]), serving, lookup_failing, if_pos k.mem_all]
  cases hr : results k <;> simp [Delivery.ofResult, Except.toOption, hr]

end Source

/-! ### All lists -/

/-- The lists that have come in. -/
def Arrived.lists (got : Arrived) : Collections Json := Collections.ofFn fun k => (got k).getD []

lemma Arrived.lists_put (got : Arrived) (k : Collection) (items : List Json) :
    (got.put k items).lists = got.lists.set k items := by
  refine Collections.ext fun d => ?_
  by_cases hd : d = k <;> simp [lists, put, hd]

namespace Client

variable {server : Server}

/-- What comes of the list of a collection. -/
def listOf (c : Client) (server : Server) (k : Collection) : Except AuditorError (List Json) :=
  ((c.collection k.path).interview server []).1

/-- By induction on the lists that are still to be asked for. -/
lemma fetchAll_eq_round_from (c : Client) (h : server.Steady) :
    ∀ (ks : List Collection) (got : Arrived) (asked : List Request), ks.Nodup →
      (∀ k ∈ ks, got k = none) →
      ((c.fetchAll ks got.lists).interview server asked).1 =
        ((Source.serving name (c.listOf server)).round ks got).map Arrived.lists := by
  intro ks
  induction ks with
  | nil => exact fun _ _ _ _ => rfl
  | cons k ks ih =>
      intro got asked hnodup hnone
      obtain ⟨hk, hnodup⟩ := List.nodup_cons.mp hnodup
      have hlist : ((c.collection k.path).interview server asked).1 = c.listOf server k :=
        Exchange.interview_fst_of_steady h _ _ _
      rw [fetchAll, Exchange.interview_bind, hlist, Source.round,
        if_neg (by simp [hnone k List.mem_cons_self]), Source.deliver_serving]
      cases c.listOf server k with
      | error e => rfl
      | ok records =>
          dsimp only [Delivery.ofResult]
          rw [← Arrived.lists_put]
          refine ih _ _ hnodup fun k' hk' => ?_
          have hne : k' ≠ k := fun heq => hk (heq ▸ hk')
          simpa [Arrived.put, hne] using hnone k' (List.mem_cons_of_mem _ hk')

/-- **All lists are one look.** The lists that a client asks for one after another are what one look
at a source brings in that serves them, and the first that fails ends both in the same way. -/
theorem fetchAll_eq_round (c : Client) (h : server.Steady) (asked : List Request) :
    ((c.fetchAll Collection.all {}).interview server asked).1 =
      ((Source.serving name (c.listOf server)).round Collection.all .none).map Arrived.lists :=
  c.fetchAll_eq_round_from h Collection.all .none asked (by decide) fun _ _ => rfl

/-- The view of everything is the view of what one look at such a source brings in. -/
theorem load_eq_round (c : Client) (h : server.Steady) (policy : Policy) (cycle : Nat)
    (now : Instant) (asked : List Request) :
    ((c.load policy cycle now).interview server asked).1 =
      ((Source.serving name (c.listOf server)).round Collection.all .none).map fun got =>
        (reconcile policy cycle got.lists now).view := by
  rw [load, Exchange.interview_tell_bind, Exchange.interview_bind, c.fetchAll_eq_round h]
  cases (Source.serving name (c.listOf server)).round Collection.all .none with
  | error e => exact congrArg Prod.fst (Exchange.interview_tell_bind ..)
  | ok got => exact congrArg Prod.fst (Exchange.interview_tell_bind ..)

end Client

end BridgeAudit

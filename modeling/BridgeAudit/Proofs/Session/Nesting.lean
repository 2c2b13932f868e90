import BridgeAudit.Proofs.Session.Publication

/-!
Hooks within hooks.

An event is told to a given depth of hooks within hooks. The depth is never reached, because a hook
is gone once it runs and nothing that is done while an event is told arms another one.

* `AlikeUpTo`: two tellings do the same as long as there are no more hooks than a given number.
* `AlikeUpTo.resume`, `AlikeUpTo.begins`, `AlikeUpTo.act`: so do the looks, the beginnings and the
  calls that are made with them.
* `hearWith_alike`, `AlikeUpTo.deepen`: tellings that are alike stay so one hook further if hooks
  are run with them.
* `eq_tell_iff`: `tell` is the only telling that hands itself to its hooks.
-/

namespace BridgeAudit

namespace Session

variable {n : Nat} {f g : Telling} {s : Session} {e : Event} {id : String}

/-! ### Hooks that stay -/

@[simp] lemma hooks_close (s : Session) (l : Load) (r : Result) :
    (s.close l r).1.hooks = s.hooks := by
  obtain ⟨v, -, -, h⟩ | ⟨ticket, v, -, -, -, h⟩ | ⟨-, h⟩ := s.close_cases l r <;> rw [h] <;> rfl

@[simp] lemma hooks_keep (s : Session) (id : String) (l : Load) : (s.keep id l).hooks = s.hooks :=
  hooks_drop s id

@[simp] lemma hooks_settle (id : String) (x : Session × Progress) :
    (settle id x).1.hooks = x.1.hooks := by
  obtain ⟨t, l | r⟩ := x
  · exact hooks_keep t id l
  · rfl

@[simp] lemma hooks_settleHook (keep : Option String) (x : Session × Progress) :
    (settleHook keep x).hooks = x.1.hooks := by
  obtain ⟨t, l | r⟩ := x
  · cases keep with
    | none => rfl
    | some id => exact hooks_keep t id l
  · rfl

@[simp] lemma hooks_cancel (s : Session) : s.cancel.hooks = s.hooks := by
  rw [cancel, clearSlot]
  split <;> rfl

@[simp] lemma hooks_moveSignal (s : Session) (c : Nat) (m : Signal.Move) :
    (s.moveSignal c m).hooks = s.hooks := by
  obtain ⟨k, signals, -, h⟩ := s.moveSignal_eq c m
  rw [h]

@[simp] lemma hooks_look (s : Session) (id : String) : (s.look id).hooks = s.hooks := by
  rw [look]
  split <;> rfl

/-! ### Tellings that are alike -/

/-- Two tellings do the same in sessions with no more hooks than the given number, and the session
has no more hooks afterwards. -/
def AlikeUpTo (n : Nat) (f g : Telling) : Prop :=
  ∀ s e, s.hooks.length ≤ n → f s e = g s e ∧ (f s e).hooks.length ≤ n

namespace AlikeUpTo

lemma notes (h : AlikeUpTo n f g) (notes : List Note) (hs : s.hooks.length ≤ n) :
    notes.foldl (takeNote f) s = notes.foldl (takeNote g) s ∧
      (notes.foldl (takeNote f) s).hooks.length ≤ n := by
  induction notes generalizing s with
  | nil => exact ⟨rfl, hs⟩
  | cons x notes ih =>
      cases x with
      | event e =>
          obtain ⟨heq, hn⟩ := h s e hs
          simp only [List.foldl_cons, takeNote, ← heq]
          exact ih hn
      | log line => exact ih (s := s.log line) hs

/-- A look at a load. -/
lemma resume (h : AlikeUpTo n f g) (l : Load) (hs : s.hooks.length ≤ n) :
    resumeWith f s l = resumeWith g s l ∧ (resumeWith f s l).1.hooks.length ≤ n := by
  rw [resumeWith, resumeWith]
  split
  · obtain ⟨heq, hn⟩ := h s (.cancelled l.cycle) hs
    rw [← heq, hooks_close]
    exact ⟨rfl, hn⟩
  · have hs' : (s.record (.looked l.cycle s.source)).hooks.length ≤ n := hs
    dsimp only
    split
    next x hround =>
      obtain ⟨heq, hn⟩ := h _ (.failed l.cycle x.message) hs'
      rw [← heq, hooks_close]
      exact ⟨rfl, hn⟩
    next got hround =>
      split
      · exact ⟨rfl, hs'⟩
      · obtain ⟨heq, hn⟩ := h.notes _ hs'
        rw [reconcileWith, reconcileWith, ← heq, hooks_close]
        exact ⟨rfl, hn⟩

/-- The beginning of a load. -/
lemma begins (h : AlikeUpTo n f g) (kind : Start) (hs : s.hooks.length ≤ n) :
    beginWith f s kind = beginWith g s kind ∧ (beginWith f s kind).1.hooks.length ≤ n := by
  obtain ⟨heq, hn⟩ := h (s.launch kind).1 (.started (s.launch kind).2.cycle) (by simpa using hs)
  rw [beginWith, beginWith]
  dsimp only
  rw [← heq]
  exact h.resume _ (by simpa using hn)

/-- A call. -/
lemma act (h : AlikeUpTo n f g) (c : Call) (hs : s.hooks.length ≤ n) :
    callWith f s c = callWith g s c ∧ (callWith f s c).hooks.length ≤ n := by
  cases c with
  | start id kind =>
      obtain ⟨heq, hn⟩ := h.begins (s := s.drop id) kind (by simpa using hs)
      simp only [callWith, actWith, startWith, ← heq]
      exact ⟨trivial, by simpa using hn⟩
  | poll id =>
      cases hl : s.loads.lookup id with
      | none => simpa [callWith, actWith, pollWith, hl] using hs
      | some l =>
          obtain ⟨heq, hn⟩ := h.resume (s := s.without id) l hs
          simpa [callWith, actWith, pollWith, hl, ← heq] using hn
  | drop id => exact ⟨rfl, hooks_drop s id ▸ hs⟩
  | signal c m => exact ⟨rfl, hooks_moveSignal s c m ▸ hs⟩
  | cancel => exact ⟨rfl, hooks_cancel s ▸ hs⟩
  | look id => exact ⟨rfl, hooks_look s id ▸ hs⟩
  | arm hooks => exact hooks.elim
  | _ => exact ⟨rfl, hs⟩

lemma acts (h : AlikeUpTo n f g) (calls : List Call) (hs : s.hooks.length ≤ n) :
    calls.foldl (callWith f) s = calls.foldl (callWith g) s ∧
      (calls.foldl (callWith f) s).hooks.length ≤ n := by
  induction calls generalizing s with
  | nil => exact ⟨rfl, hs⟩
  | cons c calls ih =>
      obtain ⟨heq, hn⟩ := h.act c hs
      rw [List.foldl_cons, List.foldl_cons, ← heq]
      exact ih hn

/-- What a hook does. -/
lemma run (h : AlikeUpTo n f g) (a : HookAction) (hs : s.hooks.length ≤ n) :
    runHook f s a = runHook g s a ∧ (runHook f s a).hooks.length ≤ n := by
  cases a with
  | cancel => exact ⟨rfl, hooks_cancel s ▸ hs⟩
  | reload keep =>
      obtain ⟨heq, hn⟩ := h.begins .reload hs
      rw [runHook, runHook, ← heq, hooks_settleHook]
      exact ⟨rfl, hn⟩
  | calls calls => exact h.acts calls hs

end AlikeUpTo

/-! ### One hook more -/

section Hearing

variable {run run' : Session → HookAction → Session}

/-- A hook is gone once it runs. So it is enough that running a hook does the same wherever there is
room for one more. -/
lemma hearWith_alike (hrun : ∀ (t : Session) a, t.hooks.length < n →
      run t a = run' t a ∧ (run t a).hooks.length ≤ n)
    (e : Event) (x : (Handler × Note) × Nat) (hs : s.hooks.length ≤ n) :
    hearWith run e s x = hearWith run' e s x ∧ (hearWith run e s x).hooks.length ≤ n := by
  obtain ⟨⟨handler, made⟩, place⟩ := x
  rw [hearWith, hearWith]
  split
  · exact ⟨rfl, hs⟩
  next k hk =>
    have hmem : k ∈ s.hooks := List.mem_of_find?_eq_some hk
    have hpos : 0 < s.hooks.length := List.length_pos_of_mem hmem
    refine hrun _ _ ?_
    show (s.hooks.eraseP (·.isDue place e)).length < n
    rw [List.length_eraseP_of_mem hmem (List.find?_some hk)]
    omega

lemma tellWith_alike (hrun : ∀ (t : Session) a, t.hooks.length < n →
      run t a = run' t a ∧ (run t a).hooks.length ≤ n) :
    AlikeUpTo n (tellWith run) (tellWith run') := by
  intro s e hs
  have hears : ∀ (xs : List ((Handler × Note) × Nat)) (t : Session), t.hooks.length ≤ n →
      xs.foldl (hearWith run e) t = xs.foldl (hearWith run' e) t ∧
        (xs.foldl (hearWith run e) t).hooks.length ≤ n := by
    intro xs
    induction xs with
    | nil => exact fun t ht => ⟨rfl, ht⟩
    | cons x xs ih =>
        intro t ht
        obtain ⟨heq, hn⟩ := hearWith_alike hrun e x ht
        rw [List.foldl_cons, List.foldl_cons, ← heq]
        exact ih _ hn
  exact hears _ _ hs

end Hearing

/-- Hooks that are run with tellings that are alike may be one more. -/
lemma AlikeUpTo.deepen (h : AlikeUpTo n f g) :
    AlikeUpTo (n + 1) (tellWith (runHook f)) (tellWith (runHook g)) := by
  refine tellWith_alike fun s a hs => ?_
  obtain ⟨heq, hn⟩ := h.run a (Nat.lt_succ_iff.mp hs)
  exact ⟨heq, hn.trans n.le_succ⟩

/-! ### The depth of hooks within hooks -/

/-- A depth that is not reached may be any greater one. -/
lemma tellWithin_alike (n more : Nat) : AlikeUpTo n (tellWithin (n + more)) (tellWithin n) := by
  induction n with
  | zero =>
      -- nobody has a hook to run
      cases more <;> exact tellWith_alike (by simp)
  | succ n ih =>
      rw [Nat.add_right_comm]
      exact ih.deepen

lemma tell_alike (n : Nat) : AlikeUpTo n tell (tellWithin n) := by
  intro s e hs
  obtain ⟨more, rfl⟩ := Nat.exists_eq_add_of_le hs
  obtain ⟨heq, -⟩ := tellWithin_alike s.hooks.length more s e le_rfl
  obtain ⟨-, hn⟩ := tellWithin_alike s.hooks.length 0 s e le_rfl
  exact ⟨heq.symm, hn.trans hs⟩

/-- Telling an event hands itself to the hooks. -/
lemma tell_eq (s : Session) (e : Event) : tell s e = tellWith (runHook tell) s e := by
  cases hn : s.hooks.length with
  | zero =>
      rw [tell, hn]
      exact (tellWith_alike (by simp) s e hn.le).1
  | succ n =>
      rw [tell, hn]
      exact ((tell_alike n).deepen s e hn.le).1.symm

/-- **The depth is never reached.** Whatever hooks are armed, an event is told by telling all
handlers, and what their hooks do tells its events in the very same way. There is no other way of
telling that does so. -/
theorem eq_tell_iff : f = tell ↔ ∀ s e, f s e = tellWith (runHook f) s e := by
  constructor
  · rintro rfl
    exact tell_eq
  · intro hf
    have heq : f = tellWith (runHook f) := funext fun s => funext (hf s)
    have heq' : tell = tellWith (runHook tell) := funext fun s => funext (tell_eq s)
    have halike : ∀ n, AlikeUpTo n f tell := by
      intro n
      induction n with
      | zero =>
          rw [heq, heq']
          exact tellWith_alike (by simp)
      | succ n ih =>
          rw [heq, heq']
          exact ih.deepen
    exact funext fun s => funext fun e => (halike s.hooks.length s e le_rfl).1

end Session

end BridgeAudit

import Mathlib.Data.List.DropRight
import BridgeAudit.Proofs.Auditor.Interview

/-!
The address of a client.

* `Connection.trimSlashes_append_of_all`, `Connection.trimSlashes_append_of_not_all`: slashes at the
  end of an address are dropped, and nothing else.
* `Connection.IsBare`: an address with nothing but slashes behind its scheme;
  `Connection.hasScheme_trimSlashes_iff`: every other one keeps its scheme without these slashes.
* `Exchange.EachAsks`: a condition on all requests that an exchange may come to, whatever the
  replies are.
* `Request.url`: where a request goes.
* `connect_iff`: which connections make a client, and where its requests go.
* `bare_address_connects`: a client without a usable address.
-/

namespace BridgeAudit

/-! ### Slashes at the end -/

namespace Connection

variable {s rest : String} {c : Connection}

/-- A text of nothing but slashes. -/
def AllSlashes (s : String) : Prop := ∀ ch ∈ s.toList, ch = '/'

lemma toList_trimSlashes (s : String) :
    (trimSlashes s).toList = s.toList.rdropWhile (· = '/') := String.toList_ofList

/-- What is left does not end with a slash. -/
lemma getLast?_trimSlashes (s : String) : (trimSlashes s).toList.getLast? ≠ some '/' := by
  rw [toList_trimSlashes]
  intro hlast
  have hne : s.toList.rdropWhile (· = '/') ≠ [] := by
    intro hnil
    rw [hnil] at hlast
    cases hlast
  have hslash := List.rdropWhile_last_not (· = '/') s.toList hne
  rw [List.getLast?_eq_some_getLast hne, Option.some.injEq] at hlast
  simp [hlast] at hslash

/-- Behind what is left there are only slashes. -/
lemma exists_slashes (s : String) :
    ∃ slashes, AllSlashes slashes ∧ s = trimSlashes s ++ slashes := by
  refine ⟨String.ofList (s.toList.rtakeWhile (· = '/')), fun ch hch => ?_, ?_⟩
  · rw [String.toList_ofList] at hch
    simpa using List.mem_rtakeWhile_imp hch
  · rw [← String.toList_inj, String.toList_append, toList_trimSlashes, String.toList_ofList,
      List.rdropWhile_append_rtakeWhile]

/-- Slashes at the end make no difference. -/
lemma trimSlashes_append_of_all (h : AllSlashes rest) (s : String) :
    trimSlashes (s ++ rest) = trimSlashes s := by
  have hslashes : ∀ ch ∈ rest.toList.reverse, decide (ch = '/') = true := fun ch hch =>
    decide_eq_true (h ch (List.mem_reverse.1 hch))
  rw [trimSlashes, trimSlashes, String.toList_append, List.reverse_append,
    List.dropWhile_append_of_pos hslashes]

/-- What stands in front of something else than slashes stays as it is. -/
lemma trimSlashes_append_of_not_all (h : ¬AllSlashes rest) (s : String) :
    trimSlashes (s ++ rest) = s ++ trimSlashes rest := by
  have hne : rest.toList.reverse.dropWhile (· = '/') ≠ [] := by
    intro hnil
    refine h fun ch hch => ?_
    simpa using List.dropWhile_eq_nil_iff.1 hnil ch (List.mem_reverse.2 hch)
  rw [← String.toList_inj, trimSlashes, trimSlashes, String.toList_append, String.toList_append,
    String.toList_ofList, String.toList_ofList, List.reverse_append, List.dropWhile_append,
    if_neg (by simpa using hne), List.reverse_append, List.reverse_reverse]

/-! ### Schemes -/

/-- The two schemes. -/
def schemes : List String := ["http:", "https:"]

/-- An address with nothing but slashes behind its scheme. -/
def IsBare (s : String) : Prop :=
  ∃ scheme ∈ schemes, ∃ rest, s = scheme ++ ("//" ++ rest) ∧ AllSlashes rest

lemma startsWith_iff {start : String} : startsWith start s ↔ ∃ rest, s = start ++ rest := by
  rw [startsWith, List.isPrefixOf_iff_prefix]
  constructor
  · rintro ⟨rest, hrest⟩
    exact ⟨String.ofList rest, by rw [← String.toList_inj, String.toList_append,
      String.toList_ofList, hrest]⟩
  · rintro ⟨rest, rfl⟩
    rw [String.toList_append]
    exact List.prefix_append _ _

lemma hasScheme_iff : hasScheme s ↔ ∃ scheme ∈ schemes, ∃ rest, s = scheme ++ ("//" ++ rest) := by
  have hscheme (scheme : String) : (∃ rest, s = scheme ++ "//" ++ rest) ↔
      ∃ rest, s = scheme ++ ("//" ++ rest) := by
    simp only [String.append_assoc]
  rw [hasScheme, Bool.or_eq_true, startsWith_iff, startsWith_iff]
  simp only [schemes, List.exists_mem_cons_iff, List.not_mem_nil, false_and, exists_false, or_false]
  rw [← hscheme, ← hscheme]
  rfl

lemma IsBare.hasScheme (h : IsBare s) : hasScheme s := by
  obtain ⟨scheme, hscheme, rest, hrest, -⟩ := h
  exact hasScheme_iff.2 ⟨scheme, hscheme, rest, hrest⟩

/-- Of a bare address the scheme is left, and no more. -/
lemma trimSlashes_of_isBare (h : IsBare s) : trimSlashes s ∈ schemes := by
  obtain ⟨scheme, hscheme, rest, rfl, hrest⟩ := h
  have hslashes : AllSlashes ("//" ++ rest) := by
    intro ch hch
    rw [String.toList_append, List.mem_append] at hch
    rcases hch with hch | hch
    · simpa using hch
    · exact hrest ch hch
  rw [trimSlashes_append_of_all hslashes]
  have hself : ∀ scheme ∈ schemes, trimSlashes scheme = scheme := by decide
  rwa [hself scheme hscheme]

/-- Every address but a bare one keeps its scheme without the slashes at its end. -/
lemma hasScheme_trimSlashes_iff : hasScheme (trimSlashes s) ↔ hasScheme s ∧ ¬IsBare s := by
  constructor
  · intro h
    refine ⟨?_, fun hbare => ?_⟩
    · obtain ⟨scheme, hscheme, rest, hrest⟩ := hasScheme_iff.1 h
      obtain ⟨slashes, -, hs⟩ := exists_slashes s
      rw [hrest, String.append_assoc, String.append_assoc] at hs
      exact hasScheme_iff.2 ⟨scheme, hscheme, _, hs⟩
    · have hnone : ∀ scheme ∈ schemes, hasScheme scheme = false := by decide
      rw [hnone _ (trimSlashes_of_isBare hbare)] at h
      cases h
  · rintro ⟨h, hbare⟩
    obtain ⟨scheme, hscheme, rest, rfl⟩ := hasScheme_iff.1 h
    have hrest : ¬AllSlashes rest := fun hrest => hbare ⟨scheme, hscheme, rest, rfl, hrest⟩
    rw [← String.append_assoc, trimSlashes_append_of_not_all hrest, String.append_assoc]
    exact hasScheme_iff.2 ⟨scheme, hscheme, _, rfl⟩

/-! ### Connections that can be used -/

/-- The connection to the address without the slashes at its end, paged alike. -/
def normalised (c : Connection) : Connection :=
  { ofAddress c.address with pageSize := c.pageSize, maxPages := c.maxPages }

lemma check_eq_ok_iff :
    c.check = .ok () ↔ hasScheme c.address ∧ c.pageSize ≠ 0 ∧ c.maxPages ≠ 0 := by
  have hempty : c.address = "" → hasScheme c.address = false := by
    intro h
    rw [h]
    decide
  rw [check]
  split_ifs <;> simp_all

/-- A connection can be used if it can be without its slashes, and also if it is bare. -/
lemma check_eq_ok_iff_normalised :
    c.check = .ok () ↔ c.normalised.check = .ok () ∨
      IsBare c.address ∧ c.pageSize ≠ 0 ∧ c.maxPages ≠ 0 := by
  have hscheme : hasScheme c.normalised.address ↔ hasScheme c.address ∧ ¬IsBare c.address :=
    hasScheme_trimSlashes_iff
  have hpaging : c.normalised.pageSize = c.pageSize ∧ c.normalised.maxPages = c.maxPages :=
    ⟨rfl, rfl⟩
  rw [check_eq_ok_iff, check_eq_ok_iff, hscheme, hpaging.1, hpaging.2]
  by_cases hbare : IsBare c.address
  · simp [hbare, hbare.hasScheme]
  · simp [hbare]

/-- Without its slashes a bare address is refused for its scheme. -/
lemma check_normalised_of_isBare (h : IsBare c.address) :
    c.normalised.check = .error (.unsupportedScheme c.normalised.address) := by
  have hscheme : c.normalised.address ∈ schemes := trimSlashes_of_isBare h
  have hnone : ∀ scheme ∈ schemes, scheme ≠ "" ∧ hasScheme scheme = false := by decide
  obtain ⟨hne, hfalse⟩ := hnone _ hscheme
  rw [check, if_neg hne, if_pos (by rw [hfalse]; rfl)]

end Connection

/-! ### Requests of an exchange -/

/-- Where a request goes, the parameters apart. -/
def Request.url (r : Request) : String := r.address ++ r.path

namespace Exchange

variable {α β : Type} {P Q : Request → Prop}

/-- Every request that an exchange may come to satisfies a condition, whatever the replies are. -/
def EachAsks (P : Request → Prop) : Exchange α → Prop
  | done _ => True
  | log _ next => next.EachAsks P
  | ask r next => P r ∧ ∀ reply, (next reply).EachAsks P

/-- One exchange after another. -/
lemma EachAsks.bind {x : Exchange α} {f : α → Exchange β} (hx : x.EachAsks P)
    (hf : ∀ a, (f a).EachAsks P) : (x >>= f).EachAsks P := by
  induction x with
  | done a => exact hf a
  | log l next ih => exact ih hx
  | ask r next ih => exact ⟨hx.1, fun reply => ih reply (hx.2 reply)⟩

lemma EachAsks.mono {x : Exchange α} (hx : x.EachAsks P) (h : ∀ r, P r → Q r) : x.EachAsks Q := by
  induction x with
  | done a => trivial
  | log l next ih => exact ih hx
  | ask r next ih => exact ⟨h r hx.1, fun reply => ih reply (hx.2 reply)⟩

lemma eachAsks_tell (notes : List Note) : (tell notes).EachAsks P := by
  induction notes with
  | nil => trivial
  | cons n notes ih => exact ih

end Exchange

namespace Client

variable (c : Client) (path : String)

/-- The requests under a path. -/
def Under (r : Request) : Prop := r.url = c.address ++ path

lemma eachAsks_get (parameters : List (String × Nat)) :
    (c.get path parameters).EachAsks (c.Under path) := by
  refine ⟨rfl, fun reply => ?_⟩
  dsimp only
  split
  · split <;> trivial
  · trivial

lemma eachAsks_pages (left page : Nat) (got : List Json) :
    (c.pages path left page got).EachAsks (c.Under path) := by
  induction left generalizing page got with
  | zero => trivial
  | succ left ih =>
      have hpage : (c.page path page).EachAsks (c.Under path) :=
        (c.eachAsks_get path _).bind fun _ => trivial
      refine hpage.bind fun result => ?_
      cases result with
      | error e => trivial
      | ok batch =>
          dsimp only
          split_ifs
          · trivial
          · trivial
          · exact ih (page + 1) (got ++ batch)

lemma eachAsks_balance (token : UInt64) : (c.balance token).EachAsks (c.Under Balance.path) :=
  (c.eachAsks_get _ _).bind fun _ => trivial

lemma eachAsks_fetchAll (ks : List Collection) (got : Collections Json) :
    (c.fetchAll ks got).EachAsks fun r => ∃ k : Collection, c.Under k.path r := by
  induction ks generalizing got with
  | nil => trivial
  | cons k ks ih =>
      refine ((c.eachAsks_pages k.path c.maxPages 0 []).mono fun r hr => ⟨k, hr⟩).bind
        fun result => ?_
      cases result with
      | error e => trivial
      | ok records => exact ih (got.set k records)

lemma eachAsks_load (policy : Policy) (cycle : Nat) (now : Instant) :
    (c.load policy cycle now).EachAsks fun r => ∃ k : Collection, c.Under k.path r := by
  refine (Exchange.eachAsks_tell _).bind fun _ => ?_
  refine (c.eachAsks_fetchAll Collection.all {}).bind fun result => ?_
  cases result with
  | error e => exact (Exchange.eachAsks_tell _).bind fun _ => trivial
  | ok raw => exact (Exchange.eachAsks_tell _).bind fun _ => trivial

end Client

/-! ### Clients -/

lemma Client.connect_eq_ok_iff {c : Connection} {client : Client} :
    Client.connect c = .ok client ↔ c.check = .ok () ∧
      client = ⟨Connection.trimSlashes c.address, c.pageSize, c.maxPages⟩ := by
  rw [connect]
  cases c.check with
  | error e => simp
  | ok _ => simp [eq_comm]

/-- **Which connections make a client.** A connection makes a client if and only if the connection
to the same address without the slashes at its end can be used; or else the address has nothing but
slashes behind its scheme, and neither size is zero. In this case alone the connection without the
slashes is refused. A client has the address without the slashes, and the same paging. The address
does not end with a slash, and it starts with `http://` or `https://` unless it is a bare scheme.
All requests go to that address with the path behind it. -/
theorem connect_iff (c : Connection) :
    ((∃ client, Client.connect c = .ok client) ↔ c.normalised.check = .ok () ∨
      Connection.IsBare c.address ∧ c.pageSize ≠ 0 ∧ c.maxPages ≠ 0) ∧
    (Connection.IsBare c.address →
      c.normalised.check = .error (.unsupportedScheme c.normalised.address)) ∧
    ∀ client, Client.connect c = .ok client →
      client = ⟨c.normalised.address, c.pageSize, c.maxPages⟩ ∧
      client.address.toList.getLast? ≠ some '/' ∧
      (Connection.hasScheme client.address ↔ ¬Connection.IsBare c.address) ∧
      (Connection.IsBare c.address → client.address = "http:" ∨ client.address = "https:") ∧
      (∀ path, (client.collection path).EachAsks fun r => r.url = client.address ++ path) ∧
      (∀ token, (client.balance token).EachAsks fun r =>
        r.url = client.address ++ "/ledger_balance") ∧
      ∀ policy cycle now, (client.load policy cycle now).EachAsks fun r =>
        ∃ k : Collection, r.url = client.address ++ k.path := by
  have hconnects : (∃ client, Client.connect c = .ok client) ↔ c.check = .ok () := by
    simp only [Client.connect_eq_ok_iff, exists_and_left, exists_eq, and_true]
  refine ⟨?_, Connection.check_normalised_of_isBare, fun client hclient => ?_⟩
  · rw [hconnects, Connection.check_eq_ok_iff_normalised]
  · obtain ⟨hcheck, rfl⟩ := Client.connect_eq_ok_iff.1 hclient
    have hscheme := (Connection.check_eq_ok_iff.1 hcheck).1
    refine ⟨rfl, Connection.getLast?_trimSlashes _, ?_, fun hbare => ?_,
      fun path => Client.eachAsks_pages _ path _ _ _, Client.eachAsks_balance _,
      Client.eachAsks_load _⟩
    · rw [Connection.hasScheme_trimSlashes_iff, and_iff_right hscheme]
    · simpa [Connection.schemes] using Connection.trimSlashes_of_isBare hbare

/-- The address `http://` makes a client, whose address is `http:`. Without its slashes it is
refused for its scheme. -/
theorem bare_address_connects :
    Client.connect { address := "http://" } = .ok ⟨"http:", 50, 100⟩ ∧
    Connection.hasScheme "http:" = false ∧
    (Connection.ofAddress "http://").check = .error (.unsupportedScheme "http:") :=
  ⟨by rfl, by decide, by rfl⟩

end BridgeAudit

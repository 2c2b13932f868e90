import BridgeAudit.Proofs.Auditor.Paging

/-!
The page at which a list ends, whatever the server does.

* `PageResult`: what the reply to the request for a page comes to, case by case.
* `Client.lastPage`: the first page that has a fault or is short, and otherwise the last one that
  may be asked for.
* `Server.Gives`: a server that gives certain results for the pages of a list.
* `Client.interview_full`: full pages are gone through one after another.
* `Client.interview_last`: at the last page the list ends.
* `collection_of_gives`: every page up to the last one is asked for once, in order, and the last one
  decides what comes of the list.
-/

namespace BridgeAudit

/-- What the reply to the request for a page comes to: the records of the page, or what is wrong. -/
inductive PageResult (path : String) : Reply → Except AuditorError (List Json) → Prop
  | closed : PageResult path .closed (.error .transport)
  | refused {status : Status} (body : Option Json) (h : status.isSuccess = false) :
      PageResult path (.answered status body) (.error (.status path status))
  | noJson {status : Status} (h : status.isSuccess) :
      PageResult path (.answered status none) (.error .transport)
  | records {status : Status} (items : List Json) (h : status.isSuccess) :
      PageResult path (.answered status (some (.array items))) (.ok items)
  | noArray {status : Status} {v : Json} (h : status.isSuccess) (hv : ∀ items, v ≠ .array items) :
      PageResult path (.answered status (some v))
        (.error (.unexpectedShape path ("expected a JSON array, got " ++ v.kindName)))

/-- The results of the pages of a list, by their numbers. -/
abbrev PageResults := Nat → Except AuditorError (List Json)

namespace Client

variable {c : Client} {path : String} {server : Server} {asked : List Request}
variable {results : PageResults} {left page : Nat} {got batch : List Json}

lemma pageOf_eq {reply : Reply} {result : Except AuditorError (List Json)}
    (h : PageResult path reply result) : pageOf path reply = result := by
  cases h with
  | closed => rfl
  | refused body h => simp [pageOf, bodyOf, h, Except.bind]
  | noJson h => simp [pageOf, bodyOf, h, Except.bind]
  | records items h => simp [pageOf, bodyOf, h, Except.bind, recordsOf]
  | @noArray status v h hv =>
      cases v with
      | array items => exact absurd rfl (hv items)
      | _ => simp [pageOf, bodyOf, h, Except.bind, recordsOf]

/-- Every reply comes to something. -/
lemma pageResult_pageOf (path : String) (reply : Reply) :
    PageResult path reply (pageOf path reply) := by
  cases reply with
  | closed => exact .closed
  | answered status body =>
      cases h : status.isSuccess with
      | false => simpa [pageOf, bodyOf, h, Except.bind] using PageResult.refused body h
      | true =>
          cases body with
          | none => simpa [pageOf, bodyOf, h, Except.bind] using PageResult.noJson h
          | some v =>
              rw [pageOf, bodyOf, if_pos h, Except.bind]
              cases v with
              | array items => exact .records items h
              | _ => exact .noArray h (by simp)

/-! ### The last page -/

/-- A list ends with a page that has a fault or is short. -/
def ends (c : Client) : Except AuditorError (List Json) → Bool
  | .error _ => true
  | .ok batch => batch.length < c.pageSize

/-- The first page with which the list ends, and the last page that may be asked for if there is
none. -/
def lastPage (c : Client) (results : PageResults) : Nat :=
  ((List.range c.maxPages).find? fun page => c.ends (results page)).getD (c.maxPages - 1)

lemma lastPage_lt (h : 0 < c.maxPages) : c.lastPage results < c.maxPages := by
  rw [lastPage]
  cases hfind : (List.range c.maxPages).find? fun page => c.ends (results page) with
  | none => exact Nat.sub_one_lt_of_lt h
  | some page => exact List.mem_range.mp (List.mem_of_find?_eq_some hfind)

/-- With no page before the last one does the list end. -/
lemma ends_of_lt_lastPage (h : page < c.lastPage results) : c.ends (results page) = false := by
  rw [lastPage] at h
  cases hfind : (List.range c.maxPages).find? fun page => c.ends (results page) with
  | none =>
      rw [hfind, Option.getD_none] at h
      simpa using List.find?_eq_none.mp hfind page (List.mem_range.mpr (by omega))
  | some last =>
      rw [hfind, Option.getD_some] at h
      simpa using (List.find?_range_eq_some.mp hfind).2.2 page h

/-- The list ends with the last page, unless no more pages may be asked for. -/
lemma ends_lastPage (h : c.lastPage results ≠ c.maxPages - 1) :
    c.ends (results (c.lastPage results)) = true := by
  rw [lastPage] at h ⊢
  cases hfind : (List.range c.maxPages).find? fun page => c.ends (results page) with
  | none => exact absurd (by rw [hfind, Option.getD_none]) h
  | some last =>
      have hends := List.find?_some hfind
      exact hends

/-- All pages in front of the last one are full or longer. -/
lemma exists_full (c : Client) (results : PageResults) : ∃ full : List (List Json),
    (List.range (c.lastPage results)).map results = full.map .ok ∧
      ∀ batch ∈ full, c.pageSize ≤ batch.length := by
  have hpage : ∀ page < c.lastPage results,
      ∃ batch, results page = .ok batch ∧ c.pageSize ≤ batch.length := by
    intro page hpage
    have hends := ends_of_lt_lastPage hpage
    cases hresult : results page with
    | error e => simp [hresult, ends] at hends
    | ok batch => exact ⟨batch, rfl, by simpa [hresult, ends] using hends⟩
  choose! batch hok hsize using hpage
  refine ⟨(List.range (c.lastPage results)).map batch, ?_, fun b hb => ?_⟩
  · rw [List.map_map]
    exact List.map_congr_left fun page hpage => hok page (List.mem_range.mp hpage)
  · obtain ⟨page, hpage, rfl⟩ := List.mem_map.mp hb
    exact hsize page (List.mem_range.mp hpage)

/-! ### Page after page -/

/-- The requests for the first pages of a list. -/
def requests (c : Client) (path : String) (count : Nat) : List Request :=
  (List.range count).map (c.pageRequest path)

lemma requests_succ (c : Client) (path : String) (count : Nat) :
    c.requests path (count + 1) = c.requests path count ++ [c.pageRequest path count] := by
  rw [requests, List.range_succ, List.map_append]
  rfl

end Client

/-- The pages of a list, asked for one after another behind other requests, come to the given
results. The server may make its replies depend on all that has been asked. -/
def Server.Gives (server : Server) (c : Client) (path : String) (asked : List Request)
    (results : PageResults) : Prop :=
  ∀ page, PageResult path (server (asked ++ c.requests path page) (c.pageRequest path page))
    (results page)

/-- Whatever a server replies, the pages of a list come to certain results. -/
lemma Server.exists_gives (server : Server) (c : Client) (path : String) (asked : List Request) :
    ∃ results, server.Gives c path asked results :=
  ⟨_, fun _ => Client.pageResult_pageOf path _⟩

namespace Client

variable {c : Client} {path : String} {server : Server} {asked : List Request}
variable {results : PageResults} {left page : Nat} {got batch : List Json}

/-- What one more page comes to. -/
lemma interview_pages_gives (h : server.Gives c path asked results) (left page : Nat)
    (got : List Json) :
    (c.pages path (left + 1) page got).interview server (asked ++ c.requests path page) =
      match results page with
      | .error e => (.error e, asked ++ c.requests path (page + 1))
      | .ok batch =>
          if batch.length < c.pageSize then
            (.ok (got ++ batch), asked ++ c.requests path (page + 1))
          else (c.pages path left (page + 1) (got ++ batch)).interview server
            (asked ++ c.requests path (page + 1)) := by
  have hpage := pageOf_eq (h page)
  rw [interview_pages_succ, List.append_assoc, ← requests_succ]
  cases hresult : results page with
  | error e => rw [hpage, hresult]
  | ok batch => rw [hpage, hresult]

/-- Full pages are gone through one after another; their records are gathered in order. -/
lemma interview_full (h : server.Gives c path asked results) (full : List (List Json)) :
    ∀ (left page : Nat) (got : List Json),
      (List.range' page full.length).map results = full.map .ok →
      (∀ batch ∈ full, c.pageSize ≤ batch.length) →
      (c.pages path (full.length + left) page got).interview server
          (asked ++ c.requests path page) =
        (c.pages path left (page + full.length) (got ++ full.flatten)).interview server
          (asked ++ c.requests path (page + full.length)) := by
  induction full with
  | nil =>
      intro left page got _ _
      rw [List.length_nil, Nat.zero_add, Nat.add_zero, List.flatten_nil, List.append_nil]
  | cons batch full ih =>
      intro left page got hresults hfull
      rw [List.length_cons, List.range'_succ, List.map_cons, List.map_cons, List.cons.injEq]
        at hresults
      rw [List.forall_mem_cons] at hfull
      have hlength : full.length + 1 + left = full.length + left + 1 := by omega
      have hpage : page + (full.length + 1) = page + 1 + full.length := by omega
      rw [List.length_cons, hlength, interview_pages_gives h, hresults.1]
      dsimp only
      rw [if_neg (by omega), ih left (page + 1) (got ++ batch) hresults.2 hfull.2, hpage,
        List.flatten_cons, List.append_assoc]

/-- At a page with which the list ends, or behind which no more may be asked for, the records so far
are all that comes, with those of the page, unless the page has a fault. -/
lemma interview_last (h : server.Gives c path asked results)
    (hlast : c.ends (results page) ∨ left = 0) :
    (c.pages path (left + 1) page got).interview server (asked ++ c.requests path page) =
      ((results page).map (got ++ ·), asked ++ c.requests path (page + 1)) := by
  rw [interview_pages_gives h]
  cases hresult : results page with
  | error e => rfl
  | ok batch =>
      dsimp only
      split
      next => rfl
      next hshort =>
        rw [hresult] at hlast
        obtain rfl : left = 0 := hlast.resolve_left (by simpa [ends] using hshort)
        rfl

/-- Behind the full pages the last one is asked for, and it decides what comes of the list. -/
lemma interview_collection (h : server.Gives c path asked results) (hmax : 0 < c.maxPages)
    {full : List (List Json)}
    (hresults : (List.range (c.lastPage results)).map results = full.map .ok)
    (hfull : ∀ batch ∈ full, c.pageSize ≤ batch.length) :
    (c.collection path).interview server asked =
      ((results (c.lastPage results)).map (full.flatten ++ ·),
        asked ++ c.requests path (c.lastPage results + 1)) := by
  have hlength : full.length = c.lastPage results := by
    simpa using (congrArg List.length hresults).symm
  have hlt : c.lastPage results < c.maxPages := lastPage_lt hmax
  have hleft : full.length + (c.maxPages - 1 - c.lastPage results + 1) = c.maxPages := by omega
  have hends : c.ends (results (c.lastPage results)) ∨ c.maxPages - 1 - c.lastPage results = 0 := by
    by_cases hmaximal : c.lastPage results = c.maxPages - 1
    · exact .inr (by omega)
    · exact .inl (ends_lastPage hmaximal)
  have hwalk := interview_full h full (c.maxPages - 1 - c.lastPage results + 1) 0 []
    (by rw [hlength, ← List.range_eq_range', hresults]) hfull
  rw [hleft, hlength, Nat.zero_add, List.nil_append, interview_last h hends] at hwalk
  simpa [collection, requests] using hwalk

/-! ### Offsets -/

/-- No page is asked for with an offset beyond the records of the full pages in front of it. -/
lemma mul_pageSize_le {full : List (List Json)} (hfull : ∀ batch ∈ full, c.pageSize ≤ batch.length)
    (hpage : page ≤ full.length) : page * c.pageSize ≤ full.flatten.length := by
  have hsizes : full.length * c.pageSize ≤ (full.map List.length).sum := by
    have hle := List.card_nsmul_le_sum (full.map List.length) c.pageSize (by simpa using hfull)
    simpa using hle
  calc page * c.pageSize ≤ full.length * c.pageSize := Nat.mul_le_mul_right _ hpage
    _ ≤ (full.map List.length).sum := hsizes
    _ = full.flatten.length := List.length_flatten.symm

end Client

/-- **A list ends with its first page that has a fault or is short.** Whatever a server replies, its
pages come to certain results, and a client asks for every page up to the last one once, in order,
and for nothing else. All pages in front of the last one are full or longer. If the last one has a
fault, nothing but that fault comes of the list, and otherwise all records of all these pages do, in
order. The offset of each page is exact as long as there are fewer than 2^64 records in front of the
last one. -/
theorem collection_of_gives (c : Client) (path : String) (server : Server) (asked : List Request)
    (hmax : 0 < c.maxPages) :
    (∃ results, server.Gives c path asked results) ∧
    ∀ results, server.Gives c path asked results →
      let last := c.lastPage results
      let outcome := (c.collection path).interview server asked
      ∃ full : List (List Json),
        (List.range last).map results = full.map .ok ∧
        (∀ batch ∈ full, c.pageSize ≤ batch.length) ∧
        outcome.2 = asked ++ (List.range (last + 1)).map (c.pageRequest path) ∧
        (∀ e, results last = .error e → outcome.1 = .error e) ∧
        (∀ batch, results last = .ok batch → outcome.1 = .ok (full.flatten ++ batch)) ∧
        (full.flatten.length < 2 ^ 64 → ∀ page ≤ last, c.pageRequest path page =
          ⟨c.address, path, [("offset", page * c.pageSize), ("limit", c.pageSize)]⟩) := by
  refine ⟨server.exists_gives c path asked, fun results hgives => ?_⟩
  intro last outcome
  obtain ⟨full, hresults, hfull⟩ := c.exists_full results
  have houtcome : outcome = ((results last).map (full.flatten ++ ·),
      asked ++ c.requests path (last + 1)) :=
    Client.interview_collection hgives hmax hresults hfull
  refine ⟨full, hresults, hfull, by rw [houtcome]; rfl, fun e he => ?_, fun b hb => ?_, ?_⟩
  · rw [houtcome, he]
    rfl
  · rw [houtcome, hb]
    rfl
  · intro hfits page hpage
    have hlength : full.length = last := by simpa using (congrArg List.length hresults).symm
    have hle := Client.mul_pageSize_le hfull (hlength.symm ▸ hpage)
    have hword : page * c.pageSize < Bits.bound 64 := hle.trans_lt hfits
    rw [Client.pageRequest, Client.offset, Nat.mod_eq_of_lt hword]

/-- A server that gives too many records, then a full page, and then has a fault. -/
def Server.failing : Server := fun asked _ =>
  match asked.length with
  | 0 => .answered 200 (some (.array [.ofNat 1, .ofNat 2, .ofNat 3]))
  | 1 => .answered 206 (some (.array [.ofNat 4, .ofNat 5]))
  | _ => .answered 503 none

/-- A fault at the third page leaves nothing of the two in front of it. If no third page may be
asked for, all their records are there, those beyond the page size too. -/
theorem collection_of_failing :
    let results : PageResults := fun page =>
      match page with
      | 0 => .ok [.ofNat 1, .ofNat 2, .ofNat 3]
      | 1 => .ok [.ofNat 4, .ofNat 5]
      | _ => .error (.status "/b" 503)
    let request : Nat → Request := fun offset => ⟨"a", "/b", [("offset", offset), ("limit", 2)]⟩
    (∀ c : Client, Server.failing.Gives c "/b" [] results) ∧
      ((⟨"a", 2, 9⟩ : Client).collection "/b").interview Server.failing [] =
        (.error (.status "/b" 503), [request 0, request 2, request 4]) ∧
      ((⟨"a", 2, 2⟩ : Client).collection "/b").interview Server.failing [] =
        (.ok [.ofNat 1, .ofNat 2, .ofNat 3, .ofNat 4, .ofNat 5], [request 0, request 2]) := by
  intro results request
  have hgives (c : Client) : Server.failing.Gives c "/b" [] results := by
    intro page
    have hlength : ([] ++ c.requests "/b" page).length = page := by simp [Client.requests]
    rw [Server.failing, hlength]
    match page with
    | 0 => exact .records _ rfl
    | 1 => exact .records _ rfl
    | _ + 2 => exact .refused none rfl
  refine ⟨hgives, ?_, ?_⟩
  · obtain ⟨-, hpages⟩ := collection_of_gives ⟨"a", 2, 9⟩ "/b" Server.failing [] (by decide)
    obtain ⟨_, _, _, hrequests, herror, -⟩ := hpages results (hgives _)
    exact Prod.ext (herror _ rfl) hrequests
  · obtain ⟨-, hpages⟩ := collection_of_gives ⟨"a", 2, 2⟩ "/b" Server.failing [] (by decide)
    obtain ⟨full, hfull, _, hrequests, -, hok, -⟩ := hpages results (hgives _)
    have hflat : full = [[.ofNat 1, .ofNat 2, .ofNat 3]] :=
      List.map_injective_iff.mpr (fun _ _ => Except.ok.inj) hfull.symm
    exact Prod.ext (by rw [hok _ rfl, hflat]; rfl) hrequests

end BridgeAudit

import BridgeAudit.Proofs.Auditor.Interview

/-!
Walking through the pages of a list.

* `Client.interview_pages_succ`: what one more page comes to.
* `Server.Serves`: a server that gives slices of a list, as long as asked for while the list lasts.
* `Client.interview_pages`: the pages from one on, where all pages before it were full.
* `collection_of_serves`: a list is fetched completely and exactly, up to the largest number of
  pages, and no offset leaves the 64 bits.
-/

namespace BridgeAudit

/-- Under a path the server gives slices of a list: as many records as the limit says, from the
offset on, and fewer only where the list ends. -/
def Server.Serves (server : Server) (address path : String) (records : List Json) : Prop :=
  ∀ asked offset limit, ∃ status : Status, status.isSuccess ∧
    server asked ⟨address, path, [("offset", offset), ("limit", limit)]⟩ =
      .answered status (some (.array ((records.drop offset).take limit)))

namespace Client

variable {c : Client} {path : String} {server : Server} {records : List Json}

/-! ### One page -/

/-- One more page ends the list if it has a fault or is short; otherwise the next ones follow. -/
lemma interview_pages_succ (c : Client) (path : String) (server : Server) (asked : List Request)
    (left page : Nat) (got : List Json) :
    (c.pages path (left + 1) page got).interview server asked =
      match pageOf path (server asked (c.pageRequest path page)) with
      | .error e => (.error e, asked ++ [c.pageRequest path page])
      | .ok batch =>
          if batch.length < c.pageSize then (.ok (got ++ batch), asked ++ [c.pageRequest path page])
          else (c.pages path left (page + 1) (got ++ batch)).interview server
            (asked ++ [c.pageRequest path page]) := by
  rw [pages, Exchange.interview_bind, interview_page]
  dsimp only
  cases pageOf path (server asked (c.pageRequest path page)) with
  | error e => rfl
  | ok batch =>
      dsimp only
      split
      · rfl
      · split
        · next hleft =>
            -- behind the last page that may be asked for, the list is at its end as well
            rw [hleft]
            rfl
        · rfl

/-- A page of a served list whose offset fits 64 bits. -/
lemma pageOf_serves (hserves : server.Serves c.address path records) {page : Nat}
    (hpage : page * c.pageSize < Bits.bound 64) (asked : List Request) :
    pageOf path (server asked (c.pageRequest path page)) =
      .ok ((records.drop (page * c.pageSize)).take c.pageSize) := by
  obtain ⟨status, hstatus, hreply⟩ := hserves asked (c.offset page) c.pageSize
  rw [pageOf, pageRequest, hreply, bodyOf, if_pos hstatus, offset, Nat.mod_eq_of_lt hpage]
  rfl

/-! ### All pages -/

/-- So many pages are asked for where so many records are left and at most `left` pages may be. -/
def pageCount (c : Client) (left count : Nat) : Nat := min left (count / c.pageSize + 1)

/-- A short page is the last one. -/
lemma pageCount_of_short {left count : Nat} (h : count < c.pageSize) :
    c.pageCount (left + 1) count = 1 := by
  rw [pageCount, Nat.div_eq_of_lt h]
  omega

/-- Behind a full page the others are asked for. -/
lemma pageCount_of_full (hsize : 0 < c.pageSize) {left count : Nat} (h : c.pageSize ≤ count) :
    c.pageCount (left + 1) count = c.pageCount left (count - c.pageSize) + 1 := by
  rw [pageCount, pageCount, Nat.div_eq_sub_div hsize h]
  omega

/-- The pages from one on, where all pages before it have been full: what is left of the list is
fetched, as long as pages may be asked for. A page is only asked for if its offset is no larger than
the list is long. -/
lemma interview_pages (hserves : server.Serves c.address path records)
    (hlength : records.length < Bits.bound 64) (hsize : 0 < c.pageSize) (left page : Nat)
    (got : List Json) (asked : List Request) (hfull : page * c.pageSize ≤ records.length) :
    (c.pages path left page got).interview server asked =
      (.ok (got ++ (records.drop (page * c.pageSize)).take (left * c.pageSize)),
        asked ++ (List.range' page
          (c.pageCount left (records.length - page * c.pageSize))).map (c.pageRequest path)) := by
  induction left generalizing page got asked with
  | zero => simp [pages, finish, pageCount]
  | succ left ih =>
      have hbatch := pageOf_serves hserves (hfull.trans_lt hlength) asked
      have hrest : (records.drop (page * c.pageSize)).length =
          records.length - page * c.pageSize := List.length_drop
      rw [interview_pages_succ, hbatch]
      dsimp only
      rw [List.length_take, hrest]
      by_cases hshort : records.length - page * c.pageSize < c.pageSize
      · -- the page has all that is left
        have hall : (records.drop (page * c.pageSize)).length ≤ (left + 1) * c.pageSize := by
          rw [hrest, Nat.succ_mul]
          omega
        rw [if_pos (by omega), pageCount_of_short hshort, List.take_of_length_le hall,
          List.take_of_length_le (by omega)]
        rfl
      · have hnext : (page + 1) * c.pageSize ≤ records.length := by
          rw [Nat.succ_mul]
          omega
        have hleft : records.length - (page + 1) * c.pageSize =
            records.length - page * c.pageSize - c.pageSize := by
          rw [Nat.succ_mul, Nat.sub_add_eq]
        rw [if_neg (by omega), ih (page + 1) _ _ hnext, hleft,
          pageCount_of_full hsize (Nat.le_of_not_lt hshort), List.range'_succ, List.map_cons,
          Nat.succ_mul left, Nat.add_comm (left * c.pageSize), List.take_add, List.drop_drop,
          ← Nat.succ_mul]
        simp only [List.append_assoc, List.singleton_append]

end Client

/-- **Paging is complete and exact.** From a server that gives slices of a list of fewer than 2^64
records, a client with a page size other than zero gets just the first records of the list, as many
as fit the largest number of pages. It asks for as many pages as it takes to see the end of the
list, unless that are too many, each page once, in order and by its exact offset: for no page that
is asked for does the product of its number and the page size leave the 64 bits. -/
theorem collection_of_serves (c : Client) (path : String) (server : Server) (records : List Json)
    (hserves : server.Serves c.address path records) (hlength : records.length < 2 ^ 64)
    (hsize : 0 < c.pageSize) :
    let count := min c.maxPages (records.length / c.pageSize + 1)
    (c.collection path).interview server [] =
        (.ok (records.take (min records.length (c.pageSize * c.maxPages))),
          (List.range count).map fun page =>
            ⟨c.address, path, [("offset", page * c.pageSize), ("limit", c.pageSize)]⟩) ∧
      ∀ page < count, page * c.pageSize < 2 ^ 64 := by
  intro count
  have hoffset : ∀ page < count, page * c.pageSize < 2 ^ 64 := by
    intro page hpage
    have hpages : page ≤ records.length / c.pageSize := by omega
    calc page * c.pageSize ≤ records.length / c.pageSize * c.pageSize :=
          Nat.mul_le_mul_right _ hpages
      _ ≤ records.length := Nat.div_mul_le_self _ _
      _ < 2 ^ 64 := hlength
  have hpages := Client.interview_pages hserves hlength hsize c.maxPages 0 [] [] (by omega)
  rw [Nat.zero_mul, List.drop_zero, Nat.sub_zero, ← List.range_eq_range'] at hpages
  have hrecords : records.take (c.maxPages * c.pageSize) =
      records.take (min records.length (c.pageSize * c.maxPages)) := by
    rw [List.take_eq_take_iff, Nat.mul_comm, Nat.min_comm records.length, Nat.min_assoc,
      Nat.min_self]
  have hrequests : (List.range count).map (c.pageRequest path) =
      (List.range count).map fun page =>
        ⟨c.address, path, [("offset", page * c.pageSize), ("limit", c.pageSize)]⟩ := by
    refine List.map_congr_left fun page hpage => ?_
    have hfits : page * c.pageSize < Bits.bound 64 := hoffset page (List.mem_range.mp hpage)
    rw [Client.pageRequest, Client.offset, Nat.mod_eq_of_lt hfits]
  rw [← hrecords, ← hrequests]
  exact ⟨hpages, hoffset⟩

/-- A server that gives slices of one list under every path. -/
def Server.ofList (records : List Json) : Server := fun _ r =>
  match r.parameters with
  | [("offset", offset), ("limit", limit)] =>
      .answered 200 (some (.array ((records.drop offset).take limit)))
  | _ => .closed

/-- A list that fills its pages takes one more, which is empty; with no more than one page, only the
first records are fetched. -/
theorem collection_of_fullPages :
    let records := [Json.ofNat 1, .ofNat 2, .ofNat 3, .ofNat 4]
    let request : Nat → Request := fun offset => ⟨"a", "/b", [("offset", offset), ("limit", 2)]⟩
    (Server.ofList records).Serves "a" "/b" records ∧ records.length < 2 ^ 64 ∧
      ((⟨"a", 2, 9⟩ : Client).collection "/b").interview (Server.ofList records) [] =
        (.ok records, [request 0, request 2, request 4]) ∧
      ((⟨"a", 2, 1⟩ : Client).collection "/b").interview (Server.ofList records) [] =
        (.ok [.ofNat 1, .ofNat 2], [request 0]) := by
  intro records request
  have hserves : (Server.ofList records).Serves "a" "/b" records :=
    fun _ _ _ => ⟨200, rfl, rfl⟩
  have hlength : records.length < 2 ^ 64 := by decide
  refine ⟨hserves, hlength, ?_, ?_⟩
  · simpa [records, request, List.range_succ] using
      (collection_of_serves ⟨"a", 2, 9⟩ "/b" _ records hserves hlength (by decide)).1
  · simpa [records, request, List.range_succ] using
      (collection_of_serves ⟨"a", 2, 1⟩ "/b" _ records hserves hlength (by decide)).1

end BridgeAudit

import BridgeAudit.Proofs.Json.Canonical
import BridgeAudit.Proofs.Record.Parsing

/-!
Records with another date.

* `Members.put`: a key with another value, or without any.
* `Members.AgreeOff`: members that are the same but for those under one key.
* `Layout.Holds`: a structure with one of its fields to be replaced; `Layout.Holds.read_set`: the
  structure is read with the new value from members that say so and agree off that field.
* `Redated`: a value, with its keys in snake case, whose burn or deposit has another date.
* `Record.parse_of_redated`: it is parsed as a record with the same shape, amount and token, if that
  shape is one that is summed up.
-/

namespace BridgeAudit

variable {α β : Type}

/-! ### Members but for one key -/

namespace Members

variable {key name : String} {value : Option α} {ms us : List (String × α)}

/-- Members with the given value under a key, or with none. -/
def put (key : String) (value : Option α) (ms : List (String × α)) : List (String × α) :=
  match value with
  | some a => insert key a ms
  | none => ms.filter fun m => m.1 ≠ key

/-- Members that are the same but for those under one key. -/
def AgreeOff (key : String) (ms us : List (String × α)) : Prop :=
  ms.filter (fun m => m.1 ≠ key) = us.filter fun m => m.1 ≠ key

lemma AgreeOff.symm (h : AgreeOff key ms us) : AgreeOff key us ms := Eq.symm h

lemma filter_insert (key : String) (a : α) (ms : List (String × α)) :
    (insert key a ms).filter (fun m => m.1 ≠ key) = ms.filter fun m => m.1 ≠ key := by
  induction ms with
  | nil => simp [insert]
  | cons m ms ih =>
      rw [insert]
      split
      · simp
      · split
        next heq => simp [heq]
        next => rw [List.filter_cons, List.filter_cons, ih]

lemma agreeOff_put (key : String) (value : Option α) (ms : List (String × α)) :
    AgreeOff key ms (put key value ms) := by
  cases value with
  | none => simp [AgreeOff, put, List.filter_filter]
  | some a => exact (filter_insert key a ms).symm

lemma get?_put (key : String) (value : Option α) (ms : List (String × α)) :
    get? (put key value ms) key = value := by
  cases value with
  | none => simp [put, get?, List.find?_eq_none]
  | some a => exact get?_insert_self key a ms

lemma InOrder.put (value : Option α) (h : InOrder ms) : InOrder (put key value ms) := by
  cases value with
  | none => exact h.filter _
  | some a => exact h.insert a

/-- A value that takes the place of another one stays in that place. -/
lemma put_of_inOrder {before after : List (String × α)} {a : α} (b : α)
    (h : InOrder (before ++ (key, a) :: after)) :
    put key (some b) (before ++ (key, a) :: after) = before ++ (key, b) :: after := by
  rw [put]
  induction before with
  | nil => simp [insert]
  | cons m before ih =>
      obtain ⟨hm, hrest⟩ := List.pairwise_cons.1 h
      have hlt : m.1 < key := hm (key, a) (by simp)
      rw [List.cons_append, insert, if_neg hlt.le.not_gt, if_neg hlt.ne', ih hrest]
      rfl

lemma get?_of_inOrder {before after : List (String × α)} {a : α}
    (h : InOrder (before ++ (key, a) :: after)) :
    get? (before ++ (key, a) :: after) key = some a := by
  have hput := get?_put key (some a) (before ++ (key, a) :: after)
  rwa [put_of_inOrder a h] at hput

lemma mem_put {m : String × α} (h : m ∈ put key value ms) :
    (∃ a, value = some a ∧ m = (key, a)) ∨ m ∈ ms := by
  cases value with
  | none => exact .inr (List.mem_filter.1 h).1
  | some a => exact (mem_insert h).imp_left fun hm => ⟨a, rfl, hm⟩

lemma mem_of_get? {a : α} (h : get? ms key = some a) : (key, a) ∈ ms := by
  obtain ⟨⟨k, b⟩, hfind, rfl⟩ := Option.map_eq_some_iff.1 h
  have hk := List.find?_some hfind
  obtain rfl : k = key := of_decide_eq_true hk
  exact List.mem_of_find?_eq_some hfind

/-- Other keys are there or not as before. -/
lemma AgreeOff.mem_keys_iff (h : AgreeOff key ms us) (hname : name ≠ key) :
    name ∈ ms.map (·.1) ↔ name ∈ us.map (·.1) := by
  have hmem : ∀ ks : List (String × α), name ∈ ks.map (·.1) ↔
      name ∈ (ks.filter fun m => m.1 ≠ key).map (·.1) := fun ks => by
    simp only [List.mem_map, List.mem_filter, decide_eq_true_eq]
    constructor
    · rintro ⟨m, hm, rfl⟩
      exact ⟨m, ⟨hm, hname⟩, rfl⟩
    · rintro ⟨m, ⟨hm, -⟩, rfl⟩
      exact ⟨m, hm, rfl⟩
  rw [hmem ms, hmem us, h]

/-- In order there is one member under a key at most. -/
lemma InOrder.filter_key (h : InOrder ms) (key : String) :
    ms.filter (fun m => m.1 = key) = ((get? ms key).map fun a => (key, a)).toList := by
  induction ms with
  | nil => rfl
  | cons m ms ih =>
      obtain ⟨hm, hms⟩ := List.pairwise_cons.1 h
      by_cases hkey : m.1 = key
      · have hnone : ms.filter (fun m => m.1 = key) = [] := by
          refine List.filter_eq_nil_iff.2 fun n hn => ?_
          simpa [hkey] using (hkey ▸ hm n hn).ne'
        obtain ⟨k, a⟩ := m
        subst hkey
        simp [get?, hnone]
      · have hrest := ih hms
        simpa [get?, hkey] using hrest

end Members

open Members (AgreeOff InOrder)

variable {ms us : List (String × Json)} {key : String}

/-- A field is given alike by members that agree off a key that it does not go by. -/
lemma Members.AgreeOff.given_eq {f : Field α} (h : AgreeOff key ms us) (hf : ¬f.answersTo key) :
    f.given ms = f.given us := by
  have hgiven : ∀ ks : List (String × Json), f.given ks =
      (ks.filter fun m => m.1 ≠ key).filter fun m => f.answersTo m.1 := fun ks => by
    rw [List.filter_filter, Field.given]
    refine List.filter_congr fun m _ => ?_
    have hne : f.answersTo m.1 → m.1 ≠ key := by
      rintro hm rfl
      exact hf hm
    by_cases hm : f.answersTo m.1 <;> simp [hm, hne]
  rw [hgiven ms, hgiven us, h]

/-- A field with one name is found in members that are in order just if its value is what is said
under that name, or its default. -/
lemma Cell.foundIn_iff_get? (c : Cell) (h : InOrder ms) (hother : c.field.otherName = none) :
    c.FoundIn ms ↔ match Members.get? ms c.field.name with
      | none => c.field.default = some c.value
      | some v => c.field.codec.read v = .ok c.value := by
  have hgiven : c.field.given ms = ms.filter fun m => m.1 = c.field.name :=
    List.filter_congr fun m _ => by simp [Field.answersTo, hother]
  rw [FoundIn, hgiven, h.filter_key]
  cases Members.get? ms c.field.name <;> simp

/-! ### Structures with another value of a field -/

/-- A structure has a field that can be replaced; none of the fields around it goes by its name. -/
structure Layout.Holds (layout : Layout α) (f : Field β) (get : α → β) (set : β → α → α) :
    Prop where
  set_get : ∀ a, set (get a) a = a
  exists_split : ∀ a, ∃ before after, (∀ b, layout.cells (set b a) = before ++ ⟨f, b⟩ :: after) ∧
    ∀ c ∈ before ++ after, ¬c.field.answersTo f.name

namespace Layout

variable {layout : Layout α} {f : Field β} {get : α → β} {set : β → α → α} {a : α} {b : β}

lemma Holds.mem_cells (h : layout.Holds f get set) (a : α) : ⟨f, get a⟩ ∈ layout.cells a := by
  obtain ⟨before, after, hcells, -⟩ := h.exists_split a
  have hself := hcells (get a)
  rw [h.set_get] at hself
  simp [hself]

/-- A structure is read with another value of a field from members that say so, and agree on all
others. -/
lemma Holds.read_set (h : layout.Holds f get set) (hsound : layout.Sound)
    (hagree : AgreeOff f.name ms us) (hread : layout.read (.object ms) = .ok a)
    (hfound : (⟨f, b⟩ : Cell).FoundIn us) : layout.read (.object us) = .ok (set b a) := by
  obtain ⟨before, after, hcells, hanswers⟩ := h.exists_split a
  have hself := hcells (get a)
  rw [h.set_get] at hself
  rw [hsound.read_object_iff, hself, List.forall_mem_append, List.forall_mem_cons] at hread
  rw [hsound.read_object_iff, hcells b, List.forall_mem_append, List.forall_mem_cons]
  rw [List.forall_mem_append] at hanswers
  have hkept : ∀ c : Cell, ¬c.field.answersTo f.name → c.FoundIn ms → c.FoundIn us := by
    intro c hc hms
    rwa [Cell.FoundIn, hagree.given_eq hc] at hms
  exact ⟨fun c hc => hkept c (hanswers.1 c hc) (hread.1 c hc), hfound,
    fun c hc => hkept c (hanswers.2 c hc) (hread.2.2 c hc)⟩

/-- A structure is read alike from members that agree off a key that it does not use. -/
lemma Sound.read_of_agreeOff (hsound : layout.Sound) (hagree : AgreeOff key ms us)
    (hkey : key ∉ layout.table.names) (hread : layout.read (.object ms) = .ok a) :
    layout.read (.object us) = .ok a := by
  rw [hsound.read_object_iff] at hread ⊢
  intro c hc
  have hanswers : ¬c.field.answersTo key := Table.not_answersTo_of_notMem (column_mem hc) hkey
  have hc := hread c hc
  rwa [Cell.FoundIn, hagree.given_eq hanswers] at hc

end Layout

/-- A date in one of the structures. -/
def dateField (name : String) : Field (Option String) :=
  ⟨name, none, some none, Codec.text.optional⟩

/-- A structure in another one. -/
def partField (name : String) (layout : Layout α) : Field α := ⟨name, none, none, layout.codec⟩

lemma Deposit.holds_date : Deposit.layout.Holds (dateField "execution_date") (·.executionDate)
    fun date d => { d with executionDate := date } where
  set_get _ := rfl
  exists_split d := ⟨(Deposit.layout.cells d).take 3, (Deposit.layout.cells d).drop 4,
    fun _ => rfl, by simp [Layout.cells, layout, Table.cells, dateField, Field.answersTo]⟩

lemma Burn.holds_date : Burn.layout.Holds (dateField "block_timestamp") (·.blockTimestamp)
    fun date b => { b with blockTimestamp := date } where
  set_get _ := rfl
  exists_split b := ⟨(Burn.layout.cells b).take 2, (Burn.layout.cells b).drop 3,
    fun _ => rfl, by simp [Layout.cells, layout, Table.cells, dateField, Field.answersTo]⟩

lemma UnauditedDeposit.holds_deposit : UnauditedDeposit.layout.Holds
    (partField "deposit" Deposit.layout) (·.deposit) fun deposit _ => ⟨deposit⟩ where
  set_get _ := rfl
  exists_split _ := ⟨[], [], fun _ => rfl, by simp⟩

lemma UnauditedBurn.holds_burn : UnauditedBurn.layout.Holds (partField "burn" Burn.layout) (·.burn)
    fun burn r => { r with burn := burn } where
  set_get _ := rfl
  exists_split r := ⟨[], (UnauditedBurn.layout.cells r).drop 1,
    fun _ => rfl, by simp [Layout.cells, layout, Table.cells, partField, Field.answersTo]⟩

/-! ### Another date -/

/-- The fields that burns and deposits are dated by, each with the member that holds the burn or the
deposit. -/
def dateFields : List (String × String) :=
  [("deposit", "execution_date"), ("burn", "block_timestamp")]

/-- What a date field may say: a text, `null` or nothing at all. -/
def MaybeText : Option Json → Prop
  | none | some .null | some (.string _) => True
  | some _ => False

lemma exists_date {value : Option Json} (h : MaybeText value) :
    ∃ date, match value with
      | none => some none = some date
      | some v => Codec.text.optional.read v = .ok date := by
  match value, h with
  | none, _ => exact ⟨none, rfl⟩
  | some .null, _ => exact ⟨none, rfl⟩
  | some (.string s), _ => exact ⟨some s, rfl⟩

namespace Members

/-- Members in order that are the same but for what stands under one key. -/
structure DifferAt (key : String) (R : Option Json → Option Json → Prop)
    (ms us : List (String × Json)) : Prop where
  inOrder : InOrder ms
  inOrder' : InOrder us
  agree : AgreeOff key ms us
  values : R (get? ms key) (get? us key)

/-- Two objects that differ in a date. -/
def OtherDate (field : String) (v w : Option Json) : Prop :=
  ∃ ms us, v = some (.object ms) ∧ w = some (.object us) ∧
    DifferAt field (fun a b => MaybeText a ∧ MaybeText b) ms us

variable {R : Option Json → Option Json → Prop}

lemma DifferAt.symm (h : DifferAt key R ms us) (hR : ∀ {v w}, R v w → R w v) :
    DifferAt key R us ms :=
  ⟨h.inOrder', h.inOrder, h.agree.symm, hR h.values⟩

lemma OtherDate.symm {field : String} {v w : Option Json} (h : OtherDate field v w) :
    OtherDate field w v := by
  obtain ⟨ms, us, hv, hw, hdiffer⟩ := h
  exact ⟨us, ms, hw, hv, hdiffer.symm And.symm⟩

end Members

open Members (DifferAt OtherDate)

namespace Layout

variable {layout : Layout α} {part : Layout β} {a : α} {field : String}

/-- A structure with a date is read with another one. -/
lemma Holds.read_date {get : α → Option String} {set : Option String → α → α}
    (h : layout.Holds (dateField field) get set) (hsound : layout.Sound)
    (hdiffer : DifferAt field (fun v w => MaybeText v ∧ MaybeText w) ms us)
    (hread : layout.read (.object ms) = .ok a) :
    ∃ date, layout.read (.object us) = .ok (set date a) := by
  obtain ⟨date, hdate⟩ := exists_date hdiffer.values.2
  refine ⟨date, h.read_set hsound hdiffer.agree hread ?_⟩
  exact (Cell.foundIn_iff_get? ⟨dateField field, date⟩ hdiffer.inOrder' rfl).2 hdate

/-- A structure with a part that has a date is read with another date of that part. -/
lemma Holds.read_part {name : String} {get : α → β} {set : β → α → α} {getDate : β → Option String}
    {setDate : Option String → β → β} (h : layout.Holds (partField name part) get set)
    (hsound : layout.Sound) (hdate : part.Holds (dateField field) getDate setDate)
    (hsound' : part.Sound) (hdiffer : DifferAt name (OtherDate field) ms us)
    (hread : layout.read (.object ms) = .ok a) :
    ∃ date, layout.read (.object us) = .ok (set (setDate date (get a)) a) := by
  obtain ⟨ks, ls, hks, hls, hdates⟩ := hdiffer.values
  have hcell := hsound.read_object_iff.1 hread _ (h.mem_cells a)
  rw [Cell.foundIn_iff_get? _ hdiffer.inOrder rfl] at hcell
  simp only [partField, hks] at hcell
  obtain ⟨date, hnew⟩ := hdate.read_date hsound' hdates hcell
  refine ⟨date, h.read_set hsound hdiffer.agree hread ?_⟩
  rw [Cell.foundIn_iff_get? _ hdiffer.inOrder' rfl]
  simp only [partField, hls]
  exact hnew

end Layout

namespace Record

/-- Two records of one shape, with one amount and of one token. -/
structure CountsAs (r r' : Record) : Prop where
  category : r'.category = r.category
  amount : r'.amount = r.amount
  tokenId : r'.tokenId = r.tokenId

/-- The shapes that are summed up. -/
def IsAwaited (r : Record) : Prop :=
  r.category = .unauditedDeposit ∨ r.category = .unauditedBurn

variable {part field : String} {r : Record}

/-- With another date a record that is summed up decodes to one that counts as it does. -/
lemma decode_of_differAt (hpart : (part, field) ∈ dateFields)
    (hdiffer : DifferAt part (OtherDate field) ms us) (hr : r.IsAwaited)
    (hdecode : decode r.category (.object ms) = .ok r) :
    ∃ r', decode r.category (.object us) = .ok r' ∧ r.CountsAs r' := by
  simp only [dateFields, List.mem_cons, List.not_mem_nil, or_false, Prod.mk.injEq] at hpart
  cases r with
  | unauditedDeposit d =>
      obtain ⟨_, hread, ⟨⟩⟩ := map_eq_ok_iff.1 hdecode
      rcases hpart with ⟨rfl, rfl⟩ | ⟨rfl, rfl⟩
      · obtain ⟨date, hnew⟩ := UnauditedDeposit.holds_deposit.read_part
          UnauditedDeposit.lawful.sound Deposit.holds_date Deposit.lawful.sound hdiffer hread
        exact ⟨_, map_eq_ok_iff.2 ⟨_, hnew, rfl⟩, rfl, rfl, rfl⟩
      · have hnew := UnauditedDeposit.lawful.sound.read_of_agreeOff hdiffer.agree (by decide) hread
        exact ⟨_, map_eq_ok_iff.2 ⟨_, hnew, rfl⟩, rfl, rfl, rfl⟩
  | unauditedBurn b =>
      obtain ⟨_, hread, ⟨⟩⟩ := map_eq_ok_iff.1 hdecode
      rcases hpart with ⟨rfl, rfl⟩ | ⟨rfl, rfl⟩
      · have hnew := UnauditedBurn.lawful.sound.read_of_agreeOff hdiffer.agree (by decide) hread
        exact ⟨_, map_eq_ok_iff.2 ⟨_, hnew, rfl⟩, rfl, rfl, rfl⟩
      · obtain ⟨date, hnew⟩ := UnauditedBurn.holds_burn.read_part UnauditedBurn.lawful.sound
          Burn.holds_date Burn.lawful.sound hdiffer hread
        exact ⟨_, map_eq_ok_iff.2 ⟨_, hnew, rfl⟩, rfl, rfl, rfl⟩
  | _ => exact absurd hr (by simp [IsAwaited, category])

end Record

/-! ### Values with another date -/

/-- A value with its keys in snake case and another date of its deposit or its burn: a text, `null`
or none, where there was a text, `null` or none. -/
inductive Redated (v : Json) : Json → Prop
  | same : Redated v v
  | date {part field : String} {ms us : List (String × Json)} {value : Option Json}
      (hpart : (part, field) ∈ dateFields) (hms : v.snakeKeys = .object ms)
      (hus : Members.get? ms part = some (.object us)) (hold : MaybeText (Members.get? us field))
      (hnew : MaybeText value) :
      Redated v (.object (Members.put part (some (.object (Members.put field value us))) ms))

/-- An object that differs in one member is canonical still. -/
lemma Json.Canonical.put (h : Json.Canonical (.object ms)) (hkey : Key.NoCapital key)
    (value : Option Json) (hvalue : ∀ v, value = some v → v.Canonical) :
    Json.Canonical (.object (Members.put key value ms)) := by
  obtain ⟨horder, hkeys⟩ := h ms .self
  have hvalues : ∀ m ∈ ms, Json.Canonical m.2 := fun m hm => h.inside (.member .self hm)
  refine Json.canonical_object (horder.put value) ?_ ?_
  · intro m hm
    rcases Members.mem_put hm with ⟨v, -, rfl⟩ | hm
    · exact hkey
    · exact hkeys m hm
  · intro m hm
    rcases Members.mem_put hm with ⟨v, hv, rfl⟩ | hm
    · exact hvalue v hv
    · exact hvalues m hm

lemma MaybeText.canonical {v : Json} (h : MaybeText (some v)) : v.Canonical := by
  match v, h with
  | .null, _ => exact fun _ hms => nomatch hms
  | .string _, _ => exact fun _ hms => nomatch hms

/-- The names of the fields that burns and deposits are dated by have no capitals. -/
lemma noCapital_of_dateFields {part field : String} (h : (part, field) ∈ dateFields) :
    Key.NoCapital part ∧ Key.NoCapital field := by
  have hall : ∀ p ∈ dateFields, Key.NoCapital p.1 ∧ Key.NoCapital p.2 := by decide
  exact hall _ h

namespace Redated

variable {v w : Json}

/-- In a canonical value a date may be replaced in its place. -/
lemma in_place {part field : String} (front back before after : List (String × Json))
    {date date' : Json} (hpart : (part, field) ∈ dateFields)
    (hcanonical : Json.Canonical
      (.object (front ++ (part, .object (before ++ (field, date) :: after)) :: back)))
    (hold : MaybeText (some date)) (hnew : MaybeText (some date')) :
    Redated (.object (front ++ (part, .object (before ++ (field, date) :: after)) :: back))
      (.object (front ++ (part, .object (before ++ (field, date') :: after)) :: back)) := by
  have horder := (hcanonical _ .self).1
  have hus := Members.get?_of_inOrder horder
  have hinner := (hcanonical.inside (.member .self (Members.mem_of_get? hus)) _ .self).1
  have hold' : MaybeText (Members.get? (before ++ (field, date) :: after) field) := by
    rwa [Members.get?_of_inOrder hinner]
  have hput := Redated.date hpart hcanonical.snakeKeys_eq hus hold' hnew
  rwa [Members.put_of_inOrder date' hinner, Members.put_of_inOrder _ horder] at hput

/-- With their keys in snake case the two values differ in a date. -/
lemma exists_differAt (h : Redated v w) : w = v ∨ ∃ part field ms us,
    (part, field) ∈ dateFields ∧ v.snakeKeys = .object ms ∧ w.snakeKeys = .object us ∧
      DifferAt part (OtherDate field) ms us := by
  cases h with
  | same => exact .inl rfl
  | @date part field ms us value hpart hms hus hold hnew =>
      have hcanonical : Json.Canonical (.object ms) := hms ▸ Json.canonical_snakeKeys v
      have hinner : Json.Canonical (.object us) :=
        hcanonical.inside (.member .self (Members.mem_of_get? hus))
      obtain ⟨hnocapital, hnocapital'⟩ := noCapital_of_dateFields hpart
      have hnewInner : Json.Canonical (.object (Members.put field value us)) :=
        hinner.put hnocapital' value fun u hu => MaybeText.canonical (hu ▸ hnew)
      have hnewOuter := hcanonical.put hnocapital (some (.object (Members.put field value us)))
        fun u hu => Option.some.inj hu ▸ hnewInner
      have horder := (hcanonical ms .self).1
      have horder' := (hinner us .self).1
      refine .inr ⟨part, field, ms, _, hpart, hms, hnewOuter.snakeKeys_eq, horder, horder.put _,
        Members.agreeOff_put _ _ _, us, Members.put field value us, hus, Members.get?_put _ _ _,
        horder', horder'.put _, Members.agreeOff_put _ _ _, hold, ?_⟩
      rwa [Members.get?_put]

end Redated

/-- Two objects that differ in a date have the same keys. -/
lemma Members.DifferAt.mem_keys_iff {part field name : String}
    (h : DifferAt part (OtherDate field) ms us) :
    name ∈ ms.map (·.1) ↔ name ∈ us.map (·.1) := by
  by_cases hname : name = part
  · obtain ⟨ks, ls, hks, hls, -⟩ := h.values
    rw [hname, ← Members.isSome_get?_iff, ← Members.isSome_get?_iff, hks, hls]
    rfl
  · exact h.agree.mem_keys_iff hname

namespace Record

variable {v w : Json} {part field : String} {r : Record}

/-- With another date a value is parsed as a record that counts as it does. -/
lemma parse_of_differAt (hpart : (part, field) ∈ dateFields) (hv : v.snakeKeys = .object ms)
    (hw : w.snakeKeys = .object us) (hdiffer : DifferAt part (OtherDate field) ms us)
    (hr : r.IsAwaited) (hparse : parse v = .ok r) : ∃ r', parse w = .ok r' ∧ r.CountsAs r' := by
  rw [parse_eq_ok_iff, hv] at hparse
  obtain ⟨hclass, hdecode⟩ := hparse
  obtain ⟨r', hdecode', hcounts⟩ := decode_of_differAt hpart hdiffer hr hdecode
  have hsame : classifyMembers us = classifyMembers ms := classifyMembers_congr fun name _ => by
    rw [hasField, hasField, Members.has_congr hdiffer.mem_keys_iff,
      Members.has_congr hdiffer.mem_keys_iff]
  refine ⟨r', parse_eq_ok_iff.2 ⟨?_, ?_⟩, hcounts⟩
  · rw [hw, hcounts.category]
    exact hsame.trans hclass
  · rw [hw, hcounts.category]
    exact hdecode'

/-- A record that is summed up is parsed from a value just if one that counts as it does is parsed
from the value with another date. -/
theorem parse_of_redated (h : Redated v w) (hr : r.IsAwaited) :
    (parse v = .ok r → ∃ r', parse w = .ok r' ∧ r.CountsAs r') ∧
      (parse w = .ok r → ∃ r', parse v = .ok r' ∧ r.CountsAs r') := by
  rcases h.exists_differAt with rfl | ⟨part, field, ms, us, hpart, hv, hw, hdiffer⟩
  · exact ⟨fun hparse => ⟨r, hparse, rfl, rfl, rfl⟩, fun hparse => ⟨r, hparse, rfl, rfl, rfl⟩⟩
  · exact ⟨parse_of_differAt hpart hv hw hdiffer hr,
      parse_of_differAt hpart hw hv (hdiffer.symm OtherDate.symm) hr⟩

end Record

end BridgeAudit

import BridgeAudit.Proofs.Auditor.Interview
import BridgeAudit.Proofs.Record.Redating
import BridgeAudit.Proofs.Text.Numeral

/-!
The ledger balance of a token.

* `Balance.IsAmount`: a text that stands for an amount.
* `Balance.amount_eq_ok_iff`, `Balance.exists_refusal`: just those texts are read, and any other one
  is refused by the name of its field.
* `BalanceText.read_object_iff`: the two texts in the auditor's reply.
* `balance_of_reply`: what the reply comes to.
-/

namespace BridgeAudit

variable {ms : List (String × Json)} {token : UInt64} {n : Nat} {field text m b : String}

/-! ### The texts in the reply -/

namespace BalanceText

lemma sound : layout.Sound := ⟨fun _ => rfl, fun _ => rfl, by decide⟩

/-- The texts are read from an object that has both of them. -/
lemma read_object_iff (h : Members.InOrder ms) (t : BalanceText) :
    layout.read (.object ms) = .ok t ↔
      Members.get? ms "mint_balance" = some (.string t.minted) ∧
        Members.get? ms "burn_balance" = some (.string t.burned) := by
  have hfound (name s : String) :
      (⟨⟨name, none, none, Codec.text⟩, s⟩ : Cell).FoundIn ms ↔
        Members.get? ms name = some (.string s) := by
    rw [Cell.foundIn_iff_get? _ h rfl]
    cases Members.get? ms name with
    | none => simp
    | some v => simpa [Codec.text] using Codec.text_exact.read_iff v s
  rw [sound.read_object_iff, ← hfound, ← hfound]
  simp [Layout.cells, layout, Table.cells]

end BalanceText

/-! ### Amounts -/

namespace Balance

/-- A text that stands for an amount: an optional plus sign and then one or more digits, for a
number of 128 bits. -/
def IsAmount (text : String) (n : Nat) : Prop := Digits.Spells text.toList n ∧ n < 2 ^ 128

/-- What is said of a field whose text stands for no amount. -/
def refusal (field text : String) (fault : Digits.Fault) : AuditorError :=
  .unexpectedShape "/ledger_balance"
    (field ++ " " ++ Quoted.write text ++ " is not an integer: " ++ fault.message)

lemma amount_eq_ok_iff (field : String) : amount field text = .ok n ↔ IsAmount text n := by
  have hread : Digits.readWord amountLimit text.toList = .ok n ↔ IsAmount text n :=
    Digits.readWord_eq_ok_iff (by decide)
  rw [← hread, amount]
  cases Digits.readWord amountLimit text.toList <;> simp

/-- A text that stands for no amount is refused by the name of its field. -/
lemma exists_refusal (field : String) (h : ∀ n, ¬IsAmount text n) :
    ∃ fault, amount field text = .error (refusal field text fault) := by
  cases hread : Digits.readWord amountLimit text.toList with
  | ok n =>
      have hamount : amount field text = .ok n := by rw [amount, hread]
      exact absurd ((amount_eq_ok_iff field).1 hamount) (h n)
  | error fault => exact ⟨fault, by rw [amount, hread]; rfl⟩

section

variable (horder : Members.InOrder ms) (hm : Members.get? ms "mint_balance" = some (.string m))
  (hb : Members.get? ms "burn_balance" = some (.string b))

include horder hm hb

/-- With both texts in the reply the amounts decide, the minted one first. -/
lemma decode_of_texts :
    decode token (.object ms) = (do
      let minted ← amount "mint_balance" m
      let burned ← amount "burn_balance" b
      pure ⟨token, minted, burned⟩) := by
  have hread := (BalanceText.read_object_iff horder ⟨m, b⟩).2 ⟨hm, hb⟩
  rw [decode, hread]

lemma decode_eq_ok_iff {balance : Balance} : decode token (.object ms) = .ok balance ↔
    balance.token = token ∧ IsAmount m balance.minted ∧ IsAmount b balance.burned := by
  rw [decode_of_texts horder hm hb, ← amount_eq_ok_iff "mint_balance",
    ← amount_eq_ok_iff "burn_balance", bind_eq_ok_iff]
  constructor
  · rintro ⟨minted, hminted, hrest⟩
    obtain ⟨burned, hburned, hbalance⟩ := bind_eq_ok_iff.1 hrest
    cases hbalance
    exact ⟨rfl, hminted, hburned⟩
  · rintro ⟨rfl, hminted, hburned⟩
    exact ⟨_, hminted, bind_eq_ok_iff.2 ⟨_, hburned, rfl⟩⟩

/-- The minted amount is refused first. -/
lemma decode_refuses_minted (h : ∀ n, ¬IsAmount m n) :
    ∃ fault, decode token (.object ms) = .error (refusal "mint_balance" m fault) := by
  obtain ⟨fault, hfault⟩ := exists_refusal "mint_balance" h
  exact ⟨fault, by rw [decode_of_texts horder hm hb, hfault]; rfl⟩

/-- The burned amount is refused behind a minted one that is read. -/
lemma decode_refuses_burned (hminted : IsAmount m n) (h : ∀ n, ¬IsAmount b n) :
    ∃ fault, decode token (.object ms) = .error (refusal "burn_balance" b fault) := by
  obtain ⟨fault, hfault⟩ := exists_refusal "burn_balance" h
  refine ⟨fault, ?_⟩
  rw [decode_of_texts horder hm hb, (amount_eq_ok_iff _).2 hminted, hfault]
  rfl

end

/-- Without one of the texts the reply does not decode. -/
lemma decode_of_missing (h : Members.InOrder ms) (hfield : field = "mint_balance" ∨
    field = "burn_balance") (hne : ∀ s, Members.get? ms field ≠ some (.string s)) :
    ∃ fault, decode token (.object ms) = .error (.undecodable fault) := by
  cases hread : BalanceText.layout.read (.object ms) with
  | ok t =>
      obtain ⟨hm, hb⟩ := (BalanceText.read_object_iff h t).1 hread
      rcases hfield with rfl | rfl
      · exact absurd hm (hne t.minted)
      · exact absurd hb (hne t.burned)
  | error fault => exact ⟨fault, by rw [decode, hread]⟩

end Balance

/-- A balance is asked for once, whatever comes back. -/
lemma Client.interview_balance (c : Client) (token : UInt64) (server : Server)
    (asked : List Request) :
    (c.balance token).interview server asked =
      ((bodyOf Balance.path
          (server asked ⟨c.address, Balance.path, [("token_id", token.toNat)]⟩)).bind
        (Balance.decode token),
        asked ++ [⟨c.address, Balance.path, [("token_id", token.toNat)]⟩]) := by
  rw [Client.balance, Exchange.interview_bind, Client.interview_get]
  rfl

/-- **Balances are read exactly.** Let a server answer the request for the balance of a token with
success and an object. If both amounts are texts there, the balance is read if and only if each of
them is an optional plus sign and then one or more digits, for a number of 128 bits, and it is of
just these numbers; otherwise the first of the two that is no such text is refused by its name. If
one of the amounts is not there or is no text, the reply does not decode. The supply of a balance is
what has been minted less what has been burned, and nothing if that is more. -/
theorem balance_of_reply (c : Client) (token : UInt64) (server : Server) (asked : List Request)
    {status : Status} {ms : List (String × Json)}
    (hreply : server asked ⟨c.address, "/ledger_balance", [("token_id", token.toNat)]⟩ =
      .answered status (some (.object ms)))
    (hstatus : status.isSuccess) (horder : Members.InOrder ms) :
    let result := ((c.balance token).interview server asked).1
    (∀ m b, Members.get? ms "mint_balance" = some (.string m) →
      Members.get? ms "burn_balance" = some (.string b) →
      ((∃ balance, result = .ok balance) ↔
        (∃ n, Balance.IsAmount m n) ∧ ∃ n, Balance.IsAmount b n) ∧
      (∀ balance, result = .ok balance ↔ balance.token = token ∧
        Balance.IsAmount m balance.minted ∧ Balance.IsAmount b balance.burned) ∧
      ((∀ n, ¬Balance.IsAmount m n) →
        ∃ fault, result = .error (Balance.refusal "mint_balance" m fault)) ∧
      ((∃ n, Balance.IsAmount m n) → (∀ n, ¬Balance.IsAmount b n) →
        ∃ fault, result = .error (Balance.refusal "burn_balance" b fault))) ∧
    (∀ field, field = "mint_balance" ∨ field = "burn_balance" →
      (∀ s, Members.get? ms field ≠ some (.string s)) →
      ∃ fault, result = .error (.undecodable fault)) ∧
    ∀ balance : Balance,
      (balance.burned ≤ balance.minted → balance.supply + balance.burned = balance.minted) ∧
      (balance.minted ≤ balance.burned → balance.supply = 0) := by
  intro result
  have hresult : result = Balance.decode token (.object ms) := by
    show ((c.balance token).interview server asked).1 = _
    rw [c.interview_balance, Balance.path, hreply, Client.bodyOf, if_pos hstatus]
    rfl
  rw [hresult]
  refine ⟨fun m b hm hb => ?_, fun field hfield hne => Balance.decode_of_missing horder hfield hne,
    fun balance => ⟨fun h => Nat.sub_add_cancel h, Nat.sub_eq_zero_of_le⟩⟩
  have hread (balance : Balance) : Balance.decode token (.object ms) = .ok balance ↔
      balance.token = token ∧ Balance.IsAmount m balance.minted ∧
        Balance.IsAmount b balance.burned := Balance.decode_eq_ok_iff horder hm hb
  refine ⟨?_, hread, Balance.decode_refuses_minted horder hm hb, fun ⟨_, hn⟩ =>
    Balance.decode_refuses_burned horder hm hb hn⟩
  constructor
  · rintro ⟨balance, hbalance⟩
    obtain ⟨-, hminted, hburned⟩ := (hread balance).1 hbalance
    exact ⟨⟨_, hminted⟩, _, hburned⟩
  · rintro ⟨⟨minted, hminted⟩, burned, hburned⟩
    exact ⟨⟨token, minted, burned⟩, (hread _).2 ⟨rfl, hminted, hburned⟩⟩

/-- A server that tells of more burned than minted, with a sign and with zeros in front. -/
def Server.overburned : Server := fun _ _ =>
  .answered 200 (some (.object [("burn_balance", .string "+0009"), ("mint_balance", .string "007"),
    ("token_type", .null)]))

/-- Its amounts are read, and there is no supply left. -/
theorem balance_of_overburned :
    let ms : List (String × Json) := [("burn_balance", .string "+0009"),
      ("mint_balance", .string "007"), ("token_type", .null)]
    let request : Request := ⟨"a", "/ledger_balance", [("token_id", (3 : UInt64).toNat)]⟩
    Server.overburned [] request = .answered 200 (some (.object ms)) ∧
      (200 : Status).isSuccess ∧ Members.InOrder ms ∧
      (((⟨"a", 2, 9⟩ : Client).balance 3).interview Server.overburned []).1 = .ok ⟨3, 7, 9⟩ ∧
      (⟨3, 7, 9⟩ : Balance).supply = 0 := by
  intro ms request
  have hreply : Server.overburned [] request = .answered 200 (some (.object ms)) := rfl
  have hstatus : (200 : Status).isSuccess := by decide
  have horder : Members.InOrder ms := by
    simp only [ms, Members.InOrder, String.lt_iff_toList_lt]
    decide
  have hminted : Balance.IsAmount "007" 7 :=
    ⟨⟨['0', '0', '7'], .inl rfl, by decide, List.all_eq_true.1 rfl, rfl⟩, by norm_num⟩
  have hburned : Balance.IsAmount "+0009" 9 :=
    ⟨⟨['0', '0', '0', '9'], .inr rfl, by decide, List.all_eq_true.1 rfl, rfl⟩, by norm_num⟩
  obtain ⟨hread, -, hsupply⟩ := balance_of_reply ⟨"a", 2, 9⟩ 3 _ _ hreply hstatus horder
  obtain ⟨-, hok, -⟩ := hread "007" "+0009" rfl rfl
  exact ⟨hreply, hstatus, horder, (hok ⟨3, 7, 9⟩).2 ⟨rfl, hminted, hburned⟩,
    (hsupply ⟨3, 7, 9⟩).2 (by decide)⟩

end BridgeAudit

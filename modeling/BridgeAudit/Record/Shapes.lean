import BridgeAudit.Record.Layout

/-!
The structures that the auditor's records are made of.

On the ledger side tokens are minted and burned; on the custody side tokens are
deposited and withdrawn. An audited pair links one of each.

* `Mint`, `Burn`, `Deposit`, `Withdrawal`: the four elementary movements.
* `MintLink`, `BurnLink`: which two movements belong together.
* `AuditedMint`, `AuditedBurn`, `UnauditedBurn`, `UnauditedDeposit`: movements as they are served.

Each has its layout, which fixes names, order and defaults of the fields.
-/

namespace BridgeAudit

/-- A mint on the ledger. -/
structure Mint where
  id : Option Int64
  blockIndex : UInt64
  blockTimestamp : Option String
  tokenId : UInt64
  /-- In base units of the token. -/
  amount : UInt64
  nonceHex : String
  recipientAddress : String
  /-- The block after which the mint would have expired. -/
  tombstoneBlock : UInt64
  mintConfigId : Option Int64
  deriving DecidableEq, Repr

/-- A burn on the ledger. -/
structure Burn where
  id : Option Int64
  blockIndex : UInt64
  blockTimestamp : Option String
  tokenId : UInt64
  /-- In base units of the token. -/
  amount : UInt64
  publicKeyHex : String
  deriving DecidableEq, Repr

/-- A transfer into custody. -/
structure Deposit where
  id : Option Int64
  txHash : String
  blockNumber : UInt64
  executionDate : Option String
  safeAddress : String
  tokenAddress : String
  fromAddress : Option String
  /-- In base units of the token. -/
  amount : UInt64
  /-- The nonce of the mint that the deposit is to bring about. -/
  expectedMintNonceHex : String
  deriving DecidableEq, Repr

/-- A transfer out of custody. -/
structure Withdrawal where
  id : Option Int64
  txHash : String
  blockNumber : UInt64
  executionDate : Option String
  safeAddress : String
  tokenAddress : String
  toAddress : Option String
  /-- In base units of the token. -/
  amount : UInt64
  /-- The public key of the burn that the withdrawal redeems. -/
  publicKeyHex : String
  deriving DecidableEq, Repr

/-- Which mint belongs to which deposit. -/
structure MintLink where
  id : Option Int64
  mintId : Int64
  depositId : Int64
  deriving DecidableEq, Repr

/-- Which burn belongs to which withdrawal. -/
structure BurnLink where
  id : Option Int64
  burnId : Int64
  withdrawalId : Int64
  deriving DecidableEq, Repr

/-- A mint and the deposit that backs it. -/
structure AuditedMint where
  audited : MintLink
  mint : Mint
  deposit : Deposit
  deriving DecidableEq, Repr

/-- A burn and the withdrawal that redeems it. -/
structure AuditedBurn where
  audited : BurnLink
  burn : Burn
  withdrawal : Withdrawal
  deriving DecidableEq, Repr

/-- A burn without a withdrawal yet. -/
structure UnauditedBurn where
  burn : Burn
  /-- What the burner wrote along with it. -/
  memo : List UInt8
  deriving DecidableEq, Repr

/-- The memo of a burn, two hexadecimal digits a byte. -/
def UnauditedBurn.memoHex (r : UnauditedBurn) : String :=
  String.ofList (r.memo.flatMap fun b =>
    [Nat.digitChar (b.toNat / 16), Nat.digitChar (b.toNat % 16)])

/-- A deposit without a mint yet. -/
structure UnauditedDeposit where
  deposit : Deposit
  deriving DecidableEq, Repr

open Codec Table

/-- The fields of a mint. -/
def Mint.layout : Layout Mint where
  structName := "MintRecord"
  table :=
    .optional "id" signed <|
    .required "block_index" word <|
    .optional "block_timestamp" text <|
    .required "token_id" word <|
    .required "amount" word <|
    .required "nonce_hex" text <|
    .renamed "recipient_address" "recipient_b58_addr" text <|
    .required "tombstone_block" word <|
    .optional "mint_config_id" signed .nil
  build := fun (id, blockIndex, blockTimestamp, tokenId, amount, nonceHex, recipientAddress,
      tombstoneBlock, mintConfigId, ()) =>
    ⟨id, blockIndex, blockTimestamp, tokenId, amount, nonceHex, recipientAddress, tombstoneBlock,
      mintConfigId⟩
  parts m :=
    (m.id, m.blockIndex, m.blockTimestamp, m.tokenId, m.amount, m.nonceHex, m.recipientAddress,
      m.tombstoneBlock, m.mintConfigId, ())

/-- The fields of a burn. -/
def Burn.layout : Layout Burn where
  structName := "BurnRecord"
  table :=
    .optional "id" signed <|
    .required "block_index" word <|
    .optional "block_timestamp" text <|
    .required "token_id" word <|
    .required "amount" word <|
    .required "public_key_hex" text .nil
  build := fun (id, blockIndex, blockTimestamp, tokenId, amount, publicKeyHex, ()) =>
    ⟨id, blockIndex, blockTimestamp, tokenId, amount, publicKeyHex⟩
  parts b := (b.id, b.blockIndex, b.blockTimestamp, b.tokenId, b.amount, b.publicKeyHex, ())

/-- The fields of a deposit. -/
def Deposit.layout : Layout Deposit where
  structName := "DepositRecord"
  table :=
    .optional "id" signed <|
    .required "eth_tx_hash" text <|
    .required "eth_block_number" word <|
    .optional "execution_date" text <|
    .required "safe_addr" text <|
    .required "token_addr" text <|
    .optional "from_addr" text <|
    .required "amount" word <|
    .renamed "expected_mint_nonce_hex" "expected_mc_mint_tx_nonce_hex" text .nil
  build := fun (id, txHash, blockNumber, executionDate, safeAddress, tokenAddress, fromAddress,
      amount, expectedMintNonceHex, ()) =>
    ⟨id, txHash, blockNumber, executionDate, safeAddress, tokenAddress, fromAddress, amount,
      expectedMintNonceHex⟩
  parts d :=
    (d.id, d.txHash, d.blockNumber, d.executionDate, d.safeAddress, d.tokenAddress, d.fromAddress,
      d.amount, d.expectedMintNonceHex, ())

/-- The fields of a withdrawal. -/
def Withdrawal.layout : Layout Withdrawal where
  structName := "WithdrawalRecord"
  table :=
    .optional "id" signed <|
    .required "eth_tx_hash" text <|
    .required "eth_block_number" word <|
    .optional "execution_date" text <|
    .required "safe_addr" text <|
    .required "token_addr" text <|
    .optional "to_addr" text <|
    .required "amount" word <|
    .required "mc_tx_out_public_key_hex" text .nil
  build := fun (id, txHash, blockNumber, executionDate, safeAddress, tokenAddress, toAddress,
      amount, publicKeyHex, ()) =>
    ⟨id, txHash, blockNumber, executionDate, safeAddress, tokenAddress, toAddress, amount,
      publicKeyHex⟩
  parts w :=
    (w.id, w.txHash, w.blockNumber, w.executionDate, w.safeAddress, w.tokenAddress, w.toAddress,
      w.amount, w.publicKeyHex, ())

/-- The fields of the link between a mint and its deposit. -/
def MintLink.layout : Layout MintLink where
  structName := "AuditedMintLink"
  table :=
    .optional "id" signed <|
    .required "mint_tx_id" signed <|
    .renamed "deposit_id" "gnosis_safe_deposit_id" signed .nil
  build := fun (id, mintId, depositId, ()) => ⟨id, mintId, depositId⟩
  parts l := (l.id, l.mintId, l.depositId, ())

/-- The fields of the link between a burn and its withdrawal. -/
def BurnLink.layout : Layout BurnLink where
  structName := "AuditedBurnLink"
  table :=
    .optional "id" signed <|
    .required "burn_tx_out_id" signed <|
    .renamed "withdrawal_id" "gnosis_safe_withdrawal_id" signed .nil
  build := fun (id, burnId, withdrawalId, ()) => ⟨id, burnId, withdrawalId⟩
  parts l := (l.id, l.burnId, l.withdrawalId, ())

/-- The fields of an audited mint. -/
def AuditedMint.layout : Layout AuditedMint where
  structName := "AuditedMint"
  table :=
    .required "audited" MintLink.layout.codec <|
    .required "mint" Mint.layout.codec <|
    .required "deposit" Deposit.layout.codec .nil
  build := fun (audited, mint, deposit, ()) => ⟨audited, mint, deposit⟩
  parts r := (r.audited, r.mint, r.deposit, ())

/-- The fields of an audited burn. -/
def AuditedBurn.layout : Layout AuditedBurn where
  structName := "AuditedBurn"
  table :=
    .required "audited" BurnLink.layout.codec <|
    .required "burn" Burn.layout.codec <|
    .required "withdrawal" Withdrawal.layout.codec .nil
  build := fun (audited, burn, withdrawal, ()) => ⟨audited, burn, withdrawal⟩
  parts r := (r.audited, r.burn, r.withdrawal, ())

/-- The fields of an unaudited burn; without a memo the memo is empty. -/
def UnauditedBurn.layout : Layout UnauditedBurn where
  structName := "UnauditedBurn"
  table :=
    .required "burn" Burn.layout.codec <|
    .cons ⟨"decoded_memo_bytes", some "decoded_burn_memo_bytes", some [], bytes⟩ .nil
  build := fun (burn, memo, ()) => ⟨burn, memo⟩
  parts r := (r.burn, r.memo, ())

/-- The fields of an unaudited deposit. -/
def UnauditedDeposit.layout : Layout UnauditedDeposit where
  structName := "UnauditedDeposit"
  table := .required "deposit" Deposit.layout.codec .nil
  build := fun (deposit, ()) => ⟨deposit⟩
  parts r := (r.deposit, ())

end BridgeAudit

import Mayhem.Payout.Records

namespace Mayhem

structure TnkDepositIntent where
  user : PublicKey
  msbNetwork : String
  msbFrom : String
  treasuryAddress : String
  tnkE18 : Nat
  quotedAu : Nat
  rateTnkUsdAu : Nat
  rateSource : String
  rateLock : Option (Nat × Digest)

structure TnkDepositCredit where
  user : PublicKey
  au : Nat
  epoch : Nat
  rateTs : Nat
  depositRoot : Digest
  msbTransfer : MsbTransfer

structure TapDepositIdentity where
  scope : TapScope
  ethTxHash : Digest
  logIndex : Nat
  blockHash : Digest
deriving DecidableEq

structure TapDepositSeen where
  who : PublicKey
  ethereumAddress : String
  au : Nat
  epoch : Nat
  blockNumber : Nat
  reversed : Bool

structure TapReversalSeen where
  who : PublicKey
  au : Nat
  clawbackAu : Nat
  networkAbsorbedAu : Nat
  frozen : Bool
  epoch : Nat

structure TapAccountBinding where
  active : Bool
  user : PublicKey
  ethereumAddress : String
  scope : TapScope

structure FiatDepositSeen where
  processorRail : String
  who : PublicKey
  au : Nat
  epoch : Nat
  disputedAuCum : Nat
  chargebackAuCum : Nat
  networkAbsorbedAuCum : Nat

structure FiatChargebackSeen where
  who : PublicKey
  au : Nat
  clawbackAu : Nat
  networkAbsorbedAu : Nat
  epoch : Nat

inductive FreezeReason where
  | fiatChargeback
  | tapDepositReorgShortfall
deriving DecidableEq

structure FreezeRecord where
  reason : FreezeReason
  rail : Rail
  firstFrozenAtSeconds : Nat
  updatedAtSeconds : Nat
  updatedEpoch : Nat
  disputeCount : Nat
  disputedAuCum : Nat
  clawbackAuCum : Nat
  networkAbsorbedAuCum : Nat
deriving DecidableEq

def DepositReversals.add (totals : Option DepositReversals) (disputedAu clawbackAu absorbedAu : Nat) :
    DepositReversals :=
  let totals := totals.getD ⟨0, 0, 0, 0⟩
  ⟨totals.reversalCount + 1, totals.reversedAuTotal + disputedAu, totals.clawbackAuTotal + clawbackAu,
    totals.networkAbsorbedAuTotal + absorbedAu⟩

structure Deposits where
  tnkPending : Table String TnkDepositIntent
  tnkCredited : Table String TnkDepositCredit
  tap : Table TapDepositIdentity TapDepositSeen
  tapReversal : Table TapDepositIdentity TapReversalSeen
  tapAccount : Table (TapScope × String) TapAccountBinding
  fiat : Table String FiatDepositSeen
  fiatChargeback : Table (String × String) FiatChargebackSeen
  freeze : Table PublicKey FreezeRecord
  tnkRateLatest : Option RateRecord
  tapRateLatest : Option RateRecord

end Mayhem

import Mathlib.Tactic.DeriveCountable
import Mayhem.Ledger

namespace Mayhem

theorem countable_char : Countable Char :=
  Function.Injective.countable (f := Char.toNat) fun _ _ h => Char.ext (UInt32.toNat_inj.mp h)

instance countable_string : Countable String :=
  haveI := countable_char
  Function.Injective.countable (f := String.toList) fun _ _ h => String.toList_injective h

deriving instance Countable for Rail, Modality, RateEntry, Workflow, WorkflowOutput, ReceiptBody, ReceiptLeaf,
  ReceiptEnvelope, MarketRow, MarketUsage, FraudProofPayload

noncomputable def digestOf (α : Type) [Countable α] : α → Digest := (exists_injective_nat α).choose

theorem digestOf_injective (α : Type) [Countable α] : Function.Injective (digestOf α) :=
  (exists_injective_nat α).choose_spec

def plainHost : Crypto where
  usageLeafHash leaf := leaf.body.auOwedCum
  canonicalReceiptHash envelope := envelope.body.seq
  voucherHash voucher := voucher.sessionId
  epochCommitHash value := value.roots.use
  fraudProofHash _ := 0
  fraudProofBytes _ := 0
  targetedApplyHash payload := payload.page
  emptySealHash value := value.epoch
  earnLeafHash final := final.provider
  feeRootHash value := value.feeAu
  priceDerivationLeafHash derivation := derivation.epoch
  calibrationHash calibration := calibration.sourceHash
  merkleEmptyRoot _ := 0
  merkleNode _ left right := left + right
  depositRootHash previous leaf count := previous + leaf + count
  spendReserveFeatureKey value := value.reservationId
  recordReceiptFeatureKey value := value.receipt.body.seq
  closeReservationFeatureKey _ value := value.reservationId
  targetedEpochFeatureKey value := value.page
  commitPageZeroFeatureKey value := value.epoch
  verifySpendVoucher _ _ _ := true
  verifySpendReserve _ _ := true
  verifyReceipt _ _ _ := true
  verifyRecordReceipt _ _ := true
  verifyCloseReservation _ _ _ := true

/--
The final receipt of a session that used `count` of one unit.
-/
def plainReceipt (n : Nat) (rail : Rail) (rate : RateEntry) (count : Nat) : ReceiptEnvelope where
  body :=
    { schemaVersion := sessionReceiptSchemaVersion
      sessionId := 100 + n
      billingId := 200 + n
      billingAttempt := 0
      billingPriorUsage := []
      billingPriorAuOwedCum := 0
      billingEpoch := 1
      reservationId := 300 + n
      reservationExpiresAfterEpoch := 25
      reservationReceiptGraceEpochs := 6
      payoutRevision := 4
      seq := 1
      final := true
      rail := rail
      user := 20
      provider := 30
      enclaveId := 40
      modelId := "m"
      priceVer := 1
      lockedRateMap := [rate]
      lockedPerReqAu := 0
      lockedMinSessionAu := 0
      servedCtx := 0
      ctxBracket := none
      ctxBracketTableVer := none
      rulesVer := 1
      workflow := none
      workflowOutput := none
      usage := [(rate.unit, count)]
      usageAttribution := none
      auOwedCum := count * rate.perUnitAu
      promptHash := "p"
      ts := 0 }
  enclaveSig := 0
  userSig := 0
  enclavePubkey := 41

noncomputable def collisionFreeHost : Crypto :=
  { plainHost with
    usageLeafHash := digestOf ReceiptLeaf
    fraudProofHash := digestOf FraudProofPayload }

end Mayhem

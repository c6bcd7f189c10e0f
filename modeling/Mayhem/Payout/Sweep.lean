import Mayhem.Payout.Settle

namespace Mayhem

structure DustSweepValue where
  provider : PublicKey
  epoch : Nat
  time : Nat

def usdCentAu : Nat := 10000000000000000

structure DustSweepPlan where
  earning : EarningRecord
  fee : FeeRecord
  dustAu : Nat

def validateFiatDustSweepValue (value : DustSweepValue) : Except String Unit := do
  rejectIf (¬ isSafeInteger value.epoch ∨ value.epoch < 1) "Invalid fiat dust sweep epoch."
  rejectIf (¬ isSafeInteger value.time) "Invalid fiat dust sweep timestamp."

namespace Ledger

def sweepableEarning (s : Ledger) (value : DustSweepValue) : Except String EarningRecord := do
  rejectIf (s.applyState.updatedEpoch ≠ value.epoch)
    "Fiat dust sweep epoch must equal the latest applied epoch."
  let provider ← requireSome (s.registry.providers.get value.provider) "Provider not found."
  rejectIf (provider.enclaves ≠ []) "Fiat dust sweep requires a provider with no active enclaves."
  let earning ← s.earningRecord value.provider .fiat
  guardianValidateEarningRecord earning .fiat
  let refreshed ← s.refreshForPayout value.epoch (s.registry.activeParamAt value.time) value.provider
    provider earning.earned
  rejectIf (refreshed.heldAu ≠ 0) "Fiat dust cannot be swept while provider earnings are held."
  return { earning with earned := refreshed }

def planDustSweep (s : Ledger) (value : DustSweepValue) : Except String DustSweepPlan := do
  let earning ← s.sweepableEarning value
  let unpaidAu ← safeSubAu earning.earned.totalAu earning.earned.paidCumAu
  let dustAu := unpaidAu % usdCentAu
  rejectIf (dustAu = 0) "Provider has no fiat dust to sweep."
  let totalAu ← safeSubAu earning.earned.totalAu dustAu
  let nextEarning : EarningRecord := { earning with
    earned := { earning.earned with
      totalAu := totalAu
      updatedEpoch := max earning.earned.updatedEpoch value.epoch }
    fiatDustSweptCumAu := earning.fiatDustSweptCumAu + dustAu }
  guardianValidateEarningRecord nextEarning .fiat
  let fee ← s.feeCumRecord .fiat
  guardianValidateFeeRecord fee .fiat
  let nextFee : FeeRecord := { fee with
    cumAu := fee.cumAu + dustAu
    settledCumAu := some (fee.settledCumAu.getD fee.cumAu + dustAu)
    updatedEpoch := max fee.updatedEpoch value.epoch }
  guardianValidateFeeRecord nextFee .fiat
  return ⟨nextEarning, nextFee, dustAu⟩

def writeDustSweep (s : Ledger) (value : DustSweepValue) (plan : DustSweepPlan) : Ledger :=
  let swept := (s.putEarning value.provider .fiat plan.earning).putFee .fiat plan.fee
  { swept with payouts := { swept.payouts with
      fiatDust := swept.payouts.fiatDust.put (value.provider, value.epoch) plan.dustAu } }

def fiatDustSweep (s : Ledger) (sender : PublicKey) (value : DustSweepValue) : Outcome Nat :=
  match s.registry.requireAdmin sender >>= fun _ => validateFiatDustSweepValue value with
  | .error message => (s, .error message)
  | .ok () =>
    match s.payouts.fiatDust.get (value.provider, value.epoch) with
    | some dustAu => (s, .ok dustAu)
    | none =>
      match s.planDustSweep value with
      | .error message => (s, .error message)
      | .ok plan => (s.writeDustSweep value plan, .ok plan.dustAu)

end Ledger

end Mayhem

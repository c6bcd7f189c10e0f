import Mayhem.Account

namespace Mayhem

structure SlashRequest where
  provider : PublicKey
  epoch : Nat
  slashBps : Nat
  beneficiary : Option PublicKey
  enclaveId : Option Digest
  banProvider : Bool
  tombstoneEnclave : Bool

structure RailSlash where
  rail : Rail
  earning : Option EarningRecord
  balance : Option BalanceRecord
  fee : Option FeeRecord
  forfeitedAu : Nat
  beneficiaryAu : Nat
  treasuryAu : Nat

namespace Ledger

def slashedEarning (earning : EarningRecord) (rail : Rail) (forfeitedAu : Nat) :
    Except String (Option EarningRecord) := do
  let buckets ← normalizeHoldbackBuckets earning.earned
  let remaining ← slashHoldbackBuckets buckets forfeitedAu
  let heldAu ← safeSubAu earning.earned.heldAu forfeitedAu
  let totalAu ← safeSubAu earning.earned.totalAu forfeitedAu
  if earning.earned.totalAu = 0 ∧ forfeitedAu = 0 then
    return none
  let updated : EarningRecord :=
    { earning with
      earned := { earning.earned with
        totalAu := totalAu
        heldAu := heldAu
        holdbacks := some remaining }
      slashedCumAu := earning.slashedCumAu + forfeitedAu }
  guardianValidateEarningRecord updated rail
  return some updated

def slashedBalance (s : Ledger) (beneficiary : Option PublicKey) (rail : Rail) (epoch : Nat)
    (beneficiaryAu : Nat) : Except String (Option BalanceRecord) :=
  match beneficiary with
  | none => .ok none
  | some beneficiary => do
    if beneficiaryAu = 0 then
      return none
    let balance ← s.balanceRecord beneficiary rail
    guardianValidateBalanceRecord balance rail
    return some { balance with
      au := balance.au + beneficiaryAu
      updatedEpoch := max balance.updatedEpoch epoch }

def slashedFee (s : Ledger) (rail : Rail) (epoch : Nat) (treasuryAu : Nat) :
    Except String (Option FeeRecord) := do
  if treasuryAu = 0 then
    return none
  let fee ← s.feeCumRecord rail
  guardianValidateFeeRecord fee rail
  let updated : FeeRecord :=
    { fee with
      cumAu := fee.cumAu + treasuryAu
      settledCumAu := some (fee.settledCumAu.getD fee.cumAu + treasuryAu)
      updatedEpoch := max fee.updatedEpoch epoch }
  guardianValidateFeeRecord updated rail
  return some updated

def railSlash (s : Ledger) (request : SlashRequest) (rail : Rail) : Except String RailSlash := do
  let earning ← s.earningRecord request.provider rail
  guardianValidateEarningRecord earning rail
  let forfeitedAu ← slashAmount earning.earned.heldAu request.slashBps
  let beneficiaryAu := if request.beneficiary.isNone then 0 else safeMulDivAu forfeitedAu 1 2
  let treasuryAu ← safeSubAu forfeitedAu beneficiaryAu
  let updatedEarning ← slashedEarning earning rail forfeitedAu
  let balance ← s.slashedBalance request.beneficiary rail request.epoch beneficiaryAu
  let fee ← s.slashedFee rail request.epoch treasuryAu
  return ⟨rail, updatedEarning, balance, fee, forfeitedAu, beneficiaryAu, treasuryAu⟩

end Ledger

def providerActiveEnclaves (provider : ProviderRecord) : List Digest :=
  provider.enclaves.eraseDups.insertionSort (· ≤ ·)

def enclaveActiveProviders (enclave : EnclaveRecord) : List PublicKey :=
  enclave.providers.eraseDups.insertionSort (· ≤ ·)

namespace Registry

def tombstoneProviderEnclave (reg : Registry) (provider : PublicKey) (enclaveId : Digest) : Registry :=
  match reg.serves.get (provider, enclaveId) with
  | none => reg
  | some serve =>
    { reg with
      serves := reg.serves.put (provider, enclaveId) { serve with status := .tombstoned }
      providers :=
        match reg.providers.get provider with
        | some record => reg.providers.put provider
            { record with enclaves := (providerActiveEnclaves record).filter (· ≠ enclaveId) }
        | none => reg.providers
      enclaves :=
        match reg.enclaves.get enclaveId with
        | some record => reg.enclaves.put enclaveId
            { record with providers := (enclaveActiveProviders record).filter (· ≠ provider) }
        | none => reg.enclaves }

def tombstoneProviderEnclaves (reg : Registry) (provider : PublicKey) (enclaves : List Digest) : Registry :=
  enclaves.foldl (fun reg enclaveId => reg.tombstoneProviderEnclave provider enclaveId) reg

end Registry

def Registry.slashProvider (reg : Registry) (request : SlashRequest) (provider : ProviderRecord) : Registry :=
  let own := request.enclaveId.filter fun _ => request.tombstoneEnclave
  let served := own.filter fun enclaveId => (reg.serves.get (request.provider, enclaveId)).isSome
  let tombstoned := own.toList.foldl
    (fun reg enclaveId => reg.tombstoneProviderEnclave request.provider enclaveId) reg
  if request.banProvider then
    let rest := (providerActiveEnclaves provider).filter fun e => some e ≠ request.enclaveId
    let banned := tombstoned.tombstoneProviderEnclaves request.provider rest
    { banned with
      providers := banned.providers.put request.provider
        { provider with status := .banned, enclaves := [] } }
  else
    { tombstoned with
      providers := tombstoned.providers.put request.provider
        { provider with
          enclaves := (providerActiveEnclaves provider).filter fun e => some e ≠ served } }

def Accounts.writeRailSlash (accounts : Accounts) (request : SlashRequest) (entry : RailSlash) : Accounts :=
  { accounts with
    earning :=
      match entry.earning with
      | some earning => accounts.earning.put (request.provider, entry.rail) earning
      | none => accounts.earning
    balance :=
      match request.beneficiary, entry.balance with
      | some beneficiary, some balance => accounts.balance.put (beneficiary, entry.rail) balance
      | _, _ => accounts.balance
    fee :=
      match entry.fee with
      | some fee => accounts.fee.put entry.rail fee
      | none => accounts.fee }

def Ledger.applyProviderSlash (s : Ledger) (tx : Digest) (request : SlashRequest) :
    Except String (Ledger × SlashRecord) := do
  let provider ← requireSome (s.registry.providers.get request.provider) "Provider not found."
  let rails ← providerAcceptedRailOrder.mapM (s.railSlash request)
  let slash : SlashRecord :=
    { provider := request.provider
      slashBps := request.slashBps
      forfeitedAu := (rails.map RailSlash.forfeitedAu).sum
      beneficiaryAu := (rails.map RailSlash.beneficiaryAu).sum
      treasuryAu := (rails.map RailSlash.treasuryAu).sum }
  let accounts := rails.foldl (fun accounts entry => accounts.writeRailSlash request entry)
    s.accounts
  return ({ s with
    registry := s.registry.slashProvider request provider
    accounts := { accounts with slash := accounts.slash.put (request.provider, tx) slash } }, slash)

end Mayhem

import Mayhem.Settlement.Money

namespace Mayhem

theorem railScope_congr {reg reg' : Registry} (h : reg'.payments = reg.payments) (rail : Rail) :
    railScope reg' rail = railScope reg rail := by
  unfold railScope Registry.canonicalTapPaymentConfig
  rw [h]

theorem readScoped_congr {α : Type} {reg reg' : Registry} (h : reg'.payments = reg.payments) (rail : Rail)
    (scope : α → Option TapScope) (stored : Option α) (fresh : Option TapScope → α) :
    readScoped reg' rail scope stored fresh = readScoped reg rail scope stored fresh := by
  unfold readScoped
  rw [railScope_congr h]

namespace Ledger

variable {s s' : Ledger} {party : PublicKey} {rail : Rail}

section Stored

variable (hpayments : s'.registry.payments = s.registry.payments)
include hpayments

theorem balanceRecord_of_stored {record next : BalanceRecord} (hread : s.balanceRecord party rail = .ok record)
    (hstored : s'.accounts.balance.get (party, rail) = some next) (hscope : next.scope = record.scope) :
    s'.balanceRecord party rail = .ok next := by
  unfold balanceRecord
  rw [hstored]
  exact readScoped_of_stored (fun _ => rfl) hread (railScope_congr hpayments rail) hscope

theorem earningRecord_of_stored {record next : EarningRecord} (hread : s.earningRecord party rail = .ok record)
    (hstored : s'.accounts.earning.get (party, rail) = some next) (hscope : next.scope = record.scope) :
    s'.earningRecord party rail = .ok next := by
  unfold earningRecord
  rw [hstored]
  exact readScoped_of_stored (fun _ => rfl) hread (railScope_congr hpayments rail) hscope

theorem feeCumRecord_of_stored {record next : FeeRecord} (hread : s.feeCumRecord rail = .ok record)
    (hstored : s'.accounts.fee.get rail = some next) (hscope : next.scope = record.scope) :
    s'.feeCumRecord rail = .ok next := by
  unfold feeCumRecord
  rw [hstored]
  exact readScoped_of_stored (fun _ => rfl) hread (railScope_congr hpayments rail) hscope

theorem balanceRecord_congr (h : s'.accounts.balance.get (party, rail) = s.accounts.balance.get (party, rail)) :
    s'.balanceRecord party rail = s.balanceRecord party rail := by
  unfold balanceRecord
  rw [h, readScoped_congr hpayments]

theorem earningRecord_congr (h : s'.accounts.earning.get (party, rail) = s.accounts.earning.get (party, rail)) :
    s'.earningRecord party rail = s.earningRecord party rail := by
  unfold earningRecord
  rw [h, readScoped_congr hpayments]

theorem feeCumRecord_congr (h : s'.accounts.fee.get rail = s.accounts.fee.get rail) :
    s'.feeCumRecord rail = s.feeCumRecord rail := by
  unfold feeCumRecord
  rw [h, readScoped_congr hpayments]

theorem burnCumRecord_congr (h : s'.accounts.burn.get rail = s.accounts.burn.get rail) :
    s'.burnCumRecord rail = s.burnCumRecord rail := by
  unfold burnCumRecord
  rw [h, readScoped_congr hpayments]

end Stored

theorem putBalance_payments (s : Ledger) (user : PublicKey) (rail : Rail) (record : BalanceRecord) :
    (s.putBalance user rail record).registry.payments = s.registry.payments := rfl

theorem putEarning_payments (s : Ledger) (provider : PublicKey) (rail : Rail) (record : EarningRecord) :
    (s.putEarning provider rail record).registry.payments = s.registry.payments := rfl

theorem putFee_payments (s : Ledger) (rail : Rail) (record : FeeRecord) :
    (s.putFee rail record).registry.payments = s.registry.payments := rfl

theorem balanceRecord_putBalance {record next : BalanceRecord} (hread : s.balanceRecord party rail = .ok record)
    (hscope : next.scope = record.scope) : (s.putBalance party rail next).balanceRecord party rail = .ok next :=
  balanceRecord_of_stored (putBalance_payments _ _ _ _) hread (Table.get_put_self _ _ _) hscope

theorem feeCumRecord_putFee {record next : FeeRecord} (hread : s.feeCumRecord rail = .ok record)
    (hscope : next.scope = record.scope) : (s.putFee rail next).feeCumRecord rail = .ok next :=
  feeCumRecord_of_stored (putFee_payments _ _ _) hread (Table.get_put_self _ _ _) hscope

variable {rail' : Rail}

theorem balanceRecord_putBalance_of_ne {party' : PublicKey} (next : BalanceRecord)
    (h : (party', rail') ≠ (party, rail)) :
    (s.putBalance party rail next).balanceRecord party' rail' = s.balanceRecord party' rail' :=
  balanceRecord_congr (putBalance_payments _ _ _ _) (Table.get_put_of_ne _ _ h)

theorem feeCumRecord_putFee_of_ne (next : FeeRecord) (h : rail' ≠ rail) :
    (s.putFee rail next).feeCumRecord rail' = s.feeCumRecord rail' :=
  feeCumRecord_congr (putFee_payments _ _ _) (Table.get_put_of_ne _ _ h)

theorem balanceAu_of_read {record : BalanceRecord} (h : s.balanceRecord party rail = .ok record) :
    s.balanceAu party rail = record.au := by
  rw [balanceAu, h]
  rfl

theorem earnedAu_of_read {record : EarningRecord} (h : s.earningRecord party rail = .ok record) :
    s.earnedAu party rail = record.earned.totalAu := by
  rw [earnedAu, h]
  rfl

theorem feeCumAu_of_read {record : FeeRecord} (h : s.feeCumRecord rail = .ok record) :
    s.feeCumAu rail = record.cumAu := by
  rw [feeCumAu, h]
  rfl

end Ledger

end Mayhem

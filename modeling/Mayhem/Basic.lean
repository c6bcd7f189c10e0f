import Mayhem.Lib.Reject

namespace Mayhem

abbrev PublicKey := Nat

abbrev Digest := Nat

abbrev Signature := Nat

inductive Rail where
  | fiat
  | tap
  | tnk
deriving DecidableEq

instance : LawfulBEq (Rail × PublicKey) := inferInstance

def providerAcceptedRailOrder : List Rail := [.fiat, .tap, .tnk]

theorem Rail.mem_providerAcceptedRailOrder (rail : Rail) : rail ∈ providerAcceptedRailOrder := by
  cases rail <;> simp [providerAcceptedRailOrder]

def contractVersion : Nat := 25

def recoverableReceiptContractVersions : List Nat := [23, 24]

def sessionReceiptSchemaVersion : Nat := 11

def spendVoucherSchemaVersion : Nat := 11

def maxSafeInteger : Nat := 2 ^ 53 - 1

abbrev isSafeInteger (n : Nat) : Prop := n ≤ maxSafeInteger

def safeSubAu (a b : Nat) : Except String Nat := do
  rejectIf (b > a) "au value underflow."
  return a - b

def safeMulDivAu (a : Nat) (b divisor : Nat) : Nat := a * b / divisor

def ceilDivBigInt (value divisor : Nat) : Nat :=
  if value = 0 then 0 else (value + divisor - 1) / divisor

def safeAddCount (a b : Nat) (label : String) : Except String Nat := do
  rejectIf (¬ isSafeInteger a ∨ ¬ isSafeInteger b) ("Invalid " ++ label ++ ".")
  rejectIf (¬ isSafeInteger (a + b)) (label ++ " overflow.")
  return a + b

theorem safeSubAu_eq_ok {a b d : Nat} : safeSubAu a b = .ok d ↔ b ≤ a ∧ a - b = d := by
  simp [safeSubAu]

theorem safeAddCount_eq_ok {a b n : Nat} {label : String} :
    safeAddCount a b label = .ok n ↔ a + b = n ∧ n ≤ maxSafeInteger := by
  simp only [safeAddCount, isSafeInteger, checks_iff, exists_const]
  omega

def isSafeKeyPart (s : String) : Bool :=
  1 ≤ s.length ∧ s.length ≤ 128 ∧ s.toList.all fun c =>
    c.isAlphanum || c == '.' || c == '_' || c == ':' || c == '-'

def isEthHexBytes (s : String) (bytes : Nat) : Bool :=
  match s.toList with
  | '0' :: 'x' :: digits =>
    digits.length == 2 * bytes &&
      digits.all fun c => c.isDigit || ('a' ≤ c && c ≤ 'f') || ('A' ≤ c && c ≤ 'F')
  | _ => false

abbrev Counts := List (String × Nat)

namespace Counts

def get (counts : Counts) (unit : String) : Nat := (counts.lookup unit).getD 0

def set (counts : Counts) (unit : String) (n : Nat) : Counts :=
  match counts with
  | [] => [(unit, n)]
  | (u, m) :: rest =>
    if unit = u then (unit, n) :: rest
    else if unit < u then (unit, n) :: (u, m) :: rest
    else (u, m) :: set rest unit n

end Counts

def canonicalUsageUnit (unit : String) : String :=
  if unit ∈ ["in", "in_tokens", "input", "input_tokens", "prompt_tokens", "input_token"] then
    "input_token"
  else if unit ∈ ["cached_input", "cached_inputs", "cached_input_tokens", "cached_prompt_tokens",
      "cached_tokens", "cached_input_token"] then
    "cached_input_token"
  else if unit ∈ ["out", "out_tokens", "output", "output_tokens", "completion_tokens", "output_token"] then
    "output_token"
  else if unit ∈ ["images", "image"] then "image"
  else if unit ∈ ["steps", "step"] then "step"
  else unit

structure RateEntry where
  unit : String
  perUnitAu : Nat
  granularity : Nat
deriving DecidableEq

def rateMapMaxEntries : Nat := 16

end Mayhem

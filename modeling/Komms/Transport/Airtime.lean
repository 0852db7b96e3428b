import Mathlib.Algebra.GroupWithZero.Nat
import Mathlib.Data.Int.Basic

/-!
# Airtime accounting of the LoRa carrier

`kult-transport/src/airtime.rs`: the time on air of a frame by the Semtech formula, and the budget
of airtime over a rolling window that is asked before the radio transmits.
-/

namespace Komms.Transport

/-! ### The time on air of a frame -/

/-- Physical-layer parameters of one LoRa modem configuration. -/
structure ModemParams where
  bandwidthHz : ℕ
  spreadingFactor : ℕ
  codingRateDenominator : ℕ
  preambleSymbols : ℕ

def lowDataRateThresholdMicros : ℕ := 16380

namespace ModemParams

variable (params : ModemParams)

def valid : Bool :=
  5 ≤ params.spreadingFactor && params.spreadingFactor ≤ 12 && 5 ≤ params.codingRateDenominator &&
    params.codingRateDenominator ≤ 8 && 0 < params.bandwidthHz && 0 < params.preambleSymbols

def symbolMicros : ℕ := 2 ^ params.spreadingFactor * 1000000 / params.bandwidthHz

def denominator : ℤ :=
  4 * (params.spreadingFactor -
    2 * if lowDataRateThresholdMicros ≤ params.symbolMicros then 1 else 0)

def extraSymbols (payloadLen : ℕ) : ℕ :=
  let numerator : ℤ := 8 * payloadLen - 4 * params.spreadingFactor + 28 + 16
  if numerator > 0 then
    (numerator.toNat + params.denominator.toNat - 1) / params.denominator.toNat *
      params.codingRateDenominator
  else 0

/-- Quarter-symbols keep the preamble's 4.25 exact. -/
def quarterSymbols (payloadLen : ℕ) : ℕ :=
  4 * (params.preambleSymbols + (8 + params.extraSymbols payloadLen)) + 17

end ModemParams

/-- In microseconds, rounded up.  With fields of the width they have in the source, no product
reaches `2 ^ 63`. -/
def timeOnAir (params : ModemParams) (payloadLen : ℕ) : Option ℕ :=
  if !params.valid || payloadLen > 255 then none
  else if params.denominator ≤ 0 then none
  else some ((params.quarterSymbols payloadLen * params.symbolMicros + 3) / 4)

/-! ### The budget -/

/-- Durations count one unit.  The allowance is what `limit_percent` of the window comes to, which
no call changes. -/
structure AirtimeBudget where
  allowance : ℕ
  window : ℕ
  /-- Accounted transmissions, oldest first: when, and for how long. -/
  spent : List (ℕ × ℕ)

namespace AirtimeBudget

variable (b : AirtimeBudget)

def purge (now : ℕ) : AirtimeBudget :=
  { b with spent := b.spent.dropWhile fun entry => entry.1 < now - b.window }

def available (now : ℕ) : AirtimeBudget × ℕ :=
  (b.purge now, b.allowance - ((b.purge now).spent.map Prod.snd).sum)

/-- A refusal carries the time to wait. -/
def tryReserve (airtime now : ℕ) : AirtimeBudget × Except ℕ Unit :=
  if airtime > b.allowance then (b, .error b.window)
  else
    let (purged, available) := b.available now
    if available ≥ airtime then
      ({ purged with spent := purged.spent ++ [(now, airtime)] }, .ok ())
    else (purged, .error ((purged.spent.head?.map Prod.fst).getD now + b.window - now))

end AirtimeBudget

end Komms.Transport

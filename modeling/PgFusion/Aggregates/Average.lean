import Mathlib.Algebra.Order.BigOperators.Group.Multiset
import Mathlib.Data.Finset.Sort
import Mathlib.Data.Multiset.AddSub
import PgFusion.Data.Fallible
import PgFusion.Data.Rounding

/-!
The exact `avg` of integers and decimals (`df_functions`: `pg_avg.rs`), and the `History` of
batches, retractions and merged states that leads to an accumulator.
-/

namespace PgFusion.Aggregates

/-! ### Checked steps -/

/-- An `i256` step that fails when its result does not fit. -/
def checkedI256 (x : ℤ) (message : String) : Except String ℤ :=
  if -2 ^ 255 ≤ x ∧ x < 2 ^ 255 then pure x else throw message

/-- A `u64` step that fails when its result does not fit. -/
def checkedU64 (x : ℤ) (message : String) : Except String ℕ :=
  if 0 ≤ x ∧ x < 2 ^ 64 then pure x.toNat else throw message

/-- `ten_pow_i256`. -/
def tenPowI256 : ℕ → Except String ℤ
  | 0 => pure 1
  | power + 1 => do
    let value ← tenPowI256 power
    checkedI256 (value * 10) "decimal scale factor overflowed i256"

/-- `NUMERIC_AVG_SCALE`. -/
def numericAvgScale : ℤ := 16

/-- The sum and the count in `scaled_average`, brought to the scale of the result. -/
def scaledParts (sum : ℤ) (count : ℕ) (sumScale targetScale : ℤ) (label : String) :
    Except String (ℤ × ℤ) :=
  if sumScale ≤ targetScale then do
    let factor ← tenPowI256 (targetScale - sumScale).toNat
    let scaledSum ← checkedI256 (sum * factor) ("avg " ++ label ++ " final scaling overflowed i256")
    return (scaledSum, count)
  else do
    let factor ← tenPowI256 (sumScale - targetScale).toNat
    let divisor ← checkedI256 (count * factor) ("avg " ++ label ++ " final divisor overflowed i256")
    return (sum, divisor)

/-- The division in `scaled_average`, which rounds by the remainder. -/
def roundedQuotient (scaledSum divisor : ℤ) (label : String) : Except String ℤ := do
  let quotient ← checkedI256 (scaledSum.tdiv divisor) ("avg " ++ label ++ " division failed")
  let remainder ← checkedI256 (scaledSum.tmod divisor) ("avg " ++ label ++ " remainder failed")
  let doubledAbsRemainder ← checkedI256 (|remainder| * 2)
    ("avg " ++ label ++ " rounding overflowed i256")
  if divisor ≤ doubledAbsRemainder then
    checkedI256 (quotient + if scaledSum < 0 then -1 else 1)
      ("avg " ++ label ++ " rounded result overflowed i256")
  else pure quotient

/-- `scaled_average`. -/
def scaledAverage (sum : ℤ) (count : ℕ) (sumScale targetScale : ℤ) (label : String) :
    Except String (Option ℤ) :=
  if count = 0 then pure none
  else do
    let (scaledSum, divisor) ← scaledParts sum count sumScale targetScale label
    let quotient ← roundedQuotient scaledSum divisor label
    if -2 ^ 127 ≤ quotient ∧ quotient < 2 ^ 127 then pure (some quotient)
    else throw ("avg " ++ label ++ " result does not fit Decimal128(38, 16)")

/-! ### Accumulators -/

/-- What both accumulators keep. -/
structure Totals where
  sum : ℤ
  count : ℕ
deriving DecidableEq

/-- `add_i256`, and the end of `add_decimal128`. -/
def addScaled (label : String) (totals : Totals) (value : ℤ) : Except String Totals := do
  let sum ← checkedI256 (totals.sum + value) ("avg " ++ label ++ " transition sum overflowed i256")
  let count ← checkedU64 (totals.count + 1) ("avg " ++ label ++ " transition count overflowed u64")
  return ⟨sum, count⟩

/-- `retract_i256`, and the end of `retract_decimal128`. -/
def retractScaled (label : String) (totals : Totals) (value : ℤ) : Except String Totals := do
  let sum ← checkedI256 (totals.sum - value) ("avg " ++ label ++ " retraction sum overflowed i256")
  let count ← checkedU64 (totals.count - 1) ("avg " ++ label ++ " retraction count underflowed u64")
  return ⟨sum, count⟩

/-- `merge_state`. -/
def mergeState (label : String) (totals : Totals) (count : ℕ) (sum : ℤ) : Except String Totals := do
  let sum ← checkedI256 (totals.sum + sum) ("avg " ++ label ++ " merged sum overflowed i256")
  let count ← checkedU64 (totals.count + count) ("avg " ++ label ++ " merged count overflowed u64")
  return ⟨sum, count⟩

/-- What an accumulator does with single values and states. -/
structure Accumulator where
  new : Except String Totals
  add : Totals → ℤ → Except String Totals
  retract : Totals → ℤ → Except String Totals
  merge : Totals → ℕ → ℤ → Except String Totals
  evaluate : Totals → Except String (Option ℤ)

/-- `IntegerAvgAccumulator`. -/
def integerAvg : Accumulator where
  new := pure ⟨0, 0⟩
  add := addScaled "integer"
  retract := retractScaled "integer"
  merge := mergeState "integer"
  evaluate totals := scaledAverage totals.sum totals.count 0 numericAvgScale "integer"

/-- `decimal_avg_state_scale`. -/
def decimalAvgStateScale (inputScale : ℤ) : ℤ := max inputScale numericAvgScale

/-- A value at the scale of the state. -/
def scaleDecimal (inputScale : ℤ) (phase : String) (value : ℤ) : Except String ℤ := do
  let factor ← tenPowI256 (decimalAvgStateScale inputScale - inputScale).toNat
  checkedI256 (value * factor) ("avg decimal " ++ phase ++ " scaling overflowed i256")

/-- `DecimalAvgAccumulator`, for values with `inputScale` digits after the point. -/
def decimalAvg (inputScale : ℤ) : Accumulator where
  -- `try_new`: the difference of the scales is an `i8`
  new := if decimalAvgStateScale inputScale - inputScale < 2 ^ 7 then pure ⟨0, 0⟩
    else throw "avg decimal input scale overflowed i8"
  add totals value := do
    let scaled ← scaleDecimal inputScale "transition" value
    addScaled "decimal" totals scaled
  retract totals value := do
    let scaled ← scaleDecimal inputScale "retraction" value
    retractScaled "decimal" totals scaled
  merge := mergeState "decimal"
  evaluate totals :=
    scaledAverage totals.sum totals.count (decimalAvgStateScale inputScale)
      numericAvgScale "decimal"

section Batches

variable (acc : Accumulator)

/-- `update_batch`. -/
def updateBatch (totals : Totals) (values : List (Option ℤ)) : Except String Totals :=
  values.reduceOption.foldlM acc.add totals

/-- `retract_batch`. -/
def retractBatch (totals : Totals) (values : List (Option ℤ)) : Except String Totals :=
  values.reduceOption.foldlM acc.retract totals

/-- `state`: the count and the sum. -/
def Totals.state (totals : Totals) : Option ℕ × Option ℤ := (some totals.count, some totals.sum)

/-- `merge_batch`: rows with a null are skipped. -/
def mergeBatch (totals : Totals) (states : List (Option ℕ × Option ℤ)) : Except String Totals :=
  states.foldlM
    (fun totals state =>
      match state with
      | (some count, some sum) => acc.merge totals count sum
      | _ => pure totals) totals

end Batches

/-! ### Distinct values -/

namespace DistinctAvg

/-- `insert_batch`. -/
def insertBatch (seen : Finset ℤ) (values : List (Option ℤ)) : Finset ℤ :=
  values.reduceOption.foldl (fun seen value => insert value seen) seen

/-- `state_values`. -/
def stateValues (seen : Finset ℤ) : List (Option ℤ) := seen.sort.map some

/-- `merge_batch`. -/
def mergeBatch (seen : Finset ℤ) (states : List (List (Option ℤ))) : Finset ℤ :=
  states.foldl insertBatch seen

/-- `evaluate`: the values are given to the accumulator of their type. -/
def evaluate (acc : Accumulator) (seen : Finset ℤ) : Except String (Option ℤ) := do
  let empty ← acc.new
  let totals ← seen.sort.foldlM acc.add empty
  acc.evaluate totals

end DistinctAvg

/-! ### Histories -/

/-- How an accumulator came about. -/
inductive History where
  | new
  | update (h : History) (values : List (Option ℤ))
  | retract (h : History) (values : List (Option ℤ))
  | merge (h : History) (others : List History)

namespace History

mutual

/-- The accumulator after its history. -/
def run (acc : Accumulator) : History → Except String Totals
  | .new => acc.new
  | .update h values => do
    let totals ← h.run acc
    updateBatch acc totals values
  | .retract h values => do
    let totals ← h.run acc
    retractBatch acc totals values
  | .merge h others => do
    let totals ← h.run acc
    let states ← runAll acc others
    mergeBatch acc totals (states.map Totals.state)

def runAll (acc : Accumulator) : List History → Except String (List Totals)
  | [] => pure []
  | h :: hs => do
    let totals ← h.run acc
    let rest ← runAll acc hs
    return totals :: rest

end

mutual

/-- The set after a history, which has no retractions. -/
def runDistinct : History → Except String (Finset ℤ)
  | .new => pure ∅
  | .update h values => do
    let seen ← h.runDistinct
    return DistinctAvg.insertBatch seen values
  | .retract _ _ => throw "avg(DISTINCT) does not support window retraction"
  | .merge h others => do
    let seen ← h.runDistinct
    let states ← runDistinctAll others
    return DistinctAvg.mergeBatch seen (states.map DistinctAvg.stateValues)

def runDistinctAll : List History → Except String (List (Finset ℤ))
  | [] => pure []
  | h :: hs => do
    let seen ← h.runDistinct
    let rest ← runDistinctAll hs
    return seen :: rest

end

mutual

/-- The values that the accumulator contains. -/
def contents : History → Multiset ℤ
  | .new => 0
  | .update h values => h.contents + values.reduceOption
  | .retract h values => h.contents - values.reduceOption
  | .merge h others => h.contents + contentsAll others

def contentsAll : List History → Multiset ℤ
  | [] => 0
  | h :: hs => h.contents + contentsAll hs

end

mutual

/-- Values are below `10 ^ 38`, only contained values are retracted, and an accumulator never
contains `2 ^ 64` values. -/
def Valid : History → Prop
  | .new => True
  | .update h values =>
    h.Valid ∧ (∀ value ∈ values.reduceOption, |value| < 10 ^ 38) ∧
      (h.contents + (values.reduceOption : Multiset ℤ)).card < 2 ^ 64
  | .retract h values => h.Valid ∧ (values.reduceOption : Multiset ℤ) ≤ h.contents
  | .merge h others => h.Valid ∧ ValidAll others ∧ (h.contents + contentsAll others).card < 2 ^ 64

def ValidAll : List History → Prop
  | [] => True
  | h :: hs => h.Valid ∧ ValidAll hs

end

mutual

/-- Nothing is retracted. -/
def Grows : History → Prop
  | .new => True
  | .update h _ => h.Grows
  | .retract _ _ => False
  | .merge h others => h.Grows ∧ GrowsAll others

def GrowsAll : List History → Prop
  | [] => True
  | h :: hs => h.Grows ∧ GrowsAll hs

end

end History

end PgFusion.Aggregates

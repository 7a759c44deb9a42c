import LpTerminal.Catalog.Rows
import Mathlib.Algebra.Order.Field.Rat

/-!
The behavior screen over a pool's quote-side trades: the round trips of each actor and the class that an observation cites.
-/

namespace LpTerminal.Emerging.Behavior

export Catalog (Address)

def maxUnknownActorVolume : ℚ := 2 / 10
def maxActorVolumeShare : ℚ := 3 / 10
def maxSingleTradeShare : ℚ := 2 / 10
def maxRoundTripShare : ℚ := 5 / 10
def roundTripWindowSec : ℤ := 600
def roundTripSizeTolerance : ℚ := 1 / 10

inductive Direction
  | buy
  | sell
deriving DecidableEq

structure BehaviorTrade where
  /-- Unix seconds, as `behaviorOf` reads them from the events. -/
  ts : ℤ
  /-- Positive but for swaps of a dust amount, whose base side is zero. -/
  volumeQuote : ℤ
  direction : Direction
  /-- `none` when unresolved. -/
  actor : Option Address

structure Entry where
  i : ℕ
  actor : Address
  ts : ℤ
  direction : Direction
  v : ℤ
deriving DecidableEq

def entry (t : BehaviorTrade) (i : ℕ) : Option Entry :=
  match t.actor with
  | none => none
  | some actor => if t.volumeQuote ≤ 0 then none else some { i, actor, ts := t.ts, direction := t.direction, v := t.volumeQuote }

def entries (trades : List BehaviorTrade) : List Entry := trades.zipIdx.filterMap fun (t, i) => entry t i

/-- The keys of `byActor`; no sum depends on their order. -/
def actors (trades : List BehaviorTrade) : List Address := ((entries trades).map Entry.actor).dedup

def byActor (trades : List BehaviorTrade) (actor : Address) : List Entry := (entries trades).filter (·.actor = actor)

def window : ℤ := roundTripWindowSec * 1000

def withinTolerance (v v' : ℤ) : Bool :=
  let diff := if v > v' then v - v' else v' - v
  (diff : ℚ) / (if v > v' then v else v' : ℤ) ≤ roundTripSizeTolerance

/-- The tests of the inner loop, `x` before `y` in the list of an actor. -/
def matched (x y : Entry) : Bool := y.direction ≠ x.direction && !(y.ts - x.ts > window) && withinTolerance x.v y.v

/-- `paired` has the indexes of the pairs made so far. -/
def paired (pairs : List (Entry × Entry)) (x : Entry) : Bool := pairs.any fun p => p.1.i = x.i || p.2.i = x.i

def pairList : List Entry → List (Entry × Entry) → List (Entry × Entry)
  | [], pairs => pairs
  | x :: rest, pairs =>
    if paired pairs x then pairList rest pairs
    else
      match rest.find? fun y => !paired pairs y && matched x y with
      | none => pairList rest pairs
      | some y => pairList rest (pairs ++ [(x, y)])

def roundTrips (trades : List BehaviorTrade) : List (Entry × Entry) :=
  (actors trades).foldl (fun pairs actor => pairList (byActor trades actor) pairs) []

/-- What a pair adds to `pairedVolume`. -/
def pairVolume (p : Entry × Entry) : ℤ := if p.1.v < p.2.v then p.1.v else p.2.v

def pairedVolume (trades : List BehaviorTrade) : ℤ := ((roundTrips trades).map pairVolume).sum

def totalVolume (trades : List BehaviorTrade) : ℤ := (trades.map BehaviorTrade.volumeQuote).sum

def share (part total : ℤ) : ℚ := if total = 0 then 0 else (part : ℚ) / total

def roundTripShare (trades : List BehaviorTrade) : ℚ := share (pairedVolume trades) (totalVolume trades)

inductive BehaviorRiskClass
  | lowObserved
  | suspect
  | unknown
deriving DecidableEq

structure BehaviorAssessment where
  riskClass : BehaviorRiskClass
  trades : ℕ
  uniqueActors : ℕ
  unknownVolumeShare : ℚ
  maxActorVolumeShare : ℚ
  maxSingleTradeShare : ℚ
  roundTripShare : ℚ
  reasons : List String

def BehaviorAssessment.flag (a : BehaviorAssessment) (riskClass : BehaviorRiskClass) (reason : String) (raised : Bool) :
    BehaviorAssessment :=
  if raised then { a with riskClass, reasons := a.reasons ++ [reason] } else a

def unknownVolume (trades : List BehaviorTrade) : ℤ := ((trades.filter (·.actor = none)).map BehaviorTrade.volumeQuote).sum

def knownActors (trades : List BehaviorTrade) : List Address := (trades.filterMap BehaviorTrade.actor).dedup

def actorVolume (trades : List BehaviorTrade) (actor : Address) : ℤ :=
  ((trades.filter (·.actor = some actor)).map BehaviorTrade.volumeQuote).sum

def assessBehavior (trades : List BehaviorTrade) (hasDataGap : Bool) : BehaviorAssessment :=
  let total := totalVolume trades
  let unknownShare := share (unknownVolume trades) total
  let maxSingle := (trades.map BehaviorTrade.volumeQuote).foldl max 0
  let maxActorShare := share (((knownActors trades).map (actorVolume trades)).foldl max 0) total
  let maxSingleShare := share maxSingle total
  let rt := roundTripShare trades
  let a : BehaviorAssessment :=
    { riskClass := .lowObserved, trades := trades.length, uniqueActors := (knownActors trades).length
      unknownVolumeShare := unknownShare, maxActorVolumeShare := maxActorShare, maxSingleTradeShare := maxSingleShare
      roundTripShare := rt, reasons := [] }
  a.flag .unknown "data_gap" hasDataGap
    |>.flag .unknown "unknown_volume>0.2" (unknownShare > maxUnknownActorVolume)
    |>.flag .suspect "actor_share>0.3" (maxActorShare > maxActorVolumeShare)
    |>.flag .suspect "single_trade>0.2" (maxSingleShare > maxSingleTradeShare)
    |>.flag .suspect "round_trip>0.5" (rt > maxRoundTripShare)

end LpTerminal.Emerging.Behavior

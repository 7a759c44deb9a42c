import LpTerminal.Lib.Trace
import Mathlib.Logic.Function.Basic

/-!
The binding of a database file to one chain, when several processes start on it at once.
-/

namespace LpTerminal.DatabaseIdentity

open Trace

structure IndexerChainIdentity where
  chainKey : String
  chainId : Int
  deriving DecidableEq

inductive Status
  | bound | adopted | verified

/-- How a call of `bindOrAssertDatabaseChain` returns or throws. -/
inductive Outcome
  | returns (identity : IndexerChainIdentity) (status : Status)
  | invalidIdentity
  | belongsTo (owner : IndexerChainIdentity)
  | legacyData
  | identityRace (owner : Option IndexerChainIdentity)

structure Options where
  expected : IndexerChainIdentity
  adoptLegacy : Bool

/-- The table `indexer_identity` with its row, once they are there. -/
abbrev Database := Option (Option IndexerChainIdentity)

def identityOf (db : Database) : Option IndexerChainIdentity := db.join

/-- How far a call has come. -/
inductive Phase
  | begun
  | tableFound
  | unbound
  | checked (legacy : Bool)
  | created (legacy : Bool)
  | inserted (legacy : Bool)
  | ended (outcome : Outcome)

def invalid (expected : IndexerChainIdentity) : Bool :=
  expected.chainKey = "" || expected.chainId ≤ 0 || 9007199254740991 < expected.chainId

/-- The next statement of a call. What the other tables hold is up to the processes that write them. -/
def bindOrAssertDatabaseChain (options : Options) (hasApplicationData : Bool) (db : Database) : Phase → Phase × Database
  | .begun => (if invalid options.expected then .ended .invalidIdentity else if db.isSome then .tableFound else .unbound, db)
  | .tableFound => match identityOf db with
    | some existing => (.ended (if existing = options.expected then .returns existing .verified else .belongsTo existing), db)
    | none => (.unbound, db)
  | .unbound => (if hasApplicationData && !options.adoptLegacy then .ended .legacyData else .checked hasApplicationData, db)
  | .checked legacy => (.created legacy, some (identityOf db))
  -- INSERT OR IGNORE
  | .created legacy => (.inserted legacy, db.map (·.or (some options.expected)))
  | .inserted legacy =>
    (.ended (if identityOf db = some options.expected then .returns options.expected (if legacy then .adopted else .bound)
      else .identityRace (identityOf db)), db)
  | .ended outcome => (.ended outcome, db)

structure World where
  db : Database
  phase : Nat → Phase

structure Event where
  process : Nat
  hasApplicationData : Bool

def step (starts : Nat → Options) (world : World) (event : Event) : World :=
  let (phase, db) := bindOrAssertDatabaseChain (starts event.process) event.hasApplicationData world.db (world.phase event.process)
  ⟨db, Function.update world.phase event.process phase⟩

/-- What holds of a call that has come so far. -/
def Told (options : Options) (db : Database) : Phase → Prop
  | .checked legacy => legacy → options.adoptLegacy
  | .created legacy => db.isSome ∧ (legacy → options.adoptLegacy)
  | .inserted legacy => (identityOf db).isSome ∧ (legacy → options.adoptLegacy)
  | .ended (.returns identity status) =>
    identity = options.expected ∧ identityOf db = some identity ∧ (status = .adopted → options.adoptLegacy)
  | .ended .invalidIdentity => invalid options.expected
  | .ended .legacyData => options.adoptLegacy = false
  | .ended (.belongsTo owner) => owner ≠ options.expected ∧ identityOf db = some owner
  | .ended (.identityRace owner) => owner ≠ some options.expected ∧ owner.isSome ∧ identityOf db = owner
  | _ => True

/-- The identity is written once. -/
structure Grows (before after : Database) : Prop where
  table : before.isSome → after.isSome
  owner : ∀ owner, identityOf before = some owner → identityOf after = some owner

def Sound (starts : Nat → Options) (world : World) : Prop := ∀ process, Told (starts process) world.db (world.phase process)

variable {options : Options} {data : Bool} {db before after : Database} {starts : Nat → Options} {world : World} {phase : Phase}

theorem Told.grows (told : Told options before phase) (grows : Grows before after) : Told options after phase := by
  have ⟨table, owner⟩ := grows
  unfold Told at told ⊢
  split at told <;> grind [Option.isSome_iff_exists]

theorem bind_told (told : Told options db phase) :
    let next := bindOrAssertDatabaseChain options data db phase
    Grows db next.2 ∧ Told options next.2 next.1 := by
  cases phase with
  | checked legacy => exact ⟨⟨fun _ => rfl, fun _ => id⟩, rfl, told⟩
  | created legacy =>
    obtain ⟨row, rfl⟩ := Option.isSome_iff_exists.mp told.1
    cases row with
    | none => exact ⟨⟨id, fun _ none => nomatch none⟩, rfl, told.2⟩
    | some owner => exact ⟨⟨id, fun _ => id⟩, rfl, told.2⟩
  | _ =>
    refine ⟨⟨?_, ?_⟩, ?_⟩
    all_goals grind [bindOrAssertDatabaseChain, Told]

theorem step_sound (sound : Sound starts world) (event : Event) :
    Grows world.db (step starts world event).db ∧ Sound starts (step starts world event) := by
  have ⟨grows, told⟩ := @bind_told _ event.hasApplicationData _ _ (sound event.process)
  refine ⟨grows, fun other => ?_⟩
  show Told (starts other) _ (Function.update world.phase event.process _ other)
  by_cases own : other = event.process
  · rw [own, Function.update_self]
    exact told
  · rw [Function.update_of_ne own]
    exact (sound other).grows grows

theorem run_sound (sound : Sound starts world) (events : List Event) :
    Grows world.db (run (step starts) world events).db ∧ Sound starts (run (step starts) world events) := by
  refine @run_keeps_all _ _ (step starts) (fun w => Grows world.db w.db ∧ Sound starts w) _ ?_ ⟨⟨id, fun _ => id⟩, sound⟩ events
  intro w event ⟨grown, kept⟩
  have ⟨grows, told⟩ := step_sound kept event
  exact ⟨⟨grows.table ∘ grown.table, fun owner => grows.owner owner ∘ grown.owner owner⟩, told⟩

end LpTerminal.DatabaseIdentity

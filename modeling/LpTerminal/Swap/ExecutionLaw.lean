import LpTerminal.Swap.Execution
import LpTerminal.Solver.QuoteBinding
import Mathlib.Data.List.Induction

/-!
What holds whenever a trade is handed to the wallet.
-/

namespace LpTerminal.Swap

open Solver (Viem QuoteRequest QuoteTransaction SolverQuote HexString NATIVE lower fetchSolverQuote)
open Fallible Durable

variable {δ : Type} {build : Build δ} {world : World}

def Event.quiet : Event → Bool
  | .handed _ _ => false
  | _ => true

def Event.quote : Event → Option (Option Trade)
  | .prepared trade => some trade
  | _ => none

def latest (log : List Event) : Option (Option Trade) := log.reverse.findSome? Event.quote

def sinceCheck : Option (Option String) → Event → Option (Option String)
  | _, .checked => none
  | _, .switched account => some account
  | last, _ => last

def lastSwitch (log : List Event) : Option (Option String) := log.foldl sinceCheck none

/-- Every hand-off in the log satisfies `P`, with the events before it. -/
def AtHandOff (P : List Event → Option String → Request → Prop) (log : List Event) : Prop :=
  ∀ before active request after, log = before ++ .handed active request :: after → P before active request

variable {log : List Event}

theorem atHandOff_quiet {P : List Event → Option String → Request → Prop} (quiet : ∀ event ∈ log, event.quiet = true) :
    AtHandOff P log := by
  intro before active request after split
  have handed := quiet (.handed active request) (split ▸ List.mem_append_right _ List.mem_cons_self)
  cases handed

theorem atHandOff_append {P : List Event → Option String → Request → Prop} {log tail : List Event} (sealed : AtHandOff P log)
    (quiet : ∀ event ∈ tail, event.quiet = true) : AtHandOff P (log ++ tail) := by
  intro before active request after split
  rcases List.append_eq_append_iff.mp split with ⟨middle, left, right⟩ | ⟨middle, left, right⟩
  · have handed := quiet (.handed active request) (right ▸ List.mem_append_right _ List.mem_cons_self)
    cases handed
  · cases middle with
    | nil =>
      have handed := quiet (.handed active request) ((show _ = tail from right) ▸ List.mem_cons_self)
      cases handed
    | cons first rest =>
      obtain ⟨rfl, rest⟩ := List.cons.inj right
      exact sealed before active request _ left

theorem atHandOff_handed {P : List Event → Option String → Request → Prop} {active : Option String}
    {request : Request} (quiet : ∀ event ∈ log, event.quiet = true) (holds : P log active request) :
    AtHandOff P (log ++ [.handed active request]) := by
  intro before active' request' after split
  rcases List.append_eq_append_iff.mp split with ⟨middle, left, right⟩ | ⟨middle, left, right⟩
  · cases middle with
    | nil =>
      obtain ⟨same, _⟩ := List.cons.inj right
      cases same
      rw [left, List.append_nil]
      exact holds
    | cons first rest =>
      exact absurd (List.cons.inj right).2 (by simp)
  · cases middle with
    | nil =>
      obtain ⟨same, _⟩ := List.cons.inj right
      cases same
      rw [List.append_nil] at left
      rw [← left]
      exact holds
    | cons first rest =>
      have handed := quiet (.handed active' request') (left ▸ by
        obtain ⟨same, _⟩ := List.cons.inj right
        rw [← same]
        exact List.mem_append_right _ List.mem_cons_self)
      cases handed

variable {event : Event}

theorem latest_append : latest (log ++ [event]) = event.quote.or (latest log) := by
  unfold latest
  rw [List.reverse_append, List.reverse_singleton, List.singleton_append, List.findSome?_cons]
  cases event.quote <;> rfl

theorem lastSwitch_append : lastSwitch (log ++ [event]) = sinceCheck (lastSwitch log) event := by
  unfold lastSwitch
  rw [List.foldl_append]
  rfl

namespace Flow

def tokenIn : Flow → String
  | .direct args => args.tokenIn
  | .solver args => args.tokenIn

def amountIn : Flow → ℤ
  | .direct args => args.amountIn
  | .solver args => args.amountIn

def minimumAmountOut : Flow → ℤ
  | .direct args => args.minimumAmountOut
  | .solver args => args.minimumAmountOut

def sender : Flow → String
  | .direct args => args.sender
  | .solver args => args.sender

end Flow

/-- The calldata of the Settler. The input of an ERC-20 swap goes through `exec` of the allowance holder. -/
def settlerData (viem : Viem) (tokenIn data : String) : Option String :=
  if isNative tokenIn then some data else (viem.decodeAllowanceHolder data).map (·.data)

def encodedMinimum (viem : Viem) (tokenIn : String) : Calldata → Option ℤ
  | .direct data => data.netMinimum
  | .solver data => ((settlerData viem tokenIn data).bind viem.decodeSettlerTaker).map (·.minAmountOut)

def pull (venues : Venues) (tokenIn : String) (trade : Trade) : Option Pull :=
  match trade.data with
  | .direct data => data.pull venues trade.target trade.value
  | .solver _ => if isNative tokenIn then none else some ⟨trade.target, none⟩

def Names (viem : Viem) (left right : String) : Prop :=
  left = right ∨ viem.Same left right

def Suffices (build : Build δ) (flow : Flow) (grant : Grant) : Prop :=
  grant.owner = flow.sender ∧ flow.amountIn ≤ grant.amount ∧ erc20Of build.viem build.venues flow.tokenIn = .ok grant.token

def SpenderAllowed (build : Build δ) (flow : Flow) (log : List Event) (spender : String) : Prop :=
  ∃ grant, .allowance grant ∈ log ∧ Suffices build flow grant ∧ Names build.viem grant.spender spender

def OperatorAllowed (build : Build δ) (flow : Flow) (log : List Event) (spender operator : String) : Prop :=
  ∃ permit, .permit permit ∈ log ∧ Suffices build flow permit.grant ∧ Names build.viem permit.permit2 spender ∧
    Names build.viem permit.grant.spender operator

/-- The trade is of the most recently prepared quote, keeps the displayed minimum, and pulls the input
only through allowances of this run. -/
structure Covered (build : Build δ) (flow : Flow) (before : List Event) (trade : Trade) : Prop where
  latest : latest before = some (some trade)
  minimum : ∃ least, encodedMinimum build.viem flow.tokenIn trade.data = some least ∧ flow.minimumAmountOut ≤ least
  spender : ∀ taken, pull build.venues flow.tokenIn trade = some taken → SpenderAllowed build flow before taken.spender
  operator : ∀ taken operator, pull build.venues flow.tokenIn trade = some taken → taken.operator = some operator →
    OperatorAllowed build flow before taken.spender operator

structure Sound (build : Build δ) (flow : Flow) (before : List Event) (active : Option String) (request : Request) : Prop where
  sender : activeAccountMatches active flow.sender = true
  account : request.account = flow.sender
  covered : Covered build flow before request.trade

def Undisturbed (flow : Flow) (before : List Event) : Prop :=
  match flow with
  | .direct _ => True
  | .solver args => ∀ account, lastSwitch before = some account → activeAccountMatches account args.sender = true

def Event.idle : Event → Bool
  | .prepared _ => false
  | event => event.quiet

def Tracks (sender : String) (session : Session) : Prop :=
  match lastSwitch session.log with
  | none => activeAccountMatches session.active sender = true
  | some account => session.active = account

structure Grows (sender : String) (allowed : Event → Bool) (s s' : Session) : Prop where
  log : ∃ tail, s'.log = s.log ++ tail ∧ ∀ event ∈ tail, allowed event = true
  tracks : Tracks sender s → Tracks sender s'

variable {sender : String} {allowed : Event → Bool} {s s' s'' : Session} {α β : Type}

theorem grows_refl (s : Session) : Grows sender allowed s s where
  log := ⟨[], by simp, by simp⟩
  tracks := id

theorem Grows.trans (first : Grows sender allowed s s') (second : Grows sender allowed s' s'') : Grows sender allowed s s'' := by
  obtain ⟨tail, grown, quiet⟩ := first.log
  obtain ⟨later, grownLater, quietLater⟩ := second.log
  refine ⟨⟨tail ++ later, by rw [grownLater, grown, List.append_assoc], fun event member => ?_⟩, second.tracks ∘ first.tracks⟩
  rcases List.mem_append.mp member with inside | inside
  · exact quiet event inside
  · exact quietLater event inside

theorem idle_quiet (idle : event.idle = true) : event.quiet = true := by
  cases event <;> first | rfl | exact idle

theorem Grows.quiet (grows : Grows sender Event.idle s s') : Grows sender Event.quiet s s' := by
  obtain ⟨tail, grown, idle⟩ := grows.log
  exact ⟨⟨tail, grown, fun event member => idle_quiet (idle event member)⟩, grows.tracks⟩

theorem Grows.mem (grows : Grows sender allowed s s') (member : event ∈ s.log) : event ∈ s'.log := by
  obtain ⟨tail, grown, _⟩ := grows.log
  rw [grown]
  exact List.mem_append_left _ member

theorem Grows.clean (grows : Grows sender Event.quiet s s') (clean : ∀ event ∈ s.log, event.quiet = true) :
    ∀ event ∈ s'.log, event.quiet = true := by
  obtain ⟨tail, grown, quiet⟩ := grows.log
  intro event member
  rw [grown] at member
  rcases List.mem_append.mp member with inside | inside
  · exact clean event inside
  · exact quiet event inside

theorem latest_idle {log tail : List Event} (idle : ∀ event ∈ tail, event.idle = true) : latest (log ++ tail) = latest log := by
  induction tail generalizing log with
  | nil => rw [List.append_nil]
  | cons event rest ih =>
    have first := idle event List.mem_cons_self
    have silent : event.quote = none := by
      cases event <;> first | rfl | cases first
    rw [List.append_cons, ih fun later inside => idle later (List.mem_cons_of_mem _ inside), latest_append, silent]
    rfl

theorem Grows.latest (grows : Grows sender Event.idle s s') : latest s'.log = latest s.log := by
  obtain ⟨tail, grown, idle⟩ := grows.log
  rw [grown, latest_idle idle]

def Adds (sender : String) (allowed : Event → Bool) (m : Program α) : Prop :=
  ∀ s, Grows sender allowed s (m.run s).2

theorem adds_pure (a : α) : Adds sender allowed (pure a : Program α) := grows_refl

theorem adds_fail (e : Failure) : Adds sender allowed (fail e : Program α) := grows_refl

theorem adds_read : Adds sender allowed (read : Program Session) := grows_refl

theorem adds_reply (answer : Result α) : Adds sender allowed (reply answer : Program α) := grows_refl

variable {m : Program α} {f : α → Program β}

theorem adds_bind (first : Adds sender allowed m) (next : ∀ a, Adds sender allowed (f a)) :
    Adds sender allowed (m >>= f) := by
  intro s
  have grown := first s
  rw [bind_run]
  rcases ran : m.run s with ⟨outcome, s'⟩
  rw [ran] at grown
  cases outcome with
  | ok a => exact grown.trans (next a s')
  | error e => exact grown

theorem adds_ran (sender : String) (adds : Adds sender allowed m) {outcome : Result α} (ran : m.run s = (outcome, s')) :
    Grows sender allowed s s' := by
  have grown := adds s
  rw [ran] at grown
  exact grown

theorem Adds.quiet (adds : Adds sender Event.idle m) : Adds sender Event.quiet m := fun s => (adds s).quiet

theorem adds_rescue {answer : Failure → Option α} (adds : Adds sender allowed m) :
    Adds sender allowed (rescue answer m) := by
  intro s
  have grown := adds s
  unfold rescue
  rcases ran : m.run s with ⟨outcome, s'⟩
  rw [ran] at grown
  cases outcome with
  | ok a => simpa only [ran] using grown
  | error e =>
    simp only [ran]
    cases answer e <;> exact grown

theorem adds_record (permitted : allowed event = true) (still : ∀ last, sinceCheck last event = last) :
    Adds sender allowed (record event) := by
  intro s
  refine ⟨⟨[event], rfl, by simpa using permitted⟩, fun tracks => ?_⟩
  unfold Tracks at *
  change match lastSwitch (s.log ++ [event]) with | none => _ | some account => _
  rw [lastSwitch_append, still]
  exact tracks

theorem lastSwitch_switched {accounts : List (Option String)} :
    lastSwitch (log ++ accounts.map .switched) = accounts.getLast?.or (lastSwitch log) := by
  induction accounts using List.reverseRecOn with
  | nil => simp
  | append_singleton earlier account _ =>
    rw [List.map_append, ← List.append_assoc]
    exact lastSwitch_append.trans (by simp [sinceCheck])

theorem adds_await {answer : ℕ → Result α} : Adds sender Event.idle (await world answer) := by
  intro s
  refine ⟨⟨(world.switches s.awaits).map .switched, rfl, ?_⟩, fun tracks => ?_⟩
  · intro event member
    obtain ⟨account, _, rfl⟩ := List.mem_map.mp member
    rfl
  · change Tracks sender (s.resumed world)
    unfold Tracks Session.resumed at *
    rw [lastSwitch_switched]
    cases (world.switches s.awaits).getLast? with
    | none => simpa using tracks
    | some account => simp

theorem requireSender_run (s : Session) : (requireSender sender).run s =
    if activeAccountMatches s.active sender then (.ok (), { s with log := s.log ++ [.checked] })
    else (.error (.message "tx.accountChanged"), s) := by
  change (if activeAccountMatches s.active sender then record .checked else fail (.message "tx.accountChanged") : Program Unit).run s = _
  split <;> rfl

theorem requireSender_returns {u : Unit} (ran : (requireSender sender).run s = (.ok u, s')) :
    Tracks sender s' ∧ lastSwitch s'.log = none ∧ s'.log = s.log ++ [.checked] ∧ activeAccountMatches s'.active sender = true := by
  rw [requireSender_run] at ran
  split at ran
  · rename_i active
    cases ran
    have settled : lastSwitch (s.log ++ [.checked]) = none := lastSwitch_append
    refine ⟨?_, settled, rfl, active⟩
    unfold Tracks
    rw [settled]
    exact active
  · cases ran

theorem adds_requireSender : Adds sender Event.idle (requireSender sender) := by
  intro s
  rcases ran : (requireSender sender).run s with ⟨outcome, s'⟩
  cases outcome with
  | ok u =>
    obtain ⟨tracks, _, grown, _⟩ := requireSender_returns ran
    exact ⟨⟨[.checked], grown, by simp [Event.idle, Event.quiet]⟩, fun _ => tracks⟩
  | error e =>
    rw [requireSender_run] at ran
    split at ran
    · cases ran
    · cases ran
      exact grows_refl s

theorem adds_step {send : Program Unit} (adds : Adds sender allowed send) (awaited : Adds sender allowed (await world world.mined)) :
    Adds sender allowed (step world send) :=
  adds_rescue (adds_bind adds fun _ => adds_bind awaited fun _ => adds_pure _)

theorem adds_approval : Adds sender Event.idle (step world (pure ())) := adds_step (adds_pure ()) adds_await

variable {amount : ℤ}

theorem adds_ensureAllowance {token owner spender : String} :
    Adds sender Event.idle (ensureAllowance world token owner spender amount) := by
  unfold ensureAllowance
  refine adds_bind adds_await fun current => ?_
  split
  · exact adds_bind (adds_record rfl fun _ => rfl) fun _ => adds_pure _
  · refine adds_bind adds_approval fun answer => ?_
    cases answer with
    | none => exact adds_pure _
    | some receipt => exact adds_bind (adds_record rfl fun _ => rfl) fun _ => adds_pure _

theorem adds_ensurePermit2Allowance {permit2 token owner operator : String} :
    Adds sender Event.idle (ensurePermit2Allowance world permit2 token owner operator amount) := by
  unfold ensurePermit2Allowance
  refine adds_bind adds_await fun current => adds_bind adds_read fun session => ?_
  split
  · exact adds_bind (adds_record rfl fun _ => rfl) fun _ => adds_pure _
  · refine adds_bind (adds_reply _) fun _ => adds_bind adds_approval fun answer => ?_
    cases answer with
    | none => exact adds_pure _
    | some receipt => exact adds_bind (adds_record rfl fun _ => rfl) fun _ => adds_pure _

theorem adds_prepareSwap {args : SwapExecutionIntent} : Adds sender Event.quiet (prepareSwap build world args) := by
  unfold prepareSwap quoteDirectRoute
  refine adds_bind (adds_reply _) fun fee => adds_bind (adds_bind (adds_reply _) fun _ => adds_bind adds_await.quiet fun gross => ?_)
    fun amount => adds_bind (adds_reply _) fun _ => adds_bind adds_read fun session => adds_bind (adds_reply _) fun prepared =>
    adds_bind (adds_record rfl fun _ => rfl) fun _ => adds_pure _
  split
  · exact adds_fail _
  · exact adds_pure _

variable {prepared : DirectTransaction}

theorem adds_approveOperator {args : SwapExecutionIntent} :
    Adds args.sender Event.quiet (approveOperator build world args prepared) := by
  unfold approveOperator
  split
  · refine adds_bind adds_ensurePermit2Allowance.quiet fun answer => ?_
    split
    · exact adds_pure _
    · exact adds_pure _
    · exact adds_bind adds_requireSender.quiet fun _ => adds_bind adds_prepareSwap fun _ => adds_bind (adds_reply _) fun _ => adds_pure _
  · exact adds_pure _

theorem adds_approveDirect {args : SwapExecutionIntent} :
    Adds args.sender Event.quiet (approveDirect build world args prepared) := by
  unfold approveDirect
  split
  · exact adds_pure _
  · exact adds_fail _
  · refine adds_bind adds_ensureAllowance.quiet fun answer => ?_
    split
    · exact adds_pure _
    · exact adds_approveOperator
    · exact adds_bind adds_requireSender.quiet fun _ => adds_bind adds_prepareSwap fun _ => adds_bind (adds_reply _) fun _ =>
        adds_approveOperator

variable {args : SolverSwapIntent} {slippageBps : ℚ}

theorem adds_fresh : Adds sender Event.quiet (fresh build world args slippageBps) :=
  adds_bind adds_await.quiet fun _ => adds_bind (adds_record rfl fun _ => rfl) fun _ => adds_pure _

theorem adds_freshPreservingMinimum {attempts : ℕ} :
    Adds sender Event.quiet (freshPreservingMinimum build world args attempts slippageBps) := by
  induction attempts generalizing slippageBps with
  | zero => exact adds_fail _
  | succ attempts ih =>
    unfold freshPreservingMinimum
    refine adds_bind adds_fresh fun quote => ?_
    split
    · exact adds_fail _
    · split
      · exact adds_pure _
      · split
        · dsimp only
          split
          · exact adds_fail _
          · exact ih
        · exact adds_fail _

variable {quote : SolverQuote δ}

theorem adds_approveSolver :
    Adds args.sender Event.quiet (approveSolver build world args quote) := by
  unfold approveSolver
  split
  · exact adds_pure _
  · refine adds_bind (adds_reply _) fun token => adds_bind adds_ensureAllowance.quiet fun answer => ?_
    split
    · exact adds_pure _
    · exact adds_pure _
    · exact adds_bind adds_requireSender.quiet fun _ => adds_bind adds_freshPreservingMinimum fun _ => adds_bind (adds_reply _) fun _ =>
        adds_pure _

variable {tx : QuoteTransaction} {viem : Viem}

theorem adds_preflight {account settler : String} :
    Adds sender Event.idle (preflightSolverTransaction viem world account tx settler) := by
  unfold preflightSolverTransaction assertGenuineSolverSettler
  refine adds_bind (adds_reply _) fun _ => adds_bind (adds_bind adds_await fun current => adds_bind (adds_reply _) fun alleged => ?_)
    fun _ => adds_bind adds_await fun _ => adds_pure _
  split
  · exact adds_pure _
  · exact adds_bind adds_await fun _ => adds_reply _

theorem record_returns {u : Unit} (ran : (record event).run s = (.ok u, s')) : s'.log = s.log ++ [event] := by
  cases ran
  rfl

theorem reply_returns {answer : Result α} {a : α} (ran : (reply answer : Program α).run s = (.ok a, s')) : answer = .ok a ∧ s' = s := by
  cases ran
  exact ⟨rfl, rfl⟩

theorem pure_returns {a b : α} (ran : (pure a : Program α).run s = (.ok b, s')) : a = b ∧ s' = s := by
  cases ran
  exact ⟨rfl, rfl⟩

theorem ensureAllowance_returns {token owner spender : String} {answer : AllowanceResult}
    (ran : (ensureAllowance world token owner spender amount).run s = (.ok (some answer), s')) :
    ∃ found, amount ≤ found ∧ .allowance ⟨token, owner, spender, found⟩ ∈ s'.log := by
  unfold ensureAllowance at ran
  obtain ⟨current, middle, _, ran⟩ := bind_returns ran
  split at ran
  · rename_i enough
    obtain ⟨u, last, recorded, ran⟩ := bind_returns ran
    obtain ⟨_, rfl⟩ := pure_returns ran
    exact ⟨current, enough, by rw [record_returns recorded]; simp⟩
  · obtain ⟨outcome, later, _, ran⟩ := bind_returns ran
    cases outcome with
    | none => cases (pure_returns ran).1
    | some receipt =>
      obtain ⟨u, last, recorded, ran⟩ := bind_returns ran
      obtain ⟨_, rfl⟩ := pure_returns ran
      exact ⟨amount, le_refl _, by rw [record_returns recorded]; simp⟩

theorem ensurePermit2Allowance_returns {permit2 token owner operator : String} {answer : AllowanceResult}
    (ran : (ensurePermit2Allowance world permit2 token owner operator amount).run s = (.ok (some answer), s')) :
    ∃ found, amount ≤ found ∧ .permit ⟨permit2, token, owner, operator, found⟩ ∈ s'.log := by
  unfold ensurePermit2Allowance at ran
  obtain ⟨current, middle, _, ran⟩ := bind_returns ran
  obtain ⟨session, here, _, ran⟩ := bind_returns ran
  split at ran
  · rename_i enough
    obtain ⟨u, last, recorded, ran⟩ := bind_returns ran
    obtain ⟨_, rfl⟩ := pure_returns ran
    exact ⟨current.1, enough.1, by rw [record_returns recorded]; simp⟩
  · obtain ⟨_, within, _, ran⟩ := bind_returns ran
    obtain ⟨outcome, later, _, ran⟩ := bind_returns ran
    cases outcome with
    | none => cases (pure_returns ran).1
    | some receipt =>
      obtain ⟨u, last, recorded, ran⟩ := bind_returns ran
      obtain ⟨_, rfl⟩ := pure_returns ran
      exact ⟨amount, le_refl _, by rw [record_returns recorded]; simp⟩

/-- A prepared transaction of the intent, whose quote is the latest. -/
structure Prepared (build : Build δ) (args : SwapExecutionIntent) (log : List Event) (prepared : DirectTransaction) : Prop where
  latest : latest log = some (some prepared.trade)
  built : ∃ fee deadline, buildDirectTransaction build.viem build.venues (args.directArgs fee deadline) = .ok prepared

theorem prepareSwap_returns {args : SwapExecutionIntent}
    (ran : (prepareSwap build world args).run s = (.ok prepared, s')) : Prepared build args s'.log prepared := by
  unfold prepareSwap at ran
  obtain ⟨fee, _, _, ran⟩ := bind_returns ran
  obtain ⟨amountOut, _, _, ran⟩ := bind_returns ran
  obtain ⟨_, _, _, ran⟩ := bind_returns ran
  obtain ⟨session, _, _, ran⟩ := bind_returns ran
  obtain ⟨tx, _, told, ran⟩ := bind_returns ran
  obtain ⟨_, _, recorded, ran⟩ := bind_returns ran
  obtain ⟨rfl, rfl⟩ := pure_returns ran
  obtain ⟨built, _⟩ := reply_returns told
  refine ⟨?_, fee, _, built⟩
  rw [record_returns recorded, latest_append]
  rfl

theorem Prepared.token {args : SwapExecutionIntent} {spender token : String}
    (ready : Prepared build args log prepared) (spent : prepared.spender = some spender) (input : prepared.inputToken = some token) :
    erc20Of build.viem build.venues args.tokenIn = .ok token := by
  obtain ⟨fee, deadline, built⟩ := ready.built
  obtain ⟨_, _, named, _⟩ := buildDirectTransaction_covers built
  obtain ⟨tokenIn, read, same⟩ := named (by rw [spent]; rfl)
  rw [input] at same
  cases same
  exact read

theorem Prepared.idle {args : SwapExecutionIntent} (ready : Prepared build args s.log prepared)
    (grows : Grows sender Event.idle s s') : Prepared build args s'.log prepared :=
  ⟨grows.latest.trans ready.latest, ready.built⟩

theorem unchanged_same {current : Option String} {approved now : String} (same : unchanged viem current approved = true)
    (named : current = some now) : viem.Same approved now := by
  subst named
  unfold unchanged at same
  split at same
  · rename_i left right readLeft readRight
    have eq : left = right := of_decide_eq_true same
    exact ⟨left, eq ▸ readRight, readLeft⟩
  · cases same

theorem Names.then_same {a b c : String} (named : Names viem a b) (same : viem.Same b c) : Names viem a c := by
  rcases named with rfl | ⟨address, readA, readB⟩
  · exact .inr same
  · obtain ⟨other, readB', readC⟩ := same
    have eq : address = other := Option.some.inj (readB.symm.trans readB')
    exact .inr ⟨address, readA, eq ▸ readC⟩

theorem SpenderAllowed.grows {flow : Flow} {spender : String} (permitted : SpenderAllowed build flow s.log spender)
    (grows : Grows sender allowed s s') : SpenderAllowed build flow s'.log spender := by
  obtain ⟨grant, member, enough, named⟩ := permitted
  exact ⟨grant, grows.mem member, enough, named⟩

theorem SpenderAllowed.then_same {flow : Flow} {old new : String} (permitted : SpenderAllowed build flow log old)
    (same : build.viem.Same old new) : SpenderAllowed build flow log new := by
  obtain ⟨grant, member, enough, named⟩ := permitted
  exact ⟨grant, member, enough, named.then_same same⟩

structure Approved (build : Build δ) (args : SwapExecutionIntent) (log : List Event) (prepared : DirectTransaction) : Prop
    extends Prepared build args log prepared where
  spender : ∀ spender, prepared.spender = some spender → SpenderAllowed build (.direct args) log spender

structure Permitted (build : Build δ) (args : SwapExecutionIntent) (log : List Event) (prepared : DirectTransaction) : Prop
    extends Approved build args log prepared where
  operator : ∀ spender operator, prepared.spender = some spender → prepared.permit2Operator = some operator →
    OperatorAllowed build (.direct args) log spender operator

theorem Prepared.input {args : SwapExecutionIntent} {spender : String}
    (ready : Prepared build args log prepared) (spent : prepared.spender = some spender) : prepared.inputToken.isSome := by
  obtain ⟨fee, deadline, built⟩ := ready.built
  obtain ⟨_, _, named, _⟩ := buildDirectTransaction_covers built
  obtain ⟨tokenIn, _, same⟩ := named (by rw [spent]; rfl)
  rw [same]
  rfl

theorem approveOperator_returns {args : SwapExecutionIntent} {prepared ready : DirectTransaction}
    (approved : Approved build args s.log prepared)
    (ran : (approveOperator build world args prepared).run s = (.ok (some ready), s')) : Permitted build args s'.log ready := by
  unfold approveOperator at ran
  split at ran
  · rename_i operator permit2 token operated spent input
    have read := approved.token spent input
    obtain ⟨answer, middle, ensured, ran⟩ := bind_returns ran
    have grows := adds_ran args.sender adds_ensurePermit2Allowance ensured
    cases answer with
    | none => cases (pure_returns ran).1
    | some answer =>
      obtain ⟨found, enough, member⟩ := ensurePermit2Allowance_returns ensured
      cases answer with
      | sufficient =>
        obtain ⟨same, rfl⟩ := pure_returns ran
        cases same
        refine ⟨⟨approved.toPrepared.idle grows, fun spender named => (approved.spender spender named).grows grows⟩, ?_⟩
        intro spender other named working
        rw [spent] at named
        rw [operated] at working
        cases named
        cases working
        exact ⟨_, member, ⟨rfl, enough, read⟩, .inl rfl, .inl rfl⟩
      | approved =>
        obtain ⟨_, checked, gate, ran⟩ := bind_returns ran
        obtain ⟨fresh, final, prepare, ran⟩ := bind_returns ran
        obtain ⟨_, last, compared, ran⟩ := bind_returns ran
        obtain ⟨same, rfl⟩ := pure_returns ran
        cases same
        obtain ⟨kept, rfl⟩ := reply_returns compared
        obtain ⟨sameOperator, sameSpender, _⟩ := require_ok.mp kept
        have later := (adds_ran args.sender adds_requireSender gate).quiet.trans (adds_ran args.sender adds_prepareSwap prepare)
        refine ⟨⟨prepareSwap_returns prepare, fun spender named => ?_⟩, fun spender other named working => ?_⟩
        · exact (((approved.spender permit2 spent).grows grows).grows later).then_same (unchanged_same sameSpender named)
        · exact ⟨_, later.mem member, ⟨rfl, enough, read⟩, .inr (unchanged_same sameSpender named),
            .inr (unchanged_same sameOperator working)⟩
  · rename_i missing
    obtain ⟨same, rfl⟩ := pure_returns ran
    cases same
    refine ⟨approved, fun spender operator spent operated => ?_⟩
    obtain ⟨token, input⟩ := Option.isSome_iff_exists.mp (approved.toPrepared.input spent)
    exact absurd input (missing operator spender token operated spent)

theorem approveDirect_returns {args : SwapExecutionIntent} {prepared ready : DirectTransaction}
    (quoted : Prepared build args s.log prepared)
    (ran : (approveDirect build world args prepared).run s = (.ok (some ready), s')) : Permitted build args s'.log ready := by
  unfold approveDirect at ran
  split at ran
  · rename_i free
    obtain ⟨same, rfl⟩ := pure_returns ran
    cases same
    exact ⟨⟨quoted, fun spender spent => by rw [free] at spent; cases spent⟩, fun spender _ spent => by rw [free] at spent; cases spent⟩
  · cases ran
  · rename_i spender token spent input
    have read := quoted.token spent input
    obtain ⟨answer, middle, ensured, ran⟩ := bind_returns ran
    have grows := adds_ran args.sender adds_ensureAllowance ensured
    cases answer with
    | none => cases (pure_returns ran).1
    | some answer =>
      obtain ⟨found, enough, member⟩ := ensureAllowance_returns ensured
      have allowance : SpenderAllowed build (.direct args) middle.log spender := ⟨_, member, ⟨rfl, enough, read⟩, .inl rfl⟩
      cases answer with
      | sufficient =>
        refine approveOperator_returns ⟨quoted.idle grows, fun other named => ?_⟩ ran
        rw [spent] at named
        cases named
        exact allowance
      | approved =>
        obtain ⟨_, checked, gate, ran⟩ := bind_returns ran
        obtain ⟨fresh, final, prepare, ran⟩ := bind_returns ran
        obtain ⟨_, last, compared, rest⟩ := bind_returns ran
        obtain ⟨kept, rfl⟩ := reply_returns compared
        obtain ⟨sameSpender, _⟩ := require_ok.mp kept
        have later := (adds_ran args.sender adds_requireSender gate).quiet.trans (adds_ran args.sender adds_prepareSwap prepare)
        exact approveOperator_returns
          ⟨prepareSwap_returns prepare, fun other named => (allowance.grows later).then_same (unchanged_same sameSpender named)⟩ rest

theorem Permitted.covered {args : SwapExecutionIntent}
    (permitted : Permitted build args log prepared) : Covered build (.direct args) log prepared.trade := by
  obtain ⟨fee, deadline, built⟩ := permitted.built
  obtain ⟨least, approves, _, _⟩ := buildDirectTransaction_covers built
  refine ⟨permitted.latest, least, fun taken pulled => ?_, fun taken operator pulled operated => ?_⟩
  · exact permitted.spender _ (approves taken pulled).1
  · exact permitted.operator _ _ (approves taken pulled).1 ((approves taken pulled).2.trans operated)

theorem execution_trusted {chain : Solver.Chain} {body : Option Solver.Json} {execution : Solver.Execution}
    (parsed : Solver.parseExecutionBinding viem chain body = .ok execution) (carried : Solver.absent (Solver.property body "tx") = false)
    (token : ¬ Solver.nativeInput body = true) : execution.allowanceTarget = chain.solverAllowanceTarget := by
  unfold Solver.parseExecutionBinding at parsed
  obtain ⟨settler, _, parsed⟩ := bind_ok parsed
  rw [if_neg (by rw [carried]; exact Bool.false_ne_true)] at parsed
  cases settler with
  | none => cases parsed
  | some settler =>
    dsimp only at parsed
    obtain ⟨target, _, parsed⟩ := bind_ok parsed
    obtain ⟨⟨value, data⟩, _, parsed⟩ := bind_ok parsed
    dsimp only at parsed
    rw [if_neg token] at parsed
    obtain ⟨settlerData, made, parsed⟩ := bind_ok parsed
    obtain ⟨_, _, parsed⟩ := bind_ok parsed
    obtain ⟨allowanceTarget, allowed, parsed⟩ := bind_ok parsed
    cases parsed
    unfold Solver.erc20SettlerData at made
    rw [allowed] at made
    dsimp only at made
    split at made
    · cases made
    · rename_i trusted
      exact (not_not.mp trusted).symm

def Bounded (build : Build δ) (args : SolverSwapIntent) (quote : SolverQuote δ) (tx : QuoteTransaction) : Prop :=
  encodedMinimum build.viem args.tokenIn (.solver tx.data) = some quote.minAmountOutNet ∧
    (isNative args.tokenIn = false → quote.allowanceTarget = some tx.target)

theorem fetched_bounded {fetch : QuoteRequest → Solver.Response}
    (accepted : fetchSolverQuote build.viem build.chain build.parseDisplay fetch (args.quoteRequest slippageBps) = .ok quote)
    (carried : quote.tx = some tx) : Bounded build args quote tx := by
  obtain ⟨slippage, body, _, echoed, parsed⟩ := Solver.fetchSolverQuote_ok accepted
  unfold Solver.requireRequestEcho at echoed
  obtain ⟨_, same, echoed⟩ := bind_ok echoed
  obtain ⟨tokenIn, _⟩ := Solver.requestEchoed_eq (demand_ok.mp same)
  unfold Solver.parseSolverQuoteResponse at parsed
  obtain ⟨_, _, parsed⟩ := bind_ok parsed
  obtain ⟨execution, bound, parsed⟩ := bind_ok parsed
  iterate 4 obtain ⟨_, _, parsed⟩ := bind_ok parsed
  obtain ⟨minAmountOutNet, minimum, parsed⟩ := bind_ok parsed
  obtain ⟨transaction, read, parsed⟩ := bind_ok parsed
  cases parsed
  cases carried
  have present : Solver.absent (Solver.property (some body) "tx") = false := by
    by_contra missing
    have none := Solver.parseTransaction_absent read (Bool.eq_true_of_not_eq_false missing)
    cases none
  obtain ⟨settler, settlerCall, target, value, data, _, targeted, _, readData, spent, bounded⟩ :=
    Solver.parseExecutionBinding_ok bound present
  obtain ⟨sameTarget, _, sameData, _⟩ := Solver.parseTransaction_ok read
  have eqTarget : tx.target = target := Option.some.inj (sameTarget.symm.trans targeted)
  have eqData : tx.data = data := Option.some.inj (sameData.symm.trans readData)
  have native := Solver.nativeInput_echo tokenIn
  have inner : settlerData build.viem args.tokenIn tx.data = some settlerCall ∧
      (isNative args.tokenIn = false → execution.allowanceTarget = some tx.target) := by
    unfold Solver.Bound at spent
    unfold settlerData
    by_cases input : isNative args.tokenIn = true
    · rw [if_pos (native.mpr (of_decide_eq_true input))] at spent
      rw [if_pos input, eqData]
      exact ⟨congrArg some spent.2.2, fun token => absurd (input.symm.trans token) (by decide)⟩
    · have token : ¬ Solver.nativeInput (some body) = true := fun sent => input (decide_eq_true (native.mp sent))
      rw [if_neg token] at spent
      obtain ⟨trusted, _, call, decoded, _, same⟩ := spent
      rw [if_neg input, eqData, decoded, eqTarget]
      exact ⟨congrArg some same, fun _ => (execution_trusted bound present token).trans trusted⟩
  refine ⟨?_, inner.2⟩
  unfold encodedMinimum
  dsimp only
  rw [inner.1, Option.bind_some]
  unfold Solver.executionBound at bounded
  split at bounded
  · rename_i slippage decoded
    simp only [Bool.and_eq_true, decide_eq_true_eq] at bounded
    have told := (Solver.bigInt_decimal bounded.2).symm.trans (Solver.readBigInt_ok minimum)
    rw [decoded]
    exact congrArg some (Option.some.inj told)
  · cases bounded

structure Quoted (build : Build δ) (args : SolverSwapIntent) (log : List Event) (quote : SolverQuote δ) : Prop where
  latest : latest log = some (quote.tx.map solverTrade)
  bounded : ∀ tx, quote.tx = some tx → Bounded build args quote tx
  minimum : args.minimumAmountOut ≤ quote.minAmountOutNet

theorem fresh_returns
    (ran : (fresh build world args slippageBps).run s = (.ok quote, s')) :
    latest s'.log = some (quote.tx.map solverTrade) ∧ ∀ tx, quote.tx = some tx → Bounded build args quote tx := by
  unfold fresh at ran
  obtain ⟨told, middle, awaited, ran⟩ := bind_returns ran
  obtain ⟨_, last, recorded, ran⟩ := bind_returns ran
  obtain ⟨rfl, rfl⟩ := pure_returns ran
  refine ⟨by rw [record_returns recorded, latest_append]; rfl, fun tx carried => ?_⟩
  unfold await at awaited
  obtain ⟨session, _, _, awaited⟩ := bind_returns awaited
  obtain ⟨_, _, _, awaited⟩ := bind_returns awaited
  obtain ⟨answered, _⟩ := reply_returns awaited
  dsimp only at answered
  cases answer : fetchSolverQuote build.viem build.chain build.parseDisplay (world.solver session.awaits) (args.quoteRequest slippageBps) with
  | error e =>
    rw [answer] at answered
    cases answered
  | ok accepted =>
    rw [answer] at answered
    cases answered
    exact fetched_bounded answer carried

theorem freshPreservingMinimum_returns {attempts : ℕ}
    (ran : (freshPreservingMinimum build world args attempts slippageBps).run s = (.ok quote, s')) :
    Quoted build args s'.log quote := by
  induction attempts generalizing s slippageBps with
  | zero => cases ran
  | succ attempts ih =>
    unfold freshPreservingMinimum at ran
    obtain ⟨first, middle, fetched, ran⟩ := bind_returns ran
    split at ran
    · cases ran
    · split at ran
      · rename_i enough
        obtain ⟨rfl, rfl⟩ := pure_returns ran
        obtain ⟨newest, bounded⟩ := fresh_returns fetched
        exact ⟨newest, bounded, enough⟩
      · split at ran
        · dsimp only at ran
          split at ran
          · cases ran
          · exact ih ran
        · cases ran

structure Granted (build : Build δ) (args : SolverSwapIntent) (log : List Event) (quote : SolverQuote δ) : Prop
    extends Quoted build args log quote where
  allowance : ∀ target, quote.allowanceTarget = some target → SpenderAllowed build (.solver args) log target

theorem approveSolver_returns {quote ready : SolverQuote δ} (quoted : Quoted build args s.log quote)
    (ran : (approveSolver build world args quote).run s = (.ok (some ready), s')) : Granted build args s'.log ready := by
  unfold approveSolver at ran
  split at ran
  · rename_i free
    obtain ⟨same, rfl⟩ := pure_returns ran
    cases same
    exact ⟨quoted, fun target named => by rw [free] at named; cases named⟩
  · rename_i spender target
    obtain ⟨token, here, answered, granting⟩ := bind_returns ran
    obtain ⟨read, rfl⟩ := reply_returns answered
    obtain ⟨answer, middle, ensured, ran⟩ := bind_returns granting
    have grows := adds_ran args.sender adds_ensureAllowance ensured
    cases answer with
    | none => cases (pure_returns ran).1
    | some answer =>
      obtain ⟨found, enough, member⟩ := ensureAllowance_returns ensured
      have allowance : SpenderAllowed build (.solver args) middle.log spender := ⟨_, member, ⟨rfl, enough, read⟩, .inl rfl⟩
      cases answer with
      | sufficient =>
        obtain ⟨same, rfl⟩ := pure_returns ran
        cases same
        refine ⟨⟨grows.latest.trans quoted.latest, quoted.bounded, quoted.minimum⟩, fun other named => ?_⟩
        rw [target] at named
        cases named
        exact allowance
      | approved =>
        obtain ⟨_, checked, gate, ran⟩ := bind_returns ran
        obtain ⟨fresh, final, fetched, ran⟩ := bind_returns ran
        obtain ⟨_, last, compared, ran⟩ := bind_returns ran
        obtain ⟨same, rfl⟩ := pure_returns ran
        cases same
        obtain ⟨kept, rfl⟩ := reply_returns compared
        have later := (adds_ran args.sender adds_requireSender gate).quiet.trans (adds_ran args.sender adds_freshPreservingMinimum fetched)
        exact ⟨freshPreservingMinimum_returns fetched,
          fun other named => (allowance.grows later).then_same (unchanged_same (require_ok.mp kept) named)⟩

theorem Granted.covered
    (granted : Granted build args log quote) (carried : quote.tx = some tx) : Covered build (.solver args) log (solverTrade tx) := by
  obtain ⟨minimum, target⟩ := granted.bounded tx carried
  have holder : ∀ taken, pull build.venues args.tokenIn (solverTrade tx) = some taken →
      taken = ⟨tx.target, none⟩ ∧ quote.allowanceTarget = some tx.target := by
    intro taken pulled
    unfold pull solverTrade at pulled
    dsimp only at pulled
    split at pulled
    · cases pulled
    · rename_i token
      cases pulled
      exact ⟨rfl, target (Bool.eq_false_of_not_eq_true token)⟩
  refine ⟨?_, ⟨_, minimum, granted.minimum⟩, fun taken pulled => ?_, fun taken operator pulled operated => ?_⟩
  · rw [granted.latest, carried]
    rfl
  · obtain ⟨rfl, named⟩ := holder taken pulled
    exact granted.allowance _ named
  · obtain ⟨rfl, _⟩ := holder taken pulled
    cases operated

theorem Covered.idle {flow : Flow} {trade : Trade} (covered : Covered build flow s.log trade) (grows : Grows sender Event.idle s s') :
    Covered build flow s'.log trade := by
  refine ⟨grows.latest.trans covered.latest, covered.minimum, fun taken pulled => ?_, fun taken operator pulled operated => ?_⟩
  · exact (covered.spender taken pulled).grows grows
  · obtain ⟨permit, member, rest⟩ := covered.operator taken operator pulled operated
    exact ⟨permit, grows.mem member, rest⟩

/-- What holds at every hand-off: it is the first, the trade is covered, and the sender is active unless a change came
after the last check. -/
structure Handed (build : Build δ) (flow : Flow) (before : List Event) (active : Option String) (request : Request) : Prop where
  first : ∀ event ∈ before, event.quiet = true
  account : request.account = flow.sender
  covered : Covered build flow before request.trade
  sender : activeAccountMatches active flow.sender = true ↔ Undisturbed flow before

variable {P : List Event → Option String → Request → Prop}

def Clean (session : Session) : Prop := ∀ event ∈ session.log, event.quiet = true

/-- However the program ends, `P` holds at every hand-off of the log it leaves. -/
def Seals (P : List Event → Option String → Request → Prop) (m : Program α) (s : Session) : Prop :=
  AtHandOff P (m.run s).2.log

theorem seals_quiet (sender : String) (clean : Clean s) (adds : Adds sender Event.quiet m) : Seals P m s :=
  atHandOff_quiet ((adds s).clean clean)

theorem seals_bind (sender : String) (clean : Clean s) (adds : Adds sender Event.quiet m)
    (next : ∀ a s', m.run s = (.ok a, s') → Clean s' → Seals P (f a) s') : Seals P (m >>= f) s := by
  unfold Seals
  rw [bind_run]
  have grown := adds s
  rcases ran : m.run s with ⟨outcome, s'⟩
  rw [ran] at grown
  cases outcome with
  | ok a => exact next a s' ran (grown.clean clean)
  | error e => exact atHandOff_quiet (grown.clean clean)

theorem seals_then (sender : String) (sealed : Seals P m s) (adds : ∀ a, Adds sender Event.quiet (f a)) :
    Seals P (m >>= f) s := by
  unfold Seals at *
  rw [bind_run]
  rcases ran : m.run s with ⟨outcome, s'⟩
  rw [ran] at sealed
  cases outcome with
  | ok a =>
    obtain ⟨tail, grown, quiet⟩ := (adds a s').log
    change AtHandOff P ((f a).run s').2.log
    rw [grown]
    exact atHandOff_append sealed quiet
  | error e => exact sealed

theorem seals_step {send : Program Unit} (sealed : Seals P send s) : Seals P (step world send) s := by
  have whole : Seals P (do
      send
      let mined ← await world world.mined
      return if mined.1.all (· = .repriced) ∧ mined.2.success then some mined.2 else none) s :=
    seals_then "" sealed fun _ => adds_bind adds_await.quiet fun _ => adds_pure _
  unfold Seals step rescue at *
  dsimp only
  split
  · rename_i ran
    rw [ran] at whole
    exact whole
  · rename_i ran
    rw [ran] at whole
    exact whole

theorem seals_hand {request : Request} (clean : Clean s) (holds : P s.log s.active request) : Seals P (hand request) s :=
  atHandOff_handed clean holds

theorem executeSwap_handed (args : SwapExecutionIntent) (clean : Clean s) :
    Seals (Handed build (.direct args)) (executeSwap build world args) s := by
  unfold executeSwap
  refine seals_bind args.sender clean adds_requireSender.quiet fun _ s1 _ clean1 => ?_
  refine seals_bind args.sender clean1 adds_prepareSwap fun prepared s2 prepare clean2 => ?_
  refine seals_bind args.sender clean2 adds_approveDirect fun approved s3 approve clean3 => ?_
  cases approved with
  | none => exact seals_quiet args.sender clean3 (adds_pure _)
  | some ready =>
    have covered := (approveDirect_returns (prepareSwap_returns prepare) approve).covered
    refine seals_bind args.sender clean3 adds_requireSender.quiet fun _ s4 gate clean4 => ?_
    obtain ⟨_, _, _, active⟩ := requireSender_returns gate
    have grows := adds_ran args.sender adds_requireSender gate
    have handed : Handed build (.direct args) s4.log s4.active ⟨args.sender, ready.trade, none⟩ :=
      ⟨clean4, rfl, covered.idle grows, fun _ => trivial, fun _ => active⟩
    refine seals_then args.sender (seals_step (seals_hand clean4 handed)) fun receipt => ?_
    cases receipt with
    | none => exact adds_pure _
    | some receipt => exact adds_bind (adds_reply _) fun _ => adds_pure _

theorem tracks_undisturbed (tracks : Tracks args.sender s) :
    activeAccountMatches s.active args.sender = true ↔ Undisturbed (.solver args) s.log := by
  unfold Tracks at tracks
  unfold Undisturbed
  cases last : lastSwitch s.log with
  | none =>
    rw [last] at tracks
    exact ⟨fun _ _ named => (by cases named), fun _ => tracks⟩
  | some account =>
    rw [last] at tracks
    dsimp only at tracks
    rw [tracks]
    exact ⟨fun active other named => by cases named; exact active, fun settled => settled account rfl⟩

theorem sendSolver_handed (clean : Clean s) (tracks : Tracks args.sender s)
    (granted : Granted build args s.log quote) : Seals (Handed build (.solver args)) (sendSolver build world args quote) s := by
  unfold sendSolver
  split
  · exact seals_quiet args.sender clean (adds_fail _)
  · exact seals_quiet args.sender clean (adds_fail _)
  · rename_i tx settler carried _
    have covered := granted.covered carried
    refine seals_bind args.sender clean (adds_reply _) fun _ s1 replied clean1 => ?_
    obtain ⟨_, rfl⟩ := reply_returns replied
    have sent : Seals (Handed build (.solver args)) (do
        let gas ← preflightSolverTransaction build.viem world args.sender tx settler
        hand ⟨args.sender, solverTrade tx, some gas⟩) s1 := by
      refine seals_bind args.sender clean1 adds_preflight.quiet fun gas s2 estimated clean2 => ?_
      have grows := adds_ran args.sender adds_preflight estimated
      exact seals_hand clean2 ⟨clean2, rfl, covered.idle grows, tracks_undisturbed (grows.tracks tracks)⟩
    refine seals_then args.sender (seals_step sent) fun receipt => ?_
    cases receipt with
    | none => exact adds_pure _
    | some receipt => exact adds_bind (adds_reply _) fun _ => adds_pure _

theorem executeSolverSwap_handed (args : SolverSwapIntent) (clean : Clean s) :
    Seals (Handed build (.solver args)) (executeSolverSwap build world args) s := by
  unfold executeSolverSwap
  refine seals_bind args.sender clean adds_requireSender.quiet fun _ s1 gate clean1 => ?_
  obtain ⟨tracks, _⟩ := requireSender_returns gate
  refine seals_bind args.sender clean1 adds_freshPreservingMinimum fun quote s2 fetched clean2 => ?_
  have fetching := adds_ran args.sender adds_freshPreservingMinimum fetched
  refine seals_bind args.sender clean2 adds_approveSolver fun approved s3 approve clean3 => ?_
  cases approved with
  | none => exact seals_quiet args.sender clean3 (adds_pure _)
  | some ready =>
    have granted := approveSolver_returns (freshPreservingMinimum_returns fetched) approve
    exact sendSolver_handed clean3 ((adds_ran args.sender adds_approveSolver approve).tracks (fetching.tracks tracks)) granted

theorem execute_handed (flow : Flow) (clean : Clean s) : Seals (Handed build flow) (execute build world flow) s := by
  cases flow with
  | direct args => exact executeSwap_handed args clean
  | solver args => exact executeSolverSwap_handed args clean

def executed (build : Build δ) (world : World) (flow : Flow) (active : Option String) : List Event :=
  (left (execute build world flow) (.start active)).log

/-- Every trade of a run is handed over soundly exactly when no account change after the last sender
check of a solver run leaves another account active. -/
theorem handed_soundly_iff (build : Build δ) (world : World) (flow : Flow) (active : Option String) :
    AtHandOff (Sound build flow) (executed build world flow active) ↔
      AtHandOff (fun before _ _ => Undisturbed flow before) (executed build world flow active) := by
  have handed : AtHandOff (Handed build flow) (executed build world flow active) := execute_handed flow fun _ member => nomatch member
  constructor
  · intro sound before account request after split
    exact (handed before account request after split).sender.mp (sound before account request after split).sender
  · intro undisturbed before account request after split
    have given := handed before account request after split
    exact ⟨given.sender.mpr (undisturbed before account request after split), given.account, given.covered⟩

/-- However the services answer and the accounts change, a run asks the wallet to send at most one trade. -/
theorem handed_once (build : Build δ) (world : World) (flow : Flow) (active : Option String) :
    ((executed build world flow active).filter fun event => !event.quiet).length ≤ 1 := by
  have handed : AtHandOff (Handed build flow) (executed build world flow active) := execute_handed flow fun _ member => nomatch member
  rcases two : (executed build world flow active).filter fun event => !event.quiet with - | ⟨first, - | ⟨second, rest⟩⟩
  · simp [two]
  · simp [two]
  · obtain ⟨before, after, split, _, loud, found⟩ := List.filter_eq_cons_iff.mp two
    obtain ⟨middle, last, splitAfter, _, loudToo, _⟩ := List.filter_eq_cons_iff.mp found
    cases second with
    | handed account request =>
      have quiet := (handed (before ++ first :: middle) account request last (by rw [split, splitAfter]; simp)).first first (by simp)
      simp [quiet] at loud
    | _ => simp [Event.quiet] at loudToo

theorem fresh_run
    (answered : fetchSolverQuote build.viem build.chain build.parseDisplay (world.solver s.awaits) (args.quoteRequest slippageBps) =
      .ok quote) :
    (fresh build world args slippageBps).run s =
      (.ok quote, { s.resumed world with log := (s.resumed world).log ++ [.prepared (quote.tx.map solverTrade)] }) := by
  unfold fresh await
  rw [bind_run, bind_run, run_read]
  dsimp only
  rw [run_write_bind, answered]
  rfl

theorem freshPreservingMinimum_run {attempts : ℕ}
    (fetched : (fresh build world args slippageBps).run s = (.ok quote, s')) (net : ¬ quote.amountOutNet < args.minimumAmountOut)
    (minimum : args.minimumAmountOut ≤ quote.minAmountOutNet) :
    (freshPreservingMinimum build world args (attempts + 1) slippageBps).run s = (.ok quote, s') := by
  unfold freshPreservingMinimum
  rw [run_bind_ok fetched, if_neg net, if_pos minimum]
  rfl

theorem requireSender_active {sender : String} (named : sender ≠ "") :
    (requireSender sender).run (.start (some sender)) = (.ok (), ⟨0, some sender, [.checked]⟩) := by
  have own : activeAccountMatches (some sender) sender = true := by simp [activeAccountMatches, named]
  rw [requireSender_run]
  exact if_pos own

theorem executed_native {active : Option String}
    (gate : (requireSender args.sender).run (.start active) = (.ok (), s'))
    (quoted : (freshPreservingMinimum build world args 3 args.slippageBps).run s' = (.ok quote, s''))
    (free : quote.allowanceTarget = none) :
    executed build world (.solver args) active = ((sendSolver build world args quote).run s'').2.log := by
  have approved : (approveSolver build world args quote).run s'' = (.ok (some quote), s'') := by
    unfold approveSolver
    rw [free]
    rfl
  unfold executed left execute executeSolverSwap
  rw [run_bind_ok gate, run_bind_ok quoted, run_bind_ok approved]

def otherAccount : String := "0x0000000000000000000000000000000000000077"

def switchedArgs : SolverSwapIntent where
  tokenIn := ⟨NATIVE, Solver.native_hex⟩
  tokenOut := Solver.sampleTokenOut
  amountIn := 500000000000000000
  slippageBps := 50
  minimumAmountOut := 122000000
  sender := Solver.sampleRecipient
  recipient := Solver.sampleRecipient
  feeBps := none

def switchedBody : Solver.Json := .obj [
  ("chainId", .num 56), ("settler", .str Solver.sampleSettler), ("tokenIn", .str NATIVE), ("tokenOut", .str Solver.sampleTokenOut),
  ("amountIn", .str "500000000000000000"), ("slippageBps", .num 50), ("deadlineSeconds", .num 600), ("requestedFeeBps", .null),
  ("recipient", .str Solver.sampleRecipient), ("sender", .str Solver.sampleRecipient), ("feeBps", .num 0),
  ("amountOutGross", .str "123456789"), ("amountOutNet", .str "123456789"), ("minAmountOutNet", .str "122839505"),
  ("allowanceTarget", .null), ("tx", .obj [("requiredFrom", .str Solver.sampleRecipient), ("to", .str Solver.sampleSettler),
    ("value", .str "500000000000000000"), ("data", .str Solver.sampleData)])]

def switchedBuild : Build Unit where
  viem := Solver.sampleViem
  venues := ⟨Solver.sampleTokenOut, Solver.sampleSettler, Solver.sampleSettler, [], [], none, .fee, [], none⟩
  chain := Solver.sampleChain
  swapFee := .error .outside
  directRouteLabel _ := "Uniswap V3"
  parseDisplay _ _ := .ok ()

def switchedWorld : World where
  switches n := if n = 2 then [some otherAccount] else []
  quoted _ := .error .outside
  solver _ _ := ⟨true, 200, some switchedBody⟩
  allowance _ := .error .outside
  permit2 _ := .error .outside
  ownerOf _ := .ok Solver.sampleSettler
  prev _ := .error .outside
  estimateGas _ := .ok 250000
  mined _ := .error .outside
  now _ := 1700000000

def switchedTransaction : QuoteTransaction :=
  ⟨some Solver.sampleRecipient, Solver.sampleSettler, 500000000000000000, Solver.sampleData⟩

def switchedQuote : SolverQuote Unit where
  chainId := 56
  settler := some Solver.sampleSettler
  amountIn := 500000000000000000
  amountOutGross := 123456789
  amountOutNet := 123456789
  minAmountOutNet := 122839505
  feeBps := some (.num 0)
  deadline := none
  tx := some switchedTransaction
  allowanceTarget := none
  display := ()

def switchedGate : Session := ⟨0, some Solver.sampleRecipient, [.checked]⟩

def switchedSession : Session := ⟨1, some Solver.sampleRecipient, [.checked, .prepared (some (solverTrade switchedTransaction))]⟩

theorem switchedBody_reply : Solver.SampleReply (some switchedBody) :=
  ⟨rfl, rfl, rfl, rfl, rfl, rfl, rfl, rfl, rfl, rfl, rfl, rfl, rfl, rfl, rfl, rfl, rfl, rfl, rfl, rfl⟩

theorem switchedQuote_fetched :
    fetchSolverQuote switchedBuild.viem switchedBuild.chain switchedBuild.parseDisplay (switchedWorld.solver switchedGate.awaits)
      (switchedArgs.quoteRequest switchedArgs.slippageBps) = .ok switchedQuote := by
  have reply := switchedBody_reply
  have sender : Solver.property (some switchedBody) "sender" = some (.str Solver.sampleRecipient) := rfl
  have echoed : Solver.requireRequestEcho (some switchedBody) (switchedArgs.quoteRequest switchedArgs.slippageBps) 50 = .ok () := by
    apply reply.echoed rfl rfl rfl rfl rfl rfl
    · rw [sender]
      exact Solver.sampleRecipient_echoes
    · rfl
  have slippage : Solver.requestSlippage (switchedArgs.quoteRequest switchedArgs.slippageBps) = some 50 := by decide
  have amountIn : Solver.readBigInt (Solver.property (some switchedBody) "amountIn") = .ok 500000000000000000 := by decide
  have gross : Solver.readBigInt (Solver.property (some switchedBody) "amountOutGross") = .ok 123456789 := by decide
  have net : Solver.readBigInt (Solver.property (some switchedBody) "amountOutNet") = .ok 123456789 := by decide
  have minimum : Solver.readBigInt (Solver.property (some switchedBody) "minAmountOutNet") = .ok 122839505 := by decide
  change fetchSolverQuote Solver.sampleViem Solver.sampleChain (fun _ _ => .ok ()) (fun _ => ⟨true, 200, some switchedBody⟩) _ = _
  unfold fetchSolverQuote Solver.parseSolverQuoteResponse
  rw [slippage]
  dsimp only
  rw [if_neg (by decide)]
  simp only [reply.active, echoed, reply.execution, amountIn, gross, net, minimum, reply.transaction, ok_bind, demand_bind]
  rfl

theorem switchedQuote_fresh :
    (fresh switchedBuild switchedWorld switchedArgs switchedArgs.slippageBps).run switchedGate = (.ok switchedQuote, switchedSession) := by
  rw [fresh_run switchedQuote_fetched]
  rfl

theorem switchedQuote_sent : ((sendSolver switchedBuild switchedWorld switchedArgs switchedQuote).run switchedSession).2.log =
    [.checked, .prepared (some (solverTrade switchedTransaction)), .switched (some otherAccount)] ++
      .handed (some otherAccount) ⟨Solver.sampleRecipient, solverTrade switchedTransaction, some 300000⟩ :: [] := by
  decide +kernel

theorem switched_handed : executed switchedBuild switchedWorld (.solver switchedArgs) (some Solver.sampleRecipient) =
    [.checked, .prepared (some (solverTrade switchedTransaction)), .switched (some otherAccount)] ++
      .handed (some otherAccount) ⟨Solver.sampleRecipient, solverTrade switchedTransaction, some 300000⟩ :: [] := by
  have gate : (requireSender switchedArgs.sender).run (.start (some Solver.sampleRecipient)) = (.ok (), switchedGate) :=
    requireSender_active (by decide)
  have quoted : (freshPreservingMinimum switchedBuild switchedWorld switchedArgs 3 switchedArgs.slippageBps).run switchedGate =
      (.ok switchedQuote, switchedSession) := by
    apply freshPreservingMinimum_run
    · exact switchedQuote_fresh
    · decide
    · decide
  exact (executed_native gate quoted rfl).trans switchedQuote_sent

/-- The trade of one account is handed over while another is active. -/
theorem switched_unsound : ¬ AtHandOff (Sound switchedBuild (.solver switchedArgs))
    (executed switchedBuild switchedWorld (.solver switchedArgs) (some Solver.sampleRecipient)) := by
  intro sound
  have active := (sound _ _ _ _ switched_handed).sender
  exact absurd active (by decide)

end LpTerminal.Swap

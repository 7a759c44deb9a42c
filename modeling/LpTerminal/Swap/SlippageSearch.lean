import LpTerminal.Swap.ExecutionLaw

/-!
The tolerance that a retry asks for is the widest whose minimum keeps the promise, and a server that answers alike is
asked at most twice.
-/

namespace LpTerminal.Swap

open Solver (netAfterFee expectedMinimum safeNat safeNat_eq isUnsignedInteger fetchSolverQuote requestSlippage SolverQuote)
open Fallible Durable

theorem tdiv_step {p q d : ℤ} (near : q ≤ p + 10000 * d) (up : p ≤ q) : q.tdiv 10000 - p.tdiv 10000 ≤ d := by
  have sign : Int.sign 10000 = 1 := rfl
  rw [Int.tdiv_eq_ediv, Int.tdiv_eq_ediv, sign]
  split <;> split <;> omega

theorem netAfterFee_mono {fee x y : ℤ} (charged : 0 ≤ fee) (bounded : fee ≤ 10000) (le : x ≤ y) :
    netAfterFee fee x ≤ netAfterFee fee y := by
  have near : y * fee ≤ x * fee + 10000 * (y - x) := by nlinarith
  have up : x * fee ≤ y * fee := by nlinarith
  have step := tdiv_step near up
  unfold netAfterFee
  linarith

theorem expectedMinimum_anti {gross fee : ℕ} (bounded : fee ≤ 10000) {a b : ℕ} (le : a ≤ b) :
    expectedMinimum gross fee b ≤ expectedMinimum gross fee a := by
  have tighter : (gross : ℤ) * (10000 - b) ≤ gross * (10000 - a) := by
    have factor : (10000 - b : ℤ) ≤ 10000 - a := by omega
    exact mul_le_mul_of_nonneg_left factor (Int.natCast_nonneg _)
  unfold expectedMinimum
  exact netAfterFee_mono (Int.natCast_nonneg _) (by exact_mod_cast bounded) (Int.tdiv_le_tdiv (by decide) tighter)

variable {enough : ℕ → Bool} {low high : ℕ}

theorem widest_between (le : low ≤ high) : low ≤ widest enough low high ∧ widest enough low high ≤ high := by
  fun_induction widest enough low high with
  | case1 low high less mid kept ih =>
    have half : mid ≤ high := by omega
    obtain ⟨above, below⟩ := ih half
    exact ⟨by omega, below⟩
  | case2 low high less mid missed ih =>
    have half : low ≤ mid - 1 := by omega
    obtain ⟨above, below⟩ := ih half
    exact ⟨above, by omega⟩
  | case3 low high stop => exact ⟨le_rfl, le⟩

theorem widest_enough : widest enough low high = low ∨ enough (widest enough low high) = true := by
  fun_induction widest enough low high with
  | case1 low high less mid kept ih =>
    rcases ih with same | found
    · right
      rwa [same]
    · exact .inr found
  | case2 low high less mid missed ih => exact ih
  | case3 low high stop => exact .inl rfl

theorem widest_upper (anti : ∀ a b, a ≤ b → enough b = true → enough a = true) {b : ℕ} (le : b ≤ high)
    (kept : enough b = true) : b ≤ max low (widest enough low high) := by
  fun_induction widest enough low high with
  | case1 low high less mid found ih =>
    have bound := ih le
    have half : mid ≤ high := by omega
    have above : mid ≤ widest enough mid high := (widest_between half).1
    rw [max_eq_right above] at bound
    exact bound.trans (le_max_right _ _)
  | case2 low high less mid missed ih =>
    by_cases short : b ≤ mid - 1
    · exact ih short
    · have past : mid ≤ b := by omega
      exact absurd (anti mid b past kept) missed
  | case3 low high stop => exact (le.trans (not_lt.mp stop)).trans (le_max_left _ _)

/-- The tolerances up to `start` whose net minimum reaches the promise. -/
def keeping (gross fee : ℕ) (promise : ℤ) (start : ℕ) : Set ℕ :=
  {bps | bps ≤ start ∧ promise ≤ expectedMinimum gross fee bps}

theorem solverSlippage_widest {gross fee : ℕ} (bounded : fee ≤ 10000) (promise : ℤ) (start : ℕ) :
    IsGreatest (keeping gross fee promise start) (solverSlippageForMinimum gross fee promise start) ∨
      keeping gross fee promise start = ∅ ∧ solverSlippageForMinimum gross fee promise start = 0 := by
  unfold solverSlippageForMinimum
  set enough : ℕ → Bool := fun bps => promise ≤ expectedMinimum gross fee bps with test
  have anti : ∀ a b, a ≤ b → enough b = true → enough a = true := by
    intro a b le kept
    simp only [test, decide_eq_true_eq] at kept ⊢
    exact kept.trans (expectedMinimum_anti bounded le)
  have within : widest enough 0 start ≤ start := (widest_between (Nat.zero_le start)).2
  have upper : ∀ b ∈ keeping gross fee promise start, b ≤ widest enough 0 start := by
    rintro b ⟨le, kept⟩
    have bound : b ≤ max 0 (widest enough 0 start) := widest_upper anti le (decide_eq_true kept)
    rwa [Nat.zero_max] at bound
  by_cases kept : enough (widest enough 0 start) = true
  · exact .inl ⟨⟨within, of_decide_eq_true kept⟩, upper⟩
  · have zero : widest enough 0 start = 0 := widest_enough.resolve_right kept
    refine .inr ⟨?_, zero⟩
    by_contra some
    obtain ⟨b, member⟩ := Set.nonempty_iff_ne_empty.mpr some
    have least := upper b member
    rw [zero] at least kept
    obtain rfl : b = 0 := Nat.le_zero.mp least
    exact kept (decide_eq_true member.2)

variable {δ : Type} {build : Build δ} {world : World} {args : SolverSwapIntent} {s s' : Session}

/-- To a request with this tolerance the server answers the gross output and the fee it answers to others, and computes
the net output and its minimum from them. -/
def Repeats (build : Build δ) (world : World) (args : SolverSwapIntent) (gross fee bps : ℕ) : Prop :=
  ∀ n, ∃ quote,
    fetchSolverQuote build.viem build.chain build.parseDisplay (world.solver n) (args.quoteRequest bps) = .ok quote ∧
      quote.amountOutGross = gross ∧ isUnsignedInteger quote.feeBps = some fee ∧
      quote.amountOutNet = netAfterFee fee gross ∧ quote.minAmountOutNet = expectedMinimum gross fee bps

theorem expectedMinimum_zero (gross fee : ℤ) : expectedMinimum gross fee 0 = netAfterFee fee gross := by
  unfold expectedMinimum
  rw [sub_zero, Int.mul_tdiv_cancel _ (by decide)]

theorem fetched_slippage {request : Solver.QuoteRequest} {fetch : Solver.QuoteRequest → Solver.Response} {quote : SolverQuote δ}
    {bps : ℕ} (asked : request.slippageBps = bps)
    (fetched : fetchSolverQuote build.viem build.chain build.parseDisplay fetch request = .ok quote) :
    safeNat (bps : ℚ) = some bps := by
  unfold fetchSolverQuote at fetched
  split at fetched
  · cases fetched
  · rename_i n valid
    have read := (Option.filter_eq_some_iff.mp valid).1
    rw [asked] at read
    have same : (bps : ℚ) = n := safeNat_eq read
    rwa [← Nat.cast_inj.mp same] at read

def Session.quoted (world : World) (s : Session) (quote : SolverQuote δ) : Session :=
  { s.resumed world with log := (s.resumed world).log ++ [.prepared (quote.tx.map solverTrade)] }

theorem freshPreservingMinimum_second {gross fee start attempts : ℕ} (bounded : fee ≤ 10000) (asked : args.slippageBps = start)
    (first : Repeats build world args gross fee start)
    (second : Repeats build world args gross fee (solverSlippageForMinimum gross fee args.minimumAmountOut start))
    (reachable : args.minimumAmountOut ≤ expectedMinimum gross fee 0) (s : Session) :
    ∃ quote s', (freshPreservingMinimum build world args (attempts + 2) args.slippageBps).run s = (.ok quote, s') ∧
      s'.awaits ≤ s.awaits + 2 := by
  have net : ∀ quote : SolverQuote δ, quote.amountOutNet = netAfterFee fee gross →
      ¬ quote.amountOutNet < args.minimumAmountOut := by
    intro quote paid
    rw [paid, ← expectedMinimum_zero]
    exact not_lt.mpr reachable
  obtain ⟨quote, fetched, grossEq, feeEq, netEq, minimumEq⟩ := first s.awaits
  rw [← asked] at fetched
  have run : (fresh build world args args.slippageBps).run s = (.ok quote, s.quoted world quote) := fresh_run fetched
  by_cases kept : args.minimumAmountOut ≤ quote.minAmountOutNet
  · refine ⟨quote, s.quoted world quote, freshPreservingMinimum_run run (net quote netEq) kept, ?_⟩
    simp [Session.quoted, Session.resumed]
  -- no tolerance is in the running, so that the search finds one, narrower than the one that failed
  have zero : 0 ∈ keeping gross fee args.minimumAmountOut start := ⟨Nat.zero_le _, reachable⟩
  have widest : IsGreatest (keeping gross fee args.minimumAmountOut start)
      (solverSlippageForMinimum gross fee args.minimumAmountOut start) := by
    refine (solverSlippage_widest bounded _ _).resolve_right ?_
    rintro ⟨none, -⟩
    rw [none] at zero
    cases zero
  set tighter := solverSlippageForMinimum gross fee args.minimumAmountOut start with found
  have narrower : tighter < start := by
    refine lt_of_le_of_ne widest.1.1 fun same => kept ?_
    rw [minimumEq, ← same]
    exact widest.1.2
  obtain ⟨quote', fetched', -, -, netEq', minimumEq'⟩ := second (s.quoted world quote).awaits
  have kept' : args.minimumAmountOut ≤ quote'.minAmountOutNet := by
    rw [minimumEq']
    exact widest.1.2
  have whole : safeNat args.slippageBps = some start := by
    rw [asked]
    exact fetched_slippage asked fetched
  refine ⟨quote', (s.quoted world quote).quoted world quote', ?_, ?_⟩
  · unfold freshPreservingMinimum
    rw [run_bind_ok run, if_neg (net quote netEq), if_neg kept, feeEq, whole]
    dsimp only
    rw [grossEq, ← found, if_neg (not_le.mpr narrower)]
    exact freshPreservingMinimum_run (fresh_run fetched') (net quote' netEq') kept'
  · simp [Session.quoted, Session.resumed]

/-- The search finds the widest tolerance that keeps the promise; the loop's second quote keeps it where any can, and no
quote that it returns breaks it. -/
theorem solver_slippage_kept {gross fee : ℕ} (below : fee < 10000) (promise : ℤ) (start : ℕ) :
    (IsGreatest (keeping gross fee promise start) (solverSlippageForMinimum gross fee promise start) ∨
      keeping gross fee promise start = ∅ ∧ solverSlippageForMinimum gross fee promise start = 0) ∧
    ∀ {δ : Type} (build : Build δ) (world : World) (args : SolverSwapIntent), args.slippageBps = start →
      args.minimumAmountOut = promise →
      (Repeats build world args gross fee start →
        Repeats build world args gross fee (solverSlippageForMinimum gross fee promise start) →
        promise ≤ expectedMinimum gross fee 0 → ∀ s, ∃ quote s',
          (freshPreservingMinimum build world args 3 args.slippageBps).run s = (.ok quote, s') ∧ s'.awaits ≤ s.awaits + 2) ∧
      ∀ s quote s', (freshPreservingMinimum build world args 3 args.slippageBps).run s = (.ok quote, s') →
        promise ≤ quote.minAmountOutNet := by
  refine ⟨solverSlippage_widest below.le promise start, ?_⟩
  rintro δ build world args asked rfl
  constructor
  · intro first second reachable
    exact freshPreservingMinimum_second below.le asked first second reachable
  · intro s quote s' ran
    exact (freshPreservingMinimum_returns ran).minimum

theorem switched_repeats : Repeats switchedBuild switchedWorld switchedArgs 123456789 0 50 := by
  intro n
  exact ⟨switchedQuote, switchedQuote_fetched, rfl, by decide, by decide, by decide⟩

theorem solver_slippage_kept_switched :
    ∃ quote s', (freshPreservingMinimum switchedBuild switchedWorld switchedArgs 3 switchedArgs.slippageBps).run switchedGate =
      (.ok quote, s') ∧ s'.awaits ≤ 2 ∧ 122000000 ≤ quote.minAmountOutNet := by
  obtain ⟨search, loop⟩ := @solver_slippage_kept 123456789 0 (by decide) 122000000 50
  have half : 50 ∈ keeping 123456789 0 122000000 50 := ⟨le_rfl, by decide⟩
  have widest : solverSlippageForMinimum ((123456789 : ℕ) : ℤ) 0 122000000 50 = 50 := by
    rcases search with greatest | ⟨none, -⟩
    · exact le_antisymm greatest.1.1 (greatest.2 half)
    · rw [none] at half
      cases half
  obtain ⟨reached, keeps⟩ := loop switchedBuild switchedWorld switchedArgs rfl rfl
  obtain ⟨quote, s', ran, twice⟩ := reached switched_repeats (by rw [widest]; exact switched_repeats) (by decide) switchedGate
  exact ⟨quote, s', ran, twice, keeps _ _ _ ran⟩

end LpTerminal.Swap

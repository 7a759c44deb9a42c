import LpTerminal.Catalog.PancakeSnapshot

/-!
The import over every run: calls that return, throw or stop at any answer, between and during which other
tasks write the catalog.
-/

namespace LpTerminal.Catalog

open Durable (Triple)

variable {config : PancakeConfig} {call : Call} {store store' : PancakeStore} {target : CatalogTarget}

/-- The checkpoint decodes, and under the live generation the catalog holds each ordinal before its index. -/
structure StoreSound (store : PancakeStore) : Prop where
  unique : UniqueSlots store.db.pools
  decodes : ∀ row ∈ store.keys.importRow, checkRow row = .ok ()
  behind : ∀ row ∈ store.keys.importRow, row.target.catalogGeneration ≤ store.db.clock.pancakeV2Generation
  covered : ∀ row ∈ store.keys.importRow, row.target.catalogGeneration = store.db.clock.pancakeV2Generation →
    ∀ ordinal < row.nextIndex, Holds store.db ordinal

structure Elsewhere (store store' : PancakeStore) : Prop where
  keys : store'.keys = store.keys
  evolves : Evolves store.db store'.db

theorem Elsewhere.refl (store : PancakeStore) : Elsewhere store store := ⟨rfl, Evolves.refl store.db⟩

theorem Elsewhere.trans {middle : PancakeStore} (first : Elsewhere store middle) (second : Elsewhere middle store') :
    Elsewhere store store' := ⟨second.keys.trans first.keys, first.evolves.trans second.evolves⟩

theorem elsewhere_transactions (store : PancakeStore) (transactions : List (List CatalogOp)) :
    Elsewhere store { store with db := transactions.foldl transact store.db } := ⟨rfl, transactions_evolve store.db transactions⟩

theorem StoreSound.elsewhere (sound : StoreSound store) (other : Elsewhere store store') : StoreSound store' where
  unique := other.evolves.unique sound.unique
  decodes row stored := sound.decodes row (other.keys ▸ stored)
  behind row stored := (sound.behind row (other.keys ▸ stored)).trans other.evolves.advances
  covered row stored live ordinal before := by
    rw [other.keys] at stored
    -- A checkpoint of the live generation was of the live generation before.
    have behind := sound.behind row stored
    have advances := other.evolves.advances
    exact other.evolves.kept (by omega) ordinal (sound.covered row stored (by omega) ordinal before)

theorem sound_cleared (unique : UniqueSlots store.db.pools) (cleared : store.keys.importRow = none) : StoreSound store := by
  refine ⟨unique, fun row stored => ?_, fun row stored => ?_, fun row stored => ?_⟩
  all_goals
    rw [cleared] at stored
    cases stored

theorem sound_started (unique : UniqueSlots store.db.pools) (started : store.keys.importRow = some ⟨target, 0, "", none⟩)
    (valid : ValidTarget target.toTarget) (behind : target.catalogGeneration ≤ store.db.clock.pancakeV2Generation) :
    StoreSound store := by
  refine ⟨unique, fun row stored => ?_, fun row stored => ?_, fun row stored _ ordinal before => ?_⟩
  all_goals
    rw [started] at stored
    cases stored
  · exact checkRow_start valid
  · exact behind
  · exact absurd before (Nat.not_lt_zero ordinal)

theorem initializeCheckpoint_sound {target : Target} (sound : StoreSound store) (valid : ValidTarget target) :
    StoreSound (initializeCheckpoint target store) :=
  @sound_started _ { target with catalogGeneration := store.db.clock.pancakeV2Generation } sound.unique rfl valid (le_refl _)

theorem restartCheckpoint_row {row : ImportRow} (stored : store.keys.importRow = some row) (same : row.target = target) :
    (restartCheckpoint target store).keys.importRow = some ⟨target, 0, "", none⟩ := by
  subst same
  unfold restartCheckpoint
  rw [stored]
  rfl

theorem restartCheckpoint_sound {row : ImportRow} (sound : StoreSound store) (stored : store.keys.importRow = some row)
    (same : row.target = target) : StoreSound (restartCheckpoint target store) :=
  sound_started sound.unique (restartCheckpoint_row stored same) (same ▸ (checkRow_ok.mp (sound.decodes row stored)).1)
    (same ▸ sound.behind row stored)

section Steps

variable {α β : Type} {P : PancakeStore → Prop} {Q : α → PancakeStore → Prop} {E E' : PancakeStore → Prop}

theorem triple_await {answer : Answer α} (moves : ∀ s, P s → E { s with db := answer.meanwhile.foldl transact s.db })
    (told : ∀ s a, P s → answer.value = .ok a → Q a { s with db := answer.meanwhile.foldl transact s.db }) :
    Triple P (await answer) Q E := by
  intro s before
  unfold await
  rw [Durable.run_write_bind]
  cases value : answer.value with
  | ok a => exact told s a before value
  | error e => exact moves s before

theorem triple_repairing {m : Import α} {cleanup : PancakeStore → PancakeStore} (triple : Triple P m Q E)
    (repaired : ∀ s, E s → E' (cleanup s)) (thrown : ∀ s, E s → E' s) : Triple P (repairing cleanup m) Q E' := by
  intro s before
  have after := triple s before
  unfold repairing
  rcases ran : m.run s with ⟨outcome, s'⟩
  rw [ran] at after
  cases outcome with
  | ok a => simpa only [ran] using after
  | error e =>
    cases e with
    | snapshot message => simpa only [ran] using repaired s' after
    | rejected message => simpa only [ran] using thrown s' after
    | transport message => simpa only [ran] using thrown s' after

end Steps

def Canonical (answers : PinAnswers) (target : Target) : Prop :=
  answers.blockHash.value = .ok target.blockHash ∧ answers.factoryCount.value = .ok target.poolCount

theorem assertPinnedTarget_spec {answers : PinAnswers} {target : Target} {label : String} :
    Triple (· = store) (assertPinnedTarget answers target label) (fun _ s => Canonical answers target ∧ Elsewhere store s)
      (Elsewhere store) := by
  unfold assertPinnedTarget
  refine Durable.triple_bind (Q := fun hash s => answers.blockHash.value = .ok hash ∧ Elsewhere store s) ?_ fun hash => ?_
  · refine triple_await (fun s same => ?_) fun s hash same told => ⟨told, ?_⟩
    all_goals
      subst same
      exact elsewhere_transactions _ _
  refine Durable.triple_bind (Q := fun _ s => answers.blockHash.value = .ok target.blockHash ∧ Elsewhere store s) ?_ fun _ => ?_
  · refine Durable.triple_reply (fun s _ before asserted => ⟨?_, before.2⟩) fun _ _ before _ => before.2
    rw [before.1, Fallible.demand_ok.mp asserted]
  refine Durable.triple_bind (Q := fun count s => (answers.blockHash.value = .ok target.blockHash ∧
      answers.factoryCount.value = .ok count) ∧ Elsewhere store s) ?_ fun count => ?_
  · exact triple_await (fun s before => before.2.trans (elsewhere_transactions s _)) fun s count before told =>
      ⟨⟨before.1, told⟩, before.2.trans (elsewhere_transactions s _)⟩
  refine Durable.triple_bind (Durable.triple_reply (fun _ _ before _ => before) fun _ _ before _ => before.2) fun _ => ?_
  refine Durable.triple_reply (fun s _ before asserted => ⟨⟨before.1.1, ?_⟩, before.2⟩) fun _ _ before _ => before.2
  rw [before.1.2, Fallible.demand_ok.mp asserted]

/-- The stored checkpoint is where the import is, and nothing is published. -/
structure Tracks (target : CatalogTarget) (s : ImportState) (store : PancakeStore) : Prop where
  sound : StoreSound store
  row : ∃ row, store.keys.importRow = some row ∧ row.target = target ∧ row.nextIndex = s.nextIndex
  incomplete : store.keys.complete = false

def Unpublished (store : PancakeStore) : Prop := StoreSound store ∧ store.keys.complete = false

variable {s : ImportState}

theorem Tracks.unpublished (tracks : Tracks target s store) : Unpublished store :=
  ⟨tracks.sound, tracks.incomplete⟩

theorem Tracks.elsewhere (tracks : Tracks target s store) (other : Elsewhere store store') : Tracks target s store' where
  sound := tracks.sound.elsewhere other
  row := by
    rw [other.keys]
    exact tracks.row
  incomplete := by rw [other.keys, tracks.incomplete]

theorem Unpublished.elsewhere (quiet : Unpublished store) (other : Elsewhere store store') : Unpublished store' :=
  ⟨quiet.1.elsewhere other, by rw [other.keys, quiet.2]⟩

theorem Tracks.restart (tracks : Tracks target s store) : Tracks target s.restart (restartCheckpoint target store) := by
  obtain ⟨row, stored, same, _⟩ := tracks.row
  exact ⟨restartCheckpoint_sound tracks.sound stored same, ⟨_, restartCheckpoint_row stored same, rfl, rfl⟩, tracks.incomplete⟩

def storable : Except ImportError PageBody → Bool
  | .ok body => (pageTokenOf body).all fun token => (storedToken token).isSome
  | .error _ => true

theorem checkPageBody_logs {pageSize : Nat} {body : PageBody} (ran : checkPageBody pageSize s body = .ok ()) :
    body.logs ≠ [] := by
  unfold checkPageBody demand at ran
  simp only [Fallible.then_ok, Fallible.demand_ok] at ran
  exact ran.2.1

theorem commitPage_spec {freshLimit : Nat} {body : PageBody} {decoded : Decoding} {committed : PancakeStore × Persisted}
    (tracks : Tracks target s store) (logs : body.logs ≠ []) (storable : storable (.ok body) = true)
    (page : decodePage config target.toTarget s body = .ok decoded)
    (ran : commitPage freshLimit s decoded (pageTokenOf body) store = .ok committed) :
    Tracks target (s.next decoded (pageTokenOf body) committed.2) committed.1 := by
  obtain ⟨ordinals, counted, position, within, continues, ends⟩ := decodePage_ok page
  obtain ⟨persisted, stored, ran⟩ := Fallible.bind_ok ran
  cases ran
  obtain ⟨evolves, generation, held⟩ := persistPairs_ok stored
  obtain ⟨row, known, same, index⟩ := tracks.row
  have nonempty : 0 < decoded.rows.length := by
    rw [counted]
    exact List.length_pos_iff.mpr logs
  obtain ⟨placed, safe⟩ := position logs
  have asStored : storedToken ((pageTokenOf body).getD "") = none ↔ pageTokenOf body = none := by
    unfold Catalog.storable at storable
    dsimp only at storable
    cases token : pageTokenOf body with
    | none => simp; decide
    | some text =>
      rw [token, Option.all_some] at storable
      simp only [Option.getD_some, reduceCtorEq, iff_false]
      exact Option.isSome_iff_ne_none.mp storable
  have valid := (checkRow_ok.mp (tracks.sound.decodes row known)).1
  rw [same] at valid
  refine ⟨⟨evolves.unique tracks.sound.unique, ?_, ?_, ?_⟩, ?_, tracks.incomplete⟩
  · intro new found
    rw [known] at found
    cases found
    refine checkRow_ok.mpr ⟨same ▸ valid, ?_, ?_, ?_, safe, ?_⟩
    · rw [same]
      exact within
    · rw [same, asStored]
      exact fun stuck => continues stuck.2
    · rw [same, Ne, asStored]
      exact fun extra => ends ⟨extra.1.resolve_left (by dsimp only; omega), extra.2⟩
    · exact ⟨fun zero => absurd zero (by dsimp only; omega), fun none => absurd none placed⟩
  · intro new found
    rw [known] at found
    cases found
    rw [generation]
    exact tracks.sound.behind row known
  · intro new found live ordinal before
    rw [known] at found
    cases found
    dsimp only at live before
    rw [generation] at live
    by_cases early : ordinal < row.nextIndex
    · exact evolves.kept generation ordinal (tracks.sound.covered row known live ordinal early)
    · have inside : ordinal ∈ decoded.rows.map DecodedPair.pairIndex := by
        rw [ordinals, List.mem_range'_1]
        omega
      obtain ⟨pair, member, rfl⟩ := List.mem_map.mp inside
      exact held pair member
  · exact ⟨{ row with nextIndex := s.nextIndex + decoded.rows.length, pageToken := (pageTokenOf body).getD "",
                      lastPosition := decoded.previous }, by dsimp only; rw [known]; rfl, same, rfl⟩

theorem importPage_spec {body : PageBody} (storable : storable (.ok body) = true) :
    Triple (Tracks target s) (importPage config call target s body) (Tracks target) Unpublished := by
  refine Durable.triple_each fun store tracks => ?_
  unfold importPage
  refine Durable.triple_reply_at (fun _ checked => ?_) fun _ _ => tracks.unpublished
  refine Durable.triple_reply_at (fun decoded page => ?_) fun _ _ => tracks.unpublished
  refine Durable.triple_read_at (Durable.triple_reply_at (fun committed ran => ?_) fun _ _ => tracks.unpublished)
  refine Durable.triple_write_at (Durable.triple_pure ?_)
  rintro _ rfl
  exact commitPage_spec tracks (checkPageBody_logs checked) storable page ran

theorem importLoop_spec {pages : List (Answer PageBody)} (stored : ∀ answer ∈ pages, storable answer.value = true) :
    Triple (Tracks target s) (importLoop config call target s pages) (Tracks target) Unpublished := by
  induction pages generalizing s with
  | nil =>
    unfold importLoop
    split
    · exact Durable.triple_fail fun _ => Tracks.unpublished
    · exact Durable.triple_pure fun _ => id
  | cons answer rest ih =>
    have later : ∀ answer ∈ rest, storable answer.value = true := fun other inside => stored other (List.mem_cons_of_mem _ inside)
    unfold importLoop
    split
    · refine Durable.triple_bind (Q := fun _ => Tracks target s)
        (Durable.triple_write fun store tracks => tracks.elsewhere (elsewhere_transactions store _)) fun _ => ?_
      split
      · exact Durable.triple_bind (Q := fun _ => Tracks target s.restart)
          (Durable.triple_write fun _ => Tracks.restart) fun _ => ih later
      · refine Durable.triple_bind (Q := fun body store => storable (.ok body) = true ∧ Tracks target s store) ?_ fun body => ?_
        · refine Durable.triple_reply (fun store body tracks told => ⟨?_, tracks⟩) fun _ _ tracks _ => tracks.unpublished
          rw [← told]
          exact stored answer List.mem_cons_self
        · exact Durable.triple_assume fun storable => Durable.triple_bind (importPage_spec storable) fun next => ih later
    · exact Durable.triple_pure fun _ => id

/-- A snapshot called complete: its block and count were canonical, its generation is the live one, and
the catalog holds a gapless range of ordinals that is long enough. -/
structure Confirmed (answers : PinAnswers) (target : CatalogTarget) (store : PancakeStore) : Prop where
  complete : store.keys.complete = true
  published : store.keys.published = some target
  generation : store.db.clock.pancakeV2Generation = target.catalogGeneration
  canonical : Canonical answers target.toTarget
  covers : ∃ n, target.poolCount ≤ n ∧ Covers store.db n

def Published (answers : PinAnswers) (store : PancakeStore) : Prop := StoreSound store ∧ ∃ target, Confirmed answers target store

theorem finishPancake_spec :
    Triple (Tracks target s) (finishPancake call target s)
      (fun outcome store => outcome.bootstrapped = true ∧ Published call.beforePublish store) Unpublished := by
  refine Durable.triple_each fun store tracks => ?_
  unfold finishPancake
  refine Durable.triple_bind (Q := fun _ s => Canonical call.beforePublish target.toTarget ∧ Elsewhere store s)
    (triple_repairing assertPinnedTarget_spec (fun s other => ?_) fun s => tracks.unpublished.elsewhere) fun _ => ?_
  · exact ⟨sound_cleared (other.evolves.unique tracks.sound.unique) rfl, (tracks.elsewhere other).incomplete⟩
  refine Durable.triple_assume fun canonical => Durable.triple_each fun live other => ?_
  have kept := tracks.elsewhere other
  obtain ⟨row, known, same, _⟩ := kept.row
  have valid : ValidTarget target.toTarget := same ▸ (checkRow_ok.mp (kept.sound.decodes row known)).1
  refine Durable.triple_read_at ?_
  refine Durable.triple_bind (Q := fun published s => publishPancake target live = .ok published ∧ s = live)
    (triple_repairing (Durable.triple_reply (fun s published at_live told => ⟨told, at_live⟩) fun s _ at_live _ => at_live)
      (fun s at_live => ?_) fun s at_live => ?_) fun published => ?_
  · subst at_live
    exact ⟨initializeCheckpoint_sound kept.sound valid, rfl⟩
  · subst at_live
    exact kept.unpublished
  refine Durable.triple_assume fun told => Durable.triple_write_at ?_
  unfold publishPancake at told
  split at told
  · cases told
    exact Durable.triple_fail fun s at_start => at_start ▸ ⟨initializeCheckpoint_sound kept.sound valid, rfl⟩
  · rename_i live_generation
    obtain ⟨n, passed, built⟩ := Fallible.bind_ok told
    cases built
    refine Durable.triple_pure fun s at_end => ?_
    subst at_end
    have generation := not_ne_iff.mp live_generation
    refine ⟨rfl, sound_cleared kept.sound.unique rfl, _, rfl, rfl, rfl, canonical, n, covers_of_stats passed⟩

variable {checkpoint : ImportCheckpoint}

theorem runImport_spec (stored : ∀ answer ∈ call.pages, storable answer.value = true) :
    Triple (Tracks checkpoint.target checkpoint.start) (runImport config call checkpoint)
      (fun outcome store => outcome.bootstrapped = true ∧ Published call.beforePublish store) Unpublished :=
  Durable.triple_bind (importLoop_spec stored) fun _ => finishPancake_spec

def Quiet (before after : PancakeStore) : Prop :=
  StoreSound after ∧ (after.keys.complete = true → before.keys.complete = true ∧ after.keys.published = before.keys.published)

theorem Unpublished.quiet (before : PancakeStore) (quiet : Unpublished store) : Quiet before store :=
  ⟨quiet.1, fun complete => by rw [quiet.2] at complete; cases complete⟩

theorem quiet_elsewhere (sound : StoreSound store) (other : Elsewhere store store') : Quiet store store' := by
  refine ⟨sound.elsewhere other, fun complete => ?_⟩
  rw [other.keys] at complete ⊢
  exact ⟨complete, rfl⟩

def checkedPins (call : Call) (outcome : SnapshotOutcome) : PinAnswers :=
  if outcome.bootstrapped then call.beforePublish else call.resumed

theorem publishedTarget_some {keys : PancakeKeys} {published : CatalogTarget} (read : publishedTarget keys = .ok (some published)) :
    keys.complete = true ∧ keys.published = some published ∧ ValidTarget published.toTarget := by
  unfold publishedTarget at read
  split at read
  · rename_i complete
    split at read
    · cases read
    · rename_i stored known
      obtain ⟨valid, built⟩ := Fallible.then_ok.mp read
      cases built
      exact ⟨complete, known, targetFrom_ok.mp valid⟩
  · cases read

theorem publishedTarget_none {keys : PancakeKeys} (read : publishedTarget keys = .ok none) : keys.complete = false := by
  unfold publishedTarget at read
  split at read
  · split at read
    · cases read
    · obtain ⟨_, built⟩ := Fallible.then_ok.mp read
      cases built
  · rename_i incomplete
    exact (Bool.not_eq_true _).mp incomplete

theorem revalidate_spec {published : CatalogTarget} (sound : StoreSound store) (read : publishedTarget store.keys = .ok (some published)) :
    Triple (· = store) (revalidate call published) (fun outcome s => outcome.bootstrapped = false ∧ Published call.resumed s)
      (Quiet store) := by
  obtain ⟨complete, known, valid⟩ := publishedTarget_some read
  unfold revalidate
  refine Durable.triple_bind (Q := fun _ s => Canonical call.resumed published.toTarget ∧ Elsewhere store s)
    (triple_repairing assertPinnedTarget_spec (fun s other => ?_) fun s => quiet_elsewhere sound) fun _ => ?_
  · exact Unpublished.quiet store ⟨sound_cleared (other.evolves.unique sound.unique) rfl, rfl⟩
  refine Durable.triple_assume fun canonical => Durable.triple_each fun live other => Durable.triple_read_at ?_
  have kept := sound.elsewhere other
  have restarted : Unpublished (initializeCheckpoint published.toTarget live) := ⟨initializeCheckpoint_sound kept valid, rfl⟩
  split
  · exact Durable.triple_write_at (Durable.triple_fail fun s at_start => at_start ▸ restarted.quiet store)
  · rename_i live_generation
    refine Durable.triple_bind (Q := fun n s => assertPairIndexStats (pairIndexStats live.db) published.poolCount
        "Pancake V2 published snapshot" = .ok n ∧ s = live)
      (triple_repairing (Durable.triple_reply (fun s n at_live told => ⟨told, at_live⟩) fun s _ at_live _ => at_live)
        (fun s at_live => ?_) fun s at_live => ?_) fun n => ?_
    · exact at_live ▸ restarted.quiet store
    · exact at_live ▸ quiet_elsewhere sound other
    refine Durable.triple_assume fun passed => Durable.triple_write_at (Durable.triple_pure fun s at_end => ?_)
    subst at_end
    refine ⟨rfl, sound_cleared kept.unique rfl, published, ?_, ?_, not_ne_iff.mp live_generation, canonical, n, covers_of_stats passed⟩
    · exact (congrArg PancakeKeys.complete other.keys).trans complete
    · exact (congrArg PancakeKeys.published other.keys).trans known

def Resumes (checkpoint : ImportCheckpoint) : PancakeStore → Prop := Tracks checkpoint.target checkpoint.start

theorem restartIncomplete_resumes (resumes : Resumes checkpoint store) :
    Resumes (restartIncomplete checkpoint store).2 (restartIncomplete checkpoint store).1 := by
  unfold restartIncomplete
  split
  · split
    · exact resumes
    · obtain ⟨row, stored, same, _⟩ := resumes.row
      exact ⟨restartCheckpoint_sound resumes.sound stored same, ⟨_, restartCheckpoint_row stored same, rfl, rfl⟩, resumes.incomplete⟩
  · exact resumes

theorem resumeCheckpoint_spec :
    Triple (Resumes checkpoint) (resumeCheckpoint call checkpoint) Resumes Unpublished := by
  refine Durable.triple_each fun store resumes => ?_
  unfold resumeCheckpoint
  refine Durable.triple_bind (Q := fun _ s => Canonical call.resumed checkpoint.target.toTarget ∧ Elsewhere store s)
    (triple_repairing assertPinnedTarget_spec (fun s other => ?_) fun s => resumes.unpublished.elsewhere) fun _ => ?_
  · exact ⟨sound_cleared (other.evolves.unique resumes.sound.unique) rfl, (resumes.elsewhere other).incomplete⟩
  refine Durable.triple_assume fun _ => Durable.triple_each fun live other => Durable.triple_read_at ?_
  have kept : Resumes checkpoint live := resumes.elsewhere other
  split
  · obtain ⟨row, known, same, _⟩ := kept.row
    have valid : ValidTarget checkpoint.target.toTarget := same ▸ (checkRow_ok.mp (kept.sound.decodes row known)).1
    exact Durable.triple_write_at
      (Durable.triple_fail fun s at_start => at_start ▸ ⟨initializeCheckpoint_sound kept.sound valid, rfl⟩)
  · exact Durable.triple_write_at (Durable.triple_pure fun s at_end => at_end ▸ restartIncomplete_resumes kept)

theorem pinNewTarget_spec : Triple Unpublished (pinNewTarget call) (fun target s => ValidTarget target ∧ Unpublished s) Unpublished := by
  have moves : ∀ {α : Type} (answer : Answer α) (s : PancakeStore), Unpublished s →
      Unpublished { s with db := answer.meanwhile.foldl transact s.db } := fun answer s quiet => quiet.elsewhere (elsewhere_transactions s _)
  have awaits : ∀ {α : Type} (answer : Answer α), Triple Unpublished (await answer) (fun _ => Unpublished) Unpublished :=
    fun answer => triple_await (moves answer) fun s _ quiet _ => moves answer s quiet
  unfold pinNewTarget
  refine Durable.triple_bind (awaits call.head) fun head => ?_
  refine Durable.triple_bind (Q := fun _ s => (0 < head ∧ head ≤ maxSafeInteger) ∧ Unpublished s) ?_ fun _ => ?_
  · exact Durable.triple_reply (fun s _ quiet checked => ⟨Fallible.demand_ok.mp checked, quiet⟩) fun _ _ quiet _ => quiet
  refine Durable.triple_assume fun known => ?_
  refine Durable.triple_bind (Q := fun _ s => call.finalityBlocks < head ∧ Unpublished s) ?_ fun _ => ?_
  · exact Durable.triple_reply (fun s _ quiet checked => ⟨Fallible.demand_ok.mp checked, quiet⟩) fun _ _ quiet _ => quiet
  refine Durable.triple_assume fun final => ?_
  refine Durable.triple_bind (awaits call.firstHash) fun firstHash => Durable.triple_bind (awaits call.newCount) fun poolCount => ?_
  refine Durable.triple_bind (Q := fun _ s => (0 < poolCount ∧ poolCount ≤ maxSafeInteger) ∧ Unpublished s) ?_ fun _ => ?_
  · exact Durable.triple_reply (fun s _ quiet checked => ⟨Fallible.demand_ok.mp checked, quiet⟩) fun _ _ quiet _ => quiet
  refine Durable.triple_assume fun counted => Durable.triple_bind (awaits call.secondHash) fun secondHash => ?_
  refine Durable.triple_bind (Durable.keeps_reply _) fun _ => Durable.triple_pure fun s quiet => ⟨⟨?_, counted⟩, quiet⟩
  dsimp only
  omega

theorem beginCheckpoint_spec : Triple Unpublished (beginCheckpoint call) Resumes Unpublished := by
  unfold beginCheckpoint
  refine Durable.triple_bind pinNewTarget_spec fun target => Durable.triple_assume fun valid => ?_
  refine Durable.triple_each fun store quiet => Durable.triple_read_at (Durable.triple_write_at (Durable.triple_pure ?_))
  rintro _ rfl
  exact ⟨initializeCheckpoint_sound quiet.1 valid, ⟨_, rfl, rfl, rfl⟩, rfl⟩

theorem ensure_spec (sound : StoreSound store) (stored : ∀ answer ∈ call.pages, storable answer.value = true) :
    Triple (· = store) (ensurePancakeV2AdvancedSnapshot config call) (fun outcome s => Published (checkedPins call outcome) s)
      (Quiet store) := by
  have unchanged : Quiet store store := quiet_elsewhere sound (Elsewhere.refl store)
  have imported : ∀ (outcome : SnapshotOutcome) s, outcome.bootstrapped = true ∧ Published call.beforePublish s →
      Published (checkedPins call outcome) s := fun outcome s done => by
    unfold checkedPins
    rw [if_pos done.1]
    exact done.2
  unfold ensurePancakeV2AdvancedSnapshot
  refine Durable.triple_reply_at (fun _ _ => Durable.triple_reply_at (fun _ _ => Durable.triple_read_at ?_) fun _ _ => unchanged) fun _ _ => unchanged
  refine Durable.triple_bind (Q := fun published s => publishedTarget store.keys = .ok published ∧ s = store)
    (triple_repairing (Durable.triple_reply (fun s published same told => ⟨told, same⟩) fun s _ same _ => same)
      (fun s same => ?_) fun s same => same ▸ unchanged) fun published => Durable.triple_assume fun read => ?_
  · subst same
    exact Unpublished.quiet s ⟨sound_cleared sound.unique rfl, rfl⟩
  cases published with
  | some target =>
    refine Durable.triple_weaken (revalidate_spec sound read) (fun _ => id) (fun outcome s done => ?_) fun _ => id
    unfold checkedPins
    rw [done.1]
    exact done.2
  | none =>
    have incomplete := publishedTarget_none read
    have quiet : Unpublished store := ⟨sound, incomplete⟩
    dsimp only
    refine Durable.triple_bind (Q := fun found s => importCheckpoint store.keys = .ok found ∧ s = store)
      (triple_repairing (Durable.triple_reply (fun s found same told => ⟨told, same⟩) fun s _ same _ => same)
        (fun s same => ?_) fun s same => same ▸ unchanged) fun found => Durable.triple_assume fun decoded => ?_
    · subst same
      exact Unpublished.quiet s ⟨sound_cleared sound.unique rfl, incomplete⟩
    cases found with
    | some checkpoint =>
      obtain ⟨row, known, _, same, index⟩ := importCheckpoint_some decoded
      have resumes : Resumes checkpoint store := ⟨sound, ⟨row, known, same.symm, index.symm⟩, incomplete⟩
      exact Durable.triple_bind (Durable.triple_weaken resumeCheckpoint_spec (fun s at_store => at_store ▸ resumes) (fun _ _ => id)
        fun _ => Unpublished.quiet store) fun resumed =>
          Durable.triple_weaken (runImport_spec stored) (fun _ => id) imported fun _ => Unpublished.quiet store
    | none =>
      exact Durable.triple_bind (Durable.triple_weaken beginCheckpoint_spec (fun s at_store => at_store ▸ quiet) (fun _ _ => id)
        fun _ => Unpublished.quiet store) fun started =>
          Durable.triple_weaken (runImport_spec stored) (fun _ => id) imported fun _ => Unpublished.quiet store

inductive PancakeStep
  | ensure (call : Call)
  | catalog (ops : List CatalogOp)

def pancakeStep (config : PancakeConfig) (store : PancakeStore) : PancakeStep → PancakeStore
  | .ensure call => (ensurePancakeV2AdvancedSnapshot config call).left store
  | .catalog ops => { store with db := transact store.db ops }

def TokensStored : PancakeStep → Prop
  | .ensure call => ∀ answer ∈ call.pages, storable answer.value = true
  | .catalog _ => True

instance : DecidablePred TokensStored
  | .ensure call => inferInstanceAs (Decidable (∀ answer ∈ call.pages, storable answer.value = true))
  | .catalog _ => inferInstanceAs (Decidable True)

/-- The stored checkpoint decodes, one factory ordinal has one row, and a checkpoint that can be resumed has
exactly one for each ordinal before its index. -/
structure Resumable (store : PancakeStore) : Prop where
  decodes : ∃ found, importCheckpoint store.keys = .ok found
  once : UniqueSlots store.db.pools
  covered : ∀ checkpoint, importCheckpoint store.keys = .ok (some checkpoint) →
    checkpoint.target.catalogGeneration = store.db.clock.pancakeV2Generation → ∀ ordinal < checkpoint.nextIndex,
      ∃! pool, pool ∈ store.db.pools.rows ∧ pool.proto = .pancakev2 ∧ pool.pairIndex = some ordinal

theorem StoreSound.resumable (sound : StoreSound store) : Resumable store where
  decodes := importCheckpoint_decodes.mpr sound.decodes
  once := sound.unique
  covered checkpoint read live ordinal before := by
    obtain ⟨row, known, _, same, index⟩ := importCheckpoint_some read
    rw [same] at live
    rw [index] at before
    obtain ⟨pool, member, venue, held⟩ := sound.covered row known live ordinal before
    refine ⟨pool, ⟨member, venue, held⟩, fun other found => ?_⟩
    exact sound.unique pool member other found.1 (by rw [venue]; rfl) (found.2.1.trans venue.symm) (found.2.2.trans held.symm)
      (by rw [held]; exact Option.some_ne_none ordinal)

/-- A call that returns leaves a confirmed snapshot, one that throws or stops publishes none, and the
catalog's own operations touch no key. -/
def PancakeStepRight (config : PancakeConfig) (store : PancakeStore) : PancakeStep → Prop
  | .ensure call =>
    match (ensurePancakeV2AdvancedSnapshot config call).run store with
    | (.ok outcome, after) => ∃ target, Confirmed (checkedPins call outcome) target after
    | (.error _, after) => after.keys.complete = true → store.keys.complete = true ∧ after.keys.published = store.keys.published
  | .catalog ops => (pancakeStep config store (.catalog ops)).keys = store.keys

theorem pancakeStep_right {step : PancakeStep} (sound : StoreSound store) (stored : TokensStored step) :
    PancakeStepRight config store step := by
  cases step with
  | ensure call =>
    have spec := @ensure_spec config call store sound stored store rfl
    unfold PancakeStepRight
    dsimp only
    split
    · rename_i ran
      rw [ran] at spec
      exact spec.2
    · rename_i ran
      rw [ran] at spec
      exact spec.2
  | catalog ops => exact rfl

theorem pancakeStep_sound {step : PancakeStep} (sound : StoreSound store) (stored : TokensStored step) :
    StoreSound (pancakeStep config store step) := by
  cases step with
  | ensure call =>
    exact Durable.left_keeps (Durable.triple_weaken (ensure_spec sound stored) (fun _ => id) (fun _ _ done => done.1) fun _ quiet => quiet.1) rfl
  | catalog ops => exact sound.elsewhere ⟨rfl, transact_evolves store.db ops⟩

theorem fresh_storeSound : StoreSound PancakeStore.fresh :=
  sound_cleared (fun _ inside => by cases inside) rfl

/-- In every run whose page tokens come back from the store, every state can be resumed and every step keeps
its promise. -/
theorem import_resumes (config : PancakeConfig) (steps : List PancakeStep) (step : PancakeStep)
    (stored : ∀ input ∈ steps ++ [step], TokensStored input) :
    Resumable (Trace.run (pancakeStep config) PancakeStore.fresh steps) ∧
      PancakeStepRight config (Trace.run (pancakeStep config) PancakeStore.fresh steps) step ∧
      Resumable (Trace.run (pancakeStep config) PancakeStore.fresh (steps ++ [step])) := by
  have each : ∀ s input, StoreSound s → TokensStored input → StoreSound (pancakeStep config s input) := fun _ _ => pancakeStep_sound
  have along := Trace.along_of_forall stored (pancakeStep config) PancakeStore.fresh
  obtain ⟨before, last, _⟩ := Trace.along_append.mp along
  have sound := Trace.run_keeps each fresh_storeSound before
  refine ⟨sound.resumable, pancakeStep_right sound last, ?_⟩
  rw [Trace.run_append]
  exact (pancakeStep_sound sound last).resumable

def sampleFactory : PancakeConfig := ⟨99, 7⟩

def sampleAnswer {α : Type} (value : α) : Answer α := ⟨[], .ok value⟩

def sampleLog (ordinal : Nat) : PairLog where
  address := 99
  removed := false
  blockNumber := ordinal
  transactionIndex := 0
  logIndex := 0
  topic0 := 7
  token0 := ordinal
  token1 := ordinal + 1
  pair := 100 + ordinal
  ordinal := ordinal

def sampleCall (pages : List (Nat × Option String)) : Call where
  pageSize := 1
  freshLimit := 10
  finalityBlocks := 5
  resumed := ⟨sampleAnswer 3, sampleAnswer 2⟩
  head := sampleAnswer 15
  firstHash := sampleAnswer 3
  newCount := sampleAnswer 2
  secondHash := sampleAnswer 3
  pages := pages.map fun page => sampleAnswer ⟨[sampleLog page.1], page.2⟩
  beforePublish := ⟨sampleAnswer 3, sampleAnswer 2⟩

/-- The first call stops after one page; the next resumes at its token and publishes. -/
theorem import_resumes_sample :
    Resumable (Trace.run (pancakeStep sampleFactory) PancakeStore.fresh [.ensure (sampleCall [(1, some "next")])]) ∧
      PancakeStepRight sampleFactory (Trace.run (pancakeStep sampleFactory) PancakeStore.fresh [.ensure (sampleCall [(1, some "next")])])
        (.ensure (sampleCall [(2, none)])) ∧
      Resumable (Trace.run (pancakeStep sampleFactory) PancakeStore.fresh
        ([.ensure (sampleCall [(1, some "next")])] ++ [.ensure (sampleCall [(2, none)])])) :=
  import_resumes sampleFactory [.ensure (sampleCall [(1, some "next")])] (.ensure (sampleCall [(2, none)])) (by decide)

/-- A page token of one space is stored as it is and read back as no token: the checkpoint after the first
page does not decode. -/
theorem blank_token_breaks_checkpoint :
    ¬ Resumable (Trace.run (pancakeStep sampleFactory) PancakeStore.fresh [.ensure (sampleCall [(1, some " ")])]) := by
  intro resumable
  have stored := importCheckpoint_decodes.mp resumable.decodes
    ⟨⟨⟨10, 3, 2⟩, 0⟩, 1, " ", some ⟨1, 0, 0⟩⟩ (by decide)
  revert stored
  decide

end LpTerminal.Catalog

import LpTerminal.Lib.Trace
import Mathlib.Data.List.Nodup
import Mathlib.Data.List.Perm.Subperm

/-!
The registry of pending bridge transfers: one stored list that any number of tabs share, each with a list of its own that it merges
with the stored one before it changes it, and which steps of a run lose a status, bring a transfer back or drop one.
-/

namespace LpTerminal.Bridge

inductive PendingStatus
  | pending | filled | refunded | failed | stale
  deriving DecidableEq

def isTerminal : PendingStatus → Bool
  | .filled => true
  | .refunded => true
  | .failed => true
  | .pending => false
  | .stale => false

structure PendingTransfer where
  id : Nat
  status : PendingStatus
  fillTxHash : Option Nat
  checkedAt : Option Nat
  deriving DecidableEq

structure TransferPatch where
  status : Option PendingStatus
  fillTxHash : Option (Option Nat)
  checkedAt : Option Nat

def MAX : Nat := 20

def load (disk : List PendingTransfer) (readable : Bool) : Option (List PendingTransfer) :=
  if readable then some disk else none

def advanced (disk mem : PendingTransfer) : PendingTransfer :=
  if isTerminal disk.status ≠ isTerminal mem.status then
    if isTerminal disk.status then disk else mem
  else if mem.checkedAt.getD 0 > disk.checkedAt.getD 0 then mem else disk

def mergedWith (mem : List PendingTransfer) (disk : PendingTransfer) : PendingTransfer :=
  match mem.find? fun entry => entry.id = disk.id with
  | none => disk
  | some entry => advanced disk entry

def fresh (disk entries : Option (List PendingTransfer)) : List PendingTransfer :=
  match disk, entries with
  | none, mem => mem.getD []
  | some disk, none => disk
  | some disk, some mem => disk.map (mergedWith mem)

def patched (patch : TransferPatch) (entry : PendingTransfer) : PendingTransfer :=
  let next : PendingTransfer :=
    { id := entry.id
      status := patch.status.getD entry.status
      fillTxHash := patch.fillTxHash.getD entry.fillTxHash
      checkedAt := patch.checkedAt.or entry.checkedAt }
  if isTerminal entry.status ∧ patch.status.any (fun status => !isTerminal status) then { next with status := entry.status } else next

inductive Change
  | add (transfer : PendingTransfer)
  | update (id : Nat) (patch : TransferPatch)
  | dismiss (id : Nat)

def Change.apply : Change → List PendingTransfer → List PendingTransfer
  | .add transfer, base => if base.any (fun entry => entry.id = transfer.id) then base else (transfer :: base).take MAX
  | .update id patch, base => base.map fun entry => if entry.id ≠ id then entry else patched patch entry
  | .dismiss id, base => base.filter fun entry => entry.id ≠ id

structure Browser where
  disk : List PendingTransfer
  entries : Nat → Option (List PendingTransfer)

def Browser.opened : Browser := ⟨[], fun _ => none⟩

/-- A call in a tab, or the event that another tab has written. Each read and write may fail. -/
inductive Step
  | get (tab : Nat) (readable : Bool)
  | change (tab : Nat) (change : Change) (readable writable : Bool)
  | storage (tab : Nat) (readable : Bool)

namespace Browser

variable (browser : Browser)

def base (tab : Nat) (readable : Bool) : List PendingTransfer :=
  fresh (load browser.disk readable) (browser.entries tab)

def step : Step → Browser
  | .get tab readable =>
    { browser with entries := Function.update browser.entries tab (some ((browser.entries tab).getD ((load browser.disk readable).getD []))) }
  | .change tab change readable writable =>
    let list := change.apply (browser.base tab readable)
    { disk := if writable then list else browser.disk
      entries := Function.update browser.entries tab (some list) }
  | .storage tab readable =>
    { browser with entries := Function.update browser.entries tab ((load browser.disk readable).or (browser.entries tab)) }

def shown (tab : Nat) : List PendingTransfer := (browser.entries tab).getD []

end Browser

section

variable {browser : Browser} {tab other : Nat} {readable writable : Bool} {change : Change}

theorem shown_get : (browser.step (.get tab readable)).shown other = browser.shown other ∨
    (browser.shown other = [] ∧ ((browser.step (.get tab readable)).shown other = browser.disk ∨
      (browser.step (.get tab readable)).shown other = [])) := by
  unfold Browser.step Browser.shown
  dsimp only
  rw [Function.update_apply]
  split
  · rename_i same
    subst same
    cases browser.entries other with
    | some list => exact Or.inl rfl
    | none =>
      refine Or.inr ⟨rfl, ?_⟩
      cases readable with
      | true => exact Or.inl rfl
      | false => exact Or.inr rfl
  · exact Or.inl rfl

theorem shown_storage : (browser.step (.storage tab readable)).shown other =
    if other = tab ∧ readable = true then browser.disk else browser.shown other := by
  unfold Browser.step Browser.shown
  dsimp only
  rw [Function.update_apply]
  by_cases same : other = tab
  · subst same
    rw [if_pos rfl]
    cases readable with
    | true => rw [if_pos ⟨rfl, rfl⟩]; rfl
    | false => rw [if_neg (by simp)]; rfl
  · rw [if_neg same, if_neg fun both => same both.1]

theorem shown_change : (browser.step (.change tab change readable writable)).shown other =
    if other = tab then change.apply (browser.base tab readable) else browser.shown other := by
  unfold Browser.step Browser.shown
  dsimp only
  rw [Function.update_apply]
  split <;> rfl

theorem disk_change : (browser.step (.change tab change readable writable)).disk =
    if writable then change.apply (browser.base tab readable) else browser.disk := rfl

end

def Present (list : List PendingTransfer) (id : Nat) : Prop := ∃ entry ∈ list, entry.id = id

def Settled (list : List PendingTransfer) (id : Nat) : Prop := ∀ entry ∈ list, entry.id = id → isTerminal entry.status = true

section

variable {list mem disk base : List PendingTransfer} {id : Nat} {change : Change}

theorem settled_absent (absent : ¬ Present list id) : Settled list id :=
  fun entry member same => absurd ⟨entry, member, same⟩ absent

theorem present_of_unsettled (unsettled : ¬ Settled list id) : Present list id := by
  by_contra absent
  exact unsettled (settled_absent absent)

theorem advanced_id {d m : PendingTransfer} (same : m.id = d.id) : (advanced d m).id = d.id := by
  unfold advanced
  split
  · split
    · rfl
    · exact same
  · split
    · exact same
    · rfl

theorem advanced_terminal {d m : PendingTransfer} (terminal : isTerminal d.status = true ∨ isTerminal m.status = true) :
    isTerminal (advanced d m).status = true := by
  unfold advanced
  split
  · split
    · assumption
    · rename_i unfinished
      exact terminal.resolve_left unfinished
  · rename_i agree
    have both : isTerminal d.status = isTerminal m.status := not_not.mp agree
    split
    · rcases terminal with first | second
      · exact both.symm.trans first
      · exact second
    · rcases terminal with first | second
      · exact first
      · exact both.trans second

theorem mergedWith_id (d : PendingTransfer) : (mergedWith mem d).id = d.id := by
  unfold mergedWith
  split
  · rfl
  · rename_i entry found
    have same := List.find?_some found
    exact advanced_id (by simpa using same)

theorem fresh_ids (entries : Option (List PendingTransfer)) :
    (fresh (some disk) entries).map PendingTransfer.id = disk.map PendingTransfer.id := by
  cases entries with
  | none => rfl
  | some mem =>
    change (disk.map (mergedWith mem)).map PendingTransfer.id = _
    rw [List.map_map]
    exact List.map_congr_left fun d _ => mergedWith_id d

theorem present_map {first second : List PendingTransfer} (same : first.map PendingTransfer.id = second.map PendingTransfer.id) :
    Present first id ↔ Present second id := by
  have members : ∀ list : List PendingTransfer, Present list id ↔ id ∈ list.map PendingTransfer.id := fun list => List.mem_map.symm
  rw [members, members, same]

theorem fresh_settled (entries : Option (List PendingTransfer)) (settled : Settled disk id) : Settled (fresh (some disk) entries) id := by
  cases entries with
  | none => exact settled
  | some mem =>
    intro entry member same
    obtain ⟨d, stored, rfl⟩ := List.mem_map.mp member
    have terminal := settled d stored ((mergedWith_id d).symm.trans same)
    unfold mergedWith
    split
    · exact terminal
    · exact advanced_terminal (Or.inl terminal)

theorem fresh_settled_mem (present : Present mem id) (settled : Settled mem id) : Settled (fresh (some disk) (some mem)) id := by
  intro entry member same
  obtain ⟨d, stored, rfl⟩ := List.mem_map.mp member
  have known : d.id = id := (mergedWith_id d).symm.trans same
  unfold mergedWith
  cases found : mem.find? fun entry => entry.id = d.id with
  | none =>
    obtain ⟨m, inside, equal⟩ := present
    have apart := List.find?_eq_none.mp found m inside
    exact absurd (by simpa using equal.trans known.symm) apart
  | some m =>
    have same := List.find?_some found
    exact advanced_terminal (Or.inr (settled m (List.mem_of_find?_eq_some found) ((by simpa using same : m.id = d.id).trans known)))

theorem patched_id (patch : TransferPatch) (entry : PendingTransfer) : (patched patch entry).id = entry.id := by
  unfold patched
  dsimp only
  split <;> rfl

theorem patched_terminal {patch : TransferPatch} {entry : PendingTransfer} (terminal : isTerminal entry.status = true) :
    isTerminal (patched patch entry).status = true := by
  unfold patched
  dsimp only
  split
  · exact terminal
  · rename_i free
    cases told : patch.status with
    | none => exact terminal
    | some status =>
      rw [told] at free
      simpa [terminal] using free

def Change.added : Change → List Nat
  | .add transfer => [transfer.id]
  | .update _ _ => []
  | .dismiss _ => []

def Change.dismissed : Change → List Nat
  | .add _ => []
  | .update _ _ => []
  | .dismiss id => [id]

theorem apply_add (transfer : PendingTransfer) : (Change.add transfer).apply base =
    if base.any (fun entry => entry.id = transfer.id) then base else (transfer :: base).take MAX := rfl

theorem update_ids (id : Nat) (patch : TransferPatch) :
    ((Change.update id patch).apply base).map PendingTransfer.id = base.map PendingTransfer.id := by
  change (base.map fun entry => if entry.id ≠ id then entry else patched patch entry).map PendingTransfer.id = _
  rw [List.map_map]
  refine List.map_congr_left fun entry _ => ?_
  change (if entry.id ≠ id then entry else patched patch entry).id = entry.id
  split
  · rfl
  · exact patched_id patch entry

theorem present_before (old : id ∉ change.added) (present : Present (change.apply base) id) : Present base id ∧ id ∉ change.dismissed := by
  cases change with
  | add transfer =>
    refine ⟨?_, List.not_mem_nil⟩
    obtain ⟨entry, member, rfl⟩ := present
    rw [apply_add] at member
    split at member
    · exact ⟨entry, member, rfl⟩
    · rcases List.mem_cons.mp (List.mem_of_mem_take member) with rfl | inside
      · exact absurd (List.mem_singleton_self _) old
      · exact ⟨entry, inside, rfl⟩
  | update other patch => exact ⟨(present_map (update_ids other patch)).mp present, List.not_mem_nil⟩
  | dismiss other =>
    obtain ⟨entry, member, rfl⟩ := present
    obtain ⟨inside, apart⟩ := List.mem_filter.mp member
    refine ⟨⟨entry, inside, rfl⟩, fun dismissed => ?_⟩
    rw [List.mem_singleton.mp dismissed] at apart
    simp at apart

theorem present_after (room : change.added ≠ [] → base.length < MAX) (kept : id ∉ change.dismissed) (present : Present base id) : Present (change.apply base) id := by
  cases change with
  | add transfer =>
    rw [apply_add]
    split
    · exact present
    · obtain ⟨entry, member, same⟩ := present
      refine ⟨entry, ?_, same⟩
      rw [List.take_of_length_le (show (transfer :: base).length ≤ MAX from room (List.cons_ne_nil _ _))]
      exact List.mem_cons_of_mem _ member
  | update other patch => exact (present_map (update_ids other patch)).mpr present
  | dismiss other =>
    obtain ⟨entry, member, rfl⟩ := present
    refine ⟨entry, List.mem_filter.mpr ⟨member, ?_⟩, rfl⟩
    simpa using fun same : entry.id = other => kept (List.mem_singleton.mpr same)

theorem settled_after (old : id ∉ change.added) (settled : Settled base id) : Settled (change.apply base) id := by
  intro entry member same
  cases change with
  | add transfer =>
    rw [apply_add] at member
    split at member
    · exact settled entry member same
    · rcases List.mem_cons.mp (List.mem_of_mem_take member) with rfl | inside
      · exact absurd (List.mem_singleton.mpr same.symm) old
      · exact settled entry inside same
  | update other patch =>
    obtain ⟨before, inside, rfl⟩ := List.mem_map.mp member
    by_cases apart : before.id ≠ other
    · rw [if_pos apart] at same ⊢
      exact settled before inside same
    · rw [if_neg apart] at same ⊢
      exact patched_terminal (settled before inside ((patched_id patch before).symm.trans same))
  | dismiss other => exact settled entry (List.mem_filter.mp member).1 same

end

variable {browser : Browser} {tab : Nat} {id : Nat}

structure Listed (added : List Nat) (list : List PendingTransfer) : Prop where
  unique : (list.map PendingTransfer.id).Nodup
  known : list.map PendingTransfer.id ⊆ added

def Step.added : Step → List Nat
  | .change _ edit _ _ => edit.added
  | .get _ _ => []
  | .storage _ _ => []

def Step.dismissed : Step → List Nat
  | .change _ edit _ _ => edit.dismissed
  | .get _ _ => []
  | .storage _ _ => []

def addedIn (steps : List Step) : List Nat := steps.flatMap Step.added

section

variable {added : List Nat} {list : List PendingTransfer}

theorem Listed.nil : Listed added [] := ⟨List.nodup_nil, List.nil_subset _⟩

theorem Listed.more {later : List Nat} (listed : Listed added list) : Listed (added ++ later) list :=
  ⟨listed.unique, fun _ member => List.mem_append_left _ (listed.known member)⟩

theorem Listed.length_le (listed : Listed added list) : list.length ≤ added.length := by
  have shorter := (List.subperm_of_subset listed.unique listed.known).length_le
  rwa [List.length_map] at shorter

theorem Listed.of_ids {other : List PendingTransfer} (listed : Listed added list)
    (same : other.map PendingTransfer.id = list.map PendingTransfer.id) : Listed added other := by
  refine ⟨?_, ?_⟩
  · rw [same]
    exact listed.unique
  · rw [same]
    exact listed.known

theorem Listed.sublist {other : List PendingTransfer} (listed : Listed added list) (part : List.Sublist other list) : Listed added other :=
  ⟨listed.unique.sublist (part.map _), fun _ member => listed.known ((part.map _).subset member)⟩

theorem Listed.present (listed : Listed added list) (present : Present list id) : id ∈ added := by
  obtain ⟨entry, member, rfl⟩ := present
  exact listed.known (List.mem_map_of_mem member)

theorem Listed.settled {entry : PendingTransfer} (listed : Listed added list) (member : entry ∈ list) (terminal : isTerminal entry.status = true) :
    Settled list entry.id := by
  intro other inside same
  have equal : other = entry := List.inj_on_of_nodup_map listed.unique inside member same
  rw [equal]
  exact terminal

theorem Listed.apply {change : Change} (fits : (added ++ change.added).Nodup) (listed : Listed added list) :
    Listed (added ++ change.added) (change.apply list) := by
  cases change with
  | add transfer =>
    rw [apply_add]
    split
    · exact listed.more
    · refine @Listed.sublist _ (transfer :: list) _ ⟨?_, ?_⟩ (List.take_sublist _ _)
      · refine List.nodup_cons.mpr ⟨fun inside => ?_, listed.unique⟩
        exact (List.nodup_append.mp fits).2.2 _ (listed.known inside) _ (List.mem_singleton_self _) rfl
      · refine List.cons_subset.mpr ⟨List.mem_append_right _ (List.mem_singleton_self _), ?_⟩
        exact fun _ member => List.mem_append_left _ (listed.known member)
  | update other patch => exact (listed.of_ids (update_ids other patch)).more
  | dismiss other => exact (listed.sublist List.filter_sublist).more

end

structure Browser.Listed (added : List Nat) (browser : Browser) : Prop where
  disk : Bridge.Listed added browser.disk
  shown : ∀ tab, Bridge.Listed added (browser.shown tab)

section

variable {added : List Nat}

theorem base_listed (listed : browser.Listed added) (tab : Nat) (readable : Bool) : Listed added (browser.base tab readable) := by
  cases readable with
  | false => exact listed.shown tab
  | true => exact listed.disk.of_ids (fresh_ids _)

end

theorem Browser.Listed.step {added : List Nat} {browser : Browser} {step : Step} (fits : (added ++ step.added).Nodup)
    (listed : browser.Listed added) : (browser.step step).Listed (added ++ step.added) := by
  cases step with
  | get tab readable =>
    refine ⟨listed.disk.more, fun other => ?_⟩
    rcases @shown_get browser tab other readable with same | ⟨_, stored | nothing⟩
    · rw [same]
      exact (listed.shown other).more
    · rw [stored]
      exact listed.disk.more
    · rw [nothing]
      exact Listed.nil
  | change tab edit readable writable =>
    have applied := (base_listed listed tab readable).apply fits
    refine ⟨?_, fun other => ?_⟩
    · rw [disk_change]
      split
      · exact applied
      · exact listed.disk.more
    · rw [shown_change]
      split
      · exact applied
      · exact (listed.shown other).more
  | storage tab readable =>
    refine ⟨listed.disk.more, fun other => ?_⟩
    rw [shown_storage]
    split
    · exact listed.disk.more
    · exact (listed.shown other).more

def Agrees (dismissed : List Nat) (disk mem : List PendingTransfer) : Prop :=
  ∀ id, id ∉ dismissed → (Present mem id ↔ Present disk id) ∧ (Settled disk id → Settled mem id)

/-- A step that loses nothing: an event brings no settled transfer of the tab back as unfinished; a call that writes what
it could not read agrees with the disk; and no dismissal of a transfer settled in the tab alone fails to be written. -/
def Safe (browser : Browser) : Step → Prop
  | .get _ _ => True
  | .storage tab readable =>
    readable = true → ∀ id, Present (browser.shown tab) id → Settled (browser.shown tab) id → Settled browser.disk id
  | .change tab edit readable writable =>
    (readable = false → writable = true → Agrees edit.dismissed browser.disk (browser.shown tab)) ∧
    (writable = false → ∀ id ∈ edit.dismissed, Present (browser.base tab readable) id → Settled (browser.base tab readable) id →
      Settled browser.disk id)

/-- The tab never shows the transfer unfinished, and will not: on disk it is settled, or the tab still has it. -/
structure Held (browser : Browser) (tab id : Nat) : Prop where
  settled : Settled (browser.shown tab) id
  backed : Settled browser.disk id ∨ Present (browser.shown tab) id

theorem absent_nil : ¬ Present [] id := by
  rintro ⟨_, member, _⟩
  exact absurd member List.not_mem_nil

theorem base_settled (held : Held browser tab id) (readable : Bool) : Settled (browser.base tab readable) id := by
  cases readable with
  | false => exact held.settled
  | true =>
    rcases held.backed with stored | present
    · exact fresh_settled _ stored
    · obtain ⟨settled, _⟩ := held
      unfold Browser.base
      unfold Browser.shown at present settled
      cases told : browser.entries tab with
      | none =>
        rw [told] at present
        exact absurd present absent_nil
      | some mem =>
        rw [told] at present settled
        exact fresh_settled_mem present settled

theorem base_present (present : Present (browser.shown tab) id) (unsettled : ¬ Settled browser.disk id) (readable : Bool) :
    Present (browser.base tab readable) id := by
  cases readable with
  | false => exact present
  | true => exact (present_map (fresh_ids _)).mpr (present_of_unsettled unsettled)

theorem written_settled {edit : Change} {readable : Bool} (old : id ∉ edit.added)
    (safe : readable = false → Agrees edit.dismissed browser.disk (browser.shown tab)) (stored : Settled browser.disk id) :
    Settled (edit.apply (browser.base tab readable)) id := by
  cases readable with
  | true => exact settled_after old (fresh_settled _ stored)
  | false =>
    by_cases dismissed : id ∈ edit.dismissed
    · exact settled_absent fun present => (present_before old present).2 dismissed
    · exact settled_after old ((safe rfl id dismissed).2 stored)

/-- Steps from a state, all of them safe, that add each transfer once and no more than fit. -/
structure Course (added : List Nat) (browser : Browser) (steps : List Step) : Prop where
  listed : browser.Listed added
  fits : (added ++ addedIn steps).Nodup
  few : (added ++ addedIn steps).length ≤ MAX
  safe : Trace.Along Browser.step Safe browser steps

section

variable {added : List Nat} {step : Step} {rest earlier later : List Step}

@[simp] theorem addedIn_cons (step : Step) (rest : List Step) : addedIn (step :: rest) = step.added ++ addedIn rest := List.flatMap_cons

theorem addedIn_one (step : Step) : addedIn [step] = step.added := List.append_nil _

theorem Course.head (course : Course added browser (step :: rest)) : Course added browser [step] := by
  obtain ⟨listed, fits, few, safe⟩ := course
  rw [addedIn_cons, ← List.append_assoc] at fits few
  rw [List.length_append] at few
  refine ⟨listed, ?_, ?_, safe.1, trivial⟩
  · rw [addedIn_one]
    exact fits.of_append_left
  · rw [addedIn_one]
    exact Nat.le_trans (Nat.le_add_right _ _) few

theorem Course.tail (course : Course added browser (step :: rest)) : Course (added ++ step.added) (browser.step step) rest := by
  have first := course.head.fits
  rw [addedIn_one] at first
  obtain ⟨listed, fits, few, safe⟩ := course
  rw [addedIn_cons, ← List.append_assoc] at fits few
  exact ⟨listed.step first, fits, few, safe.2⟩

theorem Course.after (course : Course added browser (earlier ++ later)) :
    Course (added ++ addedIn earlier) (Trace.run Browser.step browser earlier) later := by
  induction earlier generalizing added browser with
  | nil =>
    rw [show addedIn [] = [] from rfl, List.append_nil]
    exact course
  | cons step rest ih =>
    rw [addedIn_cons, ← List.append_assoc]
    exact ih course.tail

theorem Course.keeps {kept : Browser → Prop} {allowed : Step → Prop} {steps : List Step}
    (each : ∀ added browser step, Course added browser [step] → id ∈ added → allowed step → kept browser → kept (browser.step step))
    (course : Course added browser steps) (known : id ∈ added) (all : ∀ step ∈ steps, allowed step) (initial : kept browser) :
    kept (Trace.run Browser.step browser steps) := by
  induction steps generalizing added browser with
  | nil => exact initial
  | cons step rest ih =>
    obtain ⟨first, others⟩ := List.forall_mem_cons.mp all
    exact ih course.tail (List.mem_append_left _ known) others (each added browser step course.head known first initial)

theorem Course.old (course : Course added browser [step]) (known : id ∈ added) : id ∉ step.added := by
  have fits := course.fits
  rw [addedIn_one] at fits
  exact fun again => (List.nodup_append.mp fits).2.2 _ known _ again rfl

theorem Course.room {edit : Change} {readable writable : Bool} (course : Course added browser [.change tab edit readable writable])
    (adds : edit.added ≠ []) : (browser.base tab readable).length < MAX := by
  have few := course.few
  have most := (base_listed course.listed tab readable).length_le
  have some := List.length_pos_iff.mpr adds
  rw [addedIn_one, List.length_append] at few
  change added.length + edit.added.length ≤ MAX at few
  omega

theorem held_step (course : Course added browser [step]) (known : id ∈ added) (held : Held browser tab id) :
    Held (browser.step step) tab id := by
  have old := course.old known
  have safe := course.safe.1
  cases step with
  | get other readable =>
    rcases @shown_get browser other tab readable with same | ⟨nothing, opened⟩
    · refine ⟨?_, ?_⟩
      · rw [same]
        exact held.settled
      · rw [same]
        exact held.backed
    · have stored : Settled browser.disk id := by
        rcases held.backed with stored | present
        · exact stored
        · rw [nothing] at present
          exact absurd present absent_nil
      refine ⟨?_, Or.inl stored⟩
      rcases opened with disk | none
      · rw [disk]
        exact stored
      · rw [none]
        exact settled_absent absent_nil
  | storage other readable =>
    by_cases adopts : tab = other ∧ readable = true
    · obtain ⟨rfl, read⟩ := adopts
      have stored : Settled browser.disk id := by
        rcases held.backed with stored | present
        · exact stored
        · exact safe read id present held.settled
      refine ⟨?_, Or.inl stored⟩
      rw [shown_storage, if_pos ⟨rfl, read⟩]
      exact stored
    · refine ⟨?_, ?_⟩
      · rw [shown_storage, if_neg adopts]
        exact held.settled
      · rw [shown_storage, if_neg adopts]
        exact held.backed
  | change other edit readable writable =>
    by_cases same : tab = other
    · subst same
      have settled := settled_after old (base_settled held readable)
      refine ⟨?_, ?_⟩
      · rw [shown_change, if_pos rfl]
        exact settled
      · rw [shown_change, if_pos rfl, disk_change]
        cases writable with
        | true => exact Or.inl settled
        | false =>
          by_cases stored : Settled browser.disk id
          · exact Or.inl stored
          · have present := base_present (held.backed.resolve_left stored) stored readable
            have kept : id ∉ edit.dismissed := fun dismissed =>
              stored (safe.2 rfl id dismissed present (base_settled held readable))
            exact Or.inr (present_after course.room kept present)
    · refine ⟨?_, ?_⟩
      · rw [shown_change, if_neg same]
        exact held.settled
      · rw [shown_change, if_neg same, disk_change]
        rcases held.backed with stored | present
        · refine Or.inl ?_
          cases writable with
          | true => exact written_settled old (fun unread => safe.1 unread rfl) stored
          | false => exact stored
        · exact Or.inr present

theorem gone_step (course : Course added browser [step]) (known : id ∈ added) (gone : ¬ Present browser.disk id) :
    ¬ Present (browser.step step).disk id := by
  have old := course.old known
  have safe := course.safe.1
  cases step with
  | get other readable => exact gone
  | storage other readable => exact gone
  | change other edit readable writable =>
    rw [disk_change]
    cases writable with
    | false => exact gone
    | true =>
      intro present
      obtain ⟨before, kept⟩ := present_before old present
      cases readable with
      | true => exact gone ((present_map (fresh_ids _)).mp before)
      | false => exact gone ((safe.1 rfl rfl id kept).1.mp before)

theorem stays_step (course : Course added browser [step]) (kept : id ∉ step.dismissed)
    (present : Present browser.disk id) : Present (browser.step step).disk id := by
  have safe := course.safe.1
  cases step with
  | get other readable => exact present
  | storage other readable => exact present
  | change other edit readable writable =>
    rw [disk_change]
    cases writable with
    | false => exact present
    | true =>
      refine present_after course.room kept ?_
      cases readable with
      | true => exact (present_map (fresh_ids _)).mpr present
      | false => exact (safe.1 rfl rfl id kept).1.mpr present

end

def reached (steps : List Step) : Browser := Trace.run Browser.step Browser.opened steps

/-- In a tab, what was shown settled is never shown unfinished; what a written call dismissed is not on disk again; and
what a written call added stays there until it is dismissed. -/
structure Upheld (steps : List Step) : Prop where
  settled : ∀ earlier later, steps = earlier ++ later → ∀ tab, ∀ entry ∈ (reached earlier).shown tab, isTerminal entry.status = true →
    ∀ other ∈ (reached steps).shown tab, other.id = entry.id → isTerminal other.status = true
  dismissed : ∀ earlier later tab id readable, steps = earlier ++ .change tab (.dismiss id) readable true :: later →
    id ∈ addedIn earlier → ∀ entry ∈ (reached steps).disk, entry.id ≠ id
  added : ∀ earlier later tab transfer readable, steps = earlier ++ .change tab (.add transfer) readable true :: later →
    (∀ step ∈ later, transfer.id ∉ step.dismissed) → ∃ entry ∈ (reached steps).disk, entry.id = transfer.id

/-- Any steps of any tabs that add at most MAX transfers, each once, and none of which loses anything. -/
structure Run where
  steps : List Step
  distinct : (addedIn steps).Nodup
  few : (addedIn steps).length ≤ MAX
  safe : Trace.Along Browser.step Safe Browser.opened steps

theorem Run.course (run : Run) : Course [] Browser.opened run.steps :=
  ⟨⟨Listed.nil, fun _ => Listed.nil⟩, run.distinct, run.few, run.safe⟩

section

variable {earlier later : List Step} {added : List Nat}

theorem settled_run (course : Course [] Browser.opened (earlier ++ later)) {entry : PendingTransfer} (member : entry ∈ (reached earlier).shown tab)
    (terminal : isTerminal entry.status = true) : Held (Trace.run Browser.step (reached earlier) later) tab entry.id := by
  have after := course.after
  have shown := after.listed.shown tab
  have present : Present ((reached earlier).shown tab) entry.id := ⟨entry, member, rfl⟩
  refine @Course.keeps _ entry.id _ (fun browser => Held browser tab entry.id) (fun _ => True) later (fun _ _ _ course known _ => held_step course known) after
    (shown.present present) (fun _ _ => trivial) ⟨shown.settled member terminal, Or.inr present⟩

theorem dismissed_run {readable : Bool} (course : Course added browser (.change tab (.dismiss id) readable true :: later)) (known : id ∈ added) :
    ¬ Present (Trace.run Browser.step browser (.change tab (.dismiss id) readable true :: later)).disk id := by
  have gone : ¬ Present ((Change.dismiss id).apply (browser.base tab readable)) id := fun present =>
    (present_before List.not_mem_nil present).2 (List.mem_singleton_self _)
  exact @Course.keeps _ id _ (fun browser => ¬ Present browser.disk id) (fun _ => True) later (fun _ _ _ course known _ => gone_step course known)
    course.tail (List.mem_append_left _ known) (fun _ _ => trivial) gone

theorem added_run {transfer : PendingTransfer} {readable : Bool} (course : Course added browser (.change tab (.add transfer) readable true :: later))
    (kept : ∀ step ∈ later, transfer.id ∉ step.dismissed) :
    Present (Trace.run Browser.step browser (.change tab (.add transfer) readable true :: later)).disk transfer.id := by
  have stored : Present (browser.step (.change tab (.add transfer) readable true)).disk transfer.id := by
    change Present ((Change.add transfer).apply (browser.base tab readable)) transfer.id
    rw [apply_add]
    split
    · rename_i found
      obtain ⟨entry, member, same⟩ := List.any_eq_true.mp found
      exact ⟨entry, member, by simpa using same⟩
    · exact ⟨transfer, List.mem_cons_self, rfl⟩
  exact @Course.keeps _ transfer.id _ (fun browser => Present browser.disk transfer.id) (fun step => transfer.id ∉ step.dismissed) later
    (fun _ _ _ course _ kept => stays_step course kept) course.tail (List.mem_append_right _ (List.mem_singleton_self _)) kept stored

end

theorem pendingBridges_upheld (run : Run) : Upheld run.steps := by
  obtain ⟨steps, distinct, few, safe⟩ := run
  have course : Course [] Browser.opened steps := Run.course ⟨steps, distinct, few, safe⟩
  refine ⟨?_, ?_, ?_⟩
  · rintro earlier later rfl tab entry member terminal
    have held := settled_run course member terminal
    intro other inside same
    unfold reached at inside
    rw [Trace.run_append] at inside
    exact held.settled other inside same
  · rintro earlier later tab id readable rfl known entry member same
    unfold reached at member
    rw [Trace.run_append] at member
    exact dismissed_run course.after known ⟨entry, member, same⟩
  · rintro earlier later tab transfer readable rfl kept
    unfold reached
    rw [Trace.run_append]
    exact added_run course.after kept

def deposit : PendingTransfer := ⟨1, .pending, none, none⟩

def unwrittenFill : List Step :=
  [.change 0 (.add deposit) true true, .get 1 true, .change 0 (.update 1 ⟨some .filled, some (some 9), some 5⟩) true false,
    .change 1 (.update 1 ⟨none, none, some 6⟩) true true, .storage 0 true]

theorem fill_forgotten : ¬ ∀ steps, (addedIn steps).Nodup → (addedIn steps).length ≤ MAX → Upheld steps := by
  intro all
  have upheld := all unwrittenFill (by decide) (by decide)
  have regressed := upheld.settled (unwrittenFill.take 3) (unwrittenFill.drop 3) rfl 0 ⟨1, .filled, some 9, some 5⟩ (by decide) (by decide)
    ⟨1, .pending, none, some 6⟩ (by decide) rfl
  exact absurd regressed (by decide)

end LpTerminal.Bridge

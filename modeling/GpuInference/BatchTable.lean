import GpuInference.BatchProtocol
import Mathlib.Algebra.Order.Group.Multiset
import Mathlib.Algebra.Group.Prod

/-!
The batch callers on the table of statuses. A job that has been moved to running is claimed by the
one thread that moved it, until that thread marks it; a claim is never given out twice, so only the
claimant can end a running job, and everyone else can at most cancel it. What one call can do to the
table is said once, and the rest is derived from it.
-/

open Effect

namespace GpuInference

/-- What a call does to the table of statuses; a call that raises does nothing to it. -/
def tableExec : Exec BatchOp BatchOp.Res PyExc JobTable := fun op table answer table' =>
  match op, answer with
  | .create _ _ _, .ok record => table.Creates record table'
  | .get jobId, .ok record => table.Shows jobId record ∧ table' = table
  | .transition jobId target, .ok record => table.Moves jobId target record table'
  | .markSucceeded jobId _ _, .ok record => table.Marks jobId .succeeded record table'
  | .markFailed jobId _ _, .ok record => table.Marks jobId .failed record table'
  | _, _ => table' = table

/-- From one table to the next every job is created queued, stays or moves along an allowed
transition, and a running job is ended by the thread that holds it or cancelled. -/
def JobTable.Steps (φ : Progress) (table table' : JobTable) : Prop :=
  ∀ jobId, Effect.Moves (fun x y => canTransition x y = true) .queued (table jobId) (table' jobId) ∧
    (table jobId = some .running →
      table' jobId = some .running ∨ table' jobId = some .cancelled ∨ φ.holds jobId)

/-- What a cancellation knows of its job. -/
def CancelStage.Sound (table : JobTable) : CancelStage → Prop
  | none => True
  | found jobId => table jobId ≠ Option.none
  | refused jobId => ∃ status, table jobId = some status ∧ status.terminal = true
  | closed jobId record =>
      record.id = jobId ∧ record.status.terminal = true ∧ table jobId = some record.status

/-- What the progress of a thread says about the table. -/
structure Progress.Sound (table : JobTable) (φ : Progress) : Prop where
  asked : φ.asked ≤ 1 ∧ (φ.asked ≠ 0 → φ.moved = true)
  moved : φ.moved = true → φ.taken ≠ none
  marked : φ.marked = true → φ.moved = true
  holds : ∀ jobId, φ.holds jobId → table jobId = some .running ∨ table jobId = some .cancelled
  cancel : φ.cancel.Sound table

theorem Progress.sound_start (table : JobTable) : Progress.start.Sound table where
  asked := ⟨Nat.zero_le 1, fun h => absurd rfl h⟩
  moved h := by cases h
  marked h := by cases h
  holds jobId h := by cases h.1
  cancel := trivial

namespace JobTable

theorem steps_refl (φ : Progress) (table : JobTable) : table.Steps φ table := by
  intro jobId
  refine ⟨?_, fun h => .inl h⟩
  cases table jobId with
  | none => exact trivial
  | some status => exact .inl rfl

/-- A job that moves along an allowed transition, under the one condition on running jobs. -/
theorem steps_set {φ : Progress} {table : JobTable} {jobId : String} {status target : JobStatus}
    (hstatus : table jobId = some status) (hcan : canTransition status target = true)
    (hrunning : status = .running → target = .cancelled ∨ φ.holds jobId) :
    table.Steps φ (table.set jobId target) := by
  intro other
  by_cases hother : other = jobId
  · subst hother
    rw [set_self, hstatus]
    refine ⟨.inr hcan, ?_⟩
    intro hrun
    rcases hrunning (Option.some.inj hrun) with rfl | hholds
    · exact .inr (.inl rfl)
    · exact .inr (.inr hholds)
  · rw [set_other _ hother]
    exact steps_refl φ table other

theorem steps_creates {φ : Progress} {table table' : JobTable} {record : BatchJobRecord}
    (h : table.Creates record table') : table.Steps φ table' := by
  obtain ⟨hnone, -, rfl⟩ := h
  intro other
  by_cases hother : other = record.id
  · subst hother
    rw [set_self, hnone]
    exact ⟨rfl, nofun⟩
  · rw [set_other _ hother]
    exact steps_refl φ table other

theorem steps_moves {φ : Progress} {table table' : JobTable} {jobId : String} {target : JobStatus}
    {record : Option BatchJobRecord} (h : table.Moves jobId target record table')
    (htarget : target = .running ∨ target = .cancelled) : table.Steps φ table' := by
  cases record with
  | none =>
      rw [h.1]
      exact steps_refl φ table
  | some record =>
      obtain ⟨⟨status, hstatus, hcan⟩, -, -, rfl⟩ := h
      refine steps_set hstatus hcan ?_
      rintro rfl
      rcases htarget with rfl | rfl
      · cases hcan
      · exact .inl rfl

/-- Marking is left to the thread that holds the job, so the job is running unless it was cancelled. -/
theorem steps_marks {φ : Progress} {table table' : JobTable} {jobId : String} {target : JobStatus}
    {record : Option BatchJobRecord} (h : table.Marks jobId target record table')
    (hholds : φ.holds jobId) (hsound : φ.Sound table)
    (htarget : target = .succeeded ∨ target = .failed) : table.Steps φ table' := by
  cases record with
  | none =>
      rw [h.1]
      exact steps_refl φ table
  | some record =>
      obtain ⟨⟨status, hstatus, hlive⟩, -, -, rfl⟩ := h
      have hrunning : status = .running := by
        rcases hsound.holds jobId hholds with hrun | hcancelled
        · exact Option.some.inj (hstatus.symm.trans hrun)
        · exact absurd (Option.some.inj (hstatus.symm.trans hcancelled)) hlive
      subst hrunning
      refine steps_set hstatus ?_ fun _ => .inr hholds
      rcases htarget with rfl | rfl
      · rfl
      · rfl

/-- **What one call can do.** -/
theorem steps_of_exec {φ : Progress} {table table' : JobTable} {op : BatchOp}
    {answer : Except PyExc op.Res} (hsound : φ.Sound table) (hmay : batchProtocol.may φ op)
    (h : tableExec op table answer table') : table.Steps φ table' := by
  have hkeep : table' = table → table.Steps φ table' := by
    rintro rfl
    exact steps_refl φ table'
  rcases answer with exc | value
  · cases op <;> exact hkeep h
  · cases op
    case create => exact steps_creates h
    case get => exact hkeep h.2
    case transition jobId target =>
      cases target
      case running => exact steps_moves h (.inl rfl)
      case cancelled => exact steps_moves h (.inr rfl)
      all_goals exact hmay.elim
    case markSucceeded => exact steps_marks h hmay hsound (.inl rfl)
    case markFailed => exact steps_marks h hmay hsound (.inr rfl)
    all_goals exact hkeep h

/-- A terminal status stays. -/
theorem steps_terminal {φ : Progress} {table table' : JobTable} (h : table.Steps φ table')
    {jobId : String} {status : JobStatus} (hstatus : table jobId = some status)
    (hterminal : status.terminal = true) : table' jobId = some status := by
  have hmoves := (h jobId).1
  rw [hstatus] at hmoves
  cases htable' : table' jobId with
  | none => rw [htable'] at hmoves; exact hmoves.elim
  | some status' =>
      rw [htable'] at hmoves
      rcases hmoves with rfl | hcan
      · rfl
      · rw [canTransition_of_terminal hterminal] at hcan
        cases hcan

theorem steps_present {φ : Progress} {table table' : JobTable} (h : table.Steps φ table')
    {jobId : String} (hpresent : table jobId ≠ none) : table' jobId ≠ none := by
  intro hnone
  have hmoves := (h jobId).1
  rw [hnone] at hmoves
  cases htable : table jobId with
  | none => exact hpresent htable
  | some status => rw [htable] at hmoves; exact hmoves

end JobTable

theorem CancelStage.Sound.steps {stage : CancelStage} {φ : Progress} {table table' : JobTable}
    (h : stage.Sound table) (hsteps : table.Steps φ table') : stage.Sound table' := by
  cases stage with
  | none => exact trivial
  | found jobId => exact JobTable.steps_present hsteps h
  | refused jobId =>
      obtain ⟨status, hstatus, hterminal⟩ := h
      exact ⟨status, JobTable.steps_terminal hsteps hstatus hterminal, hterminal⟩
  | closed jobId record =>
      obtain ⟨hid, hterminal, hstatus⟩ := h
      exact ⟨hid, hterminal, JobTable.steps_terminal hsteps hstatus hterminal⟩

/-- A step of one thread leaves true what the progress of another one says, as long as they do not
hold the same job. -/
theorem Progress.Sound.frame {φ ψ : Progress} {table table' : JobTable} (h : ψ.Sound table)
    (hsteps : table.Steps φ table') (hexclusive : ∀ jobId, φ.holds jobId → ¬ ψ.holds jobId) :
    ψ.Sound table' where
  asked := h.asked
  moved := h.moved
  marked := h.marked
  holds jobId hholds := by
    rcases h.holds jobId hholds with hrun | hcancelled
    · rcases (hsteps jobId).2 hrun with hrun' | hcancelled | hother
      · exact .inl hrun'
      · exact .inr hcancelled
      · exact absurd hholds (hexclusive jobId hother)
    · exact .inr (JobTable.steps_terminal hsteps hcancelled rfl)
  cancel := h.cancel.steps hsteps

/-- The job a thread has claimed: not marked yet, or marked. -/
def Progress.claims (φ : Progress) : Multiset String × Multiset String :=
  match φ.taken, φ.moved, φ.marked with
  | some jobId, true, false => ({jobId}, 0)
  | some jobId, true, true => (0, {jobId})
  | _, _, _ => 0

theorem claims_of_holds {φ : Progress} {jobId : String} (h : φ.holds jobId) :
    φ.claims = ({jobId}, 0) := by
  obtain ⟨htaken, hmoved, hmarked⟩ := h
  rw [Progress.claims, htaken, hmoved, hmarked]

theorem claims_of_unmoved {φ : Progress} (h : φ.moved = false) : φ.claims = 0 := by
  rw [Progress.claims, h]
  cases φ.taken with
  | none => rfl
  | some jobId => rfl

theorem holds_of_claims {φ : Progress} {jobId : String} (h : jobId ∈ φ.claims.1) : φ.holds jobId := by
  obtain ⟨taken, moved, marked, asked, cancel⟩ := φ
  cases taken with
  | none => cases h
  | some other =>
      cases moved
      case false => cases h
      case true =>
        cases marked
        case false =>
          obtain rfl := Multiset.mem_singleton.mp h
          exact ⟨rfl, rfl, rfl⟩
        case true => cases h

/-- No job is claimed twice, a claimed job is no longer queued, and a running job is claimed and not
marked yet. -/
structure JobTable.Backs (table : JobTable) (claims : Multiset String × Multiset String) : Prop where
  nodup : (claims.1 + claims.2).Nodup
  claimed : ∀ jobId ∈ claims.1 + claims.2, table jobId ≠ none ∧ table jobId ≠ some .queued
  running : ∀ jobId, table jobId = some .running → jobId ∈ claims.1

namespace JobTable.Backs

variable {table : JobTable} {φ ψ : Progress} {m : Multiset String × Multiset String} {jobId : String}

/-- Two threads never hold the same job. -/
theorem exclusive (h : table.Backs (φ.claims + (ψ.claims + m))) (hφ : φ.holds jobId) :
    ¬ ψ.holds jobId := by
  intro hψ
  have hnodup := h.nodup
  rw [claims_of_holds hφ, claims_of_holds hψ] at hnodup
  have hcount := Multiset.nodup_iff_count_le_one.mp hnodup jobId
  simp only [Prod.fst_add, Prod.snd_add, Multiset.count_add, Multiset.count_singleton_self] at hcount
  omega

theorem creates {claims : Multiset String × Multiset String} (h : table.Backs claims)
    {record : BatchJobRecord} {table' : JobTable} (hcreates : table.Creates record table') :
    table'.Backs claims := by
  obtain ⟨hnone, -, rfl⟩ := hcreates
  refine ⟨h.nodup, ?_, ?_⟩
  · intro jobId hjob
    have hne : jobId ≠ record.id := by
      rintro rfl
      exact (h.claimed _ hjob).1 hnone
    rw [set_other _ hne]
    exact h.claimed jobId hjob
  · intro jobId hrunning
    by_cases hne : jobId = record.id
    · rw [hne, set_self] at hrunning
      cases hrunning
    · rw [set_other _ hne] at hrunning
      exact h.running jobId hrunning

/-- Moving a queued job to running claims it. -/
theorem moved (h : table.Backs m) (hqueued : table jobId = some .queued) :
    (table.set jobId .running).Backs (({jobId}, 0) + m) := by
  have hfresh : jobId ∉ m.1 + m.2 := fun hmem => (h.claimed jobId hmem).2 hqueued
  refine ⟨?_, ?_, ?_⟩
  · rw [Prod.fst_add, Prod.snd_add, zero_add, add_assoc, Multiset.singleton_add, Multiset.nodup_cons]
    exact ⟨hfresh, h.nodup⟩
  · intro other hother
    by_cases hne : other = jobId
    · rw [hne, set_self]
      exact ⟨nofun, nofun⟩
    · rw [Prod.fst_add, Prod.snd_add, zero_add, add_assoc, Multiset.singleton_add,
        Multiset.mem_cons] at hother
      rw [set_other _ hne]
      exact h.claimed other (hother.resolve_left hne)
  · intro other hrunning
    rw [Prod.fst_add, Multiset.singleton_add, Multiset.mem_cons]
    by_cases hne : other = jobId
    · exact .inl hne
    · rw [set_other _ hne] at hrunning
      exact .inr (h.running other hrunning)

/-- A job that reaches a terminal status without its claim being touched. -/
theorem closed {claims : Multiset String × Multiset String} (h : table.Backs claims)
    {target : JobStatus} (hterminal : target.terminal = true) : (table.set jobId target).Backs claims := by
  refine ⟨h.nodup, ?_, ?_⟩
  · intro other hother
    by_cases hne : other = jobId
    · rw [hne, set_self]
      refine ⟨nofun, ?_⟩
      rintro hqueued
      cases hqueued
      cases hterminal
    · rw [set_other _ hne]
      exact h.claimed other hother
  · intro other hrunning
    by_cases hne : other = jobId
    · rw [hne, set_self] at hrunning
      cases hrunning
      cases hterminal
    · rw [set_other _ hne] at hrunning
      exact h.running other hrunning

/-- A claim on a job that is no longer running may be settled. -/
theorem settled (h : table.Backs (({jobId}, 0) + m)) (hended : table jobId ≠ some .running) :
    table.Backs ((0, {jobId}) + m) := by
  have hsame : ({jobId} + m.1) + (0 + m.2) = (0 + m.1) + ({jobId} + m.2) := by
    rw [zero_add, zero_add, add_assoc, add_left_comm]
  obtain ⟨hnodup, hclaimed, hrunning⟩ := h
  simp only [Prod.fst_add, Prod.snd_add, hsame] at hnodup hclaimed
  refine ⟨hnodup, hclaimed, ?_⟩
  intro other hother
  have hmem := hrunning other hother
  rw [Prod.fst_add, Multiset.singleton_add, Multiset.mem_cons] at hmem
  rw [Prod.fst_add, zero_add]
  refine hmem.resolve_left ?_
  rintro rfl
  exact hended hother

end JobTable.Backs

/-- The table backs the claims of a thread and of the others, and bears out what the thread knows. -/
def Progress.Stands (table : JobTable) (φ : Progress) (m : Multiset String × Multiset String) : Prop :=
  table.Backs (φ.claims + m) ∧ φ.Sound table

section Call

variable {table table' : JobTable} {φ : Progress} {m : Multiset String × Multiset String} {jobId : String}

theorem stands_dequeue (h : φ.Stands table m) (htaken : φ.taken = none) :
    ({ φ with taken := some jobId } : Progress).Stands table m := by
  obtain ⟨hbacks, hsound⟩ := h
  have hmoved : φ.moved = false := by
    by_contra hmoved
    exact hsound.moved (by simpa using hmoved) htaken
  have hclaims : ({ φ with taken := some jobId } : Progress).claims = 0 := claims_of_unmoved hmoved
  refine ⟨?_, hsound.asked, fun _ => nofun, hsound.marked, ?_, hsound.cancel⟩
  · rw [hclaims, ← claims_of_unmoved hmoved]
    exact hbacks
  · rintro other ⟨-, hholds, -⟩
    rw [hmoved] at hholds
    cases hholds

theorem stands_create (h : φ.Stands table m) {record : BatchJobRecord}
    (hcreates : table.Creates record table') : φ.Stands table' m := by
  obtain ⟨hbacks, hsound⟩ := h
  have hsteps : table.Steps φ table' := JobTable.steps_creates hcreates
  refine ⟨hbacks.creates hcreates, hsound.asked, hsound.moved, hsound.marked, ?_,
    hsound.cancel.steps hsteps⟩
  intro jobId hholds
  have hother : jobId ≠ record.id := by
    rintro rfl
    rcases hsound.holds _ hholds with hrun | hcancelled
    · rw [hcreates.1] at hrun
      cases hrun
    · rw [hcreates.1] at hcancelled
      cases hcancelled
  rw [hcreates.2.2, JobTable.set_other _ hother]
  exact hsound.holds jobId hholds

theorem stands_see (h : φ.Stands table m) (hsee : ∀ other, φ.cancel = .refused other → other = jobId)
    {record : BatchJobRecord} (hshows : table.Shows jobId (some record)) :
    ({ φ with cancel := φ.cancel.see jobId record } : Progress).Stands table m := by
  obtain ⟨hbacks, hsound⟩ := h
  refine ⟨hbacks, hsound.asked, hsound.moved, hsound.marked, hsound.holds, ?_⟩
  have hstatus : table jobId = some record.status := hshows.1.symm
  have hid : record.id = jobId := hshows.2 record rfl
  have hfresh : CancelStage.Sound table (if record.status.terminal then .closed jobId record
      else .found jobId) := by
    split
    · exact ⟨hid, by assumption, hstatus⟩
    · exact ne_of_eq_of_ne hstatus nofun
  have hcancel := hsound.cancel
  unfold CancelStage.see
  simp only
  cases hstage : φ.cancel with
  | none => exact hfresh
  | found other => exact hfresh
  | closed other record' => exact hfresh
  | refused other =>
      rw [hstage] at hcancel
      obtain ⟨status, hterminal⟩ := hcancel
      have hother := hsee other hstage
      subst hother
      rw [hstatus] at hterminal
      obtain ⟨hsame, hterminal⟩ := hterminal
      cases hsame
      exact ⟨hid, hterminal, hstatus⟩

theorem stands_running (h : φ.Stands table m) (hmay : φ.taken = some jobId ∧ φ.moved = false)
    {record : BatchJobRecord} (hmoves : table.Moves jobId .running (some record) table') :
    ({ φ with moved := true } : Progress).Stands table' m := by
  obtain ⟨hbacks, hsound⟩ := h
  obtain ⟨htaken, hmoved⟩ := hmay
  have hsteps : table.Steps φ table' := JobTable.steps_moves hmoves (.inl rfl)
  have hmarked : φ.marked = false := by
    by_contra hmarked
    rw [hsound.marked (by simpa using hmarked)] at hmoved
    cases hmoved
  obtain ⟨⟨status, hstatus, hcan⟩, -, -, rfl⟩ := hmoves
  rw [canTransition_running] at hcan
  rw [claims_of_unmoved hmoved, zero_add] at hbacks
  have hholds : ({ φ with moved := true } : Progress).holds jobId := ⟨htaken, rfl, hmarked⟩
  refine ⟨?_, ⟨hsound.asked.1, fun _ => rfl⟩, fun _ => ?_, fun _ => rfl, ?_, hsound.cancel.steps hsteps⟩
  · rw [claims_of_holds hholds]
    exact hbacks.moved (hcan ▸ hstatus)
  · rw [htaken]
    exact nofun
  · rintro other ⟨hother, -, -⟩
    have hsame : jobId = other := Option.some.inj (htaken.symm.trans hother)
    rw [← hsame, JobTable.set_self]
    exact .inl rfl

theorem stands_cancelled (h : φ.Stands table m) {record : BatchJobRecord}
    (hmoves : table.Moves jobId .cancelled (some record) table') :
    ({ φ with cancel := .closed jobId record } : Progress).Stands table' m := by
  obtain ⟨hbacks, hsound⟩ := h
  obtain ⟨-, hid, hstatus, rfl⟩ := hmoves
  refine ⟨hbacks.closed rfl, hsound.asked, hsound.moved, hsound.marked, ?_, hid, ?_, ?_⟩
  · intro other hholds
    by_cases hother : other = jobId
    · rw [hother, JobTable.set_self]
      exact .inr rfl
    · rw [JobTable.set_other _ hother]
      exact hsound.holds other hholds
  · rw [hstatus]
    rfl
  · rw [JobTable.set_self, hstatus]

theorem stands_refused (h : φ.Stands table m) (hfound : φ.cancel = .found jobId)
    (hmoves : table.Moves jobId .cancelled none table') :
    ({ φ with cancel := .refused jobId } : Progress).Stands table' m := by
  obtain ⟨hbacks, hsound⟩ := h
  obtain ⟨rfl, hrefused⟩ := hmoves
  refine ⟨hbacks, hsound.asked, hsound.moved, hsound.marked, hsound.holds, ?_⟩
  have hcancel := hsound.cancel
  rw [hfound] at hcancel
  obtain ⟨status, hstatus⟩ := Option.ne_none_iff_exists'.mp hcancel
  refine ⟨status, hstatus, ?_⟩
  by_contra hlive
  have hcan := canTransition_cancelled (by simpa using hlive : status.terminal = false)
  rw [hrefused status hstatus] at hcan
  cases hcan

theorem stands_marked (h : φ.Stands table m) (hholds : φ.holds jobId) {target : JobStatus}
    {record : Option BatchJobRecord} (hmarks : table.Marks jobId target record table')
    (htarget : target = .succeeded ∨ target = .failed) :
    ({ φ with marked := true } : Progress).Stands table' m := by
  obtain ⟨hbacks, hsound⟩ := h
  have hsteps : table.Steps φ table' := JobTable.steps_marks hmarks hholds hsound htarget
  have hclaims : ({ φ with marked := true } : Progress).claims = (0, {jobId}) := by
    rw [Progress.claims, hholds.1, hholds.2.1]
  refine ⟨?_, hsound.asked, hsound.moved, fun _ => hholds.2.1, ?_, hsound.cancel.steps hsteps⟩
  · rw [hclaims]
    rw [claims_of_holds hholds] at hbacks
    have hterminal : target.terminal = true := by
      rcases htarget with rfl | rfl
      · rfl
      · rfl
    cases record with
    | none =>
        obtain ⟨rfl, hcancelled⟩ := hmarks
        refine hbacks.settled fun hrunning => ?_
        cases hcancelled _ hrunning
    | some record =>
        obtain ⟨-, -, -, rfl⟩ := hmarks
        refine (hbacks.closed hterminal).settled fun hrunning => ?_
        rw [JobTable.set_self] at hrunning
        cases hrunning
        cases hterminal
  · rintro other ⟨-, -, hmarked⟩
    cases hmarked

theorem stands_asked (h : φ.Stands table m)
    (hmay : φ.moved = true ∧ φ.marked = false ∧ φ.asked = 0) :
    ({ φ with asked := φ.asked + 1 } : Progress).Stands table m := by
  obtain ⟨hbacks, hsound⟩ := h
  refine ⟨hbacks, ⟨?_, fun _ => hmay.1⟩, hsound.moved, hsound.marked, hsound.holds, hsound.cancel⟩
  rw [hmay.2.2]

/-- **One call of one thread** keeps the claims backed and its own knowledge sound. -/
theorem stands_call {op : BatchOp} {answer : Except PyExc op.Res} (h : φ.Stands table m)
    (hmay : batchProtocol.may φ op) (hexec : tableExec op table answer table') :
    (φ.after op answer).Stands table' m := by
  have hkeep : table' = table → φ.Stands table' m := by
    rintro rfl
    exact h
  rcases answer with exc | value
  · cases op
    case createChatCompletion =>
      obtain rfl : table' = table := hexec
      exact stands_asked h hmay
    case transition jobId target => cases target <;> exact hkeep hexec
    all_goals exact hkeep hexec
  · cases op
    case create => exact stands_create h hexec
    case dequeue =>
      cases value with
      | none => exact hkeep hexec
      | some jobId =>
          obtain rfl : table' = table := hexec
          exact stands_dequeue h hmay
    case get jobId =>
      obtain ⟨hshows, rfl⟩ := hexec
      cases value with
      | none => exact h
      | some record => exact stands_see h hmay hshows
    case transition jobId target =>
      cases target
      case running =>
        cases value with
        | none => exact hkeep hexec.1
        | some record => exact stands_running h hmay hexec
      case cancelled =>
        cases value with
        | none => exact stands_refused h hmay hexec
        | some record => exact stands_cancelled h hexec
      all_goals exact hmay.elim
    case markSucceeded => exact stands_marked h hmay hexec (.inl rfl)
    case markFailed => exact stands_marked h hmay hexec (.inr rfl)
    case createChatCompletion =>
      obtain rfl : table' = table := hexec
      exact stands_asked h hmay
    all_goals exact hkeep hexec

end Call

/-- The claims and the knowledge of all threads, call by call. -/
theorem tableExec_justified :
    Justified tableExec batchProtocol Progress.start Progress.claims JobTable.Backs
      (fun table φ => φ.Sound table) where
  start := ⟨rfl, Progress.sound_start⟩
  call _ _ _ _ _ _ hbacks hsound hmay hexec := stands_call ⟨hbacks, hsound⟩ hmay hexec
  frame _ _ _ _ _ _ _ hbacks hφ hψ hmay hexec :=
    hψ.frame (JobTable.steps_of_exec hφ hmay hexec) fun _ => hbacks.exclusive

end GpuInference

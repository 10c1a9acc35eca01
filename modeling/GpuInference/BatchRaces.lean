import GpuInference.PostgresStore
import Mathlib.Algebra.Order.Group.Multiset

/-!
Concurrent calls of the Postgres store. A call reads the row of its job without a lock, decides, and
writes the changed columns by primary key; its write is committed with the call. Between the read and
the write other calls may commit. As long as every write finds a status that its decision still
allows, the calls linearize; a write that comes too late overwrites a status it has not seen.
-/

open Effect

namespace GpuInference

/-- What a call of the store returns. -/
inductive PgOutcome where
  | transitioned (jobId : String) (target : JobStatus) (record : Option BatchJobRecord)
  | marked (jobId : String) (record : Option BatchJobRecord)

/-- The calls that change a status. -/
inductive PgCaller : DbProgram PgOutcome → Prop
  | transition (jobId : String) (target : JobStatus) :
      PgCaller ((PostgresBatchJobStore.transitionBody jobId target).bind fun record =>
        .ret (.transitioned jobId target record))
  | markSucceeded (jobId : String) (result usage : JsonObject) :
      PgCaller ((PostgresBatchJobStore.markSucceededBody jobId result usage).bind fun record =>
        .ret (.marked jobId record))
  | markFailed (jobId : String) (errorCode : Option String) (errorMessage : String) :
      PgCaller ((PostgresBatchJobStore.markFailedBody jobId errorCode errorMessage).bind fun record =>
        .ret (.marked jobId record))

abbrev PgThread := Thread DbOp DbOp.Res PyExc PgOutcome

/-- The call `transition(job, running)` has returned a record. -/
def PgThread.runs (jobId : String) (t : PgThread) : Bool :=
  match t.program with
  | .ret (.transitioned other .running (some _)) => other = jobId
  | _ => false

/-- At most one call gets a job to run, and a terminal status that has been committed stays. -/
def Linearizes (sys : System Db PgThread) (db : Db) : Prop :=
  ∀ pool, sys.Reachable db pool → ∀ jobId,
    pool.threads.countP (PgThread.runs jobId) ≤ 1 ∧
    ∀ status ∈ Db.status pool.shared jobId, status.terminal = true →
      ∀ later, Relation.ReflTransGen sys.Step pool later → Db.status later.shared jobId = some status

/-- The condition on a write: its row is not settled yet, unless the write leaves the status or
writes the very same; and a write of `running` finds the job still queued. -/
def StillValid (db : Db) : DbOp → Prop
  | .flush .batchJobs loaded changed => ∀ stored, (db .batchJobs).find loaded.id = some stored →
      (changed.status = loaded.status ∨ stored.status.terminal = false ∨
        stored.status = changed.status) ∧
      (changed.status = .running → stored.status = .queued)
  | _ => True

/-- Where a call stands: nothing read yet, the row of its job read, its job moved to running, or
another status written. -/
inductive RacePhase where
  | start
  | loaded (jobId : String) (job : BatchJob)
  | moved (jobId : String)
  | written

namespace RacePhase

def after (φ : RacePhase) : (op : DbOp) → Except PyExc op.Res → RacePhase
  | .get .batchJobs jobId, .ok (some job) => loaded jobId job
  | .flush .batchJobs _ changed, .ok _ =>
      match φ with
      | loaded jobId _ => if changed.status = .running then moved jobId else written
      | _ => φ
  | _, _ => φ

def claims : RacePhase → Multiset String
  | moved jobId => {jobId}
  | _ => 0

@[simp] theorem claims_loaded (jobId : String) (job : BatchJob) : (loaded jobId job).claims = 0 := rfl

@[simp] theorem claims_written : written.claims = 0 := rfl

/-- The row that was read is the row of the job that was asked for. -/
def Sound : RacePhase → Prop
  | loaded jobId job => job.id = jobId
  | _ => True

end RacePhase

def raceProtocol : Protocol DbOp DbOp.Res PyExc RacePhase where
  may φ
    | .get .batchJobs _ => φ = .start
    | .flush .batchJobs job changed => ∃ jobId, φ = .loaded jobId job ∧ changed.id = job.id ∧
        changed.status ≠ .queued ∧ (changed.status = .running → job.status ≠ .running)
    | .utcNow => True
    | .utcNowIso => True
    | _ => False
  after := RacePhase.after

def raceDone (φ : RacePhase) : Except PyExc PgOutcome → Prop
  | .ok (.transitioned jobId .running (some _)) => φ = .moved jobId
  | _ => True

/-- The end of a call: nothing was written, or what was written is returned. -/
def wroteDone (jobId : String) (target : JobStatus) (φ : RacePhase) :
    Except PyExc (Option BatchJobRecord) → Prop
  | .ok (some _) => φ = if target = .running then .moved jobId else .written
  | _ => True

/-- Every call reads the row of its job once and writes it at most once. -/
theorem follows_transitionBody (jobId : String) (target : JobStatus) :
    (PostgresBatchJobStore.transitionBody jobId target).Follows raceProtocol (wroteDone jobId target)
      .start := by
  refine Program.follows_perform_bind rfl (fun _ => trivial) ?_
  rintro (none | job)
  · exact trivial
  · simp only
    by_cases hcan : canTransition job.status target = true
    · have hqueued : target ≠ .queued := by
        rintro rfl
        revert hcan
        cases job.status <;> decide
      rw [if_pos hcan, BatchJobRepository.updateStatus, Program.bind_eq, Program.bind_eq,
        Program.bind_assoc]
      refine Program.follows_perform_bind trivial (fun _ => trivial) fun updatedAt => ?_
      refine Program.follows_perform_bind ⟨jobId, rfl, rfl, hqueued, ?_⟩ (fun _ => trivial) fun row => rfl
      rintro rfl hrunning
      rw [hrunning] at hcan
      cases hcan
    · rw [if_neg hcan]
      exact trivial

/-- A mark writes the row it has loaded, with a final status. -/
theorem follows_mark (jobId : String) (marked : BatchJob → String → DateTime → BatchJob)
    (hmarked : ∀ job completedAt updatedAt, (marked job completedAt updatedAt).id = job.id ∧
      (marked job completedAt updatedAt).status ≠ .queued ∧
      (marked job completedAt updatedAt).status ≠ .running) :
    Program.Follows raceProtocol (fun _ _ => True) .start
      ((BatchJobRepository.get jobId).bind fun
        | none => .ret none
        | some job => if job.status = .cancelled then .ret none
            else (do
              let completedAt ← dbCall .utcNowIso
              let updatedAt ← dbCall .utcNow
              dbCall (.flush .batchJobs job (marked job completedAt updatedAt)) : DbProgram BatchJob).bind
                fun row => .ret (some (recordFromModel row))) := by
  refine Program.follows_perform_bind rfl (fun _ => trivial) ?_
  rintro (none | job)
  · exact trivial
  · simp only
    by_cases hcancelled : job.status = .cancelled
    · rw [if_pos hcancelled]
      exact trivial
    · simp only [if_neg hcancelled, Program.bind_eq, Program.bind_assoc]
      refine Program.follows_perform_bind trivial (fun _ => trivial) fun completedAt => ?_
      refine Program.follows_perform_bind trivial (fun _ => trivial) fun updatedAt => ?_
      obtain ⟨hid, hqueued, hrunning⟩ := hmarked job completedAt updatedAt
      exact Program.follows_perform_bind ⟨jobId, rfl, hid, hqueued, fun h => absurd h hrunning⟩
        (fun _ => trivial) fun row => trivial

theorem follows_markSucceededBody (jobId : String) (result usage : JsonObject) :
    (PostgresBatchJobStore.markSucceededBody jobId result usage).Follows raceProtocol (fun _ _ => True)
      .start :=
  follows_mark jobId (fun job => BatchJobRepository.withSuccess job result usage)
    fun _ _ _ => ⟨rfl, nofun, nofun⟩

theorem follows_markFailedBody (jobId : String) (errorCode : Option String) (errorMessage : String) :
    (PostgresBatchJobStore.markFailedBody jobId errorCode errorMessage).Follows raceProtocol
      (fun _ _ => True) .start :=
  follows_mark jobId (fun job => BatchJobRepository.withFailure job errorCode errorMessage)
    fun _ _ _ => ⟨rfl, nofun, nofun⟩

theorem follows_pgCaller {program : DbProgram PgOutcome} (h : PgCaller program) :
    program.Follows raceProtocol raceDone .start := by
  cases h with
  | transition jobId target =>
      rw [Program.follows_bind]
      refine (follows_transitionBody jobId target).mono ?_
      rintro φ (exc | none | record) hdone
      · exact trivial
      · cases target <;> exact trivial
      · cases target
        case running => exact hdone
        all_goals exact trivial
  | markSucceeded jobId result usage =>
      rw [Program.follows_bind]
      refine (follows_markSucceededBody jobId result usage).mono ?_
      rintro φ (exc | record) _
      · exact trivial
      · exact trivial
  | markFailed jobId errorCode errorMessage =>
      rw [Program.follows_bind]
      refine (follows_markFailedBody jobId errorCode errorMessage).mono ?_
      rintro φ (exc | record) _
      · exact trivial
      · exact trivial

/-- A late write that is still valid keeps a terminal status. -/
theorem terminal_flush {loaded changed stored : BatchJob}
    (hvalid : changed.status = loaded.status ∨ stored.status.terminal = false ∨
      stored.status = changed.status) (hterminal : stored.status.terminal = true) :
    TableColumn.plain.flush loaded.status changed.status stored.status = stored.status := by
  unfold TableColumn.flush
  split
  · rfl
  · rename_i hne
    rcases hvalid with hsame | hlive | hsame
    · exact absurd hsame hne
    · rw [hterminal] at hlive
      cases hlive
    · exact hsame.symm

/-- A valid write leaves every final status where it is, that of its own job and of the others. -/
theorem status_flush_of_terminal {db db' : Db} {loaded changed row : BatchJob} {jobId : String}
    {status : JobStatus} (hvalid : StillValid db (.flush .batchJobs loaded changed))
    (hexec : pgExec (.flush .batchJobs loaded changed) db (.ok row) db')
    (hstatus : Db.status db jobId = some status) (hterminal : status.terminal = true) :
    Db.status db' jobId = some status := by
  obtain ⟨stored, hstored, hafter⟩ := status_flush hexec
  rw [hafter]
  by_cases hwritten : jobId = loaded.id
  · have hsame : stored.status = status := by
      rw [Db.status, hwritten, hstored] at hstatus
      exact Option.some.inj hstatus
    rw [if_pos hwritten, ← hsame, terminal_flush (hvalid stored hstored).1 (hsame ▸ hterminal)]
  · rw [if_neg hwritten]
    exact hstatus

/-- Jobs that were moved to running: none twice, and none that is queued. -/
structure Db.Backs (db : Db) (claims : Multiset String) : Prop where
  nodup : claims.Nodup
  claimed : ∀ jobId ∈ claims, Db.status db jobId ≠ some .queued

/-- A valid write of the status of one job. -/
theorem backs_flush {db db' : Db} {loaded changed row : BatchJob} {claims : Multiset String}
    (hbacks : db.Backs claims) (hvalid : StillValid db (.flush .batchJobs loaded changed))
    (hqueued : changed.status ≠ .queued) (hnew : changed.status = .running → loaded.status ≠ .running)
    (hexec : pgExec (.flush .batchJobs loaded changed) db (.ok row) db') :
    db'.Backs (if changed.status = .running then loaded.id ::ₘ claims else claims) := by
  obtain ⟨stored, hstored, hstatus⟩ := status_flush hexec
  have hrunning := (hvalid stored hstored).2
  have hold : Db.status db loaded.id = some stored.status := by
    rw [Db.status, hstored]
    rfl
  have hkept : ∀ jobId, Db.status db jobId ≠ some .queued → Db.status db' jobId ≠ some .queued := by
    intro jobId hjob
    rw [hstatus]
    by_cases hsame : jobId = loaded.id
    · rw [if_pos hsame, TableColumn.flush]
      rw [hsame, hold] at hjob
      split
      · exact hjob
      · exact fun h => hqueued (Option.some.inj h)
    · rw [if_neg hsame]
      exact hjob
  by_cases hrun : changed.status = .running
  · rw [if_pos hrun]
    have hfresh : loaded.id ∉ claims := by
      intro hmem
      apply hbacks.claimed _ hmem
      rw [hold, hrunning hrun]
    refine ⟨Multiset.nodup_cons.mpr ⟨hfresh, hbacks.nodup⟩, ?_⟩
    intro jobId hjob
    rcases Multiset.mem_cons.mp hjob with rfl | hmem
    · have hwritten : changed.status ≠ loaded.status := fun h => hnew hrun (h ▸ hrun)
      rw [hstatus, if_pos rfl, TableColumn.flush, if_neg hwritten, TableColumn.keeps_plain, hrun]
      intro h
      cases h
    · exact hkept jobId (hbacks.claimed jobId hmem)
  · rw [if_neg hrun]
    exact ⟨hbacks.nodup, fun jobId hjob => hkept jobId (hbacks.claimed jobId hjob)⟩

/-- What one call does, if it is a valid one: nothing to the rows, or a write of one job. -/
theorem race_call {db db' : Db} {op : DbOp} {answer : Except PyExc op.Res} {φ : RacePhase}
    {claims : Multiset String} (hbacks : db.Backs (φ.claims + claims)) (hsound : φ.Sound)
    (hmay : raceProtocol.may φ op) (hexec : pgExec.restrict StillValid op db answer db') :
    db'.Backs ((φ.after op answer).claims + claims) ∧ (φ.after op answer).Sound ∧
      ∀ jobId, ∀ status ∈ Db.status db jobId, status.terminal = true →
        Db.status db' jobId = some status := by
  obtain ⟨hvalid, hexec⟩ := hexec
  have hkeep : db' = db → φ.after op answer = φ → db'.Backs ((φ.after op answer).claims + claims) ∧
      (φ.after op answer).Sound ∧ ∀ jobId, ∀ status ∈ Db.status db jobId, status.terminal = true →
        Db.status db' jobId = some status := by
    rintro rfl hφ
    rw [hφ]
    exact ⟨hbacks, hsound, fun _ _ h _ => h⟩
  rcases answer with exc | value
  · refine hkeep hexec ?_
    cases op
    case get t id => cases t <;> rfl
    case flush t loaded changed => cases t <;> rfl
    all_goals rfl
  · cases op
    case utcNow => exact hkeep hexec rfl
    case utcNowIso => exact hkeep hexec rfl
    case get t id =>
      cases t
      case batchJobs =>
        obtain rfl : φ = .start := hmay
        obtain ⟨hreply, rfl⟩ := hexec
        cases value with
        | none => exact ⟨hbacks, hsound, fun _ _ h _ => h⟩
        | some job =>
            have hid : job.id = id := KeyedTable.key_of_find (Except.ok.inj hreply)
            exact ⟨hbacks, hid, fun _ _ h _ => h⟩
      all_goals exact hmay.elim
    case flush t loaded changed =>
      cases t
      case batchJobs =>
        obtain ⟨jobId, rfl, hid, hqueued, hnew⟩ := hmay
        have hloaded : loaded.id = jobId := hsound
        rw [RacePhase.claims_loaded, zero_add] at hbacks
        have hwrite := backs_flush hbacks hvalid hqueued hnew hexec
        refine ⟨?_, ?_, ?_⟩
        · simp only [RacePhase.after]
          by_cases hrun : changed.status = .running
          · rw [if_pos hrun, hloaded, ← Multiset.singleton_add] at hwrite
            rw [if_pos hrun]
            exact hwrite
          · rw [if_neg hrun] at hwrite
            rw [if_neg hrun, RacePhase.claims_written, zero_add]
            exact hwrite
        · simp only [RacePhase.after]
          split <;> exact trivial
        · exact fun _ _ hstatus hterminal => status_flush_of_terminal hvalid hexec hstatus hterminal
      all_goals exact hmay.elim
    all_goals exact hmay.elim

/-- The calls of the store, interleaved, on valid steps only. -/
def validRaces : System Db PgThread := callSystem (pgExec.restrict StillValid) PgCaller

theorem validRaces_accounts :
    System.Accounts validRaces (fun _ t => (raceProtocol.phase .start t.calls).claims) Db.Backs
      (Knows raceProtocol .start raceDone fun _ φ => φ.Sound) := by
  refine Justified.accounts ?_ fun _ hcaller => follows_pgCaller hcaller
  refine ⟨⟨rfl, fun _ => trivial⟩, ?_, ?_⟩
  · intro φ op db answer db' claims hbacks hsound hmay hexec
    obtain ⟨hbacks', hsound', -⟩ := race_call hbacks hsound hmay hexec
    exact ⟨hbacks', hsound'⟩
  · intro φ ψ op db answer db' claims _ _ hsound _ _
    exact hsound

theorem validRaces_accounted {db : Db} {pool : Pool Db PgThread} (h : validRaces.Reachable db pool) :
    pool.shared.Backs (pool.threads.map fun t => (raceProtocol.phase .start t.calls).claims).sum ∧
      ∀ t ∈ pool.threads, (raceProtocol.phase .start t.calls).Sound ∧
        t.program.Follows raceProtocol raceDone (raceProtocol.phase .start t.calls) :=
  validRaces_accounts.reachable ⟨Multiset.nodup_zero, nofun⟩ h

theorem terminal_step {db : Db} {pool pool' : Pool Db PgThread} (h : validRaces.Reachable db pool)
    (hstep : validRaces.Step pool pool') {jobId : String} {status : JobStatus}
    (hstatus : Db.status pool.shared jobId = some status) (hterminal : status.terminal = true) :
    Db.status pool'.shared jobId = some status := by
  obtain ⟨hbacks, hknows⟩ := validRaces_accounted h
  cases hstep with
  | start => exact hstatus
  | act left right hact =>
      rename_i t t'
      obtain ⟨hsound, hfollows⟩ := hknows t (by simp)
      rw [System.sum_middle] at hbacks
      cases hact with
      | call hexec =>
          obtain ⟨-, -, hkept⟩ := race_call hbacks hsound hfollows.1 hexec
          exact hkept jobId status hstatus hterminal
      | crash => exact hstatus
  | env henv => exact henv.elim

theorem terminal_run {db : Db} {pool later : Pool Db PgThread} (h : validRaces.Reachable db pool)
    (hlater : Relation.ReflTransGen validRaces.Step pool later) {jobId : String} {status : JobStatus}
    (hstatus : Db.status pool.shared jobId = some status) (hterminal : status.terminal = true) :
    Db.status later.shared jobId = some status := by
  induction hlater with
  | refl => exact hstatus
  | tail hsteps hstep ih => exact terminal_step (h.trans hsteps) hstep ih hterminal

/-- Every call that got the job to run has a claim on it. -/
theorem runs_le_claims (jobId : String) (threads : List PgThread)
    (h : ∀ t ∈ threads, t.program.Follows raceProtocol raceDone (raceProtocol.phase .start t.calls)) :
    threads.countP (PgThread.runs jobId) ≤
      (threads.map fun t => (raceProtocol.phase .start t.calls).claims).sum.count jobId := by
  induction threads with
  | nil => exact Nat.zero_le _
  | cons t threads ih =>
      have hrest := ih fun other hother => h other (by simp [hother])
      rw [List.map_cons, List.sum_cons, Multiset.count_add, List.countP_cons]
      by_cases hruns : PgThread.runs jobId t = true
      · have hfollows := h t (by simp)
        have hclaim : (raceProtocol.phase .start t.calls).claims = {jobId} := by
          unfold PgThread.runs at hruns
          split at hruns
          · rename_i other record hprogram
            rw [hprogram] at hfollows
            have hmoved : raceProtocol.phase .start t.calls = .moved other := hfollows
            rw [hmoved, RacePhase.claims, of_decide_eq_true hruns]
          · cases hruns
        rw [hclaim, Multiset.count_singleton_self, if_pos hruns]
        omega
      · rw [if_neg hruns]
        omega

/-- **Calls whose writes are still valid linearize.** -/
theorem valid_races_linearize (db : Db) :
    Linearizes (callSystem (pgExec.restrict StillValid) PgCaller) db := by
  intro pool hreach jobId
  obtain ⟨hbacks, hknows⟩ := validRaces_accounted hreach
  refine ⟨?_, ?_⟩
  · calc pool.threads.countP (PgThread.runs jobId)
        ≤ _ := runs_le_claims jobId pool.threads fun t ht => (hknows t ht).2
      _ ≤ 1 := Multiset.nodup_iff_count_le_one.mp hbacks.nodup jobId
  · intro status hstatus hterminal later hlater
    exact terminal_run hreach hlater hstatus hterminal

def racedJob : BatchJob where
  id := "job"
  userId := "user"
  projectId := "project"
  apiKeyId := "key"
  model := "model"
  status := .queued
  errorCode := none
  errorMessage := none
  requestCount := 1
  completedCount := 0
  failedCount := 0
  metadataJson := none
  createdAt := 0
  updatedAt := 0

def racedDb : Db :=
  Function.update tenantDb .batchJobs ⟨[racedJob], List.nodup_singleton _⟩

/-- Both read the queued row, then both write it. -/
theorem race_runs_twice : ∃ pool, (callSystem pgExec PgCaller).Reachable racedDb pool ∧
    pool.threads.countP (PgThread.runs "job") = 2 := by
  have hread : pgExec (.get .batchJobs "job") racedDb (.ok (some racedJob)) racedDb := ⟨rfl, rfl⟩
  let row := BatchJobRepository.withStatus racedJob .running 0
  let db : Db := Function.update racedDb .batchJobs ((racedDb .batchJobs).replace row)
  have hwrite : pgExec (.flush .batchJobs racedJob row) racedDb (.ok row) db := ⟨rfl, rfl⟩
  have hagain : pgExec (.flush .batchJobs racedJob row) db (.ok row)
      (Function.update db .batchJobs ((db .batchJobs).replace row)) := ⟨rfl, rfl⟩
  have h : (callSystem pgExec PgCaller).Reachable racedDb ⟨racedDb, []⟩ := Relation.ReflTransGen.refl
  have h := reachable_start h (PgCaller.transition "job" .running)
  have h := reachable_start h (PgCaller.transition "job" .running)
  have h := reachable_call [] [_] h hread
  have h := reachable_call [_] [] h hread
  have h := reachable_call [] [_] h (show pgExec .utcNow racedDb (.ok (0 : Int)) racedDb from rfl)
  have h := reachable_call [] [_] h hwrite
  have h := reachable_call [_] [] h (show pgExec .utcNow db (.ok (0 : Int)) db from rfl)
  have h := reachable_call [_] [] h hagain
  exact ⟨_, h, rfl⟩

/-- Two transitions to running of one job may both return a record. -/
theorem races_not_linear : ¬ ∀ db, Linearizes (callSystem pgExec PgCaller) db := by
  intro h
  obtain ⟨pool, hreach, htwice⟩ := race_runs_twice
  have hone := (h racedDb pool hreach "job").1
  omega

end GpuInference

import GpuInference.PostgresStore

/-!
What the database refuses. A database that is up raises only where a value is not taken by its column or a row violates
a constraint, so the calls of the Postgres store return or raise as the values that they write decide.
-/

open Effect

namespace GpuInference

/-- A new job gets an id that no job has. -/
def DbOp.Fresh (db : Db) : (op : DbOp) → op.Res → Prop
  | .uuid4, id => (db .batchJobs).find id = none
  | _, _ => True

/-- One call on the committed rows of a database that is up. -/
def upPgExec : Exec DbOp DbOp.Res PyExc Db := fun op db answer db' =>
  match op.onRows db with
  | some (reply, after) => answer = reply ∧ db' = after
  | none => (∃ value, answer = .ok value ∧ op.Fresh db value) ∧ db' = db

/-- A statement that is refused changes nothing. -/
theorem onRows_error {op : DbOp} {db after : Db} {exc : PyExc} (h : op.onRows db = some (.error exc, after)) :
    after = db := by
  cases op
  case add t row =>
    simp only [DbOp.onRows] at h
    split at h
    · split at h
      · exact (Prod.mk.inj (Option.some.inj h)).2.symm
      · cases h
    · exact (Prod.mk.inj (Option.some.inj h)).2.symm
  case flush t loaded changed =>
    simp only [DbOp.onRows] at h
    split at h
    · exact (Prod.mk.inj (Option.some.inj h)).2.symm
    · split at h
      · cases h
      · exact (Prod.mk.inj (Option.some.inj h)).2.symm
  case listByStatus status limit => exact (Prod.mk.inj (Option.some.inj h)).2.symm
  case get t id => cases h
  case getByHash keyHash => cases h
  all_goals cases h

theorem pgExec_of_up {op : DbOp} {db db' : Db} {answer : Except PyExc op.Res} (h : upPgExec op db answer db') :
    pgExec op db answer db' := by
  unfold upPgExec at h
  unfold pgExec
  cases hrows : op.onRows db with
  | none =>
      rw [hrows] at h
      obtain ⟨⟨value, rfl, -⟩, rfl⟩ := h
      rfl
  | some replied =>
      obtain ⟨reply, after⟩ := replied
      rw [hrows] at h
      obtain ⟨rfl, rfl⟩ := h
      cases answer with
      | ok value => exact ⟨rfl, rfl⟩
      | error exc => exact onRows_error hrows

section Bodies

variable {db db' : Db}

theorem up_call_bind {α : Type} {op : DbOp} {rest : op.Res → DbProgram α} {outcome : Except PyExc α}
    (h : ((dbCall op).bind rest).Yields upPgExec db outcome db') :
    (∃ value middle, upPgExec op db (.ok value) middle ∧ (rest value).Yields upPgExec middle outcome db') ∨
      ∃ exc, upPgExec op db (.error exc) db' ∧ outcome = .error exc := by
  rcases (Program.yields_bind _ _ _ _ _ _).mp h with ⟨value, middle, hcall, hrest⟩ | ⟨exc, hcall, hexc⟩
  · exact .inl ⟨value, middle, (Program.yields_perform _ _ _ _ _).mp hcall, hrest⟩
  · exact .inr ⟨exc, (Program.yields_perform _ _ _ _ _).mp hcall, hexc⟩

/-- The clock and the random draws return. -/
theorem up_draw_bind {α : Type} {op : DbOp} (hdraw : op.onRows db = none) {rest : op.Res → DbProgram α}
    {outcome : Except PyExc α} (h : ((dbCall op).bind rest).Yields upPgExec db outcome db') :
    ∃ value, op.Fresh db value ∧ (rest value).Yields upPgExec db outcome db' := by
  rcases up_call_bind h with ⟨value, middle, hcall, hrest⟩ | ⟨exc, hcall, -⟩
  · simp only [upPgExec, hdraw] at hcall
    obtain ⟨⟨drawn, hdrawn, hfresh⟩, rfl⟩ := hcall
    obtain rfl := Except.ok.inj hdrawn
    exact ⟨value, hfresh, hrest⟩
  · simp only [upPgExec, hdraw] at hcall
    obtain ⟨⟨drawn, hdrawn, -⟩, -⟩ := hcall
    cases hdrawn

theorem up_get_bind {α : Type} {jobId : String} {rest : Option BatchJob → DbProgram α} {outcome : Except PyExc α}
    (h : ((BatchJobRepository.get jobId).bind rest).Yields upPgExec db outcome db') :
    (rest ((db .batchJobs).find jobId)).Yields upPgExec db outcome db' := by
  rcases up_call_bind h with ⟨value, middle, ⟨hvalue, rfl⟩, hrest⟩ | ⟨exc, ⟨hexc, -⟩, -⟩
  · obtain rfl := Except.ok.inj hvalue
    exact hrest
  · cases hexc

/-- The flush of a row that has just been read: it raises exactly when a changed value is not taken. -/
theorem up_flush {loaded changed : BatchJob} {outcome : Except PyExc BatchJob}
    (hloaded : (db .batchJobs).find loaded.id = some loaded)
    (h : upPgExec (.flush .batchJobs loaded changed) db outcome db') :
    (DbTable.accepts .batchJobs (some loaded) changed = true ∧
      outcome = .ok (DbTable.flush .batchJobs loaded changed loaded)) ∨
    (DbTable.accepts .batchJobs (some loaded) changed = false ∧ ∃ exc, outcome = .error exc) := by
  have hstored : (db .batchJobs).find (DbTable.key .batchJobs loaded) = some loaded := hloaded
  simp only [upPgExec, DbOp.onRows, hstored] at h
  cases haccepts : DbTable.accepts .batchJobs (some loaded) changed with
  | true =>
      rw [if_pos haccepts] at h
      exact .inl ⟨rfl, h.1⟩
  | false =>
      rw [if_neg (by rw [haccepts]; exact Bool.false_ne_true)] at h
      exact .inr ⟨rfl, _, h.1⟩

/-- The flush of changes that are taken. -/
theorem up_flush_taken {loaded changed : BatchJob} (hloaded : (db .batchJobs).find loaded.id = some loaded)
    (haccepts : DbTable.accepts .batchJobs (some loaded) changed = true) :
    let row := DbTable.flush .batchJobs loaded changed loaded
    upPgExec (.flush .batchJobs loaded changed) db (.ok row)
      (Function.update db .batchJobs ((db .batchJobs).replace row)) := by
  have hstored : (db .batchJobs).find (DbTable.key .batchJobs loaded) = some loaded := hloaded
  simp only [upPgExec, DbOp.onRows, hstored]
  rw [if_pos haccepts]
  exact ⟨rfl, rfl⟩

/-- A row is inserted, or refused. -/
theorem up_add {row : BatchJob} {outcome : Except PyExc BatchJob} (h : upPgExec (.add .batchJobs row) db outcome db') :
    outcome.isOk = true ↔ DbTable.Inserts .batchJobs db row := by
  by_cases hinserts : DbTable.Inserts .batchJobs db row
  · simp only [upPgExec, hinserts.onRows] at h
    obtain ⟨rfl, -⟩ := h
    exact iff_of_true rfl hinserts
  · obtain ⟨exc, hrefused⟩ := DbTable.onRows_of_not_inserts hinserts
    simp only [upPgExec, hrefused] at h
    obtain ⟨rfl, -⟩ := h
    exact iff_of_false Bool.false_ne_true hinserts

end Bodies

/-- The columns of a new job take its values, and the rows that it refers to are there. -/
structure Submittable (db : Db) (authContext : AuthContext) (payload : JsonObject) (model : String) : Prop where
  userId : idColumn.takes authContext.userId = true
  projectId : idColumn.takes authContext.projectId = true
  apiKeyId : idColumn.takes authContext.apiKeyId = true
  model : (TableColumn.varchar 255).takes model = true
  payload : Json.fieldsStorable payload = true
  caller : db.hasCaller (keptCaller authContext).userId (keptCaller authContext).projectId
    (keptCaller authContext).apiKeyId = true

theorem inserts_createdRow {db : Db} {id : String} (hfresh : (db .batchJobs).find id = none) {authContext : AuthContext}
    {payload : JsonObject} {model : String} {createdAt updatedAt : DateTime} :
    DbTable.Inserts .batchJobs db (createdRow id authContext payload model createdAt updatedAt) ↔
      Submittable db authContext payload model := by
  have hcounts : TableColumn.integer.takes 1 = true ∧ TableColumn.integer.takes 0 = true := ⟨rfl, rfl⟩
  have hmetadata : jsonColumn.takes [("input_payload", .obj payload)] = Json.fieldsStorable payload := by
    show ((Json.obj payload).isStorable && true) = _
    rw [Bool.and_true]
    rfl
  have haccepts : DbTable.accepts .batchJobs none (createdRow id authContext payload model createdAt updatedAt) = true ↔
      ((((idColumn.takes authContext.userId = true ∧ idColumn.takes authContext.projectId = true) ∧
        idColumn.takes authContext.apiKeyId = true) ∧ (TableColumn.varchar 255).takes model = true) ∧
          Json.fieldsStorable payload = true) := by
    simp [DbTable.accepts, BatchJob.accepts, createdRow, hcounts, hmetadata]
  have hconflicts : DbTable.conflicts .batchJobs db
      (DbTable.kept .batchJobs (createdRow id authContext payload model createdAt updatedAt)) =
        !db.hasCaller (keptCaller authContext).userId (keptCaller authContext).projectId
          (keptCaller authContext).apiKeyId := by
    have hkey : (db .batchJobs).find (DbTable.key .batchJobs
        (DbTable.kept .batchJobs (createdRow id authContext payload model createdAt updatedAt))) = none := hfresh
    rw [DbTable.conflicts, hkey]
    rfl
  rw [DbTable.Inserts, haccepts, hconflicts, Bool.not_eq_eq_eq_not, Bool.not_false]
  constructor
  · rintro ⟨⟨⟨⟨⟨huser, hproject⟩, hkey⟩, hmodel⟩, hpayload⟩, hcaller⟩
    exact ⟨huser, hproject, hkey, hmodel, hpayload, hcaller⟩
  · intro h
    exact ⟨⟨⟨⟨⟨h.userId, h.projectId⟩, h.apiKeyId⟩, h.model⟩, h.payload⟩, h.caller⟩

theorem up_createBody {db db' : Db} {authContext : AuthContext} {payload : JsonObject} {model : String}
    {outcome : Except PyExc BatchJobRecord}
    (h : (PostgresBatchJobStore.createBody authContext payload model).Yields upPgExec db outcome db') :
    outcome.isOk = true ↔ Submittable db authContext payload model := by
  rw [PostgresBatchJobStore.createBody, Program.bind_eq, BatchJobRepository.create, Program.bind_eq,
    Program.bind_assoc] at h
  obtain ⟨id, hfresh, h⟩ := up_draw_bind rfl h
  rw [Program.bind_eq, Program.bind_assoc] at h
  obtain ⟨createdAt, -, h⟩ := up_draw_bind rfl h
  rw [Program.bind_eq, Program.bind_assoc] at h
  obtain ⟨updatedAt, -, h⟩ := up_draw_bind rfl h
  rw [← inserts_createdRow hfresh]
  rcases up_call_bind h with ⟨row, middle, hadd, hreturned⟩ | ⟨exc, hadd, rfl⟩
  · obtain ⟨rfl, -⟩ := hreturned
    exact iff_of_true rfl ((up_add hadd).mp rfl)
  · exact iff_of_false Bool.false_ne_true fun hinserts => Bool.false_ne_true ((up_add hadd).mpr hinserts)

section Rewrites

variable {db db' : Db} {jobId : String}

/-- A body that reads the row of a job and rewrites it raises exactly where the rewrite does. -/
theorem up_rewriteBody {outcome : Except PyExc (Option BatchJobRecord)} (guard : BatchJob → Prop)
    [DecidablePred guard] (rewrite : BatchJob → DbProgram BatchJob) (accepted : BatchJob → Prop)
    (hrewrite : ∀ job, (db .batchJobs).find job.id = some job → ∀ flushed middle,
      (rewrite job).Yields upPgExec db flushed middle → (flushed.isOk = true ↔ accepted job))
    (h : ((BatchJobRepository.get jobId).bind fun
      | none => .ret none
      | some job => if guard job then (rewrite job).bind fun job => .ret (some (recordFromModel job))
          else .ret none).Yields upPgExec db outcome db') :
    outcome.isOk = true ↔ ∀ job, (db .batchJobs).find jobId = some job → guard job → accepted job := by
  have h := up_get_bind h
  cases hfind : (db .batchJobs).find jobId with
  | none =>
      rw [hfind] at h
      obtain ⟨rfl, -⟩ := h
      refine iff_of_true rfl ?_
      intro job hjob
      cases hjob
  | some job =>
      have hid : job.id = jobId := KeyedTable.key_of_find hfind
      rw [hfind] at h
      dsimp only at h
      by_cases hguard : guard job
      · rw [if_pos hguard] at h
        have haccepted : outcome.isOk = true ↔ accepted job := by
          rcases (Program.yields_bind _ _ _ _ _ _).mp h with ⟨row, middle, hrow, hreturned⟩ | ⟨exc, hrow, rfl⟩
          · obtain ⟨rfl, -⟩ := hreturned
            exact iff_of_true rfl ((hrewrite job (hid ▸ hfind) _ _ hrow).mp rfl)
          · exact iff_of_false Bool.false_ne_true fun haccepted =>
              Bool.false_ne_true ((hrewrite job (hid ▸ hfind) _ _ hrow).mpr haccepted)
        rw [haccepted]
        constructor
        · intro hjob other hother _
          obtain rfl := Option.some.inj hother
          exact hjob
        · intro hall
          exact hall job rfl hguard
      · rw [if_neg hguard] at h
        obtain ⟨rfl, -⟩ := h
        refine iff_of_true rfl ?_
        intro other hother hguarded
        obtain rfl := Option.some.inj hother
        exact absurd hguarded hguard

/-- A transition never raises. -/
theorem up_transitionBody {target : JobStatus} {outcome : Except PyExc (Option BatchJobRecord)}
    (h : (PostgresBatchJobStore.transitionBody jobId target).Yields upPgExec db outcome db') : outcome.isOk = true := by
  refine (up_rewriteBody (fun job => canTransition job.status target = true)
    (BatchJobRepository.updateStatus · target) (fun _ => True) ?_ h).mpr fun _ _ _ => trivial
  intro job hjob flushed middle hflush
  obtain ⟨updatedAt, -, hflush⟩ := up_draw_bind rfl hflush
  rcases up_flush hjob ((Program.yields_perform _ _ _ _ _).mp hflush) with ⟨-, rfl⟩ | ⟨hrefused, -⟩
  · exact iff_of_true rfl trivial
  · rw [accepts_withStatus] at hrefused
    cases hrefused

/-- Both marks: they raise exactly where the changed row of a job that is not cancelled is refused. -/
theorem up_markBody {outcome : Except PyExc (Option BatchJobRecord)} (change : BatchJob → String → DateTime → BatchJob)
    (accepted : BatchJob → Prop)
    (haccepted : ∀ job, (db .batchJobs).find job.id = some job → ∀ completedAt updatedAt,
      (DbTable.accepts .batchJobs (some job) (change job completedAt updatedAt) = true ↔ accepted job))
    (h : ((BatchJobRepository.get jobId).bind fun
      | none => .ret none
      | some job => if job.status = .cancelled then .ret none
          else ((dbCall .utcNowIso).bind fun completedAt => (dbCall .utcNow).bind fun updatedAt =>
            dbCall (.flush .batchJobs job (change job completedAt updatedAt))).bind fun job =>
              .ret (some (recordFromModel job))).Yields upPgExec db outcome db') :
    outcome.isOk = true ↔
      ∀ job, (db .batchJobs).find jobId = some job → job.status ≠ .cancelled → accepted job := by
  refine up_rewriteBody (fun job => job.status ≠ .cancelled) (fun job => (dbCall .utcNowIso).bind fun completedAt =>
    (dbCall .utcNow).bind fun updatedAt => dbCall (.flush .batchJobs job (change job completedAt updatedAt)))
      accepted ?_ (by simpa only [ne_eq, ite_not] using h)
  intro job hjob flushed middle hflush
  obtain ⟨completedAt, -, hflush⟩ := up_draw_bind rfl hflush
  obtain ⟨updatedAt, -, hflush⟩ := up_draw_bind rfl hflush
  rw [← haccepted job hjob completedAt updatedAt]
  rcases up_flush hjob ((Program.yields_perform _ _ _ _ _).mp hflush) with ⟨htaken, rfl⟩ | ⟨hrefused, exc, rfl⟩
  · exact iff_of_true rfl htaken
  · rw [hrefused]
    exact iff_of_false Bool.false_ne_true Bool.false_ne_true

end Rewrites

theorem isStorable_of_get {fields : JsonObject} (h : Json.fieldsStorable fields = true) {key : String} {value : Json}
    (hget : JsonObject.get fields key = some value) : value.isStorable = true := by
  induction fields with
  | nil => cases hget
  | cons field fields ih =>
      obtain ⟨name, old⟩ := field
      obtain ⟨hold, hrest⟩ := Bool.and_eq_true_iff.mp h
      rw [JsonObject.get_cons] at hget
      split at hget
      · rw [← Option.some.inj hget]
        exact hold
      · exact ih hrest hget

theorem fieldsStorable_set {fields : JsonObject} (h : Json.fieldsStorable fields = true) {key : String} {value : Json}
    (hvalue : value.isStorable = true) : Json.fieldsStorable (JsonObject.set fields key value) = true := by
  induction fields with
  | nil => exact Bool.and_eq_true_iff.mpr ⟨hvalue, rfl⟩
  | cons field fields ih =>
      obtain ⟨name, old⟩ := field
      obtain ⟨hold, hrest⟩ := Bool.and_eq_true_iff.mp h
      rw [JsonObject.set]
      split
      · exact Bool.and_eq_true_iff.mpr ⟨hvalue, hrest⟩
      · exact Bool.and_eq_true_iff.mpr ⟨hold, ih hrest⟩

/-- The columns that the marks write hold what is in them. -/
structure BatchJob.Held (job : BatchJob) : Prop where
  errorCode : (TableColumn.varchar 128).nullable.Holds job.errorCode
  errorMessage : (TableColumn.varchar 1024).nullable.Holds job.errorMessage
  metadataJson : jsonColumn.nullable.Holds job.metadataJson

/-- Every row of a job holds what its columns take. -/
def Db.HoldsJobs (db : Db) : Prop := ∀ jobId job, (db .batchJobs).find jobId = some job → job.Held

theorem BatchJob.Held.storable {job : BatchJob} (h : job.Held) :
    Json.fieldsStorable (job.metadataJson.getD []) = true := by
  obtain ⟨htakes, -⟩ := h.metadataJson
  cases hmetadata : job.metadataJson with
  | none => rfl
  | some metadata =>
      rw [hmetadata] at htakes
      exact htakes

/-- The metadata of a success are storable exactly when the result and its usage are. -/
theorem storable_withSuccess {job : BatchJob} (h : job.Held) {result usage : JsonObject} {completedAt : String}
    {updatedAt : DateTime} : jsonColumn.nullable.takes
      (BatchJobRepository.withSuccess job result usage completedAt updatedAt).metadataJson = true ↔
        Json.fieldsStorable result = true ∧ Json.fieldsStorable usage = true := by
  constructor
  · intro htakes
    refine ⟨isStorable_of_get htakes (?_ : JsonObject.get _ "result_payload" = some (.obj result)),
      isStorable_of_get htakes (?_ : JsonObject.get _ "usage" = some (.obj usage))⟩
    · rw [JsonObject.get_set, if_neg (by decide), JsonObject.get_set, if_neg (by decide), JsonObject.get_set, if_pos rfl]
    · rw [JsonObject.get_set, if_neg (by decide), JsonObject.get_set, if_pos rfl]
  · rintro ⟨hresult, husage⟩
    have hresult : (Json.obj result).isStorable = true := hresult
    have husage : (Json.obj usage).isStorable = true := husage
    exact fieldsStorable_set (fieldsStorable_set (fieldsStorable_set h.storable hresult) husage) rfl

theorem storable_withFailure {job : BatchJob} (h : job.Held) {errorCode : Option String}
    {errorMessage completedAt : String} {updatedAt : DateTime} : jsonColumn.nullable.takes
      (BatchJobRepository.withFailure job errorCode errorMessage completedAt updatedAt).metadataJson = true :=
  fieldsStorable_set h.storable rfl

theorem up_markSucceededBody {db db' : Db} {jobId : String} {result usage : JsonObject}
    {outcome : Except PyExc (Option BatchJobRecord)}
    (hheld : db.HoldsJobs)
    (h : (PostgresBatchJobStore.markSucceededBody jobId result usage).Yields upPgExec db outcome db') :
    outcome.isOk = true ↔ ∀ job, (db .batchJobs).find jobId = some job → job.status ≠ .cancelled →
      Json.fieldsStorable result = true ∧ Json.fieldsStorable usage = true := by
  refine up_markBody (fun job => BatchJobRepository.withSuccess job result usage) _ ?_ h
  intro job hjob completedAt updatedAt
  have hjob := hheld job.id job hjob
  rw [accepts_withSuccess, TableColumn.accepts_iff_takes _ hjob.metadataJson, storable_withSuccess hjob]

theorem up_markFailedBody {db db' : Db} {jobId : String} {errorCode : Option String} {errorMessage : String}
    {outcome : Except PyExc (Option BatchJobRecord)}
    (hheld : db.HoldsJobs)
    (h : (PostgresBatchJobStore.markFailedBody jobId errorCode errorMessage).Yields upPgExec db outcome db') :
    outcome.isOk = true ↔ ∀ job, (db .batchJobs).find jobId = some job → job.status ≠ .cancelled →
      (TableColumn.varchar 128).nullable.takes errorCode = true ∧
        (TableColumn.varchar 1024).takes (String.ofList (errorMessage.toList.take 1024)) = true := by
  refine up_markBody (fun job => BatchJobRepository.withFailure job errorCode errorMessage) _ ?_ h
  intro job hjob completedAt updatedAt
  have hjob := hheld job.id job hjob
  rw [accepts_withFailure, Bool.and_eq_true_iff, Bool.and_eq_true_iff,
    TableColumn.accepts_iff_takes _ hjob.errorCode, TableColumn.accepts_iff_takes _ hjob.errorMessage,
    TableColumn.accepts_iff_takes _ hjob.metadataJson, and_iff_left (storable_withFailure hjob)]
  rfl

section Held

variable {db db' : Db}

theorem Db.HoldsJobs.write (h : db.HoldsJobs) {jobId : String} {new : BatchJob} (hnew : new.Held)
    (hafter : ∀ other, (db' .batchJobs).find other = if other = jobId then some new else (db .batchJobs).find other) :
    db'.HoldsJobs := by
  intro other job hjob
  rw [hafter] at hjob
  split at hjob
  · rw [← Option.some.inj hjob]
    exact hnew
  · exact h other job hjob

theorem held_created {db : Db} (h : db.HoldsJobs) {authContext : AuthContext} {payload : JsonObject} {model : String}
    {record : BatchJobRecord} (hpayload : Json.fieldsStorable payload = true)
    (hcreate : (PostgresBatchJobStore.createBody authContext payload model).Yields pgExec db (.ok record) db') :
    db'.HoldsJobs := by
  obtain ⟨id, createdAt, updatedAt, -, -, hafter⟩ := yields_createBody hcreate
  refine h.write ⟨⟨rfl, rfl⟩, ⟨rfl, rfl⟩, ?_, rfl⟩ hafter
  have hvalue : (Json.obj payload).isStorable = true := hpayload
  exact Bool.and_eq_true_iff.mpr ⟨hvalue, rfl⟩

theorem held_moved (h : db.HoldsJobs) {jobId : String} {target : JobStatus} {record : Option BatchJobRecord}
    (hmove : (PostgresBatchJobStore.transitionBody jobId target).Yields pgExec db (.ok record) db') :
    db'.HoldsJobs := by
  rcases yields_transitionBody hmove with ⟨-, rfl, -⟩ | ⟨job, updatedAt, hfind, -, -, hafter⟩
  · exact h
  · have hjob := h jobId job hfind
    have hmoved : (BatchJobRepository.withStatus job target updatedAt).Held :=
      ⟨hjob.errorCode, hjob.errorMessage, hjob.metadataJson⟩
    exact h.write hmoved hafter

theorem held_succeeded (h : db.HoldsJobs) {jobId : String} {result usage : JsonObject} {record : Option BatchJobRecord}
    (hstorable : ∀ job, (db .batchJobs).find jobId = some job → job.status ≠ .cancelled →
      Json.fieldsStorable result = true ∧ Json.fieldsStorable usage = true)
    (hmark : (PostgresBatchJobStore.markSucceededBody jobId result usage).Yields pgExec db (.ok record) db') :
    db'.HoldsJobs := by
  rcases yields_markSucceededBody hmark with
    ⟨-, rfl, -⟩ | ⟨job, changed, hfind, hlive, ⟨completedAt, updatedAt, rfl⟩, -, hafter⟩
  · exact h
  · refine h.write ⟨⟨rfl, rfl⟩, ⟨rfl, rfl⟩, ?_, rfl⟩ hafter
    exact (storable_withSuccess (h jobId job hfind)).mpr (hstorable job hfind hlive)

theorem held_failed (h : db.HoldsJobs) {jobId : String} {errorCode : Option String} {errorMessage : String}
    {record : Option BatchJobRecord}
    (htaken : ∀ job, (db .batchJobs).find jobId = some job → job.status ≠ .cancelled →
      (TableColumn.varchar 128).nullable.takes errorCode = true ∧
        (TableColumn.varchar 1024).takes (String.ofList (errorMessage.toList.take 1024)) = true)
    (hmark : (PostgresBatchJobStore.markFailedBody jobId errorCode errorMessage).Yields pgExec db (.ok record) db') :
    db'.HoldsJobs := by
  rcases yields_markFailedBody hmark with
    ⟨-, rfl, -⟩ | ⟨job, changed, hfind, hlive, ⟨completedAt, updatedAt, rfl⟩, -, hafter⟩
  · exact h
  · have hjob := h jobId job hfind
    obtain ⟨hcode, hmessage⟩ := htaken job hfind hlive
    have hmarked : (BatchJobRepository.withFailure job (keptCode job.errorCode errorCode) errorMessage completedAt
        updatedAt).Held := by
      refine ⟨?_, ⟨hmessage, ?_⟩, storable_withFailure hjob, rfl⟩
      · exact TableColumn.holds_flush _ (TableColumn.lawful_varchar 128).nullable hjob.errorCode
          (TableColumn.accepts_of_takes _ hcode _)
      · exact congrArg some (TableColumn.keeps_varchar_take 1024 errorMessage)
    exact h.write hmarked hafter

end Held

end GpuInference

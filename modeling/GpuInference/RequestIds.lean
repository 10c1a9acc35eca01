import GpuInference.ChatCalls
import GpuInference.SessionScope
import GpuInference.UniqueColumn

/-!
The ids of requests and the audit rows. A client may choose the id of its request. It becomes the `request_id` of the
audit row, a unique column of 80 characters, and is checked there only after the request has been admitted, together
with the other values of the row.
-/

open Effect

namespace GpuInference

namespace RequestIdMiddleware

/-- `generate_request_id`, for the UUID that it draws. -/
def generateRequestId (hex : String) : String := "req_" ++ hex

/-- `request.headers.get(REQUEST_ID_HEADER) or generate_request_id()`, in `dispatch`. -/
def requestId (header : Option String) (hex : String) : String :=
  match header with
  | some value => if value = "" then generateRequestId hex else value
  | none => generateRequestId hex

/-- A client that sends an id chooses the id of its request. -/
theorem requestId_some {value : String} (h : value ≠ "") (hex : String) : requestId (some value) hex = value :=
  if_neg h

end RequestIdMiddleware

/-- `String(80)`, the type of `request_id`. -/
def requestIdColumn : TableColumn String := .varchar 80

/-- The columns of an audit row take the values of a start, and the rows that it refers to are there. -/
def AuditStart.storable (hasCaller : String → String → String → Bool) (audit : AuditStart) : Bool :=
  requestIdColumn.takes audit.requestId &&
  idColumn.takes audit.userId &&
  idColumn.takes audit.projectId &&
  idColumn.takes audit.apiKeyId &&
  (TableColumn.varchar 255).takes audit.model &&
  (TableColumn.varchar 64).nullable.takes audit.promptHash &&
  hasCaller (idColumn.keeps audit.userId) (idColumn.keeps audit.projectId) (idColumn.keeps audit.apiKeyId)

/-- What `request_id` keeps of an audit start, if its row can be stored. -/
def auditColumn (hasCaller : String → String → String → Bool) (audit : AuditStart) : Option String :=
  if audit.storable hasCaller then some (requestIdColumn.keeps audit.requestId) else none

/-- A generated id, of 32 hexadecimal digits, is kept as it is. -/
theorem keeps_generated {hex : String} (h : hex.toList.length = 32) :
    requestIdColumn.keeps (RequestIdMiddleware.generateRequestId hex) = RequestIdMiddleware.generateRequestId hex := by
  refine TableColumn.keeps_varchar ?_
  have hprefix : "req_".toList.length = 4 := rfl
  rw [RequestIdMiddleware.generateRequestId, String.toList_append, List.length_append, hprefix, h]
  omega

/-- One call of a service in a session of its own. `session_scope` means to commit what the call has flushed;
`commits` says whether it does. -/
def inOwnSession {α : Type} (commits : Bool) (answer : (op : DbOp) → Db → Except PyExc op.Res × Db)
    (body : DbProgram α) (db : Db) : Except PyExc α × Db :=
  match body.run answer db with
  | (.ok value, view) => (.ok value, if commits then view else db)
  | (.error exc, _) => (.error exc, db)

/-- An authenticated chat request: its header, its body, what is drawn for it, and what its other calls answer, by
their number. -/
structure IncomingRequest where
  header : Option String
  authContext : AuthContext
  requestBody : ChatCompletionRequest
  hex : String
  rowId : String
  completedAt : DateTime
  answers : Nat → (op : ChatOp) → Except PyExc op.Res

/-- The database, and what the audit starts have returned or raised. -/
structure AuditBooks where
  db : Db
  starts : List (Except PyExc String)
  calls : Nat

/-- The id and the `request_id` of every audit row. -/
def Db.auditIds (db : Db) : List (String × String) :=
  (db .requestAuditRecords).rows.map fun row => (row.id, row.requestId)

/-- The values of the column `request_id`. -/
def Db.requestIds (db : Db) : List String := (Db.auditIds db).map Prod.snd

namespace IncomingRequest

variable (r : IncomingRequest) (commits : Bool) (app : ChatApp)

/-- The id that the middleware gives the request. -/
def requestId : String := RequestIdMiddleware.requestId r.header r.hex

def dbAnswer : (op : DbOp) → Db → Except PyExc op.Res × Db
  | .uuid4, db => (.ok r.rowId, db)
  | .utcNow, db => (.ok r.completedAt, db)
  | op, db => (op.onRows db).getD (.error (runtimeError "no call on rows"), db)

def answer : (op : ChatOp) → AuditBooks → Except PyExc op.Res × AuditBooks
  | .startAudit audit, b =>
      let started := inOwnSession commits r.dbAnswer (RequestAuditService.startBody audit) b.db
      (started.1, ⟨started.2, b.starts ++ [started.1], b.calls + 1⟩)
  | .finalizeAudit final, b =>
      let finalized := inOwnSession commits r.dbAnswer (RequestAuditRepository.finalize final) b.db
      (finalized.1, ⟨finalized.2, b.starts, b.calls + 1⟩)
  | op, b => (r.answers b.calls op, { b with calls := b.calls + 1 })

/-- The request is admitted: its model is allowed, its tokens can be planned, and admission grants a lease. -/
def admitted : Bool :=
  match ensureModelAllowed r.authContext r.requestBody.model,
      buildTokenPlan r.requestBody app.tokenEstimator app.settings with
  | .ok _, .ok plan => (r.answers 0 (.admitRequest r.authContext plan.estimatedTotalTokens)).isOk
  | _, _ => false

/-- The audit start of the request, once it is admitted. -/
def audit : AuditStart :=
  buildAuditStart app.sha256 r.requestId r.authContext r.requestBody.model r.requestBody.messages

/-- The request is served, its streamed body included. -/
def serve (b : AuditBooks) : AuditBooks :=
  ((app.serve r.requestBody (some r.authContext) r.requestId).run (r.answer commits)
    { b with calls := 0 }).2

end IncomingRequest

/-- Requests served one after the other. -/
def serveAll (commits : Bool) (app : ChatApp) (requests : List IncomingRequest) (b : AuditBooks) : AuditBooks :=
  requests.foldl (fun b r => r.serve commits app b) b

def admittedRequests (app : ChatApp) (requests : List IncomingRequest) : List IncomingRequest :=
  requests.filter fun r => r.admitted app

/-- Every admitted request has got its own audit row, which stays where sessions commit. -/
def Audited (commits : Bool) (app : ChatApp) (db : Db) (requests : List IncomingRequest) : Prop :=
  let books := serveAll commits app requests ⟨db, [], 0⟩
  books.starts = (admittedRequests app requests).map (fun r => .ok r.rowId) ∧
    (commits = true → ∀ r ∈ admittedRequests app requests, ∃ row : RequestAuditRecord,
      (books.db .requestAuditRecords).find r.rowId = some row ∧
        row.requestId = requestIdColumn.keeps r.requestId)

/-- The ids that are drawn for the rows differ from one another, and from those that are there. -/
def RowIdsFresh (app : ChatApp) (db : Db) (requests : List IncomingRequest) : Prop :=
  ((Db.auditIds db).map Prod.fst ++ (admittedRequests app requests).map IncomingRequest.rowId).Nodup

/-- The admitted requests whose ids have been generated. -/
def generatedRequests (app : ChatApp) (requests : List IncomingRequest) : List IncomingRequest :=
  (admittedRequests app requests).filter fun r => r.header.getD "" = ""

/-- What is drawn is new: the ids of the rows, and the generated ids of the requests. -/
structure DrawsFresh (app : ChatApp) (db : Db) (requests : List IncomingRequest) : Prop where
  rowIds : RowIdsFresh app db requests
  distinct : ((generatedRequests app requests).map IncomingRequest.requestId).Nodup
  untaken : ∀ r ∈ generatedRequests app requests, r.requestId ∉ Db.requestIds db

section Rows

variable {r : IncomingRequest} {commits : Bool} {db : Db}

theorem find_eq_none_of_ids {rowId : String} (h : rowId ∉ (Db.auditIds db).map Prod.fst) :
    (db .requestAuditRecords).find rowId = none := by
  rw [KeyedTable.find_eq_none]
  intro hmem
  refine h ?_
  rw [Db.auditIds, List.map_map]
  exact hmem

/-- A row under a fresh id can be inserted when its values can be stored and no row has its `request_id`. -/
theorem inserts_iff (audit : AuditStart) {rowId : String} (hfresh : rowId ∉ (Db.auditIds db).map Prod.fst) :
    DbTable.Inserts .requestAuditRecords db (auditRecordFromStart rowId audit) ↔
      audit.storable db.hasCaller = true ∧ requestIdColumn.keeps audit.requestId ∉ Db.requestIds db := by
  have haccepts : DbTable.accepts .requestAuditRecords none (auditRecordFromStart rowId audit) =
      (requestIdColumn.takes audit.requestId && idColumn.takes audit.userId && idColumn.takes audit.projectId &&
        idColumn.takes audit.apiKeyId && (TableColumn.varchar 255).takes audit.model &&
          (TableColumn.varchar 64).nullable.takes audit.promptHash) := by
    simp [DbTable.accepts, RequestAuditRecord.accepts, auditRecordFromStart, requestIdColumn]
  have hconflicts : DbTable.conflicts .requestAuditRecords db
      (DbTable.kept .requestAuditRecords (auditRecordFromStart rowId audit)) =
        (decide (requestIdColumn.keeps audit.requestId ∈ Db.requestIds db) ||
          !db.hasCaller (idColumn.keeps audit.userId) (idColumn.keeps audit.projectId)
            (idColumn.keeps audit.apiKeyId)) := by
    have hkey : (db .requestAuditRecords).find (DbTable.key .requestAuditRecords
        (DbTable.kept .requestAuditRecords (auditRecordFromStart rowId audit))) = none := find_eq_none_of_ids hfresh
    have hclashes : DbTable.clashes .requestAuditRecords (db .requestAuditRecords)
        (DbTable.kept .requestAuditRecords (auditRecordFromStart rowId audit)) =
          decide (requestIdColumn.keeps audit.requestId ∈ Db.requestIds db) := by
      rw [Bool.eq_iff_iff, decide_eq_true_iff, DbTable.clashes, Db.requestIds, Db.auditIds, List.map_map]
      rw [List.any_eq_true, List.mem_map]
      exact exists_congr fun row => and_congr_right fun _ => decide_eq_true_iff
    rw [DbTable.conflicts, hkey, hclashes]
    rfl
  rw [DbTable.Inserts, haccepts, hconflicts, AuditStart.storable]
  simp only [Bool.or_eq_false_iff, decide_eq_false_iff_not, Bool.and_eq_true, Bool.not_eq_eq_eq_not, Bool.not_false]
  tauto

/-- The INSERT of an audit row under a fresh id adds it, or raises when its values cannot be stored or its `request_id`
is taken. -/
theorem add_audit_spec (audit : AuditStart) (hfresh : r.rowId ∉ (Db.auditIds db).map Prod.fst) :
    (∃ stored row view, UniqueColumn.Admits (auditColumn db.hasCaller) (Db.requestIds db) audit stored ∧
      r.dbAnswer (.add .requestAuditRecords (auditRecordFromStart r.rowId audit)) db = (.ok row, view) ∧
      RequestAuditRecord.id row = r.rowId ∧ Db.auditIds view = Db.auditIds db ++ [(r.rowId, stored)] ∧
        view.hasCaller = db.hasCaller) ∨
    (¬ (∃ stored, UniqueColumn.Admits (auditColumn db.hasCaller) (Db.requestIds db) audit stored) ∧
      ∃ exc, r.dbAnswer (.add .requestAuditRecords (auditRecordFromStart r.rowId audit)) db = (.error exc, db)) := by
  have hinserts := inserts_iff audit hfresh
  have hadmits : (∃ stored, UniqueColumn.Admits (auditColumn db.hasCaller) (Db.requestIds db) audit stored) ↔
      audit.storable db.hasCaller = true ∧ requestIdColumn.keeps audit.requestId ∉ Db.requestIds db := by
    simp only [UniqueColumn.Admits, auditColumn]
    by_cases hstorable : audit.storable db.hasCaller = true
    · simp [hstorable]
    · simp [hstorable]
  rw [hadmits, ← hinserts]
  by_cases hrow : DbTable.Inserts .requestAuditRecords db (auditRecordFromStart r.rowId audit)
  · obtain ⟨hstorable, hfree⟩ := hinserts.mp hrow
    let row : RequestAuditRecord := DbTable.kept .requestAuditRecords (auditRecordFromStart r.rowId audit)
    let view : Db := Function.update db .requestAuditRecords ((db .requestAuditRecords).insert row)
    refine .inl ⟨requestIdColumn.keeps audit.requestId, row, view, ⟨if_pos hstorable, hfree⟩, ?_, rfl, ?_, rfl⟩
    · simp only [IncomingRequest.dbAnswer]
      rw [hrow.onRows]
      rfl
    · have hfind : (db .requestAuditRecords).find (DbTable.key .requestAuditRecords row) = none :=
        find_eq_none_of_ids hfresh
      have hview : view .requestAuditRecords = (db .requestAuditRecords).insert row := Function.update_self ..
      rw [Db.auditIds, hview, KeyedTable.rows_insert hfind, List.map_append]
      rfl
  · obtain ⟨exc, hrefused⟩ := DbTable.onRows_of_not_inserts hrow
    refine .inr ⟨hrow, exc, ?_⟩
    simp only [IncomingRequest.dbAnswer]
    rw [hrefused]
    rfl

theorem stored_of_admits {caller : String → String → String → Bool} {taken : List String} {audit : AuditStart}
    {stored : String} (h : UniqueColumn.Admits (auditColumn caller) taken audit stored) :
    stored = requestIdColumn.keeps audit.requestId := by
  obtain ⟨hstored, -⟩ := h
  unfold auditColumn at hstored
  split at hstored
  · exact (Option.some.inj hstored).symm
  · cases hstored

theorem find_of_mem_auditIds {rowId requestId : String} (h : (rowId, requestId) ∈ Db.auditIds db) :
    ∃ row : RequestAuditRecord, (db .requestAuditRecords).find rowId = some row ∧ row.requestId = requestId := by
  obtain ⟨row, hrow, hpair⟩ := List.mem_map.mp h
  obtain ⟨rfl, rfl⟩ := Prod.mk.inj hpair
  exact ⟨row, KeyedTable.find_of_mem hrow, rfl⟩

theorem run_startBody (audit : AuditStart) :
    (RequestAuditService.startBody audit).run r.dbAnswer db =
      ((dbCall (.add .requestAuditRecords (auditRecordFromStart r.rowId audit))).bind fun row =>
        .ret (RequestAuditRecord.id row)).run r.dbAnswer db := by
  have hbody : RequestAuditService.startBody audit = (dbCall .uuid4).bind fun id =>
      (dbCall (.add .requestAuditRecords (auditRecordFromStart id audit))).bind fun row =>
        .ret (RequestAuditRecord.id row) := rfl
  have hdraw : r.dbAnswer .uuid4 db = (.ok r.rowId, db) := rfl
  rw [hbody, Program.run_bind, dbCall, Program.run_perform, hdraw]

/-- **An audit start** returns the id of the row that it has inserted, or it raises and changes nothing. -/
theorem run_startAudit (audit : AuditStart) (hfresh : r.rowId ∉ (Db.auditIds db).map Prod.fst) :
    let started := inOwnSession commits r.dbAnswer (RequestAuditService.startBody audit) db
    ((∃ stored, UniqueColumn.Admits (auditColumn db.hasCaller) (Db.requestIds db) audit stored ∧
        started.1 = .ok r.rowId ∧
        Db.auditIds started.2 = UniqueColumn.after commits (Db.auditIds db) (r.rowId, stored)) ∨
      (¬ (∃ stored, UniqueColumn.Admits (auditColumn db.hasCaller) (Db.requestIds db) audit stored) ∧
        ∃ exc, started.1 = .error exc)) ∧ started.2.hasCaller = db.hasCaller := by
  simp only [inOwnSession, run_startBody, Program.run_bind, dbCall, Program.run_perform]
  rcases add_audit_spec audit hfresh with ⟨stored, row, view, hadmits, hadd, hid, hids, hcaller⟩ | ⟨hrefused, exc, hadd⟩
  · simp only [hadd, Program.run_ret]
    refine ⟨.inl ⟨stored, hadmits, congrArg Except.ok hid, ?_⟩, ?_⟩
    · cases commits with
      | false => rfl
      | true => exact hids
    · cases commits with
      | false => rfl
      | true => exact hcaller
  · simp only [hadd]
    exact ⟨.inr ⟨hrefused, exc, rfl⟩, trivial⟩

theorem run_finalizeBody (final : AuditFinal) :
    (RequestAuditRepository.finalize final).run r.dbAnswer db =
      (match (db .requestAuditRecords).find final.recordId with
        | none => .ret ()
        | some record => (dbCall (.flush .requestAuditRecords record
            (RequestAuditRepository.withFinal record final r.completedAt))).bind fun _ => .ret () :
        DbProgram Unit).run r.dbAnswer db := by
  rw [RequestAuditRepository.finalize, RequestAuditRepository.get, Program.bind_eq, Program.run_bind, dbCall,
    Program.run_perform]
  simp only [IncomingRequest.dbAnswer, DbOp.onRows, Option.getD_some]
  cases (db .requestAuditRecords).find final.recordId with
  | none => rfl
  | some record => rfl

/-- The flush of a final row keeps the ids of all rows, or it is refused. -/
theorem flush_withFinal (final : AuditFinal) {record : RequestAuditRecord}
    (hstored : (db .requestAuditRecords).find (DbTable.key .requestAuditRecords record) = some record) :
    let answered := r.dbAnswer (.flush .requestAuditRecords record
      (RequestAuditRepository.withFinal record final r.completedAt)) db
    (∃ row view, answered = (.ok row, view) ∧ Db.auditIds view = Db.auditIds db ∧ view.hasCaller = db.hasCaller) ∨
      answered = (.error dataError, db) := by
  intro answered
  let changed := RequestAuditRepository.withFinal record final r.completedAt
  let row : RequestAuditRecord := DbTable.flush .requestAuditRecords record changed record
  let view : Db := Function.update db .requestAuditRecords ((db .requestAuditRecords).replace row)
  have hids : Db.auditIds view = Db.auditIds db := by
    have hrequestId : row.requestId = record.requestId := TableColumn.flush_loaded _ _ _
    have hpair : (row.id, row.requestId) = (record.id, record.requestId) := congrArg (Prod.mk record.id) hrequestId
    have hkey : (db .requestAuditRecords).find (DbTable.key .requestAuditRecords row) = some record := hstored
    have hview : view .requestAuditRecords = (db .requestAuditRecords).replace row := Function.update_self ..
    rw [Db.auditIds, hview]
    exact KeyedTable.map_replace _ hkey hpair
  have hanswered : answered = (if DbTable.accepts .requestAuditRecords (some record) changed then (.ok row, view)
      else (.error dataError, db)) := by
    simp only [answered, IncomingRequest.dbAnswer, DbOp.onRows, hstored]
    split
    · rfl
    · rfl
  by_cases haccepts : DbTable.accepts .requestAuditRecords (some record) changed = true
  · rw [if_pos haccepts] at hanswered
    exact .inl ⟨row, view, hanswered, hids, rfl⟩
  · rw [if_neg haccepts] at hanswered
    exact .inr hanswered

/-- Finalizing an audit row changes neither its id nor its `request_id`. -/
theorem run_finalizeAudit (final : AuditFinal) :
    let finalized := inOwnSession commits r.dbAnswer (RequestAuditRepository.finalize final) db
    Db.auditIds finalized.2 = Db.auditIds db ∧ finalized.2.hasCaller = db.hasCaller := by
  simp only [inOwnSession, run_finalizeBody]
  cases hfind : (db .requestAuditRecords).find final.recordId with
  | none =>
      simp only [Program.run_ret]
      cases commits with
      | false => exact ⟨rfl, rfl⟩
      | true => exact ⟨rfl, rfl⟩
  | some record =>
      have hstored : (db .requestAuditRecords).find (DbTable.key .requestAuditRecords record) = some record := by
        rw [KeyedTable.key_of_find hfind]
        exact hfind
      rw [Program.run_bind, dbCall, Program.run_perform]
      rcases flush_withFinal (r := r) final hstored with ⟨row, view, hflush, hids, hcaller⟩ | hrefused
      · simp only [hflush, Program.run_ret]
        cases commits with
        | false => exact ⟨rfl, rfl⟩
        | true => exact ⟨hids, hcaller⟩
      · simp only [hrefused]
        exact ⟨trivial, trivial⟩

/-- Where nothing is committed, `inOwnSession` is the call that `RequestAuditService` makes. -/
theorem run_start (env : DbEnv) (hcalm : env.fault 0 = none) (hrow : env.uuid4 = r.rowId) (audit : AuditStart) :
    let left := (RequestAuditService.start audit).run env.answer (.start db)
    (left.1, left.2.committed) = inOwnSession false r.dbAnswer (RequestAuditService.startBody audit) db := by
  let row := auditRecordFromStart r.rowId audit
  have hadd : (RequestAuditService.startBody audit).run env.dbAnswer (.start db) =
      ((dbCall (.add .requestAuditRecords row)).bind fun row =>
        .ret (RequestAuditRecord.id row)).run env.dbAnswer (.start db) := by
    rw [RequestAuditService.startBody, Program.bind_eq, Program.run_bind, dbCall, Program.run_perform]
    simp only [DbEnv.dbAnswer, hrow]
    rfl
  simp only [RequestAuditService.start, run_withSession, committed_run, inOwnSession, run_startBody]
  show ((Program.run env.dbAnswer (RequestAuditService.startBody audit) (.start db)).1, db) = _
  rw [hadd, Program.run_bind, dbCall, Program.run_perform, Program.run_bind, Program.run_perform]
  simp only [DbEnv.dbAnswer, DbEnv.guarded, SessionState.start, hcalm, IncomingRequest.dbAnswer, DbEnv.onRows]
  by_cases hinserts : DbTable.Inserts .requestAuditRecords db row
  · rw [hinserts.onRows]
    rfl
  · obtain ⟨exc, hrefused⟩ := DbTable.onRows_of_not_inserts hinserts
    rw [hrefused]
    rfl

end Rows

section Request

variable {r : IncomingRequest} (commits : Bool) {app : ChatApp}

/-- The ids of the audit rows, and the rows that they may refer to, are the same. -/
def Db.SameAudits (db db' : Db) : Prop := Db.auditIds db' = Db.auditIds db ∧ db'.hasCaller = db.hasCaller

/-- After its audit start a request starts no audit, and leaves the ids of the rows as they are. -/
theorem run_responds {α : Type} {program : ChatProgram α} (h : program.Makes ChatOp.Responds) (b : AuditBooks) :
    b.db.SameAudits (program.run (r.answer commits) b).2.db ∧
      (program.run (r.answer commits) b).2.starts = b.starts := by
  let view (b : AuditBooks) : (List (String × String) × (String → String → String → Bool)) ×
      List (Except PyExc String) := ((Db.auditIds b.db, b.db.hasCaller), b.starts)
  have hcall : ∀ (op : ChatOp) (b : AuditBooks), op.Responds → view (r.answer commits op b).2 = view b := by
    intro op b hop
    cases op
    case startAudit audit => exact hop.elim
    case finalizeAudit final =>
      have hsame : b.db.SameAudits (inOwnSession commits r.dbAnswer (RequestAuditRepository.finalize final) b.db).2 :=
        run_finalizeAudit final
      exact Prod.ext (Prod.ext hsame.1 hsame.2) rfl
    all_goals rfl
  obtain ⟨hsame, hstarts⟩ := Prod.mk.inj (h.run hcall b)
  exact ⟨Prod.mk.inj hsame, hstarts⟩

theorem isOk_iff {α : Type} {outcome : Except PyExc α} : outcome.isOk = true ↔ ∃ value, outcome = .ok value := by
  cases outcome with
  | error exc => exact iff_of_false Bool.false_ne_true nofun
  | ok value => exact iff_of_true rfl ⟨value, rfl⟩

theorem admitted_iff : r.admitted app = true ↔ ∃ plan lease,
    ensureModelAllowed r.authContext r.requestBody.model = .ok () ∧
    buildTokenPlan r.requestBody app.tokenEstimator app.settings = .ok plan ∧
    r.answers 0 (.admitRequest r.authContext plan.estimatedTotalTokens) = .ok lease := by
  unfold IncomingRequest.admitted
  cases ensureModelAllowed r.authContext r.requestBody.model with
  | error exc => simp
  | ok allowed =>
      cases buildTokenPlan r.requestBody app.tokenEstimator app.settings with
      | error exc => simp
      | ok plan => simp [isOk_iff]

/-- A request that is not admitted starts no audit. -/
theorem serve_refused (h : r.admitted app = false) (b : AuditBooks) :
    b.db.SameAudits (r.serve commits app b).db ∧ (r.serve commits app b).starts = b.starts := by
  unfold IncomingRequest.serve
  cases hmodel : ensureModelAllowed r.authContext r.requestBody.model with
  | error exc =>
      unfold ChatApp.serve ChatApp.createChatCompletion
      simp only [Program.bind_eq, Program.lift_ok, Program.ret_bind, hmodel]
      exact ⟨⟨rfl, rfl⟩, rfl⟩
  | ok allowed =>
      cases hplan : buildTokenPlan r.requestBody app.tokenEstimator app.settings with
      | error exc =>
          unfold ChatApp.serve ChatApp.createChatCompletion
          simp only [Program.bind_eq, Program.lift_ok, Program.ret_bind, hmodel, hplan]
          exact ⟨⟨rfl, rfl⟩, rfl⟩
      | ok plan =>
          rw [app.serve_eq hmodel hplan, Program.run_bind, chatCall, Program.run_perform]
          simp only [IncomingRequest.answer]
          cases hlease : r.answers 0 (.admitRequest r.authContext plan.estimatedTotalTokens) with
          | error exc => exact ⟨⟨rfl, rfl⟩, rfl⟩
          | ok lease =>
              rw [admitted_iff.mpr ⟨plan, lease, hmodel, hplan, hlease⟩] at h
              cases h

/-- **An admitted request** gets its audit row when its values can be stored and its id is not taken, and is refused by
the database otherwise. -/
theorem serve_admitted (h : r.admitted app = true) (b : AuditBooks)
    (hfresh : r.rowId ∉ (Db.auditIds b.db).map Prod.fst) :
    (∃ stored, UniqueColumn.Admits (auditColumn b.db.hasCaller) (Db.requestIds b.db) (r.audit app) stored ∧
      (r.serve commits app b).starts = b.starts ++ [.ok r.rowId] ∧
      Db.auditIds (r.serve commits app b).db = UniqueColumn.after commits (Db.auditIds b.db) (r.rowId, stored) ∧
      (r.serve commits app b).db.hasCaller = b.db.hasCaller) ∨
    (¬ (∃ stored, UniqueColumn.Admits (auditColumn b.db.hasCaller) (Db.requestIds b.db) (r.audit app) stored) ∧
      ∃ exc, (r.serve commits app b).starts = b.starts ++ [.error exc]) := by
  obtain ⟨plan, lease, hmodel, hplan, hlease⟩ := admitted_iff.mp h
  let started := inOwnSession commits r.dbAnswer (RequestAuditService.startBody (r.audit app)) b.db
  let b' : AuditBooks := ⟨started.2, b.starts ++ [started.1], 2⟩
  have hanswer : r.answer commits (.startAudit (buildAuditStart app.sha256 r.requestId r.authContext
      r.requestBody.model r.requestBody.messages)) ⟨b.db, b.starts, 0 + 1⟩ = (started.1, b') := rfl
  unfold IncomingRequest.serve
  rw [app.serve_eq hmodel hplan, Program.run_bind, chatCall, Program.run_perform]
  simp only [IncomingRequest.answer, hlease]
  rw [Program.run_bind, chatCall, Program.run_perform, hanswer]
  obtain ⟨hstart, hcaller⟩ := @run_startAudit r commits b.db (r.audit app) hfresh
  rcases hstart with ⟨stored, hadmits, hok, hids⟩ | ⟨hrefused, exc, herror⟩
  · have hstarted : started.1 = .ok r.rowId := hok
    simp only [hstarted]
    obtain ⟨⟨hids', hcaller'⟩, hstarts⟩ := run_responds (r := r) commits (app.makes_served _ _) b'
    refine .inl ⟨stored, hadmits, ?_, hids'.trans hids, hcaller'.trans hcaller⟩
    rw [hstarts, ← hstarted]
  · have hstarted : started.1 = .error exc := herror
    simp only [hstarted]
    exact .inr ⟨hrefused, exc, by rw [← hstarted]⟩

/-- The outcomes of earlier audit starts stay. -/
theorem starts_prefix_serve (b : AuditBooks) : b.starts <+: (r.serve commits app b).starts := by
  have hrun : ∀ (program : ChatProgram Unit) (b : AuditBooks),
      b.starts <+: (program.run (r.answer commits) b).2.starts := by
    intro program
    induction program with
    | ret value => exact fun b => List.prefix_rfl
    | raise exc => exact fun b => List.prefix_rfl
    | call op next ih =>
        intro b
        have hcall : b.starts <+: (r.answer commits op b).2.starts := by
          cases op
          case startAudit audit => exact List.prefix_append _ _
          all_goals exact List.prefix_rfl
        exact hcall.trans (ih _ _)
  exact hrun _ { b with calls := 0 }

end Request

/-! ### Requests one after the other -/

section Requests

variable {commits : Bool} {app : ChatApp}

theorem serveAll_cons (r : IncomingRequest) (requests : List IncomingRequest) (b : AuditBooks) :
    serveAll commits app (r :: requests) b = serveAll commits app requests (r.serve commits app b) := rfl

theorem starts_prefix_serveAll (requests : List IncomingRequest) (b : AuditBooks) :
    b.starts <+: (serveAll commits app requests b).starts := by
  induction requests generalizing b with
  | nil => exact List.prefix_rfl
  | cons r requests ih => exact (starts_prefix_serve commits b).trans (ih _)

section Fresh

variable {r : IncomingRequest} {requests : List IncomingRequest} {db db' : Db}

theorem admittedRequests_admitted (h : r.admitted app = true) :
    admittedRequests app (r :: requests) = r :: admittedRequests app requests := List.filter_cons_of_pos h

theorem admittedRequests_refused (h : r.admitted app = false) :
    admittedRequests app (r :: requests) = admittedRequests app requests := by
  refine List.filter_cons_of_neg ?_
  rw [h]
  exact Bool.false_ne_true

theorem requestIds_after {rowId stored : String}
    (hids : Db.auditIds db' = UniqueColumn.after commits (Db.auditIds db) (rowId, stored)) :
    Db.requestIds db' = UniqueColumn.after commits (Db.requestIds db) stored := by
  rw [Db.requestIds, hids, UniqueColumn.map_after]
  rfl

theorem RowIdsFresh.head (hfresh : RowIdsFresh app db (r :: requests)) (h : r.admitted app = true) :
    r.rowId ∉ (Db.auditIds db).map Prod.fst := by
  rw [RowIdsFresh, admittedRequests_admitted h, List.map_cons] at hfresh
  intro hmem
  exact (List.nodup_append.mp hfresh).2.2 _ hmem _ List.mem_cons_self rfl

theorem RowIdsFresh.admitted (hfresh : RowIdsFresh app db (r :: requests)) (h : r.admitted app = true)
    {stored : String} (hids : Db.auditIds db' = UniqueColumn.after commits (Db.auditIds db) (r.rowId, stored)) :
    RowIdsFresh app db' requests := by
  rw [RowIdsFresh, admittedRequests_admitted h, List.map_cons] at hfresh
  rw [RowIdsFresh, hids, UniqueColumn.map_after]
  exact UniqueColumn.nodup_after hfresh

theorem RowIdsFresh.refused (hfresh : RowIdsFresh app db (r :: requests)) (h : r.admitted app = false)
    (hids : Db.auditIds db' = Db.auditIds db) : RowIdsFresh app db' requests := by
  rw [RowIdsFresh, admittedRequests_refused h] at hfresh
  rw [RowIdsFresh, hids]
  exact hfresh

end Fresh

/-- Audits that are accepted one after the other lead to audit rows. -/
theorem serveAll_accepts {requests : List IncomingRequest} {caller : String → String → String → Bool} (b : AuditBooks)
    (hcaller : b.db.hasCaller = caller) (hfresh : RowIdsFresh app b.db requests)
    (h : UniqueColumn.Accepts (auditColumn caller) commits (Db.requestIds b.db)
      ((admittedRequests app requests).map (IncomingRequest.audit · app))) :
    let books := serveAll commits app requests b
    books.starts = b.starts ++ (admittedRequests app requests).map (fun r => .ok r.rowId) ∧
      Db.auditIds b.db ⊆ Db.auditIds books.db ∧
      (commits = true → ∀ r ∈ admittedRequests app requests,
        (r.rowId, requestIdColumn.keeps r.requestId) ∈ Db.auditIds books.db) := by
  induction requests generalizing b with
  | nil => exact ⟨(List.append_nil _).symm, List.Subset.refl _, fun _ => List.forall_mem_nil _⟩
  | cons r requests ih =>
      rw [serveAll_cons]
      cases hadmitted : r.admitted app with
      | false =>
          obtain ⟨⟨hids, hsame⟩, hstarts⟩ := serve_refused commits hadmitted b
          rw [admittedRequests_refused hadmitted] at h ⊢
          rw [Db.requestIds, ← hids] at h
          have hrest := ih _ (hsame.trans hcaller) (hfresh.refused hadmitted hids) h
          rw [hstarts, hids] at hrest
          exact hrest
      | true =>
          rw [admittedRequests_admitted hadmitted] at h ⊢
          obtain ⟨stored, hadmits, haccepts⟩ := h
          have hkeeps : stored = requestIdColumn.keeps r.requestId := stored_of_admits hadmits
          rcases serve_admitted commits hadmitted b (hfresh.head hadmitted) with
            ⟨other, ⟨hstored, -⟩, hstarts, hids, hsame⟩ | ⟨hrefused, -⟩
          · rw [hcaller] at hstored
            obtain rfl : other = stored := Option.some.inj (hstored.symm.trans hadmits.1)
            rw [← requestIds_after hids] at haccepts
            obtain ⟨hoks, hkept, hrows⟩ := ih _ (hsame.trans hcaller) (hfresh.admitted hadmitted hids) haccepts
            rw [hids] at hkept
            refine ⟨?_, ?_, ?_⟩
            · rw [hoks, hstarts, List.append_assoc]
              rfl
            · exact List.Subset.trans (UniqueColumn.subset_after _ _) hkept
            · intro hcommits other hother
              rcases List.mem_cons.mp hother with rfl | hother
              · refine hkept ?_
                rw [UniqueColumn.after, if_pos hcommits, hkeeps]
                exact List.mem_append_right _ List.mem_cons_self
              · exact hrows hcommits other hother
          · rw [hcaller] at hrefused
            exact absurd ⟨stored, hadmits⟩ hrefused

/-- An audit that is not accepted raises. -/
theorem serveAll_refuses {requests : List IncomingRequest} {caller : String → String → String → Bool} (b : AuditBooks)
    (hcaller : b.db.hasCaller = caller) (hfresh : RowIdsFresh app b.db requests)
    (h : ¬ UniqueColumn.Accepts (auditColumn caller) commits (Db.requestIds b.db)
      ((admittedRequests app requests).map (IncomingRequest.audit · app))) :
    (serveAll commits app requests b).starts ≠
      b.starts ++ (admittedRequests app requests).map (fun r => .ok r.rowId) := by
  induction requests generalizing b with
  | nil => exact absurd trivial h
  | cons r requests ih =>
      rw [serveAll_cons]
      cases hadmitted : r.admitted app with
      | false =>
          obtain ⟨⟨hids, hsame⟩, hstarts⟩ := serve_refused commits hadmitted b
          rw [admittedRequests_refused hadmitted] at h ⊢
          rw [Db.requestIds, ← hids] at h
          have hrest := ih _ (hsame.trans hcaller) (hfresh.refused hadmitted hids) h
          rw [hstarts] at hrest
          exact hrest
      | true =>
          rw [admittedRequests_admitted hadmitted] at h ⊢
          rcases serve_admitted commits hadmitted b (hfresh.head hadmitted) with
            ⟨stored, hadmits, hstarts, hids, hsame⟩ | ⟨-, exc, hstarts⟩
          · have hrefuses : ¬ UniqueColumn.Accepts (auditColumn caller) commits
                (Db.requestIds (r.serve commits app b).db)
                ((admittedRequests app requests).map (IncomingRequest.audit · app)) := by
              rw [requestIds_after hids]
              rw [hcaller] at hadmits
              exact fun haccepts => h ⟨stored, hadmits, haccepts⟩
            have hrest := ih _ (hsame.trans hcaller) (hfresh.admitted hadmitted hids) hrefuses
            rw [hstarts, List.append_assoc] at hrest
            exact hrest
          · obtain ⟨more, hmore⟩ := starts_prefix_serveAll requests (r.serve commits app b)
            rw [← hmore, hstarts, List.append_assoc]
            intro hsame
            cases List.append_cancel_left hsame

/-- Where no client chooses an id and the other values can be stored, the audits fit into the table. -/
theorem DrawsFresh.fits {db : Db} {requests : List IncomingRequest} (h : DrawsFresh app db requests)
    (hgenerated : ∀ r ∈ requests, r.header = none) (hhex : ∀ r ∈ requests, r.hex.toList.length = 32)
    (hstorable : ∀ r ∈ admittedRequests app requests, (r.audit app).storable db.hasCaller = true) :
    UniqueColumn.Fits (auditColumn db.hasCaller) commits (Db.requestIds db)
      ((admittedRequests app requests).map (IncomingRequest.audit · app)) := by
  have hall : generatedRequests app requests = admittedRequests app requests := by
    refine List.filter_eq_self.mpr ?_
    intro r hr
    rw [hgenerated r (List.mem_filter.mp hr).1]
    rfl
  obtain ⟨-, hdistinct, huntaken⟩ := h
  rw [hall] at hdistinct huntaken
  refine ⟨(admittedRequests app requests).map IncomingRequest.requestId, ?_, ?_, fun _ => hdistinct⟩
  · rw [List.map_map, List.map_map]
    refine List.map_congr_left fun r hr => ?_
    have hmem := (List.mem_filter.mp hr).1
    have hid : r.requestId = RequestIdMiddleware.generateRequestId r.hex := by
      rw [IncomingRequest.requestId, hgenerated r hmem]
      rfl
    calc auditColumn db.hasCaller (r.audit app)
        = some (requestIdColumn.keeps r.requestId) := if_pos (hstorable r hr)
      _ = some r.requestId := by rw [hid, keeps_generated (hhex r hmem)]
  · intro id hid
    obtain ⟨r, hr, rfl⟩ := List.mem_map.mp hid
    exact huntaken r hr

/-- **Audits and request ids.** Every admitted request gets its own audit row if and only if the rows of the admitted
requests can be stored and what `request_id` keeps of their ids fits into the column together. -/
theorem audited_iff (commits : Bool) (app : ChatApp) (db : Db) (requests : List IncomingRequest)
    (hfresh : RowIdsFresh app db requests) :
    Audited commits app db requests ↔ UniqueColumn.Fits (auditColumn db.hasCaller) commits (Db.requestIds db)
      ((admittedRequests app requests).map (IncomingRequest.audit · app)) := by
  rw [← UniqueColumn.accepts_iff_fits]
  let first : AuditBooks := ⟨db, [], 0⟩
  constructor
  · rintro ⟨hstarts, -⟩
    by_contra hrefuses
    exact serveAll_refuses first rfl hfresh hrefuses hstarts
  · intro haccepts
    obtain ⟨hstarts, -, hrows⟩ := serveAll_accepts first rfl hfresh haccepts
    refine ⟨hstarts, ?_⟩
    intro hcommits r hr
    exact find_of_mem_auditIds (hrows hcommits r hr)

end Requests

def plainAnswers (_ : Nat) : (op : ChatOp) → Except PyExc op.Res
  | .admitRequest _ _ => .ok ⟨0⟩
  | .finalizeTokens _ _ _ => .ok ()
  | .releaseLease _ => .ok ()
  | .startAudit _ => .ok ""
  | .finalizeAudit _ => .ok ()
  | .createChatCompletion _ => .ok []
  | .streamChatCompletion _ => .ok ⟨[], none⟩
  | .isDisconnected => .ok false
  | .yieldEvent _ => .ok ()
  | .closeStream => .ok ()
  | .recordUsage _ => .ok ()
  | .collect _ => .ok true
  | .elapsedMs => .ok 5
  | .recordStreamStarted => .ok ()
  | .recordStreamTtft => .ok ()
  | .recordStreamFinished => .ok ()

def incomingRequest (header : Option String) (rowId : String) : IncomingRequest where
  header := header
  authContext := plainContext
  requestBody := plainRequest
  hex := "0123456789abcdef0123456789abcdef"
  rowId := rowId
  completedAt := 0
  answers := plainAnswers

theorem admitted_incomingRequest (header : Option String) (rowId : String) :
    (incomingRequest header rowId).admitted plainApp = true :=
  admitted_iff.mpr ⟨⟨8, 10, 18⟩, ⟨0⟩, rfl, rfl, rfl⟩

section Pair

variable (first second : Option String)

def incomingPair : List IncomingRequest := [incomingRequest first "row-1", incomingRequest second "row-2"]

theorem admittedRequests_pair : admittedRequests plainApp (incomingPair first second) = incomingPair first second := by
  rw [incomingPair, admittedRequests_admitted (admitted_incomingRequest _ _),
    admittedRequests_admitted (admitted_incomingRequest _ _)]
  rfl

theorem rowIdsFresh_pair : RowIdsFresh plainApp tenantDb (incomingPair first second) := by
  rw [RowIdsFresh, admittedRequests_pair]
  show ["row-1", "row-2"].Nodup
  decide

/-- Of two requests, the first with an id of its own, one id is generated at most. -/
theorem drawsFresh_pair {first : String} (h : first ≠ "") :
    DrawsFresh plainApp tenantDb (incomingPair (some first) second) := by
  have hgenerated : (generatedRequests plainApp (incomingPair (some first) second)).Sublist
      [incomingRequest second "row-2"] := by
    rw [generatedRequests, admittedRequests_pair, incomingPair,
      List.filter_cons_of_neg (by simp [incomingRequest, h])]
    exact List.filter_sublist
  refine ⟨rowIdsFresh_pair _ _, ?_, fun _ _ => List.not_mem_nil⟩
  exact (List.nodup_singleton _).sublist (hgenerated.map IncomingRequest.requestId)

end Pair

/-- A request without an id of its own, and one with an id that differs from the generated one. -/
theorem audited_pair : Audited true plainApp tenantDb (incomingPair none (some "client-id")) := by
  refine (audited_iff true plainApp _ _ (rowIdsFresh_pair _ _)).mpr ?_
  rw [admittedRequests_pair]
  refine ⟨["req_0123456789abcdef0123456789abcdef", "client-id"], by decide, by decide, ?_⟩
  intro _
  decide

/-- An id of 81 characters cannot be stored. Where sessions commit, the id of an earlier request cannot either. -/
theorem not_audited :
    (¬ ∀ (app : ChatApp) (db : Db) (requests : List IncomingRequest),
      DrawsFresh app db requests → Audited false app db requests) ∧
    ¬ ∀ (app : ChatApp) (db : Db) (requests : List IncomingRequest),
      DrawsFresh app db requests → Audited true app db requests := by
  have hrefuses : ∀ (commits : Bool) (first second : Option String),
      ¬ UniqueColumn.Accepts (auditColumn tenantDb.hasCaller) commits []
        ((incomingPair first second).map (IncomingRequest.audit · plainApp)) →
      ¬ Audited commits plainApp tenantDb (incomingPair first second) := by
    rintro commits first second hrefused ⟨hstarts, -⟩
    refine serveAll_refuses ⟨tenantDb, [], 0⟩ rfl (rowIdsFresh_pair first second) ?_ hstarts
    rw [admittedRequests_pair]
    exact hrefused
  refine ⟨?_, ?_⟩
  · intro h
    let long := String.ofList (List.replicate 81 'a')
    refine hrefuses false (some long) none ?_ (h plainApp _ _ (drawsFresh_pair none (by decide)))
    rintro ⟨stored, ⟨hstored, -⟩, -⟩
    have hnone : auditColumn tenantDb.hasCaller ((incomingRequest (some long) "row-1").audit plainApp) = none := by
      decide
    rw [hnone] at hstored
    cases hstored
  · intro h
    refine hrefuses true (some "same") (some "same") ?_ (h plainApp _ _ (drawsFresh_pair _ (by decide)))
    rintro ⟨stored, ⟨hstored, -⟩, other, ⟨hother, hfree⟩, -⟩
    obtain rfl : stored = other := Option.some.inj (hstored.symm.trans hother)
    exact hfree List.mem_cons_self

end GpuInference

import GpuInference.BatchRequests

/-!
Tenants of the batch routes. Requests of one project run one after the other against a store that
also holds the jobs of another project. They are isolated when the jobs of the other project neither
show in the responses nor change.
-/

open Effect

namespace GpuInference

section Requests

variable {auth : String → Except PyExc AuthContext} {projectId : String} {S Row : Type}
  {store : BatchJobStore S} {request : JobRequest auth projectId} {s s' : S} {response : JSONResponse}

/-- The requests, answered one after the other. -/
def Serves (store : BatchJobStore S) :
    S → List (JobRequest auth projectId) → List JSONResponse → S → Prop
  | s, [], responses, s' => responses = [] ∧ s' = s
  | s, request :: requests, responses, s' => ∃ response rest middle, responses = response :: rest ∧
      request.app.Yields (apiExec auth store) s (.ok response) middle ∧
      Serves store middle requests rest s'

variable {requests : List (JobRequest auth projectId)} {responses : List JSONResponse}

theorem serves_total (rows : JobRows store Row) (requests : List (JobRequest auth projectId)) (s : S) :
    ∃ responses s', Serves store s requests responses s' := by
  induction requests generalizing s with
  | nil => exact ⟨[], s, rfl, rfl⟩
  | cons request requests ih =>
      obtain ⟨response, middle, happ⟩ := app_total rows request s
      obtain ⟨rest, s', hrest⟩ := ih middle
      exact ⟨response :: rest, s', response, rest, middle, rfl, happ, hrest⟩

/-- A request neither adds nor removes a job. -/
theorem isNone_app (rows : JobRows store Row)
    (h : request.app.Yields (apiExec auth store) s (.ok response) s') (jobId : String) :
    (store.get jobId s').isNone = (store.get jobId s).isNone := by
  obtain ⟨-, hshown, hframe⟩ := app_spec rows h
  by_cases hjob : jobId = request.jobId
  · rw [hjob, hshown, JobRequest.shown, Option.isNone_map]
  · rw [rows.get_eq, rows.get_eq, hframe jobId hjob]

/-- Which requests are answered with 404: those whose job is missing. -/
theorem notFound_serves (rows : JobRows store Row) (h : Serves store s requests responses s') :
    responses.map (fun response => decide (response.statusCode = 404)) =
      requests.map fun request => (store.get request.jobId s).isNone := by
  induction requests generalizing s responses with
  | nil =>
      rw [h.1]
      rfl
  | cons request requests ih =>
      obtain ⟨response, rest, middle, rfl, happ, hrest⟩ := h
      rw [List.map_cons, List.map_cons, ih hrest]
      congr 1
      · rw [(app_spec rows happ).1, JobRequest.reply]
        cases store.get request.jobId s with
        | none => rfl
        | some job => rfl
      · exact List.map_congr_left fun other _ => isNone_app rows happ other.jobId

/-- A job that no request names stays as it is. -/
theorem row_serves (rows : JobRows store Row) (h : Serves store s requests responses s')
    {jobId : String} (hother : ∀ request ∈ requests, jobId ≠ request.jobId) :
    rows.row jobId s' = rows.row jobId s := by
  induction requests generalizing s responses with
  | nil => rw [h.2]
  | cons request requests ih =>
      obtain ⟨response, rest, middle, -, happ, hrest⟩ := h
      rw [ih hrest fun later hlater => hother later (by simp [hlater])]
      exact (app_spec rows happ).2.2 jobId (hother request (by simp))

/-- The responses depend on the jobs that are named and on nothing else. -/
theorem responses_serves (rows : JobRows store Row) {t t' : S} {responses' : List JSONResponse}
    (h : Serves store s requests responses s') (h' : Serves store t requests responses' t')
    (hsame : ∀ request ∈ requests, store.get request.jobId s = store.get request.jobId t) :
    responses = responses' := by
  induction requests generalizing s t responses responses' with
  | nil => rw [h.1, h'.1]
  | cons request requests ih =>
      obtain ⟨response, rest, middle, rfl, happ, hrest⟩ := h
      obtain ⟨response', rest', middle', rfl, happ', hrest'⟩ := h'
      obtain ⟨hresponse, hshown, hframe⟩ := app_spec rows happ
      obtain ⟨hresponse', hshown', hframe'⟩ := app_spec rows happ'
      have hfirst := hsame request (by simp)
      rw [hresponse, hresponse', hfirst, ih hrest hrest' ?_]
      intro later hlater
      by_cases hjob : later.jobId = request.jobId
      · rw [hjob, hshown, hshown', hfirst]
      · have hbefore := hsame later (by simp [hlater])
        rw [rows.get_eq, rows.get_eq] at hbefore ⊢
        rw [hframe _ hjob, hframe' _ hjob, hbefore]

/-- The stores hold the same jobs outside the project. -/
def AgreeOutside (rows : JobRows store Row) (other : String) (s t : S) : Prop :=
  ∀ jobId, ((rows.row jobId s).filter fun row => (rows.record row).projectId ≠ other) =
    (rows.row jobId t).filter fun row => (rows.record row).projectId ≠ other

/-- The requests tell nothing about the jobs of the other project and change none of them. -/
def Isolated (rows : JobRows store Row) (other : String) (s : S)
    (requests : List (JobRequest auth projectId)) : Prop :=
  (∀ t, AgreeOutside rows other s t → ∀ responses s' responses' t',
    Serves store s requests responses s' → Serves store t requests responses' t' →
      responses = responses') ∧
  ∀ responses s', Serves store s requests responses s' → ∀ jobId row, rows.row jobId s = some row →
    (rows.record row).projectId = other → rows.row jobId s' = some row

/-- Every request names a job that is stored and belongs to another project than `other`. -/
def NamesOutside (rows : JobRows store Row) (other : String) (s : S)
    (requests : List (JobRequest auth projectId)) : Prop :=
  ∀ request ∈ requests, ∃ row, rows.row request.jobId s = some row ∧
    (rows.record row).projectId ≠ other

theorem isolated_of_namesOutside (rows : JobRows store Row) {other : String}
    (h : NamesOutside rows other s requests) : Isolated rows other s requests := by
  refine ⟨?_, ?_⟩
  · intro t hagree responses s' responses' t' hs ht
    refine responses_serves rows hs ht ?_
    intro request hrequest
    obtain ⟨row, hrow, hproject⟩ := h request hrequest
    have hfilter := hagree request.jobId
    rw [hrow, Option.filter_some_pos (by simpa using hproject)] at hfilter
    have ht : rows.row request.jobId t = some row := (Option.filter_eq_some_iff.mp hfilter.symm).1
    rw [rows.get_eq, rows.get_eq, hrow, ht]
  · intro responses s' hs jobId row hrow hproject
    rw [row_serves rows hs ?_, hrow]
    rintro request hrequest rfl
    obtain ⟨named, hnamed, hne⟩ := h request hrequest
    rw [hrow] at hnamed
    cases hnamed
    exact hne hproject

/-- Whether a job of the other project is stored under an id or not shows in the response. -/
theorem namesOutside_of_isolated (rows : JobRows store Row) {other : String}
    (h : Isolated rows other s requests) : NamesOutside rows other s requests := by
  intro request hrequest
  by_contra hnot
  -- a store that differs in whether the job is there, and in nothing outside the project
  have htoggle : ∃ t, AgreeOutside rows other s t ∧
      (store.get request.jobId t).isNone ≠ (store.get request.jobId s).isNone := by
    have hagree : ∀ t, (∀ jobId ≠ request.jobId, rows.row jobId t = rows.row jobId s) →
        (∀ row, rows.row request.jobId t = some row → (rows.record row).projectId = other) →
        AgreeOutside rows other s t := by
      intro t hframe hproject jobId
      by_cases hjob : jobId = request.jobId
      · have hleft : ((rows.row request.jobId s).filter fun row =>
            (rows.record row).projectId ≠ other) = none := by
          rw [Option.filter_eq_none_iff]
          intro row hrow hne
          exact hnot ⟨row, hrow, by simpa using hne⟩
        have hright : ((rows.row request.jobId t).filter fun row =>
            (rows.record row).projectId ≠ other) = none := by
          rw [Option.filter_eq_none_iff]
          intro row hrow hne
          simp [hproject row hrow] at hne
        rw [hjob, hleft, hright]
      · rw [hframe jobId hjob]
    cases hrow : rows.row request.jobId s with
    | none =>
        obtain ⟨t, ⟨planted, hplanted, hproject⟩, hframe⟩ := rows.plant request.jobId other s hrow
        refine ⟨t, hagree t hframe ?_, ?_⟩
        · intro row hrow'
          rw [hplanted] at hrow'
          cases hrow'
          exact hproject
        · rw [rows.get_eq, rows.get_eq, hrow, hplanted]
          exact nofun
    | some row =>
        obtain ⟨t, hdropped, hframe⟩ := rows.drop request.jobId s
        refine ⟨t, hagree t hframe ?_, ?_⟩
        · intro row' hrow'
          rw [hdropped] at hrow'
          cases hrow'
        · rw [rows.get_eq, rows.get_eq, hrow, hdropped]
          exact nofun
  obtain ⟨t, hagree, hdiffer⟩ := htoggle
  obtain ⟨responses, s', hs⟩ := serves_total rows requests s
  obtain ⟨responses', t', ht⟩ := serves_total rows requests t
  have hsame := h.1 t hagree _ _ _ _ hs ht
  have hmaps := notFound_serves rows ht
  rw [← hsame, notFound_serves rows hs] at hmaps
  exact hdiffer ((List.map_inj_left.mp hmaps request hrequest).symm)

theorem isolated_iff (rows : JobRows store Row) (other : String) (s : S)
    (requests : List (JobRequest auth projectId)) :
    Isolated rows other s requests ↔ NamesOutside rows other s requests :=
  ⟨namesOutside_of_isolated rows, isolated_of_namesOutside rows⟩

end Requests

/-- **Isolation ends at the job id.** Over both stores the requests of a project are isolated from
another project exactly when each of them names a stored job outside the other project; Postgres is taken with its
writes committed, which the source never does. -/
theorem isolated_iff_namesOutside (auth : String → Except PyExc AuthContext) (projectId other : String)
    (requests : List (JobRequest auth projectId)) :
    (∀ self, Isolated InMemoryBatchJobStore.rows other self requests ↔
      NamesOutside InMemoryBatchJobStore.rows other self requests) ∧
    (∀ db, Isolated PostgresBatchJobStore.rows other db requests ↔
      NamesOutside PostgresBatchJobStore.rows other db requests) := by
  refine ⟨?_, ?_⟩
  · intro self
    exact isolated_iff InMemoryBatchJobStore.rows other self requests
  · intro db
    exact isolated_iff PostgresBatchJobStore.rows other db requests

/-- A request of project B for a job of project A. -/
def foreignAuth : String → Except PyExc AuthContext :=
  StaticApiKeyAuthService.authenticate ⟨[("an_b", ⟨"key-b", "user-b", "project-b", none⟩)], []⟩

def foreignRequest : JobRequest foreignAuth "project-b" where
  cancel := true
  jobId := "job"
  authorization := "Bearer an_b"
  requestId := "req"
  rawKey := "an_b"
  context := ⟨"key-b", "user-b", "project-b", none⟩
  token := by decide
  accepted := by decide
  project := rfl

theorem project_not_isolated : ¬ ∀ (auth : String → Except PyExc AuthContext) (projectId other : String),
    projectId ≠ other → ∀ (requests : List (JobRequest auth projectId)) (self : InMemoryBatchJobStore),
      Isolated InMemoryBatchJobStore.rows other self requests := by
  intro h
  let self : InMemoryBatchJobStore :=
    ⟨⟨[InMemoryBatchJobStore.plantedJob "job" "project-a"], List.nodup_singleton _⟩⟩
  have hisolated := h foreignAuth "project-b" "project-a" (by decide) [foreignRequest] self
  obtain ⟨row, hrow, hproject⟩ := namesOutside_of_isolated _ hisolated foreignRequest (by simp)
  have hplanted : row = InMemoryBatchJobStore.plantedJob "job" "project-a" := by
    have hfind : self.get "job" = some (InMemoryBatchJobStore.plantedJob "job" "project-a") := by decide
    exact Option.some.inj (hrow.symm.trans hfind)
  rw [hplanted] at hproject
  exact hproject rfl

end GpuInference

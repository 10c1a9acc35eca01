import GpuInference.BatchRecords
import GpuInference.BatchSystem

/-!
From a submitted batch job to the request that the worker runs. The submission is dumped without null
fields, `stream` is overwritten, and the stored payload is validated again by the schema of a chat request,
which is stricter than that of a submission.
-/

open Effect

namespace GpuInference

theorem readMessage_dump (message : ChatMessage) : readMessage message.dump = some message := by
  obtain ⟨role, content⟩ := message
  cases role <;> rfl

theorem mapM_map_some {α β γ : Type} (read : β → Option γ) (f : α → β) (g : α → γ)
    (h : ∀ a, read (f a) = some (g a)) (items : List α) :
    (items.map f).mapM read = some (items.map g) := by
  induction items with
  | nil => rfl
  | cons a items ih => simp [List.mapM_cons, h, ih]

theorem readMessages_dump (messages : List ChatMessage) :
    readMessages (.arr (messages.map ChatMessage.dump)) = some messages := by
  rw [readMessages, mapM_map_some readMessage ChatMessage.dump id readMessage_dump, List.map_id]

theorem readStop_dump (stop : Stop) : readStop stop.dump = some stop := by
  cases stop with
  | text value => rfl
  | texts values =>
      rw [Stop.dump, readStop, mapM_map_some readStr Json.str id fun _ => rfl, List.map_id]
      rfl

theorem readOptional_of_get {α : Type} (read : Json → Option α) {fields : JsonObject} {name : String}
    {value : Json} (hget : JsonObject.get fields name = some value) (hnull : value ≠ .null) :
    readOptional read fields name = (read value).map some := by
  rw [readOptional, hget]
  split
  · rename_i h
    cases h
  · rename_i h
    exact absurd (Option.some.inj h) hnull
  · rename_i h
    rw [Option.some.inj h]

/-- An optional field whose value was dumped. -/
theorem readOptional_dump {α : Type} {read : Json → Option α} {dump : α → Json} {fields : JsonObject}
    {name : String} {value : Option α} (hget : JsonObject.get fields name = value.map dump)
    (hread : ∀ a, read (dump a) = some a) (hnull : ∀ a, dump a ≠ .null) :
    readOptional read fields name = some value := by
  cases value with
  | none =>
      rw [readOptional, hget]
      rfl
  | some a =>
      rw [readOptional_of_get read hget (hnull a), hread]
      rfl

theorem not_null_of_get_dumpExtra {extra : JsonObject} {key : String} {value : Json}
    (h : JsonObject.get (dumpExtra extra) key = some value) : value ≠ .null := by
  induction extra with
  | nil => cases h
  | cons entry extra ih =>
      obtain ⟨name, other⟩ := entry
      rw [dumpExtra, List.filter_cons] at h
      split at h
      · rename_i hkept
        rw [JsonObject.get_cons] at h
        split at h
        · rw [← Option.some.inj h]
          exact of_decide_eq_true hkept
        · exact ih h
      · exact ih h

/-- `payload["stream"] = False` on the dump of a submission. -/
def storedPayload (request : BatchJobCreateRequest) : JsonObject :=
  JsonObject.set request.modelDump "stream" (.bool false)

section Stored

variable (request : BatchJobCreateRequest)

theorem get_extra_none {key : String} (h : key ∈ batchFieldNames) :
    JsonObject.get (dumpExtra request.extra) key = none := by
  refine get_dumpExtra_none _ _ (JsonObject.get_eq_none _ _ ?_)
  intro hmember
  exact request.extra_fresh key hmember h

theorem get_stored_stream : JsonObject.get (storedPayload request) "stream" = some (.bool false) := by
  rw [storedPayload, JsonObject.get_set, if_pos rfl]

/-- A declared field is stored as it was dumped. -/
theorem get_stored {key : String} (h : key ∈ batchFieldNames) :
    JsonObject.get (storedPayload request) key = JsonObject.get
      ([("model", .str request.model), ("messages", .arr (request.messages.map ChatMessage.dump))] ++
        field "max_tokens" (request.maxTokens.map .int) ++
        field "temperature" (request.temperature.map .float) ++
        field "top_p" (request.topP.map .float) ++
        field "stop" (request.stop.map Stop.dump) ++
        field "metadata" (request.metadata.map .obj)) key := by
  have hstream : key ≠ "stream" := by
    intro heq
    subst heq
    revert h
    decide
  rw [storedPayload, JsonObject.get_set, if_neg (Ne.symm hstream), BatchJobCreateRequest.modelDump,
    JsonObject.get_append, get_extra_none request h, Option.or_none]

theorem get_stored_user :
    JsonObject.get (storedPayload request) "user" = JsonObject.get (dumpExtra request.extra) "user" := by
  rw [storedPayload, JsonObject.get_set, if_neg (by decide), BatchJobCreateRequest.modelDump]
  simp [JsonObject.get_append]

theorem stored_maxTokens (lax : LaxCoercions) :
    readOptional lax.toInt (storedPayload request) "max_tokens" = some request.maxTokens := by
  refine readOptional_dump ?_ lax.toInt_int fun n h => by cases h
  rw [get_stored request (by decide)]
  simp [JsonObject.get_append]

theorem stored_temperature (lax : LaxCoercions) :
    readOptional lax.toFloat (storedPayload request) "temperature" = some request.temperature := by
  refine readOptional_dump ?_ lax.toFloat_float fun x h => by cases h
  rw [get_stored request (by decide)]
  simp [JsonObject.get_append]

theorem stored_topP (lax : LaxCoercions) :
    readOptional lax.toFloat (storedPayload request) "top_p" = some request.topP := by
  refine readOptional_dump ?_ lax.toFloat_float fun x h => by cases h
  rw [get_stored request (by decide)]
  simp [JsonObject.get_append]

theorem stored_stop : readOptional readStop (storedPayload request) "stop" = some request.stop := by
  refine readOptional_dump ?_ readStop_dump fun stop h => by cases stop <;> cases h
  rw [get_stored request (by decide)]
  simp [JsonObject.get_append]

theorem stored_metadata :
    readOptional readObject (storedPayload request) "metadata" = some request.metadata := by
  have hget : JsonObject.get (storedPayload request) "metadata" = request.metadata.map Json.obj := by
    rw [get_stored request (by decide)]
    simp [JsonObject.get_append]
  exact readOptional_dump hget (fun fields => rfl) fun fields h => by cases h

/-- The fields of a submission that a chat request declares and a submission does not. -/
def movedFieldNames : List String := ["stream", "user"]

theorem extraFields_set (names : List String) (fields : JsonObject) {key : String} (h : key ∈ names)
    (value : Json) : extraFields names (JsonObject.set fields key value) = extraFields names fields := by
  induction fields with
  | nil => simp [JsonObject.set, extraFields, h]
  | cons entry fields ih =>
      obtain ⟨name, old⟩ := entry
      rw [JsonObject.set]
      split
      · rename_i heq
        subst heq
        simp [extraFields, h]
      · simp only [extraFields, List.filter_cons] at ih ⊢
        rw [ih]

theorem extraFields_field (names : List String) {name : String} (h : name ∈ names) (value : Option Json) :
    extraFields names (field name value) = [] := by
  cases value with
  | none => rfl
  | some value => simp [field, extraFields, h]

/-- The extra fields of the stored payload are those of the submission, without null and moved ones. -/
theorem extraFields_stored :
    extraFields chatFieldNames (storedPayload request) =
      extraFields movedFieldNames (dumpExtra request.extra) := by
  have happend : ∀ fields more : JsonObject, extraFields chatFieldNames (fields ++ more) =
      extraFields chatFieldNames fields ++ extraFields chatFieldNames more :=
    fun fields more => List.filter_append fields more
  have hhead : ∀ model messages : Json,
      extraFields chatFieldNames [("model", model), ("messages", messages)] = [] := fun _ _ => rfl
  rw [storedPayload, extraFields_set chatFieldNames _ (by decide), BatchJobCreateRequest.modelDump]
  simp only [happend, hhead, List.nil_append,
    extraFields_field chatFieldNames (show "max_tokens" ∈ chatFieldNames by decide),
    extraFields_field chatFieldNames (show "temperature" ∈ chatFieldNames by decide),
    extraFields_field chatFieldNames (show "top_p" ∈ chatFieldNames by decide),
    extraFields_field chatFieldNames (show "stop" ∈ chatFieldNames by decide),
    extraFields_field chatFieldNames (show "metadata" ∈ chatFieldNames by decide)]
  refine List.filter_congr ?_
  intro entry hentry
  have hfresh : entry.1 ∉ batchFieldNames :=
    request.extra_fresh entry.1 (List.mem_map_of_mem (List.mem_of_mem_filter hentry))
  simp only [batchFieldNames, List.mem_cons, List.not_mem_nil, or_false, not_or] at hfresh
  simp [chatFieldNames, movedFieldNames, hfresh]

end Stored

/-- The worker's request is the submission: null extra fields are dropped, `stream` is off, and an extra
`user` has become the declared one. -/
structure AsSubmitted (request : BatchJobCreateRequest) (chat : ChatCompletionRequest) : Prop where
  model : chat.model = request.model
  messages : chat.messages = request.messages
  stream : chat.stream = false
  maxTokens : chat.maxTokens = request.maxTokens
  temperature : chat.temperature = request.temperature
  topP : chat.topP = request.topP
  stop : chat.stop = request.stop
  metadata : chat.metadata = request.metadata
  user : chat.user.map Json.str = JsonObject.get (dumpExtra request.extra) "user"
  extra : chat.extra = extraFields movedFieldNames (dumpExtra request.extra)

/-- The submission is within the bounds of the stricter schema. -/
structure Runnable (request : BatchJobCreateRequest) : Prop where
  model : strip request.model ≠ ""
  messages : request.messages ≠ []
  maxTokens : ∀ n ∈ request.maxTokens, 0 < n
  temperature : ∀ x ∈ request.temperature, x.geRat 0 = true
  topP : ∀ x ∈ request.topP, x.gtRat 0 = true ∧ x.leRat 1 = true
  user : ∀ value ∈ JsonObject.get (dumpExtra request.extra) "user", ∃ text, value = .str text

/-- How the extra `user` of a submission is read as a declared field. -/
theorem stored_user (request : BatchJobCreateRequest) :
    match readOptional readStr (storedPayload request) "user" with
    | some user => user.map Json.str = JsonObject.get (dumpExtra request.extra) "user"
    | none => ∃ value ∈ JsonObject.get (dumpExtra request.extra) "user", ∀ text, value ≠ .str text := by
  cases hget : JsonObject.get (dumpExtra request.extra) "user" with
  | none =>
      rw [readOptional, get_stored_user, hget]
      rfl
  | some value =>
      have hstored : JsonObject.get (storedPayload request) "user" = some value :=
        (get_stored_user request).trans hget
      rw [readOptional_of_get readStr hstored (not_null_of_get_dumpExtra hget)]
      cases value with
      | str text => exact rfl
      | null => exact ⟨_, rfl, fun text h => by cases h⟩
      | bool b => exact ⟨_, rfl, fun text h => by cases h⟩
      | int n => exact ⟨_, rfl, fun text h => by cases h⟩
      | float x => exact ⟨_, rfl, fun text h => by cases h⟩
      | arr items => exact ⟨_, rfl, fun text h => by cases h⟩
      | obj fields => exact ⟨_, rfl, fun text h => by cases h⟩

/-- Validation of the stored payload, on what it reads. -/
theorem modelValidate_stored (lax : LaxCoercions) (request : BatchJobCreateRequest) :
    (∃ chat, ChatCompletionRequest.modelValidate lax (storedPayload request) = .ok chat ∧
      AsSubmitted request chat) ↔ Runnable request := by
  unfold ChatCompletionRequest.modelValidate
  have hmodel : JsonObject.get (storedPayload request) "model" = some (.str request.model) :=
    get_stored request (by decide)
  have hmessages : JsonObject.get (storedPayload request) "messages" =
      some (.arr (request.messages.map ChatMessage.dump)) := get_stored request (by decide)
  simp only [hmodel, hmessages, get_stored_stream, readMessages_dump, lax.toBool_bool,
    stored_maxTokens, stored_temperature, stored_topP, stored_stop, stored_metadata, readStr,
    Option.bind_eq_bind, Option.bind_some]
  have huser := stored_user request
  cases hread : readOptional readStr (storedPayload request) "user" with
  | none =>
      rw [hread] at huser
      obtain ⟨value, hvalue, htext⟩ := huser
      constructor
      · rintro ⟨chat, hchat, -⟩
        cases hchat
      · intro hrunnable
        obtain ⟨text, rfl⟩ := hrunnable.user value hvalue
        exact absurd rfl (htext text)
  | some user =>
      rw [hread] at huser
      simp only [Option.bind_some]
      split
      · rename_i hread
        split at hread
        · rename_i hbounds
          obtain rfl := Option.some.inj hread
          constructor
          · intro _
            refine ⟨hbounds.1, hbounds.2.1, hbounds.2.2.1, hbounds.2.2.2.1, hbounds.2.2.2.2, ?_⟩
            intro value hvalue
            have hmapped : user.map Json.str = some value := huser.trans hvalue
            obtain ⟨text, -, rfl⟩ := Option.map_eq_some_iff.mp hmapped
            exact ⟨text, rfl⟩
          · intro _
            exact ⟨_, rfl, rfl, rfl, rfl, rfl, rfl, rfl, rfl, rfl, huser, extraFields_stored request⟩
        · cases hread
      · rename_i hread
        split at hread
        · cases hread
        · rename_i hbounds
          constructor
          · rintro ⟨chat, hchat, -⟩
            cases hchat
          · intro hrunnable
            exact absurd ⟨hrunnable.model, hrunnable.messages, hrunnable.maxTokens, hrunnable.temperature,
              hrunnable.topP⟩ hbounds

/-- What the worker makes of a stored job. -/
def RunsAsSubmitted (lax : LaxCoercions) (request : BatchJobCreateRequest) (job : BatchJobRecord) : Prop :=
  ∃ chat, chatRequestFromBatch lax job = .ok chat ∧ AsSubmitted request chat

/-- A store keeps a created job under its id, with the payload it was created with. -/
def BatchJobStore.KeepsCreated {S : Type} (store : BatchJobStore S) : Prop :=
  ∀ authContext payload model s job s', store.create authContext payload model s job s' →
    store.get job.id s' = some job ∧ job.inputPayload = payload

theorem BatchJobStore.ActsOnRecords.keepsCreated {S : Type} {store : BatchJobStore S}
    {marking : BatchJobStore.Marking} (h : store.ActsOnRecords marking) : store.KeepsCreated := by
  intro authContext payload model s job s' hcreate
  obtain ⟨-, ⟨metadata, hjob⟩, hafter⟩ := h.create authContext payload model s job s' hcreate
  refine ⟨?_, ?_⟩
  · rw [hafter, if_pos rfl]
  · rw [hjob]
    rfl

/-- A submission that is accepted has created its job; the queue may have failed. -/
theorem yields_submit {S : Type} {store : BatchJobStore S} {authContext : AuthContext}
    {request : BatchJobCreateRequest} {w w' : BatchWorld S} {job : BatchJobRecord}
    (h : (BatchJobService.submit authContext request).Yields store.exec w (.ok job) w') :
    JsonObject.get request.modelDump "stream" ≠ some (.bool true) ∧
      store.create authContext (storedPayload request) request.model w.store job w'.store := by
  unfold BatchJobService.submit at h
  simp only at h
  split at h
  · obtain ⟨hraised, -⟩ := h
    cases hraised
  · rename_i hstream
    refine ⟨hstream, ?_⟩
    obtain ⟨created, middle, hcreate, hrest⟩ := (Program.yields_bind_ok _ _ _ _ _ _).mp h
    have hcreated := (Program.yields_perform _ _ _ _ _).mp hcreate
    obtain ⟨sent, last, henqueue, hjob, rfl⟩ := (Program.yields_bind_ok _ _ _ _ _ _).mp hrest
    obtain rfl := Except.ok.inj hjob
    have hstore : w'.store = middle.store := by
      obtain ⟨answer, after, hsent, hleft⟩ := henqueue
      have hafter : after.store = middle.store := by
        cases answer with
        | ok value => exact hsent.1
        | error exc => exact hsent.1
      cases answer with
      | ok value =>
          obtain ⟨-, rfl⟩ := hleft
          exact hafter
      | error exc =>
          simp only [Program.tryExcept] at hleft
          split at hleft
          · obtain ⟨-, rfl⟩ := hleft
            exact hafter
          · obtain ⟨hraised, -⟩ := hleft
            cases hraised
    rw [hstore]
    exact hcreated.1

/-- For a store that keeps what it creates. -/
theorem stored_runs_iff {S : Type} {store : BatchJobStore S} (hstore : store.KeepsCreated)
    (lax : LaxCoercions) {authContext : AuthContext} {request : BatchJobCreateRequest} {w w' : BatchWorld S}
    {job : BatchJobRecord}
    (h : (BatchJobService.submit authContext request).Yields store.exec w (.ok job) w') :
    ∃ stored, store.get job.id w'.store = some stored ∧
      (RunsAsSubmitted lax request stored ↔ Runnable request) := by
  obtain ⟨-, hcreate⟩ := yields_submit h
  obtain ⟨hget, hpayload⟩ := hstore _ _ _ _ _ _ hcreate
  refine ⟨job, hget, ?_⟩
  rw [RunsAsSubmitted, chatRequestFromBatch, hpayload]
  exact modelValidate_stored lax request

/-- **An accepted job runs as submitted** exactly when the submission is within the bounds of the schema
of a chat request, in either store; Postgres is taken with its writes committed, which the source never does. -/
theorem runs_as_submitted_iff (lax : LaxCoercions) (authContext : AuthContext)
    (request : BatchJobCreateRequest) :
    (∀ w job w', (BatchJobService.submit authContext request).Yields InMemoryBatchJobStore.store.exec w
      (.ok job) w' → ∃ stored, InMemoryBatchJobStore.store.get job.id w'.store = some stored ∧
        (RunsAsSubmitted lax request stored ↔ Runnable request)) ∧
    ∀ w job w', (BatchJobService.submit authContext request).Yields PostgresBatchJobStore.store.exec w
      (.ok job) w' → ∃ stored, PostgresBatchJobStore.store.get job.id w'.store = some stored ∧
        (RunsAsSubmitted lax request stored ↔ Runnable request) :=
  ⟨fun _ _ _ h => stored_runs_iff InMemoryBatchJobStore.actsOnRecords.keepsCreated lax h,
    fun _ _ _ h => stored_runs_iff PostgresBatchJobStore.actsOnRecords.keepsCreated lax h⟩

def submitter : AuthContext := ⟨"key", "user", "project", none⟩

/-- A submission with no field set but `messages`. -/
def plainSubmission (messages : List ChatMessage) : BatchJobCreateRequest where
  model := "model"
  messages := messages
  maxTokens := none
  temperature := none
  topP := none
  stop := none
  metadata := none
  extra := []
  extra_fresh := List.forall_mem_nil _

theorem submit_plain (messages : List ChatMessage) :
    BatchJobService.submit submitter (plainSubmission messages) =
      ((batchCall (.create submitter (storedPayload (plainSubmission messages)) "model")).bind fun job =>
        (Program.tryExcept PyExc.isException (batchCall (.enqueue job.id)) fun _ => .ret ()).bind fun _ =>
          .ret job) := by
  have hstream : ¬ JsonObject.get (plainSubmission messages).modelDump "stream" = some (.bool true) := by
    intro h
    cases h
  unfold BatchJobService.submit
  simp only [if_neg hstream]
  rfl

theorem submits_inMemory (messages : List ChatMessage) : ∃ job w',
    (BatchJobService.submit submitter (plainSubmission messages)).Yields InMemoryBatchJobStore.store.exec
      ⟨.empty, []⟩ (.ok job) w' := by
  rw [submit_plain]
  let created := InMemoryBatchJobStore.empty.create submitter (storedPayload (plainSubmission messages))
    "model" "hex"
  exact ⟨created.1, ⟨created.2, [created.1.id]⟩, .ok created.1, ⟨created.2, []⟩,
    ⟨⟨"hex", rfl, rfl⟩, rfl⟩, .ok (), ⟨created.2, [created.1.id]⟩, ⟨rfl, rfl⟩, rfl, rfl⟩

theorem submits_postgres : ∃ job w',
    (BatchJobService.submit submitter (plainSubmission [⟨.user, "Hello"⟩])).Yields
      PostgresBatchJobStore.store.exec ⟨tenantDb, []⟩ (.ok job) w' := by
  rw [submit_plain]
  let row := createdRow "job" submitter (storedPayload (plainSubmission [⟨.user, "Hello"⟩])) "model" 0 0
  let db : Db := Function.update tenantDb .batchJobs ⟨[row], List.nodup_singleton _⟩
  have hcreate : PostgresBatchJobStore.store.create submitter
      (storedPayload (plainSubmission [⟨.user, "Hello"⟩])) "model" tenantDb (recordFromModel row) db :=
    ⟨.ok "job", _, rfl, .ok (0 : Int), _, rfl, .ok (0 : Int), _, rfl, .ok row, _, ⟨rfl, rfl⟩, rfl, rfl⟩
  exact ⟨recordFromModel row, ⟨db, ["job"]⟩, .ok (recordFromModel row), ⟨db, []⟩,
    ⟨hcreate, rfl⟩, .ok (), ⟨db, ["job"]⟩, ⟨rfl, rfl⟩, rfl, rfl⟩

/-- A job with one message, in either store. -/
theorem runs_as_submitted_plain :
    (∃ w' job stored, InMemoryBatchJobStore.store.get job w' = some stored ∧
      RunsAsSubmitted .strict (plainSubmission [⟨.user, "Hello"⟩]) stored) ∧
    ∃ w' job stored, PostgresBatchJobStore.store.get job w' = some stored ∧
      RunsAsSubmitted .strict (plainSubmission [⟨.user, "Hello"⟩]) stored := by
  have hrunnable : Runnable (plainSubmission [⟨.user, "Hello"⟩]) := by
    refine ⟨by decide, List.cons_ne_nil _ _, ?_, ?_, ?_, ?_⟩
    · intro n hn
      cases hn
    · intro x hx
      cases hx
    · intro x hx
      cases hx
    · intro value hvalue
      cases hvalue
  have hruns := runs_as_submitted_iff .strict submitter (plainSubmission [⟨.user, "Hello"⟩])
  obtain ⟨job, w', h⟩ := submits_inMemory [⟨.user, "Hello"⟩]
  obtain ⟨stored, hstored, hiff⟩ := hruns.1 _ _ _ h
  obtain ⟨job', w'', h'⟩ := submits_postgres
  obtain ⟨stored', hstored', hiff'⟩ := hruns.2 _ _ _ h'
  exact ⟨⟨_, _, stored, hstored, hiff.mpr hrunnable⟩, _, _, stored', hstored', hiff'.mpr hrunnable⟩

/-- A submission without messages is accepted, and no worker can run it. -/
theorem accepted_not_runnable : ¬ ∀ (lax : LaxCoercions) (authContext : AuthContext)
    (request : BatchJobCreateRequest) (w : BatchWorld InMemoryBatchJobStore) (job : BatchJobRecord)
    (w' : BatchWorld InMemoryBatchJobStore),
    (BatchJobService.submit authContext request).Yields InMemoryBatchJobStore.store.exec w (.ok job) w' →
      ∃ stored, InMemoryBatchJobStore.store.get job.id w'.store = some stored ∧
        RunsAsSubmitted lax request stored := by
  intro h
  obtain ⟨job, w', hsubmit⟩ := submits_inMemory []
  obtain ⟨stored, hstored, hruns⟩ := h .strict submitter (plainSubmission []) _ job w' hsubmit
  obtain ⟨other, hother, hiff⟩ := stored_runs_iff InMemoryBatchJobStore.actsOnRecords.keepsCreated .strict hsubmit
  obtain rfl := Option.some.inj (hother.symm.trans hstored)
  exact (hiff.mp hruns).messages rfl

end GpuInference

import MarkorbitKnowledge.Staging.Outcome
import MarkorbitKnowledge.Staging.Summary
import MarkorbitKnowledge.Staging.Verification

/-!
# Every ingested document gets a decision, or not

The descriptor with the decision has to satisfy its validator again.  The evaluation sees to the
checks, the messages and the summary; the warning about fields nobody reads is as long as the paths
of these fields are, and the validator stops at 500 characters.
-/

namespace MarkorbitKnowledge.Staging

open Contracts Fallible
open Execution (RegistryError)
open Conversion

/-! ### The evaluation yields a result -/

theorem length_fields_le {raw : Text} {state : LineState} (h : parseRaw raw = .ok state) :
    state.fields.length ≤ MAX_FIELDS := by
  obtain ⟨-, -, -, -, -, hroom, fields, hread, rfl⟩ := parseRaw_eq_ok.mp h
  have hlength : ∀ {ds : List Declaration} {fields : List ParsedField},
      ds.mapM Declaration.read = some fields → fields.length = ds.length := by
    intro ds
    induction ds with
    | nil =>
      intro fields h
      rw [List.mapM_nil] at h
      exact Option.some.inj h ▸ rfl
    | cons d ds ih =>
      intro fields h
      simp only [List.mapM_cons, Option.bind_eq_bind, Option.bind_eq_some_iff, Option.pure_def,
        Option.some.injEq] at h
      obtain ⟨field, -, rest, hrest, rfl⟩ := h
      rw [List.length_cons, List.length_cons, ih hrest]
  rw [List.nil_append, hlength hread]
  exact Nat.le_trans (Nat.le_add_left _ _) hroom

variable {platform : StagingPlatform}

theorem evaluate_total (hsuffixes : HasSuffixes platform) (d : StagingDocumentDescriptor)
    (run : ConversionRun) (bytes : ByteArray) :
    ∃ e n, frontmatterSummary e.frontmatterSummary = true ∧
      ∀ fuel ≥ n, evaluate platform fuel d run bytes = some e := by
  have hnone : frontmatterSummary noFields = true := by decide
  unfold evaluate
  cases decodeFatal bytes with
  | none => exact ⟨_, 0, hnone, fun _ _ => rfl⟩
  | some text =>
    simp only
    cases hparse : parseFrontmatter text with
    | failed failure body => exact ⟨_, 0, hnone, fun _ _ => rfl⟩
    | parsed fields body =>
      obtain ⟨raw, state, -, -, hraw, rfl⟩ := parseFrontmatter_eq_parsed.mp hparse
      obtain ⟨summary, n, hsummary, hfuel⟩ := summarize_total hsuffixes (length_fields_le hraw)
      refine ⟨evaluation ([check "STAGING_CAS_INTEGRITY" true, check "MARKDOWN_UTF8_VALID" true] ++
        textChecks d run.input.sha256 (.parsed state.fields body))
        (extraFieldsWarning state.fields) summary, n, hsummary, fun fuel hn => ?_⟩
      simp only [hfuel fuel hn]
      rfl

/-! ### The validator of the decision -/

/-- The paths of the fields that nobody reads fit into the warning about them. -/
def ExtraKeysFit (bytes : ByteArray) : Prop :=
  ∀ text fields body, decodeFatal bytes = some text → parseFrontmatter text = .parsed fields body →
    textLength (joinedKeys (extraKeys fields)) ≤ 467

theorem validationCheck_check {code : String} (h : isCheckCode code = true) (passes : Bool) :
    validationCheck (check code passes) = true := by
  simp [validationCheck, check, h]

theorem contains_status (checks : List StagingValidationCheck) (status : StagingCheckStatus) :
    (checks.map (·.status)).contains status = checks.any (·.status = status) := by
  rw [List.contains_eq_any_beq, List.any_map]
  refine List.any_congr rfl ?_
  intro c
  simp only [Function.comp_apply, beq_eq_decide, eq_comm (a := status)]

/-- The outcome fits the checks, so that only the checks and the warnings themselves are left to
    validate. -/
theorem stagingValidation_outcome {checks : List StagingValidationCheck} {warnings : List Text}
    (hwarning : warnings ≠ [] → checks.any (·.status = .warn) = true) :
    stagingValidation { outcome := outcome checks, checks, warnings } = true ↔
      (∀ c ∈ checks, validationCheck c = true) ∧ ∀ w ∈ warnings, isShortText w = true := by
  have hconsistent : outcomeIsValid (outcome checks) (checks.map (·.status)) warnings = true := by
    unfold outcome outcomeIsValid
    rw [contains_status, contains_status]
    cases hfail : checks.any (·.status = .fail) with
    | true => simp
    | false =>
      cases hwarn : checks.any (·.status = .warn) with
      | true => simp
      | false =>
        have hnil : warnings = [] := by
          by_contra hne
          rw [hwarning hne] at hwarn
          cases hwarn
        simp [hnil]
  simp only [stagingValidation, hconsistent, Bool.and_true, Bool.and_eq_true, List.all_eq_true]

theorem isShortText_warning (t : Text) :
    isShortText ("Unrecognized frontmatter fields: ".toList ++ t) = true ↔ textLength t ≤ 467 := by
  have hprefix : textLength "Unrecognized frontmatter fields: ".toList = 33 := by decide
  rw [isShortText, Bool.and_eq_true, decide_eq_true_eq, decide_eq_true_eq, textLength_append, hprefix]
  omega

/-- The warning is short if and only if the paths in it are. -/
theorem extraFieldsWarning_short {fields : List ParsedField} :
    (∀ w ∈ extraFieldsWarning fields, isShortText w = true) ↔
      textLength (joinedKeys (extraKeys fields)) ≤ 467 := by
  unfold extraFieldsWarning
  split
  · rename_i hempty
    rw [List.isEmpty_iff.mp hempty]
    simp [joinedKeys, textLength]
  · simp only [List.mem_singleton, forall_eq, isShortText_warning]

theorem validationCheck_standard {code : String} (h : code ∈ standardChecks) (passes : Bool) :
    validationCheck (check code passes) = true := by
  have hcodes : standardChecks.all isCheckCode = true := by decide
  exact validationCheck_check (List.all_eq_true.mp hcodes code h) passes

theorem validationCheck_failure {failure : ParseFailure} (h : failure.IsCheck) :
    ∀ c ∈ failureChecks failure, validationCheck c = true := by
  intro c hc
  obtain ⟨code, hcode, rfl⟩ := List.mem_map.mp hc
  split
  · have hcodes : standardChecks.all isCheckCode = true := by decide
    simp [validationCheck, List.all_eq_true.mp hcodes code hcode, h.message]
  · exact validationCheck_standard hcode true

theorem validationCheck_binding (d : StagingDocumentDescriptor) (inputSha256 : Digest)
    (fields : List ParsedField) :
    ∀ c ∈ bindingChecks d inputSha256 fields, validationCheck c = true := by
  simp only [bindingChecks, List.forall_mem_cons, List.not_mem_nil, false_implies, implies_true,
    and_true]
  refine ⟨?_, ?_, ?_, ?_, ?_, ?_, ?_⟩ <;> exact validationCheck_check (by decide) _

/-- Every check of an evaluation is valid if the warning in it is. -/
theorem validationCheck_textChecks {d : StagingDocumentDescriptor} {inputSha256 : Digest}
    {text : Text} {fields : List ParsedField} {body : Text}
    (h : parseFrontmatter text = .parsed fields body) :
    (∀ c ∈ textChecks d inputSha256 (parseFrontmatter text), validationCheck c = true) ↔
      textLength (joinedKeys (extraKeys fields)) ≤ 467 := by
  have hstandard : ∀ c ∈ standardChecks.map (check · true), validationCheck c = true := by
    intro c hc
    obtain ⟨code, hcode, rfl⟩ := List.mem_map.mp hc
    exact validationCheck_standard hcode true
  have hbody : validationCheck (bodyCheck body) = true := validationCheck_check (by decide) _
  have hwarnings : (∀ c ∈ (extraFieldsWarning fields).map (fun warning =>
      ({ code := "FRONTMATTER_EXTRA_FIELDS", status := .warn, message := some warning } :
        StagingValidationCheck)), validationCheck c = true) ↔
      ∀ w ∈ extraFieldsWarning fields, isShortText w = true := by
    have hcode : isCheckCode "FRONTMATTER_EXTRA_FIELDS" = true := by decide
    simp [validationCheck, hcode]
  rw [h]
  simp only [textChecks, List.forall_mem_append, List.mem_singleton, forall_eq, hwarnings,
    extraFieldsWarning_short]
  constructor
  · rintro ⟨-, hfit⟩
    exact hfit
  · intro hfit
    exact ⟨⟨⟨hstandard, validationCheck_binding d inputSha256 fields⟩, hbody⟩, hfit⟩

variable {fuel : Nat} {d : StagingDocumentDescriptor} {run : ConversionRun} {bytes : ByteArray}
  {e : Evaluation}

theorem stagingValidation_evaluate (h : evaluate platform fuel d run bytes = some e) :
    stagingValidation { outcome := e.outcome, checks := e.checks, warnings := e.warnings } = true ↔
      ExtraKeysFit bytes := by
  have hfirst : ∀ c ∈ [check "STAGING_CAS_INTEGRITY" true, check "MARKDOWN_UTF8_VALID" true],
      validationCheck c = true := by
    simp only [List.forall_mem_cons, List.not_mem_nil, false_implies, implies_true, and_true]
    exact ⟨validationCheck_check (by decide) _, validationCheck_check (by decide) _⟩
  unfold evaluate at h
  cases hdecode : decodeFatal bytes with
  | none =>
    simp only [hdecode, Option.some.injEq] at h
    subst h
    simp only [ExtraKeysFit, hdecode]
    exact iff_of_true (by decide) (by intro _ _ _ h; cases h)
  | some text =>
    simp only [hdecode] at h
    cases hparse : parseFrontmatter text with
    | failed failure body =>
      simp only [hparse, Option.some.injEq] at h
      subst h
      have hchecks : ∀ c ∈ textChecks d run.input.sha256 (.failed failure body),
          validationCheck c = true := by
        simp only [textChecks, List.forall_mem_append, List.mem_singleton, forall_eq]
        exact ⟨validationCheck_failure (isCheck_of_failed hparse), validationCheck_check (by decide) _⟩
      refine iff_of_true ?_ ?_
      · refine (stagingValidation_outcome ?_).mpr ⟨?_, by simp [evaluation]⟩
        · intro hne
          exact absurd rfl hne
        · rw [List.forall_mem_append]
          exact ⟨hfirst, hchecks⟩
      · intro text' _ _ htext hparsed
        rw [hdecode, Option.some.injEq] at htext
        rw [← htext, hparse] at hparsed
        cases hparsed
    | parsed fields body =>
      simp only [hparse, Option.map_eq_some_iff] at h
      obtain ⟨summary, -, rfl⟩ := h
      have hchecks := @validationCheck_textChecks d run.input.sha256 text fields body hparse
      rw [hparse] at hchecks
      have hwarning : extraFieldsWarning fields ≠ [] → ([check "STAGING_CAS_INTEGRITY" true,
          check "MARKDOWN_UTF8_VALID" true] ++
          textChecks d run.input.sha256 (.parsed fields body)).any (·.status = .warn) = true := by
        intro hne
        obtain ⟨warning, hmem⟩ := List.exists_mem_of_ne_nil _ hne
        refine List.any_eq_true.mpr ⟨_, List.mem_append_right _ (List.mem_append_right _
          (List.mem_map.mpr ⟨warning, hmem, rfl⟩)), by simp⟩
      rw [evaluation]
      rw [stagingValidation_outcome hwarning, List.forall_mem_append, hchecks,
        extraFieldsWarning_short]
      constructor
      · rintro ⟨-, hfit⟩ text' fields' body' htext hparsed
        rw [hdecode, Option.some.injEq] at htext
        rw [← htext, hparse] at hparsed
        cases hparsed
        exact hfit
      · intro hfit
        have := hfit text fields body hdecode hparse
        exact ⟨⟨hfirst, this⟩, this⟩

theorem isStagingDocumentDescriptor_verified_iff (hd : isStagingDocumentDescriptor d = true)
    (h : evaluate platform fuel d run bytes = some e)
    (hsummary : frontmatterSummary e.frontmatterSummary = true) :
    isStagingDocumentDescriptor (verified d e) = true ↔ ExtraKeysFit bytes := by
  have hstatus : statusIsValid (verified d e).status (verified d e).validation.outcome = true := by
    simp only [verified]
    cases e.outcome <;> rfl
  rw [← stagingValidation_evaluate h]
  simp only [isStagingDocumentDescriptor, Bool.and_eq_true] at hd ⊢
  obtain ⟨⟨⟨⟨⟨⟨⟨htitle, hpath⟩, hsize⟩, -⟩, hconverter⟩, hinstant⟩, -⟩, -⟩ := hd
  rw [hstatus]
  simp only [verified, hpath, hsize, hconverter, hinstant, hsummary, and_true]
  exact and_iff_right htitle

/-! ### From an ingest to its decision -/

variable {services : StagingServices}

/-- A document that waits for its verification: it is stored as generated, its run is verifying, and
    its content is in its file. -/
structure Awaiting (services : StagingServices) (s : StagingState) (record : StagingDocumentRecord)
    (run : ConversionRun) (content : ByteArray) : Prop where
  document : Tables.find? s.db.documents record.descriptor.id = some record
  valid : isStagingDocumentDescriptor record.descriptor = true
  generated : record.descriptor.status = .generated
  loaded : s.db.loadRun record.descriptor.conversionRunId = .ok run
  workspace : run.workspaceId = record.descriptor.workspaceId
  verifying : run.status = .verifying
  object : (Tables.find? s.db.objects record.descriptor.contentHash).isSome = true
  file : s.files record.descriptor.contentHash = some content
  bytes : content.size = record.descriptor.sizeBytes ∧
    services.sha256 content = record.descriptor.contentHash

theorem storeContent_spec {files files' : Files} {contentHash : Digest} {content : ByteArray}
    {contentCreated : Bool} (hhash : services.sha256 content = contentHash)
    (h : storeContent services files contentHash content = .ok (files', contentCreated)) :
    ∃ stored, files' contentHash = some stored ∧ stored.size = content.size ∧
      services.sha256 stored = contentHash := by
  unfold storeContent at h
  split at h
  · rename_i stored hstored
    simp only [verifyStoredBytes, bind_eq_ok, require_eq_ok, exists_and_left, exists_const,
      pure_eq_ok, Prod.mk.injEq] at h
    obtain ⟨⟨hsize, hsha⟩, rfl, -⟩ := h
    exact ⟨stored, hstored, hsize, hsha⟩
  · rw [pure_eq_ok, Prod.mk.injEq] at h
    obtain ⟨rfl, -⟩ := h
    exact ⟨content, by simp [Files.write], rfl, hhash⟩

theorem ingestTicket_eq_ok {input : IngestGeneratedStagingContentInput} {now : Timestamp}
    {ticket : IngestTicket} (h : ingestTicket services input now = .ok ticket) :
    ticket.contentHash = services.sha256 input.content := by
  simp only [ingestTicket, bind_eq_ok, pure_eq_ok] at h
  obtain ⟨_, -, _, -, _, -, _, -, rfl⟩ := h
  rfl

theorem loadRun_congr {db db' : StagingDatabase} (h : db'.conversion = db.conversion) (id : Id) :
    db'.loadRun id = db.loadRun id := by
  rw [StagingDatabase.loadRun, StagingDatabase.loadRun, h]

theorem ingestReads_fresh {db : StagingDatabase} {input : IngestGeneratedStagingContentInput}
    {ticket : IngestTicket} {run : ConversionRun} {grant : StagingOutputUploadGrant}
    (h : ingestReads db input ticket = .ok (.fresh run grant)) :
    db.loadRun run.id = .ok run ∧ run.status = .verifying ∧
      run.workspaceId = input.workspaceId := by
  unfold ingestReads at h
  split at h
  · simp only [bind_eq_ok, pure_eq_ok] at h
    obtain ⟨_, -, _, -, h⟩ := h
    cases h
  · simp only [bind_eq_ok, pure_eq_ok, assertBinding, require_eq_ok] at h
    obtain ⟨run', hrun, _, -, _, -, _, -, _, ⟨_, hscope, _, hstatus, -⟩, _, -, _, -, _, -, h⟩ := h
    cases h
    exact ⟨by rw [hscope.2.2.2.1]; exact hrun, hstatus.1, hscope.1⟩

theorem ingestRows_eq_ok {db db' : StagingDatabase} {input : IngestGeneratedStagingContentInput}
    {ticket : IngestTicket} {run : ConversionRun} {grant : StagingOutputUploadGrant}
    {documentId : Id} {record : StagingDocumentRecord}
    (h : ingestRows db input ticket run grant documentId = .ok (record, db')) :
    isStagingDocumentDescriptor record.descriptor = true ∧
      record.descriptor = newDescriptor input ticket run grant documentId ∧
      Tables.find? db.documents documentId = none ∧ db'.conversion = db.conversion ∧
      db'.documents = db.documents ++ [record] ∧ db'.verifications = db.verifications ∧
      db'.verificationRequests = db.verificationRequests ∧
      (Tables.find? db'.objects ticket.contentHash).isSome = true := by
  simp only [ingestRows, bind_eq_ok, require_eq_ok, pure_eq_ok, Prod.mk.injEq] at h
  obtain ⟨_, hvalid, _, hfresh, _, -, _, -, rfl, rfl⟩ := h
  refine ⟨hvalid, rfl, hfresh, rfl, rfl, rfl, rfl, ?_⟩
  simp only [insertObject]
  split
  · assumption
  · rename_i hnone
    rw [Tables.find?_append_singleton, key_object, if_pos rfl]
    cases Tables.find? db.objects ticket.contentHash <;> rfl

/-- A document that was ingested waits for its verification. -/
theorem awaiting_of_ingest {input : IngestGeneratedStagingContentInput} {now : Timestamp}
    {documentId : Id} {s s' : StagingState} {result : StagingContentIngestResult}
    (h : ingestGenerated services input now documentId s = (.ok result, s'))
    (hnew : result.replayed = false) :
    ∃ run content, Awaiting services s' result.record run content := by
  unfold ingestGenerated at h
  split at h
  · cases h
  · rename_i ticket hticket
    split at h
    · cases h
    · cases h
      cases hnew
    · rename_i run grant hreads
      split at h
      · cases h
      · rename_i files contentCreated hstore
        split at h
        · rename_i record db hrows
          cases h
          have hhash := ingestTicket_eq_ok hticket
          obtain ⟨hloaded, hverifying, -⟩ := ingestReads_fresh hreads
          obtain ⟨hvalid, hdescriptor, hfresh, hconversion, hdocuments, -, -, hobject⟩ :=
            ingestRows_eq_ok hrows
          obtain ⟨stored, hfile, hsize, hsha⟩ := storeContent_spec hhash.symm hstore
          refine ⟨run, stored, ?_, hvalid, ?_, ?_, ?_, hverifying, ?_, ?_, ?_⟩
          · have hid : record.descriptor.id = documentId := by
              rw [hdescriptor]
              rfl
            rw [hdocuments, Tables.find?_append_singleton, key_document, if_pos rfl, hid, hfresh]
            rfl
          · rw [hdescriptor]
            rfl
          · rw [hdescriptor, loadRun_congr hconversion]
            exact hloaded
          · rw [hdescriptor]
            rfl
          · rw [hdescriptor]
            exact hobject
          · rw [hdescriptor]
            exact hfile
          · rw [hdescriptor]
            exact ⟨hsize, hsha⟩
        · cases h

/-- The first verification of a document, under a fresh id. -/
structure FirstVerification (s : StagingState) (record : StagingDocumentRecord)
    (input : VerifyGeneratedStagingInput) (verificationId : Id) : Prop where
  scope : input.workspaceId = record.descriptor.workspaceId ∧
    input.stagingDocumentId = record.descriptor.id
  verifier : input.verifierId.getD VERIFIER_ID = VERIFIER_ID ∧
    input.verifierVersion.getD VERIFIER_VERSION = VERIFIER_VERSION
  key : isIdempotencyKey input.idempotencyKey = true
  first : ∀ row ∈ s.db.verificationRequests, row.stagingDocumentId ≠ record.descriptor.id
  undecided : ∀ evidence ∈ s.db.verifications, evidence.stagingDocumentId ≠ record.descriptor.id
  fresh : Tables.find? s.db.verifications verificationId = none

theorem Awaiting.requireDocument {s : StagingState} {record : StagingDocumentRecord}
    {run : ConversionRun} {content : ByteArray} (h : Awaiting services s record run content) :
    s.db.requireDocument record.descriptor.id record.descriptor.workspaceId = .ok record := by
  rw [StagingDatabase.requireDocument, load_eq_ok, StagingDatabase.document?, h.document]
  exact ⟨by simp, h.valid⟩

theorem Awaiting.readContent {s : StagingState} {record : StagingDocumentRecord}
    {run : ConversionRun} {content : ByteArray} (h : Awaiting services s record run content) :
    Staging.readContent services s record.descriptor.id record.descriptor.workspaceId =
      .ok content := by
  obtain ⟨object, hobject⟩ := Option.isSome_iff_exists.mp h.object
  simp only [Staging.readContent, verifyStoredBytes, bind_eq_ok, orThrow_eq_ok, require_eq_ok,
    pure_eq_ok]
  exact ⟨record, h.requireDocument, object, hobject, content, h.file, (), h.bytes, rfl⟩

theorem verificationReads_first {s : StagingState} {record : StagingDocumentRecord}
    {run : ConversionRun} {content : ByteArray} {input : VerifyGeneratedStagingInput}
    {verificationId : Id} (h : Awaiting services s record run content)
    (hfirst : FirstVerification s record input verificationId) :
    verificationReads services input s =
      .ok (.fresh record run content (verificationDigest services input record.descriptor)) := by
  have hnone : s.db.verificationRequests.find? (fun row => row.workspaceId = input.workspaceId ∧
      row.stagingDocumentId = input.stagingDocumentId ∧
      row.idempotencyKey = input.idempotencyKey) = none := by
    rw [List.find?_eq_none]
    intro row hrow
    have := hfirst.first row hrow
    rw [← hfirst.scope.2] at this
    simp [this]
  simp only [verificationReads, hnone, bind_eq_ok, require_eq_ok, pure_eq_ok]
  rw [hfirst.scope.1, hfirst.scope.2]
  exact ⟨(), hfirst.verifier, (), hfirst.key, record, h.requireDocument, content, h.readContent,
    record, h.requireDocument, (), h.generated, run, h.loaded, (), h.workspace, (), h.verifying, rfl⟩

/-- The rows are stored if and only if the descriptor with the decision is valid. -/
theorem verificationRows_isOk_iff {s : StagingState} {record : StagingDocumentRecord}
    {run : ConversionRun} {input : VerifyGeneratedStagingInput} {verificationId : Id}
    {evaluated : Evaluation} {digest : Digest} {now : Timestamp}
    (hfirst : FirstVerification s record input verificationId) :
    (∃ r, verificationRows input record run evaluated digest now verificationId s.db = .ok r) ↔
      isStagingDocumentDescriptor (verified record.descriptor evaluated) = true := by
  simp only [verificationRows, bind_eq_ok, require_eq_ok, pure_eq_ok]
  constructor
  · rintro ⟨_, _, hvalid, -⟩
    exact hvalid
  · intro hvalid
    exact ⟨_, (), hvalid, (), hfirst.fresh, (), hfirst.undecided, rfl⟩

/-- A verification that stored its evidence and moved the document to its decision. -/
def Decides (outcome : Except RegistryError StagingVerificationResult × StagingState)
    (record : StagingDocumentRecord) (verificationId : Id) : Prop :=
  ∃ verification, outcome.1 = .ok verification ∧
    verification.evidence ∈ outcome.2.db.verifications ∧
    verification.evidence.id = verificationId ∧
    verification.evidence.stagingDocumentId = record.descriptor.id ∧
    Tables.find? outcome.2.db.documents record.descriptor.id = some verification.record ∧
    (verification.record.descriptor.status = .ready ∨
      verification.record.descriptor.status = .blocked)

theorem decides_of_rows {s : StagingState} {record : StagingDocumentRecord} {run : ConversionRun}
    {content : ByteArray} {input : VerifyGeneratedStagingInput} {verificationId : Id}
    {evaluated : Evaluation} {digest : Digest} {now : Timestamp}
    {rows : StagingVerificationResult × StagingDatabase}
    (h : Awaiting services s record run content)
    (hrows : verificationRows input record run evaluated digest now verificationId s.db = .ok rows) :
    Decides (.ok rows.1, { s with db := rows.2 }) record verificationId := by
  simp only [verificationRows, bind_eq_ok, require_eq_ok, pure_eq_ok] at hrows
  obtain ⟨_, -, _, -, _, -, rfl⟩ := hrows
  refine ⟨_, rfl, List.mem_append_right _ (List.mem_singleton.mpr rfl), rfl, rfl, ?_, ?_⟩
  · exact Tables.find?_update_self ⟨record, Tables.mem_of_find? h.document, rfl⟩
  · simp only [verified]
    split
    · exact Or.inr rfl
    · exact Or.inl rfl

/-- The first verification of a waiting document returns.  It decides if and only if the paths of the
    fields nobody reads fit into the warning; otherwise it throws and leaves everything as it was. -/
theorem verifyGenerated_first (hsuffixes : HasSuffixes services.toStagingPlatform)
    {s : StagingState} {record : StagingDocumentRecord} {run : ConversionRun} {content : ByteArray}
    {input : VerifyGeneratedStagingInput} {verificationId : Id}
    (h : Awaiting services s record run content)
    (hfirst : FirstVerification s record input verificationId) (now : Timestamp) :
    ∃ outcome n, (∀ fuel ≥ n, verifyGenerated services fuel input now verificationId s = some outcome) ∧
      (Decides outcome record verificationId ↔ ExtraKeysFit content) ∧
      (ExtraKeysFit content ∨ ∃ e, outcome = (.error e, s)) := by
  obtain ⟨evaluated, n, hsummary, hfuel⟩ := evaluate_total hsuffixes record.descriptor run content
  have hvalid := isStagingDocumentDescriptor_verified_iff h.valid (hfuel n (Nat.le_refl n)) hsummary
  have hok : (∃ r, verificationRows input record run evaluated
      (verificationDigest services input record.descriptor) now verificationId s.db = .ok r) ↔
      ExtraKeysFit content := (verificationRows_isOk_iff hfirst).trans hvalid
  cases hrows : verificationRows input record run evaluated
      (verificationDigest services input record.descriptor) now verificationId s.db with
  | ok rows =>
    have hfit : ExtraKeysFit content := hok.mp ⟨rows, hrows⟩
    refine ⟨(.ok rows.1, { s with db := rows.2 }), n, ?_, ?_, Or.inl hfit⟩
    · intro fuel hn
      simp only [verifyGenerated, verificationReads_first h hfirst, hfuel fuel hn, Option.map_some,
        hrows]
    · exact iff_of_true (decides_of_rows h hrows) hfit
  | error e =>
    have hunfit : ¬ExtraKeysFit content := by
      intro hfit
      obtain ⟨rows, h⟩ := hok.mpr hfit
      rw [hrows] at h
      cases h
    refine ⟨(.error e, s), n, ?_, ?_, Or.inr ⟨e, rfl⟩⟩
    · intro fuel hn
      simp only [verifyGenerated, verificationReads_first h hfirst, hfuel fuel hn, Option.map_some,
        hrows]
    · refine iff_of_false ?_ hunfit
      rintro ⟨_, h, -⟩
      cases h

/-- Once a content is ingested, its first verification decides, as long as the document waits for it,
    if and only if the paths of the fields nobody reads have at most 467 characters in a row. -/
theorem verifyGenerated_decides_iff (hsuffixes : HasSuffixes services.toStagingPlatform)
    {input : IngestGeneratedStagingContentInput} {now : Timestamp} {documentId : Id}
    {s ingested : StagingState} {result : StagingContentIngestResult}
    (hingest : ingestGenerated services input now documentId s = (.ok result, ingested))
    (hnew : result.replayed = false) :
    ∃ run content, Awaiting services ingested result.record run content ∧
      ∀ later request verifiedAt verificationId, Awaiting services later result.record run content →
        FirstVerification later result.record request verificationId →
        ∃ outcome n,
          (∀ fuel ≥ n,
            verifyGenerated services fuel request verifiedAt verificationId later = some outcome) ∧
          (Decides outcome result.record verificationId ↔ ExtraKeysFit content) := by
  obtain ⟨run, content, hawaiting⟩ := awaiting_of_ingest hingest hnew
  refine ⟨run, content, hawaiting, ?_⟩
  intro later request verifiedAt verificationId hlater hfirst
  obtain ⟨outcome, n, hreturns, hdecides, -⟩ :=
    verifyGenerated_first hsuffixes hlater hfirst verifiedAt
  exact ⟨outcome, n, hreturns, hdecides⟩

/-! ### A document that is ingested -/

/-- The stand-in platform with request digests that are told apart by their titles and keys. -/
def sizeServices : StagingServices :=
  { sizePlatform with
    hashIngest := fun request => request.sizeBytes
    hashVerification := fun request => request.sizeBytes }

theorem hasSuffixes_sizeServices : HasSuffixes sizeServices.toStagingPlatform :=
  hasSuffixes_sizePlatform

def sampleConverter : RuntimeConverterRef := { converterId := "markdown", version := "1.0.0" }

def sampleInputs : ConverterInputRule where
  artifactKinds := [.markdown]
  mimePatterns := ["text/markdown"]

def sampleRun : ConversionRun where
  id := 1
  workspaceId := 1
  sourceId := 1
  rawArtifactId := 1
  conversionProfileId := 1
  conversionProfileSnapshot :=
    { id := 1, workspaceId := 1, sourceId := none, status := .active, converter := sampleConverter
      input := sampleInputs, targetPathTemplate := "docs/\x7bartifactId\x7d.md", configurationKeys := [] }
  converter := sampleConverter
  converterManifestSnapshot :=
    { converterId := "markdown", version := "1.0.0", status := .active, inputs := sampleInputs
      configurationSchemaKeys := [] }
  input :=
    { artifactId := 1, artifactKind := .markdown, mimeType := "text/markdown", sha256 := 7
      sizeBytes := 3 }
  trigger := .manual
  idempotencyKey := "run-1"
  targetPathTemplate := "docs/\x7bartifactId\x7d.md"
  status := .verifying
  createdAt := 0
  updatedAt := 20
  startedAt := some 10
  verifyingAt := some 20
  completedAt := none
  failedAt := none
  cancelledAt := none
  failure := none
  stagingDocument := none

def sampleAttempt : ConversionAttempt where
  id := 1
  workspaceId := 1
  conversionRunId := 1
  workerId := 1
  conversionLeaseId := 1
  ordinal := 1
  converter := sampleConverter
  createdAt := 5
  startedAt := some 10
  endedAt := some 20
  status := .outputReported
  outcome := some .outputReported
  failure := none
  reconciliation := none

def sampleGrant : StagingOutputUploadGrant where
  id := 1
  workspaceId := 1
  conversionRunId := 1
  conversionAttemptId := 1
  workerId := 1
  normalizedTargetPath := "docs/a.md"
  maximumBytes := 5000000
  uploadSessionRef := "staging-upload:1"
  issuedAt := 5
  expiresAt := 1000

def sampleDescriptor : StagingDocumentDescriptor where
  id := 1
  workspaceId := 1
  sourceId := 1
  rawArtifactId := 1
  conversionRunId := 1
  title := "A"
  targetPath := "docs/a.md"
  contentHash := 7
  sizeBytes := 3
  frontmatterSummary := { fieldCount := 0, fields := [] }
  converter := sampleConverter
  generatedAt := 0
  validation := { outcome := .pass, checks := [], warnings := [] }
  status := .generated

/-- The output-ready report of a content. -/
def sampleReport (content : ByteArray) : RuntimeReport where
  id := 1
  workspaceId := 1
  workerId := 1
  conversionRunId := 1
  conversionAttemptId := 1
  conversionLeaseId := 1
  leaseGeneration := 1
  leaseTokenReference := 1
  leaseTokenDigest := 1
  idempotencyKey := "output-1"
  occurredAt := 20
  expectedCurrentStatus := .running
  body := .outputReady
    { uploadGrantId := 1, targetPath := "docs/a.md", sha256 := sizeServices.sha256 content
      sizeBytes := content.size }

def sampleState (content : ByteArray) : StagingState where
  db :=
    { conversion :=
        { runs := [{ run := sampleRun, dispatchIntentDigest := 0 }], events := []
          attempts := [sampleAttempt], leases := [], readGrants := []
          uploadGrants := [sampleGrant], claims := []
          reports :=
            [{ report := sampleReport content, reportDigest := 0, eventId := 1, createdAt := 20 }]
          verifierTransitions := [] }
      objects := [], documents := [], ingests := [], verifications := []
      verificationRequests := [] }
  files := fun _ => none

def sampleInput (content : ByteArray) : IngestGeneratedStagingContentInput where
  workspaceId := 1
  workerId := 1
  conversionRunId := 1
  conversionAttemptId := 1
  uploadGrantId := 1
  idempotencyKey := "commit-1:ingest"
  title := "A"
  content := content

def sampleRequest : VerifyGeneratedStagingInput where
  workspaceId := 1
  stagingDocumentId := 1
  verifierId := none
  verifierVersion := none
  idempotencyKey := "commit-1:verify"

theorem isRuntimeReport_sample {content : ByteArray}
    (hsize : 0 < content.size ∧ content.size ≤ 5000000) :
    isRuntimeReport (sampleReport content) = true := by
  have hkey : isIdempotencyKey "output-1" = true := by decide
  have hpath : isOutputPath "docs/a.md" = true := by decide
  have hsafe : content.size ≤ 9007199254740991 := by omega
  simp [isRuntimeReport, baseReport, sampleReport, hkey, hpath, positiveInteger, isSafeInteger,
    hsize.1, hsafe, isRfc3339]

theorem ingestReads_sample {content : ByteArray}
    (hsize : 0 < content.size ∧ content.size ≤ 5000000) {ticket : IngestTicket}
    (hhash : ticket.contentHash = sizeServices.sha256 content) :
    ingestReads (sampleState content).db (sampleInput content) ticket =
      .ok (.fresh sampleRun sampleGrant) := by
  have hrun : isConversionRun sampleRun = true := by decide
  have hattempt : isConversionAttempt sampleAttempt = true := by decide
  have hgrant : isStagingOutputUploadGrant sampleGrant = true := by decide
  have houtput : (sampleState content).db.loadOutputReport 1 1 = .ok (sampleReport content,
      { uploadGrantId := 1, targetPath := "docs/a.md", sha256 := sizeServices.sha256 content
        sizeBytes := content.size }) := by
    rw [StagingDatabase.loadOutputReport, orThrow_eq_ok]
    have := isRuntimeReport_sample hsize
    simp [sampleState, sampleReport, StagingDatabase.outputReady?] at this ⊢
    exact this
  have hfind : (sampleState content).db.ingests.find? (fun row =>
      row.workspaceId = (sampleInput content).workspaceId ∧
        row.workerId = (sampleInput content).workerId ∧
        row.idempotencyKey = (sampleInput content).idempotencyKey) = none := rfl
  simp only [ingestReads, hfind, bind_eq_ok, pure_eq_ok, assertBinding, require_eq_ok]
  refine ⟨sampleRun, load_eq_ok.mpr ⟨rfl, hrun⟩, sampleAttempt, load_eq_ok.mpr ⟨rfl, hattempt⟩,
    sampleGrant, load_eq_ok.mpr ⟨rfl, hgrant⟩, _, houtput, (), ⟨(), ?_, (), ?_, ?_⟩,
    none, rfl, (), rfl, (), rfl, rfl⟩
  · exact ⟨rfl, rfl, rfl, rfl, rfl, rfl, rfl, rfl, rfl, rfl⟩
  · exact ⟨rfl, rfl⟩
  · have hexpires : (20 : Int) ≤ 1000 := by decide
    exact ⟨rfl, rfl, hhash.symm, rfl, hsize.2, hexpires⟩

/-- The sample state takes in every content of an allowed size. -/
theorem ingestGenerated_sample {content : ByteArray}
    (hsize : 0 < content.size ∧ content.size ≤ 5000000) :
    ∃ result ingested, ingestGenerated sizeServices (sampleInput content) 30 1
        (sampleState content) = (.ok result, ingested) ∧ result.replayed = false ∧
      ingested.db.verificationRequests = [] ∧ ingested.db.verifications = [] ∧
      result.record.descriptor.workspaceId = 1 ∧ result.record.descriptor.id = 1 ∧
      ingested.files result.record.descriptor.contentHash = some content := by
  have htitle : trim "A" = "A" := by decide
  obtain ⟨ticket, hticket, htitle, hnow⟩ : ∃ ticket, ingestTicket sizeServices (sampleInput content) 30
      = .ok ticket ∧ ticket.title = "A" ∧ ticket.now = 30 := by
    have hkey : isIdempotencyKey "commit-1:ingest" = true := by decide
    have hlength : 0 < jsLength (trim "A") ∧ jsLength (trim "A") ≤ 300 := by decide
    simp only [ingestTicket, bind_eq_ok, require_eq_ok, pure_eq_ok]
    exact ⟨_, ⟨(), hkey, (), hlength, (), Nat.pos_iff_ne_zero.mp hsize.1, (), hsize.2, rfl⟩, htitle, rfl⟩
  have hhash := ingestTicket_eq_ok hticket
  have hdescriptor : isStagingDocumentDescriptor
      (newDescriptor (sampleInput content) ticket sampleRun sampleGrant 1) = true := by
    have htitle' : 0 < jsLength (trim "A") ∧ jsLength "A" ≤ 200 := by decide
    have hpath : normalizedTargetPath "docs/a.md" = true := by decide
    have hconverter : sampleConverter.isValid = true := by decide
    have hsafe : content.size ≤ 9007199254740991 := by omega
    simp [isStagingDocumentDescriptor, newDescriptor, sampleGrant, sampleRun, htitle, hnow, htitle',
      hpath, hconverter, sampleInput, positiveInteger, isSafeInteger, hsize.1, hsafe]
    decide
  have hstore : storeContent sizeServices (sampleState content).files ticket.contentHash content =
      .ok ((sampleState content).files.write ticket.contentHash content, true) := rfl
  have hrows : ∃ rows, ingestRows (sampleState content).db (sampleInput content) ticket sampleRun
      sampleGrant 1 = .ok rows := by
    simp only [ingestRows, bind_eq_ok, require_eq_ok, pure_eq_ok]
    exact ⟨_, (), hdescriptor, (), rfl, (), by simp [sampleState], (), by simp [sampleState], rfl⟩
  obtain ⟨⟨record, db⟩, hrows⟩ := hrows
  obtain ⟨-, hrecord, -, -, -, hverifications, hrequests, -⟩ := ingestRows_eq_ok hrows
  refine ⟨{ record, replayed := false, contentCreated := true },
    { db, files := (sampleState content).files.write ticket.contentHash content }, ?_, rfl, hrequests,
    hverifications, ?_⟩
  · simp only [ingestGenerated, hticket, ingestReads_sample hsize hhash]
    rw [show (sampleInput content).content = content from rfl, hstore]
    simp only [hrows]
  · rw [hrecord]
    refine ⟨rfl, rfl, ?_⟩
    simp [newDescriptor, Files.write]

theorem firstVerification_sample {s : StagingState} {record : StagingDocumentRecord}
    (hrequests : s.db.verificationRequests = []) (hverifications : s.db.verifications = [])
    (hscope : record.descriptor.workspaceId = 1 ∧ record.descriptor.id = 1) :
    FirstVerification s record sampleRequest 1 := by
  refine ⟨⟨hscope.1.symm, hscope.2.symm⟩, ⟨rfl, rfl⟩, by decide, ?_, ?_, ?_⟩
  · simp [hrequests]
  · simp [hverifications]
  · simp [hverifications]

theorem verifyGenerated_decides_sample :
    ∃ result ingested, ingestGenerated sizeServices (sampleInput (encodeText "Hello".toList)) 30 1
        (sampleState (encodeText "Hello".toList)) = (.ok result, ingested) ∧
      ∃ run content, Awaiting sizeServices ingested result.record run content ∧
        ∀ later request verifiedAt verificationId,
          Awaiting sizeServices later result.record run content →
          FirstVerification later result.record request verificationId →
          ∃ outcome n,
            (∀ fuel ≥ n, verifyGenerated sizeServices fuel request verifiedAt verificationId later =
              some outcome) ∧
            (Decides outcome result.record verificationId ↔ ExtraKeysFit content) := by
  have hsize : 0 < (encodeText "Hello".toList).size ∧ (encodeText "Hello".toList).size ≤ 5000000 := by
    decide
  obtain ⟨result, ingested, hingest, hnew, -⟩ := ingestGenerated_sample hsize
  exact ⟨result, ingested, hingest,
    verifyGenerated_decides_iff hasSuffixes_sizeServices hingest hnew⟩

/-! ### Six long keys -/

theorem textLength_intercalate (sep : Text) (keys : List Text) :
    textLength (sep.intercalate keys) + textLength sep =
      (keys.map fun key => textLength key + textLength sep).sum ∨ keys = [] := by
  induction keys with
  | nil => exact Or.inr rfl
  | cons key keys ih =>
    left
    cases keys with
    | nil => simp
    | cons next keys =>
      rcases ih with ih | ih
      · rw [List.intercalate_cons_cons, textLength_append, textLength_append, List.map_cons,
          List.sum_cons, ← ih]
        omega
      · cases ih

/-- The order of the paths does not matter for the length of the warning. -/
theorem textLength_joinedKeys {keys : List Text} (h : keys ≠ []) :
    textLength (joinedKeys keys) + 2 = (keys.map fun key => textLength key + 2).sum := by
  have hperm := List.mergeSort_perm keys fun k l => decide (k ≤ l)
  rcases textLength_intercalate ", ".toList (keys.mergeSort fun k l => decide (k ≤ l)) with hsum | hnil
  · have hsep : textLength ", ".toList = 2 := by decide
    rw [hsep] at hsum
    rw [joinedKeys, hsum, (hperm.map _).sum_nat]
  · rw [hnil] at hperm
    exact absurd hperm.symm.eq_nil h

/-- A document with six keys of 80 characters that nobody reads. -/
def longKeys : Text :=
  "---\n".toList ++ ("123456".toList.flatMap fun d => List.replicate 79 'k' ++ d :: ": 1\n".toList) ++
    "---\nBody\n".toList

def extraLengths : ParseResult → List Nat
  | .parsed fields _ => (extraKeys fields).map textLength
  | .failed _ _ => []

theorem extraLengths_longKeys : extraLengths (parseFrontmatter longKeys) = List.replicate 6 80 := by
  decide +kernel

theorem not_extraKeysFit_longKeys : ¬ExtraKeysFit (encodeText longKeys) := by
  intro hfit
  have hlengths := extraLengths_longKeys
  have hhead : longKeys.head? ≠ some '\uFEFF' := by decide
  cases hparse : parseFrontmatter longKeys with
  | failed failure body =>
    rw [hparse] at hlengths
    cases hlengths
  | parsed fields body =>
    rw [hparse, extraLengths] at hlengths
    have hne : extraKeys fields ≠ [] := by
      intro hnil
      rw [hnil] at hlengths
      cases hlengths
    have hjoined := textLength_joinedKeys hne
    have hsum : ((extraKeys fields).map fun key => textLength key + 2) =
        ((extraKeys fields).map textLength).map (· + 2) := by
      rw [List.map_map]
      rfl
    rw [hsum, hlengths] at hjoined
    have := hfit longKeys fields body (decodeFatal_encodeText hhead) hparse
    simp at hjoined
    omega

theorem verifyGenerated_undecided {content : ByteArray}
    (hsize : 0 < content.size ∧ content.size ≤ 5000000) (hunfit : ¬ExtraKeysFit content) :
    ∃ result ingested run, ingestGenerated sizeServices (sampleInput content) 30 1
        (sampleState content) = (.ok result, ingested) ∧ result.replayed = false ∧
      Awaiting sizeServices ingested result.record run content ∧
      FirstVerification ingested result.record sampleRequest 1 ∧
      ∃ e n, ∀ fuel ≥ n, verifyGenerated sizeServices fuel sampleRequest 40 1 ingested =
        some (.error e, ingested) := by
  obtain ⟨result, ingested, hingest, hnew, hrequests, hverifications, hworkspace, hid, hfile⟩ :=
    ingestGenerated_sample hsize
  obtain ⟨run, stored, hawaiting⟩ := awaiting_of_ingest hingest hnew
  have hstored : stored = content := by
    have := hawaiting.file
    rw [hfile, Option.some.injEq] at this
    exact this.symm
  rw [hstored] at hawaiting
  have hfirst := firstVerification_sample hrequests hverifications ⟨hworkspace, hid⟩
  obtain ⟨outcome, n, hreturns, -, hfit | ⟨e, herror⟩⟩ :=
    verifyGenerated_first hasSuffixes_sizeServices hawaiting hfirst 40
  · exact absurd hfit hunfit
  · exact ⟨result, ingested, run, hingest, hnew, hawaiting, hfirst, e, n,
      fun fuel hn => by rw [hreturns fuel hn, herror]⟩

/-- The document with six long keys is taken in, and its verification throws. -/
theorem verifyGenerated_longKeys :
    ∃ result ingested run, ingestGenerated sizeServices (sampleInput (encodeText longKeys)) 30 1
        (sampleState (encodeText longKeys)) = (.ok result, ingested) ∧ result.replayed = false ∧
      Awaiting sizeServices ingested result.record run (encodeText longKeys) ∧
      FirstVerification ingested result.record sampleRequest 1 ∧
      ∃ e n, ∀ fuel ≥ n, verifyGenerated sizeServices fuel sampleRequest 40 1 ingested =
        some (.error e, ingested) := by
  have hsize : 0 < (encodeText longKeys).size ∧ (encodeText longKeys).size ≤ 5000000 := by
    rw [size_encodeText]
    decide +kernel
  exact verifyGenerated_undecided hsize not_extraKeysFit_longKeys

end MarkorbitKnowledge.Staging

import MarkorbitKnowledge.Handoff.ReadyPackageRegistry
import Mathlib.Data.List.Induction

/-!
# What Core acknowledged and what was handed off

A package is handed off by `markHandedOff` or by a receipt of Core that does not reject it, and by
nothing else, and it stays so.  The receipts of an intake are about one package and one digest.  A
result of `recordCoreIntakeAcknowledgment` says that the handoff is recorded exactly where the
package it returns is handed off, unless it answers with an older rejection of a package that has
been handed off since: the replay of a receipt takes the outcome from the receipt and the package from
the table.
-/

namespace MarkorbitKnowledge.Handoff

open Contracts Fallible Tables Transitions
open Execution (RegistryError)

/-! ### The invariant -/

/-- What the tables of the registry keep. -/
structure Sound (db : Database) : Prop where
  packages : KeysUnique db.readyPackages
  reached : ∀ p ∈ db.readyPackages, p.status ≠ .created
  receipts : KeysUnique db.receipts
  valid : ∀ r ∈ db.receipts, parseCoreIntakeReceipt r = .ok r
  /-- An intake is about one package and one digest. -/
  agree : ∀ r ∈ db.receipts, ∀ r' ∈ db.receipts, r.workspaceId = r'.workspaceId →
    r.intakeId = r'.intakeId →
    r.readyPackageId = r'.readyPackageId ∧ r.expectedDigest = r'.expectedDigest
  packaged : ∀ r ∈ db.receipts, ∃ p ∈ db.readyPackages, p.id = r.readyPackageId ∧
    p.workspaceId = r.workspaceId ∧ p.evidence.digest = r.expectedDigest
  handedOff : ∀ r ∈ db.receipts, r.status ≠ .rejected →
    ∀ p ∈ db.readyPackages, p.id = r.readyPackageId → p.status = .handedOff

theorem sound_empty : Sound ⟨[], [], []⟩ where
  packages := List.nodup_nil
  reached := by simp
  receipts := List.nodup_nil
  valid := by simp
  agree := by simp
  packaged := by simp
  handedOff := by simp

/-- A package after its handoff; a second handoff leaves it as it is. -/
def ReadyPackage.handOff (p : ReadyPackage) (handedOffAt : Timestamp) : ReadyPackage :=
  if p.status = .handedOff then p
  else { p with status := .handedOff, handedOffAt := some handedOffAt }

section HandOff

variable (p : ReadyPackage) (handedOffAt : Timestamp)

@[simp] theorem id_handOff : (p.handOff handedOffAt).id = p.id := by
  unfold ReadyPackage.handOff
  split <;> rfl

@[simp] theorem workspaceId_handOff : (p.handOff handedOffAt).workspaceId = p.workspaceId := by
  unfold ReadyPackage.handOff
  split <;> rfl

@[simp] theorem evidence_handOff : (p.handOff handedOffAt).evidence = p.evidence := by
  unfold ReadyPackage.handOff
  split <;> rfl

@[simp] theorem status_handOff : (p.handOff handedOffAt).status = .handedOff := by
  unfold ReadyPackage.handOff
  split
  · assumption
  · rfl

theorem handOff_of_handedOff {p : ReadyPackage} (h : p.status = .handedOff) :
    p.handOff handedOffAt = p := if_pos h

end HandOff

/-! ### What the calls do -/

section Calls

variable {db db' : Database}

theorem getById_eq_some (hs : Sound db) {id workspaceId : String} {p : ReadyPackage} :
    getById db id workspaceId = some p ↔
      p ∈ db.readyPackages ∧ p.id = id ∧ p.workspaceId = workspaceId := by
  rw [getById, Option.filter_eq_some_iff, hs.packages.find?_eq_some_iff]
  simp [and_assoc]

/-- The database after a handoff. -/
def Database.handOff (db : Database) (p : ReadyPackage) (handedOffAt : Timestamp) : Database :=
  { db with readyPackages := update db.readyPackages (p.handOff handedOffAt) }

@[simp] theorem receipts_handOff (db : Database) (p : ReadyPackage) (handedOffAt : Timestamp) :
    (db.handOff p handedOffAt).receipts = db.receipts := rfl

theorem mem_handOff {p current : ReadyPackage} {handedOffAt : Timestamp}
    (hcurrent : current ∈ db.readyPackages) :
    p ∈ (db.handOff current handedOffAt).readyPackages ↔
      (p ∈ db.readyPackages ∧ p.id ≠ current.id) ∨ p = current.handOff handedOffAt := by
  simp only [Database.handOff, mem_update, key_readyPackage, id_handOff]
  refine or_congr_right ⟨fun h => h.1, fun h => ⟨h, current, hcurrent, rfl⟩⟩

theorem transitionHandedOff_eq_ok (hs : Sound db) {current p : ReadyPackage}
    (hcurrent : current ∈ db.readyPackages) {expectedDigest : String} {handedOffAt : Timestamp} :
    transitionHandedOff current expectedDigest handedOffAt db = .ok (p, db') ↔
      current.evidence.digest = expectedDigest ∧ p = current.handOff handedOffAt ∧
        db' = db.handOff current handedOffAt := by
  simp only [transitionHandedOff, bind_eq_ok, require_eq_ok, exists_and_left, exists_const]
  refine and_congr_right fun _ => ?_
  by_cases hstatus : current.status = .handedOff
  · have hsame : db.handOff current handedOffAt = db := by
      rw [Database.handOff, handOff_of_handedOff _ hstatus, hs.packages.update_self hcurrent]
    rw [if_pos hstatus, pure_eq_ok, handOff_of_handedOff _ hstatus, hsame, Prod.mk.injEq]
    constructor <;> rintro ⟨rfl, rfl⟩ <;> exact ⟨rfl, rfl⟩
  · have hverified : current.status = .verified := by
      cases hc : current.status with
      | created => exact absurd hc (hs.reached current hcurrent)
      | verified => rfl
      | handedOff => exact absurd hc hstatus
    -- the `WHERE` of the update picks out the row of `current`, as ids are unique
    have hrows : (db.readyPackages.map fun p =>
        if p.id = current.id ∧ p.workspaceId = current.workspaceId ∧ p.status = .verified then
          current.handOff handedOffAt
        else p) = update db.readyPackages (current.handOff handedOffAt) := by
      refine List.map_congr_left fun x hx => ?_
      by_cases hid : x.id = current.id
      · obtain rfl := hs.packages.eq_of_key hx hcurrent hid
        rw [if_pos ⟨rfl, rfl, hverified⟩]
        exact (if_pos (id_handOff _ _).symm).symm
      · rw [if_neg fun h => hid h.1]
        exact (if_neg fun h => hid (h.trans (id_handOff _ _))).symm
    rw [if_neg hstatus, bind_eq_ok]
    have hnext : current.handOff handedOffAt =
        { current with status := .handedOff, handedOffAt := some handedOffAt } := if_neg hstatus
    rw [Database.handOff, ← hrows, hnext]
    simp only [require_eq_ok, pure_eq_ok, Prod.mk.injEq]
    constructor
    · rintro ⟨-, -, rfl, rfl⟩
      exact ⟨rfl, rfl⟩
    · rintro ⟨rfl, rfl⟩
      exact ⟨(), hverified, rfl, rfl⟩

variable (platform : Platform)

/-- One verified package was added under a new id. -/
structure Packs (db db' : Database) (p : ReadyPackage) : Prop where
  verified : p.status = .verified
  fresh : ∀ q ∈ db.readyPackages, q.id ≠ p.id
  packages : db'.readyPackages = db.readyPackages ++ [p]
  receipts : db'.receipts = db.receipts

/-- A request changes nothing or adds one verified package. -/
theorem createVerified_cases (input : CreateVerifiedReadyPackageInput) (now : Timestamp)
    (id : String) (db : Database) :
    (createVerified platform input now id db).2 = db ∨
      ∃ p, Packs db (createVerified platform input now id db).2 p := by
  unfold createVerified
  cases hvalid : validate platform input with
  | error e => exact Or.inl rfl
  | ok u =>
    refine commit_rel (R := fun db db' => db' = db ∨ ∃ p, Packs db db' p) (Or.inl rfl)
      fun result db' hbody => ?_
    unfold createVerifiedBody at hbody
    split at hbody
    · simp only [bind_eq_ok, pure_eq_ok, Prod.mk.injEq] at hbody
      obtain ⟨-, -, p, -, -, rfl⟩ := hbody
      exact Or.inl rfl
    · simp only [bind_eq_ok, require_eq_ok, pure_eq_ok, Prod.mk.injEq, insertPackage] at hbody
      obtain ⟨-, -, createdAt, -, inserted, ⟨-, hfresh, -, -, -, -, rfl⟩, rfl, rfl⟩ := hbody
      exact Or.inr ⟨_, rfl, hfresh, rfl, rfl⟩

/-- `markHandedOff` throws and changes nothing, or hands the package off. -/
theorem markHandedOff_cases (hs : Sound db) (id workspaceId expectedDigest : String)
    (now : Timestamp) :
    (∃ e, markHandedOff id workspaceId expectedDigest now db = (.error e, db)) ∨
      ∃ current ∈ db.readyPackages, current.id = id ∧ current.workspaceId = workspaceId ∧
        markHandedOff id workspaceId expectedDigest now db =
          (.ok (current.handOff now), db.handOff current now) := by
  cases hbody : markHandedOffBody id workspaceId expectedDigest now db with
  | error e => exact Or.inl ⟨e, commit_of_error hbody⟩
  | ok r =>
    obtain ⟨p, db'⟩ := r
    right
    have h := hbody
    simp only [markHandedOffBody, requirePackage, toISOString, bind_eq_ok, require_eq_ok,
      orThrow_eq_ok, pure_eq_ok, getById_eq_some hs] at h
    obtain ⟨current, ⟨hcurrent, hid, hws⟩, _, ⟨-, -, rfl⟩, htransition⟩ := h
    obtain ⟨-, rfl, rfl⟩ := (transitionHandedOff_eq_ok hs hcurrent).mp htransition
    exact ⟨current, hcurrent, hid, hws, commit_of_ok hbody⟩

/-- The receipt an acknowledgment is stored as. -/
def receiptOf (input : RecordReadyPackageCoreIntakeAcknowledgmentInput) (recordedAt : Timestamp) :
    ReadyPackageCoreIntakeReceipt where
  intakeId := input.coreIntakeResult.intakeId
  workspaceId := input.workspaceId
  readyPackageId := input.readyPackageId
  expectedDigest := input.expectedDigest
  status := input.coreIntakeResult.status
  recordedAt := recordedAt

/-- What was checked of an acknowledgment before anything is written: it names the stored package
    with its digest, and the receipts of its intake are about the same package and digest. -/
structure Acknowledges (db : Database) (input : RecordReadyPackageCoreIntakeAcknowledgmentInput)
    (current : ReadyPackage) : Prop where
  stored : current ∈ db.readyPackages
  id : current.id = input.readyPackageId
  workspaceId : current.workspaceId = input.workspaceId
  digest : current.evidence.digest = input.expectedDigest
  present : isPresent input.workspaceId = true ∧ isPresent input.readyPackageId = true ∧
    SHA256 input.expectedDigest = true ∧ isPresent input.coreIntakeResult.intakeId = true
  agree : ∀ r ∈ db.receipts, r.workspaceId = input.workspaceId →
    r.intakeId = input.coreIntakeResult.intakeId →
    r.readyPackageId = input.readyPackageId ∧ r.expectedDigest = input.expectedDigest

/-- What a call of `recordCoreIntakeAcknowledgment` does that does not throw. -/
inductive Recorded (db : Database) (input : RecordReadyPackageCoreIntakeAcknowledgmentInput)
    (now : Timestamp) (current : ReadyPackage) :
    ReadyPackageCoreIntakeAcknowledgmentPersistenceResult → Database → Prop where
  | replays (existing : ReadyPackageCoreIntakeReceipt) (hstored : existing ∈ db.receipts)
      (hkey : key existing = key (receiptOf input now)) :
      Recorded db input now current
        { readyPackage := current, receipt := existing, coreIntakeResult := input.coreIntakeResult,
          handoffRecorded := decide (existing.status ≠ .rejected), replayed := true,
          disposition := if existing.status ≠ .rejected then .handoffAlreadyRecorded
            else .rejectedNotHandedOff } db
  | rejects (hdate : isDate now = true) (hnew : ∀ r ∈ db.receipts, key r ≠ key (receiptOf input now))
      (hstatus : input.coreIntakeResult.status = .rejected) (hbefore : current.status ≠ .handedOff) :
      Recorded db input now current
        { readyPackage := current, receipt := receiptOf input now,
          coreIntakeResult := input.coreIntakeResult, handoffRecorded := false, replayed := false,
          disposition := .rejectedNotHandedOff }
        { db with receipts := db.receipts ++ [receiptOf input now] }
  | receives (hdate : isDate now = true)
      (hnew : ∀ r ∈ db.receipts, key r ≠ key (receiptOf input now))
      (hstatus : input.coreIntakeResult.status ≠ .rejected) :
      Recorded db input now current
        { readyPackage := current.handOff now, receipt := receiptOf input now,
          coreIntakeResult := input.coreIntakeResult, handoffRecorded := true, replayed := false,
          disposition := if current.status = .handedOff then .handoffAlreadyRecorded
            else .handoffRecorded }
        { db.handOff current now with receipts := db.receipts ++ [receiptOf input now] }

theorem receiptsOf_valid (hs : Sound db) (intakeId workspaceId : String) :
    getCoreIntakeReceiptsByIntakeId db intakeId workspaceId =
      .ok (receiptsOf db intakeId workspaceId) := by
  have hall : ∀ rs : List ReadyPackageCoreIntakeReceipt,
      (∀ r ∈ rs, parseCoreIntakeReceipt r = .ok r) → rs.mapM parseCoreIntakeReceipt = .ok rs := by
    intro rs
    induction rs with
    | nil => exact fun _ => rfl
    | cons r rs ih =>
      intro h
      rw [List.mapM_cons, h r List.mem_cons_self, ok_bind,
        ih fun x hx => h x (List.mem_cons_of_mem _ hx)]
      rfl
  exact hall _ fun r hr => hs.valid r (List.mem_of_mem_filter hr)

theorem recordNewReceipt_cases (hs : Sound db)
    {input : RecordReadyPackageCoreIntakeAcknowledgmentInput} {now : Timestamp}
    {current : ReadyPackage} (hcurrent : current ∈ db.readyPackages)
    {result : ReadyPackageCoreIntakeAcknowledgmentPersistenceResult}
    (h : recordNewReceipt input now current db = .ok (result, db')) :
    Recorded db input now current result db' := by
  by_cases hstatus : input.coreIntakeResult.status = .rejected
  · simp only [recordNewReceipt, toISOString, insertReceipt, if_pos hstatus, bind_eq_ok,
      require_eq_ok, pure_eq_ok, Prod.mk.injEq] at h
    obtain ⟨-, hreverse, recordedAt, ⟨-, hdate, rfl⟩, _, rfl, _, ⟨-, hnew, rfl⟩, rfl, rfl⟩ := h
    have hbefore : current.status ≠ .handedOff := fun hc => hreverse ⟨hstatus, hc⟩
    simpa [hstatus, receiptOf] using Recorded.rejects hdate hnew hstatus hbefore
  · simp only [recordNewReceipt, toISOString, insertReceipt, if_neg hstatus, bind_eq_ok,
      require_eq_ok, pure_eq_ok, Prod.mk.injEq] at h
    obtain ⟨-, -, recordedAt, ⟨-, hdate, rfl⟩, ⟨p, moved⟩, hmoved, _, ⟨-, hnew, rfl⟩, rfl, rfl⟩ := h
    obtain ⟨-, rfl, rfl⟩ := (transitionHandedOff_eq_ok hs hcurrent).mp hmoved
    have hrecorded : Recorded db input now current _ _ := .receives hdate hnew hstatus
    simpa [hstatus, receiptOf] using hrecorded

theorem recordBody_cases (hs : Sound db) {input : RecordReadyPackageCoreIntakeAcknowledgmentInput}
    {now : Timestamp} {result : ReadyPackageCoreIntakeAcknowledgmentPersistenceResult}
    (hvalid : validateCoreIntakeAcknowledgment input = .ok ())
    (h : recordBody input now db = .ok (result, db')) :
    ∃ current, Acknowledges db input current ∧ Recorded db input now current result db' := by
  simp only [recordBody, requirePackage, receiptsOf_valid hs, bind_eq_ok, require_eq_ok,
    orThrow_eq_ok, getById_eq_some hs, Except.ok.injEq] at h
  obtain ⟨current, ⟨hcurrent, hid, hws⟩, _, hdigest, _, rfl, _, hagree, h⟩ := h
  simp only [validateCoreIntakeAcknowledgment, bind_eq_ok, require_eq_ok] at hvalid
  obtain ⟨-, hworkspace, -, hpackage, -, hsha, -, hintake, -, -, -⟩ := hvalid
  have hmem : ∀ {r}, r ∈ receiptsOf db input.coreIntakeResult.intakeId input.workspaceId ↔
      r ∈ db.receipts ∧ r.workspaceId = input.workspaceId ∧
        r.intakeId = input.coreIntakeResult.intakeId := by
    intro r
    simp [receiptsOf]
  refine ⟨current, ⟨hcurrent, hid, hws, hdigest, ⟨hworkspace, hpackage, hsha, hintake⟩, ?_⟩, ?_⟩
  · intro r hr hrws hrintake
    by_contra hne
    exact hagree ⟨r, hmem.mpr ⟨hr, hrws, hrintake⟩, not_and_or.mp hne⟩
  · cases hfind : (receiptsOf db input.coreIntakeResult.intakeId input.workspaceId).find?
        fun receipt => receipt.status = input.coreIntakeResult.status with
    | some existing =>
      rw [hfind] at h
      simp only [pure_eq_ok, Prod.mk.injEq] at h
      obtain ⟨rfl, rfl⟩ := h
      have hstatus : existing.status = input.coreIntakeResult.status := by
        simpa using List.find?_some hfind
      obtain ⟨hstored, hrws, hrintake⟩ := hmem.mp (List.mem_of_find?_eq_some hfind)
      have hkey : key existing = key (receiptOf input now) := by
        simp [receiptOf, hrws, hrintake, hstatus]
      have hrecorded : Recorded db input now current _ _ := .replays existing hstored hkey
      simpa using hrecorded
    | none =>
      rw [hfind] at h
      exact recordNewReceipt_cases hs hcurrent h

/-- `recordCoreIntakeAcknowledgment` throws and changes nothing, or records the acknowledgment. -/
theorem recordCoreIntakeAcknowledgment_cases (hs : Sound db)
    (input : RecordReadyPackageCoreIntakeAcknowledgmentInput) (now : Timestamp) :
    (∃ e, recordCoreIntakeAcknowledgment input now db = (.error e, db)) ∨
      ∃ current result db', recordCoreIntakeAcknowledgment input now db = (.ok result, db') ∧
        Acknowledges db input current ∧ Recorded db input now current result db' := by
  unfold recordCoreIntakeAcknowledgment
  cases hvalid : validateCoreIntakeAcknowledgment input with
  | error e => exact Or.inl ⟨e, rfl⟩
  | ok u =>
    cases hbody : recordBody input now db with
    | error e => exact Or.inl ⟨e, commit_of_error hbody⟩
    | ok r =>
      obtain ⟨result, db'⟩ := r
      obtain ⟨current, hacknowledges, hrecorded⟩ := recordBody_cases hs hvalid hbody
      exact Or.inr ⟨current, result, db', commit_of_ok hbody, hacknowledges, hrecorded⟩

/-! ### What the calls keep -/

theorem Sound.handOff (hs : Sound db) {current : ReadyPackage}
    (hcurrent : current ∈ db.readyPackages) (now : Timestamp) : Sound (db.handOff current now) where
  packages := hs.packages.update _
  reached := by
    intro p hp
    rcases (mem_handOff hcurrent).mp hp with ⟨hp, -⟩ | rfl
    · exact hs.reached p hp
    · rw [status_handOff]
      exact ReadyPackageStatus.noConfusion
  receipts := hs.receipts
  valid := hs.valid
  agree := hs.agree
  packaged := by
    intro r hr
    refine exists_mem_update (fun p hp hkey h => ?_) (hs.packaged r hr)
    obtain rfl := hs.packages.eq_of_key hp hcurrent (hkey.trans (id_handOff _ _))
    simpa using h
  handedOff := by
    intro r hr hstatus p hp hid
    rcases (mem_handOff hcurrent).mp hp with ⟨hp, -⟩ | rfl
    · exact hs.handedOff r hr hstatus p hp hid
    · exact status_handOff _ _

/-- A receipt under a new key is stored about a package it names. -/
theorem Sound.append_receipt (hs : Sound db) {input : RecordReadyPackageCoreIntakeAcknowledgmentInput}
    {current p : ReadyPackage} (hacknowledges : Acknowledges db input current) {now : Timestamp}
    (hdate : isDate now = true) (hnew : ∀ r ∈ db.receipts, key r ≠ key (receiptOf input now))
    {moved : Database} (hmoved : Sound moved) (hreceipts : moved.receipts = db.receipts)
    (hp : p ∈ moved.readyPackages)
    (hsame : p.id = current.id ∧ p.workspaceId = current.workspaceId ∧ p.evidence = current.evidence)
    (hstatus : input.coreIntakeResult.status ≠ .rejected → p.status = .handedOff) :
    Sound { moved with receipts := db.receipts ++ [receiptOf input now] } where
  packages := hmoved.packages
  reached := hmoved.reached
  receipts := hs.receipts.append_singleton hnew
  valid := by
    obtain ⟨hworkspace, hpackage, hsha, hintake⟩ := hacknowledges.present
    intro r hr
    rcases List.mem_append.mp hr with hr | hr
    · exact hs.valid r hr
    · rw [List.mem_singleton.mp hr]
      simp [parseCoreIntakeReceipt, receiptOf, hworkspace, hpackage, hsha, hintake, hdate]
  agree := by
    have hold := hacknowledges.agree
    intro r hr r' hr' hws hintake
    rcases List.mem_append.mp hr with hr | hr <;> rcases List.mem_append.mp hr' with hr' | hr'
    · exact hs.agree r hr r' hr' hws hintake
    · rw [List.mem_singleton.mp hr'] at hws hintake ⊢
      exact hold r hr hws hintake
    · rw [List.mem_singleton.mp hr] at hws hintake ⊢
      have := hold r' hr' hws.symm hintake.symm
      exact ⟨this.1.symm, this.2.symm⟩
    · rw [List.mem_singleton.mp hr, List.mem_singleton.mp hr']
      exact ⟨rfl, rfl⟩
  packaged := by
    intro r hr
    rcases List.mem_append.mp hr with hr | hr
    · exact hmoved.packaged r (hreceipts ▸ hr)
    · rw [List.mem_singleton.mp hr]
      refine ⟨p, hp, hsame.1.trans hacknowledges.id, hsame.2.1.trans hacknowledges.workspaceId, ?_⟩
      rw [hsame.2.2]
      exact hacknowledges.digest
  handedOff := by
    intro r hr hrstatus q hq hid
    rcases List.mem_append.mp hr with hr | hr
    · exact hmoved.handedOff r (hreceipts ▸ hr) hrstatus q hq hid
    · rw [List.mem_singleton.mp hr] at hrstatus hid
      have hqp : q.id = p.id := by
        rw [hsame.1, hacknowledges.id]
        exact hid
      rw [hmoved.packages.eq_of_key hq hp hqp]
      exact hstatus hrstatus

theorem Recorded.sound (hs : Sound db) {input : RecordReadyPackageCoreIntakeAcknowledgmentInput}
    {now : Timestamp} {current : ReadyPackage}
    {result : ReadyPackageCoreIntakeAcknowledgmentPersistenceResult}
    (hacknowledges : Acknowledges db input current)
    (h : Recorded db input now current result db') : Sound db' := by
  cases h with
  | replays => exact hs
  | rejects hdate hnew hstatus =>
    exact hs.append_receipt hacknowledges hdate hnew hs rfl hacknowledges.stored ⟨rfl, rfl, rfl⟩
      fun h => absurd hstatus h
  | receives hdate hnew =>
    refine hs.append_receipt hacknowledges hdate hnew (hs.handOff hacknowledges.stored now) rfl
      ((mem_handOff hacknowledges.stored).mpr (Or.inr rfl)) ?_ fun _ => status_handOff _ _
    simp

theorem Packs.sound (hs : Sound db) {p : ReadyPackage} (h : Packs db db' p) : Sound db' where
  packages := by
    rw [h.packages]
    exact hs.packages.append_singleton h.fresh
  reached := by
    intro q hq
    rw [h.packages] at hq
    rcases List.mem_append.mp hq with hq | hq
    · exact hs.reached q hq
    · rw [List.mem_singleton.mp hq, h.verified]
      exact ReadyPackageStatus.noConfusion
  receipts := h.receipts ▸ hs.receipts
  valid := h.receipts ▸ hs.valid
  agree := h.receipts ▸ hs.agree
  packaged := by
    intro r hr
    rw [h.receipts] at hr
    obtain ⟨q, hq, hnames⟩ := hs.packaged r hr
    exact ⟨q, h.packages ▸ List.mem_append_left _ hq, hnames⟩
  handedOff := by
    intro r hr hstatus q hq hid
    rw [h.receipts] at hr
    rw [h.packages] at hq
    rcases List.mem_append.mp hq with hq | hq
    · exact hs.handedOff r hr hstatus q hq hid
    · -- no receipt names the package before it is stored
      obtain ⟨stored, hstored, hsame, -⟩ := hs.packaged r hr
      rw [List.mem_singleton.mp hq] at hid
      exact absurd (hsame.trans hid.symm) (h.fresh stored hstored)

/-- The call is a `markHandedOff` of the package, and it succeeds. -/
def Marks (db : Database) (call : Call) (id workspaceId : String) : Prop :=
  ∃ expectedDigest now p, call = .markHandedOff id workspaceId expectedDigest now ∧
    (markHandedOff id workspaceId expectedDigest now db).1 = .ok p

/-- What one call does to the tables. -/
inductive Moved (db : Database) : Call → Database → Prop where
  | rests (call : Call) (hfails : ∀ id workspaceId, ¬Marks db call id workspaceId) : Moved db call db
  | packs (input : CreateVerifiedReadyPackageInput) (now : Timestamp) (id : String)
      (p : ReadyPackage) (db' : Database) (h : Packs db db' p) :
      Moved db (.createVerified input now id) db'
  | marks (current : ReadyPackage) (expectedDigest : String) (now : Timestamp)
      (hcurrent : current ∈ db.readyPackages)
      (hmarks : Marks db (.markHandedOff current.id current.workspaceId expectedDigest now)
        current.id current.workspaceId) :
      Moved db (.markHandedOff current.id current.workspaceId expectedDigest now)
        (db.handOff current now)
  | records (input : RecordReadyPackageCoreIntakeAcknowledgmentInput) (now : Timestamp)
      (current : ReadyPackage) (result : ReadyPackageCoreIntakeAcknowledgmentPersistenceResult)
      (db' : Database) (hacknowledges : Acknowledges db input current)
      (h : Recorded db input now current result db') :
      Moved db (.recordCoreIntakeAcknowledgment input now) db'

theorem marks_markHandedOff {id workspaceId expectedDigest : String} {now : Timestamp}
    {id' workspaceId' : String} :
    Marks db (.markHandedOff id workspaceId expectedDigest now) id' workspaceId' ↔
      (id' = id ∧ workspaceId' = workspaceId) ∧
        ∃ p, (markHandedOff id workspaceId expectedDigest now db).1 = .ok p := by
  constructor
  · rintro ⟨_, _, p, hcall, h⟩
    cases hcall
    exact ⟨⟨rfl, rfl⟩, p, h⟩
  · rintro ⟨⟨rfl, rfl⟩, p, h⟩
    exact ⟨_, _, p, rfl, h⟩

theorem not_marks_createVerified {input : CreateVerifiedReadyPackageInput} {now : Timestamp}
    {newId id workspaceId : String} : ¬Marks db (.createVerified input now newId) id workspaceId := by
  rintro ⟨_, _, _, hcall, -⟩
  cases hcall

theorem not_marks_record {input : RecordReadyPackageCoreIntakeAcknowledgmentInput}
    {now : Timestamp} {id workspaceId : String} :
    ¬Marks db (.recordCoreIntakeAcknowledgment input now) id workspaceId := by
  rintro ⟨_, _, _, hcall, -⟩
  cases hcall

theorem moved_step (hs : Sound db) (call : Call) :
    Moved db call ((registry platform).step db call) := by
  cases call with
  | createVerified input now id =>
    rcases createVerified_cases platform input now id db with h | ⟨p, h⟩
    · have hstep : (registry platform).step db (.createVerified input now id) = db := h
      rw [hstep]
      exact .rests _ fun _ _ => not_marks_createVerified
    · exact .packs input now id p _ h
  | markHandedOff id workspaceId expectedDigest now =>
    rcases markHandedOff_cases hs id workspaceId expectedDigest now with
      ⟨e, h⟩ | ⟨current, hcurrent, rfl, rfl, h⟩
    · have hstep : (registry platform).step db (.markHandedOff id workspaceId expectedDigest now) =
          db := congrArg Prod.snd h
      rw [hstep]
      refine .rests _ fun _ _ hmarks => ?_
      obtain ⟨-, p, hp⟩ := marks_markHandedOff.mp hmarks
      rw [h] at hp
      cases hp
    · have hstep : (registry platform).step db (.markHandedOff current.id current.workspaceId
          expectedDigest now) = db.handOff current now := congrArg Prod.snd h
      rw [hstep]
      refine .marks current expectedDigest now hcurrent ?_
      exact marks_markHandedOff.mpr ⟨⟨rfl, rfl⟩, _, congrArg Prod.fst h⟩
  | recordCoreIntakeAcknowledgment input now =>
    have hstep : (registry platform).step db (.recordCoreIntakeAcknowledgment input now) =
        (recordCoreIntakeAcknowledgment input now db).2 := by
      simp only [registry, step]
    rw [hstep]
    rcases recordCoreIntakeAcknowledgment_cases hs input now with
      ⟨e, h⟩ | ⟨current, result, db', h, hacknowledges, hrecorded⟩
    · rw [h]
      exact .rests _ fun _ _ => not_marks_record
    · rw [h]
      exact .records input now current result db' hacknowledges hrecorded

theorem Moved.sound (hs : Sound db) {call : Call} (h : Moved db call db') : Sound db' := by
  cases h with
  | rests => exact hs
  | packs _ _ _ p _ h => exact h.sound hs
  | marks current _ now hcurrent => exact hs.handOff hcurrent now
  | records _ _ _ _ _ hacknowledges h => exact h.sound hs hacknowledges

/-- A package that is handed off is not written again. -/
theorem Moved.keeps_handedOff (hs : Sound db) {call : Call} (h : Moved db call db')
    {p : ReadyPackage} (hp : p ∈ db.readyPackages) (hstatus : p.status = .handedOff) :
    p ∈ db'.readyPackages := by
  have hhandOff : ∀ current ∈ db.readyPackages, ∀ now,
      p ∈ (db.handOff current now).readyPackages := by
    intro current hcurrent now
    rw [mem_handOff hcurrent]
    by_cases hid : p.id = current.id
    · obtain rfl := hs.packages.eq_of_key hp hcurrent hid
      exact Or.inr (handOff_of_handedOff _ hstatus).symm
    · exact Or.inl ⟨hp, hid⟩
  cases h with
  | rests => exact hp
  | packs _ _ _ q _ h => exact h.packages ▸ List.mem_append_left _ hp
  | marks current _ now hcurrent => exact hhandOff current hcurrent now
  | records _ now current _ _ hacknowledges h =>
    cases h with
    | replays | rejects => exact hp
    | receives => exact hhandOff current hacknowledges.stored now

theorem sound_step (hs : Sound db) (call : Call) : Sound ((registry platform).step db call) :=
  (moved_step platform hs call).sound hs

theorem sound_run (calls : List Call) : Sound ((registry platform).run calls) :=
  Machine.run_invariant (P := Sound) sound_empty (fun _ call hs => sound_step platform hs call) calls

/-- A package that is handed off stays so. -/
theorem handedOff_runFrom (hs : Sound db) {p : ReadyPackage} (hp : p ∈ db.readyPackages)
    (hstatus : p.status = .handedOff) (calls : List Call) :
    p ∈ ((registry platform).runFrom db calls).readyPackages := by
  have hstep : ∀ db call, (Sound db ∧ p ∈ db.readyPackages) →
      Sound ((registry platform).step db call) ∧
        p ∈ ((registry platform).step db call).readyPackages := by
    rintro db call ⟨hs, hp⟩
    have hmoved := moved_step platform hs call
    exact ⟨hmoved.sound hs, hmoved.keeps_handedOff hs hp hstatus⟩
  exact (Machine.runFrom_invariant (M := registry platform) hstep ⟨hs, hp⟩ calls).2

end Calls

/-! ### Why a package is handed off -/

section Runs

variable (platform : Platform) {db db' : Database}

/-- A `markHandedOff` of the package succeeded in the run. -/
def MarkedHandedOff (calls : List Call) (id workspaceId : String) : Prop :=
  ∃ before call after, calls = before ++ call :: after ∧
    Marks ((registry platform).run before) call id workspaceId

theorem markedHandedOff_concat {calls : List Call} {call : Call} {id workspaceId : String} :
    MarkedHandedOff platform (calls ++ [call]) id workspaceId ↔
      MarkedHandedOff platform calls id workspaceId ∨
        Marks ((registry platform).run calls) call id workspaceId := by
  constructor
  · rintro ⟨before, marking, after, hsplit, hmarks⟩
    rcases List.eq_nil_or_concat after with rfl | ⟨after, last, rfl⟩
    · obtain ⟨rfl, hlast⟩ := List.append_inj' hsplit rfl
      obtain rfl : call = marking := List.singleton_inj.mp hlast
      exact Or.inr hmarks
    · rw [List.concat_eq_append, ← List.cons_append, ← List.append_assoc] at hsplit
      obtain ⟨rfl, -⟩ := List.append_inj' hsplit rfl
      exact Or.inl ⟨before, marking, after, rfl, hmarks⟩
  · rintro (⟨before, marking, after, rfl, hmarks⟩ | hmarks)
    · exact ⟨before, marking, after ++ [call], by simp, hmarks⟩
    · exact ⟨calls, call, [], rfl, hmarks⟩

/-- A receipt for the package is stored that does not reject it. -/
def Received (db : Database) (p : ReadyPackage) : Prop :=
  ∃ r ∈ db.receipts, r.workspaceId = p.workspaceId ∧ r.readyPackageId = p.id ∧ r.status ≠ .rejected

theorem received_concat {p : ReadyPackage} {r : ReadyPackageCoreIntakeReceipt}
    (h : db'.receipts = db.receipts ++ [r]) :
    Received db' p ↔ Received db p ∨
      (r.workspaceId = p.workspaceId ∧ r.readyPackageId = p.id ∧ r.status ≠ .rejected) := by
  simp only [Received, h, List.mem_append, List.mem_singleton, or_and_right, exists_or,
    exists_eq_left]

/-- What is known of a run: a marked package is stored, and the packages handed off are those marked
    and those received. -/
structure Explained (calls : List Call) (db : Database) : Prop where
  stored : ∀ id workspaceId, MarkedHandedOff platform calls id workspaceId →
    ∃ p ∈ db.readyPackages, p.id = id
  status : ∀ p ∈ db.readyPackages,
    p.status = .handedOff ↔ MarkedHandedOff platform calls p.id p.workspaceId ∨ Received db p

theorem explained_step {calls : List Call} {call : Call} (hs : Sound db)
    (h : Explained platform calls db) (hdb : db = (registry platform).run calls)
    (hmoved : Moved db call db') : Explained platform (calls ++ [call]) db' := by
  have hconcat : ∀ id workspaceId, MarkedHandedOff platform (calls ++ [call]) id workspaceId ↔
      MarkedHandedOff platform calls id workspaceId ∨ Marks db call id workspaceId := by
    intro id workspaceId
    rw [hdb]
    exact markedHandedOff_concat platform
  -- where the call marks nothing
  have hsame : (∀ id workspaceId, ¬Marks db call id workspaceId) → ∀ id workspaceId,
      MarkedHandedOff platform (calls ++ [call]) id workspaceId ↔
        MarkedHandedOff platform calls id workspaceId := by
    intro hnone id workspaceId
    rw [hconcat]
    exact or_iff_left (hnone id workspaceId)
  -- a handoff keeps the ids
  have hids : ∀ current ∈ db.readyPackages, ∀ now id, (∃ p ∈ db.readyPackages, p.id = id) →
      ∃ p ∈ (db.handOff current now).readyPackages, p.id = id := by
    intro current hcurrent now id hstored
    refine exists_mem_update (fun p _ hkey hid => ?_) hstored
    exact hkey.symm.trans hid
  cases hmoved with
  | rests _ hfails =>
    refine ⟨fun id workspaceId hmarked => ?_, fun p hp => ?_⟩
    · exact h.stored id workspaceId ((hsame hfails id workspaceId).mp hmarked)
    · rw [hsame hfails]
      exact h.status p hp
  | packs _ _ _ p _ hpacks =>
    have hnone : ∀ id workspaceId, MarkedHandedOff platform (calls ++ [_]) id workspaceId ↔
        MarkedHandedOff platform calls id workspaceId := hsame fun _ _ => not_marks_createVerified
    refine ⟨fun id workspaceId hmarked => ?_, fun q hq => ?_⟩
    · obtain ⟨q, hq, hid⟩ := h.stored id workspaceId ((hnone id workspaceId).mp hmarked)
      exact ⟨q, hpacks.packages ▸ List.mem_append_left _ hq, hid⟩
    · have hreceived : Received db' q ↔ Received db q := by rw [Received, hpacks.receipts, Received]
      rw [hnone, hreceived]
      rw [hpacks.packages] at hq
      rcases List.mem_append.mp hq with hq | hq
      · exact h.status q hq
      · rw [List.mem_singleton.mp hq, hpacks.verified]
        refine iff_of_false ReadyPackageStatus.noConfusion ?_
        rintro (hmarked | ⟨r, hr, -, hnames, -⟩)
        · obtain ⟨stored, hstored, hid⟩ := h.stored _ _ hmarked
          exact hpacks.fresh stored hstored hid
        · obtain ⟨stored, hstored, hid, -⟩ := hs.packaged r hr
          exact hpacks.fresh stored hstored (hid.trans hnames)
  | marks current expectedDigest now hcurrent hmarks =>
    refine ⟨fun id workspaceId hmarked => hids current hcurrent now id ?_, fun q hq => ?_⟩
    · rcases (hconcat id workspaceId).mp hmarked with hmarked | hmarked
      · exact h.stored id workspaceId hmarked
      · obtain ⟨⟨rfl, -⟩, -⟩ := marks_markHandedOff.mp hmarked
        exact ⟨current, hcurrent, rfl⟩
    · rw [hconcat]
      rcases (mem_handOff hcurrent).mp hq with ⟨hq, hid⟩ | rfl
      · have hother : ¬Marks db (.markHandedOff current.id current.workspaceId expectedDigest now)
            q.id q.workspaceId := fun hq => hid (marks_markHandedOff.mp hq).1.1
        rw [or_iff_left hother]
        exact h.status q hq
      · rw [id_handOff, workspaceId_handOff]
        exact iff_of_true (status_handOff _ _) (Or.inl (Or.inr hmarks))
  | records input now current result _ hacknowledges hrecorded =>
    have hnone : ∀ id workspaceId, MarkedHandedOff platform (calls ++ [_]) id workspaceId ↔
        MarkedHandedOff platform calls id workspaceId := hsame fun _ _ => not_marks_record
    have hcurrent := hacknowledges.stored
    cases hrecorded with
    | replays =>
      refine ⟨fun id workspaceId hmarked => ?_, fun q hq => ?_⟩
      · exact h.stored id workspaceId ((hnone id workspaceId).mp hmarked)
      · rw [hnone]
        exact h.status q hq
    | rejects hdate hnew hstatus =>
      refine ⟨fun id workspaceId hmarked => ?_, fun q hq => ?_⟩
      · exact h.stored id workspaceId ((hnone id workspaceId).mp hmarked)
      · rw [hnone, received_concat rfl, or_iff_left (b := _ ∧ _) fun hnew => hnew.2.2 hstatus]
        exact h.status q hq
    | receives hdate hnew hstatus =>
      refine ⟨fun id workspaceId hmarked => hids current hcurrent now id ?_, fun q hq => ?_⟩
      · exact h.stored id workspaceId ((hnone id workspaceId).mp hmarked)
      · have hreceived : Received { db.handOff current now with
            receipts := db.receipts ++ [receiptOf input now] } q ↔ Received db q ∨ _ :=
          received_concat rfl
        rw [hnone, hreceived]
        rcases (mem_handOff hcurrent).mp hq with ⟨hq, hid⟩ | rfl
        · have hother : ¬((receiptOf input now).workspaceId = q.workspaceId ∧
              (receiptOf input now).readyPackageId = q.id ∧ (receiptOf input now).status ≠ .rejected) :=
            fun hnames => hid (hnames.2.1.symm.trans hacknowledges.id.symm)
          rw [or_iff_left hother]
          exact h.status q hq
        · refine iff_of_true (status_handOff _ _) (Or.inr (Or.inr ⟨?_, ?_, hstatus⟩))
          · rw [workspaceId_handOff]
            exact hacknowledges.workspaceId.symm
          · rw [id_handOff]
            exact hacknowledges.id.symm

theorem explained_run (calls : List Call) :
    Explained platform calls ((registry platform).run calls) := by
  induction calls using List.reverseRecOn with
  | nil =>
    refine ⟨?_, fun p hp => nomatch hp⟩
    rintro id workspaceId ⟨before, call, after, hsplit, -⟩
    exact absurd hsplit.symm (by simp)
  | append_singleton calls call ih =>
    have hs := sound_run platform calls
    rw [Machine.run_concat]
    exact explained_step platform hs ih rfl (moved_step platform hs call)

end Runs

/-! ### What a result says -/

/-- The call replays a stored rejection of a package that has been handed off since. -/
def ReplaysLateRejection (db : Database)
    (input : RecordReadyPackageCoreIntakeAcknowledgmentInput) : Prop :=
  input.coreIntakeResult.status = .rejected ∧
    (∃ r ∈ db.receipts, r.workspaceId = input.workspaceId ∧
      r.intakeId = input.coreIntakeResult.intakeId ∧ r.status = .rejected) ∧
    ∃ p ∈ db.readyPackages, p.id = input.readyPackageId ∧ p.status = .handedOff

instance (db : Database) (input : RecordReadyPackageCoreIntakeAcknowledgmentInput) :
    Decidable (ReplaysLateRejection db input) :=
  inferInstanceAs (Decidable (_ ∧ _ ∧ _))

theorem Recorded.handoffRecorded_iff {db db' : Database} (hs : Sound db)
    {input : RecordReadyPackageCoreIntakeAcknowledgmentInput} {now : Timestamp}
    {current : ReadyPackage} {result : ReadyPackageCoreIntakeAcknowledgmentPersistenceResult}
    (hacknowledges : Acknowledges db input current)
    (h : Recorded db input now current result db') :
    (result.handoffRecorded = true ↔ result.readyPackage.status = .handedOff) ↔
      ¬ReplaysLateRejection db input := by
  -- where no receipt with this status was stored, no rejection is replayed
  have hnever : (∀ r ∈ db.receipts, key r ≠ key (receiptOf input now)) →
      ¬ReplaysLateRejection db input := by
    rintro hnew ⟨hstatus, ⟨r, hr, hws, hintake, hrejected⟩, -⟩
    refine hnew r hr ?_
    simp [receiptOf, hws, hintake, hrejected, hstatus]
  cases h with
  | replays existing hstored hkey =>
    simp only [key_receipt, receiptOf, Prod.mk.injEq] at hkey
    obtain ⟨hws, hintake, hstatus⟩ := hkey
    simp only [decide_eq_true_eq]
    by_cases hrejected : existing.status = .rejected
    · have hreplays : ReplaysLateRejection db input ↔ current.status = .handedOff := by
        constructor
        · rintro ⟨-, -, p, hp, hid, hhandedOff⟩
          have hkey : key p = key current := hid.trans hacknowledges.id.symm
          rwa [← hs.packages.eq_of_key hp hacknowledges.stored hkey]
        · intro hhandedOff
          exact ⟨hstatus ▸ hrejected, ⟨existing, hstored, hws, hintake, hrejected⟩,
            current, hacknowledges.stored, hacknowledges.id, hhandedOff⟩
      rw [hreplays]
      simp [hrejected]
    · have hpackage : existing.readyPackageId = input.readyPackageId :=
        (hacknowledges.agree existing hstored hws hintake).1
      have hhandedOff : current.status = .handedOff :=
        hs.handedOff existing hstored hrejected current hacknowledges.stored
          (hacknowledges.id.trans hpackage.symm)
      refine iff_of_true (iff_of_true hrejected hhandedOff) ?_
      rintro ⟨hreplayed, -⟩
      exact hrejected (hstatus.trans hreplayed)
  | rejects _ hnew _ hbefore =>
    exact iff_of_true (iff_of_false Bool.false_ne_true hbefore) (hnever hnew)
  | receives _ hnew =>
    exact iff_of_true (iff_of_true rfl (status_handOff _ _)) (hnever hnew)

/-! ### The registry -/

/-- In every run of the registry the packages handed off are those marked and those received, and
    they stay handed off; an intake has one receipt for each status, all about one package and one
    digest; and a result says that the handoff is recorded exactly where its package is handed off,
    but for the replays of a rejection that came before the handoff. -/
theorem coreIntake_consistent (platform : Platform) (calls : List Call) :
    let db := (registry platform).run calls
    (∀ p ∈ db.readyPackages, p.status = .handedOff ↔
      MarkedHandedOff platform calls p.id p.workspaceId ∨ Received db p) ∧
    (∀ p ∈ db.readyPackages, p.status = .handedOff →
      ∀ later, p ∈ ((registry platform).runFrom db later).readyPackages) ∧
    KeysUnique db.readyPackages ∧ KeysUnique db.receipts ∧
    (∀ r ∈ db.receipts, ∀ r' ∈ db.receipts, r.workspaceId = r'.workspaceId →
      r.intakeId = r'.intakeId →
      r.readyPackageId = r'.readyPackageId ∧ r.expectedDigest = r'.expectedDigest) ∧
    ∀ input now result, (recordCoreIntakeAcknowledgment input now db).1 = .ok result →
      ((result.handoffRecorded = true ↔ result.readyPackage.status = .handedOff) ↔
        ¬ReplaysLateRejection db input) := by
  intro db
  have hs : Sound db := sound_run platform calls
  refine ⟨(explained_run platform calls).status, ?_, hs.packages, hs.receipts, hs.agree, ?_⟩
  · intro p hp hstatus later
    exact handedOff_runFrom platform hs hp hstatus later
  · intro input now result hresult
    rcases recordCoreIntakeAcknowledgment_cases hs input now with
      ⟨e, h⟩ | ⟨current, recorded, db', h, hacknowledges, hrecorded⟩
    · rw [h] at hresult
      cases hresult
    · rw [h] at hresult
      obtain rfl : recorded = result := Except.ok.inj hresult
      exact hrecorded.handoffRecorded_iff hs hacknowledges

/-! ### A rejection replayed after the handoff -/

/-- Digests that are one fixed text, and dates that all parse. -/
def fixedPlatform : Platform where
  requestDigest := fun _ => String.ofList (List.replicate 64 'a')
  evidenceDigest := fun _ => String.ofList (List.replicate 64 'b')
  dateParse := fun _ => some 0

def onePackage : CreateVerifiedReadyPackageInput where
  workspaceId := "wsp_1"
  sourceId := "src_1"
  rawArtifactId := "raw_1"
  rawArtifactSha256 := String.ofList (List.replicate 64 '0')
  capturedAt := "2026-01-01T00:00:00.000Z"
  conversionRunId := "cvr_1"
  converter := ⟨"markdown", "1.0.0"⟩
  stagingDocumentId := "stg_1"
  stagingSha256 := String.ofList (List.replicate 64 '0')
  verificationId := "ver_1"
  verificationOutcome := .pass
  idempotencyKey := "package-1"

def acknowledgment (intakeId : String) (status : CoreIntakeStatus) :
    RecordReadyPackageCoreIntakeAcknowledgmentInput where
  workspaceId := "wsp_1"
  readyPackageId := "rdp_1"
  expectedDigest := String.ofList (List.replicate 64 'b')
  coreIntakeResult := ⟨intakeId, status, "rdp_1"⟩

/-- Core rejects the package, then accepts it under another intake. -/
def acceptedAfterRejection : Database :=
  (registry fixedPlatform).run [.createVerified onePackage 0 "rdp_1",
    .recordCoreIntakeAcknowledgment (acknowledgment "intake-a" .rejected) 1,
    .recordCoreIntakeAcknowledgment (acknowledgment "intake-b" .accepted) 2]

/-- The rejection is reported again: its result returns the package as handed off and says that no
    handoff is recorded. -/
theorem late_rejection_replayed :
    (recordCoreIntakeAcknowledgment (acknowledgment "intake-a" .rejected) 3
      acceptedAfterRejection).1.toOption.map (fun result =>
        (result.readyPackage.status, result.handoffRecorded, result.disposition)) =
      some (.handedOff, false, .rejectedNotHandedOff) := by
  decide +kernel

end MarkorbitKnowledge.Handoff

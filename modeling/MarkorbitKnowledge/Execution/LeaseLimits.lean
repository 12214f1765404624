import MarkorbitKnowledge.Execution.Validity

/-!
# The limits of a lease

How long a lease lives and how many a worker holds.  A renewal stops at the hard limit, a claim is
granted below the capacity of its worker, and a renewal that comes too late leaves the lease EXPIRED:
the inner registry expires it inside a transaction that its own throw rolls back, and the reap with
which the facade repairs this ends the lease for good, because it runs later and so finds it expired.

`endLease_spec` says what the end of a lease writes, `reapExpired_spec` what a reap does to a lease
and its job.
-/

namespace MarkorbitKnowledge.Execution

open Contracts Fallible Transitions
open Protocol (Coherent)
open Tables (KeysUnique mem_of_find? key_of_find?)

/-! ### The end of a lease -/

/-- The end of a lease closes it and gives its job back if the job was still LEASED. -/
theorem endLease_spec {db db' : Database} {row : LeaseRow} {status : JobLeaseStatus}
    {timestamp : Timestamp} {reason : String} (hc : Coherent (view db))
    (h : endLease db row status timestamp reason = .ok db') :
    db'.leases = Tables.update db.leases
      { row with lease := closedLease row.lease status timestamp (sliceText reason 500) } ∧
    ((db'.jobs = db.jobs ∧
        ∀ job ∈ db.jobs, job.id = row.lease.jobId → job.status ≠ .leased) ∨
      ∃ job ∈ db.jobs, job.id = row.lease.jobId ∧ job.status = .leased ∧
        db'.jobs = Tables.update db.jobs { job with status := .pending, updatedAt := timestamp }) := by
  simp only [endLease, closeLease, bind_eq_ok, require_eq_ok, pure_eq_ok] at h
  obtain ⟨_, ⟨_, -, rfl⟩, h⟩ := h
  simp only [returnJobToPending, updateLeaseDocument] at h
  split at h
  · rename_i hnone
    rw [pure_eq_ok] at h
    subst h
    exact ⟨rfl, Or.inl ⟨rfl, fun job hjob hid => absurd hid (Tables.find?_eq_none.mp hnone job hjob)⟩⟩
  · rename_i job hfind
    have hjob := mem_of_find? hfind
    have hid : job.id = row.lease.jobId := key_of_find? hfind
    simp only [bind_eq_ok, parseJob_eq_ok] at h
    obtain ⟨_, ⟨-, rfl⟩, h⟩ := h
    split at h
    · rename_i hleased
      simp only [jobWithStatus, bind_eq_ok, require_eq_ok, pure_eq_ok] at h
      obtain ⟨_, ⟨_, -, rfl⟩, rfl⟩ := h
      exact ⟨rfl, Or.inr ⟨job, hjob, hid, hleased, rfl⟩⟩
    · rename_i hnotLeased
      rw [pure_eq_ok] at h
      subst h
      refine ⟨rfl, Or.inl ⟨rfl, fun other hother hother' => ?_⟩⟩
      have : other = job :=
        (jobKeys_of_coherent hc).eq_of_key hother hjob (hother'.trans hid.symm)
      exact this ▸ hnotLeased

/-- The lease of `row` is stored as EXPIRED, and its job is not LEASED. -/
structure Expired (row : LeaseRow) (db : Database) : Prop where
  lease : ∃ stored ∈ db.leases, stored.lease.id = row.lease.id ∧ stored.lease.status = .expired
  job : ∀ job ∈ db.jobs, job.id = row.lease.jobId → job.status ≠ .leased

/-- A job is as it was, or it was LEASED and is PENDING again. -/
def JobReturned (job : Job) (db : Database) : Prop :=
  ∃ later ∈ db.jobs, later.id = job.id ∧
    (later.status = job.status ∨ job.status = .leased ∧ later.status = .pending)

section EndLease

variable {db db' : Database} {row : LeaseRow} {timestamp : Timestamp} {reason : String}

theorem endLease_expires (hc : Coherent (view db)) (hrow : row ∈ db.leases)
    (h : endLease db row .expired timestamp reason = .ok db') : Expired row db' := by
  obtain ⟨hleases, hjobs⟩ := endLease_spec hc h
  constructor
  · let closed : LeaseRow :=
      { row with lease := closedLease row.lease .expired timestamp (sliceText reason 500) }
    refine ⟨closed, ?_, rfl, rfl⟩
    rw [hleases]
    exact Tables.mem_update.mpr (Or.inr ⟨rfl, row, hrow, rfl⟩)
  · rcases hjobs with ⟨hsame, hnot⟩ | ⟨job, hjob, hid, -, hupdate⟩
    · exact hsame ▸ hnot
    · intro other hother hother'
      rw [hupdate] at hother
      rcases Tables.mem_update.mp hother with ⟨-, hne⟩ | ⟨rfl, -⟩
      · exact absurd (hother'.trans hid.symm) hne
      · simp

/-- The end of another lease does not bring an expired one back. -/
theorem Expired.endLease {other : LeaseRow} {status : JobLeaseStatus} (hexpired : Expired row db)
    (hne : row.lease.id ≠ other.lease.id) (hc : Coherent (view db))
    (h : endLease db other status timestamp reason = .ok db') : Expired row db' := by
  obtain ⟨hleases, hjobs⟩ := endLease_spec hc h
  constructor
  · obtain ⟨stored, hstored, hid, hstatus⟩ := hexpired.lease
    refine ⟨stored, ?_, hid, hstatus⟩
    rw [hleases]
    exact Tables.mem_update.mpr (Or.inl ⟨hstored, fun heq => hne (hid.symm.trans heq)⟩)
  · rcases hjobs with ⟨hsame, -⟩ | ⟨job, -, -, -, hupdate⟩
    · exact hsame ▸ hexpired.job
    · rw [hupdate]
      refine Tables.forall_mem_update (P := fun job : Job => job.id = row.lease.jobId → job.status ≠ .leased)
        hexpired.job fun _ => ?_
      simp

theorem JobReturned.endLease {job : Job} {status : JobLeaseStatus} (hreturned : JobReturned job db)
    (hc : Coherent (view db)) (h : endLease db row status timestamp reason = .ok db') :
    JobReturned job db' := by
  obtain ⟨later, hlater, hid, hstatus⟩ := hreturned
  obtain ⟨-, ⟨hsame, -⟩ | ⟨leased, hleased, -, hwas, hupdate⟩⟩ := endLease_spec hc h
  · exact ⟨later, hsame ▸ hlater, hid, hstatus⟩
  · by_cases heq : later.id = leased.id
    · obtain rfl : later = leased := (jobKeys_of_coherent hc).eq_of_key hlater hleased heq
      refine ⟨{ later with status := .pending, updatedAt := timestamp }, ?_, hid,
        Or.inr ⟨?_, rfl⟩⟩
      · rw [hupdate]
        exact Tables.mem_update.mpr (Or.inr ⟨rfl, later, hlater, rfl⟩)
      · rcases hstatus with hstatus | ⟨hstatus, -⟩
        · exact hstatus.symm.trans hwas
        · exact hstatus
    · refine ⟨later, ?_, hid, hstatus⟩
      rw [hupdate]
      exact Tables.mem_update.mpr (Or.inl ⟨hlater, heq⟩)

end EndLease

/-! ### A reap -/

/-- A reap ends every active lease whose expiry has passed: the lease is EXPIRED, and its job is
    PENDING if it was LEASED. -/
theorem reapExpired_spec {now : Timestamp} {db db' : Database} {count : Nat}
    (hc : Coherent (view db)) (h : reapExpired now db = .ok (count, db')) {row : LeaseRow}
    (hrow : row ∈ db.leases) (hactive : row.lease.status = .active)
    (hexpired : row.lease.expiresAt ≤ now) :
    Expired row db' ∧ ∀ job ∈ db.jobs, JobReturned job db' := by
  refine ⟨?_, fun job hjob => reapExpired_rule (P := JobReturned job)
    (fun _ _ _ hcurrent _ _ hreturned hend => hreturned.endLease hcurrent hend) hc
    ⟨job, hjob, rfl, Or.inl rfl⟩ h⟩
  simp only [reapExpired, reapExpiredInTransaction, bind_eq_ok, pure_eq_ok, Prod.mk.injEq] at h
  obtain ⟨rows, hrows, _, hfold, -, rfl⟩ := h
  rw [mapM_guarded (fun _ _ => parseLease_eq_ok), List.map_id'] at hrows
  obtain ⟨-, rfl⟩ := hrows
  have hperm : (expiredLeases db now).Perm _ := List.perm_insertionSort _ _
  have hmem : ∀ other ∈ expiredLeases db now, other ∈ db.leases ∧ other.lease.status = .active := by
    intro other hother
    obtain ⟨hother, hselected⟩ := List.mem_filter.mp (hperm.mem_iff.mp hother)
    simp only [Bool.and_eq_true, decide_eq_true_eq] at hselected
    exact ⟨hother, hselected.1⟩
  have hselected : row ∈ expiredLeases db now :=
    hperm.mem_iff.mpr (List.mem_filter.mpr ⟨hrow, by simp [hactive, hexpired]⟩)
  -- The lease is still to come, or it has expired.
  have hrun := foldlM_preserves_rest (P := fun (rest : List LeaseRow) (current : Database) =>
    Coherent (view current) ∧ KeysUnique rest ∧
      (∀ other ∈ rest, other ∈ current.leases ∧ other.lease.status = .active) ∧
      (row ∈ rest ∨ Expired row current ∧ ∀ other ∈ rest, row.lease.id ≠ other.lease.id)) ?_
    ⟨hc, (hperm.map Tables.key).nodup_iff.mpr ((leaseKeys_of_coherent hc).filter _), hmem,
      Or.inl hselected⟩ hfold
  · obtain ⟨-, -, -, hrest | ⟨hdone, -⟩⟩ := hrun
    · cases hrest
    · exact hdone
  · rintro current first rest next ⟨hcurrent, hu, hactives, hrest⟩ hend
    obtain ⟨hfirst, hfirstActive⟩ := hactives first List.mem_cons_self
    obtain ⟨hrefined, hothers⟩ := endLease_refined hcurrent hfirst hfirstActive (by simp) hend
    rw [KeysUnique, List.map_cons, List.nodup_cons] at hu
    have hne : ∀ other ∈ rest, first.lease.id ≠ other.lease.id :=
      fun other hother heq => hu.1 (List.mem_map.mpr ⟨other, hother, heq.symm⟩)
    refine ⟨hrefined.coherent hcurrent, hu.2, fun other hother => ?_, ?_⟩
    · obtain ⟨hstored, hother'⟩ := hactives other (List.mem_cons_of_mem _ hother)
      exact ⟨hothers other hstored (hne other hother).symm, hother'⟩
    · rcases hrest with hrest | ⟨hdone, hrest⟩
      · rcases List.mem_cons.mp hrest with rfl | hrest
        · exact Or.inr ⟨endLease_expires hcurrent hfirst hend, hne⟩
        · exact Or.inl hrest
      · exact Or.inr ⟨hdone.endLease (hrest first List.mem_cons_self) hcurrent hend,
          fun other hother => hrest other (List.mem_cons_of_mem _ hother)⟩

/-- Whatever stops a reap, it is the document of a lease or a job that the contracts refuse. -/
def IsValidation (error : RegistryError) : Prop := ∃ message, error = .validation message

theorem reapExpired_raises (now : Timestamp) (db : Database) :
    Raises IsValidation (reapExpired now db) := by
  have hparseJob : ∀ job, Raises IsValidation (parseJob job) := fun job =>
    .bind (.require ⟨_, rfl⟩) fun _ _ => .pure _
  have hparseLease : ∀ row, Raises IsValidation (parseLease row) := fun row =>
    .bind (.require ⟨_, rfl⟩) fun _ _ => .pure _
  have hreturn : ∀ current jobId, Raises IsValidation (returnJobToPending current jobId now) := by
    intro current jobId
    unfold returnJobToPending
    split
    · exact .pure _
    · refine .bind (hparseJob _) fun job _ => ?_
      split
      · exact .bind (.bind (.require ⟨_, rfl⟩) fun _ _ => .pure _) fun _ _ => .pure _
      · exact .pure _
  have hend : ∀ current row, Raises IsValidation (expireLeaseInTransaction now current row) :=
    fun current row =>
      .bind (.bind (.require ⟨_, rfl⟩) fun _ _ => .pure _) fun next _ => hreturn next row.lease.jobId
  refine .bind (.mapM hparseLease) fun rows _ => .bind ?_ fun _ _ => .pure _
  exact .foldlM (I := fun _ => True) (fun current row _ => ⟨hend current row, fun _ _ => trivial⟩)
    trivial

/-! ### Renewals that come too late -/

/-- The errors after which the facade reaps. -/
def IsExpiry (error : RegistryError) : Prop := error = leaseExpired ∨ error = leaseMaxLifetimeReached

theorem not_isExpiry {code message : String}
    (h : code ∉ ["LEASE_EXPIRED", "LEASE_MAX_LIFETIME_REACHED"]) :
    ¬ IsExpiry (.registry code message) := by
  rintro (heq | heq) <;> exact h (by simp [(RegistryError.registry.inj heq).1])

/-- An expiry error of the inner registry comes from an active lease of that id whose expiry is not
    after the reading of the call: a lease within its lifetime expires before its hard limit is
    reached. -/
theorem renewLeaseInner_raises {platform : Platform} {options : WorkerProtocolOptions}
    {workerId : Id} {credential : String} {leaseId : Id} {leaseToken : String} {now : Timestamp}
    {db : Database} (hlifetime : ∀ row ∈ db.leases, WithinLifetime options row.lease) :
    Raises (fun error => IsExpiry error → ∃ row ∈ db.leases, row.lease.id = leaseId ∧
        row.lease.status = .active ∧ row.lease.expiresAt ≤ now)
      (renewLeaseInner platform options workerId credential leaseId leaseToken now db) := by
  have hother : ∀ {code message : String},
      code ∉ ["LEASE_EXPIRED", "LEASE_MAX_LIFETIME_REACHED"] → IsExpiry (.registry code message) →
      ∃ row ∈ db.leases, row.lease.id = leaseId ∧ row.lease.status = .active ∧
        row.lease.expiresAt ≤ now := fun hcode h => absurd h (not_isExpiry hcode)
  unfold renewLeaseInner
  refine .bind ?_ fun _ _ => .bind ?_ fun row howned => ?_
  · -- The checks of the credential have codes of their own.
    refine .bind (.require (hother (by decide))) fun _ _ =>
      .bind (.orThrow (hother (by decide))) fun _ _ =>
      .bind (.orThrow (hother (by decide))) fun _ _ =>
      .bind (.require (hother (by decide))) fun _ _ => .bind ?_ fun _ _ =>
      .bind (.require (hother (by decide))) fun _ _ => .pure _
    exact .bind (.require (hother (by decide))) fun _ _ => .pure _
  · refine .bind (.orThrow (hother (by decide))) fun _ _ => .bind ?_ fun _ _ =>
      .bind (.require (hother (by decide))) fun _ _ =>
      .bind (.require (hother (by decide))) fun _ _ =>
      .bind (.require (hother (by decide))) fun _ _ => .pure _
    exact .bind (.require (hother (by decide))) fun _ _ => .pure _
  · obtain ⟨hrow, hid, hactive⟩ := requireOwnedActiveLease_spec howned
    by_cases hexpired : row.lease.expiresAt ≤ now
    · exact fun _ _ _ => ⟨row, hrow, hid, hactive, hexpired⟩
    · have hduration : 1000 ≤ options.leaseDurationMs :=
        (options.bounded _ (by simp)).1
      have hlimit : row.lease.expiresAt ≤ row.lease.acquiredAt + options.maxLeaseLifetimeMs :=
        hlifetime row hrow
      have hlater : now < row.lease.expiresAt := Int.not_le.mp hexpired
      have hrenewable :
          now < min (now + (options.leaseDurationMs : Int))
            (row.lease.acquiredAt + options.maxLeaseLifetimeMs) :=
        lt_min (Int.lt_add_of_pos_right now (by omega)) (Int.lt_of_lt_of_le hlater hlimit)
      rw [if_neg hexpired]
      simp only [if_neg (Int.not_le.mpr hrenewable)]
      exact .pure _

/-- A renewal that reports an expiry leaves the lease EXPIRED, and its job PENDING if it was
    LEASED. -/
theorem renewLease_expired {platform : Platform} {options : WorkerProtocolOptions}
    {workerId : Id} {credential : String} {leaseId : Id} {leaseToken : String}
    {now reapNow : Timestamp} {db db' : Database} {error : RegistryError} (hc : Coherent (view db))
    (hlifetime : ∀ row ∈ db.leases, WithinLifetime options row.lease) (hclock : now ≤ reapNow)
    (h : renewLease platform options workerId credential leaseId leaseToken now reapNow db =
      (.error error, db')) (herror : IsExpiry error) :
    ∃ row ∈ db.leases, row.lease.id = leaseId ∧ row.lease.status = .active ∧ Expired row db' ∧
      ∀ job ∈ db.jobs, JobReturned job db' := by
  unfold renewLease at h
  split at h
  · simp at h
  · rename_i inner hinner
    split at h
    · rename_i hinnerExpiry
      obtain ⟨row, hrow, hid, hactive, hexpired⟩ :=
        renewLeaseInner_raises hlifetime inner hinner hinnerExpiry
      split at h
      · rename_i count reaped hreap
        obtain ⟨-, rfl⟩ := Prod.mk.inj h
        exact ⟨row, hrow, hid, hactive,
          reapExpired_spec hc hreap hrow hactive (hexpired.trans hclock)⟩
      · rename_i reapError hreap
        obtain ⟨heq, -⟩ := Prod.mk.inj h
        obtain rfl := Except.error.inj heq
        obtain ⟨_, rfl⟩ := reapExpired_raises reapNow db reapError hreap
        exact absurd herror (not_isExpiry (by decide))
    · rename_i hinnerNot
      obtain ⟨heq, -⟩ := Prod.mk.inj h
      exact absurd (Except.error.inj heq ▸ herror) hinnerNot

/-! ### Capacity -/

/-- The worker that begins a claim is stored and has capacity left. -/
theorem beginClaim_capacity {platform : Platform} {options : WorkerProtocolOptions} {workerId : Id}
    {credential : String} {inputs : ClaimInputs} {worker : WorkerDefinition} {db db' : Database}
    (h : beginClaim platform options workerId credential inputs db = .ok (worker, db')) :
    worker ∈ db'.workers ∧ worker.id = workerId ∧
      (activeLeases db' workerId).length < worker.maxConcurrency := by
  simp only [beginClaim, parseWorker, bind_eq_ok, orThrow_eq_ok, require_eq_ok, pure_eq_ok,
    Prod.mk.injEq] at h
  obtain ⟨_, -, ⟨_, reaped⟩, -, stored, hfind, _, ⟨_, -, rfl⟩, _, -, ⟨status, count⟩, hview, _, -, _, -,
    _, hcapacity, rfl, rfl⟩ := h
  simp only [viewForWorker, bind_eq_ok, pure_eq_ok, Prod.mk.injEq] at hview
  obtain ⟨_, -, leases, hleases, -, rfl⟩ := hview
  rw [mapM_guarded (fun _ _ => parseLease_eq_ok), List.map_id'] at hleases
  obtain ⟨-, rfl⟩ := hleases
  have hid : stored.id = workerId := key_of_find? hfind
  exact ⟨mem_of_find? hfind, hid, hid ▸ hcapacity⟩

theorem activeLeases_granted {platform : Platform} {options : WorkerProtocolOptions}
    {worker : WorkerDefinition} {job : Job} {inputs : ClaimInputs} {result : ClaimResult}
    {db db' : Database}
    (h : claimJobInTransaction platform options db worker job inputs = .ok (result, db'))
    (workerId : Id) :
    db'.workers = db.workers ∧
      (activeLeases db' workerId).length ≤ (activeLeases db workerId).length + 1 := by
  simp only [claimJobInTransaction, jobWithStatus, insertLease, bind_eq_ok, require_eq_ok,
    pure_eq_ok, Prod.mk.injEq] at h
  obtain ⟨_, -, _, ⟨_, -, rfl⟩, _, -, _, ⟨_, -, _, -, rfl⟩, -, rfl⟩ := h
  refine ⟨rfl, ?_⟩
  simp only [activeLeases, List.length_insertionSort, List.filter_append, List.length_append]
  exact Nat.add_le_add_left (List.length_filter_le _ _) _

/-- The worker is stored, with no more active leases than it may hold. -/
def WithinCapacity (workerId : Id) (db : Database) : Prop :=
  ∃ worker ∈ db.workers, worker.id = workerId ∧
    (activeLeases db workerId).length ≤ worker.maxConcurrency

theorem claim_capacity {platform : Platform} {options : WorkerProtocolOptions} {workerId : Id}
    {credential : String} {inputs : ClaimInputs} {result : ClaimResult} {db db' : Database}
    (h : claim platform options workerId credential inputs db = .ok (result, db')) :
    WithinCapacity workerId db' := by
  simp only [claim, bind_eq_ok] at h
  obtain ⟨⟨worker, reaped⟩, hbegin, _, -, _, -, h⟩ := h
  obtain ⟨hworker, hid, hcapacity⟩ := beginClaim_capacity hbegin
  split at h
  · simp only [pure_eq_ok, Prod.mk.injEq] at h
    exact h.2 ▸ ⟨worker, hworker, hid, hcapacity.le⟩
  · obtain ⟨hworkers, hleases⟩ := activeLeases_granted h workerId
    exact ⟨worker, hworkers ▸ hworker, hid, hleases.trans hcapacity⟩

theorem claimSpecific_capacity {platform : Platform} {options : WorkerProtocolOptions}
    {workerId jobId : Id} {credential : String} {inputs : ClaimInputs} {result : ClaimResult}
    {db db' : Database}
    (h : claimSpecific platform options workerId credential jobId inputs db = .ok (result, db')) :
    WithinCapacity workerId db' := by
  simp only [claimSpecific, bind_eq_ok] at h
  obtain ⟨⟨worker, reaped⟩, hbegin, _, -, _, -, _, -, _, -, _, -, _, -, h⟩ := h
  obtain ⟨hworker, hid, hcapacity⟩ := beginClaim_capacity hbegin
  obtain ⟨hworkers, hleases⟩ := activeLeases_granted h workerId
  exact ⟨worker, hworkers ▸ hworker, hid, hleases.trans hcapacity⟩

/-! ### Every run -/

/-- In every state a run of the registry reaches: the leases are within their lifetime; a successful
    claim leaves its worker within its capacity; and a renewal that reports an expiry leaves the lease
    EXPIRED and its job, if it was LEASED, PENDING. -/
theorem leases_within_limits (platform : Platform) (options : WorkerProtocolOptions)
    (ops : List Op) :
    let db := (machine platform options).run ops
    (∀ row ∈ db.leases, row.lease.expiresAt ≤ row.lease.acquiredAt + options.maxLeaseLifetimeMs) ∧
    (∀ workerId credential inputs result db',
      claim platform options workerId credential inputs db = .ok (result, db') →
        WithinCapacity workerId db') ∧
    (∀ workerId credential jobId inputs result db',
      claimSpecific platform options workerId credential jobId inputs db = .ok (result, db') →
        WithinCapacity workerId db') ∧
    ∀ workerId credential leaseId leaseToken now reapNow error db', now ≤ reapNow →
      renewLease platform options workerId credential leaseId leaseToken now reapNow db =
        (.error error, db') →
      (error = leaseExpired ∨ error = leaseMaxLifetimeReached) →
      ∃ row ∈ db.leases, row.lease.id = leaseId ∧
        (∃ stored ∈ db'.leases, stored.lease.id = leaseId ∧ stored.lease.status = .expired) ∧
        ∀ job ∈ db.jobs, job.id = row.lease.jobId → job.status = .leased →
          ∃ later ∈ db'.jobs, later.id = job.id ∧ later.status = .pending := by
  intro db
  have hvalid := valid_run platform options ops
  have hc := coherent_run platform options ops
  refine ⟨hvalid.leases, fun _ _ _ _ _ h => claim_capacity h,
    fun _ _ _ _ _ _ h => claimSpecific_capacity h, ?_⟩
  intro workerId credential leaseId leaseToken now reapNow error db' hclock h herror
  obtain ⟨row, hrow, hid, -, hexpired, hreturned⟩ :=
    renewLease_expired hc hvalid.leases hclock h herror
  refine ⟨row, hrow, hid, hid ▸ hexpired.lease, fun job hjob hof hleased => ?_⟩
  obtain ⟨later, hlater, hsame, hstatus⟩ := hreturned job hjob
  refine ⟨later, hlater, hsame, ?_⟩
  rcases hstatus with hstatus | ⟨-, hpending⟩
  · exact absurd (hstatus.trans hleased) (hexpired.job later hlater (hsame.trans hof))
  · exact hpending

end MarkorbitKnowledge.Execution

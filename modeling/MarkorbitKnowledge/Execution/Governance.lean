import MarkorbitKnowledge.Execution.Retention
import MarkorbitKnowledge.Lib.RollingWindow
import Mathlib.Algebra.Order.Group.Int

/-!
# Web-domain governance

A claim checks, for the web domain of the job it takes, how many leases on the domain are active and
how many were acquired in the last minute.  `Governed` is what these checks amount to over a run: the
active leases on a domain stay within the registry's limit, and the grants on it form a log of a
rolling limiter, so that no minute holds more of them than the rate limit of any.  No other call adds
a grant or reopens a lease, which is what `Retains` says, and a job keeps the snapshots its domain and
its rate limit are read from.

A job whose domain key is empty is not governed: the checks take an empty key for no key.
-/

namespace MarkorbitKnowledge.Execution

open Contracts Fallible Transitions RollingWindow
open Protocol (Coherent coherent_of_steps)
open Tables (KeysUnique find? mem_of_find? key_of_find?)

/-! ### The leases on a domain -/

/-- The job of a lease, if it is a job of the web domain. -/
def onDomain (platform : Platform) (jobs : List Job) (domain : String) (row : LeaseRow) :
    Option (LeaseRow × Job) :=
  ((find? jobs row.lease.jobId).filter fun job =>
    decide (webDomainKey platform job = some domain)).map fun job => (row, job)

/-- The leases on jobs of one web domain, each with its job. -/
def leasesOnDomain (platform : Platform) (db : Database) (domain : String) : List (LeaseRow × Job) :=
  db.leases.filterMap (onDomain platform db.jobs domain)

def isActive (entry : LeaseRow × Job) : Bool := decide (entry.1.lease.status = .active)

def acquiredWithin (first last : Timestamp) (entry : LeaseRow × Job) : Bool :=
  decide (first ≤ entry.1.lease.acquiredAt) && decide (entry.1.lease.acquiredAt ≤ last)

def rateLimit (job : Job) : Nat := job.planSnapshot.policy.rateLimitPerMinute

/-- A lease as an entry in the log of the limiter of its domain. -/
def grantOf (entry : LeaseRow × Job) : Grant Timestamp := ⟨entry.1.lease.acquiredAt, rateLimit entry.2⟩

def grants (platform : Platform) (db : Database) (domain : String) : List (Grant Timestamp) :=
  (leasesOnDomain platform db domain).map grantOf

structure Governed (platform : Platform) (options : WorkerProtocolOptions) (db : Database)
    (domain : String) : Prop where
  active : (leasesOnDomain platform db domain).countP isActive ≤
    options.maxConcurrentWebLeasesPerDomain
  admitted : Admitted 60000 (grants platform db domain)

/-! ### Calls that claim nothing -/

theorem webDomainKey_eq {platform : Platform} {job later : Job}
    (h : jobSnapshots later = jobSnapshots job) :
    webDomainKey platform later = webDomainKey platform job := by
  have hsource : later.sourceSnapshot = job.sourceSnapshot := congrArg JobSnapshots.sourceSnapshot h
  simp only [webDomainKey, hsource]

theorem rateLimit_eq {job later : Job} (h : jobSnapshots later = jobSnapshots job) :
    rateLimit later = rateLimit job := by
  have hplan : later.planSnapshot = job.planSnapshot := congrArg JobSnapshots.planSnapshot h
  simp only [rateLimit, hplan]

/-- A stored job is still found later, with its snapshots. -/
theorem find?_snapshots {jobs later : List Job}
    (h : jobs.map jobSnapshots <+: later.map jobSnapshots) {id : Id} {job : Job}
    (hfind : find? jobs id = some job) :
    ∃ job', find? later id = some job' ∧ jobSnapshots job' = jobSnapshots job := by
  have hmap := Tables.find?_map jobSnapshots (fun _ => rfl) jobs id
  rw [hfind, Option.map_some] at hmap
  have hlater : find? (later.map jobSnapshots) id = some (jobSnapshots job) :=
    h.find?_eq_some hmap
  rw [Tables.find?_map jobSnapshots fun _ => rfl] at hlater
  exact Option.map_eq_some_iff.mp hlater

/-- An entry of a domain and the same entry later. -/
structure EntryKept (entry later : LeaseRow × Job) : Prop where
  grant : grantOf later = grantOf entry
  active : isActive later = true → isActive entry = true

theorem onDomain_kept {platform : Platform} {jobs later : List Job}
    (h : jobs.map jobSnapshots <+: later.map jobSnapshots) (domain : String) {row row' : LeaseRow}
    (hkept : LeaseKept row row') (hjob : ∃ job, find? jobs row.lease.jobId = some job) :
    Option.Rel EntryKept (onDomain platform jobs domain row) (onDomain platform later domain row') := by
  obtain ⟨job, hfind⟩ := hjob
  obtain ⟨job', hfind', hsame⟩ := find?_snapshots h hfind
  simp only [onDomain, hkept.jobId, hfind, hfind', Option.filter_some, webDomainKey_eq hsame]
  by_cases hdomain : webDomainKey platform job = some domain
  · simp only [hdomain, decide_true, if_true, Option.map_some]
    refine .some ⟨?_, fun hactive => ?_⟩
    · simp only [grantOf, hkept.acquiredAt, rateLimit_eq hsame]
    · exact decide_eq_true (hkept.active (of_decide_eq_true hactive))
  · simp only [hdomain, decide_false, Bool.false_eq_true, if_false, Option.map_none]
    exact .none

theorem find?_of_lease {db : Database} (hc : Coherent (view db)) {row : LeaseRow}
    (hrow : row ∈ db.leases) : ∃ job, find? db.jobs row.lease.jobId = some job := by
  obtain ⟨j, hj, hid, -⟩ := hc.jobOfLease _ (mem_view_lease hrow)
  obtain ⟨job, hjob, rfl⟩ := List.mem_map.mp hj
  have hid : job.id = row.lease.jobId := hid
  exact ⟨job, hid ▸ (jobKeys_of_coherent hc).find?_of_mem hjob⟩

theorem leasesOnDomain_kept (platform : Platform) {db db' : Database} (hc : Coherent (view db))
    (h : Retains db db') (domain : String) :
    List.Forall₂ EntryKept (leasesOnDomain platform db domain)
      (leasesOnDomain platform db' domain) := by
  have hrows : List.Forall₂ (fun row row' => (∃ job, find? db.jobs row.lease.jobId = some job) ∧
      LeaseKept row row') db.leases db'.leases :=
    (List.forall₂_and_left _ _).mpr ⟨fun _ hrow => find?_of_lease hc hrow, h.leases⟩
  exact List.rel_filterMap (fun _ _ hrow => onDomain_kept h.jobs domain hrow.2 hrow.1) hrows

theorem grants_kept {entries later : List (LeaseRow × Job)}
    (h : List.Forall₂ EntryKept entries later) : later.map grantOf = entries.map grantOf := by
  induction h with
  | nil => rfl
  | cons hkept _ ih => rw [List.map_cons, List.map_cons, hkept.grant, ih]

theorem active_kept {entries later : List (LeaseRow × Job)}
    (h : List.Forall₂ EntryKept entries later) : later.countP isActive ≤ entries.countP isActive := by
  induction h with
  | nil => exact Nat.le_refl _
  | @cons entry entry' _ _ hkept _ ih =>
    rw [List.countP_cons, List.countP_cons]
    by_cases hactive : isActive entry' = true
    · rw [if_pos hactive, if_pos (hkept.active hactive)]
      omega
    · rw [if_neg hactive]
      omega

theorem Governed.retained {platform : Platform} {options : WorkerProtocolOptions}
    {db db' : Database} {domain : String} (hc : Coherent (view db)) (hretains : Retains db db')
    (h : Governed platform options db domain) : Governed platform options db' domain := by
  have hkept := leasesOnDomain_kept platform hc hretains domain
  refine ⟨(active_kept hkept).trans h.active, ?_⟩
  rw [grants, grants_kept hkept]
  exact h.admitted

/-! ### The quota -/

theorem governedDomain_eq_some {platform : Platform} {job : Job} {domain : String} (hne : domain ≠ "") :
    governedDomain platform job = some domain ↔ webDomainKey platform job = some domain := by
  rw [governedDomain, Option.filter_eq_some_iff]
  simp [hne]

/-- A lease as the state of the quota counts it. -/
def counted (now : Timestamp) (domain : String) (entry : LeaseRow × Job) : WebDomainLease where
  domain := domain
  active := isActive entry
  recent := decide (now - 60000 ≤ entry.1.lease.acquiredAt)
  rateLimit := rateLimit entry.2

/-- Whether the quota reads a lease: it is active, or was acquired in the last minute. -/
def counts (now : Timestamp) (row : LeaseRow) : Bool :=
  decide (row.lease.status = .active) || decide (now - 60000 ≤ row.lease.acquiredAt)

def withJob (jobs : List Job) (row : LeaseRow) : Option (LeaseRow × Job) :=
  (find? jobs row.lease.jobId).map fun job => (row, job)

def charged (platform : Platform) (now : Timestamp) (entry : LeaseRow × Job) :
    Option WebDomainLease :=
  (governedDomain platform entry.2).map fun domain => counted now domain entry

theorem filter_charged (platform : Platform) (jobs : List Job) (now : Timestamp) {domain : String}
    (hne : domain ≠ "") (leases : List LeaseRow) :
    ((((leases.filter (counts now)).filterMap (withJob jobs)).filterMap (charged platform now)).filter
        fun lease => decide (lease.domain = domain)) =
      ((leases.filterMap (onDomain platform jobs domain)).filter fun entry =>
        counts now entry.1).map (counted now domain) := by
  induction leases with
  | nil => rfl
  | cons row leases ih =>
    rw [List.filter_cons]
    cases hfind : find? jobs row.lease.jobId with
    | none =>
      have hon : onDomain platform jobs domain row = none := by simp [onDomain, hfind]
      have hjoin : withJob jobs row = none := by rw [withJob, hfind, Option.map_none]
      rw [List.filterMap_cons_none hon, ← ih]
      split
      · rw [List.filterMap_cons_none hjoin]
      · rfl
    | some job =>
      have hjoin : withJob jobs row = some (row, job) := by rw [withJob, hfind, Option.map_some]
      by_cases hdomain : webDomainKey platform job = some domain
      · have hgoverned := (governedDomain_eq_some hne).mpr hdomain
        have hon : onDomain platform jobs domain row = some (row, job) := by
          simp [onDomain, hfind, hdomain]
        have hcharged : charged platform now (row, job) = some (counted now domain (row, job)) := by
          rw [charged, hgoverned, Option.map_some]
        rw [List.filterMap_cons_some hon, List.filter_cons (x := (row, job))]
        split
        · rw [List.filterMap_cons_some hjoin, List.filterMap_cons_some hcharged,
            List.filter_cons_of_pos (by simp [counted]), List.map_cons, ih]
        · exact ih
      · have hon : onDomain platform jobs domain row = none := by simp [onDomain, hfind, hdomain]
        rw [List.filterMap_cons_none hon, ← ih]
        split
        · rw [List.filterMap_cons_some hjoin]
          cases hgoverned : governedDomain platform job with
          | none =>
            have hcharged : charged platform now (row, job) = none := by
              rw [charged, hgoverned, Option.map_none]
            rw [List.filterMap_cons_none hcharged]
          | some other =>
            have hother : other ≠ domain := by
              rintro rfl
              exact hdomain ((governedDomain_eq_some hne).mp hgoverned)
            have hcharged : charged platform now (row, job) =
                some (counted now other (row, job)) := by
              rw [charged, hgoverned, Option.map_some]
            rw [List.filterMap_cons_some hcharged,
              List.filter_cons_of_neg (by simp [counted, hother])]
        · rfl

/-- The state the quota reads, for a domain that is governed. -/
theorem webDomainLeaseState_spec {platform : Platform} {db : Database} {now : Timestamp}
    {state : List WebDomainLease} (h : webDomainLeaseState platform db now = .ok state)
    {domain : String} (hne : domain ≠ "") :
    (state.filter fun lease => decide (lease.domain = domain)) =
      ((leasesOnDomain platform db domain).filter fun entry => counts now entry.1).map
        (counted now domain) := by
  simp only [webDomainLeaseState, bind_eq_ok, pure_eq_ok] at h
  obtain ⟨leased, hleased, rfl⟩ := h
  rw [mapM_guarded (c := fun entry : LeaseRow × Job => isJob entry.2 = true) (g := id)
    (by rintro ⟨row, job⟩ y; simp)] at hleased
  obtain ⟨-, rfl⟩ := hleased
  rw [List.map_id]
  exact filter_charged platform db.jobs now hne db.leases

theorem foldl_min_le (leases : List WebDomainLease) (limit : Nat) :
    leases.foldl (fun limit lease => min limit lease.rateLimit) limit ≤ limit ∧
      ∀ lease ∈ leases,
        leases.foldl (fun limit lease => min limit lease.rateLimit) limit ≤ lease.rateLimit := by
  induction leases generalizing limit with
  | nil => exact ⟨Nat.le_refl _, fun _ h => absurd h List.not_mem_nil⟩
  | cons lease leases ih =>
    obtain ⟨hlimit, hrest⟩ := ih (min limit lease.rateLimit)
    rw [List.foldl_cons, List.forall_mem_cons]
    exact ⟨hlimit.trans (Nat.min_le_left _ _), hlimit.trans (Nat.min_le_right _ _), hrest⟩

/-- What the quota checked of the leases on the domain: there is room for one more active lease, and
    the recent grants are fewer than each of their limits and that of the job. -/
structure Admits (options : WorkerProtocolOptions) (job : Job) (now : Timestamp)
    (entries : List (LeaseRow × Job)) : Prop where
  active : entries.countP isActive < options.maxConcurrentWebLeasesPerDomain
  own : (recent (now - 60000) (entries.map grantOf)).length < rateLimit job
  others : ∀ g ∈ recent (now - 60000) (entries.map grantOf),
    (recent (now - 60000) (entries.map grantOf)).length < g.limit

/-- The grants the quota counts as recent. -/
theorem countP_recent (now : Timestamp) (domain : String) (entries : List (LeaseRow × Job)) :
    ((entries.filter fun entry => counts now entry.1).map (counted now domain)).countP (·.recent) =
      (recent (now - 60000) (entries.map grantOf)).length := by
  rw [recent, ← List.countP_eq_length_filter, List.countP_map, List.countP_map, List.countP_filter]
  refine List.countP_congr fun entry _ => ?_
  constructor
  · intro h
    rw [Bool.and_eq_true] at h
    exact decide_eq_true (of_decide_eq_true h.1)
  · intro h
    have hrecent := of_decide_eq_true h
    have hcounts : counts now entry.1 = true := by
      rw [counts, Bool.or_eq_true]
      exact Or.inr (decide_eq_true hrecent)
    rw [Bool.and_eq_true]
    exact ⟨decide_eq_true hrecent, hcounts⟩

theorem countP_active (now : Timestamp) (domain : String) (entries : List (LeaseRow × Job)) :
    ((entries.filter fun entry => counts now entry.1).map (counted now domain)).countP (·.active) =
      entries.countP isActive := by
  rw [List.countP_map, List.countP_filter]
  refine List.countP_congr fun entry _ => ?_
  by_cases h : entry.1.lease.status = .active <;> simp [counted, counts, isActive, h]

/-- The limit of a recent grant is one of those the quota takes the minimum of. -/
theorem limit_of_recent {now : Timestamp} {domain : String} {entries : List (LeaseRow × Job)}
    {g : Grant Timestamp} (hg : g ∈ recent (now - 60000) (entries.map grantOf)) :
    ∃ lease ∈ (entries.filter fun entry => counts now entry.1).map (counted now domain),
      lease.rateLimit = g.limit := by
  obtain ⟨hmem, hrecent⟩ := List.mem_filter.mp hg
  obtain ⟨entry, hentry, rfl⟩ := List.mem_map.mp hmem
  have hcounts : counts now entry.1 = true := by
    rw [counts, Bool.or_eq_true]
    exact Or.inr (decide_eq_true (of_decide_eq_true hrecent))
  exact ⟨_, List.mem_map_of_mem (List.mem_filter.mpr ⟨hentry, hcounts⟩), rfl⟩

theorem rateLimit_pos {job : Job} (h : isJob job = true) : 0 < rateLimit job := by
  have hplan : isCollectionPlan job.planSnapshot = true := by
    simp only [isJob, Bool.and_eq_true] at h
    tauto
  simp only [isCollectionPlan, Bool.and_eq_true, decide_eq_true_eq] at hplan
  exact hplan.1.1.1.1.1.2

theorem admits_of_quota {platform : Platform} {options : WorkerProtocolOptions} {db : Database}
    {job : Job} {now : Timestamp} {state : List WebDomainLease} {domain : String}
    (hvalid : isJob job = true) (hstate : webDomainLeaseState platform db now = .ok state)
    (hquota : webDomainQuotaAllows platform options job state = true) (hne : domain ≠ "")
    (hdomain : webDomainKey platform job = some domain) :
    Admits options job now (leasesOnDomain platform db domain) := by
  have hgoverned := (governedDomain_eq_some hne).mpr hdomain
  simp only [webDomainQuotaAllows, hgoverned, webDomainLeaseState_spec hstate hne] at hquota
  have hactive := countP_active now domain (leasesOnDomain platform db domain)
  have hrecent := countP_recent now domain (leasesOnDomain platform db domain)
  have hlimit := @limit_of_recent now domain (leasesOnDomain platform db domain)
  generalize ((leasesOnDomain platform db domain).filter fun entry => counts now entry.1).map
    (counted now domain) = current at hquota hactive hrecent hlimit
  split at hquota
  · rename_i hempty
    rw [List.isEmpty_iff] at hempty
    subst hempty
    refine ⟨?_, ?_, fun g hg => ?_⟩
    · rw [← hactive]
      exact options.concurrencyBounded.1
    · rw [← hrecent]
      exact rateLimit_pos hvalid
    · obtain ⟨lease, hlease, -⟩ := hlimit hg
      cases hlease
  · rw [Bool.and_eq_true, decide_eq_true_eq, decide_eq_true_eq, hactive, hrecent] at hquota
    obtain ⟨hroom, hrate⟩ := hquota
    obtain ⟨hown, hothers⟩ := foldl_min_le current (rateLimit job)
    refine ⟨hroom, hrate.trans_le hown, fun g hg => ?_⟩
    obtain ⟨lease, hlease, heq⟩ := hlimit hg
    exact heq ▸ hrate.trans_le (hothers lease hlease)

/-! ### Claims -/

/-- A grant adds one entry to the domain of its job and none to any other. -/
theorem leasesOnDomain_granted {platform : Platform} {options : WorkerProtocolOptions}
    {inputs : ClaimInputs} {worker : WorkerDefinition} {job : Job} {state : List WebDomainLease}
    {db db' : Database} (hc : Coherent (view db))
    (h : Granted platform options inputs worker job state db db') (domain : String) :
    ∃ entries, List.Forall₂ EntryKept (leasesOnDomain platform db domain) entries ∧
      if webDomainKey platform job = some domain then
        ∃ entry, grantOf entry = ⟨inputs.now, rateLimit job⟩ ∧
          leasesOnDomain platform db' domain = entries ++ [entry]
      else leasesOnDomain platform db' domain = entries := by
  let leased : Job := { job with status := .leased, updatedAt := inputs.now }
  let row : LeaseRow :=
    ⟨newLease options worker job inputs, platform.digestHex inputs.leaseToken⟩
  have hsame : jobSnapshots leased = jobSnapshots job := rfl
  have hretains : Retains db { db with jobs := Tables.update db.jobs leased } :=
    .of_updates rfl (snapshots_update (jobKeys_of_coherent hc) h.stored _ hsame) (leases_refl _)
  have hkept := leasesOnDomain_kept platform hc hretains domain
  have hfind : find? (Tables.update db.jobs leased) row.lease.jobId = some leased :=
    Tables.find?_update_self ⟨job, h.stored, rfl⟩
  refine ⟨_, hkept, ?_⟩
  rw [h.granted]
  simp only [leasesOnDomain, List.filterMap_append, List.filterMap_cons, List.filterMap_nil]
  split
  · rename_i hdomain
    have hon : onDomain platform (Tables.update db.jobs leased) domain row = some (row, leased) := by
      simp [onDomain, hfind, webDomainKey_eq hsame, hdomain]
    refine ⟨(row, leased), rfl, ?_⟩
    rw [hon]
  · rename_i hdomain
    have hon : onDomain platform (Tables.update db.jobs leased) domain row = none := by
      simp [onDomain, hfind, webDomainKey_eq hsame, hdomain]
    rw [hon, List.append_nil]

theorem Governed.granted {platform : Platform} {options : WorkerProtocolOptions}
    {inputs : ClaimInputs} {worker : WorkerDefinition} {job : Job} {state : List WebDomainLease}
    {db db' : Database} {domain : String} (hc : Coherent (view db)) (hne : domain ≠ "")
    (hclock : ∀ row ∈ db.leases, row.lease.acquiredAt ≤ inputs.now)
    (hgranted : Granted platform options inputs worker job state db db')
    (h : Governed platform options db domain) : Governed platform options db' domain := by
  obtain ⟨entries, hkept, hentries⟩ := leasesOnDomain_granted hc hgranted domain
  have hactive := active_kept hkept
  have hgrants := grants_kept hkept
  split at hentries
  · rename_i hdomain
    obtain ⟨entry, hentry, hleases⟩ := hentries
    obtain ⟨hroom, hown, hothers⟩ :=
      admits_of_quota hgranted.valid hgranted.observed hgranted.quota hne hdomain
    constructor
    · have hone : [entry].countP isActive ≤ 1 := List.countP_le_length
      rw [hleases, List.countP_append]
      omega
    · rw [grants, hleases, List.map_append, hgrants, List.map_singleton, hentry]
      refine .grant h.admitted (fun g hg => ?_) fun g hg => ?_
      · obtain ⟨kept, hkept, rfl⟩ := List.mem_map.mp hg
        obtain ⟨row, hrow, hon⟩ := List.mem_filterMap.mp hkept
        obtain ⟨_, -, rfl⟩ := Option.map_eq_some_iff.mp hon
        exact hclock row hrow
      · rcases List.mem_cons.mp hg with rfl | hg
        · exact hown
        · exact hothers g hg
  · rw [← hentries] at hactive hgrants
    exact ⟨hactive.trans h.active, by rw [grants, hgrants]; exact h.admitted⟩

/-! ### Every run -/

section Run

variable (platform : Platform) (options : WorkerProtocolOptions)

theorem acquiredAt_retained {db db' : Database} {t : Timestamp} (h : Retains db db')
    (hdb : ∀ row ∈ db.leases, row.lease.acquiredAt ≤ t) :
    ∀ row ∈ db'.leases, row.lease.acquiredAt ≤ t := by
  have hleases := h.leases
  generalize db.leases = leases at hleases hdb
  generalize db'.leases = later at hleases
  induction hleases with
  | nil => exact fun _ h => absurd h List.not_mem_nil
  | cons hkept _ ih =>
    rw [List.forall_mem_cons] at hdb ⊢
    exact ⟨hkept.acquiredAt ▸ hdb.1, ih hdb.2⟩

/-- The clock readings of the claims of a run. -/
def claimedAt (ops : List Op) : List Timestamp :=
  ops.filterMap fun op => op.claims.map ClaimInputs.now

theorem governed_runFrom {domain : String} (hne : domain ≠ "") {ops : List Op} {db : Database}
    (hc : Coherent (view db)) (hclock : ∀ t ∈ claimedAt ops, ∀ row ∈ db.leases, row.lease.acquiredAt ≤ t)
    (hmono : (claimedAt ops).Pairwise (· ≤ ·)) (h : Governed platform options db domain) :
    Governed platform options ((machine platform options).runFrom db ops) domain := by
  induction ops generalizing db with
  | nil => exact h
  | cons op ops ih =>
    have hcoherent : Coherent (view (step platform options db op)) :=
      coherent_of_steps hc (steps_of_step platform options hc op)
    cases hop : op.claims with
    | none =>
      have hrest : claimedAt (op :: ops) = claimedAt ops := by simp [claimedAt, hop]
      rw [hrest] at hclock hmono
      have hretains := retains_step platform options hc hop
      exact ih hcoherent (fun t ht => acquiredAt_retained hretains (hclock t ht)) hmono
        (h.retained hc hretains)
    | some inputs =>
      have hrest : claimedAt (op :: ops) = inputs.now :: claimedAt ops := by simp [claimedAt, hop]
      rw [hrest, List.forall_mem_cons] at hclock
      rw [hrest, List.pairwise_cons] at hmono
      obtain ⟨reaped, hretains, hreaped, hstep⟩ := claimed_step platform options hc hop
      have hnow := acquiredAt_retained hretains hclock.1
      have hlater : ∀ t ∈ claimedAt ops, ∀ row ∈ reaped.leases, row.lease.acquiredAt ≤ t :=
        fun t ht => acquiredAt_retained hretains (hclock.2 t ht)
      have hgoverned := h.retained hc hretains
      change Governed platform options
        ((machine platform options).runFrom (step platform options db op) ops) domain
      generalize step platform options db op = next at hcoherent hstep ⊢
      rcases hstep with rfl | ⟨worker, job, state, hgranted⟩
      · exact ih hcoherent hlater hmono.2 hgoverned
      · refine ih hcoherent (fun t ht => ?_) hmono.2 (hgoverned.granted hreaped hne hnow hgranted)
        rw [hgranted.granted]
        intro row hrow
        rcases List.mem_append.mp hrow with hrow | hrow
        · exact hlater t ht row hrow
        · rw [List.mem_singleton.mp hrow]
          exact hmono.1 t ht

theorem governed_run {domain : String} (hne : domain ≠ "") {ops : List Op}
    (hmono : (claimedAt ops).Pairwise (· ≤ ·)) :
    Governed platform options ((machine platform options).run ops) domain := by
  have hleases : leasesOnDomain platform Database.empty domain = [] := rfl
  have hempty : Governed platform options Database.empty domain := by
    constructor
    · rw [hleases]
      exact Nat.zero_le _
    · rw [grants, hleases]
      exact .nil
  have hcoherent : Coherent (view Database.empty) := Protocol.coherent_empty
  have hnone : ∀ t ∈ claimedAt ops, ∀ row ∈ Database.empty.leases, row.lease.acquiredAt ≤ t := by
    intro t _ row hrow
    cases hrow
  exact governed_runFrom platform options hne hcoherent hnone hmono hempty

end Run

/-- Under a clock that never goes back from one claim to the next, the active leases on a web domain
    never exceed the limit of the registry, and no closed minute holds more grants on it than the
    rate limit of any job leased in it, provided the domain key is not empty. -/
theorem web_domains_governed {platform : Platform} {options : WorkerProtocolOptions} (ops : List Op)
    (hclock : (claimedAt ops).Pairwise (· ≤ ·)) :
    let db := (machine platform options).run ops
    ∀ domain ≠ "",
      ((leasesOnDomain platform db domain).filter isActive).length ≤
        options.maxConcurrentWebLeasesPerDomain ∧
      ∀ first last, last ≤ first + 60000 →
        ∀ entry ∈ (leasesOnDomain platform db domain).filter (acquiredWithin first last),
          ((leasesOnDomain platform db domain).filter (acquiredWithin first last)).length ≤
            entry.2.planSnapshot.policy.rateLimitPerMinute := by
  intro db domain hne
  obtain ⟨hactive, hadmitted⟩ := governed_run platform options hne hclock
  constructor
  · rw [← List.countP_eq_length_filter]
    exact hactive
  · intro first last hwidth entry hentry
    have hwithin : within first last (grants platform db domain) =
        ((leasesOnDomain platform db domain).filter (acquiredWithin first last)).map grantOf := by
      rw [within, grants, List.filter_map]
      rfl
    have hbound := hadmitted.window hwidth (grantOf entry)
    rw [hwithin, List.length_map] at hbound
    exact hbound (List.mem_map_of_mem hentry)

/-! ### An empty key -/

/-- The URL parser on the two sources of the concrete runs. -/
def sampleParseUrl (uri : String) : Option (String × String) :=
  if uri = "https://a.test/" then some ("https:", "a.test")
  else if uri = "http://www./" then some ("http:", "www.")
  else none

/-- Both jobs of a source on the host `www.`, whose domain key is empty, are leased at once, where
    the registry allows one lease on a domain. -/
theorem empty_domain_ungoverned :
    (claimedAt (twoJobs "http://www./" ++ [claimAt 1 1, claimAt 2 2])).Pairwise (· ≤ ·) ∧
    ¬ ((leasesOnDomain (samplePlatform sampleParseUrl)
          ((machine (samplePlatform sampleParseUrl) .default).run
            (twoJobs "http://www./" ++ [claimAt 1 1, claimAt 2 2])) "").filter isActive).length ≤
        WorkerProtocolOptions.default.maxConcurrentWebLeasesPerDomain := by
  constructor
  · decide
  · decide

/-- The same claims on a named host lease one job only. -/
theorem named_domain_governed :
    ((leasesOnDomain (samplePlatform sampleParseUrl)
        ((machine (samplePlatform sampleParseUrl) .default).run
          (twoJobs "https://a.test/" ++ [claimAt 1 1, claimAt 2 2])) "a.test").filter
            isActive).length ≤ 1 :=
  (web_domains_governed (twoJobs "https://a.test/" ++ [claimAt 1 1, claimAt 2 2]) (by decide)
    "a.test" (by decide)).1

end MarkorbitKnowledge.Execution

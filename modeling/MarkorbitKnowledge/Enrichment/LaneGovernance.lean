import MarkorbitKnowledge.Enrichment.QueueRows

/-!
# The lane of a workspace

`claimNextGoverned` gives out requests at a minimal distance and, for each budget window, up to a
maximum.  The lane remembers the last request and the window of that request only, with its count: a
window that comes back after another one starts from zero.  The distance is measured on the texts of
the instants, which follow the instants while the years have four digits.
-/

namespace MarkorbitKnowledge.Enrichment

open Contracts Fallible Tables
open Execution (RegistryError)

/-- A governed claim of a workspace that was answered with `CLAIMED`. -/
structure GovernedClaim where
  budgetWindowKey : String
  claimedAt : Timestamp
deriving DecidableEq

/-- What a call adds to the log of the claims of a workspace. -/
def newClaims (workspaceId : Id) (s : QueueState) : QueueCall → List GovernedClaim
  | .claimNextGoverned input =>
    match claimNextGoverned input s with
    | .ok (.claimed _ budgetWindowKey _, _) =>
      if input.workspaceId = workspaceId then [{ budgetWindowKey, claimedAt := input.now }] else []
    | _ => []
  | _ => []

/-- The queue together with the log of the claims of a workspace, the latest one first. -/
structure GovernedState where
  queue : QueueState
  log : List GovernedClaim

def governed (workspaceId : Id) : Transitions.Machine GovernedState QueueCall where
  init := { queue := queue.init, log := [] }
  step s call :=
    { queue := call.perform s.queue, log := newClaims workspaceId s.queue call ++ s.log }

/-! ### A governed claim -/

/-- What the lane says when a request is given out. -/
@[mk_iff] structure Granted (input : ClaimGovernedCnipaDetailInput) (lane : Option LaneRow)
    (now : Timestamp) : Prop where
  paced : ∀ lastRequestAt ∈ lane.bind (·.lastRequestAt), 0 < input.minIntervalMs →
    ¬isoOrder now < isoOrder (lastRequestAt + input.minIntervalMs)
  budget : (windowRequests lane (trim input.budgetWindowKey) : Int) < input.maxRequestsPerBudgetWindow

/-- The lane lets the request of a claim through, and there is a document for it. -/
@[mk_iff] structure GivesOut (s : QueueState) (input : ClaimGovernedCnipaDetailInput) : Prop where
  granted : Granted input (find? s.lanes input.workspaceId) input.now
  document : (nextCandidate input.workspaceId input.now
    (reclaimExpired input.workspaceId input.now s.rows)).isSome = true

/-- The lane after a request was given out. -/
def grantedLane (input : ClaimGovernedCnipaDetailInput) (lane : Option LaneRow) : LaneRow where
  workspaceId := input.workspaceId
  budgetWindowKey := trim input.budgetWindowKey
  requestCount := windowRequests lane (trim input.budgetWindowKey) + 1
  lastRequestAt := some input.now
  updatedAt := input.now

theorem nextEligible_eq_ok {lane : Option LaneRow} {minIntervalMs : Int} {next : Option Timestamp}
    (h : nextEligible lane minIntervalMs = .ok next) :
    ∀ lastRequestAt ∈ lane.bind (·.lastRequestAt), 0 < minIntervalMs →
      next = some (lastRequestAt + minIntervalMs) := by
  intro lastRequestAt hlast hpositive
  rw [Option.mem_def] at hlast
  simp only [nextEligible, hlast, if_pos hpositive, map_eq_ok, shifted_eq_ok] at h
  obtain ⟨_, ⟨-, rfl⟩, rfl⟩ := h
  rfl

/-- A governed claim is granted, and the lane remembers it, or it leaves the lanes alone and leases no
    row. -/
theorem claimNextGoverned_lanes {input : ClaimGovernedCnipaDetailInput} {s s' : QueueState}
    {result : ClaimGovernedCnipaDetailResult} (h : claimNextGoverned input s = .ok (result, s')) :
    (∃ record, result = .claimed record (trim input.budgetWindowKey)
        (windowRequests (find? s.lanes input.workspaceId) (trim input.budgetWindowKey) + 1) ∧
      GivesOut s input ∧
      s'.lanes = upsertLane s.lanes (grantedLane input (find? s.lanes input.workspaceId))) ∨
    result.record = none ∧ s'.lanes = s.lanes ∧
      s'.rows = reclaimExpired input.workspaceId input.now s.rows := by
  simp only [claimNextGoverned, bind_eq_ok, required_eq_ok, timestamp_eq_ok, require_eq_ok,
    shifted_eq_ok, positiveIntegerBounded, nonNegativeIntegerBounded] at h
  obtain ⟨_, -, _, -, _, ⟨-, rfl⟩, _, -, _, ⟨-, rfl⟩, _, -, _, -, _, -, _, ⟨-, rfl⟩, next, hnext, h⟩ := h
  split at h
  · simp only [pure_eq_ok, Prod.mk.injEq] at h
    obtain ⟨rfl, rfl⟩ := h
    exact Or.inr ⟨rfl, rfl, rfl⟩
  · rename_i hpaced
    split at h
    · simp only [pure_eq_ok, Prod.mk.injEq] at h
      obtain ⟨rfl, rfl⟩ := h
      exact Or.inr ⟨rfl, rfl, rfl⟩
    · rename_i hbudget
      split at h
      · simp only [pure_eq_ok, Prod.mk.injEq] at h
        obtain ⟨rfl, rfl⟩ := h
        exact Or.inr ⟨rfl, rfl, rfl⟩
      · simp only [pure_eq_ok, Prod.mk.injEq] at h
        obtain ⟨rfl, rfl⟩ := h
        rename_i hcandidate
        refine Or.inl ⟨_, rfl, ⟨⟨?_, Int.not_le.mp hbudget⟩, by rw [hcandidate]; rfl⟩, rfl⟩
        intro lastRequestAt hlast hpositive hblocked
        rw [nextEligible_eq_ok hnext lastRequestAt hlast hpositive] at hpaced
        exact hpaced (by simpa using hblocked)

/-- Without a granted request no row is leased and the lanes stay. -/
def LeasesNothing (s s' : QueueState) : Prop :=
  s'.lanes = s.lanes ∧ ∀ row ∈ s'.rows, row.lifecycle = .leased → row ∈ s.rows

theorem leasesNothing_of_not_claimed {s : QueueState} {input : ClaimGovernedCnipaDetailInput}
    (h : ∀ record budgetWindowKey requestCount s', claimNextGoverned input s ≠
      .ok (.claimed record budgetWindowKey requestCount, s')) :
    LeasesNothing s (queue.step s (.claimNextGoverned input)) := by
  refine commit_rel (R := LeasesNothing) ⟨rfl, fun row hrow _ => hrow⟩ ?_
  intro result s' hok
  rcases claimNextGoverned_lanes hok with ⟨record, rfl, -⟩ | ⟨-, hlanes, hrows⟩
  · exact absurd hok (h _ _ _ _)
  · refine ⟨hlanes, ?_⟩
    intro row hrow hleased
    rw [hrows] at hrow
    obtain ⟨stored, hstored, rfl⟩ := List.mem_map.mp hrow
    unfold reclaimedRow at hleased ⊢
    split at hleased
    · cases hleased
    · rename_i hkept
      rw [if_neg hkept]
      exact hstored

/-! ### The lanes of other calls -/

theorem find?_upsertLane {lanes : List LaneRow} {lane : LaneRow} {workspaceId : Id} :
    find? (upsertLane lanes lane) workspaceId =
      if lane.workspaceId = workspaceId then some lane else find? lanes workspaceId := by
  unfold upsertLane
  by_cases hworkspace : lane.workspaceId = workspaceId
  · subst hworkspace
    rw [if_pos rfl]
    split
    · rename_i hsome
      obtain ⟨stored, hstored⟩ := Option.isSome_iff_exists.mp hsome
      exact find?_update_self ⟨stored, mem_of_find? hstored, key_of_find? hstored⟩
    · rename_i hnone
      rw [find?_append_singleton, Option.not_isSome_iff_eq_none.mp hnone]
      simp
  · rw [if_neg hworkspace]
    split
    · exact find?_update_of_ne (Ne.symm hworkspace)
    · rw [find?_append_singleton, key_laneRow, if_neg hworkspace, Option.or_none]

def KeepsLane (workspaceId : Id) (s s' : QueueState) : Prop :=
  find? s'.lanes workspaceId = find? s.lanes workspaceId

theorem keepsLane_perform (workspaceId : Id) (s : QueueState) {call : QueueCall}
    (h : ∀ input, call ≠ .claimNextGoverned input) :
    KeepsLane workspaceId s (call.perform s) := by
  have hstay : KeepsLane workspaceId s s := rfl
  cases call with
  | claimNextGoverned input => exact absurd rfl (h input)
  | admitDetailPointer input now =>
    refine commit_rel (R := KeepsLane workspaceId) hstay ?_
    intro row s' hok
    obtain ⟨-, -, -, ⟨_, -, -, -, rfl⟩ | ⟨-, -, rfl⟩⟩ := admit_eq_ok hok
    · exact hstay
    · exact hstay
  | claimNext input =>
    refine commit_rel (R := KeepsLane workspaceId) hstay ?_
    intro row s' hok
    rw [KeepsLane, (claimNext_eq_ok hok).2.1]
  | persistAttemptTransition input now =>
    refine commit_rel (R := KeepsLane workspaceId) hstay ?_
    intro row s' hok
    obtain ⟨_, -, -, -, -, rfl⟩ := persistAttemptTransition_eq_ok.mp hok
    exact hstay
  | releaseAuthSecurityHold input now =>
    refine commit_rel (R := KeepsLane workspaceId) hstay ?_
    intro row s' hok
    obtain ⟨_, -, -, -, -, rfl⟩ := releaseAuthSecurityHold_eq_ok hok
    exact hstay
  | setWorkspaces workspaces => exact hstay

/-- A call gives out a request of the workspace, and its lane remembers it, or the lane stays. -/
theorem step_lane (workspaceId : Id) (s : QueueState) (call : QueueCall) :
    (∃ input, call = .claimNextGoverned input ∧ input.workspaceId = workspaceId ∧
      GivesOut s input ∧
      newClaims workspaceId s call =
        [{ budgetWindowKey := trim input.budgetWindowKey, claimedAt := input.now }] ∧
      find? (call.perform s).lanes workspaceId =
        some (grantedLane input (find? s.lanes workspaceId))) ∨
    newClaims workspaceId s call = [] ∧
      find? (call.perform s).lanes workspaceId = find? s.lanes workspaceId := by
  cases call with
  | claimNextGoverned input =>
    cases hresult : claimNextGoverned input s with
    | error e =>
      right
      simp [newClaims, QueueCall.perform, commit_of_error hresult, hresult]
    | ok answer =>
      obtain ⟨result, s'⟩ := answer
      have hafter : (QueueCall.claimNextGoverned input).perform s = s' := by
        rw [QueueCall.perform, commit_of_ok hresult]
      rw [hafter]
      rcases claimNextGoverned_lanes hresult with ⟨record, rfl, hgranted, hlanes⟩ | ⟨hnone, hlanes, -⟩
      · rw [hlanes, find?_upsertLane]
        by_cases hworkspace : input.workspaceId = workspaceId
        · subst hworkspace
          exact Or.inl ⟨input, rfl, rfl, hgranted, by simp [newClaims, hresult], by simp [grantedLane]⟩
        · right
          simp [newClaims, hresult, grantedLane, hworkspace]
      · right
        rw [hlanes]
        cases result with
        | claimed record key count => cases hnone
        | pacingBlocked key count next => simp [newClaims, hresult]
        | budgetExhausted key count => simp [newClaims, hresult]
        | empty key count => simp [newClaims, hresult]
  | admitDetailPointer input now => exact Or.inr ⟨rfl, keepsLane_perform workspaceId s (by simp)⟩
  | claimNext input => exact Or.inr ⟨rfl, keepsLane_perform workspaceId s (by simp)⟩
  | persistAttemptTransition input now =>
    exact Or.inr ⟨rfl, keepsLane_perform workspaceId s (by simp)⟩
  | releaseAuthSecurityHold input now =>
    exact Or.inr ⟨rfl, keepsLane_perform workspaceId s (by simp)⟩
  | setWorkspaces workspaces => exact Or.inr ⟨rfl, rfl⟩

/-! ### Budget and pace over a run -/

/-- The governed claims of the workspace come with one policy and with a clock that does not go
    back. -/
def GovernedBy (workspaceId : Id) (maxRequests minIntervalMs : Nat) (s : GovernedState) :
    QueueCall → Prop
  | .claimNextGoverned input => input.workspaceId = workspaceId →
    input.maxRequestsPerBudgetWindow = maxRequests ∧ input.minIntervalMs = minIntervalMs ∧
      ∀ claim ∈ s.log, claim.claimedAt ≤ input.now
  | _ => True

/-- A claim that gives a request out does not take up a budget window again after a later one, and the
    texts of the current instant and of the next eligible one are in the order of the instants. -/
def KeepsWindow (workspaceId : Id) (s : GovernedState) : QueueCall → Prop
  | .claimNextGoverned input => input.workspaceId = workspaceId → GivesOut s.queue input →
    (∀ claim ∈ s.log, claim.budgetWindowKey = trim input.budgetWindowKey →
      ∀ last ∈ s.log.head?, last.budgetWindowKey = trim input.budgetWindowKey) ∧
    ∀ last ∈ s.log.head?,
      isoOrder input.now < isoOrder (last.claimedAt + input.minIntervalMs) ↔
        input.now < last.claimedAt + input.minIntervalMs
  | _ => True

def windowCount (log : List GovernedClaim) (budgetWindowKey : String) : Nat :=
  log.countP fun claim => claim.budgetWindowKey = budgetWindowKey

/-- The lane knows the last claim and how many were given for its window; no window is over its
    maximum, and the claims are apart. -/
@[mk_iff] structure LaneInv (workspaceId : Id) (maxRequests minIntervalMs : Nat)
    (s : GovernedState) : Prop where
  fresh : s.log = [] → find? s.queue.lanes workspaceId = none
  last : ∀ claim ∈ s.log.head?, ∃ lane, find? s.queue.lanes workspaceId = some lane ∧
    lane.budgetWindowKey = claim.budgetWindowKey ∧ lane.lastRequestAt = some claim.claimedAt ∧
    lane.requestCount = windowCount s.log claim.budgetWindowKey
  budget : ∀ budgetWindowKey, windowCount s.log budgetWindowKey ≤ maxRequests
  paced : s.log.Pairwise fun later earlier => earlier.claimedAt + (minIntervalMs : Int) ≤ later.claimedAt

/-- The requests the lane counts for a window are those in the log, if the window does not come
    back. -/
theorem LaneInv.windowRequests_eq {workspaceId : Id} {maxRequests minIntervalMs : Nat}
    {s : GovernedState} (h : LaneInv workspaceId maxRequests minIntervalMs s) {key : String}
    (hkeeps : ∀ claim ∈ s.log, claim.budgetWindowKey = key →
      ∀ last ∈ s.log.head?, last.budgetWindowKey = key) :
    windowRequests (find? s.queue.lanes workspaceId) key = windowCount s.log key := by
  cases hlog : s.log with
  | nil => simp [h.fresh hlog, windowRequests, windowCount]
  | cons last earlier =>
    obtain ⟨lane, hlane, hkey, -, hcount⟩ := h.last last (by simp [hlog])
    rw [hlane, windowRequests]
    by_cases hsame : last.budgetWindowKey = key
    · rw [if_pos (hkey.trans hsame), hcount, hsame, hlog]
    · rw [if_neg (hkey ▸ hsame), eq_comm, windowCount, List.countP_eq_zero, ← hlog]
      intro claim hclaim
      simp only [decide_eq_true_eq]
      intro hclaimKey
      exact hsame (hkeeps claim hclaim hclaimKey last (by simp [hlog]))

theorem windowCount_cons (claim : GovernedClaim) (log : List GovernedClaim) (key : String) :
    windowCount (claim :: log) key =
      windowCount log key + if claim.budgetWindowKey = key then 1 else 0 := by
  by_cases h : claim.budgetWindowKey = key <;> simp [windowCount, h]

/-- A granted request is later than every claim before it, by the interval. -/
theorem LaneInv.claimedAt_le {workspaceId : Id} {maxRequests minIntervalMs : Nat} {s : GovernedState}
    (h : LaneInv workspaceId maxRequests minIntervalMs s) {input : ClaimGovernedCnipaDetailInput}
    (hinterval : input.minIntervalMs = minIntervalMs)
    (hclock : ∀ claim ∈ s.log, claim.claimedAt ≤ input.now)
    (hgranted : Granted input (find? s.queue.lanes workspaceId) input.now)
    (htexts : ∀ last ∈ s.log.head?,
      isoOrder input.now < isoOrder (last.claimedAt + input.minIntervalMs) ↔
        input.now < last.claimedAt + input.minIntervalMs) :
    ∀ claim ∈ s.log, claim.claimedAt + (minIntervalMs : Int) ≤ input.now := by
  cases hlog : s.log with
  | nil => simp
  | cons last earlier =>
    obtain ⟨lane, hlane, -, hlast, -⟩ := h.last last (by simp [hlog])
    have hnow : last.claimedAt + (minIntervalMs : Int) ≤ input.now := by
      by_cases hpositive : 0 < input.minIntervalMs
      · have hpaced := hgranted.paced last.claimedAt (by simp [hlane, hlast]) hpositive
        rw [htexts last (by simp [hlog]), hinterval] at hpaced
        exact Int.not_lt.mp hpaced
      · have hzero : (minIntervalMs : Int) = 0 := by omega
        rw [hzero, Int.add_zero]
        exact hclock last (by simp [hlog])
    have hpairwise := h.paced
    rw [hlog, List.pairwise_cons] at hpairwise
    intro claim hclaim
    rcases List.mem_cons.mp hclaim with rfl | hclaim
    · exact hnow
    · have hlast : last.claimedAt ≤ last.claimedAt + (minIntervalMs : Int) :=
        Int.le_add_of_nonneg_right (Int.natCast_nonneg _)
      exact Int.le_trans (hpairwise.1 claim hclaim) (Int.le_trans hlast hnow)

theorem LaneInv.step {workspaceId : Id} {maxRequests minIntervalMs : Nat} {s : GovernedState}
    {call : QueueCall} (h : LaneInv workspaceId maxRequests minIntervalMs s)
    (hgoverned : GovernedBy workspaceId maxRequests minIntervalMs s call)
    (hkeeps : KeepsWindow workspaceId s call) :
    LaneInv workspaceId maxRequests minIntervalMs ((governed workspaceId).step s call) := by
  rcases step_lane workspaceId s.queue call with
    ⟨input, rfl, hworkspace, hgivesOut, hnew, hlane⟩ | ⟨hnew, hlane⟩
  · obtain ⟨hmax, hinterval, hclock⟩ := hgoverned hworkspace
    obtain ⟨hwindow, htexts⟩ := hkeeps hworkspace hgivesOut
    have hgranted := hgivesOut.granted
    rw [hworkspace] at hgranted
    have hcount := h.windowRequests_eq hwindow
    constructor
    case fresh => simp [governed, hnew]
    case last =>
      intro claim hclaim
      simp only [governed, hnew, List.singleton_append, List.head?_cons, Option.mem_some_iff] at hclaim
      subst hclaim
      refine ⟨_, hlane, rfl, rfl, ?_⟩
      simp [governed, hnew, grantedLane, hcount, windowCount_cons]
    case budget =>
      intro key
      simp only [governed, hnew, List.singleton_append, windowCount_cons]
      by_cases hkey : trim input.budgetWindowKey = key
      · have hbudget := hgranted.budget
        rw [hcount, hmax, hkey] at hbudget
        rw [if_pos hkey]
        omega
      · rw [if_neg hkey]
        exact h.budget key
    case paced =>
      simp only [governed, hnew, List.singleton_append, List.pairwise_cons]
      exact ⟨h.claimedAt_le hinterval hclock hgranted htexts, h.paced⟩
  · have hlog : ((governed workspaceId).step s call).log = s.log := by
      simp [governed, hnew]
    constructor
    case fresh => exact fun hempty => hlane.trans (h.fresh (hlog ▸ hempty))
    case last =>
      intro claim hclaim
      rw [hlog] at hclaim ⊢
      obtain ⟨lane, hfind, hrest⟩ := h.last claim hclaim
      exact ⟨lane, hlane.trans hfind, hrest⟩
    case budget => exact hlog ▸ h.budget
    case paced => exact hlog ▸ h.paced

/-- While no request is given out for a window that comes back after another, every window keeps to its maximum and the
    requests keep their distance; a call that is not granted a request leases nothing. -/
theorem lane_governed (workspaceId : Id) (maxRequests minIntervalMs : Nat) {calls : List QueueCall}
    (hgoverned : (governed workspaceId).Throughout (GovernedBy workspaceId maxRequests minIntervalMs)
      (governed workspaceId).init calls)
    (hkeeps : (governed workspaceId).Throughout (KeepsWindow workspaceId) (governed workspaceId).init
      calls) :
    (∀ budgetWindowKey,
      windowCount ((governed workspaceId).run calls).log budgetWindowKey ≤ maxRequests) ∧
    ((governed workspaceId).run calls).log.Pairwise (fun later earlier =>
      earlier.claimedAt + (minIntervalMs : Int) ≤ later.claimedAt) ∧
    ∀ input, (∀ record budgetWindowKey requestCount s',
        claimNextGoverned input ((governed workspaceId).run calls).queue ≠
          .ok (.claimed record budgetWindowKey requestCount, s')) →
      LeasesNothing ((governed workspaceId).run calls).queue
        (queue.step ((governed workspaceId).run calls).queue (.claimNextGoverned input)) := by
  have hinit : LaneInv workspaceId maxRequests minIntervalMs (governed workspaceId).init := by
    constructor <;> simp [governed, queue, windowCount]
  have hinv := Transitions.Machine.runFrom_invariant_of
    (P := LaneInv workspaceId maxRequests minIntervalMs)
    (fun s call h hcall => h.step hcall.1 hcall.2) hinit (hgoverned.and hkeeps)
  exact ⟨hinv.budget, hinv.paced, fun input h => leasesNothing_of_not_claimed h⟩

/-! ### Windows that take turns -/

instance (workspaceId : Id) (maxRequests minIntervalMs : Nat) (s : GovernedState) (call : QueueCall) :
    Decidable (GovernedBy workspaceId maxRequests minIntervalMs s call) :=
  match call with
  | .claimNextGoverned _ => by
    dsimp only [GovernedBy]
    infer_instance
  | .admitDetailPointer _ _ | .claimNext _ | .persistAttemptTransition _ _ | .releaseAuthSecurityHold _ _
  | .setWorkspaces _ => isTrue trivial

instance (input : ClaimGovernedCnipaDetailInput) (lane : Option LaneRow) (now : Timestamp) :
    Decidable (Granted input lane now) :=
  decidable_of_iff _ (granted_iff input lane now).symm

instance (s : QueueState) (input : ClaimGovernedCnipaDetailInput) : Decidable (GivesOut s input) :=
  decidable_of_iff _ (givesOut_iff s input).symm

instance (workspaceId : Id) (s : GovernedState) (call : QueueCall) :
    Decidable (KeepsWindow workspaceId s call) :=
  match call with
  | .claimNextGoverned _ => by
    dsimp only [KeepsWindow]
    infer_instance
  | .admitDetailPointer _ _ | .claimNext _ | .persistAttemptTransition _ _ | .releaseAuthSecurityHold _ _
  | .setWorkspaces _ => isTrue trivial

def governedPointer : AdmitCnipaDetailPointerInput where
  workspaceId := 1
  documentKind := .oppositionDecision
  sourceRecordId := "a"
  detailCanonicalUri := detailUri .oppositionDecision "a"
  listArtifactRef := "list-1"
  observedAt := 0

def governedClaim (budgetWindowKey : String) (now : Timestamp) : QueueCall :=
  .claimNextGoverned
    { workspaceId := 1, leaseId := "lease-1", now, leaseMs := 5, budgetWindowKey
      minIntervalMs := 10, maxRequestsPerBudgetWindow := 1 }

/-- One document in one workspace, and one claim for each of the windows. -/
def governedCalls (windows : List (String × Timestamp)) : List QueueCall :=
  [.setWorkspaces [{ id := 1, status := .active }], .admitDetailPointer governedPointer 0] ++
    windows.map fun window => governedClaim window.1 window.2

/-- Monday comes back after Tuesday, too early to be given a request. -/
def earlyMonday : List QueueCall := governedCalls [("monday", 0), ("tuesday", 20), ("monday", 25)]

theorem lane_governed_sample :
    (∀ budgetWindowKey, windowCount ((governed 1).run earlyMonday).log budgetWindowKey ≤ 1) ∧
    ((governed 1).run earlyMonday).log.Pairwise
      (fun later earlier => earlier.claimedAt + ((10 : Nat) : Int) ≤ later.claimedAt) ∧
    ∀ input, (∀ record budgetWindowKey requestCount s',
        claimNextGoverned input ((governed 1).run earlyMonday).queue ≠
          .ok (.claimed record budgetWindowKey requestCount, s')) →
      LeasesNothing ((governed 1).run earlyMonday).queue
        (queue.step ((governed 1).run earlyMonday).queue (.claimNextGoverned input)) :=
  lane_governed 1 1 10 (by decide +kernel) (by decide +kernel)

/-- Two requests for Monday, with a maximum of one, when Tuesday comes in between. -/
theorem lane_exceeds_budget :
    ∃ calls, (governed 1).Throughout (GovernedBy 1 1 10) (governed 1).init calls ∧
      windowCount ((governed 1).run calls).log "monday" = 2 :=
  ⟨governedCalls [("monday", 0), ("tuesday", 20), ("monday", 40)], by decide +kernel⟩

end MarkorbitKnowledge.Enrichment

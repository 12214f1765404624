import MarkorbitKnowledge.Delivery.Writes

/-!
# The evidence the repository writes

`Stored` is what every write keeps of the tables, whatever the clock does and however the answers
come in.  `Reconciled` says that the events of a delivery are a legal history of its submission; a
write keeps it when its event, if it is one of that delivery, is `Fitting`.  Along a run whose steps
are all `Orderly` for the delivery the diagnosis then finds an inconsistency only where it no longer
sees the whole history.
-/

namespace MarkorbitKnowledge.Delivery

open Contracts Fallible Transitions
open Tables (Keyed KeysUnique key)

variable {platform : Platform}

/-! ### The tables -/

theorem Change.owns {es : List AuditEvent} {s s' : Submission} {event : AuditEvent}
    (h : Change es s s' event) : Owns s event := by
  cases h <;> exact ⟨rfl, rfl⟩

theorem Change.frozen {es : List AuditEvent} {s s' : Submission} {event : AuditEvent}
    (h : Change es s s' event) : s'.frozen = s.frozen := by
  cases h <;> rfl

theorem key_of_frozen {s s' : Submission} (h : s'.frozen = s.frozen) : key s' = key s := by
  simp only [Submission.frozen, Prod.mk.injEq] at h
  simp [h]

/-- Submissions own events by their keys. -/
theorem owns_of_key {s t : Submission} {event : AuditEvent} (h : key t = key s) :
    Owns t event ↔ Owns s event := by
  simp only [key_submission, Prod.mk.injEq] at h
  rw [Owns, Owns, h.1, h.2]

theorem eventsFor_of_key {db : Database} {s t : Submission} (h : key t = key s) :
    db.eventsFor t = db.eventsFor s := by
  simp only [key_submission, Prod.mk.injEq] at h
  rw [Database.eventsFor, Database.eventsFor, h.1, h.2]

/-- What holds of the tables after any writes. -/
structure Stored (platform : Platform) (db : Database) : Prop where
  keys : KeysUnique db.submissions
  packages : ∀ s ∈ db.submissions, ∀ t ∈ db.submissions, s.workspaceId = t.workspaceId →
    s.readyPackageId = t.readyPackageId → key s = key t
  owned : ∀ event ∈ db.auditEvents, ∃ s ∈ db.submissions, Owns s event
  count : ∀ s ∈ db.submissions,
    (db.eventsFor s).countP (fun event => decide (event.type = .transportAttemptStarted)) =
      s.transportAttempts
  results : ∀ s ∈ db.submissions, s.transportResult ≠ none →
    Valid platform s ∧ 0 < s.transportAttempts

/-- A submission under a new key has no events. -/
theorem Stored.eventsFor_new {db : Database} (hst : Stored platform db) {s : Submission}
    (hkey : ∀ other ∈ db.submissions, key other ≠ key s) : db.eventsFor s = [] := by
  rw [List.eq_nil_iff_forall_not_mem]
  intro event hevent
  obtain ⟨hmem, howns⟩ := mem_eventsFor.mp hevent
  obtain ⟨t, ht, htowns⟩ := hst.owned event hmem
  refine hkey t ht ?_
  rw [key_submission, key_submission, ← htowns.1, ← htowns.2, howns.1, howns.2]

/-- The rule for properties of a submission and its events: a write keeps them when a preparation
    brings them about and a change keeps them. -/
theorem Write.forall_events {db db' : Database} {event : AuditEvent}
    {P : Submission → List AuditEvent → Prop} (h : Write platform db event db')
    (hst : Stored platform db) (hall : ∀ t ∈ db.submissions, P t (db.eventsFor t))
    (hprepared : ∀ s : Submission, s.state = .pending → s.transportAttempts = 0 →
      s.lastTransportAttemptedAt = none → s.transportResult = none → s.result = none →
      P s [numbered [] (auditEvent s .prepared s.createdAt none)])
    (hchange : ∀ s s' : Submission, s ∈ db.submissions → Valid platform s → Valid platform s' →
      Change (db.eventsFor s) s s' event → P s (db.eventsFor s) →
      P s' (db.eventsFor s ++ [event])) :
    ∀ t ∈ db'.submissions, P t (db'.eventsFor t) := by
  intro t ht
  have happend := eventsFor_append (s := t) h.auditEvents
  cases h with
  | prepared s hkey hpackage hstate hattempts hlast hopen hresult =>
    rcases List.mem_append.mp ht with ht | ht
    · have hnot : ¬ Owns t (numbered (db.eventsFor s) (auditEvent s .prepared s.createdAt none)) := by
        rintro ⟨hworkspace, hsubmission⟩
        exact hkey t ht (Prod.ext hworkspace.symm hsubmission.symm)
      rw [happend.2 hnot]
      exact hall t ht
    · rw [List.mem_singleton] at ht
      subst ht
      have hnew := hst.eventsFor_new hkey
      rw [happend.1 ⟨rfl, rfl⟩, hnew]
      exact hprepared t hstate hattempts hlast hopen hresult
  | recorded s s' _ hs hvalid hvalid' hrecorded =>
    have hkey := key_of_frozen hrecorded.frozen
    rcases Tables.mem_update.mp ht with ⟨ht, hne⟩ | ⟨rfl, -⟩
    · have hnot : ¬ Owns t event := by
        rintro ⟨hworkspace, hsubmission⟩
        have howns := hrecorded.owns
        refine hne (hkey ▸ ?_)
        rw [key_submission, key_submission, ← hworkspace, ← hsubmission, howns.1, howns.2]
      rw [happend.2 hnot]
      exact hall t ht
    · rw [happend.1 ((owns_of_key hkey).mpr hrecorded.owns), eventsFor_of_key hkey]
      exact hchange s t hs hvalid hvalid' hrecorded (hall s hs)

theorem Write.stored {db db' : Database} {event : AuditEvent} (h : Write platform db event db')
    (hst : Stored platform db) : Stored platform db' where
  keys := h.keysUnique hst.keys
  packages := by
    cases h with
    | prepared s hkey hpackage =>
      intro a ha b hb hworkspace hreadyPackage
      rcases List.mem_append.mp ha with ha | ha <;> rcases List.mem_append.mp hb with hb | hb
      · exact hst.packages a ha b hb hworkspace hreadyPackage
      · rw [List.mem_singleton.mp hb] at hworkspace hreadyPackage
        exact absurd (Prod.ext hworkspace hreadyPackage) (hpackage a ha)
      · rw [List.mem_singleton.mp ha] at hworkspace hreadyPackage
        exact absurd (Prod.ext hworkspace.symm hreadyPackage.symm) (hpackage b hb)
      · rw [List.mem_singleton.mp ha, List.mem_singleton.mp hb]
    | recorded s s' _ hs hvalid hvalid' hchange =>
      -- a changed row stands for the row it replaces
      have hrow : ∀ a ∈ Tables.update db.submissions s', ∃ b ∈ db.submissions,
          key b = key a ∧ b.workspaceId = a.workspaceId ∧ b.readyPackageId = a.readyPackageId := by
        intro a ha
        rcases Tables.mem_update.mp ha with ⟨ha, -⟩ | ⟨rfl, -⟩
        · exact ⟨a, ha, rfl, rfl, rfl⟩
        · have hfrozen := hchange.frozen
          simp only [Submission.frozen, Prod.mk.injEq] at hfrozen
          exact ⟨s, hs, (key_of_frozen hchange.frozen).symm, hfrozen.1.symm, hfrozen.2.2.1.symm⟩
      intro a ha b hb hworkspace hreadyPackage
      obtain ⟨a', ha', hkeya, hwa, hpa⟩ := hrow a ha
      obtain ⟨b', hb', hkeyb, hwb, hpb⟩ := hrow b hb
      rw [← hkeya, ← hkeyb]
      refine hst.packages a' ha' b' hb' ?_ ?_
      · rw [hwa, hwb, hworkspace]
      · rw [hpa, hpb, hreadyPackage]
  owned := by
    intro e he
    rw [h.auditEvents, List.mem_append, List.mem_singleton] at he
    cases h with
    | prepared s hkey =>
      rcases he with he | rfl
      · obtain ⟨t, ht, howns⟩ := hst.owned e he
        exact ⟨t, List.mem_append_left _ ht, howns⟩
      · exact ⟨s, by simp, rfl, rfl⟩
    | recorded s s' _ hs hvalid hvalid' hchange =>
      have hkey := key_of_frozen hchange.frozen
      refine Tables.exists_mem_update (fun t _ htkey htowns => (owns_of_key htkey).mp htowns) ?_
      rcases he with he | rfl
      · exact hst.owned e he
      · exact ⟨s, hs, hchange.owns⟩
  count := by
    refine h.forall_events (P := fun s events =>
      events.countP (fun event => decide (event.type = .transportAttemptStarted)) =
        s.transportAttempts) hst hst.count ?_ ?_
    · intro s _ hattempts _ _ _
      simp [numbered, auditEvent, hattempts]
    · intro s s' hs _ _ hchange hcount
      rw [List.countP_append, hcount]
      cases hchange <;> simp [numbered, auditEvent]
  results := by
    refine h.forall_events (P := fun s _ => s.transportResult ≠ none →
      Valid platform s ∧ 0 < s.transportAttempts) hst hst.results ?_ ?_
    · intro s _ _ _ hopen _ hresult
      exact absurd hopen hresult
    · intro s s' hs hvalid hvalid' hchange hresults hresult
      refine ⟨hvalid', ?_⟩
      cases hchange with
      | attempt now hpending hopen => exact absurd hopen hresult
      | uncertainty now issueCode httpStatus hpending hopen hattempts => exact hattempts
      | result now result hpending hopen hattempts => exact hattempts
      | finalize now result hpending hsame hattempts => exact hattempts

/-! ### Legal histories -/

/-- The events of the delivery are a legal history of its submission, if it is stored. -/
def Reconciled (db : Database) (delivery : Id × Id) : Prop :=
  ∀ s ∈ db.submissions, key s = delivery → LegalHistory s (db.eventsFor s)

/-- A legal history gives its next event the next number. -/
theorem nextSequence_of_legal {s : Submission} {events : List AuditEvent}
    (h : Evidence s events) : nextSequence events = events.length + 1 := by
  have hmax : ∀ n, (List.range' 1 n).foldl max 0 = n := by
    intro n
    induction n with
    | zero => rfl
    | succ n ih => rw [List.range'_concat, List.foldl_append, ih]; simp; omega
  rw [nextSequence, h.sequence, hmax]

theorem legal_prepared {s : Submission} (hstate : s.state = .pending)
    (hattempts : s.transportAttempts = 0) (hlast : s.lastTransportAttemptedAt = none)
    (hopen : s.transportResult = none) (hresult : s.result = none) :
    LegalHistory s [numbered [] (auditEvent s .prepared s.createdAt none)] := by
  refine ⟨⟨numbered [] (auditEvent s .prepared s.createdAt none), [], none, none⟩, rfl,
    ⟨⟨rfl, ?_, by simp, by simp⟩, by simp⟩, ?_, ?_⟩
  · intro i a hi
    simp at hi
  · refine evidence_singleton.mpr ⟨⟨rfl, ⟨rfl, rfl, rfl, rfl⟩, ?_⟩, rfl⟩
    intro prior hprior
    cases hprior
  · exact ⟨hattempts, hlast, by simp, fun _ => hopen, by simp, fun _ => ⟨hstate, hresult⟩⟩

/-- Facts about a submission that carry over between it and its changed version. -/
theorem evidence_of_frozen {s s' : Submission} {events : List AuditEvent}
    (hfrozen : s'.frozen = s.frozen) (hcreated : s'.createdAt = s.createdAt)
    (h : Evidence s events) : Evidence s' events := by
  simp only [Submission.frozen, Prod.mk.injEq] at hfrozen
  refine ⟨h.sequence, fun event hevent => ?_, h.times, hcreated ▸ h.createdAt⟩
  have hbelongs := h.belongs event hevent
  rw [Belongs] at hbelongs ⊢
  rw [hfrozen.1, hfrozen.2.1, hfrozen.2.2.1, hfrozen.2.2.2.2.2]
  exact hbelongs

theorem result_none_of_open {s : Submission} {t : Timeline} (hagrees : t.Agrees s)
    (hopen : s.transportResult = none) : t.result = none := by
  by_contra hne
  obtain ⟨event, hevent⟩ := Option.ne_none_iff_exists'.mp hne
  have hsame := hagrees.result event hevent
  simp [hopen, sameResultEvidence] at hsame

theorem finalized_none_of_pending {s : Submission} {t : Timeline} (hagrees : t.Agrees s)
    (hpending : s.state = .pending) : t.finalized = none := by
  by_contra hne
  obtain ⟨event, hevent⟩ := Option.ne_none_iff_exists'.mp hne
  have hrecorded := (hagrees.finalized event hevent).1
  rw [hpending] at hrecorded
  cases hrecorded

/-- The attempt a submission is at is the last of its timeline; it has no unknown outcome when none
    is recorded for it. -/
theorem last_attempt {s : Submission} {t : Timeline} (hshaped : t.Shaped) (hagrees : t.Agrees s)
    (hattempts : 0 < s.transportAttempts)
    (hknown : ¬ OutcomeUnknown t.events s) :
    ∃ rest a, t.attempts = rest ++ [a] ∧ a.unknown = none ∧
      s.transportAttempts = rest.length + 1 := by
  rcases List.eq_nil_or_concat t.attempts with hnil | ⟨rest, a, hrest⟩
  · rw [hagrees.attempts, hnil] at hattempts
    exact absurd hattempts (Nat.lt_irrefl 0)
  · rw [List.concat_eq_append] at hrest
    have hnumber : s.transportAttempts = rest.length + 1 := by
      rw [hagrees.attempts, hrest, List.length_append, List.length_singleton]
    refine ⟨rest, a, hrest, ?_, hnumber⟩
    by_contra hne
    obtain ⟨event, hevent⟩ := Option.ne_none_iff_exists'.mp hne
    have hnumbered := hshaped.attempts
    rw [hrest, attemptsNumbered_append] at hnumbered
    obtain ⟨htype, heventNumber⟩ := hnumbered.2.unknown event hevent
    refine hknown ⟨event, ?_, htype, by rw [heventNumber, hnumber]⟩
    simp [Timeline.events, Attempt.events, hrest, hevent]

/-- A change continues the timeline of its submission, when a result is not for an attempt whose
    outcome is recorded as unknown. -/
theorem Change.extends {s s' : Submission} {t : Timeline} {event : AuditEvent}
    (h : Change t.events s s' event) (hshaped : t.Shaped) (hevidence : Evidence s t.events)
    (hagrees : t.Agrees s)
    (hknown : event.type = .transportResultRecorded → s.transportResult = none →
      ¬ OutcomeUnknown t.events s) :
    ∃ t', t.Extends event t' ∧ t'.Agrees s' := by
  cases h with
  | attempt now hpending hopen =>
    have hresult := result_none_of_open hagrees hopen
    have hfinalized := finalized_none_of_pending hagrees hpending
    refine ⟨_, .attempt hresult hfinalized rfl (by rw [← hagrees.attempts]; rfl), ?_⟩
    exact ⟨by simp [hagrees.attempts], by simp [numbered, auditEvent], hagrees.result,
      hagrees.noResult, hagrees.finalized, hagrees.notFinalized⟩
  | uncertainty now issueCode httpStatus hpending hopen hattempts hnew =>
    have hnot : ¬ OutcomeUnknown t.events s := by
      rintro ⟨other, hother, htype, hnumber⟩
      exact hnew other hother htype hnumber
    obtain ⟨rest, a, hrest, hnone, hnumber⟩ := last_attempt hshaped hagrees hattempts hnot
    refine ⟨_, .unknown rest a hrest hnone (result_none_of_open hagrees hopen)
      (finalized_none_of_pending hagrees hpending) rfl (by rw [← hnumber]; rfl), ?_⟩
    exact ⟨by simp [hnumber], by rw [hagrees.lastAttempt, hrest]; simp, hagrees.result,
      hagrees.noResult, hagrees.finalized, hagrees.notFinalized⟩
  | result now result hpending hopen hattempts hids =>
    obtain ⟨rest, a, hrest, hnone, hnumber⟩ :=
      last_attempt hshaped hagrees hattempts (hknown rfl hopen)
    refine ⟨_, .result rest a hrest hnone (result_none_of_open hagrees hopen)
      (finalized_none_of_pending hagrees hpending) rfl (by rw [← hnumber]; rfl), ?_⟩
    refine ⟨hagrees.attempts, hagrees.lastAttempt, ?_, by simp, hagrees.finalized,
      hagrees.notFinalized⟩
    rintro _ ⟨⟩
    simp [sameResultEvidence, numbered, auditEvent, hids]
  | finalize now result hpending hsame hattempts =>
    obtain ⟨evidence, hevidence', heq⟩ : ∃ evidence, s.transportResult = some evidence ∧
        evidence.toDeliveryResult = result := by
      simpa [sameResult, Option.any_eq_true] using hsame
    obtain ⟨event, hevent⟩ : ∃ event, t.result = some event := by
      refine Option.ne_none_iff_exists'.mp fun hnone => ?_
      rw [hagrees.noResult hnone] at hevidence'
      cases hevidence'
    have hmatch := hagrees.result event hevent
    have hbelongs := hevidence.belongs event (by simp [Timeline.events, hevent])
    obtain ⟨-, hnumber, -⟩ := hshaped.result event hevent
    simp only [sameResultEvidence, hevidence', Option.any_some, Bool.and_eq_true,
      decide_eq_true_eq] at hmatch
    refine ⟨_, .finalized event hevent (finalized_none_of_pending hagrees hpending) rfl
      ⟨?_, ?_⟩, ?_⟩
    · rw [hnumber, ← hagrees.attempts]
      rfl
    · rw [← hmatch.1.2, ← heq]
      rfl
    · refine ⟨hagrees.attempts, hagrees.lastAttempt, hagrees.result, hagrees.noResult, ?_, by simp⟩
      rintro _ ⟨⟩
      refine ⟨rfl, ?_⟩
      obtain ⟨hworkspace, hsubmission, hpackage, hdigest⟩ := hbelongs
      simp [sameResultEvidence, numbered, auditEvent, ← heq, hmatch, hsubmission, hpackage,
        hdigest]

/-- A change whose event fits continues the legal history. -/
theorem Change.legal {es : List AuditEvent} {s s' : Submission} {event : AuditEvent}
    (h : Change es s s' event) (hlegal : LegalHistory s es)
    (htime : ∀ prior ∈ es, prior.recordedAt.instant ≤ event.recordedAt.instant)
    (hknown : event.type = .transportResultRecorded → s.transportResult = none →
      ¬ OutcomeUnknown es s) :
    LegalHistory s' (es ++ [event]) := by
  obtain ⟨t, rfl, hshaped, hevidence, hagrees⟩ := hlegal
  obtain ⟨t', hextends, hagrees'⟩ := h.extends hshaped hevidence hagrees hknown
  have hnumbered : event.sequence = t.events.length + 1 ∧ Belongs s event ∧
      s'.createdAt = s.createdAt := by
    rw [← nextSequence_of_legal hevidence]
    cases h <;> exact ⟨rfl, ⟨rfl, rfl, rfl, rfl⟩, rfl⟩
  refine ⟨t', hextends.events.symm, hextends.shaped hshaped,
    evidence_of_frozen h.frozen hnumbered.2.2 ?_, hagrees'⟩
  refine (evidence_append t.events_ne_nil).mpr ⟨hevidence, hnumbered.1, hnumbered.2.1, ?_⟩
  intro prior hprior
  obtain ⟨last, hlast, rfl⟩ := Option.map_eq_some_iff.mp hprior
  exact htime last (List.mem_of_getLast? hlast)

/-- A write whose event fits, or is one of another delivery, keeps the history legal. -/
theorem Write.reconciled {db db' : Database} {event : AuditEvent} {delivery : Id × Id}
    (h : Write platform db event db') (hst : Stored platform db)
    (hfitting : event.delivery = delivery → Fitting db event) (hdb : Reconciled db delivery) :
    Reconciled db' delivery := by
  refine h.forall_events (P := fun s events => key s = delivery → LegalHistory s events) hst hdb ?_ ?_
  · intro s hstate hattempts hlast hopen hresult _
    exact legal_prepared hstate hattempts hlast hopen hresult
  · intro s s' hs _ _ hchange hlegal hkey
    have hkey : key s = delivery := (key_of_frozen hchange.frozen).symm.trans hkey
    have howns := owns_iff_delivery.mp hchange.owns
    have hfitting := hfitting (howns.trans hkey)
    refine hchange.legal (hlegal hkey) ?_ ?_
    · intro prior hprior
      obtain ⟨hmem, hprior⟩ := mem_eventsFor.mp hprior
      exact hfitting.time prior hmem ((owns_iff_delivery.mp hprior).trans howns.symm)
    · intro htype hopen
      exact hfitting.known htype s hs hchange.owns hopen

/-! ### Runs -/

variable {readyPackages : List (Id × Id)} {delivery : Id × Id}

theorem stored_of_writes {sys : System} {op : Op} {db db' : Database}
    (h : Steps (WriteIn platform delivery sys op) db db') (hst : Stored platform db) :
    Stored platform db' :=
  h.invariant (fun _ _ hwrite => by
    obtain ⟨event, hwrite, -⟩ := hwrite
    exact hwrite.stored) hst

/-- The tables are well kept in every state of every run. -/
theorem stored_run (ops : List Op) :
    Stored platform ((machine platform readyPackages).run ops).database := by
  refine Machine.run_invariant (M := machine platform readyPackages)
    (P := fun sys => Stored platform sys.database) ?_ ?_ ops
  · exact ⟨List.nodup_nil, by simp [machine], by simp [machine], by simp [machine],
      by simp [machine]⟩
  · intro sys op hst
    exact stored_of_writes (writes_of_step hst.keys (0, 0) op) hst

theorem stored_step {sys : System} (hst : Stored platform sys.database) (op : Op) :
    Stored platform (step platform sys op).database :=
  stored_of_writes (writes_of_step hst.keys (0, 0) op) hst

/-- Along a run whose steps are all orderly for a delivery its history stays legal. -/
theorem reconciled_run {ops : List Op}
    (h : (machine platform readyPackages).Throughout (Orderly delivery)
      (machine platform readyPackages).init ops) :
    Reconciled ((machine platform readyPackages).run ops).database delivery := by
  have hboth : ∀ sys op, (Stored platform sys.database ∧ Reconciled sys.database delivery) →
      Orderly delivery sys op → Stored platform (step platform sys op).database ∧
        Reconciled (step platform sys op).database delivery := by
    rintro sys op ⟨hst, hdb⟩ horderly
    refine Steps.invariant (P := fun db => Stored platform db ∧ Reconciled db delivery) ?_
      (writes_of_step hst.keys delivery op) ⟨hst, hdb⟩
    rintro db db' ⟨event, hwrite, hfitting⟩ ⟨hst, hdb⟩
    exact ⟨hwrite.stored hst, hwrite.reconciled hst (fun hevent => (hfitting hevent).2 horderly) hdb⟩
  refine (Machine.runFrom_invariant_of (M := machine platform readyPackages)
    (P := fun sys => Stored platform sys.database ∧ Reconciled sys.database delivery) hboth ?_ h).2
  refine ⟨⟨List.nodup_nil, ?_, ?_, ?_, ?_⟩, ?_⟩ <;> simp [machine, Reconciled]

/-- An event of the delivery after a step is old, or dated by a reading of the step. -/
theorem dated_step {sys : System} (hst : Stored platform sys.database) (op : Op) :
    ∀ event ∈ (step platform sys op).database.auditEvents, event.delivery = delivery →
      event ∈ sys.database.auditEvents ∨ event.recordedAt.instant ∈ op.dates delivery sys := by
  refine Steps.invariant (P := fun db => ∀ event ∈ db.auditEvents, event.delivery = delivery →
    event ∈ sys.database.auditEvents ∨ event.recordedAt.instant ∈ op.dates delivery sys) ?_
    (writes_of_step hst.keys delivery op) (fun event hevent _ => Or.inl hevent)
  rintro db db' ⟨written, hwrite, hreading⟩ hdb event hevent hdelivery
  rw [hwrite.auditEvents, List.mem_append, List.mem_singleton] at hevent
  rcases hevent with hevent | rfl
  · exact hdb event hevent hdelivery
  · exact Or.inr (hreading hdelivery).1

/-- The clock readings of a run that can date events of a delivery, in their order. -/
def datesAlong (platform : Platform) (delivery : Id × Id) : System → List Op → List Timestamp
  | _, [] => []
  | sys, op :: ops => op.dates delivery sys ++ datesAlong platform delivery (step platform sys op) ops

/-- They are some of the readings of the run. -/
theorem datesAlong_sublist (ops : List Op) (sys : System) :
    (datesAlong platform delivery sys ops).Sublist (ops.flatMap Op.readings) := by
  induction ops generalizing sys with
  | nil => exact List.Sublist.refl _
  | cons op ops ih =>
    rw [datesAlong, List.flatMap_cons]
    refine List.Sublist.append ?_ (ih _)
    unfold Op.dates
    split
    · exact List.Sublist.refl _
    · exact List.nil_sublist _

/-- Every event of the delivery in a run is dated by a reading of the run. -/
theorem dated_runFrom (ops : List Op) {sys : System} (hst : Stored platform sys.database) :
    ∀ event ∈ ((machine platform readyPackages).runFrom sys ops).database.auditEvents,
      event.delivery = delivery → event ∈ sys.database.auditEvents ∨
        event.recordedAt.instant ∈ datesAlong platform delivery sys ops := by
  induction ops generalizing sys with
  | nil => exact fun event hevent _ => Or.inl hevent
  | cons op ops ih =>
    intro event hevent hdelivery
    rw [datesAlong, List.mem_append]
    rcases ih (stored_step hst op) event hevent hdelivery with hold | hnew
    · exact (dated_step hst op event hold hdelivery).imp_right Or.inl
    · exact Or.inr (Or.inr hnew)

/-- The clock goes forward for a delivery when its readings, over all the steps, do. -/
theorem clockForward_of_readings {ops : List Op} :
    ∀ {sys : System}, Stored platform sys.database →
      (datesAlong platform delivery sys ops).Pairwise (· ≤ ·) →
      (∀ reading ∈ datesAlong platform delivery sys ops, ∀ event ∈ sys.database.auditEvents,
        event.delivery = delivery → event.recordedAt.instant ≤ reading) →
      (machine platform readyPackages).Throughout (ClockForward delivery) sys ops := by
  induction ops with
  | nil => exact fun _ _ _ => trivial
  | cons op ops ih =>
    intro sys hst hpairwise hbefore
    rw [datesAlong, List.pairwise_append] at hpairwise
    obtain ⟨hop, hops, hbetween⟩ := hpairwise
    refine ⟨⟨hop, fun reading hreading => hbefore reading (List.mem_append_left _ hreading)⟩, ?_⟩
    refine ih (stored_step hst op) hops fun reading hreading event hevent hdelivery => ?_
    rcases dated_step hst op event hevent hdelivery with hold | hnew
    · exact hbefore reading (List.mem_append_right _ hreading) event hold hdelivery
    · exact hbetween event.recordedAt.instant hnew reading hreading

/-! ### The listing -/

/-- The listing of a legal history is its last 200 events. -/
theorem listAuditEvents_of_legal {db : Database} {s : Submission}
    (h : LegalHistory s (db.eventsFor s)) :
    listAuditEvents db s.workspaceId s.submissionId 200 =
      (db.eventsFor s).drop ((db.eventsFor s).length - MAX_LIMIT) := by
  obtain ⟨t, -, -, hevidence, -⟩ := h
  have hsorted : (db.eventsFor s).Pairwise fun left right => left.sequence ≤ right.sequence := by
    have hrange : (List.range' 1 (db.eventsFor s).length).Pairwise (· ≤ ·) :=
      List.pairwise_le_range' 1
    rw [← hevidence.sequence, List.pairwise_map] at hrange
    exact hrange
  unfold Database.eventsFor at hsorted ⊢
  unfold listAuditEvents
  simp only [List.Pairwise.insertionSort_eq hsorted, MAX_LIMIT, Nat.min_self]

/-- A history whose beginning is cut off is refused. -/
theorem diagnose_cut {s : Submission} {events : List AuditEvent} (h : Evidence s events) {n : Nat}
    (hn : 0 < n) (hlt : n < events.length) :
    (diagnoseReadyPackageV2Delivery s (events.drop n)).state = .evidenceInconsistent := by
  rw [diagnose_inconsistent_iff]
  intro hclean
  obtain ⟨t, -, -, hevidence, -⟩ := diagnose_issues_eq_nil.mp hclean
  have hsequence := hevidence.sequence
  rw [List.map_drop, h.sequence, List.drop_range'] at hsequence
  have hhead := congrArg List.head? hsequence
  rw [List.length_drop] at hhead
  obtain ⟨k, hk⟩ : ∃ k, events.length - n = k + 1 := ⟨events.length - n - 1, by omega⟩
  rw [hk, List.range'_succ, List.range'_succ] at hhead
  simp at hhead
  omega

/-- The diagnosis of a delivery with a legal history is inconsistent exactly when the listing no
    longer holds the whole history. -/
theorem diagnose_of_reconciled {db : Database} {s : Submission} (hs : s ∈ db.submissions)
    (hdb : Reconciled db (key s)) :
    (diagnose db s).state = .evidenceInconsistent ↔ MAX_LIMIT < (db.eventsFor s).length := by
  have hlegal := hdb s hs rfl
  rw [diagnose, listAuditEvents_of_legal hlegal]
  constructor
  · intro h
    by_contra hle
    rw [Nat.sub_eq_zero_of_le (Nat.le_of_not_lt hle), List.drop_zero,
      diagnose_inconsistent_iff] at h
    exact h (diagnose_issues_eq_nil.mpr hlegal)
  · intro hlt
    obtain ⟨t, -, -, hevidence, -⟩ := hlegal
    exact diagnose_cut hevidence (by omega) (by unfold MAX_LIMIT at *; omega)

theorem orderly_of_readings {ops : List Op}
    (hclock : (datesAlong platform delivery (machine platform readyPackages).init ops).Pairwise
      (· ≤ ·))
    (hanswers : (machine platform readyPackages).Throughout (AnswersKnown delivery)
      (machine platform readyPackages).init ops) :
    (machine platform readyPackages).Throughout (Orderly delivery)
      (machine platform readyPackages).init ops := by
  refine Machine.Throughout.and (clockForward_of_readings (stored_run []) hclock ?_) hanswers
  simp [machine]

/-- For a delivery whose clock readings do not go back, and with no answer of it recorded for an
    attempt whose outcome was recorded as unknown, the diagnosis is inconsistent exactly when more than
    200 events are stored for it. -/
theorem evidence_accepted (platform : Platform) (readyPackages : List (Id × Id)) (ops : List Op) :
    let M := machine platform readyPackages
    let db := (M.run ops).database
    ∀ s ∈ db.submissions,
      (datesAlong platform (s.workspaceId, s.submissionId) M.init ops).Pairwise (· ≤ ·) →
      M.Throughout (AnswersKnown (s.workspaceId, s.submissionId)) M.init ops →
      ((diagnose db s).state = .evidenceInconsistent ↔
        MAX_LIMIT < (eventsOf db s.workspaceId s.submissionId).length) :=
  fun _ hs hclock hanswers =>
    diagnose_of_reconciled hs (reconciled_run (orderly_of_readings hclock hanswers))

/-! ### An answer that is overtaken -/

instance (events : List AuditEvent) (s : Submission) : Decidable (OutcomeUnknown events s) :=
  inferInstanceAs (Decidable (∃ event ∈ events, _ ∧ _))

theorem answersKnown_of_known {sys : System} {op : Op}
    (h : ∀ s ∈ sys.database.submissions, ¬ OutcomeUnknown (sys.database.eventsFor s) s) :
    AnswersKnown delivery sys op :=
  fun _ _ _ _ s hs _ _ _ => h s hs

theorem answersKnown_of_no_answer {sys : System} {op : Op} (h : op.answer sys = none) :
    AnswersKnown delivery sys op := by
  intro waiting result hanswer
  rw [h] at hanswer
  cases hanswer

def sampleExport : ContentExport where
  contractVersion := "2.0"
  objectType := "READY_PACKAGE_CONTENT_EXPORT"
  readyPackageId := 1
  knowledgeWorkspaceId := 1
  readyPackageDigest := 7
  rest := ""

def sampleRequest : DeliveryRequest where
  protocolVersion := READY_PACKAGE_V2_DELIVERY_PROTOCOL_VERSION
  objectType := READY_PACKAGE_V2_DELIVERY_REQUEST_OBJECT_TYPE
  deliveryId := 1
  readyPackageId := 1
  knowledgeWorkspaceId := 1
  targetService := READY_PACKAGE_V2_DELIVERY_TARGET_SERVICE
  targetWorkspaceId := sampleSubmission.coreWorkspaceId
  readyPackageDigest := 7
  contentExportSha256 := 6
  contentExport := sampleExport
  submittedAt := isoText 0

/-- A platform that knows the texts of one export and one request, and hashes by length. -/
def samplePlatform : Platform where
  sha256 := fun text => text.length
  serializeContentExport := fun _ => .ok "export"
  parseContentExport := fun text => if text = "export" then some sampleExport else none
  serializeRequest := fun _ => "request"
  parseRequest := fun text => if text = "request" then some sampleRequest else none

def samplePrepare : Op :=
  .prepare
    { workspaceId := 1
      readyPackage :=
        { id := 1, workspaceId := 1, verified := true, contractVersion := "2.0", digest := 7 }
      coreWorkspaceId := sampleSubmission.coreWorkspaceId
      contentExport := sampleExport } 0 1

def sampleResult : DeliveryResult where
  protocolVersion := READY_PACKAGE_V2_DELIVERY_PROTOCOL_VERSION
  objectType := READY_PACKAGE_V2_DELIVERY_RESULT_OBJECT_TYPE
  deliveryId := 1
  readyPackageId := 1
  status := .accepted
  requestSha256 := 7

/-- A delivery that is prepared, submitted in vain, and then submitted again and answered. -/
def answered : List Op :=
  [samplePrepare, .submit 1 1 true 1 none, .settle 0 (.failed "TRANSPORT_TIMEOUT" 504) 2 2 none,
    .submit 1 1 true 3 none, .settle 0 (.answered sampleResult) 4 5 none]

/-- Two submits of one delivery wait at once; the first fails, and then the second is answered. -/
def overtaken : List Op :=
  [samplePrepare, .submit 1 1 true 1 none, .submit 1 1 true 2 none,
    .settle 0 (.failed "TRANSPORT_TIMEOUT" 504) 3 3 none,
    .settle 0 (.answered sampleResult) 4 5 none]

theorem answered_known : (machine samplePlatform [(1, 1)]).Throughout (AnswersKnown delivery)
    (machine samplePlatform [(1, 1)]).init answered :=
  ⟨answersKnown_of_no_answer rfl, answersKnown_of_no_answer rfl, answersKnown_of_no_answer rfl,
    answersKnown_of_no_answer rfl, answersKnown_of_known (by decide +kernel), trivial⟩

theorem answered_forward : (datesAlong samplePlatform delivery
    (machine samplePlatform [(1, 1)]).init answered).Pairwise (· ≤ ·) :=
  List.Pairwise.sublist (datesAlong_sublist answered _) (by decide)

theorem answered_accepted :
    let db := ((machine samplePlatform [(1, 1)]).run answered).database
    ∀ s ∈ db.submissions, (diagnose db s).state = .evidenceInconsistent ↔
      MAX_LIMIT < (eventsOf db s.workspaceId s.submissionId).length :=
  fun s hs => evidence_accepted samplePlatform [(1, 1)] answered s hs answered_forward answered_known

/-- The uncertainty of the first submit is recorded for the attempt of the second, whose answer then
    makes the evidence inconsistent, with seven readings of a clock that goes forward and six
    events. -/
theorem overtaken_inconsistent :
    let db := ((machine samplePlatform [(1, 1)]).run overtaken).database
    (overtaken.flatMap Op.readings).Pairwise (· ≤ ·) ∧
      db.submissions.map (fun s => ((diagnose db s).state, (diagnose db s).issues.map (·.code))) =
        [(.evidenceInconsistent, ["AUDIT_RESULT_AFTER_UNKNOWN_SAME_ATTEMPT"])] := by
  decide +kernel

end MarkorbitKnowledge.Delivery

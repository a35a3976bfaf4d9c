import WheelForge.Jobs.WellFormed

/-!
# Fencing

Once the job row of a lease has left the execution the lease was issued for, no operation with that
lease changes the database any more, whatever its clock reads (`superseded_lease_inert`). A job row
can only begin to run under an execution that `claim_next` has just drawn (`running_step`), so the
execution of an old lease never returns to the row.
-/

set_option autoImplicit false

namespace WheelForge.Jobs

open WheelForge.Transition
open WheelForge.Api

/-- The job row has been claimed again, queued again, completed, failed or cancelled since `lease`
was issued on it. -/
inductive Superseded (lease : JobLease) (j : BuildJob) : Prop
  | reclaimed (hr : j.status = .running) (he : j.executionId ≠ some lease.executionId)
  | retried (h : j.status = .ready)
  | completed (h : j.status = .completed)
  | failed (h : j.status = .failed)
  | cancelled (h : j.status = .cancelled)

theorem superseded_iff {lease : JobLease} {j : BuildJob} :
    Superseded lease j ↔ (j.status = .running → j.executionId ≠ some lease.executionId) := by
  constructor
  · intro h hr
    cases h with
    | reclaimed _ he => exact he
    | retried h | completed h | failed h | cancelled h => rw [hr] at h; cases h
  · intro h
    cases hs : j.status with
    | ready => exact .retried hs
    | running => exact .reclaimed hs (h hs)
    | completed => exact .completed hs
    | failed => exact .failed hs
    | cancelled => exact .cancelled hs

/-- The lease is not held on a superseded row. -/
theorem Superseded.not_owns {db : Database} {lease : JobLease} {j : BuildJob} {now : DateTime}
    (hj : db.job? lease.id = some j) (h : Superseded lease j) : owns db lease now = false := by
  cases ho : owns db lease now with
  | false => rfl
  | true =>
      obtain ⟨j', hj'⟩ := owns_eq_true_iff.1 ho
      have heq := hj.symm.trans hj'.found
      cases heq
      exact absurd hj'.execution (superseded_iff.1 h hj'.running)

variable {repo : JobRepository} {encode : WireEncoder}

/-- A job row that runs after a step ran before it under the same execution, or runs under an
execution that the step has drawn. -/
theorem running_step {s s' : SystemState} {a : SystemAction}
    (h : SystemStep repo encode s a s') {k : Uuid} {j' : BuildJob} (hj' : s'.db.job? k = some j')
    (hr : j'.status = .running) :
    (∃ j, s.db.job? k = some j ∧ j.status = .running ∧ j'.executionId = j.executionId) ∨
      ∃ e, j'.executionId = some e ∧ e ∉ s.leases.map JobLease.executionId := by
  cases h with
  | @claim workerId executionId locked now hw hfresh hlocked =>
      have hcase := claimPass_cases repo workerId executionId locked now s.db
      revert hcase hj'
      generalize repo.claimPass workerId executionId locked now s.db = result
      obtain ⟨pass, db'⟩ := result
      intro hj' hcase
      cases hcase with
      | idle => exact Or.inl ⟨j', hj', hr, rfl⟩
      | exhausted hrow ha happ =>
          rcases happ.job_cases hj' with ⟨-, hj⟩ | ⟨-, rfl⟩
          · exact Or.inl ⟨j', hj, hr, rfl⟩
          · cases hr
      | leased hrow ha happ =>
          rcases happ.job_cases hj' with ⟨-, hj⟩ | ⟨-, rfl⟩
          · exact Or.inl ⟨j', hj, hr, rfl⟩
          · exact Or.inr ⟨executionId, rfl, hfresh⟩
  | @operate lease now op hl =>
      cases ho : owns s.db lease now with
      | false =>
          have hj : s.db.job? k = some j' := by
            rw [← perform_of_not_owns repo ho op]
            exact hj'
          exact Or.inl ⟨j', hj, hr, rfl⟩
      | true =>
          obtain ⟨row, hrow⟩ := owns_eq_true_iff.1 ho
          obtain ⟨e, he, happ⟩ := perform_effective repo hrow op
          rcases happ.job_cases hj' with ⟨-, hj⟩ | ⟨rfl, rfl⟩
          · exact Or.inl ⟨j', hj, hr, rfl⟩
          · exact Or.inl ⟨row, hrow.found, he.job_running hr⟩
  | request hreq =>
      cases ApiRequest.run_effect hreq with
      | build task payload jobId now file key hnew hfile howner hkey hsource htask hjob jobs =>
          have hj : _ = some j' := (jobs k).symm.trans hj'
          split at hj
          · cases hj
            cases hr
          · exact Or.inl ⟨j', hj, hr, rfl⟩
      | parse file payload jobId now hnew hkey hfile hjob jobs =>
          have hj : _ = some j' := (jobs k).symm.trans hj'
          split at hj
          · cases hj
            cases hr
          · exact Or.inl ⟨j', hj, hr, rfl⟩
      | delete task now htask hd =>
          rw [hd] at hj'
          exact Or.inl ⟨j', hj', hr, rfl⟩
  | beginCancel | matchCancel | abandonCancel => exact Or.inl ⟨j', hj', hr, rfl⟩
  | @finishCancel c matched db' hc hm hf =>
      obtain ⟨task, task', hfin⟩ := finishCancel_ok hf
      have hj : _ = some j' := (hfin.job k).symm.trans hj'
      obtain ⟨j, hjs, rfl⟩ := Option.map_eq_some_iff.1 hj
      by_cases hk : k ∈ matched
      · rw [if_pos hk] at hr
        cases hr
      · rw [if_neg hk] at hr ⊢
        exact Or.inl ⟨j, hjs, hr, rfl⟩

/-- The row of an issued lease stays superseded. -/
theorem superseded_step {s s' : SystemState} {a : SystemAction}
    (h : SystemStep repo encode s a s') {lease : JobLease} (hl : lease ∈ s.leases)
    (hsup : ∀ j, s.db.job? lease.id = some j → Superseded lease j) :
    ∀ j, s'.db.job? lease.id = some j → Superseded lease j := by
  intro j' hj'
  rw [superseded_iff]
  intro hr he
  rcases running_step h hj' hr with ⟨j, hj, hrj, heq⟩ | ⟨e, heq, hfresh⟩
  · exact superseded_iff.1 (hsup j hj) hrj (heq.symm.trans he)
  · rw [heq] at he
    cases he
    exact hfresh (List.mem_map.2 ⟨lease, hl, rfl⟩)

/-- Leases are never forgotten. -/
theorem leases_step {s s' : SystemState} {a : SystemAction} (h : SystemStep repo encode s a s')
    {lease : JobLease} (hl : lease ∈ s.leases) : lease ∈ s'.leases := by
  cases h with
  | claim =>
      show lease ∈ addLease s.leases _
      unfold addLease
      split
      · exact List.mem_append_left _ hl
      · exact hl
  | operate | request | beginCancel | matchCancel | finishCancel | abandonCancel => exact hl

/-- Fencing: from the state on in which the row of a lease is superseded, no operation with that
lease changes a row of any table. -/
theorem superseded_lease_inert {s t : SystemState} {lease : JobLease} {j : BuildJob}
    (hreach : (jobSystem repo encode).Reachable System.Any s) (hl : lease ∈ s.leases)
    (hj : s.db.job? lease.id = some j) (hsup : Superseded lease j)
    (hrun : (jobSystem repo encode).Steps System.Any s t) (now : DateTime)
    (op : LeaseOperation) : perform repo lease now op t.db = t.db := by
  have hkept : (lease ∈ t.leases ∧ ∃ j, t.db.job? lease.id = some j) ∧
      ∀ j, t.db.job? lease.id = some j → Superseded lease j := by
    refine hrun.preserves_of_reachable
      (P := fun u => (lease ∈ u.leases ∧ ∃ j, u.db.job? lease.id = some j) ∧
        ∀ j, u.db.job? lease.id = some j → Superseded lease j) ?_ hreach ?_
    · rintro u a v hu ⟨⟨hlu, -⟩, hsu⟩ - hstep
      have hwf := wellFormed_of_reachable hu
      have hlv := leases_step hstep hlu
      obtain ⟨j', hj', -⟩ := (wellFormed_step hwf hstep).lease_job lease hlv
      exact ⟨⟨hlv, j', hj'⟩, superseded_step hstep hlu hsu⟩
    · refine ⟨⟨hl, j, hj⟩, fun j' hj' => ?_⟩
      rw [hj] at hj'
      cases hj'
      exact hsup
  obtain ⟨⟨-, j', hj'⟩, hsup'⟩ := hkept
  exact perform_of_not_owns repo ((hsup' j' hj').not_owns hj') op

/-- A parse job whose lease expired and was taken over by a second worker. -/
def takeoverActions : List SystemAction :=
  [.request (.upload "u" "f" "j" "requirements.txt" 3 "digest" 0),
    .claim "w1" "e1" (fun _ => false) 10,
    .claim "w2" "e2" (fun _ => false) 100000000]

/-- The lease of the first worker of `takeoverActions`. -/
def expiredLease : JobLease where
  id := "j"
  jobType := .requirementParse
  subjectId := "f"
  payloadVersion := 1
  payloadJson := "payload"
  workerId := "w1"
  executionId := "e1"
  attempts := 1
  maxAttempts := 3
  reclaimed := false
  previousExecutionId := none

theorem superseded_lease_inert_takeover :
    perform sampleRepository expiredLease 20 (.failTerminal "CODE" "late")
      (sampleState takeoverActions).db = (sampleState takeoverActions).db := by
  have hj : ∃ j, (sampleState takeoverActions).db.job? expiredLease.id = some j ∧
      j.status = .running ∧ j.executionId = some "e2" := ⟨_, rfl, rfl, rfl⟩
  obtain ⟨j, hj, hr, he⟩ := hj
  exact superseded_lease_inert (sampleState_reachable System.Any (by decide +kernel)) (by decide +kernel) hj
    (.reclaimed hr (by rw [he]; decide)) (System.Steps.refl _) 20 _

end WheelForge.Jobs

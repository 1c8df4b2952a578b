import ProximityCert.Manager.Tasks
import ProximityCert.Proofs.Certificate.Records

/-!
The stored progress of a scheduler. It is read back as it was written, and every action comes down to
a change of it, after which the timer is armed anew.
-/

namespace ProximityCert

namespace Json

@[simp] theorem uint32?_ofNat (n : UInt32) : (ofNat n.toNat).uint32? = some n := by
  have high := n.toNat_lt
  simp only [ofNat, uint32?, integerIn?]
  rw [if_pos ⟨by omega, by omega⟩]
  simp

/-- What is absent is written as a null. -/
theorem optional?_ofInt64 (n : Option Int64) :
    optional? int64? ((n.map ofInt64).getD .null) = some n := by
  cases n with
  | none => rfl
  | some n =>
      show (int64? (ofInt64 n)).map some = _
      rw [int64?_ofInt64]
      rfl

end Json

theorem TaskState.ofJson?_toJson (s : TaskState) : ofJson? s.toJson = some s := by
  have fields := Json.structFields?_ofMembers
    [("last_attempt_nanos", (s.lastAttempt.map Json.ofInt64).getD .null),
      ("last_success_nanos", (s.lastSuccess.map Json.ofInt64).getD .null),
      ("consecutive_failures", .ofNat s.consecutiveFailures.toNat),
      ("pending_immediate_request", .bool s.pendingImmediateRequest),
      ("waiting_for_result", .bool s.waitingForResult)] (by simp)
  have names : s.toJson.structFields? fieldNames = _ := fields
  rw [ofJson?, names]
  simp [Json.defaulted?, Json.optional?_ofInt64, Json.bool?]

namespace TaskState

/-- A recovered request is due at once instead of being awaited. -/
theorem recoverInterrupted_waiting (t : TaskState) :
    t.recoverInterrupted.2.waitingForResult = false := by
  unfold TaskState.recoverInterrupted
  split
  · rfl
  · next idle => simpa using idle

theorem recoverInterrupted_pending {t : TaskState} (pending : t.pendingImmediateRequest = true) :
    t.recoverInterrupted.2.pendingImmediateRequest = true := by
  unfold TaskState.recoverInterrupted
  split
  · rfl
  · exact pending

variable {t : TaskState} {cadence : Cadence} {now : Instant} {retry : RetryPolicy}

theorem timeUntilNext_of_waiting (waiting : t.waitingForResult = true) :
    t.timeUntilNext cadence now true retry = .ok none := by
  simp [timeUntilNext, waiting]

theorem timeUntilNext_of_pending (idle : t.waitingForResult = false)
    (pending : t.pendingImmediateRequest = true) :
    t.timeUntilNext cadence now true retry = .ok (some 0) := by
  simp [timeUntilNext, idle, pending]

end TaskState

namespace Scheduler

@[simp] theorem load_save (key : String) (p : Preferences) (state : TaskState) :
    load key (save key p state) = state := by
  rw [load, save, SortedMap.find?_insert, if_pos rfl]
  show (TaskState.ofJson? state.toJson).getD {} = state
  rw [TaskState.ofJson?_toJson]
  rfl

@[simp] theorem load_recover (key : String) (p : Preferences) :
    load key (recover key p) = (load key p).recoverInterrupted.2 := by
  unfold recover TaskState.recoverInterrupted
  by_cases waiting : (load key p).waitingForResult
  · simp [waiting]
  · simp [waiting]

variable {s s' : Scheduler} {p p' : Preferences} {cadence : Cadence} {now : Moment}
  {action : TaskAction}

/-- What an action does before it looks at the clock. -/
def prepared (s : Scheduler) (p : Preferences) (now : Moment) : TaskAction → Scheduler × Preferences
  | .start => if s.running then (s, p) else ({ s with running := true }, recover s.key p)
  | .stop => (s.stop, p)
  | .requestNow =>
    ({ s with timer := none }, save s.key p { load s.key p with pendingImmediateRequest := true })
  | .reschedule => (s, p)
  | .handleResult success => (s, save s.key p ((load s.key p).recordResult success now.now))

/-- Whether an action arms the timer anew at its end. -/
def rearms (s : Scheduler) : TaskAction → Bool
  | .start => !s.running
  | .stop => false
  | .requestNow | .reschedule | .handleResult _ => true

theorem act_eq (s : Scheduler) (p : Preferences) (cadence : Cadence) (now : Moment)
    (action : TaskAction) :
    s.act p cadence now action =
      if s.rearms action then
        ((s.prepared p now action).1.reschedule (s.prepared p now action).2 cadence now).map
          fun t => (t, (s.prepared p now action).2)
      else .ok (s.prepared p now action) := by
  cases action with
  | start =>
      by_cases running : s.running
      · simp [act, start, rearms, prepared, running]
      · simp [act, start, rearms, prepared, running]
  | stop => rfl
  | requestNow => rfl
  | reschedule => rfl
  | handleResult success => rfl

@[simp] theorem prepared_key (s : Scheduler) (p : Preferences) (now : Moment) (action : TaskAction) :
    (s.prepared p now action).1.key = s.key := by
  cases action with
  | start =>
      simp only [prepared]
      split <;> rfl
  | stop =>
      simp only [prepared, stop]
      split <;> rfl
  | requestNow => rfl
  | reschedule => rfl
  | handleResult success => rfl

/-- Only a running scheduler arms a timer, for the span that its progress gives. -/
inductive Rescheduled (s : Scheduler) (p : Preferences) (cadence : Cadence) (now : Moment) :
    Scheduler → Prop
  | stopped : s.running = false → Rescheduled s p cadence now s
  | armed {delay : Option Duration} : s.running = true →
      (load s.key p).timeUntilNext cadence now.now true s.retry = .ok delay →
      Rescheduled s p cadence now { s with timer := delay.map fun d => ⟨now.elapsed, d⟩ }

theorem reschedule_spec (done : s.reschedule p cadence now = .ok s') :
    Rescheduled s p cadence now s' := by
  unfold reschedule at done
  split at done
  · next running =>
      obtain ⟨delay, found, rfl⟩ := map_eq_ok.1 done
      rw [timeUntilNext, running] at found
      exact .armed running found
  · next stopped =>
      rw [← Except.ok.inj done]
      exact .stopped (by simpa using stopped)

theorem reschedule_error {fault : ClockFault} (failed : s.reschedule p cadence now = .error fault) :
    s.running = true ∧
      (load s.key p).timeUntilNext cadence now.now true s.retry = .error fault := by
  unfold reschedule at failed
  split at failed
  · next running =>
      refine ⟨running, ?_⟩
      rw [timeUntilNext, running] at failed
      cases found : (load s.key p).timeUntilNext cadence now.now true s.retry with
      | error e => rfl
      | ok delay =>
          rw [found] at failed
          cases failed
  · cases failed

/-- A request that is made at once needs no look at what is planned. -/
theorem completes_requestNow (s : Scheduler) (p : Preferences) (cadence : Cadence)
    (now : Moment) : Completes (s.requestNow p cadence now) := by
  unfold requestNow reschedule timeUntilNext TaskState.timeUntilNext
  rw [completes_map]
  split
  · rw [completes_map, load_save]
    split
    · exact completes_ok _
    · exact completes_ok _
  · exact completes_ok _

end Scheduler
end ProximityCert

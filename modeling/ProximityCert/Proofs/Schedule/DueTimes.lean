import ProximityCert.Proofs.Schedule.Progress

/-!
When a task is due does not depend on when that is asked. Behind the progress that a task can come to
there is one instant, or none, and from the last attempt on the time to the next request is always the
span to this instant. So a timer may be armed anew any number of times, and is armed for the same
instant each time.
-/

namespace ProximityCert

namespace TaskState

variable {s : TaskState} {cadence : Cadence} {running : Bool} {retry : RetryPolicy} {t u : Instant}

/-- Progress as it comes about: results are recorded, an interrupted request is made again, and the
marks of a request are set or taken back. -/
inductive Attained : TaskState → Prop
  | new : Attained {}
  | recorded {s : TaskState} (success : Bool) (now : Instant) :
      Attained s → Attained (s.recordResult success now)
  | recovered {s : TaskState} : Attained s → Attained s.recoverInterrupted.2
  | marked {s : TaskState} (pending waiting : Bool) : Attained s →
      Attained { s with pendingImmediateRequest := pending, waitingForResult := waiting }

/-- Whoever counts failures knows of an attempt. -/
theorem Attained.attempted (h : s.Attained) (failed : s.consecutiveFailures ≠ 0) :
    ∃ n, s.lastAttempt = some n := by
  induction h with
  | new => exact absurd rfl failed
  | recorded _ now _ _ => exact ⟨now.toUnixNanos, rfl⟩
  | @recovered s _ ih =>
      unfold recoverInterrupted at failed ⊢
      split at failed
      · next waiting =>
          rw [if_pos waiting]
          exact ih failed
      · next idle =>
          rw [if_neg idle]
          exact ih failed
  | marked _ _ _ ih => exact ih failed

/-- Whether a reading of the clock is not before the last attempt, as that is stored. -/
def Begun (s : TaskState) (now : Instant) : Prop :=
  ∀ n, s.lastAttempt = some n → Instant.ofUnixNanos n ≤ now

theorem Begun.later (h : s.Begun t) (later : t ≤ u) : s.Begun u :=
  fun n attempted => Int.le_trans (h n attempted) later

theorem begun_recordResult {success : Bool}
    (stored : Instant.ofUnixNanos t.toUnixNanos = t) (later : t ≤ u) :
    (s.recordResult success t).Begun u := by
  intro n attempted
  cases attempted
  rwa [stored]

/-- Whether the instant that a cadence looks at is one that the clock can hold. -/
def Plans (s : TaskState) : Cadence → Prop
  | .onDemand => True
  | .periodic period =>
    ∀ n, s.lastSuccess = some n → Completes ((Instant.ofUnixNanos n).plus period)
  | .expiration next => Completes next

/-- The span from a reading of the clock to an instant, none if that has passed. -/
def spanTo (due : Int) (now : Instant) : Nat := (due - now.nanos).toNat

theorem untilTarget_eq (now target : Instant) : untilTarget now target = spanTo target.nanos now := by
  unfold untilTarget Instant.since?
  split
  · rfl
  · next passed =>
      have before : target.nanos < now.nanos := Int.not_le.1 passed
      exact (Int.toNat_of_nonpos (by omega)).symm

/-- What is as old as the clock has passed. -/
theorem spanTo_first (now : Instant) : spanTo (-9223372036854775808000000000) now = 0 := by
  have lower := now.lower
  exact Int.toNat_of_nonpos (by omega)

/-- A later reading is nearer to what is due by the time that has gone by. -/
theorem spanTo_later (due : Int) (later : t ≤ u) :
    spanTo due u = spanTo (t.nanos + spanTo due t) u := by
  have passed : t.nanos ≤ u.nanos := later
  unfold spanTo
  omega

/-- A task is due at an instant, or not at all, whenever it is asked. -/
def DueAt (s : TaskState) (cadence : Cadence) (running : Bool) (retry : RetryPolicy)
    (due : Option Int) : Prop :=
  ∀ now, s.Begun now →
    s.timeUntilNext cadence now running retry = .ok (due.map (spanTo · now))

theorem dueAt_of_resting (rests : (!running || s.waitingForResult) = true) :
    s.DueAt cadence running retry none :=
  fun _ _ => if_pos rests

/-- What is due at once has been due ever since. -/
theorem dueAt_of_pending (idle : ¬ (!running || s.waitingForResult) = true)
    (pending : s.pendingImmediateRequest = true) :
    s.DueAt cadence running retry (some (-9223372036854775808000000000)) := by
  intro now _
  unfold timeUntilNext
  rw [if_neg idle, if_pos pending, Option.map_some, spanTo_first]

theorem dueAt_of_failed {n : Int64} (idle : ¬ (!running || s.waitingForResult) = true)
    (closed : ¬ s.pendingImmediateRequest = true) (failed : s.consecutiveFailures ≠ 0)
    (attempted : s.lastAttempt = some n) :
    s.DueAt cadence running retry
      (some (n.toInt + retry.delayFor s.consecutiveFailures.toNat)) := by
  intro now begun
  have later : Instant.ofUnixNanos n ≤ now := begun n attempted
  have order : n.toInt ≤ now.nanos := later
  have gone : now.since? (.ofUnixNanos n) = some (now.nanos - n.toInt).toNat := if_pos later
  have left (delay : Nat) : delay - (now.nanos - n.toInt).toNat = spanTo (n.toInt + delay) now := by
    unfold spanTo
    omega
  unfold timeUntilNext
  rw [if_neg idle, if_neg closed, if_pos failed, attempted, Option.bind_some, gone, Option.map_some,
    ← left]
  rfl

theorem dueAt_of_cadence (plans : s.Plans cadence)
    (idle : ¬ (!running || s.waitingForResult) = true)
    (closed : ¬ s.pendingImmediateRequest = true) (well : ¬ s.consecutiveFailures ≠ 0) :
    ∃ due, s.DueAt cadence running retry due := by
  cases cadence with
  | onDemand =>
      refine ⟨none, fun now _ => ?_⟩
      unfold timeUntilNext
      rw [if_neg idle, if_neg closed, if_neg well]
      rfl
  | expiration next =>
      obtain ⟨target, known⟩ := plans
      refine ⟨target.map Instant.nanos, fun now _ => ?_⟩
      unfold timeUntilNext
      rw [if_neg idle, if_neg closed, if_neg well, known, Option.map_map]
      exact congrArg (fun f => Except.ok (target.map f)) (funext (untilTarget_eq now))
  | periodic period =>
      cases succeeded : s.lastSuccess with
      | none =>
          refine ⟨some (-9223372036854775808000000000), fun now _ => ?_⟩
          unfold timeUntilNext
          rw [if_neg idle, if_neg closed, if_neg well, succeeded, Option.map_some, spanTo_first]
      | some n =>
          obtain ⟨target, known⟩ := plans n succeeded
          refine ⟨some target.nanos, fun now _ => ?_⟩
          unfold timeUntilNext
          rw [if_neg idle, if_neg closed, if_neg well, succeeded]
          dsimp only
          rw [known]
          exact congrArg (fun d => Except.ok (some d)) (untilTarget_eq now target)

theorem Attained.due (h : s.Attained) (plans : s.Plans cadence) (running : Bool)
    (retry : RetryPolicy) : ∃ due, s.DueAt cadence running retry due := by
  by_cases rests : (!running || s.waitingForResult) = true
  · exact ⟨none, dueAt_of_resting rests⟩
  · by_cases pending : s.pendingImmediateRequest = true
    · exact ⟨_, dueAt_of_pending rests pending⟩
    · by_cases failed : s.consecutiveFailures ≠ 0
      · obtain ⟨n, attempted⟩ := h.attempted failed
        exact ⟨_, dueAt_of_failed rests pending failed attempted⟩
      · exact dueAt_of_cadence plans rests pending failed

end TaskState

namespace Scheduler

variable {s : Scheduler} {p : Preferences} {cadence : Cadence} {m : Moment}

/-- Arms the timer anew at each of several moments. -/
def rescheduleAll (s : Scheduler) (p : Preferences) (cadence : Cadence) (moments : List Moment) :
    Except ClockFault Scheduler :=
  moments.foldlM (fun s m => s.reschedule p cadence m) s

/-- A scheduler as it is after a timer was armed for what is due, or as it was if it is stopped. -/
def armedFor (s : Scheduler) (due : Option Int) (m : Moment) : Scheduler :=
  if s.running then
    { s with timer := due.map fun d => ⟨m.elapsed, TaskState.spanTo d m.now⟩ }
  else s

@[simp] theorem armedFor_key (due : Option Int) : (s.armedFor due m).key = s.key := by
  unfold armedFor
  split <;> rfl

@[simp] theorem armedFor_retry (due : Option Int) : (s.armedFor due m).retry = s.retry := by
  unfold armedFor
  split <;> rfl

@[simp] theorem armedFor_running (due : Option Int) : (s.armedFor due m).running = s.running := by
  unfold armedFor
  split <;> rfl

/-- Of several timers the last one counts. -/
theorem armedFor_armedFor (due : Option Int) (m m' : Moment) :
    (s.armedFor due m).armedFor due m' = s.armedFor due m' := by
  by_cases running : s.running = true
  · simp [armedFor, running]
  · simp [armedFor, running]

theorem reschedule_of_dueAt {due : Option Int}
    (known : (load s.key p).DueAt cadence s.running s.retry due)
    (begun : (load s.key p).Begun m.now) : s.reschedule p cadence m = .ok (s.armedFor due m) := by
  unfold reschedule armedFor timeUntilNext
  rw [known m.now begun]
  split
  · cases due <;> rfl
  · rfl

/-- However often the timer is armed anew, it is armed for what is due. -/
theorem rescheduleAll_of_dueAt {due : Option Int} {last : Moment} {moments : List Moment}
    (known : (load s.key p).DueAt cadence s.running s.retry due)
    (begun : ∀ m ∈ moments ++ [last], (load s.key p).Begun m.now) :
    s.rescheduleAll p cadence (moments ++ [last]) = .ok (s.armedFor due last) := by
  induction moments generalizing s with
  | nil =>
      show (s.reschedule p cadence last >>= Except.ok) = _
      rw [reschedule_of_dueAt known (begun last List.mem_cons_self)]
      rfl
  | cons m moments ih =>
      -- Key, policy and running stay, so the rest is about the same progress and the same instant.
      have armed := reschedule_of_dueAt known (begun m List.mem_cons_self)
      have rest := ih (s := s.armedFor due m) (by simpa using known)
        (fun m' later => by simpa using begun m' (List.mem_cons_of_mem _ later))
      rw [armedFor_armedFor] at rest
      show (s.reschedule p cadence m >>= fun s => s.rescheduleAll p cadence (moments ++ [last])) = _
      rw [armed]
      exact rest

end Scheduler

/-- The time to the next request runs down as the clock goes on and is none if it was, so that a timer
which is armed anew, again and again, stays armed for the instant at which it was armed first. -/
theorem TaskState.due_unmoved {s : TaskState} {cadence : Cadence} {t : Instant}
    (attained : s.Attained) (plans : s.Plans cadence) (begun : s.Begun t) :
    (∀ (running : Bool) (retry : RetryPolicy) (u : Instant), t ≤ u →
      ∃ delay, s.timeUntilNext cadence t running retry = .ok delay ∧
        s.timeUntilNext cadence u running retry =
          .ok (delay.map fun (d : Duration) => (t.nanos + d - u.nanos).toNat)) ∧
    ∀ (scheduler : Scheduler) (p : Preferences) (first : Moment) (between : List Moment)
      (last : Moment), Scheduler.load scheduler.key p = s → first.now = t →
      (∀ m ∈ between ++ [last], t ≤ m.now) →
      ∃ armed, scheduler.reschedule p cadence first = .ok armed ∧
        armed.rescheduleAll p cadence (between ++ [last]) =
          .ok (if scheduler.running then
            { armed with
              timer := armed.timer.map fun timer =>
                ⟨last.elapsed, (t.nanos + timer.delay - last.now.nanos).toNat⟩ }
          else armed) := by
  constructor
  · intro running retry u later
    obtain ⟨due, known⟩ := attained.due plans running retry
    refine ⟨_, known t begun, ?_⟩
    rw [known u (begun.later later), Option.map_map]
    exact congrArg (fun span => Except.ok (due.map span)) (funext fun d => spanTo_later d later)
  · intro scheduler p first between last loaded here later
    obtain ⟨due, known⟩ := attained.due plans scheduler.running scheduler.retry
    subst loaded here
    refine ⟨_, Scheduler.reschedule_of_dueAt known begun, ?_⟩
    have same : (Scheduler.load (scheduler.armedFor due first).key p).DueAt cadence
        (scheduler.armedFor due first).running (scheduler.armedFor due first).retry due := by
      simpa using known
    rw [Scheduler.rescheduleAll_of_dueAt same fun m among => by
      simpa using begun.later (later m among), Scheduler.armedFor_armedFor]
    have order : first.now ≤ last.now := later last (by simp)
    unfold Scheduler.armedFor
    split
    · cases due with
      | none => rfl
      | some due =>
          simp only [Option.map_some]
          rw [spanTo_later due order]
          rfl
    · rfl

/-- Progress after two failures in a row, the second at a hundred seconds. -/
def TaskState.struggling : TaskState :=
  (({} : TaskState).recordResult false .epoch).recordResult false
    ⟨100000000000, by decide, by decide⟩

/-- With ten seconds to wait six are left after four and three after seven, and a timer armed at the
first reading and again at the second, for which nothing has changed, goes off at the same time. -/
theorem TaskState.due_unmoved_struggling :
    let first : Moment := ⟨⟨104000000000, by decide, by decide⟩, 4000⟩
    let last : Moment := ⟨⟨107000000000, by decide, by decide⟩, 7000⟩
    let retry : RetryPolicy := ⟨Duration.ofSeconds 5, Duration.ofHours 1⟩
    let scheduler : Scheduler := { key := "upload", retry, running := true }
    struggling.Attained ∧ struggling.Plans .onDemand ∧ struggling.Begun first.now ∧
    struggling.timeUntilNext .onDemand first.now true retry = .ok (some (Duration.ofSeconds 6)) ∧
    struggling.timeUntilNext .onDemand last.now true retry = .ok (some (Duration.ofSeconds 3)) ∧
    ∃ armed again,
      scheduler.reschedule (Scheduler.save "upload" .empty struggling) .onDemand first = .ok armed ∧
      armed.rescheduleAll (Scheduler.save "upload" .empty struggling) .onDemand [last] = .ok again ∧
      armed.timer.map Timer.due = some 10000 ∧ again.timer.map Timer.due = some 10000 := by
  intro first last retry scheduler
  have attained : struggling.Attained := .recorded false _ (.recorded false _ .new)
  have plans : struggling.Plans .onDemand := trivial
  have begun : struggling.Begun first.now := begun_recordResult (by decide +kernel) (by decide)
  have passes : first.now ≤ last.now := by decide
  have span : spanTo (Int64.toInt 100000000000 + retry.delayFor struggling.consecutiveFailures.toNat)
      first.now = Duration.ofSeconds 6 := by decide +kernel
  have left : struggling.timeUntilNext .onDemand first.now true retry =
      .ok (some (Duration.ofSeconds 6)) := by
    rw [dueAt_of_failed (n := 100000000000) (by decide) (by decide) (by decide) (by decide +kernel)
      first.now begun, Option.map_some, span]
  obtain ⟨runsDown, staysArmed⟩ := due_unmoved attained plans begun
  obtain ⟨delay, found, later⟩ := runsDown true retry last.now passes
  cases left.symm.trans found
  have less : (first.now.nanos + Duration.ofSeconds 6 - last.now.nanos).toNat =
      Duration.ofSeconds 3 := by decide +kernel
  rw [Option.map_some, less] at later
  obtain ⟨armed, arms, rearms⟩ := staysArmed scheduler (Scheduler.save "upload" .empty struggling)
    first [] last (Scheduler.load_save ..) rfl (by simpa using passes)
  have arm : scheduler.reschedule (Scheduler.save "upload" .empty struggling) .onDemand first =
      .ok { scheduler with timer := some ⟨4000, Duration.ofSeconds 6⟩ } := by
    unfold Scheduler.reschedule Scheduler.timeUntilNext
    rw [if_pos rfl, Scheduler.load_save, left]
    rfl
  cases arm.symm.trans arms
  exact ⟨attained, plans, begun, left, later, _, _, arms, rearms, by decide +kernel⟩

end ProximityCert

import ProximityCert.Proofs.Schedule.Progress
import ProximityCert.Schedule.Timeline

/-!
The life of a scheduler over one set of preferences. It is used in any order, its timer may fire
whenever it is armed, and it may be lost at any point and made anew. A clock fault ends an action once
its progress is stored, and leaves no timer. All the same no request is lost, and none is made twice:
an armed timer belongs to a running scheduler that awaits nothing, a request that is open is due at
once, and one that has fired is not made again before it was answered or given up.
-/

namespace ProximityCert

/-- A scheduler with the preferences that hold its progress. -/
structure Standing where
  scheduler : Scheduler
  preferences : Preferences

/-- What can happen to a scheduler: it is acted upon at some reading of the clocks, its timer fires if
it is armed, or a new one takes its place. -/
inductive Occurrence
  | act (action : TaskAction) (cadence : Cadence) (now : Moment) | timer
  | crash (retry : RetryPolicy)

namespace Occurrence

def action? : Occurrence → Option TaskAction
  | act action _ _ => some action
  | _ => none

/-- Whether a result is reported, or the scheduler is made anew. -/
def settles : Occurrence → Bool
  | act (.handleResult _) _ _ => true
  | crash _ => true
  | _ => false

/-- Whether a request that has fired may be made again: its result was reported, the scheduler made
anew, or it was stopped and later started. -/
def Reopens (es : List Occurrence) : Prop :=
  (∃ e ∈ es, e.settles = true) ∨
    ∃ before stop between start after, es = before ++ stop :: between ++ start :: after ∧
      stop.action? = some .stop ∧ start.action? = some .start

theorem Reopens.cons {es : List Occurrence} (h : Reopens es) (e : Occurrence) :
    Reopens (e :: es) := by
  rcases h with ⟨x, member, settled⟩ | ⟨before, stop, between, start, after, rfl, stops, starts⟩
  · exact .inl ⟨x, List.mem_cons_of_mem e member, settled⟩
  · exact .inr ⟨e :: before, stop, between, start, after, rfl, stops, starts⟩

end Occurrence

namespace Standing

variable {σ : Standing} {e : Occurrence} {es : List Occurrence}

def progress (σ : Standing) : TaskState := Scheduler.load σ.scheduler.key σ.preferences

/-- A new scheduler over stored progress. -/
def created (key : String) (retry : RetryPolicy) (p : Preferences) : Standing :=
  ⟨(Scheduler.create key retry p).1, (Scheduler.create key retry p).2⟩

/-- Where a clock fault ends an action: the progress is stored, and the timer is gone. -/
def interrupted (σ : Standing) (action : TaskAction) (now : Moment) : Standing :=
  let (s, p) := σ.scheduler.prepared σ.preferences now action
  ⟨{ s with timer := none }, p⟩

def react (σ : Standing) : Occurrence → Standing
  | .act action cadence now =>
    match σ.scheduler.act σ.preferences cadence now action with
    | .ok (s, p) => ⟨s, p⟩
    | .error _ => σ.interrupted action now
  | .timer =>
    if σ.scheduler.timer.isSome then
      ⟨(σ.scheduler.fire σ.preferences).2.1, (σ.scheduler.fire σ.preferences).2.2⟩
    else σ
  | .crash retry => created σ.scheduler.key retry σ.preferences

/-- Whether the task is asked to be run. -/
def fires (σ : Standing) : Occurrence → Bool
  | .timer => σ.scheduler.timer.isSome && (σ.scheduler.fire σ.preferences).1
  | _ => false

def replay (σ : Standing) : List Occurrence → Standing
  | [] => σ
  | e :: es => (σ.react e).replay es

/-- How often the task is asked to be run. -/
def firings (σ : Standing) : List Occurrence → Nat
  | [] => 0
  | e :: es => (if σ.fires e then 1 else 0) + (σ.react e).firings es

/-- A timer is armed only while its scheduler runs and awaits no result, and a request that is open
then is due at once. -/
structure Sound (σ : Standing) : Prop where
  idle : σ.scheduler.timer.isSome = true →
    σ.scheduler.running = true ∧ σ.progress.waitingForResult = false
  prompt : σ.scheduler.running = true → σ.progress.pendingImmediateRequest = true →
    σ.progress.waitingForResult = false → ∃ t, σ.scheduler.timer = some t ∧ t.delay = 0

theorem firings_cons_eq_zero : σ.firings (e :: es) = 0 ↔
    σ.fires e = false ∧ (σ.react e).firings es = 0 := by
  rw [firings]
  cases σ.fires e with
  | true => simp
  | false => simp

/-- Whatever an action comes to, it does what it does before it looks at the clock. -/
theorem react_act (σ : Standing) (action : TaskAction) (cadence : Cadence) (now : Moment) :
    ∃ timer, σ.react (.act action cadence now) =
      ⟨{ (σ.scheduler.prepared σ.preferences now action).1 with timer },
        (σ.scheduler.prepared σ.preferences now action).2⟩ := by
  rw [react]
  split
  · next s p done =>
      rw [Scheduler.act_eq] at done
      split at done
      · obtain ⟨t, rearmed, same⟩ := map_eq_ok.1 done
        cases same
        cases Scheduler.reschedule_spec rearmed with
        | stopped _ => exact ⟨_, rfl⟩
        | armed _ _ => exact ⟨_, rfl⟩
      · rw [Except.ok.inj done]
        exact ⟨s.timer, rfl⟩
  · exact ⟨none, rfl⟩

namespace Sound

variable {s s' : Scheduler} {p : Preferences}

theorem created (key : String) (retry : RetryPolicy) (p : Preferences) :
    (created key retry p).Sound where
  idle armed := nomatch armed
  prompt running := nomatch running

theorem rescheduled {cadence : Cadence} {now : Moment}
    (own : s.timer.isSome = true → s.running = true)
    (done : Scheduler.Rescheduled s p cadence now s') : Sound ⟨s', p⟩ := by
  cases done with
  | stopped idle =>
      constructor
      · intro armed
        exact absurd (own armed) (by simp [idle])
      · intro running
        exact absurd running (by simp [idle])
  | @armed delay running found =>
      constructor
      · intro armed
        refine ⟨running, ?_⟩
        cases waiting : (Scheduler.load s.key p).waitingForResult with
        | false => exact waiting
        | true =>
            rw [TaskState.timeUntilNext_of_waiting waiting] at found
            rw [← Except.ok.inj found] at armed
            cases armed
      · intro _ (pending : (Scheduler.load s.key p).pendingImmediateRequest = true) idle
        rw [TaskState.timeUntilNext_of_pending (t := Scheduler.load s.key p) idle pending] at found
        rw [← Except.ok.inj found]
        exact ⟨_, rfl, rfl⟩

/-- While a request is open and none is awaited, the clock is not looked at and no fault can occur. -/
theorem interrupted {cadence : Cadence} {now : Moment} {fault : ClockFault}
    (failed : s.reschedule p cadence now = .error fault) : Sound ⟨{ s with timer := none }, p⟩ := by
  obtain ⟨_, beyond⟩ := Scheduler.reschedule_error failed
  constructor
  · intro armed
    cases armed
  · intro _ (pending : (Scheduler.load s.key p).pendingImmediateRequest = true) idle
    rw [TaskState.timeUntilNext_of_pending (t := Scheduler.load s.key p) idle pending] at beyond
    cases beyond

theorem prepared (h : σ.Sound) {action : TaskAction} {now : Moment}
    (armed : (σ.scheduler.prepared σ.preferences now action).1.timer.isSome = true)
    (rearms : σ.scheduler.rearms action = true) :
    (σ.scheduler.prepared σ.preferences now action).1.running = true := by
  cases action with
  | start =>
      have stopped : σ.scheduler.running = false := by simpa [Scheduler.rearms] using rearms
      simp [Scheduler.prepared, stopped]
  | stop => cases rearms
  | requestNow => cases armed
  | reschedule => exact (h.idle armed).1
  | handleResult success => exact (h.idle armed).1

theorem stop (h : σ.Sound) : Sound ⟨σ.scheduler.stop, σ.preferences⟩ := by
  unfold Scheduler.stop
  split
  · exact ⟨(nomatch ·), (nomatch ·)⟩
  · exact h

theorem act (h : σ.Sound) (action : TaskAction) (cadence : Cadence) (now : Moment) :
    (σ.react (.act action cadence now)).Sound := by
  rw [react]
  split
  · next s p done =>
      rw [Scheduler.act_eq] at done
      split at done
      · next rearms =>
          obtain ⟨t, rearmed, same⟩ := map_eq_ok.1 done
          cases same
          exact rescheduled (fun armed => h.prepared armed rearms)
            (Scheduler.reschedule_spec rearmed)
      · next still =>
          have same := Except.ok.inj done
          cases action with
          | start =>
              have running : σ.scheduler.running = true := by simpa [Scheduler.rearms] using still
              rw [Scheduler.prepared, if_pos running] at same
              cases same
              exact h
          | stop =>
              cases same
              exact h.stop
          | requestNow | reschedule | handleResult => exact absurd rfl still
  · next fault failed =>
      rw [Scheduler.act_eq] at failed
      split at failed
      · cases anew : (σ.scheduler.prepared σ.preferences now action).1.reschedule
            (σ.scheduler.prepared σ.preferences now action).2 cadence now with
        | ok t =>
            rw [anew] at failed
            cases failed
        | error fault => exact interrupted anew
      · cases failed

theorem fire (h : σ.Sound) : (σ.react .timer).Sound := by
  rw [react]
  split
  · unfold Scheduler.fire
    dsimp only
    split
    · refine ⟨(nomatch ·), fun _ _ idle => ?_⟩
      rw [progress] at idle
      dsimp only at idle
      rw [Scheduler.load_save] at idle
      cases idle
    · next stopped => exact ⟨(nomatch ·), fun running => absurd running stopped⟩
  · exact h

theorem react (h : σ.Sound) (e : Occurrence) : (σ.react e).Sound := by
  cases e with
  | act action cadence now => exact h.act action cadence now
  | timer => exact h.fire
  | crash retry => exact created _ _ _

theorem replay (h : σ.Sound) (es : List Occurrence) : (σ.replay es).Sound := by
  induction es generalizing σ with
  | nil => exact h
  | cons e es ih => exact ih (h.react e)

end Sound

theorem progress_act (σ : Standing) (action : TaskAction) (cadence : Cadence) (now : Moment) :
    (σ.react (.act action cadence now)).progress =
      Scheduler.load σ.scheduler.key (σ.scheduler.prepared σ.preferences now action).2 := by
  obtain ⟨timer, same⟩ := react_act σ action cadence now
  rw [same, progress]
  dsimp only
  rw [Scheduler.prepared_key]

theorem running_act (σ : Standing) (action : TaskAction) (cadence : Cadence) (now : Moment) :
    (σ.react (.act action cadence now)).scheduler.running =
      (σ.scheduler.prepared σ.preferences now action).1.running := by
  obtain ⟨timer, same⟩ := react_act σ action cadence now
  rw [same]

theorem fires_timer : σ.fires .timer = true ↔
    σ.scheduler.timer.isSome = true ∧ σ.scheduler.running = true := by
  unfold fires Scheduler.fire
  dsimp only
  split
  · next running => simp [running]
  · next stopped => simp [stopped]

/-- An open request stays stored through everything but the firing that makes it. -/
theorem pending_react (pending : σ.progress.pendingImmediateRequest = true)
    (unfired : σ.fires e = false) : (σ.react e).progress.pendingImmediateRequest = true := by
  cases e with
  | act action cadence now =>
      rw [progress_act]
      cases action with
      | start =>
          rw [Scheduler.prepared]
          split
          · exact pending
          · rw [Scheduler.load_recover]
            exact TaskState.recoverInterrupted_pending pending
      | stop => exact pending
      | requestNow =>
          rw [Scheduler.prepared, Scheduler.load_save]
      | reschedule => exact pending
      | handleResult success =>
          rw [Scheduler.prepared, Scheduler.load_save]
          exact pending
  | timer =>
      rw [react]
      split
      · next armed =>
          have stopped : σ.scheduler.running = false := by
            cases running : σ.scheduler.running with
            | false => rfl
            | true => exact absurd (fires_timer.2 ⟨armed, running⟩) (by simp [unfired])
          simpa [progress, Scheduler.fire, stopped] using pending
      · exact pending
  | crash retry =>
      show (Scheduler.load σ.scheduler.key (Scheduler.recover σ.scheduler.key
        σ.preferences)).pendingImmediateRequest = true
      rw [Scheduler.load_recover]
      exact TaskState.recoverInterrupted_pending pending

theorem pending_replay (pending : σ.progress.pendingImmediateRequest = true)
    (unfired : σ.firings es = 0) : (σ.replay es).progress.pendingImmediateRequest = true := by
  induction es generalizing σ with
  | nil => exact pending
  | cons e es ih =>
      obtain ⟨first, later⟩ := firings_cons_eq_zero.1 unfired
      exact ih (pending_react pending first) later

theorem fires_eq_false (calm : e = .timer → σ.scheduler.timer.isSome = false) :
    σ.fires e = false := by
  cases e with
  | act action cadence now => rfl
  | timer => simp [fires, calm rfl]
  | crash retry => rfl

/-- A stopped scheduler does nothing until it is started or made anew. -/
theorem firings_of_stopped (h : σ.Sound) (stopped : σ.scheduler.running = false)
    (calm : ∀ e ∈ es, e.settles = false ∧ e.action? ≠ some .start) : σ.firings es = 0 := by
  induction es generalizing σ with
  | nil => rfl
  | cons e es ih =>
      have unarmed : σ.scheduler.timer.isSome = false := by
        cases armed : σ.scheduler.timer.isSome with
        | false => rfl
        | true => exact absurd (h.idle armed).1 (by simp [stopped])
      obtain ⟨⟨unsettled, unstarted⟩, later⟩ := List.forall_mem_cons.1 calm
      refine firings_cons_eq_zero.2 ⟨fires_eq_false fun _ => unarmed, ih (h.react e) ?_ later⟩
      cases e with
      | act action cadence now =>
          rw [running_act]
          cases action with
          | start => exact absurd rfl unstarted
          | stop => simp [Scheduler.prepared, Scheduler.stop, stopped]
          | requestNow => exact stopped
          | reschedule => exact stopped
          | handleResult success => cases unsettled
      | timer =>
          rw [react, unarmed]
          exact stopped
      | crash retry => cases unsettled

/-- A scheduler that awaits a result does not fire again before its request may be made again. -/
theorem firings_of_awaiting (h : σ.Sound) (running : σ.scheduler.running = true)
    (waiting : σ.progress.waitingForResult = true) (closed : ¬ Occurrence.Reopens es) :
    σ.firings es = 0 := by
  induction es generalizing σ with
  | nil => rfl
  | cons e es ih =>
      have unarmed : σ.scheduler.timer.isSome = false := by
        cases armed : σ.scheduler.timer.isSome with
        | false => rfl
        | true => exact absurd (h.idle armed).2 (by simp [waiting])
      have later : ¬ Occurrence.Reopens es := fun opens => closed (opens.cons e)
      have unsettled : e.settles = false := by
        cases settled : e.settles with
        | false => rfl
        | true => exact absurd (.inl ⟨e, List.mem_cons_self, settled⟩) closed
      refine firings_cons_eq_zero.2 ⟨fires_eq_false fun _ => unarmed, ?_⟩
      cases e with
      | act action cadence now =>
          cases action with
          | start =>
              refine ih (h.react _) ?_ ?_ later
              · rw [running_act, Scheduler.prepared, if_pos running]
                exact running
              · rw [progress_act, Scheduler.prepared, if_pos running]
                exact waiting
          | stop =>
              refine firings_of_stopped (h.react _) ?_ ?_
              · rw [running_act]
                simp [Scheduler.prepared, Scheduler.stop, running]
              · intro e member
                obtain ⟨between, after, rfl⟩ := List.append_of_mem member
                refine ⟨?_, fun started => closed (.inr ⟨[], _, between, e, after, rfl, rfl, started⟩)⟩
                cases settled : e.settles with
                | false => rfl
                | true => exact absurd (.inl ⟨e, member, settled⟩) later
          | requestNow =>
              refine ih (h.react _) ?_ ?_ later
              · rw [running_act]
                exact running
              · rw [progress_act, Scheduler.prepared, Scheduler.load_save]
                exact waiting
          | reschedule =>
              refine ih (h.react _) ?_ ?_ later
              · rw [running_act]
                exact running
              · rw [progress_act]
                exact waiting
          | handleResult success => cases unsettled
      | timer =>
          rw [react, unarmed]
          exact ih h running waiting later
      | crash retry => cases unsettled

/-- After a timer has fired, its scheduler runs and awaits a result. -/
theorem awaiting_of_fired (fired : σ.fires .timer = true) :
    (σ.react .timer).scheduler.running = true ∧
      (σ.react .timer).progress.waitingForResult = true := by
  obtain ⟨armed, running⟩ := fires_timer.1 fired
  rw [react, if_pos armed]
  refine ⟨?_, ?_⟩
  · simp [Scheduler.fire, running]
  · simp [Scheduler.fire, running, progress]

/-- However a scheduler over any stored progress is used, interrupted and made anew, it is sound at any
point; from a firing on it does not fire until its request may be made again; and a request for the task
stays stored from its making to the next firing. -/
theorem requests_kept_and_made_once (key : String) (retry : RetryPolicy) (p : Preferences)
    (es : List Occurrence) :
    ((created key retry p).replay es).Sound ∧
    (((created key retry p).replay es).fires .timer = true → ∀ later, ¬ Occurrence.Reopens later →
      (((created key retry p).replay es).react .timer).firings later = 0) ∧
    ∀ cadence now later,
      (((created key retry p).replay es).react (.act .requestNow cadence now)).firings later = 0 →
      ((((created key retry p).replay es).react (.act .requestNow cadence now)).replay
        later).progress.pendingImmediateRequest = true := by
  have sound := (Sound.created key retry p).replay es
  refine ⟨sound, ?_, ?_⟩
  · intro fired later closed
    obtain ⟨running, waiting⟩ := awaiting_of_fired fired
    exact firings_of_awaiting (sound.react .timer) running waiting closed
  · intro cadence now later unfired
    refine pending_replay ?_ unfired
    rw [progress_act, Scheduler.prepared, Scheduler.load_save]

namespace Hasty

def moment : Moment := ⟨Instant.epoch, 0⟩

/-- A request made while stopped, which a start makes due. -/
def before : List Occurrence := [.act .requestNow .onDemand moment, .act .start .onDemand moment]

/-- Another request while the first one is awaited, which even a stop does not let through. -/
def after : List Occurrence :=
  [.act .requestNow .onDemand moment, .act .stop .onDemand moment, .timer]

def standing : Standing := (created "task" ⟨1, 2⟩ .empty).replay before

end Hasty

theorem requests_kept_and_made_once_hasty :
    Hasty.standing.fires .timer = true ∧ ¬ Occurrence.Reopens Hasty.after ∧
      (Hasty.standing.react .timer).firings Hasty.after = 0 ∧
      ((Hasty.standing.react .timer).replay Hasty.after).progress.pendingImmediateRequest = true := by
  have fired : Hasty.standing.fires .timer = true := by decide +kernel
  have closed : ¬ Occurrence.Reopens Hasty.after := by
    rintro (⟨e, member, settled⟩ | ⟨before, stop, between, start, after, _, _, started⟩)
    · simp only [Hasty.after, List.mem_cons, List.not_mem_nil, or_false] at member
      rcases member with rfl | rfl | rfl <;> cases settled
    · have member : start ∈ Hasty.after := by simp [*]
      simp only [Hasty.after, List.mem_cons, List.not_mem_nil, or_false] at member
      rcases member with rfl | rfl | rfl <;> cases started
  have once := (requests_kept_and_made_once "task" ⟨1, 2⟩ .empty Hasty.before).2.1 fired
  have kept := (requests_kept_and_made_once "task" ⟨1, 2⟩ .empty (Hasty.before ++ [.timer])).2.2
    .onDemand Hasty.moment [.act .stop .onDemand Hasty.moment, .timer] (by decide +kernel)
  exact ⟨fired, closed, once Hasty.after closed, kept⟩

end Standing

namespace ScheduledTask

variable {t t' : ScheduledTask}

def standing (t : ScheduledTask) : Standing := ⟨t.scheduler, t.preferences⟩

theorem apply_standing (action : TaskAction)
    (done : t.apply (fun s p cadence m => s.act p cadence m action) = .ok t') :
    ∃ e, t'.standing = t.standing.react e := by
  obtain ⟨m, _, applied⟩ := bind_eq_ok.1 done
  obtain ⟨⟨s, p⟩, acted, same⟩ := bind_eq_ok.1 applied
  refine ⟨.act action t.cadence m, ?_⟩
  dsimp only at acted
  rw [Standing.react]
  dsimp only [standing]
  rw [acted, ← Except.ok.inj same]

theorem fireBy_standing {elapsed : Nat} (done : t.fireBy elapsed = .ok t') :
    t'.standing = t.standing ∨ t'.standing = t.standing.react .timer := by
  unfold fireBy at done
  split at done
  · exact .inl (Except.ok.inj done ▸ rfl)
  · next due found =>
      obtain ⟨m, _, fired⟩ := bind_eq_ok.1 done
      have armed : t.standing.scheduler.timer.isSome = true := by
        rw [standing]
        cases timer : t.scheduler.timer with
        | none => simp [Scheduler.dueBy, timer] at found
        | some timer => rfl
      refine .inr ?_
      rw [Standing.react, if_pos armed]
      dsimp only [standing]
      split at fired
      · next result =>
          rw [← Except.ok.inj fired, result]
      · next result =>
          rw [← Except.ok.inj fired, result]

/-- Whatever else happens to a scheduled task, its scheduler goes through such occurrences only. -/
theorem step_standing {e : Event} (done : t.step e = .ok t')
    (foreign : ∀ value, e ≠ .store value) (lasting : e ≠ .forget) :
    ∃ es, t'.standing = t.standing.replay es := by
  have one : (∃ o, t'.standing = t.standing.react o) → ∃ es, t'.standing = t.standing.replay es :=
    fun ⟨o, same⟩ => ⟨[o], same⟩
  cases e with
  | start => exact one (apply_standing .start done)
  | stop => exact one ⟨.act .stop t.cadence ⟨Instant.epoch, 0⟩, Except.ok.inj done ▸ rfl⟩
  | requestNow => exact one (apply_standing .requestNow done)
  | result success => exact one (apply_standing (.handleResult success) done)
  | reschedule => exact one (apply_standing .reschedule done)
  | restart => exact one ⟨.crash t.scheduler.retry, Except.ok.inj done ▸ rfl⟩
  | advance millis =>
      obtain ⟨fired, passed, same⟩ := bind_eq_ok.1 done
      rw [← Except.ok.inj same]
      rcases fireBy_standing passed with same | same
      · exact ⟨[], same⟩
      · exact ⟨[.timer], same⟩
  | setClock now => exact ⟨[], Except.ok.inj done ▸ rfl⟩
  | expiresAt next => exact ⟨[], Except.ok.inj done ▸ rfl⟩
  | store value => exact absurd rfl (foreign value)
  | forget => exact absurd rfl lasting

end ScheduledTask
end ProximityCert

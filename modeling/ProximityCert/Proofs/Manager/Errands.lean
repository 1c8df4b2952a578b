import ProximityCert.Manager.Loop
import ProximityCert.Proofs.Manager.Attendance
import ProximityCert.Proofs.Manager.Runs

/-!
The worker in the midst of its tasks. A task is carried out in parts, and between two of them, as
between two commands, timers fire, commands come in, the clocks are set and the surroundings change.
All the same no request is stuck: while a scheduler awaits a result, the run of its task is in the queue
or has been begun, and while the manager runs, the next renewal is on its way.
-/

namespace ProximityCert

/-- How far a task has got that the worker has begun. -/
inductive Errand
  | begun (kind : TaskKind)
  /-- An upload was told that contacts were removed. -/
  | removed
  /-- The certificates of that upload were made anew and are to be published again. -/
  | renewed
  | worked (kind : TaskKind) (success : Bool)

def Errand.kind : Errand → TaskKind
  | begun kind | worked kind _ => kind
  | removed | renewed => .upload

/-- How many parts a task has left at most. -/
def Errand.parts : Errand → Nat
  | begun _ => 4
  | removed => 3
  | renewed => 2
  | worked _ _ => 1

namespace Manager

variable {m m' : Manager} {now : Moment}

theorem create_driven (config : ManagerConfig) (device : Device) (account : Option Account)
    (store : Store) (entropy : Entropy) : (create config device account store true entropy).Driven := by
  intro kind
  have found := Tasks.get_scheduled (.ofConfig config) store.preferences kind
  exact ⟨_, found, rfl, rfl, fun _ running => nomatch running⟩

/-- Carries out the next part of a task, and tells what is left of it. -/
def carryOut (m : Manager) (now : Moment) : Errand → Except Interrupted (Option Errand × Manager)
  | .begun .upload =>
    if m.account.isNone then .ok (some (.worked .upload true), m)
    else
      (m.publish false now).map fun
        | (none, m) => (some (.worked .upload false), m)
        | (some false, m) => (some (.worked .upload true), m)
        | (some true, m) => (some .removed, m)
  | .begun kind => (m.work now kind).map fun (success, m) => (some (.worked kind success), m)
  | .removed => do
    let (refreshed, m) ← m.clearPrivate.refresh false now
    let m ← m.act .refresh (.handleResult refreshed) now
    return (some (if refreshed then .renewed else .worked .upload false), m)
  | .renewed => (m.publish true now).map fun (removed, m) => (some (.worked .upload removed.isSome), m)
  | .worked kind success => (m.act kind (.handleResult success) now).map fun m => (none, m)

/-- What is left of a task, all at one moment. -/
def finish (m : Manager) (now : Moment) : Option Errand → Except Interrupted Manager
  | none => .ok m
  | some (.worked kind success) => m.act kind (.handleResult success) now
  | some .renewed => do
    let (removed, m) ← m.publish true now
    m.act .upload (.handleResult removed.isSome) now
  | some .removed => do
    let (refreshed, m) ← m.clearPrivate.refresh false now
    let m ← m.act .refresh (.handleResult refreshed) now
    if refreshed then
      let (removed, m) ← m.publish true now
      m.act .upload (.handleResult removed.isSome) now
    else m.act .upload (.handleResult false) now
  | some (.begun kind) => m.complete kind now

theorem carryOut_begun (m : Manager) (now : Moment) {kind : TaskKind} (other : kind ≠ .upload) :
    m.carryOut now (.begun kind) =
      (m.work now kind).map fun (success, m) => (some (.worked kind success), m) := by
  cases kind with
  | upload => exact absurd rfl other
  | refresh | cleanup | download => rfl

/-- The parts of a task, one after the other, make up the task. -/
theorem finish_eq (m : Manager) (now : Moment) (e : Errand) :
    m.finish now (some e) = (m.carryOut now e).bind fun (next, m) => m.finish now next := by
  cases e with
  | worked kind success =>
      rw [finish, carryOut]
      cases m.act kind (.handleResult success) now with
      | error f => rfl
      | ok m' => rfl
  | renewed =>
      rw [finish, carryOut]
      cases m.publish true now with
      | error f => rfl
      | ok published => rfl
  | removed =>
      rw [finish, carryOut]
      cases m.clearPrivate.refresh false now with
      | error f => rfl
      | ok refreshed =>
          obtain ⟨success, m₁⟩ := refreshed
          dsimp only [bind, Except.bind]
          cases m₁.act .refresh (.handleResult success) now with
          | error f => rfl
          | ok m₂ =>
              cases success with
              | true => rfl
              | false => rfl
  | begun kind =>
      rw [finish, complete]
      by_cases other : kind ≠ .upload
      · rw [carryOut_begun m now other]
        cases m.work now kind with
        | error f => rfl
        | ok r => rfl
      · rw [of_not_not other, carryOut, work, upload]
        split
        · rfl
        · cases m.publish false now with
          | error f => rfl
          | ok published =>
              obtain ⟨removed, m₁⟩ := published
              rcases removed with _ | _ | _
              · rfl
              · rfl
              · dsimp only [bind, Except.bind, Except.map, finish]
                cases m₁.clearPrivate.refresh false now with
                | error f => rfl
                | ok refreshed =>
                    obtain ⟨success, m₂⟩ := refreshed
                    dsimp only
                    cases m₂.act .refresh (.handleResult success) now with
                    | error f => rfl
                    | ok m₃ =>
                        cases success with
                        | true =>
                            dsimp only
                            cases m₃.publish true now with
                            | error f => rfl
                            | ok again => rfl
                        | false => rfl

theorem Leaves.any {α : Type} (x : Except Interrupted α) :
    Leaves (fun _ => True) (fun _ => True) x := by
  cases x with
  | error f => trivial
  | ok a => trivial

/-- Each part leaves fewer of the same task. -/
theorem carryOut_parts (m : Manager) (now : Moment) (e : Errand) :
    Leaves (fun _ => True) (fun r => ∀ next, r.1 = some next →
      next.kind = e.kind ∧ next.parts < e.parts) (m.carryOut now e) := by
  cases e with
  | worked kind success =>
      apply Leaves.map
      exact (Leaves.any _).mono (fun _ => id) fun _ _ _ same => nomatch same
  | renewed =>
      apply Leaves.map
      refine (Leaves.any _).mono (fun _ => id) fun _ _ _ same => ?_
      cases same
      exact ⟨rfl, Nat.lt_succ_self _⟩
  | removed =>
      rw [carryOut]
      apply (Leaves.any _).bind
      rintro ⟨refreshed, m₁⟩ _
      apply (Leaves.any _).bind
      intro m₂ _ next same
      cases same
      cases refreshed with
      | true => exact ⟨rfl, by decide⟩
      | false => exact ⟨rfl, by decide⟩
  | begun kind =>
      by_cases other : kind ≠ .upload
      · rw [carryOut_begun m now other]
        apply Leaves.map
        refine (Leaves.any _).mono (fun _ => id) fun _ _ _ same => ?_
        cases same
        exact ⟨rfl, by simp [Errand.parts]⟩
      · rw [of_not_not other, carryOut]
        split
        · intro next same
          cases same
          exact ⟨rfl, by decide⟩
        · apply Leaves.map
          refine (Leaves.any _).mono (fun _ => id) ?_
          rintro ⟨_ | _ | _, m₁⟩ _ next same
          · cases same
            exact ⟨rfl, by decide⟩
          · cases same
            exact ⟨rfl, by decide⟩
          · cases same
            exact ⟨rfl, by decide⟩

theorem work_tended (h : m.Driven) {kind : TaskKind} (other : kind ≠ .upload) (now : Moment) :
    Leaves (fun _ => True) (fun r => Tended m r.2) (m.work now kind) := by
  cases kind with
  | refresh => exact refresh_tended h true now
  | cleanup => exact removeExpired_tended h now
  | download => exact download_tended h now
  | upload => exact absurd rfl other

/-- A part makes no scheduler await a result, and the last one leaves the scheduler of its task awaiting
none. -/
theorem carryOut_tended (h : m.Driven) (now : Moment) (e : Errand) :
    Leaves (fun _ => True) (fun r => Tended m r.2 ∧ (r.1 = none → ¬ r.2.Awaits e.kind))
      (m.carryOut now e) := by
  cases e with
  | worked kind success =>
      apply Leaves.map
      apply (report_tended h kind success now).mono (fun _ => id)
      exact fun m' reported => ⟨reported.1, fun _ => reported.2⟩
  | renewed =>
      apply Leaves.map
      apply (publish_tended h true now).mono (fun _ => id)
      exact fun r published => ⟨published, fun last => nomatch last⟩
  | removed =>
      have cleared := clearPrivate_tended h
      apply (cleared.before (refresh_tended cleared.driven false now)).bind
      rintro ⟨refreshed, m₁⟩ renewed
      apply (renewed.before (act_tended renewed.driven .refresh (fun _ => rfl) now)).bind
      exact fun m₂ reported => ⟨reported, fun last => nomatch last⟩
  | begun kind =>
      by_cases other : kind ≠ .upload
      · rw [carryOut_begun m now other]
        apply Leaves.map
        apply (work_tended h other now).mono (fun _ => id)
        exact fun r worked => ⟨worked, fun last => nomatch last⟩
      · rw [of_not_not other, carryOut]
        split
        · exact ⟨.refl h, fun last => nomatch last⟩
        · apply Leaves.map
          apply (publish_tended h false now).mono (fun _ => id)
          rintro ⟨_ | _ | _, m₁⟩ published
          · exact ⟨published, fun last => nomatch last⟩
          · exact ⟨published, fun last => nomatch last⟩
          · exact ⟨published, fun last => nomatch last⟩

end Manager

namespace ManagerLoop

open Manager

variable {l l' : ManagerLoop} {e : Option Errand} {now : Moment}

/-- The worker carries out the next part of the task that it has begun. -/
def carryOn (l : ManagerLoop) (now : Moment) (e : Errand) : ManagerLoop × Option Errand :=
  match l.manager.carryOut now e with
  | .ok (next, manager) => ({ l with manager, executing := next.map Errand.kind }, next)
  | .error f => (l.ended f, none)

/-- What can have become of a manager and its worker, whose task has got so far. -/
inductive Reached : ManagerLoop → Option Errand → Prop
  | created (config : ManagerConfig) (device : Device) (account : Option Account)
      (preferences : Preferences) (database : Database) (maxAttempts : Nat) (entropy : Entropy)
      (timeline : Timeline) :
      Reached
        { manager := .create config device account (.create preferences database maxAttempts) true
            entropy
          timeline } none
  | enqueued {l : ManagerLoop} {e : Option Errand} (c : Command) :
      Reached l e → Reached (l.enqueue c) e
  | fired {l : ManagerLoop} {e : Option Errand} (kind : TaskKind) :
      Reached l e → Reached (l.fire kind) e
  /-- The worker takes the next command, and begins a task or carries out anything else. -/
  | taken {l l' : ManagerLoop} :
      Reached l none → l.work = .ok l' → Reached l' (l'.executing.map .begun)
  | carried {l : ManagerLoop} {e : Errand} {now : Moment} :
      Reached l (some e) → l.timeline.moment = .ok now →
      Reached (l.carryOn now e).1 (l.carryOn now e).2
  /-- Time passes, or the clock is set. -/
  | passed {l : ManagerLoop} {e : Option Errand} (timeline : Timeline) :
      Reached l e → Reached { l with timeline } e
  /-- Anything may change but the progress of the tasks. -/
  | surroundings {l : ManagerLoop} {e : Option Errand} {store : Store} (device : Device)
      (account : Option Account) (service : Service) (observers : Observers) : Reached l e →
      (∀ kind : TaskKind, l.manager.store.SameAt kind.key store) →
      Reached
        { l with manager := { l.manager with device, account, service, observers, store } } e

/-- While a scheduler awaits a result, the run of its task is in the queue or has been begun. -/
structure Attended (l : ManagerLoop) (e : Option Errand) : Prop where
  executing : l.executing = e.map Errand.kind
  driven : l.manager.Driven
  answered : l.manager.running = true → ∀ kind, l.manager.Awaits kind →
    .run kind ∈ l.queue ∨ l.executing = some kind

namespace Attended

theorem enqueue (h : Attended l e) (c : Command) : Attended (l.enqueue c) e := by
  unfold ManagerLoop.enqueue
  split
  · refine ⟨h.executing, h.driven, fun running kind waiting => ?_⟩
    exact (h.answered running kind waiting).imp_left (List.mem_append_left _)
  · exact h

theorem fire (h : Attended l e) (alive : l.alive = true) (kind : TaskKind) :
    Attended (l.fire kind) e := by
  obtain ⟨s, minds⟩ := h.driven kind
  have touched := fired_touched minds
  have driven := fired_driven h.driven minds
  unfold ManagerLoop.fire
  rw [minds.found]
  dsimp only
  split
  · exact h
  · split
    · next asked =>
        rw [ManagerLoop.enqueue, if_pos alive]
        refine ⟨h.executing, driven, fun running other waiting => ?_⟩
        by_cases same : other = kind
        · rw [same]
          exact .inl (List.mem_append_right _ List.mem_cons_self)
        · have before := h.answered running other (waiting.of_same (touched.stored other same))
          exact before.imp_left (List.mem_append_left _)
    · next silent =>
        refine ⟨h.executing, driven, fun running => ?_⟩
        have runs : s.running = true := minds.running.trans running
        rw [Scheduler.fire, if_pos runs] at silent
        exact absurd rfl silent

/-- A manager that is tended needs no more runs than it did. -/
theorem tended {m : Manager} (h : Attended l e) (tended : Tended l.manager m) :
    Attended { l with manager := m } e where
  executing := h.executing
  driven := tended.driven
  answered running kind waiting :=
    h.answered (tended.running ▸ running) kind (tended.awaits kind waiting)

/-- A run that the worker takes is begun, and no other command answers for one. -/
theorem take (h : Attended l none) (worked : l.work = .ok l') (alive : l'.alive = true) :
    Attended l' (l'.executing.map .begun) := by
  have idle : l.executing = none := h.executing
  obtain ⟨now, _, worked⟩ := bind_eq_ok.1 worked
  split at worked
  · next busy => exact nomatch idle.symm.trans busy
  · rw [← Except.ok.inj worked, idle]
    exact h
  · next task queue _ first =>
      rw [← Except.ok.inj worked]
      dsimp only
      split
      · next running =>
          refine ⟨rfl, h.driven, fun _ kind waiting => ?_⟩
          rcases h.answered running kind waiting with queued | begun
          · rw [first] at queued
            rcases List.mem_cons.1 queued with same | later
            · cases same
              exact .inr rfl
            · exact .inl later
          · exact nomatch idle.symm.trans begun
      · next stopped => exact ⟨rfl, h.driven, fun running => absurd running stopped⟩
  · next c queue other _ first =>
      have performed := perform_driven h.driven now (c := c) fun kind same => other kind same
      rw [← Except.ok.inj worked] at alive ⊢
      cases result : l.manager.perform now c with
      | error f =>
          rw [result] at alive
          cases alive
      | ok r =>
          rw [result] at performed
          have left : Attended { l with queue, manager := r.2 } none := by
            refine ⟨idle, performed.1, fun running kind waiting => .inl ?_⟩
            obtain ⟨ran, waited⟩ := performed.2 running kind waiting
            rcases h.answered ran kind waited with queued | begun
            · rw [first] at queued
              exact (List.mem_cons.1 queued).resolve_left fun same => other kind same.symm
            · exact nomatch idle.symm.trans begun
          have still : (goOn { l with queue } (Except.map Prod.snd (.ok r))).executing = none := idle
          rw [still]
          exact left

theorem carryOn {errand : Errand} (h : Attended l (some errand))
    (alive : (l.carryOn now errand).1.alive = true) :
    Attended (l.carryOn now errand).1 (l.carryOn now errand).2 := by
  have tended := carryOut_tended h.driven now errand
  have parts := carryOut_parts l.manager now errand
  unfold ManagerLoop.carryOn at alive ⊢
  cases result : l.manager.carryOut now errand with
  | error f =>
      rw [result] at alive
      cases alive
  | ok r =>
      obtain ⟨next, m⟩ := r
      rw [result] at tended parts
      have left := h.tended tended.1
      refine ⟨rfl, left.driven, fun running kind waiting => ?_⟩
      refine (left.answered running kind waiting).imp_right fun begun => ?_
      obtain rfl : errand.kind = kind := Option.some.inj (h.executing.symm.trans begun)
      cases next with
      | none => exact absurd waiting (tended.2 rfl)
      | some next => exact congrArg some (parts next rfl).1

end Attended

theorem goOn_alive {r : Except Interrupted Manager} (h : (l.goOn r).alive = true) :
    l.alive = true := by
  cases r with
  | ok m => exact h
  | error f => cases h

theorem work_alive (worked : l.work = .ok l') (h : l'.alive = true) : l.alive = true := by
  obtain ⟨now, _, worked⟩ := bind_eq_ok.1 worked
  split at worked
  · rw [← Except.ok.inj worked] at h
    exact goOn_alive (l := { l with executing := none }) h
  · rw [← Except.ok.inj worked] at h
    exact h
  · rw [← Except.ok.inj worked] at h
    exact h
  · next queue _ _ _ =>
      rw [← Except.ok.inj worked] at h
      exact goOn_alive (l := { l with queue }) h

theorem enqueue_alive (l : ManagerLoop) (c : Command) : (l.enqueue c).alive = l.alive := by
  unfold enqueue
  split
  · rfl
  · rfl

theorem fire_alive (l : ManagerLoop) (kind : TaskKind) : (l.fire kind).alive = l.alive := by
  unfold fire
  split
  · rfl
  · split
    · rfl
    · dsimp only
      split
      · exact enqueue_alive _ _
      · rfl

theorem Reached.attended (reached : Reached l e) (alive : l.alive = true) : Attended l e := by
  induction reached with
  | created config device account preferences database maxAttempts entropy timeline =>
      exact ⟨rfl, create_driven _ _ _ _ _, fun running => nomatch running⟩
  | enqueued c _ ih => exact (ih (enqueue_alive _ c ▸ alive)).enqueue c
  | fired kind _ ih =>
      have before := fire_alive _ kind ▸ alive
      exact (ih before).fire before kind
  | taken _ worked ih => exact (ih (work_alive worked alive)).take worked alive
  | @carried l errand now _ _ ih =>
      refine (ih ?_).carryOn alive
      unfold carryOn at alive
      cases result : l.manager.carryOut now errand with
      | ok r =>
          rw [result] at alive
          exact alive
      | error f =>
          rw [result] at alive
          cases alive
  | passed timeline _ ih => exact ⟨(ih alive).executing, (ih alive).driven, (ih alive).answered⟩
  | surroundings device account service observers _ stored ih =>
      have before := ih alive
      exact before.tended (.of_same before.driven rfl rfl stored)

theorem Reached.finished {l : ManagerLoop} {errand : Errand} (h : Reached l (some errand))
    (moment : l.timeline.moment = .ok now) :
    Reached (goOn { l with executing := none } (l.manager.finish now (some errand))) none := by
  have part := h.carried moment
  have fewer := carryOut_parts l.manager now errand
  rw [finish_eq]
  unfold carryOn at part
  cases result : l.manager.carryOut now errand with
  | error f =>
      rw [result] at part
      exact part
  | ok r =>
      obtain ⟨next, m⟩ := r
      rw [result] at part fewer
      cases next with
      | none => exact part
      | some next =>
          -- The rest is carried out at the same moment, with fewer parts to go.
          have left := Reached.finished part moment
          dsimp only [Except.bind]
          cases last : m.finish now (some next) with
          | error f =>
              rw [last] at left
              exact left
          | ok m' =>
              rw [last] at left
              exact left
termination_by errand.parts
decreasing_by exact (fewer next rfl).2

/-- The worker as it is run takes a task all at once, which is one way to take its parts. -/
theorem Reached.work (h : Reached l (l.executing.map .begun)) (worked : l.work = .ok l') :
    Reached l' (l'.executing.map .begun) := by
  cases busy : l.executing with
  | none =>
      rw [busy] at h
      exact h.taken worked
  | some task =>
      rw [busy] at h
      obtain ⟨now, moment, worked⟩ := bind_eq_ok.1 worked
      have done := h.finished moment
      rw [busy] at worked
      rw [← Except.ok.inj worked]
      have idle : (goOn { l with executing := none } (l.manager.complete task now)).executing = none := by
        cases l.manager.complete task now with
        | ok m => rfl
        | error f => rfl
      rw [idle]
      exact done

theorem fire_executing (l : ManagerLoop) (kind : TaskKind) :
    (l.fire kind).executing = l.executing := by
  unfold fire
  split
  · rfl
  · split
    · rfl
    · dsimp only
      split
      · unfold enqueue
        split
        · rfl
        · rfl
      · rfl

theorem Reached.drain {n : Nat} (h : Reached l (l.executing.map .begun))
    (drained : drain n l = .ok l') : Reached l' (l'.executing.map .begun) := by
  induction n generalizing l with
  | zero => exact Except.ok.inj drained ▸ h
  | succ n ih =>
      rw [ManagerLoop.drain] at drained
      split at drained
      · exact Except.ok.inj drained ▸ h
      · obtain ⟨l₁, worked, rest⟩ := bind_eq_ok.1 drained
        exact ih (h.work worked) rest

theorem Reached.fireAll (h : Reached l (l.executing.map .begun)) (kinds : List TaskKind) :
    Reached (kinds.foldl fire l) ((kinds.foldl fire l).executing.map .begun) := by
  induction kinds generalizing l with
  | nil => exact h
  | cons kind kinds ih =>
      apply ih
      rw [fire_executing]
      exact h.fired kind

theorem Reached.settle {n : Nat} (h : Reached l (l.executing.map .begun))
    (settled : settle n l = .ok l') : Reached l' (l'.executing.map .begun) := by
  induction n generalizing l with
  | zero => exact Except.ok.inj settled ▸ h
  | succ n ih =>
      obtain ⟨l₁, drained, rest⟩ := bind_eq_ok.1 settled
      have first := h.drain drained
      split at rest
      · exact Except.ok.inj rest ▸ first
      · exact ih (first.fireAll _) rest

/-- However long it is left alone, with every timer firing at its own time. -/
theorem Reached.advanceTo {n stop : Nat} (h : Reached l (l.executing.map .begun))
    (advanced : advanceTo stop n l = .ok l') : Reached l' (l'.executing.map .begun) := by
  induction n generalizing l with
  | zero => exact Except.ok.inj advanced ▸ h.passed _
  | succ n ih =>
      rw [ManagerLoop.advanceTo] at advanced
      split at advanced
      · exact Except.ok.inj advanced ▸ h.passed _
      · next due _ =>
          obtain ⟨l₁, settled, rest⟩ := bind_eq_ok.1 advanced
          exact ih ((h.passed (l.timeline.advanceTo (max due l.timeline.elapsed))).settle settled) rest

/-- Wherever a worker has got to, unless a clock fault has ended it: if a scheduler runs and awaits a
result, the run of its task is in the queue or has been begun; and while the manager runs, the scheduler
of renewals has an armed timer or awaits a result. -/
theorem never_wedged (reached : Reached l e) (alive : l.alive = true) :
    (∀ kind, ∃ s, l.manager.tasks.get kind = .scheduled s ∧ (s.running = true →
      (Scheduler.load s.key l.manager.store.preferences).waitingForResult = true →
      .run kind ∈ l.queue ∨ l.executing = some kind)) ∧
    (l.manager.running = true → ∃ s, l.manager.tasks.get .refresh = .scheduled s ∧
      s.running = true ∧ (s.timer.isSome = true ∨
        (Scheduler.load s.key l.manager.store.preferences).waitingForResult = true)) := by
  have attended := reached.attended alive
  constructor
  · intro kind
    obtain ⟨s, minds⟩ := attended.driven kind
    refine ⟨s, minds.found, fun running waiting => ?_⟩
    rw [minds.key] at waiting
    exact attended.answered (minds.running.symm.trans running) kind waiting
  · intro running
    obtain ⟨s, minds⟩ := attended.driven .refresh
    have runs := minds.running.trans running
    exact ⟨s, minds.found, runs, minds.rests rfl runs⟩

namespace Overtaken

/-- An upload was asked for before. -/
def preferences : Preferences :=
  Scheduler.save TaskKind.upload.key .empty { pendingImmediateRequest := true }

def idle : ManagerLoop where
  manager := .create {} { id := "d", name := "n" } (some ⟨"a"⟩) (.create preferences (.memory {}) 3)
    true { octet := UInt8.ofNat }
  timeline := { offset := 0 }

def moment : Moment := ⟨Instant.epoch, 0⟩

/-- The next command is taken. -/
def taken (l : ManagerLoop) : ManagerLoop := l.work.toOption.getD l

/-- The upload has fired after a start and is begun. -/
def begun : ManagerLoop := taken ((taken (idle.enqueue .start)).fire .upload)

/-- It is going to be told that a contact was removed. -/
def answered : ManagerLoop :=
  { begun with
    manager := { begun.manager with
      service := { publishAnswers := [.ok ⟨[ContactUpdate.removed.code]⟩] } } }

/-- In its midst the timer of renewals fires. -/
def overtaken : ManagerLoop := (answered.carryOn moment (.begun .upload)).1.fire .refresh

theorem reached_taken (h : Reached l (l.executing.map .begun)) :
    Reached (taken l) ((taken l).executing.map .begun) := by
  unfold taken
  cases worked : l.work with
  | ok l' => exact h.work worked
  | error fault => exact h

theorem reached : Reached overtaken (some .removed) := by
  have created : Reached idle none := .created _ _ _ _ _ _ _ _
  have started := reached_taken (created.enqueued .start)
  have fired := started.fired .upload
  rw [← fire_executing _ .upload] at fired
  have first := reached_taken fired
  have task : begun.executing = some .upload := by decide +kernel
  rw [← begun, task] at first
  have told : Reached answered (some (.begun .upload)) :=
    first.surroundings _ _ _ _ fun _ => rfl
  have read : answered.timeline.moment = .ok moment := rfl
  have next := (told.carried read).fired .refresh
  have left : (answered.carryOn moment (.begun .upload)).2 = some .removed := by rfl
  rw [left] at next
  exact next

end Overtaken

theorem never_wedged_overtaken :
    Overtaken.overtaken.alive = true ∧ Overtaken.overtaken.executing = some .upload ∧
      Overtaken.overtaken.manager.Awaits .refresh ∧
      ∃ s, Overtaken.overtaken.manager.tasks.get .refresh = .scheduled s ∧
        (s.running = true →
          (Scheduler.load s.key Overtaken.overtaken.manager.store.preferences).waitingForResult =
            true →
          .run .refresh ∈ Overtaken.overtaken.queue ∨
            Overtaken.overtaken.executing = some .refresh) := by
  have alive : Overtaken.overtaken.alive = true := by decide +kernel
  refine ⟨alive, by decide +kernel, ?_, (never_wedged Overtaken.reached alive).1 .refresh⟩
  unfold Awaits
  decide +kernel

end ManagerLoop
end ProximityCert

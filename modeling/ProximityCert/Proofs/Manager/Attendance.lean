import ProximityCert.Manager.Command
import ProximityCert.Proofs.Manager.Work
import ProximityCert.Proofs.Schedule.Requests
import ProximityCert.Proofs.Storage.Names

/-!
How a manager attends to its schedulers. Each keeps its progress under the key of its task and runs
while the manager does, and the one for renewals has an armed timer unless it awaits a result. Only a
timer that fires makes a scheduler await one: whatever else is done leaves no more of them waiting.
-/

namespace ProximityCert

namespace TaskKind

theorem key_injective {kind other : TaskKind} (same : kind.key = other.key) : kind = other := by
  cases kind <;> cases other <;> first | rfl | exact absurd same (by decide)

theorem key_ne_expirations (kind : TaskKind) : kind.key ≠ Store.expirationsKey := by
  cases kind <;> decide

theorem key_ne_private (kind : TaskKind) : kind.key ≠ Store.privateKey := by
  cases kind <;> decide

theorem mem_all (kind : TaskKind) : kind ∈ all := by
  cases kind <;> decide

end TaskKind

/-- Whether a scheduler runs after an action. -/
def TaskAction.leavesRunning : TaskAction → Bool → Bool
  | .start, _ => true
  | .stop, _ => false
  | .requestNow, running | .reschedule, running | .handleResult _, running => running

/-- A task that is due at an instant is never without a time to its next request. -/
theorem TaskState.timeUntilNext_of_expiration {t : TaskState} (target now : Instant)
    (retry : RetryPolicy) (idle : t.waitingForResult = false) :
    ∃ delay, t.timeUntilNext (.expiration (.ok (some target))) now true retry = .ok (some delay) := by
  unfold timeUntilNext
  simp only [idle, Bool.not_true, Bool.or_self, Bool.false_eq_true, if_false]
  split
  · exact ⟨_, rfl⟩
  · split
    · exact ⟨_, rfl⟩
    · exact ⟨_, rfl⟩

namespace Scheduler

variable {s s' : Scheduler} {p p' : Preferences} {cadence : Cadence} {now : Moment}
  {action : TaskAction}

theorem prepared_running (s : Scheduler) (p : Preferences) (now : Moment) (action : TaskAction) :
    (s.prepared p now action).1.running = action.leavesRunning s.running := by
  cases action with
  | start =>
      simp only [prepared]
      split
      · next running => exact running
      · rfl
  | stop =>
      simp only [prepared, Scheduler.stop]
      split
      · rfl
      · next stopped => exact Bool.eq_false_iff.2 stopped
  | requestNow => rfl
  | reschedule => rfl
  | handleResult success => rfl

/-- A scheduler that awaits a result did so before, and was neither started nor given one. -/
theorem prepared_waiting
    (waiting : (load s.key (s.prepared p now action).2).waitingForResult = true) :
    (load s.key p).waitingForResult = true ∧ (action = .start → s.running = true) ∧
      ∀ success, action ≠ .handleResult success := by
  cases action with
  | start =>
      simp only [prepared] at waiting
      split at waiting
      · next running => exact ⟨waiting, fun _ => running, fun _ => TaskAction.noConfusion⟩
      · rw [load_recover, TaskState.recoverInterrupted_waiting] at waiting
        cases waiting
  | stop => exact ⟨waiting, TaskAction.noConfusion, fun _ => TaskAction.noConfusion⟩
  | requestNow =>
      rw [prepared, load_save] at waiting
      exact ⟨waiting, TaskAction.noConfusion, fun _ => TaskAction.noConfusion⟩
  | reschedule => exact ⟨waiting, TaskAction.noConfusion, fun _ => TaskAction.noConfusion⟩
  | handleResult success =>
      rw [prepared, load_save] at waiting
      cases waiting

theorem react_of_act (done : s.act p cadence now action = .ok (s', p')) :
    Standing.react ⟨s, p⟩ (.act action cadence now) = ⟨s', p'⟩ := by
  rw [Standing.react]
  dsimp only
  rw [done]

theorem act_running (done : s.act p cadence now action = .ok (s', p')) :
    s'.running = action.leavesRunning s.running := by
  have after := Standing.running_act ⟨s, p⟩ action cadence now
  rw [react_of_act done] at after
  exact after.trans (prepared_running s p now action)

theorem act_waiting (done : s.act p cadence now action = .ok (s', p'))
    (waiting : (load s.key p').waitingForResult = true) :
    (load s.key p).waitingForResult = true ∧ (action = .start → s.running = true) ∧
      ∀ success, action ≠ .handleResult success := by
  have after := Standing.progress_act ⟨s, p⟩ action cadence now
  rw [react_of_act done, Standing.progress] at after
  dsimp only at after
  rw [(act_keeps done).1] at after
  rw [after] at waiting
  exact prepared_waiting waiting

/-- A running scheduler of a task that is due at an instant has an armed timer or awaits a result. -/
def Rests (s : Scheduler) (p : Preferences) : Prop :=
  s.running = true → s.timer.isSome = true ∨ (load s.key p).waitingForResult = true

theorem Rests.act {target : Instant} (h : s.Rests p)
    (done : s.act p (.expiration (.ok (some target))) now action = .ok (s', p')) :
    s'.Rests p' := by
  intro runs
  rw [act_eq] at done
  split at done
  · obtain ⟨t, rearmed, same⟩ := map_eq_ok.1 done
    cases same
    cases reschedule_spec rearmed with
    | stopped still => exact absurd runs (by simp [still])
    | @armed delay _ found =>
        cases waiting : (load (s.prepared p now action).1.key
            (s.prepared p now action).2).waitingForResult with
        | true => exact .inr rfl
        | false =>
            obtain ⟨d, next⟩ := TaskState.timeUntilNext_of_expiration target now.now
              (s.prepared p now action).1.retry waiting
            rw [next] at found
            rw [← Except.ok.inj found]
            exact .inl rfl
  · next still =>
      have same := Except.ok.inj done
      cases action with
      | start =>
          have running : s.running = true := by simpa [rearms] using still
          rw [prepared, if_pos running] at same
          cases same
          exact h running
      | stop =>
          have stopped := prepared_running s p now .stop
          rw [same, runs] at stopped
          cases stopped
      | requestNow | reschedule | handleResult => exact absurd rfl still

theorem fire_running (s : Scheduler) (p : Preferences) : (s.fire p).2.1.running = s.running := by
  cases running : s.running with
  | true => simp [fire, running]
  | false => simp [fire, running]

/-- A timer that fires leaves its scheduler awaiting a result if it runs. -/
theorem fire_rests (s : Scheduler) (p : Preferences) : (s.fire p).2.1.Rests (s.fire p).2.2 := by
  intro running
  rw [fire_running] at running
  right
  simp [fire, running]

end Scheduler

namespace Manager

variable {m m' m'' : Manager} {kind : TaskKind} {now : Moment} {r : Bool}

/-- Whether a request of a task has fired whose result is not reported yet. -/
def Awaits (m : Manager) (kind : TaskKind) : Prop :=
  (Scheduler.load kind.key m.store.preferences).waitingForResult = true

/-- A task has its own scheduler, which runs or not. -/
structure Minds (m : Manager) (r : Bool) (kind : TaskKind) (s : Scheduler) : Prop where
  found : m.tasks.get kind = .scheduled s
  key : s.key = kind.key
  running : s.running = r
  rests : kind = .refresh → s.Rests m.store.preferences

/-- The schedulers of all tasks run while the manager does. -/
def Driven (m : Manager) : Prop := ∀ kind, ∃ s, m.Minds m.running kind s

theorem refreshDue_isSome (s : Store) : ∃ target, refreshDue s = some target := by
  unfold refreshDue
  split
  · next certificates found =>
      split
      · next enough =>
          cases certificates with
          | nil => exact absurd enough (by decide)
          | cons c rest =>
              rw [Store.nextPrivateEnd, found]
              exact ⟨_, rfl⟩
      · exact ⟨_, rfl⟩
  · exact ⟨_, rfl⟩

theorem Minds.of_same {s : Scheduler} (h : m.Minds r kind s)
    (task : m'.tasks.get kind = m.tasks.get kind) (stored : m.store.SameAt kind.key m'.store) :
    m'.Minds r kind s where
  found := task.trans h.found
  key := h.key
  running := h.running
  rests renewal := by
    have rests := h.rests renewal
    unfold Scheduler.Rests Scheduler.load at rests ⊢
    rw [h.key] at rests ⊢
    rw [stored]
    exact rests

theorem Awaits.of_same (h : m'.Awaits kind) (stored : m.store.SameAt kind.key m'.store) :
    m.Awaits kind := by
  unfold Awaits Scheduler.load at h ⊢
  rw [stored] at h
  exact h

/-- Whatever is done to one task leaves the others alone. -/
structure Touched (m : Manager) (kind : TaskKind) (m' : Manager) : Prop where
  running : m'.running = m.running
  task : ∀ other ≠ kind, m'.tasks.get other = m.tasks.get other
  stored : ∀ other ≠ kind, m.store.SameAt other.key m'.store

theorem Touched.driven (touched : Touched m kind m') (h : m.Driven)
    (own : ∃ s, m'.Minds m.running kind s) : m'.Driven := by
  intro other
  rw [touched.running]
  by_cases same : other = kind
  · rw [same]
    exact own
  · obtain ⟨s, minds⟩ := h other
    exact ⟨s, minds.of_same (touched.task other same) (touched.stored other same)⟩

theorem Touched.scheduled {s s' : Scheduler} {p : Preferences} (h : m.Minds r kind s)
    (others : ∀ name ≠ s.key, p.find? name = m.store.preferences.find? name) :
    Touched m kind ((m.setTask kind (.scheduled s')).setPreferences p) where
  running := rfl
  task _ different := Tasks.get_set_of_ne _ _ different
  stored other different := others other.key fun same =>
    different (TaskKind.key_injective (same.trans h.key))

/-- What an action on a task comes to. -/
structure Acted (m : Manager) (r : Bool) (kind : TaskKind) (action : TaskAction) (m' : Manager) :
    Prop extends Touched m kind m' where
  minds : ∃ s, m'.Minds (action.leavesRunning r) kind s
  awaits : m'.Awaits kind → m.Awaits kind ∧ (action = .start → r = true) ∧
    ∀ success, action ≠ .handleResult success

theorem act_acted {s : Scheduler} (h : m.Minds r kind s) (action : TaskAction) (now : Moment) :
    Leaves (fun _ => True) (Acted m r kind action) (m.act kind action now) := by
  unfold act
  rw [h.found]
  refine Leaves.map (Leaves.attempt trivial ?_)
  rintro ⟨s', p⟩ done
  obtain ⟨key, others⟩ := Scheduler.act_keeps done
  refine ⟨.scheduled h others, ⟨s', ?_, key.trans h.key, ?_, ?_⟩, ?_⟩
  · exact Tasks.get_set_self ..
  · rw [← h.running]
    exact Scheduler.act_running done
  · rintro rfl
    obtain ⟨target, due⟩ := refreshDue_isSome m.store
    rw [cadence, due] at done
    exact (h.rests rfl).act done
  · intro waiting
    rw [Awaits, ← h.key] at waiting ⊢
    rw [← h.running]
    exact Scheduler.act_waiting done waiting

/-- The manager after the timer of a task has fired. -/
def fired (m : Manager) (kind : TaskKind) (s : Scheduler) : Manager :=
  (m.setTask kind (.scheduled (s.fire m.store.preferences).2.1)).setPreferences
    (s.fire m.store.preferences).2.2

theorem fired_touched {s : Scheduler} (h : m.Minds r kind s) : Touched m kind (m.fired kind s) :=
  .scheduled h (Scheduler.fire_keeps s m.store.preferences).2

theorem fired_driven (h : m.Driven) {s : Scheduler} (minds : m.Minds m.running kind s) :
    (m.fired kind s).Driven := by
  refine (fired_touched minds).driven h ⟨_, Tasks.get_set_self .., ?_, ?_, ?_⟩
  · exact (Scheduler.fire_keeps s m.store.preferences).1.trans minds.key
  · exact (Scheduler.fire_running s _).trans minds.running
  · exact fun _ => Scheduler.fire_rests s _

/-- The schedulers of all tasks run while the manager does, as they did before, and none of them awaits
a result that did not. -/
structure Tended (m m' : Manager) : Prop where
  driven : m'.Driven
  running : m'.running = m.running
  awaits : ∀ kind, m'.Awaits kind → m.Awaits kind

namespace Tended

theorem refl (h : m.Driven) : Tended m m := ⟨h, rfl, fun _ => id⟩

theorem trans (h : Tended m m') (h' : Tended m' m'') : Tended m m'' where
  driven := h'.driven
  running := h'.running.trans h.running
  awaits kind waiting := h.awaits kind (h'.awaits kind waiting)

theorem before {α : Type} {f : α → Manager} {x : Except Interrupted α} (h : Tended m m')
    (rest : Leaves (fun _ => True) (fun a => Tended m' (f a)) x) :
    Leaves (fun _ => True) (fun a => Tended m (f a)) x :=
  rest.mono (fun _ => id) fun _ => h.trans

theorem of_same (h : m.Driven) (running : m'.running = m.running) (tasks : m'.tasks = m.tasks)
    (stored : ∀ kind : TaskKind, m.store.SameAt kind.key m'.store) : Tended m m' := by
  refine ⟨?_, running, ?_⟩
  · intro kind
    obtain ⟨s, minds⟩ := h kind
    rw [running]
    exact ⟨s, minds.of_same (congrArg (Tasks.get · kind) tasks) (stored kind)⟩
  · intro kind waiting
    exact waiting.of_same (stored kind)

theorem store (h : m.Driven) {s : Store}
    (stored : ∀ kind : TaskKind, m.store.SameAt kind.key s) : Tended m { m with store := s } :=
  of_same h rfl rfl stored

theorem acted {action : TaskAction} (h : m.Driven) (steady : ∀ r, action.leavesRunning r = r)
    (acted : Acted m m.running kind action m') : Tended m m' where
  driven := acted.toTouched.driven h (steady m.running ▸ acted.minds)
  running := acted.running
  awaits other waiting := by
    by_cases same : other = kind
    · rw [same] at waiting ⊢
      exact (acted.awaits waiting).1
    · exact waiting.of_same (acted.stored other same)

end Tended

section Work

variable (h : m.Driven)
include h

theorem act_tended (kind : TaskKind) {action : TaskAction}
    (steady : ∀ r, action.leavesRunning r = r) (now : Moment) :
    Leaves (fun _ => True) (Tended m) (m.act kind action now) := by
  obtain ⟨s, minds⟩ := h kind
  exact (act_acted minds action now).mono (fun _ => id) fun m' acted => .acted h steady acted

/-- Once its result is reported, a task awaits none. -/
theorem report_tended (kind : TaskKind) (success : Bool) (now : Moment) :
    Leaves (fun _ => True) (fun m' => Tended m m' ∧ ¬ m'.Awaits kind)
      (m.act kind (.handleResult success) now) := by
  obtain ⟨s, minds⟩ := h kind
  apply (act_acted minds (.handleResult success) now).mono (fun _ => id)
  intro m' acted
  refine ⟨.acted h (fun _ => rfl) acted, fun waiting => ?_⟩
  exact (acted.awaits waiting).2.2 success rfl

theorem clearPrivate_tended : Tended m m.clearPrivate :=
  .store h fun kind => Store.SameAt.clearPrivate kind.key_ne_private m.store

theorem loadPrivate_tended (now : Moment) :
    Leaves (fun _ => True) (fun r => Tended m r.2) (m.loadPrivate now) := by
  unfold loadPrivate
  split
  · exact .refl h
  · have cleared := clearPrivate_tended h
    apply Leaves.map
    exact cleared.before (act_tended cleared.driven .refresh (fun _ => rfl) now)

theorem getValid_tended (v : Visibility) (now : Moment) :
    Leaves (fun _ => True) (fun r => Tended m r.2) (m.getValid v now) := by
  unfold getValid
  split
  · exact .refl h
  · apply (loadPrivate_tended h now).bind
    rintro ⟨stored, m₁⟩ loaded
    cases stored with
    | none => exact loaded
    | some cs =>
        apply (Leaves.attempt trivial fun _ done => done).bind
        rintro (_ | c) _
        · apply (loaded.before (act_tended loaded.driven .refresh (fun _ => rfl) now)).bind
          exact fun m' asked => asked
        · exact loaded

theorem encryptMetadataKey_tended (v : Visibility) (now : Moment) :
    Leaves (fun _ => True) (fun r => Tended m r.2) (m.encryptMetadataKey v now) := by
  unfold encryptMetadataKey
  apply (getValid_tended h v now).bind
  rintro ⟨found, m₁⟩ served
  have drawn : ∀ entropy, Tended m { m₁ with entropy } := fun _ =>
    served.trans (.of_same served.driven rfl rfl fun _ => rfl)
  cases found with
  | none => exact served
  | some c =>
      dsimp only
      split
      · next entropy _ => exact drawn entropy
      · next key used entropy _ =>
          have updated : Tended m { m₁ with entropy, store := (m₁.store.updatePrivate used).2 } :=
            (drawn entropy).trans (.store (drawn entropy).driven fun kind =>
              Store.SameAt.updatePrivate kind.key_ne_private m₁.store used)
          split
          · next same =>
              rw [same] at updated
              exact updated
          · next same =>
              rw [same] at updated
              exact updated

theorem asPublic_tended (v : Visibility) (now : Moment) :
    Leaves (fun _ => True) (fun r => Tended m r.2) (m.asPublic v now) := by
  unfold asPublic
  split
  · exact .refl h
  · apply (loadPrivate_tended h now).bind
    rintro ⟨stored, m₁⟩ loaded
    apply (Leaves.attempt trivial fun _ done => done).bind
    intro published _
    exact loaded.trans (.of_same loaded.driven rfl rfl fun _ => rfl)

theorem openPublic_tended (key : EncryptedMetadataKey) :
    Leaves (fun _ => True) (fun r => Tended m r.2) (m.openPublic key) := by
  have read : Tended m { m with store := m.store.getPublic.2 } :=
    .store h fun kind => Store.SameAt.getPublic kind.key_ne_expirations m.store
  unfold openPublic
  split
  · next found =>
      rw [found] at read
      exact read
  · next found =>
      rw [found] at read
      exact Leaves.map (Leaves.attempt trivial fun _ _ => read)

theorem clearPublic_tended (now : Moment) :
    Leaves (fun _ => True) (fun r => Tended m r.2) (m.clearPublic now) := by
  have cleared : Tended m { m with store := m.store.clearPublic.2 } :=
    .store h fun kind => Store.SameAt.clearPublic kind.key_ne_expirations m.store
  apply Leaves.map
  exact cleared.before (act_tended cleared.driven .cleanup (fun _ => rfl) now)

theorem removeExpired_tended (now : Moment) :
    Leaves (fun _ => True) (fun r => Tended m r.2) (m.removeExpired now) := by
  apply Leaves.map
  apply Leaves.attempt trivial
  intro r done
  exact .store h fun kind => Store.SameAt.removeExpiredPublic kind.key_ne_expirations done

theorem download_tended (now : Moment) :
    Leaves (fun _ => True) (fun r => Tended m r.2) (m.download now) := by
  unfold download
  split
  · exact .refl h
  · split
    next credentials service _ =>
    have asked : Tended m { m with service } := .of_same h rfl rfl fun _ => rfl
    cases credentials with
    | error f => exact asked
    | ok credentials =>
        refine (Leaves.attempt (Q := fun r => Tended m { m with service, store := r.2 })
          trivial ?_).bind ?_
        · intro r done
          exact asked.trans (.store asked.driven fun kind =>
            Store.SameAt.addPublic kind.key_ne_expirations done)
        · rintro ⟨outcome, store⟩ added
          cases outcome with
          | error f => exact added
          | ok u =>
              have told : Tended m ({ m with service, store }.notify .publicDownloaded) :=
                added.trans (.of_same added.driven rfl rfl fun _ => rfl)
              apply (told.before (act_tended told.driven .cleanup (fun _ => rfl) now)).bind
              exact fun m' rescheduled => rescheduled

theorem refresh_tended (requestUpload : Bool) (now : Moment) :
    Leaves (fun _ => True) (fun r => Tended m r.2) (m.refresh requestUpload now) := by
  have weeded : Tended m (m.weeded now) :=
    .store h fun kind =>
      Store.SameAt.removeExpiredPrivate kind.key_ne_private m.store now.now
  unfold refresh
  apply (weeded.before (loadPrivate_tended weeded.driven now)).bind
  rintro ⟨stored, m₁⟩ loaded
  dsimp only
  split
  · exact loaded
  · split
    · exact loaded
    · apply (Leaves.attempt trivial fun _ done => done).bind
      rintro ⟨new, e⟩ _
      have filled : Tended m ({ m₁ with
          entropy := e, store := m₁.store.replacePrivate (stored.getD [] ++ new) }.notify
            .privateChanged) :=
        loaded.trans (.of_same loaded.driven rfl rfl fun kind =>
          Store.SameAt.replacePrivate kind.key_ne_private m₁.store _)
      dsimp only
      split
      · apply (filled.before (act_tended filled.driven .upload (fun _ => rfl) now)).bind
        exact fun m' asked => asked
      · exact filled

theorem publish_tended (force : Bool) (now : Moment) :
    Leaves (fun _ => True) (fun r => Tended m r.2) (m.publish force now) := by
  unfold publish
  apply (loadPrivate_tended h now).bind
  rintro ⟨stored, m₁⟩ loaded
  cases stored with
  | none => exact loaded
  | some cs =>
      apply (Leaves.attempt trivial fun _ done => done).bind
      rintro ⟨published, e⟩ _
      exact loaded.trans (.of_same loaded.driven rfl rfl fun _ => rfl)

end Work

/-- The same done to all tasks reaches each of them once. -/
theorem actAll_acted (minds : ∀ kind, ∃ s, m.Minds r kind s) (action : TaskAction) (now : Moment) :
    Leaves (fun _ => True) (fun m' => m'.running = m.running ∧ ∀ kind,
      (∃ s, m'.Minds (action.leavesRunning r) kind s) ∧ (m'.Awaits kind → action = .start → r = true))
      (m.actAll action now) := by
  have each : ∀ (kinds : List TaskKind) (m' : Manager), kinds.Nodup →
      m'.running = m.running → (∀ kind ∈ kinds, ∃ s, m'.Minds r kind s) →
      (∀ kind ∉ kinds, (∃ s, m'.Minds (action.leavesRunning r) kind s) ∧
        (m'.Awaits kind → action = .start → r = true)) →
      Leaves (fun _ => True) (fun m'' => m''.running = m.running ∧ ∀ kind,
        (∃ s, m''.Minds (action.leavesRunning r) kind s) ∧
          (m''.Awaits kind → action = .start → r = true))
        (kinds.foldlM (fun m kind => m.act kind action now) m') := by
    intro kinds
    induction kinds with
    | nil => exact fun m' _ running _ done => ⟨running, fun kind => done kind List.not_mem_nil⟩
    | cons kind kinds ih =>
        intro m' distinct running ahead done
        obtain ⟨once, distinct⟩ := List.nodup_cons.1 distinct
        obtain ⟨s, own⟩ := ahead kind List.mem_cons_self
        rw [List.foldlM_cons]
        refine (act_acted own action now).bind fun m'' acted => ?_
        refine ih m'' distinct (acted.running.trans running) ?_ ?_
        · intro other member
          have different : other ≠ kind := fun same => once (same ▸ member)
          obtain ⟨t, minds⟩ := ahead other (List.mem_cons_of_mem kind member)
          exact ⟨t, minds.of_same (acted.task other different) (acted.stored other different)⟩
        · intro other absent
          by_cases same : other = kind
          · rw [same]
            exact ⟨acted.minds, fun waiting => (acted.awaits waiting).2.1⟩
          · obtain ⟨⟨t, minds⟩, waits⟩ := done other fun member =>
              (List.mem_cons.1 member).elim same absent
            refine ⟨⟨t, ?_⟩, fun waiting => waits (waiting.of_same (acted.stored other same))⟩
            exact minds.of_same (acted.task other same) (acted.stored other same)
  exact each TaskKind.all m (by decide) rfl (fun kind _ => minds kind) fun kind absent =>
    absurd kind.mem_all absent

/-- A start leaves no task awaiting a result that is not going to come. -/
theorem start_driven (h : m.Driven) (now : Moment) :
    Leaves (fun _ => True) (fun m' => m'.Driven ∧ ∀ kind, m'.Awaits kind →
      m.running = true ∧ m.Awaits kind) (m.start now) := by
  unfold start
  split
  · next running => exact ⟨h, fun kind waiting => ⟨running, waiting⟩⟩
  · next stopped =>
      have minds : ∀ kind, ∃ s, Minds { m with running := true } m.running kind s := by
        intro kind
        obtain ⟨s, minds⟩ := h kind
        exact ⟨s, minds.of_same rfl rfl⟩
      apply (actAll_acted minds .start now).mono (fun _ => id)
      rintro m' ⟨running, each⟩
      refine ⟨fun kind => ?_, fun kind waiting => absurd ((each kind).2 waiting rfl) stopped⟩
      rw [running]
      exact (each kind).1

theorem stop_driven (h : m.Driven) (now : Moment) :
    Leaves (fun _ => True) (fun m' => m'.Driven ∧ m'.running = false) (m.stop now) := by
  unfold stop
  split
  · have minds : ∀ kind, ∃ s, Minds { m with running := false } m.running kind s := by
      intro kind
      obtain ⟨s, minds⟩ := h kind
      exact ⟨s, minds.of_same rfl rfl⟩
    apply (actAll_acted minds .stop now).mono (fun _ => id)
    rintro m' ⟨running, each⟩
    refine ⟨fun kind => ?_, running⟩
    rw [running]
    exact (each kind).1
  · next stopped => exact ⟨h, Bool.eq_false_iff.2 stopped⟩

/-- Every command but those that start and stop the manager, and the tasks, which take their time. -/
theorem perform_tended (h : m.Driven) (now : Moment) {c : Command} (start : c ≠ .start)
    (stop : c ≠ .stop) (task : ∀ kind, c ≠ .run kind) :
    Leaves (fun _ => True) (fun r => Tended m r.2) (m.perform now c) := by
  cases c with
  | start => exact absurd rfl start
  | stop => exact absurd rfl stop
  | getValid v => exact Leaves.map (getValid_tended h v now)
  | encryptKey v => exact Leaves.map (encryptMetadataKey_tended h v now)
  | sign v payload => exact Leaves.map (Leaves.map (getValid_tended h v now))
  | hashToken v token => exact Leaves.map (Leaves.map (getValid_tended h v now))
  | openPublic key => exact Leaves.map (openPublic_tended h key)
  | asPublic v => exact Leaves.map (asPublic_tended h v now)
  | downloadNow => exact Leaves.map (act_tended h .download (fun _ => rfl) now)
  | clearPublic => exact Leaves.map (clearPublic_tended h now)
  | regenerate changed =>
      rw [perform]
      split
      · have cleared := clearPrivate_tended h
        exact Leaves.map (cleared.before (act_tended cleared.driven .refresh (fun _ => rfl) now))
      · exact .refl h
  | dump => exact .refl h
  | run kind => exact absurd rfl (task kind)

/-- After every command but the run of a task, whatever awaits a result while the manager runs did so
before. -/
theorem perform_driven (h : m.Driven) (now : Moment) {c : Command} (task : ∀ kind, c ≠ .run kind) :
    Leaves (fun _ => True) (fun r => r.2.Driven ∧ (r.2.running = true → ∀ kind, r.2.Awaits kind →
      m.running = true ∧ m.Awaits kind)) (m.perform now c) := by
  by_cases start : c = .start
  · rw [start]
    apply Leaves.map
    apply (start_driven h now).mono (fun _ => id)
    exact fun m' started => ⟨started.1, fun _ => started.2⟩
  · by_cases stop : c = .stop
    · rw [stop]
      apply Leaves.map
      apply (stop_driven h now).mono (fun _ => id)
      exact fun m' stopped => ⟨stopped.1, fun running => nomatch stopped.2.symm.trans running⟩
    · apply (perform_tended h now start stop task).mono (fun _ => id)
      intro r tended
      refine ⟨tended.driven, fun running kind waiting => ?_⟩
      exact ⟨tended.running ▸ running, tended.awaits kind waiting⟩

end Manager
end ProximityCert

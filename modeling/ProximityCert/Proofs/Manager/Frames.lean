import ProximityCert.Manager.Command
import ProximityCert.Proofs.Storage.Privates

/-!
What the work of a manager leaves alone. Schedulers write only under their own names, and the work on
public certificates only beside the private ones. A clock fault may end work anywhere, so every law
speaks of both ends: of the manager at a fault and of what is returned without one.
-/

namespace ProximityCert

namespace Scheduler

variable {s s' : Scheduler} {p p' : Preferences} {cadence : Cadence} {now : Moment}
    {key name : String}

theorem save_find? (other : name ≠ key) (state : TaskState) :
    (save key p state).find? name = p.find? name := by
  rw [save, SortedMap.find?_insert, if_neg other]

theorem recover_find? (other : name ≠ key) : (recover key p).find? name = p.find? name := by
  unfold recover
  split
  · exact save_find? other _
  · rfl

theorem reschedule_key (h : s.reschedule p cadence now = .ok s') : s'.key = s.key := by
  unfold reschedule at h
  split at h
  · cases delay : s.timeUntilNext p cadence now with
    | error fault => simp [delay, Except.map] at h
    | ok d =>
        simp only [delay, Except.map, Except.ok.injEq] at h
        rw [← h]
  · rw [← Except.ok.inj h]

theorem reschedule_map {q : Preferences}
    (h : (s.reschedule p cadence now).map (fun s => (s, q)) = .ok (s', p')) :
    s'.key = s.key ∧ p' = q := by
  cases anew : s.reschedule p cadence now with
  | error fault => simp [anew, Except.map] at h
  | ok t =>
      simp only [anew, Except.map, Except.ok.injEq, Prod.mk.injEq] at h
      obtain ⟨rfl, rfl⟩ := h
      exact ⟨reschedule_key anew, rfl⟩

theorem act_keeps {action : TaskAction} (h : s.act p cadence now action = .ok (s', p')) :
    s'.key = s.key ∧ ∀ name ≠ s.key, p'.find? name = p.find? name := by
  cases action with
  | start =>
      rw [act, start] at h
      split at h
      · obtain ⟨rfl, rfl⟩ := Prod.mk.inj (Except.ok.inj h)
        exact ⟨rfl, fun _ _ => rfl⟩
      · obtain ⟨key, rfl⟩ := reschedule_map h
        exact ⟨key, fun name other => recover_find? other⟩
  | stop =>
      obtain ⟨rfl, rfl⟩ := Prod.mk.inj (Except.ok.inj h)
      refine ⟨?_, fun _ _ => rfl⟩
      unfold stop
      split <;> rfl
  | requestNow =>
      obtain ⟨key, rfl⟩ := reschedule_map h
      exact ⟨key, fun name other => save_find? other _⟩
  | reschedule =>
      obtain ⟨key, rfl⟩ := reschedule_map h
      exact ⟨key, fun _ _ => rfl⟩
  | handleResult success =>
      obtain ⟨key, rfl⟩ := reschedule_map h
      exact ⟨key, fun name other => save_find? other _⟩

theorem fire_keeps (s : Scheduler) (p : Preferences) :
    (s.fire p).2.1.key = s.key ∧ ∀ name ≠ s.key, (s.fire p).2.2.find? name = p.find? name := by
  by_cases running : s.running
  · refine ⟨by simp [fire, running], fun name other => ?_⟩
    simpa [fire, running] using save_find? other _
  · simp [fire, running]

end Scheduler

namespace Manager

variable {α β : Type} {P : Manager → Prop} {Q : α → Prop} {R : β → Prop} {m m' m'' : Manager}

/-- One property holds of the manager if a clock fault ends the work, another of what is returned. -/
def Leaves (P : Manager → Prop) (Q : α → Prop) : Except Interrupted α → Prop
  | .ok a => Q a
  | .error e => P e.manager

namespace Leaves

theorem bind {r : Except Interrupted α} {f : α → Except Interrupted β} (h : Leaves P Q r)
    (next : ∀ a, Q a → Leaves P R (f a)) : Leaves P R (r >>= f) := by
  cases r with
  | ok a => exact next a h
  | error e => exact h

theorem map {r : Except Interrupted α} {f : α → β} (h : Leaves P (fun a => R (f a)) r) :
    Leaves P R (r.map f) := by
  cases r with
  | ok a => exact h
  | error e => exact h

theorem mono {P' : Manager → Prop} {Q' : α → Prop} {r : Except Interrupted α} (h : Leaves P Q r)
    (fault : ∀ m, P m → P' m) (rest : ∀ a, Q a → Q' a) : Leaves P' Q' r := by
  cases r with
  | ok a => exact rest a h
  | error e => exact fault e.manager h

theorem and {P' : Manager → Prop} {Q' : α → Prop} {r : Except Interrupted α} (h : Leaves P Q r)
    (h' : Leaves P' Q' r) : Leaves (fun m => P m ∧ P' m) (fun a => Q a ∧ Q' a) r := by
  cases r with
  | ok a => exact ⟨h, h'⟩
  | error e => exact ⟨h, h'⟩

theorem attempt {r : Except ClockFault α} (fault : P m) (rest : ∀ a, r = .ok a → Q a) :
    Leaves P Q (m.attempt r) := by
  cases r with
  | ok a => exact rest a rfl
  | error e => exact fault

end Leaves

/-- No task's progress is stored where the private certificates are. -/
def Apart (m : Manager) : Prop := ∀ kind s, m.tasks.get kind = .scheduled s →
      s.key ≠ Store.privateKey

/-- Work that has nothing to do with the private certificates, nor with what new ones are told about. -/
structure Kept (m m' : Manager) : Prop where
  apart : m.Apart → m'.Apart
  stored : m.Apart → m.store.SamePrivate m'.store
  device : m'.device = m.device
  account : m'.account = m.account
  entropy : m'.entropy = m.entropy

namespace Kept

theorem refl (m : Manager) : Kept m m := ⟨id, fun _ => rfl, rfl, rfl, rfl⟩

theorem trans (h : Kept m m') (h' : Kept m' m'') : Kept m m'' where
  apart own := h'.apart (h.apart own)
  stored own := (h.stored own).trans (h'.stored (h.apart own))
  device := h'.device.trans h.device
  account := h'.account.trans h.account
  entropy := h'.entropy.trans h.entropy

theorem store {s : Store} (same : m.store.SamePrivate s) :
    Kept m { m with store := s } := ⟨id, fun _ => same, rfl, rfl, rfl⟩

theorem notify (m : Manager) (notice : Notice) :
    Kept m (m.notify notice) := ⟨id, fun _ => rfl, rfl, rfl, rfl⟩

theorem setTask {kind : TaskKind} {t : RecurringTask}
    (own : m.Apart → ∀ s, t = .scheduled s → s.key ≠ Store.privateKey) :
    Kept m (m.setTask kind t) where
  apart apart other s found := by
    by_cases same : other = kind
    · subst same
      rw [Manager.setTask, Tasks.get_set_self] at found
      exact own apart s found
    · rw [Manager.setTask, Tasks.get_set_of_ne _ _ same] at found
      exact apart other s found
  stored _ := rfl
  device := rfl
  account := rfl
  entropy := rfl

theorem before {α : Type} {f : α → Manager} {r : Except Interrupted α} (h : Kept m m')
    (rest : Leaves (Kept m') (fun a => Kept m' (f a)) r) :
    Leaves (Kept m) (fun a => Kept m (f a)) r :=
  rest.mono (fun _ => h.trans) fun _ => h.trans

theorem scheduled {kind : TaskKind} {s s' : Scheduler} {p : Preferences}
    (found : m.tasks.get kind = .scheduled s)
    (key : s'.key = s.key) (others : ∀ name ≠ s.key, p.find? name =
      m.store.preferences.find? name) :
    Kept m ((m.setTask kind (.scheduled s')).setPreferences p) := by
  have task : Kept m (m.setTask kind (.scheduled s')) := by
    refine setTask fun apart t same => ?_
    rw [← RecurringTask.scheduled.inj same, key]
    exact apart kind s found
  exact ⟨task.apart, fun apart => others Store.privateKey (Ne.symm (apart kind s found)), rfl, rfl,
    rfl⟩

end Kept

theorem act_kept (m : Manager) (kind : TaskKind) (action : TaskAction) (now : Moment) :
    Leaves (Kept m) (Kept m) (m.act kind action now) := by
  unfold act
  cases found : m.tasks.get kind with
  | recorded t => exact Kept.setTask fun _ s same => nomatch same
  | scheduled s =>
      refine Leaves.map (Leaves.attempt (Kept.refl m) ?_)
      intro result done
      obtain ⟨key, others⟩ := Scheduler.act_keeps done
      exact Kept.scheduled found key others

theorem actAll_kept (m : Manager) (action : TaskAction) (now : Moment) :
    Leaves (Kept m) (Kept m) (m.actAll action now) := by
  have each : ∀ (kinds : List TaskKind) (m' : Manager), Kept m m' →
      Leaves (Kept m) (Kept m) (kinds.foldlM (fun m kind => m.act kind action now) m') := by
    intro kinds
    induction kinds with
    | nil => exact fun m' kept => kept
    | cons kind kinds ih =>
        intro m' kept
        rw [List.foldlM_cons]
        exact (kept.before (act_kept m' kind action now)).bind ih
  exact each TaskKind.all m (Kept.refl m)

theorem start_kept (m : Manager) (now : Moment) : Leaves (Kept m) (Kept m) (m.start now) := by
  unfold start
  split
  · exact Kept.refl m
  · have running : Kept m { m with running := true } := ⟨id, fun _ => rfl, rfl, rfl, rfl⟩
    exact running.before (actAll_kept _ .start now)

theorem stop_kept (m : Manager) (now : Moment) : Leaves (Kept m) (Kept m) (m.stop now) := by
  unfold stop
  split
  · have stopped : Kept m { m with running := false } := ⟨id, fun _ => rfl, rfl, rfl, rfl⟩
    exact stopped.before (actAll_kept _ .stop now)
  · exact Kept.refl m

theorem opened_kept (m : Manager) :
    Kept m m.opened := Kept.store (Store.SamePrivate.ensureOpen m.store)

theorem download_kept (m : Manager) (now : Moment) :
    Leaves (Kept m) (fun r => Kept m r.2) (m.download now) := by
  unfold download
  split
  · exact Kept.refl m
  · have asked : ∀ service, Kept m { m with service } := fun _ => ⟨id, fun _ => rfl, rfl, rfl, rfl⟩
    split
    next credentials service _ =>
    cases credentials with
    | error f => exact asked service
    | ok credentials =>
        refine (Leaves.attempt (Q := fun r => m.store.SamePrivate r.2) ?_ ?_).bind ?_
        · exact (asked service).trans (opened_kept _)
        · exact fun r done => Store.SamePrivate.addPublic done
        · rintro ⟨outcome, store⟩ same
          have added : Kept m { m with service, store } := ⟨id, fun _ => same, rfl, rfl, rfl⟩
          cases outcome with
          | error f => exact added
          | ok u =>
              have told := added.trans (Kept.notify _ .publicDownloaded)
              exact (told.before (act_kept _ .cleanup .reschedule now)).bind fun m' kept => kept

theorem removeExpired_kept (m : Manager) (now : Moment) :
    Leaves (Kept m) (fun r => Kept m r.2) (m.removeExpired now) :=
  Leaves.map (Leaves.attempt (opened_kept m) fun _ done => Kept.store
    (Store.SamePrivate.removeExpiredPublic done))

theorem clearPublic_kept (m : Manager) (now : Moment) :
    Leaves (Kept m) (fun r => Kept m r.2) (m.clearPublic now) := by
  have cleared : Kept m { m with store := m.store.clearPublic.2 } :=
    Kept.store (Store.SamePrivate.clearPublic m.store)
  exact Leaves.map (cleared.before (act_kept _ .cleanup .reschedule now))

theorem openPublic_kept (m : Manager) (key : EncryptedMetadataKey) :
    Leaves (Kept m) (fun r => Kept m r.2) (m.openPublic key) := by
  have read : Kept m { m with store := m.store.getPublic.2 } :=
    Kept.store (Store.SamePrivate.getPublic m.store)
  unfold openPublic
  split
  · next found =>
      rw [found] at read
      exact read
  · next found =>
      rw [found] at read
      exact Leaves.map (Leaves.attempt (opened_kept m) fun _ _ => read)

theorem disarmWith_kept (m : Manager) {f : RecurringTask → RecurringTask}
    (same : ∀ t s', f t = .scheduled s' → ∃ s, t = .scheduled s ∧ s'.key = s.key) :
    Kept m (m.disarmWith f) where
  apart apart kind s' found := by
    have here : (m.disarmWith f).tasks.get kind = f (m.tasks.get kind) := by cases kind <;> rfl
    rw [here] at found
    obtain ⟨s, own, key⟩ := same _ _ found
    rw [key]
    exact apart kind s own
  stored _ := rfl
  device := rfl
  account := rfl
  entropy := rfl

end Manager
end ProximityCert

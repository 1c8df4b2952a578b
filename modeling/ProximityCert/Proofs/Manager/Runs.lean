import ProximityCert.Proofs.Manager.Renewal

/-!
Runs of a manager, from preferences that hold no private certificates on. Commands come in any order,
clocks only go forward, and between two commands anything may happen to the surroundings: the manager is
started anew on the same preferences, contacts and devices change, the stored certificates are
damaged. Whenever a renewal succeeds, every visibility has a full row of windows with the present in
exactly one of them.
-/

namespace ProximityCert

namespace Tasks

theorem get_scheduled (retry : RetryPolicy) (p : Preferences) (kind : TaskKind) :
    (scheduled retry p).1.get kind = .scheduled { key := kind.key, retry } := by
  cases kind <;> rfl

theorem scheduled_find? (retry : RetryPolicy) {p : Preferences} {name : String}
    (other : ∀ kind : TaskKind, name ≠ kind.key) :
    (scheduled retry p).2.find? name = p.find? name := by
  have steps : (scheduled retry p).2 =
      TaskKind.all.foldl (fun p kind => Scheduler.recover kind.key p) p := rfl
  rw [steps]
  simp only [TaskKind.all, List.foldl_cons, List.foldl_nil]
  rw [Scheduler.recover_find? (other _), Scheduler.recover_find? (other _),
    Scheduler.recover_find? (other _), Scheduler.recover_find? (other _)]

end Tasks

namespace Manager

variable {t : Instant} {now : Moment} {made new : List PrivateCertificate} {ids : List Bytes}
    {m m' : Manager}

theorem key_ne (kind : TaskKind) : kind.key ≠ Store.privateKey := by
  cases kind <;> decide

theorem create_apart (config : ManagerConfig) (device : Device) (account : Option Account)
    (store : Store) (driven : Bool)
    (entropy : Entropy) : (create config device account store driven entropy).Apart := by
  intro kind s found
  cases driven with
  | true =>
      have here : (create config device account store true entropy).tasks.get kind =
          .scheduled { key := kind.key, retry := .ofConfig config } :=
            Tasks.get_scheduled _ store.preferences kind
      rw [here] at found
      rw [← RecurringTask.scheduled.inj found]
      exact key_ne kind
  | false => cases kind <;> exact nomatch found

theorem create_samePrivate (config : ManagerConfig) (device : Device) (account : Option Account)
    (store : Store) (driven : Bool) (entropy : Entropy) :
    store.SamePrivate (create config device account store driven entropy).store := by
  cases driven with
  | true => exact Tasks.scheduled_find? (.ofConfig config) fun kind => Ne.symm (key_ne kind)
  | false => rfl

/-- The manager that some work leaves, wherever it ended. -/
def leftBy {α : Type} (f : α → Manager) : Except Interrupted α → Manager
  | .ok a => f a
  | .error e => e.manager

theorem Leaves.leftBy {α : Type} {P : Manager → Prop} {f : α → Manager} {r : Except Interrupted α}
    (h : Leaves P (fun a => P (f a)) r) : P (leftBy f r) := by
  cases r with
  | ok a => exact h
  | error e => exact h

/-- What can happen to a manager at a time, with the certificates that it makes. Tasks may be taken in
their parts, between which the clock goes on. -/
inductive Step (now : Moment) : Manager → List PrivateCertificate → Manager → Prop
  | command (m : Manager) (c : Command) :
      Step now m (m.madeBy now c) (leftBy Prod.snd (m.perform now c))
  | task (m : Manager) (kind : TaskKind) :
      Step now m (m.made now kind) (leftBy id (m.complete kind now))
  | refresh (m : Manager) (requestUpload : Bool) :
      Step now m (m.newcomers now) (leftBy Prod.snd (m.refresh requestUpload now))
  | publish (m : Manager) (force : Bool) : Step now m [] (leftBy Prod.snd (m.publish force now))
  | clear (m : Manager) : Step now m [] m.clearPrivate
  | act (m : Manager) (kind : TaskKind) (action : TaskAction) :
      Step now m [] (leftBy id (m.act kind action now))
  /-- The timer of a task fires. -/
  | timer {m : Manager} {kind : TaskKind} {s : Scheduler} : m.tasks.get kind = .scheduled s →
      Step now m [] ((m.setTask kind (.scheduled (s.fire m.store.preferences).2.1)).setPreferences
        (s.fire m.store.preferences).2.2)
  | dropped (m : Manager) : Step now m [] m.dropped
  | abandoned (m : Manager) : Step now m [] m.abandoned
  /-- A new manager takes over the preferences. -/
  | restart (m : Manager) (config : ManagerConfig) (device : Device) (account : Option Account)
      (database : Database) (maxAttempts : Nat) (driven : Bool) (entropy : Entropy) :
      device.Describable account →
      Step now m [] (create config device account (.create m.store.preferences database maxAttempts)
        driven entropy)
  /-- The device, its account, the service, the observers or the database change. -/
  | surroundings (m : Manager) (device : Device) (account : Option Account) (service : Service)
      (observers : Observers) (database : Database) : device.Describable account →
      Step now m []
        { m with device, account, service, observers, store := { m.store with database } }
  /-- Preferences change beside the private certificates, or leave them unreadable. -/
  | rewritten {m : Manager} {p : Preferences} {f : Failure} :
      p.find? Store.privateKey = m.store.preferences.find? Store.privateKey ∨
        (m.setPreferences p).store.getPrivate = .error f →
      Step now m [] (m.setPreferences p)

/-- What can have become of a manager, with all certificates made on the way, by the time the clock was
read last. -/
inductive Run : Instant → List PrivateCertificate → Manager → Prop
  | created {t : Instant} {preferences : Preferences} (config : ManagerConfig) (device : Device)
      (account : Option Account) (database : Database) (maxAttempts : Nat) (driven : Bool)
      (entropy : Entropy) :
      preferences.find? Store.privateKey = none → device.Describable account →
      Run t [] (create config device account (.create preferences database maxAttempts)
        driven entropy)
  | step {t : Instant} {now : Moment} {made new : List PrivateCertificate} {m m' : Manager} :
      Run t made m → t ≤ now.now → now.now.Ample → Step now m new m' → Run now.now (made ++ new) m'

/-- No step breaks what renewals and requests for keys keep. -/
theorem Step.preserved {Q : List Bytes → Manager → Prop} (step : Step now m new m')
    (P : Preserved now Q) (h : Q ids m) (distinct : (ids ++ new.map PrivateCertificate.id).Nodup) :
    Q (ids ++ new.map PrivateCertificate.id) m' := by
  have wide : Q (ids ++ new.map PrivateCertificate.id) m := P.widen h _
  cases step with
  | command c => exact (P.perform h c distinct).leftBy
  | task kind => exact (P.complete h kind distinct).leftBy
  | refresh requestUpload => exact (P.refresh h distinct requestUpload).leftBy
  | publish force => exact (P.publish wide force).leftBy
  | clear => exact P.cleared wide
  | act kind action => exact (P.keep wide (act_kept m kind action now)).leftBy
  | timer found =>
      obtain ⟨key, others⟩ := Scheduler.fire_keeps _ m.store.preferences
      exact P.kept wide (Kept.scheduled found key others)
  | dropped =>
      apply P.kept wide (disarmWith_kept m _)
      intro t s' stopped
      cases t with
      | recorded t => exact nomatch stopped
      | scheduled s =>
          refine ⟨s, rfl, ?_⟩
          rw [← RecurringTask.scheduled.inj stopped, Scheduler.stop]
          split <;> rfl
  | abandoned =>
      apply P.kept wide (disarmWith_kept m _)
      intro t s' disarmed
      cases t with
      | recorded t => exact nomatch disarmed
      | scheduled s =>
          refine ⟨s, rfl, ?_⟩
          rw [← RecurringTask.scheduled.inj disarmed]
  | restart config device account database maxAttempts driven entropy describable =>
      refine P.outside wide (fun _ => create_apart _ _ _ _ _ _) (.inr describable) ?_
      intro _ cs found
      have reopened : m.store.SamePrivate (.create m.store.preferences database maxAttempts) := rfl
      rw [(create_samePrivate ..).getPrivate, reopened.getPrivate] at found
      exact .inl found
  | surroundings device account service observers database describable =>
      refine P.outside wide id (.inr describable) ?_
      intro _ cs found
      have same : m.store.SamePrivate { m.store with database } := rfl
      exact .inl (same.getPrivate ▸ found)
  | rewritten change =>
      refine P.outside wide id (.inl ⟨rfl, rfl⟩) ?_
      intro _ cs found
      rcases change with same | unreadable
      · have same : m.store.SamePrivate (m.setPreferences _).store := same
        exact .inl (same.getPrivate ▸ found)
      · rw [unreadable] at found
        exact nomatch found

theorem create_rotating (config : ManagerConfig) (device : Device) (account : Option Account)
    (store : Store) (driven : Bool) (entropy : Entropy)
    (absent : store.preferences.find? Store.privateKey = none)
    (describable : device.Describable account) :
    (create config device account store driven entropy).Rotating t ids := by
  refine ⟨create_apart _ _ _ _ _ _, describable, ?_⟩
  intro cs found
  rw [(create_samePrivate ..).getPrivate, Store.getPrivate_of_absent absent] at found
  exact Except.ok.inj found ▸ Holding.nil _ _

theorem Run.rotating (run : Run t made m) (distinct : (made.map PrivateCertificate.id).Nodup) :
    m.Rotating t (made.map PrivateCertificate.id) := by
  induction run with
  | created config device account database maxAttempts driven entropy absent describable =>
      exact create_rotating _ _ _ _ _ _ absent describable
  | step run later ample step ih =>
      rw [List.map_append] at distinct ⊢
      have before := ih (List.nodup_append.1 distinct).1
      exact step.preserved (Rotating.preserved ample ample (Int.le_refl _))
        (before.mono later fun _ member => member) distinct

theorem Run.quiet (run : Run t made m) (later : t ≤ now.now) (ample : now.now.Ample)
    (step : Step now m [] m') :
    Run now.now made m' := List.append_nil made ▸ run.step later ample step

/-- An upload that has cost contacts their access renews at a point that such a run reaches. -/
theorem Run.removal (run : Run t made m) (later : t ≤ now.now) (ample : now.now.Ample)
    (removed : m.publish false now = .ok (some true, m')) : Run now.now made m'.clearPrivate := by
  have published := run.quiet later ample (.publish m false)
  rw [removed] at published
  exact published.quiet (Int.le_refl _) ample (.clear m')

/-- After every renewal that succeeds, each visibility has a full row of windows and no other certificates
are stored, and exactly one window of each visibility contains the present. The preferences are in memory
and take every write, so what was made is stored. -/
theorem renewed_of_run (run : Run t made m) (later : t ≤ now.now) (ample : now.now.Ample)
    {requestUpload : Bool} (success : m.refresh requestUpload now = .ok (true, m'))
    (distinct : ((made ++ m.newcomers now).map PrivateCertificate.id).Nodup) :
    m'.Renewed now.now := by
  rw [List.map_append] at distinct
  have before := run.rotating (List.nodup_append.1 distinct).1
  have after := refresh_leaves (before.mono later fun _ member => member) ample distinct
    requestUpload
  rw [success] at after
  exact after.2 rfl

namespace Newborn

def device : Device := { id := "d", name := "n" }

def entropy : Entropy := { octet := UInt8.ofNat }

def manager : Manager := create {} device none (.create .empty (.memory {}) 3) false entropy

def moment : Moment := ⟨Instant.epoch, 0⟩

end Newborn

set_option maxRecDepth 100000 in
theorem renewed_newborn : ∃ m', Newborn.manager.refresh true Newborn.moment = .ok (true, m') ∧
      m'.Renewed Newborn.moment.now := by
  have success : (Newborn.manager.refresh true Newborn.moment).toOption.map Prod.fst =
    some true := by decide +kernel
  have distinct : (([] ++ Newborn.manager.newcomers Newborn.moment).map
    PrivateCertificate.id).Nodup := by decide +kernel
  have describable : Newborn.device.Describable none := by
    intro metadata told
    rw [← Option.some.inj told]
    decide +kernel
  have run : Run Newborn.moment.now [] Newborn.manager :=
    .created {} Newborn.device none (.memory {}) 3 false Newborn.entropy rfl describable
  have ample : Newborn.moment.now.Ample := ⟨by decide, by decide⟩
  cases done : Newborn.manager.refresh true Newborn.moment with
  | error e =>
      rw [done] at success
      exact nomatch success
  | ok r =>
      obtain ⟨flag, m'⟩ := r
      rw [done] at success
      obtain rfl : flag = true := Option.some.inj success
      exact ⟨m', rfl, renewed_of_run run (Int.le_refl _) ample done distinct⟩

end Manager
end ProximityCert

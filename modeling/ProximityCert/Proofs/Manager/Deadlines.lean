import ProximityCert.Proofs.Manager.Deliveries
import ProximityCert.Proofs.Manager.Errands
import ProximityCert.Proofs.Manager.Setbacks
import ProximityCert.Proofs.Storage.Cleanup

/-!
When a task that has succeeded is due again. Renewals and clean-ups are due at an instant, which is the
earliest end of what is stored, with the tolerance for public certificates. Their work drops all that
has reached this instant, to the nanosecond, so once a success is reported the instant lies ahead and
the timer is not armed for at once.
-/

namespace ProximityCert

namespace TaskState

theorem untilTarget_pos {now target : Instant} (ahead : now < target) :
    0 < untilTarget now target := by
  have later : now.nanos < target.nanos := ahead
  have reached : now ≤ target := Int.le_of_lt later
  rw [untilTarget, Instant.since?, if_pos reached, Option.getD_some]
  exact Int.pos_iff_toNat_pos.1 (Int.sub_pos.2 later)

/-- Once a success is recorded, and unless a request is open, only the instant counts at which the
task is due. -/
theorem timeUntilNext_of_success {t : TaskState} (idle : t.pendingImmediateRequest = false)
    (next : Option Instant) (now : Instant) (retry : RetryPolicy) :
    (t.recordResult true now).timeUntilNext (.expiration (.ok next)) now true retry =
      .ok (next.map (untilTarget now)) := by
  simp [timeUntilNext, recordResult, idle, Except.map]

end TaskState

namespace Store

variable {s s' : Store} {cs : List PrivateCertificate} {now : Instant}

theorem mem_of_nextPrivateEnd {stop : Instant} (found : s.getPrivate = .ok cs)
    (next : s.nextPrivateEnd = some stop) : ∃ c ∈ cs, c.notAfter = stop := by
  have chosen (t : Instant) (c : PrivateCertificate) :
      earlier t c.notAfter = t ∨ earlier t c.notAfter = c.notAfter := by
    unfold earlier
    split
    · exact .inr rfl
    · exact .inl rfl
  rw [nextPrivateEnd, found] at next
  cases cs with
  | nil => cases next
  | cons c rest =>
      have earliest := Option.some.inj next
      rcases foldl_chosen chosen rest c.notAfter with first | ⟨x, member, taken⟩
      · exact ⟨c, List.mem_cons_self, first.symm.trans earliest⟩
      · exact ⟨x, List.mem_cons_of_mem c member, taken.symm.trans earliest⟩

end Store

namespace Manager

variable {m m' : Manager} {kind : TaskKind} {now : Moment}

/-- Whether a task is asked for as soon as possible. -/
def Requested (m : Manager) (kind : TaskKind) : Prop :=
  (Scheduler.load kind.key m.store.preferences).pendingImmediateRequest = true

/-- The time to the next request of a task, as its scheduler computes it. -/
def untilNext (m : Manager) (kind : TaskKind) (now : Moment) : Except ClockFault (Option Duration) :=
  match m.tasks.get kind with
  | .recorded _ => .ok none
  | .scheduled s => s.timeUntilNext m.store.preferences (m.cadence kind) now

/-- A success is reported, and the task is asked for again after a delay, if at all. -/
def WaitsFor (m : Manager) (kind : TaskKind) (now : Moment) (delay : Option Duration) : Prop :=
  ∃ m', m.act kind (.handleResult true) now = .ok m' ∧ m'.untilNext kind now = .ok delay ∧
    (m'.tasks.get kind).timer = delay.map fun d => ⟨now.elapsed, d⟩

theorem refreshDue_congr {s s' : Store} (same : s.SamePrivate s') : refreshDue s' = refreshDue s := by
  unfold refreshDue Store.nextPrivateEnd
  rw [same.getPrivate]

/-- When a task is due does not depend on the stored progress of any. -/
theorem cadence_congr {p : Preferences} {t : RecurringTask}
    (same : p.find? Store.privateKey = m.store.preferences.find? Store.privateKey) :
    ((m.setTask kind t).setPreferences p).cadence kind = m.cadence kind := by
  cases kind with
  | refresh => exact congrArg (fun due => Cadence.expiration (.ok due)) (refreshDue_congr same)
  | cleanup | upload | download => rfl

/-- A task that is due at an instant waits until then once its success is reported. -/
theorem waitsFor_of_due {next : Option Instant} (driven : m.Driven) (running : m.running = true)
    (due : m.cadence kind = .expiration (.ok next)) (idle : ¬ m.Requested kind) (now : Moment) :
    m.WaitsFor kind now (next.map (TaskState.untilTarget now.now)) := by
  obtain ⟨s, minds⟩ := driven kind
  have runs : s.running = true := minds.running.trans running
  let delay := next.map (TaskState.untilTarget now.now)
  let progress := Scheduler.load s.key m.store.preferences
  let p := Scheduler.save s.key m.store.preferences (progress.recordResult true now.now)
  let s' : Scheduler := { s with timer := delay.map fun d => ⟨now.elapsed, d⟩ }
  have closed : progress.pendingImmediateRequest = false := by
    rw [Requested, ← minds.key] at idle
    exact Bool.eq_false_iff.2 idle
  have computed (timer : Option Timer) :
      Scheduler.timeUntilNext { s with timer } p (.expiration (.ok next)) now = .ok delay := by
    rw [Scheduler.timeUntilNext, Scheduler.load_save]
    dsimp only
    rw [runs]
    exact TaskState.timeUntilNext_of_success closed next now.now s.retry
  have reported :
      s.act m.store.preferences (m.cadence kind) now (.handleResult true) = .ok (s', p) := by
    rw [Scheduler.act, Scheduler.handleResult, Scheduler.reschedule, if_pos runs, due]
    exact congrArg _ (congrArg _ (computed s.timer))
  have others : p.find? Store.privateKey = m.store.preferences.find? Store.privateKey :=
    Scheduler.save_find? (minds.key ▸ kind.key_ne_private.symm) _
  have task : ((m.setTask kind (.scheduled s')).setPreferences p).tasks.get kind = .scheduled s' :=
    Tasks.get_set_self ..
  refine ⟨(m.setTask kind (.scheduled s')).setPreferences p, ?_, ?_, ?_⟩
  · rw [act, minds.found]
    dsimp only
    rw [reported]
    rfl
  · rw [untilNext, task]
    dsimp only
    rw [cadence_congr others, due]
    exact computed _
  · rw [task]
    rfl

theorem Driven.apart (h : m.Driven) : m.Apart := by
  intro kind s found
  obtain ⟨s', minds⟩ := h kind
  obtain rfl : s' = s := RecurringTask.scheduled.inj (minds.found.symm.trans found)
  rw [minds.key]
  exact kind.key_ne_private

section Renewal

variable {cs : List PrivateCertificate}

theorem certificateCount_le {ws : List Window} (full : ∀ v ∈ Visibility.generated,
    certificatesPerVisibility ≤ (Window.of v ws).length) : certificateCount ≤ ws.length := by
  have apart : (Window.of .allContacts ws).length + (Window.of .selectedContacts ws).length +
      (Window.of .selfShare ws).length ≤ ws.length := by
    clear full
    induction ws with
    | nil => exact Nat.le_refl _
    | cons w ws ih =>
        simp only [Window.of, List.filter_cons, List.length_cons] at ih ⊢
        cases w.visibility <;> simp <;> omega
  have all := full .allContacts (by decide)
  have selected := full .selectedContacts (by decide)
  have own := full .selfShare (by decide)
  have count : certificateCount = 9 ∧ certificatesPerVisibility = 3 := ⟨rfl, rfl⟩
  omega

theorem opensAt_ample {t : Instant} (ample : t.Ample) (ends : ∀ c ∈ cs, c.notAfter.Ample)
    (v : Visibility) : (Slot.of v t cs).opensAt.Ample := by
  rcases Slot.opensAt_mem v t cs with present | ⟨c, member, same⟩
  · rw [present]
    exact ample
  · rw [same]
    exact ends c member

/-- New certificates can be stored with any that were read. They outlast the present, and make up for
what each visibility lacks. -/
theorem refill_lasting {left new : List PrivateCertificate} {metadata : Metadata} {e e' : Entropy}
    (filled : Slot.fillAll metadata (Visibility.generated.map fun v => Slot.of v now.now left) e =
      .ok (new, e'))
    (short : (Message.encode metadata).length < UInt64.size) (ample : now.now.Ample)
    (ends : ∀ c ∈ left, c.notAfter.Ample) :
    (∀ c ∈ new, c.Lasting ∧ now.now < c.notAfter) ∧ certificateCount ≤ (left ++ new).length := by
  obtain ⟨told, rows⟩ := Slot.refill_ok filled
  constructor
  · intro c member
    obtain ⟨opens, period, closes⟩ := Slot.refill_within filled member
    have later := (Slot.le_opensAt c.visibility now.now left).1
    have lower := (opensAt_ample ample ends c.visibility).lower
    have upper := (opensAt_ample ample ends c.visibility).upper
    have positive := Window.Row.positive
    have nine : 0 < certificatesPerVisibility * (PrivateCertificate.validityPeriod : Int) := by
      decide
    refine ⟨⟨⟨by omega, by omega⟩, ⟨by omega, by omega⟩, ?_⟩, ?_⟩
    · rw [(told c member).1]
      exact Metadata.sized_of_short short
    · exact show now.now.nanos < c.notAfter.nanos by omega
  · rw [← List.length_map PrivateCertificate.window]
    refine certificateCount_le fun v generated => ?_
    rw [List.map_append, Window.of_append, List.length_append, (rows v generated).2]
    omega

/-- A renewal that succeeds on certificates that can be read drops those that have expired and adds
none that has; there are as many then as there should be. -/
theorem Renewing.refilled (renewing : Renewing m now (some true) m') (apart : m.Apart)
    (describable : m.device.Describable m.account) (found : m.store.getPrivate = .ok cs)
    (ample : now.now.Ample) (ends : ∀ c ∈ cs, c.notAfter.Ample) :
    ∃ new, m'.store.getPrivate = .ok (cs.filter (fun c => now.now < c.notAfter) ++ new) ∧
      (∀ c ∈ new, now.now < c.notAfter) ∧
      certificateCount ≤ (cs.filter (fun c => now.now < c.notAfter) ++ new).length := by
  have weeded : (m.weeded now).store.getPrivate = .ok (cs.filter fun c => now.now < c.notAfter) :=
    Store.removeExpiredPrivate_of_ok found
  cases renewing with
  | enough got full =>
      obtain rfl := Except.ok.inj (got.symm.trans weeded)
      refine ⟨[], ?_, List.forall_mem_nil _, ?_⟩
      · rw [List.append_nil]
        exact got
      · rw [List.append_nil]
        exact Nat.le_of_eq full.symm
  | short failed _ => exact absurd rfl failed
  | @filled _ stored m₁ _ metadata new e _ loaded told filled _ same =>
      cases loaded with
      | wiped got _ => cases got.symm.trans weeded
      | found got =>
          obtain rfl := Except.ok.inj (got.symm.trans weeded)
          obtain ⟨young, full⟩ := refill_lasting filled (describable metadata told) ample
            fun c member => ends c (List.mem_filter.1 member).1
          have lasting : ∀ c ∈ cs.filter (fun c => now.now < c.notAfter) ++ new, c.Lasting := by
            intro c member
            rcases List.mem_append.1 member with old | made
            · exact Store.lasting_of_getPrivate found c (List.mem_filter.1 old).1
            · exact (young c made).1
          refine ⟨new, ?_, fun c made => (young c made).2, full⟩
          exact (same.stored apart).getPrivate.trans (Store.getPrivate_replacePrivate _ lasting)

theorem refreshDue_ahead {t : Instant} (found : m.store.getPrivate = .ok cs)
    (enough : certificateCount ≤ cs.length) (unexpired : ∀ c ∈ cs, t < c.notAfter) :
    ∃ target, refreshDue m.store = some target ∧ t < target := by
  obtain ⟨target, due⟩ := refreshDue_isSome m.store
  refine ⟨target, due, ?_⟩
  rw [refreshDue, found] at due
  dsimp only at due
  rw [if_pos enough] at due
  obtain ⟨c, member, rfl⟩ := Store.mem_of_nextPrivateEnd found due
  exact unexpired c member

end Renewal

/-- Once nothing in the index has lapsed, the next clean-up lies ahead. -/
theorem cleanupDue_ahead {s : Store} {t : Instant}
    (each : ∀ e ∈ s.expirations, e.2.InTime ∧ ¬ e.2.Lapsed t) :
    ∃ next, cleanupDue s = .ok next ∧ (next = none ↔ s.expirations = []) ∧
      ∀ target ∈ next, t < target := by
  cases index : s.expirations with
  | nil =>
      have never : cleanupDue s = .ok none := by
        rw [cleanupDue, Store.nextPublicEnd, index]
        rfl
      refine ⟨none, never, ⟨fun _ => rfl, fun _ => rfl⟩, ?_⟩
      intro target absent
      cases absent
  | cons e rest =>
      have first : e ∈ s.expirations := by
        rw [index]
        exact List.mem_cons_self
      obtain ⟨inTime, waits⟩ := each e first
      obtain ⟨limit, ends⟩ := Instant.completes_plus.2 inTime
      have due : cleanupDue s = .ok (some limit) := by
        rw [cleanupDue, Store.nextPublicEnd, index]
        show (e.2.plus Validity.tolerance).map some = _
        rw [ends]
        rfl
      refine ⟨_, due, ⟨nofun, nofun⟩, ?_⟩
      intro target same
      obtain rfl := Option.some.inj same
      have later : t.nanos < e.2.nanos + Validity.tolerance := Int.not_le.1 waits
      exact show t.nanos < limit.nanos from Instant.nanos_plus ends ▸ later

theorem removeExpired_ok (success : m.removeExpired now = .ok (true, m')) :
    ∃ s, m.store.removeExpiredPublic now.now = .ok (.ok (), s) ∧ m' = { m with store := s } := by
  obtain ⟨⟨r, s⟩, attempted, same⟩ := map_eq_ok.1 success
  obtain ⟨worked, rfl⟩ := Prod.mk.inj same
  cases done : m.store.removeExpiredPublic now.now with
  | error fault =>
      rw [done] at attempted
      cases attempted
  | ok result =>
      rw [done] at attempted
      obtain rfl := Except.ok.inj attempted
      cases r with
      | error f => cases worked
      | ok u => exact ⟨s, rfl, rfl⟩

/-- A renewal or a clean-up that succeeds leaves nothing behind that has reached its end, which is where
the next one is due; so unless it was asked for in the meantime, it is not asked for again at once. -/
theorem due_later (driven : m.Driven) (running : m.running = true) (now : Moment) :
    (∀ cs m', m.store.getPrivate = .ok cs → m.device.Describable m.account → now.now.Ample →
      (∀ c ∈ cs, c.notAfter.Ample) → m.work now .refresh = .ok (true, m') →
      (∃ new, m'.store.getPrivate = .ok (cs.filter (fun c => now.now < c.notAfter) ++ new) ∧
        ∀ c ∈ new, now.now < c.notAfter) ∧
      (¬ m'.Requested .refresh → ∃ d, 0 < d ∧ m'.WaitsFor .refresh now (some d))) ∧
    ∀ m', m.store.expirations.Sorted → (∀ e ∈ m.store.expirations, e.2.InTime) →
      m.work now .cleanup = .ok (true, m') →
      (∀ e ∈ m'.store.expirations, e ∈ m.store.expirations ∧ ¬ e.2.Lapsed now.now) ∧
      (∀ e ∈ m.store.ensureOpen.2.expirations, e.2.Lapsed now.now →
        m'.store.database.held.find? e.1 = none) ∧
      (¬ m'.Requested .cleanup → ∃ delay, m'.WaitsFor .cleanup now delay ∧
        (delay = none ↔ m'.store.expirations = []) ∧ ∀ d ∈ delay, 0 < d) := by
  constructor
  · intro cs m' found describable ample ends success
    have renewing := refresh_spec m true now
    have tended := refresh_tended driven true now
    rw [work] at success
    rw [success] at renewing tended
    obtain ⟨new, stored, young, enough⟩ :=
      renewing.refilled driven.apart describable found ample ends
    refine ⟨⟨new, stored, young⟩, fun idle => ?_⟩
    have unexpired : ∀ c ∈ cs.filter (fun c => now.now < c.notAfter) ++ new,
        now.now < c.notAfter := by
      intro c member
      rcases List.mem_append.1 member with old | made
      · exact of_decide_eq_true (List.mem_filter.1 old).2
      · exact young c made
    obtain ⟨target, due, ahead⟩ := refreshDue_ahead stored enough unexpired
    refine ⟨_, TaskState.untilTarget_pos ahead, ?_⟩
    have cadence : m'.cadence .refresh = .expiration (.ok (some target)) := by
      rw [Manager.cadence, due]
    exact waitsFor_of_due tended.driven (tended.running.trans running) cadence idle now
  · intro m' sorted inTime success
    have tended := removeExpired_tended driven now
    rw [work] at success
    rw [success] at tended
    obtain ⟨s', done, rfl⟩ := removeExpired_ok success
    obtain ⟨left, rows⟩ := Store.cleaned sorted done
    refine ⟨left, rows, fun idle => ?_⟩
    obtain ⟨next, due, empty, ahead⟩ := cleanupDue_ahead fun e member =>
      ⟨inTime e (left e member).1, (left e member).2⟩
    have cadence : Manager.cadence { m with store := s' } .cleanup = .expiration (.ok next) := by
      rw [Manager.cadence, due]
    refine ⟨_, waitsFor_of_due tended.driven (tended.running.trans running) cadence idle now, ?_, ?_⟩
    · rw [Option.map_eq_none_iff]
      exact empty
    · intro d waits
      obtain ⟨target, member, rfl⟩ := Option.map_eq_some_iff.1 waits
      exact TaskState.untilTarget_pos (ahead target member)

namespace Punctual

/-- The moment at which all that is stored has just ended, the tolerance included. -/
def moment : Moment := ⟨.ofUnixNanos 1809000000000, 0⟩

def ending : PrivateCertificate where
  visibility := .selfShare
  notBefore := .ofUnixNanos (-257391000000000)
  notAfter := moment.now
  signingKey := ⟨1, by decide, by decide⟩
  secretKey := List.replicate Material.secretKeyLength 0
  metadataKey := List.replicate Material.metadataKeyLength 0
  id := [1]
  metadata := {}
  consumedSalts := .empty
  secretKey_length := List.length_replicate
  metadataKey_length := List.length_replicate

def created : Manager :=
  create {} Newborn.device none (Store.holding.replacePrivate [ending]) true Newborn.entropy

def started : Manager := leftBy id (created.start moment)

theorem created_driven : created.Driven := create_driven _ _ _ _ _

theorem started_driven : started.Driven := by
  have after := start_driven created_driven moment
  have completes : (created.start moment).toOption.isSome = true := by decide +kernel
  unfold started
  cases done : created.start moment with
  | ok m =>
      rw [done] at after
      exact after.1
  | error e =>
      rw [done] at completes
      cases completes

theorem started_kept : Kept created started := by
  apply Leaves.leftBy
  exact start_kept created moment

theorem describable : started.device.Describable started.account := by
  rw [started_kept.device, started_kept.account]
  exact Newborn.describable

theorem stored : started.store.getPrivate = .ok [ending] := by
  have lasting : ∀ c ∈ [ending], c.Lasting := by
    intro c member
    rw [List.mem_singleton.1 member]
    exact ⟨by decide, by decide, Metadata.sized_of_short (by decide)⟩
  have before : created.store.getPrivate = .ok [ending] :=
    (create_samePrivate ..).getPrivate.trans (Store.getPrivate_replacePrivate _ lasting)
  exact (started_kept.stored created_driven.apart).getPrivate.trans before

/-- A piece of work succeeds without asking for its task. -/
def Succeeds (kind : TaskKind) : Prop :=
  (started.work moment kind).toOption.any (fun r => r.1 &&
    !(Scheduler.load kind.key r.2.store.preferences).pendingImmediateRequest) = true

theorem work_of_succeeds (h : Succeeds kind) :
    ∃ m', started.work moment kind = .ok (true, m') ∧ ¬ m'.Requested kind := by
  unfold Succeeds at h
  cases done : started.work moment kind with
  | error e =>
      rw [done] at h
      cases h
  | ok r =>
      obtain ⟨success, m'⟩ := r
      rw [done] at h
      obtain ⟨rfl, idle⟩ := Bool.and_eq_true_iff.1 h
      exact ⟨m', rfl, Bool.eq_false_iff.1 (Bool.not_eq_true' _ ▸ idle)⟩

set_option maxRecDepth 100000 in
theorem renews : Succeeds .refresh := by
  unfold Succeeds
  decide +kernel

set_option maxRecDepth 100000 in
theorem cleans : Succeeds .cleanup := by
  unfold Succeeds
  decide +kernel

end Punctual

set_option maxRecDepth 100000 in
/-- At the very moment at which all that is stored has ended, it goes, and what comes next lies ahead. -/
theorem due_later_punctual : ∃ m₁ m₂,
    Punctual.started.work Punctual.moment .refresh = .ok (true, m₁) ∧
    (∃ new, m₁.store.getPrivate = .ok new ∧ ∀ c ∈ new, Punctual.moment.now < c.notAfter) ∧
    (∃ d, 0 < d ∧ m₁.WaitsFor .refresh Punctual.moment (some d)) ∧
    Punctual.started.work Punctual.moment .cleanup = .ok (true, m₂) ∧
    m₂.store.database.held.find? [1] = none ∧
    m₂.WaitsFor .cleanup Punctual.moment none := by
  have running : Punctual.started.running = true := by decide +kernel
  have later := due_later Punctual.started_driven running Punctual.moment
  have ample : Punctual.moment.now.Ample := ⟨by decide, by decide⟩
  have ends : ∀ c ∈ [Punctual.ending], c.notAfter.Ample := by
    intro c member
    rw [List.mem_singleton.1 member]
    exact ample
  obtain ⟨m₁, renewed, idle₁⟩ := Punctual.work_of_succeeds Punctual.renews
  obtain ⟨m₂, cleaned, idle₂⟩ := Punctual.work_of_succeeds Punctual.cleans
  obtain ⟨⟨new, left, young⟩, waits⟩ :=
    later.1 _ m₁ Punctual.stored Punctual.describable ample ends renewed
  have index : Punctual.started.store.expirations = [([1], .ofUnixNanos 9000000000)] := by
    decide +kernel
  have sorted : Punctual.started.store.expirations.Sorted := by
    rw [index]
    exact List.pairwise_singleton _ _
  have inTime : ∀ e ∈ Punctual.started.store.expirations, e.2.InTime := by
    rw [index]
    decide +kernel
  obtain ⟨entries, rows, rests⟩ := later.2 m₂ sorted inTime cleaned
  have lapsed : (Instant.ofUnixNanos 9000000000).Lapsed Punctual.moment.now := by decide +kernel
  have empty : m₂.store.expirations = [] := by
    refine List.eq_nil_iff_forall_not_mem.2 fun e member => ?_
    obtain ⟨old, waiting⟩ := entries e member
    rw [index] at old
    rw [List.mem_singleton.1 old] at waiting
    exact waiting lapsed
  have opened : ([1], Instant.ofUnixNanos 9000000000) ∈
      Punctual.started.store.ensureOpen.2.expirations := by decide +kernel
  have gone : [Punctual.ending].filter (fun c => Punctual.moment.now < c.notAfter) = [] := by
    decide +kernel
  obtain ⟨delay, rest, unplanned, _⟩ := rests idle₂
  rw [gone] at left
  refine ⟨m₁, m₂, renewed, ⟨new, left, young⟩, waits idle₁, cleaned, rows _ opened lapsed, ?_⟩
  rw [← unplanned.2 empty]
  exact rest

end Manager
end ProximityCert

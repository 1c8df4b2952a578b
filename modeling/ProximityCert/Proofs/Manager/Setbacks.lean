import ProximityCert.Proofs.Manager.Runs

/-!
Clocks that are set back. Renewals count what has not expired, and requests look for a window that
contains the present; the two agree while the clock goes forward. Once it is set back, the windows of a
visibility may all lie ahead. They are left alone, and new ones open behind them, so that a renewal which
succeeds serves a visibility only if it was served before or had nothing left.
-/

namespace ProximityCert

namespace Slot

variable {v : Visibility} {now : Instant} {cs : List PrivateCertificate}

/-- The next window opens behind all that are there, and not before the present. -/
theorem le_opensAt (v : Visibility) (now : Instant) (cs : List PrivateCertificate) :
    now.nanos ≤ (Slot.of v now cs).opensAt.nanos ∧
      ∀ c ∈ cs, c.visibility = v → c.notAfter.nanos ≤ (Slot.of v now cs).opensAt.nanos := by
  have latest : ∀ (ds : List PrivateCertificate) (t : Instant),
      t.nanos ≤ (ds.foldl (fun t c => if t ≤ c.notAfter then c.notAfter else t) t).nanos ∧
      ∀ d ∈ ds, d.notAfter.nanos ≤
        (ds.foldl (fun t c => if t ≤ c.notAfter then c.notAfter else t) t).nanos := by
    intro ds
    induction ds with
    | nil => exact fun t => ⟨Int.le_refl _, fun d absent => (List.not_mem_nil absent).elim⟩
    | cons d ds ih =>
        intro t
        rw [List.foldl_cons]
        split
        · next later =>
            obtain ⟨first, rest⟩ := ih d.notAfter
            exact ⟨Int.le_trans later first, List.forall_mem_cons.2 ⟨first, rest⟩⟩
        · next earlier =>
            obtain ⟨first, rest⟩ := ih t
            have behind : d.notAfter.nanos ≤ t.nanos := Int.le_of_lt (Int.not_le.1 earlier)
            exact ⟨first, List.forall_mem_cons.2 ⟨Int.le_trans behind first, rest⟩⟩
  refine ⟨(latest _ now).1, fun c member own => ?_⟩
  exact (latest _ now).2 c (List.mem_filter.2 ⟨member, decide_eq_true own⟩)

/-- The next window opens where one that is there ends, or at the present. -/
theorem opensAt_mem (v : Visibility) (now : Instant) (cs : List PrivateCertificate) :
    (Slot.of v now cs).opensAt = now ∨ ∃ c ∈ cs, (Slot.of v now cs).opensAt = c.notAfter := by
  have later (t : Instant) (c : PrivateCertificate) :
      (if t ≤ c.notAfter then c.notAfter else t) = t ∨
        (if t ≤ c.notAfter then c.notAfter else t) = c.notAfter := by
    split
    · exact .inr rfl
    · exact .inl rfl
  rcases foldl_chosen later (cs.filter fun c => c.visibility = v) now with first | ⟨c, member, last⟩
  · exact .inl first
  · exact .inr ⟨c, (List.mem_filter.1 member).1, last⟩

theorem opensAt_of_none (none : ∀ c ∈ cs, c.visibility ≠ v) : (Slot.of v now cs).opensAt = now := by
  rw [opensAt_of, of_eq_nil none]
  rfl

end Slot

namespace Manager

variable {t : Instant} {now : Moment} {made new cs : List PrivateCertificate} {ids : List Bytes}
  {m m' : Manager} {v : Visibility}

/-- The stored certificates, none if they are unreadable. -/
def certificates (m : Manager) : List PrivateCertificate := m.store.getPrivate.toOption.getD []

/-- Whether a certificate serves a visibility at a time. -/
def Serves (v : Visibility) (now : Instant) (c : PrivateCertificate) : Prop :=
  c.visibility = v ∧ c.notBefore ≤ now ∧ now < c.notAfter

instance (v : Visibility) (now : Instant) (c : PrivateCertificate) : Decidable (Serves v now c) :=
  inferInstanceAs (Decidable (_ ∧ _ ∧ _))

theorem findValid_eq (v : Visibility) (now : Instant) (cs : List PrivateCertificate) :
    findValid v now cs = .ok (cs.find? fun c => decide (Serves v now c)) := by
  induction cs with
  | nil => rfl
  | cons c rest ih =>
      rw [findValid, ih, List.find?_cons, Validity.contains_exactly]
      by_cases own : c.visibility = v
      · rw [if_pos own]
        by_cases serves : c.notBefore ≤ now ∧ now < c.notAfter
        · simp [bind, Except.bind, pure, Except.pure, Serves, own, serves]
        · have not : ¬ Serves v now c := fun serving => serves serving.2
          simp [bind, Except.bind, not, serves]
      · have not : ¬ Serves v now c := fun serving => own serving.1
        rw [if_neg own, decide_eq_false not]

/-- A visibility is served if any of its stored certificates does. -/
theorem getValid_iff (found : m.store.getPrivate = .ok cs) (generated : v ∈ Visibility.generated) :
    (∃ c, m.getValid v now = .ok (some c, m)) ↔ ∃ c ∈ cs, Serves v now.now c := by
  have own : v.certificate? = some v := by
    simp only [Visibility.generated, List.mem_cons, List.not_mem_nil, or_false] at generated
    rcases generated with rfl | rfl | rfl <;> rfl
  have loaded : m.loadPrivate now = .ok (some cs, m) := by
    rw [loadPrivate, found]
  have valid : m.getValid v now = (cs.find? fun c => decide (Serves v now.now c)).elim
      ((m.requestRefresh now).map fun m => (none, m)) fun c => .ok (some c, m) := by
    unfold getValid
    rw [own]
    dsimp only
    rw [loaded]
    dsimp only [bind, Except.bind]
    rw [findValid_eq]
    cases cs.find? fun c => decide (Serves v now.now c) with
    | some c => rfl
    | none =>
        dsimp only [attempt, Except.mapError]
        cases m.requestRefresh now with
        | ok m' => rfl
        | error e => rfl
  rw [valid]
  cases first : cs.find? fun c => decide (Serves v now.now c) with
  | some c =>
      refine ⟨fun _ => ⟨c, List.mem_of_find?_eq_some first, ?_⟩, fun _ => ⟨c, rfl⟩⟩
      have serves := List.find?_some first
      exact of_decide_eq_true serves
  | none =>
      constructor
      · rintro ⟨c, served⟩
        obtain ⟨m', _, same⟩ := map_eq_ok.1 served
        cases same
      · rintro ⟨c, member, serves⟩
        exact absurd (decide_eq_true serves) (List.find?_eq_none.1 first c member)

/-- What a renewal makes are the certificates that its slots lack, or none. -/
theorem newcomers_ok (m : Manager) (now : Moment) : m.newcomers now = [] ∨
    ∃ metadata e, Slot.fillAll metadata
      (Visibility.generated.map fun v => Slot.of v now.now (m.left now)) m.entropy =
        .ok (m.newcomers now, e) := by
  have made : ∀ new, m.newcomers now = new → new = [] ∨ ∃ metadata e, Slot.fillAll metadata
      (Visibility.generated.map fun v => Slot.of v now.now (m.left now)) m.entropy = .ok (new, e) := by
    intro new made
    unfold newcomers at made
    dsimp only at made
    split at made
    · exact .inl made.symm
    · split at made
      · exact .inl made.symm
      · next metadata _ =>
          split at made
          · next young e filled => exact .inr ⟨metadata, e, made ▸ filled⟩
          · exact .inl made.symm
  exact made _ rfl

theorem newcomers_open {c : PrivateCertificate} (member : c ∈ m.newcomers now) :
    (Slot.of c.visibility now.now (m.left now)).opensAt.nanos ≤ c.notBefore.nanos := by
  rcases newcomers_ok m now with none | ⟨metadata, e, filled⟩
  · rw [none] at member
    exact (List.not_mem_nil member).elim
  · exact (Slot.refill_within filled member).1

/-- New windows lie ahead if any is left. -/
theorem newcomers_ahead (unexpired : ∀ c ∈ m.left now, now.now < c.notAfter)
    {c x : PrivateCertificate} (member : c ∈ m.newcomers now) (own : x ∈ m.left now)
    (same : x.visibility = c.visibility) : now.now < c.notBefore := by
  have ahead : now.now.nanos < x.notAfter.nanos := unexpired x own
  have behind := (Slot.le_opensAt c.visibility now.now (m.left now)).2 x own same
  exact Int.lt_of_lt_of_le ahead (Int.le_trans behind (newcomers_open member))

/-- Where none is left, the first new window opens at once. -/
theorem newcomers_serve (generated : v ∈ Visibility.generated)
    (none : ∀ c ∈ m.left now, c.visibility ≠ v)
    (full : (Window.of v ((m.left now ++ m.newcomers now).map PrivateCertificate.window)).length =
      certificatesPerVisibility) : ∃ c ∈ m.newcomers now, Serves v now.now c := by
  rw [List.map_append, Window.of_append, Slot.of_eq_nil none, List.nil_append] at full
  rcases newcomers_ok m now with nothing | ⟨metadata, e, filled⟩
  · rw [nothing] at full
    cases full
  · obtain ⟨⟨stop, row⟩, _⟩ := (Slot.refill_ok filled).2 v generated
    rw [Slot.opensAt_of_none none] at row
    cases windows : Window.of v ((m.newcomers now).map PrivateCertificate.window) with
    | nil =>
        rw [windows] at full
        cases full
    | cons w ws =>
        have first : w ∈ Window.of v ((m.newcomers now).map PrivateCertificate.window) :=
          windows ▸ List.mem_cons_self
        obtain ⟨member, own⟩ := Window.mem_of.1 first
        obtain ⟨c, made, rfl⟩ := List.mem_map.1 member
        rw [windows] at row
        obtain ⟨_, _, period⟩ := row.mem List.mem_cons_self
        have positive := Window.Row.positive
        have opens := row.opens_eq
        rw [opens] at period
        refine ⟨c, made, own, Int.le_of_eq (congrArg Instant.nanos opens), ?_⟩
        exact show now.now.nanos < c.window.closes.nanos by omega

/-- A visibility is served after a renewal if it was served before or had nothing left. -/
theorem Topped.serves_iff (h : Topped t ids now.now (m.left now ++ m.newcomers now))
    (generated : v ∈ Visibility.generated) :
    (∃ c ∈ m.left now ++ m.newcomers now, Serves v now.now c) ↔
      (∃ c ∈ m.left now, Serves v now.now c) ∨ ∀ c ∈ m.left now, c.visibility ≠ v := by
  have unexpired : ∀ c ∈ m.left now, now.now < c.notAfter := fun c member =>
    h.unexpired c (List.mem_append_left _ member)
  constructor
  · rintro ⟨c, member, serves⟩
    rcases List.mem_append.1 member with old | young
    · exact .inl ⟨c, old, serves⟩
    · refine .inr fun x own same => ?_
      have ahead : now.now.nanos < c.notBefore.nanos :=
        newcomers_ahead unexpired young own (same.trans serves.1.symm)
      exact absurd serves.2.1 (Int.not_le.2 ahead)
  · rintro (⟨c, old, serves⟩ | none)
    · exact ⟨c, List.mem_append_left _ old, serves⟩
    · obtain ⟨c, young, serves⟩ := newcomers_serve generated none (h.full v generated)
      exact ⟨c, List.mem_append_right _ young, serves⟩

theorem left_eq (m : Manager) (now : Moment) :
    m.left now = m.certificates.filter fun c => now.now < c.notAfter := by
  unfold left weeded certificates
  cases found : m.store.getPrivate with
  | error f =>
      rw [Store.removeExpiredPrivate_of_error found, found]
      rfl
  | ok cs =>
      dsimp only
      rw [Store.removeExpiredPrivate_of_ok found]
      rfl

/-- A manager whose clock may have been set back at any time renews to this effect. -/
theorem Rotating.served (h : m.Rotating t ids) (late : t.Ample) (ample : now.now.Ample)
    (past : now.now.nanos ≤ t.nanos) {requestUpload : Bool}
    (success : m.refresh requestUpload now = .ok (true, m'))
    (distinct : (ids ++ (m.newcomers now).map PrivateCertificate.id).Nodup)
    (generated : v ∈ Visibility.generated) :
    (∃ c, m'.getValid v now = .ok (some c, m')) ↔
      (∃ c ∈ m.certificates, Serves v now.now c) ∨
        ∀ c ∈ m.certificates, c.visibility = v → c.notAfter ≤ now.now := by
  have after := refresh_topped h late ample past distinct requestUpload
  rw [success] at after
  obtain ⟨found, topped⟩ := after.2 rfl
  rw [getValid_iff found generated, topped.serves_iff generated, left_eq m now]
  refine or_congr ?_ ?_
  · constructor
    · rintro ⟨c, member, serves⟩
      exact ⟨c, (List.mem_filter.1 member).1, serves⟩
    · rintro ⟨c, member, serves⟩
      exact ⟨c, List.mem_filter.2 ⟨member, decide_eq_true serves.2.2⟩, serves⟩
  · constructor
    · intro none c member own
      by_cases expired : now.now < c.notAfter
      · exact absurd own (none c (List.mem_filter.2 ⟨member, decide_eq_true expired⟩))
      · exact Int.not_lt.1 expired
    · intro ended c member own
      obtain ⟨stored, unexpired⟩ := List.mem_filter.1 member
      exact absurd (of_decide_eq_true unexpired) (Int.not_lt.2 (ended c stored own))

theorem refresh_of_enough (enough : (m.left now).length = certificateCount)
    (requestUpload : Bool) : m.refresh requestUpload now = .ok (true, m.weeded now) := by
  cases found : (m.weeded now).store.getPrivate with
  | error f =>
      rw [left, found] at enough
      cases enough
  | ok cs =>
      rw [left, found] at enough
      have loaded : (m.weeded now).loadPrivate now = .ok (some cs, m.weeded now) := by
        rw [loadPrivate, found]
      have full : cs.length = certificateCount := enough
      unfold refresh
      dsimp only
      rw [← weeded, loaded]
      dsimp only [bind, Except.bind, Option.getD_some]
      rw [if_pos full]
      rfl

/-- A renewal soon after another one, or at any time before it, finds nothing to do. -/
theorem Topped.again {early : Moment} {late : Instant} (h : Topped t ids late cs)
    (found : m.store.getPrivate = .ok cs) (back : early.now ≤ late) (requestUpload : Bool) :
    m.refresh requestUpload early = .ok (true, m.weeded early) ∧ m.newcomers early = [] ∧
      (m.weeded early).store.getPrivate = .ok cs := by
  have kept : (cs.filter fun c => early.now < c.notAfter) = cs := by
    refine List.filter_eq_self.2 fun c member => decide_eq_true ?_
    exact Int.lt_of_le_of_lt back (h.unexpired c member)
  have still : (m.weeded early).store.getPrivate = .ok cs := by
    have read : (m.store.removeExpiredPrivate early.now).2.getPrivate = _ :=
      Store.removeExpiredPrivate_of_ok found
    rw [kept] at read
    exact read
  have enough : (m.left early).length = certificateCount := by
    have whole := Rotation.length_eq h.holding.windows.generated
    rw [h.full _ (by decide), h.full _ (by decide), h.full _ (by decide), List.length_map] at whole
    rw [left, still]
    exact whole
  exact ⟨refresh_of_enough enough requestUpload, newcomers_of_enough enough, still⟩

/-- Certificates that were all made at one time serve nobody before it, and are not added to. -/
theorem Rotating.unserved {early late : Moment} (h : m.Rotating t ids) (bound : t.Ample)
    (ample : late.now.Ample) (past : late.now.nanos ≤ t.nanos) {requestUpload : Bool}
    (success : m.refresh requestUpload late = .ok (true, m')) (empty : m.certificates = [])
    (distinct : (ids ++ (m.newcomers late).map PrivateCertificate.id).Nodup)
    (back : early.now < late.now) :
    m'.refresh requestUpload early = .ok (true, m'.weeded early) ∧ m'.newcomers early = [] ∧
      ∀ v ∈ Visibility.generated,
        ¬ ∃ c, (m'.weeded early).getValid v early = .ok (some c, m'.weeded early) := by
  have after := refresh_topped h bound ample past distinct requestUpload
  rw [success] at after
  obtain ⟨found, topped⟩ := after.2 rfl
  obtain ⟨renewed, none, still⟩ := topped.again found (Int.le_of_lt back) requestUpload
  refine ⟨renewed, none, fun v generated served => ?_⟩
  obtain ⟨c, member, _, opened, _⟩ := (getValid_iff still generated).1 served
  -- All of them were made at the later time, so none opens before it.
  have made : c ∈ m.newcomers late := by
    rw [left_eq m late, empty] at member
    exact member
  have opens := Int.le_trans (Slot.le_opensAt c.visibility late.now (m.left late)).1
    (newcomers_open made)
  exact absurd (Int.lt_of_lt_of_le back opens) (Int.not_lt.2 opened)

/-- What can have become of a manager while the clock was set at will, with a bound on all its
readings. -/
inductive Drift : Instant → List PrivateCertificate → Manager → Prop
  | created {t : Instant} {preferences : Preferences} (config : ManagerConfig) (device : Device)
      (account : Option Account) (database : Database) (maxAttempts : Nat) (driven : Bool)
      (entropy : Entropy) :
      t.Ample → preferences.find? Store.privateKey = none → device.Describable account →
      Drift t [] (create config device account (.create preferences database maxAttempts)
        driven entropy)
  | step {t u : Instant} {now : Moment} {made new : List PrivateCertificate} {m m' : Manager} :
      Drift t made m → t ≤ u → now.now ≤ u → u.Ample → now.now.Ample → Step now m new m' →
      Drift u (made ++ new) m'

theorem Drift.ample (drift : Drift t made m) : t.Ample := by
  cases drift with
  | created _ _ _ _ _ _ _ ample _ _ => exact ample
  | step _ _ _ ample _ _ => exact ample

theorem Drift.rotating (drift : Drift t made m) (distinct : (made.map PrivateCertificate.id).Nodup) :
    m.Rotating t (made.map PrivateCertificate.id) := by
  induction drift with
  | created config device account database maxAttempts driven entropy _ absent describable =>
      exact create_rotating _ _ _ _ _ _ absent describable
  | step _ wider past late ample step ih =>
      rw [List.map_append] at distinct ⊢
      have before := ih (List.nodup_append.1 distinct).1
      exact step.preserved (Rotating.preserved late ample past)
        (before.mono wider fun _ member => member) distinct

/-- After a renewal that succeeds, a visibility is served exactly if one of its certificates served it
before or none of them was unexpired; and every visibility is, unless the clock was ahead once. -/
theorem served_of_drift (drift : Drift t made m) (ample : now.now.Ample) {requestUpload : Bool}
    (success : m.refresh requestUpload now = .ok (true, m'))
    (distinct : ((made ++ m.newcomers now).map PrivateCertificate.id).Nodup)
    (generated : v ∈ Visibility.generated) :
    ((∃ c, m'.getValid v now = .ok (some c, m')) ↔
      (∃ c ∈ m.certificates, Serves v now.now c) ∨
        ∀ c ∈ m.certificates, c.visibility = v → c.notAfter ≤ now.now) ∧
    (t ≤ now.now → ∃ c, m'.getValid v now = .ok (some c, m')) := by
  rw [List.map_append] at distinct
  have before := drift.rotating (List.nodup_append.1 distinct).1
  by_cases later : t ≤ now.now
  · have present := before.mono later fun _ member => member
    refine ⟨present.served ample ample (Int.le_refl _) success distinct generated, fun _ => ?_⟩
    have after := refresh_leaves present ample distinct requestUpload
    rw [success] at after
    obtain ⟨cs, found, rotated⟩ := after.2 rfl
    rw [getValid_iff found generated]
    have one : 0 < (Window.of v (cs.map PrivateCertificate.window)).countP
        (Window.covers now.now) := by
      rw [rotated.current v generated]
      exact Nat.one_pos
    obtain ⟨w, member, covers⟩ := List.countP_pos_iff.1 one
    obtain ⟨window, own⟩ := Window.mem_of.1 member
    obtain ⟨c, stored, rfl⟩ := List.mem_map.1 window
    obtain ⟨opened, ahead⟩ := Bool.and_eq_true_iff.1 covers
    exact ⟨c, stored, own, of_decide_eq_true opened, of_decide_eq_true ahead⟩
  · refine ⟨before.served drift.ample ample ?_ success distinct generated, fun past => ?_⟩
    · exact Int.le_of_lt (Int.not_le.1 later)
    · exact absurd past later

namespace Newborn

/-- Ten days after the epoch, and then five. -/
def late : Moment := ⟨.ofUnixNanos 864000000000000, 0⟩

def early : Moment := ⟨.ofUnixNanos 432000000000000, 0⟩

/-- The manager once it has renewed its certificates late. -/
def ahead : Manager := leftBy Prod.snd (manager.refresh true late)

theorem late_ample : late.now.Ample := ⟨by decide, by decide⟩

theorem early_ample : early.now.Ample := ⟨by decide, by decide⟩

theorem describable : device.Describable none := by
  intro metadata told
  rw [← Option.some.inj told]
  decide +kernel

set_option maxRecDepth 100000 in
theorem distinct : ((manager.newcomers late).map PrivateCertificate.id).Nodup := by
  decide +kernel

set_option maxRecDepth 100000 in
theorem renewed : ∃ m, manager.refresh true late = .ok (true, m) := by
  have success : (manager.refresh true late).toOption.map Prod.fst = some true := by decide +kernel
  cases done : manager.refresh true late with
  | error e =>
      rw [done] at success
      exact nomatch success
  | ok r =>
      obtain ⟨flag, m⟩ := r
      rw [done] at success
      obtain rfl : flag = true := Option.some.inj success
      exact ⟨m, rfl⟩

/-- Once the clock is set back, the next renewal succeeds, makes nothing and serves nobody. -/
theorem setback {m : Manager} (success : manager.refresh true late = .ok (true, m)) :
    m.refresh true early = .ok (true, m.weeded early) ∧ m.newcomers early = [] ∧
      ∀ v ∈ Visibility.generated,
        ¬ ∃ c, (m.weeded early).getValid v early = .ok (some c, m.weeded early) := by
  have created : manager.Rotating late.now [] := create_rotating _ _ _ _ _ _ rfl describable
  refine created.unserved late_ample late_ample (Int.le_refl _) success rfl ?_ (by decide)
  rw [List.nil_append]
  exact distinct

end Newborn

theorem served_of_drift_newborn : ∃ m₁ m₂, Newborn.manager.refresh true Newborn.late =
      .ok (true, m₁) ∧ m₁.refresh true Newborn.early = .ok (true, m₂) ∧
    ((∃ c, m₂.getValid .selfShare Newborn.early = .ok (some c, m₂)) ↔
      (∃ c ∈ m₁.certificates, Serves .selfShare Newborn.early.now c) ∨
        ∀ c ∈ m₁.certificates, c.visibility = .selfShare → c.notAfter ≤ Newborn.early.now) := by
  obtain ⟨m₁, success⟩ := Newborn.renewed
  obtain ⟨again, nothing, _⟩ := Newborn.setback success
  have drift : Drift Newborn.late.now [] Newborn.manager :=
    .created {} Newborn.device none (.memory {}) 3 false Newborn.entropy Newborn.late_ample rfl
      Newborn.describable
  have step : Step Newborn.late Newborn.manager (Newborn.manager.newcomers Newborn.late) m₁ := by
    have renewal : Step Newborn.late _ _ _ := .refresh Newborn.manager true
    rw [success] at renewal
    exact renewal
  have renewed := drift.step (Int.le_refl _) (Int.le_refl _) Newborn.late_ample Newborn.late_ample
    step
  refine ⟨m₁, m₁.weeded Newborn.early, success, again, ?_⟩
  refine (served_of_drift renewed Newborn.early_ample again ?_ (by decide)).1
  rw [nothing, List.append_nil, List.nil_append]
  exact Newborn.distinct

/-- Set back by five days, the clock leaves a manager without a certificate that serves, although it has
just been renewed with success. -/
theorem unserved_newborn : ∃ m₁ m₂, Newborn.manager.refresh true Newborn.late = .ok (true, m₁) ∧
    m₁.refresh true Newborn.early = .ok (true, m₂) ∧
      ∀ v ∈ Visibility.generated, ¬ ∃ c, m₂.getValid v Newborn.early = .ok (some c, m₂) := by
  obtain ⟨m₁, success⟩ := Newborn.renewed
  obtain ⟨again, _, unserved⟩ := Newborn.setback success
  exact ⟨m₁, m₁.weeded Newborn.early, success, again, unserved⟩

end Manager
end ProximityCert

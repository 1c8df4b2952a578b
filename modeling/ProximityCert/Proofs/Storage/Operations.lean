import ProximityCert.Proofs.Outcomes
import ProximityCert.Storage.Store

/-!
Everything that an operation on public certificates can leave. It opens the store first; from there it
changes the rows, and the index after them unless the database failed.
-/

namespace ProximityCert.Store

variable {s s' : Store} {certificates : List PublicCertificate} {now : Instant}
    {r : Except Failure Unit} {change : Rows → Rows} {es : Expirations}

/-- The rows of an open store were changed; the index was set if the database has taken the change. -/
inductive Written (s : Store) (change : Rows → Rows) (es : Expirations) : Except Failure Unit → Store → Prop
  | failed {f : Failure} (refused : (s.database.update change).1 = .error f) :
      Written s change es (.error f) { s with database := (s.database.update change).2 }
  | done (taken : (s.database.update change).1 = .ok ()) :
      Written s change es (.ok ())
        (({ s with database := (s.database.update change).2 } : Store).setExpirations es)

/-- A result of changing the rows, as an operation gives it. -/
theorem Written.of_update {database : Database} (h : s.database.update change = (r, database)) :
    Written s change es r
      (match r with
      | .error _ => { s with database }
      | .ok () => ({ s with database } : Store).setExpirations es) := by
  obtain rfl : (s.database.update change).2 = database := congrArg Prod.snd h
  cases r with
  | error f => exact .failed (congrArg Prod.fst h)
  | ok _ => exact .done (congrArg Prod.fst h)

section Opening

/-- What an attempt to open a store comes to. -/
inductive Attempt (s : Store) : Option (Except Failure Unit) × Store → Prop
  | opened {database : Database} : s.database.openUp = (.ok, database) →
      Attempt s (some (.ok ()), { s with database, openState := .initialized })
  | again {database : Database} : s.database.openUp = (.error, database) →
      Attempt s (none, { s with database })
  | stuck {opened database : Database} {f : Failure} : s.database.openUp = (.corrupt, opened) →
      opened.destroy = (.error f, database) →
      Attempt s (some (.error f), { s with database, openState := .failed })
  | erased {opened database : Database} : s.database.openUp = (.corrupt, opened) →
      opened.destroy = (.ok (), database) → Attempt s (none, ({ s with database }).setExpirations [])

theorem attempt_attemptOpen (s : Store) : Attempt s s.attemptOpen := by
  unfold attemptOpen
  split
  · next found => exact .opened found
  · next found => exact .again found
  · next found =>
      split
      · next gone => exact .stuck found gone
      · next gone => exact .erased found gone

theorem openWithin_succ (attempts : Nat) (s : Store) : openWithin (attempts + 1) s =
    match s.attemptOpen with
    | (some r, s) => (r, s)
    | (none, s) => openWithin attempts s := by
  simp only [openWithin, openMeanwhile]
  rcases s.attemptOpen with ⟨_ | _, _⟩ <;> rfl

theorem ensureOpen_eq (s : Store) : s.ensureOpen =
    match s.openState with
    | .initialized => (.ok (), s)
    | .failed => (.error openFault, s)
    | .uninitialized => openWithin s.maxAttempts s := by
  unfold ensureOpen ensureOpenMeanwhile
  cases s.openState <;> rfl

/-- What every attempt to open a store keeps, however it ends, the verdict included. -/
structure KeptByOpening (P : Store → Prop) : Prop where
  verdict {s : Store} (openState : OpenState) : P s → P { s with openState }
  attempt {s : Store} : P s → P { s with database := s.database.openUp.2 }
  stuck {s : Store} {f : Failure} {database : Database} : P s → s.database.openUp.1 = .corrupt →
    s.database.openUp.2.destroy = (.error f, database) → P { s with database }
  erased {s : Store} {database : Database} : P s → s.database.openUp.1 = .corrupt →
    s.database.openUp.2.destroy = (.ok (), database) → P (({ s with database }).setExpirations [])

variable {P : Store → Prop} (kept : KeptByOpening P)
include kept

theorem KeptByOpening.attemptOpen {s : Store} (h : P s) : P s.attemptOpen.2 := by
  have attempt := s.attempt_attemptOpen
  have tried := kept.attempt h
  generalize s.attemptOpen = result at attempt ⊢
  cases attempt with
  | opened found =>
      rw [found] at tried
      exact kept.verdict .initialized tried
  | again found =>
      rw [found] at tried
      exact tried
  | stuck found gone =>
      exact kept.verdict .failed (kept.stuck h (congrArg Prod.fst found) (by rw [found]; exact gone))
  | erased found gone =>
      exact kept.erased h (congrArg Prod.fst found) (by rw [found]; exact gone)

theorem KeptByOpening.openWithin (attempts : Nat) {s : Store} (h : P s) :
    P (openWithin attempts s).2 := by
  induction attempts generalizing s with
  | zero => exact kept.verdict .failed h
  | succ attempts ih =>
      have tried := kept.attemptOpen h
      rw [openWithin_succ]
      generalize s.attemptOpen = result at tried ⊢
      obtain ⟨_ | _, s₁⟩ := result
      · exact ih tried
      · exact tried

/-- A store that opens has come to its last attempt with what every attempt keeps. -/
theorem KeptByOpening.opened {attempts : Nat} {s s' : Store} (h : P s)
    (opens : Store.openWithin attempts s = (.ok (), s')) :
    ∃ s₀ database, P s₀ ∧ s₀.database.openUp = (.ok, database) ∧
      s' = { s₀ with database, openState := .initialized } := by
  induction attempts generalizing s with
  | zero => cases opens
  | succ attempts ih =>
      have attempt := s.attempt_attemptOpen
      have tried := kept.attemptOpen h
      rw [openWithin_succ] at opens
      generalize s.attemptOpen = result at attempt tried opens
      cases attempt with
      | opened found =>
          cases opens
          exact ⟨s, _, h, found, rfl⟩
      | again found => exact ih tried opens
      | stuck found gone => cases opens
      | erased found gone => exact ih tried opens

theorem KeptByOpening.ensureOpen {s : Store} (h : P s) : P s.ensureOpen.2 := by
  rw [Store.ensureOpen_eq]
  split
  · exact h
  · exact h
  · exact kept.openWithin s.maxAttempts h

end Opening

theorem opened_of_openWithin {attempts : Nat} (opens : openWithin attempts s = (.ok (), s')) :
    ∃ (s₀ : Store) (database : Database), s₀.database.openUp = (.ok, database) ∧
      s' = { s₀ with database, openState := .initialized } := by
  have anything : KeptByOpening fun _ => True :=
    ⟨fun _ _ => trivial, fun _ => trivial, fun _ _ _ => trivial, fun _ _ _ => trivial⟩
  obtain ⟨s₀, database, _, opened⟩ := anything.opened trivial opens
  exact ⟨s₀, database, opened⟩

theorem openState_of_ensureOpen (h : s.ensureOpen = (.ok (), s')) : s'.openState = .initialized := by
  rw [ensureOpen_eq] at h
  split at h
  · next settled =>
      cases h
      exact settled
  · cases h
  · obtain ⟨_, _, _, rfl⟩ := opened_of_openWithin h
    rfl

theorem getPublic_snd (s : Store) : s.getPublic.2 = s.ensureOpen.2 := by
  unfold getPublic
  split
  · next found => rw [found]
  · next found => rw [found]

theorem load_of_getPublic {rows : List PublicCertificate} (h : s.getPublic.1 = .ok rows) :
    s.ensureOpen.2.database.load = .ok rows := by
  unfold getPublic at h
  split at h
  · cases h
  · next found =>
      rw [found]
      exact h

theorem addPublic_cases (h : s.addPublic certificates = .ok (r, s')) :
    (s' = s.ensureOpen.2 ∧ r ≠ .ok ()) ∨
      ∃ new, s.ensureOpen.2.openState = .initialized ∧ Expirations.ofCertificates certificates = .ok new ∧
        Written s.ensureOpen.2 (fun rows => rows.upsert certificates)
          (s.ensureOpen.2.expirations.merge new) r s' := by
  unfold addPublic at h
  split at h
  · next found =>
      cases h
      rw [found]
      exact .inl ⟨rfl, nofun⟩
  · next found =>
      obtain ⟨new, ends, h⟩ := bind_eq_ok.1 h
      refine .inr ⟨new, ?_⟩
      rw [found]
      refine ⟨openState_of_ensureOpen found, ends, ?_⟩
      split at h
      · next failed =>
          cases h
          exact .of_update failed
      · next added =>
          cases h
          exact .of_update added

theorem removeExpiredPublic_cases (h : s.removeExpiredPublic now = .ok (r, s')) :
    (s' = s.ensureOpen.2 ∧ (r = .ok () → s.ensureOpen.2.expirations.takeExpired now = .ok [])) ∨
      ∃ expired, s.ensureOpen.2.openState = .initialized ∧
        s.ensureOpen.2.expirations.takeExpired now = .ok expired ∧
        Written s.ensureOpen.2 (fun rows => rows.removeAll (expired.map Prod.fst))
          (s.ensureOpen.2.expirations.filter fun e => !(expired.map Prod.fst).contains e.1) r s' := by
  unfold removeExpiredPublic at h
  split at h
  · next found =>
      cases h
      rw [found]
      exact .inl ⟨rfl, nofun⟩
  · next found =>
      obtain ⟨expired, taken, h⟩ := bind_eq_ok.1 h
      dsimp only at h
      split at h
      · next nothing =>
          cases h
          rw [found]
          have none : expired = [] := by simpa using nothing
          exact .inl ⟨rfl, fun _ => none ▸ taken⟩
      · refine .inr ⟨expired, ?_⟩
        rw [found]
        refine ⟨openState_of_ensureOpen found, taken, ?_⟩
        split at h
        · next failed =>
            cases h
            exact .of_update failed
        · next removed =>
            cases h
            exact .of_update removed

theorem replacePublic_cases (h : s.replacePublic certificates = .ok (r, s')) :
    s' = s.ensureOpen.2 ∨ Written s.ensureOpen.2 (fun _ => .empty) [] r s' ∨
      ∃ cleared new, Written s.ensureOpen.2 (fun _ => .empty) [] (.ok ()) cleared ∧
        Written cleared (fun rows => rows.upsert certificates) new r s' := by
  unfold replacePublic at h
  split at h
  · next found =>
      cases h
      rw [found]
      exact .inl rfl
  · next found =>
      obtain ⟨new, _, h⟩ := bind_eq_ok.1 h
      refine .inr ?_
      rw [found]
      split at h
      · next failed =>
          cases h
          exact .inl (.of_update failed)
      · next cleared =>
          refine .inr ⟨_, new.sort, .of_update cleared, ?_⟩
          dsimp only at h
          split at h
          · next failed =>
              cases h
              exact .of_update failed
          · next added =>
              cases h
              exact .of_update added

theorem clearPublic_cases (s : Store) :
    s.clearPublic.2 = s.ensureOpen.2 ∨
      Written s.ensureOpen.2 (fun _ => .empty) [] s.clearPublic.1 s.clearPublic.2 := by
  unfold clearPublic
  split
  · next found =>
      rw [found]
      exact .inl rfl
  · next found =>
      rw [found]
      refine .inr ?_
      split
      · next failed => exact .of_update failed
      · next cleared => exact .of_update cleared

end ProximityCert.Store

import ProximityCert.Proofs.Storage.Expiry

/-!
The attempts to open the database of a store. Others may use the database as well, and tell it before
every attempt what to answer; so the answers are any endless sequence, and opening reads a part of it
that is no longer than the attempts allowed. Nothing that comes after the verdict reads any further.
-/

namespace ProximityCert

/-- What a database answers to an attempt, and whether it could be erased then. -/
structure Answer where
  result : OpenResult
  erasable : Bool

namespace Answer

/-- Everything is erased. -/
def Erases (a : Answer) : Prop := a.result = .corrupt ∧ a.erasable = true

/-- What should be erased cannot be. -/
def Stuck (a : Answer) : Prop := a.result = .corrupt ∧ a.erasable = false

instance (a : Answer) : Decidable a.Erases := inferInstanceAs (Decidable (_ ∧ _))
instance (a : Answer) : Decidable a.Stuck := inferInstanceAs (Decidable (_ ∧ _))

/-- One of the first answers opens the database, and nothing before it ends the attempts. -/
def OpensWithin (answers : Nat → Answer) (attempts : Nat) : Prop :=
  ∃ k < attempts, (answers k).result = .ok ∧ ∀ i < k, ¬ (answers i).Stuck

theorem opensWithin_succ {answers : Nat → Answer} {attempts : Nat} :
    OpensWithin answers (attempts + 1) ↔ (answers 0).result = .ok ∨
      ¬ (answers 0).Stuck ∧ OpensWithin (fun i => answers (i + 1)) attempts := by
  unfold OpensWithin
  rw [Nat.exists_lt_succ_left]
  refine or_congr (and_iff_left fun i early => (Nat.not_lt_zero i early).elim) ?_
  simp only [Nat.forall_lt_succ_left]
  constructor
  · rintro ⟨k, early, opens, first, others⟩
    exact ⟨first, k, early, opens, others⟩
  · rintro ⟨first, k, early, opens, others⟩
    exact ⟨k, early, opens, first, others⟩

end Answer

namespace MemoryDatabase

/-- The answers of a database that nobody tells others. -/
def answers (m : MemoryDatabase) (i : Nat) : Answer := ⟨m.openScript[i]?.getD .ok, !m.failDestroy⟩

/-- The database once it has been told what to answer next. -/
def told (m : MemoryDatabase) (a : Answer) : MemoryDatabase :=
  { m with openScript := a.result :: m.openScript.tail, failDestroy := !a.erasable }

end MemoryDatabase

namespace Store

variable {s s' s₁ : Store} {m : MemoryDatabase} {rows : Rows} {index : Expirations}
  {p : Preferences}

def tell (s : Store) (a : Answer) : Store :=
  match s.database with
  | .memory m => { s with database := .memory (m.told a) }
  | .file _ => s

/-- Tries to open a database that is told its answers; gives the number of attempts as well. -/
def openTold (answers : Nat → Answer) (attempts : Nat) (s : Store) :
    (Except Failure Unit × Store) × Nat :=
  openMeanwhile (fun i s => s.tell (answers i)) attempts s

theorem openTold_succ (answers : Nat → Answer) (attempts : Nat) (s : Store) :
    openTold answers (attempts + 1) s =
      match (s.tell (answers 0)).attemptOpen with
      | (some r, s) => ((r, s), 1)
      | (none, s) =>
        let (outcome, calls) := openTold (fun i => answers (i + 1)) attempts s
        (outcome, calls + 1) := rfl

/-! What an attempt does to a database in memory. -/

/-- A store in memory, by its rows, its index and its preferences. -/
structure Holds (s : Store) (rows : Rows) (index : Expirations) (p : Preferences) : Prop where
  database : ∃ m, s.database = .memory m ∧ m.rows = rows
  expirations : s.expirations = index
  preferences : s.preferences = p

/-- The preferences once the index is empty. -/
def withoutIndex (p : Preferences) : Preferences := p.insert expirationsKey (Expirations.toJson [])

/-- What an answer makes of an attempt. -/
inductive Attempted (a : Answer) (rows : Rows) (index : Expirations) (p : Preferences) :
    Option (Except Failure Unit) → Store → Prop
  | opened {s : Store} : a.result = .ok → s.openState = .initialized → s.Holds rows index p →
      Attempted a rows index p (some (.ok ())) s
  | again {s : Store} : a.result = .error → s.Holds rows index p → Attempted a rows index p none s
  | erased {s : Store} : a.Erases → s.Holds .empty [] (withoutIndex p) →
      Attempted a rows index p none s
  | stuck {s : Store} {f : Failure} : a.Stuck → s.openState = .failed → s.Holds rows index p →
      Attempted a rows index p (some (.error f)) s

theorem Holds.attempted (h : s.Holds rows index p) (a : Answer) :
    Attempted a rows index p (s.tell a).attemptOpen.1 (s.tell a).attemptOpen.2 := by
  obtain ⟨⟨m, database, rfl⟩, rfl, rfl⟩ := h
  obtain ⟨result, erasable⟩ := a
  simp only [tell, database, attemptOpen, Database.openUp, MemoryDatabase.told, MemoryDatabase.openUp]
  cases result with
  | ok => exact .opened rfl rfl ⟨⟨_, rfl, rfl⟩, rfl, rfl⟩
  | error => exact .again rfl ⟨⟨_, rfl, rfl⟩, rfl, rfl⟩
  | corrupt =>
      cases erasable with
      | true => exact .erased ⟨rfl, rfl⟩ ⟨⟨_, rfl, rfl⟩, rfl, rfl⟩
      | false => exact .stuck ⟨rfl, rfl⟩ rfl ⟨⟨_, rfl, rfl⟩, rfl, rfl⟩

theorem withoutIndex_withoutIndex (p : Preferences) :
    withoutIndex (withoutIndex p) = withoutIndex p := SortedMap.insert_insert p _ _ _

/-- How a store comes out of the attempts to open it. -/
structure Settles (answers : Nat → Answer) (attempts : Nat) (rows : Rows) (index : Expirations)
    (p : Preferences) (r : Except Failure Unit) (s : Store) (calls : Nat) : Prop where
  bounded : calls ≤ attempts
  verdict : s.openState = .initialized ∧ Answer.OpensWithin answers attempts ∧ r = .ok () ∨
    s.openState = .failed ∧ ¬ Answer.OpensWithin answers attempts ∧ r ≠ .ok ()
  erased : (∃ i < calls, (answers i).Erases) → s.Holds .empty [] (withoutIndex p)
  kept : (∀ i < calls, ¬ (answers i).Erases) → s.Holds rows index p

/-- An answer that leaves the attempts going has no part in the verdict. -/
theorem Settles.before {answers : Nat → Answer} {attempts calls : Nat} {r : Except Failure Unit}
    {rows' : Rows} {index' : Expirations} {p' : Preferences}
    (rest : Settles (fun i => answers (i + 1)) attempts rows index p r s calls)
    (fails : (answers 0).result ≠ .ok) (goesOn : ¬ (answers 0).Stuck)
    (erased : (∃ i < calls + 1, (answers i).Erases) → s.Holds .empty [] (withoutIndex p'))
    (kept : (∀ i < calls + 1, ¬ (answers i).Erases) → s.Holds rows' index' p') :
    Settles answers (attempts + 1) rows' index' p' r s (calls + 1) where
  bounded := Nat.succ_le_succ rest.bounded
  verdict := by
    have same : Answer.OpensWithin answers (attempts + 1) ↔
        Answer.OpensWithin (fun i => answers (i + 1)) attempts := by
      rw [Answer.opensWithin_succ, or_iff_right fails, and_iff_right goesOn]
    rw [same]
    exact rest.verdict
  erased := erased
  kept := kept

theorem Holds.settles (h : s.Holds rows index p) (answers : Nat → Answer) (attempts : Nat) :
    ∃ r s' calls, openTold answers attempts s = ((r, s'), calls) ∧
      Settles answers attempts rows index p r s' calls := by
  induction attempts generalizing s rows index p answers with
  | zero =>
      refine ⟨_, _, _, rfl, Nat.le_refl 0, .inr ⟨rfl, ?_, nofun⟩, ?_, fun _ => ⟨h.1, h.2, h.3⟩⟩
      · rintro ⟨k, early, _⟩
        exact Nat.not_lt_zero k early
      · rintro ⟨k, early, _⟩
        exact (Nat.not_lt_zero k early).elim
  | succ attempts ih =>
      have step := h.attempted (answers 0)
      rw [openTold_succ]
      generalize (s.tell (answers 0)).attemptOpen = attempt at step ⊢
      obtain ⟨verdict, s₁⟩ := attempt
      dsimp only at step ⊢
      cases step with
      | opened ok isOpen held =>
          refine ⟨_, _, _, rfl, Nat.le_add_left 1 attempts, .inl ⟨isOpen, ?_, rfl⟩, ?_, fun _ => held⟩
          · exact Answer.opensWithin_succ.2 (.inl ok)
          · rw [Nat.exists_lt_succ_left]
            rintro (⟨corrupt, _⟩ | ⟨i, early, _⟩)
            · cases ok.symm.trans corrupt
            · exact (Nat.not_lt_zero i early).elim
      | stuck stuck failed held =>
          refine ⟨_, _, _, rfl, Nat.le_add_left 1 attempts, .inr ⟨failed, ?_, nofun⟩, ?_, fun _ => held⟩
          · rw [Answer.opensWithin_succ]
            rintro (ok | ⟨free, _⟩)
            · cases ok.symm.trans stuck.1
            · exact free stuck
          · rw [Nat.exists_lt_succ_left]
            rintro (⟨_, erasable⟩ | ⟨i, early, _⟩)
            · cases stuck.2.symm.trans erasable
            · exact (Nat.not_lt_zero i early).elim
      | again error held =>
          obtain ⟨r, s', calls, rest, settles⟩ := ih held fun i => answers (i + 1)
          dsimp only
          rw [rest]
          have notErased : ¬ (answers 0).Erases := fun erases => nomatch error.symm.trans erases.1
          refine ⟨r, s', calls + 1, rfl, settles.before ?_ ?_ ?_ ?_⟩
          · exact fun ok => nomatch error.symm.trans ok
          · exact fun stuck => nomatch error.symm.trans stuck.1
          · rw [Nat.exists_lt_succ_left, or_iff_right notErased]
            exact settles.erased
          · rw [Nat.forall_lt_succ_left]
            exact fun none => settles.kept none.2
      | erased erases held =>
          obtain ⟨r, s', calls, rest, settles⟩ := ih held fun i => answers (i + 1)
          dsimp only
          rw [rest]
          refine ⟨r, s', calls + 1, rfl, settles.before ?_ ?_ ?_ ?_⟩
          · exact fun ok => nomatch erases.1.symm.trans ok
          · exact fun stuck => nomatch erases.2.symm.trans stuck.2
          · -- what has been erased once stays erased, whether it is erased again or not
            intro _
            by_cases again : ∃ i < calls, (answers (i + 1)).Erases
            · exact withoutIndex_withoutIndex p ▸ settles.erased again
            · exact settles.kept fun i early twice => again ⟨i, early, twice⟩
          · intro none
            exact (none 0 (Nat.succ_pos calls) erases).elim

/-! A database that nobody tells anything. -/

theorem attemptOpen_tell_answers (database : s.database = .memory m) :
    (s.tell (m.answers 0)).attemptOpen = s.attemptOpen := by
  obtain ⟨rows, openScript, failOperations, failDestroy, destroyed⟩ := m
  simp only [tell, database, attemptOpen, Database.openUp, MemoryDatabase.told,
    MemoryDatabase.answers, MemoryDatabase.openUp, Bool.not_not]
  cases openScript with
  | nil => rfl
  | cons result rest => rfl

/-- Without a verdict a database goes on with its next answers. -/
theorem answers_attemptOpen (database : s.database = .memory m) (goesOn : s.attemptOpen.1 = none) :
    ∃ m', s.attemptOpen.2.database = .memory m' ∧ m'.answers = fun i => m.answers (i + 1) := by
  obtain ⟨rows, openScript, failOperations, failDestroy, destroyed⟩ := m
  simp only [attemptOpen, database, Database.openUp, MemoryDatabase.openUp] at goesOn ⊢
  cases openScript with
  | nil => cases goesOn
  | cons result rest =>
      cases result with
      | ok => cases goesOn
      | error => exact ⟨_, rfl, rfl⟩
      | corrupt =>
          cases failDestroy with
          | true => cases goesOn
          | false => exact ⟨_, rfl, rfl⟩

theorem openTold_answers (database : s.database = .memory m) (attempts : Nat) :
    (openTold m.answers attempts s).1 = openWithin attempts s := by
  induction attempts generalizing s m with
  | zero => rfl
  | succ attempts ih =>
      have goesOn := answers_attemptOpen database
      rw [openWithin_succ, openTold_succ, attemptOpen_tell_answers database]
      generalize s.attemptOpen = attempt at goesOn ⊢
      obtain ⟨_ | r, s₁⟩ := attempt
      · obtain ⟨m', database', same⟩ := goesOn rfl
        dsimp only
        rw [← same]
        exact ih database'
      · rfl

/-! What comes after the verdict. -/

/-- What can be asked of the public certificates of a store. -/
inductive Request
  | settle | get | add (certificates : List PublicCertificate)
  | replace (certificates : List PublicCertificate) | removeExpired (now : Instant) | clear

namespace Request

def perform : Request → Store → Except ClockFault Store
  | settle, s => .ok s.ensureOpen.2
  | get, s => .ok s.getPublic.2
  | add certificates, s => (s.addPublic certificates).map (·.2)
  | replace certificates, s => (s.replacePublic certificates).map (·.2)
  | removeExpired now, s => (s.removeExpiredPublic now).map (·.2)
  | clear, s => .ok s.clearPublic.2

end Request

/-- The answers that a database has been told to give; every attempt to open it takes one away. -/
def script (s : Store) : List OpenResult :=
  match s.database with
  | .memory m => m.openScript
  | .file _ => []

/-- The verdict stays, and no answer has been read. -/
structure Stands (s s' : Store) : Prop where
  openState : s'.openState = s.openState
  script : s'.script = s.script

theorem Stands.refl (s : Store) : Stands s s := ⟨rfl, rfl⟩

theorem Stands.trans (h : Stands s s₁) (h' : Stands s₁ s') : Stands s s' :=
  ⟨h'.openState.trans h.openState, h'.script.trans h.script⟩

theorem script_update (s : Store) (change : Rows → Rows) :
    ({ s with database := (s.database.update change).2 } : Store).script = s.script := by
  unfold script
  cases s.database with
  | memory m =>
      show (m.update change).2.openScript = m.openScript
      unfold MemoryDatabase.update
      split
      · rfl
      · rfl
  | file f => rfl

theorem Written.stands {change : Rows → Rows} {es : Expirations} {r : Except Failure Unit}
    (h : Written s change es r s') : Stands s s' := by
  cases h with
  | failed _ => exact ⟨rfl, script_update s change⟩
  | done _ => exact ⟨rfl, script_update s change⟩

theorem ensureOpen_of_settled (settled : s.openState ≠ .uninitialized) : s.ensureOpen.2 = s := by
  rw [ensureOpen_eq]
  split
  · rfl
  · rfl
  · next fresh => exact (settled fresh).elim

theorem Request.stands {request : Request} (settled : s.openState ≠ .uninitialized)
    (done : request.perform s = .ok s') : Stands s s' := by
  have opened := ensureOpen_of_settled settled
  cases request with
  | settle =>
      cases done
      rw [opened]
      exact .refl s
  | get =>
      cases done
      rw [getPublic_snd, opened]
      exact .refl s
  | add certificates =>
      obtain ⟨⟨r, _⟩, added, rfl⟩ := map_eq_ok.1 done
      rcases addPublic_cases added with ⟨same, _⟩ | ⟨new, _, _, written⟩
      · rw [same, opened]
        exact .refl s
      · exact opened ▸ written.stands
  | replace certificates =>
      obtain ⟨⟨r, _⟩, replaced, rfl⟩ := map_eq_ok.1 done
      rcases replacePublic_cases replaced with same | written | ⟨cleared, new, first, second⟩
      · rw [same, opened]
        exact .refl s
      · exact opened ▸ written.stands
      · exact (opened ▸ first.stands).trans second.stands
  | removeExpired now =>
      obtain ⟨⟨r, _⟩, removed, rfl⟩ := map_eq_ok.1 done
      rcases removeExpiredPublic_cases removed with ⟨same, _⟩ | ⟨expired, _, _, written⟩
      · rw [same, opened]
        exact .refl s
      · exact opened ▸ written.stands
  | clear =>
      cases done
      rcases s.clearPublic_cases with same | written
      · rw [same, opened]
        exact .refl s
      · have stands := written.stands
        rw [opened] at stands
        exact stands

/-- What can become of a store: it is used, preferences are set, and others tell its database what to
answer from then on. -/
inductive Used (s : Store) : Store → Prop
  | new : Used s s
  | request {s₁ s₂ : Store} (request : Request) : Used s s₁ → request.perform s₁ = .ok s₂ →
      Used s s₂
  | set {s₁ : Store} (preferences : Preferences) : Used s s₁ → Used s { s₁ with preferences }
  | told {s₁ : Store} {m : MemoryDatabase} (openScript : List OpenResult)
      (failOperations failDestroy : Bool) : Used s s₁ → s₁.database = .memory m →
      Used s { s₁ with database := .memory { m with openScript, failOperations, failDestroy } }

theorem Used.openState (used : Used s s₁) (settled : s.openState ≠ .uninitialized) :
    s₁.openState = s.openState := by
  induction used with
  | new => rfl
  | request request _ done ih => exact (request.stands (ih ▸ settled) done).openState.trans ih
  | set _ _ ih => exact ih
  | told _ _ _ _ _ ih => exact ih

/-- The store that has come to its verdict does not come to another. -/
theorem ensureOpen_ensureOpen (s : Store) : s.ensureOpen.2.ensureOpen =
    (s.ensureOpen.1.mapError fun _ => openFault, s.ensureOpen.2) := by
  rcases found : s.ensureOpen with ⟨_ | _, s₁⟩
  · have failed : s₁.openState = .failed := by
      rw [ensureOpen_eq] at found
      split at found
      · cases found
      · next already =>
          cases found
          exact already
      · exact failed_of_openWithin found
    simp only [ensureOpen_eq, failed]
    rfl
  · exact ensureOpen_of_opened (openState_of_ensureOpen found)

/-- A request opens the store, and then is one of the store that has been opened. -/
theorem Request.perform_ensureOpen (request : Request) (s : Store) :
    request.perform s = request.perform s.ensureOpen.2 := by
  have again := s.ensureOpen_ensureOpen
  rcases found : s.ensureOpen with ⟨f | _, s₁⟩
  · rw [found] at again
    have again : s₁.ensureOpen = (.error openFault, s₁) := again
    cases request with
    | settle => simp only [perform, found, again]
    | get => simp only [perform, getPublic, found, again]
    | add certificates => simp only [perform, addPublic, found, again, Except.map]
    | replace certificates => simp only [perform, replacePublic, found, again, Except.map]
    | removeExpired now => simp only [perform, removeExpiredPublic, found, again, Except.map]
    | clear => simp only [perform, clearPublic, found, again]
  · rw [found] at again
    have again : s₁.ensureOpen = (.ok (), s₁) := again
    cases request with
    | settle => simp only [perform, found, again]
    | get => simp only [perform, getPublic, found, again]
    | add certificates => simp only [perform, addPublic, found, again]
    | replace certificates => simp only [perform, replacePublic, found, again]
    | removeExpired now => simp only [perform, removeExpiredPublic, found, again]
    | clear => simp only [perform, clearPublic, found, again]

/-- A store that has not been opened yet comes to a verdict within the attempts allowed: it is open if one
of that many answers opens the database and no erasure fails before it, and has failed otherwise. Its data
are gone if any erasure was done, index and all, and else as they were. The verdict is final, and nothing
that is asked of the store later looks at a further answer. A database that nobody tells its answers gives
its own. -/
theorem settled_by_first_answers (fresh : s.openState = .uninitialized)
    (database : s.database = .memory m) (answers : Nat → Answer) :
    ∃ r s' m' calls, openTold answers s.maxAttempts s = ((r, s'), calls) ∧
      s.ensureOpenMeanwhile (fun i s => s.tell (answers i)) = ((r, s'), calls) ∧
      s'.database = .memory m' ∧ calls ≤ s.maxAttempts ∧
      (s'.openState = .initialized ∨ s'.openState = .failed) ∧
      (s'.openState = .initialized ↔ ∃ k < s.maxAttempts, (answers k).result = .ok ∧
        ∀ i < k, ¬ (answers i).Stuck) ∧
      (r = .ok () ↔ s'.openState = .initialized) ∧
      ((∃ i < calls, (answers i).Erases) → m'.rows = .empty ∧ s'.expirations = [] ∧
        s'.preferences.find? expirationsKey = some (.obj [])) ∧
      ((∀ i < calls, ¬ (answers i).Erases) → m'.rows = m.rows ∧ s'.expirations = s.expirations ∧
        s'.preferences = s.preferences) ∧
      (∀ s₁ s₂ request, Used s' s₁ → Request.perform request s₁ = .ok s₂ →
        s₂.openState = s'.openState ∧ s₂.script = s₁.script) ∧
      (answers = m.answers → s.ensureOpen = (r, s') ∧
        ∀ request, Request.perform request s = request.perform s') := by
  have holds : s.Holds m.rows s.expirations s.preferences := ⟨⟨m, database, rfl⟩, rfl, rfl⟩
  obtain ⟨r, s', calls, opens, settles⟩ := holds.settles answers s.maxAttempts
  obtain ⟨m', database'⟩ : ∃ m', s'.database = .memory m' := by
    by_cases erased : ∃ i < calls, (answers i).Erases
    · obtain ⟨m', database', _⟩ := (settles.erased erased).database
      exact ⟨m', database'⟩
    · obtain ⟨m', database', _⟩ :=
        (settles.kept fun i early erases => erased ⟨i, early, erases⟩).database
      exact ⟨m', database'⟩
  have rows_eq {rows : Rows} {index : Expirations} {p : Preferences} (h : s'.Holds rows index p) :
      m'.rows = rows := by
    obtain ⟨m'', same, rows⟩ := h.database
    cases database'.symm.trans same
    exact rows
  have verdict := settles.verdict
  have settled : s'.openState ≠ .uninitialized := by
    rcases verdict with ⟨isOpen, _⟩ | ⟨failed, _⟩
    · exact fun fresh => nomatch isOpen.symm.trans fresh
    · exact fun fresh => nomatch failed.symm.trans fresh
  have beside : s.ensureOpenMeanwhile (fun i s => s.tell (answers i)) = ((r, s'), calls) := by
    simp only [ensureOpenMeanwhile, fresh]
    exact opens
  refine ⟨r, s', m', calls, opens, beside, database', settles.bounded, ?_, ?_, ?_, ?_, ?_, ?_, ?_⟩
  · exact verdict.imp And.left And.left
  · rcases verdict with ⟨isOpen, within, _⟩ | ⟨failed, without, _⟩
    · exact iff_of_true isOpen within
    · exact iff_of_false (fun isOpen => nomatch failed.symm.trans isOpen) without
  · rcases verdict with ⟨isOpen, _, done⟩ | ⟨failed, _, refused⟩
    · exact iff_of_true done isOpen
    · exact iff_of_false refused fun isOpen => nomatch failed.symm.trans isOpen
  · intro erased
    have empty := settles.erased erased
    refine ⟨rows_eq empty, empty.expirations, ?_⟩
    rw [empty.preferences, withoutIndex, SortedMap.find?_insert, if_pos rfl]
    rfl
  · intro none
    have kept := settles.kept none
    exact ⟨rows_eq kept, kept.expirations, kept.preferences⟩
  · intro s₁ s₂ request used done
    have same := used.openState settled
    have stands := request.stands (same ▸ settled) done
    exact ⟨stands.openState.trans same, stands.script⟩
  · rintro rfl
    have untold : s.ensureOpen = (r, s') := by
      have told := openTold_answers database s.maxAttempts
      rw [opens] at told
      simp only [ensureOpen_eq, fresh]
      exact told.symm
    refine ⟨untold, fun request => ?_⟩
    rw [request.perform_ensureOpen, untold]

/-- Opened by its third answer, after an error and an erasure; the fourth, which would be fatal, is not
looked at. -/
def wavering (i : Nat) : Answer :=
  if i = 0 then ⟨.error, false⟩ else if i = 1 then ⟨.corrupt, true⟩
  else if i = 2 then ⟨.ok, false⟩ else ⟨.corrupt, false⟩

/-- A store of one certificate that nobody has opened since it was filled. -/
def restarted : Store :=
  create .empty (.memory { rows := Rows.upsert .empty [endingAt 1 9] }) 3

theorem settled_by_first_answers_wavering : ∃ r s' m' calls,
    openTold wavering restarted.maxAttempts restarted = ((r, s'), calls) ∧ calls = 3 ∧
    s'.database = .memory m' ∧ s'.openState = .initialized ∧ m'.rows = .empty := by
  obtain ⟨r, s', m', calls, opens, -, memory, bounded, -, isOpen, -, erased, -, -, -⟩ :=
    settled_by_first_answers (s := restarted) rfl rfl wavering
  have three : calls = 3 := (congrArg Prod.snd opens).symm
  refine ⟨r, s', m', calls, opens, three, memory, ?_, ?_⟩
  · refine isOpen.2 ⟨2, by decide, by decide, ?_⟩
    decide
  · exact (erased ⟨1, by omega, by decide⟩).1

end Store
end ProximityCert

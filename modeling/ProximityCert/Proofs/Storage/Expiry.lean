import ProximityCert.Proofs.Storage.Cleanup

/-!
Clean-ups of a store that has only ever been changed by its operations. Its index mirrors the rows, in
memory and in a file that takes every change alike, so a clean-up takes out exactly what has lapsed, or
leaves everything as it is. A file that refuses the change leaves the rows that have been read without
what was to be removed.
-/

namespace ProximityCert

theorem PublicCertificate.EndsWithin.held {c : PublicCertificate} (h : c.EndsWithin) :
    (c.endTime.getD {}).Held := Timestamp.completes_toInstant.1 ⟨_, h.stops⟩

namespace Expirations.Mirrors

variable {es : Expirations} {rows : Rows} {now : Instant}

theorem inTime (h : es.Mirrors rows) (inOrder : rows.InOrder) : ∀ e ∈ es, e.2.InTime := by
  intro e member
  have range := (h.range inOrder e member).2
  have far : Int64.maxValue.toInt + Validity.tolerance < Instant.bound := by decide
  exact Int.lt_of_le_of_lt (Int.add_le_add_right range _) far

theorem mem_lapsed_iff (h : es.Mirrors rows) {id : Bytes} :
    id ∈ es.lapsed now ↔ ∃ row, rows.find? id = some row ∧ row.stop.Lapsed now := by
  rw [Expirations.mem_lapsed_iff]
  constructor
  · rintro ⟨t, member, past⟩
    obtain ⟨row, found, rfl⟩ := Option.map_eq_some_iff.1 ((h.mem id t).1 member)
    exact ⟨row, found, past⟩
  · rintro ⟨row, found, past⟩
    exact ⟨row.stop, (h.mem id _).2 (by rw [found]; rfl), past⟩

/-- The rows of the ids that have lapsed are the rows that have. -/
theorem find?_removeAll_lapsed (h : es.Mirrors rows) (id : Bytes) :
    (rows.removeAll (es.lapsed now)).find? id =
      (rows.find? id).filter fun row => !decide (row.stop.Lapsed now) := by
  rw [Rows.find?_removeAll]
  cases found : rows.find? id with
  | none => exact ite_self none
  | some row =>
      have named : id ∈ es.lapsed now ↔ row.stop.Lapsed now := by
        rw [h.mem_lapsed_iff, found]
        simp only [Option.some.injEq, exists_eq_left']
      by_cases past : row.stop.Lapsed now
      · rw [if_pos (named.2 past), Option.filter_some_neg (by simpa using past)]
      · rw [if_neg (mt named.1 past), Option.filter_some_pos (by simpa using past)]

/-- Each id has one entry, so what goes with the ids that have lapsed are the entries that have. -/
theorem filter_lapsed (h : es.Mirrors rows) :
    (es.filter fun e => !(es.lapsed now).contains e.1) =
      es.filter fun e => !decide (e.2.Lapsed now) := by
  refine List.filter_congr fun e member => ?_
  have own := (SortedMap.lookup_eq_some_iff h.distinct).2 member
  have named : e.1 ∈ es.lapsed now ↔ e.2.Lapsed now := by
    rw [Expirations.mem_lapsed_iff]
    constructor
    · rintro ⟨t, other, past⟩
      have same := (SortedMap.lookup_eq_some_iff h.distinct).2 other
      rw [Option.some.inj (own.symm.trans same)]
      exact past
    · intro past
      exact ⟨e.2, member, past⟩
  simp only [List.contains_eq_mem, named]

end Expirations.Mirrors

/-- A database has rows, and in a file they are what is written there and what has been read. -/
inductive Database.Bears (rows : Rows) : Database → Prop
  | memory {m : MemoryDatabase} (same : m.rows = rows) : Bears rows (.memory m)
  | file {f : FileDatabase} (takes : ¬ f.slot.Refuses) (filed : rows.Filed)
      (written : f.slot.node = .missing ∧ rows = .empty ∨ f.slot.node = .file rows.encode)
      (read : ∀ rows' ∈ f.cached, rows' = rows) : Bears rows (.file f)

namespace Database.Bears

variable {d : Database} {rows : Rows}

theorem stored (h : Bears rows d) : d.stored = rows := by
  cases h with
  | memory same => exact same
  | file _ filed written _ =>
      rcases written with ⟨node, rfl⟩ | node
      · rw [Database.stored, node]
        rfl
      · rw [Database.stored, node, FileNode.content?, Option.bind_some, Rows.decode_encode filed]
        rfl

/-- Opening keeps the rows. Only in memory can it find them corrupt. -/
theorem openUp (h : Bears rows d) :
    Bears rows d.openUp.2 ∧ (d.openUp.1 = .corrupt → ∃ m, d.openUp.2 = .memory m) := by
  cases h with
  | @memory m same => exact ⟨.memory (m.rows_openUp.trans same), fun _ => ⟨m.openUp.2, rfl⟩⟩
  | @file f takes filed written read =>
      have opened : f.openUp = (.ok, { f with cached := some rows }) := by
        rcases written with ⟨node, rfl⟩ | node
        · simp only [FileDatabase.openUp, node]
        · exact FileDatabase.openUp_of_decode node (Rows.decode_encode filed)
      rw [Database.openUp, opened]
      refine ⟨.file takes filed written fun _ same => (Option.some.inj same).symm, ?_⟩
      intro corrupt
      cases corrupt

/-- A change that the database does not take leaves it as it was. -/
theorem update (h : Bears rows d) {change : Rows → Rows}
    (files : rows.Filed → (change rows).Filed) :
    (∃ f, d.update change = (.error f, d)) ∨
      ∃ d', d.update change = (.ok (), d') ∧ Bears (change rows) d' := by
  cases h with
  | @memory m same =>
      by_cases works : m.failOperations = false
      · rw [Database.update, MemoryDatabase.update_of_works works]
        exact .inr ⟨_, rfl, .memory (congrArg change same)⟩
      · refine .inl ⟨MemoryDatabase.operationFault, ?_⟩
        rw [Database.update, MemoryDatabase.update, if_pos (Bool.of_not_eq_false works)]
  | @file f takes filed written read =>
      cases cached : f.cached with
      | none =>
          refine .inl ⟨FileDatabase.notOpened, ?_⟩
          simp only [Database.update, FileDatabase.update, cached]
      | some rows' =>
          obtain rfl := read rows' cached
          rw [Database.update, FileDatabase.update_of_not_refuses cached takes]
          have again := FileSlot.not_refuses_file takes (change rows').encode
          exact .inr ⟨_, rfl, .file again (files filed) (.inr rfl) fun _ same =>
            (Option.some.inj same).symm⟩

theorem reopened (h : Bears rows d) : Bears rows d.reopened := by
  cases h with
  | memory same => exact .memory same
  | file takes filed written _ => exact .file takes filed written nofun

end Database.Bears

namespace Store

variable {s s' : Store} {rows : Rows} {r : Except Failure Unit}

/-- The data of a store agree: the database has rows, the index mirrors them, and so it is stored. -/
structure Agrees (s : Store) (rows : Rows) : Prop where
  database : s.database.Bears rows
  inOrder : rows.InOrder
  index : s.expirations.Mirrors rows
  stored : (Expirations.ofJson (s.preferences.find? expirationsKey)).Perm s.expirations

/-- The data of a store agree on some rows, which are given out once it is open. -/
def InAgreement (s : Store) : Prop :=
  ∃ rows, s.Agrees rows ∧ (s.openState = .initialized → s.database.held = rows)

theorem Agrees.setExpirations {es : Expirations} (database : s.database.Bears rows)
    (inOrder : rows.InOrder) (index : es.Mirrors rows) : (s.setExpirations es).Agrees rows where
  database := database
  inOrder := inOrder
  index := index
  stored := by
    rw [Store.setExpirations, SortedMap.find?_insert, if_pos rfl]
    exact Expirations.ofJson_toJson_perm index.distinct (index.range inOrder)

theorem Agrees.opening : KeptByOpening fun s => ∃ rows, s.Agrees rows where
  verdict _ h := by
    obtain ⟨rows, h⟩ := h
    exact ⟨rows, h.database, h.inOrder, h.index, h.stored⟩
  attempt h := by
    obtain ⟨rows, h⟩ := h
    exact ⟨rows, h.database.openUp.1, h.inOrder, h.index, h.stored⟩
  stuck h corrupt gone := by
    obtain ⟨rows, h⟩ := h
    have kept := h.database.openUp.1
    obtain ⟨m, memory⟩ := h.database.openUp.2 corrupt
    rw [memory] at gone kept
    rw [Database.destroy] at gone
    rcases m.destroy_cases with stays | ⟨m', empties, _⟩
    · rw [stays] at gone
      cases gone
      exact ⟨rows, kept, h.inOrder, h.index, h.stored⟩
    · rw [empties] at gone
      cases gone
  erased h corrupt gone := by
    obtain ⟨rows, h⟩ := h
    obtain ⟨m, memory⟩ := h.database.openUp.2 corrupt
    rw [memory, Database.destroy] at gone
    rcases m.destroy_cases with stays | ⟨m', empties, empty⟩
    · rw [stays] at gone
      cases gone
    · rw [empties] at gone
      cases gone
      exact ⟨.empty, setExpirations (.memory empty) Rows.inOrder_empty .nil⟩

theorem failed_of_openWithin {attempts : Nat} {f : Failure}
    (h : openWithin attempts s = (.error f, s')) : s'.openState = .failed := by
  induction attempts generalizing s with
  | zero =>
      cases h
      rfl
  | succ attempts ih =>
      have attempt := s.attempt_attemptOpen
      rw [openWithin_succ] at h
      generalize s.attemptOpen = result at attempt h
      cases attempt with
      | opened found => cases h
      | again found => exact ih h
      | stuck found gone =>
          cases h
          rfl
      | erased found gone => exact ih h

theorem InAgreement.ensureOpen (h : s.InAgreement) : s.ensureOpen.2.InAgreement := by
  rw [Store.ensureOpen_eq]
  split
  · exact h
  · exact h
  · obtain ⟨rows, agrees, _⟩ := h
    obtain ⟨rows', agrees'⟩ := Agrees.opening.openWithin s.maxAttempts ⟨rows, agrees⟩
    refine ⟨rows', agrees', fun opened => ?_⟩
    rcases found : openWithin s.maxAttempts s with ⟨_ | _, s₀⟩
    · rw [found, failed_of_openWithin found] at opened
      cases opened
    · rw [found] at agrees'
      exact (held_of_openWithin found).trans agrees'.database.stored

/-- A change of the rows and, if it is taken, of the index in step with them. -/
theorem Agrees.written (h : s.Agrees rows)
    (given : s.openState = .initialized → s.database.held = rows) {change : Rows → Rows}
    {es : Expirations} (files : rows.Filed → (change rows).Filed) (inOrder : (change rows).InOrder)
    (index : es.Mirrors (change rows)) (write : s.Written change es r s') : s'.InAgreement := by
  cases write with
  | failed refused =>
      rcases h.database.update files with ⟨f, same⟩ | ⟨d', taken, _⟩
      · rw [same]
        exact ⟨rows, h, given⟩
      · rw [taken] at refused
        cases refused
  | done took =>
      have held := Database.held_of_update took
      rcases h.database.update files with ⟨f, same⟩ | ⟨d', taken, bears⟩
      · rw [same] at took
        cases took
      · rw [taken] at held ⊢
        exact ⟨change rows, setExpirations bears inOrder index, fun opened => given opened ▸ held⟩

namespace Operation

/-- Whether all certificates that an operation adds can be written behind their lengths. -/
def Framable : Operation → Prop
  | add certificates => ∀ c ∈ certificates, c.Framable
  | _ => True

instance : (op : Operation) → Decidable op.Framable
  | add certificates => inferInstanceAs (Decidable (∀ c ∈ certificates, c.Framable))
  | removeExpired _ | clear | get | restart _ | arrange .. => inferInstanceAs (Decidable True)

theorem inAgreement_perform {op : Operation} (h : s.InAgreement) (within : op.Within)
    (framable : op.Framable) : ∃ s', op.perform s = .ok s' ∧ s'.InAgreement := by
  obtain ⟨rows, agrees, given⟩ := h.ensureOpen
  cases op with
  | add certificates =>
      obtain ⟨⟨r, s'⟩, added⟩ := completes_addPublic.2 fun _ c own =>
        PublicCertificate.EndsWithin.held (within c own)
      refine ⟨s', by rw [perform, added]; rfl, ?_⟩
      rcases addPublic_cases added with ⟨rfl, _⟩ | ⟨new, _, ends, write⟩
      · exact ⟨rows, agrees, given⟩
      · rw [Expirations.eq_of_ofCertificates ends] at write
        exact agrees.written given (fun filed => filed.upsert framable)
          (agrees.inOrder.upsert within) agrees.index.merge write
  | removeExpired now =>
      obtain ⟨⟨r, s'⟩, removed⟩ := completes_removeExpiredPublic.2 fun _ e found =>
        agrees.index.inTime agrees.inOrder e (List.mem_of_find?_eq_some found)
      refine ⟨s', by rw [perform, removed]; rfl, ?_⟩
      rcases removeExpiredPublic_cases removed with ⟨rfl, _⟩ | ⟨expired, _, _, write⟩
      · exact ⟨rows, agrees, given⟩
      · exact agrees.written given (fun filed => filed.removeAll _) (agrees.inOrder.removeAll _)
          (agrees.index.remove _) write
  | clear =>
      refine ⟨_, rfl, ?_⟩
      rcases s.clearPublic_cases with same | write
      · rw [same]
        exact ⟨rows, agrees, given⟩
      · exact agrees.written given (fun _ => Rows.filed_empty) Rows.inOrder_empty .nil write
  | get =>
      refine ⟨_, rfl, ?_⟩
      rw [getPublic_snd]
      exact ⟨rows, agrees, given⟩
  | restart maxAttempts =>
      obtain ⟨rows, agrees, _⟩ := h
      have index := agrees.index.of_perm agrees.stored (Expirations.sorted_ofJson _)
      refine ⟨_, rfl, rows, ⟨agrees.database.reopened, agrees.inOrder, index, List.Perm.refl _⟩, ?_⟩
      intro opened
      cases opened
  | arrange openScript failOperations failDestroy =>
      obtain ⟨rows, agrees, given⟩ := h
      have bears := agrees.database
      cases database : s.database with
      | memory m =>
          rw [database] at bears given
          cases bears with
          | memory same =>
              refine ⟨_, by rw [perform, database], rows, ?_, given⟩
              exact ⟨.memory same, agrees.inOrder, agrees.index, agrees.stored⟩
      | file f => exact ⟨s, by rw [perform, database], rows, agrees, given⟩

theorem inAgreement_performAll {ops : List Operation} (h : s.InAgreement)
    (within : ∀ op ∈ ops, op.Within) (framable : ∀ op ∈ ops, op.Framable) :
    ∃ s', performAll ops s = .ok s' ∧ s'.InAgreement := by
  induction ops generalizing s with
  | nil => exact ⟨s, rfl, h⟩
  | cons op ops ih =>
      rw [List.forall_mem_cons] at within framable
      obtain ⟨s₁, first, between⟩ := inAgreement_perform h within.1 framable.1
      obtain ⟨s', rest, after⟩ := ih between within.2 framable.2
      exact ⟨s', by rw [performAll, first]; exact rest, after⟩

end Operation

/-- What has lapsed is gone from the rows and, which stay in their order, from the entries of the index,
and nothing else is. -/
structure Expired (s : Store) (now : Instant) (s' : Store) : Prop where
  rows (id : Bytes) : s'.database.held.find? id =
    (s.database.stored.find? id).filter fun row => !decide (row.stop.Lapsed now)
  stored : s'.database.stored = s'.database.held
  expirations : s'.expirations = s.expirations.filter fun e => !decide (e.2.Lapsed now)
  mirrors : s'.expirations.Mirrors s'.database.held

/-- The rows and the index are as they were. -/
structure Unchanged (s s' : Store) : Prop where
  stored : s'.database.stored = s.database.stored
  held : s.openState = .initialized → s'.database.held = s.database.held
  expirations : s'.expirations = s.expirations
  preferences : s'.preferences = s.preferences

variable {now : Instant}

/-- A clean-up of a store that opening leaves alone is done exactly, or not at all. -/
theorem InAgreement.expired (h : s.InAgreement) (intact : s.database.Intact)
    (removed : s.removeExpiredPublic now = .ok (r, s')) :
    (r = .ok () → s.Expired now s') ∧ (r ≠ .ok () → s.Unchanged s') ∧
      (s.ensureOpen.1 = .ok () → s.ensureOpen.2.database.Works → r = .ok ()) := by
  have untouched := untouched_ensureOpen intact
  obtain ⟨rows, agrees, given⟩ := h.ensureOpen
  have stored : s.database.stored = rows := untouched.stored.symm.trans agrees.database.stored
  have sorted : s.expirations.Sorted := untouched.expirations ▸ agrees.index.sorted
  have unopened (already : s.openState = .initialized) :
      s.ensureOpen.2.database.held = s.database.held := by rw [ensureOpen_of_opened already]
  rcases swept_of_removeExpiredPublic sorted removed with ⟨opened, swept⟩ | ⟨closed, failed, rfl⟩
  · have isOpen := openState_of_ensureOpen (Prod.ext opened rfl)
    refine ⟨fun done => ?_, fun failed => ?_, fun _ works => swept.works works⟩
    · obtain ⟨rows', agrees', given'⟩ : s'.InAgreement := by
        have within : (Operation.removeExpired now).Within := trivial
        obtain ⟨_, performed, agreement⟩ := Operation.inAgreement_perform h within trivial
        rw [Operation.perform, removed] at performed
        cases performed
        exact agreement
      have held := given' (swept.openState.trans isOpen)
      refine ⟨fun id => ?_, ?_, ?_, ?_⟩
      · rw [swept.held done, given isOpen, stored]
        exact agrees.index.find?_removeAll_lapsed id
      · rw [held, agrees'.database.stored]
      · rw [swept.expirations done, agrees.index.filter_lapsed, untouched.expirations]
      · rw [held]
        exact agrees'.index
    · obtain ⟨expirations, preferences, f, refused⟩ := swept.refused failed
      have files (filed : rows.Filed) : (Database.Change.effect
          (.remove (s.ensureOpen.2.expirations.lapsed now)) rows).Filed := filed.removeAll _
      have same : s'.database = s.ensureOpen.2.database := by
        rcases agrees.database.update files with ⟨_, kept⟩ | ⟨_, taken, _⟩
        · exact (congrArg Prod.snd refused).symm.trans (congrArg Prod.snd kept)
        · cases refused.symm.trans taken
      exact ⟨same ▸ untouched.stored, same ▸ unopened,
        expirations.trans untouched.expirations, preferences.trans untouched.preferences⟩
  · refine ⟨fun done => absurd done failed, fun _ => ?_, fun opened => absurd opened closed⟩
    exact ⟨untouched.stored, unopened, untouched.expirations, untouched.preferences⟩

/-- A file that does not take the removal is left with the index as it was, but the rows that have been
read lose what was to be removed. -/
theorem removeExpiredPublic_of_refuses {slot : FileSlot} (opened : s.openState = .initialized)
    (database : s.database = .file { slot, cached := some rows }) (refuses : slot.Refuses)
    (sorted : s.expirations.Sorted) (inTime : ∀ e ∈ s.expirations, e.2.InTime)
    (lapsed : s.expirations.lapsed now ≠ []) :
    s.removeExpiredPublic now = .ok (.error FileSlot.fault, { s with
      database := .file { slot, cached := some (rows.removeAll (s.expirations.lapsed now)) } }) := by
  have ends : Completes (s.removeExpiredPublic now) := by
    refine completes_removeExpiredPublic.2 fun _ e found => inTime e ?_
    rw [ensureOpen_of_opened opened] at found
    exact List.mem_of_find?_eq_some found
  rw [removeExpiredPublic_eq (ensureOpen_of_opened opened) sorted ends,
    if_neg (mt List.isEmpty_iff.1 lapsed), OpenOn.carryOut_of_refuses database refuses]
  rfl

/-- From empty data on, over a database in memory whatever operations have failed, and over a file as long
as it has taken every change, a clean-up that succeeds takes exactly what has lapsed out of the rows and the
index, and one that fails leaves them as they were. Where such a file then ceases to take changes, the rows
that have been read lose what has lapsed, and nothing else does. -/
theorem removes_lapsed_exactly {preferences : Preferences} {d : Database} {ops : List Operation}
    (noIndex : preferences.find? expirationsKey = none) (noRows : d.Bears .empty)
    (maxAttempts : Nat) (within : ∀ op ∈ ops, op.Within) (framable : ∀ op ∈ ops, op.Framable) :
    ∃ s, Operation.performAll ops (create preferences d maxAttempts) = .ok s ∧
      (s.database.Intact → ∀ now, ∃ r s', s.removeExpiredPublic now = .ok (r, s') ∧
        (r = .ok () → s.Expired now s') ∧ (r ≠ .ok () → s.Unchanged s') ∧
        (s.ensureOpen.1 = .ok () → s.ensureOpen.2.database.Works → r = .ok ())) ∧
      ∀ slot slot' rows now, s.openState = .initialized →
        s.database = .file { slot, cached := some rows } → slot'.Refuses →
        s.expirations.lapsed now ≠ [] →
        ({ s with database := .file { slot := slot', cached := some rows } } :
            Store).removeExpiredPublic now = .ok (.error FileSlot.fault, { s with
          database := .file {
            slot := slot', cached := some (rows.removeAll (s.expirations.lapsed now)) } }) := by
  have start : (create preferences d maxAttempts).InAgreement := by
    refine ⟨.empty, ⟨noRows, Rows.inOrder_empty, ?_, List.Perm.refl _⟩, nofun⟩
    rw [create, noIndex]
    exact .nil
  obtain ⟨s, performed, h⟩ := Operation.inAgreement_performAll start within framable
  refine ⟨s, performed, fun intact now => ?_, ?_⟩
  · obtain ⟨rows, agrees, _⟩ := h.ensureOpen
    obtain ⟨⟨r, s'⟩, removed⟩ := completes_removeExpiredPublic.2 fun _ e found =>
      agrees.index.inTime agrees.inOrder e (List.mem_of_find?_eq_some found)
    exact ⟨r, s', removed, h.expired intact removed⟩
  · intro slot slot' rows now opened _ refuses lapsed
    obtain ⟨_, agrees, _⟩ := h
    exact removeExpiredPublic_of_refuses opened rfl refuses agrees.index.sorted
      (agrees.index.inTime agrees.inOrder) lapsed

/-- Ends that change and ends that are the same, on either side of a restart. -/
def seasoned : List Operation :=
  [.add [endingAt 1 9, endingAt 2 5, endingAt 4 2000], .restart 3,
    .add [endingAt 3 9, endingAt 1 2000], .get]

def seasonedStore : Store :=
  match Operation.performAll seasoned (create .empty (.file {}) 3) with
  | .ok s => s
  | .error _ => create .empty (.file {}) 3

theorem removes_lapsed_exactly_seasoned :
    Operation.performAll seasoned (create .empty (.file {}) 3) = .ok seasonedStore ∧
    seasonedStore.publicIds = [[2], [3], [1], [4]] ∧
    ∃ s', seasonedStore.removeExpiredPublic (.ofUnixNanos 1809000000000) = .ok (.ok (), s') ∧
      seasonedStore.Expired (.ofUnixNanos 1809000000000) s' ∧ s'.publicIds = [[1], [4]] := by
  have within : ∀ op ∈ seasoned, op.Within := by
    simp [seasoned, Operation.Within, endsWithin_endingAt]
  have noRows : (Database.file {}).Bears .empty :=
    .file (by decide) Rows.filed_empty (.inl ⟨rfl, rfl⟩) (by rintro _ ⟨⟩)
  have performs : Operation.performAll seasoned (create .empty (.file {}) 3) = .ok seasonedStore := rfl
  obtain ⟨s, performed, cleanUp, -⟩ :=
    removes_lapsed_exactly (SortedMap.find?_empty expirationsKey) noRows 3 within (by decide +kernel)
  obtain rfl : seasonedStore = s := Except.ok.inj (performs.symm.trans performed)
  obtain ⟨r, s', removed, expired, -, works⟩ :=
    cleanUp (by decide +kernel) (.ofUnixNanos 1809000000000)
  have done : r = .ok () := works rfl ⟨rfl, by decide +kernel⟩
  subst done
  refine ⟨performs, by decide +kernel, s', removed, expired rfl, ?_⟩
  rw [publicIds, (expired rfl).expirations]
  decide +kernel

/-- A store on a file with one row, the place of which a folder has taken since. -/
def barred : Store :=
  { Operation.after (.add [endingAt 170 9]) (create .empty (.file {}) 3) with
    database := .file {
      slot := { node := .directory }, cached := some (.upsert .empty [endingAt 170 9]) } }

/-- What was to be removed is no longer given out, though the removal has failed. -/
theorem lapsed_row_lost : ∃ s',
    barred.removeExpiredPublic (.ofUnixNanos 1809000000000) = .ok (.error FileSlot.fault, s') ∧
    barred.getPublic.1 = .ok [endingAt 170 9] ∧ s'.getPublic.1 = .ok [] ∧
    barred.publicIds = [[170]] ∧ s'.publicIds = [[170]] := by
  refine ⟨_, rfl, rfl, rfl, ?_, ?_⟩
  · decide +kernel
  · decide +kernel

end Store
end ProximityCert

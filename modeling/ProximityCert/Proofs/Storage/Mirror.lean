import ProximityCert.Proofs.Storage.Expirations
import ProximityCert.Proofs.Storage.Operations

/-!
The index of end times mirrors the rows of an in-memory database, however operations on public
certificates follow upon each other, fail, and are interrupted by new stores on the same data.
-/

namespace ProximityCert

theorem MemoryDatabase.rows_openUp (m : MemoryDatabase) : m.openUp.2.rows = m.rows := by
  unfold openUp
  split
  · rfl
  · rfl

theorem MemoryDatabase.destroy_cases (m : MemoryDatabase) :
    m.destroy = (.error destroyFault, m) ∨ ∃ m', m.destroy = (.ok (), m') ∧ m'.rows = .empty := by
  unfold destroy
  split
  · exact .inl rfl
  · exact .inr ⟨_, rfl, rfl⟩

namespace Store

variable {s : Store} {m : MemoryDatabase}

/-- The rows of a store in order, their index beside them, and the index as it would be read again. -/
structure Mirroring (s : Store) (m : MemoryDatabase) : Prop where
  database : s.database = .memory m
  inOrder : m.rows.InOrder
  index : s.expirations.Mirrors m.rows
  stored : (Expirations.ofJson (s.preferences.find? expirationsKey)).Perm s.expirations

/-- A store that mirrors some rows. -/
def Mirrored (s : Store) : Prop := ∃ m, s.Mirroring m

namespace Mirroring

/-- An index that is set is also the one that would be read again. -/
theorem setExpirations {es : Expirations} (database : s.database = .memory m)
    (inOrder : m.rows.InOrder) (index : es.Mirrors m.rows) : (s.setExpirations es).Mirrored := by
  refine ⟨m, database, inOrder, index, ?_⟩
  rw [Store.setExpirations, SortedMap.find?_insert, if_pos rfl]
  exact Expirations.ofJson_toJson_perm index.distinct (index.range inOrder)

/-- What leaves the rows alone leaves the index right. -/
theorem sameRows (h : s.Mirroring m) (m' : MemoryDatabase) (same : m'.rows = m.rows)
    (openState : OpenState) : Mirroring { s with database := .memory m', openState } m' where
  database := rfl
  inOrder := same ▸ h.inOrder
  index := same ▸ h.index
  stored := h.stored

theorem openUp (h : s.Mirroring m) : s.database.openUp.2 = .memory m.openUp.2 := by
  rw [h.database]
  rfl

theorem opening : KeptByOpening Mirrored where
  verdict {s} openState h := by
    obtain ⟨m, h⟩ := h
    exact ⟨m, h.database, h.inOrder, h.index, h.stored⟩
  attempt {s} h := by
    obtain ⟨m, h⟩ := h
    rw [h.openUp]
    exact ⟨_, h.sameRows _ m.rows_openUp s.openState⟩
  stuck {s f database} h _ gone := by
    obtain ⟨m, h⟩ := h
    rw [h.openUp, Database.destroy] at gone
    rcases m.openUp.2.destroy_cases with stays | ⟨m', empties, _⟩
    · rw [stays] at gone
      cases gone
      exact ⟨_, h.sameRows _ m.rows_openUp s.openState⟩
    · rw [empties] at gone
      cases gone
  erased {s database} h _ gone := by
    obtain ⟨m, h⟩ := h
    rw [h.openUp, Database.destroy] at gone
    rcases m.openUp.2.destroy_cases with stays | ⟨m', empties, empty⟩
    · rw [stays] at gone
      cases gone
    · rw [empties] at gone
      cases gone
      exact setExpirations rfl (empty ▸ Rows.inOrder_empty) (empty ▸ Expirations.Mirrors.nil)

theorem ensureOpen (h : s.Mirroring m) : s.ensureOpen.2.Mirrored := opening.ensureOpen ⟨m, h⟩

/-- A change of the rows either fails and changes nothing, or the index can be changed with it. -/
theorem update (h : s.Mirroring m) (change : Rows → Rows) {es : Expirations}
    (inOrder : (change m.rows).InOrder) (index : es.Mirrors (change m.rows)) :
    (∃ f, s.database.update change = (.error f, s.database)) ∨
      ∃ database, s.database.update change = (.ok (), database) ∧
        (({ s with database }).setExpirations es).Mirrored := by
  rw [h.database]
  by_cases fails : m.failOperations = true
  · refine .inl ⟨MemoryDatabase.operationFault, ?_⟩
    simp [Database.update, MemoryDatabase.update, fails]
  · refine .inr ⟨.memory { m with rows := change m.rows }, ?_, ?_⟩
    · simp [Database.update, MemoryDatabase.update, fails]
    · exact setExpirations rfl inOrder index

end Mirroring

namespace Mirrored

theorem getPublic (h : s.Mirrored) : s.getPublic.2.Mirrored := by
  obtain ⟨m, h⟩ := h
  have opened := h.ensureOpen
  unfold Store.getPublic
  split
  · next found =>
      rw [found] at opened
      exact opened
  · next found =>
      rw [found] at opened
      exact opened

theorem addPublic {certificates : List PublicCertificate} (h : s.Mirrored)
    (within : ∀ c ∈ certificates, c.EndsWithin) :
    ∃ r s', s.addPublic certificates = .ok (r, s') ∧ s'.Mirrored := by
  obtain ⟨m, h⟩ := h
  have opened := h.ensureOpen
  unfold Store.addPublic
  split
  · next f s₁ found =>
      rw [found] at opened
      exact ⟨.error f, s₁, rfl, opened⟩
  · next s₁ found =>
      rw [found] at opened
      obtain ⟨m₁, h₁⟩ := opened
      rw [Expirations.ofCertificates_ok within]
      rcases h₁.update (fun rows => rows.upsert certificates) (h₁.inOrder.upsert within)
        h₁.index.merge with ⟨f, failed⟩ | ⟨d, done, after⟩
      · exact ⟨.error f, s₁, by simp only [bind, Except.bind, Database.add, failed], m₁, h₁⟩
      · exact ⟨.ok (), _, by simp only [bind, Except.bind, Database.add, done], after⟩

theorem removeExpiredPublic (h : s.Mirrored) (now : Instant) :
    ∃ r s', s.removeExpiredPublic now = .ok (r, s') ∧ s'.Mirrored := by
  obtain ⟨m, h⟩ := h
  have opened := h.ensureOpen
  unfold Store.removeExpiredPublic
  split
  · next f s₁ found =>
      rw [found] at opened
      exact ⟨.error f, s₁, rfl, opened⟩
  · next s₁ found =>
      rw [found] at opened
      obtain ⟨m₁, h₁⟩ := opened
      obtain ⟨expired, taken⟩ := Expirations.takeExpired_ok now fun e member =>
        (h₁.index.range h₁.inOrder e member).2
      rw [taken]
      by_cases none : (expired.map Prod.fst).isEmpty = true
      · exact ⟨.ok (), s₁, by simp only [bind, Except.bind, none, if_true], m₁, h₁⟩
      · rcases h₁.update (fun rows => rows.removeAll (expired.map Prod.fst))
          (h₁.inOrder.removeAll _) (h₁.index.remove _) with ⟨f, failed⟩ | ⟨d, done, after⟩
        · exact ⟨.error f, s₁, by simp [bind, Except.bind, none, Database.remove, failed], m₁, h₁⟩
        · exact ⟨.ok (), _, by simp [bind, Except.bind, none, Database.remove, done], after⟩

theorem clearPublic (h : s.Mirrored) : s.clearPublic.2.Mirrored := by
  obtain ⟨m, h⟩ := h
  have opened := h.ensureOpen
  unfold Store.clearPublic
  split
  · next found =>
      rw [found] at opened
      exact opened
  · next s₁ found =>
      rw [found] at opened
      obtain ⟨m₁, h₁⟩ := opened
      rcases h₁.update (fun _ => .empty) Rows.inOrder_empty .nil with
        ⟨f, failed⟩ | ⟨d, done, after⟩
      · simp only [Database.clear, failed]
        exact ⟨m₁, h₁⟩
      · simp only [Database.clear, done]
        exact after

/-- A new store reads the stored index, which is in order because it is sorted again. -/
theorem restarted (h : s.Mirrored) (maxAttempts : Nat) :
    (create s.preferences s.database.reopened maxAttempts).Mirrored := by
  obtain ⟨m, h⟩ := h
  refine ⟨m, ?_, h.inOrder, ?_, List.Perm.refl _⟩
  · rw [create, h.database]
    rfl
  · exact h.index.of_perm h.stored (Expirations.sorted_ofJson _)

end Mirrored

/-- What can be done to the public certificates of a store, and what can happen to it: another store
takes its place on the same data, or the database is told how to fail from then on. -/
inductive Operation
  | add (certificates : List PublicCertificate) | removeExpired (now : Instant) | clear | get
  | restart (maxAttempts : Nat)
  | arrange (openScript : List OpenResult) (failOperations failDestroy : Bool)

namespace Operation

/-- The store after an operation, whether that succeeded or not. -/
def perform : Operation → Store → Except ClockFault Store
  | add certificates, s => (s.addPublic certificates).map (·.2)
  | removeExpired now, s => (s.removeExpiredPublic now).map (·.2)
  | clear, s => .ok s.clearPublic.2
  | get, s => .ok s.getPublic.2
  | restart maxAttempts, s => .ok (create s.preferences s.database.reopened maxAttempts)
  | arrange openScript failOperations failDestroy, s =>
    match s.database with
    | .memory m =>
      .ok { s with database := .memory { m with openScript, failOperations, failDestroy } }
    | .file _ => .ok s

def performAll : List Operation → Store → Except ClockFault Store
  | [], s => .ok s
  | op :: ops, s => (op.perform s).bind (performAll ops)

/-- Whether all certificates that an operation adds end inside what the stored index can hold. -/
def Within : Operation → Prop
  | add certificates => ∀ c ∈ certificates, c.EndsWithin
  | _ => True

theorem perform_ok {op : Operation} (h : s.Mirrored) (within : op.Within) :
    ∃ s', op.perform s = .ok s' ∧ s'.Mirrored := by
  cases op with
  | add certificates =>
      obtain ⟨r, s', added, after⟩ := h.addPublic within
      exact ⟨s', by rw [perform, added]; rfl, after⟩
  | removeExpired now =>
      obtain ⟨r, s', removed, after⟩ := h.removeExpiredPublic now
      exact ⟨s', by rw [perform, removed]; rfl, after⟩
  | clear => exact ⟨_, rfl, h.clearPublic⟩
  | get => exact ⟨_, rfl, h.getPublic⟩
  | restart maxAttempts => exact ⟨_, rfl, h.restarted maxAttempts⟩
  | arrange openScript failOperations failDestroy =>
      obtain ⟨m, h⟩ := h
      have kept := h.sameRows { m with openScript, failOperations, failDestroy } rfl s.openState
      exact ⟨_, by rw [perform, h.database], _, kept⟩

theorem performAll_ok {ops : List Operation} (h : s.Mirrored) (within : ∀ op ∈ ops, op.Within) :
    ∃ s', performAll ops s = .ok s' ∧ s'.Mirrored := by
  induction ops generalizing s with
  | nil => exact ⟨s, rfl, h⟩
  | cons op ops ih =>
      rw [List.forall_mem_cons] at within
      obtain ⟨s₁, first, between⟩ := perform_ok h within.1
      obtain ⟨s', rest, after⟩ := ih between within.2
      exact ⟨s', by rw [performAll, first]; exact rest, after⟩

end Operation

/-- From an empty database on, no operation faults, and after all of them the index is in the order of
the ends, has each id once, and consists of the ids and ends of the rows. -/
theorem index_mirrors_rows {preferences : Preferences} {m : MemoryDatabase} (maxAttempts : Nat)
    {ops : List Operation} (noIndex : preferences.find? expirationsKey = none)
    (noRows : m.rows = .empty) (within : ∀ op ∈ ops, op.Within) :
    ∃ s m', Operation.performAll ops (create preferences (.memory m) maxAttempts) = .ok s ∧
      s.database = .memory m' ∧
      s.expirations.Pairwise (fun a b => a.2 ≤ b.2) ∧
      (s.expirations.map Prod.fst).Nodup ∧
      s.expirations.Perm (m'.rows.values.map fun row => (row.secretId, row.stop)) ∧
      ∀ row ∈ m'.rows.values, (row.endTime.getD {}).toInstant = .ok row.stop := by
  have start : (create preferences (.memory m) maxAttempts).Mirrored := by
    refine ⟨m, rfl, ?_, ?_, List.Perm.refl _⟩
    · rw [noRows]
      exact Rows.inOrder_empty
    · rw [create, noIndex, noRows]
      exact .nil
  obtain ⟨s, performed, m', h⟩ := Operation.performAll_ok start within
  refine ⟨s, m', performed, h.database, h.index.sorted, h.index.distinct,
    h.index.perm_rows h.inOrder, ?_⟩
  intro row member
  obtain ⟨id, found⟩ := SortedMap.mem_values_iff.1 member
  exact (h.inOrder id row found).2.stops

/-- A certificate that ends some seconds from the epoch. -/
def endingAt (id : UInt8) (seconds : Int64) : PublicCertificate :=
  { secretId := [id], endTime := some { seconds } }

theorem endsWithin_endingAt {id : UInt8} {seconds : Int64} (low : -9223372036 < seconds.toInt)
    (high : seconds.toInt < 9223372036) : (endingAt id seconds).EndsWithin := by
  have noFraction : max 0 (0 : Int32).toInt = 0 := rfl
  have read : Instant.ofNanos? (seconds.toInt * 1000000000) =
      some ⟨seconds.toInt * 1000000000, by omega, by omega⟩ := dif_pos ⟨by omega, by omega⟩
  refine ⟨⟨seconds.toInt * 1000000000, by omega, by omega⟩, ?_, ?_, ?_⟩
  · show Timestamp.toInstant { seconds } = _
    rw [Timestamp.toInstant, noFraction, Int.add_zero, read]
  · show -9223372036854775808 < seconds.toInt * 1000000000
    omega
  · show seconds.toInt * 1000000000 < 9223372036854775807
    omega

/-- A corrupt database, an id that comes twice, a failing operation and a restart. -/
def restless : List Operation :=
  [.arrange [.error, .corrupt] false false, .add [endingAt 1 9, endingAt 2 5, endingAt 1 (-3)],
    .restart 3, .arrange [] true false, .clear, .arrange [] false true, .add [endingAt 3 2000],
    .removeExpired (.ofUnixNanos 1802000000000), .get]

theorem index_mirrors_rows_restless :
    (Operation.performAll restless (create .empty (.memory {}) 3)).toOption.map
        (fun s => s.expirations.map Prod.fst) = some [[2], [3]] ∧
    ∃ s m', Operation.performAll restless (create .empty (.memory {}) 3) = .ok s ∧
      s.database = .memory m' ∧
      s.expirations.Perm (m'.rows.values.map fun row => (row.secretId, row.stop)) := by
  have within : ∀ op ∈ restless, op.Within := by
    simp [restless, Operation.Within, endsWithin_endingAt]
  refine ⟨by decide +kernel, ?_⟩
  obtain ⟨s, m', performed, database, -, -, same, -⟩ :=
    index_mirrors_rows (m := {}) 3 (SortedMap.find?_empty expirationsKey) rfl within
  exact ⟨s, m', performed, database, same⟩

end Store
end ProximityCert

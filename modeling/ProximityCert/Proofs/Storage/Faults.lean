import ProximityCert.Certificate.Decrypted
import ProximityCert.Proofs.Storage.Mirror
import ProximityCert.Proofs.Storage.Operations

/-!
Which times of downloaded certificates the clock cannot bear. Its range can only be left at its late
end: a timestamp does so by its nanoseconds, an end time when the tolerance is added to it. For every
operation that meets such times the ones that let it complete are stated exactly; a store is sound if
it holds only times that let every operation complete.
-/

namespace ProximityCert

/-- The first moment past the clock's range. -/
def Instant.bound : Int := 9223372036854775808000000000

/-- The clock can hold a timestamp. Its seconds alone never leave the range. -/
def Timestamp.Held (m : Timestamp) : Prop :=
  m.seconds.toInt * 1000000000 + max 0 m.nanos.toInt < Instant.bound

/-- The clock can hold an end together with the tolerance. -/
def Instant.InTime (t : Instant) : Prop := t.nanos + Validity.tolerance < bound

/-- An end has passed, the tolerance as well. -/
def Instant.Lapsed (t now : Instant) : Prop := t.nanos + Validity.tolerance ≤ now.nanos

instance (m : Timestamp) : Decidable m.Held := inferInstanceAs (Decidable (_ < Instant.bound))
instance (t : Instant) : Decidable t.InTime := inferInstanceAs (Decidable (_ < Instant.bound))
instance (t now : Instant) : Decidable (t.Lapsed now) := inferInstanceAs (Decidable (_ ≤ now.nanos))

theorem Instant.Lapsed.inTime {t now : Instant} (h : t.Lapsed now) : t.InTime :=
  Int.lt_of_le_of_lt h now.upper

/-- An end that a signed 64-bit number of nanoseconds holds is far from the end of the range. -/
theorem Instant.inTime_ofUnixNanos (n : Int64) : (ofUnixNanos n).InTime := by
  have := n.toInt_lt
  have far : (2 : Int) ^ 63 + Validity.tolerance < bound := by decide
  exact Int.lt_trans (Int.add_lt_add_right this _) far

theorem Instant.completes_plus {t : Instant} {d : Duration} :
    Completes (t.plus d) ↔ t.nanos + d < bound := by
  constructor
  · rintro ⟨r, h⟩
    rw [← nanos_plus h]
    exact r.upper
  · exact plus_ok

namespace Timestamp

theorem nanos_toInstant {m : Timestamp} {t : Instant} (h : m.toInstant = .ok t) :
    t.nanos = m.seconds.toInt * 1000000000 + max 0 m.nanos.toInt := by
  unfold toInstant Instant.ofNanos? at h
  split at h
  · next found =>
      split at found
      · cases found
        cases h
        rfl
      · cases found
  · cases h

theorem completes_toInstant {m : Timestamp} : Completes m.toInstant ↔ m.Held := by
  constructor
  · rintro ⟨t, h⟩
    rw [Held, ← nanos_toInstant h]
    exact t.upper
  · intro held
    have low := m.seconds.le_toInt
    rw [toInstant, Instant.ofNanos?, dif_pos ⟨by omega, held⟩]
    exact completes_ok _

end Timestamp

/-- With tolerance, the question whether an end has passed is answered by comparing. -/
theorem Validity.isExpired_of_inTime {t : Instant} (inTime : t.InTime) (now : Instant) :
    isExpired now t true = .ok (decide (t.Lapsed now)) := by
  obtain ⟨limit, ends⟩ := Instant.completes_plus.2 inTime
  have same : limit ≤ now ↔ t.Lapsed now := by
    show limit.nanos ≤ now.nanos ↔ t.nanos + tolerance ≤ now.nanos
    rw [Instant.nanos_plus ends]
  rw [isExpired, Validity.limit, if_pos rfl, ends]
  exact congrArg Except.ok (decide_eq_decide.2 same)

theorem Validity.completes_isExpired {now t : Instant} :
    Completes (isExpired now t true) ↔ t.InTime := by
  rw [isExpired, completes_map, limit, if_pos rfl, Instant.completes_plus, Instant.InTime]

/-- The times of a row let every key be tried on it. -/
def PublicCertificate.Readable (c : PublicCertificate) : Prop :=
  ∀ start ∈ c.startTime, start.Held ∧ ∀ stop ∈ c.endTime, stop.Held

/-- A certificate keeps the tolerance from the late end of the range. -/
structure PublicCertificate.Timely (c : PublicCertificate) : Prop where
  start : ∀ start ∈ c.startTime, start.Held
  stop : (c.endTime.getD {}).seconds.toInt * 1000000000 + max 0 (c.endTime.getD {}).nanos.toInt +
    Validity.tolerance < Instant.bound

namespace PublicCertificate.Timely

variable {c : PublicCertificate}

theorem held (h : c.Timely) : (c.endTime.getD {}).Held := by
  have stop := h.stop
  show _ + _ < _
  omega

theorem inTime (h : c.Timely) {t : Instant} (ends : (c.endTime.getD {}).toInstant = .ok t) :
    t.InTime := by
  rw [Instant.InTime, Timestamp.nanos_toInstant ends]
  exact h.stop

theorem readable (h : c.Timely) : c.Readable := by
  intro start begins
  refine ⟨h.start start begins, ?_⟩
  intro stop ends
  have held := h.held
  rwa [ends] at held

end PublicCertificate.Timely

theorem DecryptedCertificate.completes_ofPublic {c : PublicCertificate} {key : EncryptedMetadataKey} :
    Completes (ofPublic c key) ↔ c.Readable := by
  unfold ofPublic PublicCertificate.Readable
  cases c.startTime with
  | none =>
      constructor
      · intro _ start begins
        cases begins
      · intro _
        exact completes_ok none
  | some start =>
      simp only [Option.mem_some_iff, forall_eq']
      rw [completes_bind, Timestamp.completes_toInstant]
      refine and_congr_right fun held => ?_
      obtain ⟨notBefore, begins⟩ := Timestamp.completes_toInstant.2 held
      cases c.endTime with
      | none =>
          constructor
          · intro _ stop ends
            cases ends
          · intro _ _ _
            exact completes_ok none
      | some stop =>
          constructor
          · intro rest stop' same
            cases same
            exact Timestamp.completes_toInstant.1 (completes_bind.1 (rest notBefore begins)).1
          · intro ends notBefore' _
            refine completes_bind.2 ⟨Timestamp.completes_toInstant.2 (ends stop rfl), ?_⟩
            intro notAfter _
            split
            · exact completes_ok none
            · exact completes_ok _

namespace Expirations

variable {es : Expirations}

theorem completes_ofCertificates {cs : List PublicCertificate} :
    Completes (ofCertificates cs) ↔ ∀ c ∈ cs, (c.endTime.getD {}).Held := by
  induction cs with
  | nil =>
      constructor
      · intro _ c member
        cases member
      · intro _
        exact completes_ok []
  | cons c cs ih =>
      rw [ofCertificates, completes_bind, Timestamp.completes_toInstant, List.forall_mem_cons, ← ih]
      refine and_congr_right fun held => ?_
      obtain ⟨stop, ends⟩ := Timestamp.completes_toInstant.2 held
      constructor
      · intro rest
        exact (completes_bind.1 (rest stop ends)).1
      · intro rest stop' _
        exact completes_bind.2 ⟨rest, fun es _ => completes_ok ((c.secretId, stop') :: es)⟩

/-- Entries are taken up to the first that has not lapsed, so that is the last to meet the clock. -/
theorem completes_takeExpired {now : Instant} :
    Completes (takeExpired now es) ↔
      ∀ e ∈ es.find? (fun e => !decide (e.2.Lapsed now)), e.2.InTime := by
  induction es with
  | nil =>
      constructor
      · intro _ e found
        cases found
      · intro _
        exact completes_ok []
  | cons e rest ih =>
      rw [takeExpired, completes_bind, Validity.completes_isExpired]
      by_cases lapsed : e.2.Lapsed now
      -- What has lapsed cannot fault: its end with the tolerance is before `now`, which the clock holds.
      · have answer := Validity.isExpired_of_inTime lapsed.inTime now
        rw [decide_eq_true lapsed] at answer
        rw [List.find?_cons_of_neg (by simp [lapsed]), ← ih, answer]
        constructor
        · rintro ⟨_, goesOn⟩
          exact (completes_bind.1 (goesOn true rfl)).1
        · intro more
          refine ⟨lapsed.inTime, ?_⟩
          rintro b same
          cases same
          exact completes_bind.2 ⟨more, fun es _ => completes_ok (e :: es)⟩
      · rw [List.find?_cons_of_pos (by simp [lapsed])]
        constructor
        · rintro ⟨inTime, _⟩ e' same
          cases same
          exact inTime
        · intro inTime
          have inTime := inTime e rfl
          refine ⟨inTime, ?_⟩
          intro b answer
          rw [Validity.isExpired_of_inTime inTime, decide_eq_false lapsed] at answer
          cases answer
          exact completes_ok []

theorem inTime_of_entryOf? {member : String × Json} {e : Bytes × Instant}
    (h : entryOf? member = some e) : e.2.InTime := by
  obtain ⟨id, _, h⟩ := Option.bind_eq_some_iff.1 h
  obtain ⟨text, _, h⟩ := Option.bind_eq_some_iff.1 h
  obtain ⟨nanos, _, h⟩ := Option.bind_eq_some_iff.1 h
  cases h
  exact Instant.inTime_ofUnixNanos nanos

/-- An index that was stored bears every operation, whatever it was when it was stored. -/
theorem inTime_ofJson (stored : Option Json) : ∀ e ∈ ofJson stored, e.2.InTime := by
  intro e member
  unfold ofJson at member
  split at member
  · next members =>
      cases read : members.mapM entryOf? with
      | none =>
          rw [read] at member
          cases member
      | some es =>
          rw [read] at member
          obtain ⟨m, _, entry⟩ := exists_of_mapM_eq_some read e ((sort_perm es).mem_iff.1 member)
          exact inTime_of_entryOf? entry
  · cases member

/-- In a merged index the new entries go before the old ones, the later of them before the earlier. -/
theorem mem_merge_iff {old new : Expirations} {e : Bytes × Instant} :
    e ∈ old.merge new ↔
      (List.lookup e.1 new.reverse).or (List.lookup e.1 old) = some e.2 := by
  rw [merge, (sort_perm _).mem_iff, ← SortedMap.find?_eq_some_iff, SortedMap.find?_insertMissing,
    SortedMap.ofList, SortedMap.find?_insertAll, SortedMap.find?_empty, Option.or_none]

/-- What a merged index holds, one of the two held. -/
theorem mem_of_mem_merge {old new : Expirations} {e : Bytes × Instant} (h : e ∈ old.merge new) :
    e ∈ old ∨ e ∈ new := by
  rw [mem_merge_iff, Option.or_eq_some_iff] at h
  rcases h with latest | ⟨_, kept⟩
  · exact .inr (List.mem_reverse.1 (SortedMap.mem_of_lookup latest))
  · exact .inl (SortedMap.mem_of_lookup kept)

theorem inTime_of_ofCertificates {cs : List PublicCertificate} (timely : ∀ c ∈ cs, c.Timely)
    (h : ofCertificates cs = .ok es) : ∀ e ∈ es, e.2.InTime := by
  induction cs generalizing es with
  | nil =>
      cases h
      intro e member
      cases member
  | cons c cs ih =>
      rw [List.forall_mem_cons] at timely
      obtain ⟨stop, ends, h⟩ := bind_eq_ok.1 h
      obtain ⟨rest, others, h⟩ := bind_eq_ok.1 h
      cases h
      exact List.forall_mem_cons.2 ⟨timely.1.inTime ends, ih timely.2 others⟩

end Expirations

namespace Rows

/-- Every key can be tried on every row. -/
def Readable (rows : Rows) : Prop := ∀ row ∈ rows.values, row.Readable

variable {rows : Rows}

theorem readable_empty : Readable .empty := by
  intro row member
  cases member

theorem readable_iff :
    rows.Readable ↔ ∀ id row, rows.find? id = some row → row.Readable := by
  constructor
  · intro h id row found
    exact h row (SortedMap.mem_values_iff.2 ⟨id, found⟩)
  · intro h row member
    obtain ⟨id, found⟩ := SortedMap.mem_values_iff.1 member
    exact h id row found

theorem Readable.upsert {cs : List PublicCertificate} (h : rows.Readable)
    (new : ∀ c ∈ cs, c.Readable) : (rows.upsert cs).Readable :=
  readable_iff.2 (forall_upsert (readable_iff.1 h) new)

theorem Readable.removeAll (h : rows.Readable) (ids : List Bytes) : (rows.removeAll ids).Readable :=
  readable_iff.2 (forall_removeAll (readable_iff.1 h) ids)

end Rows

namespace Database

/-- The rows that a database gives. -/
def held : Database → Rows
  | memory m => m.rows
  | file f => f.cached.getD .empty

/-- The rows that it gives once it has been opened. -/
def stored : Database → Rows
  | memory m => m.rows
  | file f => (f.slot.node.content?.bind Rows.decode).getD .empty

/-- Every key can be tried on every row, those included that opening would bring. -/
structure Readable (d : Database) : Prop where
  held : d.held.Readable
  stored : d.stored.Readable

variable {d : Database}

theorem Readable.ofMemory {m : MemoryDatabase} (h : m.rows.Readable) : (memory m).Readable := ⟨h, h⟩

theorem Readable.openUp (h : d.Readable) : d.openUp.2.Readable := by
  cases d with
  | memory m =>
      have rows : m.rows.Readable := h.held
      exact .ofMemory (m.rows_openUp ▸ rows)
  | file f =>
      show (file f.openUp.2).Readable
      unfold FileDatabase.openUp
      split
      · exact h
      · exact ⟨Rows.readable_empty, h.stored⟩
      · exact ⟨Rows.readable_empty, h.stored⟩
      · next content node =>
          split
          · next rows decoded =>
              have same : (file f).stored = rows := by
                rw [Database.stored, node, FileNode.content?, Option.bind_some, decoded]
                rfl
              exact ⟨same ▸ h.stored, h.stored⟩
          · exact h

theorem Readable.destroy (h : d.Readable) : d.destroy.2.Readable := by
  cases d with
  | memory m =>
      show (memory m.destroy.2).Readable
      rcases m.destroy_cases with stays | ⟨m', gone, empty⟩
      · rw [stays]
        exact h
      · rw [gone]
        exact .ofMemory (empty ▸ Rows.readable_empty)
  | file f =>
      have stored := h.stored
      show (file f.destroy.2).Readable
      unfold Database.stored at stored
      unfold FileDatabase.destroy FileSlot.remove
      cases node : f.slot.node with
      | directory => exact h
      | file content => exact ⟨Rows.readable_empty, Rows.readable_empty⟩
      | missing => exact ⟨Rows.readable_empty, stored⟩
      | unreachable => exact ⟨Rows.readable_empty, stored⟩

/-- A change reaches all rows that are held, or none. -/
theorem held_update (d : Database) (change : Rows → Rows) :
    (d.update change).2.held = d.held ∨ (d.update change).2.held = change d.held := by
  cases d with
  | memory m =>
      show (m.update change).2.rows = m.rows ∨ (m.update change).2.rows = change m.rows
      unfold MemoryDatabase.update
      split
      · exact .inl rfl
      · exact .inr rfl
  | file f =>
      show (f.update change).2.cached.getD .empty = f.cached.getD .empty ∨
        (f.update change).2.cached.getD .empty = change (f.cached.getD .empty)
      unfold FileDatabase.update
      split
      · exact .inl rfl
      · next rows cached =>
          rw [cached]
          split
          · exact .inr rfl
          · exact .inr rfl

theorem eq_of_load {rows : List PublicCertificate} (h : d.load = .ok rows) :
    rows = d.held.values := by
  cases d with
  | memory m =>
      have h : m.load = .ok rows := h
      unfold MemoryDatabase.load at h
      split at h
      · cases h
      · cases h
        rfl
  | file f =>
      have h : f.load = .ok rows := h
      unfold FileDatabase.load at h
      split at h
      · next found =>
          cases h
          rw [held, found]
          rfl
      · cases h

end Database

namespace Store

/-- The times in a store bear every operation; rows that only opening would bring count as well. -/
structure Sound (s : Store) : Prop where
  index : ∀ e ∈ s.expirations, e.2.InTime
  held : s.database.held.Readable
  stored : s.openState = .uninitialized → s.database.stored.Readable

variable {s s' : Store} {certificates : List PublicCertificate} {now : Instant}

namespace Sound

theorem create {preferences : Preferences} {database : Database} (h : database.Readable)
    (maxAttempts : Nat) : (create preferences database maxAttempts).Sound where
  index := Expirations.inTime_ofJson _
  held := h.held
  stored _ := h.stored

/-- While a store is opened, the rows that opening would bring count. -/
theorem opening : KeptByOpening fun s =>
    (∀ e ∈ s.expirations, e.2.InTime) ∧ s.database.Readable where
  verdict _ h := h
  attempt h := ⟨h.1, h.2.openUp⟩
  stuck h _ gone := by
    have erased := h.2.openUp.destroy
    rw [gone] at erased
    exact ⟨h.1, erased⟩
  erased h _ gone := by
    have erased := h.2.openUp.destroy
    rw [gone] at erased
    exact ⟨List.forall_mem_nil _, erased⟩

theorem ensureOpen (h : s.Sound) : s.ensureOpen.2.Sound := by
  rw [Store.ensureOpen_eq]
  split
  · exact h
  · exact h
  · next fresh =>
      obtain ⟨index, database⟩ := opening.openWithin s.maxAttempts ⟨h.index, h.held, h.stored fresh⟩
      exact ⟨index, database.held, fun _ => database.stored⟩

/-- An open database may be written; what has not been read from it no longer matters. -/
theorem written (h : s.Sound) (opened : s.openState = .initialized) {change : Rows → Rows}
    {es : Expirations} {r : Except Failure Unit}
    (keeps : ∀ rows : Rows, rows.Readable → (change rows).Readable) (index : ∀ e ∈ es, e.2.InTime)
    (write : s.Written change es r s') : s'.Sound := by
  have held : (s.database.update change).2.held.Readable := by
    rcases s.database.held_update change with same | changed
    · rw [same]
      exact h.held
    · rw [changed]
      exact keeps _ h.held
  -- A file may not give back what was written to it, but an open one is not read again.
  have unread : s.openState ≠ .uninitialized := by
    rw [opened]
    decide
  cases write with
  | failed _ => exact ⟨h.index, held, fun closed => absurd closed unread⟩
  | done _ => exact ⟨index, held, fun closed => absurd closed unread⟩

theorem addPublic {r : Except Failure Unit} (h : s.Sound) (timely : ∀ c ∈ certificates, c.Timely)
    (done : s.addPublic certificates = .ok (r, s')) : s'.Sound := by
  rcases addPublic_cases done with ⟨rfl, _⟩ | ⟨new, opened, ends, added⟩
  · exact h.ensureOpen
  · refine h.ensureOpen.written opened ?_ ?_ added
    · intro rows readable
      exact readable.upsert fun c own => (timely c own).readable
    · intro e member
      rcases Expirations.mem_of_mem_merge member with old | own
      · exact h.ensureOpen.index e old
      · exact Expirations.inTime_of_ofCertificates timely ends e own

theorem removeExpiredPublic {r : Except Failure Unit} (h : s.Sound)
    (done : s.removeExpiredPublic now = .ok (r, s')) : s'.Sound := by
  rcases removeExpiredPublic_cases done with ⟨rfl, _⟩ | ⟨expired, opened, _, removed⟩
  · exact h.ensureOpen
  · refine h.ensureOpen.written opened ?_ ?_ removed
    · intro rows readable
      exact readable.removeAll _
    · intro e member
      exact h.ensureOpen.index e (List.mem_filter.1 member).1

theorem getPublic (h : s.Sound) : s.getPublic.2.Sound := by
  rw [getPublic_snd]
  exact h.ensureOpen

theorem readable_of_getPublic {rows : List PublicCertificate} (h : s.Sound)
    (got : s.getPublic.1 = .ok rows) : ∀ c ∈ rows, c.Readable := by
  rw [Database.eq_of_load (load_of_getPublic got)]
  exact h.ensureOpen.held

end Sound

theorem completes_addPublic :
    Completes (s.addPublic certificates) ↔
      (s.ensureOpen.1 = .ok () → ∀ c ∈ certificates, (c.endTime.getD {}).Held) := by
  rw [← Expirations.completes_ofCertificates]
  unfold Store.addPublic
  split
  · next f s₁ found =>
      rw [found]
      constructor
      · intro _ opened
        cases opened
      · intro _
        exact completes_ok (Except.error f, s₁)
  · next s₁ found =>
      rw [found, completes_bind]
      constructor
      · rintro ⟨ends, _⟩ _
        exact ends
      · intro ends
        refine ⟨ends rfl, ?_⟩
        intro new _
        split
        · exact completes_ok _
        · exact completes_ok _

theorem completes_removeExpiredPublic :
    Completes (s.removeExpiredPublic now) ↔
      (s.ensureOpen.1 = .ok () →
        ∀ e ∈ s.ensureOpen.2.expirations.find? (fun e => !decide (e.2.Lapsed now)), e.2.InTime) := by
  rw [← Expirations.completes_takeExpired]
  unfold Store.removeExpiredPublic
  split
  · next f s₁ found =>
      rw [found]
      constructor
      · intro _ opened
        cases opened
      · intro _
        exact completes_ok (Except.error f, s₁)
  · next s₁ found =>
      rw [found, completes_bind]
      constructor
      · rintro ⟨taken, _⟩ _
        exact taken
      · intro taken
        refine ⟨taken rfl, ?_⟩
        intro expired _
        dsimp only
        split
        · exact completes_ok _
        · split
          · exact completes_ok _
          · exact completes_ok _

end Store
end ProximityCert

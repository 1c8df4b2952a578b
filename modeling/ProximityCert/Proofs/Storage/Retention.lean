import ProximityCert.Proofs.Storage.Faults
import ProximityCert.Proofs.Wire.Certificates

/-!
How long a row stays. A store removes what its index shows to have lapsed, and reads the index anew when
it is opened again, with ends cut to 64-bit numbers of nanoseconds. A row is followed through any run
of operations that spare it, together with the end that the index has for it by then.
-/

namespace ProximityCert

/-- A certificate is short enough to be written behind its length. -/
def PublicCertificate.Framable (c : PublicCertificate) : Prop :=
  (Message.encode c).length < UInt64.size

instance (c : PublicCertificate) : Decidable c.Framable :=
  inferInstanceAs (Decidable (_ < UInt64.size))

namespace SortedMap

variable {κ α : Type} [BEq κ] [LawfulBEq κ]

theorem lookup_reverse {k : κ} {v : α} {earlier later : List (κ × α)} (last : ∀ e ∈ later, e.1 ≠ k) :
    (earlier ++ (k, v) :: later).reverse.lookup k = some v := by
  have absent : later.reverse.lookup k = none :=
    List.lookup_eq_none_iff.2 fun e member => bne_iff_ne.2 (last e (List.mem_reverse.1 member)).symm
  rw [List.reverse_append, List.reverse_cons, List.lookup_append, List.lookup_append, absent]
  simp

end SortedMap

namespace Rows

/-- Every row stands under its own id. -/
def Keyed (rows : Rows) : Prop := ∀ id row, rows.find? id = some row → row.secretId = id

/-- Rows stand under their own ids and can be written to a file. -/
def Filed (rows : Rows) : Prop :=
  ∀ id row, rows.find? id = some row → row.secretId = id ∧ row.Framable

variable {rows : Rows}

theorem keyed_empty : Keyed .empty := by
  intro id row found
  cases found

theorem Keyed.upsert (h : rows.Keyed) (cs : List PublicCertificate) : (rows.upsert cs).Keyed :=
  forall_upsert h fun _ _ => rfl

theorem Keyed.removeAll (h : rows.Keyed) (ids : List Bytes) : (rows.removeAll ids).Keyed :=
  forall_removeAll h ids

theorem Keyed.entries (h : rows.Keyed) :
    rows.values.map (fun c => (c.secretId, c)) = rows.entries := by
  rw [SortedMap.values, List.map_map]
  refine (List.map_congr_left fun e entry => ?_).trans (List.map_id' _)
  exact Prod.ext (h e.1 e.2 (SortedMap.find?_eq_some_iff.2 entry)) rfl

theorem Keyed.upsert_values (h : rows.Keyed) : Rows.upsert .empty rows.values = rows := by
  apply SortedMap.ext_find?
  intro id
  have distinct : (rows.entries.reverse.map Prod.fst).Nodup :=
    (((List.reverse_perm rows.entries).map Prod.fst).nodup_iff).2 (SortedMap.keys_nodup rows)
  rw [find?_upsert, SortedMap.find?_empty, Option.or_none, h.entries]
  apply Option.ext
  intro row
  rw [SortedMap.lookup_eq_some_iff distinct, List.mem_reverse, SortedMap.find?_eq_some_iff]

theorem filed_empty : Filed .empty := by
  intro id row found
  cases found

theorem Filed.keyed (h : rows.Filed) : rows.Keyed := fun id row found => (h id row found).1

theorem Filed.upsert {cs : List PublicCertificate} (h : rows.Filed)
    (framable : ∀ c ∈ cs, c.Framable) : (rows.upsert cs).Filed :=
  forall_upsert h fun c own => ⟨rfl, framable c own⟩

theorem Filed.removeAll (h : rows.Filed) (ids : List Bytes) : (rows.removeAll ids).Filed :=
  forall_removeAll h ids

theorem decode_encode (h : rows.Filed) : decode rows.encode = some rows := by
  have framable : ∀ c ∈ rows.values, c.Framable := by
    intro c member
    obtain ⟨id, found⟩ := SortedMap.mem_values_iff.1 member
    exact (h id c found).2
  rw [decode, encode, Message.decodeList_encodeList (by decide) framable, Option.map_some,
    h.keyed.upsert_values]

end Rows

theorem FileSlot.node_of_replace {slot slot' : FileSlot} {content : Bytes}
    (h : slot.replace content = .ok slot') : slot'.node = .file content := by
  unfold replace at h
  split at h
  · cases h
    rfl
  · cases h

/-- A file that was not read is not written; one that was is changed as far as it has been read, also
when it cannot be written. -/
theorem FileDatabase.update_cases (f : FileDatabase) (change : Rows → Rows) :
    f.update change = (.error notOpened, f) ∨
      ∃ rows, f.cached = some rows ∧
        ((∃ e, f.update change = (.error e, { f with cached := some (change rows) })) ∨
          ∃ slot, slot.node = .file (change rows).encode ∧
            f.update change = (.ok (), { slot, cached := some (change rows) })) := by
  unfold update
  split
  · exact .inl rfl
  · next rows read =>
      refine .inr ⟨rows, read, ?_⟩
      split
      · next slot replaced => exact .inr ⟨slot, FileSlot.node_of_replace replaced, rfl⟩
      · next e _ => exact .inl ⟨e, rfl⟩

theorem Database.held_of_update {d : Database} {change : Rows → Rows}
    (taken : (d.update change).1 = .ok ()) : (d.update change).2.held = change d.held := by
  cases d with
  | memory m =>
      have taken : (m.update change).1 = .ok () := taken
      show (m.update change).2.rows = change m.rows
      unfold MemoryDatabase.update at taken ⊢
      split at taken
      · cases taken
      · next working => rw [if_neg working]
  | file f =>
      have taken : (f.update change).1 = .ok () := taken
      show (f.update change).2.cached.getD .empty = change (f.cached.getD .empty)
      rcases f.update_cases change with same | ⟨rows, read, ⟨e, same⟩ | ⟨slot, _, same⟩⟩
      · rw [same] at taken
        cases taken
      · rw [same] at taken
        cases taken
      · rw [same, read]
        rfl

/-- The rows in a file, and those that were read from it, can be written to it again. -/
def Database.Filed : Database → Prop
  | memory _ => True
  | file f => (∀ rows ∈ f.cached, rows.Filed) ∧
      ∀ content ∈ f.slot.node.content?, ∀ rows ∈ Rows.decode content, rows.Filed

def Database.Intact : Database → Prop
  | memory m => .corrupt ∉ m.openScript
  | file f => f.slot.node.content?.all (fun content => (Rows.decode content).isSome) = true

instance : (d : Database) → Decidable d.Intact
  | .memory m => inferInstanceAs (Decidable (.corrupt ∉ m.openScript))
  | .file _ => inferInstanceAs (Decidable (_ = true))

theorem Database.Intact.openUp {d : Database} (h : d.Intact) :
    d.openUp.1 ≠ .corrupt ∧ d.openUp.2.Intact ∧ d.openUp.2.stored = d.stored := by
  cases d with
  | memory m =>
      have h : .corrupt ∉ m.openScript := h
      show m.openUp.1 ≠ .corrupt ∧ .corrupt ∉ m.openUp.2.openScript ∧ m.openUp.2.rows = m.rows
      refine ⟨?_, ?_, m.rows_openUp⟩
      · unfold MemoryDatabase.openUp
        split
        · exact nofun
        · next script =>
            rw [script, List.mem_cons, not_or] at h
            exact Ne.symm h.1
      · unfold MemoryDatabase.openUp
        split
        · exact h
        · next script =>
            rw [script, List.mem_cons, not_or] at h
            exact h.2
  | file f =>
      have h : f.slot.node.content?.all (fun content => (Rows.decode content).isSome) = true := h
      show f.openUp.1 ≠ .corrupt ∧ (file f.openUp.2).Intact ∧ (file f.openUp.2).stored = (file f).stored
      unfold FileDatabase.openUp
      split
      · exact ⟨nofun, h, rfl⟩
      · exact ⟨nofun, h, rfl⟩
      · exact ⟨nofun, h, rfl⟩
      · next content node =>
          split
          · exact ⟨nofun, h, rfl⟩
          · next malformed =>
              rw [node, FileNode.content?, Option.all_some, malformed] at h
              cases h

namespace Database.Filed

variable {d : Database}

theorem openUp (h : d.Filed) : d.openUp.2.Filed := by
  cases d with
  | memory m => trivial
  | file f =>
      show (file f.openUp.2).Filed
      unfold FileDatabase.openUp
      split
      · exact h
      · exact ⟨fun rows same => Option.some.inj same ▸ Rows.filed_empty, h.2⟩
      · exact ⟨fun rows same => Option.some.inj same ▸ Rows.filed_empty, h.2⟩
      · next content node =>
          split
          · next rows decoded =>
              have read : rows.Filed := h.2 content (by rw [node]; rfl) rows decoded
              exact ⟨fun rows' same => Option.some.inj same ▸ read, h.2⟩
          · exact h

theorem destroy (h : d.Filed) : d.destroy.2.Filed := by
  cases d with
  | memory m => trivial
  | file f =>
      show (file f.destroy.2).Filed
      unfold FileDatabase.destroy FileSlot.remove
      cases node : f.slot.node with
      | directory => exact h
      | file content => exact ⟨nofun, nofun⟩
      | missing => exact ⟨nofun, h.2⟩
      | unreachable => exact ⟨nofun, h.2⟩

end Database.Filed

theorem Store.filed_opening : KeptByOpening fun s => s.database.Filed where
  verdict _ h := h
  attempt h := h.openUp
  stuck h _ gone := by
    have erased := h.openUp.destroy
    rw [gone] at erased
    exact erased
  erased h _ gone := by
    have erased := h.openUp.destroy
    rw [gone] at erased
    exact erased

/-- A database that is intact and has a row, in a file also among the rows that are read from it. -/
inductive Keeps (c : PublicCertificate) : Database → Prop
  | memory {m : MemoryDatabase} (intact : .corrupt ∉ m.openScript)
      (row : m.rows.find? c.secretId = some c) : Keeps c (.memory m)
  | file {f : FileDatabase} {rows : Rows} (written : f.slot.node = .file rows.encode)
      (filed : rows.Filed) (row : rows.find? c.secretId = some c)
      (cached : ∀ rows ∈ f.cached, rows.Filed ∧ rows.find? c.secretId = some c) :
      Keeps c (.file f)

namespace Keeps

variable {c : PublicCertificate} {d : Database}

theorem only {rows : Rows} (filed : rows.Filed) (row : rows.find? c.secretId = some c) :
    ∀ rows' ∈ some rows, rows'.Filed ∧ rows'.find? c.secretId = some c := by
  intro rows' same
  exact Option.some.inj same ▸ ⟨filed, row⟩

theorem openUp (h : Keeps c d) : d.openUp.1 ≠ .corrupt ∧ Keeps c d.openUp.2 := by
  cases h with
  | @memory m intact row =>
      have after := Database.Intact.openUp (d := .memory m) intact
      exact ⟨after.1, .memory after.2.1 (m.rows_openUp ▸ row)⟩
  | @file f rows written filed row cached =>
      have opened : f.openUp = (.ok, { f with cached := some rows }) := by
        simp only [FileDatabase.openUp, written, Rows.decode_encode filed]
      rw [Database.openUp, opened]
      exact ⟨nofun, .file written filed row (only filed row)⟩

theorem update (h : Keeps c d) {change : Rows → Rows}
    (files : ∀ rows : Rows, rows.Filed → (change rows).Filed)
    (spares : ∀ rows : Rows, rows.find? c.secretId = some c →
      (change rows).find? c.secretId = some c) :
    Keeps c (d.update change).2 := by
  cases h with
  | @memory m intact row =>
      show Keeps c (.memory (m.update change).2)
      unfold MemoryDatabase.update
      split
      · exact .memory intact row
      · exact .memory intact (spares _ row)
  | @file f rows written filed row cached =>
      show Keeps c (.file (f.update change).2)
      rcases f.update_cases change with unread | ⟨rows', read, failed | done⟩
      · rw [unread]
        exact .file written filed row cached
      · obtain ⟨e, failed⟩ := failed
        obtain ⟨filed', row'⟩ := cached rows' read
        rw [failed]
        exact .file written filed row (only (files _ filed') (spares _ row'))
      · obtain ⟨slot, node, done⟩ := done
        obtain ⟨filed', row'⟩ := cached rows' read
        rw [done]
        exact .file node (files _ filed') (spares _ row') (only (files _ filed') (spares _ row'))

theorem reopened (h : Keeps c d) : Keeps c d.reopened := by
  cases h with
  | memory intact row => exact .memory intact row
  | file written filed row cached => exact .file written filed row nofun

theorem stored (h : Keeps c d) : d.stored.find? c.secretId = some c := by
  cases h with
  | memory intact row => exact row
  | file written filed row cached =>
      rw [Database.stored, written, FileNode.content?, Option.bind_some, Rows.decode_encode filed]
      exact row

theorem mem_of_load (h : Keeps c d) {rows : List PublicCertificate} (loaded : d.load = .ok rows) :
    c ∈ rows := by
  rw [Database.eq_of_load loaded, SortedMap.mem_values_iff]
  cases h with
  | memory intact row => exact ⟨c.secretId, row⟩
  | @file f _ written filed row cached =>
      have loaded : f.load = .ok rows := loaded
      unfold FileDatabase.load at loaded
      split at loaded
      · next read =>
          refine ⟨c.secretId, ?_⟩
          rw [Database.held, read]
          exact (cached _ read).2
      · cases loaded

/-- A row that was put into an intact database of rows that can be written is there to stay. -/
theorem of_update {change : Rows → Rows} (filed : d.Filed)
    (files : ∀ rows : Rows, rows.Filed → (change rows).Filed)
    (puts : ∀ rows : Rows, (change rows).find? c.secretId = some c)
    (taken : (d.update change).1 = .ok ()) (intact : (d.update change).2.Intact) :
    Keeps c (d.update change).2 := by
  cases d with
  | memory m =>
      have taken : (m.update change).1 = .ok () := taken
      have intact : .corrupt ∉ (m.update change).2.openScript := intact
      show Keeps c (.memory (m.update change).2)
      unfold MemoryDatabase.update at taken intact ⊢
      split at taken
      · cases taken
      · next works =>
          rw [if_neg works] at intact ⊢
          exact .memory intact (puts m.rows)
  | file f =>
      have taken : (f.update change).1 = .ok () := taken
      show Keeps c (.file (f.update change).2)
      rcases f.update_cases change with unread | ⟨rows, read, failed | done⟩
      · rw [unread] at taken
        cases taken
      · obtain ⟨e, failed⟩ := failed
        rw [failed] at taken
        cases taken
      · obtain ⟨slot, node, done⟩ := done
        have written : (change rows).Filed := files rows (filed.1 rows read)
        rw [done]
        exact .file node written (puts rows) (only written (puts rows))

end Keeps

namespace Expirations

theorem takeExpired_eq_takeWhile {es expired : Expirations} {now : Instant}
    (h : takeExpired now es = .ok expired) :
    expired = es.takeWhile fun e => decide (e.2.Lapsed now) := by
  induction es generalizing expired with
  | nil =>
      cases h
      rfl
  | cons e es ih =>
      obtain ⟨lapsed, answer, h⟩ := bind_eq_ok.1 h
      have inTime : e.2.InTime := Validity.completes_isExpired.1 ⟨_, answer⟩
      rw [Validity.isExpired_of_inTime inTime] at answer
      rw [List.takeWhile_cons, Except.ok.inj answer]
      cases lapsed with
      | false =>
          cases h
          rfl
      | true =>
          obtain ⟨rest, more, h⟩ := bind_eq_ok.1 h
          cases h
          rw [ih more]
          rfl

theorem lapsed_of_takeExpired {es expired : Expirations} {now : Instant}
    (h : takeExpired now es = .ok expired) : ∀ e ∈ expired, e ∈ es ∧ e.2.Lapsed now := by
  intro e member
  rw [takeExpired_eq_takeWhile h] at member
  have lapsed := List.all_eq_true.1 List.all_takeWhile e member
  exact ⟨(List.takeWhile_sublist _).mem member, of_decide_eq_true lapsed⟩

/-- In order, all that has lapsed stands in front. -/
theorem Sorted.eq_of_takeExpired {es expired : Expirations} {now : Instant} (sorted : es.Sorted)
    (h : takeExpired now es = .ok expired) :
    expired = es.filter fun e => decide (e.2.Lapsed now) := by
  rw [takeExpired_eq_takeWhile h]
  clear h
  induction es with
  | nil => rfl
  | cons x es ih =>
      obtain ⟨below, sorted⟩ := List.pairwise_cons.1 sorted
      by_cases past : x.2.Lapsed now
      · rw [List.takeWhile_cons, List.filter_cons, if_pos (by simpa using past),
          if_pos (by simpa using past), ih sorted]
      · have none : es.filter (fun e => decide (e.2.Lapsed now)) = [] := by
          refine List.filter_eq_nil_iff.2 fun e member => ?_
          have earlier : x.2.nanos ≤ e.2.nanos := below e member
          have early : ¬ e.2.Lapsed now := fun late =>
            past (Int.le_trans (Int.add_le_add_right earlier _) late)
          simpa using early
        rw [List.takeWhile_cons, List.filter_cons, if_neg (by simpa using past),
          if_neg (by simpa using past), none]

theorem eq_of_ofCertificates {cs : List PublicCertificate} {es : Expirations}
    (h : ofCertificates cs = .ok es) : es = cs.map fun c => (c.secretId, c.stop) := by
  induction cs generalizing es with
  | nil =>
      cases h
      rfl
  | cons c cs ih =>
      obtain ⟨stop, ends, h⟩ := bind_eq_ok.1 h
      obtain ⟨rest, others, h⟩ := bind_eq_ok.1 h
      cases h
      rw [ih others, List.map_cons, PublicCertificate.stop, ends]
      rfl

/-- What a stored index gives back of an entry: its id, and of its end what a 64-bit number keeps. -/
theorem mem_ofJson_toJson {es : Expirations} {e : Bytes × Instant} (h : e ∈ ofJson (some es.toJson)) :
    ∃ x ∈ es, e = (x.1, .ofUnixNanos x.2.toUnixNanos) := by
  obtain ⟨t, last, kept⟩ := Option.map_eq_some_iff.1 (mem_ofJson_toJson_iff.1 h)
  have own := List.mem_reverse.1 (SortedMap.mem_of_lookup last)
  exact ⟨(e.1, t), own, Prod.ext rfl kept.symm⟩

end Expirations

namespace Store

/-- A store has a certificate's row, and an end for it in its index and, cut, in the stored one. -/
structure Retains (c : PublicCertificate) (t : Instant) (s : Store) : Prop where
  row : Keeps c s.database
  index : ∀ e ∈ s.expirations, e.1 = c.secretId → e.2 = t
  stored : ∀ e ∈ Expirations.ofJson (s.preferences.find? expirationsKey),
    e.1 = c.secretId → e.2 = .ofUnixNanos t.toUnixNanos

variable {c : PublicCertificate} {t : Instant} {s s' : Store}

namespace Retains

theorem opening (c : PublicCertificate) (t : Instant) : KeptByOpening (Retains c t) where
  verdict _ h := ⟨h.row, h.index, h.stored⟩
  attempt h := ⟨h.row.openUp.2, h.index, h.stored⟩
  stuck h corrupt _ := absurd corrupt h.row.openUp.1
  erased h corrupt _ := absurd corrupt h.row.openUp.1

theorem setExpirations (row : Keeps c s.database) {es : Expirations}
    (index : ∀ e ∈ es, e.1 = c.secretId → e.2 = t) : Retains c t (s.setExpirations es) where
  row := row
  index := index
  stored := by
    intro e member own
    rw [Store.setExpirations, SortedMap.find?_insert, if_pos rfl] at member
    obtain ⟨x, inside, rfl⟩ := Expirations.mem_ofJson_toJson member
    rw [index x inside own]

theorem written (h : Retains c t s) {change : Rows → Rows} {es : Expirations}
    {r : Except Failure Unit} (files : ∀ rows : Rows, rows.Filed → (change rows).Filed)
    (spares : ∀ rows : Rows, rows.find? c.secretId = some c →
      (change rows).find? c.secretId = some c)
    (index : ∀ e ∈ es, e.1 = c.secretId → e.2 = t) (write : s.Written change es r s') :
    Retains c t s' := by
  have row := h.row.update files spares
  cases write with
  | failed _ => exact ⟨row, h.index, h.stored⟩
  | done _ => exact setExpirations row index

theorem ensureOpen (h : Retains c t s) : Retains c t s.ensureOpen.2 :=
  (opening c t).ensureOpen h

theorem addPublic {certificates : List PublicCertificate} {r : Except Failure Unit}
    (h : Retains c t s) (others : ∀ d ∈ certificates, d.secretId ≠ c.secretId ∧ d.Framable)
    (added : s.addPublic certificates = .ok (r, s')) : Retains c t s' := by
  rcases addPublic_cases added with ⟨rfl, _⟩ | ⟨new, _, ends, write⟩
  · exact h.ensureOpen
  · refine h.ensureOpen.written ?_ ?_ ?_ write
    · intro rows filed
      exact filed.upsert fun d own => (others d own).2
    · intro rows found
      have absent : List.lookup c.secretId
          (certificates.map fun d => (d.secretId, d)).reverse = none := by
        refine List.lookup_eq_none_iff.2 fun e member => bne_iff_ne.2 ?_
        obtain ⟨d, own, rfl⟩ := List.mem_map.1 (List.mem_reverse.1 member)
        exact (others d own).1.symm
      rw [Rows.find?_upsert, absent]
      exact found
    · intro e member own
      rcases Expirations.mem_of_mem_merge member with old | fresh
      · exact h.ensureOpen.index e old own
      · rw [Expirations.eq_of_ofCertificates ends] at fresh
        obtain ⟨d, inside, rfl⟩ := List.mem_map.1 fresh
        exact ((others d inside).1 own).elim

theorem removeExpiredPublic {now : Instant} {r : Except Failure Unit} (h : Retains c t s)
    (early : ∀ e ∈ s.ensureOpen.2.expirations, e.1 = c.secretId → ¬ e.2.Lapsed now)
    (removed : s.removeExpiredPublic now = .ok (r, s')) : Retains c t s' := by
  rcases removeExpiredPublic_cases removed with ⟨rfl, _⟩ | ⟨expired, _, taken, write⟩
  · exact h.ensureOpen
  · refine h.ensureOpen.written (fun rows filed => filed.removeAll _) ?_ ?_ write
    · intro rows found
      have spared : c.secretId ∉ expired.map Prod.fst := by
        intro member
        obtain ⟨e, gone, own⟩ := List.mem_map.1 member
        obtain ⟨inside, lapsed⟩ := Expirations.lapsed_of_takeExpired taken e gone
        exact early e inside own lapsed
      rw [Rows.find?_removeAll, if_neg spared]
      exact found
    · intro e member
      exact h.ensureOpen.index e (List.mem_filter.1 member).1

/-- Another store on the same data has the end as it was stored, and stores it so again. -/
theorem restarted (h : Retains c t s) (maxAttempts : Nat) :
    Retains c (.ofUnixNanos t.toUnixNanos)
      (create s.preferences s.database.reopened maxAttempts) where
  row := h.row.reopened
  index := h.stored
  stored := by
    rw [Instant.toUnixNanos_ofUnixNanos]
    exact h.stored

/-- The last of its id among added certificates is the row of that id, with its own end. -/
theorem of_addPublic {earlier later : List PublicCertificate} (filed : s.database.Filed)
    (framable : ∀ d ∈ earlier ++ c :: later, d.Framable)
    (last : ∀ d ∈ later, d.secretId ≠ c.secretId)
    (added : s.addPublic (earlier ++ c :: later) = .ok (.ok (), s')) (intact : s'.database.Intact) :
    Retains c c.stop s' := by
  rcases addPublic_cases added with ⟨_, failed⟩ | ⟨new, _, ends, write⟩
  · exact (failed rfl).elim
  · have opened : s.ensureOpen.2.database.Filed := filed_opening.ensureOpen filed
    cases write with
    | done taken =>
        refine setExpirations ?_ ?_
        · refine Keeps.of_update opened ?_ ?_ taken intact
          · intro rows filed
            exact filed.upsert framable
          · intro rows
            rw [Rows.find?_upsert, List.map_append, List.map_cons, SortedMap.lookup_reverse,
              Option.some_or]
            intro e member
            obtain ⟨d, own, rfl⟩ := List.mem_map.1 member
            exact last d own
        · intro e member own
          rw [Expirations.mem_merge_iff, Expirations.eq_of_ofCertificates ends, List.map_append,
            List.map_cons, own, SortedMap.lookup_reverse, Option.some_or] at member
          · exact (Option.some.inj member).symm
          · intro x inside
            obtain ⟨d, behind, rfl⟩ := List.mem_map.1 inside
            exact last d behind

end Retains

namespace Operation

/-- The store after an operation; one that the clock has ended has opened the store. -/
def after (op : Operation) (s : Store) : Store := (op.perform s).toOption.getD s.ensureOpen.2

def afterAll : List Operation → Store → Store
  | [], s => s
  | op :: ops, s => afterAll ops (op.after s)

/-- An operation that has nothing to remove a certificate for, which ends at some time. -/
def Spares (c : PublicCertificate) (t : Instant) : Operation → Prop
  | add certificates => ∀ d ∈ certificates, d.secretId ≠ c.secretId ∧ d.Framable
  | removeExpired now => ¬ t.Lapsed now
  | clear => False
  | get => True
  | restart _ => True
  | arrange openScript _ _ => .corrupt ∉ openScript

/-- The end in the index after an operation: another store has read it from the stored index. -/
def carry : Operation → Instant → Instant
  | restart _, t => .ofUnixNanos t.toUnixNanos
  | _, t => t

/-- All operations spare a certificate, by the end that the index has for it at each of them. -/
def AllSpare (c : PublicCertificate) : List Operation → Instant → Prop
  | [], _ => True
  | op :: ops, t => op.Spares c t ∧ AllSpare c ops (op.carry t)

theorem retains_after_removeExpired {now : Instant} (h : Retains c t s)
    (early : ∀ e ∈ s.ensureOpen.2.expirations, e.1 = c.secretId → ¬ e.2.Lapsed now) :
    Retains c t ((removeExpired now).after s) := by
  show Retains c t (((s.removeExpiredPublic now).map (·.2)).toOption.getD s.ensureOpen.2)
  cases removed : s.removeExpiredPublic now with
  | error _ => exact h.ensureOpen
  | ok result => exact h.removeExpiredPublic early removed

theorem retains_after {op : Operation} (h : Retains c t s) (spares : op.Spares c t) :
    Retains c (op.carry t) (op.after s) := by
  cases op with
  | add certificates =>
      show Retains c t (((s.addPublic certificates).map (·.2)).toOption.getD s.ensureOpen.2)
      cases added : s.addPublic certificates with
      | error _ => exact h.ensureOpen
      | ok result => exact h.addPublic spares added
  | removeExpired now =>
      refine retains_after_removeExpired h fun e member own => ?_
      rw [h.ensureOpen.index e member own]
      exact spares
  | clear => exact spares.elim
  | get =>
      show Retains c t s.getPublic.2
      rw [getPublic_snd]
      exact h.ensureOpen
  | restart maxAttempts => exact h.restarted maxAttempts
  | arrange openScript failOperations failDestroy =>
      cases database : s.database with
      | memory m =>
          have arranged : (arrange openScript failOperations failDestroy).after s =
              { s with database := .memory { m with openScript, failOperations, failDestroy } } := by
            simp only [after, perform, database]
            rfl
          have row := h.row
          rw [database] at row
          cases row with
          | memory _ row => exact arranged ▸ ⟨.memory spares row, h.index, h.stored⟩
      | file f =>
          have arranged : (arrange openScript failOperations failDestroy).after s = s := by
            simp only [after, perform, database]
            rfl
          rw [arranged]
          exact h

theorem retains_afterAll {ops : List Operation} (h : Retains c t s) (spare : AllSpare c ops t) :
    ∃ t', Retains c t' (afterAll ops s) := by
  induction ops generalizing s t with
  | nil => exact ⟨t, h⟩
  | cons op ops ih => exact ih (retains_after h spare.1) spare.2

end Operation

/-- A row stays through every run of operations that spare it, faults and failures of the database
included, and is among the rows that are given out. Whether a clean-up spares it depends on the end that
the index has for it: its own, until another store has read what a 64-bit number keeps of it. -/
theorem retained_of_run {earlier later : List PublicCertificate} (filed : s.database.Filed)
    (framable : ∀ d ∈ earlier ++ c :: later, d.Framable)
    (last : ∀ d ∈ later, d.secretId ≠ c.secretId)
    (added : s.addPublic (earlier ++ c :: later) = .ok (.ok (), s')) (intact : s'.database.Intact)
    {ops : List Operation} (spare : Operation.AllSpare c ops c.stop) :
    (Operation.afterAll ops s').database.stored.find? c.secretId = some c ∧
      ∀ rows, (Operation.afterAll ops s').getPublic.1 = .ok rows → c ∈ rows := by
  obtain ⟨t, retains⟩ :=
    Operation.retains_afterAll (.of_addPublic filed framable last added intact) spare
  refine ⟨retains.row.stored, ?_⟩
  intro rows got
  exact retains.ensureOpen.row.mem_of_load (load_of_getPublic got)

/-- A store on an absent file, after a certificate was added that ends nine seconds past the epoch. -/
def holding : Store :=
  match (create .empty (.file {}) 3).addPublic [endingAt 1 9] with
  | .ok (_, s) => s
  | .error _ => create .empty (.file {}) 3

def sparing : List Operation :=
  [.restart 3, .add [endingAt 2 5], .removeExpired (.ofUnixNanos 1808999999999), .get, .restart 1]

theorem retained_of_run_sparing :
    (create .empty (.file {}) 3).addPublic [endingAt 1 9] = .ok (.ok (), holding) ∧
    Operation.AllSpare (endingAt 1 9) sparing (endingAt 1 9).stop ∧
    (Operation.afterAll sparing holding).database.stored.find? [1] = some (endingAt 1 9) := by
  have added : (create .empty (.file {}) 3).addPublic ([] ++ endingAt 1 9 :: []) =
      .ok (.ok (), holding) := rfl
  have early : ¬ (endingAt 1 9).stop.Lapsed (.ofUnixNanos 1808999999999) := by decide +kernel
  have cut : Instant.ofUnixNanos (endingAt 1 9).stop.toUnixNanos = (endingAt 1 9).stop := by
    decide +kernel
  have others : ∀ d ∈ [endingAt 2 5], d.secretId ≠ (endingAt 1 9).secretId ∧ d.Framable := by
    decide +kernel
  have spare : Operation.AllSpare (endingAt 1 9) sparing (endingAt 1 9).stop := by
    simp only [sparing, Operation.AllSpare, Operation.Spares, Operation.carry, cut]
    exact ⟨trivial, others, early, trivial, trivial, trivial⟩
  have filed : (create .empty (.file {}) 3).database.Filed := ⟨nofun, nofun⟩
  have framable : ∀ d ∈ [endingAt 1 9], d.Framable := by decide +kernel
  have intact : holding.database.Intact := by decide +kernel
  exact ⟨added, spare, (retained_of_run filed framable (List.forall_mem_nil _) added intact spare).1⟩

/-- The end of a certificate that a 64-bit number cannot hold, once it was stored, is long past. -/
theorem lost_after_restart : ∃ s',
    (create .empty (.memory {}) 3).addPublic [endingAt 170 9223372037] = .ok (.ok (), s') ∧
    (endingAt 170 9223372037).stop.InTime ∧ ¬ (endingAt 170 9223372037).stop.Lapsed .epoch ∧
    (Operation.afterAll [.restart 3, .removeExpired .epoch] s').database.stored.find? [170] =
      none := by
  refine ⟨_, rfl, ?_, ?_, ?_⟩
  · decide +kernel
  · decide +kernel
  · decide +kernel

end Store
end ProximityCert

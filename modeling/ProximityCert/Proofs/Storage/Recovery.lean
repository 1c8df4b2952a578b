import ProximityCert.Proofs.Storage.Retention
import ProximityCert.Proofs.Wire.Services

/-!
What a database in a file finds when it is opened: behind changes that were all written the rows it had,
and in any other content either all that framed certificates make of it to its end, or nothing.
-/

namespace ProximityCert

theorem Varint.length_of_readDigits {octets n : Nat} {bs rest : Bytes}
    (h : readDigits octets bs = some (n, rest)) : rest.length < bs.length := by
  induction octets generalizing bs n with
  | zero => cases h
  | succ octets ih =>
      cases bs with
      | nil => cases h
      | cons b bs =>
          rw [readDigits] at h
          split at h
          · cases h
            exact Nat.lt_succ_self _
          · obtain ⟨⟨m, behind⟩, later, same⟩ := Option.map_eq_some_iff.1 h
            cases same
            exact Nat.lt_succ_of_lt (ih later)

theorem Varint.length_of_read {n : Nat} {bs rest : Bytes} (h : read bs = some (n, rest)) :
    rest.length < bs.length := by
  obtain ⟨⟨m, behind⟩, digits, kept⟩ := Option.bind_eq_some_iff.1 h
  dsimp only at kept
  split at kept
  · cases kept
    exact length_of_readDigits digits
  · cases kept

theorem Field.length_of_readFramed {bs body rest : Bytes} (h : readFramed bs = some (body, rest)) :
    rest.length < bs.length := by
  obtain ⟨⟨n, behind⟩, length, h⟩ := Option.bind_eq_some_iff.1 h
  simp only [cut] at h
  split at h
  · cases h
    have dropped : (behind.drop n).length ≤ behind.length := by simp
    exact Nat.lt_of_le_of_lt dropped (Varint.length_of_read length)
  · cases h

namespace Message

variable {α : Type} [Message α] {bs rest : Bytes} {m : α} {ms : List α}

theorem length_of_decodeFramed (h : decodeFramed bs = some (m, rest)) : rest.length < bs.length := by
  obtain ⟨⟨body, behind⟩, framed, h⟩ := Option.bind_eq_some_iff.1 h
  obtain ⟨m', _, same⟩ := Option.map_eq_some_iff.1 h
  cases same
  exact Field.length_of_readFramed framed

theorem decodeListUpTo_of_readsOff (h : ReadsOff bs ms []) {fuel : Nat} (enough : bs.length ≤ fuel) :
    decodeListUpTo fuel bs = some ms := by
  induction ms generalizing bs fuel with
  | nil =>
      cases h
      cases fuel <;> rfl
  | cons m ms ih =>
      cases h with
      | @next _ behind _ _ _ first others =>
          -- every message takes an octet at least, so the octets outlast the messages
          have shorter := length_of_decodeFramed first
          cases bs with
          | nil => cases shorter
          | cons b bs =>
              obtain ⟨fuel, rfl⟩ : ∃ n, fuel = n + 1 :=
                Nat.exists_eq_succ_of_ne_zero (by rintro rfl; cases enough)
              have left : behind.length ≤ fuel :=
                Nat.le_of_lt_succ (Nat.lt_of_lt_of_le shorter enough)
              simp only [decodeListUpTo, first, ih others left, Option.map_some]

theorem readsOff_of_decodeListUpTo {fuel : Nat} (h : decodeListUpTo fuel bs = some ms) :
    ReadsOff bs ms [] := by
  induction fuel generalizing bs ms with
  | zero =>
      cases bs with
      | nil =>
          cases h
          exact .none []
      | cons b bs => cases h
  | succ fuel ih =>
      cases bs with
      | nil =>
          cases h
          exact .none []
      | cons b bs =>
          rw [decodeListUpTo] at h
          split at h
          · cases h
          · next m behind first =>
              obtain ⟨others, read, same⟩ := Option.map_eq_some_iff.1 h
              cases same
              exact .next first (ih read)

/-- A list of framed messages is read exactly if messages read off one after the other end with it. -/
theorem decodeList_eq_some_iff : decodeList bs = some ms ↔ ReadsOff bs ms [] := by
  constructor
  · exact readsOff_of_decodeListUpTo
  · intro h
    exact decodeListUpTo_of_readsOff h (Nat.le_refl _)

theorem length_encode_le_encodeList {m : α} {ms : List α} (member : m ∈ ms) :
    (encode m).length ≤ (encodeList ms).length := by
  obtain ⟨before, behind, rfl⟩ := List.append_of_mem member
  simp only [encodeList, List.flatMap_append, List.flatMap_cons, encodeFramed, Field.framed,
    List.length_append]
  omega

end Message

namespace Rows

theorem Keyed.filed {rows : Rows} (h : rows.Keyed) (short : rows.encode.length < UInt64.size) :
    rows.Filed := by
  intro id row found
  have member : row ∈ rows.values := SortedMap.mem_values_iff.2 ⟨id, found⟩
  exact ⟨h id row found, Nat.lt_of_le_of_lt (Message.length_encode_le_encodeList member) short⟩

theorem lookup_secretId (cs : List PublicCertificate) (id : Bytes) :
    List.lookup id (cs.map fun c => (c.secretId, c)) =
      cs.find? fun c => decide (c.secretId = id) := by
  induction cs with
  | nil => rfl
  | cons c cs ih =>
      rw [List.map_cons, SortedMap.lookup_cons, List.find?_cons]
      by_cases same : c.secretId = id
      · rw [if_pos same.symm, decide_eq_true same]
      · rw [if_neg (Ne.symm same), decide_eq_false same]
        exact ih

/-- Of records with the same id the last is the row. -/
theorem find?_upsert_empty (cs : List PublicCertificate) (id : Bytes) :
    (upsert .empty cs).find? id = cs.reverse.find? fun c => decide (c.secretId = id) := by
  rw [find?_upsert, ← List.map_reverse, lookup_secretId, SortedMap.find?_empty, Option.or_none]

theorem decode_eq_some_iff {content : Bytes} {rows : Rows} :
    decode content = some rows ↔ ∃ cs, Message.ReadsOff content cs [] ∧ upsert .empty cs = rows := by
  rw [decode, Option.map_eq_some_iff]
  simp only [Message.decodeList_eq_some_iff]

theorem keyed_of_decode {content : Bytes} {rows : Rows} (h : decode content = some rows) :
    rows.Keyed := by
  obtain ⟨cs, _, rfl⟩ := decode_eq_some_iff.1 h
  exact keyed_empty.upsert cs

end Rows

namespace Database

/-- What can be done to the rows of an open database. -/
inductive Change
  | add (certificates : List PublicCertificate) | remove (ids : List Bytes) | clear

namespace Change

def perform : Change → Database → Except Failure Unit × Database
  | add certificates, d => d.add certificates
  | remove ids, d => d.remove ids
  | clear, d => d.clear

/-- What a change makes of the rows. -/
def effect : Change → Rows → Rows
  | add certificates, rows => rows.upsert certificates
  | remove ids, rows => rows.removeAll ids
  | clear, _ => .empty

theorem perform_eq (change : Change) (d : Database) : change.perform d = d.update change.effect := by
  cases change with
  | add certificates => rfl
  | remove ids => rfl
  | clear => rfl

theorem keyed_effect (change : Change) {rows : Rows} (h : rows.Keyed) :
    (change.effect rows).Keyed := by
  cases change with
  | add certificates => exact h.upsert certificates
  | remove ids => exact h.removeAll ids
  | clear => exact Rows.keyed_empty

end Change

/-- Changes one after the other, all of which the database has taken. -/
inductive Taken : Database → List Change → Database → Prop
  | none (d : Database) : Taken d [] d
  | next {d d' d'' : Database} {change : Change} {changes : List Change} :
      change.perform d = (.ok (), d') → Taken d' changes d'' → Taken d (change :: changes) d''

end Database

namespace FileDatabase

/-- A database in a file with its rows, which are what opening finds there, or were written to it. -/
structure Settled (f : FileDatabase) (rows : Rows) : Prop where
  cached : f.cached = some rows
  keyed : rows.Keyed
  recorded : openUp { f with cached := none } = (.ok, f) ∨ f.slot.node = .file rows.encode

variable {f f' : FileDatabase} {rows : Rows}

theorem openUp_of_decode {content : Bytes} (node : f.slot.node = .file content)
    (decoded : Rows.decode content = some rows) : f.openUp = (.ok, { f with cached := some rows }) := by
  simp only [openUp, node, decoded]

theorem settled_openUp (opened : f.openUp.1 = .ok) : ∃ rows, f.openUp.2.Settled rows := by
  unfold openUp at opened ⊢
  split at opened
  · cases opened
  · next node => exact ⟨.empty, rfl, Rows.keyed_empty, .inl (by simp only [openUp, node])⟩
  · next node => exact ⟨.empty, rfl, Rows.keyed_empty, .inl (by simp only [openUp, node])⟩
  · next content node =>
      split at opened
      · next rows decoded =>
          exact ⟨rows, rfl, Rows.keyed_of_decode decoded, .inl (openUp_of_decode node decoded)⟩
      · cases opened

theorem Settled.perform (h : f.Settled rows) {change : Database.Change} {d : Database}
    (taken : change.perform (.file f) = (.ok (), d)) :
    ∃ f', d = .file f' ∧ f'.Settled (change.effect rows) := by
  rw [Database.Change.perform_eq] at taken
  obtain ⟨success, rfl⟩ := Prod.mk.inj taken
  have success : (f.update change.effect).1 = .ok () := success
  refine ⟨_, rfl, ?_⟩
  rcases f.update_cases change.effect with unread | ⟨old, read, ⟨e, failed⟩ | ⟨slot, node, done⟩⟩
  · rw [unread] at success
    cases success
  · rw [failed] at success
    cases success
  · obtain rfl : rows = old := Option.some.inj (h.cached.symm.trans read)
    rw [done]
    exact ⟨rfl, change.keyed_effect h.keyed, .inr node⟩

theorem Settled.taken {changes : List Database.Change} {d : Database}
    (run : Database.Taken (.file f) changes d) (h : f.Settled rows) :
    ∃ f', d = .file f' ∧ f'.Settled (changes.foldl (fun rows change => change.effect rows) rows) := by
  generalize start : Database.file f = d₀ at run
  induction run generalizing f rows with
  | none _ => exact ⟨f, start.symm, h⟩
  | next first _ ih =>
      subst start
      obtain ⟨f₁, rfl, settled⟩ := h.perform first
      exact ih settled rfl

/-- Another database on the same file, if that is no longer than a file can be, has the same rows. -/
theorem Settled.reopened (h : f.Settled rows)
    (short : ∀ content ∈ f.slot.node.content?, content.length < UInt64.size) :
    (Database.file f).reopened.openUp = (.ok, .file f) := by
  have found : openUp { f with cached := none } = (.ok, f) := by
    -- as long as nothing has been written the file need not be as it would be written
    rcases h.recorded with found | written
    · exact found
    · have fits : rows.encode.length < UInt64.size := short rows.encode (by rw [written]; rfl)
      have read := openUp_of_decode (f := { f with cached := none }) written
        (Rows.decode_encode (h.keyed.filed fits))
      rw [read, ← h.cached]
  rw [Database.reopened, Database.openUp, found]

/-- A database that was opened and has taken changes has the rows that they make of those it found, and
so has another one that is opened on its file. -/
theorem reopened_of_taken {changes : List Database.Change} (opened : f.openUp.1 = .ok)
    (run : Database.Taken (.file f.openUp.2) changes (.file f'))
    (short : ∀ content ∈ f'.slot.node.content?, content.length < UInt64.size) :
    ∃ rows, f'.cached = some rows ∧ rows.Keyed ∧
      rows = changes.foldl (fun rows change => change.effect rows) (Database.file f.openUp.2).held ∧
      (Database.file f').reopened.openUp = (.ok, .file f') := by
  obtain ⟨found, start⟩ := settled_openUp opened
  obtain ⟨f₁, same, settled⟩ := start.taken run
  obtain rfl : f' = f₁ := Database.file.inj same
  refine ⟨_, settled.cached, settled.keyed, ?_, settled.reopened short⟩
  rw [Database.held, start.cached, Option.getD_some]

end FileDatabase

namespace Store

variable {s : Store} {f : FileDatabase} {content : Bytes}

/-- A file that can be read to its end is what the store opens with; the index stays as it is. -/
theorem ensureOpen_of_decode {rows : Rows} (database : s.database = .file f)
    (node : f.slot.node = .file content) (fresh : s.openState = .uninitialized)
    (once : 1 ≤ s.maxAttempts) (decoded : Rows.decode content = some rows) :
    s.ensureOpen = (.ok (), { s with
      database := .file { f with cached := some rows }, openState := .initialized }) := by
  obtain ⟨attempts, count⟩ : ∃ n, s.maxAttempts = n + 1 :=
    Nat.exists_eq_succ_of_ne_zero (Nat.pos_iff_ne_zero.1 once)
  simp only [ensureOpen_eq, fresh, count, openWithin_succ, attemptOpen, database, Database.openUp,
    FileDatabase.openUp_of_decode node decoded]

/-- Any other file is removed, the index is emptied, and the second attempt finds no file. -/
theorem ensureOpen_of_not_decode (database : s.database = .file f)
    (node : f.slot.node = .file content) (fresh : s.openState = .uninitialized)
    (twice : 2 ≤ s.maxAttempts) (malformed : Rows.decode content = none) :
    s.ensureOpen = (.ok (), { s.setExpirations [] with
      database := .file { slot := { f.slot with node := .missing }, cached := some .empty },
      openState := .initialized }) := by
  obtain ⟨attempts, count⟩ : ∃ n, s.maxAttempts = n + 2 := Nat.exists_eq_add_of_le' twice
  have opened : f.openUp = (.corrupt, f) := by
    simp only [FileDatabase.openUp, node, malformed]
  let gone : FileSlot := { f.slot with node := .missing }
  have erased : f.destroy = (.ok (), { slot := gone, cached := none }) := by
    simp only [FileDatabase.destroy, FileSlot.remove, node, gone]
  have again : ({ slot := gone, cached := none } : FileDatabase).openUp =
      (.ok, { slot := gone, cached := some .empty }) := rfl
  simp only [ensureOpen_eq, fresh, count, openWithin_succ, attemptOpen, database, Database.openUp, opened,
    Database.destroy, erased, setExpirations, again, gone]

/-- A store opens on any file: with the rows of the certificates in it, of equal ids the last, if they are
read off to its end, and with no rows and no index otherwise. -/
theorem ensureOpen_of_content (database : s.database = .file f)
    (node : f.slot.node = .file content) (fresh : s.openState = .uninitialized)
    (twice : 2 ≤ s.maxAttempts) :
    ∃ s' rows, s.ensureOpen = (.ok (), s') ∧ s'.openState = .initialized ∧
      s'.database.held = rows ∧ s'.database.load = .ok rows.values ∧
      (∀ cs, Message.ReadsOff content cs [] →
        (∀ id, rows.find? id = cs.reverse.find? fun c => decide (c.secretId = id)) ∧
          s'.expirations = s.expirations ∧ s'.preferences = s.preferences) ∧
      ((∀ cs : List PublicCertificate, ¬ Message.ReadsOff content cs []) →
        rows = .empty ∧ s'.expirations = [] ∧ s'.reopened.expirations = []) := by
  cases decoded : Rows.decode content with
  | some rows =>
      have opened := ensureOpen_of_decode database node fresh (Nat.le_of_succ_le twice) decoded
      refine ⟨_, rows, opened, rfl, rfl, rfl, ?_, ?_⟩
      · intro cs read
        have same : Rows.upsert .empty cs = rows := Option.some.inj
          ((Rows.decode_eq_some_iff.2 ⟨cs, read, rfl⟩).symm.trans decoded)
        refine ⟨?_, rfl, rfl⟩
        intro id
        rw [← same, Rows.find?_upsert_empty]
      · intro malformed
        obtain ⟨cs, read, _⟩ := Rows.decode_eq_some_iff.1 decoded
        exact (malformed cs read).elim
  | none =>
      have opened := ensureOpen_of_not_decode database node fresh twice decoded
      refine ⟨_, .empty, opened, rfl, rfl, rfl, ?_, ?_⟩
      · intro cs read
        cases decoded.symm.trans (Rows.decode_eq_some_iff.2 ⟨cs, read, rfl⟩)
      · intro _
        refine ⟨rfl, rfl, ?_⟩
        show Expirations.ofJson ((s.preferences.insert expirationsKey
          (Expirations.toJson [])).find? expirationsKey) = []
        rw [SortedMap.find?_insert, if_pos rfl]
        rfl

/-- A file gives back what was written to it, and whatever else stands in it is read whole or not at
all. -/
theorem file_recovery :
    (∀ {f f' : FileDatabase} {changes : List Database.Change}, f.openUp.1 = .ok →
      Database.Taken (.file f.openUp.2) changes (.file f') →
      (∀ content ∈ f'.slot.node.content?, content.length < UInt64.size) →
      ∃ rows, f'.cached = some rows ∧ rows.Keyed ∧
        rows = changes.foldl (fun rows change => change.effect rows) (Database.file f.openUp.2).held ∧
        (Database.file f').reopened.openUp = (.ok, .file f')) ∧
    ∀ {s : Store} {f : FileDatabase} {content : Bytes}, s.database = .file f →
      f.slot.node = .file content → s.openState = .uninitialized → 2 ≤ s.maxAttempts →
      ∃ s' rows, s.ensureOpen = (.ok (), s') ∧ s'.openState = .initialized ∧
        s'.database.held = rows ∧ s'.database.load = .ok rows.values ∧
        (∀ cs, Message.ReadsOff content cs [] →
          (∀ id, rows.find? id = cs.reverse.find? fun c => decide (c.secretId = id)) ∧
            s'.expirations = s.expirations ∧ s'.preferences = s.preferences) ∧
        ((∀ cs : List PublicCertificate, ¬ Message.ReadsOff content cs []) →
          rows = .empty ∧ s'.expirations = [] ∧ s'.reopened.expirations = []) :=
  ⟨FileDatabase.reopened_of_taken, ensureOpen_of_content⟩

/-- Certificates of which two have the same id. -/
def repeating : List PublicCertificate := [endingAt 1 9, endingAt 2 5, endingAt 1 (-3)]

/-- A file of one certificate, which has been read. -/
def rewritten : FileDatabase where
  slot := { node := .file (Message.encodeList [endingAt 1 (-3)]) }
  cached := some (Rows.upsert .empty [endingAt 1 (-3)])

/-- Changes to an absent file, and a file that no message stands in. -/
theorem file_recovery_torn :
    (Database.Taken (.file (FileDatabase.openUp {}).2) [.add repeating, .remove [[2]]]
        (.file rewritten) ∧
      (Database.file rewritten).reopened.openUp = (.ok, .file rewritten)) ∧
    ∃ s', (create .empty (.file { slot := { node := .file [255, 255, 255] } }) 2).ensureOpen =
        (.ok (), s') ∧ s'.database.held = .empty ∧ s'.expirations = [] := by
  constructor
  · have added : Database.Change.perform (.add repeating) (.file (FileDatabase.openUp {}).2) =
        (.ok (), ((Database.file (FileDatabase.openUp {}).2).add repeating).2) := rfl
    have run : Database.Taken (.file (FileDatabase.openUp {}).2) [.add repeating, .remove [[2]]]
        (.file rewritten) := .next added (.next rfl (.none _))
    obtain ⟨rows, _, _, _, found⟩ := file_recovery.1 rfl run (by decide +kernel)
    exact ⟨run, found⟩
  · obtain ⟨s', rows, opened, _, held, _, _, malformed⟩ := file_recovery.2
      (s := create .empty (.file { slot := { node := .file [255, 255, 255] } }) 2)
      rfl rfl rfl (by decide)
    have torn : Message.decodeList (α := PublicCertificate) [255, 255, 255] = none := by
      decide +kernel
    obtain ⟨empty, index, _⟩ := malformed fun cs read => by
      cases torn.symm.trans (Message.decodeList_eq_some_iff.2 read)
    exact ⟨s', opened, held.trans empty, index⟩

end Store
end ProximityCert

import ProximityCert.Proofs.Storage.Recovery

/-!
What is left of edits that a file does not take. The file, the index and the stored index stay as they
were, but the rows that have been read are edited all the same: they are given out so, and the next edit
that the file takes is written together with all that it has refused before.
-/

namespace ProximityCert

/-- Nothing can be put into place here: no temporary file can stand beside it, or no file in it. -/
def FileSlot.Refuses (slot : FileSlot) : Prop := (slot.node.takesFile && slot.writable) = false

instance (slot : FileSlot) : Decidable slot.Refuses := inferInstanceAs (Decidable (_ = false))

/-- A file that was put into place can be replaced. -/
theorem FileSlot.not_refuses_file {slot : FileSlot} (takes : ¬ slot.Refuses) (content : Bytes) :
    ¬ Refuses { slot with node := .file content } := by
  have writable : slot.writable = true := (Bool.and_eq_true_iff.1 (Bool.of_not_eq_false takes)).2
  intro refuses
  cases writable.symm.trans refuses

theorem Rows.Keyed.eq_of_values {rows rows' : Rows} (h : rows.Keyed) (h' : rows'.Keyed)
    (same : rows.values = rows'.values) : rows = rows' := by
  rw [← h.upsert_values, ← h'.upsert_values, same]

namespace FileDatabase

variable {f : FileDatabase} {rows : Rows}

theorem perform_of_refuses (read : f.cached = some rows) (refuses : f.slot.Refuses)
    (change : Database.Change) :
    change.perform (.file f) =
      (.error FileSlot.fault, .file { f with cached := some (change.effect rows) }) := by
  have refused : f.slot.replace (change.effect rows).encode = .error FileSlot.fault := by
    rw [FileSlot.replace, refuses, if_neg Bool.false_ne_true]
  rw [Database.Change.perform_eq]
  simp only [Database.update, update, read, refused]

theorem update_of_not_refuses (read : f.cached = some rows) (takes : ¬ f.slot.Refuses)
    (change : Rows → Rows) :
    f.update change = (.ok (), {
      slot := { f.slot with node := .file (change rows).encode }, cached := some (change rows) }) := by
  have taken : f.slot.replace (change rows).encode =
      .ok { f.slot with node := .file (change rows).encode } := by
    rw [FileSlot.replace, if_pos (Bool.of_not_eq_false takes)]
  simp only [update, read, taken]

theorem perform_of_not_refuses (read : f.cached = some rows) (takes : ¬ f.slot.Refuses)
    (change : Database.Change) :
    change.perform (.file f) = (.ok (), .file {
      slot := { f.slot with node := .file (change.effect rows).encode },
      cached := some (change.effect rows) }) := by
  rw [Database.Change.perform_eq, Database.update, update_of_not_refuses read takes]

end FileDatabase

namespace Store

/-- The operations that change public certificates row by row. -/
inductive Edit
  | add (certificates : List PublicCertificate) | removeExpired (now : Instant) | clear

namespace Edit

def perform : Edit → Store → Except ClockFault (Except Failure Unit × Store)
  | add certificates, s => s.addPublic certificates
  | removeExpired now, s => s.removeExpiredPublic now
  | clear, s => .ok s.clearPublic

/-- What an edit means by some index: a change of the rows and the index behind it, or nothing. -/
def plan : Edit → Expirations → Except ClockFault (Option (Database.Change × Expirations))
  | add certificates, index => do
    let new ← Expirations.ofCertificates certificates
    return some (.add certificates, index.merge new)
  | removeExpired now, index => do
    let ids := (← index.takeExpired now).map (·.1)
    return if ids.isEmpty then none else some (.remove ids, index.filter fun e => !ids.contains e.1)
  | clear, _ => return some (.clear, [])

/-- What an edit makes of the rows by some index. -/
def effect (edit : Edit) (index : Expirations) (rows : Rows) : Rows :=
  match edit.plan index with
  | .ok (some (change, _)) => change.effect rows
  | _ => rows

/-- The store behind an edit; one that the clock has ended leaves what it found. -/
def after (edit : Edit) (s : Store) : Store :=
  match edit.perform s with
  | .ok (_, s) => s
  | .error _ => s

end Edit

/-- Changes the rows, and sets the index if the database has taken that. -/
def carryOut (s : Store) (change : Database.Change) (index : Expirations) :
    Except Failure Unit × Store :=
  match change.perform s.database with
  | (.error f, database) => (.error f, { s with database })
  | (.ok (), database) => (.ok (), ({ s with database }).setExpirations index)

variable {s s' : Store} {rows : Rows}

/-- In an open store every edit carries out its plan. -/
theorem Edit.perform_eq (edit : Edit) (opened : s.openState = .initialized) :
    edit.perform s = (edit.plan s.expirations).map fun
      | none => (.ok (), s)
      | some (change, index) => s.carryOut change index := by
  have stays : s.ensureOpen = (.ok (), s) := by simp only [ensureOpen_eq, opened]
  cases edit with
  | add certificates =>
      simp only [perform, addPublic, stays, plan]
      cases Expirations.ofCertificates certificates with
      | error fault => rfl
      | ok new =>
          simp only [Except.bind, bind, pure, Except.pure, Except.map, carryOut,
            Database.Change.perform]
          rcases s.database.add certificates with ⟨_ | _, database⟩
          · rfl
          · rfl
  | removeExpired now =>
      simp only [perform, removeExpiredPublic, stays, plan]
      cases s.expirations.takeExpired now with
      | error fault => rfl
      | ok expired =>
          simp only [Except.bind, bind, pure, Except.pure, Except.map]
          by_cases nothing : (expired.map (·.1)).isEmpty = true
          · rw [if_pos nothing, if_pos nothing]
          · rw [if_neg nothing, if_neg nothing]
            simp only [carryOut, Database.Change.perform]
            generalize s.database.remove _ = removed
            rcases removed with ⟨_ | _, database⟩
            · rfl
            · rfl
  | clear =>
      rcases cleared : s.database.clear with ⟨_ | _, database⟩
      all_goals simp only [perform, clearPublic, stays, plan, pure, Except.pure, Except.map,
        carryOut, Database.Change.perform, cleared]

/-- A store that is open on a file, with the rows that it has read. -/
structure OpenOn (s : Store) (rows : Rows) : Prop where
  opened : s.openState = .initialized
  keyed : rows.Keyed
  database : ∃ slot, s.database = .file { slot, cached := some rows }

theorem onFile_opening : KeptByOpening fun s => ∃ f, s.database = .file f where
  verdict _ h := h
  attempt h := by
    obtain ⟨f, file⟩ := h
    exact ⟨f.openUp.2, by rw [file, Database.openUp]⟩
  stuck h _ gone := by
    obtain ⟨f, file⟩ := h
    rw [file] at gone
    exact ⟨f.openUp.2.destroy.2, (congrArg Prod.snd gone).symm⟩
  erased h _ gone := by
    obtain ⟨f, file⟩ := h
    rw [file] at gone
    exact ⟨f.openUp.2.destroy.2, (congrArg Prod.snd gone).symm⟩

/-- A store over a file is open on rows once it has been opened. -/
theorem openOn_of_openWithin {attempts : Nat} {f : FileDatabase} (file : s.database = .file f)
    (h : openWithin attempts s = (.ok (), s')) : ∃ rows, s'.OpenOn rows := by
  obtain ⟨before, database, ⟨g, kept⟩, found, rfl⟩ := onFile_opening.opened ⟨f, file⟩ h
  rw [kept, Database.openUp] at found
  obtain ⟨opened, rfl⟩ := Prod.mk.inj found
  obtain ⟨rows, settled⟩ := FileDatabase.settled_openUp opened
  exact ⟨rows, rfl, settled.keyed, g.openUp.2.slot, by rw [← settled.cached]⟩

/-- Edits none of which the file takes, as often as rows are read in between and whatever becomes of the
file's place from outside. -/
inductive Refused : Store → List Edit → Store → Prop
  | none (s : Store) : Refused s [] s
  | edit {s s' : Store} {slot : FileSlot} {cached : Option Rows} {edit : Edit} {edits : List Edit} :
      s.database = .file { slot, cached } → slot.Refuses → Refused (edit.after s) edits s' →
      Refused s (edit :: edits) s'
  | read {s s' : Store} {edits : List Edit} : Refused s.getPublic.2 edits s' → Refused s edits s'
  | moved {s s' : Store} {slot : FileSlot} {cached : Option Rows} {edits : List Edit}
      (slot' : FileSlot) : s.database = .file { slot, cached } →
      Refused { s with database := .file { slot := slot', cached } } edits s' → Refused s edits s'

theorem Edit.keyed_effect (edit : Edit) (index : Expirations) (h : rows.Keyed) :
    (edit.effect index rows).Keyed := by
  unfold effect
  split
  · next change _ _ => exact change.keyed_effect h
  · exact h

namespace OpenOn

variable {slot : FileSlot} {cached : Option Rows} {edit : Edit} {change : Database.Change}
    {index : Expirations}

theorem getPublic_eq (h : s.OpenOn rows) : s.getPublic = (.ok rows.values, s) := by
  obtain ⟨slot, database⟩ := h.database
  simp only [getPublic, ensureOpen_eq, h.opened, database, Database.load, FileDatabase.load]

theorem carryOut_of_refuses (database : s.database = .file { slot, cached := some rows })
    (refuses : slot.Refuses) :
    s.carryOut change index = (.error FileSlot.fault,
      { s with database := .file { slot, cached := some (change.effect rows) } }) := by
  rw [carryOut, database, FileDatabase.perform_of_refuses rfl refuses]

theorem carryOut_of_not_refuses (database : s.database = .file { slot, cached := some rows })
    (takes : ¬ slot.Refuses) :
    s.carryOut change index = (.ok (), ({ s with database := .file {
      slot := { slot with node := .file (change.effect rows).encode },
      cached := some (change.effect rows) } } : Store).setExpirations index) := by
  rw [carryOut, database, FileDatabase.perform_of_not_refuses rfl takes]

/-- Whatever an edit was to do, it does to the rows that have been read, and to nothing else. -/
theorem after_of_refuses (h : s.OpenOn rows)
    (database : s.database = .file { slot, cached := some rows }) (refuses : slot.Refuses) :
    edit.after s =
      { s with database := .file { slot, cached := some (edit.effect s.expirations rows) } } := by
  rw [Edit.after, edit.perform_eq h.opened, Edit.effect]
  cases edit.plan s.expirations with
  | error fault => simp only [Except.map, ← database]
  | ok plan =>
      cases plan with
      | none => simp only [Except.map, ← database]
      | some p =>
          obtain ⟨change, index⟩ := p
          simp only [Except.map, carryOut_of_refuses database refuses]

/-- The rows that are given out are edited alike whether the file takes the edit or not. -/
theorem after (h : s.OpenOn rows) (edit : Edit) :
    (edit.after s).OpenOn (edit.effect s.expirations rows) := by
  obtain ⟨slot, database⟩ := h.database
  have keyed := edit.keyed_effect s.expirations h.keyed
  by_cases refuses : slot.Refuses
  · rw [h.after_of_refuses database refuses]
    exact ⟨h.opened, keyed, slot, rfl⟩
  · -- an edit that is taken sets the index as well, which the rows do not depend on
    unfold Edit.effect at keyed ⊢
    rw [Edit.after, edit.perform_eq h.opened]
    cases plan : edit.plan s.expirations with
    | error fault => exact h
    | ok planned =>
        rw [plan] at keyed
        cases planned with
        | none => exact h
        | some p =>
            simp only [Except.map, carryOut_of_not_refuses database refuses]
            exact ⟨h.opened, keyed, _, rfl⟩

end OpenOn

theorem Refused.openOn {edits : List Edit} (run : Refused s edits s') (h : s.OpenOn rows) :
    s'.OpenOn (edits.foldl (fun rows edit => edit.effect s.expirations rows) rows) ∧
      s'.expirations = s.expirations ∧ s'.preferences = s.preferences := by
  -- the index by which an edit is planned stays the first, since none is ever set
  induction run generalizing rows with
  | none s => exact ⟨h, rfl, rfl⟩
  | @edit s s' slot cached edit edits place refuses _ ih =>
      obtain ⟨slot', database⟩ := h.database
      obtain ⟨rfl, rfl⟩ := FileDatabase.mk.inj (Database.file.inj (place.symm.trans database))
      rw [h.after_of_refuses database refuses] at ih
      exact ih ⟨h.opened, edit.keyed_effect s.expirations h.keyed, slot, rfl⟩
  | read _ ih =>
      rw [h.getPublic_eq] at ih
      exact ih h
  | moved slot' place _ ih =>
      obtain ⟨slot, database⟩ := h.database
      obtain ⟨rfl, rfl⟩ := FileDatabase.mk.inj (Database.file.inj (place.symm.trans database))
      exact ih ⟨h.opened, h.keyed, slot', rfl⟩

/-- What was refused has been done to the rows that are given out, which are as before only if it makes
nothing of them; the index, the stored index and, but from outside, the file are as before. A further edit
fails and does the same while the file refuses it; the first that is taken writes everything. -/
theorem refused_edits {edits : List Edit} (h : s.OpenOn rows) (run : Refused s edits s') :
    ∃ rows' slot, rows' = edits.foldl (fun rows edit => edit.effect s.expirations rows) rows ∧
      s'.database = .file { slot, cached := some rows' } ∧
      s'.getPublic = (.ok rows'.values, s') ∧
      (s'.getPublic.1 = s.getPublic.1 ↔ rows' = rows) ∧
      s'.expirations = s.expirations ∧ s'.preferences = s.preferences ∧
      ∀ edit change index, Edit.plan edit s.expirations = .ok (some (change, index)) →
        (slot.Refuses → edit.perform s' = .ok (.error FileSlot.fault,
          { s' with database := .file { slot, cached := some (change.effect rows') } })) ∧
        (¬ slot.Refuses → edit.perform s' = .ok (.ok (), ({ s' with database := .file {
          slot := { slot with node := .file (change.effect rows').encode },
          cached := some (change.effect rows') } } : Store).setExpirations index)) := by
  obtain ⟨h', sameIndex, samePreferences⟩ := run.openOn h
  obtain ⟨slot, database⟩ := h'.database
  refine ⟨_, slot, rfl, database, h'.getPublic_eq, ?_, sameIndex, samePreferences, ?_⟩
  · rw [h'.getPublic_eq, h.getPublic_eq]
    constructor
    · intro same
      exact h'.keyed.eq_of_values h.keyed (Except.ok.inj same)
    · intro same
      rw [same]
  · intro edit change index plan
    have performed : edit.perform s' = .ok (s'.carryOut change index) := by
      rw [edit.perform_eq h'.opened, sameIndex, plan]
      rfl
    rw [performed]
    constructor
    · intro refuses
      rw [OpenOn.carryOut_of_refuses database refuses]
    · intro takes
      rw [OpenOn.carryOut_of_not_refuses database takes]

/-- A store that has been opened on an absent file, the place of which a folder has taken since. -/
def obstructed : Store :=
  { (create .empty (.file {}) 3).ensureOpen.2 with
    database := .file { slot := { node := .directory }, cached := some .empty } }

theorem refused_edits_obstructed :
    obstructed.OpenOn .empty ∧
    ∃ s', Refused obstructed [.add [endingAt 1 9, endingAt 2 5], .clear, .add [endingAt 3 7]] s' ∧
      s'.getPublic = (.ok [endingAt 3 7], s') ∧ s'.expirations = [] := by
  have opened : obstructed.OpenOn .empty := ⟨rfl, Rows.keyed_empty, _, rfl⟩
  have refuses : FileSlot.Refuses { node := .directory } := by decide
  have run : Refused obstructed [.add [endingAt 1 9, endingAt 2 5], .clear, .add [endingAt 3 7]] _ :=
    .edit rfl refuses (.read (.edit rfl refuses (.edit rfl refuses (.none _))))
  obtain ⟨rows', slot, same, _, given, _, index, _⟩ := refused_edits opened run
  refine ⟨opened, _, run, ?_, index⟩
  rw [given, same]
  rfl

/-- A certificate whose addition failed is given out, and the index does not know it. -/
theorem unindexed_after_refusal : ∃ s',
    obstructed.addPublic [endingAt 170 9] = .ok (.error FileSlot.fault, s') ∧
    obstructed.getPublic.1 = .ok [] ∧
    s'.getPublic.1 = .ok [endingAt 170 9] ∧ s'.publicIds = [] := by
  refine ⟨_, rfl, rfl, rfl, rfl⟩

end Store
end ProximityCert

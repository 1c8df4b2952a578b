import ProximityCert.Proofs.Storage.Batches

/-!
What a clean-up removes. It goes by the index alone: of the rows that opening finds, those go whose ids
the index shows to have lapsed, and no others. So it leaves no lapsed row exactly if the index has all of
them as lapsed, and a row that the index does not have stays however often the store is cleaned up.
-/

namespace ProximityCert

namespace Expirations

variable {es expired : Expirations} {now : Instant}

/-- The ids that an index shows to have lapsed. -/
def lapsed (now : Instant) (es : Expirations) : List Bytes :=
  (es.filter fun e => decide (e.2.Lapsed now)).map Prod.fst

theorem mem_lapsed_iff {id : Bytes} :
    id ∈ es.lapsed now ↔ ∃ t, (id, t) ∈ es ∧ t.Lapsed now := by
  rw [lapsed, List.mem_map]
  constructor
  · rintro ⟨e, member, rfl⟩
    obtain ⟨inside, past⟩ := List.mem_filter.1 member
    exact ⟨e.2, inside, of_decide_eq_true past⟩
  · rintro ⟨t, inside, past⟩
    exact ⟨(id, t), List.mem_filter.2 ⟨inside, decide_eq_true past⟩, rfl⟩

/-- What is stored in the place of an index is no object, or one with a member that is no entry. -/
def Damaged (stored : Option Json) : Prop :=
  ∀ members, stored = some (.obj members) → ∃ m ∈ members, entryOf? m = none

theorem ofJson_of_damaged {stored : Option Json} (damaged : Damaged stored) : ofJson stored = [] := by
  unfold ofJson
  split
  · next members =>
      rw [mapM_eq_none (damaged members rfl)]
      rfl
  · rfl

/-- Any other index is read with the entries of all its members. -/
theorem mem_ofJson_iff {members : List (String × Json)}
    (whole : ∀ m ∈ members, (entryOf? m).isSome = true) {e : Bytes × Instant} :
    e ∈ ofJson (some (.obj members)) ↔ ∃ m ∈ members, entryOf? m = some e := by
  have read (m : String × Json) (member : m ∈ members) :
      entryOf? m = some ((entryOf? m).getD default) := by
    obtain ⟨x, same⟩ := Option.isSome_iff_exists.1 (whole m member)
    rw [same]
    rfl
  rw [ofJson, mapM_eq_some read]
  show e ∈ sort (members.map fun m => (entryOf? m).getD default) ↔ _
  rw [(sort_perm _).mem_iff, List.mem_map]
  constructor
  · rintro ⟨m, member, rfl⟩
    exact ⟨m, member, read m member⟩
  · rintro ⟨m, member, same⟩
    refine ⟨m, member, ?_⟩
    rw [same]
    rfl

end Expirations

/-- Without some ids no lapsed row is left exactly if they are those of all lapsed rows. -/
theorem Rows.no_lapsed_removeAll_iff {rows : Rows} {ids : List Bytes} {now : Instant} :
    (∀ id row, (rows.removeAll ids).find? id = some row → ¬ row.stop.Lapsed now) ↔
      ∀ id row, rows.find? id = some row → row.stop.Lapsed now → id ∈ ids := by
  simp only [find?_removeAll]
  constructor
  · intro clean id row found past
    refine Decidable.byContradiction fun spared => clean id row ?_ past
    rwa [if_neg spared]
  · intro named id row found past
    split at found
    · cases found
    · next spared => exact spared (named id row found past)

/-- An open database gives the rows that opening has found. -/
theorem Database.held_openUp {d : Database} (opened : d.openUp.1 = .ok) :
    d.openUp.2.held = d.openUp.2.stored := by
  cases d with
  | memory m => rfl
  | file f =>
      have opened : f.openUp.1 = .ok := opened
      show f.openUp.2.cached.getD .empty = (file f.openUp.2).stored
      unfold FileDatabase.openUp at opened ⊢
      split at opened
      · cases opened
      · next node =>
          simp only [stored, node, FileNode.content?]
          rfl
      · next node =>
          simp only [stored, node, FileNode.content?]
          rfl
      · next content node =>
          split at opened
          · next rows decoded =>
              simp only [stored, node, FileNode.content?, Option.bind_some, decoded]
          · cases opened

namespace Store

variable {s s₀ s' : Store} {now : Instant} {r : Except Failure Unit}

/-- A store whose data opening has left alone. -/
structure Untouched (s s' : Store) : Prop where
  intact : s'.database.Intact
  stored : s'.database.stored = s.database.stored
  expirations : s'.expirations = s.expirations
  preferences : s'.preferences = s.preferences

theorem Untouched.opening (s : Store) : KeptByOpening (Untouched s) where
  verdict _ h := ⟨h.intact, h.stored, h.expirations, h.preferences⟩
  attempt h := by
    obtain ⟨_, intact, stored⟩ := h.intact.openUp
    exact ⟨intact, stored.trans h.stored, h.expirations, h.preferences⟩
  stuck h corrupt _ := absurd corrupt h.intact.openUp.1
  erased h corrupt _ := absurd corrupt h.intact.openUp.1

theorem untouched_ensureOpen (intact : s.database.Intact) : s.Untouched s.ensureOpen.2 :=
  (Untouched.opening s).ensureOpen ⟨intact, rfl, rfl, rfl⟩

theorem held_of_openWithin {attempts : Nat} (opens : openWithin attempts s = (.ok (), s₀)) :
    s₀.database.held = s₀.database.stored := by
  obtain ⟨before, database, found, rfl⟩ := opened_of_openWithin opens
  have given := Database.held_openUp (congrArg Prod.fst found)
  rw [found] at given
  exact given

/-- A clean-up carries out the removal of what the index shows to have lapsed, if anything has. -/
theorem removeExpiredPublic_eq (opens : s.ensureOpen = (.ok (), s₀))
    (sorted : s₀.expirations.Sorted) (ends : Completes (s.removeExpiredPublic now)) :
    s.removeExpiredPublic now = .ok
      (if (s₀.expirations.lapsed now).isEmpty then (.ok (), s₀)
      else s₀.carryOut (.remove (s₀.expirations.lapsed now))
        (s₀.expirations.filter fun e => !(s₀.expirations.lapsed now).contains e.1)) := by
  have inTime := completes_removeExpiredPublic.1 ends
  rw [opens] at inTime
  obtain ⟨expired, taken⟩ := Expirations.completes_takeExpired.2 (inTime rfl)
  refine ((Edit.removeExpired now).perform_of_opens opens).trans ?_
  rw [Edit.plan, taken, sorted.eq_of_takeExpired taken]
  show (Except.ok (if (s₀.expirations.lapsed now).isEmpty then none else some (_, _))).map _ = _
  by_cases nothing : (s₀.expirations.lapsed now).isEmpty = true
  · rw [if_pos nothing, if_pos nothing]
    rfl
  · rw [if_neg nothing, if_neg nothing]
    rfl

theorem index_opening (s₀ : Store) :
    KeptByOpening fun s => s.expirations = s₀.expirations ∨ s.expirations = [] where
  verdict _ h := h
  attempt h := h
  stuck h _ _ := h
  erased _ _ _ := .inr rfl

/-- A store that is opened keeps its index, or loses it to an erased database. -/
theorem expirations_ensureOpen (s : Store) :
    s.ensureOpen.2.expirations = s.expirations ∨ s.ensureOpen.2.expirations = [] :=
  (index_opening s).ensureOpen (.inl rfl)

theorem mem_of_mem_ensureOpen {e : Bytes × Instant} (member : e ∈ s.ensureOpen.2.expirations) :
    e ∈ s.expirations := by
  rcases s.expirations_ensureOpen with same | erased
  · exact same ▸ member
  · rw [erased] at member
    exact (List.not_mem_nil member).elim

theorem sorted_ensureOpen (sorted : s.expirations.Sorted) : s.ensureOpen.2.expirations.Sorted := by
  rcases s.expirations_ensureOpen with same | erased
  · exact same ▸ sorted
  · rw [erased]
    exact List.Pairwise.nil

/-- How a clean-up of an open store ends. It takes out all that has lapsed by the index, or nothing; a
database that works lets it. -/
structure Swept (s : Store) (now : Instant) (r : Except Failure Unit) (s' : Store) : Prop where
  held : r = .ok () → s'.database.held = s.database.held.removeAll (s.expirations.lapsed now)
  expirations : r = .ok () → s'.expirations =
    s.expirations.filter fun e => !(s.expirations.lapsed now).contains e.1
  refused : r ≠ .ok () → s'.expirations = s.expirations ∧ s'.preferences = s.preferences ∧
    ∃ f, s.database.remove (s.expirations.lapsed now) = (.error f, s'.database)
  openState : s'.openState = s.openState
  works : s.database.Works → r = .ok ()

theorem swept_of_nothing (nothing : s.expirations.lapsed now = []) : s.Swept now (.ok ()) s where
  held _ := by
    rw [nothing]
    rfl
  expirations _ := by
    rw [nothing]
    exact (List.filter_eq_self.2 fun _ _ => rfl).symm
  refused failed := absurd rfl failed
  openState := rfl
  works _ := rfl

theorem swept_of_carryOut (done : s.carryOut (.remove (s.expirations.lapsed now))
    (s.expirations.filter fun e => !(s.expirations.lapsed now).contains e.1) = (r, s')) :
    s.Swept now r s' := by
  have works (working : s.database.Works) : r = .ok () := by
    rw [carryOut_of_works working] at done
    exact (congrArg Prod.fst done).symm
  rw [carryOut, Database.Change.perform_eq] at done
  split at done
  · next f database updated =>
      cases done
      have failed : (.error f : Except Failure Unit) ≠ .ok () := by
        intro done
        cases done
      exact ⟨fun done => absurd done failed, fun done => absurd done failed,
        fun _ => ⟨rfl, rfl, f, updated⟩, rfl, works⟩
  · next updated =>
      have held := Database.held_of_update (congrArg Prod.fst updated)
      rw [updated] at held
      cases done
      exact ⟨fun _ => held, fun _ => rfl, fun failed => absurd rfl failed, rfl, works⟩

/-- A clean-up sweeps the store that opening leaves, or fails with it. -/
theorem swept_of_removeExpiredPublic (sorted : s.expirations.Sorted)
    (h : s.removeExpiredPublic now = .ok (r, s')) :
    (s.ensureOpen.1 = .ok () ∧ s.ensureOpen.2.Swept now r s') ∨
      (s.ensureOpen.1 ≠ .ok () ∧ r ≠ .ok () ∧ s' = s.ensureOpen.2) := by
  have sorted := sorted_ensureOpen sorted
  rcases opens : s.ensureOpen with ⟨_ | _, s₀⟩
  · rw [removeExpiredPublic, opens] at h
    cases h
    refine .inr ⟨?_, ?_, rfl⟩
    · intro done
      cases done
    · intro done
      cases done
  · rw [opens] at sorted
    rw [removeExpiredPublic_eq opens sorted ⟨_, h⟩] at h
    refine .inl ⟨rfl, ?_⟩
    by_cases nothing : (s₀.expirations.lapsed now).isEmpty = true
    · rw [if_pos nothing] at h
      cases h
      exact swept_of_nothing (List.isEmpty_iff.1 nothing)
    · rw [if_neg nothing] at h
      exact swept_of_carryOut (Except.ok.inj h)

/-- A clean-up that succeeds leaves no entry that has lapsed, nor the row of one. -/
theorem cleaned (sorted : s.expirations.Sorted)
    (done : s.removeExpiredPublic now = .ok (.ok (), s')) :
    (∀ e ∈ s'.expirations, e ∈ s.expirations ∧ ¬ e.2.Lapsed now) ∧
      ∀ e ∈ s.ensureOpen.2.expirations, e.2.Lapsed now →
        s'.database.held.find? e.1 = none := by
  rcases swept_of_removeExpiredPublic sorted done with ⟨_, swept⟩ | ⟨_, failed, _⟩
  · constructor
    · intro e member
      rw [swept.expirations rfl] at member
      obtain ⟨inside, spared⟩ := List.mem_filter.1 member
      refine ⟨mem_of_mem_ensureOpen inside, fun past => ?_⟩
      have named : e.1 ∈ s.ensureOpen.2.expirations.lapsed now :=
        Expirations.mem_lapsed_iff.2 ⟨e.2, inside, past⟩
      simp [named] at spared
    · intro e inside past
      rw [swept.held rfl, Rows.find?_removeAll,
        if_pos (Expirations.mem_lapsed_iff.2 ⟨e.2, inside, past⟩)]
  · exact (failed rfl).elim

/-- Of its data, a new store that is cleaned up leaves the rows that its index spares. -/
theorem held_of_cleaned {preferences : Preferences} {d : Database} {maxAttempts : Nat}
    (created : s = create preferences d maxAttempts) (intact : d.Intact)
    (done : s.removeExpiredPublic now = .ok (.ok (), s')) :
    s'.database.held = d.stored.removeAll (s.expirations.lapsed now) := by
  subst created
  have untouched := untouched_ensureOpen (s := create preferences d maxAttempts) intact
  rcases swept_of_removeExpiredPublic (Expirations.sorted_ofJson _) done with
    ⟨opened, swept⟩ | ⟨_, failed, _⟩
  · have found := held_of_openWithin (Prod.ext opened rfl)
    rw [swept.held rfl, untouched.expirations]
    exact congrArg (Rows.removeAll · _) (found.trans untouched.stored)
  · exact (failed rfl).elim

/-- A store has a certificate's row, and neither its index nor the stored one has its id. -/
structure Orphaned (c : PublicCertificate) (s : Store) : Prop where
  row : Keeps c s.database
  index : ∀ e ∈ s.expirations, e.1 ≠ c.secretId
  stored : ∀ e ∈ Expirations.ofJson (s.preferences.find? expirationsKey), e.1 ≠ c.secretId

variable {c : PublicCertificate}

/-- An index without an id has it with any end. -/
theorem orphaned_iff : Orphaned c s ↔ ∀ t, Retains c t s := by
  constructor
  · intro h t
    exact ⟨h.row, fun e member own => absurd own (h.index e member),
      fun e member own => absurd own (h.stored e member)⟩
  · intro h
    have first := h .epoch
    have second := h (.ofUnixNanos 1)
    refine ⟨first.row, ?_, ?_⟩
    · intro e member own
      exact absurd ((first.index e member own).symm.trans (second.index e member own)) (by decide)
    · intro e member own
      exact absurd ((first.stored e member own).symm.trans (second.stored e member own)) (by decide)

namespace Operation

theorem orphaned_after {op : Operation} (h : Orphaned c s) (spares : ∃ t, op.Spares c t) :
    Orphaned c (op.after s) := by
  have retains := orphaned_iff.1 h
  have after (t : Instant) (spares : op.Spares c t) : Retains c (op.carry t) (op.after s) :=
    retains_after (retains t) spares
  obtain ⟨_, spares⟩ := spares
  cases op with
  | add certificates => exact orphaned_iff.2 fun t => after t spares
  | removeExpired now =>
      have opened : Orphaned c s.ensureOpen.2 := orphaned_iff.2 fun t => (retains t).ensureOpen
      refine orphaned_iff.2 fun t => retains_after_removeExpired (retains t) ?_
      exact fun e member own => absurd own (opened.index e member)
  | clear => exact spares.elim
  | get => exact orphaned_iff.2 fun t => after t trivial
  | restart maxAttempts => exact ⟨h.row.reopened, h.stored, h.stored⟩
  | arrange openScript failOperations failDestroy =>
      exact orphaned_iff.2 fun t => after t spares

theorem orphaned_afterAll {ops : List Operation} (h : Orphaned c s)
    (spare : ∀ op ∈ ops, ∃ t, op.Spares c t) : Orphaned c (afterAll ops s) := by
  induction ops generalizing s with
  | nil => exact h
  | cons op ops ih =>
      rw [List.forall_mem_cons] at spare
      exact ih (orphaned_after h spare.1) spare.2

end Operation

/-- The first clean-up of a store on an intact database, whatever stands in the place of its index. It
removes the rows of the ids that the index shows to have lapsed and no others, so it leaves no lapsed row
exactly if these are the ids of all lapsed rows. A damaged index is empty. A row that is not in the index
stays through every run of operations that neither add its id nor clear the rows, clean-ups at any time
and new stores included. -/
theorem cleaned_by_stored_index {preferences : Preferences} {d : Database} {maxAttempts : Nat}
    (created : s = create preferences d maxAttempts) (intact : d.Intact) (now : Instant) :
    ∃ r s', s.removeExpiredPublic now = .ok (r, s') ∧
      (s.ensureOpen.1 = .ok () → s.ensureOpen.2.database.Works → r = .ok ()) ∧
      (r = .ok () → ∀ id, s'.database.held.find? id =
        if id ∈ s.expirations.lapsed now then none else d.stored.find? id) ∧
      (r = .ok () → ((∀ id row, s'.database.held.find? id = some row → ¬ row.stop.Lapsed now) ↔
        ∀ id row, d.stored.find? id = some row → row.stop.Lapsed now →
          id ∈ s.expirations.lapsed now)) ∧
      (Expirations.Damaged (preferences.find? expirationsKey) →
        s.expirations = [] ∧ (r = .ok () → s'.database.held = d.stored)) ∧
      (∀ members, preferences.find? expirationsKey = some (.obj members) →
        (∀ m ∈ members, (Expirations.entryOf? m).isSome = true) →
        ∀ e, e ∈ s.expirations ↔ ∃ m ∈ members, Expirations.entryOf? m = some e) ∧
      ∀ c ops, Keeps c d → (∀ e ∈ s.expirations, e.1 ≠ c.secretId) →
        (∀ op ∈ ops, ∃ t, Operation.Spares c t op) →
        (Operation.afterAll ops s).database.stored.find? c.secretId = some c := by
  have sorted : s.expirations.Sorted := created ▸ Expirations.sorted_ofJson _
  have inTime : ∀ e ∈ s.expirations, e.2.InTime := created ▸ Expirations.inTime_ofJson _
  obtain ⟨⟨r, s'⟩, removed⟩ := completes_removeExpiredPublic.2 fun _ e found =>
    inTime e (mem_of_mem_ensureOpen (List.mem_of_find?_eq_some found))
  have held (done : r = .ok ()) : s'.database.held = d.stored.removeAll (s.expirations.lapsed now) :=
    held_of_cleaned created intact (done ▸ removed)
  refine ⟨r, s', removed, ?_, ?_, ?_, ?_, ?_, ?_⟩
  · intro opened works
    rcases swept_of_removeExpiredPublic sorted removed with ⟨_, swept⟩ | ⟨closed, _⟩
    · exact swept.works works
    · exact absurd opened closed
  · intro done id
    rw [held done, Rows.find?_removeAll]
  · intro done
    rw [held done]
    exact Rows.no_lapsed_removeAll_iff
  · intro damaged
    have none : s.expirations = [] := created ▸ Expirations.ofJson_of_damaged damaged
    refine ⟨none, fun done => ?_⟩
    rw [held done, none]
    rfl
  · intro members stored whole e
    rw [created, create, stored]
    exact Expirations.mem_ofJson_iff whole
  · intro c ops row absent spare
    subst created
    exact (Operation.orphaned_afterAll ⟨row, absent, absent⟩ spare).row.stored

/-- Preferences with an index of two members, the first of which has no encoded id for a name. -/
def misindexed : Preferences :=
  SortedMap.empty.insert expirationsKey (.obj [("!", .str "0"), ("qg", .str "9000000000")])

theorem damaged_misindexed : Expirations.Damaged (misindexed.find? expirationsKey) := by
  intro members found
  cases found
  exact ⟨_, List.mem_cons_self, rfl⟩

theorem cleaned_by_stored_index_damaged :
    holding.database.Intact ∧ Expirations.Damaged (misindexed.find? expirationsKey) ∧
    (∃ s', (create misindexed holding.database 3).removeExpiredPublic (.ofUnixNanos 1809000000000) =
      .ok (.ok (), s') ∧ s'.database.held = holding.database.stored) ∧
    (Operation.afterAll [.removeExpired (.ofUnixNanos 1809000000000), .restart 3, .add [endingAt 2 5],
        .removeExpired (.ofUnixNanos 9000000000000)]
      (create misindexed holding.database 3)).database.stored.find? [1] = some (endingAt 1 9) := by
  have intact : holding.database.Intact := by decide +kernel
  have filed : (Rows.upsert .empty [endingAt 1 9]).Filed :=
    Rows.filed_empty.upsert (by decide +kernel)
  have row : Keeps (endingAt 1 9) holding.database :=
    .file rfl filed rfl fun rows same => Option.some.inj same ▸ ⟨filed, rfl⟩
  obtain ⟨r, s', removed, works, -, -, damaged, -, stays⟩ :=
    cleaned_by_stored_index (s := create misindexed holding.database 3) rfl intact
      (.ofUnixNanos 1809000000000)
  obtain ⟨none, kept⟩ := damaged damaged_misindexed
  have done : r = .ok () := works rfl ⟨rfl, by decide +kernel⟩
  subst done
  refine ⟨intact, damaged_misindexed, ⟨s', removed, kept rfl⟩, stays _ _ row ?_ ?_⟩
  · rw [none]
    exact List.forall_mem_nil _
  · intro op member
    refine ⟨.ofUnixNanos 9000000000000, ?_⟩
    simp only [List.mem_cons, List.not_mem_nil, or_false] at member
    rcases member with rfl | rfl | rfl | rfl
    · show ¬ Instant.Lapsed _ _
      decide +kernel
    · trivial
    · show ∀ d ∈ [endingAt 2 5], d.secretId ≠ (endingAt 1 9).secretId ∧ d.Framable
      decide +kernel
    · show ¬ Instant.Lapsed _ _
      decide +kernel

/-- A row that has lapsed stays where the index cannot be read. -/
theorem lapsed_row_kept : ∃ s',
    (create misindexed (.memory { rows := Rows.upsert .empty [endingAt 170 9] }) 3).removeExpiredPublic
      (.ofUnixNanos 1809000000000) = .ok (.ok (), s') ∧
    (endingAt 170 9).stop.Lapsed (.ofUnixNanos 1809000000000) ∧
    s'.database.held.find? [170] = some (endingAt 170 9) := by
  refine ⟨_, rfl, ?_, rfl⟩
  decide +kernel

end Store
end ProximityCert

import ProximityCert.Proofs.Storage.Refusals

/-!
Adding and replacing in a store that works. Certificates that are added in batches leave the same store
as if they had been added at once, since a merged index is in one order whatever it was merged from.
Replacing leaves the rows that clearing and adding leave; its index is not merged, and so is the same
only if no id comes twice.
-/

namespace ProximityCert

theorem SortedMap.insert_insert {κ α : Type} [LT κ] [DecidableEq κ] [DecidableLT κ] [KeyOrder κ]
    (m : SortedMap κ α) (k : κ) (v w : α) : (m.insert k v).insert k w = m.insert k w := by
  apply ext_find?
  intro a
  rw [find?_insert, find?_insert, find?_insert]
  split
  · rfl
  · rfl

theorem Rows.upsert_append (rows : Rows) (xs ys : List PublicCertificate) :
    (rows.upsert xs).upsert ys = rows.upsert (xs ++ ys) := by
  simp only [upsert, SortedMap.insertAll, List.map_append, List.foldl_append]

namespace Expirations

theorem ofCertificates_of_held {cs : List PublicCertificate}
    (held : ∀ c ∈ cs, (c.endTime.getD {}).Held) :
    ofCertificates cs = .ok (cs.map fun c => (c.secretId, c.stop)) := by
  obtain ⟨es, ends⟩ := completes_ofCertificates.2 held
  rw [ends, eq_of_ofCertificates ends]

theorem keys_nodup_merge (old new : Expirations) : ((old.merge new).map Prod.fst).Nodup :=
  ((sort_perm _).map Prod.fst).nodup_iff.2 (SortedMap.keys_nodup _)

theorem lookup_merge (old new : Expirations) (id : Bytes) :
    List.lookup id (old.merge new) =
      (List.lookup id new.reverse).or (List.lookup id old) := by
  apply Option.ext
  intro t
  rw [SortedMap.lookup_eq_some_iff (keys_nodup_merge old new), mem_merge_iff]

/-- Only what is found under each id counts for a merged index, not how it was come by. -/
theorem merge_congr {old new old' new' : Expirations}
    (same : ∀ id, (List.lookup id new.reverse).or (List.lookup id old) =
      (List.lookup id new'.reverse).or (List.lookup id old')) :
    old.merge new = old'.merge new' := by
  unfold merge
  refine congrArg (fun m : SortedMap Bytes Instant => sort m.entries) (SortedMap.ext_find? fun id => ?_)
  rw [SortedMap.find?_insertMissing, SortedMap.find?_insertMissing, SortedMap.ofList,
    SortedMap.ofList, SortedMap.find?_insertAll, SortedMap.find?_insertAll, SortedMap.find?_empty,
    Option.or_none, Option.or_none, same]

theorem merge_append (old xs ys : Expirations) : (old.merge xs).merge ys = old.merge (xs ++ ys) := by
  apply merge_congr
  intro id
  rw [lookup_merge, List.reverse_append, List.lookup_append, Option.or_assoc]

/-- Merging drops all but the last entry of an id, sorting drops none. -/
theorem sort_perm_merge_iff (new : Expirations) :
    (sort new).Perm (merge [] new) ↔ (new.map Prod.fst).Nodup := by
  constructor
  · intro same
    have once := (same.map Prod.fst).nodup_iff.2 (keys_nodup_merge [] new)
    exact ((sort_perm new).map Prod.fst).nodup_iff.1 once
  · intro distinct
    have reversed : (new.reverse.map Prod.fst).Nodup :=
      ((List.reverse_perm new).map Prod.fst).nodup_iff.2 distinct
    refine (sort_perm new).trans ((List.perm_ext_iff_of_nodup (SortedMap.nodup_of_keys distinct)
      (SortedMap.nodup_of_keys (keys_nodup_merge [] new))).2 fun e => ?_)
    rw [mem_merge_iff, List.lookup_nil, Option.or_none,
      SortedMap.lookup_eq_some_iff reversed, List.mem_reverse]

/-- In the order of the ends the last entry of an id is its latest. -/
theorem Sorted.lookup_reverse_iff {es : Expirations} {id : Bytes} {t : Instant}
    (sorted : es.Sorted) : List.lookup id es.reverse = some t ↔
      (id, t) ∈ es ∧ ∀ u, (id, u) ∈ es → u ≤ t := by
  have descending : es.reverse.Pairwise fun a b => b.2 ≤ a.2 := List.pairwise_reverse.2 sorted
  have turned (t : Instant) : (id, t) ∈ es ↔ (id, t) ∈ es.reverse := List.mem_reverse.symm
  simp only [turned]
  clear turned
  generalize es.reverse = l at descending
  induction l with
  | nil =>
      constructor
      · intro found
        cases found
      · rintro ⟨member, _⟩
        cases member
  | cons x l ih =>
      obtain ⟨x₁, x₂⟩ := x
      obtain ⟨above, descending⟩ := List.pairwise_cons.1 descending
      rw [SortedMap.lookup_cons]
      by_cases same : id = x₁
      · subst same
        rw [if_pos rfl]
        have top (u : Instant) (member : (id, u) ∈ (id, x₂) :: l) : u ≤ x₂ := by
          rcases List.mem_cons.1 member with own | below
          · cases own
            exact Int.le_refl _
          · exact above _ below
        constructor
        · rintro ⟨⟩
          exact ⟨List.mem_cons_self, top⟩
        · rintro ⟨member, latest⟩
          have back := latest x₂ List.mem_cons_self
          exact congrArg some (Instant.ext_nanos (Int.le_antisymm back (top t member)))
      · have apart (u : Instant) : (id, u) ∈ (x₁, x₂) :: l ↔ (id, u) ∈ l := by simp [same]
        rw [if_neg same]
        simp only [apart]
        exact ih descending

/-- Entries of different ids are stored alike in whatever order they stand. -/
theorem toJson_eq_of_perm {es es' : Expirations} (distinct : (es.map Prod.fst).Nodup)
    (same : es.Perm es') : es.toJson = es'.toJson := by
  have found (id : Bytes) :
      List.lookup id es.reverse = List.lookup id es'.reverse := by
    have reversed := ((List.reverse_perm es).map Prod.fst).nodup_iff.2 distinct
    have reordered := (((List.reverse_perm es').trans same.symm).map Prod.fst).nodup_iff.2 distinct
    apply Option.ext
    intro t
    rw [SortedMap.lookup_eq_some_iff reversed, SortedMap.lookup_eq_some_iff reordered,
      List.mem_reverse, List.mem_reverse, same.mem_iff]
  rw [toJson_eq, toJson_eq]
  refine congrArg (fun m : SortedMap String Json => Json.obj m.entries)
    (SortedMap.ext_find? fun name => Option.ext fun value => ?_)
  rw [SortedMap.find?_eq_some_iff, SortedMap.find?_eq_some_iff, mem_written_iff, mem_written_iff]
  simp only [found]

end Expirations

/-- A database that takes every change of its rows. -/
def Database.Works : Database → Prop
  | memory m => m.failOperations = false
  | file f => f.cached.isSome = true ∧ ¬ f.slot.Refuses

theorem MemoryDatabase.update_of_works {m : MemoryDatabase} (works : m.failOperations = false)
    (change : Rows → Rows) : m.update change = (.ok (), { m with rows := change m.rows }) := by
  rw [update, if_neg (Bool.not_eq_true _ ▸ works)]

/-- A change is taken, and with another one behind it comes to the same as both at once. -/
theorem Database.Works.update {d : Database} (h : d.Works) (change : Rows → Rows) :
    (d.update change).1 = .ok () ∧ (d.update change).2.Works ∧
      ∀ next : Rows → Rows, (d.update change).2.update next = d.update (next ∘ change) := by
  cases d with
  | memory m =>
      have taken {m : MemoryDatabase} (works : m.failOperations = false) (change : Rows → Rows) :
          (Database.memory m).update change = (.ok (), .memory { m with rows := change m.rows }) := by
        rw [Database.update, MemoryDatabase.update_of_works works]
      rw [taken h]
      refine ⟨rfl, h, fun next => ?_⟩
      rw [taken (m := { m with rows := change m.rows }) h, taken h]
      rfl
  | file f =>
      obtain ⟨rows, read⟩ := Option.isSome_iff_exists.1 h.1
      have taken {f : FileDatabase} {rows : Rows} (read : f.cached = some rows)
          (takes : ¬ f.slot.Refuses) (change : Rows → Rows) :
          (Database.file f).update change = (.ok (), .file {
            slot := { f.slot with node := .file (change rows).encode },
            cached := some (change rows) }) := by
        rw [Database.update, FileDatabase.update_of_not_refuses read takes]
      have again := FileSlot.not_refuses_file h.2 (change rows).encode
      rw [taken read h.2]
      refine ⟨rfl, ⟨rfl, again⟩, fun next => ?_⟩
      rw [taken rfl again, taken read h.2]
      rfl

namespace Store

variable {s s₀ s' : Store} {cs xs ys : List PublicCertificate}

theorem ensureOpen_of_opened (opened : s.openState = .initialized) : s.ensureOpen = (.ok (), s) := by
  simp only [ensureOpen_eq, opened]

/-- An edit of a store that opens is one of the open store. -/
theorem Edit.perform_of_opens (edit : Edit) (opens : s.ensureOpen = (.ok (), s₀)) :
    edit.perform s = (edit.plan s₀.expirations).map fun
      | none => (.ok (), s₀)
      | some (change, index) => s₀.carryOut change index := by
  have opened := openState_of_ensureOpen opens
  have stays := ensureOpen_of_opened opened
  refine Eq.trans ?_ (edit.perform_eq opened)
  cases edit with
  | add certificates => rw [perform, perform, addPublic, opens, addPublic, stays]
  | removeExpired now => rw [perform, perform, removeExpiredPublic, opens, removeExpiredPublic, stays]
  | clear => rw [perform, perform, clearPublic, opens, clearPublic, stays]

/-- A change was carried out, and the database works on. -/
structure CarriedOut (s : Store) (change : Database.Change) (index : Expirations) (s' : Store) :
    Prop where
  carried : s.carryOut change index = (.ok (), s')
  openState : s'.openState = s.openState
  works : s'.database.Works
  held : s'.database.held = change.effect s.database.held
  expirations : s'.expirations = index
  stored : s'.preferences.find? expirationsKey = some index.toJson
  /-- Of two changes only the index behind the second is left. -/
  onward (next : Database.Change) (index' : Expirations) : s'.carryOut next index' =
    (.ok (), ({ s with
      database := (s.database.update (next.effect ∘ change.effect)).2 } : Store).setExpirations index')

theorem carryOut_of_works (works : s.database.Works) (change : Database.Change)
    (index : Expirations) :
    s.carryOut change index = (.ok (), ({ s with
      database := (s.database.update change.effect).2 } : Store).setExpirations index) := by
  have taken : s.database.update change.effect =
      (.ok (), (s.database.update change.effect).2) := Prod.ext (works.update _).1 rfl
  rw [carryOut, Database.Change.perform_eq, taken]

theorem exists_carriedOut (works : s.database.Works) (change : Database.Change)
    (index : Expirations) : ∃ s', CarriedOut s change index s' := by
  obtain ⟨taken, again, both⟩ := works.update change.effect
  refine ⟨_, carryOut_of_works works change index, rfl, again, ?_, rfl, ?_, ?_⟩
  · exact Database.held_of_update taken
  · rw [setExpirations, SortedMap.find?_insert, if_pos rfl]
  · intro next index'
    have taken : (s.database.update change.effect).2.update next.effect =
        (.ok (), (s.database.update (next.effect ∘ change.effect)).2) := by
      rw [both]
      exact Prod.ext (works.update _).1 rfl
    rw [carryOut, Database.Change.perform_eq]
    simp only [setExpirations, taken, SortedMap.insert_insert]

theorem addPublic_eq (opens : s.ensureOpen = (.ok (), s₀))
    (held : ∀ c ∈ cs, (c.endTime.getD {}).Held) :
    s.addPublic cs = .ok (s₀.carryOut (.add cs)
      (s₀.expirations.merge (cs.map fun c => (c.secretId, c.stop)))) := by
  refine ((Edit.add cs).perform_of_opens opens).trans ?_
  rw [Edit.plan, Expirations.ofCertificates_of_held held]
  rfl

theorem clearPublic_eq (opens : s.ensureOpen = (.ok (), s₀)) :
    s.clearPublic = s₀.carryOut .clear [] :=
  Except.ok.inj (Edit.clear.perform_of_opens opens)

/-- Replacing is clearing and adding, with an index that is sorted only. -/
theorem replacePublic_eq (opens : s.ensureOpen = (.ok (), s₀))
    (held : ∀ c ∈ cs, (c.endTime.getD {}).Held) (cleared : CarriedOut s₀ .clear [] s') :
    s.replacePublic cs = .ok (s'.carryOut (.add cs)
      (Expirations.sort (cs.map fun c => (c.secretId, c.stop)))) := by
  have cleared := cleared.carried
  rw [replacePublic, opens]
  simp only [Expirations.ofCertificates_of_held held]
  rw [carryOut, Database.Change.perform] at cleared
  rcases taken : s₀.database.clear with ⟨_ | _, database⟩
  · rw [taken] at cleared
    cases cleared
  · rw [taken] at cleared
    cases cleared
    simp only [carryOut, Database.Change.perform, Except.bind, bind]
    generalize Database.add _ cs = added
    rcases added with ⟨_ | _, database'⟩
    · rfl
    · rfl

/-- Certificates that are added in two batches leave the very store that adding them at once leaves: the
rows with all of them put in, the index in its one order, and the same stored index. -/
theorem addPublic_append (opens : s.ensureOpen = (.ok (), s₀)) (works : s₀.database.Works)
    (held : ∀ c ∈ xs ++ ys, (c.endTime.getD {}).Held) :
    ∃ s₁ s₂, s.addPublic xs = .ok (.ok (), s₁) ∧ s₁.addPublic ys = .ok (.ok (), s₂) ∧
      s.addPublic (xs ++ ys) = .ok (.ok (), s₂) ∧
      s₂.database.held = s₀.database.held.upsert (xs ++ ys) ∧
      s₂.expirations = s₀.expirations.merge ((xs ++ ys).map fun c => (c.secretId, c.stop)) ∧
      s₂.preferences.find? expirationsKey = some s₂.expirations.toJson := by
  have opened := openState_of_ensureOpen opens
  obtain ⟨s₂, all⟩ := exists_carriedOut works (.add (xs ++ ys))
    (s₀.expirations.merge ((xs ++ ys).map fun c => (c.secretId, c.stop)))
  obtain ⟨s₁, first⟩ := exists_carriedOut works (.add xs)
    (s₀.expirations.merge (xs.map fun c => (c.secretId, c.stop)))
  have stays : s₁.ensureOpen = (.ok (), s₁) := ensureOpen_of_opened (first.openState.trans opened)
  have once : (Database.Change.add ys).effect ∘ (Database.Change.add xs).effect =
      (Database.Change.add (xs ++ ys)).effect := by
    funext rows
    exact rows.upsert_append xs ys
  have second : s₁.addPublic ys = .ok (.ok (), s₂) := by
    rw [addPublic_eq stays (List.forall_mem_append.1 held).2, first.expirations,
      Expirations.merge_append, ← List.map_append, first.onward, once,
      ← carryOut_of_works works, all.carried]
  refine ⟨s₁, s₂, ?_, second, ?_, all.held, all.expirations, ?_⟩
  · rw [addPublic_eq opens (List.forall_mem_append.1 held).1, first.carried]
  · rw [addPublic_eq opens held, all.carried]
  · rw [all.stored, all.expirations]

/-- Three certificates of one id and two of another, in two batches that end alike in part. -/
theorem addPublic_append_repeating : ∃ s₁ s₂,
    (create .empty (.file {}) 3).addPublic [endingAt 2 9, endingAt 1 9, endingAt 2 5] =
      .ok (.ok (), s₁) ∧
    s₁.addPublic [endingAt 1 5, endingAt 2 7, endingAt 3 5] = .ok (.ok (), s₂) ∧
    (create .empty (.file {}) 3).addPublic
      ([endingAt 2 9, endingAt 1 9, endingAt 2 5] ++ [endingAt 1 5, endingAt 2 7, endingAt 3 5]) =
      .ok (.ok (), s₂) ∧
    s₂.publicIds = [[1], [3], [2]] := by
  have held : ∀ c ∈ [endingAt 2 9, endingAt 1 9, endingAt 2 5] ++
      [endingAt 1 5, endingAt 2 7, endingAt 3 5], (c.endTime.getD {}).Held := by decide +kernel
  obtain ⟨s₁, s₂, first, second, all, -, index, -⟩ :=
    addPublic_append (s := create .empty (.file {}) 3) rfl ⟨rfl, by decide⟩ held
  refine ⟨s₁, s₂, first, second, all, ?_⟩
  rw [publicIds, index]
  decide +kernel

/-- Replacing leaves the rows that clearing and adding leave. Its index has an entry for every
certificate of the list, and so the entries of the other just if no id comes twice; a new store finds of
each id the latest end, where the row is that of the last certificate. -/
theorem replacePublic_beside_addPublic (opens : s.ensureOpen = (.ok (), s₀))
    (works : s₀.database.Works) (held : ∀ c ∈ cs, (c.endTime.getD {}).Held) :
    ∃ replaced cleared added, s.replacePublic cs = .ok (.ok (), replaced) ∧
      s.clearPublic = (.ok (), cleared) ∧ cleared.addPublic cs = .ok (.ok (), added) ∧
      replaced.database = added.database ∧
      added.database.held = Rows.upsert .empty cs ∧
      added.expirations.Mirrors added.database.held ∧
      replaced.expirations.Sorted ∧
      replaced.expirations.Perm (cs.map fun c => (c.secretId, c.stop)) ∧
      (replaced.expirations.Perm added.expirations ↔ (cs.map (·.secretId)).Nodup) ∧
      ((cs.map (·.secretId)).Nodup →
        replaced.preferences.find? expirationsKey = added.preferences.find? expirationsKey) ∧
      ∀ id t, (id, t) ∈ replaced.reopened.expirations ↔
        ∃ c ∈ cs, c.secretId = id ∧ Instant.ofUnixNanos c.stop.toUnixNanos = t ∧
          ∀ d ∈ cs, d.secretId = id → d.stop ≤ c.stop := by
  obtain ⟨cleared, clears⟩ := exists_carriedOut works .clear []
  obtain ⟨replaced, replaces⟩ := exists_carriedOut clears.works (.add cs)
    (Expirations.sort (cs.map fun c => (c.secretId, c.stop)))
  obtain ⟨added, adds⟩ := exists_carriedOut clears.works (.add cs)
    (Expirations.merge [] (cs.map fun c => (c.secretId, c.stop)))
  have opened := openState_of_ensureOpen opens
  have stays : cleared.ensureOpen = (.ok (), cleared) :=
    ensureOpen_of_opened (clears.openState.trans opened)
  have ids : (cs.map fun c => (c.secretId, c.stop)).map Prod.fst = cs.map (·.secretId) := by
    rw [List.map_map]
    rfl
  have rows : added.database.held = Rows.upsert .empty cs := by
    rw [adds.held, clears.held]
    rfl
  refine ⟨replaced, cleared, added, ?_, ?_, ?_, ?_, rows, ?_, ?_, ?_, ?_, ?_, ?_⟩
  · rw [replacePublic_eq opens held clears, replaces.carried]
  · rw [clearPublic_eq opens, clears.carried]
  · rw [addPublic_eq stays held, clears.expirations, adds.carried]
  · have byReplacing := carryOut_of_works clears.works (.add cs)
      (Expirations.sort (cs.map fun c => (c.secretId, c.stop)))
    have byAdding := carryOut_of_works clears.works (.add cs)
      (Expirations.merge [] (cs.map fun c => (c.secretId, c.stop)))
    rw [replaces.carried] at byReplacing
    rw [adds.carried] at byAdding
    cases byReplacing
    cases byAdding
    rfl
  · rw [rows, adds.expirations]
    exact Expirations.Mirrors.nil.merge
  · rw [replaces.expirations]
    exact Expirations.sorted_sort _
  · rw [replaces.expirations]
    exact Expirations.sort_perm _
  · rw [replaces.expirations, adds.expirations, Expirations.sort_perm_merge_iff, ids]
  · intro distinct
    rw [replaces.stored, adds.stored]
    have distinct := ids ▸ distinct
    have once := ((Expirations.sort_perm _).map Prod.fst).nodup_iff.2 distinct
    rw [Expirations.toJson_eq_of_perm once ((Expirations.sort_perm_merge_iff _).2 distinct)]
  · intro id t
    have sorted := Expirations.sorted_sort (cs.map fun c => (c.secretId, c.stop))
    rw [reopened, create, replaces.stored, Expirations.mem_ofJson_toJson_iff, Option.map_eq_some_iff]
    simp only [sorted.lookup_reverse_iff, (Expirations.sort_perm _).mem_iff, List.mem_map]
    constructor
    · rintro ⟨_, ⟨⟨c, own, ⟨⟩⟩, latest⟩, kept⟩
      exact ⟨c, own, rfl, kept, fun d other same => latest d.stop ⟨d, other, Prod.ext same rfl⟩⟩
    · rintro ⟨c, own, rfl, kept, latest⟩
      refine ⟨c.stop, ⟨⟨c, own, rfl⟩, ?_⟩, kept⟩
      rintro u ⟨d, other, same⟩
      obtain ⟨sameId, rfl⟩ := Prod.mk.inj same
      exact latest d other sameId

/-- With an id that comes twice, on a file that held another certificate. -/
theorem replacePublic_beside_addPublic_repeating : ∃ replaced cleared added,
    holding.replacePublic [endingAt 2 9, endingAt 3 7, endingAt 2 5] = .ok (.ok (), replaced) ∧
    holding.clearPublic = (.ok (), cleared) ∧
    cleared.addPublic [endingAt 2 9, endingAt 3 7, endingAt 2 5] = .ok (.ok (), added) ∧
    replaced.database = added.database ∧
    ¬ replaced.expirations.Perm added.expirations ∧
    ([2], (endingAt 2 9).stop) ∈ replaced.reopened.expirations := by
  have held : ∀ c ∈ [endingAt 2 9, endingAt 3 7, endingAt 2 5], (c.endTime.getD {}).Held := by
    decide +kernel
  obtain ⟨replaced, cleared, added, replaces, clears, adds, same, -, -, -, -, once, -, found⟩ :=
    replacePublic_beside_addPublic (s := holding) rfl ⟨rfl, by decide +kernel⟩ held
  refine ⟨replaced, cleared, added, replaces, clears, adds, same, ?_, ?_⟩
  · rw [once]
    decide
  · refine (found [2] _).2 ⟨endingAt 2 9, List.mem_cons_self, rfl, ?_, ?_⟩
    · decide +kernel
    · decide +kernel

/-- The index of a replacement names a certificate as often as the list does. -/
theorem replaced_twice_indexed : ∃ replaced cleared added,
    (create .empty (.memory {}) 3).replacePublic [endingAt 170 9, endingAt 170 5] =
      .ok (.ok (), replaced) ∧
    (create .empty (.memory {}) 3).clearPublic = (.ok (), cleared) ∧
    cleared.addPublic [endingAt 170 9, endingAt 170 5] = .ok (.ok (), added) ∧
    replaced.database.load = .ok [endingAt 170 5] ∧ added.database.load = .ok [endingAt 170 5] ∧
    replaced.publicIds = [[170], [170]] ∧ added.publicIds = [[170]] ∧
    ¬ replaced.expirations.Perm added.expirations := by
  refine ⟨_, _, _, rfl, rfl, rfl, rfl, rfl, ?_, ?_, fun same => ?_⟩
  · decide +kernel
  · decide +kernel
  · have lengths := same.length_eq
    revert lengths
    decide +kernel

end Store
end ProximityCert

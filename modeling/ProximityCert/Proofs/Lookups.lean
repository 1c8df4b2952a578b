import ProximityCert.SortedMap

/-!
Look-ups, in lists of entries and in maps. In a map built from a list the last entry of a key counts;
in one that takes an entry only where it has none, the first.
-/

namespace ProximityCert

/-- A fold that in every step keeps what it has or takes a value of the element ends with one of them. -/
theorem foldl_chosen {α β : Type} {choose : α → β → α} {value : β → α}
    (chosen : ∀ a b, choose a b = a ∨ choose a b = value b) (bs : List β) (a : α) :
    bs.foldl choose a = a ∨ ∃ b ∈ bs, bs.foldl choose a = value b := by
  induction bs generalizing a with
  | nil => exact .inl rfl
  | cons b bs ih =>
      rw [List.foldl_cons]
      rcases ih (choose a b) with first | ⟨x, member, last⟩
      · rw [first]
        exact (chosen a b).imp_right fun taken => ⟨b, List.mem_cons_self, taken⟩
      · exact .inr ⟨x, List.mem_cons_of_mem b member, last⟩

namespace SortedMap

variable {κ α β : Type} [LT κ] [BEq κ] [LawfulBEq κ] [DecidableEq κ] [DecidableLT κ] [KeyOrder κ]

section Entries

omit [LT κ] [DecidableLT κ] [KeyOrder κ]

theorem lookup_map_keys {κ' : Type} [BEq κ'] [LawfulBEq κ'] [DecidableEq κ'] {rename : κ → κ'}
    (injective : ∀ a b, rename a = rename b → a = b) (k : κ) (f : α → β) (l : List (κ × α)) :
    (l.map fun e => (rename e.1, f e.2)).lookup (rename k) = (l.lookup k).map f := by
  induction l with
  | nil => rfl
  | cons x l ih =>
      obtain ⟨a, w⟩ := x
      by_cases same : k = a
      · simp [same]
      · have other : rename k ≠ rename a := fun h => same (injective k a h)
        simp [lookup_cons, same, other, ih]

theorem lookup_map (k : κ) (f : α → β) (l : List (κ × α)) :
    (l.map fun e => (e.1, f e.2)).lookup k = (l.lookup k).map f :=
  lookup_map_keys (fun _ _ same => same) k f l

omit [DecidableEq κ] in
theorem mem_of_lookup {k : κ} {v : α} {l : List (κ × α)} (h : l.lookup k = some v) : (k, v) ∈ l := by
  obtain ⟨before, after, rfl, _⟩ := List.lookup_eq_some_iff.1 h
  exact List.mem_append_right _ List.mem_cons_self

omit [BEq κ] [LawfulBEq κ] [DecidableEq κ] in
theorem nodup_of_keys {l : List (κ × α)} (distinct : (l.map Prod.fst).Nodup) : l.Nodup :=
  List.Pairwise.of_map Prod.fst (fun _ _ other same => other (congrArg Prod.fst same)) distinct

theorem lookup_eq_some_iff {k : κ} {v : α} {l : List (κ × α)}
    (distinct : (l.map Prod.fst).Nodup) : l.lookup k = some v ↔ (k, v) ∈ l := by
  constructor
  · exact mem_of_lookup
  · intro member
    induction l with
    | nil => exact (List.not_mem_nil member).elim
    | cons x l ih =>
        obtain ⟨a, w⟩ := x
        rw [List.map_cons, List.nodup_cons] at distinct
        rw [lookup_cons]
        rcases List.mem_cons.1 member with same | later
        · cases same
          exact if_pos rfl
        · have other : k ≠ a := by
            rintro rfl
            exact distinct.1 (List.mem_map.2 ⟨(k, v), later, rfl⟩)
          rw [if_neg other]
          exact ih distinct.2 later

end Entries

omit [BEq κ] [LawfulBEq κ] [KeyOrder κ] in
theorem length_insertEntry_le (k : κ) (v : α) (l : List (κ × α)) :
    (insertEntry k v l).length ≤ l.length + 1 := by
  induction l with
  | nil => exact Nat.le_refl _
  | cons x rest ih =>
      unfold insertEntry
      split
      · exact Nat.le_succ _
      · split
        · exact Nat.le_refl _
        · exact Nat.succ_le_succ ih

omit [BEq κ] [LawfulBEq κ] [DecidableEq κ] [DecidableLT κ] in
theorem keys_nodup (m : SortedMap κ α) : (m.entries.map Prod.fst).Nodup := by
  apply List.pairwise_map.2
  exact m.sorted.imp fun below => KeyOrder.ne_of_lt below

omit [DecidableLT κ] in
theorem mem_values_iff {m : SortedMap κ α} {v : α} : v ∈ m.values ↔ ∃ k, m.find? k = some v := by
  constructor
  · intro member
    obtain ⟨e, entry, rfl⟩ := List.mem_map.1 member
    exact ⟨e.1, find?_eq_some_iff.2 entry⟩
  · rintro ⟨k, found⟩
    exact List.mem_map.2 ⟨(k, v), find?_eq_some_iff.1 found, rfl⟩

theorem find?_insertAll (m : SortedMap κ α) (es : List (κ × α)) (k : κ) :
    (m.insertAll es).find? k = (es.reverse.lookup k).or (m.find? k) := by
  induction es generalizing m with
  | nil => rfl
  | cons e es ih =>
      have step : m.insertAll (e :: es) = (m.insert e.1 e.2).insertAll es := rfl
      rw [step, ih, find?_insert, List.reverse_cons, List.lookup_append, Option.or_assoc, lookup_cons]
      by_cases same : k = e.1
      · simp [same]
      · simp [same]

theorem find?_insertIfAbsent (m : SortedMap κ α) (k a : κ) (v : α) :
    (m.insertIfAbsent k v).find? a = (m.find? a).or (if a = k then some v else none) := by
  unfold insertIfAbsent contains
  split
  · next present =>
      obtain ⟨w, found⟩ := Option.isSome_iff_exists.1 present
      by_cases same : a = k
      · rw [same, found]
        rfl
      · rw [if_neg same, Option.or_none]
  · next absent =>
      rw [find?_insert]
      by_cases same : a = k
      · rw [same, Option.not_isSome_iff_eq_none.1 absent]
        rfl
      · rw [if_neg same, if_neg same, Option.or_none]

theorem find?_insertMissing (m : SortedMap κ α) (es : List (κ × α)) (k : κ) :
    (es.foldl (fun m e => m.insertIfAbsent e.1 e.2) m).find? k =
      (m.find? k).or (es.lookup k) := by
  induction es generalizing m with
  | nil => exact (Option.or_none).symm
  | cons e es ih =>
      rw [List.foldl_cons, ih, find?_insertIfAbsent, Option.or_assoc]
      obtain ⟨a, w⟩ := e
      by_cases same : k = a
      · simp [same]
      · simp [lookup_cons, same]

/-- Putting in what is there changes nothing. -/
theorem insert_of_find? {m : SortedMap κ α} {k : κ} {v : α} (found : m.find? k = some v) :
    m.insert k v = m := by
  refine ext_find? fun a => ?_
  rw [find?_insert]
  split
  · next same => rw [same, found]
  · rfl

end SortedMap
end ProximityCert

import ProximityCert.Bytes

/-!
Finite maps as lists of entries in strictly ascending order of their keys, and finite sets in the
same way. Two maps with the same look-ups are equal.
-/

namespace ProximityCert

/-- A strict order in which any two keys are comparable. -/
class KeyOrder (κ : Type) [LT κ] : Prop where
  irrefl (a : κ) : ¬ a < a
  trans {a b c : κ} : a < b → b < c → a < c
  trichotomy (a b : κ) : a < b ∨ a = b ∨ b < a

namespace KeyOrder

theorem lt_of_not {κ : Type} [LT κ] [KeyOrder κ] {a b : κ} (ne : a ≠ b) (h : ¬ a < b) : b < a := by
  rcases trichotomy a b with lt | eq | gt
  · exact absurd lt h
  · exact absurd eq ne
  · exact gt

theorem ne_of_lt {κ : Type} [LT κ] [KeyOrder κ] {a b : κ} (h : a < b) : a ≠ b := fun eq => irrefl b (eq ▸ h)

end KeyOrder

instance : KeyOrder Bytes where
  irrefl := List.lt_irrefl
  trans := List.lt_trans
  trichotomy a b := by
    by_cases h : a < b
    · exact .inl h
    · by_cases g : b < a
      · exact .inr (.inr g)
      · exact .inr (.inl (Std.Trichotomous.trichotomous (r := (· < ·)) a b h g))

instance : KeyOrder String where
  irrefl := String.lt_irrefl
  trans := String.lt_trans
  trichotomy a b := by
    by_cases h : a < b
    · exact .inl h
    · by_cases g : b < a
      · exact .inr (.inr g)
      · exact .inr (.inl (Std.Trichotomous.trichotomous (r := (· < ·)) a b h g))

instance : KeyOrder UInt16 where
  irrefl a := UInt16.lt_irrefl a
  trans := UInt16.lt_trans
  trichotomy a b := by
    simp only [UInt16.lt_iff_toNat_lt, ← UInt16.toNat_inj]
    omega

/-- A map whose entries ascend strictly. -/
structure SortedMap (κ α : Type) [LT κ] where
  entries : List (κ × α)
  sorted : entries.Pairwise fun a b => a.1 < b.1

namespace SortedMap

variable {κ α : Type} [LT κ] [BEq κ] [LawfulBEq κ] [DecidableEq κ] [DecidableLT κ] [KeyOrder κ]

def empty : SortedMap κ α := ⟨[], .nil⟩

instance : Inhabited (SortedMap κ α) := ⟨empty⟩

instance [DecidableEq α] : DecidableEq (SortedMap κ α) := fun a b =>
  if h : a.entries = b.entries then isTrue (by cases a; cases b; simp_all) else isFalse (fun e => h (e ▸ rfl))

def insertEntry (k : κ) (v : α) : List (κ × α) → List (κ × α)
  | [] => [(k, v)]
  | (a, w) :: rest =>
    if k = a then (k, v) :: rest else if k < a then (k, v) :: (a, w) :: rest else (a, w) :: insertEntry k v rest

omit [BEq κ] [LawfulBEq κ] [KeyOrder κ] in
theorem mem_insertEntry {k : κ} {v : α} {l : List (κ × α)} {e : κ × α} (h : e ∈ insertEntry k v l) :
    e = (k, v) ∨ e ∈ l := by
  induction l with
  | nil => simpa [insertEntry] using h
  | cons x rest ih =>
    obtain ⟨a, w⟩ := x
    unfold insertEntry at h
    split at h
    · rcases List.mem_cons.1 h with h | h
      · exact .inl h
      · exact .inr (List.mem_cons_of_mem _ h)
    · split at h
      · exact List.mem_cons.1 h
      · rcases List.mem_cons.1 h with h | h
        · exact .inr (h ▸ List.mem_cons_self)
        · rcases ih h with h | h
          · exact .inl h
          · exact .inr (List.mem_cons_of_mem _ h)

omit [BEq κ] [LawfulBEq κ] in
theorem sorted_insertEntry (k : κ) (v : α) {l : List (κ × α)} (h : l.Pairwise fun a b => a.1 < b.1) :
    (insertEntry k v l).Pairwise fun a b => a.1 < b.1 := by
  induction l with
  | nil => simp [insertEntry]
  | cons x rest ih =>
    obtain ⟨a, w⟩ := x
    rw [List.pairwise_cons] at h
    unfold insertEntry
    split
    · next eq => subst eq; exact List.pairwise_cons.2 h
    · next ne =>
      split
      · next lt =>
        refine List.pairwise_cons.2 ⟨fun e he => ?_, List.pairwise_cons.2 h⟩
        rcases List.mem_cons.1 he with rfl | he
        · exact lt
        · exact KeyOrder.trans lt (h.1 e he)
      · next nlt =>
        refine List.pairwise_cons.2 ⟨fun e he => ?_, ih h.2⟩
        rcases mem_insertEntry he with rfl | he
        · exact KeyOrder.lt_of_not ne nlt
        · exact h.1 e he

def find? (m : SortedMap κ α) (k : κ) : Option α := m.entries.lookup k

def contains (m : SortedMap κ α) (k : κ) : Bool := (m.find? k).isSome

/-- Puts a value at a key, over the one that is there. -/
def insert (m : SortedMap κ α) (k : κ) (v : α) : SortedMap κ α :=
  ⟨insertEntry k v m.entries, sorted_insertEntry k v m.sorted⟩

def insertIfAbsent (m : SortedMap κ α) (k : κ) (v : α) : SortedMap κ α := if m.contains k then m else m.insert k v

def filter (m : SortedMap κ α) (p : κ → α → Bool) : SortedMap κ α :=
  ⟨m.entries.filter fun e => p e.1 e.2, m.sorted.filter _⟩

def erase (m : SortedMap κ α) (k : κ) : SortedMap κ α := m.filter fun a _ => a ≠ k

def keys (m : SortedMap κ α) : List κ := m.entries.map (·.1)
def values (m : SortedMap κ α) : List α := m.entries.map (·.2)
def size (m : SortedMap κ α) : Nat := m.entries.length
def isEmpty (m : SortedMap κ α) : Bool := m.entries.isEmpty

/-- Inserts the entries in turn, so that of equal keys the last counts. -/
def insertAll (m : SortedMap κ α) (es : List (κ × α)) : SortedMap κ α := es.foldl (fun m e => m.insert e.1 e.2) m

def ofList (es : List (κ × α)) : SortedMap κ α := empty.insertAll es

omit [LT κ] [DecidableLT κ] [KeyOrder κ] in
theorem lookup_cons (k a : κ) (w : α) (rest : List (κ × α)) :
    ((a, w) :: rest).lookup k = if k = a then some w else rest.lookup k := by
  rw [List.lookup_cons]
  by_cases same : k = a
  · rw [if_pos same, beq_iff_eq.2 same]
  · rw [if_neg same, beq_eq_false_iff_ne.2 same]

omit [KeyOrder κ] in
theorem lookup_insertEntry (k a : κ) (v : α) (l : List (κ × α)) :
    (insertEntry k v l).lookup a = if a = k then some v else l.lookup a := by
  induction l with
  | nil => simp [insertEntry, lookup_cons]
  | cons x rest ih =>
    obtain ⟨b, w⟩ := x
    unfold insertEntry
    split
    · next eq => subst eq; by_cases h : a = k <;> simp [lookup_cons, h]
    · next ne =>
      split
      · by_cases h : a = k <;> simp [lookup_cons, h]
      · by_cases h : a = k
        · subst h; simp [lookup_cons, ne, ih]
        · simp [lookup_cons, ih, h]

@[simp] theorem find?_insert (m : SortedMap κ α) (k a : κ) (v : α) :
    (m.insert k v).find? a = if a = k then some v else m.find? a := lookup_insertEntry k a v m.entries

omit [LawfulBEq κ] [DecidableEq κ] [DecidableLT κ] [KeyOrder κ] in
@[simp] theorem find?_empty (k : κ) : (empty : SortedMap κ α).find? k = none := rfl

omit [LT κ] [DecidableLT κ] [KeyOrder κ] in
theorem lookup_filter_ne (k a : κ) (l : List (κ × α)) :
    (l.filter fun e => decide (e.1 ≠ k)).lookup a = if a = k then none else l.lookup a := by
  induction l with
  | nil => simp
  | cons x rest ih =>
    obtain ⟨b, w⟩ := x
    by_cases hb : b = k
    · subst hb
      rw [List.filter_cons_of_neg (by simp), ih, lookup_cons]
      by_cases h : a = b <;> simp only [h, if_true, if_false]
    · rw [List.filter_cons_of_pos (by simpa using hb), lookup_cons, lookup_cons, ih]
      by_cases h : a = b
      · subst h; simp only [hb, if_true, if_false]
      · simp only [h, if_false]

omit [DecidableLT κ] [KeyOrder κ] in
@[simp] theorem find?_erase (m : SortedMap κ α) (k a : κ) :
    (m.erase k).find? a = if a = k then none else m.find? a := by
  simpa [find?, erase, filter] using lookup_filter_ne k a m.entries

omit [DecidableLT κ] in
theorem find?_eq_some_iff {m : SortedMap κ α} {k : κ} {v : α} : m.find? k = some v ↔ (k, v) ∈ m.entries := by
  obtain ⟨l, hl⟩ := m
  simp only [find?]
  induction l with
  | nil => simp
  | cons x rest ih =>
    obtain ⟨a, w⟩ := x
    rw [List.pairwise_cons] at hl
    by_cases h : k = a
    · subst h
      simp only [lookup_cons, if_true, Option.some.injEq, List.mem_cons, Prod.mk.injEq, true_and]
      constructor
      · intro e; exact .inl e.symm
      · rintro (e | e)
        · exact e.symm
        · exact absurd (hl.1 _ e) (KeyOrder.irrefl k)
    · simp only [lookup_cons, h, if_false, ih hl.2, List.mem_cons, Prod.mk.injEq, false_and, false_or]

omit [DecidableLT κ] in
/-- Maps with the same look-ups are the same map. -/
theorem ext_find? {m n : SortedMap κ α} (h : ∀ k, m.find? k = n.find? k) : m = n := by
  suffices e : m.entries = n.entries by cases m; cases n; simp_all
  have mem : ∀ e, e ∈ m.entries ↔ e ∈ n.entries := fun ⟨k, v⟩ => by
    rw [← find?_eq_some_iff, ← find?_eq_some_iff, h]
  obtain ⟨l, hl⟩ := m
  obtain ⟨r, hr⟩ := n
  clear h
  simp only at mem ⊢
  induction l generalizing r with
  | nil => cases r with
    | nil => rfl
    | cons x _ => exact absurd ((mem x).2 List.mem_cons_self) List.not_mem_nil
  | cons x l ih => cases r with
    | nil => exact absurd ((mem x).1 List.mem_cons_self) List.not_mem_nil
    | cons y r =>
      rw [List.pairwise_cons] at hl hr
      have head : x = y := by
        rcases List.mem_cons.1 ((mem x).1 List.mem_cons_self) with h | h
        · exact h
        · rcases List.mem_cons.1 ((mem y).2 List.mem_cons_self) with g | g
          · exact g.symm
          · exact absurd (KeyOrder.trans (hl.1 y g) (hr.1 x h)) (KeyOrder.irrefl _)
      subst head
      congr 1
      refine ih hl.2 r hr.2 fun e => ?_
      constructor
      · intro he
        rcases List.mem_cons.1 ((mem e).1 (List.mem_cons_of_mem _ he)) with h | h
        · exact absurd (h ▸ hl.1 e he) (KeyOrder.irrefl _)
        · exact h
      · intro he
        rcases List.mem_cons.1 ((mem e).2 (List.mem_cons_of_mem _ he)) with h | h
        · exact absurd (h ▸ hr.1 e he) (KeyOrder.irrefl _)
        · exact h

end SortedMap

/-- A finite set: a map without values. -/
abbrev SortedSet (κ : Type) [LT κ] := SortedMap κ Unit

namespace SortedSet

variable {κ : Type} [LT κ] [DecidableEq κ] [DecidableLT κ] [KeyOrder κ]

def add (s : SortedSet κ) (k : κ) : SortedSet κ := s.insert k ()

def toList (s : SortedSet κ) : List κ := s.keys

/-- Later elements are put in first, which is quick for a list in order. -/
def ofElements (ks : List κ) : SortedSet κ := ks.foldr (fun k s => add s k) SortedMap.empty

end SortedSet
end ProximityCert

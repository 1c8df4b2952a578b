import Mathlib.Data.List.Sort
import ProximityCert.Proofs.Certificate.Privates
import ProximityCert.Proofs.Outcomes
import ProximityCert.Storage.Database
import ProximityCert.Storage.Expirations

/-!
The index of end times. It mirrors rows if it has their ids, each once and with the end of its row, in
the order of the ends. Adding and removing keep that, and a stored index is read back with the same
entries, since its names and its decimal numbers are.
-/

namespace ProximityCert

theorem Json.insertMember_eq (name : String) (value : Json) (members : List (String × Json)) :
    insertMember name value members = SortedMap.insertEntry name value members := by
  induction members with
  | nil => rfl
  | cons m rest ih => rw [insertMember, SortedMap.insertEntry, ih]

/-- The members of an object are a map. -/
theorem Json.ofMembers_eq (members : List (String × Json)) :
    ofMembers members = .obj (SortedMap.ofList members).entries := by
  have grow (m : SortedMap String Json) : members.foldl (fun acc x => insertMember x.1 x.2 acc)
      m.entries = (m.insertAll members).entries := by
    induction members generalizing m with
    | nil => rfl
    | cons x rest ih =>
        rw [List.foldl_cons, insertMember_eq]
        exact ih (m.insert x.1 x.2)
  exact congrArg obj (grow .empty)

/-- When a certificate ends; without an end, at the epoch. -/
def PublicCertificate.stop (c : PublicCertificate) : Instant :=
  (c.endTime.getD {}).toInstant.toOption.getD Instant.epoch

/-- Whether a certificate ends strictly inside what the stored index can hold. -/
def PublicCertificate.EndsWithin (c : PublicCertificate) : Prop :=
  ∃ t, (c.endTime.getD {}).toInstant = .ok t ∧
    Int64.minValue.toInt < t.nanos ∧ t.nanos < Int64.maxValue.toInt

theorem PublicCertificate.EndsWithin.stops {c : PublicCertificate} (h : c.EndsWithin) :
    (c.endTime.getD {}).toInstant = .ok c.stop := by
  obtain ⟨t, ends, _⟩ := h
  rw [stop, ends]
  rfl

theorem PublicCertificate.EndsWithin.range {c : PublicCertificate} (h : c.EndsWithin) :
    Int64.minValue.toInt ≤ c.stop.nanos ∧ c.stop.nanos ≤ Int64.maxValue.toInt := by
  have stops := h.stops
  obtain ⟨t, ends, low, high⟩ := h
  rw [ends] at stops
  rw [← Except.ok.inj stops]
  exact ⟨Int.le_of_lt low, Int.le_of_lt high⟩

namespace Rows

/-- Every row stands under its own id and ends where the index can hold it. -/
def InOrder (rows : Rows) : Prop :=
  ∀ id row, rows.find? id = some row → row.secretId = id ∧ row.EndsWithin

theorem inOrder_empty : InOrder .empty := by
  intro id row found
  cases found

theorem find?_upsert (rows : Rows) (cs : List PublicCertificate) (id : Bytes) :
    (rows.upsert cs).find? id =
      (List.lookup id (cs.map fun c => (c.secretId, c)).reverse).or (rows.find? id) :=
  SortedMap.find?_insertAll rows _ id

/-- What holds of all rows and of new certificates holds of the rows with them. -/
theorem forall_upsert {P : Bytes → PublicCertificate → Prop} {rows : Rows}
    {cs : List PublicCertificate} (old : ∀ id row, rows.find? id = some row → P id row)
    (new : ∀ c ∈ cs, P c.secretId c) : ∀ id row, (rows.upsert cs).find? id = some row → P id row := by
  intro id row found
  rw [find?_upsert, Option.or_eq_some_iff] at found
  rcases found with added | ⟨_, kept⟩
  · have member := List.mem_reverse.1 (SortedMap.mem_of_lookup added)
    obtain ⟨c, own, same⟩ := List.mem_map.1 member
    cases same
    exact new _ own
  · exact old id row kept

theorem InOrder.upsert {rows : Rows} {cs : List PublicCertificate} (inOrder : rows.InOrder)
    (within : ∀ c ∈ cs, c.EndsWithin) : (rows.upsert cs).InOrder :=
  forall_upsert inOrder fun c own => ⟨rfl, within c own⟩

theorem find?_removeAll (rows : Rows) (ids : List Bytes) (id : Bytes) :
    (rows.removeAll ids).find? id = if id ∈ ids then none else rows.find? id := by
  induction ids generalizing rows with
  | nil => rfl
  | cons x ids ih =>
      have step : rows.removeAll (x :: ids) = removeAll (rows.erase x) ids := rfl
      rw [step, ih, SortedMap.find?_erase]
      by_cases same : id = x
      · simp [same]
      · simp [same]

theorem forall_removeAll {P : Bytes → PublicCertificate → Prop} {rows : Rows}
    (all : ∀ id row, rows.find? id = some row → P id row) (ids : List Bytes) :
    ∀ id row, (rows.removeAll ids).find? id = some row → P id row := by
  intro id row found
  rw [find?_removeAll] at found
  split at found
  · cases found
  · exact all id row found

theorem InOrder.removeAll {rows : Rows} (inOrder : rows.InOrder) (ids : List Bytes) :
    (rows.removeAll ids).InOrder := forall_removeAll inOrder ids

end Rows

namespace Expirations

variable {es es' : Expirations} {rows : Rows}

theorem naturalOf?_toDigits (n : Nat) : naturalOf? (Nat.toDigits 10 n) = some n := by
  have filled : (Nat.toDigits 10 n).isEmpty = false :=
    List.isEmpty_eq_false_iff.2 Nat.toDigits_ne_nil
  have digits : (Nat.toDigits 10 n).all Char.isDigit = true := by
    apply List.all_eq_true.2
    intro c member
    exact Nat.isDigit_of_mem_toDigits (by decide) (by decide) member
  have value : (Nat.toDigits 10 n).foldl (fun n c => n * 10 + (c.toNat - 48)) 0 =
      Nat.ofDigitChars 10 (Nat.toDigits 10 n) 0 := by
    unfold Nat.ofDigitChars
    congr 1
    funext n c
    rw [Nat.mul_comm]
    rfl
  rw [naturalOf?, filled, digits, value, Nat.ofDigitChars_toDigits (by decide) (by decide)]
  rfl

/-- Digits do not start with a sign. -/
theorem toDigits_eq_cons (n : Nat) :
    ∃ c rest, Nat.toDigits 10 n = c :: rest ∧ c ≠ '-' ∧ c ≠ '+' := by
  cases shape : Nat.toDigits 10 n with
  | nil => exact absurd shape Nat.toDigits_ne_nil
  | cons c rest =>
      have digit : c.isDigit = true :=
        Nat.isDigit_of_mem_toDigits (b := 10) (n := n) (by decide) (by decide)
          (shape ▸ List.mem_cons_self)
      refine ⟨c, rest, rfl, ?_, ?_⟩
      · rintro rfl
        cases digit
      · rintro rfl
        cases digit

theorem int64Of?_toString (n : Int64) : int64Of? (toString n.toInt) = some n := by
  have low := n.le_toInt
  have high := n.toInt_lt
  have within : -9223372036854775808 ≤ n.toInt ∧ n.toInt ≤ 9223372036854775807 := by
    constructor
    · omega
    · omega
  have fits : ∀ k : Int, k = n.toInt →
      (if -9223372036854775808 ≤ k ∧ k ≤ 9223372036854775807 then some (Int64.ofInt k) else none) =
        some n := by
    rintro k rfl
    rw [if_pos within, Int64.ofInt_toInt]
  have written : (toString n.toInt).toList =
      if 0 ≤ n.toInt then Nat.toDigits 10 n.toInt.toNat
      else '-' :: Nat.toDigits 10 (-n.toInt).toNat := by
    rw [Int.toString_eq_repr, Int.repr_eq_if]
    split
    · exact Nat.toList_repr
    · rw [String.toList_append, Nat.toList_repr]
      rfl
  unfold int64Of?
  rw [written]
  by_cases positive : 0 ≤ n.toInt
  · rw [if_pos positive]
    obtain ⟨c, rest, shape, notMinus, notPlus⟩ := toDigits_eq_cons n.toInt.toNat
    have whole := naturalOf?_toDigits n.toInt.toNat
    rw [shape] at whole ⊢
    dsimp only
    split
    · next same => exact absurd (List.cons.inj same).1 notMinus
    · next same => exact absurd (List.cons.inj same).1 notPlus
    · rw [whole]
      exact fits _ (Int.toNat_of_nonneg positive)
  · rw [if_neg positive]
    have back : -((-n.toInt).toNat : Int) = n.toInt := by omega
    have read := naturalOf?_toDigits (-n.toInt).toNat
    dsimp only
    split
    · next same =>
        rw [← (List.cons.inj same).2, read]
        exact fits _ back
    · next same => exact absurd (List.cons.inj same).1 (by decide)
    · next other _ => exact absurd rfl (other _)

/-- In the order of the ends. -/
def Sorted (es : Expirations) : Prop := es.Pairwise fun a b => a.2 ≤ b.2

theorem sort_eq_insertionSort (es : Expirations) :
    sort es = es.insertionSort fun a b => a.2 ≤ b.2 := by
  induction es with
  | nil => rfl
  | cons e es ih =>
      rw [List.insertionSort_cons, List.orderedInsert_eq_take_drop, ← ih]
      rfl

theorem sort_perm (es : Expirations) : (sort es).Perm es :=
  sort_eq_insertionSort es ▸ List.perm_insertionSort _ es

theorem sorted_sort (es : Expirations) : Sorted (sort es) := by
  have trans : IsTrans (Bytes × Instant) fun a b => a.2 ≤ b.2 := ⟨fun _ _ _ => Int.le_trans⟩
  have total : Std.Total fun a b : Bytes × Instant => a.2 ≤ b.2 :=
    ⟨fun a b => Int.le_total a.2.nanos b.2.nanos⟩
  exact sort_eq_insertionSort es ▸ List.pairwise_insertionSort _ es

theorem ofCertificates_ok {cs : List PublicCertificate} (within : ∀ c ∈ cs, c.EndsWithin) :
    ofCertificates cs = .ok (cs.map fun c => (c.secretId, c.stop)) := by
  induction cs with
  | nil => rfl
  | cons c cs ih =>
      rw [List.forall_mem_cons] at within
      rw [ofCertificates, within.1.stops, ih within.2]
      rfl

/-- Ends that a 64-bit number holds are far from the end of the clock. -/
theorem takeExpired_ok (now : Instant) (range : ∀ e ∈ es, e.2.nanos ≤ Int64.maxValue.toInt) :
    ∃ expired, takeExpired now es = .ok expired := by
  induction es with
  | nil => exact ⟨[], rfl⟩
  | cons e rest ih =>
      rw [List.forall_mem_cons] at range
      obtain ⟨more, rest'⟩ := ih range.2
      have far : Int64.maxValue.toInt + Validity.tolerance < 9223372036854775808000000000 := by
        decide
      obtain ⟨limit, ends⟩ := Instant.plus_ok (t := e.2) (d := Validity.tolerance) (by omega)
      have expires : Validity.isExpired now e.2 true = .ok (decide (limit ≤ now)) := by
        rw [Validity.isExpired, Validity.limit, if_pos rfl, ends]
        rfl
      rw [takeExpired, expires, rest']
      cases decide (limit ≤ now) with
      | false => exact ⟨_, rfl⟩
      | true => exact ⟨_, rfl⟩

theorem sorted_ofJson (stored : Option Json) : Sorted (ofJson stored) := by
  unfold ofJson
  split
  · next members =>
      cases members.mapM entryOf? with
      | none => exact List.Pairwise.nil
      | some es => exact sorted_sort es
  · exact List.Pairwise.nil

/-- How an entry is stored. -/
def written (e : Bytes × Instant) : String × Json :=
  (Base64Url.encode e.1, .str (toString e.2.toUnixNanos.toInt))

/-- An entry is read back with what a 64-bit number has kept of its end. -/
theorem entryOf?_written (e : Bytes × Instant) :
    entryOf? (written e) = some (e.1, .ofUnixNanos e.2.toUnixNanos) := by
  rw [entryOf?, written, Base64Url.decode_encode]
  show ((int64Of? (toString e.2.toUnixNanos.toInt)).bind fun nanos =>
    some (e.1, Instant.ofUnixNanos nanos)) = some (e.1, .ofUnixNanos e.2.toUnixNanos)
  rw [int64Of?_toString, Option.bind_some]

theorem encode_injective (a b : Bytes) (same : Base64Url.encode a = Base64Url.encode b) : a = b := by
  have back := congrArg Base64Url.decode same
  rw [Base64Url.decode_encode, Base64Url.decode_encode] at back
  exact Option.some.inj back

theorem toJson_eq (es : Expirations) :
    es.toJson = .obj (SortedMap.ofList (es.map written)).entries := Json.ofMembers_eq (es.map written)

/-- The last entry of an id is the one that is stored for it. -/
theorem find?_written (es : Expirations) (id : Bytes) :
    (SortedMap.ofList (es.map written)).find? (Base64Url.encode id) =
      (List.lookup id es.reverse).map fun t => (written (id, t)).2 := by
  rw [SortedMap.ofList, SortedMap.find?_insertAll, SortedMap.find?_empty, Option.or_none,
    ← List.map_reverse]
  exact SortedMap.lookup_map_keys encode_injective id
    (fun t => Json.str (toString t.toUnixNanos.toInt)) es.reverse

theorem mem_written_iff {m : String × Json} :
    m ∈ (SortedMap.ofList (es.map written)).entries ↔
      ∃ e, List.lookup e.1 es.reverse = some e.2 ∧ written e = m := by
  constructor
  · intro member
    obtain ⟨name, value⟩ := m
    have stored := SortedMap.find?_eq_some_iff.2 member
    have entry := stored
    rw [SortedMap.ofList, SortedMap.find?_insertAll, SortedMap.find?_empty, Option.or_none] at entry
    obtain ⟨x, _, own⟩ := List.mem_map.1 (List.mem_reverse.1 (SortedMap.mem_of_lookup entry))
    obtain ⟨rfl, _⟩ := Prod.mk.inj own
    rw [find?_written] at stored
    obtain ⟨t, last, rfl⟩ := Option.map_eq_some_iff.1 stored
    exact ⟨(x.1, t), last, rfl⟩
  · rintro ⟨e, last, rfl⟩
    apply SortedMap.find?_eq_some_iff.1
    show SortedMap.find? _ (Base64Url.encode e.1) = _
    rw [find?_written, last]
    rfl

theorem ofJson_toJson (es : Expirations) : ofJson (some es.toJson) =
    sort ((SortedMap.ofList (es.map written)).entries.map fun m => (entryOf? m).getD default) := by
  rw [toJson_eq, ofJson, mapM_eq_some (g := fun m => (entryOf? m).getD default)]
  · rfl
  · intro m member
    obtain ⟨e, _, rfl⟩ := mem_written_iff.1 member
    rw [entryOf?_written]
    rfl

/-- A stored index gives back the last entry of every id, and of its end what a 64-bit number keeps. -/
theorem mem_ofJson_toJson_iff {e : Bytes × Instant} : e ∈ ofJson (some es.toJson) ↔
    (List.lookup e.1 es.reverse).map (fun t => .ofUnixNanos t.toUnixNanos) = some e.2 := by
  rw [ofJson_toJson, (sort_perm _).mem_iff, List.mem_map, Option.map_eq_some_iff]
  constructor
  · rintro ⟨m, member, read⟩
    obtain ⟨x, last, rfl⟩ := mem_written_iff.1 member
    rw [entryOf?_written] at read
    cases read
    exact ⟨x.2, last, rfl⟩
  · rintro ⟨t, last, kept⟩
    refine ⟨written (e.1, t), mem_written_iff.2 ⟨(e.1, t), last, rfl⟩, ?_⟩
    rw [entryOf?_written]
    exact Prod.ext rfl kept

theorem keys_nodup_ofJson_toJson (es : Expirations) :
    ((ofJson (some es.toJson)).map Prod.fst).Nodup := by
  have names : ((SortedMap.ofList (es.map written)).entries.map fun m =>
      Base64Url.encode ((entryOf? m).getD default).1).Nodup := by
    refine (congrArg List.Nodup (List.map_congr_left fun m member => ?_)).mp
      (SortedMap.keys_nodup (SortedMap.ofList (es.map written)))
    obtain ⟨e, _, rfl⟩ := mem_written_iff.1 member
    rw [entryOf?_written]
    rfl
  rw [ofJson_toJson, ((sort_perm _).map Prod.fst).nodup_iff, List.map_map]
  exact List.pairwise_map.2 ((List.pairwise_map.1 names).imp fun other same =>
    other (congrArg Base64Url.encode same))

/-- An index that was stored is read back with the same entries. -/
theorem ofJson_toJson_perm (distinct : (es.map Prod.fst).Nodup)
    (range : ∀ e ∈ es, Int64.minValue.toInt ≤ e.2.nanos ∧ e.2.nanos ≤ Int64.maxValue.toInt) :
    (ofJson (some es.toJson)).Perm es := by
  have reversed : (es.reverse.map Prod.fst).Nodup :=
    ((List.reverse_perm es).map Prod.fst).nodup_iff.2 distinct
  refine (List.perm_ext_iff_of_nodup (SortedMap.nodup_of_keys (keys_nodup_ofJson_toJson es))
    (SortedMap.nodup_of_keys distinct)).2 fun e => ?_
  rw [mem_ofJson_toJson_iff, Option.map_eq_some_iff]
  simp only [SortedMap.lookup_eq_some_iff reversed, List.mem_reverse]
  have kept (t : Instant) (own : (e.1, t) ∈ es) : Instant.ofUnixNanos t.toUnixNanos = t :=
    Instant.ofUnixNanos_toUnixNanos (range _ own).1 (range _ own).2
  constructor
  · rintro ⟨t, own, same⟩
    rw [kept t own] at same
    subst same
    exact own
  · intro own
    exact ⟨e.2, own, kept e.2 own⟩

/-- An index has the ids and ends of rows, each once and in the order of the ends. -/
structure Mirrors (es : Expirations) (rows : Rows) : Prop where
  sorted : es.Sorted
  distinct : (es.map Prod.fst).Nodup
  mem : ∀ id t, (id, t) ∈ es ↔ (rows.find? id).map PublicCertificate.stop = some t

namespace Mirrors

theorem nil : Mirrors [] .empty where
  sorted := List.Pairwise.nil
  distinct := List.Pairwise.nil
  mem _ _ := ⟨fun h => (List.not_mem_nil h).elim, fun h => nomatch h⟩

theorem lookup (h : es.Mirrors rows) (id : Bytes) :
    List.lookup id es = (rows.find? id).map PublicCertificate.stop := by
  apply Option.ext
  intro t
  exact (SortedMap.lookup_eq_some_iff h.distinct).trans (h.mem id t)

theorem ofEntries {m : SortedMap Bytes Instant}
    (same : ∀ id, m.find? id = (rows.find? id).map PublicCertificate.stop) :
    (sort m.entries).Mirrors rows where
  sorted := sorted_sort _
  distinct := ((sort_perm _).map Prod.fst).nodup_iff.2 (SortedMap.keys_nodup m)
  mem id t := by
    rw [(sort_perm _).mem_iff, ← SortedMap.find?_eq_some_iff, same]

theorem merge {cs : List PublicCertificate} (h : es.Mirrors rows) :
    (es.merge (cs.map fun c => (c.secretId, c.stop))).Mirrors (rows.upsert cs) := by
  apply ofEntries
  intro id
  have new : (cs.map fun c => (c.secretId, c.stop)).reverse =
      (cs.map fun c => (c.secretId, c)).reverse.map fun e => (e.1, PublicCertificate.stop e.2) := by
    rw [← List.map_reverse, ← List.map_reverse, List.map_map]
    rfl
  rw [SortedMap.find?_insertMissing, SortedMap.ofList, SortedMap.find?_insertAll, h.lookup,
    SortedMap.find?_empty, Option.or_none, Rows.find?_upsert, Option.map_or, new,
    SortedMap.lookup_map]

theorem remove (h : es.Mirrors rows) (ids : List Bytes) :
    Mirrors (es.filter fun e => !ids.contains e.1) (rows.removeAll ids) where
  sorted := h.sorted.filter _
  distinct := h.distinct.sublist (List.filter_sublist.map _)
  mem id t := by
    rw [List.mem_filter, h.mem, Rows.find?_removeAll]
    by_cases removed : id ∈ ids
    · simp [removed]
    · simp [removed]

theorem of_perm (h : es.Mirrors rows) (same : es'.Perm es) (sorted : es'.Sorted) :
    es'.Mirrors rows where
  sorted := sorted
  distinct := (same.map Prod.fst).nodup_iff.2 h.distinct
  mem id t := by rw [same.mem_iff, h.mem]

theorem range (h : es.Mirrors rows) (inOrder : rows.InOrder) :
    ∀ e ∈ es, Int64.minValue.toInt ≤ e.2.nanos ∧ e.2.nanos ≤ Int64.maxValue.toInt := by
  intro e member
  obtain ⟨row, found, ends⟩ := Option.map_eq_some_iff.1 ((h.mem e.1 e.2).1 member)
  rw [← ends]
  exact (inOrder e.1 row found).2.range

/-- An index that mirrors rows is, but for the order, the list of their ids and ends. -/
theorem perm_rows (h : es.Mirrors rows) (inOrder : rows.InOrder) :
    es.Perm (rows.values.map fun row => (row.secretId, row.stop)) := by
  have keyed : rows.values.map (fun row => (row.secretId, row.stop)) =
      rows.entries.map fun e => (e.1, e.2.stop) := by
    rw [SortedMap.values, List.map_map]
    refine List.map_congr_left fun e entry => ?_
    exact congrArg (·, e.2.stop) (inOrder e.1 e.2 (SortedMap.find?_eq_some_iff.2 entry)).1
  rw [keyed]
  refine (List.perm_ext_iff_of_nodup (SortedMap.nodup_of_keys h.distinct) ?_).2 fun e => ?_
  · apply SortedMap.nodup_of_keys
    rw [List.map_map]
    exact SortedMap.keys_nodup rows
  · rw [h.mem, Option.map_eq_some_iff, List.mem_map]
    constructor
    · rintro ⟨row, found, ends⟩
      exact ⟨(e.1, row), SortedMap.find?_eq_some_iff.1 found, Prod.ext rfl ends⟩
    · rintro ⟨x, entry, rfl⟩
      exact ⟨x.2, SortedMap.find?_eq_some_iff.2 entry, rfl⟩

end Mirrors
end Expirations
end ProximityCert

import ProximityCert.Proofs.Certificate.Opening
import ProximityCert.Proofs.Storage.Batches

/-!
How the window of a published certificate lies to that of the private one. Its bounds are shifted apart by
up to two hours and then cut to whole seconds, so it may end almost a second too early. The tolerance of a
peer makes up for that unless its clock is off by almost the whole of it.
-/

namespace ProximityCert

def Duration.second : Duration := ofSeconds 1

/-- Two clocks differ by no more than the tolerance less a second. -/
def Instant.Near (peer t : Instant) : Prop :=
  (peer.nanos - t.nanos).natAbs + Duration.second ≤ Validity.tolerance

namespace PrivateCertificate

/-- A published window begins no later than the private one, and ends no more than a fraction of a second
before it; neither bound is further away than it may be shifted, but for such a fraction. -/
structure Frames (c : PrivateCertificate) (start stop : Instant) : Prop where
  opens : start ≤ c.notBefore
  soon : c.notBefore.nanos < start.nanos + maxBoundOffset + Duration.second
  lasts : c.notAfter.nanos - Duration.second < stop.nanos
  ends : stop.nanos < c.notAfter.nanos + maxBoundOffset
  ordered : start < stop

/-- The bounds of a certificate leave room to be shifted, and more. -/
structure Roomy (c : PrivateCertificate) : Prop where
  early : maxBoundOffset ≤ c.notBefore.nanos
  late : c.notAfter.nanos + Duration.ofHours 24 ≤ Int64.maxValue.toInt

variable {c : PrivateCertificate} {start stop t peer : Instant} {p : PublicCertificate}
    {before after : Duration}

/-- The spans that windows are measured with. -/
theorem spans : (maxBoundOffset : Int) = 7200000000000 ∧ (validityPeriod : Int) = 259200000000000 ∧
    (Validity.tolerance : Int) = 1800000000000 ∧ (Duration.second : Int) = 1000000000 ∧
    (Duration.ofHours 24 : Int) = 86400000000000 ∧ Int64.maxValue.toInt = 9223372036854775807 :=
  ⟨rfl, rfl, rfl, rfl, rfl, rfl⟩

theorem Frames.inTime (h : c.Frames start stop) (room : c.Roomy) : stop.InTime := by
  have sizes := spans
  have late := room.late
  have ends := h.ends
  show stop.nanos + (Validity.tolerance : Int) < 9223372036854775808000000000
  omega

/-- In a private window, a peer whose clock is less wrong than its tolerance less a second is in the
published one. -/
theorem Frames.contains (h : c.Frames start stop) (room : c.Roomy)
    (valid : Validity.contains t c.notBefore c.notAfter false = .ok true)
    (near : peer.Near t) :
    Validity.contains peer start stop true = .ok true ∧ ¬ stop.Lapsed peer := by
  have sizes := spans
  rw [Validity.contains_exactly] at valid
  obtain ⟨begun, unfinished⟩ := of_decide_eq_true (Except.ok.inj valid)
  have begun : c.notBefore.nanos ≤ t.nanos := begun
  have unfinished : t.nanos < c.notAfter.nanos := unfinished
  have near : (peer.nanos - t.nanos).natAbs + Duration.second ≤ Validity.tolerance := near
  have opens : start.nanos ≤ c.notBefore.nanos := h.opens
  have soon := h.soon
  have lasts := h.lasts
  have early := room.early
  have young : ¬ stop.Lapsed peer := by
    show ¬ stop.nanos + (Validity.tolerance : Int) ≤ peer.nanos
    omega
  have first : (start.minus? Validity.tolerance).map Instant.nanos =
      some (start.nanos - Validity.tolerance) := by
    have upper := start.upper
    rw [Instant.minus?, Instant.ofNanos?, dif_pos ⟨by omega, by omega⟩]
    rfl
  obtain ⟨opening, begins, opensAt⟩ := Option.map_eq_some_iff.1 first
  have inside : Validity.opening start true ≤ peer := by
    rw [Validity.opening, if_pos rfl, begins]
    show opening.nanos ≤ peer.nanos
    omega
  refine ⟨?_, young⟩
  rw [Validity.contains, if_pos inside, Validity.isExpired_of_inTime (h.inTime room)]
  simp [young, Except.map]

/-- The bounds of a public form, once they are read back. -/
theorem frames_of_toPublic (room : c.Roomy) (period : c.notAfter.nanos = c.notBefore.nanos + validityPeriod)
    (below : before < maxBoundOffset) (above : after < maxBoundOffset) :
    ∃ form, c.toPublic before after = .ok form ∧
      ((Message.encode c.metadata).length ≤ Gcm.maxLength → form.isSome = true) ∧
      ∀ p ∈ form, ∃ start stop, p.startTime.map Timestamp.toInstant = some (.ok start) ∧
        p.endTime.map Timestamp.toInstant = some (.ok stop) ∧ c.Frames start stop := by
  have sizes := spans
  have early := room.early
  have late := room.late
  have below : (before : Int) < maxBoundOffset := Int.ofNat_lt.2 below
  have above : (after : Int) < maxBoundOffset := Int.ofNat_lt.2 above
  obtain ⟨opening, begins, openingNanos⟩ :=
    Instant.minus?_ok (t := c.notBefore) (d := before) (by omega)
  obtain ⟨closing, ends⟩ := Instant.plus_ok (t := c.notAfter) (d := after) (by omega)
  have closingNanos := Instant.nanos_plus ends
  obtain ⟨start, startTime, startNanos⟩ := Timestamp.toInstant_ofInstant (t := opening) (by omega)
  obtain ⟨stop, endTime, stopNanos⟩ := Timestamp.toInstant_ofInstant (t := closing) (by omega)
  have frames : c.Frames start stop := by
    constructor
    · show start.nanos ≤ c.notBefore.nanos
      omega
    · omega
    · omega
    · omega
    · show start.nanos < stop.nanos
      omega
  unfold toPublic
  cases hidden : Material.sealMetadata c.metadataKey c.secretKey (Message.encode c.metadata) with
  | error f =>
      refine ⟨none, rfl, fun short => ?_, fun p absent => nomatch absent⟩
      obtain ⟨sealed, done⟩ := Material.sealMetadata_ok c.metadataKey c.secretKey short
      exact nomatch hidden.symm.trans done
  | ok sealed =>
      rw [begins, ends]
      refine ⟨_, rfl, fun _ => rfl, fun p same => ?_⟩
      cases same
      exact ⟨start, stop, congrArg some startTime, congrArg some endTime, frames⟩

end PrivateCertificate

/-- The first entry that has not lapsed ends no later than any other such entry. -/
theorem Expirations.Sorted.first_le {es : Expirations} {e x : Bytes × Instant} {now : Instant}
    (sorted : es.Sorted) (member : x ∈ es) (young : ¬ x.2.Lapsed now)
    (first : es.find? (fun e => !decide (e.2.Lapsed now)) = some e) : e.2 ≤ x.2 := by
  obtain ⟨-, before, after, split, lapsed⟩ := List.find?_eq_some_iff_append.1 first
  rw [split] at member sorted
  rcases List.mem_append.1 member with old | own
  · have past := lapsed x old
    simp [young] at past
  · rcases List.mem_cons.1 own with rfl | behind
    · exact Int.le_refl _
    · exact (List.pairwise_cons.1 (List.pairwise_append.1 sorted).2.1).1 x behind

namespace Store

/-- An open store has a certificate among its rows, and in its index under its own end only. -/
structure Lists (s : Store) (c : PublicCertificate) : Prop where
  opened : s.openState = .initialized
  row : s.database.held.find? c.secretId = some c
  entry : ∀ t, (c.secretId, t) ∈ s.expirations ↔ t = c.stop
  sorted : s.expirations.Sorted

variable {s s₁ : Store} {c : PublicCertificate} {now : Instant}

/-- The last of its id among added certificates is listed. -/
theorem lists_of_addPublic {earlier later : List PublicCertificate}
    (last : ∀ d ∈ later, d.secretId ≠ c.secretId)
    (added : s.addPublic (earlier ++ c :: later) = .ok (.ok (), s₁)) : s₁.Lists c := by
  rcases addPublic_cases added with ⟨_, failed⟩ | ⟨new, opened, ends, write⟩
  · exact (failed rfl).elim
  · cases write with
    | done taken =>
        refine ⟨opened, ?_, fun t => ?_, Expirations.sorted_sort _⟩
        · show (s.ensureOpen.2.database.update _).2.held.find? _ = _
          rw [Database.held_of_update taken, Rows.find?_upsert, List.map_append, List.map_cons,
            SortedMap.lookup_reverse, Option.some_or]
          intro e member
          obtain ⟨d, own, rfl⟩ := List.mem_map.1 member
          exact last d own
        · show (c.secretId, t) ∈ s.ensureOpen.2.expirations.merge new ↔ _
          rw [Expirations.mem_merge_iff, Expirations.eq_of_ofCertificates ends, List.map_append,
            List.map_cons, SortedMap.lookup_reverse, Option.some_or, Option.some.injEq, eq_comm]
          intro x inside
          obtain ⟨d, behind, rfl⟩ := List.mem_map.1 inside
          exact last d behind

/-- A clean-up leaves what is listed while its end has not lapsed. It stops at that end, so it does not
look at ends that are too late to be looked at. -/
theorem Lists.removeExpiredPublic (h : s.Lists c) (inTime : c.stop.InTime) (young : ¬ c.stop.Lapsed now) :
    ∃ r s', s.removeExpiredPublic now = .ok (r, s') ∧ s'.Lists c := by
  have own : (c.secretId, c.stop) ∈ s.expirations := (h.entry _).2 rfl
  have opens := ensureOpen_of_opened h.opened
  have completes : Completes (s.removeExpiredPublic now) := by
    refine completes_removeExpiredPublic.2 fun _ e first => ?_
    rw [opens] at first
    have before := h.sorted.first_le own young first
    exact Int.lt_of_le_of_lt (Int.add_le_add_right before _) inTime
  obtain ⟨⟨r, s'⟩, done⟩ := completes
  refine ⟨r, s', done, ?_⟩
  rcases removeExpiredPublic_cases done with ⟨same, _⟩ | ⟨expired, _, taken, write⟩
  · rw [opens] at same
    exact same ▸ h
  · rw [opens] at taken write
    have spared : c.secretId ∉ expired.map Prod.fst := by
      intro member
      obtain ⟨e, gone, own⟩ := List.mem_map.1 member
      obtain ⟨inside, lapsed⟩ := Expirations.lapsed_of_takeExpired taken e gone
      have inside : (c.secretId, e.2) ∈ s.expirations := own ▸ inside
      exact young ((h.entry e.2).1 inside ▸ lapsed)
    have row : (s.database.update fun rows => rows.removeAll (expired.map Prod.fst)).2.held.find?
        c.secretId = some c := by
      rcases s.database.held_update fun rows => rows.removeAll (expired.map Prod.fst) with same | changed
      · rw [same]
        exact h.row
      · rw [changed, Rows.find?_removeAll, if_neg spared]
        exact h.row
    cases write with
    | failed _ => exact ⟨h.opened, row, h.entry, h.sorted⟩
    | done _ =>
        refine ⟨h.opened, row, fun t => ?_, h.sorted.filter _⟩
        show (c.secretId, t) ∈ s.expirations.filter _ ↔ _
        rw [List.mem_filter, h.entry]
        simp [spared]

end Store

namespace PrivateCertificate

variable {v : Visibility} {opening t peer : Instant} {metadata : Metadata} {e e' : Entropy}
    {c : PrivateCertificate} {before after : Duration}

/-- The published window of a new certificate frames its private one. Whenever the private one is valid, a
peer whose clock is near finds the published one valid, and keeps what it has stored of it. -/
theorem published_covers (made : fresh v opening metadata e = .ok (c, e')) (room : c.Roomy)
    (below : before < maxBoundOffset) (above : after < maxBoundOffset) :
    ∃ form, c.toPublic before after = .ok form ∧
      ((Message.encode metadata).length ≤ Gcm.maxLength → form.isSome = true) ∧
      ∀ p ∈ form, ∃ start stop, p.startTime.map Timestamp.toInstant = some (.ok start) ∧
        p.endTime.map Timestamp.toInstant = some (.ok stop) ∧ c.Frames start stop ∧
        ∀ t peer, Validity.contains t c.notBefore c.notAfter false = .ok true → peer.Near t →
          Validity.contains peer start stop true = .ok true ∧
          ∀ (s s₁ : Store) (earlier later : List PublicCertificate),
            (∀ d ∈ later, d.secretId ≠ p.secretId) →
            s.addPublic (earlier ++ p :: later) = .ok (.ok (), s₁) →
            ∃ r s₂, s₁.removeExpiredPublic peer = .ok (r, s₂) ∧ s₂.Lists p := by
  obtain ⟨-, begins, period, told⟩ := fresh_ok made
  obtain ⟨form, published, shown, framed⟩ := frames_of_toPublic room (begins ▸ period) below above
  refine ⟨form, published, fun short => shown (told ▸ short), fun p member => ?_⟩
  obtain ⟨start, stop, starts, ends, frames⟩ := framed p member
  refine ⟨start, stop, starts, ends, frames, fun t peer valid near => ?_⟩
  obtain ⟨inside, young⟩ := frames.contains room valid near
  have same : p.stop = stop := by
    obtain ⟨m, endTime, reads⟩ := Option.map_eq_some_iff.1 ends
    rw [PublicCertificate.stop, endTime, Option.getD_some, reads]
    rfl
  refine ⟨inside, fun s s₁ earlier later last added => ?_⟩
  have lists := Store.lists_of_addPublic last added
  exact lists.removeExpiredPublic (same ▸ frames.inTime room) (same ▸ young)

/-- A certificate opens a nanosecond after the first moment at which it may, and is about to end; a clock
runs ahead by as much as it may. -/
def earliest : Instant := ⟨7200000000001, by decide, by decide⟩

def lastMoment : Instant := ⟨266400000000000, by decide, by decide⟩

def ahead : Instant := ⟨268199000000000, by decide, by decide⟩

theorem published_covers_lastMoment : ∃ c p start stop s₁ r s₂,
    (∃ e', fresh .allContacts earliest {} ⟨fun _ => 0, 0⟩ = .ok (c, e')) ∧
    c.toPublic 0 0 = .ok (some p) ∧
    Validity.contains lastMoment c.notBefore c.notAfter false = .ok true ∧ c.Frames start stop ∧
    Validity.contains ahead start stop true = .ok true ∧
    ({ database := .memory {} } : Store).addPublic [p] = .ok (.ok (), s₁) ∧
    s₁.removeExpiredPublic ahead = .ok (r, s₂) ∧ s₂.Lists p := by
  have makes : ∃ c e', fresh .allContacts earliest {} ⟨fun _ => 0, 0⟩ = .ok (c, e') := ⟨_, _, rfl⟩
  obtain ⟨c, e', made⟩ := makes
  obtain ⟨-, begins, period, -⟩ := fresh_ok made
  have opensAt : c.notBefore.nanos = 7200000000001 := congrArg Instant.nanos begins
  have closesAt : c.notAfter.nanos = 266400000000001 := period
  have room : c.Roomy := ⟨by rw [opensAt]; decide, by rw [closesAt]; decide⟩
  have unshifted : 0 < maxBoundOffset := by decide
  obtain ⟨form, published, shown, framed⟩ := published_covers made room unshifted unshifted
  obtain ⟨p, rfl⟩ := Option.isSome_iff_exists.1 (shown (by decide))
  obtain ⟨start, stop, -, ends, frames, covers⟩ := framed p rfl
  have valid : Validity.contains lastMoment c.notBefore c.notAfter false = .ok true := by
    rw [Validity.contains_exactly]
    refine congrArg Except.ok (decide_eq_true ⟨?_, ?_⟩)
    · show c.notBefore.nanos ≤ 266400000000000
      omega
    · show 266400000000000 < c.notAfter.nanos
      omega
  have near : ahead.Near lastMoment := by
    show (_ : Nat) ≤ _
    decide
  obtain ⟨inside, stays⟩ := covers lastMoment ahead valid near
  have held : ∀ d ∈ [p], (d.endTime.getD {}).Held := by
    intro d member
    rw [List.mem_singleton.1 member]
    obtain ⟨m, endTime, reads⟩ := Option.map_eq_some_iff.1 ends
    rw [endTime]
    exact Timestamp.completes_toInstant.1 ⟨stop, reads⟩
  have added := Store.addPublic_eq (s := { database := .memory {} }) rfl held
  obtain ⟨r, s₂, removed, lists⟩ := stays _ _ [] [] (List.forall_mem_nil _) added
  exact ⟨c, p, start, stop, _, r, s₂, ⟨e', made⟩, published, valid, frames, inside, added, removed,
    lists⟩

end PrivateCertificate
end ProximityCert

import ProximityCert.Manager.Basic
import ProximityCert.Proofs.Storage.Faults

/-!
What becomes of downloaded certificates: they are stored, the next cleanup is planned, expired ones are
removed, and an advertised key is tried on every row that is left. Which times on the wire let all of
this complete is stated exactly; some do not, so peers can end the work of a manager.
-/

namespace ProximityCert

theorem Manager.completes_cleanupDue {s : Store} :
    Completes (cleanupDue s) ↔ ∀ e ∈ s.expirations.head?, e.2.InTime := by
  unfold cleanupDue Store.nextPublicEnd
  cases s.expirations.head? with
  | none =>
      constructor
      · intro _ e first
        cases first
      · intro _
        exact completes_ok none
  | some e =>
      simp only [Option.map_some, Option.mem_some_iff, forall_eq']
      rw [completes_map, Instant.completes_plus]
      rfl

/-- Downloaded certificates, with the clock and a key that is looked for when they have come. -/
structure Delivery where
  certificates : List PublicCertificate
  now : Instant
  key : EncryptedMetadataKey

def Delivery.Timely (d : Delivery) : Prop := ∀ c ∈ d.certificates, c.Timely

/-- What came of a delivery. -/
structure Intake where
  added : Except Failure Unit
  due : Option Instant
  removed : Except Failure Unit
  /-- What the key opened, row by row. -/
  found : Except Failure (List (Option DecryptedCertificate))

namespace Store

variable {s s' : Store} {d : Delivery}

/-- Tries a key on every row. -/
def tryKey (key : EncryptedMetadataKey) :
    Except Failure (List PublicCertificate) → Except ClockFault (Except Failure (List (Option DecryptedCertificate)))
  | .error f => .ok (.error f)
  | .ok rows => (rows.mapM fun c => DecryptedCertificate.ofPublic c key).map .ok

/-- What follows once certificates have been stored. -/
def followUp (d : Delivery) (added : Except Failure Unit) (s : Store) : Except ClockFault (Intake × Store) := do
  let due ← Manager.cleanupDue s
  let (removed, s) ← s.removeExpiredPublic d.now
  let found ← tryKey d.key s.getPublic.1
  return ({ added, due, removed, found }, s.getPublic.2)

def takeIn (s : Store) (d : Delivery) : Except ClockFault (Intake × Store) :=
  s.addPublic d.certificates >>= fun r => followUp d r.1 r.2

def takeInAll : List Delivery → Store → Except ClockFault Store
  | [], s => .ok s
  | d :: ds, s => s.takeIn d >>= fun r => takeInAll ds r.2

theorem completes_tryKey {key : EncryptedMetadataKey} {rows : Except Failure (List PublicCertificate)} :
    Completes (tryKey key rows) ↔ ∀ cs, rows = .ok cs → ∀ c ∈ cs, c.Readable := by
  cases rows with
  | error f =>
      constructor
      · intro _ cs same
        cases same
      · intro _
        exact completes_ok (Except.error f)
  | ok cs =>
      rw [tryKey, completes_map, completes_mapM]
      constructor
      · rintro h cs' same
        cases same
        intro c own
        exact DecryptedCertificate.completes_ofPublic.1 (h c own)
      · intro h c own
        exact DecryptedCertificate.completes_ofPublic.2 (h cs rfl c own)

theorem completes_followUp {added : Except Failure Unit} :
    Completes (followUp d added s) ↔
      (∀ e ∈ s.expirations.head?, e.2.InTime) ∧
      (s.ensureOpen.1 = .ok () →
        ∀ e ∈ s.ensureOpen.2.expirations.find? (fun e => !decide (e.2.Lapsed d.now)), e.2.InTime) ∧
      ∀ removed s', s.removeExpiredPublic d.now = .ok (removed, s') →
        ∀ rows, s'.getPublic.1 = .ok rows → ∀ c ∈ rows, c.Readable := by
  unfold followUp
  rw [completes_bind, Manager.completes_cleanupDue]
  refine and_congr_right fun first => ?_
  obtain ⟨due, planned⟩ := Manager.completes_cleanupDue.2 first
  rw [← completes_removeExpiredPublic]
  constructor
  · intro rest
    have rest := completes_bind.1 (rest due planned)
    refine ⟨rest.1, ?_⟩
    intro removed s' done
    exact completes_tryKey.1 (completes_bind.1 (rest.2 (removed, s') done)).1
  · rintro ⟨removes, readable⟩ due _
    refine completes_bind.2 ⟨removes, ?_⟩
    rintro ⟨removed, s'⟩ done
    refine completes_bind.2 ⟨completes_tryKey.2 (readable removed s' done), ?_⟩
    intro found _
    exact completes_ok _

namespace Sound

theorem followUp (h : s.Sound) (d : Delivery) (added : Except Failure Unit) :
    ∃ r s', followUp d added s = .ok (r, s') ∧ s'.Sound := by
  have completes : Completes (Store.followUp d added s) := by
    refine completes_followUp.2 ⟨?_, ?_, ?_⟩
    · intro e first
      exact h.index e (List.mem_of_mem_head? first)
    · intro _ e found
      exact h.ensureOpen.index e (List.mem_of_find?_eq_some found)
    · intro removed s' done rows got
      exact (h.removeExpiredPublic done).readable_of_getPublic got
  obtain ⟨⟨r, s'⟩, done⟩ := completes
  refine ⟨r, s', done, ?_⟩
  obtain ⟨due, _, done⟩ := bind_eq_ok.1 done
  obtain ⟨⟨removed, s₁⟩, removes, done⟩ := bind_eq_ok.1 done
  obtain ⟨found, _, done⟩ := bind_eq_ok.1 done
  cases done
  exact (h.removeExpiredPublic removes).getPublic

/-- What keeps the tolerance from the end of the range does no harm, then or later. -/
theorem takeIn (h : s.Sound) (timely : d.Timely) :
    ∃ r s', s.takeIn d = .ok (r, s') ∧ s'.Sound := by
  obtain ⟨⟨added, s₁⟩, adds⟩ := (completes_addPublic (s := s)).2 fun _ c own => (timely c own).held
  obtain ⟨r, s', done, sound⟩ := (h.addPublic timely adds).followUp d added
  exact ⟨r, s', bind_eq_ok.2 ⟨(added, s₁), adds, done⟩, sound⟩

theorem takeInAll {ds : List Delivery} (h : s.Sound) (timely : ∀ d ∈ ds, d.Timely) :
    ∃ s', takeInAll ds s = .ok s' ∧ s'.Sound := by
  induction ds generalizing s with
  | nil => exact ⟨s, rfl, h⟩
  | cons d ds ih =>
      rw [List.forall_mem_cons] at timely
      obtain ⟨r, s₁, first, between⟩ := h.takeIn timely.1
      obtain ⟨s', rest, after⟩ := ih between timely.2
      exact ⟨s', bind_eq_ok.2 ⟨(r, s₁), first, rest⟩, after⟩

end Sound

/-- Taking a delivery in completes if and only if the clock holds what it meets in each of the four
parts: all ends that are stored, the first end of the index with tolerance, the first end that has not
lapsed, and the times of the rows. Deliveries that keep the tolerance are taken in one after the other. -/
theorem deliveries_complete (s : Store) :
    (∀ d : Delivery, Completes (s.takeIn d) ↔
      (s.ensureOpen.1 = .ok () → ∀ c ∈ d.certificates, (c.endTime.getD {}).Held) ∧
      ∀ added s₁, s.addPublic d.certificates = .ok (added, s₁) →
        (∀ e ∈ s₁.expirations.head?, e.2.InTime) ∧
        (s₁.ensureOpen.1 = .ok () →
          ∀ e ∈ s₁.ensureOpen.2.expirations.find? (fun e => !decide (e.2.Lapsed d.now)), e.2.InTime) ∧
        ∀ removed s₂, s₁.removeExpiredPublic d.now = .ok (removed, s₂) →
          ∀ rows, s₂.getPublic.1 = .ok rows → ∀ c ∈ rows, c.Readable) ∧
    (s.Sound → ∀ ds : List Delivery, (∀ d ∈ ds, d.Timely) →
      ∃ s', takeInAll ds s = .ok s' ∧ s'.Sound) := by
  refine ⟨fun d => ?_, fun sound ds timely => sound.takeInAll timely⟩
  unfold takeIn
  rw [completes_bind, completes_addPublic]
  refine and_congr_right fun _ => ?_
  constructor
  · intro h added s₁ done
    exact completes_followUp.1 (h (added, s₁) done)
  · rintro h ⟨added, s₁⟩ done
    exact completes_followUp.2 (h added s₁ done)

theorem timely_endingAt {id : UInt8} {seconds : Int64} (early : seconds.toInt ≤ 9223372036854774007) :
    (endingAt id seconds).Timely where
  start _ begins := nomatch begins
  stop := by
    show seconds.toInt * 1000000000 + 0 + 1800000000000 < 9223372036854775808000000000
    omega

/-- A new store without data. -/
def blank : Store := create .empty (.memory {}) 3

/-- The first and the last second that keep the tolerance, at different readings of the clock. -/
def remote : List Delivery :=
  [⟨[endingAt 1 Int64.minValue, endingAt 2 9223372036854774007], Instant.epoch, ⟨[], []⟩⟩,
    ⟨[endingAt 1 7], .ofUnixNanos Int64.maxValue, ⟨[], []⟩⟩]

theorem deliveries_complete_remote :
    blank.Sound ∧ (∀ d ∈ remote, d.Timely) ∧ ∃ s', takeInAll remote blank = .ok s' ∧ s'.Sound := by
  have sound : blank.Sound := .create (.ofMemory Rows.readable_empty) 3
  have timely : ∀ d ∈ remote, d.Timely := by
    simp [remote, Delivery.Timely, timely_endingAt]
  exact ⟨sound, timely, (deliveries_complete blank).2 sound remote timely⟩

/-- The last second, and the one after it to which nanoseconds carry, are too late for each part. -/
theorem last_second_faults :
    ¬ Completes (blank.takeIn ⟨[endingAt 1 Int64.maxValue], Instant.epoch, ⟨[], []⟩⟩) ∧
    Completes (blank.addPublic [endingAt 1 Int64.maxValue]) ∧
    ¬ Completes (blank.addPublic [endingAt 1 Int64.maxValue] >>= fun r => Manager.cleanupDue r.2) ∧
    ¬ Completes (blank.addPublic [endingAt 1 Int64.maxValue] >>= fun r =>
      r.2.removeExpiredPublic Instant.epoch) ∧
    ¬ Completes (blank.addPublic [{ endTime := some ⟨Int64.maxValue, 1000000000⟩ }]) ∧
    ¬ Completes (DecryptedCertificate.ofPublic
      { startTime := some ⟨Int64.maxValue, 1000000000⟩ } ⟨[], []⟩) := by
  decide +kernel

end Store
end ProximityCert

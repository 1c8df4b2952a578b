import ProximityCert.Proofs.Manager.Deadlines

/-!
Renewals of stores that somebody else has filled. What is left is counted in all, and filled up by
visibility: a store with as many certificates as there should be is left alone, however they are
distributed, and one with more than that, or with some of visibilities that none are made for, is written
and announced again each time. In every other respect any store that can be read is topped up.
-/

namespace ProximityCert

namespace Slot

open Manager (certificatesPerVisibility)

variable {metadata : Metadata} {e : Entropy} {slots : List Slot}

/-- A chain can be made if its last window ends while the clock still goes. -/
theorem completes_chain (v : Visibility) (metadata : Metadata) {n : Nat} {opensAt : Instant}
    {e : Entropy} (within : opensAt.nanos + n * (PrivateCertificate.validityPeriod : Int) <
      9223372036854775808000000000) : Completes (chain v metadata n opensAt e) := by
  induction n generalizing opensAt e with
  | zero => exact completes_ok _
  | succ n ih =>
      rw [Int.natCast_succ, Int.add_mul, Int.one_mul] at within
      have rest := Int.mul_nonneg (Int.natCast_nonneg n) (Int.le_of_lt Window.Row.positive)
      rw [chain, completes_bind]
      constructor
      · rw [PrivateCertificate.fresh, completes_map]
        exact Instant.plus_ok (by omega)
      · rintro ⟨c, e₁⟩ made
        obtain ⟨_, _, closes, _⟩ := PrivateCertificate.fresh_ok made
        refine completes_bind.2 ⟨ih ?_, fun _ _ => completes_ok _⟩
        omega

theorem completes_fillAll (metadata : Metadata) (e : Entropy)
    (ample : ∀ slot ∈ slots, slot.opensAt.Ample) : Completes (fillAll metadata slots e) := by
  induction slots generalizing e with
  | nil => exact completes_ok _
  | cons slot slots ih =>
      obtain ⟨first, rest⟩ := List.forall_mem_cons.1 ample
      rw [fillAll, completes_bind]
      refine ⟨completes_chain slot.visibility metadata ?_, fun r _ => ?_⟩
      · have few : certificatesPerVisibility - slot.count ≤ certificatesPerVisibility :=
          Nat.sub_le _ _
        have span := Int.mul_le_mul_of_nonneg_right (Int.ofNat_le.2 few)
          (Int.le_of_lt Window.Row.positive)
        have clock : Int64.maxValue.toInt < 9223372036854775808000000000 := by decide
        exact Int.lt_of_le_of_lt (Int.le_trans (Int.add_le_add_left span _) first.upper) clock
      · exact completes_bind.2 ⟨ih _ rest, fun _ _ => completes_ok _⟩

/-- Nothing is made for slots that lack nothing. -/
theorem fillAll_of_full (full : ∀ slot ∈ slots, certificatesPerVisibility ≤ slot.count) :
    fillAll metadata slots e = .ok ([], e) := by
  induction slots with
  | nil => rfl
  | cons slot slots ih =>
      obtain ⟨first, rest⟩ := List.forall_mem_cons.1 full
      rw [fillAll, fill, Nat.sub_eq_zero_of_le first, chain]
      dsimp only [bind, Except.bind]
      rw [ih rest]
      rfl

end Slot
namespace Manager

variable {m m' : Manager} {now again : Moment} {cs left new : List PrivateCertificate}
  {metadata : Metadata} {requestUpload : Bool}

theorem act_requestNow (m : Manager) (kind : TaskKind) (now : Moment) :
    ∃ m', m.act kind .requestNow now = .ok m' ∧ Kept m m' ∧ m'.observers = m.observers := by
  have kept := act_kept m kind .requestNow now
  unfold act at kept ⊢
  cases found : m.tasks.get kind with
  | recorded t =>
      rw [found] at kept
      exact ⟨_, rfl, kept, rfl⟩
  | scheduled s =>
      obtain ⟨r, done⟩ := s.completes_requestNow m.store.preferences (m.cadence kind) now
      have acts : s.act m.store.preferences (m.cadence kind) now .requestNow = .ok r := done
      rw [found] at kept
      dsimp only at kept ⊢
      rw [acts] at kept ⊢
      exact ⟨_, rfl, kept, rfl⟩

/-- What a renewal does last: observers are told, and the upload is asked for if it is to be. -/
def announce (m : Manager) (requestUpload : Bool) (now : Moment) : Except Interrupted Manager :=
  if requestUpload then (m.notify .privateChanged).act .upload .requestNow now
  else .ok (m.notify .privateChanged)

theorem announce_ok (m : Manager) (requestUpload : Bool) (now : Moment) :
    ∃ m', m.announce requestUpload now = .ok m' ∧ Kept m m' ∧
      m'.observers = m.observers.notify .privateChanged := by
  unfold announce
  have told := Kept.notify m .privateChanged
  split
  · obtain ⟨m', asks, kept, same⟩ := act_requestNow (m.notify .privateChanged) .upload now
    exact ⟨m', asks, told.trans kept, same⟩
  · exact ⟨_, rfl, told, rfl⟩

/-- How many certificates there are of a visibility. -/
def countOf (v : Visibility) (cs : List PrivateCertificate) : Nat :=
  cs.countP fun c => c.visibility = v

theorem countOf_append (v : Visibility) (cs ds : List PrivateCertificate) :
    countOf v (cs ++ ds) = countOf v cs + countOf v ds := List.countP_append

theorem length_of_windows (v : Visibility) (cs : List PrivateCertificate) :
    (Window.of v (cs.map PrivateCertificate.window)).length = countOf v cs := by
  rw [Window.of, List.filter_map, List.length_map, countOf, List.countP_eq_length_filter]
  rfl

/-- A renewal with too few or too many certificates left, in the order in which things are done. -/
theorem refresh_of_other (found : (m.weeded now).store.getPrivate = .ok left)
    (other : left.length ≠ certificateCount) (told : m.device.metadata? m.account = some metadata)
    {e : Entropy} (filled : Slot.fillAll metadata
      (Visibility.generated.map fun v => Slot.of v now.now left) m.entropy = .ok (new, e))
    (requestUpload : Bool) :
    m.refresh requestUpload now = ({ m.weeded now with
      entropy := e, store := (m.weeded now).store.replacePrivate (left ++ new) }.announce
        requestUpload now).map fun m' => (true, m') := by
  have loaded : (m.weeded now).loadPrivate now = .ok (some left, m.weeded now) := by
    rw [loadPrivate, found]
  unfold refresh
  dsimp only
  rw [← weeded, loaded]
  dsimp only [bind, Except.bind, Option.getD_some]
  rw [if_neg other, show (m.weeded now).device.metadata? (m.weeded now).account = _ from told]
  dsimp only
  rw [show Slot.fillAll _ _ (m.weeded now).entropy = _ from filled]
  dsimp only [attempt, Except.mapError]
  unfold announce
  cases requestUpload with
  | true =>
      rw [if_pos rfl, if_pos rfl]
      cases act _ .upload .requestNow now with
      | error e => rfl
      | ok m' => rfl
  | false => rfl

/-- What a renewal makes of the certificates that are left: they stay, and new ones join them. If they
are not as many as there should be, each visibility gets what it lacks, and observers are told. -/
structure Refilled (now : Instant) (left new : List PrivateCertificate) (m m' : Manager) : Prop where
  stored : m'.store.getPrivate = .ok (left ++ new)
  written : m'.store.HoldsPrivate (left ++ new)
  unexpired : ∀ c ∈ left ++ new, now < c.notAfter
  generated : ∀ c ∈ new, c.visibility ∈ Visibility.generated
  filled : ∀ v ∈ Visibility.generated, countOf v new =
    if left.length = certificateCount then 0 else certificatesPerVisibility - countOf v left
  told : m'.observers =
    if left.length = certificateCount then m.observers else m.observers.notify .privateChanged
  device : m'.device = m.device
  account : m'.account = m.account
  apart : m'.Apart

theorem unexpired_of_filter {t : Instant} (remaining : cs.filter (fun c => t < c.notAfter) = left) :
    ∀ c ∈ left, t < c.notAfter := by
  intro c member
  rw [← remaining] at member
  exact of_decide_eq_true (List.mem_filter.1 member).2

theorem weeded_ok (found : m.store.getPrivate = .ok cs)
    (remaining : cs.filter (fun c => now.now < c.notAfter) = left) :
    (m.weeded now).store.getPrivate = .ok left ∧ (m.weeded now).store.HoldsPrivate left := by
  subst remaining
  refine ⟨Store.removeExpiredPrivate_of_ok found, ?_⟩
  unfold weeded
  rw [Store.removeExpiredPrivate, Store.retainPrivate, found]
  exact Store.holdsPrivate_replacePrivate ..

/-- As many as there should be are left alone. -/
theorem refilled_of_enough (apart : m.Apart) (found : m.store.getPrivate = .ok cs)
    (remaining : cs.filter (fun c => now.now < c.notAfter) = left)
    (enough : left.length = certificateCount) (requestUpload : Bool) :
    m.refresh requestUpload now = .ok (true, m.weeded now) ∧
      Refilled now.now left [] m (m.weeded now) := by
  obtain ⟨weeds, written⟩ := weeded_ok found remaining
  have same : m.left now = left := by
    rw [Manager.left, weeds]
    rfl
  refine ⟨refresh_of_enough (same ▸ enough) requestUpload, ?_⟩
  exact {
    stored := by rw [List.append_nil, weeds]
    written := by
      rw [List.append_nil]
      exact written
    unexpired := by
      rw [List.append_nil]
      exact unexpired_of_filter remaining
    generated := List.forall_mem_nil _
    filled := fun _ _ => (if_pos enough).symm
    told := (if_pos enough).symm
    device := rfl
    account := rfl
    apart := apart }

/-- Any other number of them is filled up. -/
theorem refilled_of_other (apart : m.Apart) (found : m.store.getPrivate = .ok cs)
    (remaining : cs.filter (fun c => now.now < c.notAfter) = left)
    (other : left.length ≠ certificateCount) (told : m.device.metadata? m.account = some metadata)
    {e : Entropy} (filled : Slot.fillAll metadata
      (Visibility.generated.map fun v => Slot.of v now.now left) m.entropy = .ok (new, e))
    (made : ∀ c ∈ new, c.Lasting ∧ now.now < c.notAfter) (requestUpload : Bool) :
    ∃ m', m.refresh requestUpload now = .ok (true, m') ∧ Refilled now.now left new m m' := by
  obtain ⟨weeds, _⟩ := weeded_ok found remaining
  obtain ⟨m', announced, kept, notified⟩ := announce_ok { m.weeded now with
    entropy := e, store := (m.weeded now).store.replacePrivate (left ++ new) } requestUpload now
  have written : m'.store.HoldsPrivate (left ++ new) :=
    (Store.holdsPrivate_replacePrivate ..).same (kept.stored apart)
  have lasting : ∀ c ∈ left ++ new, c.Lasting := List.forall_mem_append.2
    ⟨Store.lasting_of_getPrivate weeds, fun c young => (made c young).1⟩
  obtain ⟨known, rows⟩ := Slot.refill_ok filled
  refine ⟨m', ?_, ?_⟩
  · rw [refresh_of_other weeds other told filled, announced]
    rfl
  · exact {
      stored := written.getPrivate lasting
      written
      unexpired := List.forall_mem_append.2
        ⟨unexpired_of_filter remaining, fun c young => (made c young).2⟩
      generated := fun c young => (known c young).2
      filled := fun v generated => by
        rw [if_neg other, ← length_of_windows, (rows v generated).2, length_of_windows]
      told := by
        rw [if_neg other]
        exact notified
      device := kept.device
      account := kept.account
      apart := kept.apart apart }

/-- A store that can be read is topped up. -/
theorem refresh_refilled (apart : m.Apart) (found : m.store.getPrivate = .ok cs)
    (remaining : cs.filter (fun c => now.now < c.notAfter) = left)
    (told : m.device.metadata? m.account = some metadata)
    (short : (Message.encode metadata).length < UInt64.size) (ample : now.now.Ample)
    (ends : ∀ c ∈ left, c.notAfter.Ample) (requestUpload : Bool) :
    ∃ new m', m.refresh requestUpload now = .ok (true, m') ∧
      Refilled now.now left new m m' := by
  by_cases enough : left.length = certificateCount
  · obtain ⟨done, refilled⟩ := refilled_of_enough apart found remaining enough requestUpload
    exact ⟨[], _, done, refilled⟩
  · have slots : ∀ slot ∈ Visibility.generated.map fun v => Slot.of v now.now left,
        slot.opensAt.Ample := by
      intro slot member
      obtain ⟨v, _, rfl⟩ := List.mem_map.1 member
      exact opensAt_ample ample ends v
    obtain ⟨⟨new, e⟩, filled⟩ := Slot.completes_fillAll metadata m.entropy slots
    obtain ⟨m', done, refilled⟩ := refilled_of_other apart found remaining enough told filled
      (refill_lasting filled short ample ends).1 requestUpload
    exact ⟨new, m', done, refilled⟩

theorem Refilled.nothing (h : Refilled now.now left new m m')
    (enough : left.length = certificateCount) : new = [] := by
  refine List.eq_nil_iff_forall_not_mem.2 fun c member => ?_
  have none := h.filled c.visibility (h.generated c member)
  rw [if_pos enough] at none
  exact List.countP_eq_zero.1 none c member (decide_eq_true rfl)

/-- The new certificates bring every visibility up to what it should have, if they are made at all. -/
theorem Refilled.full_iff (h : Refilled now.now left new m m') :
    (∀ v ∈ Visibility.generated, certificatesPerVisibility ≤ countOf v (left ++ new)) ↔
      (left.length = certificateCount →
        ∀ v ∈ Visibility.generated, certificatesPerVisibility ≤ countOf v left) := by
  have sum (v : Visibility) (generated : v ∈ Visibility.generated) :
      countOf v (left ++ new) = countOf v left +
        if left.length = certificateCount then 0 else certificatesPerVisibility - countOf v left := by
    rw [countOf_append, h.filled v generated]
  by_cases enough : left.length = certificateCount
  · simp only [if_pos enough, Nat.add_zero] at sum
    refine ⟨fun full _ v generated => ?_, fun full v generated => ?_⟩
    · exact sum v generated ▸ full v generated
    · exact sum v generated ▸ full enough v generated
  · simp only [if_neg enough] at sum
    refine iff_of_true (fun v generated => ?_) fun same => absurd same enough
    have own := sum v generated
    omega

/-- The same present finds nothing to make, and only if there are as many as there should be nothing to
do. -/
theorem Refilled.repeated (h : Refilled now.now left new m m')
    (told : m.device.metadata? m.account = some metadata) (same : again.now = now.now)
    (requestUpload : Bool) :
    ∃ m'', m'.refresh requestUpload again = .ok (true, m'') ∧
      Refilled again.now (left ++ new) [] m' m'' ∧
      ((left ++ new).length = certificateCount → m'' = m') := by
  have remaining : (left ++ new).filter (fun c => again.now < c.notAfter) = left ++ new := by
    refine List.filter_eq_self.2 fun c member => decide_eq_true ?_
    rw [same]
    exact h.unexpired c member
  by_cases enough : (left ++ new).length = certificateCount
  · obtain ⟨done, refilled⟩ := refilled_of_enough h.apart h.stored remaining enough requestUpload
    refine ⟨_, done, refilled, fun _ => ?_⟩
    unfold weeded
    rw [Store.removeExpiredPrivate, Store.retainPrivate, h.stored]
    dsimp only
    rw [remaining, h.written.replacePrivate]
  · -- Had the number been right before, nothing would have been made, and it would be right now.
    have few : left.length ≠ certificateCount := by
      intro all
      rw [h.nothing all, List.append_nil] at enough
      exact enough all
    have full := h.full_iff.2 fun same => absurd same few
    have nothing : Slot.fillAll metadata
        (Visibility.generated.map fun v => Slot.of v again.now (left ++ new)) m'.entropy =
          .ok ([], m'.entropy) := by
      refine Slot.fillAll_of_full fun slot member => ?_
      obtain ⟨v, generated, rfl⟩ := List.mem_map.1 member
      rw [Slot.count_of, length_of_windows]
      exact full v generated
    rw [← h.device, ← h.account] at told
    obtain ⟨m'', done, refilled⟩ := refilled_of_other h.apart h.stored remaining enough told nothing
      (List.forall_mem_nil _) requestUpload
    exact ⟨m'', done, refilled, fun same => absurd same enough⟩

/-- A renewal of any store that can be read succeeds, keeps what has not expired and adds nothing that
has. Every visibility has as many as it should then, unless they were left in the right number altogether
but one visibility had too few. Made again at the same present, a renewal leaves the same certificates,
and does nothing at all if their number is right; otherwise observers are told once more. -/
theorem refresh_tops_up (apart : m.Apart) (found : m.store.getPrivate = .ok cs)
    (remaining : cs.filter (fun c => now.now < c.notAfter) = left)
    (told : m.device.metadata? m.account = some metadata)
    (short : (Message.encode metadata).length < UInt64.size) (ample : now.now.Ample)
    (ends : ∀ c ∈ left, c.notAfter.Ample) (requestUpload : Bool) :
    ∃ new m', m.refresh requestUpload now = .ok (true, m') ∧ Refilled now.now left new m m' ∧
      ((∀ v ∈ Visibility.generated, certificatesPerVisibility ≤ countOf v (left ++ new)) ↔
        (left.length = certificateCount →
          ∀ v ∈ Visibility.generated, certificatesPerVisibility ≤ countOf v left)) ∧
      ∀ again, again.now = now.now → ∃ m'', m'.refresh requestUpload again = .ok (true, m'') ∧
        Refilled again.now (left ++ new) [] m' m'' ∧
        ((left ++ new).length = certificateCount → m'' = m') := by
  obtain ⟨new, m', done, refilled⟩ :=
    refresh_refilled apart found remaining told short ample ends requestUpload
  exact ⟨new, m', done, refilled, refilled.full_iff,
    fun _ same => refilled.repeated told same requestUpload⟩

namespace Inherited

/-- A certificate of any visibility for the three days from the epoch. -/
def certificate (v : Visibility) (name : UInt8) : PrivateCertificate :=
  { Punctual.ending with
    visibility := v
    notBefore := .epoch
    notAfter := .ofUnixNanos 259200000000000
    id := [name] }

/-- A manager with an observer, over a store with some certificates. -/
def manager (cs : List PrivateCertificate) : Manager :=
  let store := (Store.create .empty (.memory {}) 3).replacePrivate cs
  { create {} Newborn.device none store false Newborn.entropy with
    observers := Observers.add {} 1 }

/-- As many certificates as there should be, but all of one visibility. -/
def uneven : List PrivateCertificate := [0, 1, 2, 3, 4, 5, 6, 7, 8].map (certificate .selfShare)

/-- One certificate of a visibility that none are made for. -/
def stray : List PrivateCertificate := [certificate .hidden 0]

theorem lasting (v : Visibility) (name : UInt8) : (certificate v name).Lasting where
  opens := by
    rw [show (certificate v name).notBefore = .epoch from rfl]
    decide
  closes := by
    rw [show (certificate v name).notAfter = .ofUnixNanos 259200000000000 from rfl]
    decide
  sized := @Metadata.sized_of_short {} (by decide)

theorem ample (v : Visibility) (name : UInt8) :
    (certificate v name).notBefore.Ample ∧ (certificate v name).notAfter.Ample := by
  rw [show (certificate v name).notBefore = .epoch from rfl,
    show (certificate v name).notAfter = .ofUnixNanos 259200000000000 from rfl]
  exact ⟨⟨by decide, by decide⟩, ⟨by decide, by decide⟩⟩

theorem apart (cs : List PrivateCertificate) : (manager cs).Apart :=
  create_apart {} Newborn.device none ((Store.create .empty (.memory {}) 3).replacePrivate cs)
    false Newborn.entropy

theorem stored {cs : List PrivateCertificate} (all : ∀ c ∈ cs, ∃ v name, c = certificate v name) :
    (manager cs).store.getPrivate = .ok cs := by
  refine Store.getPrivate_replacePrivate _ fun c member => ?_
  obtain ⟨v, name, rfl⟩ := all c member
  exact lasting v name

end Inherited

/-- One certificate of a visibility that none are made for is kept, beside as many as there should be,
and at the same present the observer is told a second time of a list that has not changed. -/
theorem refresh_tops_up_inherited : ∃ new m' m'',
    (Inherited.manager Inherited.stray).refresh true Newborn.moment = .ok (true, m') ∧
    m'.store.getPrivate = .ok (Inherited.stray ++ new) ∧
    (∀ v ∈ Visibility.generated, countOf v new = 3) ∧
    m'.refresh true Newborn.moment = .ok (true, m'') ∧
    m''.store.getPrivate = m'.store.getPrivate ∧
    m'.observers.told 1 .privateChanged = 1 ∧ m''.observers.told 1 .privateChanged = 2 := by
  have alike : ∀ c ∈ Inherited.stray, ∃ v name, c = Inherited.certificate v name :=
    fun c member => ⟨.hidden, 0, List.mem_singleton.1 member⟩
  have stored := Inherited.stored alike
  have remaining : Inherited.stray.filter (fun c => Newborn.moment.now < c.notAfter) =
      Inherited.stray := by decide +kernel
  have told : Newborn.device.metadata? none = some _ := rfl
  have ample : Newborn.moment.now.Ample := ⟨by decide, by decide⟩
  have ends : ∀ c ∈ Inherited.stray, c.notAfter.Ample := by
    intro c member
    obtain ⟨v, name, rfl⟩ := alike c member
    exact (Inherited.ample v name).2
  obtain ⟨new, m', done, refilled, _, again⟩ := refresh_tops_up (Inherited.apart _) stored
    remaining told (Newborn.describable _ told) ample ends true
  obtain ⟨m'', repeated, refilled', _⟩ := again Newborn.moment rfl
  have lacks : ∀ v ∈ Visibility.generated, certificatesPerVisibility -
      countOf v Inherited.stray = 3 := by decide
  have filled : ∀ v ∈ Visibility.generated, countOf v new = 3 := fun v generated =>
    (refilled.filled v generated).trans (lacks v generated)
  have other : (Inherited.stray ++ new).length ≠ certificateCount := by
    have nine : certificateCount ≤ (new.map PrivateCertificate.window).length := by
      refine certificateCount_le fun v generated => ?_
      rw [length_of_windows, filled v generated]
      decide
    rw [List.length_map] at nine
    exact Nat.ne_of_gt (Nat.lt_succ_of_le nine)
  have first := refilled.told
  have second := refilled'.told
  rw [if_neg (by decide)] at first
  rw [if_neg other, first] at second
  refine ⟨new, m', m'', done, refilled.stored, filled, repeated, ?_, ?_, ?_⟩
  · rw [refilled.stored, refilled'.stored, List.append_nil]
  · rw [first]
    decide
  · rw [second]
    decide

/-- Nine certificates of one visibility are as many as there should be, and leave the two others with
none. -/
theorem starved_inherited :
    (Inherited.manager Inherited.uneven).store.getPrivate = .ok Inherited.uneven ∧
    (∀ c ∈ Inherited.uneven, c.notBefore.Ample ∧ c.notAfter.Ample) ∧
    (∃ m', (Inherited.manager Inherited.uneven).refresh true Newborn.moment = .ok (true, m') ∧
      m'.store.getPrivate = .ok Inherited.uneven) ∧
    countOf .allContacts Inherited.uneven = 0 ∧ countOf .selectedContacts Inherited.uneven = 0 ∧
    countOf .selfShare Inherited.uneven = 9 := by
  have alike : ∀ c ∈ Inherited.uneven, ∃ v name, c = Inherited.certificate v name := by
    intro c member
    obtain ⟨name, _, rfl⟩ := List.mem_map.1 member
    exact ⟨.selfShare, name, rfl⟩
  have stored := Inherited.stored alike
  have remaining : Inherited.uneven.filter (fun c => Newborn.moment.now < c.notAfter) =
      Inherited.uneven := by decide +kernel
  obtain ⟨done, refilled⟩ := refilled_of_enough (Inherited.apart _) stored remaining rfl true
  refine ⟨stored, fun c member => ?_, ⟨_, done, refilled.stored⟩, by decide +kernel⟩
  obtain ⟨v, name, rfl⟩ := alike c member
  exact Inherited.ample v name

end Manager
end ProximityCert

import Mathlib.Data.List.Perm.Subperm
import ProximityCert.Proofs.Manager.Loops

/-!
No salt is used twice. A key that a certificate hands out stands under a salt that is stored as used
before anyone sees the key, and stored it stays as long as the certificate does: through reading and
writing, through renewals and new managers on the same preferences, at any time of any clock.
-/

namespace ProximityCert

/-- A certificate's id and the salts that it has used. -/
def PrivateCertificate.marks (c : PrivateCertificate) : Bytes × SortedSet Salt :=
  (c.id, c.consumedSalts)

theorem SortedSet.mem_toList_iff {s : SortedSet Salt} {k : Salt} :
    k ∈ s.toList ↔ s.contains k = true := by
  rw [SortedMap.contains, Option.isSome_iff_exists]
  constructor
  · intro member
    obtain ⟨e, entry, rfl⟩ := List.mem_map.1 member
    exact ⟨e.2, SortedMap.find?_eq_some_iff.2 entry⟩
  · rintro ⟨u, found⟩
    exact List.mem_map.2 ⟨(k, u), SortedMap.find?_eq_some_iff.1 found, rfl⟩

theorem SortedSet.contains_add (s : SortedSet Salt) (k a : Salt) :
    (add s k).contains a = true ↔ a = k ∨ s.contains a = true := by
  rw [SortedMap.contains, add, SortedMap.find?_insert]
  by_cases same : a = k
  · simp [same]
  · simp [same, SortedMap.contains]

theorem SortedSet.size_add_le (s : SortedSet Salt) (k : Salt) : (add s k).size ≤ s.size + 1 :=
  SortedMap.length_insertEntry_le k () s.entries

namespace CertificateRecord

theorem load_marks {c c' : PrivateCertificate} (loaded : (ofCertificate c).load = .ok c') :
    c'.marks = c.marks := by
  rw [load_ofCertificate_eq] at loaded
  obtain ⟨metadata, _, rfl⟩ := map_eq_ok.1 loaded
  rfl

theorem loadAll_marks {cs ds : List PrivateCertificate}
    (loaded : loadAll (cs.map ofCertificate) = .ok ds) :
    ds.map PrivateCertificate.marks = cs.map PrivateCertificate.marks := by
  induction cs generalizing ds with
  | nil => rw [← Except.ok.inj loaded]
  | cons c cs ih =>
      obtain ⟨c', first, later⟩ := bind_eq_ok.1 loaded
      obtain ⟨ds', rest, rfl⟩ := map_eq_ok.1 later
      rw [List.map_cons, List.map_cons, load_marks first, ih rest]

end CertificateRecord

/-- Whatever is lost of certificates on the way through a store, their salts are not. -/
theorem Store.replacePrivate_marks {s : Store} {cs ds : List PrivateCertificate}
    (found : (s.replacePrivate cs).getPrivate = .ok ds) :
    ds.map PrivateCertificate.marks = cs.map PrivateCertificate.marks := by
  rw [getPrivate_replacePrivate_eq] at found
  exact CertificateRecord.loadAll_marks found

namespace Slot

variable {metadata : Metadata} {e e' : Entropy} {new : List PrivateCertificate}

theorem chain_unused {v : Visibility} {n : Nat} {opensAt : Instant}
    (h : chain v metadata n opensAt e = .ok (new, e')) :
    ∀ c ∈ new, c.consumedSalts = .empty := by
  induction n generalizing opensAt e e' new with
  | zero =>
      rw [← (Prod.mk.inj (Except.ok.inj h)).1]
      exact fun c member => (List.not_mem_nil member).elim
  | succ n ih =>
      rw [chain] at h
      obtain ⟨⟨c, e₁⟩, made, h⟩ := bind_eq_ok.1 h
      obtain ⟨⟨rest, e₂⟩, more, h⟩ := bind_eq_ok.1 h
      rw [← (Prod.mk.inj (Except.ok.inj h)).1]
      exact List.forall_mem_cons.2 ⟨(PrivateCertificate.fresh_id made).2, ih more⟩

theorem fillAll_unused {slots : List Slot} (h : fillAll metadata slots e = .ok (new, e')) :
    ∀ c ∈ new, c.consumedSalts = .empty := by
  induction slots generalizing e e' new with
  | nil =>
      rw [← (Prod.mk.inj (Except.ok.inj h)).1]
      exact fun c member => (List.not_mem_nil member).elim
  | cons slot slots ih =>
      rw [fillAll] at h
      obtain ⟨⟨own, e₁⟩, made, h⟩ := bind_eq_ok.1 h
      obtain ⟨⟨rest, e₂⟩, more, h⟩ := bind_eq_ok.1 h
      rw [← (Prod.mk.inj (Except.ok.inj h)).1]
      exact List.forall_mem_append.2 ⟨chain_unused made, ih more⟩

end Slot

/-- Keys that have been handed out, each with the id of its certificate. -/
abbrev Handouts := List (Bytes × EncryptedMetadataKey)

namespace Handouts

/-- The id and the salt of a key. -/
def stamp (g : Bytes × EncryptedMetadataKey) : Bytes × Salt := (g.1, Salt.ofBytes g.2.salt)

/-- The keys of one certificate. -/
def of (id : Bytes) (given : Handouts) : Handouts := given.filter fun g => g.1 = id

theorem length_of_append (id : Bytes) (given : Handouts) (g : Bytes × EncryptedMetadataKey) :
    (of id (given ++ [g])).length = (of id given).length + if g.1 = id then 1 else 0 := by
  rw [of, List.filter_append, List.length_append]
  by_cases same : g.1 = id
  · simp [of, same]
  · simp [of, same]

/-- No two keys of a certificate share a salt, no certificate hands out more keys than it may, and
their ids are among those made so far. -/
structure Distinct (given : Handouts) (ids : List Bytes) : Prop where
  salted : ∀ g ∈ given, g.2.salt = (Salt.ofBytes g.2.salt).bytes
  stamps : (given.map stamp).Nodup
  few : ∀ id, (of id given).length ≤ PrivateCertificate.maxSalts
  known : ∀ g ∈ given, g.1 ∈ ids

/-- Among stored certificates no id is found twice, and each has used the salts of all its keys, which
are not too many. -/
structure Marked (given : Handouts) (ids : List Bytes) (cs : List PrivateCertificate) : Prop where
  distinct : (cs.map PrivateCertificate.id).Nodup
  known : ∀ c ∈ cs, c.id ∈ ids
  bounded : ∀ c ∈ cs, c.consumedSalts.size ≤ PrivateCertificate.maxSalts
  used : ∀ c ∈ cs, ∀ g ∈ given, g.1 = c.id → c.consumedSalts.contains (Salt.ofBytes g.2.salt) = true

variable {given given' : Handouts} {ids : List Bytes} {cs ds new : List PrivateCertificate}
    {c : PrivateCertificate} {key : EncryptedMetadataKey} {salt : Salt}

theorem Distinct.fewer (h : Distinct given ids) (sub : given'.Sublist given) :
    Distinct given' ids where
  salted g member := h.salted g (sub.subset member)
  stamps := h.stamps.sublist (sub.map stamp)
  few id := Nat.le_trans (sub.filter _).length_le (h.few id)
  known g member := h.known g (sub.subset member)

theorem Distinct.widen (h : Distinct given ids) (new : List Bytes) : Distinct given (ids ++ new) :=
  ⟨h.salted, h.stamps, h.few, fun g handed => List.mem_append_left _ (h.known g handed)⟩

namespace Marked

theorem nil (given : Handouts) (ids : List Bytes) : Marked given ids [] where
  distinct := List.nodup_nil
  known _ member := (List.not_mem_nil member).elim
  bounded _ member := (List.not_mem_nil member).elim
  used _ member := (List.not_mem_nil member).elim

theorem fewer (h : Marked given ids cs) (sub : given'.Sublist given) : Marked given' ids cs where
  distinct := h.distinct
  known := h.known
  bounded := h.bounded
  used c member g own := h.used c member g (sub.subset own)

theorem widen (h : Marked given ids cs) (new : List Bytes) : Marked given (ids ++ new) cs :=
  ⟨h.distinct, fun c own => List.mem_append_left _ (h.known c own), h.bounded, h.used⟩

/-- Only the ids and the salts count, and dropping some of them does no harm. -/
theorem of_sublist (h : Marked given ids cs)
    (sub : (ds.map PrivateCertificate.marks).Sublist (cs.map PrivateCertificate.marks)) :
    Marked given ids ds := by
  have origin : ∀ d ∈ ds, ∃ c ∈ cs, c.id = d.id ∧ c.consumedSalts = d.consumedSalts := by
    intro d member
    obtain ⟨c, own, same⟩ := List.mem_map.1 (sub.subset (List.mem_map_of_mem member))
    exact ⟨c, own, congrArg Prod.fst same, congrArg Prod.snd same⟩
  refine ⟨?_, ?_, ?_, ?_⟩
  · have names := sub.map Prod.fst
    rw [List.map_map, List.map_map] at names
    exact h.distinct.sublist names
  · intro d member
    obtain ⟨c, own, id, _⟩ := origin d member
    exact id ▸ h.known c own
  · intro d member
    obtain ⟨c, own, _, salts⟩ := origin d member
    exact salts ▸ h.bounded c own
  · intro d member g handed same
    obtain ⟨c, own, id, salts⟩ := origin d member
    exact salts ▸ h.used c own g handed (same.trans id.symm)

/-- New certificates join, with ids never seen before and no salt used. -/
theorem grow (h : Marked given ids cs) (keys : Distinct given ids)
    (unused : ∀ c ∈ new, c.consumedSalts = .empty)
    (distinct : (ids ++ new.map PrivateCertificate.id).Nodup) :
    Marked given (ids ++ new.map PrivateCertificate.id) (cs ++ new) := by
  obtain ⟨separate, named⟩ := PrivateCertificate.distinct_append h.distinct h.known distinct
  refine ⟨separate, named, ?_, ?_⟩
  · intro c member
    rcases List.mem_append.1 member with old | made
    · exact h.bounded c old
    · rw [unused c made]
      exact Nat.zero_le _
  · intro c member g handed same
    rcases List.mem_append.1 member with old | made
    · exact h.used c old g handed same
    · have apart := (List.nodup_append.1 distinct).2.2
      exact absurd same (apart g.1 (keys.known g handed) c.id (List.mem_map_of_mem made))

/-- A stored certificate has used as many salts as it has handed out keys, or more. -/
theorem length_le (h : Marked given ids cs) (keys : Distinct given ids) (member : c ∈ cs) :
    (of c.id given).length ≤ c.consumedSalts.size := by
  have own : ∀ g ∈ of c.id given, g ∈ given ∧ g.1 = c.id := by
    intro g filtered
    obtain ⟨handed, same⟩ := List.mem_filter.1 filtered
    exact ⟨handed, of_decide_eq_true same⟩
  have stamps : (of c.id given).map stamp =
      ((of c.id given).map fun g => Salt.ofBytes g.2.salt).map fun salt => (c.id, salt) := by
    rw [List.map_map]
    exact List.map_congr_left fun g filtered => congrArg (·, _) (own g filtered).2
  have separate : ((of c.id given).map fun g => Salt.ofBytes g.2.salt).Nodup := by
    have all : ((of c.id given).map stamp).Nodup :=
      keys.stamps.sublist (List.filter_sublist.map stamp)
    exact List.Nodup.of_map _ (stamps ▸ all)
  have inside : ((of c.id given).map fun g => Salt.ofBytes g.2.salt) ⊆ c.consumedSalts.toList := by
    intro salt marked
    obtain ⟨g, filtered, rfl⟩ := List.mem_map.1 marked
    exact SortedSet.mem_toList_iff.2 (h.used c member g (own g filtered).1 (own g filtered).2)
  have count := (separate.subperm inside).length_le
  rw [List.length_map] at count
  exact Nat.le_trans count (Nat.le_of_eq (List.length_map _))

/-- A certificate hands out a key and takes its own place with the salt used up. -/
theorem spend (h : Marked given ids cs) (member : c ∈ cs) (hands : c.Hands key salt)
    (replaced : Store.replaceFirst
      { c with consumedSalts := SortedSet.add c.consumedSalts salt } cs = some ds) :
    Marked (given ++ [(c.id, key)]) ids ds := by
  have names : ds.map PrivateCertificate.id = cs.map PrivateCertificate.id :=
    Store.replaceFirst_map (fun _ _ same => same.symm) replaced
  have origin : ∀ d ∈ ds, d = { c with consumedSalts := SortedSet.add c.consumedSalts salt } ∨
      d ∈ cs ∧ d.id ≠ c.id :=
    fun d own => Store.eq_or_mem_of_replaceFirst h.distinct replaced own
  have marked : Salt.ofBytes key.salt = salt := by rw [hands.named, Salt.ofBytes_bytes]
  refine ⟨names ▸ h.distinct, ?_, ?_, ?_⟩
  · intro d own
    rcases origin d own with rfl | ⟨old, _⟩
    · exact h.known c member
    · exact h.known d old
  · intro d own
    rcases origin d own with rfl | ⟨old, _⟩
    · exact Nat.le_trans (SortedSet.size_add_le _ _) hands.left
    · exact h.bounded d old
  · intro d own g handed same
    rcases origin d own with rfl | ⟨old, other⟩
    · apply (SortedSet.contains_add _ _ _).2
      rcases List.mem_append.1 handed with before | last
      · exact .inr (h.used c member g before same)
      · rw [List.mem_singleton.1 last]
        exact .inl marked
    · rcases List.mem_append.1 handed with before | last
      · exact h.used d old g before same
      · rw [List.mem_singleton.1 last] at same
        exact absurd same.symm other

end Marked

/-- The key is not one of those handed out before. -/
theorem Distinct.spend (keys : Distinct given ids) (h : Marked given ids cs) (member : c ∈ cs)
    (hands : c.Hands key salt) : Distinct (given ++ [(c.id, key)]) ids := by
  have marked : Salt.ofBytes key.salt = salt := by rw [hands.named, Salt.ofBytes_bytes]
  refine ⟨?_, ?_, ?_, ?_⟩
  · intro g handed
    rcases List.mem_append.1 handed with before | last
    · exact keys.salted g before
    · rw [List.mem_singleton.1 last, marked]
      exact hands.named
  · rw [List.map_append, List.nodup_append]
    refine ⟨keys.stamps, List.nodup_singleton _, ?_⟩
    intro st before st' last same
    obtain ⟨g, handed, rfl⟩ := List.mem_map.1 before
    rw [List.mem_singleton.1 last] at same
    -- an older key of this certificate under the same salt would have marked it as used
    have used := h.used c member g handed (congrArg Prod.fst same)
    have again : Salt.ofBytes g.2.salt = salt := (congrArg Prod.snd same).trans marked
    rw [again, hands.unused] at used
    cases used
  · intro id
    rw [length_of_append]
    split
    · -- the salts used are as many as the keys, and one was left before this request
      next same => exact Nat.lt_of_le_of_lt (same ▸ h.length_le keys member) hands.left
    · exact keys.few id
  · intro g handed
    rcases List.mem_append.1 handed with before | last
    · exact keys.known g before
    · rw [List.mem_singleton.1 last]
      exact h.known c member

end Handouts

namespace Manager

variable {given given' : Handouts} {ids : List Bytes} {m m' : Manager} {now : Moment}

/-- What holds of a manager at any time, given the keys that callers were handed. -/
structure Spending (given : Handouts) (ids : List Bytes) (m : Manager) : Prop where
  apart : m.Apart
  keys : given.Distinct ids
  stored : ∀ cs, m.store.getPrivate = .ok cs → given.Marked ids cs

namespace Spending

theorem fewer (h : m.Spending given ids) (sub : given'.Sublist given) : m.Spending given' ids where
  apart := h.apart
  keys := h.keys.fewer sub
  stored cs found := (h.stored cs found).fewer sub

theorem steady (given : Handouts) : Steady (Spending given) where
  widen h new := ⟨h.apart, h.keys.widen new, fun cs found => (h.stored cs found).widen new⟩
  outside := by
    intro ids m m' h apart _ left
    refine ⟨apart h.apart, h.keys, ?_⟩
    intro cs found
    rcases left h.apart cs found with same | rfl
    · exact h.stored cs same
    · exact .nil given ids

theorem weeded (h : m.Spending given ids) : (m.weeded now).Spending given ids := by
  refine ⟨h.apart, h.keys, ?_⟩
  intro ds found
  rw [Manager.weeded, Store.removeExpiredPrivate, Store.retainPrivate] at found
  split at found
  · exact h.stored ds found
  · next cs got =>
      apply (h.stored cs got).of_sublist
      rw [Store.replacePrivate_marks found]
      exact List.filter_sublist.map _

theorem loaded {stored : Option (List PrivateCertificate)} (h : m.Spending given ids)
    (loaded : Loaded m stored m') : given.Marked ids (stored.getD []) := by
  cases loaded with
  | found got => exact h.stored _ got
  | wiped _ _ => exact .nil given ids

theorem renewing {outcome : Option Bool} (h : m.Spending given ids)
    (distinct : (ids ++ (m.newcomers now).map PrivateCertificate.id).Nodup)
    (renewing : Renewing m now outcome m') :
    m'.Spending given (ids ++ (m.newcomers now).map PrivateCertificate.id) := by
  have wide := fun {m'' : Manager} (left : m''.Spending given ids) => (steady given).widen left
    ((m.newcomers now).map PrivateCertificate.id)
  cases renewing with
  | enough _ _ => exact wide h.weeded
  | short _ wiped => exact wide ((steady given).read h.weeded wiped)
  | @filled _ stored m₁ _ _ new e _ loaded _ filled made same =>
      rw [made] at distinct ⊢
      have left := (steady given).read h.weeded loaded.read
      -- what is written back was read in the same breath, so no salt used since is lost
      have grown := (h.weeded.loaded loaded).grow h.keys (Slot.fillAll_unused filled) distinct
      have all : Spending given (ids ++ new.map PrivateCertificate.id)
          { m₁ with entropy := e, store := m₁.store.replacePrivate (stored.getD [] ++ new) } := by
        refine ⟨left.apart, h.keys.widen _, ?_⟩
        intro cs found
        apply grown.of_sublist
        rw [Store.replacePrivate_marks found]
      exact (steady given).kept all same

end Spending

/-- The keys that a request for one is answered with, under the id of the certificate that serves. -/
def handedOut (m : Manager) (v : Visibility) (now : Moment) : Handouts :=
  match m.getValid v now, m.encryptMetadataKey v now with
  | .ok (some c, _), .ok (some key, _) => [(c.id, key)]
  | _, _ => []

namespace Spending

/-- Before a key is handed out, its salt is stored as used. -/
theorem encryptMetadataKey (h : m.Spending given ids) (v : Visibility) :
    Leaves (Spending (given ++ m.handedOut v now) ids)
      (fun r => r.2.Spending (given ++ m.handedOut v now) ids) (m.encryptMetadataKey v now) := by
  have spec := encryptMetadataKey_spec m v now
  cases result : m.encryptMetadataKey v now with
  | error e =>
      rw [result] at spec
      have none : m.handedOut v now = [] := by
        rw [handedOut, result]
        split
        · next impossible => cases impossible
        · rfl
      rw [none, List.append_nil]
      exact (steady given).read h spec
  | ok r =>
      rw [result] at spec
      obtain ⟨key?, m'⟩ := r
      cases spec with
      | refused e wiped =>
          have none : m.handedOut v now = [] := by
            rw [handedOut, result]
            split
            · next impossible => cases impossible
            · rfl
          rw [none, List.append_nil]
          exact (steady given).entropy ((steady given).read h wiped) e
      | @handed cs ds c key salt e serves got member hands replaced =>
          have one : m.handedOut v now = [(c.id, key)] := by
            rw [handedOut, result, serves]
          rw [one]
          have held := h.stored cs got
          refine ⟨h.apart, h.keys.spend held member hands, ?_⟩
          intro ds' found
          apply (held.spend member hands replaced).of_sublist
          rw [Store.replacePrivate_marks found]

theorem preserved (given : Handouts) : Preserved now (Spending given) where
  toSteady := steady given
  refresh h distinct requestUpload := (refresh_spec _ requestUpload now).mono
    (fun _ => h.renewing distinct) fun _ => h.renewing distinct
  encryptMetadataKey h v := (h.encryptMetadataKey v).mono
    (fun _ left => left.fewer (List.sublist_append_left ..))
    fun _ left => left.fewer (List.sublist_append_left ..)

end Spending

/-- The keys that a command is answered with. -/
def givenBy (m : Manager) (now : Moment) : Command → Handouts
  | .encryptKey v => m.handedOut v now
  | _ => []

theorem Spending.perform (h : m.Spending given ids) (c : Command)
    (distinct : (ids ++ (m.madeBy now c).map PrivateCertificate.id).Nodup) :
    Spending (given ++ m.givenBy now c) (ids ++ (m.madeBy now c).map PrivateCertificate.id)
      (leftBy Prod.snd (m.perform now c)) := by
  have others := ((preserved given).perform h c distinct).leftBy
  cases c with
  | encryptKey v =>
      have spent : Leaves (Spending (given ++ m.handedOut v now) ids)
          (fun r => r.2.Spending (given ++ m.handedOut v now) ids)
          (m.perform now (.encryptKey v)) := Leaves.map (h.encryptMetadataKey v)
      have none : m.madeBy now (.encryptKey v) = [] := rfl
      rw [none, List.map_nil, List.append_nil]
      exact spent.leftBy
  | start | stop | getValid | sign | hashToken | openPublic | asPublic | downloadNow | clearPublic
  | regenerate | dump | run =>
      show Spending (given ++ []) _ _
      rw [List.append_nil]
      exact others

/-- What can become of a manager, with all certificates made on the way and the keys that callers were
given for their requests. It begins on preferences with any certificates, none of which has used too
many salts. The clock may go anywhere, and steps beside the commands may come between them, among which
are commands whose answer is lost. New managers and devices may describe themselves at any length. -/
inductive Life : List PrivateCertificate → Handouts → Manager → Prop
  | created {preferences : Preferences} {held : List PrivateCertificate} (config : ManagerConfig)
      (device : Device) (account : Option Account) (database : Database) (maxAttempts : Nat)
      (driven : Bool) (entropy : Entropy) :
      (∀ cs, (Store.create preferences database maxAttempts).getPrivate = .ok cs → cs = held) →
      (∀ c ∈ held, c.consumedSalts.size ≤ PrivateCertificate.maxSalts) →
      Life held [] (create config device account (.create preferences database maxAttempts) driven
        entropy)
  | command {made : List PrivateCertificate} {given : Handouts} {m : Manager} (now : Moment)
      (c : Command) : Life made given m →
      Life (made ++ m.madeBy now c) (given ++ m.givenBy now c) (leftBy Prod.snd (m.perform now c))
  | step {made new : List PrivateCertificate} {given : Handouts} {m m' : Manager} {now : Moment} :
      Life made given m → Step now m new m' → Life (made ++ new) given m'
  | restart {made : List PrivateCertificate} {given : Handouts} {m : Manager}
      (config : ManagerConfig) (device : Device) (account : Option Account) (database : Database)
      (maxAttempts : Nat) (driven : Bool) (entropy : Entropy) : Life made given m →
      Life made given (create config device account
        (.create m.store.preferences database maxAttempts) driven entropy)
  | moved {made : List PrivateCertificate} {given : Handouts} {m : Manager} (device : Device)
      (account : Option Account) : Life made given m → Life made given { m with device, account }

theorem Life.spending {made : List PrivateCertificate} (life : Life made given m)
    (distinct : (made.map PrivateCertificate.id).Nodup) :
    m.Spending given (made.map PrivateCertificate.id) := by
  -- on the life; certificates made later have other ids than all before, so they own no keys yet
  induction life with
  | created config device account database maxAttempts driven entropy readable bounded =>
      refine ⟨create_apart _ _ _ _ _ _, ⟨?_, List.nodup_nil, fun _ => Nat.zero_le _, ?_⟩, ?_⟩
      · exact fun g none => (List.not_mem_nil none).elim
      · exact fun g none => (List.not_mem_nil none).elim
      · intro cs found
        rw [(create_samePrivate ..).getPrivate] at found
        rw [readable cs found]
        exact ⟨distinct, fun c own => List.mem_map_of_mem own, bounded,
          fun c _ g none => (List.not_mem_nil none).elim⟩
  | command now c life ih =>
      rw [List.map_append] at distinct ⊢
      exact (ih (List.nodup_append.1 distinct).1).perform c distinct
  | step life step ih =>
      rw [List.map_append] at distinct ⊢
      exact step.preserved (Spending.preserved _) (ih (List.nodup_append.1 distinct).1) distinct
  | restart config device account database maxAttempts driven entropy life ih =>
      have before := ih distinct
      refine ⟨create_apart _ _ _ _ _ _, before.keys, ?_⟩
      intro cs found
      rw [(create_samePrivate ..).getPrivate] at found
      exact before.stored cs found
  | moved device account life ih =>
      have before := ih distinct
      exact ⟨before.apart, before.keys, before.stored⟩

theorem Life.steps {made new : List PrivateCertificate} (life : Life made given m)
    (steps : Steps now m new m') : Life (made ++ new) given m' := by
  induction steps with
  | none => exact (List.append_nil made).symm ▸ life
  | next _ step ih =>
      rw [← List.append_assoc]
      exact ih.step step

/-- A request that is answered with a key is one for a key, and the key is recorded under the id of the
certificate that serves. -/
theorem givenBy_of_reply {c : Command} {key : EncryptedMetadataKey}
    (answered : m.perform now c = .ok (.key (some key), m')) :
    ∃ id, m.givenBy now c = [(id, key)] := by
  cases c with
  | encryptKey v =>
      obtain ⟨⟨key?, m₁⟩, result, same⟩ := map_eq_ok.1 answered
      cases same
      have spec := encryptMetadataKey_spec m v now
      rw [result] at spec
      cases spec with
      | @handed _ _ c _ _ _ serves _ _ _ _ =>
          refine ⟨c.id, ?_⟩
          rw [givenBy, handedOut, serves, result]
  | getValid | sign | hashToken | openPublic | asPublic | clearPublic =>
      obtain ⟨r, _, same⟩ := map_eq_ok.1 answered
      cases same
  | start | stop | downloadNow =>
      obtain ⟨r, _, same⟩ := map_eq_ok.1 answered
      cases same
  | regenerate changed =>
      rw [Manager.perform] at answered
      split at answered
      · obtain ⟨r, _, same⟩ := map_eq_ok.1 answered
        cases same
      · cases answered
  | dump => cases answered
  | run task =>
      rw [Manager.perform] at answered
      split at answered
      · obtain ⟨r, _, same⟩ := map_eq_ok.1 answered
        cases same
      · cases answered

/-- A manager in time lives such a life from one request to the next, and every key that it answers with
is recorded. -/
theorem Life.request {made : List PrivateCertificate} {l l' : ManagerLoop} {c : Command}
    {reply : Reply} (life : Life made given l.manager) (asked : l.request c = .ok (reply, l')) :
    ∃ new more, Life (made ++ new) (given ++ more) l'.manager ∧
      ∀ key, reply = .key (some key) → ∃ id, more = [(id, key)] := by
  have unheard : ∀ key, c.unanswered ≠ .key (some key) := by
    intro key
    cases c <;> exact fun same => nomatch same
  unfold ManagerLoop.request at asked
  split at asked
  · obtain ⟨rfl, rfl⟩ := Prod.mk.inj (Except.ok.inj asked)
    refine ⟨[], [], ?_, fun key same => absurd same (unheard key)⟩
    rw [List.append_nil, List.append_nil]
    exact life
  · obtain ⟨now, moment, asked⟩ := bind_eq_ok.1 asked
    have commanded := life.command now c
    split at asked
    · next reply' manager answered =>
        obtain ⟨l₁, settled, same⟩ := bind_eq_ok.1 asked
        obtain ⟨rfl, rfl⟩ := Prod.mk.inj (Except.ok.inj same)
        have reads : ManagerLoop.Reads now { l with manager } := fun u same =>
          Except.ok.inj (same.symm.trans moment)
        obtain ⟨_, new, steps⟩ := ManagerLoop.Still.settle reads settled
        rw [answered] at commanded
        refine ⟨l.manager.madeBy now c ++ new, l.manager.givenBy now c, ?_, ?_⟩
        · rw [← List.append_assoc]
          exact commanded.steps steps
        · rintro key rfl
          exact givenBy_of_reply answered
    · next e interrupted =>
        obtain ⟨rfl, rfl⟩ := Prod.mk.inj (Except.ok.inj asked)
        rw [interrupted] at commanded
        have stopped : Step now e.manager [] e.manager.abandoned := .abandoned e.manager
        have ended := commanded.step stopped
        rw [List.append_nil] at ended
        exact ⟨_, _, ended, fun key same => absurd same (unheard key)⟩

theorem Life.advance {made : List PrivateCertificate} {l l' : ManagerLoop} {stop n : Nat}
    (life : Life made given l.manager) (advanced : ManagerLoop.advanceTo stop n l = .ok l') :
    ∃ new, Life (made ++ new) given l'.manager := by
  induction n generalizing l made with
  | zero =>
      rw [← Except.ok.inj advanced]
      exact ⟨[], (List.append_nil made).symm ▸ life⟩
  | succ n ih =>
      rw [ManagerLoop.advanceTo] at advanced
      split at advanced
      · rw [← Except.ok.inj advanced]
        exact ⟨[], (List.append_nil made).symm ▸ life⟩
      · next due _ =>
          obtain ⟨l₁, settled, rest⟩ := bind_eq_ok.1 advanced
          obtain ⟨now, reads⟩ := ManagerLoop.exists_reads
            { l with timeline := l.timeline.advanceTo (max due l.timeline.elapsed) }
          obtain ⟨_, new, steps⟩ := ManagerLoop.Still.settle reads settled
          obtain ⟨later, after⟩ := ih (life.steps steps) rest
          exact ⟨new ++ later, List.append_assoc .. ▸ after⟩

/-- Keys of one certificate never share a salt, a stored certificate has marked all salts of its keys as
used and never too many of them, and so no certificate ever hands out more keys than there are salts to
use. The preferences are in memory and take every write, so a salt is always marked before its key is
given. -/
theorem salts_of_life {made : List PrivateCertificate} (life : Life made given m)
    (distinct : (made.map PrivateCertificate.id).Nodup) :
    (given.map fun g => (g.1, g.2.salt)).Nodup ∧
    (∀ cs, m.store.getPrivate = .ok cs → ∀ c ∈ cs,
      c.consumedSalts.size ≤ PrivateCertificate.maxSalts ∧
      ∀ g ∈ given, g.1 = c.id →
        ∃ salt, g.2.salt = Salt.bytes salt ∧ c.consumedSalts.contains salt = true) ∧
    ∀ id, (given.filter fun g => g.1 = id).length ≤ PrivateCertificate.maxSalts := by
  have h := life.spending distinct
  refine ⟨?_, ?_, h.keys.few⟩
  · have stamps : given.map Handouts.stamp =
        (given.map fun g => (g.1, g.2.salt)).map fun st => (st.1, Salt.ofBytes st.2) := by
      rw [List.map_map]
      rfl
    exact List.Nodup.of_map _ (stamps ▸ h.keys.stamps)
  · intro cs found c own
    have held := h.stored cs found
    refine ⟨held.bounded c own, ?_⟩
    intro g handed same
    exact ⟨Salt.ofBytes g.2.salt, h.keys.salted g handed, held.used c own g handed same⟩

/-- A device that finds one certificate in its preferences. -/
def foreigner : Manager :=
  create {} Newborn.device none
    (.create (SortedMap.empty.insert Store.privateKey (.arr [Store.foreignRecord.toJson]))
      (.memory {}) 3) false Newborn.entropy

/-- A manager after one more request for a key. -/
def asked (m : Manager) : Manager :=
  leftBy Prod.snd (m.perform Newborn.moment (.encryptKey .selfShare))

theorem salts_of_life_foreigner : ∃ c g g', Life [c] [g, g'] foreigner.asked.asked ∧
    [(g.1, g.2.salt), (g'.1, g'.2.salt)].Nodup ∧
    ∀ cs, foreigner.asked.asked.store.getPrivate = .ok cs → ∀ d ∈ cs, g.1 = d.id →
      ∃ salt, g.2.salt = Salt.bytes salt ∧ d.consumedSalts.contains salt = true := by
  have bounded : (Store.foreignRecord.load.toOption.any fun c =>
      c.consumedSalts.size ≤ PrivateCertificate.maxSalts) = true := by decide +kernel
  have first : (foreigner.givenBy Newborn.moment (.encryptKey .selfShare)).length = 1 := by
    decide +kernel
  have second : (foreigner.asked.givenBy Newborn.moment (.encryptKey .selfShare)).length = 1 := by
    decide +kernel
  obtain ⟨g, one⟩ := List.length_eq_one_iff.1 first
  obtain ⟨g', other⟩ := List.length_eq_one_iff.1 second
  cases loaded : Store.foreignRecord.load with
  | error f =>
      rw [loaded] at bounded
      cases bounded
  | ok c =>
      rw [loaded] at bounded
      have held : foreigner.store.getPrivate = .ok [c] := by
        have stored : foreigner.store.preferences.find? Store.privateKey =
            some (.arr [Store.foreignRecord.toJson]) := by
          show (SortedMap.empty.insert Store.privateKey _).find? _ = _
          rw [SortedMap.find?_insert, if_pos rfl]
        have records : foreigner.store.records = .ok [Store.foreignRecord] := by
          rw [Store.records, stored]
          show Failure.malformedJson.ifAbsent
            ([Store.foreignRecord.toJson].mapM CertificateRecord.ofJson?) = _
          rw [List.mapM_cons, CertificateRecord.ofJson?_toJson]
          rfl
        rw [Store.getPrivate, records]
        show CertificateRecord.loadAll [Store.foreignRecord] = _
        rw [CertificateRecord.loadAll, loaded]
        rfl
      have life : Life [c] [] foreigner := by
        refine .created {} Newborn.device none (.memory {}) 3 false Newborn.entropy ?_ ?_
        · intro cs found
          exact Except.ok.inj (found.symm.trans held)
        · intro d own
          rw [List.mem_singleton.1 own]
          exact of_decide_eq_true bounded
      have keys : Life [c] [g, g'] foreigner.asked.asked := by
        have later := (life.command Newborn.moment (.encryptKey .selfShare)).command Newborn.moment
          (.encryptKey .selfShare)
        rw [one, ← asked, other] at later
        exact later
      obtain ⟨separate, marked, _⟩ := salts_of_life keys (List.nodup_singleton _)
      refine ⟨c, g, g', keys, separate, ?_⟩
      intro cs found d own same
      exact (marked cs found d own).2 g (List.mem_cons_self ..) same

end Manager
end ProximityCert

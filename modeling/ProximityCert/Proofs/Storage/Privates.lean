import Mathlib.Data.List.Nodup
import ProximityCert.Proofs.Certificate.Records
import ProximityCert.Proofs.Lookups
import ProximityCert.Proofs.Storage.Names

/-!
The private certificates of a store. They are what one preference holds: operations on public
certificates leave it alone, and what is put there without loss is read back.
-/

namespace ProximityCert.Store

variable {s s' : Store} {c : PrivateCertificate} {cs ds : List PrivateCertificate}

/-- Two stores that hold the same private certificates. -/
def SamePrivate (s s' : Store) : Prop :=
  s'.preferences.find? privateKey = s.preferences.find? privateKey

namespace SamePrivate

theorem refl (s : Store) : SamePrivate s s := rfl

theorem trans {s'' : Store} (h : SamePrivate s s') (h' : SamePrivate s' s'') :
    SamePrivate s s'' := Eq.trans h' h

theorem getPrivate (h : SamePrivate s s') : s'.getPrivate = s.getPrivate := by
  unfold Store.getPrivate records
  rw [h]

theorem ensureOpen (s : Store) : SamePrivate s s.ensureOpen.2 := SameAt.ensureOpen (by decide) s

theorem getPublic (s : Store) : SamePrivate s s.getPublic.2 := SameAt.getPublic (by decide) s

theorem addPublic {certificates : List PublicCertificate} {r : Except Failure Unit}
    (h : s.addPublic certificates = .ok (r, s')) : SamePrivate s s' :=
  SameAt.addPublic (by decide) h

theorem removeExpiredPublic {now : Instant} {r : Except Failure Unit}
    (h : s.removeExpiredPublic now = .ok (r, s')) : SamePrivate s s' :=
  SameAt.removeExpiredPublic (by decide) h

theorem clearPublic (s : Store) : SamePrivate s s.clearPublic.2 :=
  SameAt.clearPublic (by decide) s

end SamePrivate

theorem getPrivate_of_absent (h : s.preferences.find? privateKey = none) :
    s.getPrivate = .ok [] := by
  rw [getPrivate, records, h]
  rfl

theorem getPrivate_clearPrivate (s : Store) : s.clearPrivate.getPrivate = .ok [] := by
  refine getPrivate_of_absent ?_
  rw [clearPrivate, SortedMap.find?_erase, if_pos rfl]

/-- Whether the private certificates of a store are some, as they are written. -/
def HoldsPrivate (s : Store) (cs : List PrivateCertificate) : Prop :=
  s.preferences.find? privateKey =
    some (.arr (cs.map fun c => (CertificateRecord.ofCertificate c).toJson))

theorem holdsPrivate_replacePrivate (s : Store) (cs : List PrivateCertificate) :
    (s.replacePrivate cs).HoldsPrivate cs := by
  rw [HoldsPrivate, replacePrivate, SortedMap.find?_insert, if_pos rfl]

theorem HoldsPrivate.same (h : s.HoldsPrivate cs) (same : SamePrivate s s') : s'.HoldsPrivate cs :=
  Eq.trans same h

/-- Writing what is there changes nothing. -/
theorem HoldsPrivate.replacePrivate (h : s.HoldsPrivate cs) : s.replacePrivate cs = s := by
  rw [Store.replacePrivate, SortedMap.insert_of_find? h]

/-- What has been put there is read back record by record. -/
theorem getPrivate_replacePrivate_eq (s : Store) (cs : List PrivateCertificate) :
    (s.replacePrivate cs).getPrivate =
      CertificateRecord.loadAll (cs.map CertificateRecord.ofCertificate) := by
  have items : (cs.map fun c => (CertificateRecord.ofCertificate c).toJson).mapM
    CertificateRecord.ofJson? =
      some (cs.map CertificateRecord.ofCertificate) := by
    rw [List.mapM_map]
    exact mapM_eq_some fun c _ => CertificateRecord.ofJson?_toJson _
  have read : (s.replacePrivate cs).records = .ok (cs.map CertificateRecord.ofCertificate) := by
    rw [records, holdsPrivate_replacePrivate]
    exact congrArg Failure.malformedJson.ifAbsent items
  rw [getPrivate, read]
  rfl

theorem getPrivate_replacePrivate (s : Store) (h : ∀ c ∈ cs, c.Lasting) :
    (s.replacePrivate cs).getPrivate = .ok cs := by
  rw [getPrivate_replacePrivate_eq]
  exact CertificateRecord.loadAll_of_lasting h

theorem HoldsPrivate.getPrivate (h : s.HoldsPrivate cs) (lasting : ∀ c ∈ cs, c.Lasting) :
    s.getPrivate = .ok cs := by
  rw [← h.replacePrivate]
  exact getPrivate_replacePrivate s lasting

/-- What was read from records can be stored in them again. -/
theorem lasting_of_getPrivate (found : s.getPrivate = .ok cs) : ∀ c ∈ cs, c.Lasting := by
  obtain ⟨rs, _, loaded⟩ := bind_eq_ok.1 found
  exact CertificateRecord.lasting_of_loadAll loaded

/-- Weeding keeps the certificates that have not expired, and does nothing with unreadable ones. -/
theorem removeExpiredPrivate_of_ok {now : Instant} (found : s.getPrivate = .ok cs) :
    (s.removeExpiredPrivate now).2.getPrivate = .ok (cs.filter fun c => now < c.notAfter) := by
  rw [removeExpiredPrivate, retainPrivate, found]
  refine getPrivate_replacePrivate s fun c member => ?_
  exact lasting_of_getPrivate found c (List.mem_filter.1 member).1

theorem removeExpiredPrivate_of_error {now : Instant} {f : Failure}
    (found : s.getPrivate = .error f) :
    (s.removeExpiredPrivate now).2 = s := by
  rw [removeExpiredPrivate, retainPrivate, found]

/-- In a list that has a certificate of an id, another one can take its place. -/
theorem replaceFirst_of_mem {x : PrivateCertificate} (member : x ∈ cs) (same : x.id = c.id) :
    ∃ ds, replaceFirst c cs = some ds := by
  induction cs with
  | nil => exact (List.not_mem_nil member).elim
  | cons y rest ih =>
      rw [replaceFirst]
      split
      · exact ⟨_, rfl⟩
      · next other =>
          rcases List.mem_cons.1 member with rfl | later
          · exact absurd same other
          · obtain ⟨ds, found⟩ := ih later
            rw [found]
            exact ⟨_, rfl⟩

theorem replaceFirst_map {γ : Type} {f : PrivateCertificate → γ}
    (same : ∀ x ∈ cs, x.id = c.id → f c = f x)
    (replaced : replaceFirst c cs = some ds) : ds.map f = cs.map f := by
  induction cs generalizing ds with
  | nil => exact nomatch replaced
  | cons x rest ih =>
      rw [replaceFirst] at replaced
      split at replaced
      · next here =>
          rw [← Option.some.inj replaced, List.map_cons, List.map_cons,
            same x List.mem_cons_self here]
      · obtain ⟨later, found, rfl⟩ := Option.map_eq_some_iff.1 replaced
        rw [List.map_cons, List.map_cons,
          ih (fun y member => same y (List.mem_cons_of_mem x member)) found]

theorem mem_replaceFirst (replaced : replaceFirst c cs = some ds) {x : PrivateCertificate}
    (member : x ∈ ds) :
    x = c ∨ x ∈ cs := by
  induction cs generalizing ds with
  | nil => exact nomatch replaced
  | cons y rest ih =>
      rw [replaceFirst] at replaced
      split at replaced
      · rw [← Option.some.inj replaced] at member
        exact (List.mem_cons.1 member).imp_right (List.mem_cons_of_mem y)
      · obtain ⟨later, found, rfl⟩ := Option.map_eq_some_iff.1 replaced
        rcases List.mem_cons.1 member with rfl | later
        · exact .inr List.mem_cons_self
        · exact (ih found later).imp_right (List.mem_cons_of_mem y)

theorem replaceFirst_self (replaced : replaceFirst c cs = some ds) : c ∈ ds := by
  induction cs generalizing ds with
  | nil => exact nomatch replaced
  | cons y rest ih =>
      rw [replaceFirst] at replaced
      split at replaced
      · rw [← Option.some.inj replaced]
        exact List.mem_cons_self
      · obtain ⟨later, found, rfl⟩ := Option.map_eq_some_iff.1 replaced
        exact List.mem_cons_of_mem y (ih found)

/-- Where no two certificates share an id, only the new one has its id afterwards. -/
theorem eq_or_mem_of_replaceFirst (distinct : (cs.map PrivateCertificate.id).Nodup)
    (replaced : replaceFirst c cs = some ds) {x : PrivateCertificate} (member : x ∈ ds) :
    x = c ∨ x ∈ cs ∧ x.id ≠ c.id := by
  have names : ds.map PrivateCertificate.id = cs.map PrivateCertificate.id :=
    replaceFirst_map (fun _ _ same => same.symm) replaced
  by_cases same : x.id = c.id
  · exact .inl (List.inj_on_of_nodup_map (names ▸ distinct) member (replaceFirst_self replaced) same)
  · rcases mem_replaceFirst replaced member with rfl | old
    · exact absurd rfl same
    · exact .inr ⟨old, same⟩

/-- An update replaces the certificate of the same id. -/
theorem updatePrivate_of_ok (found : s.getPrivate = .ok cs)
    (replaced : replaceFirst c cs = some ds) :
    s.updatePrivate c = (.ok (), s.replacePrivate ds) := by
  rw [updatePrivate, found]
  dsimp only
  rw [replaced]

/-- A certificate that was loaded from any record is loaded again, unchanged, from the record made of
it; so a store gives back every list of certificates whose times and metadata fit into records. -/
theorem loads_as_stored :
    (∀ (r : CertificateRecord) (c : PrivateCertificate),
      r.load = .ok c → (CertificateRecord.ofCertificate c).load = .ok c) ∧
    ∀ (s : Store) (cs : List PrivateCertificate),
      (∀ c ∈ cs, c.Lasting) → (s.replacePrivate cs).getPrivate = .ok cs := by
  constructor
  · intro r c loaded
    exact CertificateRecord.load_of_lasting (CertificateRecord.lasting_of_load loaded)
  · intro s cs lasting
    rw [getPrivate_replacePrivate_eq]
    exact CertificateRecord.loadAll_of_lasting lasting

/-- A record in another hand: a key without its public half, a time before the epoch, a field of
metadata that nobody knows, and salts in capitals and twice. -/
def foreignRecord : CertificateRecord where
  visibility := 5
  notBeforeNanos := -1
  notAfterNanos := 259199999999999
  keyPair := "MEECAQAwEwYHKoZIzj0CAQYIKoZIzj0DAQcEJzAlAgEBBCAAAAAAAAAAAAAAAAAAAAAAAAAAAAAAAAAAAAAAAAAABw"
  secretKey := "AAAAAAAAAAAAAAAAAAAAAAAAAAAAAAAAAAAAAAAAAAc"
  metadataKey := "AAAAAAAAAAAAAAAAAAk"
  id := "AQI"
  metadata := "CgFuSAE"
  consumedSalts := "ABab00ffabAB"

theorem loads_as_stored_foreign :
    ∃ c, foreignRecord.load = .ok c ∧
      (CertificateRecord.ofCertificate c).consumedSalts ≠ foreignRecord.consumedSalts ∧
      (CertificateRecord.ofCertificate c).load = .ok c ∧
      ((Store.create .empty (.file {}) 3).replacePrivate [c, c]).getPrivate = .ok [c, c] := by
  have readable : (foreignRecord.load.toOption.any fun c =>
      (CertificateRecord.ofCertificate c).consumedSalts ≠ foreignRecord.consumedSalts) = true := by
    decide +kernel
  cases loaded : foreignRecord.load with
  | error f =>
      rw [loaded] at readable
      cases readable
  | ok c =>
      rw [loaded] at readable
      have lasting : ∀ x ∈ [c, c], x.Lasting := by
        intro x member
        have same : x = c := by simpa using member
        exact same ▸ CertificateRecord.lasting_of_load loaded
      refine ⟨c, rfl, ?_, loads_as_stored.1 foreignRecord c loaded, ?_⟩
      · exact of_decide_eq_true readable
      · exact loads_as_stored.2 _ _ lasting

end ProximityCert.Store

import ProximityCert.Proofs.Storage.Operations

/-!
What a store writes among the preferences. Operations on public certificates write the index of end
times and nothing else, and those on private certificates their list and nothing else, so whatever
stands under another name outlives them.
-/

namespace ProximityCert.Store

variable {s s' s'' : Store} {name : String}

/-- Two stores with the same preference of a name. -/
def SameAt (name : String) (s s' : Store) : Prop :=
  s'.preferences.find? name = s.preferences.find? name

namespace SameAt

theorem refl (name : String) (s : Store) : SameAt name s s := rfl

theorem trans (h : SameAt name s s') (h' : SameAt name s' s'') : SameAt name s s'' := Eq.trans h' h

theorem insert (s : Store) {key : String} (other : name ≠ key) (value : Json) :
    SameAt name s { s with preferences := s.preferences.insert key value } := by
  rw [SameAt, SortedMap.find?_insert, if_neg other]

section Public

variable (other : name ≠ expirationsKey)
include other

theorem setExpirations (s : Store) (es : Expirations) : SameAt name s (s.setExpirations es) :=
  insert s other es.toJson

theorem opening (s₀ : Store) : KeptByOpening (SameAt name s₀) where
  verdict _ h := h
  attempt h := h
  stuck h _ _ := h
  erased h _ _ := h.trans (setExpirations other _ [])

theorem ensureOpen (s : Store) : SameAt name s s.ensureOpen.2 :=
  (opening other s).ensureOpen (refl name s)

theorem written {change : Rows → Rows} {es : Expirations} {r : Except Failure Unit}
    (h : s.Written change es r s') :
    SameAt name s s' := by
  cases h with
  | failed _ => exact refl name s
  | done _ => exact setExpirations other _ es

theorem getPublic (s : Store) : SameAt name s s.getPublic.2 := by
  rw [getPublic_snd]
  exact ensureOpen other s

theorem addPublic {certificates : List PublicCertificate} {r : Except Failure Unit}
    (h : s.addPublic certificates = .ok (r, s')) : SameAt name s s' := by
  have opened := ensureOpen other s
  rcases addPublic_cases h with ⟨rfl, _⟩ | ⟨new, _, _, added⟩
  · exact opened
  · exact opened.trans (written other added)

theorem removeExpiredPublic {now : Instant} {r : Except Failure Unit}
    (h : s.removeExpiredPublic now = .ok (r, s')) : SameAt name s s' := by
  have opened := ensureOpen other s
  rcases removeExpiredPublic_cases h with ⟨rfl, _⟩ | ⟨expired, _, _, removed⟩
  · exact opened
  · exact opened.trans (written other removed)

theorem clearPublic (s : Store) : SameAt name s s.clearPublic.2 := by
  have opened := ensureOpen other s
  rcases clearPublic_cases s with same | cleared
  · rw [same]
    exact opened
  · exact opened.trans (written other cleared)

end Public

section Private

variable (other : name ≠ privateKey)
include other

theorem replacePrivate (s : Store) (certificates : List PrivateCertificate) :
    SameAt name s (s.replacePrivate certificates) := insert s other _

theorem clearPrivate (s : Store) : SameAt name s s.clearPrivate := by
  rw [SameAt, Store.clearPrivate, SortedMap.find?_erase, if_neg other]

theorem updatePrivate (s : Store) (c : PrivateCertificate) :
    SameAt name s (s.updatePrivate c).2 := by
  unfold Store.updatePrivate
  split
  · exact refl name s
  · split
    · exact replacePrivate other s _
    · exact refl name s

theorem removeExpiredPrivate (s : Store) (now : Instant) :
    SameAt name s (s.removeExpiredPrivate now).2 := by
  unfold Store.removeExpiredPrivate Store.retainPrivate
  split
  · exact refl name s
  · exact replacePrivate other s _

end Private
end SameAt
end ProximityCert.Store

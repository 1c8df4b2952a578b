import ProximityCert.Proofs.Certificate.Privates
import ProximityCert.Proofs.Manager.Frames

/-!
What the work on private certificates comes to: reading them, finding the one that serves, handing out
a key of it, and renewing them all. Each is described once, at a clock fault as well as at its end.
-/

namespace ProximityCert

/-- Certificates that join others have ids of their own. -/
theorem PrivateCertificate.distinct_append {ids : List Bytes} {cs new : List PrivateCertificate}
    (distinct : (cs.map id).Nodup) (known : ∀ c ∈ cs, c.id ∈ ids)
    (fresh : (ids ++ new.map id).Nodup) :
    ((cs ++ new).map id).Nodup ∧ ∀ c ∈ cs ++ new, c.id ∈ ids ++ new.map id := by
  obtain ⟨_, separate, apart⟩ := List.nodup_append.1 fresh
  constructor
  · rw [List.map_append, List.nodup_append]
    refine ⟨distinct, separate, ?_⟩
    intro name old
    obtain ⟨c, own, rfl⟩ := List.mem_map.1 old
    exact apart c.id (known c own)
  · intro c member
    rcases List.mem_append.1 member with old | made
    · exact List.mem_append_left _ (known c old)
    · exact List.mem_append_right _ (List.mem_map_of_mem made)

namespace Manager

variable {m m' m₁ : Manager} {now : Moment} {v : Visibility}

/-- Whatever only reads the stored certificates leaves them, or wipes them if they are unreadable. -/
def Read (m m' : Manager) : Prop := Kept m m' ∨ Kept m.clearPrivate m'

theorem Read.kept {m'' : Manager} (h : Read m m') (same : Kept m' m'') : Read m m'' :=
  h.imp (·.trans same) (·.trans same)

/-- The stored certificates are read, or are unreadable and wiped. -/
inductive Loaded (m : Manager) : Option (List PrivateCertificate) → Manager → Prop
  | found {cs : List PrivateCertificate} : m.store.getPrivate = .ok cs → Loaded m (some cs) m
  | wiped {f : Failure} {m' : Manager} : m.store.getPrivate = .error f → Kept m.clearPrivate m' →
      Loaded m none m'

theorem Loaded.read {stored : Option (List PrivateCertificate)} (h : Loaded m stored m') :
    Read m m' := by
  cases h with
  | found _ => exact .inl (Kept.refl m)
  | wiped _ same => exact .inr same

theorem loadPrivate_spec (m : Manager) (now : Moment) :
    Leaves (Read m) (fun r => Loaded m r.1 r.2) (m.loadPrivate now) := by
  unfold loadPrivate
  split
  · next found => exact .found found
  · next found =>
      apply Leaves.map
      apply (act_kept m.clearPrivate .refresh .requestNow now).mono
      · intro m' same
        exact .inr same
      · intro m' same
        exact .wiped found same

theorem findValid_mem {t : Instant} {cs : List PrivateCertificate} {c : PrivateCertificate}
    (h : findValid v t cs = .ok (some c)) : c ∈ cs := by
  induction cs with
  | nil => exact nomatch Except.ok.inj h
  | cons x rest ih =>
      rw [findValid] at h
      split at h
      · cases valid : Validity.contains t x.notBefore x.notAfter false with
        | error fault => simp [valid, bind, Except.bind] at h
        | ok inside =>
            cases inside with
            | true =>
                simp only [valid, bind, Except.bind, if_true, pure, Except.pure, Except.ok.injEq,
                  Option.some.injEq] at h
                exact h ▸ List.mem_cons_self
            | false =>
                simp only [valid, bind, Except.bind, Bool.false_eq_true, if_false] at h
                exact List.mem_cons_of_mem x (ih h)
      · exact List.mem_cons_of_mem x (ih h)

/-- A certificate that serves is one of those stored, which stay as they are. -/
inductive Served (m : Manager) : Option PrivateCertificate → Manager → Prop
  | found {cs : List PrivateCertificate} {c : PrivateCertificate} :
      m.store.getPrivate = .ok cs → c ∈ cs → Served m (some c) m
  | missing {m' : Manager} : Read m m' → Served m none m'

theorem getValid_spec (m : Manager) (v : Visibility) (now : Moment) :
    Leaves (Read m) (fun r => Served m r.1 r.2) (m.getValid v now) := by
  unfold getValid
  split
  · exact .missing (.inl (Kept.refl m))
  · apply (loadPrivate_spec m now).bind
    rintro ⟨stored, m₁⟩ loaded
    have read := loaded.read
    cases loaded with
    | wiped _ _ => exact .missing read
    | @found cs got =>
        apply (Leaves.attempt read fun _ done => done).bind
        rintro (_ | c) found
        · apply ((act_kept _ .refresh .requestNow now).mono (fun _ => .inl) fun _ same => same).bind
          intro m' same
          exact .missing (.inl same)
        · exact .found got (findValid_mem found)

/-- A request for a key is refused, or the certificate that serves hands one out and is stored with its
salt used up. -/
inductive Answered (m : Manager) (v : Visibility) (now : Moment) :
    Option EncryptedMetadataKey → Manager → Prop
  | refused {m' : Manager} (e : Entropy) : Read m m' →
      Answered m v now none { m' with entropy := e }
  | handed {cs ds : List PrivateCertificate} {c : PrivateCertificate} {key : EncryptedMetadataKey}
      {salt : Salt} (e : Entropy) :
      m.getValid v now = .ok (some c, m) → m.store.getPrivate = .ok cs → c ∈ cs →
      c.Hands key salt →
      Store.replaceFirst { c with consumedSalts := SortedSet.add c.consumedSalts salt } cs =
        some ds →
      Answered m v now (some key) { m with entropy := e, store := m.store.replacePrivate ds }

theorem encryptMetadataKey_spec (m : Manager) (v : Visibility) (now : Moment) :
    Leaves (Read m) (fun r => Answered m v now r.1 r.2) (m.encryptMetadataKey v now) := by
  have served := getValid_spec m v now
  unfold encryptMetadataKey
  cases result : m.getValid v now with
  | error e =>
      rw [result] at served
      exact served
  | ok r =>
      obtain ⟨found, m₁⟩ := r
      rw [result] at served
      cases served with
      | missing read => exact .refused m₁.entropy read
      | @found cs c got member =>
          have outcome := c.encryptMetadataKey_cases m₁.entropy
          dsimp only [bind, Except.bind]
          generalize c.encryptMetadataKey m₁.entropy = drawn at outcome
          obtain ⟨key?, used, e⟩ := drawn
          rcases outcome with ⟨none, _⟩ | ⟨key, salt, some, hands, marked⟩
          · dsimp only at none
            subst none
            exact .refused e (.inl (Kept.refl _))
          · dsimp only at some marked
            subst some marked
            obtain ⟨ds, replaced⟩ := Store.replaceFirst_of_mem member (c :=
              { c with consumedSalts := SortedSet.add c.consumedSalts salt }) rfl
            dsimp only
            rw [Store.updatePrivate_of_ok got replaced]
            exact .handed e result got member hands replaced

/-- The manager once expired certificates are dropped. -/
def weeded (m : Manager) (now : Moment) : Manager :=
  { m with store := (m.store.removeExpiredPrivate now.now).2 }

/-- The certificates that a renewal makes, if it comes to that. -/
def newcomers (m : Manager) (now : Moment) : List PrivateCertificate :=
  let left := ((m.store.removeExpiredPrivate now.now).2.getPrivate.toOption).getD []
  if left.length = certificateCount then []
  else
    match m.device.metadata? m.account with
    | none => []
    | some metadata =>
      match Slot.fillAll metadata (Visibility.generated.map fun v => Slot.of v now.now left)
        m.entropy with
      | .ok (new, _) => new
      | .error _ => []

/-- What is made of the certificates that are left: they are enough, or cannot be added to, or new ones
are stored with them. Without an outcome a clock fault has ended the renewal. -/
inductive Renewing (m : Manager) (now : Moment) : Option Bool → Manager → Prop
  | enough {cs : List PrivateCertificate} : (m.weeded now).store.getPrivate = .ok cs →
      cs.length = certificateCount → Renewing m now (some true) (m.weeded now)
  | short {outcome : Option Bool} {m' : Manager} : outcome ≠ some true → Read (m.weeded now) m' →
      Renewing m now outcome m'
  | filled {outcome : Option Bool} {stored : Option (List PrivateCertificate)} {m₁ m' : Manager}
      {metadata : Metadata} {new : List PrivateCertificate} {e : Entropy} : outcome ≠ some false →
      Loaded (m.weeded now) stored m₁ → m.device.metadata? m.account = some metadata →
      Slot.fillAll metadata (Visibility.generated.map fun v => Slot.of v now.now (stored.getD []))
        m.entropy = .ok (new, e) →
      m.newcomers now = new →
      Kept { m₁ with entropy := e, store := m₁.store.replacePrivate (stored.getD [] ++ new) } m' →
      Renewing m now outcome m'

theorem Loaded.frame {stored : Option (List PrivateCertificate)} (h : Loaded m stored m') :
    m'.device = m.device ∧ m'.account = m.account ∧ m'.entropy = m.entropy ∧
      stored.getD [] = m.store.getPrivate.toOption.getD [] := by
  cases h with
  | found got =>
      rw [got]
      exact ⟨rfl, rfl, rfl, rfl⟩
  | wiped got same =>
      rw [got]
      exact ⟨same.device, same.account, same.entropy, rfl⟩

theorem refresh_spec (m : Manager) (requestUpload : Bool) (now : Moment) :
    Leaves (Renewing m now none) (fun r => Renewing m now (some r.1) r.2)
      (m.refresh requestUpload now) := by
  unfold refresh
  apply ((loadPrivate_spec (m.weeded now) now).mono
    (fun m' read => .short (by decide) read) fun _ => id).bind
  rintro ⟨stored, m₁⟩ loaded
  obtain ⟨device, account, entropy, left⟩ : m₁.device = m.device ∧ m₁.account = m.account ∧
      m₁.entropy = m.entropy ∧ stored.getD [] =
        ((m.store.removeExpiredPrivate now.now).2.getPrivate.toOption).getD [] := loaded.frame
  have read := loaded.read
  dsimp only at read ⊢
  split
  · next full =>
      cases loaded with
      | found got => exact .enough got full
      | wiped _ _ => exact absurd full (by decide)
  · next few =>
      split
      · exact .short (fun same => nomatch same) read
      · next metadata told =>
          apply (Leaves.attempt (.short (by decide) read) fun _ done => done).bind
          rintro ⟨new, e⟩ filled
          rw [device, account] at told
          rw [entropy] at filled
          have made : m.newcomers now = new := by
            simp only [newcomers, ← left, few, if_false, told, filled]
          have announced := Kept.notify { m₁ with
            entropy := e, store := m₁.store.replacePrivate (stored.getD [] ++ new) } .privateChanged
          dsimp only
          split
          · apply ((act_kept _ .upload .requestNow now).mono ?_ fun _ same => same).bind
            · intro m' same
              exact .filled (fun none => nomatch none) loaded told filled made (announced.trans same)
            · intro m' same
              exact .filled (fun none => nomatch none) loaded told filled made (announced.trans same)
          · exact .filled (fun none => nomatch none) loaded told filled made announced

end Manager
end ProximityCert

import ProximityCert.Proofs.Manager.Work

/-!
What every command keeps. Whatever follows from the stored certificates, and is not hurt if they are
lost, is kept by all work if renewals and requests for keys keep it. Only two tasks make certificates:
the renewal itself, and an upload that has cost contacts their access, which makes all anew.
-/

namespace ProximityCert

/-- Whether the metadata that new certificates get has an encoded length at all. -/
def Device.Describable (d : Device) (account : Option Account) : Prop :=
  ∀ metadata, d.metadata? account = some metadata → (Message.encode metadata).length < UInt64.size

namespace Manager

/-- The certificates that an upload makes, if it comes to that. -/
def replacements (m : Manager) (now : Moment) : List PrivateCertificate :=
  if m.account.isNone then []
  else
    match m.publish false now with
    | .ok (some true, m) => m.clearPrivate.newcomers now
    | _ => []

def made (m : Manager) (now : Moment) : TaskKind → List PrivateCertificate
  | .refresh => m.newcomers now
  | .upload => m.replacements now
  | .cleanup | .download => []

/-- The certificates that a command makes; a stopped manager runs no tasks. -/
def madeBy (m : Manager) (now : Moment) : Command → List PrivateCertificate
  | .run kind => if m.running then m.made now kind else []
  | _ => []

/-- A property of managers, given the ids of the certificates made so far, that depends on what is
stored of them and is not hurt if they are lost. -/
structure Steady (Q : List Bytes → Manager → Prop) : Prop where
  widen {ids : List Bytes} {m : Manager} : Q ids m → ∀ new, Q (ids ++ new) m
  outside {ids : List Bytes} {m m' : Manager} : Q ids m → (m.Apart → m'.Apart) →
    (m'.device = m.device ∧ m'.account = m.account ∨ m'.device.Describable m'.account) →
    (m.Apart → ∀ cs, m'.store.getPrivate = .ok cs → m.store.getPrivate = .ok cs ∨ cs = []) →
    Q ids m'

/-- Such a property that is kept by renewals and by requests for keys at some moment. -/
structure Preserved (now : Moment) (Q : List Bytes → Manager → Prop) : Prop extends Steady Q where
  refresh {ids : List Bytes} {m : Manager} : Q ids m →
    (ids ++ (m.newcomers now).map PrivateCertificate.id).Nodup → ∀ requestUpload,
    Leaves (Q (ids ++ (m.newcomers now).map PrivateCertificate.id))
      (fun r => Q (ids ++ (m.newcomers now).map PrivateCertificate.id) r.2)
      (m.refresh requestUpload now)
  encryptMetadataKey {ids : List Bytes} {m : Manager} : Q ids m → ∀ v,
    Leaves (Q ids) (fun r => Q ids r.2) (m.encryptMetadataKey v now)

namespace Steady

variable {Q : List Bytes → Manager → Prop} {ids : List Bytes} {m m' : Manager}
    (P : Steady Q) (h : Q ids m)
include P h

theorem kept (same : Kept m m') : Q ids m' := by
  apply P.outside h same.apart (.inl ⟨same.device, same.account⟩)
  intro apart cs found
  exact .inl ((same.stored apart).getPrivate ▸ found)

theorem cleared : Q ids m.clearPrivate := by
  refine P.outside h id (.inl ⟨rfl, rfl⟩) ?_
  intro _ cs found
  rw [clearPrivate, Store.getPrivate_clearPrivate] at found
  exact .inr (Except.ok.inj found).symm

theorem entropy (e : Entropy) : Q ids { m with entropy := e } :=
  P.outside h id (.inl ⟨rfl, rfl⟩) fun _ _ => .inl

theorem read (wiped : Read m m') : Q ids m' := by
  rcases wiped with same | same
  · exact P.kept h same
  · exact P.kept (P.cleared h) same

theorem keep {α : Type} {r : Except Interrupted α} {f : α → Manager}
    (same : Leaves (Kept m) (fun a => Kept m (f a)) r) :
    Leaves (Q ids) (fun a => Q ids (f a)) r :=
  same.mono (fun _ => P.kept h) fun _ => P.kept h

end Steady

namespace Preserved

variable {now : Moment} {Q : List Bytes → Manager → Prop} {ids : List Bytes} {m : Manager}
    (P : Preserved now Q) (h : Q ids m)
include P h

theorem loadPrivate : Leaves (Q ids) (fun r => Q ids r.2) (m.loadPrivate now) := by
  apply (loadPrivate_spec m now).mono
  · intro m' wiped
    exact P.read h wiped
  · intro r loaded
    exact P.read h loaded.read

theorem getValid (v : Visibility) : Leaves (Q ids) (fun r => Q ids r.2) (m.getValid v now) := by
  apply (getValid_spec m v now).mono
  · intro m' wiped
    exact P.read h wiped
  · rintro ⟨c, m'⟩ served
    cases served with
    | found _ _ => exact h
    | missing wiped => exact P.read h wiped

theorem asPublic (v : Visibility) : Leaves (Q ids) (fun r => Q ids r.2) (m.asPublic v now) := by
  unfold Manager.asPublic
  split
  · exact h
  · apply (P.loadPrivate h).bind
    intro loaded left
    apply (Leaves.attempt left fun _ done => done).bind
    intro published _
    exact P.entropy left published.2

theorem publish (force : Bool) : Leaves (Q ids) (fun r => Q ids r.2) (m.publish force now) := by
  unfold Manager.publish
  apply (P.loadPrivate h).bind
  rintro ⟨stored, m₁⟩ left
  cases stored with
  | none => exact left
  | some cs =>
      apply (Leaves.attempt left fun _ done => done).bind
      intro published _
      exact P.outside left id (.inl ⟨rfl, rfl⟩) fun _ _ => .inl

theorem upload (distinct : (ids ++ (m.replacements now).map PrivateCertificate.id).Nodup) :
    Leaves (Q (ids ++ (m.replacements now).map PrivateCertificate.id))
      (fun r => Q (ids ++ (m.replacements now).map PrivateCertificate.id) r.2)
      (m.upload now) := by
  have widen : ∀ m' : Manager, Q ids m' →
      Q (ids ++ (m.replacements now).map PrivateCertificate.id) m' :=
    fun m' left => P.widen left _
  unfold Manager.upload
  split
  · exact widen m h
  · next signedIn =>
      have published := P.publish h false
      cases first : m.publish false now with
      | error e =>
          rw [first] at published
          exact widen e.manager published
      | ok answer =>
          obtain ⟨removed, m₁⟩ := answer
          rw [first] at published
          cases removed with
          | none => exact widen m₁ published
          | some removed =>
              cases removed with
              | false => exact widen m₁ published
              | true =>
                  -- the first upload cost contacts their access: all is wiped and made anew
                  have anew : m.replacements now = m₁.clearPrivate.newcomers now := by
                    rw [replacements, if_neg signedIn, first]
                  rw [anew] at distinct ⊢
                  apply (P.refresh (P.cleared published) distinct false).bind
                  rintro ⟨refreshed, m₂⟩ left
                  apply (P.keep left (act_kept m₂ .refresh (.handleResult refreshed) now)).bind
                  intro m₃ later
                  split
                  · exact (P.publish later true).bind fun last ends => ends
                  · exact later

/-- A task keeps the property, with the certificates that it makes among those made so far. -/
theorem complete (kind : TaskKind)
    (distinct : (ids ++ (m.made now kind).map PrivateCertificate.id).Nodup) :
    Leaves (Q (ids ++ (m.made now kind).map PrivateCertificate.id))
      (Q (ids ++ (m.made now kind).map PrivateCertificate.id)) (m.complete kind now) := by
  have worked : Leaves (Q (ids ++ (m.made now kind).map PrivateCertificate.id))
      (fun r => Q (ids ++ (m.made now kind).map PrivateCertificate.id) r.2) (m.work now kind) := by
    have wide : Q (ids ++ (m.made now kind).map PrivateCertificate.id) m := P.widen h _
    cases kind with
    | refresh => exact P.refresh h distinct true
    | cleanup => exact P.keep wide (removeExpired_kept m now)
    | upload => exact P.upload h distinct
    | download => exact P.keep wide (download_kept m now)
  unfold Manager.complete
  apply worked.bind
  intro r left
  exact P.keep left (act_kept r.2 kind (.handleResult r.1) now)

/-- So does every command. -/
theorem perform (c : Command)
    (distinct : (ids ++ (m.madeBy now c).map PrivateCertificate.id).Nodup) :
    Leaves (Q (ids ++ (m.madeBy now c).map PrivateCertificate.id))
      (fun r => Q (ids ++ (m.madeBy now c).map PrivateCertificate.id) r.2) (m.perform now c) := by
  have wide : Q (ids ++ (m.madeBy now c).map PrivateCertificate.id) m := P.widen h _
  cases c with
  | start => exact Leaves.map (P.keep wide (start_kept m now))
  | stop => exact Leaves.map (P.keep wide (stop_kept m now))
  | getValid v => exact Leaves.map (P.getValid wide v)
  | encryptKey v => exact Leaves.map (P.encryptMetadataKey wide v)
  | sign v payload => exact Leaves.map (Leaves.map (P.getValid wide v))
  | hashToken v token => exact Leaves.map (Leaves.map (P.getValid wide v))
  | openPublic key => exact Leaves.map (P.keep wide (openPublic_kept m key))
  | asPublic v => exact Leaves.map (P.asPublic wide v)
  | downloadNow => exact Leaves.map (P.keep wide (act_kept m .download .requestNow now))
  | clearPublic => exact Leaves.map (P.keep wide (clearPublic_kept m now))
  | regenerate changed =>
      rw [Manager.perform]
      split
      · exact Leaves.map (P.keep (P.cleared wide)
          (act_kept m.clearPrivate .refresh .requestNow now))
      · exact wide
  | dump => exact wide
  | run kind =>
      rw [Manager.perform]
      split
      · next running =>
          simp only [madeBy, running, if_true] at distinct ⊢
          exact Leaves.map (P.complete h kind distinct)
      · exact wide

end Preserved
end Manager
end ProximityCert

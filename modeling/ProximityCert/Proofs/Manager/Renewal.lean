import Mathlib.Data.List.Nodup
import ProximityCert.Proofs.Manager.Commands
import ProximityCert.Proofs.Manager.Windows

/-!
What holds of the stored certificates at any time, and that no work breaks it. A renewal that succeeds
leaves a full row of windows for each visibility behind; in between, certificates expire, are wiped
or get salts used up, and none of it moves a window or opens a gap.
-/

namespace ProximityCert

/-- A reading of the clock at which new certificates can be made and stored: their windows take nine
days and must end within the signed 64-bit nanoseconds. -/
structure Instant.Ample (now : Instant) : Prop where
  lower : Int64.minValue.toInt + Manager.certificatesPerVisibility *
    (PrivateCertificate.validityPeriod : Int) ≤ now.nanos
  upper : now.nanos + Manager.certificatesPerVisibility *
    (PrivateCertificate.validityPeriod : Int) ≤ Int64.maxValue.toInt

/-- What is kept of stored certificates, whose ids are among those made so far. -/
structure Holding (t : Instant) (ids : List Bytes) (cs : List PrivateCertificate) : Prop where
  windows : Rotation t (cs.map PrivateCertificate.window)
  storable : ∀ c ∈ cs, c.Storable
  distinct : (cs.map PrivateCertificate.id).Nodup
  known : ∀ c ∈ cs, c.id ∈ ids

namespace Holding

variable {t now : Instant} {ids ids' : List Bytes} {cs new : List PrivateCertificate}

theorem nil (t : Instant) (ids : List Bytes) : Holding t ids [] where
  windows := Rotation.nil t
  storable _ member := (List.not_mem_nil member).elim
  distinct := List.nodup_nil
  known _ member := (List.not_mem_nil member).elim

theorem mono (h : Holding t ids cs) (later : t.nanos ≤ now.nanos) (more : ids ⊆ ids') :
    Holding now ids' cs where
  windows := h.windows.mono later
  storable := h.storable
  distinct := h.distinct
  known c member := more (h.known c member)

theorem lasting (h : Holding t ids cs) : ∀ c ∈ cs, c.Lasting := by
  intro c member
  exact (h.storable c member).lasting

theorem map_window_filter (now : Instant) (cs : List PrivateCertificate) :
    (cs.filter fun c => now < c.notAfter).map PrivateCertificate.window =
      (cs.map PrivateCertificate.window).filter fun w => now < w.closes := by
  rw [List.filter_map]
  rfl

theorem weed (h : Holding t ids cs) (past : now.nanos ≤ t.nanos) :
    Holding t ids (cs.filter fun c => now < c.notAfter) where
  windows := map_window_filter now cs ▸ h.windows.weed past
  storable c member := h.storable c (List.mem_filter.1 member).1
  distinct := h.distinct.sublist (List.filter_sublist.map _)
  known c member := h.known c (List.mem_filter.1 member).1

/-- New certificates join those that are left, with ids never seen before, and every visibility has as
many as it should. -/
theorem grow {metadata : Metadata} {e e' : Entropy} (h : Holding t ids cs) (late : t.Ample)
    (ample : now.Ample) (past : now.nanos ≤ t.nanos) (unexpired : ∀ c ∈ cs, now < c.notAfter)
    (short : (Message.encode metadata).length < UInt64.size)
    (filled : Slot.fillAll metadata (Visibility.generated.map fun v => Slot.of v now cs) e =
      .ok (new, e'))
    (distinct : (ids ++ new.map PrivateCertificate.id).Nodup) :
    Holding t (ids ++ new.map PrivateCertificate.id) (cs ++ new) ∧
      (∀ v ∈ Visibility.generated,
        (Window.of v ((cs ++ new).map PrivateCertificate.window)).length =
          Manager.certificatesPerVisibility) ∧
      ∀ c ∈ cs ++ new, now < c.notAfter := by
  have positive := Window.Row.positive
  have ahead : ∀ w ∈ cs.map PrivateCertificate.window, now < w.closes := by
    intro w member
    obtain ⟨c, own, rfl⟩ := List.mem_map.1 member
    exact unexpired c own
  obtain ⟨windows, full, young⟩ := h.windows.grow past ahead filled
  obtain ⟨told, _⟩ := Slot.refill_ok filled
  obtain ⟨separate, named⟩ := PrivateCertificate.distinct_append h.distinct h.known distinct
  refine ⟨⟨windows, ?_, separate, named⟩, full, ?_⟩
  · intro c member
    rcases List.mem_append.1 member with old | made
    · exact h.storable c old
    · obtain ⟨opens, closes, period⟩ := young c.window (List.mem_map_of_mem made)
      have lower := ample.lower
      have upper := late.upper
      have span : 0 < Manager.certificatesPerVisibility *
        (PrivateCertificate.validityPeriod : Int) := by decide
      have bounds : c.window.opens = c.notBefore ∧ c.window.closes = c.notAfter := ⟨rfl, rfl⟩
      rw [bounds.1] at opens period
      rw [bounds.2] at closes period
      refine ⟨⟨by omega, by omega⟩, ⟨by omega, by omega⟩, ?_⟩
      rw [(told c made).1]
      exact short
  · intro c member
    rcases List.mem_append.1 member with old | made
    · exact unexpired c old
    · obtain ⟨opens, _, period⟩ := young c.window (List.mem_map_of_mem made)
      exact show now.nanos < c.window.closes.nanos by omega

end Holding

/-- A certificate takes the place of the only one of its id. -/
theorem Holding.replaceFirst {t : Instant} {ids : List Bytes} {cs cs' : List PrivateCertificate}
    {c c' : PrivateCertificate}
    (h : Holding t ids cs) (member : c ∈ cs) (window : c'.window = c.window) (id : c'.id = c.id)
    (metadata : c'.metadata = c.metadata) (replaced : Store.replaceFirst c' cs = some cs') :
    Holding t ids cs' := by
  have only : ∀ x ∈ cs, x.id = c'.id → x = c :=
    fun x own same => List.inj_on_of_nodup_map h.distinct own member (same.trans id)
  have windows := Store.replaceFirst_map (f := PrivateCertificate.window)
    (fun x own same => by rw [only x own same, window]) replaced
  have names := Store.replaceFirst_map (f := PrivateCertificate.id)
    (fun x own same => by rw [only x own same, id]) replaced
  have bounds : c'.notBefore = c.notBefore ∧ c'.notAfter = c.notAfter :=
    ⟨congrArg Window.opens window, congrArg Window.closes window⟩
  have storable := h.storable c member
  refine ⟨windows ▸ h.windows, ?_, names ▸ h.distinct, ?_⟩
  · intro x own
    rcases Store.mem_replaceFirst replaced own with rfl | old
    · refine ⟨?_, ?_, ?_⟩
      · rw [bounds.1]
        exact storable.opens
      · rw [bounds.2]
        exact storable.closes
      · rw [metadata]
        exact storable.short
    · exact h.storable x old
  · intro x own
    rcases Store.mem_replaceFirst replaced own with rfl | old
    · rw [id]
      exact h.known c member
    · exact h.known x old

namespace Manager

variable {t : Instant} {now : Moment} {ids ids' : List Bytes} {m m' : Manager}

/-- What holds of a manager at any time. -/
structure Rotating (t : Instant) (ids : List Bytes) (m : Manager) : Prop where
  apart : m.Apart
  describable : m.device.Describable m.account
  stored : ∀ cs, m.store.getPrivate = .ok cs → Holding t ids cs

/-- What a renewal achieves. -/
def Renewed (now : Instant) (m : Manager) : Prop :=
  ∃ cs, m.store.getPrivate = .ok cs ∧ Rotated now (cs.map PrivateCertificate.window)

namespace Rotating

theorem mono {now : Instant} (h : m.Rotating t ids) (later : t.nanos ≤ now.nanos)
    (more : ids ⊆ ids') : m.Rotating now ids' where
  apart := h.apart
  describable := h.describable
  stored cs found := (h.stored cs found).mono later more

theorem steady (t : Instant) : Steady (Rotating t) where
  widen h _ := h.mono (Int.le_refl _) (List.subset_append_left ..)
  outside := by
    intro ids m m' h apart told left
    refine ⟨apart h.apart, ?_, ?_⟩
    · rcases told with ⟨device, account⟩ | describable
      · rw [device, account]
        exact h.describable
      · exact describable
    · intro cs found
      rcases left h.apart cs found with same | rfl
      · exact h.stored cs same
      · exact Holding.nil t ids

theorem store (h : m.Rotating t ids) (e : Entropy) {s : Store}
    (holds : ∀ cs, s.getPrivate = .ok cs → Holding t ids' cs) :
    Rotating t ids' { m with entropy := e, store := s } := ⟨h.apart, h.describable, holds⟩

/-- Handing out a metadata key uses up a salt of the stored certificate and changes nothing else. -/
theorem encryptMetadataKey (h : m.Rotating t ids) (v : Visibility) :
    Leaves (Rotating t ids) (fun r => r.2.Rotating t ids) (m.encryptMetadataKey v now) := by
  apply (encryptMetadataKey_spec m v now).mono
  · intro m' wiped
    exact (steady t).read h wiped
  · rintro ⟨key, m'⟩ answered
    cases answered with
    | refused e wiped => exact (steady t).entropy ((steady t).read h wiped) e
    | @handed cs ds _ _ _ e _ got member _ replaced =>
        have held : Holding t ids ds := by
          refine (h.stored cs got).replaceFirst member ?_ ?_ ?_ replaced
          · rfl
          · rfl
          · rfl
        apply h.store e
        intro cs found
        rw [Store.getPrivate_replacePrivate m.store held.lasting] at found
        exact Except.ok.inj found ▸ held

theorem weeded (h : m.Rotating t ids) (past : now.now.nanos ≤ t.nanos) :
    (m.weeded now).Rotating t ids ∧
    ∀ cs, (m.weeded now).store.getPrivate = .ok cs → ∀ c ∈ cs, now.now < c.notAfter := by
  unfold Manager.weeded
  cases found : m.store.getPrivate with
  | error f =>
      rw [Store.removeExpiredPrivate_of_error found, found]
      exact ⟨h, fun cs same => nomatch same⟩
  | ok cs =>
      have held := h.stored cs found
      have left : (m.store.removeExpiredPrivate now.now).2.getPrivate =
          .ok (cs.filter fun c => now.now < c.notAfter) :=
        Store.removeExpiredPrivate_of_ok found
      rw [left]
      refine ⟨h.store m.entropy fun ds same => ?_, fun ds same c member => ?_⟩
      · rw [left] at same
        exact Except.ok.inj same ▸ held.weed past
      · rw [← Except.ok.inj same] at member
        exact of_decide_eq_true (List.mem_filter.1 member).2

theorem loaded {stored : Option (List PrivateCertificate)} (h : m.Rotating t ids)
    (loaded : Loaded m stored m') : Holding t ids (stored.getD []) := by
  cases loaded with
  | found got => exact h.stored _ got
  | wiped _ _ => exact Holding.nil t ids

end Rotating

theorem Renewed.kept {now : Instant} (h : m.Renewed now) (apart : m.Apart) (same : Kept m m') :
    m'.Renewed now := by
  obtain ⟨cs, found, rotated⟩ := h
  exact ⟨cs, (same.stored apart).getPrivate.trans found, rotated⟩

/-- What a renewal that succeeds leaves: all unexpired, and of every visibility as many as there should
be. -/
structure Topped (t : Instant) (ids : List Bytes) (now : Instant) (cs : List PrivateCertificate) :
    Prop where
  holding : Holding t ids cs
  unexpired : ∀ c ∈ cs, now < c.notAfter
  full : ∀ v ∈ Visibility.generated,
    (Window.of v (cs.map PrivateCertificate.window)).length = certificatesPerVisibility

theorem Topped.renewed {now : Instant} {cs : List PrivateCertificate} (h : Topped now ids now cs)
    (found : m.store.getPrivate = .ok cs) : m.Renewed now := by
  refine ⟨cs, found, h.holding.windows.rotated ?_ h.full⟩
  intro w member
  obtain ⟨c, own, rfl⟩ := List.mem_map.1 member
  exact h.unexpired c own

/-- The certificates that a renewal finds once it has dropped what has expired. -/
def left (m : Manager) (now : Moment) : List PrivateCertificate :=
  (m.weeded now).store.getPrivate.toOption.getD []

theorem newcomers_of_enough (enough : (m.left now).length = certificateCount) :
    m.newcomers now = [] := if_pos enough

/-- Whatever becomes of a renewal keeps what holds at any time, and if it succeeds the new certificates
have joined those that were left. -/
theorem Renewing.rotating {outcome : Option Bool} (renewing : Renewing m now outcome m')
    (h : m.Rotating t ids) (late : t.Ample) (ample : now.now.Ample)
    (past : now.now.nanos ≤ t.nanos)
    (distinct : (ids ++ (m.newcomers now).map PrivateCertificate.id).Nodup) :
    m'.Rotating t (ids ++ (m.newcomers now).map PrivateCertificate.id) ∧
      (outcome = some true → m'.store.getPrivate = .ok (m.left now ++ m.newcomers now) ∧
        Topped t (ids ++ (m.newcomers now).map PrivateCertificate.id) now.now
          (m.left now ++ m.newcomers now)) := by
  obtain ⟨weeded, unexpired⟩ := h.weeded past
  have widen : ∀ {m' : Manager}, m'.Rotating t ids →
      m'.Rotating t (ids ++ (m.newcomers now).map PrivateCertificate.id) :=
    fun before => before.mono (Int.le_refl _) (List.subset_append_left ..)
  cases renewing with
  | @enough cs got enough =>
      have found : m.left now = cs := by
        rw [Manager.left, got]
        rfl
      refine ⟨widen weeded, fun _ => ?_⟩
      rw [newcomers_of_enough (found ▸ enough), List.append_nil, found]
      refine ⟨got, (weeded.mono (Int.le_refl _) (List.subset_append_left ..)).stored cs got,
        unexpired cs got, ?_⟩
      apply (weeded.stored cs got).windows.full_of_length
      rw [List.length_map]
      exact enough
  | short failed wiped =>
      exact ⟨widen ((Rotating.steady _).read weeded wiped), fun success => absurd success failed⟩
  | @filled _ stored m₁ _ metadata new e _ loaded told filled made same =>
      obtain ⟨_, _, _, found⟩ := loaded.frame
      have found : m.left now = stored.getD [] := found.symm
      rw [made] at distinct ⊢
      rw [found]
      have unexpired : ∀ c ∈ stored.getD [], now.now < c.notAfter := by
        cases loaded with
        | found got => exact unexpired _ got
        | wiped _ _ => exact fun c member => (List.not_mem_nil member).elim
      obtain ⟨grown, full, ahead⟩ := (weeded.loaded loaded).grow late ample past unexpired
        (h.describable metadata told) filled distinct
      have put := Store.getPrivate_replacePrivate m₁.store grown.lasting
      have all : Rotating t (ids ++ new.map PrivateCertificate.id)
          { m₁ with entropy := e, store := m₁.store.replacePrivate (stored.getD [] ++ new) } := by
        apply ((Rotating.steady _).read weeded loaded.read).store e
        intro cs got
        rw [put] at got
        exact Except.ok.inj got ▸ grown
      refine ⟨(Rotating.steady _).kept all same, fun _ => ⟨?_, grown, ahead, full⟩⟩
      exact (same.stored all.apart).getPrivate.trans put

theorem refresh_topped (h : m.Rotating t ids) (late : t.Ample) (ample : now.now.Ample)
    (past : now.now.nanos ≤ t.nanos)
    (distinct : (ids ++ (m.newcomers now).map PrivateCertificate.id).Nodup) (requestUpload : Bool) :
    Leaves (Rotating t (ids ++ (m.newcomers now).map PrivateCertificate.id))
      (fun r => r.2.Rotating t (ids ++ (m.newcomers now).map PrivateCertificate.id) ∧
        (r.1 = true → r.2.store.getPrivate = .ok (m.left now ++ m.newcomers now) ∧
          Topped t (ids ++ (m.newcomers now).map PrivateCertificate.id) now.now
            (m.left now ++ m.newcomers now)))
      (m.refresh requestUpload now) := by
  apply (refresh_spec m requestUpload now).mono
  · intro m' renewing
    exact (renewing.rotating h late ample past distinct).1
  · intro r renewing
    obtain ⟨rotating, topped⟩ := renewing.rotating h late ample past distinct
    exact ⟨rotating, fun success => topped (congrArg some success)⟩

theorem refresh_leaves (h : m.Rotating now.now ids) (ample : now.now.Ample)
    (distinct : (ids ++ (m.newcomers now).map PrivateCertificate.id).Nodup) (requestUpload : Bool) :
    Leaves (Rotating now.now (ids ++ (m.newcomers now).map PrivateCertificate.id))
      (fun r => r.2.Rotating now.now (ids ++ (m.newcomers now).map PrivateCertificate.id) ∧
        (r.1 = true → r.2.Renewed now.now))
      (m.refresh requestUpload now) := by
  apply (refresh_topped h ample ample (Int.le_refl _) distinct requestUpload).mono
    (fun _ left => left)
  rintro r ⟨rotating, topped⟩
  exact ⟨rotating, fun success => (topped success).2.renewed (topped success).1⟩

/-- So every command keeps what holds at any time. -/
theorem Rotating.preserved (late : t.Ample) (ample : now.now.Ample)
    (past : now.now.nanos ≤ t.nanos) : Preserved now (Rotating t) where
  toSteady := Rotating.steady t
  refresh h distinct requestUpload :=
    (refresh_topped h late ample past distinct requestUpload).mono (fun _ left => left)
      fun _ left => left.1
  encryptMetadataKey h v := h.encryptMetadataKey v

end Manager
end ProximityCert

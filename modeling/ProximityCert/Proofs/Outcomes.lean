import ProximityCert.Failure

/-!
Taking apart work that has succeeded: each of its parts has, one after the other; and work that
completes, whatever it results in.
-/

namespace ProximityCert

variable {ε α β : Type}

theorem bind_eq_ok {x : Except ε α} {f : α → Except ε β} {b : β} :
    x >>= f = .ok b ↔ ∃ a, x = .ok a ∧ f a = .ok b := by
  cases x with
  | error e =>
      constructor
      · intro h
        cases h
      · rintro ⟨a, h, _⟩
        cases h
  | ok a =>
      constructor
      · intro h
        exact ⟨a, rfl, h⟩
      · rintro ⟨a', same, h⟩
        cases same
        exact h

theorem map_eq_ok {x : Except ε α} {f : α → β} {b : β} :
    x.map f = .ok b ↔ ∃ a, x = .ok a ∧ f a = b := by
  cases x with
  | error e =>
      constructor
      · intro h
        cases h
      · rintro ⟨a, h, _⟩
        cases h
  | ok a =>
      constructor
      · intro h
        exact ⟨a, rfl, Except.ok.inj h⟩
      · rintro ⟨a', same, h⟩
        cases same
        exact congrArg Except.ok h

theorem eq_ok_of_toOption {x : Except ε α} {a : α} (h : x.toOption = some a) : x = .ok a := by
  cases x with
  | error e => cases h
  | ok b => exact congrArg _ (Option.some.inj h)

theorem Failure.ifAbsent_eq_ok {f : Failure} {x : Option α} {a : α} :
    f.ifAbsent x = .ok a ↔ x = some a := by
  cases x with
  | none =>
      constructor
      · intro h
        cases h
      · intro h
        cases h
  | some b =>
      constructor
      · intro h
        exact congrArg some (Except.ok.inj h)
      · intro h
        exact congrArg Except.ok (Option.some.inj h)

/-- Work that comes to a result. -/
def Completes (x : Except ε α) : Prop := ∃ a, x = .ok a

theorem completes_ok (a : α) : Completes (.ok a : Except ε α) := ⟨a, rfl⟩

theorem not_completes_error (e : ε) : ¬ Completes (.error e : Except ε α) := by
  rintro ⟨a, h⟩
  cases h

instance (x : Except ε α) : Decidable (Completes x) :=
  match x with
  | .ok a => isTrue (completes_ok a)
  | .error e => isFalse (not_completes_error e)

theorem completes_bind {x : Except ε α} {f : α → Except ε β} :
    Completes (x >>= f) ↔ Completes x ∧ ∀ a, x = .ok a → Completes (f a) := by
  cases x with
  | error e =>
      constructor
      · intro h
        exact (not_completes_error e h).elim
      · rintro ⟨h, _⟩
        exact (not_completes_error e h).elim
  | ok a =>
      constructor
      · intro h
        refine ⟨completes_ok a, ?_⟩
        rintro a' same
        cases same
        exact h
      · rintro ⟨_, h⟩
        exact h a rfl

theorem completes_map {x : Except ε α} {f : α → β} : Completes (x.map f) ↔ Completes x := by
  constructor
  · rintro ⟨b, h⟩
    obtain ⟨a, h, _⟩ := map_eq_ok.1 h
    exact ⟨a, h⟩
  · rintro ⟨a, h⟩
    exact ⟨f a, map_eq_ok.2 ⟨a, h, rfl⟩⟩

theorem completes_mapM {f : α → Except ε β} {as : List α} :
    Completes (as.mapM f) ↔ ∀ a ∈ as, Completes (f a) := by
  induction as with
  | nil =>
      constructor
      · intro _ a member
        cases member
      · intro _
        exact completes_ok []
  | cons a as ih =>
      rw [List.mapM_cons, completes_bind, List.forall_mem_cons, ← ih]
      refine and_congr_right fun ⟨b, first⟩ => ?_
      constructor
      · intro rest
        exact (completes_bind.1 (rest b first)).1
      · intro rest b' _
        exact completes_bind.2 ⟨rest, fun bs _ => completes_ok (b' :: bs)⟩

/-- A list of which every element is read. -/
theorem mapM_eq_some {f : α → Option β} {g : α → β} {as : List α}
    (each : ∀ a ∈ as, f a = some (g a)) : as.mapM f = some (as.map g) := by
  induction as with
  | nil => rfl
  | cons a as ih =>
      rw [List.forall_mem_cons] at each
      rw [List.mapM_cons, each.1, ih each.2]
      rfl

theorem mapM_eq_none {f : α → Option β} {as : List α} (unread : ∃ a ∈ as, f a = none) :
    as.mapM f = none := by
  induction as with
  | nil =>
      obtain ⟨a, member, _⟩ := unread
      cases member
  | cons a as ih =>
      rw [List.mapM_cons]
      cases read : f a with
      | none => rfl
      | some b =>
          obtain ⟨a', member, none⟩ := unread
          rcases List.mem_cons.1 member with rfl | later
          · cases read.symm.trans none
          · rw [ih ⟨a', later, none⟩]
            rfl

theorem exists_of_mapM_eq_some {f : α → Option β} {as : List α} {bs : List β}
    (h : as.mapM f = some bs) : ∀ b ∈ bs, ∃ a ∈ as, f a = some b := by
  induction as generalizing bs with
  | nil =>
      cases h
      intro b member
      cases member
  | cons a as ih =>
      rw [List.mapM_cons] at h
      obtain ⟨b, first, h⟩ := Option.bind_eq_some_iff.1 h
      obtain ⟨rest, read, h⟩ := Option.bind_eq_some_iff.1 h
      cases h
      intro b' member
      rcases List.mem_cons.1 member with rfl | later
      · exact ⟨a, List.mem_cons_self, first⟩
      · obtain ⟨a', own, same⟩ := ih read b' later
        exact ⟨a', List.mem_cons_of_mem a own, same⟩

end ProximityCert

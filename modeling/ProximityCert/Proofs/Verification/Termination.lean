import ProximityCert.Proofs.Verification.Ledger

/-!
Every run over a connection ends, if both sides keep taking steps. A side that is ready comes closer to
its end with its next step and stays ready until then, and as long as a run has not ended, one of the
two sides is ready.
-/

namespace ProximityCert

namespace Exchange

variable {x : Exchange} {i : Side} {now : Instant}

@[simp] theorem party_step_other (x : Exchange) (i : Side) (now : Instant) :
    (x.step i now).party i.other = x.party i.other := by
  unfold step
  simp only
  split
  · split
    · simp
    · simp
  · split
    · simp
    · split
      · rfl
      · next read =>
          simp
      · split <;> simp
  · rfl

@[simp] theorem party_leave (x : Exchange) (i j : Side) : (x.leave i).party j = x.party j := by
  unfold leave
  split
  · exact party_withDuplex x j _
  · rfl

theorem stage_move_of_ended (ended : (x.party i).stage.Ended) (m : Move) :
    ((x.move m).party i).stage = (x.party i).stage := by
  cases m with
  | leave j => simp [move]
  | step j now =>
      by_cases same : j = i
      · subst same
        rw [move, step_ended ended]
      · obtain rfl : i = j.other := by cases i <;> cases j <;> first | rfl | exact (same rfl).elim
        rw [move, party_step_other]

theorem stage_after_of_ended {moves : Nat → Move} {n : Nat}
    (ended : ((x.after moves n).party i).stage.Ended) (d : Nat) :
    ((x.after moves (n + d)).party i).stage = ((x.after moves n).party i).stage := by
  induction d with
  | zero => rfl
  | succ d ih => rw [← Nat.add_assoc, after, stage_move_of_ended (ih ▸ ended), ih]

/-- Steps that the two runs can still take. -/
def remaining (x : Exchange) : Nat :=
  (x.party .first).stage.remaining + (x.party .second).stage.remaining

theorem remaining_eq (x : Exchange) (i : Side) :
    x.remaining = (x.party i).stage.remaining + (x.party i.other).stage.remaining := by
  cases i with
  | first => rfl
  | second => exact Nat.add_comm _ _

theorem ended_of_remaining (h : x.remaining = 0) (i : Side) : (x.party i).stage.Ended := by
  rw [remaining_eq x i] at h
  exact Nat.eq_zero_of_add_eq_zero_right h

/-- Neither side stops taking steps. -/
def Fair (moves : Nat → Move) : Prop := ∀ side n, ∃ d now, moves (n + d) = .step side now

end Exchange

namespace Ledger

open Exchange

variable {sessions : Side → Session} {times : Side → Instant → Prop} {refusal : Prop} {x : Exchange}
  {sent heard : Side → List V1Frame} {i : Side} {now : Instant}

/-- A step changes nothing, which happens to a side that is not ready, or brings the run closer to its
end. -/
theorem step_eq_or_lt (h : Ledger sessions times refusal x sent heard)
    (writable : ∀ i, (sessions i).Writable) (i : Side) (now : Instant) :
    (¬ x.Ready i ∧ x.step i now = x) ∨
      ((x.step i now).party i).stage.remaining < (x.party i).stage.remaining := by
  cases h.deed writable i now with
  | idle idle next => exact .inl ⟨idle, next⟩
  | sends f out next =>
      rw [next, party_setParty]
      exact .inr (Stage.remaining_afterSend out)
  | refused f out _ next =>
      rw [next, party_setParty]
      exact .inr (Nat.pos_of_ne_zero (Stage.running_of_outgoing out))
  | hears type f pending awaited _ _ _ next =>
      rw [next, party_setParty]
      exact .inr (Stage.remaining_afterRead awaited)

theorem remaining_step_lt (h : Ledger sessions times refusal x sent heard)
    (writable : ∀ i, (sessions i).Writable)
    (ready : x.Ready i) : ((x.step i now).party i).stage.remaining < (x.party i).stage.remaining :=
  (h.step_eq_or_lt writable i now).resolve_left fun idle => idle.1 ready

theorem remaining_move_le (h : Ledger sessions times refusal x sent heard)
    (writable : ∀ i, (sessions i).Writable) (m : Move) : (x.move m).remaining ≤ x.remaining := by
  cases m with
  | leave i => simp [Exchange.move, remaining]
  | step i now =>
      rcases h.step_eq_or_lt writable i now with ⟨_, same⟩ | less
      · exact Nat.le_of_eq (congrArg remaining same)
      · rw [Exchange.move, remaining_eq _ i, remaining_eq x i, party_step_other]
        exact Nat.add_le_add_right (Nat.le_of_lt less) _

/-- A side that is ready stays ready until it takes a step. -/
theorem ready_move (h : Ledger sessions times refusal x sent heard)
    (writable : ∀ i, (sessions i).Writable)
    (ready : x.Ready i) {m : Move} (other : ∀ now, m ≠ .step i now) : (x.move m).Ready i := by
  cases m with
  | leave j =>
      have inbox : (x.leave j).duplex.inbox i = x.duplex.inbox i := by
        unfold Exchange.leave
        split <;> simp
      simpa [Exchange.move, Ready, inbox] using ready
  | step j now =>
      obtain rfl : j = i.other := by cases i <;> cases j <;> first | rfl | exact (other now rfl).elim
      have party : (x.step i.other now).party i = x.party i := by
        simpa using party_step_other x i.other now
      have inbox : x.duplex.inbox i ≠ [] → (x.step i.other now).duplex.inbox i ≠ [] := by
        intro filled
        cases h.deed writable i.other now with
        | idle _ next => rwa [next]
        | sends f _ next => simp [next]
        | refused f _ _ next => simpa [next] using filled
        | hears type f pending _ _ _ _ next => simpa [next] using filled
      exact ⟨party ▸ ready.1, party ▸ ready.2.imp_right inbox⟩

/-- As long as a run has not ended, one of the two sides is ready. -/
theorem exists_ready (h : Ledger sessions times refusal x sent heard) (running : x.remaining ≠ 0) :
    ∃ i, x.Ready i := by
  obtain ⟨i, unended⟩ : ∃ i, ¬ (x.party i).stage.Ended := by
    by_cases first : (x.party .first).stage.Ended
    · refine ⟨.second, fun second => running ?_⟩
      rw [remaining, first, second]
    · exact ⟨.first, first⟩
  cases awaited : (x.party i).stage.awaited? with
  | none => exact ⟨i, unended, .inl awaited⟩
  | some type =>
      by_cases empty : x.duplex.inbox i = []
      · exact ⟨i.other, h.peer_of_empty awaited empty⟩
      · exact ⟨i, unended, .inr empty⟩

end Ledger

namespace Exchange

variable {sessions : Side → Session} {times : Side → Instant → Prop} {refusal : Prop} {x : Exchange}
    {moves : Nat → Move}
  (writable : ∀ i, (sessions i).Writable)
  (ledgers : ∀ n, ∃ sent heard, Ledger sessions times refusal (x.after moves n) sent heard)
include writable ledgers

theorem remaining_after_le (n d : Nat) :
    (x.after moves (n + d)).remaining ≤ (x.after moves n).remaining := by
  induction d with
  | zero => exact Nat.le_refl _
  | succ d ih =>
      obtain ⟨sent, heard, ledger⟩ := ledgers (n + d)
      exact Nat.le_trans (ledger.remaining_move_le writable (moves (n + d))) ih

/-- By the time that a ready side has stepped, one of the runs has come closer to its end. -/
theorem remaining_after_lt {i : Side} {now : Instant} {n d : Nat}
    (ready : (x.after moves n).Ready i) (steps : moves (n + d) = .step i now) :
    (x.after moves (n + d + 1)).remaining < (x.after moves n).remaining := by
  have own {m : Nat} {now : Instant} (ready : (x.after moves m).Ready i)
    (steps : moves m = .step i now) :
      (x.after moves (m + 1)).remaining < (x.after moves m).remaining := by
    obtain ⟨sent, heard, ledger⟩ := ledgers m
    rw [after, steps, move, remaining_eq _ i, remaining_eq (x.after moves m) i, party_step_other]
    exact Nat.add_lt_add_right (ledger.remaining_step_lt writable ready) _
  induction d generalizing n with
  | zero => exact own ready steps
  | succ d ih =>
      by_cases first : ∃ now, moves n = .step i now
      · obtain ⟨now', first⟩ := first
        have later := remaining_after_le writable ledgers (n + 1) (d + 1)
        rw [Nat.add_right_comm n 1 (d + 1)] at later
        exact Nat.lt_of_le_of_lt later (own ready first)
      · obtain ⟨sent, heard, ledger⟩ := ledgers n
        have still := ledger.ready_move writable ready (m := moves n) fun now' same =>
          first ⟨now', same⟩
        have less := ih (n := n + 1) still (by rwa [Nat.add_right_comm])
        rw [Nat.add_right_comm n 1 d] at less
        exact Nat.lt_of_lt_of_le less (remaining_after_le writable ledgers n 1)

theorem exists_ended (fair : Fair moves) : ∃ n, (x.after moves n).remaining = 0 := by
  have ends (k n : Nat) (left : (x.after moves n).remaining = k) : ∃ m,
    (x.after moves m).remaining = 0 := by
    induction k using Nat.strongRecOn generalizing n with
    | ind k ih =>
        by_cases done : k = 0
        · exact ⟨n, left.trans done⟩
        · obtain ⟨sent, heard, ledger⟩ := ledgers n
          obtain ⟨i, ready⟩ := ledger.exists_ready (by omega)
          obtain ⟨d, now, steps⟩ := fair i n
          have less := remaining_after_lt writable ledgers ready steps
          exact ih _ (left ▸ less) (n + d + 1) rfl
  exact ends _ 0 rfl

theorem exists_outcomes (fair : Fair moves) : ∃ n o p,
    ((x.after moves n).party .first).stage = .finished o ∧
      ((x.after moves n).party .second).stage = .finished p := by
  obtain ⟨n, done⟩ := exists_ended writable ledgers fair
  obtain ⟨o, first⟩ := Stage.ended_iff.1 (ended_of_remaining done .first)
  obtain ⟨p, second⟩ := Stage.ended_iff.1 (ended_of_remaining done .second)
  exact ⟨n, o, p, first, second⟩

end Exchange
end ProximityCert

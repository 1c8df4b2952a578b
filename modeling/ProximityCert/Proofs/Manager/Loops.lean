import ProximityCert.Manager.Loop
import ProximityCert.Proofs.Manager.Runs

/-!
The worker and the timers of a manager in time. All that they do between two commands from outside are
steps of the manager at one moment, so it goes through the same runs as its commands.
-/

namespace ProximityCert

namespace Manager

/-- Steps at one moment, one after the other, with the certificates that they make. -/
inductive Steps (now : Moment) : Manager → List PrivateCertificate → Manager → Prop
  | none (m : Manager) : Steps now m [] m
  | next {m m' m'' : Manager} {new later : List PrivateCertificate} :
      Steps now m new m' → Step now m' later m'' → Steps now m (new ++ later) m''

variable {now : Moment} {m m' m'' : Manager} {made new later : List PrivateCertificate} {t : Instant}

namespace Steps

theorem one (step : Step now m new m') : Steps now m new m' := (none m).next step

theorem quiet (steps : Steps now m new m') (step : Step now m' [] m'') : Steps now m new m'' :=
  List.append_nil new ▸ steps.next step

theorem trans (steps : Steps now m new m') (more : Steps now m' later m'') :
    Steps now m (new ++ later) m'' := by
  induction more with
  | none => exact (List.append_nil new).symm ▸ steps
  | next _ step ih =>
      rw [← List.append_assoc]
      exact ih.next step

end Steps

/-- A run goes on through such steps. -/
theorem Run.steps (run : Run t made m) (onward : t ≤ now.now) (ample : now.now.Ample)
    (steps : Steps now m new m') : ∃ u, Run u (made ++ new) m' ∧ u ≤ now.now := by
  induction steps with
  | none => exact ⟨t, (List.append_nil made).symm ▸ run, onward⟩
  | next _ step ih =>
      obtain ⟨u, before, past⟩ := ih
      rw [← List.append_assoc]
      exact ⟨now.now, before.step past ample step, Int.le_refl _⟩

end Manager

namespace ManagerLoop

open Manager

variable {now : Moment} {l l' : ManagerLoop}

/-- If the clocks can be read at all, they give this moment. -/
def Reads (now : Moment) (l : ManagerLoop) : Prop := ∀ u, l.timeline.moment = .ok u → u = now

theorem exists_reads (l : ManagerLoop) : ∃ now, l.Reads now := by
  cases moment : l.timeline.moment with
  | ok now =>
      refine ⟨now, ?_⟩
      intro u same
      exact (Except.ok.inj (moment.symm.trans same)).symm
  | error fault =>
      refine ⟨⟨Instant.epoch, 0⟩, ?_⟩
      intro u same
      exact nomatch moment.symm.trans same

/-- What happens to a manager in time while its clocks stand still. -/
def Still (now : Moment) (l l' : ManagerLoop) : Prop :=
  l'.timeline = l.timeline ∧ ∃ new, Steps now l.manager new l'.manager

namespace Still

theorem refl (now : Moment) (l : ManagerLoop) : Still now l l := ⟨rfl, [], .none l.manager⟩

theorem trans {l'' : ManagerLoop} (h : Still now l l') (h' : Still now l' l'') :
    Still now l l'' := by
  obtain ⟨before, new, steps⟩ := h
  obtain ⟨after, later, more⟩ := h'
  exact ⟨after.trans before, new ++ later, steps.trans more⟩

theorem goOn {r : Except Interrupted Manager} {new : List PrivateCertificate}
    (step : Step now l.manager new (leftBy id r)) : Still now l (l.goOn r) := by
  cases r with
  | ok m => exact ⟨rfl, new, .one step⟩
  | error e => exact ⟨rfl, new, (Steps.one step).quiet (.abandoned e.manager)⟩

theorem reads (h : Still now l l') (reads : l.Reads now) : l'.Reads now := by
  rw [Reads, h.1]
  exact reads

theorem work (reads : l.Reads now) (worked : l.work = .ok l') : Still now l l' := by
  obtain ⟨u, moment, worked⟩ := bind_eq_ok.1 worked
  rw [reads u moment] at worked
  split at worked
  · next task _ =>
      rw [← Except.ok.inj worked]
      exact goOn (l := { l with executing := none }) (.task l.manager task)
  · rw [← Except.ok.inj worked]
    exact refl now l
  · rw [← Except.ok.inj worked]
    exact refl now l
  · next c queue _ _ _ =>
      rw [← Except.ok.inj worked]
      have left : leftBy id ((l.manager.perform now c).map Prod.snd) =
          leftBy Prod.snd (l.manager.perform now c) := by
        cases l.manager.perform now c with
        | ok r => rfl
        | error e => rfl
      apply goOn (l := { l with queue })
      rw [left]
      exact .command l.manager c

theorem fire (now : Moment) (l : ManagerLoop) (kind : TaskKind) : Still now l (l.fire kind) := by
  unfold ManagerLoop.fire
  split
  · exact refl now l
  · next s found =>
      split
      · exact refl now l
      · have fired := Steps.one (Step.timer found : Step now l.manager [] _)
        dsimp only
        split
        · unfold enqueue
          split
          · exact ⟨rfl, [], fired⟩
          · exact ⟨rfl, [], fired⟩
        · exact ⟨rfl, [], fired⟩

theorem fireAll (now : Moment) (kinds : List TaskKind) (l : ManagerLoop) :
    Still now l (kinds.foldl ManagerLoop.fire l) := by
  induction kinds generalizing l with
  | nil => exact refl now l
  | cons kind kinds ih => exact (fire now l kind).trans (ih (l.fire kind))

theorem drain {n : Nat} (reads : l.Reads now) (drained : drain n l = .ok l') :
    Still now l l' := by
  induction n generalizing l with
  | zero => exact Except.ok.inj drained ▸ refl now l
  | succ n ih =>
      rw [ManagerLoop.drain] at drained
      split at drained
      · exact Except.ok.inj drained ▸ refl now l
      · obtain ⟨l₁, worked, rest⟩ := bind_eq_ok.1 drained
        have first := work reads worked
        exact first.trans (ih (first.reads reads) rest)

theorem settle {n : Nat} (reads : l.Reads now) (settled : settle n l = .ok l') :
    Still now l l' := by
  induction n generalizing l with
  | zero => exact Except.ok.inj settled ▸ refl now l
  | succ n ih =>
      obtain ⟨l₁, drained, rest⟩ := bind_eq_ok.1 settled
      have first := drain reads drained
      split at rest
      · exact Except.ok.inj rest ▸ first
      · have both := first.trans (fireAll now (l₁.dueBy l₁.timeline.elapsed) l₁)
        exact both.trans (ih (both.reads reads) rest)

end Still
end ManagerLoop
end ProximityCert

import ProximityCert.Proofs.Verification.Termination

/-!
Two runs over one connection come to the same verdict. Either side merges its own two checks with the
verdict that the other has merged already, and it does not matter which of them merges first; a side
that rejects its peer fails, and lets the peer fail with it.
-/

namespace ProximityCert

namespace Verdict

/-- Only failures, and whether all is success, count for a merged verdict. -/
theorem merge_congr {vs ws : List Verdict} (failing : fail ∈ vs ↔ fail ∈ ws)
    (succeeding : (∀ v ∈ vs, v = success) ↔ ∀ v ∈ ws, v = success) : merge vs = merge ws := by
  simp only [merge, failing, succeeding]

/-- What either side makes of both sides' checks is the same. -/
theorem merge_swap (a b c d : Verdict) :
    merge [a, b, merge [c, d]] = merge [c, d, merge [a, b]] := by
  have failing (a b c d : Verdict) : fail ∈ [a, b, merge [c, d]] ↔ fail = a ∨ fail = b ∨ fail = c ∨
    fail = d := by
    simp [eq_comm (a := fail) (b := merge _), merge_eq_fail_iff]
  have succeeding (a b c d : Verdict) :
      (∀ v ∈ [a, b, merge [c, d]], v = success) ↔ a = success ∧ b = success ∧ c = success ∧
        d = success := by
    simp [merge_eq_success_iff]
  apply merge_congr
  · rw [failing, failing]
    constructor
    · rintro (h | h | h | h) <;> simp [h]
    · rintro (h | h | h | h) <;> simp [h]
  · rw [succeeding, succeeding]
    constructor
    · rintro ⟨ha, hb, hc, hd⟩
      exact ⟨hc, hd, ha, hb⟩
    · rintro ⟨hc, hd, ha, hb⟩
      exact ⟨ha, hb, hc, hd⟩

end Verdict

theorem Stage.conclude_resultFrame {s : Session} {i σ v : Verdict} {r : PairedKeyResult}
    (told : (resultFrame s v).result = some r) : conclude i σ r = ⟨.merge [i, σ, v], s.osType⟩ := by
  obtain rfl := Option.some.inj told
  simp [conclude, OsType.ofCode?_code]

theorem second_heard {e v f g : V1Frame} {pending : List V1Frame}
    (flow : [e, v] = [f, g] ++ pending) : g = v := by
  obtain ⟨rfl, _⟩ := List.cons.inj (List.cons.inj flow).2
  rfl

namespace Ledger

variable {sessions : Side → Session} {times : Side → Instant → Prop} {refusal : Prop} {x : Exchange}
  {sent heard : Side → List V1Frame} {i : Side} {now : Instant} {o p : Outcome}

/-- Runs that have both ended agree. -/
theorem verdict_eq (h : Ledger sessions times refusal x sent heard)
    (here : (x.party i).stage = .finished o)
    (there : (x.party i.other).stage = .finished p) : o.verdict = p.verdict := by
  have both_failed (mine : (x.party i).stage = .finished .failed)
    (theirs : (x.party i.other).stage = .finished .failed) :
      o.verdict = p.verdict := by
    obtain rfl := Stage.finished.inj (here.symm.trans mine)
    obtain rfl := Stage.finished.inj (there.symm.trans theirs)
    rfl
  rcases h.run i with mine | ⟨mine, theirs, _⟩
  · rcases h.run i.other with theirs | ⟨theirs, mine, _⟩
    · obtain ⟨toMe, flow, _⟩ := h.channel i
      obtain ⟨toPeer, flow', _⟩ := h.channel i.other
      rw [Side.other_other] at flow'
      rw [here] at mine
      rw [there] at theirs
      rcases mine.of_finished with ⟨rfl, _, t, said⟩ | ⟨t, f, a, b, g, r, said, listened, _,
        carried, rfl⟩
      · rcases theirs.of_finished with ⟨rfl, _, t', said'⟩ | ⟨t', f', c, d, g', r', said',
          listened', _, carried', rfl⟩
        · rfl
        · obtain rfl := second_heard (said ▸ listened' ▸ flow')
          rw [Stage.conclude_resultFrame carried']
          exact (Verdict.merge_eq_fail_iff.2 (by simp)).symm
      · rcases theirs.of_finished with ⟨rfl, _, t', said'⟩ | ⟨t', f', c, d, g', r', said',
          listened', _, carried', rfl⟩
        · obtain rfl := second_heard (said' ▸ listened ▸ flow)
          rw [Stage.conclude_resultFrame carried]
          exact Verdict.merge_eq_fail_iff.2 (by simp)
        · obtain rfl := second_heard (said' ▸ listened ▸ flow)
          obtain rfl := second_heard (said ▸ listened' ▸ flow')
          rw [Stage.conclude_resultFrame carried, Stage.conclude_resultFrame carried']
          exact Verdict.merge_swap a b c d
    · rw [Side.other_other] at mine
      exact both_failed mine theirs
  · exact both_failed mine theirs

/-- Unless a side has rejected its peer, a run that has ended has heard the peer's verdict. -/
theorem orderly_progress (h : Ledger sessions times refusal x sent heard) (orderly : ¬ refusal)
    (ended : (x.party i).stage = .finished o) :
    Progress (sessions i) (times i) (times i) (.finished o) (sent i) (heard i) ∧
      ¬ (heard i).length < 2 := by
  have through : ¬ (heard i).length < 2 :=
    fun little => orderly (h.early i (.inr ⟨Stage.ended_iff.2 ⟨o, ended⟩, little⟩))
  exact ⟨ended ▸ (h.run i).resolve_right fun lost => through lost.2.2, through⟩

/-- Then its outcome is merged from the checks of both sides, and it reports the system of the peer. -/
theorem orderly_outcome (h : Ledger sessions times refusal x sent heard) (orderly : ¬ refusal)
    (here : (x.party i).stage = .finished o) (there : (x.party i.other).stage = .finished p) :
    ∃ f g a b f' g' c d, heard i = [f, g] ∧ (sessions i).Judged (times i) f (some a) b ∧
      heard i.other = [f', g'] ∧
      (sessions i.other).Judged (times i.other) f' (some c) d ∧
      o = ⟨.merge [a, b, .merge [c, d]], (sessions i.other).osType⟩ := by
  obtain ⟨mine, through⟩ := h.orderly_progress orderly here
  obtain ⟨theirs, through'⟩ := h.orderly_progress orderly there
  rcases mine.of_finished with ⟨_, little, _⟩ | ⟨t, f, a, b, g, r, said, listened, judged, carried,
    rfl⟩
  · exact (through little).elim
  · rcases theirs.of_finished with ⟨_, little, _⟩ | ⟨t', f', c, d, g', r', said', listened',
      judged', carried', rfl⟩
    · exact (through' little).elim
    · obtain ⟨_, flow, _⟩ := h.channel i
      obtain rfl := second_heard (said' ▸ listened ▸ flow)
      exact ⟨f, _, a, b, f', g', c, d, listened, judged, listened', judged',
        Stage.conclude_resultFrame carried⟩

end Ledger

namespace Exchange

theorem outcome?_eq_some {x : Exchange} {i : Side} {o : Outcome}
    (h : (x.party i).stage = .finished o) :
    x.outcome? i = some o := by
  simp [outcome?, h]

theorem outcome?_after {x : Exchange} {moves : Nat → Move} {n : Nat} {i : Side} {o : Outcome}
    (h : ((x.after moves n).party i).stage = .finished o) (d : Nat) :
    (x.after moves (n + d)).outcome? i = some o :=
  outcome?_eq_some ((stage_after_of_ended (Stage.ended_iff.2 ⟨o, h⟩) d).trans h)

/-- Two runs over one connection end with the same verdict, whatever the sessions and in whatever order
they take their steps; and if neither rejects its peer outright, each reports the system of the other. -/
theorem agreement {a b : Session} (writable : a.Writable ∧ b.Writable) {moves : Nat → Move}
    (fair : Fair moves) :
    ∃ n o p, (∀ d, ((begin a b).after moves (n + d)).outcome? .first = some o ∧
        ((begin a b).after moves (n + d)).outcome? .second = some p) ∧
      o.verdict = p.verdict ∧
      ((∀ m i, (((begin a b).after moves m).party i).stage ≠ .rejecting) → o.peerOs = b.osType ∧
        p.peerOs = a.osType) := by
  have ledgers := Ledger.after writable moves (fun _ _ => True)
    (∃ m i, (((begin a b).after moves m).party i).stage = .rejecting) (fun _ _ _ _ _ => trivial)
    (fun m i rejecting => ⟨m, i, rejecting⟩)
  have each : ∀ i, (Side.pair a b i).Writable := Side.both .first writable.1 writable.2
  obtain ⟨n, o, p, first, second⟩ := exists_outcomes each ledgers fair
  obtain ⟨sent, heard, ledger⟩ := ledgers n
  refine ⟨n, o, p, fun d => ⟨outcome?_after first d, outcome?_after second d⟩,
    ledger.verdict_eq first second, ?_⟩
  intro orderly
  have none_rejected : ¬ ∃ m i, (((begin a b).after moves m).party i).stage = .rejecting :=
    fun ⟨m, i, rejecting⟩ => orderly m i rejecting
  obtain ⟨_, _, _, _, _, _, _, _, _, _, _, _, rfl⟩ :=
    ledger.orderly_outcome none_rejected first second
  obtain ⟨_, _, _, _, _, _, _, _, _, _, _, _, rfl⟩ :=
    ledger.orderly_outcome none_rejected second first
  exact ⟨rfl, rfl⟩

/-- A device without certificates that lets only contacts through. -/
def guarded : Session where
  target := { isIncoming := true, isKnown := false }
  token := [1, 2, 3]
  visibility := .settled .hidden
  credentials := ⟨fun _ _ => none, fun _ _ => none⟩
  restrictToContacts := true
  osType := .chromeOs
  filler := ⟨fun _ => 0, 0⟩

/-- A device without certificates that has another token. -/
def stranger : Session :=
  { guarded with
    target := { isIncoming := false, isKnown := false }
    token := []
    restrictToContacts := false }

def alternating (n : Nat) : Move := .step (if n % 2 = 0 then .first else .second) .epoch

theorem fair_alternating : Fair alternating := by
  intro side n
  have parity : n % 2 = 0 ∧ (n + 1) % 2 = 1 ∨ n % 2 = 1 ∧ (n + 1) % 2 = 0 := by omega
  cases side with
  | first =>
      rcases parity with ⟨even, _⟩ | ⟨_, even⟩
      · exact ⟨0, .epoch, by simp [alternating, even]⟩
      · exact ⟨1, .epoch, by simp [alternating, even]⟩
  | second =>
      rcases parity with ⟨_, odd⟩ | ⟨odd, _⟩
      · exact ⟨1, .epoch, by simp [alternating, odd]⟩
      · exact ⟨0, .epoch, by simp [alternating, odd]⟩

theorem agreement_guarded :
    (guarded.Writable ∧ stranger.Writable) ∧ Fair alternating ∧
      ∃ n o p, (∀ d, ((begin guarded stranger).after alternating (n + d)).outcome? .first = some o ∧
          ((begin guarded stranger).after alternating (n + d)).outcome? .second = some p) ∧
        o.verdict = p.verdict ∧
        ((∀ m i, (((begin guarded stranger).after alternating m).party i).stage ≠ .rejecting) →
          o.peerOs = stranger.osType ∧ p.peerOs = guarded.osType) := by
  have guarded_writable : guarded.Writable := by
    intro now
    rw [show guarded.encryption now = guarded.encryption .epoch from rfl]
    decide
  have stranger_writable : stranger.Writable := by
    intro now
    rw [show stranger.encryption now = stranger.encryption .epoch from rfl]
    decide
  have writable := And.intro guarded_writable stranger_writable
  exact ⟨writable, fair_alternating, agreement writable fair_alternating⟩

end Exchange
end ProximityCert

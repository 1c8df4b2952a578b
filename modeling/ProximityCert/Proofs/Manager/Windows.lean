import ProximityCert.Manager.Refresh
import ProximityCert.Proofs.Certificate.Privates

/-!
The windows of private certificates. For each visibility they follow upon each other without a gap,
and the first has opened. Dropping what has expired cuts such a row at its front only, so the first
window that is left still reaches back to the present, and new windows continue the row.
-/

namespace ProximityCert

/-- What a certificate is valid for, and when. -/
structure Window where
  visibility : Visibility
  opens : Instant
  closes : Instant
  deriving DecidableEq

def PrivateCertificate.window (c : PrivateCertificate) : Window :=
  ⟨c.visibility, c.notBefore, c.notAfter⟩

namespace Window

def covers (now : Instant) (w : Window) : Bool := decide (w.opens ≤ now) && decide (now < w.closes)

def of (v : Visibility) (ws : List Window) : List Window := ws.filter fun w => w.visibility = v

@[simp] theorem of_append (v : Visibility) (xs ys : List Window) :
    of v (xs ++ ys) = of v xs ++ of v ys := List.filter_append ..

theorem mem_of {v : Visibility} {ws : List Window} {w : Window} :
    w ∈ of v ws ↔ w ∈ ws ∧ w.visibility = v := by
  simp [of]

/-- A row of windows of one validity period each: the first opens at an instant, each of the others
where the one before it closes, and the last closes at another instant. -/
inductive Row : Instant → List Window → Instant → Prop
  | nil (t : Instant) : Row t [] t
  | cons {w : Window} {ws : List Window} {stop : Instant} :
      w.closes.nanos = w.opens.nanos + PrivateCertificate.validityPeriod → Row w.closes ws stop →
      Row w.opens (w :: ws) stop

namespace Row

variable {start stop mid now : Instant} {ws xs ys : List Window}

theorem positive : (0 : Int) < PrivateCertificate.validityPeriod := by decide

theorem eq_of_nil (h : Row start [] stop) : start = stop := by
  cases h with
  | nil t => rfl

theorem opens_eq {w : Window} (h : Row start (w :: ws) stop) : w.opens = start := by
  cases h with
  | cons _ _ => rfl

theorem append (h : Row start xs mid) (h' : Row mid ys stop) : Row start (xs ++ ys) stop := by
  induction h with
  | nil t => exact h'
  | cons period _ ih => exact .cons period (ih h')

theorem stop_eq (h : Row start ws stop) :
    stop.nanos = start.nanos + ws.length * (PrivateCertificate.validityPeriod : Int) := by
  induction h with
  | nil t => simp
  | cons period _ ih =>
      rw [ih, period, List.length_cons, Int.natCast_succ, Int.add_mul]
      omega

theorem start_le (h : Row start ws stop) : start.nanos ≤ stop.nanos := by
  have length := h.stop_eq
  have := Int.mul_nonneg (Int.natCast_nonneg ws.length) (Int.le_of_lt positive)
  omega

theorem mem (h : Row start ws stop) {w : Window} (member : w ∈ ws) :
    start.nanos ≤ w.opens.nanos ∧ w.closes.nanos ≤ stop.nanos ∧
      w.closes.nanos = w.opens.nanos + PrivateCertificate.validityPeriod := by
  induction h with
  | nil t => exact (List.not_mem_nil member).elim
  | @cons first ws stop period rest ih =>
      have := positive
      rcases List.mem_cons.1 member with rfl | later
      · exact ⟨Int.le_refl _, rest.start_le, period⟩
      · obtain ⟨opens, closes, own⟩ := ih later
        exact ⟨by omega, closes, own⟩

theorem filter_eq_self (h : Row start ws stop) (future : now.nanos ≤ start.nanos) :
    ws.filter (fun w => now < w.closes) = ws := by
  refine List.filter_eq_self.2 fun w member => decide_eq_true ?_
  obtain ⟨opens, _, period⟩ := h.mem member
  have := positive
  exact show now.nanos < w.closes.nanos by omega

/-- Dropping expired windows cuts a row at its front, and no further than to the present. -/
theorem weed {t : Instant} (h : Row start ws stop) (begun : start.nanos ≤ t.nanos)
    (past : now.nanos ≤ t.nanos) :
    ∃ start', start'.nanos ≤ t.nanos ∧ Row start' (ws.filter fun w => now < w.closes) stop := by
  induction h with
  | nil start => exact ⟨start, begun, .nil start⟩
  | @cons first ws stop period rest ih =>
      by_cases expired : now < first.closes
      · have later : now.nanos ≤ first.closes.nanos := Int.le_of_lt expired
        refine ⟨first.opens, begun, ?_⟩
        rw [List.filter_cons_of_pos (by simpa using expired), rest.filter_eq_self later]
        exact .cons period rest
      · rw [List.filter_cons_of_neg (by simpa using expired)]
        exact ih (Int.le_trans (Int.not_lt.1 expired) past)

/-- The latest end in a row is its last, if that lies ahead. -/
theorem latest (h : Row start ws stop) {t : Instant} (before : t.nanos ≤ start.nanos)
    (some : ws ≠ []) :
    ws.foldl (fun t w => if t ≤ w.closes then w.closes else t) t = stop := by
  induction h generalizing t with
  | nil t => exact (some rfl).elim
  | @cons first ws stop period rest ih =>
      have := positive
      have later : t ≤ first.closes := show t.nanos ≤ first.closes.nanos by omega
      rw [List.foldl_cons, if_pos later]
      by_cases last : ws = []
      · subst last
        exact rest.eq_of_nil
      · exact ih (Int.le_refl _) last

theorem not_covers (h : Row start ws stop) (future : now.nanos < start.nanos) :
    ws.countP (covers now) = 0 := by
  refine List.countP_eq_zero.2 fun w member => ?_
  obtain ⟨opens, _, _⟩ := h.mem member
  have closed : ¬ w.opens ≤ now := show ¬ w.opens.nanos ≤ now.nanos by omega
  simp [covers, closed]

/-- Exactly one window of a row covers an instant between its ends. -/
theorem countP_covers (h : Row start ws stop) (begun : start.nanos ≤ now.nanos)
    (ahead : now.nanos < stop.nanos) :
    ws.countP (covers now) = 1 := by
  induction h with
  | nil t => omega
  | @cons first ws stop period rest ih =>
      have opened : first.opens ≤ now := begun
      by_cases current : now < first.closes
      · have here : covers now first = true := by simp [covers, opened, current]
        rw [List.countP_cons_of_pos here, rest.not_covers current]
      · have past : covers now first ≠ true := by simp [covers, current]
        rw [List.countP_cons_of_neg past]
        exact ih (Int.not_lt.1 current) ahead

end Row
end Window

/-- What is kept of the windows of the stored certificates at any time: every visibility has a row of a
few windows that has begun by the latest reading of the clock. -/
structure Rotation (t : Instant) (ws : List Window) : Prop where
  generated : ∀ w ∈ ws, w.visibility ∈ Visibility.generated
  few : ∀ v ∈ Visibility.generated, (Window.of v ws).length ≤ Manager.certificatesPerVisibility
  rows : ∀ v ∈ Visibility.generated, ∃ start stop, start.nanos ≤ t.nanos ∧
    Window.Row start (Window.of v ws) stop

/-- What a renewal achieves: every visibility has a full row of windows, of which exactly one contains
the present. -/
structure Rotated (now : Instant) (ws : List Window) : Prop where
  generated : ∀ w ∈ ws, w.visibility ∈ Visibility.generated
  period : ∀ w ∈ ws, w.closes.nanos = w.opens.nanos + PrivateCertificate.validityPeriod
  full : ∀ v ∈ Visibility.generated, (Window.of v ws).length = Manager.certificatesPerVisibility
  rows : ∀ v ∈ Visibility.generated, ∃ start stop, Window.Row start (Window.of v ws) stop
  current : ∀ v ∈ Visibility.generated, (Window.of v ws).countP (Window.covers now) = 1

namespace Rotation

open Window

variable {t now : Instant} {ws : List Window}

theorem nil (now : Instant) : Rotation now [] where
  generated _ member := (List.not_mem_nil member).elim
  few _ _ := Nat.zero_le _
  rows _ _ := ⟨now, now, Int.le_refl _, .nil now⟩

theorem mono (h : Rotation t ws) (later : t.nanos ≤ now.nanos) : Rotation now ws where
  generated := h.generated
  few := h.few
  rows v made := by
    obtain ⟨start, stop, begun, row⟩ := h.rows v made
    exact ⟨start, stop, Int.le_trans begun later, row⟩

theorem of_weed (v : Visibility) (now : Instant) (ws : List Window) :
    of v (ws.filter fun w => now < w.closes) = (of v ws).filter fun w => now < w.closes := by
  simp only [of, List.filter_filter, Bool.and_comm]

theorem weed (h : Rotation t ws) (past : now.nanos ≤ t.nanos) :
    Rotation t (ws.filter fun w => now < w.closes) where
  generated w member := h.generated w (List.mem_filter.1 member).1
  few v made := by
    rw [of_weed]
    exact Nat.le_trans (List.length_filter_le _ _) (h.few v made)
  rows v made := by
    obtain ⟨start, stop, begun, row⟩ := h.rows v made
    obtain ⟨start', begun', left⟩ := row.weed begun past
    exact ⟨start', stop, begun', of_weed v now ws ▸ left⟩

theorem length_eq (generated : ∀ w ∈ ws, w.visibility ∈ Visibility.generated) :
    ws.length = (of .allContacts ws).length + (of .selectedContacts ws).length +
      (of .selfShare ws).length := by
  induction ws with
  | nil => rfl
  | cons w ws ih =>
      have rest := ih fun x member => generated x (List.mem_cons_of_mem w member)
      have own := generated w List.mem_cons_self
      simp only [of, List.filter_cons, List.length_cons] at rest ⊢
      simp only [Visibility.generated, List.mem_cons, List.not_mem_nil, or_false] at own
      rcases own with own | own | own <;> simp [own] <;> omega

/-- A full and unexpired store is as a renewal would leave it. -/
theorem rotated (h : Rotation now ws) (unexpired : ∀ w ∈ ws, now < w.closes)
    (full : ∀ v ∈ Visibility.generated, (of v ws).length = Manager.certificatesPerVisibility) :
    Rotated now ws where
  generated := h.generated
  period w member := by
    obtain ⟨start, stop, _, row⟩ := h.rows w.visibility (h.generated w member)
    exact (row.mem (mem_of.2 ⟨member, rfl⟩)).2.2
  full := full
  rows v made := by
    obtain ⟨start, stop, _, row⟩ := h.rows v made
    exact ⟨start, stop, row⟩
  current v made := by
    obtain ⟨start, stop, begun, row⟩ := h.rows v made
    obtain ⟨w, member⟩ : ∃ w, w ∈ of v ws :=
      List.exists_mem_of_length_pos (by rw [full v made]; decide)
    have ahead : now.nanos < w.closes.nanos := unexpired w (mem_of.1 member).1
    exact row.countP_covers begun (Int.lt_of_lt_of_le ahead (row.mem member).2.1)

theorem full_of_length (h : Rotation now ws) (enough : ws.length = Manager.certificateCount) :
    ∀ v ∈ Visibility.generated, (of v ws).length = Manager.certificatesPerVisibility := by
  have sum := length_eq h.generated
  have all := h.few .allContacts (by decide)
  have selected := h.few .selectedContacts (by decide)
  have own := h.few .selfShare (by decide)
  have count : Manager.certificateCount = 9 ∧ Manager.certificatesPerVisibility = 3 := ⟨rfl, rfl⟩
  intro v made
  simp only [Visibility.generated, List.mem_cons, List.not_mem_nil, or_false] at made
  rcases made with rfl | rfl | rfl
  · omega
  · omega
  · omega

end Rotation

namespace Slot

open Window

variable {metadata : Metadata} {e e' : Entropy} {cs : List PrivateCertificate} {t now : Instant}

theorem chain_ok {v : Visibility} {n : Nat} {opensAt : Instant}
    (h : chain v metadata n opensAt e = .ok (cs, e')) :
    (∃ stop, Row opensAt (cs.map PrivateCertificate.window) stop) ∧ cs.length = n ∧
      ∀ c ∈ cs, c.visibility = v ∧ c.metadata = metadata := by
  induction n generalizing opensAt e cs with
  | zero =>
      obtain ⟨rfl, _⟩ := Prod.mk.inj (Except.ok.inj h)
      exact ⟨⟨opensAt, .nil opensAt⟩, rfl, fun _ member => (List.not_mem_nil member).elim⟩
  | succ n ih =>
      rw [chain] at h
      cases made : PrivateCertificate.fresh v opensAt metadata e with
      | error fault => simp [made, bind, Except.bind] at h
      | ok first =>
          obtain ⟨c, e₁⟩ := first
          cases more : chain v metadata n c.notAfter e₁ with
          | error fault => simp [made, more, bind, Except.bind] at h
          | ok rest =>
              obtain ⟨later, e₂⟩ := rest
              simp only [made, more, bind, Except.bind, pure, Except.pure, Except.ok.injEq,
                Prod.mk.injEq] at h
              obtain ⟨rfl, rfl⟩ := h
              obtain ⟨visibility, opens, closes, same⟩ := PrivateCertificate.fresh_ok made
              obtain ⟨⟨stop, row⟩, length, all⟩ := ih more
              refine ⟨⟨stop, ?_⟩, by rw [List.length_cons, length], ?_⟩
              · subst opens
                exact .cons (w := c.window) closes row
              · exact List.forall_mem_cons.2 ⟨⟨visibility, same⟩, all⟩

theorem of_eq_self {v : Visibility} (all : ∀ c ∈ cs, c.visibility = v) :
    Window.of v (cs.map PrivateCertificate.window) = cs.map PrivateCertificate.window := by
  refine List.filter_eq_self.2 fun w member => ?_
  obtain ⟨c, own, rfl⟩ := List.mem_map.1 member
  exact decide_eq_true (all c own)

theorem of_eq_nil {v : Visibility} (none : ∀ c ∈ cs, c.visibility ≠ v) :
    Window.of v (cs.map PrivateCertificate.window) = [] := by
  refine List.filter_eq_nil_iff.2 fun w member => ?_
  obtain ⟨c, own, rfl⟩ := List.mem_map.1 member
  exact fun same => none c own (of_decide_eq_true same)

/-- Every slot is filled up with a row that opens where the slot says, and with nothing else. -/
theorem fillAll_ok {slots : List Slot} (distinct : (slots.map Slot.visibility).Nodup)
    (h : fillAll metadata slots e = .ok (cs, e')) :
    (∀ c ∈ cs, c.metadata = metadata ∧ c.visibility ∈ slots.map Slot.visibility) ∧
      ∀ slot ∈ slots, (∃ stop, Row slot.opensAt
        (Window.of slot.visibility (cs.map PrivateCertificate.window)) stop) ∧
        (Window.of slot.visibility (cs.map PrivateCertificate.window)).length =
          Manager.certificatesPerVisibility - slot.count := by
  induction slots generalizing e cs with
  | nil =>
      obtain ⟨rfl, _⟩ := Prod.mk.inj (Except.ok.inj h)
      exact ⟨fun _ member => (List.not_mem_nil member).elim,
        fun _ member => (List.not_mem_nil member).elim⟩
  | cons slot slots ih =>
      rw [fillAll] at h
      cases made : slot.fill metadata e with
      | error fault => simp [made, bind, Except.bind] at h
      | ok first =>
          obtain ⟨new, e₁⟩ := first
          cases more : fillAll metadata slots e₁ with
          | error fault => simp [made, more, bind, Except.bind] at h
          | ok rest =>
              obtain ⟨later, e₂⟩ := rest
              simp only [made, more, bind, Except.bind, pure, Except.pure, Except.ok.injEq,
                Prod.mk.injEq] at h
              obtain ⟨rfl, rfl⟩ := h
              rw [List.map_cons, List.nodup_cons] at distinct
              obtain ⟨row, length, all⟩ := chain_ok made
              obtain ⟨others, rows⟩ := ih distinct.2 more
              have foreign : Window.of slot.visibility (later.map PrivateCertificate.window) = [] :=
                of_eq_nil fun c member same => distinct.1 (same ▸ (others c member).2)
              refine ⟨?_, ?_⟩
              · intro c member
                rcases List.mem_append.1 member with own | other
                · exact ⟨(all c own).2, (all c own).1 ▸ List.mem_cons_self⟩
                · exact ⟨(others c other).1, List.mem_cons_of_mem _ (others c other).2⟩
              · intro x member
                rw [List.map_append, of_append]
                rcases List.mem_cons.1 member with rfl | other
                · rw [foreign, List.append_nil, of_eq_self fun c own => (all c own).1]
                  exact ⟨row, by rw [List.length_map, length]⟩
                · have apart : Window.of x.visibility (new.map PrivateCertificate.window) = [] := by
                    refine of_eq_nil fun c own same => distinct.1 ?_
                    rw [← (all c own).1, same]
                    exact List.mem_map_of_mem other
                  rw [apart, List.nil_append]
                  exact rows x other

theorem count_of (v : Visibility) (now : Instant) (cs : List PrivateCertificate) :
    (Slot.of v now cs).count = (Window.of v (cs.map PrivateCertificate.window)).length := by
  rw [Window.of, List.filter_map, List.length_map]
  rfl

theorem opensAt_of (v : Visibility) (now : Instant) (cs : List PrivateCertificate) :
    (Slot.of v now cs).opensAt = (Window.of v (cs.map PrivateCertificate.window)).foldl
      (fun t w => if t ≤ w.closes then w.closes else t) now := by
  rw [Window.of, List.filter_map, List.foldl_map]
  rfl

/-- The certificates that fill up what is left belong to the visibilities that any are made for, and give
each of them what it lacks. -/
theorem refill_ok {left new : List PrivateCertificate}
    (filled : fillAll metadata (Visibility.generated.map fun v => Slot.of v now left) e =
      .ok (new, e')) :
    (∀ c ∈ new, c.metadata = metadata ∧ c.visibility ∈ Visibility.generated) ∧
      ∀ v ∈ Visibility.generated,
        (∃ stop, Row (Slot.of v now left).opensAt (Window.of v (new.map PrivateCertificate.window))
          stop) ∧
          (Window.of v (new.map PrivateCertificate.window)).length =
            Manager.certificatesPerVisibility -
              (Window.of v (left.map PrivateCertificate.window)).length := by
  have names : (Visibility.generated.map fun v => Slot.of v now left).map Slot.visibility =
    Visibility.generated := rfl
  obtain ⟨own, slots⟩ := fillAll_ok (by rw [names]; decide) filled
  rw [names] at own
  refine ⟨own, ?_⟩
  intro v generated
  have slot := slots _ (List.mem_map_of_mem generated)
  rw [count_of] at slot
  exact slot

/-- The windows that fill up a visibility stay close to where the first of them opens. -/
theorem refill_within {left new : List PrivateCertificate}
    (filled : fillAll metadata (Visibility.generated.map fun v => Slot.of v t left) e =
      .ok (new, e'))
    {c : PrivateCertificate} (member : c ∈ new) :
    (Slot.of c.visibility t left).opensAt.nanos ≤ c.notBefore.nanos ∧
      c.notAfter.nanos = c.notBefore.nanos + PrivateCertificate.validityPeriod ∧
      c.notAfter.nanos ≤ (Slot.of c.visibility t left).opensAt.nanos +
        Manager.certificatesPerVisibility * (PrivateCertificate.validityPeriod : Int) := by
  obtain ⟨told, rows⟩ := Slot.refill_ok filled
  obtain ⟨⟨stop, row⟩, length⟩ := rows c.visibility (told c member).2
  have own : c.window ∈ Window.of c.visibility (new.map PrivateCertificate.window) :=
    Window.mem_of.2 ⟨List.mem_map_of_mem member, rfl⟩
  obtain ⟨opens, closes, period⟩ := row.mem own
  have few : (Window.of c.visibility (new.map PrivateCertificate.window)).length ≤
      Manager.certificatesPerVisibility := by
    rw [length]
    exact Nat.sub_le _ _
  have span := Int.mul_le_mul_of_nonneg_right (Int.ofNat_le.2 few)
    (Int.le_of_lt Window.Row.positive)
  refine ⟨opens, period, Int.le_trans closes ?_⟩
  rw [row.stop_eq]
  exact Int.add_le_add_left span _

/-- New windows continue the row that is left, or begin one now. -/
theorem extend {v : Visibility} (made : v ∈ Visibility.generated)
    (h : Rotation t (cs.map PrivateCertificate.window)) (past : now.nanos ≤ t.nanos)
    (unexpired : ∀ w ∈ cs.map PrivateCertificate.window, now < w.closes) {ys : List Window}
    {stop' : Instant} (row' : Row (Slot.of v now cs).opensAt ys stop') :
    now.nanos ≤ (Slot.of v now cs).opensAt.nanos ∧
      ∃ start stop, start.nanos ≤ t.nanos ∧
        Row start (Window.of v (cs.map PrivateCertificate.window) ++ ys) stop := by
  rw [opensAt_of] at row' ⊢
  obtain ⟨start, stop, begun, row⟩ := h.rows v made
  cases own : Window.of v (cs.map PrivateCertificate.window) with
  | nil =>
      rw [own] at row'
      exact ⟨Int.le_refl _, now, stop', past, row'⟩
  | cons w ws =>
      have member : w ∈ Window.of v (cs.map PrivateCertificate.window) := own ▸ List.mem_cons_self
      have ahead : now < w.closes := unexpired w (mem_of.1 member).1
      have first : now.nanos ≤ w.closes.nanos := Int.le_of_lt ahead
      have last := (row.mem member).2.1
      have fold : (w :: ws).foldl (fun t w => if t ≤ w.closes then w.closes else t) now = stop := by
        rw [own] at row
        cases row with
        | cons period rest =>
            rw [List.foldl_cons, if_pos (show now ≤ w.closes from first)]
            by_cases only : ws = []
            · subst only
              exact rest.eq_of_nil
            · exact rest.latest (Int.le_refl _) only
      rw [own, fold] at row'
      rw [fold]
      exact ⟨Int.le_trans first last, start, stop', begun, own ▸ row.append row'⟩

end Slot

/-- Filling up what is left after the expired ones are dropped gives every visibility a full row. -/
theorem Rotation.grow {t now : Instant} {left new : List PrivateCertificate} {metadata : Metadata}
    {e e' : Entropy} (h : Rotation t (left.map PrivateCertificate.window))
    (past : now.nanos ≤ t.nanos) (unexpired : ∀ w ∈ left.map PrivateCertificate.window, now < w.closes)
    (filled : Slot.fillAll metadata (Visibility.generated.map fun v => Slot.of v now left) e =
      .ok (new, e')) :
    Rotation t ((left ++ new).map PrivateCertificate.window) ∧
      (∀ v ∈ Visibility.generated,
        (Window.of v ((left ++ new).map PrivateCertificate.window)).length =
          Manager.certificatesPerVisibility) ∧
      ∀ w ∈ new.map PrivateCertificate.window, now.nanos ≤ w.opens.nanos ∧
        w.closes.nanos ≤ t.nanos + Manager.certificatesPerVisibility *
          (PrivateCertificate.validityPeriod : Int) ∧
        w.closes.nanos = w.opens.nanos + PrivateCertificate.validityPeriod := by
  obtain ⟨own, slots⟩ := Slot.refill_ok filled
  have made : ∀ w ∈ new.map PrivateCertificate.window, w.visibility ∈ Visibility.generated := by
    intro w member
    obtain ⟨c, mine, rfl⟩ := List.mem_map.1 member
    exact (own c mine).2
  have full : ∀ v ∈ Visibility.generated,
      (Window.of v ((left ++ new).map PrivateCertificate.window)).length =
        Manager.certificatesPerVisibility := by
    intro v generated
    have length := (slots v generated).2
    have few := h.few v generated
    rw [List.map_append, Window.of_append, List.length_append, length]
    exact Nat.add_sub_cancel' few
  have whole : ∀ v ∈ Visibility.generated, ∃ start stop, start.nanos ≤ t.nanos ∧
      Window.Row start (Window.of v ((left ++ new).map PrivateCertificate.window)) stop ∧
      ∀ w ∈ Window.of v (new.map PrivateCertificate.window), now.nanos ≤ w.opens.nanos := by
    intro v generated
    obtain ⟨⟨stop', row'⟩, _⟩ := slots v generated
    obtain ⟨later, start, stop, begun, row⟩ := Slot.extend generated h past unexpired row'
    refine ⟨start, stop, begun, ?_, fun w member => Int.le_trans later (row'.mem member).1⟩
    rw [List.map_append, Window.of_append]
    exact row
  refine ⟨⟨?_, ?_, ?_⟩, full, ?_⟩
  · intro w member
    rw [List.map_append] at member
    rcases List.mem_append.1 member with old | young
    · exact h.generated w old
    · exact made w young
  · intro v generated
    exact Nat.le_of_eq (full v generated)
  · intro v generated
    obtain ⟨start, stop, begun, row, _⟩ := whole v generated
    exact ⟨start, stop, begun, row⟩
  · intro w member
    obtain ⟨start, stop, begun, row, later⟩ := whole w.visibility (made w member)
    have mine : w ∈ Window.of w.visibility (new.map PrivateCertificate.window) :=
      Window.mem_of.2 ⟨member, rfl⟩
    have among : w ∈ Window.of w.visibility ((left ++ new).map PrivateCertificate.window) := by
      rw [List.map_append, Window.of_append]
      exact List.mem_append_right _ mine
    obtain ⟨_, closes, period⟩ := row.mem among
    have length := row.stop_eq
    rw [full w.visibility (made w member)] at length
    exact ⟨later w mine, by omega, period⟩

end ProximityCert

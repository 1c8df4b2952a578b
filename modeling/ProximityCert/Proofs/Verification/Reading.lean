import ProximityCert.Verification.Run

/-!
What a read hands out, and why it ends. Of all the frames that a reader has kept or that are still to
come in, a read takes the first of the type it asks for, and leaves the others in their order. This holds
whatever else arrives: pauses, frames of other types, and messages that no read gets past. A read ends
without a frame only if it has kept none of its type and got past everything before its end, which is a
malformed message, the end of the connection, or the end of its time with nothing more to come by then.
-/

namespace ProximityCert

/-- The frame that an arrival brings, if it brings one. -/
def Arrival.frame? : Arrival → Option V1Frame
  | message octets => V1Frame.ofMessage? octets
  | pause _ => none

def Arrival.octets? : Arrival → Option Bytes
  | message octets => some octets
  | pause _ => none

/-- The messages among arrivals, whenever they come in. -/
def Arrival.messages (arrivals : List Arrival) : List Bytes := arrivals.filterMap octets?

/-- The frames in messages; one that is malformed has none. -/
def V1Frame.among (messages : List Bytes) : List V1Frame := messages.filterMap ofMessage?

theorem V1Frame.among_append (before after : List Bytes) :
    among (before ++ after) = among before ++ among after :=
  List.filterMap_append

theorem Arrival.among_messages (arrivals : List Arrival) :
    V1Frame.among (messages arrivals) = arrivals.filterMap frame? := by
  have each : (fun arrival => (octets? arrival).bind V1Frame.ofMessage?) = frame? := by
    funext arrival
    cases arrival with
    | message octets => rfl
    | pause length => rfl
  rw [V1Frame.among, messages, List.filterMap_filterMap, each]

/-- The frames of a link that no read has handed out yet, in the order in which they came or come. -/
def Link.frames (l : Link) : List V1Frame :=
  l.reader.kept ++ l.incoming.arrivals.filterMap Arrival.frame?

/-- The first frame of a type is taken out of a list, which leaves the rest in its order. -/
inductive Taken (type : FrameType) : List V1Frame → V1Frame → List V1Frame → Prop
  | here {f rest} : f.frameType = type → Taken type (f :: rest) f rest
  | later {g frames f left} : g.frameType ≠ type → Taken type frames f left →
      Taken type (g :: frames) f (g :: left)

namespace Taken

variable {type : FrameType} {frames left : List V1Frame} {f : V1Frame}

theorem frameType (h : Taken type frames f left) : f.frameType = type := by
  induction h with
  | here same => exact same
  | later _ _ ih => exact ih

theorem find? (h : Taken type frames f left) :
    frames.find? (fun g => g.frameType = type) = some f := by
  induction h with
  | here same => simp [same]
  | later other _ ih => simpa [other] using ih

/-- A later read for another type finds what it would have found before. -/
theorem find?_left (h : Taken type frames f left) {other : FrameType} (ne : other ≠ type) :
    left.find? (fun g => g.frameType = other) = frames.find? (fun g => g.frameType = other) := by
  induction h with
  | here same => simp [same, ne.symm]
  | later _ _ ih => simp only [List.find?_cons, ih]

theorem append_right (h : Taken type frames f left) (more : List V1Frame) :
    Taken type (frames ++ more) f (left ++ more) := by
  induction h with
  | here same => exact .here same
  | later other _ ih => exact .later other ih

theorem append_left (h : Taken type frames f left) {before : List V1Frame}
    (others : ∀ g ∈ before, g.frameType ≠ type) :
    Taken type (before ++ frames) f (before ++ left) := by
  induction before with
  | nil => exact h
  | cons g before ih =>
      exact .later (others g List.mem_cons_self)
        (ih fun x member => others x (List.mem_cons_of_mem g member))

end Taken

open V1Frame (ofMessage?)

namespace FrameReader

variable {type : FrameType}

theorem taken_of_pick {frames left : List V1Frame} {f : V1Frame}
    (h : pick type frames = some (f, left)) :
    Taken type frames f left := by
  induction frames generalizing left with
  | nil => exact nomatch h
  | cons g rest ih =>
      by_cases same : g.frameType = type
      · rw [pick, if_pos same] at h
        obtain ⟨rfl, rfl⟩ := Prod.mk.inj (Option.some.inj h)
        exact .here same
      · rw [pick, if_neg same, Option.map_eq_some_iff] at h
        obtain ⟨⟨_, others⟩, found, equal⟩ := h
        obtain ⟨rfl, rfl⟩ := Prod.mk.inj equal
        exact .later same (ih found)

theorem others_of_pick {frames : List V1Frame} (h : pick type frames = none) :
    ∀ g ∈ frames, g.frameType ≠ type := by
  induction frames with
  | nil => exact fun _ member => (List.not_mem_nil member).elim
  | cons g rest ih =>
      by_cases same : g.frameType = type
      · simp [pick, same] at h
      · rw [pick, if_neg same, Option.map_eq_none_iff] at h
        exact List.forall_mem_cons.2 ⟨same, ih h⟩

end FrameReader

namespace Arrival

variable {type : FrameType}

/-- The time that an arrival takes. -/
def length : Arrival → Duration
  | message _ => 0
  | pause length => length

/-- The time that arrivals take, one after the other. -/
def span : List Arrival → Duration
  | [] => 0
  | a :: rest => a.length + span rest

@[simp] theorem span_nil : span [] = 0 := rfl

@[simp] theorem span_cons (a : Arrival) (arrivals : List Arrival) :
    span (a :: arrivals) = a.length + span arrivals := rfl

theorem span_append (before after : List Arrival) :
    span (before ++ after) = span before + span after := by
  induction before with
  | nil => exact (Nat.zero_add _).symm
  | cons a before ih => rw [List.cons_append, span_cons, span_cons, ih, Nat.add_assoc]

/-- A read for a type gets past an arrival: a pause, or a frame of another type. -/
def Passes (type : FrameType) : Arrival → Prop
  | message octets => ∃ f, ofMessage? octets = some f ∧ f.frameType ≠ type
  | pause _ => True

theorem others_of_passes {passed : List Arrival} (all : ∀ a ∈ passed, a.Passes type) :
    ∀ g ∈ passed.filterMap frame?, g.frameType ≠ type := by
  intro g member
  obtain ⟨a, own, brings⟩ := List.mem_filterMap.1 member
  cases a with
  | message octets =>
      obtain ⟨f, read, other⟩ := all _ own
      rw [frame?, read, Option.some.injEq] at brings
      exact brings ▸ other
  | pause length => exact nomatch brings

theorem stops_of_own {octets : Bytes} {f : V1Frame} (brings : ofMessage? octets = some f)
    (own : f.frameType = type) : ¬ (message octets).Passes type := by
  rintro ⟨g, reads, other⟩
  exact other (Option.some.inj (brings.symm.trans reads) ▸ own)

theorem stops_of_malformed {octets : Bytes} (bad : ofMessage? octets = none) :
    ¬ (message octets).Passes type := by
  rintro ⟨g, reads, -⟩
  exact nomatch bad.symm.trans reads

/-- Arrivals that are all got past lie before one that is not. -/
theorem split_of_passes {passed rest before later : List Arrival} {a : Arrival}
    (all : ∀ a ∈ passed, a.Passes type) (stops : ¬ a.Passes type)
    (same : passed ++ rest = before ++ a :: later) :
    ∃ more, before = passed ++ more ∧ rest = more ++ a :: later := by
  rcases List.append_eq_append_iff.1 same with ⟨more, left, right⟩ | ⟨more, left, right⟩
  · exact ⟨more, left, right⟩
  · cases more with
    | nil => exact ⟨[], by rw [left, List.append_nil, List.append_nil], right.symm⟩
    | cons b more =>
        obtain ⟨rfl, -⟩ := List.cons.inj right
        exact absurd (all a (left ▸ List.mem_append_right _ List.mem_cons_self)) stops

/-- There is one first arrival that is not got past. -/
theorem first_stop {passed rest before later : List Arrival} {a b : Arrival}
    (all : ∀ a ∈ passed, a.Passes type) (stops : ¬ a.Passes type)
    (all' : ∀ a ∈ before, a.Passes type) (stops' : ¬ b.Passes type)
    (same : passed ++ a :: rest = before ++ b :: later) : a = b := by
  obtain ⟨more, rfl, left⟩ := split_of_passes all stops' same
  cases more with
  | nil => exact (List.cons.inj left).1
  | cons c more =>
      obtain ⟨rfl, -⟩ := List.cons.inj left
      exact absurd (all' a (List.mem_append_right _ List.mem_cons_self)) stops

end Arrival

namespace Turn

/-- What is left of a turn once a read has got past an arrival. -/
def past (t : Turn) : Arrival → Turn
  | .message _ => t.step
  | .pause length => if length = 0 then t.step else t.wait length

/-- What is left of a turn once a read has got past arrivals. -/
def after (t : Turn) (passed : List Arrival) : Turn := passed.foldl past t

theorem step?_eq_some {t t' : Turn} {patience : Duration} (h : t.step? patience = some t') :
    t.step = t' := by
  unfold step? at h
  split at h
  · exact nomatch h
  · exact Option.some.inj h

theorem step?_eq_none {t : Turn} {patience : Duration} (h : t.step? patience = none) :
    t = 0 ∧ patience = 0 := by
  unfold step? at h
  split at h
  · next ended => exact ended
  · exact nomatch h

end Turn

open Arrival (span)

namespace FrameReader

/-- Nothing more comes to a read in its time, by what it got past and what is left: the peer stays silent,
or the next pause is too long; or the time is up to the instant and the turn is over, either behind a
message or before a pause without length. -/
inductive OutOfTime (patience : Duration) (turn : Turn) (closes : Bool) : List Arrival → List Arrival → Prop
  | silence {passed : List Arrival} : closes = false → OutOfTime patience turn closes passed []
  | pause {passed later : List Arrival} {length : Duration} : patience < span passed + length →
      OutOfTime patience turn closes passed (.pause length :: later)
  | atMessage {passed rest : List Arrival} {octets : Bytes} : span passed = patience →
      turn.after passed = 0 → OutOfTime patience turn closes (passed ++ [.message octets]) rest
  | atPause {passed later : List Arrival} : span passed = patience → turn.after passed = 0 →
      OutOfTime patience turn closes passed (.pause 0 :: later)

/-- What a read for a type gets past in its time, and what it keeps of it. -/
structure Passed (type : FrameType) (patience : Duration) (kept : List V1Frame) (passed : List Arrival)
    (keeps : List V1Frame) : Prop where
  others : ∀ a ∈ passed, a.Passes type
  time : span passed ≤ patience
  keeps : keeps = kept ++ passed.filterMap Arrival.frame?

/-- How a read ends that waits for a frame of a type, by the first arrival that it does not get past, or
because none comes in its time. -/
inductive Waits (type : FrameType) (patience : Duration) (turn : Turn) (closes : Bool) (kept : List V1Frame)
    (arrivals : List Arrival) (e : Reception) : Prop
  | heard (passed : List Arrival) (octets : Bytes) (f : V1Frame) :
      Passed type patience kept passed e.reader.kept → arrivals = passed ++ .message octets :: e.rest →
      ofMessage? octets = some f → f.frameType = type → e.frame = some f → e.elapsed = span passed →
      Waits type patience turn closes kept arrivals e
  | malformed (passed : List Arrival) (octets : Bytes) :
      Passed type patience kept passed e.reader.kept → arrivals = passed ++ .message octets :: e.rest →
      ofMessage? octets = none → e.frame = none → e.elapsed = span passed →
      Waits type patience turn closes kept arrivals e
  | closed : Passed type patience kept arrivals e.reader.kept → e.rest = [] → closes = true →
      e.frame = none → e.elapsed = span arrivals → Waits type patience turn closes kept arrivals e
  | timedOut (passed : List Arrival) :
      Passed type patience kept passed e.reader.kept → arrivals = passed ++ e.rest →
      OutOfTime patience turn closes passed e.rest → e.frame = none → e.elapsed = patience →
      Waits type patience turn closes kept arrivals e

/-- How a read ends: with the first kept frame of its type, or, if there is none, by waiting for one. -/
inductive Ends (type : FrameType) (patience : Duration) (turn : Turn) (closes : Bool) (kept : List V1Frame)
    (arrivals : List Arrival) (e : Reception) : Prop
  | kept (f : V1Frame) : Taken type kept f e.reader.kept → e.rest = arrivals → e.frame = some f →
      e.elapsed = 0 → Ends type patience turn closes kept arrivals e
  | waited : (∀ g ∈ kept, g.frameType ≠ type) → Waits type patience turn closes kept arrivals e →
      Ends type patience turn closes kept arrivals e

variable {type : FrameType} {patience : Duration} {turn : Turn} {closes : Bool}
  {kept : List V1Frame} {arrivals passed rest : List Arrival} {a : Arrival} {e : Reception}

theorem OutOfTime.past (h : OutOfTime (patience - a.length) (turn.past a) closes passed rest)
    (fits : a.length ≤ patience) : OutOfTime patience turn closes (a :: passed) rest := by
  have whole {before : List Arrival} (time : span before = patience - a.length) :
      span (a :: before) = patience := by
    rw [Arrival.span_cons, time]
    exact Nat.add_sub_cancel' fits
  cases h with
  | silence stays => exact .silence stays
  | pause long =>
      refine .pause ?_
      rw [Arrival.span_cons, Nat.add_assoc]
      exact (Nat.sub_lt_iff_lt_add' fits).1 long
  | @atMessage before _ octets time ended =>
      exact @atMessage patience turn closes (a :: before) rest octets (whole time) ended
  | atPause time ended => exact .atPause (whole time) ended

theorem Passed.nil : Passed type patience kept [] kept :=
  ⟨fun _ member => (List.not_mem_nil member).elim, Nat.zero_le _, (List.append_nil _).symm⟩

theorem Passed.past {keeps : List V1Frame}
    (h : Passed type (patience - a.length) (kept ++ a.frame?.toList) passed keeps)
    (passes : a.Passes type) (fits : a.length ≤ patience) :
    Passed type patience kept (a :: passed) keeps where
  others := List.forall_mem_cons.2 ⟨passes, h.others⟩
  time := by
    rw [Arrival.span_cons]
    exact Nat.add_le_of_le_sub' fits h.time
  keeps := by
    rw [h.keeps, List.append_assoc, List.filterMap_cons]
    cases a.frame? <;> rfl

/-- To get past an arrival only adds its time, and its frame to those that are kept. -/
theorem Waits.past
    (h : Waits type (patience - a.length) (turn.past a) closes (kept ++ a.frame?.toList) rest e)
    (passes : a.Passes type) (fits : a.length ≤ patience) :
    Waits type patience turn closes kept (a :: rest) { e with elapsed := a.length + e.elapsed } := by
  have longer {passed : List Arrival} (time : e.elapsed = span passed) :
      a.length + e.elapsed = span (a :: passed) := by rw [time, Arrival.span_cons]
  cases h with
  | heard passed octets f got split brings own frame time =>
      exact .heard (a :: passed) octets f (got.past passes fits) (congrArg (a :: ·) split) brings own frame
        (longer time)
  | malformed passed octets got split bad frame time =>
      exact .malformed (a :: passed) octets (got.past passes fits) (congrArg (a :: ·) split) bad frame
        (longer time)
  | closed got none closing frame time =>
      exact .closed (got.past passes fits) none closing frame (longer time)
  | timedOut passed got split late frame time =>
      exact .timedOut (a :: passed) (got.past passes fits) (congrArg (a :: ·) split) (late.past fits) frame
        ((congrArg (a.length + ·) time).trans (Nat.add_sub_cancel' fits))

/-- What takes no time only adds its frame. -/
theorem Waits.instant
    (h : Waits type patience (turn.past a) closes (kept ++ a.frame?.toList) rest e)
    (passes : a.Passes type) (none : a.length = 0) :
    Waits type patience turn closes kept (a :: rest) e := by
  have same : patience - a.length = patience := by rw [none, Nat.sub_zero]
  have whole := Waits.past (same.symm ▸ h) passes (none ▸ Nat.zero_le patience)
  simpa only [none, Nat.zero_add] using whole

theorem waits_await {r : FrameReader} :
    Waits type patience turn closes r.kept arrivals (await type closes patience turn arrivals r) := by
  -- what is got past uses up patience and turn and adds to what is kept, so all three vary
  induction arrivals generalizing patience turn r with
  | nil =>
      cases closes with
      | true => exact .closed .nil rfl rfl rfl rfl
      | false => exact .timedOut [] .nil rfl (.silence rfl) rfl rfl
  | cons arrival rest ih =>
      cases arrival with
      | pause length =>
          by_cases instant : length = 0
          · subst instant
            rw [await, if_pos rfl]
            cases next : turn.step? patience with
            | some turn' =>
                have stepped : turn.past (.pause 0) = turn' := Turn.step?_eq_some next
                have later : Waits type patience turn' closes r.kept rest
                    (await type closes patience turn' rest r) := ih
                exact Waits.instant (a := .pause 0) (by simpa [Arrival.frame?, stepped] using later)
                  trivial rfl
            | none =>
                obtain ⟨ended, spent⟩ := Turn.step?_eq_none next
                exact .timedOut [] .nil rfl (.atPause spent.symm ended) rfl spent.symm
          · rw [await, if_neg instant]
            by_cases within : length ≤ patience
            · rw [if_pos within]
              have waited : turn.past (.pause length) = turn.wait length := if_neg instant
              have later : Waits type (patience - length) (turn.wait length) closes r.kept rest
                  (await type closes (patience - length) (turn.wait length) rest r) := ih
              exact Waits.past (a := .pause length) (by
                simpa [Arrival.length, Arrival.frame?, waited] using later) trivial within
            · rw [if_neg within]
              have long : patience < span [] + length := by simpa using Nat.lt_of_not_le within
              exact .timedOut [] .nil rfl (.pause long) rfl rfl
      | message octets =>
          cases brings : ofMessage? octets with
          | none =>
              simp only [await, hear, brings]
              exact .malformed [] octets .nil rfl brings rfl rfl
          | some f =>
              by_cases own : f.frameType = type
              · simp only [await, hear, brings, if_pos own]
                exact .heard [] octets f .nil rfl brings own rfl rfl
              · simp only [await, hear, brings, if_neg own]
                have passes : (Arrival.message octets).Passes type := ⟨f, brings, own⟩
                cases next : turn.step? patience with
                | some turn' =>
                    have stepped : turn.past (.message octets) = turn' := Turn.step?_eq_some next
                    have later : Waits type patience turn' closes (r.kept ++ [f]) rest
                        (await type closes patience turn' rest ⟨r.kept ++ [f]⟩) := ih
                    exact Waits.instant (a := .message octets)
                      (by simpa [Arrival.frame?, brings, stepped] using later) passes rfl
                | none =>
                    obtain ⟨ended, spent⟩ := Turn.step?_eq_none next
                    have kept : r.kept ++ [f] = r.kept ++ (Arrival.message octets).frame?.toList := by
                      rw [Arrival.frame?, brings, Option.toList_some]
                    have got : Passed type patience r.kept [.message octets] (r.kept ++ [f]) :=
                      kept ▸ Passed.nil.past passes (Nat.zero_le patience)
                    have late : OutOfTime patience turn closes ([] ++ [.message octets]) rest :=
                      .atMessage spent.symm ended
                    exact .timedOut [.message octets] got rfl late rfl spent.symm

/-- A read asks for the first message behind two steps, one to come to the kept frames and one to ask. -/
theorem ends_read (r : FrameReader) (type : FrameType) (patience : Duration) (turn : Turn)
    (incoming : Incoming) :
    Ends type patience turn.step.step incoming.closes r.kept incoming.arrivals
      (r.read type patience turn incoming) := by
  unfold read take?
  cases picked : pick type r.kept with
  | some found =>
      obtain ⟨f, kept⟩ := found
      exact .kept f (taken_of_pick picked) rfl rfl rfl
  | none => exact .waited (others_of_pick picked) waits_await

/-- Of the frames that were there before a read, it has handed one out, or none is gone. -/
inductive Accounts (type : FrameType) : List V1Frame → Option V1Frame → List V1Frame → Prop
  | handed {before left : List V1Frame} {f : V1Frame} : Taken type before f left →
      Accounts type before (some f) left
  | nothing {frames : List V1Frame} : Accounts type frames none frames

theorem Waits.accounts (h : Waits type patience turn closes kept arrivals e)
    (others : ∀ g ∈ kept, g.frameType ≠ type) :
    Accounts type (kept ++ arrivals.filterMap Arrival.frame?) e.frame
      (e.reader.kept ++ e.rest.filterMap Arrival.frame?) := by
  cases h with
  | heard passed octets f got split brings own frame _ =>
      have before : ∀ g ∈ e.reader.kept, g.frameType ≠ type :=
        got.keeps ▸ List.forall_mem_append.2 ⟨others, Arrival.others_of_passes got.others⟩
      have here : Taken type (f :: e.rest.filterMap Arrival.frame?) f (e.rest.filterMap Arrival.frame?) :=
        .here own
      have whole : kept ++ arrivals.filterMap Arrival.frame? =
          e.reader.kept ++ f :: e.rest.filterMap Arrival.frame? := by
        simp [split, got.keeps, Arrival.frame?, brings]
      rw [frame, whole]
      exact .handed (here.append_left before)
  | malformed passed octets got split bad frame _ =>
      have whole : kept ++ arrivals.filterMap Arrival.frame? =
          e.reader.kept ++ e.rest.filterMap Arrival.frame? := by
        simp [split, got.keeps, Arrival.frame?, bad]
      rw [frame, whole]
      exact .nothing
  | closed got ended _ frame _ =>
      rw [frame, ended, got.keeps, List.filterMap_nil, List.append_nil]
      exact .nothing
  | timedOut passed got split _ frame _ =>
      rw [frame, split, got.keeps, List.filterMap_append, List.append_assoc]
      exact .nothing

theorem Ends.accounts (h : Ends type patience turn closes kept arrivals e) :
    Accounts type (kept ++ arrivals.filterMap Arrival.frame?) e.frame
      (e.reader.kept ++ e.rest.filterMap Arrival.frame?) := by
  cases h with
  | kept f taken rest frame _ =>
      rw [frame, rest]
      exact .handed (taken.append_right _)
  | waited others waits => exact waits.accounts others

/-- A frame that a read for its type has to hand out: it is the first of the type that is kept; or none is
kept, and it comes in before the time is up, behind nothing but pauses and frames of other types. -/
inductive Due (type : FrameType) (patience : Duration) (kept : List V1Frame) (arrivals : List Arrival)
    (f : V1Frame) : Prop
  | kept : kept.find? (fun g => g.frameType = type) = some f → Due type patience kept arrivals f
  | coming (passed later : List Arrival) (octets : Bytes) : (∀ g ∈ kept, g.frameType ≠ type) →
      arrivals = passed ++ .message octets :: later → (∀ a ∈ passed, a.Passes type) →
      span passed < patience → ofMessage? octets = some f → f.frameType = type →
      Due type patience kept arrivals f

/-- A message that is left when the time is up has not come before. -/
theorem OutOfTime.le_span {more later : List Arrival} {octets : Bytes}
    (h : OutOfTime patience turn closes passed (more ++ .message octets :: later)) :
    patience ≤ span (passed ++ more) := by
  rw [Arrival.span_append]
  generalize left : more ++ .message octets :: later = rest at h
  cases h with
  | silence _ => exact absurd left (List.append_ne_nil_of_right_ne_nil _ (List.cons_ne_nil _ _))
  | pause long =>
      -- the pause that is too long comes before the message
      cases more with
      | nil => exact nomatch left
      | cons first more =>
          obtain ⟨rfl, -⟩ := List.cons.inj left
          rw [Arrival.span_cons, ← Nat.add_assoc]
          exact Nat.le_trans (Nat.le_of_lt long) (Nat.le_add_right _ _)
  | atMessage time _ =>
      rw [Arrival.span_append, time, Nat.add_assoc]
      exact Nat.le_add_right _ _
  | atPause time _ => exact time ▸ Nat.le_add_right _ _

theorem Waits.hands_out {f : V1Frame} {octets : Bytes} {later : List Arrival}
    (h : Waits type patience turn closes kept (passed ++ .message octets :: later) e)
    (all : ∀ a ∈ passed, a.Passes type) (time : span passed < patience)
    (brings : ofMessage? octets = some f) (own : f.frameType = type) : e.frame = some f := by
  have stops : ¬ (Arrival.message octets).Passes type := Arrival.stops_of_own brings own
  cases h with
  | heard before m g got split reads same frame _ =>
      have equal := Arrival.first_stop got.others (Arrival.stops_of_own reads same) all stops split.symm
      rw [frame, ← reads, ← brings, Arrival.message.inj equal]
  | malformed before m got split bad frame _ =>
      have equal := Arrival.first_stop got.others (Arrival.stops_of_malformed bad) all stops split.symm
      rw [Arrival.message.inj equal, brings] at bad
      exact nomatch bad
  | closed got _ _ _ _ =>
      exact absurd (got.others _ (List.mem_append_right _ List.mem_cons_self)) stops
  | timedOut before got split late _ _ =>
      obtain ⟨more, rfl, left⟩ := Arrival.split_of_passes got.others stops split.symm
      exact absurd time (Nat.not_lt_of_le (left ▸ late).le_span)

theorem Ends.hands_out {f : V1Frame} (h : Ends type patience turn closes kept arrivals e)
    (due : Due type patience kept arrivals f) : e.frame = some f := by
  cases due with
  | kept first =>
      cases h with
      | kept g taken _ frame _ => rw [frame, ← taken.find?, first]
      | waited others _ =>
          exact absurd (by simpa using List.find?_some first) (others f (List.mem_of_find?_eq_some first))
  | coming passed later octets others split all time brings own =>
      cases h with
      | kept g taken _ _ _ => exact absurd taken.frameType (others g (List.mem_of_find?_eq_some taken.find?))
      | waited _ waits => exact (split ▸ waits).hands_out all time brings own

end FrameReader

/-- A read hands out the first frame of its type, and leaves the others in their order. -/
theorem Link.taken_of_read {l : Link} {type : FrameType} {patience : Duration} {f : V1Frame}
    (h : (l.read type patience).1 = some f) :
    Taken type l.frames f (l.read type patience).2.frames := by
  have found : (l.reader.read type patience l.turn l.incoming).frame = some f := h
  have accounts := (l.reader.ends_read type patience l.turn l.incoming).accounts
  rw [found] at accounts
  cases accounts with
  | handed taken => exact taken

end ProximityCert

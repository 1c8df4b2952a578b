import ProximityCert.Proofs.Verification.Reading

/-!
All the reads on one connection. What a read takes without handing it out it keeps, so of every type
the frames that were handed out are the first that came in, and the others are still to be had, whatever
the reads in between asked for and however they ended. A read that hands out nothing has a reason: neither
what was kept nor what came in its time had a frame for it.
-/

namespace ProximityCert

namespace V1Frame

def ofType (type : FrameType) (frames : List V1Frame) : List V1Frame :=
  frames.filter fun f => f.frameType = type

theorem ofType_append (type : FrameType) (before after : List V1Frame) :
    ofType type (before ++ after) = ofType type before ++ ofType type after :=
  List.filter_append ..

end V1Frame

open V1Frame

/-- Taking a frame shortens what there is of its type by the first, and leaves the other types alone. -/
theorem Taken.ofType {type : FrameType} {frames left : List V1Frame} {f : V1Frame}
    (h : Taken type frames f left) (other : FrameType) :
    V1Frame.ofType other frames = (if type = other then [f] else []) ++ V1Frame.ofType other left := by
  induction h with
  | here same =>
      by_cases own : type = other <;> simp [V1Frame.ofType, same, own]
  | @later g frames f left ne _ ih =>
      by_cases counted : g.frameType = other
      · have foreign : type ≠ other := fun own => ne (counted.trans own.symm)
        rw [if_neg foreign, List.nil_append] at ih ⊢
        simp only [V1Frame.ofType, List.filter_cons, counted, decide_true, if_true] at ih ⊢
        rw [ih]
      · simpa only [V1Frame.ofType, List.filter_cons, counted, decide_false, Bool.false_eq_true,
          if_false] using ih

namespace FrameReader

/-- What a read hands out of a type comes before what it leaves. -/
theorem Accounts.ofType {type : FrameType} {before left : List V1Frame} {frame : Option V1Frame}
    (h : Accounts type before frame left) (other : FrameType) :
    ofType other before = (if type = other then frame.toList else []) ++ ofType other left := by
  cases h with
  | handed taken => exact Taken.ofType taken other
  | nothing => simp

end FrameReader

/-- One read of a reader, with what comes in from its start on. -/
structure ReadCall where
  type : FrameType
  patience : Duration
  turn : Turn
  incoming : Incoming

namespace ReadCall

/-- A read that was served, with what the reader had kept when it began, and its end. -/
structure Served where
  call : ReadCall
  kept : List V1Frame
  reception : Reception

def serve (c : ReadCall) (r : FrameReader) : Reception := r.read c.type c.patience c.turn c.incoming

/-- What the reads of one type handed out. -/
def delivered (type : FrameType) (log : List Served) : List V1Frame :=
  (log.filter fun s => s.call.type = type).filterMap fun s => s.reception.frame

theorem delivered_append (type : FrameType) (log : List Served) (s : Served) :
    delivered type (log ++ [s]) =
      delivered type log ++ (if s.call.type = type then s.reception.frame.toList else []) := by
  by_cases own : s.call.type = type
  · cases handed : s.reception.frame <;> simp [delivered, own, handed]
  · simp [delivered, own]

/-- The reads that a new reader has served: the messages that have come in so far, each read with its
end, the reader after them, and the messages that are left. Between two reads more messages may come, and
those left may come at other times than before. -/
inductive History : List Bytes → List Served → FrameReader → List Bytes → Prop
  | new : History [] [] {} []
  | next {came left : List Bytes} {log : List Served} {r : FrameReader} (c : ReadCall)
      (fresh : List Bytes) : History came log r left →
      Arrival.messages c.incoming.arrivals = left ++ fresh →
      History (came ++ fresh) (log ++ [⟨c, r.kept, c.serve r⟩]) (c.serve r).reader
        (Arrival.messages (c.serve r).rest)

/-- A read has ended for a reason that lies in what was kept and what came in: it found the first kept frame
of its type; or, none being kept, it came to a frame of its type, to a malformed message or to the end of
the connection, or it ran out of time before any of them. -/
def Served.Explained (s : Served) : Prop :=
  FrameReader.Ends s.call.type s.call.patience s.call.turn.step.step s.call.incoming.closes s.kept
    s.call.incoming.arrivals s.reception

/-- A frame that a read has to hand out, since it was kept or comes in time. -/
def Served.Due (s : Served) (f : V1Frame) : Prop :=
  FrameReader.Due s.call.type s.call.patience s.kept s.call.incoming.arrivals f

variable {came left : List Bytes} {log : List Served} {r : FrameReader}

theorem explained_serve (c : ReadCall) (r : FrameReader) : Served.Explained ⟨c, r.kept, c.serve r⟩ :=
  r.ends_read c.type c.patience c.turn c.incoming

/-- No frame is lost and none is handed out twice. -/
theorem History.conserves (h : History came log r left) (type : FrameType) :
    ofType type (among came) = delivered type log ++ ofType type (r.kept ++ among left) := by
  induction h with
  | new => rfl
  | @next came left log r c fresh _ incoming ih =>
      have account := (explained_serve c r).accounts.ofType type
      rw [← Arrival.among_messages, ← Arrival.among_messages, incoming] at account
      calc
        ofType type (among (came ++ fresh))
            = delivered type log ++ ofType type (r.kept ++ among (left ++ fresh)) := by
          simp only [among_append, ofType_append, ih, List.append_assoc]
        _ = _ := by rw [account, delivered_append, List.append_assoc]

theorem History.explained (h : History came log r left) : ∀ s ∈ log, s.Explained := by
  induction h with
  | new => exact fun _ member => (List.not_mem_nil member).elim
  | @next came left log r c fresh _ _ ih =>
      exact List.forall_mem_append.2 ⟨ih, List.forall_mem_singleton.2 (explained_serve c r)⟩

/-- The reads of each type hand out a prefix of the valid frames of that type in their order; the others
are kept or still to come. A read without a frame has kept none of its type and met none: it got past
everything before a malformed message, before the end of the connection, or until its time was up, which
is then exactly the time it took. A frame that is kept, or comes before the time is up, is handed out. -/
theorem History.delivers_in_order (h : History came log r left) :
    (∀ type, delivered type log <+: ofType type (among came) ∧
      ofType type (among came) = delivered type log ++ ofType type (r.kept ++ among left)) ∧
    ∀ s ∈ log, s.Explained ∧ ∀ f, s.Due f → s.reception.frame = some f :=
  ⟨fun type => ⟨⟨_, (h.conserves type).symm⟩, h.conserves type⟩,
    fun s served => ⟨h.explained s served, fun _ due => (h.explained s served).hands_out due⟩⟩

def early : V1Frame := { type := some FrameType.pairedKeyResult.code, result := some {} }

def proofs : V1Frame :=
  { type := some FrameType.pairedKeyEncryption.code, encryption := some { signedData := some [7] } }

/-- Asks for proofs while only a verdict is there, meets a malformed message, and asks for both at last. -/
def outOfOrder : List ReadCall :=
  [⟨.pairedKeyEncryption, 5, .full, ⟨[.message early.message], false⟩⟩,
   ⟨.pairedKeyEncryption, 5, .full, ⟨[.pause 2, .message [255], .message proofs.message], true⟩⟩,
   ⟨.pairedKeyResult, 5, .full, ⟨[.message proofs.message], true⟩⟩,
   ⟨.pairedKeyEncryption, 5, .full, ⟨[.pause 1, .message proofs.message], true⟩⟩,
   ⟨.pairedKeyEncryption, 5, .full, ⟨[], true⟩⟩]

theorem delivers_in_order_outOfOrder : ∃ log r left,
    History [early.message, [255], proofs.message] log r left ∧ log.map Served.call = outOfOrder ∧
    log.map (fun s => s.reception.frame) = [none, none, some early, some proofs, none] ∧
    log.map (fun s => s.reception.elapsed) = [5, 2, 0, 1, 0] ∧
    (∀ type, delivered type log <+: ofType type [early, proofs]) ∧
    ∀ s ∈ log, s.Explained ∧ ∀ f, s.Due f → s.reception.frame = some f := by
  have timedOut := History.new.next outOfOrder[0] [early.message] rfl
  have broken := timedOut.next outOfOrder[1] [[255], proofs.message] rfl
  have kept := broken.next outOfOrder[2] [] rfl
  have heard := kept.next outOfOrder[3] [] rfl
  have closed := heard.next outOfOrder[4] [] rfl
  have law := closed.delivers_in_order
  exact ⟨_, _, _, closed, rfl, rfl, rfl, fun type => (law.1 type).1, law.2⟩

end ReadCall
end ProximityCert
